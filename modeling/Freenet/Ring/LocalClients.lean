import Freenet.Ring.PeerInterests

/-! Subscriptions of clients, which the hosting manager keeps as sets and the interest manager
counts. -/
namespace Freenet.Ring
open Contract Lib List HostingManager LocalInterest InterestManager Function
open Node (ClientId)
namespace HostingManager
variable {m : HostingManager} {instanceId instanceId' : ContractInstanceId} {client : ClientId}

theorem clients_addClientSubscription : (m.addClientSubscription instanceId client).clients instanceId' =
    if instanceId' = instanceId then (m.clients instanceId).insert client else m.clients instanceId' := by
  rw [clients, addClientSubscription]
  split_ifs with h
  · rw [h, AList.lookup_insert]
    rfl
  · rw [AList.lookup_insert_ne h]
    rfl

theorem clients_removeClientSubscription :
    (m.removeClientSubscription instanceId client).clients instanceId' =
    if instanceId' = instanceId then (m.clients instanceId).erase client else m.clients instanceId' := by
  unfold removeClientSubscription clients
  cases hlook : m.clientSubscriptions.lookup instanceId with
  | none =>
    split_ifs with h
    · rw [h, hlook]
      rfl
    · rfl
  | some clients =>
    dsimp only
    split_ifs with hempty h h
    · rw [h, AList.lookup_erase]
      exact (isEmpty_iff.mp hempty).symm
    · rw [AList.lookup_erase_ne h]
    · rw [h, AList.lookup_insert]
      rfl
    · rw [AList.lookup_insert_ne h]

theorem activeSubscriptions_removeClientSubscription :
    (m.removeClientSubscription instanceId client).activeSubscriptions = m.activeSubscriptions := by
  unfold removeClientSubscription
  split <;> rfl

theorem mem_instanceIdsWithClient : instanceId ∈ m.instanceIdsWithClient client ↔
    client ∈ m.clients instanceId := by
  unfold instanceIdsWithClient
  rw [(perm_insertionSort _ _).mem_iff, mem_map]
  constructor
  · rintro ⟨⟨instanceId', clients⟩, hmem, rfl⟩
    obtain ⟨hentry, hclient⟩ := mem_filter.mp hmem
    have hlook : m.clientSubscriptions.lookup instanceId' = some clients := AList.mem_lookup_iff.mpr hentry
    rw [HostingManager.clients, hlook]
    exact of_decide_eq_true hclient
  · intro hclient
    unfold clients at hclient
    cases hlook : m.clientSubscriptions.lookup instanceId with
    | none =>
      rw [hlook] at hclient
      cases hclient
    | some clients =>
      rw [hlook] at hclient
      refine ⟨⟨instanceId, clients⟩, mem_filter.mpr ⟨AList.mem_lookup_iff.mp hlook, ?_⟩, rfl⟩
      exact decide_eq_true hclient

theorem nodup_instanceIdsWithClient : (m.instanceIdsWithClient client).Nodup := by
  unfold instanceIdsWithClient
  rw [(perm_insertionSort _ _).nodup_iff]
  exact m.clientSubscriptions.keys_nodup.sublist (filter_sublist.map _)

theorem clients_removeClientFromAllSubscriptions :
    (m.removeClientFromAllSubscriptions client).1.clients instanceId =
    (m.clients instanceId).erase client := by
  have hview : (m.removeClientFromAllSubscriptions client).1.clients instanceId =
      if instanceId ∈ m.instanceIdsWithClient client then (m.clients instanceId).erase client
      else m.clients instanceId := by
    refine view_foldl (fun m i => m.removeClientSubscription i client) clients
      (fun _ clients => clients.erase client) ?_ ?_ nodup_instanceIdsWithClient instanceId
    · intro m i j hne
      rw [clients_removeClientSubscription, if_neg hne]
    · intro m i
      rw [clients_removeClientSubscription, if_pos rfl]
  rw [hview]
  split_ifs with hclient
  · rfl
  · rw [mem_instanceIdsWithClient] at hclient
    exact (erase_of_not_mem hclient).symm

theorem activeSubscriptions_removeClientFromAllSubscriptions :
    (m.removeClientFromAllSubscriptions client).1.activeSubscriptions = m.activeSubscriptions := by
  unfold removeClientFromAllSubscriptions
  dsimp only
  generalize m.instanceIdsWithClient client = instanceIds
  induction instanceIds generalizing m with
  | nil => rfl
  | cons instanceId instanceIds ih => rw [foldl_cons, ih, activeSubscriptions_removeClientSubscription]

variable {contract : ContractKey}

theorem findActive_eq_some (h : m.findActive instanceId = some contract) :
    contract.id = instanceId ∧ contract ∈ m.activeSubscriptions.keys := by
  obtain ⟨e, hfind, rfl⟩ := Option.map_eq_some_iff.mp h
  have hid := find?_some hfind
  exact ⟨of_decide_eq_true hid, mem_map_of_mem (mem_of_find?_eq_some hfind)⟩

theorem nodup_affectedContracts : (m.removeClientFromAllSubscriptions client).2.Nodup := by
  refine Nodup.filterMap ?_ nodup_instanceIdsWithClient
  intro i j contract hi hj
  rw [← (findActive_eq_some hi).1, ← (findActive_eq_some hj).1]

theorem mem_affectedContracts : contract ∈ (m.removeClientFromAllSubscriptions client).2 ↔
      client ∈ m.clients contract.id ∧ m.findActive contract.id = some contract := by
  unfold removeClientFromAllSubscriptions
  rw [mem_filterMap]
  constructor
  · rintro ⟨instanceId, hmem, hfind⟩
    rw [(findActive_eq_some hfind).1]
    exact ⟨mem_instanceIdsWithClient.mp hmem, hfind⟩
  · rintro ⟨hclient, hfind⟩
    exact ⟨contract.id, mem_instanceIdsWithClient.mpr hclient, hfind⟩

end HostingManager

/-- What happens to the subscriptions of clients, and to the leases and reasons for interest beside
them. A response completes a subscribe operation at the node it originated from; other nodes only
get a lease. -/
inductive SubscriptionEvent where
  | addClientSubscription (instanceId : ContractInstanceId) (client : ClientId)
  | completeLocalSubscription (instanceId : ContractInstanceId) (isRenewal : Bool)
  | subscribeResponse (instanceId : ContractInstanceId) (isOriginator isRenewal : Bool) (now : Nat)
  | disconnect (client : ClientId)
  | unsubscribe (instanceId : ContractInstanceId)
  | expireStaleSubscriptions (now : Nat)
  | registerLocalHosting (instanceId : ContractInstanceId)
  | unregisterLocalHosting (instanceId : ContractInstanceId)
  | addDownstreamSubscriber (instanceId : ContractInstanceId)
  | removeDownstreamSubscriber (instanceId : ContractInstanceId)

/-- The two managers, and for each contract how many clients were added to its set whose subscribe
operations have yet to complete. -/
structure SubscriptionRun where
  hosting : HostingManager
  interest : InterestManager
  awaiting : ContractInstanceId → Nat

namespace SubscriptionRun

def new (budgetBytes minTtl : Nat) : SubscriptionRun := ⟨.new budgetBytes minTtl, .new, fun _ => 0⟩

variable (code : ContractInstanceId → Nat) (s : SubscriptionRun) (instanceId : ContractInstanceId)

def contract : ContractKey := ⟨instanceId, code instanceId⟩

def addClient (client : ClientId) : SubscriptionRun :=
  { s with
    hosting := s.hosting.addClientSubscription instanceId client
    awaiting :=
      if client ∈ s.hosting.clients instanceId then s.awaiting
      else update s.awaiting instanceId (s.awaiting instanceId + 1) }

def complete (isRenewal : Bool) : SubscriptionRun :=
  if isRenewal then s
  else { s with
    interest := (s.interest.addLocalClient (contract code instanceId)).1
    awaiting := update s.awaiting instanceId (s.awaiting instanceId - 1) }

def disconnect (client : ClientId) : SubscriptionRun :=
  let r := s.hosting.removeClientFromAllSubscriptions client
  { s with
    hosting := r.1
    interest := r.2.foldl (fun interest contract => (interest.removeLocalClient contract).1) s.interest }

def apply : SubscriptionEvent → SubscriptionRun
  | .addClientSubscription instanceId client => s.addClient instanceId client
  | .completeLocalSubscription instanceId isRenewal => s.complete code instanceId isRenewal
  | .subscribeResponse instanceId isOriginator isRenewal now =>
    let s := { s with hosting := s.hosting.subscribe now (contract code instanceId) }
    if isOriginator then s.complete code instanceId isRenewal else s
  | .disconnect client => s.disconnect client
  | .unsubscribe instanceId => { s with hosting := s.hosting.unsubscribe (contract code instanceId) }
  | .expireStaleSubscriptions now => { s with hosting := s.hosting.expireStaleSubscriptions now }
  | .registerLocalHosting instanceId =>
    { s with interest := (s.interest.registerLocalHosting (contract code instanceId)).1 }
  | .unregisterLocalHosting instanceId =>
    { s with interest := (s.interest.unregisterLocalHosting (contract code instanceId)).1 }
  | .addDownstreamSubscriber instanceId =>
    { s with interest := (s.interest.addDownstreamSubscriber (contract code instanceId)).1 }
  | .removeDownstreamSubscriber instanceId =>
    { s with interest := (s.interest.removeDownstreamSubscriber (contract code instanceId)).1 }

def Matched : SubscriptionEvent → Prop
  | .completeLocalSubscription instanceId isRenewal => isRenewal = true ∨ 0 < s.awaiting instanceId
  | .subscribeResponse instanceId isOriginator isRenewal _ =>
    isOriginator = false ∨ isRenewal = true ∨ 0 < s.awaiting instanceId
  | .disconnect client => ∀ instanceId ∈ s.hosting.instanceIdsWithClient client,
      (s.hosting.findActive instanceId).isSome = true ∧
        0 < s.interest.localClientCount (contract code instanceId)
  | .addClientSubscription _ _ | .unsubscribe _ | .expireStaleSubscriptions _ | .registerLocalHosting _
  | .unregisterLocalHosting _ | .addDownstreamSubscriber _ | .removeDownstreamSubscriber _ => True

instance : DecidablePred (s.Matched code)
  | .completeLocalSubscription instanceId isRenewal =>
    inferInstanceAs (Decidable (isRenewal = true ∨ 0 < s.awaiting instanceId))
  | .subscribeResponse instanceId isOriginator isRenewal _ =>
    inferInstanceAs (Decidable (isOriginator = false ∨ isRenewal = true ∨ 0 < s.awaiting instanceId))
  | .disconnect client => inferInstanceAs (Decidable (∀ instanceId ∈ s.hosting.instanceIdsWithClient client,
      (s.hosting.findActive instanceId).isSome = true ∧
        0 < s.interest.localClientCount (contract code instanceId)))
  | .addClientSubscription _ _ | .unsubscribe _ | .expireStaleSubscriptions _ | .registerLocalHosting _
  | .unregisterLocalHosting _ | .addDownstreamSubscriber _ | .removeDownstreamSubscriber _ => isTrue trivial

/-- The clients of a contract are counted as soon as their subscribe operations have completed. -/
structure Balanced : Prop where
  nodup : ∀ instanceId, (s.hosting.clients instanceId).Nodup
  keyed : ∀ key ∈ s.hosting.activeSubscriptions.keys, key = contract code key.id
  balance : ∀ instanceId, (s.hosting.clients instanceId).length =
    s.interest.localClientCount (contract code instanceId) + s.awaiting instanceId

variable {code s instanceId} {client : ClientId}

theorem Balanced.new (budgetBytes minTtl : Nat) : (new budgetBytes minTtl).Balanced code where
  nodup _ := nodup_nil
  keyed _ h := by cases h
  balance _ := rfl

section
variable (hs : s.Balanced code)
include hs

theorem Balanced.lease {hosting : HostingManager}
    (hclients : ∀ instanceId, hosting.clients instanceId = s.hosting.clients instanceId)
    (hkeys : ∀ key ∈ hosting.activeSubscriptions.keys,
      key ∈ s.hosting.activeSubscriptions.keys ∨ key = contract code key.id) :
    { s with hosting := hosting }.Balanced code where
  nodup instanceId := by
    rw [hclients]
    exact hs.nodup instanceId
  keyed key hkey := (hkeys key hkey).elim (hs.keyed key) id
  balance instanceId := by
    rw [hclients]
    exact hs.balance instanceId

theorem Balanced.reason {interest : InterestManager}
    (hcount : ∀ key, interest.localClientCount key = s.interest.localClientCount key) :
    { s with interest := interest }.Balanced code where
  nodup := hs.nodup
  keyed := hs.keyed
  balance instanceId := by
    rw [hcount]
    exact hs.balance instanceId

theorem Balanced.addClient : (s.addClient instanceId client).Balanced code := by
  have hclients (instanceId' : ContractInstanceId) :
      (s.addClient instanceId client).hosting.clients instanceId' =
        if instanceId' = instanceId then (s.hosting.clients instanceId).insert client
        else s.hosting.clients instanceId' := clients_addClientSubscription
  refine ⟨fun instanceId' => ?_, hs.keyed, fun instanceId' => ?_⟩
  · rw [hclients]
    split_ifs
    · exact (hs.nodup instanceId).insert
    · exact hs.nodup instanceId'
  · have hbal := hs.balance instanceId'
    rw [hclients, SubscriptionRun.addClient]
    dsimp only
    by_cases hid : instanceId' = instanceId
    · subst hid
      rw [if_pos rfl]
      split_ifs with hclient
      · rw [insert_of_mem hclient]
        exact hbal
      · rw [length_insert_of_not_mem hclient, update_self]
        omega
    · split_ifs
      · exact hbal
      · rw [update_of_ne hid]
        exact hbal

theorem Balanced.complete {isRenewal : Bool}
    (hmatched : isRenewal = true ∨ 0 < s.awaiting instanceId) :
    (s.complete code instanceId isRenewal).Balanced code := by
  unfold SubscriptionRun.complete
  split_ifs with hrenew
  · exact hs
  · have hpos : 0 < s.awaiting instanceId := hmatched.resolve_left hrenew
    refine ⟨hs.nodup, hs.keyed, fun instanceId' => ?_⟩
    have hbal := hs.balance instanceId'
    dsimp only
    rw [localClientCount_addLocalClient, hbal]
    by_cases hid : instanceId' = instanceId
    · subst hid
      rw [if_pos rfl, update_self]
      omega
    · rw [if_neg fun h => hid (congrArg ContractKey.id h), update_of_ne hid]

end

theorem localClientCount_disconnect {key : ContractKey} :
    (s.disconnect client).interest.localClientCount key =
      if key ∈ (s.hosting.removeClientFromAllSubscriptions client).2 then s.interest.localClientCount key - 1
      else s.interest.localClientCount key := by
  refine view_foldl (fun interest contract => (removeLocalClient interest contract).1)
    localClientCount (fun _ count => count - 1) ?_ ?_ nodup_affectedContracts key
  · intro interest key key' hne
    rw [localClientCount_removeLocalClient, if_neg hne]
  · intro interest key
    rw [localClientCount_removeLocalClient, if_pos rfl]

theorem Balanced.disconnect (hs : s.Balanced code) (hmatched : s.Matched code (.disconnect client)) :
    (s.disconnect client).Balanced code := by
  have hclients (instanceId : ContractInstanceId) :
      (s.disconnect client).hosting.clients instanceId = (s.hosting.clients instanceId).erase client :=
    clients_removeClientFromAllSubscriptions
  refine ⟨fun instanceId => ?_, ?_, fun instanceId => ?_⟩
  · rw [hclients]
    exact (hs.nodup instanceId).erase client
  · have hactive : (s.disconnect client).hosting.activeSubscriptions = s.hosting.activeSubscriptions :=
      activeSubscriptions_removeClientFromAllSubscriptions
    rw [hactive]
    exact hs.keyed
  · have hbal := hs.balance instanceId
    have hawait : (s.disconnect client).awaiting instanceId = s.awaiting instanceId := rfl
    rw [hclients, localClientCount_disconnect]
    by_cases hclient : client ∈ s.hosting.clients instanceId
    · obtain ⟨hactive, hpos⟩ := hmatched instanceId (mem_instanceIdsWithClient.mpr hclient)
      obtain ⟨key, hfind⟩ := Option.isSome_iff_exists.mp hactive
      have hkey : key = contract code instanceId := by
        obtain ⟨hid, hmem⟩ := findActive_eq_some hfind
        rw [hs.keyed key hmem, hid]
      rw [hkey] at hfind
      have haffect : contract code instanceId ∈ (s.hosting.removeClientFromAllSubscriptions client).2 :=
        mem_affectedContracts.mpr ⟨hclient, hfind⟩
      rw [if_pos haffect, length_erase_of_mem hclient]
      omega
    · have hunaff : contract code instanceId ∉ (s.hosting.removeClientFromAllSubscriptions client).2 :=
        fun hmem => hclient (mem_affectedContracts.mp hmem).1
      rw [if_neg hunaff, erase_of_not_mem hclient]
      exact hbal

theorem Balanced.apply {e : SubscriptionEvent} (hs : s.Balanced code) (hmatched : s.Matched code e) :
    (s.apply code e).Balanced code := by
  cases e with
  | addClientSubscription instanceId client => exact hs.addClient
  | completeLocalSubscription instanceId isRenewal => exact hs.complete hmatched
  | subscribeResponse instanceId isOriginator isRenewal now =>
    have hlease : { s with
        hosting := s.hosting.subscribe now (contract code instanceId) }.Balanced code := by
      refine hs.lease (fun _ => rfl) fun key hkey => ?_
      unfold subscribe at hkey
      rw [AList.keys_insert, mem_cons] at hkey
      refine hkey.symm.imp mem_of_mem_erase ?_
      rintro rfl
      rfl
    unfold SubscriptionRun.apply
    dsimp only
    split_ifs with horig
    · exact hlease.complete (hmatched.resolve_left (by simp [horig]))
    · exact hlease
  | disconnect client => exact hs.disconnect hmatched
  | unsubscribe instanceId =>
    refine hs.lease (fun _ => rfl) fun key hkey => ?_
    unfold unsubscribe at hkey
    rw [AList.keys_erase] at hkey
    exact .inl (mem_of_mem_erase hkey)
  | expireStaleSubscriptions now =>
    refine hs.lease (fun _ => rfl) fun key hkey => ?_
    exact .inl ((filter_sublist.map _).subset hkey)
  | registerLocalHosting instanceId | addDownstreamSubscriber instanceId =>
    exact hs.reason fun _ => count_addReason_of_eq localClientCount fun _ => rfl
  | unregisterLocalHosting instanceId =>
    exact hs.reason fun _ => count_dropReason_of_eq localClientCount
      localClientCount_of_not_isInterested
      (g := fun i => { i with hosting := false }) (fun _ => rfl) fun _ => rfl
  | removeDownstreamSubscriber instanceId =>
    exact hs.reason fun _ => count_dropReason_of_eq localClientCount
      localClientCount_of_not_isInterested
      (g := fun i => { i with downstreamSubscriberCount := i.downstreamSubscriberCount - 1 })
      (fun _ => rfl) fun _ => rfl

end SubscriptionRun

/-! Runs of client subscriptions: when the count of local clients is the size of the set. -/

/-- What happens on one node, where `code` says to which code an instance belongs. -/
def subscriptions (code : ContractInstanceId → Nat) : Machine SubscriptionRun SubscriptionEvent where
  init s := ∃ budgetBytes minTtl, s = .new budgetBytes minTtl
  step s e := some (s.apply code e)

/-- In every run in which completions and disconnects match the clients in the sets, the two
managers agree on a contract exactly when no client of it awaits the completion of its subscribe
operation. -/
theorem localClientCount_eq_iff {code : ContractInstanceId → Nat} {s₀ s : SubscriptionRun}
    {es : List SubscriptionEvent} (hinit : (subscriptions code).init s₀)
    (hmatched : (subscriptions code).Along (fun s e => s.Matched code e) s₀ es)
    (hrun : (subscriptions code).runFrom s₀ es = some s) (instanceId : ContractInstanceId) :
    s.interest.localClientCount (SubscriptionRun.contract code instanceId) =
      (s.hosting.clients instanceId).length ↔ s.awaiting instanceId = 0 := by
  obtain ⟨budgetBytes, minTtl, rfl⟩ := hinit
  have hs : s.Balanced code := by
    refine (subscriptions code).invariant_of_along _ (fun s => s.Balanced code) ?_
      (SubscriptionRun.Balanced.new budgetBytes minTtl) hmatched hrun
    intro s e s' hs hmatched hstep
    cases hstep
    exact hs.apply hmatched
  have hbal := hs.balance instanceId
  omega

def subscribingClients : List SubscriptionEvent :=
  [.addClientSubscription 1 7, .subscribeResponse 1 true false 0, .addClientSubscription 1 8,
    .subscribeResponse 1 true false 0, .disconnect 7]

theorem subscribingClients_counted : ∃ s,
    (subscriptions fun _ => 1).runFrom (.new 0 0) subscribingClients = some s ∧
    s.hosting.clients 1 = [8] ∧ s.interest.localClientCount ⟨1, 1⟩ = 1 := by
  refine Machine.exists_run_imp (fun s => s.hosting.clients 1 = [8] ∧ s.awaiting 1 = 0)
    (by decide +kernel) ?_
  rintro s hs ⟨hclients, hawait⟩
  have hmatched : (subscriptions fun _ => 1).Along (fun s e => s.Matched (fun _ => 1) e) (.new 0 0)
      subscribingClients := by
    decide +kernel
  have hcount := (localClientCount_eq_iff ⟨0, 0, rfl⟩ hmatched hs 1).mpr hawait
  rw [hclients] at hcount
  exact ⟨hclients, hcount⟩

/-- A client that subscribes twice is counted twice; and one that subscribed on a node without a
lease for the contract is still counted when it has disconnected. -/
theorem repeatedClient_overcounted : (∃ s, (subscriptions fun _ => 1).runFrom (.new 0 0)
        [.addClientSubscription 1 7, .subscribeResponse 1 true false 0,
          .addClientSubscription 1 7, .subscribeResponse 1 true false 0] = some s ∧
      s.hosting.clients 1 = [7] ∧ s.interest.localClientCount ⟨1, 1⟩ = 2) ∧
    ∃ s, (subscriptions fun _ => 1).runFrom (.new 0 0)
        [.addClientSubscription 1 7, .completeLocalSubscription 1 false, .disconnect 7] = some s ∧
      s.hosting.clients 1 = [] ∧ s.interest.localClientCount ⟨1, 1⟩ = 1 := by
  decide +kernel

end Freenet.Ring
