import Freenet.Ring.PeerInterests

/-! Downstream peers, which the hosting manager keeps and the interest manager counts. -/
namespace Freenet.Ring
open Contract Lib HostingManager InterestTables LocalInterest ContractKey

/-- What happens to downstream subscriptions, to the interests of peers and to the local reasons for
interest. A peer or contract that could not be looked up is `none`. -/
inductive DownstreamEvent where
  | subscribe (contract : ContractKey) (requester : Option PeerKey) (now : Nat)
  | unsubscribe (contract : Option ContractKey) (sender : Option PeerKey)
  | sendUnsubscribeUpstream (contract : ContractKey)
  | interestMessage (sender : Option PeerKey) (message : InterestMessage) (now : Nat)
  | registerPeerInterest (contract : ContractKey) (peer : PeerKey) (isUpstream : Bool) (now : Nat)
  | connectionLost (peer : PeerKey) (now : Nat)
  | connectionEstablished (peer : PeerKey)
  | sweepTask (now : Nat)
  | expireStaleDownstreamSubscribers (keys : List ContractKey) (now : Nat)
  | registerLocalHosting (contract : ContractKey)
  | unregisterLocalHosting (contract : ContractKey)
  | addLocalClient (contract : ContractKey)
  | removeLocalClient (contract : ContractKey)

structure DownstreamRun where
  hosting : HostingManager
  interests : InterestTables

namespace DownstreamRun

def new (budgetBytes minTtl : Nat) : DownstreamRun := ⟨.new budgetBytes minTtl, .new⟩

variable (contractHash : ContractKey → Nat) (s : DownstreamRun) (contract : ContractKey)
  (peer : PeerKey)

/-- For first requests and for renewals. -/
def registerDownstreamSubscriber (now : Nat) : DownstreamRun :=
  let hosting := s.hosting.addDownstreamSubscriber now contract peer
  if s.hosting.acceptsDownstream contract peer then
    let r := s.interests.registerPeerInterest contractHash now contract peer none false
    ⟨hosting, if r.2 then (r.1.addDownstreamSubscriber contractHash contract).1 else r.1⟩
  else ⟨hosting, s.interests⟩

def handleUnsubscribe : DownstreamRun :=
  let wasDownstream := s.hosting.isDownstream contract peer
  let r := s.interests.removePeerInterest contractHash contract peer
  ⟨s.hosting.removeDownstreamSubscriber contract peer,
    if wasDownstream || r.2 then (r.1.removeDownstreamSubscriber contractHash contract).1 else r.1⟩

def upstreamPeer : Option PeerKey :=
  ((((s.interests.interestedPeers.lookup contract).getD ∅).entries.insertionSort
    fun e e' => e.1 ≤ e'.1).find? fun e => e.2.isUpstream).map fun e => e.1

def sendUnsubscribeUpstream : DownstreamRun :=
  ⟨s.hosting.unsubscribe contract, match s.upstreamPeer contract with
    | none => s.interests
    | some peer => (s.interests.removePeerInterest contractHash contract peer).1⟩

def lowerCounts (expired : List (ContractKey × Nat)) : InterestTables :=
  expired.foldl (fun interests e => (fun interests : InterestTables =>
      (interests.removeDownstreamSubscriber contractHash e.1).1)^[e.2] interests) s.interests

def expireDownstream (keys : List ContractKey) (now : Nat) : DownstreamRun :=
  let r := s.hosting.expireDownstreamOver now keys
  ⟨r.1, s.lowerCounts contractHash r.2⟩

def apply : DownstreamEvent → DownstreamRun
  | .subscribe contract (some peer) now =>
    s.registerDownstreamSubscriber contractHash contract peer now
  | .subscribe _ none _ => s
  | .unsubscribe (some contract) (some peer) => s.handleUnsubscribe contractHash contract peer
  | .unsubscribe _ _ => s
  | .sendUnsubscribeUpstream contract => s.sendUnsubscribeUpstream contractHash contract
  | .interestMessage (some peer) message now =>
    { s with interests := s.interests.handleInterestSyncMessage contractHash now peer message }
  | .interestMessage none _ _ => s
  | .registerPeerInterest contract peer isUpstream now =>
    { s with interests :=
      (s.interests.registerPeerInterest contractHash now contract peer none isUpstream).1 }
  | .connectionLost peer now => { s with interests := s.interests.scheduleDeferredRemoval now peer }
  | .connectionEstablished peer => { s with interests := s.interests.cancelDeferredRemoval peer }
  | .sweepTask now => { s with interests := s.interests.sweepTask contractHash now }
  | .expireStaleDownstreamSubscribers keys now => s.expireDownstream contractHash keys now
  | .registerLocalHosting contract =>
    { s with interests := (s.interests.registerLocalHosting contractHash contract).1 }
  | .unregisterLocalHosting contract =>
    { s with interests := (s.interests.unregisterLocalHosting contractHash contract).1 }
  | .addLocalClient contract =>
    { s with interests := (s.interests.addLocalClient contractHash contract).1 }
  | .removeLocalClient contract =>
    { s with interests := (s.interests.removeLocalClient contractHash contract).1 }

def count : Nat := s.interests.localInterests.downstreamSubscriberCount contract

def isInterested : Bool := (s.interests.getPeerInterest contract peer).isSome

/-- The two managers agree on the number of downstream subscribers of every contract. -/
def InSync : Prop := ∀ contract, s.count contract = s.hosting.downstreamNumber contract

/-- A peer that subscribes is tracked as interested in the contract exactly if it is already a
downstream subscriber of it, and one that unsubscribes and is tracked is one, unless the contract
has none. -/
def Tracked : DownstreamEvent → Prop
  | .subscribe contract (some peer) _ => s.hosting.acceptsDownstream contract peer = true →
      s.isInterested contract peer = s.hosting.isDownstream contract peer
  | .unsubscribe (some contract) (some peer) => s.isInterested contract peer = true →
      s.hosting.isDownstream contract peer = true ∨ s.hosting.downstreamNumber contract = 0
  | _ => True

instance : DecidablePred s.Tracked
  | .subscribe _ (some _) _ => inferInstanceAs (Decidable (_ → _))
  | .unsubscribe (some _) (some _) => inferInstanceAs (Decidable (_ → _))
  | .subscribe _ none _ | .unsubscribe none _ | .unsubscribe (some _) none
  | .sendUnsubscribeUpstream _ | .interestMessage _ _ _ | .registerPeerInterest _ _ _ _
  | .connectionLost _ _ | .connectionEstablished _ | .sweepTask _
  | .expireStaleDownstreamSubscribers _ _ | .registerLocalHosting _ | .unregisterLocalHosting _
  | .addLocalClient _ | .removeLocalClient _ => isTrue trivial

variable {contractHash s contract peer} {contract' : ContractKey} {now : Nat}

theorem count_registerDownstreamSubscriber :
    (s.registerDownstreamSubscriber contractHash contract peer now).count contract' =
      if contract' = contract ∧ s.hosting.acceptsDownstream contract peer = true ∧
        s.isInterested contract peer = false then s.count contract' + 1 else s.count contract' := by
  unfold registerDownstreamSubscriber isInterested
  dsimp only
  rw [isNew_registerPeerInterest]
  by_cases hacc : s.hosting.acceptsDownstream contract peer = true
  · rw [if_pos hacc]
    cases hinterest : s.interests.getPeerInterest contract peer with
    | none =>
      refine downstreamSubscriberCount_addDownstreamSubscriber.trans ?_
      simp only [hacc, Option.isSome_none, and_true]
      rfl
    | some i =>
      simp only [Option.isSome_some, Bool.true_eq_false, and_false, if_false]
      rfl
  · rw [if_neg hacc, if_neg fun h => hacc h.2.1]
    rfl

theorem count_handleUnsubscribe : (s.handleUnsubscribe contractHash contract peer).count contract' =
    if contract' = contract ∧
        (s.hosting.isDownstream contract peer || s.isInterested contract peer) = true
    then s.count contract' - 1 else s.count contract' := by
  unfold handleUnsubscribe isInterested count
  dsimp only
  rw [removed_removePeerInterest]
  by_cases htrack : (s.hosting.isDownstream contract peer ||
    (s.interests.getPeerInterest contract peer).isSome) = true
  · rw [if_pos htrack, downstreamSubscriberCount_removeDownstreamSubscriber,
      localInterests_removePeerInterest]
    simp only [htrack, and_true]
  · rw [if_neg htrack, if_neg fun h => htrack h.2, localInterests_removePeerInterest]

theorem count_lowerCounts {expired : List (ContractKey × Nat)} :
    (s.lowerCounts contractHash expired).localInterests.downstreamSubscriberCount contract =
      s.count contract - expiredNumber expired contract := by
  unfold lowerCounts count
  generalize s.interests = interests
  induction expired generalizing interests with
  | nil => rfl
  | cons e expired ih =>
    rw [List.foldl_cons, ih, downstreamSubscriberCount_iterate_removeDownstreamSubscriber,
      expiredNumber_cons]
    by_cases hkey : contract = e.1
    · rw [if_pos hkey, if_pos hkey.symm]
      omega
    · rw [if_neg hkey, if_neg (Ne.symm hkey), Nat.zero_add]

theorem InSync.new (budgetBytes minTtl : Nat) : (new budgetBytes minTtl).InSync := fun _ => rfl

/-- A subscription that is accepted counts a peer that is not tracked, and adds one that is not
held. -/
theorem InSync.registerDownstreamSubscriber_iff (hs : s.InSync) :
    (s.registerDownstreamSubscriber contractHash contract peer now).InSync ↔
      s.Tracked (.subscribe contract (some peer) now) := by
  have hhost : (s.registerDownstreamSubscriber contractHash contract peer now).hosting =
      s.hosting.addDownstreamSubscriber now contract peer := by
    unfold registerDownstreamSubscriber
    split_ifs <;> rfl
  unfold InSync
  simp only [count_registerDownstreamSubscriber, hhost, downstreamNumber_addDownstreamSubscriber]
  constructor
  · intro h hacc
    have hcontr := h contract
    have hbefore := hs contract
    cases hinter : s.isInterested contract peer <;>
      cases hdownstr : s.hosting.isDownstream contract peer <;>
      simp_all
  · intro htrack contract'
    have hbefore := hs contract'
    by_cases hacc : s.hosting.acceptsDownstream contract peer = true
    · rw [htrack hacc, hbefore]
    · rw [if_neg fun h => hacc h.2.1, if_neg fun h => hacc h.2.1, hbefore]

/-- A peer that is held is counted; one that is only tracked lowers the count all the same. -/
theorem InSync.handleUnsubscribe_iff (hs : s.InSync) :
    (s.handleUnsubscribe contractHash contract peer).InSync ↔
      s.Tracked (.unsubscribe (some contract) (some peer)) := by
  have hhost : (s.handleUnsubscribe contractHash contract peer).hosting =
      s.hosting.removeDownstreamSubscriber contract peer := rfl
  unfold InSync
  simp only [count_handleUnsubscribe, hhost, downstreamNumber_removeDownstreamSubscriber]
  constructor
  · intro h hinter
    have hcontr := h contract
    have hbefore := hs contract
    cases hdownstr : s.hosting.isDownstream contract peer with
    | true => exact .inl rfl
    | false =>
      simp only [hdownstr, hinter, Bool.or_true, and_self, if_true, Bool.false_eq_true, and_false,
        if_false] at hcontr
      omega
  · intro htrack contract'
    have hbefore := hs contract'
    by_cases hsame : contract' = contract
    · subst hsame
      cases hdownstr : s.hosting.isDownstream contract' peer with
      | true => simp [hbefore]
      | false =>
        cases hinter : s.isInterested contract' peer with
        | true =>
          -- the count saturates at zero
          have hzero := (htrack hinter).resolve_left (by simp [hdownstr])
          simp [hbefore, hzero]
        | false => simp [hbefore]
    · rw [if_neg fun h => hsame h.1, if_neg fun h => hsame h.1, hbefore]

theorem InSync.expireDownstream {keys : List ContractKey} (hs : s.InSync) :
    (s.expireDownstream contractHash keys now).InSync := by
  intro contract
  have hcount : (s.expireDownstream contractHash keys now).count contract =
      s.count contract - expiredNumber (s.hosting.expireDownstreamOver now keys).2 contract :=
    count_lowerCounts
  have hnumb : expiredNumber (s.hosting.expireDownstreamOver now keys).2 contract +
      (s.expireDownstream contractHash keys now).hosting.downstreamNumber contract =
        s.hosting.downstreamNumber contract := expireDownstreamOver_number
  have hbefore := hs contract
  omega

theorem InSync.of_eq {s' : DownstreamRun} (hs : s.InSync)
    (hhost : s'.hosting.downstreamSubscribers = s.hosting.downstreamSubscribers)
    (hcount : ∀ contract, s'.count contract = s.count contract) : s'.InSync := by
  intro contract
  rw [hcount, hs contract]
  unfold downstreamNumber downstream
  rw [hhost]

theorem InSync.apply_iff {e : DownstreamEvent} (hs : s.InSync) :
    (s.apply contractHash e).InSync ↔ s.Tracked e := by
  match e with
  | .subscribe contract (some peer) now => exact hs.registerDownstreamSubscriber_iff
  | .subscribe _ none _ | .unsubscribe none _ | .unsubscribe (some _) none
  | .interestMessage none _ _ => exact iff_of_true hs trivial
  | .unsubscribe (some contract) (some peer) => exact hs.handleUnsubscribe_iff
  | .sendUnsubscribeUpstream contract =>
    refine iff_of_true (hs.of_eq rfl fun contract' => ?_) trivial
    unfold apply sendUnsubscribeUpstream count
    dsimp only
    split
    · rfl
    · rw [localInterests_removePeerInterest]
  | .interestMessage (some peer) message now =>
    refine iff_of_true (hs.of_eq rfl fun contract => ?_) trivial
    exact congrArg (InterestManager.downstreamSubscriberCount · contract)
      localInterests_handleInterestSyncMessage
  | .registerPeerInterest contract peer isUpstream now | .connectionLost peer now
  | .connectionEstablished peer => exact iff_of_true (hs.of_eq rfl fun _ => rfl) trivial
  | .sweepTask now =>
    refine iff_of_true (hs.of_eq rfl fun contract => ?_) trivial
    exact congrArg (InterestManager.downstreamSubscriberCount · contract) localInterests_sweepTask
  | .expireStaleDownstreamSubscribers keys now => exact iff_of_true hs.expireDownstream trivial
  | .registerLocalHosting contract | .addLocalClient contract =>
    refine iff_of_true (hs.of_eq rfl fun contract' => ?_) trivial
    exact InterestManager.count_addReason_of_eq downstreamSubscriberCount fun _ => rfl
  | .unregisterLocalHosting contract =>
    refine iff_of_true (hs.of_eq rfl fun contract' => ?_) trivial
    unfold apply count unregisterLocalHosting
    rw [localInterests_lessened]
    exact InterestManager.count_dropReason_of_eq downstreamSubscriberCount
      downstreamSubscriberCount_of_not_isInterested
      (g := fun i => { i with hosting := false }) (fun _ => rfl) fun _ => rfl
  | .removeLocalClient contract =>
    refine iff_of_true (hs.of_eq rfl fun contract' => ?_) trivial
    unfold apply count removeLocalClient
    rw [localInterests_lessened]
    exact InterestManager.count_dropReason_of_eq downstreamSubscriberCount
      downstreamSubscriberCount_of_not_isInterested
      (g := fun i => { i with localClientCount := i.localClientCount - 1 }) (fun _ => rfl)
      fun _ => rfl

end DownstreamRun

/-! Runs of downstream subscriptions: when the count of subscribers is their number. -/

/-- What happens on one node; `contractHash` is the hash by which neighbours name contracts. -/
def downstreams (contractHash : ContractKey → Nat) : Machine DownstreamRun DownstreamEvent where
  init s := ∃ budgetBytes minTtl, s = .new budgetBytes minTtl
  step s e := some (s.apply contractHash e)

/-- The two managers agree on every contract in all states of a run exactly when every peer that
subscribes is tracked as interested if and only if it is held as a subscriber, and no peer
unsubscribes that is only tracked while there are other subscribers. -/
theorem downstreamCounts_iff {contractHash : ContractKey → Nat} {s₀ : DownstreamRun}
    (hinit : (downstreams contractHash).init s₀) (es : List DownstreamEvent) :
    (∀ fs s, fs <+: es → (downstreams contractHash).runFrom s₀ fs = some s →
      ∀ contract, s.interests.localInterests.downstreamSubscriberCount contract =
        (s.hosting.downstream contract).entries.length) ↔
      (downstreams contractHash).Along (fun s e => s.Tracked e) s₀ es := by
  obtain ⟨budgetBytes, minTtl, rfl⟩ := hinit
  refine (downstreams contractHash).forall_prefix_iff_along DownstreamRun.InSync ?_ es
    (.new budgetBytes minTtl)
  intro s e hs
  have hiff : (s.apply contractHash e).InSync ↔ s.Tracked e := hs.apply_iff
  rw [← hiff]
  constructor
  · intro h
    exact h _ rfl
  · rintro h s' hstep
    cases hstep
    exact h

def leasedPeers : List DownstreamEvent :=
  [.subscribe ⟨1, 1⟩ (some 7) 0, .subscribe ⟨1, 1⟩ (some 8) 0, .subscribe ⟨1, 1⟩ (some 8) 5,
    .interestMessage (some 9) (.changeInterests [1] []) 5, .unsubscribe (some ⟨1, 1⟩) (some 7)]

theorem leasedPeers_counted : ∃ s,
    (downstreams id).runFrom (.new 0 0) leasedPeers = some s ∧
    (s.hosting.downstream ⟨1, 1⟩).keys = [8] ∧
      s.interests.localInterests.downstreamSubscriberCount ⟨1, 1⟩ = 1 := by
  refine Machine.exists_run_imp (fun s => (s.hosting.downstream ⟨1, 1⟩).keys = [8] ∧
    (s.hosting.downstream ⟨1, 1⟩).entries.length = 1) (by decide +kernel) ?_
  rintro s hs ⟨hkeys, hlength⟩
  have htrack : (downstreams id).Along (fun s e => s.Tracked e) (.new 0 0) leasedPeers := by
    decide +kernel
  have hcount := (downstreamCounts_iff ⟨0, 0, rfl⟩ leasedPeers).mpr htrack
    leasedPeers s List.prefix_rfl hs ⟨1, 1⟩
  exact ⟨hkeys, hcount.trans hlength⟩

/-- A neighbour that has told of its interest is not counted when it subscribes; nor is a peer that
subscribes again after its lease ran out; and one that renews after it withdrew its interest is
counted twice. -/
theorem interestedPeer_miscounted : (∃ s, (downstreams id).runFrom (.new 0 0)
        [.registerLocalHosting ⟨1, 1⟩, .interestMessage (some 7) (.changeInterests [1] []) 0,
          .subscribe ⟨1, 1⟩ (some 7) 0] = some s ∧ (s.hosting.downstream ⟨1, 1⟩).keys = [7] ∧
      s.interests.localInterests.downstreamSubscriberCount ⟨1, 1⟩ = 0) ∧
    (∃ s, (downstreams id).runFrom (.new 0 0)
        [.subscribe ⟨1, 1⟩ (some 7) 0, .expireStaleDownstreamSubscribers [⟨1, 1⟩] (480 * 10 ^ 9),
          .subscribe ⟨1, 1⟩ (some 7) (480 * 10 ^ 9)] = some s ∧
      (s.hosting.downstream ⟨1, 1⟩).keys = [7] ∧
      s.interests.localInterests.downstreamSubscriberCount ⟨1, 1⟩ = 0) ∧
    ∃ s, (downstreams id).runFrom (.new 0 0)
        [.subscribe ⟨1, 1⟩ (some 7) 0, .interestMessage (some 7) (.changeInterests [] [1]) 1,
          .subscribe ⟨1, 1⟩ (some 7) 2] = some s ∧ (s.hosting.downstream ⟨1, 1⟩).keys = [7] ∧
      s.interests.localInterests.downstreamSubscriberCount ⟨1, 1⟩ = 2 := by
  decide +kernel

end Freenet.Ring
