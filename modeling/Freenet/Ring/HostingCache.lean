import Freenet.Lib.Entries
import Freenet.Node.RequestRouter

/-! The hosting cache: contracts in the order of their last access. Times are nanoseconds. -/
namespace Freenet.Ring
open Contract Lib

def defaultHostingBudgetBytes : Nat := 100 * 1024 * 1024

inductive AccessType where
  | get
  | put
  | subscribe
  deriving DecidableEq

structure HostedContract where
  sizeBytes : Nat
  lastAccessed : Nat
  accessType : AccessType
  deriving DecidableEq

structure RecordAccessResult where
  isNew : Bool
  evicted : List ContractKey

structure HostingCache where
  budgetBytes : Nat
  currentBytes : Nat
  minTtl : Nat
  lruOrder : List ContractKey
  contracts : AList fun _ : ContractKey => HostedContract

structure PersistedEntry where
  key : ContractKey
  sizeBytes : Nat
  accessType : AccessType
  lastAccessAge : Nat

namespace HostingCache

def new (budgetBytes minTtl : Nat) : HostingCache := ⟨budgetBytes, 0, minTtl, [], ∅⟩

variable (c : HostingCache) (now : Nat) (key : ContractKey)

def contains : Bool := (c.contracts.lookup key).isSome

def moveToBack : HostingCache := { c with lruOrder := c.lruOrder.filter (· ≠ key) ++ [key] }

/-- A contract is gone, and its bytes are free again. -/
def release (entry : HostedContract) : HostingCache :=
  { c with
    contracts := c.contracts.erase key
    currentBytes := c.currentBytes - entry.sizeBytes }

/-- Evicts the contracts at the front of the order until there is room, or one is found within its
time to live. -/
def evictOldest (build : Build) (sizeBytes : Nat) :
    List ContractKey → HostingCache → Outcome (HostingCache × List ContractKey)
  | [], c => do
    let _ ← addUsize build c.currentBytes sizeBytes
    return (c, [])
  | oldest :: rest, c => do
    let total ← addUsize build c.currentBytes sizeBytes
    if total ≤ c.budgetBytes then return (c, [])
    else
      match c.contracts.lookup oldest with
      | none => evictOldest build sizeBytes rest { c with lruOrder := rest }
      | some entry =>
        if c.minTtl ≤ now - entry.lastAccessed then do
          let (c, evicted) ← evictOldest build sizeBytes rest
            { c.release oldest entry with lruOrder := rest }
          return (c, oldest :: evicted)
        else return (c, [])

def recordAccess (build : Build) (sizeBytes : Nat) (accessType : AccessType) :
    Outcome (HostingCache × RecordAccessResult) :=
  match c.contracts.lookup key with
  | some existing =>
    let currentBytes :=
      if existing.sizeBytes ≠ sizeBytes then saturatingAdd c.currentBytes sizeBytes - existing.sizeBytes
      else c.currentBytes
    let c := { c with
      currentBytes := currentBytes
      contracts := c.contracts.insert key ⟨sizeBytes, now, accessType⟩ }
    return (c.moveToBack key, ⟨false, []⟩)
  | none => do
    let (c, evicted) ← evictOldest now build sizeBytes c.lruOrder c
    let c := { c with
      contracts := c.contracts.insert key ⟨sizeBytes, now, accessType⟩
      lruOrder := c.lruOrder ++ [key]
      currentBytes := saturatingAdd c.currentBytes sizeBytes }
    return (c, ⟨true, evicted⟩)

def touch : HostingCache :=
  match c.contracts.lookup key with
  | some existing =>
    { c with contracts := c.contracts.insert key { existing with lastAccessed := now } }.moveToBack key
  | none => c

def remove : HostingCache × Nat :=
  match c.contracts.lookup key with
  | some removed =>
    ({ c.release key removed with lruOrder := c.lruOrder.filter (· ≠ key) }, removed.sizeBytes)
  | none => (c, 0)

def keepInOrder (r : HostingCache × List ContractKey) : HostingCache × List ContractKey :=
  ({ r.1 with lruOrder := key :: r.1.lruOrder }, r.2)

/-- Goes through the order, and evicts what is past its time to live and not to be retained, as long
as the cache is over its budget. -/
def sweepOver (shouldRetain : ContractKey → Bool) :
    List ContractKey → HostingCache → HostingCache × List ContractKey
  | [], c => ({ c with lruOrder := [] }, [])
  | key :: rest, c =>
    if c.currentBytes ≤ c.budgetBytes then keepInOrder key (sweepOver shouldRetain rest c)
    else
      match c.contracts.lookup key with
      | some entry =>
        if c.minTtl ≤ now - entry.lastAccessed ∧ shouldRetain key = false then
          let r := sweepOver shouldRetain rest (c.release key entry)
          (r.1, key :: r.2)
        else keepInOrder key (sweepOver shouldRetain rest c)
      | none => sweepOver shouldRetain rest c

def sweepExpired (shouldRetain : ContractKey → Bool) : HostingCache × List ContractKey :=
  if c.currentBytes ≤ c.budgetBytes then (c, []) else sweepOver now shouldRetain c.lruOrder c

def loadPersistedEntry (entry : PersistedEntry) : HostingCache :=
  if c.contains entry.key then c
  else
    let lastAccessed := if entry.lastAccessAge ≤ now then now - entry.lastAccessAge else now
    { c with
      contracts := c.contracts.insert entry.key ⟨entry.sizeBytes, lastAccessed, entry.accessType⟩
      currentBytes := saturatingAdd c.currentBytes entry.sizeBytes }

def isSorted (order : List ContractKey) : Bool :=
  order.Perm c.contracts.keys ∧
    (order.map fun key => (c.contracts.lookup key).map (·.lastAccessed)).Pairwise fun a b =>
      ∀ t ∈ a, ∀ t' ∈ b, t ≤ t'

def finalizeLoading (order : List ContractKey) : Option HostingCache :=
  if c.isSorted order then some { c with lruOrder := order } else none

end HostingCache

/-! The hosting manager: leases, subscribed clients and peers, and the hosting cache. -/

open Node (ClientId)

abbrev PeerKey := Nat

def subscriptionRenewalInterval : Nat := 120 * 10 ^ 9

def leaseRenewalMultiplier : Nat := 4

def subscriptionLeaseDuration : Nat := subscriptionRenewalInterval * leaseRenewalMultiplier

def maxDownstreamSubscribersPerContract : Nat := 512

def ttlRenewalMultiplier : Nat := 4

def defaultMinTtl : Nat := subscriptionRenewalInterval * ttlRenewalMultiplier

structure HostingManager where
  activeSubscriptions : AList fun _ : ContractKey => Nat
  clientSubscriptions : AList fun _ : ContractInstanceId => List ClientId
  downstreamSubscribers : Table ContractKey (AList fun _ : PeerKey => Nat)
  hostingCache : HostingCache

namespace HostingManager

def new (budgetBytes minTtl : Nat) : HostingManager := ⟨∅, ∅, .empty, .new budgetBytes minTtl⟩

variable (m : HostingManager) (now : Nat) (contract : ContractKey)

def subscribe : HostingManager :=
  { m with activeSubscriptions := m.activeSubscriptions.insert contract (now + subscriptionLeaseDuration) }

def renewSubscription : HostingManager :=
  if (m.activeSubscriptions.lookup contract).isSome then m.subscribe now contract else m

/-- Also what `force_subscription_renewal` does. -/
def unsubscribe : HostingManager :=
  { m with activeSubscriptions := m.activeSubscriptions.erase contract }

def expireStaleSubscriptions : HostingManager :=
  { m with
    activeSubscriptions :=
      retainEntries (fun _ expiresAt => decide (now < expiresAt)) m.activeSubscriptions }

variable (instanceId : ContractInstanceId) (client : ClientId)

def clients : List ClientId := (m.clientSubscriptions.lookup instanceId).getD []

def addClientSubscription : HostingManager :=
  { m with clientSubscriptions :=
      m.clientSubscriptions.insert instanceId ((m.clients instanceId).insert client) }

def removeClientSubscription : HostingManager :=
  match m.clientSubscriptions.lookup instanceId with
  | none => m
  | some clients =>
    let clients := clients.erase client
    { m with clientSubscriptions :=
        if clients.isEmpty then m.clientSubscriptions.erase instanceId
        else m.clientSubscriptions.insert instanceId clients }

def hasClientSubscriptions : Bool := !(m.clients instanceId).isEmpty

def instanceIdsWithClient : List ContractInstanceId :=
  ((m.clientSubscriptions.entries.filter fun e => client ∈ e.2).map (·.1)).insertionSort (· ≤ ·)

/-- The contract with an instance id, among those with a lease. -/
def findActive : Option ContractKey :=
  (m.activeSubscriptions.entries.find? fun e => e.1.id = instanceId).map (·.1)

/-- The contracts that had the client as a subscriber are reported as far as there is a lease for
them. -/
def removeClientFromAllSubscriptions : HostingManager × List ContractKey :=
  let instanceIds := m.instanceIdsWithClient client
  (instanceIds.foldl (fun m instanceId => m.removeClientSubscription instanceId client) m,
    instanceIds.filterMap m.findActive)

variable (peer : PeerKey)

def downstream : AList fun _ : PeerKey => Nat := (m.downstreamSubscribers.get contract).getD ∅

/-- Even a peer that is rejected leaves an entry for the contract. -/
def addDownstreamSubscriber : HostingManager :=
  let peers := m.downstream contract
  let peers :=
    if (peers.lookup peer).isNone ∧ maxDownstreamSubscribersPerContract ≤ peers.entries.length then peers
    else peers.insert peer now
  { m with downstreamSubscribers := m.downstreamSubscribers.insert contract peers }

def renewDownstreamSubscriber : HostingManager :=
  if ((m.downstream contract).lookup peer).isSome then
    { m with downstreamSubscribers :=
        m.downstreamSubscribers.insert contract ((m.downstream contract).insert peer now) }
  else m

def removeDownstreamSubscriber : HostingManager :=
  if ((m.downstream contract).lookup peer).isSome then
    let peers := (m.downstream contract).erase peer
    { m with downstreamSubscribers :=
        if peers.entries.isEmpty then m.downstreamSubscribers.remove contract
        else m.downstreamSubscribers.insert contract peers }
  else m

def hasDownstreamSubscribers : Bool := !(m.downstream contract).entries.isEmpty

/-- Whether the lease of a peer, renewed last at the given time, still runs. -/
def isUnexpired (lastRenewed : Nat) : Bool := now - lastRenewed < subscriptionLeaseDuration

def expireStaleDownstreamSubscribers : HostingManager :=
  { m with downstreamSubscribers := fun contract =>
      ((m.downstreamSubscribers.get contract).map
        (retainEntries fun _ lastRenewed => isUnexpired now lastRenewed)).filter fun peers =>
          !peers.entries.isEmpty }

def isInUse : Bool := m.hasClientSubscriptions contract.id || m.hasDownstreamSubscribers contract

def recordContractAccess (build : Build) (sizeBytes : Nat) (accessType : AccessType) :
    Outcome (HostingManager × RecordAccessResult) := do
  let (cache, result) ← m.hostingCache.recordAccess now contract build sizeBytes accessType
  return ({ m with hostingCache := cache }, result)

def removeHostedContract : HostingManager × Nat :=
  let r := m.hostingCache.remove contract
  ({ m with hostingCache := r.1 }, r.2)

def touchHosting : HostingManager := { m with hostingCache := m.hostingCache.touch now contract }

def sweepExpiredHosting : HostingManager × List ContractKey :=
  let r := m.hostingCache.sweepExpired now m.isInUse
  ({ m with hostingCache := r.1 }, r.2)

def loadFromStorage (entries : List PersistedEntry) (order : List ContractKey) : Option HostingManager :=
  ((entries.foldl (fun cache entry => cache.loadPersistedEntry now entry)
    m.hostingCache).finalizeLoading order).map
    fun cache => { m with hostingCache := cache }

end HostingManager
end Freenet.Ring

/-! The downstream peers of a contract and their leases, and what a sweep reports. -/
namespace Freenet.Ring.HostingManager
open Contract Lib Table
variable (m : HostingManager) (now : Nat) (contract : ContractKey) (peer : PeerKey)

/-- What `add_downstream_subscriber` returns. -/
def acceptsDownstream : Bool :=
  !(((m.downstream contract).lookup peer).isNone &&
    decide (maxDownstreamSubscribersPerContract ≤ (m.downstream contract).entries.length))

/-- What `remove_downstream_subscriber` returns. -/
def isDownstream : Bool := ((m.downstream contract).lookup peer).isSome

def downstreamNumber : Nat := (m.downstream contract).entries.length

/-- The peers of a contract whose leases have run out go; together with their number. -/
def expireDownstream : HostingManager × Nat :=
  match m.downstreamSubscribers.get contract with
  | none => (m, 0)
  | some peers =>
    let kept := retainEntries (fun _ lastRenewed => isUnexpired now lastRenewed) peers
    ({ m with downstreamSubscribers :=
        if kept.entries.isEmpty then m.downstreamSubscribers.remove contract
        else m.downstreamSubscribers.insert contract kept },
      peers.entries.length - kept.entries.length)

/-- The pass over the contracts that were found in the map, with those that lost peers. -/
def expireDownstreamOver (m : HostingManager) (now : Nat) :
    List ContractKey → HostingManager × List (ContractKey × Nat)
  | [] => (m, [])
  | contract :: keys =>
    let r := m.expireDownstream now contract
    let rest := expireDownstreamOver r.1 now keys
    (rest.1, if 0 < r.2 then (contract, r.2) :: rest.2 else rest.2)

variable {m now contract peer} {contract' : ContractKey} {keys : List ContractKey}
  {peers : AList fun _ : PeerKey => Nat}

theorem downstream_insert :
    { m with downstreamSubscribers := m.downstreamSubscribers.insert contract peers }.downstream contract' =
      if contract' = contract then peers else m.downstream contract' := by
  unfold downstream
  rw [get_insert]
  split_ifs <;> rfl

theorem downstream_store :
    { m with
      downstreamSubscribers :=
        if peers.entries.isEmpty then m.downstreamSubscribers.remove contract
        else m.downstreamSubscribers.insert contract peers }.downstream contract' =
      if contract' = contract then peers else m.downstream contract' := by
  split_ifs with hempty hsame hsame
  · have hpeers : peers = ∅ := AList.ext (List.isEmpty_iff.mp hempty)
    unfold downstream
    rw [hsame, get_remove_self, hpeers]
    rfl
  · unfold downstream
    rw [get_remove_of_ne hsame]
  · rw [downstream_insert, if_pos hsame]
  · rw [downstream_insert, if_neg hsame]

theorem downstream_addDownstreamSubscriber :
    (m.addDownstreamSubscriber now contract peer).downstream contract' =
    if contract' = contract ∧ m.acceptsDownstream contract peer = true then
      (m.downstream contract).insert peer now
    else m.downstream contract' := by
  unfold addDownstreamSubscriber acceptsDownstream
  rw [downstream_insert]
  by_cases hsame : contract' = contract
  · subst hsame
    by_cases hfull : ((m.downstream contract').lookup peer).isNone = true ∧
        maxDownstreamSubscribersPerContract ≤ (m.downstream contract').entries.length
    · simp [hfull]
    · have hacc : (!(((m.downstream contract').lookup peer).isNone &&
          decide (maxDownstreamSubscribersPerContract ≤ (m.downstream contract').entries.length))) =
            true := by
        rw [Bool.not_eq_true', ← Bool.not_eq_true, Bool.and_eq_true, decide_eq_true_eq]
        exact hfull
      rw [if_pos rfl, if_neg hfull, if_pos ⟨rfl, hacc⟩]
  · simp [hsame]

theorem downstreamNumber_addDownstreamSubscriber :
    (m.addDownstreamSubscriber now contract peer).downstreamNumber contract' =
      if contract' = contract ∧ m.acceptsDownstream contract peer = true ∧
        m.isDownstream contract peer = false
      then m.downstreamNumber contract' + 1 else m.downstreamNumber contract' := by
  unfold downstreamNumber
  rw [downstream_addDownstreamSubscriber]
  by_cases haccepted : contract' = contract ∧ m.acceptsDownstream contract peer = true
  · obtain ⟨rfl, hacc⟩ := haccepted
    rw [if_pos ⟨rfl, hacc⟩, length_insert]
    unfold isDownstream
    cases hlook : (m.downstream contract').lookup peer with
    | none => simp [length_erase_of_none hlook, hacc]
    | some lastRenewed => simp [length_erase_of_lookup hlook]
  · rw [if_neg haccepted, if_neg fun h => haccepted ⟨h.1, h.2.1⟩]

theorem downstreamNumber_removeDownstreamSubscriber :
    (m.removeDownstreamSubscriber contract peer).downstreamNumber contract' =
      if contract' = contract ∧ m.isDownstream contract peer = true then m.downstreamNumber contract' - 1
      else m.downstreamNumber contract' := by
  unfold downstreamNumber removeDownstreamSubscriber isDownstream
  cases hlook : (m.downstream contract).lookup peer with
  | none => simp
  | some lastRenewed =>
    dsimp only [Option.isSome]
    rw [if_pos rfl, downstream_store]
    have hlength := length_erase_of_lookup hlook
    by_cases hsame : contract' = contract
    · subst hsame
      rw [if_pos rfl, if_pos ⟨rfl, rfl⟩]
      omega
    · rw [if_neg hsame, if_neg fun h => hsame h.1]

theorem downstream_expireDownstream : (m.expireDownstream now contract).1.downstream contract' =
    if contract' = contract then retainEntries (fun _ lastRenewed => isUnexpired now lastRenewed)
      (m.downstream contract) else m.downstream contract' := by
  unfold expireDownstream
  cases hget : m.downstreamSubscribers.get contract with
  | none =>
    split_ifs with hsame
    · unfold downstream
      rw [hsame, hget]
      rfl
    · rfl
  | some peers =>
    have hpeers : m.downstream contract = peers := by
      unfold downstream
      rw [hget]
      rfl
    rw [hpeers]
    exact downstream_store

theorem expireDownstream_number : (m.expireDownstream now contract).2 +
    (m.expireDownstream now contract).1.downstreamNumber contract = m.downstreamNumber contract := by
  unfold downstreamNumber
  rw [downstream_expireDownstream, if_pos rfl]
  unfold expireDownstream downstream
  cases hget : m.downstreamSubscribers.get contract with
  | none => rfl
  | some peers =>
    have hle : (retainEntries (fun _ lastRenewed => isUnexpired now lastRenewed) peers).entries.length ≤
        peers.entries.length := List.length_filter_le _ _
    dsimp only [Option.getD]
    omega

def expiredNumber (expired : List (ContractKey × Nat)) (contract : ContractKey) : Nat :=
  ((expired.filter fun e => e.1 = contract).map fun e => e.2).sum

theorem expiredNumber_cons {e : ContractKey × Nat} {expired : List (ContractKey × Nat)} :
    expiredNumber (e :: expired) contract =
      (if e.1 = contract then e.2 else 0) + expiredNumber expired contract := by
  unfold expiredNumber
  rw [List.filter_cons]
  split_ifs with h h' h'
  · rw [List.map_cons, List.sum_cons]
  · exact absurd (of_decide_eq_true h) h'
  · exact absurd (decide_eq_true h') h
  · rw [Nat.zero_add]

theorem expireDownstreamOver_cons {key : ContractKey} : m.expireDownstreamOver now (key :: keys) =
      (((m.expireDownstream now key).1.expireDownstreamOver now keys).1,
        if 0 < (m.expireDownstream now key).2 then
          (key, (m.expireDownstream now key).2) ::
            ((m.expireDownstream now key).1.expireDownstreamOver now keys).2
        else ((m.expireDownstream now key).1.expireDownstreamOver now keys).2) := rfl

theorem expireDownstreamOver_number : expiredNumber (m.expireDownstreamOver now keys).2 contract +
      (m.expireDownstreamOver now keys).1.downstreamNumber contract = m.downstreamNumber contract := by
  induction keys generalizing m with
  | nil => exact Nat.zero_add _
  | cons key keys ih =>
    have hrest := ih (m := (m.expireDownstream now key).1)
    have hreport : expiredNumber (m.expireDownstreamOver now (key :: keys)).2 contract =
        (if key = contract then (m.expireDownstream now key).2 else 0) +
          expiredNumber ((m.expireDownstream now key).1.expireDownstreamOver now keys).2 contract := by
      rw [expireDownstreamOver_cons]
      dsimp only
      split_ifs with hlost hkey hkey
      · rw [expiredNumber_cons, if_pos hkey]
      · rw [expiredNumber_cons, if_neg hkey]
      · omega
      · omega
    rw [hreport, expireDownstreamOver_cons, Nat.add_assoc, hrest]
    split_ifs with hkey
    · rw [hkey]
      exact expireDownstream_number
    · unfold downstreamNumber
      rw [downstream_expireDownstream, if_neg (Ne.symm hkey), Nat.zero_add]

theorem get_expireStaleDownstreamSubscribers :
    (m.expireStaleDownstreamSubscribers now).downstreamSubscribers.get contract =
      ((m.downstreamSubscribers.get contract).map
        (retainEntries fun _ lastRenewed => isUnexpired now lastRenewed)).filter
          fun peers => !peers.entries.isEmpty := rfl

theorem get_expireDownstream {key : ContractKey} :
    (m.expireDownstream now contract).1.downstreamSubscribers.get key =
      if key = contract then (m.expireStaleDownstreamSubscribers now).downstreamSubscribers.get key
      else m.downstreamSubscribers.get key := by
  rw [get_expireStaleDownstreamSubscribers]
  unfold expireDownstream
  cases hget : m.downstreamSubscribers.get contract with
  | none =>
    split_ifs with hkey
    · rw [hkey, hget]
      rfl
    · rfl
  | some peers =>
    dsimp only
    by_cases hkey : key = contract
    · subst hkey
      rw [if_pos rfl, hget, Option.map_some]
      split_ifs with hempty
      · rw [get_remove_self, Option.filter_some_neg]
        simp [hempty]
      · rw [get_insert_self, Option.filter_some_pos]
        simp [hempty]
    · split_ifs
      · exact get_remove_of_ne hkey
      · exact get_insert_of_ne hkey

/-- A pass that comes by every contract of the map once is the whole sweep. -/
theorem downstreamSubscribers_expireDownstreamOver (hnodup : keys.Nodup)
    (hkeys : ∀ key, key ∉ keys → m.downstreamSubscribers.get key = none) :
    (m.expireDownstreamOver now keys).1.downstreamSubscribers =
      (m.expireStaleDownstreamSubscribers now).downstreamSubscribers := by
  have hfold : (m.expireDownstreamOver now keys).1 =
      keys.foldl (fun m key => (expireDownstream m now key).1) m := by
    clear hnodup hkeys
    induction keys generalizing m with
    | nil => rfl
    | cons key keys ih => exact ih
  refine ext fun key => ?_
  rw [hfold]
  refine (view_foldl (fun m key => (expireDownstream m now key).1)
    (fun m key => get (downstreamSubscribers m) key)
    (fun _ peers => (Option.map (retainEntries fun _ lastRenewed =>
      isUnexpired now lastRenewed) peers).filter
      fun peers => !peers.entries.isEmpty) ?_ ?_ hnodup key).trans ?_
  · intro m key key' hne
    rw [get_expireDownstream, if_neg hne]
  · intro m key
    rw [get_expireDownstream, if_pos rfl]
    rfl
  · split_ifs with hmem
    · rfl
    · have hswept : (m.expireStaleDownstreamSubscribers now).downstreamSubscribers.get key = none := by
        rw [get_expireStaleDownstreamSubscribers, hkeys key hmem]
        rfl
      rw [hswept]
      exact hkeys key hmem

/-- Three peers at two contracts, of which only the last is there in time. -/
def twoLeasesOut : HostingManager :=
  (((new 0 0).addDownstreamSubscriber 0 ⟨1, 1⟩ 5).addDownstreamSubscriber 0 ⟨2, 2⟩ 7).addDownstreamSubscriber
    (10 ^ 12) ⟨1, 1⟩ 6

theorem expireDownstreamOver_twoLeasesOut :
    (twoLeasesOut.expireDownstreamOver (10 ^ 12) [⟨2, 2⟩, ⟨1, 1⟩]).2 = [(⟨2, 2⟩, 1), (⟨1, 1⟩, 1)] ∧
    (twoLeasesOut.expireDownstreamOver (10 ^ 12) [⟨2, 2⟩, ⟨1, 1⟩]).1.downstreamSubscribers =
      (twoLeasesOut.expireStaleDownstreamSubscribers (10 ^ 12)).downstreamSubscribers := by
  refine ⟨by decide +kernel, downstreamSubscribers_expireDownstreamOver (by decide) fun key hkey => ?_⟩
  obtain ⟨hsecond, hfirst⟩ : key ≠ ⟨2, 2⟩ ∧ key ≠ ⟨1, 1⟩ := by simpa using hkey
  exact (get_insert_of_ne hfirst).trans ((get_insert_of_ne hsecond).trans (get_insert_of_ne hfirst))

end Freenet.Ring.HostingManager
