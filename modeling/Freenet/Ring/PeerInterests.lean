import Freenet.Ring.HostingCache

/-! The interest manager: local reasons for interest in a contract, and the interest of other
peers. -/
namespace Freenet.Ring
open Contract Lib Table

structure LocalInterest where
  hosting : Bool
  localClientCount : Nat
  downstreamSubscriberCount : Nat
  deriving DecidableEq

namespace LocalInterest

def default : LocalInterest := ⟨false, 0, 0⟩

variable (i : LocalInterest)

def isInterested : Bool :=
  i.hosting || decide (0 < i.localClientCount) || decide (0 < i.downstreamSubscriberCount)

/-- Together with whether this is the first reason for interest. -/
def addClient : LocalInterest × Bool :=
  ({ i with localClientCount := i.localClientCount + 1 },
    decide (i.localClientCount = 0) && !i.hosting && decide (i.downstreamSubscriberCount = 0))

def addDownstream : LocalInterest × Bool :=
  ({ i with downstreamSubscriberCount := i.downstreamSubscriberCount + 1 },
    decide (i.downstreamSubscriberCount = 0) && decide (i.localClientCount = 0) && !i.hosting)

def startHosting : LocalInterest × Bool := ({ i with hosting := true }, !i.isInterested)

def lessened (i : LocalInterest) : LocalInterest × Bool := (i, !i.isInterested)

def removeClient : LocalInterest × Bool := lessened { i with localClientCount := i.localClientCount - 1 }

def removeDownstream : LocalInterest × Bool :=
  lessened { i with downstreamSubscriberCount := i.downstreamSubscriberCount - 1 }

def stopHosting : LocalInterest × Bool := lessened { i with hosting := false }

theorem localClientCount_of_not_isInterested (h : i.isInterested = false) : i.localClientCount = 0 := by
  unfold isInterested at h
  simp only [Bool.or_eq_false_iff, decide_eq_false_iff_not] at h
  omega

theorem downstreamSubscriberCount_of_not_isInterested (h : i.isInterested = false) :
    i.downstreamSubscriberCount = 0 := by
  unfold isInterested at h
  simp only [Bool.or_eq_false_iff, decide_eq_false_iff_not] at h
  omega

end LocalInterest

structure InterestManager where
  localInterests : Table ContractKey LocalInterest

namespace InterestManager

def new : InterestManager := ⟨.empty⟩

variable (m : InterestManager) (contract : ContractKey)

/-- The entry of a contract, or the one that would be made for it. -/
def localInterest : LocalInterest := (m.localInterests.get contract).getD .default

/-- A further reason, for which an entry is made if there is none. -/
def addReason (f : LocalInterest → LocalInterest × Bool) : InterestManager × Bool :=
  let r := f (m.localInterest contract)
  (⟨m.localInterests.insert contract r.1⟩, r.2)

def dropReason (f : LocalInterest → LocalInterest × Bool) : InterestManager × Bool :=
  match m.localInterests.get contract with
  | none => (m, false)
  | some entry =>
    let r := f entry
    (⟨if r.2 then m.localInterests.remove contract else m.localInterests.insert contract r.1⟩, r.2)

def registerLocalHosting : InterestManager × Bool := m.addReason contract LocalInterest.startHosting

def unregisterLocalHosting : InterestManager × Bool := m.dropReason contract LocalInterest.stopHosting

def addLocalClient : InterestManager × Bool := m.addReason contract LocalInterest.addClient

def removeLocalClient : InterestManager × Bool := m.dropReason contract LocalInterest.removeClient

def addDownstreamSubscriber : InterestManager × Bool := m.addReason contract LocalInterest.addDownstream

def removeDownstreamSubscriber : InterestManager × Bool :=
  m.dropReason contract LocalInterest.removeDownstream

def localClientCount : Nat := (m.localInterest contract).localClientCount

def downstreamSubscriberCount : Nat := (m.localInterest contract).downstreamSubscriberCount

section Counts
variable {m contract} {contract' : ContractKey} {f : LocalInterest → LocalInterest × Bool}
  (count : LocalInterest → Nat)

theorem count_addReason : count ((m.addReason contract f).1.localInterest contract') =
    if contract' = contract then count (f (m.localInterest contract)).1
    else count (m.localInterest contract') := by
  unfold localInterest addReason
  rw [get_insert]
  split_ifs <;> rfl

variable {g : LocalInterest → LocalInterest}

theorem count_dropReason (hcount : ∀ i, i.isInterested = false → count i = 0)
    (hf : ∀ i, f i = (g i).lessened) (hdflt : count (g .default) = 0) :
    count ((m.dropReason contract f).1.localInterest contract') =
      if contract' = contract then count (g (m.localInterest contract))
      else count (m.localInterest contract') := by
  unfold localInterest dropReason
  cases hget : m.localInterests.get contract with
  | none =>
    split_ifs with hsame
    · rw [hsame, hget]
      exact (hcount .default rfl).trans hdflt.symm
    · rfl
  | some entry =>
    dsimp only
    rw [hf]
    unfold LocalInterest.lessened
    by_cases hsame : contract' = contract
    · subst hsame
      rw [if_pos rfl]
      split_ifs with hlost
      · rw [get_remove_self]
        exact (hcount .default rfl).trans (hcount (g entry) (by simpa using hlost)).symm
      · rw [get_insert_self]
        rfl
    · split_ifs
      · rw [get_remove_of_ne hsame]
      · rw [get_insert_of_ne hsame]

theorem count_addReason_of_eq (hf : ∀ i, count (f i).1 = count i) :
    count ((m.addReason contract f).1.localInterest contract') = count (m.localInterest contract') := by
  rw [count_addReason count, hf]
  split_ifs with h
  · rw [h]
  · rfl

theorem count_dropReason_of_eq (hcount : ∀ i, i.isInterested = false → count i = 0)
    (hf : ∀ i, f i = (g i).lessened) (hg : ∀ i, count (g i) = count i) :
    count ((m.dropReason contract f).1.localInterest contract') = count (m.localInterest contract') := by
  rw [count_dropReason count hcount hf ((hg _).trans (hcount _ rfl)), hg]
  split_ifs with h
  · rw [h]
  · rfl

end Counts

variable {m contract} {contract' : ContractKey}

theorem localClientCount_addLocalClient : (m.addLocalClient contract).1.localClientCount contract' =
    if contract' = contract then m.localClientCount contract + 1 else m.localClientCount contract' :=
  count_addReason LocalInterest.localClientCount

theorem localClientCount_removeLocalClient : (m.removeLocalClient contract).1.localClientCount contract' =
    if contract' = contract then m.localClientCount contract - 1 else m.localClientCount contract' :=
  count_dropReason LocalInterest.localClientCount LocalInterest.localClientCount_of_not_isInterested
    (g := fun i => { i with localClientCount := i.localClientCount - 1 }) (fun _ => rfl) rfl

theorem downstreamSubscriberCount_addDownstreamSubscriber :
    (m.addDownstreamSubscriber contract).1.downstreamSubscriberCount contract' =
      if contract' = contract then m.downstreamSubscriberCount contract + 1
      else m.downstreamSubscriberCount contract' :=
  count_addReason LocalInterest.downstreamSubscriberCount

theorem downstreamSubscriberCount_removeDownstreamSubscriber :
    (m.removeDownstreamSubscriber contract).1.downstreamSubscriberCount contract' =
      if contract' = contract then m.downstreamSubscriberCount contract - 1
      else m.downstreamSubscriberCount contract' :=
  count_dropReason LocalInterest.downstreamSubscriberCount
    LocalInterest.downstreamSubscriberCount_of_not_isInterested
    (g := fun i => { i with downstreamSubscriberCount := i.downstreamSubscriberCount - 1 })
    (fun _ => rfl) rfl

end InterestManager

def interestHeartbeatInterval : Nat := 300 * 10 ^ 9

def interestTtl : Nat := interestHeartbeatInterval * 4

def interestDisconnectGracePeriod : Nat := 90 * 10 ^ 9

structure PeerInterest where
  summary : Option (List UInt8)
  lastRefreshed : Nat
  isUpstream : Bool

namespace PeerInterest
variable (i : PeerInterest) (now : Nat)

def refresh : PeerInterest := { i with lastRefreshed := now }

def isExpiredAt : Bool := decide (interestTtl < now - i.lastRefreshed)

def updateSummary (summary : Option (List UInt8)) : PeerInterest := { i with summary := summary }.refresh now

end PeerInterest

/-- What neighbours send about their interests; contracts are named by their hashes. -/
inductive InterestMessage where
  | interests (hashes : List Nat)
  | summaries (entries : List (Nat × Option (List UInt8)))
  | changeInterests (added removed : List Nat)
  | resyncRequest (key : ContractKey)
  | resyncResponse (key : ContractKey) (summary : List UInt8)

/-- The interest manager with the tables of other peers and the hash index. -/
structure InterestTables where
  interestedPeers : AList fun _ : ContractKey => AList fun _ : PeerKey => PeerInterest
  peerContracts : Table PeerKey (List ContractKey)
  localInterests : InterestManager
  contractHashIndex : AList fun _ : Nat => List ContractKey
  pendingRemovals : AList fun _ : PeerKey => Nat

namespace InterestTables

def new : InterestTables := ⟨∅, .empty, .new, ∅, ∅⟩

variable (contractHash : ContractKey → Nat) (t : InterestTables) (now : Nat) (contract : ContractKey)
  (peer : PeerKey)

def indexContractHash : InterestTables :=
  let entry := (t.contractHashIndex.lookup (contractHash contract)).getD []
  { t with
    contractHashIndex := t.contractHashIndex.insert (contractHash contract)
      (if contract ∈ entry then entry else entry ++ [contract]) }

def unindexContractHash : InterestTables :=
  match t.contractHashIndex.lookup (contractHash contract) with
  | none => t
  | some entry =>
    let entry := entry.filter fun c => c ≠ contract
    { t with
      contractHashIndex :=
        if entry.isEmpty then t.contractHashIndex.erase (contractHash contract)
        else t.contractHashIndex.insert (contractHash contract) entry }

def hasLocalInterest : Bool := (t.localInterests.localInterests.get contract).any LocalInterest.isInterested

def cleanupContractIfNoInterest : InterestTables :=
  if (t.interestedPeers.lookup contract).isNone && !t.hasLocalInterest contract then
    t.unindexContractHash contractHash contract
  else t

def lookupByHash (hash : Nat) : List ContractKey := (t.contractHashIndex.lookup hash).getD []

def getMatchingContracts (hashes : List Nat) : List ContractKey :=
  ((t.contractHashIndex.entries.filter fun e => decide (e.1 ∈ hashes)).flatMap fun e => e.2).insertionSort
    fun c c' => c.id ≤ c'.id

def gained (r : InterestManager × Bool) : InterestTables × Bool :=
  ({ t with localInterests := r.1 }.indexContractHash contractHash contract, r.2)

/-- The hash index is cleaned up when the last local reason is gone. -/
def lessened (r : InterestManager × Bool) : InterestTables × Bool :=
  let t := { t with localInterests := r.1 }
  (if r.2 then t.cleanupContractIfNoInterest contractHash contract else t, r.2)

def registerLocalHosting : InterestTables × Bool :=
  t.gained contractHash contract (t.localInterests.registerLocalHosting contract)

def unregisterLocalHosting : InterestTables × Bool :=
  t.lessened contractHash contract (t.localInterests.unregisterLocalHosting contract)

def addLocalClient : InterestTables × Bool :=
  t.gained contractHash contract (t.localInterests.addLocalClient contract)

def removeLocalClient : InterestTables × Bool :=
  t.lessened contractHash contract (t.localInterests.removeLocalClient contract)

def addDownstreamSubscriber : InterestTables × Bool :=
  t.gained contractHash contract (t.localInterests.addDownstreamSubscriber contract)

def removeDownstreamSubscriber : InterestTables × Bool :=
  t.lessened contractHash contract (t.localInterests.removeDownstreamSubscriber contract)

def getPeerInterest : Option PeerInterest :=
  (t.interestedPeers.lookup contract).bind fun entry => entry.lookup peer

/-- Together with whether the peer was not tracked for the contract before. -/
def registerPeerInterest (summary : Option (List UInt8)) (isUpstream : Bool) : InterestTables × Bool :=
  let entry := (t.interestedPeers.lookup contract).getD ∅
  let t' : InterestTables :=
    { t with
      interestedPeers := t.interestedPeers.insert contract (entry.insert peer ⟨summary, now, isUpstream⟩)
      peerContracts := t.peerContracts.insert peer (((t.peerContracts.get peer).getD []).insert contract) }
  (t'.indexContractHash contractHash contract, (entry.lookup peer).isNone)

/-- The reverse index without a contract of a peer. -/
def unlinkContract : Table PeerKey (List ContractKey) :=
  match t.peerContracts.get peer with
  | none => t.peerContracts
  | some contracts =>
    let contracts := contracts.erase contract
    if contracts.isEmpty then t.peerContracts.remove peer else t.peerContracts.insert peer contracts

def withoutPeer (entry : AList fun _ : PeerKey => PeerInterest) : InterestTables :=
  if (entry.erase peer).entries.isEmpty then
    { t with interestedPeers := t.interestedPeers.erase contract }.cleanupContractIfNoInterest
      contractHash contract
  else { t with interestedPeers := t.interestedPeers.insert contract (entry.erase peer) }

/-- Together with whether the peer was tracked for the contract. -/
def removePeerInterest : InterestTables × Bool :=
  match t.interestedPeers.lookup contract with
  | none => (t, false)
  | some entry =>
    let removed := (entry.lookup peer).isSome
    let t : InterestTables :=
      { t with peerContracts := if removed then t.unlinkContract contract peer else t.peerContracts }
    (t.withoutPeer contractHash contract peer entry, removed)

def modifyPeerInterest (f : PeerInterest → PeerInterest) : InterestTables :=
  match t.interestedPeers.lookup contract with
  | none => t
  | some entry =>
    match entry.lookup peer with
    | none => t
    | some i => { t with interestedPeers := t.interestedPeers.insert contract (entry.insert peer (f i)) }

def updatePeerSummary (summary : Option (List UInt8)) : InterestTables :=
  t.modifyPeerInterest contract peer fun i => i.updateSummary now summary

def refreshPeerInterest : InterestTables := t.modifyPeerInterest contract peer fun i => i.refresh now

def getContractsForPeer : List ContractKey := (t.peerContracts.get peer).getD []

def removeAllPeerInterests : InterestTables :=
  (t.getContractsForPeer peer).foldl (fun t contract =>
      match t.interestedPeers.lookup contract with
      | none => t
      | some entry => t.withoutPeer contractHash contract peer entry)
    { t with peerContracts := t.peerContracts.remove peer }

def scheduleDeferredRemoval : InterestTables :=
  { t with pendingRemovals := t.pendingRemovals.insert peer (now + interestDisconnectGracePeriod) }

def cancelDeferredRemoval : InterestTables := { t with pendingRemovals := t.pendingRemovals.erase peer }

def executePendingRemovals : InterestTables :=
  ((t.pendingRemovals.entries.filter fun e => decide (e.2 ≤ now)).map fun e => e.1).foldl
    (fun t peer => (t.cancelDeferredRemoval peer).removeAllPeerInterests contractHash peer) t

def expiredInterests : List (ContractKey × PeerKey) :=
  t.interestedPeers.entries.flatMap fun e =>
    (e.2.entries.filter fun i => i.2.isExpiredAt now).map fun i => (e.1, i.1)

def sweepExpiredInterests : InterestTables :=
  (t.expiredInterests now).foldl (fun t e => (t.removePeerInterest contractHash e.1 e.2).1) t

def sweepTask : InterestTables :=
  (t.executePendingRemovals contractHash now).sweepExpiredInterests contractHash now

def replaceInterests (hashes : List Nat) : InterestTables :=
  let t := (t.getContractsForPeer peer).foldl
    (fun t contract =>
      if contractHash contract ∈ hashes then t else (t.removePeerInterest contractHash contract peer).1) t
  (t.getMatchingContracts hashes).foldl (fun t contract =>
      if (t.getPeerInterest contract peer).isSome then t.refreshPeerInterest now contract peer
      else (t.registerPeerInterest contractHash now contract peer none false).1) t

def updateSummaries (entries : List (Nat × Option (List UInt8))) : InterestTables :=
  entries.foldl (fun t entry => (t.lookupByHash entry.1).foldl (fun t contract =>
        if t.hasLocalInterest contract then t.updatePeerSummary now contract peer entry.2 else t) t) t

def changeInterests (added removed : List Nat) : InterestTables :=
  let t := removed.foldl
    (fun t hash => (t.lookupByHash hash).foldl
      (fun t contract => (t.removePeerInterest contractHash contract peer).1) t) t
  added.foldl (fun t hash => (t.lookupByHash hash).foldl (fun t contract =>
        if t.hasLocalInterest contract then
          (t.registerPeerInterest contractHash now contract peer none false).1
        else t) t) t

/-- What a message does to the tables, its sender being a known peer. -/
def handleInterestSyncMessage : InterestMessage → InterestTables
  | .interests hashes => t.replaceInterests contractHash now peer hashes
  | .summaries entries => t.updateSummaries now peer entries
  | .changeInterests added removed => t.changeInterests contractHash now peer added removed
  | .resyncRequest key => t.updatePeerSummary now key peer none
  | .resyncResponse key summary => t.updatePeerSummary now key peer (some summary)

variable {contractHash t now contract peer} {summary : Option (List UInt8)}
  {r : InterestManager × Bool} {isUpstream : Bool}

theorem isNew_registerPeerInterest :
    (t.registerPeerInterest contractHash now contract peer summary isUpstream).2 =
      (t.getPeerInterest contract peer).isNone := by
  unfold registerPeerInterest getPeerInterest
  cases t.interestedPeers.lookup contract <;> rfl

theorem removed_removePeerInterest :
    (t.removePeerInterest contractHash contract peer).2 = (t.getPeerInterest contract peer).isSome := by
  unfold removePeerInterest getPeerInterest
  cases t.interestedPeers.lookup contract <;> rfl

@[simp]
theorem localInterests_cleanupContractIfNoInterest :
    (t.cleanupContractIfNoInterest contractHash contract).localInterests = t.localInterests := by
  unfold cleanupContractIfNoInterest unindexContractHash
  split_ifs
  · split <;> rfl
  · rfl

@[simp]
theorem localInterests_gained : (t.gained contractHash contract r).1.localInterests = r.1 := rfl

@[simp]
theorem localInterests_lessened : (t.lessened contractHash contract r).1.localInterests = r.1 := by
  unfold lessened
  split_ifs
  · exact localInterests_cleanupContractIfNoInterest
  · rfl

@[simp]
theorem localInterests_registerPeerInterest :
    (t.registerPeerInterest contractHash now contract peer summary isUpstream).1.localInterests =
      t.localInterests := rfl

@[simp]
theorem localInterests_withoutPeer {entry : AList fun _ : PeerKey => PeerInterest} :
    (t.withoutPeer contractHash contract peer entry).localInterests = t.localInterests := by
  unfold withoutPeer
  split_ifs
  · exact localInterests_cleanupContractIfNoInterest
  · rfl

@[simp]
theorem localInterests_removePeerInterest :
    (t.removePeerInterest contractHash contract peer).1.localInterests = t.localInterests := by
  unfold removePeerInterest
  split
  · rfl
  · exact localInterests_withoutPeer

@[simp]
theorem localInterests_modifyPeerInterest {f : PeerInterest → PeerInterest} :
    (t.modifyPeerInterest contract peer f).localInterests = t.localInterests := by
  unfold modifyPeerInterest
  split
  · rfl
  · split <;> rfl

theorem localInterests_foldl {ι : Type} {next : InterestTables → ι → InterestTables} {is : List ι}
    (hnext : ∀ t i, (next t i).localInterests = t.localInterests) :
    (is.foldl next t).localInterests = t.localInterests := by
  induction is generalizing t with
  | nil => rfl
  | cons i is ih => rw [List.foldl_cons, ih, hnext]

@[simp]
theorem localInterests_removeAllPeerInterests :
    (t.removeAllPeerInterests contractHash peer).localInterests = t.localInterests := by
  refine localInterests_foldl fun t contract => ?_
  split
  · rfl
  · exact localInterests_withoutPeer

theorem localInterests_sweepTask : (t.sweepTask contractHash now).localInterests = t.localInterests := by
  have hpend : (t.executePendingRemovals contractHash now).localInterests = t.localInterests :=
    localInterests_foldl fun _ _ => localInterests_removeAllPeerInterests
  rw [← hpend]
  exact localInterests_foldl fun _ _ => localInterests_removePeerInterest

theorem localInterests_handleInterestSyncMessage {message : InterestMessage} :
    (t.handleInterestSyncMessage contractHash now peer message).localInterests = t.localInterests := by
  cases message with
  | interests hashes =>
    refine (localInterests_foldl fun t contract => ?_).trans (localInterests_foldl fun t contract => ?_)
    · split_ifs
      · exact localInterests_modifyPeerInterest
      · exact localInterests_registerPeerInterest
    · split_ifs
      · rfl
      · exact localInterests_removePeerInterest
  | summaries entries =>
    refine localInterests_foldl fun t entry => localInterests_foldl fun t contract => ?_
    split_ifs
    · exact localInterests_modifyPeerInterest
    · rfl
  | changeInterests added removed =>
    refine (localInterests_foldl fun t hash => localInterests_foldl fun t contract => ?_).trans
      (localInterests_foldl fun t hash => localInterests_foldl fun t contract => ?_)
    · split_ifs
      · exact localInterests_registerPeerInterest
      · rfl
    · exact localInterests_removePeerInterest
  | resyncRequest key | resyncResponse key summary => exact localInterests_modifyPeerInterest

variable {contract' : ContractKey}

theorem downstreamSubscriberCount_addDownstreamSubscriber :
    (t.addDownstreamSubscriber contractHash contract).1.localInterests.downstreamSubscriberCount contract' =
      if contract' = contract then t.localInterests.downstreamSubscriberCount contract' + 1
      else t.localInterests.downstreamSubscriberCount contract' := by
  unfold addDownstreamSubscriber
  rw [localInterests_gained, InterestManager.downstreamSubscriberCount_addDownstreamSubscriber]
  split_ifs with h
  · rw [h]
  · rfl

theorem downstreamSubscriberCount_removeDownstreamSubscriber :
    (t.removeDownstreamSubscriber contractHash contract).1.localInterests.downstreamSubscriberCount
      contract' =
      if contract' = contract then t.localInterests.downstreamSubscriberCount contract' - 1
      else t.localInterests.downstreamSubscriberCount contract' := by
  unfold removeDownstreamSubscriber
  rw [localInterests_lessened, InterestManager.downstreamSubscriberCount_removeDownstreamSubscriber]
  split_ifs with h
  · rw [h]
  · rfl

theorem downstreamSubscriberCount_iterate_removeDownstreamSubscriber (n : Nat) :
    ((fun t => (removeDownstreamSubscriber contractHash t contract).1)^[n]
        t).localInterests.downstreamSubscriberCount contract' =
      if contract' = contract then t.localInterests.downstreamSubscriberCount contract' - n
      else t.localInterests.downstreamSubscriberCount contract' := by
  induction n generalizing t with
  | zero => simp
  | succ n ih =>
    rw [Function.iterate_succ_apply, ih, downstreamSubscriberCount_removeDownstreamSubscriber]
    split_ifs
    · omega
    · rfl

end InterestTables

/-! An addition to an entry between the two steps of a removal. -/
open Node (ClientId)

/-- The steps on the entry of a contract. The removal of an empty one looks at it again if it
`rechecks`. -/
structure EntrySteps (E : Type) where
  default : E
  add : E → E
  take : E → E
  isEmpty : E → Bool
  rechecks : Bool

/-- When the addition comes, which is a single step. -/
inductive Moment where
  | before
  | between
  | after

namespace EntrySteps
variable {E : Type} (steps : EntrySteps E)

def added (entry : Option E) : Option E := some (steps.add (entry.getD steps.default))

/-- Together with whether the entry is to be removed. -/
def taken : Option E → Option E × Bool
  | none => (none, false)
  | some e => (some (steps.take e), steps.isEmpty (steps.take e))

def removed (last : Bool) (entry : Option E) : Option E :=
  if last && (!steps.rechecks || entry.all steps.isEmpty) then none else entry

def remove (entry : Option E) : Option E := steps.removed (steps.taken entry).2 (steps.taken entry).1

def interleaved (entry : Option E) : Moment → Option E
  | .before => steps.remove (steps.added entry)
  | .between => steps.removed (steps.taken entry).2 (steps.added (steps.taken entry).1)
  | .after => steps.added (steps.remove entry)

variable {steps} {entry : Option E} {has : E → Prop}

theorem remove_some (h : steps.rechecks = false) (e : E) : steps.remove (some e) =
    if steps.isEmpty (steps.take e) then none else some (steps.take e) := by
  simp [remove, taken, removed, h]

/-- What was added is lost exactly if it comes between the steps of a removal that does not look
again. -/
theorem kept_iff (hadd : ∀ e, has (steps.add e)) (hempty : ∀ e, has e → steps.isEmpty e = false)
    (htake : has (steps.take (steps.add (entry.getD steps.default)))) (moment : Moment) :
    (∃ e ∈ steps.interleaved entry moment, has e) ↔
      (moment = .between → steps.rechecks = false → ∀ e ∈ entry, steps.isEmpty (steps.take e) = false) := by
  cases moment with
  | before => simp [interleaved, remove, taken, added, removed, hempty _ htake, htake]
  | after => simp [interleaved, added, hadd]
  | between =>
    cases entry with
    | none => simp [interleaved, taken, added, removed, hadd]
    | some e =>
      have hadded := hempty _ (hadd (steps.take e))
      cases hrech : steps.rechecks <;> cases hlast : steps.isEmpty (steps.take e) <;>
        simp [interleaved, taken, added, removed, hrech, hlast, hadd, hadded]

end EntrySteps

/-- `add_client_subscription` beside `remove_client_subscription`. -/
def clientSteps (added removed : ClientId) : EntrySteps (List ClientId) :=
  ⟨[], (·.insert added), (·.erase removed), List.isEmpty, false⟩

/-- `register_peer_interest` beside `remove_peer_interest`. -/
def peerSteps (added removed : PeerKey) (interest : PeerInterest) :
    EntrySteps (AList fun _ : PeerKey => PeerInterest) :=
  ⟨∅, (·.insert added interest), (·.erase removed), (·.keys.isEmpty), true⟩

inductive LocalReason where
  | hosting
  | client
  | downstream

namespace LocalReason

def add : LocalReason → LocalInterest → LocalInterest × Bool
  | hosting => LocalInterest.startHosting
  | client => LocalInterest.addClient
  | downstream => LocalInterest.addDownstream

def take : LocalReason → LocalInterest → LocalInterest × Bool
  | hosting => LocalInterest.stopHosting
  | client => LocalInterest.removeClient
  | downstream => LocalInterest.removeDownstream

def Holds (i : LocalInterest) : LocalReason → Prop
  | hosting => i.hosting = true
  | client => 0 < i.localClientCount
  | downstream => 0 < i.downstreamSubscriberCount

def steps (added removed : LocalReason) : EntrySteps LocalInterest :=
  ⟨.default, fun i => (added.add i).1, fun i => (removed.take i).1, (!·.isInterested), false⟩

end LocalReason

open LocalReason LocalInterest
variable {x y : ClientId} {p q : PeerKey} {a r : LocalReason}

theorem lookup_removeClientSubscription (m : HostingManager) (instanceId : ContractInstanceId) :
    (m.removeClientSubscription instanceId y).clientSubscriptions.lookup instanceId =
      (clientSteps x y).remove (m.clientSubscriptions.lookup instanceId) := by
  unfold HostingManager.removeClientSubscription
  cases hlook : m.clientSubscriptions.lookup instanceId with
  | none => exact hlook
  | some clients =>
    rw [EntrySteps.remove_some rfl]
    dsimp only [clientSteps]
    split_ifs <;> simp_all

theorem get_dropReason (m : InterestManager) (contract : ContractKey) :
    (m.dropReason contract r.take).1.localInterests.get contract =
      (a.steps r).remove (m.localInterests.get contract) := by
  have hlast (i : LocalInterest) : (r.take i).2 = !(r.take i).1.isInterested := by cases r <;> rfl
  unfold InterestManager.dropReason
  cases hentry : m.localInterests.get contract with
  | none => exact hentry
  | some entry =>
    rw [EntrySteps.remove_some rfl]
    dsimp only [steps]
    split_ifs <;> simp_all

/-- What is added beside the removal of another client, peer or reason stays, unless it comes
between the steps of a removal that leaves nothing; a peer stays even then. -/
theorem concurrent_addition_kept_iff (moment : Moment) (clients : Option (List ClientId))
    (peers : Option (AList fun _ : PeerKey => PeerInterest)) (interest : PeerInterest)
    (locals : Option LocalInterest) (hclients : x ≠ y) (hpeers : p ≠ q)
    (hreasons : a = r → a ≠ .hosting ∧ a.Holds (locals.getD .default)) :
    ((∃ e ∈ (clientSteps x y).interleaved clients moment, x ∈ e) ↔
      (moment = .between → ∀ e ∈ clients, e.erase y ≠ [])) ∧
    (∃ e ∈ (peerSteps p q interest).interleaved peers moment, p ∈ e) ∧
    ((∃ e ∈ (a.steps r).interleaved locals moment, a.Holds e) ↔
      (moment = .between → ∀ e ∈ locals, (r.take e).1.isInterested = true)) := by
  refine ⟨?_, ?_, ?_⟩
  · refine (EntrySteps.kept_iff ?_ ?_ ?_ moment).trans (by simp [clientSteps])
    · simp [clientSteps]
    · exact fun e h => by simpa [clientSteps] using List.ne_nil_of_mem h
    · simp [clientSteps, List.mem_erase_of_ne hclients]
  · refine (EntrySteps.kept_iff ?_ ?_ ?_ moment).mpr (by simp [peerSteps])
    · simp [peerSteps]
    · exact fun e h => by simpa [peerSteps] using List.ne_nil_of_mem (AList.mem_keys.mp h)
    · simp [peerSteps, hpeers]
  · refine (EntrySteps.kept_iff ?_ ?_ ?_ moment).trans (by simp [steps])
    · intro e
      cases a <;> simp [steps, add, Holds, startHosting, addClient, addDownstream]
    · intro e h
      cases a <;> simp_all [steps, Holds, isInterested]
    · cases a <;> cases r <;> simp_all [steps, add, take, Holds, startHosting, addClient, addDownstream,
        stopHosting, removeClient, removeDownstream, lessened]

theorem two_clients_kept : ∃ e ∈ (clientSteps 2 1).interleaved (some [1, 3]) .between, 2 ∈ e :=
  (concurrent_addition_kept_iff (p := 1) (q := 2) (a := .client) (r := .hosting) .between (some [1, 3]) none
    ⟨none, 0, false⟩ none (by decide) (by decide) nofun).1.mpr (by simp)

theorem addition_between_steps_lost : (clientSteps 2 1).interleaved (some [1]) .between = none ∧
      (LocalReason.client.steps .client).interleaved (some ⟨false, 1, 0⟩) .between = none := by
  decide +kernel

end Freenet.Ring
