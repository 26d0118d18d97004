import Freenet.Ring.HostingCache

/-! What the operations of the hosting cache do to its order and contents, and whom they evict. -/
namespace Freenet.Ring
open Contract Lib List Outcome

namespace HostingCache

structure Indexed (c : HostingCache) : Prop where
  nodup : c.lruOrder.Nodup
  mem_iff : ∀ key, key ∈ c.lruOrder ↔ c.contains key = true

def bytesOf (c : HostingCache) (keys : List ContractKey) : Nat :=
  (keys.map fun key => ((c.contracts.lookup key).map (·.sizeBytes)).getD 0).sum

/-- When the contracts `before` it have gone, there is room for so many bytes; or `next` is within
its time to live. -/
def StopsAt (c : HostingCache) (now sizeBytes : Nat) (before : List ContractKey)
    (next : ContractKey) : Prop :=
  (c.currentBytes - c.bytesOf before + sizeBytes) % 2 ^ 64 ≤ c.budgetBytes ∨
    ∃ entry, c.contracts.lookup next = some entry ∧ now - entry.lastAccessed < c.minTtl

/-- Making room for so many bytes stops at the contract or before it. -/
def Spares (c : HostingCache) (now sizeBytes : Nat) (key : ContractKey) : Prop :=
  ∃ before next after, c.lruOrder = before ++ next :: after ∧ key ∈ next :: after ∧
    c.StopsAt now sizeBytes before next

variable {c c' : HostingCache} {now sizeBytes : Nat} {key key' : ContractKey} {build : Build}
  {evicted : List ContractKey}

theorem contains_iff : c.contains key = true ↔ ∃ entry, c.contracts.lookup key = some entry :=
  Option.isSome_iff_exists

theorem Spares.mem (h : c.Spares now sizeBytes key) : key ∈ c.lruOrder := by
  obtain ⟨before, next, after, horder, hkey, -⟩ := h
  rw [horder]
  exact mem_append_right before hkey

theorem Indexed.new (budgetBytes minTtl : Nat) : (new budgetBytes minTtl).Indexed where
  nodup := nodup_nil
  mem_iff _ := by simp [HostingCache.new, contains]

def evictFirst (c : HostingCache) (first : ContractKey) (entry : HostedContract) (rest : List ContractKey) :
    HostingCache := { c.release first entry with lruOrder := rest }

variable {entry : HostedContract} {rest : List ContractKey} {first : ContractKey}

theorem lookup_evictFirst (h : key ≠ first) :
    (c.evictFirst first entry rest).contracts.lookup key = c.contracts.lookup key :=
  AList.lookup_erase_ne h

theorem contains_evictFirst :
    (c.evictFirst first entry rest).contains key = (decide (key ≠ first) && c.contains key) :=
  isSome_lookup_erase

theorem Indexed.evictFirst (hc : c.Indexed) (horder : c.lruOrder = first :: rest) :
    (c.evictFirst first entry rest).Indexed := by
  have hnodup := hc.nodup
  rw [horder, nodup_cons] at hnodup
  refine ⟨hnodup.2, fun key => ?_⟩
  have hmem := hc.mem_iff key
  rw [horder, mem_cons] at hmem
  rw [contains_evictFirst, Bool.and_eq_true, decide_eq_true_iff, ← hmem]
  by_cases hkey : key = first
  · subst hkey
    exact iff_of_false hnodup.1 (by simp)
  · simp only [hkey, ne_eq, not_false_eq_true, true_and, false_or]
    rfl

theorem stopsAt_evictFirst {rest before : List ContractKey} {next : ContractKey}
    (hfirst : c.contracts.lookup first = some entry) (hbefore : first ∉ before)
    (hnext : next ≠ first) : (c.evictFirst first entry rest).StopsAt now sizeBytes before next ↔
      c.StopsAt now sizeBytes (first :: before) next := by
  have hbytes : (c.evictFirst first entry rest).bytesOf before = c.bytesOf before := by
    unfold bytesOf
    congr 1
    refine map_congr_left fun key hkey => ?_
    have hne : key ≠ first := fun h => hbefore (h ▸ hkey)
    rw [lookup_evictFirst hne]
  have hcurr : (c.evictFirst first entry rest).currentBytes - (c.evictFirst
      first entry rest).bytesOf before =
      c.currentBytes - c.bytesOf (first :: before) := by
    rw [hbytes]
    unfold bytesOf
    rw [map_cons, hfirst]
    exact Nat.sub_sub _ _ _
  unfold StopsAt
  rw [hcurr, lookup_evictFirst hnext]
  rfl

theorem spares_evictFirst (hc : c.Indexed) (horder : c.lruOrder = first :: rest)
    (hfirst : c.contracts.lookup first = some entry) (hstop : ¬ c.StopsAt now sizeBytes [] first) :
    (c.evictFirst first entry rest).Spares now sizeBytes key ↔ c.Spares now sizeBytes key := by
  have hnodup := hc.nodup
  rw [horder, nodup_cons] at hnodup
  constructor
  · rintro ⟨before, next, after, hrest, hkey, hstops⟩
    have hsplit : rest = before ++ next :: after := hrest
    rw [hsplit, mem_append, mem_cons, not_or, not_or] at hnodup
    refine ⟨first :: before, next, after, by rw [horder, hsplit, cons_append], hkey, ?_⟩
    exact (stopsAt_evictFirst hfirst hnodup.1.1 (Ne.symm hnodup.1.2.1)).mp hstops
  · rintro ⟨before, next, after, hsplit, hkey, hstops⟩
    rw [horder] at hsplit
    cases before with
    | nil =>
      cases hsplit
      exact absurd hstops hstop
    | cons first' before =>
      rw [cons_append] at hsplit
      obtain ⟨rfl, rfl⟩ := hsplit
      rw [mem_append, mem_cons, not_or, not_or] at hnodup
      refine ⟨before, next, after, rfl, hkey, ?_⟩
      exact (stopsAt_evictFirst hfirst hnodup.1.1 (Ne.symm hnodup.1.2.1)).mpr hstops

theorem evictOldest_cons {oldest : ContractKey} (hlook : c.contracts.lookup oldest = some entry)
    (h : evictOldest now build sizeBytes (oldest :: rest) c = .ok (c', evicted)) :
    (c.StopsAt now sizeBytes [] oldest ∧ c' = c ∧ evicted = []) ∨
    (¬ c.StopsAt now sizeBytes [] oldest ∧ ∃ evicted', evicted = oldest :: evicted' ∧
      evictOldest now build sizeBytes rest (c.evictFirst oldest entry rest) = .ok (c', evicted')) := by
  rw [evictOldest, bind_eq_ok_iff] at h
  obtain ⟨total, htotal, h⟩ := h
  have htotal' : total = (c.currentBytes - c.bytesOf [] + sizeBytes) % 2 ^ 64 := addUsize_eq_ok htotal
  split_ifs at h with hfits
  · cases h
    rw [htotal'] at hfits
    exact .inl ⟨.inl hfits, rfl, rfl⟩
  · rw [hlook] at h
    dsimp only at h
    split_ifs at h with hage
    · rw [bind_eq_ok_iff] at h
      obtain ⟨⟨c₁, evicted'⟩, hrest, h⟩ := h
      cases h
      refine .inr ⟨?_, evicted', rfl, hrest⟩
      rintro (hroom | ⟨entry', hentry', hwith⟩)
      · exact hfits (htotal' ▸ hroom)
      · rw [hlook] at hentry'
        cases hentry'
        omega
    · cases h
      exact .inl ⟨.inr ⟨entry, hlook, Nat.not_le.mp hage⟩, rfl, rfl⟩

theorem evictOldest_spec (hc : c.Indexed)
    (h : evictOldest now build sizeBytes c.lruOrder c = .ok (c', evicted)) :
    c'.Indexed ∧ evicted ++ c'.lruOrder = c.lruOrder ∧
    ∀ key, key ∈ c'.lruOrder ↔ c.Spares now sizeBytes key := by
  generalize horder : c.lruOrder = order at h
  induction order generalizing c evicted with
  | nil =>
    rw [evictOldest, bind_eq_ok_iff] at h
    obtain ⟨_, _, h⟩ := h
    cases h
    refine ⟨hc, horder, fun key => iff_of_false (by simp [horder]) fun hspar => ?_⟩
    have hmem := hspar.mem
    rw [horder] at hmem
    cases hmem
  | cons oldest rest ih =>
    obtain ⟨entry, hlook⟩ := contains_iff.mp ((hc.mem_iff oldest).mp (by simp [horder]))
    rcases evictOldest_cons hlook h with ⟨hstop, rfl, rfl⟩ | ⟨hstop, evicted', rfl, hrest⟩
    · refine ⟨hc, horder, fun key => ⟨fun hkey => ?_, Spares.mem⟩⟩
      exact ⟨[], oldest, rest, horder, horder ▸ hkey, hstop⟩
    · have hfirst : (c.evictFirst oldest entry rest).Indexed := hc.evictFirst horder
      obtain ⟨hc', happend, hspar⟩ := ih hfirst rfl hrest
      refine ⟨hc', by rw [cons_append, happend], fun key => ?_⟩
      rw [hspar, spares_evictFirst hc horder hlook hstop]

theorem Indexed.of_contains (hc : c.Indexed) (horder : c'.lruOrder = c.lruOrder)
    (hcont : ∀ key, c'.contains key = c.contains key) : c'.Indexed where
  nodup := horder ▸ hc.nodup
  mem_iff key := by rw [horder, hcont, hc.mem_iff]

theorem Indexed.moveToBack (hc : c.Indexed) (hkey : c.contains key = true) : (c.moveToBack key).Indexed := by
  have hmem (key' : ContractKey) : key' ∈ c.lruOrder.filter (· ≠ key) ↔ key' ∈ c.lruOrder ∧ key' ≠ key := by
    rw [mem_filter, decide_eq_true_iff]
  constructor
  · refine (hc.nodup.filter _).append (nodup_singleton key) ?_
    intro key' hfirst hsecond
    exact ((hmem key').mp hfirst).2 (mem_singleton.mp hsecond)
  · intro key'
    have hsame : (c.moveToBack key).contains key' = c.contains key' := rfl
    rw [hsame, HostingCache.moveToBack, mem_append, hmem, hc.mem_iff]
    by_cases h : key' = key
    · simp [h, hkey]
    · simp [h]

theorem contains_insert {entry : HostedContract} {bytes : Nat} {order : List ContractKey} :
    ({ c with contracts := c.contracts.insert key entry, currentBytes := bytes, lruOrder := order } :
      HostingCache).contains key' = (decide (key' = key) || c.contains key') := isSome_lookup_insert

section
variable (hc : c.Indexed)
include hc

theorem Indexed.refresh (hkey : c.contains key = true) (entry : HostedContract) (bytes : Nat) :
    ({ c with contracts := c.contracts.insert key entry, currentBytes := bytes } :
      HostingCache).Indexed := by
  refine hc.of_contains rfl fun key' => contains_insert.trans ?_
  by_cases h : key' = key
  · simp [h, hkey]
  · simp [h]

theorem Indexed.append (hkey : c.contains key = false) (entry : HostedContract) (bytes : Nat) :
    ({ c with
      contracts := c.contracts.insert key entry
      lruOrder := c.lruOrder ++ [key]
      currentBytes := bytes } : HostingCache).Indexed := by
  have hnotMem : key ∉ c.lruOrder := by
    rw [hc.mem_iff, hkey]
    exact Bool.false_ne_true
  constructor
  · refine hc.nodup.append (nodup_singleton key) ?_
    intro key' hfirst hsecond
    exact hnotMem (mem_singleton.mp hsecond ▸ hfirst)
  · intro key'
    rw [contains_insert, Bool.or_eq_true, decide_eq_true_iff, mem_append, mem_singleton, hc.mem_iff, or_comm]

theorem recordAccess_spec {accessType : AccessType} {result : RecordAccessResult}
    (h : c.recordAccess now key build sizeBytes accessType = .ok (c', result)) :
    c'.Indexed ∧ ∀ key', c'.contains key' = true ↔
      key' = key ∨ c.contains key' = true ∧ (c.contains key = true ∨ c.Spares now sizeBytes key') := by
  unfold recordAccess at h
  cases hlook : c.contracts.lookup key with
  | some existing =>
    have hkey : c.contains key = true := contains_iff.mpr ⟨existing, hlook⟩
    rw [hlook] at h
    cases h
    refine ⟨(hc.refresh hkey _ _).moveToBack ?_, fun key' => ?_⟩
    · rw [contains_insert]
      simp
    · refine (Bool.eq_iff_iff.mp contains_insert).trans ?_
      simp [hkey]
  | none =>
    have hkey : c.contains key = false := by simp [contains, hlook]
    rw [hlook, bind_eq_ok_iff] at h
    obtain ⟨⟨c₁, evicted⟩, hevict, h⟩ := h
    cases h
    obtain ⟨hc₁, happend, hspar⟩ := evictOldest_spec hc hevict
    have hkept (key' : ContractKey) : c₁.contains key' = true ↔
        c.contains key' = true ∧ c.Spares now sizeBytes key' := by
      rw [← hc₁.mem_iff, hspar, ← hc.mem_iff]
      exact ⟨fun hspared => ⟨hspared.mem, hspared⟩, And.right⟩
    have hnew : c₁.contains key = false := by
      rw [Bool.eq_false_iff, ne_eq, hkept, hkey]
      simp
    refine ⟨hc₁.append hnew _ _, fun key' => ?_⟩
    rw [contains_insert, Bool.or_eq_true, hkept, hkey]
    simp

theorem touch_spec :
    (c.touch now key).Indexed ∧ ∀ key', (c.touch now key).contains key' = c.contains key' := by
  unfold touch
  cases hlook : c.contracts.lookup key with
  | none => exact ⟨hc, fun _ => rfl⟩
  | some existing =>
    have hkey : c.contains key = true := contains_iff.mpr ⟨existing, hlook⟩
    refine ⟨(hc.refresh hkey _ _).moveToBack ?_, fun key' => ?_⟩
    · rw [contains_insert]
      simp
    · refine Eq.trans contains_insert ?_
      by_cases h : key' = key
      · simp [h, hkey]
      · simp [h]

theorem remove_spec : (c.remove key).1.Indexed ∧ ∀ key', (c.remove key).1.contains key' =
      (decide (key' ≠ key) && c.contains key') := by
  unfold remove
  cases hlook : c.contracts.lookup key with
  | none =>
    refine ⟨hc, fun key' => ?_⟩
    by_cases h : key' = key
    · subst h
      simp [contains, hlook]
    · simp [h]
  | some removed =>
    have hcont (key' : ContractKey) : ({ c.release key removed with
        lruOrder := c.lruOrder.filter (· ≠ key) } : HostingCache).contains key' =
        (decide (key' ≠ key) && c.contains key') := isSome_lookup_erase
    refine ⟨⟨hc.nodup.filter _, fun key' => ?_⟩, hcont⟩
    rw [hcont, Bool.and_eq_true, mem_filter, hc.mem_iff, and_comm]

end

variable {shouldRetain : ContractKey → Bool}

/-- What a sweep over part of the order leaves: no contract that is to be retained goes. -/
structure Sweeps (c : HostingCache) (shouldRetain : ContractKey → Bool) (order : List ContractKey)
    (c' : HostingCache) : Prop where
  sublist : c'.lruOrder.Sublist order
  contains : ∀ key, c'.contains key = true ↔ c.contains key = true ∧ (key ∈ order → key ∈ c'.lruOrder)
  retained : ∀ key ∈ order, shouldRetain key = true → c.contains key = true → key ∈ c'.lruOrder

variable {order : List ContractKey}

theorem Sweeps.keep {r : HostingCache × List ContractKey} (h : c.Sweeps shouldRetain order r.1)
    (hkey : key ∉ order) : c.Sweeps shouldRetain (key :: order) (keepInOrder key r).1 where
  sublist := h.sublist.cons_cons key
  contains key' := by
    have hsame : (keepInOrder key r).1.contains key' = r.1.contains key' := rfl
    rw [hsame, h.contains, keepInOrder]
    by_cases hne : key' = key
    · subst hne
      simp [hkey]
    · simp [hne]
  retained key' hmem hretain hcont := by
    rcases mem_cons.mp hmem with rfl | hmem
    · exact mem_cons_self
    · exact mem_cons_of_mem key (h.retained key' hmem hretain hcont)

theorem Sweeps.release {entry : HostedContract}
    (h : (c.release key entry).Sweeps shouldRetain order c') (hkey : key ∉ order)
    (hretain : shouldRetain key = false) : c.Sweeps shouldRetain (key :: order) c' := by
  have hcont (key' : ContractKey) :
      (c.release key entry).contains key' = (decide (key' ≠ key) && c.contains key') := isSome_lookup_erase
  have hgone : key ∉ c'.lruOrder := fun hmem => hkey (h.sublist.subset hmem)
  refine ⟨h.sublist.cons key, fun key' => ?_, fun key' hmem hretain' hcont' => ?_⟩
  · rw [h.contains, hcont]
    by_cases hne : key' = key
    · subst hne
      simp [hgone]
    · simp [hne]
  · have hne : key' ≠ key := by
      rintro rfl
      rw [hretain] at hretain'
      cases hretain'
    have hmem' : key' ∈ order := (mem_cons.mp hmem).resolve_left hne
    exact h.retained key' hmem' hretain' (by simp [hcont, hne, hcont'])

theorem Sweeps.drop (h : c.Sweeps shouldRetain order c') (hnone : c.contains key = false) :
    c.Sweeps shouldRetain (key :: order) c' := by
  refine ⟨h.sublist.cons key, fun key' => ?_, fun key' hmem hretain hcont => ?_⟩
  · rw [h.contains]
    by_cases hne : key' = key
    · subst hne
      simp [hnone]
    · simp [hne]
  · have hne : key' ≠ key := by
      rintro rfl
      rw [hnone] at hcont
      cases hcont
    exact h.retained key' ((mem_cons.mp hmem).resolve_left hne) hretain hcont

theorem sweepOver_sweeps (hnodup : order.Nodup) :
    c.Sweeps shouldRetain order (sweepOver now shouldRetain order c).1 := by
  induction order generalizing c with
  | nil => exact ⟨Sublist.refl [], fun key => by simp [sweepOver, contains], fun key h => by cases h⟩
  | cons key rest ih =>
    obtain ⟨hkey, hnodup⟩ := nodup_cons.mp hnodup
    unfold sweepOver
    split_ifs
    · exact (ih hnodup).keep hkey
    · cases hlook : c.contracts.lookup key with
      | none =>
        have hnone : c.contains key = false := by simp [contains, hlook]
        exact (ih hnodup).drop hnone
      | some entry =>
        dsimp only
        split_ifs with hevict
        · exact (ih hnodup).release hkey hevict.2
        · exact (ih hnodup).keep hkey

theorem sweepExpired_spec (hc : c.Indexed) : (c.sweepExpired now shouldRetain).1.Indexed ∧
    ∀ key, shouldRetain key = true → c.contains key = true →
      (c.sweepExpired now shouldRetain).1.contains key = true := by
  unfold sweepExpired
  split_ifs
  · exact ⟨hc, fun key _ hcont => hcont⟩
  · have hsweeps : c.Sweeps shouldRetain c.lruOrder (sweepOver now shouldRetain c.lruOrder c).1 :=
      sweepOver_sweeps hc.nodup
    refine ⟨⟨hc.nodup.sublist hsweeps.sublist, fun key => ?_⟩, fun key hretain hcont => ?_⟩
    · rw [hsweeps.contains, ← hc.mem_iff]
      exact ⟨fun hmem => ⟨hsweeps.sublist.subset hmem, fun _ => hmem⟩, fun h => h.2 h.1⟩
    · rw [hsweeps.contains]
      exact ⟨hcont, fun hmem => hsweeps.retained key hmem hretain hcont⟩

theorem contains_loadPersistedEntry {entry : PersistedEntry} (h : c.contains key = true) :
    (c.loadPersistedEntry now entry).contains key = true := by
  by_cases hkey : c.contains entry.key = true
  · rw [loadPersistedEntry, if_pos hkey]
    exact h
  · rw [loadPersistedEntry, if_neg hkey]
    refine Eq.trans contains_insert ?_
    simp [h]

theorem contains_foldl_loadPersistedEntry {entries : List PersistedEntry} (h : c.contains key = true) :
    (entries.foldl (fun c entry => c.loadPersistedEntry now entry) c).contains key = true := by
  induction entries generalizing c with
  | nil => exact h
  | cons entry entries ih => exact ih (contains_loadPersistedEntry h)

theorem finalizeLoading_spec {order : List ContractKey} (h : c.finalizeLoading order = some c') :
    c'.Indexed ∧ ∀ key, c'.contains key = c.contains key := by
  unfold finalizeLoading at h
  split_ifs at h with hsort
  cases h
  have hperm : order.Perm c.contracts.keys := (of_decide_eq_true hsort).1
  refine ⟨⟨hperm.nodup_iff.mpr c.contracts.keys_nodup, fun key => ?_⟩, fun _ => rfl⟩
  rw [hperm.mem_iff, ← AList.mem_keys, ← AList.lookup_isSome]
  rfl

end HostingCache

/-! Hosting operations in any order, and when they evict a contract that clients or peers subscribe
to. -/
open HostingCache HostingManager
open Node (ClientId)

inductive HostingOp where
  | subscribe (contract : ContractKey)
  | renewSubscription (contract : ContractKey)
  | unsubscribe (contract : ContractKey)
  | expireStaleSubscriptions
  | addClientSubscription (instanceId : ContractInstanceId) (client : ClientId)
  | removeClientSubscription (instanceId : ContractInstanceId) (client : ClientId)
  | removeClientFromAllSubscriptions (client : ClientId)
  | addDownstreamSubscriber (contract : ContractKey) (peer : PeerKey)
  | renewDownstreamSubscriber (contract : ContractKey) (peer : PeerKey)
  | removeDownstreamSubscriber (contract : ContractKey) (peer : PeerKey)
  | expireStaleDownstreamSubscribers
  | recordContractAccess (contract : ContractKey) (sizeBytes : Nat) (accessType : AccessType)
  | removeHostedContract (contract : ContractKey)
  | touchHosting (contract : ContractKey)
  | sweepExpiredHosting
  | loadFromStorage (entries : List PersistedEntry) (order : List ContractKey)

def HostingOp.isOnCache : HostingOp → Bool
  | .recordContractAccess _ _ _ | .removeHostedContract _ | .touchHosting _ | .sweepExpiredHosting
  | .loadFromStorage _ _ => true
  | .subscribe _ | .renewSubscription _ | .unsubscribe _ | .expireStaleSubscriptions
  | .addClientSubscription _ _ | .removeClientSubscription _ _ | .removeClientFromAllSubscriptions _
  | .addDownstreamSubscriber _ _ | .renewDownstreamSubscriber _ _ | .removeDownstreamSubscriber _ _
  | .expireStaleDownstreamSubscribers => false

namespace HostingManager
variable (build : Build) (m : HostingManager) (now : Nat)

/-- An access that panics ends the run. -/
def apply : HostingOp → Option HostingManager
  | .subscribe contract => some (m.subscribe now contract)
  | .renewSubscription contract => some (m.renewSubscription now contract)
  | .unsubscribe contract => some (m.unsubscribe contract)
  | .expireStaleSubscriptions => some (m.expireStaleSubscriptions now)
  | .addClientSubscription instanceId client => some (m.addClientSubscription instanceId client)
  | .removeClientSubscription instanceId client => some (m.removeClientSubscription instanceId client)
  | .removeClientFromAllSubscriptions client => some (m.removeClientFromAllSubscriptions client).1
  | .addDownstreamSubscriber contract peer => some (m.addDownstreamSubscriber now contract peer)
  | .renewDownstreamSubscriber contract peer => some (m.renewDownstreamSubscriber now contract peer)
  | .removeDownstreamSubscriber contract peer => some (m.removeDownstreamSubscriber contract peer)
  | .expireStaleDownstreamSubscribers => some (m.expireStaleDownstreamSubscribers now)
  | .recordContractAccess contract sizeBytes accessType =>
    match m.recordContractAccess now contract build sizeBytes accessType with
    | .ok (m, _) => some m
    | .panicked _ => none
  | .removeHostedContract contract => some (m.removeHostedContract contract).1
  | .touchHosting contract => some (m.touchHosting now contract)
  | .sweepExpiredHosting => some (m.sweepExpiredHosting now).1
  | .loadFromStorage entries order => m.loadFromStorage now entries order

def hosts (key : ContractKey) : Bool := m.hostingCache.contains key

/-- A client subscribes to the contract, or a peer whose lease has not expired. -/
def Protected (key : ContractKey) : Prop :=
  m.clients key.id ≠ [] ∨
    ∃ peer lastRenewed, (m.downstream key).lookup peer = some lastRenewed ∧
      isUnexpired now lastRenewed = true

/-- The operation evicts no protected contract. Explicit removals are not evictions. -/
def Keeps (op : HostingOp) (m' : HostingManager) : Prop :=
  ∀ key, m.Protected now key → m.hosts key = true → op ≠ .removeHostedContract key → m'.hosts key = true

def HasRoom : HostingOp → Prop
  | .recordContractAccess contract sizeBytes _ => m.hosts contract = true ∨
      ∀ key, m.Protected now key → m.hosts key = true → m.hostingCache.Spares now sizeBytes key
  | _ => True

variable {build m now} {m' : HostingManager} {op : HostingOp} {key : ContractKey}

theorem Protected.isInUse (h : m.Protected now key) : m.isInUse key = true := by
  unfold HostingManager.isInUse hasClientSubscriptions hasDownstreamSubscribers
  rw [Bool.or_eq_true]
  rcases h with hclients | ⟨peer, lastRenewed, hpeer, -⟩
  · exact .inl (by simpa using hclients)
  · right
    have hmem : (⟨peer, lastRenewed⟩ : Sigma fun _ : PeerKey => Nat) ∈ (m.downstream key).entries :=
      AList.mem_lookup_iff.mp hpeer
    cases hentr : (m.downstream key).entries with
    | nil =>
      rw [hentr] at hmem
      cases hmem
    | cons _ _ => rfl

theorem hostingCache_removeClientSubscription {instanceId : ContractInstanceId} {client : ClientId} :
    (m.removeClientSubscription instanceId client).hostingCache = m.hostingCache := by
  unfold removeClientSubscription
  split <;> rfl

theorem hostingCache_removeClientFromAllSubscriptions {client : ClientId} :
    (m.removeClientFromAllSubscriptions client).1.hostingCache = m.hostingCache := by
  unfold removeClientFromAllSubscriptions
  dsimp only
  generalize m.instanceIdsWithClient client = instanceIds
  induction instanceIds generalizing m with
  | nil => rfl
  | cons instanceId instanceIds ih => rw [foldl_cons, ih, hostingCache_removeClientSubscription]

theorem hostingCache_apply (hop : op.isOnCache = false) (h : m.apply build now op = some m') :
    m'.hostingCache = m.hostingCache := by
  cases op with
  | subscribe _ | unsubscribe _ | expireStaleSubscriptions | addClientSubscription _ _
  | addDownstreamSubscriber _ _ | expireStaleDownstreamSubscribers =>
    cases h
    rfl
  | renewSubscription contract =>
    cases h
    unfold renewSubscription
    split_ifs <;> rfl
  | removeClientSubscription instanceId client =>
    cases h
    exact hostingCache_removeClientSubscription
  | removeClientFromAllSubscriptions client =>
    cases h
    exact hostingCache_removeClientFromAllSubscriptions
  | renewDownstreamSubscriber contract peer =>
    cases h
    unfold renewDownstreamSubscriber
    split_ifs <;> rfl
  | removeDownstreamSubscriber contract peer =>
    cases h
    unfold removeDownstreamSubscriber
    split_ifs <;> rfl
  | recordContractAccess _ _ _ | removeHostedContract _ | touchHosting _ | sweepExpiredHosting
  | loadFromStorage _ _ => cases hop

theorem recordAccess_of_apply {contract : ContractKey} {sizeBytes : Nat} {accessType : AccessType}
    (h : m.apply build now (.recordContractAccess contract sizeBytes accessType) = some m') :
    ∃ result, m.hostingCache.recordAccess now contract build sizeBytes accessType =
      .ok (m'.hostingCache, result) := by
  cases haccess : m.recordContractAccess now contract build sizeBytes accessType with
  | panicked reason =>
    rw [apply, haccess] at h
    cases h
  | ok r =>
    rw [apply, haccess] at h
    cases h
    obtain ⟨⟨cache, result⟩, hcache, hpair⟩ := (bind_eq_ok_iff _ _ _).mp haccess
    cases hpair
    exact ⟨result, hcache⟩

theorem finalizeLoading_of_apply {entries : List PersistedEntry} {order : List ContractKey}
    (h : m.apply build now (.loadFromStorage entries order) = some m') :
    (entries.foldl (fun cache entry => cache.loadPersistedEntry now entry)
      m.hostingCache).finalizeLoading order =
      some m'.hostingCache := by
  obtain ⟨cache, hcache, rfl⟩ := Option.map_eq_some_iff.mp h
  exact hcache

theorem indexed_apply (hm : m.hostingCache.Indexed) (h : m.apply build now op = some m') :
    m'.hostingCache.Indexed := by
  cases op with
  | recordContractAccess contract sizeBytes accessType =>
    obtain ⟨result, haccess⟩ := recordAccess_of_apply h
    exact (recordAccess_spec hm haccess).1
  | removeHostedContract contract =>
    cases h
    exact (remove_spec hm).1
  | touchHosting contract =>
    cases h
    exact (touch_spec hm).1
  | sweepExpiredHosting =>
    cases h
    exact (sweepExpired_spec hm).1
  | loadFromStorage entries order => exact (finalizeLoading_spec (finalizeLoading_of_apply h)).1
  | _ =>
    rw [hostingCache_apply rfl h]
    exact hm

/-- A new contract displaces protected ones exactly if making room for it does not spare them;
nothing else does. -/
theorem keeps_iff (hm : m.hostingCache.Indexed) (h : m.apply build now op = some m') :
    m.Keeps now op m' ↔ m.HasRoom now op := by
  cases op with
  | recordContractAccess contract sizeBytes accessType =>
    obtain ⟨result, haccess⟩ := recordAccess_of_apply h
    have hcont := (recordAccess_spec hm haccess).2
    constructor
    · intro hkeeps
      by_cases hcontr : m.hosts contract = true
      · exact .inl hcontr
      · right
        intro key hprot hkey
        rcases (hcont key).mp (hkeeps key hprot hkey nofun) with rfl | ⟨-, hspared⟩
        · exact absurd hkey hcontr
        · exact hspared.resolve_left hcontr
    · intro hroom key hprot hkey _
      refine (hcont key).mpr (.inr ⟨hkey, ?_⟩)
      exact hroom.imp_right fun hspar => hspar key hprot hkey
  | removeHostedContract contract =>
    cases h
    refine iff_of_true (fun key _ hkey hne => ?_) trivial
    have hdiff : key ≠ contract := fun heq => hne (by rw [heq])
    refine ((remove_spec hm).2 key).trans ?_
    simp only [hdiff, ne_eq]
    exact hkey
  | touchHosting contract =>
    cases h
    exact iff_of_true (fun key _ hkey _ => ((touch_spec hm).2 key).trans hkey) trivial
  | sweepExpiredHosting =>
    cases h
    refine iff_of_true (fun key hprot hkey _ => ?_) trivial
    exact (sweepExpired_spec hm).2 key hprot.isInUse hkey
  | loadFromStorage entries order =>
    refine iff_of_true (fun key _ hkey _ => ?_) trivial
    refine ((finalizeLoading_spec (finalizeLoading_of_apply h)).2 key).trans ?_
    exact contains_foldl_loadPersistedEntry hkey
  | _ =>
    refine iff_of_true (fun key _ hkey _ => ?_) trivial
    unfold hosts
    rw [hostingCache_apply rfl h]
    exact hkey

end HostingManager

def hosting (build : Build) : Machine HostingManager (HostingOp × Nat) where
  init m := ∃ budgetBytes minTtl, m = .new budgetBytes minTtl
  step m e := m.apply build e.2 e.1

/-- After any operations, the order lists every hosted contract once and nothing else. -/
theorem hosting_indexed {build : Build} (r : (hosting build).Reachable) : r.state.hostingCache.Indexed := by
  refine r.holds (fun m => m.hostingCache.Indexed) ?_ fun _ _ _ hm h => indexed_apply hm h
  rintro _ ⟨budgetBytes, minTtl, rfl⟩
  exact Indexed.new budgetBytes minTtl

/-- In every run, the next operation evicts no protected contract if and only if it is not an access
to a new contract for which protected ones would have to go. -/
theorem protected_kept_iff {build : Build} {m₀ m m' : HostingManager} {es : List (HostingOp × Nat)}
    {op : HostingOp} {now : Nat} (hinit : (hosting build).init m₀)
    (hrun : (hosting build).runFrom m₀ es = some m) (hstep : (hosting build).step m (op, now) = some m') :
    m.Keeps now op m' ↔ m.HasRoom now op := by
  obtain ⟨budgetBytes, minTtl, rfl⟩ := hinit
  have hidx : m.hostingCache.Indexed := (hosting build).invariant_of_run (fun m => m.hostingCache.Indexed)
    (fun _ _ _ hm h => indexed_apply hm h) (Indexed.new budgetBytes minTtl) hrun
  exact keeps_iff hidx hstep

def subscribedContract : ContractKey := ⟨1, 1⟩

def anotherContract : ContractKey := ⟨2, 1⟩

def subscribedRun : List (HostingOp × Nat) :=
  [(.recordContractAccess subscribedContract (60 * 1024 * 1024) .get, 0),
    (.addClientSubscription 1 7, 0), (.addDownstreamSubscriber subscribedContract 5, 10 ^ 9)]

/-- It is kept if another one fits into the cache beside it. -/
theorem subscribedContract_kept : ∃ m m', (hosting ⟨false, false⟩).runFrom
      (.new defaultHostingBudgetBytes defaultMinTtl) subscribedRun = some m ∧
    m.apply ⟨false, false⟩ defaultMinTtl (.recordContractAccess anotherContract 1024 .get) = some m' ∧
    m'.hosts subscribedContract = true := by
  obtain ⟨m, hm, hclients, hkeys, horder, hbytes, hbudg, hsome⟩ : ∃ m,
      (hosting ⟨false, false⟩).runFrom (.new defaultHostingBudgetBytes defaultMinTtl)
        subscribedRun = some m ∧ m.clients subscribedContract.id = [7] ∧
      m.hostingCache.contracts.keys = [subscribedContract] ∧
      m.hostingCache.lruOrder = [subscribedContract] ∧
      m.hostingCache.currentBytes = 60 * 1024 * 1024 ∧
      m.hostingCache.budgetBytes = defaultHostingBudgetBytes ∧
      (m.apply ⟨false, false⟩ defaultMinTtl (.recordContractAccess anotherContract 1024 .get)).isSome := by
    decide +kernel
  obtain ⟨m', hm'⟩ := Option.isSome_iff_exists.mp hsome
  have hhosts (key : ContractKey) : m.hosts key = true ↔ key = subscribedContract := by
    unfold hosts HostingCache.contains
    rw [AList.lookup_isSome, AList.mem_keys, hkeys, List.mem_singleton]
  have hroom : m.HasRoom defaultMinTtl (.recordContractAccess anotherContract 1024 .get) := by
    right
    intro key _ hkey
    rw [hhosts] at hkey
    refine ⟨[], subscribedContract, [], horder, by simp [hkey], .inl ?_⟩
    have hnone : m.hostingCache.bytesOf [] = 0 := rfl
    rw [hbytes, hbudg, hnone]
    decide
  have hprot : m.Protected defaultMinTtl subscribedContract := .inl (by simp [hclients])
  have hstep : (hosting ⟨false, false⟩).step m
      (.recordContractAccess anotherContract 1024 .get, defaultMinTtl) = some m' := hm'
  have hkeeps := (protected_kept_iff ⟨_, _, rfl⟩ hm hstep).mpr hroom
  exact ⟨m, m', hm, hm', hkeeps subscribedContract hprot ((hhosts _).mpr rfl) nofun⟩

/-- But once its time to live is over, it is evicted for one that does not fit. -/
theorem subscribedContract_evicted : ∃ m m', (hosting ⟨false, false⟩).runFrom
      (.new defaultHostingBudgetBytes defaultMinTtl) subscribedRun = some m ∧
    m.Protected defaultMinTtl subscribedContract ∧ m.hosts subscribedContract = true ∧
    m.apply ⟨false, false⟩ defaultMinTtl
      (.recordContractAccess anotherContract (60 * 1024 * 1024) .get) = some m' ∧
    m'.hosts subscribedContract = false := by
  obtain ⟨m, hm, hclients, hhosts, m', hm', hgone⟩ : ∃ m, (hosting ⟨false, false⟩).runFrom
      (.new defaultHostingBudgetBytes defaultMinTtl) subscribedRun = some m ∧
      m.clients subscribedContract.id = [7] ∧ m.hosts subscribedContract = true ∧
      ∃ m', m.apply ⟨false, false⟩ defaultMinTtl
        (.recordContractAccess anotherContract (60 * 1024 * 1024) .get) = some m' ∧
          m'.hosts subscribedContract = false := by
    decide +kernel
  exact ⟨m, m', hm, .inl (by simp [hclients]), hhosts, hm', hgone⟩

end Freenet.Ring
