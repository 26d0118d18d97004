import Freenet.Lib.Table
import Mathlib.Data.List.Destutter
import Mathlib.Data.List.Sort

/-! The ping contract: its merge keeps a peer's own expired timestamps, and drops those of the other
state. -/
namespace Freenet.Apps
open Lib List Option

def maxHistoryPerPeer : Nat := 10

/-- The timestamps of each name (`from` in the source), and padding that makes the state larger. -/
structure Ping where
  entries : Table String (List Nat)
  padding : Option (List UInt8)

namespace Ping

def new : Ping := ⟨.empty, none⟩

def newestFirst (timestamps : List Nat) : List Nat := timestamps.insertionSort (· ≥ ·)

def newestOnce (timestamps : List Nat) : List Nat := (newestFirst timestamps).destutter (· ≠ ·)

/-- The time to live and the instant of a merge. These are numbers, so that a timestamp plus the
time to live does not overflow, as a date would. -/
structure Window where
  ttl : Nat
  now : Nat

variable (w : Window)

def live (timestamps : List Nat) : List Nat := timestamps.filter fun t => w.now ≤ t + w.ttl

def expired (timestamps : List Nat) : List Nat :=
  timestamps.filter fun t => !decide (w.now ≤ t + w.ttl)

/-- The first loop for a name: the live timestamps of the other state are taken over. -/
def takeOver (own : Option (List Nat)) (other : List Nat) : Option (List Nat) :=
  if live w other = [] then own
  else some ((newestOnce (own.getD [] ++ live w other)).take maxHistoryPerPeer)

/-- The second loop for a name: beyond the newest timestamps only live ones are kept. -/
def tidy (timestamps : List Nat) : List Nat :=
  let sorted := newestFirst timestamps
  if maxHistoryPerPeer < sorted.length then
    sorted.take maxHistoryPerPeer ++ live w (sorted.drop maxHistoryPerPeer)
  else sorted

variable (self other : Ping)

def timestamps (name : String) : List Nat := (self.entries.get name).getD []

/-- The larger padding is kept. -/
def mergePadding : Option (List UInt8) :=
  match self.padding, other.padding with
  | some existing, some otherP =>
    if existing.length < otherP.length then some otherP else some existing
  | none, some otherP => some otherP
  | existing, none => existing

/-- The merged state, and the lists that got longer. -/
def merge : Ping × Table String (List Nat) :=
  let taken : Table String (List Nat) := fun name =>
    takeOver w (self.entries.get name) (other.timestamps name)
  let tidied : Table String (List Nat) := fun name => (taken.get name).map (tidy w)
  (⟨tidied.retain fun _ timestamps => timestamps ≠ [], self.mergePadding other⟩,
    taken.retain fun name timestamps => (self.timestamps name).length < timestamps.length)

/-- There are at most as many live timestamps as a history has, none of them twice. -/
def FewDistinct (timestamps : List Nat) : Prop :=
  (live w timestamps).Nodup ∧ (live w timestamps).length ≤ maxHistoryPerPeer

/-- The expired timestamps a list has room for. -/
def leftOver (timestamps : List Nat) : List Nat :=
  (newestFirst (expired w timestamps)).take (maxHistoryPerPeer - (live w timestamps).length)

/-- What a name has after the merge of a list of its own with another's. -/
def mergedList (own other : List Nat) : List Nat :=
  tidy w ((takeOver w (some own) other).getD [])

/-- The live timestamps of both lists; with none of the other's to take over, its own as they
are. -/
def liveKept (own other : List Nat) : List Nat :=
  if live w other = [] then newestFirst (live w own)
  else (newestOnce (live w own ++ live w other)).take maxHistoryPerPeer

/-- The newest of a list's own expired timestamps, in the room that the live ones leave. -/
def expiredKept (own other : List Nat) : List Nat :=
  if live w other = [] then leftOver w own
  else (newestOnce (expired w own)).take
    (maxHistoryPerPeer - (newestOnce (live w own ++ live w other)).length)

/-- A list whose live timestamps stand alone has few of them and each once, and either list keeps
the same expired ones. -/
def MergeAlike (xs ys : List Nat) : Prop :=
  (live w ys = [] → FewDistinct w xs) ∧ (live w xs = [] → FewDistinct w ys) ∧
    expiredKept w xs ys = expiredKept w ys xs

variable {w} {own other xs ys : List Nat} {x : Nat}

theorem newestFirst_perm : (newestFirst xs).Perm xs := perm_insertionSort _ xs

theorem newestFirst_pairwise : (newestFirst xs).Pairwise (· ≥ ·) := pairwise_insertionSort _ xs

theorem mem_newestFirst : x ∈ newestFirst xs ↔ x ∈ xs := newestFirst_perm.mem_iff

theorem newestFirst_of_pairwise (h : xs.Pairwise (· ≥ ·)) : newestFirst xs = xs :=
  Perm.eq_of_pairwise' newestFirst_pairwise h newestFirst_perm

theorem newestOnce_eq : newestOnce xs = (newestFirst xs).dedup :=
  newestFirst_pairwise.destutter_eq_dedup

theorem mem_newestOnce : x ∈ newestOnce xs ↔ x ∈ xs := by
  rw [newestOnce_eq, mem_dedup, mem_newestFirst]

theorem newestOnce_nodup : (newestOnce xs).Nodup := newestOnce_eq ▸ nodup_dedup _

theorem newestOnce_pairwise : (newestOnce xs).Pairwise (· ≥ ·) :=
  newestFirst_pairwise.sublist (destutter_sublist _ _)

theorem newestOnce_perm (h : xs.Perm ys) : newestOnce xs = newestOnce ys := by
  refine Perm.eq_of_pairwise' newestOnce_pairwise newestOnce_pairwise ?_
  rw [perm_ext_iff_of_nodup newestOnce_nodup newestOnce_nodup]
  intro x
  rw [mem_newestOnce, mem_newestOnce, h.mem_iff]

/-- What is newer as a whole comes first as a whole. -/
theorem newestFirst_append (h : ∀ x ∈ xs, ∀ y ∈ ys, y < x) :
    newestFirst (xs ++ ys) = newestFirst xs ++ newestFirst ys := by
  refine Perm.eq_of_pairwise' newestFirst_pairwise ?_
    (newestFirst_perm.trans (newestFirst_perm.append newestFirst_perm).symm)
  refine pairwise_append.mpr ⟨newestFirst_pairwise, newestFirst_pairwise, ?_⟩
  intro x hx y hy
  exact Nat.le_of_lt (h x (mem_newestFirst.mp hx) y (mem_newestFirst.mp hy))

theorem newestOnce_append (h : ∀ x ∈ xs, ∀ y ∈ ys, y < x) :
    newestOnce (xs ++ ys) = newestOnce xs ++ newestOnce ys := by
  simp only [newestOnce_eq, newestFirst_append h]
  refine Disjoint.dedup_append fun x hx hy => ?_
  exact Nat.lt_irrefl x (h x (mem_newestFirst.mp hx) x (mem_newestFirst.mp hy))

theorem mem_live : x ∈ live w xs ↔ x ∈ xs ∧ w.now ≤ x + w.ttl := by simp [live]

theorem mem_expired : x ∈ expired w xs ↔ x ∈ xs ∧ x + w.ttl < w.now := by simp [expired]

theorem live_append : live w (xs ++ ys) = live w xs ++ live w ys :=
  filter_append ..

theorem expired_lt_live {y : Nat} (hx : x ∈ live w xs) (hy : y ∈ expired w ys) : y < x := by
  have := (mem_live.mp hx).2
  have := (mem_expired.mp hy).2
  omega

theorem live_append_expired : (live w xs ++ expired w xs).Perm xs := filter_append_perm _ xs

theorem newestFirst_split (w : Window) (xs : List Nat) :
    newestFirst xs = newestFirst (live w xs) ++ newestFirst (expired w xs) := by
  rw [← newestFirst_append fun x hx y hy => expired_lt_live hx hy]
  exact Perm.eq_of_pairwise' newestFirst_pairwise newestFirst_pairwise
    (newestFirst_perm.trans (live_append_expired.symm.trans newestFirst_perm.symm))

theorem tidy_eq : tidy w xs = newestFirst (live w xs) ++ leftOver w xs := by
  have hlive : live w ((newestFirst (live w xs)).drop maxHistoryPerPeer) =
      (newestFirst (live w xs)).drop maxHistoryPerPeer := by
    refine filter_eq_self.mpr fun x hx => ?_
    simpa using (mem_live.mp (mem_newestFirst.mp (mem_of_mem_drop hx))).2
  have hexpir (n : Nat) : live w ((newestFirst (expired w xs)).drop n) = [] := by
    refine filter_eq_nil_iff.mpr fun x hx => ?_
    simpa using (mem_expired.mp (mem_newestFirst.mp (mem_of_mem_drop hx))).2
  have hlength : (newestFirst (live w xs)).length = (live w xs).length :=
    newestFirst_perm.length_eq
  unfold tidy leftOver
  rw [newestFirst_split w xs]
  dsimp only
  split
  · rw [take_append, drop_append, live_append, hlive, hexpir, append_nil, hlength]
    by_cases hfew : (live w xs).length ≤ maxHistoryPerPeer
    · rw [take_of_length_le (hlength.trans_le hfew), drop_of_length_le (hlength.trans_le hfew), append_nil]
    · rw [Nat.sub_eq_zero_of_le (by omega), take_zero, append_nil, append_nil, take_append_drop]
  · rename_i hshort
    rw [length_append] at hshort
    rw [take_of_length_le (by omega)]

theorem tidy_of_pairwise (h : xs.Pairwise (· ≥ ·)) (hlength : xs.length ≤ maxHistoryPerPeer) :
    tidy w xs = xs := by
  unfold tidy
  simp only [newestFirst_of_pairwise h, if_neg (Nat.not_lt.mpr hlength)]

theorem mergedList_of_live (h : live w other ≠ []) :
    mergedList w own other = (newestOnce (live w own ++ live w other) ++
      newestOnce (expired w own)).take maxHistoryPerPeer := by
  have hperm : (own ++ live w other).Perm (live w own ++ live w other ++ expired w own) :=
    (live_append_expired.symm.append_right _).trans
      (by simpa only [append_assoc] using perm_append_comm.append_left _)
  have hnewer : ∀ x ∈ live w own ++ live w other, ∀ y ∈ expired w own, y < x := by
    intro x hx y hy
    exact (mem_append.mp hx).elim (expired_lt_live · hy) (expired_lt_live · hy)
  rw [← newestOnce_append hnewer, ← newestOnce_perm hperm, mergedList, takeOver, if_neg h]
  exact tidy_of_pairwise (newestOnce_pairwise.sublist (take_sublist _ _)) (length_take_le _ _)

theorem mergedList_of_expired (h : live w other = []) : mergedList w own other = tidy w own := by
  rw [mergedList, takeOver, if_pos h, getD_some]

theorem mergedList_eq : mergedList w own other = liveKept w own other ++ expiredKept w own other := by
  unfold liveKept expiredKept
  split_ifs with hother
  · rw [mergedList_of_expired hother, tidy_eq]
  · rw [mergedList_of_live hother, take_append]

theorem live_liveKept : live w (liveKept w own other) = liveKept w own other := by
  refine filter_eq_self.mpr fun x hx => decide_eq_true ?_
  unfold liveKept at hx
  split_ifs at hx
  · exact (mem_live.mp (mem_newestFirst.mp hx)).2
  · rcases mem_append.mp (mem_newestOnce.mp (mem_of_mem_take hx)) with hmem | hmem
    · exact (mem_live.mp hmem).2
    · exact (mem_live.mp hmem).2

theorem live_expiredKept : live w (expiredKept w own other) = [] := by
  have hexpir : ∀ x ∈ expiredKept w own other, x ∈ expired w own := by
    intro x hx
    unfold expiredKept leftOver at hx
    split_ifs at hx
    · exact mem_newestFirst.mp (mem_of_mem_take hx)
    · exact mem_newestOnce.mp (mem_of_mem_take hx)
  refine filter_eq_nil_iff.mpr fun x hx => ?_
  simpa using (mem_expired.mp (hexpir x hx)).2

theorem newestFirst_eq_take_iff : newestFirst xs = (newestOnce xs).take maxHistoryPerPeer ↔
    xs.Nodup ∧ xs.length ≤ maxHistoryPerPeer := by
  constructor
  · intro h
    have hnodup := newestOnce_nodup.sublist (take_sublist maxHistoryPerPeer (newestOnce xs))
    have hlength := length_take_le maxHistoryPerPeer (newestOnce xs)
    rw [← h] at hnodup hlength
    exact ⟨newestFirst_perm.nodup_iff.mp hnodup, newestFirst_perm.length_eq.ge.trans hlength⟩
  · rintro ⟨hnodup, hfew⟩
    rw [newestOnce_eq, (newestFirst_perm.nodup_iff.mpr hnodup).dedup,
      take_of_length_le (newestFirst_perm.length_eq.trans_le hfew)]

theorem liveKept_comm_iff : liveKept w xs ys = liveKept w ys xs ↔
    (live w ys = [] → FewDistinct w xs) ∧ (live w xs = [] → FewDistinct w ys) := by
  unfold liveKept FewDistinct
  by_cases hx : live w xs = []
  · by_cases hy : live w ys = []
    · simp [hx, hy]
    · simp [hx, hy, ← newestFirst_eq_take_iff, eq_comm]
  · by_cases hy : live w ys = []
    · simp [hx, hy, ← newestFirst_eq_take_iff]
    · simp [hx, hy, newestOnce_perm perm_append_comm]

theorem mergedList_comm_iff : mergedList w xs ys = mergedList w ys xs ↔ MergeAlike w xs ys := by
  unfold MergeAlike
  rw [← and_assoc, ← liveKept_comm_iff, mergedList_eq, mergedList_eq]
  constructor
  · intro h
    have hlive := congrArg (live w) h
    simp only [live_append, live_liveKept, live_expiredKept, append_nil] at hlive
    rw [hlive] at h
    exact ⟨hlive, append_cancel_left h⟩
  · rintro ⟨hlive, hexpir⟩
    rw [hlive, hexpir]

variable (a b : Ping) (name : String)

theorem mergePadding_comm_iff : a.mergePadding b = b.mergePadding a ↔
    (a.padding.map length = b.padding.map length → a.padding = b.padding) := by
  unfold mergePadding
  rcases a.padding with _ | p
  · rcases b.padding with _ | q <;> simp
  · rcases b.padding with _ | q
    · simp
    · rcases Nat.lt_trichotomy p.length q.length with h | h | h
      · simp [h, h.ne, Nat.lt_asymm h]
      · simp [h]
      · simp [h, h.ne', Nat.lt_asymm h]

theorem merge_entries : (a.merge w b).1.entries.get name =
    (some (mergedList w (a.timestamps name) (b.timestamps name))).filter (· ≠ []) := by
  change ((takeOver w (a.entries.get name) _).map (tidy w)).filter _ = _
  unfold mergedList takeOver timestamps
  cases a.entries.get name with
  | some own => split <;> rfl
  | none => split <;> rfl

theorem merge_timestamps : (a.merge w b).1.timestamps name =
    mergedList w (a.timestamps name) (b.timestamps name) := by
  rw [timestamps, merge_entries, filter_some]
  split
  · rfl
  · simp_all

theorem merge_eq_iff : (a.merge w b).1 = (b.merge w a).1 ↔
    (∀ name, mergedList w (a.timestamps name) (b.timestamps name) =
      mergedList w (b.timestamps name) (a.timestamps name)) ∧ a.mergePadding b = b.mergePadding a := by
  constructor
  · intro h
    refine ⟨fun name => ?_, congrArg padding h⟩
    simpa only [merge_timestamps] using congrArg (timestamps · name) h
  · rintro ⟨hentr, hpadd⟩
    refine congrArg₂ mk (Table.ext fun name => ?_) hpadd
    exact (merge_entries a b name).trans (hentr name ▸ (merge_entries b a name).symm)

/-- Merging two states in either order gives the same state exactly when the lists of each name
merge alike and paddings of one length agree. -/
theorem merge_comm_iff (w : Window) : (a.merge w b).1 = (b.merge w a).1 ↔
    (∀ name, MergeAlike w (a.timestamps name) (b.timestamps name)) ∧
      (a.padding.map length = b.padding.map length → a.padding = b.padding) := by
  simp only [merge_eq_iff, mergePadding_comm_iff, mergedList_comm_iff]

def expiredPing : Ping := ⟨Table.empty.insert "peer" [0], none⟩

/-- A state keeps its expired timestamp, the empty state does not take it over. -/
theorem expired_timestamp_diverges :
    (expiredPing.merge ⟨5, 10⟩ new).1 ≠ (new.merge ⟨5, 10⟩ expiredPing).1 := by
  intro h
  have hlists : [0] = [] := congrArg (timestamps · "peer") h
  cases hlists

end Ping
end Freenet.Apps
