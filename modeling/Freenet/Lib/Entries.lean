import Mathlib.Algebra.GroupWithZero.Nat
import Mathlib.Algebra.BigOperators.Group.List.Basic
import Mathlib.Data.List.AList

/-! Association lists as finite maps: sums over their entries, several removals, and lists as
values. -/
namespace Freenet.Lib
open List
variable {K : Type*} {V : Type*}

/-- The sum of a measure over all values of the list. -/
def valueSum (f : V → Nat) (s : AList fun _ : K => V) : Nat := (s.entries.map fun e => f e.2).sum

/-- Keep the entries that satisfy `p`. -/
def retainEntries (p : K → V → Bool) (s : AList fun _ : K => V) : AList fun _ : K => V where
  entries := s.entries.filter fun e => p e.1 e.2
  nodupKeys := s.nodupKeys.sublist filter_sublist

variable {f : V → Nat} {s : AList fun _ : K => V} {k : K} {v : V} [DecidableEq K]

theorem entries_erase : (s.erase k).entries = s.entries.kerase k := rfl

theorem valueSum_erase_of_lookup (h : s.lookup k = some v) :
    valueSum f (s.erase k) + f v = valueSum f s := by
  have hmem : k ∈ s.entries.keys := by
    have hkey : k ∈ s := AList.lookup_isSome.mp (by simp [h])
    exact hkey
  obtain ⟨w, before, after, hbefore, hentr, herase⟩ := exists_of_kerase hmem
  have hlook : s.lookup k = some w := by
    rw [← Option.mem_def, AList.mem_lookup_iff, hentr]
    simp
  rw [h] at hlook
  cases hlook
  unfold valueSum
  rw [entries_erase, herase, hentr]
  simp only [map_append, map_cons, sum_append, sum_cons]
  omega

theorem valueSum_erase_of_none (h : s.lookup k = none) : valueSum f (s.erase k) = valueSum f s := by
  have hmem : k ∉ s.entries.keys := AList.lookup_eq_none.mp h
  unfold valueSum
  rw [entries_erase, kerase_of_notMem_keys hmem]

theorem valueSum_insert : valueSum f (s.insert k v) = f v + valueSum f (s.erase k) := by
  rfl

theorem length_erase_of_lookup (h : s.lookup k = some v) :
    (s.erase k).entries.length + 1 = s.entries.length := by
  have hsum := valueSum_erase_of_lookup (f := fun _ => 1) h
  simpa [valueSum] using hsum

theorem length_erase_of_none (h : s.lookup k = none) : (s.erase k).entries.length = s.entries.length := by
  have hsum := valueSum_erase_of_none (f := fun _ => 1) h
  simpa [valueSum] using hsum

theorem length_insert : (s.insert k v).entries.length = (s.erase k).entries.length + 1 := by
  rfl

variable {k' : K}

theorem lookup_insert : (s.insert k v).lookup k' = if k' = k then some v else s.lookup k' := by
  split_ifs with hk
  · rw [hk, AList.lookup_insert]
  · rw [AList.lookup_insert_ne hk]

theorem lookup_erase : (s.erase k).lookup k' = if k' = k then none else s.lookup k' := by
  split_ifs with hk
  · rw [hk, AList.lookup_erase]
  · rw [AList.lookup_erase_ne hk]

theorem isSome_lookup_insert :
    ((s.insert k v).lookup k').isSome = (decide (k' = k) || (s.lookup k').isSome) := by
  by_cases hk : k' = k
  · subst hk
    simp
  · simp [AList.lookup_insert_ne hk, hk]

theorem isSome_lookup_erase :
    ((s.erase k).lookup k').isSome = (decide (k' ≠ k) && (s.lookup k').isSome) := by
  by_cases hk : k' = k
  · subst hk
    simp
  · simp [AList.lookup_erase_ne hk, hk]

theorem lookup_retainEntries {p : K → V → Bool} :
    (retainEntries p s).lookup k = (s.lookup k).filter (p k) := by
  refine Option.ext fun v => ?_
  rw [Option.filter_eq_some_iff, ← Option.mem_def, ← Option.mem_def,
    AList.mem_lookup_iff, AList.mem_lookup_iff]
  exact mem_filter

theorem lookup_foldl_erase {keys : List K} :
    (keys.foldl (fun s k => s.erase k) s).lookup k = if k ∈ keys then none else s.lookup k := by
  induction keys generalizing s with
  | nil => simp
  | cons k' keys ih =>
    rw [foldl_cons, ih]
    by_cases hk : k = k'
    · rw [hk]
      simp
    · simp [hk]

open AList

section Lists
variable {α β : Type*}

/-- Remove the element at a position by moving the last one there. -/
def swapRemove (l : List α) (i : Nat) : List α :=
  match l.getLast? with
  | none => []
  | some last => (l.set i last).dropLast

def swapRemoveFirst (p : α → Bool) (l : List α) : List α :=
  match l.findIdx? p with
  | none => l
  | some i => swapRemove l i

/-- Change the first element that satisfies `p`. -/
def modifyFirst (p : α → Bool) (f : α → α) : List α → List α
  | [] => []
  | x :: l => if p x then f x :: l else x :: modifyFirst p f l

variable (p : α → Bool) {l : List α} (f : α → α)

theorem swapRemove_perm {i : Nat} (h : i < l.length) : (swapRemove l i).Perm (l.eraseIdx i) := by
  obtain rfl | ⟨start, last, rfl⟩ := l.eq_nil_or_concat
  · cases h
  · rw [concat_eq_append] at h ⊢
    unfold swapRemove
    rw [getLast?_concat]
    dsimp only
    by_cases hi : i < start.length
    · rw [set_append_left i last hi, dropLast_concat, eraseIdx_append_of_lt_length hi]
      exact (set_perm_cons_eraseIdx hi last).trans (perm_append_singleton last _).symm
    · rw [length_append, length_singleton] at h
      have hlast : i = start.length := by omega
      subst hlast
      rw [eraseIdx_append_of_length_le (Nat.le_refl _)]
      simp

theorem swapRemoveFirst_perm (l : List α) : (swapRemoveFirst p l).Perm (l.eraseP p) := by
  unfold swapRemoveFirst
  rw [eraseP_eq_eraseIdx]
  cases hidx : l.findIdx? p with
  | none => exact Perm.refl _
  | some i => exact swapRemove_perm (findIdx?_eq_some_iff_findIdx_eq.mp hidx).1

theorem swapRemoveFirst_of_any_eq_false {p : α → Bool} (h : l.any p = false) : swapRemoveFirst p l = l := by
  have hidx : l.findIdx? p = none := by
    rw [findIdx?_eq_none_iff]
    intro x hx
    have hx' := any_eq_false.mp h x hx
    simpa using hx'
  unfold swapRemoveFirst
  rw [hidx]

theorem length_swapRemoveFirst (l : List α) :
    (swapRemoveFirst p l).length + (if l.any p then 1 else 0) = l.length := by
  rw [(swapRemoveFirst_perm p l).length_eq, length_eraseP]
  split_ifs with hany
  · obtain ⟨x, hx, -⟩ := any_eq_true.mp hany
    have hpos := length_pos_of_mem hx
    omega
  · rfl

theorem modifyFirst_eq {p : α → Bool} (h : ∃ x ∈ l, p x = true) :
    ∃ before y after, l = before ++ y :: after ∧ p y = true ∧ (∀ x ∈ before, p x = false) ∧
      modifyFirst p f l = before ++ f y :: after := by
  induction l with
  | nil => simp at h
  | cons z l ih =>
    by_cases hz : p z = true
    · exact ⟨[], z, l, rfl, hz, by simp, by simp [modifyFirst, hz]⟩
    · obtain ⟨before, y, after, rfl, hy, hbefore, hmodif⟩ := ih (by grind)
      exact ⟨z :: before, y, after, rfl, hy, by grind, by simp [modifyFirst, hz, hmodif]⟩

section Names
variable {name : α → β}

theorem nodup_swapRemoveFirst (p : α → Bool) (h : (l.map name).Nodup) :
    ((swapRemoveFirst p l).map name).Nodup := by
  rw [((swapRemoveFirst_perm p l).map name).nodup_iff]
  exact h.sublist (eraseP_sublist.map name)

variable [DecidableEq β] (h : (l.map name).Nodup)
include h

theorem mem_swapRemoveFirst {b : β} {x : α} :
    x ∈ swapRemoveFirst (fun y => decide (name y = b)) l ↔ x ∈ l ∧ name x ≠ b := by
  rw [(swapRemoveFirst_perm _ l).mem_iff]
  induction l with
  | nil => simp
  | cons y l ih =>
    rw [map_cons, nodup_cons] at h
    rw [eraseP_cons]
    by_cases hy : name y = b
    · have hrest : ∀ z ∈ l, name z ≠ b := by
        intro z hz hzb
        refine h.1 (mem_map.mpr ⟨z, hz, ?_⟩)
        rw [hzb, hy]
      simp only [hy, mem_cons]
      constructor
      · intro hx
        exact ⟨.inr hx, hrest x hx⟩
      · rintro ⟨rfl | hx, hne⟩
        · exact absurd hy hne
        · exact hx
    · simp only [hy, decide_false, cond_false, mem_cons, ih h.2]
      constructor
      · rintro (rfl | ⟨hx, hne⟩)
        · exact ⟨.inl rfl, hy⟩
        · exact ⟨.inr hx, hne⟩
      · rintro ⟨rfl | hx, hne⟩
        · exact .inl rfl
        · exact .inr ⟨hx, hne⟩

/-- Where names are unique, a change of the first element with a name replaces the only one. -/
theorem mem_modifyFirst {b : β} {x : α} {f : α → α} (hmem : ∃ y ∈ l, name y = b) :
    x ∈ modifyFirst (fun y => decide (name y = b)) f l ↔
      (x ∈ l ∧ name x ≠ b) ∨ ∃ y ∈ l, name y = b ∧ x = f y := by
  obtain ⟨before, y, after, rfl, hy, hbefore, hmodif⟩ := modifyFirst_eq f (p := fun y => decide (name y = b))
    (by simpa using hmem)
  grind

theorem nodup_modifyFirst_iff {b b' : β} {f : α → α} (hmem : ∃ y ∈ l, name y = b)
    (hne : b' ≠ b) (hf : ∀ x, name (f x) = b') :
    ((modifyFirst (fun y => decide (name y = b)) f l).map name).Nodup ↔ ∀ x ∈ l, name x ≠ b' := by
  obtain ⟨before, y, after, rfl, hy, hbefore, hmodif⟩ := modifyFirst_eq f (p := fun y => decide (name y = b))
    (by simpa using hmem)
  grind

end Names

theorem length_modifyFirst (l : List α) : (modifyFirst p f l).length = l.length := by
  induction l with
  | nil => rfl
  | cons y l ih =>
    unfold modifyFirst
    split_ifs
    · rfl
    · rw [length_cons, length_cons, ih]

end Lists

section Buckets
variable {K α : Type*}

abbrev Buckets (K α : Type*) := AList fun _ : K => List α

namespace Buckets

def size (s : Buckets K α) : Nat := valueSum length s

/-- All elements, with their keys. -/
def elements (s : Buckets K α) : List (K × α) := s.entries.flatMap fun e => e.2.map fun x => (e.1, x)

variable [DecidableEq K] (s : Buckets K α) (k : K)

def bucket : List α := (AList.lookup k s).getD []

/-- Replace a bucket; an empty one is dropped. -/
def store (l : List α) : Buckets K α := if l.isEmpty then AList.erase k s else AList.insert k l s

def push (x : α) : Buckets K α := AList.insert k (bucket s k ++ [x]) s

def takeFrom (p : α → Bool) : Buckets K α :=
  match AList.lookup k s with
  | none => s
  | some l => store s k (swapRemoveFirst p l)

variable {s k} {k' : K} {l : List α} {x : α}

theorem bucket_insert : bucket (insert k l s) k' = if k' = k then l else bucket s k' := by
  unfold bucket
  split_ifs with h
  · rw [h, AList.lookup_insert]
    rfl
  · rw [AList.lookup_insert_ne h]

theorem bucket_store : bucket (store s k l) k' = if k' = k then l else bucket s k' := by
  unfold store
  split_ifs with hempty h h
  · unfold bucket
    rw [h, AList.lookup_erase]
    exact (isEmpty_iff.mp hempty).symm
  · unfold bucket
    rw [lookup_erase_ne h]
  · rw [bucket_insert, if_pos h]
  · rw [bucket_insert, if_neg h]

theorem bucket_push :
    bucket (push s k x) k' = if k' = k then bucket s k ++ [x] else bucket s k' := bucket_insert

theorem mem_bucket_push {y : α} : y ∈ bucket (push s k x) k' ↔ y ∈ bucket s k' ∨ k' = k ∧ y = x := by
  rw [bucket_push]
  split_ifs with h
  · subst h
    simp
  · simp [h]

variable {β : Type*} {name : α → β} {p : α → Bool}

theorem nodup_push (h : ((bucket s k').map name).Nodup) (hfresh : ∀ y ∈ bucket s k, name y ≠ name x) :
    ((bucket (push s k x) k').map name).Nodup := by
  rw [bucket_push]
  split_ifs with hk
  · subst hk
    rw [map_append, map_singleton, nodup_append]
    refine ⟨h, nodup_singleton _, ?_⟩
    intro b hb b' hb' hbb'
    rw [mem_singleton] at hb'
    obtain ⟨y, hy, rfl⟩ := mem_map.mp hb
    exact hfresh y hy (hbb'.trans hb')
  · exact h

theorem bucket_of_lookup (h : lookup k s = some l) : bucket s k = l := by
  rw [bucket, h, Option.getD_some]

theorem bucket_takeFrom :
    bucket (takeFrom s k p) k' = if k' = k then swapRemoveFirst p (bucket s k) else bucket s k' := by
  unfold takeFrom
  cases hlook : lookup k s with
  | none =>
    have hnone : bucket s k = [] := by rw [bucket, hlook, Option.getD_none]
    split_ifs with hk
    · rw [hk, hnone]
      rfl
    · rfl
  | some l =>
    rw [bucket_of_lookup hlook]
    exact bucket_store

theorem size_erase : size (erase k s) + (bucket s k).length = size s := by
  unfold bucket
  cases hlook : lookup k s with
  | none => exact valueSum_erase_of_none hlook
  | some l => exact valueSum_erase_of_lookup hlook

theorem size_insert : size (insert k l s) + (bucket s k).length = size s + l.length := by
  have herase := size_erase (s := s) (k := k)
  have hinsert : size (insert k l s) = l.length + size (erase k s) := valueSum_insert
  omega

theorem size_store : size (store s k l) + (bucket s k).length = size s + l.length := by
  unfold store
  split_ifs with hempty
  · rw [isEmpty_iff.mp hempty]
    exact size_erase
  · exact size_insert

theorem size_push : size (push s k x) = size s + 1 := by
  have hinsert := size_insert (s := s) (k := k) (l := bucket s k ++ [x])
  rw [length_append, length_singleton] at hinsert
  unfold push
  omega

theorem size_takeFrom : size (takeFrom s k p) + (if (bucket s k).any p then 1 else 0) = size s := by
  unfold takeFrom
  cases hlook : lookup k s with
  | none =>
    rw [bucket, hlook]
    rfl
  | some l =>
    have hstore := size_store (s := s) (k := k) (l := swapRemoveFirst p l)
    have hlength := length_swapRemoveFirst p l
    rw [bucket_of_lookup hlook] at hstore ⊢
    dsimp only
    omega

theorem mem_elements : (k, x) ∈ elements s ↔ x ∈ bucket s k := by
  unfold elements
  rw [mem_flatMap]
  constructor
  · rintro ⟨⟨k', l⟩, hentry, hmem⟩
    obtain ⟨y, hy, hpair⟩ := mem_map.mp hmem
    cases hpair
    rwa [bucket_of_lookup (mem_lookup_iff.mpr hentry)]
  · intro hx
    cases hlook : lookup k s with
    | none =>
      rw [bucket, hlook] at hx
      cases hx
    | some l =>
      rw [bucket_of_lookup hlook] at hx
      exact ⟨⟨k, l⟩, mem_lookup_iff.mp hlook, mem_map_of_mem hx⟩

/-- Names are unique overall if they are unique in each bucket and tell the bucket. -/
theorem nodup_elements (hnodup : ∀ k, ((bucket s k).map name).Nodup)
    (hname : ∀ k k' x x', x ∈ bucket s k → x' ∈ bucket s k' → name x = name x' → k = k') :
    ((elements s).map fun e => name e.2).Nodup := by
  have hbuck (e : Sigma fun _ : K => List α) (he : e ∈ s.entries) : bucket s e.1 = e.2 :=
    bucket_of_lookup (mem_lookup_iff.mpr he)
  unfold elements
  simp only [map_flatMap, map_map]
  rw [nodup_flatMap]
  constructor
  · intro e he
    rw [← hbuck e he]
    exact hnodup e.1
  · refine (nodupKeys_iff_pairwise.mp s.nodupKeys).imp_of_mem ?_
    intro e e' he he' hne b hb hb'
    obtain ⟨x, hx, hxb⟩ := mem_map.mp hb
    obtain ⟨x', hx', hxb'⟩ := mem_map.mp hb'
    rw [← hbuck e he] at hx
    rw [← hbuck e' he'] at hx'
    exact hne (hname e.1 e'.1 x x' hx hx' (hxb.trans hxb'.symm))

theorem nodup_bucket (h : ((elements s).map fun e => name e.2).Nodup) (k : K) :
    ((bucket s k).map name).Nodup := by
  cases hlook : lookup k s with
  | none =>
    rw [bucket, hlook]
    exact nodup_nil
  | some l =>
    unfold elements at h
    simp only [map_flatMap, map_map] at h
    rw [bucket_of_lookup hlook]
    exact (nodup_flatMap.mp h).1 ⟨k, l⟩ (mem_lookup_iff.mp hlook)

end Buckets
end Buckets
end Freenet.Lib
