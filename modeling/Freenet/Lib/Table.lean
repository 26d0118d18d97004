import Mathlib.Data.Option.Basic
import Mathlib.Tactic.Common

/-! Lookup tables, and a table behind a cache that may lose entries. -/
namespace Freenet.Lib
open Option Function

/-- A map from keys to values, as its lookup function. -/
def Table (K V : Type*) := K → Option V

namespace Table
variable {K V : Type*}

def empty : Table K V := fun _ => none

def get (t : Table K V) (k : K) : Option V := t k

/-- Keep the entries that satisfy `p`. -/
def retain (t : Table K V) (p : K → V → Bool) : Table K V := fun k => (t k).filter (p k)

variable (t : Table K V) (k : K) (v : V)

@[simp]
theorem get_empty : (empty : Table K V).get k = none := rfl

@[simp]
theorem get_retain (p : K → V → Bool) (k : K) : (t.retain p).get k = (t.get k).filter (p k) := rfl

@[ext]
theorem ext {t t' : Table K V} (h : ∀ k, t.get k = t'.get k) : t = t' := funext h

variable [DecidableEq K]

def insert (t : Table K V) (k : K) (v : V) : Table K V := Function.update t k (some v)

def remove (t : Table K V) (k : K) : Table K V := Function.update t k none

theorem get_insert (k k' : K) (v : V) : (t.insert k v).get k' = if k' = k then some v else t.get k' := by
  exact update_apply t k (some v) k'

theorem get_remove (k k' : K) : (t.remove k).get k' = if k' = k then none else t.get k' := by
  exact update_apply t k none k'

section
variable {t k v} {k' : K} {w : V}

@[simp]
theorem get_insert_self : (t.insert k v).get k = some v := by
  simp [get_insert]

@[simp]
theorem get_remove_self : (t.remove k).get k = none := by
  simp [get_remove]

theorem get_insert_of_ne (h : k' ≠ k) : (t.insert k v).get k' = t.get k' := by
  simp [get_insert, h]

theorem get_remove_of_ne (h : k' ≠ k) : (t.remove k).get k' = t.get k' := by
  simp [get_remove, h]

theorem insert_of_get (h : t.get k = some v) : t.insert k v = t := by
  rw [insert, ← h]
  exact update_eq_self k t

theorem remove_of_get (h : t.get k = none) : t.remove k = t := by
  rw [remove, ← h]
  exact update_eq_self k t

theorem get_insert_cases (h : (t.insert k v).get k' = some w) :
    k' = k ∧ v = w ∨ k' ≠ k ∧ t.get k' = some w := by
  by_cases hk : k' = k
  · rw [hk, get_insert_self] at h
    exact .inl ⟨hk, some.inj h⟩
  · exact .inr ⟨hk, (get_insert_of_ne hk).symm.trans h⟩

theorem get_of_get_insert (h : (t.insert k v).get k' = some w) (hne : v ≠ w) : k' ≠ k ∧ t.get k' = some w :=
  (get_insert_cases h).resolve_left fun hsame => hne hsame.2

omit [DecidableEq K] in
theorem ne_of_get (h : t.get k = some v) (h' : t.get k' = some w) (hne : w ≠ v) : k' ≠ k := by
  rintro rfl
  rw [h] at h'
  exact hne (some.inj h').symm

theorem get_remove_of_get (hk : t.get k = some v) (h : t.get k' = some w) (hne : w ≠ v) :
    (t.remove k).get k' = some w :=
  (get_remove_of_ne (ne_of_get hk h hne)).trans h

theorem get_insert_of_none (hnone : t.get k = none) (h : t.get k' = some w) :
    (t.insert k v).get k' = some w := by
  have hne : k' ≠ k := by
    rintro rfl
    rw [hnone] at h
    cases h
  exact (get_insert_of_ne hne).trans h

theorem get_of_get_remove (h : (t.remove k).get k' = some v) : k' ≠ k ∧ t.get k' = some v := by
  by_cases hk : k' = k
  · rw [hk, get_remove_self] at h
    cases h
  · exact ⟨hk, (get_remove_of_ne hk).symm.trans h⟩

end

theorem remove_insert : (t.insert k v).remove k = t.remove k := by
  refine ext fun k' => ?_
  rw [get_remove, get_remove, get_insert]
  by_cases h : k' = k
  · simp [h]
  · simp [h]

end Table

/-- A table with a cache in front of it, or without one. -/
structure CachedTable (K V : Type*) where
  cache : Option (Table K V)
  table : Table K V

namespace CachedTable
variable {K V : Type*} (t : CachedTable K V)

def cached (k : K) : Option V := t.cache.bind fun cache => cache.get k

/-- What a reader finds: the entry of the cache, or else that of the table. -/
def visible (k : K) : Option V := (t.cached k).or (t.table.get k)

/-- An entry of the cache is that of the table, if the table has one. -/
def Coherent : Prop := ∀ k v, t.cached k = some v → t.table.get k = some v ∨ t.table.get k = none

/-- Every entry of the cache is that of the table. -/
def Exact : Prop := ∀ k v, t.cached k = some v → t.table.get k = some v

theorem cached_eq_none {t : CachedTable K V} {k : K} (h : ¬ t.cache.isSome) : t.cached k = none := by
  unfold cached
  cases hcache : t.cache with
  | none => rfl
  | some cache => simp [hcache] at h

variable [DecidableEq K]

/-- The cache may have lost the entry by the time it is looked up. -/
def evictIf (evicts : Bool) (k : K) : CachedTable K V :=
  if evicts then { t with cache := t.cache.map fun cache => cache.remove k } else t

def insertCache (k : K) (v : V) : CachedTable K V :=
  { t with cache := t.cache.map fun cache => cache.insert k v }

def insertTable (k : K) (v : V) : CachedTable K V := { t with table := t.table.insert k v }

variable {t} {k k' : K} {v : V} {evicts : Bool}

@[simp]
theorem evictIf_table : (t.evictIf evicts k).table = t.table := by
  unfold evictIf
  split_ifs <;> rfl

@[simp]
theorem insertCache_table : (t.insertCache k v).table = t.table := rfl

@[simp]
theorem insertTable_table : (t.insertTable k v).table = t.table.insert k v := rfl

@[simp]
theorem insertTable_cached : (t.insertTable k v).cached k' = t.cached k' := rfl

theorem cached_of_evictIf (h : (t.evictIf evicts k).cached k' = some v) : t.cached k' = some v := by
  unfold evictIf at h
  split_ifs at h
  · unfold cached at h ⊢
    cases hcache : t.cache with
    | none => simp [hcache] at h
    | some cache =>
      simp only [hcache, map_some, bind_some, Table.get_remove] at h ⊢
      split_ifs at h
      exact h
  · exact h

theorem evictIf_cache_of_none (h : t.cache = none) : (t.evictIf evicts k).cache = none := by
  unfold evictIf
  split_ifs <;> simp [h]

theorem insertCache_cache_of_none (h : t.cache = none) : (t.insertCache k v).cache = none := by
  simp [insertCache, h]

theorem cached_insertCache : (t.insertCache k v).cached k' =
    if k' = k ∧ t.cache.isSome then some v else t.cached k' := by
  unfold cached insertCache
  cases t.cache with
  | none => simp
  | some cache => simp [Table.get_insert]

theorem Coherent.evictIf (h : t.Coherent) : (t.evictIf evicts k).Coherent := by
  intro k' v hcach
  rw [evictIf_table]
  exact h k' v (cached_of_evictIf hcach)

theorem Exact.evictIf (h : t.Exact) : (t.evictIf evicts k).Exact := by
  intro k' v hcach
  rw [evictIf_table]
  exact h k' v (cached_of_evictIf hcach)

/-- After a value reached the cache and the table, an entry of the cache is that value or an older
one, of a key with the entry it had in the table. -/
theorem cached_insert {k' : K} {w : V}
    (hcach : ((t.insertCache k v).insertTable k v).cached k' = some w) :
    ((t.insertCache k v).insertTable k v).table.get k' = some w ∨ t.cached k' = some w ∧
      ((t.insertCache k v).insertTable k v).table.get k' = t.table.get k' := by
  rw [insertTable_cached, cached_insertCache] at hcach
  rw [insertTable_table, Table.get_insert]
  by_cases hk : k' = k
  · rw [if_pos hk]
    split_ifs at hcach with hcache
    · exact .inl hcach
    · rw [cached_eq_none fun hsome => hcache ⟨hk, hsome⟩] at hcach
      cases hcach
  · rw [if_neg hk]
    rw [if_neg fun hand => hk hand.1] at hcach
    exact .inr ⟨hcach, rfl⟩

theorem Exact.insert (h : t.Exact) : ((t.insertCache k v).insertTable k v).Exact := by
  intro k' w hcach
  rcases cached_insert hcach with hget | ⟨hold, hget⟩
  · exact hget
  · exact hget.trans (h k' w hold)

theorem insertCache_of_none (h : t.cache = none) : t.insertCache k v = t := by
  cases t
  cases h
  rfl

theorem Coherent.insert (h : t.Coherent) : ((t.insertCache k v).insertTable k v).Coherent := by
  intro k' w hcach
  rcases cached_insert hcach with hget | ⟨hold, hget⟩
  · exact .inl hget
  · rw [hget]
    exact h k' w hold

/-- A value that reaches the cache alone does no harm where the table has no entry, or without a
cache. -/
theorem Coherent.insertCache (h : t.Coherent) (hk : t.table.get k = none ∨ t.cache = none) :
    (t.insertCache k v).Coherent := by
  intro k' w hcach
  rw [cached_insertCache] at hcach
  split_ifs at hcach with hand
  · obtain ⟨rfl, hcache⟩ := hand
    rcases hk with hnone | hnone
    · exact .inr hnone
    · rw [hnone] at hcache
      cases hcache
  · exact h k' w hcach

@[simp]
theorem visible_insert : ((t.insertCache k v).insertTable k v).visible k = some v := by
  unfold visible
  rw [insertTable_cached, cached_insertCache, insertTable_table, Table.get_insert_self]
  split_ifs with hcache
  · rfl
  · rw [cached_eq_none fun hsome => hcache ⟨rfl, hsome⟩]
    rfl

end CachedTable
end Freenet.Lib
