import Mathlib.Data.List.Basic

/-! A row of numbered slots that are filled with the parts of a list in any order. -/
namespace Freenet.Lib
open List

/-- Slots that hold one part each, or nothing. -/
abbrev Slots (α : Type) := List (Option α)

namespace Slots
variable {α : Type} {slots : Slots α} {parts : List α} {i j : Nat} {a b : α}

def empty (n : Nat) : Slots α := List.replicate n none

def part (slots : Slots α) (i : Nat) : Option α := (slots[i]?).join

def fill (slots : Slots α) (i : Nat) (a : α) : Slots α := slots.set i (some a)

def clear (slots : Slots α) (i : Nat) : Slots α := slots.set i none

@[simp] theorem length_empty (n : Nat) : (empty n : Slots α).length = n :=
  length_replicate

@[simp] theorem length_fill : (slots.fill i a).length = slots.length := length_set

@[simp] theorem length_clear : (slots.clear i).length = slots.length := length_set

@[simp] theorem part_empty (n i : Nat) : (empty n : Slots α).part i = none := by
  unfold part empty
  rw [getElem?_replicate]
  split <;> rfl

theorem part_fill_self (h : i < slots.length) : (slots.fill i a).part i = some a := by
  unfold part fill
  rw [getElem?_set_self h]
  rfl

theorem part_fill_of_ne (h : i ≠ j) : (slots.fill i a).part j = slots.part j := by
  unfold part fill
  rw [getElem?_set_ne h]

theorem part_clear_of_ne (h : i ≠ j) : (slots.clear i).part j = slots.part j := by
  unfold part clear
  rw [getElem?_set_ne h]

theorem part_clear_self : (slots.clear i).part i = none := by
  unfold part clear
  by_cases h : i < slots.length
  · rw [getElem?_set_self h]
    rfl
  · rw [getElem?_eq_none (by rw [length_set]; omega)]
    rfl

theorem length_foldl_clear (js : List Nat) : (js.foldl clear slots).length = slots.length := by
  induction js generalizing slots with
  | nil => rfl
  | cons j js ih => rw [foldl_cons, ih, length_clear]

theorem part_foldl_clear (js : List Nat) :
    (js.foldl clear slots).part i = if i ∈ js then none else slots.part i := by
  induction js generalizing slots with
  | nil => rfl
  | cons j js ih =>
    rw [foldl_cons, ih]
    by_cases hij : j = i
    · simp [hij, part_clear_self]
    · simp [part_clear_of_ne hij, Ne.symm hij]

theorem clear_of_none (h : slots.part i = none) : slots.clear i = slots := by
  refine ext_getElem? fun j => ?_
  unfold clear
  by_cases hij : i = j
  · subst hij
    unfold part at h
    cases hget : slots[i]? with
    | none => rw [getElem?_eq_none (by simpa using hget)]
    | some slot =>
      rw [hget] at h
      have hnone : slot = none := h
      rw [List.getElem?_set_self (List.getElem?_eq_some_iff.mp hget).1, hnone]
  · rw [List.getElem?_set_ne hij]

theorem lt_length_of_part (h : slots.part i = some a) : i < slots.length := by
  by_contra hge
  unfold part at h
  rw [getElem?_eq_none (by omega)] at h
  cases h

@[simp] theorem part_cons_succ (slot : Option α) : Slots.part (slot :: slots) (i + 1) = slots.part i := rfl

/-- Whatever a slot holds is the part with its number. -/
def Of (parts : List α) (slots : Slots α) : Prop :=
  ∀ i a, slots.part i = some a → parts[i]? = some a

theorem Of.empty (parts : List α) (n : Nat) : Of parts (Slots.empty n) := by
  intro i a h
  rw [part_empty] at h
  cases h

theorem Of.fill (h : Of parts slots) (ha : parts[i]? = some a) : Of parts (slots.fill i a) := by
  intro j b hb
  by_cases hij : i = j
  · subst hij
    have hlt : i < slots.length := by
      have := lt_length_of_part hb
      rwa [length_fill] at this
    rw [part_fill_self hlt] at hb
    rw [ha, hb]
  · rw [part_fill_of_ne hij] at hb
    exact h j b hb

theorem Of.clear (h : Of parts slots) : Of parts (slots.clear i) := by
  intro j b hb
  by_cases hij : i = j
  · subst hij
    rw [part_clear_self] at hb
    cases hb
  · rw [part_clear_of_ne hij] at hb
    exact h j b hb

theorem Of.tail {slot : Option α} {p : α} (h : Of (p :: parts) (slot :: slots)) : Of parts slots := by
  intro i a ha
  have := h (i + 1) a (by rwa [part_cons_succ])
  rwa [getElem?_cons_succ] at this

end Slots
end Freenet.Lib
