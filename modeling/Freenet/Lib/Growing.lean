import Mathlib.Data.List.Infix

/-! Lists that grow at their ends without end, and the sequence that they are beginnings of. -/
namespace Freenet.Lib
open List
variable {α : Type*}

/-- Each list is the one before with something added at its end. -/
def Growing (lists : Nat → List α) : Prop :=
  ∀ n, ∃ more, more ≠ [] ∧ lists (n + 1) = lists n ++ more

/-- The entries that the lists settle on. -/
def limit (lists : Nat → List α) (fallback : α) (i : Nat) : α := (lists (i + 1))[i]?.getD fallback

namespace Growing
variable {lists : Nat → List α} {m n i : Nat} (h : Growing lists)
include h

theorem isPrefix (hle : m ≤ n) : lists m <+: lists n := by
  induction n, hle using Nat.le_induction with
  | base => exact prefix_rfl
  | succ n _ ih =>
    obtain ⟨more, _, heq⟩ := h n
    rw [heq]
    exact ih.trans (prefix_append _ _)

theorem le_length : n ≤ (lists n).length := by
  induction n with
  | zero => exact Nat.zero_le _
  | succ n ih =>
    obtain ⟨more, hne, heq⟩ := h n
    have hpos := length_pos_iff.mpr hne
    rw [heq, length_append]
    omega

/-- The entries of each list are those that all lists settle on. -/
theorem getElem?_eq (fallback : α) (hi : i < (lists n).length) :
    (lists n)[i]? = some (limit lists fallback i) := by
  have hlength : i < (lists (i + 1)).length := h.le_length
  have hsame : (lists n)[i]? = (lists (i + 1))[i]? := by
    rcases Nat.le_total n (i + 1) with hle | hle
    · obtain ⟨rest, heq⟩ := h.isPrefix hle
      rw [← heq, getElem?_append_left hi]
    · obtain ⟨rest, heq⟩ := h.isPrefix hle
      rw [← heq, getElem?_append_left hlength]
  rw [hsame, limit, getElem?_eq_getElem hlength]
  rfl

end Growing
end Freenet.Lib
