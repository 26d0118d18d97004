import Mathlib.Tactic.Common

/-! Sets of indices kept as the bits of a word: what was put in is found again. -/
namespace Freenet.Lib.BitFilter
variable {n : Nat}

def setAll (bits : BitVec n) (indices : List Nat) : BitVec n :=
  indices.foldl (fun bits i => bits ||| BitVec.twoPow n i) bits

def testAll (bits : BitVec n) (indices : List Nat) : Bool := indices.all fun i => bits.getLsbD i

theorem getLsbD_setAll (bits : BitVec n) (indices : List Nat) (j : Nat) :
    (setAll bits indices).getLsbD j = true ↔ bits.getLsbD j = true ∨ (j < n ∧ j ∈ indices) := by
  induction indices generalizing bits with
  | nil => simp [setAll]
  | cons i indices ih =>
    have hcons : setAll bits (i :: indices) = setAll (bits ||| BitVec.twoPow n i) indices := rfl
    rw [hcons, ih, BitVec.getLsbD_or, BitVec.getLsbD_twoPow, Bool.or_eq_true, Bool.and_eq_true,
      decide_eq_true_eq, decide_eq_true_eq, List.mem_cons]
    constructor
    · rintro ((hbit | ⟨hi, rfl⟩) | ⟨hj, hmem⟩)
      · exact .inl hbit
      · exact .inr ⟨hi, .inl rfl⟩
      · exact .inr ⟨hj, .inr hmem⟩
    · rintro (hbit | ⟨hj, rfl | hmem⟩)
      · exact .inl (.inl hbit)
      · exact .inl (.inr ⟨hj, rfl⟩)
      · exact .inr ⟨hj, hmem⟩

theorem testAll_setAll {indices : List Nat} (hindic : ∀ i ∈ indices, i < n) (bits : BitVec n) :
    testAll (setAll bits indices) indices = true := by
  refine List.all_eq_true.mpr ?_
  intro i hi
  exact (getLsbD_setAll bits indices i).mpr (.inr ⟨hindic i hi, hi⟩)

theorem testAll_setAll_of_testAll {bits : BitVec n} {indices : List Nat}
    (h : testAll bits indices = true) (others : List Nat) :
    testAll (setAll bits others) indices = true := by
  refine List.all_eq_true.mpr ?_
  intro i hi
  exact (getLsbD_setAll bits others i).mpr (.inl (List.all_eq_true.mp h i hi))

end Freenet.Lib.BitFilter
