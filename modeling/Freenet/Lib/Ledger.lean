import Mathlib.Algebra.BigOperators.Group.Finset.Basic

/-! Amounts booked under keys, and the sum of those whose keys are selected by a predicate. -/
namespace Freenet.Lib
open Finset

/-- Finitely many amounts, each booked under a key. -/
structure Ledger (K : Type*) where
  keys : Finset K
  amount : K → Nat
  amount_of_notMem : ∀ k ∉ keys, amount k = 0

namespace Ledger
variable {K : Type*} (l : Ledger K)

def empty : Ledger K := ⟨∅, fun _ => 0, fun _ _ => rfl⟩

/-- What a key adds to the sum over the keys that satisfy `p`. -/
def share (p : K → Bool) (k : K) : Nat := if p k then l.amount k else 0

def total (p : K → Bool) : Nat := ∑ k ∈ l.keys, l.share p k

theorem total_empty (p : K → Bool) : (empty : Ledger K).total p = 0 := rfl

theorem total_split (p q : K → Bool) :
    l.total p = l.total (fun k => q k && p k) + l.total (fun k => !q k && p k) := by
  unfold total
  rw [← sum_add_distrib]
  apply sum_congr rfl
  intro k _
  unfold share
  cases hq : q k <;> simp [hq]

variable {l} {p q : K → Bool} {k : K}

theorem share_of_notMem (h : k ∉ l.keys) : l.share p k = 0 := by
  simp [share, l.amount_of_notMem k h]

theorem share_eq_zero_of_imp (h : q k = true → p k = true) (hzero : l.share p k = 0) : l.share q k = 0 := by
  unfold share at hzero ⊢
  split_ifs with hq
  · rw [if_pos (h hq)] at hzero
    exact hzero
  · rfl

variable [DecidableEq K]

/-- Replace what is booked under a key. -/
def book (l : Ledger K) (k : K) (v : Nat) : Ledger K where
  keys := insert k l.keys
  amount := Function.update l.amount k v
  amount_of_notMem := by
    intro k' hk'
    rw [Finset.mem_insert, not_or] at hk'
    rw [Function.update_of_ne hk'.1]
    exact l.amount_of_notMem k' hk'.2

theorem share_book_self (k : K) (v : Nat) : (l.book k v).share p k = if p k then v else 0 := by
  simp [share, book]

theorem share_book_of_ne {k' : K} (h : k' ≠ k) (v : Nat) : (l.book k v).share p k' = l.share p k' := by
  simp [share, book, h]

theorem share_add_sum_erase (k : K) : l.share p k + ∑ k' ∈ l.keys.erase k, l.share p k' = l.total p := by
  by_cases hk : k ∈ l.keys
  · exact add_sum_erase _ _ hk
  · rw [share_of_notMem hk, erase_eq_of_notMem hk, Nat.zero_add]
    rfl

/-- Booking under one key, for predicates that differ at that key at most. -/
theorem total_book (v : Nat) (h : ∀ k' ≠ k, q k' = p k') :
    (l.book k v).total q + l.share p k = l.total p + if q k then v else 0 := by
  have hrest : ∑ k' ∈ (l.book k v).keys.erase k, (l.book k v).share q k' =
      ∑ k' ∈ l.keys.erase k, l.share p k' := by
    have hkeys : (l.book k v).keys.erase k = l.keys.erase k := erase_insert_eq_erase _ _
    rw [hkeys]
    apply sum_congr rfl
    intro k' hk'
    have hne : k' ≠ k := ne_of_mem_erase hk'
    rw [share_book_of_ne hne, share, share, h k' hne]
  have hafter := (l.book k v).share_add_sum_erase (p := q) k
  have hbefore := l.share_add_sum_erase (p := p) k
  rw [share_book_self] at hafter
  omega

end Ledger
end Freenet.Lib
