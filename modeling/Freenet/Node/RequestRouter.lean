import Freenet.Contract.ContractHandling
import Freenet.Lib.Machine
import Freenet.Node.OpManager
import Mathlib.Data.Finmap

/-! The request router, one map operation at a time, and what its calls rely on at each stage. -/
namespace Freenet.Node
open Lib

section Router
abbrev ClientId := Nat

abbrev RequestId := Nat

structure RequestRouter (R : Type) where
  resourceToTransaction : Table R Transaction
  transactionToResource : Table Transaction R
  transactionWaiters : Table Transaction (List (ClientId × RequestId))

/-- The router with the entries of `resourceToTransaction` that calls hold locked, the resource and
the call each transaction was created for, which call took its reverse mapping out, what
`route_request` returned, and the transactions that were completed. -/
structure Routing (R : Type) where
  router : RequestRouter R
  locks : Table R Nat
  created : Table Transaction (R × Nat)
  removers : Table Transaction Nat
  answers : List (R × Transaction × Bool)
  completed : List Transaction

/-- What a call has yet to do. Up to `vacant`, a call of `route_request` holds the entry of its
resource locked; the lock of a vacant entry is given up by inserting into it. -/
inductive RouterStage (R : Type) where
  | idle
  | occupied (r : R) (waiter : ClientId × RequestId) (existing : Transaction)
  | reusing (r : R) (waiter : ClientId × RequestId) (existing : Transaction)
  | overwriting (r : R) (waiter : ClientId × RequestId)
  | overwritten (r : R) (waiter : ClientId × RequestId) (tx : Transaction)
  | relinked (r : R) (waiter : ClientId × RequestId) (tx : Transaction)
  | vacant (r : R) (waiter : ClientId × RequestId)
  | inserted (r : R) (waiter : ClientId × RequestId) (tx : Transaction)
  | linked (r : R) (waiter : ClientId × RequestId) (tx : Transaction)
  | removing (tx : Transaction) (r : R)
  | forgetting (tx : Transaction)

/-- A call begins, with its first operation on a map, or goes on; a transaction it creates is
`fresh`. -/
inductive RouterAction (R : Type) where
  | routeRequest (r : R) (waiter : ClientId × RequestId)
  | completeOperation (tx : Transaction)
  | advance (fresh : Transaction)

variable {R : Type} [DecidableEq R]

namespace Routing

def new : Routing R := ⟨⟨.empty, .empty, .empty⟩, .empty, .empty, .empty, [], []⟩

variable (s : Routing R)

/-- The transaction was returned to a request for the resource. -/
def HandedOut (r : R) (tx : Transaction) : Prop := ∃ started, (r, tx, started) ∈ s.answers

/-- An id that was not used before. -/
def Fresh (tx : Transaction) : Prop := s.created.get tx = none ∧ tx ∉ s.completed

instance (tx : Transaction) : Decidable (s.Fresh tx) :=
  decidable_of_iff ((s.created.get tx).isNone = true ∧ tx ∉ s.completed)
    (and_congr_left' Option.isNone_iff_eq_none)

def lock (r : R) (i : Nat) : Routing R := { s with locks := s.locks.insert r i }

def unlock (r : R) : Routing R := { s with locks := s.locks.remove r }

def enter (r : R) (tx : Transaction) (i : Nat) : Routing R :=
  { s with
    router := { s.router with resourceToTransaction := s.router.resourceToTransaction.insert r tx }
    created := s.created.insert tx (r, i) }

def link (tx : Transaction) (r : R) : Routing R :=
  { s with router := { s.router with
      transactionToResource := s.router.transactionToResource.insert tx r } }

def setWaiters (tx : Transaction) (waiters : List (ClientId × RequestId)) : Routing R :=
  { s with router := { s.router with
      transactionWaiters := s.router.transactionWaiters.insert tx waiters } }

def pushWaiter (tx : Transaction) (waiter : ClientId × RequestId) : Routing R :=
  s.setWaiters tx ((s.router.transactionWaiters.get tx).getD [] ++ [waiter])

def answer (r : R) (tx : Transaction) (started : Bool) : Routing R :=
  { s with answers := (r, tx, started) :: s.answers }

def complete (tx : Transaction) : Routing R := { s with completed := tx :: s.completed }

/-- Call `i` takes the reverse mapping of a transaction out. -/
def unlink (tx : Transaction) (i : Nat) : Routing R :=
  { s with
    router := { s.router with transactionToResource := s.router.transactionToResource.remove tx }
    removers := s.removers.insert tx i }

def removeEntry (r : R) : Routing R :=
  { s with router := { s.router with
      resourceToTransaction := s.router.resourceToTransaction.remove r } }

def removeWaiters (tx : Transaction) : Routing R :=
  { s with router := { s.router with transactionWaiters := s.router.transactionWaiters.remove tx } }

/-- A transaction that a call has created is known to others once `route_request` has returned
it. -/
def isKnown (tx : Transaction) : Bool :=
  s.answers.any (fun a => a.2.1 = tx) || (s.created.get tx).isNone

end Routing

/-- The next operation of call `i` on a map. An entry that is locked is not accessed by other
calls. -/
def RouterStage.act (i : Nat) (a : RouterAction R) (s : Routing R) :
    RouterStage R → Option (Routing R × RouterStage R)
  | .idle =>
    match a with
    | .routeRequest r waiter =>
      if (s.locks.get r).isSome then none
      else match s.router.resourceToTransaction.get r with
        | some existing => some (s.lock r i, .occupied r waiter existing)
        | none => some (s.lock r i, .vacant r waiter)
    | .completeOperation tx =>
      if s.isKnown tx then
        match s.router.transactionToResource.get tx with
        | some r => some ((s.complete tx).unlink tx i, .removing tx r)
        | none => some (s.complete tx, .forgetting tx)
      else none
    | .advance _ => none
  | stage =>
    match a with
    | .routeRequest _ _ | .completeOperation _ => none
    | .advance fresh =>
      match stage with
      | .idle => none
      | .occupied r waiter existing =>
        -- without its reverse mapping the transaction counts as completed
        if (s.router.transactionToResource.get existing).isSome then some (s, .reusing r waiter existing)
        else some (s, .overwriting r waiter)
      | .reusing r waiter existing =>
        some (((s.pushWaiter existing waiter).unlock r).answer r existing false, .idle)
      | .overwriting r waiter =>
        if s.Fresh fresh then some (s.enter r fresh i, .overwritten r waiter fresh) else none
      | .overwritten r waiter tx => some (s.link tx r, .relinked r waiter tx)
      | .relinked r waiter tx => some (((s.setWaiters tx [waiter]).unlock r).answer r tx true, .idle)
      | .vacant r waiter =>
        if s.Fresh fresh then some ((s.enter r fresh i).unlock r, .inserted r waiter fresh) else none
      | .inserted r waiter tx => some (s.link tx r, .linked r waiter tx)
      | .linked r waiter tx => some ((s.setWaiters tx [waiter]).answer r tx true, .idle)
      | .removing tx r =>
        if (s.locks.get r).isSome then none else some (s.removeEntry r, .forgetting tx)
      | .forgetting tx => some (s.removeWaiters tx, .idle)

/-- Calls of `route_request` and `complete_operation`, any number of them side by side. -/
def routing (R : Type) [DecidableEq R] : Machine (Calls (Routing R) (RouterStage R))
    (Nat × RouterAction R) where
  init c := c = ⟨.new, fun _ => .idle⟩
  step := Calls.step RouterStage.act

open Table
variable {R : Type}

namespace Routing

def entry (s : Routing R) (r : R) : Option Transaction := s.router.resourceToTransaction.get r

def reverse (s : Routing R) (tx : Transaction) : Option R := s.router.transactionToResource.get tx

/-- How the maps agree with each other, and with what was handed out. -/
structure Consistent (s : Routing R) : Prop where
  linked : ∀ {r tx}, s.reverse tx = some r → s.entry r = some tx
  created : ∀ {r tx}, s.entry r = some tx → ∃ i, s.created.get tx = some (r, i)
  entered : ∀ {r tx i}, s.created.get tx = some (r, i) → tx ∉ s.completed → s.entry r = some tx
  handedOut : ∀ {r tx}, s.HandedOut r tx →
    (∃ i, s.created.get tx = some (r, i)) ∧ (tx ∉ s.completed → s.reverse tx = some r)
  removers : ∀ {tx i}, s.removers.get tx = some i → tx ∈ s.completed ∧ s.reverse tx = none

theorem Consistent.new : (Routing.new : Routing R).Consistent where
  linked h := by cases h
  created h := by cases h
  entered h := by cases h
  handedOut := by
    rintro r tx ⟨started, h⟩
    cases h
  removers h := by cases h

/-- What call `j` may rely on is left alone between two states. -/
structure Spares (j : Nat) (s s' : Routing R) : Prop where
  locks : ∀ {r}, s.locks.get r = some j → s'.locks.get r = some j
  entry_locked : ∀ {r}, s.locks.get r = some j → s'.entry r = s.entry r
  entry_live : ∀ {r tx}, s.entry r = some tx → tx ∉ s'.completed → s'.entry r = some tx
  entry_removing : ∀ {r tx}, s.entry r = some tx → s.removers.get tx = some j → s'.entry r = some tx
  reverse_live : ∀ {r tx}, s.reverse tx = some r → tx ∉ s'.completed → s'.reverse tx = some r
  reverse_none : ∀ {tx}, s.reverse tx = none →
    ((∃ r, s.created.get tx = some (r, j)) ∨ tx ∈ s.completed) → s'.reverse tx = none
  created : ∀ {tx x}, s.created.get tx = some x → s'.created.get tx = some x
  removers : ∀ {tx}, s.removers.get tx = some j → s'.removers.get tx = some j
  completed : ∀ {tx}, tx ∈ s.completed → tx ∈ s'.completed
  secret : ∀ {r tx}, s.created.get tx = some (r, j) → s.reverse tx = none → tx ∉ s.completed →
    (∀ r', ¬ s.HandedOut r' tx) → tx ∉ s'.completed ∧ ∀ r', ¬ s'.HandedOut r' tx

theorem Spares.refl {j : Nat} (s : Routing R) : s.Spares j s :=
  ⟨id, fun _ => rfl, fun h _ => h, fun h _ => h, fun h _ => h, fun h _ => h, id, id, id,
    fun _ _ hlive hsecr => ⟨hlive, hsecr⟩⟩

theorem Spares.trans {j : Nat} {s₁ s₂ s₃ : Routing R} (h₁₂ : s₁.Spares j s₂) (h₂₃ : s₂.Spares j s₃) :
    s₁.Spares j s₃ where
  locks h := h₂₃.locks (h₁₂.locks h)
  entry_locked h := (h₂₃.entry_locked (h₁₂.locks h)).trans (h₁₂.entry_locked h)
  entry_live h hlive := h₂₃.entry_live (h₁₂.entry_live h fun hin => hlive (h₂₃.completed hin)) hlive
  entry_removing h hremr := h₂₃.entry_removing (h₁₂.entry_removing h hremr) (h₁₂.removers hremr)
  reverse_live h hlive := h₂₃.reverse_live (h₁₂.reverse_live h fun hin => hlive (h₂₃.completed hin)) hlive
  reverse_none h hor := h₂₃.reverse_none (h₁₂.reverse_none h hor)
    (hor.imp (fun ⟨r, hr⟩ => ⟨r, h₁₂.created hr⟩) h₁₂.completed)
  created h := h₂₃.created (h₁₂.created h)
  removers h := h₂₃.removers (h₁₂.removers h)
  completed h := h₂₃.completed (h₁₂.completed h)
  secret hcreat hnone hlive hsecr := by
    obtain ⟨hlive₂, hsecr₂⟩ := h₁₂.secret hcreat hnone hlive hsecr
    exact h₂₃.secret (h₁₂.created hcreat) (h₁₂.reverse_none hnone (.inl ⟨_, hcreat⟩)) hlive₂ hsecr₂

end Routing

/-- What call `i` relies on at a stage. A call does not come to overwrite an entry here. -/
def RouterStage.Assertion (i : Nat) (s : Routing R) : RouterStage R → Prop
  | .idle | .forgetting _ => True
  | .occupied r _ existing => s.locks.get r = some i ∧ s.entry r = some existing
  | .reusing r _ existing => s.locks.get r = some i ∧ s.entry r = some existing ∧
      (existing ∉ s.completed → s.reverse existing = some r)
  | .overwriting _ _ | .overwritten _ _ _ | .relinked _ _ _ => False
  | .vacant r _ => s.locks.get r = some i ∧ s.entry r = none
  | .inserted r _ tx => s.entry r = some tx ∧ s.reverse tx = none ∧ tx ∉ s.completed ∧
      s.created.get tx = some (r, i) ∧ ∀ r', ¬ s.HandedOut r' tx
  | .linked r _ tx => (∃ j, s.created.get tx = some (r, j)) ∧ (tx ∉ s.completed → s.reverse tx = some r)
  | .removing tx r =>
    s.entry r = some tx ∧ s.reverse tx = none ∧ tx ∈ s.completed ∧ s.removers.get tx = some i

theorem RouterStage.Assertion.mono {j : Nat} {s s' : Routing R} {stage : RouterStage R}
    (h : s.Spares j s') (hstage : stage.Assertion j s) : stage.Assertion j s' := by
  cases stage with
  | idle => trivial
  | forgetting tx => trivial
  | overwriting r waiter | overwritten r waiter tx | relinked r waiter tx => exact hstage
  | occupied r waiter existing | vacant r waiter =>
    obtain ⟨hlock, hentry⟩ := hstage
    exact ⟨h.locks hlock, (h.entry_locked hlock).trans hentry⟩
  | reusing r waiter existing =>
    obtain ⟨hlock, hentry, hrev⟩ := hstage
    exact ⟨h.locks hlock, (h.entry_locked hlock).trans hentry,
      fun hlive => h.reverse_live (hrev fun hin => hlive (h.completed hin)) hlive⟩
  | inserted r waiter tx =>
    obtain ⟨hentry, hrev, hlive, hcreat, hsecr⟩ := hstage
    obtain ⟨hlive', hsecr'⟩ := h.secret hcreat hrev hlive hsecr
    exact ⟨h.entry_live hentry hlive', h.reverse_none hrev (.inl ⟨r, hcreat⟩),
      hlive', h.created hcreat, hsecr'⟩
  | linked r waiter tx =>
    obtain ⟨⟨k, hcreat⟩, hrev⟩ := hstage
    exact ⟨⟨k, h.created hcreat⟩, fun hlive => h.reverse_live
      (hrev fun hin => hlive (h.completed hin)) hlive⟩
  | removing tx r =>
    obtain ⟨hentry, hrev, hcompl, hremr⟩ := hstage
    exact ⟨h.entry_removing hentry hremr, h.reverse_none hrev (.inr hcompl),
      h.completed hcompl, h.removers hremr⟩

namespace Routing
variable {s : Routing R} {i j : Nat} {r : R} {tx : Transaction}

theorem spares_of_waiters {waiters : Table Transaction (List (ClientId × RequestId))} :
    s.Spares j { s with router := { s.router with transactionWaiters := waiters } } :=
  { Spares.refl s with }

theorem spares_link (hcreat : s.created.get tx = some (r, i)) (hj : j ≠ i) (hlive : tx ∉ s.completed)
    (hnone : s.reverse tx = none) : s.Spares j (s.link tx r) :=
  { Spares.refl s with
    reverse_live := fun h _ => get_insert_of_none hnone h
    reverse_none := by
      intro tx' h hor
      have hne : tx' ≠ tx := by
        rintro rfl
        rcases hor with ⟨r', hcreat'⟩ | hcompl
        · rw [hcreat] at hcreat'
          cases hcreat'
          exact hj rfl
        · exact hlive hcompl
      exact (get_insert_of_ne hne).trans h }

theorem spares_answer {started : Bool} (hknown : tx ∉ s.completed → ∃ r', s.reverse tx = some r') :
    s.Spares j (s.answer r tx started) :=
  { Spares.refl s with
    secret := by
      intro r₁ tx' _ hnone hlive hsecr
      refine ⟨hlive, ?_⟩
      rintro r' ⟨started', hin⟩
      rcases List.mem_cons.mp hin with heq | hin
      · cases heq
        obtain ⟨r₂, hr₂⟩ := hknown hlive
        rw [hnone] at hr₂
        cases hr₂
      · exact hsecr r' ⟨started', hin⟩ }

theorem isKnown_iff : s.isKnown tx = true ↔ (∃ r, s.HandedOut r tx) ∨ s.created.get tx = none := by
  simp [isKnown, HandedOut, List.any_eq_true, Option.isNone_iff_eq_none]

theorem spares_complete (hknown : s.isKnown tx = true) : s.Spares j (s.complete tx) :=
  { Spares.refl s with
    entry_live := fun h _ => h
    reverse_live := fun h _ => h
    completed := fun h => List.mem_cons_of_mem tx h
    secret := by
      intro r₁ tx' hcreat _ hlive hsecr
      refine ⟨?_, hsecr⟩
      intro hin
      rcases List.mem_cons.mp hin with rfl | hin
      · rcases isKnown_iff.mp hknown with ⟨r', hout⟩ | hnew
        · exact hsecr r' hout
        · rw [hcreat] at hnew
          cases hnew
      · exact hlive hin }

theorem spares_unlink (hcompl : tx ∈ s.completed) (hremov : s.removers.get tx = none) :
    s.Spares j (s.unlink tx i) :=
  { Spares.refl s with
    reverse_live := by
      intro r' tx' h hlive
      have hne : tx' ≠ tx := by
        rintro rfl
        exact hlive hcompl
      exact (get_remove_of_ne hne).trans h
    reverse_none := by
      intro tx' h _
      show (s.router.transactionToResource.remove tx).get tx' = none
      rw [get_remove, show s.router.transactionToResource.get tx' = none from h, ite_self]
    entry_removing := fun h _ => h
    removers := fun h => get_insert_of_none hremov h }

variable [DecidableEq R]

theorem spares_lock (hfree : s.locks.get r = none) : s.Spares j (s.lock r i) :=
  { Spares.refl s with
    locks := fun h => get_insert_of_none hfree h }

theorem spares_unlock (hlock : s.locks.get r = some i) (hj : j ≠ i) : s.Spares j (s.unlock r) :=
  { Spares.refl s with
    locks := fun h => get_remove_of_get hlock h hj }

theorem spares_enter (hlock : s.locks.get r = some i) (hj : j ≠ i) (hnone : s.entry r = none)
    (hfresh : s.Fresh tx) : s.Spares j (s.enter r tx i) := by
  exact { Spares.refl s with
    entry_locked := fun h => get_insert_of_ne (ne_of_get hlock h hj)
    entry_live := fun h _ => get_insert_of_none hnone h
    entry_removing := fun h _ => get_insert_of_none hnone h
    reverse_none := fun h _ => h
    created := fun h => get_insert_of_none hfresh.1 h
    secret := fun _ _ hlive hsecr => ⟨hlive, hsecr⟩ }

theorem spares_removeEntry (hfree : s.locks.get r = none) (hentry : s.entry r = some tx)
    (hcompl : tx ∈ s.completed) (hremr : s.removers.get tx = some i) (hj : j ≠ i) :
    s.Spares j (s.removeEntry r) :=
  { Spares.refl s with
    entry_locked := by
      intro r' h
      have hne : r' ≠ r := by
        rintro rfl
        rw [hfree] at h
        cases h
      exact get_remove_of_ne hne
    entry_live := by
      intro r' tx' h hlive
      have hne : tx' ≠ tx := fun hsame => hlive (hsame ▸ hcompl)
      exact get_remove_of_get hentry h hne
    entry_removing := by
      intro r' tx' h hremr'
      exact get_remove_of_get hentry h (ne_of_get hremr hremr' hj) }

end Routing

end Router

/-! Calls of the request router side by side hand out one transaction at a time for a resource; the
hash of a resource. -/
open Routing Table List

variable {R : Type}

namespace Routing
namespace Consistent
variable {s : Routing R} {i : Nat} {r : R} {tx : Transaction} (hs : s.Consistent)
include hs

theorem link (hentry : s.entry r = some tx) (hlive : tx ∉ s.completed)
    (hsecr : ∀ r', ¬ s.HandedOut r' tx) : (s.link tx r).Consistent :=
  { hs with
    linked := by
      intro r' tx' h
      rcases get_insert_cases h with ⟨rfl, rfl⟩ | ⟨-, hget⟩
      · exact hentry
      · exact hs.linked hget
    handedOut := by
      intro r' tx' hout
      obtain ⟨hcreat, hrev⟩ := hs.handedOut hout
      have hne : tx' ≠ tx := fun hsame => hsecr r' (hsame ▸ hout)
      exact ⟨hcreat, fun hlive => (get_insert_of_ne hne).trans (hrev hlive)⟩
    removers := by
      intro tx' k h
      obtain ⟨hcompl, hnone⟩ := hs.removers h
      have hne : tx' ≠ tx := fun hsame => hlive (hsame ▸ hcompl)
      exact ⟨hcompl, (get_insert_of_ne hne).trans hnone⟩ }

theorem answer {started : Bool} (hcreat : ∃ k, s.created.get tx = some (r, k))
    (hrev : tx ∉ s.completed → s.reverse tx = some r) : (s.answer r tx started).Consistent :=
  { hs with
    handedOut := by
      rintro r' tx' ⟨started', hin⟩
      rcases mem_cons.mp hin with heq | hin
      · cases heq
        exact ⟨hcreat, hrev⟩
      · exact hs.handedOut ⟨started', hin⟩ }

theorem complete : (s.complete tx).Consistent :=
  { hs with
    entered := fun h hlive => hs.entered h fun hin => hlive (mem_cons_of_mem tx hin)
    handedOut := by
      intro r' tx' hout
      obtain ⟨hcreat, hrev⟩ := hs.handedOut hout
      exact ⟨hcreat, fun hlive => hrev fun hin => hlive (mem_cons_of_mem tx hin)⟩
    removers := by
      intro tx' k h
      obtain ⟨hcompl, hnone⟩ := hs.removers h
      exact ⟨mem_cons_of_mem tx hcompl, hnone⟩ }

theorem unlink (hcompl : tx ∈ s.completed) : (s.unlink tx i).Consistent := by
  have hrev {r' tx'} (h : (s.unlink tx i).reverse tx' = some r') : s.reverse tx' = some r' :=
    (get_of_get_remove h).2
  exact { hs with
    linked := fun h => hs.linked (hrev h)
    handedOut := by
      intro r' tx' hout
      obtain ⟨hcreat, hback⟩ := hs.handedOut hout
      refine ⟨hcreat, fun hlive => ?_⟩
      have hne : tx' ≠ tx := fun hsame => hlive (hsame ▸ hcompl)
      exact (get_remove_of_ne hne).trans (hback hlive)
    removers := by
      intro tx' k h
      rcases get_insert_cases h with ⟨rfl, -⟩ | ⟨hne, hget⟩
      · exact ⟨hcompl, get_remove_self⟩
      · obtain ⟨hdone, hnone⟩ := hs.removers hget
        exact ⟨hdone, (get_remove_of_ne hne).trans hnone⟩ }

variable [DecidableEq R]

theorem enter (hnone : s.entry r = none) (hfresh : s.Fresh tx) : (s.enter r tx i).Consistent :=
  { hs with
    linked := fun h => get_insert_of_none hnone (hs.linked h)
    created := by
      intro r' tx' h
      rcases get_insert_cases h with ⟨rfl, rfl⟩ | ⟨-, hget⟩
      · exact ⟨i, get_insert_self⟩
      · obtain ⟨k, hk⟩ := hs.created hget
        exact ⟨k, get_insert_of_none hfresh.1 hk⟩
    entered := by
      intro r' tx' k h hlive
      rcases get_insert_cases h with ⟨rfl, heq⟩ | ⟨-, hget⟩
      · cases heq
        exact get_insert_self
      · exact get_insert_of_none hnone (hs.entered hget hlive)
    handedOut := by
      intro r' tx' hout
      obtain ⟨⟨k, hk⟩, hrev⟩ := hs.handedOut hout
      exact ⟨⟨k, get_insert_of_none hfresh.1 hk⟩, hrev⟩ }

theorem removeEntry (hentry : s.entry r = some tx) (hnone : s.reverse tx = none)
    (hcompl : tx ∈ s.completed) : (s.removeEntry r).Consistent :=
  { hs with
    entered := by
      intro r' tx' k h hlive
      have hne : tx' ≠ tx := fun hsame => hlive (hsame ▸ hcompl)
      exact get_remove_of_get hentry (hs.entered h hlive) hne
    linked := by
      intro r' tx' h
      have hne : tx' ≠ tx := by
        rintro rfl
        exact Option.some_ne_none r' (h.symm.trans hnone)
      exact get_remove_of_get hentry (hs.linked h) hne
    created := fun h => hs.created (get_of_get_remove h).2 }

end Consistent
end Routing

namespace RouterStage
variable {s s' : Routing R} {i : Nat}

/-- A request that has come upon an entry finds the reverse mapping of its transaction. -/
def Finds (s : Routing R) : RouterStage R → Prop
  | .occupied _ _ existing => (s.router.transactionToResource.get existing).isSome = true
  | _ => True

instance (s : Routing R) (stage : RouterStage R) : Decidable (stage.Finds s) :=
  match stage with
  | .occupied _ _ _ => inferInstanceAs (Decidable (_ = true))
  | .idle | .reusing _ _ _ | .overwriting _ _ | .overwritten _ _ _ | .relinked _ _ _ | .vacant _ _
  | .inserted _ _ _ | .linked _ _ _ | .removing _ _ | .forgetting _ => isTrue trivial

/-- What a step of call `i` does: it keeps the maps consistent, comes to a stage whose assertion
holds, and leaves alone what the other calls rely on. -/
structure Keeps (i : Nat) (s s' : Routing R) (stage : RouterStage R) : Prop where
  consistent : s'.Consistent
  assertion : stage.Assertion i s'
  spares : ∀ j, j ≠ i → s.Spares j s'

theorem reverse_of_entry {r : R} {tx : Transaction} (hs : s.Consistent) (hentry : s.entry r = some tx)
    (hsome : (s.reverse tx).isSome = true) : s.reverse tx = some r := by
  obtain ⟨r', hr'⟩ := Option.isSome_iff_exists.mp hsome
  obtain ⟨k, hk⟩ := hs.created hentry
  obtain ⟨k', hk'⟩ := hs.created (hs.linked hr')
  rw [hk] at hk'
  cases hk'
  exact hr'

variable [DecidableEq R] {stage next : RouterStage R} {a : RouterAction R} (hs : s.Consistent)
include hs

theorem keeps_idle {stage : RouterStage R}
    (h : act i a s .idle = some (s', stage)) : Keeps i s s' stage := by
  cases a with
  | advance fresh => cases h
  | routeRequest r waiter =>
    simp only [act] at h
    split_ifs at h with hlocked
    have hfree : s.locks.get r = none := by simpa using hlocked
    cases hentry : s.router.resourceToTransaction.get r with
    | some existing | none =>
      rw [hentry] at h
      cases h
      exact ⟨{ hs with }, ⟨get_insert_self, hentry⟩, fun j _ => spares_lock hfree⟩
  | completeOperation tx =>
    simp only [act] at h
    split_ifs at h with hknown
    have hcompl : tx ∈ (s.complete tx).completed := mem_cons_self
    cases hrev : s.router.transactionToResource.get tx with
    | none =>
      rw [hrev] at h
      cases h
      exact ⟨hs.complete, trivial, fun j _ => spares_complete hknown⟩
    | some r =>
      rw [hrev] at h
      cases h
      have hremov : s.removers.get tx = none := by
        cases hk : s.removers.get tx with
        | none => rfl
        | some k =>
          have hnone := (hs.removers hk).2
          rw [show s.reverse tx = some r from hrev] at hnone
          cases hnone
      refine ⟨hs.complete.unlink hcompl, ?_, fun j _ => ?_⟩
      · exact ⟨hs.linked hrev, get_remove_self, hcompl, get_insert_self⟩
      · exact (spares_complete hknown).trans (spares_unlink hcompl hremov)

theorem keeps_advance {fresh : Transaction} (hstage : stage.Assertion i s)
    (hfinds : stage.Finds s) (h : stage.act i (.advance fresh) s = some (s', next)) :
    Keeps i s s' next := by
  cases stage with
  | idle => cases h
  | overwriting r waiter | overwritten r waiter tx | relinked r waiter tx => exact hstage.elim
  | occupied r waiter existing =>
    obtain ⟨hlock, hentry⟩ := hstage
    have hsome : (s.router.transactionToResource.get existing).isSome = true := hfinds
    simp only [act, hsome] at h
    cases h
    exact ⟨hs, ⟨hlock, hentry, fun _ => reverse_of_entry hs hentry hsome⟩, fun j _ => .refl s⟩
  | reusing r waiter existing =>
    obtain ⟨hlock, hentry, hrev⟩ := hstage
    cases h
    have hwait : (s.pushWaiter existing waiter).Consistent := { hs with }
    have hunlocked : ((s.pushWaiter existing waiter).unlock r).Consistent := { hwait with }
    refine ⟨hunlocked.answer (hs.created hentry) hrev, trivial, fun j hj => ?_⟩
    have hpush : s.Spares j (s.pushWaiter existing waiter) := spares_of_waiters
    have hunlock : (s.pushWaiter existing waiter).Spares j ((s.pushWaiter existing waiter).unlock r) :=
      spares_unlock hlock hj
    exact (hpush.trans hunlock).trans (spares_answer fun hlive => ⟨r, hrev hlive⟩)
  | vacant r waiter =>
    obtain ⟨hlock, hentry⟩ := hstage
    simp only [act] at h
    split_ifs at h with hfresh
    cases h
    have henter : (s.enter r fresh i).Consistent := hs.enter hentry hfresh
    refine ⟨{ henter with }, ?_, fun j hj => ?_⟩
    · refine ⟨get_insert_self, ?_, hfresh.2, get_insert_self, ?_⟩
      · cases hrev : s.reverse fresh with
        | none => exact hrev
        | some r' =>
          obtain ⟨k, hk⟩ := hs.created (hs.linked hrev)
          rw [hfresh.1] at hk
          cases hk
      · intro r' hout
        obtain ⟨⟨k, hk⟩, -⟩ := hs.handedOut hout
        rw [hfresh.1] at hk
        cases hk
    · exact (spares_enter hlock hj hentry hfresh).trans (spares_unlock hlock hj)
  | inserted r waiter tx =>
    obtain ⟨hentry, hnone, hlive, hcreat, hsecr⟩ := hstage
    cases h
    exact ⟨hs.link hentry hlive hsecr, ⟨⟨i, hcreat⟩, fun _ => get_insert_self⟩,
      fun j hj => spares_link hcreat hj hlive hnone⟩
  | linked r waiter tx =>
    obtain ⟨hcreat, hrev⟩ := hstage
    cases h
    have hwait : (s.setWaiters tx [waiter]).Consistent := { hs with }
    refine ⟨hwait.answer hcreat hrev, trivial, fun j hj => ?_⟩
    have hset : s.Spares j (s.setWaiters tx [waiter]) := spares_of_waiters
    exact hset.trans (spares_answer fun hlive => ⟨r, hrev hlive⟩)
  | removing tx r =>
    obtain ⟨hentry, hnone, hcompl, hremr⟩ := hstage
    simp only [act] at h
    split_ifs at h with hlocked
    have hfree : s.locks.get r = none := by simpa using hlocked
    cases h
    exact ⟨hs.removeEntry hentry hnone hcompl, trivial,
      fun j hj => spares_removeEntry hfree hentry hcompl hremr hj⟩
  | forgetting tx =>
    cases h
    exact ⟨{ hs with }, trivial, fun j _ => spares_of_waiters⟩

theorem keeps_act (hstage : stage.Assertion i s) (hfinds : stage.Finds s)
    (h : stage.act i a s = some (s', next)) : Keeps i s s' next := by
  cases a with
  | advance fresh => exact keeps_advance hs hstage hfinds h
  | routeRequest r waiter | completeOperation tx =>
    cases stage with
    | idle => exact keeps_idle hs h
    | _ => cases h

end RouterStage

section Runs
variable [DecidableEq R]

/-- What holds in every interleaving in which requests find the reverse mappings they look for. -/
def Routed (c : Calls (Routing R) (RouterStage R)) : Prop :=
  c.Outline Consistent fun i s stage => stage.Assertion i s

omit [DecidableEq R] in
theorem Routed.new : Routed (⟨.new, fun _ => .idle⟩ : Calls (Routing R) (RouterStage R)) where
  shared := Consistent.new
  stages _ := trivial

theorem Routed.step {c c' : Calls (Routing R) (RouterStage R)} {e : Nat × RouterAction R} (hc : Routed c)
    (hfinds : (c.stage e.1).Finds c.shared) (h : (routing R).step c e = some c') : Routed c' := by
  refine Calls.Outline.step hc h ?_ ?_
  · intro s t hact
    have hkeeps := RouterStage.keeps_act hc.shared (hc.stages e.1) hfinds hact
    exact ⟨hkeeps.consistent, hkeeps.assertion⟩
  · intro s t hact j u hj hu
    have hkeeps := RouterStage.keeps_act hc.shared (hc.stages e.1) hfinds hact
    exact hu.mono (hkeeps.spares j hj)

/-- In every interleaving in which each request finds the reverse mapping of the transaction it
comes upon, a resource has at most one transaction handed out and not completed, and none loses its
mappings before it is completed. -/
theorem handedOut_once {c₀ c : Calls (Routing R) (RouterStage R)} {es : List (Nat × RouterAction R)}
    (hinit : (routing R).init c₀)
    (hfinds : (routing R).Along (fun c e => (c.stage e.1).Finds c.shared) c₀ es)
    (hrun : (routing R).runFrom c₀ es = some c) (r : R) :
    (∀ tx tx', c.shared.HandedOut r tx → tx ∉ c.shared.completed →
      c.shared.HandedOut r tx' → tx' ∉ c.shared.completed → tx = tx') ∧
    (∀ tx i, c.shared.created.get tx = some (r, i) → tx ∉ c.shared.completed →
      c.shared.router.resourceToTransaction.get r = some tx) ∧
    ∀ tx, c.shared.HandedOut r tx → tx ∉ c.shared.completed →
      c.shared.router.transactionToResource.get tx = some r := by
  subst hinit
  have hrout : Routed c := (routing R).invariant_of_along _ Routed
    (fun _ _ _ hc hcond hstep => hc.step hcond hstep) Routed.new hfinds hrun
  have hrev (tx : Transaction) (hout : c.shared.HandedOut r tx) (hlive : tx ∉ c.shared.completed) :
      c.shared.reverse tx = some r := (hrout.shared.handedOut hout).2 hlive
  refine ⟨?_, fun tx i hcreat hlive => hrout.shared.entered hcreat hlive, hrev⟩
  intro tx tx' hout hlive hout' hlive'
  have hentry : c.shared.entry r = some tx := hrout.shared.linked (hrev tx hout hlive)
  rw [hrout.shared.linked (hrev tx' hout' hlive')] at hentry
  exact (Option.some.inj hentry).symm

end Runs

def firstTransaction : Transaction := .new .get 1

def secondTransaction : Transaction := .new .get (2 ^ 80)

/-- A second request comes when the first has made its entry: they share a transaction. -/
def sharingRequests : List (Nat × RouterAction Unit) :=
  [(0, .routeRequest () (1, 1)), (0, .advance firstTransaction), (0, .advance firstTransaction),
    (1, .routeRequest () (2, 1)), (1, .advance secondTransaction), (1, .advance secondTransaction),
    (0, .advance firstTransaction)]

theorem sharingRequests_once : ∃ c,
    (routing Unit).runFrom ⟨.new, fun _ => .idle⟩ sharingRequests = some c ∧
    c.shared.answers = [((), firstTransaction, true), ((), firstTransaction, false)] ∧
    c.shared.router.transactionToResource.get firstTransaction = some () := by
  refine Machine.exists_run_imp (fun c => c.shared.answers =
    [((), firstTransaction, true), ((), firstTransaction, false)] ∧
      c.shared.completed = []) (by decide +kernel) ?_
  rintro c hc ⟨hansw, hcompl⟩
  have hfinds : (routing Unit).Along (fun c e => (c.stage e.1).Finds c.shared) ⟨.new, fun _ => .idle⟩
      sharingRequests := by
    decide +kernel
  have hout : c.shared.HandedOut () firstTransaction := ⟨true, by simp [hansw]⟩
  have hlive : firstTransaction ∉ c.shared.completed := by simp [hcompl]
  exact ⟨hansw, (handedOut_once rfl hfinds hc ()).2.2 firstTransaction hout hlive⟩

/-- A second request comes when the first has entered its transaction and not yet mapped it back. -/
def racingRequests : List (Nat × RouterAction Unit) :=
  [(0, .routeRequest () (1, 1)), (0, .advance firstTransaction),
    (1, .routeRequest () (2, 1)), (1, .advance secondTransaction), (1, .advance secondTransaction),
    (1, .advance secondTransaction), (1, .advance secondTransaction),
    (0, .advance firstTransaction), (0, .advance firstTransaction)]

/-- The two requests are handed different transactions; and when the first of these is completed,
the second loses its entry. -/
theorem racingRequests_twice :
    (∃ c, (routing Unit).runFrom ⟨.new, fun _ => .idle⟩ racingRequests = some c ∧
      c.shared.answers = [((), firstTransaction, true), ((), secondTransaction, true)] ∧
      c.shared.completed = []) ∧ ∃ c, (routing Unit).runFrom ⟨.new, fun _ => .idle⟩ (racingRequests ++
        [(0, .completeOperation firstTransaction), (0, .advance firstTransaction)]) = some c ∧
      c.shared.answers = [((), firstTransaction, true), ((), secondTransaction, true)] ∧
      c.shared.completed = [firstTransaction] ∧ c.shared.router.resourceToTransaction.get () = none := by
  decide +kernel

open Contract

abbrev RelatedContracts := Finmap fun _ : ContractInstanceId => Option WrappedState

inductive RequestResource where
  | get (key : ContractInstanceId) (returnContractCode subscribe : Bool)
  | put (key : ContractKey) (contract : ContractContainer) (relatedContracts : RelatedContracts)
    (state : WrappedState) (subscribe : Bool)
  | subscribe (key : ContractInstanceId)
  | update (key : ContractKey) (updateData : UpdateData) (relatedContracts : RelatedContracts)

/-- A value written to a hasher. -/
inductive Hashed where
  | int (n : Nat)
  | id (id : ContractInstanceId)
  | key (key : ContractKey)
  | bytes (bytes : List UInt8)
  deriving DecidableEq

def hashedData : UpdateData → List Hashed
  | .state state => [.int 0, .bytes state]
  | .delta delta => [.int 1, .bytes delta]
  | .stateAndDelta state delta => [.int 2, .bytes state, .bytes delta]
  | .relatedState relatedTo state => [.int 3, .id relatedTo, .bytes state]
  | .relatedDelta relatedTo delta => [.int 4, .id relatedTo, .bytes delta]
  | .relatedStateAndDelta relatedTo state delta =>
    [.int 5, .id relatedTo, .bytes state, .bytes delta]

namespace RequestResource

variable (contractKey : ContractContainer → ContractKey)

/-- What the resource writes to a hasher if its map iterates in this order, with the digests of a
`DefaultHasher`. -/
def hash (order : List ContractInstanceId) (finish : List Hashed → Nat) : RequestResource → List Hashed
  | get key returnContractCode subscribing =>
    [.int 0, .id key, .int returnContractCode.toNat, .int subscribing.toNat]
  | put key contract _ state subscribing =>
    let digest := finish (.key key :: order.map .id ++ [.bytes state])
    [.int 1, .key key, .key (contractKey contract), .int digest, .int subscribing.toNat]
  | .subscribe key => [.int 2, .id key]
  | update key updateData _ =>
    [.int 3, .key key, .int (finish (.key key :: order.map .id ++ hashedData updateData))]

def hasRelated : RequestResource → Bool
  | put .. | update .. => true
  | _ => false

/-- A request with related contracts has one hash, whatever the digests, only in one order. -/
theorem hash_eq_iff (r : RequestResource) (order order' : List ContractInstanceId) :
    (∀ finish, r.hash contractKey order finish = r.hash contractKey order' finish) ↔
      (r.hasRelated → order = order') := by
  have hid : Function.Injective Hashed.id := fun _ _ => Hashed.id.inj
  constructor
  · intro hhash hrelat
    cases r with
    | get | subscribe => cases hrelat
    | put key _ _ state =>
      have := hhash fun l => if l = .key key :: order.map .id ++ [.bytes state] then 1 else 0
      simpa [hash, hid.list_map.eq_iff, eq_comm] using this
    | update key data =>
      have := hhash fun l => if l = .key key :: order.map .id ++ hashedData data then 1 else 0
      simpa [hash, hid.list_map.eq_iff, eq_comm] using this
  · intro heq finish
    cases r with
    | get | subscribe => rfl
    | put | update => rw [heq rfl]

theorem hash_depends_on_order : ∃ (related : RelatedContracts) (order order' : List ContractInstanceId),
    related.keys.val = order ∧ related.keys.val = order' ∧ ∃ finish,
      (update ⟨1, 1⟩ (.delta []) related).hash (fun _ => ⟨1, 1⟩) order finish ≠
        (update ⟨1, 1⟩ (.delta []) related).hash (fun _ => ⟨1, 1⟩) order' finish :=
  ⟨.insert 1 none (.singleton 2 none), [1, 2], [2, 1], rfl, by decide +kernel,
    fun l => if .id 1 ∈ l.take 2 then 1 else 0, by decide +kernel⟩

end RequestResource

end Freenet.Node
