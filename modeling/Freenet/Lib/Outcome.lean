import Mathlib.Algebra.Group.Nat.Defs
import Mathlib.Data.List.Basic

/-! Results of code that may panic, with slicing and unsigned arithmetic, and passes over lists of
keys. -/
namespace Freenet.Lib

universe u

/-- Why a computation panicked. -/
inductive Panic where
  | sliceRange
  | indexRange
  | overflow
  | assertion
  | expectFailed
  | unreachableCode
  deriving DecidableEq, Repr

/-- What running a computation ends in: a value, or the panic that ended it. -/
inductive Outcome (α : Type u) where
  | ok (value : α)
  | panicked (reason : Panic)
  deriving DecidableEq, Repr

/-- The two compilation switches that change where code panics. -/
structure Build where
  debugAssertions : Bool
  overflowChecks : Bool
  deriving DecidableEq, Repr

namespace Outcome
variable {α β : Type u}

protected def bind (o : Outcome α) (f : α → Outcome β) : Outcome β :=
  match o with
  | ok a => f a
  | panicked r => panicked r

instance : Monad Outcome where
  pure := ok
  bind := Outcome.bind

variable {o : Outcome α} {f : α → Outcome β} {P : α → Prop} (a : α) {Q : β → Prop}

@[simp]
theorem pure_eq : (pure a : Outcome α) = ok a := rfl

@[simp]
theorem ok_bind (f : α → Outcome β) : (ok a >>= f) = f a := rfl

@[simp]
theorem panicked_bind (r : Panic) (f : α → Outcome β) : ((panicked r : Outcome α) >>= f) = panicked r := rfl

/-- The computation ends with a value. -/
def Returns (o : Outcome α) : Prop := ∃ a, o = ok a

@[simp]
theorem returns_ok : (ok a).Returns := ⟨a, rfl⟩

@[simp]
theorem not_returns_panicked (r : Panic) : ¬ (panicked r : Outcome α).Returns := by
  rintro ⟨a, ha⟩
  cases ha

theorem returns_bind_iff (o : Outcome α) (f : α → Outcome β) :
    (o >>= f).Returns ↔ ∃ a, o = ok a ∧ (f a).Returns := by
  cases o with
  | ok a => simp
  | panicked r => simp

/-- What always returns does not matter for whether the whole returns. -/
theorem returns_bind_iff_left (hf : ∀ a, (f a).Returns) : (o >>= f).Returns ↔ o.Returns := by
  cases o with
  | ok a => simp [hf a]
  | panicked r => simp

theorem returns_bind_ok_iff (o : Outcome α) (f : α → β) : (o >>= fun a => ok (f a)).Returns ↔ o.Returns :=
  returns_bind_iff_left fun a => returns_ok (f a)

theorem bind_eq_ok_iff (o : Outcome α) (f : α → Outcome β) (b : β) :
    (o >>= f) = ok b ↔ ∃ a, o = ok a ∧ f a = ok b := by
  cases o with
  | ok a => simp
  | panicked r => simp

/-- The computation ends with a value that satisfies `P`. -/
def Ensures (P : α → Prop) (o : Outcome α) : Prop := ∃ a, o = ok a ∧ P a

theorem ensures_ok {a : α} (h : P a) : (ok a).Ensures P := ⟨a, rfl, h⟩

theorem Returns.ensures (h : o.Returns) : o.Ensures fun _ => True := by
  obtain ⟨a, ha⟩ := h
  exact ⟨a, ha, trivial⟩

theorem Ensures.returns (h : o.Ensures P) : o.Returns := by
  obtain ⟨a, ha, -⟩ := h
  exact ⟨a, ha⟩

theorem Ensures.bind (ho : o.Ensures P) (hf : ∀ a, P a → (f a).Ensures Q) : (o >>= f).Ensures Q := by
  obtain ⟨a, rfl, ha⟩ := ho
  exact hf a ha

theorem Returns.bind (ho : o.Returns) (hf : ∀ a, (f a).Ensures Q) :
    (o >>= f).Ensures Q := ho.ensures.bind fun a _ => hf a

/-- The computation ends with a value that passes a test. -/
def any (p : α → Bool) : Outcome α → Bool
  | ok a => p a
  | panicked _ => false

theorem any_eq_true {p : α → Bool} : o.any p = true ↔ ∃ a, o = ok a ∧ p a = true := by
  cases o with
  | ok a => simp [any]
  | panicked r => simp [any]

instance decidableReturns (o : Outcome α) : Decidable o.Returns :=
  match o with
  | ok a => isTrue (returns_ok a)
  | panicked r => isFalse (not_returns_panicked r)

instance decidableReturnsPair {o : Outcome (α × β)} {P : α → β → Prop} [∀ a b, Decidable (P a b)] :
    Decidable (∃ a b, o = ok (a, b) ∧ P a b) :=
  decidable_of_iff (o.any (fun r => P r.1 r.2) = true) (by simp [any_eq_true])

end Outcome

open Outcome

section Slices
variable {α : Type u}

def slice (xs : List α) (lo hi : Nat) : Outcome (List α) :=
  if lo ≤ hi ∧ hi ≤ xs.length then .ok ((xs.take hi).drop lo) else .panicked .sliceRange

def index (xs : List α) (i : Nat) : Outcome α :=
  match xs[i]? with
  | some a => .ok a
  | none => .panicked .indexRange

/-- `a - b` on 64-bit machine words: checked when overflow checks are compiled in, wrapping
otherwise. -/
def subUsize (build : Build) (a b : Nat) : Outcome Nat :=
  if b ≤ a then .ok (a - b)
  else if build.overflowChecks then .panicked .overflow
  else .ok ((a + 2 ^ 64 - b) % 2 ^ 64)

/-- `a + b` on 64-bit machine words, in the same way. -/
def addUsize (build : Build) (a b : Nat) : Outcome Nat :=
  if a + b < 2 ^ 64 then .ok (a + b)
  else if build.overflowChecks then .panicked .overflow
  else .ok ((a + b) % 2 ^ 64)

/-- `a.saturating_add(b)` on 64-bit machine words. -/
def saturatingAdd (a b : Nat) : Nat := min (a + b) (2 ^ 64 - 1)

variable (xs : List α) (build : Build) (lo hi : Nat)

theorem slice_of_le (hlo : lo ≤ hi) (hhi : hi ≤ xs.length) :
    slice xs lo hi = .ok ((xs.take hi).drop lo) := by
  simp [slice, hlo, hhi]

theorem slice_returns_iff : (slice xs lo hi).Returns ↔ lo ≤ hi ∧ hi ≤ xs.length := by
  unfold slice
  split_ifs with h
  · simp [h]
  · simp [h]

theorem index_of_lt (i : Nat) (hi : i < xs.length) : index xs i = .ok xs[i] := by
  simp [index, hi]

theorem subUsize_of_le (a b : Nat) (hb : b ≤ a) : subUsize build a b = .ok (a - b) := by
  simp [subUsize, hb]

theorem addUsize_eq_ok {build : Build} {a b c : Nat} (h : addUsize build a b = .ok c) :
    c = (a + b) % 2 ^ 64 := by
  unfold addUsize at h
  split_ifs at h with hlt
  · cases h
    exact (Nat.mod_eq_of_lt hlt).symm
  · cases h
    rfl

/-- An underflow that is not checked leaves a word far above any buffer size. -/
theorem subUsize_of_lt (a b c : Nat) (hb : a < b) (hbound : b ≤ 2 ^ 32)
    (hc : subUsize build a b = .ok c) : 2 ^ 63 ≤ c := by
  unfold subUsize at hc
  split_ifs at hc with h₁ h₂
  · omega
  · cases hc
    omega

end Slices

/-! Programs that make calls and go on with the replies, run against a server that may panic. -/

universe v

inductive Program (C : Type u) (Reply : C → Type u) (α : Type u) where
  | done (result : α)
  | call (c : C) (next : Reply c → Program C Reply α)

namespace Program
variable {C : Type u} {Reply : C → Type u} {α σ : Type u}

/-- Run a program; `serve` answers a call and gives the server's next state. -/
def run (serve : σ → (c : C) → Outcome (σ × Reply c)) : Program C Reply α → σ → Outcome (σ × α)
  | .done result, s => .ok (s, result)
  | .call c next, s => do
    let reply ← serve s c
    run serve (next reply.2) reply.1

/-- Whatever the replies are, the program ends with a result that satisfies `P`. -/
def Results (P : α → Prop) : Program C Reply α → Prop
  | .done result => P result
  | .call _ next => ∀ reply, Results P (next reply)

/-- A program whose calls are all answered ends with one of its results. -/
theorem run_ensures {serve : σ → (c : C) → Outcome (σ × Reply c)} {P : α → Prop}
    (hserve : ∀ s c, (serve s c).Returns) (p : Program C Reply α) (hp : p.Results P) (s : σ) :
    (p.run serve s).Ensures fun r => P r.2 := by
  induction p generalizing s with
  | done result => exact ensures_ok hp
  | call c next ih => exact (hserve s c).bind fun reply => ih reply.2 (hp reply.2) reply.1

theorem results_true (p : Program C Reply α) : p.Results fun _ => True := by
  induction p with
  | done result => trivial
  | call c next ih => exact ih

end Program

open List
variable {σ ι ν : Type} {step : σ → ι → Outcome σ} {s t : σ} {is : List ι}

theorem foldlM_invariant (Inv : σ → Prop)
    (hstep : ∀ s s', ∀ i ∈ is, Inv s → step s i = .ok s' → Inv s') (hs : Inv s)
    (h : is.foldlM step s = .ok t) : Inv t := by
  induction is generalizing s with
  | nil =>
    cases h
    exact hs
  | cons i is ih =>
    rw [foldlM_cons, bind_eq_ok_iff] at h
    obtain ⟨s', hs', ht⟩ := h
    have hInv : Inv s' := hstep s s' i mem_cons_self hs hs'
    exact ih (fun s s' j hj => hstep s s' j (mem_cons_of_mem i hj)) hInv ht

theorem foldlM_returns (hstep : ∀ s, ∀ i ∈ is, (step s i).Returns) (s : σ) : (is.foldlM step s).Returns := by
  induction is generalizing s with
  | nil => exact returns_ok s
  | cons i is ih =>
    rw [foldlM_cons, returns_bind_iff]
    obtain ⟨s', hs'⟩ := hstep s i mem_cons_self
    exact ⟨s', hs', ih (fun s j hj => hstep s j (mem_cons_of_mem i hj)) s'⟩

/-- A pass that puts some of its keys on a list puts them there in order. -/
theorem foldlM_appends (out : σ → List ι)
    (hstep : ∀ s s' i, step s i = .ok s' → out s' = out s ∨ out s' = out s ++ [i])
    (h : is.foldlM step s = .ok t) : ∃ js, js.Sublist is ∧ out t = out s ++ js := by
  induction is generalizing s with
  | nil =>
    cases h
    exact ⟨[], Sublist.slnil, (append_nil _).symm⟩
  | cons i is ih =>
    rw [foldlM_cons, bind_eq_ok_iff] at h
    obtain ⟨s', hs', ht⟩ := h
    obtain ⟨js, hsub, hout⟩ := ih ht
    rcases hstep s s' i hs' with hsame | hmore
    · exact ⟨js, hsub.cons i, by rw [hout, hsame]⟩
    · exact ⟨i :: js, hsub.cons_cons i, by rw [hout, hmore, append_assoc, singleton_append]⟩

section View
variable (view : σ → ι → ν) (act : ι → ν → ν)
  (hframe : ∀ s s' i j, step s i = .ok s' → j ≠ i → view s' j = view s j)

include hframe

theorem view_foldlM_of_notMem (h : is.foldlM step s = .ok t) {j : ι} (hj : j ∉ is) :
    view t j = view s j := by
  refine foldlM_invariant (fun s' => view s' j = view s j) ?_ rfl h
  intro s₁ s₂ i hi hview hstep
  have hne : j ≠ i := fun hji => hj (hji ▸ hi)
  rw [hframe s₁ s₂ i j hstep hne, hview]

/-- A pass without repetitions acts once on each key it comes by, and on no others. -/
theorem view_foldlM [DecidableEq ι] (hact : ∀ s s' i, step s i = .ok s' → view s' i = act i (view s i))
    (hnodup : is.Nodup) (h : is.foldlM step s = .ok t) (j : ι) :
    view t j = if j ∈ is then act j (view s j) else view s j := by
  induction is generalizing s with
  | nil =>
    cases h
    rfl
  | cons i is ih =>
    rw [foldlM_cons, bind_eq_ok_iff] at h
    obtain ⟨s', hs', ht⟩ := h
    obtain ⟨hi, hnodup⟩ := nodup_cons.mp hnodup
    by_cases hji : j = i
    · subst hji
      rw [if_pos mem_cons_self, view_foldlM_of_notMem view hframe ht hi, hact s s' j hs']
    · rw [ih hnodup ht, hframe s s' i j hs' hji]
      simp [hji]

end View

theorem view_foldl [DecidableEq ι] (next : σ → ι → σ) (view : σ → ι → ν) (act : ι → ν → ν)
    (hframe : ∀ s i j, j ≠ i → view (next s i) j = view s j)
    (hact : ∀ s i, view (next s i) i = act i (view s i)) (hnodup : is.Nodup) (j : ι) :
    view (is.foldl next s) j = if j ∈ is then act j (view s j) else view s j := by
  induction is generalizing s with
  | nil => rfl
  | cons i is ih =>
    obtain ⟨hi, hnodup⟩ := nodup_cons.mp hnodup
    rw [foldl_cons, ih hnodup]
    by_cases hji : j = i
    · subst hji
      simp [hi, hact]
    · simp [hji, hframe s i j hji]

end Freenet.Lib
