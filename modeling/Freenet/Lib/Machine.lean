import Mathlib.Algebra.Group.Nat.Defs
import Mathlib.Tactic.Common

/-! Machines driven by events, what steps say about runs, and calls side by side on a shared
state. -/
namespace Freenet.Lib
open List Option

/-- A machine with guarded steps: `step s e` is `none` when event `e` cannot happen in `s`. -/
structure Machine (σ ε : Type*) where
  init : σ → Prop
  step : σ → ε → Option σ

namespace Machine
variable {σ ε : Type*} (M : Machine σ ε)

/-- The state after a list of events, if all of them can happen. -/
def runFrom : σ → List ε → Option σ
  | s, [] => some s
  | s, e :: es => (M.step s e).bind fun s' => runFrom s' es

/-- `P` holds of the state and the event at every step of a run. -/
def Along (P : σ → ε → Prop) : σ → List ε → Prop
  | _, [] => True
  | s, e :: es => P s e ∧ ∀ s', M.step s e = some s' → Along P s' es

@[simp]
theorem runFrom_nil (s : σ) : M.runFrom s [] = some s := rfl

theorem runFrom_cons (s : σ) (e : ε) (es : List ε) :
    M.runFrom s (e :: es) = (M.step s e).bind fun s' => M.runFrom s' es := rfl

theorem runFrom_cons_eq_some_iff (s t : σ) (e : ε) (es : List ε) :
    M.runFrom s (e :: es) = some t ↔ ∃ s', M.step s e = some s' ∧ M.runFrom s' es = some t := by
  simp [runFrom_cons, bind_eq_some_iff]

/-- What a run that ends with `P` ends with besides. -/
theorem exists_run_imp {M : Machine σ ε} {s : σ} {es : List ε} {Q : σ → Prop} (P : σ → Prop)
    (h : ∃ t, M.runFrom s es = some t ∧ P t) (himp : ∀ t, M.runFrom s es = some t → P t → Q t) :
    ∃ t, M.runFrom s es = some t ∧ Q t := by
  obtain ⟨t, hrun, hP⟩ := h
  exact ⟨t, hrun, himp t hrun hP⟩

theorem runFrom_append (s : σ) (es fs : List ε) :
    M.runFrom s (es ++ fs) = (M.runFrom s es).bind fun s' => M.runFrom s' fs := by
  induction es generalizing s with
  | nil => simp
  | cons e es ih =>
    simp only [cons_append, runFrom_cons, bind_assoc]
    congr 1
    funext s'
    exact ih s'

variable (Inv : σ → Prop) {P Q : σ → ε → Prop} {s t : σ}
  {e : ε} {es fs : List ε}

theorem runFrom_cons_of_step {s s' : σ} (hstep : M.step s e = some s') :
    M.runFrom s (e :: es) = M.runFrom s' es := by
  rw [runFrom_cons, hstep, bind_some]

theorem along_cons_of_step {s s' : σ} (hstep : M.step s e = some s') (hP : P s e)
    (hrest : M.Along P s' es) : M.Along P s (e :: es) := by
  refine ⟨hP, ?_⟩
  intro t ht
  rw [hstep] at ht
  cases ht
  exact hrest

theorem along_cons_of_none (hstep : M.step s e = none) (hP : P s e) : M.Along P s (e :: es) := by
  refine ⟨hP, ?_⟩
  intro t ht
  rw [hstep] at ht
  cases ht

/-- A step property that can be decided can be decided along a run. -/
instance decidableAlong {P : σ → ε → Prop} [∀ s e, Decidable (P s e)] :
    ∀ (s : σ) (es : List ε), Decidable (M.Along P s es)
  | _, [] => isTrue trivial
  | s, e :: es =>
    match hstep : M.step s e with
    | none => decidable_of_iff (P s e) ⟨fun hP => M.along_cons_of_none hstep hP, fun h => h.1⟩
    | some s' =>
      have : Decidable (M.Along P s' es) := decidableAlong s' es
      decidable_of_iff (P s e ∧ M.Along P s' es)
        ⟨fun h => M.along_cons_of_step hstep h.1 h.2, fun h => ⟨h.1, h.2 s' hstep⟩⟩

/-- What is said about the end of a run is decided by running. -/
instance decidableRunsTo {run : Option σ} {P : σ → Prop} [DecidablePred P] :
    Decidable (∃ s, run = some s ∧ P s) :=
  inferInstanceAs (Decidable (∃ s ∈ run, P s))

section
variable {γ ρ : Type*}

instance decidableRunsToPair {run : Option σ} {S : σ → γ → ρ → Prop}
    [∀ s, Decidable (∃ c r, S s c r)] : Decidable (∃ s c r, run = some s ∧ S s c r) :=
  decidable_of_iff (∃ s, run = some s ∧ ∃ c r, S s c r) (by simp only [exists_and_left])

instance decidableAndPair {P : Prop} {R : γ → ρ → Prop} [Decidable P] [Decidable (∃ c r, R c r)] :
    Decidable (∃ c r, P ∧ R c r) :=
  decidable_of_iff (P ∧ ∃ c r, R c r) (by simp only [exists_and_left])

end

/-- A property of the events alone holds along every run of such events. -/
theorem along_of_forall_mem {P : ε → Prop} (h : ∀ e ∈ es, P e) : M.Along (fun _ e => P e) s es := by
  induction es generalizing s with
  | nil => trivial
  | cons e es ih =>
    refine ⟨h e mem_cons_self, ?_⟩
    intro s' _
    exact ih fun e' he' => h e' (mem_cons_of_mem e he')

theorem along_and (hP : M.Along P s es) (hQ : M.Along Q s es) : M.Along (fun s e => P s e ∧ Q s e) s es := by
  induction es generalizing s with
  | nil => exact trivial
  | cons e es ih => exact ⟨⟨hP.1, hQ.1⟩, fun s' hstep => ih (hP.2 s' hstep) (hQ.2 s' hstep)⟩

theorem along_of_append (h : M.Along P s (es ++ fs)) : M.Along P s es := by
  induction es generalizing s with
  | nil => exact trivial
  | cons e es ih => exact ⟨h.1, fun s' hse => ih (h.2 s' hse)⟩

theorem invariant_of_along (cond : σ → ε → Prop) (Inv : σ → Prop)
    (hstep : ∀ s e s', Inv s → cond s e → M.step s e = some s' → Inv s') (hs : Inv s)
    (hcond : M.Along cond s es) (hrun : M.runFrom s es = some t) : Inv t := by
  induction es generalizing s with
  | nil =>
    cases hrun
    exact hs
  | cons e es ih =>
    obtain ⟨s', hse, hrest⟩ := (M.runFrom_cons_eq_some_iff s t e es).mp hrun
    exact ih (hstep s e s' hs hcond.1 hse) (hcond.2 s' hse) hrest

/-- A step property carries over to another one that follows from it under an invariant. -/
theorem along_of_along (hstep : ∀ s e s', Inv s → P s e → M.step s e = some s' → Inv s')
    (hPQ : ∀ s e, Inv s → P s e → Q s e) (hs : Inv s) (h : M.Along P s es) : M.Along Q s es := by
  induction es generalizing s with
  | nil => trivial
  | cons e es ih =>
    refine ⟨hPQ s e hs h.1, ?_⟩
    intro s' hse
    exact ih (hstep s e s' hs h.1 hse) (h.2 s' hse)

theorem invariant_of_run (hstep : ∀ s e s', Inv s → M.step s e = some s' → Inv s') (hs : Inv s)
    (hrun : M.runFrom s es = some t) : Inv t := by
  have hcond : M.Along (fun _ _ => True) s es := M.along_of_forall_mem fun _ _ => trivial
  refine M.invariant_of_along (fun _ _ => True) Inv ?_ hs hcond hrun
  intro s e s' hs _ hse
  exact hstep s e s' hs hse

/-- A state at the end of a run from some initial state. -/
structure Reachable (M : Machine σ ε) where
  state : σ
  reached : ∃ s es, M.init s ∧ M.runFrom s es = some state

variable {M} in
theorem Reachable.holds (r : M.Reachable) (hinit : ∀ s, M.init s → Inv s)
    (hstep : ∀ s e s', Inv s → M.step s e = some s' → Inv s') : Inv r.state := by
  obtain ⟨s, es, hs, hrun⟩ := r.reached
  exact M.invariant_of_run Inv hstep (hinit s hs) hrun

/-- What holds along a run holds of each state it reaches and the event that comes next. -/
theorem along_at (h : M.Along P s (es ++ e :: fs)) (hrun : M.runFrom s es = some t) : P t e := by
  induction es generalizing s with
  | nil =>
    cases hrun
    exact h.1
  | cons f es ih =>
    obtain ⟨s', hsf, hrest⟩ := (M.runFrom_cons_eq_some_iff s t f es).mp hrun
    exact ih (h.2 s' hsf) hrest

/-- If steps keep an invariant exactly when they meet `P`, all states on the way satisfy the
invariant exactly when all steps meet `P`. -/
theorem forall_prefix_iff_along
    (hstep : ∀ s e, Inv s → ((∀ s', M.step s e = some s' → Inv s') ↔ P s e)) (es : List ε)
    (hs : Inv s) : (∀ fs t, fs <+: es → M.runFrom s fs = some t → Inv t) ↔ M.Along P s es := by
  induction es generalizing s with
  | nil =>
    refine ⟨fun _ => trivial, fun _ fs t hpre hrun => ?_⟩
    rw [prefix_nil.mp hpre] at hrun
    cases hrun
    exact hs
  | cons e es ih =>
    constructor
    · intro h
      have hs' (s' : σ) (hse : M.step s e = some s') : Inv s' :=
        h [e] s' (prefix_cons_inj e |>.mpr es.nil_prefix)
          ((M.runFrom_cons_eq_some_iff s s' e []).mpr ⟨s', hse, rfl⟩)
      refine ⟨(hstep s e hs).mp hs', fun s' hse => (ih (hs' s' hse)).mp fun fs t hpre hrun => ?_⟩
      exact h (e :: fs) t (prefix_cons_inj e |>.mpr hpre)
        ((M.runFrom_cons_eq_some_iff s t e fs).mpr ⟨s', hse, hrun⟩)
    · rintro ⟨hP, hrest⟩ fs t hpre hrun
      cases fs with
      | nil =>
        cases hrun
        exact hs
      | cons f fs =>
        obtain ⟨rfl, hfs⟩ := cons_prefix_cons.mp hpre
        obtain ⟨s', hsf, hrun'⟩ := (M.runFrom_cons_eq_some_iff s t f fs).mp hrun
        have hs' : Inv s' := (hstep s f hs).mpr hP s' hsf
        exact (ih hs').mpr (hrest s' hsf) fs t hfs hrun'

/-- Two step properties that agree in every state satisfying an invariant agree along runs. -/
theorem along_congr (hstep : ∀ s e s', Inv s → M.step s e = some s' → Inv s')
    (hPQ : ∀ s e, Inv s → (P s e ↔ Q s e)) (es : List ε) (hs : Inv s) :
    M.Along P s es ↔ M.Along Q s es := by
  induction es generalizing s with
  | nil => exact Iff.rfl
  | cons e es ih =>
    refine and_congr (hPQ s e hs) ?_
    exact forall_congr' fun s' => forall_congr' fun hse => ih (hstep s e s' hs hse)

end Machine

variable {σ τ α : Type*}

/-- A shared state and the stage that each call has reached. -/
structure Calls (σ τ : Type*) where
  shared : σ
  stage : Nat → τ

namespace Calls

/-- Call `i` acts on the shared state, from the stage it has reached. -/
def step (act : Nat → α → σ → τ → Option (σ × τ)) (c : Calls σ τ) (e : Nat × α) : Option (Calls σ τ) :=
  (act e.1 e.2 c.shared (c.stage e.1)).map fun r => ⟨r.1, Function.update c.stage e.1 r.2⟩

/-- An invariant of the shared state together with an assertion for the stage of every call. -/
structure Outline (Inv : σ → Prop) (Assertion : Nat → σ → τ → Prop) (c : Calls σ τ) : Prop where
  shared : Inv c.shared
  stages : ∀ i, Assertion i c.shared (c.stage i)

variable {act : Nat → α → σ → τ → Option (σ × τ)} {Inv : σ → Prop} {Assertion : Nat → σ → τ → Prop}

/-- A step keeps an outline when it keeps the invariant, establishes the assertion of its own next
stage and does not interfere with the assertions of the other calls. -/
theorem Outline.step {c c' : Calls σ τ} {i : Nat} {a : α} (hc : c.Outline Inv Assertion)
    (hstep : c.step act (i, a) = some c')
    (hown : ∀ s t, act i a c.shared (c.stage i) = some (s, t) → Inv s ∧ Assertion i s t)
    (hothers : ∀ s t, act i a c.shared (c.stage i) = some (s, t) →
      ∀ j u, j ≠ i → Assertion j c.shared u → Assertion j s u) : c'.Outline Inv Assertion := by
  obtain ⟨⟨s, t⟩, hact, rfl⟩ := map_eq_some_iff.mp hstep
  obtain ⟨hinv, hassert⟩ := hown s t hact
  refine ⟨hinv, fun j => ?_⟩
  by_cases hj : j = i
  · subst hj
    simpa using hassert
  · simpa [Function.update_of_ne hj] using hothers s t hact j (c.stage j) hj (hc.stages j)

end Calls
end Freenet.Lib
