import Mathlib.Logic.Function.Iterate
import Mathlib.Tactic.Common

/-! Programs that change a state and may stop with an error, the invariants they keep, and loops of
them. -/
namespace Freenet.Lib.Task

variable {σ ε α β : Type}

/-- Run a program to its end and hand on what it ended in, an error included. -/
def attempt (m : EStateM ε σ α) : EStateM ε σ (Except ε α) := fun s =>
  match m s with
  | .ok a s' => .ok (.ok a) s'
  | .error e s' => .ok (.error e) s'

/-- The state a program leaves behind. -/
def finalState (m : EStateM ε σ α) (s : σ) : σ :=
  match m s with
  | .ok _ s' => s'
  | .error _ s' => s'

def outcome (m : EStateM ε σ α) (s : σ) : Except ε α :=
  match m s with
  | .ok a _ => .ok a
  | .error e _ => .error e

variable {m : EStateM ε σ α} {f : α → EStateM ε σ β} {s s' : σ} {a : α} {e : ε}

theorem bind_of_ok (h : m s = .ok a s') : (m >>= f) s = f a s' := by
  change EStateM.bind m f s = f a s'
  simp [EStateM.bind, h]

theorem bind_of_error (h : m s = .error e s') : (m >>= f) s = .error e s' := by
  change EStateM.bind m f s = .error e s'
  simp [EStateM.bind, h]

theorem modifyGet_of_eq {f : σ → α × σ} (h : f s = (a, s')) :
    (modifyGet f : EStateM ε σ α) s = .ok a s' := by
  change EStateM.Result.ok (f s).1 (f s).2 = .ok a s'
  rw [h]

theorem attempt_of_ok (h : m s = .ok a s') : attempt m s = .ok (.ok a) s' := by
  simp [attempt, h]

theorem attempt_of_error (h : m s = .error e s') : attempt m s = .ok (.error e) s' := by
  simp [attempt, h]

theorem finalState_of_ok (h : m s = .ok a s') : finalState m s = s' := by
  simp [finalState, h]

theorem finalState_of_error (h : m s = .error e s') : finalState m s = s' := by
  simp [finalState, h]

theorem finalState_bind_of_ok (h : m s = .ok a s') : finalState (m >>= f) s = finalState (f a) s' := by
  unfold finalState
  rw [bind_of_ok h]

theorem run_eq (m : EStateM ε σ α) (s : σ) : m s = match outcome m s with
    | .ok a => .ok a (finalState m s)
    | .error e => .error e (finalState m s) := by
  unfold outcome finalState
  cases m s <;> rfl

/-- Programs with the same outcome that go on with the same outcome. -/
theorem outcome_bind_congr {m' : EStateM ε σ α} {f' : α → EStateM ε σ β} (h : outcome m s = outcome m' s')
    (hf : ∀ a, outcome m s = .ok a → outcome (f a) (finalState m s) = outcome (f' a) (finalState m' s')) :
    outcome (m >>= f) s = outcome (m' >>= f') s' := by
  have hleft := run_eq m s
  have hright := run_eq m' s'
  rw [← h] at hright
  cases hm : outcome m s with
  | ok a =>
    rw [hm] at hleft hright
    simpa only [outcome, bind_of_ok hleft, bind_of_ok hright] using hf a hm
  | error e =>
    rw [hm] at hleft hright
    simp only [outcome, bind_of_error hleft, bind_of_error hright]

/-- Started where `Pre` holds, the program returns where `Post` holds of the result, or stops where
`Err` holds of the error. -/
def Triple (Pre : σ → Prop) (m : EStateM ε σ α) (Post : α → σ → Prop) (Err : ε → σ → Prop) : Prop :=
  ∀ s, Pre s → match m s with
    | .ok a s' => Post a s'
    | .error e s' => Err e s'

/-- Started where `Pre` holds, the program ends where `Q` holds, with a result or an error. -/
abbrev Leads (Pre : σ → Prop) (m : EStateM ε σ α) (Q : σ → Prop) : Prop :=
  Triple Pre m (fun _ => Q) (fun _ => Q)

/-- The result, if there is one, is as `Post` says. -/
abbrev Yields (Pre : σ → Prop) (m : EStateM ε σ α) (Post : α → σ → Prop) : Prop :=
  Triple Pre m Post fun _ _ => True

variable {Pre Pre' : σ → Prop} {Post Post' : α → σ → Prop} {Err Err' : ε → σ → Prop}

section
variable (h : Triple Pre m Post Err)
include h

theorem Triple.ok (hs : Pre s) (hrun : m s = .ok a s') : Post a s' := by
  have hm := h s hs
  rw [hrun] at hm
  exact hm

theorem post_of_outcome (hs : Pre s) (hm : outcome m s = .ok a) : Post a (finalState m s) :=
  h.ok hs (by rw [run_eq m, hm])

theorem Triple.error (hs : Pre s) (hrun : m s = .error e s') : Err e s' := by
  have hm := h s hs
  rw [hrun] at hm
  exact hm

end

theorem triple_any : Triple (fun _ => True) m (fun _ _ => True) (fun _ _ => True) := by
  intro s _
  cases m s <;> trivial

theorem triple_pure (h : ∀ s, Pre s → Post a s) : Triple Pre (pure a : EStateM ε σ α) Post Err :=
  h

theorem triple_throw (h : ∀ s, Pre s → Err e s) : Triple Pre (throw e : EStateM ε σ α) Post Err :=
  h

theorem triple_skip : Triple Pre (pure a : EStateM ε σ α) (fun _ => Pre) Err :=
  triple_pure fun _ hs => hs

theorem triple_fail : Triple Pre (throw e : EStateM ε σ α) Post (fun _ => Pre) :=
  triple_throw fun _ hs => hs

theorem triple_modify {f : σ → σ} {Post : Unit → σ → Prop} (h : ∀ s, Pre s → Post () (f s)) :
    Triple Pre (modify f : EStateM ε σ Unit) Post Err :=
  h

theorem triple_modifyGet {f : σ → α × σ} (h : ∀ s, Pre s → Post (f s).1 (f s).2) :
    Triple Pre (modifyGet f : EStateM ε σ α) Post Err :=
  h

section
variable (h : Triple Pre m Post Err)
include h

theorem Triple.weaken (hpre : ∀ s, Pre' s → Pre s)
    (hpost : ∀ a s, Post a s → Post' a s) (herr : ∀ e s, Err e s → Err' e s) :
    Triple Pre' m Post' Err' := by
  intro s hs
  cases hrun : m s with
  | ok a s' => exact hpost a s' (h.ok (hpre s hs) hrun)
  | error e s' => exact herr e s' (h.error (hpre s hs) hrun)

theorem Triple.of_pre (hpre : ∀ s, Pre' s → Pre s) : Triple Pre' m Post Err :=
  h.weaken hpre (fun _ _ hs => hs) (fun _ _ hs => hs)

theorem Triple.ends (hpost : ∀ a s, Post a s → Post' a s) (herr : ∀ e s, Err e s → Err' e s) :
    Triple Pre m Post' Err' :=
  h.weaken (fun _ hs => hs) hpost herr

theorem Triple.post (hpost : ∀ a s, Post a s → Post' a s) : Triple Pre m Post' Err :=
  h.ends hpost (fun _ _ hs => hs)

theorem Triple.err (herr : ∀ e s, Err e s → Err' e s) : Triple Pre m Post Err' :=
  h.ends (fun _ _ hs => hs) herr

theorem Triple.bind {R : β → σ → Prop}
    (hf : ∀ a, Triple (Post a) (f a) R Err) : Triple Pre (m >>= f) R Err := by
  intro s hs
  cases hrun : m s with
  | ok a s' =>
    rw [bind_of_ok hrun]
    exact hf a s' (h.ok hs hrun)
  | error e s' =>
    rw [bind_of_error hrun]
    exact h.error hs hrun

end

theorem triple_get_bind {f : σ → EStateM ε σ β} {R : β → σ → Prop}
    (h : ∀ s, Pre s → Triple (fun t => t = s) (f s) R Err) : Triple Pre (get >>= f) R Err := by
  intro s hs
  exact h s hs s rfl

theorem Triple.andThen {m' : EStateM ε σ β} {Mid : σ → Prop} {R : β → σ → Prop}
    (h : Triple Pre m (fun _ => Mid) Err) (h' : Triple Mid m' R Err) :
    Triple Pre (m >>= fun _ => m') R Err :=
  h.bind fun _ => h'

theorem Triple.attempt (h : Triple Pre m Post Err) :
    Triple Pre (attempt m) (fun r s => match r with
      | .ok a => Post a s
      | .error e => Err e s) Err' := by
  intro s hs
  cases hrun : m s with
  | ok a s' =>
    rw [attempt_of_ok hrun]
    exact h.ok hs hrun
  | error e s' =>
    rw [attempt_of_error hrun]
    exact h.error hs hrun

/-- What holds at the end of a program, however it ends, holds of the state it leaves behind. -/
theorem Triple.finalState {Q : σ → Prop} (h : Leads Pre m Q) (hs : Pre s) : Q (finalState m s) := by
  cases hrun : m s with
  | ok a s' =>
    rw [finalState_of_ok hrun]
    exact h.ok hs hrun
  | error e s' =>
    rw [finalState_of_error hrun]
    exact h.error hs hrun

theorem Triple.exists_ok (h : Triple Pre m Post (fun _ _ => False)) (hs : Pre s) :
    ∃ a s', m s = .ok a s' ∧ Post a s' := by
  cases hrun : m s with
  | ok a s' => exact ⟨a, s', rfl, h.ok hs hrun⟩
  | error e s' => exact (h.error hs hrun).elim

/-- A fact that does not depend on the state may be used to prove the triple. -/
theorem triple_of_fact {fact : Prop} (h : fact → Triple Pre m Post Err) :
    Triple (fun s => Pre s ∧ fact) m Post Err := by
  intro s hs
  exact h hs.2 s hs.1

/-- Started with `Inv` the program ends with `Inv`, and what it returns satisfies `P`. -/
def Keeps (Inv : σ → Prop) (m : EStateM ε σ α) (P : α → Prop) : Prop :=
  ∀ s, Inv s → match m s with
    | .ok a s' => Inv s' ∧ P a
    | .error _ s' => Inv s'

/-- Started with `Inv` the program ends with `Inv`. -/
abbrev Preserves (Inv : σ → Prop) (m : EStateM ε σ α) : Prop := Keeps Inv m fun _ => True

variable {Inv : σ → Prop} {P : α → Prop}

section
variable (h : Keeps Inv m P)
include h

theorem Keeps.triple : Triple Inv m (fun a s => Inv s ∧ P a) (fun _ s => Inv s) := by
  intro s hs
  exact h s hs

theorem Keeps.triple_inv : Leads Inv m Inv :=
  h.triple.post fun _ _ hs => hs.1

theorem Keeps.triple_weak {Q : σ → Prop} (hQ : ∀ s, Inv s → Q s) :
    Triple Inv m (fun _ => Inv) (fun _ => Q) :=
  h.triple_inv.err fun _ => hQ

theorem Keeps.triple_done : Triple Inv m (fun _ => Inv) (fun _ _ => True) :=
  h.triple_weak fun _ _ => trivial

end

theorem Triple.keeps (h : Leads Inv m Inv) : Preserves Inv m :=
  h.post fun _ _ hs => ⟨hs, trivial⟩

theorem keeps_pure (ha : P a) : Keeps Inv (pure a : EStateM ε σ α) P := by
  intro s hs
  exact ⟨hs, ha⟩

theorem keeps_done : Preserves Inv (pure a : EStateM ε σ α) :=
  keeps_pure trivial

theorem keeps_throw : Keeps Inv (throw e : EStateM ε σ α) P := by
  intro s hs
  exact hs

theorem keeps_get : Keeps Inv (get : EStateM ε σ σ) Inv := by
  intro s hs
  exact ⟨hs, hs⟩

theorem keeps_modify {f : σ → σ} (hf : ∀ s, Inv s → Inv (f s)) :
    Preserves Inv (modify f : EStateM ε σ Unit) := by
  intro s hs
  exact ⟨hf s hs, trivial⟩

theorem keeps_modifyGet {f : σ → α × σ} (hf : ∀ s, Inv s → Inv (f s).2 ∧ P (f s).1) :
    Keeps Inv (modifyGet f : EStateM ε σ α) P := by
  intro s hs
  exact hf s hs

theorem Keeps.bind {R : β → Prop} (h : Keeps Inv m P) (hf : ∀ a, P a → Keeps Inv (f a) R) :
    Keeps Inv (m >>= f) R :=
  h.triple.bind fun a => triple_of_fact fun ha => (hf a ha).triple

theorem Keeps.andThen {m' : EStateM ε σ β} {R : β → Prop} (h : Keeps Inv m P)
    (h' : Keeps Inv m' R) : Keeps Inv (m >>= fun _ => m') R :=
  h.bind fun _ _ => h'

theorem keeps_foldlM {f : β → α → EStateM ε σ β} (h : ∀ b a, Preserves Inv (f b a)) (as : List α)
    (b : β) : Preserves Inv (as.foldlM f b) := by
  induction as generalizing b with
  | nil => exact keeps_done
  | cons a as ih => exact (h b a).bind fun b' _ => ih b'

theorem Keeps.attempt_triple (h : Keeps Inv m P) :
    Triple Inv (attempt m) (fun r s => Inv s ∧ ∀ a, r = .ok a → P a) Err := by
  refine h.triple.attempt.post ?_
  intro r s hr
  cases r with
  | ok a =>
    refine ⟨hr.1, ?_⟩
    intro b hb
    cases hb
    exact hr.2
  | error e => exact ⟨hr, nofun⟩

theorem Keeps.attempt (h : Keeps Inv m P) : Keeps Inv (attempt m) fun r => ∀ a, r = .ok a → P a :=
  h.attempt_triple

theorem Keeps.finalState (h : Keeps Inv m P) (hs : Inv s) : Inv (finalState m s) :=
  h.triple_inv.finalState hs

/-- The program returns, wherever it is started. -/
def Succeeds (m : EStateM ε σ α) : Prop :=
  ∀ s, ∃ a s', m s = .ok a s'

theorem succeeds_pure (a : α) : Succeeds (pure a : EStateM ε σ α) := by
  intro s
  exact ⟨a, s, rfl⟩

theorem succeeds_get : Succeeds (get : EStateM ε σ σ) := by
  intro s
  exact ⟨s, s, rfl⟩

theorem succeeds_modify (f : σ → σ) : Succeeds (modify f : EStateM ε σ Unit) := by
  intro s
  exact ⟨(), f s, rfl⟩

theorem Succeeds.bind (h : Succeeds m) (hf : ∀ a, Succeeds (f a)) : Succeeds (m >>= f) := by
  intro s
  obtain ⟨a, s', hrun⟩ := h s
  rw [bind_of_ok hrun]
  exact hf a s'

theorem Keeps.triple_of_succeeds (h : Keeps Inv m P) (hm : Succeeds m) :
    Triple Inv m (fun _ => Inv) Err := by
  intro s hs
  obtain ⟨a, s', hrun⟩ := hm s
  rw [hrun]
  exact (h.triple.ok hs hrun).1

def loop (step : α → EStateM ε σ (β ⊕ α)) : Nat → α → EStateM ε σ (Option β)
  | 0, _ => pure none
  | n + 1, a => do
    let next ← step a
    match next with
    | .inl b => pure (some b)
    | .inr a' => loop step n a'

variable {step : α → EStateM ε σ (β ⊕ α)} {a' : α} {b : β} {n : Nat}

theorem loop_of_inl (h : step a s = .ok (.inl b) s') : loop step (n + 1) a s = .ok (some b) s' := by
  unfold loop
  rw [bind_of_ok h]
  rfl

theorem loop_of_inr (h : step a s = .ok (.inr a') s') : loop step (n + 1) a s = loop step n a' s' := by
  rw [loop, bind_of_ok h]

theorem loop_of_error (h : step a s = .error e s') : loop step (n + 1) a s = .error e s' := by
  rw [loop, bind_of_error h]

/-- What every step keeps holds when the loop is left, and also when it is cut short. -/
theorem keeps_loop {Inv : σ → Prop} (h : ∀ a, Keeps Inv (step a) fun _ => True) (n : Nat) (a : α) :
    Keeps Inv (loop step n a) fun _ => True := by
  induction n generalizing a with
  | zero => exact keeps_done
  | succ n ih =>
    refine (h a).bind ?_
    intro next _
    cases next with
    | inl b => exact keeps_done
    | inr a' => exact ih a'

/-- The loop is left, with a result or with an error. -/
def Ends (step : α → EStateM ε σ (β ⊕ α)) (a : α) (s : σ) : Prop :=
  ∃ n, (∃ b s', loop step n a s = .ok (some b) s') ∨ ∃ e s', loop step n a s = .error e s'

theorem ends_of_inr (h : step a s = .ok (.inr a') s') : Ends step a s ↔ Ends step a' s' := by
  constructor
  · rintro ⟨n, hends⟩
    cases n with
    | zero => rcases hends with ⟨_, _, hrun⟩ | ⟨_, _, hrun⟩ <;> cases hrun
    | succ n =>
      rw [loop_of_inr h] at hends
      exact ⟨n, hends⟩
  · rintro ⟨n, hends⟩
    refine ⟨n + 1, ?_⟩
    rw [loop_of_inr h]
    exact hends

theorem ends_of_no_next (h : ∀ a' s', step a s ≠ .ok (.inr a') s') : Ends step a s := by
  refine ⟨1, ?_⟩
  cases hstep : step a s with
  | error e s' => exact .inr ⟨e, s', loop_of_error hstep⟩
  | ok next s' =>
    cases next with
    | inl b => exact .inl ⟨b, s', loop_of_inl hstep⟩
    | inr a' => exact absurd hstep (h a' s')

/-- The loop goes on forever where every step leads to a next one. -/
theorem not_ends_of_next {P : α → σ → Prop}
    (h : ∀ a s, P a s → ∃ a' s', step a s = .ok (.inr a') s' ∧ P a' s') (hs : P a s) :
    ¬Ends step a s := by
  have hnone : ∀ n a s, P a s → ∃ s', loop step n a s = .ok none s' := by
    intro n
    induction n with
    | zero => exact fun _ s _ => ⟨s, rfl⟩
    | succ n ih =>
      intro a s hs
      obtain ⟨a', s', hstep, hs'⟩ := h a s hs
      rw [loop_of_inr hstep]
      exact ih a' s' hs'
  rintro ⟨n, hends⟩
  obtain ⟨s', hrun⟩ := hnone n a s hs
  rw [hrun] at hends
  rcases hends with ⟨_, _, hok⟩ | ⟨_, _, herror⟩
  · cases hok
  · cases herror

/-- A loop that does not end has steps that lead from one to the next without end. -/
theorem exists_endless (h : ¬Ends step a s) : ∃ values : Nat → α × σ, values 0 = (a, s) ∧
      ∀ n, step (values n).1 (values n).2 = .ok (.inr (values (n + 1)).1) (values (n + 1)).2 := by
  have hnext : ∀ v : { v : α × σ // ¬Ends step v.1 v.2 }, ∃ v' : { v : α × σ // ¬Ends step v.1 v.2 },
      step v.1.1 v.1.2 = .ok (.inr v'.1.1) v'.1.2 := by
    rintro ⟨⟨a, s⟩, hv⟩
    by_contra hno
    apply hv
    apply ends_of_no_next
    intro a' s' hstep
    exact hno ⟨⟨(a', s'), fun hends => hv ((ends_of_inr hstep).mpr hends)⟩, hstep⟩
  choose next hstep using hnext
  refine ⟨fun n => (next^[n] ⟨(a, s), h⟩).1, rfl, ?_⟩
  intro n
  dsimp only
  rw [Function.iterate_succ_apply']
  exact hstep _

/-! Programs that work on one part of a state, and when they do there what they do without the
other. -/

variable {σ τ ε α β : Type}

/-- Run a program on the first part of the state. -/
def onFst (m : EStateM ε σ α) : EStateM ε (σ × τ) α := fun s =>
  match m s.1 with
  | .ok a s' => .ok a (s', s.2)
  | .error e s' => .error e (s', s.2)

/-- Change the second part of the state. -/
def onSnd (f : τ → α × τ) : EStateM ε (σ × τ) α :=
  modifyGet fun s => ((f s.2).1, (s.1, (f s.2).2))

theorem onSnd_bind_eq (f : τ → α × τ) (k : α → EStateM ε (σ × τ) β) (s : σ × τ) :
    (onSnd f >>= k) s = k (f s.2).1 (s.1, (f s.2).2) :=
  bind_of_ok rfl

/-- What is left of a result without the second part of the state. -/
def forget : EStateM.Result ε (σ × τ) α → EStateM.Result ε σ α
  | .ok a s => .ok a s.1
  | .error e s => .error e s.1

/-- Started where `Pre` holds, the program does to the first part what `m'` does, and returns where
`Post` holds of the result. -/
def Refines (Pre : σ × τ → Prop) (m : EStateM ε (σ × τ) α) (m' : EStateM ε σ α)
    (Post : α → σ × τ → Prop) : Prop :=
  ∀ s, Pre s → forget (m s) = m' s.1 ∧ ∀ a s', m s = .ok a s' → Post a s'

variable {Pre : σ × τ → Prop} {m : EStateM ε (σ × τ) α} {m' : EStateM ε σ α}
  {Post : α → σ × τ → Prop}

theorem refines_pure {a : α} (h : ∀ s, Pre s → Post a s) :
    Refines Pre (pure a) (pure a : EStateM ε σ α) Post := by
  intro s hs
  refine ⟨rfl, ?_⟩
  intro b s' heq
  cases heq
  exact h s hs

theorem refines_throw (e : ε) : Refines Pre (throw e) (throw e : EStateM ε σ α) Post := by
  intro s _
  refine ⟨rfl, ?_⟩
  intro b s' heq
  cases heq

/-- A program on the first part leaves the second part as it is. -/
theorem refines_onFst (R : τ → Prop) (m' : EStateM ε σ α) :
    Refines (fun s => R s.2) (onFst m') m' fun _ s => R s.2 := by
  intro s hs
  unfold onFst
  cases m' s.1 with
  | ok a s' =>
    refine ⟨rfl, ?_⟩
    intro b s'' heq
    cases heq
    exact hs
  | error e s' =>
    refine ⟨rfl, ?_⟩
    intro b s'' heq
    cases heq

theorem Refines.onSnd_bind {f : τ → β × τ} {k : β → EStateM ε (σ × τ) α}
    (h : ∀ b, Refines (fun s => ∃ t, Pre (s.1, t) ∧ f t = (b, s.2)) (k b) m' Post) :
    Refines Pre (onSnd f >>= k) m' Post := by
  intro s hs
  exact h (f s.2).1 (s.1, (f s.2).2) ⟨s.2, hs, rfl⟩

theorem Refines.bind {k : α → EStateM ε (σ × τ) β} {k' : α → EStateM ε σ β}
    {Post' : β → σ × τ → Prop} (h : Refines Pre m m' Post)
    (hk : ∀ a, Refines (Post a) (k a) (k' a) Post') : Refines Pre (m >>= k) (m' >>= k') Post' := by
  intro s hs
  obtain ⟨hforg, hpost⟩ := h s hs
  cases hrun : m s with
  | ok a s' =>
    rw [hrun] at hforg
    have hrun' : m' s.1 = .ok a s'.1 := hforg.symm
    rw [bind_of_ok hrun, bind_of_ok hrun']
    exact hk a s' (hpost a s' hrun)
  | error e s' =>
    rw [hrun] at hforg
    have hrun' : m' s.1 = .error e s'.1 := hforg.symm
    rw [bind_of_error hrun, bind_of_error hrun']
    refine ⟨rfl, ?_⟩
    intro b s'' heq
    cases heq

variable {m : EStateM ε σ α} {Err : ε → σ → Prop}

theorem Triple.onFst {Pre : σ → Prop} {Post : α → σ → Prop}
    (h : Triple Pre m Post Err) (R : τ → Prop) :
    Triple (fun s => Pre s.1 ∧ R s.2) (onFst m) (fun a s => Post a s.1 ∧ R s.2)
      fun e s => Err e s.1 ∧ R s.2 := by
  intro s hs
  have hm := h s.1 hs.1
  unfold Task.onFst
  cases hrun : m s.1 with
  | ok a s' | error e s' =>
    rw [hrun] at hm
    exact ⟨hm, hs.2⟩

theorem Triple.onFst_ok {Pre : σ → Prop} {Post : α → σ → Prop}
    {Err : ε → σ × τ → Prop} (h : Triple Pre m Post fun _ _ => False) (R : τ → Prop) :
    Triple (fun s => Pre s.1 ∧ R s.2) (Task.onFst m) (fun a s => Post a s.1 ∧ R s.2) Err :=
  (h.onFst R).err fun _ _ hs => hs.1.elim

theorem onFst_attempt_of_ok {s : σ × τ} {a : α} {s' : σ} (h : m s.1 = .ok a s') :
    (onFst (attempt m) : EStateM ε (σ × τ) _) s = .ok (.ok a) (s', s.2) := by
  unfold onFst
  rw [attempt_of_ok h]

theorem onFst_attempt_of_error {s : σ × τ} {e : ε} {s' : σ} (h : m s.1 = .error e s') :
    (onFst (attempt m) : EStateM ε (σ × τ) _) s = .ok (.error e) (s', s.2) := by
  unfold onFst
  rw [attempt_of_error h]

theorem Triple.onFst_attempt_bind {Pre : σ → Prop} {Post : α → σ → Prop}
    {k : Except ε α → EStateM ε (σ × τ) β} {Q : β → σ × τ → Prop}
    {Err' : ε → σ × τ → Prop} (h : Triple Pre m Post Err) (R : τ → Prop)
    (hok : ∀ a, Triple (fun s => Post a s.1 ∧ R s.2) (k (.ok a)) Q Err')
    (herror : ∀ e, Triple (fun s => Err e s.1 ∧ R s.2) (k (.error e)) Q Err') :
    Triple (fun s => Pre s.1 ∧ R s.2) (Task.onFst (Task.attempt m) >>= k) Q Err' := by
  intro s hs
  have hm := h s.1 hs.1
  cases hrun : m s.1 with
  | ok a s' =>
    rw [hrun] at hm
    rw [bind_of_ok (onFst_attempt_of_ok hrun)]
    exact hok a (s', s.2) ⟨hm, hs.2⟩
  | error e s' =>
    rw [hrun] at hm
    rw [bind_of_ok (onFst_attempt_of_error hrun)]
    exact herror e (s', s.2) ⟨hm, hs.2⟩

theorem triple_onFst (R : τ → Prop) :
    Triple (fun s => R s.2) (onFst m) (fun _ s => R s.2) fun _ s => R s.2 :=
  (triple_any.onFst R).weaken (fun _ hs => ⟨trivial, hs⟩) (fun _ _ hs => hs.2) fun _ _ hs => hs.2

theorem triple_onSnd_bind {f : τ → β × τ} {k : β → EStateM ε (σ × τ) α} {Err : ε → σ × τ → Prop}
    (h : ∀ s, Pre s → Triple (fun s' => s' = (s.1, (f s.2).2)) (k (f s.2).1) Post Err) :
    Triple Pre (onSnd f >>= k) Post Err := by
  intro s hs
  exact h s hs _ rfl

def rethrowAfter (k : EStateM ε (σ × τ) Unit) : Except ε α → EStateM ε (σ × τ) α
  | .ok a => pure a
  | .error e => k >>= fun _ => throw e

theorem refines_rethrow {m' : EStateM ε σ α} {k : EStateM ε (σ × τ) Unit}
    (hk : Refines (fun _ => True) k (pure ()) fun _ _ => True) :
    Refines (fun _ => True) (onFst (attempt m') >>= rethrowAfter k) m' fun _ _ => True := by
  intro s _
  refine ⟨?_, fun _ _ _ => trivial⟩
  cases hrun : m' s.1 with
  | ok a s' =>
    rw [bind_of_ok (onFst_attempt_of_ok hrun)]
    rfl
  | error e s' =>
    rw [bind_of_ok (onFst_attempt_of_error hrun)]
    have hthrow : Refines (fun _ => True) (k >>= fun _ => throw e)
        (pure () >>= fun _ => throw e : EStateM ε σ α) fun _ _ => True :=
      hk.bind fun _ => refines_throw e
    exact (hthrow (s', s.2) trivial).1

end Freenet.Lib.Task
