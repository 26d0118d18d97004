import Freenet.Lib.Machine
import Freenet.Node.OpManager

/-! Root operations and their sub-operations, what the end of one does, and what the client is
sent. -/
namespace Freenet.Node
open Lib SubOperationTracker Table
variable {D : Type}

inductive ClientResult (D : Type) where
  | operation (op : OpEnum D)
  | subOperationFailed (child : Transaction)
  | subOperationTimedOut (child : Transaction)

def ClientResult.isError : ClientResult D → Bool
  | .operation _ => false
  | .subOperationFailed _ | .subOperationTimedOut _ => true

namespace SubOperationTracker
variable (t : SubOperationTracker D)

def awaitingOp (root : Transaction) : Option (OpEnum D) :=
  (t.rootOpsAwaitingSubOps.find? (·.1 = root)).map (·.2)

def park (root : Transaction) (op : OpEnum D) : SubOperationTracker D :=
  { t with rootOpsAwaitingSubOps := (root, op) :: t.rootOpsAwaitingSubOps.filter (·.1 ≠ root) }

def unpark (root : Transaction) : SubOperationTracker D :=
  { t with rootOpsAwaitingSubOps := t.rootOpsAwaitingSubOps.filter (·.1 ≠ root) }

def failParent (root : Transaction) : SubOperationTracker D :=
  { t with failedParents := root :: t.failedParents }

def unfailParent (root : Transaction) : SubOperationTracker D :=
  { t with failedParents := t.failedParents.filter (· ≠ root) }

def endChild (parent child : Transaction) : SubOperationTracker D :=
  (t.removeChildLink parent child).markSubOpCompleted parent

end SubOperationTracker

namespace OpManager
variable (m : OpManager D)

def markCompleted (id : Transaction) : OpManager D :=
  { m with
    peerForTx := m.peerForTx.remove id
    underProgress := m.underProgress.filter (· ≠ id)
    completedOps := id :: m.completedOps }

def completedWithin : Nat → OpManager D → Transaction → OpManager D × List (Transaction × ClientResult D)
  | 0, m, id => (m.markCompleted id, [])
  | fuel + 1, m, id =>
    match m.subOpTracker.parentOf.get id with
    | none => (m.markCompleted id, [])
    | some parent =>
      let tracker := m.subOpTracker.endChild parent id
      if tracker.allSubOperationsCompleted parent (id :: m.completedOps) then
        match tracker.awaitingOp parent with
        | some op =>
          let (m', sent) := completedWithin fuel
            { m.markCompleted id with subOpTracker := tracker.finishRoot parent } parent
          (m', sent ++ [(parent, .operation op)])
        | none => ({ m.markCompleted id with subOpTracker := tracker }, [])
      else ({ m.markCompleted id with subOpTracker := tracker }, [])

def completedSending (id : Transaction) : OpManager D × List (Transaction × ClientResult D) :=
  completedWithin (m.subOpTracker.rootOpsAwaitingSubOps.length + 1) m id

def subOperationFailed (child : Transaction) : OpManager D × List (Transaction × ClientResult D) :=
  match m.subOpTracker.parentOf.get child with
  | none => (m, [])
  | some parent =>
    let tracker := m.subOpTracker.endChild parent child
    let aborted := if tracker.isAwaiting parent then tracker.unpark parent else tracker.failParent parent
    let (m', sent) :=
      completedSending { m with subOpTracker := aborted.cleanupParentTracking parent } parent
    (m', sent ++ [(parent, .subOperationFailed child)])

/-- The garbage collector removed a sub-operation that timed out. -/
def subOperationTimedOut (child : Transaction) : OpManager D × List (Transaction × ClientResult D) :=
  match m.subOpTracker.parentOf.get child with
  | none => (m, [])
  | some parent =>
    let tracker := (m.subOpTracker.endChild parent child).unpark parent
    ({ m with subOpTracker := tracker.cleanupParentTracking parent },
      [(parent, .subOperationTimedOut child)])

def finalize (id : Transaction) (op : OpEnum D) : OpManager D × List (Transaction × ClientResult D) :=
  if id ∈ m.subOpTracker.failedParents then
    completedSending { m with subOpTracker := m.subOpTracker.unfailParent id } id
  else if m.subOpTracker.allSubOperationsCompleted id m.completedOps then
    let (m', sent) := m.completedSending id
    (m', sent ++ if (m'.subOpTracker.parentOf.get id).isSome then [] else [(id, .operation op)])
  else ({ m with subOpTracker := m.subOpTracker.park id op }, [])

variable {m}

theorem isSome_awaitingOp (t : SubOperationTracker D) (root : Transaction) :
    (t.awaitingOp root).isSome = t.isAwaiting root := by
  unfold awaitingOp isAwaiting
  rw [Option.isSome_map, Bool.eq_iff_iff, List.find?_isSome, List.any_eq_true]

/-- With a number of roots that is large enough, the operation manager ends up as `completed` leaves
it. -/
theorem completedWithin_fst {fuel : Nat} (id : Transaction)
    (hfuel : m.subOpTracker.rootOpsAwaitingSubOps.length < fuel) :
    (completedWithin fuel m id).1 = m.completed id := by
  induction fuel generalizing m id with
  | zero => omega
  | succ fuel ih =>
    rw [completed, completedWithin]
    cases hparent : m.subOpTracker.parentOf.get id with
    | none => rfl
    | some parent =>
      have hawait := isSome_awaitingOp (m.subOpTracker.endChild parent id) parent
      dsimp only
      by_cases hall : (m.subOpTracker.endChild parent id).allSubOperationsCompleted parent
          (id :: m.completedOps) = true
      · rw [if_pos hall]
        cases hop : (m.subOpTracker.endChild parent id).awaitingOp parent with
        | none =>
          rw [hop] at hawait
          rw [dif_neg fun h => Bool.false_ne_true (hawait.trans h.2)]
          rfl
        | some op =>
          rw [hop] at hawait
          rw [dif_pos ⟨hall, hawait.symm⟩]
          refine ih parent ?_
          have hlt := length_rootOps_finishRoot_lt _ parent hawait.symm
          have hsame : (m.subOpTracker.endChild parent id).rootOpsAwaitingSubOps =
              m.subOpTracker.rootOpsAwaitingSubOps := markSubOpCompleted_rootOps _ _
          rw [hsame] at hlt
          exact Nat.lt_of_lt_of_le hlt (Nat.le_of_lt_succ hfuel)
      · rw [if_neg hall, dif_neg fun h => hall h.1]
        rfl

theorem completedSending_fst (id : Transaction) : (m.completedSending id).1 = m.completed id :=
  completedWithin_fst id (Nat.lt_succ_self _)

end OpManager

inductive Ending where
  | completed
  | failed
  | timedOut
  deriving DecidableEq

def OpManager.endSubOperation (m : OpManager D) (child : Transaction) :
    Ending → OpManager D × List (Transaction × ClientResult D)
  | .completed => m.completedSending child
  | .failed => m.subOperationFailed child
  | .timedOut => m.subOperationTimedOut child

inductive SubOpEvent (D : Type) where
  | register (root child : Transaction)
  | childEnds (child : Transaction) (e : Ending)
  | finalize (root : Transaction) (op : OpEnum D)

/-- The operation manager with its history: the sub-operations registered under each root, how they
ended, the roots that were finalized, and the results sent to clients. -/
structure SubOpHistory (D : Type) where
  manager : OpManager D
  registered : List (Transaction × Transaction)
  ended : List (Transaction × Ending)
  finalized : List Transaction
  sent : List (Transaction × ClientResult D)

namespace SubOpHistory

def new : SubOpHistory D := ⟨.new, [], [], [], []⟩

variable (s : SubOpHistory D)

def tracker : SubOperationTracker D := s.manager.subOpTracker

def IsChild (tx : Transaction) : Prop := tx ∈ s.registered.map Prod.snd

def IsEnded (tx : Transaction) : Prop := tx ∈ s.ended.map Prod.fst

instance (tx : Transaction) : Decidable (s.IsChild tx) := inferInstanceAs (Decidable (_ ∈ _))

instance (tx : Transaction) : Decidable (s.IsEnded tx) := inferInstanceAs (Decidable (_ ∈ _))

/-- An id that was not used before. -/
def Fresh (tx : Transaction) : Prop :=
  ¬ s.IsChild tx ∧ tx ∉ s.registered.map Prod.fst ∧ ¬ s.IsEnded tx ∧ tx ∉ s.finalized

instance (tx : Transaction) : Decidable (s.Fresh tx) := inferInstanceAs (Decidable (_ ∧ _))

/-- Go on with an operation manager that has sent these results. -/
def answering (result : OpManager D × List (Transaction × ClientResult D)) : SubOpHistory D :=
  { s with manager := result.1, sent := s.sent ++ result.2 }

def registering (root child : Transaction) : SubOpHistory D :=
  { s with
    manager := { s.manager with subOpTracker := s.tracker.expectAndRegisterSubOperation root child }
    registered := (root, child) :: s.registered }

def ending (child : Transaction) (e : Ending) : SubOpHistory D :=
  { s.answering (s.manager.endSubOperation child e) with ended := (child, e) :: s.ended }

def finalizing (root : Transaction) (op : OpEnum D) : SubOpHistory D :=
  { s.answering (s.manager.finalize root op) with finalized := root :: s.finalized }

/-- Sub-operations are registered, under an id of their own, for operations that are none
themselves. An operation is finalized once, as it is no longer kept then; a sub-operation that is
finalized ends as completed. -/
def step : SubOpEvent D → Option (SubOpHistory D)
  | .register root child =>
    if s.Fresh child ∧ child ≠ root ∧ ¬ s.IsChild root then some (s.registering root child) else none
  | .childEnds child e => some (s.ending child e)
  | .finalize root op =>
    if root ∉ s.finalized ∧ ¬ s.IsChild root then some (s.finalizing root op) else none

end SubOpHistory

def subOpMachine (D : Type) : Machine (SubOpHistory D) (SubOpEvent D) where
  init s := s = .new
  step := SubOpHistory.step

namespace SubOperationTracker
variable (t : SubOperationTracker D) (root parent child : Transaction)

def expected : Nat := (t.expectedSubOperations.get root).getD 0

theorem expected_expectAndRegister : (t.expectAndRegisterSubOperation parent child).expected root =
      if root = parent then t.expected root + 1 else t.expected root := by
  unfold expected expectAndRegisterSubOperation
  rw [get_insert]
  split_ifs with hroot
  · rw [hroot]
    rfl
  · rfl

theorem expected_endChild : (t.endChild parent child).expected root =
    if root = parent then t.expected root - 1 else t.expected root := by
  unfold expected endChild markSubOpCompleted removeChildLink
  cases hget : t.expectedSubOperations.get parent with
  | none =>
    split_ifs with hroot
    · rw [hroot, hget]
      rfl
    · rfl
  | some expected =>
    dsimp only
    split_ifs with hlast hroot hroot
    · rw [hroot, get_remove_self, hget]
      exact hlast.symm
    · rw [get_remove_of_ne hroot]
    · rw [hroot, get_insert_self, hget]
      rfl
    · rw [get_insert_of_ne hroot]

theorem expected_cleanupParentTracking : (t.cleanupParentTracking parent).expected root =
    if root = parent then 0 else t.expected root := by
  unfold expected cleanupParentTracking
  rw [get_remove]
  split_ifs
  · rfl
  · rfl

theorem expected_cleanupParentTracking_self : (t.cleanupParentTracking parent).expected parent = 0 := by
  rw [expected_cleanupParentTracking, if_pos rfl]

theorem endChild_rootOps : (t.endChild parent child).rootOpsAwaitingSubOps = t.rootOpsAwaitingSubOps :=
  markSubOpCompleted_rootOps _ _

theorem endChild_failedParents : (t.endChild parent child).failedParents = t.failedParents := by
  unfold endChild markSubOpCompleted
  cases (t.removeChildLink parent child).expectedSubOperations.get parent with
  | none => rfl
  | some expected => rfl

theorem endChild_parentOf : (t.endChild parent child).parentOf = t.parentOf.remove child := by
  unfold endChild markSubOpCompleted
  cases (t.removeChildLink parent child).expectedSubOperations.get parent with
  | none => rfl
  | some expected => rfl

theorem isAwaiting_endChild : (t.endChild parent child).isAwaiting root = t.isAwaiting root := by
  unfold isAwaiting
  rw [endChild_rootOps]

theorem isAwaiting_unpark :
    (t.unpark parent).isAwaiting root = (decide (root ≠ parent) && t.isAwaiting root) := by
  unfold isAwaiting unpark
  rw [List.any_filter, Bool.eq_iff_iff]
  simp only [Bool.and_eq_true, List.any_eq_true, decide_eq_true_eq, decide_not, Bool.not_eq_true']
  constructor
  · rintro ⟨link, hlink, hne, rfl⟩
    exact ⟨hne, link, hlink, rfl⟩
  · rintro ⟨hne, link, hlink, rfl⟩
    exact ⟨link, hlink, hne, rfl⟩

theorem isAwaiting_unpark_self : (t.unpark parent).isAwaiting parent = false := by
  rw [isAwaiting_unpark]
  simp

variable (op : OpEnum D)

theorem isAwaiting_park :
    (t.park parent op).isAwaiting root = (decide (root = parent) || t.isAwaiting root) := by
  have hpark : (t.park parent op).isAwaiting root =
      (decide (parent = root) || (t.unpark parent).isAwaiting root) := rfl
  rw [hpark, isAwaiting_unpark]
  by_cases hroot : root = parent
  · simp [hroot]
  · simp [hroot, Ne.symm hroot]

@[simp]
theorem expected_park : (t.park parent op).expected root = t.expected root := rfl

@[simp]
theorem expected_unfailParent : (t.unfailParent parent).expected root = t.expected root := rfl

@[simp]
theorem isAwaiting_unfailParent : (t.unfailParent parent).isAwaiting root = t.isAwaiting root := rfl

@[simp]
theorem expected_unpark : (t.unpark parent).expected root = t.expected root := rfl

@[simp]
theorem parentOf_unpark : (t.unpark parent).parentOf = t.parentOf := rfl

@[simp]
theorem subOperations_unpark : (t.unpark parent).subOperations = t.subOperations := rfl

@[simp]
theorem failedParents_unpark : (t.unpark parent).failedParents = t.failedParents := rfl

@[simp]
theorem mem_failedParents_unfailParent : root ∈ (t.unfailParent parent).failedParents ↔
    root ∈ t.failedParents ∧ root ≠ parent := by
  simp [unfailParent]

end SubOperationTracker

namespace OpManager
variable {m : OpManager D} {id parent : Transaction}

theorem completedWithin_of_root (h : m.subOpTracker.parentOf.get id = none) (fuel : Nat) :
    completedWithin fuel m id = (m.markCompleted id, []) := by
  cases fuel with
  | zero => rfl
  | succ fuel =>
    unfold completedWithin
    rw [h]

theorem completedSending_of_root (h : m.subOpTracker.parentOf.get id = none) :
    m.completedSending id = (m.markCompleted id, []) :=
  completedWithin_of_root h _

theorem endSubOperation_of_root (e : Ending) (h : m.subOpTracker.parentOf.get id = none) :
    ∃ m', m.endSubOperation id e = (m', []) ∧ m'.subOpTracker = m.subOpTracker := by
  cases e with
  | completed => exact ⟨_, completedSending_of_root h, rfl⟩
  | failed => exact ⟨m, by rw [endSubOperation, subOperationFailed, h], rfl⟩
  | timedOut => exact ⟨m, by rw [endSubOperation, subOperationTimedOut, h], rfl⟩

theorem parentOf_endChild (hroot : m.subOpTracker.parentOf.get parent = none) :
    (m.subOpTracker.endChild parent id).parentOf.get parent = none := by
  rw [endChild_parentOf, get_remove, hroot]
  exact ite_self none

theorem completedSending_of_last {op : OpEnum D} (hparent : m.subOpTracker.parentOf.get id = some parent)
    (hroot : m.subOpTracker.parentOf.get parent = none)
    (hall : (m.subOpTracker.endChild parent id).allSubOperationsCompleted parent
      (id :: m.completedOps) = true)
    (hop : (m.subOpTracker.endChild parent id).awaitingOp parent = some op) :
    m.completedSending id = ({ (m.markCompleted id).markCompleted parent with
          subOpTracker := (m.subOpTracker.endChild parent id).finishRoot parent },
        [(parent, .operation op)]) := by
  have hnone : ({ m.markCompleted id with
      subOpTracker := (m.subOpTracker.endChild parent id).finishRoot parent } :
        OpManager D).subOpTracker.parentOf.get parent = none := parentOf_endChild hroot
  unfold completedSending
  rw [completedWithin, hparent]
  dsimp only
  rw [if_pos hall, hop]
  rw [completedWithin_of_root hnone]
  rfl

/-- A sub-operation completes whose root still waits for others or is not parked: nothing is
sent. -/
theorem completedSending_of_waiting (hparent : m.subOpTracker.parentOf.get id = some parent)
    (h : (m.subOpTracker.endChild parent id).allSubOperationsCompleted parent (id :: m.completedOps) = true →
      (m.subOpTracker.endChild parent id).awaitingOp parent = none) :
    m.completedSending id =
      ({ m.markCompleted id with subOpTracker := m.subOpTracker.endChild parent id }, []) := by
  unfold completedSending
  rw [completedWithin, hparent]
  dsimp only
  split_ifs with hall
  · rw [h hall]
  · rfl

theorem expected_of_allSubOperationsCompleted {t : SubOperationTracker D} {completed : List Transaction}
    (h : t.allSubOperationsCompleted parent completed = true) : t.expected parent = 0 := by
  unfold allSubOperationsCompleted at h
  simp only [decide_eq_true_eq] at h
  exact h.1

section
variable (hparent : m.subOpTracker.parentOf.get id = some parent)
include hparent

/-- A sub-operation completes: its parked root is answered once no sub-operation is expected any
more, and otherwise nothing is sent. -/
theorem completedSending_of_child (hroot : m.subOpTracker.parentOf.get parent = none) :
    (∃ op, (m.subOpTracker.endChild parent id).expected parent = 0 ∧
        m.subOpTracker.isAwaiting parent = true ∧
        m.completedSending id = ({ (m.markCompleted id).markCompleted parent with
              subOpTracker := (m.subOpTracker.endChild parent id).finishRoot parent },
            [(parent, .operation op)])) ∨
      m.completedSending id =
        ({ m.markCompleted id with subOpTracker := m.subOpTracker.endChild parent id }, []) := by
  by_cases hlast : (m.subOpTracker.endChild parent id).allSubOperationsCompleted parent
      (id :: m.completedOps) = true ∧ (m.subOpTracker.endChild parent id).awaitingOp parent ≠ none
  · left
    obtain ⟨hall, hsome⟩ := hlast
    obtain ⟨op, hop⟩ := Option.ne_none_iff_exists'.mp hsome
    have hawait := isSome_awaitingOp (m.subOpTracker.endChild parent id) parent
    rw [hop, isAwaiting_endChild] at hawait
    exact ⟨op, expected_of_allSubOperationsCompleted hall, hawait.symm,
      completedSending_of_last hparent hroot hall hop⟩
  · right
    exact completedSending_of_waiting hparent fun hall => by
      by_contra hsome
      exact hlast ⟨hall, hsome⟩

/-- A sub-operation fails: its root is aborted if it is parked and marked as failed if it is not,
and its client is told. -/
theorem subOperationFailed_of_child (hroot : m.subOpTracker.parentOf.get parent = none) :
    m.subOperationFailed id = (({ m with subOpTracker := (if m.subOpTracker.isAwaiting parent = true
          then (m.subOpTracker.endChild parent id).unpark parent
          else (m.subOpTracker.endChild parent id).failParent parent).cleanupParentTracking parent } :
            OpManager D).markCompleted parent, [(parent, .subOperationFailed id)]) := by
  have hnone : (m.subOpTracker.endChild parent id).parentOf.get parent = none := parentOf_endChild hroot
  unfold subOperationFailed
  rw [hparent]
  dsimp only
  rw [isAwaiting_endChild]
  split_ifs
  all_goals
    rw [completedSending_of_root hnone]
    rfl

theorem subOperationTimedOut_of_child :
    m.subOperationTimedOut id = ({ m with subOpTracker :=
          ((m.subOpTracker.endChild parent id).unpark parent).cleanupParentTracking parent },
        [(parent, .subOperationTimedOut id)]) := by
  unfold subOperationTimedOut
  rw [hparent]

end

theorem finalize_of_root (op : OpEnum D) (hroot : m.subOpTracker.parentOf.get id = none) :
    (id ∈ m.subOpTracker.failedParents ∧ ∃ m', m.finalize id op = (m', []) ∧
        m'.subOpTracker = m.subOpTracker.unfailParent id) ∨
      (id ∉ m.subOpTracker.failedParents ∧ m.subOpTracker.expected id = 0 ∧
        ∃ m', m.finalize id op = (m', [(id, .operation op)]) ∧ m'.subOpTracker = m.subOpTracker) ∨
      id ∉ m.subOpTracker.failedParents ∧ ∃ m', m.finalize id op = (m', []) ∧
        m'.subOpTracker = m.subOpTracker.park id op := by
  unfold finalize
  by_cases hfail : id ∈ m.subOpTracker.failedParents
  · have hnone : ({ m with subOpTracker := m.subOpTracker.unfailParent id } :
        OpManager D).subOpTracker.parentOf.get id = none := hroot
    rw [if_pos hfail, completedSending_of_root hnone]
    exact .inl ⟨hfail, _, rfl, rfl⟩
  rw [if_neg hfail]
  right
  by_cases hall : m.subOpTracker.allSubOperationsCompleted id m.completedOps = true
  · have hexp := expected_of_allSubOperationsCompleted hall
    have hmark : (m.markCompleted id).subOpTracker.parentOf.get id = none := hroot
    rw [if_pos hall, completedSending_of_root hroot]
    dsimp only
    rw [hmark]
    exact .inl ⟨hfail, hexp, _, rfl, rfl⟩
  · rw [if_neg hall]
    exact .inr ⟨hfail, _, rfl, rfl⟩

end OpManager
end Freenet.Node
