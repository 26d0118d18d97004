import Freenet.Node.SubOperations
import Mathlib.Algebra.BigOperators.Group.Finset.Basic

/-! The finalization of a root beside the completion of its sub-operations, one map operation at a
time. -/
namespace Freenet.Node
open Lib Finset

section Stages
/-- What a root's finalization does next: `handle_op_result` for a finalized operation without a
message. -/
inductive FinalizeStage where
  | checkFailed
  | checkCount
  | checkChildren
  | complete
  | answer
  | park
  | drop
  | done
  deriving DecidableEq

/-- What the completion of a sub-operation does next; from `unlinkChild` on it knows the parent, and
from `cleanCount` on the operation that was parked under it. -/
inductive CompletionStage (D : Type) where
  | markCompleted
  | findParent
  | unlinkChild (parent : Transaction)
  | dropChildren (parent : Transaction)
  | dropLink (parent : Transaction)
  | countDown (parent : Transaction)
  | dropCount (parent : Transaction)
  | checkCount (parent : Transaction)
  | checkChildren (parent : Transaction)
  | takeRoot (parent : Transaction)
  | cleanCount (parent : Transaction) (op : OpEnum D)
  | cleanChildren (parent : Transaction) (op : OpEnum D)
  | unmarkFailed (parent : Transaction) (op : OpEnum D)
  | completeRoot (parent : Transaction) (op : OpEnum D)
  | sendResult (parent : Transaction) (op : OpEnum D)
  | done

/-- The maps that finalization and completions share, and the results that were sent. -/
structure SharedMaps (D : Type) where
  tracker : SubOperationTracker D
  completedOps : List Transaction
  sent : List (Transaction × OpEnum D)

variable {D : Type}

def FinalizeStage.next (root : Transaction) (op : OpEnum D) (maps : SharedMaps D) :
    FinalizeStage → Option (FinalizeStage × SharedMaps D)
  | checkFailed =>
    if root ∈ maps.tracker.failedParents then
      some (drop, { maps with tracker := maps.tracker.unfailParent root })
    else some (checkCount, maps)
  | checkCount => if 0 < maps.tracker.expected root then some (park, maps) else some (checkChildren, maps)
  | checkChildren =>
    -- the entry stays locked while its members are looked up
    if ((maps.tracker.subOperations.get root).getD []).all (· ∈ maps.completedOps) then
      some (complete, maps)
    else some (park, maps)
  | complete => some (answer, { maps with completedOps := root :: maps.completedOps })
  | answer => some (done, { maps with sent := maps.sent ++ [(root, op)] })
  | park => some (done, { maps with tracker := maps.tracker.park root op })
  | drop => some (done, { maps with completedOps := root :: maps.completedOps })
  | done => none

def CompletionStage.next (child : Transaction) (maps : SharedMaps D) :
    CompletionStage D → Option (CompletionStage D × SharedMaps D)
  | markCompleted => some (findParent, { maps with completedOps := child :: maps.completedOps })
  | findParent =>
    match maps.tracker.parentOf.get child with
    | none => some (done, maps)
    | some parent => some (unlinkChild parent, maps)
  | unlinkChild parent =>
    match maps.tracker.subOperations.get parent with
    | none => some (dropLink parent, maps)
    | some children =>
      let rest := children.filter (· ≠ child)
      some (if rest = [] then dropChildren parent else dropLink parent,
        { maps with tracker := { maps.tracker with
            subOperations := maps.tracker.subOperations.insert parent rest } })
  | dropChildren parent =>
    some (dropLink parent, { maps with tracker := { maps.tracker with
      subOperations := maps.tracker.subOperations.remove parent } })
  | dropLink parent =>
    some (countDown parent, { maps with tracker := { maps.tracker with
      parentOf := maps.tracker.parentOf.remove child } })
  | countDown parent =>
    match maps.tracker.expectedSubOperations.get parent with
    | none => some (checkCount parent, maps)
    | some expected =>
      some (if expected - 1 = 0 then dropCount parent else checkCount parent,
        { maps with tracker := { maps.tracker with
            expectedSubOperations := maps.tracker.expectedSubOperations.insert parent (expected - 1) } })
  | dropCount parent =>
    some (checkCount parent, { maps with tracker := { maps.tracker with
      expectedSubOperations := maps.tracker.expectedSubOperations.remove parent } })
  | checkCount parent =>
    if 0 < maps.tracker.expected parent then some (done, maps) else some (checkChildren parent, maps)
  | checkChildren parent =>
    if ((maps.tracker.subOperations.get parent).getD []).all (· ∈ maps.completedOps) then
      some (takeRoot parent, maps)
    else some (done, maps)
  | takeRoot parent =>
    match maps.tracker.awaitingOp parent with
    | none => some (done, maps)
    | some op => some (cleanCount parent op, { maps with tracker := maps.tracker.unpark parent })
  | cleanCount parent op =>
    some (cleanChildren parent op, { maps with tracker := { maps.tracker with
      expectedSubOperations := maps.tracker.expectedSubOperations.remove parent } })
  | cleanChildren parent op =>
    some (unmarkFailed parent op, { maps with tracker := { maps.tracker with
      subOperations := maps.tracker.subOperations.remove parent } })
  | unmarkFailed parent op =>
    some (completeRoot parent op, { maps with tracker := maps.tracker.unfailParent parent })
  | completeRoot parent op =>
    some (sendResult parent op, { maps with completedOps := parent :: maps.completedOps })
  | sendResult parent op => some (done, { maps with sent := maps.sent ++ [(parent, op)] })
  | done => none

/-- A root's finalization and the completions of sub-operations, each at its stage. -/
structure Finalization (D : Type) where
  finalizer : FinalizeStage
  completion : Transaction → CompletionStage D
  maps : SharedMaps D

inductive FinalizationStep where
  | finalizer
  | completion (child : Transaction)

namespace Finalization

def moved (s : Finalization D) (child : Transaction) (stage : CompletionStage D) (maps : SharedMaps D) :
    Finalization D :=
  { s with completion := Function.update s.completion child stage, maps := maps }

def step (root : Transaction) (op : OpEnum D) (s : Finalization D) :
    FinalizationStep → Option (Finalization D)
  | .finalizer => (s.finalizer.next root op s.maps).map fun next =>
      { s with finalizer := next.1, maps := next.2 }
  | .completion child => ((s.completion child).next child s.maps).map fun next =>
      s.moved child next.1 next.2

/-- The root has these sub-operations, none of which has ended, and it is neither parked nor marked
as failed. -/
structure Registered (t : SubOperationTracker D) (root : Transaction) (children : Finset Transaction) :
    Prop where
  expected : t.expected root = children.card
  listed : ∀ child ∈ (t.subOperations.get root).getD [], child ∈ children
  linked : ∀ child ∈ children, t.parentOf.get child = some root
  notAwaiting : t.isAwaiting root = false
  notFailed : root ∉ t.failedParents

structure Starts (root : Transaction) (children : Finset Transaction) (s : Finalization D) : Prop where
  finalizer : s.finalizer = .checkFailed
  completion : s.completion = fun child => if child ∈ children then .markCompleted else .done
  registered : Registered s.maps.tracker root children
  sent : s.maps.sent = []

def AtRest (children : Finset Transaction) (s : Finalization D) : Prop :=
  s.finalizer = .done ∧ ∀ child ∈ children, s.completion child = .done

theorem registered_new (root : Transaction) :
    Registered (OpManager.new : OpManager D).subOpTracker root ∅ where
  expected := rfl
  listed := by simp [OpManager.new]
  linked := by simp
  notAwaiting := rfl
  notFailed := List.not_mem_nil

theorem Registered.register {t : SubOperationTracker D} {root child : Transaction}
    {children : Finset Transaction} (h : Registered t root children) (hnew : child ∉ children) :
    Registered (t.expectAndRegisterSubOperation root child) root (insert child children) where
  expected := by
    rw [t.expected_expectAndRegister, if_pos rfl, h.expected, card_insert_of_notMem hnew]
  listed := by
    intro other hother
    have hentry : ((t.expectAndRegisterSubOperation root child).subOperations.get root).getD [] =
        child :: (t.subOperations.get root).getD [] := by
      simp [SubOperationTracker.expectAndRegisterSubOperation]
    rw [hentry, List.mem_cons] at hother
    rcases hother with rfl | hother
    · exact mem_insert_self _ _
    · exact mem_insert_of_mem (h.listed other hother)
  linked := by
    intro other hother
    have hlink : (t.expectAndRegisterSubOperation root child).parentOf.get other =
        if other = child then some root else t.parentOf.get other := Table.get_insert _ _ _ _
    rw [hlink]
    split_ifs with hsame
    · rfl
    · exact h.linked other (mem_of_mem_insert_of_ne hother hsame)
  notAwaiting := h.notAwaiting
  notFailed := h.notFailed

end Finalization

def finalization (root : Transaction) (op : OpEnum D) (children : Finset Transaction) :
    Machine (Finalization D) FinalizationStep where
  init s := s.Starts root children
  step s := s.step root op

open SubOperationTracker CompletionStage OpManager

def SoloStep (child : Transaction) (s t : CompletionStage D × SharedMaps D) : Prop :=
  s.1.next child s.2 = some t

def Solo (child : Transaction) : CompletionStage D × SharedMaps D →
    CompletionStage D × SharedMaps D → Prop :=
  Relation.ReflTransGen (SoloStep child)

variable {child parent : Transaction} {maps : SharedMaps D}

theorem Solo.step {s t u : CompletionStage D × SharedMaps D} (hstep : s.1.next child s.2 = some t)
    (hrest : Solo child t u) : Solo child s u :=
  Relation.ReflTransGen.head hstep hrest

theorem solo_unlinkChild : Solo child (.unlinkChild parent, maps)
    (.countDown parent, { maps with tracker := maps.tracker.removeChildLink parent child }) := by
  unfold removeChildLink
  cases hentry : maps.tracker.subOperations.get parent with
  | none =>
    refine .step (t := (.dropLink parent, maps)) ?_ (.step rfl ?_)
    · simp [next, hentry]
    · exact .refl
  | some entry =>
    by_cases hempty : entry.filter (· ≠ child) = []
    · refine .step (t := (.dropChildren parent, { maps with tracker := { maps.tracker with
        subOperations := maps.tracker.subOperations.insert parent [] } })) ?_ (.step rfl (.step rfl ?_))
      · simp only [next, hentry, hempty, if_true]
      · dsimp only
        rw [if_pos hempty, Table.remove_insert]
        exact .refl
    · refine .step (t := (.dropLink parent, { maps with tracker := { maps.tracker with
        subOperations := maps.tracker.subOperations.insert parent (entry.filter (· ≠ child)) } })) ?_ (.step rfl ?_)
      · simp only [next, hentry, hempty, if_false]
      · dsimp only
        rw [if_neg hempty]
        exact .refl

theorem solo_countDown : Solo child (.countDown parent, maps)
    (.checkCount parent, { maps with tracker := maps.tracker.markSubOpCompleted parent }) := by
  unfold markSubOpCompleted
  cases hcount : maps.tracker.expectedSubOperations.get parent with
  | none =>
    refine .step ?_ .refl
    simp only [next, hcount]
  | some expected =>
    by_cases hlast : expected - 1 = 0
    · refine .step (t := (.dropCount parent, { maps with tracker := { maps.tracker with
        expectedSubOperations :=
          maps.tracker.expectedSubOperations.insert parent (expected - 1) } })) ?_ (.step rfl ?_)
      · simp only [next, hcount, hlast, if_true]
      · dsimp only
        rw [if_pos hlast, Table.remove_insert]
        exact .refl
    · refine .step ?_ .refl
      simp only [next, hcount, hlast, if_false]

theorem solo_checkCount_of_all
    (hall : maps.tracker.allSubOperationsCompleted parent maps.completedOps = true) :
    Solo child (.checkCount parent, maps) (.takeRoot parent, maps) := by
  have hexp := expected_of_allSubOperationsCompleted hall
  unfold allSubOperationsCompleted at hall
  simp only [decide_eq_true_eq] at hall
  refine .step (t := (.checkChildren parent, maps)) ?_ (.step ?_ .refl)
  · simp only [next, hexp, Nat.lt_irrefl, if_false]
  · simp only [next, hall.2, if_true]

theorem solo_checkCount_of_not_all
    (hall : ¬ maps.tracker.allSubOperationsCompleted parent maps.completedOps = true) :
    Solo child (.checkCount parent, maps) (.done, maps) := by
  by_cases hexp : 0 < maps.tracker.expected parent
  · refine .step ?_ .refl
    simp only [next, hexp, if_true]
  · have hchildr : ¬ ((maps.tracker.subOperations.get parent).getD []).all
        (· ∈ maps.completedOps) = true := by
      intro hchildr
      refine hall ?_
      unfold allSubOperationsCompleted
      simp only [decide_eq_true_eq]
      exact ⟨Nat.eq_zero_of_not_pos hexp, hchildr⟩
    refine .step (t := (.checkChildren parent, maps)) ?_ (.step ?_ .refl)
    · simp only [next, hexp, if_false]
    · simp only [next, hchildr]
      rfl

theorem solo_takeRoot {op : OpEnum D} (hop : maps.tracker.awaitingOp parent = some op) :
    Solo child (.takeRoot parent, maps)
      (.done, ⟨maps.tracker.finishRoot parent, parent :: maps.completedOps,
        maps.sent ++ [(parent, op)]⟩) := by
  refine .step (t := (.cleanCount parent op, { maps with tracker := maps.tracker.unpark parent })) ?_ ?_
  · simp only [next, hop]
  · exact .step rfl (.step rfl (.step rfl (.step rfl (.step rfl .refl))))

/-- The completion of a sub-operation without interruption leaves the maps, and has sent the
results, of `completed`. -/
theorem solo_completed {m : OpManager D} (sent : List (Transaction × OpEnum D))
    (hparent : m.subOpTracker.parentOf.get child = some parent)
    (hroot : m.subOpTracker.parentOf.get parent = none) : ∃ answers : List (Transaction × OpEnum D),
      (m.completedSending child).2 = answers.map (fun answer => (answer.1, .operation answer.2)) ∧
      Solo child (.markCompleted, ⟨m.subOpTracker, m.completedOps, sent⟩)
        (.done, ⟨(m.completedSending child).1.subOpTracker, (m.completedSending child).1.completedOps,
          sent ++ answers⟩) := by
  -- up to the check everything is the same whether the root is answered or not
  have hstart : Solo child (.markCompleted, ⟨m.subOpTracker, m.completedOps, sent⟩)
      (.checkCount parent, ⟨m.subOpTracker.endChild parent child, child :: m.completedOps, sent⟩) := by
    refine .step (t := (.findParent, ⟨m.subOpTracker, child :: m.completedOps, sent⟩)) rfl ?_
    refine .step (t := (.unlinkChild parent, ⟨m.subOpTracker, child :: m.completedOps, sent⟩)) ?_ ?_
    · simp only [next, hparent]
    · exact solo_unlinkChild.trans solo_countDown
  by_cases hall : (m.subOpTracker.endChild parent child).allSubOperationsCompleted parent
      (child :: m.completedOps) = true
  · cases hop : (m.subOpTracker.endChild parent child).awaitingOp parent with
    | none =>
      rw [completedSending_of_waiting hparent fun _ => hop]
      refine ⟨[], rfl, hstart.trans ((solo_checkCount_of_all hall).trans ?_)⟩
      rw [List.append_nil]
      refine Solo.step ?_ .refl
      simp only [next, hop]
      rfl
    | some op =>
      rw [completedSending_of_last hparent hroot hall hop]
      exact ⟨[(parent, op)], rfl, hstart.trans ((solo_checkCount_of_all hall).trans (solo_takeRoot hop))⟩
  · rw [completedSending_of_waiting hparent fun h => absurd h hall]
    refine ⟨[], rfl, hstart.trans ?_⟩
    rw [List.append_nil]
    exact solo_checkCount_of_not_all hall

theorem solo_completed_onlyChild : ∃ (m : OpManager Unit) (maps : SharedMaps Unit),
    m.subOpTracker.parentOf.get ⟨3, some 2⟩ = some ⟨2, none⟩ ∧
      Solo ⟨3, some 2⟩ (.markCompleted, ⟨m.subOpTracker, m.completedOps, []⟩) (.done, maps) :=
  ⟨{ OpManager.new with
      subOpTracker := OpManager.new.subOpTracker.expectAndRegisterSubOperation ⟨2, none⟩ ⟨3, some 2⟩ },
    _, rfl, (solo_completed [] rfl rfl).choose_spec.2⟩

end Stages

/-! A parked root is woken, unless a completion looks for it between check and parking. -/
open Function

variable {D : Type}

namespace CompletionStage

@[simp]
def owes : CompletionStage D → Nat
  | markCompleted | findParent | unlinkChild _ | dropChildren _ | dropLink _ | countDown _ => 1
  | _ => 0

@[simp]
def listed : CompletionStage D → Bool
  | markCompleted | findParent | unlinkChild _ => true
  | _ => false

@[simp]
def early : CompletionStage D → Bool
  | markCompleted | findParent => true
  | _ => false

/-- The completion is going to look whether the root can be taken. -/
@[simp]
def onTheWay : CompletionStage D → Bool
  | dropCount _ | checkCount _ | checkChildren _ | takeRoot _ => true
  | _ => false

def takesRoot : CompletionStage D → Bool
  | takeRoot _ => true
  | _ => false

/-- The completion has seen that no sub-operation is expected any more. -/
@[simp]
def seenZero : CompletionStage D → Bool
  | dropCount _ | checkChildren _ | takeRoot _ | cleanCount _ _ | cleanChildren _ _ | unmarkFailed _ _ |
    completeRoot _ _ | sendResult _ _ => true
  | _ => false

@[simp]
def taken : CompletionStage D → Option (OpEnum D)
  | cleanCount _ op | cleanChildren _ op | unmarkFailed _ op | completeRoot _ op | sendResult _ op => some op
  | _ => none

@[simp]
def parent : CompletionStage D → Option Transaction
  | unlinkChild parent | dropChildren parent | dropLink parent | countDown parent | dropCount parent |
    checkCount parent | checkChildren parent | takeRoot parent | cleanCount parent _ |
    cleanChildren parent _ | unmarkFailed parent _ | completeRoot parent _
      | sendResult parent _ => some parent
  | _ => none

end CompletionStage

namespace Finalization
variable {root child : Transaction} {op : OpEnum D} {children : Finset Transaction} {s : Finalization D}

variable (root children s) in
def Owed : Prop :=
  0 < s.maps.tracker.expected root ∨ ∃ child ∈ children, (s.completion child).onTheWay = true

variable (root children s) in
/-- The counter is the number of sub-operations not counted yet, only those not unlinked are listed,
and a root that is parked, or going to be, is owed a completion that looks for it; a root whose
finalization is over is parked, taken or answered. -/
structure Sound : Prop where
  idle : ∀ child ∉ children, s.completion child = .done
  parent : ∀ child parent, (s.completion child).parent = some parent → parent = root
  linked : ∀ child ∈ children, (s.completion child).early = true →
    s.maps.tracker.parentOf.get child = some root
  counted : s.maps.tracker.expected root = ∑ child ∈ children, (s.completion child).owes
  listed : ∀ child ∈ (s.maps.tracker.subOperations.get root).getD [],
    child ∈ children ∧ (s.completion child).listed = true
  notFailed : root ∉ s.maps.tracker.failedParents
  zero : ∀ child, (s.completion child).seenZero = true → s.maps.tracker.expected root = 0
  checked : s.finalizer = .checkChildren → s.maps.tracker.expected root = 0
  kept : s.finalizer ≠ .drop
  owed : s.finalizer = .park ∨ s.maps.tracker.isAwaiting root = true → s.Owed root children
  answered : s.finalizer = .done → s.maps.tracker.isAwaiting root = true ∨
    (∃ child, ((s.completion child).taken).isSome = true) ∨ ∃ op, (root, op) ∈ s.maps.sent

theorem Sound.entry_eq_nil (h : s.Sound root children) (hzero : s.maps.tracker.expected root = 0) :
    (s.maps.tracker.subOperations.get root).getD [] = [] := by
  rw [List.eq_nil_iff_forall_not_mem]
  intro child hmem
  obtain ⟨hchild, hlist⟩ := h.listed child hmem
  have hsum := h.counted.symm.trans hzero
  have howes : (s.completion child).owes = 0 := sum_eq_zero_iff.mp hsum child hchild
  cases hstage : s.completion child <;> simp_all [CompletionStage.listed, CompletionStage.owes]

/-- What a step of a completion may do to what the invariant speaks of. -/
structure Advance (root : Transaction) (s : Finalization D) (child : Transaction) (stage : CompletionStage D)
    (maps : SharedMaps D) : Prop where
  parent : ∀ parent, stage.parent = some parent → parent = root
  early : stage.early = true → (s.completion child).early = true
  link : maps.tracker.parentOf = s.maps.tracker.parentOf ∨
    maps.tracker.parentOf = s.maps.tracker.parentOf.remove child ∧ stage.early = false
  owes : stage.owes ≤ (s.completion child).owes
  count : maps.tracker.expected root + (s.completion child).owes = s.maps.tracker.expected root + stage.owes
  shrinks : ∀ other ∈ (maps.tracker.subOperations.get root).getD [],
    other ∈ (s.maps.tracker.subOperations.get root).getD []
  listed : child ∈ (maps.tracker.subOperations.get root).getD [] → stage.listed = true
  notFailed : ∀ tx ∈ maps.tracker.failedParents, tx ∈ s.maps.tracker.failedParents
  zero : stage.seenZero = true → maps.tracker.expected root = 0
  awaiting : maps.tracker.isAwaiting root = true → s.maps.tracker.isAwaiting root = true
  wakes : 0 < s.maps.tracker.expected root → 0 < maps.tracker.expected root ∨ stage.onTheWay = true
  stays : s.finalizer = .park ∨ maps.tracker.isAwaiting root = true → (s.completion child).onTheWay = true →
    0 < maps.tracker.expected root ∨ stage.onTheWay = true
  takes : s.maps.tracker.isAwaiting root = true → maps.tracker.isAwaiting root = true ∨
    stage.taken.isSome = true
  sends : (s.completion child).taken.isSome = true → stage.taken.isSome = true ∨ ∃ op, (root, op) ∈ maps.sent
  sent : ∀ result ∈ s.maps.sent, result ∈ maps.sent

/-- The root is as it was, except that fewer sub-operations may be listed and more results may be
sent. -/
structure Quiet (root : Transaction) (maps maps' : SharedMaps D) : Prop where
  expected : maps'.tracker.expected root = maps.tracker.expected root
  shrinks : ∀ other ∈ (maps'.tracker.subOperations.get root).getD [],
    other ∈ (maps.tracker.subOperations.get root).getD []
  notFailed : ∀ tx ∈ maps'.tracker.failedParents, tx ∈ maps.tracker.failedParents
  awaiting : maps'.tracker.isAwaiting root = maps.tracker.isAwaiting root
  sent : ∀ result ∈ maps.sent, result ∈ maps'.sent

theorem Quiet.refl (root : Transaction) (maps : SharedMaps D) : Quiet root maps maps :=
  ⟨rfl, fun _ hmem => hmem, fun _ hmem => hmem, rfl, fun _ hmem => hmem⟩

variable {maps : SharedMaps D}

theorem Quiet.of_completedOps (completedOps : List Transaction) :
    Quiet root maps { maps with completedOps := completedOps } :=
  ⟨rfl, fun _ hmem => hmem, fun _ hmem => hmem, rfl, fun _ hmem => hmem⟩

theorem Quiet.of_subOperations {subOperations : Table Transaction (List Transaction)}
    (h : ∀ other ∈ (subOperations.get root).getD [], other ∈ (maps.tracker.subOperations.get root).getD []) :
    Quiet root maps { maps with tracker := { maps.tracker with subOperations := subOperations } } :=
  ⟨rfl, h, fun _ hmem => hmem, rfl, fun _ hmem => hmem⟩

theorem Quiet.of_dropCount (hzero : maps.tracker.expected root = 0) :
    Quiet root maps { maps with tracker := { maps.tracker with
      expectedSubOperations := maps.tracker.expectedSubOperations.remove root } } := by
  refine ⟨?_, fun _ hmem => hmem, fun _ hmem => hmem, rfl, fun _ hmem => hmem⟩
  rw [hzero]
  simp [SubOperationTracker.expected]

variable {stage : CompletionStage D}

theorem Advance.of_quiet (hq : Quiet root s.maps maps)
    (hparent : stage.parent = none ∨ stage.parent = some root)
    (hlink : maps.tracker.parentOf = s.maps.tracker.parentOf ∨
      maps.tracker.parentOf = s.maps.tracker.parentOf.remove child ∧ stage.early = false)
    (hearly : stage.early = true → (s.completion child).early = true)
    (howes : stage.owes = (s.completion child).owes)
    (hlist : child ∈ (maps.tracker.subOperations.get root).getD [] → stage.listed = true)
    (hzero : stage.seenZero = true → s.maps.tracker.expected root = 0)
    (hstays : s.finalizer = .park ∨ s.maps.tracker.isAwaiting root = true →
      (s.completion child).onTheWay = true →
      0 < s.maps.tracker.expected root ∨ stage.onTheWay = true)
    (hsends : (s.completion child).taken.isSome = true → stage.taken.isSome = true ∨
      ∃ op, (root, op) ∈ maps.sent) :
    Advance root s child stage maps where
  parent parent heq := by
    rcases hparent with hnone | hroot
    · rw [hnone] at heq
      cases heq
    · exact (Option.some.inj (hroot.symm.trans heq)).symm
  early := hearly
  link := hlink
  owes := howes.le
  count := by rw [hq.expected, howes]
  shrinks := hq.shrinks
  listed := hlist
  notFailed := hq.notFailed
  zero hseen := hq.expected.trans (hzero hseen)
  awaiting hawait := hq.awaiting.symm.trans hawait
  wakes hpos := .inl (hq.expected.symm ▸ hpos)
  stays := by
    rw [hq.awaiting, hq.expected]
    exact hstays
  takes hawait := .inl (hq.awaiting.trans hawait)
  sends := hsends
  sent := hq.sent

theorem sum_owes_update (f : Transaction → CompletionStage D) (stage : CompletionStage D)
    (hchild : child ∈ children) :
    ∑ other ∈ children, (update f child stage other).owes + (f child).owes =
      ∑ other ∈ children, (f other).owes + stage.owes := by
  have hafter := add_sum_erase children (fun other => (update f child stage other).owes) hchild
  have hbefore := add_sum_erase children (fun other => (f other).owes) hchild
  have hrest : ∑ other ∈ children.erase child, (update f child stage other).owes =
      ∑ other ∈ children.erase child, (f other).owes := by
    apply sum_congr rfl
    intro other hother
    rw [update_of_ne (ne_of_mem_erase hother)]
  rw [update_self] at hafter
  omega

theorem Sound.advance (h : s.Sound root children) (hchild : child ∈ children)
    (ha : Advance root s child stage maps) : (s.moved child stage maps).Sound root children := by
  have hself : (s.moved child stage maps).completion child = stage := update_self ..
  have hother : ∀ other ≠ child, (s.moved child stage maps).completion other = s.completion other :=
    fun other hne => update_of_ne hne ..
  have hmaps : (s.moved child stage maps).maps = maps := rfl
  have hcount := ha.count
  have howes := ha.owes
  have hle : maps.tracker.expected root ≤ s.maps.tracker.expected root := by omega
  constructor
  · intro other hnot
    exact (hother other fun heq => hnot (heq ▸ hchild)).trans (h.idle other hnot)
  · intro other parent hparent
    by_cases hne : other = child
    · rw [hne, hself] at hparent
      exact ha.parent parent hparent
    · rw [hother other hne] at hparent
      exact h.parent other parent hparent
  · intro other hmem hearly
    by_cases hne : other = child
    · rw [hne, hself] at hearly
      rw [hne]
      rcases ha.link with hlink | ⟨_, hlate⟩
      · rw [hmaps, hlink]
        exact h.linked child hchild (ha.early hearly)
      · exact absurd (hlate.symm.trans hearly) Bool.false_ne_true
    · rw [hother other hne] at hearly
      rcases ha.link with hlink | ⟨hlink, _⟩
      · rw [hmaps, hlink]
        exact h.linked other hmem hearly
      · rw [hmaps, hlink, Table.get_remove_of_ne hne]
        exact h.linked other hmem hearly
  · have hsum := sum_owes_update s.completion stage hchild
    have hcounted := h.counted
    have hmoved : (s.moved child stage maps).completion = update s.completion child stage := rfl
    rw [hmaps, hmoved]
    omega
  · intro other hmem
    obtain ⟨hmem', hlist⟩ := h.listed other (ha.shrinks other hmem)
    refine ⟨hmem', ?_⟩
    by_cases hne : other = child
    · rw [hne] at hmem ⊢
      rw [hself]
      exact ha.listed hmem
    · rw [hother other hne]
      exact hlist
  · exact fun hfail => h.notFailed (ha.notFailed root hfail)
  · intro other hseen
    by_cases hne : other = child
    · rw [hne, hself] at hseen
      exact ha.zero hseen
    · rw [hother other hne] at hseen
      exact Nat.eq_zero_of_le_zero (hle.trans (h.zero other hseen).le)
  · intro hfinr
    exact Nat.eq_zero_of_le_zero (hle.trans (h.checked hfinr).le)
  · exact h.kept
  · intro hpark
    have hself' : stage.onTheWay = true → (s.moved child stage maps).Owed root children :=
      fun hway => .inr ⟨child, hchild, by rw [hself]; exact hway⟩
    rcases h.owed (hpark.imp_right ha.awaiting) with hpos | ⟨other, hmem, hway⟩
    · exact (ha.wakes hpos).elim .inl hself'
    · by_cases hne : other = child
      · rw [hne] at hway
        exact (ha.stays hpark hway).elim .inl hself'
      · exact .inr ⟨other, hmem, by rw [hother other hne]; exact hway⟩
  · intro hdone
    rcases h.answered hdone with hawait | ⟨other, htaken⟩ | ⟨op, hsent⟩
    · rcases ha.takes hawait with hawait | htaken
      · exact .inl hawait
      · exact .inr (.inl ⟨child, by rw [hself]; exact htaken⟩)
    · by_cases hne : other = child
      · rw [hne] at htaken
        rcases ha.sends htaken with htaken | hsent
        · exact .inr (.inl ⟨child, by rw [hself]; exact htaken⟩)
        · exact .inr (.inr hsent)
      · exact .inr (.inl ⟨other, by rw [hother other hne]; exact htaken⟩)
    · exact .inr (.inr ⟨op, ha.sent _ hsent⟩)

end Finalization

end Freenet.Node
