import Freenet.Node.SubOperations

/-! A root operation seen from outside. Each event changes this for one root only. -/
namespace Freenet.Node
open SubOperationTracker OpManager List Prod

variable {D : Type}

structure RootView (D : Type) where
  expected : Nat
  parked : Bool
  failed : Bool
  finalized : Bool
  /-- The sub-operations that have not ended. -/
  pending : List Transaction
  /-- A sub-operation failed or timed out. -/
  broken : Bool
  sent : List (ClientResult D)

namespace SubOpHistory
variable (s : SubOpHistory D)

def children (root : Transaction) : List Transaction := (s.registered.filter (·.1 = root)).map Prod.snd

def pending (root : Transaction) : List Transaction :=
  (s.children root).filter fun child => ¬ s.IsEnded child

def broken (root : Transaction) : Bool :=
  s.ended.any fun e => e.1 ∈ s.children root ∧ e.2 ≠ .completed

def sentTo (root : Transaction) : List (ClientResult D) := (s.sent.filter (·.1 = root)).map Prod.snd

def view (root : Transaction) : RootView D :=
  ⟨s.tracker.expected root, s.tracker.isAwaiting root, root ∈ s.tracker.failedParents,
    root ∈ s.finalized, s.pending root, s.broken root, s.sentTo root⟩

/-- The tracker links exactly the sub-operations that have not ended, each to the one root it is
registered under, and no root is a sub-operation. -/
structure Linked : Prop where
  parentOf_iff : ∀ child root, s.tracker.parentOf.get child = some root ↔ child ∈ s.pending root
  nodup : (s.registered.map Prod.snd).Nodup
  flat : ∀ link ∈ s.registered, ¬ s.IsChild link.1

variable {s} {root root' child : Transaction} {e : Ending} {op : OpEnum D}

theorem mem_children_iff : child ∈ s.children root ↔ (root, child) ∈ s.registered := by
  unfold children
  simp only [mem_map, mem_filter, decide_eq_true_eq]
  constructor
  · rintro ⟨⟨_, _⟩, ⟨hmem, rfl⟩, rfl⟩
    exact hmem
  · intro hmem
    exact ⟨_, ⟨hmem, rfl⟩, rfl⟩

theorem isChild_of_mem_children (h : child ∈ s.children root) : s.IsChild child :=
  mem_map.mpr ⟨_, mem_children_iff.mp h, rfl⟩

theorem mem_pending_iff : child ∈ s.pending root ↔ child ∈ s.children root ∧ ¬ s.IsEnded child := by
  unfold pending
  simp

theorem Linked.parentOf_root (h : s.Linked) (hroot : ¬ s.IsChild root) :
    s.tracker.parentOf.get root = none := by
  cases hget : s.tracker.parentOf.get root with
  | none => rfl
  | some parent =>
    have hmem := (h.parentOf_iff root parent).mp hget
    exact absurd (isChild_of_mem_children (mem_pending_iff.mp hmem).1) hroot

theorem Linked.root_unique (h : s.Linked) (hroot : child ∈ s.children root)
    (hroot' : child ∈ s.children root') : root = root' := by
  have hinj := inj_on_of_nodup_map h.nodup (mem_children_iff.mp hroot) (mem_children_iff.mp hroot') rfl
  exact congrArg fst hinj

theorem pending_ending : (s.ending child e).pending root = (s.pending root).filter (· ≠ child) := by
  unfold pending
  rw [filter_filter]
  congr 1
  funext other
  have hended : (s.ending child e).IsEnded other ↔ other = child ∨ s.IsEnded other := mem_cons
  simp only [hended, not_or, Bool.decide_and]

theorem sentTo_answering (result : OpManager D × List (Transaction × ClientResult D)) :
    (s.answering result).sentTo root = s.sentTo root ++ (result.2.filter (·.1 = root)).map snd := by
  unfold sentTo answering
  rw [filter_append, map_append]

theorem children_registering : (s.registering root child).children root' =
    if root' = root then child :: s.children root' else s.children root' := by
  unfold children registering
  split_ifs with hroot
  · simp [hroot]
  · simp [Ne.symm hroot]

theorem view_registering (hfresh : s.Fresh child) : (s.registering root child).view root' =
    if root' = root then { s.view root' with
      expected := s.tracker.expected root' + 1
      pending := child :: s.pending root' }
    else s.view root' := by
  obtain ⟨_, _, hended, _⟩ := hfresh
  have hexp := s.tracker.expected_expectAndRegister root' root child
  have hpend : (s.registering root child).pending root' =
      if root' = root then child :: s.pending root' else s.pending root' := by
    have hsame : ∀ l : List Transaction, (l.filter fun other => ¬ (s.registering root child).IsEnded other) =
        l.filter fun other => ¬ s.IsEnded other := fun _ => rfl
    unfold pending
    rw [hsame, children_registering]
    split_ifs
    · rw [filter_cons_of_pos (by simpa using hended)]
    · rfl
  have hbrok : (s.registering root child).broken root' = s.broken root' := by
    unfold broken
    rw [children_registering, Bool.eq_iff_iff, any_eq_true, any_eq_true]
    refine exists_congr fun ending => and_congr_right fun hmem => ?_
    have hne : ending.1 ≠ child := fun heq => hended (heq ▸ mem_map_of_mem hmem)
    split_ifs
    · simp [hne]
    · rfl
  have hview : (s.registering root child).view root' =
      ⟨(s.tracker.expectAndRegisterSubOperation root child).expected root', s.tracker.isAwaiting root',
        root' ∈ s.tracker.failedParents, root' ∈ s.finalized, (s.registering root child).pending root',
        (s.registering root child).broken root', s.sentTo root'⟩ := rfl
  rw [hview, hexp, hpend, hbrok]
  split_ifs
  · rfl
  · rfl

variable {result : OpManager D × List (Transaction × ClientResult D)}

theorem view_ending {expected : Nat} {parked failed : Bool} {sent : List (ClientResult D)}
    (hresult : s.manager.endSubOperation child e = result)
    (hexp : result.1.subOpTracker.expected root = expected)
    (hpark : result.1.subOpTracker.isAwaiting root = parked)
    (hfail : decide (root ∈ result.1.subOpTracker.failedParents) = failed)
    (hsent : (result.2.filter (·.1 = root)).map snd = sent) :
    (s.ending child e).view root =
      ⟨expected, parked, failed, root ∈ s.finalized, (s.pending root).filter (· ≠ child),
        decide (child ∈ s.children root ∧ e ≠ .completed) || s.broken root, s.sentTo root ++ sent⟩ := by
  rw [← pending_ending (e := e), ← hexp, ← hpark, ← hfail, ← hsent, ← hresult, ← sentTo_answering]
  rfl

theorem view_ending_of_ne (hresult : s.manager.endSubOperation child e = result)
    (hexp : result.1.subOpTracker.expected root = s.tracker.expected root)
    (hpark : result.1.subOpTracker.isAwaiting root = s.tracker.isAwaiting root)
    (hfail : root ∈ result.1.subOpTracker.failedParents ↔ root ∈ s.tracker.failedParents)
    (hsent : result.2.filter (·.1 = root) = []) (hpend : child ∉ s.pending root)
    (hbrok : child ∈ s.children root → e = .completed) :
    (s.ending child e).view root = s.view root := by
  have hfilt : (s.pending root).filter (· ≠ child) = s.pending root := by
    rw [filter_eq_self]
    intro other hother
    simpa using fun heq : other = child => hpend (heq ▸ hother)
  have hintact : decide (child ∈ s.children root ∧ e ≠ .completed) = false := by
    simpa using hbrok
  rw [view_ending hresult hexp hpark (decide_eq_decide.mpr hfail) (by rw [hsent, map_nil]), hfilt,
    hintact, append_nil]
  rfl

section Linked
variable (h : s.Linked)
include h

theorem Linked.not_mem_pending (hnone : s.tracker.parentOf.get child = none) : child ∉ s.pending root := by
  intro hmem
  rw [(h.parentOf_iff child root).mpr hmem] at hnone
  cases hnone

theorem Linked.view_of_unlinked (hnone : s.tracker.parentOf.get child = none)
    (hbrok : child ∈ s.children root → e = .completed) :
    (s.ending child e).view root = s.view root := by
  obtain ⟨m', hresult, htrack⟩ := endSubOperation_of_root e hnone
  refine view_ending_of_ne hresult (congrArg (·.expected root) htrack)
    (congrArg (·.isAwaiting root) htrack) ?_ rfl
    (h.not_mem_pending hnone) hbrok
  rw [htrack]
  rfl

variable {parent : Transaction} (hparent : s.tracker.parentOf.get child = some parent)
include hparent

theorem Linked.mem_children : child ∈ s.children parent :=
  (mem_pending_iff.mp ((h.parentOf_iff child parent).mp hparent)).1

theorem Linked.parentOf_parent : s.tracker.parentOf.get parent = none :=
  h.parentOf_root (h.flat _ (mem_children_iff.mp (h.mem_children hparent)))

theorem Linked.view_of_ne (hroot : root ≠ parent) : (s.ending child e).view root = s.view root := by
  have hchild := h.mem_children hparent
  have hnot : child ∉ s.children root := fun hmem => hroot (h.root_unique hmem hchild)
  have hpend : child ∉ s.pending root := fun hmem => hnot (mem_pending_iff.mp hmem).1
  have hintact : child ∈ s.children root → e = .completed := fun hmem => absurd hmem hnot
  have hflat := h.parentOf_parent hparent
  have hexp : (s.tracker.endChild parent child).expected root = s.tracker.expected root := by
    rw [expected_endChild, if_neg hroot]
  have hpark := s.tracker.isAwaiting_endChild root parent child
  have hfail := s.tracker.endChild_failedParents parent child
  have hclean : ∀ t : SubOperationTracker D,
      (t.cleanupParentTracking parent).expected root = t.expected root := by
    intro t
    rw [t.expected_cleanupParentTracking, if_neg hroot]
  have hunpark : ((s.tracker.endChild parent child).unpark parent).isAwaiting root =
      s.tracker.isAwaiting root := by
    rw [isAwaiting_unpark, hpark]
    simp [hroot]
  have hother : ∀ result : ClientResult D, ([(parent, result)].filter (·.1 = root)) = [] := by
    intro result
    simp [hroot.symm]
  cases e with
  | completed =>
    rcases completedSending_of_child hparent hflat with ⟨op, _, _, hresult⟩ | hresult
    · refine view_ending_of_ne hresult ((hclean _).trans hexp) hunpark ?_ (hother _) hpend hintact
      simp [finishRoot, hroot, ← hfail]
      rfl
    · refine view_ending_of_ne hresult hexp hpark ?_ rfl hpend hintact
      rw [← hfail]
      rfl
  | failed =>
    have hresult := subOperationFailed_of_child hparent hflat
    split_ifs at hresult
    · refine view_ending_of_ne hresult ((hclean _).trans hexp) hunpark ?_ (hother _) hpend hintact
      rw [← hfail]
      rfl
    · refine view_ending_of_ne hresult ((hclean _).trans hexp) hpark ?_ (hother _) hpend hintact
      rw [← hfail]
      exact mem_cons.trans (or_iff_right hroot)
  | timedOut =>
    have hresult := subOperationTimedOut_of_child hparent
    refine view_ending_of_ne hresult ((hclean _).trans hexp) hunpark ?_ (hother _) hpend hintact
    rw [← hfail]
    rfl

/-- The last sub-operation that a parked root waits for completes, and the root is answered; or the
root waits for one sub-operation less. -/
theorem Linked.view_completed :
    (∃ op, s.tracker.expected parent - 1 = 0 ∧ s.tracker.isAwaiting parent = true ∧
      (s.ending child .completed).view parent = { s.view parent with
        expected := 0
        parked := false
        failed := false
        pending := (s.pending parent).filter (· ≠ child)
        sent := s.sentTo parent ++ [.operation op] }) ∨
      (s.ending child .completed).view parent = { s.view parent with
        expected := s.tracker.expected parent - 1
        pending := (s.pending parent).filter (· ≠ child) } := by
  have hexp : (s.tracker.endChild parent child).expected parent = s.tracker.expected parent - 1 := by
    rw [expected_endChild, if_pos rfl]
  rcases completedSending_of_child hparent (h.parentOf_parent hparent) with
    ⟨op, hzero, hpark, hresult⟩ | hresult
  · left
    refine ⟨op, hexp.symm.trans hzero, hpark, ?_⟩
    have hunfail : decide (parent ∈ ((s.tracker.endChild parent child).finishRoot parent).failedParents) =
        false := by
      simp [finishRoot]
    refine Eq.trans (view_ending hresult (expected_cleanupParentTracking_self _ parent)
      (isAwaiting_unpark_self _ parent) hunfail rfl) ?_
    simp [view]
  · right
    have hfail := congrArg (fun roots => decide (parent ∈ roots))
      (s.tracker.endChild_failedParents parent child)
    refine Eq.trans (view_ending hresult hexp
      (s.tracker.isAwaiting_endChild parent parent child) hfail rfl) ?_
    simp [view]

theorem Linked.view_failed : (s.ending child .failed).view parent = { s.view parent with
      expected := 0
      parked := false
      failed := !s.tracker.isAwaiting parent || (s.view parent).failed
      pending := (s.pending parent).filter (· ≠ child)
      broken := true
      sent := s.sentTo parent ++ [.subOperationFailed child] } := by
  have hchild := h.mem_children hparent
  have hresult := subOperationFailed_of_child hparent (h.parentOf_parent hparent)
  have hfail := s.tracker.endChild_failedParents parent child
  cases hpark : s.manager.subOpTracker.isAwaiting parent with
  | true =>
    rw [if_pos hpark] at hresult
    refine Eq.trans (view_ending hresult (expected_cleanupParentTracking_self _ parent)
      (isAwaiting_unpark_self _ parent) (congrArg (fun roots => decide (parent ∈ roots)) hfail) rfl) ?_
    simp [view, hchild, tracker, hpark]
  | false =>
    rw [if_neg (by rw [hpark]; exact Bool.false_ne_true)] at hresult
    have hunparked := (s.tracker.isAwaiting_endChild parent parent child).trans hpark
    have hmark :
        decide (parent ∈ ((s.tracker.endChild parent child).failParent parent).failedParents) = true := by
      simp [failParent]
    refine Eq.trans (view_ending hresult (expected_cleanupParentTracking_self _ parent) hunparked hmark
      rfl) ?_
    simp [view, hchild, tracker, hpark]

/-- A sub-operation times out: its root is not parked any more, but it is not marked as failed. -/
theorem Linked.view_timedOut : (s.ending child .timedOut).view parent = { s.view parent with
      expected := 0
      parked := false
      pending := (s.pending parent).filter (· ≠ child)
      broken := true
      sent := s.sentTo parent ++ [.subOperationTimedOut child] } := by
  have hchild := h.mem_children hparent
  have hfail := congrArg (fun roots => decide (parent ∈ roots))
    (s.tracker.endChild_failedParents parent child)
  refine Eq.trans (view_ending (subOperationTimedOut_of_child hparent)
    (expected_cleanupParentTracking_self _ parent) (isAwaiting_unpark_self _ parent) hfail rfl) ?_
  simp [view, hchild]

end Linked

theorem view_finalizing {m' : OpManager D} {sent : List (Transaction × ClientResult D)}
    (hresult : s.manager.finalize root op = (m', sent)) : (s.finalizing root op).view root' =
      ⟨m'.subOpTracker.expected root', m'.subOpTracker.isAwaiting root',
        root' ∈ m'.subOpTracker.failedParents, decide (root' = root) || (s.view root').finalized,
        s.pending root', s.broken root', s.sentTo root' ++ (sent.filter (·.1 = root')).map snd⟩ := by
  have hview : (s.finalizing root op).view root' =
      ⟨(s.manager.finalize root op).1.subOpTracker.expected root',
        (s.manager.finalize root op).1.subOpTracker.isAwaiting root',
        root' ∈ (s.manager.finalize root op).1.subOpTracker.failedParents, root' ∈ root :: s.finalized,
        s.pending root', s.broken root', (s.answering (s.manager.finalize root op)).sentTo root'⟩ := rfl
  rw [hview, sentTo_answering, hresult]
  simp [view]

end SubOpHistory

/-! The client of a root gets at most one result, its own only when every sub-operation
completed. -/
open Lib Option Bool SubOpHistory

namespace SubOpHistory
variable {s : SubOpHistory D} {root root' parent child : Transaction} {e : Ending} {op : OpEnum D}
  (h : s.Linked)
include h

/-- A finalized root is dropped if it is marked as failed, answered if it waits for nothing, and
parked otherwise. -/
theorem Linked.view_finalizing_self (hroot : ¬ s.IsChild root) (op : OpEnum D) :
    ((s.view root).failed = true ∧
        (s.finalizing root op).view root = { s.view root with failed := false, finalized := true }) ∨
      ((s.view root).failed = false ∧ (s.view root).expected = 0 ∧
        (s.finalizing root op).view root =
          { s.view root with finalized := true, sent := s.sentTo root ++ [.operation op] }) ∨
      (s.view root).failed = false ∧
        (s.finalizing root op).view root = { s.view root with parked := true, finalized := true } := by
  rcases finalize_of_root op (h.parentOf_root hroot) with
    ⟨hfail, m', hresult, htrack⟩ | ⟨hfail, hexp, m', hresult, htrack⟩ | ⟨hfail, m', hresult, htrack⟩
  · left
    refine ⟨decide_eq_true hfail, ?_⟩
    rw [view_finalizing hresult, htrack]
    simp [view, tracker]
  · right
    left
    refine ⟨decide_eq_false hfail, hexp, ?_⟩
    rw [view_finalizing hresult, htrack]
    simp [view, tracker]
    rfl
  · right
    right
    refine ⟨decide_eq_false hfail, ?_⟩
    rw [view_finalizing hresult, htrack, isAwaiting_park]
    simp [view, tracker]
    rfl

theorem Linked.view_finalizing_of_ne (hroot : ¬ s.IsChild root) (hne : root' ≠ root) :
    (s.finalizing root op).view root' = s.view root' := by
  rcases finalize_of_root op (h.parentOf_root hroot) with
    ⟨_, m', hresult, htrack⟩ | ⟨_, _, m', hresult, htrack⟩ | ⟨_, m', hresult, htrack⟩
  · rw [view_finalizing hresult, htrack]
    simp [view, tracker, hne]
    rfl
  · rw [view_finalizing hresult, htrack]
    simp [view, tracker, hne, hne.symm]
    rfl
  · rw [view_finalizing hresult, htrack, isAwaiting_park]
    simp [view, tracker, hne]
    rfl

theorem Linked.parentOf_finalizing (hroot : ¬ s.IsChild root) :
    (s.finalizing root op).tracker.parentOf = s.tracker.parentOf := by
  have htrack : (s.finalizing root op).tracker = (s.manager.finalize root op).1.subOpTracker := rfl
  rcases finalize_of_root op (h.parentOf_root hroot) with
    ⟨_, m', hresult, hm'⟩ | ⟨_, _, m', hresult, hm'⟩ | ⟨_, m', hresult, hm'⟩
  all_goals
    rw [htrack, hresult, hm']
    rfl

theorem Linked.parentOf_ending : (s.ending child e).tracker.parentOf = s.tracker.parentOf.remove child := by
  have htrack : (s.ending child e).tracker = (s.manager.endSubOperation child e).1.subOpTracker := rfl
  cases hparent : s.manager.subOpTracker.parentOf.get child with
  | none =>
    obtain ⟨m', hresult, hsame⟩ := endSubOperation_of_root e hparent
    rw [htrack, hresult, hsame]
    exact (Table.remove_of_get hparent).symm
  | some parent =>
    have hend := s.manager.subOpTracker.endChild_parentOf parent child
    cases e with
    | completed =>
      rcases completedSending_of_child hparent (h.parentOf_parent hparent) with
        ⟨_, _, _, hresult⟩ | hresult
      all_goals exact (congrArg (fun result => result.1.subOpTracker.parentOf) hresult).trans hend
    | failed =>
      have hresult := subOperationFailed_of_child hparent (h.parentOf_parent hparent)
      refine (congrArg (fun result => result.1.subOpTracker.parentOf) hresult).trans ?_
      split_ifs
      · exact hend
      · exact hend
    | timedOut =>
      exact (congrArg (fun result => result.1.subOpTracker.parentOf)
        (subOperationTimedOut_of_child hparent)).trans hend

omit h in
theorem new_linked : (new : SubOpHistory D).Linked where
  parentOf_iff child root := by simp [new, tracker, OpManager.new, pending, children]
  nodup := nodup_nil
  flat := by simp [new]

theorem Linked.registering (hfresh : s.Fresh child) (hne : child ≠ root)
    (hroot : ¬ s.IsChild root) : (s.registering root child).Linked := by
  have ⟨hchild, hnoRoot, _, _⟩ := hfresh
  have hpend : ∀ other, (s.registering root child).pending other =
      if other = root then child :: s.pending other else s.pending other := by
    intro other
    have hview : ((s.registering root child).view other).pending = _ :=
      congrArg RootView.pending (view_registering hfresh)
    split_ifs at hview with hother
    · rw [if_pos hother]
      exact hview
    · rw [if_neg hother]
      exact hview
  constructor
  · intro other parent
    have hparentOf : (s.registering root child).tracker.parentOf.get other =
        if other = child then some root else s.tracker.parentOf.get other := Table.get_insert _ _ _ _
    have hnot : child ∉ s.pending parent :=
      fun hmem => hchild (isChild_of_mem_children (mem_pending_iff.mp hmem).1)
    rw [hparentOf, hpend]
    by_cases hother : other = child
    · rw [if_pos hother, hother]
      split_ifs with hparent
      · simp [hparent]
      · simp [hnot, Ne.symm hparent]
    · rw [if_neg hother, h.parentOf_iff]
      split_ifs
      · simp [hother]
      · rfl
  · exact nodup_cons.mpr ⟨hchild, h.nodup⟩
  · intro link hlink hmem
    rcases mem_cons.mp hlink with rfl | hlink
    · rcases mem_cons.mp hmem with heq | hmem
      · exact hne heq.symm
      · exact hroot hmem
    · rcases mem_cons.mp hmem with heq | hmem
      · have hlinked : link.1 ∈ s.registered.map Prod.fst := mem_map_of_mem hlink
        rw [show link.1 = child from heq] at hlinked
        exact hnoRoot hlinked
      · exact h.flat link hlink hmem

theorem Linked.ending (child : Transaction) (e : Ending) : (s.ending child e).Linked where
  parentOf_iff other root := by
    rw [h.parentOf_ending, Table.get_remove, pending_ending, mem_filter, ← h.parentOf_iff]
    split_ifs with hother
    · simp [hother]
    · simp [hother]
  nodup := h.nodup
  flat := h.flat

theorem Linked.finalizing (hroot : ¬ s.IsChild root) : (s.finalizing root op).Linked where
  parentOf_iff other parent := by
    rw [h.parentOf_finalizing hroot]
    exact h.parentOf_iff other parent
  nodup := h.nodup
  flat := h.flat

end SubOpHistory

/-- A root waits for its sub-operations without having been answered, parked exactly if it was
finalized; or it was answered with its own result when none was pending; or with an error when one
failed or timed out, for good. -/
inductive RootView.Ok (v : RootView D) : Prop where
  | waiting (hbrok : v.broken = false) (hsent : v.sent = []) (hexp : v.expected = v.pending.length)
      (hfail : v.failed = false) (hpark : v.parked = v.finalized)
  | answered (op : OpEnum D) (hbrok : v.broken = false) (hsent : v.sent = [.operation op])
      (hpend : v.pending = []) (hfinl : v.finalized = true) (hpark : v.parked = false)
  | aborted (result : ClientResult D) (hbrok : v.broken = true) (hsent : v.sent = [result])
      (herror : result.isError = true) (hpark : v.parked = false)
      (hlast : v.failed = true ∨ v.finalized = true)

namespace SubOpHistory
variable {s : SubOpHistory D} {root parent child : Transaction} {e : Ending} {op : OpEnum D}

variable (s) in
/-- A sub-operation is registered before its root is finalized or while it is parked. It fails or
times out only if it has not completed and none of the root failed or timed out before, and times
out only while the root is parked. -/
def Orderly : SubOpEvent D → Prop
  | .register root _ => root ∉ s.finalized ∨ s.tracker.isAwaiting root = true
  | .childEnds child e =>
    e = .completed ∨ ∀ link ∈ s.registered, link.2 = child → (child, .completed) ∉ s.ended ∧
      s.broken link.1 = false ∧ (e = .timedOut → s.tracker.isAwaiting link.1 = true)
  | .finalize _ _ => True

instance : ∀ event : SubOpEvent D, Decidable (s.Orderly event)
  | .register _ _ => inferInstanceAs (Decidable (_ ∨ _))
  | .childEnds _ _ => inferInstanceAs (Decidable (_ ∨ _))
  | .finalize _ _ => inferInstanceAs (Decidable True)

theorem ok_registering (hok : (s.view root).Ok) (hfresh : s.Fresh child)
    (horderly : root ∉ s.finalized ∨ s.tracker.isAwaiting root = true) :
    ((s.registering root child).view root).Ok := by
  rw [view_registering hfresh, if_pos rfl]
  cases hok with
  | waiting hbrok hsent hexp hfail hpark =>
    refine .waiting hbrok hsent ?_ hfail hpark
    exact congrArg Nat.succ hexp
  | answered op _ _ _ hfinl hpark =>
    rcases horderly with hnot | hawait
    · exact absurd (of_decide_eq_true hfinl) hnot
    · exact absurd (hpark.symm.trans hawait) false_ne_true
  | aborted result hbrok hsent herror hpark hlast => exact .aborted result hbrok hsent herror hpark hlast

section LinkedSteps
variable (h : s.Linked)
include h

theorem Linked.length_filter_pending (hmem : child ∈ s.pending root) :
    ((s.pending root).filter (· ≠ child)).length = (s.pending root).length - 1 := by
  have herase : (s.pending root).erase child = (s.pending root).filter (· ≠ child) := by
    refine (((h.nodup.sublist (filter_sublist.map _)).filter _).erase_eq_filter child).trans ?_
    exact filter_congr fun other _ => by
      rw [decide_not]
      rfl
  rw [← herase, length_erase_of_mem hmem]

theorem ok_completed (hok : (s.view parent).Ok)
    (hparent : s.tracker.parentOf.get child = some parent) :
    ((s.ending child .completed).view parent).Ok := by
  have hmem := (h.parentOf_iff child parent).mp hparent
  have hlength := h.length_filter_pending hmem
  cases hok with
  | waiting hbrok hsent hexp hfail hpark =>
    have hcount : s.tracker.expected parent = (s.pending parent).length := hexp
    rcases h.view_completed hparent with ⟨op, hzero, hawait, hview⟩ | hview
    · rw [hview]
      refine .answered op hbrok ?_ ?_ (hpark.symm.trans hawait) rfl
      · rw [show s.sentTo parent = [] from hsent]
        rfl
      · exact eq_nil_of_length_eq_zero (hlength.trans (hcount ▸ hzero))
    · rw [hview]
      refine .waiting hbrok hsent ?_ hfail hpark
      show s.tracker.expected parent - 1 = _
      rw [hcount, hlength]
  | answered op _ _ hpend _ _ =>
    rw [show s.pending parent = [] from hpend] at hmem
    exact absurd hmem not_mem_nil
  | aborted result hbrok hsent herror hpark hlast =>
    rcases h.view_completed hparent with ⟨_, _, hawait, _⟩ | hview
    · exact absurd (hpark.symm.trans hawait) false_ne_true
    · rw [hview]
      exact .aborted result hbrok hsent herror hpark hlast

theorem ok_notCompleted (hok : (s.view parent).Ok) (he : e ≠ .completed)
    (hparent : s.tracker.parentOf.get child = some parent) (hbrok : s.broken parent = false)
    (htimedOut : e = .timedOut → s.tracker.isAwaiting parent = true) :
    ((s.ending child e).view parent).Ok := by
  have hmem := (h.parentOf_iff child parent).mp hparent
  cases hok with
  | waiting _ hsent _ hfail hpark =>
    have hnone : s.sentTo parent = [] := hsent
    cases e with
    | completed => exact absurd rfl he
    | failed =>
      rw [h.view_failed hparent, hnone]
      refine .aborted _ rfl rfl rfl rfl ?_
      show (!s.tracker.isAwaiting parent || _) = true ∨ _ = true
      rw [← hpark]
      cases hawait : s.tracker.isAwaiting parent with
      | true => exact .inr hawait
      | false => exact .inl rfl
    | timedOut =>
      rw [h.view_timedOut hparent, hnone]
      exact .aborted _ rfl rfl rfl rfl (.inr (hpark.symm.trans (htimedOut rfl)))
  | answered op _ _ hpend _ _ =>
    rw [show s.pending parent = [] from hpend] at hmem
    exact absurd hmem not_mem_nil
  | aborted _ hbrok' => exact absurd (hbrok.symm.trans hbrok') false_ne_true

theorem ok_finalizing (hok : (s.view root).Ok) (hroot : ¬ s.IsChild root)
    (hfirst : root ∉ s.finalized) : ((s.finalizing root op).view root).Ok := by
  have hnot : (s.view root).finalized = false := decide_eq_false hfirst
  cases hok with
  | waiting hbrok hsent hexp hfail hpark =>
    rcases h.view_finalizing_self hroot op with ⟨hmark, _⟩ | ⟨_, hzero, hview⟩ | ⟨_, hview⟩
    · exact absurd (hfail.symm.trans hmark) false_ne_true
    · rw [hview, show s.sentTo root = [] from hsent]
      have hpend : (s.view root).pending = [] :=
        eq_nil_of_length_eq_zero (hexp.symm.trans hzero)
      exact .answered op hbrok rfl hpend rfl (hpark.trans hnot)
    · rw [hview]
      exact .waiting hbrok hsent hexp hfail rfl
  | answered op _ _ _ hfinl _ => exact absurd (hnot.symm.trans hfinl) false_ne_true
  | aborted result hbrok hsent herror hpark hlast =>
    have hmark : (s.view root).failed = true := hlast.resolve_right fun hfinl =>
      false_ne_true (hnot.symm.trans hfinl)
    rcases h.view_finalizing_self hroot op with ⟨_, hview⟩ | ⟨hfail, _⟩ | ⟨hfail, _⟩
    · rw [hview]
      exact .aborted result hbrok hsent herror hpark (.inr rfl)
    · exact absurd (hfail.symm.trans hmark) false_ne_true
    · exact absurd (hfail.symm.trans hmark) false_ne_true

omit h in
theorem completed_of_ended (hbrok : s.broken root = false) (hchild : child ∈ s.children root)
    (hmem : (child, e) ∈ s.ended) : e = .completed := by
  by_contra hne
  have htrue : s.broken root = true := any_eq_true.mpr ⟨_, hmem, by simpa using ⟨hchild, hne⟩⟩
  exact false_ne_true (hbrok.symm.trans htrue)

theorem Linked.completed_of_unlinked (hnone : s.tracker.parentOf.get child = none)
    (horderly : s.Orderly (.childEnds child e)) (hchild : child ∈ s.children root) : e = .completed := by
  rcases horderly with he | horderly
  · exact he
  · obtain ⟨hnot, hbrok, _⟩ := horderly _ (mem_children_iff.mp hchild) rfl
    have hended : s.IsEnded child := by
      by_contra hnotEnded
      exact h.not_mem_pending hnone (mem_pending_iff.mpr ⟨hchild, hnotEnded⟩)
    obtain ⟨ending, hmem, rfl⟩ := mem_map.mp hended
    exact absurd (completed_of_ended hbrok hchild hmem ▸ hmem) hnot

theorem ok_ending (hok : ∀ root, (s.view root).Ok) (horderly : s.Orderly (.childEnds child e))
    (root : Transaction) : ((s.ending child e).view root).Ok := by
  cases hparent : s.tracker.parentOf.get child with
  | none =>
    rw [h.view_of_unlinked hparent (h.completed_of_unlinked hparent horderly)]
    exact hok root
  | some parent =>
    by_cases hroot : root = parent
    · rw [hroot]
      by_cases he : e = .completed
      · rw [he]
        exact ok_completed h (hok parent) hparent
      · obtain ⟨_, hbrok, htimedOut⟩ :=
          horderly.resolve_left he _ (mem_children_iff.mp (h.mem_children hparent)) rfl
        exact ok_notCompleted h (hok parent) he hparent hbrok htimedOut
    · rw [h.view_of_ne hparent hroot]
      exact hok root

end LinkedSteps

theorem ok_step {s' : SubOpHistory D} {event : SubOpEvent D} (h : s.Linked ∧ ∀ root, (s.view root).Ok)
    (horderly : s.Orderly event) (hstep : s.step event = some s') :
    s'.Linked ∧ ∀ root, (s'.view root).Ok := by
  obtain ⟨hlinked, hok⟩ := h
  cases event with
  | register root child =>
    simp only [step, ite_none_right_eq_some, some.injEq] at hstep
    obtain ⟨⟨hfresh, hne, hroot⟩, rfl⟩ := hstep
    refine ⟨hlinked.registering hfresh hne hroot, ?_⟩
    intro root'
    by_cases hsame : root' = root
    · rw [hsame]
      exact ok_registering (hok root) hfresh horderly
    · rw [view_registering hfresh, if_neg hsame]
      exact hok root'
  | childEnds child e =>
    cases hstep
    exact ⟨hlinked.ending child e, ok_ending hlinked hok horderly⟩
  | finalize root op =>
    simp only [step, ite_none_right_eq_some, some.injEq] at hstep
    obtain ⟨⟨hfirst, hroot⟩, rfl⟩ := hstep
    refine ⟨hlinked.finalizing hroot, ?_⟩
    intro root'
    by_cases hsame : root' = root
    · rw [hsame]
      exact ok_finalizing hlinked (hok root) hroot hfirst
    · rw [hlinked.view_finalizing_of_ne hroot hsame]
      exact hok root'

/-- In whatever order roots and sub-operations end, the tracker's links are those of the
sub-operations that have not ended. -/
theorem reachable_linked (r : (subOpMachine D).Reachable) : r.state.Linked := by
  refine r.holds Linked ?_ ?_
  · rintro _ rfl
    exact new_linked
  · intro s event s' h hstep
    cases event with
    | register root child =>
      simp only [subOpMachine, step, ite_none_right_eq_some, some.injEq] at hstep
      obtain ⟨⟨hfresh, hne, hroot⟩, rfl⟩ := hstep
      exact h.registering hfresh hne hroot
    | childEnds child e =>
      cases hstep
      exact h.ending child e
    | finalize root op =>
      simp only [subOpMachine, step, ite_none_right_eq_some, some.injEq] at hstep
      obtain ⟨⟨_, hroot⟩, rfl⟩ := hstep
      exact h.finalizing hroot

variable (s) in
/-- A root's client got at most one result, and the operation's own only if every registered
sub-operation completed and none failed or timed out. -/
def AnsweredOnce (root : Transaction) : Prop :=
  (s.sentTo root).length ≤ 1 ∧ ∀ op, .operation op ∈ s.sentTo root → ∀ child ∈ s.children root,
    (child, .completed) ∈ s.ended ∧ (child, .failed) ∉ s.ended ∧ (child, .timedOut) ∉ s.ended

theorem completed_of_pending_nil (hpend : s.pending root = []) (hbrok : s.broken root = false)
    (hchild : child ∈ s.children root) :
    (child, .completed) ∈ s.ended ∧ (child, .failed) ∉ s.ended ∧ (child, .timedOut) ∉ s.ended := by
  have hintact : ∀ e, (child, e) ∈ s.ended → e = .completed := fun _ =>
    completed_of_ended hbrok hchild
  have hended : s.IsEnded child := by
    by_contra hnot
    exact not_mem_nil (hpend ▸ mem_pending_iff.mpr ⟨hchild, hnot⟩)
  obtain ⟨⟨_, e⟩, hmem, rfl⟩ := mem_map.mp hended
  refine ⟨hintact e hmem ▸ hmem, ?_, ?_⟩
  · exact fun hfail => Ending.noConfusion (hintact _ hfail)
  · exact fun htimedOut => Ending.noConfusion (hintact _ htimedOut)

theorem answeredOnce_of_ok (hok : (s.view root).Ok) : s.AnsweredOnce root := by
  cases hok with
  | waiting _ hsent _ _ _ =>
    have hnone : s.sentTo root = [] := hsent
    unfold AnsweredOnce
    rw [hnone]
    simp
  | answered op hbrok hsent hpend _ _ =>
    have hone : s.sentTo root = [.operation op] := hsent
    refine ⟨by rw [hone]; exact Nat.le_refl 1, ?_⟩
    intro _ _ child hchild
    exact completed_of_pending_nil hpend hbrok hchild
  | aborted result _ hsent herror _ _ =>
    have hone : s.sentTo root = [result] := hsent
    refine ⟨by rw [hone]; exact Nat.le_refl 1, ?_⟩
    intro op hop
    rw [hone, mem_singleton] at hop
    rw [← hop] at herror
    exact absurd herror false_ne_true

theorem new_ok (root : Transaction) : ((new : SubOpHistory D).view root).Ok :=
  .waiting rfl rfl rfl rfl rfl

end SubOpHistory

/-- In a run whose events are in order, every client is answered at most once, and with the
operation's own result only if every sub-operation completed. -/
theorem clients_answeredOnce {events : List (SubOpEvent D)} {s : SubOpHistory D}
    (horderly : (subOpMachine D).Along Orderly .new events)
    (hrun : (subOpMachine D).runFrom .new events = some s) (root : Transaction) : s.AnsweredOnce root := by
  have hinv := (subOpMachine D).invariant_of_along Orderly
    (fun s => s.Linked ∧ ∀ root, (s.view root).Ok) (fun s event s' h hcond hstep => ok_step h hcond hstep)
    ⟨new_linked, new_ok⟩ horderly hrun
  exact answeredOnce_of_ok (hinv.2 root)

def rootTransaction : Transaction := ⟨2, none⟩

def childTransaction (n : Ulid) : Transaction := ⟨n, some 2⟩

def rootOperation : OpEnum Unit := ⟨.get, rootTransaction, ()⟩

def bothComplete : List (SubOpEvent Unit) :=
  [.register rootTransaction (childTransaction 3), .register rootTransaction (childTransaction 4),
    .childEnds (childTransaction 3) .completed, .finalize rootTransaction rootOperation,
    .childEnds (childTransaction 4) .completed]

theorem bothComplete_answeredOnce :
    ∃ s, (subOpMachine Unit).runFrom .new bothComplete = some s ∧ (s.sentTo rootTransaction).length = 1 ∧
      s.AnsweredOnce rootTransaction := by
  refine ⟨_, rfl, by decide +kernel, ?_⟩
  exact clients_answeredOnce
    (show (subOpMachine Unit).Along _ _ bothComplete by decide +kernel) rfl rootTransaction

def timesOutEarly : List (SubOpEvent Unit) :=
  [.register rootTransaction (childTransaction 3), .childEnds (childTransaction 3) .timedOut,
    .finalize rootTransaction rootOperation]

/-- The client gets the timeout and then the root's own result as well. -/
theorem timesOutEarly_answeredTwice : ∃ s, (subOpMachine Unit).runFrom .new timesOutEarly = some s ∧
      s.sentTo rootTransaction = [.subOperationTimedOut (childTransaction 3), .operation rootOperation] ∧
      ¬ s.AnsweredOnce rootTransaction := by
  refine ⟨_, rfl, rfl, ?_⟩
  intro h
  exact absurd h.1 (by decide +kernel)

end Freenet.Node
