import Freenet.Node.RootFinalization

/-! The steps of completions and of the finalization one by one, and what they come to. -/
namespace Freenet.Node
open Lib CompletionStage Finset
variable {D : Type}

namespace Finalization
variable {root child : Transaction} {op : OpEnum D} {children : Finset Transaction} {s : Finalization D}

variable (s) in
/-- No completion looks for the root between the check that found sub-operations pending and the
parking. -/
def Undisturbed : FinalizationStep → Prop
  | .finalizer => True
  | .completion child => s.finalizer = .park → (s.completion child).takesRoot = false

instance : ∀ step : FinalizationStep, Decidable (s.Undisturbed step)
  | .finalizer => inferInstanceAs (Decidable True)
  | .completion _ => inferInstanceAs (Decidable (_ → _))

theorem Sound.expected_pos (h : s.Sound root children) (hchild : child ∈ children)
    (howes : (s.completion child).owes = 1) : 0 < s.maps.tracker.expected root := by
  rw [h.counted, ← Finset.add_sum_erase children _ hchild, howes]
  exact Nat.lt_of_lt_of_le Nat.one_pos (Nat.le_add_right _ _)

variable {maps : SharedMaps D} {stage : CompletionStage D}

section Advances
variable (h : s.Sound root children)
include h

theorem Sound.advance_countDown (hchild : child ∈ children)
    (hstage : s.completion child = .countDown root)
    (hnext : (countDown root).next child s.maps = some (stage, maps)) :
    Advance root s child stage maps := by
  have hpos : 0 < s.maps.tracker.expected root := h.expected_pos hchild (by rw [hstage]; rfl)
  have hunlist : child ∉ (s.maps.tracker.subOperations.get root).getD [] := by
    intro hmem
    have hlist := (h.listed child hmem).2
    rw [hstage] at hlist
    cases hlist
  simp only [next] at hnext
  unfold SubOperationTracker.expected at hpos
  cases hget : s.maps.tracker.expectedSubOperations.get root with
  | none =>
    rw [hget] at hpos
    exact absurd hpos (Nat.lt_irrefl 0)
  | some expected =>
    rw [hget] at hnext hpos
    have hless : expected - 1 + 1 = expected := Nat.sub_add_cancel hpos
    cases hnext
    split_ifs with hlast
    · constructor <;> simp_all [SubOperationTracker.expected, SubOperationTracker.isAwaiting]
    · constructor <;> simp_all [SubOperationTracker.expected, SubOperationTracker.isAwaiting]

theorem Sound.advance_takeRoot (hstage : s.completion child = .takeRoot root) (hpark : s.finalizer ≠ .park)
    (hnext : (takeRoot root).next child s.maps = some (stage, maps)) :
    Advance root s child stage maps := by
  have hzero : s.maps.tracker.expected root = 0 := h.zero child (by rw [hstage]; rfl)
  have hentry := h.entry_eq_nil hzero
  have hawait := OpManager.isSome_awaitingOp s.maps.tracker root
  have hunpark := s.maps.tracker.isAwaiting_unpark root root
  simp only [next] at hnext
  cases hop : s.maps.tracker.awaitingOp root with
  | none =>
    rw [hop] at hnext hawait
    cases hnext
    refine .of_quiet (.refl root s.maps) (.inl rfl) (.inl rfl) (by simp)
      (by rw [hstage]; rfl) ?_ (by simp) ?_ ?_
    · simp [hentry]
    · intro hparked
      rcases hparked with hparked | hparked
      · exact absurd hparked hpark
      · exact absurd (hawait.trans hparked) Bool.false_ne_true
    · rw [hstage]
      simp
  | some op =>
    rw [hop] at hnext
    cases hnext
    constructor <;> simp_all

/-- The next stage is for the root as well, and nothing that counts for the root has changed with
it. -/
@[simp]
def Follows (root : Transaction) (before stage : CompletionStage D) : Prop :=
  (stage.parent = none ∨ stage.parent = some root) ∧ (stage.early = true → before.early = true) ∧
    stage.owes = before.owes ∧ (before.listed = true → stage.listed = true) ∧
    (stage.seenZero = true → before.seenZero = true) ∧ (before.onTheWay = true → stage.onTheWay = true) ∧
    (before.taken.isSome = true → stage.taken.isSome = true)

theorem Sound.advance_of_follows {before stage : CompletionStage D}
    (hstage : s.completion child = before) (hq : Quiet root s.maps maps)
    (hf : Follows root before stage) (hlink : maps.tracker.parentOf = s.maps.tracker.parentOf ∨
      maps.tracker.parentOf = s.maps.tracker.parentOf.remove child ∧ stage.early = false) :
    Advance root s child stage maps := by
  subst hstage
  obtain ⟨hparent, hearly, howes, hlist, hseen, hway, htaken⟩ := hf
  refine .of_quiet hq hparent hlink hearly howes ?_ ?_ (fun _ hbefore => .inr (hway hbefore))
    (fun hbefore => .inl (htaken hbefore))
  · intro hmem
    exact hlist (h.listed child (hq.shrinks child hmem)).2
  · intro hstage
    exact h.zero child (hseen hstage)

/-- Every step of a completion advances it, if it does not look for the root just before the
parking. -/
theorem Sound.advance_of_next (hund : s.Undisturbed (.completion child)) (hchild : child ∈ children)
    (hnext : (s.completion child).next child s.maps = some (stage, maps)) :
    Advance root s child stage maps := by
  have hparent := h.parent child
  have hzero := h.zero child
  have hlist : child ∈ (s.maps.tracker.subOperations.get root).getD [] → _ :=
    fun hmem => (h.listed child hmem).2
  generalize hstage : s.completion child = before at hnext hparent hzero hlist
  cases before with
  | markCompleted =>
    cases hnext
    exact h.advance_of_follows hstage (.of_completedOps _) (by simp) (.inl rfl)
  | findParent =>
    simp only [next, h.linked child hchild (by rw [hstage]; rfl)] at hnext
    cases hnext
    exact h.advance_of_follows hstage (.refl root s.maps) (by simp) (.inl rfl)
  | unlinkChild parent =>
    obtain rfl := hparent parent rfl
    simp only [next] at hnext
    cases hentry : s.maps.tracker.subOperations.get parent with
    | none =>
      rw [hentry] at hnext
      cases hnext
      exact .of_quiet (.refl parent s.maps) (.inr rfl) (.inl rfl) (by simp) (by simp [hstage])
        (by simp [hentry]) (by simp) (by simp [hstage]) (by simp [hstage])
    | some entry =>
      rw [hentry] at hnext
      cases hnext
      have hquiet : Quiet parent s.maps { s.maps with tracker := { s.maps.tracker with
          subOperations := s.maps.tracker.subOperations.insert parent (entry.filter (· ≠ child)) } } := by
        apply Quiet.of_subOperations
        intro other hmem
        rw [Table.get_insert_self] at hmem
        rw [hentry]
        exact List.mem_of_mem_filter hmem
      split_ifs
      all_goals
        exact .of_quiet hquiet (.inr rfl) (.inl rfl) (by simp) (by simp [hstage]) (by simp) (by simp)
          (by simp [hstage]) (by simp [hstage])
  | dropChildren parent | cleanChildren parent op =>
    obtain rfl := hparent parent rfl
    cases hnext
    exact h.advance_of_follows hstage (.of_subOperations (by simp)) (by simp) (.inl rfl)
  | dropLink parent =>
    obtain rfl := hparent parent rfl
    cases hnext
    have hquiet : Quiet parent s.maps { s.maps with tracker := { s.maps.tracker with
        parentOf := s.maps.tracker.parentOf.remove child } } :=
      ⟨rfl, fun _ hmem => hmem, fun _ hmem => hmem, rfl, fun _ hmem => hmem⟩
    exact h.advance_of_follows hstage hquiet (by simp) (.inr ⟨rfl, rfl⟩)
  | countDown parent =>
    obtain rfl := hparent parent rfl
    exact h.advance_countDown hchild hstage hnext
  | dropCount parent | cleanCount parent op =>
    obtain rfl := hparent parent rfl
    cases hnext
    exact h.advance_of_follows hstage (.of_dropCount (hzero rfl)) (by simp) (.inl rfl)
  | checkCount parent =>
    obtain rfl := hparent parent rfl
    simp only [next] at hnext
    split_ifs at hnext with hpos
    · cases hnext
      exact .of_quiet (.refl parent s.maps) (.inl rfl) (.inl rfl) (by simp)
        (by simp [hstage]) hlist (by simp)
        (fun _ _ => .inl hpos) (by simp [hstage])
    · cases hnext
      exact .of_quiet (.refl parent s.maps) (.inr rfl) (.inl rfl) (by simp) (by simp [hstage]) hlist
        (fun _ => Nat.eq_zero_of_not_pos hpos) (fun _ _ => .inr rfl) (by simp [hstage])
  | checkChildren parent =>
    obtain rfl := hparent parent rfl
    -- nothing is listed any more, so that the check succeeds
    simp only [next, h.entry_eq_nil (hzero rfl)] at hnext
    cases hnext
    exact h.advance_of_follows hstage (.refl parent s.maps) (by simp) (.inl rfl)
  | takeRoot parent =>
    have hpark : s.finalizer ≠ .park := by
      intro hpark
      have hnot := hund hpark
      rw [hstage] at hnot
      cases hnot
    obtain rfl := hparent parent rfl
    exact h.advance_takeRoot hstage hpark hnext
  | unmarkFailed parent op =>
    obtain rfl := hparent parent rfl
    cases hnext
    have hquiet : Quiet parent s.maps { s.maps with tracker := s.maps.tracker.unfailParent parent } :=
      ⟨rfl, fun _ hmem => hmem, fun _ hmem => List.mem_of_mem_filter hmem, rfl, fun _ hmem => hmem⟩
    exact h.advance_of_follows hstage hquiet (by simp) (.inl rfl)
  | completeRoot parent op =>
    obtain rfl := hparent parent rfl
    cases hnext
    exact h.advance_of_follows hstage (.of_completedOps _) (by simp) (.inl rfl)
  | sendResult parent op =>
    obtain rfl := hparent parent rfl
    cases hnext
    have hquiet : Quiet parent s.maps { s.maps with sent := s.maps.sent ++ [(parent, op)] } :=
      ⟨rfl, fun _ hmem => hmem, fun _ hmem => hmem, rfl, fun _ hmem => List.mem_append_left _ hmem⟩
    exact .of_quiet hquiet (.inl rfl) (.inl rfl) (by simp) (by simp [hstage]) hlist (by simp)
      (by simp [hstage]) (fun _ => .inr ⟨op, by simp⟩)
  | done => cases hnext

theorem Sound.completion_step (op : OpEnum D) {s' : Finalization D}
    (hund : s.Undisturbed (.completion child)) (hstep : s.step root op (.completion child) = some s') :
    s'.Sound root children := by
  obtain ⟨⟨stage, maps⟩, hnext, rfl⟩ := Option.map_eq_some_iff.mp hstep
  have hchild : child ∈ children := by
    by_contra hnot
    rw [h.idle child hnot] at hnext
    cases hnext
  exact h.advance hchild (h.advance_of_next hund hchild hnext)

end Advances

variable (h : s.Sound root children)
include h

theorem Sound.refinalize {stage : FinalizeStage} {maps : SharedMaps D}
    (hexp : maps.tracker.expected root = s.maps.tracker.expected root)
    (hparentOf : maps.tracker.parentOf = s.maps.tracker.parentOf)
    (hsubOper : maps.tracker.subOperations = s.maps.tracker.subOperations)
    (hfail : maps.tracker.failedParents = s.maps.tracker.failedParents)
    (hcheck : stage = .checkChildren → s.maps.tracker.expected root = 0) (hkept : stage ≠ .drop)
    (howed : stage = .park ∨ maps.tracker.isAwaiting root = true → s.Owed root children)
    (hansw : stage = .done → maps.tracker.isAwaiting root = true ∨ ∃ op, (root, op) ∈ maps.sent) :
    Sound root children { s with finalizer := stage, maps := maps } where
  idle := h.idle
  parent := h.parent
  linked := by
    rw [hparentOf]
    exact h.linked
  counted := hexp.trans h.counted
  listed := by
    rw [hsubOper]
    exact h.listed
  notFailed := by
    rw [hfail]
    exact h.notFailed
  zero child hseen := hexp.trans (h.zero child hseen)
  checked hstage := hexp.trans (hcheck hstage)
  kept := hkept
  owed hparked := (howed hparked).imp_left fun hpos => hexp.symm ▸ hpos
  answered hdone := (hansw hdone).imp_right .inr

theorem Sound.finalizer_step {s' : Finalization D}
    (hstep : s.step root op .finalizer = some s') : s'.Sound root children := by
  obtain ⟨⟨stage, maps⟩, hnext, rfl⟩ := Option.map_eq_some_iff.mp hstep
  cases hstage : s.finalizer with
  | checkFailed =>
    rw [hstage] at hnext
    simp only [FinalizeStage.next, if_neg h.notFailed] at hnext
    cases hnext
    exact h.refinalize rfl rfl rfl rfl nofun nofun (by simpa using fun hawait => h.owed (.inr hawait)) nofun
  | checkCount =>
    rw [hstage] at hnext
    simp only [FinalizeStage.next] at hnext
    split_ifs at hnext with hpos
    · cases hnext
      exact h.refinalize rfl rfl rfl rfl nofun nofun (fun _ => .inl hpos) nofun
    · cases hnext
      exact h.refinalize rfl rfl rfl rfl (fun _ => Nat.eq_zero_of_not_pos hpos) nofun
        (by simpa using fun hawait => h.owed (.inr hawait)) nofun
  | checkChildren =>
    rw [hstage] at hnext
    simp only [FinalizeStage.next, h.entry_eq_nil (h.checked hstage)] at hnext
    cases hnext
    exact h.refinalize rfl rfl rfl rfl nofun nofun (by simpa using fun hawait => h.owed (.inr hawait)) nofun
  | complete =>
    rw [hstage] at hnext
    cases hnext
    exact h.refinalize rfl rfl rfl rfl nofun nofun (by simpa using fun hawait => h.owed (.inr hawait)) nofun
  | answer =>
    rw [hstage] at hnext
    cases hnext
    exact h.refinalize rfl rfl rfl rfl nofun nofun (by simpa using fun hawait => h.owed (.inr hawait))
      fun _ => .inr ⟨op, by simp⟩
  | park =>
    rw [hstage] at hnext
    cases hnext
    have hparked := s.maps.tracker.isAwaiting_park root root op
    refine h.refinalize rfl rfl rfl rfl nofun nofun (fun _ => h.owed (.inl hstage)) fun _ => .inl ?_
    simp [hparked]
  | drop => exact absurd hstage h.kept
  | done =>
    rw [hstage] at hnext
    cases hnext

omit h in
theorem Starts.sound (h : s.Starts root children) : s.Sound root children where
  idle child hnot := by
    rw [h.completion]
    exact if_neg hnot
  parent child parent := by
    rw [h.completion]
    dsimp only
    split_ifs
    · exact nofun
    · exact nofun
  linked child hchild _ := h.registered.linked child hchild
  counted := by
    rw [h.registered.expected, card_eq_sum_ones]
    apply sum_congr rfl
    intro child hchild
    rw [h.completion]
    simp [hchild]
  listed child hmem := by
    have hchild := h.registered.listed child hmem
    refine ⟨hchild, ?_⟩
    rw [h.completion]
    simp [hchild]
  notFailed := h.registered.notFailed
  zero child := by
    rw [h.completion]
    dsimp only
    split_ifs
    · exact nofun
    · exact nofun
  checked hstage := absurd (h.finalizer.symm.trans hstage) nofun
  kept hstage := absurd (h.finalizer.symm.trans hstage) nofun
  owed hparked := by
    rcases hparked with hstage | hawait
    · exact absurd (h.finalizer.symm.trans hstage) nofun
    · exact absurd (h.registered.notAwaiting.symm.trans hawait) Bool.false_ne_true
  answered hstage := absurd (h.finalizer.symm.trans hstage) nofun

theorem Sound.delivered (hrest : s.AtRest children) :
    s.maps.tracker.isAwaiting root = false ∧ ∃ op, (root, op) ∈ s.maps.sent := by
  obtain ⟨hfinr, hcompl⟩ := hrest
  have hdone : ∀ child, s.completion child = .done := by
    intro child
    by_cases hchild : child ∈ children
    · exact hcompl child hchild
    · exact h.idle child hchild
  have hzero : s.maps.tracker.expected root = 0 := by
    rw [h.counted]
    apply sum_eq_zero
    intro child _
    rw [hdone]
    rfl
  have hfree : s.maps.tracker.isAwaiting root = false := by
    rw [Bool.eq_false_iff]
    intro hawait
    rcases h.owed (.inr hawait) with hpos | ⟨child, _, hway⟩
    · exact absurd hzero hpos.ne'
    · rw [hdone] at hway
      cases hway
  refine ⟨hfree, ?_⟩
  rcases h.answered hfinr with hawait | ⟨child, htaken⟩ | hsent
  · exact absurd (hfree.symm.trans hawait) Bool.false_ne_true
  · rw [hdone] at htaken
    cases htaken
  · exact hsent

end Finalization

/-- A root that is finalized beside the completions of its sub-operations is not left parked, and
its result is sent, unless a completion looked for it between check and parking. -/
theorem root_delivered (root : Transaction) (op : OpEnum D) (children : Finset Transaction)
    {s t : Finalization D} {steps : List FinalizationStep} (hs : (finalization root op children).init s)
    (hund : (finalization root op children).Along Finalization.Undisturbed s steps)
    (hrun : (finalization root op children).runFrom s steps = some t) (hrest : t.AtRest children) :
    t.maps.tracker.isAwaiting root = false ∧ ∃ op, (root, op) ∈ t.maps.sent := by
  have hsound : t.Sound root children := by
    refine (finalization root op children).invariant_of_along Finalization.Undisturbed
      (fun s => s.Sound root children) ?_ hs.sound hund hrun
    intro s step s' h hcond hstep
    cases step with
    | finalizer => exact h.finalizer_step hstep
    | completion child => exact h.completion_step op hcond hstep
  exact hsound.delivered hrest

def finalizedRoot : Transaction := ⟨2, none⟩

def finalizedOp : OpEnum Unit := ⟨.get, finalizedRoot, ()⟩

def onlyChild : Transaction := ⟨3, some 2⟩

def oneChild : Finset Transaction := insert onlyChild ∅

def besideOneChild : Finalization Unit where
  finalizer := .checkFailed
  completion child := if child ∈ oneChild then .markCompleted else .done
  maps := ⟨OpManager.new.subOpTracker.expectAndRegisterSubOperation finalizedRoot onlyChild, [], []⟩

theorem besideOneChild_init : (finalization finalizedRoot finalizedOp oneChild).init besideOneChild where
  finalizer := rfl
  completion := rfl
  registered := (Finalization.registered_new finalizedRoot).register (notMem_empty _)
  sent := rfl

/-- The root is parked before the completion begins. -/
def parksFirst : List FinalizationStep :=
  List.replicate 3 .finalizer ++ List.replicate 15 (.completion onlyChild)

theorem parksFirst_delivered :
    ∃ t, (finalization finalizedRoot finalizedOp oneChild).runFrom besideOneChild parksFirst = some t ∧
      t.AtRest oneChild ∧ t.maps.tracker.isAwaiting finalizedRoot = false ∧
      ∃ op, (finalizedRoot, op) ∈ t.maps.sent := by
  have hund : (finalization finalizedRoot finalizedOp oneChild).Along Finalization.Undisturbed besideOneChild
      parksFirst := by
    decide +kernel
  refine ⟨_, rfl, ?_⟩
  refine (and_iff_left_of_imp ?_).mpr ⟨rfl, ?_⟩
  · exact root_delivered finalizedRoot finalizedOp oneChild besideOneChild_init hund rfl
  · intro child hchild
    rw [mem_singleton.mp hchild]
    rfl

def completesInBetween : List FinalizationStep :=
  List.replicate 2 .finalizer ++ List.replicate 10 (.completion onlyChild) ++ [.finalizer]

theorem completesInBetween_leftParked :
    (finalization finalizedRoot finalizedOp oneChild).init besideOneChild ∧
    ∃ t, (finalization finalizedRoot finalizedOp oneChild).runFrom besideOneChild
      completesInBetween = some t ∧
      t.AtRest oneChild ∧ t.maps.tracker.isAwaiting finalizedRoot = true ∧ t.maps.sent = [] := by
  refine ⟨besideOneChild_init, _, rfl, ⟨rfl, ?_⟩, by decide +kernel, rfl⟩
  intro child hchild
  rw [mem_singleton.mp hchild]
  rfl

end Freenet.Node
