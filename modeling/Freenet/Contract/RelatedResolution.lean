import Freenet.Contract.UpsertFrames
import Freenet.Lib.Growing
import Mathlib.Data.Nat.Nth

/-! The loops in which an update collects related contracts, and an executor that finds any given
answers. -/
namespace Freenet.Contract
open Lib Lib.Task Environment Function Nat List

abbrev UpdateState := ContractKey → Parameters → WrappedState → List UpdateData →
  Except WasmError UpdateModification

def Environment.updating (env : Environment) (updateState : UpdateState) : Environment :=
  { env with updateState := updateState }

def asked : Except WasmError UpdateModification → List RelatedContract
  | .ok modification => if modification.newState.isNone then modification.related else []
  | .error _ => []

def Answers (related : RelatedContract) (update : UpdateData) : Prop :=
  ∃ state, update = .relatedState related.contractInstanceId state ∨ update = .state state

/-- The contract asks for related contracts, and the updates grow by an answer for each. -/
def Continues (result : Except WasmError UpdateModification) (updates updates' : List UpdateData) : Prop :=
  asked result ≠ [] ∧ ∃ answers, Forall₂ Answers (asked result) answers ∧ updates' = updates ++ answers

/-- There are no growing lists of updates, from the given update on, for all of which the contract
asks for related contracts again. -/
def StopsAsking (updateState : UpdateState) (key : ContractKey) (params : Parameters)
    (current : WrappedState) (update : UpdateData) : Prop :=
  ¬∃ lists : Nat → List UpdateData, lists 0 = [update] ∧
    ∀ n, Continues (updateState key params current (lists n)) (lists n) (lists (n + 1))

variable {env : Environment} {key : ContractKey} {params : Parameters} {current : WrappedState}
  {updates updates' : List UpdateData} {related : RelatedContract}

theorem fetchRelated_answers :
    Yields (fun _ => True) (env.fetchRelated key related) (fun update _ => Answers related update) := by
  refine triple_any.bind fun found => ?_
  cases found with
  | some state => exact triple_pure fun _ _ => ⟨state, .inl rfl⟩
  | none =>
    refine triple_any.bind fun found => triple_any.bind fun state => ?_
    exact triple_any.andThen (triple_pure fun _ _ => ⟨state, .inr rfl⟩)

variable {result : Except WasmError UpdateModification} {missing : List RelatedContract}

theorem fetchMissing_answers : Yields (fun _ => True) (env.fetchMissing key updates missing)
      (fun updates' _ => ∃ answers, Forall₂ Answers missing answers ∧
        updates' = updates ++ answers) := by
  induction missing generalizing updates with
  | nil => exact triple_pure fun _ _ => ⟨[], .nil, (append_nil updates).symm⟩
  | cons related missing ih =>
    have hfirst : Yields (fun _ => True)
        (env.fetchRelated key related >>= fun update => pure (updates ++ [update]))
        (fun updates' _ => ∃ update, Answers related update ∧ updates' = updates ++ [update]) :=
      fetchRelated_answers.bind fun update => triple_pure fun _ h => ⟨update, h, rfl⟩
    refine hfirst.bind ?_
    rintro _ run ⟨update, hupd, rfl⟩
    refine (ih.post ?_) run trivial
    rintro _ _ ⟨answers, hansw, rfl⟩
    exact ⟨update :: answers, .cons hupd hansw, by simp⟩

theorem retry_eq {answers : List UpdateData} (h : Forall₂ Answers missing answers) :
    env.retry (missing.length + 1) (updates ++ answers) = pure (updates ++ answers) := by
  unfold retry
  rw [if_pos]
  rw [length_append, h.length_eq]
  omega

variable {α : Type} {compute : List UpdateData → ExecutorTask (α ⊕ List RelatedContract)}

theorem resolveStep_continues
    (hcomp : Yields (fun _ => True) (compute updates)
      (fun computed _ => ∀ missing, computed = .inr missing → missing = asked result ∧ missing ≠ [])) :
    Yields (fun _ => True) (env.resolveStep key compute updates)
      (fun next _ => ∀ updates', next = .inr updates' → Continues result updates updates') := by
  refine hcomp.bind ?_
  intro computed
  cases computed with
  | inl value =>
    refine triple_pure ?_
    rintro _ _ _ ⟨⟩
  | inr missing =>
    intro run hmiss
    obtain ⟨rfl, hne⟩ := hmiss missing rfl
    refine (fetchMissing_answers.bind ?_) run trivial
    rintro _ run ⟨answers, hansw, rfl⟩
    rw [retry_eq hansw]
    rintro _ ⟨⟩
    exact ⟨hne, answers, hansw, rfl⟩

theorem runUpdateState_called : Yields (fun _ => True) (env.runUpdateState key params current updates)
      (fun result _ => result = env.updateState key params current updates) := by
  intro run _
  rfl

theorem orExecution_called {upsert : Option ContractKey} :
    Yields (fun _ => result = env.updateState key params current updates) (orExecution upsert result)
      (fun modification _ => env.updateState key params current updates = .ok modification) := by
  refine orExecution_triple ?_ fun _ _ _ _ => trivial
  rintro modification rfl _ hresult
  exact hresult.symm

theorem attemptStateUpdate_asked :
    Yields (fun _ => True) (env.attemptStateUpdate params current key updates)
      (fun computed _ => ∀ missing, computed = .inr missing →
        missing = asked (env.updateState key params current updates) ∧ missing ≠ []) := by
  refine runUpdateState_called.bind fun result => orExecution_called.bind fun modification => ?_
  refine triple_pure ?_
  intro _ hresult missing hmiss
  rw [hresult]
  unfold UpdateModification.outcome at hmiss
  cases hnew : modification.newState with
  | some newState =>
    rw [hnew] at hmiss
    cases hmiss
  | none =>
    rw [hnew] at hmiss
    split_ifs at hmiss with hempty
    cases hmiss
    exact ⟨by simp [asked, hnew], by simpa using hempty⟩

theorem computeStateUpdate_asked :
    Yields (fun _ => True) (env.computeStateUpdate key params current updates)
      (fun computed _ => ∀ missing, computed = .inr missing →
        missing = asked (env.updateState key params current updates) ∧ missing ≠ []) := by
  refine runUpdateState_called.bind fun result => orExecution_called.bind fun modification => ?_
  cases hnew : modification.newState with
  | some newState =>
    dsimp only
    split_ifs
    all_goals
      refine triple_pure ?_
      rintro _ _ _ ⟨⟩
  | none =>
    split_ifs with hempty
    · refine triple_pure ?_
      rintro _ _ _ ⟨⟩
    · refine triple_pure ?_
      rintro _ hresult _ ⟨⟩
      rw [hresult]
      exact ⟨by simp [asked, hnew], by simpa using hempty⟩

theorem ends_of_stopsAsking {step : List UpdateData → ExecutorTask (α ⊕ List UpdateData)}
    {updateState : UpdateState} {update : UpdateData} {run : RequestRun}
    (hstep : ∀ updates, Yields (fun _ => True) (step updates)
      (fun next _ => ∀ updates', next = .inr updates' →
        Continues (updateState key params current updates) updates updates'))
    (hstops : StopsAsking updateState key params current update) : Task.Ends step [update] run := by
  by_contra hends
  obtain ⟨values, hzero, hnext⟩ := Task.exists_endless hends
  refine hstops ⟨fun n => (values n).1, congrArg Prod.fst hzero, ?_⟩
  intro n
  have hpass := hstep (values n).1 (values n).2 trivial
  rw [hnext n] at hpass
  exact hpass _ rfl

def UpdateData.isState : UpdateData → Bool
  | .state _ => true
  | _ => false

def UpdateData.carried : UpdateData → WrappedState
  | .state content => content
  | .relatedState _ content => content
  | _ => []

variable (answers : Nat → UpdateData)

def supplied : StateStore :=
  ⟨⟨none, fun key => some (answers key.codeHash).carried⟩, .empty, []⟩

/-- Related contracts are found one after the other. Where the answer is a plain state, the first
attempt to read it fails. -/
noncomputable def Environment.supplying : Environment :=
  { appending 0 with
    io := fun site n =>
      if site = .relatedState ∧ (answers n).isState then ⟨false, true, false, false⟩ else .reliable
    codeHashFromId := fun site n _ =>
      some (if site = .relatedState then n else nth (fun m => (answers m).isState) n) }

structure Given (n : Nat) (run : RequestRun) : Prop where
  store : run.store = supplied answers
  related : run.accesses .relatedState = n
  fetched : run.accesses .localOrNetwork = count (fun m => (answers m).isState) n

variable {answers} {updateState : UpdateState} {key : ContractKey} {n : Nat} {run : RequestRun}

theorem get_supplied {io : Io} (hevicts : io.evicts = false) : (supplied answers).get io key =
      (if io.readFails then .error .any else .ok (answers key.codeHash).carried, supplied answers) := by
  unfold StateStore.get StateStore.looked
  rw [hevicts]
  cases io.readFails <;> rfl

theorem localState_supplied (env : Environment) (site : Site) (id : ContractInstanceId) {hash : Nat}
    (hstore : run.store = supplied answers)
    (hhash : env.codeHashFromId site (run.accesses site) id = some hash)
    (hevicts : (env.io site (run.accesses site)).evicts = false) :
    env.localState site id run =
      .ok (if (env.io site (run.accesses site)).readFails then none else some (answers hash).carried)
        { run with accesses := update run.accesses site (run.accesses site + 1) } := by
  refine modifyGet_of_eq ?_
  dsimp only
  rw [hhash, hstore]
  dsimp only
  rw [get_supplied hevicts, ← hstore]
  cases (env.io site (run.accesses site)).readFails <;> rfl

theorem supplying_evicts {site : Site} :
    (((supplying answers).updating updateState).io site n).evicts = false := by
  dsimp only [supplying, updating]
  split_ifs <;> rfl

theorem supplying_readFails_related :
    (((supplying answers).updating updateState).io .relatedState n).readFails = (answers n).isState := by
  dsimp only [supplying, updating]
  cases (answers n).isState <;> rfl

variable (id : ContractInstanceId)

theorem localState_related (h : Given answers n run) :
    ((supplying answers).updating updateState).localState .relatedState id run =
      .ok (if (answers n).isState then none else some (answers n).carried)
        { run with accesses := update run.accesses .relatedState (n + 1) } := by
  rw [localState_supplied _ .relatedState id h.store rfl supplying_evicts,
    supplying_readFails_related, h.related]
  rfl

theorem localState_localOrNetwork (hstore : run.store = supplied answers)
    (hfetched : run.accesses .localOrNetwork = count (fun m => (answers m).isState) n)
    (hplain : (answers n).isState = true) :
    ((supplying answers).updating updateState).localState .localOrNetwork id run =
      .ok (some (answers n).carried)
        { run with
          accesses :=
            update run.accesses .localOrNetwork (count (fun m => (answers m).isState) n + 1) } := by
  have hhash : ((supplying answers).updating updateState).codeHashFromId .localOrNetwork
      (run.accesses .localOrNetwork) id = some n := by
    rw [hfetched]
    exact congrArg some (nth_count (p := fun m => (answers m).isState = true) hplain)
  rw [localState_supplied _ .localOrNetwork id hstore hhash supplying_evicts, hfetched]
  rfl

variable (updateState key) in
theorem fetchRelated_supplied (h : Given answers n run)
    (hansw : Answers related (answers n)) :
    ∃ run', ((supplying answers).updating updateState).fetchRelated key related run =
      .ok (answers n) run' ∧ Given answers (n + 1) run' := by
  unfold fetchRelated
  rw [bind_of_ok (localState_related related.contractInstanceId h)]
  obtain ⟨hstore, hrelat, hfetched⟩ := h
  obtain ⟨state, hstate | hstate⟩ := hansw
  · have hplain : (answers n).isState = false := by
      rw [hstate]
      rfl
    refine ⟨{ run with accesses := update run.accesses .relatedState (n + 1) }, ?_, ?_⟩
    · rw [hstate]
      rfl
    · refine ⟨hstore, rfl, ?_⟩
      rw [count_succ, if_neg (by simp [hplain])]
      exact hfetched
  · have hplain : (answers n).isState = true := by
      rw [hstate]
      rfl
    let first : RequestRun :=
      { run with accesses := update run.accesses .relatedState (n + 1) }
    let second : RequestRun :=
      { first with
        accesses := update first.accesses .localOrNetwork (count (fun m => (answers m).isState) n + 1) }
    have hlocal : ((supplying answers).updating updateState).localStateOrFromNetwork
        related.contractInstanceId first = .ok (.inl (answers n).carried) second := by
      have hfound : ((supplying answers).updating updateState).localState .localOrNetwork
          related.contractInstanceId first = .ok (some (answers n).carried) second :=
        localState_localOrNetwork related.contractInstanceId hstore hfetched hplain
      exact bind_of_ok hfound
    have hsubsc : ((supplying answers).updating updateState).subscribeFetched related
        second = .ok () second := by
      unfold subscribeFetched
      cases related.mode <;> rfl
    refine ⟨second, ?_, hstore, rfl, ?_⟩
    · rw [hplain]
      refine (bind_of_ok hlocal).trans ((bind_of_ok hsubsc).trans ?_)
      rw [hstate]
      rfl
    · rw [count_succ, if_pos hplain]
      rfl

variable (updateState key) in
theorem fetchMissing_supplied {missing : List RelatedContract} {given : List UpdateData}
    (updates : List UpdateData) (h : Given answers n run) (hgiven : Forall₂ Answers missing given)
    (hnext : ∀ i < given.length, given[i]? = some (answers (n + i))) :
    ∃ run', ((supplying answers).updating updateState).fetchMissing key updates missing run =
      .ok (updates ++ given) run' ∧ Given answers (n + given.length) run' := by
  unfold fetchMissing
  induction hgiven generalizing n run updates with
  | nil =>
    refine ⟨run, ?_, h⟩
    rw [append_nil]
    rfl
  | @cons related answer missing given hanswer _ ih =>
    have hansw' : answer = answers n := by simpa using hnext 0 (by simp)
    subst hansw'
    obtain ⟨run', hfetch, hgiven'⟩ := fetchRelated_supplied updateState key h hanswer
    have hrest : ∀ i < given.length, given[i]? = some (answers (n + 1 + i)) := by
      intro i hi
      have hcons := hnext (i + 1) (by simpa using hi)
      rw [getElem?_cons_succ] at hcons
      rw [hcons, add_assoc, add_comm 1 i]
    obtain ⟨run'', hfold, hgiven''⟩ := ih (updates ++ [answers n]) hgiven' hrest
    refine ⟨run'', ?_, ?_⟩
    · rw [foldlM_cons]
      have hfirst : (((supplying answers).updating updateState).fetchRelated key related >>=
          fun update => pure (updates ++ [update])) run = .ok (updates ++ [answers n]) run' :=
        bind_of_ok hfetch
      refine (bind_of_ok hfirst).trans (hfold.trans ?_)
      rw [append_assoc]
      rfl
    · rw [length_cons, add_comm given.length 1, ← add_assoc]
      exact hgiven''

/-! Updates that ask for related contracts: without end, or with the same states from here or the
network. -/
open UpdateData

section
variable (h : asked (env.updateState key params current updates) ≠ [])
include h

theorem runUpdateState_asks :
    ∃ modification entry, modification.newState = none ∧ modification.related.isEmpty = false ∧
      asked (env.updateState key params current updates) = modification.related ∧
      env.runUpdateState key params current updates run =
        .ok (.ok modification) { run with log := entry :: run.log } := by
  have hrun : env.runUpdateState key params current updates run =
      .ok (env.updateState key params current updates) { run with log := _ :: run.log } := rfl
  cases hresult : env.updateState key params current updates with
  | error e =>
    rw [hresult] at h
    exact absurd rfl h
  | ok modification =>
    rw [hresult] at h hrun
    cases hnew : modification.newState with
    | some newState => simp [asked, hnew] at h
    | none =>
      have hasked : asked (.ok modification) = modification.related := by simp [asked, hnew]
      rw [hasked] at h
      exact ⟨modification, _, hnew, by simpa using h, hasked, hrun⟩

theorem attemptStateUpdate_asks :
    ∃ entry, env.attemptStateUpdate params current key updates run =
      .ok (.inr (asked (env.updateState key params current updates)))
        { run with log := entry :: run.log } := by
  obtain ⟨modification, entry, hnew, hrelat, hasked, hrun⟩ := runUpdateState_asks h
  refine ⟨entry, (bind_of_ok hrun).trans ?_⟩
  have houtc : modification.outcome current = .inr modification.related := by
    unfold UpdateModification.outcome
    rw [hnew, hrelat]
    rfl
  rw [hasked, ← houtc]
  rfl

theorem computeStateUpdate_asks :
    ∃ entry, env.computeStateUpdate key params current updates run =
      .ok (.inr (asked (env.updateState key params current updates)))
        { run with log := entry :: run.log } := by
  obtain ⟨⟨_, _⟩, entry, rfl, hrelat, hasked, hrun⟩ := runUpdateState_asks h
  refine ⟨entry, (bind_of_ok hrun).trans ?_⟩
  rw [hasked]
  change (if _ then _ else _ : ExecutorTask (ComputedStateUpdate ⊕ List RelatedContract)) _ = _
  rw [hrelat]
  rfl

end

variable {params : Parameters} {current : WrappedState} {lists : Nat → List UpdateData} {update : UpdateData}
  {k : Nat} {run : RequestRun}

def answersOf (lists : Nat → List UpdateData) (update : UpdateData) (i : Nat) : UpdateData :=
  limit lists update (i + 1)

theorem length_pos (hgrow : Growing lists) (hzero : lists 0 = [update]) : 0 < (lists k).length := by
  obtain ⟨rest, hrest⟩ := hgrow.isPrefix (Nat.zero_le k)
  rw [← hrest, hzero]
  exact Nat.zero_lt_succ _

theorem answersOf_eq {given : List UpdateData} (hgrow : Growing lists) (hzero : lists 0 = [update])
    (heq : lists (k + 1) = lists k ++ given) :
    ∀ i < given.length, given[i]? = some (answersOf lists update ((lists k).length - 1 + i)) := by
  intro i hi
  have hpos : 0 < (lists k).length := length_pos hgrow hzero
  have hlt : (lists k).length + i < (lists (k + 1)).length := by
    rw [heq, length_append]
    omega
  have hentry := hgrow.getElem?_eq update hlt
  rw [heq, getElem?_append_right (Nat.le_add_right _ _), Nat.add_sub_cancel_left] at hentry
  rw [hentry]
  congr 2
  omega

theorem resolveStep_supplied
    {result : Except WasmError UpdateModification} (hgrow : Growing lists)
    (hzero : lists 0 = [update]) (hcont : Continues result (lists k) (lists (k + 1)))
    (hcomp : ∃ entry, compute (lists k) run = .ok (.inr (asked result)) { run with log := entry :: run.log })
    (h : Given (answersOf lists update) ((lists k).length - 1) run) :
    ∃ run', ((supplying (answersOf lists update)).updating updateState).resolveStep
        key compute (lists k) run = .ok (.inr (lists (k + 1))) run' ∧
      Given (answersOf lists update) ((lists (k + 1)).length - 1) run' := by
  obtain ⟨entry, hasks⟩ := hcomp
  obtain ⟨_, given, hgiven, heq⟩ := hcont
  have hasked : Given (answersOf lists update) ((lists k).length - 1)
      { run with log := entry :: run.log } := { h with }
  obtain ⟨run', hfetched, hgiven'⟩ := fetchMissing_supplied updateState key (lists k) hasked hgiven
    (answersOf_eq hgrow hzero heq)
  refine ⟨run', ?_, ?_⟩
  · refine (bind_of_ok hasks).trans ((bind_of_ok hfetched).trans ?_)
    rw [retry_eq hgiven, heq]
    rfl
  · have hpos : 0 < (lists k).length := length_pos hgrow hzero
    have hlength : (lists (k + 1)).length - 1 = (lists k).length - 1 + given.length := by
      rw [heq, length_append]
      omega
    rw [hlength]
    exact hgiven'

theorem not_ends_of_supplied (step : List UpdateData → ExecutorTask (α ⊕ List UpdateData))
    (hzero : lists 0 = [update])
    (hstep : ∀ k run, Given (answersOf lists update) ((lists k).length - 1) run →
      ∃ run', step (lists k) run = .ok (.inr (lists (k + 1))) run' ∧
        Given (answersOf lists update) ((lists (k + 1)).length - 1) run') :
    ∃ run, ¬Task.Ends step [update] run := by
  refine ⟨ExecutorState.begin ⟨supplied (answersOf lists update), .new, ∅⟩, ?_⟩
  refine Task.not_ends_of_next (P := fun updates run => ∃ k, updates = lists k ∧
    Given (answersOf lists update) ((lists k).length - 1) run) ?_ ⟨0, hzero.symm, ?_⟩
  · rintro _ run ⟨k, rfl, hgiven⟩
    obtain ⟨run', hnext, hgiven'⟩ := hstep k run hgiven
    exact ⟨lists (k + 1), run', hnext, k + 1, rfl, hgiven'⟩
  · rw [hzero]
    exact ⟨rfl, rfl, rfl⟩

theorem growing_of_continues
    (h : ∀ n, Continues (updateState key params current (lists n)) (lists n) (lists (n + 1))) :
    Growing lists := by
  intro n
  obtain ⟨hne, given, hgiven, heq⟩ := h n
  refine ⟨given, ?_, heq⟩
  rintro rfl
  exact hne (forall₂_nil_right_iff.mp hgiven)

/-- Whatever the executor finds, the loop of `get_updated_state` ends if and only if the contract
stops asking for related contracts, and so does the loop of `perform_contract_update`. -/
theorem resolution_ends_iff (updateState : UpdateState) (key : ContractKey) (params : Parameters)
    (current : WrappedState) (update : UpdateData) : ((∀ (env : Environment) (run : RequestRun),
        Task.Ends ((env.updating updateState).updatedStep key params current) [update] run) ↔
      StopsAsking updateState key params current update) ∧ ((∀ (env : Environment) (run : RequestRun),
        Task.Ends ((env.updating updateState).computedStep key params current) [update] run) ↔
      StopsAsking updateState key params current update) := by
  refine ⟨⟨?_, ?_⟩, ⟨?_, ?_⟩⟩
  · rintro hends ⟨lists, hzero, hcont⟩
    let env := (supplying (answersOf lists update)).updating updateState
    obtain ⟨run, hforev⟩ := not_ends_of_supplied (env.updatedStep key params current) hzero
      fun k run hgiven => resolveStep_supplied (growing_of_continues hcont) hzero (hcont k)
        (attemptStateUpdate_asks (hcont k).1) hgiven
    exact hforev (hends _ run)
  · intro hstops env run
    exact ends_of_stopsAsking (fun _ => resolveStep_continues attemptStateUpdate_asked) hstops
  · rintro hends ⟨lists, hzero, hcont⟩
    let env := (supplying (answersOf lists update)).updating updateState
    obtain ⟨run, hforev⟩ := not_ends_of_supplied (env.computedStep key params current) hzero
      fun k run hgiven => resolveStep_supplied (growing_of_continues hcont) hzero (hcont k)
        (computeStateUpdate_asks (hcont k).1) hgiven
    exact hforev (hends _ run)
  · intro hstops env run
    exact ends_of_stopsAsking (fun _ => resolveStep_continues computeStateUpdate_asked) hstops

def askingForever : UpdateState := fun _ _ _ _ => .ok ⟨none, [⟨2, .stateOnce⟩]⟩

def havingTwo : RequestRun :=
  ExecutorState.begin ⟨⟨⟨none, Table.empty.insert ⟨2, 2⟩ [9]⟩, .empty, []⟩, .new, ∅⟩

/-- Nothing fails, and the code of every contract has its number as its hash. -/
def Environment.indexed : Environment :=
  { appending 0 with codeHashFromId := fun _ _ id => some id }

theorem resolveStep_indexed {key : ContractKey} {updates : List UpdateData} {run : RequestRun}
    (hcomp : ∃ entry, compute updates run = .ok (.inr [⟨2, .stateOnce⟩])
      { run with log := entry :: run.log })
    (h : run.store = havingTwo.store) :
    ∃ updates' run', (indexed.updating askingForever).resolveStep key compute updates run =
      .ok (.inr updates') run' ∧ run'.store = havingTwo.store := by
  obtain ⟨entry, hasks⟩ := hcomp
  have hfetched : ∃ run', (indexed.updating askingForever).fetchMissing key updates
      [⟨2, .stateOnce⟩] { run with log := entry :: run.log } =
        .ok (updates ++ [.relatedState 2 [9]]) run' ∧ run'.store = havingTwo.store := by
    obtain ⟨⟨store, tracker, guard⟩, log, accesses⟩ := run
    cases h
    exact ⟨_, rfl, rfl⟩
  obtain ⟨run', hfetched, hstore⟩ := hfetched
  have hansw : Forall₂ Answers [⟨2, .stateOnce⟩] [.relatedState 2 [9]] :=
    .cons ⟨[9], .inl rfl⟩ .nil
  refine ⟨updates ++ [.relatedState 2 [9]], run',
    (bind_of_ok hasks).trans ((bind_of_ok hfetched).trans ?_), hstore⟩
  rw [retry_eq hansw]
  rfl

/-- The update of a contract that always asks for a related contract never ends when that contract
is there. -/
theorem asking_update_never_ends :
    ¬Task.Ends ((indexed.updating askingForever).updatedStep ⟨1, 1⟩ [] [5]) [.delta [6]] havingTwo ∧
      ¬Task.Ends ((indexed.updating askingForever).computedStep ⟨1, 1⟩ [] [5]) [.delta [6]] havingTwo := by
  constructor
  all_goals
    exact Task.not_ends_of_next (P := fun _ run => run.store = havingTwo.store)
      (fun _ _ h => resolveStep_indexed ⟨_, rfl⟩ h) rfl

variable (env env' : Environment) (key : ContractKey)

/-- Whether the first look at a related contract finds its state. -/
def Environment.findsLocally (related : RelatedContract) (run : RequestRun) : Bool :=
  (outcome (env.localState .relatedState related.contractInstanceId) run).toOption.join.isSome

/-- The executions get the same states for these contracts, and find the same ones of them
locally. -/
def FetchesAlike : List RelatedContract → RequestRun → RequestRun → Prop
  | [], _, _ => True
  | related :: missing, run, run' =>
    (outcome (env.fetchRelated key related) run).map carried =
        (outcome (env'.fetchRelated key related) run').map carried ∧
      env.findsLocally related run = env'.findsLocally related run' ∧
      FetchesAlike missing (finalState (env.fetchRelated key related) run)
        (finalState (env'.fetchRelated key related) run')

def answered (related : RelatedContract) (here : Bool) (state : WrappedState) : UpdateData :=
  if here then .relatedState related.contractInstanceId state else .state state

variable {env env' key} {run' : RequestRun}

theorem fetchRelated_answered : Yields (· = run) (env.fetchRelated key related)
    (fun update _ => answered related (env.findsLocally related run) update.carried = update) := by
  have hfound : Yields (· = run) (env.localState .relatedState related.contractInstanceId)
      (fun found _ => env.findsLocally related run = found.isSome) := by
    rintro _ rfl
    rfl
  refine hfound.bind fun found => ?_
  cases found with
  | some state =>
    refine triple_pure ?_
    intro _ hlocal
    rw [hlocal]
    rfl
  | none =>
    intro run hlocal
    rw [hlocal]
    refine (triple_any.bind fun found => triple_any.bind fun state => ?_) run trivial
    exact triple_any.andThen (triple_pure fun _ _ => rfl)

theorem map_answered : ((outcome (env.fetchRelated key related) run).map carried).map
    (answered related (env.findsLocally related run)) = outcome (env.fetchRelated key related) run := by
  cases h : outcome (env.fetchRelated key related) run with
  | error e => rfl
  | ok update => exact congrArg Except.ok (post_of_outcome fetchRelated_answered rfl h)

theorem outcome_fetchMissing {missing : List RelatedContract} {updates : List UpdateData}
    (h : FetchesAlike env env' key missing run run') :
    outcome (env.fetchMissing key updates missing) run =
      outcome (env'.fetchMissing key updates missing) run' := by
  induction missing generalizing updates run run' with
  | nil => rfl
  | cons related missing ih =>
    obtain ⟨hstate, hplace, hrest⟩ := h
    simp only [fetchMissing, foldlM_cons, bind_assoc]
    refine outcome_bind_congr ?_ fun _ _ => ih hrest
    rw [← map_answered, hstate, hplace, map_answered]

variable {α : Type}

/-- The lists that an update loop passes to the contract, in at most so many calls. -/
def passed (step : List UpdateData → ExecutorTask (α ⊕ List UpdateData)) :
    Nat → List UpdateData → RequestRun → List (List UpdateData)
  | 0, _, _ => []
  | calls + 1, updates, run => updates :: match outcome (step updates) run with
    | .ok (.inr updates') => passed step calls updates' (finalState (step updates) run)
    | _ => []

/-- The contract is passed the same lists, and the loop ends with the same state or error. -/
def SameUpdate (step step' : List UpdateData → ExecutorTask (α ⊕ List UpdateData)) (calls : Nat)
    (updates : List UpdateData) (run run' : RequestRun) : Prop :=
  passed step calls updates run = passed step' calls updates run' ∧
    outcome (loop step calls updates) run = outcome (loop step' calls updates) run'

variable (env env' key) (compute : Environment → List UpdateData → ExecutorTask (α ⊕ List RelatedContract))

/-- In each pass, what the contract asks for is fetched alike. -/
def PassesAlike : Nat → List UpdateData → RequestRun → RequestRun → Prop
  | 0, _, _, _ => True
  | calls + 1, updates, run, run' =>
    (∀ missing, outcome (compute env updates) run = .ok (.inr missing) → FetchesAlike env env' key missing
      (finalState (compute env updates) run) (finalState (compute env' updates) run')) ∧
    ∀ updates', outcome (env.resolveStep key (compute env) updates) run = .ok (.inr updates') →
      PassesAlike calls updates' (finalState (env.resolveStep key (compute env) updates) run)
        (finalState (env'.resolveStep key (compute env') updates) run')

variable {env env' key compute} {calls : Nat}

theorem sameUpdate_of_passesAlike
    (hcomp : ∀ updates run run', outcome (compute env updates) run = outcome (compute env' updates) run')
    (h : PassesAlike env env' key compute calls updates run run') :
    SameUpdate (env.resolveStep key (compute env)) (env'.resolveStep key (compute env'))
      calls updates run run' := by
  induction calls generalizing updates run run' with
  | zero => exact ⟨rfl, rfl⟩
  | succ calls ih =>
    obtain ⟨hfetches, hpasses⟩ := h
    have hstep : outcome (env.resolveStep key (compute env) updates) run =
        outcome (env'.resolveStep key (compute env') updates) run' := by
      refine outcome_bind_congr (hcomp updates run run') ?_
      rintro (result | missing) hasked
      · rfl
      refine outcome_bind_congr (outcome_fetchMissing (hfetches missing hasked)) ?_
      intro updates' hfetched
      obtain ⟨answers, hansw, rfl⟩ := post_of_outcome fetchMissing_answers trivial hfetched
      rw [retry_eq hansw, retry_eq hansw]
      rfl
    constructor
    · dsimp only [passed]
      rw [← hstep]
      split
      next updates' hnext => rw [(ih (hpasses updates' hnext)).1]
      next => rfl
    · refine outcome_bind_congr hstep ?_
      rintro (result | updates') hnext
      · rfl
      · exact (ih (hpasses updates' hnext)).2

/-- Two nodes with the same contract code pass it the same lists and end with the same state or
error, in either kind of update, when each pass fetches the same states from the same places. It is
not the only way: where a later fetch fails on both nodes, the states that they got before it may
differ. -/
theorem sameUpdate_of_samePlaces (hcontract : env.updateState = env'.updateState) :
    (PassesAlike env env' key (·.attemptStateUpdate params current key) calls updates run run' →
      SameUpdate (env.updatedStep key params current) (env'.updatedStep key params current)
        calls updates run run') ∧
    (PassesAlike env env' key (·.computeStateUpdate key params current) calls updates run run' →
      SameUpdate (env.computedStep key params current) (env'.computedStep key params current) calls updates
        run run') := by
  constructor
  · refine sameUpdate_of_passesAlike fun updates run run' => ?_
    refine outcome_bind_congr (congrArg Except.ok (by rw [hcontract])) fun result _ => ?_
    exact outcome_bind_congr (by cases result <;> rfl) fun _ _ => rfl
  · refine sameUpdate_of_passesAlike fun updates run run' => ?_
    refine outcome_bind_congr (congrArg Except.ok (by rw [hcontract])) fun result _ => ?_
    refine outcome_bind_congr (by cases result <;> rfl) fun modification _ => ?_
    cases modification.newState <;> dsimp only <;> split <;> rfl

def askingOnce : UpdateState := fun _ _ current updates =>
  .ok (if updates.length = 1 then ⟨none, [⟨2, .stateOnce⟩]⟩
    else ⟨some (current ++ updates.flatMap appended), []⟩)

/-- The related contract is not here, but on the network. -/
def Environment.remote : Environment :=
  { appending 0 with network := fun id _ => some ⟨[9], some ⟨⟨id, id⟩, []⟩⟩ }

def havingTwoAndThree : RequestRun :=
  ExecutorState.begin ⟨⟨⟨none, (Table.empty.insert ⟨3, 3⟩ [8]).insert ⟨2, 2⟩ [9]⟩, .empty, []⟩, .new, ∅⟩

/-- The second node has a network to ask and another contract, and finds the same state at home. -/
theorem same_places_same_update :
    let env := indexed.updating askingOnce
    let env' := { env with localMode := false, network := remote.network }
    SameUpdate (env.updatedStep ⟨1, 1⟩ [] []) (env'.updatedStep ⟨1, 1⟩ [] []) 2 [.delta [5]] havingTwo
      havingTwoAndThree := by
  intro env env'
  have hcontract : env.updateState = env'.updateState := rfl
  refine (sameUpdate_of_samePlaces hcontract).1 ⟨?_, ?_⟩
  · rintro _ ⟨⟩
    exact ⟨rfl, rfl, trivial⟩
  · rintro _ ⟨⟩
    exact ⟨by rintro _ ⟨⟩, fun _ _ => trivial⟩

theorem fetched_state_changes_update :
    let here := (indexed.updating askingOnce).updatedStep ⟨1, 1⟩ [] []
    let there := (remote.updating askingOnce).updatedStep ⟨1, 1⟩ [] []
    passed here 2 [.delta [5]] havingTwo = [[.delta [5]], [.delta [5], .relatedState 2 [9]]] ∧
      passed there 2 [.delta [5]] (ExecutorState.begin ⟨⟨⟨none, .empty⟩, .empty, []⟩, .new, ∅⟩) =
        [[.delta [5]], [.delta [5], .state [9]]] := by
  decide +kernel

end Freenet.Contract
