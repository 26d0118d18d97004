import Freenet.Contract.ContractExecutor

/-! What the parts of an upsert keep and find out, and the record of a sequence of upserts. -/
namespace Freenet.Contract
open Lib Lib.Task Environment List

def Entry.Ordinary : Entry → Prop
  | .validated _ _ _ => True
  | .attempted _ _ _ _ => True
  | .startedInitialization _ => False
  | .queued _ => False
  | .replayed _ _ => False

/-- A property that ordinary entries and the recovery guard do not disturb. -/
structure Framed (Inv : RequestRun → Prop) : Prop where
  guard : ∀ run recoveryGuard, Inv run → Inv { run with recoveryGuard := recoveryGuard }
  note : ∀ run entry, entry.Ordinary → Inv run → Inv { run with log := entry :: run.log }

/-- Nor does the state store. -/
structure StoreFramed (Inv : RequestRun → Prop) : Prop extends Framed Inv where
  store : ∀ run store accesses, Inv run → Inv { run with store := store, accesses := accesses }

/-- Nor does the replay of queued operations. -/
structure ReplayFramed (Inv : RequestRun → Prop) : Prop extends StoreFramed Inv where
  replayed : ∀ run key update, Inv run → Inv { run with log := .replayed key update :: run.log }

variable {Inv : RequestRun → Prop} {env : Environment} {call : UpsertCall} {key : ContractKey}
  {params : Parameters} {current state : WrappedState} {related : RelatedContracts}
  {upsert : Option ContractKey} {α : Type}

theorem keeps_orExecution {result : Except WasmError α} : Preserves Inv (orExecution upsert result) := by
  cases result with
  | ok a => exact keeps_done
  | error e => exact keeps_throw

theorem keeps_orStore {result : Except StateStoreError α} : Preserves Inv (orStore result) := by
  cases result with
  | ok a => exact keeps_done
  | error e => exact keeps_throw

variable {α : Type} {Pre : RequestRun → Prop} {Post : α → RequestRun → Prop}
  {Err : RequestFailure → RequestRun → Prop}

theorem orStore_triple {result : Except StateStoreError α}
    (hok : ∀ a, result = .ok a → ∀ run, Pre run → Post a run)
    (herror : ∀ e, result = .error e → ∀ run, Pre run → Err (.store e) run) :
    Triple Pre (orStore result) Post Err := by
  cases result with
  | ok a => exact triple_pure (hok a rfl)
  | error e => exact triple_throw (herror e rfl)

theorem orExecution_triple {result : Except WasmError α}
    (hok : ∀ a, result = .ok a → ∀ run, Pre run → Post a run)
    (herror : ∀ e, result = .error e → ∀ run, Pre run → Err (.execution e upsert) run) :
    Triple Pre (orExecution upsert result) Post Err := by
  cases result with
  | ok a => exact triple_pure (hok a rfl)
  | error e => exact triple_throw (herror e rfl)

theorem keeps_provideContract : Preserves Inv (env.provideContract call key params) := by
  unfold provideContract
  split_ifs
  · exact keeps_throw
  · exact keeps_done
  · exact keeps_done
  · exact keeps_throw
  · exact keeps_throw

theorem startInitialization_triple {Pre : RequestRun → Prop} {Post : Unit → RequestRun → Prop}
    {Err : RequestFailure → RequestRun → Prop}
    (hstarts : ∀ run tracker, Pre run →
      run.initTracker.startInitialization key env.startNow = some tracker →
      Post () { run with initTracker := tracker, log := .startedInitialization key :: run.log })
    (hrefus : ∀ run e, Pre run → run.initTracker.startInitialization key env.startNow = none → Err e run) :
    Triple Pre (env.startInitialization key) Post Err := by
  refine Triple.bind (?_ : Triple Pre _ (fun started run =>
    if started then Post () { run with log := .startedInitialization key :: run.log }
    else ∀ e, Err e run) Err) ?_
  · refine triple_modifyGet ?_
    intro run hrun
    dsimp only
    cases htrack : run.initTracker.startInitialization key env.startNow with
    | none => exact fun e => hrefus run e hrun htrack
    | some tracker => exact hstarts run tracker hrun htrack
  · intro started
    cases started with
    | true => exact triple_modify fun _ h => h
    | false => exact triple_throw fun _ h => h _

namespace Framed
variable (hF : Framed Inv)
include hF

theorem keeps_validate : Preserves Inv (env.validate key params state related) :=
  Keeps.andThen (keeps_modify fun run hrun => hF.note run _ trivial hrun) keeps_done

theorem keeps_isValid : Preserves Inv (env.isValid key params state related) :=
  hF.keeps_validate.bind fun _ _ => keeps_done

theorem keeps_attemptStateUpdate {updates : List UpdateData} :
    Preserves Inv (env.attemptStateUpdate params current key updates) := by
  have hrun : Preserves Inv (env.runUpdateState key params current updates) :=
    Keeps.andThen (keeps_modify fun run hrun => hF.note run _ trivial hrun) keeps_done
  exact hrun.bind fun _ _ => keeps_orExecution.bind fun _ _ => keeps_done

theorem keeps_markRecovery : Preserves Inv (markRecovery key) := by
  refine keeps_modifyGet ?_
  intro run hrun
  split_ifs
  · exact ⟨hrun, trivial⟩
  · exact ⟨hF.guard run _ hrun, trivial⟩

theorem keeps_recover {mergeErr : RequestFailure} :
    Preserves Inv (env.recover call key params current mergeErr) := by
  unfold recover
  split
  · exact keeps_throw
  · refine hF.keeps_isValid.bind ?_
    intro valid _
    split_ifs
    · exact keeps_throw
    · refine hF.keeps_markRecovery.bind ?_
      intro first _
      split_ifs
      · exact keeps_done
      · exact keeps_throw

theorem keeps_mergeOrRecover : Preserves Inv (env.mergeOrRecover call key params current) := by
  refine hF.keeps_attemptStateUpdate.attempt.bind ?_
  intro result _
  split
  · exact keeps_done
  · split
    · exact keeps_throw
    · exact keeps_throw
  · exact hF.keeps_recover

theorem keeps_clearRecovery {recovered : Bool} : Preserves Inv (clearRecovery call key recovered) := by
  unfold clearRecovery
  split_ifs
  · exact keeps_modify fun run hrun => hF.guard run _ hrun
  · exact keeps_done

theorem keeps_validateMerged : Preserves Inv (env.validateMerged call key params state) := by
  refine hF.keeps_validate.bind fun _ _ => keeps_orExecution.bind ?_
  intro result _
  split_ifs
  · exact keeps_done
  · exact keeps_throw

end Framed

namespace StoreFramed
variable (hF : StoreFramed Inv)
include hF

theorem keeps_onStore {α : Type} {site : Site} {f : Io → StateStore → α × StateStore} :
    Preserves Inv (env.onStore site f) :=
  keeps_modifyGet fun run hrun => ⟨hF.store run _ _ hrun, trivial⟩

theorem keeps_parameters : Preserves Inv (env.parameters call key) := by
  unfold parameters
  split
  · exact hF.keeps_onStore.andThen keeps_done
  · refine hF.keeps_onStore.bind fun _ _ => keeps_orStore.bind ?_
    intro params _
    split
    · exact keeps_done
    · exact keeps_throw

theorem keeps_isNewContract : Preserves Inv (env.isNewContract key) :=
  hF.keeps_onStore.bind fun _ _ => keeps_done

theorem keeps_commitStateUpdate : Preserves Inv (env.commitStateUpdate key state) := by
  unfold commitStateUpdate
  split_ifs
  · exact keeps_throw
  · exact hF.keeps_onStore.bind fun _ _ => keeps_orStore

theorem keeps_currentState : Preserves Inv (env.currentState key) := by
  refine hF.keeps_onStore.bind ?_
  intro result _
  split
  · exact keeps_done
  · exact keeps_throw
  · exact keeps_throw

theorem keeps_commitMerged : Preserves Inv (env.commitMerged key current state) := by
  unfold commitMerged
  split_ifs
  · exact keeps_done
  · exact hF.keeps_commitStateUpdate.andThen keeps_done

theorem keeps_merge : Preserves Inv (env.merge call key params) :=
  hF.keeps_currentState.bind fun _ _ => hF.toFramed.keeps_mergeOrRecover.bind fun _ _ =>
    hF.toFramed.keeps_clearRecovery.andThen (hF.toFramed.keeps_validateMerged.andThen hF.keeps_commitMerged)

end StoreFramed

namespace ReplayFramed
variable (hF : ReplayFramed Inv)
include hF

theorem keeps_replayQueued {op : QueuedOperation} :
    Preserves Inv (env.replayQueued key params current op) := by
  have hnoted : Preserves Inv (note (.replayed key op.update)) :=
    keeps_modify fun run hrun => hF.replayed run key op.update hrun
  refine hnoted.andThen (hF.toFramed.keeps_attemptStateUpdate.attempt.bind ?_)
  intro result _
  split
  · refine hF.toFramed.keeps_isValid.bind ?_
    intro valid _
    split_ifs
    · exact hF.keeps_commitStateUpdate.attempt.bind fun _ _ => keeps_done
    · exact keeps_done
  · exact keeps_done

theorem keeps_replay {ops : List QueuedOperation} :
    Preserves Inv (ops.foldlM (env.replayQueued key params) state) :=
  keeps_foldlM (fun _ _ => hF.keeps_replayQueued) ops state

end ReplayFramed

section Applying
variable {Q : RequestRun → Prop} {Post : UpsertResult → RequestRun → Prop} {isNew : Bool}
  (hfail : Leads Inv (failInitialization key) Q)
include hfail

/-- A state that is not found valid ends the initialization. -/
theorem applyValidated_triple {result : ValidateResult} (hvalid : result = .valid → Triple Inv
      (if isNew then env.storeInitial key params state else env.merge call key params) Post fun _ => Q) :
    Triple Inv (env.applyValidated call key params isNew state result) Post fun _ => Q := by
  cases result with
  | valid => exact hvalid rfl
  | invalid => exact hfail.andThen triple_fail
  | requestRelated related =>
    refine hfail.andThen ?_
    split
    · exact triple_fail
    · exact triple_fail

theorem Framed.applyUpdate_triple (hF : Framed Inv) (hQ : ∀ run, Inv run → Q run)
    (hstore : ∀ state, call.update = .inl state → isNew = true →
      Triple Inv (env.storeInitial key params state) Post fun _ => Q)
    (hmerge : Triple Inv (env.merge call key params) Post fun _ => Q) :
    Triple Inv (env.applyUpdate call key params isNew) Post fun _ => Q := by
  unfold applyUpdate
  split
  · next state hupdate =>
    split_ifs
    · exact triple_throw hQ
    · refine (hF.keeps_validate.triple_weak hQ).bind fun _ => (keeps_orExecution.triple_weak hQ).bind ?_
      refine fun result => applyValidated_triple hfail fun _ => ?_
      split_ifs with hnew
      · exact hstore state hupdate hnew
      · exact hmerge
  · exact hmerge

end Applying

def Produced (key : ContractKey) (current : WrappedState) (updates : List UpdateData)
    (state : WrappedState) (log : List Entry) : Prop :=
  .attempted key current updates (some state) ∈ log ∨
    .attempted key current updates none ∈ log ∧ state = current

theorem Produced.cons {updates : List UpdateData} {log : List Entry}
    {entry : Entry} (h : Produced key current updates state log) :
    Produced key current updates state (entry :: log) := by
  rcases h with hsome | ⟨hnone, hstate⟩
  · exact .inl (mem_cons_of_mem entry hsome)
  · exact .inr ⟨mem_cons_of_mem entry hnone, hstate⟩

namespace Framed
variable (hF : Framed Inv)
include hF

theorem attemptStateUpdate_produced {updates : List UpdateData} :
    Triple Inv (env.attemptStateUpdate params current key updates) (fun result run => Inv run ∧
        ∀ state, result = .inl state → Produced key current updates state run.log) (fun _ => Inv) := by
  have hrun : Triple Inv (env.runUpdateState key params current updates)
      (fun result run => Inv run ∧ .attempted key current updates
        (result.toOption.bind (·.newState)) ∈ run.log)
      (fun _ => Inv) := by
    intro run hrun
    exact ⟨hF.note run _ trivial hrun, mem_cons_self⟩
  refine hrun.bind ?_
  intro result
  cases result with
  | error e => exact triple_throw fun run h => h.1
  | ok modification =>
    refine triple_pure (a := modification.outcome current) ?_
    rintro run ⟨hinv, hatt⟩
    refine ⟨hinv, ?_⟩
    intro state hstate
    unfold UpdateModification.outcome at hstate
    cases hnew : modification.newState with
    | some newState =>
      rw [hnew] at hstate
      cases hstate
      left
      simpa [Except.toOption, hnew] using hatt
    | none =>
      rw [hnew] at hstate
      split_ifs at hstate
      cases hstate
      right
      exact ⟨by simpa [Except.toOption, hnew] using hatt, rfl⟩

theorem isValid_validated : Triple Inv (env.isValid key params state related)
      (fun valid run => Inv run ∧ .validated key state valid ∈ run.log) (fun _ => Inv) := by
  intro run hrun
  exact ⟨hF.note run _ trivial hrun, mem_cons_self⟩

theorem recover_recovered {mergeErr : RequestFailure} :
    Triple Inv (env.recover call key params current mergeErr)
      (fun merged run => Inv run ∧ merged.2 = true ∧ call.update = .inl merged.1 ∧
        .validated key current false ∈ run.log) (fun _ => Inv) := by
  unfold recover
  split
  · exact triple_fail
  · rename_i incoming hupd
    refine hF.isValid_validated.bind ?_
    intro valid
    cases valid with
    | true => exact triple_throw fun _ h => h.1
    | false =>
      have hmark : Triple (fun run => Inv run ∧ .validated key current false ∈ run.log)
          (markRecovery key)
          (fun _ run => Inv run ∧ .validated key current false ∈ run.log) (fun _ => Inv) := by
        refine triple_modifyGet ?_
        rintro run ⟨hinv, hmem⟩
        split_ifs
        · exact ⟨hinv, hmem⟩
        · exact ⟨hF.guard run _ hinv, hmem⟩
      refine hmark.bind ?_
      intro first
      cases first with
      | true => exact triple_pure fun run h => ⟨h.1, rfl, hupd, h.2⟩
      | false => exact triple_throw fun _ h => h.1

/-- The merge yields what the contract made of the current state, or, after the current state was
found invalid, the incoming state. -/
theorem mergeOrRecover_merged : Triple Inv (env.mergeOrRecover call key params current)
      (fun merged run => Inv run ∧ (Produced key current call.updates merged.1 run.log ∨
        call.update = .inl merged.1 ∧ .validated key current false ∈ run.log)) (fun _ => Inv) := by
  refine hF.attemptStateUpdate_produced.attempt.bind ?_
  rintro (mergeErr | state | missing)
  · exact hF.recover_recovered.post (fun _ _ h => ⟨h.1, .inr ⟨h.2.2.1, h.2.2.2⟩⟩)
  · refine triple_pure ?_
    rintro run ⟨hinv, hprod⟩
    exact ⟨hinv, .inl (hprod state rfl)⟩
  · dsimp only
    split
    · exact triple_throw fun _ h => h.1
    · exact triple_throw fun _ h => h.1

theorem validateMerged_validated : Triple Inv (env.validateMerged call key params state)
      (fun _ run => Inv run ∧ .validated key state true ∈ run.log) (fun _ => Inv) := by
  have hvalidated : Triple Inv (env.validate key params state call.relatedContracts)
      (fun result run => Inv run ∧ .validated key state (result = .ok .valid) ∈ run.log)
      (fun _ => Inv) := by
    intro run hrun
    exact ⟨hF.note run _ trivial hrun, mem_cons_self⟩
  have hresult : ∀ result : Except WasmError ValidateResult, Triple
      (fun run => Inv run ∧ .validated key state (result = .ok .valid) ∈ run.log)
      (orExecution none result)
      (fun r run => Inv run ∧ .validated key state (r = .valid) ∈ run.log) (fun _ => Inv) := by
    intro result
    refine orExecution_triple ?_ fun _ _ _ h => h.1
    rintro r rfl run ⟨hinv, hmem⟩
    exact ⟨hinv, by simpa using hmem⟩
  refine hvalidated.bind fun result => (hresult result).bind ?_
  intro r
  split_ifs with hvalid
  · refine triple_pure ?_
    rintro run ⟨hinv, hmem⟩
    exact ⟨hinv, by simpa [hvalid] using hmem⟩
  · exact triple_throw fun _ h => h.1

end Framed

structure UpsertRecord where
  call : UpsertCall
  result : Except RequestFailure UpsertResult
  before : StateStore
  after : StateStore
  log : List Entry

/-- The executor and what it was asked to do, the latest first. -/
structure UpsertHistory where
  executor : ExecutorState
  records : List UpsertRecord

structure UpsertEvent where
  call : UpsertCall
  env : Environment

def UpsertRecord.Succeeded (r : UpsertRecord) : Prop := ∃ result, r.result = .ok result

namespace UpsertEvent
variable (executor : ExecutorState) (e : UpsertEvent)

def outcome : Except RequestFailure UpsertResult × RequestRun :=
  match e.env.bridgedUpsertContractState e.call executor.begin with
  | .ok result run => (.ok result, run)
  | .error failure run => (.error failure, run)

def record : UpsertRecord where
  call := e.call
  result := (e.outcome executor).1
  before := executor.store
  after := (e.outcome executor).2.store
  log := (e.outcome executor).2.log

variable {executor e}

theorem outcome_of_triple {Post : UpsertResult → RequestRun → Prop}
    {Err : RequestFailure → RequestRun → Prop}
    (h : Task.Triple (fun run => run = executor.begin) (e.env.bridgedUpsertContractState e.call)
      Post Err) : (∃ result run, e.outcome executor = (.ok result, run) ∧ Post result run) ∨
      ∃ failure run, e.outcome executor = (.error failure, run) ∧ Err failure run := by
  have hend := h executor.begin rfl
  unfold outcome
  cases hrun : e.env.bridgedUpsertContractState e.call executor.begin with
  | ok result run =>
    rw [hrun] at hend
    exact .inl ⟨result, run, rfl, hend⟩
  | error failure run =>
    rw [hrun] at hend
    exact .inr ⟨failure, run, rfl, hend⟩

theorem outcome_of_spec {Pre Q : RequestRun → Prop}
    (h : Task.Leads Pre (e.env.bridgedUpsertContractState e.call) Q)
    (hbegin : Pre executor.begin) : Q (e.outcome executor).2 := by
  have hstart : Task.Leads (fun run => run = executor.begin)
      (e.env.bridgedUpsertContractState e.call) Q := by
    refine h.of_pre ?_
    rintro run rfl
    exact hbegin
  rcases outcome_of_triple hstart with ⟨_, run, heq, hrun⟩ | ⟨_, run, heq, hrun⟩
  · rw [heq]
    exact hrun
  · rw [heq]
    exact hrun

end UpsertEvent

/-- An executor that starts on any backing store, with nothing in its cache. -/
def upserts : Machine UpsertHistory UpsertEvent where
  init h := h.records = [] ∧ h.executor.initTracker = .new ∧ ∀ key, h.executor.store.states.cached key = none
  step h e := some ⟨(e.outcome h.executor).2.toExecutorState, e.record h.executor :: h.records⟩

/-! When a call that starts the initialization of a contract ends it again. -/

/-- What an upsert leaves behind, whether it returns or fails. -/
def Environment.upsertRun (env : Environment) (executor : ExecutorState) (call : UpsertCall) : RequestRun :=
  Task.finalState (env.bridgedUpsertContractState call) executor.begin

def RequestRun.Started (key : ContractKey) (run : RequestRun) : Prop :=
  .startedInitialization key ∈ run.log

/-- Both writes of the first state succeed. -/
def Environment.StoresInitial (env : Environment) : Prop :=
  (env.io .initial 0).writeFails = false ∧ (env.io .initial 0).paramsFail = false

/-- The call brings a full state of the right size, the contract's validation of it does not break
off, and a state that is found valid is stored. -/
def Environment.Releases (env : Environment) (call : UpsertCall) : Prop :=
  ∃ container state result, call.code = some container ∧ call.update = .inl state ∧
    state.length ≤ maxStateSize ∧
    env.validateState call.storedKey container.params state call.relatedContracts = .ok result ∧
    (result = .valid → env.StoresInitial)

/-- Whether the contract is being initialized, in a run that has not yet stored a first state. -/
structure Waits (key : ContractKey) (initializing : Bool) (run : RequestRun) : Prop where
  isInitializing : run.initTracker.isInitializing key = initializing
  accesses : run.accesses .initial = 0

variable {initializing : Bool}

abbrev Initializing (key : ContractKey) (initializing : Bool) (run : RequestRun) : Prop :=
  run.initTracker.isInitializing key = initializing

abbrev ReleasedIff (key : ContractKey) (condition : Prop) (run : RequestRun) : Prop :=
  Initializing key false run ↔ condition

theorem isInitializing_framed (key : ContractKey) (initializing : Bool) :
    ReplayFramed (Initializing key initializing) where
  replayed _ _ _ h := h
  store _ _ _ h := h
  guard _ _ h := h
  note _ _ _ h := h

theorem not_started_framed (key : ContractKey) : ReplayFramed fun run => ¬ run.Started key where
  replayed run key' update h := by
    intro hmem
    rcases mem_cons.mp hmem with heq | hmem
    · cases heq
    · exact h hmem
  store _ _ _ h := h
  guard _ _ h := h
  note run entry hentry h := by
    intro hmem
    rcases mem_cons.mp hmem with heq | hmem
    · rw [← heq] at hentry
      exact hentry
    · exact h hmem

theorem storeInitial_released (hsize : state.length ≤ maxStateSize) :
    Leads (Waits key true) (env.storeInitial key params state) (ReleasedIff key env.StoresInitial) := by
  have hstored : Triple (Waits key true)
      (env.onStore .initial fun io store => store.store io key state params)
      (fun result run => Initializing key true run ∧ (result = .ok () ↔ env.StoresInitial))
      (fun _ => ReleasedIff key env.StoresInitial) := by
    refine triple_modifyGet ?_
    rintro run ⟨hinit, haccess⟩
    refine ⟨hinit, ?_⟩
    rw [haccess]
    exact StateStore.store_eq_ok_iff hsize
  have hchecked : ∀ result : Except StateStoreError Unit, Triple
      (fun run => Initializing key true run ∧ (result = .ok () ↔ env.StoresInitial))
      (orStore result)
      (fun _ run => Initializing key true run ∧ env.StoresInitial)
      (fun _ => ReleasedIff key env.StoresInitial) := by
    intro result
    refine orStore_triple ?_ ?_
    · rintro a hok run ⟨hinit, hresult⟩
      exact ⟨hinit, hresult.mp hok⟩
    · rintro e rfl run ⟨hinit, hresult⟩
      exact ⟨fun h => (nomatch hinit.symm.trans h), fun h => nomatch hresult.mpr h⟩
  have hcompl : Triple
      (fun run => Initializing key true run ∧ env.StoresInitial)
      (modifyTracker (·.completeInitialization key))
      (fun _ run => Initializing key false run ∧ env.StoresInitial)
      (fun _ => ReleasedIff key env.StoresInitial) := by
    refine triple_modifyGet ?_
    rintro run ⟨_, hstor⟩
    refine ⟨?_, hstor⟩
    simp [Initializing, ContractInitTracker.isInitializing, ContractInitTracker.completeInitialization]
  refine hstored.bind fun result => (hchecked result).andThen (hcompl.bind ?_)
  intro queuedOps
  refine triple_of_fact ?_
  intro hstor
  refine Triple.weaken ((isInitializing_framed key false).keeps_replay.andThen
    keeps_done).triple_inv (fun _ h => h) (fun _ _ h => ⟨fun _ => hstor, fun _ => h⟩)
    (fun _ _ h => ⟨fun _ => hstor, fun _ => h⟩)

theorem failInitialization_released {rest : ExecutorTask UpsertResult}
    (hrest : Preserves (Initializing key false) rest) :
    Leads (Waits key true) (failInitialization key >>= fun _ => rest) (Initializing key false) := by
  have hfail : Leads (Waits key true) (failInitialization key) (Initializing key false) := by
    refine triple_modifyGet ?_
    intro run _
    simp [Initializing, ContractInitTracker.isInitializing, ContractInitTracker.failInitialization]
  exact hfail.andThen hrest.triple_inv

theorem applyValidated_released {result : ValidateResult} (hsize : state.length ≤ maxStateSize) :
    Leads (Waits key true) (env.applyValidated call key params true state result)
      (ReleasedIff key (result = .valid → env.StoresInitial)) := by
  cases result with
  | valid =>
    refine (storeInitial_released hsize).ends ?_ ?_
    all_goals
      intro _ run h
      exact h.trans (by simp)
  | invalid =>
    refine (failInitialization_released keeps_throw).ends ?_ ?_
    all_goals
      intro _ run h
      exact ⟨fun _ => nofun, fun _ => h⟩
  | requestRelated related =>
    refine (failInitialization_released ?_).ends ?_ ?_
    · split
      · exact keeps_throw
      · exact keeps_throw
    · intro _ run h
      exact ⟨fun _ => nofun, fun _ => h⟩
    · intro _ run h
      exact ⟨fun _ => nofun, fun _ => h⟩

def Environment.ReleasesUpdate (env : Environment) (call : UpsertCall) (key : ContractKey)
    (params : Parameters) : Prop :=
  ∃ state result, call.update = .inl state ∧ state.length ≤ maxStateSize ∧
    env.validateState key params state call.relatedContracts = .ok result ∧
    (result = .valid → env.StoresInitial)

/-- A contract that is being initialized is released by the rest of the call under exactly this
condition. -/
theorem applyUpdate_released : Leads (Waits key true) (env.applyUpdate call key params true)
      (ReleasedIff key (env.ReleasesUpdate call key params)) := by
  have hstays : ∀ run : RequestRun, ¬ env.ReleasesUpdate call key params →
      Initializing key true run → ReleasedIff key (env.ReleasesUpdate call key params) run := by
    intro run hnot hinit
    exact ⟨fun h => (nomatch hinit.symm.trans h), fun h => absurd h hnot⟩
  unfold applyUpdate
  split
  · rename_i state hupd
    split_ifs with hlarge
    · refine triple_throw ?_
      rintro run ⟨hinit, _⟩
      refine hstays run ?_ hinit
      rintro ⟨state', result, hupd', hsize, _⟩
      rw [hupd] at hupd'
      cases hupd'
      exact Nat.not_lt.mpr hsize hlarge
    · have hvalidated : Triple (Waits key true)
          (env.validate key params state call.relatedContracts)
          (fun result run => Waits key true run ∧
            result = env.validateState key params state call.relatedContracts)
          (fun _ => ReleasedIff key (env.ReleasesUpdate call key params)) := by
        rintro run ⟨hinit, haccess⟩
        exact ⟨⟨hinit, haccess⟩, rfl⟩
      refine hvalidated.bind ?_
      intro result
      refine triple_of_fact ?_
      intro hresult
      cases result with
      | error e =>
        rintro run ⟨hinit, _⟩
        refine hstays run ?_ hinit
        rintro ⟨state', result, hupd', _, hvalid, _⟩
        rw [hupd] at hupd'
        cases hupd'
        cases hresult.trans hvalid
      | ok result =>
        have hiff : env.ReleasesUpdate call key params ↔ (result = .valid → env.StoresInitial) := by
          constructor
          · rintro ⟨state', result', hupd', _, hvalid, hstor⟩
            rw [hupd] at hupd'
            cases hupd'
            cases hresult.trans hvalid
            exact hstor
          · intro hstor
            exact ⟨state, result, hupd, Nat.not_lt.mp hlarge, hresult.symm, hstor⟩
        have hdone : Triple (Waits key true) (orExecution none (.ok result))
            (fun r run => Waits key true run ∧ r = result)
            (fun _ => ReleasedIff key (result = .valid → env.StoresInitial)) :=
          triple_pure fun _ h => ⟨h, rfl⟩
        rw [hiff]
        refine hdone.bind ?_
        intro result'
        refine triple_of_fact ?_
        rintro rfl
        exact applyValidated_released (Nat.not_lt.mp hlarge)
  · rename_i delta hupd
    have hkeeps : Preserves (Initializing key true) (env.merge call key params) :=
      (isInitializing_framed key true).keeps_merge
    have hnot : ¬ env.ReleasesUpdate call key params := by
      rintro ⟨state, result, hupd', _⟩
      cases hupd.symm.trans hupd'
    exact hkeeps.triple_inv.weaken (fun _ h => h.isInitializing) (fun _ run h => hstays run hnot h)
      (fun _ run h => hstays run hnot h)

def Untouched (key : ContractKey) (run : RequestRun) : Prop :=
  Waits key false run ∧ ¬ run.Started key

theorem untouched_onStore {site : Site} {f : Io → StateStore → α × StateStore}
    (hsite : site ≠ .initial) : Preserves (Untouched key) (env.onStore site f) := by
  refine keeps_modifyGet ?_
  rintro run ⟨⟨hinit, haccess⟩, hstarted⟩
  refine ⟨⟨⟨hinit, ?_⟩, hstarted⟩, trivial⟩
  dsimp only
  rw [Function.update_of_ne hsite.symm]
  exact haccess

theorem untouched_parameters : Keeps (Untouched key) (env.parameters call key)
    fun params => ∀ container, call.code = some container → params = container.params := by
  unfold parameters
  split
  · rename_i container hcode
    refine (untouched_onStore (by decide)).andThen (keeps_pure ?_)
    intro container' hcode'
    rw [hcode] at hcode'
    cases hcode'
    rfl
  · rename_i hcode
    refine (untouched_onStore (by decide)).bind fun _ _ => keeps_orStore.bind ?_
    intro params _
    split
    · refine keeps_pure ?_
      intro container hcode'
      cases hcode.symm.trans hcode'
    · exact keeps_throw

theorem untouched_isNewContract : Preserves (Untouched key) (env.isNewContract key) :=
  (untouched_onStore (by decide)).bind fun _ _ => keeps_done

theorem startIfNew_started {removeIfFail isNew : Bool} :
    Triple (Untouched key) (env.startIfNew call key removeIfFail isNew)
      (fun _ run => ¬ run.Started key ∨ Waits key true run ∧ isNew = true ∧ call.code.isSome = true)
      (fun _ run => ¬ run.Started key) := by
  unfold startIfNew
  split_ifs with hnew
  · simp only [Bool.and_eq_true] at hnew
    refine startInitialization_triple ?_ fun run e h _ => h.2
    rintro run tracker ⟨⟨_, haccess⟩, _⟩ htrack
    refine .inr ⟨⟨?_, haccess⟩, hnew.1.2, hnew.2⟩
    unfold ContractInitTracker.startInitialization at htrack
    split_ifs at htrack
    cases htrack
    simp [ContractInitTracker.isInitializing]
  · exact triple_pure fun run h => .inl h.2

theorem checkAndMaybeQueue_untouched : Triple (fun run => run.accesses .initial = 0 ∧ ¬ run.Started key)
      (env.checkAndMaybeQueue call key)
      (fun check run => ¬ run.Started key ∧ (check = .notInitializing → Untouched key run))
      (fun _ run => ¬ run.Started key) := by
  refine triple_modifyGet ?_
  rintro run ⟨haccess, hstarted⟩
  refine ⟨hstarted, ?_⟩
  intro hcheck
  refine ⟨⟨?_, haccess⟩, hstarted⟩
  unfold ContractInitTracker.checkAndMaybeQueue at hcheck ⊢
  dsimp only at hcheck ⊢
  cases hlook : run.initTracker.states.lookup key with
  | none => simp [ContractInitTracker.isInitializing, hlook]
  | some state =>
    rw [hlook] at hcheck
    dsimp only at hcheck
    split_ifs at hcheck

theorem not_started_applyUpdate {isNew : Bool} :
    Preserves (fun run => ¬ run.Started key) (env.applyUpdate call key params isNew) := by
  have hF := not_started_framed key
  have htrack : ∀ {α : Type} (f : ContractInitTracker → α × ContractInitTracker),
      Preserves (fun run => ¬ run.Started key) (modifyTracker f) :=
    fun _ => keeps_modifyGet fun _ h => ⟨h, trivial⟩
  refine (hF.toFramed.applyUpdate_triple (htrack _).triple_inv (fun _ h => h) ?_
    hF.keeps_merge.triple_inv).keeps
  intro state _ _
  exact (hF.keeps_onStore.bind fun _ _ => keeps_orStore.andThen ((htrack _).bind fun _ _ =>
    hF.keeps_replay.andThen keeps_done)).triple_inv

def ReleasedIf (env : Environment) (call : UpsertCall) (run : RequestRun) : Prop :=
  run.Started call.storedKey → (run.initTracker.isInitializing call.storedKey = false ↔ env.Releases call)

theorem upsertNow_released : Leads (Untouched call.storedKey)
    (env.upsertNow call call.storedKey) (ReleasedIf env call) := by
  have hvacuous : ∀ run : RequestRun, ¬ run.Started call.storedKey → ReleasedIf env call run :=
    fun run hnot hstarted => absurd hstarted hnot
  have huntouch : ∀ run, Untouched call.storedKey run → ReleasedIf env call run :=
    fun run h => hvacuous run h.2
  refine (untouched_parameters.triple.err fun _ => huntouch).bind ?_
  intro params
  refine triple_of_fact ?_
  intro hparams
  refine (keeps_provideContract.triple_weak huntouch).bind ?_
  intro removeIfFail
  refine (untouched_isNewContract.triple_weak huntouch).bind ?_
  intro isNew
  refine (startIfNew_started.err fun _ => hvacuous).bind ?_
  intro _
  rintro run (hnot | ⟨hwaits, hnew, hcode⟩)
  · exact (not_started_applyUpdate.triple_inv.ends (fun _ => hvacuous) fun _ => hvacuous) run hnot
  · obtain ⟨container, hcont⟩ := Option.isSome_iff_exists.mp hcode
    have hiff : env.ReleasesUpdate call call.storedKey params ↔ env.Releases call := by
      rw [hparams container hcont]
      constructor
      · rintro ⟨state, result, hrest⟩
        exact ⟨container, state, result, hcont, hrest⟩
      · rintro ⟨container', state, result, hcont', hrest⟩
        rw [hcont] at hcont'
        cases hcont'
        exact ⟨state, result, hrest⟩
    rw [hnew]
    refine (applyUpdate_released.ends ?_ ?_) run hwaits
    all_goals
      intro _ run h _
      exact h.trans hiff

/-- A call that started the initialization of its contract leaves it unmarked if and only if it
brings a full state of the right size whose validation does not break off and which is stored if it
is valid. -/
theorem started_released_iff (executor : ExecutorState)
    (hstarted : (env.upsertRun executor call).Started call.storedKey) :
    (env.upsertRun executor call).initTracker.isInitializing call.storedKey = false ↔ env.Releases call := by
  have hvacuous : ∀ run : RequestRun, ¬ run.Started call.storedKey → ReleasedIf env call run :=
    fun run hnot hstarted => absurd hstarted hnot
  have hspec : Leads (fun run => run.accesses .initial = 0 ∧ ¬ run.Started call.storedKey)
      (env.bridgedUpsertContractState call) (ReleasedIf env call) := by
    unfold bridgedUpsertContractState
    split_ifs
    · exact triple_throw fun run h => hvacuous run h.2
    · have hclean : Triple
          (fun run => run.accesses .initial = 0 ∧ ¬ run.Started call.storedKey) env.cleanupStale
          (fun _ run => run.accesses .initial = 0 ∧ ¬ run.Started call.storedKey)
          (fun _ => ReleasedIf env call) := triple_modifyGet fun _ h => h
      refine hclean.bind fun _ => (checkAndMaybeQueue_untouched.err fun _ => hvacuous).bind ?_
      intro check
      cases check with
      | notInitializing =>
        exact upsertNow_released.of_pre (fun _ h => h.2 rfl)
      | putDuringInit | queueFull => exact triple_throw fun run h => hvacuous run h.1
      | queued n =>
        rintro run ⟨hnot, _⟩
        refine hvacuous _ ?_
        intro hmem
        rcases mem_cons.mp hmem with heq | hmem
        · cases heq
        · exact hnot hmem
  refine hspec.finalState (s := executor.begin) ⟨rfl, ?_⟩ hstarted
  exact not_mem_nil

/-- A valid first state is stored, and the contract is released. -/
theorem valid_put_is_released : ((appending 0).upsertRun (.fresh true) (.putOne [1])).Started ⟨1, 1⟩ ∧
    ((appending 0).upsertRun (.fresh true) (.putOne [1])).initTracker.isInitializing ⟨1, 1⟩ = false := by
  have hstarted : Entry.startedInitialization ⟨1, 1⟩ ∈
      ((appending 0).upsertRun (.fresh true) (.putOne [1])).log := by
    decide +kernel
  have hreleas : (appending 0).Releases (.putOne [1]) :=
    ⟨⟨⟨1, 1⟩, []⟩, [1], .valid, rfl, rfl, by decide, rfl, fun _ => ⟨rfl, rfl⟩⟩
  exact ⟨hstarted, (started_released_iff (.fresh true) hstarted).mpr hreleas⟩

/-- The validation of the first state breaks off: the contract stays marked, and an update of it is
queued instead of being executed. -/
theorem broken_put_stays_marked :
    ((breakingOff 0).upsertRun (.fresh true) (.putOne [1])).Started ⟨1, 1⟩ ∧
    ((breakingOff 0).upsertRun (.fresh true) (.putOne [1])).initTracker.isInitializing ⟨1, 1⟩ ≠ false ∧
    ((appending 1).upsertRun ((breakingOff 0).upsertRun (.fresh true) (.putOne [1])).toExecutorState
      (.updateOne [2])).log = [.queued ⟨1, 1⟩] := by
  have hstarted : Entry.startedInitialization ⟨1, 1⟩ ∈
      ((breakingOff 0).upsertRun (.fresh true) (.putOne [1])).log := by
    decide +kernel
  exact ⟨hstarted, by decide +kernel, by decide +kernel⟩

end Freenet.Contract
