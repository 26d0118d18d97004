import Freenet.Contract.UpsertFrames

/-! Every state that an executor writes was found valid in the same request and is not too large. -/
namespace Freenet.Contract
open Lib Lib.Task StateStore

/-- What a call may add to the store: these states of these contracts. -/
structure StateStore.Adds (allowed : ContractKey → WrappedState → Prop) (s s' : StateStore) : Prop where
  written : ∀ w ∈ s'.written, w ∈ s.written ∨ allowed w.key w.state
  holds : ∀ key state, s'.Holds key state → s.Holds key state ∨ allowed key state

def Fitting (key : ContractKey) (state : WrappedState) (key' : ContractKey) (state' : WrappedState) : Prop :=
  key' = key ∧ state' = state ∧ state.length ≤ maxStateSize

namespace StateStore
variable {allowed : ContractKey → WrappedState → Prop} {io : Io} {key : ContractKey}
  {state : WrappedState} {params : Parameters} {s s' : StateStore}

theorem Adds.refl : Adds allowed s s where
  written _ hw := .inl hw
  holds _ _ h := .inl h

theorem adds_looked : Adds allowed s (s.looked io key) where
  written _ hw := .inl hw
  holds _ _ h := .inl (holds_of_looked h)

theorem adds_get : Adds allowed s (s.get io key).2 := by
  rw [get_snd]
  exact adds_looked

theorem adds_ensureParams : Adds allowed s (s.ensureParams io key params) := by
  unfold ensureParams
  split_ifs
  · exact Adds.refl
  · exact ⟨fun _ hw => .inl hw, fun _ _ h => .inl h⟩

theorem adds_cachedOnly (h : allowed key state) : Adds allowed s (s.cachedOnly key state) where
  written _ hw := .inl hw
  holds key' state' hholds := by
    rcases hholds with hcach | htable
    · unfold cachedOnly at hcach
      rw [CachedTable.cached_insertCache] at hcach
      split_ifs at hcach with hkey
      · cases hcach
        rw [hkey.1]
        exact .inr h
      · exact .inl (.inl hcach)
    · exact .inl (.inr htable)

theorem adds_persisted {params : Table ContractKey Parameters} (h : allowed key state) :
    Adds allowed s { s.persisted key state with params := params } where
  written w hw := by
    rcases List.mem_cons.mp hw with rfl | hw
    · exact .inr h
    · exact .inl hw
  holds key' state' hholds := by
    rcases hholds with hcach | htable
    · exact (adds_cachedOnly h).holds key' state' (.inl hcach)
    · change ((s.states.insertCache key state).insertTable key state).table.get key' = some state' at htable
      rw [CachedTable.insertTable_table, Table.get_insert] at htable
      split_ifs at htable with hkey
      · cases htable
        rw [hkey]
        exact .inr h
      · exact .inl (.inr htable)

theorem Adds.trans {s'' : StateStore} (h : Adds allowed s s') (h' : Adds allowed s' s'') :
    Adds allowed s s'' where
  written w hw := (h'.written w hw).elim (h.written w) .inr
  holds key state hholds := (h'.holds key state hholds).elim (h.holds key state) .inr

theorem adds_update : Adds (Fitting key state) s (s.update io key state).2 := by
  rcases update_cases with ⟨_, heq⟩ | ⟨_, heq⟩ | ⟨⟨hsize, _⟩, heq⟩ | ⟨hsize, heq⟩
  · rw [heq]
    exact Adds.refl
  · rw [heq]
    exact adds_looked
  · rw [heq]
    exact adds_looked.trans (adds_cachedOnly ⟨rfl, rfl, hsize⟩)
  · rw [heq]
    exact adds_looked.trans (adds_persisted ⟨rfl, rfl, hsize⟩)

theorem adds_store : Adds (Fitting key state) s (s.store io key state params).2 := by
  rcases store_cases with ⟨_, heq⟩ | ⟨⟨hsize, _⟩, heq⟩ | ⟨hsize, _, _, heq⟩
  · rw [heq]
    exact Adds.refl
  · rw [heq]
    exact adds_cachedOnly ⟨rfl, rfl, hsize⟩
  · rw [heq]
    exact adds_persisted ⟨rfl, rfl, hsize⟩

end StateStore

def Approved (log : List Entry) (key : ContractKey) (state : WrappedState) : Prop :=
  .validated key state true ∈ log ∧ state.length ≤ maxStateSize

theorem Approved.cons {log : List Entry} {key : ContractKey} {state : WrappedState} {entry : Entry}
    (h : Approved log key state) : Approved (entry :: log) key state :=
  ⟨List.mem_cons_of_mem entry h.1, h.2⟩

/-- Everything written so far, and everything in the store that was not there before, was
approved. -/
structure Vetted (before : StateStore) (run : RequestRun) : Prop where
  written : ∀ w ∈ run.store.written, Approved run.log w.key w.state
  holds : ∀ key state, run.store.Holds key state → before.Holds key state ∨ Approved run.log key state

variable {before : StateStore} {env : Environment} {call : UpsertCall} {key : ContractKey}
  {params : Parameters} {current state : WrappedState} {run : RequestRun}

theorem Vetted.note (h : Vetted before run) (entry : Entry) :
    Vetted before { run with log := entry :: run.log } where
  written w hw := (h.written w hw).cons
  holds key state hholds := (h.holds key state hholds).imp_right Approved.cons

theorem vetted_framed (before : StateStore) : Framed (Vetted before) where
  guard _ _ h := ⟨h.written, h.holds⟩
  note _ entry _ h := h.note entry

theorem Vetted.adds {store : StateStore} {allowed : ContractKey → WrappedState → Prop}
    (h : Vetted before run) (hadds : Adds allowed run.store store)
    (hallow : ∀ key state, allowed key state → Approved run.log key state)
    (accesses : Site → Nat) : Vetted before { run with store := store, accesses := accesses } where
  written w hw := (hadds.written w hw).elim (h.written w) (hallow w.key w.state)
  holds key state hholds :=
    (hadds.holds key state hholds).elim (h.holds key state) fun hnew =>
      .inr (hallow key state hnew)

variable {site : Site} {α : Type} {f : Io → StateStore → α × StateStore}

theorem vetted_look (hf : ∀ io s, Adds (fun _ _ => False) s (f io s).2) :
    Preserves (Vetted before) (env.onStore site f) :=
  keeps_modifyGet fun run h =>
    ⟨h.adds (hf _ run.store) (fun _ _ hfalse => hfalse.elim) _, trivial⟩

theorem vetted_write {Err : RequestFailure → RequestRun → Prop}
    (hf : ∀ io s, Adds (Fitting key state) s (f io s).2) :
    Triple (fun run => Vetted before run ∧ .validated key state true ∈ run.log)
      (env.onStore site f) (fun _ => Vetted before) Err := by
  refine triple_modifyGet ?_
  rintro run ⟨h, hvalid⟩
  refine h.adds (hf _ run.store) ?_ _
  rintro _ _ ⟨rfl, rfl, hsize⟩
  exact ⟨hvalid, hsize⟩

theorem vetted_modifyTracker (f : ContractInitTracker → α × ContractInitTracker) :
    Preserves (Vetted before) (modifyTracker f) :=
  keeps_modifyGet fun _ h => ⟨⟨h.written, h.holds⟩, trivial⟩

theorem vetted_getState : Preserves (Vetted before) (env.getState site key) :=
  vetted_look fun _ _ => adds_get

theorem validate_vetted {related : RelatedContracts} :
    Triple (Vetted before) (env.validate key params state related)
      (fun result run => Vetted before run ∧
        (result = .ok .valid → .validated key state true ∈ run.log)) (fun _ => Vetted before) := by
  intro run h
  refine ⟨h.note _, ?_⟩
  intro hvalid
  have hentry : decide (env.validateState key params state related = .ok .valid) = true :=
    decide_eq_true hvalid
  rw [← hentry]
  exact List.mem_cons_self

theorem orExecution_vetted {result : Except WasmError ValidateResult} : Triple
      (fun run => Vetted before run ∧ (result = .ok .valid → .validated key state true ∈ run.log))
      (orExecution none result)
      (fun result run => Vetted before run ∧ (result = .valid → .validated key state true ∈ run.log))
      (fun _ => Vetted before) := by
  refine orExecution_triple ?_ fun _ _ _ h => h.1
  rintro result rfl run h
  exact ⟨h.1, fun hvalid => h.2 (by rw [hvalid])⟩

theorem commitStateUpdate_vetted :
    Leads (fun run => Vetted before run ∧ .validated key state true ∈ run.log)
      (env.commitStateUpdate key state) (Vetted before) := by
  unfold Environment.commitStateUpdate
  split_ifs
  · exact triple_throw fun _ h => h.1
  · exact (vetted_write fun _ _ => adds_update).bind fun _ => keeps_orStore.triple_inv

/-! An upsert writes only states that the contract found valid. -/

open Environment

theorem acceptReplayed_vetted {related : RelatedContracts} :
    Leads (Vetted before) (env.acceptReplayed key params current state related) (Vetted before) := by
  refine (vetted_framed before).isValid_validated.bind ?_
  intro valid
  split_ifs with haccept
  · simp only [Bool.and_eq_true] at haccept
    rw [haccept.1]
    refine commitStateUpdate_vetted.attempt.bind ?_
    rintro (e | _)
    · exact triple_skip
    · exact triple_skip
  · exact triple_pure fun _ h => h.1

theorem vetted_replayQueued {op : QueuedOperation} :
    Preserves (Vetted before) (env.replayQueued key params current op) := by
  have hnoted : Preserves (Vetted before) (note (.replayed key op.update)) :=
    keeps_modify fun _ h => h.note _
  refine hnoted.andThen ((vetted_framed before).keeps_attemptStateUpdate.attempt.bind ?_)
  intro result _
  split
  · exact acceptReplayed_vetted.keeps
  · exact keeps_done

theorem storeInitial_vetted : Leads (fun run => Vetted before run ∧ .validated key state true ∈ run.log)
      (env.storeInitial key params state) (Vetted before) := by
  refine (vetted_write fun _ _ => adds_store).bind fun result =>
    keeps_orStore.triple_inv.andThen ?_
  refine (vetted_modifyTracker _).triple_inv.bind fun queuedOps => ?_
  exact (keeps_foldlM (fun _ _ => vetted_replayQueued) _ _).triple_inv.bind fun _ => triple_skip

theorem vetted_currentState : Preserves (Vetted before) (env.currentState key) := by
  refine vetted_getState.bind ?_
  intro result _
  split
  · exact keeps_done
  · exact keeps_throw
  · exact keeps_throw

theorem merge_vetted : Leads (Vetted before) (env.merge call key params) (Vetted before) := by
  refine vetted_currentState.triple_inv.bind fun current => ?_
  refine (vetted_framed before).keeps_mergeOrRecover.triple_inv.bind fun merged => ?_
  refine (vetted_framed before).keeps_clearRecovery.triple_inv.andThen ?_
  refine (vetted_framed before).validateMerged_validated.andThen ?_
  unfold commitMerged
  split_ifs
  · exact triple_pure fun _ h => h.1
  · exact commitStateUpdate_vetted.andThen triple_skip

theorem applyValidated_vetted {isNew : Bool} {result : ValidateResult} :
    Leads (fun run => Vetted before run ∧ (result = .valid → .validated key state true ∈ run.log))
      (env.applyValidated call key params isNew state result) (Vetted before) := by
  refine applyValidated_triple ((vetted_modifyTracker _).triple_inv.of_pre fun _ h => h.1) ?_
  intro hvalid
  split_ifs
  · exact storeInitial_vetted.of_pre (fun _ h => ⟨h.1, h.2 hvalid⟩)
  · exact merge_vetted.of_pre (fun _ h => h.1)

theorem applyUpdate_vetted {isNew : Bool} :
    Leads (Vetted before) (env.applyUpdate call key params isNew) (Vetted before) := by
  unfold applyUpdate
  split
  · split_ifs
    · exact triple_fail
    · exact validate_vetted.bind fun result => orExecution_vetted.bind fun result =>
        applyValidated_vetted
  · exact merge_vetted

theorem vetted_parameters : Preserves (Vetted before) (env.parameters call key) := by
  unfold parameters
  split
  · exact (vetted_look fun _ _ => adds_ensureParams).andThen keeps_done
  · refine (vetted_look fun _ _ => Adds.refl).bind fun _ _ => keeps_orStore.bind ?_
    intro params _
    split
    · exact keeps_done
    · exact keeps_throw

theorem vetted_startIfNew {removeIfFail isNew : Bool} :
    Leads (Vetted before) (env.startIfNew call key removeIfFail isNew) (Vetted before) := by
  unfold startIfNew
  split_ifs
  · refine startInitialization_triple ?_ fun run e h _ => h
    intro run tracker h _
    have hstarted : Vetted before { run with initTracker := tracker } := ⟨h.written, h.holds⟩
    exact hstarted.note _
  · exact triple_skip

theorem bridgedUpsert_vetted :
    Leads (Vetted before) (env.bridgedUpsertContractState call) (Vetted before) := by
  unfold bridgedUpsertContractState
  split_ifs
  · exact triple_fail
  · refine (vetted_modifyTracker _).triple_inv.bind fun _ =>
      (vetted_modifyTracker _).triple_inv.bind fun check => ?_
    cases check with
    | notInitializing =>
      refine vetted_parameters.triple_inv.bind fun params => ?_
      refine keeps_provideContract.triple_inv.bind fun removeIfFail => ?_
      refine (vetted_getState.bind fun _ _ => keeps_done).triple_inv.bind fun isNew => ?_
      exact vetted_startIfNew.andThen applyUpdate_vetted
    | putDuringInit | queueFull => exact triple_fail
    | queued n => exact fun run h => h.note _

variable {related : RelatedContracts} {Inv : RequestRun → Prop} {calls : Nat} {id : ContractInstanceId}

theorem vetted_localState : Preserves (Vetted before) (env.localState site id) := by
  refine keeps_modifyGet ?_
  intro run h
  refine ⟨?_, trivial⟩
  dsimp only
  cases env.codeHashFromId site (run.accesses site) id with
  | none => exact ⟨h.written, h.holds⟩
  | some codeHash =>
    have hadds : Adds (fun _ _ => False) run.store
        (run.store.get (env.io site (run.accesses site)) ⟨id, codeHash⟩).2 := adds_get
    exact h.adds hadds (fun _ _ hfalse => hfalse.elim) _

theorem vetted_localStateOrFromNetwork : Preserves (Vetted before) (env.localStateOrFromNetwork id) := by
  refine vetted_localState.bind ?_
  intro found _
  split
  · exact keeps_done
  · refine keeps_get.bind ?_
    intro run _
    split
    · exact keeps_done
    · exact keeps_throw

theorem vetted_supply {supplied : RelatedContracts × Trying}
    {related : ContractInstanceId × Option WrappedState} :
    Preserves (Vetted before) (env.supply supplied related) := by
  unfold supply
  split
  · exact keeps_done
  · refine vetted_localStateOrFromNetwork.bind ?_
    intro found _
    split
    · exact keeps_done
    · split
      · exact keeps_throw
      · exact keeps_done

theorem vetted_storeTrying {trying : Trying} : Preserves (Vetted before) (env.storeTrying trying) := by
  unfold storeTrying
  split
  · exact keeps_done
  · split_ifs
    · exact keeps_done
    · exact keeps_throw

theorem verifyLoop_vetted {original trying : Trying} {iterations : Nat} :
    Leads (Vetted before) (env.verifyLoop original iterations related trying) (Vetted before) := by
  induction iterations, related, trying using verifyLoop.induct original with
  | case1 iterations related trying hguard hnext hback =>
    rw [verifyLoop, dif_pos hguard]
    refine vetted_storeTrying.triple_inv.andThen
      (validate_vetted.bind fun result => orExecution_vetted.bind fun result => ?_)
    cases result with
    | invalid => exact triple_throw fun _ h => h.1
    | requestRelated ids =>
      refine ((keeps_foldlM (fun _ _ => vetted_supply) _ _).triple_inv.of_pre
        (fun _ h => h.1)).bind fun supplied => ?_
      exact hnext supplied
    | valid =>
      refine Triple.andThen (((vetted_write fun _ _ => adds_store).of_pre
        (fun _ h => ⟨h.1, h.2 rfl⟩)).bind fun _ => keeps_orStore.triple_inv) ?_
      by_cases hkey : trying.key ≠ original.key
      · rw [dif_pos hkey]
        exact hback hkey
      · rw [dif_neg hkey]
        exact triple_skip
  | case2 iterations related trying hguard =>
    rw [verifyLoop, dif_neg hguard]
    exact triple_fail

theorem keeps_summarize : Preserves Inv (env.summarize key params state) := by
  unfold summarize
  split_ifs
  · exact keeps_done
  · exact keeps_throw

theorem keeps_notifyPut : Preserves Inv (env.notifyPut key) := by
  unfold notifyPut
  split_ifs
  · exact keeps_done
  · exact keeps_throw

variable {updates : List UpdateData} {update : UpdateData}

theorem vetted_runUpdateState : Preserves (Vetted before) (env.runUpdateState key params current updates) :=
  Keeps.andThen (keeps_modify fun _ h => h.note _) keeps_done

theorem acceptPut_vetted {result : ValidateResult} :
    Leads (fun run => Vetted before run ∧ (result = .valid → .validated key state true ∈ run.log))
      (env.acceptPut key state result) (Vetted before) := by
  cases result with
  | invalid | requestRelated related => exact triple_throw fun _ h => h.1
  | valid =>
    exact ((vetted_write fun _ _ => adds_update).of_pre
      (fun _ h => ⟨h.1, h.2 rfl⟩)).bind fun _ => keeps_orStore.triple_inv

theorem mergePut_vetted : Leads (Vetted before) (env.mergePut key params state) (Vetted before) := by
  refine vetted_getState.triple_inv.bind fun result => keeps_orStore.triple_inv.bind fun current => ?_
  refine vetted_runUpdateState.triple_inv.bind fun result =>
    keeps_orExecution.triple_inv.bind fun modification => ?_
  split
  · exact (keeps_summarize.andThen keeps_done).triple_inv
  · refine validate_vetted.bind fun result => orExecution_vetted.bind fun result => ?_
    refine acceptPut_vetted.andThen ?_
    exact (keeps_notifyPut.andThen (keeps_summarize.andThen keeps_done)).triple_inv

theorem performContractPut_vetted {contract : WrappedContract} :
    Leads (Vetted before) (env.performContractPut contract state related) (Vetted before) := by
  refine vetted_localState.triple_inv.bind fun found => ?_
  split_ifs
  · exact mergePut_vetted
  · refine verifyLoop_vetted.andThen ?_
    exact (keeps_notifyPut.andThen keeps_done).triple_inv

theorem vetted_fetchRelated {related : RelatedContract} :
    Preserves (Vetted before) (env.fetchRelated key related) := by
  have hstor : ∀ found, Preserves (Vetted before) (env.storeFetched key found) := by
    intro found
    unfold storeFetched
    split
    · exact keeps_done
    · split
      · exact keeps_throw
      · exact verifyLoop_vetted.keeps.andThen keeps_done
  have hsubsc : Preserves (Vetted before) (env.subscribeFetched related) := by
    unfold subscribeFetched
    split
    · exact keeps_done
    · refine keeps_get.bind ?_
      intro run _
      split
      · unfold subscribe
        split_ifs
        · exact keeps_done
        · exact keeps_throw
      · exact keeps_done
  refine vetted_localState.bind ?_
  intro found _
  split
  · exact keeps_done
  · exact vetted_localStateOrFromNetwork.bind fun found _ => (hstor found).bind fun _ _ =>
      hsubsc.andThen keeps_done

theorem vetted_resolveStep {α : Type}
    {compute : List UpdateData → ExecutorTask (α ⊕ List RelatedContract)}
    (hcomp : ∀ updates, Preserves (Vetted before) (compute updates)) :
    Preserves (Vetted before) (env.resolveStep key compute updates) := by
  refine (hcomp updates).bind ?_
  intro computed _
  split
  · exact keeps_done
  · refine (keeps_foldlM (fun _ _ => vetted_fetchRelated.bind fun _ _ => keeps_done)
      _ _).bind fun updates _ => ?_
    unfold retry
    split_ifs
    · exact keeps_done
    · exact keeps_throw
    · exact keeps_done

theorem vetted_computeStateUpdate :
    Preserves (Vetted before) (env.computeStateUpdate key params current updates) := by
  refine vetted_runUpdateState.bind fun _ _ => keeps_orExecution.bind ?_
  intro modification _
  split
  · split_ifs
    · exact keeps_done
    · exact keeps_done
  · split_ifs
    · exact keeps_done
    · exact keeps_done

theorem acceptUpdated_vetted :
    Leads (Vetted before) (env.acceptUpdated key params current state) (Vetted before) := by
  refine validate_vetted.bind fun result => orExecution_vetted.bind fun result => ?_
  split_ifs with hinval
  · exact triple_throw fun _ h => h.1
  · exact commitStateUpdate_vetted.of_pre (fun _ h => ⟨h.1, h.2 (not_not.mp hinval)⟩)
  · exact triple_pure fun _ h => h.1

theorem updateLocally_vetted :
    Leads (Vetted before) (env.updateLocally key params calls current update) (Vetted before) := by
  have hstep : ∀ updates, Preserves (Vetted before) (env.updatedStep key params current updates) :=
    fun _ => vetted_resolveStep fun _ => (vetted_framed before).keeps_attemptStateUpdate
  have hupd : Leads (Vetted before)
      (env.getUpdatedState key params calls current [update]) (Vetted before) := by
    refine (keeps_loop hstep _ _).triple_inv.bind fun resolved => ?_
    cases resolved with
    | none => exact triple_skip
    | some newState => exact acceptUpdated_vetted.andThen triple_skip
  refine hupd.bind fun updated => ?_
  cases updated with
  | none => exact triple_skip
  | some newState => exact (keeps_summarize.andThen keeps_done).triple_inv

theorem vetted_updateOnNetwork :
    Preserves (Vetted before) (env.updateOnNetwork key params calls current update) := by
  have hstep : ∀ updates, Preserves (Vetted before) (env.computedStep key params current updates) :=
    fun _ => vetted_resolveStep fun _ => vetted_computeStateUpdate
  refine (keeps_loop hstep _ _).bind fun computed _ => ?_
  split
  · exact keeps_done
  · exact keeps_summarize.andThen keeps_done
  · refine keeps_summarize.andThen ?_
    split_ifs
    · exact keeps_done
    · exact keeps_throw

theorem performContractUpdate_vetted :
    Leads (Vetted before) (env.performContractUpdate key calls update) (Vetted before) := by
  refine (vetted_look fun _ _ => Adds.refl).triple_inv.bind fun result =>
    keeps_orStore.triple_inv.bind fun params => ?_
  split
  · exact triple_fail
  · refine vetted_getState.triple_inv.bind fun result =>
      keeps_orStore.triple_inv.bind fun current => ?_
    split_ifs
    · exact updateLocally_vetted
    · exact vetted_updateOnNetwork.triple_inv

inductive ContractRequest where
  | upsert (call : UpsertCall)
  | put (contract : WrappedContract) (state : WrappedState) (related : RelatedContracts)
  | update (key : ContractKey) (update : UpdateData)

/-- A request, what the executor finds while it works on it, and after how many calls of an update
function it is looked at if it has not ended. -/
structure RequestEvent where
  request : ContractRequest
  env : Environment
  calls : Nat

def RequestEvent.performed (executor : ExecutorState) (e : RequestEvent) : RequestRun :=
  match e.request with
  | .upsert call => Task.finalState (e.env.bridgedUpsertContractState call) executor.begin
  | .put contract state related =>
    Task.finalState (e.env.performContractPut contract state related) executor.begin
  | .update key update =>
    Task.finalState (e.env.performContractUpdate key e.calls update) executor.begin

theorem RequestEvent.performed_vetted (executor : ExecutorState) (e : RequestEvent) :
    Vetted executor.store (e.performed executor) := by
  have hbegin : Vetted executor.store executor.begin := by
    refine ⟨?_, fun _ _ h => .inl h⟩
    intro w hw
    cases hw
  unfold RequestEvent.performed
  cases e.request with
  | upsert call => exact bridgedUpsert_vetted.finalState hbegin
  | put contract state related => exact performContractPut_vetted.finalState hbegin
  | update key update => exact performContractUpdate_vetted.finalState hbegin

/-- The store before and after a request, and what happened in the course of it. -/
structure RequestRecord where
  before : StateStore
  after : StateStore
  log : List Entry

def RequestRecord.Vetted (r : RequestRecord) : Prop :=
  (∀ w ∈ r.after.written, Approved r.log w.key w.state) ∧
    ∀ key state, r.after.Holds key state → r.before.Holds key state ∨ Approved r.log key state

/-- The executor and what it was asked to do, the latest first. -/
structure RequestHistory where
  executor : ExecutorState
  records : List RequestRecord

def requests : Machine RequestHistory RequestEvent where
  init h := h.records = []
  step h e :=
    let run := e.performed h.executor
    some ⟨run.toExecutorState, ⟨h.executor.store, run.store, run.log⟩ :: h.records⟩

/-- In every sequence of upserts and of client puts and updates, every state that a request writes,
and every state in the cache or the backing store after it that was in neither before, was found
valid by the contract in that request, and is not too large. -/
theorem written_states_are_validated {start h : RequestHistory} (es : List RequestEvent)
    (hstart : requests.init start) (hrun : requests.runFrom start es = some h) :
    ∀ r ∈ h.records, r.Vetted := by
  refine requests.invariant_of_run (fun h => ∀ r ∈ h.records, r.Vetted) ?_ ?_ hrun
  · intro h e h' hvett hstep r hr
    cases hstep
    rcases List.mem_cons.mp hr with rfl | hr
    · have hperf := e.performed_vetted h.executor
      exact ⟨hperf.written, hperf.holds⟩
    · exact hvett r hr
  · intro r hr
    rw [hstart] at hr
    cases hr

/-- A first put is written, and so is an update that is merged into it. -/
theorem put_and_update_are_validated : ∃ h, requests.runFrom ⟨.fresh true, []⟩
        [⟨.upsert (.putOne [1]), .appending 0, 0⟩, ⟨.upsert (.updateOne [2]), .knowing 1, 0⟩] = some h ∧
      (∀ r ∈ h.records, r.Vetted) ∧
      (h.records.map fun r => r.after.written.map (·.state)) = [[[1, 2]], [[1]]] := by
  have hstart : requests.init ⟨.fresh true, []⟩ := rfl
  refine ⟨_, rfl, ?_, by decide +kernel⟩
  exact written_states_are_validated
    [⟨.upsert (.putOne [1]), .appending 0, 0⟩, ⟨.upsert (.updateOne [2]), .knowing 1, 0⟩] hstart rfl

end Freenet.Contract
