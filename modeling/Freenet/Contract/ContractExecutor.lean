import Freenet.Contract.StateStore
import Freenet.Lib.Entries
import Freenet.Lib.Task
import Mathlib.Data.Finset.Basic

/-! The executor's state with its initialization tracker, and the steps of all requests. Times are
nanoseconds. -/
namespace Freenet.Contract

/-- The states of related contracts, as far as they are known. -/
abbrev RelatedContracts := List (ContractInstanceId × Option WrappedState)

def staleInitThreshold : Nat := 30 * 10 ^ 9

def maxQueuedOpsPerContract : Nat := 100

def maxConcurrentInitializations : Nat := 50

inductive InitCheckResult where
  | notInitializing
  | queued (queueSize : Nat)
  | queueFull
  | putDuringInit
  deriving DecidableEq

structure QueuedOperation where
  update : WrappedState ⊕ StateDelta
  relatedContracts : RelatedContracts
  queuedAtNanos : Nat
  deriving DecidableEq

structure InitState where
  queuedOps : List QueuedOperation
  startedAtNanos : Nat
  deriving DecidableEq

structure StaleInitInfo where
  key : ContractKey
  age : Nat
  droppedOps : Nat

structure ContractInitTracker where
  states : AList fun _ : ContractKey => InitState

namespace ContractInitTracker

def new : ContractInitTracker := ⟨∅⟩

variable (key : ContractKey) (now : Nat) (t : ContractInitTracker)

def checkAndMaybeQueue (hasCode : Bool) (update : WrappedState ⊕ StateDelta)
    (relatedContracts : RelatedContracts) : InitCheckResult × ContractInitTracker :=
  match t.states.lookup key with
  | none => (.notInitializing, t)
  | some state =>
    if hasCode then (.putDuringInit, t)
    else if maxQueuedOpsPerContract ≤ state.queuedOps.length then (.queueFull, t)
    else
      let queuedOps := state.queuedOps ++ [⟨update, relatedContracts, now⟩]
      (.queued queuedOps.length, ⟨t.states.insert key { state with queuedOps := queuedOps }⟩)

def isInitializing : Bool := (t.states.lookup key).isSome

def startInitialization : Option ContractInitTracker :=
  if maxConcurrentInitializations ≤ t.states.entries.length then none
  else some ⟨t.states.insert key ⟨[], now⟩⟩

def completeInitialization : Option (List QueuedOperation) × ContractInitTracker :=
  ((t.states.lookup key).map (·.queuedOps), ⟨t.states.erase key⟩)

/-- The number of operations that are dropped, if the contract was initializing. -/
def failInitialization : Option Nat × ContractInitTracker :=
  ((t.states.lookup key).map (·.queuedOps.length), ⟨t.states.erase key⟩)

/-- Forget initializations that are older than `maxAge`, with the operations queued behind them. -/
def cleanupStaleInitializations (maxAge : Nat) : List StaleInitInfo × ContractInitTracker :=
  let stale := (t.states.entries.filter fun e => maxAge < now - e.2.startedAtNanos).map fun e =>
    (⟨e.1, now - e.2.startedAtNanos, e.2.queuedOps.length⟩ : StaleInitInfo)
  (stale, ⟨(stale.map (·.key)).foldl (fun states key => states.erase key) t.states⟩)

/-- The operations that wait for the end of an initialization. -/
def waiting : List QueuedOperation :=
  match t.states.lookup key with
  | some state => state.queuedOps
  | none => []

variable {key now t} {key' : ContractKey} {t' : ContractInitTracker}

theorem waiting_insert {state : InitState} : waiting key' ⟨t.states.insert key state⟩ =
      if key' = key then state.queuedOps else t.waiting key' := by
  unfold waiting
  split_ifs with hkey
  · rw [hkey, AList.lookup_insert]
  · rw [AList.lookup_insert_ne hkey]

section
variable (h : t.waiting key = [])
include h

theorem waiting_erase : waiting key' ⟨t.states.erase key⟩ = t.waiting key' := by
  by_cases hkey : key' = key
  · subst hkey
    rw [h]
    unfold waiting
    rw [AList.lookup_erase]
  · unfold waiting
    rw [AList.lookup_erase_ne hkey]

theorem waiting_startInitialization
    (hstart : t.startInitialization key now = some t') (key' : ContractKey) :
    t'.waiting key' = t.waiting key' := by
  unfold startInitialization at hstart
  split_ifs at hstart
  cases hstart
  rw [waiting_insert]
  split_ifs with hkey
  · rw [hkey, h]
  · rfl

theorem completeInitialization_eq : (t.completeInitialization key).1.getD [] = [] := by
  unfold waiting at h
  unfold completeInitialization
  cases hlook : t.states.lookup key with
  | none => rfl
  | some state =>
    rw [hlook] at h
    exact h

end

variable (key now t) in
theorem checkAndMaybeQueue_cases (hasCode : Bool) (update : WrappedState ⊕ StateDelta)
    (related : RelatedContracts) :
    (t.checkAndMaybeQueue key now hasCode update related = (.notInitializing, t) ∧
        t.states.lookup key = none) ∨
      t.checkAndMaybeQueue key now hasCode update related = (.putDuringInit, t) ∨
      t.checkAndMaybeQueue key now hasCode update related = (.queueFull, t) ∨
      ∃ n t', t.checkAndMaybeQueue key now hasCode update related = (.queued n, t') ∧
        ∀ key', t'.waiting key' = t.waiting key' ++ if key' = key then [⟨update, related, now⟩] else [] := by
  unfold checkAndMaybeQueue
  cases hlook : t.states.lookup key with
  | none => exact .inl ⟨rfl, rfl⟩
  | some state =>
    dsimp only
    split_ifs
    · exact .inr (.inl rfl)
    · exact .inr (.inr (.inl rfl))
    · refine .inr (.inr (.inr ⟨_, _, rfl, ?_⟩))
      intro key'
      rw [waiting_insert]
      split_ifs with hkey
      · subst hkey
        unfold waiting
        rw [hlook]
      · rw [List.append_nil]

theorem waiting_of_notInitializing {hasCode : Bool} {update : WrappedState ⊕ StateDelta}
    {related : RelatedContracts}
    (h : (t.checkAndMaybeQueue key now hasCode update related).1 = .notInitializing) :
    (t.checkAndMaybeQueue key now hasCode update related).2.waiting key = [] := by
  rcases checkAndMaybeQueue_cases key now t hasCode update related with
    ⟨heq, hlook⟩ | heq | heq | ⟨n, t', heq, _⟩
  · rw [heq]
    unfold waiting
    rw [hlook]
  all_goals
    rw [heq] at h
    cases h

theorem waiting_cleanup {maxAge : Nat}
    (h : ∀ e ∈ t.states.entries, maxAge < now - e.2.startedAtNanos → e.2.queuedOps = []) :
    (t.cleanupStaleInitializations now maxAge).2.waiting key = t.waiting key := by
  unfold cleanupStaleInitializations waiting
  rw [Lib.lookup_foldl_erase]
  split_ifs with hstale
  · simp only [List.map_map, List.mem_map, List.mem_filter, decide_eq_true_eq] at hstale
    obtain ⟨⟨key', state⟩, ⟨hmem, hage⟩, rfl⟩ := hstale
    have hlook := AList.mem_lookup_iff.mpr hmem
    dsimp only [Function.comp] at hlook ⊢
    rw [hlook]
    exact (h _ hmem hage).symm
  · rfl

end ContractInitTracker

/-- Contract code with its parameters; the key is derived from both. -/
structure WrappedContract where
  key : ContractKey
  params : Parameters
  deriving DecidableEq

inductive RelatedMode where
  | stateOnce
  | stateThenSubscribe
  deriving DecidableEq

structure RelatedContract where
  contractInstanceId : ContractInstanceId
  mode : RelatedMode
  deriving DecidableEq

inductive ValidateResult where
  | valid
  | invalid
  | requestRelated (related : List ContractInstanceId)
  deriving DecidableEq

/-- What a contract makes of updates: a new state, or a request for states of other contracts. -/
structure UpdateModification where
  newState : Option WrappedState
  related : List RelatedContract

def UpdateModification.outcome (modification : UpdateModification) (current : WrappedState) :
    WrappedState ⊕ List RelatedContract :=
  match modification.newState with
  | some newState => .inl newState
  | none => if modification.related.isEmpty then .inl current else .inr modification.related

structure WasmError where
  deriving DecidableEq

inductive StdContractError where
  | put (key : ContractKey) (cause : String)
  | invalidPut (key : ContractKey)
  | update (key : ContractKey) (cause : String)
  | get (key : ContractKey) (cause : String)
  | missingContract (key : ContractInstanceId)
  | missingRelated (key : ContractInstanceId)
  deriving DecidableEq

inductive RequestFailure where
  | request (error : StdContractError)
  | timeout
  | store (error : StateStoreError)
  | runtime (cause : String)
  | execution (error : WasmError) (upsert : Option ContractKey)
  | network
  | internalError
  deriving DecidableEq

/-- Where the state store is accessed, or the key of a contract is looked up. -/
inductive Site where
  | ensureParams
  | getParams
  | newCheck
  | initial
  | current
  | commit
  | localContract
  | relatedState
  | localOrNetwork
  | subscribing
  | verified
  deriving DecidableEq

structure GetResult where
  state : WrappedState
  contract : Option WrappedContract

/-- What the executor finds while it works on one request: clock, stores, the contract's functions
and the network. The state store is accessed in turn at each place. -/
structure Environment where
  now : Nat
  startNow : Nat
  io : Site → Nat → Io
  fetchContractCode : ContractKey → Parameters → Bool
  storeContract : ContractKey → Bool
  ensureKeyIndexed : ContractKey → Bool
  codeHashFromId : Site → Nat → ContractInstanceId → Option Nat
  validateState : ContractKey → Parameters → WrappedState → RelatedContracts →
    Except WasmError ValidateResult
  updateState : ContractKey → Parameters → WrappedState → List UpdateData →
    Except WasmError UpdateModification
  summarizeState : ContractKey → Parameters → WrappedState → Bool
  sendsUpdateNotification : Bool
  network : ContractInstanceId → Nat → Option GetResult
  subscribes : ContractKey → Bool
  localMode : Bool
  timesOut : Nat → Bool
  startsUpdate : ContractKey → WrappedState → Bool

def appended : UpdateData → WrappedState
  | .state state => state
  | .delta delta => delta
  | _ => []

def Environment.appending (now : Nat) : Environment where
  now := now
  startNow := now
  io _ _ := .reliable
  fetchContractCode _ _ := false
  storeContract _ := true
  ensureKeyIndexed _ := true
  codeHashFromId _ _ _ := none
  validateState _ _ _ _ := .ok .valid
  updateState _ _ current updates := .ok ⟨some (current ++ updates.flatMap appended), []⟩
  summarizeState _ _ _ := true
  sendsUpdateNotification := true
  network _ _ := none
  subscribes _ := true
  localMode := true
  timesOut _ := false
  startsUpdate _ _ := true

def Environment.breakingOff (now : Nat) : Environment :=
  { Environment.appending now with validateState := fun _ _ _ _ => .error ⟨⟩ }

def Environment.rejecting (now : Nat) : Environment :=
  { Environment.appending now with validateState := fun _ _ _ _ => .ok .invalid }

def Environment.knowing (now : Nat) : Environment :=
  { Environment.appending now with fetchContractCode := fun _ _ => true }

/-- The state of the contract is not in the cache, and reading it fails once. -/
def Environment.unreadable (now : Nat) : Environment :=
  { Environment.knowing now with
    io := fun site _ => if site = .newCheck then ⟨true, true, false, false⟩ else .reliable }

def Environment.unwritable (now : Nat) : Environment :=
  { Environment.knowing now with
    io := fun site _ => if site = .commit then ⟨false, false, true, false⟩ else .reliable }

structure ExecutorState where
  store : StateStore
  initTracker : ContractInitTracker
  recoveryGuard : Finset ContractKey

def ExecutorState.fresh (cache : Bool) : ExecutorState := ⟨.empty cache, .new, ∅⟩

inductive Entry where
  | validated (key : ContractKey) (state : WrappedState) (valid : Bool)
  | attempted (key : ContractKey) (current : WrappedState) (updates : List UpdateData)
      (newState : Option WrappedState)
  | startedInitialization (key : ContractKey)
  | queued (key : ContractKey)
  | replayed (key : ContractKey) (update : WrappedState ⊕ StateDelta)
  deriving DecidableEq

/-- The executor at work on a request, with what happened so far, the latest first. -/
structure RequestRun extends ExecutorState where
  log : List Entry
  accesses : Site → Nat

abbrev ExecutorTask (α : Type) := EStateM RequestFailure RequestRun α

def ExecutorState.begin (executor : ExecutorState) : RequestRun :=
  { executor with
    store := { executor.store with written := [] }
    log := []
    accesses := fun _ => 0 }

/-- A result that the contract's code may fail to give, as the task's result. -/
def orExecution {α : Type} (upsert : Option ContractKey) : Except WasmError α → ExecutorTask α
  | .ok a => pure a
  | .error e => throw (.execution e upsert)

def orStore {α : Type} : Except StateStoreError α → ExecutorTask α
  | .ok a => pure a
  | .error e => throw (.store e)

def modifyTracker {α : Type} (f : ContractInitTracker → α × ContractInitTracker) : ExecutorTask α :=
  modifyGet fun run => ((f run.initTracker).1, { run with initTracker := (f run.initTracker).2 })

def note (entry : Entry) : ExecutorTask Unit :=
  modify fun run => { run with log := entry :: run.log }

namespace Environment
variable (env : Environment)

def onStore {α : Type} (site : Site) (f : Io → StateStore → α × StateStore) : ExecutorTask α :=
  modifyGet fun run =>
    let done := f (env.io site (run.accesses site)) run.store
    (done.1, { run with
      store := done.2
      accesses := Function.update run.accesses site (run.accesses site + 1) })

def getState (site : Site) (key : ContractKey) : ExecutorTask (Except StateStoreError WrappedState) :=
  env.onStore site fun io => StateStore.get io key

def validate (key : ContractKey) (params : Parameters) (state : WrappedState)
    (related : RelatedContracts) : ExecutorTask (Except WasmError ValidateResult) := do
  note (.validated key state (env.validateState key params state related = .ok .valid))
  pure (env.validateState key params state related)

/-- Whether a state is valid; an error of the contract counts as invalid. -/
def isValid (key : ContractKey) (params : Parameters) (state : WrappedState)
    (related : RelatedContracts) : ExecutorTask Bool := do
  let result ← env.validate key params state related
  pure (result = .ok .valid)

/-- Let the contract merge updates into a state, without storing the result. -/
def runUpdateState (key : ContractKey) (params : Parameters) (current : WrappedState)
    (updates : List UpdateData) : ExecutorTask (Except WasmError UpdateModification) := do
  note (.attempted key current updates
    ((env.updateState key params current updates).toOption.bind (·.newState)))
  pure (env.updateState key params current updates)

def attemptStateUpdate (params : Parameters) (current : WrappedState) (key : ContractKey)
    (updates : List UpdateData) : ExecutorTask (WrappedState ⊕ List RelatedContract) := do
  let result ← env.runUpdateState key params current updates
  let modification ← orExecution (some key) result
  pure (modification.outcome current)

def tooLargeCause (size : Nat) : String :=
  s!"state size {size} bytes exceeds maximum allowed {maxStateSize} bytes"

/-- Store a new state of a contract that exists. Notifications may fail. -/
def commitStateUpdate (key : ContractKey) (newState : WrappedState) : ExecutorTask Unit :=
  if maxStateSize < newState.length then
    throw (.request (.update key (tooLargeCause newState.length)))
  else do
    let result ← env.onStore .commit fun io => StateStore.update io key newState
    orStore result

end Environment

/-! Puts and updates of contracts, and the requests of clients, which may first fetch related
contracts. -/
open Lib

structure UpsertCall where
  key : ContractKey
  update : WrappedState ⊕ StateDelta
  relatedContracts : RelatedContracts
  code : Option WrappedContract
  deriving DecidableEq

namespace UpsertCall
variable (call : UpsertCall)

/-- The key of the code that is provided, or else the key that was passed. -/
def storedKey : ContractKey :=
  match call.code with
  | some container => container.key
  | none => call.key

def incoming : WrappedState ⊕ StateDelta → UpdateData
  | .inl state => .state state
  | .inr delta => .delta delta

/-- What is merged into the current state: the update, and the related states that came with it. -/
def updates : List UpdateData :=
  incoming call.update :: call.relatedContracts.filterMap fun related =>
    related.2.map (UpdateData.relatedState related.1)

end UpsertCall

def UpsertCall.putOne (state : WrappedState) : UpsertCall :=
  ⟨⟨1, 1⟩, .inl state, [], some ⟨⟨1, 1⟩, []⟩⟩

def UpsertCall.updateOne (delta : StateDelta) : UpsertCall := ⟨⟨1, 1⟩, .inr delta, [], none⟩

def validationError (key : ContractKey) : ValidateResult → RequestFailure
  | .valid => .internalError
  | .invalid => .request (.update key "invalid outcome state")
  | .requestRelated _ => .request (.update key "missing related contracts for validation")

namespace Environment
variable (env : Environment) (call : UpsertCall) (key : ContractKey) (params : Parameters)

def cleanupStale : ExecutorTask (List StaleInitInfo) :=
  modifyTracker (·.cleanupStaleInitializations env.now staleInitThreshold)

def checkAndMaybeQueue : ExecutorTask InitCheckResult :=
  modifyTracker (·.checkAndMaybeQueue key env.now call.code.isSome call.update call.relatedContracts)

/-- The parameters that came with the code are stored; without code they are looked up. -/
def parameters : ExecutorTask Parameters :=
  match call.code with
  | some container => do
    env.onStore .ensureParams fun io store => ((), store.ensureParams io key container.params)
    pure container.params
  | none => do
    let result ← env.onStore .getParams fun io store => (store.getParams io key, store)
    let params ← orStore result
    match params with
    | some params => pure params
    | none => throw (.request (.put key "missing contract parameters"))

/-- Make sure that the contract's code is there, and tell whether this request brought it. -/
def provideContract : ExecutorTask Bool :=
  if env.fetchContractCode key params then
    if call.code.isSome && !env.ensureKeyIndexed key then throw (.runtime "index")
    else pure false
  else if call.code.isSome then
    if env.storeContract key then pure true else throw (.runtime "store")
  else throw (.request (.missingContract key.id))

/-- Any error of the read makes the contract a new one. -/
def isNewContract : ExecutorTask Bool := do
  let result ← env.getState .newCheck key
  pure result.toOption.isNone

def startInitialization : ExecutorTask Unit := do
  let started ← modifyTracker fun tracker =>
    match tracker.startInitialization key env.startNow with
    | some tracker' => (true, tracker')
    | none => (false, tracker)
  if started then note (.startedInitialization key)
  else throw (.request (.put key
    "node is too busy: too many contracts initializing simultaneously, try again later"))

def failInitialization : ExecutorTask (Option Nat) := modifyTracker (·.failInitialization key)

/-- Store the state of a replayed operation. The current state stays when that fails. -/
def commitReplayed (current newState : WrappedState) : ExecutorTask WrappedState := do
  let result ← Task.attempt (env.commitStateUpdate key newState)
  pure (match result with
    | .ok _ => newState
    | .error _ => current)

def acceptReplayed (current newState : WrappedState) (related : RelatedContracts) :
    ExecutorTask WrappedState := do
  let valid ← env.isValid key params newState related
  if valid && newState ≠ current then env.commitReplayed key current newState else pure current

/-- Merge an operation that was queued during initialization; it is skipped when that fails. -/
def replayQueued (current : WrappedState) (op : QueuedOperation) : ExecutorTask WrappedState := do
  note (.replayed key op.update)
  let result ← Task.attempt (env.attemptStateUpdate params current key [UpsertCall.incoming op.update])
  match result with
  | .ok (.inl newState) => env.acceptReplayed key params current newState op.relatedContracts
  | _ => pure current

/-- The first state of a contract, and then the operations that waited for it. -/
def storeInitial (state : WrappedState) : ExecutorTask UpsertResult := do
  let result ← env.onStore .initial fun io store => store.store io key state params
  orStore result
  let queuedOps ← modifyTracker (·.completeInitialization key)
  let _ ← (queuedOps.getD []).foldlM (env.replayQueued key params) state
  pure (.updated state)

def currentState : ExecutorTask WrappedState := do
  let result ← env.getState .current key
  match result with
  | .ok state => pure state
  | .error (.missingContract _) => throw (.request (.missingContract key.id))
  | .error e => throw (.store e)

/-- Mark that the contract's state is being recovered, unless that has happened already. -/
def markRecovery : ExecutorTask Bool :=
  modifyGet fun run => if key ∈ run.recoveryGuard then (false, run)
    else (true, { run with recoveryGuard := insert key run.recoveryGuard })

/-- The merge failed. A current state that is not valid itself is replaced by the incoming one,
once. -/
def recover (current : WrappedState) (mergeErr : RequestFailure) : ExecutorTask (WrappedState × Bool) :=
  match call.update with
  | .inr _ => throw mergeErr
  | .inl incoming => do
    let localValid ← env.isValid key params current call.relatedContracts
    if localValid then throw mergeErr
    else do
      let first ← markRecovery key
      if first then pure (incoming, true) else throw mergeErr

def mergeOrRecover (current : WrappedState) : ExecutorTask (WrappedState × Bool) := do
  let result ← Task.attempt (env.attemptStateUpdate params current key call.updates)
  match result with
  | .ok (.inl state) => pure (state, false)
  | .ok (.inr missing) =>
    match missing.getLast? with
    | none => throw .internalError
    | some related => throw (.request (.missingRelated related.contractInstanceId))
  | .error mergeErr => env.recover call key params current mergeErr

/-- A successful merge of a full state ends the recovery. -/
def clearRecovery (recovered : Bool) : ExecutorTask Unit :=
  if call.update.isLeft && !recovered then
    modify fun run => { run with recoveryGuard := run.recoveryGuard.erase key }
  else pure ()

def validateMerged (state : WrappedState) : ExecutorTask Unit := do
  let result ← env.validate key params state call.relatedContracts
  let result ← orExecution none result
  if result = .valid then pure () else throw (validationError key result)

def commitMerged (current state : WrappedState) : ExecutorTask UpsertResult :=
  if state = current then pure .noChange
  else do
    env.commitStateUpdate key state
    pure (.updated state)

def merge : ExecutorTask UpsertResult := do
  let current ← env.currentState key
  let merged ← env.mergeOrRecover call key params current
  clearRecovery call key merged.2
  env.validateMerged call key params merged.1
  env.commitMerged key current merged.1

def applyValidated (isNew : Bool) (state : WrappedState) : ValidateResult → ExecutorTask UpsertResult
  | .valid => if isNew then env.storeInitial key params state else env.merge call key params
  | .invalid => do
    let _ ← failInitialization key
    throw (.request (.invalidPut key))
  | .requestRelated related => do
    let _ ← failInitialization key
    match related.getLast? with
    | some id => throw (.request (.missingRelated id))
    | none => throw .internalError

/-- Validate a full state before anything else; a delta goes straight to the merge. -/
def applyUpdate (isNew : Bool) : ExecutorTask UpsertResult :=
  match call.update with
  | .inl state =>
    if maxStateSize < state.length then
      throw (.request (.put key (tooLargeCause state.length)))
    else do
      let result ← env.validate key params state call.relatedContracts
      let result ← orExecution none result
      env.applyValidated call key params isNew state result
  | .inr _ => env.merge call key params

/-- A contract that neither the code store nor the state store has is initialized. -/
def startIfNew (removeIfFail isNew : Bool) : ExecutorTask Unit :=
  if removeIfFail && isNew && call.code.isSome then env.startInitialization key else pure ()

def upsertNow : ExecutorTask UpsertResult := do
  let params ← env.parameters call key
  let removeIfFail ← env.provideContract call key params
  let isNew ← env.isNewContract key
  env.startIfNew call key removeIfFail isNew
  env.applyUpdate call key params isNew

def bridgedUpsertContractState : ExecutorTask UpsertResult :=
  if call.key.id ≠ call.storedKey.id then throw (.runtime "contract key instance ID mismatch")
  else do
    let _ ← env.cleanupStale
    let check ← env.checkAndMaybeQueue call call.storedKey
    match check with
    | .notInitializing => env.upsertNow call call.storedKey
    | .putDuringInit =>
      throw (.request (.put call.storedKey "contract is already being initialized"))
    | .queueFull => throw (.request (.update call.storedKey
        "contract initialization queue is full, try again later"))
    | .queued _ => do
      note (.queued call.storedKey)
      pure .noChange

end Environment

inductive ContractResponse where
  | putResponse (key : ContractKey)
  | updateResponse (key : ContractKey)
  deriving DecidableEq

inductive ComputedStateUpdate where
  | noChange (state : WrappedState)
  | changed (newState : WrappedState)
  deriving DecidableEq

/-- Related contracts that were not known of are noted without a state. -/
def RelatedContracts.missing (related : RelatedContracts) (ids : List ContractInstanceId) :
    RelatedContracts :=
  ids.foldl (fun related id => if related.any fun r => r.1 = id then related else related ++ [(id, none)])
    related

/-- A contract that is verified; its code is still to be stored. -/
structure Trying where
  key : ContractKey
  params : Parameters
  state : WrappedState
  contract : Option WrappedContract

def Trying.of (contract : WrappedContract) (state : WrappedState) : Trying :=
  ⟨contract.key, contract.params, state, some contract⟩

def dependencyCycleLimitGuard : Nat := 100

namespace Environment
variable (env : Environment) (key : ContractKey) (params : Parameters)

/-- The key of a contract is looked up, and then its state. -/
def localState (site : Site) (id : ContractInstanceId) : ExecutorTask (Option WrappedState) :=
  modifyGet fun run =>
    let n := run.accesses site
    let found := match env.codeHashFromId site n id with
      | none => (none, run.store)
      | some codeHash =>
        ((run.store.get (env.io site n) ⟨id, codeHash⟩).1.toOption,
          (run.store.get (env.io site n) ⟨id, codeHash⟩).2)
    (found.1, { run with
      store := found.2
      accesses := Function.update run.accesses site (n + 1) })

def localStateOrFromNetwork (id : ContractInstanceId) : ExecutorTask (WrappedState ⊕ GetResult) := do
  let found ← env.localState .localOrNetwork id
  match found with
  | some state => pure (.inl state)
  | none => do
    let run ← get
    match env.network id (run.accesses .localOrNetwork) with
    | some result => pure (.inr result)
    | none => throw .network

def subscribe (key : ContractKey) : ExecutorTask Unit :=
  if env.localMode || env.subscribes key then pure () else throw .network

def summarize (state : WrappedState) : ExecutorTask Unit :=
  if env.summarizeState key params state then pure () else throw (.execution ⟨⟩ none)

def notifyPut : ExecutorTask Unit :=
  if env.sendsUpdateNotification then pure ()
  else throw (.request (.put key "failed while sending notifications"))

/-- Fetch a related state that the contract asked for when it validated a state. A contract that
comes from the network is to be verified first. -/
def supply (supplied : RelatedContracts × Trying) (related : ContractInstanceId × Option WrappedState) :
    ExecutorTask (RelatedContracts × Trying) :=
  match related.2 with
  | some _ => pure (supplied.1 ++ [related], supplied.2)
  | none => do
    let found ← env.localStateOrFromNetwork related.1
    match found with
    | .inl state => pure (supplied.1 ++ [(related.1, some state)], supplied.2)
    | .inr result =>
      match result.contract with
      | none => throw (.request (.missingRelated related.1))
      | some contract => pure (supplied.1 ++ [related], .of contract result.state)

def supplyRelated (related : RelatedContracts) (trying : Trying) :
    ExecutorTask (RelatedContracts × Trying) :=
  related.foldlM env.supply ([], trying)

def storeTrying (trying : Trying) : ExecutorTask Unit :=
  match trying.contract with
  | none => pure ()
  | some contract => if env.storeContract contract.key then pure () else throw (.runtime "store")

def storeVerified (trying : Trying) : ExecutorTask Unit := do
  let result ← env.onStore .verified fun io store =>
    store.store io trying.key trying.state trying.params
  orStore result

/-- Verify a contract, and before it the related ones that came from the network. -/
def verifyLoop (original : Trying) (iterations : Nat) (related : RelatedContracts) (trying : Trying) :
    ExecutorTask Unit :=
  if _ : iterations < dependencyCycleLimitGuard then do
    env.storeTrying trying
    let result ← env.validate trying.key trying.params trying.state related
    let result ← orExecution none result
    match result with
    | .invalid => throw (.request (.put trying.key "not valid"))
    | .requestRelated ids => do
      let supplied ← env.supplyRelated (related.missing ids) { trying with contract := none }
      verifyLoop original (iterations + 1) supplied.1 supplied.2
    | .valid => do
      env.storeVerified trying
      if _ : trying.key ≠ original.key then
        verifyLoop original iterations related { original with contract := none }
      else pure ()
  else throw (.request (.missingRelated original.key.id))
termination_by 2 * (dependencyCycleLimitGuard - iterations) + if trying.key ≠ original.key then 1 else 0
decreasing_by
  · split_ifs <;> omega
  · rw [if_pos ‹trying.key ≠ original.key›, if_neg (by simp)]
    omega

def verifyAndStoreContract (state : WrappedState) (contract : WrappedContract)
    (related : RelatedContracts) : ExecutorTask Unit :=
  env.verifyLoop (.of contract state) 0 related (.of contract state)

/-- Only a merged state that the contract finds valid is stored. -/
def acceptPut (newState : WrappedState) : ValidateResult → ExecutorTask Unit
  | .invalid => throw (.request (.put key "invalid outcome state after merge"))
  | .requestRelated _ => throw (.request (.put key "missing related contracts for validation"))
  | .valid => do
    let result ← env.onStore .commit fun io => StateStore.update io key newState
    orStore result

def mergePut (state : WrappedState) : ExecutorTask ContractResponse := do
  let current ← env.getState .current key
  let current ← orStore current
  let result ← env.runUpdateState key params current [.state state]
  let modification ← orExecution (some key) result
  match modification.newState.filter (· ≠ current) with
  | none => do
    env.summarize key params current
    pure (.updateResponse key)
  | some newState => do
    let result ← env.validate key params newState []
    let result ← orExecution none result
    env.acceptPut key newState result
    env.notifyPut key
    env.summarize key params newState
    pure (.updateResponse key)

def performContractPut (contract : WrappedContract) (state : WrappedState)
    (related : RelatedContracts) : ExecutorTask ContractResponse := do
  let found ← env.localState .localContract contract.key.id
  if found.isSome then env.mergePut contract.key contract.params state
  else do
    env.verifyAndStoreContract state contract related
    env.notifyPut contract.key
    pure (.putResponse contract.key)

def computeStateUpdate (current : WrappedState) (updates : List UpdateData) :
    ExecutorTask (ComputedStateUpdate ⊕ List RelatedContract) := do
  let result ← env.runUpdateState key params current updates
  let modification ← orExecution (some key) result
  match modification.newState with
  | none =>
    if modification.related.isEmpty then pure (.inl (.noChange current))
    else pure (.inr modification.related)
  | some newState =>
    if newState ≠ current then pure (.inl (.changed newState)) else pure (.inl (.noChange current))

/-- The state of a related contract. One that another node has is verified and stored. -/
def storeFetched : WrappedState ⊕ GetResult → ExecutorTask WrappedState
  | .inl state => pure state
  | .inr result =>
    match result.contract with
    | none => throw (.request (.get key "Missing contract"))
    | some contract => do
      env.verifyAndStoreContract result.state contract []
      pure result.state

def subscribeFetched (related : RelatedContract) : ExecutorTask Unit :=
  match related.mode with
  | .stateOnce => pure ()
  | .stateThenSubscribe => do
    let run ← get
    match env.codeHashFromId .subscribing (run.accesses .localOrNetwork) related.contractInstanceId with
    | some codeHash => env.subscribe ⟨related.contractInstanceId, codeHash⟩
    | none => pure ()

def fetchRelated (related : RelatedContract) : ExecutorTask UpdateData := do
  let found ← env.localState .relatedState related.contractInstanceId
  match found with
  | some state => pure (.relatedState related.contractInstanceId state)
  | none => do
    let found ← env.localStateOrFromNetwork related.contractInstanceId
    let state ← env.storeFetched key found
    env.subscribeFetched related
    pure (.state state)

def fetchMissing (updates : List UpdateData) (missing : List RelatedContract) :
    ExecutorTask (List UpdateData) :=
  missing.foldlM (fun updates related => do
    let update ← env.fetchRelated key related
    pure (updates ++ [update])) updates

/-- Go on with the fetched related contracts, or give up after a time out. -/
def retry (required : Nat) (updates : List UpdateData) : ExecutorTask (List UpdateData) :=
  if required ≤ updates.length + 1 then pure updates
  else if env.timesOut updates.length then throw .timeout
  else pure updates

def resolveStep {α : Type} (compute : List UpdateData → ExecutorTask (α ⊕ List RelatedContract))
    (updates : List UpdateData) : ExecutorTask (α ⊕ List UpdateData) := do
  let computed ← compute updates
  match computed with
  | .inl result => pure (.inl result)
  | .inr missing => do
    let updates ← env.fetchMissing key updates missing
    let updates ← env.retry (missing.length + 1) updates
    pure (.inr updates)

/-- The pass of `get_updated_state`. -/
def updatedStep (current : WrappedState) (updates : List UpdateData) :
    ExecutorTask (WrappedState ⊕ List UpdateData) :=
  env.resolveStep key (env.attemptStateUpdate params current key) updates

/-- The pass of `perform_contract_update` in network mode. -/
def computedStep (current : WrappedState) (updates : List UpdateData) :
    ExecutorTask (ComputedStateUpdate ⊕ List UpdateData) :=
  env.resolveStep key (env.computeStateUpdate key params current) updates

def acceptUpdated (current newState : WrappedState) : ExecutorTask Unit := do
  let result ← env.validate key params newState []
  let result ← orExecution none result
  if result ≠ .valid then throw (validationError key result)
  else if newState ≠ current then env.commitStateUpdate key newState
  else pure ()

/-- Update the state here, with at most so many calls of the contract's update function; `none` if
these are not enough. -/
def getUpdatedState (calls : Nat) (current : WrappedState) (updates : List UpdateData) :
    ExecutorTask (Option WrappedState) := do
  let resolved ← Task.loop (env.updatedStep key params current) calls updates
  match resolved with
  | none => pure none
  | some newState => do
    env.acceptUpdated key params current newState
    pure (some newState)

def updateLocally (calls : Nat) (current : WrappedState) (update : UpdateData) :
    ExecutorTask (Option ContractResponse) := do
  let updated ← env.getUpdatedState key params calls current [update]
  match updated with
  | none => pure none
  | some newState => do
    env.summarize key params newState
    pure (some (.updateResponse key))

def updateOnNetwork (calls : Nat) (current : WrappedState) (update : UpdateData) :
    ExecutorTask (Option ContractResponse) := do
  let computed ← Task.loop (env.computedStep key params current) calls [update]
  match computed with
  | none => pure none
  | some (.noChange state) => do
    env.summarize key params state
    pure (some (.updateResponse key))
  | some (.changed newState) => do
    env.summarize key params newState
    if env.startsUpdate key newState then pure (some (.updateResponse key)) else throw .network

def performContractUpdate (calls : Nat) (update : UpdateData) :
    ExecutorTask (Option ContractResponse) := do
  let result ← env.onStore .getParams fun io store => (store.getParams io key, store)
  let params ← orStore result
  match params with
  | none => throw (.request (.update key "missing contract parameters"))
  | some params => do
    let current ← env.getState .current key
    let current ← orStore current
    if env.localMode then env.updateLocally key params calls current update
    else env.updateOnNetwork key params calls current update

end Environment

end Freenet.Contract
