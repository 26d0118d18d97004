import Freenet.Contract.ContractStore
import Freenet.Contract.UpsertFrames

/-! The upsert with the contract store, and what a failed put leaves of a new contract there. -/
namespace Freenet.Contract
open Lib Task Refines

/-- What the executor finds, with the files and the database of the contract store. At the end of
the request the code may have dropped out of the cache. -/
structure StoringEnvironment where
  env : Environment
  storing : ContractIo
  indexing : ContractIo
  removing : ContractIo
  evicts : Bool

/-- Files and database work, and the code drops out of the cache. -/
def StoringEnvironment.reliable (env : Environment) : StoringEnvironment :=
  ⟨env, .reliable, .reliable, .reliable, true⟩

abbrev StoringTask (α : Type) := EStateM RequestFailure (RequestRun × ContractStore CodeHash) α

namespace StoringEnvironment
variable (senv : StoringEnvironment) (call : UpsertCall) (key : ContractKey) (params : Parameters)

/-- A removal that fails is only logged. -/
def removeContract : StoringTask Unit := do
  let _ ← onSnd fun contracts => contracts.removeContract senv.removing key
  pure ()

def removeIfFailed (removeIfFail : Bool) : StoringTask Unit :=
  if removeIfFail then senv.removeContract key else pure ()

def ensureKeyIndexed : StoringTask Bool := do
  let result ← onSnd fun contracts => contracts.ensureKeyIndexed senv.indexing key
  match result with
  | .ok _ => pure false
  | .error _ => throw (.runtime "index")

def storeContract : StoringTask Bool := do
  let result ← onSnd fun contracts =>
    contracts.storeContract senv.storing key key.codeHash
  match result with
  | .ok _ => pure true
  | .error _ => throw (.runtime "store")

/-- Make sure that the contract's code is there, and tell whether this request brought it. -/
def provideContract : StoringTask Bool := do
  let fetched ← onSnd fun contracts => contracts.fetchContract key params
  if fetched.isSome then
    if call.code.isSome then senv.ensureKeyIndexed key else pure false
  else if call.code.isSome then senv.storeContract key
  else throw (.request (.missingContract key.id))

def startInitialization : StoringTask Unit := do
  let started ← onFst (attempt (senv.env.startInitialization key))
  rethrowAfter (senv.removeContract key) started

def startIfNew (removeIfFail isNew : Bool) : StoringTask Unit :=
  if removeIfFail && isNew && call.code.isSome then senv.startInitialization key else pure ()

def applyUpdate (removeIfFail isNew : Bool) : StoringTask UpsertResult :=
  match call.update with
  | .inl state =>
    if maxStateSize < state.length then do
      senv.removeIfFailed key removeIfFail
      throw (.request (.put key (Environment.tooLargeCause state.length)))
    else do
      let result ← onFst (senv.env.validate key params state call.relatedContracts)
      match result with
      | .error e => do
        senv.removeIfFailed key removeIfFail
        throw (.execution e none)
      | .ok result => onFst (senv.env.applyValidated call key params isNew state result)
  | .inr _ => onFst (senv.env.merge call key params)

def upsertNow : StoringTask UpsertResult := do
  let params ← onFst (senv.env.parameters call key)
  let removeIfFail ← senv.provideContract call key params
  let isNew ← onFst (senv.env.isNewContract key)
  senv.startIfNew call key removeIfFail isNew
  senv.applyUpdate call key params removeIfFail isNew

def bridgedUpsertContractState : StoringTask UpsertResult :=
  if call.key.id ≠ call.storedKey.id then throw (.runtime "contract key instance ID mismatch")
  else do
    let _ ← onFst senv.env.cleanupStale
    let check ← onFst (senv.env.checkAndMaybeQueue call call.storedKey)
    match check with
    | .notInitializing => senv.upsertNow call call.storedKey
    | .putDuringInit =>
      throw (.request (.put call.storedKey "contract is already being initialized"))
    | .queueFull => throw (.request (.update call.storedKey
        "contract initialization queue is full, try again later"))
    | .queued _ => do
      onFst (note (.queued call.storedKey))
      pure .noChange

def answered (contracts : ContractStore CodeHash) : Environment :=
  { senv.env with
    fetchContractCode := fun key params => (contracts.fetchContract key params).1.isSome
    storeContract := fun key =>
      ((contracts.fetchContract key []).2.storeContract senv.storing key key.codeHash).1.isOk
    ensureKeyIndexed := fun key =>
      ((contracts.fetchContract key []).2.ensureKeyIndexed senv.indexing key).1.isOk }

abbrev anything {α : Type} : α → RequestRun × ContractStore CodeHash → Prop := fun _ _ => True

variable {senv} {call} {key} {params} {contracts : ContractStore CodeHash}

theorem fetchContract_snd : (contracts.fetchContract key []).2 = (contracts.fetchContract key params).2 := by
  unfold ContractStore.fetchContract
  split
  · rfl
  · split
    · rfl
    · split <;> rfl

theorem removeContract_refines : Refines (fun _ => True) (senv.removeContract key) (pure ()) anything := by
  refine onSnd_bind fun _ => ?_
  exact refines_pure fun _ _ => trivial

theorem removeIfFailed_refines (removeIfFail : Bool) :
    Refines (fun _ => True) (senv.removeIfFailed key removeIfFail) (pure ()) anything := by
  unfold removeIfFailed
  split_ifs
  · exact removeContract_refines
  · exact refines_pure fun _ _ => trivial

theorem provideContract_refines :
    Refines (fun s => s.2 = contracts) (senv.provideContract call key params)
      ((senv.answered contracts).provideContract call key params) anything := by
  refine onSnd_bind fun fetched => ?_
  intro s hs
  obtain ⟨t, rfl, hfetch⟩ := hs
  have hfetched : (senv.answered t).fetchContractCode key params = fetched.isSome :=
    congrArg (fun r => r.1.isSome) hfetch
  have hstore : (t.fetchContract key []).2 = s.2 := by
    exact fetchContract_snd.trans (congrArg Prod.snd hfetch)
  unfold Environment.provideContract
  rw [hfetched]
  by_cases hsome : fetched.isSome
  · rw [if_pos hsome, if_pos hsome]
    by_cases hcode : call.code.isSome
    · rw [if_pos hcode]
      have hidx : (senv.answered t).ensureKeyIndexed key =
          (s.2.ensureKeyIndexed senv.indexing key).1.isOk := by
        rw [← hstore]
        rfl
      rw [hidx, hcode]
      unfold ensureKeyIndexed
      rw [onSnd_bind_eq]
      cases (s.2.ensureKeyIndexed senv.indexing key).1 with
      | ok _ | error _ => exact ⟨rfl, fun _ _ _ => trivial⟩
    · have hfalse : call.code.isSome = false := by simpa using hcode
      rw [hfalse]
      exact ⟨rfl, fun _ _ _ => trivial⟩
  · rw [if_neg hsome, if_neg hsome]
    by_cases hcode : call.code.isSome
    · rw [if_pos hcode, if_pos hcode]
      have hstor : (senv.answered t).storeContract key =
          (s.2.storeContract senv.storing key key.codeHash).1.isOk := by
        rw [← hstore]
        rfl
      rw [hstor]
      unfold storeContract
      rw [onSnd_bind_eq]
      cases (s.2.storeContract senv.storing key key.codeHash).1 with
      | ok _ | error _ => exact ⟨rfl, fun _ _ _ => trivial⟩
    · rw [if_neg hcode, if_neg hcode]
      exact ⟨rfl, fun _ _ _ => trivial⟩

variable (removeIfFail isNew : Bool)

theorem startIfNew_refines : Refines (fun _ => True) (senv.startIfNew call key removeIfFail isNew)
      ((senv.answered contracts).startIfNew call key removeIfFail isNew) anything := by
  unfold startIfNew Environment.startIfNew
  split_ifs
  · exact refines_rethrow removeContract_refines
  · exact refines_pure fun _ _ => trivial

theorem applyUpdate_refines :
    Refines (fun _ => True) (senv.applyUpdate call key params removeIfFail isNew)
      ((senv.answered contracts).applyUpdate call key params isNew) anything := by
  unfold applyUpdate Environment.applyUpdate
  cases call.update with
  | inr delta => exact refines_onFst (fun _ => True) _
  | inl state =>
    dsimp only
    by_cases hlarge : maxStateSize < state.length
    · rw [if_pos hlarge, if_pos hlarge]
      exact (removeIfFailed_refines removeIfFail).bind fun _ => refines_throw _
    · rw [if_neg hlarge, if_neg hlarge]
      refine bind (refines_onFst (fun _ => True) _) fun result => ?_
      cases result with
      | ok result => exact refines_onFst (fun _ => True) _
      | error e => exact (removeIfFailed_refines removeIfFail).bind fun _ => refines_throw _

theorem upsertNow_refines : Refines (fun s => s.2 = contracts) (senv.upsertNow call key)
      ((senv.answered contracts).upsertNow call key) anything := by
  refine bind (refines_onFst (· = contracts) _) fun params => ?_
  refine bind provideContract_refines fun removeIfFail => ?_
  refine bind (refines_onFst (fun _ => True) _) fun isNew => ?_
  exact (startIfNew_refines removeIfFail isNew).bind fun _ => applyUpdate_refines removeIfFail isNew

/-- The executor does with its contract store what it does without one when it is told the store's
answers. -/
theorem bridgedUpsert_refines :
    Refines (fun s => s.2 = contracts) (senv.bridgedUpsertContractState call)
      ((senv.answered contracts).bridgedUpsertContractState call) anything := by
  unfold bridgedUpsertContractState Environment.bridgedUpsertContractState
  by_cases hid : call.key.id ≠ call.storedKey.id
  · rw [if_pos hid, if_pos hid]
    exact refines_throw _
  · rw [if_neg hid, if_neg hid]
    refine bind (refines_onFst (· = contracts) _) fun _ => ?_
    refine bind (refines_onFst (· = contracts) _) fun check => ?_
    cases check with
    | notInitializing => exact upsertNow_refines
    | putDuringInit | queueFull => exact refines_throw _
    | queued size =>
      exact bind (refines_onFst (· = contracts) _) fun _ =>
        refines_pure fun _ _ => trivial

open ContractStore
variable (senv call key params) (executor : ExecutorState)

/-- The initializations that are not forgotten when the request begins. -/
def initializing : ContractInitTracker :=
  (executor.initTracker.cleanupStaleInitializations senv.env.now staleInitThreshold).2

/-- The put is refused before the contract store is looked at. -/
def TurnsAway : Prop :=
  call.key.id ≠ key.id ∨ (senv.initializing executor).isInitializing key = true

/-- No state is found, and too many contracts are being initialized already. -/
def TooBusy : Prop :=
  (executor.store.get (senv.env.io .newCheck 0) key).1.toOption = none ∧
    (senv.initializing executor).startInitialization key senv.env.startNow = none

def BreaksOff : Prop :=
  ∃ state, call.update = .inl state ∧ (maxStateSize < state.length ∨
    ∃ e, senv.env.validateState key params state call.relatedContracts = .error e)

/-- Nothing is stored, or it is removed again and the cache forgets it too. -/
def Undoes : Prop :=
  (senv.storing.createFails ∨ senv.storing.writeFails) ∨
    ¬(senv.storing.syncFails ∨ senv.storing.indexFails) ∧
      (senv.TooBusy key executor ∨ senv.BreaksOff call key params) ∧
      senv.removing.indexFails = false ∧ senv.removing.removeFails = false ∧ senv.evicts = true

/-- The contract was removed again where the executor gave up, and is still there otherwise. -/
def RemovedIf (givesUp : Prop) (stored contracts : ContractStore CodeHash) : Prop :=
  givesUp ∧ contracts = (stored.removeContract senv.removing key).2 ∨ ¬givesUp ∧ contracts = stored

variable {senv call key params executor} {stored contracts : ContractStore CodeHash}
  {Err : RequestFailure → RequestRun × ContractStore CodeHash → Prop}
  {tracker : ContractInitTracker} {container : WrappedContract}
  {states : CachedTable ContractKey WrappedState}

theorem removeContract_triple : Triple (fun s => s.2 = stored) (senv.removeContract key)
      (fun _ s => s.2 = (stored.removeContract senv.removing key).2) Err := by
  refine triple_onSnd_bind fun s hs => triple_pure ?_
  rintro _ rfl
  rw [hs]

theorem validate_triple {state : WrappedState} {related : RelatedContracts} :
    Triple (fun s => s.2 = stored) (onFst (senv.env.validate key params state related))
      (fun result s => s.2 = stored ∧ result = senv.env.validateState key params state related)
      Err := by
  intro s hs
  exact ⟨hs, rfl⟩

theorem applyUpdate_triple (isNew : Bool) :
    Triple (fun s => s.2 = stored) (senv.applyUpdate call key params true isNew) (fun _ _ => True)
      (fun _ s => senv.RemovedIf key (senv.BreaksOff call key params) stored s.2) := by
  unfold applyUpdate
  cases hupd : call.update with
  | inr delta =>
    have hgoes : ¬senv.BreaksOff call key params := by
      rintro ⟨state, hstate, _⟩
      rw [hupd] at hstate
      cases hstate
    exact (triple_onFst (· = stored)).ends (fun _ _ _ => trivial) fun _ _ hs => .inr ⟨hgoes, hs⟩
  | inl state =>
    dsimp only
    by_cases hlarge : maxStateSize < state.length
    · rw [if_pos hlarge]
      refine removeContract_triple.andThen (triple_throw fun s hs => ?_)
      exact .inl ⟨⟨state, hupd, .inl hlarge⟩, hs⟩
    · rw [if_neg hlarge]
      refine validate_triple.bind fun result => triple_of_fact fun hresult => ?_
      cases result with
      | error e =>
        refine removeContract_triple.andThen (triple_throw fun s hs => ?_)
        exact .inl ⟨⟨state, hupd, .inr ⟨e, hresult.symm⟩⟩, hs⟩
      | ok result =>
        have hgoes : ¬senv.BreaksOff call key params := by
          rintro ⟨state', hstate, hbreaks⟩
          rw [hupd] at hstate
          cases hstate
          rcases hbreaks with hsize | ⟨e, herror⟩
          · exact hlarge hsize
          · rw [← hresult] at herror
            cases herror
        exact (triple_onFst (· = stored)).ends (fun _ _ _ => trivial) fun _ _ hs => .inr ⟨hgoes, hs⟩

theorem startIfNew_triple {isNew : Bool} (hcode : call.code.isSome) :
    Triple (fun s => s.1.initTracker = tracker ∧ s.2 = stored) (senv.startIfNew call key true isNew)
      (fun _ s => s.2 = stored ∧ ¬(isNew = true ∧ tracker.startInitialization key senv.env.startNow = none))
      (fun _ s => (isNew = true ∧ tracker.startInitialization key senv.env.startNow = none) ∧
        s.2 = (stored.removeContract senv.removing key).2) := by
  unfold startIfNew
  cases isNew with
  | false =>
    exact triple_pure fun s hs => ⟨hs.2, by simp⟩
  | true =>
    rw [if_pos (by simpa using hcode)]
    have hstart : Triple (fun run => run.initTracker = tracker) (senv.env.startInitialization key)
        (fun _ _ => tracker.startInitialization key senv.env.startNow ≠ none)
        (fun _ _ => tracker.startInitialization key senv.env.startNow = none) := by
      refine startInitialization_triple ?_ ?_
      · rintro run tracker' rfl hsome
        rw [hsome]
        exact Option.some_ne_none _
      · rintro run _ rfl hnone
        exact hnone
    refine hstart.onFst_attempt_bind (· = stored) ?_ ?_
    · intro _
      exact triple_pure fun s hs => ⟨hs.2, fun hrefus => hs.1 hrefus.2⟩
    · intro e
      refine (triple_of_fact fun hrefus => removeContract_triple.andThen (triple_throw
        fun _ hs => ⟨⟨rfl, hrefus⟩, hs⟩)).of_pre fun _ hs => ⟨hs.2, hs.1⟩

theorem initialize_triple {isNew : Bool} (hcode : call.code.isSome) :
    Triple (fun s => s.1.initTracker = tracker ∧ s.2 = stored)
      (senv.startIfNew call key true isNew >>= fun _ => senv.applyUpdate call key params true isNew)
      (fun _ _ => True) (fun _ s => senv.RemovedIf key
        ((isNew = true ∧ tracker.startInitialization key senv.env.startNow = none) ∨
          senv.BreaksOff call key params) stored s.2) := by
  refine ((startIfNew_triple hcode).err fun _ _ hs => .inl ⟨.inl hs.1, hs.2⟩).bind fun _ => ?_
  refine triple_of_fact fun hstarted => ?_
  refine (applyUpdate_triple isNew).err ?_
  rintro _ s (⟨hbreaks, hremd⟩ | ⟨hgoes, hstor⟩)
  · exact .inl ⟨.inr hbreaks, hremd⟩
  · refine .inr ⟨?_, hstor⟩
    rintro (hrefus | hbreaks)
    · exact hstarted hrefus
    · exact hgoes hbreaks

def Finds (tracker : ContractInitTracker) (states : CachedTable ContractKey WrappedState)
    (run : RequestRun) : Prop :=
  run.initTracker = tracker ∧ run.store.states = states ∧ run.accesses .newCheck = 0

theorem parameters_triple (hcode : call.code = some container) :
    Triple (Finds tracker states) (senv.env.parameters call key)
      (fun params run => Finds tracker states run ∧ params = container.params) fun _ _ => False := by
  unfold Environment.parameters
  rw [hcode]
  have hensur : Triple (Finds tracker states) (senv.env.onStore .ensureParams fun io store =>
        ((), store.ensureParams io key container.params))
      (fun _ => Finds tracker states) fun _ _ => False := by
    refine triple_modifyGet ?_
    rintro run ⟨htrack, hstat, haccess⟩
    refine ⟨htrack, ?_, haccess⟩
    dsimp only
    unfold StateStore.ensureParams
    split_ifs
    · exact hstat
    · exact hstat
  exact hensur.andThen (triple_pure fun _ hrun => ⟨hrun, rfl⟩)

theorem isNewContract_triple {store : StateStore} :
    Triple (Finds tracker store.states) (senv.env.isNewContract key)
      (fun isNew run => run.initTracker = tracker ∧
        isNew = (store.get (senv.env.io .newCheck 0) key).1.toOption.isNone) fun _ _ => False := by
  have hfound : Triple (Finds tracker store.states) (senv.env.getState .newCheck key)
      (fun result run => run.initTracker = tracker ∧
        result = (store.get (senv.env.io .newCheck 0) key).1) fun _ _ => False := by
    refine triple_modifyGet ?_
    rintro run ⟨htrack, hstat, haccess⟩
    refine ⟨htrack, ?_⟩
    rw [haccess]
    exact StateStore.get_congr hstat
  refine hfound.bind fun result => triple_pure ?_
  rintro run ⟨htrack, hresult⟩
  exact ⟨htrack, by rw [hresult]⟩

theorem provideContract_triple {P : RequestRun → Prop} (habsent : contracts.Absent key)
    (hcode : call.code.isSome) :
    Triple (fun s => P s.1 ∧ s.2 = contracts) (senv.provideContract call key params)
      (fun removeIfFail s => P s.1 ∧ removeIfFail = true ∧ s.2.Present key ∧
        ¬(senv.storing.createFails ∨ senv.storing.writeFails) ∧
        ¬(senv.storing.syncFails ∨ senv.storing.indexFails))
      (fun _ s => (senv.storing.createFails ∨ senv.storing.writeFails) ∧ s.2.Absent key ∨
        ¬(senv.storing.createFails ∨ senv.storing.writeFails) ∧
          (senv.storing.syncFails ∨ senv.storing.indexFails) ∧
          s.2.files.get key.codeHash = some (some key.codeHash)) := by
  refine triple_onSnd_bind ?_
  rintro ⟨run, _⟩ ⟨hP, rfl⟩
  rw [habsent.fetchContract, if_neg (by simp), if_pos hcode]
  refine triple_onSnd_bind ?_
  rintro _ rfl
  rcases habsent.storeContract_cases with ⟨hfails, e, store', heq, hgone⟩ |
    ⟨hwrit, hfails, e, store', heq, hfiled⟩ | ⟨hwrit, hidx, store', heq, hpres⟩
  · rw [heq]
    refine triple_throw ?_
    rintro _ rfl
    exact .inl ⟨hfails, hgone⟩
  · rw [heq]
    refine triple_throw ?_
    rintro _ rfl
    exact .inr ⟨hwrit, hfails, hfiled⟩
  · rw [heq]
    refine triple_pure ?_
    rintro _ rfl
    exact ⟨hP, rfl, hpres, hwrit, hidx⟩

/-- Where the contract was stored, it is gone in the end just where the executor gave up and the
removal went through. -/
theorem RemovedIf.absent_iff {givesUp : Prop} (hpres : stored.Present key)
    (h : senv.RemovedIf key givesUp stored contracts) : (contracts.settled senv.evicts key).Absent key ↔
      givesUp ∧ senv.removing.indexFails = false ∧ senv.removing.removeFails = false ∧
        senv.evicts = true := by
  rcases h with ⟨hgives, rfl⟩ | ⟨hgoes, rfl⟩
  · rw [hpres.absent_removed_iff]
    exact (and_iff_right hgives).symm
  · constructor
    · intro habsent
      exact absurd habsent (not_absent_of_filed hpres.filed)
    · rintro ⟨hgives, _⟩
      exact absurd hgives hgoes

theorem upsertNow_triple (hcode : call.code = some container) (habsent : contracts.Absent key) :
    Triple (fun s => Finds (senv.initializing executor) executor.store.states s.1 ∧ s.2 = contracts)
      (senv.upsertNow call key) (fun _ _ => True) (fun _ s => (s.2.settled senv.evicts key).Absent key ↔
        senv.Undoes call key container.params executor) := by
  have hsome : call.code.isSome = true := by
    rw [hcode]
    rfl
  refine ((parameters_triple hcode).onFst_ok (· = contracts)).bind ?_
  rintro params ⟨run, _⟩ ⟨⟨hfinds, rfl⟩, rfl⟩
  refine ((provideContract_triple habsent hsome).err ?_).bind ?_ _ ⟨hfinds, rfl⟩
  · rintro _ s (⟨hfails, hgone⟩ | ⟨hwrit, hfails, hfiled⟩)
    · exact iff_of_true hgone.settled (.inl hfails)
    · refine iff_of_false (not_absent_of_filed hfiled) ?_
      rintro (hunwr | ⟨hidx, _⟩)
      · exact hwrit hunwr
      · exact hidx hfails
  · rintro _ ⟨run, stored⟩ ⟨hfinds, rfl, hpres, hwrit, hidx⟩
    refine (isNewContract_triple.onFst_ok (· = stored)).bind ?_ _ ⟨hfinds, rfl⟩
    rintro isNew ⟨run, _⟩ ⟨⟨htrack, rfl⟩, rfl⟩
    refine ((initialize_triple hsome).err ?_) _ ⟨htrack, rfl⟩
    intro _ s hremd
    rw [hremd.absent_iff hpres, Option.isNone_iff_eq_none]
    exact ⟨fun hundone => .inr ⟨hidx, hundone⟩, fun hundone => (hundone.resolve_left hwrit).2⟩

theorem cleanupStale_triple :
    Triple (fun s => s = (executor.begin, contracts)) (onFst senv.env.cleanupStale)
      (fun _ s => Finds (senv.initializing executor) executor.store.states s.1 ∧ s.2 = contracts)
      Err := by
  rintro _ rfl
  exact ⟨⟨rfl, rfl, rfl⟩, rfl⟩

/-- A put is refused while the contract is being initialized, and is never queued. -/
theorem checkAndMaybeQueue_triple (hcode : call.code.isSome) :
    Triple (Finds tracker states) (senv.env.checkAndMaybeQueue call key)
      (fun check run => Finds tracker states run ∧
        check = if tracker.isInitializing key then .putDuringInit else .notInitializing)
      fun _ _ => False := by
  refine triple_modifyGet ?_
  rintro run ⟨rfl, hstat, haccess⟩
  have hcheck : run.initTracker.checkAndMaybeQueue key senv.env.now call.code.isSome call.update
      call.relatedContracts = (if run.initTracker.isInitializing key then .putDuringInit
        else .notInitializing, run.initTracker) := by
    unfold ContractInitTracker.checkAndMaybeQueue ContractInitTracker.isInitializing
    cases run.initTracker.states.lookup key with
    | none => rfl
    | some state =>
      dsimp only
      rw [if_pos hcode]
      rfl
  dsimp only
  rw [hcheck]
  exact ⟨⟨rfl, hstat, haccess⟩, rfl⟩

variable (senv executor) in
theorem bridgedUpsert_triple (hcode : call.code = some container)
    (habsent : contracts.Absent container.key) : Triple (fun s => s = (executor.begin, contracts))
      (senv.bridgedUpsertContractState call) (fun _ _ => True)
      (fun _ s => (s.2.settled senv.evicts container.key).Absent container.key ↔
        senv.TurnsAway call container.key executor ∨
          senv.Undoes call container.key container.params executor) := by
  have hkey : call.storedKey = container.key := by
    unfold UpsertCall.storedKey
    rw [hcode]
  unfold bridgedUpsertContractState
  rw [hkey]
  by_cases hid : call.key.id ≠ container.key.id
  · rw [if_pos hid]
    refine triple_throw ?_
    rintro _ rfl
    exact iff_of_true habsent.settled (.inl (.inl hid))
  rw [if_neg hid]
  have hsome : call.code.isSome = true := by
    rw [hcode]
    rfl
  refine cleanupStale_triple.andThen (((checkAndMaybeQueue_triple hsome).onFst_ok (· = contracts)).bind ?_)
  rintro _ ⟨run, _⟩ ⟨⟨hfinds, rfl⟩, rfl⟩
  by_cases hinit : (senv.initializing executor).isInitializing container.key = true
  · rw [if_pos hinit]
    exact iff_of_true habsent.settled (.inl (.inr hinit))
  · rw [if_neg hinit]
    have hturn : ¬senv.TurnsAway call container.key executor := by
      rintro (hne | htrue)
      · exact hid hne
      · exact hinit htrue
    refine (upsertNow_triple hcode habsent).err ?_ _ ⟨hfinds, rfl⟩
    intro _ s hundone
    rw [or_iff_right hturn]
    exact hundone

variable (senv call executor) in
/-- A failed put leaves neither the code nor the index entry of a contract that was not stored just
where it was turned away, no file was written, or the executor gave up on one of the three exits
that remove the contract, the removal went through, and the cache had lost the code. -/
theorem failed_put_leaves_nothing_iff {container : WrappedContract} {failure : RequestFailure}
    {run : RequestRun} (hcode : call.code = some container) (habsent : stored.Absent container.key)
    (hfails : senv.bridgedUpsertContractState call (executor.begin, stored) =
      .error failure (run, contracts)) :
    (contracts.settled senv.evicts container.key).Absent container.key ↔
      senv.TurnsAway call container.key executor ∨
        senv.Undoes call container.key container.params executor :=
  (bridgedUpsert_triple senv executor hcode habsent).error rfl hfails

/-- The validation of a first state breaks off, and the contract is gone once the cache forgets
it. -/
theorem broken_off_put_leaves_nothing : ∃ failure run contracts,
      (reliable (.breakingOff 0)).bridgedUpsertContractState (.putOne [7])
        ((ExecutorState.fresh true).begin, .empty) = .error failure (run, contracts) ∧
      (contracts.settled true ⟨1, 1⟩).Absent ⟨1, 1⟩ := by
  refine ⟨_, _, _, rfl, ?_⟩
  refine (failed_put_leaves_nothing_iff (reliable (.breakingOff 0)) (.putOne [7]) (.fresh true) rfl
    absent_empty rfl).mpr (.inr (.inr ⟨by decide, ?_, rfl, rfl, rfl⟩))
  exact .inr ⟨[7], rfl, .inr ⟨⟨⟩, rfl⟩⟩

/-- A first state that the contract finds invalid leaves the code and the index entry behind. -/
theorem rejected_put_leaves_contract : ∃ failure run contracts,
      (reliable (.rejecting 0)).bridgedUpsertContractState (.putOne [7])
        ((ExecutorState.fresh true).begin, .empty) = .error failure (run, contracts) ∧
      (empty : ContractStore CodeHash).Absent ⟨1, 1⟩ ∧ ¬(contracts.settled true ⟨1, 1⟩).Absent ⟨1, 1⟩ ∧
      (contracts.settled true ⟨1, 1⟩).loadVersioned 1 = some 1 ∧
      (contracts.settled true ⟨1, 1⟩).db.get 1 = some 1 := by
  refine ⟨_, _, _, rfl, absent_empty, ?_, rfl, rfl⟩
  exact not_absent_of_filed rfl

end StoringEnvironment
end Freenet.Contract
