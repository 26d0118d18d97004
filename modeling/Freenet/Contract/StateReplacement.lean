import Freenet.Contract.UpsertFrames

/-! A stored state is only replaced by one that it explains, unless a failing read hides it. -/
namespace Freenet.Contract
open Lib Lib.Task StateStore CachedTable

def Entry.merges (key : ContractKey) (old state : WrappedState) : Entry → Bool
  | .attempted key' current _ newState => key' = key ∧ current = old ∧ newState = some state
  | _ => false

/-- The contract made the state of the old one, or the old one was found invalid and the state came
in with the call. -/
def Explains (call : UpsertCall) (key : ContractKey) (old state : WrappedState) (log : List Entry) : Prop :=
  (∃ entry ∈ log, entry.merges key old state = true) ∨ .validated key old false ∈ log ∧
    call.update = .inl state

instance {call : UpsertCall} {key : ContractKey} {old state : WrappedState} {log : List Entry} :
    Decidable (Explains call key old state log) :=
  inferInstanceAs (Decidable (_ ∨ _))

theorem Explains.cons {call : UpsertCall} {key : ContractKey} {old state : WrappedState}
    {log : List Entry} {entry : Entry} (h : Explains call key old state log) :
    Explains call key old state (entry :: log) := by
  rcases h with ⟨made, hmade, hmerg⟩ | ⟨hinval, hupdate⟩
  · exact .inl ⟨made, List.mem_cons_of_mem entry hmade, hmerg⟩
  · exact .inr ⟨List.mem_cons_of_mem entry hinval, hupdate⟩

def Write.Justified (call : UpsertCall) (log : List Entry) (w : Write) : Prop :=
  ∀ old ∈ w.replaced, Explains call w.key old w.state log

instance {call : UpsertCall} {log : List Entry} {w : Write} : Decidable (w.Justified call log) :=
  inferInstanceAs (Decidable (∀ old ∈ w.replaced, Explains call w.key old w.state log))

/-- The cache agrees with the backing store and will do so, and all writes so far are justified. -/
structure Upholds (env : Environment) (call : UpsertCall) (run : RequestRun) : Prop where
  coherent : run.store.states.Coherent
  cache : run.store.states.cache = none ∨ ∀ n, (env.io .commit n).writeFails = false
  written : ∀ w ∈ run.store.written, w.Justified call run.log

structure Stands (env : Environment) (call : UpsertCall) (key : ContractKey)
    (stored : Option WrappedState) (run : RequestRun) : Prop extends Upholds env call run where
  stored : run.store.states.table.get key = stored

variable {env : Environment} {call : UpsertCall} {key : ContractKey} {params : Parameters}
  {run : RequestRun} {stored : Option WrappedState} {current state : WrappedState}

theorem Upholds.note (h : Upholds env call run) (entry : Entry) :
    Upholds env call { run with log := entry :: run.log } where
  coherent := h.coherent
  cache := h.cache
  written w hw old hold := (h.written w hw old hold).cons

theorem upholds_framed (env : Environment) (call : UpsertCall) : Framed (Upholds env call) where
  guard _ _ h := { h with }
  note _ entry _ h := h.note entry

theorem stands_framed (env : Environment) (call : UpsertCall) (key : ContractKey)
    (stored : Option WrappedState) : Framed (Stands env call key stored) where
  guard _ _ h := ⟨{ h with }, h.stored⟩
  note _ entry _ h := ⟨h.note entry, h.stored⟩

section
variable (h : Upholds env call run)
include h

theorem Upholds.looked (io : Io) (key : ContractKey) (accesses : Site → Nat) :
    Upholds env call { run with store := run.store.looked io key, accesses := accesses } where
  coherent := h.coherent.evictIf
  cache := h.cache.imp_left evictIf_cache_of_none
  written := h.written

theorem Upholds.cachedOnly {accesses : Site → Nat}
    (hkey : run.store.states.table.get key = none ∨ run.store.states.cache = none) :
    Upholds env call { run with store := run.store.cachedOnly key state, accesses := accesses } where
  coherent := h.coherent.insertCache hkey
  cache := h.cache.imp_left insertCache_cache_of_none
  written := h.written

theorem Upholds.persisted {accesses : Site → Nat} {params : Table ContractKey Parameters}
    (hjust : ∀ old, run.store.states.table.get key = some old → Explains call key old state run.log) :
    Upholds env call { run with
      store := { run.store.persisted key state with params := params }, accesses := accesses } where
  coherent := h.coherent.insert
  cache := h.cache.imp_left insertCache_cache_of_none
  written w hw := by
    rcases List.mem_cons.mp hw with rfl | hw
    · exact hjust
    · exact h.written w hw

end

/-- A state that the current one explains, if it is not the same, can be stored. -/
structure Prepared (env : Environment) (call : UpsertCall) (key : ContractKey)
    (stored : Option WrappedState) (current state : WrappedState) (run : RequestRun) : Prop
    extends Stands env call key stored run where
  explains : state ≠ current → Explains call key current state run.log

theorem prepared_framed (env : Environment) (call : UpsertCall) (key : ContractKey)
    (stored : Option WrappedState) (current state : WrappedState) :
    Framed (Prepared env call key stored current state) where
  guard run guard h := ⟨(stands_framed env call key stored).guard run guard h.toStands, h.explains⟩
  note run entry hentry h :=
    ⟨(stands_framed env call key stored).note run entry hentry h.toStands, fun hne => (h.explains hne).cons⟩

theorem Stands.prepared {updates : List UpdateData} {run : RequestRun}
    (h : Stands env call key stored run) (hprod : Produced key current updates state run.log) :
    Prepared env call key stored current state run := by
  refine ⟨h, ?_⟩
  intro hne
  rcases hprod with hatt | ⟨_, hsame⟩
  · exact .inl ⟨_, hatt, by simp [Entry.merges]⟩
  · exact absurd hsame hne

theorem commitStateUpdate_stands (hstor : stored = some current ∨ stored = none)
    (hne : state ≠ current) :
    Triple (Prepared env call key stored current state) (env.commitStateUpdate key state)
      (fun _ => Stands env call key (some state)) (fun _ => Stands env call key stored) := by
  unfold Environment.commitStateUpdate
  split_ifs
  · exact triple_throw fun _ h => h.toStands
  have hupd : Triple (Prepared env call key stored current state)
      (env.onStore .commit fun io => update io key state)
      (fun result run => match result with
        | .ok _ => Stands env call key (some state) run
        | .error _ => Stands env call key stored run)
      (fun _ => Stands env call key stored) := by
    refine triple_modifyGet ?_
    intro run h
    dsimp only
    have hlook := h.looked (env.io .commit (run.accesses .commit)) key run.accesses
    rcases update_cases with ⟨e, heq⟩ | ⟨e, heq⟩ | ⟨⟨_, hfails⟩, heq⟩ | ⟨_, heq⟩
    · rw [heq]
      exact ⟨{ h with }, h.stored⟩
    · rw [heq]
      exact ⟨h.looked _ key _, by simpa using h.stored⟩
    · rw [heq]
      -- such a write does not fail if there is a cache
      rcases h.cache with hcache | hwrit
      · exact ⟨hlook.cachedOnly (.inr (evictIf_cache_of_none hcache)), by simpa [cachedOnly] using h.stored⟩
      · rw [hwrit] at hfails
        cases hfails
    · rw [heq]
      refine ⟨hlook.persisted ?_, by simp [persisted]⟩
      intro old hold
      rw [looked_table, h.stored] at hold
      rcases hstor with rfl | rfl
      · cases hold
        exact h.explains hne
      · cases hold
  refine hupd.bind ?_
  rintro (e | a)
  · exact triple_fail
  · exact triple_skip

theorem commitReplayed_stands (hne : state ≠ current) :
    Triple (Prepared env call key (some current) current state) (env.commitReplayed key current state)
      (fun next => Stands env call key (some next)) (fun _ => Upholds env call) := by
  refine (commitStateUpdate_stands (.inl rfl) hne).attempt.bind ?_
  rintro (e | a)
  · exact triple_pure fun _ h => h
  · exact triple_pure fun _ h => h

theorem replayQueued_stands {op : QueuedOperation} :
    Triple (Stands env call key (some current)) (env.replayQueued key params current op)
      (fun next => Stands env call key (some next)) (fun _ => Upholds env call) := by
  have hnoted : Triple (Stands env call key (some current)) (note (.replayed key op.update))
      (fun _ => Stands env call key (some current)) (fun _ => Upholds env call) :=
    triple_modify fun run h => ⟨h.note _, h.stored⟩
  have hacc : ∀ newState, Triple (Prepared env call key (some current) current newState)
      (env.acceptReplayed key params current newState op.relatedContracts)
      (fun next => Stands env call key (some next)) (fun _ => Upholds env call) := by
    intro newState
    have hF := prepared_framed env call key (some current) current newState
    refine (hF.keeps_isValid.triple_weak fun _ h => h.toUpholds).bind ?_
    intro valid
    split_ifs with haccept
    · simp only [Bool.and_eq_true, decide_eq_true_eq] at haccept
      exact commitReplayed_stands haccept.2
    · exact triple_pure fun _ h => h.toStands
  refine hnoted.andThen
    ((stands_framed env call key (some current)).attemptStateUpdate_produced.attempt.bind ?_)
  rintro (mergeErr | newState | missing)
  · exact triple_pure fun _ h => h
  · exact (hacc newState).of_pre (fun _ h => h.1.prepared (h.2 newState rfl))
  · exact triple_pure fun _ h => h.1

theorem replay_stands {ops : List QueuedOperation} :
    Triple (Stands env call key (some current)) (ops.foldlM (env.replayQueued key params) current)
      (fun next => Stands env call key (some next)) (fun _ => Upholds env call) := by
  induction ops generalizing current with
  | nil => exact triple_pure fun _ h => h
  | cons op ops ih => exact replayQueued_stands.bind fun _ => ih

theorem storeInitial_upholds : Leads (Stands env call key none) (env.storeInitial key params state)
      (Upholds env call) := by
  have hstor : Triple (Stands env call key none)
      (env.onStore .initial fun io store => store.store io key state params)
      (fun result run => Upholds env call run ∧ (result = .ok () →
        run.store.states.table.get key = some state))
      (fun _ => Upholds env call) := by
    refine triple_modifyGet ?_
    intro run h
    dsimp only
    rcases store_cases with ⟨e, heq⟩ | ⟨_, heq⟩ | ⟨_, _, params', heq⟩
    · rw [heq]
      exact ⟨{ h with }, by simp⟩
    · rw [heq]
      exact ⟨h.cachedOnly (.inl h.stored), by simp⟩
    · rw [heq]
      refine ⟨h.persisted ?_, fun _ => by simp [persisted]⟩
      intro old hold
      cases h.stored.symm.trans hold
  have hcheck : ∀ result : Except StateStoreError Unit, Triple (fun run => Upholds env call run ∧
        (result = .ok () → run.store.states.table.get key = some state))
      (orStore result) (fun _ => Stands env call key (some state)) (fun _ => Upholds env call) :=
    fun result => orStore_triple (fun _ hok _ h => ⟨h.1, h.2 hok⟩) fun _ _ _ h => h.1
  have hcompl : Triple (Stands env call key (some state))
      (modifyTracker (·.completeInitialization key))
      (fun _ => Stands env call key (some state)) (fun _ => Upholds env call) :=
    triple_modifyGet fun run h => ⟨{ h with }, h.stored⟩
  refine hstor.bind fun result => (hcheck result).andThen (hcompl.bind fun _ => ?_)
  exact replay_stands.bind fun _ => triple_pure fun _ h => h.toUpholds

/-- The current state is the one of the backing store, if that has one. -/
def Current (env : Environment) (call : UpsertCall) (key : ContractKey) (current : WrappedState)
    (run : RequestRun) : Prop :=
  ∃ stored, (stored = some current ∨ stored = none) ∧ Stands env call key stored run

theorem currentState_current :
    Triple (Upholds env call) (env.currentState key) (fun current => Current env call key current)
      (fun _ => Upholds env call) := by
  have hget : Triple (Upholds env call) (env.getState .current key)
      (fun result run => Upholds env call run ∧
        ∀ current, result = .ok current → Current env call key current run)
      (fun _ => Upholds env call) := by
    refine triple_modifyGet ?_
    intro run h
    dsimp only
    rw [get_snd]
    have hlook := h.looked (env.io .current (run.accesses .current)) key
      (Function.update run.accesses .current (run.accesses .current + 1))
    refine ⟨hlook, ?_⟩
    intro current hresult
    refine ⟨_, ?_, hlook, rfl⟩
    rcases holds_of_visible (visible_of_get hresult) with hcach | htable
    · exact hlook.coherent key current hcach
    · exact .inl htable
  refine hget.bind ?_
  intro result
  split
  · exact triple_pure fun _ h => h.2 _ rfl
  · exact triple_throw fun _ h => h.1
  · exact triple_throw fun _ h => h.1

theorem commitMerged_upholds {stored : Option WrappedState}
    (hstor : stored = some current ∨ stored = none) :
    Leads (Prepared env call key stored current state) (env.commitMerged key current state)
      (Upholds env call) := by
  unfold Environment.commitMerged
  split_ifs with hsame
  · exact triple_pure fun _ h => h.toUpholds
  · refine ((commitStateUpdate_stands hstor hsame).ends
      (fun _ _ h => h.toUpholds) (fun _ _ h => h.toUpholds)).andThen ?_
    exact triple_skip

theorem merge_upholds : Leads (Upholds env call) (env.merge call key params) (Upholds env call) := by
  refine currentState_current.bind ?_
  rintro current run ⟨stored, hstor, hstands⟩
  have hmerged : Triple (Stands env call key stored) (env.mergeOrRecover call key params current)
      (fun merged => Prepared env call key stored current merged.1) (fun _ => Upholds env call) := by
    refine (stands_framed env call key stored).mergeOrRecover_merged.ends ?_ (fun _ _ h => h.toUpholds)
    rintro merged run ⟨hstands, hprod | ⟨hupdate, hinval⟩⟩
    · exact hstands.prepared hprod
    · exact ⟨hstands, fun _ => .inr ⟨hinval, hupdate⟩⟩
  refine (hmerged.bind ?_) run hstands
  intro merged
  have hF := prepared_framed env call key stored current merged.1
  refine (hF.keeps_clearRecovery.triple_weak fun _ h => h.toUpholds).andThen ?_
  refine (hF.keeps_validateMerged.triple_weak fun _ h => h.toUpholds).andThen ?_
  exact commitMerged_upholds hstor

open Environment

def UpsertHistory.Upheld (h : UpsertHistory) : Prop :=
  ∀ r ∈ h.records, ∀ w ∈ r.after.written, w.Justified r.call r.log

instance {h : UpsertHistory} : Decidable h.Upheld :=
  inferInstanceAs (Decidable (∀ r ∈ h.records, ∀ w ∈ r.after.written, w.Justified r.call r.log))

/-- The read that tells whether the contract is new does not fail, and with a cache neither does the
write of a merged state. -/
structure UpsertEvent.Dependable (executor : ExecutorState) (e : UpsertEvent) : Prop where
  reads : (e.env.io .newCheck 0).readFails = true →
    ((executor.store.looked (e.env.io .newCheck 0) e.call.storedKey).states.cached
      e.call.storedKey).isSome = true
  writes : executor.store.states.cache = none ∨ ∀ n, (e.env.io .commit n).writeFails = false

variable {executor : ExecutorState} {e : UpsertEvent}

theorem upholds_modifyTracker {α : Type} (f : ContractInitTracker → α × ContractInitTracker) :
    Preserves (Upholds env call) (modifyTracker f) :=
  keeps_modifyGet fun _ h => ⟨{ h with }, trivial⟩

/-- A contract that is taken for a new one has no state in the backing store. -/
def Checked (env : Environment) (call : UpsertCall) (key : ContractKey) (isNew : Bool)
    (run : RequestRun) : Prop :=
  Upholds env call run ∧ (isNew = true → run.store.states.table.get key = none)

theorem checked_framed (env : Environment) (call : UpsertCall) (key : ContractKey) (isNew : Bool) :
    Framed (Checked env call key isNew) where
  guard run guard h := ⟨(upholds_framed env call).guard run guard h.1, h.2⟩
  note _ entry _ h := ⟨h.1.note entry, h.2⟩

theorem applyUpdate_upholds {isNew : Bool} :
    Leads (Checked env call key isNew) (env.applyUpdate call key params isNew) (Upholds env call) := by
  refine (checked_framed env call key isNew).applyUpdate_triple ?_ (fun _ h => h.1) ?_ ?_
  · exact (upholds_modifyTracker _).triple_inv.of_pre (fun _ h => h.1)
  · exact fun state _ hnew => storeInitial_upholds.of_pre (fun _ h => ⟨h.1, h.2 hnew⟩)
  · exact merge_upholds.of_pre (fun _ h => h.1)

/-- The request has not yet looked whether the contract is new. -/
structure Unread (executor : ExecutorState) (env : Environment) (call : UpsertCall)
    (run : RequestRun) : Prop extends Upholds env call run where
  states : run.store.states = executor.store.states
  accesses : run.accesses .newCheck = 0

theorem unread_parameters : Preserves (Unread executor env call) (env.parameters call key) := by
  unfold parameters
  split
  · refine Keeps.andThen (keeps_modifyGet (P := fun _ => True) ?_) keeps_done
    intro run h
    dsimp only [ensureParams]
    split_ifs
    · exact ⟨⟨{ h with }, h.states, h.accesses⟩, trivial⟩
    · exact ⟨⟨{ h with }, h.states, h.accesses⟩, trivial⟩
  · refine Keeps.bind (keeps_modifyGet (P := fun _ => True) ?_) fun _ _ =>
      keeps_orStore.bind ?_
    · intro run h
      exact ⟨⟨{ h with }, h.states, h.accesses⟩, trivial⟩
    · intro params _
      split
      · exact keeps_done
      · exact keeps_throw

theorem isNewContract_checked (hread : (env.io .newCheck 0).readFails = true →
      ((executor.store.looked (env.io .newCheck 0) key).states.cached key).isSome = true) :
    Triple (Unread executor env call) (env.isNewContract key)
      (fun isNew => Checked env call key isNew) (fun _ => Upholds env call) := by
  have hget : Triple (Unread executor env call) (env.getState .newCheck key)
      (fun result => Checked env call key result.toOption.isNone) (fun _ => Upholds env call) := by
    refine triple_modifyGet ?_
    intro run h
    dsimp only
    rw [get_snd, h.accesses]
    refine ⟨h.looked _ key _, ?_⟩
    intro hnew
    have hlook : (run.store.looked (env.io .newCheck 0) key).states =
        (executor.store.looked (env.io .newCheck 0) key).states := by
      unfold looked
      rw [h.states]
    rw [← hlook] at hread
    rw [looked_table]
    exact table_of_get_none hread (Option.isNone_iff_eq_none.mp hnew)
  exact hget.bind fun result => triple_pure fun _ h => h

theorem checked_startIfNew {removeIfFail isNew : Bool} :
    Preserves (Checked env call key isNew) (env.startIfNew call key removeIfFail isNew) := by
  unfold startIfNew
  split_ifs
  · refine Keeps.bind (keeps_modifyGet (P := fun _ => True) ?_) ?_
    · intro run h
      exact ⟨⟨⟨h.1.coherent, h.1.cache, h.1.written⟩, h.2⟩, trivial⟩
    · intro started _
      split_ifs
      · exact keeps_modify fun run h => ⟨h.1.note _, h.2⟩
      · exact keeps_throw
  · exact keeps_done

theorem upsertNow_upholds (hread : (env.io .newCheck 0).readFails = true →
      ((executor.store.looked (env.io .newCheck 0) key).states.cached key).isSome = true) :
    Leads (Unread executor env call) (env.upsertNow call key) (Upholds env call) := by
  refine (unread_parameters.triple_weak fun _ h => h.toUpholds).bind ?_
  intro params
  refine (keeps_provideContract.triple_weak fun _ h => h.toUpholds).bind ?_
  intro removeIfFail
  refine (isNewContract_checked hread).bind ?_
  intro isNew
  refine (checked_startIfNew.triple_weak fun _ h => h.1).bind ?_
  intro _
  exact applyUpdate_upholds

theorem outcome_upholds (hcoher : executor.store.states.Coherent) (he : e.Dependable executor) :
    Upholds e.env e.call (e.outcome executor).2 := by
  have hbegin : Unread executor e.env e.call executor.begin :=
    ⟨⟨hcoher, he.writes, by simp [ExecutorState.begin]⟩, rfl, rfl⟩
  have htrack : ∀ {α : Type} (f : ContractInitTracker → α × ContractInitTracker),
      Preserves (Unread executor e.env e.call) (modifyTracker f) :=
    fun f => keeps_modifyGet fun _ h =>
      ⟨⟨{ h with }, h.states, h.accesses⟩, trivial⟩
  have hspec : Leads (Unread executor e.env e.call) (e.env.bridgedUpsertContractState e.call)
      (Upholds e.env e.call) := by
    unfold bridgedUpsertContractState
    split_ifs
    · exact triple_throw fun _ h => h.toUpholds
    · refine ((htrack _).triple_weak fun _ h => h.toUpholds).bind fun _ =>
        ((htrack _).triple_weak fun _ h => h.toUpholds).bind ?_
      intro check
      cases check with
      | notInitializing => exact upsertNow_upholds he.reads
      | putDuringInit | queueFull => exact triple_throw fun _ h => h.toUpholds
      | queued n => exact fun run h => h.note _
  exact UpsertEvent.outcome_of_spec hspec hbegin

/-- In every sequence of upserts in which the read that tells whether a contract is new does not
fail, and with a cache no write of a merged state fails, a stored state is only replaced by one made
of it, or, if it was invalid, by the incoming one. -/
theorem upheld_of_dependable {start h : UpsertHistory} (hstart : upserts.init start)
    {es : List UpsertEvent} (hes : upserts.Along (fun h e => e.Dependable h.executor) start es)
    (hrun : upserts.runFrom start es = some h) : h.Upheld := by
  have hinv : h.executor.store.states.Coherent ∧ h.Upheld := by
    refine upserts.invariant_of_along _ (fun h => h.executor.store.states.Coherent ∧ h.Upheld) ?_ ?_ hes hrun
    · rintro h e h' ⟨hcoher, hupheld⟩ hdepend hstep
      cases hstep
      have hcall := outcome_upholds hcoher hdepend
      refine ⟨hcall.coherent, ?_⟩
      intro r hr
      rcases List.mem_cons.mp hr with rfl | hr
      · exact hcall.written
      · exact hupheld r hr
    · obtain ⟨hrecords, _, hcach⟩ := hstart
      refine ⟨?_, ?_⟩
      · intro key state hstate
        rw [hcach] at hstate
        cases hstate
      · intro r hr
        rw [hrecords] at hr
        cases hr
  exact hinv.2

/-- A put, and an update that is merged into its state. -/
theorem put_is_replaced_by_merged : ∃ h, upserts.runFrom ⟨.fresh true, []⟩
        [⟨.putOne [1], .appending 0⟩, ⟨.updateOne [2], .knowing 1⟩] = some h ∧
      h.Upheld ∧ h.executor.store.states.table.get ⟨1, 1⟩ = some [1, 2] := by
  have hstart : upserts.init ⟨.fresh true, []⟩ := ⟨rfl, rfl, fun _ => rfl⟩
  have hes : upserts.Along (fun h e => e.Dependable h.executor) ⟨.fresh true, []⟩
      [⟨.putOne [1], .appending 0⟩, ⟨.updateOne [2], .knowing 1⟩] := by
    refine upserts.along_cons_of_step rfl ?_ (upserts.along_cons_of_step rfl ?_ trivial)
    · exact ⟨by simp [appending, Io.reliable], .inr fun _ => rfl⟩
    · exact ⟨by simp [knowing, appending, Io.reliable], .inr fun _ => rfl⟩
  exact ⟨_, rfl, upheld_of_dependable hstart hes rfl, by decide +kernel⟩

/-- A contract is put again while its state can neither be found in the cache nor read: the new
state replaces the old one without a merge. And a merged state that reaches the cache only takes
part in the next merge, whose result replaces a state it was not made of. -/
theorem stored_state_is_overwritten : upserts.init ⟨.fresh true, []⟩ ∧
    (∃ h, upserts.runFrom ⟨.fresh true, []⟩
        [⟨.putOne [1], .appending 0⟩, ⟨.putOne [2], .unreadable 1⟩] = some h ∧
      (h.records.map fun r => (r.after.written, r.log)) =
        [([⟨⟨1, 1⟩, some [1], [2]⟩], [.validated ⟨1, 1⟩ [2] true]), ([⟨⟨1, 1⟩, none, [1]⟩],
            [.validated ⟨1, 1⟩ [1] true, .startedInitialization ⟨1, 1⟩])] ∧ ¬ h.Upheld) ∧
    ∃ h, upserts.runFrom ⟨.fresh true, []⟩
        [⟨.putOne [1], .appending 0⟩, ⟨.updateOne [2], .unwritable 1⟩,
          ⟨.updateOne [3], .knowing 2⟩] = some h ∧ ¬ h.Upheld := by
  have hstart : upserts.init ⟨.fresh true, []⟩ := ⟨rfl, rfl, fun _ => rfl⟩
  exact ⟨hstart, ⟨_, rfl, by decide +kernel, by decide +kernel⟩, ⟨_, rfl, by decide +kernel⟩⟩

end Freenet.Contract
