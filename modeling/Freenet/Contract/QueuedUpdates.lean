import Freenet.Contract.UpsertFrames

/-! What an upsert merges, and that updates queued behind an initialization wait in order of
arrival. -/
namespace Freenet.Contract
open Lib.Task Environment StateStore ContractInitTracker UpsertEvent

def MergedInto (before after : StateStore) (call : UpsertCall) (log : List Entry) : Prop :=
  ∃ state, after.states.visible call.storedKey = some state ∧
    (call.update = .inl state ∨ ∃ current, before.Holds call.storedKey current ∧
      Produced call.storedKey current call.updates state log)

def UpsertRecord.Merged (r : UpsertRecord) : Prop := MergedInto r.before r.after r.call r.log

variable {env : Environment} {call : UpsertCall} {key : ContractKey} {params : Parameters}
  {before : StateStore}

/-- All that the store holds for the contract it held before, and nothing waits for it. -/
structure Recalls (before : StateStore) (key : ContractKey) (run : RequestRun) : Prop where
  holds : ∀ state, run.store.Holds key state → before.Holds key state
  waiting : run.initTracker.waiting key = []

theorem recalls_framed (before : StateStore) (key : ContractKey) : Framed (Recalls before key) where
  guard _ _ h := ⟨h.holds, h.waiting⟩
  note _ _ _ h := ⟨h.holds, h.waiting⟩

theorem recalls_onStore {α : Type} {site : Site} {f : Io → StateStore → α × StateStore}
    (hf : ∀ io store state, (f io store).2.Holds key state → store.Holds key state) :
    Preserves (Recalls before key) (env.onStore site f) :=
  keeps_modifyGet fun _ h =>
    ⟨⟨fun state hholds => h.holds state (hf _ _ state hholds), h.waiting⟩, trivial⟩

theorem recalls_parameters : Preserves (Recalls before key) (env.parameters call key) := by
  unfold parameters
  split
  · refine (recalls_onStore ?_).andThen keeps_done
    intro io store state hholds
    unfold ensureParams at hholds
    split_ifs at hholds
    · exact hholds
    · exact hholds
  · refine (recalls_onStore fun _ _ _ h => h).bind fun _ _ => keeps_orStore.bind ?_
    intro params _
    split
    · exact keeps_done
    · exact keeps_throw

theorem recalls_getState {site : Site} : Preserves (Recalls before key) (env.getState site key) := by
  refine recalls_onStore ?_
  intro io store state hholds
  rw [get_snd] at hholds
  exact holds_of_looked hholds

theorem recalls_isNewContract : Preserves (Recalls before key) (env.isNewContract key) :=
  recalls_getState.bind fun _ _ => keeps_done

theorem recalls_startIfNew {removeIfFail isNew : Bool} :
    Leads (Recalls before key) (env.startIfNew call key removeIfFail isNew) (Recalls before key) := by
  unfold startIfNew
  split_ifs
  · refine startInitialization_triple ?_ fun run e h _ => h
    intro run tracker h htrack
    have hwait := waiting_startInitialization h.waiting htrack key
    exact ⟨h.holds, hwait.trans h.waiting⟩
  · exact triple_skip

variable {state : WrappedState} {store : StateStore}

theorem visible_of_store {io : Io} (h : (store.store io key state params).1 = .ok ()) :
    (store.store io key state params).2.states.visible key = some state := by
  rcases store_cases with ⟨e, heq⟩ | ⟨_, heq⟩ | ⟨_, _, params', heq⟩
  · rw [heq] at h
    cases h
  · rw [heq] at h
    cases h
  · rw [heq]
    exact visible_persisted

theorem visible_of_update {io : Io} (h : (store.update io key state).1 = .ok ()) :
    (store.update io key state).2.states.visible key = some state := by
  rcases update_cases with ⟨e, heq⟩ | ⟨e, heq⟩ | ⟨_, heq⟩ | ⟨_, heq⟩
  · rw [heq] at h
    cases h
  · rw [heq] at h
    cases h
  · rw [heq] at h
    cases h
  · rw [heq]
    exact visible_persisted

def StoredAlone (key : ContractKey) (state : WrappedState) (run : RequestRun) : Prop :=
  run.store.states.visible key = some state ∧ run.initTracker.waiting key = []

theorem storeInitial_merged (hupdate : call.update = .inl state) :
    Yields (Recalls before call.storedKey) (env.storeInitial call.storedKey params state)
      (fun _ run => MergedInto before run.store call run.log) := by
  have hstor : Yields (Recalls before call.storedKey)
      (env.onStore .initial fun io store => store.store io call.storedKey state params)
      (fun result run => result = .ok () → StoredAlone call.storedKey state run) :=
    triple_modifyGet fun run h hresult => ⟨visible_of_store hresult, h.waiting⟩
  have hchecked : ∀ result : Except StateStoreError Unit, Yields
      (fun run => result = .ok () → StoredAlone call.storedKey state run) (orStore result)
      (fun _ => StoredAlone call.storedKey state) :=
    fun result => orStore_triple (fun _ hok run h => h hok) fun _ _ _ _ => trivial
  have hcompl : Yields (StoredAlone call.storedKey state)
      (modifyTracker (·.completeInitialization call.storedKey))
      (fun queuedOps run => run.store.states.visible call.storedKey = some state ∧
        queuedOps.getD [] = []) := by
    refine triple_modifyGet ?_
    rintro run ⟨hvisible, hwait⟩
    exact ⟨hvisible, completeInitialization_eq hwait⟩
  refine hstor.bind fun result => (hchecked result).andThen (hcompl.bind ?_)
  intro queuedOps
  refine triple_of_fact ?_
  intro hempty
  rw [hempty]
  exact triple_pure fun run hvisible => ⟨state, hvisible, .inl hupdate⟩

def Found (before : StateStore) (key : ContractKey) (current : WrappedState) (run : RequestRun) : Prop :=
  run.store.states.visible key = some current ∧ before.Holds key current

theorem currentState_found : Yields (Recalls before key) (env.currentState key)
      (fun current => Found before key current) := by
  have hget : Yields (Recalls before key) (env.getState .current key)
      (fun result run => ∀ current, result = .ok current → Found before key current run) := by
    refine triple_modifyGet ?_
    intro run h current hresult
    have hvisible := visible_of_get hresult
    refine ⟨?_, h.holds current (holds_of_looked (holds_of_visible hvisible))⟩
    dsimp only
    rw [get_snd]
    exact hvisible
  refine hget.bind ?_
  intro result
  split
  · exact triple_pure fun run h => h _ rfl
  · exact triple_throw fun _ _ => trivial
  · exact triple_throw fun _ _ => trivial

def FromUpdate (call : UpsertCall) (current state : WrappedState) (log : List Entry) : Prop :=
  call.update = .inl state ∨ Produced call.storedKey current call.updates state log

theorem found_framed (before : StateStore) (current : WrappedState) :
    Framed (Found before key current) where
  guard _ _ h := h
  note _ _ _ h := h

theorem fromUpdate_framed (before : StateStore) (call : UpsertCall) (current state : WrappedState) :
    Framed fun run => Found before call.storedKey current run ∧ FromUpdate call current state run.log where
  guard _ _ h := h
  note run entry _ h := by
    refine ⟨h.1, ?_⟩
    rcases h.2 with hupdate | hprod
    · exact .inl hupdate
    · exact .inr hprod.cons

theorem commitMerged_merged {current : WrappedState} : Yields
      (fun run => Found before call.storedKey current run ∧ FromUpdate call current state run.log)
      (env.commitMerged call.storedKey current state)
      (fun _ run => MergedInto before run.store call run.log) := by
  have hmerg : ∀ run : RequestRun, run.store.states.visible call.storedKey = some state →
      before.Holds call.storedKey current → FromUpdate call current state run.log →
      MergedInto before run.store call run.log := by
    intro run hvisible hholds hfrom
    refine ⟨state, hvisible, ?_⟩
    rcases hfrom with hupdate | hprod
    · exact .inl hupdate
    · exact .inr ⟨current, hholds, hprod⟩
  unfold commitMerged
  split_ifs with hsame
  · refine triple_pure ?_
    rintro run ⟨⟨hvisible, hholds⟩, hfrom⟩
    rw [← hsame] at hvisible
    exact hmerg run hvisible hholds hfrom
  · have hcomm : Yields
        (fun run => Found before call.storedKey current run ∧ FromUpdate call current state run.log)
        (env.commitStateUpdate call.storedKey state)
        (fun _ run => MergedInto before run.store call run.log) := by
      unfold commitStateUpdate
      split_ifs
      · exact triple_throw fun _ _ => trivial
      · have hupd : Yields (fun run => Found before call.storedKey current run ∧
              FromUpdate call current state run.log)
            (env.onStore .commit fun io => update io call.storedKey state)
            (fun result run => result = .ok () → MergedInto before run.store call run.log) := by
          refine triple_modifyGet ?_
          rintro run ⟨⟨_, hholds⟩, hfrom⟩ hresult
          exact hmerg _ (visible_of_update hresult) hholds hfrom
        exact hupd.bind fun result =>
          orStore_triple (fun _ hok _ h => h hok) fun _ _ _ _ => trivial
    exact hcomm.andThen triple_skip

theorem merge_merged : Yields (Recalls before call.storedKey) (env.merge call call.storedKey params)
    (fun _ run => MergedInto before run.store call run.log) := by
  refine currentState_found.bind ?_
  intro current
  have hmerg : Yields (Found before call.storedKey current)
      (env.mergeOrRecover call call.storedKey params current)
      (fun merged run => Found before call.storedKey current run ∧
        FromUpdate call current merged.1 run.log) := by
    refine (found_framed before current).mergeOrRecover_merged.ends ?_ (fun _ _ _ => trivial)
    rintro merged run ⟨hfound, hprod | ⟨hupdate, _⟩⟩
    · exact ⟨hfound, .inr hprod⟩
    · exact ⟨hfound, .inl hupdate⟩
  refine hmerg.bind ?_
  intro merged
  have hF := fromUpdate_framed before call current merged.1
  exact hF.keeps_clearRecovery.triple_done.andThen
    (hF.keeps_validateMerged.triple_done.andThen commitMerged_merged)

theorem applyUpdate_merged {isNew : Bool} : Yields (Recalls before call.storedKey)
      (env.applyUpdate call call.storedKey params isNew)
      (fun _ run => MergedInto before run.store call run.log) :=
  (recalls_framed before call.storedKey).applyUpdate_triple (triple_modifyGet fun _ _ => trivial)
    (fun _ _ => trivial) (fun _ hupdate _ => storeInitial_merged hupdate) merge_merged

theorem upsertNow_merged : Yields (Recalls before call.storedKey) (env.upsertNow call call.storedKey)
      (fun _ run => MergedInto before run.store call run.log) :=
  recalls_parameters.triple_done.bind fun _ => keeps_provideContract.triple_done.bind fun _ =>
    recalls_isNewContract.triple_done.bind fun _ =>
      recalls_startIfNew.keeps.triple_done.andThen applyUpdate_merged

variable {executor : ExecutorState} {e : UpsertEvent}

theorem merged_or_queued (hsucc : (e.record executor).Succeeded) :
    (e.record executor).Merged ∨ .queued e.call.storedKey ∈ (e.record executor).log := by
  have hspec : Yields (fun run => run = executor.begin) (e.env.bridgedUpsertContractState e.call)
      (fun _ run => MergedInto executor.store run.store e.call run.log ∨
        .queued e.call.storedKey ∈ run.log) := by
    unfold bridgedUpsertContractState
    split_ifs
    · exact triple_throw fun _ _ => trivial
    · have hclean : Yields (fun run => run = executor.begin) e.env.cleanupStale
          (fun _ run => run.store = executor.begin.store) := by
        refine triple_modifyGet ?_
        rintro run rfl
        rfl
      have hchecked : Yields (fun run => run.store = executor.begin.store)
          (e.env.checkAndMaybeQueue e.call e.call.storedKey)
          (fun check run => check = .notInitializing → Recalls executor.store e.call.storedKey run) := by
        refine triple_modifyGet ?_
        intro run hstore hcheck
        refine ⟨?_, waiting_of_notInitializing hcheck⟩
        intro state hholds
        rw [hstore] at hholds
        exact hholds
      refine hclean.bind fun _ => hchecked.bind ?_
      intro check
      cases check with
      | notInitializing =>
        exact upsertNow_merged.weaken (fun _ h => h rfl) (fun _ _ h => .inl h) (fun _ _ h => h)
      | putDuringInit | queueFull => exact triple_throw fun _ _ => trivial
      | queued n => exact fun run _ => .inr List.mem_cons_self
  obtain ⟨result, hresult⟩ := hsucc
  unfold record at hresult
  unfold record
  rcases outcome_of_triple hspec with ⟨_, run, heq, hmerg⟩ | ⟨failure, run, heq, _⟩
  · rw [heq]
    exact hmerg
  · rw [heq] at hresult
    cases hresult

open List

def Entry.replayedFor (key : ContractKey) : Entry → Option (WrappedState ⊕ StateDelta)
  | .replayed key' update => if key' = key then some update else none
  | _ => none

def UpsertRecord.queued (key : ContractKey) (r : UpsertRecord) : List (WrappedState ⊕ StateDelta) :=
  if .queued key ∈ r.log then [r.call.update] else []

/-- The queued updates that were replayed for the contract in the course of the call. -/
def UpsertRecord.replayed (key : ContractKey) (r : UpsertRecord) : List (WrappedState ⊕ StateDelta) :=
  r.log.reverse.filterMap (Entry.replayedFor key)

namespace UpsertHistory
variable (key) (h : UpsertHistory)

/-- The updates that were queued for the contract, in order of arrival. -/
def queued : List (WrappedState ⊕ StateDelta) := h.records.reverse.flatMap (UpsertRecord.queued key)

/-- The updates that were replayed for the contract, in this order. -/
def replayed : List (WrappedState ⊕ StateDelta) :=
  h.records.reverse.flatMap (UpsertRecord.replayed key)

/-- The updates that still wait for the contract to be initialized. -/
def waiting : List (WrappedState ⊕ StateDelta) :=
  (h.executor.initTracker.waiting key).map (·.update)

structure Accounted : Prop where
  /-- It was merged into the stored state, or it was queued. -/
  merged : ∀ r ∈ h.records, r.Succeeded → r.Merged ∨ .queued r.call.storedKey ∈ r.log
  /-- What was queued has been replayed once or still waits, in order of arrival. -/
  queues : ∀ key, h.replayed key ++ h.waiting key = h.queued key

end UpsertHistory

/-- The call finds a stale initialization that updates wait for. -/
def UpsertEvent.DropsQueued (executor : ExecutorState) (e : UpsertEvent) : Prop :=
  e.call.key.id = e.call.storedKey.id ∧ ∃ entry ∈ executor.initTracker.states.entries,
    staleInitThreshold < e.env.now - entry.2.startedAtNanos ∧ entry.2.queuedOps ≠ []

def Entry.Queueing : Entry → Prop
  | .queued _ => True
  | .replayed _ _ => True
  | _ => False

structure Idle (tracker : ContractInitTracker) (run : RequestRun) : Prop where
  waiting : ∀ key, run.initTracker.waiting key = tracker.waiting key
  quiet : ∀ entry ∈ run.log, ¬ entry.Queueing

section Idle
variable {tracker : ContractInitTracker} {run : RequestRun}

theorem Idle.note {entry : Entry} (h : Idle tracker run)
    (hentry : ¬ entry.Queueing) : Idle tracker { run with log := entry :: run.log } where
  waiting := h.waiting
  quiet entry' hmem := by
    rcases mem_cons.mp hmem with rfl | hmem
    · exact hentry
    · exact h.quiet entry' hmem

theorem idle_framed (tracker : ContractInitTracker) : StoreFramed (Idle tracker) where
  store _ _ _ h := ⟨h.waiting, h.quiet⟩
  guard _ _ h := ⟨h.waiting, h.quiet⟩
  note run entry hentry h := by
    refine h.note ?_
    cases entry with
    | validated _ _ _ | attempted _ _ _ _ | startedInitialization _ => exact id
    | queued _ | replayed _ _ => exact absurd hentry id

theorem idle_startIfNew {removeIfFail isNew : Bool} (hkey : tracker.waiting key = []) :
    Leads (Idle tracker) (env.startIfNew call key removeIfFail isNew) (Idle tracker) := by
  unfold startIfNew
  split_ifs
  · refine startInitialization_triple ?_ fun run e h _ => h
    intro run tracker' h htrack
    have hidle : Idle tracker { run with initTracker := tracker' } := by
      refine ⟨?_, h.quiet⟩
      intro key'
      have hwait := (h.waiting key).trans hkey
      rw [← h.waiting key']
      exact waiting_startInitialization hwait htrack key'
    exact hidle.note id
  · exact triple_skip

theorem Idle.erase (h : Idle tracker run) (hkey : tracker.waiting key = []) :
    Idle tracker { run with initTracker := ⟨run.initTracker.states.erase key⟩ } where
  waiting key' := by
    rw [← h.waiting key']
    exact waiting_erase ((h.waiting key).trans hkey)
  quiet := h.quiet

section
variable (hkey : tracker.waiting key = [])
include hkey

theorem idle_failInitialization : Preserves (Idle tracker) (failInitialization key) :=
  keeps_modifyGet fun _ h => ⟨h.erase hkey, trivial⟩

theorem idle_storeInitial : Preserves (Idle tracker) (env.storeInitial key params state) := by
  have hcompl : Keeps (Idle tracker) (modifyTracker (·.completeInitialization key))
      fun queuedOps => queuedOps.getD [] = [] :=
    keeps_modifyGet fun run h => ⟨h.erase hkey, completeInitialization_eq ((h.waiting key).trans hkey)⟩
  refine (idle_framed tracker).keeps_onStore.bind fun _ _ => keeps_orStore.andThen (hcompl.bind ?_)
  intro queuedOps hempty
  rw [hempty]
  exact keeps_done

theorem idle_applyUpdate {isNew : Bool} : Preserves (Idle tracker) (env.applyUpdate call key params isNew) :=
  ((idle_framed tracker).toFramed.applyUpdate_triple (idle_failInitialization hkey).triple_inv
    (fun _ h => h) (fun _ _ _ => (idle_storeInitial hkey).triple_inv)
    (idle_framed tracker).keeps_merge.triple_inv).keeps

theorem idle_upsertNow : Preserves (Idle tracker) (env.upsertNow call key) :=
  (idle_framed tracker).keeps_parameters.bind fun _ _ => keeps_provideContract.bind fun _ _ =>
    (idle_framed tracker).keeps_isNewContract.bind fun _ _ =>
      (idle_startIfNew hkey).keeps.andThen (idle_applyUpdate hkey)

end
end Idle

variable {h : UpsertHistory}

/-- The call's update joins the queue of its contract, and nothing else happens. -/
structure Joins (tracker : ContractInitTracker) (e : UpsertEvent) (run : RequestRun) : Prop where
  log : run.log = [.queued e.call.storedKey]
  waiting : ∀ key, run.initTracker.waiting key = tracker.waiting key ++
    if key = e.call.storedKey then [⟨e.call.update, e.call.relatedContracts, e.env.now⟩] else []

theorem checkAndMaybeQueue_idle {tracker : ContractInitTracker}
    {Err : RequestFailure → RequestRun → Prop} :
    Triple (fun run => Idle tracker run ∧ run.log = [])
      (e.env.checkAndMaybeQueue e.call e.call.storedKey)
      (fun check run => match check with
        | .notInitializing => Idle tracker run ∧ tracker.waiting e.call.storedKey = []
        | .queued _ => Joins tracker e { run with log := .queued e.call.storedKey :: run.log }
        | _ => Idle tracker run) Err := by
  refine triple_modifyGet ?_
  rintro run ⟨hidle, hlog⟩
  dsimp only
  rcases checkAndMaybeQueue_cases e.call.storedKey e.env.now run.initTracker
    e.call.code.isSome e.call.update e.call.relatedContracts with
    ⟨heq, hlook⟩ | heq | heq | ⟨n, tracker', heq, hwait⟩
  · rw [heq]
    refine ⟨hidle, ?_⟩
    rw [← hidle.waiting]
    unfold waiting
    rw [hlook]
  · rw [heq]
    exact hidle
  · rw [heq]
    exact hidle
  · rw [heq]
    refine ⟨by rw [hlog], ?_⟩
    intro key
    rw [← hidle.waiting]
    exact hwait key

theorem idle_or_joins (hdrops : ¬ e.DropsQueued executor) :
    Idle executor.initTracker (e.outcome executor).2 ∨
      Joins executor.initTracker e (e.outcome executor).2 := by
  have hbegin : Idle executor.initTracker executor.begin := ⟨fun _ => rfl, by simp [ExecutorState.begin]⟩
  have hspec : Triple (fun run => run = executor.begin) (e.env.bridgedUpsertContractState e.call)
      (fun _ run => Idle executor.initTracker run ∨ Joins executor.initTracker e run)
      (fun _ run => Idle executor.initTracker run ∨ Joins executor.initTracker e run) := by
    unfold bridgedUpsertContractState
    split_ifs with hid
    · refine triple_throw ?_
      rintro run rfl
      exact .inl hbegin
    · have hclean : Triple (fun run => run = executor.begin) e.env.cleanupStale
          (fun _ run => Idle executor.initTracker run ∧ run.log = [])
          (fun _ run => Idle executor.initTracker run ∨ Joins executor.initTracker e run) := by
        refine triple_modifyGet ?_
        rintro run rfl
        refine ⟨⟨?_, hbegin.quiet⟩, rfl⟩
        intro key
        refine waiting_cleanup ?_
        intro entry hentry hstale
        by_contra hqueued
        exact hdrops ⟨not_not.mp hid, entry, hentry, hstale, hqueued⟩
      refine hclean.bind fun _ => checkAndMaybeQueue_idle.bind ?_
      intro check
      cases check with
      | notInitializing =>
        rintro run ⟨hidle, hkey⟩
        exact ((idle_upsertNow hkey).triple_inv.ends (fun _ _ h => .inl h) (fun _ _ h => .inl h)) run hidle
      | putDuringInit | queueFull => exact triple_throw fun _ h => .inl h
      | queued n => exact fun run h => .inr h
  exact outcome_of_spec hspec rfl

theorem accounts_of_not_drops (hdrops : ¬ e.DropsQueued executor) (key : ContractKey) :
    (e.record executor).replayed key ++
        ((e.outcome executor).2.initTracker.waiting key).map (·.update) =
      (executor.initTracker.waiting key).map (·.update) ++ (e.record executor).queued key := by
  unfold UpsertRecord.replayed UpsertRecord.queued
  rcases idle_or_joins hdrops with hidle | hjoins
  · have hrepl : (e.record executor).log.reverse.filterMap (Entry.replayedFor key) = [] := by
      rw [filterMap_eq_nil_iff]
      intro entry hmem
      have hquiet := hidle.quiet entry (mem_reverse.mp hmem)
      cases entry with
      | replayed key' update => exact absurd trivial hquiet
      | _ => rfl
    have hqueued : .queued key ∉ (e.record executor).log :=
      fun hmem => hidle.quiet (.queued key) hmem trivial
    rw [hrepl, hidle.waiting, if_neg hqueued, nil_append, append_nil]
  · have hlog : (e.record executor).log = [.queued e.call.storedKey] := hjoins.log
    have hcall : (e.record executor).call = e.call := rfl
    simp only [hlog, hcall, hjoins.waiting]
    by_cases hkey : key = e.call.storedKey
    · simp [hkey, Entry.replayedFor]
    · simp [hkey, Entry.replayedFor]

/-- In every sequence of upserts that never finds a stale initialization with waiting updates, a
call answered with success is merged or queued, and what is queued is replayed once or still waits,
in order of arrival. -/
theorem accounted_of_not_drops {start : UpsertHistory} (hstart : upserts.init start)
    {es : List UpsertEvent} (hdrops : upserts.Along (fun h e => ¬ e.DropsQueued h.executor) start es)
    (hrun : upserts.runFrom start es = some h) : h.Accounted := by
  refine upserts.invariant_of_along _ UpsertHistory.Accounted ?_ ?_ hdrops hrun
  · intro h e h' haccount hnot hstep
    cases hstep
    refine ⟨?_, ?_⟩
    · intro r hr
      rcases mem_cons.mp hr with rfl | hr
      · exact merged_or_queued
      · exact haccount.merged r hr
    · intro key
      have hbefore := haccount.queues key
      have hcall := accounts_of_not_drops hnot key
      unfold UpsertHistory.replayed UpsertHistory.waiting UpsertHistory.queued at hbefore ⊢
      simp only [reverse_cons, flatMap_append, flatMap_cons, flatMap_nil, append_nil]
      rw [append_assoc, hcall, ← append_assoc, hbefore]
  · obtain ⟨hrecords, htrack, _⟩ := hstart
    refine ⟨by simp [hrecords], ?_⟩
    intro key
    unfold UpsertHistory.replayed UpsertHistory.waiting UpsertHistory.queued
    rw [hrecords, htrack]
    rfl

/-- An update waits behind an initialization that broke off. -/
theorem update_waits_behind_broken_put : ∃ h, upserts.runFrom ⟨.fresh true, []⟩
        [⟨.putOne [1], .breakingOff 0⟩, ⟨.updateOne [2], .appending 1⟩] = some h ∧
      h.Accounted ∧ h.waiting ⟨1, 1⟩ = [.inr [2]] := by
  have hstart : upserts.init ⟨.fresh true, []⟩ := ⟨rfl, rfl, fun _ => rfl⟩
  have hdrops : upserts.Along (fun h e => ¬ e.DropsQueued h.executor) ⟨.fresh true, []⟩
      [⟨.putOne [1], .breakingOff 0⟩, ⟨.updateOne [2], .appending 1⟩] := by
    refine upserts.along_cons_of_step rfl ?_ (upserts.along_cons_of_step rfl ?_ trivial)
    · unfold DropsQueued
      decide +kernel
    · unfold DropsQueued
      decide +kernel
  exact ⟨_, rfl, accounted_of_not_drops hstart hdrops rfl, by decide +kernel⟩

/-- The validation of a put breaks off, and an update is queued behind it with success. Half a
minute later the contract is put again: the update is neither replayed nor still waiting. -/
theorem queued_update_is_dropped : upserts.init ⟨.fresh true, []⟩ ∧
    ∃ h, upserts.runFrom ⟨.fresh true, []⟩
        [⟨.putOne [1], .breakingOff 0⟩, ⟨.updateOne [2], .appending 1⟩,
          ⟨.putOne [3], .appending (31 * 10 ^ 9)⟩] = some h ∧
      (h.records.map fun r => r.result.toOption.isSome) = [true, true, false] ∧
      h.queued ⟨1, 1⟩ = [.inr [2]] ∧ h.replayed ⟨1, 1⟩ = [] ∧ h.waiting ⟨1, 1⟩ = [] ∧
      ¬ h.Accounted := by
  have hstart : upserts.init ⟨.fresh true, []⟩ := ⟨rfl, rfl, fun _ => rfl⟩
  refine ⟨hstart, _, rfl, by decide +kernel, by decide +kernel, by decide +kernel, by decide +kernel, ?_⟩
  intro haccount
  have hqueues := haccount.queues ⟨1, 1⟩
  revert hqueues
  decide +kernel

end Freenet.Contract
