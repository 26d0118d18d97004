import Freenet.Contract.ContractHandling
import Freenet.Lib.Machine
import Freenet.Lib.Table

/-! The state store, and as a map: what is read was stored last, as long as no write fails
half-way. -/
namespace Freenet.Contract
open Lib CachedTable

abbrev Parameters := List UInt8

/-- The largest state that is stored, in bytes. -/
def maxStateSize : Nat := 50 * 1024 * 1024

inductive StateStoreError where
  | any
  | missingContract (key : ContractKey)
  | stateTooLarge (key : ContractKey) (size : Nat)
  deriving DecidableEq

/-- A state that reached the backing store, with the one it replaced there. -/
structure Write where
  key : ContractKey
  replaced : Option WrappedState
  state : WrappedState
  deriving DecidableEq

structure Io where
  evicts : Bool
  readFails : Bool
  writeFails : Bool
  paramsFail : Bool

def Io.reliable : Io := ⟨false, false, false, false⟩

/-- The store with all its writes, the latest first. -/
structure StateStore where
  states : CachedTable ContractKey WrappedState
  params : Table ContractKey Parameters
  written : List Write

namespace StateStore
variable (io : Io) (key : ContractKey) (state : WrappedState) (params : Parameters) (s : StateStore)

def looked : StateStore := { s with states := s.states.evictIf io.evicts key }

def get : Except StateStoreError WrappedState × StateStore :=
  let s := s.looked io key
  match s.states.cached key with
  | some state => (.ok state, s)
  | none =>
    if io.readFails then (.error .any, s)
    else match s.states.table.get key with
      | some state => (.ok state, s)
      | none => (.error (.missingContract key), s)

def persist : Except StateStoreError Unit × StateStore :=
  let cached := { s with states := s.states.insertCache key state }
  if io.writeFails then (.error .any, cached)
  else (.ok (), { cached with
    states := cached.states.insertTable key state
    written := ⟨key, s.states.table.get key, state⟩ :: s.written })

def update : Except StateStoreError Unit × StateStore :=
  if maxStateSize < state.length then (.error (.stateTooLarge key state.length), s)
  else
    let s := s.looked io key
    if (s.states.cached key).isNone && io.readFails then (.error .any, s)
    else if (s.states.cached key).isNone && (s.states.table.get key).isNone then
      (.error (.missingContract key), s)
    else s.persist io key state

def store : Except StateStoreError Unit × StateStore :=
  if maxStateSize < state.length then (.error (.stateTooLarge key state.length), s)
  else
    match s.persist io key state with
    | (.error e, s) => (.error e, s)
    | (.ok _, s) =>
      if io.paramsFail then (.error .any, s)
      else (.ok (), { s with params := s.params.insert key params })

def getParams : Except StateStoreError (Option Parameters) :=
  if io.readFails then .error .any else .ok (s.params.get key)

def ensureParams : StateStore :=
  if io.paramsFail then s else { s with params := s.params.insert key params }

def Holds : Prop := s.states.cached key = some state ∨ s.states.table.get key = some state

/-- The store after a write that reached the cache only. -/
def cachedOnly : StateStore := { s with states := s.states.insertCache key state }

def persisted : StateStore :=
  { s with
    states := (s.states.insertCache key state).insertTable key state
    written := ⟨key, s.states.table.get key, state⟩ :: s.written }

variable {io key state params s} {key' : ContractKey}

@[simp]
theorem looked_table : (s.looked io key).states.table = s.states.table :=
  evictIf_table

theorem holds_of_looked (h : (s.looked io key).Holds key' state) : s.Holds key' state := by
  rcases h with hcach | htable
  · exact .inl (cached_of_evictIf hcach)
  · rw [looked_table] at htable
    exact .inr htable

theorem get_snd : (s.get io key).2 = s.looked io key := by
  unfold get
  dsimp only
  split
  · rfl
  · split_ifs
    · rfl
    · split <;> rfl

theorem get_congr {s' : StateStore} (h : s.states = s'.states) : (s.get io key).1 = (s'.get io key).1 := by
  unfold get looked
  dsimp only
  rw [h]
  split
  · rfl
  · split_ifs
    · rfl
    · split <;> rfl

theorem visible_of_get (h : (s.get io key).1 = .ok state) :
    (s.looked io key).states.visible key = some state := by
  unfold get at h
  dsimp only at h
  unfold visible
  split at h
  · rename_i cached hcach
    cases h
    rw [hcach]
    rfl
  · rename_i hcach
    rw [hcach]
    split_ifs at h
    split at h
    · rename_i stored hstor
      cases h
      exact hstor
    · cases h

theorem table_of_get_none (hread : io.readFails = true → ((s.looked io key).states.cached key).isSome = true)
    (h : (s.get io key).1.toOption = none) : s.states.table.get key = none := by
  unfold get at h
  dsimp only at h
  cases hcach : (s.looked io key).states.cached key with
  | some state =>
    rw [hcach] at h
    cases h
  | none =>
    rw [hcach] at h hread
    rw [if_neg fun hfails => Bool.noConfusion (hread hfails), looked_table] at h
    cases htable : s.states.table.get key with
    | none => rfl
    | some state =>
      rw [htable] at h
      cases h

theorem holds_of_visible (h : s.states.visible key = some state) : s.Holds key state := by
  unfold visible at h
  cases hcach : s.states.cached key with
  | none =>
    rw [hcach] at h
    exact .inr h
  | some cached =>
    rw [hcach] at h
    cases h
    exact .inl hcach

theorem persist_cases :
    io.writeFails = true ∧ s.persist io key state = (.error .any, s.cachedOnly key state) ∨
      io.writeFails = false ∧ s.persist io key state = (.ok (), s.persisted key state) := by
  unfold persist
  cases io.writeFails with
  | true => exact .inl ⟨rfl, rfl⟩
  | false => exact .inr ⟨rfl, rfl⟩

theorem update_cases : (∃ e, s.update io key state = (.error e, s)) ∨
      (∃ e, s.update io key state = (.error e, s.looked io key)) ∨
      (state.length ≤ maxStateSize ∧ io.writeFails = true) ∧
        s.update io key state = (.error .any, (s.looked io key).cachedOnly key state) ∨
      state.length ≤ maxStateSize ∧
        s.update io key state = (.ok (), (s.looked io key).persisted key state) := by
  unfold update
  split_ifs with hlarge
  · exact .inl ⟨_, rfl⟩
  · dsimp only
    split_ifs
    · exact .inr (.inl ⟨_, rfl⟩)
    · exact .inr (.inl ⟨_, rfl⟩)
    · rcases persist_cases with ⟨hfails, hpers⟩ | ⟨_, hpers⟩
      · exact .inr (.inr (.inl ⟨⟨Nat.not_lt.mp hlarge, hfails⟩, hpers⟩))
      · exact .inr (.inr (.inr ⟨Nat.not_lt.mp hlarge, hpers⟩))

theorem store_cases : (∃ e, s.store io key state params = (.error e, s)) ∨
      (state.length ≤ maxStateSize ∧ io.writeFails = true) ∧
        s.store io key state params = (.error .any, s.cachedOnly key state) ∨
      state.length ≤ maxStateSize ∧ io.writeFails = false ∧ ∃ params',
        s.store io key state params = (if io.paramsFail then .error .any else .ok (),
          { s.persisted key state with params := params' }) := by
  unfold store
  by_cases hlarge : maxStateSize < state.length
  · rw [if_pos hlarge]
    exact .inl ⟨_, rfl⟩
  · rw [if_neg hlarge]
    rcases persist_cases with ⟨hfails, hpers⟩ | ⟨hwrit, hpers⟩
    · rw [hpers]
      exact .inr (.inl ⟨⟨Nat.not_lt.mp hlarge, hfails⟩, rfl⟩)
    · rw [hpers]
      refine .inr (.inr ⟨Nat.not_lt.mp hlarge, hwrit, ?_⟩)
      split_ifs
      · exact ⟨_, rfl⟩
      · exact ⟨_, rfl⟩

@[simp]
theorem visible_persisted : (s.persisted key state).states.visible key = some state :=
  visible_insert

theorem store_eq_ok_iff (hsize : state.length ≤ maxStateSize) :
    (s.store io key state params).1 = .ok () ↔ io.writeFails = false ∧ io.paramsFail = false := by
  unfold store persist
  rw [if_neg (Nat.not_lt.mpr hsize)]
  cases io.writeFails <;> cases io.paramsFail <;> simp

end StateStore

/-- A store without states. -/
def StateStore.empty (cache : Bool) : StateStore :=
  ⟨⟨if cache then some .empty else none, .empty⟩, .empty, []⟩

open StateStore

inductive StoreCall where
  | store (io : Io) (key : ContractKey) (state : WrappedState) (params : Parameters)
  | update (io : Io) (key : ContractKey) (state : WrappedState)
  | get (io : Io) (key : ContractKey)
  | evict (key : ContractKey)

/-- The store, and the state that each contract was last stored or updated with successfully. -/
structure StoreHistory where
  store : StateStore
  last : Table ContractKey WrappedState

namespace StoreHistory
variable (h : StoreHistory)

def record (key : ContractKey) (state : WrappedState) :
    Except StateStoreError Unit × StateStore → StoreHistory
  | (.ok _, store) => ⟨store, h.last.insert key state⟩
  | (.error _, store) => ⟨store, h.last⟩

def step : StoreCall → StoreHistory
  | .store io key state params => h.record key state (h.store.store io key state params)
  | .update io key state => h.record key state (h.store.update io key state)
  | .get io key => { h with store := (h.store.get io key).2 }
  | .evict key => { h with store := { h.store with states := h.store.states.evictIf true key } }

def expected (key : ContractKey) : Except StateStoreError WrappedState :=
  match h.last.get key with
  | some state => .ok state
  | none => .error (.missingContract key)

/-- A read returns the last state, unless it reports that the backing store fails. -/
def ReadsLast : Prop :=
  ∀ io key, (h.store.get io key).1 = h.expected key ∨ io.readFails = true ∧
    (h.store.get io key).1 = .error .any

end StoreHistory

def stateStore : Machine StoreHistory StoreCall where
  init h := h.last = h.store.states.table ∧ ∀ key, h.store.states.cached key = none
  step h call := some (h.step call)

def StoreCall.WritesWhole (h : StoreHistory) : StoreCall → Prop
  | .store io _ _ _ => io.writeFails = true ∧ h.store.states.cache = none ∨
      io.writeFails = false ∧ io.paramsFail = false
  | .update io _ _ => io.writeFails = true → h.store.states.cache = none
  | _ => True

/-- The last states are those of the backing store, and the cache has no others. -/
structure StoreHistory.Represents (h : StoreHistory) : Prop where
  exact : h.store.states.Exact
  last : ∀ key, h.last.get key = h.store.states.table.get key

namespace StoreHistory
variable {h : StoreHistory} {io : Io} {key : ContractKey} {state : WrappedState} {params : Parameters}

theorem Represents.looked (hrep : h.Represents) :
    (⟨h.store.looked io key, h.last⟩ : StoreHistory).Represents where
  exact := hrep.exact.evictIf
  last key' := by
    rw [hrep.last key']
    simp

theorem Represents.persisted (hrep : h.Represents) (params : Table ContractKey Parameters) :
    (⟨{ h.store.persisted key state with params := params }, h.last.insert key state⟩ :
      StoreHistory).Represents where
  exact := hrep.exact.insert
  last key' := by
    dsimp only [StateStore.persisted]
    rw [Table.get_insert, insertTable_table, insertCache_table, Table.get_insert, hrep.last key']

theorem cachedOnly_of_none {store : StateStore} (hcache : store.states.cache = none) :
    store.cachedOnly key state = store := by
  unfold cachedOnly
  rw [insertCache_of_none hcache]

variable (hrep : h.Represents)
include hrep

theorem Represents.store (hwhole : (StoreCall.store io key state params).WritesWhole h) :
    (h.step (.store io key state params)).Represents := by
  unfold step
  dsimp only
  rcases store_cases with ⟨e, heq⟩ | ⟨⟨_, hfails⟩, heq⟩ | ⟨_, hwrit, params', heq⟩
  · rw [heq]
    exact hrep
  · rcases hwhole with ⟨_, hcache⟩ | ⟨hwrit, _⟩
    · rw [heq, cachedOnly_of_none hcache]
      exact hrep
    · cases hfails.symm.trans hwrit
  · rcases hwhole with ⟨hfails, _⟩ | ⟨_, hparams⟩
    · cases hfails.symm.trans hwrit
    · rw [heq, hparams]
      exact hrep.persisted params'

theorem Represents.update (hwhole : (StoreCall.update io key state).WritesWhole h) :
    (h.step (.update io key state)).Represents := by
  have hlooks : (⟨h.store.looked io key, h.last⟩ : StoreHistory).Represents := hrep.looked
  unfold step
  dsimp only
  rcases update_cases with ⟨e, heq⟩ | ⟨e, heq⟩ | ⟨⟨_, hfails⟩, heq⟩ | ⟨_, heq⟩
  · rw [heq]
    exact hrep
  · rw [heq]
    exact hlooks
  · have hcache : (h.store.looked io key).states.cache = none :=
      evictIf_cache_of_none (hwhole hfails)
    rw [heq, cachedOnly_of_none hcache]
    exact hlooks
  · rw [heq]
    exact hlooks.persisted h.store.params

theorem Represents.step {call : StoreCall} (hwhole : call.WritesWhole h) : (h.step call).Represents := by
  cases call with
  | store io key state params => exact hrep.store hwhole
  | update io key state => exact hrep.update hwhole
  | get io key =>
    unfold StoreHistory.step
    dsimp only
    rw [get_snd]
    exact hrep.looked
  | evict key =>
    refine ⟨hrep.exact.evictIf, ?_⟩
    intro key'
    have hlast := hrep.last key'
    simpa [StoreHistory.step] using hlast

theorem Represents.readsLast : h.ReadsLast := by
  intro io key
  have hlooks : (⟨h.store.looked io key, h.last⟩ : StoreHistory).Represents := hrep.looked
  have hlast := hlooks.last key
  unfold expected StateStore.get
  dsimp only at hlast ⊢
  rw [hlast]
  cases hcach : (h.store.looked io key).states.cached key with
  | some state =>
    left
    rw [hlooks.exact key state hcach]
  | none =>
    split_ifs with hfails
    · exact .inr ⟨hfails, rfl⟩
    · left
      cases (h.store.looked io key).states.table.get key with
      | none => rfl
      | some state => rfl

end StoreHistory

/-- In every sequence of calls in which no write fails half-way, a read returns the state of the
last store or update that succeeded, or reports that the backing store fails. -/
theorem reads_last_of_writesWhole {start h : StoreHistory} (hstart : stateStore.init start)
    {calls : List StoreCall} (hcalls : stateStore.Along (fun h call => call.WritesWhole h) start calls)
    (hrun : stateStore.runFrom start calls = some h) : h.ReadsLast := by
  have hrep : h.Represents := by
    refine stateStore.invariant_of_along _ StoreHistory.Represents ?_ ?_ hcalls hrun
    · intro h call h' hrep hwhole hstep
      cases hstep
      exact hrep.step hwhole
    · obtain ⟨hlast, hcach⟩ := hstart
      constructor
      · intro key state hstate
        rw [hcach] at hstate
        cases hstate
      · intro key
        rw [hlast]
  exact hrep.readsLast

/-- A state is stored, updated and lost from the cache, and then read. -/
theorem updated_state_is_read : ∃ h, stateStore.runFrom ⟨.empty true, .empty⟩
        [.store .reliable ⟨1, 1⟩ [1] [], .update .reliable ⟨1, 1⟩ [2], .evict ⟨1, 1⟩] = some h ∧
      h.ReadsLast ∧ (h.store.get .reliable ⟨1, 1⟩).1.toOption = some [2] := by
  have hstart : stateStore.init ⟨.empty true, .empty⟩ := ⟨rfl, fun _ => rfl⟩
  have hcalls : stateStore.Along (fun h call => call.WritesWhole h) ⟨.empty true, .empty⟩
      [.store .reliable ⟨1, 1⟩ [1] [], .update .reliable ⟨1, 1⟩ [2], .evict ⟨1, 1⟩] := by
    refine stateStore.along_cons_of_step rfl (.inr ⟨rfl, rfl⟩)
      (stateStore.along_cons_of_step rfl ?_ (stateStore.along_cons_of_step rfl trivial trivial))
    intro hfails
    cases hfails
  exact ⟨_, rfl, reads_last_of_writesWhole hstart hcalls rfl, by decide +kernel⟩

/-- The write of an update fails after the cache was written: the update is answered with an error,
and the next read returns its state. And a store fails because of the parameters when its state was
written. -/
theorem failed_update_is_read : stateStore.init ⟨.empty true, .empty⟩ ∧
    (∃ h, stateStore.runFrom ⟨.empty true, .empty⟩
        [.store .reliable ⟨1, 1⟩ [1] [], .update ⟨false, false, true, false⟩ ⟨1, 1⟩ [2]] = some h ∧
      h.last.get ⟨1, 1⟩ = some [1] ∧
      (h.store.get .reliable ⟨1, 1⟩).1.toOption = some [2] ∧ ¬ h.ReadsLast) ∧
    ∃ h, stateStore.runFrom ⟨.empty true, .empty⟩
        [.store ⟨false, false, false, true⟩ ⟨1, 1⟩ [1] []] = some h ∧ ¬ h.ReadsLast := by
  have hstart : stateStore.init ⟨.empty true, .empty⟩ := ⟨rfl, fun _ => rfl⟩
  refine ⟨hstart, ⟨_, rfl, by decide +kernel, by decide +kernel, ?_⟩, ⟨_, rfl, ?_⟩⟩
  all_goals
    intro hreads
    rcases hreads .reliable ⟨1, 1⟩ with hread | ⟨hfails, _⟩
    · have hread := congrArg Except.toOption hread
      revert hread
      decide +kernel
    · cases hfails

end Freenet.Contract
