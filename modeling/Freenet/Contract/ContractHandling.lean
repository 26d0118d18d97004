import Freenet.Lib.Outcome

/-! The contract handler, which runs events one at a time, and the notifications of an update. -/
namespace Freenet.Contract
open Lib Outcome

abbrev ContractInstanceId := Nat
abbrev WrappedState := List UInt8
abbrev StateDelta := List UInt8
abbrev ContractContainer := List UInt8

structure ContractKey where
  id : ContractInstanceId
  codeHash : Nat
  deriving DecidableEq

inductive UpdateData where
  | state (state : WrappedState)
  | delta (delta : StateDelta)
  | stateAndDelta (state : WrappedState) (delta : StateDelta)
  | relatedState (relatedTo : ContractInstanceId) (state : WrappedState)
  | relatedDelta (relatedTo : ContractInstanceId) (delta : StateDelta)
  | relatedStateAndDelta (relatedTo : ContractInstanceId) (state : WrappedState) (delta : StateDelta)
  deriving DecidableEq

structure ExecutorError where
  isFatal : Bool

inductive UpsertResult where
  | noChange
  | updated (state : WrappedState)
  | currentWon (state : WrappedState)

structure StoreResponse where
  state : Option WrappedState
  contract : Option ContractContainer

inductive ContractHandlerEvent where
  | getQuery (instanceId : ContractInstanceId) (returnContractCode : Bool)
  | getResponse (key : Option ContractKey) (response : Except ExecutorError StoreResponse)
  | putQuery (key : ContractKey) (state : WrappedState) (contract : Option ContractContainer)
  | putResponse (newValue : Except ExecutorError WrappedState) (stateChanged : Bool)
  | updateQuery (key : ContractKey) (data : UpdateData)
  | updateResponse (newValue : Except ExecutorError WrappedState) (stateChanged : Bool)
  | updateNoChange (key : ContractKey)

inductive ContractError where
  | channelDropped
  | noEvHandlerResponse
  deriving DecidableEq

/-- Contract code and storage, over a store of type `S`. -/
structure Executor (S : Type) where
  codeHashFromId : S → ContractInstanceId → Option Nat
  fetchContract : S → ContractKey → Bool → Except ExecutorError StoreResponse
  upsertContractState : S → ContractKey → WrappedState ⊕ StateDelta → Option ContractContainer →
    S × Except ExecutorError UpsertResult

def Executor.lookupKey {S : Type} (e : Executor S) (store : S) (instanceId : ContractInstanceId) :
    Option ContractKey :=
  (e.codeHashFromId store instanceId).map (ContractKey.mk instanceId)

/-- The executor with the queue in front of it; a response may also come too late for its caller. -/
structure ContractHandler (S : Type) where
  executor : Executor S
  admits : S → ContractHandlerEvent → Bool
  answersInTime : S → ContractHandlerEvent → Bool

/-- The store, and whether the loop over the events still runs. -/
structure HandlerState (S : Type) where
  store : S
  running : Bool

namespace UpdateData

def updateValue : UpdateData → Outcome (WrappedState ⊕ StateDelta)
  | state s => .ok (.inl s)
  | delta d => .ok (.inr d)
  | stateAndDelta _ _ => .panicked .unreachableCode
  | relatedState _ _ => .panicked .unreachableCode
  | relatedDelta _ _ => .panicked .unreachableCode
  | relatedStateAndDelta _ _ _ => .panicked .unreachableCode

/-- A full state or a delta, for the contract itself. -/
def Plain (data : UpdateData) : Prop := (∃ s, data = state s) ∨ ∃ d, data = delta d

theorem updateValue_returns_iff (data : UpdateData) : data.updateValue.Returns ↔ data.Plain := by
  cases data <;> simp [updateValue, Plain]

end UpdateData

namespace ContractHandler
variable {S : Type} (h : ContractHandler S)

/-- Answer a query for a contract; an error is one that ends the loop. -/
def getContract (store : S) (instanceId : ContractInstanceId) (returnContractCode : Bool) :
    Except ExecutorError ContractHandlerEvent :=
  match h.executor.lookupKey store instanceId with
  | none => .ok (.getResponse none (.ok ⟨none, none⟩))
  | some key =>
    match h.executor.fetchContract store key returnContractCode with
    | .ok response => .ok (.getResponse (some key) (.ok response))
    | .error e => if e.isFatal then .error e else .ok (.getResponse (some key) (.error e))

def putContract (store : S) (key : ContractKey) (state : WrappedState)
    (contract : Option ContractContainer) : S × Except ExecutorError ContractHandlerEvent :=
  let upserted := h.executor.upsertContractState store key (.inl state) contract
  (upserted.1, match upserted.2 with
    | .ok .noChange => .ok (.putResponse (.ok state) false)
    | .ok (.updated newState) => .ok (.putResponse (.ok newState) true)
    | .ok (.currentWon current) => .ok (.putResponse (.ok current) false)
    | .error e => if e.isFatal then .error e else .ok (.putResponse (.error e) false))

def updateContract (store : S) (key : ContractKey) (value : WrappedState ⊕ StateDelta) :
    S × Except ExecutorError ContractHandlerEvent :=
  let upserted := h.executor.upsertContractState store key value none
  (upserted.1, match upserted.2 with
    | .ok .noChange =>
      match h.executor.fetchContract upserted.1 key false with
      | .ok ⟨some current, _⟩ => .ok (.updateResponse (.ok current) false)
      | .ok ⟨none, _⟩ => .ok (.updateNoChange key)
      | .error _ => .ok (.updateNoChange key)
    | .ok (.updated newState) => .ok (.updateResponse (.ok newState) true)
    | .ok (.currentWon current) => .ok (.updateResponse (.ok current) false)
    | .error e => if e.isFatal then .error e else .ok (.updateResponse (.error e) false))

def handleContractEvent (store : S) :
    ContractHandlerEvent → Outcome (S × Except ExecutorError ContractHandlerEvent)
  | .getQuery instanceId returnContractCode =>
    .ok (store, h.getContract store instanceId returnContractCode)
  | .putQuery key state contract => .ok (h.putContract store key state contract)
  | .updateQuery key data => do
    let value ← data.updateValue
    .ok (h.updateContract store key value)
  | .getResponse _ _ => .panicked .unreachableCode
  | .putResponse _ _ => .panicked .unreachableCode
  | .updateResponse _ _ => .panicked .unreachableCode
  | .updateNoChange _ => .panicked .unreachableCode

def queueFullResponse : ContractHandlerEvent → Except ContractError ContractHandlerEvent
  | .getQuery _ _ => .ok (.getResponse none (.error ⟨false⟩))
  | .putQuery _ _ _ => .ok (.putResponse (.error ⟨false⟩) false)
  | .updateQuery _ _ => .ok (.updateResponse (.error ⟨false⟩) false)
  | _ => .error .noEvHandlerResponse

/-- The loop has the event in its hands: it runs and its queue has room. -/
def Takes (st : HandlerState S) (ev : ContractHandlerEvent) : Prop :=
  st.running = true ∧ h.admits st.store ev = true

/-- What a handled event leaves behind; a fatal error ends the loop. -/
def afterEvent (inTime : Bool) : S × Except ExecutorError ContractHandlerEvent →
    HandlerState S × Except ContractError ContractHandlerEvent
  | (store, .error _) => (⟨store, false⟩, .error .noEvHandlerResponse)
  | (store, .ok response) =>
    (⟨store, true⟩, if inTime then .ok response else .error .noEvHandlerResponse)

def sendToHandler (st : HandlerState S) (ev : ContractHandlerEvent) :
    Outcome (HandlerState S × Except ContractError ContractHandlerEvent) :=
  if st.running = false then .ok (st, .error .channelDropped)
  else if h.admits st.store ev = false then .ok (st, queueFullResponse ev)
  else do
    let handled ← h.handleContractEvent st.store ev
    .ok (afterEvent (h.answersInTime st.store ev) handled)

variable {h} {st : HandlerState S} {ev : ContractHandlerEvent} {returnContractCode : Bool}
  {key : ContractKey}

theorem sendToHandler_of_takes (htakes : h.Takes st ev) :
    h.sendToHandler st ev = h.handleContractEvent st.store ev >>= fun handled =>
      .ok (afterEvent (h.answersInTime st.store ev) handled) := by
  simp [sendToHandler, htakes.1, htakes.2]

/-- An event that is not taken leaves the handler as it is, and its caller learns nothing but
errors. -/
theorem sendToHandler_of_not_takes (htakes : ¬ h.Takes st ev) : h.sendToHandler st ev =
      .ok (st, if st.running then queueFullResponse ev else .error .channelDropped) := by
  unfold sendToHandler
  cases hrun : st.running with
  | false => rfl
  | true =>
    have hadmits : h.admits st.store ev = false := by
      simpa [Takes, hrun] using htakes
    simp [hadmits]

/-- A query for a contract changes nothing in the store; it ends the loop when the executor fails
fatally. -/
theorem sendToHandler_getQuery (h : ContractHandler S) (st : HandlerState S)
    (instanceId : ContractInstanceId) (returnContractCode : Bool) :
    (h.sendToHandler st (.getQuery instanceId returnContractCode)).Ensures fun r =>
      r.1.store = st.store ∧ (r.1.running = true ↔ st.running = true ∧
        (h.Takes st (.getQuery instanceId returnContractCode) →
          ∃ response, h.getContract st.store instanceId returnContractCode = .ok response)) := by
  by_cases htakes : h.Takes st (.getQuery instanceId returnContractCode)
  · rw [sendToHandler_of_takes htakes, handleContractEvent]
    cases hget : h.getContract st.store instanceId returnContractCode with
    | error e => exact ensures_ok (by simp [afterEvent, htakes])
    | ok response => exact ensures_ok (by simp [afterEvent, htakes.1])
  · rw [sendToHandler_of_not_takes htakes]
    exact ensures_ok (by simp [htakes])

variable {response : Except ExecutorError StoreResponse} {instanceId : ContractInstanceId}

theorem getContract_key {store : S}
    (hget : h.getContract store instanceId returnContractCode = .ok (.getResponse (some key) response)) :
    key.id = instanceId := by
  unfold getContract Executor.lookupKey at hget
  cases hhash : h.executor.codeHashFromId store instanceId with
  | none => simp [hhash] at hget
  | some hash =>
    simp only [hhash, Option.map_some] at hget
    split at hget
    · cases hget
      rfl
    · split at hget <;> cases hget
      rfl

theorem response_of_afterEvent {inTime : Bool}
    {handled : S × Except ExecutorError ContractHandlerEvent} {response : ContractHandlerEvent}
    (h : (afterEvent inTime handled).2 = .ok response) : handled.2 = .ok response := by
  obtain ⟨store, result⟩ := handled
  cases result with
  | error e => cases h
  | ok answer =>
    cases inTime with
    | false => cases h
    | true =>
      cases h
      rfl

theorem sendToHandler_getQuery_key {st' : HandlerState S}
    (hsent : h.sendToHandler st (.getQuery instanceId returnContractCode) =
      .ok (st', .ok (.getResponse (some key) response))) : key.id = instanceId := by
  by_cases htakes : h.Takes st (.getQuery instanceId returnContractCode)
  · rw [sendToHandler_of_takes htakes, handleContractEvent] at hsent
    have hafter := congrArg Prod.snd (ok.inj hsent)
    exact getContract_key (response_of_afterEvent hafter)
  · rw [sendToHandler_of_not_takes htakes] at hsent
    have hafter := congrArg Prod.snd (ok.inj hsent)
    split at hafter <;> cases hafter

theorem sendToHandler_updateQuery_returns_iff (key : ContractKey) (data : UpdateData) :
    (h.sendToHandler st (.updateQuery key data)).Returns ↔
      (h.Takes st (.updateQuery key data) → data.Plain) := by
  by_cases htakes : h.Takes st (.updateQuery key data)
  · rw [sendToHandler_of_takes htakes, handleContractEvent, returns_bind_ok_iff,
      returns_bind_ok_iff, UpdateData.updateValue_returns_iff]
    simp [htakes]
  · rw [sendToHandler_of_not_takes htakes]
    simp [htakes]

end ContractHandler

open List

def maxDeltaComputationsPerFanout : Nat := 32

inductive TrySend where
  | ok
  | full
  | closed
  deriving DecidableEq

/-- An update that was committed, and what the loop meets for a subscriber of type `P`: its stored
summary, the delta of the contract to a summary (`none` for a failure), and what its channel does
with a message. -/
structure CommittedUpdate (P Summary : Type) where
  newState : WrappedState
  peerSummary : P → Option Summary
  getStateDelta : Summary → Option StateDelta
  trySend : P → TrySend

/-- The notifications sent, the subscribers whose channel is closed, and whether the loop came to
its end. -/
structure FanOut (P : Type) where
  sent : List (P × UpdateData)
  failures : List P
  completed : Bool
  deriving DecidableEq

namespace CommittedUpdate
variable {P Summary : Type} (u : CommittedUpdate P Summary)

/-- The message for one subscriber, and the number of deltas computed so far. -/
def updateFor (deltaComputations : Nat) (peer : P) : Option (UpdateData × Nat) :=
  match u.peerSummary peer with
  | some summary =>
    if deltaComputations < maxDeltaComputationsPerFanout then
      (u.getStateDelta summary).map fun delta => (.delta delta, deltaComputations + 1)
    else some (.state u.newState, deltaComputations)
  | none => some (.state u.newState, deltaComputations)

/-- The loop over the subscribers; a delta that fails ends it. -/
def sendUpdateNotification (deltaComputations : Nat) : List P → FanOut P
  | [] => ⟨[], [], true⟩
  | peer :: rest =>
    match u.updateFor deltaComputations peer with
    | none => ⟨[], [], false⟩
    | some (update, deltaComputations) =>
      let out := sendUpdateNotification deltaComputations rest
      match u.trySend peer with
      | .ok => { out with sent := (peer, update) :: out.sent }
      | .full => out
      | .closed => { out with failures := peer :: out.failures }

def deltaFails (peer : P) : Bool := (u.peerSummary peer).any fun summary => (u.getStateDelta summary).isNone

/-- The subscriber's own delta does not fail, and its channel is open with room. -/
def deliverable (peer : P) : Bool := !u.deltaFails peer && decide (u.trySend peer = .ok)

/-- After a subscriber whose delta is computed and fails, none is deliverable. -/
def FailsLast (deltaComputations : Nat) : List P → Prop
  | [] => True
  | peer :: rest =>
    if (u.peerSummary peer).isSome ∧ deltaComputations < maxDeltaComputationsPerFanout then
      (u.deltaFails peer = true → rest.filter u.deliverable = []) ∧ FailsLast (deltaComputations + 1) rest
    else FailsLast deltaComputations rest

variable {u} {n n' : Nat} {peer : P} {rest : List P} {update : UpdateData}

theorem failsLast_of_filter_nil (h : rest.filter u.deliverable = []) : u.FailsLast n rest := by
  induction rest generalizing n with
  | nil => trivial
  | cons peer rest ih =>
    have hrest : rest.filter u.deliverable = [] :=
      filter_eq_nil_iff.mpr fun p hp => filter_eq_nil_iff.mp h p (mem_cons_of_mem _ hp)
    unfold FailsLast
    split_ifs
    · exact ⟨fun _ => hrest, ih hrest⟩
    · exact ih hrest

theorem failsLast_cons_of_none (rest : List P) (h : u.updateFor n peer = none) :
    u.deltaFails peer = true ∧ (u.FailsLast n (peer :: rest) ↔ rest.filter u.deliverable = []) := by
  unfold updateFor at h
  split at h
  next summary hsumm =>
    split_ifs at h with hn
    have hfails : u.deltaFails peer = true := by simpa [deltaFails, hsumm] using h
    simp only [FailsLast, hsumm, hn, hfails, true_imp_iff]
    exact ⟨trivial, And.left, fun hnil => ⟨hnil, failsLast_of_filter_nil hnil⟩⟩
  next => cases h

theorem failsLast_cons_of_some (h : u.updateFor n peer = some (update, n')) :
    u.FailsLast n (peer :: rest) ↔ u.FailsLast n' rest := by
  unfold updateFor at h
  split at h
  next summary hsumm =>
    split_ifs at h with hn
    · obtain ⟨delta, hdelta, hstep⟩ := Option.map_eq_some_iff.mp h
      cases hstep
      simp [FailsLast, deltaFails, hsumm, hn, hdelta]
    · cases h
      simp [FailsLast, hn]
  next hsumm =>
    cases h
    simp [FailsLast, hsumm]

/-- The deliverable subscribers all get their notification, exactly if no failing delta stands
before one. -/
theorem sends_deliverable_iff (subscribers : List P) :
    ((u.sendUpdateNotification n subscribers).sent.map Prod.fst).filter u.deliverable =
      subscribers.filter u.deliverable ↔ u.FailsLast n subscribers := by
  induction subscribers generalizing n with
  | nil => simp [FailsLast, sendUpdateNotification]
  | cons peer rest ih =>
    unfold sendUpdateNotification
    cases hupd : u.updateFor n peer with
    | none =>
      obtain ⟨hfails, hlast⟩ := failsLast_cons_of_none rest hupd
      rw [hlast, filter_cons_of_neg (by simp [deliverable, hfails])]
      exact eq_comm
    | some step =>
      rw [failsLast_cons_of_some hupd, ← ih, filter_cons]
      cases hsend : u.trySend peer with
      | ok =>
        rw [map_cons, filter_cons]
        split_ifs
        · exact cons_inj_right peer
        · rfl
      | full | closed =>
        rw [if_neg (by simp [deliverable, hsend])]

theorem failing_delta_stops_fan_out :
    let u : CommittedUpdate Nat Nat := ⟨[], some, (if · = 0 then none else some []), fun _ => .ok⟩
    [0, 1].filter u.deliverable = [1] ∧ u.sendUpdateNotification 0 [0, 1] = ⟨[], [], false⟩ := by
  decide +kernel

end CommittedUpdate
end Freenet.Contract
