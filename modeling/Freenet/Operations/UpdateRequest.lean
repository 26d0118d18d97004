import Freenet.Contract.ContractHandling
import Freenet.Node.OpManager

/-! A client's update request on its way to the contract handler, and which ones a node survives. -/
namespace Freenet.Operations
open Lib Node Contract ContractHandler

structure PeerKeyLocation where
  pubKey : Nat
  socketAddr : Option SocketAddr
  deriving DecidableEq

structure UpdateOp where
  target : Option PeerKeyLocation

structure UpdateExecution where
  value : WrappedState
  summary : List UInt8
  changed : Bool

structure RequestRouter where
  resourceToTransaction : Table (ContractKey × UpdateData) Transaction
  transactionToResource : Table Transaction (ContractKey × UpdateData)

structure ClientNode (S : Type) where
  handler : HandlerState S
  opManager : OpManager UpdateOp
  router : Option RequestRouter

/-- What an update request finds: the ring as this node sees it, and whether its channels take
messages. -/
structure UpdateEnvironment (S : Type) where
  handler : ContractHandler S
  opEnv : OpEnvironment
  isGateway : Bool
  peerReady : Bool
  ownAddr : Option SocketAddr
  neighborsWithContract : ContractKey → List Nat
  getPeerByPubKey : Nat → Option PeerKeyLocation
  closestPotentiallyHosting : ContractKey → SocketAddr → Option PeerKeyLocation
  isHostingContract : ContractKey → Bool
  registersWaiter : Bool
  notificationsOpen : Bool
  resultRouterOpen : Bool

inductive Answer where
  | refused
  | failed (error : OpError)
  | waiting (tx : Transaction)
  | accepted

namespace RequestRouter
variable (r : RequestRouter) (resource : ContractKey × UpdateData)

def inProgress : Option Transaction :=
  (r.resourceToTransaction.get resource).filter fun tx => (r.transactionToResource.get tx).isSome

/-- The transaction that works on a resource, and whether it has to be started. -/
def routeRequest (id : Ulid) : RequestRouter × Transaction × Bool :=
  match r.inProgress resource with
  | some tx => (r, tx, false)
  | none =>
    let tx := Transaction.new .update id
    (⟨r.resourceToTransaction.insert resource tx, r.transactionToResource.insert tx resource⟩, tx, true)

def completeOperation (tx : Transaction) : RequestRouter :=
  match r.transactionToResource.get tx with
  | none => r
  | some resource =>
    ⟨r.resourceToTransaction.remove resource, r.transactionToResource.remove tx⟩

end RequestRouter

def extractState : UpdateData → Option WrappedState
  | .state s => some s
  | .stateAndDelta s _ => some s
  | .relatedState _ s => some s
  | .relatedStateAndDelta _ s _ => some s
  | .delta _ => none
  | .relatedDelta _ _ => none

namespace UpdateEnvironment
variable {S : Type} (env : UpdateEnvironment S)

/-- The first connected neighbor that hosts the contract, this node itself left out. -/
def proximityTarget (sender : SocketAddr) : List Nat → Option PeerKeyLocation
  | [] => none
  | pubKey :: rest =>
    match env.getPeerByPubKey pubKey with
    | none => proximityTarget sender rest
    | some peer =>
      if peer.socketAddr = some sender then proximityTarget sender rest else some peer

def updateTarget (key : ContractKey) (sender : SocketAddr) : Option PeerKeyLocation :=
  match env.proximityTarget sender (env.neighborsWithContract key) with
  | some peer => some peer
  | none => env.closestPotentiallyHosting key sender

def stateOfResponse : Except ContractError ContractHandlerEvent → Option WrappedState
  | .ok (.getResponse _ (.ok response)) => response.state
  | _ => none

/-- The state to report when the handler says that nothing changed. -/
def resolveNoChange (st : HandlerState S) (key : ContractKey) (data : UpdateData)
    (previous : Option WrappedState) :
    Outcome (HandlerState S × Except OpError UpdateExecution) :=
  match previous with
  | some state => .ok (st, .ok ⟨state, state, false⟩)
  | none => do
    let (st, fetched) ← env.handler.sendToHandler st (.getQuery key.id false)
    match (stateOfResponse fetched).or (extractState data) with
    | some state => .ok (st, .ok ⟨state, state, false⟩)
    | none => .ok (st, .error .unexpectedOpState)

def afterUpdate (st : HandlerState S) (key : ContractKey) (data : UpdateData)
    (previous : Option WrappedState) : Except ContractError ContractHandlerEvent →
    Outcome (HandlerState S × Except OpError UpdateExecution)
  | .ok (.updateResponse (.ok newVal) stateChanged) =>
    if env.opEnv.build.debugAssertions ∧ newVal = [] then .panicked .assertion
    else .ok (st, .ok ⟨newVal, newVal, stateChanged⟩)
  | .ok (.updateResponse (.error _) _) => .ok (st, .error .executorError)
  | .ok (.updateNoChange _) => env.resolveNoChange st key data previous
  | .error _ => .ok (st, .error .contractError)
  | .ok _ => .ok (st, .error .unexpectedOpState)

def updateContract (st : HandlerState S) (key : ContractKey) (data : UpdateData) :
    Outcome (HandlerState S × Except OpError UpdateExecution) := do
  let (st, got) ← env.handler.sendToHandler st (.getQuery key.id false)
  let (st, updated) ← env.handler.sendToHandler st (.updateQuery key data)
  env.afterUpdate st key data (stateOfResponse got) updated

def deliverUpdateResult (node : ClientNode S) (tx : Transaction) : ClientNode S × Except OpError Unit :=
  if env.resultRouterOpen then
    ({ node with
        opManager := node.opManager.completed tx
        router := node.router.map (·.completeOperation tx) }, .ok ())
  else (node, .error .notificationError)

/-- Leave an update with the event loop, which sends it to the target. -/
def forwardUpdate (node : ClientNode S) (tx : Transaction) (target : PeerKeyLocation) :
    Outcome (ClientNode S × Except OpError Unit) := do
  let (m, pushed) ← node.opManager.push env.opEnv tx ⟨.update, tx, ⟨some target⟩⟩
  let node := { node with opManager := m }
  match pushed with
  | .error e => .ok (node, .error e)
  | .ok () =>
    .ok (node, if env.notificationsOpen ∧ env.resultRouterOpen then .ok () else .error .notificationError)

def requestUpdate (node : ClientNode S) (tx : Transaction) (key : ContractKey)
    (data : UpdateData) : Outcome (ClientNode S × Except OpError Unit) :=
  match env.ownAddr with
  | none => .ok (node, .error .ringError)
  | some sender =>
    match env.updateTarget key sender with
    | none =>
      if env.isHostingContract key = false then .ok (node, .error .ringError)
      else do
        let (st, execution) ← env.updateContract node.handler key data
        let node := { node with handler := st }
        match execution with
        | .error e => .ok (node, .error e)
        | .ok _ => .ok (env.deliverUpdateResult node tx)
    | some target =>
      match target.socketAddr with
      | none => .panicked .expectFailed
      | some _ => do
        let (st, execution) ← env.updateContract node.handler key data
        let node := { node with handler := st }
        match execution with
        | .error e => .ok (node, .error e)
        | .ok _ => env.forwardUpdate node tx target

def startUpdate (node : ClientNode S) (tx : Transaction) (key : ContractKey) (data : UpdateData) :
    Outcome (ClientNode S × Answer) := do
  let routed := node.router.isSome
  let (node, requested) ← env.requestUpdate node tx key data
  match requested with
  | .ok () => .ok (node, .accepted)
  | .error .statePushed => .ok (node, if routed then .accepted else .failed .statePushed)
  | .error e => .ok (node, .failed e)

/-- Without a router every request is an update of its own. -/
def directUpdate (node : ClientNode S) (key : ContractKey) (data : UpdateData) (id : Ulid) :
    Outcome (ClientNode S × Answer) :=
  if env.registersWaiter = false then .ok (node, .refused)
  else env.startUpdate node (.new .update id) key data

def routedUpdate (node : ClientNode S) (router : RequestRouter) (key : ContractKey)
    (data : UpdateData) (id : Ulid) : Outcome (ClientNode S × Answer) :=
  let routed := router.routeRequest (key, data) id
  let node := { node with router := some routed.1 }
  if env.registersWaiter = false then .ok (node, .refused)
  else if routed.2.2 then env.startUpdate node routed.2.1 key data
  else .ok (node, .waiting routed.2.1)

def processUpdateRequest (node : ClientNode S) (key : ContractKey) (data : UpdateData) (id : Ulid) :
    Outcome (ClientNode S × Answer) :=
  if env.isGateway = false ∧ env.peerReady = false then .ok (node, .refused)
  else if env.ownAddr = none then .ok (node, .refused)
  else
    match node.router with
    | none => env.directUpdate node key data id
    | some router => env.routedUpdate node router key data id

open Outcome Transaction

def Yields (store : S) (key : ContractKey) (value : WrappedState ⊕ StateDelta)
    (state : WrappedState) : Prop :=
  let upserted := env.handler.executor.upsertContractState store key value none
  (∃ e, upserted.2 = .ok e ∧ (e = .updated state ∨ e = .currentWon state)) ∨
    (upserted.2 = .ok .noChange ∧
      ∃ contract, env.handler.executor.fetchContract upserted.1 key false = .ok ⟨some state, contract⟩)

def TakesUpdate (st : HandlerState S) (key : ContractKey) (data : UpdateData) : Prop :=
  (env.handler.Takes st (.getQuery key.id false) →
      ∃ response, env.handler.getContract st.store key.id false = .ok response) ∧
    env.handler.Takes st (.updateQuery key data)

/-- The handler can work on the update: it is a full state or a delta, and with debug assertions
the state that comes back is not empty. -/
def Workable (st : HandlerState S) (key : ContractKey) (data : UpdateData) : Prop :=
  data.Plain ∧ (env.opEnv.build.debugAssertions = true →
    env.handler.answersInTime st.store (.updateQuery key data) = true →
    ∀ value state, data.updateValue = .ok value → env.Yields st.store key value state → state ≠ [])

variable {env} {st : HandlerState S} {key : ContractKey} {data : UpdateData}

theorem updateContract_eq_updateResponse_iff (value : WrappedState ⊕ StateDelta)
    (state : WrappedState) : (∃ changed, (env.handler.updateContract st.store key value).2 =
        .ok (.updateResponse (.ok state) changed)) ↔ env.Yields st.store key value state := by
  unfold ContractHandler.updateContract Yields
  dsimp only
  cases (env.handler.executor.upsertContractState st.store key value none).2 with
  | error e =>
    dsimp only
    split_ifs <;> simp
  | ok result =>
    cases result with
    | updated newState | currentWon current => simp [eq_comm]
    | noChange =>
      dsimp only
      split <;> rename_i hfetch <;> simp [hfetch]

variable {tx : Transaction} {sender : SocketAddr} (previous : Option WrappedState)

theorem resolveNoChange_returns : (env.resolveNoChange st key data previous).Returns := by
  cases previous with
  | some state => exact returns_ok _
  | none =>
    refine Ensures.returns (P := fun _ => True) ?_
    refine (sendToHandler_getQuery env.handler st key.id false).bind ?_
    rintro ⟨st, fetched⟩ -
    dsimp only
    split <;> exact ensures_ok trivial

theorem afterUpdate_returns_iff (updated : Except ContractError ContractHandlerEvent) :
    (env.afterUpdate st key data previous updated).Returns ↔ (env.opEnv.build.debugAssertions = true →
        ∀ changed, updated ≠ .ok (.updateResponse (.ok []) changed)) := by
  unfold afterUpdate
  split
  · rename_i newVal stateChanged
    split_ifs with hempty
    · simp [hempty.1, hempty.2]
    · have hstate : env.opEnv.build.debugAssertions = true → newVal ≠ [] := by
        intro hdebug hnil
        exact hempty ⟨hdebug, hnil⟩
      simpa using hstate
  · simp
  · simpa using resolveNoChange_returns previous
  · simp
  · rename_i response hupd _ _
    simp only [returns_ok, true_iff]
    intro _ changed h
    cases h
    exact hupd _ _ rfl

theorem sendToHandler_updateQuery_empty_iff (st : HandlerState S)
    (htakes : env.handler.Takes st (.updateQuery key data)) {value : WrappedState ⊕ StateDelta}
    (hvalue : data.updateValue = .ok value) :
    ∃ r, env.handler.sendToHandler st (.updateQuery key data) = .ok r ∧
      ((∃ changed, r.2 = .ok (.updateResponse (.ok []) changed)) ↔
        env.handler.answersInTime st.store (.updateQuery key data) = true ∧
          env.Yields st.store key value []) := by
  rw [sendToHandler_of_takes htakes, handleContractEvent, hvalue]
  refine ⟨_, rfl, ?_⟩
  rw [← updateContract_eq_updateResponse_iff]
  rcases env.handler.updateContract st.store key value with ⟨store, e | response⟩
  · simp [afterEvent]
  · cases env.handler.answersInTime st.store (.updateQuery key data) <;>
      simp [afterEvent]

theorem takesUpdate_iff (env : UpdateEnvironment S) (st : HandlerState S) (key : ContractKey)
    (data : UpdateData) :
    ∃ r, env.handler.sendToHandler st (.getQuery key.id false) = .ok r ∧ r.1.store = st.store ∧
      (env.handler.Takes r.1 (.updateQuery key data) ↔ env.TakesUpdate st key data) := by
  obtain ⟨⟨st₁, got⟩, hget, hstore, hrun⟩ :=
    sendToHandler_getQuery env.handler st key.id false
  refine ⟨(st₁, got), hget, hstore, ?_⟩
  unfold TakesUpdate
  rw [Takes, hstore, Takes, Takes]
  tauto

/-- Merging an update returns exactly when the handler does not take it or can work on it. -/
theorem updateContract_returns_iff : (env.updateContract st key data).Returns ↔
      (env.TakesUpdate st key data → env.Workable st key data) := by
  obtain ⟨⟨st₁, got⟩, hget, hstore, htakes⟩ := takesUpdate_iff env st key data
  unfold updateContract
  rw [hget, ok_bind]
  dsimp only
  by_cases h : env.TakesUpdate st key data
  · have h₁ := htakes.mpr h
    cases hvalue : data.updateValue with
    | panicked reason =>
      have hnot : ¬ data.Plain := by
        rw [← UpdateData.updateValue_returns_iff, hvalue]
        exact not_returns_panicked reason
      constructor
      · intro hretn
        obtain ⟨r, hr, -⟩ := (returns_bind_iff _ _).mp hretn
        have hplain := (sendToHandler_updateQuery_returns_iff key data).mp ⟨r, hr⟩
        exact absurd (hplain h₁) hnot
      · intro hwork
        exact absurd (hwork h).1 hnot
    | ok value =>
      obtain ⟨⟨st₂, updated⟩, hsend, hempty⟩ := sendToHandler_updateQuery_empty_iff st₁ h₁ hvalue
      rw [hsend, ok_bind, afterUpdate_returns_iff]
      rw [hstore] at hempty
      have hplain : data.Plain := by
        rw [← UpdateData.updateValue_returns_iff, hvalue]
        exact returns_ok value
      constructor
      · intro hnonempty _
        refine ⟨hplain, ?_⟩
        rintro hdebug hinTime value' state hvalue' hyields rfl
        rw [hvalue] at hvalue'
        cases hvalue'
        obtain ⟨changed, hchang⟩ := hempty.mpr ⟨hinTime, hyields⟩
        exact hnonempty hdebug changed hchang
      · intro hwork hdebug changed hchang
        obtain ⟨hinTime, hyields⟩ := hempty.mp ⟨changed, hchang⟩
        exact (hwork h).2 hdebug hinTime value [] hvalue hyields rfl
  · have h₁ : ¬ env.handler.Takes st₁ (.updateQuery key data) := fun h₁ => h (htakes.mp h₁)
    rw [sendToHandler_of_not_takes h₁, ok_bind, afterUpdate_returns_iff]
    simp only [h, false_implies, iff_true]
    intro _ changed
    split_ifs <;> simp [queueFullResponse]

def Starts (env : UpdateEnvironment S) (node : ClientNode S) (key : ContractKey)
    (data : UpdateData) : Prop :=
  (env.isGateway = true ∨ env.peerReady = true) ∧ env.registersWaiter = true ∧
    ∀ router, node.router = some router → router.inProgress (key, data) = none

/-- An update that starts on this node: the peer it is for, if any, has an address; and with a peer
for it, or the contract hosted here, the handler can work on the update if it takes it. -/
def Survivable (env : UpdateEnvironment S) (node : ClientNode S) (key : ContractKey)
    (data : UpdateData) (sender : SocketAddr) : Prop :=
  (∀ target, env.updateTarget key sender = some target → target.socketAddr ≠ none) ∧
    (env.updateTarget key sender ≠ none ∨ env.isHostingContract key = true →
      env.TakesUpdate node.handler key data → env.Workable node.handler key data)

theorem forwardUpdate_returns (htx : tx.WellTyped) (node : ClientNode S) (target : PeerKeyLocation) :
    (env.forwardUpdate node tx target).Returns := by
  refine Ensures.returns (P := fun _ => True) ?_
  refine (OpManager.push_returns htx _).bind ?_
  rintro ⟨m, pushed⟩
  cases pushed with
  | error e | ok _ => exact ensures_ok trivial

theorem requestUpdate_returns_iff (htx : tx.WellTyped) (haddr : env.ownAddr = some sender)
    (node : ClientNode S) :
    (env.requestUpdate node tx key data).Returns ↔ env.Survivable node key data sender := by
  unfold requestUpdate Survivable
  rw [haddr]
  dsimp only
  rw [← updateContract_returns_iff]
  cases htarg : env.updateTarget key sender with
  | none =>
    split_ifs with hhost
    · simp [hhost]
    · have hhost : env.isHostingContract key = true := by simpa using hhost
      rw [returns_bind_iff_left]
      · simp [hhost]
      · rintro ⟨st, execution⟩
        cases execution with
        | error e | ok execution => exact returns_ok _
  | some target =>
    dsimp only
    cases hsock : target.socketAddr with
    | none => simp [hsock]
    | some addr =>
      rw [returns_bind_iff_left]
      · simp [hsock]
      · rintro ⟨st, execution⟩
        cases execution with
        | error e => exact returns_ok _
        | ok execution => exact forwardUpdate_returns htx _ target

theorem startUpdate_returns_iff (htx : tx.WellTyped) (haddr : env.ownAddr = some sender)
    (node : ClientNode S) (key : ContractKey) (data : UpdateData) :
    (env.startUpdate node tx key data).Returns ↔ env.Survivable node key data sender := by
  unfold startUpdate
  rw [returns_bind_iff_left, requestUpdate_returns_iff htx haddr]
  rintro ⟨node, requested⟩
  dsimp only
  split <;> exact returns_ok _

theorem updateContract_of_not_plain (hplain : ¬ data.Plain)
    {r : HandlerState S × Except OpError UpdateExecution} (h : env.updateContract st key data = .ok r) :
    r.2 = .error .executorError ∨ r.2 = .error .contractError := by
  have htakes : ¬ env.TakesUpdate st key data := by
    intro htakes
    exact hplain (updateContract_returns_iff.mp ⟨r, h⟩ htakes).1
  obtain ⟨⟨st₁, got⟩, hget, -, htakes₁⟩ := takesUpdate_iff env st key data
  rw [← htakes₁] at htakes
  unfold updateContract at h
  rw [hget, ok_bind] at h
  dsimp only at h
  rw [sendToHandler_of_not_takes htakes] at h
  split_ifs at h
  · cases h
    exact .inl rfl
  · cases h
    exact .inr rfl

theorem requestUpdate_of_not_plain (hplain : ¬ data.Plain) {node : ClientNode S}
    {r : ClientNode S × Except OpError Unit} (h : env.requestUpdate node tx key data = .ok r) :
    ∃ e, r.2 = .error e ∧ e ≠ .statePushed := by
  have hmerge : ∀ {f}, (env.updateContract node.handler key data >>= f) = .ok r →
      (∀ st e, f (st, .error e) = .ok ({ node with handler := st }, .error e)) →
      ∃ e, r.2 = .error e ∧ e ≠ .statePushed := by
    intro f hbind hf
    obtain ⟨⟨st, execution⟩, hupdate, hrest⟩ := (bind_eq_ok_iff _ _ _).mp hbind
    rcases updateContract_of_not_plain hplain hupdate with he | he <;> dsimp only at he <;>
      rw [he, hf] at hrest <;> cases hrest
    · exact ⟨_, rfl, by decide⟩
    · exact ⟨_, rfl, by decide⟩
  unfold requestUpdate at h
  split at h
  · cases h
    exact ⟨_, rfl, by decide⟩
  · split at h
    · split_ifs at h
      · cases h
        exact ⟨_, rfl, by decide⟩
      · exact hmerge h fun st e => rfl
    · split at h
      · cases h
      · exact hmerge h fun st e => rfl

variable {node node' : ClientNode S}

theorem startUpdate_of_not_plain (hplain : ¬ data.Plain) :
    env.startUpdate node tx key data ≠ .ok (node', .accepted) := by
  intro h
  obtain ⟨⟨node₁, requested⟩, hreq, hrest⟩ := (bind_eq_ok_iff _ _ _).mp h
  obtain ⟨e, he, hpush⟩ := requestUpdate_of_not_plain hplain hreq
  subst he
  cases e with
  | statePushed => exact hpush rfl
  | _ => cases hrest

theorem processUpdateRequest_of_not_plain (hplain : ¬ data.Plain) {id : Ulid} :
    env.processUpdateRequest node key data id ≠ .ok (node', .accepted) := by
  intro h
  unfold processUpdateRequest at h
  split_ifs at h
  · cases h
  · cases h
  split at h
  · unfold directUpdate at h
    split_ifs at h
    · cases h
    · exact startUpdate_of_not_plain hplain h
  · unfold routedUpdate at h
    dsimp only at h
    split_ifs at h
    · cases h
    · exact startUpdate_of_not_plain hplain h
    · cases h

theorem routedUpdate_returns_iff (haddr : env.ownAddr = some sender) (node : ClientNode S)
    (router : RequestRouter) (id : Ulid) : (env.routedUpdate node router key data id).Returns ↔
      (env.registersWaiter = true → router.inProgress (key, data) = none →
        env.Survivable node key data sender) := by
  unfold routedUpdate RequestRouter.routeRequest
  cases hprog : router.inProgress (key, data) with
  | some tx =>
    dsimp only
    split <;> simp
  | none =>
    have htx := update_wellTyped .update id none
    dsimp only
    split
    · rename_i hwait
      simp [hwait]
    · rename_i hwait
      have hwait : env.registersWaiter = true := by simpa using hwait
      rw [if_pos rfl, new, startUpdate_returns_iff htx haddr]
      simp [hwait, Survivable]

theorem processUpdateRequest_returns_iff (node : ClientNode S) (id : Ulid) :
    (env.processUpdateRequest node key data id).Returns ↔
      (env.Starts node key data → ∀ sender, env.ownAddr = some sender →
        env.Survivable node key data sender) := by
  unfold processUpdateRequest Starts
  by_cases hready : env.isGateway = false ∧ env.peerReady = false
  · simp [hready.1, hready.2]
  have hjoin : env.isGateway = true ∨ env.peerReady = true := by
    by_contra hnot
    rw [not_or] at hnot
    exact hready ⟨by simpa using hnot.1, by simpa using hnot.2⟩
  rw [if_neg hready]
  cases haddr : env.ownAddr with
  | none => simp
  | some sender =>
    rw [if_neg (Option.some_ne_none sender)]
    cases hrout : node.router with
    | none =>
      have htx := update_wellTyped .update id none
      unfold directUpdate
      split_ifs with hwait
      · simp [hwait]
      · have hwait : env.registersWaiter = true := by simpa using hwait
        rw [new, startUpdate_returns_iff htx haddr]
        simp [hwait, hjoin]
    | some router =>
      rw [routedUpdate_returns_iff haddr]
      simp [hjoin]

/-- A client's update request is handled without a panic exactly when it starts no update, or one
that this node survives; an update that is neither a full state nor a delta is never accepted. -/
theorem update_request_survives_iff (env : UpdateEnvironment S) (node : ClientNode S)
    (key : ContractKey) (data : UpdateData) (id : Ulid) :
    ((env.processUpdateRequest node key data id).Returns ↔
      (env.Starts node key data → ∀ sender, env.ownAddr = some sender →
        env.Survivable node key data sender)) ∧
    (¬ data.Plain → ∀ node', env.processUpdateRequest node key data id ≠ .ok (node', .accepted)) :=
  ⟨processUpdateRequest_returns_iff node id, fun hplain _ => processUpdateRequest_of_not_plain hplain⟩

def isolatedGateway : UpdateEnvironment WrappedState where
  handler :=
    { executor :=
        { codeHashFromId := fun _ _ => some 0
          fetchContract := fun store _ _ => .ok ⟨some store, none⟩
          upsertContractState := fun _ _ value _ => match value with
            | .inl state => (state, .ok (.updated state))
            | .inr delta => (delta, .ok (.updated delta)) }
      admits := fun _ _ => true
      answersInTime := fun _ _ => true }
  opEnv := ⟨⟨false, false⟩, fun _ => false, true⟩
  isGateway := true
  peerReady := true
  ownAddr := some 0
  neighborsWithContract := fun _ => []
  getPeerByPubKey := fun _ => none
  closestPotentiallyHosting := fun _ _ => none
  isHostingContract := fun _ => true
  registersWaiter := true
  notificationsOpen := true
  resultRouterOpen := true

/-- A state together with a delta ends the contract handler of a release build. -/
theorem state_and_delta_update_panics :
    isolatedGateway.processUpdateRequest ⟨⟨[0], true⟩, .new, none⟩ ⟨1, 0⟩
      (.stateAndDelta [1] [2]) 0 = .panicked .unreachableCode := by
  rfl

end UpdateEnvironment
end Freenet.Operations
