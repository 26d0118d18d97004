import Freenet.Node.GarbageCollector
import Freenet.Operations.GetOperation

/-! How a node handles UPDATE messages: requests, and broadcasts that it merges once. -/
namespace Freenet.Operations.Update
open Lib Node Contract
open Operations.Get (Stop OrphanStreamError StreamId)

abbrev RelatedContracts := List (ContractInstanceId × Option WrappedState)

inductive DeltaOrFullState where
  | delta (bytes : List UInt8)
  | fullState (bytes : List UInt8)
  deriving DecidableEq

inductive UpdateMsg where
  | requestUpdate (id : Transaction) (key : ContractKey) (relatedContracts : RelatedContracts)
    (value : WrappedState)
  | broadcasting (id : Transaction) (broadcastedTo : Nat) (broadcastTo : List PeerKeyLocation)
    (key : ContractKey) (newValue : WrappedState)
  | broadcastTo (id : Transaction) (key : ContractKey) (payload : DeltaOrFullState)
    (senderSummaryBytes : List UInt8)
  | requestUpdateStreaming (id : Transaction) (streamId : StreamId) (key : ContractKey) (totalSize : Nat)
  | broadcastToStreaming (id : Transaction) (streamId : StreamId) (key : ContractKey) (totalSize : Nat)

structure PrepareRequestData where
  key : ContractKey
  relatedContracts : RelatedContracts
  updateData : UpdateData

inductive UpdateState where
  | receivedRequest
  | finished (key : ContractKey) (summary : List UInt8)
  | prepareRequest (data : PrepareRequestData)

structure UpdateStats where
  target : Option PeerKeyLocation

structure UpdateOp where
  id : Transaction
  state : Option UpdateState
  stats : Option UpdateStats
  upstreamAddr : Option SocketAddr

structure UpdateStreamingPayload where
  relatedContracts : RelatedContracts
  value : WrappedState

structure BroadcastStreamingPayload where
  stateBytes : List UInt8
  senderSummaryBytes : List UInt8

structure UpdateFailure where
  error : OpError
  isContractExecRejection : Bool

inductive OperationResult where
  | completed
  | continueOp (op : UpdateOp)
  | sendAndContinue (msg : UpdateMsg) (nextHop : Option SocketAddr) (op : UpdateOp)
    (stream : Option (StreamId × List UInt8))
  | sendAndComplete (msg : UpdateMsg) (nextHop : Option SocketAddr) (stream : Option (StreamId × List UInt8))

/-- What handling a message does besides changing the state of its operation. The three entries
about merges are the node's own account of its broadcasts. -/
inductive Effect where
  | send (target : SocketAddr) (msg : UpdateMsg) (stream : Option (StreamId × List UInt8))
  | sendAborted (target : SocketAddr) (id : Transaction)
  | notification (msg : UpdateMsg)
  | updatePeerSummary (key : ContractKey) (peer : Nat) (summary : Option (List UInt8))
  | resyncRequest (target : SocketAddr) (key : ContractKey)
  | targetedGet (instanceId : ContractInstanceId) (target : PeerKeyLocation)
  | proactiveSummary (key : ContractKey) (sender : SocketAddr) (summary : List UInt8)
  | duplicateSkipped (key : ContractKey) (payload : DeltaOrFullState)
  | mergeStarted (key : ContractKey) (payload : DeltaOrFullState) (startedAt : Nat)
  | mergeEnded (key : ContractKey) (payload : DeltaOrFullState) (startedAt : Nat) (applied : Bool)
  | clientResult (id : Transaction) (result : Except OpError (ContractKey × List UInt8))

structure DedupEntry (H : Type) where
  deltaHash : H
  insertedAt : Nat

/-- The part of a node that UPDATE operations touch, the newest effect first. -/
structure UpdateNode (H : Type) where
  ops : Transaction → TransactionEntry UpdateOp
  broadcastDedupCache : ContractKey → List (DedupEntry H)
  pendingContractFetches : Table ContractInstanceId Nat
  effects : List Effect

/-- What the node is like while one activity runs: the ring and the contract handler as they answer,
the clocks, and whether channels and connections take messages. -/
structure Environment where
  build : Build
  ownAddr : Option SocketAddr
  elapsed : Transaction → Nat
  interestNow : Nat
  readTimeMs : Nat
  newTransactionsOpen : Bool
  notificationsOpen : Bool
  storedState : ContractKey → Option WrappedState
  updateContract : ContractKey → UpdateData → RelatedContracts → Except UpdateFailure UpdateExecution
  getPeerByAddr : SocketAddr → Option PeerKeyLocation
  closestPotentiallyHosting : ContractKey → List SocketAddr → Option PeerKeyLocation
  streamingThreshold : Nat
  serializePayload : UpdateStreamingPayload → Option (List UInt8)
  deserializePayload : List UInt8 → Option UpdateStreamingPayload
  deserializeBroadcast : List UInt8 → Option BroadcastStreamingPayload
  nextStreamId : StreamId
  claimOrWait : SocketAddr → StreamId → Except OrphanStreamError (Option (List UInt8))
  sends : SocketAddr → Bool

/-- A broadcast whose payload was new, while the contract handler merges it. -/
structure Merge where
  key : ContractKey
  payload : DeltaOrFullState
  sender : SocketAddr
  streamed : Bool
  startedAt : Nat

inductive Progress where
  | done (result : OperationResult)
  | merging (merge : Merge)

/-- The handling of one message: it waits to be taken up, its operation is loaded, or its payload is
being merged. -/
inductive Activity where
  | arriving (source : Option SocketAddr) (msg : UpdateMsg) (attempts : Nat)
  | loaded (op : UpdateOp) (source : Option SocketAddr) (msg : UpdateMsg)
  | merging (op : UpdateOp) (source : Option SocketAddr) (merge : Merge)

/-- How often a message is taken up again while another one of its operation is being handled. -/
def maxRetries : Nat := 15

def dedupMaxEntriesPerContract : Nat := 64

/-- How long a payload counts as seen, in milliseconds. -/
def dedupTtl : Nat := 60000

def contractFetchCooldownMs : Nat := 300000

abbrev UpdateTask (H α : Type) := EStateM Stop (UpdateNode H) α

namespace DeltaOrFullState

def bytes : DeltaOrFullState → List UInt8
  | delta bytes => bytes
  | fullState bytes => bytes

def isDelta : DeltaOrFullState → Bool
  | delta _ => true
  | fullState _ => false

def updateData : DeltaOrFullState → UpdateData
  | delta bytes => .delta bytes
  | fullState bytes => .state bytes

end DeltaOrFullState

namespace UpdateMsg

def id : UpdateMsg → Transaction
  | requestUpdate id _ _ _ => id
  | broadcasting id _ _ _ _ => id
  | broadcastTo id _ _ _ => id
  | requestUpdateStreaming id _ _ _ => id
  | broadcastToStreaming id _ _ _ => id

def isBroadcasting : UpdateMsg → Bool
  | broadcasting _ _ _ _ _ => true
  | _ => false

def isRequest : UpdateMsg → Bool
  | requestUpdate _ _ _ _ => true
  | requestUpdateStreaming _ _ _ _ => true
  | _ => false

end UpdateMsg

namespace UpdateOp

def received (id : Transaction) (source : Option SocketAddr) : UpdateOp :=
  ⟨id, some .receivedRequest, none, source⟩

variable (op : UpdateOp)

def finalized : Bool :=
  match op.state with
  | none => true
  | some (.finished _ _) => true
  | some _ => false

def toHostResult : Except OpError (ContractKey × List UInt8) :=
  match op.state with
  | some (.finished key summary) => .ok (key, summary)
  | _ => .error .unexpectedOpState

def buildOpResult (state : Option UpdateState) (msg : Option UpdateMsg)
    (stats : Option UpdateStats) (forwardHop : Option SocketAddr)
    (stream : Option (StreamId × List UInt8)) : OperationResult :=
  let next := state.map fun s => ({ op with state := some s, stats := stats } : UpdateOp)
  match msg, next with
  | some msg, some next => .sendAndContinue msg forwardHop next stream
  | some msg, none => .sendAndComplete msg forwardHop stream
  | none, some next => .continueOp next
  | none, none => .completed

/-- The update is applied here: only the node that started the operation keeps a result. -/
def applied (key : ContractKey) (execution : UpdateExecution) : OperationResult :=
  op.buildOpResult (if op.upstreamAddr = none then some (.finished key execution.summary) else none)
    none op.stats none none

def broadcastDone : OperationResult := op.buildOpResult none none op.stats none none

end UpdateOp

/-- Payloads seen for a contract after one more arrives, and whether it is a duplicate. -/
def checkAndInsert {H : Type} [DecidableEq H] (queue : List (DedupEntry H)) (deltaHash : H)
    (now : Nat) : Bool × List (DedupEntry H) :=
  let fresh := queue.dropWhile fun entry => dedupTtl < now - entry.insertedAt
  if fresh.any fun entry => entry.deltaHash = deltaHash then (true, fresh)
  else (false, fresh.drop (fresh.length + 1 - dedupMaxEntriesPerContract) ++ [⟨deltaHash, now⟩])

namespace UpdateNode
variable {H : Type} (node : UpdateNode H)

def setEntry (id : Transaction) (entry : TransactionEntry UpdateOp) : UpdateNode H :=
  { node with ops := Function.update node.ops id entry }

def pop (env : Environment) (id : Transaction) : Except OpNotAvailable (Option UpdateOp) × UpdateNode H :=
  let popped := (node.ops id).pop (env.elapsed id)
  (popped.2, node.setEntry id popped.1)

def push (env : Environment) (op : UpdateOp) : Except OpError Unit × UpdateNode H :=
  let pushed := (node.ops op.id).push (env.elapsed op.id) env.newTransactionsOpen op
  (pushed.2, node.setEntry op.id pushed.1)

def complete (id : Transaction) : UpdateNode H := node.setEntry id (node.ops id).complete

end UpdateNode

variable {H : Type}

def emit (e : Effect) : UpdateTask H Unit :=
  modify fun node => { node with effects := e :: node.effects }

def emitAll (es : List Effect) : UpdateTask H Unit :=
  modify fun node => { node with effects := es.reverse ++ node.effects }

def fail {α : Type} (error : OpError) : UpdateTask H α := throw (.failed error)

def complete (id : Transaction) : UpdateTask H Unit := modify fun node => node.complete id

namespace Environment
variable (env : Environment) (op : UpdateOp)

def push (op : UpdateOp) : UpdateTask H Unit := do
  let pushed ← modifyGet fun node => node.push env op
  match pushed with
  | .ok () => pure ()
  | .error e => fail e

/-- Put the operation back that was taken out for the message; a failure is only logged. -/
def putBack : UpdateTask H Unit :=
  modify fun node => if op.state.isSome then (node.push env op).2 else node

def forwardRequest (sender : SocketAddr) (key : ContractKey) (relatedContracts : RelatedContracts)
    (value : WrappedState) : UpdateTask H OperationResult :=
  match env.ownAddr with
  | none => fail .ringError
  | some selfAddr =>
    match env.closestPotentiallyHosting key [selfAddr, sender] with
    | none => fail .ringError
    | some target =>
      match target.socketAddr, env.serializePayload ⟨relatedContracts, value⟩ with
      | none, _ => throw (.panicked .expectFailed)
      | some _, none => fail .notificationError
      | some addr, some bytes =>
        let stats : Option UpdateStats := some ⟨some target⟩
        if env.streamingThreshold < bytes.length then
          pure (op.buildOpResult (some .receivedRequest)
            (some (.requestUpdateStreaming op.id env.nextStreamId key bytes.length)) stats
            (some addr) (some (env.nextStreamId, bytes)))
        else
          pure (op.buildOpResult (some .receivedRequest)
            (some (.requestUpdate op.id key relatedContracts value)) stats (some addr) none)

def applyUpdate (key : ContractKey) (relatedContracts : RelatedContracts) (value : WrappedState) :
    UpdateTask H OperationResult :=
  match env.updateContract key (.state value) relatedContracts with
  | .error failure => fail failure.error
  | .ok execution => pure (op.applied key execution)

def requestUpdate (source : Option SocketAddr) (key : ContractKey)
    (relatedContracts : RelatedContracts) (value : WrappedState) : UpdateTask H OperationResult :=
  match source, env.storedState key with
  | some _, some _ => env.applyUpdate op key relatedContracts value
  | some sender, none => env.forwardRequest op sender key relatedContracts value
  | none, some _ => do
    -- the sender is looked at only after the update was applied
    let _ ← env.applyUpdate op key relatedContracts value
    throw (.panicked .expectFailed)
  | none, none =>
    match env.ownAddr with
    | none => fail .ringError
    | some _ => throw (.panicked .expectFailed)

/-- The contents of a stream, or the error that ends the handling of its announcement. -/
def claimStream (peer : SocketAddr) (streamId : StreamId) : UpdateTask H (List UInt8) :=
  match env.claimOrWait peer streamId with
  | .error .alreadyClaimed => do
    env.putBack op
    fail (.opNotPresent op.id)
  | .error .timeout => do
    env.putBack op
    fail .orphanStreamClaimFailed
  | .ok none => fail .streamCancelled
  | .ok (some bytes) => pure bytes

def requestUpdateStreaming (source : Option SocketAddr) (streamId : StreamId) (key : ContractKey) :
    UpdateTask H OperationResult :=
  match source with
  | none => fail .unexpectedOpState
  | some peer => do
    let bytes ← env.claimStream op peer streamId
    match env.deserializePayload bytes with
    | none => fail (.invalidTransition op.id)
    | some payload => env.applyUpdate op key payload.relatedContracts payload.value

/-- Remember what the sender of a broadcast has, or that it is not known any more. -/
def updatePeerSummary (key : ContractKey) (sender : SocketAddr) (summary : Option (List UInt8)) :
    UpdateTask H Unit :=
  emitAll ((env.getPeerByAddr sender).toList.map fun peer =>
    .updatePeerSummary key peer.pubKey summary)

/-- A payload is merged unless it was seen before. -/
def receivePayload [DecidableEq H] (payloadHash : Bool → List UInt8 → H) (key : ContractKey)
    (payload : DeltaOrFullState) (sender : SocketAddr) (streamed : Bool) : UpdateTask H Progress := do
  let duplicate ← modifyGet fun node =>
    let checked := checkAndInsert (node.broadcastDedupCache key)
      (payloadHash payload.isDelta payload.bytes) env.interestNow
    (checked.1, { node with
      broadcastDedupCache := Function.update node.broadcastDedupCache key checked.2 })
  if duplicate then do
    emit (.duplicateSkipped key payload)
    pure (.done op.broadcastDone)
  else do
    emit (.mergeStarted key payload env.interestNow)
    pure (.merging ⟨key, payload, sender, streamed, env.interestNow⟩)

def broadcastTo [DecidableEq H] (payloadHash : Bool → List UInt8 → H) (source : Option SocketAddr)
    (key : ContractKey) (payload : DeltaOrFullState) (senderSummaryBytes : List UInt8) :
    UpdateTask H Progress :=
  match source with
  | none => throw (.panicked .expectFailed)
  | some sender => do
    env.updatePeerSummary key sender (some senderSummaryBytes)
    env.receivePayload op payloadHash key payload sender false

def broadcastToStreaming [DecidableEq H] (payloadHash : Bool → List UInt8 → H)
    (source : Option SocketAddr) (streamId : StreamId) (key : ContractKey) :
    UpdateTask H Progress :=
  match source with
  | none => fail .unexpectedOpState
  | some sender => do
    let bytes ← env.claimStream op sender streamId
    match env.deserializeBroadcast bytes with
    | none => fail (.invalidTransition op.id)
    | some payload => do
      env.updatePeerSummary key sender (some payload.senderSummaryBytes)
      env.receivePayload op payloadHash key (.fullState payload.stateBytes) sender true

def processMessage [DecidableEq H] (payloadHash : Bool → List UInt8 → H)
    (source : Option SocketAddr) : UpdateMsg → UpdateTask H Progress
  | .requestUpdate _ key relatedContracts value => do
    let result ← env.requestUpdate op source key relatedContracts value
    pure (.done result)
  | .broadcastTo _ key payload senderSummaryBytes =>
    env.broadcastTo op payloadHash source key payload senderSummaryBytes
  | .broadcasting _ _ _ _ _ => pure (.done op.broadcastDone)
  | .requestUpdateStreaming _ streamId key _ => do
    let result ← env.requestUpdateStreaming op source streamId key
    pure (.done result)
  | .broadcastToStreaming _ streamId key _ =>
    env.broadcastToStreaming op payloadHash source streamId key

def coolingDown (node : UpdateNode H) (instanceId : ContractInstanceId) : Bool :=
  match node.pendingContractFetches.get instanceId with
  | some since => env.readTimeMs - since < contractFetchCooldownMs
  | none => false

/-- Ask the sender of a broadcast for the contract, at most once in a while. -/
def tryAutoFetchContract (key : ContractKey) (sender : SocketAddr) : UpdateTask H Unit := do
  let node ← get
  if env.coolingDown node key.id then pure ()
  else
    match env.getPeerByAddr sender with
    | none => modify fun node =>
        { node with pendingContractFetches := node.pendingContractFetches.remove key.id }
    | some peer =>
      if env.notificationsOpen then
        modify fun node => { node with
          pendingContractFetches := node.pendingContractFetches.insert key.id env.readTimeMs
          effects := .targetedGet key.id peer :: node.effects }
      else modify fun node =>
        { node with pendingContractFetches := node.pendingContractFetches.remove key.id }

/-- A payload could not be merged. A streamed broadcast is skipped then; for a plain one the error
is passed on. -/
def mergeFailed (merge : Merge) (failure : UpdateFailure) : UpdateTask H OperationResult :=
  match merge.streamed, merge.payload, failure.isContractExecRejection with
  | true, _, true => pure op.broadcastDone
  | true, _, false => do
    env.tryAutoFetchContract merge.key merge.sender
    pure op.broadcastDone
  | false, .delta _, _ => do
    env.updatePeerSummary merge.key merge.sender none
    emitAll (if env.notificationsOpen then [.resyncRequest merge.sender merge.key] else [])
    fail failure.error
  | false, .fullState _, true => fail failure.error
  | false, .fullState _, false => do
    env.tryAutoFetchContract merge.key merge.sender
    fail failure.error

def finishMerge (merge : Merge) : UpdateTask H OperationResult :=
  match env.updateContract merge.key merge.payload.updateData [] with
  | .error failure => do
    emit (.mergeEnded merge.key merge.payload merge.startedAt false)
    env.mergeFailed op merge failure
  | .ok execution => do
    emit (.mergeEnded merge.key merge.payload merge.startedAt true)
    emitAll (if execution.changed then
      [.proactiveSummary merge.key merge.sender execution.summary] else [])
    pure op.broadcastDone

def sendWithStream (target : SocketAddr) (msg : UpdateMsg)
    (stream : Option (StreamId × List UInt8)) : UpdateTask H Unit :=
  if env.sends target then emit (.send target msg stream) else fail .connError

def sendToTarget (target : Option SocketAddr) (msg : UpdateMsg)
    (stream : Option (StreamId × List UInt8)) : UpdateTask H Unit :=
  match target with
  | none => pure ()
  | some target => env.sendWithStream target msg stream

/-- Leave a message and the state of its operation with the node itself. -/
def notifyOpChange (msg : UpdateMsg) (op : UpdateOp) : UpdateTask H Unit := do
  env.push op
  if env.notificationsOpen then emit (.notification msg) else fail .notificationError

def handleOpResult (id : Transaction) (source : Option SocketAddr) :
    Except Stop OperationResult → UpdateTask H (Option UpdateOp)
  | .error (.failed .statePushed) => pure none
  | .error (.failed (.opNotPresent _)) => pure none
  | .error (.panicked reason) => throw (.panicked reason)
  | .error (.failed e) =>
    match source with
    | none => fail e
    | some addr => do
      emit (.sendAborted addr id)
      fail (if env.sends addr then e else .connError)
  | .ok .completed => do
    complete id
    pure none
  | .ok (.continueOp op) =>
    if op.finalized then do
      complete id
      pure (some op)
    else do
      env.push op
      pure none
  | .ok (.sendAndContinue msg nextHop op stream) =>
    if op.finalized then do
      complete id
      env.sendToTarget nextHop msg stream
      pure (some op)
    else
      match nextHop with
      | some target => do
        env.push op
        env.sendWithStream target msg stream
        pure none
      | none =>
        -- only the broadcast of an update may be queued for the node itself
        if env.build.debugAssertions && !msg.isBroadcasting then throw (.panicked .assertion)
        else do
          env.notifyOpChange msg op
          pure none
  | .ok (.sendAndComplete msg nextHop stream) => do
    env.sendToTarget nextHop msg stream
    complete id
    pure none

/-- Tell a client what became of its update; after an error the operation is over. -/
def reportResult (id : Transaction) : Except Stop (Option UpdateOp) → UpdateTask H Unit
  | .ok none => pure ()
  | .ok (some op) => emit (.clientResult id op.toHostResult)
  | .error (.panicked _) => pure ()
  | .error (.failed e) => do
    emit (.clientResult id (.error e))
    complete id

def conclude (id : Transaction) (source : Option SocketAddr) (result : Except Stop OperationResult) :
    UpdateTask H Unit := do
  let handled ← Task.attempt (env.handleOpResult id source result)
  reportResult id handled

/-- Take up a message: its operation is taken out of the operation manager, or is a new one. -/
def takeUp (source : Option SocketAddr) (msg : UpdateMsg) (attempts : Nat) :
    UpdateTask H (Option Activity) := do
  let popped ← modifyGet fun node => node.pop env msg.id
  match popped with
  | .ok (some op) => pure (some (.loaded op source msg))
  | .ok none => pure (some (.loaded (.received msg.id source) source msg))
  | .error .running =>
    pure (if attempts + 1 < maxRetries then some (.arriving source msg (attempts + 1)) else none)
  | .error .completed => pure none

/-- Go on with an activity up to where it waits again; what is left of it, if it is not over. -/
def advance [DecidableEq H] (payloadHash : Bool → List UInt8 → H) :
    Activity → UpdateTask H (Option Activity)
  | .arriving source msg attempts => env.takeUp source msg attempts
  | .loaded op source msg => do
    let processed ← Task.attempt (env.processMessage op payloadHash source msg)
    match processed with
    | .ok (.merging merge) => pure (some (.merging op source merge))
    | .ok (.done result) => do
      env.conclude msg.id source (.ok result)
      pure none
    | .error stop => do
      env.conclude msg.id source (.error stop)
      pure none
  | .merging op source merge => do
    let merged ← Task.attempt (env.finishMerge op merge)
    env.conclude op.id source merged
    pure none

/-- What is left of an activity after one more step, with the node it ran on. -/
def afterAdvance [DecidableEq H] (payloadHash : Bool → List UInt8 → H) (a : Activity)
    (node : UpdateNode H) : Option Activity × UpdateNode H :=
  match env.advance payloadHash a node with
  | .ok rest node' => (rest, node')
  | .error _ node' => (none, node')

end Environment

/-! What handling UPDATE messages leaves alone, and broadcasts skipped as seen before. -/
open Lib.Task

section Frames
open Environment

/-- Effects other than sending a message and the account of merges. -/
def Effect.isNote : Effect → Bool
  | send _ _ _ => false
  | duplicateSkipped _ _ => false
  | mergeStarted _ _ _ => false
  | mergeEnded _ _ _ _ => false
  | _ => true

def Activity.isRequest : Activity → Bool
  | .arriving _ msg _ => msg.isRequest
  | .loaded _ _ msg => msg.isRequest
  | .merging _ _ _ => false

def Environment.forwardTarget (env : Environment) : Activity → Option SocketAddr
  | .loaded _ (some sender) (.requestUpdate _ key _ _) =>
    match env.ownAddr, env.storedState key with
    | some selfAddr, none =>
      (env.closestPotentiallyHosting key [selfAddr, sender]).bind fun peer => peer.socketAddr
    | _, _ => none
  | _ => none

theorem Environment.forwardTarget_of_missing {env : Environment} {op : UpdateOp}
    {sender : SocketAddr} {id : Transaction} {key : ContractKey}
    {relatedContracts : RelatedContracts} {value : WrappedState}
    (hstor : env.storedState key = none) :
    env.forwardTarget (.loaded op (some sender) (.requestUpdate id key relatedContracts value)) =
      env.ownAddr.bind fun selfAddr =>
        (env.closestPotentiallyHosting key [selfAddr, sender]).bind fun peer => peer.socketAddr := by
  unfold forwardTarget
  dsimp only
  rw [hstor]
  cases env.ownAddr with
  | none => rfl
  | some selfAddr => rfl

def OperationResult.Sends (msg : UpdateMsg) (nextHop : Option SocketAddr) : OperationResult → Prop
  | sendAndContinue msg' nextHop' _ _ | sendAndComplete msg' nextHop' _ => msg' = msg ∧ nextHop' = nextHop
  | _ => False

def OperationResult.RequestsGoTo (target : Option SocketAddr) : OperationResult → Prop
  | .sendAndContinue msg nextHop _ _ => msg.isRequest = true → nextHop = target
  | .sendAndComplete msg nextHop _ => msg.isRequest = true → nextHop = target
  | _ => True

/-- What holds at the end of a step of an activity, however the step ends. -/
theorem Environment.afterAdvance_of_triple {H : Type} [DecidableEq H] {env : Environment}
    {payloadHash : Bool → List UInt8 → H} {a : Activity} {node : UpdateNode H}
    {Pre : UpdateNode H → Prop} {Q : Option Activity → UpdateNode H → Prop}
    (h : Triple Pre (env.advance payloadHash a) Q fun _ => Q none) (hnode : Pre node) :
    Q (env.afterAdvance payloadHash a node).1 (env.afterAdvance payloadHash a node).2 := by
  have hrun := h node hnode
  unfold afterAdvance
  cases hadvance : env.advance payloadHash a node with
  | ok rest node' | error e node' =>
    rw [hadvance] at hrun
    exact hrun

/-- A property of the node that does not depend on its operations, its fetches and its notes. -/
structure Framed {H : Type} (Inv : UpdateNode H → Prop) : Prop where
  setEntry : ∀ node id entry, Inv node → Inv (node.setEntry id entry)
  setFetches : ∀ node fetches, Inv node → Inv { node with pendingContractFetches := fetches }
  note : ∀ node e, Effect.isNote e = true → Inv node → Inv { node with effects := e :: node.effects }

namespace Framed
variable {Inv : UpdateNode H → Prop} (hF : Framed Inv) {env : Environment} {op : UpdateOp}
  {source : Option SocketAddr} {id : Transaction} {msg : UpdateMsg} {key : ContractKey}
  {relatedContracts : RelatedContracts} {value : WrappedState} {sender : SocketAddr}
  {streamId : Get.StreamId} {stream : Option (Get.StreamId × List UInt8)}
include hF

theorem keeps_emit {e : Effect} (he : e.isNote = true) : Preserves Inv (emit e : UpdateTask H Unit) :=
  keeps_modify fun node hnode => hF.note node e he hnode

theorem keeps_emitAll {es : List Effect} (hes : ∀ e ∈ es, e.isNote = true) :
    Preserves Inv (emitAll es : UpdateTask H Unit) := by
  refine keeps_modify ?_
  intro node hnode
  -- the effects are added one after the other
  induction es generalizing node with
  | nil => exact hnode
  | cons e es ih =>
    have hnext : Inv { node with effects := e :: node.effects } :=
      hF.note node e (hes e List.mem_cons_self) hnode
    have hrest := ih (fun e' he' => hes e' (List.mem_cons_of_mem e he')) _ hnext
    simpa using hrest

theorem keeps_emitIf (c : Bool) {e : Effect} (he : e.isNote = true) :
    Preserves Inv (emitAll (if c then [e] else []) : UpdateTask H Unit) := by
  refine hF.keeps_emitAll ?_
  intro e' he'
  cases c with
  | true =>
    rw [List.mem_singleton.mp he']
    exact he
  | false => exact absurd he' List.not_mem_nil

theorem keeps_complete : Preserves Inv (complete id : UpdateTask H Unit) :=
  keeps_modify fun node hnode => hF.setEntry node id _ hnode

omit hF in
theorem keeps_fail {α : Type} {P : α → Prop} {e : OpError} : Keeps Inv (fail e : UpdateTask H α) P :=
  keeps_throw

theorem keeps_push : Preserves Inv (env.push op : UpdateTask H Unit) := by
  have hpush : Preserves Inv (modifyGet fun node => node.push env op : UpdateTask H
      (Except OpError Unit)) := by
    refine keeps_modifyGet ?_
    intro node hnode
    exact ⟨hF.setEntry node op.id _ hnode, trivial⟩
  refine hpush.bind ?_
  intro pushed _
  cases pushed with
  | ok _ => exact keeps_pure trivial
  | error e => exact keeps_fail

theorem keeps_putBack : Preserves Inv (env.putBack op : UpdateTask H Unit) := by
  refine keeps_modify ?_
  intro node hnode
  split_ifs
  · exact hF.setEntry node op.id _ hnode
  · exact hnode

theorem keeps_claimStream :
    Keeps Inv (env.claimStream op sender streamId : UpdateTask H (List UInt8))
      fun bytes => env.claimOrWait sender streamId = .ok (some bytes) := by
  unfold claimStream
  cases env.claimOrWait sender streamId with
  | error e =>
    cases e with
    | alreadyClaimed | timeout => exact hF.keeps_putBack.andThen keeps_fail
  | ok contents =>
    cases contents with
    | none => exact keeps_fail
    | some bytes => exact keeps_pure rfl

variable (target : Option SocketAddr)

omit hF in
theorem keeps_applyUpdate :
    Keeps Inv (env.applyUpdate op key relatedContracts value : UpdateTask H OperationResult)
      fun result => result.RequestsGoTo target := by
  unfold Environment.applyUpdate
  cases env.updateContract key (.state value) relatedContracts with
  | error failure => exact keeps_fail
  | ok execution =>
    refine keeps_pure ?_
    unfold UpdateOp.applied
    split_ifs
    · trivial
    · trivial

omit hF in
theorem keeps_forwardRequest : Keeps Inv
      (env.forwardRequest op sender key relatedContracts value : UpdateTask H OperationResult)
      fun result => result.RequestsGoTo (env.ownAddr.bind fun selfAddr =>
        (env.closestPotentiallyHosting key [selfAddr, sender]).bind fun peer => peer.socketAddr) := by
  unfold forwardRequest
  cases env.ownAddr with
  | none => exact keeps_fail
  | some selfAddr =>
    rw [Option.bind_some]
    dsimp only
    cases env.closestPotentiallyHosting key [selfAddr, sender] with
    | none => exact keeps_fail
    | some peer =>
      rw [Option.bind_some]
      dsimp only
      cases peer.socketAddr with
      | none => exact keeps_throw
      | some addr =>
        cases env.serializePayload ⟨relatedContracts, value⟩ with
        | none => exact keeps_fail
        | some bytes =>
          dsimp only
          split_ifs
          · exact keeps_pure fun _ => rfl
          · exact keeps_pure fun _ => rfl

omit hF in
theorem keeps_requestUpdate (id : Transaction) : Keeps Inv
      (env.requestUpdate op source key relatedContracts value : UpdateTask H OperationResult)
      fun result => result.RequestsGoTo
        (env.forwardTarget (.loaded op source (.requestUpdate id key relatedContracts value))) := by
  unfold requestUpdate
  cases source with
  | none =>
    cases env.storedState key with
    | none =>
      cases env.ownAddr with
      | none => exact keeps_fail
      | some _ => exact keeps_throw
    | some _ => exact (keeps_applyUpdate none).andThen keeps_throw
  | some sender =>
    cases hstor : env.storedState key with
    | some _ => exact keeps_applyUpdate _
    | none =>
      rw [forwardTarget_of_missing hstor]
      exact keeps_forwardRequest

theorem keeps_requestUpdateStreaming :
    Keeps Inv (env.requestUpdateStreaming op source streamId key : UpdateTask H OperationResult)
      fun result => result.RequestsGoTo target := by
  unfold requestUpdateStreaming
  cases source with
  | none => exact keeps_fail
  | some peer =>
    refine hF.keeps_claimStream.bind ?_
    intro bytes _
    cases env.deserializePayload bytes with
    | none => exact keeps_fail
    | some payload => exact keeps_applyUpdate target

theorem keeps_updatePeerSummary {summary : Option (List UInt8)} :
    Preserves Inv (env.updatePeerSummary key sender summary : UpdateTask H Unit) := by
  refine hF.keeps_emitAll ?_
  intro e he
  obtain ⟨peer, _, rfl⟩ := List.mem_map.mp he
  rfl

theorem keeps_tryAutoFetchContract :
    Preserves Inv (env.tryAutoFetchContract key sender : UpdateTask H Unit) := by
  have hfetch : ∀ f : UpdateNode H → Table ContractInstanceId Nat, Preserves Inv
      (modify fun node => { node with pendingContractFetches := f node } : UpdateTask H Unit) := by
    intro f
    exact keeps_modify fun node hnode => hF.setFetches node (f node) hnode
  refine keeps_get.bind ?_
  intro node _
  cases env.coolingDown node key.id with
  | true => exact keeps_pure trivial
  | false =>
    cases env.getPeerByAddr sender with
    | none => exact hfetch _
    | some peer =>
      cases env.notificationsOpen with
      | false => exact hfetch _
      | true =>
        refine keeps_modify ?_
        intro node hnode
        have hnoted := hF.note node (.targetedGet key.id peer) rfl hnode
        have hset := hF.setFetches _ (node.pendingContractFetches.insert key.id env.readTimeMs) hnoted
        exact hset

theorem keeps_mergeFailed {merge : Merge} {failure : UpdateFailure} :
    Keeps Inv (env.mergeFailed op merge failure : UpdateTask H OperationResult)
      fun result => result.RequestsGoTo target := by
  have hdone : op.broadcastDone.RequestsGoTo target := trivial
  unfold mergeFailed
  cases merge.streamed with
  | true =>
    cases failure.isContractExecRejection with
    | true => exact keeps_pure hdone
    | false =>
      exact hF.keeps_tryAutoFetchContract.andThen (keeps_pure hdone)
  | false =>
    cases merge.payload with
    | delta bytes =>
      refine hF.keeps_updatePeerSummary.andThen ?_
      exact (hF.keeps_emitIf env.notificationsOpen rfl).andThen keeps_fail
    | fullState bytes =>
      cases failure.isContractExecRejection with
      | true => exact keeps_fail
      | false =>
        exact hF.keeps_tryAutoFetchContract.andThen keeps_fail

theorem keeps_notifyOpChange : Preserves Inv (env.notifyOpChange msg op : UpdateTask H Unit) := by
  refine hF.keeps_push.andThen ?_
  split_ifs
  · exact hF.keeps_emit rfl
  · exact keeps_fail

theorem keeps_reportResult (id : Transaction) (reported : Except Get.Stop (Option UpdateOp)) :
    Preserves Inv (reportResult id reported : UpdateTask H Unit) := by
  unfold reportResult
  split
  · exact keeps_pure trivial
  · exact hF.keeps_emit rfl
  · exact keeps_pure trivial
  · exact (hF.keeps_emit rfl).andThen hF.keeps_complete

theorem keeps_takeUp {attempts : Nat} :
    Keeps Inv (env.takeUp source msg attempts : UpdateTask H (Option Activity))
      fun rest => ∀ a, rest = some a → (∃ n, a = .arriving source msg n) ∨
        ∃ op, a = .loaded op source msg := by
  have hpop : Preserves Inv (modifyGet fun node => node.pop env msg.id :
        UpdateTask H (Except OpNotAvailable (Option UpdateOp))) := by
    refine keeps_modifyGet ?_
    intro node hnode
    exact ⟨hF.setEntry node msg.id _ hnode, trivial⟩
  refine hpop.bind ?_
  intro popped _
  split
  · exact keeps_pure fun a ha => .inr ⟨_, (Option.some.inj ha).symm⟩
  · exact keeps_pure fun a ha => .inr ⟨_, (Option.some.inj ha).symm⟩
  · refine keeps_pure ?_
    intro a ha
    split_ifs at ha
    · exact .inl ⟨_, (Option.some.inj ha).symm⟩
  · exact keeps_pure (by simp)

section Sending
variable {Sent : UpdateNode H → Prop} (hweak : ∀ node, Inv node → Sent node)
include hweak

omit hF in
theorem leads_sendToTarget {target : Option SocketAddr} (hsend : ∀ addr, target = some addr →
      ∀ node, Inv node → Sent { node with effects := .send addr msg stream :: node.effects }) :
    Leads Inv (env.sendToTarget target msg stream : UpdateTask H Unit) Sent := by
  unfold sendToTarget
  cases target with
  | none => exact triple_pure hweak
  | some addr =>
    dsimp only
    unfold sendWithStream
    split_ifs
    · exact triple_modify (hsend addr rfl)
    · exact triple_throw hweak

variable {result : Except Get.Stop OperationResult} (hS : Framed Sent)
  (hsend : ∀ r msg addr, result = .ok r → r.Sends msg (some addr) → ∀ node stream, Inv node →
    Sent { node with effects := .send addr msg stream :: node.effects })
include hS hsend

theorem leads_handleOpResult :
    Leads Inv (env.handleOpResult id source result : UpdateTask H (Option UpdateOp)) Sent := by
  have hquiet {α : Type} {m : UpdateTask H α} (h : Preserves Inv m) : Leads Inv m Sent :=
    h.triple_inv.ends (fun _ => hweak) (fun _ => hweak)
  unfold handleOpResult
  split
  · exact hquiet keeps_done
  · exact hquiet keeps_done
  · exact hquiet keeps_throw
  · cases source with
    | none => exact hquiet keeps_fail
    | some addr => exact hquiet ((hF.keeps_emit rfl).andThen keeps_fail)
  · exact hquiet (hF.keeps_complete.andThen keeps_done)
  · split_ifs
    · exact hquiet (hF.keeps_complete.andThen keeps_done)
    · exact hquiet (hF.keeps_push.andThen keeps_done)
  · next msg nextHop op stream =>
    have hsent : Leads Inv (env.sendToTarget nextHop msg stream) Sent :=
      leads_sendToTarget hweak fun addr haddr node hnode =>
        hsend _ msg addr rfl ⟨rfl, haddr⟩ node stream hnode
    by_cases hfinal : op.finalized = true
    · rw [if_pos hfinal]
      refine (hF.keeps_complete.triple_weak hweak).andThen ?_
      exact hsent.andThen keeps_done.triple_inv
    · rw [if_neg hfinal]
      cases nextHop with
      | some target =>
        refine (hF.keeps_push.triple_weak hweak).andThen ?_
        exact hsent.andThen keeps_done.triple_inv
      | none =>
        dsimp only
        split_ifs
        · exact hquiet keeps_throw
        · exact hquiet (hF.keeps_notifyOpChange.andThen keeps_done)
  · next msg nextHop stream =>
    refine (leads_sendToTarget hweak fun addr haddr node hnode =>
      hsend _ msg addr rfl ⟨rfl, haddr⟩ node stream hnode).andThen ?_
    exact (hS.keeps_complete.andThen keeps_done).triple_inv

theorem leads_conclude : Leads Inv (env.conclude id source result : UpdateTask H Unit) Sent := by
  have hhandled : Leads Inv (Task.attempt (env.handleOpResult id source result) :
      UpdateTask H (Except Get.Stop (Option UpdateOp))) Sent := by
    refine (hF.leads_handleOpResult hweak hS hsend).attempt.post ?_
    rintro (_ | _) node hnode
    · exact hnode
    · exact hnode
  exact hhandled.bind fun handled => (hS.keeps_reportResult id handled).triple_inv

end Sending
end Framed
end Frames

open List

section Cache
variable [DecidableEq H] {queue : List (DedupEntry H)} {deltaHash : H} {now : Nat}

/-- Entries stand in the cache in the order in which they were made. -/
def CacheOrdered (queue : List (DedupEntry H)) : Prop :=
  queue.Pairwise fun a b => a.insertedAt ≤ b.insertedAt

variable (horder : CacheOrdered queue)
include horder

omit [DecidableEq H] in
/-- In an ordered queue nothing old is left once the front is young enough. -/
theorem young_of_mem_dropWhile {entry : DedupEntry H}
    (hentry : entry ∈ queue.dropWhile fun e => dedupTtl < now - e.insertedAt) :
    now - entry.insertedAt ≤ dedupTtl := by
  induction queue with
  | nil => exact absurd hentry not_mem_nil
  | cons front rest ih =>
    have hrest := pairwise_cons.mp horder
    by_cases hold : dedupTtl < now - front.insertedAt
    · rw [dropWhile_cons_of_pos (by simpa using hold)] at hentry
      exact ih hrest.2 hentry
    · rw [dropWhile_cons_of_neg (by simpa using hold)] at hentry
      rcases mem_cons.mp hentry with rfl | hmem
      · exact Nat.le_of_not_lt hold
      · have hle := hrest.1 entry hmem
        omega

theorem young_hit_of_duplicate
    (h : (checkAndInsert queue deltaHash now).1 = true) :
    ∃ entry ∈ queue, entry.deltaHash = deltaHash ∧ now - entry.insertedAt ≤ dedupTtl := by
  unfold checkAndInsert at h
  dsimp only at h
  split_ifs at h with hany
  obtain ⟨entry, hentry, hhash⟩ := any_eq_true.mp hany
  refine ⟨entry, (dropWhile_sublist _).subset hentry, by simpa using hhash, ?_⟩
  exact young_of_mem_dropWhile horder hentry

omit horder in
theorem mem_of_mem_checkAndInsert {entry : DedupEntry H}
    (h : entry ∈ (checkAndInsert queue deltaHash now).2) :
    entry ∈ queue ∨ ((checkAndInsert queue deltaHash now).1 = false ∧ entry = ⟨deltaHash, now⟩) := by
  unfold checkAndInsert at h ⊢
  dsimp only at h ⊢
  split_ifs at h ⊢ with hany
  · exact .inl ((dropWhile_sublist _).subset h)
  · rcases mem_append.mp h with hmem | hnew
    · exact .inl ((dropWhile_sublist _).subset (mem_of_mem_drop hmem))
    · exact .inr ⟨rfl, mem_singleton.mp hnew⟩

theorem cacheOrdered_checkAndInsert
    (hpast : ∀ entry ∈ queue, entry.insertedAt ≤ now) :
    CacheOrdered (checkAndInsert queue deltaHash now).2 := by
  have hfresh : CacheOrdered (queue.dropWhile fun e => dedupTtl < now - e.insertedAt) :=
    horder.sublist (dropWhile_sublist _)
  unfold checkAndInsert
  dsimp only
  split_ifs with hany
  · exact hfresh
  · refine pairwise_append.mpr ⟨hfresh.sublist (drop_sublist _ _), ?_, ?_⟩
    · exact pairwise_singleton _ _
    · intro a ha b hb
      rw [mem_singleton.mp hb]
      exact hpast a ((dropWhile_sublist _).subset (mem_of_mem_drop ha))

end Cache

/-- A node with the messages it is handling and the last reading of its clock. -/
structure BroadcastNode (H : Type) where
  node : UpdateNode H
  activities : List Activity
  clock : Nat

inductive BroadcastEvent where
  | receive (source : SocketAddr) (msg : UpdateMsg)
  | advance (i : Nat) (env : Environment)
  | receiveNew (id : Transaction)
  | cleanup (id : Transaction) (elapsed : Nat) (tie cutoffTie : Bool)

/-- The payload that is about to be looked up in the duplicate cache. -/
def Environment.receivedPayload (env : Environment) :
    Activity → Option (ContractKey × DeltaOrFullState)
  | .loaded _ (some _) (.broadcastTo _ key payload _) => some (key, payload)
  | .loaded _ (some sender) (.broadcastToStreaming _ streamId key _) =>
    match env.claimOrWait sender streamId with
    | .ok (some bytes) =>
      (env.deserializeBroadcast bytes).map fun payload => (key, .fullState payload.stateBytes)
    | _ => none
  | _ => none

def Activity.Merges (key : ContractKey) (payload : DeltaOrFullState) (startedAt : Nat) :
    Activity → Prop
  | .merging _ _ merge =>
    merge.key = key ∧ merge.payload = payload ∧ merge.startedAt = startedAt
  | _ => False

namespace BroadcastNode
variable [DecidableEq H] (payloadHash : Bool → List UInt8 → H) (s : BroadcastNode H)

def step : BroadcastEvent → Option (BroadcastNode H)
  | .receive source msg =>
    some { s with activities := s.activities ++ [.arriving (some source) msg 0] }
  | .advance i env =>
    match s.activities[i]? with
    | none => none
    | some a =>
      if s.clock ≤ env.interestNow then
        let after := env.afterAdvance payloadHash a s.node
        some ⟨after.2, s.activities.eraseIdx i ++ after.1.toList, env.interestNow⟩
      else none
  | .receiveNew id => some { s with node := s.node.setEntry id (s.node.ops id).receiveNew }
  | .cleanup id elapsed tie cutoffTie =>
    some { s with node := s.node.setEntry id ((s.node.ops id).cleanup elapsed tie cutoffTie) }

/-- Before the first message. -/
structure Fresh (s : BroadcastNode H) : Prop where
  noCache : ∀ key, s.node.broadcastDedupCache key = []
  noEffects : s.node.effects = []
  noActivities : s.activities = []

end BroadcastNode

/-- A node that receives broadcasts and other UPDATE messages, handled in any interleaving. -/
def broadcasts {H : Type} [DecidableEq H] (payloadHash : Bool → List UInt8 → H) :
    Machine (BroadcastNode H) BroadcastEvent where
  init := BroadcastNode.Fresh
  step s e := s.step payloadHash e

/-- The payload was merged, in an attempt that started after every failed one. -/
def MergedBefore (key : ContractKey) (payload : DeltaOrFullState) (effects : List Effect) : Prop :=
  ∃ t, Effect.mergeEnded key payload t true ∈ effects ∧
    ∀ t', Effect.mergeEnded key payload t' false ∈ effects → t' < t

def SkipsOnlyMerged (effects : List Effect) : Prop :=
  ∀ newer key payload older, effects = newer ++ .duplicateSkipped key payload :: older →
    MergedBefore key payload older

/-- No merge of the payload that started within the lifetime of a cache entry is still under way or
has failed. -/
def NoOpenMerge (now : Nat) (pending : List Activity) (key : ContractKey)
    (payload : DeltaOrFullState) (effects : List Effect) : Prop :=
  (∀ a ∈ pending, ∀ t, a.Merges key payload t → dedupTtl < now - t) ∧
    ∀ t, Effect.mergeEnded key payload t false ∈ effects → dedupTtl < now - t

def BroadcastEvent.MeetsNoOpenMerge {H : Type} (s : BroadcastNode H) : BroadcastEvent → Prop
  | .advance i env => ∀ a key payload, s.activities[i]? = some a →
      env.receivedPayload a = some (key, payload) →
      NoOpenMerge env.interestNow s.activities key payload s.node.effects
  | _ => True

end Freenet.Operations.Update
