import Freenet.Lib.Machine
import Freenet.Lib.Task
import Freenet.Operations.UpdateRequest

/-! The GET operation of one transaction: states, messages, and its steps from request to result. -/
namespace Freenet.Operations.Get
open Lib Node Contract

abbrev VisitedPeers := List SocketAddr
abbrev StreamId := Nat

def maxRetries : Nat := 10
def defaultMaxBreadth : Nat := 3
def minRetryHtl : Nat := 3

structure PrepareRequestData where
  instanceId : ContractInstanceId
  id : Transaction
  fetchContract : Bool
  subscribe : Bool
  blockingSubscribe : Bool

structure AwaitingResponseData where
  instanceId : ContractInstanceId
  requester : Option PeerKeyLocation
  fetchContract : Bool
  retries : Nat
  currentHop : Nat
  subscribe : Bool
  blockingSubscribe : Bool
  nextHop : PeerKeyLocation
  triedPeers : List SocketAddr
  alternatives : List PeerKeyLocation
  attemptsAtHop : Nat
  visited : VisitedPeers

inductive GetState where
  | receivedRequest
  | prepareRequest (data : PrepareRequestData)
  | awaitingResponse (data : AwaitingResponseData)
  | finished (key : ContractKey)

/-- A contract as it was found, at a peer or in the local store. -/
structure GetResult where
  key : ContractKey
  state : WrappedState
  contract : Option ContractContainer

structure GetOp where
  id : Transaction
  state : Option GetState
  result : Option GetResult
  upstreamAddr : Option SocketAddr
  localFallback : Option GetResult
  autoFetch : Bool
  ackReceived : Bool
  speculativePaths : Nat

structure GetStreamingPayload where
  key : ContractKey
  value : StoreResponse

inductive GetMsgResult where
  | found (key : ContractKey) (value : StoreResponse)
  | notFound

inductive GetMsg where
  | request (id : Transaction) (instanceId : ContractInstanceId) (fetchContract : Bool) (htl : Nat)
    (visited : VisitedPeers)
  | response (id : Transaction) (instanceId : ContractInstanceId) (result : GetMsgResult)
  | responseStreaming (id : Transaction) (instanceId : ContractInstanceId) (streamId : StreamId)
    (key : ContractKey) (totalSize : Nat) (includesContract : Bool)
  | responseStreamingAck (id : Transaction) (streamId : StreamId)
  | forwardingAck (id : Transaction) (instanceId : ContractInstanceId)

inductive GetFailure where
  | didNotFinish
  | exhaustedPeers (instanceId : ContractInstanceId)
  | reachedMaxRetries (instanceId : ContractInstanceId)
  | noPeersToForward (instanceId : ContractInstanceId)
  | operationError (error : OpError)
  | subOperationFailed

inductive Effect where
  | contractHandler (ev : ContractHandlerEvent)
  | recordGetAccess (key : ContractKey) (size : Nat)
  | announceContractHosted (key : ContractKey)
  | registerLocalHosting (key : ContractKey)
  | registerPeerInterest (key : ContractKey) (peer : Nat)
  | startSubscription (key : ContractKey) (blocking : Bool)
  | send (target : SocketAddr) (msg : GetMsg) (stream : Option (StreamId × List UInt8))
  | pipeStream (target : SocketAddr) (streamId : StreamId)
  | sendAborted (target : SocketAddr)
  | notification (msg : GetMsg)
  | clientResult (result : Except GetFailure GetResult)

inductive OpSlot where
  | absent
  | kept (op : GetOp)
  | running
  | completed

/-- The part of a node that the transaction touches, with all that was done for it, the newest
effect first. -/
structure GetNode (S : Type) where
  handler : HandlerState S
  slot : OpSlot
  awaitingSubOps : Option GetOp
  effects : List Effect

inductive OrphanStreamError where
  | alreadyClaimed
  | timeout

/-- What the operation finds at the node while it handles one event. -/
structure GetEnvironment (S : Type) where
  build : Build
  handler : ContractHandler S
  timedOut : Bool
  newTransactionsOpen : Bool
  notificationsOpen : Bool
  maxHopsToLive : Nat
  ownLocation : PeerKeyLocation
  getPeerLocationByAddr : SocketAddr → Option PeerKeyLocation
  getPeerByAddr : SocketAddr → Option PeerKeyLocation
  kClosestPotentiallyHosting : ContractInstanceId → VisitedPeers → List PeerKeyLocation
  probablyVisited : VisitedPeers → SocketAddr → Bool
  isHostingContract : ContractKey → Bool
  recordGetAccess : ContractKey → Nat → Bool
  isSubscribed : ContractKey → Bool
  streamingThreshold : Nat
  serializePayload : GetStreamingPayload → Option (List UInt8)
  deserializePayload : List UInt8 → Option GetStreamingPayload
  nextStreamId : StreamId
  claimOrWait : SocketAddr → StreamId → Except OrphanStreamError (Option (List UInt8))
  sends : SocketAddr → Bool
  pipes : SocketAddr → Bool
  isSubOperation : Bool
  failedParent : Bool
  allSubOperationsCompleted : Bool

inductive Stop where
  | failed (error : OpError)
  | panicked (reason : Panic)

abbrev GetTask (S α : Type) := EStateM Stop (GetNode S) α

namespace AwaitingResponseData
variable (d : AwaitingResponseData)

def markTried : Option SocketAddr → AwaitingResponseData
  | none => d
  | some addr => { d with triedPeers := d.triedPeers.insert addr }

def request (id : Transaction) : GetMsg :=
  .request id d.instanceId d.fetchContract d.currentHop d.visited

/-- Ask the next peer at this hop, while there is one and the breadth allows it. -/
def tryAlternative : Option AwaitingResponseData :=
  match d.alternatives with
  | [] => none
  | target :: rest =>
    if d.attemptsAtHop < defaultMaxBreadth then
      some { d.markTried target.socketAddr with
        nextHop := target
        alternatives := rest
        attemptsAtHop := d.attemptsAtHop + 1 }
    else none

def tryNewCandidates (candidates : ContractInstanceId → VisitedPeers → List PeerKeyLocation) :
    Option AwaitingResponseData :=
  if d.retries < maxRetries then
    let visited := d.visited ++ d.triedPeers
    match candidates d.instanceId visited with
    | [] => none
    | target :: rest => some { d with
        retries := d.retries + 1
        nextHop := target
        triedPeers := target.socketAddr.toList
        alternatives := rest
        attemptsAtHop := 1
        visited := visited }
  else none

/-- Connected peers, added when the alternatives are used up, without those already asked. -/
def withFallbackPeers (probablyVisited : VisitedPeers → SocketAddr → Bool)
    (fallbackPeers : List PeerKeyLocation) : AwaitingResponseData :=
  if d.alternatives = [] then
    { d with alternatives := fallbackPeers.filter fun peer =>
        match peer.socketAddr with
        | none => false
        | some addr => addr ∉ d.triedPeers ∧ probablyVisited d.visited addr = false }
  else d

end AwaitingResponseData

namespace GetOp

/-- An operation started on this node, for a client or for the node itself. -/
def start (instanceId : ContractInstanceId) (fetchContract subscribe blockingSubscribe : Bool)
    (id : Transaction) : GetOp :=
  { id := id
    state := some (.prepareRequest ⟨instanceId, id, fetchContract, subscribe, blockingSubscribe⟩)
    result := none
    upstreamAddr := none
    localFallback := none
    autoFetch := false
    ackReceived := false
    speculativePaths := 0 }

/-- An operation that asks one given peer, with the message to send. -/
def startTargeted (instanceId : ContractInstanceId) (target : PeerKeyLocation)
    (maxHopsToLive : Nat) (id : Transaction) : GetOp × GetMsg :=
  let awaiting : AwaitingResponseData :=
    { instanceId := instanceId
      requester := none
      fetchContract := true
      retries := 0
      currentHop := maxHopsToLive
      subscribe := false
      blockingSubscribe := false
      nextHop := target
      triedPeers := target.socketAddr.toList
      alternatives := []
      attemptsAtHop := 1
      visited := [] }
  ({ id := id
     state := some (.awaitingResponse awaiting)
     result := none
     upstreamAddr := none
     localFallback := none
     autoFetch := true
     ackReceived := false
     speculativePaths := 0 }, awaiting.request id)

def received (id : Transaction) (source : Option SocketAddr) : GetOp :=
  { id := id
    state := some .receivedRequest
    result := none
    upstreamAddr := source
    localFallback := none
    autoFetch := false
    ackReceived := false
    speculativePaths := 0 }

variable (op : GetOp)

def finalized : Bool :=
  match op.state with
  | some (.finished _) => op.result.isSome
  | _ => false

/-- A client of this node asked for the contract: no peer, and not the node itself. -/
def isClientInitiated : Bool :=
  !op.autoFetch && match op.state with
    | some (.prepareRequest _) => true
    | some (.awaitingResponse data) => data.requester.isNone
    | _ => false

def toHostResult : Except GetFailure GetResult :=
  match op.result with
  | some result => .ok result
  | none => .error .didNotFinish

/-- The operation in a new state, its marks for speculative retries reset. -/
def moveTo (state : Option GetState) (result localFallback : Option GetResult) (autoFetch : Bool) : GetOp :=
  { op with
    state := state
    result := result
    localFallback := localFallback
    autoFetch := autoFetch
    ackReceived := false
    speculativePaths := 0 }

def finishWith (found : GetResult) : GetOp :=
  op.moveTo (some (.finished found.key)) (some found) none false

def retryWithNextAlternative (maxHopsToLive : Nat)
    (probablyVisited : VisitedPeers → SocketAddr → Bool) (fallbackPeers : List PeerKeyLocation) :
    Option (GetOp × GetMsg) :=
  match op.state with
  | some (.awaitingResponse data) =>
    let data := data.withFallbackPeers probablyVisited fallbackPeers
    match data.alternatives with
    | [] => none
    | target :: rest =>
      let attempts := data.attemptsAtHop + 1
      let visited := data.visited ++ target.socketAddr.toList
      let retryHtl := min (max (maxHopsToLive / max attempts 1) minRetryHtl) maxHopsToLive
      some ({ op with state := some (.awaitingResponse { data.markTried target.socketAddr with
          nextHop := target
          alternatives := rest
          attemptsAtHop := attempts
          visited := visited }) },
        .request op.id data.instanceId data.fetchContract retryHtl visited)
  | _ => none

end GetOp

/-- The transaction's part of keeping an operation: a completed or expired transaction keeps
nothing. -/
def GetNode.push {S : Type} (env : GetEnvironment S) (op : GetOp) (node : GetNode S) :
    Except OpError Unit × GetNode S :=
  match node.slot with
  | .completed => (.ok (), node)
  | .running =>
    if env.timedOut then (.ok (), { node with slot := .completed })
    else if env.newTransactionsOpen then (.ok (), { node with slot := .kept op })
    else (.error .notificationError, { node with slot := .absent })
  | _ =>
    if env.newTransactionsOpen then (.ok (), { node with slot := .kept op })
    else (.error .notificationError, node)

def GetNode.pop {S : Type} (env : GetEnvironment S) (node : GetNode S) :
    Except OpNotAvailable (Option GetOp) × GetNode S :=
  match node.slot with
  | .completed => (.error .completed, node)
  | .running =>
    if env.timedOut then (.error .completed, { node with slot := .completed })
    else (.error .running, node)
  | .absent => (.ok none, { node with slot := .running })
  | .kept op => (.ok (some op), { node with slot := .running })

variable {S α : Type}

def emit (e : Effect) : GetTask S Unit :=
  modify fun node => { node with effects := e :: node.effects }

def fail (e : OpError) : GetTask S α := throw (.failed e)

def orFail : Except OpError α → GetTask S α
  | .ok a => pure a
  | .error e => fail e

def complete : GetTask S Unit := modify fun node => { node with slot := .completed }

/-- The contract in a handler's response; code that was asked for has to be there. -/
def localValue (fetchContract : Bool) : Except ContractError ContractHandlerEvent → Option GetResult
  | .ok (.getResponse (some key) (.ok ⟨some state, contract⟩)) =>
    if fetchContract ∧ contract = none then none else some ⟨key, state, contract⟩
  | _ => none

namespace GetEnvironment
variable (env : GetEnvironment S)

def notifyContractHandler (ev : ContractHandlerEvent) :
    GetTask S (Except ContractError ContractHandlerEvent) := do
  emit (.contractHandler ev)
  let node ← get
  match env.handler.sendToHandler node.handler ev with
  | .panicked p => throw (.panicked p)
  | .ok (st, response) => do
    modify fun node => { node with handler := st }
    pure response

def push (op : GetOp) : GetTask S Unit := do
  let pushed ← modifyGet (GetNode.push env op)
  orFail pushed

/-- Keep the operation and give the event loop a message to route or to process. -/
def notifyOpChange (msg : GetMsg) (op : GetOp) : GetTask S Unit := do
  env.push op
  emit (.notification msg)
  if env.notificationsOpen then pure () else fail .notificationError

def sendWithStream (target : SocketAddr) (msg : GetMsg)
    (stream : Option (StreamId × List UInt8)) : GetTask S Unit := do
  emit (.send target msg stream)
  if env.sends target then pure () else fail .connError

/-- Start a prepared operation: the local copy is kept for the case that no peer has the contract,
and is the result when there is no peer to ask. -/
def requestGet (op : GetOp) (visited : VisitedPeers) : GetTask S Unit :=
  match op.state with
  | some (.prepareRequest data) => do
    let op := { op with id := data.id }
    let got ← env.notifyContractHandler (.getQuery data.instanceId data.fetchContract)
    match env.kClosestPotentiallyHosting data.instanceId visited, localValue data.fetchContract got with
    | [], some copy => env.push (op.finishWith copy)
    | [], none => fail .ringError
    | target :: rest, copy => do
      let awaiting : AwaitingResponseData :=
        { instanceId := data.instanceId
          requester := none
          fetchContract := data.fetchContract
          retries := 0
          currentHop := env.maxHopsToLive
          subscribe := data.subscribe
          blockingSubscribe := data.blockingSubscribe
          nextHop := target
          triedPeers := target.socketAddr.toList
          alternatives := rest
          attemptsAtHop := 1
          visited := visited }
      env.notifyOpChange (awaiting.request data.id)
        (op.moveTo (some (.awaitingResponse awaiting)) none copy op.autoFetch)
  | _ => fail .unexpectedOpState

def handleAbort (op : GetOp) : GetTask S Unit :=
  match op.state with
  | some (.awaitingResponse data) =>
    let data := data.markTried data.nextHop.socketAddr
    match data.tryAlternative.or (data.tryNewCandidates env.kClosestPotentiallyHosting) with
    | some data => do
      env.notifyOpChange (data.request op.id)
        (op.moveTo (some (.awaitingResponse data)) none op.localFallback op.autoFetch)
      fail .statePushed
    | none =>
      match op.localFallback, op.upstreamAddr with
      | some copy, _ => env.push (op.finishWith copy)
      | none, some _ => do
        env.notifyOpChange (.response op.id data.instanceId .notFound) (op.moveTo none none none false)
        fail .statePushed
      | none, none => env.push (op.moveTo none none none false)
  -- the state was taken to look at it and is not put back
  | _ => env.push { op with state := none }

end GetEnvironment

/-! How a GET operation handles requests and responses, and what becomes of the result. -/

inductive OperationResult where
  | completed
  | continueOp (op : GetOp)
  | sendAndContinue (msg : GetMsg) (nextHop : Option SocketAddr) (op : GetOp)
    (stream : Option (StreamId × List UInt8))
  | sendAndComplete (msg : GetMsg) (nextHop : Option SocketAddr) (stream : Option (StreamId × List UInt8))

structure GetOpResult where
  state : Option GetState
  msg : Option GetMsg
  result : Option GetResult
  autoFetch : Bool
  streamData : Option (StreamId × List UInt8)
  localFallback : Option GetResult

/-- A contract from the local store, as a response to the request for it. -/
def buildFallbackFoundResponse (id : Transaction) (instanceId : ContractInstanceId)
    (copy : GetResult) : GetMsg :=
  .response id instanceId (.found copy.key ⟨some copy.state, copy.contract⟩)

namespace GetOp
variable (op : GetOp)

def messageTarget : Option GetMsg → Option GetState → Option SocketAddr
  | some (.response _ _ _), _ => op.upstreamAddr
  | some (.responseStreaming _ _ _ _ _ _), _ => op.upstreamAddr
  | some (.request _ _ _ _ _), some (.awaitingResponse data) => data.nextHop.socketAddr
  | _, _ => none

def buildOpResult (params : GetOpResult) : OperationResult :=
  let nextHop := op.messageTarget params.msg params.state
  match params.msg, params.state with
  | some msg, some state => .sendAndContinue msg nextHop
      (op.moveTo (some state) params.result params.localFallback params.autoFetch)
      params.streamData
  | some msg, none => .sendAndComplete msg nextHop params.streamData
  | none, some state =>
    .continueOp (op.moveTo (some state) params.result params.localFallback params.autoFetch)
  | none, none => .completed

def servesRequests : Bool :=
  match op.state with
  | some .receivedRequest => true
  | some (.awaitingResponse _) => true
  | _ => false

def endWith (msg : GetMsg) (stream : Option (StreamId × List UInt8)) : OperationResult :=
  op.buildOpResult ⟨none, some msg, none, false, stream, none⟩

def notFound (instanceId : ContractInstanceId) : OperationResult :=
  op.endWith (.response op.id instanceId .notFound) none

def awaitFrom (data : AwaitingResponseData) : OperationResult :=
  op.buildOpResult ⟨some (.awaitingResponse data), some (data.request op.id), none, op.autoFetch,
    none, op.localFallback⟩

def finish (found : GetResult) (localFallback : Option GetResult) : OperationResult :=
  op.buildOpResult ⟨some (.finished found.key), none, some found, op.autoFetch, none, localFallback⟩

end GetOp

/-- The state the handler has equals the one that was received. -/
def stateMatches (value : WrappedState) : Except ContractError ContractHandlerEvent → Bool
  | .ok (.getResponse _ (.ok ⟨some localState, _⟩)) => localState = value
  | _ => false

def emitAll {S : Type} (es : List Effect) : GetTask S Unit :=
  modify fun node => { node with effects := es.reverse ++ node.effects }

namespace GetEnvironment
variable (env : GetEnvironment S) (op : GetOp)

def shouldUseStreaming (payloadSize : Nat) : Bool := env.streamingThreshold < payloadSize

def foundMessage (found : GetResult) : GetTask S (GetMsg × Option (StreamId × List UInt8)) :=
  let value : StoreResponse := ⟨some found.state, found.contract⟩
  match env.serializePayload ⟨found.key, value⟩ with
  | none => fail .notificationError
  | some bytes =>
    if env.shouldUseStreaming bytes.length then
      pure (.responseStreaming op.id found.key.id env.nextStreamId found.key bytes.length
        found.contract.isSome, some (env.nextStreamId, bytes))
    else pure (.response op.id found.key.id (.found found.key value), none)

def respondUpstream (found : GetResult) : GetTask S OperationResult := do
  let (msg, stream) ← env.foundMessage op found
  pure (op.endWith msg stream)

def tryForwardOrReturn (instanceId : ContractInstanceId) (htl : Nat) (fetchContract : Bool)
    (sender : Option PeerKeyLocation) (visited : VisitedPeers)
    (localFallback : Option GetResult) : GetTask S OperationResult :=
  let visited := visited ++ env.ownLocation.socketAddr.toList
  let newHtl := htl - 1
  let candidates := if newHtl = 0 then [] else env.kClosestPotentiallyHosting instanceId visited
  match candidates, op.upstreamAddr, localFallback with
  | target :: rest, _, _ =>
    let awaiting : AwaitingResponseData :=
      { instanceId := instanceId
        requester := sender
        fetchContract := fetchContract
        retries := 0
        currentHop := newHtl
        subscribe := false
        blockingSubscribe := false
        nextHop := target
        triedPeers := target.socketAddr.toList
        alternatives := rest
        attemptsAtHop := 1
        visited := visited }
    pure (op.buildOpResult ⟨some (.awaitingResponse awaiting), some (awaiting.request op.id), none,
      false, none, localFallback⟩)
  | [], some _, some copy =>
    pure (op.endWith (buildFallbackFoundResponse op.id instanceId copy) none)
  | [], some _, none => pure (op.notFound instanceId)
  | [], none, _ => do
    emit (.clientResult (.error (.noPeersToForward instanceId)))
    pure .completed

def serveLocally (copy : GetResult) : GetTask S OperationResult := do
  emitAll ((op.upstreamAddr.bind env.getPeerByAddr).toList.map fun peer =>
    .registerPeerInterest copy.key peer.pubKey)
  match op.state, op.upstreamAddr with
  | some .receivedRequest, some _ => env.respondUpstream op copy
  | some (.awaitingResponse _), some _ => env.respondUpstream op copy
  | _, _ => pure (op.finish copy op.localFallback)

/-- Tell the node upstream that the request is on its way, and forward it. -/
def forwardRequest (instanceId : ContractInstanceId) (htl : Nat) (fetchContract : Bool)
    (source : Option SocketAddr) (visited : VisitedPeers) (localFallback : Option GetResult) :
    GetTask S OperationResult := do
  emitAll (op.upstreamAddr.toList.map fun upstream =>
    .send upstream (.forwardingAck op.id instanceId) none)
  env.tryForwardOrReturn op instanceId htl fetchContract
    (source.bind env.getPeerLocationByAddr) visited localFallback

def lookUpAndServe (instanceId : ContractInstanceId) (htl : Nat) (fetchContract : Bool)
    (source : Option SocketAddr) (visited : VisitedPeers) : GetTask S OperationResult := do
  let visited := visited ++ env.ownLocation.socketAddr.toList ++ source.toList
  let got ← env.notifyContractHandler (.getQuery instanceId fetchContract)
  match op.state, op.upstreamAddr, localValue fetchContract got with
  | some .receivedRequest, some _, copy =>
    env.forwardRequest op instanceId htl fetchContract source visited (copy.or op.localFallback)
  | _, _, some copy => env.serveLocally op copy
  | _, _, none =>
    env.forwardRequest op instanceId htl fetchContract source visited op.localFallback

def processRequest (source : Option SocketAddr) (instanceId : ContractInstanceId)
    (fetchContract : Bool) (htl : Nat) (visited : VisitedPeers) : GetTask S OperationResult :=
  let htl := min htl (max env.maxHopsToLive 1)
  match op.state with
  | some (.finished _) => pure (op.buildOpResult
      ⟨op.state, none, op.result, op.autoFetch, none, op.localFallback⟩)
  | _ =>
    if htl = 0 then pure (op.notFound instanceId)
    else if env.build.debugAssertions ∧ op.servesRequests = false then throw (.panicked .assertion)
    else env.lookUpAndServe op instanceId htl fetchContract source visited

/-- Put the local copy back to the network after no peer had the contract. -/
def rehost (copy : GetResult) : GetTask S Unit :=
  match copy.contract with
  | none => pure ()
  | some code => do
    let put ← env.notifyContractHandler (.putQuery copy.key copy.state (some code))
    match put with
    | .ok (.putResponse (.ok _) _) => emit (.announceContractHosted copy.key)
    | _ => pure ()

/-- No peer is left to ask: the local copy is the answer, if there is one. -/
def giveUp (data : AwaitingResponseData) : GetTask S OperationResult :=
  match data.requester, op.localFallback with
  | some _, some copy =>
    pure (op.endWith (buildFallbackFoundResponse op.id data.instanceId copy) none)
  | some _, none => pure (op.notFound data.instanceId)
  | none, some copy => do
    env.rehost copy
    pure (op.finish copy none)
  | none, none => do
    emit (.clientResult (.error (if data.retries < maxRetries then .exhaustedPeers data.instanceId
      else .reachedMaxRetries data.instanceId)))
    pure .completed

def processNotFound (source : Option SocketAddr) (instanceId : ContractInstanceId) :
    GetTask S OperationResult :=
  match op.state with
  | some (.awaitingResponse data) =>
    let sender := source.bind env.getPeerLocationByAddr
    let data := data.markTried (sender.bind PeerKeyLocation.socketAddr)
    match data.tryAlternative.or (data.tryNewCandidates env.kClosestPotentiallyHosting) with
    | some next => pure (op.awaitFrom next)
    | none => env.giveUp op data
  | some .receivedRequest => pure (op.notFound instanceId)
  | _ => fail (.invalidTransition op.id)

def recordHosting (data : AwaitingResponseData) (found : GetResult) : GetTask S Unit := do
  let isNew := env.recordGetAccess found.key found.state.length
  emit (.recordGetAccess found.key found.state.length)
  emitAll (if isNew then
    [.announceContractHosted found.key, .registerLocalHosting found.key] else [])
  emitAll (if op.upstreamAddr = none ∧ (isNew ∨ env.isSubscribed found.key = false) then
    [.startSubscription found.key (data.subscribe && data.blockingSubscribe)] else [])

/-- Store a contract that was received, unless the local state is the same already or the code is
missing. -/
def cacheFound (data : AwaitingResponseData) (found : GetResult) : GetTask S Unit := do
  let localState ← env.notifyContractHandler (.getQuery found.key.id false)
  match stateMatches found.state localState, found.contract with
  | true, _ => env.recordHosting op data found
  | false, none => pure ()
  | false, some code => do
    let put ← env.notifyContractHandler (.putQuery found.key found.state (some code))
    match put with
    | .error _ => fail .contractError
    | .ok (.putResponse (.ok _) _) => env.recordHosting op data found
    | .ok (.putResponse (.error _) _) => pure ()
    | .ok _ => throw (.panicked .unreachableCode)

/-- Store a contract the node does not host; a failure is only logged. -/
def putUnlessHosting (found : GetResult) : GetTask S Unit :=
  if env.isHostingContract found.key then pure ()
  else do
    let _ ← env.notifyContractHandler (.putQuery found.key found.state found.contract)
    pure ()

def cacheAtRelay (found : GetResult) : GetTask S Unit :=
  match found.contract with
  | none => pure ()
  | some _ => env.putUnlessHosting found

def processFound (found : GetResult) : GetTask S OperationResult :=
  match op.state with
  | some (.awaitingResponse data) =>
    if data.fetchContract ∧ found.contract = none ∧ data.requester.isSome then do
      env.notifyOpChange (.response op.id found.key.id .notFound) (op.moveTo op.state none none false)
      fail .statePushed
    else do
      env.cacheFound op data found
      match op.upstreamAddr with
      | none => pure (op.finish found op.localFallback)
      | some _ => do
        env.cacheAtRelay found
        env.respondUpstream op found
  | _ => fail .unexpectedOpState

/-- A peer claims to have found the contract and sends no state. -/
def processEmptyFound (instanceId : ContractInstanceId) : OperationResult :=
  match op.upstreamAddr with
  | some _ => op.notFound instanceId
  | none => .completed

/-- Put an operation back whose stream was not there; it cannot fail for that. -/
def pushBack : GetTask S Unit :=
  match op.state with
  | none => pure ()
  | some state => do
    let _ ← Task.attempt (env.push (op.moveTo (some state) op.result op.localFallback false))
    pure ()

/-- Pass a large stream on while it still comes in, its announcement first. -/
def pipeUpstream (instanceId : ContractInstanceId) (key : ContractKey) (totalSize : Nat)
    (includesContract : Bool) : GetTask S Bool :=
  match op.upstreamAddr with
  | none => pure false
  | some upstream =>
    if env.shouldUseStreaming totalSize then do
      env.sendWithStream upstream (.responseStreaming op.id instanceId env.nextStreamId key totalSize
        includesContract) none
      emit (.pipeStream upstream env.nextStreamId)
      if env.pipes upstream then pure true else fail .connError
    else pure false

def cacheStreamed (payload : GetStreamingPayload) (includesContract : Bool) : GetTask S Unit :=
  match payload.value.state with
  | none => pure ()
  | some state => do
    env.putUnlessHosting ⟨payload.key, state, if includesContract then payload.value.contract else none⟩
    emit (.recordGetAccess payload.key state.length)

def processPayload (instanceId : ContractInstanceId) (key : ContractKey) (includesContract piping : Bool)
    (payload : GetStreamingPayload) : GetTask S OperationResult :=
  if payload.key ≠ key then fail (.invalidTransition op.id)
  else do
    env.cacheStreamed payload includesContract
    match op.upstreamAddr, payload.value.state, piping with
    | none, some state, _ => pure (op.finish ⟨key, state, payload.value.contract⟩ op.localFallback)
    | none, none, _ => fail (.invalidTransition op.id)
    | some _, _, true => pure .completed
    | some _, _, false => pure (op.endWith (.response op.id instanceId (.found key payload.value)) none)

def processStreaming (source : Option SocketAddr) (instanceId : ContractInstanceId)
    (streamId : StreamId) (key : ContractKey) (totalSize : Nat) (includesContract : Bool) :
    GetTask S OperationResult :=
  match source with
  | none => fail .unexpectedOpState
  | some peer =>
    match env.claimOrWait peer streamId with
    | .error .alreadyClaimed => do
      env.pushBack op
      fail (.opNotPresent op.id)
    | .error .timeout => do
      env.pushBack op
      fail .orphanStreamClaimFailed
    | .ok assembled => do
      let piping ← env.pipeUpstream op instanceId key totalSize includesContract
      match assembled, assembled.bind env.deserializePayload with
      | none, _ => fail .streamCancelled
      | some _, none => fail (.invalidTransition op.id)
      | some _, some payload =>
        env.processPayload op instanceId key includesContract piping payload

def processMessage (source : Option SocketAddr) : GetMsg → GetTask S OperationResult
  | .request _ instanceId fetchContract htl visited =>
    env.processRequest op source instanceId fetchContract htl visited
  | .response _ instanceId .notFound => env.processNotFound op source instanceId
  | .response _ _ (.found key ⟨some value, contract⟩) => env.processFound op ⟨key, value, contract⟩
  | .response _ instanceId (.found _ ⟨none, _⟩) => pure (processEmptyFound op instanceId)
  | .responseStreaming _ instanceId streamId key totalSize includesContract =>
    env.processStreaming op source instanceId streamId key totalSize includesContract
  | .responseStreamingAck _ _ => pure .completed
  | .forwardingAck _ _ => pure (.continueOp { op with ackReceived := true })

/-- The operation a message belongs to. Only a request or an acknowledgement of a stream starts a
new one; a message whose operation is not to be had is dropped. -/
def loadOrInit (source : Option SocketAddr) (msg : GetMsg) : GetTask S (Option GetOp) := do
  let popped ← modifyGet (GetNode.pop env)
  match popped, msg with
  | .error _, _ => pure none
  | .ok (some op), _ => pure (some op)
  | .ok none, .request id _ _ _ _ => pure (some (.received id source))
  | .ok none, .responseStreamingAck id _ => pure (some (.received id source))
  | .ok none, _ => pure none

/-- A finished operation goes to the client, at once or when its sub-operations are done. -/
def deliver : GetTask S (Option GetOp) :=
  if env.failedParent then do
    complete
    pure none
  else if env.allSubOperationsCompleted then do
    complete
    pure (some op)
  else do
    modify fun node => { node with awaitingSubOps := some op }
    pure none

def sendToTarget (nextHop : Option SocketAddr) (msg : GetMsg)
    (stream : Option (StreamId × List UInt8)) : GetTask S Unit :=
  match nextHop with
  | none => pure ()
  | some target => env.sendWithStream target msg stream

def handleOpResult (source : Option SocketAddr) :
    Except Stop OperationResult → GetTask S (Option GetOp)
  | .error (.failed .statePushed) => pure none
  | .error (.failed (.opNotPresent _)) => pure none
  | .error (.panicked reason) => throw (.panicked reason)
  | .error (.failed e) =>
    match source with
    | none => fail e
    | some addr => do
      emit (.sendAborted addr)
      fail (if env.sends addr then e else .connError)
  | .ok .completed => do
    complete
    pure none
  | .ok (.continueOp op) =>
    if op.finalized then env.deliver op
    else do
      env.push op
      pure none
  | .ok (.sendAndContinue msg nextHop op stream) =>
    if op.finalized then do
      complete
      env.sendToTarget nextHop msg stream
      pure (some op)
    else
      match nextHop with
      | some target => do
        env.push op
        env.sendWithStream target msg stream
        pure none
      | none =>
        -- only the broadcast of an update may be queued for the node itself
        if env.build.debugAssertions then throw (.panicked .assertion)
        else do
          env.notifyOpChange msg op
          pure none
  | .ok (.sendAndComplete msg nextHop stream) => do
    env.sendToTarget nextHop msg stream
    complete
    pure none

/-- Tell the client what became of its request, unless the operation belongs to another one. -/
def reportResult : Except Stop (Option GetOp) → GetTask S Unit
  | .ok none => pure ()
  | .ok (some op) => emitAll (if env.isSubOperation then [] else [.clientResult op.toHostResult])
  | .error (.panicked _) => pure ()
  | .error (.failed e) => do
    emitAll (if env.isSubOperation then [] else [.clientResult (.error (.operationError e))])
    complete

def handleMessage (source : Option SocketAddr) (msg : GetMsg) : GetTask S Unit := do
  let loaded ← env.loadOrInit source msg
  match loaded with
  | none => pure ()
  | some op => do
    let processed ← Task.attempt (env.processMessage op source msg)
    let reported ← Task.attempt (env.handleOpResult source processed)
    env.reportResult reported

def handleAbortedOp : GetTask S Unit := do
  let popped ← modifyGet (GetNode.pop env)
  match popped with
  | .ok (some op) => env.handleAbort op
  | _ => pure ()

def retryStalled (fallbackPeers : List PeerKeyLocation) : GetTask S Unit := do
  let node ← get
  match node.slot with
  | .kept op =>
    match op.retryWithNextAlternative env.maxHopsToLive env.probablyVisited fallbackPeers with
    | none => pure ()
    | some (retried, msg) => do
      modify fun node => { node with slot := .kept { retried with
        speculativePaths := retried.speculativePaths + 1
        ackReceived := false } }
      emit (.notification msg)
  | _ => pure ()

def subOperationsCompleted : GetTask S Unit := do
  let node ← get
  match node.awaitingSubOps with
  | none => pure ()
  | some op => do
    modify fun node => { node with awaitingSubOps := none }
    complete
    emit (.clientResult op.toHostResult)

def subOperationFailed : GetTask S Unit := do
  modify fun node => { node with awaitingSubOps := none }
  complete
  emit (.clientResult (.error .subOperationFailed))

end GetEnvironment

/-- What can happen to the transaction, each event with what the node is like at that time. -/
inductive GetEvent (S : Type) where
  | requestGet (env : GetEnvironment S) (id : Transaction) (instanceId : ContractInstanceId)
    (fetchContract subscribe blockingSubscribe : Bool) (visited : VisitedPeers)
  | targetedGet (env : GetEnvironment S) (id : Transaction) (instanceId : ContractInstanceId)
    (target : PeerKeyLocation)
  | message (env : GetEnvironment S) (source : Option SocketAddr) (msg : GetMsg)
  | aborted (env : GetEnvironment S)
  | stalled (env : GetEnvironment S) (fallbackPeers : List PeerKeyLocation)
  | subOperationsCompleted
  | subOperationFailed

namespace GetEvent

def task : GetEvent S → GetTask S Unit
  | requestGet env id instanceId fetchContract subscribe blockingSubscribe visited =>
    env.requestGet (.start instanceId fetchContract subscribe blockingSubscribe id) visited
  | targetedGet env id instanceId target =>
    let started := GetOp.startTargeted instanceId target env.maxHopsToLive id
    env.notifyOpChange started.2 started.1
  | message env source msg => env.handleMessage source msg
  | aborted env => env.handleAbortedOp
  | stalled env fallbackPeers => env.retryStalled fallbackPeers
  | subOperationsCompleted => GetEnvironment.subOperationsCompleted
  | subOperationFailed => GetEnvironment.subOperationFailed

end GetEvent

/-- The GET operation of a transaction, from before it starts. -/
def machine (S : Type) : Machine (GetNode S) (GetEvent S) where
  init node := node.slot = .absent ∧ node.awaitingSubOps = none ∧ node.effects = []
  step node e := some (Task.finalState e.task node)

end Freenet.Operations.Get
