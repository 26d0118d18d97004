import Freenet.Operations.ConnectOperation

/-! How a node handles the messages of a CONNECT operation, as the joiner that started it or as a
relay. -/
namespace Freenet.Operations.Connect
open Node Lib.Task Environment
open Get (Stop)

/-- What handling a message does besides changing the operation. -/
inductive Effect where
  | send (target : SocketAddr) (msg : ConnectMsg)
  | sendAborted (target : SocketAddr)
  | expectPeerConnection (addr : SocketAddr)
  | connectPeer (peer : PeerKeyLocation)
  | connected (peer : PeerKeyLocation)
  | recordForward (peer : PeerKeyLocation) (desired : Location) (success : Bool)
  | recordAcceptorFailure (addr : SocketAddr)
  | clearConnectExclusion (addr : SocketAddr)
  | setOwnAddr (addr : SocketAddr)
  | resetConnectJitterFailures
  | gatewaySuccess (addr : SocketAddr)
  | gatewayFailure (addr : SocketAddr)
  | connectionSuccess (target : Location)
  | connectionFailure (target : Option Location)
  | finished

/-- An operation while one of its messages is handled. The effects are in reverse order. -/
structure ConnectRun where
  op : ConnectOp
  effects : List Effect

abbrev ConnectTask (α : Type) := EStateM Stop ConnectRun α

structure JoinerAcceptance where
  newAcceptor : Option PeerKeyLocation
  satisfied : Bool

/-- The acceptor's address is filled in from where its response came from. -/
def ConnectResponse.fillAddr (payload : ConnectResponse) (source : Option SocketAddr) : ConnectResponse :=
  match payload.acceptor.socketAddr with
  | some _ => payload
  | none => ⟨⟨payload.acceptor.pubKey, source⟩⟩

def JoinerState.registerAcceptance (s : JoinerState) (response : ConnectResponse) :
    JoinerState × JoinerAcceptance :=
  let accepted := insert response.acceptor s.accepted
  ({ s with accepted := accepted },
    ⟨if response.acceptor ∈ s.accepted then none else some response.acceptor,
      s.targetConnections ≤ accepted.card⟩)

/-- Where a relay that has passed on a response sends the news that the connection failed. -/
def RelayState.downstream (s : RelayState) : Option SocketAddr :=
  if s.responseForwarded then s.forwardedTo.bind (·.socketAddr) else none

def RelayState.new (upstreamAddr : SocketAddr) (request : ConnectRequest) : RelayState :=
  ⟨upstreamAddr, request, none, false, false, false⟩

namespace ConnectOp

/-- The keys of the visited filter are restored here, but only in the state that the first request
replaces. -/
def newRelay (id : Transaction) (upstreamAddr : SocketAddr) (request : ConnectRequest) : ConnectOp where
  id := id
  state := some (.relaying (.new upstreamAddr { request with
    visited := request.visited.withTransaction id
    uphillBudget := min request.uphillBudget defaultUphillBudget }))
  firstHop := none
  desiredLocation := none
  recency := .empty
  forwardAttempts := []

def newJoiner (id : Transaction) (desiredLocation : Location) (targetConnections : Nat)
    (observedAddress : Option SocketAddr) (gateway : Option PeerKeyLocation) : ConnectOp where
  id := id
  state := some (.waitingForResponses ⟨targetConnections, observedAddress, ∅, observedAddress.isNone⟩)
  firstHop := gateway
  desiredLocation := some desiredLocation
  recency := .empty
  forwardAttempts := []

variable (op : ConnectOp)

def isCompleted : Bool :=
  match op.state with
  | some .completed => true
  | _ => false

def nextHopAddr : Option SocketAddr := op.firstHop.bind (·.socketAddr)

end ConnectOp

def emit (e : Effect) : ConnectTask Unit :=
  modify fun run => { run with effects := e :: run.effects }

def emitFor {α : Type} (a : Option α) (effect : α → Effect) : ConnectTask Unit :=
  match a with
  | none => pure ()
  | some a => emit (effect a)

def fail {α : Type} (error : OpError) : ConnectTask α := throw (.failed error)

def setState (state : ConnectState) : ConnectTask Unit :=
  modify fun run => { run with op := { run.op with state := some state } }

def recordForwardOutcome (peer : PeerKeyLocation) (desired : Location) (success : Bool) :
    ConnectTask Unit := do
  modify fun run => { run with op := { run.op with
    forwardAttempts := run.op.forwardAttempts.filter fun attempt => attempt.peer ≠ peer } }
  emit (.recordForward peer desired success)

/-- Tell the estimator how the forwarding to a peer ended, if the request was forwarded. -/
def recordForwarded (forwarded : Option PeerKeyLocation) (desired : Location) (success : Bool) :
    ConnectTask Unit :=
  match forwarded with
  | none => pure ()
  | some peer => recordForwardOutcome peer desired success

namespace Environment
variable (env : Environment)

def send (target : SocketAddr) (msg : ConnectMsg) : ConnectTask Unit :=
  if env.sends target then emit (.send target msg) else fail .connError

def notifyExpect (addr : SocketAddr) : ConnectTask Unit :=
  if env.expectsConnections then emit (.expectPeerConnection addr) else fail .notificationError

def notifyConnect (peer : PeerKeyLocation) : ConnectTask Unit :=
  if env.connectsPeers then emit (.connectPeer peer) else fail .notificationError

/-- Forward the request, and leave the neighbor alone for a while. -/
def forward (peer : PeerKeyLocation) (request : ConnectRequest) : ConnectTask Unit := do
  modify fun run => { run with op := { run.op with recency := run.op.recency.insert peer env.now } }
  match peer.socketAddr with
  | none => pure ()
  | some addr => do
    let run ← get
    env.send addr (.request run.op.id request)

def expireForwardAttempts : ConnectTask Unit := do
  let run ← get
  let expired := (run.op.forwardAttempts.filter fun attempt =>
    forwardAttemptTimeout ≤ env.now - attempt.sentAt).insertionSort fun a b => a.peer.pubKey ≤ b.peer.pubKey
  expired.forM fun attempt => recordForwardOutcome attempt.peer attempt.desired false

section Hashed
variable [SeededHash]

def lookAt (s : RelayState) : ConnectTask RelayActions := do
  let run ← get
  let turn := s.handleRequest env run.op.recency run.op.forwardAttempts
  set ({ run with op := { run.op with
    state := some (.relaying turn.state)
    forwardAttempts := turn.forwardAttempts } } : ConnectRun)
  pure turn.actions

def handleRequest (upstreamAddr : SocketAddr) (request : ConnectRequest) :
    ConnectTask RelayActions := do
  env.expireForwardAttempts
  let run ← get
  match run.op.state with
  | some (.relaying s) => env.lookAt { s with upstreamAddr := upstreamAddr, request := request }
  | _ => env.lookAt (.new upstreamAddr request)

def expectJoiner : Option PeerKeyLocation → ConnectTask Unit
  | none => pure ()
  | some peer =>
    match peer.socketAddr with
    | none => pure ()
    | some addr => do
      env.notifyExpect addr
      env.notifyConnect peer

def sendObserved (upstreamAddr : SocketAddr) : Option SocketAddr → ConnectTask Unit
  | none => pure ()
  | some address => do
    let run ← get
    env.send upstreamAddr (.observedAddress run.op.id address)

def forwardIfAny : Option (PeerKeyLocation × ConnectRequest) → ConnectTask Unit
  | none => pure ()
  | some (next, request) => env.forward next request

def reject (upstreamAddr : SocketAddr) (desiredLocation : Location) : ConnectTask Unit := do
  let run ← get
  env.send upstreamAddr (.rejected run.op.id desiredLocation)
  setState .completed

def respondIfAny (upstreamAddr : SocketAddr) : Option ConnectResponse → ConnectTask Unit
  | none => pure ()
  | some response => do
    let run ← get
    env.send upstreamAddr (.response run.op.id response)

def processRequest (payload : ConnectRequest) (source : Option SocketAddr) : ConnectTask Unit :=
  match source with
  | none => fail .connError
  | some upstreamAddr =>
    if env.admitsConnect then do
      let actions ← env.handleRequest upstreamAddr payload
      env.sendObserved upstreamAddr actions.observedAddress
      env.expectJoiner actions.expectConnectionFrom
      env.forwardIfAny actions.forward
      if actions.rejected then env.reject upstreamAddr payload.desiredLocation
      else env.respondIfAny upstreamAddr actions.acceptResponse
    else env.reject upstreamAddr payload.desiredLocation

def retry (s : RelayState) (giveUp : ConnectMsg) : ConnectTask Unit := do
  let actions ← env.lookAt s
  match actions.forward with
  | some (peer, request) => env.forward peer request
  | none =>
    match actions.acceptResponse with
    | some response => env.respondIfAny s.upstreamAddr (some response)
    | none => env.send s.upstreamAddr giveUp

def joinerRejected (op : ConnectOp) (desiredLocation : Location) : ConnectTask Unit := do
  emit (.connectionFailure (some desiredLocation))
  emitFor op.nextHopAddr .gatewayFailure
  setState .completed

def processRejected (desiredLocation : Location) : ConnectTask Unit := do
  let run ← get
  match run.op.state with
  | some (.waitingForResponses _) => joinerRejected run.op desiredLocation
  | some (.relaying s) => do
    recordForwarded s.forwardedTo desiredLocation false
    env.retry { s with forwardedTo := none } (.rejected run.op.id desiredLocation)
  | _ => pure ()

def processConnectFailed (failedAcceptorAddr : SocketAddr) : ConnectTask Unit := do
  let run ← get
  match run.op.state with
  | some (.relaying s) => do
    emit (.recordAcceptorFailure failedAcceptorAddr)
    match s.downstream with
    | some addr => do
      env.send addr (.connectFailed run.op.id failedAcceptorAddr)
      setState (.relaying { s with responseForwarded := false })
    | none => do
      recordForwarded s.forwardedTo s.request.desiredLocation false
      env.retry { s with
          request := { s.request with visited := s.request.visited.markVisited failedAcceptorAddr }
          forwardedTo := none
          responseForwarded := false }
        (.connectFailed run.op.id failedAcceptorAddr)
  | some (.waitingForResponses _) => do
    emit (.connectionFailure run.op.desiredLocation)
    setState .completed
  | _ => pure ()

end Hashed

def forgetRecency : Option PeerKeyLocation → ConnectTask Unit
  | none => pure ()
  | some peer =>
    modify fun run => { run with op := { run.op with recency := run.op.recency.remove peer } }

/-- The operation is completed as soon as the last acceptance that is needed is counted. -/
def completeIfSatisfied (s : JoinerState) (satisfied : Bool) : ConnectTask Unit :=
  if satisfied then
    if env.build.debugAssertions && s.startedWithoutAddress && s.observedAddress.isNone then
      throw (.panicked .assertion)
    else setState .completed
  else pure ()

def handleResponse (s : JoinerState) (payload : ConnectResponse) : ConnectTask JoinerAcceptance := do
  let registered := s.registerAcceptance payload
  setState (.waitingForResponses registered.1)
  forgetRecency registered.2.newAcceptor
  env.completeIfSatisfied registered.1 registered.2.satisfied
  pure registered.2

/-- Take an acceptor back after the hole punch failed, if the joiner still waits. -/
def takeBack (peer : PeerKeyLocation) (satisfied : Bool) : ConnectTask Bool := do
  let run ← get
  match run.op.state with
  | some (.waitingForResponses s) => do
    setState (.waitingForResponses { s with accepted := s.accepted.erase peer })
    pure (decide (s.targetConnections ≤ (s.accepted.erase peer).card))
  | _ => pure satisfied

def reportFailed (peer : PeerKeyLocation) : ConnectTask Unit := do
  let run ← get
  match peer.socketAddr, run.op.nextHopAddr with
  | some failedAddr, some gateway => env.send gateway (.connectFailed run.op.id failedAddr)
  | _, _ => pure ()

def expectAcceptor (peer : PeerKeyLocation) : ConnectTask Unit :=
  match peer.socketAddr with
  | none => pure ()
  | some addr => env.notifyExpect addr

def awaitConnection (peer : PeerKeyLocation) (satisfied : Bool) : ConnectTask Bool :=
  match env.connectResult peer with
  | some true => do
    emit (.connected peer)
    emitFor peer.socketAddr .clearConnectExclusion
    pure satisfied
  | _ => do
    let satisfied ← takeBack peer satisfied
    env.reportFailed peer
    pure satisfied

def connectAcceptor (acceptance : JoinerAcceptance) : ConnectTask Bool :=
  match acceptance.newAcceptor with
  | none => pure acceptance.satisfied
  | some peer => do
    env.expectAcceptor peer
    env.notifyConnect peer
    env.awaitConnection peer acceptance.satisfied

def joinerSatisfied : ConnectTask Unit := do
  setState .completed
  emit .resetConnectJitterFailures
  let run ← get
  emitFor run.op.nextHopAddr .gatewaySuccess
  emitFor run.op.desiredLocation .connectionSuccess

def joinerResponse (s : JoinerState) (payload : ConnectResponse) : ConnectTask Unit := do
  let acceptance ← env.handleResponse s payload
  let satisfied ← env.connectAcceptor acceptance
  if satisfied then joinerSatisfied else pure ()

def relayResponse (s : RelayState) (payload : ConnectResponse) : ConnectTask Unit := do
  recordForwarded s.forwardedTo s.request.desiredLocation true
  let run ← get
  env.send s.upstreamAddr (.response run.op.id payload)
  setState (.relaying { s with responseForwarded := true })

def processResponse (payload : ConnectResponse) (source : Option SocketAddr) : ConnectTask Unit := do
  let payload := payload.fillAddr source
  let run ← get
  match run.op.state with
  | some (.waitingForResponses s) => env.joinerResponse s payload
  | some (.relaying s) => env.relayResponse s payload
  | _ => pure ()

def noteObserved (address : SocketAddr) : ConnectTask Unit := do
  let run ← get
  match run.op.state with
  | some (.waitingForResponses s) =>
    setState (.waitingForResponses { s with observedAddress := some address })
  | _ => pure ()

def processObservedAddress (address : SocketAddr) : ConnectTask Unit := do
  noteObserved address
  emit (.setOwnAddr address)

def processMessage [SeededHash] (msg : ConnectMsg) (source : Option SocketAddr) : ConnectTask Unit :=
  match msg with
  | .request _ payload => env.processRequest payload source
  | .response _ payload => env.processResponse payload source
  | .observedAddress _ address => processObservedAddress address
  | .rejected _ desiredLocation => env.processRejected desiredLocation
  | .connectFailed _ failedAcceptorAddr => env.processConnectFailed failedAcceptorAddr

end Environment

/-- A node with the operation that its operation manager keeps for the transaction. -/
structure ConnectNode where
  op : Option ConnectOp
  effects : List Effect

/-- The operation a message belongs to; only a request starts one. -/
def loadOrInit (kept : Option ConnectOp) (msg : ConnectMsg) (source : Option SocketAddr) :
    Option ConnectOp :=
  match kept, msg, source with
  | some op, _, _ => some op
  | none, .request id payload, some upstreamAddr => some (.newRelay id upstreamAddr payload)
  | none, _, _ => none

/-- An address that others observed is taken over even if there is no operation for it. -/
def ConnectMsg.unclaimed : ConnectMsg → List Effect
  | .observedAddress _ address => [.setOwnAddr address]
  | _ => []

namespace Environment
variable (env : Environment)

/-- Put the operation back, unless it is over. -/
def finish (run : ConnectRun) : ConnectNode :=
  if run.op.isCompleted then ⟨none, .finished :: run.effects⟩
  else ⟨if env.keepsOp then some run.op else none, run.effects⟩

def abort (source : Option SocketAddr) (run : ConnectRun) : ConnectNode :=
  match source with
  | none => ⟨none, run.effects⟩
  | some addr =>
    ⟨none, if env.sends addr then .sendAborted addr :: run.effects else run.effects⟩

/-- Take the operation out of the operation manager, process the message, and handle the result. -/
def handle [SeededHash] (node : ConnectNode) (msg : ConnectMsg) (source : Option SocketAddr) : ConnectNode :=
  match if env.popsOp then loadOrInit node.op msg source else none with
  | none => { node with effects := msg.unclaimed ++ node.effects }
  | some op =>
    match env.processMessage msg source ⟨op, node.effects⟩ with
    | .ok _ run => env.finish run
    | .error (.failed _) run => env.abort source run
    | .error (.panicked _) run => ⟨none, run.effects⟩

end Environment

/-- Whom the joiner marks as visited before it sends its request. -/
def marksOfJoiner (own target : PeerKeyLocation) (excludeAddrs : List SocketAddr) : List SocketAddr :=
  own.socketAddr.toList ++ target.socketAddr.toList ++ excludeAddrs

/-- The joiner's operation and the request it sends to the target. -/
def initiateJoinRequest [SeededHash] (tx : Transaction) (own target : PeerKeyLocation)
    (desiredLocation : Location) (ttl targetConnections : Nat) (excludeAddrs : List SocketAddr) :
    ConnectOp × ConnectRequest :=
  let visited := VisitedPeers.new tx
  let visited := match own.socketAddr with
    | none => visited
    | some addr => visited.markVisited addr
  let visited := match target.socketAddr with
    | none => visited
    | some addr => visited.markVisited addr
  let visited := excludeAddrs.foldl VisitedPeers.markVisited visited
  (.newJoiner tx desiredLocation targetConnections own.socketAddr (some target),
    ⟨desiredLocation, ⟨own.pubKey, none⟩, ttl, visited, defaultUphillBudget⟩)

def joinTransaction : Transaction := .new .connect 256

/-- A property that does not depend on when and to whom the operation forwarded, and that the
effects in `Quiet` do not disturb. -/
structure Framed (Inv : ConnectRun → Prop) (Quiet : Effect → Prop) : Prop where
  bookkeeping : ∀ run recency forwardAttempts, Inv run →
    Inv { run with op := { run.op with recency := recency, forwardAttempts := forwardAttempts } }
  emit : ∀ run e, Quiet e → Inv run → Inv { run with effects := e :: run.effects }

namespace Framed
variable {Inv : ConnectRun → Prop} {Quiet : Effect → Prop} (hF : Framed Inv Quiet)
  {env : Environment}
include hF

theorem keeps_emit {e : Effect} (he : Quiet e) : Preserves Inv (Connect.emit e) :=
  keeps_modify fun run hrun => hF.emit run e he hrun

theorem keeps_emitFor {α : Type} {a : Option α} {effect : α → Effect}
    (he : ∀ a, Quiet (effect a)) : Preserves Inv (emitFor a effect) := by
  cases a with
  | none => exact keeps_done
  | some a => exact hF.keeps_emit (he a)

theorem keeps_send {target : SocketAddr} {msg : ConnectMsg} (he : Quiet (.send target msg)) :
    Preserves Inv (env.send target msg) := by
  unfold send
  split_ifs
  · exact hF.keeps_emit he
  · exact keeps_throw

theorem keeps_notifyExpect {addr : SocketAddr} (he : Quiet (.expectPeerConnection addr)) :
    Preserves Inv (env.notifyExpect addr) := by
  unfold notifyExpect
  split_ifs
  · exact hF.keeps_emit he
  · exact keeps_throw

variable {peer : PeerKeyLocation}

theorem keeps_notifyConnect (he : Quiet (.connectPeer peer)) : Preserves Inv (env.notifyConnect peer) := by
  unfold notifyConnect
  split_ifs
  · exact hF.keeps_emit he
  · exact keeps_throw

variable {upstreamAddr : SocketAddr} {desired : Location} {success : Bool}

theorem keeps_recordForwardOutcome (he : Quiet (.recordForward peer desired success)) :
    Preserves Inv (recordForwardOutcome peer desired success) := by
  have hremove : Preserves Inv (modify fun run => { run with op := { run.op with
      forwardAttempts := run.op.forwardAttempts.filter fun attempt => attempt.peer ≠ peer } } :
        ConnectTask Unit) :=
    keeps_modify fun run hrun => hF.bookkeeping run run.op.recency _ hrun
  exact hremove.andThen (hF.keeps_emit he)

theorem keeps_recordForwarded {forwarded : Option PeerKeyLocation}
    (he : ∀ peer, Quiet (.recordForward peer desired success)) :
    Preserves Inv (recordForwarded forwarded desired success) := by
  cases forwarded with
  | none => exact keeps_done
  | some peer => exact hF.keeps_recordForwardOutcome (he peer)

theorem keeps_expireForwardAttempts (he : ∀ peer desired, Quiet (.recordForward peer desired false)) :
    Preserves Inv env.expireForwardAttempts := by
  have hall : ∀ attempts : List ForwardAttempt, Preserves Inv
      (attempts.forM fun attempt => recordForwardOutcome attempt.peer attempt.desired false) := by
    intro attempts
    induction attempts with
    | nil => exact keeps_done
    | cons attempt attempts ih =>
      exact (hF.keeps_recordForwardOutcome (he attempt.peer attempt.desired)).andThen ih
  exact keeps_get.bind fun run _ => hall _

theorem keeps_forward {request : ConnectRequest}
    (he : ∀ addr id, peer.socketAddr = some addr → Quiet (.send addr (.request id request))) :
    Preserves Inv (env.forward peer request) := by
  have hrecency : Preserves Inv (modify fun run => { run with op := { run.op with
      recency := run.op.recency.insert peer env.now } } : ConnectTask Unit) :=
    keeps_modify fun run hrun => hF.bookkeeping run _ run.op.forwardAttempts hrun
  unfold forward
  cases haddr : peer.socketAddr with
  | none => exact hrecency.andThen keeps_done
  | some addr =>
    refine hrecency.andThen (keeps_get.bind ?_)
    intro run _
    exact hF.keeps_send (he addr run.op.id haddr)

theorem keeps_forwardIfAny {forward : Option (PeerKeyLocation × ConnectRequest)}
    (he : ∀ peer request, forward = some (peer, request) →
      ∀ addr id, peer.socketAddr = some addr → Quiet (.send addr (.request id request))) :
    Preserves Inv (env.forwardIfAny forward) := by
  cases forward with
  | none => exact keeps_done
  | some next => exact hF.keeps_forward (he next.1 next.2 rfl)

theorem keeps_sendObserved {observed : Option SocketAddr}
    (he : ∀ id address, Quiet (.send upstreamAddr (.observedAddress id address))) :
    Preserves Inv (env.sendObserved upstreamAddr observed) := by
  cases observed with
  | none => exact keeps_done
  | some address => exact keeps_get.bind fun run _ => hF.keeps_send (he run.op.id address)

theorem keeps_respondIfAny {response : Option ConnectResponse}
    (he : ∀ id payload, response = some payload → Quiet (.send upstreamAddr (.response id payload))) :
    Preserves Inv (env.respondIfAny upstreamAddr response) := by
  cases response with
  | none => exact keeps_done
  | some payload =>
    exact keeps_get.bind fun run _ => hF.keeps_send (he run.op.id payload rfl)

theorem keeps_expectJoiner {joiner : Option PeerKeyLocation}
    (he : ∀ addr, Quiet (.expectPeerConnection addr)) (hc : ∀ peer, Quiet (.connectPeer peer)) :
    Preserves Inv (env.expectJoiner joiner) := by
  cases joiner with
  | none => exact keeps_done
  | some peer =>
    unfold expectJoiner
    dsimp only
    cases peer.socketAddr with
    | none => exact keeps_done
    | some addr => exact (hF.keeps_notifyExpect (he addr)).andThen (hF.keeps_notifyConnect (hc peer))

end Framed
end Freenet.Operations.Connect
