import Freenet.Lib.Machine
import Freenet.Transport.Handshake

/-! The UDP listener: one step of its select loop for each thing it can wake up for. -/
namespace Freenet.Transport
open Lib List

section Datagrams
structure GwTask where
  remoteAddr : SocketAddr
  introPacket : Packet
  inboundKeyBytes : List UInt8
  deriving DecidableEq

structure NatTask where
  remoteAddr : SocketAddr
  deriving DecidableEq

structure Listener where
  connections : ConnectionStateManager
  outdatedPeer : Table SocketAddr Nat
  gwRateLimiter : GatewayConnectionRateLimiter
  gwConnectionTasks : List GwTask
  connectionTasks : List NatTask
  expectedNonGateway : Table IpAddr Unit
  lastCleanupNanos : Nat
  nextChannel : FastSender

/-- What the listener reads from outside during one step: the clock, the channels it sends to and
the key bytes drawn for a remote address. -/
structure Env where
  now : Nat
  status : FastSender → ChannelStatus
  inboundKeyBytes : List UInt8

inductive Route where
  | dropped
  | toEstablished (sender : FastSender)
  | toGatewayHandshake (sender : FastSender)
  | toNatTraversal (sender : FastSender)
  | startedHandshake
  deriving DecidableEq, Repr

namespace Listener
variable (cfg : ListenerConfig) (env : Env) (l : Listener)

/-- The address is marked as running an incompatible version and the mark has not expired. -/
def isOutdated (addr : SocketAddr) (now : Nat) : Bool :=
  match l.outdatedPeer.get addr with
  | some timeNanos => now - timeNanos < outdatedPeerExpiry
  | none => false

/-- The gate for peers marked as outdated: only an intro packet that shows a compatible version
lifts the mark before it expires. The flag is whether the packet is looked at further. -/
def outdatedGate (addr : SocketAddr) (p : Packet) : Outcome (Listener × Bool) := do
  if l.isOutdated addr env.now then
    if !p.isIntroPacket then return (l, false)
    else if l.connections.isRateLimited addr env.now then return (l, false)
    else
      let l := { l with connections := l.connections.recordAsymAttempt addr env.now }
      if ← announcesCompatibleVersion cfg.secret p then
        return ({ l with
          outdatedPeer := l.outdatedPeer.remove addr
          connections := l.connections.clearRateLimit addr }, true)
      else return (l, false)
  else return ({ l with outdatedPeer := l.outdatedPeer.remove addr }, true)

def isNewIdentity (addr : SocketAddr) (p : Packet) : Outcome (Listener × Bool) := do
  if cfg.isGateway && p.isIntroPacket then
    if l.connections.isRateLimited addr env.now then return (l, false)
    else
      let l := { l with connections := l.connections.recordAsymAttempt addr env.now }
      return (l, ← announcesCompatibleVersion cfg.secret p)
  else return (l, false)

/-- Hand a packet to the receiver of an established connection. -/
def sendEstablished (addr : SocketAddr) (sender : FastSender) : Listener × Route :=
  let result := l.connections.trySendEstablished addr env.status env.now
  ({ l with connections := result.1 }, if result.2 = some true then .toEstablished sender else .dropped)

def routeByState (addr : SocketAddr) (p : Packet) : Outcome (Listener × Option Route) := do
  match l.connections.getState addr with
  | some (.established sender) =>
    let (l, newIdentity) ← l.isNewIdentity cfg env addr p
    if newIdentity then
      let connections := (l.connections.clearRateLimit addr).removeEstablished addr
      return ({ l with connections := connections.1 }, none)
    else
      let result := l.sendEstablished env addr sender
      return (result.1, some result.2)
  | some (.gatewayHandshake sender) =>
    if p.isIntroPacket then return (l, some .dropped)
    else if env.status sender = .open then return (l, some (.toGatewayHandshake sender))
    else return (l, some .dropped)
  | some (.natTraversal sender _) =>
    if p.isIntroPacket && l.connections.isRateLimited addr env.now then return (l, some .dropped)
    else
      let l := if p.isIntroPacket then
        { l with connections := l.connections.recordAsymAttempt addr env.now } else l
      -- this send waits for room, so only a closed receiver loses the packet
      if env.status sender = .disconnected then return (l, some .dropped)
      else return (l, some (.toNatTraversal sender))
  | some (.recentlyClosed _) =>
    if !p.isIntroPacket || !cfg.isGateway then return (l, some .dropped) else return (l, none)
  | none => return (l, none)

/-- Record the attempt and spawn a handshake task, unless the state of the address forbids it. -/
def startHandshake (addr : SocketAddr) (p : Packet) : Listener × Route :=
  let recorded := l.connections.recordAsymAttempt addr env.now
  let started := recorded.startGatewayHandshake addr l.nextChannel env.now
  let l' := { l with connections := started.1, nextChannel := l.nextChannel + 1 }
  if started.2 then
    ({ l' with gwConnectionTasks := l.gwConnectionTasks ++ [⟨addr, p, env.inboundKeyBytes⟩] },
      .startedHandshake)
  else (l', .dropped)

def limitIntro (addr : SocketAddr) (p : Packet) : Listener × Route :=
  if !p.isIntroPacket then (l, .dropped)
  else if l.connections.isRateLimited addr env.now then (l, .dropped)
  else
    let accepted := l.gwRateLimiter.tryAccept env.now
    let l' := { l with gwRateLimiter := accepted.1 }
    if accepted.2 then l'.startHandshake env addr p else (l', .dropped)

def handleUnknown (addr : SocketAddr) (p : Packet) : Listener × Route :=
  if cfg.isGateway then
    if l.connections.hasGatewayHandshake addr then (l, .dropped)
    else
      { l with connections := l.connections.removeStaleFromIp addr env.status }.limitIntro env addr p
  else ({ l with expectedNonGateway := l.expectedNonGateway.insert addr.ip () }, .dropped)

def handlePacket (addr : SocketAddr) (p : Packet) : Outcome (Listener × Route) := do
  let (l, proceed) ← l.outdatedGate cfg env addr p
  if !proceed then return (l, .dropped)
  else
    let (l, routed) ← l.routeByState cfg env addr p
    match routed with
    | some route => return (l, route)
    | none => return l.handleUnknown cfg env addr p

/-- The packet of a datagram; the socket cuts it to the receive buffer. -/
def packetOf (datagram : List UInt8) : Outcome Packet :=
  PacketData.fromBuf .unknownEncryption maxRecvPacketSize (datagram.take maxRecvPacketSize)

def handleDatagram (addr : SocketAddr) (datagram : List UInt8) : Outcome (Listener × Route) := do
  l.handlePacket cfg env addr (← packetOf datagram)

theorem packetOf_eq (datagram : List UInt8) :
    ∃ p, packetOf datagram = .ok p ∧ p.data = datagram.take maxRecvPacketSize :=
  PacketData.fromBuf_of_le _ _ _ (length_take_le _ _)

end Listener

inductive JoinError where
  | cancelled
  | panicked
  deriving DecidableEq, Repr

/-- How a gateway handshake task ends: it runs to its end on what it receives, or it is cancelled
or panics somewhere on the way. -/
inductive GwTaskEnding where
  | ran (sent : Bool) (reply : HandshakeReply)
  | aborted (error : JoinError)
  deriving DecidableEq

/-- How a NAT traversal task ends. A success on the inbound path comes from the remote's intro
packet, one on the outbound path from an acknowledgement of our own. -/
inductive NatTaskEnding where
  | connected (introPacket : Option Packet)
  | failed (error : TransportError)
  | aborted (error : JoinError)
  deriving DecidableEq

inductive ListenerEvent where
  | datagram (remoteAddr : SocketAddr) (bytes : List UInt8)
  | recvError (fatal : Bool)
  | gwTaskEnds (index : Nat) (ending : GwTaskEnding) (notifierOpen : Bool)
  | natTaskEnds (index : Nat) (ending : NatTaskEnding)
  | connectionStart (remoteAddr : SocketAddr) (openConnection : ResultSender)
  | handlerClosed
  | cleanup

namespace Listener
variable (cfg : ListenerConfig) (env : Env) (l : Listener)

def joinGwTask (task : GwTask) : GwTaskEnding → Except JoinError (Except TransportError Unit)
  | .aborted e => .error e
  | .ran sent reply =>
    match gatewayConnection cfg task.introPacket task.inboundKeyBytes sent reply with
    | .ok result => .ok result
    | .panicked _ => .error .panicked

/-- A finished gateway task. `none` ends the loop: nobody takes new connections any more. -/
def finishGwTask (task : GwTask) (result : Except JoinError (Except TransportError Unit))
    (notifierOpen : Bool) : Option Listener :=
  match result with
  | .error _ => some l
  | .ok (.ok ()) =>
    let completed := l.connections.completeGatewayHandshake task.remoteAddr l.nextChannel
    if completed.2 && !notifierOpen then none
    else some { l with connections := completed.1, nextChannel := l.nextChannel + 1 }
  | .ok (.error e) =>
    let outdatedPeer := match e with
      | .protocolVersionMismatch _ _ => l.outdatedPeer.insert task.remoteAddr env.now
      | _ => l.outdatedPeer
    some { l with outdatedPeer, connections := l.connections.failGatewayHandshake task.remoteAddr }

def finishNatTask (task : NatTask) : NatTaskEnding → Listener
  | .aborted _ => l
  | .connected _ =>
    { l with
      expectedNonGateway := l.expectedNonGateway.remove task.remoteAddr.ip
      connections := (l.connections.completeNatTraversal task.remoteAddr l.nextChannel).1
      nextChannel := l.nextChannel + 1 }
  | .failed _ =>
    { l with
      expectedNonGateway := l.expectedNonGateway.remove task.remoteAddr.ip
      connections := (l.connections.failNatTraversal task.remoteAddr).1 }

def handleConnectionStart (addr : SocketAddr) (openConnection : ResultSender) : Listener :=
  if l.connections.hasNatTraversal addr then l
  else
    let started := l.connections.startNatTraversal addr l.nextChannel openConnection env.now
    let l' := { l with connections := started.1, nextChannel := l.nextChannel + 1 }
    if started.2 then
      { l' with
        expectedNonGateway := l.expectedNonGateway.insert addr.ip ()
        connectionTasks := l.connectionTasks ++ [⟨addr⟩] }
    else l'

def handleCleanup : Listener :=
  { l with
    connections := l.connections.cleanupExpired env.now
    lastCleanupNanos := env.now
    outdatedPeer := l.outdatedPeer.retain fun _ timestamp => env.now - outdatedPeerExpiry < timestamp }

/-- A NAT traversal that connected through the remote's intro packet accepted that packet. -/
def natEndingPossible : NatTaskEnding → Bool
  | .connected (some p) => acceptsIntro cfg.secret p.data
  | _ => true

/-- One turn of the select loop; `none` when the event cannot happen or the loop ends. -/
def step : ListenerEvent → Option Listener
  | .datagram addr bytes =>
    match l.handleDatagram cfg env addr bytes with
    | .ok (l, _) => some l
    | .panicked _ => none
  | .recvError fatal => if fatal then none else some l
  | .gwTaskEnds index ending notifierOpen =>
    match l.gwConnectionTasks[index]? with
    | none => none
    | some task =>
      { l with gwConnectionTasks := l.gwConnectionTasks.eraseIdx index }.finishGwTask env task
        (joinGwTask cfg task ending) notifierOpen
  | .natTaskEnds index ending =>
    match l.connectionTasks[index]? with
    | none => none
    | some task =>
      if natEndingPossible cfg ending then
        some ({ l with connectionTasks := l.connectionTasks.eraseIdx index }.finishNatTask task ending)
      else none
  | .connectionStart addr openConnection => some (l.handleConnectionStart env addr openConnection)
  | .handlerClosed => none
  | .cleanup =>
    if rateLimitCleanupInterval ≤ env.now - l.lastCleanupNanos then some (l.handleCleanup env)
    else none

def Initial : Prop :=
  l.connections = .new ∧ l.outdatedPeer = .empty ∧ l.gwConnectionTasks = [] ∧ l.connectionTasks = []

end Listener

def listenerMachine (cfg : ListenerConfig) : Machine Listener (Env × ListenerEvent) where
  init := Listener.Initial
  step l e := l.step cfg e.1 e.2

def transparentGateway : ListenerConfig :=
  ⟨⟨false, false⟩, true, TransportSecretKey.transparent, fun _ => Aes128Gcm.transparent⟩

def peerAddr : SocketAddr := ⟨.v4 1, 1⟩

/-- The intro packet of a peer of the current version, under the transparent key. -/
def introDatagram : List UInt8 :=
  packetTypeIntro :: replicate 48 0 ++ [0xFF, 0, 2, 0, 14, 0, 13, 1] ++ replicate 16 7

theorem length_symmetricBytes :
    (packetTypeSymmetric :: replicate 1499 0).length = maxRecvPacketSize := by
  rw [length_cons, length_replicate, maxRecvPacketSize]

/-- A packet with room for nonce and tag, which the transparent cipher decrypts. -/
def symmetricPacket : Packet :=
  ⟨packetTypeSymmetric :: replicate 1499 0, 29, length_symmetricBytes, by decide⟩

def startingListener : Listener := ⟨.new, .empty, .new 0, [], [], .empty, 0, 0⟩

def envAt (now : Nat) : Env := ⟨now, fun _ => .open, []⟩

def establishSession : List (Env × ListenerEvent) :=
  [(envAt 0, .datagram peerAddr introDatagram),
    (envAt 1, .gwTaskEnds 0 (.ran true (.packet symmetricPacket)) true)]

/-! What becomes of one datagram, from the listener to the decryption. -/
open Outcome

/-- Decryption failures close a connection when more than this many fall into one window. -/
def natTraversalMaxAttempts : Nat := 40
def failureTimeWindow : Nat := 30 * 10 ^ 9

/-- The part of a peer connection that decrypts what the listener forwards. -/
structure InboundCipher where
  inboundSymmetricKey : Aes128Gcm
  transportSecretKey : TransportSecretKey
  failureCount : Nat
  firstFailureTimeNanos : Option Nat

inductive InboundResult where
  | decrypted (p : PacketData .symmetricAes maxRecvPacketSize)
  | introAcknowledged
  | ignored
  | connectionClosed
  deriving DecidableEq

namespace InboundCipher
variable (conn : InboundCipher)

def countFailure (now : Nat) : InboundCipher :=
  match conn.firstFailureTimeNanos with
  | some first =>
    if now - first ≤ failureTimeWindow then { conn with failureCount := conn.failureCount + 1 }
    else { conn with failureCount := 1, firstFailureTimeNanos := some now }
  | none => { conn with failureCount := 1, firstFailureTimeNanos := some now }

def rejectPacket (now : Nat) : InboundCipher × InboundResult :=
  let conn' := conn.countFailure now
  (conn', if natTraversalMaxAttempts < conn'.failureCount then .connectionClosed else .ignored)

/-- The decrypting half of the inbound arm of `recv`. -/
def decryptInbound (build : Build) (now : Nat) (p : Packet) :
    Outcome (InboundCipher × InboundResult) := do
  match ← p.tryDecryptSym build conn.inboundSymmetricKey with
  | .ok decrypted => return (conn, .decrypted decrypted)
  | .error _ =>
    if p.isIntroPacket then
      match ← conn.transportSecretKey.decrypt p.data with
      | .ok _ => return (conn, .introAcknowledged)
      | .error _ => return conn.rejectPacket now
    else return conn.rejectPacket now

theorem decryptInbound_returns_iff (build : Build) (now : Nat) (p : Packet) :
    (conn.decryptInbound build now p).Returns ↔ ¬ p.TruncatedSymmetric := by
  rw [← p.tryDecryptSym_returns_iff build conn.inboundSymmetricKey (by decide)]
  unfold decryptInbound
  rw [returns_bind_iff]
  constructor
  · rintro ⟨r, hr, -⟩
    exact ⟨r, hr⟩
  · rintro ⟨r, hr⟩
    refine ⟨r, hr, ?_⟩
    cases r with
    | ok decrypted => simp
    | error e =>
      split_ifs with hintro
      · rw [TransportSecretKey.decrypt_eq_opened]
        cases conn.transportSecretKey.opened p.data <;> simp
      · simp

end InboundCipher

/-- Who takes a packet the listener forwards: the connection of the address, or its handshake task
with what that task captured and whether its acknowledgement was sent. -/
structure Consumers where
  connection : InboundCipher
  handshake : GwTask
  ackSent : Bool

inductive Reception where
  | notForwarded
  | byConnection (result : InboundResult)
  | byHandshake (result : Except TransportError Unit)

namespace Listener
variable (cfg : ListenerConfig) (env : Env) (l : Listener) (dest : Consumers)

def consume (p : Packet) : Route → Outcome Reception
  | .toEstablished _ => do
    let result ← dest.connection.decryptInbound cfg.build env.now p
    return .byConnection result.2
  | .toGatewayHandshake _ => do
    let result ← gatewayConnection cfg dest.handshake.introPacket dest.handshake.inboundKeyBytes
      dest.ackSent (.packet p)
    return .byHandshake result
  | _ => return .notForwarded

def receiveDatagram (addr : SocketAddr) (datagram : List UInt8) : Outcome Reception := do
  let p ← packetOf datagram
  let routed ← l.handlePacket cfg env addr p
  consume cfg env dest p routed.2

variable (addr : SocketAddr) (p : Packet)

theorem outdatedGate_returns : (l.outdatedGate cfg env addr p).Returns := by
  unfold outdatedGate
  simp only [announcesCompatibleVersion_eq, ok_bind]
  split_ifs <;> simp

theorem isNewIdentity_returns : (l.isNewIdentity cfg env addr p).Returns := by
  unfold isNewIdentity
  simp only [announcesCompatibleVersion_eq]
  split_ifs <;> simp

theorem routeByState_returns : (l.routeByState cfg env addr p).Returns := by
  unfold routeByState
  cases l.connections.getState addr with
  | none => simp
  | some state =>
    cases state with
    | established sender =>
      obtain ⟨⟨l₁, newIdentity⟩, h⟩ := l.isNewIdentity_returns cfg env addr p
      simp only [h, ok_bind]
      split_ifs <;> simp
    | gatewayHandshake sender | natTraversal sender result | recentlyClosed closedAt =>
      dsimp only
      split_ifs <;> simp

theorem handlePacket_returns : (l.handlePacket cfg env addr p).Returns := by
  unfold handlePacket
  obtain ⟨⟨l₁, proceed⟩, hgate⟩ := l.outdatedGate_returns cfg env addr p
  rw [hgate]
  cases proceed with
  | false => simp
  | true =>
    obtain ⟨⟨l₂, routed⟩, hroute⟩ := l₁.routeByState_returns cfg env addr p
    simp only [Bool.not_true, hroute, ok_bind]
    cases routed <;> simp

/-- The listener keeps the packets of this address from the receiver behind `sender`. -/
def Withholds (addr : SocketAddr) (sender : FastSender) : Prop :=
  l.isOutdated addr env.now = true ∨ env.status sender ≠ .open

instance (addr : SocketAddr) (sender : FastSender) : Decidable (l.Withholds env addr sender) :=
  inferInstanceAs (Decidable (_ ∨ _))

theorem handlePacket_forwards {route : Route} (sender : FastSender)
    (hstate : l.connections.getState addr = some (.established sender) ∧ route = .toEstablished sender ∨
      l.connections.getState addr = some (.gatewayHandshake sender) ∧
        route = .toGatewayHandshake sender) (hp : p.isIntroPacket = false) :
    ∃ l', l.handlePacket cfg env addr p =
      .ok (l', if l.Withholds env addr sender then .dropped else route) := by
  unfold handlePacket Withholds outdatedGate
  by_cases hout : l.isOutdated addr env.now = true
  · simp [hout, hp]
  · rcases hstate with ⟨hstate, rfl⟩ | ⟨hstate, rfl⟩ <;>
    · simp only [hout, Bool.false_eq_true, if_false, ok_bind, routeByState, hstate, isNewIdentity, hp,
      Bool.and_false, pure_eq, sendEstablished, ConnectionStateManager.trySendEstablished]
      cases env.status sender <;> simp

end Listener

/-- A datagram that announces symmetric encryption and has no room for nonce and tag. -/
def TruncatedDatagram (datagram : List UInt8) : Prop :=
  datagram.head? = some packetTypeSymmetric ∧ datagram.length < symmetricOverhead

instance (datagram : List UInt8) : Decidable (TruncatedDatagram datagram) :=
  inferInstanceAs (Decidable (_ ∧ _))

theorem truncatedSymmetric_iff_of_packetOf {datagram : List UInt8} {p : Packet}
    (hp : Listener.packetOf datagram = .ok p) : p.TruncatedSymmetric ↔ TruncatedDatagram datagram := by
  rw [PacketData.fromBuf_truncatedSymmetric_iff _ _ _ p hp, TruncatedDatagram, head?_take,
    length_take]
  have hover : symmetricOverhead = 29 := rfl
  have hrecv : maxRecvPacketSize = 1500 := rfl
  constructor
  · rintro ⟨hhead, hlen⟩
    exact ⟨hhead, by omega⟩
  · rintro ⟨hhead, hlen⟩
    exact ⟨hhead, by omega⟩

theorem PacketData.TruncatedSymmetric.not_intro {p : Packet} (h : p.TruncatedSymmetric) :
    p.isIntroPacket = false := by
  unfold PacketData.isIntroPacket PacketData.packetType
  rw [h.1]
  split_ifs <;> decide

/-- The handshake task has ended before it waits for a packet. -/
def Consumers.HandshakeOver (cfg : ListenerConfig) (dest : Consumers) : Prop :=
  acceptsIntro cfg.secret dest.handshake.introPacket.data = false ∨ dest.ackSent = false

namespace Listener
variable (cfg : ListenerConfig) (env : Env) (l : Listener) (dest : Consumers)
  (p : Packet) (sender : FastSender)

theorem consume_toEstablished_returns_iff :
    (consume cfg env dest p (.toEstablished sender)).Returns ↔ ¬ p.TruncatedSymmetric := by
  rw [← dest.connection.decryptInbound_returns_iff cfg.build env.now p]
  exact returns_bind_ok_iff _ _

theorem consume_toGatewayHandshake_returns_iff :
    (consume cfg env dest p (.toGatewayHandshake sender)).Returns ↔
      dest.HandshakeOver cfg ∨ ¬ p.TruncatedSymmetric := by
  have hretn := gatewayConnection_returns_iff cfg dest.handshake.introPacket
    dest.handshake.inboundKeyBytes dest.ackSent (.packet p)
  simp only [HandshakeReply.packet.injEq, forall_eq', ← or_assoc] at hretn
  rw [Consumers.HandshakeOver, ← hretn]
  exact returns_bind_ok_iff _ _

theorem consume_returns (route : Route) (hp : ¬ p.TruncatedSymmetric) :
    (consume cfg env dest p route).Returns := by
  cases route with
  | toEstablished sender => exact (consume_toEstablished_returns_iff cfg env dest p sender).mpr hp
  | toGatewayHandshake sender =>
    exact (consume_toGatewayHandshake_returns_iff cfg env dest p sender).mpr (.inr hp)
  | dropped | toNatTraversal sender | startedHandshake => simp [consume]

/-- A datagram for an established connection or a running handshake is decrypted or rejected,
unless it is a truncated symmetric one that gets as far as the decryption. -/
theorem receiveDatagram_returns_iff (addr : SocketAddr) (sender : FastSender) (datagram : List UInt8)
    (hstate : l.connections.getState addr = some (.established sender) ∨
      l.connections.getState addr = some (.gatewayHandshake sender)) :
    (l.receiveDatagram cfg env dest addr datagram).Returns ↔
      ¬ TruncatedDatagram datagram ∨ l.Withholds env addr sender ∨
        (l.connections.getState addr = some (.gatewayHandshake sender) ∧ dest.HandshakeOver cfg) := by
  obtain ⟨p, hp, -⟩ := packetOf_eq datagram
  unfold receiveDatagram
  rw [hp, ok_bind, ← truncatedSymmetric_iff_of_packetOf hp]
  by_cases htrunc : p.TruncatedSymmetric
  · have hnot := htrunc.not_intro
    rcases hstate with hstate | hstate
    · obtain ⟨l', hroute⟩ := l.handlePacket_forwards cfg env addr p sender (.inl ⟨hstate, rfl⟩) hnot
      rw [hroute, ok_bind, hstate]
      by_cases hwith : l.Withholds env addr sender
      · simp [hwith, consume]
      · rw [if_neg hwith, consume_toEstablished_returns_iff]
        simp [htrunc, hwith]
    · obtain ⟨l', hroute⟩ := l.handlePacket_forwards cfg env addr p sender (.inr ⟨hstate, rfl⟩) hnot
      rw [hroute, ok_bind, hstate]
      by_cases hwith : l.Withholds env addr sender
      · simp [hwith, consume]
      · rw [if_neg hwith, consume_toGatewayHandshake_returns_iff]
        simp [htrunc, hwith]
  · obtain ⟨r, hr⟩ := l.handlePacket_returns cfg env addr p
    rw [hr]
    simp [htrunc, consume_returns cfg env dest p r.2 htrunc]

end Listener

def connectedListener : Listener :=
  { startingListener with
    connections := ⟨Table.empty.insert peerAddr (.established 0), Table.empty⟩ }

def transparentConsumers : Consumers :=
  ⟨⟨Aes128Gcm.transparent, TransportSecretKey.transparent, 0, none⟩, ⟨peerAddr, symmetricPacket, []⟩, true⟩

/-- The shortest symmetric datagram that is safe. -/
theorem receiveDatagram_shortest_returns :
    (connectedListener.receiveDatagram transparentGateway (envAt 0) transparentConsumers peerAddr
      (packetTypeSymmetric :: replicate 28 0)).Returns :=
  (connectedListener.receiveDatagram_returns_iff transparentGateway (envAt 0) transparentConsumers
    peerAddr 0 _ (.inl (by decide))).mpr (.inl (by decide))

/-- Once the connection is established, a datagram of the one byte `0x02` panics its receiver. -/
theorem oneByteDatagram_panics : (listenerMachine transparentGateway).init startingListener ∧
    ∃ l, (listenerMachine transparentGateway).runFrom startingListener establishSession = some l ∧
      l.connections.getState peerAddr = some (.established 1) ∧
      ¬ (l.receiveDatagram transparentGateway (envAt 2) transparentConsumers peerAddr
        [packetTypeSymmetric]).Returns :=
  ⟨⟨rfl, rfl, rfl, rfl⟩, by decide +kernel⟩

end Datagrams

/-! What a second copy of the intro packet does to the session it established. -/
open ConnectionStateManager Listener

/-- The listener with the intro packet by which the session of each address was established. -/
structure TracedListener where
  listener : Listener
  establishedBy : Table SocketAddr Packet

namespace TracedListener

def record (cfg : ListenerConfig) (s : TracedListener) : ListenerEvent → Table SocketAddr Packet
  | .gwTaskEnds index ending _ =>
    match s.listener.gwConnectionTasks[index]? with
    | none => s.establishedBy
    | some task =>
      match joinGwTask cfg task ending with
      | .ok (.ok ()) =>
        if s.listener.connections.hasGatewayHandshake task.remoteAddr then
          s.establishedBy.insert task.remoteAddr task.introPacket
        else s.establishedBy
      | _ => s.establishedBy
  | .natTaskEnds index (.connected introPacket) =>
    match s.listener.connectionTasks[index]? with
    | none => s.establishedBy
    | some task =>
      if s.listener.connections.hasNatTraversal task.remoteAddr then
        match introPacket with
        | some p => s.establishedBy.insert task.remoteAddr p
        | none => s.establishedBy.remove task.remoteAddr
      else s.establishedBy
  | _ => s.establishedBy

def step (cfg : ListenerConfig) (s : TracedListener) (e : Env × ListenerEvent) : Option TracedListener :=
  (s.listener.step cfg e.1 e.2).map fun l => ⟨l, s.record cfg e.2⟩

/-- The event is another copy of the intro packet that established the session behind `sender`,
and the receiver of that session is still there. -/
structure ReplayArrives (s : TracedListener) (e : Env × ListenerEvent) (addr : SocketAddr)
    (sender : FastSender) (p : Packet) : Prop where
  established : s.listener.connections.getState addr = some (.established sender)
  intro : s.establishedBy.get addr = some p
  copy : ∃ bytes, e.2 = .datagram addr bytes ∧ bytes.take maxRecvPacketSize = p.data
  alive : e.1.status sender ≠ .disconnected

def KeepsSession (cfg : ListenerConfig) (s : TracedListener) (e : Env × ListenerEvent) : Prop :=
  ∀ addr sender p, s.ReplayArrives e addr sender p → ∀ s', s.step cfg e = some s' →
      s'.listener.connections.getState addr = some (.established sender)

def ReplayIgnored (cfg : ListenerConfig) (s : TracedListener) (e : Env × ListenerEvent) : Prop :=
  ∀ addr sender p, s.ReplayArrives e addr sender p →
    cfg.isGateway = false ∨ s.listener.connections.isRateLimited addr e.1.now = true

end TracedListener

def tracedMachine (cfg : ListenerConfig) : Machine TracedListener (Env × ListenerEvent) where
  init s := s.listener.Initial ∧ s.establishedBy = .empty
  step := TracedListener.step cfg

/-- Every recorded intro packet is one that the node's key accepts. -/
def IntrosAccepted (cfg : ListenerConfig) (s : TracedListener) : Prop :=
  ∀ addr p, s.establishedBy.get addr = some p → acceptsIntro cfg.secret p.data = true

variable (cfg : ListenerConfig)

theorem joinGwTask_ok_accepts (task : GwTask) (ending : GwTaskEnding)
    (h : joinGwTask cfg task ending = .ok (.ok ())) :
    acceptsIntro cfg.secret task.introPacket.data = true := by
  cases ending with
  | aborted e => cases h
  | ran sent reply =>
    simp only [joinGwTask] at h
    split at h
    · rename_i result hresult
      cases h
      exact acceptsIntro_of_gatewayConnection_ok cfg task.introPacket _ sent reply hresult
    · cases h

theorem introsAccepted_insert {cfg : ListenerConfig} {s : TracedListener} (hs : IntrosAccepted cfg s)
    (addr : SocketAddr) (p : Packet) (hp : acceptsIntro cfg.secret p.data = true) (a : SocketAddr)
    (q : Packet) (h : (s.establishedBy.insert addr p).get a = some q) :
    acceptsIntro cfg.secret q.data = true := by
  rcases Table.get_insert_cases h with ⟨-, rfl⟩ | ⟨-, hget⟩
  · exact hp
  · exact hs a q hget

theorem step_introsAccepted (s s' : TracedListener) (e : Env × ListenerEvent)
    (hs : IntrosAccepted cfg s) (h : s.step cfg e = some s') : IntrosAccepted cfg s' := by
  obtain ⟨l', hstep, rfl⟩ := Option.map_eq_some_iff.mp h
  intro addr p hp
  obtain ⟨env, event⟩ := e
  cases event with
  | gwTaskEnds index ending notifierOpen =>
    simp only [TracedListener.record] at hp
    split at hp
    · exact hs addr p hp
    · rename_i task htask
      split at hp
      · rename_i hjoin
        split_ifs at hp
        · exact introsAccepted_insert hs _ _ (joinGwTask_ok_accepts cfg task ending hjoin) addr p hp
        · exact hs addr p hp
      · exact hs addr p hp
  | natTaskEnds index ending =>
    cases ending with
    | connected introPacket =>
      simp only [TracedListener.record, step] at hp hstep
      split at hp
      · exact hs addr p hp
      · rename_i task htask
        rw [htask] at hstep
        split_ifs at hp
        · cases introPacket with
          | some q =>
            have hq : acceptsIntro cfg.secret q.data = true := by
              by_contra hno
              simp [natEndingPossible, hno] at hstep
            exact introsAccepted_insert hs _ q hq addr p hp
          | none =>
            exact hs addr p (Table.get_of_get_remove hp).2
        · exact hs addr p hp
    | failed error | aborted error => exact hs addr p hp
  | datagram a bytes | recvError fatal | connectionStart a openConnection | handlerClosed
  | cleanup => exact hs addr p hp

theorem isIntroPacket_of_acceptsIntro {secret : TransportSecretKey} {p : Packet}
    (h : acceptsIntro secret p.data = true) : p.isIntroPacket = true := by
  unfold acceptsIntro at h
  cases hopen : secret.opened p.data with
  | error e => simp [hopen] at h
  | ok plain => exact p.isIntroPacket_of_head (secret.opened_isIntro _ plain hopen)

namespace ConnectionStateManager
variable (m : ConnectionStateManager) (addr : SocketAddr)

@[simp]
theorem isRateLimited_clearRateLimit (now : Nat) :
    (m.clearRateLimit addr).isRateLimited addr now = false := by
  simp [isRateLimited, clearRateLimit]

theorem trySendEstablished_of_alive {sender : FastSender} (status : FastSender → ChannelStatus)
    (now : Nat) (hstate : m.getState addr = some (.established sender))
    (halive : status sender ≠ .disconnected) : (m.trySendEstablished addr status now).1 = m := by
  simp only [trySendEstablished, hstate]
  cases hstat : status sender with
  | «open» => rfl
  | full => rfl
  | disconnected => exact absurd hstat halive

theorem startGatewayHandshake_not_established (sender s : FastSender) (now : Nat)
    (h : m.getState addr = none) :
    (m.startGatewayHandshake addr sender now).1.getState addr ≠ some (.established s) := by
  unfold startGatewayHandshake
  rw [h]
  simp [getState]

theorem removeEstablished_of_established {sender : FastSender}
    (h : m.getState addr = some (.established sender)) :
    m.removeEstablished addr = ({ m with states := m.states.remove addr }, some sender) := by
  simp [removeEstablished, h]

end ConnectionStateManager

namespace Listener
variable (env : Env) (l : Listener) (addr : SocketAddr) (p : Packet) (s : FastSender)

/-- An accepted intro packet passes the gate for outdated peers, unless it is within the rate
limit; either way neither the states nor the rate limit of its address change. -/
theorem outdatedGate_of_accepted (hp : acceptsIntro cfg.secret p.data = true) :
    ∃ l₁ proceed, l.outdatedGate cfg env addr p = .ok (l₁, proceed) ∧
      l₁.connections.states = l.connections.states ∧
      l₁.connections.isRateLimited addr env.now = l.connections.isRateLimited addr env.now ∧
      (proceed = false → l.connections.isRateLimited addr env.now = true) := by
  unfold outdatedGate
  rw [announcesCompatibleVersion_eq, hp]
  by_cases hout : l.isOutdated addr env.now = true
  · rw [if_pos hout, isIntroPacket_of_acceptsIntro hp]
    by_cases hlimit : l.connections.isRateLimited addr env.now = true
    · exact ⟨l, false, by simp [hlimit], rfl, rfl, fun _ => hlimit⟩
    · refine ⟨{ l with
          outdatedPeer := l.outdatedPeer.remove addr
          connections := (l.connections.recordAsymAttempt addr env.now).clearRateLimit addr },
        true, by simp [hlimit], rfl, ?_, by simp⟩
      simp [hlimit]
  · rw [if_neg hout]
    exact ⟨_, true, rfl, rfl, rfl, by simp⟩

section
variable (h : l.connections.getState addr = none)
include h

theorem startHandshake_not_established :
    (l.startHandshake env addr p).1.connections.getState addr ≠ some (.established s) := by
  have hstart := startGatewayHandshake_not_established
    (l.connections.recordAsymAttempt addr env.now) addr l.nextChannel s env.now h
  unfold startHandshake
  dsimp only
  split_ifs
  · exact hstart
  · exact hstart

theorem limitIntro_not_established :
    (l.limitIntro env addr p).1.connections.getState addr ≠ some (.established s) := by
  have hnone : l.connections.getState addr ≠ some (.established s) := by simp [h]
  unfold limitIntro
  dsimp only
  split_ifs
  · exact hnone
  · exact hnone
  · exact startHandshake_not_established env _ addr p s h
  · exact hnone

theorem handleUnknown_not_established :
    (l.handleUnknown cfg env addr p).1.connections.getState addr ≠ some (.established s) := by
  have hnone : l.connections.getState addr ≠ some (.established s) := by simp [h]
  have hstale : (l.connections.removeStaleFromIp addr env.status).getState addr = none := by
    have h' : l.connections.states.get addr = none := h
    simp [removeStaleFromIp, getState, h']
  unfold handleUnknown
  split_ifs
  · exact hnone
  · exact limitIntro_not_established env _ addr p s hstale
  · exact hnone

end

/-- An accepted intro packet at an established address. At a gateway outside the rate limit it is
taken for a new identity, and the session is gone; otherwise it goes to the session's receiver. -/
theorem routeByState_of_accepted {sender : FastSender} (hp : acceptsIntro cfg.secret p.data = true)
    (hstate : l.connections.getState addr = some (.established sender)) :
    (cfg.isGateway = true ∧ l.connections.isRateLimited addr env.now = false ∧
      ∃ l₁, l.routeByState cfg env addr p = .ok (l₁, none) ∧ l₁.connections.getState addr = none) ∨
    ((cfg.isGateway = false ∨ l.connections.isRateLimited addr env.now = true) ∧
      l.routeByState cfg env addr p =
        .ok ((l.sendEstablished env addr sender).1, some (l.sendEstablished env addr sender).2)) := by
  have hintro := isIntroPacket_of_acceptsIntro hp
  unfold routeByState isNewIdentity
  rw [announcesCompatibleVersion_eq, hp, hstate, hintro]
  by_cases hgatew : cfg.isGateway = true
  · by_cases hlimit : l.connections.isRateLimited addr env.now = true
    · refine .inr ⟨.inr hlimit, ?_⟩
      simp [hgatew, hlimit]
    · have hremd := removeEstablished_of_established
        ((l.connections.recordAsymAttempt addr env.now).clearRateLimit addr) addr hstate
      refine .inl ⟨hgatew, by simpa using hlimit,
        { l with connections := (((l.connections.recordAsymAttempt addr env.now).clearRateLimit
          addr).removeEstablished addr).1 }, by simp [hgatew, hlimit], ?_⟩
      rw [hremd]
      simp [getState]
  · refine .inr ⟨.inl (by simpa using hgatew), ?_⟩
    simp [hgatew]

/-- A copy of an accepted intro packet leaves a live session as it is exactly when the node is not
a gateway or the copy comes within the rate limit. -/
theorem handleDatagram_of_accepted {sender : FastSender} (bytes : List UInt8)
    (hp : acceptsIntro cfg.secret (bytes.take maxRecvPacketSize) = true)
    (hstate : l.connections.getState addr = some (.established sender))
    (halive : env.status sender ≠ .disconnected) :
    ∃ l' route, l.handleDatagram cfg env addr bytes = .ok (l', route) ∧
      (l'.connections.getState addr = some (.established sender) ↔
        cfg.isGateway = false ∨ l.connections.isRateLimited addr env.now = true) := by
  obtain ⟨p, hfrom, hdata⟩ := packetOf_eq bytes
  rw [← hdata] at hp
  obtain ⟨l₁, proceed, hgate, hstates, hlimit, hstop⟩ :=
    l.outdatedGate_of_accepted cfg env addr p hp
  have hstate₁ : l₁.connections.getState addr = some (.established sender) := by
    rw [getState, hstates]
    exact hstate
  unfold handleDatagram
  rw [hfrom, Outcome.ok_bind, handlePacket, hgate, Outcome.ok_bind]
  cases proceed with
  | false =>
    refine ⟨l₁, .dropped, rfl, ?_⟩
    simp [hstate₁, hstop rfl]
  | true =>
    simp only [Bool.not_true]
    rcases l₁.routeByState_of_accepted cfg env addr p hp hstate₁ with
      ⟨hgatew, hunlim, l₂, hroute, hgone⟩ | ⟨hignor, hroute⟩
    · rw [hroute]
      refine ⟨(l₂.handleUnknown cfg env addr p).1, (l₂.handleUnknown cfg env addr p).2, rfl, ?_⟩
      have hnot := l₂.handleUnknown_not_established cfg env addr p sender hgone
      rw [hlimit] at hunlim
      simp [hnot, hgatew, hunlim]
    · rw [hroute]
      refine ⟨_, _, rfl, ?_⟩
      have hkept := l₁.connections.trySendEstablished_of_alive addr env.status env.now hstate₁ halive
      rw [hlimit] at hignor
      simp only [sendEstablished, hkept, hstate₁, true_iff]
      exact hignor

end Listener

/-- In a state whose recorded intro packets are all accepted, a step keeps the sessions of the
replays it sees exactly when those replays are ignored. -/
theorem keepsSession_iff (s : TracedListener) (e : Env × ListenerEvent) (hs : IntrosAccepted cfg s) :
    s.KeepsSession cfg e ↔ s.ReplayIgnored cfg e := by
  obtain ⟨env, event⟩ := e
  refine forall_congr' fun addr => forall_congr' fun sender => forall_congr' fun p =>
    forall_congr' fun harriv => ?_
  obtain ⟨bytes, hevent, hcopy⟩ := harriv.copy
  subst hevent
  have hp : acceptsIntro cfg.secret (bytes.take maxRecvPacketSize) = true := by
    rw [hcopy]
    exact hs addr p harriv.intro
  obtain ⟨l', route, hhandle, hiff⟩ := s.listener.handleDatagram_of_accepted cfg env addr bytes hp
    harriv.established harriv.alive
  rw [← hiff]
  simp [TracedListener.step, step, hhandle]

/-- In every run, the copies of establishing intro packets that arrive leave the sessions alone
exactly when each of them comes to a node that is not a gateway or within the rate limit. -/
theorem replayed_intro_keeps_session_iff (cfg : ListenerConfig) (s : TracedListener)
    (es : List (Env × ListenerEvent)) (hinit : (tracedMachine cfg).init s) :
    (tracedMachine cfg).Along (TracedListener.KeepsSession cfg) s es ↔
      (tracedMachine cfg).Along (TracedListener.ReplayIgnored cfg) s es := by
  refine (tracedMachine cfg).along_congr (IntrosAccepted cfg) ?_ ?_ es ?_
  · intro s e s' hs hstep
    exact step_introsAccepted cfg s s' e hs hstep
  · intro s e hs
    exact keepsSession_iff cfg s e hs
  · intro addr p hp
    rw [hinit.2] at hp
    simp at hp

def startingTrace : TracedListener := ⟨startingListener, .empty⟩

def lateCopy : Env × ListenerEvent := (envAt (2 * nanosPerSec), .datagram peerAddr introDatagram)

theorem establishSession_keeps_session_iff : (tracedMachine transparentGateway).init startingTrace ∧
    ((tracedMachine transparentGateway).Along (TracedListener.KeepsSession transparentGateway)
        startingTrace (establishSession ++ [lateCopy]) ↔
      (tracedMachine transparentGateway).Along (TracedListener.ReplayIgnored transparentGateway)
        startingTrace (establishSession ++ [lateCopy])) :=
  ⟨⟨⟨rfl, rfl, rfl, rfl⟩, rfl⟩,
    replayed_intro_keeps_session_iff transparentGateway startingTrace _ ⟨⟨rfl, rfl, rfl, rfl⟩, rfl⟩⟩

/-- The late copy of its own intro packet tears the session down. -/
theorem lateCopy_tears_down_session : (tracedMachine transparentGateway).init startingTrace ∧
    ¬ (tracedMachine transparentGateway).Along (TracedListener.KeepsSession transparentGateway)
      startingTrace (establishSession ++ [lateCopy]) := by
  refine ⟨⟨⟨rfl, rfl, rfl, rfl⟩, rfl⟩, ?_⟩
  intro hkeeps
  obtain ⟨s, hrun, hstate, ⟨p, hp, hdata⟩, s', hstep, hs'⟩ : ∃ s,
      (tracedMachine transparentGateway).runFrom startingTrace establishSession = some s ∧
      s.listener.connections.getState peerAddr = some (.established 1) ∧
      (∃ p, s.establishedBy.get peerAddr = some p ∧ p.data = introDatagram) ∧
      ∃ s', s.step transparentGateway lateCopy = some s' ∧
        s'.listener.connections.getState peerAddr = some (.gatewayHandshake 2) := by
    decide +kernel
  have harriv : s.ReplayArrives lateCopy peerAddr 1 p :=
    ⟨hstate, hp, ⟨introDatagram, rfl, hdata.symm ▸ rfl⟩, by decide⟩
  have hkept := (tracedMachine transparentGateway).along_at hkeeps hrun peerAddr 1 p harriv s' hstep
  rw [hs'] at hkept
  cases hkept

end Freenet.Transport
