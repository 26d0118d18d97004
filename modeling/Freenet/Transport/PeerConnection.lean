import Freenet.Lib.Machine
import Freenet.Transport.PacketTrackers

/-! One end of a connection: sending messages, and `recv` with its timers and dropped futures. -/
namespace Freenet.Transport

section Calls
/-- What becomes of one datagram that is handed to the socket. A send that is cancelled ends the
call it is part of. -/
inductive SendOutcome where
  | sent
  | failed
  | cancelled
  deriving DecidableEq, Repr

inductive SendResult where
  | ok
  | sendFailed
  | serialization
  | cancelled
  deriving DecidableEq, Repr

/-- The two clocks: the monotonic one of the received packets, and the time source. -/
structure Clock where
  instant : Nat
  nanos : Nat
  deriving DecidableEq, Repr

/-- The most payload of a fragment; longer messages than this are sent as streams. -/
def maxFragmentSize : Nat := maxDataSize - 41

structure PeerConnection where
  lastPacketId : Nat
  sentTracker : SentPacketTracker
  receivedTracker : ReceivedPacketTracker
  lastPacketReportTimeNanos : Nat
  inboundSymmetricKeyBytes : List UInt8
  remoteAddr : SocketAddr

/-- What a call leaves behind: the datagrams the socket took, the packet ids reported as new, the
payloads handed to `process_inbound`, and the pending packets dropped on a receipt. -/
structure Log where
  sent : List SymmetricMessage
  accepted : List PacketId
  processed : List (PacketId × SymmetricMessagePayload)
  acknowledged : List PacketId
  deriving DecidableEq

def Log.empty : Log := ⟨[], [], [], []⟩

/-- A connection in the middle of a call, with what its sends will find. -/
structure Call where
  conn : PeerConnection
  log : Log
  socket : List SendOutcome

def PeerConnection.ackOk (conn : PeerConnection) : SymmetricMessage :=
  ⟨firstPacketId, [], .ackConnection (.ok ⟨conn.inboundSymmetricKeyBytes, conn.remoteAddr⟩)⟩

/-- The last time a packet made the receipts go out is too long ago. -/
def PeerConnection.receiptsDue (conn : PeerConnection) (clock : Clock) : Bool :=
  conn.lastPacketReportTimeNanos + messageConfirmationTimeout < clock.nanos

def PeerConnection.held (conn : PeerConnection) (id : PacketId) : Bool :=
  (conn.sentTracker.pendingReceipts.get id).isSome

namespace Call
variable (c : Call) (clock : Clock)

def sendTo (m : SymmetricMessage) : Call × SendOutcome :=
  match c.socket with
  | [] => ({ c with log.sent := c.log.sent ++ [m] }, .sent)
  | .sent :: rest => ({ c with log.sent := c.log.sent ++ [m], socket := rest }, .sent)
  | outcome :: rest => ({ c with socket := rest }, outcome)

def reportSentPacket (packetId : PacketId) (m : SymmetricMessage) : Call :=
  { c with conn.sentTracker := c.conn.sentTracker.reportSentPacket clock.nanos packetId m }

def sendPackets (packetId : PacketId) : Call → List SymmetricMessage → Call × SendResult
  | c, [] => (c, .ok)
  | c, m :: rest =>
    let attempt := c.sendTo m
    match attempt.2 with
    | .sent => sendPackets packetId (attempt.1.reportSentPacket clock packetId m) rest
    | .failed => (attempt.1, .sendFailed)
    | .cancelled => (attempt.1, .cancelled)

def packetSending (packetId : PacketId) (confirmReceipt : List PacketId)
    (payload : SymmetricMessagePayload) : Call × SendResult :=
  match SymmetricMessage.packetsFor packetId confirmReceipt payload with
  | none => (c, .serialization)
  | some packets => c.sendPackets clock packetId packets

/-- `fetch_add` on the packet id counter. -/
def nextPacketId : Call :=
  { c with conn.lastPacketId := (c.conn.lastPacketId + 1) % 2 ^ 32 }

def sendMessage (confirmReceipt : List PacketId) (payload : SymmetricMessagePayload) : Call × SendResult :=
  c.nextPacketId.packetSending clock c.conn.lastPacketId confirmReceipt payload

def noop (receipts : List PacketId) : Call × SendResult := c.sendMessage clock receipts .noOp

def sendUntracked (payload : SymmetricMessagePayload) : Call × SendOutcome :=
  c.nextPacketId.sendTo ⟨c.conn.lastPacketId, [], payload⟩

def sendPong (sequence : Nat) : Call × SendOutcome := c.sendUntracked (.pong sequence)

def takeReceipts : Call :=
  { c with conn.receivedTracker := (c.conn.receivedTracker.getReceipts clock.instant).1 }

def sendWithReceipts (payload : SymmetricMessagePayload) : Call × SendResult :=
  (c.takeReceipts clock).sendMessage clock c.conn.receivedTracker.pendingReceipts payload

def flushReceipts : Call × SendResult :=
  if c.conn.receivedTracker.pendingReceipts = [] then (c.takeReceipts clock, .ok)
  else (c.takeReceipts clock).noop clock c.conn.receivedTracker.pendingReceipts

/-- A ping is answered at once, before the packet is tracked. -/
def answerPing (payload : SymmetricMessagePayload) : Call × SendOutcome :=
  match payload with
  | .ping sequence => c.sendPong sequence
  | _ => (c, .sent)

def noteReportTime : Call :=
  if c.conn.receiptsDue clock then { c with conn.lastPacketReportTimeNanos := clock.nanos } else c

def reportReceivedReceipts (scale : DurationScale) (confirmReceipt : List PacketId) : Call :=
  { c with
    conn.sentTracker :=
      (SentPacketTracker.reportReceivedReceipts scale clock.nanos c.conn.sentTracker confirmReceipt).1
    log.acknowledged := c.log.acknowledged ++
      confirmReceipt.filter fun id => (c.conn.sentTracker.pendingReceipts.get id).isSome }

def reportReceivedPacket (packetId : PacketId) : Call × ReportResult :=
  let report := c.conn.receivedTracker.reportReceivedPacket clock.instant packetId
  ({ c with
      conn.receivedTracker := report.1
      log.accepted :=
        if report.2 = .alreadyReceived then c.log.accepted else c.log.accepted ++ [packetId] },
    report.2)

def answerAck : SymmetricMessagePayload → Call
  | .ackConnection (.ok _) => (c.sendTo c.conn.ackOk).1
  | _ => c

/-- The parts of `process_inbound` that touch the connection. -/
def processInbound (packetId : PacketId) (payload : SymmetricMessagePayload) : Call :=
  { c with log.processed := c.log.processed ++ [(packetId, payload)] }.answerAck payload

/-- What follows the report of a packet: receipts that are due or fill the queue are sent, and the
payload is processed, unless the packet is a known one and nothing was sent. -/
def afterReport (m : SymmetricMessage) (report : ReportResult) (receiptsDue : Bool) : Call :=
  if report = .queueFull ∨ receiptsDue then
    let flushed := c.flushReceipts clock
    match flushed.2 with
    | .ok | .sendFailed => flushed.1.processInbound m.packetId m.payload
    | .serialization | .cancelled => flushed.1
  else
    match report with
    | .alreadyReceived => c
    | _ => c.processInbound m.packetId m.payload

/-- The inbound arm of `recv` from the decrypted message on. -/
def recvMessage (scale : DurationScale) (m : SymmetricMessage) : Call :=
  let pinged := c.answerPing m.payload
  if pinged.2 = .cancelled then pinged.1
  else
    let c := (pinged.1.noteReportTime clock).reportReceivedReceipts clock scale m.confirmReceipt
    let reported := c.reportReceivedPacket clock m.packetId
    reported.1.afterReport clock m reported.2 (pinged.1.conn.receiptsDue clock)

/-- A packet that is resent is tracked again, whether or not the socket took it. -/
def resendPacket (packetId : PacketId) (packet : SymmetricMessage) : Call :=
  let attempt := c.sendTo packet
  if attempt.2 = .cancelled then attempt.1
  else attempt.1.reportSentPacket clock packetId packet

def resend : Call :=
  let checked := c.conn.sentTracker.getResend clock.nanos
  let c := { c with conn.sentTracker := checked.1 }
  match checked.2 with
  | .waitUntil _ => c
  | .resend packetId packet => c.resendPacket clock packetId packet
  | .tlpProbe packetId packet => c.resendPacket clock packetId packet

end Call

inductive PeerEvent where
  | packet (m : SymmetricMessage)
  | introPacket
  | ackTimer
  | resendTimer
  | shortMessage (data : List UInt8)
  | fragment (streamId : StreamId) (totalLengthBytes fragmentNumber : Nat) (payload : List UInt8)
      (metadataBytes : Option (List UInt8)) (withReceipts : Bool)
  | keepAlive (sequence : Nat)
  | trackAck
  deriving DecidableEq

namespace PeerConnection

def fragmentPayload (streamId : StreamId) (totalLengthBytes fragmentNumber : Nat)
    (payload : List UInt8) (metadataBytes : Option (List UInt8)) : SymmetricMessagePayload :=
  .streamFragment streamId totalLengthBytes fragmentNumber payload metadataBytes

def sendsAsStream (data : List UInt8) : Bool :=
  maxFragmentSize < data.length + SymmetricMessage.shortMessageOverhead

def handle (scale : DurationScale) (clock : Clock) (c : Call) : PeerEvent → Call
  | .packet m => c.recvMessage clock scale m
  -- an intro packet that the node's key opens is answered with another acknowledgement
  | .introPacket => (c.sendTo c.conn.ackOk).1
  | .ackTimer => (c.flushReceipts clock).1
  | .resendTimer => c.resend clock
  | .shortMessage data => (c.sendWithReceipts clock (.shortMessage data)).1
  | .fragment streamId total number payload metadata true =>
    (c.sendWithReceipts clock (fragmentPayload streamId total number payload metadata)).1
  | .fragment streamId total number payload metadata false =>
    (c.sendMessage clock [] (fragmentPayload streamId total number payload metadata)).1
  | .keepAlive sequence => (c.sendUntracked (.ping sequence)).1
  -- a gateway tracks the acknowledgement of the handshake once the connection is handed over
  | .trackAck => c.reportSentPacket clock firstPacketId c.conn.ackOk

def step (scale : DurationScale) (clock : Clock) (socket : List SendOutcome) (conn : PeerConnection)
    (event : PeerEvent) : PeerConnection × Log :=
  let c := handle scale clock ⟨conn, .empty, socket⟩ event
  (c.conn, c.log)

end PeerConnection

def freshConnection : PeerConnection := ⟨0, .new, .new, 0, [], ⟨.v4 1, 1⟩⟩

/-! What the calls of a connection leave alone, and what each kind of event does to the received
packets. -/
open List

namespace Call
variable (c : Call) (clock : Clock)

/-- The receipts the connection has still to send. -/
abbrev pendingReceipts : List PacketId := c.conn.receivedTracker.pendingReceipts

/-- The received packets and what was made of them are the same. -/
structure SameInbound (c c' : Call) : Prop where
  receivedTracker : c'.conn.receivedTracker = c.conn.receivedTracker
  accepted : c'.log.accepted = c.log.accepted
  processed : c'.log.processed = c.log.processed

theorem SameInbound.refl : SameInbound c c := ⟨rfl, rfl, rfl⟩

theorem SameInbound.trans {c c₁ c₂ : Call} (h₁ : SameInbound c c₁) (h₂ : SameInbound c₁ c₂) :
    SameInbound c c₂ where
  receivedTracker := h₂.receivedTracker.trans h₁.receivedTracker
  accepted := h₂.accepted.trans h₁.accepted
  processed := h₂.processed.trans h₁.processed

theorem SameInbound.pendingReceipts {c c' : Call} (h : SameInbound c c') :
    c'.pendingReceipts = c.pendingReceipts := by
  rw [Call.pendingReceipts, h.receivedTracker]

/-- Nothing but sending has happened. -/
structure Sends (c c' : Call) : Prop extends SameInbound c c' where
  acknowledged : c'.log.acknowledged = c.log.acknowledged

theorem Sends.refl : Sends c c := ⟨.refl c, rfl⟩

theorem Sends.trans {c c₁ c₂ : Call} (h₁ : Sends c c₁) (h₂ : Sends c₁ c₂) : Sends c c₂ :=
  ⟨h₁.toSameInbound.trans h₂.toSameInbound, h₂.acknowledged.trans h₁.acknowledged⟩

/-- Only sending has happened, and every packet that was held still is. -/
structure SendsOn (c c' : Call) : Prop extends Sends c c' where
  held : ∀ id, c.conn.held id = true → c'.conn.held id = true

theorem SendsOn.refl : SendsOn c c := ⟨.refl c, fun _ h => h⟩

theorem SendsOn.trans {c c₁ c₂ : Call} (h₁ : SendsOn c c₁) (h₂ : SendsOn c₁ c₂) : SendsOn c c₂ :=
  ⟨h₁.toSends.trans h₂.toSends, fun id h => h₂.held id (h₁.held id h)⟩

theorem reportSentPacket_held (packetId : PacketId) (m : SymmetricMessage) (id : PacketId) :
    (c.reportSentPacket clock packetId m).conn.held id = (decide (id = packetId) || c.conn.held id) := by
  unfold reportSentPacket PeerConnection.held
  rw [SentPacketTracker.reportSentPacket_pending]
  by_cases h : id = packetId
  · simp [h]
  · simp [h]

/-- The packet is held for retransmission, or was acknowledged in the call. -/
def Retains (id : PacketId) (c : Call) : Prop := c.conn.held id = true ∨ id ∈ c.log.acknowledged

theorem SendsOn.retains {c c' : Call} {id : PacketId} (h : c.SendsOn c') (hc : c.Retains id) :
    c'.Retains id := by
  refine hc.imp (h.held id) fun hid => ?_
  rw [h.acknowledged]
  exact hid

theorem reportReceivedReceipts_held (scale : DurationScale) (receipts : List PacketId) :
    (c.reportReceivedReceipts clock scale receipts).conn.held =
      fun id => !decide (id ∈ receipts) && c.conn.held id := by
  funext id
  unfold reportReceivedReceipts PeerConnection.held
  rw [SentPacketTracker.reportReceivedReceipts_pending]
  by_cases hid : id ∈ receipts
  · simp [hid]
  · simp [hid]

theorem SendsOn.reportSentPacket {c c' : Call} (h : SendsOn c c') (packetId : PacketId)
    (m : SymmetricMessage) : SendsOn c (c'.reportSentPacket clock packetId m) where
  toSends := { h with }
  held id hid := by rw [reportSentPacket_held, h.held id hid, Bool.or_true]

variable (payload : SymmetricMessagePayload) (packetId : PacketId) (m : SymmetricMessage)

theorem sendTo_spec : (c.sendTo m).1.conn = c.conn ∧
      ((c.sendTo m).2 = .sent → (c.sendTo m).1.log = { c.log with sent := c.log.sent ++ [m] }) ∧
      ((c.sendTo m).2 ≠ .sent → (c.sendTo m).1.log = c.log) := by
  unfold sendTo
  cases c.socket with
  | nil => simp
  | cons outcome rest => cases outcome <;> simp

theorem sendTo_sends : SendsOn c (c.sendTo m).1 := by
  obtain ⟨hconn, hsent, hnot⟩ := c.sendTo_spec m
  refine ⟨?_, fun id hid => by rwa [hconn]⟩
  by_cases h : (c.sendTo m).2 = .sent
  · exact ⟨⟨by rw [hconn], by rw [hsent h], by rw [hsent h]⟩, by rw [hsent h]⟩
  · exact ⟨⟨by rw [hconn], by rw [hnot h], by rw [hnot h]⟩, by rw [hnot h]⟩

theorem sendPackets_sends (packets : List SymmetricMessage) :
    SendsOn c (c.sendPackets clock packetId packets).1 := by
  induction packets generalizing c with
  | nil => exact .refl c
  | cons m rest ih =>
    have hsend := c.sendTo_sends m
    simp only [sendPackets]
    split
    · exact (hsend.reportSentPacket clock packetId m).trans (ih _)
    · exact hsend
    · exact hsend

variable (receipts : List PacketId) (payload : SymmetricMessagePayload)

theorem packetSending_sends : SendsOn c (c.packetSending clock packetId receipts payload).1 := by
  unfold packetSending
  split
  · exact .refl c
  · exact c.sendPackets_sends clock packetId _

theorem nextPacketId_sends : SendsOn c c.nextPacketId := ⟨⟨⟨rfl, rfl, rfl⟩, rfl⟩, fun _ h => h⟩

theorem sendMessage_sends : SendsOn c (c.sendMessage clock receipts payload).1 :=
  c.nextPacketId_sends.trans (c.nextPacketId.packetSending_sends clock _ _ _)

theorem sendUntracked_sends : SendsOn c (c.sendUntracked payload).1 :=
  c.nextPacketId_sends.trans (c.nextPacketId.sendTo_sends _)

theorem answerPing_sends : SendsOn c (c.answerPing payload).1 := by
  unfold answerPing
  split
  · exact c.sendUntracked_sends _
  · exact .refl c

theorem sendTo_socket : (c.sendTo m).1.socket ⊆ c.socket := by
  unfold sendTo
  cases c.socket with
  | nil => simp
  | cons outcome rest => cases outcome <;> simp

theorem answerPing_socket : (c.answerPing payload).1.socket ⊆ c.socket := by
  unfold answerPing
  split
  · exact c.nextPacketId.sendTo_socket _
  · exact Subset.refl _

theorem noteReportTime_sends : SendsOn c (c.noteReportTime clock) := by
  unfold noteReportTime
  split_ifs
  · exact ⟨⟨⟨rfl, rfl, rfl⟩, rfl⟩, fun _ h => h⟩
  · exact .refl c

theorem noteReportTime_socket : (c.noteReportTime clock).socket = c.socket := by
  unfold noteReportTime
  split_ifs <;> rfl

theorem reportReceivedReceipts_sameInbound (scale : DurationScale) (receipts : List PacketId) :
    SameInbound c (c.reportReceivedReceipts clock scale receipts) := ⟨rfl, rfl, rfl⟩

theorem resendPacket_sends (packet : SymmetricMessage) :
    SendsOn c (c.resendPacket clock packetId packet) := by
  have hsend := c.sendTo_sends packet
  unfold resendPacket
  dsimp only
  split_ifs
  · exact hsend
  · exact hsend.reportSentPacket clock packetId packet

theorem resend_sends : Sends c (c.resend clock) := by
  have htimers : Sends c
      { c with conn.sentTracker := (c.conn.sentTracker.getResend clock.nanos).1 } :=
    ⟨⟨rfl, rfl, rfl⟩, rfl⟩
  unfold resend
  dsimp only
  split
  · exact htimers
  · exact htimers.trans (resendPacket_sends _ clock _ _).toSends
  · exact htimers.trans (resendPacket_sends _ clock _ _).toSends

theorem flushReceipts_sends : SendsOn (c.takeReceipts clock) (c.flushReceipts clock).1 := by
  unfold flushReceipts
  split_ifs
  · exact .refl _
  · exact sendMessage_sends _ clock _ _

theorem sendWithReceipts_sends : SendsOn (c.takeReceipts clock) (c.sendWithReceipts clock payload).1 :=
  sendMessage_sends _ clock _ _

theorem answerAck_sends : (c.answerAck payload).conn = c.conn ∧ SendsOn c (c.answerAck payload) := by
  unfold answerAck
  split
  · exact ⟨(c.sendTo_spec _).1, c.sendTo_sends _⟩
  · exact ⟨rfl, .refl c⟩

theorem processInbound_inbound : (c.processInbound packetId payload).conn = c.conn ∧
      (c.processInbound packetId payload).log.accepted = c.log.accepted ∧
      (c.processInbound packetId payload).log.processed = c.log.processed ++ [(packetId, payload)] := by
  obtain ⟨hconn, hsame⟩ := answerAck_sends
    { c with log.processed := c.log.processed ++ [(packetId, payload)] } payload
  exact ⟨hconn, hsame.accepted, hsame.processed⟩

/-- What holds whether or not the receipts went out first holds after a report, if processing keeps
it. -/
theorem afterReport_of {P : Call → Prop} (report : ReportResult) (receiptsDue : Bool)
    (hflushed : report = .queueFull ∨ receiptsDue = true → P (c.flushReceipts clock).1)
    (hkept : ¬ (report = .queueFull ∨ receiptsDue = true) → P c)
    (hprocess : ∀ c', P c' → P (c'.processInbound m.packetId m.payload)) :
    P (c.afterReport clock m report receiptsDue) := by
  unfold afterReport
  split_ifs with hcond
  · have hflushed := hflushed hcond
    dsimp only
    split
    · exact hprocess _ hflushed
    · exact hprocess _ hflushed
    · exact hflushed
    · exact hflushed
  · split
    · exact hkept hcond
    · exact hprocess c (hkept hcond)

/-- What a report does: a known packet changes nothing but what has expired, a new one is
accepted. -/
theorem afterReport_inbound (report : ReportResult) (receiptsDue : Bool) :
    ((c.afterReport clock m report receiptsDue).conn.receivedTracker = c.conn.receivedTracker ∨
      (c.afterReport clock m report receiptsDue).conn.receivedTracker =
        (c.conn.receivedTracker.getReceipts clock.instant).1) ∧
    (c.afterReport clock m report receiptsDue).log.accepted = c.log.accepted ∧
    ((c.afterReport clock m report receiptsDue).log.processed = c.log.processed ∨
      (c.afterReport clock m report receiptsDue).log.processed =
        c.log.processed ++ [(m.packetId, m.payload)] ∧
      (report = .alreadyReceived → receiptsDue = true)) := by
  have hflush := c.flushReceipts_sends clock
  unfold afterReport
  split_ifs with hcond
  · have hdue : report = .alreadyReceived → receiptsDue = true := by
      rintro rfl
      simpa using hcond
    obtain ⟨hconn, hacc, hproc⟩ :=
      (c.flushReceipts clock).1.processInbound_inbound m.packetId m.payload
    rw [hflush.accepted] at hacc
    rw [hflush.processed] at hproc
    dsimp only
    split
    · refine ⟨.inr ?_, hacc, .inr ⟨hproc, hdue⟩⟩
      rw [hconn, hflush.receivedTracker]
      rfl
    · refine ⟨.inr ?_, hacc, .inr ⟨hproc, hdue⟩⟩
      rw [hconn, hflush.receivedTracker]
      rfl
    · exact ⟨.inr hflush.receivedTracker, hflush.accepted, .inl hflush.processed⟩
    · exact ⟨.inr hflush.receivedTracker, hflush.accepted, .inl hflush.processed⟩
  · obtain ⟨hconn, hacc, hproc⟩ := c.processInbound_inbound m.packetId m.payload
    cases report with
    | alreadyReceived => exact ⟨.inl rfl, rfl, .inl rfl⟩
    | ok | queueFull => exact ⟨.inl (by rw [hconn]), hacc, .inr ⟨hproc, by simp⟩⟩

theorem reportReceivedPacket_tracker : (c.reportReceivedPacket clock packetId).1.conn.receivedTracker =
      (c.conn.receivedTracker.reportReceivedPacket clock.instant packetId).1 := rfl

theorem reportReceivedPacket_inbound :
    (c.reportReceivedPacket clock packetId).1.log.processed = c.log.processed ∧
    (c.reportReceivedPacket clock packetId).1.log.accepted =
      (if c.conn.receivedTracker.holds clock.instant packetId then c.log.accepted
        else c.log.accepted ++ [packetId]) ∧
    ((c.reportReceivedPacket clock packetId).2 = .alreadyReceived ↔
      c.conn.receivedTracker.holds clock.instant packetId = true) := by
  unfold reportReceivedPacket
  cases hholds : c.conn.receivedTracker.holds clock.instant packetId with
  | true =>
    rw [ReceivedPacketTracker.reportReceivedPacket_of_holds _ _ _ hholds]
    simp
  | false =>
    rw [ReceivedPacketTracker.reportReceivedPacket_of_not_holds _ _ _ hholds]
    split_ifs <;> simp_all

theorem answerPing_receiptsDue :
    (c.answerPing payload).1.conn.receiptsDue clock = c.conn.receiptsDue clock := by
  unfold answerPing
  split
  · unfold sendPong sendUntracked
    rw [(c.nextPacketId.sendTo_spec _).1]
    rfl
  · rfl

theorem reportReceivedReceipts_socket (scale : DurationScale) (receipts : List PacketId) :
    (c.reportReceivedReceipts clock scale receipts).socket = c.socket := rfl

theorem Retains.reportReceivedReceipts {c : Call} {id : PacketId} (h : c.Retains id)
    (scale : DurationScale) (receipts : List PacketId) :
    (c.reportReceivedReceipts clock scale receipts).Retains id := by
  rcases h with hheld | hacked
  · by_cases hid : id ∈ receipts
    · exact .inr (mem_append_right _ (mem_filter.mpr ⟨hid, hheld⟩))
    · left
      rw [reportReceivedReceipts_held]
      simp [hid, hheld]
  · exact .inr (mem_append_left _ hacked)

theorem recvMessage_cases (scale : DurationScale) : c.SendsOn (c.recvMessage clock scale m) ∨
    ∃ ready : Call, c.SameInbound ready ∧ ready.socket ⊆ c.socket ∧
      (∀ id ∈ ready.log.acknowledged, id ∈ c.log.acknowledged ∨ id ∈ m.confirmReceipt) ∧
      c.recvMessage clock scale m = (ready.reportReceivedPacket clock m.packetId).1.afterReport clock m
          (ready.reportReceivedPacket clock m.packetId).2 (c.conn.receiptsDue clock) ∧
      ∀ id, c.Retains id → ready.Retains id := by
  have hping := c.answerPing_sends m.payload
  have hnoted := hping.trans (noteReportTime_sends _ clock)
  unfold recvMessage
  dsimp only
  split_ifs
  · exact .inl hping
  · refine .inr ⟨((c.answerPing m.payload).1.noteReportTime clock).reportReceivedReceipts clock
      scale m.confirmReceipt, ?_, ?_, ?_, ?_, ?_⟩
    · exact hnoted.toSameInbound.trans (reportReceivedReceipts_sameInbound _ clock scale m.confirmReceipt)
    · rw [reportReceivedReceipts_socket, noteReportTime_socket]
      exact c.answerPing_socket m.payload
    · intro id hid
      rw [← hnoted.acknowledged]
      exact (mem_append.mp hid).imp_right fun h => (mem_filter.mp h).1
    · rw [answerPing_receiptsDue]
    · intro id h
      exact (hnoted.retains h).reportReceivedReceipts clock scale m.confirmReceipt

end Call

def ReceiptsTaken (now : Nat) (t t' : ReceivedPacketTracker) : Prop :=
  t' = t ∨ t' = (t.getReceipts now).1

/-- What an inbound packet that is not lost at its ping does to the received packets. -/
structure Receives (clock : Clock) (m : SymmetricMessage) (conn conn' : PeerConnection) (log : Log) :
    Prop where
  tracker : ReceiptsTaken clock.instant
    (conn.receivedTracker.reportReceivedPacket clock.instant m.packetId).1 conn'.receivedTracker
  accepted : log.accepted = if conn.receivedTracker.holds clock.instant m.packetId then [] else [m.packetId]
  processed : log.processed = [] ∨ log.processed = [(m.packetId, m.payload)] ∧
    (conn.receivedTracker.holds clock.instant m.packetId = true → conn.receiptsDue clock = true)

theorem Call.recvMessage_inbound (c : Call) (clock : Clock) (scale : DurationScale)
    (m : SymmetricMessage) (hc : c.log = .empty) : c.SameInbound (c.recvMessage clock scale m) ∨
      Receives clock m c.conn (c.recvMessage clock scale m).conn (c.recvMessage clock scale m).log := by
  rcases c.recvMessage_cases clock m scale with hsends | ⟨ready, hready, -, -, hrecv, -⟩
  · exact .inl hsends.toSameInbound
  · right
    obtain ⟨hproc, hacc, hknown⟩ := ready.reportReceivedPacket_inbound clock m.packetId
    obtain ⟨htrack, hafter⟩ :=
      (ready.reportReceivedPacket clock m.packetId).1.afterReport_inbound clock m
        (ready.reportReceivedPacket clock m.packetId).2 (c.conn.receiptsDue clock)
    rw [hready.receivedTracker] at hacc hknown
    rw [hready.accepted, hc] at hacc
    rw [hready.processed, hc] at hproc
    rw [reportReceivedPacket_tracker, hready.receivedTracker] at htrack
    rw [hacc, hproc, hknown] at hafter
    rw [hrecv]
    exact ⟨htrack, hafter.1, hafter.2⟩

variable (scale : DurationScale) (clock : Clock) {event : PeerEvent}

/-- An event that is no packet sends something, with or without the pending receipts. -/
theorem PeerConnection.handle_sendsOn (c : Call) (h : ∀ m, event ≠ .packet m)
    (hresend : event ≠ .resendTimer) :
    c.SendsOn (handle scale clock c event) ∨ (c.takeReceipts clock).SendsOn
      (handle scale clock c event) := by
  cases event with
  | packet m => exact absurd rfl (h m)
  | introPacket => exact .inl (c.sendTo_sends _)
  | ackTimer => exact .inr (c.flushReceipts_sends clock)
  | resendTimer => exact absurd rfl hresend
  | shortMessage data => exact .inr (c.sendWithReceipts_sends clock _)
  | fragment streamId total number payload metadata withReceipts =>
    cases withReceipts with
    | true => exact .inr (c.sendWithReceipts_sends clock _)
    | false => exact .inl (c.sendMessage_sends clock _ _)
  | keepAlive sequence => exact .inl (c.sendUntracked_sends _)
  | trackAck => exact .inl ((Call.SendsOn.refl c).reportSentPacket clock _ _)

theorem PeerConnection.handle_sends (c : Call) (h : ∀ m, event ≠ .packet m) :
    c.Sends (handle scale clock c event) ∨
      (c.takeReceipts clock).Sends (handle scale clock c event) := by
  by_cases hresend : event = .resendTimer
  · subst hresend
    exact .inl (c.resend_sends clock)
  · exact (handle_sendsOn scale clock c h hresend).imp (·.toSends) (·.toSends)

theorem PeerConnection.step_inbound
    (socket : List SendOutcome) (conn : PeerConnection) (event : PeerEvent) :
    (ReceiptsTaken clock.instant conn.receivedTracker
        (conn.step scale clock socket event).1.receivedTracker ∧
      (conn.step scale clock socket event).2.accepted = [] ∧
      (conn.step scale clock socket event).2.processed = []) ∨
    ∃ m, event = .packet m ∧ Receives clock m conn (conn.step scale clock socket event).1
      (conn.step scale clock socket event).2 := by
  by_cases hpack : ∃ m, event = .packet m
  · obtain ⟨m, rfl⟩ := hpack
    rcases Call.recvMessage_inbound ⟨conn, .empty, socket⟩ clock scale m rfl with h | h
    · exact .inl ⟨.inl h.receivedTracker, h.accepted, h.processed⟩
    · exact .inr ⟨m, rfl, h⟩
  · left
    rcases handle_sends scale clock ⟨conn, .empty, socket⟩ (fun m h => hpack ⟨m, h⟩) with h | h
    · exact ⟨.inl h.receivedTracker, h.accepted, h.processed⟩
    · exact ⟨.inr h.receivedTracker, h.accepted, h.processed⟩

end Calls

/-! How often the payload of a packet id reaches `process_inbound` while the id is retained. -/
open Lib List

structure TracedConnection where
  conn : PeerConnection
  instant : Nat
  accepted : List (PacketId × Nat)
  processed : List (PacketId × Nat)

/-- An event with the time that has passed, the reading of the time source and the sends. -/
structure TimedEvent where
  elapsed : Nat
  nanos : Nat
  socket : List SendOutcome
  event : PeerEvent

namespace TracedConnection
variable (scale : DurationScale) (s : TracedConnection) (e : TimedEvent)

def clock : Clock := ⟨s.instant + e.elapsed, e.nanos⟩

def step : TracedConnection :=
  let result := s.conn.step scale (s.clock e) e.socket e.event
  { conn := result.1
    instant := (s.clock e).instant
    accepted := s.accepted ++ result.2.accepted.map fun id => (id, (s.clock e).instant)
    processed := s.processed ++ result.2.processed.map fun p => (p.1, (s.clock e).instant) }

def ProcessedOnce : Prop :=
  ∀ id t₀, (id, t₀) ∈ s.accepted → s.processed.countP (fun p => p.1 = id ∧
    t₀ ≤ p.2 ∧ p.2 ≤ t₀ + retainTime) ≤ 1

/-- No packet whose id is still retained arrives when the receipts are due by time. -/
def NoDuplicateWhenDue : Prop :=
  ∀ m, e.event = .packet m → s.conn.receivedTracker.holds (s.clock e).instant m.packetId = true →
      s.conn.receiptsDue (s.clock e) = false

/-- The tracker remembers what was accepted; acceptances of one id are further apart than the
retention time, and only what is accepted is processed. -/
structure Remembers : Prop where
  consistent : s.conn.receivedTracker.Consistent
  retained : ∀ a ∈ s.accepted, s.instant ≤ a.2 + retainTime → a ∈ s.conn.receivedTracker.packetIdTime
  spaced : s.accepted.Pairwise fun a b => a.1 = b.1 → a.2 + retainTime < b.2
  sublist : s.processed.Sublist s.accepted

end TracedConnection

def connectionMachine (scale : DurationScale) : Machine TracedConnection TimedEvent where
  init s := s.conn.receivedTracker = .new ∧ s.accepted = [] ∧ s.processed = []
  step s e := some (s.step scale e)

theorem countP_le_one_of_pairwise {α : Type*} {R : α → α → Prop} {p : α → Bool} {l : List α}
    (hl : l.Pairwise R) (hp : ∀ a b, p a = true → p b = true → ¬ R a b) : l.countP p ≤ 1 := by
  induction l with
  | nil => simp
  | cons a l ih =>
    obtain ⟨ha, hl⟩ := pairwise_cons.mp hl
    by_cases hpa : p a = true
    · have hnone : l.countP p = 0 := by
        rw [countP_eq_zero]
        intro b hb hpb
        exact hp a b hpa hpb (ha b hb)
      rw [countP_cons_of_pos hpa]
      omega
    · rw [countP_cons_of_neg hpa]
      exact ih hl

theorem retains_of_taken {t t' : ReceivedPacketTracker} {now : Nat}
    {accepted : List (PacketId × Nat)} (h : ReceiptsTaken now t t') (ht : t.Retains now accepted) :
    t'.Retains now accepted := by
  rcases h with rfl | rfl
  · exact ht
  · exact ht.getReceipts (Nat.le_refl now)

namespace TracedConnection
variable {s : TracedConnection}

theorem Remembers.processedOnce (hs : s.Remembers) : s.ProcessedOnce := by
  intro id t₀ _
  have hspac := hs.spaced.sublist hs.sublist
  refine countP_le_one_of_pairwise hspac ?_
  intro a b ha hb hab
  simp only [decide_eq_true_eq] at ha hb
  have := hab (ha.1.trans hb.1.symm)
  omega

theorem Remembers.retains (hs : s.Remembers) :
    s.conn.receivedTracker.Retains s.instant s.accepted := ⟨hs.consistent, hs.retained, hs.spaced⟩

theorem Remembers.of_retains (h : s.conn.receivedTracker.Retains s.instant s.accepted)
    (hsubl : s.processed.Sublist s.accepted) : s.Remembers :=
  ⟨h.consistent, h.retained, h.spaced, hsubl⟩

theorem step_remembers (scale : DurationScale) (s : TracedConnection) (e : TimedEvent)
    (hs : s.Remembers) (hcond : s.NoDuplicateWhenDue e) : (s.step scale e).Remembers := by
  have hinst : s.instant ≤ (s.clock e).instant := Nat.le_add_right _ _
  rcases PeerConnection.step_inbound scale (s.clock e) e.socket s.conn e.event with
    ⟨htaken, hacc, hproc⟩ | ⟨m, hevent, hreceives⟩
  · have hrets := retains_of_taken htaken (hs.retains.mono hinst)
    refine .of_retains ?_ ?_
    · simpa [step, hacc] using hrets
    · simpa [step, hacc, hproc] using hs.sublist
  · have hacc := hreceives.accepted
    have hproc := hreceives.processed
    have htrack := hreceives.tracker
    cases hheld : s.conn.receivedTracker.holds (s.clock e).instant m.packetId with
    | true =>
      -- a packet whose id is retained is dropped, because the receipts are not due
      rw [hheld] at hacc hproc
      have hnone : (s.conn.step scale (s.clock e) e.socket e.event).2.processed = [] := by
        rcases hproc with h | ⟨-, hdue⟩
        · exact h
        · simp [hcond m hevent hheld] at hdue
      rw [ReceivedPacketTracker.reportReceivedPacket_of_holds _ _ _ hheld] at htrack
      have hrets := retains_of_taken htrack (hs.retains.cleanup hinst)
      refine .of_retains ?_ ?_
      · simpa [step, hacc] using hrets
      · simpa [step, hacc, hnone] using hs.sublist
    | false =>
      rw [hheld] at hacc
      have hrets := retains_of_taken htrack (hs.retains.accept hinst hheld)
      refine .of_retains ?_ ?_
      · simpa [step, hacc] using hrets
      · rcases hproc with h | ⟨h, -⟩
        · simpa [step, hacc, h] using hs.sublist.trans (sublist_append_left s.accepted [_])
        · simpa [step, hacc, h] using hs.sublist

end TracedConnection

/-- In every run in which no packet with a retained id arrives when the receipts are due by time,
the payload of an id is processed at most once within the retention time. -/
theorem processed_once_of_no_duplicate_when_due (scale : DurationScale) (s t : TracedConnection)
    (es : List TimedEvent) (hinit : (connectionMachine scale).init s)
    (hcond : (connectionMachine scale).Along TracedConnection.NoDuplicateWhenDue s es)
    (hrun : (connectionMachine scale).runFrom s es = some t) : t.ProcessedOnce := by
  refine TracedConnection.Remembers.processedOnce ?_
  refine (connectionMachine scale).invariant_of_along TracedConnection.NoDuplicateWhenDue
    TracedConnection.Remembers ?_ ?_ hcond hrun
  · intro s e s' hs hc hstep
    cases hstep
    exact TracedConnection.step_remembers scale s e hs hc
  · obtain ⟨hnew, hacc, hproc⟩ := hinit
    refine ⟨?_, ?_, ?_, ?_⟩
    · rw [hnew]
      exact ReceivedPacketTracker.new_consistent
    · simp [hacc]
    · simp [hacc]
    · rw [hacc, hproc]

def startingConnection : TracedConnection := ⟨freshConnection, 0, [], []⟩

def packetAndCopy (delay : Nat) : List TimedEvent :=
  [⟨0, 0, [], .packet ⟨0, [], .shortMessage [7]⟩⟩, ⟨delay, delay, [], .packet ⟨0, [], .shortMessage [7]⟩⟩]

/-- A copy that arrives before the receipts are due is dropped. -/
theorem promptCopy_processed_once :
    ∃ t, (connectionMachine .floor).runFrom startingConnection (packetAndCopy nanosPerMilli) =
      some t ∧ t.ProcessedOnce := by
  refine ⟨_, rfl, processed_once_of_no_duplicate_when_due .floor startingConnection _
    (packetAndCopy nanosPerMilli) ⟨rfl, rfl, rfl⟩ ?_ rfl⟩
  refine ⟨fun m _ _ => by decide +kernel, ?_⟩
  intro s' hstep
  cases hstep
  exact ⟨fun m _ _ => by decide +kernel, fun _ _ => trivial⟩

/-- A copy that arrives when the receipts are due is processed a second time. -/
theorem lateCopy_processed_twice : (connectionMachine .floor).init startingConnection ∧
    ∃ t, (connectionMachine .floor).runFrom startingConnection
      (packetAndCopy (700 * nanosPerMilli)) = some t ∧ ¬ t.ProcessedOnce := by
  obtain ⟨t, hrun, hacc, hproc⟩ : ∃ t, (connectionMachine .floor).runFrom
      startingConnection (packetAndCopy (700 * nanosPerMilli)) = some t ∧ t.accepted = [(0, 0)] ∧
      t.processed = [(0, 0), (0, 700 * nanosPerMilli)] := by
    decide +kernel
  refine ⟨⟨rfl, rfl, rfl⟩, t, hrun, ?_⟩
  intro honce
  have hcount := honce 0 0 (by simp [hacc])
  rw [hproc] at hcount
  exact absurd hcount (by decide +kernel)

end Freenet.Transport
