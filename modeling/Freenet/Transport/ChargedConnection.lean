import Freenet.Lib.Ledger
import Freenet.Transport.OutboundPackets
import Freenet.Transport.SendStream

/-! Congestion controllers, as far as bytes in flight go, and what a connection charges and
credits. -/
namespace Freenet.Transport
open Lib

structure BbrController where
  flightsize : Nat
  deriving DecidableEq, Repr

structure LedbatController where
  flightsize : Nat
  deriving DecidableEq, Repr

structure FixedRateController where
  flightsize : Nat
  lossPause : Bool
  deriving DecidableEq, Repr

namespace BbrController
variable (c : BbrController)

def onSend (bytes : Nat) : BbrController := { c with flightsize := c.flightsize + bytes }

def onAckWithToken (bytesAcked : Nat) : BbrController :=
  { c with flightsize := c.flightsize - min bytesAcked c.flightsize }

/-- An acknowledgement without a sample counts with an estimate of the round trip. -/
def onAckWithoutRtt (bytesAcked : Nat) : BbrController := c.onAckWithToken bytesAcked

end BbrController

namespace LedbatController
variable (c : LedbatController)

def onSend (bytes : Nat) : LedbatController := { c with flightsize := c.flightsize + bytes }

def onAck (bytesAcked : Nat) : LedbatController := { c with flightsize := c.flightsize - bytesAcked }

def onAckWithoutRtt (bytesAcked : Nat) : LedbatController :=
  { c with flightsize := c.flightsize - bytesAcked }

end LedbatController

namespace FixedRateController
variable (c : FixedRateController)

def onSend (bytes : Nat) : FixedRateController := { c with flightsize := c.flightsize + bytes }

def onAckWithoutRtt (bytesAcked : Nat) : FixedRateController where
  flightsize := c.flightsize - bytesAcked
  lossPause := false

def onAck (bytesAcked : Nat) : FixedRateController := c.onAckWithoutRtt bytesAcked

/-- After a timeout no new data is sent until something is acknowledged. -/
def onTimeout : FixedRateController := { c with lossPause := true }

end FixedRateController

inductive CongestionControlAlgorithm where
  | bbr
  | ledbat
  | fixedRate
  deriving DecidableEq, Repr

inductive CongestionController where
  | bbr (c : BbrController)
  | ledbat (c : LedbatController)
  | fixedRate (c : FixedRateController)
  deriving DecidableEq, Repr

def CongestionControlAlgorithm.build : CongestionControlAlgorithm → CongestionController
  | bbr => .bbr ⟨0⟩
  | ledbat => .ledbat ⟨0⟩
  | fixedRate => .fixedRate ⟨0, false⟩

namespace CongestionController

def flightsize : CongestionController → Nat
  | bbr c => c.flightsize
  | ledbat c => c.flightsize
  | fixedRate c => c.flightsize

def onSendWithToken (bytes : Nat) : CongestionController → CongestionController
  | bbr c => bbr (c.onSend bytes)
  | ledbat c => ledbat (c.onSend bytes)
  | fixedRate c => fixedRate (c.onSend bytes)

def onAckWithToken (bytesAcked : Nat) : CongestionController → CongestionController
  | bbr c => bbr (c.onAckWithToken bytesAcked)
  | ledbat c => ledbat (c.onAck bytesAcked)
  | fixedRate c => fixedRate (c.onAck bytesAcked)

def onAckWithoutRtt (bytesAcked : Nat) : CongestionController → CongestionController
  | bbr c => bbr (c.onAckWithoutRtt bytesAcked)
  | ledbat c => ledbat (c.onAckWithoutRtt bytesAcked)
  | fixedRate c => fixedRate (c.onAckWithoutRtt bytesAcked)

/-- Timeouts of the other two controllers change their windows only. -/
def onTimeout : CongestionController → CongestionController
  | bbr c => bbr c
  | ledbat c => ledbat c
  | fixedRate c => fixedRate c.onTimeout

/-- What `recv` tells the controller about one acknowledged packet. -/
def onAckInfo (controller : CongestionController) (info : AckInfo) : CongestionController :=
  match info.rttSample with
  | some _ => controller.onAckWithToken info.packetSize
  | none => controller.onAckWithoutRtt info.packetSize

variable (controller : CongestionController)

@[simp]
theorem flightsize_build (algorithm : CongestionControlAlgorithm) : algorithm.build.flightsize = 0 := by
  cases algorithm <;> rfl

@[simp]
theorem flightsize_onSendWithToken (bytes : Nat) :
    (controller.onSendWithToken bytes).flightsize = controller.flightsize + bytes := by
  cases controller <;> rfl

@[simp]
theorem flightsize_onTimeout : controller.onTimeout.flightsize = controller.flightsize := by
  cases controller <;> rfl

/-- Every algorithm takes the size of an acknowledged packet off its bytes in flight, down to none
at most. -/
@[simp]
theorem flightsize_onAckInfo (info : AckInfo) :
    (controller.onAckInfo info).flightsize = controller.flightsize - info.packetSize := by
  have hmin : ∀ flightsize : Nat, flightsize - min info.packetSize flightsize =
      flightsize - info.packetSize := by
    intro flightsize
    omega
  unfold onAckInfo
  cases info.rttSample with
  | some _ | none =>
    cases controller with
    | bbr c => exact hmin c.flightsize
    | ledbat c => rfl
    | fixedRate c => rfl

theorem flightsize_foldl_onAckInfo (infos : List AckInfo) :
    (infos.foldl onAckInfo controller).flightsize =
      controller.flightsize - (infos.map AckInfo.packetSize).sum := by
  induction infos generalizing controller with
  | nil => rfl
  | cons info infos ih =>
    rw [List.foldl_cons, ih, flightsize_onAckInfo, List.map_cons, List.sum_cons, Nat.sub_sub]

end CongestionController

/-- A call of a connection with the controller, and with the bytes charged for the packet that was
last tracked under each id. -/
structure ChargedCall where
  call : Call
  congestionController : CongestionController
  charges : Ledger PacketId

namespace ChargedCall
variable (c : ChargedCall) (clock : Clock)

def sendMessage (packetSize : Nat) (confirmReceipt : List PacketId)
    (payload : SymmetricMessagePayload) : ChargedCall × SendResult :=
  let sending := c.call.sendMessage clock confirmReceipt payload
  ({ call := sending.1
     congestionController := c.congestionController.onSendWithToken packetSize
     -- a packet is tracked once the socket has taken it
     charges :=
       if sending.1.log.sent = c.call.log.sent then c.charges
       else c.charges.book c.call.conn.lastPacketId packetSize },
    sending.2)

def noop (receipts : List PacketId) : ChargedCall × SendResult :=
  c.sendMessage clock 50 receipts .noOp

def takeReceipts : ChargedCall := { c with call := c.call.takeReceipts clock }

def sendWithReceipts (packetSize : Nat) (payload : SymmetricMessagePayload) : ChargedCall × SendResult :=
  (c.takeReceipts clock).sendMessage clock packetSize c.call.conn.receivedTracker.pendingReceipts payload

def outboundShortMessage (data : List UInt8) : ChargedCall × SendResult :=
  c.sendWithReceipts clock (data.length + 40) (.shortMessage data)

def flushReceipts : ChargedCall × SendResult :=
  if c.call.conn.receivedTracker.pendingReceipts = [] then (c.takeReceipts clock, .ok)
  else (c.takeReceipts clock).noop clock c.call.conn.receivedTracker.pendingReceipts

/-- Each packet that a receipt drops is credited the size under which it is tracked. -/
def reportReceivedReceipts (scale : DurationScale) (confirmReceipt : List PacketId) : ChargedCall :=
  let ackInfo := (SentPacketTracker.reportReceivedReceipts scale clock.nanos c.call.conn.sentTracker
    confirmReceipt).2
  { c with
    call := c.call.reportReceivedReceipts clock scale confirmReceipt
    congestionController := ackInfo.foldl CongestionController.onAckInfo c.congestionController }

def processInbound (packetId : PacketId) (payload : SymmetricMessagePayload) : ChargedCall :=
  { c with call := c.call.processInbound packetId payload }

def afterReport (m : SymmetricMessage) (report : ReportResult) (receiptsDue : Bool) : ChargedCall :=
  if report = .queueFull ∨ receiptsDue then
    let flushed := c.flushReceipts clock
    match flushed.2 with
    | .ok | .sendFailed => flushed.1.processInbound m.packetId m.payload
    | .serialization | .cancelled => flushed.1
  else
    match report with
    | .alreadyReceived => c
    | _ => c.processInbound m.packetId m.payload

/-- Pongs are not charged, and not tracked either. -/
def recvMessage (scale : DurationScale) (m : SymmetricMessage) : ChargedCall :=
  let pinged := c.call.answerPing m.payload
  if pinged.2 = .cancelled then { c with call := pinged.1 }
  else
    let c := { c with call := pinged.1.noteReportTime clock }.reportReceivedReceipts clock scale
      m.confirmReceipt
    let reported := c.call.reportReceivedPacket clock m.packetId
    { c with call := reported.1 }.afterReport clock m reported.2 (pinged.1.conn.receiptsDue clock)

def resend : ChargedCall :=
  { c with
    call := c.call.resend clock
    congestionController :=
      match (c.call.conn.sentTracker.getResend clock.nanos).2 with
      | .resend _ _ => c.congestionController.onTimeout
      | _ => c.congestionController }

/-- The acknowledgement of the handshake is tracked without a charge. -/
def trackAck : ChargedCall where
  call := c.call.reportSentPacket clock firstPacketId c.call.conn.ackOk
  congestionController := c.congestionController
  charges := c.charges.book firstPacketId 0

end ChargedCall

def StreamFragment.toPayload (f : StreamFragment) : SymmetricMessagePayload :=
  PeerConnection.fragmentPayload f.streamId f.totalLengthBytes f.fragmentNumber f.payload f.metadataBytes

/-- What can happen at one end of a connection, with the fragments as their senders know them: a
turn of the loop of `send_stream`, one of `pipe_stream`, or a fragment that is forwarded alone. -/
inductive TransportEvent where
  | packet (m : SymmetricMessage)
  | introPacket
  | ackTimer
  | resendTimer
  | shortMessage (data : List UInt8)
  | sendStream (stream : OutboundStream)
  | pipeStream (fragment : StreamFragment)
  | sendFragment (streamId : StreamId) (totalBytes fragmentNumber : Nat) (payload : Bytes)
  | keepAlive (sequence : Nat)
  | trackAck
  deriving DecidableEq

def forwardFragment (streamId : StreamId) (totalBytes fragmentNumber : Nat) (payload : Bytes) :
    StreamFragment :=
  ⟨streamId, totalBytes, fragmentNumber, payload, none⟩

def ChargedCall.handle (scale : DurationScale) (clock : Clock) (c : ChargedCall) :
    TransportEvent → ChargedCall
  | .packet m => c.recvMessage clock scale m
  | .introPacket => { c with call := (c.call.sendTo c.call.conn.ackOk).1 }
  | .ackTimer => (c.flushReceipts clock).1
  | .resendTimer => c.resend clock
  | .shortMessage data => (c.outboundShortMessage clock data).1
  -- the charge is what is left of the stream, up to a full fragment
  | .sendStream stream => (c.sendMessage clock stream.packetSize [] stream.fragment.toPayload).1
  | .pipeStream fragment =>
    (c.sendMessage clock fragment.payload.length [] fragment.toPayload).1
  | .sendFragment streamId total number payload =>
    (c.sendWithReceipts clock payload.length (forwardFragment streamId total number payload).toPayload).1
  | .keepAlive sequence => { c with call := (c.call.sendUntracked (.ping sequence)).1 }
  | .trackAck => c.trackAck clock

def StreamFragment.toPeerEvent (f : StreamFragment) (withReceipts : Bool) : PeerEvent :=
  .fragment f.streamId f.totalLengthBytes f.fragmentNumber f.payload f.metadataBytes withReceipts

/-- The same event for a connection whose controller is left out. -/
def TransportEvent.toPeerEvent : TransportEvent → PeerEvent
  | packet m => .packet m
  | introPacket => .introPacket
  | ackTimer => .ackTimer
  | resendTimer => .resendTimer
  | shortMessage data => .shortMessage data
  | sendStream stream => stream.fragment.toPeerEvent false
  | pipeStream fragment => fragment.toPeerEvent false
  | sendFragment streamId total number payload =>
    (forwardFragment streamId total number payload).toPeerEvent true
  | keepAlive sequence => .keepAlive sequence
  | trackAck => .trackAck

namespace ChargedCall
variable (c : ChargedCall) (clock : Clock)

theorem flushReceipts_call : (c.flushReceipts clock).1.call = (c.call.flushReceipts clock).1 ∧
    (c.flushReceipts clock).2 = (c.call.flushReceipts clock).2 := by
  unfold flushReceipts Call.flushReceipts
  split_ifs
  · exact ⟨rfl, rfl⟩
  · exact ⟨rfl, rfl⟩

variable (scale : DurationScale) (m : SymmetricMessage)

theorem afterReport_call (report : ReportResult) (receiptsDue : Bool) :
    (c.afterReport clock m report receiptsDue).call = c.call.afterReport clock m report receiptsDue := by
  obtain ⟨hcall, hresult⟩ := c.flushReceipts_call clock
  unfold afterReport Call.afterReport
  split_ifs
  · dsimp only
    rw [← hresult, ← hcall]
    cases (c.flushReceipts clock).2 <;> rfl
  · cases report <;> rfl

theorem recvMessage_call : (c.recvMessage clock scale m).call = c.call.recvMessage clock scale m := by
  unfold recvMessage Call.recvMessage
  dsimp only
  split_ifs
  · rfl
  · exact afterReport_call _ clock m _ _

theorem handle_call (event : TransportEvent) : (c.handle scale clock event).call =
      PeerConnection.handle scale clock c.call event.toPeerEvent := by
  cases event with
  | packet m => exact c.recvMessage_call clock scale m
  | ackTimer => exact (c.flushReceipts_call clock).1
  | introPacket | resendTimer | shortMessage data | sendStream stream | pipeStream fragment
  | sendFragment streamId total number payload | keepAlive sequence | trackAck => rfl

end ChargedCall

structure ChargedConnection where
  conn : PeerConnection
  congestionController : CongestionController
  charges : Ledger PacketId

structure ConnectionEvent where
  clock : Clock
  socket : List SendOutcome
  event : TransportEvent
  deriving DecidableEq

namespace ChargedConnection
variable (s : ChargedConnection)

def chargedBytes : Nat := s.charges.total s.conn.held

def Balanced : Prop := s.congestionController.flightsize = s.chargedBytes

def begin (socket : List SendOutcome) : ChargedCall :=
  ⟨⟨s.conn, .empty, socket⟩, s.congestionController, s.charges⟩

end ChargedConnection

def ChargedCall.connection (c : ChargedCall) : ChargedConnection :=
  ⟨c.call.conn, c.congestionController, c.charges⟩

def chargedConnection (scale : DurationScale) : Machine ChargedConnection ConnectionEvent where
  init s := s.conn.sentTracker = .new ∧ s.conn.receivedTracker = .new ∧ s.charges = .empty ∧
    ∃ algorithm : CongestionControlAlgorithm, s.congestionController = algorithm.build
  step s e := some ((s.begin e.socket).handle scale e.clock e.event).connection

/-! Which packets a connection holds as not acknowledged, after each of its calls. -/
open Finset

namespace SentPacketTracker
variable (t : SentPacketTracker)

def heldSize (id : PacketId) : Nat :=
  ((t.pendingReceipts.get id).map fun entry => entry.packet.packetSize).getD 0

variable (scale : DurationScale) (now : Nat)

theorem reportReceipt_heldSize (packetId id : PacketId) :
    (t.reportReceipt scale now packetId).1.heldSize id = if id = packetId then 0 else t.heldSize id := by
  unfold heldSize
  rw [reportReceipt_pending]
  split_ifs <;> rfl

theorem reportReceipt_sizes (packetId : PacketId) :
    ((t.reportReceipt scale now packetId).2.map AckInfo.packetSize).sum = t.heldSize packetId := by
  unfold reportReceipt heldSize
  cases t.pendingReceipts.get packetId with
  | none => rfl
  | some entry =>
    dsimp only [acknowledge]
    split_ifs <;> simp

theorem reportReceivedReceipts_sizes (ids : List PacketId) :
    ((reportReceivedReceipts scale now t ids).2.map AckInfo.packetSize).sum =
      ∑ id ∈ ids.toFinset, t.heldSize id := by
  induction ids generalizing t with
  | nil => rfl
  | cons first rest ih =>
    -- what the first receipt dropped counts for nothing in the rest
    have hrest : ∑ id ∈ rest.toFinset, (if id = first then 0 else t.heldSize id) =
        ∑ id ∈ rest.toFinset.erase first, t.heldSize id := by
      have hfirst : (if first = first then 0 else t.heldSize first) = 0 := if_pos rfl
      rw [← sum_erase (f := fun id => if id = first then 0 else t.heldSize id) _ hfirst]
      apply sum_congr rfl
      intro id hid
      exact if_neg (ne_of_mem_erase hid)
    simp only [reportReceivedReceipts, List.map_append, List.sum_append, ih, reportReceipt_sizes,
      reportReceipt_heldSize, hrest, List.toFinset_cons]
    rw [← erase_insert_eq_erase]
    exact add_sum_erase _ _ (mem_insert_self _ _)

/-- Only a packet whose timeout has passed leaves the pending ones, to be sent again. -/
theorem getResendFrom_pending (pto : Option Nat) (effectiveRto : Nat) (queue : List PacketId) :
    (t.getResendFrom now pto effectiveRto queue).1.pendingReceipts =
      match (t.getResendFrom now pto effectiveRto queue).2 with
      | .resend id _ => t.pendingReceipts.remove id
      | _ => t.pendingReceipts := by
  induction queue with
  | nil => rfl
  | cons packetId rest ih =>
    unfold getResendFrom
    cases t.pendingReceipts.get packetId with
    | none => exact ih
    | some entry =>
      dsimp only
      split_ifs <;> rfl

theorem getResend_pending_of_wait {now deadline : Nat} (h : (t.getResend now).2 = .waitUntil deadline) :
    (t.getResend now).1.pendingReceipts = t.pendingReceipts := by
  have hpend := t.getResendFrom_pending now t.probeTimeout t.effectiveRto t.resendQueue
  unfold getResend at h ⊢
  rw [h] at hpend
  exact hpend

theorem getResend_pending_of_resend {now : Nat} {id : PacketId} {packet : SymmetricMessage}
    (h : (t.getResend now).2 = .resend id packet ∨ (t.getResend now).2 = .tlpProbe id packet) :
    (t.pendingReceipts.get id).isSome = true ∧ ∀ id', id' ≠ id →
      (t.getResend now).1.pendingReceipts.get id' = t.pendingReceipts.get id' := by
  have hpend := t.getResendFrom_pending now t.probeTimeout t.effectiveRto t.resendQueue
  obtain ⟨sentTime, hentry⟩ :=
    (t.getResendFrom_spec now t.probeTimeout t.effectiveRto t.resendQueue).2 id packet h
  unfold getResend at h ⊢
  refine ⟨by rw [hentry]; rfl, ?_⟩
  intro id' hne
  rcases h with h | h
  · rw [h] at hpend
    rw [hpend]
    exact Table.get_remove_of_ne hne
  · rw [h] at hpend
    rw [hpend]

end SentPacketTracker

/-- A message that fits a packet by itself is sent in some packets, however its few receipts are
spread. -/
theorem SymmetricMessage.exists_packetsFor (packetId : PacketId) {receipts : List PacketId}
    {payload : SymmetricMessagePayload} (hfits : serializedSize ⟨packetId, [], payload⟩ ≤ maxDataSize)
    (hfew : receipts.length ≤ maxPendingReceipts) :
    ∃ first rest, packetsFor packetId receipts payload = some (first :: rest) := by
  have hmax : maxPendingReceipts = 20 := rfl
  have hnum : maxNumOfConfirmReceiptsOfNoopMessage = 288 := rfl
  unfold packetsFor
  dsimp only
  split_ifs with htogeth hroom
  · exact ⟨_, [], rfl⟩
  · simp only [serializeMsgToPacketData, if_pos hfits, if_pos (Call.noop_fits packetId _ hfew)]
    exact ⟨_, _, rfl⟩
  · omega

namespace Call
variable (c : Call) (clock : Clock)

theorem sendPackets_held {packetId : PacketId} (packets : List SymmetricMessage)
    (hheld : c.conn.held packetId = true) :
    (c.sendPackets clock packetId packets).1.conn.held = c.conn.held ∧
      c.log.sent.length ≤ (c.sendPackets clock packetId packets).1.log.sent.length := by
  induction packets generalizing c with
  | nil => exact ⟨rfl, Nat.le_refl _⟩
  | cons m rest ih =>
    obtain ⟨hconn, hsent, hnot⟩ := c.sendTo_spec m
    have hkept : (c.sendTo m).1.conn.held = c.conn.held := by rw [hconn]
    unfold sendPackets
    dsimp only
    cases houtc : (c.sendTo m).2 with
    | sent =>
      have htrack : ((c.sendTo m).1.reportSentPacket clock packetId m).conn.held = c.conn.held := by
        funext id
        rw [reportSentPacket_held, hkept]
        by_cases hid : id = packetId
        · simp [hid, hheld]
        · simp [hid]
      obtain ⟨hrest, hlength⟩ := ih ((c.sendTo m).1.reportSentPacket clock packetId m)
        (by rw [htrack]; exact hheld)
      have hlog : ((c.sendTo m).1.reportSentPacket clock packetId m).log.sent = c.log.sent ++ [m] := by
        change (c.sendTo m).1.log.sent = _
        rw [hsent houtc]
      rw [hlog, List.length_append] at hlength
      exact ⟨hrest.trans htrack, Nat.le_trans (Nat.le_add_right _ _) hlength⟩
    | failed | cancelled =>
      rw [houtc] at hnot
      exact ⟨hkept, by rw [hnot (by simp)]⟩

variable (payload : SymmetricMessagePayload) (m : SymmetricMessage)

theorem sendTo_outcome : (c.sendTo m).2 = c.socket.headD .sent := by
  unfold sendTo
  cases c.socket with
  | nil => rfl
  | cons outcome rest => cases outcome <;> rfl

theorem sendMessage_held {receipts : List PacketId} {payload : SymmetricMessagePayload}
    (hfits : SymmetricMessage.serializedSize ⟨c.conn.lastPacketId, [], payload⟩ ≤ maxDataSize)
    (hfew : receipts.length ≤ maxPendingReceipts) (hsock : c.socket.headD .sent = .sent) :
    (c.sendMessage clock receipts payload).1.log.sent ≠ c.log.sent ∧
      ∀ id, (c.sendMessage clock receipts payload).1.conn.held id =
        (decide (id = c.conn.lastPacketId) || c.conn.held id) := by
  obtain ⟨first, rest, hpack⟩ := SymmetricMessage.exists_packetsFor _ hfits hfew
  have htaken : (c.nextPacketId.sendTo first).2 = .sent :=
    (c.nextPacketId.sendTo_outcome first).trans hsock
  obtain ⟨hconn, hsent, -⟩ := c.nextPacketId.sendTo_spec first
  have htracked : ∀ id, ((c.nextPacketId.sendTo first).1.reportSentPacket clock c.conn.lastPacketId
      first).conn.held id = (decide (id = c.conn.lastPacketId) || c.conn.held id) := by
    intro id
    rw [reportSentPacket_held, hconn]
    rfl
  obtain ⟨hrest, hlength⟩ := sendPackets_held _ clock rest (((htracked c.conn.lastPacketId).trans (by simp)))
  unfold sendMessage packetSending
  rw [hpack]
  dsimp only [sendPackets]
  rw [htaken]
  constructor
  · intro hsame
    have hlog : ((c.nextPacketId.sendTo first).1.reportSentPacket clock c.conn.lastPacketId
        first).log.sent = c.log.sent ++ [first] := by
      change (c.nextPacketId.sendTo first).1.log.sent = _
      rw [hsent htaken]
      rfl
    rw [hsame, hlog] at hlength
    simp at hlength
  · intro id
    rw [hrest]
    exact htracked id

theorem resendPacket_held (packetId : PacketId) (m : SymmetricMessage)
    (hsock : c.socket.headD .sent ≠ .cancelled) (id : PacketId) :
    (c.resendPacket clock packetId m).conn.held id = (decide (id = packetId) || c.conn.held id) := by
  unfold resendPacket
  dsimp only
  rw [sendTo_outcome, if_neg hsock, reportSentPacket_held, (c.sendTo_spec m).1]

theorem resend_held (hsock : c.socket.headD .sent ≠ .cancelled) :
    (c.resend clock).conn.held = c.conn.held := by
  -- the packet is tracked again under an id that was held
  have hagain : ∀ id m, (c.conn.sentTracker.getResend clock.nanos).2 = .resend id m ∨
        (c.conn.sentTracker.getResend clock.nanos).2 = .tlpProbe id m →
      (resendPacket
        { c with conn.sentTracker := (c.conn.sentTracker.getResend clock.nanos).1 } clock id
        m).conn.held = c.conn.held := by
    intro id m haction
    obtain ⟨hpend, hothers⟩ := c.conn.sentTracker.getResend_pending_of_resend haction
    have hheld : c.conn.held id = true := hpend
    funext id'
    refine (resendPacket_held _ clock id m ?_ id').trans ?_
    · exact hsock
    by_cases hid : id' = id
    · simp [hid, hheld]
    · simp [hid, PeerConnection.held, hothers id' hid]
  unfold resend
  dsimp only
  split
  · rename_i deadline haction
    funext id
    change ((c.conn.sentTracker.getResend clock.nanos).1.pendingReceipts.get id).isSome = _
    rw [c.conn.sentTracker.getResend_pending_of_wait haction]
    rfl
  · rename_i id m haction
    exact hagain id m (.inl haction)
  · rename_i id m haction
    exact hagain id m (.inr haction)

theorem answerPing_conn :
    ∃ last, (last = c.conn.lastPacketId ∨ last = (c.conn.lastPacketId + 1) % 2 ^ 32) ∧
      (c.answerPing payload).1.conn = { c.conn with lastPacketId := last } := by
  unfold answerPing
  split
  · refine ⟨(c.conn.lastPacketId + 1) % 2 ^ 32, .inr rfl, ?_⟩
    rw [sendPong, sendUntracked, (c.nextPacketId.sendTo_spec _).1]
    rfl
  · exact ⟨c.conn.lastPacketId, .inl rfl, rfl⟩

theorem noteReportTime_eq : ∃ time, c.noteReportTime clock =
    { c with conn.lastPacketReportTimeNanos := time } := by
  unfold noteReportTime
  split_ifs
  · exact ⟨_, rfl⟩
  · exact ⟨c.conn.lastPacketReportTimeNanos, rfl⟩

theorem answered_conn :
    ∃ last time, (last = c.conn.lastPacketId ∨ last = (c.conn.lastPacketId + 1) % 2 ^ 32) ∧
      ((c.answerPing payload).1.noteReportTime clock).conn =
        { c.conn with lastPacketId := last, lastPacketReportTimeNanos := time } ∧
      ((c.answerPing payload).1.noteReportTime clock).socket ⊆ c.socket := by
  obtain ⟨last, hlast, hconn⟩ := c.answerPing_conn payload
  obtain ⟨time, hnoted⟩ := (c.answerPing payload).1.noteReportTime_eq clock
  refine ⟨last, time, hlast, ?_, ?_⟩
  · rw [hnoted]
    rw [hconn]
  · rw [hnoted]
    exact c.answerPing_socket payload

end Call

end Freenet.Transport
