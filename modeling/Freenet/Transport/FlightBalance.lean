import Freenet.Transport.ChargedConnection

/-! Receipts and packets that are lost or held when a send fails or its call is dropped. -/
namespace Freenet.Transport
open Lib SymmetricMessage List Option Call

def AllSent (socket : List SendOutcome) : Prop := ∀ outcome ∈ socket, outcome = .sent

namespace Call
variable (c : Call) (clock : Clock) (packetId : PacketId) (receipts : List PacketId)
  (payload : SymmetricMessagePayload) (m : SymmetricMessage)

/-- The ids that the packets sent in a call confirm. -/
def Confirmed (id : PacketId) : Prop := ∃ m ∈ c.log.sent, id ∈ m.confirmReceipt

theorem sendTo_of_allSent (h : AllSent c.socket) :
    (c.sendTo m).2 = .sent ∧ (c.sendTo m).1.log.sent = c.log.sent ++ [m] ∧
      AllSent (c.sendTo m).1.socket := by
  unfold sendTo
  cases hsock : c.socket with
  | nil => exact ⟨rfl, rfl, fun o ho => absurd ho not_mem_nil⟩
  | cons outcome rest =>
    rw [hsock] at h
    obtain rfl : outcome = .sent := h outcome mem_cons_self
    exact ⟨rfl, rfl, fun o ho => h o (mem_cons_of_mem _ ho)⟩

theorem sendPackets_of_allSent (packets : List SymmetricMessage) (h : AllSent c.socket) :
    (c.sendPackets clock packetId packets).1.log.sent = c.log.sent ++ packets := by
  induction packets generalizing c with
  | nil => simp [sendPackets]
  | cons m rest ih =>
    obtain ⟨houtcome, hsent, hsock⟩ := c.sendTo_of_allSent m h
    simp only [sendPackets, houtcome]
    rw [ih ((c.sendTo m).1.reportSentPacket clock packetId m) hsock]
    simp [reportSentPacket, hsent]

/-- The receipts of a message that can be sent are in one of its packets. -/
theorem packetsFor_confirms {packets : List SymmetricMessage}
    (hpack : packetsFor packetId receipts payload = some packets)
    (hfew : receipts.length ≤ maxPendingReceipts) : ∃ m ∈ packets, m.confirmReceipt = receipts := by
  unfold packetsFor at hpack
  dsimp only at hpack
  split_ifs at hpack with hfits hone
  · cases hpack
    exact ⟨_, mem_singleton_self _, rfl⟩
  · obtain ⟨packet, -, hrest⟩ := bind_eq_some_iff.mp hpack
    obtain ⟨noop, hnoop, hp⟩ := bind_eq_some_iff.mp hrest
    cases hp
    refine ⟨noop, by simp, ?_⟩
    rw [serializeMsgToPacketData_eq_some hnoop]
  · exact absurd (Nat.lt_of_le_of_lt hfew (by decide)) hone

theorem sendMessage_confirms (h : AllSent c.socket)
    (hpack : (packetsFor c.conn.lastPacketId receipts payload).isSome)
    (hfew : receipts.length ≤ maxPendingReceipts) :
    ∀ id ∈ receipts, (c.sendMessage clock receipts payload).1.Confirmed id := by
  intro id hid
  obtain ⟨packets, hsome⟩ := isSome_iff_exists.mp hpack
  obtain ⟨m, hm, hrcpts⟩ := packetsFor_confirms _ _ _ hsome hfew
  refine ⟨m, ?_, hrcpts ▸ hid⟩
  simp only [sendMessage, packetSending, hsome]
  rw [c.nextPacketId.sendPackets_of_allSent clock _ _ h]
  exact mem_append_right _ hm

theorem flushReceipts_confirms (h : AllSent c.socket)
    (hfew : c.pendingReceipts.length ≤ maxPendingReceipts) :
    ∀ id ∈ c.pendingReceipts, (c.flushReceipts clock).1.Confirmed id := by
  intro id hid
  unfold flushReceipts
  rw [if_neg (ne_nil_of_mem hid)]
  refine (c.takeReceipts clock).sendMessage_confirms clock _ .noOp h ?_ hfew id hid
  rw [packetsFor_of_fits (noop_fits _ _ hfew)]
  rfl

/-- The receipt of a packet is pending or was sent. -/
def Settles (id : PacketId) : Prop :=
  id ∈ c.conn.receivedTracker.pendingReceipts ∨ c.Confirmed id

theorem sendTo_sent : c.log.sent ⊆ (c.sendTo m).1.log.sent := by
  obtain ⟨-, hsent, hnot⟩ := c.sendTo_spec m
  by_cases h : (c.sendTo m).2 = .sent
  · rw [hsent h]
    exact subset_append_left _ _
  · rw [hnot h]
    exact Subset.refl _

variable {id : PacketId}

theorem processInbound_settles (h : c.Settles id) : (c.processInbound packetId payload).Settles id := by
  refine h.imp ?_ ?_
  · rw [(c.processInbound_inbound packetId payload).1]
    exact fun hpend => hpend
  · rintro ⟨m, hm, hid⟩
    refine ⟨m, ?_, hid⟩
    unfold processInbound answerAck
    split
    · exact sendTo_sent _ _ hm
    · exact hm

theorem afterReport_settles (report : ReportResult) (receiptsDue : Bool)
    (hsent : report = .queueFull ∨ receiptsDue → AllSent c.socket)
    (hfew : c.pendingReceipts.length ≤ maxPendingReceipts) (hid : id ∈ c.pendingReceipts) :
    (c.afterReport clock m report receiptsDue).Settles id := by
  refine c.afterReport_of (P := (·.Settles id)) clock m report receiptsDue ?_ (fun _ => .inl hid) ?_
  · intro hflush
    exact .inr (c.flushReceipts_confirms clock (hsent hflush) hfew id hid)
  · intro c' hsettl
    exact c'.processInbound_settles _ _ hsettl

theorem reportReceivedPacket_result : (c.reportReceivedPacket clock packetId).2 =
      (c.conn.receivedTracker.reportReceivedPacket clock.instant packetId).2 := rfl

theorem mem_reportReceivedPacket
    (hid : id ∈ c.pendingReceipts ∨ id ∈ (c.reportReceivedPacket clock packetId).1.log.accepted ∧
      id ∉ c.log.accepted) : id ∈ (c.reportReceivedPacket clock packetId).1.pendingReceipts := by
  obtain ⟨-, hacc, -⟩ := c.reportReceivedPacket_inbound clock packetId
  rw [(reportReceivedPacket_pending clock c packetId).1]
  rw [hacc] at hid
  split_ifs at hid ⊢
  · exact hid.resolve_right fun h => h.2 h.1
  · rcases hid with h | ⟨hnew, hold⟩
    · exact mem_append_left _ h
    · exact mem_append_right _ ((mem_append.mp hnew).resolve_left hold)

theorem Sends.settles {c c' : Call} (h : c.Sends c') (hc : c.log.accepted = [])
    (hid : id ∈ c.pendingReceipts ∨ id ∈ c'.log.accepted) : c'.Settles id := by
  rw [h.accepted, hc] at hid
  left
  rw [h.receivedTracker]
  exact hid.resolve_right not_mem_nil

theorem recvMessage_settles (scale : DurationScale) (hc : c.log.accepted = [])
    (hsent : (c.conn.receivedTracker.reportReceivedPacket clock.instant m.packetId).2 = .queueFull ∨
      c.conn.receiptsDue clock → AllSent c.socket) (hfew : c.conn.FewReceipts)
    (hid : id ∈ c.pendingReceipts ∨ id ∈ (c.recvMessage clock scale m).log.accepted) :
    (c.recvMessage clock scale m).Settles id := by
  rcases c.recvMessage_cases clock m scale with hsends | ⟨ready, hready, hsock, -, hrecv, -⟩
  · exact hsends.settles hc hid
  · rw [hrecv] at hid ⊢
    rw [(afterReport_inbound _ _ _ _ _).2.1] at hid
    refine afterReport_settles _ _ _ _ _ ?_ ?_ (mem_reportReceivedPacket _ _ _ ?_)
    · rw [reportReceivedPacket_result, hready.receivedTracker]
      exact fun h outcome ho => hsent h outcome (hsock ho)
    · exact (reportReceivedPacket_few clock _ m.packetId (hready.few hfew)).1
    · rw [hready.pendingReceipts, hready.accepted, hc]
      exact hid.imp_right fun h => ⟨h, not_mem_nil⟩

end Call

namespace PeerConnection
variable (scale : DurationScale) (clock : Clock) (conn : PeerConnection)

/-- What the receipts leave with, when an event takes them out of the tracker. -/
def receiptCarrier : PeerEvent → Option SymmetricMessagePayload
  | .packet m =>
    if (conn.receivedTracker.reportReceivedPacket clock.instant m.packetId).2 = .queueFull ∨
      conn.receiptsDue clock then some .noOp else none
  | .ackTimer => some .noOp
  | .shortMessage data => some (.shortMessage data)
  | .fragment streamId total number payload metadata true =>
    some (fragmentPayload streamId total number payload metadata)
  | _ => none

/-- No send fails when receipts leave, and what they leave with can be put into packets. -/
def ReceiptsGoOut (socket : List SendOutcome) (event : PeerEvent) : Prop :=
  ∀ payload ∈ conn.receiptCarrier clock event, AllSent socket ∧
    (packetsFor conn.lastPacketId conn.receivedTracker.pendingReceipts payload).isSome

theorem handle_settles (socket : List SendOutcome) (event : PeerEvent) (hfew : conn.FewReceipts)
    (hout : conn.ReceiptsGoOut clock socket event) {id : PacketId}
    (hid : id ∈ conn.receivedTracker.pendingReceipts ∨
      id ∈ (handle scale clock ⟨conn, .empty, socket⟩ event).log.accepted) :
    (handle scale clock ⟨conn, .empty, socket⟩ event).Settles id := by
  have htakes : ∀ payload, payload ∈ conn.receiptCarrier clock event →
      id ∈ conn.receivedTracker.pendingReceipts ∨
        id ∈ (sendWithReceipts ⟨conn, .empty, socket⟩ clock payload).1.log.accepted →
      (sendWithReceipts ⟨conn, .empty, socket⟩ clock payload).1.Settles id := by
    intro payload hpayl hid
    rw [(sendWithReceipts_sends _ clock payload).accepted] at hid
    have hpend := hid.resolve_right not_mem_nil
    obtain ⟨hsent, hpack⟩ := hout payload hpayl
    exact .inr (sendMessage_confirms (takeReceipts ⟨conn, .empty, socket⟩ clock) clock _
      payload hsent hpack (Nat.le_of_lt hfew) id hpend)
  cases event with
  | packet m =>
    refine recvMessage_settles _ clock m scale rfl ?_ hfew hid
    intro hflush
    exact (hout .noOp (by simp [receiptCarrier, hflush])).1
  | introPacket => exact (sendTo_sends _ _).settles rfl hid
  | ackTimer =>
    simp only [handle, (flushReceipts_sends _ clock).accepted] at hid
    have hpend := hid.resolve_right not_mem_nil
    exact .inr (flushReceipts_confirms ⟨conn, .empty, socket⟩ clock (hout .noOp rfl).1
      (Nat.le_of_lt hfew) id hpend)
  | resendTimer => exact (resend_sends _ clock).settles rfl hid
  | shortMessage data => exact htakes _ rfl hid
  | fragment streamId total number payload metadata withReceipts =>
    cases withReceipts with
    | true => exact htakes _ rfl hid
    | false => exact (sendMessage_sends _ clock _ _).settles rfl hid
  | keepAlive sequence => exact (sendUntracked_sends _ _).settles rfl hid
  | trackAck =>
    exact Sends.settles (c := ⟨conn, .empty, socket⟩) ⟨⟨rfl, rfl, rfl⟩, rfl⟩ rfl hid

end PeerConnection

/-- A connection with the ids it accepted and the packets it sent so far. -/
structure ReceiptRun where
  conn : PeerConnection
  accepted : List PacketId
  sent : List SymmetricMessage

structure SocketEvent where
  clock : Clock
  socket : List SendOutcome
  event : PeerEvent

namespace ReceiptRun

def step (scale : DurationScale) (s : ReceiptRun) (e : SocketEvent) : ReceiptRun :=
  let result := s.conn.step scale e.clock e.socket e.event
  ⟨result.1, s.accepted ++ result.2.accepted, s.sent ++ result.2.sent⟩

/-- Every accepted id was confirmed by a packet that was sent, or its receipt is pending. -/
def ReceiptsKept (s : ReceiptRun) : Prop :=
  ∀ id ∈ s.accepted, id ∈ s.conn.receivedTracker.pendingReceipts ∨ ∃ m ∈ s.sent, id ∈ m.confirmReceipt

def ReceiptsGoOut (s : ReceiptRun) (e : SocketEvent) : Prop :=
  s.conn.ReceiptsGoOut e.clock e.socket e.event

theorem step_receiptsKept (scale : DurationScale) {s : ReceiptRun} {e : SocketEvent}
    (hfew : s.conn.FewReceipts) (hkept : s.ReceiptsKept) (hout : s.ReceiptsGoOut e) :
    (s.step scale e).ReceiptsKept := by
  intro id hid
  have hnow : id ∈ s.conn.receivedTracker.pendingReceipts ∨
      id ∈ (s.conn.step scale e.clock e.socket e.event).2.accepted →
      id ∈ (s.step scale e).conn.receivedTracker.pendingReceipts ∨
        ∃ m ∈ (s.step scale e).sent, id ∈ m.confirmReceipt := by
    intro hid
    refine (s.conn.handle_settles scale e.clock e.socket e.event hfew hout hid).imp_right ?_
    rintro ⟨m, hm, hconf⟩
    exact ⟨m, mem_append_right _ hm, hconf⟩
  rcases mem_append.mp hid with hold | hnew
  · rcases hkept id hold with hpend | ⟨m, hm, hconf⟩
    · exact hnow (.inl hpend)
    · exact .inr ⟨m, mem_append_left _ hm, hconf⟩
  · exact hnow (.inr hnew)

end ReceiptRun

def receiptMachine (scale : DurationScale) : Machine ReceiptRun SocketEvent where
  init s := s.conn.receivedTracker = .new ∧ s.accepted = []
  step s e := some (s.step scale e)

/-- As long as no packet that carries receipts fails to be sent, no receipt is lost. -/
theorem receipts_kept_of_go_out (scale : DurationScale) (s t : ReceiptRun) (es : List SocketEvent)
    (hinit : (receiptMachine scale).init s)
    (hout : (receiptMachine scale).Along ReceiptRun.ReceiptsGoOut s es)
    (hrun : (receiptMachine scale).runFrom s es = some t) : t.ReceiptsKept := by
  obtain ⟨hnew, hacc⟩ := hinit
  have hstart : s.conn.FewReceipts ∧ s.ReceiptsKept := by
    refine ⟨?_, ?_⟩
    · unfold PeerConnection.FewReceipts
      rw [hnew]
      decide
    · simp [ReceiptRun.ReceiptsKept, hacc]
  refine ((receiptMachine scale).invariant_of_along ReceiptRun.ReceiptsGoOut
    (fun s => s.conn.FewReceipts ∧ s.ReceiptsKept) ?_ hstart hout hrun).2
  rintro s e s' ⟨hfew, hkept⟩ hgo hstep
  cases hstep
  exact ⟨PeerConnection.handle_few scale e.clock _ e.event hfew,
    ReceiptRun.step_receiptsKept scale hfew hkept hgo⟩

instance (s : ReceiptRun) (e : SocketEvent) : Decidable (s.ReceiptsGoOut e) :=
  inferInstanceAs (Decidable (∀ payload ∈ _, (∀ outcome ∈ e.socket, outcome = .sent) ∧ _))

def packetThenAck (outcome : SendOutcome) : List SocketEvent :=
  [⟨⟨0, 0⟩, [], .packet ⟨7, [], .shortMessage []⟩⟩, ⟨⟨0, 0⟩, [outcome], .ackTimer⟩]

def idleRun : ReceiptRun := ⟨freshConnection, [], []⟩

theorem ackSent_keeps_receipts :
    ∃ t, (receiptMachine .floor).runFrom idleRun (packetThenAck .sent) = some t ∧ t.ReceiptsKept := by
  have hruns : ((receiptMachine .floor).runFrom idleRun (packetThenAck .sent)).isSome := by
    decide +kernel
  obtain ⟨t, hrun⟩ := isSome_iff_exists.mp hruns
  exact ⟨t, hrun, receipts_kept_of_go_out .floor idleRun t (packetThenAck .sent) ⟨rfl, rfl⟩
    (by decide +kernel) hrun⟩

/-- The send of the receipts fails, and the receipt of packet 7 is neither pending nor sent. -/
theorem ackFailed_loses_receipt : (receiptMachine .floor).init idleRun ∧
    ∃ t, (receiptMachine .floor).runFrom idleRun (packetThenAck .failed) = some t ∧ ¬ t.ReceiptsKept := by
  obtain ⟨t, hrun, hacc, hpend, hsent⟩ : ∃ t, (receiptMachine .floor).runFrom idleRun
      (packetThenAck .failed) = some t ∧ t.accepted = [7] ∧
      t.conn.receivedTracker.pendingReceipts = [] ∧ t.sent = [] := by
    decide +kernel
  refine ⟨⟨rfl, rfl⟩, t, hrun, ?_⟩
  intro hkept
  have hseven := hkept 7 (by simp [hacc])
  simp [hpend, hsent] at hseven

namespace Call
variable {c : Call} {id : PacketId}

theorem Retains.recvMessage (hc : c.Retains id) (clock : Clock) (scale : DurationScale)
    (m : SymmetricMessage) : (c.recvMessage clock scale m).Retains id := by
  rcases c.recvMessage_cases clock m scale with hsends | ⟨ready, -, -, -, hrecv, hkept⟩
  · exact hsends.retains hc
  · rw [hrecv]
    have hready : (ready.reportReceivedPacket clock m.packetId).1.Retains id := hkept id hc
    refine afterReport_of (P := Retains id) _ clock m _ _ ?_ ?_ ?_
    · exact fun _ => (flushReceipts_sends _ clock).retains hready
    · exact fun _ => hready
    · exact fun _ h => (answerAck_sends _ _).2.retains h

/-- A call that is dropped while it sends a packet again does not track that packet. -/
theorem resend_of_cancelled (clock : Clock) (h : c.socket.headD .sent = .cancelled) :
    (c.resend clock).conn.sentTracker = (c.conn.sentTracker.getResend clock.nanos).1 := by
  unfold resend resendPacket
  dsimp only
  split
  · rfl
  · rw [sendTo_outcome, if_pos h, (sendTo_spec _ _).1]
  · rw [sendTo_outcome, if_pos h, (sendTo_spec _ _).1]

theorem resend_retains_iff (clock : Clock) (hempty : c.log = .empty) :
    (∀ id, c.conn.held id = true → (c.resend clock).Retains id) ↔
      (c.socket.headD .sent = .cancelled → ∀ id m,
        (c.conn.sentTracker.getResend clock.nanos).2 ≠ .resend id m) := by
  by_cases hdrop : c.socket.headD .sent = .cancelled
  · have hpend := c.conn.sentTracker.getResendFrom_pending clock.nanos
      c.conn.sentTracker.probeTimeout c.conn.sentTracker.effectiveRto c.conn.sentTracker.resendQueue
    have hacked : (c.resend clock).log.acknowledged = [] := by
      rw [(c.resend_sends clock).acknowledged, hempty]
      rfl
    simp only [Retains, hacked, PeerConnection.held, resend_of_cancelled clock hdrop, hdrop,
      forall_const]
    cases haction : (c.conn.sentTracker.getResend clock.nanos).2 with
    | resend id m =>
      have hheld := (c.conn.sentTracker.getResend_pending_of_resend (.inl haction)).1
      rw [SentPacketTracker.getResend] at haction ⊢
      rw [haction] at hpend
      rw [hpend]
      refine iff_of_false (fun h => ?_) fun h => h id m rfl
      have hgone := h id hheld
      simp at hgone
    | waitUntil _ | tlpProbe _ _ =>
      rw [SentPacketTracker.getResend] at haction ⊢
      rw [haction] at hpend
      simp [hpend]
  · refine iff_of_true (fun id hheld => ?_) fun h => absurd h hdrop
    rw [Retains, c.resend_held clock hdrop]
    exact .inl hheld

end Call

namespace PeerConnection

/-- Every packet that waits for its receipt is still held after the call, or acknowledged in it. -/
def KeepsPending (scale : DurationScale) (conn : PeerConnection) (e : SocketEvent) : Prop :=
  ∀ id, conn.held id = true → (conn.step scale e.clock e.socket e.event).1.held id = true ∨
    id ∈ (conn.step scale e.clock e.socket e.event).2.acknowledged

/-- The call is not dropped while it sends a packet whose timeout has passed. -/
def ResendsWhole (conn : PeerConnection) (e : SocketEvent) : Prop :=
  e.event = .resendTimer → e.socket.headD .sent = .cancelled → ∀ id m,
    (conn.sentTracker.getResend e.clock.nanos).2 ≠ .resend id m

theorem keepsPending_iff (scale : DurationScale) (conn : PeerConnection) (e : SocketEvent) :
    conn.KeepsPending scale e ↔ conn.ResendsWhole e := by
  obtain ⟨clock, socket, event⟩ := e
  let c : Call := ⟨conn, .empty, socket⟩
  by_cases hevent : event = .resendTimer
  · subst hevent
    exact (c.resend_retains_iff clock rfl).trans ⟨fun h _ => h, fun h => h rfl⟩
  · refine iff_of_true (fun id hheld => ?_) fun h => absurd h hevent
    change (handle scale clock c event).Retains id
    have hstart : c.Retains id := .inl hheld
    by_cases hpacket : ∃ m, event = .packet m
    · obtain ⟨m, rfl⟩ := hpacket
      exact hstart.recvMessage clock scale m
    · rcases handle_sendsOn scale clock c (fun m h => hpacket ⟨m, h⟩) hevent with h | h
      · exact h.retains hstart
      · exact h.retains hstart

end PeerConnection

/-- A connection whose calls are made again and again, each with what the socket answers it. -/
def recvMachine (scale : DurationScale) : Machine PeerConnection SocketEvent where
  init _ := True
  step conn e := some (conn.step scale e.clock e.socket e.event).1

/-- However often calls are dropped and made again, each keeps the packets that wait for their
receipts, exactly when none is dropped while it sends a packet whose timeout has passed. -/
theorem keepsPending_iff_resendsWhole (scale : DurationScale) (conn : PeerConnection)
    (es : List SocketEvent) : (recvMachine scale).Along (PeerConnection.KeepsPending scale) conn es ↔
      (recvMachine scale).Along PeerConnection.ResendsWhole conn es :=
  (recvMachine scale).along_congr (fun _ => True) (fun _ _ _ _ _ => trivial)
    (fun conn e _ => conn.keepsPending_iff scale e) es trivial

/-- Packet 0 is sent, and the call that sends it again after its timeout is dropped. -/
def droppedResend : List SocketEvent :=
  [⟨⟨0, 0⟩, [], .shortMessage []⟩, ⟨⟨0, 10 * nanosPerSec⟩, [.cancelled], .resendTimer⟩]

theorem droppedResend_forgets_packet :
    ¬ (recvMachine .floor).Along (PeerConnection.KeepsPending .floor) freshConnection droppedResend := by
  intro h
  have hkept := (h.2 _ rfl).1 0 (by decide +kernel)
  revert hkept
  decide +kernel

/-! Whether the bytes in flight are those charged for held packets; credits go by the size on the
wire. -/
open ChargedConnection Machine CongestionController

namespace ChargedConnection
variable (s : ChargedConnection)

def Vacant (id : PacketId) : Prop := s.charges.share s.conn.held id = 0

instance (id : PacketId) : Decidable (s.Vacant id) :=
  inferInstanceAs (Decidable (s.charges.share s.conn.held id = 0))

def confirmedSize (receipts : List PacketId) : Nat :=
  ∑ id ∈ receipts.toFinset, s.conn.sentTracker.heldSize id

def confirmedCharge (receipts : List PacketId) : Nat :=
  s.charges.total fun id => decide (id ∈ receipts) && s.conn.held id

def Settles (receipts : List PacketId) : Prop :=
  s.confirmedSize receipts = s.confirmedCharge receipts ∨
    s.confirmedCharge receipts = s.chargedBytes ∧ s.chargedBytes ≤ s.confirmedSize receipts

/-- A message will be held once it is charged: its payload fits a packet, the socket takes its first
packet, and no charged packet is held under its id. -/
structure Sendable (socket : List SendOutcome) (payload : SymmetricMessagePayload) : Prop where
  taken : socket.headD .sent = .sent
  fits : SymmetricMessage.serializedSize ⟨s.conn.lastPacketId, [], payload⟩ ≤ maxDataSize
  vacant : s.Vacant s.conn.lastPacketId

/-- What keeps the bytes in flight equal to the charges of the packets that are held. -/
def Accounts (e : ConnectionEvent) : Prop :=
  match e.event with
  -- a pong takes the first of the two ids, if the packet is a ping
  | .packet m => (∀ outcome ∈ e.socket, outcome = .sent) ∧ s.Settles m.confirmReceipt ∧
      s.Vacant s.conn.lastPacketId ∧ s.Vacant ((s.conn.lastPacketId + 1) % 2 ^ 32)
  | .introPacket => True
  | .ackTimer => s.Sendable e.socket .noOp
  | .resendTimer => e.socket.headD .sent ≠ .cancelled
  | .shortMessage data => s.Sendable e.socket (.shortMessage data)
  | .sendStream stream => s.Sendable e.socket stream.fragment.toPayload
  | .pipeStream fragment => s.Sendable e.socket fragment.toPayload
  | .sendFragment streamId total number payload =>
    s.Sendable e.socket (forwardFragment streamId total number payload).toPayload
  | .keepAlive _ => True
  | .trackAck => s.Vacant firstPacketId

variable {s} {s' : ChargedConnection}

theorem held_congr (h : s'.conn.sentTracker = s.conn.sentTracker) : s'.conn.held = s.conn.held := by
  funext id
  unfold PeerConnection.held
  rw [h]

theorem Balanced.congr (hbal : s.Balanced) (htrack : s'.conn.sentTracker = s.conn.sentTracker)
    (hctrl : s'.congestionController = s.congestionController)
    (hcharg : s'.charges = s.charges) : s'.Balanced := by
  unfold ChargedConnection.Balanced chargedBytes at hbal ⊢
  rw [held_congr htrack, hctrl, hcharg]
  exact hbal

theorem Settles.congr {receipts : List PacketId} (hsettl : s.Settles receipts)
    (htrack : s'.conn.sentTracker = s.conn.sentTracker) (hcharg : s'.charges = s.charges) :
    s'.Settles receipts := by
  unfold Settles confirmedSize confirmedCharge chargedBytes at hsettl ⊢
  rw [held_congr htrack, htrack, hcharg]
  exact hsettl

end ChargedConnection

namespace ChargedCall
variable {c : ChargedCall} {clock : Clock} (scale : DurationScale) {m : SymmetricMessage}
  {receiptsDue : Bool} {payload : SymmetricMessagePayload} {packetSize : Nat}

theorem sendMessage_balanced {receipts : List PacketId}
    (hbal : c.connection.Balanced) (hsend : c.connection.Sendable c.call.socket payload)
    (hfew : receipts.length ≤ maxPendingReceipts) :
    (c.sendMessage clock packetSize receipts payload).1.connection.Balanced := by
  obtain ⟨hlog, hheld⟩ := c.call.sendMessage_held clock hsend.fits hfew hsend.taken
  have hothers : ∀ id, id ≠ c.call.conn.lastPacketId →
      (c.call.sendMessage clock receipts payload).1.conn.held id = c.call.conn.held id := by
    intro id hne
    rw [hheld id, decide_eq_false hne, Bool.false_or]
  have hbook := c.charges.total_book packetSize hothers
  have hself : (c.call.sendMessage clock receipts payload).1.conn.held c.call.conn.lastPacketId = true := by
    rw [hheld]
    simp
  have hvacant : c.charges.share c.call.conn.held c.call.conn.lastPacketId = 0 := hsend.vacant
  rw [hvacant, if_pos hself, Nat.add_zero] at hbook
  have hbefore : c.congestionController.flightsize = c.charges.total c.call.conn.held := hbal
  unfold ChargedConnection.Balanced chargedBytes
  dsimp only [sendMessage, connection]
  rw [if_neg hlog, flightsize_onSendWithToken, hbook, hbefore]

theorem flushReceipts_balanced (hbal : c.connection.Balanced)
    (hsend : c.connection.Sendable c.call.socket .noOp)
    (hfew : c.call.pendingReceipts.length ≤ maxPendingReceipts) :
    (c.flushReceipts clock).1.connection.Balanced := by
  unfold flushReceipts
  split_ifs
  · exact hbal
  · exact sendMessage_balanced hbal { hsend with } hfew

theorem sendWithReceipts_balanced (hbal : c.connection.Balanced)
    (hsend : c.connection.Sendable c.call.socket payload) (hfew : c.call.conn.FewReceipts) :
    (c.sendWithReceipts clock packetSize payload).1.connection.Balanced :=
  sendMessage_balanced hbal { hsend with } (Nat.le_of_lt hfew)

theorem processInbound_connection (packetId : PacketId) (payload : SymmetricMessagePayload) :
    (c.processInbound packetId payload).connection = c.connection := by
  unfold processInbound connection
  rw [(c.call.processInbound_inbound packetId payload).1]

theorem afterReport_balanced {report : ReportResult} (hbal : c.connection.Balanced)
    (hsend : c.connection.Sendable c.call.socket .noOp)
    (hfew : c.call.pendingReceipts.length ≤ maxPendingReceipts) :
    (c.afterReport clock m report receiptsDue).connection.Balanced := by
  have hflushed : (c.flushReceipts clock).1.connection.Balanced :=
    flushReceipts_balanced hbal hsend hfew
  unfold afterReport
  split_ifs
  · dsimp only
    split
    · rw [processInbound_connection]
      exact hflushed
    · rw [processInbound_connection]
      exact hflushed
    · exact hflushed
    · exact hflushed
  · cases report with
    | alreadyReceived => exact hbal
    | ok | queueFull =>
      rw [processInbound_connection]
      exact hbal

theorem reportReceivedReceipts_balanced_iff (receipts : List PacketId)
    (hbal : c.connection.Balanced) :
    (c.reportReceivedReceipts clock scale receipts).connection.Balanced ↔ c.connection.Settles receipts := by
  have hsizes := SentPacketTracker.reportReceivedReceipts_sizes c.call.conn.sentTracker scale
    clock.nanos receipts
  have hsplit := c.charges.total_split c.call.conn.held fun id => decide (id ∈ receipts)
  have hbefore : c.congestionController.flightsize = c.charges.total c.call.conn.held := hbal
  have hafter : (c.reportReceivedReceipts clock scale receipts).congestionController.flightsize =
      c.charges.total c.call.conn.held - c.connection.confirmedSize receipts := by
    dsimp only [reportReceivedReceipts]
    rw [flightsize_foldl_onAckInfo, hsizes, hbefore]
    rfl
  have hheld := c.call.reportReceivedReceipts_held clock scale receipts
  unfold ChargedConnection.Balanced ChargedConnection.Settles chargedBytes confirmedCharge
  dsimp only [connection] at hafter ⊢
  change _ = c.charges.total (c.call.reportReceivedReceipts clock scale receipts).conn.held ↔ _
  rw [hheld]
  omega

section
variable (hbal : c.connection.Balanced)
include hbal

theorem resend_balanced
    (hsock : c.call.socket.headD .sent ≠ .cancelled) : (c.resend clock).connection.Balanced := by
  have hheld := c.call.resend_held clock hsock
  have hsame : (c.resend clock).congestionController.flightsize = c.congestionController.flightsize := by
    dsimp only [resend]
    split
    · exact flightsize_onTimeout _
    · rfl
  unfold ChargedConnection.Balanced chargedBytes at hbal ⊢
  dsimp only [connection] at hbal ⊢
  rw [hsame, hbal]
  change _ = c.charges.total (c.call.resend clock).conn.held
  rw [hheld]

theorem trackAck_balanced
    (hvacant : c.connection.Vacant firstPacketId) : (c.trackAck clock).connection.Balanced := by
  have hothers : ∀ id, id ≠ firstPacketId → (c.trackAck clock).call.conn.held id = c.call.conn.held id := by
    intro id hne
    rw [trackAck, reportSentPacket_held, decide_eq_false hne, Bool.false_or]
  have hbook := c.charges.total_book 0 hothers
  have hnone : c.charges.share c.call.conn.held firstPacketId = 0 := hvacant
  rw [hnone] at hbook
  exact hbal.trans hbook.symm

theorem reported_balanced (hfew : c.call.conn.FewReceipts)
    (htaken : c.call.socket.headD .sent = .sent) (hsettl : c.connection.Settles m.confirmReceipt)
    (hvacant : c.connection.Vacant c.call.conn.lastPacketId) :
    let credited := c.reportReceivedReceipts clock scale m.confirmReceipt
    let reported := credited.call.reportReceivedPacket clock m.packetId
    ({ credited with call := reported.1 }.afterReport clock m reported.2
      receiptsDue).connection.Balanced := by
  intro credited reported
  have hcred : credited.connection.Balanced :=
    (reportReceivedReceipts_balanced_iff scale m.confirmReceipt hbal).mpr hsettl
  have hheld : credited.call.conn.held = fun id => !decide (id ∈ m.confirmReceipt) && c.call.conn.held id :=
    c.call.reportReceivedReceipts_held clock scale m.confirmReceipt
  have hfree : c.charges.share credited.call.conn.held c.call.conn.lastPacketId = 0 := by
    refine Ledger.share_eq_zero_of_imp ?_ hvacant
    intro h
    rw [hheld, Bool.and_eq_true] at h
    exact h.2
  apply afterReport_balanced
  · exact hcred.congr rfl rfl rfl
  · exact ⟨htaken, noop_fits _ [] (Nat.zero_le _), hfree⟩
  · exact (reportReceivedPacket_few clock credited.call m.packetId hfew).1

end

theorem answered_balanced (ready : Call) {last time : Nat}
    (hconn : ready.conn = { c.call.conn with lastPacketId := last, lastPacketReportTimeNanos := time })
    (hbal : c.connection.Balanced) (hfew : c.call.conn.FewReceipts)
    (htaken : ready.socket.headD .sent = .sent) (hsettl : c.connection.Settles m.confirmReceipt)
    (hvacant : c.connection.Vacant last) :
    let credited := { c with call := ready }.reportReceivedReceipts clock scale m.confirmReceipt
    let reported := credited.call.reportReceivedPacket clock m.packetId
    ({ credited with call := reported.1 }.afterReport clock m reported.2
      receiptsDue).connection.Balanced := by
  have htrack : ready.conn.sentTracker = c.call.conn.sentTracker := by rw [hconn]
  apply reported_balanced
  · exact hbal.congr htrack rfl rfl
  · rw [hconn]
    exact hfew
  · exact htaken
  · exact hsettl.congr htrack rfl
  · unfold connection
    rw [hconn]
    exact hvacant

theorem recvMessage_balanced (hbal : c.connection.Balanced) (hfew : c.call.conn.FewReceipts)
    (hsent : ∀ outcome ∈ c.call.socket, outcome = .sent)
    (hsettl : c.connection.Settles m.confirmReceipt)
    (hvacant : c.connection.Vacant c.call.conn.lastPacketId)
    (hvacant' : c.connection.Vacant ((c.call.conn.lastPacketId + 1) % 2 ^ 32)) :
    (c.recvMessage clock scale m).connection.Balanced := by
  unfold recvMessage
  dsimp only
  split_ifs with hcanc
  · obtain ⟨last, -, hconn⟩ := c.call.answerPing_conn m.payload
    have htrack : (c.call.answerPing m.payload).1.conn.sentTracker = c.call.conn.sentTracker := by
      rw [hconn]
    exact hbal.congr htrack rfl rfl
  · obtain ⟨last, time, hlast, hconn, hsock⟩ := c.call.answered_conn clock m.payload
    have htaken : ((c.call.answerPing m.payload).1.noteReportTime clock).socket.headD .sent = .sent := by
      cases houtc : ((c.call.answerPing m.payload).1.noteReportTime clock).socket with
      | nil => rfl
      | cons outcome rest =>
        apply hsent
        apply hsock
        rw [houtc]
        exact mem_cons_self
    have hfree : c.connection.Vacant last := by
      rcases hlast with h | h
      · rw [h]
        exact hvacant
      · rw [h]
        exact hvacant'
    exact answered_balanced scale _ hconn hbal hfew htaken hsettl hfree

theorem handle_balanced {e : ConnectionEvent} (hsock : c.call.socket = e.socket)
    (hbal : c.connection.Balanced) (hfew : c.call.conn.FewReceipts)
    (haccounts : c.connection.Accounts e) : (c.handle scale e.clock e.event).connection.Balanced := by
  obtain ⟨clock, socket, event⟩ := e
  subst hsock
  cases event with
  | packet m =>
    obtain ⟨hsent, hsettl, hvacant, hvacant'⟩ := haccounts
    exact recvMessage_balanced scale hbal hfew hsent hsettl hvacant hvacant'
  | introPacket =>
    exact hbal.congr (congrArg _ (c.call.sendTo_spec c.call.conn.ackOk).1) rfl rfl
  | ackTimer => exact flushReceipts_balanced hbal haccounts (Nat.le_of_lt hfew)
  | resendTimer => exact resend_balanced hbal haccounts
  | shortMessage data => exact sendWithReceipts_balanced hbal haccounts hfew
  | sendStream stream | pipeStream fragment =>
    exact sendMessage_balanced hbal haccounts (Nat.zero_le _)
  | sendFragment streamId total number payload =>
    exact sendWithReceipts_balanced hbal haccounts hfew
  | keepAlive sequence =>
    have htrack : (c.call.sendUntracked (.ping sequence)).1.conn.sentTracker = c.call.conn.sentTracker := by
      rw [sendUntracked, (c.call.nextPacketId.sendTo_spec _).1]
      rfl
    exact hbal.congr htrack rfl rfl
  | trackAck => exact trackAck_balanced hbal haccounts

end ChargedCall

/-- In a run in which every step accounts for what it charges and credits, the bytes in flight are
those charged for the packets that are held, whichever the algorithm. -/
theorem flightsize_eq_chargedBytes (scale : DurationScale) (s t : ChargedConnection)
    (es : List ConnectionEvent) (hinit : (chargedConnection scale).init s)
    (haccounts : (chargedConnection scale).Along Accounts s es)
    (hrun : (chargedConnection scale).runFrom s es = some t) :
    t.congestionController.flightsize = t.chargedBytes := by
  have hinvar : t.Balanced ∧ t.conn.FewReceipts := by
    refine (chargedConnection scale).invariant_of_along Accounts
      (fun s => s.Balanced ∧ s.conn.FewReceipts) ?_ ?_ haccounts hrun
    · rintro s e _ ⟨hbal, hfew⟩ haccounts ⟨⟩
      constructor
      · exact ChargedCall.handle_balanced scale rfl hbal hfew haccounts
      · change ((s.begin e.socket).handle scale e.clock e.event).call.conn.FewReceipts
        rw [ChargedCall.handle_call]
        exact PeerConnection.handle_few scale e.clock _ _ hfew
    · obtain ⟨-, hreceived, hcharg, algorithm, hctrl⟩ := hinit
      constructor
      · unfold ChargedConnection.Balanced chargedBytes
        rw [hcharg, hctrl, flightsize_build, Ledger.total_empty]
      · unfold PeerConnection.FewReceipts
        rw [hreceived]
        decide
  exact hinvar.1

/-- A connection right after its handshake, with the default algorithm. -/
def openedConnection : ChargedConnection :=
  ⟨freshConnection, CongestionControlAlgorithm.fixedRate.build, .empty⟩

theorem openedConnection_init : (chargedConnection .floor).init openedConnection :=
  ⟨rfl, rfl, rfl, .fixedRate, rfl⟩

def eventNow (event : TransportEvent) : ConnectionEvent := ⟨⟨0, 0⟩, [], event⟩

/-- A short message and a stream of one fragment, each acknowledged before more is sent. -/
def oneAtATime : List ConnectionEvent :=
  [eventNow (.shortMessage [7]), eventNow (.packet ⟨0, [0], .noOp⟩),
    eventNow (.sendStream (.start 1 [1, 2, 3] none)), ⟨⟨0, 2 * initialRto⟩, [], .resendTimer⟩,
    eventNow (.packet ⟨1, [1], .noOp⟩), eventNow (.shortMessage [8])]

theorem oneAtATime_accounts :
    (chargedConnection .floor).Along Accounts openedConnection oneAtATime := by
  refine along_cons_of_step _ rfl ⟨rfl, by decide, by decide +kernel⟩ ?_
  refine along_cons_of_step _ rfl ⟨by simp [eventNow], .inr (by decide +kernel),
    by decide +kernel, by decide +kernel⟩ ?_
  refine along_cons_of_step _ rfl ⟨rfl, by decide +kernel, by decide +kernel⟩ ?_
  refine along_cons_of_step _ rfl SendOutcome.noConfusion ?_
  refine along_cons_of_step _ rfl ⟨by simp [eventNow], .inr (by decide +kernel),
    by decide +kernel, by decide +kernel⟩ ?_
  refine along_cons_of_step _ rfl ⟨rfl, by decide +kernel, by decide +kernel⟩ ?_
  trivial

theorem oneAtATime_flightsize :
    ∃ t, (chargedConnection .floor).runFrom openedConnection oneAtATime = some t ∧
      t.congestionController.flightsize = 41 ∧ t.congestionController.flightsize = t.chargedBytes := by
  refine ⟨_, rfl, by decide +kernel, ?_⟩
  exact flightsize_eq_chargedBytes .floor openedConnection _ oneAtATime openedConnection_init
    oneAtATime_accounts rfl

def oneOfTwo : List ConnectionEvent :=
  [eventNow (.shortMessage [7]), eventNow (.shortMessage [8]), eventNow (.packet ⟨0, [0], .noOp⟩)]

/-- The message that is still held was charged 41 bytes, but the credit for the other one has taken
54 of their 82. -/
theorem oneOfTwo_flightsize : (chargedConnection .floor).init openedConnection ∧
    ∃ t, (chargedConnection .floor).runFrom openedConnection oneOfTwo = some t ∧
      t.congestionController.flightsize = 28 ∧ t.chargedBytes = 41 ∧
      ¬ t.congestionController.flightsize = t.chargedBytes := by
  refine ⟨openedConnection_init, _, rfl, ?_, ?_, ?_⟩
  · decide +kernel
  · decide +kernel
  · decide +kernel

end Freenet.Transport
