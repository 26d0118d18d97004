import Freenet.Transport.PeerConnection

/-! Where the packets that a connection sends or keeps come from, and the receipts they carry. -/
namespace Freenet.Transport
open SymmetricMessage List Nat

def PeerConnection.Tracks (conn : PeerConnection) (m : SymmetricMessage) : Prop :=
  ∃ id entry, conn.sentTracker.pendingReceipts.get id = some entry ∧ entry.packet = m

/-- An acknowledgement of the connection, under the id all of them share. -/
structure SymmetricMessage.IsAck (m : SymmetricMessage) : Prop where
  packetId : m.packetId = firstPacketId
  confirmReceipt : m.confirmReceipt = []
  payload : m.payload.isAckConnection = true

theorem PeerConnection.ackOk_isAck (conn : PeerConnection) : conn.ackOk.IsAck := ⟨rfl, rfl, rfl⟩

namespace Call
variable (clock : Clock)

/-- What is sent or tracked after a call was so before, or satisfies `Q`. -/
structure Emits (Q : SymmetricMessage → Prop) (c c' : Call) : Prop where
  sent : ∀ m ∈ c'.log.sent, m ∈ c.log.sent ∨ c.conn.Tracks m ∨ Q m
  tracked : ∀ m, c'.conn.Tracks m → c.conn.Tracks m ∨ Q m

variable {Q : SymmetricMessage → Prop} {c c₁ c₂ : Call}

theorem Emits.of_eq (hsent : c₁.log.sent = c.log.sent)
    (htracker : c₁.conn.sentTracker = c.conn.sentTracker) : Emits Q c c₁ where
  sent m hm := by
    rw [hsent] at hm
    exact .inl hm
  tracked m hm := by
    unfold PeerConnection.Tracks at hm
    rw [htracker] at hm
    exact .inl hm

theorem Emits.trans (h₁ : Emits Q c c₁) (h₂ : Emits Q c₁ c₂) : Emits Q c c₂ where
  sent m hm := by
    rcases h₂.sent m hm with hm | hm | hm
    · exact h₁.sent m hm
    · exact .inr (h₁.tracked m hm)
    · exact .inr (.inr hm)
  tracked m hm := by
    rcases h₂.tracked m hm with hm | hm
    · exact h₁.tracked m hm
    · exact .inr hm

theorem Emits.mono {Q' : SymmetricMessage → Prop} (h : Emits Q c c₁) (hQ : ∀ m, Q m → Q' m) :
    Emits Q' c c₁ where
  sent m hm := (h.sent m hm).imp id (Or.imp id (hQ m))
  tracked m hm := (h.tracked m hm).imp id (hQ m)

theorem Emits.of_tracked (h : Emits c.conn.Tracks c c₁) : Emits Q c c₁ where
  sent m hm := by
    rcases h.sent m hm with hm | hm | hm
    · exact .inl hm
    · exact .inr (.inl hm)
    · exact .inr (.inl hm)
  tracked m hm := by
    rcases h.tracked m hm with hm | hm
    · exact .inl hm
    · exact .inl hm

variable (c) (packetId : PacketId) (receipts : List PacketId)
  (payload : SymmetricMessagePayload) (m : SymmetricMessage) (packets : List SymmetricMessage)

theorem sendTo_emits (hm : c.conn.Tracks m ∨ Q m) : Emits Q c (c.sendTo m).1 := by
  obtain ⟨hconn, hsent, hnot⟩ := c.sendTo_spec m
  by_cases h : (c.sendTo m).2 = .sent
  · constructor
    · intro x hx
      rw [hsent h, mem_append] at hx
      rcases hx with hx | hx
      · exact .inl hx
      · rw [mem_singleton.mp hx]
        exact .inr hm
    · intro x hx
      rw [hconn] at hx
      exact .inl hx
  · exact .of_eq (by rw [hnot h]) (by rw [hconn])

theorem reportSentPacket_emits (hm : c.conn.Tracks m ∨ Q m) :
    Emits Q c (c.reportSentPacket clock packetId m) where
  sent x hx := .inl hx
  tracked x hx := by
    obtain ⟨id, entry, hentry, rfl⟩ := hx
    simp only [reportSentPacket, SentPacketTracker.reportSentPacket_pending] at hentry
    split_ifs at hentry
    · cases hentry
      exact hm
    · exact .inl ⟨id, entry, hentry, rfl⟩

theorem sendPackets_emits (hpack : ∀ m ∈ packets, Q m) :
    Emits Q c (c.sendPackets clock packetId packets).1 := by
  induction packets generalizing c with
  | nil => exact .of_eq rfl rfl
  | cons m rest ih =>
    have hm : Q m := hpack m mem_cons_self
    have hsend := c.sendTo_emits m (.inr hm)
    simp only [sendPackets]
    split
    · have htrack := reportSentPacket_emits clock (c.sendTo m).1 packetId m (.inr hm)
      exact (hsend.trans htrack).trans (ih _ fun x hx => hpack x (mem_cons_of_mem _ hx))
    · exact hsend
    · exact hsend

theorem packetSending_emits
    (hQ : ∀ m : SymmetricMessage, m.packetId = packetId → m.confirmReceipt ⊆ receipts → Q m) :
    Emits Q c (c.packetSending clock packetId receipts payload).1 := by
  unfold packetSending
  split
  · exact .of_eq rfl rfl
  · rename_i packets hpack
    refine sendPackets_emits clock c packetId packets ?_
    intro m hm
    obtain ⟨hid, -, hrcpts⟩ := packetsFor_spec hpack hm
    exact hQ m hid hrcpts

theorem packetSending_emits_of_fits (hfits : serializedSize ⟨packetId, receipts, payload⟩ ≤ maxDataSize)
    (hQ : Q ⟨packetId, receipts, payload⟩) :
    Emits Q c (c.packetSending clock packetId receipts payload).1 := by
  unfold packetSending
  rw [packetsFor_of_fits hfits]
  refine sendPackets_emits clock c packetId _ ?_
  intro m hm
  rw [mem_singleton.mp hm]
  exact hQ

theorem resendPacket_emits (hm : c.conn.Tracks m ∨ Q m) : Emits Q c (c.resendPacket clock packetId m) := by
  have hsend := c.sendTo_emits m hm
  unfold resendPacket
  dsimp only
  split_ifs
  · exact hsend
  · have hm' : (c.sendTo m).1.conn.Tracks m ∨ Q m := by
      rw [(c.sendTo_spec m).1]
      exact hm
    exact hsend.trans (reportSentPacket_emits clock _ packetId m hm')

theorem resend_emits : Emits Q c (c.resend clock) := by
  obtain ⟨hkept, hresent⟩ := c.conn.sentTracker.getResendFrom_spec clock.nanos
    c.conn.sentTracker.probeTimeout c.conn.sentTracker.effectiveRto c.conn.sentTracker.resendQueue
  have htimers : Emits c.conn.Tracks c
      { c with conn.sentTracker := (c.conn.sentTracker.getResend clock.nanos).1 } := by
    refine ⟨fun x hx => .inl hx, ?_⟩
    rintro x ⟨id, entry, hentry, rfl⟩
    exact .inl ⟨id, entry, hkept id entry hentry, rfl⟩
  refine Emits.of_tracked ?_
  unfold resend
  dsimp only
  split
  · exact htimers
  · rename_i id m haction
    obtain ⟨sentTime, hentry⟩ := hresent id m (.inl haction)
    exact htimers.trans (resendPacket_emits clock _ id m (.inr ⟨id, _, hentry, rfl⟩))
  · rename_i id m haction
    obtain ⟨sentTime, hentry⟩ := hresent id m (.inr haction)
    exact htimers.trans (resendPacket_emits clock _ id m (.inr ⟨id, _, hentry, rfl⟩))

theorem sendPackets_lastPacketId :
    (c.sendPackets clock packetId packets).1.conn.lastPacketId = c.conn.lastPacketId := by
  induction packets generalizing c with
  | nil => rfl
  | cons m rest ih =>
    have hconn := (c.sendTo_spec m).1
    simp only [sendPackets]
    split
    · rw [ih, reportSentPacket, hconn]
    · rw [hconn]
    · rw [hconn]

theorem packetSending_lastPacketId :
    (c.packetSending clock packetId receipts payload).1.conn.lastPacketId = c.conn.lastPacketId := by
  unfold packetSending
  split
  · rfl
  · exact sendPackets_lastPacketId clock c packetId _

def Fresh (lo hi : Nat) (R : List PacketId) (m : SymmetricMessage) : Prop :=
  m.IsAck ∨ lo ≤ m.packetId ∧ m.packetId < hi ∧ m.confirmReceipt ⊆ R

theorem Fresh.mono {lo lo' hi hi' : Nat} {R R' : List PacketId} {m : SymmetricMessage}
    (h : Fresh lo hi R m) (hlo : lo' ≤ lo) (hhi : hi ≤ hi') (hR : R ⊆ R') : Fresh lo' hi' R' m := by
  rcases h with h | ⟨hl, hh, hr⟩
  · exact .inl h
  · exact .inr ⟨by omega, by omega, Subset.trans hr hR⟩

theorem nextPacketId_lastPacketId (hroom : c.conn.lastPacketId + 1 < 2 ^ 32) :
    c.nextPacketId.conn.lastPacketId = c.conn.lastPacketId + 1 := mod_eq_of_lt hroom

theorem nextPacketId_emits : Emits Q c c.nextPacketId := .of_eq rfl rfl

section
variable (hroom : c.conn.lastPacketId + 1 < 2 ^ 32)
include hroom

theorem sendMessage_spec :
    (c.sendMessage clock receipts payload).1.conn.lastPacketId = c.conn.lastPacketId + 1 ∧
      Emits (Fresh c.conn.lastPacketId (c.conn.lastPacketId + 1) receipts) c
        (c.sendMessage clock receipts payload).1 := by
  constructor
  · rw [sendMessage, packetSending_lastPacketId, nextPacketId_lastPacketId c hroom]
  · refine (nextPacketId_emits c).trans (packetSending_emits clock _ _ _ _ ?_)
    intro m hid hrcpts
    exact .inr ⟨by omega, by omega, hrcpts⟩

theorem sendUntracked_spec : (c.sendUntracked payload).1.conn.lastPacketId = c.conn.lastPacketId + 1 ∧
      Emits (Fresh c.conn.lastPacketId (c.conn.lastPacketId + 1) []) c (c.sendUntracked payload).1 := by
  constructor
  · rw [sendUntracked, (c.nextPacketId.sendTo_spec _).1, nextPacketId_lastPacketId c hroom]
  · refine (nextPacketId_emits c).trans (sendTo_emits _ _ (.inr (.inr ⟨?_, ?_, ?_⟩)))
    · exact Nat.le_refl _
    · exact Nat.lt_succ_self _
    · exact List.Subset.refl _

theorem answerPing_spec : c.conn.lastPacketId ≤ (c.answerPing payload).1.conn.lastPacketId ∧
      (c.answerPing payload).1.conn.lastPacketId ≤ c.conn.lastPacketId + 1 ∧
      Emits (Fresh c.conn.lastPacketId (c.answerPing payload).1.conn.lastPacketId []) c
        (c.answerPing payload).1 := by
  unfold answerPing
  split
  · rename_i sequence
    obtain ⟨hlast, hemits⟩ := c.sendUntracked_spec (.pong sequence) hroom
    rw [sendPong, hlast]
    exact ⟨by omega, by omega, hemits⟩
  · exact ⟨Nat.le_refl _, Nat.le_succ _, .of_eq rfl rfl⟩

end

/-- A message that fits one packet and is not sent leaves only its packet id behind. -/
theorem sendMessage_of_not_ok
    (hfits : serializedSize ⟨c.conn.lastPacketId, receipts, payload⟩ ≤ maxDataSize)
    (hresult : (c.sendMessage clock receipts payload).2 ≠ .ok) :
    (c.sendMessage clock receipts payload).2 ≠ .serialization ∧
      Emits Q c (c.sendMessage clock receipts payload).1 := by
  unfold sendMessage packetSending at hresult ⊢
  rw [packetsFor_of_fits hfits] at hresult ⊢
  obtain ⟨hconn, -, hnot⟩ := c.nextPacketId.sendTo_spec ⟨c.conn.lastPacketId, receipts, payload⟩
  simp only [sendPackets] at hresult ⊢
  cases houtc : (c.nextPacketId.sendTo ⟨c.conn.lastPacketId, receipts, payload⟩).2 with
  | sent => simp [houtc] at hresult
  | failed | cancelled =>
    rw [houtc] at hnot
    exact ⟨by simp, .of_eq (by rw [hnot (by simp)]; rfl) (by rw [hconn]; rfl)⟩

theorem noop_fits (hfew : receipts.length ≤ maxPendingReceipts) :
    serializedSize ⟨packetId, receipts, .noOp⟩ ≤ maxDataSize := by
  have hmax : maxPendingReceipts = 20 := rfl
  have hdata : maxDataSize = 1171 := rfl
  simp only [serializedSize, SymmetricMessagePayload.serializedSize]
  omega

/-- Sending the pending receipts by themselves: they are no longer pending, and when the send is
cancelled they are in no packet either. -/
theorem flushReceipts_spec (hroom : c.conn.lastPacketId + 1 < 2 ^ 32)
    (hfew : c.pendingReceipts.length ≤ maxPendingReceipts) :
    c.conn.lastPacketId ≤ (c.flushReceipts clock).1.conn.lastPacketId ∧
      Emits (Fresh c.conn.lastPacketId (c.flushReceipts clock).1.conn.lastPacketId
        c.pendingReceipts) c (c.flushReceipts clock).1 ∧ (c.flushReceipts clock).2 ≠ .serialization ∧
      ((c.flushReceipts clock).2 = .cancelled → Emits Q c (c.flushReceipts clock).1) := by
  have htake : ∀ {Q}, Emits Q c (c.takeReceipts clock) := .of_eq rfl rfl
  unfold flushReceipts
  split_ifs with hnone
  · exact ⟨Nat.le_refl _, htake, by simp, by simp⟩
  · obtain ⟨hlast, hemits⟩ := (c.takeReceipts clock).sendMessage_spec clock c.pendingReceipts .noOp hroom
    have hnot := (c.takeReceipts clock).sendMessage_of_not_ok (Q := Q) clock
      c.pendingReceipts .noOp (noop_fits _ _ hfew)
    rw [noop, hlast]
    refine ⟨le_succ _, htake.trans hemits, ?_, ?_⟩
    · intro hser
      exact (hnot (by simp [hser])).1 hser
    · intro hcanc
      exact htake.trans (hnot (by simp [hcanc])).2

theorem processInbound_emits (hQ : ∀ m : SymmetricMessage, m.IsAck → Q m) :
    Emits Q c (c.processInbound packetId payload) := by
  have hnoted : Emits Q c { c with log.processed := c.log.processed ++ [(packetId, payload)] } :=
    .of_eq rfl rfl
  unfold processInbound answerAck
  split
  · exact hnoted.trans (sendTo_emits _ _ (.inr (hQ _ (PeerConnection.ackOk_isAck _))))
  · exact hnoted

/-- What a call can send, track and leave to be confirmed: packets under new ids with receipts from
`R`, and pending receipts from `R`. -/
structure Outgoing (R : List PacketId) (c c' : Call) : Prop where
  lastPacketId_le : c.conn.lastPacketId ≤ c'.conn.lastPacketId
  emits : Emits (Fresh c.conn.lastPacketId c'.conn.lastPacketId R) c c'
  pendingReceipts : c'.conn.receivedTracker.pendingReceipts ⊆ R
  few : c'.conn.receivedTracker.pendingReceipts.length < maxPendingReceipts

variable (scale : DurationScale) (receipts : List PacketId) {R : List PacketId}

theorem Outgoing.of_kept {c c' : Call} (hsame : SameInbound c c')
    (hle : c.conn.lastPacketId ≤ c'.conn.lastPacketId)
    (hemits : Emits (Fresh c.conn.lastPacketId c'.conn.lastPacketId c.pendingReceipts) c c')
    (hfew : c.pendingReceipts.length < maxPendingReceipts) : Outgoing c.pendingReceipts c c' where
  lastPacketId_le := hle
  emits := hemits
  pendingReceipts := by
    rw [hsame.receivedTracker]
    exact Subset.refl _
  few := by
    rw [hsame.receivedTracker]
    exact hfew

theorem Outgoing.of_taken {c c' : Call} {clock : Clock} (hsame : SameInbound (c.takeReceipts clock) c')
    (hle : c.conn.lastPacketId ≤ c'.conn.lastPacketId)
    (hemits : Emits (Fresh c.conn.lastPacketId c'.conn.lastPacketId R) c c') : Outgoing R c c' := by
  have hnone : c'.conn.receivedTracker.pendingReceipts = [] := hsame.pendingReceipts
  refine ⟨hle, hemits, ?_, ?_⟩
  · rw [hnone]
    exact nil_subset _
  · rw [hnone]
    decide

theorem Outgoing.processInbound {c : Call} (h : Outgoing R c c₁) (packetId : PacketId)
    (payload : SymmetricMessagePayload) : Outgoing R c (c₁.processInbound packetId payload) := by
  have hconn := (c₁.processInbound_inbound packetId payload).1
  refine ⟨?_, ?_, ?_, ?_⟩
  · rw [hconn]
    exact h.lastPacketId_le
  · rw [hconn]
    exact h.emits.trans (processInbound_emits c₁ packetId payload fun m hm => .inl hm)
  · rw [hconn]
    exact h.pendingReceipts
  · rw [hconn]
    exact h.few

theorem mem_processed_processInbound :
    (packetId, payload) ∈ (c.processInbound packetId payload).log.processed := by
  rw [(c.processInbound_inbound packetId payload).2.2]
  exact mem_append_right _ (mem_singleton_self _)

theorem afterReport_outgoing (report : ReportResult) (receiptsDue : Bool)
    (hroom : c.conn.lastPacketId + 1 < 2 ^ 32) (hfew : c.pendingReceipts.length ≤ maxPendingReceipts)
    (hreport : report ≠ .queueFull → c.pendingReceipts.length < maxPendingReceipts) :
    ∃ R, Outgoing R c (c.afterReport clock m report receiptsDue) ∧ R ⊆ c.pendingReceipts ∧
      (R ≠ [] → report ≠ .alreadyReceived →
        (m.packetId, m.payload) ∈ (c.afterReport clock m report receiptsDue).log.processed) := by
  unfold afterReport
  split_ifs with hcond
  · obtain ⟨hlast, hemits, hser, hcanc⟩ := flushReceipts_spec
      (Q := Fresh c.conn.lastPacketId (c.flushReceipts clock).1.conn.lastPacketId []) clock c hroom
      hfew
    have hsame := (c.flushReceipts_sends clock).toSameInbound
    have hout := Outgoing.of_taken hsame hlast hemits
    have hsent : ∃ R, Outgoing R c ((c.flushReceipts clock).1.processInbound m.packetId m.payload) ∧
        R ⊆ c.pendingReceipts ∧ (R ≠ [] → report ≠ .alreadyReceived →
          (m.packetId, m.payload) ∈
            ((c.flushReceipts clock).1.processInbound m.packetId m.payload).log.processed) :=
      ⟨_, hout.processInbound _ _, Subset.refl _, fun _ _ => mem_processed_processInbound _ _ _⟩
    dsimp only
    split
    · exact hsent
    · exact hsent
    · rename_i h
      exact absurd h hser
    · rename_i h
      -- a cancelled flush: the receipts are lost, and in no packet
      exact ⟨[], .of_taken hsame hlast (hcanc h), nil_subset _, by simp⟩
  · have hout :=
      Outgoing.of_kept (.refl c) (Nat.le_refl _) (.of_eq rfl rfl) (hreport fun h => hcond (.inl h))
    cases report with
    | alreadyReceived => exact ⟨_, hout, List.Subset.refl _, fun _ h => absurd rfl h⟩
    | ok | queueFull => exact ⟨_, hout.processInbound _ _, Subset.refl _,
        fun _ _ => mem_processed_processInbound _ _ _⟩

theorem reportReceivedReceipts_emits :
    Emits Q c (c.reportReceivedReceipts clock scale receipts) where
  sent x hx := .inl hx
  tracked x hx := by
    obtain ⟨id, entry, hentry, rfl⟩ := hx
    simp only [reportReceivedReceipts, SentPacketTracker.reportReceivedReceipts_pending] at hentry
    split_ifs at hentry
    exact .inl ⟨id, entry, hentry, rfl⟩

theorem reportReceivedReceipts_lastPacketId :
    (c.reportReceivedReceipts clock scale receipts).conn.lastPacketId = c.conn.lastPacketId := rfl

theorem noteReportTime_spec : (c.noteReportTime clock).conn.lastPacketId = c.conn.lastPacketId ∧
      Emits Q c (c.noteReportTime clock) := by
  unfold noteReportTime
  split_ifs
  · exact ⟨rfl, .of_eq rfl rfl⟩
  · exact ⟨rfl, .of_eq rfl rfl⟩

theorem reportReceivedPacket_pending : (c.reportReceivedPacket clock packetId).1.pendingReceipts =
      (if c.conn.receivedTracker.holds clock.instant packetId then c.pendingReceipts
      else c.pendingReceipts ++ [packetId]) ∧ ((c.reportReceivedPacket clock packetId).2 = .ok →
      c.pendingReceipts.length + 1 < maxPendingReceipts) := by
  rw [pendingReceipts]
  cases hholds : c.conn.receivedTracker.holds clock.instant packetId with
  | true =>
    simp [reportReceivedPacket, ReceivedPacketTracker.reportReceivedPacket_of_holds _ _ _ hholds]
  | false =>
    simp [reportReceivedPacket, ReceivedPacketTracker.reportReceivedPacket_of_not_holds _ _ _ hholds]

/-- A report leaves room for further receipts, unless it says that the queue is full. -/
theorem reportReceivedPacket_few (hfew : c.pendingReceipts.length < maxPendingReceipts) :
    (c.reportReceivedPacket clock packetId).1.pendingReceipts.length ≤ maxPendingReceipts ∧
      ((c.reportReceivedPacket clock packetId).2 ≠ .queueFull →
        (c.reportReceivedPacket clock packetId).1.pendingReceipts.length < maxPendingReceipts) := by
  obtain ⟨hpend, hok⟩ := reportReceivedPacket_pending clock c packetId
  have hknown := (c.reportReceivedPacket_inbound clock packetId).2.2
  have hlength : (c.reportReceivedPacket clock
      packetId).1.pendingReceipts.length ≤ c.pendingReceipts.length + 1 := by
    rw [hpend]
    split_ifs
    · omega
    · simp
  refine ⟨by omega, ?_⟩
  intro hnotFull
  cases hreport : (c.reportReceivedPacket clock packetId).2 with
  | queueFull => exact absurd hreport hnotFull
  | ok =>
    have hroom := hok hreport
    omega
  | alreadyReceived =>
    rw [hpend, if_pos (hknown.mp hreport)]
    exact hfew

theorem reportReceivedPacket_lastPacketId :
    (c.reportReceivedPacket clock packetId).1.conn.lastPacketId = c.conn.lastPacketId := rfl

theorem reportReceivedPacket_emits : Emits Q c (c.reportReceivedPacket clock packetId).1 := .of_eq rfl rfl

theorem Outgoing.of_emits {c : Call} (h : Outgoing R c₁ c₂)
    (hle : c.conn.lastPacketId ≤ c₁.conn.lastPacketId)
    (hemits : Emits (Fresh c.conn.lastPacketId c₁.conn.lastPacketId []) c c₁) :
    Outgoing R c c₂ where
  lastPacketId_le := Nat.le_trans hle h.lastPacketId_le
  emits := by
    have hfirst := hemits.mono fun m hm => hm.mono (Nat.le_refl _) h.lastPacketId_le (nil_subset R)
    exact hfirst.trans (h.emits.mono fun m hm => hm.mono hle (Nat.le_refl _) (List.Subset.refl _))
  pendingReceipts := h.pendingReceipts
  few := h.few

theorem recvMessage_outgoing (m : SymmetricMessage) (hroom : c.conn.lastPacketId + 2 < 2 ^ 32)
    (hfew : c.pendingReceipts.length < maxPendingReceipts) :
    ∃ R, Outgoing R c (c.recvMessage clock scale m) ∧ ∀ id ∈ R, id ∈ c.pendingReceipts ∨
        id = m.packetId ∧ (m.packetId, m.payload) ∈ (c.recvMessage clock scale m).log.processed := by
  obtain ⟨hle, hle', hping⟩ := c.answerPing_spec m.payload (by omega)
  have hsame := c.answerPing_sends m.payload
  unfold recvMessage
  dsimp only
  split_ifs with hcanc
  · refine ⟨_, .of_kept hsame.toSameInbound hle (hping.mono ?_) hfew, fun id hid => .inl hid⟩
    exact fun x hx => hx.mono (Nat.le_refl _) (Nat.le_refl _) (nil_subset _)
  · have hnoted := noteReportTime_spec (Q := Fresh c.conn.lastPacketId
      (c.answerPing m.payload).1.conn.lastPacketId []) clock (c.answerPing m.payload).1
    have hready := (hsame.trans (noteReportTime_sends _ clock)).toSameInbound.trans
      (reportReceivedReceipts_sameInbound _ clock scale m.confirmReceipt)
    have hemits := (hping.trans hnoted.2).trans (reportReceivedReceipts_emits clock _ scale m.confirmReceipt)
    have hlast : (((c.answerPing m.payload).1.noteReportTime clock).reportReceivedReceipts clock
        scale m.confirmReceipt).conn.lastPacketId = (c.answerPing m.payload).1.conn.lastPacketId := by
      rw [reportReceivedReceipts_lastPacketId, hnoted.1]
    generalize ((c.answerPing m.payload).1.noteReportTime clock).reportReceivedReceipts clock scale
      m.confirmReceipt = ready at hready hemits hlast ⊢
    have hpend := (reportReceivedPacket_pending clock ready m.packetId).1
    have hknown := (ready.reportReceivedPacket_inbound clock m.packetId).2.2
    rw [← hready.pendingReceipts] at hfew
    obtain ⟨hlength, hnotFull⟩ := reportReceivedPacket_few clock ready m.packetId hfew
    have hreported : (ready.reportReceivedPacket clock m.packetId).1.conn.lastPacketId =
        (c.answerPing m.payload).1.conn.lastPacketId := by
      rw [reportReceivedPacket_lastPacketId, hlast]
    obtain ⟨R, hout, hsub, hproc⟩ := afterReport_outgoing clock
      (ready.reportReceivedPacket clock m.packetId).1 m (ready.reportReceivedPacket clock m.packetId).2
      ((c.answerPing m.payload).1.conn.receiptsDue clock) (by omega) hlength hnotFull
    rw [hready.receivedTracker] at hpend hknown
    rw [hready.pendingReceipts] at hpend
    refine ⟨R, hout.of_emits (by omega) ?_, ?_⟩
    · rw [hreported]
      exact hemits.trans (reportReceivedPacket_emits clock ready m.packetId)
    · intro id hid
      have hmem := hsub hid
      rw [hpend] at hmem
      by_cases hheld : c.conn.receivedTracker.holds clock.instant m.packetId = true
      · rw [if_pos hheld] at hmem
        exact .inl hmem
      · rw [if_neg hheld, mem_append] at hmem
        rcases hmem with hmem | hmem
        · exact .inl hmem
        · refine .inr ⟨mem_singleton.mp hmem, hproc ?_ ?_⟩
          · intro hnil
            rw [hnil] at hid
            cases hid
          · exact fun h => hheld (hknown.mp h)

end Call

/-! What one event at one end of a connection can do, whichever event it is. -/

namespace Call
variable (c : Call) (clock : Clock) (payload : SymmetricMessagePayload) (packetId : PacketId)
  (m : SymmetricMessage)

theorem processInbound_acknowledged (payload : SymmetricMessagePayload) :
    (c.processInbound packetId payload).log.acknowledged = c.log.acknowledged := by
  unfold processInbound answerAck
  split
  · rw [(sendTo_sends _ _).acknowledged]
  · rfl

theorem afterReport_acknowledged (report : ReportResult) (due : Bool) :
    (c.afterReport clock m report due).log.acknowledged = c.log.acknowledged := by
  refine c.afterReport_of (P := fun c' => c'.log.acknowledged = c.log.acknowledged) clock m report due
    (fun _ => (c.flushReceipts_sends clock).acknowledged) (fun _ => rfl) ?_
  intro c' h
  exact (processInbound_acknowledged _ _ _).trans h

theorem recvMessage_acknowledged (scale : DurationScale) (m : SymmetricMessage) (id : PacketId)
    (hid : id ∈ (c.recvMessage clock scale m).log.acknowledged) :
    id ∈ c.log.acknowledged ∨ id ∈ m.confirmReceipt := by
  rcases c.recvMessage_cases clock m scale with hsends | ⟨ready, -, -, hready, hrecv, -⟩
  · rw [hsends.acknowledged] at hid
    exact .inl hid
  · rw [hrecv, afterReport_acknowledged] at hid
    exact hready id hid

theorem resend_lastPacketId : (c.resend clock).conn.lastPacketId = c.conn.lastPacketId := by
  unfold resend resendPacket
  dsimp only
  split
  · rfl
  all_goals
    split_ifs
    · rw [(sendTo_spec _ _).1]
    · rw [reportSentPacket, (sendTo_spec _ _).1]

variable {c clock} {c' : Call}

theorem sendWithReceipts_outgoing (hroom : c.conn.lastPacketId + 1 < 2 ^ 32) :
    Outgoing c.pendingReceipts c (c.sendWithReceipts clock payload).1 := by
  obtain ⟨hlast, hemits⟩ := (c.takeReceipts clock).sendMessage_spec clock c.pendingReceipts payload hroom
  have htake : Emits (Fresh c.conn.lastPacketId (c.conn.lastPacketId + 1)
      c.pendingReceipts) c (c.takeReceipts clock) := .of_eq rfl rfl
  refine .of_taken (c.sendWithReceipts_sends clock payload).toSameInbound ?_ ?_
  · rw [sendWithReceipts, hlast]
    exact le_succ _
  · rw [sendWithReceipts, hlast]
    exact htake.trans hemits

end Call

namespace PeerConnection
variable (scale : DurationScale) (clock : Clock)

def MayConfirm (conn : PeerConnection) (event : PeerEvent) (log : Log) (id : PacketId) : Prop :=
  id ∈ conn.receivedTracker.pendingReceipts ∨
    ∃ m, event = .packet m ∧ id = m.packetId ∧ (m.packetId, m.payload) ∈ log.processed

variable (c : Call) (event : PeerEvent) (data : List UInt8)

theorem handle_outgoing (hroom : c.conn.lastPacketId + 2 < 2 ^ 32)
    (hfew : c.pendingReceipts.length < maxPendingReceipts) :
    ∃ R, Call.Outgoing R c (handle scale clock c event) ∧
      ∀ id ∈ R, c.conn.MayConfirm event (handle scale clock c event).log id := by
  have hroom₁ : c.conn.lastPacketId + 1 < 2 ^ 32 := by omega
  -- all events but packets confirm only what was pending
  have hpend : ∀ c', Call.Outgoing c.pendingReceipts c c' →
      ∃ R, Call.Outgoing R c c' ∧ ∀ id ∈ R, c.conn.MayConfirm event c'.log id :=
    fun c' h => ⟨_, h, fun id hid => .inl hid⟩
  cases event with
  | packet m =>
    obtain ⟨R, hout, hR⟩ := c.recvMessage_outgoing clock scale m hroom hfew
    refine ⟨R, hout, ?_⟩
    intro id hid
    rcases hR id hid with h | ⟨h, hproc⟩
    · exact .inl h
    · exact .inr ⟨m, rfl, h, hproc⟩
  | introPacket =>
    refine hpend _ (.of_kept (c.sendTo_sends _).toSameInbound ?_
      (c.sendTo_emits _ (.inr (.inl c.conn.ackOk_isAck))) hfew)
    simp only [handle, (c.sendTo_spec _).1]
    exact Nat.le_refl _
  | ackTimer =>
    obtain ⟨hle, hemits, -, -⟩ :=
      c.flushReceipts_spec (Q := fun _ => True) clock hroom₁ (Nat.le_of_lt hfew)
    exact hpend _ (.of_taken (c.flushReceipts_sends clock).toSameInbound hle hemits)
  | resendTimer =>
    refine hpend _ (.of_kept (c.resend_sends clock).toSameInbound ?_ (c.resend_emits clock) hfew)
    simp only [handle, c.resend_lastPacketId]
    exact Nat.le_refl _
  | shortMessage data => exact hpend _ (Call.sendWithReceipts_outgoing _ hroom₁)
  | fragment streamId total number payload metadata withReceipts =>
    cases withReceipts with
    | true => exact hpend _ (Call.sendWithReceipts_outgoing _ hroom₁)
    | false =>
      obtain ⟨hlast, hemits⟩ := c.sendMessage_spec clock []
        (fragmentPayload streamId total number payload metadata) hroom₁
      refine hpend _ (.of_kept (c.sendMessage_sends clock _ _).toSameInbound ?_ ?_ hfew)
      · simp only [handle, hlast]
        exact le_succ _
      · simp only [handle, hlast]
        exact hemits.mono fun m hm => hm.mono (Nat.le_refl _) (Nat.le_refl _) (List.nil_subset _)
  | keepAlive sequence =>
    obtain ⟨hlast, hemits⟩ := c.sendUntracked_spec (.ping sequence) hroom₁
    refine hpend _ (.of_kept (c.sendUntracked_sends _).toSameInbound ?_ ?_ hfew)
    · simp only [handle, hlast]
      exact le_succ _
    · simp only [handle, hlast]
      exact hemits.mono fun m hm => hm.mono (Nat.le_refl _) (Nat.le_refl _) (List.nil_subset _)
  | trackAck =>
    exact hpend _ (.of_kept ⟨rfl, rfl, rfl⟩ (Nat.le_refl _)
      (c.reportSentPacket_emits clock _ _ (.inr (.inl c.conn.ackOk_isAck))) hfew)

theorem handle_shortMessage_emits
    (hfits : SymmetricMessage.serializedSize ⟨c.conn.lastPacketId, c.pendingReceipts,
      .shortMessage data⟩ ≤ maxDataSize) : Call.Emits (fun m => m.payload = .shortMessage data) c
      (handle scale clock c (.shortMessage data)) := by
  have hstart : Call.Emits (fun m => m.payload = .shortMessage data) c
      (c.takeReceipts clock).nextPacketId := .of_eq rfl rfl
  exact hstart.trans (Call.packetSending_emits_of_fits clock _ _ _ _ hfits rfl)

theorem handle_shortMessage_lastPacketId (hroom : c.conn.lastPacketId + 1 < 2 ^ 32) :
    (handle scale clock c (.shortMessage data)).conn.lastPacketId = c.conn.lastPacketId + 1 :=
  ((c.takeReceipts clock).sendMessage_spec clock _ _ hroom).1

theorem handle_acknowledged (id : PacketId) (hid : id ∈ (handle scale clock c event).log.acknowledged) :
    id ∈ c.log.acknowledged ∨ ∃ m, event = .packet m ∧ id ∈ m.confirmReceipt := by
  by_cases hpacket : ∃ m, event = .packet m
  · obtain ⟨m, rfl⟩ := hpacket
    exact (c.recvMessage_acknowledged clock scale m id hid).imp_right fun h => ⟨m, rfl, h⟩
  · left
    rcases handle_sends scale clock c (fun m h => hpacket ⟨m, h⟩) with h | h
    · rwa [h.acknowledged] at hid
    · rwa [h.acknowledged] at hid

end PeerConnection

/-! The receipts that wait to be sent never fill their queue between two events. -/

def PeerConnection.FewReceipts (conn : PeerConnection) : Prop :=
  conn.receivedTracker.pendingReceipts.length < maxPendingReceipts

namespace Call
variable (c : Call) (clock : Clock)

theorem SameInbound.few {c c' : Call} (h : SameInbound c c') (hfew : c.conn.FewReceipts) :
    c'.conn.FewReceipts := by
  unfold PeerConnection.FewReceipts
  rw [h.receivedTracker]
  exact hfew

theorem afterReport_few (m : SymmetricMessage) (report : ReportResult) (receiptsDue : Bool)
    (hfew : report ≠ .queueFull → c.conn.FewReceipts) :
    (c.afterReport clock m report receiptsDue).conn.FewReceipts := by
  refine c.afterReport_of (P := fun c' => c'.conn.FewReceipts) clock m report receiptsDue
    (fun _ => (c.flushReceipts_sends clock).few (zero_lt_succ _))
    (fun h => hfew fun hfull => h (.inl hfull)) ?_
  intro c' h
  rw [(c'.processInbound_inbound _ _).1]
  exact h

theorem recvMessage_few (scale : DurationScale) (m : SymmetricMessage)
    (hfew : c.conn.FewReceipts) : (c.recvMessage clock scale m).conn.FewReceipts := by
  rcases c.recvMessage_cases clock m scale with hsends | ⟨ready, hready, -, -, hrecv, -⟩
  · exact hsends.few hfew
  · rw [hrecv]
    apply afterReport_few
    exact (reportReceivedPacket_few clock _ m.packetId (hready.few hfew)).2

end Call

theorem PeerConnection.handle_few (scale : DurationScale) (clock : Clock) (c : Call)
    (event : PeerEvent) (hfew : c.conn.FewReceipts) :
    (handle scale clock c event).conn.FewReceipts := by
  by_cases hpacket : ∃ m, event = .packet m
  · obtain ⟨m, rfl⟩ := hpacket
    exact c.recvMessage_few clock scale m hfew
  · rcases handle_sends scale clock c (fun m h => hpacket ⟨m, h⟩) with h | h
    · exact h.few hfew
    · exact h.few (zero_lt_succ _)

end Freenet.Transport
