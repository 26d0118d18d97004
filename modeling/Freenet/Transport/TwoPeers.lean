import Freenet.Transport.OutboundPackets

/-! Two connected peers over a lossy network, and what an acknowledged packet id says. -/
namespace Freenet.Transport
open Lib PeerConnection List Function

inductive Side where
  | left
  | right
  deriving DecidableEq, Repr

def Side.other : Side → Side
  | left => right
  | right => left

@[simp]
theorem Side.other_other (s : Side) : s.other.other = s := by cases s <;> rfl

theorem Side.other_ne (s : Side) : s.other ≠ s := by cases s <;> decide

theorem Side.eq_or_eq_other (s x : Side) : s = x ∨ s = x.other := by cases s <;> cases x <;> decide

/-- One end with its history: the datagrams that left it, the short messages it was given with
their packet ids, the payloads it processed, and the packet ids it dropped on a receipt. -/
structure End where
  conn : PeerConnection
  wire : List SymmetricMessage
  messages : List (Nat × List UInt8)
  processed : List (Nat × SymmetricMessagePayload)
  dropped : List Nat

abbrev World := Side → End

structure WorldEvent where
  side : Side
  clock : Clock
  socket : List SendOutcome
  event : PeerEvent

def End.recordMessage (x : End) : PeerEvent → List (Nat × List UInt8)
  | .shortMessage data => x.messages ++ [(x.conn.lastPacketId, data)]
  | _ => x.messages

def End.after (scale : DurationScale) (x : End) (e : WorldEvent) : End :=
  let result := x.conn.step scale e.clock e.socket e.event
  { conn := result.1
    wire := x.wire ++ result.2.sent
    messages := x.recordMessage e.event
    processed := x.processed ++ result.2.processed
    dropped := x.dropped ++ result.2.acknowledged }

namespace World

/-- A packet arrives only if the other end has sent it, any number of times and in any order. -/
def possible (w : World) (e : WorldEvent) : Bool :=
  match e.event with
  | .packet m => m ∈ (w e.side.other).wire
  | _ => true

def step (scale : DurationScale) (w : World) (e : WorldEvent) : Option World :=
  if w.possible e then some (Function.update w e.side ((w e.side).after scale e)) else none

/-- Two ends right after their handshake, of which only acknowledgements may be under way. -/
structure Initial (w : World) : Prop where
  lastPacketId : ∀ s, (w s).conn.lastPacketId = 0
  received : ∀ s, (w s).conn.receivedTracker = .new
  packets : ∀ s m, m ∈ (w s).wire ∨ (w s).conn.Tracks m → m.IsAck
  messages : ∀ s, (w s).messages = []
  dropped : ∀ s, (w s).dropped = []

/-- A message whose packet id was dropped on a receipt has been processed at the other end. -/
def AckedProcessed (w : World) : Prop :=
  ∀ s id data, (id, data) ∈ (w s).messages → id ∈ (w s).dropped →
    (id, .shortMessage data) ∈ (w s.other).processed

/-- The packet ids do not wrap, a short message and its receipts fit one packet, and an
acknowledgement of the connection arrives only when nothing else can arrive first under its id. -/
structure Orderly (w : World) (e : WorldEvent) : Prop where
  room : (w e.side).conn.lastPacketId + 2 < 2 ^ 32
  fits : ∀ data, e.event = .shortMessage data →
    SymmetricMessage.serializedSize ⟨(w e.side).conn.lastPacketId,
      (w e.side).conn.receivedTracker.pendingReceipts, .shortMessage data⟩ ≤ maxDataSize
  ack : ∀ m, e.event = .packet m → m.payload.isAckConnection = true →
    firstPacketId < (w e.side.other).conn.lastPacketId ∧
      ∀ data, (firstPacketId, data) ∈ (w e.side.other).messages →
        (firstPacketId, .shortMessage data) ∈ (w e.side).processed

def Settled (w : World) (s : Side) (id : Nat) : Prop :=
  id < (w s).conn.lastPacketId ∧
    ∀ data, (id, data) ∈ (w s).messages → (id, .shortMessage data) ∈ (w s.other).processed

def Sent (w : World) (s : Side) (m : SymmetricMessage) : Prop :=
  m ∈ (w s).wire ∨ (w s).conn.Tracks m

/-- What holds at each end: a packet under the id of a short message carries that message, and
every receipt that is pending, under way or has been used is of a settled id. -/
structure Sound (w : World) (s : Side) : Prop where
  messages : ∀ id data, (id, data) ∈ (w s).messages → id < (w s).conn.lastPacketId
  packets : ∀ m, w.Sent s m → m.IsAck ∨ m.packetId < (w s).conn.lastPacketId ∧
    ∀ data, (m.packetId, data) ∈ (w s).messages → m.payload = .shortMessage data
  receipts : ∀ m, w.Sent s m → ∀ id ∈ m.confirmReceipt, w.Settled s.other id
  pending : ∀ id ∈ (w s).conn.receivedTracker.pendingReceipts, w.Settled s.other id
  few : (w s).conn.receivedTracker.pendingReceipts.length < maxPendingReceipts
  dropped : ∀ id ∈ (w s).dropped, w.Settled s id

theorem Initial.sound {w : World} (h : w.Initial) (s : Side) : w.Sound s where
  messages id data hmem := by
    rw [h.messages s] at hmem
    cases hmem
  packets m hm := .inl (h.packets s m hm)
  receipts m hm id hid := by
    rw [(h.packets s m hm).confirmReceipt] at hid
    cases hid
  pending id hid := by
    rw [h.received s] at hid
    cases hid
  few := by
    rw [h.received s]
    decide
  dropped id hid := by
    rw [h.dropped s] at hid
    cases hid

theorem ackedProcessed_of_sound {w : World} (h : ∀ s, w.Sound s) : w.AckedProcessed := by
  intro s id data hmem hdrop
  exact ((h s).dropped id hdrop).2 data hmem

section Step
variable {scale : DurationScale} {w : World} {e : WorldEvent}

/-- The call of the step, before and after. -/
def callBefore (w : World) (e : WorldEvent) : Call := ⟨(w e.side).conn, .empty, e.socket⟩

def callAfter (scale : DurationScale) (w : World) (e : WorldEvent) : Call :=
  handle scale e.clock (callBefore w e) e.event

def next (scale : DurationScale) (w : World) (e : WorldEvent) : World :=
  Function.update w e.side ((w e.side).after scale e)

theorem next_side : next scale w e e.side = (w e.side).after scale e := update_self ..

theorem next_other : next scale w e e.side.other = w e.side.other :=
  update_of_ne e.side.other_ne ..

theorem processed_subset_next (s : Side) : (w s).processed ⊆ (next scale w e s).processed := by
  rcases s.eq_or_eq_other e.side with rfl | rfl
  · rw [next_side]
    exact subset_append_left _ _
  · rw [next_other]
    exact Subset.refl _

theorem mem_messages_next {s : Side} {id : Nat} {data : List UInt8}
    (h : (id, data) ∈ (next scale w e s).messages) : (id, data) ∈ (w s).messages ∨
      s = e.side ∧ e.event = .shortMessage data ∧ id = (w e.side).conn.lastPacketId := by
  rcases s.eq_or_eq_other e.side with rfl | rfl
  · rw [next_side] at h
    simp only [End.after, End.recordMessage] at h
    split at h
    · rename_i d hevent
      rcases mem_append.mp h with h | h
      · exact .inl h
      · obtain ⟨rfl, rfl⟩ := Prod.mk.inj (mem_singleton.mp h)
        exact .inr ⟨rfl, hevent, rfl⟩
    · exact .inl h
  · rw [next_other] at h
    exact .inl h

variable {R : List PacketId}

theorem lastPacketId_le_next (hout : Call.Outgoing R (callBefore w e) (callAfter scale w e))
    (s : Side) : (w s).conn.lastPacketId ≤ (next scale w e s).conn.lastPacketId := by
  rcases s.eq_or_eq_other e.side with rfl | rfl
  · rw [next_side]
    exact hout.lastPacketId_le
  · exact Nat.le_of_eq (by rw [next_other])

/-- Settled ids stay settled: a new message does not take an id that was given out. -/
theorem Settled.next {s : Side} {id : Nat}
    (hout : Call.Outgoing R (callBefore w e) (callAfter scale w e)) (h : w.Settled s id) :
    (w.next scale e).Settled s id := by
  refine ⟨Nat.lt_of_lt_of_le h.1 (lastPacketId_le_next hout s), ?_⟩
  intro data hmem
  rcases mem_messages_next hmem with hmem | ⟨rfl, -, rfl⟩
  · exact processed_subset_next s.other (h.2 data hmem)
  · exact absurd h.1 (Nat.lt_irrefl _)

theorem sent_next {Q : SymmetricMessage → Prop} {m : SymmetricMessage}
    (hemits : Call.Emits Q (callBefore w e) (callAfter scale w e))
    (h : (w.next scale e).Sent e.side m) : w.Sent e.side m ∨ Q m := by
  unfold Sent at h
  rw [next_side] at h
  rcases h with h | h
  · rcases mem_append.mp h with h | h
    · exact .inl (.inl h)
    · rcases hemits.sent m h with h | h | h
      · cases h
      · exact .inl (.inr h)
      · exact .inr h
  · exact (hemits.tracked m h).imp_left .inr

variable (hposs : w.possible e = true) (hsound : ∀ s, w.Sound s) (horderly : w.Orderly e)
include hposs hsound horderly

theorem settled_of_mayConfirm (hout : Call.Outgoing R (callBefore w e) (callAfter scale w e))
    {id : Nat} (h : (w e.side).conn.MayConfirm e.event (callAfter scale w e).log id) :
    (w.next scale e).Settled e.side.other id := by
  rcases h with h | ⟨m, hevent, rfl, hproc⟩
  · exact ((hsound e.side).pending id h).next hout
  · have hwire : m ∈ (w e.side.other).wire := by
      simpa [possible, hevent] using hposs
    have hnew : (m.packetId, m.payload) ∈ (next scale w e e.side).processed := by
      rw [next_side]
      exact mem_append_right _ hproc
    rcases (hsound e.side.other).packets m (.inl hwire) with hack | ⟨hlt, hpayl⟩
    · have hfirst := horderly.ack m hevent hack.payload
      rw [hack.packetId]
      refine Settled.next hout ⟨hfirst.1, ?_⟩
      rw [Side.other_other]
      exact hfirst.2
    · refine ⟨?_, ?_⟩
      · rw [next_other]
        exact hlt
      · intro data hmem
        rw [next_other] at hmem
        rw [hpayl data hmem] at hnew
        rw [Side.other_other]
        exact hnew

omit hposs in
theorem packets_next
    (hout : Call.Outgoing R (callBefore w e) (callAfter scale w e)) (m : SymmetricMessage)
    (hm : (w.next scale e).Sent e.side m) :
    m.IsAck ∨ m.packetId < (next scale w e e.side).conn.lastPacketId ∧
      ∀ data, (m.packetId, data) ∈ (next scale w e e.side).messages → m.payload = .shortMessage data := by
  by_cases hpast : w.Sent e.side m
  · refine ((hsound e.side).packets m hpast).imp_right fun ⟨hlt, hpayl⟩ => ⟨?_, ?_⟩
    · exact Nat.lt_of_lt_of_le hlt (lastPacketId_le_next hout e.side)
    · intro data hmem
      rcases mem_messages_next hmem with hmem | ⟨-, -, hid⟩
      · exact hpayl data hmem
      · exact absurd hid (Nat.ne_of_lt hlt)
  · rcases (sent_next hout.emits hm).resolve_left hpast with hack | ⟨hlo, hhi, -⟩
    · exact .inl hack
    · refine .inr ⟨?_, ?_⟩
      · rw [next_side]
        exact hhi
      · intro data hmem
        rcases mem_messages_next hmem with hmem | ⟨-, hevent, -⟩
        · have hlt := (hsound e.side).messages _ data hmem
          exact absurd hlo (Nat.not_le_of_lt hlt)
        · have hemits := handle_shortMessage_emits scale e.clock (callBefore w e) data
            (horderly.fits data hevent)
          rw [← hevent] at hemits
          exact (sent_next hemits hm).resolve_left hpast

theorem next_sound_side : (w.next scale e).Sound e.side := by
  obtain ⟨R, hout, hR⟩ := handle_outgoing scale e.clock (callBefore w e) e.event
    horderly.room (hsound e.side).few
  have hsettl : ∀ id ∈ R, (w.next scale e).Settled e.side.other id := fun id hid =>
    settled_of_mayConfirm hposs hsound horderly hout (hR id hid)
  refine ⟨?_, packets_next hsound horderly hout, ?_, ?_, ?_, ?_⟩
  · intro id data hmem
    rcases mem_messages_next hmem with hmem | ⟨-, hevent, rfl⟩
    · exact Nat.lt_of_lt_of_le ((hsound e.side).messages id data hmem) (lastPacketId_le_next hout e.side)
    · have hroom := horderly.room
      have hlast := handle_shortMessage_lastPacketId scale e.clock (callBefore w e)
        data (by simp only [callBefore]; omega)
      rw [← hevent] at hlast
      rw [next_side]
      exact Nat.lt_of_lt_of_eq (Nat.lt_succ_self _) hlast.symm
  · intro m hm id hid
    rcases sent_next hout.emits hm with h | hack | ⟨-, -, hrcpts⟩
    · exact ((hsound e.side).receipts m h id hid).next hout
    · rw [hack.confirmReceipt] at hid
      cases hid
    · exact hsettl id (hrcpts hid)
  · intro id hid
    rw [next_side] at hid
    exact hsettl id (hout.pendingReceipts hid)
  · rw [next_side]
    exact hout.few
  · intro id hid
    rw [next_side] at hid
    rcases mem_append.mp hid with h | h
    · exact ((hsound e.side).dropped id h).next hout
    · rcases handle_acknowledged scale e.clock (callBefore w e) e.event id h with
        h | ⟨m, hevent, hconf⟩
      · cases h
      · have hwire : m ∈ (w e.side.other).wire := by
          simpa [possible, hevent] using hposs
        have hsettlBefore := (hsound e.side.other).receipts m (.inl hwire) id hconf
        rw [Side.other_other] at hsettlBefore
        exact hsettlBefore.next hout

theorem next_sound (s : Side) : (w.next scale e).Sound s := by
  rcases s.eq_or_eq_other e.side with rfl | rfl
  · exact next_sound_side hposs hsound horderly
  · obtain ⟨R, hout, -⟩ := handle_outgoing scale e.clock (callBefore w e) e.event
      horderly.room (hsound e.side).few
    have hsame := hsound e.side.other
    refine ⟨?_, ?_, ?_, ?_, ?_, ?_⟩
    · rw [next_other]
      exact hsame.messages
    · intro m hm
      unfold Sent at hm
      rw [next_other] at hm ⊢
      exact hsame.packets m hm
    · intro m hm id hid
      unfold Sent at hm
      rw [next_other] at hm
      exact (hsame.receipts m hm id hid).next hout
    · intro id hid
      rw [next_other] at hid
      exact (hsame.pending id hid).next hout
    · rw [next_other]
      exact hsame.few
    · intro id hid
      rw [next_other] at hid
      exact (hsame.dropped id hid).next hout

end Step
end World

def twoPeers (scale : DurationScale) : Machine World WorldEvent where
  init := World.Initial
  step := World.step scale

/-- In every run in which packet ids do not wrap, short messages fit one packet with their receipts,
and acknowledgements of the connection do not overtake what shares their id, a message whose id was
dropped on a receipt has been processed at the other end. -/
theorem acked_message_was_processed (scale : DurationScale) (w t : World) (es : List WorldEvent)
    (hinit : (twoPeers scale).init w) (hcond : (twoPeers scale).Along World.Orderly w es)
    (hrun : (twoPeers scale).runFrom w es = some t) : t.AckedProcessed := by
  apply World.ackedProcessed_of_sound
  refine (twoPeers scale).invariant_of_along World.Orderly (fun w => ∀ s, w.Sound s) ?_ ?_ hcond hrun
  · intro w e w' hsound horderly hstep
    simp only [twoPeers, World.step] at hstep
    split_ifs at hstep with hposs
    cases hstep
    exact World.next_sound hposs hsound horderly
  · intro s
    exact World.Initial.sound hinit s

def startingWorld : World := fun _ => ⟨freshConnection, [], [], [], []⟩

def eventAt (side : Side) (event : PeerEvent) : WorldEvent := ⟨side, ⟨0, 0⟩, [], event⟩

theorem startingWorld_initial : startingWorld.Initial := by
  refine ⟨fun _ => rfl, fun _ => rfl, ?_, fun _ => rfl, fun _ => rfl⟩
  rintro s m (h | ⟨id, entry, h, -⟩)
  · cases h
  · cases h

/-- A short message, its arrival, the receipt, and the arrival of the receipt. -/
def deliverOne : List WorldEvent :=
  [eventAt .left (.shortMessage [7]), eventAt .right (.packet ⟨0, [], .shortMessage [7]⟩),
    eventAt .right .ackTimer, eventAt .left (.packet ⟨0, [0], .noOp⟩)]

/-- Messages that fit one packet with any receipts that can be pending, and no acknowledgement. -/
def PeerEvent.isPlain : PeerEvent → Bool
  | .packet m => !m.payload.isAckConnection
  | .shortMessage data => data.length ≤ 1000
  | _ => true

abbrev World.Plain (w : World) (e : WorldEvent) : Prop :=
  (w e.side).conn.lastPacketId < 2 ^ 31 ∧
    (w e.side).conn.receivedTracker.pendingReceipts.length ≤ maxPendingReceipts ∧
    e.event.isPlain = true

theorem World.orderly_of_plain {w : World} {e : WorldEvent} (h : w.Plain e) : w.Orderly e := by
  obtain ⟨hlast, hfew, hplain⟩ := h
  refine ⟨by omega, ?_, ?_⟩
  · intro data hevent
    rw [hevent] at hplain
    have hlength : data.length ≤ 1000 := by simpa [PeerEvent.isPlain] using hplain
    have hpend : maxPendingReceipts = 20 := rfl
    have hmax : maxDataSize = 1171 := rfl
    simp only [SymmetricMessage.serializedSize, SymmetricMessagePayload.serializedSize, encodedBytesSize]
    omega
  · intro m hevent hack
    rw [hevent] at hplain
    simp [PeerEvent.isPlain, hack] at hplain

theorem deliverOne_orderly : (twoPeers .floor).Along World.Orderly startingWorld deliverOne := by
  have hplain : (twoPeers .floor).Along World.Plain startingWorld deliverOne := by decide +kernel
  exact Machine.along_of_along _ (fun _ => True) (fun _ _ _ _ _ _ => trivial)
    (fun _ _ _ => World.orderly_of_plain) trivial hplain

theorem deliverOne_acked_message_was_processed :
    ∃ t, (twoPeers .floor).runFrom startingWorld deliverOne = some t ∧ (t .left).dropped = [0] ∧
      t.AckedProcessed := by
  refine Machine.exists_run_imp (fun t => (t .left).dropped = [0]) (by decide +kernel) ?_
  exact fun t hrun hdrop => ⟨hdrop, acked_message_was_processed .floor startingWorld t deliverOne
    startingWorld_initial deliverOne_orderly hrun⟩

def longestShortMessage : List UInt8 := replicate 1106 0

/-- Eleven messages make their receiver's own message too large for its receipts; its receipts
arrive before its payload, and are acknowledged. -/
def receiptsOvertake : List WorldEvent :=
  (range 11).map (fun _ => eventAt .right (.shortMessage [7])) ++
  (range 11).map (fun id => eventAt .left (.packet ⟨id, [], .shortMessage [7]⟩)) ++
  [eventAt .left (.shortMessage longestShortMessage),
    eventAt .right (.packet ⟨0, range 11, .noOp⟩), eventAt .right .ackTimer,
    eventAt .left (.packet ⟨11, [0], .noOp⟩)]

/-- The message's packet id is dropped as acknowledged although its payload was never processed. -/
theorem receiptsOvertake_loses_message : (twoPeers .floor).init startingWorld ∧
    sendsAsStream longestShortMessage = false ∧
    ∃ t, (twoPeers .floor).runFrom startingWorld receiptsOvertake = some t ∧ ¬ t.AckedProcessed := by
  obtain ⟨t, hrun, hmess, hdrop, hproc⟩ : ∃ t, (twoPeers .floor).runFrom startingWorld
      receiptsOvertake = some t ∧ ((t .left).messages.map fun p => (p.1, p.2.length)) = [(0, 1106)] ∧
      (t .left).dropped = [0] ∧ (t .right).processed = [(0, .noOp)] := by
    decide +kernel
  refine ⟨startingWorld_initial, by decide +kernel, t, hrun, ?_⟩
  intro hacked
  have hmem : (0, 1106) ∈ (t .left).messages.map fun p => (p.1, p.2.length) := by
    rw [hmess]
    exact mem_singleton_self _
  obtain ⟨⟨id, data⟩, hmessage, heq⟩ := mem_map.mp hmem
  obtain ⟨rfl, -⟩ := Prod.mk.inj heq
  have hlost := hacked .left 0 data hmessage (by rw [hdrop]; exact mem_singleton_self _)
  change (0, SymmetricMessagePayload.shortMessage data) ∈ (t .right).processed at hlost
  rw [hproc] at hlost
  simp at hlost

end Freenet.Transport
