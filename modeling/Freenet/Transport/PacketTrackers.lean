import Freenet.Transport.PacketData

/-! The tracker of sent packets: timeouts, tail loss probes, round trip estimate, and runs. Times
are nanoseconds. -/
namespace Freenet.Transport
open Lib Table

section Sent
def nanosPerMilli : Nat := 1000000
def messageConfirmationTimeout : Nat := (100 + 500) * nanosPerMilli
def maxRtoBackoff : Nat := 512
def minRto : Nat := 500 * nanosPerMilli
def maxRto : Nat := 60 * nanosPerSec
def initialRto : Nat := 1 * nanosPerSec
def minTlpTimeout : Nat := 10 * nanosPerMilli
def clockGranularity : Nat := 10 * nanosPerMilli

/-- Multiplication of a duration by the factor `num / den`. -/
structure DurationScale where
  mulF64 : (num den duration : Nat) → Nat

def DurationScale.floor : DurationScale := ⟨fun num den duration => duration * num / den⟩

structure PendingReceiptEntry where
  packet : SymmetricMessage
  sentTimeNanos : Nat
  deriving DecidableEq

def SymmetricMessage.packetSize (m : SymmetricMessage) : Nat := symmetricOverhead + m.serializedSize

structure SentPacketTracker where
  pendingReceipts : Table PacketId PendingReceiptEntry
  resendQueue : List PacketId
  srtt : Option Nat
  rttvar : Nat
  minRtt : Nat
  rto : Nat
  retransmittedPackets : Table PacketId Unit
  totalPacketsSent : Nat
  rtoBackoff : Nat
  tlpSentPackets : Table PacketId Unit

inductive ResendAction where
  | waitUntil (deadlineNanos : Nat)
  | resend (packetId : PacketId) (packet : SymmetricMessage)
  | tlpProbe (packetId : PacketId) (packet : SymmetricMessage)
  deriving DecidableEq

/-- What a receipt tells the congestion controller: a round trip sample and the packet's size. -/
structure AckInfo where
  rttSample : Option Nat
  packetSize : Nat
  deriving DecidableEq, Repr

namespace SentPacketTracker
variable (t : SentPacketTracker)

def new : SentPacketTracker where
  pendingReceipts := .empty
  resendQueue := []
  srtt := none
  rttvar := 0
  minRtt := 100 * nanosPerMilli
  rto := initialRto
  retransmittedPackets := .empty
  totalPacketsSent := 0
  rtoBackoff := 1
  tlpSentPackets := .empty

def probeTimeout : Option Nat := t.srtt.map fun srtt => max (srtt * 2) minTlpTimeout

def reportSentPacket (now : Nat) (packetId : PacketId) (packet : SymmetricMessage) : SentPacketTracker :=
  { t with
    pendingReceipts := t.pendingReceipts.insert packetId ⟨packet, now⟩
    resendQueue := t.resendQueue ++ [packetId]
    totalPacketsSent := t.totalPacketsSent + 1 }

def sampleRtt (scale : DurationScale) (sample : Nat) : SentPacketTracker :=
  match t.srtt with
  | none => { t with srtt := some sample, rttvar := sample / 2, minRtt := sample }
  | some srtt =>
    let absDiff := if srtt < sample then sample - srtt else srtt - sample
    { t with
      rttvar := scale.mulF64 3 4 t.rttvar + scale.mulF64 1 4 absDiff
      srtt := some (scale.mulF64 7 8 srtt + scale.mulF64 1 8 sample)
      minRtt := min t.minRtt sample }

def updateRtt (scale : DurationScale) (sample : Nat) : SentPacketTracker :=
  let t' := t.sampleRtt scale sample
  let rtoVariance := t'.rttvar * 4
  let maxVariance := if clockGranularity < rtoVariance then rtoVariance else clockGranularity
  let rto := t'.srtt.getD initialRto + maxVariance
  { t' with rto := if rto < minRto then minRto else if maxRto < rto then maxRto else rto }

def acknowledge (scale : DurationScale) (now : Nat) (packetId : PacketId)
    (entry : PendingReceiptEntry) : SentPacketTracker × AckInfo :=
  if (t.retransmittedPackets.get packetId).isSome then
    ({ t with rtoBackoff := 1 }, ⟨none, entry.packet.packetSize⟩)
  else
    let rttSample := now - entry.sentTimeNanos
    ({ t.updateRtt scale rttSample with rtoBackoff := 1 }, ⟨some rttSample, entry.packet.packetSize⟩)

def forget (packetId : PacketId) : SentPacketTracker :=
  { t with
    pendingReceipts := t.pendingReceipts.remove packetId
    retransmittedPackets := t.retransmittedPackets.remove packetId
    tlpSentPackets := t.tlpSentPackets.remove packetId }

def reportReceipt (scale : DurationScale) (now : Nat) (packetId : PacketId) :
    SentPacketTracker × List AckInfo :=
  match t.pendingReceipts.get packetId with
  | some entry =>
    let acked := t.acknowledge scale now packetId entry
    (acked.1.forget packetId, [acked.2])
  | none => (t.forget packetId, [])

def reportReceivedReceipts (scale : DurationScale) (now : Nat) :
    SentPacketTracker → List PacketId → SentPacketTracker × List AckInfo
  | t, [] => (t, [])
  | t, packetId :: rest =>
    let first := t.reportReceipt scale now packetId
    let others := reportReceivedReceipts scale now first.1 rest
    (others.1, first.2 ++ others.2)

def effectiveRto : Nat := min (t.rto * t.rtoBackoff) maxRto

def onTimeout : SentPacketTracker := { t with rtoBackoff := min (t.rtoBackoff * 2) maxRtoBackoff }

def markRetransmitted (packetId : PacketId) : SentPacketTracker :=
  { t with retransmittedPackets := t.retransmittedPackets.insert packetId () }

/-- When the tail loss probe of a packet is due, if it is still to be sent. -/
def tlpDeadline (pto : Option Nat) (packetId : PacketId) (sentTimeNanos : Nat) : Option Nat :=
  if (t.tlpSentPackets.get packetId).isSome then none else pto.map (sentTimeNanos + ·)

def tlpFires (now rtoDeadline : Nat) : Option Nat → Bool
  | some tlpAt => tlpAt ≤ now && now < rtoDeadline
  | none => false

def getResendFrom (now : Nat) (pto : Option Nat) (effectiveRto : Nat) :
    List PacketId → SentPacketTracker × ResendAction
  | [] => ({ t with resendQueue := [] }, .waitUntil (now + effectiveRto))
  | packetId :: rest =>
    match t.pendingReceipts.get packetId with
    | none => getResendFrom now pto effectiveRto rest
    | some entry =>
      let rtoDeadline := entry.sentTimeNanos + effectiveRto
      let tlpDeadline := t.tlpDeadline pto packetId entry.sentTimeNanos
      if tlpFires now rtoDeadline tlpDeadline then
        ({ t with
            tlpSentPackets := t.tlpSentPackets.insert packetId ()
            resendQueue := packetId :: rest }.markRetransmitted packetId,
          .tlpProbe packetId entry.packet)
      else if rtoDeadline ≤ now then
        (({ t with
            pendingReceipts := t.pendingReceipts.remove packetId
            tlpSentPackets := t.tlpSentPackets.remove packetId
            resendQueue := rest }.markRetransmitted packetId).onTimeout,
          .resend packetId entry.packet)
      else
        ({ t with resendQueue := packetId :: rest },
          .waitUntil ((tlpDeadline.map (min · rtoDeadline)).getD rtoDeadline))

def getResend (now : Nat) : SentPacketTracker × ResendAction :=
  t.getResendFrom now t.probeTimeout t.effectiveRto t.resendQueue

variable (scale : DurationScale) (now : Nat)

theorem reportSentPacket_pending (packetId : PacketId) (packet : SymmetricMessage) (id : PacketId) :
    (t.reportSentPacket now packetId packet).pendingReceipts.get id =
      if id = packetId then some ⟨packet, now⟩ else t.pendingReceipts.get id := by
  simp only [reportSentPacket, get_insert]

@[simp]
theorem updateRtt_pending (sample : Nat) :
    (t.updateRtt scale sample).pendingReceipts = t.pendingReceipts := by
  simp only [updateRtt, sampleRtt]
  split <;> rfl

theorem reportReceipt_pending (packetId id : PacketId) :
    (t.reportReceipt scale now packetId).1.pendingReceipts.get id =
      if id = packetId then none else t.pendingReceipts.get id := by
  unfold reportReceipt
  split
  · simp only [acknowledge]
    split_ifs <;> simp_all [forget, get_remove]
  · simp only [forget, get_remove]

theorem reportReceivedReceipts_pending (ids : List PacketId) (id : PacketId) :
    (reportReceivedReceipts scale now t ids).1.pendingReceipts.get id =
      if id ∈ ids then none else t.pendingReceipts.get id := by
  induction ids generalizing t with
  | nil => simp [reportReceivedReceipts]
  | cons first rest ih =>
    simp only [reportReceivedReceipts, ih, reportReceipt_pending]
    by_cases hfirst : id = first
    · simp [hfirst]
    · simp [hfirst]

theorem getResendFrom_spec (pto : Option Nat) (effectiveRto : Nat) (queue : List PacketId) :
    (∀ id entry, (t.getResendFrom now pto effectiveRto queue).1.pendingReceipts.get id = some entry →
      t.pendingReceipts.get id = some entry) ∧
    ∀ id packet, ((t.getResendFrom now pto effectiveRto queue).2 = .resend id packet ∨
      (t.getResendFrom now pto effectiveRto queue).2 = .tlpProbe id packet) →
      ∃ sentTime, t.pendingReceipts.get id = some ⟨packet, sentTime⟩ := by
  induction queue with
  | nil => simp [getResendFrom]
  | cons packetId rest ih =>
    unfold getResendFrom
    cases hentry : t.pendingReceipts.get packetId with
    | none => exact ih
    | some entry =>
      dsimp only
      split_ifs with htlp hrto
      · refine ⟨fun id e h => h, ?_⟩
        intro id packet h
        simp only [false_or] at h
        obtain ⟨rfl, rfl⟩ := h
        exact ⟨entry.sentTimeNanos, hentry⟩
      · constructor
        · intro id e h
          simp only [onTimeout, markRetransmitted, get_remove] at h
          split_ifs at h
          exact h
        · intro id packet h
          simp only [or_false] at h
          obtain ⟨rfl, rfl⟩ := h
          exact ⟨entry.sentTimeNanos, hentry⟩
      · exact ⟨fun id e h => h, by simp⟩

end SentPacketTracker

open Option List

inductive SentCall where
  | reportSentPacket (now : Nat) (packetId : PacketId) (packet : SymmetricMessage)
  | reportReceivedReceipts (now : Nat) (packetIds : List PacketId)
  | getResend (now : Nat)

namespace SentPacketTracker
variable (scale : DurationScale) (t : SentPacketTracker) (now : Nat)

def call : SentCall → SentPacketTracker
  | .reportSentPacket now packetId packet => t.reportSentPacket now packetId packet
  | .reportReceivedReceipts now ids => (reportReceivedReceipts scale now t ids).1
  | .getResend now => (t.getResend now).1

def run (calls : List SentCall) : SentPacketTracker := calls.foldl (call scale) .new

/-- Every packet that waits for its receipt has an entry in the resend queue. -/
def Queued : Prop := ∀ id, (t.pendingReceipts.get id).isSome → id ∈ t.resendQueue

@[simp]
theorem updateRtt_resendQueue (sample : Nat) : (t.updateRtt scale sample).resendQueue = t.resendQueue := by
  simp only [updateRtt, sampleRtt]
  split <;> rfl

@[simp]
theorem reportReceipt_resendQueue (packetId : PacketId) :
    (t.reportReceipt scale now packetId).1.resendQueue = t.resendQueue := by
  unfold reportReceipt acknowledge
  split
  · split_ifs <;> simp [forget]
  · rfl

@[simp]
theorem reportReceivedReceipts_resendQueue (ids : List PacketId) :
    (reportReceivedReceipts scale now t ids).1.resendQueue = t.resendQueue := by
  induction ids generalizing t with
  | nil => rfl
  | cons first rest ih => simp [reportReceivedReceipts, ih]

/-- The queue that `get_resend` walks may be cut at any entry that is no longer pending. -/
theorem getResendFrom_queued (pto : Option Nat) (effectiveRto : Nat) (queue : List PacketId)
    (hqueue : ∀ id, (t.pendingReceipts.get id).isSome → id ∈ queue) :
    (t.getResendFrom now pto effectiveRto queue).1.Queued := by
  induction queue with
  | nil => exact hqueue
  | cons packetId rest ih =>
    unfold getResendFrom
    cases hentry : t.pendingReceipts.get packetId with
    | none =>
      refine ih ?_
      intro id hid
      rcases mem_cons.mp (hqueue id hid) with rfl | h
      · simp [hentry] at hid
      · exact h
    | some entry =>
      dsimp only
      split_ifs
      · exact hqueue
      · intro id hid
        simp only [onTimeout, markRetransmitted, get_remove] at hid ⊢
        split_ifs at hid with hsame
        · simp at hid
        · exact (mem_cons.mp (hqueue id hid)).resolve_left hsame
      · exact hqueue

variable {t}

theorem Queued.call (ht : t.Queued) (c : SentCall) : (t.call scale c).Queued := by
  cases c with
  | reportSentPacket now packetId packet =>
    intro id hid
    simp only [SentPacketTracker.call, reportSentPacket_pending] at hid
    split_ifs at hid with hsame
    · exact mem_append_right _ (mem_singleton.mpr hsame)
    · exact mem_append_left _ (ht id hid)
  | reportReceivedReceipts now ids =>
    intro id hid
    simp only [SentPacketTracker.call, reportReceivedReceipts_pending] at hid
    split_ifs at hid
    · simp at hid
    · simpa [SentPacketTracker.call] using ht id hid
  | getResend now => exact t.getResendFrom_queued now _ _ _ ht

theorem Queued.foldl (ht : t.Queued) (calls : List SentCall) :
    (calls.foldl (SentPacketTracker.call scale) t).Queued := by
  induction calls generalizing t with
  | nil => exact ht
  | cons c calls ih => exact ih (ht.call scale c)

theorem new_queued : new.Queued := by simp [Queued, new]

/-- No unconfirmed packet is forgotten, in whatever order the calls come. -/
theorem pending_in_resendQueue (calls : List SentCall) : (run scale calls).Queued :=
  new_queued.foldl scale calls

variable (t)

/-- No pending packet is due before the given time, by its retransmission or by its probe. -/
def NoneDueBefore (time : Nat) : Prop :=
  ∀ id entry, t.pendingReceipts.get id = some entry → time ≤ entry.sentTimeNanos + t.effectiveRto ∧
      ∀ tlpAt ∈ t.tlpDeadline t.probeTimeout id entry.sentTimeNanos, time ≤ tlpAt

/-- How much sooner than by its retransmission a packet is due because of its probe. -/
def probeLead (packetId : PacketId) : Nat :=
  match t.probeTimeout with
  | some pto => if (t.tlpSentPackets.get packetId).isSome then 0 else t.effectiveRto - pto
  | none => 0

/-- The first pending packet of the queue was sent before every other pending one; of two packets
only one of which was probed, that one counts as sent later by the lead of the other's probe. -/
def FrontSentFirst : Prop :=
  ∀ front ∈ t.resendQueue.find? fun id => (t.pendingReceipts.get id).isSome,
    ∀ first, t.pendingReceipts.get front = some first →
      ∀ id entry, t.pendingReceipts.get id = some entry →
        first.sentTimeNanos + t.probeLead id ≤ entry.sentTimeNanos + t.probeLead front

theorem nextDeadline_eq (packetId : PacketId) (sentTimeNanos : Nat) :
    ((t.tlpDeadline t.probeTimeout packetId sentTimeNanos).map
      (min · (sentTimeNanos + t.effectiveRto))).getD (sentTimeNanos + t.effectiveRto) +
        t.probeLead packetId = sentTimeNanos + t.effectiveRto := by
  unfold tlpDeadline probeLead
  cases t.probeTimeout with
  | none => simp
  | some pto =>
    split_ifs
    · rfl
    · simp only [map_some, getD_some]
      omega

theorem due_iff (time : Nat) (packetId : PacketId) (sentTimeNanos : Nat) :
    (time ≤ sentTimeNanos + t.effectiveRto ∧
      ∀ tlpAt ∈ t.tlpDeadline t.probeTimeout packetId sentTimeNanos, time ≤ tlpAt) ↔
    time + t.probeLead packetId ≤ sentTimeNanos + t.effectiveRto := by
  unfold tlpDeadline probeLead
  cases t.probeTimeout with
  | none => simp
  | some pto =>
    split_ifs
    · simp
    · simp only [map_some, mem_some_iff, forall_eq']
      omega

/-- A wait leaves everything but dropped entries of the queue as it is, and lasts until the first
pending packet of the queue is due. -/
theorem getResendFrom_waits {deadline : Nat} (queue : List PacketId)
    (hwait : (t.getResendFrom now t.probeTimeout t.effectiveRto queue).2 = .waitUntil deadline) :
    (∃ rest, (t.getResendFrom now t.probeTimeout t.effectiveRto queue).1 =
      { t with resendQueue := rest }) ∧
    ∀ front ∈ queue.find? (fun id => (t.pendingReceipts.get id).isSome),
      ∀ first, t.pendingReceipts.get front = some first →
        deadline + t.probeLead front = first.sentTimeNanos + t.effectiveRto := by
  induction queue with
  | nil => exact ⟨⟨[], rfl⟩, by simp⟩
  | cons packetId rest ih =>
    unfold getResendFrom at hwait ⊢
    cases hentry : t.pendingReceipts.get packetId with
    | none =>
      rw [hentry] at hwait
      simpa [find?_cons, hentry] using ih hwait
    | some entry =>
      rw [hentry] at hwait
      dsimp only at hwait ⊢
      split_ifs at hwait ⊢
      cases hwait
      refine ⟨⟨_, rfl⟩, ?_⟩
      intro front hfront first hfirst
      simp only [find?_cons, hentry, isSome_some, mem_some_iff] at hfront
      subst hfront
      rw [hentry] at hfirst
      cases hfirst
      exact t.nextDeadline_eq packetId entry.sentTimeNanos

variable {t}

theorem Queued.find?_isSome (ht : t.Queued) {id : PacketId} (hid : (t.pendingReceipts.get id).isSome) :
    (t.resendQueue.find? fun id => (t.pendingReceipts.get id).isSome).isSome :=
  List.find?_isSome.mpr ⟨id, ht id hid, hid⟩

/-- The time `get_resend` answers to wait until is no later than any pending packet is due exactly
if the first pending packet of the queue was sent first. -/
theorem waitUntil_none_due_iff (calls : List SentCall) (now deadline : Nat)
    (hwait : ((run scale calls).getResend now).2 = .waitUntil deadline) :
    ((run scale calls).getResend now).1.NoneDueBefore deadline ↔ (run scale calls).FrontSentFirst := by
  have hqueued : (run scale calls).Queued := new_queued.foldl scale calls
  generalize run scale calls = t at hwait hqueued ⊢
  obtain ⟨⟨rest, hrest⟩, hdeadl⟩ := t.getResendFrom_waits now t.resendQueue hwait
  have hafter : (t.getResend now).1.NoneDueBefore deadline ↔ t.NoneDueBefore deadline := by
    rw [getResend, hrest]
    exact Iff.rfl
  rw [hafter]
  constructor
  · intro hnone front hfront first hfirst id entry hentry
    have hdue := (t.due_iff deadline id entry.sentTimeNanos).mp (hnone id entry hentry)
    have hfront := hdeadl front hfront first hfirst
    omega
  · intro hfirst id entry hentry
    have hsome : (t.pendingReceipts.get id).isSome := by simp [hentry]
    obtain ⟨front, hfront⟩ := isSome_iff_exists.mp (hqueued.find?_isSome hsome)
    have hpend : (t.pendingReceipts.get front).isSome := by simpa using find?_some hfront
    obtain ⟨first, hget⟩ := isSome_iff_exists.mp hpend
    have horder := hfirst front hfront first hget id entry hentry
    have hfront := hdeadl front hfront first hget
    refine (t.due_iff deadline id entry.sentTimeNanos).mpr ?_
    omega

def trackedPacket : SymmetricMessage := ⟨0, [], .noOp⟩

theorem sentInOrder_none_due :
    ((run .floor [.reportSentPacket 0 1 trackedPacket, .reportSentPacket 5 2 trackedPacket]).getResend
      6).1.NoneDueBefore initialRto := by
  refine (waitUntil_none_due_iff .floor _ 6 initialRto (by decide +kernel)).mpr ?_
  intro front hfront first hfirst id entry hentry
  have hone : front = 1 := some.inj (hfront.symm.trans (by decide +kernel))
  subst hone
  cases hfirst
  exact Nat.zero_le _

/-- A first packet gives a round trip of 10 ms. Of the next two, sent 10 ms apart, the earlier one
is probed and the probe is reported as sent. -/
def frontProbed : List SentCall :=
  [.reportSentPacket 0 0 trackedPacket, .reportReceivedReceipts (10 * nanosPerMilli) [0],
    .reportSentPacket (100 * nanosPerMilli) 1 trackedPacket,
    .reportSentPacket (110 * nanosPerMilli) 2 trackedPacket, .getResend (120 * nanosPerMilli),
    .reportSentPacket (120 * nanosPerMilli) 1 trackedPacket]

/-- The answer is to wait 500 ms for the packet whose probe was sent, though the probe of the other
one is due in 9 ms. -/
theorem frontProbed_overlooks : ((run .floor frontProbed).getResend (121 * nanosPerMilli)).2 =
      .waitUntil (620 * nanosPerMilli) ∧
    ¬ ((run .floor frontProbed).getResend (121 * nanosPerMilli)).1.NoneDueBefore (620 * nanosPerMilli) := by
  refine ⟨by decide +kernel, ?_⟩
  intro hnone
  have hdue := (hnone 2 ⟨trackedPacket, 110 * nanosPerMilli⟩ (by decide +kernel)).2
    (130 * nanosPerMilli) (by decide +kernel)
  exact absurd hdue (by decide)

end SentPacketTracker

end Sent

/-! The tracker of received packets, and what runs of it accept and confirm. Times are
nanoseconds. -/
open List

def retainTime : Nat := 60 * nanosPerSec
def maxPendingReceipts : Nat := 20

structure ReceivedPacketTracker where
  pendingReceipts : List PacketId
  packetIdTime : List (PacketId × Nat)
  timeByPacketId : Table PacketId Nat

inductive ReportResult where
  | ok
  | alreadyReceived
  | queueFull
  deriving DecidableEq, Repr

namespace ReceivedPacketTracker

def new : ReceivedPacketTracker := ⟨[], [], .empty⟩

/-- The loop of the cleanup: entries leave the front of the queue while they have expired. -/
def dropExpired (now : Nat) :
    List (PacketId × Nat) → Table PacketId Nat → List (PacketId × Nat) × Table PacketId Nat
  | [], times => ([], times)
  | (id, time) :: rest, times =>
    if time + retainTime < now then dropExpired now rest (times.remove id)
    else ((id, time) :: rest, times)

def cleanup (t : ReceivedPacketTracker) (now : Nat) : ReceivedPacketTracker :=
  let dropped := dropExpired now t.packetIdTime t.timeByPacketId
  { t with packetIdTime := dropped.1, timeByPacketId := dropped.2 }

def holds (t : ReceivedPacketTracker) (now : Nat) (packetId : PacketId) : Bool :=
  ((t.cleanup now).timeByPacketId.get packetId).isSome

def reportReceivedPacket (t : ReceivedPacketTracker) (now : Nat) (packetId : PacketId) :
    ReceivedPacketTracker × ReportResult :=
  let t := t.cleanup now
  match t.timeByPacketId.get packetId with
  | some _ => (t, .alreadyReceived)
  | none =>
    let t : ReceivedPacketTracker :=
      { pendingReceipts := t.pendingReceipts ++ [packetId]
        packetIdTime := t.packetIdTime ++ [(packetId, now)]
        timeByPacketId := t.timeByPacketId.insert packetId now }
    (t, if t.pendingReceipts.length < maxPendingReceipts then .ok else .queueFull)

def getReceipts (t : ReceivedPacketTracker) (now : Nat) : ReceivedPacketTracker × List PacketId :=
  ({ t.cleanup now with pendingReceipts := [] }, t.pendingReceipts)

variable (t : ReceivedPacketTracker) (now : Nat)

@[simp]
theorem cleanup_pendingReceipts : (t.cleanup now).pendingReceipts = t.pendingReceipts := rfl

@[simp]
theorem getReceipts_receipts : (t.getReceipts now).2 = t.pendingReceipts := rfl

@[simp]
theorem getReceipts_pendingReceipts : (t.getReceipts now).1.pendingReceipts = [] := rfl

theorem reportReceivedPacket_of_holds (packetId : PacketId) (h : t.holds now packetId = true) :
    t.reportReceivedPacket now packetId = (t.cleanup now, .alreadyReceived) := by
  obtain ⟨time, htime⟩ := Option.isSome_iff_exists.mp h
  simp [reportReceivedPacket, htime]

theorem reportReceivedPacket_of_not_holds (packetId : PacketId) (h : t.holds now packetId = false) :
    t.reportReceivedPacket now packetId =
      ({ pendingReceipts := t.pendingReceipts ++ [packetId]
         packetIdTime := (t.cleanup now).packetIdTime ++ [(packetId, now)]
         timeByPacketId := (t.cleanup now).timeByPacketId.insert packetId now },
        if t.pendingReceipts.length + 1 < maxPendingReceipts then .ok else .queueFull) := by
  have hnone : (t.cleanup now).timeByPacketId.get packetId = none := by
    simpa [holds] using h
  simp [reportReceivedPacket, hnone]

/-- The queue and the map hold the same ids with the same times, each id once. -/
structure Consistent (t : ReceivedPacketTracker) : Prop where
  get_iff : ∀ id time, t.timeByPacketId.get id = some time ↔ (id, time) ∈ t.packetIdTime
  nodup : (t.packetIdTime.map Prod.fst).Nodup

theorem new_consistent : new.Consistent := by
  constructor
  · intro id time
    simp [new]
  · exact nodup_nil

/-- Cleanup drops a front part of the queue, all of it expired, and its ids from the map. -/
theorem dropExpired_spec (queue : List (PacketId × Nat)) (times : Table PacketId Nat) :
    ∃ gone, queue = gone ++ (dropExpired now queue times).1 ∧
      (∀ entry ∈ gone, entry.2 + retainTime < now) ∧ ∀ id, (dropExpired now queue times).2.get id =
        if id ∈ gone.map Prod.fst then none else times.get id := by
  induction queue generalizing times with
  | nil => exact ⟨[], rfl, by simp, by simp [dropExpired]⟩
  | cons entry rest ih =>
    obtain ⟨id, time⟩ := entry
    unfold dropExpired
    by_cases hexpir : time + retainTime < now
    · rw [if_pos hexpir]
      obtain ⟨gone, hqueue, hall, hget⟩ := ih (times.remove id)
      refine ⟨(id, time) :: gone, ?_, ?_, ?_⟩
      · rw [cons_append, ← hqueue]
      · intro entry hentry
        rcases mem_cons.mp hentry with h | h
        · rw [h]
          exact hexpir
        · exact hall entry h
      · intro id'
        rw [hget id', get_remove]
        by_cases hid : id' = id
        · simp only [hid, if_true, map_cons, mem_cons, true_or, ite_self]
        · simp only [hid, if_false, map_cons, mem_cons, false_or]
    · rw [if_neg hexpir]
      exact ⟨[], rfl, by simp, by simp⟩

variable {t now}

theorem cleanup_consistent (ht : t.Consistent) (now : Nat) : (t.cleanup now).Consistent := by
  obtain ⟨gone, hqueue, -, hget⟩ := dropExpired_spec now t.packetIdTime t.timeByPacketId
  have hnodup := ht.nodup
  rw [hqueue, map_append, nodup_append] at hnodup
  obtain ⟨-, hrest, hdisj⟩ := hnodup
  refine ⟨?_, hrest⟩
  intro id time
  change (dropExpired now t.packetIdTime t.timeByPacketId).2.get id = some time ↔
    (id, time) ∈ (dropExpired now t.packetIdTime t.timeByPacketId).1
  rw [hget id]
  have hmem := ht.get_iff id time
  rw [hqueue, mem_append] at hmem
  by_cases hgone : id ∈ gone.map Prod.fst
  · rw [if_pos hgone]
    constructor
    · intro h
      cases h
    · intro h
      exact absurd rfl (hdisj id hgone id (mem_map_of_mem (f := Prod.fst) h))
  · rw [if_neg hgone, hmem]
    constructor
    · rintro (h | h)
      · exact absurd (mem_map_of_mem (f := Prod.fst) h) hgone
      · exact h
    · exact .inr

theorem mem_cleanup_of_retained {entry : PacketId × Nat}
    (hmem : entry ∈ t.packetIdTime) (hretd : now ≤ entry.2 + retainTime) :
    entry ∈ (t.cleanup now).packetIdTime := by
  obtain ⟨gone, hqueue, hall, -⟩ := dropExpired_spec now t.packetIdTime t.timeByPacketId
  rw [hqueue, mem_append] at hmem
  rcases hmem with h | h
  · have := hall entry h
    omega
  · exact h

theorem reportReceivedPacket_consistent (ht : t.Consistent) (now : Nat)
    (packetId : PacketId) : (t.reportReceivedPacket now packetId).1.Consistent := by
  have hclean := cleanup_consistent ht now
  cases hholds : t.holds now packetId with
  | true =>
    rw [reportReceivedPacket_of_holds t now packetId hholds]
    exact hclean
  | false =>
    rw [reportReceivedPacket_of_not_holds t now packetId hholds]
    have hnone : (t.cleanup now).timeByPacketId.get packetId = none := by
      simpa [holds] using hholds
    have hfresh : ∀ time, (packetId, time) ∉ (t.cleanup now).packetIdTime := by
      intro time hmem
      rw [← hclean.get_iff packetId time, hnone] at hmem
      cases hmem
    constructor
    · intro id time
      simp only [get_insert, mem_append, mem_singleton, Prod.mk.injEq]
      by_cases hid : id = packetId
      · subst hid
        simp only [if_true, Option.some.injEq, hfresh time, false_or, true_and]
        exact eq_comm
      · simp [hid, hclean.get_iff id time]
    · simp only [map_append, map_cons, nodup_append]
      refine ⟨hclean.nodup, by simp, ?_⟩
      intro a ha b hb hab
      obtain ⟨entry, hentry, hfst⟩ := mem_map.mp ha
      rw [mem_singleton.mp hb] at hab
      exact hfresh entry.2 (by rw [← hab, ← hfst]; exact hentry)

theorem holds_of_retained (ht : t.Consistent) {time : Nat}
    {id : PacketId} (hmem : (id, time) ∈ t.packetIdTime) (hretd : now ≤ time + retainTime) :
    t.holds now id = true := by
  have hkept := mem_cleanup_of_retained hmem hretd
  rw [holds, ((cleanup_consistent ht now).get_iff id time).mpr hkept]
  rfl

/-- The tracker remembers what was accepted within the retention time, and acceptances of one id are
further apart than that. -/
structure Retains (t : ReceivedPacketTracker) (now : Nat) (accepted : List (PacketId × Nat)) :
    Prop where
  consistent : t.Consistent
  retained : ∀ a ∈ accepted, now ≤ a.2 + retainTime → a ∈ t.packetIdTime
  spaced : accepted.Pairwise fun a b => a.1 = b.1 → a.2 + retainTime < b.2

theorem new_retains (now : Nat) : new.Retains now [] := ⟨new_consistent, by simp, .nil⟩

variable {now' : Nat} {accepted : List (PacketId × Nat)}

section
variable (h : t.Retains now accepted)
include h

variable (hle : now ≤ now')
include hle

theorem Retains.mono : t.Retains now' accepted :=
  ⟨h.consistent, fun a ha hretd => h.retained a ha (by omega), h.spaced⟩

theorem Retains.cleanup : (t.cleanup now').Retains now' accepted where
  consistent := cleanup_consistent h.consistent now'
  retained a ha hretd := mem_cleanup_of_retained (h.retained a ha (by omega)) hretd
  spaced := h.spaced

theorem Retains.getReceipts : (t.getReceipts now').1.Retains now' accepted :=
  ⟨{ cleanup_consistent h.consistent now' with }, (h.cleanup hle).retained, h.spaced⟩

theorem Retains.accept {id : PacketId} (hnew : t.holds now' id = false) :
    (t.reportReceivedPacket now' id).1.Retains now' (accepted ++ [(id, now')]) := by
  refine ⟨reportReceivedPacket_consistent h.consistent now' id, ?_, ?_⟩
  · intro a ha hretd
    rw [reportReceivedPacket_of_not_holds _ _ _ hnew]
    rcases mem_append.mp ha with ha | ha
    · exact mem_append_left _ ((h.cleanup hle).retained a ha hretd)
    · exact mem_append_right _ ha
  · refine pairwise_append.mpr ⟨h.spaced, pairwise_singleton _ _, ?_⟩
    intro a ha b hb hid
    rw [mem_singleton.mp hb] at hid ⊢
    -- an acceptance within the retention time would still be held
    by_contra hclose
    have hretd : now' ≤ a.2 + retainTime := by omega
    have hheld := holds_of_retained h.consistent (h.retained a ha (by omega)) hretd
    rw [hid, hnew] at hheld
    cases hheld

end
end ReceivedPacketTracker

open ReceivedPacketTracker

inductive TrackerCall where
  | reportReceivedPacket (packetId : PacketId)
  | getReceipts
  | cleanup
  deriving DecidableEq, Repr

/-- A call with the time that has passed since the one before it. -/
structure TimedCall where
  elapsed : Nat
  call : TrackerCall
  deriving DecidableEq, Repr

/-- The tracker with what its calls answered: the ids accepted as new with their times, and the
receipts each `get_receipts` returned. -/
structure TrackerRun where
  tracker : ReceivedPacketTracker
  instant : Nat
  accepted : List (PacketId × Nat)
  returned : List (List PacketId)

namespace TrackerRun

def start (instant : Nat) : TrackerRun := ⟨.new, instant, [], []⟩

def step (s : TrackerRun) (e : TimedCall) : TrackerRun :=
  let now := s.instant + e.elapsed
  match e.call with
  | .reportReceivedPacket packetId =>
    let report := s.tracker.reportReceivedPacket now packetId
    { s with
      tracker := report.1
      instant := now
      accepted :=
        if report.2 = .alreadyReceived then s.accepted else s.accepted ++ [(packetId, now)] }
  | .getReceipts =>
    let receipts := s.tracker.getReceipts now
    { s with tracker := receipts.1, instant := now, returned := s.returned ++ [receipts.2] }
  | .cleanup => { s with tracker := s.tracker.cleanup now, instant := now }

def run (instant : Nat) (es : List TimedCall) : TrackerRun := es.foldl step (start instant)

variable (instant : Nat) (es : List TimedCall) {id : PacketId}

theorem run_concat (e : TimedCall) :
    run instant (es ++ [e]) = (run instant es).step e := foldl_concat ..

theorem run_append (es fs : List TimedCall) :
    run instant (es ++ fs) = fs.foldl step (run instant es) := foldl_append

variable (s : TrackerRun) (elapsed : Nat) (packetId : PacketId)

theorem step_report_of_holds (h : s.tracker.holds (s.instant + elapsed) packetId = true) :
    s.step ⟨elapsed, .reportReceivedPacket packetId⟩ = s.step ⟨elapsed, .cleanup⟩ := by
  simp [step, reportReceivedPacket_of_holds _ _ _ h]

theorem step_report_of_not_holds (h : s.tracker.holds (s.instant + elapsed) packetId = false) :
    s.step ⟨elapsed, .reportReceivedPacket packetId⟩ =
      { s with
        tracker := (s.tracker.reportReceivedPacket (s.instant + elapsed) packetId).1
        instant := s.instant + elapsed
        accepted := s.accepted ++ [(packetId, s.instant + elapsed)] } := by
  have hnew : (s.tracker.reportReceivedPacket (s.instant + elapsed) packetId).2 ≠ .alreadyReceived := by
    rw [reportReceivedPacket_of_not_holds _ _ _ h]
    split_ifs <;> simp
  simp [step, hnew]

/-- What was returned, and then what is pending, are the accepted ids in their order. -/
structure Accounts : Prop where
  retains : s.tracker.Retains s.instant s.accepted
  accounted : s.returned.flatten ++ s.tracker.pendingReceipts = s.accepted.map Prod.fst

theorem start_accounts : (start instant).Accounts :=
  ⟨new_retains instant, rfl⟩

variable {s elapsed packetId}

section
variable (hs : s.Accounts)
include hs

theorem Accounts.cleanup : (s.step ⟨elapsed, .cleanup⟩).Accounts :=
  ⟨hs.retains.cleanup (Nat.le_add_right _ _), hs.accounted⟩

theorem Accounts.getReceipts : (s.step ⟨elapsed, .getReceipts⟩).Accounts where
  retains := hs.retains.getReceipts (Nat.le_add_right _ _)
  accounted := by simp [step, hs.accounted]

theorem Accounts.accept (hnew : s.tracker.holds (s.instant + elapsed) packetId = false) :
    (s.step ⟨elapsed, .reportReceivedPacket packetId⟩).Accounts := by
  rw [s.step_report_of_not_holds elapsed packetId hnew]
  refine ⟨hs.retains.accept (Nat.le_add_right _ _) hnew, ?_⟩
  rw [reportReceivedPacket_of_not_holds _ _ _ hnew]
  simp [← hs.accounted]

theorem Accounts.step (e : TimedCall) : (s.step e).Accounts := by
  obtain ⟨elapsed, call⟩ := e
  cases call with
  | reportReceivedPacket packetId =>
    cases hheld : s.tracker.holds (s.instant + elapsed) packetId with
    | true =>
      rw [s.step_report_of_holds elapsed packetId hheld]
      exact hs.cleanup
    | false => exact hs.accept hheld
  | getReceipts => exact hs.getReceipts
  | cleanup => exact hs.cleanup

theorem Accounts.foldl (es : List TimedCall) : (es.foldl TrackerRun.step s).Accounts := by
  induction es generalizing s with
  | nil => exact hs
  | cons e es ih => exact ih (hs.step e)

end

/-- In every run the queue and the map of the tracker agree, acceptances of one id are further apart
than the retention time, and each is in exactly one of the results so far or still pending, until
the next `get_receipts`. -/
theorem accepted_returned_once (instant : Nat) (es : List TimedCall) (elapsed : Nat) :
    (run instant es).tracker.Consistent ∧
    (run instant es).accepted.Pairwise (fun a b => a.1 = b.1 → a.2 + retainTime < b.2) ∧
    (run instant es).returned.flatten ++ (run instant es).tracker.pendingReceipts =
      (run instant es).accepted.map Prod.fst ∧
    (run instant (es ++ [⟨elapsed, .getReceipts⟩])).returned.flatten =
      (run instant es).accepted.map Prod.fst := by
  have hrun : (run instant es).Accounts := (start_accounts instant).foldl es
  refine ⟨hrun.retains.consistent, hrun.retains.spaced, hrun.accounted, ?_⟩
  rw [run_concat, ← hrun.accounted]
  simp [step]

theorem mem_pending_step (hid : id ∈ s.tracker.pendingReceipts) {e : TimedCall}
    (he : e.call ≠ .getReceipts) : id ∈ (s.step e).tracker.pendingReceipts := by
  obtain ⟨elapsed, call⟩ := e
  cases call with
  | reportReceivedPacket packetId =>
    cases hheld : s.tracker.holds (s.instant + elapsed) packetId with
    | true =>
      rw [s.step_report_of_holds elapsed packetId hheld]
      exact hid
    | false =>
      rw [s.step_report_of_not_holds elapsed packetId hheld, reportReceivedPacket_of_not_holds _ _ _ hheld]
      exact mem_append_left _ hid
  | getReceipts => exact absurd rfl he
  | cleanup => exact hid

theorem mem_pending_foldl (hid : id ∈ s.tracker.pendingReceipts)
    (hes : ∀ e ∈ es, e.call ≠ .getReceipts) :
    id ∈ (es.foldl step s).tracker.pendingReceipts := by
  induction es generalizing s with
  | nil => exact hid
  | cons e es ih =>
    exact ih (mem_pending_step hid (hes e mem_cons_self)) fun e' he' =>
      hes e' (mem_cons_of_mem _ he')

theorem mem_pending_report_iff (s : TrackerRun) (elapsed : Nat) (id : PacketId) :
    id ∈ (s.step ⟨elapsed, .reportReceivedPacket id⟩).tracker.pendingReceipts ↔
      s.tracker.holds (s.instant + elapsed) id = false ∨ id ∈ s.tracker.pendingReceipts := by
  cases hheld : s.tracker.holds (s.instant + elapsed) id with
  | true =>
    rw [s.step_report_of_holds elapsed id hheld]
    simp [step]
  | false =>
    rw [s.step_report_of_not_holds elapsed id hheld, reportReceivedPacket_of_not_holds _ _ _ hheld]
    simp

/-- A reported id is among the receipts asked for next, whatever else is reported in between,
exactly if it was not retained when it was reported or its receipt was still pending. -/
theorem reported_confirmed_iff (instant : Nat) (es : List TimedCall) (elapsed : Nat) (id : PacketId) :
    (∀ (later : List TimedCall) (now : Nat), (∀ e ∈ later, e.call ≠ .getReceipts) →
      id ∈ ((run instant (es ++ ⟨elapsed, .reportReceivedPacket id⟩ :: later)).tracker.getReceipts
        now).2) ↔ (run instant es).tracker.holds ((run instant es).instant + elapsed) id = false ∨
      id ∈ (run instant es).tracker.pendingReceipts := by
  rw [← mem_pending_report_iff (run instant es) elapsed id]
  constructor
  · intro h
    have hnext := h [] 0 (by simp)
    rwa [run_concat] at hnext
  · intro hpend later now hlater
    rw [run_append]
    exact mem_pending_foldl later hpend hlater

/-- A packet is confirmed, and its copy a second later is not confirmed again. -/
theorem copy_not_confirmed :
    ((run 0 [⟨0, .reportReceivedPacket 1⟩, ⟨0, .getReceipts⟩]).returned = [[1]]) ∧
    ((run 0 [⟨0, .reportReceivedPacket 1⟩, ⟨0, .getReceipts⟩]).tracker.reportReceivedPacket
      nanosPerSec 1).2 = .alreadyReceived ∧
    1 ∉ ((run 0 [⟨0, .reportReceivedPacket 1⟩, ⟨0, .getReceipts⟩,
      ⟨nanosPerSec, .reportReceivedPacket 1⟩]).tracker.getReceipts nanosPerSec).2 := by
  decide +kernel

end TrackerRun

end Freenet.Transport
