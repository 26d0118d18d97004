import Freenet.Transport.StreamBuffer

/-! How `send_stream` splits a stream into fragments, and that these reassemble it. -/
namespace Freenet.Transport
open List LockFreeStreamBuffer Nat

section Sending
structure StreamFragment where
  streamId : StreamId
  totalLengthBytes : Nat
  fragmentNumber : Nat
  payload : Bytes
  metadataBytes : Option Bytes
  deriving DecidableEq, Repr

/-- What embedded metadata takes: a discriminant, a length and the bytes. -/
def metaOverhead (metadata : Bytes) : Nat := 1 + 8 + metadata.length

def availablePayload : Option Bytes → Nat
  | some metadata => fragmentPayloadSize - metaOverhead metadata
  | none => fragmentPayloadSize

def totalPackets (streamToSend : Bytes) : Option Bytes → Nat
  | some metadata =>
    let firstFragCapacity := fragmentPayloadSize - metaOverhead metadata
    if streamToSend.length ≤ firstFragCapacity then 1
    else 1 + (streamToSend.length - firstFragCapacity) ⌈/⌉ fragmentPayloadSize
  | none => streamToSend.length ⌈/⌉ fragmentPayloadSize

structure OutboundStream where
  streamId : StreamId
  totalLengthBytes : Nat
  streamToSend : Bytes
  nextFragmentNumber : Nat
  pendingMetadata : Option Bytes
  deriving DecidableEq, Repr

namespace OutboundStream

def start (streamId : StreamId) (streamToSend : Bytes) (metadata : Option Bytes) :
    OutboundStream where
  streamId := streamId
  totalLengthBytes := streamToSend.length % 2 ^ 32
  streamToSend := streamToSend
  nextFragmentNumber := 1
  pendingMetadata := metadata

variable (o : OutboundStream)

/-- The bytes the congestion controller and the token bucket are charged for the next fragment. -/
def packetSize : Nat := min o.streamToSend.length fragmentPayloadSize

def metadataBytes : Option Bytes := if o.nextFragmentNumber = 1 then o.pendingMetadata else none

def fragment : StreamFragment where
  streamId := o.streamId
  totalLengthBytes := o.totalLengthBytes
  fragmentNumber := o.nextFragmentNumber
  payload :=
    let available := availablePayload o.metadataBytes
    if available < o.streamToSend.length then o.streamToSend.take available else o.streamToSend
  metadataBytes := o.metadataBytes

def advance : OutboundStream :=
  let available := availablePayload o.metadataBytes
  { o with
    streamToSend :=
      if available < o.streamToSend.length then o.streamToSend.drop available else []
    nextFragmentNumber := (o.nextFragmentNumber + 1) % 2 ^ 32
    pendingMetadata := if o.nextFragmentNumber = 1 then none else o.pendingMetadata }

/-- The fragments of the next `left` turns of the loop. -/
def fragments : (left : Nat) → OutboundStream → List StreamFragment
  | 0, _ => []
  | left + 1, o => o.fragment :: fragments left o.advance

end OutboundStream

/-- All fragments of a stream that is sent without an error. -/
def sendStream (streamId : StreamId) (streamToSend : Bytes) (metadata : Option Bytes) :
    List StreamFragment :=
  OutboundStream.fragments (totalPackets streamToSend metadata) (.start streamId streamToSend metadata)

namespace OutboundStream
variable {o : OutboundStream} {left : Nat}

@[simp] theorem length_fragments (left : Nat) (o : OutboundStream) : (fragments left o).length = left := by
  induction left generalizing o with
  | zero => rfl
  | succ left ih =>
    unfold fragments
    rw [length_cons, ih]

theorem payload_append_advance : o.fragment.payload ++ o.advance.streamToSend = o.streamToSend := by
  dsimp only [fragment, advance]
  by_cases h : availablePayload o.metadataBytes < o.streamToSend.length
  · rw [if_pos h, if_pos h]
    exact take_append_drop _ _
  · rw [if_neg h, if_neg h]
    exact append_nil _

theorem length_advance : o.advance.streamToSend.length =
    o.streamToSend.length - availablePayload o.metadataBytes := by
  dsimp only [advance]
  by_cases h : availablePayload o.metadataBytes < o.streamToSend.length
  · rw [if_pos h, length_drop]
  · rw [if_neg h, length_nil]
    omega

theorem metadataBytes_of_none (h : o.pendingMetadata = none) : o.metadataBytes = none := by
  unfold metadataBytes
  rw [h, ite_self]

theorem pendingMetadata_advance_of_none (h : o.pendingMetadata = none) :
    o.advance.pendingMetadata = none := by
  dsimp only [advance]
  rw [h, ite_self]

/-- The payloads are the stream, if there are enough turns for what full fragments carry. -/
theorem flatten_payloads (hmeta : o.pendingMetadata = none)
    (hleft : o.streamToSend.length ≤ fragmentPayloadSize * left) :
    ((fragments left o).map StreamFragment.payload).flatten = o.streamToSend := by
  induction left generalizing o with
  | zero =>
    have : o.streamToSend = [] := eq_nil_of_length_eq_zero (by omega)
    rw [this]
    rfl
  | succ left ih =>
    have hrest : o.advance.streamToSend.length ≤ fragmentPayloadSize * left := by
      rw [length_advance, metadataBytes_of_none hmeta]
      show o.streamToSend.length - fragmentPayloadSize ≤ _
      rw [mul_succ] at hleft
      omega
    unfold fragments
    rw [map_cons, flatten_cons, ih (pendingMetadata_advance_of_none hmeta) hrest]
    exact payload_append_advance

theorem length_payload_le : o.fragment.payload.length ≤ availablePayload o.metadataBytes := by
  dsimp only [fragment]
  split_ifs with h
  · rw [length_take]
    omega
  · omega

theorem length_flatten_take_le (hmeta : o.pendingMetadata = none) (k : Nat) :
    (((fragments left o).map StreamFragment.payload).take k).flatten.length ≤ fragmentPayloadSize * k := by
  induction left generalizing o k with
  | zero => simp [fragments]
  | succ left ih =>
    cases k with
    | zero => simp
    | succ k =>
      have hfirst : o.fragment.payload.length ≤ fragmentPayloadSize := by
        have hpayl := length_payload_le (o := o)
        rwa [metadataBytes_of_none hmeta] at hpayl
      have hrest := ih (pendingMetadata_advance_of_none hmeta) k
      unfold fragments
      rw [map_cons, take_succ_cons, flatten_cons, length_append, mul_succ]
      omega

theorem fragmentNumber_get {i : Nat} {f : StreamFragment} (hget : (fragments left o)[i]? = some f)
    (hlt : o.nextFragmentNumber + i < 2 ^ 32) : f.fragmentNumber = o.nextFragmentNumber + i := by
  induction left generalizing o i with
  | zero => cases hget
  | succ left ih =>
    cases i with
    | zero =>
      cases hget
      rfl
    | succ i =>
      have hnext : o.advance.nextFragmentNumber = o.nextFragmentNumber + 1 :=
        mod_eq_of_lt (by omega)
      have := ih hget (by omega)
      omega

end OutboundStream

variable {streamId : StreamId} {streamToSend : Bytes} {metadata : Option Bytes}

/-- A packet has room for the metadata beside an empty payload. The discriminant takes no room:
every fragment has one. -/
def MetadataFits (metadata : Option Bytes) : Prop :=
  ∀ bytes, metadata = some bytes → metaOverhead bytes ≤ fragmentPayloadSize + 1

@[simp] theorem length_sendStream :
    (sendStream streamId streamToSend metadata).length = totalPackets streamToSend metadata :=
  OutboundStream.length_fragments _ _

theorem fragmentPayloadSize_eq : fragmentPayloadSize = 1130 := rfl

theorem flatten_sendStream :
    ((sendStream streamId streamToSend metadata).map StreamFragment.payload).flatten = streamToSend := by
  cases metadata with
  | none => exact OutboundStream.flatten_payloads rfl ((ceilDiv_le_iff_le_mul (by decide)).mp (le_refl _))
  | some bytes =>
    have hpos : ∃ left, totalPackets streamToSend (some bytes) = left + 1 ∧
        streamToSend.length ≤ availablePayload (some bytes) + fragmentPayloadSize * left := by
      unfold totalPackets availablePayload
      dsimp only
      split_ifs with hfits
      · exact ⟨0, rfl, by omega⟩
      · refine ⟨_, add_comm _ _, ?_⟩
        have := (ceilDiv_le_iff_le_mul (a := fragmentPayloadSize)
          (b := streamToSend.length - (fragmentPayloadSize - metaOverhead bytes)) (by decide)).mp
          (le_refl _)
        omega
    obtain ⟨left, htotal, hlength⟩ := hpos
    unfold sendStream
    rw [htotal]
    unfold OutboundStream.fragments
    rw [map_cons, flatten_cons, OutboundStream.flatten_payloads rfl]
    · exact OutboundStream.payload_append_advance
    · rw [OutboundStream.length_advance]
      show streamToSend.length - availablePayload (some bytes) ≤ _
      omega

/-- The sender needs the fragments of full payload the receiver expects, or one more. -/
theorem totalPackets_bounds (hfits : MetadataFits metadata)
    (hnonempty : streamToSend = [] → metadata = none) : baseFragmentCount streamToSend.length ≤
        totalPackets streamToSend metadata ∧ totalPackets streamToSend metadata ≤
        calculateFragmentCount streamToSend.length := by
  unfold calculateFragmentCount baseFragmentCount
  by_cases hempty : streamToSend = []
  · rw [hnonempty hempty, hempty]
    decide
  · have hpos : 0 < streamToSend.length := length_pos_iff.mpr hempty
    cases metadata with
    | none =>
      unfold totalPackets
      dsimp only
      split_ifs <;> omega
    | some bytes =>
      unfold totalPackets
      dsimp only
      rw [ceilDiv_eq_add_pred_div, ceilDiv_eq_add_pred_div, fragmentPayloadSize_eq] at *
      split_ifs <;> omega

theorem length_flatten_take_lt (hnonempty : streamToSend ≠ []) {k : Nat}
    (hk : k < totalPackets streamToSend metadata) :
    (((sendStream streamId streamToSend metadata).map StreamFragment.payload).take k).flatten.length <
      streamToSend.length := by
  have hpos : 0 < streamToSend.length := length_pos_iff.mpr hnonempty
  cases k with
  | zero => simpa using hpos
  | succ k =>
    obtain ⟨left, hleft⟩ : ∃ left, totalPackets streamToSend metadata = left + 1 :=
      ⟨_, (succ_pred_eq_of_pos (by omega)).symm⟩
    have hroom : availablePayload metadata + fragmentPayloadSize * k < streamToSend.length := by
      unfold availablePayload
      unfold totalPackets at hk
      rw [fragmentPayloadSize_eq] at *
      cases metadata with
      | none =>
        dsimp only at *
        rw [ceilDiv_eq_add_pred_div] at hk
        omega
      | some bytes =>
        dsimp only at *
        rw [ceilDiv_eq_add_pred_div] at hk
        split_ifs at hk <;> omega
    have hfirst : (OutboundStream.start streamId streamToSend metadata).fragment.payload.length ≤
        availablePayload metadata := OutboundStream.length_payload_le
    have hrest : (((OutboundStream.fragments left
        (OutboundStream.start streamId streamToSend metadata).advance).map
          StreamFragment.payload).take k).flatten.length ≤ fragmentPayloadSize * k :=
      OutboundStream.length_flatten_take_le rfl k
    unfold sendStream
    rw [hleft]
    unfold OutboundStream.fragments
    rw [map_cons, take_succ_cons, flatten_cons, length_append]
    omega

/-- Metadata that leaves the number of fragments as it is without metadata: there is nothing to
send, or the last fragment has room for what the metadata displaces. -/
def FitsLastFragment (streamToSend : Bytes) (metadata : Option Bytes) : Prop :=
  ∀ bytes, metadata = some bytes → streamToSend = [] ∨ streamToSend.length + metaOverhead bytes ≤
      fragmentPayloadSize * (streamToSend.length ⌈/⌉ fragmentPayloadSize)

theorem totalPackets_le_base_iff (hfits : MetadataFits metadata) (hnonempty : streamToSend ≠ []) :
    totalPackets streamToSend metadata ≤ baseFragmentCount streamToSend.length ↔
      FitsLastFragment streamToSend metadata := by
  have hpos : 0 < streamToSend.length := length_pos_iff.mpr hnonempty
  unfold baseFragmentCount FitsLastFragment
  rw [if_neg (by omega)]
  cases metadata with
  | none => simp [totalPackets]
  | some bytes =>
    have hmeta := hfits bytes rfl
    have hone : (∀ bytes', some bytes = some bytes' → streamToSend = [] ∨
        streamToSend.length + metaOverhead bytes' ≤
          fragmentPayloadSize * (streamToSend.length ⌈/⌉ fragmentPayloadSize)) ↔
        streamToSend.length + metaOverhead bytes ≤
          fragmentPayloadSize * (streamToSend.length ⌈/⌉ fragmentPayloadSize) := by
      simp [hnonempty]
    rw [hone]
    unfold totalPackets
    dsimp only
    rw [fragmentPayloadSize_eq] at *
    rw [ceilDiv_eq_add_pred_div, ceilDiv_eq_add_pred_div]
    split_ifs <;> omega

variable {b : LockFreeStreamBuffer} {first : Nat}

def payloads (streamId : StreamId) (streamToSend : Bytes) (metadata : Option Bytes) : List Bytes :=
  (sendStream streamId streamToSend metadata).map StreamFragment.payload

def announcedBuffer (streamToSend : Bytes) : LockFreeStreamBuffer := new (streamToSend.length % 2 ^ 32)

def LockFreeStreamBuffer.insertAll (b : LockFreeStreamBuffer) :
    List StreamFragment → LockFreeStreamBuffer
  | [] => b
  | f :: rest => (b.insert f.fragmentNumber f.payload).2.insertAll rest

variable {arrivals : List StreamFragment} {f : StreamFragment} {parts : List Bytes} {i : Nat}

theorem fragment_at (hget : (sendStream streamId streamToSend metadata)[i]? = some f)
    (hlt : i < 2 ^ 32 - 1) : f.fragmentNumber = i + 1 ∧
      (payloads streamId streamToSend metadata)[f.fragmentNumber - 1]? = some f.payload := by
  have hnumb : f.fragmentNumber = 1 + i :=
    OutboundStream.fragmentNumber_get hget (by show 1 + i < 2 ^ 32; omega)
  refine ⟨by omega, ?_⟩
  rw [hnumb, show 1 + i - 1 = i by omega]
  unfold payloads
  rw [getElem?_map, hget]
  rfl

theorem payload_of_mem (hsmall : totalPackets streamToSend metadata < 2 ^ 32 - 1)
    (hf : f ∈ sendStream streamId streamToSend metadata) :
    0 < f.fragmentNumber ∧ f.fragmentNumber ≤ totalPackets streamToSend metadata ∧
      (payloads streamId streamToSend metadata)[f.fragmentNumber - 1]? = some f.payload := by
  obtain ⟨i, hget⟩ := List.mem_iff_getElem?.mp hf
  have hi := (List.getElem?_eq_some_iff.mp hget).1
  rw [length_sendStream] at hi
  obtain ⟨hnumb, hpayl⟩ := fragment_at hget (by omega)
  exact ⟨by omega, by omega, hpayl⟩

theorem mem_of_lt_totalPackets (hsmall : totalPackets streamToSend metadata < 2 ^ 32 - 1)
    (hi : i < totalPackets streamToSend metadata) :
    ∃ f ∈ sendStream streamId streamToSend metadata, f.fragmentNumber - 1 = i := by
  have hlt : i < (sendStream streamId streamToSend metadata).length := by
    rwa [length_sendStream]
  obtain ⟨hnumb, -⟩ := fragment_at (getElem?_eq_getElem hlt) (by omega)
  exact ⟨_, getElem_mem hlt, by omega⟩

theorem sameSizes_insertAll : SameSizes b (b.insertAll arrivals) := by
  induction arrivals generalizing b with
  | nil => exact ⟨rfl, rfl, rfl⟩
  | cons f rest ih =>
    have hfirst := sameSizes_insert b f.fragmentNumber f.payload
    exact ⟨ih.totalSize.trans hfirst.totalSize, ih.totalFragments.trans hfirst.totalFragments,
      ih.minCompleteFragments.trans hfirst.minCompleteFragments⟩

theorem part_isSome_insertAll (h : (b.fragments.part i).isSome) (arrivals : List StreamFragment) :
    ((b.insertAll arrivals).fragments.part i).isSome := by
  induction arrivals generalizing b with
  | nil => exact h
  | cons f rest ih => exact ih (part_isSome_insert h)

theorem LockFreeStreamBuffer.Holding.insertAll (h : Holding parts first b)
    (htakes : ∀ f ∈ arrivals, b.Takes parts f.fragmentNumber f.payload) :
    Holding parts first (b.insertAll arrivals) := by
  induction arrivals generalizing b with
  | nil => exact h
  | cons f rest ih =>
    refine ih (h.insert (htakes f mem_cons_self)) ?_
    intro g hg
    unfold Takes
    rw [(sameSizes_insert _ _ _).totalFragments]
    exact htakes g (mem_cons_of_mem _ hg)

theorem LockFreeStreamBuffer.Holding.insertAll_isSome (h : Holding parts first b)
    (htakes : ∀ f ∈ arrivals, b.Takes parts f.fragmentNumber f.payload) (hf : f ∈ arrivals)
    (hpos : 0 < f.fragmentNumber) (hin : f.fragmentNumber ≤ b.totalFragments) :
    ((b.insertAll arrivals).fragments.part (f.fragmentNumber - 1)).isSome := by
  induction arrivals generalizing b with
  | nil => cases hf
  | cons g rest ih =>
    rcases mem_cons.mp hf with rfl | hf
    · exact part_isSome_insertAll (h.insert_isSome hpos hin) rest
    · refine ih (h.insert (htakes g mem_cons_self)) ?_ hf ?_
      · intro g' hg'
        unfold Takes
        rw [(sameSizes_insert _ _ _).totalFragments]
        exact htakes g' (mem_cons_of_mem _ hg')
      · rw [(sameSizes_insert _ _ _).totalFragments]
        exact hin

/-- What a receiver may rely on: every fragment has a slot, nothing but the stream is ever
assembled, and it is assembled once every fragment has arrived. -/
structure Reassembled (streamId : StreamId) (streamToSend : Bytes) (metadata : Option Bytes) :
    Prop where
  inside : ∀ f ∈ sendStream streamId streamToSend metadata,
    0 < f.fragmentNumber ∧ f.fragmentNumber ≤ (announcedBuffer streamToSend).totalFragments
  exact : ∀ arrivals : List StreamFragment,
    (∀ f ∈ arrivals, f ∈ sendStream streamId streamToSend metadata) →
    ∀ bytes, ((announcedBuffer streamToSend).insertAll arrivals).assemble = some bytes → bytes = streamToSend
  assembled : ∀ arrivals : List StreamFragment,
    (∀ f ∈ arrivals, f ∈ sendStream streamId streamToSend metadata) →
    (∀ f ∈ sendStream streamId streamToSend metadata, f ∈ arrivals) →
    ((announcedBuffer streamToSend).insertAll arrivals).assemble.isSome

theorem length_announced (hlength : streamToSend.length < 2 ^ 32) :
    announcedBuffer streamToSend = new streamToSend.length := by
  unfold announcedBuffer
  rw [Nat.mod_eq_of_lt hlength]

theorem calculateFragmentCount_small {n : Nat} (h : n < 2 ^ 32) :
    calculateFragmentCount n < 2 ^ 32 - 1 := by
  unfold calculateFragmentCount baseFragmentCount
  rw [Nat.ceilDiv_eq_add_pred_div, fragmentPayloadSize_eq]
  dsimp only
  split_ifs <;> omega

theorem holding_announced (streamToSend : Bytes) (parts : List Bytes) :
    Holding parts 0 (announcedBuffer streamToSend) := by
  have := calculateFragmentCount_small (Nat.mod_lt streamToSend.length (by decide : 0 < 2 ^ 32))
  exact holding_new parts (by omega)

theorem announced_room (hfits : MetadataFits metadata) (hlength : streamToSend.length < 2 ^ 32)
    (hnonempty : streamToSend = [] → metadata = none) :
    (announcedBuffer streamToSend).minCompleteFragments ≤ totalPackets streamToSend metadata ∧
      totalPackets streamToSend metadata ≤ (announcedBuffer streamToSend).totalFragments ∧
      totalPackets streamToSend metadata < 2 ^ 32 - 1 := by
  obtain ⟨hbase, hcount⟩ := totalPackets_bounds hfits hnonempty
  have hsmall := calculateFragmentCount_small hlength
  rw [length_announced hlength]
  refine ⟨(Nat.mod_le _ _).trans hbase, ?_, by omega⟩
  show _ ≤ calculateFragmentCount streamToSend.length % 2 ^ 32
  rw [Nat.mod_eq_of_lt (by omega)]
  exact hcount

@[simp] theorem flatten_payloads : (payloads streamId streamToSend metadata).flatten = streamToSend :=
  flatten_sendStream

@[simp] theorem length_payloads : (payloads streamId streamToSend metadata).length =
    totalPackets streamToSend metadata := by
  unfold payloads
  rw [length_map, length_sendStream]

/-- Fragments of any stream shorter than `2 ^ 32` that is not empty beside metadata are put
together again, and of no other stream. -/
theorem reassembled_iff (hfits : MetadataFits metadata) : Reassembled streamId streamToSend metadata ↔
      streamToSend.length < 2 ^ 32 ∧ (streamToSend = [] → metadata = none) := by
  constructor
  · intro h
    constructor
    · have hsome := h.assembled (sendStream streamId streamToSend metadata) (fun _ hf => hf) (fun _ hf => hf)
      obtain ⟨bytes, hbytes⟩ := Option.isSome_iff_exists.mp hsome
      have hstream := h.exact _ (fun _ hf => hf) bytes hbytes
      have hlength := (assemble_eq_some hbytes).2
      rw [sameSizes_insertAll.totalSize, hstream] at hlength
      -- What is assembled has the announced length, which is below the bound.
      have hmod : (announcedBuffer streamToSend).totalSize = streamToSend.length % 2 ^ 32 := rfl
      omega
    · intro hempty
      by_contra hmeta
      obtain ⟨bytes, rfl⟩ := Option.ne_none_iff_exists'.mp hmeta
      subst hempty
      have hfragm := h.inside (OutboundStream.start streamId [] (some bytes)).fragment mem_cons_self
      have hnone : (1 : Nat) ≤ 0 := hfragm.2
      omega
  · rintro ⟨hlength, hnonempty⟩
    obtain ⟨hmin, hroom, hsmall⟩ := announced_room hfits hlength hnonempty
    have hnew := holding_announced streamToSend (payloads streamId streamToSend metadata)
    have hsize : (payloads streamId streamToSend metadata).flatten.length =
        (announcedBuffer streamToSend).totalSize := by
      rw [flatten_payloads, length_announced hlength]
      rfl
    have htakes : ∀ f ∈ sendStream streamId streamToSend metadata,
        (announcedBuffer streamToSend).Takes (payloads streamId streamToSend metadata)
          f.fragmentNumber f.payload :=
      fun f hf => .inr (.inr (payload_of_mem hsmall hf).2.2)
    constructor
    · intro f hf
      obtain ⟨hpos, hle, -⟩ := payload_of_mem hsmall hf
      exact ⟨hpos, hle.trans hroom⟩
    · intro arrivals harriv bytes hbytes
      have hend := hnew.insertAll fun f hf => htakes f (harriv f hf)
      rw [hend.assemble_eq (by rw [sameSizes_insertAll.totalSize]; exact hsize) hbytes]
      exact flatten_payloads
    · intro arrivals harriv hall
      have hend := hnew.insertAll fun f hf => htakes f (harriv f hf)
      refine hend.assemble_isSome (by rw [sameSizes_insertAll.totalSize]; exact hsize) ?_ ?_ ?_
      · rw [sameSizes_insertAll.minCompleteFragments, length_payloads]
        exact hmin
      · rw [sameSizes_insertAll.totalFragments, length_payloads]
        exact hroom
      · intro i hi
        rw [length_payloads] at hi
        obtain ⟨f, hf, hnumb⟩ := mem_of_lt_totalPackets hsmall hi
        obtain ⟨hpos, hle, -⟩ := payload_of_mem hsmall hf
        rw [← hnumb]
        exact hnew.insertAll_isSome (fun g hg => htakes g (harriv g hg)) (hall f hf) hpos (hle.trans hroom)

/-- A stream whose metadata displaces its end into a fragment of its own. -/
theorem overflowing_stream_reassembled : totalPackets (replicate 2260 7) (some (replicate 20 1)) = 3 ∧
      Reassembled 5 (replicate 2260 7) (some (replicate 20 1)) := by
  refine ⟨?_, (reassembled_iff ?_).mpr ⟨?_, ?_⟩⟩
  · simp only [totalPackets, length_replicate]
    decide
  · rintro bytes ⟨⟩
    decide
  · rw [length_replicate]
    decide
  · intro h
    cases h

/-- The one fragment of an empty stream with metadata has no slot. -/
theorem empty_stream_without_slot :
    (sendStream 5 [] (some [1])).map StreamFragment.fragmentNumber = [1] ∧
      (announcedBuffer []).totalFragments = 0 ∧ ¬ Reassembled 5 [] (some [1]) := by
  refine ⟨rfl, rfl, ?_⟩
  intro h
  exact absurd (h.inside _ mem_cons_self).2 (by decide)

end Sending

/-! A consumer of an inbound stream, and what it has read while fragments arrive. -/
open Lib Option

inductive StreamError where
  | cancelled
  deriving DecidableEq, Repr

inductive StreamPoll where
  | pending
  | ended
  | failed (error : StreamError)
  | yielded (data : Bytes)
  deriving DecidableEq, Repr

/-- What happens to the handle of a consumer: a fragment reaches the shared buffer, or the handle is
cancelled. -/
inductive Arrival where
  | fragment (f : StreamFragment)
  | cancel
  deriving DecidableEq, Repr

structure PollGaps where
  beforeGet : List Arrival
  beforeTake : List Arrival
  beforeRecheck : List Arrival
  notified : Bool
  afterNotified : List Arrival
  beforeLast : List Arrival
  deriving DecidableEq, Repr

def PollGaps.quiet : PollGaps := ⟨[], [], [], false, [], []⟩

def PollGaps.arrivals (gaps : PollGaps) : List Arrival :=
  gaps.beforeGet ++ gaps.beforeTake ++ gaps.beforeRecheck ++ gaps.afterNotified ++ gaps.beforeLast

namespace PollGaps
variable (gaps : PollGaps) {a : Arrival}

theorem mem_beforeGet (h : a ∈ gaps.beforeGet) : a ∈ gaps.arrivals := by simp [arrivals, h]

theorem mem_beforeTake (h : a ∈ gaps.beforeTake) : a ∈ gaps.arrivals := by simp [arrivals, h]

theorem mem_beforeRecheck (h : a ∈ gaps.beforeRecheck) : a ∈ gaps.arrivals := by simp [arrivals, h]

theorem mem_afterNotified (h : a ∈ gaps.afterNotified) : a ∈ gaps.arrivals := by simp [arrivals, h]

theorem mem_beforeLast (h : a ∈ gaps.beforeLast) : a ∈ gaps.arrivals := by simp [arrivals, h]

end PollGaps

structure StreamingInboundStream where
  buffer : LockFreeStreamBuffer
  cancelled : Bool
  nextFragment : Nat
  bytesRead : Nat
  autoReclaim : Bool
  deriving DecidableEq, Repr

namespace StreamingInboundStream

/-- A view of a new buffer; `stream_with_reclaim` empties the slots it reads. -/
def ofBuffer (buffer : LockFreeStreamBuffer) (autoReclaim : Bool) : StreamingInboundStream :=
  ⟨buffer, false, 1, 0, autoReclaim⟩

variable (s : StreamingInboundStream)

def arrive : Arrival → StreamingInboundStream
  | .fragment f => { s with buffer := (s.buffer.insert f.fragmentNumber f.payload).2 }
  | .cancel => { s with cancelled := true }

def arriveAll (arrivals : List Arrival) : StreamingInboundStream := arrivals.foldl arrive s

def tryGetFragment : Option Bytes × StreamingInboundStream :=
  if s.autoReclaim then
    ((s.buffer.take s.nextFragment).1, { s with buffer := (s.buffer.take s.nextFragment).2 })
  else (s.buffer.get s.nextFragment, s)

def tryYield (otherwise : StreamingInboundStream → StreamPoll × StreamingInboundStream) :
    StreamPoll × StreamingInboundStream :=
  match s.tryGetFragment with
  | (some data, s') =>
    (.yielded data,
      { s' with nextFragment := s'.nextFragment + 1, bytesRead := s'.bytesRead + data.length })
  | (none, s') => otherwise s'

def unlessCancelled (k : StreamingInboundStream → StreamPoll × StreamingInboundStream) :
    StreamPoll × StreamingInboundStream :=
  if s.cancelled then (.failed .cancelled, s) else k s

/-- After a notification the buffer is looked at once more, and again behind a new listener. -/
def pollNotified (gaps : PollGaps) : StreamPoll × StreamingInboundStream :=
  (s.arriveAll gaps.afterNotified).unlessCancelled fun s =>
    s.tryYield fun s => (s.arriveAll gaps.beforeLast).tryYield fun s => (.pending, s)

def pollNext (gaps : PollGaps) : StreamPoll × StreamingInboundStream :=
  s.unlessCancelled fun s =>
    if s.buffer.totalFragments < s.nextFragment then (.ended, s)
    else if s.buffer.isComplete ∧
        ((s.arriveAll gaps.beforeGet).buffer.get s.nextFragment).isNone then
      (.ended, s.arriveAll gaps.beforeGet)
    else
      ((s.arriveAll gaps.beforeGet).arriveAll gaps.beforeTake).tryYield fun s =>
        (s.arriveAll gaps.beforeRecheck).unlessCancelled fun s =>
          s.tryYield fun s => if gaps.notified then s.pollNotified gaps else (.pending, s)

end StreamingInboundStream

open StreamingInboundStream

/-- What is known of the fragments that arrive: the parts of the stream, the slots of the buffer,
the indices of parts that have arrived, and whether the consumer's handle is never cancelled. -/
structure Supply where
  parts : List Bytes
  total : Nat
  arrived : Nat → Prop
  calm : Prop

def Arrival.Suits (σ : Supply) : Arrival → Prop
  | .fragment f =>
    f.fragmentNumber = 0 ∨ σ.total < f.fragmentNumber ∨ σ.parts[f.fragmentNumber - 1]? = some f.payload
  | .cancel => ¬ σ.calm

/-- A consumer that has read the first parts of a stream, which is complete with its last part. -/
structure Reading (σ : Supply) (s : StreamingInboundStream) (bytes : Bytes) : Prop where
  holding : s.buffer.Holding σ.parts (s.nextFragment - 1)
  slots : s.buffer.totalFragments = σ.total
  complete : s.buffer.minCompleteFragments = σ.parts.length
  room : σ.parts.length ≤ σ.total
  next_pos : 0 < s.nextFragment
  next_le : s.nextFragment - 1 ≤ σ.parts.length
  read : bytes = (σ.parts.take (s.nextFragment - 1)).flatten
  kept : ∀ i, σ.arrived i → s.nextFragment - 1 ≤ i → (s.buffer.fragments.part i).isSome
  live : σ.calm → s.cancelled = false

def Polled (σ : Supply) (bytes : Bytes) (result : StreamPoll × StreamingInboundStream) : Prop :=
  match result.1 with
  | .yielded data => Reading σ result.2 (bytes ++ data)
  | .ended => Reading σ result.2 bytes ∧ bytes = σ.parts.flatten
  | .pending => Reading σ result.2 bytes
  | .failed _ => Reading σ result.2 bytes ∧ ¬ σ.calm

namespace Reading
open LockFreeStreamBuffer
variable {σ : Supply} {s : StreamingInboundStream} {bytes : Bytes}
  {gaps : PollGaps} {k : StreamingInboundStream → StreamPoll × StreamingInboundStream}

@[simp] theorem nextFragment_arriveAll (arrivals : List Arrival) :
    (s.arriveAll arrivals).nextFragment = s.nextFragment := by
  induction arrivals generalizing s with
  | nil => rfl
  | cons a rest ih =>
    refine ih.trans ?_
    cases a <;> rfl

theorem part_isSome_arriveAll {i : Nat} (h : (s.buffer.fragments.part i).isSome)
    (arrivals : List Arrival) : ((s.arriveAll arrivals).buffer.fragments.part i).isSome := by
  induction arrivals generalizing s with
  | nil => exact h
  | cons a rest ih =>
    refine ih ?_
    cases a with
    | fragment f => exact part_isSome_insert h
    | cancel => exact h

theorem pollNext_quiet_eq (hlive : s.cancelled = false) : ∃ k, s.pollNext .quiet =
    if s.buffer.totalFragments < s.nextFragment then (.ended, s)
    else if s.buffer.isComplete ∧ (s.buffer.get s.nextFragment).isNone then (.ended, s)
    else s.tryYield k := by
  have hgo : ¬ s.cancelled = true := by
    rw [hlive]
    exact Bool.false_ne_true
  unfold pollNext unlessCancelled
  rw [if_neg hgo]
  exact ⟨_, rfl⟩

variable {arrivals : List Arrival} {data : Bytes} (h : Reading σ s bytes)
include h

theorem arrive {a : Arrival} (ha : a.Suits σ) : Reading σ (s.arrive a) bytes := by
  cases a with
  | cancel =>
    exact { h with live := fun hcalm => absurd hcalm ha }
  | fragment f =>
    have htakes : s.buffer.Takes σ.parts f.fragmentNumber f.payload := by
      unfold Takes
      rw [h.slots]
      exact ha
    have hsizes := sameSizes_insert s.buffer f.fragmentNumber f.payload
    exact { h with
      holding := h.holding.insert htakes
      slots := hsizes.totalFragments.trans h.slots
      complete := hsizes.minCompleteFragments.trans h.complete
      kept := fun i hi hle => part_isSome_insert (h.kept i hi hle) }

theorem of_arrived {arrived : Nat → Prop}
    (hsub : ∀ i, arrived i → σ.arrived i) : Reading { σ with arrived := arrived } s bytes :=
  { h with kept := fun i hi => h.kept i (hsub i hi) }

theorem arrive_fragment {f : StreamFragment}
    (ha : (Arrival.fragment f).Suits σ) :
    Reading { σ with
      arrived := fun i => σ.arrived i ∨ (f.fragmentNumber = i + 1 ∧ i < σ.total) }
      (s.arrive (.fragment f)) bytes := by
  have hnext := h.arrive ha
  refine { hnext with kept := ?_ }
  rintro i (hi | ⟨hnumb, hlt⟩) hle
  · exact hnext.kept i hi hle
  · have hslots := h.slots
    have hslot : ((s.buffer.insert f.fragmentNumber f.payload).2.fragments.part
        (f.fragmentNumber - 1)).isSome := h.holding.insert_isSome (by omega) (by omega)
    rwa [show f.fragmentNumber - 1 = i by omega] at hslot

theorem arriveAll (ha : ∀ a ∈ arrivals, a.Suits σ) : Reading σ (s.arriveAll arrivals) bytes := by
  induction arrivals generalizing s with
  | nil => exact h
  | cons a rest ih =>
    exact ih (h.arrive (ha a mem_cons_self)) fun b hb => ha b (mem_cons_of_mem _ hb)

theorem lt_frontier (hpart : s.buffer.fragments.part (s.nextFragment - 1) = some data) :
    s.nextFragment - 1 < s.buffer.contiguousFragments := by
  by_contra hge
  have hlt := Slots.lt_length_of_part hpart
  rw [h.holding.slots] at hlt
  have hfirst := h.holding.first_le
  have heq : s.buffer.contiguousFragments = s.nextFragment - 1 := by omega
  have hstop := h.holding.stopped (by omega)
  rw [heq, hpart] at hstop
  cases hstop

theorem advance (hpart : s.buffer.fragments.part (s.nextFragment - 1) = some data) {fragments : Slots Bytes}
    (hlength : fragments.length = s.buffer.fragments.length) (hof : fragments.Of σ.parts)
    (hsame : ∀ i, s.nextFragment ≤ i → fragments.part i = s.buffer.fragments.part i) (n : Nat) :
    Reading σ
      { s with
        buffer := { s.buffer with fragments := fragments }
        nextFragment := s.nextFragment + 1
        bytesRead := n } (bytes ++ data) := by
  have hget := h.holding.of _ _ hpart
  have hlt : s.nextFragment - 1 < σ.parts.length := (List.getElem?_eq_some_iff.mp hget).1
  have hfront := h.lt_frontier hpart
  have hpos := h.next_pos
  have hsucc : s.nextFragment + 1 - 1 = s.nextFragment - 1 + 1 := by omega
  refine ⟨⟨hlength.trans h.holding.slots, hof, h.holding.unconsumed, ?_, h.holding.frontier_le, ?_, ?_⟩,
    h.slots, h.complete, h.room, Nat.succ_pos _, ?_, ?_, ?_, h.live⟩
  · show s.nextFragment + 1 - 1 ≤ s.buffer.contiguousFragments
    omega
  · intro i hi hbelow
    have hi' : s.nextFragment + 1 - 1 ≤ i := hi
    show (fragments.part i).isSome
    rw [hsame i (by omega)]
    exact h.holding.filled i (by omega) hbelow
  · intro hbelow
    show fragments.part s.buffer.contiguousFragments = none
    rw [hsame _ (by omega)]
    exact h.holding.stopped hbelow
  · show s.nextFragment + 1 - 1 ≤ σ.parts.length
    omega
  · show bytes ++ data = (σ.parts.take (s.nextFragment + 1 - 1)).flatten
    rw [hsucc, take_add_one, hget, flatten_append, ← h.read]
    simp
  · intro i hi hnext
    have hnext' : s.nextFragment + 1 - 1 ≤ i := hnext
    show (fragments.part i).isSome
    rw [hsame i (by omega)]
    exact h.kept i hi (by omega)

theorem unlessCancelled (hk : Polled σ bytes (k s)) : Polled σ bytes (s.unlessCancelled k) := by
  unfold StreamingInboundStream.unlessCancelled
  split_ifs with hcanc
  · refine ⟨h, ?_⟩
    intro hcalm
    rw [h.live hcalm] at hcanc
    cases hcanc
  · exact hk

section
variable (hin : s.nextFragment ≤ σ.total)
include hin

/-- The slot of the next fragment, which is a slot of the buffer unless all have been read. -/
theorem get_eq : s.buffer.get s.nextFragment = s.buffer.fragments.part (s.nextFragment - 1) := by
  have := h.next_pos
  have hslots := h.slots
  unfold LockFreeStreamBuffer.get
  rw [if_neg (by omega)]

theorem take_eq : s.buffer.take s.nextFragment = (s.buffer.fragments.part (s.nextFragment - 1),
      { s.buffer with fragments := s.buffer.fragments.clear (s.nextFragment - 1) }) := by
  have := h.next_pos
  have hslots := h.slots
  unfold LockFreeStreamBuffer.take
  rw [if_neg (by omega)]

theorem tryGetFragment_cases :
    (s.buffer.fragments.part (s.nextFragment - 1) = none ∧ s.tryGetFragment = (none, s)) ∨
      ∃ data s', s.buffer.fragments.part (s.nextFragment - 1) = some data ∧
        s.tryGetFragment = (some data, s') ∧ s'.nextFragment = s.nextFragment ∧
        ∀ n, Reading σ { s' with nextFragment := s'.nextFragment + 1, bytesRead := n } (bytes ++ data) := by
  unfold tryGetFragment
  rw [h.get_eq hin, h.take_eq hin]
  have hpos := h.next_pos
  cases hpart : s.buffer.fragments.part (s.nextFragment - 1) with
  | none =>
    left
    refine ⟨rfl, ?_⟩
    rw [Slots.clear_of_none hpart, ite_self]
  | some data =>
    right
    by_cases hrecl : s.autoReclaim
    · rw [if_pos hrecl]
      have hsame : ∀ i, s.nextFragment ≤ i →
          (s.buffer.fragments.clear (s.nextFragment - 1)).part i = s.buffer.fragments.part i :=
        fun i hi => Slots.part_clear_of_ne (by omega)
      exact ⟨data, _, rfl, rfl, rfl, h.advance hpart Slots.length_clear h.holding.of.clear hsame⟩
    · rw [if_neg hrecl]
      exact ⟨data, _, rfl, rfl, rfl, h.advance hpart rfl h.holding.of fun _ _ => rfl⟩

theorem tryYield (hk : Polled σ bytes (k s)) : Polled σ bytes (s.tryYield k) := by
  unfold StreamingInboundStream.tryYield
  rcases h.tryGetFragment_cases hin with ⟨-, heq⟩ | ⟨data, s', -, heq, -, hread⟩
  · rw [heq]
    exact hk
  · rw [heq]
    exact hread _

theorem pollNotified (hgaps : ∀ a ∈ gaps.arrivals, a.Suits σ) : Polled σ bytes (s.pollNotified gaps) := by
  have hnotif := h.arriveAll fun a ha => hgaps a (gaps.mem_afterNotified ha)
  have hlast := hnotif.arriveAll fun a ha => hgaps a (gaps.mem_beforeLast ha)
  refine hnotif.unlessCancelled (hnotif.tryYield (by simpa using hin) ?_)
  exact hlast.tryYield (by simpa using hin) hlast

theorem ended_of_complete (hcompl : s.buffer.isComplete) (harriv : ∀ a ∈ arrivals, a.Suits σ)
    (hnone : ((s.arriveAll arrivals).buffer.get s.nextFragment).isNone) :
    bytes = σ.parts.flatten := by
  have hall : σ.parts.length ≤ s.nextFragment - 1 := by
    by_contra hlt
    have hfront : s.buffer.minCompleteFragments ≤ s.buffer.contiguousFragments :=
      of_decide_eq_true hcompl
    rw [h.complete] at hfront
    have hsome := part_isSome_arriveAll (h.holding.filled (s.nextFragment - 1)
      (le_refl _) (by omega)) arrivals
    have hget := (h.arriveAll harriv).get_eq (by simpa using hin)
    rw [nextFragment_arriveAll] at hget
    rw [hget, isNone_iff_eq_none] at hnone
    rw [hnone] at hsome
    cases hsome
  rw [h.read, take_of_length_le hall]

end

theorem pollNext (hgaps : ∀ a ∈ gaps.arrivals, a.Suits σ) : Polled σ bytes (s.pollNext gaps) := by
  refine h.unlessCancelled ?_
  by_cases hpast : s.buffer.totalFragments < s.nextFragment
  · rw [if_pos hpast]
    refine ⟨h, ?_⟩
    have hslots := h.slots
    have hroom := h.room
    rw [h.read, take_of_length_le (by omega)]
  · rw [if_neg hpast]
    have hin : s.nextFragment ≤ σ.total := by
      have hslots := h.slots
      omega
    have hget := h.arriveAll fun a ha => hgaps a (gaps.mem_beforeGet ha)
    by_cases hcompl : s.buffer.isComplete ∧ ((s.arriveAll gaps.beforeGet).buffer.get s.nextFragment).isNone
    · rw [if_pos hcompl]
      exact ⟨hget, h.ended_of_complete hin hcompl.1 (fun a ha => hgaps a (gaps.mem_beforeGet ha)) hcompl.2⟩
    · rw [if_neg hcompl]
      have htake := hget.arriveAll fun a ha => hgaps a (gaps.mem_beforeTake ha)
      have hrech := htake.arriveAll fun a ha => hgaps a (gaps.mem_beforeRecheck ha)
      refine htake.tryYield (by simpa using hin) (hrech.unlessCancelled ?_)
      refine hrech.tryYield (by simpa using hin) ?_
      split_ifs
      · exact hrech.pollNotified (by simpa using hin) hgaps
      · exact hrech

theorem pollNext_quiet (hall : ∀ i < σ.parts.length, σ.arrived i) (hcalm : σ.calm) :
    (s.nextFragment - 1 < σ.parts.length ∧ ∃ data, (s.pollNext .quiet).1 = .yielded data ∧
      (s.pollNext .quiet).2.nextFragment = s.nextFragment + 1) ∨ (s.pollNext .quiet).1 = .ended := by
  have hslots := h.slots
  have hroom := h.room
  have hle := h.next_le
  obtain ⟨k, hpoll⟩ := pollNext_quiet_eq (h.live hcalm)
  by_cases hmore : s.nextFragment - 1 < σ.parts.length
  · left
    refine ⟨hmore, ?_⟩
    have hin : s.nextFragment ≤ σ.total := by omega
    obtain ⟨data, hpart⟩ := isSome_iff_exists.mp (h.kept _ (hall _ hmore) (le_refl _))
    have hget : (s.buffer.get s.nextFragment).isNone = false := by
      rw [h.get_eq hin, hpart]
      rfl
    rw [if_neg (by omega), if_neg (by simp [hget])] at hpoll
    rcases h.tryGetFragment_cases hin with ⟨hnone, -⟩ | ⟨data', s', -, heq, hnext, -⟩
    · rw [hnone] at hpart
      cases hpart
    · rw [hpoll]
      unfold StreamingInboundStream.tryYield
      rw [heq]
      exact ⟨data', rfl, congrArg (· + 1) hnext⟩
  · right
    have hread : s.nextFragment - 1 = σ.parts.length := by omega
    rw [hpoll]
    by_cases hpast : s.buffer.totalFragments < s.nextFragment
    · rw [if_pos hpast]
    · rw [if_neg hpast]
      have hcompl : s.buffer.isComplete := by
        have hfirst := h.holding.first_le
        rw [hread, ← h.complete] at hfirst
        exact decide_eq_true hfirst
      have hnone : (s.buffer.get s.nextFragment).isNone := by
        rw [h.get_eq (by omega), isNone_iff_eq_none]
        by_contra hsome
        obtain ⟨data, hdata⟩ := ne_none_iff_exists'.mp hsome
        have hget := h.holding.of _ _ hdata
        rw [hread, getElem?_eq_none (le_refl _)] at hget
        cases hget
      rw [if_pos ⟨hcompl, hnone⟩]

end Reading

end Freenet.Transport
