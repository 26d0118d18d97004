import Freenet.Transport.ChargedConnection

/-! Runs of a reader of an inbound stream, `pipe_stream`, and whether fragments fit their
packets. -/
namespace Freenet.Transport
open List OutboundStream StreamFragment

section Piping
/-- A reader with what it was given, until the stream ends or fails. -/
structure Consumer where
  stream : StreamingInboundStream
  yielded : Bytes
  outcome : Option (Except StreamError Unit)

inductive ConsumerEvent where
  | arrives (a : Arrival)
  | polls (gaps : PollGaps)
  deriving DecidableEq, Repr

def ConsumerEvent.arrivals : ConsumerEvent → List Arrival
  | .arrives a => [a]
  | .polls gaps => gaps.arrivals

namespace Consumer

def start (buffer : LockFreeStreamBuffer) (autoReclaim : Bool) : Consumer :=
  ⟨.ofBuffer buffer autoReclaim, [], none⟩

def poll (c : Consumer) (gaps : PollGaps) : Consumer :=
  let polled := c.stream.pollNext gaps
  let c' := { c with stream := polled.2 }
  match polled.1 with
  | .pending => c'
  | .ended => { c' with outcome := some (.ok ()) }
  | .failed error => { c' with outcome := some (.error error) }
  | .yielded data => { c' with yielded := c'.yielded ++ data }

/-- A stream that has ended or failed is not polled again. -/
def step (c : Consumer) : ConsumerEvent → Consumer
  | .arrives a => { c with stream := c.stream.arrive a }
  | .polls gaps => if c.outcome.isSome then c else c.poll gaps

def after (c : Consumer) (events : List ConsumerEvent) : Consumer := events.foldl step c

/-- A reader of the stream that has all of it when the stream ends, and that fails only when it is
cancelled. -/
structure Sound (σ : Supply) (c : Consumer) : Prop where
  reading : Reading σ c.stream c.yielded
  ended : c.outcome = some (.ok ()) → c.yielded = σ.parts.flatten
  running : σ.calm → c.outcome = none ∨ c.outcome = some (.ok ())

variable {σ : Supply} {c : Consumer}

theorem Sound.poll (h : Sound σ c) {gaps : PollGaps} (hgaps : ∀ a ∈ gaps.arrivals, a.Suits σ)
    (hrun : c.outcome = none) : Sound σ (c.poll gaps) := by
  have hpolled := h.reading.pollNext hgaps
  unfold Polled at hpolled
  unfold Consumer.poll
  dsimp only
  cases hresult : (c.stream.pollNext gaps).1 with
  | pending | yielded data =>
    rw [hresult] at hpolled
    exact ⟨hpolled, fun hend => absurd (hrun.symm.trans hend) (by simp), fun _ => .inl hrun⟩
  | ended =>
    rw [hresult] at hpolled
    exact ⟨hpolled.1, fun _ => hpolled.2, fun _ => .inr rfl⟩
  | failed error =>
    rw [hresult] at hpolled
    exact ⟨hpolled.1, fun hend => absurd hend (by simp), fun hcalm => absurd hcalm hpolled.2⟩

theorem Sound.step (h : Sound σ c) {e : ConsumerEvent} (he : ∀ a ∈ e.arrivals, a.Suits σ) :
    Sound σ (c.step e) := by
  cases e with
  | arrives a => exact ⟨h.reading.arrive (he a mem_cons_self), h.ended, h.running⟩
  | polls gaps =>
    unfold Consumer.step
    split_ifs with hdone
    · exact h
    · exact h.poll he (by simpa using hdone)

variable {events : List ConsumerEvent}

theorem Sound.after (h : Sound σ c) (hevents : ∀ e ∈ events, ∀ a ∈ e.arrivals, a.Suits σ) :
    Sound σ (c.after events) := by
  induction events generalizing c with
  | nil => exact h
  | cons e rest ih =>
    exact ih (h.step (hevents e mem_cons_self)) fun e' he' => hevents e' (mem_cons_of_mem _ he')

theorem after_done (h : c.outcome = some (.ok ())) (n : Nat) :
    (c.after (replicate n (.polls .quiet))).outcome = some (.ok ()) := by
  have hstep : c.step (.polls .quiet) = c := by
    unfold step
    rw [h]
    rfl
  induction n with
  | zero => exact h
  | succ n ih =>
    show ((c.step (.polls .quiet)).after (replicate n (.polls .quiet))).outcome = _
    rw [hstep]
    exact ih

variable (h : Sound σ c)
include h

theorem Sound.of_arrived {arrived : Nat → Prop}
    (hsub : ∀ i, arrived i → σ.arrived i) : Sound { σ with arrived := arrived } c :=
  ⟨h.reading.of_arrived hsub, h.ended, h.running⟩

theorem Sound.after_arrived (hevents : ∀ e ∈ events, ∀ a ∈ e.arrivals, a.Suits σ) : Sound { σ with
      arrived := fun i => σ.arrived i ∨ ∃ f : StreamFragment, f.fragmentNumber = i + 1 ∧
        i < σ.total ∧ ConsumerEvent.arrives (.fragment f) ∈ events } (c.after events) := by
  induction events generalizing σ c with
  | nil =>
    refine h.of_arrived ?_
    rintro i (hi | ⟨f, -, -, hf⟩)
    · exact hi
    · cases hf
  | cons e rest ih =>
    have hrest : ∀ e' ∈ rest, ∀ a ∈ e'.arrivals, a.Suits σ :=
      fun e' he' => hevents e' (mem_cons_of_mem _ he')
    have hsuits := hevents e mem_cons_self
    by_cases hnew : ∃ f, e = .arrives (.fragment f)
    · obtain ⟨f, rfl⟩ := hnew
      have hstep : Sound { σ with
          arrived := fun i => σ.arrived i ∨ (f.fragmentNumber = i + 1 ∧ i < σ.total) }
          (c.step (.arrives (.fragment f))) :=
        ⟨h.reading.arrive_fragment (hsuits _ mem_cons_self), h.ended, h.running⟩
      refine (ih hstep hrest).of_arrived ?_
      rintro i (hi | ⟨g, hnumb, hlt, hg⟩)
      · exact .inl (.inl hi)
      · rcases mem_cons.mp hg with heq | hg
        · cases heq
          exact .inl (.inr ⟨hnumb, hlt⟩)
        · exact .inr ⟨g, hnumb, hlt, hg⟩
    · refine (ih (h.step hsuits) hrest).of_arrived ?_
      rintro i (hi | ⟨g, hnumb, hlt, hg⟩)
      · exact .inl hi
      · rcases mem_cons.mp hg with heq | hg
        · exact absurd ⟨g, heq.symm⟩ hnew
        · exact .inr ⟨g, hnumb, hlt, hg⟩

/-- Undisturbed polls read all parts that are there, and then end. -/
theorem Sound.drains (hall : ∀ i < σ.parts.length, σ.arrived i) (hcalm : σ.calm)
    {n : Nat} (hn : σ.parts.length < c.stream.nextFragment - 1 + n) :
    (c.after (replicate n (.polls .quiet))).outcome = some (.ok ()) := by
  induction n generalizing c with
  | zero =>
    have := h.reading.next_le
    omega
  | succ n ih =>
    show ((c.step (.polls .quiet)).after (replicate n (.polls .quiet))).outcome = _
    rcases h.running hcalm with hrun | hdone
    · have hstep : c.step (.polls .quiet) = c.poll .quiet := by
        unfold Consumer.step
        rw [hrun]
        rfl
      have hnext : Sound σ (c.poll .quiet) :=
        h.poll (fun a ha => absurd ha not_mem_nil) hrun
      rw [hstep]
      rcases h.reading.pollNext_quiet hall hcalm with ⟨-, data, hresult, hnumb⟩ | hresult
      · refine ih hnext ?_
        have hpoll : (c.poll .quiet).stream.nextFragment = c.stream.nextFragment + 1 := by
          unfold Consumer.poll
          dsimp only
          rw [hresult]
          exact hnumb
        have := h.reading.next_pos
        omega
      · have hpoll : (c.poll .quiet).outcome = some (.ok ()) := by
          unfold Consumer.poll
          dsimp only
          rw [hresult]
        exact after_done hpoll n
    · exact after_done hdone (n + 1)

end Consumer

/-- How `pipe_stream` fails. -/
inductive PipeError where
  | connectionClosed
  | sendFailed
  deriving DecidableEq, Repr

/-- `pipe_stream` between two turns of its loop, with the fragments it has sent. -/
structure PipeStream where
  stream : StreamingInboundStream
  outboundStreamId : StreamId
  totalBytes : Nat
  sentSoFar : Nat
  fragmentNumber : Nat
  pendingMetadata : Option Bytes
  forwarded : List StreamFragment
  outcome : Option (Except PipeError Nat)

/-- What a turn finds: what arrives during the poll, whether the congestion window opens in time,
and whether the packet is sent. -/
structure PipeTurn where
  gaps : PollGaps
  cwndOpens : Bool
  sends : Bool
  deriving DecidableEq, Repr

namespace PipeStream

def start (buffer : LockFreeStreamBuffer) (outboundStreamId : StreamId) (metadata : Option Bytes) :
    PipeStream where
  stream := .ofBuffer buffer false
  outboundStreamId := outboundStreamId
  totalBytes := buffer.totalSize
  sentSoFar := 0
  fragmentNumber := 1
  pendingMetadata := metadata
  forwarded := []
  outcome := none

variable (p : PipeStream)

/-- Metadata goes with the first fragment if there is room for it. -/
def embeds (payload : Bytes) : Option Bytes :=
  if p.fragmentNumber = 1 then
    match p.pendingMetadata with
    | some metadata =>
      if payload.length + 41 + metadata.length ≤ maxDataSize then some metadata else none
    | none => none
  else none

/-- The fragment that a turn of the pipe builds from a payload. -/
def fragment (payload : Bytes) : StreamFragment :=
  ⟨p.outboundStreamId, p.totalBytes, p.fragmentNumber, payload, p.embeds payload⟩

def forward (payload : Bytes) : PipeStream :=
  { p with
    forwarded := p.forwarded ++ [p.fragment payload]
    sentSoFar := p.sentSoFar + payload.length
    fragmentNumber := (p.fragmentNumber + 1) % 2 ^ 32
    pendingMetadata := if p.fragmentNumber = 1 then none else p.pendingMetadata }

def finish (outcome : Except PipeError Nat) : PipeStream := { p with outcome := some outcome }

/-- One poll of the inbound stream, and what is done with its result. -/
def turn (t : PipeTurn) : PipeStream :=
  let polled := p.stream.pollNext t.gaps
  let p' := { p with stream := polled.2 }
  match polled.1 with
  | .pending => p'
  | .ended => p'.finish (.ok p'.sentSoFar)
  | .failed _ => p'.finish (.error .connectionClosed)
  | .yielded payload =>
    if ¬ t.cwndOpens then p'.finish (.error .connectionClosed)
    else if ¬ t.sends then p'.finish (.error .sendFailed)
    else p'.forward payload

end PipeStream

inductive PipeEvent where
  | arrives (a : Arrival)
  | turns (t : PipeTurn)
  | stalls
  deriving DecidableEq, Repr

def PipeEvent.arrivals : PipeEvent → List Arrival
  | .arrives a => [a]
  | .turns t => t.gaps.arrivals
  | .stalls => []

/-- A turn in which the congestion window opens and the packet is sent. -/
def PipeTurn.quiet : PipeTurn := ⟨.quiet, true, true⟩

/-- Neither the network of the next hop nor the wait for a fragment fails. -/
def PipeEvent.Healthy : PipeEvent → Prop
  | .arrives _ => True
  | .turns t => t.cwndOpens = true ∧ t.sends = true
  | .stalls => False

namespace PipeStream

def step (p : PipeStream) : PipeEvent → PipeStream
  | .arrives a => { p with stream := p.stream.arrive a }
  | .turns t => if p.outcome.isSome then p else p.turn t
  | .stalls => if p.outcome.isSome then p else p.finish (.error .connectionClosed)

def after (p : PipeStream) (events : List PipeEvent) : PipeStream := events.foldl step p

def forwardedBytes (p : PipeStream) : Bytes := (p.forwarded.map payload).flatten

def Failed (p : PipeStream) : Prop := ∃ error, p.outcome = some (.error error)

end PipeStream

def PipeEvent.toConsumer : PipeEvent → List ConsumerEvent
  | .arrives a => [.arrives a]
  | .turns t => [.polls t.gaps]
  | .stalls => []

/-- The pipe has forwarded what a reader in its place has read, and ends as the reader does. -/
structure Follows (p : PipeStream) (c : Consumer) : Prop where
  stream : p.stream = c.stream
  bytes : p.forwardedBytes = c.yielded
  sent : p.sentSoFar = c.yielded.length
  outcome : p.outcome = c.outcome.map fun result =>
    match result with
    | .ok () => .ok c.yielded.length
    | .error _ => .error .connectionClosed

namespace Follows
variable {p : PipeStream} {c : Consumer}

theorem turn (h : Follows p c) (hrun : c.outcome = none) (t : PipeTurn) :
    Follows (p.turn t) (c.poll t.gaps) ∨ (¬ PipeEvent.Healthy (.turns t) ∧ (p.turn t).Failed) := by
  have hidle : p.outcome = none := by
    rw [h.outcome, hrun]
    rfl
  unfold PipeStream.turn Consumer.poll
  dsimp only
  rw [h.stream]
  cases (c.stream.pollNext t.gaps).1 with
  | pending => exact .inl ⟨rfl, h.bytes, h.sent, by rw [hrun]; exact hidle⟩
  | ended =>
    left
    refine ⟨rfl, h.bytes, h.sent, ?_⟩
    show some (Except.ok p.sentSoFar) = some (Except.ok c.yielded.length)
    rw [h.sent]
  | failed error => exact .inl ⟨rfl, h.bytes, h.sent, rfl⟩
  | yielded payload =>
    dsimp only
    by_cases hopens : t.cwndOpens
    · rw [if_neg (not_not.mpr hopens)]
      by_cases hsends : t.sends
      · rw [if_neg (not_not.mpr hsends)]
        left
        refine ⟨rfl, ?_, ?_, ?_⟩
        · show ((p.forwarded ++ [_]).map StreamFragment.payload).flatten = c.yielded ++ payload
          rw [map_append, ← h.bytes]
          simp [PipeStream.forwardedBytes, PipeStream.fragment]
        · show p.sentSoFar + payload.length = (c.yielded ++ payload).length
          rw [length_append, h.sent]
        · show p.outcome = c.outcome.map _
          rw [hrun]
          exact hidle
      · rw [if_pos hsends]
        exact .inr ⟨fun healthy => hsends healthy.2, .sendFailed, rfl⟩
    · rw [if_pos hopens]
      exact .inr ⟨fun healthy => hopens healthy.1, .connectionClosed, rfl⟩

theorem step (h : Follows p c) (e : PipeEvent) :
    Follows (p.step e) (c.after e.toConsumer) ∨ (¬ e.Healthy ∧ (p.step e).Failed) := by
  have hsome : p.outcome.isSome = c.outcome.isSome := by
    rw [h.outcome, Option.isSome_map]
  cases e with
  | arrives a => exact .inl { h with stream := congrArg (·.arrive a) h.stream }
  | turns t =>
    show Follows (if p.outcome.isSome then p else p.turn t) (if c.outcome.isSome then c
        else c.poll t.gaps) ∨ _
    unfold PipeStream.step
    rw [hsome]
    split_ifs with hdone
    · exact .inl h
    · exact h.turn (by simpa using hdone) t
  | stalls =>
    unfold PipeStream.step
    split_ifs with hdone
    · exact .inl h
    · exact .inr ⟨id, .connectionClosed, rfl⟩

end Follows

variable {p : PipeStream}

theorem PipeStream.Failed.step (h : p.Failed) (e : PipeEvent) : (p.step e).Failed := by
  obtain ⟨error, herror⟩ := h
  refine ⟨error, ?_⟩
  cases e with
  | arrives a => exact herror
  | turns t | stalls =>
    unfold PipeStream.step
    rw [herror]
    exact herror

theorem PipeStream.Failed.after (h : p.Failed) (events : List PipeEvent) : (p.after events).Failed := by
  induction events generalizing p with
  | nil => exact h
  | cons e rest ih => exact ih (h.step e)

/-- A pipe behaves as the reader in its place, unless it fails; and it fails only by itself when it
is not healthy. -/
theorem Follows.after {c : Consumer} (h : Follows p c) (events : List PipeEvent) :
    Follows (p.after events) (c.after (events.flatMap PipeEvent.toConsumer)) ∨
      ((∃ e ∈ events, ¬ e.Healthy) ∧ (p.after events).Failed) := by
  induction events generalizing p c with
  | nil => exact .inl h
  | cons e rest ih =>
    have hsplit : c.after ((e :: rest).flatMap PipeEvent.toConsumer) =
        (c.after e.toConsumer).after (rest.flatMap PipeEvent.toConsumer) := by
      exact foldl_append
    rw [hsplit]
    rcases h.step e with hnext | ⟨hsick, hfail⟩
    · rcases ih hnext with hend | ⟨⟨e', he', hsick⟩, hfail⟩
      · exact .inl hend
      · exact .inr ⟨⟨e', mem_cons_of_mem _ he', hsick⟩, hfail⟩
    · exact .inr ⟨⟨e, mem_cons_self, hsick⟩, hfail.after rest⟩

open Option

/-- The streams attach no receipts to their packets. -/
def StreamFragment.Fits (f : StreamFragment) : Prop :=
  ∀ packetId, SymmetricMessage.serializedSize ⟨packetId, [], f.toPayload⟩ ≤ maxDataSize

theorem StreamFragment.fits_iff {f : StreamFragment} : f.Fits ↔
    f.payload.length + (f.metadataBytes.map encodedBytesSize).getD 0 ≤ 1130 := by
  have hmax : maxDataSize = 1171 := rfl
  simp only [Fits, toPayload, PeerConnection.fragmentPayload, SymmetricMessage.serializedSize,
    SymmetricMessagePayload.serializedSize, encodedBytesSize, length_nil]
  constructor
  · intro h
    have := h 0
    omega
  · intro h packetId
    omega

namespace OutboundStream
variable {o : OutboundStream}

theorem fragment_fits_iff :
    o.fragment.Fits ↔ ∀ bytes, o.metadataBytes = some bytes → bytes.length ≤ 1122 := by
  have hpayl := length_payload_le (o := o)
  rw [fits_iff]
  change _ + (o.metadataBytes.map encodedBytesSize).getD 0 ≤ _ ↔ _
  cases h : o.metadataBytes with
  | none => simpa [h, availablePayload, fragmentPayloadSize_eq] using hpayl
  | some bytes =>
    simp only [h, availablePayload, metaOverhead, fragmentPayloadSize_eq] at hpayl
    simp only [map_some, getD_some, encodedBytesSize, some.injEq, forall_eq']
    omega

theorem fragments_fit (hmeta : o.pendingMetadata = none) (left : Nat) : ∀ f ∈ fragments left o, f.Fits := by
  induction left generalizing o with
  | zero => simp [fragments]
  | succ left ih =>
    refine forall_mem_cons.mpr ⟨?_, ih (pendingMetadata_advance_of_none hmeta)⟩
    simp [fragment_fits_iff, metadataBytes_of_none hmeta]

end OutboundStream

/-- Every packet of a stream fits unless the metadata of the first is too long by itself. What a
pipe forwards fits unless the payload is too long, or only the length of the metadata has no
room. -/
theorem streamPackets_fit_iff (streamId : StreamId) (streamToSend : Bytes) (metadata : Option Bytes)
    (p : PipeStream) (payload : Bytes) :
    ((∀ f ∈ sendStream streamId streamToSend metadata, f.Fits) ↔
      ∀ bytes, metadata = some bytes → bytes.length ≤ 1122) ∧
    ((p.fragment payload).Fits ↔ payload.length ≤ 1130 ∧
      ∀ bytes, p.fragmentNumber = 1 → p.pendingMetadata = some bytes →
        payload.length + bytes.length ≤ 1122 ∨ 1130 < payload.length + bytes.length) := by
  constructor
  · have hfirst := fragment_fits_iff (o := .start streamId streamToSend metadata)
    unfold sendStream
    cases htotal : totalPackets streamToSend metadata with
    | zero =>
      cases metadata with
      | none => simp [fragments]
      | some bytes =>
        simp only [totalPackets] at htotal
        split_ifs at htotal
        omega
    | succ left =>
      rw [fragments, forall_mem_cons, hfirst]
      exact and_iff_left (fragments_fit rfl left)
  · have hmax : maxDataSize = 1171 := rfl
    rw [fits_iff]
    simp only [PipeStream.fragment, PipeStream.embeds]
    by_cases hnumb : p.fragmentNumber = 1
    · cases p.pendingMetadata with
      | none => simp [hnumb]
      | some bytes =>
        simp only [hnumb, if_true, forall_const, some.injEq, forall_eq']
        split_ifs
        · simp only [map_some, getD_some, encodedBytesSize]
          omega
        · simp only [map_none, getD_none]
          omega
    · simp [hnumb]

/-- A pipe has room for 100 bytes of metadata beside a payload of 1030 bytes that it has received,
and builds a packet that is 8 bytes too long. -/
theorem forwarded_metadata_exceeds :
    let p := (PipeStream.start (.new 1030) 0 (some (replicate 100 0))).step
      (.arrives (.fragment ⟨7, 1030, 1, replicate 1030 0, none⟩))
    (p.stream.pollNext .quiet).1 = .yielded (replicate 1030 0) ∧ ¬ (p.fragment (replicate 1030 0)).Fits := by
  refine ⟨by decide +kernel, ?_⟩
  rw [fits_iff]
  decide +kernel

end Piping

/-! A stream is delivered whole exactly if the receiver does not take it for complete too early. -/
open LockFreeStreamBuffer Consumer Nat PipeEvent

def Arrival.From (fragments : List StreamFragment) : Arrival → Prop
  | .fragment f => f ∈ fragments
  | .cancel => True

/-- The fragments are the parts by which the buffer is complete; others have no slot. -/
structure Supplies (parts : List Bytes) (fragments : List StreamFragment)
    (b : LockFreeStreamBuffer) : Prop where
  complete : b.minCompleteFragments = parts.length
  room : parts.length ≤ b.totalFragments
  suits : ∀ f ∈ fragments, f.fragmentNumber = 0 ∨ b.totalFragments < f.fragmentNumber ∨
    parts[f.fragmentNumber - 1]? = some f.payload
  covered : ∀ i < parts.length, ∃ f ∈ fragments, f.fragmentNumber = i + 1

namespace Supplies
variable {parts : List Bytes} {fragments : List StreamFragment} {b : LockFreeStreamBuffer}
  {autoReclaim : Bool} {events : List ConsumerEvent}

def supply (parts : List Bytes) (b : LockFreeStreamBuffer) (calm : Prop) : Supply :=
  ⟨parts, b.totalFragments, fun _ => False, calm⟩

theorem arrival (h : Supplies parts fragments b) {calm : Prop} {a : Arrival}
    (ha : a.From fragments) (hcalm : calm → a ≠ .cancel) : a.Suits (supply parts b calm) := by
  cases a with
  | fragment f => exact h.suits f ha
  | cancel => exact fun hc => hcalm hc rfl

variable (autoReclaim) in
theorem sound_start (h : Supplies parts fragments b) (hnew : b.Holding parts 0) (calm : Prop) :
    (start b autoReclaim).Sound (supply parts b calm) where
  reading := ⟨hnew, rfl, h.complete, h.room, Nat.one_pos, Nat.zero_le _, rfl,
    fun _ harriv => harriv.elim, fun _ => rfl⟩
  ended hend := absurd hend (by simp [Consumer.start])
  running _ := .inl rfl

/-- A reader that comes to the end of the stream has read all parts. -/
theorem yielded_of_ended (h : Supplies parts fragments b) (hnew : b.Holding parts 0)
    (hfrom : ∀ e ∈ events, ∀ a ∈ e.arrivals, a.From fragments)
    (hend : ((start b autoReclaim).after events).outcome = some (.ok ())) :
    ((start b autoReclaim).after events).yielded = parts.flatten :=
  ((h.sound_start autoReclaim hnew False).after fun e he a ha =>
    h.arrival (hfrom e he a ha) False.elim).ended hend

theorem ends (h : Supplies parts fragments b) (hnew : b.Holding parts 0)
    (hfrom : ∀ e ∈ events, ∀ a ∈ e.arrivals, a.From fragments)
    (hcalm : ∀ e ∈ events, Arrival.cancel ∉ e.arrivals)
    (hall : ∀ f ∈ fragments, ConsumerEvent.arrives (.fragment f) ∈ events) {n : Nat}
    (hn : parts.length < n) :
    ((start b autoReclaim).after (events ++ replicate n (.polls .quiet))).outcome = some (.ok ()) := by
  have hsuits : ∀ e ∈ events, ∀ a ∈ e.arrivals, a.Suits (supply parts b True) := by
    intro e he a ha
    refine h.arrival (hfrom e he a ha) ?_
    rintro - rfl
    exact hcalm e he ha
  have hsound := (h.sound_start autoReclaim hnew True).after_arrived hsuits
  have hsplit : (start b autoReclaim).after (events ++ replicate n (.polls .quiet)) =
      ((start b autoReclaim).after events).after (replicate n (.polls .quiet)) :=
    foldl_append
  rw [hsplit]
  refine hsound.drains ?_ trivial ?_
  · intro i hi
    obtain ⟨f, hf, hnumb⟩ := h.covered i hi
    exact .inr ⟨f, hnumb, hi.trans_le h.room, hall f hf⟩
  · show parts.length < _
    omega

end Supplies

variable {parts : List Bytes} {fragments : List StreamFragment} {b : LockFreeStreamBuffer}
  {outboundStreamId : StreamId} {outboundMetadata : Option Bytes} {events : List PipeEvent}

theorem follows_start : Follows (.start b outboundStreamId outboundMetadata) (.start b false) :=
  ⟨rfl, rfl, rfl, rfl⟩

theorem arrivals_of_mem_toConsumer {e : PipeEvent} {e' : ConsumerEvent} (h : e' ∈ e.toConsumer) :
    e'.arrivals = e.arrivals := by
  cases e with
  | arrives a | turns t =>
    cases mem_singleton.mp h
    rfl
  | stalls => cases h

theorem forall_toConsumer {P : Arrival → Prop} (h : ∀ e ∈ events, ∀ a ∈ e.arrivals, P a) :
    ∀ e ∈ events.flatMap toConsumer, ∀ a ∈ e.arrivals, P a := by
  intro e' he' a ha
  obtain ⟨e, he, hmem⟩ := mem_flatMap.mp he'
  rw [arrivals_of_mem_toConsumer hmem] at ha
  exact h e he a ha

theorem toConsumer_quiet (n : Nat) :
    (replicate n (turns .quiet)).flatMap toConsumer = replicate n (ConsumerEvent.polls .quiet) := by
  induction n with
  | zero => rfl
  | succ n ih =>
    rw [replicate_succ, flatMap_cons, ih]
    rfl

theorem Supplies.forwarded_of_finished (h : Supplies parts fragments b) (hnew : b.Holding parts 0)
    (hfrom : ∀ e ∈ events, ∀ a ∈ e.arrivals, a.From fragments) {sent : Nat}
    (hend : ((PipeStream.start b outboundStreamId outboundMetadata).after events).outcome =
      some (.ok sent)) : sent = parts.flatten.length ∧
      ((PipeStream.start b outboundStreamId outboundMetadata).after events).forwardedBytes =
        parts.flatten := by
  rcases follows_start.after events with hfoll | ⟨-, error, herror⟩
  · have houtc := hfoll.outcome
    rw [hend] at houtc
    cases hc : ((start b false).after (events.flatMap toConsumer)).outcome with
    | none =>
      rw [hc] at houtc
      cases houtc
    | some result =>
      cases result with
      | error e =>
        rw [hc] at houtc
        cases houtc
      | ok u =>
        have hread := h.yielded_of_ended hnew (forall_toConsumer hfrom) hc
        rw [hc] at houtc
        have hsent := Except.ok.inj (Option.some.inj houtc)
        rw [hread] at hsent
        exact ⟨hsent, hfoll.bytes.trans hread⟩
  · rw [herror] at hend
    cases hend

theorem Supplies.finishes (h : Supplies parts fragments b) (hnew : b.Holding parts 0)
    (hfrom : ∀ e ∈ events, ∀ a ∈ e.arrivals, a.From fragments)
    (hcalm : ∀ e ∈ events, Arrival.cancel ∉ e.arrivals) (hhealthy : ∀ e ∈ events, e.Healthy)
    (hall : ∀ f ∈ fragments, arrives (.fragment f) ∈ events) {n : Nat}
    (hn : parts.length < n) : ∃ sent, ((PipeStream.start b outboundStreamId outboundMetadata).after
      (events ++ replicate n (.turns .quiet))).outcome = some (.ok sent) := by
  have hcalm' : ∀ e ∈ events, ∀ a ∈ e.arrivals, a ≠ Arrival.cancel := by
    rintro e he a ha rfl
    exact hcalm e he ha
  have hread : ((start b false).after (events.flatMap toConsumer ++
      replicate n (.polls .quiet))).outcome = some (.ok ()) :=
    h.ends hnew (forall_toConsumer hfrom)
      (fun e he hmem => forall_toConsumer hcalm' e he _ hmem rfl)
      (fun f hf => mem_flatMap.mpr ⟨_, hall f hf, mem_singleton.mpr rfl⟩) hn
  have hfoll := Follows.after (p := .start b outboundStreamId outboundMetadata)
    (c := .start b false) follows_start (events ++ replicate n (.turns .quiet))
  rw [flatMap_append, toConsumer_quiet] at hfoll
  rcases hfoll with hfoll | ⟨⟨e, he, hsick⟩, -⟩
  · have houtc := hfoll.outcome
    rw [hread] at houtc
    exact ⟨_, houtc⟩
  · refine absurd ?_ hsick
    rcases mem_append.mp he with he | he
    · exact hhealthy e he
    · rw [eq_of_mem_replicate he]
      exact ⟨rfl, rfl⟩

variable {streamId : StreamId} {streamToSend : Bytes} {metadata : Option Bytes}

/-- Whoever reads or pipes the stream has all of it when it comes to the end, and comes to the end
once everything has arrived. -/
structure Delivered (streamId : StreamId) (streamToSend : Bytes) (metadata : Option Bytes) :
    Prop where
  readWhole : ∀ (autoReclaim : Bool) (events : List ConsumerEvent),
    (∀ e ∈ events, ∀ a ∈ e.arrivals, a.From (sendStream streamId streamToSend metadata)) →
    ((start (announcedBuffer streamToSend) autoReclaim).after events).outcome = some (.ok ()) →
    ((start (announcedBuffer streamToSend) autoReclaim).after events).yielded = streamToSend
  readToEnd : ∀ (autoReclaim : Bool) (events : List ConsumerEvent),
    (∀ e ∈ events, ∀ a ∈ e.arrivals, a.From (sendStream streamId streamToSend metadata)) →
    (∀ e ∈ events, Arrival.cancel ∉ e.arrivals) →
    (∀ f ∈ sendStream streamId streamToSend metadata, .arrives (.fragment f) ∈ events) →
    ((start (announcedBuffer streamToSend) autoReclaim).after
      (events ++ replicate (totalPackets streamToSend metadata + 1) (.polls .quiet))).outcome = some (.ok ())
  pipedWhole : ∀ (outboundStreamId : StreamId) (outboundMetadata : Option Bytes)
    (events : List PipeEvent) (sent : Nat),
    (∀ e ∈ events, ∀ a ∈ e.arrivals, a.From (sendStream streamId streamToSend metadata)) →
    ((PipeStream.start (announcedBuffer streamToSend) outboundStreamId outboundMetadata).after
      events).outcome = some (.ok sent) →
    sent = streamToSend.length ∧
      ((PipeStream.start (announcedBuffer streamToSend) outboundStreamId outboundMetadata).after
        events).forwardedBytes = streamToSend
  pipedToEnd : ∀ (outboundStreamId : StreamId) (outboundMetadata : Option Bytes)
    (events : List PipeEvent),
    (∀ e ∈ events, ∀ a ∈ e.arrivals, a.From (sendStream streamId streamToSend metadata)) →
    (∀ e ∈ events, Arrival.cancel ∉ e.arrivals) → (∀ e ∈ events, e.Healthy) →
    (∀ f ∈ sendStream streamId streamToSend metadata, .arrives (.fragment f) ∈ events) →
    ∃ sent, ((PipeStream.start (announcedBuffer streamToSend) outboundStreamId
      outboundMetadata).after (events ++
        replicate (totalPackets streamToSend metadata + 1) (.turns .quiet))).outcome = some (.ok sent)

theorem Supplies.delivered {parts : List Bytes}
    (h : Supplies parts (sendStream streamId streamToSend metadata) (announcedBuffer streamToSend))
    (hstream : parts.flatten = streamToSend)
    (hparts : parts.length ≤ totalPackets streamToSend metadata) :
    Delivered streamId streamToSend metadata := by
  have hnew := holding_announced streamToSend parts
  constructor
  · intro autoReclaim events hfrom hend
    exact (h.yielded_of_ended hnew hfrom hend).trans hstream
  · intro autoReclaim events hfrom hcalm hall
    exact h.ends hnew hfrom hcalm hall (lt_succ_of_le hparts)
  · intro outboundStreamId outboundMetadata events sent hfrom hend
    obtain ⟨hsent, hbytes⟩ := h.forwarded_of_finished hnew hfrom hend
    rw [hstream] at hsent hbytes
    exact ⟨hsent, hbytes⟩
  · intro outboundStreamId outboundMetadata events hfrom hcalm hhealthy hall
    exact h.finishes hnew hfrom hcalm hhealthy hall (lt_succ_of_le hparts)

theorem supplies_take (hle : (announcedBuffer streamToSend).minCompleteFragments ≤
      totalPackets streamToSend metadata) : Supplies ((payloads streamId streamToSend metadata).take
        (announcedBuffer streamToSend).minCompleteFragments)
      ((sendStream streamId streamToSend metadata).take
        (announcedBuffer streamToSend).minCompleteFragments) (announcedBuffer streamToSend) := by
  have hcount := calculateFragmentCount_small (mod_lt streamToSend.length (by decide : 0 < 2 ^ 32))
  have hbase : (announcedBuffer streamToSend).minCompleteFragments ≤
      (announcedBuffer streamToSend).totalFragments ∧
      (announcedBuffer streamToSend).totalFragments < 2 ^ 32 - 1 := by
    have htotal : (announcedBuffer streamToSend).totalFragments =
        calculateFragmentCount (streamToSend.length % 2 ^ 32) := mod_eq_of_lt (by omega)
    rw [htotal]
    refine ⟨(mod_le _ _).trans ?_, hcount⟩
    unfold calculateFragmentCount
    dsimp only
    split_ifs <;> omega
  have hlength : ((payloads streamId streamToSend metadata).take
      (announcedBuffer streamToSend).minCompleteFragments).length =
        (announcedBuffer streamToSend).minCompleteFragments := by
    rw [length_take, length_payloads]
    omega
  constructor
  · exact hlength.symm
  · rw [hlength]
    exact hbase.1
  · intro f hf
    obtain ⟨i, hget⟩ := mem_iff_getElem?.mp hf
    rw [getElem?_take] at hget
    split_ifs at hget with hi
    obtain ⟨hnumb, hpayl⟩ := fragment_at hget (by omega)
    refine .inr (.inr ?_)
    rw [getElem?_take_of_lt (by omega)]
    exact hpayl
  · intro i hi
    rw [hlength] at hi
    have hlt' : i < (sendStream streamId streamToSend metadata).length := by
      rw [length_sendStream]
      omega
    have hget := getElem?_eq_getElem hlt'
    refine ⟨_, mem_iff_getElem?.mpr ⟨i, ?_⟩, (fragment_at hget (by omega)).1⟩
    rw [getElem?_take_of_lt hi]
    exact hget

/-- Fragments that complete the buffer by their number are the parts it waits for. -/
theorem supplies_of_fits (hfits : MetadataFits metadata) (hlength : streamToSend.length < 2 ^ 32)
    (hnonempty : streamToSend ≠ []) (hlast : FitsLastFragment streamToSend metadata) :
    Supplies (payloads streamId streamToSend metadata) (sendStream streamId streamToSend metadata)
      (announcedBuffer streamToSend) := by
  have hmin := (announced_room hfits hlength fun hempty => absurd hempty hnonempty).1
  have hbase := (totalPackets_le_base_iff hfits hnonempty).mpr hlast
  have hcount := calculateFragmentCount_small hlength
  have hall : (announcedBuffer streamToSend).minCompleteFragments = totalPackets streamToSend metadata := by
    refine le_antisymm hmin ?_
    rw [length_announced hlength]
    show _ ≤ baseFragmentCount streamToSend.length % 2 ^ 32
    rw [mod_eq_of_lt]
    · exact hbase
    · unfold calculateFragmentCount at hcount
      dsimp only at hcount
      split_ifs at hcount <;> omega
  have hfirst : Supplies _ ((sendStream streamId streamToSend metadata).take _) _ :=
    supplies_take hmin
  rwa [hall, take_of_length_le length_payloads.le, take_of_length_le length_sendStream.le] at hfirst

theorem supplies_of_empty : Supplies [] (sendStream streamId [] metadata) (announcedBuffer []) := by
  constructor
  · rfl
  · exact le_refl 0
  · intro f hf
    by_cases hzero : f.fragmentNumber = 0
    · exact .inl hzero
    · exact .inr (.inl (pos_of_ne_zero hzero))
  · intro i hi
    cases hi

theorem minCompleteFragments_lt (hfits : MetadataFits metadata) (hnonempty : streamToSend ≠ [])
    (hcut : ¬ (streamToSend.length < 2 ^ 32 ∧ FitsLastFragment streamToSend metadata)) :
    (announcedBuffer streamToSend).minCompleteFragments < totalPackets streamToSend metadata := by
  have hle : (announcedBuffer streamToSend).minCompleteFragments ≤
      baseFragmentCount (streamToSend.length % 2 ^ 32) := mod_le _ _
  by_cases hlength : streamToSend.length < 2 ^ 32
  · rw [mod_eq_of_lt hlength] at hle
    have hbase := (totalPackets_le_base_iff hfits hnonempty).not.mpr fun hlast => hcut ⟨hlength, hlast⟩
    omega
  · have hall := (totalPackets_bounds hfits fun hempty => absurd hempty hnonempty).1
    unfold baseFragmentCount at hle hall
    rw [ceilDiv_eq_add_pred_div, fragmentPayloadSize_eq] at hle hall
    split_ifs at hle hall <;> omega

/-- Fragments by which the buffer is complete are all that is read if they arrive first. -/
theorem Supplies.cut {parts : List Bytes} {fragments : List StreamFragment}
    (h : Supplies parts fragments (announcedBuffer streamToSend))
    (hsub : ∀ f ∈ fragments, f ∈ sendStream streamId streamToSend metadata)
    (hdeliv : Delivered streamId streamToSend metadata) : parts.flatten = streamToSend := by
  let events := fragments.map fun f => ConsumerEvent.arrives (.fragment f)
  have hnew := holding_announced streamToSend parts
  have hfrom : ∀ e ∈ events, ∀ a ∈ e.arrivals, a.From fragments := by
    intro e he a ha
    obtain ⟨f, hf, rfl⟩ := mem_map.mp he
    cases mem_singleton.mp ha
    exact hf
  have hcalm : ∀ e ∈ events, Arrival.cancel ∉ e.arrivals := by
    intro e he hcanc
    obtain ⟨f, hf, rfl⟩ := mem_map.mp he
    cases mem_singleton.mp hcanc
  have hend : ((start (announcedBuffer streamToSend) false).after
      (events ++ replicate (parts.length + 1) (.polls .quiet))).outcome = some (.ok ()) :=
    h.ends hnew hfrom hcalm (fun f hf => mem_map_of_mem hf) (lt_succ_self _)
  have hall : ∀ e ∈ events ++ replicate (parts.length + 1) (ConsumerEvent.polls .quiet),
      ∀ a ∈ e.arrivals, a.From fragments := by
    intro e he a ha
    rcases mem_append.mp he with he | he
    · exact hfrom e he a ha
    · rw [eq_of_mem_replicate he] at ha
      cases ha
  rw [← h.yielded_of_ended hnew hall hend]
  refine hdeliv.readWhole false _ ?_ hend
  intro e he a ha
  have hmem := hall e he a ha
  cases a with
  | fragment f => exact hsub f hmem
  | cancel => trivial

/-- A stream is delivered whole exactly if it is announced with its length and metadata displaces
nothing into a fragment of its own. -/
theorem delivered_iff (hfits : MetadataFits metadata) : Delivered streamId streamToSend metadata ↔
      streamToSend.length < 2 ^ 32 ∧ FitsLastFragment streamToSend metadata := by
  constructor
  · intro h
    by_contra hcut
    by_cases hempty : streamToSend = []
    · subst hempty
      exact hcut ⟨by decide, fun _ _ => .inl rfl⟩
    -- The first fragments arrive and are read before the last one arrives.
    have hlt := minCompleteFragments_lt hfits hempty hcut
    have hparts := (supplies_take hlt.le).cut (fun f hf => mem_of_mem_take hf) h
    have hshort : ((payloads streamId streamToSend metadata).take
        (announcedBuffer streamToSend).minCompleteFragments).flatten.length <
          streamToSend.length := length_flatten_take_lt hempty hlt
    rw [hparts] at hshort
    exact absurd hshort (lt_irrefl _)
  · rintro ⟨hlength, hlast⟩
    by_cases hempty : streamToSend = []
    · subst hempty
      exact supplies_of_empty.delivered rfl (zero_le _)
    · exact (supplies_of_fits hfits hlength hempty hlast).delivered flatten_payloads
        (le_of_eq length_payloads)

/-- Metadata that fits the last fragment of a stream. -/
theorem roomy_stream_delivered : Delivered 5 (replicate 2000 7) (some (replicate 20 1)) := by
  refine (delivered_iff ?_).mpr ⟨?_, ?_⟩
  · rintro bytes ⟨⟩
    decide
  · rw [length_replicate]
    decide
  · rintro bytes ⟨⟩
    right
    rw [length_replicate]
    decide

/-- A stream that fills one fragment and is displaced from it by its metadata. -/
def displacedStream : Bytes := replicate 1130 7

def displacedFragment : StreamFragment :=
  (start 5 displacedStream (some [1])).fragment

theorem totalPackets_displaced : totalPackets displacedStream (some [1]) = 2 := by
  simp only [totalPackets, displacedStream, length_replicate]
  decide

theorem displacedFragment_mem : displacedFragment ∈ sendStream 5 displacedStream (some [1]) := by
  unfold sendStream
  rw [totalPackets_displaced]
  exact mem_cons_self

/-- Read and piped before its second fragment arrives, the stream ends with its first. -/
theorem stream_ends_before_last_fragment :
    displacedFragment ∈ sendStream 5 displacedStream (some [1]) ∧
      (let c := (start (announcedBuffer displacedStream) false).after
        [.arrives (.fragment displacedFragment), .polls .quiet, .polls .quiet]
      c.outcome.isSome ∧ c.yielded.length = 1120 ∧ c.yielded ≠ displacedStream) ∧
      (let p := (PipeStream.start (announcedBuffer displacedStream) 6 none).after
        [.arrives (.fragment displacedFragment), .turns .quiet, .turns .quiet]
      p.outcome.map Except.toOption = some (some 1120) ∧ p.forwardedBytes ≠ displacedStream) ∧
      ¬ Delivered 5 displacedStream (some [1]) := by
  refine ⟨displacedFragment_mem, by decide +kernel, by decide +kernel, ?_⟩
  intro h
  have hread := h.readWhole false
    [.arrives (.fragment displacedFragment), .polls .quiet, .polls .quiet] ?_ (by decide +kernel)
  · exact absurd hread (by decide +kernel)
  · intro e he a ha
    simp only [mem_cons, not_mem_nil, or_false] at he
    rcases he with rfl | rfl | rfl
    · cases mem_singleton.mp ha
      exact displacedFragment_mem
    · cases ha
    · cases ha

end Freenet.Transport
