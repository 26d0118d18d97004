import Freenet.Lib.BitFilter
import Freenet.Operations.GetOperation
import Mathlib.Data.Nat.Digits.Lemmas

/-! CONNECT operations: visited peers, messages, states, and how a relay decides on a request. -/
namespace Freenet.Operations.Connect
open Lib Node

/-- The keyed hash of socket addresses. -/
class SeededHash where
  hashOne : UInt64 → UInt64 → SocketAddr → UInt64

/-- A hash that adds the keys to the address. -/
@[reducible] def addingHash : SeededHash := ⟨fun key0 key1 addr => key0 + key1 + .ofNat addr⟩

def bloomBits : Nat := 512

structure VisitedPeers where
  bits : BitVec bloomBits
  hashKeys : UInt64 × UInt64

namespace VisitedPeers
open BitFilter Nat List

/-- The two halves of the transaction's id, which is read from its little-endian bytes. -/
def deriveHashKeys (tx : Transaction) : UInt64 × UInt64 :=
  (.ofBitVec (tx.id.extractLsb' 0 64), .ofBitVec (tx.id.extractLsb' 64 64))

def new (tx : Transaction) : VisitedPeers := ⟨0, deriveHashKeys tx⟩

def withTransaction (visited : VisitedPeers) (tx : Transaction) : VisitedPeers :=
  { visited with hashKeys := deriveHashKeys tx }

/-- The filter as another node gets it: the keys are left out when it is written and are zero when
it is read back. -/
def received (visited : VisitedPeers) : VisitedPeers := { visited with hashKeys := (0, 0) }

/-- On the wire there are only the bits, as `BLOOM_BYTES` bytes. -/
def serialize (visited : VisitedPeers) : List Nat := Nat.digitsAppend 256 (bloomBits / 8) visited.bits.toNat

def deserialize (bytes : List Nat) : Option VisitedPeers :=
  if bytes.length = bloomBits / 8 then some ⟨.ofNat bloomBits (Nat.ofDigits 256 bytes), (0, 0)⟩ else none

theorem deserialize_serialize (visited : VisitedPeers) :
    deserialize visited.serialize = some visited.received := by
  have hbits : bloomBits = 8 * (bloomBits / 8) := rfl
  have hlt : visited.bits.toNat < 256 ^ (bloomBits / 8) := by
    calc
      visited.bits.toNat < 2 ^ bloomBits := visited.bits.isLt
      _ = 2 ^ (8 * (bloomBits / 8)) := congrArg (2 ^ ·) hbits
      _ = 256 ^ (bloomBits / 8) := pow_mul 2 8 _
  have hlength : visited.serialize.length = bloomBits / 8 := length_digitsAppend (by decide) _ hlt
  rw [deserialize, if_pos hlength, serialize, digitsAppend, ofDigits_append_replicate_zero,
    ofDigits_digits, BitVec.ofNat_toNat]
  rfl

section Hashed
variable [SeededHash]

def hashIndices (hashKeys : UInt64 × UInt64) (addr : SocketAddr) : List Nat :=
  let h1 := SeededHash.hashOne hashKeys.1 hashKeys.2 addr
  let h2 := SeededHash.hashOne (hashKeys.1 + 0x9e3779b97f4a7c15) (hashKeys.2 + 0x517cc1b727220a95) addr
  [h1.toNat % bloomBits, (h1 + h2).toNat % bloomBits, (h1 + h2 * 2).toNat % bloomBits,
    (h1 + h2 * 3).toNat % bloomBits]

def markVisited (visited : VisitedPeers) (addr : SocketAddr) : VisitedPeers :=
  { visited with bits := setAll visited.bits (hashIndices visited.hashKeys addr) }

def probablyVisited (visited : VisitedPeers) (addr : SocketAddr) : Bool :=
  testAll visited.bits (hashIndices visited.hashKeys addr)

theorem hashIndices_lt {hashKeys : UInt64 × UInt64} {addr : SocketAddr} {i : Nat}
    (hi : i ∈ hashIndices hashKeys addr) : i < bloomBits := by
  have hmod : ∀ h : UInt64, h.toNat % bloomBits < bloomBits := by
    intro h
    exact mod_lt _ (by decide)
  unfold hashIndices at hi
  simp only [mem_cons, not_mem_nil, or_false] at hi
  rcases hi with rfl | rfl | rfl | rfl
  · exact hmod _
  · exact hmod _
  · exact hmod _
  · exact hmod _

/-- There are no false negatives among marks made with the same keys. -/
theorem probablyVisited_markVisited (visited : VisitedPeers) (addr : SocketAddr) :
    (visited.markVisited addr).probablyVisited addr = true :=
  testAll_setAll (fun _ hi => hashIndices_lt hi) visited.bits

theorem hashKeys_markAll (visited : VisitedPeers) (addrs : List SocketAddr) :
    (addrs.foldl markVisited visited).hashKeys = visited.hashKeys := by
  induction addrs generalizing visited with
  | nil => rfl
  | cons addr addrs ih => exact ih (visited.markVisited addr)

theorem probablyVisited_markAll {visited : VisitedPeers} {addrs : List SocketAddr} {addr : SocketAddr}
    (h : addr ∈ addrs ∨ visited.probablyVisited addr = true) :
    (addrs.foldl markVisited visited).probablyVisited addr = true := by
  induction addrs generalizing visited with
  | nil => exact h.resolve_left not_mem_nil
  | cons first addrs ih =>
    refine ih ?_
    rcases h with h | h
    · rcases mem_cons.mp h with rfl | h
      · exact .inr (probablyVisited_markVisited visited addr)
      · exact .inl h
    · exact .inr (testAll_setAll_of_testAll h _)

/-- A further hop reads the filter, binds it to the transaction and marks addresses. -/
def hop (tx : Transaction) (visited : VisitedPeers) (marked : List SocketAddr) : Option VisitedPeers :=
  (deserialize visited.serialize).map fun visited => marked.foldl markVisited (visited.withTransaction tx)

def route (tx : Transaction) (first : List SocketAddr) (later : List (List SocketAddr)) :
    Option VisitedPeers :=
  later.foldlM (hop tx) (first.foldl markVisited (new tx))

theorem hop_eq {tx : Transaction} {visited : VisitedPeers} (hkeys : visited.hashKeys = deriveHashKeys tx)
    (marked : List SocketAddr) : hop tx visited marked = some (marked.foldl markVisited visited) := by
  have hbound : visited.received.withTransaction tx = visited := by
    rw [withTransaction, ← hkeys]
    rfl
  rw [hop, deserialize_serialize, Option.map_some, hbound]

theorem route_eq (tx : Transaction) (first : List SocketAddr) (later : List (List SocketAddr)) :
    route tx first later = some ((first ++ later.flatten).foldl markVisited (new tx)) := by
  unfold route
  induction later generalizing first with
  | nil => simp
  | cons marked later ih =>
    rw [foldlM_cons, hop_eq (hashKeys_markAll (new tx) first), Option.bind_eq_bind, Option.bind_some,
      ← foldl_append, ih, flatten_cons, append_assoc]

/-- Whatever was marked on the way is known at the end of it, however many hops there were. -/
theorem marked_known_on_route (tx : Transaction) (first : List SocketAddr) (later : List (List SocketAddr))
    {addr : SocketAddr} (haddr : addr ∈ first ∨ ∃ marked ∈ later, addr ∈ marked) :
    ∃ visited, route tx first later = some visited ∧ visited.probablyVisited addr = true := by
  refine ⟨_, route_eq tx first later, probablyVisited_markAll (.inl ?_)⟩
  rwa [mem_append, mem_flatten]

end Hashed

theorem first_mark_known_two_hops_later :
    ∃ visited, @route addingHash ⟨5, none⟩ [1] [[2], []] = some visited ∧
    @probablyVisited addingHash visited 1 = true :=
  @marked_known_on_route addingHash ⟨5, none⟩ [1] [[2], []] 1 (.inl (by decide))

end VisitedPeers

/-- Positions on the ring, of circumference one. Floating-point numbers are taken to be exact. -/
abbrev Location := Rat

def Location.distance (a b : Location) : Rat :=
  let d := if a ≤ b then b - a else a - b
  if d < 1 / 2 then d else 1 - d

def ringDistance (a b : Option Location) : Option Rat := do
  let a ← a
  let b ← b
  pure (Location.distance a b)

/-- How long an attempt to forward a request counts as open, in milliseconds. -/
def forwardAttemptTimeout : Nat := 20000

/-- How long a neighbor is left alone after a request was forwarded to it, in milliseconds. -/
def recencyCooldown : Nat := 30000

def minForwardScore : Rat := 15 / 100

def nearTerminusDistance : Rat := 5 / 100

def nearTerminusAcceptProb : Rat := 6 / 10

def defaultUphillBudget : Nat := 8

/-- The difference of scores below which they count as equal. -/
def epsilon : Rat := 1 / 4503599627370496

structure ConnectRequest where
  desiredLocation : Location
  joiner : PeerKeyLocation
  ttl : Nat
  visited : VisitedPeers
  uphillBudget : Nat

structure ConnectResponse where
  acceptor : PeerKeyLocation
  deriving DecidableEq

inductive ConnectMsg where
  | request (id : Transaction) (payload : ConnectRequest)
  | response (id : Transaction) (payload : ConnectResponse)
  | observedAddress (id : Transaction) (address : SocketAddr)
  | rejected (id : Transaction) (desiredLocation : Location)
  | connectFailed (id : Transaction) (failedAcceptorAddr : SocketAddr)

structure JoinerState where
  targetConnections : Nat
  observedAddress : Option SocketAddr
  accepted : Finset PeerKeyLocation
  startedWithoutAddress : Bool

structure RelayState where
  upstreamAddr : SocketAddr
  request : ConnectRequest
  forwardedTo : Option PeerKeyLocation
  observedSent : Bool
  acceptedLocally : Bool
  responseForwarded : Bool

inductive ConnectState where
  | waitingForResponses (state : JoinerState)
  | relaying (state : RelayState)
  | completed

structure RelayActions where
  acceptResponse : Option ConnectResponse
  expectConnectionFrom : Option PeerKeyLocation
  forward : Option (PeerKeyLocation × ConnectRequest)
  observedAddress : Option SocketAddr
  rejected : Bool

structure ForwardAttempt where
  peer : PeerKeyLocation
  desired : Location
  sentAt : Nat

structure ConnectOp where
  id : Transaction
  state : Option ConnectState
  firstHop : Option PeerKeyLocation
  desiredLocation : Option Location
  recency : Table PeerKeyLocation Nat
  forwardAttempts : List ForwardAttempt

/-- What a node finds while it handles one message: ring, router, clocks and channels. `connections`
holds the connection picked at each location of the ring. -/
structure Environment where
  build : Build
  ownLocation : PeerKeyLocation
  fromAddress : SocketAddr → Location
  now : Nat
  routingNow : Nat
  admitsConnect : Bool
  blockedAddresses : SocketAddr → Bool
  ringAccepts : Location → SocketAddr → Bool
  connections : List PeerKeyLocation
  isTransient : SocketAddr → Bool
  excludedPeers : SocketAddr → Bool
  estimateSuccess : PeerKeyLocation → Location → Option Rat
  selectPeer : List PeerKeyLocation → Location → Option PeerKeyLocation
  selectPeer_mem : ∀ {peers target peer}, selectPeer peers target = some peer → peer ∈ peers
  roll : Rat
  sends : SocketAddr → Bool
  expectsConnections : Bool
  connectsPeers : Bool
  connectResult : PeerKeyLocation → Option Bool
  popsOp : Bool
  keepsOp : Bool

def peerAt (addr : SocketAddr) : PeerKeyLocation := ⟨addr, some addr⟩

/-- A node that has these neighbors and accepts nobody, in a release build with open channels; its
attempts to connect fail. -/
def Environment.plain (own : PeerKeyLocation) (neighbors : List SocketAddr) : Environment where
  build := ⟨false, false⟩
  ownLocation := own
  fromAddress _ := 0
  now := 0
  routingNow := 0
  admitsConnect := true
  blockedAddresses _ := false
  ringAccepts _ _ := false
  connections := neighbors.map peerAt
  isTransient _ := false
  excludedPeers _ := false
  estimateSuccess _ _ := none
  selectPeer peers _ := peers.head?
  selectPeer_mem := List.mem_of_head?
  roll := 1
  sends _ := true
  expectsConnections := true
  connectsPeers := true
  connectResult _ := none
  popsOp := true
  keepsOp := true

def ConnectRequest.received (request : ConnectRequest) : ConnectRequest :=
  { request with visited := request.visited.received }

def ConnectMsg.isRequest : ConnectMsg → Bool
  | request _ _ => true
  | _ => false

/-- Leave out peers with a low score, unless nothing else would be left. -/
def filterLowScorePeers (scored : List (Rat × PeerKeyLocation)) (eligibleCount : Nat) :
    List (Rat × PeerKeyLocation) :=
  if scored.length + eligibleCount ≤ 1 then scored
  else if 0 < (scored.filter fun s => minForwardScore ≤ s.1).length ∨ 0 < eligibleCount then
    scored.filter fun s => minForwardScore ≤ s.1
  else scored

namespace Environment
variable (env : Environment)

def location (peer : PeerKeyLocation) : Option Location := peer.socketAddr.map env.fromAddress

def shouldAccept (joiner : PeerKeyLocation) : Bool :=
  match joiner.socketAddr with
  | none => false
  | some addr => !env.blockedAddresses addr && env.ringAccepts (env.fromAddress addr) addr

def estimate (peer : PeerKeyLocation) (desired : Location) : Option Rat := do
  let _ ← env.location peer
  let p ← env.estimateSuccess peer desired
  pure (max 0 (min 1 p))

def coolingDown (recency : Table PeerKeyLocation Nat) (peer : PeerKeyLocation) : Bool :=
  match recency.get peer with
  | none => false
  | some forwardedAt => env.routingNow - forwardedAt < recencyCooldown

variable [SeededHash]

def skips (visited : VisitedPeers) (addr : SocketAddr) : Bool :=
  env.ownLocation.socketAddr = some addr || env.excludedPeers addr || visited.probablyVisited addr

def routingCandidates (visited : VisitedPeers) : List PeerKeyLocation :=
  env.connections.filter fun conn => match conn.socketAddr with
    | none => false
    | some addr => !env.isTransient addr && !env.skips visited addr

/-- A neighbor that is farther from the target than this node. -/
def isFarther (desired : Location) (peer : PeerKeyLocation) : Bool :=
  match ringDistance (env.location peer) (some desired),
    ringDistance (env.location env.ownLocation) (some desired) with
  | some d, some own => own < d
  | _, _ => false

/-- The neighbor to which the request is forwarded on its way to the target. -/
def selectNextHop (desired : Location) (visited : VisitedPeers)
    (recency : Table PeerKeyLocation Nat) : Option PeerKeyLocation :=
  let closer := (env.routingCandidates visited).filter fun cand =>
    !env.coolingDown recency cand && !env.isFarther desired cand
  let eligible := closer.filter fun cand => (env.estimate cand desired).isNone
  let scored := filterLowScorePeers
    (closer.filterMap fun cand => (env.estimate cand desired).map fun score => (score, cand))
    eligible.length
  let bestScore := (scored.map Prod.fst).foldl max 0
  let best := (scored.filter fun s =>
    (if s.1 ≤ bestScore then bestScore - s.1 else s.1 - bestScore) < epsilon).map Prod.snd
  if best.isEmpty then
    if eligible.isEmpty then none else env.selectPeer eligible desired
  else env.selectPeer best desired

/-- The neighbor to which the request goes when this node is the closest one but cannot accept. -/
def selectUphillHop (desired : Location) (visited : VisitedPeers)
    (recency : Table PeerKeyLocation Nat) : Option PeerKeyLocation :=
  let eligible := (env.routingCandidates visited).filter fun cand => !env.coolingDown recency cand
  let isClose := fun cand => match ringDistance (env.location cand) (some desired) with
    | none => false
    | some d => decide (d < nearTerminusDistance * 2)
  let close := eligible.filter isClose
  if eligible.isEmpty then none
  else if close.isEmpty then env.selectPeer (eligible.filter fun cand => !isClose cand) desired
  else env.selectPeer close desired

end Environment

/-! A relay marks whom it has seen, forwards a request, accepts the joiner, or goes uphill. -/
open List

structure RelayTurn where
  state : RelayState
  forwardAttempts : List ForwardAttempt
  actions : RelayActions

/-- Nothing but the joiner's address, if it was discovered here. -/
def RelayActions.observing (observedAddress : Option SocketAddr) : RelayActions :=
  ⟨none, none, none, observedAddress, false⟩

namespace RelayState
variable (env : Environment) (s : RelayState) (recency : Table PeerKeyLocation Nat)
  (forwardAttempts : List ForwardAttempt) (observedAddress : Option SocketAddr)

/-- Whom the relay marks as visited when it looks at the request. -/
def marks : List SocketAddr := s.upstreamAddr :: env.ownLocation.socketAddr.toList

def forwardToPeer (peer : PeerKeyLocation) : RelayState × List ForwardAttempt :=
  ({ s with request := { s.request with ttl := s.request.ttl - 1 }, forwardedTo := some peer },
    forwardAttempts.filter (fun attempt => attempt.peer ≠ peer) ++ [⟨peer,
      s.request.desiredLocation, env.now⟩])

def accept (forward : Option (PeerKeyLocation × ConnectRequest)) : RelayTurn where
  state := { s with acceptedLocally := true }
  forwardAttempts := forwardAttempts
  actions := ⟨some ⟨⟨env.ownLocation.pubKey, none⟩⟩, some s.request.joiner, forward, observedAddress, false⟩

/-- Close to the target a relay may accept although it can forward. -/
def acceptsNearTerminus : Bool :=
  match ringDistance (env.location env.ownLocation) (some s.request.desiredLocation) with
  | none => false
  | some d =>
    d < nearTerminusDistance &&
      env.roll < nearTerminusAcceptProb * (1 - d / nearTerminusDistance) &&
      env.shouldAccept s.request.joiner

def forwardOn (next : PeerKeyLocation) : RelayTurn :=
  let forwarded := s.forwardToPeer env forwardAttempts next
  let forward := some (next, forwarded.1.request)
  if !forwarded.1.acceptedLocally && forwarded.1.acceptsNearTerminus env then
    forwarded.1.accept env forwarded.2 observedAddress forward
  else ⟨forwarded.1, forwarded.2, { RelayActions.observing observedAddress with forward := forward }⟩

section Hashed
variable [SeededHash]

/-- Mark upstream and this node as visited, and fill in the joiner's address from the source of the
request if it is not known yet. -/
def observe : RelayState × Option SocketAddr :=
  let visited := s.request.visited.markVisited s.upstreamAddr
  let visited := match env.ownLocation.socketAddr with
    | none => visited
    | some addr => visited.markVisited addr
  match s.request.joiner.socketAddr with
  | some _ => ({ s with request := { s.request with visited := visited } }, none)
  | none =>
    ({ s with
        request := { s.request with
          visited := visited, joiner := ⟨s.request.joiner.pubKey, some s.upstreamAddr⟩ }
        observedSent := true },
      if s.observedSent then none else some s.upstreamAddr)

/-- The relay cannot accept: give peers farther from the target a chance, or reject. -/
def goUphill : RelayTurn :=
  let rejected : RelayTurn :=
    ⟨s, forwardAttempts, { RelayActions.observing observedAddress with rejected := true }⟩
  if 0 < s.request.uphillBudget ∧ 2 ≤ s.request.ttl then
    match env.selectUphillHop s.request.desiredLocation s.request.visited recency with
    | none => rejected
    | some peer =>
      let forwarded := s.forwardToPeer env forwardAttempts peer
      let request := { forwarded.1.request with
        uphillBudget := forwarded.1.request.uphillBudget - 1 }
      ⟨{ forwarded.1 with request := request }, forwarded.2,
        { RelayActions.observing observedAddress with forward := some (peer, request) }⟩
  else rejected

def atTerminus : RelayTurn :=
  if s.acceptedLocally || s.forwardedTo.isSome then
    ⟨s, forwardAttempts, RelayActions.observing observedAddress⟩
  else if env.shouldAccept s.request.joiner then s.accept env forwardAttempts observedAddress none
  else s.goUphill env recency forwardAttempts observedAddress

def nextHop : Option PeerKeyLocation :=
  if s.forwardedTo.isNone && 0 < s.request.ttl then
    env.selectNextHop s.request.desiredLocation s.request.visited recency
  else none

def handleRequest : RelayTurn :=
  let observed := s.observe env
  match observed.1.nextHop env recency with
  | some next => observed.1.forwardOn env forwardAttempts observed.2 next
  | none => observed.1.atTerminus env recency forwardAttempts observed.2

def accepts : Bool :=
  let observed := (s.observe env).1
  !s.acceptedLocally && match observed.nextHop env recency with
    | some _ => observed.acceptsNearTerminus env
    | none => observed.forwardedTo.isNone && env.shouldAccept observed.request.joiner

end Hashed
end RelayState

theorem mem_of_mem_filterLowScorePeers {scored : List (Rat × PeerKeyLocation)} {n : Nat}
    {s : Rat × PeerKeyLocation} (h : s ∈ filterLowScorePeers scored n) : s ∈ scored := by
  unfold filterLowScorePeers at h
  split_ifs at h
  · exact h
  · exact mem_of_mem_filter h
  · exact h

section Selection
variable [SeededHash] {env : Environment} {visited : VisitedPeers} {peer : PeerKeyLocation}
  {desired : Location} {recency : Table PeerKeyLocation Nat}

namespace Environment

theorem mem_routingCandidates (h : peer ∈ env.routingCandidates visited) : peer ∈ env.connections ∧
      ∃ addr, peer.socketAddr = some addr ∧ env.skips visited addr = false := by
  obtain ⟨hmem, hkept⟩ := mem_filter.mp h
  refine ⟨hmem, ?_⟩
  cases haddr : peer.socketAddr with
  | none =>
    rw [haddr] at hkept
    exact Bool.noConfusion hkept
  | some addr =>
    rw [haddr] at hkept
    exact ⟨addr, rfl, by simpa using (Bool.and_eq_true_iff.mp hkept).2⟩

theorem selectNextHop_mem (h : env.selectNextHop desired visited recency = some peer) :
    peer ∈ env.routingCandidates visited := by
  unfold selectNextHop at h
  dsimp only at h
  split_ifs at h
  · have hmem := env.selectPeer_mem h
    exact mem_of_mem_filter (mem_of_mem_filter hmem)
  · have hmem := env.selectPeer_mem h
    obtain ⟨s, hs, rfl⟩ := mem_map.mp hmem
    have hscor := mem_of_mem_filterLowScorePeers (mem_of_mem_filter hs)
    obtain ⟨cand, hcand, heq⟩ := mem_filterMap.mp hscor
    obtain ⟨score, _, rfl⟩ := Option.map_eq_some_iff.mp heq
    exact mem_of_mem_filter hcand

theorem selectUphillHop_mem (h : env.selectUphillHop desired visited recency = some peer) :
    peer ∈ env.routingCandidates visited := by
  unfold selectUphillHop at h
  dsimp only at h
  split_ifs at h
  · exact mem_of_mem_filter (mem_of_mem_filter (env.selectPeer_mem h))
  · exact mem_of_mem_filter (mem_of_mem_filter (env.selectPeer_mem h))

end Environment

/-- What a look at a request leaves alone, whom it forwards to, and what goes with an acceptance.
Here `s` is the relay's state with the marks of this look. -/
structure RelayTurn.Follows (env : Environment) (s : RelayState) (turn : RelayTurn) : Prop where
  upstreamAddr : turn.state.upstreamAddr = s.upstreamAddr
  visited : turn.state.request.visited = s.request.visited
  joiner : turn.state.request.joiner = s.request.joiner
  forward : ∀ {peer request}, turn.actions.forward = some (peer, request) →
    request = turn.state.request ∧ peer ∈ env.routingCandidates s.request.visited
  acceptance : turn.state.acceptedLocally = s.acceptedLocally ∧ turn.actions.acceptResponse = none ∧
      turn.actions.expectConnectionFrom = none ∨
    s.acceptedLocally = false ∧ turn.state.acceptedLocally = true ∧
      turn.actions.acceptResponse = some ⟨⟨env.ownLocation.pubKey, none⟩⟩ ∧
      turn.actions.expectConnectionFrom = some s.request.joiner ∧
      env.shouldAccept s.request.joiner = true ∧ turn.actions.rejected = false

namespace RelayState
variable {s : RelayState} {forwardAttempts : List ForwardAttempt}
  {observedAddress : Option SocketAddr}

theorem forwardOn_follows (hpeer : peer ∈ env.routingCandidates s.request.visited) :
    (s.forwardOn env forwardAttempts observedAddress peer).Follows env s := by
  unfold forwardOn
  dsimp only
  split_ifs with hacc
  · obtain ⟨hnot, hnear⟩ := Bool.and_eq_true_iff.mp hacc
    have hjoin : env.shouldAccept s.request.joiner = true := by
      unfold acceptsNearTerminus at hnear
      split at hnear
      · exact Bool.noConfusion hnear
      · exact (Bool.and_eq_true_iff.mp hnear).2
    refine ⟨rfl, rfl, rfl, ?_, .inr ⟨(Bool.not_eq_true' _).mp hnot, rfl, rfl, rfl, hjoin, rfl⟩⟩
    intro next request hforw
    cases hforw
    exact ⟨rfl, hpeer⟩
  · refine ⟨rfl, rfl, rfl, ?_, .inl ⟨rfl, rfl, rfl⟩⟩
    intro next request hforw
    cases hforw
    exact ⟨rfl, hpeer⟩

theorem goUphill_follows : (s.goUphill env recency forwardAttempts observedAddress).Follows env s := by
  have hrej : RelayTurn.Follows env s ⟨s, forwardAttempts,
      { RelayActions.observing observedAddress with rejected := true }⟩ := by
    refine ⟨rfl, rfl, rfl, ?_, .inl ⟨rfl, rfl, rfl⟩⟩
    intro next request hforw
    cases hforw
  unfold goUphill
  split_ifs
  · split
    · exact hrej
    · rename_i peer hhop
      refine ⟨rfl, rfl, rfl, ?_, .inl ⟨rfl, rfl, rfl⟩⟩
      intro next request hforw
      cases hforw
      exact ⟨rfl, Environment.selectUphillHop_mem hhop⟩
  · exact hrej

theorem atTerminus_follows : (s.atTerminus env recency forwardAttempts observedAddress).Follows env s := by
  unfold atTerminus
  split_ifs with hdone hacc
  · refine ⟨rfl, rfl, rfl, ?_, .inl ⟨rfl, rfl, rfl⟩⟩
    intro next request hforw
    cases hforw
  · have hnot : s.acceptedLocally = false := by simp_all
    refine ⟨rfl, rfl, rfl, ?_, .inr ⟨hnot, rfl, rfl, rfl, hacc, rfl⟩⟩
    intro next request hforw
    cases hforw
  · exact goUphill_follows

theorem handleRequest_follows :
    (s.handleRequest env recency forwardAttempts).Follows env (s.observe env).1 := by
  unfold handleRequest
  dsimp only
  split
  · rename_i next hnext
    refine forwardOn_follows ?_
    unfold nextHop at hnext
    split_ifs at hnext
    exact Environment.selectNextHop_mem hnext
  · exact atTerminus_follows

theorem observe_visited : (s.observe env).1.request.visited =
    (s.marks env).foldl VisitedPeers.markVisited s.request.visited := by
  unfold observe marks
  cases env.ownLocation.socketAddr with
  | none | some addr => cases s.request.joiner.socketAddr <;> rfl

theorem observe_acceptedLocally : (s.observe env).1.acceptedLocally = s.acceptedLocally := by
  unfold observe
  cases s.request.joiner.socketAddr <;> rfl

theorem observe_upstreamAddr : (s.observe env).1.upstreamAddr = s.upstreamAddr := by
  unfold observe
  cases s.request.joiner.socketAddr <;> rfl

theorem observe_joinerAddr : ∃ addr, (s.observe env).1.request.joiner.socketAddr = some addr := by
  unfold observe
  cases haddr : s.request.joiner.socketAddr with
  | none => exact ⟨s.upstreamAddr, rfl⟩
  | some addr => exact ⟨addr, haddr⟩

omit [SeededHash] in
theorem forwardOn_acceptedLocally :
    (s.forwardOn env forwardAttempts observedAddress peer).state.acceptedLocally =
      (s.acceptedLocally || s.acceptsNearTerminus env) := by
  have hnear : (s.forwardToPeer env forwardAttempts peer).1.acceptsNearTerminus env =
      s.acceptsNearTerminus env := rfl
  have haccepted : (s.forwardToPeer env forwardAttempts peer).1.acceptedLocally = s.acceptedLocally := rfl
  unfold forwardOn
  dsimp only
  split_ifs with hacc
  · show true = _
    simp_all
  · show s.acceptedLocally = _
    cases hs : s.acceptedLocally <;> simp_all

theorem goUphill_acceptedLocally :
    (s.goUphill env recency forwardAttempts observedAddress).state.acceptedLocally = s.acceptedLocally := by
  unfold goUphill
  split_ifs
  · split <;> rfl
  · rfl

theorem atTerminus_acceptedLocally :
    (s.atTerminus env recency forwardAttempts observedAddress).state.acceptedLocally =
      (s.acceptedLocally || s.forwardedTo.isNone && env.shouldAccept s.request.joiner) := by
  unfold atTerminus
  split_ifs with hdone hacc
  · show s.acceptedLocally = _
    rcases Bool.or_eq_true_iff.mp hdone with haccepted | hforwarded
    · simp [haccepted]
    · obtain ⟨peer, hpeer⟩ := Option.isSome_iff_exists.mp hforwarded
      simp [hpeer]
  · show true = _
    simp_all
  · rw [goUphill_acceptedLocally]
    simp_all

theorem handleRequest_acceptedLocally :
    (s.handleRequest env recency forwardAttempts).state.acceptedLocally =
      (s.acceptedLocally || s.accepts env recency) := by
  unfold handleRequest accepts
  dsimp only
  split
  · rw [forwardOn_acceptedLocally, observe_acceptedLocally]
    cases s.acceptedLocally <;> rfl
  · rw [atTerminus_acceptedLocally, observe_acceptedLocally]
    cases s.acceptedLocally <;> rfl

end RelayState
end Selection
end Freenet.Operations.Connect
