import Freenet.Lib.Entries
import Freenet.Operations.ConnectOperation

/-! The connections of a node: reservations, locations by address, connections by location. -/
namespace Freenet.Ring
open Lib Buckets
open Node (SocketAddr)
open Operations (PeerKeyLocation)
open Operations.Connect (Location)

def pendingReservationTtl : Nat := 60 * 10 ^ 9

def kleinbergFilterMinConnections : Nat := 3

def optimisticReadyTimeout : Nat := 60 * 10 ^ 9

/-- An established connection. Connections are only made to peers with an address. -/
structure Connection where
  pubKey : Nat
  addr : SocketAddr
  deriving DecidableEq

def Connection.location (c : Connection) : PeerKeyLocation := ⟨c.pubKey, some c.addr⟩

structure TransientEntry where
  location : Option Location
  createdAt : Nat

structure ConnectionManager where
  pendingReservations : AList fun _ : SocketAddr => Location × Nat
  locationForPeer : AList fun _ : SocketAddr => Location
  connectionsByLocation : Buckets Location Connection
  ownLocation : Option Location
  ownAddr : Option SocketAddr
  transientConnections : AList fun _ : SocketAddr => TransientEntry
  transientInUse : Nat
  transientBudget : Nat
  transientTtl : Nat
  minConnections : Nat
  maxConnections : Nat
  readyPeers : List SocketAddr
  minReadyConnections : Nat
  connectedSince : Table SocketAddr Nat

namespace ConnectionManager

/-- A manager with any limits that may already know its address and location. -/
def new (ownLocation : Option Location) (ownAddr : Option SocketAddr)
    (transientBudget transientTtl minConnections maxConnections minReadyConnections : Nat) :
    ConnectionManager where
  pendingReservations := ∅
  locationForPeer := ∅
  connectionsByLocation := ∅
  ownLocation := ownLocation
  ownAddr := ownAddr
  transientConnections := ∅
  transientInUse := 0
  transientBudget := transientBudget
  transientTtl := transientTtl
  minConnections := minConnections
  maxConnections := maxConnections
  readyPeers := []
  minReadyConnections := minReadyConnections
  connectedSince := .empty

variable (m : ConnectionManager) (now : Nat) (location : Location) (addr : SocketAddr)

def connectionsAt : List Connection := bucket m.connectionsByLocation location

def connectionCount : Nat := size m.connectionsByLocation

def isEstablished : Bool := (m.connectionsAt location).any fun c => decide (c.addr = addr)

/-- Whether an address has a location but no established connection there. -/
def isUnbacked : Bool :=
  (m.locationForPeer.lookup addr).any fun location => !m.isEstablished location addr

def reservedBefore : Nat :=
  (m.pendingReservations.entries.filter fun e =>
    decide (now - e.2.2 ≤ pendingReservationTtl)).length

/-- The advertised location of a peer that is to be accepted; one that is known already stays. -/
def recordPendingLocation : ConnectionManager :=
  if (m.locationForPeer.lookup addr).isSome then m
  else { m with locationForPeer := m.locationForPeer.insert addr location }

/-- Whether a candidate is wanted while there is room. Its gap score decides, by chance below the
minimum and in comparison with other candidates above it, which is `scored`. -/
def isWanted (opened : Nat) (scored : Bool) : Bool :=
  if opened < m.minConnections && decide (opened < kleinbergFilterMinConnections) then true
  else m.ownLocation.isNone || scored

def shouldAccept (scored : Bool) : ConnectionManager × Bool :=
  let opened := m.connectionCount
  let reserved := m.reservedBefore now
  if m.ownAddr = some addr then (m, false)
  else if (m.locationForPeer.lookup addr).isSome then (m, false)
  else
    let m' := { m with pendingReservations := m.pendingReservations.insert addr (location, now) }
    let rejected := { m' with pendingReservations := m'.pendingReservations.erase addr }
    if 2 ^ 64 ≤ reserved + 1 + opened then (rejected, false)
    else if opened = 0 then (m', true)
    else if m.maxConnections ≤ reserved + 1 + opened then (rejected, false)
    else if m.isWanted opened scored then (m'.recordPendingLocation location addr, true)
    else (rejected, false)

def clearPendingReservationsFor (addrs : List SocketAddr) : ConnectionManager :=
  let removed := addrs.filter fun addr => (m.pendingReservations.lookup addr).isSome
  { m with
    pendingReservations :=
      addrs.foldl (fun pending addr => pending.erase addr) m.pendingReservations
    locationForPeer :=
      removed.foldl (fun locations addr => locations.erase addr) m.locationForPeer }

/-- Together with the number of reservations and locations that were removed. -/
def cleanupStaleReservations : ConnectionManager × Nat :=
  let pending := retainEntries (fun _ r => decide (now - r.2 ≤ pendingReservationTtl))
    m.pendingReservations
  let locations := retainEntries
    (fun addr location => m.isEstablished location addr || (pending.lookup addr).isSome)
    m.locationForPeer
  ({ m with pendingReservations := pending, locationForPeer := locations },
    (m.pendingReservations.entries.length - pending.entries.length) +
      (m.locationForPeer.entries.length - locations.entries.length))

def injectReservation (created : Nat) : ConnectionManager :=
  { m with pendingReservations := m.pendingReservations.insert addr (location, created) }

def tryRegisterTransient (advertised : Option Location) : ConnectionManager × Bool :=
  match m.transientConnections.lookup addr with
  | some entry =>
    ({ m with
        transientConnections :=
          m.transientConnections.insert addr { entry with location := advertised } },
      true)
  | none =>
    if m.transientBudget ≤ m.transientInUse then (m, false)
    else
      ({ m with
        transientConnections := m.transientConnections.insert addr ⟨advertised, now⟩
        transientInUse := m.transientInUse + 1 }, true)

def dropTransient : ConnectionManager :=
  if (m.transientConnections.lookup addr).isSome then
    { m with
      transientConnections := m.transientConnections.erase addr
      transientInUse := m.transientInUse - 1 }
  else m

def isTransient : Bool := (m.transientConnections.lookup addr).isSome

def cleanupExpiredTransients : ConnectionManager :=
  let kept := retainEntries (fun _ entry => decide (now - entry.createdAt ≤ m.transientTtl))
    m.transientConnections
  { m with
    transientConnections := kept
    transientInUse :=
      m.transientInUse - (m.transientConnections.entries.length - kept.entries.length) }

def replaceAt (previous : Option Location) : Buckets Location Connection :=
  match previous with
  | none => m.connectionsByLocation
  | some location => takeFrom m.connectionsByLocation location fun c => decide (c.addr = addr)

def isRejected : Bool :=
  (m.locationForPeer.lookup addr).isNone && decide (m.maxConnections ≤ m.connectionCount)

/-- A reservation is used up by the connection it was made for. -/
def useReservation (wasReserved : Bool) : ConnectionManager :=
  { m with
    pendingReservations :=
      if wasReserved then m.pendingReservations.erase addr else m.pendingReservations }

def addConnection (pubKey : Nat) (wasReserved : Bool) : ConnectionManager × Bool :=
  let m := m.useReservation addr wasReserved
  let previous := m.locationForPeer.lookup addr
  if m.isRejected addr then
    ({ m with locationForPeer := (m.locationForPeer.insert addr location).erase addr }, false)
  else
    ({ m.dropTransient addr with
      locationForPeer := m.locationForPeer.insert addr location
      connectionsByLocation := push (m.replaceAt addr previous) location ⟨pubKey, addr⟩
      connectedSince := m.connectedSince.insert addr now }, true)

/-- The connection that was made to the old address, or else a further one, is with the new address
from now on. -/
def renamedAt (oldAddr newAddr : SocketAddr) (newPubKey : Nat) : List Connection :=
  if m.isEstablished location oldAddr then
    modifyFirst (fun c => decide (c.addr = oldAddr)) (fun _ => ⟨newPubKey, newAddr⟩)
      (m.connectionsAt location)
  else m.connectionsAt location ++ [⟨newPubKey, newAddr⟩]

def updatePeerIdentity (oldAddr newAddr : SocketAddr) (newPubKey : Nat) :
    ConnectionManager × Bool :=
  if oldAddr = newAddr then (m, false)
  else
    match m.locationForPeer.lookup oldAddr with
    | none => (m, false)
    | some location =>
      ({ m with
        locationForPeer := (m.locationForPeer.erase oldAddr).insert newAddr location
        connectionsByLocation :=
          m.connectionsByLocation.insert location (m.renamedAt location oldAddr newAddr newPubKey)
        connectedSince :=
          match m.connectedSince.get oldAddr with
          | none => m.connectedSince
          | some since => (m.connectedSince.remove oldAddr).insert newAddr since }, true)

def pruneConnection (isAlive : Bool) : ConnectionManager × Option Location :=
  let pending := if isAlive then m.pendingReservations else m.pendingReservations.erase addr
  match m.locationForPeer.lookup addr with
  | none => ({ m with pendingReservations := pending }, none)
  | some location =>
    ({ m with
      pendingReservations := pending
      locationForPeer := m.locationForPeer.erase addr
      connectionsByLocation :=
        if m.isEstablished location addr then
          takeFrom m.connectionsByLocation location fun c => decide (c.addr = addr)
        else m.connectionsByLocation
      readyPeers := m.readyPeers.erase addr
      connectedSince := m.connectedSince.remove addr }, some location)

def isPeerReady : Bool :=
  decide (m.minReadyConnections = 0) || decide (addr ∈ m.readyPeers) ||
    (m.connectedSince.get addr).any fun since => decide (optimisticReadyTimeout ≤ now - since)

end ConnectionManager

/-- Calls that touch neither reservations nor locations nor connections. -/
inductive AsideCall where
  | tryRegisterTransient (addr : SocketAddr) (advertised : Option Location) (now : Nat)
  | dropTransient (addr : SocketAddr)
  | cleanupExpiredTransients (now : Nat)
  | setOwnAddr (addr : SocketAddr)
  | trySetOwnAddr (addr : SocketAddr)
  | updateLocation (location : Option Location)
  | markPeerReady (addr : SocketAddr)
  | markPeerNotReady (addr : SocketAddr)

/-- The calls that change the manager, with what time and chance supply. -/
inductive ConnectionEvent where
  | shouldAccept (location : Location) (addr : SocketAddr) (now : Nat) (scored : Bool)
  | addConnection (location : Location) (addr : SocketAddr) (pubKey : Nat)
    (wasReserved : Bool) (now : Nat)
  | updatePeerIdentity (oldAddr newAddr : SocketAddr) (newPubKey : Nat)
  | pruneConnection (addr : SocketAddr) (isAlive : Bool)
  | cleanupStaleReservations (now : Nat)
  | clearPendingReservationsFor (addrs : List SocketAddr)
  | recordPendingLocation (location : Location) (addr : SocketAddr)
  | injectReservation (location : Location) (addr : SocketAddr) (created : Nat)
  | aside (call : AsideCall)

namespace ConnectionManager

def applyAside (m : ConnectionManager) : AsideCall → ConnectionManager
  | .tryRegisterTransient addr advertised now => (m.tryRegisterTransient now addr advertised).1
  | .dropTransient addr => m.dropTransient addr
  | .cleanupExpiredTransients now => m.cleanupExpiredTransients now
  | .setOwnAddr addr => { m with ownAddr := some addr }
  | .trySetOwnAddr addr => { m with ownAddr := m.ownAddr.or (some addr) }
  | .updateLocation location =>
    -- a location that is set is only ever cleared
    { m with ownLocation := location.bind fun location => m.ownLocation.or (some location) }
  | .markPeerReady addr => { m with readyPeers := m.readyPeers.insert addr }
  | .markPeerNotReady addr => { m with readyPeers := m.readyPeers.erase addr }

def panics (build : Build) (m : ConnectionManager) (addr : SocketAddr) : Bool :=
  build.debugAssertions && decide (m.ownAddr = some addr)

def apply (build : Build) (m : ConnectionManager) : ConnectionEvent → Option ConnectionManager
  | .shouldAccept location addr now scored => some (m.shouldAccept now location addr scored).1
  | .addConnection location addr pubKey wasReserved now =>
    if panics build m addr then none
    else some (m.addConnection now location addr pubKey wasReserved).1
  | .updatePeerIdentity oldAddr newAddr newPubKey =>
    some (m.updatePeerIdentity oldAddr newAddr newPubKey).1
  | .pruneConnection addr isAlive => some (m.pruneConnection addr isAlive).1
  | .cleanupStaleReservations now => some (m.cleanupStaleReservations now).1
  | .clearPendingReservationsFor addrs => some (m.clearPendingReservationsFor addrs)
  | .recordPendingLocation location addr => some (m.recordPendingLocation location addr)
  | .injectReservation location addr created => some (m.injectReservation location addr created)
  | .aside call => some (m.applyAside call)

end ConnectionManager

def connectionCalls (build : Build) : Machine ConnectionManager ConnectionEvent where
  init m := ∃ ownLocation ownAddr transientBudget transientTtl minConnections maxConnections
      minReadyConnections,
    m = .new ownLocation ownAddr transientBudget transientTtl minConnections maxConnections
      minReadyConnections
  step m e := m.apply build e

namespace ConnectionManager
variable {m : ConnectionManager} {now : Nat} {location : Location} {addr : SocketAddr}

structure SameTables (m m' : ConnectionManager) : Prop where
  pendingReservations : m'.pendingReservations = m.pendingReservations
  locationForPeer : m'.locationForPeer = m.locationForPeer
  connectionsByLocation : m'.connectionsByLocation = m.connectionsByLocation
  maxConnections : m'.maxConnections = m.maxConnections

theorem sameTables_dropTransient : SameTables m (m.dropTransient addr) := by
  unfold dropTransient
  split_ifs <;> exact ⟨rfl, rfl, rfl, rfl⟩

theorem sameTables_applyAside {call : AsideCall} : SameTables m (m.applyAside call) := by
  cases call with
  | tryRegisterTransient addr advertised now =>
    unfold applyAside tryRegisterTransient
    dsimp only
    split
    · exact ⟨rfl, rfl, rfl, rfl⟩
    · split_ifs <;> exact ⟨rfl, rfl, rfl, rfl⟩
  | dropTransient addr => exact sameTables_dropTransient
  | cleanupExpiredTransients now | setOwnAddr addr | trySetOwnAddr addr | updateLocation location
  | markPeerReady addr | markPeerNotReady addr => exact ⟨rfl, rfl, rfl, rfl⟩

theorem shouldAccept_cases (m : ConnectionManager) (now : Nat) (location : Location)
    (addr : SocketAddr) (scored : Bool) : (m.shouldAccept now location addr scored).1 = m ∨
    m.locationForPeer.lookup addr = none ∧ ((m.shouldAccept now location addr scored).1 =
          { m with pendingReservations := m.pendingReservations.insert addr (location, now) } ∨
        (m.shouldAccept now location addr scored).1 =
          { m with
            pendingReservations := m.pendingReservations.insert addr (location, now)
            locationForPeer := m.locationForPeer.insert addr location } ∨
        (m.shouldAccept now location addr scored).1 =
          { m with
            pendingReservations :=
              (m.pendingReservations.insert addr (location, now)).erase addr }) := by
  unfold shouldAccept
  dsimp only
  split_ifs with hown hknown
  · exact .inl rfl
  · exact .inl rfl
  all_goals refine .inr ⟨Option.not_isSome_iff_eq_none.mp hknown, ?_⟩
  · exact .inr (.inr rfl)
  · exact .inl rfl
  · exact .inr (.inr rfl)
  · refine .inr (.inl ?_)
    unfold recordPendingLocation
    rw [if_neg hknown]
  · exact .inr (.inr rfl)

variable (m now location addr) (pubKey : Nat) (wasReserved : Bool)

theorem connectionsByLocation_addConnection :
    (m.addConnection now location addr pubKey wasReserved).1.connectionsByLocation =
      if m.isRejected addr then m.connectionsByLocation
      else push (m.replaceAt addr (m.locationForPeer.lookup addr)) location
        ⟨pubKey, addr⟩ := by
  have hrej : (m.useReservation addr wasReserved).isRejected addr = m.isRejected addr := rfl
  unfold addConnection
  dsimp only
  rw [hrej]
  cases m.isRejected addr <;> rfl

theorem locationForPeer_addConnection :
    (m.addConnection now location addr pubKey wasReserved).1.locationForPeer =
      if m.isRejected addr then (m.locationForPeer.insert addr location).erase addr
      else m.locationForPeer.insert addr location := by
  have hrej : (m.useReservation addr wasReserved).isRejected addr = m.isRejected addr := rfl
  unfold addConnection
  dsimp only
  rw [hrej]
  cases m.isRejected addr <;> rfl

theorem pendingReservations_addConnection :
    (m.addConnection now location addr pubKey wasReserved).1.pendingReservations =
      (m.useReservation addr wasReserved).pendingReservations := by
  unfold addConnection
  dsimp only
  split_ifs
  · rfl
  · exact sameTables_dropTransient.pendingReservations

theorem maxConnections_addConnection :
    (m.addConnection now location addr pubKey wasReserved).1.maxConnections = m.maxConnections := by
  unfold addConnection
  dsimp only
  split_ifs
  · rfl
  · exact sameTables_dropTransient.maxConnections

end ConnectionManager

/-! The peers that a request may be routed to: one connection of each location, picked at random. -/
open List ConnectionManager

/-- `GlobalRng::choose`, for the number that the generator yields. -/
def choose {α : Type*} (number : Nat) (slice : List α) : Option α := slice[number % slice.length]?

variable {α : Type*} {slice : List α}

theorem mem_of_choose {number : Nat} {a : α} (h : choose number slice = some a) : a ∈ slice :=
  mem_of_getElem? h

theorem choose_isSome (h : slice ≠ []) (number : Nat) : ∃ a, choose number slice = some a :=
  ⟨_, getElem?_eq_getElem (Nat.mod_lt number (length_pos_of_ne_nil h))⟩

theorem exists_choose {a : α} (h : a ∈ slice) : ∃ number, choose number slice = some a := by
  obtain ⟨i, hi, rfl⟩ := getElem_of_mem h
  refine ⟨i, ?_⟩
  unfold choose
  rw [Nat.mod_eq_of_lt hi, getElem?_eq_getElem hi]

namespace ConnectionManager
variable (m : ConnectionManager) (now : Nat) (requesting : Option SocketAddr)
  (skipList : SocketAddr → Bool) (checkReadiness : Bool) (random : Location → Nat)

def sortedConns (location : Location) : List Connection :=
  (m.connectionsAt location).insertionSort fun c d => c.addr ≤ d.addr

def isExcluded (addr : SocketAddr) : Bool :=
  m.isTransient addr || decide (requesting = some addr) || skipList addr

/-- One round of the loop, with the candidates and the peers to fall back on. -/
def consider (lists : List PeerKeyLocation × List PeerKeyLocation) (location : Location) :
    List PeerKeyLocation × List PeerKeyLocation :=
  match choose (random location) (m.sortedConns location) with
  | none => lists
  | some conn =>
    if m.isExcluded requesting skipList conn.addr then lists
    else if checkReadiness && !m.isPeerReady now conn.addr then
      (lists.1, lists.2 ++ [conn.location])
    else (lists.1 ++ [conn.location], lists.2)

def routingCandidates : List PeerKeyLocation :=
  let sortedKeys := m.connectionsByLocation.keys.insertionSort (· ≤ ·)
  let (candidates, notReadyFallback) :=
    sortedKeys.foldl (m.consider now requesting skipList checkReadiness random) ([], [])
  if checkReadiness && candidates.isEmpty && !notReadyFallback.isEmpty then notReadyFallback
  else candidates

def FoundNone (lists : List PeerKeyLocation × List PeerKeyLocation) : Prop :=
  lists.1 = [] ∧ (checkReadiness = true → lists.2 = [])

def PicksExcluded (location : Location) : Prop :=
  ∀ conn, choose (random location) (m.sortedConns location) = some conn →
    m.isExcluded requesting skipList conn.addr = true

variable {m now requesting skipList checkReadiness random}
  {lists : List PeerKeyLocation × List PeerKeyLocation} {location : Location}

theorem mem_sortedConns {c : Connection} :
    c ∈ m.sortedConns location ↔ c ∈ m.connectionsAt location :=
  mem_insertionSort _

theorem foundNone_consider :
    FoundNone checkReadiness
        (m.consider now requesting skipList checkReadiness random lists location) ↔
      FoundNone checkReadiness lists ∧ m.PicksExcluded requesting skipList random location := by
  unfold consider PicksExcluded
  cases choose (random location) (m.sortedConns location) with
  | none => simp
  | some conn =>
    dsimp only
    split_ifs with hexcl hready
    · simp [hexcl]
    · rw [Bool.and_eq_true] at hready
      simp [FoundNone, hready.1, hexcl]
    · simp [FoundNone, hexcl]

theorem foundNone_foldl {locations : List Location} : FoundNone checkReadiness
        (locations.foldl (m.consider now requesting skipList checkReadiness random) lists) ↔
      FoundNone checkReadiness lists ∧
        ∀ location ∈ locations, m.PicksExcluded requesting skipList random location := by
  induction locations generalizing lists with
  | nil => simp
  | cons location locations ih =>
    rw [foldl_cons, ih, foundNone_consider, forall_mem_cons, and_assoc]

theorem picksExcluded_of_notMem (h : location ∉ m.connectionsByLocation) :
    m.PicksExcluded requesting skipList random location := by
  intro conn hconn
  have hmem := mem_sortedConns.mp (mem_of_choose hconn)
  unfold connectionsAt Buckets.bucket at hmem
  rw [AList.lookup_eq_none.mpr h] at hmem
  cases hmem

theorem routingCandidates_eq_nil_iff :
    m.routingCandidates now requesting skipList checkReadiness random = [] ↔
      ∀ location, m.PicksExcluded requesting skipList random location := by
  have hlists (lists : List PeerKeyLocation × List PeerKeyLocation) :
      (if checkReadiness && lists.1.isEmpty && !lists.2.isEmpty then lists.2 else lists.1) = [] ↔
        FoundNone checkReadiness lists := by
    unfold FoundNone
    split_ifs with hfallb
    · simp only [Bool.and_eq_true, Bool.not_eq_true', isEmpty_eq_false_iff] at hfallb
      simp [hfallb]
    · cases checkReadiness <;> simp_all
  refine (hlists _).trans (foundNone_foldl.trans ?_)
  constructor
  · rintro ⟨-, hall⟩ location
    by_cases hmem : location ∈ m.connectionsByLocation
    · exact hall location ((mem_insertionSort _).mpr hmem)
    · exact picksExcluded_of_notMem hmem
  · intro hall
    exact ⟨⟨rfl, fun _ => rfl⟩, fun location _ => hall location⟩

end ConnectionManager

/-- Whatever is picked, an empty list means that every connected peer is excluded: this holds of a
table in which some location has only peers that are not excluded, or no location has one. -/
theorem routingCandidates_complete_iff (m : ConnectionManager) (now : Nat)
    (requesting : Option SocketAddr) (skipList : SocketAddr → Bool) (checkReadiness : Bool) :
    (∀ random, m.routingCandidates now requesting skipList checkReadiness random = [] →
      ∀ location, ∀ conn ∈ m.connectionsAt location,
        m.isExcluded requesting skipList conn.addr = true) ↔
      ((∃ location, ∃ conn ∈ m.connectionsAt location,
          m.isExcluded requesting skipList conn.addr = false) →
        ∃ location, m.connectionsAt location ≠ [] ∧
          ∀ conn ∈ m.connectionsAt location,
            m.isExcluded requesting skipList conn.addr = false) := by
  simp only [routingCandidates_eq_nil_iff]
  constructor
  · rintro hcompl ⟨location₀, conn₀, hconn₀, hoffer⟩
    by_contra! hnone
    -- pick an excluded connection wherever there is a connection
    have hpick (location : Location) : ∃ number, ∀ conn,
        choose number (m.sortedConns location) = some conn →
          m.isExcluded requesting skipList conn.addr = true := by
      by_cases hempty : m.connectionsAt location = []
      · refine ⟨0, fun conn hconn => ?_⟩
        have hmem := mem_sortedConns.mp (mem_of_choose hconn)
        rw [hempty] at hmem
        cases hmem
      · obtain ⟨excluded, hmem, hexcl⟩ := hnone location hempty
        obtain ⟨number, hnumb⟩ := exists_choose (mem_sortedConns.mpr hmem)
        refine ⟨number, fun conn hconn => ?_⟩
        cases hnumb.symm.trans hconn
        exact Bool.not_eq_false _ ▸ hexcl
    obtain ⟨random, hrand⟩ := Classical.axiomOfChoice hpick
    rw [hcompl random hrand location₀ conn₀ hconn₀] at hoffer
    cases hoffer
  · intro hoffers random hpicks location conn hconn
    by_contra hoffer
    obtain ⟨location', hne, hall⟩ := hoffers ⟨location, conn, hconn, Bool.not_eq_true _ ▸ hoffer⟩
    obtain ⟨first, hfirst⟩ := exists_mem_of_ne_nil _ hne
    have hsort := ne_nil_of_mem (mem_sortedConns.mpr hfirst)
    obtain ⟨picked, hpicked⟩ := choose_isSome hsort (random location')
    have hexcl := hpicks location' picked hpicked
    rw [hall picked (mem_sortedConns.mp (mem_of_choose hpicked))] at hexcl
    cases hexcl

/-- Two peers share a location, and the one that is picked is the requester. -/
theorem sharedLocation_noCandidate : ∃ m,
    (connectionCalls ⟨true, true⟩).runFrom (.new none (some 1) 0 0 10 20 0)
      [.shouldAccept 0 2 0 true, .addConnection 0 2 2 true 0, .shouldAccept 0 3 0 true,
        .addConnection 0 3 3 true 0] = some m ∧
    m.routingCandidates 0 (some 2) (fun _ => false) true (fun _ => 0) = [] ∧
    m.connectionsAt 0 = [⟨2, 2⟩, ⟨3, 3⟩] ∧ m.isExcluded (some 2) (fun _ => false) 3 = false := by
  decide +kernel

/-! The number of connections, limited for new peers but not for those with a known location. -/
open Option

namespace ConnectionManager
variable {build : Build} {m : ConnectionManager} {now : Nat} {location : Location}
  {addr : SocketAddr} {oldAddr newAddr : SocketAddr} {wasReserved : Bool} {newPubKey : Nat}
  {pubKey : Nat}

theorem connectionCount_addConnection :
    (m.addConnection now location addr pubKey wasReserved).1.connectionCount =
      match m.locationForPeer.lookup addr with
      | none =>
        if m.maxConnections ≤ m.connectionCount then m.connectionCount else m.connectionCount + 1
      | some previous =>
        if m.isEstablished previous addr then m.connectionCount else m.connectionCount + 1 := by
  rw [connectionCount, connectionsByLocation_addConnection, isRejected]
  cases hlook : m.locationForPeer.lookup addr with
  | none =>
    simp only [isNone_none, Bool.true_and, decide_eq_true_eq]
    split_ifs
    · rfl
    · exact size_push
  | some previous =>
    have htake := size_takeFrom (s := m.connectionsByLocation) (k := previous)
      (p := fun c : Connection => decide (c.addr = addr))
    rw [if_neg (by simp), size_push]
    unfold replaceAt isEstablished connectionsAt connectionCount
    dsimp only
    split_ifs with hestab
    · rw [if_pos hestab] at htake
      exact htake
    · rw [if_neg hestab] at htake
      rw [← htake]

theorem connectionCount_updatePeerIdentity :
    (m.updatePeerIdentity oldAddr newAddr newPubKey).1.connectionCount =
      if oldAddr ≠ newAddr ∧ m.isUnbacked oldAddr = true then m.connectionCount + 1
      else m.connectionCount := by
  unfold updatePeerIdentity isUnbacked
  by_cases hsame : oldAddr = newAddr
  · rw [if_pos hsame, if_neg fun h => h.1 hsame]
  · rw [if_neg hsame]
    cases hlook : m.locationForPeer.lookup oldAddr with
    | none => simp
    | some location =>
      have hinsert := size_insert (s := m.connectionsByLocation) (k := location)
        (l := m.renamedAt location oldAddr newAddr newPubKey)
      have hlength : (m.renamedAt location oldAddr newAddr newPubKey).length =
          (m.connectionsAt location).length +
            if m.isEstablished location oldAddr then 0 else 1 := by
        unfold renamedAt
        split_ifs
        · exact length_modifyFirst _ _ _
        · exact length_append
      rw [hlength] at hinsert
      unfold connectionsAt at hinsert
      simp only [any_some, Bool.not_eq_true']
      unfold connectionCount
      dsimp only
      cases hestab : m.isEstablished location oldAddr with
      | true =>
        rw [if_neg (by simp)]
        rw [hestab, if_pos rfl] at hinsert
        omega
      | false =>
        rw [if_pos ⟨hsame, rfl⟩]
        rw [hestab, if_neg (by simp)] at hinsert
        omega

theorem connectionCount_pruneConnection {isAlive : Bool} :
    (m.pruneConnection addr isAlive).1.connectionCount ≤ m.connectionCount := by
  unfold pruneConnection
  cases m.locationForPeer.lookup addr with
  | none => exact Nat.le_refl _
  | some location =>
    have htake := size_takeFrom (s := m.connectionsByLocation) (k := location)
      (p := fun c : Connection => decide (c.addr = addr))
    unfold connectionCount
    dsimp only
    split_ifs
    · omega
    · exact Nat.le_refl _

/-- A peer that has a location but no connection there is given one only while there is room, which
the manager itself does not see to. -/
def HasRoom (build : Build) (m : ConnectionManager) : ConnectionEvent → Prop
  | .addConnection _ addr _ _ _ => panics build m addr = false → m.isUnbacked addr = true →
      m.connectionCount < m.maxConnections
  | .updatePeerIdentity oldAddr newAddr _ => oldAddr ≠ newAddr → m.isUnbacked oldAddr = true →
      m.connectionCount < m.maxConnections
  | _ => True

instance (build : Build) (m : ConnectionManager) : DecidablePred (m.HasRoom build)
  | .addConnection _ _ _ _ _ => inferInstanceAs (Decidable (_ → _ → _))
  | .updatePeerIdentity _ _ _ => inferInstanceAs (Decidable (_ → _ → _))
  | .shouldAccept _ _ _ _ | .pruneConnection _ _ | .cleanupStaleReservations _
  | .clearPendingReservationsFor _ | .recordPendingLocation _ _ | .injectReservation _ _ _
  | .aside _ => isTrue trivial

def IsWithin (m : ConnectionManager) : Prop := m.connectionCount ≤ m.maxConnections

variable (hm : m.IsWithin)
include hm

theorem IsWithin.addConnection_iff :
    (m.addConnection now location addr pubKey wasReserved).1.IsWithin ↔
      (m.isUnbacked addr = true → m.connectionCount < m.maxConnections) := by
  unfold IsWithin at hm ⊢
  rw [connectionCount_addConnection, maxConnections_addConnection, isUnbacked]
  cases m.locationForPeer.lookup addr with
  | none =>
    refine iff_of_true ?_ (by simp)
    split_ifs with hfull
    · exact hm
    · exact Nat.lt_of_not_le hfull
  | some previous =>
    dsimp only
    rw [any_some]
    cases m.isEstablished previous addr with
    | true => exact iff_of_true hm (by simp)
    | false => simp

theorem IsWithin.updatePeerIdentity_iff :
    (m.updatePeerIdentity oldAddr newAddr newPubKey).1.IsWithin ↔
      m.HasRoom build (.updatePeerIdentity oldAddr newAddr newPubKey) := by
  have hmax : (m.updatePeerIdentity oldAddr newAddr newPubKey).1.maxConnections =
      m.maxConnections := by
    unfold updatePeerIdentity
    split_ifs
    · rfl
    · split <;> rfl
  unfold IsWithin at hm ⊢
  rw [connectionCount_updatePeerIdentity, hmax]
  split_ifs with hunback
  · exact ⟨fun h _ _ => h, fun h => h hunback.1 hunback.2⟩
  · exact iff_of_true hm fun hne hold => absurd ⟨hne, hold⟩ hunback

theorem IsWithin.apply_iff {e : ConnectionEvent} :
    (∀ m', m.apply build e = some m' → m'.IsWithin) ↔ m.HasRoom build e := by
  have hkeep {m₁ : ConnectionManager} (hcount : m₁.connectionCount ≤ m.connectionCount)
      (hmax : m₁.maxConnections = m.maxConnections) : ∀ m', some m₁ = some m' → m'.IsWithin := by
    intro m' h
    cases h
    unfold IsWithin at hm ⊢
    omega
  cases e with
  | shouldAccept location addr now scored =>
    refine iff_of_true (hkeep (Nat.le_of_eq ?_) ?_) trivial
    · obtain h | ⟨-, h | h | h⟩ := shouldAccept_cases m now location addr scored <;> rw [h] <;> rfl
    · obtain h | ⟨-, h | h | h⟩ := shouldAccept_cases m now location addr scored <;> rw [h]
  | addConnection location addr pubKey wasReserved now =>
    have hstep : m.apply build (.addConnection location addr pubKey wasReserved now) =
      if panics build m addr then none
      else some (m.addConnection now location addr pubKey wasReserved).1 := rfl
    rw [hstep]
    cases hpanics : panics build m addr with
    | true => exact iff_of_true (fun _ h => nomatch h) fun h => absurd hpanics (by simp [h])
    | false =>
      rw [if_neg Bool.false_ne_true]
      simp only [some.injEq, forall_eq']
      rw [hm.addConnection_iff]
      exact ⟨fun h _ => h, fun h => h hpanics⟩
  | updatePeerIdentity oldAddr newAddr newPubKey =>
    rw [← hm.updatePeerIdentity_iff]
    exact ⟨fun h => h _ rfl, fun h m' hstep => by cases hstep; exact h⟩
  | pruneConnection addr isAlive =>
    refine iff_of_true (hkeep connectionCount_pruneConnection ?_) trivial
    unfold pruneConnection
    dsimp only
    split <;> rfl
  | cleanupStaleReservations now | clearPendingReservationsFor addrs =>
    exact iff_of_true (hkeep (Nat.le_refl _) rfl) trivial
  | recordPendingLocation location addr =>
    refine iff_of_true (hkeep ?_ ?_) trivial
    · unfold recordPendingLocation
      split_ifs <;> exact Nat.le_refl _
    · unfold recordPendingLocation
      split_ifs <;> rfl
  | injectReservation location addr created => exact iff_of_true (hkeep (Nat.le_refl _) rfl) trivial
  | aside call =>
    have hsame : SameTables m (m.applyAside call) := sameTables_applyAside
    refine iff_of_true (hkeep (Nat.le_of_eq ?_) hsame.maxConnections) trivial
    rw [connectionCount, hsame.connectionsByLocation, connectionCount]

end ConnectionManager

/-- The number of connections stays within the limit in all states of a run exactly when every
address that has a location but no connection there gets its connection while there is room. -/
theorem connectionCount_le_iff {build : Build} {m₀ : ConnectionManager}
    (hinit : (connectionCalls build).init m₀) (es : List ConnectionEvent) :
    (∀ fs m, fs <+: es → (connectionCalls build).runFrom m₀ fs = some m →
      m.connectionCount ≤ m.maxConnections) ↔
      (connectionCalls build).Along (fun m e => m.HasRoom build e) m₀ es := by
  refine (connectionCalls build).forall_prefix_iff_along IsWithin
    (fun m e hm => hm.apply_iff) es ?_
  obtain ⟨ownLocation, ownAddr, transientBudget, transientTtl, minConnections, maxConnections,
    minReadyConnections, rfl⟩ := hinit
  exact Nat.zero_le _

/-- A node without a location of its own. -/
def smallNode (minConnections maxConnections : Nat) : ConnectionManager :=
  .new none (some 1) 0 0 minConnections maxConnections 0

/-- One peer connects with its reservation and two without one, the last of them in vain. -/
def limitedPeers : List ConnectionEvent :=
  [.shouldAccept 0 2 0 true, .addConnection 0 2 2 true 0, .addConnection (1 / 2) 3 3 false 0,
    .addConnection (1 / 4) 4 4 false 0]

theorem limitedPeers_within : ∃ m,
    (connectionCalls ⟨true, true⟩).runFrom (smallNode 2 2) limitedPeers = some m ∧
    m.maxConnections = 2 ∧ m.connectionCount ≤ 2 := by
  refine Machine.exists_run_imp (·.maxConnections = 2) (by decide +kernel) ?_
  intro m hm hlimit
  have hroom : (connectionCalls ⟨true, true⟩).Along (fun m e => m.HasRoom ⟨true, true⟩ e)
      (smallNode 2 2) limitedPeers := by
    decide +kernel
  have hle := (connectionCount_le_iff ⟨none, some 1, 0, 0, 2, 2, 0, rfl⟩ limitedPeers).mpr hroom
    limitedPeers m prefix_rfl hm
  rw [hlimit] at hle
  exact ⟨hlimit, hle⟩

/-- Three peers are accepted beside an established connection, each after the reservation of the one
before has run out, and all of them connect; or one is, and two others connect before it. -/
theorem acceptedPeers_exceed : (∃ m, (connectionCalls ⟨true, true⟩).runFrom (smallNode 2 3)
        [.shouldAccept 0 2 0 true, .addConnection 0 2 2 true 0, .shouldAccept (1 / 2) 3 0 true,
          .shouldAccept (1 / 4) 4 (61 * 10 ^ 9) true, .shouldAccept (1 / 8) 5 (122 * 10 ^ 9) true,
          .addConnection (1 / 2) 3 3 true (123 * 10 ^ 9),
          .addConnection (1 / 4) 4 4 true (123 * 10 ^ 9),
          .addConnection (1 / 8) 5 5 true (123 * 10 ^ 9)] = some m ∧
      m.maxConnections = 3 ∧ m.connectionCount = 4) ∧
    ∃ m, (connectionCalls ⟨true, true⟩).runFrom (smallNode 2 3)
        [.shouldAccept 0 2 0 true, .addConnection 0 2 2 true 0, .shouldAccept (1 / 2) 3 0 true,
          .addConnection (1 / 4) 4 4 false 0, .addConnection (1 / 8) 5 5 false 0,
          .addConnection (1 / 2) 3 3 true 0] = some m ∧
      m.maxConnections = 3 ∧ m.connectionCount = 4 := by
  decide +kernel

end Freenet.Ring
