import Freenet.Ring.ConnectionManager

/-! How locations, connections and reservations of the connection manager fit together. -/
namespace Freenet.Ring
open Lib Buckets Option List
open Node (SocketAddr)
open Operations (PeerKeyLocation)
open Operations.Connect (Location)

namespace ConnectionManager

def connections (m : ConnectionManager) : List (Location × Connection) :=
  elements m.connectionsByLocation

def isInRing (m : ConnectionManager) (addr : SocketAddr) : Bool :=
  m.connections.any fun e => decide (e.2.addr = addr)

structure Consistent (m : ConnectionManager) : Prop where
  located : ∀ location, ∀ c ∈ m.connectionsAt location,
    m.locationForPeer.lookup c.addr = some location
  once : ∀ location, ((m.connectionsAt location).map Connection.addr).Nodup
  backed : ∀ addr location, m.locationForPeer.lookup addr = some location →
    m.pendingReservations.lookup addr = none → ∃ c ∈ m.connectionsAt location, c.addr = addr

variable {m : ConnectionManager} {now : Nat} {location : Location} {addr : SocketAddr}

theorem isEstablished_eq_true : m.isEstablished location addr = true ↔
    ∃ c ∈ m.connectionsAt location, c.addr = addr := by
  unfold isEstablished
  simp only [List.any_eq_true, decide_eq_true_eq]

theorem isInRing_eq_false :
    m.isInRing addr = false ↔ ∀ location, ∀ c ∈ m.connectionsAt location, c.addr ≠ addr := by
  unfold isInRing
  simp only [List.any_eq_false, decide_eq_true_eq]
  constructor
  · intro h location c hc
    exact h (location, c) (mem_elements.mpr hc)
  · rintro h ⟨location, c⟩ hmem
    exact h location c (mem_elements.mp hmem)

theorem consistent_iff : m.Consistent ↔
    (∀ e ∈ m.connections, m.locationForPeer.lookup e.2.addr = some e.1) ∧
    (m.connections.map fun e => e.2.addr).Nodup ∧
    ∀ addr, (m.locationForPeer.lookup addr).isSome = true →
      m.pendingReservations.lookup addr = none →
      ∃ e ∈ m.connections, e.2.addr = addr := by
  constructor
  · intro hm
    refine ⟨?_, ?_, ?_⟩
    · rintro ⟨location, c⟩ hmem
      exact hm.located location c (mem_elements.mp hmem)
    · refine nodup_elements hm.once ?_
      intro location location' c c' hc hc' haddr
      have hloc := hm.located location c hc
      rw [haddr, hm.located location' c' hc'] at hloc
      exact (some.inj hloc).symm
    · intro addr hloc hpend
      obtain ⟨location, hloc⟩ := isSome_iff_exists.mp hloc
      obtain ⟨c, hc, haddr⟩ := hm.backed addr location hloc hpend
      exact ⟨(location, c), mem_elements.mpr hc, haddr⟩
  · rintro ⟨hlocat, honce, hback⟩
    have hat (location : Location) (c : Connection) (hc : c ∈ m.connectionsAt location) :
        m.locationForPeer.lookup c.addr = some location :=
      hlocat (location, c) (mem_elements.mpr hc)
    refine ⟨hat, nodup_bucket honce, ?_⟩
    intro addr location hloc hpend
    obtain ⟨⟨location', c⟩, hmem, rfl⟩ := hback addr (by simp [hloc]) hpend
    have hc := mem_elements.mp hmem
    have hsame : some location' = some location := (hat location' c hc).symm.trans hloc
    cases hsame
    exact ⟨c, hc, rfl⟩

theorem consistent_new {ownLocation : Option Location} {ownAddr : Option SocketAddr}
    {transientBudget transientTtl minConnections maxConnections minReadyConnections : Nat} :
    (new ownLocation ownAddr transientBudget transientTtl minConnections maxConnections
      minReadyConnections).Consistent where
  located _ _ hc := by cases hc
  once _ := nodup_nil
  backed _ _ hloc := by cases hloc

namespace Consistent
variable {m' : ConnectionManager} {c : Connection}

section Tables
variable (hm : m.Consistent)
include hm

theorem ne_of_lookup_none (hnone : m.locationForPeer.lookup addr = none)
    (hc : c ∈ m.connectionsAt location) : c.addr ≠ addr := by
  rintro rfl
  rw [hm.located location c hc] at hnone
  cases hnone

theorem ne_of_lookup_some {location' : Location}
    (hlook : m.locationForPeer.lookup addr = some location) (hne : location' ≠ location)
    (hc : c ∈ m.connectionsAt location') : c.addr ≠ addr := by
  rintro rfl
  rw [hm.located location' c hc] at hlook
  exact hne (some.inj hlook)

theorem of_connections (hconns : m'.connectionsByLocation = m.connectionsByLocation)
    (hlocat : ∀ location, ∀ c ∈ m.connectionsAt location,
      m'.locationForPeer.lookup c.addr = some location)
    (hback : ∀ addr location, m'.locationForPeer.lookup addr = some location →
      m'.pendingReservations.lookup addr = none →
      m.locationForPeer.lookup addr = some location ∧ m.pendingReservations.lookup addr = none ∨
      m.isEstablished location addr = true) : m'.Consistent := by
  have hat (location : Location) : m'.connectionsAt location = m.connectionsAt location := by
    unfold connectionsAt
    rw [hconns]
  refine ⟨?_, ?_, ?_⟩
  · intro location c hc
    rw [hat] at hc
    exact hlocat location c hc
  · intro location
    rw [hat]
    exact hm.once location
  · intro addr location hloc hpend
    rw [hat]
    rcases hback addr location hloc hpend with h | h
    · exact hm.backed addr location h.1 h.2
    · exact isEstablished_eq_true.mp h

theorem sameTables (h : SameTables m m') : m'.Consistent := by
  refine hm.of_connections h.connectionsByLocation ?_ ?_
  · intro location c hc
    rw [h.locationForPeer]
    exact hm.located location c hc
  · intro addr location hloc hpend
    rw [h.locationForPeer] at hloc
    rw [h.pendingReservations] at hpend
    exact .inl ⟨hloc, hpend⟩

/-- Reservations may come for any address, and go for an address without a location. -/
theorem reserve {r : Location × Nat} :
    { m with pendingReservations := m.pendingReservations.insert addr r }.Consistent := by
  refine hm.of_connections rfl hm.located ?_
  intro addr' location hloc hpend
  have hne : addr' ≠ addr := by
    rintro rfl
    rw [AList.lookup_insert] at hpend
    cases hpend
  rw [AList.lookup_insert_ne hne] at hpend
  exact .inl ⟨hloc, hpend⟩

theorem release (hnone : m.locationForPeer.lookup addr = none) :
    { m with pendingReservations := m.pendingReservations.erase addr }.Consistent := by
  refine hm.of_connections rfl hm.located ?_
  intro addr' location hloc hpend
  have hne : addr' ≠ addr := by
    rintro rfl
    rw [hnone] at hloc
    cases hloc
  rw [AList.lookup_erase_ne hne] at hpend
  exact .inl ⟨hloc, hpend⟩

theorem locate_iff (hnone : m.locationForPeer.lookup addr = none) :
    { m with locationForPeer := m.locationForPeer.insert addr location }.Consistent ↔
      (m.pendingReservations.lookup addr).isSome = true := by
  constructor
  · intro h
    by_contra hpend
    obtain ⟨c, hc, haddr⟩ := h.backed addr location (AList.lookup_insert _)
      (not_isSome_iff_eq_none.mp hpend)
    exact hm.ne_of_lookup_none hnone hc haddr
  · intro hresv
    refine hm.of_connections rfl ?_ ?_
    · intro location' c hc
      rw [AList.lookup_insert_ne (hm.ne_of_lookup_none hnone hc)]
      exact hm.located location' c hc
    · intro addr' location' hloc hpend
      have hne : addr' ≠ addr := by
        rintro rfl
        rw [hpend] at hresv
        cases hresv
      rw [AList.lookup_insert_ne hne] at hloc
      exact .inl ⟨hloc, hpend⟩

theorem shouldAccept {scored : Bool} : (m.shouldAccept now location addr scored).1.Consistent := by
  obtain h | ⟨hnone, h | h | h⟩ := shouldAccept_cases m now location addr scored <;> rw [h]
  · exact hm
  · exact hm.reserve
  · have hresv : { m with
        pendingReservations := m.pendingReservations.insert addr (location, now) }.Consistent :=
      hm.reserve
    refine (hresv.locate_iff hnone).mpr ?_
    simp
  · have hresv : { m with
        pendingReservations := m.pendingReservations.insert addr (location, now) }.Consistent :=
      hm.reserve
    exact hresv.release hnone

theorem recordPendingLocation_iff : (m.recordPendingLocation location addr).Consistent ↔
    (m.locationForPeer.lookup addr).isSome = true ∨
      (m.pendingReservations.lookup addr).isSome = true := by
  unfold recordPendingLocation
  split_ifs with hknown
  · exact iff_of_true hm (.inl hknown)
  · rw [hm.locate_iff (not_isSome_iff_eq_none.mp hknown), or_iff_right hknown]

theorem cleanupStaleReservations : (m.cleanupStaleReservations now).1.Consistent := by
  refine hm.of_connections rfl ?_ ?_
  · intro location c hc
    have hestab : m.isEstablished location c.addr = true := isEstablished_eq_true.mpr ⟨c, hc, rfl⟩
    refine lookup_retainEntries.trans ?_
    rw [hm.located location c hc]
    simp [hestab]
  · intro addr location hloc hpend
    have hkept := lookup_retainEntries.symm.trans hloc
    rw [filter_eq_some_iff, Bool.or_eq_true] at hkept
    rcases hkept.2 with hestab | hresv
    · exact .inr hestab
    · have hnone : (retainEntries (fun _ r => decide (now - r.2 ≤ pendingReservationTtl))
          m.pendingReservations).lookup addr = none := hpend
      rw [hnone] at hresv
      cases hresv

theorem clearPendingReservationsFor_iff {addrs : List SocketAddr} :
    (m.clearPendingReservationsFor addrs).Consistent ↔
      ∀ addr ∈ addrs, (m.pendingReservations.lookup addr).isSome = true →
        m.isInRing addr = false := by
  have hlocs (addr : SocketAddr) :
      (m.clearPendingReservationsFor addrs).locationForPeer.lookup addr =
      if addr ∈ addrs.filter (fun addr => (m.pendingReservations.lookup addr).isSome) then none
      else m.locationForPeer.lookup addr := lookup_foldl_erase
  have hreserv (addr : SocketAddr) :
      (m.clearPendingReservationsFor addrs).pendingReservations.lookup addr =
      if addr ∈ addrs then none else m.pendingReservations.lookup addr := lookup_foldl_erase
  simp only [isInRing_eq_false]
  constructor
  · intro h addr hmem hresv location c hc hcaddr
    have hlocat : (m.clearPendingReservationsFor addrs).locationForPeer.lookup c.addr =
        some location := h.located location c hc
    rw [hcaddr, hlocs, if_pos (mem_filter.mpr ⟨hmem, hresv⟩)] at hlocat
    cases hlocat
  · intro hfree
    refine hm.of_connections rfl ?_ ?_
    · intro location c hc
      rw [hlocs, if_neg, hm.located location c hc]
      intro hmem
      obtain ⟨hmem, hresv⟩ := mem_filter.mp hmem
      exact hfree c.addr hmem hresv location c hc rfl
    · intro addr location hloc hpend
      rw [hlocs] at hloc
      rw [hreserv] at hpend
      split_ifs at hloc with hremd
      refine .inl ⟨hloc, ?_⟩
      split_ifs at hpend with hmem
      · by_contra hresv
        exact hremd (mem_filter.mpr ⟨hmem, isSome_iff_ne_none.mpr hresv⟩)
      · exact hpend

theorem injectReservation {created : Nat} :
    (m.injectReservation location addr created).Consistent := hm.reserve

end Tables
end Consistent

/-- The peer connected at an address, or else the first one at the location known for it. -/
def getPeerByAddr (m : ConnectionManager) (addr : SocketAddr) : Option PeerKeyLocation :=
  match m.connections.find? fun e => decide (e.2.addr = addr) with
  | some e => some e.2.location
  | none => (m.locationForPeer.lookup addr).bind fun location =>
      (m.connectionsAt location).head?.map Connection.location

/-- A peer found for an address is connected there, except for an address without a connection whose
location is that of a connected peer. -/
theorem getPeerByAddr_connected_iff (m : ConnectionManager) (addr : SocketAddr) :
    (∀ peer, m.getPeerByAddr addr = some peer →
        ∃ e ∈ m.connections, e.2.addr = addr ∧ e.2.location = peer) ↔
      m.isInRing addr = true ∨
        ∀ location, m.locationForPeer.lookup addr = some location →
          m.connectionsAt location = [] := by
  unfold getPeerByAddr isInRing
  cases hfind : m.connections.find? fun e => decide (e.2.addr = addr) with
  | some e =>
    have hmem := mem_of_find?_eq_some hfind
    have haddr : e.2.addr = addr := by
      have hfound := find?_some hfind
      exact of_decide_eq_true hfound
    refine iff_of_true ?_ (.inl (any_eq_true.mpr ⟨e, hmem, decide_eq_true haddr⟩))
    rintro peer ⟨⟩
    exact ⟨e, hmem, haddr, rfl⟩
  | none =>
    have hnone (e : Location × Connection) (he : e ∈ m.connections) : e.2.addr ≠ addr :=
      of_decide_eq_false (Bool.not_eq_true _ ▸ find?_eq_none.mp hfind e he)
    constructor
    · intro h
      right
      intro location hloc
      by_contra hat
      obtain ⟨c, cs, hat⟩ := exists_cons_of_ne_nil hat
      obtain ⟨e, he, haddr, -⟩ := h c.location (by rw [hloc, bind_some, hat]; rfl)
      exact hnone e he haddr
    · rintro (h | h) peer hpeer
      · obtain ⟨e, he, haddr⟩ := any_eq_true.mp h
        exact absurd (of_decide_eq_true haddr) (hnone e he)
      · obtain ⟨location, hloc, hpeer⟩ := bind_eq_some_iff.mp hpeer
        rw [h location hloc] at hpeer
        cases hpeer

/-- A peer that is accepted at the location of a connected one is taken for it. -/
theorem accepted_peer_mistaken : ∃ m,
    (connectionCalls ⟨false, false⟩).runFrom (.new none none 0 0 3 9 0)
      [.addConnection 0 1 1 false 0, .shouldAccept 0 2 0 true] = some m ∧
    m.getPeerByAddr 2 = some ⟨1, some 1⟩ := by
  decide +kernel

/-! Runs of the connection manager: when its three tables fit together throughout. -/
open AList

variable {build : Build} {location' : Location} {c : Connection}

namespace Consistent

theorem mem_replaceAt (hm : m.Consistent) :
    c ∈ bucket (m.replaceAt addr (m.locationForPeer.lookup addr)) location ↔
      c ∈ m.connectionsAt location ∧ c.addr ≠ addr := by
  cases hlook : m.locationForPeer.lookup addr with
  | none => exact ⟨fun hc => ⟨hc, hm.ne_of_lookup_none hlook hc⟩, fun h => h.1⟩
  | some previous =>
    unfold replaceAt
    rw [bucket_takeFrom]
    split_ifs with hprev
    · subst hprev
      exact mem_swapRemoveFirst (hm.once location)
    · exact ⟨fun hc => ⟨hc, hm.ne_of_lookup_some hlook hprev hc⟩, fun h => h.1⟩

theorem nodup_replaceAt (hm : m.Consistent) :
    ((bucket (m.replaceAt addr (m.locationForPeer.lookup addr)) location).map
      Connection.addr).Nodup := by
  unfold replaceAt
  split
  · exact hm.once location
  · rw [bucket_takeFrom]
    split_ifs
    · exact nodup_swapRemoveFirst _ (hm.once _)
    · exact hm.once location

variable {oldAddr newAddr : SocketAddr} {m' : ConnectionManager} {newPubKey : Nat}

section Moves
variable (hm : m.Consistent)
include hm

theorem without (addr : SocketAddr) (hbuck : ∀ location, m'.connectionsAt location =
      bucket (m.replaceAt addr (m.locationForPeer.lookup addr)) location)
    (hlocs : m'.locationForPeer = m.locationForPeer.erase addr)
    (hpend : ∀ addr', addr' ≠ addr → m'.pendingReservations.lookup addr' =
      m.pendingReservations.lookup addr') :
    m'.Consistent := by
  refine ⟨?_, ?_, ?_⟩
  · intro location c hc
    rw [hbuck, hm.mem_replaceAt] at hc
    rw [hlocs, lookup_erase_ne hc.2]
    exact hm.located location c hc.1
  · intro location
    rw [hbuck]
    exact hm.nodup_replaceAt
  · intro addr' location hloc hnone
    have hne : addr' ≠ addr := by
      rintro rfl
      rw [hlocs, AList.lookup_erase] at hloc
      cases hloc
    rw [hlocs, lookup_erase_ne hne] at hloc
    rw [hpend addr' hne] at hnone
    obtain ⟨c, hc, rfl⟩ := hm.backed addr' location hloc hnone
    exact ⟨c, (hbuck location) ▸ hm.mem_replaceAt.mpr ⟨hc, hne⟩, rfl⟩

theorem connect (location : Location) (addr : SocketAddr) (pubKey : Nat)
    (hfree : ∀ location, ∀ c ∈ m.connectionsAt location, c.addr ≠ addr)
    (hmem : ∀ location' c, c ∈ m'.connectionsAt location' ↔
      c ∈ m.connectionsAt location' ∨ location' = location ∧ c = ⟨pubKey, addr⟩)
    (honce : ∀ location, ((m'.connectionsAt location).map Connection.addr).Nodup)
    (hlocs : ∀ addr', m'.locationForPeer.lookup addr' =
      if addr' = addr then some location else m.locationForPeer.lookup addr')
    (hpend : ∀ addr', addr' ≠ addr → m'.pendingReservations.lookup addr' =
      m.pendingReservations.lookup addr') :
    m'.Consistent := by
  refine ⟨?_, honce, ?_⟩
  · intro location' c hc
    rw [hlocs]
    rcases (hmem location' c).mp hc with hc | ⟨rfl, rfl⟩
    · rw [if_neg (hfree location' c hc)]
      exact hm.located location' c hc
    · rw [if_pos rfl]
  · intro addr' location' hloc hnone
    rw [hlocs] at hloc
    split_ifs at hloc with haddr
    · cases hloc
      exact ⟨⟨pubKey, addr⟩, (hmem location _).mpr (.inr ⟨rfl, rfl⟩), haddr.symm⟩
    · rw [hpend addr' haddr] at hnone
      obtain ⟨c, hc, rfl⟩ := hm.backed addr' location' hloc hnone
      exact ⟨c, (hmem location' c).mpr (.inl hc), rfl⟩

theorem disconnected (addr : SocketAddr) :
    { m with
      connectionsByLocation := m.replaceAt addr (m.locationForPeer.lookup addr)
      locationForPeer := m.locationForPeer.erase addr }.Consistent :=
  hm.without addr (fun _ => rfl) rfl fun _ _ => rfl

theorem pruneConnection {isAlive : Bool} : (m.pruneConnection addr isAlive).1.Consistent := by
  unfold ConnectionManager.pruneConnection
  cases hlook : m.locationForPeer.lookup addr with
  | none =>
    cases isAlive with
    | true => exact hm
    | false => exact hm.release hlook
  | some location =>
    refine hm.without addr ?_ rfl ?_
    · intro location'
      rw [hlook]
      unfold connectionsAt replaceAt
      dsimp only
      split_ifs with hestab
      · rfl
      · -- without a connection to the address nothing is removed
        rw [bucket_takeFrom, swapRemoveFirst_of_any_eq_false (Bool.not_eq_true _ ▸ hestab)]
        split_ifs with hloc
        · rw [hloc]
        · rfl
    · intro addr' hne
      cases isAlive with
      | true => rfl
      | false => exact lookup_erase_ne hne

theorem addConnection {pubKey : Nat} {wasReserved : Bool} :
    (m.addConnection now location addr pubKey wasReserved).1.Consistent := by
  have hpend (addr' : SocketAddr) (hne : addr' ≠ addr) :
      (m.addConnection now location addr pubKey wasReserved).1.pendingReservations.lookup addr' =
        m.pendingReservations.lookup addr' := by
    rw [pendingReservations_addConnection]
    cases wasReserved with
    | true => exact lookup_erase_ne hne
    | false => rfl
  have hconns := connectionsByLocation_addConnection m now location addr pubKey wasReserved
  have hlocs := locationForPeer_addConnection m now location addr pubKey wasReserved
  cases hrej : m.isRejected addr with
  | true =>
    rw [hrej, if_pos rfl] at hconns hlocs
    have hnone : m.locationForPeer.lookup addr = none := by
      unfold isRejected at hrej
      rw [Bool.and_eq_true, isNone_iff_eq_none] at hrej
      exact hrej.1
    refine hm.of_connections hconns ?_ ?_
    · intro location' c hc
      have hne := hm.ne_of_lookup_none hnone hc
      rw [hlocs, lookup_erase_ne hne, lookup_insert_ne hne]
      exact hm.located location' c hc
    · intro addr' location' hloc hfree
      have hne : addr' ≠ addr := by
        rintro rfl
        rw [hlocs, AList.lookup_erase] at hloc
        cases hloc
      rw [hlocs, lookup_erase_ne hne, lookup_insert_ne hne] at hloc
      rw [hpend addr' hne] at hfree
      exact .inl ⟨hloc, hfree⟩
  | false =>
    rw [hrej, if_neg Bool.false_ne_true] at hconns hlocs
    have hfree (location : Location) (c : Connection)
        (hc : c ∈ bucket (m.replaceAt addr (m.locationForPeer.lookup addr)) location) :
        c.addr ≠ addr :=
      (hm.mem_replaceAt.mp hc).2
    refine (hm.disconnected addr).connect location addr pubKey hfree ?_ ?_ ?_ hpend
    · intro location' c
      unfold connectionsAt
      rw [hconns]
      exact mem_bucket_push
    · intro location'
      unfold connectionsAt
      rw [hconns]
      exact nodup_push hm.nodup_replaceAt (hfree location)
    · intro addr'
      rw [hlocs]
      split_ifs with haddr
      · rw [haddr, AList.lookup_insert]
      · rw [AList.lookup_insert_ne haddr, AList.lookup_erase_ne haddr]

theorem mem_renamedAt : c ∈ m.renamedAt location oldAddr newAddr newPubKey ↔
      c ∈ m.connectionsAt location ∧ c.addr ≠ oldAddr ∨ c = ⟨newPubKey, newAddr⟩ := by
  unfold renamedAt
  split_ifs with hestab
  · rw [mem_modifyFirst (hm.once location) (isEstablished_eq_true.mp hestab)]
    refine or_congr_right ⟨?_, ?_⟩
    · rintro ⟨-, -, -, rfl⟩
      rfl
    · rintro rfl
      obtain ⟨y, hy, haddr⟩ := isEstablished_eq_true.mp hestab
      exact ⟨y, hy, haddr, rfl⟩
  · rw [mem_append, mem_singleton]
    refine or_congr_left ⟨fun hc => ⟨hc, ?_⟩, fun h => h.1⟩
    rintro rfl
    exact hestab (isEstablished_eq_true.mpr ⟨c, hc, rfl⟩)

theorem nodup_renamedAt_iff (hne : newAddr ≠ oldAddr) :
    ((m.renamedAt location oldAddr newAddr newPubKey).map Connection.addr).Nodup ↔
      ∀ c ∈ m.connectionsAt location, c.addr ≠ newAddr := by
  unfold renamedAt
  split_ifs with hestab
  · exact nodup_modifyFirst_iff (hm.once location) (isEstablished_eq_true.mp hestab) hne
      fun _ => rfl
  · rw [map_append, nodup_append]
    constructor
    · intro h c hc hcnew
      exact h.2.2 c.addr (mem_map_of_mem hc) newAddr mem_cons_self hcnew
    · intro hfree
      refine ⟨hm.once location, nodup_singleton _, ?_⟩
      intro a ha b hb hab
      obtain ⟨c, hc, rfl⟩ := mem_map.mp ha
      exact hfree c hc (hab.trans (mem_singleton.mp hb))

theorem rename_iff (newPubKey : Nat) (hne : newAddr ≠ oldAddr)
    (hlook : m.locationForPeer.lookup oldAddr = some location)
    (hat : ∀ location', m'.connectionsAt location' = if location' = location then
      m.renamedAt location oldAddr newAddr newPubKey else m.connectionsAt location')
    (hlocs : m'.locationForPeer = (m.locationForPeer.erase oldAddr).insert newAddr location)
    (hpend : m'.pendingReservations = m.pendingReservations) :
    m'.Consistent ↔ m.isInRing newAddr = false := by
  rw [isInRing_eq_false]
  constructor
  · intro h location' c hc hcnew
    by_cases hloc : location' = location
    · subst hloc
      have honce := h.once location'
      rw [hat, if_pos rfl, hm.nodup_renamedAt_iff hne] at honce
      exact honce c hc hcnew
    · have hmem : c ∈ m'.connectionsAt location' := by
        rw [hat, if_neg hloc]
        exact hc
      have hlocat := h.located location' c hmem
      rw [hcnew, hlocs, AList.lookup_insert] at hlocat
      exact hloc (Option.some.inj hlocat).symm
  · intro hfree
    refine (hm.disconnected oldAddr).connect location newAddr newPubKey ?_ ?_ ?_ ?_ ?_
    · intro location' c hc
      exact hfree location' c (hm.mem_replaceAt.mp hc).1
    · intro location' c
      rw [hat]
      refine Iff.trans ?_ (or_congr_left hm.mem_replaceAt.symm)
      split_ifs with hloc
      · subst hloc
        rw [hm.mem_renamedAt]
        simp
      · simp only [hloc, false_and, or_false]
        exact ⟨fun hc => ⟨hc, hm.ne_of_lookup_some hlook hloc hc⟩, fun h => h.1⟩
    · intro location'
      rw [hat]
      split_ifs
      · exact (hm.nodup_renamedAt_iff hne).mpr (hfree location)
      · exact hm.once location'
    · intro addr'
      rw [hlocs]
      split_ifs with haddr
      · rw [haddr, AList.lookup_insert]
      · rw [AList.lookup_insert_ne haddr]
    · intro addr' _
      rw [hpend]

theorem updatePeerIdentity_iff : (m.updatePeerIdentity oldAddr newAddr newPubKey).1.Consistent ↔
      (oldAddr ≠ newAddr → (m.locationForPeer.lookup oldAddr).isSome = true →
        m.isInRing newAddr = false) := by
  unfold updatePeerIdentity
  by_cases hsame : oldAddr = newAddr
  · rw [if_pos hsame]
    exact iff_of_true hm fun hne => absurd hsame hne
  · rw [if_neg hsame]
    cases hlook : m.locationForPeer.lookup oldAddr with
    | none => exact iff_of_true hm (by simp)
    | some location =>
      refine Iff.trans (b := m.isInRing newAddr = false) ?_ ⟨fun h _ _ => h, fun h => h hsame rfl⟩
      refine hm.rename_iff newPubKey (Ne.symm hsame) hlook ?_ rfl rfl
      intro location'
      exact bucket_insert

end Moves
end Consistent

def FitsTables (m : ConnectionManager) : ConnectionEvent → Prop
  | .updatePeerIdentity oldAddr newAddr _ => oldAddr ≠ newAddr →
      (m.locationForPeer.lookup oldAddr).isSome = true → m.isInRing newAddr = false
  | .clearPendingReservationsFor addrs =>
    ∀ addr ∈ addrs, (m.pendingReservations.lookup addr).isSome = true → m.isInRing addr = false
  | .recordPendingLocation _ addr => (m.locationForPeer.lookup addr).isSome = true ∨
      (m.pendingReservations.lookup addr).isSome = true
  | _ => True

instance (m : ConnectionManager) : DecidablePred m.FitsTables
  | .updatePeerIdentity _ _ _ => inferInstanceAs (Decidable (_ → _ → _))
  | .clearPendingReservationsFor addrs => inferInstanceAs (Decidable (∀ addr ∈ addrs, _ → _))
  | .recordPendingLocation _ _ => inferInstanceAs (Decidable (_ ∨ _))
  | .shouldAccept _ _ _ _ | .addConnection _ _ _ _ _ | .pruneConnection _ _
  | .cleanupStaleReservations _ | .injectReservation _ _ _ | .aside _ => isTrue trivial

theorem Consistent.apply_iff {e : ConnectionEvent} (hm : m.Consistent) :
    (∀ m', m.apply build e = some m' → m'.Consistent) ↔ m.FitsTables e := by
  have hdone {m₁ : ConnectionManager} {P : Prop} (hiff : m₁.Consistent ↔ P) :
      (∀ m', some m₁ = some m' → m'.Consistent) ↔ P := by
    simpa only [some.injEq, forall_eq'] using hiff
  cases e with
  | shouldAccept location addr now scored => exact hdone (iff_of_true hm.shouldAccept trivial)
  | addConnection location addr pubKey wasReserved now =>
    refine iff_of_true (fun m' hstep => ?_) trivial
    unfold apply at hstep
    dsimp only at hstep
    split_ifs at hstep
    cases hstep
    exact hm.addConnection
  | updatePeerIdentity oldAddr newAddr newPubKey => exact hdone hm.updatePeerIdentity_iff
  | pruneConnection addr isAlive => exact hdone (iff_of_true hm.pruneConnection trivial)
  | cleanupStaleReservations now => exact hdone (iff_of_true hm.cleanupStaleReservations trivial)
  | clearPendingReservationsFor addrs => exact hdone hm.clearPendingReservationsFor_iff
  | recordPendingLocation location addr => exact hdone hm.recordPendingLocation_iff
  | injectReservation location addr created =>
    exact hdone (iff_of_true hm.injectReservation trivial)
  | aside call => exact hdone (iff_of_true (hm.sameTables sameTables_applyAside) trivial)

end ConnectionManager

open ConnectionManager

/-- In all states of a run every connection is at the location of its address, no address is
connected twice, and one with a location is reserved or connected, exactly when all calls fit the
tables they find. -/
theorem connectionTables_iff {build : Build} {m₀ : ConnectionManager}
    (hinit : (connectionCalls build).init m₀) (es : List ConnectionEvent) :
    (∀ fs m, fs <+: es → (connectionCalls build).runFrom m₀ fs = some m →
      (∀ e ∈ m.connections, m.locationForPeer.lookup e.2.addr = some e.1) ∧
      (m.connections.map fun e => e.2.addr).Nodup ∧
      ∀ addr, (m.locationForPeer.lookup addr).isSome = true →
        m.pendingReservations.lookup addr = none →
        ∃ e ∈ m.connections, e.2.addr = addr) ↔
      (connectionCalls build).Along (fun m e => m.FitsTables e) m₀ es := by
  simp only [← consistent_iff]
  refine (connectionCalls build).forall_prefix_iff_along Consistent
    (fun m e hm => hm.apply_iff) es ?_
  obtain ⟨ownLocation, ownAddr, transientBudget, transientTtl, minConnections, maxConnections,
    minReadyConnections, rfl⟩ := hinit
  exact consistent_new

/-- A node without limits to speak of. -/
def roomyNode : ConnectionManager := .new none (some 1) 0 0 10 20 0

/-- Two peers connect, the second moves to another address, and the first is pruned. -/
def movingPeers : List ConnectionEvent :=
  [.shouldAccept 0 2 0 true, .addConnection 0 2 2 true 0, .shouldAccept (1 / 2) 3 0 true,
    .addConnection (1 / 2) 3 3 true 0, .updatePeerIdentity 3 4 3, .pruneConnection 2 true]

theorem movingPeers_fit : ∃ m,
    (connectionCalls ⟨true, true⟩).runFrom roomyNode movingPeers = some m ∧
    m.connections = [(1 / 2, ⟨3, 4⟩)] ∧ m.locationForPeer.lookup 4 = some (1 / 2) := by
  refine Machine.exists_run_imp (·.connections = [(1 / 2, ⟨3, 4⟩)]) (by decide +kernel) ?_
  intro m hm hconn
  have hfits : (connectionCalls ⟨true, true⟩).Along (fun m e => m.FitsTables e) roomyNode
      movingPeers := by
    decide +kernel
  have htabl := (connectionTables_iff ⟨none, some 1, 0, 0, 10, 20, 0, rfl⟩ movingPeers).mpr hfits
    movingPeers m prefix_rfl hm
  refine ⟨hconn, htabl.1 (1 / 2, ⟨3, 4⟩) ?_⟩
  rw [hconn]
  exact mem_cons_self

/-- A peer that moves to the address of another one leaves that address connected twice; and a
connected peer whose reservation was not used up loses its location when this is cleared. -/
theorem movedPeer_twice : (∃ m, (connectionCalls ⟨true, true⟩).runFrom roomyNode
        [.shouldAccept 0 2 0 true, .addConnection 0 2 2 true 0, .shouldAccept (1 / 2) 3 0 true,
          .addConnection (1 / 2) 3 3 true 0, .updatePeerIdentity 3 2 3] = some m ∧
      m.connections = [(1 / 2, ⟨3, 2⟩), (0, ⟨2, 2⟩)] ∧ m.locationForPeer.lookup 2 = some (1 / 2)) ∧
    ∃ m, (connectionCalls ⟨true, true⟩).runFrom roomyNode
        [.shouldAccept 0 2 0 true, .addConnection 0 2 2 false 0,
          .clearPendingReservationsFor [2]] = some m ∧
      m.connections = [(0, ⟨2, 2⟩)] ∧ m.locationForPeer.lookup 2 = none := by
  decide +kernel

end Freenet.Ring
