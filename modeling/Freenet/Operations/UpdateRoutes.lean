import Freenet.Operations.UpdateForwarding
import Mathlib.Data.List.MinMax

/-! How many requests one UPDATE takes; nodes pick the closest peer, closer than themselves or
not. -/
namespace Freenet.Operations.Update
open Lib Lib.Task Node Function Machine TransactionEntry Environment Option

/-- However a network of finitely many peers passes on an update request, with nodes that send it
only to peers closer to the contract, no more requests are sent than there are peers. -/
theorem requestUpdates_le_card {H D : Type} [DecidableEq H] [LinearOrder D]
    (dist : SocketAddr → D) (payloadHash : Bool → List UInt8 → H)
    (peers : Finset SocketAddr) {net net' : Network H} {es : List NetworkEvent}
    (hstart : (network payloadHash peers).init net)
    (hcloser : (network payloadHash peers).Along (fun net e => e.ForwardsCloser dist net) net es)
    (hrun : (network payloadHash peers).runFrom net es = some net') :
    net'.requestUpdates ≤ peers.card := by
  have hinv : net'.Approaching dist peers := by
    refine (network payloadHash peers).invariant_of_along _ (Network.Approaching dist peers) ?_
      hstart.approaching hcloser hrun
    intro s e s' hs hcond hstep
    exact Network.approaching_step hs hcond hstep
  exact hinv.bounded

theorem push_of_eq {H : Type} {env : Environment} {op : UpdateOp}
    {node node' : UpdateNode H} (h : node.push env op = (.ok (), node')) :
    env.push op node = .ok () node' := by
  have hpush : (modifyGet (fun node => node.push env op) : UpdateTask H (Except OpError Unit)) node =
      .ok (.ok ()) node' := modifyGet_of_eq h
  exact (bind_of_ok hpush).trans rfl

theorem takeUp_of_eq {H : Type} {env : Environment} {msg : UpdateMsg}
    {node node' : UpdateNode H} {kept : Option UpdateOp}
    (h : node.pop env msg.id = (.ok kept, node')) (source : Option SocketAddr) (attempts : Nat) :
    env.takeUp source msg attempts node =
      .ok (some (.loaded (kept.getD (.received msg.id source)) source msg)) node' := by
  have hpop : (modifyGet (fun node => node.pop env msg.id) :
      UpdateTask H (Except OpNotAvailable (Option UpdateOp))) node = .ok (.ok kept) node' :=
    modifyGet_of_eq h
  refine (bind_of_ok hpop).trans ?_
  cases kept with
  | none => rfl
  | some op => rfl

def circlingUpdate : Transaction := .new .update 256

def circlingRequest : UpdateMsg := .requestUpdate circlingUpdate ⟨7, 0⟩ [] [1]

/-- Nodes 1, 2 and 3 are connected to each other, and node 0 to node 1. -/
def circleConnections : SocketAddr → List SocketAddr
  | 0 => [1]
  | 1 => [0, 2, 3]
  | 2 => [1, 3]
  | 3 => [1, 2]
  | _ => []

def circlePeers : Finset SocketAddr := {0, 1, 2, 3}

def circleDistance : SocketAddr → Nat
  | 2 => 0
  | 3 => 1
  | 1 => 2
  | _ => 3

def circleNext (p : SocketAddr) (skip : List SocketAddr) : Option SocketAddr :=
  ((circleConnections p).filter (· ∉ skip)).argmin circleDistance

/-- A node without the contract that routes by distance alone. -/
def circleEnvironment (p : SocketAddr) (elapsed : Nat) : Environment where
  build := ⟨false, false⟩
  ownAddr := some p
  elapsed _ := elapsed
  interestNow := 0
  readTimeMs := 0
  newTransactionsOpen := true
  notificationsOpen := true
  storedState _ := none
  updateContract _ _ _ := .error ⟨.contractError, false⟩
  getPeerByAddr addr := some ⟨addr, some addr⟩
  closestPotentiallyHosting _ skip := (circleNext p skip).map fun q => ⟨q, some q⟩
  streamingThreshold := 65536
  serializePayload payload := some payload.value
  deserializePayload _ := none
  deserializeBroadcast _ := none
  nextStreamId := 0
  claimOrWait _ _ := .error .timeout
  sends _ := true

def noHash : Bool → List UInt8 → Unit := fun _ _ => ()

def circleNode (entry : TransactionEntry UpdateOp) : UpdateNode Unit where
  ops := update (fun _ => .unknown) circlingUpdate entry
  broadcastDedupCache _ := []
  pendingContractFetches := .empty
  effects := []

def circle (entries : SocketAddr → TransactionEntry UpdateOp) (p : SocketAddr) (a : Activity)
    (requestUpdates : Nat) : Network Unit :=
  ⟨fun q => circleNode (entries q), [(p, a)], requestUpdates⟩

def relayOp (upstream next : SocketAddr) : UpdateOp :=
  ⟨circlingUpdate, some .receivedRequest, some ⟨some ⟨next, some next⟩⟩, some upstream⟩

def waitingEntry (op : UpdateOp) : TransactionEntry UpdateOp := ⟨some op, false, false, 0, true, false⟩

variable {others : SocketAddr → TransactionEntry UpdateOp} {entry : TransactionEntry UpdateOp}
  {p s q u : SocketAddr} {n elapsed : Nat}

theorem update_entry {entries : SocketAddr → TransactionEntry UpdateOp} {p : SocketAddr}
    {entry : TransactionEntry UpdateOp} (h : entries p = entry) : update entries p entry = entries := by
  rw [← h, update_eq_self]

theorem circleNode_ops (entry : TransactionEntry UpdateOp) :
    (circleNode entry).ops circlingUpdate = entry := by
  simp [circleNode]

theorem circleNode_setEntry (a b : TransactionEntry UpdateOp) :
    (circleNode a).setEntry circlingUpdate b = circleNode b := by
  simp [UpdateNode.setEntry, circleNode, update_idem]

theorem update_circleNodes (others : SocketAddr → TransactionEntry UpdateOp) (p : SocketAddr)
    (entry entry' : TransactionEntry UpdateOp) :
    update (fun r => circleNode (update others p entry r)) p (circleNode entry') =
      fun r => circleNode (update others p entry' r) := by
  funext r
  by_cases hr : r = p
  · subst hr
    simp
  · simp [hr]

variable (r : SocketAddr) (a : Activity)

theorem circle_nodes : (circle (update others p entry) r a n).nodes p = circleNode entry := by
  simp [circle]

theorem setEntry_circle (entry' : TransactionEntry UpdateOp) :
    (circle (update others p entry) r a n).setNode p
      ((circleNode entry).setEntry circlingUpdate entry') = circle (update others p entry') r a n := by
  rw [circleNode_setEntry]
  unfold Network.setNode circle
  rw [update_circleNodes]

theorem step_receiveNew :
    (circle (update others p entry) r a n).step noHash circlePeers (.receiveNew p circlingUpdate) =
    some (circle (update others p entry.receiveNew) r a n) := by
  unfold Network.step
  dsimp only
  rw [circle_nodes, circleNode_ops, setEntry_circle]

theorem step_cleanup : (circle (update others p entry) p a n).step noHash circlePeers
      (.cleanup p circlingUpdate elapsed false false) =
    some (circle (update others p (entry.cleanup elapsed false false)) p a n) := by
  unfold Network.step
  dsimp only
  rw [circle_nodes, circleNode_ops, setEntry_circle]

theorem step_advance {a : Activity} {rest : Option Activity} {entry' : TransactionEntry UpdateOp}
    {effects : List Effect}
    (hadvance : (circleEnvironment p elapsed).advance noHash a (circleNode entry) =
      .ok rest { circleNode entry' with effects := effects })
    (hpeers : (effects.filterMap (Effect.delivery p)).all (fun d => d.1 ∈ circlePeers) = true) :
    (circle (update others p entry) p a n).step noHash circlePeers
    (.advance 0 (circleEnvironment p elapsed)) =
    some ⟨fun r => circleNode (update others p entry' r),
      (rest.map fun b => (p, b)).toList ++ effects.reverse.filterMap (Effect.delivery p),
      n + (sentRequests effects).length⟩ := by
  have hafter : (circleEnvironment p elapsed).afterAdvance noHash a (circleNode entry) =
      (rest, { circleNode entry' with effects := effects }) := by
    unfold afterAdvance
    rw [hadvance]
  unfold Network.step
  dsimp only [circle, List.getElem?_cons_zero]
  rw [update_self, hafter, if_pos ⟨.inr rfl, hpeers⟩]
  rw [← update_circleNodes others p entry entry']
  rfl

theorem step_takeUp (hcompl : entry.completed = false) (hprog : entry.underProgress = false) :
    (circle (update others p entry) p (.arriving (some s) circlingRequest 0) n).step noHash
      circlePeers (.advance 0 (circleEnvironment p elapsed)) =
    some (circle (update others p { entry with kept := none, underProgress := true }) p
      (.loaded (entry.kept.getD (.received circlingUpdate (some s))) (some s) circlingRequest) n) := by
  have hpop : (circleNode entry).pop (circleEnvironment p elapsed) circlingRequest.id =
      (.ok entry.kept, circleNode { entry with kept := none, underProgress := true }) := by
    show ((((circleNode entry).ops circlingUpdate).pop elapsed).2,
      (circleNode entry).setEntry circlingUpdate (((circleNode entry).ops circlingUpdate).pop elapsed).1) = _
    rw [circleNode_ops, pop_eq hcompl hprog, circleNode_setEntry]
  have hadvance : (circleEnvironment p elapsed).advance noHash
      (.arriving (some s) circlingRequest 0) (circleNode entry) =
      .ok (some (.loaded (entry.kept.getD (.received circlingUpdate (some s))) (some s)
        circlingRequest))
        { circleNode { entry with kept := none, underProgress := true } with effects := [] } :=
    takeUp_of_eq hpop (some s) 0
  exact step_advance hadvance rfl

theorem step_forward (hnext : circleNext p [p, s] = some q) (hq : q ∈ circlePeers)
    (hcompl : entry.completed = false)
    (hprog : entry.underProgress = true → elapsed < operationTtl)
    (stats : Option UpdateStats) :
    (circle (update others p entry) p (.loaded
      ⟨circlingUpdate, some .receivedRequest, stats, some u⟩ (some s) circlingRequest) n).step noHash
      circlePeers (.advance 0 (circleEnvironment p elapsed)) =
    some (circle (update others p { entry with
        kept := some (relayOp u q)
        underProgress := false
        announced := entry.announced + 1 })
      q (.arriving (some p) circlingRequest 0) (n + 1)) := by
  let env := circleEnvironment p elapsed
  let result : OperationResult := .sendAndContinue circlingRequest (some q) (relayOp u q) none
  let entry' : TransactionEntry UpdateOp := { entry with
    kept := some (relayOp u q)
    underProgress := false
    announced := entry.announced + 1 }
  let op : UpdateOp := ⟨circlingUpdate, some .receivedRequest, stats, some u⟩
  have hforw : (env.forwardRequest op s ⟨7, 0⟩ [] [1] : UpdateTask Unit OperationResult) = pure result := by
    unfold forwardRequest
    simp only [env, circleEnvironment, hnext]
    rfl
  have hproc : env.processMessage op noHash (some s) circlingRequest (circleNode entry) =
      .ok (.done result) (circleNode entry) := by
    show ((env.forwardRequest op s ⟨7, 0⟩ [] [1] : UpdateTask Unit OperationResult) >>=
      fun r => pure (Progress.done r)) (circleNode entry) = _
    rw [hforw]
    rfl
  have hpush : env.push (relayOp u q) (circleNode entry) = .ok () (circleNode entry') := by
    refine push_of_eq ?_
    show ((((circleNode entry).ops circlingUpdate).push elapsed true (relayOp u q)).2,
      (circleNode entry).setEntry circlingUpdate
        (((circleNode entry).ops circlingUpdate).push elapsed true (relayOp u q)).1) = _
    rw [circleNode_ops, push_eq hcompl hprog, circleNode_setEntry]
  have hhandl : env.handleOpResult circlingUpdate (some s) (.ok result) (circleNode entry) =
      .ok none { circleNode entry' with effects := [.send q circlingRequest none] } :=
    (bind_of_ok hpush).trans rfl
  have hconcl : env.conclude circlingUpdate (some s) (.ok result) (circleNode entry) =
      .ok () { circleNode entry' with effects := [.send q circlingRequest none] } :=
    (bind_of_ok (attempt_of_ok hhandl)).trans rfl
  have hadvance : env.advance noHash (.loaded op (some s) circlingRequest) (circleNode entry) =
      .ok none { circleNode entry' with effects := [.send q circlingRequest none] } :=
    (bind_of_ok (attempt_of_ok hproc)).trans ((bind_of_ok hconcl).trans rfl)
  exact step_advance hadvance (by simp [Effect.delivery, hq])

/-- The steps of a relay that gets the request for the first time, before the transaction is old. -/
def firstHop (p : SocketAddr) : List NetworkEvent :=
  [.advance 0 (circleEnvironment p 0), .advance 0 (circleEnvironment p 0), .receiveNew p circlingUpdate]

/-- The steps of a relay that gets the request again when the transaction is old. The cleanup task
runs while the node waits for its contract handler. -/
def nextHop (p : SocketAddr) (elapsed : Nat) : List NetworkEvent :=
  [.advance 0 (circleEnvironment p elapsed), .cleanup p circlingUpdate elapsed false false,
    .advance 0 (circleEnvironment p elapsed), .receiveNew p circlingUpdate]

variable (entries : SocketAddr → TransactionEntry UpdateOp) (n : Nat)

theorem run_firstHop (hentry : entries p = .unknown) (hnext : circleNext p [p, s] = some q)
    (hq : q ∈ circlePeers) : (network noHash circlePeers).runFrom
      (circle entries p (.arriving (some s) circlingRequest 0) n) (firstHop p) =
    some (circle (update entries p (waitingEntry (relayOp s q))) q
      (.arriving (some p) circlingRequest 0) (n + 1)) := by
  nth_rewrite 1 [← update_entry hentry]
  refine (runFrom_cons_of_step _ (step_takeUp rfl rfl)).trans ?_
  refine (runFrom_cons_of_step _ (step_forward hnext hq rfl (fun _ => by decide) none)).trans ?_
  exact runFrom_cons_of_step _ (step_receiveNew _ _)

theorem run_nextHop (hentry : entries p = waitingEntry (relayOp u q))
    (hnext : circleNext p [p, s] = some q) (hq : q ∈ circlePeers)
    (hold : cutoffMultiplier * operationTtl < elapsed) : (network noHash circlePeers).runFrom
      (circle entries p (.arriving (some s) circlingRequest 0) n) (nextHop p elapsed) =
    some (circle entries q (.arriving (some p) circlingRequest 0) (n + 1)) := by
  rw [← update_entry hentry]
  refine (runFrom_cons_of_step _ (step_takeUp rfl rfl)).trans ?_
  refine (runFrom_cons_of_step _ (step_cleanup _)).trans ?_
  -- the node is no longer marked as handling the transaction when the handler answers
  rw [cleanup_eq rfl rfl hold]
  refine (runFrom_cons_of_step _ (step_forward hnext hq rfl Bool.noConfusion _)).trans ?_
  exact runFrom_cons_of_step _ (step_receiveNew _ _)

def startEntries : SocketAddr → TransactionEntry UpdateOp
  | 0 => .finished
  | _ => .unknown

def circleEntries : SocketAddr → TransactionEntry UpdateOp
  | 0 => .finished
  | 1 => waitingEntry (relayOp 0 2)
  | 2 => waitingEntry (relayOp 1 3)
  | 3 => waitingEntry (relayOp 2 1)
  | _ => .unknown

def circleStart : Network Unit := circle startEntries 1 (.arriving (some 0) circlingRequest 0) 1

/-- The request goes from node 1 over nodes 2 and 3 back to node 1. -/
def firstLap : List NetworkEvent := firstHop 1 ++ firstHop 2 ++ firstHop 3

def nextLap (elapsed : Nat) : List NetworkEvent :=
  nextHop 1 elapsed ++ nextHop 2 elapsed ++ nextHop 3 elapsed

/-- The first `k` laps after the first one, five seconds apart. -/
def circling : Nat → List NetworkEvent
  | 0 => firstLap
  | k + 1 => circling k ++ nextLap (300001 + 5000 * k)

theorem circleStart_started : circleStart.Started circlePeers where
  quiet _ := rfl
  oneRequest := ⟨0, 1, circlingRequest, by decide, rfl⟩
  counted := rfl

/-- What nodes 1 and 2 keep when the request has come to node 3. -/
def twoHopEntries : SocketAddr → TransactionEntry UpdateOp :=
  update (update startEntries 1 (waitingEntry (relayOp 0 2))) 2 (waitingEntry (relayOp 1 3))

theorem run_twoHops : (network noHash circlePeers).runFrom circleStart (firstHop 1 ++ firstHop 2) =
    some (circle twoHopEntries 3 (.arriving (some 2) circlingRequest 0) 3) := by
  have hone := run_firstHop startEntries 1 (p := 1) (s := 0) (q := 2) rfl rfl (by decide)
  rw [runFrom_append, circleStart, hone, bind_some]
  exact run_firstHop _ 2 rfl rfl (by decide)

theorem run_firstLap : (network noHash circlePeers).runFrom circleStart firstLap =
    some (circle circleEntries 1 (.arriving (some 3) circlingRequest 0) 4) := by
  have hentr : update twoHopEntries 3 (waitingEntry (relayOp 2 1)) = circleEntries := by
    funext r
    match r with
    | 0 | 1 | 2 | 3 => rfl
    | r + 4 => rfl
  have hthree := run_firstHop twoHopEntries 3 (p := 3) (s := 2) (q := 1) rfl rfl (by decide)
  rw [hentr] at hthree
  rw [firstLap, runFrom_append, run_twoHops, bind_some, hthree]

theorem run_nextLap (hold : cutoffMultiplier * operationTtl < elapsed) :
    (network noHash circlePeers).runFrom
      (circle circleEntries 1 (.arriving (some 3) circlingRequest 0) n) (nextLap elapsed) =
    some (circle circleEntries 1 (.arriving (some 3) circlingRequest 0) (n + 3)) := by
  -- each relay keeps the operation it had, so the lap ends where it began
  have hone := run_nextHop circleEntries n (p := 1) (s := 3) (q := 2) (u := 0) rfl rfl (by decide) hold
  have htwo := run_nextHop circleEntries (n + 1) (p := 2) (s := 1) (q := 3) (u := 1) rfl rfl (by decide) hold
  have hthree := run_nextHop circleEntries (n + 2) (p := 3) (s := 2) (q := 1)
    (u := 2) rfl rfl (by decide) hold
  unfold nextLap
  rw [runFrom_append, runFrom_append, hone, bind_some, htwo, bind_some, hthree]

theorem run_circling (k : Nat) : (network noHash circlePeers).runFrom circleStart (circling k) =
    some (circle circleEntries 1 (.arriving (some 3) circlingRequest 0) (3 * k + 4)) := by
  induction k with
  | zero => exact run_firstLap
  | succ k ih =>
    have hold : cutoffMultiplier * operationTtl < 300001 + 5000 * k := by
      unfold cutoffMultiplier operationTtl
      omega
    unfold circling
    rw [runFrom_append, ih, bind_some, run_nextLap _ hold]
    rfl

theorem along_firstHop {distance : SocketAddr → Nat} {es : List NetworkEvent}
    (hentry : entries p = .unknown) (hnext : circleNext p [p, s] = some q) (hq : q ∈ circlePeers)
    (hcloser : distance q < distance p)
    (hrest : (network noHash circlePeers).Along (fun net e => e.ForwardsCloser distance net)
      (circle (update entries p (waitingEntry (relayOp s q))) q (.arriving (some p) circlingRequest 0)
        (n + 1)) es) :
    (network noHash circlePeers).Along (fun net e => e.ForwardsCloser distance net)
      (circle entries p (.arriving (some s) circlingRequest 0) n) (firstHop p ++ es) := by
  nth_rewrite 1 [← update_entry hentry]
  refine along_cons_of_step _ (step_takeUp rfl rfl) ?_ ?_
  · intro r a hr addr htarg
    cases hr
    cases htarg
  refine along_cons_of_step _ (step_forward hnext hq rfl (fun _ => by decide) none) ?_ ?_
  · intro r a hr addr htarg
    cases hr
    have hq' : (circleNext p [p, s]).map (fun r => (⟨r, some r⟩ : PeerKeyLocation)) = some ⟨q, some q⟩ := by
      rw [hnext]
      rfl
    have heq : some q = some addr := by
      rw [← htarg]
      show some q = ((circleNext p [p, s]).map fun r => (⟨r, some r⟩ : PeerKeyLocation)).bind _
      rw [hq']
      rfl
    cases heq
    exact hcloser
  exact along_cons_of_step _ (step_receiveNew _ _) trivial hrest

/-- The request is closer to node 3 after each of its first two hops. -/
theorem two_hops_within_peers : (circle twoHopEntries 3 (.arriving (some 2) circlingRequest 0)
    3).requestUpdates ≤ circlePeers.card := by
  refine requestUpdates_le_card (3 - ·) noHash circlePeers circleStart_started ?_ run_twoHops
  refine along_firstHop startEntries 1 rfl rfl (by decide) (by decide) ?_
  rw [← (firstHop 2).append_nil]
  exact along_firstHop _ 2 rfl rfl (by decide) (by decide) trivial

/-- Three relays without the contract send one update around in a circle for as long as they run,
also after the transaction has timed out: a cleanup that comes while a node handles the request
makes it forget that it does. -/
theorem circling_update_never_ends : (network noHash circlePeers).init circleStart ∧
    (∀ k, ((network noHash circlePeers).runFrom circleStart (circling k)).map
      Network.requestUpdates = some (3 * k + 4)) ∧
    ¬ ∃ bound, ∀ es net, (network noHash circlePeers).runFrom circleStart es = some net →
      net.requestUpdates ≤ bound := by
  refine ⟨circleStart_started, ?_, ?_⟩
  · intro k
    rw [run_circling]
    rfl
  · rintro ⟨bound, hbound⟩
    have hle := hbound _ _ (run_circling bound)
    change 3 * bound + 4 ≤ bound at hle
    omega

end Freenet.Operations.Update
