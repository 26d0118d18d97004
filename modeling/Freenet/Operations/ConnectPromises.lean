import Freenet.Operations.ConnectMessages

/-! What a relay owes for each decision to accept, and what message handling adds to it. -/
namespace Freenet.Operations.Connect
open Lib Lib.Task Node Environment List

/-- Everything that is sent or notified in the course of handling a message gets through. -/
structure Environment.ChannelsOpen (env : Environment) : Prop where
  sends : ∀ addr, env.sends addr = true
  expects : env.expectsConnections = true
  connects : env.connectsPeers = true

def ConnectOp.acceptedLocally (op : ConnectOp) : Bool :=
  match op.state with
  | some (.relaying s) => s.acceptedLocally
  | _ => false

def ConnectOp.Relays (op : ConnectOp) : Prop :=
  ∀ s, op.state ≠ some (.waitingForResponses s)

structure Acceptance where
  id : Transaction
  upstreamAddr : SocketAddr
  joiner : PeerKeyLocation
  deriving DecidableEq

/-- The decision by which `acceptedLocally` became true. -/
def acceptance (before after : ConnectOp) : Option Acceptance :=
  match after.state with
  | some (.relaying s) =>
    if s.acceptedLocally && !before.acceptedLocally then
      some ⟨after.id, s.upstreamAddr, s.request.joiner⟩
    else none
  | _ => none

namespace Effect

/-- A response in which the node names itself; it does not know its own address. -/
def ownResponse (key : Nat) : Effect → Option (SocketAddr × Transaction)
  | .send target (.response id payload) =>
    if payload.acceptor = ⟨key, none⟩ then some (target, id) else none
  | _ => none

def expected : Effect → Option SocketAddr
  | .expectPeerConnection addr => some addr
  | _ => none

def connecting : Effect → Option PeerKeyLocation
  | .connectPeer peer => some peer
  | _ => none

def Quiet (key : Nat) (e : Effect) : Prop :=
  e.ownResponse key = none ∧ e.expected = none ∧ e.connecting = none

end Effect

/-- What a node has done for the joiners it accepted, the latest first. -/
structure Promises where
  responses : List (SocketAddr × Transaction)
  expected : List SocketAddr
  connecting : List PeerKeyLocation
  deriving DecidableEq

def promises (key : Nat) (effects : List Effect) : Promises where
  responses := effects.filterMap (·.ownResponse key)
  expected := effects.filterMap (·.expected)
  connecting := effects.filterMap (·.connecting)

/-- Exactly what is due for some acceptances has been added: one own response each to upstream, and
each joiner is expected at its address and connected to. -/
structure Promises.Grows (p q : Promises) (acceptances : List Acceptance) : Prop where
  responses : q.responses = acceptances.map (fun a => (a.upstreamAddr, a.id)) ++ p.responses
  expected : q.expected.map some = acceptances.map (·.joiner.socketAddr) ++ p.expected.map some
  connecting : q.connecting = acceptances.map (·.joiner) ++ p.connecting

namespace Promises
variable {p q r : Promises} {as bs : List Acceptance}

theorem grows_refl : p.Grows p [] := ⟨rfl, rfl, rfl⟩

theorem Grows.trans (h : p.Grows q as) (h' : q.Grows r bs) : p.Grows r (bs ++ as) := by
  constructor
  · rw [h'.responses, h.responses, map_append, append_assoc]
  · rw [h'.expected, h.expected, map_append, append_assoc]
  · rw [h'.connecting, h.connecting, map_append, append_assoc]

theorem Grows.expected_length (h : p.Grows q as) : q.expected.length = as.length + p.expected.length := by
  have hlength := congrArg length h.expected
  simpa using hlength

end Promises

theorem promises_cons_quiet {key : Nat} {e : Effect} {effects : List Effect} (he : e.Quiet key) :
    promises key (e :: effects) = promises key effects := by
  obtain ⟨hresp, hexp, hconn⟩ := he
  simp [promises, hresp, hexp, hconn]

/-- The operation and what was promised, as far as acceptances are concerned. -/
structure Stands (key : Nat) (p : Promises) (id : Transaction) (state : Option ConnectState)
    (run : ConnectRun) : Prop where
  promises : promises key run.effects = p
  id : run.op.id = id
  state : run.op.state = state

theorem stands_framed (key : Nat) (p : Promises) (id : Transaction) (state : Option ConnectState) :
    Framed (Stands key p id state) (Effect.Quiet key) where
  bookkeeping _ _ _ h := { h with }
  emit _ _ he h := ⟨(promises_cons_quiet he).trans h.promises, h.id, h.state⟩

section Succeeds
variable {env : Environment} (hopen : env.ChannelsOpen)

theorem recordForwarded_succeeds (forwarded : Option PeerKeyLocation) (desired : Location)
    (success : Bool) : Succeeds (recordForwarded forwarded desired success) := by
  cases forwarded with
  | none => exact succeeds_pure ()
  | some peer => exact (succeeds_modify _).bind fun _ => succeeds_modify _

theorem expireForwardAttempts_succeeds : Succeeds env.expireForwardAttempts := by
  have hall : ∀ attempts : List ForwardAttempt, Succeeds
      (attempts.forM fun attempt => recordForwardOutcome attempt.peer attempt.desired false) := by
    intro attempts
    induction attempts with
    | nil => exact succeeds_pure _
    | cons attempt attempts ih =>
      exact (recordForwarded_succeeds (some attempt.peer) attempt.desired false).bind fun _ => ih
  exact succeeds_get.bind fun run => hall _

include hopen

theorem send_succeeds (target : SocketAddr) (msg : ConnectMsg) : Succeeds (env.send target msg) := by
  unfold send
  rw [if_pos (hopen.sends target)]
  exact succeeds_modify _

theorem forward_succeeds (peer : PeerKeyLocation) (request : ConnectRequest) :
    Succeeds (env.forward peer request) := by
  unfold forward
  cases peer.socketAddr with
  | none => exact (succeeds_modify _).bind fun _ => succeeds_pure ()
  | some addr =>
    exact (succeeds_modify _).bind fun _ =>
      succeeds_get.bind fun run => send_succeeds hopen _ _

theorem sendObserved_succeeds (upstreamAddr : SocketAddr) (observed : Option SocketAddr) :
    Succeeds (env.sendObserved upstreamAddr observed) := by
  cases observed with
  | none => exact succeeds_pure ()
  | some address => exact succeeds_get.bind fun run => send_succeeds hopen _ _

end Succeeds

section Tasks
variable {env : Environment} {key : Nat} {p : Promises} {id : Transaction}
  {state : Option ConnectState} {Err : Get.Stop → ConnectRun → Prop} (hopen : env.ChannelsOpen)
  {upstreamAddr : SocketAddr} {recency : Table PeerKeyLocation Nat} {desired : Location}

theorem recordForwarded_stands {forwarded : Option PeerKeyLocation}
    {success : Bool} : Triple (fun run => Stands key p id state run ∧ run.op.recency = recency)
      (recordForwarded forwarded desired success)
      (fun _ run => Stands key p id state run ∧ run.op.recency = recency) Err := by
  cases forwarded with
  | none => exact triple_pure fun run h => h
  | some peer =>
    intro run h
    exact ⟨⟨(promises_cons_quiet ⟨rfl, rfl, rfl⟩).trans h.1.promises, h.1.id, h.1.state⟩, h.2⟩

theorem expireForwardAttempts_stands : Triple (Stands key p id state) env.expireForwardAttempts
    (fun _ => Stands key p id state) Err := by
  refine Keeps.triple_of_succeeds (P := fun _ => True) ?_ expireForwardAttempts_succeeds
  exact (stands_framed key p id state).keeps_expireForwardAttempts fun _ _ => ⟨rfl, rfl, rfl⟩

theorem setState_stands {state' : ConnectState} : Triple (Stands key p id state)
    (setState state') (fun _ => Stands key p id (some state')) Err :=
  triple_modify fun _ h => ⟨h.promises, h.id, rfl⟩

theorem lookAt_stands [SeededHash] {s : RelayState} :
    Triple (fun run => Stands key p id state run ∧ run.op.recency = recency) (env.lookAt s)
      (fun actions run => ∃ turn : RelayTurn, turn.Follows env (s.observe env).1 ∧
        turn.state.acceptedLocally = (s.acceptedLocally || s.accepts env recency) ∧
        actions = turn.actions ∧ Stands key p id (some (.relaying turn.state)) run) Err := by
  rintro run ⟨h, rfl⟩
  exact ⟨_, RelayState.handleRequest_follows, RelayState.handleRequest_acceptedLocally, rfl,
    ⟨h.promises, h.id, rfl⟩⟩

include hopen

theorem send_stands {target : SocketAddr} {msg : ConnectMsg}
    (hmsg : (Effect.send target msg).ownResponse key = none) :
    Triple (Stands key p id state) (env.send target msg) (fun _ => Stands key p id state) Err := by
  refine Keeps.triple_of_succeeds (P := fun _ => True) ?_ (send_succeeds hopen target msg)
  exact (stands_framed key p id state).keeps_send ⟨hmsg, rfl, rfl⟩

theorem sendObserved_stands {observed : Option SocketAddr} :
    Triple (Stands key p id state) (env.sendObserved upstreamAddr observed)
      (fun _ => Stands key p id state) Err := by
  refine Keeps.triple_of_succeeds (P := fun _ => True) ?_ (sendObserved_succeeds hopen upstreamAddr observed)
  exact (stands_framed key p id state).keeps_sendObserved fun _ _ => ⟨rfl, rfl, rfl⟩

theorem forward_stands {peer : PeerKeyLocation} {request : ConnectRequest} :
    Triple (Stands key p id state) (env.forward peer request) (fun _ => Stands key p id state) Err := by
  refine Keeps.triple_of_succeeds (P := fun _ => True) ?_ (forward_succeeds hopen peer request)
  exact (stands_framed key p id state).keeps_forward fun _ _ _ => ⟨rfl, rfl, rfl⟩

theorem forwardIfAny_stands {forward : Option (PeerKeyLocation × ConnectRequest)} :
    Triple (Stands key p id state) (env.forwardIfAny forward) (fun _ => Stands key p id state) Err := by
  cases forward with
  | none => exact triple_skip
  | some next => exact forward_stands hopen

theorem reject_stands :
    Triple (Stands key p id state) (env.reject upstreamAddr desired)
      (fun _ => Stands key p id (some .completed)) Err := by
  refine triple_get_bind ?_
  rintro run h
  have hsend : Triple (fun t => t = run)
      (env.send upstreamAddr (.rejected run.op.id desired)) (fun _ => Stands key p id state) Err :=
    (send_stands hopen rfl).of_pre (fun _ ht => ht ▸ h)
  exact hsend.andThen setState_stands

theorem expectJoiner_stands {joiner : PeerKeyLocation} {addr : SocketAddr}
    (haddr : joiner.socketAddr = some addr) :
    Triple (Stands key p id state) (env.expectJoiner (some joiner)) (fun _ => Stands key
        { p with expected := addr :: p.expected, connecting := joiner :: p.connecting } id state)
      Err := by
  unfold expectJoiner notifyExpect notifyConnect
  dsimp only
  rw [haddr, hopen.expects, hopen.connects]
  rintro run ⟨rfl, hid, hstate⟩
  exact ⟨rfl, hid, hstate⟩

theorem respond_stands :
    Triple (Stands key p id state) (env.respondIfAny upstreamAddr (some ⟨⟨key, none⟩⟩))
      (fun _ => Stands key { p with responses := (upstreamAddr, id) :: p.responses } id state)
      Err := by
  unfold respondIfAny send
  rw [hopen.sends]
  rintro run ⟨rfl, rfl, hstate⟩
  refine ⟨?_, rfl, hstate⟩
  show promises key (.send upstreamAddr (.response run.op.id ⟨⟨key, none⟩⟩) :: run.effects) = _
  simp [promises, Effect.ownResponse, Effect.expected, Effect.connecting]

end Tasks

/-! What goes with a relay's decision to accept the joiner, on a request and after a failure. -/
open RelayState

variable {before after : ConnectOp} {s : RelayState}

section Relaying
variable (hstate : after.state = some (.relaying s))
include hstate

theorem acceptance_of_eq (h : s.acceptedLocally = before.acceptedLocally) :
    acceptance before after = none := by
  simp [acceptance, hstate, h]

theorem acceptance_of_newly
    (hbefore : before.acceptedLocally = false) (h : s.acceptedLocally = true) :
    acceptance before after = some ⟨after.id, s.upstreamAddr, s.request.joiner⟩ := by
  simp [acceptance, hstate, hbefore, h]

omit hstate in
theorem acceptance_of_completed (hstate : after.state = some .completed) :
    acceptance before after = none := by
  simp [acceptance, hstate]

theorem relays_of_relaying : after.Relays := by
  intro s' hs'
  cases hstate.symm.trans hs'

end Relaying

theorem relays_of_completed (hstate : after.state = some .completed) : after.Relays := by
  intro s' hs'
  cases hstate.symm.trans hs'

/-- What was decided while a message was handled was also done. -/
def Settled (key : Nat) (p : Promises) (before : ConnectOp) (run : ConnectRun) : Prop :=
  run.op.Relays ∧ p.Grows (promises key run.effects) (acceptance before run.op).toList

theorem settled_of_none {key : Nat} {p : Promises} {before : ConnectOp} {run : ConnectRun}
    (hrelays : run.op.Relays) (hnone : acceptance before run.op = none)
    (hp : promises key run.effects = p) : Settled key p before run := by
  refine ⟨hrelays, ?_⟩
  rw [hnone, hp]
  exact Promises.grows_refl

section Request
variable {env : Environment} {key : Nat} {p : Promises} {op : ConnectOp}
  {upstreamAddr : SocketAddr} {desired : Location} {turn : RelayTurn}
  {Err : Get.Stop → ConnectRun → Prop} (hopen : env.ChannelsOpen)
include hopen

theorem end_settled_of_none (hacc : turn.state.acceptedLocally = op.acceptedLocally)
    (hresp : turn.actions.acceptResponse = none) :
    Triple (Stands key p op.id (some (.relaying turn.state)))
      (if turn.actions.rejected then env.reject upstreamAddr desired
        else env.respondIfAny upstreamAddr turn.actions.acceptResponse)
      (fun _ => Settled key p op) Err := by
  rw [hresp]
  split_ifs
  · refine (reject_stands hopen).post ?_
    rintro _ run ⟨hp, _, hstate⟩
    exact settled_of_none (relays_of_completed hstate) (acceptance_of_completed hstate) hp
  · refine triple_pure ?_
    rintro run ⟨hp, _, hstate⟩
    exact settled_of_none (relays_of_relaying hstate) (acceptance_of_eq hstate hacc) hp

theorem end_settled_of_some {addr : SocketAddr} (hbefore : op.acceptedLocally = false)
    (hacc : turn.state.acceptedLocally = true) (hup : turn.state.upstreamAddr = upstreamAddr)
    (haddr : turn.state.request.joiner.socketAddr = some addr)
    (hresp : turn.actions.acceptResponse = some ⟨⟨key, none⟩⟩)
    (hrej : turn.actions.rejected = false) :
    Triple (Stands key { p with
        expected := addr :: p.expected
        connecting := turn.state.request.joiner :: p.connecting }
        op.id (some (.relaying turn.state)))
      (if turn.actions.rejected then env.reject upstreamAddr desired
        else env.respondIfAny upstreamAddr turn.actions.acceptResponse)
      (fun _ => Settled key p op) Err := by
  rw [hresp, hrej]
  refine (respond_stands hopen).post ?_
  rintro _ run ⟨hp, hid, hstate⟩
  refine ⟨relays_of_relaying hstate, ?_⟩
  rw [hp, acceptance_of_newly hstate hbefore hacc, hid, hup]
  constructor
  · rfl
  · show some addr :: p.expected.map some = turn.state.request.joiner.socketAddr :: p.expected.map some
    rw [haddr]
  · rfl

variable [SeededHash]

/-- A relay that looks at a request does everything that goes with an acceptance. -/
theorem actions_settled {s : RelayState} (hfoll : turn.Follows env s)
    (hkey : env.ownLocation.pubKey = key) (hup : s.upstreamAddr = upstreamAddr)
    (hacc : s.acceptedLocally = op.acceptedLocally)
    (hjoin : ∃ addr, s.request.joiner.socketAddr = some addr) :
    Triple (Stands key p op.id (some (.relaying turn.state))) (do
        env.sendObserved upstreamAddr turn.actions.observedAddress
        env.expectJoiner turn.actions.expectConnectionFrom
        env.forwardIfAny turn.actions.forward
        if turn.actions.rejected then env.reject upstreamAddr desired
        else env.respondIfAny upstreamAddr turn.actions.acceptResponse)
      (fun _ => Settled key p op) Err := by
  refine (sendObserved_stands hopen).andThen ?_
  rcases hfoll.acceptance with ⟨hsame, hresp, hexpect⟩ | ⟨hbefore, hafter, hresp, hexpect, _, hrej⟩
  · rw [hexpect]
    exact Triple.andThen triple_skip ((forwardIfAny_stands hopen).andThen
      (end_settled_of_none hopen (hsame.trans hacc) hresp))
  · obtain ⟨addr, haddr⟩ := hjoin
    rw [← hfoll.joiner] at haddr hexpect
    rw [hkey] at hresp
    rw [hexpect]
    exact (expectJoiner_stands hopen haddr).andThen ((forwardIfAny_stands hopen).andThen
      (end_settled_of_some hopen (hacc.symm.trans hbefore) hafter
        (hfoll.upstreamAddr.trans hup) haddr hresp hrej))

variable (env key p op upstreamAddr) in
omit hopen in
/-- The relay has looked at the request, and has still to do what it decided. -/
def Looked (actions : RelayActions) (run : ConnectRun) : Prop :=
  ∃ (s : RelayState) (turn : RelayTurn), turn.Follows env s ∧ s.upstreamAddr = upstreamAddr ∧
    s.acceptedLocally = op.acceptedLocally ∧ (∃ addr, s.request.joiner.socketAddr = some addr) ∧
    actions = turn.actions ∧ Stands key p op.id (some (.relaying turn.state)) run

omit hopen in
theorem handleRequest_stands {payload : ConnectRequest} :
    Triple (Stands key p op.id op.state) (env.handleRequest upstreamAddr payload)
      (Looked env key p op upstreamAddr) Err := by
  have hlook : ∀ (run : ConnectRun) (s : RelayState), Stands key p op.id op.state run →
      s.upstreamAddr = upstreamAddr → s.acceptedLocally = op.acceptedLocally →
      Triple (fun t => t = run) (env.lookAt s) (Looked env key p op upstreamAddr) Err := by
    rintro run s h hup hacc t rfl
    have hlooked : Triple
        (fun run => Stands key p op.id op.state run ∧ run.op.recency = t.op.recency)
        (env.lookAt s) _ Err := lookAt_stands
    obtain ⟨turn, hfoll, _, hactions, hstands⟩ := hlooked t ⟨h, rfl⟩
    exact ⟨_, turn, hfoll, observe_upstreamAddr.trans hup,
      observe_acceptedLocally.trans hacc, observe_joinerAddr, hactions,
      hstands⟩
  refine expireForwardAttempts_stands.andThen (triple_get_bind ?_)
  intro run h
  split
  · rename_i s hs
    refine hlook run _ h rfl ?_
    rw [h.state] at hs
    simp [ConnectOp.acceptedLocally, hs]
  · rename_i hs
    refine hlook run _ h rfl ?_
    rw [h.state] at hs
    unfold ConnectOp.acceptedLocally
    split
    · rename_i s hs'
      exact absurd hs' (hs s)
    · rfl

theorem processRequest_settled {payload : ConnectRequest} {effects : List Effect}
    (hkey : env.ownLocation.pubKey = key) :
    Triple (fun run => run = ⟨op, effects⟩) (env.processRequest payload (some upstreamAddr))
      (fun _ => Settled key (promises key effects) op) Err := by
  have hstart : ∀ run : ConnectRun, run = ⟨op, effects⟩ →
      Stands key (promises key effects) op.id op.state run := by
    rintro run rfl
    exact ⟨rfl, rfl, rfl⟩
  unfold processRequest
  dsimp only
  split_ifs
  · have hlooked : Triple (fun run => run = ⟨op, effects⟩) (env.handleRequest upstreamAddr payload) _ Err :=
      handleRequest_stands.of_pre hstart
    refine hlooked.bind ?_
    rintro actions run ⟨s, turn, hfoll, hup, hacc, hjoin, rfl, hstands⟩
    exact actions_settled hopen hfoll hkey hup hacc hjoin run hstands
  · refine (reject_stands hopen).weaken hstart ?_ (fun _ _ h => h)
    rintro _ run ⟨hp, _, hstate⟩
    exact settled_of_none (relays_of_completed hstate) (acceptance_of_completed hstate) hp

end Request

section Retry
variable [SeededHash]

/-- The request as the relay looks at it again after a message that makes it try another
neighbor. -/
def ConnectMsg.retried (s : RelayState) : ConnectMsg → Option RelayState
  | .rejected _ _ => some { s with forwardedTo := none }
  | .connectFailed _ failedAcceptorAddr =>
    if s.downstream.isSome then none
    else some { s with
      request := { s.request with visited := s.request.visited.markVisited failedAcceptorAddr }
      forwardedTo := none
      responseForwarded := false }
  | _ => none

/-- The message makes the relay look at the request again, and it accepts the joiner then. -/
def Environment.acceptsOnRetry (env : Environment) (op : ConnectOp) (msg : ConnectMsg) : Bool :=
  match op.state with
  | some (.relaying s) => (msg.retried s).any fun s' => s'.accepts env op.recency
  | _ => false

omit [SeededHash] in
/-- How a message other than a request is handled: nobody is expected, whether the relay `accepts`
or not. -/
structure Unexpecting (key : Nat) (p : Promises) (before : ConnectOp) (accepts : Bool)
    (run : ConnectRun) : Prop where
  relays : run.op.Relays
  decided : (acceptance before run.op).isSome = accepts
  expected : (promises key run.effects).expected = p.expected
  promises : accepts = false → promises key run.effects = p

variable {env : Environment} {key : Nat} {p : Promises} {op : ConnectOp} {run : ConnectRun}
  {Err : Get.Stop → ConnectRun → Prop}

omit [SeededHash] in
theorem unexpecting_of_none (hrelays : run.op.Relays) (hnone : acceptance op run.op = none)
    (hp : promises key run.effects = p) : Unexpecting key p op false run := by
  refine ⟨hrelays, ?_, congrArg Promises.expected hp, fun _ => hp⟩
  rw [hnone]
  rfl

omit [SeededHash] in
theorem Stands.unexpecting (h : Stands key p op.id (some (.relaying s)) run)
    (hacc : s.acceptedLocally = op.acceptedLocally) : Unexpecting key p op false run :=
  unexpecting_of_none (relays_of_relaying h.state) (acceptance_of_eq h.state hacc) h.promises

omit [SeededHash] in
theorem unexpecting_of_some (hstate : run.op.state = some (.relaying s))
    (hbefore : op.acceptedLocally = false) (hafter : s.acceptedLocally = true)
    (hp : (promises key run.effects).expected = p.expected) : Unexpecting key p op true run := by
  refine ⟨relays_of_relaying hstate, ?_, hp, fun h => Bool.noConfusion h⟩
  rw [acceptance_of_newly hstate hbefore hafter]
  rfl

omit [SeededHash] in
theorem acceptedLocally_of_relaying (hs : op.state = some (.relaying s)) :
    s.acceptedLocally = op.acceptedLocally := by
  simp [ConnectOp.acceptedLocally, hs]

variable {msg : ConnectMsg} {recency : Table PeerKeyLocation Nat}

theorem accepts_eq_false (h : (s.acceptedLocally || s.accepts env recency) = s.acceptedLocally) :
    s.accepts env recency = false := by
  cases hs : s.acceptedLocally with
  | false =>
    rw [hs] at h
    exact h
  | true => simp [accepts, hs]

theorem retry_unexpecting (hopen : env.ChannelsOpen) (hkey : env.ownLocation.pubKey = key)
    {state : Option ConnectState} {giveUp : ConnectMsg}
    (hacc : s.acceptedLocally = op.acceptedLocally)
    (hgiveUp : ∀ target, (Effect.send target giveUp).ownResponse key = none) :
    Triple (fun run => Stands key p op.id state run ∧ run.op.recency = recency)
      (env.retry s giveUp) (fun _ => Unexpecting key p op (s.accepts env recency)) Err := by
  have hlooked : Triple (fun run => Stands key p op.id state run ∧ run.op.recency = recency)
      (env.lookAt s) _ Err := lookAt_stands
  refine hlooked.bind ?_
  rintro actions run ⟨turn, hfoll, hturn, rfl, hstands⟩
  revert run
  show Triple (Stands key p op.id (some (.relaying turn.state))) _ _ _
  rcases hfoll.acceptance with ⟨hsame, hresp, _⟩ | ⟨hbefore, hafter, hresp, _, _, _⟩
  · have hstate : turn.state.acceptedLocally = op.acceptedLocally :=
      (hsame.trans observe_acceptedLocally).trans hacc
    have hunexp : ∀ run, Stands key p op.id (some (.relaying turn.state)) run →
        Unexpecting key p op (s.accepts env recency) run := by
      intro run h
      rw [accepts_eq_false (hturn.symm.trans (hstate.trans hacc.symm))]
      exact h.unexpecting hstate
    rw [hresp]
    split
    · exact (forward_stands hopen).post (fun _ => hunexp)
    · exact (send_stands hopen (hgiveUp _)).post (fun _ => hunexp)
  · rw [observe_acceptedLocally] at hbefore
    have haccepts : s.accepts env recency = true := by
      rw [hafter, hbefore] at hturn
      exact hturn.symm
    rw [hresp, hkey, haccepts]
    split
    · refine (forward_stands hopen).post ?_
      rintro _ run ⟨hp, _, hs⟩
      exact unexpecting_of_some hs (hacc.symm.trans hbefore) hafter (congrArg Promises.expected hp)
    · refine (respond_stands hopen).post ?_
      rintro _ run ⟨hp, _, hs⟩
      exact unexpecting_of_some hs (hacc.symm.trans hbefore) hafter (by rw [hp])

theorem acceptsOnRetry_of_relaying (hs : op.state = some (.relaying s)) :
    env.acceptsOnRetry op msg = (msg.retried s).any fun s' => s'.accepts env op.recency := by
  simp [acceptsOnRetry, hs]

theorem acceptsOnRetry_of_not_relaying (h : ∀ s, op.state = some (.relaying s) → False) :
    env.acceptsOnRetry op msg = false := by
  unfold acceptsOnRetry
  split
  · rename_i s hs
    exact absurd hs (h s)
  · rfl

theorem acceptsOnRetry_of_retried_eq_none (h : ∀ s, msg.retried s = none) :
    env.acceptsOnRetry op msg = false := by
  unfold acceptsOnRetry
  split
  · rw [h]
    rfl
  · rfl

omit [SeededHash] in
theorem unexpecting_self {effects : List Effect} (hrelays : op.Relays) :
    Unexpecting key (promises key effects) op false ⟨op, effects⟩ := by
  refine unexpecting_of_none hrelays ?_ rfl
  cases hstate : op.state with
  | none => simp [acceptance, hstate]
  | some state =>
    cases state with
    | waitingForResponses s => exact absurd hstate (hrelays s)
    | relaying s => exact acceptance_of_eq hstate (acceptedLocally_of_relaying hstate)
    | completed => exact acceptance_of_completed hstate

omit [SeededHash] in
theorem stands_start (key : Nat) {effects : List Effect} : ∀ run : ConnectRun, run = ⟨op, effects⟩ →
    Stands key (promises key effects) op.id op.state run ∧ run.op.recency = op.recency := by
  rintro run rfl
  exact ⟨⟨rfl, rfl, rfl⟩, rfl⟩

omit [SeededHash] in
/-- A response that is passed on names an acceptor with an address. -/
theorem ownResponse_fillAddr (payload : ConnectResponse) (source target : SocketAddr)
    (id : Transaction) :
    (Effect.send target (.response id (payload.fillAddr (some source)))).ownResponse key = none := by
  have hne : (payload.fillAddr (some source)).acceptor ≠ ⟨key, none⟩ := by
    unfold ConnectResponse.fillAddr
    split
    · rename_i addr haddr
      intro heq
      rw [heq] at haddr
      cases haddr
    · intro heq
      cases congrArg PeerKeyLocation.socketAddr heq
  exact if_neg hne

variable {effects : List Effect} {id : Transaction} (hrelays : op.Relays) (hopen : env.ChannelsOpen)
  (hkey : env.ownLocation.pubKey = key)
include hrelays hopen hkey

theorem processRejected_unexpecting {desired : Location} :
    Triple (fun run => run = ⟨op, effects⟩) (env.processRejected desired)
      (fun _ => Unexpecting key (promises key effects) op
        (env.acceptsOnRetry op (.rejected id desired))) Err := by
  refine triple_get_bind ?_
  rintro run rfl
  split
  · rename_i s hs
    exact absurd hs (hrelays s)
  · rename_i s hs
    have hacc := acceptedLocally_of_relaying hs
    rw [acceptsOnRetry_of_relaying hs]
    exact (recordForwarded_stands.of_pre (stands_start key)).andThen
      (retry_unexpecting hopen hkey hacc fun _ => rfl)
  · rename_i _ hs
    rw [acceptsOnRetry_of_not_relaying hs]
    exact triple_pure fun run hrun => hrun ▸ unexpecting_self hrelays

theorem processConnectFailed_unexpecting {failedAcceptorAddr : SocketAddr} :
    Triple (fun run => run = ⟨op, effects⟩) (env.processConnectFailed failedAcceptorAddr)
      (fun _ => Unexpecting key (promises key effects) op
        (env.acceptsOnRetry op (.connectFailed id failedAcceptorAddr))) Err := by
  refine triple_get_bind ?_
  rintro run rfl
  split
  · rename_i s hs
    have hacc := acceptedLocally_of_relaying hs
    have hrecord : Triple (fun run => run = ⟨op, effects⟩)
        (emit (.recordAcceptorFailure failedAcceptorAddr)) (fun _ run =>
          Stands key (promises key effects) op.id op.state run ∧ run.op.recency = op.recency) Err := by
      rintro run rfl
      exact ⟨⟨promises_cons_quiet ⟨rfl, rfl, rfl⟩, rfl, rfl⟩, rfl⟩
    refine hrecord.andThen ?_
    rw [acceptsOnRetry_of_relaying hs]
    unfold ConnectMsg.retried
    split
    · rename_i addr hdown
      rw [hdown]
      exact (((send_stands hopen rfl).of_pre fun _ h => h.1).andThen setState_stands).post
        fun _ _ h => h.unexpecting hacc
    · rename_i hdown
      rw [hdown]
      exact recordForwarded_stands.andThen (retry_unexpecting hopen hkey hacc fun _ => rfl)
  · rename_i s hs
    exact absurd hs (hrelays s)
  · rename_i hs _
    rw [acceptsOnRetry_of_not_relaying hs]
    exact triple_pure fun run hrun => hrun ▸ unexpecting_self hrelays

omit [SeededHash] hkey in
theorem processResponse_unexpecting {payload : ConnectResponse} {source : SocketAddr} :
    Triple (fun run => run = ⟨op, effects⟩) (env.processResponse payload (some source))
      (fun _ => Unexpecting key (promises key effects) op false) Err := by
  refine triple_get_bind ?_
  rintro run rfl
  split
  · rename_i s hs
    exact absurd hs (hrelays s)
  · rename_i s hs
    have hacc := acceptedLocally_of_relaying hs
    refine (recordForwarded_stands.of_pre (stands_start key)).andThen (triple_get_bind ?_)
    rintro run ⟨hstands, _⟩
    have hsent : Triple (fun t => t = run) (env.send s.upstreamAddr
        (.response run.op.id (payload.fillAddr (some source)))) _ Err :=
      (send_stands hopen (ownResponse_fillAddr payload source _ _)).of_pre (fun _ ht => ht ▸ hstands)
    exact (hsent.andThen setState_stands).post fun _ _ h => h.unexpecting hacc
  · exact triple_pure fun run hrun => hrun ▸ unexpecting_self hrelays

omit [SeededHash] hopen hkey in
theorem processObservedAddress_unexpecting {address : SocketAddr} :
    Triple (fun run => run = ⟨op, effects⟩) (processObservedAddress address)
      (fun _ => Unexpecting key (promises key effects) op false) Err := by
  have hnoted : Triple (fun run => run = ⟨op, effects⟩) (noteObserved address)
      (fun _ run => run = ⟨op, effects⟩) Err := by
    refine triple_get_bind ?_
    rintro run rfl
    split
    · rename_i s hs
      exact absurd hs (hrelays s)
    · exact triple_skip
  refine hnoted.andThen (triple_modify ?_)
  rintro run rfl
  have hself : Unexpecting key (promises key effects) op false ⟨op, effects⟩ :=
    unexpecting_self hrelays
  exact ⟨hrelays, hself.decided, rfl, fun _ => promises_cons_quiet ⟨rfl, rfl, rfl⟩⟩

theorem processMessage_unexpecting {source : SocketAddr} (hmsg : msg.isRequest = false) :
    Triple (fun run => run = ⟨op, effects⟩) (env.processMessage msg (some source))
      (fun _ => Unexpecting key (promises key effects) op (env.acceptsOnRetry op msg)) Err := by
  cases msg with
  | request id payload => exact Bool.noConfusion hmsg
  | response id payload =>
    rw [acceptsOnRetry_of_retried_eq_none fun _ => rfl]
    exact processResponse_unexpecting hrelays hopen
  | observedAddress id address =>
    rw [acceptsOnRetry_of_retried_eq_none fun _ => rfl]
    exact processObservedAddress_unexpecting hrelays
  | rejected id desired => exact processRejected_unexpecting hrelays hopen hkey
  | connectFailed id failed => exact processConnectFailed_unexpecting hrelays hopen hkey

end Retry

end Freenet.Operations.Connect
