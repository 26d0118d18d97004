import Freenet.Operations.ConnectMessages

/-! The joiner of a CONNECT: what it decides, and that acceptances complete it only with as many
connections as it wanted. -/
namespace Freenet.Operations.Connect
open Lib Lib.Task Node Environment List Finset JoinerState

def Effect.connectedPeer : Effect → Option PeerKeyLocation
  | .connected peer => some peer
  | _ => none

def established (effects : List Effect) : Finset PeerKeyLocation :=
  (effects.filterMap Effect.connectedPeer).toFinset

theorem established_subset_cons (e : Effect) (effects : List Effect) :
    established effects ⊆ established (e :: effects) := by
  intro peer hpeer
  unfold established at hpeer ⊢
  rw [mem_toFinset] at hpeer ⊢
  obtain ⟨e', he', heq⟩ := mem_filterMap.mp hpeer
  exact mem_filterMap.mpr ⟨e', mem_cons_of_mem e he', heq⟩

theorem mem_established_connected (peer : PeerKeyLocation) (effects : List Effect) :
    peer ∈ established (.connected peer :: effects) := by
  unfold established
  rw [mem_toFinset]
  exact mem_filterMap.mpr ⟨_, mem_cons_self, rfl⟩

/-- While the joiner waits, everybody it counts as an acceptor is connected. -/
def Awaits (target : Nat) (run : ConnectRun) : Prop :=
  ∀ s, run.op.state = some (.waitingForResponses s) →
    s.targetConnections = target ∧ s.accepted ⊆ established run.effects

namespace Awaits
variable {target : Nat} {env : Environment} {run : ConnectRun}

variable (target) in
theorem framed : Framed (Awaits target) fun _ => True where
  bookkeeping _ _ _ hrun := hrun
  emit run e _ hrun := by
    intro s hs
    obtain ⟨htarg, hacc⟩ := hrun s hs
    exact ⟨htarg, Finset.Subset.trans hacc (established_subset_cons e run.effects)⟩

theorem of_state {state : ConnectState} (hstate : ∀ s, state ≠ .waitingForResponses s)
    (effects : List Effect) (op : ConnectOp) :
    Awaits target ⟨{ op with state := some state }, effects⟩ := by
  intro s hs
  exact absurd (Option.some.inj hs) (hstate s)

theorem keeps_setState_of_ne {state : ConnectState} (hstate : ∀ s, state ≠ .waitingForResponses s) :
    Preserves (Awaits target) (setState state) := by
  refine keeps_modify ?_
  intro run _
  exact of_state hstate run.effects run.op

section Relay
variable [SeededHash]

theorem keeps_lookAt (s : RelayState) : Preserves (Awaits target) (env.lookAt s) := by
  intro run _
  refine ⟨?_, trivial⟩
  intro s' hs'
  cases hs'

/-- What a relay does leaves no joiner behind that waits with a wrong count. -/
theorem keeps_processRequest (payload : ConnectRequest) (source : Option SocketAddr) :
    Preserves (Awaits target) (env.processRequest payload source) := by
  have hF := framed target
  have hreject : ∀ upstreamAddr desired, Preserves (Awaits target) (env.reject upstreamAddr desired) := by
    intro upstreamAddr desired
    refine keeps_get.bind fun _ _ => ?_
    exact (hF.keeps_send trivial).andThen (keeps_setState_of_ne (by simp))
  cases source with
  | none => exact keeps_throw
  | some upstreamAddr =>
    unfold processRequest
    dsimp only
    split_ifs
    · have hhandle : Preserves (Awaits target) (env.handleRequest upstreamAddr payload) := by
        refine (hF.keeps_expireForwardAttempts fun _ _ => trivial).andThen ?_
        refine keeps_get.bind fun _ _ => ?_
        split
        · exact keeps_lookAt _
        · exact keeps_lookAt _
      refine hhandle.bind fun actions _ => ?_
      refine (hF.keeps_sendObserved fun _ _ => trivial).andThen ?_
      refine (hF.keeps_expectJoiner (fun _ => trivial) fun _ => trivial).andThen ?_
      refine (hF.keeps_forwardIfAny fun _ _ _ _ _ _ => trivial).andThen ?_
      split_ifs
      · exact hreject _ _
      · exact hF.keeps_respondIfAny fun _ _ _ => trivial
    · exact hreject _ _

theorem keeps_retry (s : RelayState) (giveUp : ConnectMsg) :
    Preserves (Awaits target) (env.retry s giveUp) := by
  have hF := framed target
  refine (keeps_lookAt s).bind fun actions _ => ?_
  split
  · exact hF.keeps_forward fun _ _ _ => trivial
  · split
    · exact hF.keeps_respondIfAny fun _ _ _ => trivial
    · exact hF.keeps_send trivial

theorem keeps_processRejected (desired : Location) :
    Preserves (Awaits target) (env.processRejected desired) := by
  have hF := framed target
  refine keeps_get.bind fun run _ => ?_
  split
  · refine (hF.keeps_emit trivial).andThen ?_
    exact (hF.keeps_emitFor fun _ => trivial).andThen (keeps_setState_of_ne (by simp))
  · exact (hF.keeps_recordForwarded fun _ => trivial).andThen (keeps_retry _ _)
  · exact keeps_done

theorem keeps_processConnectFailed (failedAcceptorAddr : SocketAddr) :
    Preserves (Awaits target) (env.processConnectFailed failedAcceptorAddr) := by
  have hF := framed target
  refine keeps_get.bind fun run _ => ?_
  split
  · rename_i s _
    refine (hF.keeps_emit trivial).andThen ?_
    split
    · exact (hF.keeps_send trivial).andThen (keeps_setState_of_ne (by simp))
    · exact (hF.keeps_recordForwarded fun _ => trivial).andThen (keeps_retry _ _)
  · exact (hF.keeps_emit trivial).andThen (keeps_setState_of_ne (by simp))
  · exact keeps_done

end Relay

theorem keeps_relayResponse (s : RelayState) (payload : ConnectResponse) :
    Preserves (Awaits target) (env.relayResponse s payload) := by
  have hF := framed target
  refine (hF.keeps_recordForwarded fun _ => trivial).andThen (keeps_get.bind fun _ _ => ?_)
  exact (hF.keeps_send trivial).andThen (keeps_setState_of_ne (by simp))

theorem processObservedAddress_awaits (address : SocketAddr) :
    Yields (Awaits target) (processObservedAddress address) (fun _ => Awaits target) := by
  have hnote : Yields (Awaits target) (noteObserved address) (fun _ => Awaits target) := by
    refine triple_get_bind ?_
    intro run hrun
    split
    · rename_i s hs
      refine triple_modify ?_
      rintro _ rfl s' hs'
      cases hs'
      exact hrun s hs
    · refine triple_pure ?_
      rintro _ rfl
      exact hrun
  exact hnote.andThen ((framed _).keeps_emit trivial).triple_done

end Awaits

def Counted (state : ConnectState) (accepted : Finset PeerKeyLocation) (run : ConnectRun) : Prop :=
  run.op.state = some state ∧ accepted ⊆ established run.effects

/-- The joiner has all the connections it wanted, or it waits on. -/
def Decided (target : Nat) (satisfied : Bool) (run : ConnectRun) : Prop :=
  if satisfied then target ≤ (established run.effects).card
  else ∃ s, run.op.state = some (.waitingForResponses s) ∧ s.targetConnections = target ∧
    s.accepted ⊆ established run.effects

section Response
variable {target : Nat} {env : Environment} {s : JoinerState} {payload : ConnectResponse}
  {state : ConnectState} {accepted : Finset PeerKeyLocation}

theorem Counted.framed : Framed (Counted state accepted) fun _ => True where
  bookkeeping _ _ _ hrun := hrun
  emit run e _ hrun :=
    ⟨hrun.1, Finset.Subset.trans hrun.2 (established_subset_cons e run.effects)⟩

theorem Decided.framed {satisfied : Bool} : Framed (Decided target satisfied) fun _ => True where
  bookkeeping _ _ _ hrun := hrun
  emit run e _ hrun := by
    have hmore := established_subset_cons e run.effects
    cases satisfied with
    | true => exact Nat.le_trans hrun (card_le_card hmore)
    | false =>
      obtain ⟨s, hs, htarg, hacc⟩ := hrun
      exact ⟨s, hs, htarg, Finset.Subset.trans hacc hmore⟩

def JoinerState.counted (s : JoinerState) (payload : ConnectResponse) : ConnectState :=
  if (s.registerAcceptance payload).2.satisfied then .completed
  else .waitingForResponses (s.registerAcceptance payload).1

theorem setState_counted (next : ConnectState) :
    Yields (fun run => accepted ⊆ established run.effects) (setState next)
      (fun _ => Counted next accepted) :=
  triple_modify fun _ hrun => ⟨rfl, hrun⟩

theorem completeIfSatisfied_counted :
    Yields (Counted (.waitingForResponses (s.registerAcceptance payload).1) accepted)
      (env.completeIfSatisfied (s.registerAcceptance payload).1 (s.registerAcceptance payload).2.satisfied)
      (fun _ => Counted (s.counted payload) accepted) := by
  unfold completeIfSatisfied counted
  split_ifs
  · exact triple_throw fun _ _ => trivial
  · exact (setState_counted .completed).of_pre (fun _ hrun => hrun.2)
  · exact triple_skip

theorem handleResponse_counted :
    Yields (fun run => s.accepted ⊆ established run.effects) (env.handleResponse s payload)
      (fun acceptance run => Counted (s.counted payload) s.accepted run ∧
        acceptance = (s.registerAcceptance payload).2) := by
  have hforg : Yields (Counted (.waitingForResponses (s.registerAcceptance payload).1) s.accepted)
      (forgetRecency (s.registerAcceptance payload).2.newAcceptor)
      (fun _ => Counted (.waitingForResponses (s.registerAcceptance payload).1) s.accepted) := by
    unfold forgetRecency
    split
    · exact triple_skip
    · exact triple_modify fun _ hrun => hrun
  refine (setState_counted _).andThen (hforg.andThen (completeIfSatisfied_counted.andThen ?_))
  exact triple_pure fun _ hrun => ⟨hrun, rfl⟩

section Deciding
variable (htarg : s.targetConnections = target)
include htarg

theorem decided_of_counted {run : ConnectRun} (hstate : run.op.state = some (s.counted payload))
    (hacc : insert payload.acceptor s.accepted ⊆ established run.effects) :
    Decided target (s.registerAcceptance payload).2.satisfied run := by
  unfold Decided
  split_ifs with hsat
  · have hcard : s.targetConnections ≤ (insert payload.acceptor s.accepted).card := by
      simpa [registerAcceptance] using hsat
    rw [← htarg]
    exact Nat.le_trans hcard (card_le_card hacc)
  · refine ⟨(s.registerAcceptance payload).1, ?_, htarg, hacc⟩
    rw [hstate]
    unfold counted
    rw [if_neg hsat]

/-- The connection attempt of the response that makes the joiner's count complete succeeds. -/
def Environment.LastPunchSucceeds (env : Environment) (s : JoinerState) (payload : ConnectResponse) : Prop :=
  payload.acceptor ∉ s.accepted → s.targetConnections ≤ (insert payload.acceptor s.accepted).card →
    env.connectResult payload.acceptor = some true

theorem takeBack_decided (hnew : payload.acceptor ∉ s.accepted)
    (hopen : (s.registerAcceptance payload).2.satisfied = false) (satisfied : Bool) :
    Yields (Counted (s.counted payload) s.accepted) (takeBack payload.acceptor satisfied)
      (Decided target) := by
  refine triple_get_bind ?_
  rintro run ⟨hstate, hacc⟩
  have hwaits : run.op.state = some (.waitingForResponses (s.registerAcceptance payload).1) := by
    rw [hstate]
    unfold counted
    rw [hopen, if_neg Bool.false_ne_true]
  have herase : (s.registerAcceptance payload).1.accepted.erase payload.acceptor = s.accepted :=
    erase_insert hnew
  rw [hwaits]
  dsimp only
  rw [herase]
  have hset : Yields (fun run => s.accepted ⊆ established run.effects)
      (setState (.waitingForResponses { (s.registerAcceptance payload).1 with accepted := s.accepted }))
      _ := setState_counted _
  refine (hset.of_pre ?_).andThen (triple_pure ?_)
  · rintro _ rfl
    exact hacc
  · rintro after ⟨hafter, hconn⟩
    unfold Decided
    split_ifs with hsat
    · rw [← htarg]
      exact Nat.le_trans (of_decide_eq_true hsat) (card_le_card hconn)
    · exact ⟨_, hafter, htarg, hconn⟩

theorem awaitConnection_decided (hnew : payload.acceptor ∉ s.accepted)
    (hlast : env.LastPunchSucceeds s payload) :
    Yields (Counted (s.counted payload) s.accepted)
      (env.awaitConnection payload.acceptor (s.registerAcceptance payload).2.satisfied)
      (Decided target) := by
  unfold awaitConnection
  split
  · have hconn : Yields (Counted (s.counted payload) s.accepted)
        (emit (.connected payload.acceptor))
        (fun _ => Decided target (s.registerAcceptance payload).2.satisfied) := by
      refine triple_modify ?_
      rintro run ⟨hstate, hacc⟩
      refine decided_of_counted htarg hstate ?_
      refine insert_subset (mem_established_connected _ _) ?_
      exact Finset.Subset.trans hacc (established_subset_cons _ _)
    refine hconn.andThen ?_
    refine (Decided.framed.keeps_emitFor fun _ => trivial).triple_done.andThen ?_
    exact triple_pure fun _ h => h
  · rename_i hfail
    have hopen : (s.registerAcceptance payload).2.satisfied = false := by
      cases hsat : (s.registerAcceptance payload).2.satisfied with
      | false => rfl
      | true =>
        have hcard : s.targetConnections ≤ (insert payload.acceptor s.accepted).card := by
          simpa [registerAcceptance] using hsat
        exact absurd (hlast hnew hcard) hfail
    refine (takeBack_decided htarg hnew hopen _).bind fun satisfied => ?_
    have hreport : Preserves (Decided target satisfied) (env.reportFailed payload.acceptor) := by
      refine keeps_get.bind fun _ _ => ?_
      split
      · exact Decided.framed.keeps_send trivial
      · exact keeps_done
    refine hreport.triple_done.andThen ?_
    exact triple_pure fun _ h => h

theorem connectAcceptor_decided (hlast : env.LastPunchSucceeds s payload) :
    Yields (Counted (s.counted payload) s.accepted)
      (env.connectAcceptor (s.registerAcceptance payload).2) (Decided target) := by
  have hF : Framed (Counted (s.counted payload) s.accepted) fun _ => True := Counted.framed
  by_cases hmem : payload.acceptor ∈ s.accepted
  · have hnone : (s.registerAcceptance payload).2.newAcceptor = none := if_pos hmem
    unfold connectAcceptor
    rw [hnone]
    refine triple_pure ?_
    rintro run ⟨hstate, hacc⟩
    refine decided_of_counted htarg hstate ?_
    rwa [insert_eq_of_mem hmem]
  · have hsome : (s.registerAcceptance payload).2.newAcceptor = some payload.acceptor :=
      if_neg hmem
    unfold connectAcceptor
    rw [hsome]
    have hexpect : Preserves (Counted (s.counted payload) s.accepted)
        (env.expectAcceptor payload.acceptor) := by
      unfold expectAcceptor
      split
      · exact keeps_done
      · exact hF.keeps_notifyExpect trivial
    have hconnect : Preserves (Counted (s.counted payload) s.accepted)
        (env.notifyConnect payload.acceptor) := hF.keeps_notifyConnect trivial
    exact hexpect.triple_done.andThen
      (hconnect.triple_done.andThen (awaitConnection_decided htarg hmem hlast))

end Deciding

/-- The operation waits with a right count, or is completed with the connections that were
wanted. -/
def Connected (target : Nat) (run : ConnectRun) : Prop :=
  Awaits target run ∧ (run.op.isCompleted = true → target ≤ (established run.effects).card)

theorem Connected.framed : Framed (Connected target) fun _ => True where
  bookkeeping _ _ _ hrun := hrun
  emit run e _ hrun := by
    refine ⟨(Awaits.framed _).emit run e trivial hrun.1, ?_⟩
    intro hcompl
    exact Nat.le_trans (hrun.2 hcompl) (card_le_card (established_subset_cons e run.effects))

theorem joinerSatisfied_connected :
    Yields (Decided target true) joinerSatisfied (fun _ => Connected target) := by
  have hF : Framed (Connected target) fun _ => True := Connected.framed
  have hdone : Yields (Decided target true) (setState .completed) (fun _ => Connected target) := by
    refine triple_modify ?_
    intro run hrun
    exact ⟨Awaits.of_state (by simp) run.effects run.op, fun _ => hrun⟩
  refine hdone.andThen (Keeps.triple_done (P := fun _ => True) ?_)
  refine (hF.keeps_emit trivial).andThen (keeps_get.bind fun _ _ => ?_)
  exact (hF.keeps_emitFor fun _ => trivial).andThen (hF.keeps_emitFor fun _ => trivial)

theorem joinerResponse_connected (htarg : s.targetConnections = target)
    (hlast : env.LastPunchSucceeds s payload) :
    Yields (fun run => s.accepted ⊆ established run.effects) (env.joinerResponse s payload)
      (fun _ => Connected target) := by
  refine handleResponse_counted.bind fun acceptance => ?_
  refine triple_of_fact ?_
  rintro rfl
  refine (connectAcceptor_decided htarg hlast).bind fun satisfied => ?_
  cases satisfied with
  | true => exact joinerSatisfied_connected
  | false =>
    refine triple_pure ?_
    rintro run ⟨s', hs', htarg', hacc⟩
    constructor
    · intro s'' hs''
      cases hs'.symm.trans hs''
      exact ⟨htarg', hacc⟩
    · intro hcompl
      unfold ConnectOp.isCompleted at hcompl
      rw [hs'] at hcompl
      exact Bool.noConfusion hcompl

end Response

structure ConnectEvent where
  msg : ConnectMsg
  source : Option SocketAddr
  env : Environment

/-- The response that would complete the joiner's count leads to a connection. -/
def ConnectEvent.LastPunchSucceeds (node : ConnectNode) (e : ConnectEvent) : Prop :=
  ∀ id payload op s, e.msg = .response id payload → node.op = some op →
    op.state = some (.waitingForResponses s) →
    e.env.LastPunchSucceeds s (payload.fillAddr e.source)

/-- Everybody a waiting joiner counts as an acceptor is connected. -/
def ConnectNode.Awaits (target : Nat) (node : ConnectNode) : Prop :=
  ∀ op, node.op = some op → Connect.Awaits target ⟨op, node.effects⟩

variable {target : Nat} {op : ConnectOp}

theorem processResponse_apply (env : Environment) (payload : ConnectResponse)
    (source : Option SocketAddr) (op : ConnectOp) (effects : List Effect) :
    env.processResponse payload source ⟨op, effects⟩ = match op.state with
      | some (.waitingForResponses s) => env.joinerResponse s (payload.fillAddr source) ⟨op, effects⟩
      | some (.relaying s) => env.relayResponse s (payload.fillAddr source) ⟨op, effects⟩
      | _ => .ok () ⟨op, effects⟩ := by
  obtain ⟨_, _ | state, _⟩ := op
  · rfl
  · cases state <;> rfl

variable {source : Option SocketAddr} {payload : ConnectResponse} {effects : List Effect}
  {env : Environment} {run : ConnectRun}

theorem processResponse_connected {s : JoinerState} (hs : op.state = some (.waitingForResponses s))
    (hawaits : Awaits target ⟨op, effects⟩) (hlast : env.LastPunchSucceeds s (payload.fillAddr source))
    (hrun : env.processResponse payload source ⟨op, effects⟩ = .ok () run) : Connected target run := by
  obtain ⟨htarg, hacc⟩ := hawaits s hs
  rw [processResponse_apply, hs] at hrun
  exact (joinerResponse_connected htarg hlast).ok hacc hrun

theorem processResponse_awaits (hawaits : Awaits target ⟨op, effects⟩)
    (hlast : ∀ s, op.state = some (.waitingForResponses s) →
      env.LastPunchSucceeds s (payload.fillAddr source))
    (hrun : env.processResponse payload source ⟨op, effects⟩ = .ok () run) : Awaits target run := by
  have hstep := hrun
  rw [processResponse_apply] at hstep
  split at hstep
  · rename_i s hs
    exact (processResponse_connected hs hawaits (hlast s hs) hrun).1
  · exact (Awaits.keeps_relayResponse _ _).triple_done.ok hawaits hstep
  · cases hstep
    exact hawaits

section Runs
variable [SeededHash]

def ConnectEvent.after (node : ConnectNode) (e : ConnectEvent) : ConnectNode :=
  e.env.handle node e.msg e.source

def ConnectEvent.CompletesByAcceptance (node : ConnectNode) (e : ConnectEvent) : Prop :=
  ∃ id payload op s run, e.msg = .response id payload ∧ e.env.popsOp = true ∧ node.op = some op ∧
    op.state = some (.waitingForResponses s) ∧
    e.env.processMessage e.msg e.source ⟨op, node.effects⟩ = .ok () run ∧ run.op.isCompleted = true

/-- A node that has started to join, with any messages for its transaction. -/
def joining (targetConnections : Nat) : Machine ConnectNode ConnectEvent where
  init node := ∃ tx own target desiredLocation ttl excludeAddrs, node =
    ⟨some (initiateJoinRequest tx own target desiredLocation ttl targetConnections excludeAddrs).1, []⟩
  step node e := some (e.after node)

variable {target : Nat} {node : ConnectNode} {e : ConnectEvent} {op : ConnectOp} {run : ConnectRun}

theorem processMessage_awaits {effects : List Effect}
    (hawaits : Awaits target ⟨op, effects⟩) (hlast : ∀ id payload s, e.msg = .response id payload →
      op.state = some (.waitingForResponses s) → e.env.LastPunchSucceeds s (payload.fillAddr e.source))
    (hrun : e.env.processMessage e.msg e.source ⟨op, effects⟩ = .ok () run) : Awaits target run := by
  obtain ⟨msg, source, env⟩ := e
  cases msg with
  | request id payload => exact (Awaits.keeps_processRequest payload source).triple_done.ok hawaits hrun
  | response id payload =>
    exact processResponse_awaits hawaits (fun s hs => hlast id payload s rfl hs) hrun
  | observedAddress id address => exact (Awaits.processObservedAddress_awaits address).ok hawaits hrun
  | rejected id desired => exact (Awaits.keeps_processRejected desired).triple_done.ok hawaits hrun
  | connectFailed id failedAcceptorAddr =>
    exact (Awaits.keeps_processConnectFailed failedAcceptorAddr).triple_done.ok hawaits hrun

omit [SeededHash] in
theorem ConnectNode.Awaits.of_run (hrun : Connect.Awaits target run) : (e.env.finish run).Awaits target := by
  intro op hop
  unfold finish at hop ⊢
  split_ifs at hop ⊢
  cases hop
  exact hrun

omit [SeededHash] in
theorem loaded_cases (h : (if e.env.popsOp then loadOrInit node.op e.msg e.source else none) = some op) :
    node.op = some op ∨ ∃ s, op.state = some (.relaying s) := by
  split_ifs at h
  unfold loadOrInit at h
  split at h
  · rename_i hkept
    cases h
    exact .inl hkept
  · cases h
    exact .inr ⟨_, rfl⟩
  · cases h

theorem awaits_after (hnode : node.Awaits target) (hlast : e.LastPunchSucceeds node) :
    (e.after node).Awaits target := by
  unfold ConnectEvent.after handle
  cases hload : (if e.env.popsOp then loadOrInit node.op e.msg e.source else none) with
  | none =>
    intro op hop s hs
    obtain ⟨htarg, hacc⟩ := hnode op hop s hs
    refine ⟨htarg, Finset.Subset.trans hacc ?_⟩
    show established node.effects ⊆ established (e.msg.unclaimed ++ node.effects)
    unfold ConnectMsg.unclaimed
    split
    · exact established_subset_cons _ _
    · exact Finset.Subset.refl _
  | some op =>
    have hkept := loaded_cases hload
    have hawaits : Awaits target ⟨op, node.effects⟩ := by
      rcases hkept with hop | ⟨s, hs⟩
      · exact hnode op hop
      · intro s' hs'
        cases hs.symm.trans hs'
    have hpunch : ∀ id payload s, e.msg = .response id payload →
        op.state = some (.waitingForResponses s) →
        e.env.LastPunchSucceeds s (payload.fillAddr e.source) := by
      intro id payload s hmsg hs
      rcases hkept with hop | ⟨s', hs'⟩
      · exact hlast id payload op s hmsg hop hs
      · cases hs.symm.trans hs'
    dsimp only
    split
    · rename_i run hrun
      exact ConnectNode.Awaits.of_run (processMessage_awaits hawaits hpunch hrun)
    · intro op' hop'
      unfold abort at hop'
      split at hop' <;> cases hop'
    · intro op' hop'
      cases hop'

/-- Whatever messages the joiner gets, its operation is completed by acceptances only with
connections to as many acceptors as it wanted, provided that the attempt to connect to the last one
succeeds. -/
theorem completed_only_connected {start : ConnectNode} (hstart : (joining target).init start)
    {es : List ConnectEvent}
    (hlast : (joining target).Along (fun node e => e.LastPunchSucceeds node) start (es ++ [e]))
    (hrun : (joining target).runFrom start es = some node) (hcompletes : e.CompletesByAcceptance node) :
    target ≤ (established (e.after node).effects).card := by
  have hnode : node.Awaits target := by
    refine (joining target).invariant_of_along _ (ConnectNode.Awaits target) ?_ ?_
      ((joining target).along_of_append hlast) hrun
    · intro node e node' hnode he hstep
      cases hstep
      exact awaits_after hnode he
    · obtain ⟨tx, own, peer, desiredLocation, ttl, excludeAddrs, rfl⟩ := hstart
      rintro op ⟨⟩ s ⟨⟩
      exact ⟨rfl, Finset.empty_subset _⟩
  have hpunch : e.LastPunchSucceeds node := (joining target).along_at hlast hrun
  obtain ⟨id, payload, op, s, run, hmsg, hpops, hop, hs, hproc, hcompl⟩ := hcompletes
  have hconn : Connected target run := by
    have hresp := hproc
    rw [hmsg] at hresp
    exact processResponse_connected hs (hnode op hop) (hpunch id payload op s hmsg hop hs) hresp
  have hafter : e.after node = ⟨none, .finished :: run.effects⟩ := by
    unfold ConnectEvent.after handle
    rw [if_pos hpops, hop]
    dsimp only [loadOrInit]
    rw [hproc]
    dsimp only
    unfold finish
    rw [if_pos hcompl]
  rw [hafter]
  exact Nat.le_trans (hconn.2 hcompl) (Finset.card_le_card (established_subset_cons _ _))

end Runs

def joinerWanting (target : Nat) : ConnectNode where
  op := some (@initiateJoinRequest addingHash joinTransaction (peerAt 9) (peerAt 1) 0 10 target []).1
  effects := []

/-- The acceptor at this address answers, and the attempt to connect to it succeeds or fails. -/
def acceptedBy (addr : SocketAddr) (connects : Bool) : ConnectEvent where
  msg := .response joinTransaction ⟨⟨addr, none⟩⟩
  source := some addr
  env := { plain (peerAt 9) [] with connectResult := fun _ => some connects }

theorem joinerWanting_init (target : Nat) : (@joining addingHash target).init (joinerWanting target) :=
  ⟨joinTransaction, peerAt 9, peerAt 1, 0, 10, [], rfl⟩

/-- Two acceptors are connected one after the other, and the joiner has the connections it
wanted. -/
theorem joiner_completes_with_two : ∃ node,
    (@joining addingHash 2).runFrom (joinerWanting 2) [acceptedBy 5 true] = some node ∧
    @ConnectEvent.CompletesByAcceptance addingHash node (acceptedBy 6 true) ∧
    2 ≤ (established (@ConnectEvent.after addingHash node (acceptedBy 6 true)).effects).card := by
  have hlast : (@joining addingHash 2).Along (fun node e => e.LastPunchSucceeds node) (joinerWanting 2)
      ([acceptedBy 5 true] ++ [acceptedBy 6 true]) :=
    ⟨fun _ _ _ _ _ _ _ _ _ => rfl, fun _ _ => ⟨fun _ _ _ _ _ _ _ _ _ => rfl, fun _ _ => trivial⟩⟩
  obtain ⟨node, hrun, hcomplete⟩ : ∃ node,
      (@joining addingHash 2).runFrom (joinerWanting 2) [acceptedBy 5 true] = some node ∧
      @ConnectEvent.CompletesByAcceptance addingHash node (acceptedBy 6 true) :=
    ⟨_, rfl, _, _, _, _, _, rfl, rfl, rfl, rfl, rfl, rfl⟩
  exact ⟨node, hrun, hcomplete, @completed_only_connected addingHash 2 node (acceptedBy 6 true)
    (joinerWanting 2) (joinerWanting_init 2) [acceptedBy 5 true] hlast hrun hcomplete⟩

/-- The connection fails, and the operation is completed without any. -/
theorem joiner_completes_with_none : (@joining addingHash 1).init (joinerWanting 1) ∧
    @ConnectEvent.CompletesByAcceptance addingHash (joinerWanting 1) (acceptedBy 5 false) ∧
    established (@ConnectEvent.after addingHash (joinerWanting 1) (acceptedBy 5 false)).effects = ∅ ∧
    ¬ 1 ≤ (established (@ConnectEvent.after addingHash (joinerWanting 1)
      (acceptedBy 5 false)).effects).card := by
  have hnone : established (@ConnectEvent.after addingHash (joinerWanting 1)
      (acceptedBy 5 false)).effects = ∅ := rfl
  refine ⟨joinerWanting_init 1, ⟨_, _, _, _, _, rfl, rfl, rfl, rfl, rfl, rfl⟩, hnone, ?_⟩
  decide

end Freenet.Operations.Connect
