import Freenet.Operations.ConnectMessages

/-! Which peers a relay marks as visited, and that it forwards only to peers its filter does not
know. -/
namespace Freenet.Operations.Connect
open Lib.Task Node Environment VisitedPeers

section Marks
variable [SeededHash] (env : Environment) (visited : VisitedPeers)

/-- Requests go only to neighbors that the filter lets through, and carry the filter. -/
def ForwardsUnvisited (effects : List Effect) : Prop :=
  ∀ addr id request, Effect.send addr (.request id request) ∈ effects →
    request.visited = visited ∧ ∃ peer ∈ env.routingCandidates visited, peer.socketAddr = some addr

def HoldsFilter (op : ConnectOp) : Prop :=
  ∀ s, op.state = some (.relaying s) → s.request.visited = visited

def UnvisitedEffect (e : Effect) : Prop :=
  ∀ addr id request, e = .send addr (.request id request) →
    request.visited = visited ∧ ∃ peer ∈ env.routingCandidates visited, peer.socketAddr = some addr

variable {env visited} {run : ConnectRun} {effects : List Effect}

theorem ForwardsUnvisited.cons (h : ForwardsUnvisited env visited effects) {e : Effect}
    (he : UnvisitedEffect env visited e) : ForwardsUnvisited env visited (e :: effects) := by
  intro addr id request hmem
  rcases List.mem_cons.mp hmem with heq | hold
  · exact he addr id request heq.symm
  · exact h addr id request hold

variable (env visited) in
abbrev ForwardedPast (run : ConnectRun) : Prop := ForwardsUnvisited env visited run.effects

theorem framed_forwardedPast : Framed (ForwardedPast env visited) (UnvisitedEffect env visited) where
  bookkeeping _ _ _ hrun := hrun
  emit _ _ he hrun := hrun.cons he

def Marked (env : Environment) (visited : VisitedPeers) (run : ConnectRun) : Prop :=
  HoldsFilter visited run.op ∧ ForwardsUnvisited env visited run.effects

variable (env visited) in
/-- The task forwards past the filter, and holds it unless it fails. -/
abbrev Marks {α : Type} (Pre : ConnectRun → Prop) (m : ConnectTask α) : Prop :=
  Triple Pre m (fun _ => Marked env visited) fun _ => ForwardedPast env visited

variable (env visited) in
theorem framed_marked : Framed (Marked env visited) (UnvisitedEffect env visited) where
  bookkeeping _ _ _ hrun := hrun
  emit _ _ he hrun := ⟨hrun.1, hrun.2.cons he⟩

theorem keeps_setState_completed : Preserves (Marked env visited) (setState .completed) := by
  refine keeps_modify ?_
  intro run hrun
  refine ⟨?_, hrun.2⟩
  intro s hs
  cases hs

variable {s : RelayState}

theorem keeps_setState_relaying (hs : s.request.visited = visited) :
    Preserves (Marked env visited) (setState (.relaying s)) := by
  refine keeps_modify ?_
  intro run hrun
  refine ⟨?_, hrun.2⟩
  intro s' hs'
  cases hs'
  exact hs

def AllowedForward (env : Environment) (visited : VisitedPeers)
    (forward : Option (PeerKeyLocation × ConnectRequest)) : Prop :=
  ∀ peer request, forward = some (peer, request) →
    request.visited = visited ∧ peer ∈ env.routingCandidates visited

theorem AllowedForward.quiet {forward : Option (PeerKeyLocation × ConnectRequest)}
    (h : AllowedForward env visited forward) (peer : PeerKeyLocation) (request : ConnectRequest)
    (hforw : forward = some (peer, request)) (addr : SocketAddr) (id : Transaction)
    (haddr : peer.socketAddr = some addr) :
    UnvisitedEffect env visited (.send addr (.request id request)) := by
  obtain ⟨hvisit, hpeer⟩ := h peer request hforw
  intro addr' id' request' heq
  cases heq
  exact ⟨hvisit, peer, hpeer, haddr⟩

theorem lookAt_marked (hs : (s.marks env).foldl markVisited s.request.visited = visited) :
    Triple (ForwardedPast env visited) (env.lookAt s)
      (fun actions run => Marked env visited run ∧ AllowedForward env visited actions.forward)
      fun _ => ForwardedPast env visited := by
  intro run hrun
  have hturn : (s.handleRequest env run.op.recency run.op.forwardAttempts).Follows env
      (s.observe env).1 := RelayState.handleRequest_follows
  have hobserv : (s.observe env).1.request.visited = visited :=
    RelayState.observe_visited.trans hs
  have hstate := hturn.visited.trans hobserv
  refine ⟨⟨?_, hrun⟩, ?_⟩
  · intro s' hs'
    cases hs'
    exact hstate
  · intro peer request hforw
    obtain ⟨hreq, hpeer⟩ := hturn.forward hforw
    rw [hobserv] at hpeer
    rw [hreq]
    exact ⟨hstate, hpeer⟩

theorem triple_of_marked {α β : Type} {m : ConnectTask α} {f : α → ConnectTask β} {fact : α → Prop}
    (h : Triple (ForwardedPast env visited) m (fun a run => Marked env visited run ∧ fact a)
      fun _ => ForwardedPast env visited) (hf : ∀ a, fact a → Preserves (Marked env visited) (f a)) :
    Marks env visited (ForwardedPast env visited) (m >>= f) := by
  refine h.bind ?_
  intro a
  refine triple_of_fact ?_
  intro ha
  exact (hf a ha).triple.ends (fun _ _ hrun => hrun.1) (fun _ _ hrun => hrun.2)

theorem keeps_reject (upstreamAddr : SocketAddr) (desired : Location) :
    Preserves (Marked env visited) (env.reject upstreamAddr desired) := by
  refine keeps_get.bind ?_
  intro run _
  exact ((framed_marked _ _).keeps_send (by rintro _ _ _ ⟨⟩)).andThen keeps_setState_completed

variable {payload : ConnectRequest} {giveUp : ConnectMsg} {desired : Location}

theorem handleRequest_marked {upstreamAddr : SocketAddr}
    (hvisit : (upstreamAddr :: env.ownLocation.socketAddr.toList).foldl markVisited
      payload.visited = visited) :
    Triple (ForwardedPast env visited) (env.handleRequest upstreamAddr payload)
      (fun actions run => Marked env visited run ∧ AllowedForward env visited actions.forward)
      fun _ => ForwardedPast env visited := by
  have hexpire : Preserves (ForwardedPast env visited) env.expireForwardAttempts :=
    framed_forwardedPast.keeps_expireForwardAttempts fun _ _ => by rintro _ _ _ ⟨⟩
  refine hexpire.triple_inv.andThen (keeps_get.triple_inv.bind ?_)
  intro run
  split
  · exact lookAt_marked hvisit
  · exact lookAt_marked hvisit

theorem processRequest_marked {source : Option SocketAddr} (hvisit : env.admitsConnect = true →
      (source.toList ++ env.ownLocation.socketAddr.toList).foldl markVisited payload.visited = visited) :
    Marks env visited (ForwardedPast env visited) (env.processRequest payload source) := by
  cases source with
  | none => exact triple_fail
  | some upstreamAddr =>
    unfold processRequest
    split_ifs with hadmits
    · refine triple_of_marked (handleRequest_marked (hvisit hadmits)) ?_
      intro actions hforw
      have hF := framed_marked env visited
      refine (hF.keeps_sendObserved fun _ _ => by rintro _ _ _ ⟨⟩).andThen ?_
      refine (hF.keeps_expectJoiner (fun _ => by rintro _ _ _ ⟨⟩) (fun _ => by rintro _ _ _ ⟨⟩)).andThen ?_
      refine (hF.keeps_forwardIfAny hforw.quiet).andThen ?_
      split_ifs
      · exact keeps_reject _ _
      · exact hF.keeps_respondIfAny fun _ _ _ => by rintro _ _ _ ⟨⟩
    · have hF : Framed (ForwardedPast env visited) (UnvisitedEffect env visited) := framed_forwardedPast
      refine keeps_get.triple_inv.bind ?_
      intro run
      refine (hF.keeps_send (by rintro _ _ _ ⟨⟩)).triple_inv.andThen (triple_modify ?_)
      intro run hrun
      refine ⟨?_, hrun⟩
      intro s hs
      cases hs

theorem retry_marked (hgiveUp : giveUp.isRequest = false)
    (hs : (s.marks env).foldl markVisited s.request.visited = visited) :
    Marks env visited (ForwardedPast env visited) (env.retry s giveUp) := by
  refine triple_of_marked (lookAt_marked hs) ?_
  intro actions hforw
  have hF := framed_marked env visited
  split
  · rename_i peer request heq
    exact hF.keeps_forward (hforw.quiet peer request heq)
  · split
    · exact hF.keeps_respondIfAny fun _ _ _ => by rintro _ _ _ ⟨⟩
    · refine hF.keeps_send ?_
      rintro addr id request ⟨⟩
      exact Bool.noConfusion hgiveUp

section Joiner
variable (s : JoinerState) (payload : ConnectResponse)

theorem keeps_setState_waiting : Preserves (Marked env visited) (setState (.waitingForResponses s)) := by
  refine keeps_modify ?_
  intro run hrun
  refine ⟨?_, hrun.2⟩
  intro s' hs'
  cases hs'

theorem keeps_handleResponse : Preserves (Marked env visited) (env.handleResponse s payload) := by
  have hforg : ∀ peer : Option PeerKeyLocation, Preserves (Marked env visited) (forgetRecency peer) := by
    intro peer
    cases peer with
    | none => exact keeps_done
    | some peer => exact keeps_modify fun run hrun => hrun
  have hcompl : ∀ s satisfied, Preserves (Marked env visited) (env.completeIfSatisfied s satisfied) := by
    intro s satisfied
    unfold completeIfSatisfied
    split_ifs
    · exact keeps_throw
    · exact keeps_setState_completed
    · exact keeps_done
  exact (keeps_setState_waiting _).andThen ((hforg _).andThen ((hcompl _ _).andThen keeps_done))

theorem keeps_connectAcceptor (acceptance : JoinerAcceptance) :
    Preserves (Marked env visited) (env.connectAcceptor acceptance) := by
  have hF := framed_marked env visited
  have htakeBack : ∀ peer satisfied, Preserves (Marked env visited) (takeBack peer satisfied) := by
    intro peer satisfied
    refine keeps_get.bind ?_
    intro run _
    split
    · exact (keeps_setState_waiting _).andThen keeps_done
    · exact keeps_done
  have hreport : ∀ peer, Preserves (Marked env visited) (env.reportFailed peer) := by
    intro peer
    refine keeps_get.bind ?_
    intro run _
    split
    · exact hF.keeps_send (by rintro _ _ _ ⟨⟩)
    · exact keeps_done
  unfold connectAcceptor
  split
  · exact keeps_done
  · rename_i peer _
    have hexpect : Preserves (Marked env visited) (env.expectAcceptor peer) := by
      unfold expectAcceptor
      split
      · exact keeps_done
      · exact hF.keeps_notifyExpect (by rintro _ _ _ ⟨⟩)
    refine hexpect.andThen ((hF.keeps_notifyConnect (by rintro _ _ _ ⟨⟩)).andThen ?_)
    unfold awaitConnection
    split
    · refine (hF.keeps_emit (by rintro _ _ _ ⟨⟩)).andThen ?_
      exact (hF.keeps_emitFor fun _ => by rintro _ _ _ ⟨⟩).andThen keeps_done
    · exact (htakeBack _ _).bind fun _ _ => (hreport _).andThen keeps_done

theorem keeps_joinerResponse : Preserves (Marked env visited) (env.joinerResponse s payload) := by
  have hF := framed_marked env visited
  refine (keeps_handleResponse s payload).bind fun acceptance _ => ?_
  refine (keeps_connectAcceptor acceptance).bind fun satisfied _ => ?_
  split_ifs
  · refine keeps_setState_completed.andThen ?_
    refine (hF.keeps_emit (by rintro _ _ _ ⟨⟩)).andThen (keeps_get.bind fun run _ => ?_)
    refine (hF.keeps_emitFor fun _ => by rintro _ _ _ ⟨⟩).andThen ?_
    exact hF.keeps_emitFor fun _ => by rintro _ _ _ ⟨⟩
  · exact keeps_done

end Joiner

def Environment.marksOn (env : Environment) (op : ConnectOp) (source : Option SocketAddr) :
    ConnectMsg → List SocketAddr
  | .request _ _ =>
    if env.admitsConnect then source.toList ++ env.ownLocation.socketAddr.toList else []
  | .rejected _ _ =>
    match op.state with
    | some (.relaying s) => s.marks env
    | _ => []
  | .connectFailed _ failedAcceptorAddr =>
    match op.state with
    | some (.relaying s) => if s.downstream.isSome then [] else failedAcceptorAddr :: s.marks env
    | _ => []
  | _ => []

/-- The filter that a node works with when it handles a message: the one that comes with a request,
or the one it holds. -/
def ConnectOp.filterFor (op : ConnectOp) : ConnectMsg → Option VisitedPeers
  | .request _ payload => some payload.visited
  | _ =>
    match op.state with
    | some (.relaying s) => some s.request.visited
    | _ => none

variable {op : ConnectOp} {source : Option SocketAddr} {msg : ConnectMsg}

omit [SeededHash] in
theorem ConnectOp.filterFor_eq (hmsg : msg.isRequest = false) :
    op.filterFor msg = match op.state with
      | some (.relaying s) => some s.request.visited
      | _ => none := by
  cases msg with
  | request _ _ => cases hmsg
  | response _ _ | observedAddress _ _ | rejected _ _ | connectFailed _ _ => rfl

omit [SeededHash] in
theorem filterFor_of_relaying (hs : op.state = some (.relaying s))
    (hmsg : msg.isRequest = false) : op.filterFor msg = some s.request.visited := by
  rw [ConnectOp.filterFor_eq hmsg, hs]

theorem triple_of_keeps {m : ConnectTask Unit} {Pre : ConnectRun → Prop}
    (h : Preserves (Marked env visited) m) (hpre : ∀ run, Pre run → Marked env visited run) :
    Marks env visited Pre m :=
  h.triple.weaken hpre (fun _ _ hrun => hrun.1) (fun _ _ hrun => hrun.2)

section
variable (hop : HoldsFilter visited op)
include hop

theorem marked_of_eq (run : ConnectRun)
    (hrun : run.op = op ∧ ForwardsUnvisited env visited run.effects) : Marked env visited run := by
  obtain ⟨rfl, heffects⟩ := hrun
  exact ⟨hop, heffects⟩

theorem processResponse_marked {payload : ConnectResponse} :
    Marks env visited (fun run => run.op = op ∧ ForwardedPast env visited run)
      (env.processResponse payload source) := by
  have hF := framed_marked env visited
  refine triple_of_keeps ?_ (marked_of_eq hop)
  refine keeps_get.bind ?_
  intro run hrun
  split
  · exact keeps_joinerResponse _ _
  · rename_i s hs
    refine (hF.keeps_recordForwarded fun _ => by rintro _ _ _ ⟨⟩).andThen ?_
    refine keeps_get.bind fun _ _ => ?_
    refine (hF.keeps_send (by rintro _ _ _ ⟨⟩)).andThen ?_
    exact keeps_setState_relaying (hrun.1 s hs)
  · exact keeps_done

theorem processObservedAddress_marked {address : SocketAddr} :
    Marks env visited (fun run => run.op = op ∧ ForwardedPast env visited run)
      (processObservedAddress address) := by
  refine triple_of_keeps ?_ (marked_of_eq hop)
  have hnote : Preserves (Marked env visited) (noteObserved address) := by
    refine keeps_get.bind ?_
    intro run _
    split
    · exact keeps_setState_waiting _
    · exact keeps_done
  exact hnote.andThen ((framed_marked _ _).keeps_emit (by rintro _ _ _ ⟨⟩))

end

omit [SeededHash] in
theorem holdsFilter_of_waiting {s : JoinerState} (hs : op.state = some (.waitingForResponses s)) :
    HoldsFilter visited op := by
  intro s' hs'
  rw [hs] at hs'
  cases hs'

theorem recordThenRetry_marked {forwarded : Option PeerKeyLocation}
    (hgiveUp : giveUp.isRequest = false)
    (hs : (s.marks env).foldl markVisited s.request.visited = visited) :
    Marks env visited (ForwardedPast env visited)
      (do recordForwarded forwarded desired false; env.retry s giveUp) := by
  have hrecord : Preserves (ForwardedPast env visited) (recordForwarded forwarded desired false) :=
    framed_forwardedPast.keeps_recordForwarded fun _ => by rintro _ _ _ ⟨⟩
  exact hrecord.triple_inv.andThen (retry_marked hgiveUp hs)

theorem processRejected_marked
    (hvisit : ∀ s, op.state = some (.relaying s) →
      (s.marks env).foldl markVisited s.request.visited = visited) :
    Marks env visited (fun run => run.op = op ∧ ForwardedPast env visited run)
      (env.processRejected desired) := by
  refine triple_get_bind ?_
  rintro run ⟨rfl, hrun⟩
  have hF := framed_marked env visited
  split
  · rename_i s hs
    have hkeeps : Preserves (Marked env visited) (joinerRejected run.op desired) := by
      refine (hF.keeps_emit (by rintro _ _ _ ⟨⟩)).andThen ?_
      exact (hF.keeps_emitFor fun _ => by rintro _ _ _ ⟨⟩).andThen keeps_setState_completed
    refine triple_of_keeps hkeeps ?_
    rintro _ rfl
    exact ⟨holdsFilter_of_waiting hs, hrun⟩
  · rename_i s hs
    refine Triple.of_pre (recordThenRetry_marked rfl (hvisit s hs)) ?_
    rintro _ rfl
    exact hrun
  · rename_i hwait hrelaying
    refine triple_pure ?_
    rintro _ rfl
    exact ⟨fun s hs => absurd hs (hrelaying s), hrun⟩

theorem processConnectFailed_marked {failedAcceptorAddr : SocketAddr}
    (hvisit : ∀ s, op.state = some (.relaying s) →
      (if s.downstream.isSome then [] else failedAcceptorAddr :: s.marks env).foldl
        markVisited s.request.visited = visited) :
    Marks env visited (fun run => run.op = op ∧ ForwardedPast env visited run)
      (env.processConnectFailed failedAcceptorAddr) := by
  refine triple_get_bind ?_
  rintro run ⟨rfl, hrun⟩
  have hF := framed_marked env visited
  split
  · rename_i s hs
    cases hdown : s.downstream with
    | some addr =>
      have hfilt : s.request.visited = visited := by
        have hmarks := hvisit s hs
        rw [hdown] at hmarks
        exact hmarks
      refine triple_of_keeps ((hF.keeps_emit (by rintro _ _ _ ⟨⟩)).andThen
        ((hF.keeps_send (by rintro _ _ _ ⟨⟩)).andThen (keeps_setState_relaying hfilt))) ?_
      rintro _ rfl
      refine ⟨?_, hrun⟩
      intro s' hs'
      cases hs.symm.trans hs'
      exact hfilt
    | none =>
      have hmarks : (failedAcceptorAddr :: s.marks env).foldl markVisited s.request.visited = visited := by
        simpa only [hdown, Option.isSome_none, Bool.false_eq_true, if_false] using hvisit s hs
      have hemit : Preserves (ForwardedPast env visited)
          (emit (.recordAcceptorFailure failedAcceptorAddr)) :=
        framed_forwardedPast.keeps_emit (by rintro _ _ _ ⟨⟩)
      refine Triple.of_pre (hemit.triple_inv.andThen (recordThenRetry_marked rfl hmarks)) ?_
      rintro _ rfl
      exact hrun
  · rename_i s hs
    refine triple_of_keeps ((hF.keeps_emit (by rintro _ _ _ ⟨⟩)).andThen keeps_setState_completed) ?_
    rintro _ rfl
    exact ⟨holdsFilter_of_waiting hs, hrun⟩
  · rename_i hrelaying hwait
    refine triple_pure ?_
    rintro _ rfl
    exact ⟨fun s hs => absurd hs (hrelaying s), hrun⟩

/-- Whatever message a node handles, it marks whom it should and forwards past its filter. -/
theorem processMessage_marked (hvisit : ∀ v, op.filterFor msg = some v →
      (env.marksOn op source msg).foldl markVisited v = visited) :
    Marks env visited (fun run => run.op = op ∧ ForwardedPast env visited run)
      (env.processMessage msg source) := by
  cases msg with
  | request id payload =>
    refine (processRequest_marked ?_).of_pre (fun _ hrun => hrun.2)
    intro hadmits
    have hmarks := hvisit payload.visited rfl
    unfold marksOn at hmarks
    rwa [if_pos hadmits] at hmarks
  | response id payload =>
    exact processResponse_marked fun s hs => hvisit _ (filterFor_of_relaying hs rfl)
  | observedAddress id address =>
    exact processObservedAddress_marked fun s hs => hvisit _ (filterFor_of_relaying hs rfl)
  | rejected id desired =>
    refine processRejected_marked fun s hs => ?_
    rw [← hvisit _ (filterFor_of_relaying hs rfl), marksOn, hs]
  | connectFailed id failedAcceptorAddr =>
    refine processConnectFailed_marked fun s hs => ?_
    rw [← hvisit _ (filterFor_of_relaying hs rfl), marksOn, hs]

end Marks

/-! The way of a request over its relays, which recognize the marks of relays but not the
joiner's. -/
open Lib List Option Prod

/-- A request on its way: the message and the relay that handled it last, each with the addresses
marked before. `selected` holds every next hop chosen, with all addresses marked by then. -/
structure Route where
  inFlight : Option (ConnectRequest × List SocketAddr)
  relay : Option (ConnectOp × List SocketAddr)
  joinerMarks : List SocketAddr
  selected : List (SocketAddr × List SocketAddr)

/-- The request reaches a relay, which may know the transaction already; or the relay that handled
it last gets another message. -/
inductive RouteEvent where
  | receive (kept : Option ConnectOp) (source : SocketAddr) (env : Environment)
  | message (msg : ConnectMsg) (source : Option SocketAddr) (env : Environment)

def Effect.forwarded : Effect → Option (SocketAddr × ConnectRequest)
  | .send addr (.request _ request) => some (addr, request)
  | _ => none

structure Handling where
  op : ConnectOp
  marks : List SocketAddr
  msg : ConnectMsg
  source : Option SocketAddr
  env : Environment

section Routes
variable [SeededHash]

namespace Handling
variable (h : Handling)

def after : ConnectNode := h.env.handle ⟨some h.op, []⟩ h.msg h.source

def marksAfter : List SocketAddr := h.marks ++ h.env.marksOn h.op h.source h.msg

def forwards : List (SocketAddr × ConnectRequest) := h.after.effects.filterMap Effect.forwarded

end Handling

namespace Route
variable (tx : Transaction) (r : Route)

def handling : RouteEvent → Option Handling
  | .receive kept source env =>
    match r.inFlight with
    | none => none
    | some (request, marks) =>
      match loadOrInit kept (.request tx request.received) (some source) with
      | none => none
      | some op =>
        if env.popsOp then some ⟨op, marks, .request tx request.received, some source, env⟩ else none
  | .message msg source env =>
    match r.relay with
    | none => none
    | some (op, marks) =>
      if env.popsOp && !msg.isRequest then some ⟨op, marks, msg, source, env⟩ else none

def proceed (h : Handling) : Route where
  inFlight := (h.forwards.head?.map fun forward => (forward.2, h.marksAfter)).or r.inFlight
  relay := h.after.op.map fun op => (op, h.marksAfter)
  joinerMarks := r.joinerMarks
  selected := h.forwards.map (fun forward => (forward.1, r.joinerMarks ++ h.marksAfter)) ++ r.selected

def Started : Prop :=
  ∃ own target desiredLocation ttl targetConnections excludeAddrs,
    r = ⟨some ((initiateJoinRequest tx own target desiredLocation ttl targetConnections
      excludeAddrs).2, []), none, marksOfJoiner own target excludeAddrs, []⟩

/-- No next hop was an address that the joiner or a relay before had marked. -/
def AvoidsMarked : Prop := ∀ hop ∈ r.selected, hop.1 ∉ hop.2

end Route

def routes (tx : Transaction) : Machine Route RouteEvent where
  init := Route.Started tx
  step r e := (r.handling tx e).map r.proceed

/-- Each neighbor of the relay that the joiner has marked was marked by a relay as well. -/
def RouteEvent.JoinerMarksKnown (tx : Transaction) (r : Route) (e : RouteEvent) : Prop :=
  ∀ h, r.handling tx e = some h → ∀ conn ∈ h.env.connections, ∀ addr, conn.socketAddr = some addr →
    addr ∈ r.joinerMarks → addr ∈ h.marksAfter

/-- The filter is read without keys and knows all these addresses. -/
def VisitedPeers.Covers (visited : VisitedPeers) (marks : List SocketAddr) : Prop :=
  visited.hashKeys = (0, 0) ∧ ∀ addr ∈ marks, visited.probablyVisited addr = true

variable {visited : VisitedPeers}

theorem VisitedPeers.Covers.markAll {marks : List SocketAddr} (h : visited.Covers marks)
    (more : List SocketAddr) : (more.foldl markVisited visited).Covers (marks ++ more) := by
  refine ⟨(hashKeys_markAll visited more).trans h.1, ?_⟩
  intro addr haddr
  rcases mem_append.mp haddr with hold | hnew
  · exact probablyVisited_markAll (.inr (h.2 addr hold))
  · exact probablyVisited_markAll (.inl hnew)

omit [SeededHash] in
theorem VisitedPeers.received_of_zero {visited : VisitedPeers} (h : visited.hashKeys = (0, 0)) :
    visited.received = visited := by
  cases visited
  cases h
  rfl

theorem handle_marked {env : Environment} {op : ConnectOp} {msg : ConnectMsg}
    {source : Option SocketAddr} (hpops : env.popsOp = true)
    (hvisit : ∀ v, op.filterFor msg = some v → (env.marksOn op source msg).foldl markVisited v = visited) :
    ForwardsUnvisited env visited (env.handle ⟨some op, []⟩ msg source).effects ∧
      ∀ op', (env.handle ⟨some op, []⟩ msg source).op = some op' → HoldsFilter visited op' := by
  have hstart : ForwardsUnvisited env visited [] := fun _ _ _ hmem => absurd hmem not_mem_nil
  have hrun := processMessage_marked hvisit ⟨op, []⟩ ⟨rfl, hstart⟩
  unfold handle
  rw [if_pos hpops]
  dsimp only [loadOrInit]
  cases hproc : env.processMessage msg source ⟨op, []⟩ with
  | ok _ run =>
    rw [hproc] at hrun
    dsimp only
    unfold finish
    split_ifs
    · exact ⟨hrun.2.cons (by rintro _ _ _ ⟨⟩), fun _ hop => by cases hop⟩
    · refine ⟨hrun.2, ?_⟩
      rintro op' ⟨⟩
      exact hrun.1
    · exact ⟨hrun.2, fun _ hop => by cases hop⟩
  | error stop run =>
    rw [hproc] at hrun
    cases stop with
    | panicked reason => exact ⟨hrun, fun _ hop => by cases hop⟩
    | failed error =>
      unfold abort
      cases source with
      | none => exact ⟨hrun, fun _ hop => by cases hop⟩
      | some addr =>
        refine ⟨?_, fun _ hop => by cases hop⟩
        dsimp only
        split_ifs
        · exact ForwardsUnvisited.cons hrun (by rintro _ _ _ ⟨⟩)
        · exact hrun

omit [SeededHash] in
theorem ConnectOp.held_of_filterFor {op : ConnectOp} {msg : ConnectMsg} {v : VisitedPeers}
    (hmsg : msg.isRequest = false) (hv : op.filterFor msg = some v) :
    ∃ s, op.state = some (.relaying s) ∧ s.request.visited = v := by
  rw [ConnectOp.filterFor_eq hmsg] at hv
  split at hv
  · rename_i s hs
    exact ⟨s, hs, some.inj hv⟩
  · cases hv

namespace Route
variable {tx : Transaction} {r : Route} {h : Handling}

/-- Every filter on the way knows the addresses that the relays before have marked. -/
structure Tracked (r : Route) : Prop where
  inFlight : ∀ {request marks}, r.inFlight = some (request, marks) → request.received.visited.Covers marks
  relay : ∀ {op marks}, r.relay = some (op, marks) →
    ∀ s, op.state = some (.relaying s) → s.request.visited.Covers marks
  selected : r.AvoidsMarked

variable {e : RouteEvent}

theorem Tracked.covers (hr : r.Tracked) (he : r.handling tx e = some h) :
    h.env.popsOp = true ∧ ∀ v, h.op.filterFor h.msg = some v → v.Covers h.marks := by
  cases e with
  | receive kept source env =>
    unfold handling at he
    dsimp only at he
    split at he
    · exact absurd he (by simp)
    · rename_i request marks hflight
      split at he
      · exact absurd he (by simp)
      · split_ifs at he with hpops
        cases he
        refine ⟨hpops, ?_⟩
        intro v hv
        cases hv
        exact hr.inFlight hflight
  | message msg source env =>
    unfold handling at he
    dsimp only at he
    split at he
    · exact absurd he (by simp)
    · rename_i op marks hrelay
      split_ifs at he with hguard
      cases he
      obtain ⟨hpops, hmsg⟩ := Bool.and_eq_true_iff.mp hguard
      refine ⟨hpops, ?_⟩
      intro v hv
      obtain ⟨s, hs, rfl⟩ := ConnectOp.held_of_filterFor (by simpa using hmsg) hv
      exact hr.relay hrelay s hs

/-- After a message the relay has a filter that knows the marks of this relay as well, and every
request it sends carries it. -/
theorem Tracked.covers_after (hr : r.Tracked) (he : r.handling tx e = some h) :
    ∃ visited : VisitedPeers, visited.Covers h.marksAfter ∧
      ForwardsUnvisited h.env visited h.after.effects ∧
      ∀ op, h.after.op = some op → HoldsFilter visited op := by
  obtain ⟨hpops, hcovers⟩ := hr.covers he
  cases hfilt : h.op.filterFor h.msg with
  | some v =>
    refine ⟨(h.env.marksOn h.op h.source h.msg).foldl markVisited v,
      (hcovers v hfilt).markAll _, handle_marked hpops ?_⟩
    intro v' hv'
    cases hfilt.symm.trans hv'
    rfl
  | none =>
    -- the node is no relay and has no filter, so any one will do
    have hempty : (⟨0, (0, 0)⟩ : VisitedPeers).Covers [] :=
      ⟨rfl, fun _ hmem => absurd hmem not_mem_nil⟩
    refine ⟨h.marksAfter.foldl markVisited ⟨0, (0, 0)⟩, hempty.markAll _, handle_marked hpops ?_⟩
    intro v hv
    cases hfilt.symm.trans hv

theorem mem_forwards {addr : SocketAddr} {request : ConnectRequest}
    (hmem : (addr, request) ∈ h.forwards) :
    ∃ id, Effect.send addr (.request id request) ∈ h.after.effects := by
  obtain ⟨e, he, heq⟩ := mem_filterMap.mp hmem
  unfold Effect.forwarded at heq
  split at heq
  · cases heq
    exact ⟨_, he⟩
  · cases heq

theorem tracked_proceed (hr : r.Tracked) (he : r.handling tx e = some h)
    (hknown : e.JoinerMarksKnown tx r) : (r.proceed h).Tracked := by
  obtain ⟨visited, hcovers, hforwards, hholds⟩ := hr.covers_after he
  constructor
  · intro request marks hflight
    unfold proceed at hflight
    cases hhead : h.forwards.head? with
    | none =>
      rw [hhead] at hflight
      exact hr.inFlight hflight
    | some forward =>
      rw [hhead] at hflight
      cases hflight
      obtain ⟨id, heffect⟩ := mem_forwards (mem_of_head? hhead)
      obtain ⟨hvisit, _⟩ := hforwards forward.1 id forward.2 heffect
      show forward.2.visited.received.Covers h.marksAfter
      rw [hvisit, received_of_zero hcovers.1]
      exact hcovers
  · intro op marks hrelay s hs
    obtain ⟨op', hop', heq⟩ := map_eq_some_iff.mp hrelay
    cases heq
    rw [hholds op hop' s hs]
    exact hcovers
  · intro hop hmem
    rcases mem_append.mp hmem with hnew | hold
    · obtain ⟨⟨addr, request⟩, hforw, rfl⟩ := mem_map.mp hnew
      obtain ⟨id, heffect⟩ := mem_forwards hforw
      obtain ⟨_, peer, hpeer, haddr⟩ := hforwards addr id request heffect
      obtain ⟨hconn, addr', haddr', hskips⟩ := mem_routingCandidates hpeer
      cases haddr.symm.trans haddr'
      have hunmark : addr ∉ h.marksAfter := by
        intro hmark
        have hvisit := hcovers.2 addr hmark
        unfold skips at hskips
        rw [hvisit] at hskips
        simp at hskips
      intro hmark
      rcases mem_append.mp hmark with hjoin | hrelays
      · exact hunmark (hknown h he peer hconn addr haddr hjoin)
      · exact hunmark hrelays
    · exact hr.selected hop hold

theorem Started.tracked (hr : r.Started tx) : r.Tracked := by
  obtain ⟨own, target, desiredLocation, ttl, targetConnections, excludeAddrs, rfl⟩ := hr
  constructor
  · intro request marks hflight
    cases hflight
    exact ⟨rfl, fun _ hmem => absurd hmem not_mem_nil⟩
  · intro op marks hrelay
    cases hrelay
  · intro hop hmem
    exact absurd hmem not_mem_nil

end Route

/-- No relay on the way of a request forwards it to a marked address, as long as the relays are
connected to none that only the joiner has marked. -/
theorem route_avoids_marked {tx : Transaction} {r r' : Route} (hr : (routes tx).init r)
    {es : List RouteEvent} (hknown : (routes tx).Along (fun r e => e.JoinerMarksKnown tx r) r es)
    (hrun : (routes tx).runFrom r es = some r') : r'.AvoidsMarked := by
  have htrack : r'.Tracked := by
    refine (routes tx).invariant_of_along _ Route.Tracked ?_ (Route.Started.tracked hr) hknown hrun
    intro r e r' hr he hstep
    obtain ⟨h, hhandl, rfl⟩ := map_eq_some_iff.mp hstep
    exact Route.tracked_proceed hr hhandl he
  exact htrack.selected

end Routes

/-- The peer at address 9 joins over the peer at address 1 and wants to be kept away from some. -/
def joinOverOne (excludeAddrs : List SocketAddr) : Route where
  inFlight := some ((@initiateJoinRequest addingHash joinTransaction (peerAt 9) (peerAt 1) 0 10 3
    excludeAddrs).2, [])
  relay := none
  joinerMarks := marksOfJoiner (peerAt 9) (peerAt 1) excludeAddrs
  selected := []

def atOne : RouteEvent := .receive none 9 (.plain (peerAt 1) [9, 5])

def atFive : RouteEvent := .receive none 1 (.plain (peerAt 5) [1, 9, 7])

/-- A relay that gets a request on which the relays before have marked all that the joiner had. -/
theorem joinerMarksKnown_of_inFlight {tx : Transaction} {r : Route}
    {kept : Option ConnectOp} {source : SocketAddr} {env : Environment}
    (h : ∀ request marks, r.inFlight = some (request, marks) →
      ∀ addr ∈ r.joinerMarks, addr ∈ marks ++ source :: env.ownLocation.socketAddr.toList)
    (hadmits : env.admitsConnect = true) :
    (RouteEvent.receive kept source env).JoinerMarksKnown tx r := by
  intro handling hhandl conn _ addr _ haddr
  unfold Route.handling at hhandl
  dsimp only at hhandl
  split at hhandl
  · exact absurd hhandl (by simp)
  · rename_i request marks hflight
    split at hhandl
    · exact absurd hhandl (by simp)
    · split_ifs at hhandl
      cases hhandl
      unfold Handling.marksAfter marksOn
      rw [if_pos hadmits]
      exact h request marks hflight addr haddr

/-- The joiner excludes nobody: the request goes to address 5, and from there neither back to
address 1 nor to the joiner, but to address 7. -/
theorem request_goes_on_to_seven : ∃ r,
    (@routes addingHash joinTransaction).runFrom (joinOverOne []) [atOne, atFive] = some r ∧
    r.selected.map fst = [7, 5] ∧ r.AvoidsMarked := by
  refine Machine.exists_run_imp (·.selected.map fst = [7, 5]) (by decide +kernel) ?_
  intro r hrun hhops
  have hmarks : ((@routes addingHash joinTransaction).step (joinOverOne []) atOne).map
      (fun r => (r.inFlight.map snd, r.joinerMarks)) = some (some [9, 1], [9, 1]) := by
    decide +kernel
  have hknown : (@routes addingHash joinTransaction).Along
      (fun r e => e.JoinerMarksKnown joinTransaction r) (joinOverOne []) [atOne, atFive] := by
    refine ⟨joinerMarksKnown_of_inFlight ?_ rfl, ?_⟩
    · rintro request marks ⟨⟩
      decide
    · intro r hstep
      rw [hstep] at hmarks
      obtain ⟨hflight, hjoin⟩ := mk.inj (some.inj hmarks)
      refine ⟨joinerMarksKnown_of_inFlight ?_ rfl, fun _ _ => trivial⟩
      intro request marks hmem
      rw [hmem] at hflight
      have hrelays : marks = [9, 1] := some.inj hflight
      rw [hjoin, hrelays]
      decide
  have hstart : (@routes addingHash joinTransaction).init (joinOverOne []) :=
    ⟨peerAt 9, peerAt 1, 0, 10, 3, [], rfl⟩
  exact ⟨hhops, @route_avoids_marked addingHash _ _ _ hstart _ hknown hrun⟩

/-- The joiner excludes the peer at address 5, and the first relay forwards the request to it. -/
theorem excluded_peer_is_selected : (@routes addingHash joinTransaction).init (joinOverOne [5]) ∧
    ∃ r, (@routes addingHash joinTransaction).runFrom (joinOverOne [5]) [atOne] = some r ∧
      5 ∈ r.joinerMarks ∧ r.selected.map fst = [5] ∧ ¬ r.AvoidsMarked := by
  refine ⟨⟨peerAt 9, peerAt 1, 0, 10, 3, [5], rfl⟩, ?_⟩
  obtain ⟨r, hrun, hmarks, hhops⟩ : ∃ r, (@routes addingHash joinTransaction).runFrom
      (joinOverOne [5]) [atOne] = some r ∧ r.joinerMarks = [9, 1, 5] ∧
      r.selected = [(5, [9, 1, 5, 9, 1])] := by
    decide +kernel
  refine ⟨r, hrun, ?_, ?_, ?_⟩
  · rw [hmarks]
    decide
  · rw [hhops]
    rfl
  · intro havoids
    have hnot := havoids (5, [9, 1, 5, 9, 1]) (by rw [hhops]; decide)
    exact hnot (by decide)

end Freenet.Operations.Connect
