import Freenet.Operations.GetFrames

/-! Whom a relay takes for the requester of a GET, and the answer it owes once no peer is left to
ask. -/
namespace Freenet.Operations.Get
open Lib Lib.Task Node Contract GetEnvironment Keeps
variable {S α : Type} {env : GetEnvironment S} {op : GetOp}

/-- The events of a relay: requests, each from a peer that the ring knows by its address at that
time, and answers that the contract was not found, from anywhere. -/
def GetEvent.FromRing : GetEvent S → Prop
  | message env source (.request _ _ _ _ _) => (source.bind env.getPeerLocationByAddr).isSome
  | message _ _ (.response _ _ .notFound) => True
  | _ => False

/-- An operation that answers to a node upstream knows it as the requester. -/
def GetOp.KnowsRequester (op : GetOp) : Prop :=
  ∀ data, op.state = some (.awaitingResponse data) → op.upstreamAddr.isSome → data.requester.isSome

def GetNode.KnowsRequester (node : GetNode S) : Prop :=
  ∀ op, node.slot = .kept op → op.KnowsRequester

theorem requester_framed :
    Framed (S := S) GetNode.KnowsRequester GetOp.KnowsRequester (fun _ => True) fun _ => True where
  emit _ hnode := hnode
  handler _ hnode := hnode
  keep hop _ := by
    rintro op' ⟨⟩
    exact hop
  release hslot _ := fun op hop => absurd hop (hslot op)
  await _ hnode := hnode
  unawait hnode := hnode
  kept hnode hslot := hnode _ hslot
  awaited _ _ := trivial
  finish _ _ _ := nofun
  localFallback _ := trivial
  received _ _ := nofun
  reported _ := trivial
  result _ := trivial
  none := trivial

/-! The requester is set when a request is forwarded and stays what it is on every retry. -/

theorem requester_markTried (data : AwaitingResponseData) (addr : Option SocketAddr) :
    (data.markTried addr).requester = data.requester := by
  cases addr with
  | none => rfl
  | some addr => rfl

variable {candidates : ContractInstanceId → VisitedPeers → List PeerKeyLocation}
  {data next : AwaitingResponseData} {source : Option SocketAddr}

theorem requester_of_tryAlternative (h : data.tryAlternative = some next) :
    next.requester = data.requester := by
  unfold AwaitingResponseData.tryAlternative at h
  split at h
  · cases h
  · split at h
    · cases h
      exact requester_markTried data _
    · cases h

theorem requester_of_tryNewCandidates (h : data.tryNewCandidates candidates = some next) :
    next.requester = data.requester := by
  unfold AwaitingResponseData.tryNewCandidates at h
  split at h
  · dsimp only at h
    split at h
    · cases h
    · cases h
      rfl
  · cases h

theorem requester_of_movesOn {tried : Option SocketAddr} (h : env.MovesOn tried data next) :
    next.requester = data.requester := by
  rw [← requester_markTried data tried]
  rcases Option.or_eq_some_iff.mp h with halt | ⟨_, hnew⟩
  · exact requester_of_tryAlternative halt
  · exact requester_of_tryNewCandidates hnew

theorem GetEvent.keepsRequester_task {e : GetEvent S} (he : e.FromRing) :
    Preserves GetNode.KnowsRequester e.task := by
  cases e with
  | message env source msg =>
    refine requester_framed.keeps_handleMessage fun op hop => ?_
    cases msg with
    | request id instanceId fetchContract htl visited =>
      refine requester_framed.keeps_processRequest hop (fun _ _ _ _ => trivial) ?_ fun _ _ => nofun
      rintro _ data - hdata _ ⟨⟩ -
      exact hdata ▸ he
    | response id instanceId result =>
      cases result with
      | notFound =>
        refine requester_framed.keeps_processNotFound hop ?_
        rintro data next hdata hmoves _ ⟨⟩ hupstr
        exact requester_of_movesOn hmoves ▸ hop data hdata hupstr
      | found key value => exact he.elim
    | responseStreaming _ _ _ _ _ _ | responseStreamingAck _ _ | forwardingAck _ _ => exact he.elim
  | _ => exact he.elim

def lastAnswer (id : Transaction) (instanceId : ContractInstanceId) : Option GetResult → GetMsg
  | some copy => buildFallbackFoundResponse id instanceId copy
  | none => .response id instanceId .notFound

/-- The event has an answer sent upstream for the transaction and the instance id. -/
def GetNode.Answers (node : GetNode S) (upstream : SocketAddr) (id : Transaction)
    (instanceId : ContractInstanceId) (e : GetEvent S) : Prop :=
  ∃ new copy, (Task.finalState e.task node).effects = new ++ node.effects ∧
    .send upstream (lastAnswer id instanceId copy) none ∈ new

/-- One more peer, at `source`, does not have the contract, and no other is left to ask. -/
def GetEnvironment.Exhausts (env : GetEnvironment S) (source : Option SocketAddr)
    (data : AwaitingResponseData) : Prop :=
  let data := data.markTried ((source.bind env.getPeerLocationByAddr).bind PeerKeyLocation.socketAddr)
  data.tryAlternative.or (data.tryNewCandidates env.kClosestPotentiallyHosting) = none

/-- A request that arrives from `upstream` cannot be forwarded. -/
def GetEnvironment.CannotForward (env : GetEnvironment S) (upstream : SocketAddr)
    (instanceId : ContractInstanceId) (htl : Nat) (visited : VisitedPeers) : Prop :=
  let own := env.ownLocation.socketAddr.toList
  min htl (max env.maxHopsToLive 1) - 1 = 0 ∨
    env.kClosestPotentiallyHosting instanceId (visited ++ own ++ [upstream] ++ own) = []

/-- Whenever the candidates are used up, the node that sent the request gets an answer: at once when
a request without an operation cannot be forwarded, or when the last peer did not have the
contract. -/
structure GetNode.AnswersUpstream (node : GetNode S) : Prop where
  onRequest : ∀ (env : GetEnvironment S) upstream id instanceId fetchContract htl visited,
    node.slot = .absent → env.CannotForward upstream instanceId htl visited →
    node.Answers upstream id instanceId
      (.message env (some upstream) (.request id instanceId fetchContract htl visited))
  onNotFound : ∀ (env : GetEnvironment S) source upstream id instanceId op data,
    node.slot = .kept op → op.upstreamAddr = some upstream →
    op.state = some (.awaitingResponse data) → env.Exhausts source data →
    node.Answers upstream op.id data.instanceId (.message env source (.response id instanceId .notFound))

variable {node : GetNode S} {upstream : SocketAddr} {id : Transaction}
  {instanceId : ContractInstanceId} {fetchContract : Bool} {htl : Nat} {visited : VisitedPeers}

theorem loadOrInit_of_kept {msg : GetMsg} (hslot : node.slot = .kept op) :
    env.loadOrInit source msg node = .ok (some op) { node with slot := .running } := by
  have hpop : (modifyGet (GetNode.pop env) : GetTask S _) node =
      .ok (.ok (some op)) { node with slot := .running } := by
    change EStateM.Result.ok _ _ = _
    simp [hslot]
  unfold loadOrInit
  rw [bind_of_ok hpop]
  rfl

theorem loadOrInit_request_of_absent (hslot : node.slot = .absent) :
    env.loadOrInit source (.request id instanceId fetchContract htl visited) node =
      .ok (some (.received id source)) { node with slot := .running } := by
  have hpop : (modifyGet (GetNode.pop env) : GetTask S _) node =
      .ok (.ok none) { node with slot := .running } := by
    change EStateM.Result.ok _ _ = _
    simp [hslot]
  unfold loadOrInit
  rw [bind_of_ok hpop]
  rfl

/-- A last message is sent to where the request came from, whether or not the connection takes
it. -/
theorem handleOpResult_sendAndComplete (env : GetEnvironment S) (source : Option SocketAddr)
    (upstream : SocketAddr) (reply : GetMsg) (node : GetNode S) : ∃ reported node',
      Task.attempt (env.handleOpResult source (.ok (.sendAndComplete reply (some upstream) none)))
        node = .ok reported node' ∧ node'.effects = .send upstream reply none :: node.effects := by
  cases hsends : env.sends upstream with
  | true =>
    refine ⟨.ok none, { node with
      slot := .completed
      effects := .send upstream reply none :: node.effects }, ?_, rfl⟩
    apply attempt_of_ok
    unfold handleOpResult sendToTarget sendWithStream
    dsimp only
    rw [hsends]
    rfl
  | false =>
    refine ⟨.error (.failed .connError), { node with
      effects := .send upstream reply none :: node.effects }, ?_, rfl⟩
    apply attempt_of_error
    unfold handleOpResult sendToTarget sendWithStream
    dsimp only
    rw [hsends]
    rfl

theorem effects_reportResult (env : GetEnvironment S) (reported : Except Stop (Option GetOp))
    (node : GetNode S) :
    ∃ new, (Task.finalState (env.reportResult reported) node).effects = new ++ node.effects := by
  unfold reportResult
  split
  · exact ⟨[], rfl⟩
  · exact ⟨_, rfl⟩
  · exact ⟨[], rfl⟩
  · exact ⟨_, rfl⟩

theorem effects_handleMessage_endWith {msg reply : GetMsg} {node₁ node₂ : GetNode S}
    (hload : env.loadOrInit source msg node = .ok (some op) node₁)
    (hproc : env.processMessage op source msg node₁ =
      .ok (.sendAndComplete reply (some upstream) none) node₂) :
    ∃ new, (Task.finalState (env.handleMessage source msg) node).effects =
      new ++ .send upstream reply none :: node₂.effects := by
  obtain ⟨reported, node', hhandle, heffects⟩ :=
    handleOpResult_sendAndComplete env source upstream reply node₂
  obtain ⟨new, hnew⟩ := effects_reportResult env reported node'
  refine ⟨new, ?_⟩
  rw [← heffects, ← hnew]
  unfold handleMessage
  rw [finalState_bind_of_ok hload]
  rw [finalState_bind_of_ok (attempt_of_ok hproc), finalState_bind_of_ok hhandle]

theorem messageTarget_lastAnswer {copy : Option GetResult} :
    op.endWith (lastAnswer id instanceId copy) none =
      .sendAndComplete (lastAnswer id instanceId copy) op.upstreamAddr none := by
  cases copy with
  | none => rfl
  | some copy => rfl

/-- A relay that knows the requester and has nobody left to ask ends with an answer. -/
theorem processNotFound_of_exhausts {data : AwaitingResponseData}
    (hstate : op.state = some (.awaitingResponse data)) (hexhausts : env.Exhausts source data)
    (hreqr : data.requester.isSome) :
    env.processNotFound op source instanceId node = .ok (.sendAndComplete
      (lastAnswer op.id data.instanceId op.localFallback) op.upstreamAddr none) node := by
  obtain ⟨requester, hsome⟩ := Option.isSome_iff_exists.mp hreqr
  unfold processNotFound
  rw [hstate]
  dsimp only at hexhausts ⊢
  rw [hexhausts]
  unfold giveUp
  rw [requester_markTried, hsome]
  have hid : ∀ addr, (data.markTried addr).instanceId = data.instanceId := by
    intro addr
    cases addr with
    | none => rfl
    | some addr => rfl
  cases hlocal : op.localFallback with
  | none | some copy =>
    rw [hid]
    rfl

/-- The handler answers a query, and all it leaves on record is that it was asked. -/
theorem notifyContractHandler_getQuery (env : GetEnvironment S) (instanceId : ContractInstanceId)
    (fetchContract : Bool) (node : GetNode S) : ∃ got node',
      env.notifyContractHandler (.getQuery instanceId fetchContract) node = .ok got node' ∧
      node'.effects = .contractHandler (.getQuery instanceId fetchContract) :: node.effects := by
  obtain ⟨⟨st, got⟩, hsent, -⟩ :=
    ContractHandler.sendToHandler_getQuery env.handler node.handler instanceId fetchContract
  refine ⟨got, { node with
    handler := st
    effects := .contractHandler (.getQuery instanceId fetchContract) :: node.effects }, ?_, rfl⟩
  have hemit : (emit (.contractHandler (.getQuery instanceId fetchContract)) : GetTask S Unit) node =
      .ok () { node with
        effects := .contractHandler (.getQuery instanceId fetchContract) :: node.effects } := rfl
  unfold notifyContractHandler
  rw [bind_of_ok hemit, bind_of_ok (m := get) rfl]
  rw [hsent]
  rfl

theorem tryForwardOrReturn_of_no_candidates {sender : Option PeerKeyLocation}
    {localFallback : Option GetResult} (hupstr : op.upstreamAddr = some upstream)
    (hcand : htl - 1 = 0 ∨ env.kClosestPotentiallyHosting instanceId
      (visited ++ env.ownLocation.socketAddr.toList) = []) :
    env.tryForwardOrReturn op instanceId htl fetchContract sender visited localFallback node =
      .ok (.sendAndComplete (lastAnswer op.id instanceId localFallback) (some upstream) none) node := by
  have hnone : (if htl - 1 = 0 then [] else env.kClosestPotentiallyHosting instanceId
      (visited ++ env.ownLocation.socketAddr.toList)) = [] := by
    split_ifs with hlast
    · rfl
    · exact hcand.resolve_left hlast
  rw [← hupstr, ← messageTarget_lastAnswer]
  unfold tryForwardOrReturn
  rw [hnone, hupstr]
  cases localFallback with
  | none => rfl
  | some copy => rfl

theorem processRequest_of_cannotForward (op : GetOp)
    (hstate : op.state = some .receivedRequest) (hupstr : op.upstreamAddr = some upstream)
    (hforw : env.CannotForward upstream instanceId htl visited) (fetchContract : Bool)
    (node : GetNode S) : ∃ copy node' new,
      env.processRequest op (some upstream) instanceId fetchContract htl visited node =
        .ok (.sendAndComplete (lastAnswer op.id instanceId copy) (some upstream) none) node' ∧
      node'.effects = new ++ node.effects := by
  unfold processRequest
  rw [hstate]
  dsimp only
  by_cases hhtl : min htl (max env.maxHopsToLive 1) = 0
  · rw [if_pos hhtl]
    exact ⟨none, node, [], by rw [← hupstr]; rfl, rfl⟩
  · have hserv : ¬ (env.build.debugAssertions = true ∧ op.servesRequests = false) := by
      simp [GetOp.servesRequests, hstate]
    rw [if_neg hhtl, if_neg hserv]
    obtain ⟨got, node₁, hgot, heffects⟩ :=
      notifyContractHandler_getQuery env instanceId fetchContract node
    let ack : Effect := .send upstream (.forwardingAck op.id instanceId) none
    have hack : (emitAll [ack] : GetTask S Unit) node₁ =
        .ok () { node₁ with effects := ack :: node₁.effects } := rfl
    refine ⟨(localValue fetchContract got).or op.localFallback,
      { node₁ with effects := ack :: node₁.effects },
      [ack, .contractHandler (.getQuery instanceId fetchContract)], ?_, by simp [heffects]⟩
    unfold lookUpAndServe
    rw [bind_of_ok hgot, hstate]
    unfold forwardRequest
    rw [hupstr]
    exact (bind_of_ok hack).trans (tryForwardOrReturn_of_no_candidates hupstr hforw)

theorem GetNode.KnowsRequester.answersUpstream (hnode : node.KnowsRequester) : node.AnswersUpstream := by
  constructor
  · intro env upstream id instanceId fetchContract htl visited hslot hforw
    have hload : env.loadOrInit (some upstream)
        (.request id instanceId fetchContract htl visited) node = _ :=
      loadOrInit_request_of_absent hslot
    obtain ⟨copy, node', new, hproc, heffects⟩ :=
      processRequest_of_cannotForward (.received id (some upstream)) rfl rfl hforw fetchContract
        { node with slot := .running }
    obtain ⟨later, hlater⟩ := effects_handleMessage_endWith hload hproc
    refine ⟨later ++ .send upstream (lastAnswer id instanceId copy) none :: new, copy, ?_, by simp⟩
    rw [heffects] at hlater
    simpa [GetEvent.task, GetOp.received] using hlater
  · intro env source upstream id instanceId op data hslot hupstr hstate hexhausts
    have hreqr := hnode op hslot data hstate (by simp [hupstr])
    have hload : env.loadOrInit source (.response id instanceId .notFound) node = _ :=
      loadOrInit_of_kept hslot
    have hproc : env.processMessage op source (.response id instanceId .notFound)
        { node with slot := .running } = _ :=
      processNotFound_of_exhausts hstate hexhausts hreqr
    rw [hupstr] at hproc
    obtain ⟨later, hlater⟩ := effects_handleMessage_endWith hload hproc
    exact ⟨later ++ [.send upstream (lastAnswer op.id data.instanceId op.localFallback) none],
      op.localFallback, by simpa [GetEvent.task] using hlater, by simp⟩

/-- In every run of requests from peers that the ring knows and of answers that the contract was not
found, whoever sent the request gets an answer as soon as no peer is left to ask. -/
theorem relay_answers_of_fromRing {s t : GetNode S} {es : List (GetEvent S)}
    (hinit : (machine S).init s) (hring : ∀ e ∈ es, e.FromRing)
    (hrun : (machine S).runFrom s es = some t) : t.AnswersUpstream := by
  have hknows : s.KnowsRequester := by
    intro op hop
    rw [hinit.1] at hop
    cases hop
  have hstep : ∀ node e node', node.KnowsRequester → e.FromRing →
      (machine S).step node e = some node' → GetNode.KnowsRequester node' := by
    intro node e node' hnode he hnode'
    cases hnode'
    exact (GetEvent.keepsRequester_task he).finalState hnode
  exact ((machine S).invariant_of_along (fun _ e => e.FromRing) GetNode.KnowsRequester hstep hknows
    ((machine S).along_of_forall_mem hring) hrun).answersUpstream

def relayEnvironment (inRing : SocketAddr → Bool) : GetEnvironment Unit :=
  { onePeerEnvironment with
    getPeerLocationByAddr := fun addr => if inRing addr then some ⟨addr, some addr⟩ else none }

def requestFromFive (inRing : SocketAddr → Bool) : GetEvent Unit :=
  .message (relayEnvironment inRing) (some 5) (.request (Transaction.new .get 256) 7 true 5 [])

def notFoundFromOne (inRing : SocketAddr → Bool) : GetEvent Unit :=
  .message (relayEnvironment inRing) (some 1) (.response (Transaction.new .get 256) 7 .notFound)

def afterRequest (inRing : SocketAddr → Bool) : GetNode Unit :=
  ((machine Unit).runFrom beforeStart [requestFromFive inRing]).getD beforeStart

/-- With both nodes in the ring, the node that asked gets its answer. -/
theorem requester_in_ring_is_answered :
    (machine Unit).runFrom beforeStart [requestFromFive fun _ => true] = some (afterRequest fun _ => true) ∧
    (afterRequest fun _ => true).Answers 5 (.new .get 256) 7 (notFoundFromOne fun _ => true) := by
  have hring : ∀ e ∈ [requestFromFive fun _ => true], e.FromRing := by
    intro e he
    cases List.mem_singleton.mp he
    rfl
  have hrun : (machine Unit).runFrom beforeStart [requestFromFive fun _ => true] =
      some (afterRequest fun _ => true) := rfl
  have hansw := relay_answers_of_fromRing ⟨rfl, rfl, rfl⟩ hring hrun
  exact ⟨hrun, hansw.onNotFound _ _ 5 _ _ _ _ rfl rfl rfl rfl⟩

/-- A node that is only transiently connected asks, the last peer does not have the contract, and
all the relay does is to report a failure to a client it does not have. -/
theorem transient_requester_is_not_answered :
    (machine Unit).runFrom beforeStart [requestFromFive fun addr => addr = 1] =
      some (afterRequest fun addr => addr = 1) ∧
    ¬ (afterRequest fun addr => addr = 1).AnswersUpstream := by
  refine ⟨rfl, ?_⟩
  intro hansw
  obtain ⟨new, copy, heffects, hsend⟩ :=
    hansw.onNotFound (relayEnvironment fun addr => addr = 1) (some 1) 5
      (Transaction.new .get 256) 7 _ _ rfl rfl rfl rfl
  have hstep : [.clientResult (.error (.exhaustedPeers 7))] ++
      (afterRequest fun addr => addr = 1).effects = new ++ _ := heffects
  rw [← List.append_cancel_right hstep] at hsend
  cases List.mem_singleton.mp hsend

end Freenet.Operations.Get
