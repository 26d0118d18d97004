import Freenet.Operations.GetReplies

/-! The speculative retries of a GET: their count, and the events that start it over. -/
namespace Freenet.Operations.Get
open Lib.Task Node GetEnvironment Keeps
variable {S : Type}

/-- A GET with the number of its speculative retries. A tick retries only the operation of a client
whose paths have not reached the limit; whether enough time has passed is left open. -/
def speculating (S : Type) : Lib.Machine (GetNode S × Nat) (GetEvent S) where
  init s := (machine S).init s.1 ∧ s.2 = 0
  step s e :=
    match e, s.1.slot with
    | .stalled env fallbackPeers, .kept op =>
      if op.isClientInitiated ∧ op.speculativePaths < maxSpeculativePaths then
        some (finalState e.task s.1, s.2 + (op.retryWithNextAlternative env.maxHopsToLive
          env.probablyVisited fallbackPeers).toList.length)
      else none
    | .stalled _ _, _ => none
    | _, _ => some (finalState e.task s.1, s.2)

/-- The operation of a client has another peer to ask in place of one that was tried. -/
def GetNode.AsksNext (node : GetNode S) (env : GetEnvironment S)
    (tried : AwaitingResponseData → Option SocketAddr) : Prop :=
  ∃ op data next, node.slot = .kept op ∧ op.isClientInitiated ∧ op.state = some (.awaitingResponse data) ∧
    env.MovesOn (tried data) data next

/-- The events that leave the operation of a client waiting with its count at 0: its start, a
request from a peer that the ring does not know, an answer or an abort after which it moves on, and
a stream that is claimed already. -/
def GetNode.StartsOver (node : GetNode S) : GetEvent S → Prop
  | .requestGet _ _ _ _ _ _ _ => True
  | .message env source (.request _ _ _ _ _) => source.bind env.getPeerLocationByAddr = none
  | .message env source (.response _ _ .notFound) =>
    node.AsksNext env fun _ => (source.bind env.getPeerLocationByAddr).bind PeerKeyLocation.socketAddr
  | .message env source (.responseStreaming _ _ streamId _ _ _) =>
    ∃ peer, source = some peer ∧ env.claimOrWait peer streamId = .error .alreadyClaimed
  | .aborted env => node.AsksNext env fun data => data.nextHop.socketAddr
  | _ => False

/-- If the operation is a client's, it has `P`. -/
def GetOp.OfClient (P : GetOp → Prop) (op : GetOp) : Prop := op.isClientInitiated → P op

/-- The operation that the node keeps for a client has `P`. -/
def GetNode.KeepsFor (P : GetOp → Prop) (node : GetNode S) : Prop :=
  ∀ op, node.slot = .kept op → op.OfClient P

variable {P : GetOp → Prop} {op : GetOp} {env : GetEnvironment S} {node : GetNode S} {n : Nat}
  {tried : AwaitingResponseData → Option SocketAddr}

theorem ofClient_framed (P : GetOp → Prop) : Framed (S := S) (GetNode.KeepsFor P) (GetOp.OfClient P)
    (fun _ => True) fun _ => True where
  emit _ hnode := hnode
  handler _ hnode := hnode
  keep hop _ := by
    rintro op' ⟨⟩
    exact hop
  release hslot _ := fun op hop => absurd hop (hslot op)
  await _ hnode := hnode
  unawait hnode := hnode
  kept hnode hslot := hnode _ hslot
  awaited _ _ := trivial
  finish _ _ _ := by simp [GetOp.OfClient, GetOp.isClientInitiated, GetOp.moveTo]
  localFallback _ := trivial
  received _ _ := nofun
  reported _ := trivial
  result _ := trivial
  none := trivial

/-- Nothing is left to ask for the operation of a client, and it has made at least so many
retries. -/
def GetOp.Stays (env : GetEnvironment S) (tried : AwaitingResponseData → Option SocketAddr) (n : Nat)
    (op : GetOp) : Prop :=
  n ≤ op.speculativePaths ∧ ∀ data next, op.state = some (.awaitingResponse data) →
    ¬ env.MovesOn (tried data) data next

theorem GetNode.KeepsFor.stays (h : node.KeepsFor (n ≤ ·.speculativePaths))
    (he : ¬ node.AsksNext env tried) :
    node.KeepsFor (GetOp.Stays env tried n) := by
  intro op hslot hclient
  refine ⟨h op hslot hclient, fun data next hstate hmoves => he ?_⟩
  exact ⟨op, data, next, hslot, hclient, hstate, hmoves⟩

/-- The requester is the same after a move, so that only the operation of a relay moves on. -/
theorem GetOp.OfClient.moves (h : op.OfClient (GetOp.Stays env tried n)) (data next : AwaitingResponseData)
    (hstate : op.state = some (.awaitingResponse data)) (hmoves : env.MovesOn (tried data) data next) :
    (op.moveTo (some (.awaitingResponse next)) none op.localFallback op.autoFetch).OfClient
      (GetOp.Stays env tried n) := by
  intro hclient
  have hop : op.isClientInitiated = true := by
    simpa [isClientInitiated, moveTo, hstate, requester_of_movesOn hmoves] using hclient
  exact absurd hmoves ((h hop).2 data next hstate)

theorem pushBack_ok (env : GetEnvironment S) (op : GetOp) (node : GetNode S) :
    ∃ node', env.pushBack op node = .ok () node' := by
  unfold pushBack
  cases op.state with
  | none => exact ⟨node, rfl⟩
  | some state =>
    cases hpush : env.push (op.moveTo (some state) op.result op.localFallback false) node with
    | ok _ node' => exact ⟨node', bind_of_ok (attempt_of_ok hpush)⟩
    | error _ node' => exact ⟨node', bind_of_ok (attempt_of_error hpush)⟩

/-- An operation whose stream does not come in time is put back with its count at 0, and ended with
the failure. -/
theorem keeps_claim_timeout {source : Option SocketAddr} {id : Transaction}
    {instanceId : Contract.ContractInstanceId}
    {streamId : StreamId} {key : Contract.ContractKey} {totalSize : Nat} {includesContract : Bool}
    (hclaim : ∃ peer, source = some peer ∧ env.claimOrWait peer streamId = .error .timeout) :
    Preserves (GetNode.KeepsFor P) (env.handleMessage source (.responseStreaming id instanceId streamId key
      totalSize includesContract)) := by
  obtain ⟨peer, rfl, hclaim⟩ := hclaim
  refine bind ((ofClient_framed P).keeps_loadOrInit _ _) ?_
  intro loaded hload
  split
  · exact keeps_done
  · next op =>
    intro node _
    obtain ⟨node', hback⟩ := pushBack_ok env op node
    have hproc : env.processMessage op (some peer) (.responseStreaming id instanceId streamId key totalSize
        includesContract) node = .error (.failed .orphanStreamClaimFailed) node' := by
      simp only [processMessage, processStreaming, hclaim]
      exact bind_of_ok hback
    have hhandle : attempt (env.handleOpResult (some peer)
        (.error (.failed .orphanStreamClaimFailed)))
        node' = .ok (.error (.failed (if env.sends peer then .orphanStreamClaimFailed else .connError)))
          { node' with effects := .sendAborted peer :: node'.effects } := rfl
    rw [bind_of_ok (attempt_of_error hproc), bind_of_ok hhandle]
    refine ⟨?_, trivial⟩
    rintro _ ⟨⟩

theorem GetNode.KeepsFor.of_stays (h : node.KeepsFor (GetOp.Stays env tried n)) :
    node.KeepsFor (n ≤ ·.speculativePaths) :=
  fun op hslot hclient => (h op hslot hclient).1

theorem GetMsg.keeps_count {source : Option SocketAddr} {msg : GetMsg}
    (he : ¬ node.StartsOver (.message env source msg)) (h : node.KeepsFor (n ≤ ·.speculativePaths)) :
    (finalState (env.handleMessage source msg) node).KeepsFor (n ≤ ·.speculativePaths) := by
  have hF := ofClient_framed (S := S) (n ≤ ·.speculativePaths)
  cases msg with
  | request id instanceId fetchContract htl visited =>
    refine finalState (hF.keeps_handleMessage ?_) h
    refine fun op hop => hF.keeps_processRequest hop (fun _ _ _ _ => trivial) ?_ ?_
    · intro _ data _ hdata hclient
      have hnone : data.requester = none := by
        simpa [GetOp.isClientInitiated, GetOp.moveTo] using hclient
      exact absurd (hdata.symm.trans hnone) he
    · intro key _
      simp [GetOp.OfClient, GetOp.isClientInitiated, GetOp.moveTo]
  | response id instanceId result =>
    cases result with
    | notFound =>
      refine GetNode.KeepsFor.of_stays (finalState (P := fun _ => True) ?_ (h.stays he))
      refine (ofClient_framed _).keeps_handleMessage fun op hop => ?_
      exact (ofClient_framed _).keeps_processNotFound hop hop.moves
    | found key value =>
      obtain ⟨state, contract⟩ := value
      refine finalState (hF.keeps_handleMessage fun op hop => ?_) h
      cases state with
      | none =>
        apply keeps_pure
        unfold processEmptyFound
        split <;> trivial
      | some state =>
        refine hF.keeps_processFound hop trivial fun data hrequ hclient => ?_
        simp_all [GetOp.isClientInitiated, GetOp.moveTo]
  | responseStreaming id instanceId streamId key totalSize includesContract =>
    by_cases hwait : ∃ peer, source = some peer ∧ env.claimOrWait peer streamId = .error .timeout
    · exact finalState (keeps_claim_timeout hwait) h
    · refine finalState (hF.keeps_handleMessage fun op hop => hF.keeps_processStreaming hop trivial ?_) h
      intro peer e hpeer hclaim
      cases e with
      | alreadyClaimed => exact absurd ⟨peer, hpeer, hclaim⟩ he
      | timeout => exact absurd ⟨peer, hpeer, hclaim⟩ hwait
  | responseStreamingAck id streamId =>
    exact finalState (hF.keeps_handleMessage fun op hop => keeps_pure trivial) h
  | forwardingAck id instanceId =>
    exact finalState (hF.keeps_handleMessage fun op hop => keeps_pure hop) h

/-- Only events that start the count over lower it. -/
theorem GetEvent.keeps_count {e : GetEvent S} (he : ¬ node.StartsOver e)
    (htick : ∀ env fallbackPeers, e ≠ .stalled env fallbackPeers)
    (h : node.KeepsFor (n ≤ ·.speculativePaths)) :
    (finalState e.task node).KeepsFor (n ≤ ·.speculativePaths) := by
  have hF := ofClient_framed (S := S) (n ≤ ·.speculativePaths)
  cases e with
  | requestGet env id instanceId fetchContract subscribe blockingSubscribe visited =>
    exact (he trivial).elim
  | targetedGet env id instanceId target =>
    refine finalState (hF.keeps_notifyOpChange trivial ?_) h
    simp [GetOp.OfClient, GetOp.isClientInitiated, GetOp.startTargeted]
  | message env source msg => exact GetMsg.keeps_count he h
  | aborted env =>
    refine GetNode.KeepsFor.of_stays (finalState (P := fun _ => True) ?_ (h.stays he))
    refine (ofClient_framed _).keeps_handleAbortedOp fun op hop => ?_
    refine (ofClient_framed _).keeps_handleAbort hop hop.moves ⟨?_, ?_⟩
    · simp [GetOp.OfClient, GetOp.isClientInitiated, GetOp.moveTo]
    · simp [GetOp.OfClient, GetOp.isClientInitiated]
  | stalled env fallbackPeers => exact absurd rfl (htick env fallbackPeers)
  | subOperationsCompleted => exact hF.keeps_subOperationsCompleted.finalState h
  | subOperationFailed => exact hF.keeps_subOperationFailed.finalState h

/-- Every retry counts as a speculative path. -/
def CountsRetries (s : GetNode S × Nat) : Prop :=
  s.2 ≤ maxSpeculativePaths ∧ s.1.KeepsFor (s.2 ≤ ·.speculativePaths)

theorem GetOp.speculativePaths_retry {retried : GetOp} {msg : GetMsg} {maxHopsToLive : Nat}
    {probablyVisited : VisitedPeers → SocketAddr → Bool} {fallbackPeers : List PeerKeyLocation}
    (h : op.retryWithNextAlternative maxHopsToLive probablyVisited fallbackPeers = some (retried, msg)) :
    retried.speculativePaths = op.speculativePaths := by
  unfold retryWithNextAlternative at h
  split at h
  · dsimp only at h
    split at h <;> cases h
    rfl
  · cases h

theorem CountsRetries.stalled {s s' : GetNode S × Nat} (h : CountsRetries s)
    {fallbackPeers : List PeerKeyLocation}
    (hstep : (speculating S).step s (.stalled env fallbackPeers) = some s') : CountsRetries s' := by
  cases hslot : s.1.slot with
  | kept op =>
    simp only [speculating, hslot] at hstep
    split_ifs at hstep with hdue
    cases hstep
    have hcount : s.2 ≤ op.speculativePaths := h.2 op hslot hdue.1
    have htask : finalState (GetEvent.stalled env fallbackPeers).task s.1 = _ :=
      finalState_bind_of_ok (m := get) rfl
    rw [htask]
    cases hretry : op.retryWithNextAlternative env.maxHopsToLive env.probablyVisited fallbackPeers with
    | none =>
      simp only [hslot, hretry]
      exact h
    | some retried =>
      have hle : s.2 + 1 ≤ retried.1.speculativePaths + 1 :=
        Nat.succ_le_succ (hcount.trans (GetOp.speculativePaths_retry hretry).ge)
      simp only [hslot, hretry]
      refine ⟨Nat.lt_of_le_of_lt hcount hdue.2, ?_⟩
      rintro _ ⟨⟩ -
      exact hle
  | _ => simp [speculating, hslot] at hstep

/-- There are at most as many speculative retries as paths, if after the first one nothing starts
the count over: acknowledgements, contracts that are found, and answers and aborts with nobody left
to ask all keep it. -/
theorem speculative_retries_le {t : GetNode S × Nat} (s : GetNode S × Nat) (es : List (GetEvent S))
    (hinit : (speculating S).init s)
    (hover : (speculating S).Along (fun s e => s.2 = 0 ∨ ¬ s.1.StartsOver e) s es)
    (hrun : (speculating S).runFrom s es = some t) : t.2 ≤ maxSpeculativePaths := by
  have hzero {s : GetNode S × Nat} (h : s.2 = 0) : CountsRetries s := by
    simp [CountsRetries, GetNode.KeepsFor,
    GetOp.OfClient, h]
  refine ((speculating S).invariant_of_along _ CountsRetries ?_ (hzero hinit.2) hover hrun).1
  rintro s e s' hs hcond hstep
  cases e with
  | stalled env fallbackPeers => exact hs.stalled hstep
  | _ =>
    cases hstep
    rcases hcond with hnone | hkeeps
    · exact hzero hnone
    · exact ⟨hs.1, GetEvent.keeps_count hkeeps (by simp) hs.2⟩

def peersLeft : List PeerKeyLocation := [⟨2, some 2⟩, ⟨3, some 3⟩, ⟨4, some 4⟩, ⟨5, some 5⟩]

/-- A request and two ticks, which find other peers; the first of them acknowledges that it asks
on. -/
def askTwoMore : List (GetEvent Unit) :=
  [.requestGet onePeerEnvironment (.new .get 256) 7 true false false [],
    .stalled onePeerEnvironment peersLeft,
    .message onePeerEnvironment (some 2) (.forwardingAck (.new .get 256) 7),
    .stalled onePeerEnvironment peersLeft]

theorem two_speculative_retries : ∃ t, (speculating Unit).runFrom (beforeStart, 0) askTwoMore = some t ∧
    t.2 = 2 ∧ t.2 ≤ maxSpeculativePaths := by
  refine ⟨_, rfl, rfl, speculative_retries_le (beforeStart, 0) askTwoMore ⟨⟨rfl, rfl, rfl⟩, rfl⟩ ?_ rfl⟩
  exact ⟨.inl rfl, fun _ _ => ⟨.inr nofun, fun _ _ => ⟨.inr nofun,
    fun _ _ => ⟨.inr nofun, fun _ _ => trivial⟩⟩⟩⟩

/-- Another peer has come close to the contract. -/
def sixthPeerEnvironment : GetEnvironment Unit :=
  { onePeerEnvironment with
    kClosestPotentiallyHosting := fun _ visited => if 6 ∈ visited then [] else [⟨6, some 6⟩] }

/-- A peer does not find the contract, another one is asked, and the count starts again. -/
theorem three_speculative_retries : ∃ t, (speculating Unit).runFrom (beforeStart, 0) (askTwoMore ++
      [.message sixthPeerEnvironment (some 3) (.response (.new .get 256) 7 .notFound),
        .stalled onePeerEnvironment peersLeft]) = some t ∧ maxSpeculativePaths < t.2 :=
  ⟨_, rfl, by decide⟩

end Freenet.Operations.Get
