import Freenet.Node.GarbageCollector
import Freenet.Operations.GetOperation

/-! Which contracts a GET operation handles, and what handling a message does around the
operation. -/
namespace Freenet.Operations.Get
open Lib.Task Node Contract GetEnvironment GetResult Keeps List

def GetMsg.key : GetMsg → Option ContractKey
  | response _ _ (.found key _) => some key
  | responseStreaming _ _ _ key _ _ => some key
  | _ => none

def Effect.key : Effect → Option ContractKey
  | contractHandler (.putQuery key _ _) => some key
  | recordGetAccess key _ => some key
  | announceContractHosted key => some key
  | registerLocalHosting key => some key
  | registerPeerInterest key _ => some key
  | startSubscription key _ => some key
  | send _ msg _ => msg.key
  | notification msg => msg.key
  | clientResult (.ok result) => some result.key
  | _ => none

def HasId (i : ContractInstanceId) (key : Option ContractKey) : Prop :=
  ∀ k, key = some k → k.id = i

def GetMsg.Names (i : ContractInstanceId) : GetMsg → Prop
  | request _ instanceId _ _ _ => instanceId = i
  | msg => HasId i msg.key

def GetEvent.Names {S : Type} (i : ContractInstanceId) : GetEvent S → Prop
  | requestGet _ _ instanceId _ _ _ _ => instanceId = i
  | targetedGet _ _ instanceId _ => instanceId = i
  | message _ _ msg => msg.Names i
  | _ => True

/-- The contracts an operation has found, in its result and in the local store, have the instance
id. -/
structure GetOp.Concerns (i : ContractInstanceId) (op : GetOp) : Prop where
  result : HasId i (op.result.map key)
  localFallback : HasId i (op.localFallback.map key)

structure GetNode.Sound {S : Type} (i : ContractInstanceId) (node : GetNode S) : Prop where
  kept : ∀ op, node.slot = .kept op → op.Concerns i
  awaiting : ∀ op, node.awaitingSubOps = some op → op.Concerns i
  effects : ∀ e ∈ node.effects, HasId i e.key

variable {i : ContractInstanceId}

@[simp]
theorem hasId_none : HasId i none := by
  intro k hk
  cases hk

@[simp]
theorem hasId_some_iff {key : ContractKey} : HasId i (some key) ↔ key.id = i := by
  simp [HasId]

namespace GetOp
variable {op : GetOp} {msg : GetMsg}

theorem Concerns.toHostResult (h : op.Concerns i) : HasId i (Effect.clientResult op.toHostResult).key := by
  have hresult := h.result
  unfold GetOp.toHostResult
  cases hop : op.result with
  | none => exact hasId_none
  | some found =>
    rw [hop] at hresult
    exact hresult

theorem Concerns.retryWithNextAlternative (h : op.Concerns i) {maxHopsToLive : Nat}
    {probablyVisited : VisitedPeers → SocketAddr → Bool} {fallbackPeers : List PeerKeyLocation}
    {retried : GetOp}
    (hretry : op.retryWithNextAlternative maxHopsToLive probablyVisited fallbackPeers =
      some (retried, msg)) :
    retried.Concerns i ∧ HasId i msg.key := by
  unfold GetOp.retryWithNextAlternative at hretry
  split at hretry
  · dsimp only at hretry
    split at hretry
    · cases hretry
    · cases hretry
      exact ⟨⟨h.result, h.localFallback⟩, hasId_none⟩
  · cases hretry

end GetOp

/-- A task keeps the node sound, and what it returns has `P`. -/
abbrev KeepsSound {S α : Type} (i : ContractInstanceId) (m : GetTask S α) (P : α → Prop) : Prop :=
  Keeps (GetNode.Sound i) m P

/-- With `tried` marked, the search goes on at another peer. -/
def GetEnvironment.MovesOn {S : Type} (env : GetEnvironment S) (tried : Option SocketAddr)
    (data next : AwaitingResponseData) : Prop :=
  let data := data.markTried tried
  data.tryAlternative.or (data.tryNewCandidates env.kClosestPotentiallyHosting) = some next

def OperationResult.Meets (Op : GetOp → Prop) (Key : Option ContractKey → Prop) :
    OperationResult → Prop
  | completed => True
  | continueOp op => Op op
  | sendAndContinue msg _ op _ => Key msg.key ∧ Op op
  | sendAndComplete msg _ _ => Key msg.key

/-- A property of a node that says `Op` of the operation it keeps, `Reported` of the one that waits
for its sub-operations, and `Key` of the keys in its effects. -/
structure Framed {S : Type} (Inv : GetNode S → Prop) (Op Reported : GetOp → Prop)
    (Key : Option ContractKey → Prop) : Prop where
  emit : ∀ {node e}, Key e.key → Inv node → Inv { node with effects := e :: node.effects }
  handler : ∀ {node} st, Inv node → Inv { node with handler := st }
  keep : ∀ {node op}, Op op → Inv node → Inv { node with slot := .kept op }
  release : ∀ {node slot}, (∀ op, slot ≠ .kept op) → Inv node → Inv { node with slot := slot }
  await : ∀ {node op}, Reported op → Inv node → Inv { node with awaitingSubOps := some op }
  unawait : ∀ {node}, Inv node → Inv { node with awaitingSubOps := .none }
  kept : ∀ {node op}, Inv node → node.slot = .kept op → Op op
  awaited : ∀ {node op}, Inv node → node.awaitingSubOps = some op → Reported op
  finish : ∀ {op found localFallback autoFetch}, Op op → Key (some found.key) → Key (localFallback.map key) →
    Op (op.moveTo (some (.finished found.key)) (some found) localFallback autoFetch)
  localFallback : ∀ {op}, Op op → Key (op.localFallback.map key)
  received : ∀ id source, Op (.received id source)
  reported : ∀ {op}, Op op → Reported op
  result : ∀ {op}, Reported op → Key (Effect.clientResult op.toHostResult).key
  none : Key none

namespace Framed
variable {S α : Type} {Inv : GetNode S → Prop} {Op Reported : GetOp → Prop}
  {Key : Option ContractKey → Prop} {env : GetEnvironment S} {op : GetOp} {msg : GetMsg}

theorem keeps_succeedIf (c : Bool) (e : OpError) :
    Preserves Inv (if c then pure () else fail e : GetTask S Unit) := by
  split
  · exact keeps_done
  · exact keeps_throw

theorem keeps_orFail {r : Except OpError α} : Preserves Inv (orFail r : GetTask S α) := by
  cases r with
  | ok a => exact keeps_done
  | error e => exact keeps_throw

variable (hF : Framed Inv Op Reported Key)
include hF

theorem keeps_emit {e : Effect} (he : Key e.key) : Preserves Inv (Get.emit e : GetTask S Unit) :=
  keeps_modify fun _ hnode => hF.emit he hnode

theorem keeps_emitAll {es : List Effect} (hes : ∀ e ∈ es, Key e.key) :
    Preserves Inv (emitAll es : GetTask S Unit) := by
  refine keeps_modify fun node hnode => ?_
  have hall : ∀ es : List Effect, (∀ e ∈ es, Key e.key) →
      Inv { node with effects := es ++ node.effects } := by
    intro es hes
    induction es with
    | nil => exact hnode
    | cons e es ih =>
      exact hF.emit (hes e mem_cons_self) (ih fun e' he' => hes e' (mem_cons_of_mem e he'))
  exact hall es.reverse fun e he => hes e (mem_reverse.mp he)

theorem keeps_complete : Preserves Inv (complete : GetTask S Unit) :=
  keeps_modify fun _ hnode => hF.release (by simp) hnode

theorem keeps_push (hop : Op op) : Preserves Inv (env.push op) := by
  have hpush : Preserves Inv (modifyGet (GetNode.push env op) : GetTask S _) := by
    refine keeps_modifyGet fun node hnode => ⟨?_, trivial⟩
    unfold GetNode.push
    split
    · exact hnode
    · split_ifs
      · exact hF.release (by simp) hnode
      · exact hF.keep hop hnode
      · exact hF.release (by simp) hnode
    · split_ifs
      · exact hF.keep hop hnode
      · exact hnode
  exact hpush.bind fun _ _ => keeps_orFail

theorem keeps_pop : Keeps Inv (modifyGet (GetNode.pop env) : GetTask S _)
    fun popped => ∀ op, popped = .ok (some op) → Op op := by
  refine keeps_modifyGet fun node hnode => ?_
  unfold GetNode.pop
  cases hslot : node.slot with
  | completed => exact ⟨hnode, by simp⟩
  | running =>
    split_ifs
    · exact ⟨hF.release (by simp) hnode, by simp⟩
    · exact ⟨hnode, by simp⟩
  | absent => exact ⟨hF.release (by simp) hnode, by simp⟩
  | kept op =>
    refine ⟨hF.release (by simp) hnode, ?_⟩
    intro op' hop'
    cases hop'
    exact hF.kept hnode hslot

section
variable (hmsg : Key msg.key)
include hmsg

theorem keeps_notifyOpChange (hop : Op op) : Preserves Inv (env.notifyOpChange msg op) := by
  apply andThen (hF.keeps_push hop)
  apply andThen (hF.keeps_emit (e := .notification msg) hmsg)
  exact keeps_succeedIf _ _

theorem keeps_sendWithStream (target : SocketAddr) (stream : Option (StreamId × List UInt8)) :
    Preserves Inv (env.sendWithStream target msg stream) := by
  apply andThen (hF.keeps_emit (e := .send target msg stream) hmsg)
  exact keeps_succeedIf _ _

theorem keeps_sendToTarget (nextHop : Option SocketAddr) (stream : Option (StreamId × List UInt8)) :
    Preserves Inv (env.sendToTarget nextHop msg stream) := by
  unfold sendToTarget
  split
  · exact keeps_done
  · exact hF.keeps_sendWithStream hmsg _ _

end

/-- The handler's answer has what every answer to the event has. -/
theorem keeps_notifyContractHandler {ev : ContractHandlerEvent}
    {P : Except ContractError ContractHandlerEvent → Prop} (hev : Key (Effect.contractHandler ev).key)
    (hP : ∀ st st' response, env.handler.sendToHandler st ev = .ok (st', response) → P response) :
    Keeps Inv (env.notifyContractHandler ev) P := by
  apply andThen (hF.keeps_emit hev)
  apply bind keeps_get
  intro node _
  split
  · exact keeps_throw
  · next st response hsent =>
    have hstore : Preserves Inv (modify fun node => { node with handler := st } : GetTask S Unit) :=
      keeps_modify fun _ hnode => hF.handler st hnode
    exact hstore.andThen (keeps_pure (hP _ _ _ hsent))

variable (source : Option SocketAddr)

theorem keeps_loadOrInit (msg : GetMsg) :
    Keeps Inv (env.loadOrInit source msg) fun loaded => ∀ op, loaded = some op → Op op := by
  apply bind hF.keeps_pop
  intro popped hpopp
  split
  · exact keeps_pure (by simp)
  · next op =>
    apply keeps_pure
    intro op' hop'
    cases hop'
    exact hpopp op rfl
  · apply keeps_pure
    intro op' hop'
    cases hop'
    exact hF.received _ source
  · apply keeps_pure
    intro op' hop'
    cases hop'
    exact hF.received _ source
  · exact keeps_pure (by simp)

theorem keeps_deliver (hop : Op op) : Keeps Inv (env.deliver op) fun delivered =>
    ∀ op, delivered = some op → Reported op := by
  unfold deliver
  split_ifs
  · apply andThen hF.keeps_complete
    exact keeps_pure (by simp)
  · apply andThen hF.keeps_complete
    apply keeps_pure
    intro op' hop'
    cases hop'
    exact hF.reported hop
  · have hawait : Preserves Inv (modify fun node =>
        { node with awaitingSubOps := some op } : GetTask S Unit) :=
      keeps_modify fun _ hnode => hF.await (hF.reported hop) hnode
    exact hawait.andThen (keeps_pure (by simp))

theorem keeps_handleOpResult {processed : Except Stop OperationResult}
    (hproc : ∀ result, processed = .ok result → result.Meets Op Key) :
    Keeps Inv (env.handleOpResult source processed) fun reported =>
      ∀ op, reported = some op → Reported op := by
  have hnone : ∀ op : GetOp, (Option.none : Option GetOp) = some op → Reported op := by simp
  unfold handleOpResult
  split
  · exact keeps_pure hnone
  · exact keeps_pure hnone
  · exact keeps_throw
  · split
    · exact keeps_throw
    · next addr =>
      apply andThen (hF.keeps_emit (e := .sendAborted addr) hF.none)
      exact keeps_throw
  · apply andThen hF.keeps_complete
    exact keeps_pure hnone
  · next op =>
    have hop : Op op := hproc _ rfl
    split
    · exact hF.keeps_deliver hop
    · apply andThen (hF.keeps_push hop)
      exact keeps_pure hnone
  · next msg nextHop op stream =>
    obtain ⟨hmsg, hop⟩ : Key msg.key ∧ Op op := hproc _ rfl
    split
    · apply andThen hF.keeps_complete
      apply andThen (hF.keeps_sendToTarget hmsg nextHop stream)
      apply keeps_pure
      intro op' hop'
      cases hop'
      exact hF.reported hop
    · split
      · apply andThen (hF.keeps_push hop)
        apply andThen (hF.keeps_sendWithStream hmsg _ stream)
        exact keeps_pure hnone
      · split
        · exact keeps_throw
        · apply andThen (hF.keeps_notifyOpChange hmsg hop)
          exact keeps_pure hnone
  · next msg nextHop stream =>
    apply andThen (hF.keeps_sendToTarget (hproc _ rfl) nextHop stream)
    apply andThen hF.keeps_complete
    exact keeps_pure hnone

theorem keeps_reportResult {reported : Except Stop (Option GetOp)}
    (hreport : ∀ op, reported = .ok (some op) → Reported op) :
    Preserves Inv (env.reportResult reported) := by
  unfold reportResult
  split
  · exact keeps_done
  · next op =>
    apply hF.keeps_emitAll
    intro e he
    split_ifs at he
    · cases he
    · rcases mem_singleton.mp he with rfl
      exact hF.result (hreport op rfl)
  · exact keeps_done
  · refine (hF.keeps_emitAll ?_).andThen hF.keeps_complete
    intro e he
    split_ifs at he
    · cases he
    · rcases mem_singleton.mp he with rfl
      exact hF.none

theorem keeps_handleMessage {source : Option SocketAddr} (hprocess : ∀ op : GetOp, Op op →
      Keeps Inv (env.processMessage op source msg) (OperationResult.Meets Op Key)) :
    Preserves Inv (env.handleMessage source msg) := by
  apply bind (hF.keeps_loadOrInit source msg)
  intro loaded hload
  split
  · exact keeps_done
  · next op =>
    apply bind (hprocess op (hload op rfl)).attempt
    intro processed hproc
    apply bind (hF.keeps_handleOpResult source hproc).attempt
    intro reported hreport
    apply hF.keeps_reportResult
    intro op' hop'
    exact hreport _ hop' op' rfl

theorem keeps_handleAbortedOp (habort : ∀ op, Op op → Preserves Inv (env.handleAbort op)) :
    Preserves Inv env.handleAbortedOp := by
  apply bind hF.keeps_pop
  intro popped hpopp
  split
  · next op => exact habort op (hpopp op rfl)
  · exact keeps_done

theorem keeps_stopAwaiting :
    Preserves Inv (modify fun node => { node with awaitingSubOps := .none } : GetTask S Unit) :=
  keeps_modify fun _ hnode => hF.unawait hnode

theorem keeps_subOperationsCompleted : Preserves Inv (subOperationsCompleted : GetTask S Unit) := by
  apply bind keeps_get
  intro node hnode
  split
  · exact keeps_done
  · next op hawait =>
    apply andThen hF.keeps_stopAwaiting
    apply andThen hF.keeps_complete
    exact hF.keeps_emit (hF.result (hF.awaited hnode hawait))

theorem keeps_subOperationFailed : Preserves Inv (subOperationFailed : GetTask S Unit) := by
  apply andThen hF.keeps_stopAwaiting
  apply andThen hF.keeps_complete
  exact hF.keeps_emit hF.none

/-! Contracts that have the key are looked up, stored and passed on; what becomes of the operation
is up to `Op`. -/

section Steps
variable {found : GetResult} {key : ContractKey} {localFallback : Option GetResult}
  {data next : AwaitingResponseData}
  {instanceId : ContractInstanceId} {htl totalSize : Nat} {streamId : StreamId}
  {fetchContract includesContract : Bool} {source : Option SocketAddr} {visited : VisitedPeers}

theorem keeps_put {state : WrappedState} {contract : Option ContractContainer} (hkey : Key (some key)) :
    Preserves Inv (env.notifyContractHandler (.putQuery key state contract)) :=
  hF.keeps_notifyContractHandler hkey fun _ _ _ _ => trivial

theorem keeps_rehost (hfound : Key (some found.key)) : Preserves Inv (env.rehost found) := by
  unfold rehost
  split
  · exact keeps_done
  · refine bind (hF.keeps_put hfound) ?_
    intro put _
    split
    · exact hF.keeps_emit hfound
    · exact keeps_done

theorem keeps_pipeUpstream (hkey : Key (some key)) :
    Preserves Inv (env.pipeUpstream op instanceId key totalSize includesContract) := by
  unfold pipeUpstream
  split
  · exact keeps_done
  · split
    · apply andThen (P := fun _ => True)
      · refine hF.keeps_sendWithStream ?_ _ _
        exact hkey
      · refine andThen (hF.keeps_emit hF.none) ?_
        split
        · exact keeps_done
        · exact keeps_throw
    · exact keeps_done

section
variable (hfound : Key (some found.key))
include hfound

omit hF in
theorem keeps_respondUpstream : Keeps Inv (env.respondUpstream op found) (OperationResult.Meets Op Key) := by
  apply bind (P := fun message => Key message.1.key)
  · unfold foundMessage
    dsimp only
    split
    · exact keeps_throw
    · split_ifs <;> exact keeps_pure hfound
  · intro message hmess
    exact keeps_pure hmess

theorem keeps_recordHosting : Preserves Inv (env.recordHosting op data found) := by
  refine andThen (hF.keeps_emit hfound) ?_
  apply andThen (P := fun _ => True)
  · apply hF.keeps_emitAll
    intro e he
    split_ifs at he
    · rcases mem_pair.mp he with rfl | rfl
      · exact hfound
      · exact hfound
    · cases he
  · apply hF.keeps_emitAll
    intro e he
    split_ifs at he
    · rcases mem_singleton.mp he with rfl
      exact hfound
    · cases he

theorem keeps_cacheFound : Preserves Inv (env.cacheFound op data found) := by
  refine bind (hF.keeps_notifyContractHandler hF.none fun _ _ _ _ => trivial) ?_
  intro localState _
  split
  · exact hF.keeps_recordHosting hfound
  · exact keeps_done
  · refine bind (hF.keeps_put hfound) ?_
    intro put _
    split
    · exact keeps_throw
    · exact hF.keeps_recordHosting hfound
    · exact keeps_done
    · exact keeps_throw

theorem keeps_putUnlessHosting : Preserves Inv (env.putUnlessHosting found) := by
  unfold putUnlessHosting
  split
  · exact keeps_done
  · exact andThen (hF.keeps_put hfound) keeps_done

end

theorem keeps_cacheStreamed {payload : GetStreamingPayload} (hkey : Key (some payload.key)) :
    Preserves Inv (env.cacheStreamed payload includesContract) := by
  unfold cacheStreamed
  split
  · exact keeps_done
  · refine andThen (hF.keeps_putUnlessHosting hkey) ?_
    exact hF.keeps_emit hkey

theorem keeps_forwardRequest (hlocal : Key (localFallback.map GetResult.key))
    (hforw : ∀ data : AwaitingResponseData, data.requester = source.bind env.getPeerLocationByAddr →
      Op (op.moveTo (some (.awaitingResponse data)) .none localFallback false)) :
    Keeps Inv (env.forwardRequest op instanceId htl fetchContract source visited localFallback)
      (OperationResult.Meets Op Key) := by
  apply andThen (P := fun _ => True)
  · apply hF.keeps_emitAll
    intro e he
    obtain ⟨upstream, _, rfl⟩ := mem_map.mp he
    exact hF.none
  · unfold tryForwardOrReturn
    dsimp only
    split
    · exact keeps_pure ⟨hF.none, hforw _ rfl⟩
    · exact keeps_pure hlocal
    · exact keeps_pure hF.none
    · refine andThen (hF.keeps_emit hF.none) ?_
      exact keeps_pure trivial

variable (hop : Op op)
include hop

theorem keeps_serveLocally (hfound : Key (some found.key)) :
    Keeps Inv (env.serveLocally op found) (OperationResult.Meets Op Key) := by
  apply andThen (P := fun _ => True)
  · apply hF.keeps_emitAll
    intro e he
    obtain ⟨peer, _, rfl⟩ := mem_map.mp he
    exact hfound
  · split
    · exact keeps_respondUpstream hfound
    · exact keeps_respondUpstream hfound
    · exact keeps_pure (hF.finish hop hfound (hF.localFallback hop))

/-- The local copy has the key, and a request that is forwarded waits in the name of its sender. -/
theorem keeps_processRequest (hquery : ∀ st st' got,
      env.handler.sendToHandler st (.getQuery instanceId fetchContract) = .ok (st', got) →
      Key ((localValue fetchContract got).map GetResult.key))
    (hforw : ∀ (localFallback : Option GetResult) (data : AwaitingResponseData),
      Key (localFallback.map GetResult.key) → data.requester = source.bind env.getPeerLocationByAddr →
      Op (op.moveTo (some (.awaitingResponse data)) .none localFallback false))
    (hsame : ∀ key, op.state = some (.finished key) →
      Op (op.moveTo (some (.finished key)) op.result op.localFallback op.autoFetch)) :
    Keeps Inv (env.processRequest op source instanceId fetchContract htl visited)
      (OperationResult.Meets Op Key) := by
  have hlocal := hF.localFallback hop
  unfold processRequest
  dsimp only
  split
  · next key hstate =>
    rw [hstate]
    exact keeps_pure (hsame key hstate)
  · split_ifs
    · exact keeps_pure hF.none
    · exact keeps_throw
    · refine bind (hF.keeps_notifyContractHandler hF.none hquery) ?_
      intro got hgot
      split
      · have hor : Key (((localValue fetchContract got).or op.localFallback).map GetResult.key) := by
          cases hcopy : localValue fetchContract got with
          | none => exact hlocal
          | some copy =>
            rw [hcopy] at hgot
            exact hgot
        exact hF.keeps_forwardRequest hor fun data => hforw _ data hor
      · next hcopy _ =>
        rw [hcopy] at hgot
        exact hF.keeps_serveLocally hop hgot
      · exact hF.keeps_forwardRequest hlocal fun data => hforw _ data hlocal

theorem keeps_giveUp : Keeps Inv (env.giveUp op data) (OperationResult.Meets Op Key) := by
  have hlocal := hF.localFallback hop
  unfold giveUp
  split
  · next hcopy =>
    rw [hcopy] at hlocal
    exact keeps_pure hlocal
  · exact keeps_pure hF.none
  · next hcopy =>
    rw [hcopy] at hlocal
    refine andThen (hF.keeps_rehost hlocal) ?_
    exact keeps_pure (hF.finish hop hlocal hF.none)
  · refine andThen (hF.keeps_emit hF.none) ?_
    exact keeps_pure trivial

theorem keeps_processNotFound (hnext : ∀ data next, op.state = some (.awaitingResponse data) →
      env.MovesOn ((source.bind env.getPeerLocationByAddr).bind PeerKeyLocation.socketAddr) data next →
      Op (op.moveTo (some (.awaitingResponse next)) .none op.localFallback op.autoFetch)) :
    Keeps Inv (env.processNotFound op source instanceId) (OperationResult.Meets Op Key) := by
  unfold processNotFound
  split
  · next data hdata =>
    dsimp only
    split
    · next next hmoves => exact keeps_pure ⟨hF.none, hnext data next hdata hmoves⟩
    · exact hF.keeps_giveUp hop
  · exact keeps_pure hF.none
  · exact keeps_throw

theorem keeps_handleAbort (hnext : ∀ data next, op.state = some (.awaitingResponse data) →
      env.MovesOn data.nextHop.socketAddr data next →
      Op (op.moveTo (some (.awaitingResponse next)) .none op.localFallback op.autoFetch))
    (hnone : Op (op.moveTo .none .none .none false) ∧ Op { op with state := .none }) :
    Preserves Inv (env.handleAbort op) := by
  have hlocal := hF.localFallback hop
  unfold handleAbort
  split
  · next data hdata =>
    dsimp only
    split
    · next next hmoves =>
      exact andThen (hF.keeps_notifyOpChange hF.none (hnext data next hdata hmoves)) keeps_throw
    · split
      · next copy hcopy =>
        rw [hcopy] at hlocal
        exact hF.keeps_push (hF.finish hop hlocal hF.none)
      · exact andThen (hF.keeps_notifyOpChange hF.none hnone.1) keeps_throw
      · exact hF.keeps_push hnone.1
  · exact hF.keeps_push hnone.2

/-- A contract from a peer goes through as it is: the operation handles the right contract exactly
because the peer sent it. -/
theorem keeps_processFound (hfound : Key (some found.key))
    (hback : ∀ data : AwaitingResponseData, data.requester.isSome →
      Op (op.moveTo (some (.awaitingResponse data)) .none .none false)) :
    Keeps Inv (env.processFound op found) (OperationResult.Meets Op Key) := by
  unfold processFound
  split
  · next data hdata =>
    split
    · next hcode =>
      rw [hdata]
      exact andThen (hF.keeps_notifyOpChange hF.none (hback data hcode.2.2)) keeps_throw
    · refine andThen (hF.keeps_cacheFound hfound) ?_
      split
      · exact keeps_pure (hF.finish hop hfound (hF.localFallback hop))
      · apply andThen (P := fun _ => True)
        · unfold cacheAtRelay
          split
          · exact keeps_done
          · exact hF.keeps_putUnlessHosting hfound
        · exact keeps_respondUpstream hfound
  · exact keeps_throw

theorem keeps_processStreaming (hkey : Key (some key)) (hback : ∀ peer e, source = some peer →
      env.claimOrWait peer streamId = .error e → Preserves Inv (env.pushBack op)) :
    Keeps Inv (env.processStreaming op source instanceId streamId key totalSize includesContract)
      (OperationResult.Meets Op Key) := by
  unfold processStreaming
  split
  · exact keeps_throw
  · next peer =>
    split
    · next hclaim => exact (hback peer _ rfl hclaim).andThen keeps_throw
    · next hclaim => exact (hback peer _ rfl hclaim).andThen keeps_throw
    · refine bind (hF.keeps_pipeUpstream hkey) ?_
      intro piping _
      split
      · exact keeps_throw
      · exact keeps_throw
      · next payload _ _ =>
        unfold processPayload
        split
        · exact keeps_throw
        · next hsame =>
          have hpayl : payload.key = key := not_not.mp hsame
          refine andThen (hF.keeps_cacheStreamed (by rw [hpayl]; exact hkey)) ?_
          split
          · exact keeps_pure (hF.finish hop hkey (hF.localFallback hop))
          · exact keeps_throw
          · exact keeps_pure trivial
          · exact keeps_pure hkey

end Steps

end Framed

/-! The contracts a GET reports, stores and forwards: those with the instance id, if peers send no
others. -/
variable {S : Type} {env : GetEnvironment S} {op : GetOp} (source : Option SocketAddr)
  {msg : GetMsg}

theorem sound_framed :
    Framed (S := S) (GetNode.Sound i) (GetOp.Concerns i) (GetOp.Concerns i) (HasId i) where
  emit he hnode := by
    refine ⟨hnode.kept, hnode.awaiting, ?_⟩
    intro e' he'
    cases he' with
    | head => exact he
    | tail _ hmem => exact hnode.effects e' hmem
  handler _ hnode := { hnode with }
  keep hop hnode := by
    refine ⟨?_, hnode.awaiting, hnode.effects⟩
    rintro op' ⟨⟩
    exact hop
  release hslot hnode := ⟨fun op hop => absurd hop (hslot op), hnode.awaiting, hnode.effects⟩
  await hop hnode := by
    refine ⟨hnode.kept, ?_, hnode.effects⟩
    rintro op' ⟨⟩
    exact hop
  unawait hnode := ⟨hnode.kept, by simp, hnode.effects⟩
  kept hnode hslot := hnode.kept _ hslot
  awaited hnode hop := hnode.awaiting _ hop
  finish _ hfound hlocal := ⟨hfound, hlocal⟩
  localFallback hop := hop.localFallback
  received _ _ := ⟨hasId_none, hasId_none⟩
  reported hop := hop
  result hop := hop.toHostResult
  none := hasId_none

theorem hasId_localValue {st st' : HandlerState S} {got : Except ContractError ContractHandlerEvent}
    {fetch : Bool}
    (h : env.handler.sendToHandler st (.getQuery i fetch) = .ok (st', got)) :
    HasId i ((localValue fetch got).map GetResult.key) := by
  intro key hkey
  unfold localValue at hkey
  split at hkey
  · split_ifs at hkey
    · cases hkey
    · cases hkey
      exact ContractHandler.sendToHandler_getQuery_key h
  · cases hkey

theorem keeps_requestGet {data : PrepareRequestData} {visited : VisitedPeers}
    (hop : op.state = some (.prepareRequest data)) (hid : data.instanceId = i) :
    KeepsSound i (env.requestGet op visited) fun _ => True := by
  unfold requestGet
  rw [hop]
  dsimp only
  rw [hid]
  refine bind (sound_framed.keeps_notifyContractHandler hasId_none fun _ _ _ => hasId_localValue) ?_
  intro got hcopy
  split
  · next copy _ hlocal =>
    rw [hlocal] at hcopy
    exact sound_framed.keeps_push ⟨hcopy, hasId_none⟩
  · exact keeps_throw
  · exact sound_framed.keeps_notifyOpChange hasId_none ⟨hasId_none, hcopy⟩

theorem keeps_pushBack (hop : op.Concerns i) : KeepsSound i (env.pushBack op) fun _ => True := by
  unfold pushBack
  split
  · exact keeps_done
  · refine andThen (attempt (sound_framed.keeps_push ?_)) keeps_done
    exact ⟨hop.result, hop.localFallback⟩

theorem keeps_processMessage (hop : op.Concerns i) (source : Option SocketAddr) (hmsg : msg.Names i) :
    KeepsSound i (env.processMessage op source msg) (OperationResult.Meets
      (GetOp.Concerns i) (HasId i)) := by
  cases msg with
  | request id instanceId fetchContract htl visited =>
    cases hmsg
    exact sound_framed.keeps_processRequest hop (fun _ _ _ => hasId_localValue)
      (fun _ _ hlocal _ => ⟨hasId_none, hlocal⟩) fun _ _ => ⟨hop.result, hop.localFallback⟩
  | response id instanceId result =>
    cases result with
    | notFound => exact sound_framed.keeps_processNotFound hop fun _ _ _ _ => ⟨hasId_none, hop.localFallback⟩
    | found key value =>
      obtain ⟨state, contract⟩ := value
      cases state with
      | none =>
        apply keeps_pure
        unfold processEmptyFound
        split
        · exact hasId_none
        · trivial
      | some state => exact sound_framed.keeps_processFound hop hmsg fun _ _ => ⟨hasId_none, hasId_none⟩
  | responseStreaming id instanceId streamId key totalSize includesContract =>
    exact sound_framed.keeps_processStreaming hop hmsg fun _ _ _ _ => keeps_pushBack hop
  | responseStreamingAck id streamId => exact keeps_pure trivial
  | forwardingAck id instanceId => exact keeps_pure ⟨hop.result, hop.localFallback⟩

theorem keeps_retryStalled (fallbackPeers : List PeerKeyLocation) :
    KeepsSound i (env.retryStalled fallbackPeers) fun _ => True := by
  apply bind keeps_get
  intro node hnode
  split
  · next op hslot =>
    split
    · exact keeps_pure trivial
    · next retried msg hretry =>
      obtain ⟨hretr, hmsg⟩ := (hnode.kept op hslot).retryWithNextAlternative hretry
      apply andThen (P := fun _ => True)
      · apply keeps_modify
        intro node' hnode'
        refine ⟨?_, hnode'.awaiting, hnode'.effects⟩
        intro op' hop'
        cases hop'
        exact ⟨hretr.result, hretr.localFallback⟩
      · exact sound_framed.keeps_emit hmsg
  · exact keeps_pure trivial

theorem GetEvent.keeps_task {e : GetEvent S} (he : e.Names i) : KeepsSound i e.task fun _ => True := by
  cases e with
  | requestGet env id instanceId fetchContract subscribe blockingSubscribe visited =>
    have hstate : (GetOp.start instanceId fetchContract subscribe blockingSubscribe id).state =
        some (.prepareRequest ⟨instanceId, id, fetchContract, subscribe, blockingSubscribe⟩) := rfl
    exact keeps_requestGet hstate he
  | targetedGet env id instanceId target =>
    exact sound_framed.keeps_notifyOpChange hasId_none ⟨hasId_none, hasId_none⟩
  | message env source msg =>
    exact sound_framed.keeps_handleMessage fun op hop => keeps_processMessage hop source he
  | aborted env =>
    refine sound_framed.keeps_handleAbortedOp fun op hop => sound_framed.keeps_handleAbort hop ?_ ?_
    · exact fun _ _ _ _ => ⟨hasId_none, hop.localFallback⟩
    · exact ⟨⟨hasId_none, hasId_none⟩, hop.result, hop.localFallback⟩
  | stalled env fallbackPeers => exact keeps_retryStalled fallbackPeers
  | subOperationsCompleted => exact sound_framed.keeps_subOperationsCompleted
  | subOperationFailed => exact sound_framed.keeps_subOperationFailed

/-- The contracts that went to the client, to the local store and to other nodes have the instance
id. -/
structure GetNode.KeysMatch (i : ContractInstanceId) (node : GetNode S) : Prop where
  reported : ∀ result, .clientResult (.ok result) ∈ node.effects → result.key.id = i
  stored : ∀ key state contract, .contractHandler (.putQuery key state contract) ∈ node.effects → key.id = i
  forwarded : ∀ target msg stream key, .send target msg stream ∈ node.effects →
    msg.key = some key → key.id = i

theorem GetNode.Sound.keysMatch {node : GetNode S} (h : node.Sound i) : node.KeysMatch i where
  reported _ hresult := h.effects _ hresult _ rfl
  stored _ _ _ hput := h.effects _ hput _ rfl
  forwarded _ _ _ key hsend hkey := h.effects _ hsend key hkey

/-- In every run whose requests ask for the instance id and whose responses carry contracts with
that id only, the operation reports, stores and forwards no other contract. -/
theorem get_keys_match_of_names {s t : GetNode S} {es : List (GetEvent S)}
    (hinit : (machine S).init s) (hnames : ∀ e ∈ es, e.Names i)
    (hrun : (machine S).runFrom s es = some t) : t.KeysMatch i := by
  obtain ⟨hslot, hawaiting, heffects⟩ := hinit
  have hsound : s.Sound i := by
    refine ⟨?_, ?_, ?_⟩
    · simp [hslot]
    · simp [hawaiting]
    · simp [heffects]
  have hstep : ∀ node e node', node.Sound i → e.Names i →
      (machine S).step node e = some node' → GetNode.Sound i node' := by
    intro node e node' hnode he hnode'
    cases hnode'
    exact (GetEvent.keeps_task he).finalState hnode
  exact ((machine S).invariant_of_along (fun _ e => e.Names i) (GetNode.Sound i) hstep hsound
    ((machine S).along_of_forall_mem hnames) hrun).keysMatch

/-- A node without contracts, connected to one peer. -/
def onePeerEnvironment : GetEnvironment Unit where
  build := ⟨true, true⟩
  handler :=
    { executor :=
        { codeHashFromId := fun _ _ => none
          fetchContract := fun _ _ _ => .ok ⟨none, none⟩
          upsertContractState := fun store _ _ _ => (store, .ok .noChange) }
      admits := fun _ _ => true
      answersInTime := fun _ _ => true }
  timedOut := false
  newTransactionsOpen := true
  notificationsOpen := true
  maxHopsToLive := 10
  ownLocation := ⟨0, some 9⟩
  getPeerLocationByAddr := fun addr => some ⟨1, some addr⟩
  getPeerByAddr := fun addr => some ⟨1, some addr⟩
  kClosestPotentiallyHosting := fun _ visited => if 1 ∈ visited then [] else [⟨1, some 1⟩]
  probablyVisited := fun visited addr => addr ∈ visited
  isHostingContract := fun _ => false
  recordGetAccess := fun _ _ => true
  isSubscribed := fun _ => false
  streamingThreshold := 65536
  serializePayload := fun payload => payload.value.state
  deserializePayload := fun _ => none
  nextStreamId := 1
  claimOrWait := fun _ _ => .error .timeout
  sends := fun _ => true
  pipes := fun _ => true
  isSubOperation := false
  failedParent := false
  allSubOperationsCompleted := true

def beforeStart : GetNode Unit := ⟨⟨(), true⟩, .absent, none, []⟩

def askForSeven (found : GetResult) : List (GetEvent Unit) :=
  let tx := Transaction.new .get 256
  [.requestGet onePeerEnvironment tx 7 true false false [], .message onePeerEnvironment (some 1)
      (.response tx 7 (.found found.key ⟨some found.state, found.contract⟩))]

def afterResponse (found : GetResult) : GetNode Unit :=
  ((machine Unit).runFrom beforeStart (askForSeven found)).getD beforeStart

def contractSeven : GetResult := ⟨⟨7, 0⟩, [1], some [2]⟩
def contractEight : GetResult := ⟨⟨8, 0⟩, [1], some [2]⟩

/-- The contract that was asked for reaches the client. -/
theorem requested_contract_is_reported :
    (machine Unit).runFrom beforeStart (askForSeven contractSeven) = some (afterResponse contractSeven) ∧
    .clientResult (.ok contractSeven) ∈ (afterResponse contractSeven).effects ∧
    (afterResponse contractSeven).KeysMatch 7 := by
  have hnames : ∀ e ∈ askForSeven contractSeven, e.Names 7 := by
    intro e he
    rcases mem_pair.mp he with rfl | rfl
    · rfl
    · exact hasId_some_iff.mpr rfl
  have hrun : (machine Unit).runFrom beforeStart (askForSeven contractSeven) =
      some (afterResponse contractSeven) := rfl
  exact ⟨hrun, Mem.head _, get_keys_match_of_names ⟨rfl, rfl, rfl⟩ hnames hrun⟩

/-- Another contract goes to the client and into the store just the same. -/
theorem unrequested_contract_is_reported :
    (machine Unit).runFrom beforeStart (askForSeven contractEight) = some (afterResponse contractEight) ∧
    .clientResult (.ok contractEight) ∈ (afterResponse contractEight).effects ∧
    .contractHandler (.putQuery ⟨8, 0⟩ [1] (some [2])) ∈ (afterResponse contractEight).effects ∧
    ¬ (afterResponse contractEight).KeysMatch 7 := by
  have hreport : .clientResult (.ok contractEight) ∈ (afterResponse contractEight).effects :=
    Mem.head _
  refine ⟨rfl, hreport, ?_, ?_⟩
  · -- the put comes before the four records of hosting and the report
    exact .tail _ (.tail _ (.tail _ (.tail _ (.tail _ (.head _)))))
  · intro hmatch
    cases hmatch.reported contractEight hreport

end Freenet.Operations.Get
