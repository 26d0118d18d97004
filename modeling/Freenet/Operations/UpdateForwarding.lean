import Freenet.Operations.UpdateMessages

/-! One UPDATE request on its way; a node without the contract sends it on to one peer. -/
namespace Freenet.Operations.Update
open Lib Lib.Task Node Contract Environment Effect

/-- The peers and what is under way between and in them: messages on the way to a node wait there as
arriving. -/
structure Network (H : Type) where
  nodes : SocketAddr → UpdateNode H
  activities : List (SocketAddr × Activity)
  requestUpdates : Nat

inductive NetworkEvent where
  | advance (i : Nat) (env : Environment)
  | lose (i : Nat)
  | broadcast (p : SocketAddr) (source : SocketAddr) (msg : UpdateMsg)
  | connectionLost (p : SocketAddr) (id : Transaction) (env : Environment)
  | receiveNew (p : SocketAddr) (id : Transaction)
  | cleanup (p : SocketAddr) (id : Transaction) (elapsed : Nat) (tie cutoffTie : Bool)

def Effect.requestTarget : Effect → Option SocketAddr
  | .send target msg _ => if msg.isRequest then some target else none
  | _ => none

/-- What a node sends waits to be taken up by the node it is sent to. -/
def Effect.delivery (source : SocketAddr) : Effect → Option (SocketAddr × Activity)
  | .send target msg _ => some (target, .arriving (some source) msg 0)
  | _ => none

def sentRequests (effects : List Effect) : List SocketAddr := effects.filterMap requestTarget

/-- The connection over which an operation's request went is lost. -/
def Environment.handleAbortedOp {H : Type} (env : Environment) (id : Transaction) :
    UpdateTask H Unit := do
  let popped ← modifyGet fun node => node.pop env id
  match popped with
  | .ok (some _) => do
    emit (.clientResult id (.error .connError))
    complete id
  | _ => pure ()

namespace Network
variable {H : Type} [DecidableEq H] (payloadHash : Bool → List UInt8 → H) (net : Network H)

def setNode (p : SocketAddr) (node : UpdateNode H) : Network H :=
  { net with nodes := Function.update net.nodes p node }

/-- The node at `p` has done something; what it sent is on its way. -/
def deliver (p : SocketAddr) (node : UpdateNode H) : Network H :=
  { net with
    nodes := Function.update net.nodes p { node with effects := [] }
    activities := net.activities ++ node.effects.reverse.filterMap (delivery p)
    requestUpdates := net.requestUpdates + (sentRequests node.effects).length }

/-- The networks of the given peers: all that is sent goes to one of them. -/
def step (peers : Finset SocketAddr) : NetworkEvent → Option (Network H)
  | .advance i env =>
    match net.activities[i]? with
    | none => none
    | some (p, a) =>
      let after := env.afterAdvance payloadHash a (net.nodes p)
      if (env.ownAddr = none ∨ env.ownAddr = some p) ∧
          (after.2.effects.filterMap (delivery p)).all (fun d => d.1 ∈ peers) = true then
        some (({ net with activities := net.activities.eraseIdx i ++
          (after.1.map fun rest => (p, rest)).toList }).deliver p after.2)
      else none
  | .lose i => some { net with activities := net.activities.eraseIdx i }
  | .broadcast p source msg =>
    if msg.isRequest then none
    else some { net with activities := net.activities ++ [(p, .arriving (some source) msg 0)] }
  | .connectionLost p id env =>
    some (net.deliver p (Task.finalState (env.handleAbortedOp id) (net.nodes p)))
  | .receiveNew p id =>
    some (net.setNode p ((net.nodes p).setEntry id ((net.nodes p).ops id).receiveNew))
  | .cleanup p id elapsed tie cutoffTie =>
    some (net.setNode p ((net.nodes p).setEntry id (((net.nodes p).ops id).cleanup elapsed tie cutoffTie)))

/-- One request is on its way to a peer, the only one sent so far. What the nodes keep of operations
and which other messages are under way is left open. -/
structure Started (peers : Finset SocketAddr) (net : Network H) : Prop where
  quiet : ∀ p, (net.nodes p).effects = []
  oneRequest : ∃ origin target msg, target ∈ peers ∧
    net.activities.filter (fun d => d.2.isRequest) = [(target, .arriving (some origin) msg 0)]
  counted : net.requestUpdates = 1

end Network

/-- The nodes of a finite network while they pass on one update request. -/
def network {H : Type} [DecidableEq H] (payloadHash : Bool → List UInt8 → H)
    (peers : Finset SocketAddr) : Machine (Network H) NetworkEvent where
  init := Network.Started peers
  step net e := net.step payloadHash peers e

variable {H : Type} {env : Environment} {op : UpdateOp}

def NoRequests (node : UpdateNode H) : Prop := sentRequests node.effects = []

def RequestsTo (target : Option SocketAddr) (node : UpdateNode H) : Prop :=
  sentRequests node.effects = [] ∨ sentRequests node.effects = target.toList

theorem sentRequests_cons (e : Effect) (es : List Effect) :
    sentRequests (e :: es) = e.requestTarget.toList ++ sentRequests es := by
  unfold sentRequests
  rw [List.filterMap_cons]
  cases e.requestTarget with
  | none => rfl
  | some target => rfl

theorem Effect.requestTarget_of_isNote {e : Effect} (he : e.isNote = true) : e.requestTarget = none := by
  cases e with
  | send target msg stream => exact Bool.noConfusion he
  | _ => rfl

variable (H) in
theorem noRequests_framed : Framed (NoRequests : UpdateNode H → Prop) where
  setEntry _ _ _ hnode := hnode
  setFetches _ _ hnode := hnode
  note node e he hnode := by
    unfold NoRequests
    rw [sentRequests_cons, requestTarget_of_isNote he]
    exact hnode

theorem requestsTo_framed (target : Option SocketAddr) :
    Framed (RequestsTo target : UpdateNode H → Prop) where
  setEntry _ _ _ hnode := hnode
  setFetches _ _ hnode := hnode
  note node e he hnode := by
    unfold RequestsTo
    rw [sentRequests_cons, requestTarget_of_isNote he]
    exact hnode

theorem NoRequests.requestsTo {node : UpdateNode H} (h : NoRequests node)
    (target : Option SocketAddr) : RequestsTo target node := .inl h

theorem noRequests_emit {e : Effect} (he : e.requestTarget = none) :
    Preserves NoRequests (emit e : UpdateTask H Unit) := by
  refine keeps_modify ?_
  intro node hnode
  unfold NoRequests
  rw [sentRequests_cons, he]
  exact hnode

variable {target : Option SocketAddr} {result : Except Get.Stop OperationResult}
  (payloadHash : Bool → List UInt8 → H) (id : Transaction) (source : Option SocketAddr)

theorem noRequests_receivePayload [DecidableEq H] (key : ContractKey) (payload : DeltaOrFullState)
    (sender : SocketAddr) (streamed : Bool) (target : Option SocketAddr) :
    Keeps NoRequests (env.receivePayload op payloadHash key payload sender streamed)
      fun progress => ∀ result, progress = .done result → result.RequestsGoTo target := by
  refine (keeps_modifyGet (P := fun _ => True) ?_).bind ?_
  · intro node hnode
    exact ⟨hnode, trivial⟩
  · intro duplicate _
    cases duplicate with
    | true =>
      refine (noRequests_emit rfl).andThen (keeps_pure ?_)
      intro result hresult
      cases hresult
      trivial
    | false =>
      refine (noRequests_emit rfl).andThen (keeps_pure ?_)
      intro result hresult
      cases hresult

/-- Processing a message sends nothing by itself; its result can only send on the request that the
message is. -/
theorem noRequests_processMessage [DecidableEq H] (msg : UpdateMsg) :
    Keeps NoRequests (env.processMessage op payloadHash source msg)
      fun progress => ∀ result, progress = .done result →
        result.RequestsGoTo (env.forwardTarget (.loaded op source msg)) := by
  have hF := noRequests_framed H
  unfold processMessage
  cases msg with
  | requestUpdate id key relatedContracts value =>
    refine (Framed.keeps_requestUpdate id).bind ?_
    intro result hresult
    refine keeps_pure ?_
    intro result' heq
    cases heq
    exact hresult
  | broadcasting id broadcastedTo broadcastTo key newValue =>
    refine keeps_pure ?_
    intro result heq
    cases heq
    trivial
  | broadcastTo id key payload senderSummaryBytes =>
    cases source with
    | none => exact keeps_throw
    | some sender =>
      exact hF.keeps_updatePeerSummary.andThen
        (noRequests_receivePayload payloadHash key payload sender false _)
  | requestUpdateStreaming id streamId key totalSize =>
    refine (hF.keeps_requestUpdateStreaming (env.forwardTarget
      (.loaded op source (.requestUpdateStreaming id streamId key totalSize)))).bind ?_
    intro result hresult
    refine keeps_pure ?_
    intro result' heq
    cases heq
    exact hresult
  | broadcastToStreaming id streamId key totalSize =>
    cases source with
    | none => exact Framed.keeps_fail
    | some sender =>
      refine hF.keeps_claimStream.bind ?_
      intro bytes _
      cases env.deserializeBroadcast bytes with
      | none => exact Framed.keeps_fail
      | some payload =>
        exact hF.keeps_updatePeerSummary.andThen (noRequests_receivePayload payloadHash key _ sender true _)

theorem noRequests_finishMerge (merge : Merge) :
    Keeps (NoRequests : UpdateNode H → Prop) (env.finishMerge op merge)
      fun result => result.RequestsGoTo none := by
  have hF := noRequests_framed H
  unfold finishMerge
  cases env.updateContract merge.key merge.payload.updateData [] with
  | error failure => exact (noRequests_emit rfl).andThen (hF.keeps_mergeFailed none)
  | ok execution =>
    refine (noRequests_emit rfl).andThen ?_
    exact (hF.keeps_emitIf execution.changed rfl).andThen (keeps_pure trivial)

theorem requestsTo_conclude (htarg : ∀ r, result = .ok r → r.RequestsGoTo target) :
    Leads NoRequests (env.conclude id source result : UpdateTask H Unit) (RequestsTo target) := by
  refine (noRequests_framed H).leads_conclude (fun _ hnode => hnode.requestsTo target)
    (requestsTo_framed target) ?_
  intro r msg addr hr hsends node stream hnode
  have hgo : msg.isRequest = true → some addr = target := by
    cases r with
    | completed | continueOp => exact hsends.elim
    | sendAndContinue | sendAndComplete =>
      obtain ⟨rfl, rfl⟩ := hsends
      exact htarg _ hr
  unfold RequestsTo
  rw [sentRequests_cons, show sentRequests node.effects = [] from hnode]
  unfold requestTarget
  dsimp only
  split_ifs with hreq
  · rw [← hgo hreq]
    exact .inr rfl
  · exact .inl rfl

/-- A node that goes on with an activity sends no request and keeps the activity what it is, or it
ends the activity with at most one request, sent to the peer it forwards to. -/
def Passes (target : Option SocketAddr) (a : Activity) (rest : Option Activity)
    (node : UpdateNode H) : Prop :=
  (NoRequests node ∧ ∀ b, rest = some b → b.isRequest = true → a.isRequest = true) ∨
    (rest = none ∧ RequestsTo target node)

theorem passes_conclude (a : Activity) (htarg : ∀ r, result = .ok r → r.RequestsGoTo target) :
    Triple NoRequests (do env.conclude id source result; pure none : UpdateTask H (Option Activity))
      (fun rest => Passes target a rest) (fun _ => Passes target a none) := by
  exact ((requestsTo_conclude id source htarg).err
    (fun _ _ hnode => .inr ⟨rfl, hnode⟩)).andThen (triple_pure fun node hnode => .inr ⟨rfl, hnode⟩)

theorem passes_advance [DecidableEq H] (a : Activity) :
    Triple NoRequests (env.advance payloadHash a) (fun rest => Passes (env.forwardTarget a) a rest)
      (fun _ => Passes (env.forwardTarget a) a none) := by
  have hF := noRequests_framed H
  cases a with
  | arriving source msg attempts =>
    refine hF.keeps_takeUp.triple.ends ?_ (fun _ node hnode => .inr ⟨rfl, hnode.requestsTo _⟩)
    intro rest node hrest
    refine .inl ⟨hrest.1, ?_⟩
    intro b hb hreq
    rcases hrest.2 b hb with ⟨n, rfl⟩ | ⟨op, rfl⟩
    · exact hreq
    · exact hreq
  | loaded op source msg =>
    refine (noRequests_processMessage payloadHash source msg).attempt_triple.bind ?_
    intro processed
    refine triple_of_fact ?_
    intro hproc
    cases processed with
    | error stop => exact passes_conclude msg.id source _ (by simp)
    | ok progress =>
      cases progress with
      | merging merge =>
        refine triple_pure ?_
        intro node hnode
        refine .inl ⟨hnode, ?_⟩
        intro b hb hreq
        cases hb
        exact Bool.noConfusion hreq
      | done result =>
        refine passes_conclude msg.id source _ ?_
        intro r hr
        cases hr
        exact hproc _ rfl result rfl
  | merging op source merge =>
    refine (noRequests_finishMerge merge).attempt_triple.bind ?_
    intro merged
    refine triple_of_fact ?_
    intro hmerg
    exact passes_conclude op.id source _ hmerg

/-! An update request that goes to closer peers only is in one place at a time. -/
open Finset List

section Bounded
variable {H : Type} {D : Type} [LinearOrder D] (dist : SocketAddr → D)

/-- A request that is sent on goes to a peer that is closer than the node that sends it. -/
def NetworkEvent.ForwardsCloser (net : Network H) : NetworkEvent → Prop
  | .advance i env => ∀ p a, net.activities[i]? = some (p, a) →
      ∀ addr, env.forwardTarget a = some addr → dist addr < dist p
  | _ => True

/-- The request is in one place at most, and every request that was sent before went to a peer at
least as far away. -/
structure Network.Approaching (peers : Finset SocketAddr) (net : Network H) : Prop where
  quiet : ∀ p, (net.nodes p).effects = []
  single : net.activities.countP (fun d => d.2.isRequest) ≤ 1
  behind : ∀ d ∈ net.activities, d.2.isRequest = true →
    net.requestUpdates ≤ (peers.filter fun q => dist d.1 ≤ dist q).card
  bounded : net.requestUpdates ≤ peers.card

variable {effects : List Effect} {addr : SocketAddr} (p : SocketAddr)

theorem countP_delivery (effects : List Effect) :
    (effects.filterMap (delivery p)).countP (fun d => d.2.isRequest) = (sentRequests effects).length := by
  induction effects with
  | nil => rfl
  | cons e es ih =>
    rw [sentRequests_cons, length_append, ← ih]
    cases e with
    | send target msg stream =>
      cases hmsg : msg.isRequest with
      | true => simp [delivery, requestTarget, Activity.isRequest, hmsg, Nat.add_comm]
      | false => simp [delivery, requestTarget, Activity.isRequest, hmsg]
    | _ => exact (Nat.zero_add _).symm

theorem sentRequests_reverse (effects : List Effect) :
    sentRequests effects.reverse = (sentRequests effects).reverse :=
  filterMap_reverse

theorem mem_sentRequests_of_delivery {p : SocketAddr} {d : SocketAddr × Activity}
    (hd : d ∈ effects.filterMap (delivery p)) (hreq : d.2.isRequest = true) :
    d.1 ∈ sentRequests effects := by
  obtain ⟨e, he, hdeliv⟩ := mem_filterMap.mp hd
  refine mem_filterMap.mpr ⟨e, he, ?_⟩
  cases e with
  | send target msg stream =>
    cases hdeliv
    exact if_pos hreq
  | _ => cases hdeliv

theorem exists_delivery_of_mem_sentRequests (h : addr ∈ sentRequests effects) :
    ∃ d ∈ effects.filterMap (delivery p), d.1 = addr := by
  obtain ⟨e, he, htarg⟩ := mem_filterMap.mp h
  cases e with
  | send target msg stream =>
    unfold requestTarget at htarg
    dsimp only at htarg
    split_ifs at htarg
    cases htarg
    exact ⟨_, mem_filterMap.mpr ⟨_, he, rfl⟩, rfl⟩
  | _ => cases htarg

theorem card_behind_lt {peers : Finset SocketAddr} {p q : SocketAddr} (hq : q ∈ peers)
    (hlt : dist q < dist p) : (peers.filter fun r => dist p ≤ dist r).card <
      (peers.filter fun r => dist q ≤ dist r).card := by
  refine card_lt_card ?_
  refine ssubset_iff_of_subset ?_ |>.mpr ⟨q, ?_, ?_⟩
  · intro r hr
    obtain ⟨hmem, hle⟩ := mem_filter.mp hr
    exact mem_filter.mpr ⟨hmem, hlt.le.trans hle⟩
  · exact mem_filter.mpr ⟨hq, le_rfl⟩
  · intro hmem
    exact absurd (mem_filter.mp hmem).2 (not_le_of_gt hlt)

namespace Network
variable {dist} {peers : Finset SocketAddr} {net : Network H} {d : SocketAddr × Activity}

theorem countP_eraseIdx {i : Nat} (hi : net.activities[i]? = some d) :
    net.activities.countP (fun d => d.2.isRequest) =
      (net.activities.eraseIdx i).countP (fun d => d.2.isRequest) +
        if d.2.isRequest = true then 1 else 0 := by
  obtain ⟨hlt, rfl⟩ := List.getElem?_eq_some_iff.mp hi
  rw [← (List.getElem_cons_eraseIdx_perm hlt).countP_eq, List.countP_cons]

theorem Approaching.of_activities {activities : List (SocketAddr × Activity)}
    (hnet : net.Approaching dist peers)
    (hcount : activities.countP (fun d => d.2.isRequest) ≤ net.activities.countP (fun d => d.2.isRequest))
    (hmem : ∀ d ∈ activities, d.2.isRequest = true →
      ∃ d' ∈ net.activities, d'.2.isRequest = true ∧ d'.1 = d.1) :
    ({ net with activities := activities }).Approaching dist peers where
  quiet := hnet.quiet
  single := hcount.trans hnet.single
  behind d hd hreq := by
    obtain ⟨d', hd', hreq', heq⟩ := hmem d hd hreq
    have hbehind := hnet.behind d' hd' hreq'
    rw [heq] at hbehind
    exact hbehind
  bounded := hnet.bounded

variable {node : UpdateNode H} {p}

theorem Approaching.setNode (hnet : net.Approaching dist peers) (hnode : node.effects = []) :
    (net.setNode p node).Approaching dist peers where
  quiet q := by
    by_cases hq : q = p
    · subst hq
      simpa [Network.setNode] using hnode
    · simpa [Network.setNode, hq] using hnet.quiet q
  single := hnet.single
  behind := hnet.behind
  bounded := hnet.bounded

theorem Approaching.replace (hnet : net.Approaching dist peers) {i : Nat} {a : Activity}
    (rest : Option Activity) (hi : net.activities[i]? = some (p, a))
    (hrest : ∀ b, rest = some b → b.isRequest = true → a.isRequest = true) :
    ({ net with activities := net.activities.eraseIdx i ++
      (rest.map fun b => (p, b)).toList }).Approaching dist peers := by
  have hcount := countP_eraseIdx hi
  have hmem : (p, a) ∈ net.activities := mem_of_getElem? hi
  refine hnet.of_activities ?_ ?_
  · rw [countP_append, hcount]
    refine Nat.add_le_add_left ?_ _
    cases rest with
    | none => exact Nat.zero_le _
    | some b =>
      cases hb : b.isRequest with
      | false => simp [hb]
      | true => simp [hb, hrest b rfl hb]
  · intro d hd hreq
    rcases mem_append.mp hd with hold | hnew
    · exact ⟨d, mem_of_mem_eraseIdx hold, hreq, rfl⟩
    · obtain ⟨b, hb, rfl⟩ := Option.map_eq_some_iff.mp (Option.mem_toList.mp hnew)
      exact ⟨(p, a), hmem, hrest b hb hreq, rfl⟩

theorem effects_deliver (hquiet : ∀ q, (net.nodes q).effects = []) (p : SocketAddr)
    (node : UpdateNode H) (q : SocketAddr) : ((net.deliver p node).nodes q).effects = [] := by
  by_cases hq : q = p
  · subst hq
    simp [deliver]
  · simpa [deliver, hq] using hquiet q

theorem countP_deliver (p : SocketAddr) (node : UpdateNode H) :
    (net.deliver p node).activities.countP (fun d => d.2.isRequest) =
      net.activities.countP (fun d => d.2.isRequest) + (sentRequests node.effects).length := by
  show (net.activities ++ _).countP _ = _
  rw [countP_append, countP_delivery, sentRequests_reverse, length_reverse]

theorem request_of_mem_deliver (hd : d ∈ (net.deliver p node).activities)
    (hreq : d.2.isRequest = true) : d ∈ net.activities ∨ d.1 ∈ sentRequests node.effects := by
  rcases mem_append.mp hd with hold | hnew
  · exact .inl hold
  · have hmem := mem_sentRequests_of_delivery hnew hreq
    rw [sentRequests_reverse] at hmem
    exact .inr (mem_reverse.mp hmem)

theorem Approaching.deliver_quiet (hnet : net.Approaching dist peers) (hnode : NoRequests node) :
    (net.deliver p node).Approaching dist peers := by
  have hsent : sentRequests node.effects = [] := hnode
  have hupds : (net.deliver p node).requestUpdates = net.requestUpdates := by
    show net.requestUpdates + (sentRequests node.effects).length = net.requestUpdates
    rw [hsent]
    rfl
  constructor
  · exact effects_deliver hnet.quiet p node
  · rw [countP_deliver, hsent]
    exact hnet.single
  · intro d hd hreq
    rw [hupds]
    rcases request_of_mem_deliver hd hreq with hold | hnew
    · exact hnet.behind d hold hreq
    · rw [hsent] at hnew
      exact absurd hnew not_mem_nil
  · rw [hupds]
    exact hnet.bounded

theorem approaching_deliver_closer (hquiet : ∀ q, (net.nodes q).effects = [])
    (hnone : net.activities.countP (fun d => d.2.isRequest) = 0) {p addr : SocketAddr}
    (hsent : sentRequests node.effects = [addr]) (haddr : addr ∈ peers) (hlt : dist addr < dist p)
    (hbehind : net.requestUpdates ≤ (peers.filter fun q => dist p ≤ dist q).card) :
    (net.deliver p node).Approaching dist peers := by
  have hupds : (net.deliver p node).requestUpdates = net.requestUpdates + 1 := by
    show net.requestUpdates + (sentRequests node.effects).length = net.requestUpdates + 1
    rw [hsent]
    rfl
  have hcard := card_behind_lt dist haddr hlt
  have hfilt := card_filter_le peers fun q => dist addr ≤ dist q
  constructor
  · exact effects_deliver hquiet p node
  · rw [countP_deliver, hsent, hnone]
    exact le_rfl
  · intro d hd hreq
    rcases request_of_mem_deliver hd hreq with hold | hnew
    · exact absurd hreq (by simpa using countP_eq_zero.mp hnone d hold)
    · rw [hsent] at hnew
      rw [List.mem_singleton.mp hnew]
      omega
  · omega

end Network

theorem Environment.isRequest_of_forwardTarget {env : Environment} {a : Activity}
    (h : env.forwardTarget a = some addr) : a.isRequest = true := by
  unfold forwardTarget at h
  split at h
  · rfl
  · cases h

namespace Network
variable {dist} {peers : Finset SocketAddr} {net : Network H} [DecidableEq H]
  {payloadHash : Bool → List UInt8 → H} {net' : Network H}

theorem approaching_advance (hnet : net.Approaching dist peers) {i : Nat} {env : Environment}
    (hclos : (NetworkEvent.advance i env).ForwardsCloser dist net)
    (hstep : net.step payloadHash peers (.advance i env) = some net') :
    net'.Approaching dist peers := by
  unfold step at hstep
  dsimp only at hstep
  cases hi : net.activities[i]? with
  | none =>
    rw [hi] at hstep
    cases hstep
  | some d =>
    obtain ⟨p, a⟩ := d
    rw [hi] at hstep
    dsimp only at hstep
    split_ifs at hstep with hguard
    cases hstep
    have hquiet : NoRequests (net.nodes p) := by
      unfold NoRequests
      rw [hnet.quiet p]
      rfl
    have hpass : Passes (env.forwardTarget a) a (env.afterAdvance payloadHash a (net.nodes p)).1
        (env.afterAdvance payloadHash a (net.nodes p)).2 :=
      afterAdvance_of_triple (passes_advance payloadHash a) hquiet
    generalize env.afterAdvance payloadHash a (net.nodes p) = after at hpass hguard
    obtain ⟨rest, node⟩ := after
    rcases hpass with ⟨hnone, hrest⟩ | ⟨rfl, hsent⟩
    · exact (hnet.replace rest hi hrest).deliver_quiet hnone
    · have heras := hnet.replace none hi (by simp)
      rcases hsent with hnone | hsent
      · exact heras.deliver_quiet hnone
      · cases htarg : env.forwardTarget a with
        | none =>
          rw [htarg] at hsent
          exact heras.deliver_quiet hsent
        | some addr =>
          rw [htarg] at hsent
          have hreq := isRequest_of_forwardTarget htarg
          -- the request that is forwarded was the only one
          have hcount := countP_eraseIdx hi
          rw [if_pos hreq] at hcount
          have hsingle := hnet.single
          refine approaching_deliver_closer heras.quiet ?_ hsent ?_ (hclos p a hi addr htarg)
            (hnet.behind (p, a) (mem_of_getElem? hi) hreq)
          · rw [countP_append]
            show _ + 0 = 0
            omega
          · have haddr : addr ∈ sentRequests node.effects := by
              rw [hsent]
              exact List.mem_singleton_self addr
            obtain ⟨d, hd, rfl⟩ := exists_delivery_of_mem_sentRequests p haddr
            simpa using all_eq_true.mp hguard.2 d hd

omit [DecidableEq H] in
theorem approaching_connectionLost (hnet : net.Approaching dist peers) (p : SocketAddr)
    (id : Transaction) (env : Environment) :
    (net.deliver p (Task.finalState (env.handleAbortedOp id) (net.nodes p))).Approaching dist peers := by
  have hF := noRequests_framed H
  have hpop : Task.Preserves NoRequests (modifyGet fun node => node.pop env id :
        UpdateTask H (Except OpNotAvailable (Option UpdateOp))) := by
    refine Task.keeps_modifyGet ?_
    intro node hnode
    exact ⟨hF.setEntry node id _ hnode, trivial⟩
  have habort : Task.Preserves NoRequests (env.handleAbortedOp id : UpdateTask H Unit) := by
    refine hpop.bind ?_
    intro popped _
    split
    · exact (hF.keeps_emit rfl).andThen hF.keeps_complete
    · exact Task.keeps_done
  have hquiet : NoRequests (net.nodes p) := by
    unfold NoRequests
    rw [hnet.quiet p]
    rfl
  exact hnet.deliver_quiet (habort.finalState hquiet)

theorem approaching_step (hnet : net.Approaching dist peers) {e : NetworkEvent}
    (hclos : e.ForwardsCloser dist net)
    (hstep : net.step payloadHash peers e = some net') : net'.Approaching dist peers := by
  cases e with
  | advance i env => exact approaching_advance hnet hclos hstep
  | lose i =>
    cases hstep
    refine hnet.of_activities ?_ ?_
    · exact (eraseIdx_sublist net.activities i).countP_le
    · intro d hd hreq
      exact ⟨d, mem_of_mem_eraseIdx hd, hreq, rfl⟩
  | broadcast p source msg =>
    unfold step at hstep
    dsimp only at hstep
    split_ifs at hstep with hreq
    cases hstep
    have hnot : (Activity.arriving (some source) msg 0).isRequest = false := by
      simpa [Activity.isRequest] using hreq
    refine hnet.of_activities ?_ ?_
    · simp [hnot]
    · intro d hd hreq
      rcases mem_append.mp hd with hold | hnew
      · exact ⟨d, hold, hreq, rfl⟩
      · rw [List.mem_singleton.mp hnew, hnot] at hreq
        exact Bool.noConfusion hreq
  | connectionLost p id env =>
    cases hstep
    exact approaching_connectionLost hnet p id env
  | receiveNew p id | cleanup p id elapsed tie cutoffTie =>
    cases hstep
    exact hnet.setNode (hnet.quiet p)

omit [DecidableEq H] in
theorem Started.approaching (hstart : net.Started peers) : net.Approaching dist peers := by
  obtain ⟨origin, target, msg, htarg, hactiv⟩ := hstart.oneRequest
  have hpos : 1 ≤ (peers.filter fun q => dist target ≤ dist q).card := by
    refine card_pos.mpr ⟨target, ?_⟩
    exact mem_filter.mpr ⟨htarg, le_rfl⟩
  have hfilt := card_filter_le peers fun q => dist target ≤ dist q
  constructor
  · exact hstart.quiet
  · rw [countP_eq_length_filter, hactiv]
    exact le_rfl
  · intro d hd hreq
    have hmem : d ∈ net.activities.filter fun d => d.2.isRequest :=
      mem_filter.mpr ⟨hd, hreq⟩
    rw [hactiv] at hmem
    rw [hstart.counted, List.mem_singleton.mp hmem]
    exact hpos
  · rw [hstart.counted]
    omega

end Network
end Bounded

end Freenet.Operations.Update
