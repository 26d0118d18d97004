import Freenet.Operations.UpdateMessages

/-! Every entry of the duplicate cache belongs to a merge that is under way or has ended. -/
namespace Freenet.Operations.Update
open Lib.Task Node Contract List

section Invariant
variable {H : Type} (payloadHash : Bool → List UInt8 → H)

def DeltaOrFullState.hash (payload : DeltaOrFullState) : H := payloadHash payload.isDelta payload.bytes

/-- Two payloads of one hash are the same. -/
abbrev HashInjective : Prop :=
  Function.Injective fun payload : DeltaOrFullState => payload.hash payloadHash

def Attempted (pending : List Activity) (effects : List Effect) (key : ContractKey)
    (payload : DeltaOrFullState) (startedAt : Nat) : Prop :=
  (∃ applied, Effect.mergeEnded key payload startedAt applied ∈ effects) ∨
    ∃ a ∈ pending, a.Merges key payload startedAt

/-- What the duplicate cache and the account of merges say about the payloads seen so far. -/
structure Tracked (clock : Nat) (pending : List Activity) (node : UpdateNode H) : Prop where
  attempted : ∀ key, ∀ entry ∈ node.broadcastDedupCache key, ∃ payload : DeltaOrFullState,
    payload.hash payloadHash = entry.deltaHash ∧ Attempted pending node.effects key payload entry.insertedAt
  ordered : ∀ key, CacheOrdered (node.broadcastDedupCache key)
  past : ∀ key, ∀ entry ∈ node.broadcastDedupCache key, entry.insertedAt ≤ clock
  skips : SkipsOnlyMerged node.effects

variable {payloadHash} {clock : Nat} {pending : List Activity} {node : UpdateNode H} {a : Activity}
  {pending' : List Activity} {key : ContractKey}

theorem Attempted.mono {pending pending' : List Activity} {effects effects' : List Effect}
    {payload : DeltaOrFullState} {t : Nat} (h : Attempted pending effects key payload t)
    (hpend : ∀ a ∈ pending, a ∈ pending') (heffects : ∀ e ∈ effects, e ∈ effects') :
    Attempted pending' effects' key payload t := by
  rcases h with ⟨applied, hmem⟩ | ⟨a, ha, hmerg⟩
  · exact .inl ⟨applied, heffects _ hmem⟩
  · exact .inr ⟨a, hpend a ha, hmerg⟩

variable {effects : List Effect}

theorem skipsOnlyMerged_cons {e : Effect} (h : SkipsOnlyMerged effects)
    (he : ∀ key payload, e = .duplicateSkipped key payload → MergedBefore key payload effects) :
    SkipsOnlyMerged (e :: effects) := by
  intro newer key payload older heq
  cases newer with
  | nil =>
    cases heq
    exact he key payload rfl
  | cons _ newer =>
    cases heq
    exact h newer key payload older rfl

section
variable (hnode : Tracked payloadHash clock pending node)
include hnode

theorem Tracked.of_attempted
    (h : ∀ key payload t, Attempted pending node.effects key payload t →
      Attempted pending' effects key payload t)
    (hskips : SkipsOnlyMerged effects) :
    Tracked payloadHash clock pending' { node with effects := effects } where
  attempted key entry hentry := by
    obtain ⟨payload, hhash, hatt⟩ := hnode.attempted key entry hentry
    exact ⟨payload, hhash, h key payload _ hatt⟩
  ordered := hnode.ordered
  past := hnode.past
  skips := hskips

/-- An effect changes nothing in what is known, if a payload that it skips was merged before. -/
theorem Tracked.emit {e : Effect}
    (he : ∀ key payload, e = .duplicateSkipped key payload → MergedBefore key payload node.effects) :
    Tracked payloadHash clock pending { node with effects := e :: node.effects } := by
  refine hnode.of_attempted ?_ (skipsOnlyMerged_cons hnode.skips he)
  intro key payload t h
  exact h.mono (fun _ ha => ha) fun _ => mem_cons_of_mem e

omit hnode in
theorem Tracked.framed : Framed (Tracked payloadHash clock pending) where
  setEntry _ _ _ hnode := { hnode with }
  setFetches _ _ hnode := { hnode with }
  note _ e he hnode := by
    refine hnode.emit ?_
    rintro key payload rfl
    exact Bool.noConfusion he

theorem Tracked.mono {clock' : Nat}
    (hclock : clock ≤ clock') (hpend : ∀ a ∈ pending, a ∈ pending') :
    Tracked payloadHash clock' pending' node where
  attempted key entry hentry := by
    obtain ⟨payload, hhash, hatt⟩ := hnode.attempted key entry hentry
    exact ⟨payload, hhash, hatt.mono hpend fun _ he => he⟩
  ordered := hnode.ordered
  past key entry hentry := Nat.le_trans (hnode.past key entry hentry) hclock
  skips := hnode.skips

end

theorem Tracked.drop (hnode : Tracked payloadHash clock (a :: pending) node)
    (ha : ∀ key payload t, ¬ a.Merges key payload t) : Tracked payloadHash clock pending node := by
  refine hnode.of_attempted ?_ hnode.skips
  rintro key payload t (hended | ⟨b, hb, hmerg⟩)
  · exact .inl hended
  · rcases mem_cons.mp hb with rfl | hmem
    · exact absurd hmerg (ha key payload _)
    · exact .inr ⟨b, hmem, hmerg⟩

theorem Tracked.mergeEnded {op : UpdateOp} {source : Option SocketAddr} {merge : Merge}
    (hnode : Tracked payloadHash clock (.merging op source merge :: pending) node)
    (applied : Bool) :
    Tracked payloadHash clock pending { node with
      effects := .mergeEnded merge.key merge.payload merge.startedAt applied :: node.effects } := by
  refine hnode.of_attempted ?_ (skipsOnlyMerged_cons hnode.skips fun _ _ heq => Effect.noConfusion heq)
  rintro key payload t (⟨applied', hended⟩ | ⟨b, hb, hmerg⟩)
  · exact .inl ⟨applied', mem_cons_of_mem _ hended⟩
  · rcases mem_cons.mp hb with rfl | hmem
    · obtain ⟨rfl, rfl, rfl⟩ := hmerg
      exact .inl ⟨applied, mem_cons_self⟩
    · exact .inr ⟨b, hmem, hmerg⟩

/-- The node with another queue of seen payloads for one contract. -/
def UpdateNode.setQueue (node : UpdateNode H) (key : ContractKey) (queue : List (DedupEntry H)) :
    UpdateNode H :=
  { node with broadcastDedupCache := Function.update node.broadcastDedupCache key queue }

theorem Tracked.setQueue (hnode : Tracked payloadHash clock pending node) {queue : List (DedupEntry H)}
    (hatt : ∀ entry ∈ queue, ∃ payload : DeltaOrFullState,
      payload.hash payloadHash = entry.deltaHash ∧
        Attempted pending node.effects key payload entry.insertedAt)
    (horder : CacheOrdered queue) (hpast : ∀ entry ∈ queue, entry.insertedAt ≤ clock) :
    Tracked payloadHash clock pending (node.setQueue key queue) := by
  have hqueue : ∀ key', (node.setQueue key queue).broadcastDedupCache key' =
      if key' = key then queue else node.broadcastDedupCache key' := by
    intro key'
    exact Function.update_apply node.broadcastDedupCache key queue key'
  constructor
  · intro key' entry hentry
    rw [hqueue] at hentry
    split_ifs at hentry with hkey
    · subst hkey
      exact hatt entry hentry
    · exact hnode.attempted key' entry hentry
  · intro key'
    rw [hqueue]
    split_ifs
    · exact horder
    · exact hnode.ordered key'
  · intro key' entry hentry
    rw [hqueue] at hentry
    split_ifs at hentry
    · exact hpast entry hentry
    · exact hnode.past key' entry hentry
  · exact hnode.skips

variable [DecidableEq H] {payload : DeltaOrFullState} {now : Nat}

/-- A payload that is found in the cache was merged, in an attempt after every failed one. -/
theorem Tracked.merged_of_duplicate (hinj : HashInjective payloadHash)
    (hnode : Tracked payloadHash clock pending node)
    (hopen : NoOpenMerge now pending key payload node.effects)
    (hdupl : (checkAndInsert (node.broadcastDedupCache key) (payload.hash payloadHash) now).1 =
      true) : MergedBefore key payload node.effects := by
  obtain ⟨entry, hentry, hhash, hyoung⟩ := young_hit_of_duplicate (hnode.ordered key) hdupl
  obtain ⟨payload', hhash', hatt⟩ := hnode.attempted key entry hentry
  have hpayl : payload' = payload := hinj (hhash'.trans hhash)
  subst hpayl
  rcases hatt with ⟨applied, hended⟩ | ⟨a, ha, hmerg⟩
  · cases applied with
    | false =>
      have hold := hopen.2 _ hended
      omega
    | true =>
      refine ⟨_, hended, ?_⟩
      intro t' hfail
      have hold := hopen.2 t' hfail
      omega
  · have hold := hopen.1 a ha _ hmerg
    omega

/-- The cache after a payload was looked up, and put in if it was new. -/
theorem Tracked.checked (hnode : Tracked payloadHash clock pending node) (hclock : clock ≤ now)
    (hpend : ∀ a ∈ pending, a ∈ pending')
    (hnew : (checkAndInsert (node.broadcastDedupCache key) (payload.hash payloadHash) now).1 = false →
      Attempted pending' node.effects key payload now) :
    Tracked payloadHash now pending' (node.setQueue key
      (checkAndInsert (node.broadcastDedupCache key) (payload.hash payloadHash) now).2) := by
  have hlater := hnode.mono hclock hpend
  refine hlater.setQueue ?_ ?_ ?_
  · intro entry hentry
    rcases mem_of_mem_checkAndInsert hentry with hold | ⟨hfresh, rfl⟩
    · exact hlater.attempted key entry hold
    · exact ⟨payload, rfl, hnew hfresh⟩
  · exact cacheOrdered_checkAndInsert (hnode.ordered key) (hlater.past key)
  · intro entry hentry
    rcases mem_of_mem_checkAndInsert hentry with hold | ⟨_, rfl⟩
    · exact hlater.past key entry hold
    · exact Nat.le_refl now

/-- What is looked up in the cache when a message is processed has no open merge. -/
def ReadyFor (payloadHash : Bool → List UInt8 → H) (env : Environment) (pending : List Activity)
    (a : Activity) (node : UpdateNode H) : Prop :=
  Tracked payloadHash env.interestNow pending node ∧
    ∀ key payload, env.receivedPayload a = some (key, payload) →
      NoOpenMerge env.interestNow pending key payload node.effects

def AfterProcessing (payloadHash : Bool → List UInt8 → H) (now : Nat) (pending : List Activity)
    (op : UpdateOp) (source : Option SocketAddr) : Progress → UpdateNode H → Prop
  | .done _ => Tracked payloadHash now pending
  | .merging merge => Tracked payloadHash now (.merging op source merge :: pending)

omit [DecidableEq H] in
theorem ReadyFor.framed {env : Environment} {a : Activity} :
    Framed (ReadyFor payloadHash env pending a) where
  setEntry _ _ _ hnode := ⟨Tracked.framed.setEntry _ _ _ hnode.1, hnode.2⟩
  setFetches _ _ hnode := ⟨Tracked.framed.setFetches _ _ hnode.1, hnode.2⟩
  note _ e he hnode := by
    refine ⟨Tracked.framed.note _ e he hnode.1, ?_⟩
    intro key payload hpayl
    have hopen := hnode.2 key payload hpayl
    refine ⟨hopen.1, ?_⟩
    intro t hmem
    rcases mem_cons.mp hmem with rfl | hmem
    · exact Bool.noConfusion he
    · exact hopen.2 t hmem

variable {env : Environment} {op : UpdateOp} {source : Option SocketAddr}

/-- A task that processes the message of an activity, with the merges accounted for if it fails. -/
abbrev Processes (payloadHash : Bool → List UInt8 → H) (env : Environment) (pending : List Activity)
    (op : UpdateOp) (source : Option SocketAddr) (a : Activity) (m : UpdateTask H Progress) : Prop :=
  Triple (ReadyFor payloadHash env pending a) m
    (AfterProcessing payloadHash env.interestNow pending op source)
    (fun _ => Tracked payloadHash env.interestNow pending)

theorem processes_receivePayload (hinj : HashInjective payloadHash) (sender : SocketAddr)
    (streamed : Bool) (hpayl : env.receivedPayload a = some (key, payload)) :
    Processes payloadHash env pending op source a
      (env.receivePayload op payloadHash key payload sender streamed) := by
  let merge : Merge := ⟨key, payload, sender, streamed, env.interestNow⟩
  let Err (_ : Get.Stop) := Tracked payloadHash env.interestNow pending
  have hcheck : Triple (ReadyFor payloadHash env pending a)
      (modifyGet fun node =>
        ((checkAndInsert (node.broadcastDedupCache key) (payload.hash payloadHash)
          env.interestNow).1, node.setQueue key (checkAndInsert (node.broadcastDedupCache key)
            (payload.hash payloadHash) env.interestNow).2) : UpdateTask H Bool)
      (fun duplicate node => if duplicate then
          Tracked payloadHash env.interestNow pending node ∧ MergedBefore key payload node.effects
        else Tracked payloadHash env.interestNow (.merging op source merge :: pending) node)
      Err := by
    refine triple_modifyGet ?_
    intro node hnode
    split_ifs with hdupl
    · have hmerged := hnode.1.merged_of_duplicate hinj (hnode.2 key payload hpayl) hdupl
      refine ⟨hnode.1.checked (Nat.le_refl _) (fun _ ha => ha) ?_, hmerged⟩
      intro hfresh
      rw [hdupl] at hfresh
      cases hfresh
    · refine hnode.1.checked (Nat.le_refl _) (fun _ ha => mem_cons_of_mem _ ha) ?_
      intro _
      exact .inr ⟨_, mem_cons_self, rfl, rfl, rfl⟩
  have hskip : Triple (fun node => Tracked payloadHash env.interestNow pending node ∧
      MergedBefore key payload node.effects)
      (emit (.duplicateSkipped key payload) : UpdateTask H Unit)
      (fun _ => Tracked payloadHash env.interestNow pending) Err := by
    refine triple_modify ?_
    intro node hnode
    refine hnode.1.emit ?_
    intro key' payload' heq
    cases heq
    exact hnode.2
  have hstart : Triple (Tracked payloadHash env.interestNow (.merging op source merge :: pending))
      (emit (.mergeStarted key payload env.interestNow) : UpdateTask H Unit)
      (fun _ => Tracked payloadHash env.interestNow (.merging op source merge :: pending)) Err := by
    refine triple_modify ?_
    intro node hnode
    exact hnode.emit fun _ _ heq => Effect.noConfusion heq
  refine hcheck.bind ?_
  intro duplicate
  cases duplicate with
  | true => exact hskip.andThen (triple_pure fun _ hnode => hnode)
  | false => exact hstart.andThen (triple_pure fun _ hnode => hnode)

omit [DecidableEq H] in
theorem processes_of_keeps {a : Activity} {m : UpdateTask H OperationResult}
    {P : OperationResult → Prop}
    (h : Keeps (Tracked payloadHash env.interestNow pending) m P) :
    Processes payloadHash env pending op source a (do let result ← m; pure (.done result)) := by
  have hm : Leads (ReadyFor payloadHash env pending a) m (Tracked payloadHash env.interestNow pending) :=
    h.triple.weaken (fun _ hnode => hnode.1) (fun _ _ hnode => hnode.1) (fun _ _ hnode => hnode)
  refine hm.bind ?_
  intro result
  exact triple_pure fun _ hnode => hnode

theorem processes_broadcast (hinj : HashInjective payloadHash) (sender : SocketAddr)
    (streamed : Bool) (hpayl : env.receivedPayload a = some (key, payload))
    (summary : Option (List UInt8)) :
    Processes payloadHash env pending op source a
      (do env.updatePeerSummary key sender summary
          env.receivePayload op payloadHash key payload sender streamed) := by
  exact (ReadyFor.framed.keeps_updatePeerSummary.triple.weaken
    (fun _ hnode => hnode) (fun _ _ hnode => hnode.1) (fun _ _ hnode => hnode.1)).andThen
    (processes_receivePayload hinj sender streamed hpayl)

theorem processes_processMessage (hinj : HashInjective payloadHash) (msg : UpdateMsg) :
    Processes payloadHash env pending op source (.loaded op source msg)
      (env.processMessage op payloadHash source msg) := by
  have hF : Framed (Tracked payloadHash env.interestNow pending) := Tracked.framed
  cases msg with
  | requestUpdate id key relatedContracts value =>
    exact processes_of_keeps (Framed.keeps_requestUpdate id)
  | broadcasting id broadcastedTo broadcastTo key newValue =>
    exact triple_pure fun _ hnode => hnode.1
  | requestUpdateStreaming id streamId key totalSize =>
    exact processes_of_keeps (hF.keeps_requestUpdateStreaming none)
  | broadcastTo id key payload senderSummaryBytes =>
    cases source with
    | none => exact triple_throw fun _ hnode => hnode.1
    | some sender =>
      exact processes_broadcast hinj sender false rfl _
  | broadcastToStreaming id streamId key totalSize =>
    cases source with
    | none => exact triple_throw fun _ hnode => hnode.1
    | some sender =>
      refine (ReadyFor.framed.keeps_claimStream.triple.err (fun _ _ hnode => hnode.1)).bind ?_
      intro bytes
      refine triple_of_fact ?_
      intro hbytes
      cases hbroadc : env.deserializeBroadcast bytes with
      | none => exact triple_throw fun _ hnode => hnode.1
      | some payload =>
        refine processes_broadcast hinj sender true ?_ _
        unfold Environment.receivedPayload
        dsimp only
        rw [hbytes]
        dsimp only
        rw [hbroadc]
        rfl

/-- A task that leaves some of the activities accounted for. -/
abbrev Accounts (payloadHash : Bool → List UInt8 → H) (env : Environment) {α : Type}
    (before after : List Activity) (m : UpdateTask H α) : Prop :=
  Leads (Tracked payloadHash env.interestNow before) m (Tracked payloadHash env.interestNow after)

omit [DecidableEq H] in
theorem tracked_conclude (id : Transaction) (source : Option SocketAddr)
    (result : Except Get.Stop OperationResult) :
    Triple (Tracked payloadHash env.interestNow pending)
      (do env.conclude id source result; pure none : UpdateTask H (Option Activity))
      (fun rest => Tracked payloadHash env.interestNow (rest.toList ++ pending))
      (fun _ => Tracked payloadHash env.interestNow pending) := by
  have hF : Framed (Tracked payloadHash env.interestNow pending) := Tracked.framed
  refine (hF.leads_conclude (fun _ hnode => hnode) hF ?_).andThen (triple_pure fun _ hnode => hnode)
  exact fun _ msg addr _ _ node stream hnode => hnode.emit fun _ _ heq => Effect.noConfusion heq

omit [DecidableEq H] in
theorem tracked_finishMerge (merge : Merge) :
    Accounts payloadHash env (.merging op source merge :: pending) pending (env.finishMerge op merge) := by
  have hF : Framed (Tracked payloadHash env.interestNow pending) := Tracked.framed
  have hended : ∀ applied,
      Accounts payloadHash env (.merging op source merge :: pending) pending
        (emit (.mergeEnded merge.key merge.payload merge.startedAt applied)) := by
    intro applied
    exact triple_modify fun node hnode => hnode.mergeEnded applied
  unfold Environment.finishMerge
  cases env.updateContract merge.key merge.payload.updateData [] with
  | error failure =>
    exact (hended false).andThen (hF.keeps_mergeFailed none).triple_inv
  | ok execution =>
    have hsumm := (hF.keeps_emitIf execution.changed (e := .proactiveSummary merge.key
      merge.sender execution.summary) rfl).andThen (keeps_done (a := op.broadcastDone))
    exact (hended true).andThen hsumm.triple_inv

/-- An activity may be taken up: its own merge is accounted for, and no other of what it brings is
open. -/
abbrev ReadyToAdvance (payloadHash : Bool → List UInt8 → H) (env : Environment)
    (pending : List Activity) (a : Activity) (node : UpdateNode H) : Prop :=
  Tracked payloadHash env.interestNow (a :: pending) node ∧
    ∀ key payload, env.receivedPayload a = some (key, payload) →
      NoOpenMerge env.interestNow pending key payload node.effects

theorem tracked_advance (hinj : HashInjective payloadHash) (a : Activity) :
    Triple (ReadyToAdvance payloadHash env pending a) (env.advance payloadHash a)
      (fun rest => Tracked payloadHash env.interestNow (rest.toList ++ pending))
      (fun _ => Tracked payloadHash env.interestNow pending) := by
  have hF : Framed (Tracked payloadHash env.interestNow pending) := Tracked.framed
  cases a with
  | arriving source msg attempts =>
    refine hF.keeps_takeUp.triple.weaken ?_ ?_ (fun _ _ hnode => hnode)
    · intro node hnode
      exact hnode.1.drop fun _ _ _ h => h
    · intro rest node hnode
      exact hnode.1.mono (Nat.le_refl _) fun _ hmem => mem_append_right _ hmem
  | loaded op source msg =>
    refine ((processes_processMessage hinj msg).of_pre
      fun node hnode => ⟨hnode.1.drop fun _ _ _ h => h, hnode.2⟩).attempt.bind ?_
    intro processed
    cases processed with
    | error stop => exact tracked_conclude msg.id source _
    | ok progress =>
      cases progress with
      | merging merge => exact triple_pure fun _ hnode => hnode
      | done result => exact tracked_conclude msg.id source _
  | merging op source merge =>
    refine ((tracked_finishMerge merge).of_pre fun _ hnode => hnode.1).attempt.bind ?_
    intro merged
    cases merged with
    | ok result => exact tracked_conclude op.id source (.ok result)
    | error stop => exact tracked_conclude op.id source (.error stop)

end Invariant

/-! Which broadcasts are skipped, over whole runs of a node. -/
open Lib Machine

section Runs
variable {H : Type} [DecidableEq H] {payloadHash : Bool → List UInt8 → H}

namespace BroadcastNode
variable {s s' : BroadcastNode H}

def Accounted (payloadHash : Bool → List UInt8 → H) (s : BroadcastNode H) : Prop :=
  Tracked payloadHash s.clock s.activities s.node

omit [DecidableEq H] in
theorem Fresh.accounted (hs : s.Fresh) : s.Accounted payloadHash := by
  constructor
  · intro key entry hentry
    rw [hs.noCache] at hentry
    exact absurd hentry not_mem_nil
  · intro key
    rw [hs.noCache]
    exact Pairwise.nil
  · intro key entry hentry
    rw [hs.noCache] at hentry
    exact absurd hentry not_mem_nil
  · intro newer key payload older heq
    rw [hs.noEffects] at heq
    exact absurd heq (by simp)

section
variable (hinj : Function.Injective fun payload : DeltaOrFullState => payload.hash payloadHash)
include hinj

theorem accounted_advance (hs : s.Accounted payloadHash) {i : Nat} {env : Environment}
    (hcond : (BroadcastEvent.advance i env).MeetsNoOpenMerge s)
    (hstep : s.step payloadHash (.advance i env) = some s') : s'.Accounted payloadHash := by
  unfold step at hstep
  dsimp only at hstep
  split at hstep
  · exact absurd hstep (by simp)
  · rename_i a ha
    split_ifs at hstep with hclock
    cases hstep
    obtain ⟨hi, hget⟩ := List.getElem?_eq_some_iff.mp ha
    have hperm : (a :: s.activities.eraseIdx i).Perm s.activities := by
      rw [← hget]
      exact getElem_cons_eraseIdx_perm hi
    have hready : Tracked payloadHash env.interestNow (a :: s.activities.eraseIdx i) s.node :=
      Tracked.mono hs hclock fun b hb => hperm.mem_iff.mpr hb
    have hnone : ∀ key payload, env.receivedPayload a = some (key, payload) →
        NoOpenMerge env.interestNow (s.activities.eraseIdx i) key payload s.node.effects := by
      intro key payload hpayl
      have hopen := hcond a key payload ha hpayl
      exact ⟨fun b hb => hopen.1 b (mem_of_mem_eraseIdx hb), hopen.2⟩
    have hafter := Environment.afterAdvance_of_triple (tracked_advance hinj a) ⟨hready, hnone⟩
    exact hafter.mono (Nat.le_refl _) fun b hb => perm_append_comm.mem_iff.mp hb

theorem accounted_step (hs : s.Accounted payloadHash) {e : BroadcastEvent}
    (hcond : e.MeetsNoOpenMerge s)
    (hstep : s.step payloadHash e = some s') : s'.Accounted payloadHash := by
  cases e with
  | advance i env => exact accounted_advance hinj hs hcond hstep
  | receive source msg =>
    cases hstep
    exact Tracked.mono hs (Nat.le_refl _) fun a ha => mem_append_left _ ha
  | receiveNew id | cleanup id elapsed tie cutoffTie =>
    cases hstep
    exact Tracked.framed.setEntry _ _ _ hs

end
end BroadcastNode

/-- A node skips only payloads that it has merged, as long as none arrives while a recent merge of
an identical one is open. -/
theorem skipsOnlyMerged_of_noOpenMerge
    (hinj : Function.Injective fun payload : DeltaOrFullState => payload.hash payloadHash)
    {s s' : BroadcastNode H} (hs : (broadcasts payloadHash).init s) {es : List BroadcastEvent}
    (hcond : (broadcasts payloadHash).Along (fun s e => e.MeetsNoOpenMerge s) s es)
    (hrun : (broadcasts payloadHash).runFrom s es = some s') : SkipsOnlyMerged s'.node.effects := by
  have hinv : s'.Accounted payloadHash :=
    (broadcasts payloadHash).invariant_of_along _ _
      (fun _ _ _ h hcond hstep => BroadcastNode.accounted_step hinj h hcond hstep)
      (BroadcastNode.Fresh.accounted hs) hcond hrun
  exact hinv.skips

end Runs

/-- The hash keeps the payload and its kind. -/
def exactHash : Bool → List UInt8 → Bool × List UInt8 := Prod.mk

theorem exactHash_injective :
    Function.Injective fun payload : DeltaOrFullState => payload.hash exactHash := by
  intro a b h
  cases a <;> cases b <;> cases h <;> rfl

/-- A node whose contract handler merges everything or nothing. -/
def subscriberEnvironment (merges : Bool) : Environment where
  build := ⟨false, false⟩
  ownAddr := some 0
  elapsed _ := 0
  interestNow := 0
  readTimeMs := 0
  newTransactionsOpen := true
  notificationsOpen := true
  storedState _ := some [1]
  updateContract _ _ _ :=
    if merges then .ok ⟨[2], [], true⟩ else .error ⟨.contractError, true⟩
  getPeerByAddr addr := some ⟨addr, some addr⟩
  closestPotentiallyHosting _ _ := none
  streamingThreshold := 65536
  serializePayload payload := some payload.value
  deserializePayload _ := none
  deserializeBroadcast _ := none
  nextStreamId := 0
  claimOrWait _ _ := .error .timeout
  sends _ := true

def subscriber : BroadcastNode (Bool × List UInt8) where
  node := ⟨fun _ => .unknown, fun _ => [], .empty, []⟩
  activities := []
  clock := 0

theorem subscriber_fresh : subscriber.Fresh := ⟨fun _ => rfl, rfl, rfl⟩

def newState : DeltaOrFullState := .fullState [2]

def stateBroadcast (r : Nat) : UpdateMsg := .broadcastTo (.new .update r) ⟨7, 0⟩ newState []

/-- A state is broadcast and its merge ends; then it is broadcast again, by another peer. -/
def broadcastTwice (merges : Bool) : List BroadcastEvent :=
  [.receive 1 (stateBroadcast 256), .advance 0 (subscriberEnvironment merges),
    .advance 0 (subscriberEnvironment merges), .advance 0 (subscriberEnvironment merges),
    .receive 2 (stateBroadcast 512), .advance 0 (subscriberEnvironment merges),
    .advance 0 (subscriberEnvironment merges)]

def Activity.isMerging : Activity → Bool
  | .merging .. => true
  | _ => false

def Effect.isFailedMerge : Effect → Bool
  | .mergeEnded _ _ _ false => true
  | _ => false

theorem noOpenMerge_of_none {now : Nat} {pending : List Activity} {effects : List Effect}
    (hpend : pending.any Activity.isMerging = false)
    (heffects : effects.any Effect.isFailedMerge = false) (key : ContractKey)
    (payload : DeltaOrFullState) : NoOpenMerge now pending key payload effects := by
  rw [any_eq_false] at hpend heffects
  constructor
  · intro a ha t hmerg
    cases a with
    | merging op source merge => exact absurd rfl (hpend _ ha)
    | arriving _ _ _ | loaded _ _ _ => exact hmerg.elim
  · intro t hfail
    exact absurd rfl (heffects _ hfail)

/-- The second broadcast is skipped because the first one was merged. -/
theorem merged_broadcast_is_skipped : ∃ s,
    (broadcasts exactHash).runFrom subscriber (broadcastTwice true) = some s ∧
    s.node.effects.head? = some (.duplicateSkipped ⟨7, 0⟩ newState) ∧
    SkipsOnlyMerged s.node.effects := by
  have hquiet : ∀ {s : BroadcastNode (Bool × List UInt8)} {i : Nat},
      s.activities.any Activity.isMerging = false → s.node.effects.any Effect.isFailedMerge = false →
      (BroadcastEvent.advance i (subscriberEnvironment true)).MeetsNoOpenMerge s := by
    intro s i hpend heffects a key payload _ _
    exact noOpenMerge_of_none hpend heffects key payload
  have hcond : (broadcasts exactHash).Along (fun s e => e.MeetsNoOpenMerge s) subscriber
      (broadcastTwice true) := by
    refine along_cons_of_step _ rfl trivial ?_
    refine along_cons_of_step _ rfl (hquiet rfl rfl) ?_
    refine along_cons_of_step _ rfl (hquiet rfl rfl) ?_
    -- the step that ends the merge looks nothing up
    refine along_cons_of_step _ rfl ?_ ?_
    · rintro _ key payload ⟨⟩ ⟨⟩
    refine along_cons_of_step _ rfl trivial ?_
    refine along_cons_of_step _ rfl (hquiet rfl rfl) ?_
    exact along_cons_of_step _ rfl (hquiet rfl rfl) trivial
  refine ⟨_, rfl, rfl, ?_⟩
  exact skipsOnlyMerged_of_noOpenMerge exactHash_injective subscriber_fresh hcond rfl

def endsMerge : Effect → Bool
  | .mergeEnded _ _ _ true => true
  | _ => false

/-- The merge of a broadcast fails, and the payload is skipped when it arrives again: it was put
into the duplicate cache before the contract handler was asked. -/
theorem failed_broadcast_is_skipped : ∃ s, (broadcasts exactHash).init subscriber ∧
    (broadcasts exactHash).runFrom subscriber (broadcastTwice false) = some s ∧
    s.node.effects.head? = some (.duplicateSkipped ⟨7, 0⟩ newState) ∧
    (∀ t, .mergeEnded ⟨7, 0⟩ newState t true ∉ s.node.effects) ∧ ¬ SkipsOnlyMerged s.node.effects := by
  have hnone : ∀ {effects : List Effect}, effects.any endsMerge = false →
      ∀ t, .mergeEnded ⟨7, 0⟩ newState t true ∉ effects := by
    intro effects hall t hmem
    exact any_eq_false.mp hall _ hmem rfl
  refine ⟨_, subscriber_fresh, rfl, rfl, hnone rfl, ?_⟩
  intro hskips
  obtain ⟨t, hmerged, _⟩ := hskips [] ⟨7, 0⟩ newState _ rfl
  exact hnone rfl t hmerged

end Freenet.Operations.Update
