import Freenet.Operations.ConnectPromises

/-! Runs of a relay: each decision to accept brings exactly one response, unless it is made on a
retry. -/
namespace Freenet.Operations.Connect
open Lib Node Environment Option List

/-- A message that reaches the node over the network, and what the node finds then. -/
structure RelayEvent where
  msg : ConnectMsg
  source : SocketAddr
  env : Environment

/-- A relay with all its decisions to accept a joiner, the latest first. -/
structure RelayLog where
  node : ConnectNode
  acceptances : List Acceptance

/-- For each decision there is exactly one response in which the relay names itself, sent to its
upstream, and the joiner is expected and connected to. -/
def RelayLog.Answered (key : Nat) (log : RelayLog) : Prop :=
  Promises.Grows ⟨[], [], []⟩ (promises key log.node.effects) log.acceptances

namespace RelayEvent
variable (node : ConnectNode) (e : RelayEvent)

def loaded : Option ConnectOp :=
  if e.env.popsOp then loadOrInit node.op e.msg (some e.source) else none

variable [SeededHash]

def acceptance : Option Acceptance :=
  (e.loaded node).bind fun op => Connect.acceptance op
    (Task.finalState (e.env.processMessage e.msg (some e.source)) ⟨op, node.effects⟩).op

/-- A rejection or a failed connection makes the relay look at the request again, and it accepts the
joiner then. -/
def AcceptsOnRetry : Prop :=
  ∃ op, e.loaded node = some op ∧ e.env.acceptsOnRetry op e.msg = true

instance : Decidable (e.AcceptsOnRetry node) :=
  decidable_of_iff ((e.loaded node).any fun op => e.env.acceptsOnRetry op e.msg)
    (by cases h : e.loaded node <;> simp [AcceptsOnRetry, h])

end RelayEvent

section Runs
variable [SeededHash]

/-- A node without an operation for the transaction, with any messages for it. The node's key is
fixed. -/
def relaying (key : Nat) : Machine RelayLog RelayEvent where
  init log := log = ⟨⟨none, []⟩, []⟩
  step log e :=
    if e.env.ownLocation.pubKey = key then
      some ⟨e.env.handle log.node e.msg (some e.source), (e.acceptance log.node).toList ++ log.acceptances⟩
    else none

variable {key : Nat} {log log' : RelayLog} {e : RelayEvent}

def ConnectNode.Relays (node : ConnectNode) : Prop :=
  ∀ op, node.op = some op → op.Relays

omit [SeededHash] in
theorem loaded_relays {op : ConnectOp} (hrelays : log.node.Relays)
    (hop : e.loaded log.node = some op) : op.Relays := by
  unfold RelayEvent.loaded at hop
  split_ifs at hop
  unfold loadOrInit at hop
  split at hop
  · rename_i hkept
    cases hop
    exact hrelays _ hkept
  · cases hop
    exact relays_of_relaying rfl
  · cases hop

/-- What one step adds to the decisions and to what is done about them. -/
structure RelayEvent.Adds (key : Nat) (log : RelayLog) (e : RelayEvent) (node : ConnectNode) :
    Prop where
  relays : node.Relays
  grows : ¬ e.AcceptsOnRetry log.node → (promises key log.node.effects).Grows
    (promises key node.effects) (e.acceptance log.node).toList
  unexpected : e.AcceptsOnRetry log.node →
    (promises key node.effects).expected = (promises key log.node.effects).expected ∧
      (e.acceptance log.node).toList.length = 1

omit [SeededHash] in
theorem promises_unclaimed (msg : ConnectMsg) (effects : List Effect) :
    promises key (msg.unclaimed ++ effects) = promises key effects := by
  unfold ConnectMsg.unclaimed
  split
  · exact promises_cons_quiet ⟨rfl, rfl, rfl⟩
  · rfl

omit [SeededHash] in
theorem promises_finish (env : Environment) (run : ConnectRun) :
    promises key (env.finish run).effects = promises key run.effects := by
  unfold finish
  split
  · exact promises_cons_quiet ⟨rfl, rfl, rfl⟩
  · rfl

variable {run : ConnectRun}

omit [SeededHash] in
theorem finish_relays {env : Environment} (h : run.op.Relays) : (env.finish run).Relays := by
  intro op hop
  unfold finish at hop
  split_ifs at hop
  cases hop
  exact h

variable {op : ConnectOp}

theorem acceptance_of_ok (hop : e.loaded log.node = some op)
    (hrun : e.env.processMessage e.msg (some e.source) ⟨op, log.node.effects⟩ = .ok () run) :
    e.acceptance log.node = acceptance op run.op := by
  unfold RelayEvent.acceptance
  rw [hop, bind_some, Task.finalState_of_ok hrun]

theorem handle_of_ok (hop : e.loaded log.node = some op)
    (hrun : e.env.processMessage e.msg (some e.source) ⟨op, log.node.effects⟩ = .ok () run) :
    e.env.handle log.node e.msg (some e.source) = e.env.finish run := by
  unfold RelayEvent.loaded at hop
  unfold handle
  rw [hop]
  dsimp only
  rw [hrun]

theorem adds_of_request (hopen : e.env.ChannelsOpen) (hkey : e.env.ownLocation.pubKey = key)
    (hop : e.loaded log.node = some op) {id : Transaction} {payload : ConnectRequest}
    (hmsg : e.msg = .request id payload) :
    e.Adds key log (e.env.handle log.node e.msg (some e.source)) := by
  have hspec : Task.Triple (fun run => run = ⟨op, log.node.effects⟩)
      (e.env.processMessage e.msg (some e.source))
      (fun _ => Settled key (promises key log.node.effects) op) (fun _ _ => False) := by
    rw [hmsg]
    exact processRequest_settled hopen hkey
  obtain ⟨_, run, hrun, hsettl⟩ := hspec.exists_ok rfl
  rw [handle_of_ok hop hrun]
  constructor
  · exact finish_relays hsettl.1
  · intro _
    rw [promises_finish, acceptance_of_ok hop hrun]
    exact hsettl.2
  · rintro ⟨op', _, hretry⟩
    rw [hmsg, acceptsOnRetry_of_retried_eq_none fun _ => rfl] at hretry
    exact Bool.noConfusion hretry

theorem adds_of_not_request (hopen : e.env.ChannelsOpen) (hkey : e.env.ownLocation.pubKey = key)
    (hop : e.loaded log.node = some op) (hrelays : op.Relays) (hmsg : e.msg.isRequest = false) :
    e.Adds key log (e.env.handle log.node e.msg (some e.source)) := by
  have hspec : Task.Triple (fun run => run = ⟨op, log.node.effects⟩)
      (e.env.processMessage e.msg (some e.source)) _ (fun _ _ => False) :=
    processMessage_unexpecting hrelays hopen hkey hmsg
  obtain ⟨_, run, hrun, hend⟩ := hspec.exists_ok rfl
  rw [handle_of_ok hop hrun]
  constructor
  · exact finish_relays hend.relays
  · intro hnot
    have hrefus : e.env.acceptsOnRetry op e.msg = false :=
      Bool.eq_false_iff.mpr fun hacc => hnot ⟨op, hop, hacc⟩
    have hnone : acceptance op run.op = none :=
      isSome_eq_false_iff.mp (hend.decided.trans hrefus) |> isNone_iff_eq_none.mp
    rw [promises_finish, acceptance_of_ok hop hrun, hnone, hend.promises hrefus]
    exact Promises.grows_refl
  · rintro ⟨op', hop', hacc⟩
    rw [hop] at hop'
    cases hop'
    obtain ⟨a, ha⟩ := isSome_iff_exists.mp (hend.decided.trans hacc)
    rw [promises_finish, acceptance_of_ok hop hrun, ha]
    exact ⟨hend.expected, rfl⟩

theorem adds_of_step (hrelays : log.node.Relays) (hopen : e.env.ChannelsOpen)
    (hstep : (relaying key).step log e = some log') : e.Adds key log log'.node ∧
      log'.acceptances = (e.acceptance log.node).toList ++ log.acceptances := by
  unfold relaying at hstep
  dsimp only at hstep
  split_ifs at hstep with hkey
  cases hstep
  refine ⟨?_, rfl⟩
  show e.Adds key log (e.env.handle log.node e.msg (some e.source))
  cases hop : e.loaded log.node with
  | none =>
    have hnone : e.acceptance log.node = none := by
      unfold RelayEvent.acceptance
      rw [hop]
      rfl
    have hafter : e.env.handle log.node e.msg (some e.source) =
        { log.node with effects := e.msg.unclaimed ++ log.node.effects } := by
      unfold RelayEvent.loaded at hop
      unfold handle
      rw [hop]
    rw [hafter]
    constructor
    · exact hrelays
    · intro _
      rw [hnone]
      show Promises.Grows _ (promises key (e.msg.unclaimed ++ log.node.effects)) []
      rw [promises_unclaimed]
      exact Promises.grows_refl
    · rintro ⟨op, hop', _⟩
      rw [hop] at hop'
      cases hop'
  | some op =>
    cases hmsg : e.msg with
    | request id payload =>
      rw [← hmsg]
      exact adds_of_request hopen hkey hop hmsg
    | _ =>
      rw [← hmsg]
      exact adds_of_not_request hopen hkey hop (loaded_relays hrelays hop) (by rw [hmsg]; rfl)

/-- The step that accepts on a retry leaves the relay owing something, and nothing makes up for
it. -/
def RelayLog.Owes (key : Nat) (log : RelayLog) : Prop :=
  (promises key log.node.effects).expected.length < log.acceptances.length

theorem owes_of_step (hrelays : log.node.Relays) (hopen : e.env.ChannelsOpen)
    (hstep : (relaying key).step log e = some log') (howes : log.Owes key) : log'.Owes key := by
  obtain ⟨hadds, haccs⟩ := adds_of_step hrelays hopen hstep
  unfold RelayLog.Owes at howes ⊢
  rw [haccs, length_append]
  by_cases hretry : e.AcceptsOnRetry log.node
  · rw [(hadds.unexpected hretry).1]
    omega
  · have hlength := (hadds.grows hretry).expected_length
    omega

theorem answered_of_step (hrelays : log.node.Relays) (hopen : e.env.ChannelsOpen)
    (hretry : ¬ e.AcceptsOnRetry log.node) (hstep : (relaying key).step log e = some log')
    (hansw : log.Answered key) : log'.Answered key := by
  obtain ⟨hadds, haccs⟩ := adds_of_step hrelays hopen hstep
  unfold RelayLog.Answered
  rw [haccs]
  exact hansw.trans (hadds.grows hretry)

omit [SeededHash] in
theorem not_owes_of_answered (h : log.Answered key) : ¬ log.Owes key := by
  have hlength := Promises.Grows.expected_length h
  unfold RelayLog.Owes
  omega

theorem owes_of_run {es : List RelayEvent} (hrelays : log.node.Relays)
    (hopen : ∀ e ∈ es, e.env.ChannelsOpen) (howes : log.Owes key)
    (hrun : (relaying key).runFrom log es = some log') : log'.Owes key := by
  have hend : log'.node.Relays ∧ log'.Owes key := by
    refine (relaying key).invariant_of_along (fun _ e => e.env.ChannelsOpen)
      (fun log => log.node.Relays ∧ log.Owes key) ?_ ⟨hrelays, howes⟩
      ((relaying key).along_of_forall_mem hopen) hrun
    rintro log e log' ⟨hrelays, howes⟩ hopen hstep
    exact ⟨(adds_of_step hrelays hopen hstep).1.relays, owes_of_step hrelays hopen hstep howes⟩
  exact hend.2

theorem not_acceptsOnRetry_of_answered {es : List RelayEvent} (hrelays : log.node.Relays)
    (hopen : ∀ e ∈ es, e.env.ChannelsOpen) (hansw : log.Answered key)
    (hrun : (relaying key).runFrom log es = some log') (hend : log'.Answered key) :
    (relaying key).Along (fun log e => ¬ e.AcceptsOnRetry log.node) log es := by
  induction es generalizing log with
  | nil => exact trivial
  | cons e es ih =>
    obtain ⟨next, hstep, hrest⟩ := ((relaying key).runFrom_cons_eq_some_iff _ _ _ _).mp hrun
    have hopenE := hopen e mem_cons_self
    have hopenEs : ∀ e' ∈ es, e'.env.ChannelsOpen := fun e' he' =>
      hopen e' (mem_cons_of_mem e he')
    obtain ⟨hadds, haccs⟩ := adds_of_step hrelays hopenE hstep
    have hretry : ¬ e.AcceptsOnRetry log.node := by
      intro hacc
      have howes : next.Owes key := by
        obtain ⟨hexp, hone⟩ := hadds.unexpected hacc
        have hlength := Promises.Grows.expected_length hansw
        unfold RelayLog.Owes
        rw [hexp, haccs, length_append, hone, hlength]
        simp
      exact not_owes_of_answered hend (owes_of_run hadds.relays hopenEs howes hrest)
    exact (relaying key).along_cons_of_step hstep hretry
      (ih hadds.relays hopenEs (answered_of_step hrelays hopenE hretry hstep hansw) hrest)

/-- Whatever messages reach a relay, exactly one response of its own goes to upstream for each of
its decisions to accept the joiner, and it expects and connects to the joiner, if and only if it
never decides so after a rejection or a failed connection. -/
theorem answered_iff_not_acceptsOnRetry {start : RelayLog} {es : List RelayEvent}
    (hstart : (relaying key).init start) (hopen : ∀ e ∈ es, e.env.ChannelsOpen)
    (hrun : (relaying key).runFrom start es = some log) : log.Answered key ↔
      (relaying key).Along (fun log e => ¬ e.AcceptsOnRetry log.node) start es := by
  cases hstart
  have hrelays : ConnectNode.Relays ⟨none, []⟩ := by
    rintro op ⟨⟩
  have hansw : RelayLog.Answered key ⟨⟨none, []⟩, []⟩ := Promises.grows_refl
  constructor
  · exact not_acceptsOnRetry_of_answered hrelays hopen hansw hrun
  · intro halong
    have hcond : (relaying key).Along (fun log e => e.env.ChannelsOpen ∧
        ¬ e.AcceptsOnRetry log.node) ⟨⟨none, []⟩, []⟩ es :=
      (relaying key).along_and ((relaying key).along_of_forall_mem hopen) halong
    have hend : log.node.Relays ∧ log.Answered key := by
      refine (relaying key).invariant_of_along _ (fun log => log.node.Relays ∧ log.Answered key) ?_
        ⟨hrelays, hansw⟩ hcond hrun
      rintro log e log' ⟨hrelays, hansw⟩ ⟨hopen, hretry⟩ hstep
      exact ⟨(adds_of_step hrelays hopen hstep).1.relays, answered_of_step hrelays hopen hretry hstep hansw⟩
    exact hend.2

end Runs

/-- The peer at address 1 with these neighbors and this roll of its dice; it accepts whoever it
may. -/
def willing (neighbors : List SocketAddr) (roll : Rat) : Environment :=
  { plain (peerAt 1) neighbors with ringAccepts := fun _ _ => true, roll := roll }

def nineAsks (neighbors : List SocketAddr) (roll : Rat) : RelayEvent where
  msg := .request joinTransaction
    (@initiateJoinRequest addingHash joinTransaction (peerAt 9) (peerAt 1) 0 10 1 []).2.received
  source := 9
  env := willing neighbors roll

/-- The peer at address 5 rejects, and the dice are in favor of accepting. -/
def fiveRejects : RelayEvent where
  msg := .rejected joinTransaction 0
  source := 5
  env := willing [5, 6] 0

def sixAccepts : RelayEvent where
  msg := .response joinTransaction ⟨⟨6, none⟩⟩
  source := 6
  env := willing [5, 6] 1

def noRelay : RelayLog := ⟨⟨none, []⟩, []⟩

/-- A relay accepts when it is asked and does all that is due. It does not accept again when the
peer at address 5 rejects, and passes the answer of the peer at address 6 on. -/
theorem accepted_request_is_answered : ∃ log, (@relaying addingHash 1).runFrom noRelay
      [nineAsks [5, 6] 0, fiveRejects, sixAccepts] = some log ∧
    log.acceptances = [⟨joinTransaction, 9, peerAt 9⟩] ∧ log.Answered 1 := by
  refine Machine.exists_run_imp (·.acceptances = [⟨joinTransaction, 9, peerAt 9⟩]) (by decide +kernel) ?_
  intro log hrun hlog
  have hopen : ∀ e ∈ [nineAsks [5, 6] 0, fiveRejects, sixAccepts], e.env.ChannelsOpen := by
    simp only [mem_cons, not_mem_nil, or_false, forall_eq_or_imp, forall_eq]
    exact ⟨⟨fun _ => rfl, rfl, rfl⟩, ⟨fun _ => rfl, rfl, rfl⟩, ⟨fun _ => rfl, rfl, rfl⟩⟩
  refine ⟨hlog, (@answered_iff_not_acceptsOnRetry addingHash _ _ _ _ rfl hopen hrun).mpr ?_⟩
  decide +kernel

/-- After a rejection the relay forwards the request to the peer at address 6 and accepts as well.
It tells nobody, and neither expects the joiner nor connects to it. -/
theorem acceptance_on_retry_is_lost : ∃ log,
    (@relaying addingHash 1).runFrom noRelay [nineAsks [5, 6] 1, fiveRejects] = some log ∧
    log.acceptances = [⟨joinTransaction, 9, peerAt 9⟩] ∧
    promises 1 log.node.effects = ⟨[], [], []⟩ ∧ ¬ log.Answered 1 := by
  refine Machine.exists_run_imp (fun log => log.acceptances = [⟨joinTransaction, 9, peerAt 9⟩] ∧
    promises 1 log.node.effects = ⟨[], [], []⟩) (by decide +kernel) ?_
  rintro log - ⟨haccepted, hprom⟩
  refine ⟨haccepted, hprom, ?_⟩
  intro hansw
  have hlength := Promises.Grows.expected_length hansw
  rw [hprom, haccepted] at hlength
  cases hlength

end Freenet.Operations.Connect
