import Freenet.Node.OpManager

/-! A message is handled without a panic exactly when its transaction has a type. -/
namespace Freenet.Node.EventLoop
open Lib Outcome OpManager
variable {D B : Type} {node : EventLoop D B} {m : OpManager D} {tx : Transaction}

section
variable (htx : tx.WellTyped)
include htx

theorem logTxType_returns (level : LogLevel) : (node.logTxType level tx).Returns := by
  unfold logTxType
  split_ifs
  · rw [returns_bind_ok_iff]
    exact tx.transactionType_returns_iff.mpr htx
  · exact returns_ok ()

theorem logConnect_returns (level : LogLevel) (kind : TransactionType) :
    (node.logConnect level kind tx).Returns := by
  unfold logConnect
  split_ifs
  · exact logTxType_returns htx level
  · exact returns_ok ()

theorem send_returns (target : SocketAddr) (requestsLocation : Bool) :
    (node.send m target tx requestsLocation).Returns := by
  unfold send
  rw [returns_bind_ok_iff]
  exact sendingTransaction_returns htx target requestsLocation

theorem resolve_wellTyped (ref : TxRef) : (ref.resolve tx).WellTyped := by
  cases ref with
  | handled => exact htx
  | created ty id => exact Transaction.update_wellTyped ty id none
  | child ty id parent => exact Transaction.update_wellTyped ty id (some parent.id)

theorem serve_returns (m : OpManager D) (c : OpCall D) : (node.serve tx m c).Returns := by
  cases c with
  | push id op => exact push_returns (resolve_wellTyped htx id) _
  | pop id => exact (pop_returns_iff _).mpr (.inr (.inr (resolve_wellTyped htx id)))
  | completed id | expectSubOperation parent child => exact returns_ok _
  | peekNextHopAddr id =>
    exact (returns_bind_ok_iff _ _).mpr (peekNextHopAddr_returns (resolve_wellTyped htx id))
  | send target msg => exact send_returns (resolve_wellTyped htx msg.id) _ _

end

/-- An operation that comes out as a result has a typed transaction. -/
def Reportable (r : OpManager D × OpResult D) : Prop :=
  ∀ op, r.2 = .ok (some op) → op.id.WellTyped

theorem reportable_none (m : OpManager D) : Reportable (m, .ok none) := by
  intro op h
  cases h

theorem reportable_error (m : OpManager D) (e : OpError) : Reportable (m, .error e) := by
  intro op h
  cases h

section WellTyped
variable (htx : tx.WellTyped) (kind : TransactionType) (body : B) (source : Option SocketAddr)
include htx

theorem reportable_resolve (m : OpManager D) (state : OpState D) :
    Reportable (m, .ok (some (state.resolve tx))) := by
  intro op h
  cases h
  exact resolve_wellTyped htx state.id

theorem loadOrInit_returns : (node.loadOrInit m kind tx body source).Returns := by
  refine Ensures.returns (P := fun _ => True) ?_
  refine ((pop_returns_iff tx).mpr (.inr (.inr htx))).bind ?_
  rintro ⟨m, popped⟩
  rcases popped with state | _ | op
  · exact ensures_ok trivial
  · exact ensures_ok trivial
  · dsimp only
    split_ifs
    · exact ensures_ok trivial
    · refine (push_returns htx op).bind ?_
      rintro ⟨m, pushed⟩
      split <;> exact ensures_ok trivial

/-- An operation hands a message back to its own node only to broadcast an update. -/
def RequeuesOnlyBroadcasts (operations : Operations D B) : Prop :=
  ∀ op body source, (operations.processMessage op body source).Results fun result =>
    ∀ msg state, result = .ok (.sendAndContinue msg none state) → msg.isBroadcasting = true

theorem notifyOpChange_ensures (op : OpEnum D) : (node.notifyOpChange m tx op).Ensures Reportable := by
  refine (push_returns htx op).bind ?_
  rintro ⟨m, pushed⟩
  cases pushed with
  | error e => exact ensures_ok (reportable_error m e)
  | ok _ => exact ensures_ok (reportable_error m .statePushed)

theorem handleOpResult_error_ensures (e : OpError) :
    (node.handleOpResult m tx source (.error e)).Ensures Reportable := by
  cases e with
  | statePushed | opNotPresent => exact ensures_ok (reportable_none m)
  | _ =>
    cases source with
    | none => exact ensures_ok (reportable_error m _)
    | some addr =>
      refine (send_returns htx addr false).bind ?_
      rintro ⟨m, sent⟩
      exact ensures_ok (reportable_error m _)

theorem handleOpResult_continueOp_ensures (state : OpState D) :
    (node.handleOpResult m tx source (.ok (.continueOp state))).Ensures Reportable := by
  unfold handleOpResult
  dsimp only
  split_ifs
  · exact ensures_ok (reportable_none _)
  · exact ensures_ok (reportable_resolve htx _ state)
  · exact ensures_ok (reportable_none _)
  · refine (push_returns (resolve_wellTyped htx state.id) _).bind ?_
    rintro ⟨m, pushed⟩
    cases pushed with
    | error e => exact ensures_ok (reportable_error m e)
    | ok _ => exact ensures_ok (reportable_none m)

theorem handleOpResult_sendAndContinue_ensures (msg : OpMessage) (nextHop : Option SocketAddr)
    (state : OpState D) (hbroadc : nextHop = none → msg.isBroadcasting = true) :
    (node.handleOpResult m tx source (.ok (.sendAndContinue msg nextHop state))).Ensures Reportable := by
  have hid := resolve_wellTyped htx msg.id
  unfold handleOpResult
  cases nextHop with
  | none =>
    dsimp only
    split_ifs with hfinal hassert
    · exact ensures_ok (reportable_resolve htx _ state)
    · rw [hbroadc rfl] at hassert
      cases hassert.2
    · exact notifyOpChange_ensures hid _
  | some target =>
    dsimp only
    split_ifs with hfinal
    · refine (send_returns hid target msg.requestsLocation).bind ?_
      rintro ⟨m, sent⟩
      cases sent with
      | true => exact ensures_ok (reportable_resolve htx m state)
      | false => exact ensures_ok (reportable_error m .connError)
    · refine (push_returns hid _).bind ?_
      rintro ⟨m, pushed⟩
      cases pushed with
      | error e => exact ensures_ok (reportable_error m e)
      | ok _ =>
        refine (send_returns hid target msg.requestsLocation).bind ?_
        rintro ⟨m, sent⟩
        cases sent with
        | true => exact ensures_ok (reportable_none m)
        | false => exact ensures_ok (reportable_error m .connError)

theorem handleOpResult_sendAndComplete_ensures (msg : OpMessage) (nextHop : Option SocketAddr) :
    (node.handleOpResult m tx source (.ok (.sendAndComplete msg nextHop))).Ensures Reportable := by
  cases nextHop with
  | none => exact ensures_ok (reportable_none _)
  | some target =>
    refine (send_returns (resolve_wellTyped htx msg.id) target msg.requestsLocation).bind ?_
    rintro ⟨m, sent⟩
    cases sent with
    | true => exact ensures_ok (reportable_none _)
    | false => exact ensures_ok (reportable_error m .connError)

theorem handleOpResult_ensures {result : Except OpError (OperationResult D)}
    (hresult : ∀ msg state, result = .ok (.sendAndContinue msg none state) →
      msg.isBroadcasting = true) : (node.handleOpResult m tx source result).Ensures Reportable := by
  rcases result with e | (_ | state | ⟨msg, nextHop, state⟩ | ⟨msg, nextHop⟩)
  · exact handleOpResult_error_ensures htx source e
  · exact ensures_ok (reportable_none _)
  · exact handleOpResult_continueOp_ensures htx source state
  · refine handleOpResult_sendAndContinue_ensures htx source msg nextHop state ?_
    rintro rfl
    exact hresult msg state rfl
  · exact handleOpResult_sendAndComplete_ensures htx source msg nextHop

end WellTyped

variable {result : OpResult D}

theorem reportable_handlePureNetworkResult (h : Reportable (m, result)) :
    Reportable (m, handlePureNetworkResult result) := by
  unfold handlePureNetworkResult
  split
  · exact reportable_none m
  · exact reportable_none m
  · exact h

theorem handleAbortedOp_returns_iff : (node.handleAbortedOp m tx).Returns ↔ tx.WellTyped := by
  constructor
  · intro h
    unfold handleAbortedOp at h
    rw [returns_bind_iff] at h
    obtain ⟨kind, hkind, -⟩ := h
    exact tx.transactionType_returns_iff.mp ⟨kind, hkind⟩
  · intro htx
    refine Ensures.returns (P := fun _ => True) ?_
    refine (tx.transactionType_returns_iff.mpr htx).bind fun kind => ?_
    refine ((pop_returns_iff tx).mpr (.inr (.inr htx))).bind ?_
    rintro ⟨m, popped⟩
    dsimp only
    split
    · split
      · refine (Program.run_ensures (serve_returns htx) _ (Program.results_true _) m).bind ?_
        rintro ⟨m, aborted⟩ -
        split <;> exact ensures_ok trivial
      · exact (push_returns htx _).ensures
    · exact ensures_ok trivial

theorem reportResult_returns (htx : tx.WellTyped)
    (hresult : Reportable (m, result)) : (reportResult m tx result).Returns := by
  refine Ensures.returns (P := fun _ => True) ?_
  refine (tx.transactionType_returns_iff.mpr htx).bind fun _ => ?_
  rcases result with e | _ | op
  · exact ensures_ok trivial
  · exact ensures_ok trivial
  · refine (op.id.transactionType_returns_iff.mpr (hresult op rfl)).bind fun _ => ?_
    exact ensures_ok trivial

/-- Whatever became of the operation, reporting its result looks at the type. -/
theorem wellTyped_of_reportResult (h : (reportResult m tx result).Returns) : tx.WellTyped := by
  unfold reportResult at h
  rw [returns_bind_iff] at h
  obtain ⟨ty, hty, -⟩ := h
  exact tx.transactionType_returns_iff.mp ⟨ty, hty⟩

theorem logTxType_bind_returns_iff {α : Type} {o : Outcome α} (level : LogLevel)
    (ho : o.Returns ↔ tx.WellTyped) :
    (node.logTxType level tx >>= fun _ => o).Returns ↔ tx.WellTyped := by
  rw [returns_bind_iff]
  constructor
  · rintro ⟨_, -, h⟩
    exact ho.mp h
  · intro htx
    have hlog : (node.logTxType level tx).Returns := logTxType_returns htx level
    obtain ⟨u, hu⟩ := hlog
    exact ⟨u, hu, ho.mpr htx⟩

section
variable (hops : RequeuesOnlyBroadcasts node.operations) (kind : TransactionType) (body : B)
  (source : Option SocketAddr) (msg : NetMessage B)
include hops

theorem handleOpRequest_ensures (htx : tx.WellTyped) :
    (node.handleOpRequest m kind tx body source).Ensures Reportable := by
  refine (loadOrInit_returns htx kind body source).bind ?_
  rintro ⟨m, loaded⟩
  cases loaded with
  | error e => exact ensures_ok (reportable_error m e)
  | ok op =>
    refine (Program.run_ensures (serve_returns htx) _ (hops op body source) m).bind ?_
    rintro ⟨m, result⟩ hresult
    exact handleOpResult_ensures htx source hresult

theorem handleOpMessage_ensures (htx : tx.WellTyped) (attempts : Nat) (m : OpManager D) :
    (node.handleOpMessage kind tx body source attempts m).Ensures Reportable := by
  induction attempts generalizing m with
  | zero =>
    refine (logTxType_returns htx .warn).bind fun _ => ?_
    exact ensures_ok (reportable_none m)
  | succ attempts ih =>
    refine (logConnect_returns htx .info kind).bind fun _ => ?_
    refine (handleOpRequest_ensures hops kind body source htx).bind ?_
    rintro ⟨m, result⟩ hresult
    dsimp only
    split
    · exact ih _
    · refine (logConnect_returns htx .debug kind).bind fun _ => ?_
      exact ensures_ok (reportable_none m)
    · exact ensures_ok (reportable_handlePureNetworkResult hresult)

theorem handlePureNetworkMessage_ensures (hmsg : msg.id.WellTyped) :
    (node.handlePureNetworkMessage m msg source).Ensures Reportable := by
  cases msg with
  | aborted tx =>
    refine (logTxType_returns hmsg .debug).bind fun _ => ?_
    refine (handleAbortedOp_returns_iff.mpr hmsg).bind ?_
    rintro ⟨m, _⟩
    exact ensures_ok (reportable_none m)
  | neighborHosting | interestSync | readyState ready => exact ensures_ok (reportable_none m)
  | _ id body => exact handleOpMessage_ensures hops _ body source hmsg maxRetries m

theorem processMessageDecoupled_returns_iff :
    (node.processMessageDecoupled m msg source).Returns ↔ msg.id.WellTyped := by
  constructor
  · intro h
    unfold processMessageDecoupled at h
    rw [returns_bind_iff] at h
    obtain ⟨⟨m', result⟩, -, hreport⟩ := h
    exact wellTyped_of_reportResult hreport
  · intro hmsg
    obtain ⟨⟨m', result⟩, hhandle, hresult⟩ :=
      handlePureNetworkMessage_ensures (m := m) hops source msg hmsg
    unfold processMessageDecoupled
    rw [hhandle]
    exact reportResult_returns hmsg hresult

theorem processMessage_returns_iff : (node.processMessage m msg source).Returns ↔ msg.id.WellTyped := by
  refine logTxType_bind_returns_iff .debug (logTxType_bind_returns_iff .info ?_)
  exact processMessageDecoupled_returns_iff hops source msg

theorem handleInboundMessage_returns_iff :
    (node.handleInboundMessage m msg source).Returns ↔ msg.id.WellTyped := by
  refine logTxType_bind_returns_iff .debug ?_
  cases msg with
  | aborted tx =>
    rw [returns_bind_ok_iff]
    exact handleAbortedOp_returns_iff
  | _ => exact processMessage_returns_iff hops source _

end

/-- What a peer sends is handled without a panic exactly when the message in it, if there is one,
has a typed transaction. -/
theorem receiveBytes_returns_iff (hops : RequeuesOnlyBroadcasts node.operations)
    (m : OpManager D) (remote : SocketAddr) (bytes : List UInt8) :
    (node.receiveBytes m remote bytes).Returns ↔ ∀ msg, node.decodeMsg bytes = some msg →
      msg.id.WellTyped := by
  unfold receiveBytes
  cases hdecode : node.decodeMsg bytes with
  | none => simp
  | some msg =>
    simp only [Option.some.injEq, forall_eq']
    refine logTxType_bind_returns_iff .debug (logTxType_bind_returns_iff .debug ?_)
    exact handleInboundMessage_returns_iff hops (some remote) msg

/-- A release build that logs nothing and whose operations end at once. The bytes it decodes are the
transaction id of an abort, lowest byte first. -/
def quietLoop : EventLoop Unit Unit where
  env := ⟨⟨false, false⟩, fun _ => false, true⟩
  operations :=
    { finalized := fun _ => true
      nextHop := fun _ => none
      initOp := fun kind tx _ _ => .ok ⟨kind, tx, ()⟩
      processMessage := fun _ _ _ => .done (.ok .completed)
      handleAbort := fun _ => .done (.ok ()) }
  decodeMsg := fun bytes => if bytes.length = 16
    then some (.aborted ⟨BitVec.ofNat 128 (bytes.foldr (fun b n => b.toNat + 256 * n) 0), none⟩)
    else none
  logs := fun _ => false
  sends := fun _ _ => true
  whileAsleep := fun _ m => m

def abortBytes (lowByte : UInt8) : List UInt8 := lowByte :: List.replicate 15 0

theorem abort_of_get_returns :
    (∀ msg, quietLoop.decodeMsg (abortBytes 2) = some msg → msg.id.WellTyped) ∧
      (quietLoop.receiveBytes .new 0 (abortBytes 2)).Returns := by
  have htyped : ∀ msg, quietLoop.decodeMsg (abortBytes 2) = some msg → msg.id.WellTyped := by
    intro msg h
    cases h
    decide
  refine ⟨htyped, (receiveBytes_returns_iff ?_ .new 0 (abortBytes 2)).mpr htyped⟩
  intro op body source msg state h
  cases h

/-- An abort whose transaction id has the low byte 5 stops the event loop. -/
theorem abort_of_unknown_type_panics : quietLoop.decodeMsg (abortBytes 5) = some (.aborted ⟨5, none⟩) ∧
      quietLoop.receiveBytes .new 0 (abortBytes 5) = .panicked .expectFailed := by
  exact ⟨rfl, rfl⟩

end Freenet.Node.EventLoop
