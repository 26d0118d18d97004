import Freenet.Lib.Outcome
import Freenet.Lib.Table
import Mathlib.Data.BitVec

/-! Transaction ids, whose low byte is the type of the operation. -/
namespace Freenet.Node
open Lib

section Transactions
inductive TransactionType where
  | connect
  | put
  | get
  | subscribe
  | update
  deriving DecidableEq, Repr

abbrev Ulid := BitVec 128

structure Transaction where
  id : Ulid
  parent : Option Ulid
  deriving DecidableEq

namespace TransactionType

def toByte : TransactionType → Ulid
  | connect => 0
  | put => 1
  | get => 2
  | subscribe => 3
  | update => 4

def tryFrom : Nat → Option TransactionType
  | 0 => some connect
  | 1 => some put
  | 2 => some get
  | 3 => some subscribe
  | 4 => some update
  | _ => none

theorem tryFrom_toByte (ty : TransactionType) : tryFrom ty.toByte.toNat = some ty := by
  cases ty <;> rfl

theorem isSome_tryFrom_iff (n : Nat) : (tryFrom n).isSome ↔ n ≤ 4 := by
  match n with
  | 0 | 1 | 2 | 3 | 4 => decide
  | n + 5 => simp [tryFrom]

end TransactionType

open TransactionType
namespace Transaction

def null : Transaction := ⟨0, none⟩

def typeByte (tx : Transaction) : Nat := (tx.id &&& 0xFF#128).toNat

def transactionType (tx : Transaction) : Outcome TransactionType :=
  match TransactionType.tryFrom tx.typeByte with
  | some ty => .ok ty
  | none => .panicked .expectFailed

def update (ty : TransactionType) (id : Ulid) (parent : Option Ulid) : Transaction :=
  ⟨(id &&& 0xFFFFFFFFFFFFFFFFFFFFFFFFFFFFFF00#128) ||| ty.toByte, parent⟩

def new (ty : TransactionType) (id : Ulid) : Transaction := update ty id none

def newChildOf (ty : TransactionType) (id : Ulid) (parent : Transaction) : Transaction :=
  update ty id (some parent.id)

def WellTyped (tx : Transaction) : Prop := tx.typeByte ≤ 4

instance (tx : Transaction) : Decidable tx.WellTyped := inferInstanceAs (Decidable (_ ≤ _))

theorem transactionType_returns_iff (tx : Transaction) : tx.transactionType.Returns ↔ tx.WellTyped := by
  unfold transactionType WellTyped
  rw [← isSome_tryFrom_iff]
  cases tryFrom tx.typeByte with
  | some ty => simp
  | none => simp

variable (ty : TransactionType) (id : Ulid) (parent : Option Ulid)

theorem typeByte_update : (update ty id parent).typeByte = ty.toByte.toNat := by
  have hlow : ty.toByte &&& 0xFF#128 = ty.toByte := by
    cases ty <;> decide
  unfold typeByte
  congr 1
  calc ((id &&& 0xFFFFFFFFFFFFFFFFFFFFFFFFFFFFFF00#128) ||| ty.toByte) &&& 0xFF#128
      = (id &&& (0xFFFFFFFFFFFFFFFFFFFFFFFFFFFFFF00#128 &&& 0xFF#128)) ||| (ty.toByte &&& 0xFF#128) := by
        ext i hi
        simp only [BitVec.getElem_and, BitVec.getElem_or]
        rw [Bool.and_or_distrib_right, Bool.and_assoc]
    _ = (id &&& 0#128) ||| ty.toByte := by rw [hlow]; rfl
    _ = ty.toByte := by simp

/-- The ids a node creates carry the type they were created with. -/
theorem transactionType_update : (update ty id parent).transactionType = .ok ty := by
  rw [transactionType, typeByte_update, tryFrom_toByte]

theorem update_wellTyped : (update ty id parent).WellTyped := by
  rw [← transactionType_returns_iff, transactionType_update]
  exact Outcome.returns_ok ty

end Transaction

end Transactions

/-! The operation manager, and the way of a message to the task that runs its operation. -/
open Outcome

abbrev SocketAddr := Nat

structure OpEnum (D : Type) where
  kind : TransactionType
  id : Transaction
  data : D

inductive OpNotAvailable where
  | running
  | completed
  deriving DecidableEq, Repr

inductive OpError where
  | statePushed
  | opNotPresent (tx : Transaction)
  | opNotAvailable (state : OpNotAvailable)
  | incorrectTxType (expected found : TransactionType)
  | notificationError
  | unexpectedOpState
  | ringError
  | contractError
  | executorError
  | connError
  | invalidTransition (tx : Transaction)
  | orphanStreamClaimFailed
  | streamCancelled
  deriving DecidableEq

structure SubOperationTracker (D : Type) where
  subOperations : Table Transaction (List Transaction)
  expectedSubOperations : Table Transaction Nat
  parentOf : Table Transaction Transaction
  rootOpsAwaitingSubOps : List (Transaction × OpEnum D)
  failedParents : List Transaction

structure OpManager (D : Type) where
  ops : TransactionType → Table Transaction (OpEnum D)
  completedOps : List Transaction
  underProgress : List Transaction
  peerForTx : Table Transaction SocketAddr
  subOpTracker : SubOperationTracker D

/-- What the operation manager's functions depend on besides its state. -/
structure OpEnvironment where
  build : Build
  timedOut : Transaction → Bool
  newTransactionsOpen : Bool

namespace SubOperationTracker
variable {D : Type} (t : SubOperationTracker D)

def markSubOpCompleted (root : Transaction) : SubOperationTracker D :=
  match t.expectedSubOperations.get root with
  | none => t
  | some expected =>
    { t with expectedSubOperations := if expected - 1 = 0 then t.expectedSubOperations.remove root
        else t.expectedSubOperations.insert root (expected - 1) }

def removeChildLink (parent child : Transaction) : SubOperationTracker D :=
  { t with
    subOperations := match t.subOperations.get parent with
      | none => t.subOperations
      | some children => if children.filter (· ≠ child) = [] then t.subOperations.remove parent
          else t.subOperations.insert parent (children.filter (· ≠ child))
    parentOf := t.parentOf.remove child }

def cleanupParentTracking (parent : Transaction) : SubOperationTracker D :=
  { t with
    expectedSubOperations := t.expectedSubOperations.remove parent
    subOperations := t.subOperations.remove parent }

def expectAndRegisterSubOperation (parent child : Transaction) : SubOperationTracker D :=
  { t with
    expectedSubOperations := t.expectedSubOperations.insert parent
      ((t.expectedSubOperations.get parent).getD 0 + 1)
    subOperations := t.subOperations.insert parent (child :: (t.subOperations.get parent).getD [])
    parentOf := t.parentOf.insert child parent }

def allSubOperationsCompleted (parent : Transaction) (completed : List Transaction) : Bool :=
  (t.expectedSubOperations.get parent).getD 0 = 0 ∧
    ((t.subOperations.get parent).getD []).all (· ∈ completed)

def isAwaiting (root : Transaction) : Bool := t.rootOpsAwaitingSubOps.any (·.1 = root)

def finishRoot (root : Transaction) : SubOperationTracker D :=
  { t.cleanupParentTracking root with
    rootOpsAwaitingSubOps := t.rootOpsAwaitingSubOps.filter (·.1 ≠ root)
    failedParents := t.failedParents.filter (· ≠ root) }

theorem markSubOpCompleted_rootOps (root : Transaction) :
    (t.markSubOpCompleted root).rootOpsAwaitingSubOps = t.rootOpsAwaitingSubOps := by
  unfold markSubOpCompleted
  cases t.expectedSubOperations.get root <;> rfl

theorem length_rootOps_finishRoot_lt (root : Transaction) (h : t.isAwaiting root = true) :
    (t.finishRoot root).rootOpsAwaitingSubOps.length < t.rootOpsAwaitingSubOps.length := by
  obtain ⟨op, hop, hroot⟩ := List.any_eq_true.mp h
  refine List.length_filter_lt_length_iff_exists.mpr ⟨op, hop, ?_⟩
  simpa using hroot

end SubOperationTracker

namespace OpManager
variable {D : Type} (env : OpEnvironment) (m : OpManager D)

def new : OpManager D :=
  ⟨fun _ => .empty, [], [], .empty, ⟨.empty, .empty, .empty, [], []⟩⟩

/-- Keep the state of an operation, unless its transaction is completed or has timed out. -/
def push (id : Transaction) (op : OpEnum D) : Outcome (OpManager D × Except OpError Unit) :=
  if id ∈ m.completedOps then .ok (m, .ok ())
  else
    let expired := id ∈ m.underProgress ∧ env.timedOut id = true
    let m := { m with underProgress := m.underProgress.filter (· ≠ id) }
    if expired then .ok ({ m with completedOps := id :: m.completedOps }, .ok ())
    else if env.newTransactionsOpen = false then .ok (m, .error .notificationError)
    else
      let kept := { m with
        ops := Function.update m.ops op.kind ((m.ops op.kind).insert id op) }
      if env.build.debugAssertions then do
        let ty ← id.transactionType
        if ty ≠ op.kind then .ok (m, .error (.incorrectTxType op.kind ty)) else .ok (kept, .ok ())
      else .ok (kept, .ok ())

/-- Take the state of an operation out; its transaction is then under progress. -/
def pop (id : Transaction) : Outcome (OpManager D × Except OpNotAvailable (Option (OpEnum D))) :=
  if id ∈ m.completedOps then .ok (m, .error .completed)
  else if id ∈ m.underProgress then
    if env.timedOut id then
      .ok ({ m with completedOps := id :: m.completedOps }, .error .completed)
    else .ok (m, .error .running)
  else do
    let ty ← id.transactionType
    .ok ({ m with
        ops := Function.update m.ops ty ((m.ops ty).remove id)
        underProgress := id :: m.underProgress },
      .ok ((m.ops ty).get id))

/-- Where an operation's first message goes, read without taking the operation. -/
def peekNextHopAddr (nextHop : OpEnum D → Option SocketAddr) (id : Transaction) :
    Outcome (Option SocketAddr) :=
  if id ∈ m.completedOps ∨ id ∈ m.underProgress then .ok none
  else do
    let ty ← id.transactionType
    .ok (((m.ops ty).get id).bind nextHop)

def sendingTransaction (peer : SocketAddr) (tx : Transaction) (requestsLocation : Bool) :
    Outcome (OpManager D) := do
  if requestsLocation then
    let _ ← tx.transactionType
    .ok { m with peerForTx := m.peerForTx.insert tx peer }
  else .ok { m with peerForTx := m.peerForTx.insert tx peer }

variable {env m} {id : Transaction}

theorem push_returns (hid : id.WellTyped) (op : OpEnum D) : (m.push env id op).Returns := by
  obtain ⟨ty, hty⟩ := id.transactionType_returns_iff.mpr hid
  unfold push
  dsimp only
  rw [hty, ok_bind]
  split_ifs <;> exact returns_ok _

/-- Taking an operation out panics exactly for a new transaction without a type. -/
theorem pop_returns_iff (id : Transaction) : (m.pop env id).Returns ↔
    id ∈ m.completedOps ∨ id ∈ m.underProgress ∨ id.WellTyped := by
  unfold pop
  split_ifs with hcompl hprog
  · simp [hcompl]
  · simp [hprog]
  · simp [hprog]
  · rw [returns_bind_ok_iff, Transaction.transactionType_returns_iff]
    simp [hcompl, hprog]

theorem peekNextHopAddr_returns {nextHop : OpEnum D → Option SocketAddr}
    (hid : id.WellTyped) : (m.peekNextHopAddr nextHop id).Returns := by
  unfold peekNextHopAddr
  split_ifs
  · exact returns_ok _
  · rw [returns_bind_ok_iff]
    exact id.transactionType_returns_iff.mpr hid

theorem sendingTransaction_returns {tx : Transaction} (htx : tx.WellTyped) (peer : SocketAddr)
    (requestsLocation : Bool) : (m.sendingTransaction peer tx requestsLocation).Returns := by
  unfold sendingTransaction
  split_ifs
  · rw [returns_bind_ok_iff]
    exact tx.transactionType_returns_iff.mpr htx
  · exact returns_ok _

end OpManager

def OpManager.completed {D : Type} (m : OpManager D) (id : Transaction) : OpManager D :=
  let finished : OpManager D := { m with
    peerForTx := m.peerForTx.remove id
    underProgress := m.underProgress.filter (· ≠ id)
    completedOps := id :: m.completedOps }
  match m.subOpTracker.parentOf.get id with
  | none => finished
  | some parent =>
    let tracker := (m.subOpTracker.removeChildLink parent id).markSubOpCompleted parent
    if _ : tracker.allSubOperationsCompleted parent finished.completedOps = true ∧
        tracker.isAwaiting parent = true then
      OpManager.completed { finished with subOpTracker := tracker.finishRoot parent } parent
    else { finished with subOpTracker := tracker }
termination_by m.subOpTracker.rootOpsAwaitingSubOps.length
decreasing_by
  rename_i hdone
  refine Nat.lt_of_lt_of_eq (SubOperationTracker.length_rootOps_finishRoot_lt _ _ hdone.2) ?_
  rw [SubOperationTracker.markSubOpCompleted_rootOps]
  rfl

/-- A message between nodes; `B` is what an operation's message carries besides its transaction. -/
inductive NetMessage (B : Type) where
  | connect (id : Transaction) (body : B)
  | put (id : Transaction) (body : B)
  | get (id : Transaction) (body : B)
  | subscribe (id : Transaction) (body : B)
  | update (id : Transaction) (body : B)
  | aborted (tx : Transaction)
  | neighborHosting
  | interestSync
  | readyState (ready : Bool)

namespace NetMessage
variable {B : Type}

def id : NetMessage B → Transaction
  | connect id _ => id
  | put id _ => id
  | get id _ => id
  | subscribe id _ => id
  | update id _ => id
  | aborted tx => tx
  | neighborHosting => .null
  | interestSync => .null
  | readyState _ => .null

end NetMessage

/-- The transactions an operation works with: that of the message it handles and those it
creates. -/
inductive TxRef where
  | handled
  | created (ty : TransactionType) (id : Ulid)
  | child (ty : TransactionType) (id : Ulid) (parent : Transaction)

def TxRef.resolve (tx : Transaction) : TxRef → Transaction
  | handled => tx
  | created ty id => .new ty id
  | child ty id parent => .newChildOf ty id parent

structure OpState (D : Type) where
  kind : TransactionType
  id : TxRef
  data : D

def OpState.resolve {D : Type} (tx : Transaction) (s : OpState D) : OpEnum D :=
  ⟨s.kind, s.id.resolve tx, s.data⟩

/-- A message an operation sends: its transaction, whether it asks for a location, and whether it is
the broadcast of an update. -/
structure OpMessage where
  id : TxRef
  requestsLocation : Bool
  isBroadcasting : Bool

inductive OperationResult (D : Type) where
  | completed
  | continueOp (state : OpState D)
  | sendAndContinue (msg : OpMessage) (nextHop : Option SocketAddr) (state : OpState D)
  | sendAndComplete (msg : OpMessage) (nextHop : Option SocketAddr)

inductive OpCall (D : Type) where
  | push (id : TxRef) (op : OpState D)
  | pop (id : TxRef)
  | completed (id : TxRef)
  | peekNextHopAddr (id : TxRef)
  | expectSubOperation (parent child : TxRef)
  | send (target : SocketAddr) (msg : OpMessage)

abbrev OpCall.Reply {D : Type} : OpCall D → Type
  | push _ _ => Except OpError Unit
  | pop _ => Except OpNotAvailable (Option (OpEnum D))
  | completed _ => Unit
  | peekNextHopAddr _ => Option SocketAddr
  | expectSubOperation _ _ => Unit
  | send _ _ => Bool

abbrev OpProgram (D α : Type) := Program (OpCall D) OpCall.Reply α

structure Operations (D B : Type) where
  finalized : OpEnum D → Bool
  nextHop : OpEnum D → Option SocketAddr
  initOp : TransactionType → Transaction → B → Option SocketAddr → Except OpError (OpEnum D)
  processMessage : OpEnum D → B → Option SocketAddr → OpProgram D (Except OpError (OperationResult D))
  handleAbort : OpEnum D → OpProgram D (Except OpError Unit)

inductive LogLevel where
  | debug
  | info
  | warn

/-- The event loop of a node: the operations it runs, its clock and channels, the levels it logs at,
and what other tasks do to the operation manager while a message waits. -/
structure EventLoop (D B : Type) where
  env : OpEnvironment
  operations : Operations D B
  decodeMsg : List UInt8 → Option (NetMessage B)
  logs : LogLevel → Bool
  sends : SocketAddr → Transaction → Bool
  whileAsleep : Nat → OpManager D → OpManager D

namespace EventLoop
variable {D B : Type} (node : EventLoop D B)

def logTxType (level : LogLevel) (tx : Transaction) : Outcome Unit :=
  if node.logs level then do
    let _ ← tx.transactionType
    .ok ()
  else .ok ()

def send (m : OpManager D) (target : SocketAddr) (tx : Transaction) (requestsLocation : Bool) :
    Outcome (OpManager D × Bool) := do
  let m ← m.sendingTransaction target tx requestsLocation
  .ok (m, node.sends target tx)

/-- Answer what an operation asks while it handles a message of transaction `tx`. -/
def serve (tx : Transaction) (m : OpManager D) : (c : OpCall D) → Outcome (OpManager D × c.Reply)
  | .push id op => m.push node.env (id.resolve tx) (op.resolve tx)
  | .pop id => m.pop node.env (id.resolve tx)
  | .completed id => .ok (m.completed (id.resolve tx), ())
  | .peekNextHopAddr id => do
    let addr ← m.peekNextHopAddr node.operations.nextHop (id.resolve tx)
    .ok (m, addr)
  | .expectSubOperation parent child =>
    .ok ({ m with subOpTracker :=
      m.subOpTracker.expectAndRegisterSubOperation (parent.resolve tx) (child.resolve tx) }, ())
  | .send target msg => node.send m target (msg.id.resolve tx) msg.requestsLocation

/-- The operation a message belongs to, or a new one. An operation found under another type is put
back; only a connect message is refused with the error of doing so. -/
def loadOrInit (m : OpManager D) (kind : TransactionType) (tx : Transaction) (body : B)
    (source : Option SocketAddr) : Outcome (OpManager D × Except OpError (OpEnum D)) := do
  let (m, popped) ← m.pop node.env tx
  match popped with
  | .error state => .ok (m, .error (.opNotAvailable state))
  | .ok none => .ok (m, node.operations.initOp kind tx body source)
  | .ok (some op) =>
    if op.kind = kind then .ok (m, .ok op)
    else do
      let (m, pushed) ← m.push node.env tx op
      match kind, pushed with
      | .connect, .error e => .ok (m, .error e)
      | _, _ => .ok (m, .error (.opNotPresent tx))

abbrev OpResult (D : Type) := Except OpError (Option (OpEnum D))

/-- Re-queue the state of an operation and its message for this node itself. -/
def notifyOpChange (m : OpManager D) (tx : Transaction) (op : OpEnum D) :
    Outcome (OpManager D × OpResult D) := do
  let (m, pushed) ← m.push node.env tx op
  match pushed with
  | .error e => .ok (m, .error e)
  | .ok () => .ok (m, .error .statePushed)

/-- Carry out what processing a message of transaction `tx` resulted in. -/
def handleOpResult (m : OpManager D) (tx : Transaction) (source : Option SocketAddr) :
    Except OpError (OperationResult D) → Outcome (OpManager D × OpResult D)
  | .error .statePushed => .ok (m, .ok none)
  | .error (.opNotPresent _) => .ok (m, .ok none)
  | .error e =>
    match source with
    | none => .ok (m, .error e)
    | some addr => do
      let (m, sent) ← node.send m addr tx false
      .ok (m, .error (if sent then e else .connError))
  | .ok .completed => .ok (m.completed tx, .ok none)
  | .ok (.continueOp state) =>
    let op := state.resolve tx
    if node.operations.finalized op then
      if tx ∈ m.subOpTracker.failedParents then
        let m := { m with subOpTracker := { m.subOpTracker with
          failedParents := m.subOpTracker.failedParents.filter (· ≠ tx) } }
        .ok (m.completed tx, .ok none)
      else if m.subOpTracker.allSubOperationsCompleted tx m.completedOps then
        .ok (m.completed tx, .ok (some op))
      else .ok ({ m with subOpTracker := { m.subOpTracker with
          rootOpsAwaitingSubOps := (tx, op) ::
            m.subOpTracker.rootOpsAwaitingSubOps.filter (·.1 ≠ tx) } }, .ok none)
    else do
      let (m, pushed) ← m.push node.env op.id op
      .ok (m, pushed.map fun _ => none)
  | .ok (.sendAndContinue msg nextHop state) =>
    let id := msg.id.resolve tx
    let op := state.resolve tx
    if node.operations.finalized op then
      match nextHop with
      | none => .ok (m.completed id, .ok (some op))
      | some target => do
        let (m, sent) ← node.send (m.completed id) target id msg.requestsLocation
        .ok (m, if sent then .ok (some op) else .error .connError)
    else
      match nextHop with
      | some target => do
        let (m, pushed) ← m.push node.env id op
        match pushed with
        | .error e => .ok (m, .error e)
        | .ok () => do
          let (m, sent) ← node.send m target id msg.requestsLocation
          .ok (m, if sent then .ok none else .error .connError)
      | none =>
        if node.env.build.debugAssertions ∧ msg.isBroadcasting = false then .panicked .assertion
        else node.notifyOpChange m id op
  | .ok (.sendAndComplete msg nextHop) =>
    match nextHop with
    | none => .ok (m.completed tx, .ok none)
    | some target => do
      let (m, sent) ← node.send m target (msg.id.resolve tx) msg.requestsLocation
      if sent then .ok (m.completed tx, .ok none) else .ok (m, .error .connError)

def handleOpRequest (m : OpManager D) (kind : TransactionType) (tx : Transaction) (body : B)
    (source : Option SocketAddr) : Outcome (OpManager D × OpResult D) := do
  let (m, loaded) ← node.loadOrInit m kind tx body source
  match loaded with
  | .error e => .ok (m, .error e)
  | .ok op => do
    let (m, result) ← (node.operations.processMessage op body source).run (node.serve tx) m
    node.handleOpResult m tx source result

def handlePureNetworkResult : OpResult D → OpResult D
  | .error .statePushed => .ok none
  | .error (.opNotPresent _) => .ok none
  | result => result

/-- Of the five operations only connect logs its type while it is tried. -/
def logConnect (level : LogLevel) (kind : TransactionType) (tx : Transaction) : Outcome Unit :=
  if kind = .connect then node.logTxType level tx else .ok ()

def maxRetries : Nat := 15

/-- Run the operation of a message, again after a pause while the operation is busy elsewhere. -/
def handleOpMessage (kind : TransactionType) (tx : Transaction) (body : B)
    (source : Option SocketAddr) : Nat → OpManager D → Outcome (OpManager D × OpResult D)
  | 0, m => do
    node.logTxType .warn tx
    .ok (m, .ok none)
  | attempts + 1, m => do
    node.logConnect .info kind tx
    let (m, result) ← node.handleOpRequest m kind tx body source
    match result with
    | .error (.opNotAvailable .running) =>
      handleOpMessage kind tx body source attempts (node.whileAsleep attempts m)
    | .error (.opNotAvailable .completed) => do
      node.logConnect .debug kind tx
      .ok (m, .ok none)
    | result => .ok (m, handlePureNetworkResult result)

/-- The peer gave up on a transaction; its operation, if this node has one, is told so. -/
def handleAbortedOp (m : OpManager D) (tx : Transaction) :
    Outcome (OpManager D × Except OpError Unit) := do
  let kind ← tx.transactionType
  let (m, popped) ← m.pop node.env tx
  match popped with
  | .ok (some op) =>
    if op.kind = kind then do
      let (m, aborted) ← (node.operations.handleAbort op).run (node.serve tx) m
      match aborted with
      | .error .statePushed =>
        .ok (m, if kind = .connect then .error .statePushed else .ok ())
      | aborted => .ok (m, aborted)
    else m.push node.env tx op
  | _ => .ok (m, .ok ())

def handlePureNetworkMessage (m : OpManager D) (msg : NetMessage B) (source : Option SocketAddr) :
    Outcome (OpManager D × OpResult D) :=
  match msg with
  | .connect id body => node.handleOpMessage .connect id body source maxRetries m
  | .put id body => node.handleOpMessage .put id body source maxRetries m
  | .get id body => node.handleOpMessage .get id body source maxRetries m
  | .subscribe id body => node.handleOpMessage .subscribe id body source maxRetries m
  | .update id body => node.handleOpMessage .update id body source maxRetries m
  | .aborted tx => do
    node.logTxType .debug tx
    let (m, _) ← node.handleAbortedOp m tx
    .ok (m, .ok none)
  | .neighborHosting => .ok (m, .ok none)
  | .interestSync => .ok (m, .ok none)
  | .readyState _ => .ok (m, .ok none)

def reportResult (m : OpManager D) (tx : Transaction) (result : OpResult D) :
    Outcome (OpManager D) := do
  let _ ← tx.transactionType
  match result with
  | .ok (some op) => do
    let _ ← op.id.transactionType
    .ok m
  | .ok none => .ok m
  | .error _ => .ok (m.completed tx)

def processMessageDecoupled (m : OpManager D) (msg : NetMessage B) (source : Option SocketAddr) :
    Outcome (OpManager D) := do
  let (m, result) ← node.handlePureNetworkMessage m msg source
  reportResult m msg.id result

def processMessage (m : OpManager D) (msg : NetMessage B) (source : Option SocketAddr) :
    Outcome (OpManager D) := do
  node.logTxType .debug msg.id
  node.logTxType .info msg.id
  node.processMessageDecoupled m msg source

/-- The event loop handles a message. An error in the handling of an abort ends the loop. -/
def handleInboundMessage (m : OpManager D) (msg : NetMessage B) (source : Option SocketAddr) :
    Outcome (OpManager D) := do
  node.logTxType .debug msg.id
  match msg with
  | .aborted tx => do
    let (m, _) ← node.handleAbortedOp m tx
    .ok m
  | msg => node.processMessage m msg source

/-- A peer sent bytes: the listener decodes them and hands the message to the event loop, or closes
the connection. -/
def receiveBytes (m : OpManager D) (remote : SocketAddr) (bytes : List UInt8) : Outcome (OpManager D) :=
  match node.decodeMsg bytes with
  | none => .ok m
  | some msg => do
    node.logTxType .debug msg.id
    -- queued on the event loop
    node.logTxType .debug msg.id
    node.handleInboundMessage m msg (some remote)

end EventLoop

end Freenet.Node
