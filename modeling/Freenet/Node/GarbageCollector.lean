import Freenet.Node.SubOperations
import Mathlib.Data.Rat.Defs

/-! The garbage collector of the operation manager, and what a tick of it does to a single
transaction. -/
namespace Freenet.Node
open Lib

section Passes
/-- How long an operation may take, in milliseconds. -/
def operationTtl : Nat := 60000

/-- How many lifetimes the cleanup task leaves an operation alone while a message of it is being
handled. -/
def cutoffMultiplier : Nat := 5

structure TransactionEntry (D : Type) where
  kept : Option D
  underProgress : Bool
  completed : Bool
  /-- How often the transaction stands in the channel to the cleanup task. -/
  announced : Nat
  inTtlSet : Bool
  delayed : Bool

/-- A transaction that is `elapsed` old against a limit. The cleanup task compares whole ids, so at
the very millisecond of the limit the random part decides (`tie`). -/
def olderThan (limit elapsed : Nat) (tie : Bool) : Bool := limit < elapsed || (limit = elapsed && tie)

namespace TransactionEntry
variable {D : Type} (e : TransactionEntry D)

def unknown : TransactionEntry D := ⟨none, false, false, 0, false, false⟩

/-- A transaction that is done and of which nothing else is left. -/
def finished : TransactionEntry D := ⟨none, false, true, 0, false, false⟩

def timedOut (elapsed : Nat) : Bool := operationTtl ≤ elapsed

/-- Keep the state of an operation, unless its transaction is completed or timed out while it was
being handled. -/
def push (elapsed : Nat) (channelOpen : Bool) (op : D) : TransactionEntry D × Except OpError Unit :=
  if e.completed then (e, .ok ())
  else if e.underProgress && timedOut elapsed then
    ({ e with underProgress := false, completed := true }, .ok ())
  else if channelOpen then
    ({ e with underProgress := false, announced := e.announced + 1, kept := some op }, .ok ())
  else ({ e with underProgress := false }, .error .notificationError)

/-- Take the operation out; the transaction is then under progress. -/
def pop (elapsed : Nat) : TransactionEntry D × Except OpNotAvailable (Option D) :=
  if e.completed then (e, .error .completed)
  else if e.underProgress then
    if timedOut elapsed then ({ e with completed := true }, .error .completed)
    else (e, .error .running)
  else ({ e with kept := none, underProgress := true }, .ok e.kept)

def complete : TransactionEntry D := { e with underProgress := false, completed := true }

/-- The cleanup task takes the transaction out of its channel. -/
def receiveNew : TransactionEntry D :=
  if e.announced = 0 then e else { e with announced := e.announced - 1, inTtlSet := true }

/-- A delayed transaction is let go once it is completed or its operation is kept again. -/
def collectDelayed : TransactionEntry D :=
  if e.delayed then
    if e.completed then { e with completed := false, delayed := false }
    else if e.kept.isSome then { e with kept := none, underProgress := false, delayed := false }
    else e
  else e

/-- An old transaction is forgotten, or delayed while a message of it is being handled. -/
def collectExpired (elapsed : Nat) (tie cutoffTie : Bool) : TransactionEntry D :=
  if e.inTtlSet && olderThan operationTtl elapsed tie then
    if e.underProgress && !olderThan (cutoffMultiplier * operationTtl) elapsed cutoffTie then
      { e with inTtlSet := false, delayed := true }
    else { e with inTtlSet := false, underProgress := false, completed := false, kept := none }
  else e

def cleanup (elapsed : Nat) (tie cutoffTie : Bool) : TransactionEntry D :=
  e.collectDelayed.collectExpired elapsed tie cutoffTie

variable {e} {elapsed : Nat}

theorem pop_eq (hcompl : e.completed = false) (hprog : e.underProgress = false) :
    e.pop elapsed = ({ e with kept := none, underProgress := true }, .ok e.kept) := by
  simp [pop, hcompl, hprog]

theorem push_eq (hcompl : e.completed = false)
    (hprog : e.underProgress = true → elapsed < operationTtl) (op : D) :
    e.push elapsed true op =
      ({ e with kept := some op, underProgress := false, announced := e.announced + 1 }, .ok ()) := by
  have hexpir : (e.underProgress && timedOut elapsed) = false := by
    cases hunder : e.underProgress with
    | false => rfl
    | true => simpa [timedOut] using hprog hunder
  simp [push, hcompl, hexpir]

/-- After five lifetimes a transaction is forgotten even while a message of it is being handled. -/
theorem cleanup_eq (hset : e.inTtlSet = true) (hdelayed : e.delayed = false)
    (hold : cutoffMultiplier * operationTtl < elapsed) (tie cutoffTie : Bool) :
    e.cleanup elapsed tie cutoffTie =
      { e with inTtlSet := false, underProgress := false, completed := false, kept := none } := by
  have hcutoff : olderThan (cutoffMultiplier * operationTtl) elapsed cutoffTie = true := by
    simp [olderThan, hold]
  have httl : olderThan operationTtl elapsed tie = true := by
    have hlt : operationTtl < elapsed := by
      unfold cutoffMultiplier at hold
      omega
    simp [olderThan, hlt]
  simp [cleanup, collectDelayed, collectExpired, hset, hdelayed, hcutoff, httl]

end TransactionEntry

namespace Transaction
variable (tx : Transaction)

/-- When the id was created, in milliseconds: its first 48 bits. -/
def timestampMs : Nat := tx.id.toNat / 2 ^ 80

def elapsed (now : Nat) : Nat := now - tx.timestampMs

def timedOut (now : Nat) : Bool := operationTtl ≤ tx.elapsed now

/-- The id that separates the transactions older than so many times to live; of the random part of
an id 64 bits are left in it. -/
def ttlTransactionWithMultiplier (multiplier now : Nat) (random : BitVec 64) : Nat :=
  (now - multiplier * operationTtl) * 2 ^ 80 + random.toNat

end Transaction

/-- What the collector reads of an operation; `rest` is for the operation alone. -/
structure OpProgress (A : Type) where
  clientInitiated : Bool
  /-- There are statistics on the peer it was sent to. -/
  routed : Bool
  /-- It is a subscription that is still waiting for its contract. -/
  hasInstance : Bool
  speculativePaths : Nat
  ackReceived : Bool
  rest : A
  deriving DecidableEq

deriving instance DecidableEq for OpEnum

def ackTimeout : Nat := 3000

def progressTimeout : Nat := 7000

def maxSpeculativePaths : Nat := 2

def maxSubscribeRetriesPerTick : Nat := 10

/-- What a tick depends on besides the state: random numbers, the peers an operation can still be
sent to, whether the event loop takes the message of a retry, and which subscriptions are retried
when more are due than one tick may retry. -/
structure Tick (A : Type) where
  random : BitVec 64
  absoluteRandom : BitVec 64
  jitter : Transaction → ℚ
  alternative : TransactionType → Transaction → A → Option A
  sent : Transaction → Bool
  subscribes : List Transaction
  subscribes_le : subscribes.length ≤ maxSubscribeRetriesPerTick

inductive TimeoutNotice where
  | operation (kind : TransactionType)
  | subscription
  | subOperation (child : Transaction)
  deriving DecidableEq

structure Collector (A : Type) where
  manager : OpManager (OpProgress A)
  channel : List Transaction
  ttlSet : List Transaction
  delayed : List Transaction
  retryCounts : TransactionType → Table Transaction Nat

/-- The collector in the course of a tick, with the notices it has sent. -/
structure Pass (A : Type) extends Collector A where
  notices : List (Transaction × TimeoutNotice)

structure Report where
  retries : Transaction → Bool
  notices : List (Transaction × TimeoutNotice)

variable {A : Type}

/-- An operation that is waiting too long for an acknowledgement, or for an answer after one. -/
def retryDue (now count : Nat) (jitter : ℚ) (tx : Transaction) (op : OpProgress A) : Bool :=
  let elapsed := tx.elapsed now
  let base := if op.ackReceived then progressTimeout + ackTimeout * count else ackTimeout * (count + 1)
  op.clientInitiated && decide (op.speculativePaths < maxSpeculativePaths) &&
    (!op.ackReceived || decide (progressTimeout < elapsed)) &&
    decide ((base : ℚ) * (4 / 5) < elapsed) && decide ((base : ℚ) * jitter < elapsed)

/-- The kinds of operations that are retried; unsubscriptions are kept as subscriptions without a
route. -/
def Tick.takesUp (t : Tick A) (tx : Transaction) (op : OpProgress A) : TransactionType → Bool
  | .get | .put => true
  | .subscribe => op.routed && decide (tx ∈ t.subscribes)
  | .connect | .update => false

def OpManager.removeOp {D : Type} (m : OpManager D) (ty : TransactionType)
    (tx : Transaction) : OpManager D :=
  { m with ops := Function.update m.ops ty ((m.ops ty).remove tx) }

namespace Collector
variable (build : Build) (now : Nat) (c : Collector A)

def new : Collector A := ⟨.new, [], [], [], fun _ => .empty⟩

/-- `push` first announces the transaction to the collector. -/
def announces (opened : Bool) (tx : Transaction) : Bool :=
  decide (tx ∉ c.manager.completedOps) && !(decide (tx ∈ c.manager.underProgress) &&
    tx.timedOut now) && opened

def push (opened : Bool) (tx : Transaction) (op : OpEnum (OpProgress A)) :
    Outcome (Collector A × Except OpError Unit) := do
  let (manager, result) ← c.manager.push ⟨build, (·.timedOut now), opened⟩ tx op
  .ok ({ c with
    manager := manager
    channel := if c.announces now opened tx then c.channel ++ [tx] else c.channel }, result)

def pop (tx : Transaction) :
    Outcome (Collector A × Except OpNotAvailable (Option (OpEnum (OpProgress A)))) := do
  let (manager, result) ← c.manager.pop ⟨build, (·.timedOut now), true⟩ tx
  .ok ({ c with manager := manager }, result)

def completed (tx : Transaction) : Collector A := { c with manager := c.manager.completed tx }

/-- The set of transactions is ordered by their ids, newest first, and keeps one transaction of each
id. -/
def receive : Collector A :=
  match c.channel with
  | [] => c
  | tx :: rest => { c with
      channel := rest
      ttlSet := if c.ttlSet.any (·.id = tx.id) then c.ttlSet
        else c.ttlSet.orderedInsert (fun a b => b.id ≤ a.id) tx }

variable (t : Tick A)

/-- The operation that takes the place of one that is retried. -/
def retryOf (kind : TransactionType) (tx : Transaction) (op : OpEnum (OpProgress A)) :
    Option (OpEnum (OpProgress A)) :=
  let count := ((c.retryCounts kind).get tx).getD 0
  if retryDue now count (t.jitter tx) tx op.data && t.takesUp tx op.data kind then
    (t.alternative kind tx op.data.rest).map fun rest =>
      { op with data := { op.data with
          speculativePaths := op.data.speculativePaths + 1, ackReceived := false, rest := rest } }
  else none

/-- The operation that the collector retries under a transaction. -/
def retried (kind : TransactionType) (tx : Transaction) : Option (OpEnum (OpProgress A)) :=
  ((c.manager.ops kind).get tx).bind (c.retryOf now t kind tx)

/-- One pass over the operations of a kind. A retry counts when its message is taken; counts of
operations that are no longer kept are dropped. -/
def retryPass (kind : TransactionType) : Collector A :=
  { c with
    manager := { c.manager with
      ops := Function.update c.manager.ops kind fun tx =>
        ((c.manager.ops kind).get tx).map fun op => (c.retryOf now t kind tx op).getD op }
    retryCounts := Function.update c.retryCounts kind fun tx =>
      ((c.manager.ops kind).get tx).bind fun op =>
        if (c.retryOf now t kind tx op).isSome && t.sent tx then
          some (((c.retryCounts kind).get tx).getD 0 + 1)
        else (c.retryCounts kind).get tx }

def retryAll : Collector A :=
  ((c.retryPass now t .get).retryPass now t .subscribe).retryPass now t .put

def retries (tx : Transaction) : Bool :=
  [TransactionType.get, .subscribe, .put].any fun kind => (c.retried now t kind tx).isSome

end Collector

def timeoutNotices (kind : TransactionType) (tx : Transaction) (op : OpProgress A) :
    List (Transaction × TimeoutNotice) :=
  match kind with
  | .connect => []
  | .put | .get | .update => if op.clientInitiated then [(tx, .operation kind)] else []
  | .subscribe => if op.hasInstance then [(tx, .subscription)] else []

namespace Pass
variable (p : Pass A)

def removeTimedOut (ty : TransactionType) (tx : Transaction) : Option (Pass A) :=
  ((p.manager.ops ty).get tx).map fun op =>
    { p with
      manager := p.manager.removeOp ty tx
      notices := p.notices ++ timeoutNotices ty tx op.data }

def unmarkProgress (tx : Transaction) : Pass A :=
  { p with manager := { p.manager with
      underProgress := p.manager.underProgress.filter (· ≠ tx) } }

def unmarkCompleted (tx : Transaction) : Pass A :=
  { p with manager := { p.manager with
      completedOps := p.manager.completedOps.filter (· ≠ tx) } }

def forgetRetries (tx : Transaction) : Pass A :=
  { p with retryCounts := fun kind =>
      match kind with
      | .get | .subscribe | .put => (p.retryCounts kind).remove tx
      | .connect | .update => p.retryCounts kind }

def delay (tx : Transaction) : Pass A := { p with delayed := p.delayed ++ [tx] }

def failParent (tx : Transaction) : Pass A :=
  let (manager, sent) := p.manager.subOperationTimedOut tx
  { p with
    manager := manager
    notices := p.notices ++ sent.map fun result => (result.1, .subOperation tx) }

def collectDelayed (tx : Transaction) : Outcome (Pass A) :=
  if tx ∈ p.manager.completedOps then .ok (p.unmarkCompleted tx)
  else do
    let ty ← tx.transactionType
    match p.removeTimedOut ty tx with
    | none => .ok (p.delay tx)
    | some p' => .ok ((((p'.forgetRetries tx).unmarkProgress tx).unmarkCompleted tx).failParent tx)

def collectExpired (absoluteCutoff : Nat) (tx : Transaction) : Outcome (Pass A) :=
  if tx ∈ p.manager.underProgress ∧ absoluteCutoff < tx.id.toNat then .ok (p.delay tx)
  else do
    let p := (p.unmarkProgress tx).unmarkCompleted tx
    let ty ← tx.transactionType
    match p.removeTimedOut ty tx with
    | none => .ok p
    | some p' => .ok (p'.failParent tx)

end Pass

namespace Collector
variable (now : Nat) (c : Collector A)

/-- The ids up to this one are past their time to live. -/
def ttlCutoff (t : Tick A) : Nat := Transaction.ttlTransactionWithMultiplier 1 now t.random

def absoluteCutoff (t : Tick A) : Nat :=
  Transaction.ttlTransactionWithMultiplier cutoffMultiplier now t.absoluteRandom

/-- The transactions of the set that are past their time to live. -/
def expired (t : Tick A) : List Transaction := c.ttlSet.filter fun tx => tx.id.toNat ≤ ttlCutoff now t

def unexpired (t : Tick A) : List Transaction := c.ttlSet.filter fun tx => ttlCutoff now t < tx.id.toNat

def tick (t : Tick A) : Outcome (Collector A × Report) := do
  let retried := c.retryAll now t
  let waited ← retried.delayed.foldlM Pass.collectDelayed ⟨{ retried with delayed := [] }, []⟩
  let collected ← (c.expired now t).foldlM (fun p tx => p.collectExpired (absoluteCutoff now t) tx)
    { waited with ttlSet := c.unexpired now t }
  .ok (collected.toCollector, ⟨c.retries now t, collected.notices⟩)

end Collector

open Collector OpManager
namespace OpManager
variable {D : Type} {m : OpManager D} {ty kind : TransactionType} {tx tx' : Transaction}

theorem get_ops_removeOp : ((m.removeOp ty tx).ops kind).get tx' =
    if kind = ty ∧ tx' = tx then none else (m.ops kind).get tx' := by
  unfold removeOp
  by_cases hkind : kind = ty
  · subst hkind
    simp [Table.get_remove]
  · simp [hkind]

@[simp]
theorem subOperationTimedOut_ops : (m.subOperationTimedOut tx).1.ops = m.ops := by
  unfold subOperationTimedOut
  cases m.subOpTracker.parentOf.get tx <;> rfl

@[simp]
theorem subOperationTimedOut_completedOps : (m.subOperationTimedOut tx).1.completedOps = m.completedOps := by
  unfold subOperationTimedOut
  cases m.subOpTracker.parentOf.get tx <;> rfl

@[simp]
theorem subOperationTimedOut_underProgress :
    (m.subOperationTimedOut tx).1.underProgress = m.underProgress := by
  unfold subOperationTimedOut
  cases m.subOpTracker.parentOf.get tx <;> rfl

end OpManager

namespace Collector
variable (c : Collector A)

def kept (tx : Transaction) : Option (OpEnum (OpProgress A)) :=
  match tx.transactionType with
  | .ok ty => (c.manager.ops ty).get tx
  | .panicked _ => none

def entry (tx : Transaction) : TransactionEntry (OpEnum (OpProgress A)) where
  kept := c.kept tx
  underProgress := decide (tx ∈ c.manager.underProgress)
  completed := decide (tx ∈ c.manager.completedOps)
  announced := c.channel.count tx
  inTtlSet := decide (tx ∈ c.ttlSet)
  delayed := decide (tx ∈ c.delayed)

variable {c} {tx : Transaction}

theorem kept_of_type {ty : TransactionType} (hty : tx.transactionType = .ok ty) :
    c.kept tx = (c.manager.ops ty).get tx := by
  simp [kept, hty]

theorem entry_eq {e : TransactionEntry (OpEnum (OpProgress A))} (hkept : c.kept tx = e.kept)
    (hprog : tx ∈ c.manager.underProgress ↔ e.underProgress = true)
    (hcompl : tx ∈ c.manager.completedOps ↔ e.completed = true)
    (hannounc : c.channel.count tx = e.announced) (httl : tx ∈ c.ttlSet ↔ e.inTtlSet = true)
    (hdelayed : tx ∈ c.delayed ↔ e.delayed = true) : c.entry tx = e := by
  simp_all [entry]

theorem kept_congr {c' : Collector A}
    (h : ∀ ty, (c'.manager.ops ty).get tx = (c.manager.ops ty).get tx) : c'.kept tx = c.kept tx := by
  unfold kept
  cases tx.transactionType with
  | ok ty => exact h ty
  | panicked r => rfl

end Collector

namespace Pass
variable {p p' : Pass A} {tx tx' : Transaction} {ty : TransactionType}

theorem entry_unmarkCompleted : (p.unmarkCompleted tx).entry tx' =
    if tx' = tx then { p.entry tx' with completed := false } else p.entry tx' := by
  by_cases h : tx' = tx <;> refine entry_eq ?_ ?_ ?_ ?_ ?_ ?_ <;>
    simp [unmarkCompleted, entry, kept, h]

theorem entry_unmarkProgress : (p.unmarkProgress tx).entry tx' =
    if tx' = tx then { p.entry tx' with underProgress := false } else p.entry tx' := by
  by_cases h : tx' = tx <;> refine entry_eq ?_ ?_ ?_ ?_ ?_ ?_ <;>
    simp [unmarkProgress, entry, kept, h]

theorem entry_delay : (p.delay tx).entry tx' =
    if tx' = tx then { p.entry tx' with delayed := true } else p.entry tx' := by
  by_cases h : tx' = tx <;> refine entry_eq ?_ ?_ ?_ ?_ ?_ ?_ <;>
    simp [delay, entry, kept, h]

@[simp]
theorem entry_failParent : (p.failParent tx).entry tx' = p.entry tx' := by
  refine entry_eq ?_ ?_ ?_ ?_ ?_ ?_ <;> simp [failParent, entry, kept]

def removed (p : Pass A) (ty : TransactionType) (tx : Transaction) (op : OpEnum (OpProgress A)) : Pass A :=
  { p with
    manager := p.manager.removeOp ty tx
    notices := p.notices ++ timeoutNotices ty tx op.data }

@[simp]
theorem entry_forgetRetries : (p.forgetRetries tx).entry tx' = p.entry tx' := rfl

theorem removeTimedOut_eq : p.removeTimedOut ty tx = ((p.manager.ops ty).get tx).map (p.removed ty tx) :=
  rfl

theorem kept_removed (hty : tx.transactionType = .ok ty) (op : OpEnum (OpProgress A)) :
    (p.removed ty tx op).kept tx' = if tx' = tx then none else p.kept tx' := by
  by_cases h : tx' = tx
  · subst h
    rw [kept_of_type hty]
    simp [removed, get_ops_removeOp]
  · rw [if_neg h]
    refine kept_congr fun ty' => ?_
    simp [removed, get_ops_removeOp, h]

theorem entry_removed (hty : tx.transactionType = .ok ty) (op : OpEnum (OpProgress A)) :
    (p.removed ty tx op).entry tx' = if tx' = tx then { p.entry tx' with kept := none }
      else p.entry tx' := by
  have hkept : (p.removed ty tx op).kept tx' = if tx' = tx then none else p.kept tx' :=
    kept_removed hty op
  by_cases h : tx' = tx
  · rw [if_pos h] at hkept ⊢
    refine entry_eq hkept ?_ ?_ ?_ ?_ ?_ <;> simp [removed, removeOp, entry]
  · rw [if_neg h] at hkept ⊢
    refine entry_eq hkept ?_ ?_ ?_ ?_ ?_ <;> simp [removed, removeOp, entry]

end Pass

/-- A delayed transaction is let go once it is completed or its operation is kept again. -/
def TransactionEntry.revisit {D : Type} (e : TransactionEntry D) : TransactionEntry D :=
  if e.completed then { e with completed := false }
  else if e.kept.isSome then { e with kept := none, underProgress := false }
  else { e with delayed := true }

/-- A transaction past its time to live is forgotten, or delayed while a message of it is
handled. -/
def TransactionEntry.expire {D : Type} (older : Bool) (e : TransactionEntry D) : TransactionEntry D :=
  if e.underProgress && !older then { e with delayed := true }
  else { e with kept := none, underProgress := false, completed := false }

namespace Pass
variable {p p' : Pass A} {tx tx' : Transaction}

theorem entry_collectDelayed (h : p.collectDelayed tx = .ok p') : p'.entry tx' =
    if tx' = tx then (p.entry tx').revisit else p.entry tx' := by
  unfold collectDelayed at h
  by_cases hcompl : tx ∈ p.manager.completedOps
  · rw [if_pos hcompl] at h
    cases h
    rw [entry_unmarkCompleted]
    by_cases htx : tx' = tx
    · simp [htx, TransactionEntry.revisit, entry, hcompl]
    · simp [htx]
  · rw [if_neg hcompl, Outcome.bind_eq_ok_iff] at h
    obtain ⟨ty, hty, h⟩ := h
    rw [removeTimedOut_eq] at h
    cases hop : (p.manager.ops ty).get tx with
    | none =>
      rw [hop] at h
      cases h
      rw [entry_delay]
      by_cases htx : tx' = tx
      · simp [htx, TransactionEntry.revisit, entry, hcompl, kept_of_type hty, hop]
      · simp [htx]
    | some op =>
      rw [hop] at h
      cases h
      simp only [entry_failParent, entry_unmarkCompleted, entry_unmarkProgress, entry_forgetRetries,
        entry_removed hty]
      by_cases htx : tx' = tx
      · simp [htx, TransactionEntry.revisit, entry, hcompl, kept_of_type hty, hop]
      · simp [htx]

theorem entry_collectExpired {cutoff : Nat} (h : p.collectExpired cutoff tx = .ok p') : p'.entry tx' =
    if tx' = tx then (p.entry tx').expire (tx'.id.toNat ≤ cutoff) else p.entry tx' := by
  unfold collectExpired at h
  by_cases hdelay : tx ∈ p.manager.underProgress ∧ cutoff < tx.id.toNat
  · rw [if_pos hdelay] at h
    cases h
    rw [entry_delay]
    by_cases htx : tx' = tx
    · simp [htx, TransactionEntry.expire, entry, hdelay]
    · simp [htx]
  · rw [if_neg hdelay] at h
    rw [Outcome.bind_eq_ok_iff] at h
    obtain ⟨ty, hty, h⟩ := h
    have hexpire : ¬ ((p.entry tx).underProgress && !decide (tx.id.toNat ≤ cutoff)) = true := by
      simpa [entry] using hdelay
    rw [removeTimedOut_eq] at h
    cases hop : (((p.unmarkProgress tx).unmarkCompleted tx).manager.ops ty).get tx with
    | none =>
      rw [hop] at h
      cases h
      rw [entry_unmarkCompleted, entry_unmarkProgress]
      have hkept : p.kept tx = none := (kept_of_type hty).trans hop
      by_cases htx : tx' = tx
      · subst htx
        rw [TransactionEntry.expire, if_neg hexpire]
        simp [entry, hkept]
      · simp [htx]
    | some op =>
      rw [hop] at h
      cases h
      rw [entry_failParent, entry_removed hty, entry_unmarkCompleted, entry_unmarkProgress]
      by_cases htx : tx' = tx
      · subst htx
        rw [TransactionEntry.expire, if_neg hexpire]
        simp
      · simp [htx]

end Pass

end Passes

/-! Ticks of the garbage collector only take operations away, and notify only of these. -/
open Outcome TransactionEntry Transaction

variable {A : Type}

def OpManager.NoParents {D : Type} (m : OpManager D) : Prop :=
  ∀ tx, m.subOpTracker.parentOf.get tx = none

theorem OpManager.NoParents.subOperationTimedOut {D : Type} {m : OpManager D} (h : m.NoParents)
    (tx : Transaction) : m.subOperationTimedOut tx = (m, []) := by
  unfold OpManager.subOperationTimedOut
  rw [h tx]

namespace Pass

/-- What a step of a pass over transactions leaves as it is or makes smaller. -/
structure Shrinks (p : Pass A) (tx : Transaction) (p' : Pass A) : Prop where
  channel : p'.channel = p.channel
  ttlSet : p'.ttlSet = p.ttlSet
  delayed : p'.delayed = p.delayed ∨ p'.delayed = p.delayed ++ [tx]
  ops : ∀ {kind tx' op}, (p'.manager.ops kind).get tx' = some op → (p.manager.ops kind).get tx' = some op
  noParents : p.manager.NoParents → p'.manager.NoParents
  notices : p.manager.NoParents → ∀ n ∈ p'.notices,
    n ∈ p.notices ∨ ∃ kind op, (p.manager.ops kind).get n.1 = some op

variable {p p' : Pass A} {tx : Transaction} {ty : TransactionType}

theorem shrinks_of_manager {m : OpManager (OpProgress A)} (hops : m.ops = p.manager.ops)
    (htrack : m.subOpTracker = p.manager.subOpTracker) :
    p.Shrinks tx { p with manager := m } where
  channel := rfl
  ttlSet := rfl
  delayed := .inl rfl
  ops h := hops ▸ h
  noParents h tx' := htrack ▸ h tx'
  notices _ _ hn := .inl hn

theorem shrinks_delay : p.Shrinks tx (p.delay tx) where
  channel := rfl
  ttlSet := rfl
  delayed := .inr rfl
  ops h := h
  noParents h := h
  notices _ _ hn := .inl hn

variable {kind : TransactionType} {cutoff : Nat}

theorem mem_timeoutNotices {op : OpProgress A} {n : Transaction × TimeoutNotice}
    (hn : n ∈ timeoutNotices kind tx op) : n.1 = tx := by
  unfold timeoutNotices at hn
  cases kind <;> simp at hn <;> rw [hn.2]

theorem ops_removed {op op' : OpEnum (OpProgress A)} {tx' : Transaction}
    (h : ((p.removed ty tx op).manager.ops kind).get tx' = some op') :
    (p.manager.ops kind).get tx' = some op' := by
  have hget : ((p.manager.removeOp ty tx).ops kind).get tx' = some op' := h
  rw [OpManager.get_ops_removeOp] at hget
  split_ifs at hget
  exact hget

theorem shrinks_failParent {q : Pass A} {op : OpEnum (OpProgress A)}
    (hop : (p.manager.ops ty).get tx = some op) (hq : q.manager.ops = (p.removed ty tx op).manager.ops)
    (htrack : q.manager.subOpTracker = p.manager.subOpTracker) (hchan : q.channel = p.channel)
    (httl : q.ttlSet = p.ttlSet) (hdelayed : q.delayed = p.delayed)
    (hnotic : q.notices = (p.removed ty tx op).notices) : p.Shrinks tx (q.failParent tx) where
  channel := hchan
  ttlSet := httl
  delayed := .inl hdelayed
  ops h := by
    have hsame : (q.failParent tx).manager.ops = (p.removed ty tx op).manager.ops :=
      OpManager.subOperationTimedOut_ops.trans hq
    rw [hsame] at h
    exact ops_removed h
  noParents h := by
    have hroots : q.manager.NoParents := fun tx' => htrack ▸ h tx'
    have hsame : (q.failParent tx).manager = q.manager :=
      congrArg Prod.fst (hroots.subOperationTimedOut tx)
    rw [hsame]
    exact hroots
  notices h n hn := by
    have hroots : q.manager.NoParents := fun tx' => htrack ▸ h tx'
    have hsame : (q.failParent tx).notices = q.notices := by
      simp [failParent, hroots.subOperationTimedOut]
    rw [hsame, hnotic] at hn
    rcases List.mem_append.mp hn with hold | hnew
    · exact .inl hold
    · exact .inr ⟨ty, op, (mem_timeoutNotices hnew).symm ▸ hop⟩

theorem shrinks_collectDelayed (h : p.collectDelayed tx = .ok p') : p.Shrinks tx p' := by
  unfold collectDelayed at h
  split_ifs at h with hcompl
  · cases h
    exact shrinks_of_manager rfl rfl
  · rw [bind_eq_ok_iff] at h
    obtain ⟨ty, -, h⟩ := h
    rw [removeTimedOut_eq] at h
    cases hop : (p.manager.ops ty).get tx with
    | none =>
      rw [hop] at h
      cases h
      exact shrinks_delay
    | some op =>
      rw [hop] at h
      cases h
      exact shrinks_failParent hop rfl rfl rfl rfl rfl rfl

theorem shrinks_collectExpired (h : p.collectExpired cutoff tx = .ok p') : p.Shrinks tx p' := by
  unfold collectExpired at h
  split_ifs at h with hdelay
  · cases h
    exact shrinks_delay
  · rw [bind_eq_ok_iff] at h
    obtain ⟨ty, -, h⟩ := h
    rw [removeTimedOut_eq] at h
    cases hop : (p.manager.ops ty).get tx with
    | none =>
      have hop' : (((p.unmarkProgress tx).unmarkCompleted tx).manager.ops ty).get tx = none := hop
      rw [hop'] at h
      cases h
      exact shrinks_of_manager rfl rfl
    | some op =>
      have hop' : (((p.unmarkProgress tx).unmarkCompleted tx).manager.ops ty).get tx = some op := hop
      rw [hop'] at h
      cases h
      exact shrinks_failParent hop rfl rfl rfl rfl rfl rfl

theorem collectDelayed_returns (h : tx.WellTyped) : (p.collectDelayed tx).Returns := by
  obtain ⟨ty, hty⟩ := tx.transactionType_returns_iff.mpr h
  unfold collectDelayed
  rw [hty, ok_bind]
  split_ifs
  · exact returns_ok _
  · split <;> exact returns_ok _

theorem collectExpired_returns (h : tx.WellTyped) : (p.collectExpired cutoff tx).Returns := by
  obtain ⟨ty, hty⟩ := tx.transactionType_returns_iff.mpr h
  unfold collectExpired
  rw [hty, ok_bind]
  split_ifs
  · exact returns_ok _
  · split <;> exact returns_ok _

/-- A pass has taken away operations of the collector it started from, and notified of no others. -/
structure Within (p : Pass A) (c : Collector A) : Prop where
  channel : p.channel = c.channel
  ops : ∀ {kind tx op}, (p.manager.ops kind).get tx = some op → (c.manager.ops kind).get tx = some op
  noParents : c.manager.NoParents → p.manager.NoParents
  notices : c.manager.NoParents → ∀ n ∈ p.notices, ∃ kind op, (c.manager.ops kind).get n.1 = some op

theorem Within.step {c : Collector A} (hp : p.Within c) (h : p.Shrinks tx p') : p'.Within c where
  channel := h.channel.trans hp.channel
  ops hop := hp.ops (h.ops hop)
  noParents hc := h.noParents (hp.noParents hc)
  notices hc n hn := by
    rcases h.notices (hp.noParents hc) n hn with hold | ⟨kind, op, hop⟩
    · exact hp.notices hc n hold
    · exact ⟨kind, op, hp.ops hop⟩

end Pass

namespace Collector
variable {now : Nat} {c c' : Collector A} {t : Tick A} {r : Report}
  {kind : TransactionType} {tx : Transaction}

theorem get_ops_retryAll : ((c.retryAll now t).manager.ops kind).get tx =
    ((c.manager.ops kind).get tx).map fun op => (c.retryOf now t kind tx op).getD op := by
  have hid (h : ∀ op, c.retryOf now t kind tx op = none) :
      ((c.manager.ops kind).get tx).map (fun op => (c.retryOf now t kind tx op).getD op) =
        (c.manager.ops kind).get tx := by
    simp [h]
  cases kind with
  | connect | update =>
    rw [hid fun op => by simp [retryOf, Tick.takesUp]]
    rfl
  | get => rfl
  | subscribe => rfl
  | put => rfl

theorem isSome_ops_retryAll :
    (((c.retryAll now t).manager.ops kind).get tx).isSome = ((c.manager.ops kind).get tx).isSome := by
  rw [get_ops_retryAll, Option.isSome_map]

theorem tick_eq_ok_iff : c.tick now t = .ok (c', r) ↔ ∃ waited collected : Pass A,
    c.delayed.foldlM Pass.collectDelayed ⟨{ c.retryAll now t with delayed := [] }, []⟩ = .ok waited ∧
    (c.expired now t).foldlM (fun p tx => p.collectExpired (absoluteCutoff now t) tx)
      { waited with ttlSet := c.unexpired now t } = .ok collected ∧
    c' = collected.toCollector ∧ r = ⟨c.retries now t, collected.notices⟩ := by
  unfold tick
  rw [bind_eq_ok_iff]
  refine exists_congr fun waited => ?_
  rw [bind_eq_ok_iff]
  constructor
  · rintro ⟨hwaited, collected, hcoll, h⟩
    cases h
    exact ⟨collected, hwaited, hcoll, rfl, rfl⟩
  · rintro ⟨collected, hwaited, hcoll, rfl, rfl⟩
    exact ⟨hwaited, collected, hcoll, rfl⟩

theorem tick_returns (hdelayed : ∀ tx ∈ c.delayed, tx.WellTyped) (httl : ∀ tx ∈ c.ttlSet, tx.WellTyped) :
    (c.tick now t).Returns := by
  unfold tick
  rw [returns_bind_iff]
  have hpass : ((c.retryAll now t).delayed.foldlM Pass.collectDelayed
      ⟨{ c.retryAll now t with delayed := [] }, []⟩).Returns :=
    foldlM_returns (fun p tx htx => Pass.collectDelayed_returns (hdelayed tx htx)) _
  obtain ⟨waited, hwaited⟩ := hpass
  refine ⟨waited, hwaited, ?_⟩
  rw [returns_bind_ok_iff]
  refine foldlM_returns ?_ _
  intro p tx htx
  exact Pass.collectExpired_returns (httl tx (List.mem_filter.mp htx).1)

structure Shrinks (now : Nat) (t : Tick A) (c c' : Collector A) (r : Report) : Prop where
  channel : c'.channel = c.channel
  ttlSet : c'.ttlSet = c.unexpired now t
  delayed : ∃ waiting added, waiting.Sublist c.delayed ∧ added.Sublist (c.expired now t) ∧
    c'.delayed = waiting ++ added
  ops : ∀ {kind tx op}, (c'.manager.ops kind).get tx = some op →
    ((c.retryAll now t).manager.ops kind).get tx = some op
  noParents : c.manager.NoParents → c'.manager.NoParents
  notices : c.manager.NoParents → ∀ n ∈ r.notices,
    ∃ kind op, ((c.retryAll now t).manager.ops kind).get n.1 = some op

theorem tick_shrinks (h : c.tick now t = .ok (c', r)) : Shrinks now t c c' r := by
  obtain ⟨waited, collected, hwaited, hcoll, rfl, rfl⟩ := tick_eq_ok_iff.mp h
  have hstart : Pass.Within ⟨{ c.retryAll now t with delayed := [] }, []⟩ (c.retryAll now t) :=
    ⟨rfl, id, id, fun _ _ hn => nomatch hn⟩
  have hmiddle : waited.Within (c.retryAll now t) := by
    refine foldlM_invariant (Pass.Within · (c.retryAll now t)) ?_ hstart hwaited
    intro p p' tx _ hp hstep
    exact hp.step (Pass.shrinks_collectDelayed hstep)
  have hend : collected.Within (c.retryAll now t) := by
    refine foldlM_invariant (Pass.Within · (c.retryAll now t)) ?_ ?_ hcoll
    · intro p p' tx _ hp hstep
      exact hp.step (Pass.shrinks_collectExpired hstep)
    · exact { hmiddle with }
  have httl : collected.ttlSet = c.unexpired now t := by
    refine foldlM_invariant (fun p : Pass A => p.ttlSet = c.unexpired now t) ?_ rfl hcoll
    intro p p' tx _ hp hstep
    exact (Pass.shrinks_collectExpired hstep).ttlSet.trans hp
  obtain ⟨waiting, hwait, hwaitList⟩ := foldlM_appends (fun p : Pass A => p.delayed)
    (fun _ _ _ hstep => (Pass.shrinks_collectDelayed hstep).delayed) hwaited
  obtain ⟨added, hadded, hcollList⟩ := foldlM_appends (fun p : Pass A => p.delayed)
    (fun _ _ _ hstep => (Pass.shrinks_collectExpired hstep).delayed) hcoll
  have hdelayed : collected.delayed = waiting ++ added := by
    rw [hcollList, hwaitList, List.nil_append]
  exact ⟨hend.channel, httl, ⟨waiting, added, hwait, hadded, hdelayed⟩, hend.ops,
    hend.noParents, hend.notices⟩

end Collector

namespace TransactionEntry
variable {D : Type} {e : TransactionEntry D} {elapsed : Nat} {tie cutoffTie : Bool}

theorem cleanup_underProgress (h : (e.cleanup elapsed tie cutoffTie).underProgress = true) :
    e.underProgress = true := by
  unfold cleanup collectExpired collectDelayed at h
  split_ifs at h <;> simp_all

theorem cleanup_kept (hset : e.inTtlSet = true) (hold : olderThan operationTtl elapsed tie = true)
    (hidle : e.underProgress = false) : (e.cleanup elapsed tie cutoffTie).kept = none := by
  unfold cleanup collectExpired collectDelayed
  split_ifs <;> simp_all

theorem cleanup_delayed
    (he : e.delayed = true → e.inTtlSet = false ∧ (e.underProgress = true ∨ e.completed = true))
    (h : (e.cleanup elapsed tie cutoffTie).delayed = true) :
    (e.cleanup elapsed tie cutoffTie).underProgress = true := by
  unfold cleanup collectExpired collectDelayed at h ⊢
  split_ifs at h ⊢ <;> simp_all

end TransactionEntry

namespace Collector
variable {now : Nat} {c c' : Collector A} {t : Tick A} {r : Report}

/-- Up to the very millisecond of the limit, a transaction is before the cutoff exactly when it is
older than the limit. -/
theorem beforeCutoff_eq (tx : Transaction) {multiplier : Nat}
    (hnow : multiplier * operationTtl ≤ now) (random : BitVec 64) :
    decide (tx.id.toNat ≤ ttlTransactionWithMultiplier multiplier now random) =
      olderThan (multiplier * operationTtl) (tx.elapsed now)
        (tx.id.toNat ≤ ttlTransactionWithMultiplier multiplier now random) := by
  unfold ttlTransactionWithMultiplier olderThan elapsed timestampMs
  rw [Bool.eq_iff_iff]
  simp only [decide_eq_true_eq, Bool.or_eq_true, Bool.and_eq_true]
  omega

/-- The cleanup of one entry, in the order in which the passes of a tick come by. -/
theorem cleanup_eq_passes {D : Type} {e waited : TransactionEntry D} {elapsed : Nat} {tie cutoffTie : Bool}
    (hwaited : waited = if e.delayed then { e with delayed := false }.revisit else e) :
    e.cleanup elapsed tie cutoffTie = if e.inTtlSet && olderThan operationTtl elapsed tie then
        { waited with inTtlSet := false }.expire
          (olderThan (cutoffMultiplier * operationTtl) elapsed cutoffTie)
      else waited := by
  subst hwaited
  cases e with
  | mk kept progress completed announced inSet delayed =>
    cases delayed <;> cases completed <;> cases kept <;>
      simp [cleanup, collectDelayed, collectExpired, revisit, expire]

@[simp]
theorem revisit_inTtlSet {D : Type} (e : TransactionEntry D) : e.revisit.inTtlSet = e.inTtlSet := by
  unfold revisit
  split_ifs <;> rfl

variable (hnow : cutoffMultiplier * operationTtl ≤ now)
include hnow

theorem expired_eq (t : Tick A) (tx : Transaction) :
    olderThan operationTtl (tx.elapsed now) (tx.id.toNat ≤ ttlCutoff now t) =
      decide (tx.id.toNat ≤ ttlCutoff now t) := by
  have hone : 1 * operationTtl ≤ now := by
    unfold cutoffMultiplier at hnow
    omega
  have h := beforeCutoff_eq tx hone t.random
  exact h.symm

theorem absolute_eq (t : Tick A) (tx : Transaction) :
    olderThan (cutoffMultiplier * operationTtl) (tx.elapsed now) (tx.id.toNat ≤ absoluteCutoff now t) =
      decide (tx.id.toNat ≤ absoluteCutoff now t) :=
  (beforeCutoff_eq tx hnow t.absoluteRandom).symm

omit hnow in
theorem mem_expired {tx : Transaction} :
    tx ∈ c.expired now t ↔ tx ∈ c.ttlSet ∧ tx.id.toNat ≤ ttlCutoff now t := by
  simp [expired]

omit hnow in
theorem mem_unexpired {tx : Transaction} :
    tx ∈ c.unexpired now t ↔ tx ∈ c.ttlSet ∧ ttlCutoff now t < tx.id.toNat := by
  simp [unexpired]

theorem entry_tick (hdelayed : c.delayed.Nodup)
    (httl : c.ttlSet.Nodup) (h : c.tick now t = .ok (c', r)) (tx : Transaction) :
    c'.entry tx = ((c.retryAll now t).entry tx).cleanup (tx.elapsed now)
      (tx.id.toNat ≤ ttlCutoff now t) (tx.id.toNat ≤ absoluteCutoff now t) := by
  obtain ⟨waited, collected, hwaited, hcoll, rfl, rfl⟩ := tick_eq_ok_iff.mp h
  have hwaitEntry : waited.entry tx =
      if tx ∈ c.delayed then { (c.retryAll now t).entry tx with delayed := false }.revisit
      else { (c.retryAll now t).entry tx with delayed := false } :=
    view_foldlM (fun p : Pass A => p.entry) (fun _ e => e.revisit)
      (fun _ _ _ _ hstep hne => (Pass.entry_collectDelayed hstep).trans (if_neg hne))
      (fun _ _ _ hstep => (Pass.entry_collectDelayed hstep).trans (if_pos rfl)) hdelayed hwaited tx
  have hcollEntry : collected.entry tx = if tx ∈ c.expired now t then
        { waited.entry tx with inTtlSet := decide (tx ∈ c.unexpired now t) }.expire
          (tx.id.toNat ≤ absoluteCutoff now t)
      else { waited.entry tx with inTtlSet := decide (tx ∈ c.unexpired now t) } :=
    view_foldlM (fun p : Pass A => p.entry)
      (fun (tx : Transaction) e => e.expire (tx.id.toNat ≤ absoluteCutoff now t))
      (fun _ _ _ _ hstep hne => (Pass.entry_collectExpired hstep).trans (if_neg hne))
      (fun _ _ _ hstep => (Pass.entry_collectExpired hstep).trans (if_pos rfl)) (httl.filter _) hcoll tx
  have hwait' : waited.entry tx = if ((c.retryAll now t).entry tx).delayed then
      { (c.retryAll now t).entry tx with delayed := false }.revisit else (c.retryAll now t).entry tx := by
    rw [hwaitEntry]
    by_cases hmem : tx ∈ c.delayed
    · have hE : ((c.retryAll now t).entry tx).delayed = true := decide_eq_true hmem
      rw [if_pos hmem, if_pos hE]
    · have hE : ((c.retryAll now t).entry tx).delayed = false := decide_eq_false hmem
      rw [if_neg hmem, hE, if_neg Bool.false_ne_true, ← hE]
  have hset : (waited.entry tx).inTtlSet = decide (tx ∈ c.ttlSet) := by
    rw [hwait']
    split_ifs
    · rw [revisit_inTtlSet]
      rfl
    · rfl
  have hE : ((c.retryAll now t).entry tx).inTtlSet = decide (tx ∈ c.ttlSet) := rfl
  rw [hcollEntry, cleanup_eq_passes hwait', expired_eq hnow, absolute_eq hnow, hE]
  by_cases hmem : tx ∈ c.expired now t
  · obtain ⟨hin, hle⟩ := mem_expired.mp hmem
    have hout : tx ∉ c.unexpired now t := fun hmem => absurd (mem_unexpired.mp hmem).2 (not_lt.mpr hle)
    simp [hmem, hin, hle, hout]
  · have hnot : ¬ (tx ∈ c.ttlSet ∧ tx.id.toNat ≤ ttlCutoff now t) := mt mem_expired.mpr hmem
    have hsame : decide (tx ∈ c.unexpired now t) = (waited.entry tx).inTtlSet := by
      rw [hset, decide_eq_decide, mem_unexpired]
      exact and_iff_left_of_imp fun hin => not_le.mp fun hle => hnot ⟨hin, hle⟩
    have hcond : ¬ (decide (tx ∈ c.ttlSet) && decide (tx.id.toNat ≤ ttlCutoff now t)) = true := by
      simpa using hnot
    rw [if_neg hmem, if_neg hcond, hsame]

end Collector

end Freenet.Node
