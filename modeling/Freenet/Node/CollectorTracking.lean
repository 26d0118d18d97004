import Freenet.Node.GarbageCollector

/-! Runs of the collector: kept operations were announced to it; nothing is kept under a delayed
one. -/
namespace Freenet.Node
open Lib Collector Outcome
variable {A : Type}

inductive CollectorEvent (A : Type) where
  | advance (ms : Nat)
  | push (opened : Bool) (tx : Transaction) (op : OpEnum (OpProgress A))
  | pop (tx : Transaction)
  | completed (tx : Transaction)
  /-- `accepted` says whether the event loop has room for the message. -/
  | notifyOpChangeNonblocking (opened accepted : Bool) (tx : Transaction) (op : OpEnum (OpProgress A))
  /-- The collector takes a transaction out of its channel. -/
  | receive
  | tick (t : Tick A)

/-- The operation manager and its collector, with the transactions that were completed, and the
operation pushed under a transaction since that was last popped, completed or past its time to live
at a tick. -/
structure CollectorRun (A : Type) where
  collector : Collector A
  clock : Nat
  finished : List Transaction
  held : Table Transaction (OpEnum (OpProgress A))

namespace CollectorRun
variable (build : Build) (s : CollectorRun A)

def new (clock : Nat) : CollectorRun A := ⟨.new, clock, [], .empty⟩

def pushing (opened : Bool) (tx : Transaction) (op : OpEnum (OpProgress A)) :
    Option (CollectorRun A × Except OpError Unit) :=
  match s.collector.push build s.clock opened tx op with
  | .panicked _ => none
  | .ok (c, result) =>
    let holds := result.isOk && decide (tx ∉ c.manager.completedOps)
    some ({ s with collector := c, held := if holds then s.held.insert tx op else s.held }, result)

def popping (tx : Transaction) :
    Option (CollectorRun A × Except OpNotAvailable (Option (OpEnum (OpProgress A)))) :=
  match s.collector.pop build s.clock tx with
  | .panicked _ => none
  | .ok (c, result) => some ({ s with collector := c, held := s.held.remove tx }, result)

def completing (tx : Transaction) : CollectorRun A :=
  { s with collector := s.collector.completed tx, finished := tx :: s.finished, held := s.held.remove tx }

def ticking (t : Tick A) : Option (CollectorRun A × Report) :=
  match s.collector.tick s.clock t with
  | .panicked _ => none
  | .ok (c, report) =>
    let unexpired (tx : Transaction) := decide (ttlCutoff s.clock t < tx.id.toNat)
    some ({ s with collector := c, held := s.held.retain fun tx _ => unexpired tx }, report)

/-- A call that panics ends the run. -/
def step : CollectorEvent A → Option (CollectorRun A)
  | .advance ms => some { s with clock := s.clock + ms }
  | .push opened tx op => (s.pushing build opened tx op).map Prod.fst
  | .pop tx => (s.popping build tx).map Prod.fst
  | .completed tx => some (s.completing tx)
  -- Without room for the message, the operation that was pushed is taken for completed.
  | .notifyOpChangeNonblocking opened accepted tx op =>
    (s.pushing build opened tx op).map fun (s', result) =>
      if result.isOk && !accepted then s'.completing tx else s'
  | .receive => some { s with collector := s.collector.receive }
  | .tick t => (s.ticking t).map Prod.fst

end CollectorRun

/-- A clock that shows more than the longest time a transaction is retained. -/
def collecting (build : Build) (A : Type) : Machine (CollectorRun A) (CollectorEvent A) where
  init s := ∃ clock, cutoffMultiplier * operationTtl ≤ clock ∧ s = .new clock
  step := CollectorRun.step build

namespace Collector
variable {build : Build} {now : Nat} {opened : Bool} {c c' : Collector A} {tx : Transaction}
  {op : OpEnum (OpProgress A)}

def idle (c : Collector A) (tx : Transaction) : Collector A :=
  { c with manager := { c.manager with underProgress := c.manager.underProgress.filter (· ≠ tx) } }

def announce (c : Collector A) (tx : Transaction) : Collector A := { c with channel := c.channel ++ [tx] }

def keep (c : Collector A) (tx : Transaction) (op : OpEnum (OpProgress A)) : Collector A :=
  { c with manager := { c.manager with
      ops := Function.update c.manager.ops op.kind ((c.manager.ops op.kind).insert tx op) } }

def mark (c : Collector A) (tx : Transaction) : Collector A :=
  { c with manager := { c.manager with completedOps := tx :: c.manager.completedOps } }

/-- The operation of a transaction is taken out of the map of a type. -/
def take (c : Collector A) (ty : TransactionType) (tx : Transaction) : Collector A :=
  { c with manager := { c.manager.removeOp ty tx with
      underProgress := tx :: c.manager.underProgress } }

inductive Pushes (build : Build) (now : Nat) (c : Collector A) (tx : Transaction)
    (op : OpEnum (OpProgress A)) : Collector A → Except OpError Unit → Prop
  | completed (hcompl : tx ∈ c.manager.completedOps) : Pushes build now c tx op c (.ok ())
  | late (hnew : tx ∉ c.manager.completedOps) (hprog : tx ∈ c.manager.underProgress)
      (hlate : tx.timedOut now = true) : Pushes build now c tx op ((c.idle tx).mark tx) (.ok ())
  | closed (e : OpError) (hnew : tx ∉ c.manager.completedOps)
      (hearly : tx ∈ c.manager.underProgress → tx.timedOut now = false) :
      Pushes build now c tx op (c.idle tx) (.error e)
  | mistyped (e : OpError) (hnew : tx ∉ c.manager.completedOps)
      (hearly : tx ∈ c.manager.underProgress → tx.timedOut now = false) :
      Pushes build now c tx op ((c.idle tx).announce tx) (.error e)
  | kept (hnew : tx ∉ c.manager.completedOps)
      (hearly : tx ∈ c.manager.underProgress → tx.timedOut now = false)
      (htype : build.debugAssertions = true → tx.transactionType = .ok op.kind) :
      Pushes build now c tx op (((c.idle tx).announce tx).keep tx op) (.ok ())

theorem pushes_of_push {result : Except OpError Unit}
    (h : c.push build now opened tx op = .ok (c', result)) : Pushes build now c tx op c' result := by
  unfold push at h
  rw [bind_eq_ok_iff] at h
  obtain ⟨⟨m, result'⟩, hm, h⟩ := h
  cases h
  unfold OpManager.push at hm
  by_cases hcompl : tx ∈ c.manager.completedOps
  · rw [if_pos hcompl] at hm
    cases hm
    have hquiet : c.announces now opened tx = false := by simp [announces, hcompl]
    rw [hquiet]
    exact .completed hcompl
  rw [if_neg hcompl] at hm
  dsimp only at hm
  by_cases hlate : tx ∈ c.manager.underProgress ∧ tx.timedOut now = true
  · rw [if_pos hlate] at hm
    cases hm
    have hquiet : c.announces now opened tx = false := by simp [announces, hlate]
    rw [hquiet]
    exact .late hcompl hlate.1 hlate.2
  have hearly : tx ∈ c.manager.underProgress → tx.timedOut now = false := by
    intro hmem
    exact Bool.eq_false_iff.mpr fun hout => hlate ⟨hmem, hout⟩
  rw [if_neg hlate] at hm
  cases opened with
  | false =>
    cases hm
    have hquiet : c.announces now false tx = false := by simp [announces]
    rw [hquiet]
    exact .closed _ hcompl hearly
  | true =>
    have hannounc : c.announces now true tx = true := by
      simpa [announces, hcompl] using imp_iff_not_or.mp hearly
    rw [if_neg (by decide)] at hm
    rw [hannounc]
    by_cases hdebug : build.debugAssertions = true
    · rw [if_pos hdebug, bind_eq_ok_iff] at hm
      obtain ⟨ty, hty, hm⟩ := hm
      split_ifs at hm with hkind
      · cases hm
        exact .mistyped _ hcompl hearly
      · cases hm
        exact .kept hcompl hearly fun _ => by rw [hty, not_not.mp hkind]
    · rw [if_neg hdebug] at hm
      cases hm
      exact .kept hcompl hearly fun h => absurd h hdebug

inductive Pops (now : Nat) (c : Collector A) (tx : Transaction) :
    Collector A → Except OpNotAvailable (Option (OpEnum (OpProgress A))) → Prop
  | completed (hcompl : tx ∈ c.manager.completedOps) : Pops now c tx c (.error .completed)
  | late (hnew : tx ∉ c.manager.completedOps) (hprog : tx ∈ c.manager.underProgress)
      (hlate : tx.timedOut now = true) : Pops now c tx (c.mark tx) (.error .completed)
  | running (hprog : tx ∈ c.manager.underProgress) : Pops now c tx c (.error .running)
  | taken {ty : TransactionType} (hnew : tx ∉ c.manager.completedOps)
      (hidle : tx ∉ c.manager.underProgress) (hty : tx.transactionType = .ok ty) :
      Pops now c tx (c.take ty tx) (.ok ((c.manager.ops ty).get tx))

theorem pops_of_pop {result : Except OpNotAvailable (Option (OpEnum (OpProgress A)))}
    (h : c.pop build now tx = .ok (c', result)) : Pops now c tx c' result := by
  unfold pop at h
  rw [bind_eq_ok_iff] at h
  obtain ⟨⟨m, result'⟩, hm, h⟩ := h
  cases h
  unfold OpManager.pop at hm
  split_ifs at hm with hcompl hprog hlate
  · cases hm
    exact .completed hcompl
  · cases hm
    exact .late hcompl hprog hlate
  · cases hm
    exact .running hprog
  · rw [bind_eq_ok_iff] at hm
    obtain ⟨ty, hty, hm⟩ := hm
    cases hm
    exact .taken hcompl hprog hty

theorem completed_of_noParents (h : c.manager.subOpTracker.parentOf.get tx = none) :
    c.completed tx = { c with manager := c.manager.markCompleted tx } := by
  have hmark : c.manager.completed tx = c.manager.markCompleted tx := by
    rw [← OpManager.completedSending_fst, OpManager.completedSending_of_root h]
  unfold completed
  rw [hmark]

end Collector

namespace CollectorRun
variable {build : Build} {s s' : CollectorRun A} {opened : Bool} {tx : Transaction}
  {op : OpEnum (OpProgress A)}

theorem pushing_eq_some {result : Except OpError Unit}
    (h : s.pushing build opened tx op = some (s', result)) :
    ∃ c, Pushes build s.clock s.collector tx op c result ∧ s' = { s with
      collector := c
      held := if result.isOk && decide (tx ∉ c.manager.completedOps) then s.held.insert tx op
        else s.held } := by
  unfold pushing at h
  cases hpush : s.collector.push build s.clock opened tx op with
  | panicked r =>
    rw [hpush] at h
    cases h
  | ok pushed =>
    obtain ⟨c, result'⟩ := pushed
    rw [hpush] at h
    cases h
    exact ⟨c, pushes_of_push hpush, rfl⟩

theorem popping_eq_some {result : Except OpNotAvailable (Option (OpEnum (OpProgress A)))}
    (h : s.popping build tx = some (s', result)) :
    ∃ c, Pops s.clock s.collector tx c result ∧
      s' = { s with collector := c, held := s.held.remove tx } := by
  unfold popping at h
  cases hpop : s.collector.pop build s.clock tx with
  | panicked r =>
    rw [hpop] at h
    cases h
  | ok popped =>
    obtain ⟨c, result'⟩ := popped
    rw [hpop] at h
    cases h
    exact ⟨c, pops_of_pop hpop, rfl⟩

theorem ticking_eq_some {t : Tick A} {r : Report} (h : s.ticking t = some (s', r)) :
    ∃ c, s.collector.tick s.clock t = .ok (c, r) ∧ s' = { s with
      collector := c
      held := s.held.retain fun tx _ => decide (ttlCutoff s.clock t < tx.id.toNat) } := by
  unfold ticking at h
  cases htick : s.collector.tick s.clock t with
  | panicked r =>
    rw [htick] at h
    cases h
  | ok ticked =>
    obtain ⟨c, report⟩ := ticked
    rw [htick] at h
    cases h
    exact ⟨c, rfl, rfl⟩

end CollectorRun

open List TransactionEntry

theorem Transaction.timedOut_iff {tx : Transaction} {now : Nat} :
    tx.timedOut now = true ↔ operationTtl ≤ tx.elapsed now := decide_eq_true_iff

namespace Collector

structure Tracks (now : Nat) (c : Collector A) : Prop where
  noParents : c.manager.NoParents
  typed : ∀ {kind tx op}, (c.manager.ops kind).get tx = some op → tx.transactionType = .ok kind
  tracked : ∀ {kind tx op}, (c.manager.ops kind).get tx = some op → tx ∈ c.channel ∨ tx ∈ c.ttlSet
  idle : ∀ {kind tx op}, (c.manager.ops kind).get tx = some op → tx ∉ c.manager.underProgress
  delayed : ∀ {tx}, tx ∈ c.delayed → tx ∉ c.channel ∧ tx ∉ c.ttlSet ∧ tx.timedOut now = true ∧
    (tx ∈ c.manager.underProgress ∨ tx ∈ c.manager.completedOps)
  wellTyped : ∀ {tx}, tx ∈ c.channel ∨ tx ∈ c.ttlSet ∨ tx ∈ c.delayed → tx.WellTyped
  ttlSet_nodup : c.ttlSet.Nodup
  delayed_nodup : c.delayed.Nodup

namespace Tracks
variable {build : Build} {now : Nat} {c c' : Collector A} {tx : Transaction} {op : OpEnum (OpProgress A)}

theorem new : (Collector.new : Collector A).Tracks now where
  noParents _ := rfl
  typed h := nomatch h
  tracked h := nomatch h
  idle h := nomatch h
  delayed h := nomatch h
  wellTyped h := by simp [Collector.new] at h
  ttlSet_nodup := nodup_nil
  delayed_nodup := nodup_nil

section Tracking
variable (h : c.Tracks now)
include h

theorem advance (ms : Nat) : c.Tracks (now + ms) :=
  { h with
    delayed := by
      intro tx htx
      obtain ⟨hchan, hset, hout, hmark⟩ := h.delayed htx
      refine ⟨hchan, hset, ?_, hmark⟩
      rw [Transaction.timedOut_iff] at hout ⊢
      unfold Transaction.elapsed at hout ⊢
      omega }

theorem notMem_delayed (hnew : tx ∉ c.manager.completedOps)
    (hearly : tx ∈ c.manager.underProgress → tx.timedOut now = false) : tx ∉ c.delayed := by
  intro htx
  obtain ⟨-, -, hout, hprog | hcompl⟩ := h.delayed htx
  · rw [hearly hprog] at hout
    cases hout
  · exact hnew hcompl

theorem mark : (c.mark tx).Tracks now :=
  { h with
    delayed := by
      intro tx' htx'
      obtain ⟨hchan, hset, hout, hmark⟩ := h.delayed htx'
      exact ⟨hchan, hset, hout, hmark.imp id (mem_cons_of_mem tx)⟩ }

theorem idleTx (hdelayed : tx ∈ c.delayed → tx ∈ c.manager.completedOps) : (c.idle tx).Tracks now :=
  { h with
    idle := fun hop hmem => h.idle hop (mem_filter.mp hmem).1
    delayed := by
      intro tx' htx'
      obtain ⟨hchan, hset, hout, hmark⟩ := h.delayed htx'
      refine ⟨hchan, hset, hout, ?_⟩
      by_cases hsame : tx' = tx
      · subst hsame
        exact .inr (hdelayed htx')
      · exact hmark.imp (fun hmem => mem_filter.mpr ⟨hmem, by simpa using hsame⟩) id }

theorem announce (hdelayed : tx ∉ c.delayed) (htyped : tx.WellTyped) : (c.announce tx).Tracks now :=
  { h with
    tracked := fun hop => (h.tracked hop).imp (mem_append_left [tx]) id
    delayed := by
      intro tx' htx'
      obtain ⟨hchan, hset, hout, hmark⟩ := h.delayed htx'
      refine ⟨?_, hset, hout, hmark⟩
      have hne : tx' ≠ tx := fun hsame => hdelayed (hsame ▸ htx')
      simpa [Collector.announce, hne] using hchan
    wellTyped := by
      rintro tx' (hchan | hrest)
      · rcases mem_append.mp hchan with hold | hnew
        · exact h.wellTyped (.inl hold)
        · rw [mem_singleton.mp hnew]
          exact htyped
      · exact h.wellTyped (.inr hrest) }

theorem keep (htype : tx.transactionType = .ok op.kind)
    (htrack : tx ∈ c.channel ∨ tx ∈ c.ttlSet) (hidle : tx ∉ c.manager.underProgress) :
    (c.keep tx op).Tracks now := by
  have hops {kind tx' op'} (hop : ((c.keep tx op).manager.ops kind).get tx' = some op') :
      (kind = op.kind ∧ tx' = tx) ∨ (c.manager.ops kind).get tx' = some op' := by
    by_cases hkind : kind = op.kind
    · subst hkind
      have hget : ((c.manager.ops op.kind).insert tx op).get tx' = some op' := by
        simpa [Collector.keep] using hop
      exact (Table.get_insert_cases hget).imp (fun hsame => ⟨rfl, hsame.1⟩) And.right
    · right
      simpa [Collector.keep, hkind] using hop
  exact { h with
    typed := by
      intro kind tx' op' hop
      rcases hops hop with ⟨rfl, rfl⟩ | hold
      · exact htype
      · exact h.typed hold
    tracked := by
      intro kind tx' op' hop
      rcases hops hop with ⟨rfl, rfl⟩ | hold
      · exact htrack
      · exact h.tracked hold
    idle := by
      intro kind tx' op' hop
      rcases hops hop with ⟨rfl, rfl⟩ | hold
      · exact hidle
      · exact h.idle hold }

theorem push {result : Except OpError Unit} (htyped : tx.WellTyped)
    (htype : build.debugAssertions = true ∨ tx.transactionType = .ok op.kind)
    (hpush : Pushes build now c tx op c' result) : c'.Tracks now := by
  have hgone : tx ∉ (c.idle tx).manager.underProgress := by simp [Collector.idle]
  cases hpush with
  | completed hcompl => exact h
  | late hnew hprog hlate =>
    have hmark : (c.mark tx).Tracks now := h.mark
    exact hmark.idleTx fun _ => mem_cons_self
  | closed e hnew hearly => exact h.idleTx fun hmem => absurd hmem (h.notMem_delayed hnew hearly)
  | mistyped e hnew hearly =>
    have hdelayed : tx ∉ c.delayed := h.notMem_delayed hnew hearly
    exact (h.idleTx fun hmem => absurd hmem hdelayed).announce hdelayed htyped
  | kept hnew hearly hcheck =>
    have hdelayed : tx ∉ c.delayed := h.notMem_delayed hnew hearly
    have hannounc : ((c.idle tx).announce tx).Tracks now :=
      (h.idleTx fun hmem => absurd hmem hdelayed).announce hdelayed htyped
    exact hannounc.keep (htype.elim hcheck id) (.inl (mem_append_right _ mem_cons_self)) hgone

theorem pop {result : Except OpNotAvailable (Option (OpEnum (OpProgress A)))}
    (hpop : Pops now c tx c' result) : c'.Tracks now := by
  cases hpop with
  | completed hcompl => exact h
  | late hnew hprog hlate => exact h.mark
  | running hprog => exact h
  | @taken ty hnew hidle hty =>
    have hops {kind tx' op'} (hop : ((c.take ty tx).manager.ops kind).get tx' = some op') :
        ¬ (kind = ty ∧ tx' = tx) ∧ (c.manager.ops kind).get tx' = some op' := by
      have hget : ((c.manager.removeOp ty tx).ops kind).get tx' = some op' := hop
      rw [OpManager.get_ops_removeOp] at hget
      split_ifs at hget with hsame
      exact ⟨hsame, hget⟩
    exact { h with
      typed := fun hop => h.typed (hops hop).2
      tracked := fun hop => h.tracked (hops hop).2
      idle := by
        intro kind tx' op' hop hmem
        obtain ⟨hother, hold⟩ := hops hop
        rcases mem_cons.mp hmem with rfl | hmem
        · -- The only operation kept under the transaction was that of its type.
          have hkind := h.typed hold
          rw [hty] at hkind
          cases hkind
          exact hother ⟨rfl, rfl⟩
        · exact h.idle hold hmem
      delayed := by
        intro tx' htx'
        obtain ⟨hchan, hset, hout, hmark⟩ := h.delayed htx'
        exact ⟨hchan, hset, hout, hmark.imp (mem_cons_of_mem tx) id⟩ }

theorem completed : (c.completed tx).Tracks now := by
  rw [completed_of_noParents (h.noParents tx)]
  have hmark : (c.mark tx).Tracks now := h.mark
  have hidle : ((c.mark tx).idle tx).Tracks now := hmark.idleTx fun _ => mem_cons_self
  exact { hidle with }

theorem receive (hsame : ∀ tx ∈ c.channel.head?, ∀ other ∈ c.ttlSet, other.id = tx.id → other = tx) :
    c.receive.Tracks now := by
  unfold Collector.receive
  cases hchan : c.channel with
  | nil => exact h
  | cons tx rest =>
    rw [hchan] at hsame
    let received := if c.ttlSet.any (·.id = tx.id) then c.ttlSet
      else c.ttlSet.orderedInsert (fun a b => b.id ≤ a.id) tx
    have hmem (tx' : Transaction) : tx' ∈ received ↔ tx' = tx ∨ tx' ∈ c.ttlSet := by
      by_cases hany : c.ttlSet.any (·.id = tx.id) = true
      · obtain ⟨other, hother, hid⟩ := any_eq_true.mp hany
        have htx : tx ∈ c.ttlSet := hsame tx rfl other hother (of_decide_eq_true hid) ▸ hother
        simp only [received, if_pos hany]
        exact ⟨.inr, fun h => h.elim (fun heq => heq ▸ htx) id⟩
      · simp only [received, if_neg hany, mem_orderedInsert]
    have hnodup : received.Nodup := by
      by_cases hany : c.ttlSet.any (·.id = tx.id) = true
      · simpa only [received, if_pos hany] using h.ttlSet_nodup
      · have htx : tx ∉ c.ttlSet := fun htx => hany (any_eq_true.mpr ⟨tx, htx, decide_eq_true rfl⟩)
        simp only [received, if_neg hany]
        exact (perm_orderedInsert _ _ _).nodup_iff.mpr (nodup_cons.mpr ⟨htx, h.ttlSet_nodup⟩)
    exact { h with
      tracked := by
        intro kind tx' op hop
        have hold := h.tracked hop
        rw [hchan, mem_cons] at hold
        rw [hmem]
        tauto
      delayed := by
        intro tx' htx'
        obtain ⟨hout, hset, hlate, hmark⟩ := h.delayed htx'
        rw [hchan, mem_cons] at hout
        rw [hmem]
        tauto
      wellTyped := by
        intro tx' htx'
        rw [hmem] at htx'
        refine h.wellTyped ?_
        rw [hchan, mem_cons]
        tauto
      ttlSet_nodup := hnodup }

end Tracking

variable {t : Tick A} {r : Report} (h : c.Tracks now)
include h

theorem entry_delayed (tx : Transaction) (hdelayed : ((c.retryAll now t).entry tx).delayed = true) :
    ((c.retryAll now t).entry tx).inTtlSet = false ∧
      (((c.retryAll now t).entry tx).underProgress = true ∨
        ((c.retryAll now t).entry tx).completed = true) := by
  obtain ⟨-, hset, -, hmark⟩ := h.delayed (of_decide_eq_true hdelayed)
  exact ⟨decide_eq_false hset, hmark.imp decide_eq_true decide_eq_true⟩

theorem kept_of_tick (hnow : cutoffMultiplier * operationTtl ≤ now)
    (htick : c.tick now t = .ok (c', r)) {kind : TransactionType}
    (hop : (c'.manager.ops kind).get tx = some op) :
    ∃ before, (c.manager.ops kind).get tx = some before ∧ (tx ∈ c.channel ∨ tx ∈ c.unexpired now t) := by
  have hsome : ((c.manager.ops kind).get tx).isSome := by
    rw [← isSome_ops_retryAll, (tick_shrinks htick).ops hop]
    rfl
  obtain ⟨before, hbefore⟩ := Option.isSome_iff_exists.mp hsome
  refine ⟨before, hbefore, (h.tracked hbefore).imp id fun hset => ?_⟩
  by_contra hexpir
  have hle : tx.id.toNat ≤ ttlCutoff now t := by
    rw [mem_unexpired, not_and, not_lt] at hexpir
    exact hexpir hset
  have hentry := entry_tick hnow h.delayed_nodup h.ttlSet_nodup htick tx
  have hgone : (c'.entry tx).kept = none := by
    rw [hentry]
    refine cleanup_kept (decide_eq_true hset) ?_ (decide_eq_false (h.idle hbefore))
    rw [expired_eq hnow]
    exact decide_eq_true hle
  have hkept : c'.kept tx = some op := (kept_of_type (h.typed hbefore)).trans hop
  rw [show c'.kept tx = none from hgone] at hkept
  cases hkept

theorem tick (hnow : cutoffMultiplier * operationTtl ≤ now)
    (hchan : ∀ tx ∈ c.channel, ttlCutoff now t < tx.id.toNat)
    (htick : c.tick now t = .ok (c', r)) : c'.Tracks now := by
  have hshrk := tick_shrinks htick
  obtain ⟨waiting, added, hwait, hadded, hlist⟩ := hshrk.delayed
  have hentry (tx : Transaction) := entry_tick hnow h.delayed_nodup h.ttlSet_nodup htick tx
  have hmem {tx : Transaction} (htx : tx ∈ c'.delayed) : tx ∈ c.delayed ∨ tx ∈ c.expired now t := by
    rw [hlist] at htx
    exact (mem_append.mp htx).imp (fun hw => hwait.subset hw) fun ha => hadded.subset ha
  constructor
  · exact hshrk.noParents h.noParents
  · intro kind tx op hop
    obtain ⟨before, hbefore, -⟩ := h.kept_of_tick hnow htick hop
    exact h.typed hbefore
  · intro kind tx op hop
    obtain ⟨before, -, htrack⟩ := h.kept_of_tick hnow htick hop
    rw [hshrk.channel, hshrk.ttlSet]
    exact htrack
  · intro kind tx op hop hprog
    obtain ⟨before, hbefore, -⟩ := h.kept_of_tick hnow htick hop
    have hafter : (c'.entry tx).underProgress = true := decide_eq_true hprog
    rw [hentry tx] at hafter
    exact h.idle hbefore (of_decide_eq_true (cleanup_underProgress hafter))
  · intro tx htx
    have hafter : (c'.entry tx).delayed = true := decide_eq_true htx
    have hprog : (c'.entry tx).underProgress = true := by
      rw [hentry tx] at hafter ⊢
      exact cleanup_delayed (h.entry_delayed tx) hafter
    have hmark : tx ∈ c'.manager.underProgress ∨ tx ∈ c'.manager.completedOps :=
      .inl (of_decide_eq_true hprog)
    rw [hshrk.channel, hshrk.ttlSet, mem_unexpired]
    rcases hmem htx with hold | hnew
    · obtain ⟨hout, hset, hlate, -⟩ := h.delayed hold
      exact ⟨hout, fun hin => hset hin.1, hlate, hmark⟩
    · obtain ⟨hset, hle⟩ := mem_expired.mp hnew
      have hlate : tx.timedOut now = true := by
        have hold := expired_eq hnow t tx
        rw [decide_eq_true hle] at hold
        rw [Transaction.timedOut_iff]
        simp only [olderThan, Bool.or_eq_true, Bool.and_eq_true, decide_eq_true_eq] at hold
        omega
      exact ⟨fun hin => absurd (hchan tx hin) (not_lt.mpr hle), fun hin => absurd hin.2 (not_lt.mpr hle),
        hlate, hmark⟩
  · intro tx htx
    rw [hshrk.channel, hshrk.ttlSet, mem_unexpired] at htx
    refine h.wellTyped ?_
    rcases htx with hin | hin | hin
    · exact .inl hin
    · exact .inr (.inl hin.1)
    · exact .inr ((hmem hin).symm.imp (fun hnew => (mem_expired.mp hnew).1) id)
  · rw [hshrk.ttlSet]
    exact h.ttlSet_nodup.filter _
  · rw [hlist]
    refine Nodup.append (h.delayed_nodup.sublist hwait) ((h.ttlSet_nodup.filter _).sublist hadded) ?_
    intro tx hold hnew
    exact (h.delayed (hwait.subset hold)).2.1 (mem_expired.mp (hadded.subset hnew)).1

end Tracks
end Collector
end Freenet.Node
