import Freenet.Node.CollectorTracking

/-! How long the collector knows of operations, and which completed ones it may still take for
waiting. -/
namespace Freenet.Node
open Lib Option

variable {A : Type}

def Collector.Unkept (c : Collector A) (tx : Transaction) : Prop :=
  ∀ kind, (c.manager.ops kind).get tx = none

theorem Collector.unkept_iff {c : Collector A} {tx : Transaction} : c.Unkept tx ↔
    ∀ kind ∈ [TransactionType.connect, .put, .get, .subscribe, .update],
      ((c.manager.ops kind).get tx).isNone = true := by
  constructor
  · intro h kind _
    rw [h kind]
    rfl
  · intro h kind
    have hmem : kind ∈ [TransactionType.connect, .put, .get, .subscribe, .update] := by
      cases kind <;> decide
    exact isNone_iff_eq_none.mp (h kind hmem)

instance (c : Collector A) (tx : Transaction) : Decidable (c.Unkept tx) :=
  decidable_of_iff' _ Collector.unkept_iff

/-- Nothing is left of a transaction in the operation manager, nor in the collector's list of
delayed transactions. -/
def Collector.Forgets (c : Collector A) (tx : Transaction) : Prop :=
  c.Unkept tx ∧ tx ∉ c.manager.underProgress ∧ tx ∉ c.manager.completedOps ∧ tx ∉ c.delayed

/-- Beyond the longest retention, an entry is empty after a cleanup exactly when the collector knew
of it and had not delayed it while it was under progress. -/
theorem TransactionEntry.cleanup_forgotten_iff {D : Type} {e : TransactionEntry D}
    {elapsed : Nat} {tie cutoffTie : Bool}
    (hold : cutoffMultiplier * operationTtl < elapsed)
    (hdelayed : e.delayed = true → e.inTtlSet = false ∧ (e.underProgress = true ∨ e.completed = true))
    (hkept : e.inTtlSet = false → e.kept = none) : ((e.cleanup elapsed tie cutoffTie).kept = none ∧
      (e.cleanup elapsed tie cutoffTie).underProgress = false ∧
      (e.cleanup elapsed tie cutoffTie).completed = false ∧
      (e.cleanup elapsed tie cutoffTie).delayed = false) ↔
    (e.underProgress = true ∨ e.completed = true → e.inTtlSet = true ∨ e.delayed = true) ∧
      (e.delayed = true → e.underProgress = false) := by
  cases hset : e.inTtlSet with
  | true =>
    have hfree : e.delayed = false := by
      cases h : e.delayed with
      | false => rfl
      | true => simpa [hset] using (hdelayed h).1
    simp [cleanup_eq hset hfree hold, hfree]
  | false =>
    have hnone : e.kept = none := hkept hset
    cases hfree : e.delayed with
    | false =>
      cases hprog : e.underProgress <;> cases hcompl : e.completed <;>
        simp [cleanup, collectDelayed, collectExpired, hset, hfree, hnone, hprog, hcompl]
    | true =>
      cases hprog : e.underProgress <;> cases hcompl : e.completed <;>
        simp_all [cleanup, collectDelayed, collectExpired]

namespace CollectorRun
variable {build : Build} {s s' : CollectorRun A} {e : CollectorEvent A}

/-- Operations are pushed under ids of their type, except that a debug build refuses the others; no
two transactions share an id; and what is past its time to live has been received by the time of a
tick. -/
def Orderly (build : Build) (s : CollectorRun A) : CollectorEvent A → Prop
  | .push _ tx op | .notifyOpChangeNonblocking _ _ tx op =>
    tx.WellTyped ∧ (build.debugAssertions = true ∨ tx.transactionType = .ok op.kind)
  | .receive => ∀ tx ∈ s.collector.channel.head?, ∀ other ∈ s.collector.ttlSet, other.id = tx.id → other = tx
  | .tick t => ∀ tx ∈ s.collector.channel, Collector.ttlCutoff s.clock t < tx.id.toNat
  | .advance _ | .pop _ | .completed _ => True

instance : ∀ (s : CollectorRun A) (e : CollectorEvent A), Decidable (s.Orderly build e)
  | _, .push _ _ _ | _, .notifyOpChangeNonblocking _ _ _ _ => inferInstanceAs (Decidable (_ ∧ _))
  | s, .receive => inferInstanceAs (Decidable (∀ tx ∈ s.collector.channel.head?, _))
  | s, .tick _ => inferInstanceAs (Decidable (∀ tx ∈ s.collector.channel, _))
  | _, .advance _ | _, .pop _ | _, .completed _ => isTrue trivial

structure Sound (s : CollectorRun A) : Prop where
  clock : cutoffMultiplier * operationTtl ≤ s.clock
  tracks : s.collector.Tracks s.clock

theorem Sound.pushing {opened : Bool} {tx : Transaction} {op : OpEnum (OpProgress A)}
    {result : Except OpError Unit} (hs : s.Sound) (htyped : tx.WellTyped)
    (htype : build.debugAssertions = true ∨ tx.transactionType = .ok op.kind)
    (h : s.pushing build opened tx op = some (s', result)) : s'.Sound := by
  obtain ⟨c, hpush, rfl⟩ := pushing_eq_some h
  exact ⟨hs.clock, hs.tracks.push htyped htype hpush⟩

theorem Sound.completing (hs : s.Sound) (tx : Transaction) : (s.completing tx).Sound :=
  ⟨hs.clock, hs.tracks.completed⟩

theorem Sound.step (hs : s.Sound) (horderly : s.Orderly build e) (h : s.step build e = some s') :
    s'.Sound := by
  cases e with
  | advance ms =>
    cases h
    exact ⟨Nat.le_add_right_of_le hs.clock, hs.tracks.advance ms⟩
  | push opened tx op =>
    obtain ⟨⟨s₁, result⟩, hpush, rfl⟩ := map_eq_some_iff.mp h
    exact hs.pushing horderly.1 horderly.2 hpush
  | pop tx =>
    obtain ⟨⟨s₁, result⟩, hpop, rfl⟩ := map_eq_some_iff.mp h
    obtain ⟨c, hpops, rfl⟩ := popping_eq_some hpop
    exact ⟨hs.clock, hs.tracks.pop hpops⟩
  | completed tx =>
    cases h
    exact hs.completing tx
  | notifyOpChangeNonblocking opened accepted tx op =>
    obtain ⟨⟨s₁, result⟩, hpush, hs'⟩ := map_eq_some_iff.mp h
    have hs₁ : s₁.Sound := hs.pushing horderly.1 horderly.2 hpush
    dsimp only at hs'
    split_ifs at hs' with hrefus
    · rw [← hs']
      exact hs₁.completing tx
    · rw [← hs']
      exact hs₁
  | receive =>
    cases h
    exact ⟨hs.clock, hs.tracks.receive horderly⟩
  | tick t =>
    obtain ⟨⟨s₁, r⟩, htick, rfl⟩ := map_eq_some_iff.mp h
    obtain ⟨c, hc, rfl⟩ := ticking_eq_some htick
    exact ⟨hs.clock, hs.tracks.tick hs.clock horderly hc⟩

theorem sound_of_run {s₀ : CollectorRun A} {es : List (CollectorEvent A)}
    (hinit : (collecting build A).init s₀)
    (horderly : (collecting build A).Along (fun s e => s.Orderly build e) s₀ es)
    (hrun : (collecting build A).runFrom s₀ es = some s) : s.Sound := by
  obtain ⟨clock, hclock, rfl⟩ := hinit
  exact (collecting build A).invariant_of_along _ Sound (fun _ _ _ hs hcond hstep => hs.step hcond hstep)
    ⟨hclock, Collector.Tracks.new⟩ horderly hrun

theorem Sound.tick_returns (hs : s.Sound) (t : Tick A) : ∃ c r, s.collector.tick s.clock t = .ok (c, r) := by
  have hretn : (s.collector.tick s.clock t).Returns := Collector.tick_returns
    (fun tx htx => hs.tracks.wellTyped (.inr (.inr htx)))
    (fun tx htx => hs.tracks.wellTyped (.inr (.inl htx)))
  obtain ⟨⟨c, r⟩, h⟩ := hretn
  exact ⟨c, r, h⟩

end CollectorRun

namespace Collector
variable {now : Nat} {c c' : Collector A} {t : Tick A} {r : Report} {tx : Transaction}

theorem Tracks.forgets_iff (h : c.Tracks now) : c.Forgets tx ↔ (c.entry tx).kept = none ∧
    (c.entry tx).underProgress = false ∧ (c.entry tx).completed = false ∧ (c.entry tx).delayed = false := by
  have hkept : c.Unkept tx ↔ c.kept tx = none := by
    constructor
    · intro hnone
      unfold kept
      split
      · exact hnone _
      · rfl
    · intro hnone kind
      cases hop : (c.manager.ops kind).get tx with
      | none => rfl
      | some op =>
        rw [kept_of_type (h.typed hop), hop] at hnone
        cases hnone
  unfold Forgets
  rw [hkept]
  simp [entry]

theorem olderThan_of_elapsed (hnow : cutoffMultiplier * operationTtl ≤ now) (t : Tick A)
    (hold : operationTtl < tx.elapsed now) : tx.id.toNat ≤ ttlCutoff now t := by
  have h := expired_eq hnow t tx
  simpa [olderThan, hold] using h.symm

theorem Tracks.forgets_tick_iff (h : c.Tracks now) (hnow : cutoffMultiplier * operationTtl ≤ now)
    (hchan : ∀ tx ∈ c.channel, ttlCutoff now t < tx.id.toNat)
    (htick : c.tick now t = .ok (c', r)) (hold : cutoffMultiplier * operationTtl < tx.elapsed now) :
    c'.Forgets tx ↔
      (tx ∈ c.manager.underProgress ∨ tx ∈ c.manager.completedOps → tx ∈ c.ttlSet ∨ tx ∈ c.delayed) ∧
        (tx ∈ c.delayed → tx ∉ c.manager.underProgress) := by
  have hlong : operationTtl < tx.elapsed now := by
    unfold cutoffMultiplier at hold
    omega
  have hout : tx ∉ c.channel := fun hin =>
    absurd (hchan tx hin) (not_lt.mpr (olderThan_of_elapsed hnow t hlong))
  -- An operation kept under the transaction has been received.
  have hkept : ((c.retryAll now t).entry tx).inTtlSet = false →
      ((c.retryAll now t).entry tx).kept = none := by
    intro hset
    show (c.retryAll now t).kept tx = none
    unfold kept
    split
    · rename_i ty hty
      rw [← not_isSome_iff_eq_none, isSome_ops_retryAll, not_isSome_iff_eq_none]
      refine eq_none_iff_forall_ne_some.mpr fun op hop => ?_
      rcases h.tracked hop with hin | hin
      · exact hout hin
      · exact of_decide_eq_false hset hin
    · rfl
  rw [(h.tick hnow hchan htick).forgets_iff, entry_tick hnow h.delayed_nodup h.ttlSet_nodup htick,
    TransactionEntry.cleanup_forgotten_iff hold (h.entry_delayed tx) hkept]
  simp [entry, retryAll, retryPass]

end Collector

def forwardedGet : OpEnum (OpProgress Unit) :=
  ⟨.get, .new .get (300000 * 2 ^ 80), ⟨false, true, false, 0, false, ()⟩⟩

/-- A tick at which no operation has a peer left to be sent to. -/
def plainTick : Tick Unit := ⟨0, 0, fun _ => 1, fun _ _ _ => none, fun _ => true, [], by decide⟩

/-- In an orderly run, a tick returns, and forgets a transaction older than the longest retention
exactly when the collector knows of it, and it is not under progress since an earlier tick delayed
it. -/
theorem CollectorRun.retained_iff (build : Build) {s₀ s : CollectorRun A} {es : List (CollectorEvent A)}
    {t : Tick A} (hinit : (collecting build A).init s₀)
    (horderly : (collecting build A).Along (fun s e => s.Orderly build e) s₀ (es ++ [.tick t]))
    (hrun : (collecting build A).runFrom s₀ es = some s) :
    ∃ c r, s.collector.tick s.clock t = .ok (c, r) ∧
      ∀ tx : Transaction, cutoffMultiplier * operationTtl < tx.elapsed s.clock → (c.Forgets tx ↔
          (tx ∈ s.collector.manager.underProgress ∨ tx ∈ s.collector.manager.completedOps →
            tx ∈ s.collector.ttlSet ∨ tx ∈ s.collector.delayed) ∧
          (tx ∈ s.collector.delayed → tx ∉ s.collector.manager.underProgress)) := by
  have hs : s.Sound := sound_of_run hinit ((collecting build A).along_of_append horderly) hrun
  have hchan : s.Orderly build (.tick t) := (collecting build A).along_at horderly hrun
  obtain ⟨c, r, htick⟩ := hs.tick_returns t
  refine ⟨c, r, htick, ?_⟩
  intro tx hold
  exact hs.tracks.forgets_tick_iff hs.clock hchan htick hold

/-- A request that is completed is forgotten after five minutes. -/
theorem completedGet_forgotten : ∃ s c r, (collecting ⟨false, false⟩ Unit).runFrom (.new 300000)
      [.push true forwardedGet.id forwardedGet, .receive, .pop forwardedGet.id,
        .completed forwardedGet.id, .advance 300001] = some s ∧
    s.collector.tick s.clock plainTick = .ok (c, r) ∧ c.Forgets forwardedGet.id := by
  obtain ⟨s, hs, hset, hdelayed, hold⟩ : ∃ s, (collecting ⟨false, false⟩ Unit).runFrom (.new 300000)
      [.push true forwardedGet.id forwardedGet, .receive, .pop forwardedGet.id,
        .completed forwardedGet.id, .advance 300001] = some s ∧
      forwardedGet.id ∈ s.collector.ttlSet ∧ s.collector.delayed = [] ∧
      cutoffMultiplier * operationTtl < forwardedGet.id.elapsed s.clock := by
    decide +kernel
  have horderly : (collecting ⟨false, false⟩ Unit).Along (fun s e => s.Orderly ⟨false, false⟩ e)
      (.new 300000) ([.push true forwardedGet.id forwardedGet, .receive, .pop forwardedGet.id,
        .completed forwardedGet.id, .advance 300001] ++ [.tick plainTick]) := by
    decide +kernel
  obtain ⟨c, r, htick, hforg⟩ :=
    CollectorRun.retained_iff ⟨false, false⟩ ⟨300000, by decide, rfl⟩ horderly hs
  refine ⟨s, c, r, hs, htick, (hforg forwardedGet.id hold).mpr ⟨fun _ => .inl hset, ?_⟩⟩
  rw [hdelayed]
  exact fun hin => nomatch hin

/-- A request whose handling does not end is delayed at the first tick past its time to live, and
from then on the age of the request is not looked at again. -/
theorem stuckGet_retained : ∃ s c r, (collecting ⟨false, false⟩ Unit).runFrom (.new 300000)
      [.push true forwardedGet.id forwardedGet, .receive, .pop forwardedGet.id, .advance 61000,
        .tick plainTick, .advance 240000] = some s ∧
    cutoffMultiplier * operationTtl < forwardedGet.id.elapsed s.clock ∧
    s.collector.tick s.clock plainTick = .ok (c, r) ∧ ¬ c.Forgets forwardedGet.id := by
  unfold Collector.Forgets
  decide +kernel

open Collector
namespace Collector
variable {build : Build} {now : Nat} {c c' : Collector A} {t : Tick A} {r : Report} {tx tx' : Transaction}

theorem unkept_push {result : Except OpError Unit} {op : OpEnum (OpProgress A)}
    (h : Pushes build now c tx op c' result) (hnone : c.Unkept tx')
    (hcompl : tx' = tx → tx ∈ c.manager.completedOps) : c'.Unkept tx' := by
  cases h with
  | completed _ | late _ _ _ | closed _ _ _ | mistyped _ _ _ => exact hnone
  | kept hnew _ _ =>
    have hne : tx' ≠ tx := fun hsame => hnew (hcompl hsame)
    intro kind
    by_cases hkind : kind = op.kind
    · subst hkind
      simpa [keep, idle, announce, Table.get_insert_of_ne hne] using hnone op.kind
    · simpa [keep, idle, announce, hkind] using hnone kind

variable {result : Except OpNotAvailable (Option (OpEnum (OpProgress A)))}

theorem unkept_pop (h : Pops now c tx c' result) (hnone : c.Unkept tx') : c'.Unkept tx' := by
  cases h with
  | completed _ | late _ _ _ | running _ => exact hnone
  | @taken ty _ _ _ =>
    intro kind
    show ((c.manager.removeOp ty tx).ops kind).get tx' = none
    rw [OpManager.get_ops_removeOp, hnone kind, ite_self]

theorem unkept_retryAll (hnone : c.Unkept tx) : (c.retryAll now t).Unkept tx := by
  intro kind
  rw [← not_isSome_iff_eq_none, isSome_ops_retryAll, hnone kind]
  exact Bool.false_ne_true

theorem unkept_tick (h : c.tick now t = .ok (c', r)) (hnone : c.Unkept tx) : c'.Unkept tx := by
  intro kind
  refine eq_none_iff_forall_ne_some.mpr fun op hop => ?_
  have hbefore := (tick_shrinks h).ops hop
  rw [unkept_retryAll hnone kind] at hbefore
  cases hbefore

theorem retries_of_unkept (hnone : c.Unkept tx) : c.retries now t tx = false := by
  simp [retries, retried, hnone _]

theorem notices_of_unkept (hroots : c.manager.NoParents) (h : c.tick now t = .ok (c', r))
    (hnone : c.Unkept tx) : ∀ n ∈ r.notices, n.1 ≠ tx := by
  rintro n hn rfl
  obtain ⟨kind, op, hop⟩ := (tick_shrinks h).notices hroots n hn
  rw [unkept_retryAll hnone kind] at hop
  cases hop

theorem receive_manager : c.receive.manager = c.manager := by
  unfold receive
  split <;> rfl

end Collector

namespace CollectorRun
variable {build : Build} {s s' : CollectorRun A} {e : CollectorEvent A}

/-- A transaction is completed while no operation is kept under it, and used again only as long as
it is known to be completed; the event loop has room for the messages it is notified of. -/
def Settled (s : CollectorRun A) : CollectorEvent A → Prop
  | .push _ tx _ => tx ∈ s.finished → tx ∈ s.collector.manager.completedOps
  | .notifyOpChangeNonblocking _ accepted tx _ =>
    accepted = true ∧ (tx ∈ s.finished → tx ∈ s.collector.manager.completedOps)
  | .completed tx => s.collector.Unkept tx
  | .advance _ | .pop _ | .receive | .tick _ => True

instance : ∀ (s : CollectorRun A) (e : CollectorEvent A), Decidable (s.Settled e)
  | _, .push _ _ _ => inferInstanceAs (Decidable (_ → _))
  | _, .notifyOpChangeNonblocking _ _ _ _ => inferInstanceAs (Decidable (_ ∧ _))
  | s, .completed tx => inferInstanceAs (Decidable (s.collector.Unkept tx))
  | _, .advance _ | _, .pop _ | _, .receive | _, .tick _ => isTrue trivial

structure Closed (s : CollectorRun A) : Prop where
  noParents : s.collector.manager.NoParents
  finished : ∀ tx ∈ s.finished, s.collector.Unkept tx

theorem Closed.pushing {opened : Bool} {tx : Transaction} {op : OpEnum (OpProgress A)}
    {result : Except OpError Unit} (hs : s.Closed)
    (hold : tx ∈ s.finished → tx ∈ s.collector.manager.completedOps)
    (h : s.pushing build opened tx op = some (s', result)) : s'.Closed := by
  obtain ⟨c, hpush, rfl⟩ := pushing_eq_some h
  refine ⟨by cases hpush <;> exact hs.noParents, ?_⟩
  intro tx' htx'
  exact unkept_push hpush (hs.finished tx' htx') fun hsame => hold (hsame ▸ htx')

theorem Closed.step (hs : s.Closed) (hsettled : s.Settled e) (h : s.step build e = some s') : s'.Closed := by
  cases e with
  | advance ms =>
    cases h
    exact ⟨hs.noParents, hs.finished⟩
  | push opened tx op =>
    obtain ⟨⟨s₁, result⟩, hpush, rfl⟩ := map_eq_some_iff.mp h
    exact hs.pushing hsettled hpush
  | pop tx =>
    obtain ⟨⟨s₁, result⟩, hpop, rfl⟩ := map_eq_some_iff.mp h
    obtain ⟨c, hpops, rfl⟩ := popping_eq_some hpop
    exact ⟨by cases hpops <;> exact hs.noParents, fun tx' htx' => unkept_pop hpops (hs.finished tx' htx')⟩
  | completed tx =>
    cases h
    constructor
    · show (s.collector.completed tx).manager.NoParents
      rw [completed_of_noParents (hs.noParents tx)]
      exact hs.noParents
    · intro tx' htx'
      show (s.collector.completed tx).Unkept tx'
      rw [completed_of_noParents (hs.noParents tx)]
      rcases List.mem_cons.mp htx' with rfl | hold
      · exact hsettled
      · exact hs.finished tx' hold
  | notifyOpChangeNonblocking opened accepted tx op =>
    obtain ⟨⟨s₁, result⟩, hpush, hs'⟩ := map_eq_some_iff.mp h
    have hs₁ : s₁.Closed := hs.pushing hsettled.2 hpush
    simp only [hsettled.1, Bool.not_true, Bool.and_false] at hs'
    rw [← hs']
    exact hs₁
  | receive =>
    cases h
    constructor
    · show s.collector.receive.manager.NoParents
      rw [receive_manager]
      exact hs.noParents
    · intro tx htx kind
      show (s.collector.receive.manager.ops kind).get tx = none
      rw [receive_manager]
      exact hs.finished tx htx kind
  | tick t =>
    obtain ⟨⟨s₁, r⟩, htick, rfl⟩ := map_eq_some_iff.mp h
    obtain ⟨c, hc, rfl⟩ := ticking_eq_some htick
    exact ⟨(tick_shrinks hc).noParents hs.noParents, fun tx htx => unkept_tick hc (hs.finished tx htx)⟩

theorem Closed.new (clock : Nat) : (CollectorRun.new clock : CollectorRun A).Closed where
  noParents _ := rfl
  finished _ h := by cases h

/-- In every run of settled steps, a tick neither retries a transaction after `completed` was called
for it nor notifies anyone that it timed out. -/
theorem finished_leftAlone (build : Build) {s₀ s : CollectorRun A} {es : List (CollectorEvent A)}
    (hinit : (collecting build A).init s₀)
    (hsettled : (collecting build A).Along (fun s e => s.Settled e) s₀ es)
    (hrun : (collecting build A).runFrom s₀ es = some s) {t : Tick A} {c : Collector A} {r : Report}
    (htick : s.collector.tick s.clock t = .ok (c, r)) {tx : Transaction} (htx : tx ∈ s.finished) :
    r.retries tx = false ∧ ∀ n ∈ r.notices, n.1 ≠ tx := by
  obtain ⟨clock, -, rfl⟩ := hinit
  have hs : s.Closed := (collecting build A).invariant_of_along _ Closed
    (fun _ _ _ hs hcond hstep => hs.step hcond hstep) (Closed.new clock) hsettled hrun
  have hnone : s.collector.Unkept tx := hs.finished tx htx
  obtain ⟨_, _, -, -, -, rfl⟩ := tick_eq_ok_iff.mp htick
  exact ⟨retries_of_unkept hnone, notices_of_unkept hs.noParents htick hnone⟩

end CollectorRun

/-- A GET of a client, sent when the clock showed five minutes. -/
def clientGet : OpEnum (OpProgress Unit) :=
  ⟨.get, .new .get (300000 * 2 ^ 80), ⟨true, true, false, 0, false, ()⟩⟩

/-- A tick at which every operation has another peer it can be sent to. -/
def retryingTick : Tick Unit := { plainTick with alternative := fun _ _ _ => some () }

/-- A request that is taken up and answered is left alone by a tick after its time to live. -/
theorem answeredGet_leftAlone : ∃ s c r, (collecting ⟨false, false⟩ Unit).runFrom (.new 300000)
      [.push true clientGet.id clientGet, .receive, .pop clientGet.id, .completed clientGet.id,
        .advance 61000] = some s ∧
    clientGet.id ∈ s.finished ∧ s.collector.tick s.clock retryingTick = .ok (c, r) ∧
    r.retries clientGet.id = false ∧ ∀ n ∈ r.notices, n.1 ≠ clientGet.id := by
  obtain ⟨s, hs, hfin, ⟨c, r⟩, htick⟩ : ∃ s, (collecting ⟨false, false⟩ Unit).runFrom (.new 300000)
      [.push true clientGet.id clientGet, .receive, .pop clientGet.id, .completed clientGet.id,
        .advance 61000] = some s ∧
      clientGet.id ∈ s.finished ∧ (s.collector.tick s.clock retryingTick).Returns := by
    decide +kernel
  have hsettled : (collecting ⟨false, false⟩ Unit).Along (fun s e => s.Settled e) (.new 300000)
      [.push true clientGet.id clientGet, .receive, .pop clientGet.id, .completed clientGet.id,
        .advance 61000] := by
    decide +kernel
  exact ⟨s, c, r, hs, hfin, htick, CollectorRun.finished_leftAlone ⟨false, false⟩
    ⟨300000, by decide, rfl⟩ hsettled hs htick hfin⟩

/-- A request for whose message the event loop has no room is kept and taken for completed: a tick
five seconds later retries it, and one after its time to live tells the client that it timed out. -/
theorem refusedGet_retried : (∃ s c r, (collecting ⟨false, false⟩ Unit).runFrom (.new 300000)
        [.notifyOpChangeNonblocking true false clientGet.id clientGet, .receive, .advance 5000] = some s ∧
      clientGet.id ∈ s.finished ∧ s.collector.tick s.clock retryingTick = .ok (c, r) ∧
      r.retries clientGet.id = true) ∧ ∃ s c r, (collecting ⟨false, false⟩ Unit).runFrom (.new 300000)
        [.notifyOpChangeNonblocking true false clientGet.id clientGet, .receive, .advance 61000] = some s ∧
      clientGet.id ∈ s.finished ∧ s.collector.tick s.clock plainTick = .ok (c, r) ∧
      (clientGet.id, .operation .get) ∈ r.notices := by
  decide +kernel

/-! Operations between push and pop: what a pop returns, and collection after the time to live. -/
open List Collector Table

namespace Collector
variable {build : Build} {now : Nat} {c c' : Collector A} {t : Tick A} {r : Report} {tx tx' : Transaction}
  {op : OpEnum (OpProgress A)}

structure Offers (c : Collector A) (tx : Transaction) (op : OpEnum (OpProgress A)) : Prop where
  kept : c.kept tx = some op
  uncompleted : tx ∉ c.manager.completedOps
  idle : tx ∉ c.manager.underProgress

theorem Offers.pop (h : c.Offers tx op) : ∃ c', c.pop build now tx = .ok (c', .ok (some op)) := by
  have hkept := h.kept
  unfold Collector.kept at hkept
  cases hty : tx.transactionType with
  | panicked reason =>
    rw [hty] at hkept
    cases hkept
  | ok ty =>
    rw [hty] at hkept
    refine ⟨c.take ty tx, ?_⟩
    have hmgr : c.manager.pop ⟨build, (·.timedOut now), true⟩ tx =
        .ok ((c.take ty tx).manager, .ok (some op)) := by
      rw [OpManager.pop, if_neg h.uncompleted, if_neg h.idle, hty, Outcome.ok_bind]
      have hget : (c.manager.ops ty).get tx = some op := hkept
      rw [hget]
      rfl
    rw [Collector.pop, hmgr]
    rfl

variable {result : Except OpError Unit} {op' : OpEnum (OpProgress A)} (h : c.Offers tx op)
include h

theorem Offers.push_of_ne (hne : tx ≠ tx')
    (hpush : Pushes build now c tx' op' c' result) : c'.Offers tx op := by
  have hidle (l : List Transaction) (hl : tx ∉ l) : tx ∉ l.filter (· ≠ tx') := fun hin =>
    hl (mem_filter.mp hin).1
  have hmark : tx ∉ tx' :: c.manager.completedOps := by
    simpa [hne] using h.uncompleted
  cases hpush with
  | completed _ => exact h
  | late _ _ _ => exact ⟨h.kept, hmark, hidle _ h.idle⟩
  | closed _ _ _ | mistyped _ _ _ => exact ⟨h.kept, h.uncompleted, hidle _ h.idle⟩
  | kept _ _ _ =>
    refine ⟨?_, h.uncompleted, hidle _ h.idle⟩
    rw [← h.kept]
    refine kept_congr fun ty => ?_
    by_cases hkind : ty = op'.kind
    · subst hkind
      simp [Collector.keep, Collector.idle, Collector.announce, get_insert_of_ne hne]
    · simp [Collector.keep, Collector.idle, Collector.announce, hkind]

theorem Offers.pop_of_ne {result : Except OpNotAvailable (Option (OpEnum (OpProgress A)))}
    (hne : tx ≠ tx') (hpop : Pops now c tx' c' result) : c'.Offers tx op := by
  have hmark : tx ∉ tx' :: c.manager.completedOps := by
    simpa [hne] using h.uncompleted
  cases hpop with
  | completed _ | running _ => exact h
  | late _ _ _ => exact ⟨h.kept, hmark, h.idle⟩
  | @taken ty _ _ _ =>
    refine ⟨?_, h.uncompleted, ?_⟩
    · rw [← h.kept]
      refine kept_congr fun ty' => ?_
      show ((c.manager.removeOp ty tx').ops ty').get tx = (c.manager.ops ty').get tx
      rw [OpManager.get_ops_removeOp, if_neg fun hsame => hne hsame.2]
    · show tx ∉ tx' :: c.manager.underProgress
      simpa [hne] using h.idle

theorem Offers.completed_of_ne (hne : tx ≠ tx') (hroots : c.manager.NoParents) :
    (c.completed tx').Offers tx op := by
  rw [completed_of_noParents (hroots tx')]
  refine ⟨h.kept, ?_, fun hin => h.idle (mem_filter.mp hin).1⟩
  show tx ∉ tx' :: c.manager.completedOps
  simpa [hne] using h.uncompleted

omit h in
theorem Offers.of_push (htype : build.debugAssertions = true ∨ tx.transactionType = .ok op.kind)
    (hpush : Pushes build now c tx op c' result) (hok : result.isOk = true)
    (hnew : tx ∉ c'.manager.completedOps) : c'.Offers tx op := by
  cases hpush with
  | completed hcompl => exact absurd hcompl hnew
  | late _ _ _ => exact absurd mem_cons_self hnew
  | closed _ _ _ | mistyped _ _ _ => cases hok
  | kept _ _ hcheck =>
    refine ⟨?_, hnew, ?_⟩
    · rw [kept_of_type (htype.elim hcheck id)]
      simp [keep]
    · show tx ∉ c.manager.underProgress.filter (· ≠ tx)
      simp

theorem Offers.push_self (hpush : Pushes build now c tx op' c' result)
    (hlost : ¬ (result.isOk = true ∧ tx ∉ c'.manager.completedOps)) : c'.Offers tx op := by
  have hidle (l : List Transaction) (hl : tx ∉ l) : tx ∉ l.filter (· ≠ tx) := fun hin =>
    hl (mem_filter.mp hin).1
  cases hpush with
  | completed _ => exact h
  | late _ hprog _ => exact absurd hprog h.idle
  | closed _ _ _ | mistyped _ _ _ => exact ⟨h.kept, h.uncompleted, hidle _ h.idle⟩
  | kept hnew _ _ => exact absurd ⟨rfl, hnew⟩ hlost

omit h in
theorem retryOf_of_retries {kind : TransactionType} (hop : (c.manager.ops kind).get tx = some op)
    (h : c.retries now t tx = false) : c.retryOf now t kind tx op = none := by
  have hretr : c.retried now t kind tx = c.retryOf now t kind tx op := by
    rw [retried, hop, Option.bind_some]
  simp only [retries, List.any_eq_false, mem_cons, not_mem_nil, or_false, Bool.not_eq_true,
    Option.isSome_eq_false_iff, Option.isNone_iff_eq_none] at h
  cases kind with
  | connect | update => simp [retryOf, Tick.takesUp]
  | get => exact hretr.symm.trans (h _ (.inl rfl))
  | subscribe => exact hretr.symm.trans (h _ (.inr (.inl rfl)))
  | put => exact hretr.symm.trans (h _ (.inr (.inr rfl)))

theorem Offers.tick (htracks : c.Tracks now)
    (hnow : cutoffMultiplier * operationTtl ≤ now) (htick : c.tick now t = .ok (c', r))
    (hyoung : ttlCutoff now t < tx.id.toNat) (hretry : c.retries now t tx = false) :
    c'.Offers tx op := by
  have hkept := h.kept
  unfold Collector.kept at hkept
  cases hty : tx.transactionType with
  | panicked reason =>
    rw [hty] at hkept
    cases hkept
  | ok ty =>
    rw [hty] at hkept
    have hget : (c.manager.ops ty).get tx = some op := hkept
    have hsame : (c.retryAll now t).kept tx = some op := by
      rw [kept_of_type hty, get_ops_retryAll, hget, map_some, retryOf_of_retries hget hretry]
      rfl
    have hdelayed : ((c.retryAll now t).entry tx).delayed = false := by
      refine decide_eq_false fun hin => ?_
      obtain ⟨hchan, hset, -⟩ := htracks.delayed hin
      exact (htracks.tracked hget).elim hchan hset
    have hentry : c'.entry tx = (c.retryAll now t).entry tx := by
      rw [entry_tick hnow htracks.delayed_nodup htracks.ttlSet_nodup htick, cleanup_eq_passes rfl,
        expired_eq hnow, hdelayed, decide_eq_false (not_le.mpr hyoung)]
      simp
    refine ⟨(congrArg TransactionEntry.kept hentry).trans hsame, ?_, ?_⟩
    · exact of_decide_eq_false
        ((congrArg TransactionEntry.completed hentry).trans (decide_eq_false h.uncompleted))
    · exact of_decide_eq_false ((congrArg TransactionEntry.underProgress hentry).trans
        (decide_eq_false h.idle))

end Collector

namespace CollectorRun
variable {build : Build} {s s' : CollectorRun A} {e : CollectorEvent A} {tx : Transaction}

def Undisturbed (build : Build) (tx : Transaction) (s : CollectorRun A) (e : CollectorEvent A) : Prop :=
  s.Orderly build e ∧ match e with
    | .tick t => (s.held.get tx).isSome = true → s.collector.retries s.clock t tx = false
    | _ => True

instance (tx : Transaction) (s : CollectorRun A) (e : CollectorEvent A) :
    Decidable (s.Undisturbed build tx e) :=
  match e with
  | .tick _ => inferInstanceAs (Decidable (_ ∧ (_ → _)))
  | .advance _ | .push _ _ _ | .pop _ | .completed _ | .notifyOpChangeNonblocking _ _ _ _ | .receive =>
    inferInstanceAs (Decidable (_ ∧ True))

/-- What is held under a transaction is what a pop would return. -/
structure Keeps (tx : Transaction) (s : CollectorRun A) : Prop where
  sound : s.Sound
  held : ∀ op, s.held.get tx = some op → s.collector.Offers tx op

theorem Keeps.pushing {opened : Bool} {tx' : Transaction} {op : OpEnum (OpProgress A)}
    {result : Except OpError Unit} (hs : s.Keeps tx) (htyped : tx'.WellTyped)
    (htype : build.debugAssertions = true ∨ tx'.transactionType = .ok op.kind)
    (h : s.pushing build opened tx' op = some (s', result)) : s'.Keeps tx := by
  refine ⟨hs.sound.pushing htyped htype h, ?_⟩
  obtain ⟨c, hpush, rfl⟩ := pushing_eq_some h
  intro op₁ hheld
  by_cases hkeeps : result.isOk = true ∧ tx' ∉ c.manager.completedOps
  · rw [if_pos (by simpa using hkeeps), get_insert] at hheld
    split_ifs at hheld with hsame
    · cases hheld
      subst hsame
      exact .of_push htype hpush hkeeps.1 hkeeps.2
    · exact (hs.held op₁ hheld).push_of_ne hsame hpush
  · rw [if_neg (by simpa using hkeeps)] at hheld
    by_cases hsame : tx = tx'
    · subst hsame
      exact (hs.held op₁ hheld).push_self hpush hkeeps
    · exact (hs.held op₁ hheld).push_of_ne hsame hpush

theorem Keeps.completing (hs : s.Keeps tx) (tx' : Transaction) : (s.completing tx').Keeps tx := by
  refine ⟨hs.sound.completing tx', ?_⟩
  intro op hheld
  obtain ⟨hsame, hget⟩ := get_of_get_remove hheld
  exact (hs.held op hget).completed_of_ne hsame hs.sound.tracks.noParents

theorem Keeps.step (hs : s.Keeps tx) (hcond : s.Undisturbed build tx e)
    (h : s.step build e = some s') : s'.Keeps tx := by
  have hsound : s'.Sound := hs.sound.step hcond.1 h
  cases e with
  | advance ms =>
    cases h
    exact ⟨hsound, hs.held⟩
  | push opened tx' op =>
    obtain ⟨⟨s₁, result⟩, hpush, rfl⟩ := map_eq_some_iff.mp h
    exact hs.pushing hcond.1.1 hcond.1.2 hpush
  | pop tx' =>
    obtain ⟨⟨s₁, result⟩, hpop, rfl⟩ := map_eq_some_iff.mp h
    obtain ⟨c, hpops, rfl⟩ := popping_eq_some hpop
    refine ⟨hsound, ?_⟩
    intro op hheld
    obtain ⟨hsame, hget⟩ := get_of_get_remove hheld
    exact (hs.held op hget).pop_of_ne hsame hpops
  | completed tx' =>
    cases h
    exact hs.completing tx'
  | notifyOpChangeNonblocking opened accepted tx' op =>
    obtain ⟨⟨s₁, result⟩, hpush, hs'⟩ := map_eq_some_iff.mp h
    have hs₁ : s₁.Keeps tx := hs.pushing hcond.1.1 hcond.1.2 hpush
    dsimp only at hs'
    split_ifs at hs' with hrefus
    · rw [← hs']
      exact hs₁.completing tx'
    · rw [← hs']
      exact hs₁
  | receive =>
    cases h
    refine ⟨hsound, fun op hheld => ?_⟩
    have hoffers := hs.held op hheld
    have hmgr : s.collector.receive.manager = s.collector.manager := receive_manager
    refine ⟨?_, ?_, ?_⟩
    · exact (kept_congr fun ty => by rw [hmgr]).trans hoffers.kept
    · exact hmgr ▸ hoffers.uncompleted
    · exact hmgr ▸ hoffers.idle
  | tick t =>
    obtain ⟨⟨s₁, r⟩, htick, rfl⟩ := map_eq_some_iff.mp h
    obtain ⟨c, hc, rfl⟩ := ticking_eq_some htick
    refine ⟨hsound, fun op hheld => ?_⟩
    rw [get_retain, filter_eq_some_iff] at hheld
    obtain ⟨hget, hyoung⟩ := hheld
    have hretry : s.collector.retries s.clock t tx = false := hcond.2 (by rw [hget]; rfl)
    exact (hs.held op hget).tick hs.sound.tracks hs.sound.clock hc (of_decide_eq_true hyoung) hretry

/-- In every run of orderly steps in which the collector does not retry the operation held under a
transaction, a pop returns that operation, and a tick after its time to live removes it. -/
theorem held_popped (build : Build) {tx : Transaction} {s₀ s : CollectorRun A}
    {es : List (CollectorEvent A)} (hinit : (collecting build A).init s₀)
    (hcond : (collecting build A).Along (fun s e => s.Undisturbed build tx e) s₀ es)
    (hrun : (collecting build A).runFrom s₀ es = some s) {op : OpEnum (OpProgress A)}
    (hheld : s.held.get tx = some op) : (∃ s', s.popping build tx = some (s', .ok (some op))) ∧
      ∀ t, s.Orderly build (.tick t) → operationTtl < tx.elapsed s.clock →
        ∃ c r, s.collector.tick s.clock t = .ok (c, r) ∧ c.Unkept tx := by
  obtain ⟨clock, hclock, rfl⟩ := hinit
  have hnew : (CollectorRun.new clock : CollectorRun A).Keeps tx :=
    ⟨⟨hclock, Tracks.new⟩, fun _ h => nomatch h⟩
  have hs : s.Keeps tx := (collecting build A).invariant_of_along _ (Keeps tx)
    (fun _ _ _ hs hcond hstep => hs.step hcond hstep) hnew hcond hrun
  constructor
  · have hpop : ∃ c, s.collector.pop build s.clock tx = .ok (c, .ok (some op)) := (hs.held op hheld).pop
    obtain ⟨c, hpop⟩ := hpop
    refine ⟨{ s with collector := c, held := s.held.remove tx }, ?_⟩
    rw [popping, hpop]
  · intro t horderly hold
    obtain ⟨c, r, htick⟩ := hs.sound.tick_returns t
    refine ⟨c, r, htick, fun kind => ?_⟩
    have hexpir := olderThan_of_elapsed hs.sound.clock t hold
    refine eq_none_iff_forall_ne_some.mpr fun op' hop => ?_
    obtain ⟨-, -, hin | hin⟩ := hs.sound.tracks.kept_of_tick hs.sound.clock htick hop
    · exact absurd (horderly tx hin) (not_lt.mpr hexpir)
    · exact absurd (mem_unexpired.mp hin).2 (not_lt.mpr hexpir)

end CollectorRun

/-- A request that waits for its answer is popped as it was pushed, and removed after its time to
live. -/
theorem forwardedGet_popped : ∃ s s' c r, (collecting ⟨false, false⟩ Unit).runFrom (.new 300000)
      [.push true forwardedGet.id forwardedGet, .receive, .advance 30000, .tick plainTick,
        .advance 31000] = some s ∧
    s.popping ⟨false, false⟩ forwardedGet.id = some (s', .ok (some forwardedGet)) ∧
    s.collector.tick s.clock plainTick = .ok (c, r) ∧ c.Unkept forwardedGet.id := by
  obtain ⟨s, hs, hheld, horderly, hold⟩ : ∃ s, (collecting ⟨false, false⟩ Unit).runFrom (.new 300000)
      [.push true forwardedGet.id forwardedGet, .receive, .advance 30000, .tick plainTick,
        .advance 31000] = some s ∧
      s.held.get forwardedGet.id = some forwardedGet ∧ s.Orderly ⟨false, false⟩ (.tick plainTick) ∧
      operationTtl < forwardedGet.id.elapsed s.clock := by
    decide +kernel
  have hcond : (collecting ⟨false, false⟩ Unit).Along
      (fun s e => s.Undisturbed ⟨false, false⟩ forwardedGet.id e) (.new 300000)
      [.push true forwardedGet.id forwardedGet, .receive, .advance 30000,
        .tick plainTick, .advance 31000] := by
    decide +kernel
  obtain ⟨⟨s', hpop⟩, hcoll⟩ := CollectorRun.held_popped ⟨false, false⟩
    ⟨300000, by decide, rfl⟩ hcond hs hheld
  obtain ⟨c, r, htick, hunkept⟩ := hcoll plainTick horderly hold
  exact ⟨s, s', c, r, hs, hpop, htick, hunkept⟩

/-- A PUT request that came with an id of the type of a GET. -/
def mistypedPut : OpEnum (OpProgress Unit) := { forwardedGet with kind := .put }

/-- A release build files such a request among the PUT operations, and looks for it among the GET
operations: it is neither popped nor collected. -/
theorem mistypedPut_lost : (∃ s s', (collecting ⟨false, false⟩ Unit).runFrom (.new 300000)
        [.push true mistypedPut.id mistypedPut] = some s ∧
      s.held.get mistypedPut.id = some mistypedPut ∧
      s.popping ⟨false, false⟩ mistypedPut.id = some (s', .ok none)) ∧
    ∃ s c r, (collecting ⟨false, false⟩ Unit).runFrom (.new 300000)
        [.push true mistypedPut.id mistypedPut, .receive, .advance 61000] = some s ∧
      s.held.get mistypedPut.id = some mistypedPut ∧ operationTtl < mistypedPut.id.elapsed s.clock ∧
      s.collector.tick s.clock plainTick = .ok (c, r) ∧ ¬ c.Unkept mistypedPut.id := by
  refine ⟨?_, by decide +kernel⟩
  obtain ⟨s, hs, hheld, ⟨s', result⟩, hpop, hnone⟩ : ∃ s, (collecting ⟨false, false⟩ Unit).runFrom
      (.new 300000) [.push true mistypedPut.id mistypedPut] = some s ∧
      s.held.get mistypedPut.id = some mistypedPut ∧
      ∃ popped, s.popping ⟨false, false⟩ mistypedPut.id = some popped ∧ popped.2.toOption = some none := by
    decide +kernel
  cases result with
  | error reason => cases hnone
  | ok op =>
    cases hnone
    exact ⟨s, s', hs, hheld, hpop⟩

end Freenet.Node
