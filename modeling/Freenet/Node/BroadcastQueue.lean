import Freenet.Lib.Entries
import Freenet.Lib.Machine
import Freenet.Operations.UpdateRequest

/-! The queue of outbound broadcasts: one entry for each contract and peer, with the last state. -/
namespace Freenet.Node
open Lib Option
open Contract (ContractKey WrappedState)
open Freenet.Operations (PeerKeyLocation)

def defaultMaxQueueDepth : Nat := 256

abbrev DedupeKey := ContractKey × PeerKeyLocation

structure BroadcastEntry where
  key : ContractKey
  target : PeerKeyLocation
  newState : WrappedState
  payloadSize : Nat
  deriving DecidableEq

def BroadcastEntry.dedupeKey (e : BroadcastEntry) : DedupeKey := (e.key, e.target)

structure QueueState where
  order : List DedupeKey
  entries : AList fun _ : DedupeKey => BroadcastEntry

namespace QueueState

def new : QueueState := ⟨[], ∅⟩

def len (q : QueueState) : Nat := q.entries.entries.length

/-- The loop of `pop_front`: keys without an entry are skipped. -/
def popFrom (entries : AList fun _ : DedupeKey => BroadcastEntry) :
    List DedupeKey → Option BroadcastEntry × QueueState
  | [] => (none, ⟨[], entries⟩)
  | key :: order =>
    match entries.lookup key with
    | some entry => (some entry, ⟨order, entries.erase key⟩)
    | none => popFrom entries order

def popFront (q : QueueState) : Option BroadcastEntry × QueueState := popFrom q.entries q.order

/-- The loop of `enqueue`, with the evicted entries. -/
def evictOldest (maxQueueDepth : Nat) : Nat → QueueState → QueueState × List BroadcastEntry
  | 0, q => (q, [])
  | rounds + 1, q =>
    if maxQueueDepth ≤ q.len then
      match q.popFront with
      | (none, q) => (q, [])
      | (some entry, q) =>
        let (q, evicted) := evictOldest maxQueueDepth rounds q
        (q, entry :: evicted)
    else (q, [])

/-- The queue after an entry was added, and the entries evicted for it. There are at most as many
rounds of eviction as keys, and one that finds nothing. -/
def enqueue (maxQueueDepth : Nat) (q : QueueState) (key : ContractKey) (target : PeerKeyLocation)
    (newState : WrappedState) : QueueState × List BroadcastEntry :=
  match q.entries.lookup (key, target) with
  | some existing => ({ q with entries := q.entries.insert (key, target) { existing with newState } }, [])
  | none =>
    let (q, evicted) := evictOldest maxQueueDepth (q.order.length + 1) q
    (⟨q.order ++ [(key, target)], q.entries.insert (key, target) ⟨key, target,
      newState, newState.length⟩⟩, evicted)

end QueueState

open QueueState

/-- What happened to the queue, the latest first. -/
inductive QueueRecord where
  | enqueued (key : DedupeKey) (state : WrappedState)
  | popped (key : DedupeKey)

def firstEnqueued : List QueueRecord → DedupeKey → Option Nat
  | [], _ => none
  | .enqueued key' _ :: log, key =>
    if key = key' then some ((firstEnqueued log key).getD log.length) else firstEnqueued log key
  | .popped key' :: log, key => if key = key' then none else firstEnqueued log key

def lastEnqueued : List QueueRecord → DedupeKey → Option WrappedState
  | [], _ => none
  | .enqueued key' state :: log, key => if key = key' then some state else lastEnqueued log key
  | .popped _ :: log, key => lastEnqueued log key

inductive BroadcastCall where
  | enqueue (key : ContractKey) (target : PeerKeyLocation) (newState : WrappedState)
  | popFront

structure BroadcastRun where
  queue : QueueState
  log : List QueueRecord

namespace BroadcastRun

def new : BroadcastRun := ⟨.new, []⟩

def step (r : BroadcastRun) : BroadcastCall → BroadcastRun
  | .enqueue key target newState =>
    let (queue, evicted) := r.queue.enqueue defaultMaxQueueDepth key target newState
    -- an eviction pops an entry too
    ⟨queue, .enqueued (key, target) newState :: evicted.foldl
      (fun log e => .popped e.dedupeKey :: log) r.log⟩
  | .popFront =>
    match r.queue.popFront with
    | (none, queue) => ⟨queue, r.log⟩
    | (some entry, queue) => ⟨queue, .popped entry.dedupeKey :: r.log⟩

def after (calls : List BroadcastCall) : BroadcastRun := calls.foldl step new

@[grind]
structure Sound (r : BroadcastRun) : Prop where
  queued : ∀ key, key ∈ r.queue.order ↔ key ∈ r.queue.entries
  waiting : ∀ key, key ∈ r.queue.order ↔ (firstEnqueued r.log key).isSome = true
  ordered : r.queue.order.Pairwise fun key key' =>
    (firstEnqueued r.log key).getD 0 < (firstEnqueued r.log key').getD 0
  latest : ∀ key entry, r.queue.entries.lookup key = some entry →
    entry.dedupeKey = key ∧ lastEnqueued r.log key = some entry.newState
  within : r.queue.len ≤ defaultMaxQueueDepth

theorem firstEnqueued_lt {log : List QueueRecord} {key : DedupeKey} {time : Nat}
    (h : firstEnqueued log key = some time) : time < log.length := by
  induction log generalizing time with
  | nil => cases h
  | cons record log ih => cases hbefore : firstEnqueued log key <;> cases record <;> grind [firstEnqueued]

namespace Sound
variable {r : BroadcastRun} {key : DedupeKey} {order : List DedupeKey} {entry : BroadcastEntry}

section Steps
variable (h : r.Sound)
include h

theorem nodup : r.queue.order.Nodup := by
  refine h.ordered.imp ?_
  rintro key key' hlt rfl
  exact Nat.lt_irrefl _ hlt

theorem popFront_cons (horder : r.queue.order = key :: order) :
    ∃ entry, r.queue.entries.lookup key = some entry ∧
      r.queue.popFront = (some entry, ⟨order, r.queue.entries.erase key⟩) := by
  have hmem : key ∈ r.queue.entries := (h.queued key).mp (by simp [horder])
  obtain ⟨entry, hentry⟩ := isSome_iff_exists.mp (AList.lookup_isSome.mpr hmem)
  refine ⟨entry, hentry, ?_⟩
  rw [popFront, horder, popFrom, hentry]

theorem popped (horder : r.queue.order = key :: order) :
    Sound ⟨⟨order, r.queue.entries.erase key⟩, .popped key :: r.log⟩ := by
  have hnodup := h.nodup
  obtain ⟨entry, hentry, -⟩ := h.popFront_cons horder
  have hlength := length_erase_of_lookup hentry
  constructor
  · grind [AList.mem_erase]
  · grind [firstEnqueued]
  · have hordered := h.ordered
    rw [horder, List.pairwise_cons] at hordered
    refine hordered.2.imp_of_mem ?_
    grind [firstEnqueued]
  · grind [lastEnqueued, lookup_erase]
  · grind [len]

theorem replaced {newState : WrappedState} (hentry : r.queue.entries.lookup key = some entry) :
    Sound ⟨{ r.queue with entries := r.queue.entries.insert key { entry with newState } },
      .enqueued key newState :: r.log⟩ := by
  have hmem : key ∈ r.queue.entries := AList.lookup_isSome.mp (by simp [hentry])
  obtain ⟨time, htime⟩ := isSome_iff_exists.mp ((h.waiting key).mp ((h.queued key).mpr hmem))
  have htimes (key' : DedupeKey) :
      firstEnqueued (.enqueued key newState :: r.log) key' = firstEnqueued r.log key' := by
    grind [firstEnqueued]
  have hlength := length_erase_of_lookup hentry
  constructor
  · grind [AList.mem_insert]
  · grind
  · simpa only [htimes] using h.ordered
  · grind [lastEnqueued, lookup_insert, BroadcastEntry.dedupeKey]
  · grind [len, length_insert]

theorem appended {key : ContractKey} {target : PeerKeyLocation} {newState : WrappedState}
    (hnone : r.queue.entries.lookup (key, target) = none) (hroom : r.queue.len < defaultMaxQueueDepth) :
    Sound ⟨⟨r.queue.order ++ [(key, target)],
      r.queue.entries.insert (key, target) ⟨key, target, newState, newState.length⟩⟩,
      .enqueued (key, target) newState :: r.log⟩ := by
  have hnew : (key, target) ∉ r.queue.order := (h.queued _).not.mpr (AList.lookup_eq_none.mp hnone)
  have hfirst : firstEnqueued r.log (key, target) = none :=
    not_isSome_iff_eq_none.mp ((h.waiting _).not.mp hnew)
  have hlength := length_erase_of_none hnone
  constructor
  · grind [AList.mem_insert]
  · grind [firstEnqueued]
  · refine List.pairwise_append.mpr ⟨?_, List.pairwise_singleton _ _, ?_⟩
    · refine h.ordered.imp_of_mem ?_
      grind [firstEnqueued]
    · -- whatever waits was enqueued before
      intro a ha b hb
      obtain ⟨time, htime⟩ := isSome_iff_exists.mp ((h.waiting a).mp ha)
      have hlt := firstEnqueued_lt htime
      grind [firstEnqueued]
  · grind [lastEnqueued, lookup_insert, BroadcastEntry.dedupeKey]
  · grind [len, length_insert]

theorem evictOldest_cases :
    r.queue.evictOldest defaultMaxQueueDepth (r.queue.order.length + 1) = (r.queue, []) ∧
        r.queue.len < defaultMaxQueueDepth ∨
      ∃ key order entry, r.queue.order = key :: order ∧ entry.dedupeKey = key ∧
        r.queue.evictOldest defaultMaxQueueDepth (r.queue.order.length + 1) =
          (⟨order, r.queue.entries.erase key⟩, [entry]) ∧
        len ⟨order, r.queue.entries.erase key⟩ < defaultMaxQueueDepth := by
  by_cases hfull : defaultMaxQueueDepth ≤ r.queue.len
  · right
    cases horder : r.queue.order with
    | nil =>
      have hempty (key : DedupeKey) : key ∉ r.queue.entries := by simp [← h.queued, horder]
      have hnone : r.queue.entries.entries = [] :=
        List.eq_nil_iff_forall_not_mem.mpr fun e he => hempty e.1 (List.mem_keys_of_mem he)
      rw [len, hnone] at hfull
      cases hfull
    | cons key order =>
      obtain ⟨entry, hentry, hpop⟩ := h.popFront_cons horder
      have hlength := length_erase_of_lookup hentry
      have hroom : len ⟨order, r.queue.entries.erase key⟩ < defaultMaxQueueDepth := by
        grind [len]
      refine ⟨key, order, entry, rfl, (h.latest key entry hentry).1, ?_, hroom⟩
      rw [evictOldest, if_pos hfull, hpop]
      dsimp only
      rw [List.length_cons, evictOldest, if_neg (Nat.not_le.mpr hroom)]
  · left
    rw [evictOldest, if_neg hfull]
    exact ⟨rfl, Nat.not_le.mp hfull⟩

theorem step (call : BroadcastCall) : (r.step call).Sound := by
  cases call with
  | enqueue key target newState =>
    cases hentry : r.queue.entries.lookup (key, target) with
    | some entry =>
      simp only [BroadcastRun.step, enqueue, hentry]
      exact h.replaced hentry
    | none =>
      simp only [BroadcastRun.step, enqueue, hentry]
      obtain ⟨hevict, hroom⟩ | ⟨first, order, entry, horder, rfl, hevict, hroom⟩ := h.evictOldest_cases
      · rw [hevict]
        exact h.appended hentry hroom
      · rw [hevict]
        refine (h.popped horder).appended ?_ hroom
        rw [lookup_erase, hentry, ite_self]
  | popFront =>
    unfold BroadcastRun.step
    cases horder : r.queue.order with
    | nil =>
      rw [popFront, horder, popFrom, ← horder]
      exact h
    | cons key order =>
      obtain ⟨entry, hentry, hpop⟩ := h.popFront_cons horder
      obtain ⟨rfl, -⟩ := h.latest key entry hentry
      rw [hpop]
      exact h.popped horder

end Steps

theorem after (calls : List BroadcastCall) : (after calls).Sound := by
  have hnew : new.Sound := ⟨by simp [new, QueueState.new], by simp [new, QueueState.new, firstEnqueued],
    List.Pairwise.nil, by simp [new, QueueState.new], Nat.zero_le _⟩
  exact List.foldlRecOn calls BroadcastRun.step hnew fun r hr call _ => hr.step call

end Sound
end BroadcastRun

/-- In every run of the queue: each queued key is once in the order and nothing else is, the queue
stays within its depth, and what is popped is the key enqueued first, with the state enqueued last.
-/
theorem broadcastQueue_inOrder (calls : List BroadcastCall) : let r := BroadcastRun.after calls
    r.queue.order.Nodup ∧ (∀ key, key ∈ r.queue.order ↔ key ∈ r.queue.entries) ∧
      r.queue.len ≤ defaultMaxQueueDepth ∧ (r.queue.popFront.1 = none ↔ r.queue.order = []) ∧
      ∀ entry rest, r.queue.popFront = (some entry, rest) →
        r.queue.order = entry.dedupeKey :: rest.order ∧
        lastEnqueued r.log entry.dedupeKey = some entry.newState ∧
        ∃ time, firstEnqueued r.log entry.dedupeKey = some time ∧
          ∀ key ∈ rest.order, ∃ later, firstEnqueued r.log key = some later ∧ time < later := by
  intro r
  have h : r.Sound := BroadcastRun.Sound.after calls
  refine ⟨h.nodup, h.queued, h.within, ?_⟩
  cases horder : r.queue.order with
  | nil =>
    rw [popFront, horder]
    exact ⟨iff_of_true rfl rfl, fun entry rest hpopp => by cases hpopp⟩
  | cons key order =>
    obtain ⟨entry, hentry, hpop⟩ := h.popFront_cons horder
    rw [hpop]
    refine ⟨by simp, ?_⟩
    rintro entry' rest hpopp
    cases hpopp
    obtain ⟨rfl, hlast⟩ := h.latest key entry hentry
    refine ⟨rfl, hlast, ?_⟩
    have hordered := h.ordered
    rw [horder, List.pairwise_cons] at hordered
    obtain ⟨time, htime⟩ := isSome_iff_exists.mp ((h.waiting entry.dedupeKey).mp (by simp [horder]))
    refine ⟨time, htime, fun key hmem => ?_⟩
    obtain ⟨later, hlater⟩ := isSome_iff_exists.mp ((h.waiting key).mp (by simp [horder, hmem]))
    have hlt := hordered.1 key hmem
    rw [htime, hlater] at hlt
    exact ⟨later, hlater, hlt⟩

/-- A broadcast is replaced while it waits in front of another one. -/
def replacingCalls : List BroadcastCall :=
  [.enqueue ⟨1, 1⟩ ⟨1, some 1⟩ [1], .enqueue ⟨1, 1⟩ ⟨2, some 2⟩ [1], .enqueue ⟨1, 1⟩ ⟨1, some 1⟩ [2]]

theorem replacedState_popped : ∃ entry rest,
    (BroadcastRun.after replacingCalls).queue.popFront = (some entry, rest) ∧
    entry.target = ⟨1, some 1⟩ ∧ entry.newState = [2] ∧
    lastEnqueued (BroadcastRun.after replacingCalls).log entry.dedupeKey = some entry.newState := by
  refine ⟨_, _, rfl, by decide +kernel, by decide +kernel, ?_⟩
  exact ((broadcastQueue_inOrder replacingCalls).2.2.2.2 _ _ rfl).2.1

def defaultSmallPayloadConcurrency : Nat := 12

def defaultLargePayloadConcurrency : Nat := 2

def payloadSizeThreshold : Nat := 64 * 1024

inductive WorkerEvent where
  | call (c : BroadcastCall)
  | acquire
  | complete (task : Nat)

/-- The queue, the popped entry that waits for a permit, and the tasks that hold one. -/
structure Worker where
  queue : QueueState
  waiting : Option BroadcastEntry
  sending : List BroadcastEntry

namespace Worker

def new : Worker := ⟨.new, none, []⟩

/-- The pool of an entry, by its number of permits. -/
def semaphore (e : BroadcastEntry) : Nat :=
  if e.payloadSize < payloadSizeThreshold then defaultSmallPayloadConcurrency
  else defaultLargePayloadConcurrency

def machine : Machine Worker WorkerEvent where
  init w := w = new
  step w
    | .call (.enqueue key target newState) =>
      some { w with queue := (w.queue.enqueue defaultMaxQueueDepth key target newState).1 }
    | .call .popFront =>
      let (entry, queue) := w.queue.popFront
      if w.waiting = none then some { w with queue, waiting := entry } else none
    | .acquire => do
      let entry ← w.waiting
      if w.sending.countP (semaphore · = semaphore entry) < semaphore entry then
        some { w with waiting := none, sending := entry :: w.sending }
      else none
    | .complete task => some { w with sending := w.sending.eraseIdx task }

def largeSending (w : Worker) : Nat := w.sending.countP (payloadSizeThreshold ≤ ·.newState.length)

/-- What replaces a queued state has its size. -/
def sameSize (w : Worker) : WorkerEvent → Bool
  | .call (.enqueue key target newState) =>
    (w.queue.entries.lookup (key, target)).all (·.newState.length = newState.length)
  | _ => true

def HasSize (e : BroadcastEntry) : Prop := e.payloadSize = e.newState.length

def QueueSized (q : QueueState) : Prop := ∀ key e, q.entries.lookup key = some e → HasSize e

@[grind]
structure Sized (w : Worker) : Prop where
  queued : QueueSized w.queue
  taken : ∀ e, w.waiting = some e ∨ e ∈ w.sending → HasSize e
  permits : w.sending.countP (semaphore · = defaultLargePayloadConcurrency) ≤ defaultLargePayloadConcurrency

theorem popFrom_sized {q : QueueState} (h : QueueSized q) (order : List DedupeKey) :
    (∀ e, (popFrom q.entries order).1 = some e → HasSize e) ∧ QueueSized (popFrom q.entries order).2 := by
  induction order with
  | nil => exact ⟨nofun, h⟩
  | cons key order ih => grind [popFrom, QueueSized, lookup_erase]

theorem evictOldest_sized (rounds : Nat) {q : QueueState} (h : QueueSized q) :
    QueueSized (q.evictOldest defaultMaxQueueDepth rounds).1 := by
  induction rounds generalizing q with
  | zero => exact h
  | succ rounds ih =>
    have hpop := popFrom_sized h q.order
    grind [evictOldest, popFront]

theorem Sized.step {w w' : Worker} {event : WorkerEvent} (h : w.Sized)
    (hsame : w.sameSize event) (hstep : machine.step w event = some w') : w'.Sized := by
  match event with
  | .call (.enqueue key target newState) =>
    have hevict := evictOldest_sized (w.queue.order.length + 1) h.queued
    cases hstep
    refine { h with queued := ?_ }
    cases hentry : w.queue.entries.lookup (key, target) with
    | none => grind [enqueue, lookup_insert, QueueSized, HasSize]
    | some entry =>
      grind [enqueue, lookup_insert, QueueSized, HasSize, sameSize]
  | .call .popFront =>
    have hpop := popFrom_sized h.queued w.queue.order
    grind [machine, popFront]
  | .acquire =>
    obtain ⟨entry, hentry, hstep⟩ := bind_eq_some_iff.mp hstep
    grind
  | .complete task =>
    cases hstep
    exact ⟨h.queued, fun e he => h.taken e (he.imp_right List.mem_of_mem_eraseIdx),
      (List.Sublist.countP_le (w.sending.eraseIdx_sublist task)).trans h.permits⟩

theorem largeSending_le (events : List WorkerEvent) {w : Worker}
    (hsame : machine.Along (fun w event => w.sameSize event) new events)
    (hrun : machine.runFrom new events = some w) :
    QueueSized w.queue ∧ w.largeSending ≤ defaultLargePayloadConcurrency := by
  have hnew : new.Sized := by constructor <;> simp [new, QueueState.new, QueueSized]
  have h : w.Sized := machine.invariant_of_along _ Sized (fun _ _ _ h => h.step) hnew hsame hrun
  refine ⟨h.queued, le_trans (List.countP_mono_left fun e he => ?_) h.permits⟩
  grind [HasSize, semaphore]

/-- Broadcasts to these peers are queued with a state, get another one and are sent. -/
def replaceAndSend (peers : List Nat) (before after : WrappedState) : List WorkerEvent :=
  let enqueueAll (state : WrappedState) :=
    peers.map fun n => WorkerEvent.call (.enqueue ⟨1, 1⟩ ⟨n, some n⟩ state)
  enqueueAll before ++ enqueueAll after ++ peers.flatMap fun _ => [.call .popFront, .acquire]

theorem sameSize_replaceAndSend (before after : WrappedState) (hsize : before.length = after.length) :
    machine.Along (fun w event => w.sameSize event) new (replaceAndSend [1, 2] before after) := by
  iterate 2 refine ⟨rfl, ?_⟩; rintro _ ⟨⟩
  iterate 2 refine ⟨decide_eq_true hsize, ?_⟩; rintro _ ⟨⟩
  iterate 4 refine ⟨rfl, fun _ _ => ?_⟩
  trivial

theorem largeSending_replaceAndSend (before after : WrappedState) (hsize : before.length = after.length)
    (hlarge : payloadSizeThreshold ≤ after.length) :
    ∃ w, machine.runFrom new (replaceAndSend [1, 2] before after) = some w ∧ w.largeSending = 2 := by
  obtain ⟨w, queue, hw, hwaiting, hsending, hpop⟩ : ∃ w queue,
      machine.runFrom new ((replaceAndSend [1, 2] before after).take 5) = some w ∧
      w.waiting = some ⟨⟨1, 1⟩, ⟨1, some 1⟩, after, before.length⟩ ∧ w.sending = [] ∧
      w.queue.popFront = (some ⟨⟨1, 1⟩, ⟨2, some 2⟩, after, before.length⟩, queue) :=
    ⟨_, _, rfl, rfl, rfl, rfl⟩
  rw [show replaceAndSend [1, 2] before after = (replaceAndSend [1, 2] before after).take 5 ++
    [.acquire, .call .popFront, .acquire] from rfl, Machine.runFrom_append, hw]
  simp [Machine.runFrom, machine, hwaiting, hsending, hpop, semaphore, hsize, hlarge,
    Nat.not_lt.mpr hlarge, defaultLargePayloadConcurrency, largeSending]

theorem largeSending_le_equalSize : ∃ w,
    machine.runFrom new (replaceAndSend [1, 2] (.replicate payloadSizeThreshold 0)
      (.replicate payloadSizeThreshold 1)) = some w ∧
    w.largeSending = 2 ∧ w.largeSending ≤ defaultLargePayloadConcurrency := by
  obtain ⟨w, hrun, htwo⟩ := largeSending_replaceAndSend (.replicate payloadSizeThreshold 0)
    (.replicate payloadSizeThreshold 1) (by simp) (by simp)
  exact ⟨w, hrun, htwo, (largeSending_le _ (sameSize_replaceAndSend _ _ (by simp)) hrun).2⟩

theorem three_large_sending : ∃ w,
    machine.runFrom new (replaceAndSend [1, 2, 3] [] (.replicate payloadSizeThreshold 0)) = some w ∧
    defaultLargePayloadConcurrency < w.largeSending := by
  refine ⟨_, rfl, ?_⟩
  simp [largeSending, defaultLargePayloadConcurrency]

end Worker
end Freenet.Node
