import Freenet.Contract.ContractHandling
import Freenet.Lib.Entries

/-! The fair queue in front of the executor: queues per contract, a rotation of those with events,
and runs. -/
namespace Freenet.Contract
open Lib List

section Queue
def maxQueuedPerContract : Nat := 100

def maxTotalFairQueue : Nat := 5000

abbrev EventId := Nat

/-- The events of the contract handler, with the contract that they are about. -/
inductive EventKind where
  | putQuery (key : ContractKey)
  | updateQuery (key : ContractKey)
  | getSummaryQuery (key : ContractKey)
  | getDeltaQuery (key : ContractKey)
  | getQuery (instanceId : ContractInstanceId)
  | registerSubscriberListener (key : ContractInstanceId)
  | notifySubscriptionError (key : ContractInstanceId)
  | delegateRequest
  | delegateResponse
  | putResponse
  | getResponse
  | updateResponse
  | updateNoChange
  | registerSubscriberListenerResponse
  | querySubscriptions
  | querySubscriptionsResponse
  | getSummaryResponse
  | getDeltaResponse
  | notifySubscriptionErrorResponse
  | clientDisconnect
  deriving DecidableEq

structure HandlerEvent (C : Type*) where
  kind : EventKind
  content : C
  deriving DecidableEq

inductive QueueKey where
  | contract (id : ContractInstanceId)
  | default
  deriving DecidableEq

def EventKind.extractContractId : EventKind → Option ContractInstanceId
  | .putQuery key | .updateQuery key | .getSummaryQuery key | .getDeltaQuery key => some key.id
  | .getQuery instanceId => some instanceId
  | .registerSubscriberListener key | .notifySubscriptionError key => some key
  | _ => none

def EventKind.queueKey (kind : EventKind) : QueueKey :=
  match kind.extractContractId with
  | some id => .contract id
  | none => .default

structure RejectedEvent (C : Type*) where
  id : EventId
  event : HandlerEvent C

structure FairEventQueue (C : Type*) where
  contractQueues : AList fun _ : ContractInstanceId => List (EventId × HandlerEvent C)
  defaultQueue : List (EventId × HandlerEvent C)
  roundRobin : List QueueKey
  totalQueued : Nat

namespace FairEventQueue
variable {C : Type*}

def new : FairEventQueue C := ⟨∅, [], [], 0⟩

variable (q : FairEventQueue C) (id : EventId) (event : HandlerEvent C)

def entryOrDefault (contractId : ContractInstanceId) :
    AList fun _ : ContractInstanceId => List (EventId × HandlerEvent C) :=
  match q.contractQueues.lookup contractId with
  | some _ => q.contractQueues
  | none => q.contractQueues.insert contractId []

def tryPush : Except (RejectedEvent C) Unit × FairEventQueue C :=
  if maxTotalFairQueue ≤ q.totalQueued then (.error ⟨id, event⟩, q)
  else
    match event.kind.extractContractId with
    | some contractId =>
      let queues := q.entryOrDefault contractId
      let queue := (queues.lookup contractId).getD []
      if maxQueuedPerContract ≤ queue.length then
        (.error ⟨id, event⟩, { q with contractQueues := queues })
      else
        (.ok (), { q with
          contractQueues := queues.insert contractId (queue ++ [(id, event)])
          roundRobin :=
            if queue.isEmpty then q.roundRobin ++ [.contract contractId] else q.roundRobin
          totalQueued := q.totalQueued + 1 })
    | none =>
      if maxQueuedPerContract ≤ q.defaultQueue.length then (.error ⟨id, event⟩, q)
      else
        (.ok (), { q with
          defaultQueue := q.defaultQueue ++ [(id, event)]
          roundRobin := if q.defaultQueue.isEmpty then q.roundRobin ++ [.default] else q.roundRobin
          totalQueued := q.totalQueued + 1 })

def popFrom (q : FairEventQueue C) :
    List QueueKey → Option (EventId × HandlerEvent C) × FairEventQueue C
  | [] => (none, { q with roundRobin := [] })
  | .contract contractId :: rest =>
    match q.contractQueues.lookup contractId with
    | some (item :: queue) =>
      if queue.isEmpty then
        (some item, { q with
          contractQueues := q.contractQueues.erase contractId
          roundRobin := rest
          totalQueued := q.totalQueued - 1 })
      else
        (some item, { q with
          contractQueues := q.contractQueues.insert contractId queue
          roundRobin := rest ++ [.contract contractId]
          totalQueued := q.totalQueued - 1 })
    | some [] => popFrom { q with contractQueues := q.contractQueues.erase contractId } rest
    | none => popFrom q rest
  | .default :: rest =>
    match q.defaultQueue with
    | item :: queue =>
      (some item, { q with
        defaultQueue := queue
        roundRobin := if queue.isEmpty then rest else rest ++ [.default]
        totalQueued := q.totalQueued - 1 })
    | [] => popFrom q rest

def pop : Option (EventId × HandlerEvent C) × FairEventQueue C := popFrom q q.roundRobin

def queueOf : QueueKey → List (EventId × HandlerEvent C)
  | .contract contractId => (q.contractQueues.lookup contractId).getD []
  | .default => q.defaultQueue

def queuedEvents : Nat := valueSum List.length q.contractQueues + q.defaultQueue.length

def setQueue (queue : List (EventId × HandlerEvent C)) : QueueKey → FairEventQueue C
  | .contract contractId => { q with
      contractQueues := if queue.isEmpty then q.contractQueues.erase contractId
        else q.contractQueues.insert contractId queue }
  | .default => { q with defaultQueue := queue }

/-- The rotation lists exactly the queues with events, each once, and the counters are right. -/
structure Sound : Prop where
  nonempty : ∀ contractId, q.contractQueues.lookup contractId ≠ some []
  listed : ∀ key, key ∈ q.roundRobin ↔ q.queueOf key ≠ []
  nodup : q.roundRobin.Nodup
  total : q.totalQueued = q.queuedEvents
  bounded : q.totalQueued ≤ maxTotalFairQueue
  perContract : ∀ key, (q.queueOf key).length ≤ maxQueuedPerContract

variable {q id event} {queue : List (EventId × HandlerEvent C)} {key key' : QueueKey}

theorem queueOf_contract (contractId : ContractInstanceId) :
    q.queueOf (.contract contractId) = (q.contractQueues.lookup contractId).getD [] := rfl

theorem queueOf_setQueue :
    (q.setQueue queue key).queueOf key' = if key' = key then queue else q.queueOf key' := by
  cases key with
  | default =>
    cases key' with
    | default => rfl
    | contract contractId' => rfl
  | contract contractId =>
    cases key' with
    | default => rfl
    | contract contractId' =>
      simp only [setQueue, queueOf, QueueKey.contract.injEq]
      by_cases hid : contractId' = contractId
      · rw [if_pos hid, hid]
        split_ifs with hempty
        · rw [AList.lookup_erase, isEmpty_iff.mp hempty]
          rfl
        · rw [AList.lookup_insert]
          rfl
      · split_ifs
        · rw [AList.lookup_erase_ne hid]
        · rw [AList.lookup_insert_ne hid]

theorem queuedEvents_setQueue :
    (q.setQueue queue key).queuedEvents + (q.queueOf key).length = q.queuedEvents + queue.length := by
  unfold queuedEvents
  cases key with
  | default =>
    simp only [setQueue, queueOf]
    omega
  | contract contractId =>
    have herase : valueSum List.length (q.contractQueues.erase contractId) +
        (q.queueOf (.contract contractId)).length = valueSum List.length q.contractQueues := by
      simp only [queueOf]
      cases hlook : q.contractQueues.lookup contractId with
      | none =>
        rw [valueSum_erase_of_none hlook]
        rfl
      | some old =>
        rw [← valueSum_erase_of_lookup hlook]
        rfl
    simp only [setQueue]
    split_ifs with hempty
    · rw [isEmpty_iff.mp hempty]
      simp only [length_nil]
      omega
    · rw [valueSum_insert]
      omega

theorem lookup_setQueue_ne_nil (h : ∀ contractId, q.contractQueues.lookup contractId ≠ some [])
    (contractId : ContractInstanceId) :
    (q.setQueue queue key).contractQueues.lookup contractId ≠ some [] := by
  cases key with
  | default => exact h contractId
  | contract contractId' =>
    simp only [setQueue]
    by_cases hid : contractId = contractId'
    · rw [hid]
      split_ifs with hempty
      · simp
      · rw [AList.lookup_insert]
        intro hnil
        cases hnil
        exact hempty rfl
    · split_ifs
      · rw [AList.lookup_erase_ne hid]
        exact h contractId
      · rw [AList.lookup_insert_ne hid]
        exact h contractId

variable (q id event) in
def pushed : FairEventQueue C :=
  { q.setQueue (q.queueOf event.kind.queueKey ++ [(id, event)]) event.kind.queueKey with
    roundRobin := if (q.queueOf event.kind.queueKey).isEmpty then
      q.roundRobin ++ [event.kind.queueKey] else q.roundRobin
    totalQueued := q.totalQueued + 1 }

variable (q) in
/-- The queue after the first event under the key has been taken, which leaves these events under
the key and the rest of the rotation. -/
def popped (key : QueueKey) (rest : List QueueKey) (queue : List (EventId × HandlerEvent C)) :
    FairEventQueue C :=
  { q.setQueue queue key with
    roundRobin := if queue.isEmpty then rest else rest ++ [key]
    totalQueued := q.totalQueued - 1 }

variable (q id event) in
theorem tryPush_cases : q.tryPush id event = (.error ⟨id, event⟩, q) ∨
      q.totalQueued < maxTotalFairQueue ∧
        (q.queueOf event.kind.queueKey).length < maxQueuedPerContract ∧
        q.tryPush id event = (.ok (), q.pushed id event) := by
  unfold tryPush
  by_cases htotal : maxTotalFairQueue ≤ q.totalQueued
  · rw [if_pos htotal]
    exact .inl rfl
  rw [if_neg htotal]
  cases hid : event.kind.extractContractId with
  | none =>
    have hkey : event.kind.queueKey = .default := by simp [EventKind.queueKey, hid]
    unfold pushed
    rw [hkey]
    by_cases hfull : maxQueuedPerContract ≤ q.defaultQueue.length
    · rw [if_pos hfull]
      exact .inl rfl
    · rw [if_neg hfull]
      exact .inr ⟨Nat.lt_of_not_le htotal, Nat.lt_of_not_le hfull, rfl⟩
  | some contractId =>
    have hkey : event.kind.queueKey = .contract contractId := by simp [EventKind.queueKey, hid]
    have hqueue : ((q.entryOrDefault contractId).lookup contractId).getD [] =
        q.queueOf (.contract contractId) := by
      rw [queueOf_contract]
      unfold entryOrDefault
      cases hlook : q.contractQueues.lookup contractId with
      | none => simp
      | some queue => simp [hlook]
    unfold pushed
    dsimp only
    rw [hkey, hqueue]
    by_cases hfull : maxQueuedPerContract ≤ (q.queueOf (.contract contractId)).length
    · -- a queue that is full was there before
      rw [if_pos hfull]
      left
      have hentry : q.entryOrDefault contractId = q.contractQueues := by
        rw [queueOf_contract] at hfull
        unfold entryOrDefault
        cases hlook : q.contractQueues.lookup contractId with
        | none =>
          rw [hlook] at hfull
          exact absurd hfull (by simp [maxQueuedPerContract])
        | some queue => rfl
      rw [hentry]
    · rw [if_neg hfull]
      refine .inr ⟨Nat.lt_of_not_le htotal, Nat.lt_of_not_le hfull, ?_⟩
      have hinsert : ∀ queue, (q.entryOrDefault contractId).insert contractId queue =
          q.contractQueues.insert contractId queue := by
        intro queue
        unfold entryOrDefault
        split
        · rfl
        · rw [AList.insert_insert]
      unfold setQueue
      rw [hinsert]
      simp

variable {rest : List QueueKey}

theorem Sound.pop_eq (h : q.Sound) (hfirst : q.roundRobin = key :: rest) :
    ∃ item queue, q.queueOf key = item :: queue ∧ q.pop = (some item, q.popped key rest queue) := by
  have hne : q.queueOf key ≠ [] := by
    rw [← h.listed key, hfirst]
    exact mem_cons_self
  obtain ⟨item, queue, hqueue⟩ := exists_cons_of_ne_nil hne
  refine ⟨item, queue, hqueue, ?_⟩
  unfold pop popped
  rw [hfirst]
  cases key with
  | default =>
    have hdflt : q.defaultQueue = item :: queue := hqueue
    simp only [popFrom, hdflt, setQueue]
  | contract contractId =>
    have hlook : q.contractQueues.lookup contractId = some (item :: queue) := by
      rw [queueOf_contract] at hqueue
      cases hlook : q.contractQueues.lookup contractId with
      | none =>
        rw [hlook] at hqueue
        cases hqueue
      | some old =>
        rw [hlook] at hqueue
        exact congrArg some hqueue
    simp only [popFrom, hlook, setQueue]
    split_ifs
    · rfl
    · rfl

theorem pop_of_empty (h : q.roundRobin = []) : q.pop = (none, q) := by
  unfold pop
  rw [h]
  unfold popFrom
  rw [← h]

theorem new_sound : (new : FairEventQueue C).Sound where
  nonempty contractId := by simp [new]
  listed key := by cases key <;> simp [new, queueOf]
  nodup := nodup_nil
  total := rfl
  bounded := Nat.zero_le _
  perContract key := by cases key <;> simp [new, queueOf]

theorem queueOf_pushed : (q.pushed id event).queueOf key =
    if key = event.kind.queueKey then q.queueOf key ++ [(id, event)] else q.queueOf key := by
  have hset : (q.pushed id event).queueOf key = if key = event.kind.queueKey then
      q.queueOf event.kind.queueKey ++ [(id, event)] else q.queueOf key := queueOf_setQueue
  rw [hset]
  split_ifs with hkey
  · rw [hkey]
  · rfl

theorem queueOf_popped :
    (q.popped key rest queue).queueOf key' = if key' = key then queue else q.queueOf key' :=
  queueOf_setQueue

theorem Sound.pushed (h : q.Sound) (htotal : q.totalQueued < maxTotalFairQueue)
    (hroom : (q.queueOf event.kind.queueKey).length < maxQueuedPerContract) :
    (q.pushed id event).Sound := by
  have hrotat : (q.pushed id event).roundRobin = if (q.queueOf event.kind.queueKey).isEmpty then
      q.roundRobin ++ [event.kind.queueKey] else q.roundRobin := rfl
  have hlist := h.listed event.kind.queueKey
  constructor
  · exact lookup_setQueue_ne_nil h.nonempty
  · intro key
    rw [hrotat, queueOf_pushed]
    by_cases hkey : key = event.kind.queueKey
    · rw [if_pos hkey, hkey]
      split_ifs with hempty
      · simp
      · rw [List.isEmpty_iff] at hempty
        simpa using hlist.mpr hempty
    · rw [if_neg hkey, ← h.listed key]
      split_ifs
      · simp [hkey]
      · rfl
  · rw [hrotat]
    split_ifs with hempty
    · have hnot : event.kind.queueKey ∉ q.roundRobin :=
        fun hmem => hlist.mp hmem (isEmpty_iff.mp hempty)
      exact h.nodup.append (nodup_singleton _) (disjoint_singleton.mpr hnot)
    · exact h.nodup
  · have hcount : (q.pushed id event).queuedEvents + (q.queueOf event.kind.queueKey).length =
        q.queuedEvents + (q.queueOf event.kind.queueKey ++ [(id, event)]).length :=
      queuedEvents_setQueue
    have hadded : (q.pushed id event).totalQueued = q.totalQueued + 1 := rfl
    rw [length_append, length_singleton] at hcount
    have htotal := h.total
    omega
  · exact htotal
  · intro key
    rw [queueOf_pushed]
    split_ifs with hkey
    · rw [hkey, length_append]
      exact hroom
    · exact h.perContract key

theorem Sound.popped {item : EventId × HandlerEvent C} (h : q.Sound)
    (hfirst : q.roundRobin = key :: rest) (hqueue : q.queueOf key = item :: queue) :
    (q.popped key rest queue).Sound := by
  have hrotat : (q.popped key rest queue).roundRobin = if queue.isEmpty then rest else rest ++ [key] := rfl
  have hnodup := h.nodup
  rw [hfirst] at hnodup
  have hnot : key ∉ rest := (nodup_cons.mp hnodup).1
  have hcount : (q.popped key rest queue).queuedEvents + (q.queueOf key).length =
      q.queuedEvents + queue.length := queuedEvents_setQueue
  have htaken : (q.popped key rest queue).totalQueued = q.totalQueued - 1 := rfl
  rw [hqueue, length_cons] at hcount
  constructor
  · exact lookup_setQueue_ne_nil h.nonempty
  · intro key'
    have hlist := h.listed key'
    rw [hfirst] at hlist
    rw [hrotat, queueOf_popped]
    by_cases hkey : key' = key
    · rw [if_pos hkey, hkey]
      split_ifs with hempty
      · simp [List.isEmpty_iff.mp hempty, hnot]
      · rw [List.isEmpty_iff] at hempty
        simp [hempty]
    · rw [if_neg hkey, ← hlist]
      split_ifs
      · simp [hkey]
      · simp [hkey]
  · rw [hrotat]
    split_ifs
    · exact (nodup_cons.mp hnodup).2
    · exact (nodup_cons.mp hnodup).2.append (nodup_singleton _) (disjoint_singleton.mpr hnot)
  · have htotal := h.total
    omega
  · have hbounded := h.bounded
    omega
  · intro key'
    rw [queueOf_popped]
    split_ifs with hkey
    · have hbound := h.perContract key
      rw [hqueue, length_cons] at hbound
      omega
    · exact h.perContract key'

end FairEventQueue

open FairEventQueue

inductive QueueCall (C : Type*) where
  | tryPush (id : EventId) (event : HandlerEvent C)
  | pop

/-- The queue with the events it accepted and those that were taken from it, in order. -/
structure QueueHistory (C : Type*) where
  queue : FairEventQueue C
  accepted : List (EventId × HandlerEvent C)
  popped : List (EventId × HandlerEvent C)

namespace QueueHistory
variable {C : Type*}

def new : QueueHistory C := ⟨.new, [], []⟩

variable (h : QueueHistory C)

def step : QueueCall C → QueueHistory C
  | .tryPush id event =>
    match h.queue.tryPush id event with
    | (.ok _, queue) => { h with queue := queue, accepted := h.accepted ++ [(id, event)] }
    | (.error _, queue) => { h with queue := queue }
  | .pop =>
    match h.queue.pop with
    | (some item, queue) => { h with queue := queue, popped := h.popped ++ [item] }
    | (none, queue) => { h with queue := queue }

def after (calls : List (QueueCall C)) : QueueHistory C := calls.foldl step new

def ofKey (key : QueueKey) (items : List (EventId × HandlerEvent C)) : List (EventId × HandlerEvent C) :=
  items.filter fun item => item.2.kind.queueKey = key

/-- The events taken under a key, and after them those still queued, are the accepted ones in
order. -/
structure Fair : Prop where
  sound : h.queue.Sound
  inOrder : ∀ key, ofKey key h.popped ++ h.queue.queueOf key = ofKey key h.accepted

variable {h}

theorem new_fair : (new : QueueHistory C).Fair where
  sound := new_sound
  inOrder key := by cases key <;> rfl

variable {item : EventId × HandlerEvent C} {key : QueueKey}

theorem ofKey_append_singleton {items : List (EventId × HandlerEvent C)} : ofKey key (items ++ [item]) =
      ofKey key items ++ if item.2.kind.queueKey = key then [item] else [] := by
  unfold ofKey
  by_cases hkey : item.2.kind.queueKey = key
  · simp [hkey]
  · simp [hkey]

theorem Fair.queueKey_eq (hfair : h.Fair) (hitem : item ∈ h.queue.queueOf key) :
    item.2.kind.queueKey = key := by
  have hmem : item ∈ ofKey key h.accepted := by
    rw [← hfair.inOrder key]
    exact mem_append_right _ hitem
  simpa using (mem_filter.mp hmem).2

theorem Fair.tryPush (hfair : h.Fair) (id : EventId) (event : HandlerEvent C) :
    (h.step (.tryPush id event)).Fair := by
  unfold step
  dsimp only
  rcases h.queue.tryPush_cases id event with
    heq | ⟨htotal, hroom, heq⟩
  · rw [heq]
    exact ⟨hfair.sound, hfair.inOrder⟩
  · rw [heq]
    refine ⟨hfair.sound.pushed htotal hroom, ?_⟩
    intro key
    dsimp only
    rw [queueOf_pushed, ofKey_append_singleton, ← hfair.inOrder key]
    by_cases hkey : key = event.kind.queueKey
    · rw [if_pos hkey, if_pos hkey.symm, append_assoc]
    · rw [if_neg hkey, if_neg fun heq => hkey heq.symm, append_nil]

theorem Fair.pop (hfair : h.Fair) : (h.step .pop).Fair := by
  unfold step
  cases hrotat : h.queue.roundRobin with
  | nil =>
    rw [pop_of_empty hrotat]
    exact ⟨hfair.sound, hfair.inOrder⟩
  | cons first rest =>
    obtain ⟨item, queue, hqueue, heq⟩ := hfair.sound.pop_eq hrotat
    rw [heq]
    refine ⟨hfair.sound.popped hrotat hqueue, ?_⟩
    intro key
    have hfirst : item.2.kind.queueKey = first :=
      hfair.queueKey_eq (by rw [hqueue]; exact mem_cons_self)
    rw [queueOf_popped, ofKey_append_singleton, hfirst, ← hfair.inOrder key]
    by_cases hkey : key = first
    · rw [if_pos hkey, if_pos hkey.symm, hkey, hqueue, append_assoc, singleton_append]
    · rw [if_neg hkey, if_neg fun heq => hkey heq.symm, append_nil]

/-- After any calls the rotation lists exactly the queues with events, each once; the counter is the
number of queued events, within the limits; the events of a key are taken in the order of their
acceptance; and a rejected event changes nothing. -/
theorem after_fair (calls : List (QueueCall C)) :
    (after calls).Fair ∧ ∀ id event, ((after calls).queue.tryPush id event).1 = .ok () ∨
      (after calls).step (.tryPush id event) = after calls := by
  refine ⟨foldlRecOn calls step new_fair ?_, ?_⟩
  · intro h hfair call _
    cases call with
    | tryPush id event => exact hfair.tryPush id event
    | pop => exact hfair.pop
  · intro id event
    unfold step
    dsimp only
    rcases (after calls).queue.tryPush_cases id event with heq | ⟨_, _, heq⟩
    · right
      rw [heq]
    · left
      rw [heq]

end QueueHistory

end Queue

/-! The rotation is fair: a queue that holds events gets its turn between two turns of any other
queue. -/

/-- The turn of `b` comes, and that of `a` does not come before it. -/
def Ahead (b a : QueueKey) (rotation : List QueueKey) : Prop :=
  ∃ front back, rotation = front ++ b :: back ∧ a ∉ front

variable {a b : QueueKey} {rotation : List QueueKey}

theorem Ahead.append (h : Ahead b a rotation) (keys : List QueueKey) : Ahead b a (rotation ++ keys) := by
  obtain ⟨front, back, rfl, hfront⟩ := h
  exact ⟨front, back ++ keys, by simp, hfront⟩

theorem ahead_of_mem (hb : b ∈ rotation) (ha : a ∉ rotation) : Ahead b a rotation := by
  obtain ⟨front, back, rfl⟩ := append_of_mem hb
  exact ⟨front, back, rfl, fun hmem => ha (mem_append_left _ hmem)⟩

theorem Ahead.of_cons {key : QueueKey} {rest : List QueueKey} (h : Ahead b a (key :: rest)) :
    key = b ∨ key ≠ a ∧ Ahead b a rest := by
  obtain ⟨front, back, heq, hfront⟩ := h
  cases front with
  | nil =>
    left
    exact (cons.inj heq).1
  | cons key' front =>
    right
    obtain ⟨rfl, rfl⟩ := cons.inj heq
    have hnot := not_mem_of_not_mem_cons hfront
    exact ⟨fun heq => hfront (heq ▸ mem_cons_self), front, back, rfl, hnot⟩

namespace QueueHistory
variable {C : Type*} {h : QueueHistory C}

theorem Fair.step (hfair : h.Fair) (call : QueueCall C) : (h.step call).Fair := by
  cases call with
  | tryPush id event => exact hfair.tryPush id event
  | pop => exact hfair.pop

theorem Fair.foldl (hfair : h.Fair) (calls : List (QueueCall C)) : (calls.foldl QueueHistory.step h).Fair :=
  foldlRecOn calls QueueHistory.step hfair fun _ hfair call _ => hfair.step call

theorem Fair.pop_cases (hfair : h.Fair) : h.queue.roundRobin = [] ∧ h.step .pop = h ∨
      ∃ item rest, h.queue.roundRobin = item.2.kind.queueKey :: rest ∧
        (h.step .pop).popped = h.popped ++ [item] ∧ ((h.step .pop).queue.roundRobin = rest ∨
          (h.step .pop).queue.roundRobin = rest ++ [item.2.kind.queueKey]) := by
  cases hrotat : h.queue.roundRobin with
  | nil =>
    left
    refine ⟨rfl, ?_⟩
    unfold QueueHistory.step
    rw [FairEventQueue.pop_of_empty hrotat]
  | cons first rest =>
    right
    obtain ⟨item, queue, hqueue, heq⟩ := hfair.sound.pop_eq hrotat
    have hfirst : item.2.kind.queueKey = first :=
      hfair.queueKey_eq (by rw [hqueue]; exact mem_cons_self)
    have hstep : h.step .pop =
        { h with queue := h.queue.popped first rest queue, popped := h.popped ++ [item] } := by
      unfold QueueHistory.step
      rw [heq]
    refine ⟨item, rest, by rw [hfirst], by rw [hstep], ?_⟩
    rw [hstep, hfirst]
    simp only [FairEventQueue.popped]
    split_ifs
    · exact .inl rfl
    · exact .inr rfl

theorem tryPush_rotation (id : EventId) (event : HandlerEvent C) :
    (h.step (.tryPush id event)).popped = h.popped ∧
      ∃ keys, (h.step (.tryPush id event)).queue.roundRobin = h.queue.roundRobin ++ keys := by
  unfold step
  dsimp only
  rcases h.queue.tryPush_cases id event with heq | ⟨_, _, heq⟩
  · rw [heq]
    exact ⟨rfl, [], (append_nil _).symm⟩
  · rw [heq]
    refine ⟨rfl, ?_⟩
    simp only [FairEventQueue.pushed]
    split_ifs
    · exact ⟨_, rfl⟩
    · exact ⟨[], (append_nil _).symm⟩

section
variable (hfair : h.Fair)
include hfair

/-- While `b` is ahead of `a`, a call takes an event of `b`, or it takes none of `a` and `b` stays
ahead. -/
theorem Fair.step_ahead (hahead : Ahead b a h.queue.roundRobin) (call : QueueCall C) :
    ∃ items, (h.step call).popped = h.popped ++ items ∧ ((∃ item ∈ items, item.2.kind.queueKey = b) ∨
        Ahead b a (h.step call).queue.roundRobin ∧ ∀ item ∈ items, item.2.kind.queueKey ≠ a) := by
  cases call with
  | tryPush id event =>
    obtain ⟨hpopp, keys, hrotat⟩ := h.tryPush_rotation id event
    refine ⟨[], by rw [hpopp, append_nil], .inr ⟨?_, by simp⟩⟩
    rw [hrotat]
    exact hahead.append keys
  | pop =>
    rcases hfair.pop_cases with ⟨_, heq⟩ | ⟨item, rest, hrotat, hpopp, hrest⟩
    · rw [heq]
      exact ⟨[], (append_nil _).symm, .inr ⟨hahead, by simp⟩⟩
    · refine ⟨[item], hpopp, ?_⟩
      rw [hrotat] at hahead
      rcases hahead.of_cons with hb | ⟨ha, hahead⟩
      · exact .inl ⟨item, mem_singleton_self _, hb⟩
      · right
        constructor
        · rcases hrest with heq | heq
          · rw [heq]
            exact hahead
          · rw [heq]
            exact hahead.append _
        · simpa using ha

theorem Fair.popped_foldl (calls : List (QueueCall C)) :
    ∃ items, (calls.foldl QueueHistory.step h).popped = h.popped ++ items := by
  induction calls generalizing h with
  | nil => exact ⟨[], (append_nil _).symm⟩
  | cons call calls ih =>
    obtain ⟨later, hlater⟩ := ih (hfair.step call)
    rw [foldl_cons, hlater]
    cases call with
    | tryPush id event => exact ⟨later, by rw [(h.tryPush_rotation id event).1]⟩
    | pop =>
      rcases hfair.pop_cases with ⟨_, heq⟩ | ⟨item, _, _, hpopp, _⟩
      · exact ⟨later, by rw [heq]⟩
      · exact ⟨item :: later, by rw [hpopp, append_assoc, singleton_append]⟩

theorem Fair.foldl_ahead (hahead : Ahead b a h.queue.roundRobin) (calls : List (QueueCall C)) :
    ∃ items, (calls.foldl QueueHistory.step h).popped = h.popped ++ items ∧
      ((∃ item ∈ items, item.2.kind.queueKey = b) ∨
        Ahead b a (calls.foldl QueueHistory.step h).queue.roundRobin ∧
          ∀ item ∈ items, item.2.kind.queueKey ≠ a) := by
  induction calls generalizing h with
  | nil => exact ⟨[], (append_nil _).symm, .inr ⟨hahead, by simp⟩⟩
  | cons call calls ih =>
    rw [foldl_cons]
    obtain ⟨items, hitems, ⟨item, hitem, hb⟩ | ⟨hahead', hnone⟩⟩ := hfair.step_ahead hahead call
    · obtain ⟨later, hlater⟩ := (hfair.step call).popped_foldl calls
      refine ⟨items ++ later, by rw [hlater, hitems, append_assoc], .inl ?_⟩
      exact ⟨item, mem_append_left _ hitem, hb⟩
    · obtain ⟨later, hlater, hcases⟩ := ih (hfair.step call) hahead'
      refine ⟨items ++ later, by rw [hlater, hitems, append_assoc], ?_⟩
      rcases hcases with ⟨item, hitem, hb⟩ | ⟨hlast, hnone'⟩
      · exact .inl ⟨item, mem_append_right _ hitem, hb⟩
      · right
        refine ⟨hlast, ?_⟩
        intro item hitem
        rcases mem_append.mp hitem with hmem | hmem
        · exact hnone item hmem
        · exact hnone' item hmem

theorem Fair.pop_ahead (hne : a ≠ b) (hqueued : h.queue.queueOf b ≠ [])
    {item : EventId × HandlerEvent C} (hpopp : (h.step .pop).popped = h.popped ++ [item])
    (hitem : item.2.kind.queueKey = a) : Ahead b a (h.step .pop).queue.roundRobin := by
  have hlist := (hfair.sound.listed b).mpr hqueued
  rcases hfair.pop_cases with ⟨_, heq⟩ | ⟨item', rest, hrotat, hpopp', hrest⟩
  · rw [heq] at hpopp
    simp at hpopp
  · have heq : item' = item := by simpa using hpopp'.symm.trans hpopp
    rw [heq, hitem] at hrotat hrest
    have hnodup := hfair.sound.nodup
    rw [hrotat] at hlist hnodup
    have hrest' : Ahead b a rest :=
      ahead_of_mem (mem_of_ne_of_mem hne.symm hlist) (nodup_cons.mp hnodup).1
    rcases hrest with heq | heq
    · rw [heq]
      exact hrest'
    · rw [heq]
      exact hrest'.append _

end

/-- Between two pops that take events of `a`, an event of `b` is taken if `b` had one queued before
the first of them, whatever is pushed in the meantime. -/
theorem popped_between (before between : List (QueueCall C)) (hne : a ≠ b)
    {first second : EventId × HandlerEvent C} {items : List (EventId × HandlerEvent C)}
    (hfirst : (after (before ++ [.pop])).popped = (after before).popped ++ [first])
    (hitems : (after (before ++ .pop :: between)).popped = (after before).popped ++ first :: items)
    (hsecond : (after (before ++ .pop :: between ++ [.pop])).popped =
      (after before).popped ++ first :: items ++ [second])
    (hfirsta : first.2.kind.queueKey = a) (hseconda : second.2.kind.queueKey = a)
    (hqueued : (after before).queue.queueOf b ≠ []) : ∃ item ∈ items, item.2.kind.queueKey = b := by
  have hfair : (after before).Fair := new_fair.foldl before
  simp only [after, foldl_append, foldl_cons, foldl_nil] at hfirst hitems hsecond hqueued hfair
  have hahead := hfair.pop_ahead hne hqueued hfirst hfirsta
  obtain ⟨items', hitems', hcases⟩ := hfair.pop.foldl_ahead hahead between
  have hsame : items' = items := by
    rw [hitems', hfirst, append_assoc] at hitems
    simpa using hitems
  rw [hsame] at hcases
  rcases hcases with htaken | ⟨hlast, _⟩
  · exact htaken
  · -- with `b` still ahead the second event of `a` could not be taken
    obtain ⟨new, hnew, hcases⟩ := (hfair.pop.foldl between).step_ahead hlast .pop
    have heq : new = [second] := by
      rw [hnew, hitems] at hsecond
      simpa using hsecond
    rw [heq] at hcases
    rcases hcases with ⟨item, hitem, hb⟩ | ⟨_, hnot⟩
    · rw [mem_singleton.mp hitem, hseconda] at hb
      exact absurd hb hne
    · exact absurd hseconda (hnot second (mem_singleton_self _))

/-- The first contract has two events, and the second one has its turn between them. -/
theorem popped_between_twoContracts :
    ∃ item ∈ [(1, (⟨.getQuery 8, ()⟩ : HandlerEvent Unit))], item.2.kind.queueKey = .contract 8 :=
  popped_between (a := .contract 7) (b := .contract 8)
    [.tryPush 0 ⟨.getQuery 7, ()⟩, .tryPush 1 ⟨.getQuery 8, ()⟩, .tryPush 2 ⟨.getQuery 7, ()⟩] [.pop]
    (by decide) (show _ = _ ++ [(0, ⟨.getQuery 7, ()⟩)] by rfl) (by rfl)
    (show _ = _ ++ [(2, ⟨.getQuery 7, ()⟩)] by rfl) (by rfl) (by rfl) (by decide)

end QueueHistory

end Freenet.Contract
