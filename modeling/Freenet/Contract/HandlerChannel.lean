import Freenet.Lib.Machine
import Freenet.Lib.Table
import Mathlib.Data.List.Nodup

/-! The channel to the contract handler, which keeps the response sender of each event by its id. -/
namespace Freenet.Contract
open Lib List

def evIdBlock : Nat := 1000000

abbrev ThreadId := Nat
abbrev ResponseSender := Nat

/-- The indices of the threads and the next event id of each thread that has sent one. -/
structure Threads where
  threadIndexCounter : Nat
  threadIndices : Table ThreadId Nat
  evIds : Table ThreadId Nat

structure InternalCHEvent (Ev : Type*) where
  ev : Ev
  id : Nat
  result : ResponseSender

/-- A response that a caller received, with the event it was produced for. -/
structure Delivery (Ev : Type*) where
  caller : ResponseSender
  producedFor : ResponseSender
  response : Ev

/-- The channel with its callers and the events being worked on. The last two fields are history:
the responses received, and the waiting callers whose sender was overwritten. -/
structure HandlerChannel (Ev : Type*) where
  threads : Threads
  events : List (InternalCHEvent Ev)
  inProcess : List (InternalCHEvent Ev)
  waitingResponse : Table Nat ResponseSender
  nextSender : ResponseSender
  waiting : List ResponseSender
  delivered : List (Delivery Ev)
  overwritten : List ResponseSender

inductive ChannelEvent (Ev : Type*) where
  | threadIndex (thread : ThreadId)
  | send (thread : ThreadId) (ev : Ev) (awaitsResponse : Bool)
  | recvFromSender
  | sendToSender (index : Nat) (response : Ev)
  | dropWaitingResponse (index : Nat)
  | timeout (caller : ResponseSender)

namespace Threads
variable (t : Threads)

def threadIndex (thread : ThreadId) : Threads × Nat :=
  match t.threadIndices.get thread with
  | some index => (t, index)
  | none =>
    ({ t with
        threadIndexCounter := t.threadIndexCounter + 1
        threadIndices := t.threadIndices.insert thread t.threadIndexCounter },
      t.threadIndexCounter)

def evId (thread : ThreadId) : Nat :=
  match t.evIds.get thread with
  | some id => id
  | none => ((t.threadIndex thread).2 * evIdBlock) % 2 ^ 64

/-- Hand out an event id; the thread's counter starts on first use. -/
def takeEvId (thread : ThreadId) : Threads :=
  match t.evIds.get thread with
  | some id => { t with evIds := t.evIds.insert thread ((id + 1) % 2 ^ 64) }
  | none =>
    let indexed := t.threadIndex thread
    { indexed.1 with
      evIds := t.evIds.insert thread ((indexed.2 * evIdBlock % 2 ^ 64 + 1) % 2 ^ 64) }

end Threads

namespace HandlerChannel
variable {Ev : Type*} (s : HandlerChannel Ev)

def new : HandlerChannel Ev := ⟨⟨0, .empty, .empty⟩, [], [], .empty, 0, [], [], []⟩

/-- Put an event into the channel. A caller that does not await a response drops its receiver. -/
def send (thread : ThreadId) (ev : Ev) (awaitsResponse : Bool) : HandlerChannel Ev :=
  { s with
    threads := s.threads.takeEvId thread
    events := s.events ++ [⟨ev, s.threads.evId thread, s.nextSender⟩]
    nextSender := s.nextSender + 1
    waiting := if awaitsResponse then s.nextSender :: s.waiting else s.waiting }

/-- A sender that is dropped ends the wait of its caller with an error. -/
def dropSender : Option ResponseSender → HandlerChannel Ev
  | some sender => { s with waiting := s.waiting.filter (· ≠ sender) }
  | none => s

def replacedCaller (id : Nat) : List ResponseSender :=
  match s.waitingResponse.get id with
  | some sender => if sender ∈ s.waiting then [sender] else []
  | none => []

def recvFromSender : Option (HandlerChannel Ev) :=
  match s.events with
  | [] => none
  | e :: rest =>
    some { s.dropSender (s.waitingResponse.get e.id) with
      events := rest
      inProcess := s.inProcess ++ [e]
      waitingResponse := s.waitingResponse.insert e.id e.result
      overwritten := s.overwritten ++ s.replacedCaller e.id }

def sendToSender (e : InternalCHEvent Ev) (response : Ev) : HandlerChannel Ev :=
  match s.waitingResponse.get e.id with
  | none => s
  | some sender =>
    { s with
      waitingResponse := s.waitingResponse.remove e.id
      waiting := s.waiting.filter (· ≠ sender)
      delivered :=
        if sender ∈ s.waiting then s.delivered ++ [⟨sender, e.result, response⟩] else s.delivered }

def dropWaitingResponse (e : InternalCHEvent Ev) : HandlerChannel Ev :=
  { s.dropSender (s.waitingResponse.get e.id) with
    waitingResponse := s.waitingResponse.remove e.id }

def step : ChannelEvent Ev → Option (HandlerChannel Ev)
  | .threadIndex thread => some { s with threads := (s.threads.threadIndex thread).1 }
  | .send thread ev awaitsResponse => some (s.send thread ev awaitsResponse)
  | .recvFromSender => s.recvFromSender
  | .sendToSender index response =>
    match s.inProcess[index]? with
    | none => none
    | some e =>
      some ({ s with inProcess := s.inProcess.eraseIdx index }.sendToSender e response)
  | .dropWaitingResponse index =>
    match s.inProcess[index]? with
    | none => none
    | some e => some ({ s with inProcess := s.inProcess.eraseIdx index }.dropWaitingResponse e)
  | .timeout caller => some (s.dropSender (some caller))

def OwnResponses : Prop :=
  (∀ d ∈ s.delivered, d.caller = d.producedFor) ∧ s.overwritten = []

/-- The ids of the events that are in the channel or being worked on. -/
def outstandingIds : List Nat := (s.events ++ s.inProcess).map InternalCHEvent.id

def FreshId (e : ChannelEvent Ev) : Prop :=
  ∀ thread ev awaitsResponse, e = .send thread ev awaitsResponse → s.threads.evId thread ∉ s.outstandingIds

/-- Outstanding events have distinct ids, and the handler remembers under an id the sender of the
event with that id. -/
structure Matched : Prop where
  nodup : s.outstandingIds.Nodup
  sender : ∀ id sender, s.waitingResponse.get id = some sender →
    ∃ e ∈ s.inProcess, e.id = id ∧ e.result = sender
  own : s.OwnResponses

theorem new_matched : (new : HandlerChannel Ev).Matched := by
  refine ⟨nodup_nil, ?_, ?_, rfl⟩
  · intro id sender h
    cases h
  · intro d hd
    cases hd

variable {s}

theorem Matched.eq_of_id (hs : s.Matched) {e e' : InternalCHEvent Ev} (he : e ∈ s.inProcess)
    (he' : e' ∈ s.inProcess) (hid : e.id = e'.id) : e = e' := by
  have hnodup := hs.nodup
  rw [outstandingIds, map_append, nodup_append] at hnodup
  exact inj_on_of_nodup_map hnodup.2.1 he he' hid

variable {s' : HandlerChannel Ev} {e : InternalCHEvent Ev}

theorem Matched.of_same (hs : s.Matched) (hevents : s'.events = s.events)
    (hinProc : s'.inProcess = s.inProcess) (hwait : s'.waitingResponse = s.waitingResponse)
    (hdeliv : s'.delivered = s.delivered) (hoverwr : s'.overwritten = s.overwritten) :
    s'.Matched := by
  refine ⟨?_, ?_, ?_, ?_⟩
  · rw [outstandingIds, hevents, hinProc]
    exact hs.nodup
  · rw [hwait, hinProc]
    exact hs.sender
  · rw [hdeliv]
    exact hs.own.1
  · rw [hoverwr]
    exact hs.own.2

theorem send_matched (hs : s.Matched) (thread : ThreadId) (ev : Ev) (awaitsResponse : Bool)
    (hfresh : s.threads.evId thread ∉ s.outstandingIds) :
    (s.send thread ev awaitsResponse).Matched := by
  refine ⟨?_, hs.sender, hs.own⟩
  have hperm : (s.send thread ev awaitsResponse).outstandingIds.Perm
      (s.threads.evId thread :: s.outstandingIds) := by
    simp only [outstandingIds, send, append_assoc, map_append, map_cons, singleton_append]
    exact perm_middle
  rw [hperm.nodup_iff, nodup_cons]
  exact ⟨hfresh, hs.nodup⟩

theorem dropSender_own (hs : s.OwnResponses) (sender : Option ResponseSender) :
    (s.dropSender sender).OwnResponses := by
  cases sender with
  | none => exact hs
  | some sender => exact hs

theorem recvFromSender_matched (hs : s.Matched) (h : s.recvFromSender = some s') : s'.Matched := by
  unfold recvFromSender at h
  split at h
  · cases h
  · rename_i e rest hevents
    cases h
    have hnodup := hs.nodup
    rw [outstandingIds, hevents] at hnodup
    have hnone : s.waitingResponse.get e.id = none := by
      rw [Option.eq_none_iff_forall_ne_some]
      intro sender hget
      obtain ⟨e', he', hid, -⟩ := hs.sender e.id sender hget
      refine (nodup_cons.mp hnodup).1 ?_
      rw [← hid]
      exact mem_map_of_mem (mem_append_right _ he')
    refine ⟨?_, ?_, (dropSender_own hs.own _).1, ?_⟩
    · refine Perm.nodup (Perm.map _ ?_) hnodup
      exact (perm_append_singleton e (rest ++ s.inProcess)).symm.trans (by rw [append_assoc])
    · intro id sender hget
      rcases Table.get_insert_cases hget with ⟨hid, rfl⟩ | ⟨-, hold⟩
      · exact ⟨e, mem_append_right _ (mem_singleton_self _), hid.symm, rfl⟩
      · obtain ⟨e', he', hid', hresult⟩ := hs.sender id sender hold
        exact ⟨e', mem_append_left _ he', hid', hresult⟩
    · simp [replacedCaller, hnone, hs.own.2]

variable {index : Nat} (hs : s.Matched)
include hs

section
variable (he : s.inProcess[index]? = some e)
include he

theorem Matched.finish
    (hevents : s'.events = s.events) (hinProc : s'.inProcess = s.inProcess.eraseIdx index)
    (hwait : s'.waitingResponse = s.waitingResponse.remove e.id) (hown : s'.OwnResponses) :
    s'.Matched := by
  refine ⟨?_, ?_, hown⟩
  · rw [outstandingIds, hevents, hinProc]
    have hsub := ((Sublist.refl s.events).append
      (eraseIdx_sublist s.inProcess index)).map InternalCHEvent.id
    exact hs.nodup.sublist hsub
  · intro id sender hget
    rw [hwait] at hget
    obtain ⟨hid, hkept⟩ := Table.get_of_get_remove hget
    obtain ⟨e', he', hid', hresult⟩ := hs.sender id sender hkept
    refine ⟨e', ?_, hid', hresult⟩
    rw [hinProc]
    obtain ⟨k, hk⟩ := getElem?_of_mem he'
    refine mem_eraseIdx_iff_getElem?.mpr ⟨k, ?_, hk⟩
    rintro rfl
    rw [he] at hk
    cases hk
    exact hid hid'.symm

theorem sendToSender_matched (response : Ev) :
    ({ s with inProcess := s.inProcess.eraseIdx index }.sendToSender e response).Matched := by
  unfold sendToSender
  cases hget : s.waitingResponse.get e.id with
  | none =>
    exact hs.finish he rfl rfl (Table.remove_of_get hget).symm hs.own
  | some sender =>
    refine hs.finish he rfl rfl rfl ⟨?_, hs.own.2⟩
    intro d hd
    dsimp only at hd
    split_ifs at hd
    · rcases mem_append.mp hd with hd | hd
      · exact hs.own.1 d hd
      · -- the remembered sender is that of the only event with this id
        obtain ⟨e', he', hid, hresult⟩ := hs.sender e.id sender hget
        have hsame := hs.eq_of_id he' (mem_of_getElem? he) hid
        rw [mem_singleton.mp hd, ← hresult, hsame]
    · exact hs.own.1 d hd

theorem dropWaitingResponse_matched :
    ({ s with inProcess := s.inProcess.eraseIdx index }.dropWaitingResponse e).Matched := by
  unfold dropWaitingResponse
  cases hget : s.waitingResponse.get e.id with
  | none | some sender => exact hs.finish he rfl rfl rfl hs.own

end

theorem step_matched {e : ChannelEvent Ev} (hfresh : s.FreshId e) (h : s.step e = some s') : s'.Matched := by
  cases e with
  | threadIndex thread | timeout caller =>
    cases h
    exact hs.of_same rfl rfl rfl rfl rfl
  | send thread ev awaitsResponse =>
    cases h
    exact send_matched hs thread ev awaitsResponse (hfresh thread ev awaitsResponse rfl)
  | recvFromSender => exact recvFromSender_matched hs h
  | sendToSender index response =>
    simp only [step] at h
    split at h
    · cases h
    · rename_i e he
      cases h
      exact sendToSender_matched hs he response
  | dropWaitingResponse index =>
    simp only [step] at h
    split at h
    · cases h
    · rename_i e he
      cases h
      exact dropWaitingResponse_matched hs he

end HandlerChannel

def handlerChannel (Ev : Type*) : Machine (HandlerChannel Ev) (ChannelEvent Ev) where
  init s := s = .new
  step := HandlerChannel.step

/-! Event ids of different threads stay apart as long as no thread uses up its block. -/
open Machine HandlerChannel Table Nat Option Threads

namespace Threads
variable (t : Threads)

/-- Every thread has its own index, and a counter stays in the block of its thread's index. -/
structure InBlocks : Prop where
  index_lt : ∀ thread index, t.threadIndices.get thread = some index → index < t.threadIndexCounter
  index_inj : ∀ thread thread' index, t.threadIndices.get thread = some index →
    t.threadIndices.get thread' = some index → thread = thread'
  evId : ∀ thread id, t.evIds.get thread = some id → ∃ index,
    t.threadIndices.get thread = some index ∧ index * evIdBlock ≤ id ∧ id ≤ (index + 1) * evIdBlock

def HandedOut (id : Nat) : Prop :=
  ∃ thread index next, t.threadIndices.get thread = some index ∧ t.evIds.get thread = some next ∧
    index * evIdBlock ≤ id ∧ id < next

/-- The thread's block has an id left, and lies in the range of the counter. -/
def RoomInBlock (thread : ThreadId) : Prop :=
  t.evId thread < ((t.threadIndex thread).2 + 1) * evIdBlock ∧
    ((t.threadIndex thread).2 + 1) * evIdBlock < 2 ^ 64

theorem inBlocks_start : InBlocks ⟨0, .empty, .empty⟩ := ⟨nofun, nofun, nofun⟩

variable {t} (thread : ThreadId)

theorem threadIndex_get_self :
    (t.threadIndex thread).1.threadIndices.get thread = some (t.threadIndex thread).2 := by
  unfold threadIndex
  cases hindex : t.threadIndices.get thread with
  | some index => exact hindex
  | none => exact get_insert_self

theorem threadIndex_get_of_some {thread' : ThreadId} {index : Nat}
    (h : t.threadIndices.get thread' = some index) :
    (t.threadIndex thread).1.threadIndices.get thread' = some index := by
  unfold threadIndex
  cases hindex : t.threadIndices.get thread with
  | some _ => exact h
  | none =>
    refine (get_insert_of_ne ?_).trans h
    rintro rfl
    rw [hindex] at h
    cases h

theorem threadIndex_evIds : (t.threadIndex thread).1.evIds = t.evIds := by
  unfold threadIndex
  cases t.threadIndices.get thread <;> rfl

theorem HandedOut.threadIndex {id : Nat} (h : t.HandedOut id) (thread : ThreadId) :
    (t.threadIndex thread).1.HandedOut id := by
  obtain ⟨thread', index, next, hindex, hnext, hrange⟩ := h
  refine ⟨thread', index, next, threadIndex_get_of_some thread hindex, ?_, hrange⟩
  rw [threadIndex_evIds]
  exact hnext

section Blocks
variable (ht : t.InBlocks) (thread : ThreadId)
include ht

theorem InBlocks.threadIndex : (t.threadIndex thread).1.InBlocks := by
  have hevId : ∀ thread' id, t.evIds.get thread' = some id → ∃ index,
      (t.threadIndex thread).1.threadIndices.get thread' = some index ∧
        index * evIdBlock ≤ id ∧ id ≤ (index + 1) * evIdBlock := by
    intro thread' id hid
    obtain ⟨index, hindex, hrange⟩ := ht.evId thread' id hid
    exact ⟨index, threadIndex_get_of_some thread hindex, hrange⟩
  unfold Threads.threadIndex at hevId ⊢
  cases hindex : t.threadIndices.get thread with
  | some index => exact ht
  | none =>
    rw [hindex] at hevId
    refine ⟨?_, ?_, hevId⟩
    · intro thread' index hget
      rw [get_insert] at hget
      split_ifs at hget with hthread
      · cases hget
        exact lt_succ_self _
      · exact lt_succ_of_lt (ht.index_lt thread' index hget)
    · intro thread₁ thread₂ index h₁ h₂
      rw [get_insert] at h₁ h₂
      -- a new index is above all the others
      split_ifs at h₁ h₂ with hthread₁ hthread₂ hthread₂
      · rw [hthread₁, hthread₂]
      · cases h₁
        exact absurd (ht.index_lt thread₂ _ h₂) (Nat.lt_irrefl _)
      · cases h₂
        exact absurd (ht.index_lt thread₁ _ h₁) (Nat.lt_irrefl _)
      · exact ht.index_inj thread₁ thread₂ index h₁ h₂

theorem InBlocks.takeEvId_eq : t.takeEvId thread = ⟨(t.threadIndex thread).1.threadIndexCounter,
      (t.threadIndex thread).1.threadIndices,
      t.evIds.insert thread ((t.evId thread + 1) % 2 ^ 64)⟩ := by
  unfold takeEvId Threads.evId
  cases hid : t.evIds.get thread with
  | none => rfl
  | some id =>
    obtain ⟨index, hindex, -⟩ := ht.evId thread id hid
    simp [Threads.threadIndex, hindex]

variable (hroom : t.RoomInBlock thread)
include hroom

theorem InBlocks.le_evId : (t.threadIndex thread).2 * evIdBlock ≤ t.evId thread := by
  unfold Threads.evId
  cases hid : t.evIds.get thread with
  | none =>
    refine Nat.le_of_eq (Nat.mod_eq_of_lt (Nat.lt_of_le_of_lt ?_ hroom.2)).symm
    exact Nat.mul_le_mul_right _ (Nat.le_succ _)
  | some id =>
    obtain ⟨index, hindex, hle, -⟩ := ht.evId thread id hid
    simpa [Threads.threadIndex, hindex] using hle

theorem InBlocks.not_handedOut_evId : ¬ t.HandedOut (t.evId thread) := by
  rintro ⟨thread', index, next, hindex, hnext, hle, hlt⟩
  have hself := threadIndex_get_self (t := t) thread
  by_cases hthread : thread' = thread
  · subst hthread
    have hevId : t.evId thread' = next := by
      rw [Threads.evId, hnext]
    omega
  · obtain ⟨index', hindex', -, hnextLe⟩ := ht.evId thread' next hnext
    rw [hindex] at hindex'
    cases hindex'
    have hge := ht.le_evId thread hroom
    have hroom := hroom.1
    -- the two ids lie in one block, so the two threads have one index
    have hsame : index = (t.threadIndex thread).2 := by
      have h₁ : index < (t.threadIndex thread).2 + 1 :=
        Nat.lt_of_mul_lt_mul_right (Nat.lt_of_le_of_lt hle hroom)
      have h₂ : (t.threadIndex thread).2 < index + 1 :=
        Nat.lt_of_mul_lt_mul_right (Nat.lt_of_le_of_lt hge (Nat.lt_of_lt_of_le hlt hnextLe))
      omega
    refine hthread ((ht.threadIndex thread).index_inj thread' thread index ?_ ?_)
    · exact threadIndex_get_of_some thread hindex
    · rw [hsame]
      exact hself

theorem InBlocks.takeEvId : (t.takeEvId thread).InBlocks := by
  have hidx := ht.threadIndex thread
  rw [ht.takeEvId_eq thread, Nat.mod_eq_of_lt (Nat.lt_of_le_of_lt hroom.1 hroom.2)]
  refine ⟨hidx.index_lt, hidx.index_inj, ?_⟩
  intro thread' id hid
  rw [get_insert] at hid
  split_ifs at hid with hthread
  · cases hid
    subst hthread
    have hge := ht.le_evId thread' hroom
    exact ⟨_, threadIndex_get_self thread', le_succ_of_le hge, hroom.1⟩
  · refine hidx.evId thread' id ?_
    rw [threadIndex_evIds]
    exact hid

theorem InBlocks.handedOut_takeEvId {id : Nat} (hid : t.HandedOut id ∨ id = t.evId thread) :
    (t.takeEvId thread).HandedOut id := by
  rw [ht.takeEvId_eq thread, Nat.mod_eq_of_lt (Nat.lt_of_le_of_lt hroom.1 hroom.2)]
  rcases hid with ⟨thread', index, next, hindex, hnext, hle, hlt⟩ | rfl
  · have hindex' := threadIndex_get_of_some thread hindex
    by_cases hthread : thread' = thread
    · subst hthread
      have hevId : t.evId thread' = next := by
        rw [Threads.evId, hnext]
      exact ⟨thread', index, _, hindex', get_insert_self, hle, by omega⟩
    · refine ⟨thread', index, next, hindex', ?_, hle, hlt⟩
      exact (get_insert_of_ne hthread).trans hnext
  · exact ⟨thread, _, _, threadIndex_get_self thread, get_insert_self,
      ht.le_evId thread hroom, lt_succ_self _⟩

end Blocks
end Threads

namespace HandlerChannel
variable {Ev : Type*} {s : HandlerChannel Ev}

/-- Every send comes from a thread whose block has an id left. -/
def SendsWithinBlock (s : HandlerChannel Ev) (e : ChannelEvent Ev) : Prop :=
  ∀ thread ev awaitsResponse, e = .send thread ev awaitsResponse → s.threads.RoomInBlock thread

/-- The ids of outstanding events were handed out from the blocks of their threads. -/
structure IdsFromBlocks (s : HandlerChannel Ev) : Prop where
  inBlocks : s.threads.InBlocks
  handedOut : ∀ id ∈ s.outstandingIds, s.threads.HandedOut id

theorem new_idsFromBlocks : (new : HandlerChannel Ev).IdsFromBlocks :=
  ⟨inBlocks_start, nofun⟩

variable {s' : HandlerChannel Ev}

theorem IdsFromBlocks.of_subset (hs : s.IdsFromBlocks) (hthrs : s'.threads = s.threads)
    (hids : s'.outstandingIds ⊆ s.outstandingIds) : s'.IdsFromBlocks := by
  refine ⟨?_, ?_⟩
  · rw [hthrs]
    exact hs.inBlocks
  · intro id hid
    rw [hthrs]
    exact hs.handedOut id (hids hid)

variable (sender : Option ResponseSender)

theorem dropSender_same : (s.dropSender sender).threads = s.threads ∧
    (s.dropSender sender).events = s.events ∧ (s.dropSender sender).inProcess = s.inProcess := by
  cases sender <;> exact ⟨rfl, rfl, rfl⟩

theorem outstandingIds_eraseIdx_subset (index : Nat) :
    (s.events ++ s.inProcess.eraseIdx index).map InternalCHEvent.id ⊆ s.outstandingIds := by
  refine map_subset _ (append_subset.mpr ⟨subset_append_left _ _, ?_⟩)
  exact Subset.trans (eraseIdx_sublist _ _).subset (subset_append_right _ _)

theorem step_idsFromBlocks {e : ChannelEvent Ev} (hs : s.IdsFromBlocks)
    (hroom : s.SendsWithinBlock e) (h : s.step e = some s') : s'.IdsFromBlocks := by
  cases e with
  | threadIndex thread =>
    cases h
    exact ⟨hs.inBlocks.threadIndex thread, fun id hid => (hs.handedOut id hid).threadIndex thread⟩
  | send thread ev awaitsResponse =>
    cases h
    have hroom := hroom thread ev awaitsResponse rfl
    refine ⟨hs.inBlocks.takeEvId thread hroom, ?_⟩
    intro id hid
    refine hs.inBlocks.handedOut_takeEvId thread hroom ?_
    have hid : id ∈ s.outstandingIds ∨ id = s.threads.evId thread := by
      simp only [outstandingIds, send, map_append, mem_append, map_cons, map_nil, mem_singleton] at hid ⊢
      tauto
    exact hid.imp_left (hs.handedOut id)
  | recvFromSender =>
    simp only [step, recvFromSender] at h
    split at h
    · cases h
    · rename_i e rest hevents
      cases h
      refine hs.of_subset (dropSender_same _).1 ?_
      simp only [outstandingIds, hevents]
      refine map_subset _ ?_
      intro e' he'
      simp only [mem_append, mem_cons] at he' ⊢
      tauto
  | sendToSender index response =>
    simp only [step] at h
    split at h
    · cases h
    · cases h
      unfold sendToSender
      split <;> exact hs.of_subset rfl (outstandingIds_eraseIdx_subset (s := s) index)
  | dropWaitingResponse index =>
    simp only [step] at h
    split at h
    · cases h
    · cases h
      refine hs.of_subset (dropSender_same _).1 ?_
      simp only [outstandingIds, dropWaitingResponse, dropSender_same]
      exact outstandingIds_eraseIdx_subset index
  | timeout caller =>
    cases h
    exact hs.of_subset rfl (Subset.refl _)

/-- The blocks do what they are for: as long as threads stay within theirs, every response goes to
the caller of the event it is for. -/
theorem ownResponses_of_sendsWithinBlock {t : HandlerChannel Ev} (es : List (ChannelEvent Ev))
    (h : (handlerChannel Ev).Along SendsWithinBlock .new es)
    (hrun : (handlerChannel Ev).runFrom .new es = some t) : t.OwnResponses := by
  refine ((handlerChannel Ev).invariant_of_along SendsWithinBlock (fun s => s.IdsFromBlocks ∧ s.Matched) ?_
    ⟨new_idsFromBlocks, new_matched⟩ h hrun).2.own
  rintro s e s' ⟨hids, hs⟩ hroom hstep
  refine ⟨step_idsFromBlocks hids hroom hstep, step_matched hs ?_ hstep⟩
  -- an outstanding id was handed out before, and the one in the counter never was
  intro thread ev awaitsResponse he hmem
  exact hids.inBlocks.not_handedOut_evId thread (hroom thread ev awaitsResponse he) (hids.handedOut _ hmem)

/-- Callers on two threads; the second one's event is answered first. -/
def twoCallers : List (ChannelEvent Nat) :=
  [.send 0 5 true, .send 1 6 true, .recvFromSender, .recvFromSender, .sendToSender 1 60, .sendToSender 0 50]

theorem twoCallers_within_blocks : ∃ t, (handlerChannel Nat).runFrom .new twoCallers = some t ∧
    t.delivered = [⟨1, 1, 60⟩, ⟨0, 0, 50⟩] ∧ t.OwnResponses := by
  refine ⟨_, rfl, rfl, ownResponses_of_sendsWithinBlock twoCallers ⟨?_, ?_⟩ rfl⟩
  · rintro _ _ _ ⟨⟩
    exact ⟨by decide, by decide⟩
  · rintro _ ⟨⟩
    refine ⟨?_, fun _ _ => ⟨nofun, fun _ _ => ⟨nofun, fun _ _ => ⟨nofun,
      fun _ _ => ⟨nofun, fun _ _ => trivial⟩⟩⟩⟩⟩
    rintro _ _ _ ⟨⟩
    exact ⟨by decide, by decide⟩

end HandlerChannel

/-- One caller's event, taken and answered before anything else happens. -/
def answeredSend (thread : ThreadId) : List (ChannelEvent Unit) :=
  [.send thread () true, .recvFromSender, .sendToSender 0 ()]

namespace HandlerChannel
variable {Ev : Type*} {s : HandlerChannel Ev} (thread : ThreadId)

theorem send_recv_of_free (ev : Ev) (hevents : s.events = [])
    (hfree : s.waitingResponse.get (s.threads.evId thread) = none) :
    (handlerChannel Ev).runFrom s [.send thread ev true, .recvFromSender] = some
      { s with
        threads := s.threads.takeEvId thread
        inProcess := s.inProcess ++ [⟨ev, s.threads.evId thread, s.nextSender⟩]
        waitingResponse := s.waitingResponse.insert (s.threads.evId thread) s.nextSender
        nextSender := s.nextSender + 1
        waiting := s.nextSender :: s.waiting } := by
  simp [handlerChannel, runFrom_cons, step, send, recvFromSender, dropSender, replacedCaller, hevents, hfree]

variable {caller : ResponseSender} {e : InternalCHEvent Ev}

theorem send_recv_of_waiting (ev : Ev) (hevents : s.events = [])
    (htaken : s.waitingResponse.get (s.threads.evId thread) = some caller)
    (hwait : caller ∈ s.waiting) :
    (handlerChannel Ev).runFrom s [.send thread ev true, .recvFromSender] = some
      { s with
        threads := s.threads.takeEvId thread
        inProcess := s.inProcess ++ [⟨ev, s.threads.evId thread, s.nextSender⟩]
        waitingResponse := s.waitingResponse.insert (s.threads.evId thread) s.nextSender
        nextSender := s.nextSender + 1
        waiting := (s.nextSender :: s.waiting).filter (· ≠ caller)
        overwritten := s.overwritten ++ [caller] } := by
  simp [handlerChannel, runFrom_cons, step, send, recvFromSender, dropSender,
    replacedCaller, hevents, htaken, hwait]

theorem answer_first {rest : List (InternalCHEvent Ev)} (response : Ev)
    (hinProc : s.inProcess = e :: rest) (hsend : s.waitingResponse.get e.id = some caller)
    (hwait : caller ∈ s.waiting) :
    (handlerChannel Ev).runFrom s [.sendToSender 0 response] = some
      { s with
        inProcess := rest
        waitingResponse := s.waitingResponse.remove e.id
        waiting := s.waiting.filter (· ≠ caller)
        delivered := s.delivered ++ [⟨caller, e.result, response⟩] } := by
  simp [handlerChannel, runFrom_cons, step, sendToSender, hinProc, hsend, hwait]

/-- No event is in the channel, being worked on or remembered. -/
structure Idle (s : HandlerChannel Ev) : Prop where
  events : s.events = []
  inProcess : s.inProcess = []
  waitingResponse : ∀ id, s.waitingResponse.get id = none

theorem Idle.answeredSend {s : HandlerChannel Unit} (hs : s.Idle) (thread : ThreadId) :
    ∃ t, (handlerChannel Unit).runFrom s (answeredSend thread) = some t ∧ t.Idle ∧
      t.threads = s.threads.takeEvId thread := by
  have hsplit : Freenet.Contract.answeredSend thread =
    [.send thread () true, .recvFromSender] ++ [.sendToSender 0 ()] := rfl
  rw [hsplit, runFrom_append, send_recv_of_free thread () hs.events
    (hs.waitingResponse _), bind_some, hs.inProcess]
  refine ⟨_, answer_first () rfl get_insert_self mem_cons_self, ?_, rfl⟩
  refine ⟨hs.events, rfl, ?_⟩
  intro id
  rw [get_remove, get_insert, hs.waitingResponse id]
  simp

theorem send_under_waiting_id (ev response : Ev) (hevents : s.events = [])
    (hinProc : s.inProcess = [e]) (hid : s.threads.evId thread = e.id)
    (hsend : s.waitingResponse.get e.id = some e.result) (hwait : e.result ∈ s.waiting)
    (hnext : s.nextSender ≠ e.result) : ∃ t, (handlerChannel Ev).runFrom s
        ([.send thread ev true, .recvFromSender] ++ [.sendToSender 0 response]) = some t ∧
      (∃ d ∈ t.delivered, d.caller ≠ d.producedFor) ∧ t.overwritten ≠ [] := by
  rw [runFrom_append, send_recv_of_waiting thread ev hevents (hid ▸ hsend) hwait, bind_some, hinProc, hid]
  refine ⟨_, answer_first response rfl get_insert_self ?_, ?_, ?_⟩
  · simp [hnext]
  · exact ⟨_, mem_append_right _ (mem_singleton_self _), hnext⟩
  · exact append_ne_nil_of_right_ne_nil _ (cons_ne_nil _ _)

end HandlerChannel

variable {s : HandlerChannel Unit}

/-- In every run in which no event is sent under the id of an outstanding one, callers receive only
the responses to their own events, and no waiting caller's sender is lost. -/
theorem callers_receive_own_responses {Ev : Type*} (s t : HandlerChannel Ev)
    (es : List (ChannelEvent Ev)) (hinit : (handlerChannel Ev).init s)
    (hcond : (handlerChannel Ev).Along FreshId s es)
    (hrun : (handlerChannel Ev).runFrom s es = some t) : t.OwnResponses := by
  refine Matched.own ?_
  refine (handlerChannel Ev).invariant_of_along FreshId Matched ?_ ?_ hcond hrun
  · intro s e s' hs hfresh hstep
    exact step_matched hs hfresh hstep
  · rw [hinit]
    exact new_matched

theorem twoCallers_receive_own_responses : ∃ t, (handlerChannel Nat).runFrom .new twoCallers = some t ∧
    t.delivered = [⟨1, 1, 60⟩, ⟨0, 0, 50⟩] ∧ t.OwnResponses := by
  refine ⟨_, rfl, rfl, callers_receive_own_responses .new _ twoCallers rfl ⟨?_, ?_⟩ rfl⟩
  · rintro _ _ _ ⟨⟩
    decide
  · rintro _ ⟨⟩
    refine ⟨?_, fun _ _ => ⟨nofun, fun _ _ => ⟨nofun, fun _ _ => ⟨nofun,
      fun _ _ => ⟨nofun, fun _ _ => trivial⟩⟩⟩⟩⟩
    rintro _ _ _ ⟨⟩
    decide

/-- The channel is idle; only the first thread has an index and has sent this many events. -/
structure FirstThreadSent (n : Nat) (s : HandlerChannel Unit) : Prop where
  idle : s.Idle
  counter : s.threads.threadIndexCounter = 1
  first : s.threads.evIds.get 0 = some n
  second : s.threads.evIds.get 1 = none ∧ s.threads.threadIndices.get 1 = none

theorem FirstThreadSent.answeredSend {n : Nat} (hs : FirstThreadSent n s) (hn : n + 1 < 2 ^ 64) :
    ∃ t, (handlerChannel Unit).runFrom s (answeredSend 0) = some t ∧ FirstThreadSent (n + 1) t := by
  obtain ⟨t, hrun, hidle, hthrs⟩ := hs.idle.answeredSend 0
  have htaken : t.threads = { s.threads with evIds := s.threads.evIds.insert 0 (n + 1) } := by
    rw [hthrs, takeEvId, hs.first]
    dsimp only
    rw [mod_eq_of_lt hn]
  refine ⟨t, hrun, hidle, ?_, ?_, ?_⟩
  · rw [htaken]
    exact hs.counter
  · rw [htaken]
    exact get_insert_self
  · rw [htaken]
    exact ⟨(get_insert_of_ne (by decide)).trans hs.second.1, hs.second.2⟩

theorem answeredSend_new :
    ∃ t, (handlerChannel Unit).runFrom .new (answeredSend 0) = some t ∧ FirstThreadSent 1 t := by
  have hidle : (new : HandlerChannel Unit).Idle := ⟨rfl, rfl, fun _ => rfl⟩
  obtain ⟨t, hrun, ht, hthrs⟩ := hidle.answeredSend 0
  have htaken : t.threads = ⟨1, empty.insert 0 0, empty.insert 0 1⟩ := by
    rw [hthrs]
    simp [new, takeEvId, threadIndex]
  refine ⟨t, hrun, ht, ?_, ?_, ?_⟩
  · rw [htaken]
  · rw [htaken]
    exact get_insert_self
  · rw [htaken]
    exact ⟨get_insert_of_ne (by decide), get_insert_of_ne (by decide)⟩

theorem FirstThreadSent.replicate {n : Nat} (hs : FirstThreadSent n s) (rounds : Nat)
    (hbound : n + rounds < 2 ^ 64) : ∃ t, (handlerChannel Unit).runFrom s
        (replicate rounds (Freenet.Contract.answeredSend 0)).flatten = some t ∧
      FirstThreadSent (n + rounds) t := by
  induction rounds generalizing n s with
  | zero => exact ⟨s, rfl, hs⟩
  | succ rounds ih =>
    obtain ⟨s', hround, hs'⟩ := hs.answeredSend (by omega)
    obtain ⟨t, hrest, ht⟩ := ih hs' (by omega)
    refine ⟨t, ?_, ?_⟩
    · rw [replicate_succ, flatten_cons, runFrom_append, hround, bind_some, hrest]
    · rw [show n + (rounds + 1) = n + 1 + rounds by omega]
      exact ht

theorem FirstThreadSent.collide (hs : FirstThreadSent evIdBlock s) :
    ∃ t, (handlerChannel Unit).runFrom s ([.send 1 () true, .recvFromSender] ++
        ([.send 0 () true, .recvFromSender] ++ [.sendToSender 0 ()])) = some t ∧
      (∃ d ∈ t.delivered, d.caller ≠ d.producedFor) ∧ t.overwritten ≠ [] := by
  have hsecond : s.threads.evId 1 = evIdBlock := by
    simp [evId, threadIndex, hs.second, hs.counter, evIdBlock]
  have hfirst : (s.threads.takeEvId 1).evId 0 = evIdBlock := by
    simp [takeEvId, evId, hs.second.1, get_insert_of_ne, hs.first]
  rw [runFrom_append, send_recv_of_free 1 () hs.idle.events (hs.idle.waitingResponse _), hs.idle.inProcess]
  refine send_under_waiting_id 0 () () hs.idle.events rfl ?_ ?_ ?_ ?_
  · exact hfirst.trans hsecond.symm
  · exact get_insert_self
  · exact mem_cons_self
  · exact succ_ne_self _

/-- The first thread uses up its block; then the second thread sends its first event, and the first
thread its next one while the caller on the second still waits. -/
def usedUpBlock : List (ChannelEvent Unit) :=
  answeredSend 0 ++ ((replicate (evIdBlock - 1) (answeredSend 0)).flatten ++
    ([.send 1 () true, .recvFromSender] ++ ([.send 0 () true, .recvFromSender] ++ [.sendToSender 0 ()])))

/-- The caller on the second thread loses its place to the one on the first, which receives the
response to the other's event. -/
theorem usedUpBlock_swaps_responses : ∃ t, (handlerChannel Unit).runFrom .new usedUpBlock = some t ∧
      (∃ d ∈ t.delivered, d.caller ≠ d.producedFor) ∧ t.overwritten ≠ [] := by
  obtain ⟨s₁, hround, hs₁⟩ := answeredSend_new
  obtain ⟨s₂, hrounds, hs₂⟩ := hs₁.replicate (evIdBlock - 1) (by unfold evIdBlock; omega)
  obtain ⟨t, hcoll, ht⟩ := FirstThreadSent.collide hs₂
  refine ⟨t, ?_, ht⟩
  rw [usedUpBlock, runFrom_append, hround, bind_some, runFrom_append, hrounds, bind_some, hcoll]

end Freenet.Contract
