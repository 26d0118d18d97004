import Freenet.Contract.HandlerChannel

/-! Packet nonces and stream ids, which each thread, named by its `thread_index`, counts in a
block. -/
namespace Freenet.Transport
open Lib Contract List

def nonceBlock : Nat := 1000000

example : nonceBlock = evIdBlock := rfl

/-- The first four bytes of a nonce, and the number in its last eight. -/
structure Nonce where
  bytes : List UInt8
  counter : Nat
  deriving DecidableEq

/-- The thread-local values of a process; the event ids of `counters` are the nonce counters. -/
structure NonceState where
  counters : Threads
  randomBytes : Table ThreadId (List UInt8)

namespace NonceState

def new : NonceState := ⟨⟨0, .empty, .empty⟩, .empty⟩

variable (s : NonceState)

/-- The random bytes are drawn for the first nonce of a thread. -/
def generateNonce (thread : ThreadId) (drawn : List UInt8) : Nonce × NonceState :=
  let bytes := (s.randomBytes.get thread).getD drawn
  (⟨bytes, s.counters.evId thread⟩, ⟨s.counters.takeEvId thread, s.randomBytes.insert thread bytes⟩)

def nonces : NonceState → List (ThreadId × List UInt8) → List Nonce
  | _, [] => []
  | s, (thread, drawn) :: rest =>
    (s.generateNonce thread drawn).1 :: nonces (s.generateNonce thread drawn).2 rest

/-- Every thread that generates a nonce has a number of its block left. -/
def WithinBlocks : NonceState → List (ThreadId × List UInt8) → Prop
  | _, [] => True
  | s, (thread, drawn) :: rest =>
    s.counters.RoomInBlock thread ∧ WithinBlocks (s.generateNonce thread drawn).2 rest

variable {s} {events : List (ThreadId × List UInt8)}

theorem nonces_new_numbers (hblocks : s.counters.InBlocks) (hwithin : s.WithinBlocks events) :
    (∀ n ∈ s.nonces events, ¬ s.counters.HandedOut n.counter) ∧ (s.nonces events).Nodup := by
  induction events generalizing s with
  | nil => simp [nonces]
  | cons e rest ih =>
    obtain ⟨hroom, hrest⟩ := hwithin
    obtain ⟨hnew, hnodup⟩ := ih (hblocks.takeEvId e.1 hroom) hrest
    have hkept : ∀ n ∈ nonces _ rest, ¬ (s.counters.HandedOut n.counter ∨ n.counter = s.counters.evId e.1) :=
      fun n hn h => hnew n hn (hblocks.handedOut_takeEvId e.1 hroom h)
    constructor
    · intro n hn
      rcases mem_cons.mp hn with rfl | hn
      · exact hblocks.not_handedOut_evId e.1 hroom
      · exact fun h => hkept n hn (.inl h)
    · refine nodup_cons.mpr ⟨?_, hnodup⟩
      exact fun hmem => hkept _ hmem (.inr rfl)

/-- Nonces are pairwise distinct, whatever the random bytes, as long as no thread generates more of
them than its block has numbers. -/
theorem nonces_nodup_of_withinBlocks (events : List (ThreadId × List UInt8))
    (hwithin : new.WithinBlocks events) : (new.nonces events).Nodup :=
  (nonces_new_numbers Threads.inBlocks_start hwithin).2

theorem two_threads_nodup :
    (new.nonces [(0, [7, 1, 5, 2]), (1, [7, 1, 5, 2]), (0, [8, 3, 6, 4])]).Nodup := by
  refine nonces_nodup_of_withinBlocks _ ?_
  simp only [WithinBlocks, Threads.RoomInBlock]
  decide +kernel

theorem mem_nonces_replicate {n : Nat} {thread : ThreadId} {bytes drawn : List UInt8}
    (hcount : s.counters.evIds.get thread = some n)
    (hbytes : s.randomBytes.get thread = some bytes) (count : Nat) (hbound : n + count < 2 ^ 64) :
    ⟨bytes, n + count⟩ ∈ s.nonces (replicate (count + 1) (thread, drawn)) := by
  induction count generalizing n s with
  | zero => simp [replicate, nonces, generateNonce, hbytes, Threads.evId, hcount]
  | succ count ih =>
    refine mem_cons_of_mem _ ?_
    have hnext : (s.counters.takeEvId thread).evIds.get thread = some (n + 1) := by
      simp only [Threads.takeEvId, hcount, Table.get_insert_self]
      rw [Nat.mod_eq_of_lt (by omega)]
    rw [show n + (count + 1) = n + 1 + count by omega]
    exact ih hnext (by simp [generateNonce, hbytes]) (by omega)

/-- The first thread uses up its block and then repeats the second thread's nonce, if the two have
drawn the same bytes. -/
theorem used_up_block_repeats_nonce :
    ¬ (new.nonces ((0, [7, 1, 5, 2]) :: (1, [7, 1, 5, 2]) :: replicate nonceBlock
      (0, [7, 1, 5, 2]))).Nodup := by
  intro h
  refine (nodup_cons.mp (nodup_cons.mp h).2).1 ?_
  exact mem_nonces_replicate (n := 1) rfl rfl 999999 (by decide)

end NonceState
end Freenet.Transport

namespace Freenet.Transport.StreamId
open List Function

def streamIdBlock : Nat := 100000

def opsStreamBit : Nat := 2 ^ 31

def start (thread : Nat) : Nat := thread % 2 ^ 32 * streamIdBlock % 2 ^ 32

/-- The counters after one more id of a thread. -/
def advance (counters : Nat → Nat) (thread : Nat) : Nat → Nat :=
  update counters thread ((counters thread + 1) % 2 ^ 32)

/-- The ids that threads generate in turn, by `next_operations` if so flagged and else by `next`. -/
def ids (counters : Nat → Nat) : List (Nat × Bool) → List Nat
  | [] => []
  | (thread, operations) :: rest =>
    (if operations then counters thread ||| opsStreamBit else counters thread) ::
      ids (advance counters thread) rest

/-- The counter of a thread that generates an id is in the thread's block and below the marker
bit. -/
def WithinBlocks (counters : Nat → Nat) : List (Nat × Bool) → Prop
  | [] => True
  | (thread, _) :: rest =>
    (counters thread / streamIdBlock = thread ∧ counters thread < opsStreamBit) ∧
      WithinBlocks (advance counters thread) rest

variable {counters : Nat → Nat} {events : List (Nat × Bool)} {thread : Nat}

theorem advance_self (h : counters thread + 1 < 2 ^ 32) :
    advance counters thread thread = counters thread + 1 := by
  rw [advance, update_self, Nat.mod_eq_of_lt h]

/-- Without the marker bit, ids are numbers that the thread of their block has not come to
before. -/
theorem ids_new (hwithin : WithinBlocks counters events) :
    (∀ r ∈ (ids counters events).map (· % opsStreamBit), counters (r / streamIdBlock) ≤ r) ∧
      ((ids counters events).map (· % opsStreamBit)).Nodup := by
  induction events generalizing counters with
  | nil => simp [ids]
  | cons e rest ih =>
    obtain ⟨thread, operations⟩ := e
    obtain ⟨⟨hblock, hbelow⟩, hrest⟩ := hwithin
    obtain ⟨hnew, hnodup⟩ := ih hrest
    have hid : (if operations then counters thread ||| opsStreamBit else counters thread) % opsStreamBit =
        counters thread := by
      have hmod := Nat.mod_eq_of_lt hbelow
      split_ifs
      · exact (Nat.or_mod_two_pow ..).trans (by rw [← opsStreamBit, hmod]; exact Nat.or_zero _)
      · exact hmod
    have hlater : ∀ r ∈ (ids (advance counters thread) rest).map (· % opsStreamBit),
        counters (r / streamIdBlock) ≤ r ∧ r ≠ counters thread := by
      intro r hr
      have hle := hnew r hr
      by_cases hthread : r / streamIdBlock = thread
      · dsimp only [opsStreamBit] at hbelow
        rw [hthread, advance_self (by omega)] at hle
        rw [hthread]
        omega
      · rw [advance, update_of_ne hthread] at hle
        exact ⟨hle, fun heq => hthread (heq ▸ hblock)⟩
    simp only [ids, map_cons, hid, forall_mem_cons, nodup_cons]
    exact ⟨⟨Nat.le_of_eq (by rw [hblock]), fun r hr => (hlater r hr).1⟩,
      fun hmem => (hlater _ hmem).2 rfl, hnodup⟩

/-- The ids of a process are pairwise distinct as long as no thread leaves its block. -/
theorem ids_nodup_of_withinBlocks (events : List (Nat × Bool)) (hwithin : WithinBlocks start events) :
    (ids start events).Nodup :=
  (ids_new hwithin).2.of_map _

theorem two_threads_distinct : (ids start [(0, false), (1, true), (0, true)]).Nodup := by
  refine ids_nodup_of_withinBlocks _ ?_
  simp only [WithinBlocks]
  decide +kernel

theorem mem_ids_replicate (count : Nat) (hbound : counters thread + count < 2 ^ 32) :
    counters thread + count ∈ ids counters (replicate (count + 1) (thread, false)) := by
  induction count generalizing counters with
  | zero => simp [ids]
  | succ count ih =>
    have hself : advance counters thread thread = counters thread + 1 := advance_self (by omega)
    have hmem := @ih (advance counters thread) (by omega)
    rw [hself, Nat.add_right_comm] at hmem
    exact mem_cons_of_mem _ hmem

/-- The first thread uses up its block and then repeats the second thread's id. -/
theorem used_up_block_repeats_id :
    ¬ (ids start ((0, false) :: (1, false) :: replicate streamIdBlock (0, false))).Nodup := by
  intro h
  refine (nodup_cons.mp (nodup_cons.mp h).2).1 ?_
  exact mem_ids_replicate 99999 (by decide)

end Freenet.Transport.StreamId
