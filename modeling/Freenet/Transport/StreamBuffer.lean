import Freenet.Lib.Machine
import Freenet.Lib.Slots
import Freenet.Transport.PacketData
import Mathlib.Algebra.Order.Floor.Div

/-! The buffer that reassembles an inbound stream, and what is assembled. A call is one step
here. -/
namespace Freenet.Transport
open Lib List Option Nat Slots

abbrev Bytes := List UInt8

def fragmentPayloadSize : Nat := maxDataSize - 41

inductive InsertError where
  | invalidNumber (number max : Nat)
  | alreadyConsumed (number : Nat)
  deriving DecidableEq, Repr

structure LockFreeStreamBuffer where
  fragments : Slots Bytes
  totalSize : Nat
  totalFragments : Nat
  minCompleteFragments : Nat
  contiguousFragments : Nat
  consumedFrontier : Nat
  deriving DecidableEq, Repr

namespace LockFreeStreamBuffer

def baseFragmentCount (totalSize : Nat) : Nat :=
  if totalSize = 0 then 0 else totalSize ⌈/⌉ fragmentPayloadSize

/-- One slot more than the fragments of full payload, for what metadata displaces from the first. -/
def calculateFragmentCount (totalSize : Nat) : Nat :=
  let base := baseFragmentCount totalSize
  if base = 0 then 0 else base + 1

def new (totalSize : Nat) : LockFreeStreamBuffer where
  fragments := .empty (calculateFragmentCount totalSize)
  totalSize := totalSize
  totalFragments := calculateFragmentCount totalSize % 2 ^ 32
  minCompleteFragments := baseFragmentCount totalSize % 2 ^ 32
  contiguousFragments := 0
  consumedFrontier := 0

variable (b : LockFreeStreamBuffer)

/-- The frontier advances slot by slot until one is empty; `left` slots are left. -/
def advanceFrom : (left current : Nat) → Nat
  | 0, current => current
  | left + 1, current =>
    if (b.fragments.part current).isNone then current else advanceFrom left (current + 1)

def advanceFrontier : LockFreeStreamBuffer :=
  { b with contiguousFragments :=
      b.advanceFrom (b.totalFragments - b.contiguousFragments) b.contiguousFragments }

/-- Fragment numbers start at one. A slot that is taken keeps what it holds. -/
def insert (fragmentNumber : Nat) (data : Bytes) : Except InsertError Bool × LockFreeStreamBuffer :=
  if fragmentNumber = 0 ∨ b.totalFragments < fragmentNumber then
    (.error (.invalidNumber fragmentNumber b.totalFragments), b)
  else if fragmentNumber ≤ b.consumedFrontier then
    (.error (.alreadyConsumed fragmentNumber), b)
  else
    match b.fragments.part (fragmentNumber - 1) with
    | some _ => (.ok false, b)
    | none =>
      (.ok true, { b with fragments := b.fragments.fill (fragmentNumber - 1) data }.advanceFrontier)

def isComplete : Bool := b.minCompleteFragments ≤ b.contiguousFragments

def get (fragmentNumber : Nat) : Option Bytes :=
  if fragmentNumber = 0 ∨ b.totalFragments < fragmentNumber then none
  else b.fragments.part (fragmentNumber - 1)

def take (fragmentNumber : Nat) : Option Bytes × LockFreeStreamBuffer :=
  if fragmentNumber = 0 ∨ b.totalFragments < fragmentNumber then (none, b)
  else (b.fragments.part (fragmentNumber - 1),
    { b with fragments := b.fragments.clear (fragmentNumber - 1) })

/-- Empties the slots from the consumed frontier on, and counts those that were filled. -/
def markConsumed (upToIndex : Nat) : Outcome (Nat × LockFreeStreamBuffer) :=
  if b.totalFragments < upToIndex then .panicked .assertion
  else
    let freed := range' b.consumedFrontier (upToIndex - b.consumedFrontier)
    .ok (freed.countP fun i => (b.fragments.part i).isSome,
      { b with
        fragments := freed.foldl clear b.fragments
        consumedFrontier := max b.consumedFrontier upToIndex })

/-- The payloads from the first slot on, up to an empty slot or until they are long enough. -/
def collect (targetSize : Nat) : Slots Bytes → Bytes → Bytes
  | [], result => result
  | none :: _, result => result
  | some data :: rest, result =>
    if targetSize ≤ (result ++ data).length then result ++ data
    else collect targetSize rest (result ++ data)

def assemble : Option Bytes :=
  if ¬ b.isComplete then none
  else if 0 < b.consumedFrontier then none
  else
    let result := (collect b.totalSize b.fragments []).take b.totalSize
    if result.length = b.totalSize then some result else none

variable {b} {parts : List Bytes} {left current first n : Nat} {data : Bytes}

theorem advanceFrom_spec (left current : Nat) :
    current ≤ b.advanceFrom left current ∧ b.advanceFrom left current ≤ current + left ∧
      (∀ i, current ≤ i → i < b.advanceFrom left current → (b.fragments.part i).isSome) ∧
      (b.advanceFrom left current < current + left →
        b.fragments.part (b.advanceFrom left current) = none) := by
  induction left generalizing current with
  | zero =>
    refine ⟨le_refl _, le_refl _, ?_, ?_⟩
    · intro i hi hlt
      exact absurd hlt (not_lt.mpr hi)
    · intro hlt
      exact absurd hlt (lt_irrefl _)
  | succ left ih =>
    unfold advanceFrom
    by_cases hnone : (b.fragments.part current).isNone
    · rw [if_pos hnone]
      refine ⟨le_refl _, le_add_right _ _, ?_, ?_⟩
      · intro i hi hlt
        exact absurd hlt (not_lt.mpr hi)
      · intro _
        exact isNone_iff_eq_none.mp hnone
    · rw [if_neg hnone]
      obtain ⟨hle, hend, hfill, hstop⟩ := ih (current + 1)
      refine ⟨by omega, by omega, ?_, ?_⟩
      · intro i hi hlt
        by_cases hcur : i = current
        · subst hcur
          exact isSome_iff_ne_none.mpr fun h => hnone (isNone_iff_eq_none.mpr h)
        · exact hfill i (by omega) hlt
      · intro hlt
        exact hstop (by omega)

/-- A buffer with a slot for each of its numbers that holds parts of the stream: every slot from
`first` up to the frontier is filled, and the slot at the frontier is not. -/
structure Holding (parts : List Bytes) (first : Nat) (b : LockFreeStreamBuffer) : Prop where
  slots : b.fragments.length = b.totalFragments
  of : b.fragments.Of parts
  unconsumed : b.consumedFrontier = 0
  first_le : first ≤ b.contiguousFragments
  frontier_le : b.contiguousFragments ≤ b.totalFragments
  filled : ∀ i, first ≤ i → i < b.contiguousFragments → (b.fragments.part i).isSome
  stopped : b.contiguousFragments < b.totalFragments → b.fragments.part b.contiguousFragments = none

theorem holding_new (parts : List Bytes) {totalSize : Nat}
    (hfits : calculateFragmentCount totalSize < 2 ^ 32) : Holding parts 0 (new totalSize) where
  slots := by
    show (empty _).length = calculateFragmentCount totalSize % 2 ^ 32
    rw [length_empty, mod_eq_of_lt hfits]
  of := Of.empty _ _
  unconsumed := rfl
  first_le := zero_le _
  frontier_le := zero_le _
  filled _ _ h := absurd h (not_lt_zero _)
  stopped _ := part_empty _ _

/-- The frontier catches up with slots that were filled above it. -/
theorem Holding.advanceFrontier (hslots : b.fragments.length = b.totalFragments)
    (hof : b.fragments.Of parts) (hcons : b.consumedFrontier = 0)
    (hfirst : first ≤ b.contiguousFragments) (hle : b.contiguousFragments ≤ b.totalFragments)
    (hfill : ∀ i, first ≤ i → i < b.contiguousFragments → (b.fragments.part i).isSome) :
    Holding parts first b.advanceFrontier := by
  obtain ⟨hge, hend, hrow, hstop⟩ := advanceFrom_spec (b := b)
    (b.totalFragments - b.contiguousFragments) b.contiguousFragments
  have htotal : b.contiguousFragments + (b.totalFragments - b.contiguousFragments) =
      b.totalFragments := by omega
  rw [htotal] at hend hstop
  constructor
  · exact hslots
  · exact hof
  · exact hcons
  · exact hfirst.trans hge
  · exact hend
  · intro i hi hlt
    by_cases hbelow : i < b.contiguousFragments
    · exact hfill i hi hbelow
    · exact hrow i (by omega) hlt
  · exact hstop

theorem insert_cases (b : LockFreeStreamBuffer) (n : Nat) (data : Bytes) :
    (∃ r, b.insert n data = (r, b) ∧ r ≠ .ok true) ∨
      (¬ (n = 0 ∨ b.totalFragments < n) ∧ b.consumedFrontier < n ∧ b.fragments.part (n - 1) = none ∧
        b.insert n data =
          (.ok true, { b with fragments := b.fragments.fill (n - 1) data }.advanceFrontier)) := by
  unfold insert
  by_cases hvalid : n = 0 ∨ b.totalFragments < n
  · rw [if_pos hvalid]
    exact .inl ⟨_, rfl, nofun⟩
  · rw [if_neg hvalid]
    by_cases hcons : n ≤ b.consumedFrontier
    · rw [if_pos hcons]
      exact .inl ⟨_, rfl, nofun⟩
    · rw [if_neg hcons]
      cases hpart : b.fragments.part (n - 1) with
      | some old => exact .inl ⟨_, rfl, nofun⟩
      | none => exact .inr ⟨hvalid, by omega, rfl, rfl⟩

/-- The sizes that a buffer is created with. -/
structure SameSizes (b b' : LockFreeStreamBuffer) : Prop where
  totalSize : b'.totalSize = b.totalSize
  totalFragments : b'.totalFragments = b.totalFragments
  minCompleteFragments : b'.minCompleteFragments = b.minCompleteFragments

variable (b n data) in
theorem sameSizes_insert : SameSizes b (b.insert n data).2 := by
  rcases insert_cases b n data with ⟨_, heq, -⟩ | ⟨-, -, -, heq⟩
  all_goals
    rw [heq]
    exact ⟨rfl, rfl, rfl⟩

theorem part_isSome_insert {i : Nat} (h : (b.fragments.part i).isSome) :
    ((b.insert n data).2.fragments.part i).isSome := by
  rcases insert_cases b n data with ⟨_, heq, -⟩ | ⟨-, -, hnone, heq⟩
  · rw [heq]
    exact h
  · rw [heq]
    have hne : n - 1 ≠ i := by
      rintro rfl
      rw [hnone] at h
      cases h
    show ((b.fragments.fill (n - 1) data).part i).isSome
    rw [part_fill_of_ne hne]
    exact h

/-- A number without a slot, or the number and the payload of a part. -/
def Takes (b : LockFreeStreamBuffer) (parts : List Bytes) (n : Nat) (data : Bytes) : Prop :=
  n = 0 ∨ b.totalFragments < n ∨ parts[n - 1]? = some data

section
variable (h : Holding parts first b)
include h

theorem Holding.insert (htakes : b.Takes parts n data) : Holding parts first (b.insert n data).2 := by
  rcases insert_cases b n data with ⟨_, heq, -⟩ | ⟨hvalid, -, hnone, heq⟩
  · rw [heq]
    exact h
  · have hdata : parts[n - 1]? = some data := by
      rcases htakes with h0 | hlt | hdata
      · exact absurd (.inl h0) hvalid
      · exact absurd (.inr hlt) hvalid
      · exact hdata
    have hkept : ∀ i, first ≤ i → i < b.contiguousFragments →
        ((b.insert n data).2.fragments.part i).isSome :=
      fun i hi hbelow => part_isSome_insert (h.filled i hi hbelow)
    rw [heq] at hkept ⊢
    refine Holding.advanceFrontier ?_ (h.of.fill hdata) h.unconsumed h.first_le h.frontier_le hkept
    show (b.fragments.fill (n - 1) data).length = b.totalFragments
    rw [length_fill]
    exact h.slots

theorem Holding.insert_isSome (hpos : 0 < n)
    (hin : n ≤ b.totalFragments) : ((b.insert n data).2.fragments.part (n - 1)).isSome := by
  cases hpart : b.fragments.part (n - 1) with
  | some old => exact part_isSome_insert (by rw [hpart]; rfl)
  | none =>
    have hvalid : ¬ (n = 0 ∨ b.totalFragments < n) := by omega
    have hcons : ¬ n ≤ b.consumedFrontier := by
      rw [h.unconsumed]
      omega
    have hlt : n - 1 < b.fragments.length := by
      rw [h.slots]
      omega
    unfold LockFreeStreamBuffer.insert
    rw [if_neg hvalid, if_neg hcons, hpart]
    show ((b.fragments.fill (n - 1) data).part (n - 1)).isSome
    rw [part_fill_self hlt]
    rfl

theorem Holding.le_frontier {m : Nat} (hm : m ≤ b.totalFragments)
    (hall : ∀ i < m, (b.fragments.part i).isSome) : m ≤ b.contiguousFragments := by
  by_contra hlt
  have hstop := h.stopped (by omega)
  have hsome := hall b.contiguousFragments (by omega)
  rw [hstop] at hsome
  cases hsome

end

theorem collect_of (target : Nat) {slots : Slots Bytes} (h : slots.Of parts) (result : Bytes) :
    ∃ k, collect target slots result = result ++ (parts.take k).flatten := by
  induction slots generalizing parts result with
  | nil => exact ⟨0, by simp [collect]⟩
  | cons slot slots ih =>
    cases slot with
    | none => exact ⟨0, by simp [collect]⟩
    | some data =>
      cases parts with
      | nil =>
        have := h 0 data rfl
        cases this
      | cons p parts =>
        have hp : p = data := some.inj (h 0 data rfl)
        subst hp
        unfold collect
        by_cases hlong : target ≤ (result ++ p).length
        · rw [if_pos hlong]
          exact ⟨1, by simp⟩
        · rw [if_neg hlong]
          obtain ⟨k, hk⟩ := ih h.tail (result ++ p)
          exact ⟨k + 1, by rw [hk, take_succ_cons, flatten_cons, append_assoc]⟩

theorem le_length_collect {target : Nat} {slots : Slots Bytes} (h : slots.Of parts)
    (hall : ∀ i < parts.length, (slots.part i).isSome) {result : Bytes}
    (hlong : target ≤ (result ++ parts.flatten).length) :
    target ≤ (collect target slots result).length := by
  induction slots generalizing parts result with
  | nil =>
    cases parts with
    | nil => simpa [collect] using hlong
    | cons p parts =>
      have := hall 0 (by simp)
      cases this
  | cons slot slots ih =>
    cases parts with
    | nil =>
      obtain ⟨k, hk⟩ := collect_of target h result
      rw [hk]
      simpa using hlong
    | cons p parts =>
      obtain ⟨data, hdata⟩ := isSome_iff_exists.mp (hall 0 (by simp))
      subst hdata
      have hp : p = data := some.inj (h 0 data rfl)
      subst hp
      unfold collect
      by_cases hreach : target ≤ (result ++ p).length
      · rw [if_pos hreach]
        exact hreach
      · rw [if_neg hreach]
        refine ih h.tail ?_ ?_
        · intro i hi
          have := hall (i + 1) (by simpa using hi)
          rwa [part_cons_succ] at this
        · rwa [append_assoc]

theorem assemble_eq_some {bytes : Bytes} (h : b.assemble = some bytes) :
    bytes <+: collect b.totalSize b.fragments [] ∧ bytes.length = b.totalSize := by
  unfold assemble at h
  dsimp only at h
  split_ifs at h with _ _ hlen
  cases h
  exact ⟨ take_prefix _ _, hlen⟩

theorem Holding.assemble_eq (h : Holding parts first b) (hsize : parts.flatten.length = b.totalSize)
    {bytes : Bytes} (hbytes : b.assemble = some bytes) : bytes = parts.flatten := by
  obtain ⟨hbegins, hlength⟩ := assemble_eq_some hbytes
  obtain ⟨k, hk⟩ := collect_of b.totalSize h.of []
  rw [hk] at hbegins
  have hwhole : bytes <+: parts.flatten :=
    hbegins.trans (IsPrefix.flatten ( take_prefix k parts))
  exact hwhole.eq_of_length (hlength.trans hsize.symm)

theorem Holding.assemble_isSome (h : Holding parts first b)
    (hsize : parts.flatten.length = b.totalSize) (hmin : b.minCompleteFragments ≤ parts.length)
    (hfits : parts.length ≤ b.totalFragments)
    (hall : ∀ i < parts.length, (b.fragments.part i).isSome) : b.assemble.isSome := by
  have hcompl : b.isComplete := by
    have := h.le_frontier hfits hall
    exact decide_eq_true (hmin.trans this)
  have hlong : b.totalSize ≤ (collect b.totalSize b.fragments []).length :=
    le_length_collect h.of hall hsize.ge
  unfold assemble
  rw [if_neg (by simpa using hcompl), if_neg (by rw [h.unconsumed]; omega)]
  rw [if_pos (by rw [length_take]; omega)]
  rfl

end LockFreeStreamBuffer

/-! Which fragments a buffer reports as new. A slot that was taken looks like one never filled. -/

inductive BufferCall where
  | insert (fragmentNumber : Nat) (data : Bytes)
  | take (fragmentNumber : Nat)
  | markConsumed (upToIndex : Nat)

/-- A buffer and the numbers that its insertions have reported as new. -/
structure BufferRun where
  buffer : LockFreeStreamBuffer
  fresh : List Nat

namespace BufferRun

def call (s : BufferRun) : BufferCall → BufferRun
  | .insert n data =>
    match s.buffer.insert n data with
    | (.ok true, b) => ⟨b, n :: s.fresh⟩
    | (_, b) => { s with buffer := b }
  | .take n => { s with buffer := (s.buffer.take n).2 }
  | .markConsumed n =>
    match s.buffer.markConsumed n with
    | .ok (_, b) => { s with buffer := b }
    | .panicked _ => s

/-- Each number is new once, and the frontier is the longest row of numbers that were new. -/
def Counted (s : BufferRun) : Prop :=
  s.fresh.Nodup ∧ IsGreatest {k | ∀ i < k, i + 1 ∈ s.fresh} s.buffer.contiguousFragments

/-- Only fragments below the frontier are taken, and none of them is inserted again. -/
def TakesPassed (s : BufferRun) : BufferCall → Prop
  | .insert n _ => n ≤ s.buffer.contiguousFragments → n ≤ s.buffer.consumedFrontier ∨ (s.buffer.get n).isSome
  | .take n => n ≤ s.buffer.contiguousFragments ∨ s.buffer.get n = none
  | .markConsumed _ => True

instance (s : BufferRun) : DecidablePred s.TakesPassed
  | .insert _ _ => inferInstanceAs (Decidable (_ → _))
  | .take _ => inferInstanceAs (Decidable (_ ∨ _))
  | .markConsumed _ => isTrue trivial

/-- What was new is below the frontier, consumed or in its slot, and nothing else is in a slot. -/
structure Sound (s : BufferRun) : Prop where
  nodup : s.fresh.Nodup
  slots : s.buffer.totalFragments ≤ s.buffer.fragments.length
  bounded : ∀ n ∈ s.fresh, n ≤ s.buffer.totalFragments
  frontier_le : s.buffer.contiguousFragments ≤ s.buffer.totalFragments
  passed : ∀ i < s.buffer.contiguousFragments, i + 1 ∈ s.fresh
  stopped : s.buffer.contiguousFragments + 1 ∉ s.fresh
  filled : ∀ i, (s.buffer.fragments.part i).isSome → i + 1 ∈ s.fresh
  kept : ∀ i, i + 1 ∈ s.fresh → s.buffer.contiguousFragments ≤ i →
    (s.buffer.fragments.part i).isSome ∨ i < s.buffer.consumedFrontier

variable {s : BufferRun} {n : Nat} {data : Bytes}

theorem Sound.new (totalSize : Nat) : Sound ⟨.new totalSize, []⟩ where
  nodup := nodup_nil
  slots := (Nat.mod_le _ _).trans_eq (length_empty _).symm
  bounded := nofun
  frontier_le := Nat.zero_le _
  passed := nofun
  stopped := nofun
  filled i h := by simp [LockFreeStreamBuffer.new] at h
  kept := nofun

section
variable (h : s.Sound)
include h

theorem Sound.counted : s.Counted := by
  refine ⟨h.nodup, h.passed, ?_⟩
  intro k hk
  by_contra hlt
  exact h.stopped (hk _ (by omega))

/-- Slots may be emptied below the frontier, and where the fragments count as consumed. -/
theorem Sound.emptied {slots : Slots Bytes} {consumed : Nat}
    (hlength : slots.length = s.buffer.fragments.length)
    (hpart : ∀ i, slots.part i = s.buffer.fragments.part i ∨
      slots.part i = none ∧ (i < s.buffer.contiguousFragments ∨ i < consumed))
    (hle : s.buffer.consumedFrontier ≤ consumed) :
    Sound { s with buffer := { s.buffer with fragments := slots, consumedFrontier := consumed } } :=
  { h with
    slots := h.slots.trans_eq hlength.symm
    filled i hi := by grind [h.filled i, hpart i]
    kept i hi hfront := by grind [h.kept i hi hfront, hpart i] }

theorem Sound.accepted (hpos : n ≠ 0) (hn : n ≤ s.buffer.totalFragments)
    (hcons : s.buffer.consumedFrontier < n) (habove : s.buffer.contiguousFragments < n)
    (hnone : s.buffer.fragments.part (n - 1) = none) :
    Sound ⟨({ s.buffer with
      fragments := s.buffer.fragments.fill (n - 1) data }).advanceFrontier, n :: s.fresh⟩ := by
  have hself : (s.buffer.fragments.fill (n - 1) data).part (n - 1) = some data :=
    part_fill_self (by have := h.slots; omega)
  have hother : ∀ i, n - 1 ≠ i → (s.buffer.fragments.fill (n - 1) data).part i = s.buffer.fragments.part i :=
    fun i hi => part_fill_of_ne hi
  obtain ⟨hge, hend, hrow, hstop⟩ := LockFreeStreamBuffer.advanceFrom_spec
    (b := { s.buffer with fragments := s.buffer.fragments.fill (n - 1) data })
    (s.buffer.totalFragments - s.buffer.contiguousFragments) s.buffer.contiguousFragments
  rw [Nat.add_sub_cancel' h.frontier_le] at hend hstop
  have hfill := h.filled
  have hkept := h.kept
  have hstopp := h.stopped
  have hpass := h.passed
  have hbound := h.bounded
  unfold LockFreeStreamBuffer.advanceFrontier
  -- what matters of the new frontier is what its specification says
  exact {
    nodup := nodup_cons.mpr ⟨by grind, h.nodup⟩
    slots := h.slots.trans_eq length_fill.symm
    bounded := by grind
    frontier_le := hend
    passed := by grind
    stopped := by grind
    filled := by grind
    kept := by grind }

theorem Sound.take (hn : s.TakesPassed (.take n)) : (s.call (.take n)).Sound := by
  unfold call LockFreeStreamBuffer.take
  dsimp only
  split_ifs with hvalid
  · exact h
  · refine h.emptied length_clear ?_ le_rfl
    intro i
    by_cases hi : n - 1 = i
    · subst hi
      rcases hn with hle | hnone
      · exact .inr ⟨part_clear_self, .inl (by omega)⟩
      · rw [LockFreeStreamBuffer.get, if_neg hvalid] at hnone
        exact .inl (part_clear_self.trans hnone.symm)
    · exact .inl (part_clear_of_ne hi)

theorem Sound.markConsumed (n : Nat) : (s.call (.markConsumed n)).Sound := by
  unfold call LockFreeStreamBuffer.markConsumed
  dsimp only
  split_ifs
  · exact h
  · refine h.emptied (length_foldl_clear _) ?_ (le_max_left _ _)
    intro i
    rw [part_foldl_clear]
    split_ifs with hi
    · have hlt := mem_range'_1.mp hi
      exact .inr ⟨rfl, .inr (by omega)⟩
    · exact .inl rfl

theorem Sound.insert (hn : s.TakesPassed (.insert n data)) : (s.call (.insert n data)).Sound := by
  unfold call
  dsimp only
  rcases s.buffer.insert_cases n data with ⟨r, heq, hr⟩ | ⟨hvalid, hcons, hnone, heq⟩
  · rw [heq]
    split
    · next hok => exact absurd (Prod.mk.inj hok).1 hr
    · next hok => exact (Prod.mk.inj hok).2 ▸ h
  · rw [heq]
    refine h.accepted (by omega) (by omega) hcons ?_ hnone
    by_contra hle
    rcases hn (by omega) with hconsumed | hsome
    · omega
    · rw [LockFreeStreamBuffer.get, if_neg hvalid, hnone] at hsome
      cases hsome

end
end BufferRun

def bufferMachine : Machine BufferRun BufferCall where
  init s := ∃ totalSize, s = ⟨.new totalSize, []⟩
  step s e := some (s.call e)

/-- As long as fragments are only taken below the frontier, and then not inserted again, each number
is new at most once, and the frontier counts the row of numbers that were new. -/
theorem counted_of_takesPassed {start t : BufferRun} (hstart : bufferMachine.init start)
    (calls : List BufferCall) (hcalls : bufferMachine.Along BufferRun.TakesPassed start calls)
    (hrun : bufferMachine.runFrom start calls = some t) : t.Counted := by
  have hsound : t.Sound := by
    refine bufferMachine.invariant_of_along _ BufferRun.Sound ?_ ?_ hcalls hrun
    · intro s e s' hs he hstep
      cases hstep
      cases e with
      | insert n data => exact hs.insert he
      | take n => exact hs.take he
      | markConsumed n => exact hs.markConsumed n
    · obtain ⟨totalSize, rfl⟩ := hstart
      exact .new totalSize
  exact hsound.counted

/-- The first fragment is taken and consumed, and the second inserted. -/
def consumedFragment : List BufferCall :=
  [.insert 1 [0], .take 1, .markConsumed 1, .insert 1 [0], .insert 2 [0]]

theorem consumedFragment_counted :
    ∃ t, bufferMachine.runFrom ⟨.new 2000, []⟩ consumedFragment = some t ∧ t.fresh = [2, 1] ∧ t.Counted :=
  ⟨_, rfl, rfl, counted_of_takesPassed ⟨2000, rfl⟩ consumedFragment (by decide +kernel) rfl⟩

/-- A fragment that was taken is new again; one that was taken above the frontier stops it. -/
theorem takenFragment_not_counted : (∃ t, bufferMachine.runFrom ⟨.new 2000, []⟩
      [.insert 1 [0], .take 1, .insert 1 [0]] = some t ∧ ¬ t.fresh.Nodup ∧ ¬ t.Counted) ∧
    ∃ t, bufferMachine.runFrom ⟨.new 2000, []⟩ [.insert 2 [0], .take 2, .insert 1 [0]] = some t ∧
      t.fresh = [1, 2] ∧ t.buffer.contiguousFragments = 1 ∧ ¬ t.Counted := by
  refine ⟨⟨_, rfl, by decide, fun h => absurd h.1 (by decide)⟩, _, rfl, rfl, rfl, fun h => ?_⟩
  have hle := h.2.2 (show 2 ∈ {k | ∀ i < k, i + 1 ∈ [1, 2]} by decide)
  exact absurd hle (by decide)

end Freenet.Transport
