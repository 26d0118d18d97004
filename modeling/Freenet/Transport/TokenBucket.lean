import Freenet.Lib.Machine
import Freenet.Transport.PacketData
import Mathlib.Data.Rat.Floor

/-! Congestion control: round trip estimates, with acknowledgements that bring no sample, and the
token bucket over exact rationals. -/
namespace Freenet.Transport

/-- The minimum over a window of time, and when to probe for a new one; times are nanoseconds. -/
structure RttTracker where
  minRttNanos : Nat
  minRttStampNanos : Nat
  nextProbeRttNanos : Nat
  probeRttEntryNanos : Nat
  probeRttRoundDone : Bool

inductive BbrState where
  | startup
  | drain
  | probeBw
  | probeRtt

namespace RttTracker

def u64Max : Nat := 2 ^ 64 - 1

def filterWindowNanos : Nat := 10 * 10 ^ 9

def probeIntervalNanos : Nat := 5 * 10 ^ 9

def probeDurationNanos : Nat := 200 * 10 ^ 6

def new : RttTracker := ⟨u64Max, 0, 0, 0, false⟩

variable (t : RttTracker) (now : Nat)

def isExpired : Bool := decide (filterWindowNanos < now - t.minRttStampNanos)

def update (rttNanos : Nat) : RttTracker :=
  if rttNanos < t.minRttNanos ∨ t.isExpired now then
    { t with minRttNanos := rttNanos, minRttStampNanos := now }
  else t

def minRtt : Option Nat := if t.minRttNanos = u64Max then none else some t.minRttNanos

def shouldEnterProbeRtt : Bool :=
  t.isExpired now || decide (0 < t.nextProbeRttNanos ∧ t.nextProbeRttNanos ≤ now)

def enterProbeRtt : RttTracker := { t with probeRttEntryNanos := now, probeRttRoundDone := false }

def shouldExitProbeRtt : Bool :=
  decide (probeDurationNanos ≤ now - t.probeRttEntryNanos) && t.probeRttRoundDone

def exitProbeRtt : RttTracker := { t with nextProbeRttNanos := min (now + probeIntervalNanos) u64Max }

/-- What the state machine of the controller does to the tracker; whether few bytes are in flight is
an input. -/
def updateState (enableProbeRtt drained : Bool) : BbrState → RttTracker
  | .probeBw => if enableProbeRtt && t.shouldEnterProbeRtt now then t.enterProbeRtt now else t
  | .probeRtt =>
    let t := if drained then { t with probeRttRoundDone := true } else t
    if t.shouldExitProbeRtt now then t.exitProbeRtt now else t
  | _ => t

/-- The minimum counts as a sample, or 100 milliseconds if there is none. -/
def onAckWithoutRtt (enableProbeRtt drained : Bool) (state : BbrState) : RttTracker :=
  (t.update now (t.minRtt.getD (100 * 10 ^ 6))).updateState now enableProbeRtt drained state

def estimate : Nat × Nat := (t.minRttNanos, t.minRttStampNanos)

theorem estimate_exitProbeRtt : (t.exitProbeRtt now).estimate = t.estimate := by
  have hnext (next : Nat) : { t with nextProbeRttNanos := next }.estimate = t.estimate := rfl
  exact hnext _

theorem estimate_updateState (enableProbeRtt drained : Bool) (state : BbrState) :
    (t.updateState now enableProbeRtt drained state).estimate = t.estimate := by
  cases state with
  | startup | drain => rfl
  | probeBw =>
    dsimp only [updateState]
    split <;> rfl
  | probeRtt =>
    dsimp only [updateState]
    rw [apply_ite estimate, estimate_exitProbeRtt, ite_self]
    cases drained <;> rfl

theorem estimate_update_iff : (t.update now (t.minRtt.getD (100 * 10 ^ 6))).estimate = t.estimate ↔
      t.minRttNanos ≠ u64Max ∧ t.isExpired now = false := by
  by_cases hmin : t.minRttNanos = u64Max
  · have hless : 100 * 10 ^ 6 < t.minRttNanos := by
      rw [hmin]
      decide
    rw [minRtt, if_pos hmin, update, if_pos (.inl hless)]
    exact iff_of_false (fun heq => Nat.ne_of_lt hless (congrArg Prod.fst heq)) fun hfresh => hfresh.1 hmin
  cases hexp : t.isExpired now with
  | false => simp [update, minRtt, hmin, hexp]
  | true =>
    -- the minimum stays, but its time is now
    have hstamp : now ≠ t.minRttStampNanos := by
      rintro rfl
      simp [isExpired] at hexp
    simp [update, minRtt, hmin, hexp, estimate, hstamp]

end RttTracker

/-- LEDBAT keeps base delays of type `D`, the fixed rate none. -/
inductive RttEstimate (D : Type) where
  | bbr (tracker : RttTracker)
  | ledbat (baseDelay : D)
  | fixedRate

namespace RttEstimate
variable {D : Type}

def onAckWithoutRtt (now : Nat) (enableProbeRtt drained : Bool) (state : BbrState) :
    RttEstimate D → RttEstimate D
  | bbr tracker => bbr (tracker.onAckWithoutRtt now enableProbeRtt drained state)
  | ledbat baseDelay => ledbat baseDelay
  | fixedRate => fixedRate

/-- The minimum, its time, and the base delay. -/
def values : RttEstimate D → Option (Nat × Nat) × Option D
  | bbr tracker => (some tracker.estimate, none)
  | ledbat baseDelay => (none, some baseDelay)
  | fixedRate => (none, none)

/-- BBR has a minimum that is not older than the window. -/
def Fresh (now : Nat) : RttEstimate D → Prop
  | bbr tracker => tracker.minRttNanos ≠ RttTracker.u64Max ∧ tracker.isExpired now = false
  | _ => True

theorem onAckWithoutRtt_values_iff (e : RttEstimate D) (now : Nat)
    (enableProbeRtt drained : Bool) (state : BbrState) :
    (e.onAckWithoutRtt now enableProbeRtt drained state).values = e.values ↔ e.Fresh now := by
  cases e with
  | ledbat | fixedRate => exact iff_of_true rfl trivial
  | bbr t =>
    simp only [onAckWithoutRtt, values, RttTracker.onAckWithoutRtt, Prod.mk.injEq,
      and_true, Option.some.injEq,
      RttTracker.estimate_updateState]
    exact t.estimate_update_iff now

theorem first_ack_sets_estimate :
    let e : RttEstimate Unit := .bbr .new
    (e.onAckWithoutRtt 0 true false .startup).values ≠ e.values := by
  decide

end RttEstimate

open Lib

/-- Casts to `isize` wrap, and so do its sums where overflow is not checked. -/
def asIsize (n : Int) : Int := n.bmod (2 ^ 64)

theorem le_asIsize (n : Int) : -2 ^ 63 ≤ asIsize n := Int.le_bmod (by decide)

theorem asIsize_lt (n : Int) : asIsize n < 2 ^ 63 := Int.bmod_lt (by decide)

theorem asIsize_of_fits {n : Int} (hle : -2 ^ 63 ≤ n) (hlt : n < 2 ^ 63) : asIsize n = n :=
  Int.bmod_eq_of_le_mul_two (by omega) (by omega)

theorem asIsize_le {n : Int} (h : -2 ^ 63 ≤ n) : asIsize n ≤ n := by
  by_cases hlt : n < 2 ^ 63
  · exact (asIsize_of_fits h hlt).le
  · exact (asIsize_lt n).le.trans (not_lt.mp hlt)

attribute [irreducible] asIsize

structure BucketState where
  capacity : Nat
  tokens : Int
  fractionalTokens : ℚ
  rate : Nat
  lastRefillNanos : Nat

/-- The whole part of a fraction, in a cast that saturates. -/
def wholeTokens (fraction : ℚ) : Int := min ⌊fraction⌋ (2 ^ 63 - 1)

theorem wholeTokens_le (fraction : ℚ) : wholeTokens fraction ≤ fraction :=
  (Int.cast_le.mpr (min_le_left _ _)).trans (Int.floor_le _)

/-- What a rate per second makes up in some time. -/
def accrued (rate nanos : Nat) : ℚ := rate * (nanos / nanosPerSec)

namespace BucketState

def new (capacity rate now : Nat) : BucketState := ⟨capacity, asIsize capacity, 0, rate, now⟩

def refillState (s : BucketState) (now : Nat) : BucketState :=
  let elapsedNanos := now - s.lastRefillNanos
  if elapsedNanos = 0 then s
  else
    let fractionalTokens := s.fractionalTokens + accrued s.rate elapsedNanos
    let newTokensWhole := wholeTokens fractionalTokens
    if 0 < newTokensWhole then
      { s with
        tokens := min (asIsize (s.tokens + newTokensWhole)) (asIsize s.capacity)
        fractionalTokens := fractionalTokens - newTokensWhole
        lastRefillNanos := now }
    else { s with fractionalTokens := fractionalTokens }

/-- The seconds to wait, and the state without the tokens of the reservation. -/
def reserve (s : BucketState) (now bytes : Nat) : ℚ × BucketState :=
  let s := s.refillState now
  let bytesIsize := asIsize bytes
  let wait := if bytesIsize ≤ s.tokens then 0
    else if s.rate = 0 then 0
    else asIsize (bytesIsize - s.tokens) / s.rate
  (wait, { s with tokens := asIsize (s.tokens - bytesIsize) })

def setRate (s : BucketState) (newRate : Nat) : BucketState := { s with rate := max newRate 1024 }

end BucketState

inductive BucketEvent where
  | pass (nanos : Nat)
  | refill
  | reserve (bytes : Nat)
  | setRate (newRate : Nat)

/-- A bucket at a time, with the tokens that refills have credited and the integral of the rate. -/
structure BucketRun where
  bucket : BucketState
  now : Nat
  credited : Int
  integral : ℚ

namespace BucketRun

def refill (s : BucketRun) : BucketRun :=
  { s with
    bucket := s.bucket.refillState s.now
    credited := s.credited + ((s.bucket.refillState s.now).tokens - s.bucket.tokens) }

def after (s : BucketRun) : BucketEvent → BucketRun
  | .pass nanos =>
    { s with now := s.now + nanos, integral := s.integral + accrued s.bucket.rate nanos }
  | .refill => s.refill
  | .reserve bytes => { s.refill with bucket := (s.bucket.reserve s.now bytes).2 }
  | .setRate newRate => { s with bucket := s.bucket.setRate newRate }

/-- What has been made up since the last refill that credited tokens. -/
def outstanding (s : BucketRun) : ℚ :=
  s.bucket.fractionalTokens + accrued s.bucket.rate (s.now - s.bucket.lastRefillNanos)

/-- Refills find a whole token, or no time has passed; the rate is raised only right after one. -/
def CountsOnce (s : BucketRun) : BucketEvent → Prop
  | .pass _ => True
  | .refill | .reserve _ => s.now = s.bucket.lastRefillNanos ∨ 1 ≤ s.outstanding
  | .setRate newRate => s.now = s.bucket.lastRefillNanos ∨ max newRate 1024 ≤ s.bucket.rate

instance (s : BucketRun) : DecidablePred s.CountsOnce
  | .pass _ => isTrue trivial
  | .refill | .reserve _ | .setRate _ => inferInstanceAs (Decidable (_ ∨ _))

structure Sound (s : BucketRun) : Prop where
  tokens : -2 ^ 63 ≤ s.bucket.tokens
  fraction : 0 ≤ s.bucket.fractionalTokens
  last_le : s.bucket.lastRefillNanos ≤ s.now
  bound : s.credited + s.outstanding ≤ s.integral

theorem accrued_nonneg (rate nanos : Nat) : 0 ≤ accrued rate nanos := by
  unfold accrued
  positivity

theorem accrued_zero (rate : Nat) : accrued rate 0 = 0 := by simp [accrued]

variable {s : BucketRun} (h : s.Sound)
include h

theorem Sound.credited_le : s.credited ≤ s.integral := by
  have hbound := h.bound
  have hfract := h.fraction
  have haccr := accrued_nonneg s.bucket.rate (s.now - s.bucket.lastRefillNanos)
  unfold outstanding at hbound
  linarith

theorem Sound.pass (nanos : Nat) : (s.after (.pass nanos)).Sound where
  tokens := h.tokens
  fraction := h.fraction
  last_le := h.last_le.trans (Nat.le_add_right _ _)
  bound := by
    have hbound := h.bound
    have hsub : s.now + nanos - s.bucket.lastRefillNanos =
        s.now - s.bucket.lastRefillNanos + nanos := Nat.sub_add_comm h.last_le
    simp only [after, outstanding, accrued, hsub] at hbound ⊢
    rw [Nat.cast_add, add_div]
    linarith

theorem Sound.refill (hs : s.now = s.bucket.lastRefillNanos ∨ 1 ≤ s.outstanding) : s.refill.Sound := by
  unfold BucketRun.refill BucketState.refillState
  dsimp only
  split_ifs with helaps hwhole
  · rw [sub_self, add_zero]
    exact h
  · refine ⟨le_min (le_asIsize _) (le_asIsize _), sub_nonneg.mpr (wholeTokens_le _), le_rfl, ?_⟩
    have hbound := h.bound
    have hgiven : (min (asIsize (s.bucket.tokens + wholeTokens s.outstanding))
        (asIsize s.bucket.capacity) : ℚ) ≤ s.bucket.tokens + wholeTokens s.outstanding := by
      exact_mod_cast (min_le_left _ _).trans
        (asIsize_le (h.tokens.trans (le_add_of_nonneg_right hwhole.le)))
    rw [outstanding, Nat.sub_self, accrued_zero]
    unfold outstanding at hbound hgiven
    push_cast
    linarith
  · have hone : 1 ≤ ⌊s.outstanding⌋ := Int.le_floor.mpr (by simpa using hs.resolve_left (by omega))
    exact absurd (lt_min (zero_lt_one.trans_le hone) (by decide)) hwhole

theorem Sound.setRate {newRate : Nat} (hs : s.CountsOnce (.setRate newRate)) :
    (s.after (.setRate newRate)).Sound where
  tokens := h.tokens
  fraction := h.fraction
  last_le := h.last_le
  bound := by
    refine le_trans ?_ h.bound
    simp only [after, outstanding, BucketState.setRate]
    rcases hs with hnow | hle
    · simp [hnow, accrued_zero]
    · unfold accrued
      gcongr

theorem Sound.after {e : BucketEvent} (he : s.CountsOnce e) : (s.after e).Sound := by
  cases e with
  | pass nanos => exact h.pass nanos
  | refill => exact h.refill he
  | reserve bytes => exact { h.refill he with tokens := le_asIsize _ }
  | setRate newRate => exact h.setRate he

end BucketRun

def bucketMachine : Machine BucketRun BucketEvent where
  init s := ∃ capacity rate now, s = ⟨.new capacity rate now, now, 0, 0⟩
  step s e := some (s.after e)

/-- At most the capacity is there, as `isize` has it, and less than a token over. -/
def BucketState.Bounded (s : BucketState) : Prop :=
  s.tokens ≤ asIsize s.capacity ∧ 0 ≤ s.fractionalTokens ∧ s.fractionalTokens < 1

namespace BucketRun

/-- What has been made up fits in `isize`, and so does what a reservation takes and leaves. -/
def FitsIsize (s : BucketRun) : BucketEvent → Prop
  | .pass _ | .setRate _ => True
  | .refill => s.outstanding < 2 ^ 63
  | .reserve bytes =>
    s.outstanding < 2 ^ 63 ∧ bytes < 2 ^ 63 ∧ -2 ^ 63 ≤ s.refill.bucket.tokens - bytes

instance (s : BucketRun) : DecidablePred s.FitsIsize
  | .pass _ | .setRate _ => isTrue trivial
  | .refill => inferInstanceAs (Decidable (_ < _))
  | .reserve _ => inferInstanceAs (Decidable (_ ∧ _))

theorem bounded_refill {s : BucketRun} (h : s.bucket.Bounded) (hfits : s.outstanding < 2 ^ 63) :
    s.refill.bucket.Bounded := by
  have hwhole : wholeTokens s.outstanding = ⌊s.outstanding⌋ :=
    min_eq_left (Int.le_sub_one_of_lt (Int.floor_lt.mpr (by exact_mod_cast hfits)))
  unfold outstanding at hwhole
  unfold refill BucketState.refillState
  dsimp only
  rw [hwhole]
  split_ifs with _ hpos
  · exact h
  · refine ⟨min_le_right _ _, sub_nonneg.mpr (Int.floor_le _), ?_⟩
    exact sub_lt_iff_lt_add'.mpr (Int.lt_floor_add_one _)
  · rw [Int.floor_pos] at hpos
    exact ⟨h.1, add_nonneg h.2.1 (accrued_nonneg _ _), not_le.mp hpos⟩

theorem bounded_reserve {s : BucketRun} {bytes : Nat} (h : s.bucket.Bounded)
    (hfits : s.FitsIsize (.reserve bytes)) : (s.after (.reserve bytes)).bucket.Bounded := by
  obtain ⟨hmade, hbytes, hleft⟩ := hfits
  have hrefill := bounded_refill h hmade
  refine ⟨?_, hrefill.2⟩
  have hcast : asIsize bytes = bytes := asIsize_of_fits (by omega) (by omega)
  have hlt := hrefill.1.trans_lt (asIsize_lt _)
  show asIsize (s.refill.bucket.tokens - asIsize bytes) ≤ _
  rw [hcast, asIsize_of_fits hleft (by omega)]
  exact (sub_le_self _ (Int.natCast_nonneg _)).trans hrefill.1

end BucketRun

/-- A bucket never holds more than its capacity, as long as numbers fit in `isize`. -/
theorem bucket_bounded {start t : BucketRun} (hstart : bucketMachine.init start)
    (events : List BucketEvent) (hfits : bucketMachine.Along BucketRun.FitsIsize start events)
    (hrun : bucketMachine.runFrom start events = some t) : t.bucket.Bounded := by
  refine bucketMachine.invariant_of_along _ (fun s => s.bucket.Bounded) ?_ ?_ hfits hrun
  · intro s e s' h he hstep
    cases hstep
    cases e with
    | pass nanos | setRate newRate => exact h
    | refill => exact BucketRun.bounded_refill h he
    | reserve bytes => exact BucketRun.bounded_reserve h he
  · obtain ⟨capacity, rate, now, rfl⟩ := hstart
    simp [BucketState.Bounded, BucketState.new]

/-- Refills that each find a whole token credit at most the integral of the rate, if the rate is not
raised between them. -/
theorem credited_le_integral {start t : BucketRun} (hstart : bucketMachine.init start)
    (events : List BucketEvent) (hevents : bucketMachine.Along BucketRun.CountsOnce start events)
    (hrun : bucketMachine.runFrom start events = some t) : t.credited ≤ t.integral := by
  have hsound : t.Sound := by
    refine bucketMachine.invariant_of_along _ BucketRun.Sound ?_ ?_ hevents hrun
    · intro s e s' hs he hstep
      cases hstep
      exact hs.after he
    · obtain ⟨capacity, rate, now, rfl⟩ := hstart
      refine ⟨le_asIsize _, le_rfl, le_rfl, ?_⟩
      simp [BucketRun.outstanding, BucketState.new, BucketRun.accrued_zero]
  exact hsound.credited_le

/-- A full bucket of 1000 tokens and 1024 per second. -/
def fullBucket : BucketRun := ⟨.new 1000 1024 0, 0, 0, 0⟩

def millisecondApart : List BucketEvent :=
  [.reserve 1000, .pass (10 ^ 6), .refill, .setRate 2048, .pass (10 ^ 6), .reserve 10]

theorem millisecondApart_bounded : ∃ t, bucketMachine.runFrom fullBucket millisecondApart = some t ∧
    t.bucket.tokens = -7 ∧ t.bucket.Bounded := by
  refine ⟨_, rfl, by decide +kernel, ?_⟩
  exact bucket_bounded ⟨1000, 1024, 0, rfl⟩ millisecondApart (by decide +kernel) rfl

theorem millisecondApart_credited : ∃ t, bucketMachine.runFrom fullBucket millisecondApart = some t ∧
    t.credited = 3 ∧ t.credited ≤ t.integral := by
  refine ⟨_, rfl, by decide +kernel, ?_⟩
  exact credited_le_integral ⟨1000, 1024, 0, rfl⟩ millisecondApart (by decide +kernel) rfl

/-- Half a token's time counts twice, and a rate counts for the time before it was set. -/
theorem early_refill_credits_too_much : (∃ t, bucketMachine.runFrom fullBucket
        [.reserve 1000, .pass 500000, .refill, .pass 400000, .refill] = some t ∧
      t.credited = 1 ∧ t.integral < 1) ∧ ∃ t, bucketMachine.runFrom fullBucket
        [.reserve 1000, .pass (10 ^ 6), .setRate 4096, .refill] = some t ∧
      t.credited = 4 ∧ t.integral < 2 := by
  exact ⟨⟨_, rfl, by decide +kernel, by decide +kernel⟩, _, rfl, by decide +kernel, by decide +kernel⟩

end Freenet.Transport
