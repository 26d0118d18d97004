import Freenet.Lib.Machine

/-! The event loop's channels, polled by priority, with a turn for the protected ones after a
burst. -/
namespace Freenet.Node
open List

inductive Channel where
  | notification | handshake | opExecution | peerConnection | connBridge | nodeController
  | clientTransaction | executorTransaction
  deriving DecidableEq

/-- What a poll finds in a channel. -/
inductive Polled where
  | item | closed | pending
  deriving DecidableEq

inductive SelectResult where
  | item (c : Channel)
  | closed (c : Channel)
  deriving DecidableEq

def maxHighPriorityBurst : Nat := 32

def protectedChannels : List Channel := [.handshake, .clientTransaction, .executorTransaction]

/-- The order in which the channels are polled. -/
def pollOrder (forced : Bool) : List Channel :=
  if forced then
    protectedChannels ++ [.notification, .opExecution, .peerConnection, .connBridge, .nodeController]
  else
    [.notification, .handshake, .opExecution, .peerConnection, .connBridge, .nodeController,
      .clientTransaction, .executorTransaction]

/-- The channels that are known to be closed now, the first of them that was not before, and the
channel that had an item. -/
structure Look where
  closed : List Channel
  firstClosed : Option Channel
  item : Option Channel

def look (polled : Channel → Polled) : List Channel → List Channel → Option Channel → Look
  | [], closed, first => ⟨closed, first, none⟩
  | c :: order, closed, first =>
    if c ∈ closed then look polled order closed first
    else match polled c with
      | .item => ⟨closed, first, some c⟩
      | .closed => look polled order (c :: closed) (first <|> some c)
      | .pending => look polled order closed first

structure PrioritySelectStream where
  closed : List Channel
  highPriorityStreak : Nat

namespace PrioritySelectStream
variable (s : PrioritySelectStream) (polled : Channel → Polled)

def forced : Bool := maxHighPriorityBurst ≤ s.highPriorityStreak

/-- An item of a protected channel ends the streak, but one of the handshake channel only in a
forced poll. -/
def pollNext : PrioritySelectStream × Option SelectResult :=
  let found := look polled (pollOrder s.forced) s.closed none
  let streak := if s.forced && protectedChannels.all (· ∈ found.closed) then 0 else s.highPriorityStreak
  match found.item with
  | some c =>
    (⟨found.closed, if c ∈ protectedChannels ∧ (s.forced ∨ c ≠ .handshake) then 0
      else (streak + 1) % 2 ^ 32⟩, some (.item c))
  | none => (⟨found.closed, streak⟩, found.firstClosed.map .closed)

def results : PrioritySelectStream → List (Channel → Polled) → List (Option SelectResult)
  | _, [] => []
  | s, polled :: polls => (s.pollNext polled).2 :: results (s.pollNext polled).1 polls

end PrioritySelectStream

variable {polled : Channel → Polled} {c : Channel}

theorem look_of_item {order closed : List Channel} (first : Option Channel) (hc : c ∈ order)
    (hopen : c ∉ closed) (hitem : polled c = .item) : ∃ b, (look polled order closed first).item = some b ∧
      polled b = .item ∧ c ∉ (look polled order closed first).closed ∧
      (b = c ∨ b ∈ order.takeWhile (· ≠ c)) := by
  induction order generalizing closed first with
  | nil => cases hc
  | cons a order ih =>
    unfold look
    by_cases ha : a = c
    · subst ha
      exact ⟨a, by simp [hopen, hitem]⟩
    · rw [takeWhile_cons_of_pos (by simpa using ha)]
      have hlater {closed} first (hopen : c ∉ closed) :=
        (ih first ((mem_cons.mp hc).resolve_left (Ne.symm ha)) hopen).imp fun b h =>
          And.intro h.1 (And.intro h.2.1 (h.2.2.imp_right (Or.imp_right (mem_cons_of_mem a))))
      split_ifs
      · exact hlater first hopen
      · cases hpoll : polled a with
        | item => exact ⟨a, rfl, hpoll, hopen, .inr mem_cons_self⟩
        | closed => exact hlater _ (by simp [hopen, Ne.symm ha])
        | pending => exact hlater first hopen

namespace PrioritySelectStream
variable {s : PrioritySelectStream}

/-- The channel has an item, and no protected channel before it has one. -/
def Favors (c : Channel) (polled : Channel → Polled) : Prop :=
  polled c = .item ∧ ∀ p ∈ protectedChannels.takeWhile (· ≠ c), polled p ≠ .item

theorem pollNext_of_favors (hc : c ∈ protectedChannels) (hopen : c ∉ s.closed) (h : Favors c polled) :
    (s.pollNext polled).2 = some (.item c) ∨ s.highPriorityStreak < maxHighPriorityBurst ∧
      (s.pollNext polled).1.highPriorityStreak = s.highPriorityStreak + 1 ∧
      c ∉ (s.pollNext polled).1.closed := by
  have horder : ∀ forced, ∀ c ∈ protectedChannels, c ∈ pollOrder forced ∧
      ∀ b ∈ (pollOrder forced).takeWhile (· ≠ c), b ∈ protectedChannels.takeWhile (· ≠ c) ∨
        forced = false ∧ b ∉ protectedChannels := by decide
  obtain ⟨hmem, hbefore⟩ := horder s.forced c hc
  obtain ⟨b, hlook, hitem, hopen', hb⟩ := look_of_item none hmem hopen h.1
  unfold pollNext
  dsimp only
  rw [hlook]
  rcases hb with rfl | hb
  · exact .inl rfl
  · obtain hearly | ⟨hforced, hb⟩ := hbefore b hb
    · exact absurd hitem (h.2 b hearly)
    · have hlt : s.highPriorityStreak < 32 := Nat.not_le.mp (of_decide_eq_false hforced)
      refine .inr ⟨hlt, ?_, hopen'⟩
      simp [hforced, hb]
      omega

/-- A protected channel that stays ready is served within a burst and one more item, if no protected
channel before it has an item meanwhile. -/
theorem served_of_favors {polls : List (Channel → Polled)} (hc : c ∈ protectedChannels)
    (hopen : c ∉ s.closed) (hlen : maxHighPriorityBurst < polls.length)
    (hpolls : ∀ polled ∈ polls, Favors c polled) : some (.item c) ∈ s.results polls := by
  replace hlen : maxHighPriorityBurst - s.highPriorityStreak < polls.length := by omega
  induction polls generalizing s with
  | nil => cases hlen
  | cons polled polls ih =>
    obtain hitem | ⟨hlt, hstreak, hopen⟩ := pollNext_of_favors hc hopen (hpolls polled mem_cons_self)
    · simp [results, hitem]
    · refine mem_cons_of_mem _ (ih hopen (fun p hp => hpolls p (mem_cons_of_mem _ hp)) ?_)
      rw [length_cons] at hlen
      omega

/-- All of notification, handshake and client transactions have items at any time. -/
def busy : Channel → Polled
  | .notification | .handshake | .clientTransaction => .item
  | _ => .pending

theorem handshake_served : some (.item .handshake) ∈ results ⟨[], 0⟩ (replicate 33 busy) :=
  served_of_favors (by decide) (by decide) (by decide) fun _ h => by
    rw [eq_of_mem_replicate h]
    exact ⟨rfl, by decide⟩

/-- The handshake channel takes every turn that is forced. -/
theorem client_transaction_starves : busy .clientTransaction = .item ∧
    ¬ ∃ n, some (.item .clientTransaction) ∈ results ⟨[], 0⟩ (replicate n busy) := by
  refine ⟨rfl, not_exists.mpr fun n => ?_⟩
  generalize 0 = streak
  induction n generalizing streak with
  | zero => exact not_mem_nil
  | succ n ih =>
    have hnext : ∃ streak' c, c ≠ .clientTransaction ∧
        pollNext ⟨[], streak⟩ busy = (⟨[], streak'⟩, some (.item c)) := by
      cases hforced : forced ⟨[], streak⟩ with
      | true => exact ⟨_, .handshake, by decide, by rw [pollNext, hforced]; rfl⟩
      | false => exact ⟨_, .notification, by decide, by rw [pollNext, hforced]; rfl⟩
    obtain ⟨streak', c, hc, hnext⟩ := hnext
    simpa [replicate_succ, results, hnext, hc.symm] using ih streak'

end PrioritySelectStream
end Freenet.Node
