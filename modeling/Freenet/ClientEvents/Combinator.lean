import Freenet.Node.RequestRouter
import Mathlib.Data.PEquiv

/-! Client proxies side by side: internal client ids, and whom a response goes to. -/
namespace Freenet.ClientEvents
open Lib Option Function Table
open Node (ClientId)

/-- The last three fields are history: calls of `ClientId::next`, the client whose request made an
internal id, and the responses handed to the proxies. -/
structure ClientEventsCombinator (N : Nat) (R : Type) where
  externalClients : Fin N → Table ClientId ClientId
  internalClients : Table ClientId (Fin N × ClientId)
  deadClients : Fin N → Bool
  nextCalls : Nat
  creator : Table ClientId (Fin N × ClientId)
  delivered : List (ClientId × (Fin N × ClientId) × R)

inductive ProxyEvent (N : Nat) (R : Type) where
  | received (idx : Fin N) (external : ClientId)
  | closed (idx : Fin N)
  /-- A response to a client; `taken` tells whether the channel to its proxy takes it. -/
  | send (internal : ClientId) (response : R) (taken : Bool)

namespace ClientEventsCombinator
variable {N : Nat} {R : Type} (next : Nat → ClientId) (c : ClientEventsCombinator N R)

def new : ClientEventsCombinator N R := ⟨fun _ => .empty, .empty, fun _ => false, 0, .empty, []⟩

def register (idx : Fin N) (external internal : ClientId) : ClientEventsCombinator N R :=
  { c with
    externalClients := update c.externalClients idx ((c.externalClients idx).insert external internal)
    internalClients := c.internalClients.insert internal (idx, external)
    nextCalls := c.nextCalls + 1
    creator := c.creator.insert internal (idx, external) }

/-- A proxy whose channel is closed is not polled again. -/
def step : ProxyEvent N R → Option (ClientEventsCombinator N R)
  | .received idx external =>
    if c.deadClients idx then none
    else if ((c.externalClients idx).get external).isSome then some c
    else some (c.register idx external (next c.nextCalls))
  | .closed idx =>
    if c.deadClients idx then none
    else some { c with
      externalClients := update c.externalClients idx .empty
      internalClients := c.internalClients.retain fun _ client => client.1 ≠ idx
      deadClients := update c.deadClients idx true }
  | .send internal response taken =>
    match c.internalClients.get internal with
    | none => some c
    | some client =>
      if c.deadClients client.1 || !taken then some c
      else some { c with delivered := (internal, client, response) :: c.delivered }

def machine : Machine (ClientEventsCombinator N R) (ProxyEvent N R) := ⟨(· = new), step next⟩

structure Sound : Prop where
  inverse (internal idx external) : c.internalClients.get internal = some (idx, external) ↔
    (c.externalClients idx).get external = some internal
  created {internal client} (h : c.internalClients.get internal = some client) :
    c.creator.get internal = some client
  called {internal client} (h : c.creator.get internal = some client) : ∃ k < c.nextCalls, next k = internal
  delivered (response) (h : response ∈ c.delivered) : c.creator.get response.1 = some response.2.1

variable {next c} (h : c.Sound next)
include h

theorem Sound.register {idx : Fin N} {external : ClientId} (hnext : Injective next)
    (hnew : (c.externalClients idx).get external = none) :
    (c.register idx external (next c.nextCalls)).Sound next := by
  have hunus : c.creator.get (next c.nextCalls) = none := by
    refine eq_none_iff_forall_ne_some.mpr fun client hcreat => ?_
    obtain ⟨k, hk, heq⟩ := h.called hcreat
    exact hk.ne (hnext heq)
  have hfresh {idx' e} : (c.externalClients idx').get e ≠ some (next c.nextCalls) := by
    intro hknown
    rw [h.created ((h.inverse _ idx' e).mpr hknown)] at hunus
    cases hunus
  refine ⟨fun i idx' e => ?_, fun hget => ?_, fun hget => ?_, fun response hmem => ?_⟩
  · have hiff := h.inverse i idx' e
    simp only [ClientEventsCombinator.register, update_apply, get_insert]
    grind [get_insert]
  · rcases get_insert_cases hget with ⟨rfl, rfl⟩ | ⟨hne, hget⟩
    · exact get_insert_self
    · exact (get_insert_of_ne hne).trans (h.created hget)
  · rcases get_insert_cases hget with ⟨rfl, rfl⟩ | ⟨_, hget⟩
    · exact ⟨c.nextCalls, Nat.lt_succ_self _, rfl⟩
    · obtain ⟨k, hk, heq⟩ := h.called hget
      exact ⟨k, Nat.lt_succ_of_lt hk, heq⟩
  · exact get_insert_of_none hunus (h.delivered response hmem)

theorem Sound.step {event : ProxyEvent N R} {c' : ClientEventsCombinator N R} (hnext : Injective next)
    (hstep : c.step next event = some c') : c'.Sound next := by
  cases event with
  | received idx external =>
    simp only [ClientEventsCombinator.step] at hstep
    split_ifs at hstep with _ hknown
    · cases hstep
      exact h
    · cases hstep
      exact h.register hnext (by simpa using hknown)
  | closed idx =>
    obtain ⟨_, ⟨⟩⟩ := ite_none_left_eq_some.mp hstep
    refine ⟨fun i idx' e => ?_, fun hget => h.created (filter_eq_some_iff.mp hget).1, h.called, h.delivered⟩
    have hiff := h.inverse i idx' e
    by_cases hidx : idx' = idx <;> simp_all [filter_eq_some_iff]
  | send internal response taken =>
    simp only [ClientEventsCombinator.step] at hstep
    cases hget : c.internalClients.get internal with
    | none =>
      rw [hget] at hstep
      cases hstep
      exact h
    | some client =>
      simp only [hget] at hstep
      split_ifs at hstep
      · cases hstep
        exact h
      · cases hstep
        exact ⟨h.inverse, h.created, h.called, List.forall_mem_cons.mpr ⟨h.created hget, h.delivered⟩⟩

omit h

/-- The two maps are a partial bijection, and a response goes to the client whose request made the
id. -/
theorem response_reaches_creator (hnext : Injective next) (events : List (ProxyEvent N R))
    (hrun : (machine next).runFrom new events = some c) :
    (∃ clients : ClientId ≃. Fin N × ClientId,
      (∀ internal, clients internal = c.internalClients.get internal) ∧
      ∀ idx external, clients.symm (idx, external) = (c.externalClients idx).get external) ∧
    ∀ response ∈ c.delivered, c.creator.get response.1 = some response.2.1 := by
  have hnew : (new : ClientEventsCombinator N R).Sound next := by
    constructor <;> simp [new]
  have h := (machine next).invariant_of_run (Sound next) (fun _ _ _ h hstep => h.step hnext hstep) hnew hrun
  refine ⟨⟨⟨c.internalClients.get, fun client => (c.externalClients client.1).get client.2, ?_⟩, ?_, ?_⟩,
    h.delivered⟩
  · exact fun internal client => (h.inverse internal client.1 client.2).symm
  · exact fun _ => rfl
  · exact fun _ _ => rfl

/-- Two proxies with a client 7 each, and the end of the first proxy. -/
def twoProxies : List (ProxyEvent 2 Nat) :=
  [.received 0 7, .received 1 7, .send 0 5 true, .closed 0, .send 0 6 true, .send 1 8 true]

theorem response_reaches_creator_twoProxies : ∃ c, (machine id).runFrom new twoProxies = some c ∧
    c.delivered = [(1, (1, 7), 8), (0, (0, 7), 5)] ∧ c.creator.get 1 = some (1, 7) :=
  ⟨_, rfl, rfl, (response_reaches_creator injective_id twoProxies rfl).2 (1, (1, 7), 8) (.head _)⟩

end ClientEventsCombinator
end Freenet.ClientEvents
