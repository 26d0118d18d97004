import Freenet.ClientEvents.SessionActor

/-! The requests registered with the session actor: each has its response, or waits for it. -/
namespace Freenet.ClientEvents
open Lib Node List SessionActor

/-- A request that was registered for a transaction; it is `due` when a result was at hand then, or
came later. -/
structure Registration where
  tx : Transaction
  client : ClientId
  request : RequestId
  due : Bool
  deriving DecidableEq

namespace Registration

def delivered (tx : Transaction) (g : Registration) : Registration :=
  if g.tx = tx then { g with due := true } else g

variable {H : Type} {a a' : SessionActor H} {tx : Transaction} {g : Registration}

/-- A request has its response if it is due, and waits otherwise. -/
def Accounted (g : Registration) (a : SessionActor H) : Prop :=
  if g.due then a.answers g.tx g.client g.request = 1 else a.requestId g.tx g.client = some g.request

theorem Accounted.answers (hg : g.Accounted a) (ha : a.Orderly) :
    a.answers g.tx g.client g.request = if g.due then 1 else 0 := by
  unfold Accounted at hg
  split_ifs at hg ⊢ with hdue
  · exact hg
  · exact ha.unsent g.tx g.client g.request hg

theorem Accounted.serves (hg : g.Accounted a) (ha : a.Orderly) (h : a.Serves tx a') :
    (g.delivered tx).Accounted a' := by
  have hansw := hg.answers ha
  unfold Accounted at hg
  by_cases htx : g.tx = tx
  · subst htx
    rw [delivered, if_pos rfl, Accounted, if_pos rfl]
    rw [h.answers, hansw]
    by_cases hdue : g.due = true
    · rw [if_pos hdue] at hansw ⊢
      rw [if_neg]
      rintro ⟨-, hid⟩
      rw [ha.unsent g.tx g.client g.request hid] at hansw
      cases hansw
    · rw [if_neg hdue] at hg ⊢
      rw [if_pos ⟨rfl, hg⟩]
  · have hnone : ¬ (g.tx = tx ∧ a.requestId tx g.client = some g.request) := fun hand => htx hand.1
    rw [delivered, if_neg htx, Accounted, h.answers, h.requestId, if_neg hnone, if_neg htx]
    exact hg

end Registration

/-- The actor with the registrations of clients that have stayed connected since, and all requests
that were ever registered. -/
structure SessionRun (H : Type) where
  actor : SessionActor H
  registered : List Registration
  seen : List (Transaction × ClientId × RequestId)

namespace SessionRun
variable {H : Type}

def new : SessionRun H := ⟨.new, [], []⟩

/-- What is on record after a message that has left the actor as it is now. -/
def after (s : SessionRun H) (message : SessionMessage H) (actor : SessionActor H) : SessionRun H :=
  match message with
  | .registerClient _ | .deliverResult _ => { s with actor := actor }
  | .registerTransaction tx client request =>
    ⟨actor, ⟨tx, client, request, actor.retains tx⟩ :: s.registered, (tx, client, request) :: s.seen⟩
  | .deliverHostResponse tx _ | .deliverHostResponseWithRequestId tx _ _ =>
    ⟨actor, s.registered.map (·.delivered tx), s.seen⟩
  | .clientDisconnect client => ⟨actor, s.registered.filter (·.client ≠ client), s.seen⟩

def Distinct (s : SessionRun H) : SessionMessage H → Prop
  | .registerTransaction tx client request => (tx, client, request) ∉ s.seen ∧ client ∉ s.actor.waiting tx ∧
      ∀ pending ∈ s.actor.pendingResults.lookup tx, client ∉ pending.deliveredClients
  | .deliverHostResponseWithRequestId tx _ request => ∀ client ∈ s.actor.waiting tx,
      ∀ client' ∈ s.actor.waiting tx, s.actor.requestId tx client = some request → client' = client
  | .registerClient _ | .deliverResult _ | .deliverHostResponse _ _ | .clientDisconnect _ => True

instance (s : SessionRun H) : DecidablePred s.Distinct
  | .registerTransaction tx client request => inferInstanceAs (Decidable ((tx, client, request) ∉ s.seen ∧
      client ∉ s.actor.waiting tx ∧
      ∀ pending ∈ s.actor.pendingResults.lookup tx, client ∉ pending.deliveredClients))
  | .deliverHostResponseWithRequestId tx _ request =>
    inferInstanceAs (Decidable (∀ client ∈ s.actor.waiting tx,
      ∀ client' ∈ s.actor.waiting tx, s.actor.requestId tx client = some request → client' = client))
  | .registerClient _ | .deliverResult _ | .deliverHostResponse _ _ | .clientDisconnect _ => isTrue trivial

/-- Every registered request has its response, or waits for it. -/
structure Accounts (s : SessionRun H) : Prop where
  orderly : s.actor.Orderly
  known : ∀ tx client request, s.actor.requestId tx client = some request → (tx, client, request) ∈ s.seen
  unseen : ∀ tx client request, (tx, client, request) ∉ s.seen → s.actor.answers tx client request = 0
  registered : ∀ g ∈ s.registered, g.Accounted s.actor

variable {s : SessionRun H} {a : SessionActor H} {tx : Transaction} {client : ClientId} {request : RequestId}

theorem Accounts.new : (new : SessionRun H).Accounts where
  orderly := Orderly.new
  known _ _ _ h := by cases h
  unseen _ _ _ _ := rfl
  registered _ h := by cases h

section
variable (hs : s.Accounts)
include hs

theorem Accounts.evicts (h : s.actor.Evicts a) : { s with actor := a }.Accounts := by
  have horderly := h.orderly hs.orderly
  obtain ⟨pending, rfl, -⟩ := h
  exact { hs with orderly := horderly }

theorem Accounts.serves (h : s.actor.Serves tx a) :
    (⟨a, s.registered.map (·.delivered tx), s.seen⟩ : SessionRun H).Accounts where
  orderly := h.orderly hs.orderly
  known tx' client request hid := by
    rw [h.requestId] at hid
    split_ifs at hid
    exact hs.known tx' client request hid
  unseen tx' client request hseen := by
    rw [h.answers, hs.unseen tx' client request hseen, if_neg]
    rintro ⟨rfl, hid⟩
    exact hseen (hs.known tx' client request hid)
  registered := by
    intro g' hg'
    obtain ⟨g, hg, rfl⟩ := mem_map.mp hg'
    exact (hs.registered g hg).serves hs.orderly h

theorem Accounts.enroll (hseen : (tx, client, request) ∉ s.seen)
    (hwait : client ∉ s.actor.waiting tx) :
    (⟨s.actor.enroll tx client request, ⟨tx, client, request, false⟩ :: s.registered,
      (tx, client, request) :: s.seen⟩ : SessionRun H).Accounts where
  orderly := hs.orderly.enroll (hs.unseen tx client request hseen)
  known tx' client' request' hid := by
    rw [requestId_enroll] at hid
    split_ifs at hid with hkey
    · obtain ⟨rfl, rfl⟩ := hkey
      cases hid
      exact mem_cons_self
    · exact mem_cons_of_mem _ (hs.known tx' client' request' hid)
  unseen tx' client' request' hnew := hs.unseen tx' client' request' fun h => hnew (mem_cons_of_mem _ h)
  registered := by
    intro g hg
    rcases mem_cons.mp hg with rfl | hg
    · rw [Registration.Accounted, requestId_enroll]
      exact if_pos ⟨rfl, rfl⟩
    · have hbefore := hs.registered g hg
      unfold Registration.Accounted at hbefore ⊢
      split_ifs at hbefore ⊢ with hdue
      · exact hbefore
      · rw [requestId_enroll, if_neg]
        · exact hbefore
        · rintro ⟨htx, hclient⟩
          rw [← htx, ← hclient, hs.orderly.requested, hbefore] at hwait
          exact hwait rfl

theorem delivered_registered (hwait : s.actor.waiting tx = []) :
    s.registered.map (·.delivered tx) = s.registered := by
  refine (map_congr_left fun g hg => ?_).trans (map_id _)
  have hbefore := hs.registered g hg
  unfold Registration.delivered
  split_ifs with htx
  · have hdue : g.due = true := by
      by_contra hdue
      rw [Registration.Accounted, if_neg hdue] at hbefore
      have hmem : g.client ∈ s.actor.waiting g.tx := by
        rw [hs.orderly.requested, hbefore]
        rfl
      rw [htx, hwait] at hmem
      cases hmem
    rw [← hdue]
    rfl
  · rfl

end

variable {message : SessionMessage H} {c : Circumstances}

theorem Accounts.register (hs : s.Accounts) (hsettl : s.actor.Settled)
    (hdistinct : s.Distinct (.registerTransaction tx client request)) :
    (s.after (.registerTransaction tx client request)
      (s.actor.registerTransaction c tx client request)).Accounts := by
  obtain ⟨hseen, hwait, hnew⟩ := hdistinct
  have henroll := hs.enroll hseen hwait
  unfold after
  dsimp only
  cases hrets : s.actor.retains tx with
  | false =>
    have hnone : (s.actor.enroll tx client request).retains tx = false := hrets
    rw [registerTransaction_of_none hrets, hnone]
    exact henroll
  | true =>
    have hserv := registerTransaction_serves (c := c) henroll.orderly hrets (hsettl tx hrets) hnew
    have hserved := henroll.serves hserv
    rw [map_cons, delivered_registered hs (hsettl tx hrets)] at hserved
    rw [hserv.retained]
    simpa [Registration.delivered] using hserved

theorem Accounts.disconnect (hs : s.Accounts) : (s.after (.clientDisconnect client)
    (s.actor.cleanupClientTransactions client)).Accounts where
  orderly := hs.orderly.cleanupClientTransactions
  known tx client' request hid := by
    have hid' : (s.actor.cleanupClientTransactions client).requestId tx client' = some request := hid
    rw [requestId_cleanupClientTransactions hs.orderly] at hid'
    split_ifs at hid'
    exact hs.known tx client' request hid'
  unseen := hs.unseen
  registered := by
    intro g hg
    obtain ⟨hg, hclient⟩ := mem_filter.mp hg
    have hne : g.client ≠ client := of_decide_eq_true hclient
    have hbefore := hs.registered g hg
    have hid : (s.actor.cleanupClientTransactions client).requestId g.tx g.client =
        s.actor.requestId g.tx g.client := by
      rw [requestId_cleanupClientTransactions hs.orderly, if_neg hne]
    unfold Registration.Accounted at hbefore ⊢
    rw [← hid] at hbefore
    exact hbefore

def Sound (s : SessionRun H) : Prop := s.Accounts ∧ s.actor.Settled

theorem Distinct.evicts (hs : s.Distinct message) (h : s.actor.Evicts a) :
    { s with actor := a }.Distinct message := by
  cases message with
  | registerTransaction tx client request =>
    obtain ⟨hseen, hwait, hnew⟩ := hs
    refine ⟨hseen, ?_, fun pending hpend => hnew pending (h.lookup hpend)⟩
    obtain ⟨pending, rfl, -⟩ := h
    exact hwait
  | deliverHostResponseWithRequestId tx response request =>
    obtain ⟨pending, rfl, -⟩ := h
    exact hs
  | registerClient _ | deliverResult _ | deliverHostResponse _ _ | clientDisconnect _ => trivial

theorem Sound.handleMessage (hs : s.Sound) (hdistinct : s.Distinct message)
    (h : s.actor.handleMessage c message = some a) : (s.after message a).Sound := by
  obtain ⟨haccounts, hsettl⟩ := hs
  cases message with
  | registerClient _ | deliverResult _ =>
    cases h
    exact ⟨{ haccounts with }, hsettl⟩
  | registerTransaction tx client request =>
    cases h
    have horderly := (haccounts.enroll hdistinct.1 hdistinct.2.1).orderly
    exact ⟨haccounts.register hsettl hdistinct, hsettl.registerTransaction horderly hdistinct.2.2⟩
  | deliverHostResponse tx response =>
    have hserv := handleResultDelivery_serves haccounts.orderly (hsettl tx) h
    exact ⟨haccounts.serves hserv, hserv.settled fun tx' _ => hsettl tx'⟩
  | deliverHostResponseWithRequestId tx response request =>
    have hserv := handleResultDeliveryWithRequestId_serves haccounts.orderly (hsettl tx) hdistinct h
    exact ⟨haccounts.serves hserv, hserv.settled fun tx' _ => hsettl tx'⟩
  | clientDisconnect client =>
    cases h
    exact ⟨haccounts.disconnect, hsettl.cleanupClientTransactions⟩

end SessionRun

/-! Runs of the session actor, and when every registered request has its one response. -/

def sessions (H : Type) : Machine (SessionRun H) (SessionMessage H × Circumstances) where
  init s := s = .new
  step s e := (s.actor.processMessage e.2 e.1).map fun actor => s.after e.1 actor

namespace SessionRun
variable {H : Type}

theorem Sound.step {s s' : SessionRun H} {e : SessionMessage H × Circumstances} (hs : s.Sound)
    (hdistinct : s.Distinct e.1) (h : (sessions H).step s e = some s') : s'.Sound := by
  obtain ⟨actor, hproc, rfl⟩ := Option.map_eq_some_iff.mp h
  obtain ⟨pruned, hprune, hhandle⟩ := Option.bind_eq_some_iff.mp hproc
  have hevicts := prunePendingResults_evicts hprune
  have hprun : { s with actor := pruned }.Sound := ⟨hs.1.evicts hevicts, hevicts.settled hs.2⟩
  exact hprun.handleMessage (hdistinct.evicts hevicts) hhandle

/-- In every run of distinct requests, a registered request whose client stayed connected has
exactly one response if a result was at hand or came later, and none otherwise. -/
theorem registered_answered {s₀ s : SessionRun H} {es : List (SessionMessage H × Circumstances)}
    (hinit : (sessions H).init s₀) (hdistinct : (sessions H).Along (fun s e => s.Distinct e.1) s₀ es)
    (hrun : (sessions H).runFrom s₀ es = some s) {g : Registration} (hg : g ∈ s.registered) :
    s.actor.answers g.tx g.client g.request = if g.due then 1 else 0 := by
  subst hinit
  have hnew : (new : SessionRun H).Sound := ⟨Accounts.new, fun _ h => by cases h⟩
  have hs : s.Sound := (sessions H).invariant_of_along _ Sound (fun _ _ _ hs hd h => hs.step hd h) hnew
    hdistinct hrun
  exact (hs.1.registered g hg).answers hs.1.orderly

end SessionRun

def sharedGet : Transaction := .new .get 1

def inOrder : Circumstances := ⟨0, 0, sharedGet, sharedGet, none, fun _ => 0⟩

def twoClients : List (SessionMessage Unit × Circumstances) :=
  [(.registerTransaction sharedGet 1 1, inOrder), (.deliverHostResponse sharedGet (), inOrder),
    (.registerTransaction sharedGet 2 2, inOrder)]

theorem twoClients_answered : ∃ s, (sessions Unit).runFrom .new twoClients = some s ∧
    s.actor.answers sharedGet 1 1 = 1 ∧ s.actor.answers sharedGet 2 2 = 1 := by
  refine Machine.exists_run_imp
    (·.registered = [⟨sharedGet, 2, 2, true⟩, ⟨sharedGet, 1, 1, true⟩]) (by decide +kernel) ?_
  intro s hs hreg
  have hdistinct : (sessions Unit).Along (fun s e => s.Distinct e.1) .new twoClients := by
    decide +kernel
  have hfirst := SessionRun.registered_answered (g := ⟨sharedGet, 1, 1, true⟩)
    rfl hdistinct hs (by simp [hreg])
  have hsecond := SessionRun.registered_answered (g := ⟨sharedGet, 2, 2, true⟩) rfl hdistinct hs
    (by simp [hreg])
  exact ⟨hfirst, hsecond⟩

/-- A client registers two requests for a transaction before its result comes, or one before and one
after it. -/
def twoRequests : List (SessionMessage Unit × Circumstances) :=
  [(.registerTransaction sharedGet 1 1, inOrder), (.registerTransaction sharedGet 1 2, inOrder),
    (.deliverHostResponse sharedGet (), inOrder)]

def anotherRequest : List (SessionMessage Unit × Circumstances) :=
  [(.registerTransaction sharedGet 1 1, inOrder), (.deliverHostResponse sharedGet (), inOrder),
    (.registerTransaction sharedGet 1 2, inOrder)]

/-- One of the two requests gets no response: the first when the second overwrites its id, the
second when the result counts as delivered to the client. -/
theorem twoRequests_unanswered : (∃ s, (sessions Unit).runFrom .new twoRequests = some s ∧
      ⟨sharedGet, 1, 1, true⟩ ∈ s.registered ∧ s.actor.answers sharedGet 1 1 = 0) ∧
    ∃ s, (sessions Unit).runFrom .new anotherRequest = some s ∧
      ⟨sharedGet, 1, 2, true⟩ ∈ s.registered ∧ s.actor.answers sharedGet 1 2 = 0 := by
  decide +kernel

end Freenet.ClientEvents
