import Freenet.Lib.Entries
import Freenet.Node.RequestRouter

/-! The session actor, which hands results to the clients that wait for them. Times are
nanoseconds. -/
namespace Freenet.ClientEvents
open Lib Node

def pendingResultTtl : Nat := 60 * 10 ^ 9

def maxPendingResults : Nat := 2048

variable {H : Type}

structure PendingResult (H : Type) where
  result : H
  deliveredClients : List ClientId
  lastAccessed : Nat

/-- A response to a client. The transaction it is sent for is not part of the message. -/
structure Response (H : Type) where
  tx : Transaction
  client : ClientId
  request : RequestId
  result : H

inductive SessionMessage (H : Type) where
  | registerClient (client : ClientId)
  | registerTransaction (tx : Transaction) (client : ClientId) (request : RequestId)
  | deliverResult (tx : Transaction)
  | deliverHostResponse (tx : Transaction) (response : H)
  | deliverHostResponseWithRequestId (tx : Transaction) (response : H) (request : RequestId)
  | clientDisconnect (client : ClientId)

/-- The maps of the actor and its end of the channel to the clients: whether there is a receiver,
and what was sent. -/
structure SessionActor (H : Type) where
  clientTransactions : Table Transaction (List ClientId)
  clientRequestIds : AList fun _ : Transaction × ClientId => RequestId
  pendingResults : AList fun _ : Transaction => PendingResult H
  responsesOpen : Bool
  responses : List (Response H)

/-- What handling a message depends on besides it: the clock when it prunes and afterwards, which of
several suitable entries a map yields first, and ids made up for lack of a request id. -/
structure Circumstances where
  prunedAt : Nat
  now : Nat
  evicted : Transaction
  evictedThen : Transaction
  target : Option ClientId
  newRequestId : ClientId → RequestId

namespace SessionActor

def new : SessionActor H := ⟨.empty, ∅, ∅, true, []⟩

variable (a : SessionActor H)

def isOldest (tx : Transaction) : Bool :=
  match a.pendingResults.lookup tx with
  | none => false
  | some pending => a.pendingResults.entries.all fun e => pending.lastAccessed ≤ e.2.lastAccessed

def enforcePendingCapacity (oldest : Transaction) : Option (SessionActor H) :=
  if a.pendingResults.entries.length < maxPendingResults then some a
  else if a.isOldest oldest then some { a with pendingResults := a.pendingResults.erase oldest }
  else none

/-- A transaction that is waited for, or has a request id left. -/
def isActive (tx : Transaction) : Bool :=
  (a.clientTransactions.get tx).isSome || a.clientRequestIds.keys.any fun key => key.1 = tx

def staleResults (now : Nat) : List Transaction :=
  (a.pendingResults.entries.filter fun e =>
    !a.isActive e.1 && decide (pendingResultTtl < now - e.2.lastAccessed)).map (·.1)

def prunePendingResults (now : Nat) (oldest : Transaction) : Option (SessionActor H) :=
  if a.pendingResults.entries.isEmpty then some a
  else
    let a := { a with
      pendingResults := (a.staleResults now).foldl (fun pending tx => pending.erase tx) a.pendingResults }
    if maxPendingResults ≤ a.pendingResults.entries.length then a.enforcePendingCapacity oldest
    else some a

/-- Before an entry for a new transaction is made, one may have to go. -/
def makeRoom (tx : Transaction) (oldest : Transaction) : Option (SessionActor H) :=
  if (a.pendingResults.lookup tx).isNone && decide (maxPendingResults ≤ a.pendingResults.entries.length) then
    a.enforcePendingCapacity oldest
  else some a

/-- Without a receiver the response is lost. -/
def send (response : Response H) : SessionActor H :=
  if a.responsesOpen then { a with responses := a.responses ++ [response] } else a

def deliverToClient (newRequestId : ClientId → RequestId) (tx : Transaction) (result : H)
    (client : ClientId) : SessionActor H :=
  let request := (a.clientRequestIds.lookup (tx, client)).getD (newRequestId client)
  { a with clientRequestIds := a.clientRequestIds.erase (tx, client) }.send ⟨tx, client, request, result⟩

def deliverResultToClients (newRequestId : ClientId → RequestId) (tx : Transaction)
    (waitingClients : List ClientId) (result : H) : SessionActor H :=
  waitingClients.foldl (fun a client => a.deliverToClient newRequestId tx result client) a

def cleanupTransactionEntry (tx : Transaction) (client : ClientId) : SessionActor H :=
  match a.clientTransactions.get tx with
  | none => a
  | some waitingClients =>
    let waitingClients := waitingClients.erase client
    { a with clientTransactions :=
        if waitingClients.isEmpty then a.clientTransactions.remove tx
        else a.clientTransactions.insert tx waitingClients }

variable (c : Circumstances)

def handleResultDelivery (tx : Transaction) (result : H) : Option (SessionActor H) :=
  (a.makeRoom tx c.evictedThen).map fun a =>
    let delivered := ((a.pendingResults.lookup tx).map (·.deliveredClients)).getD []
    let waitingClients := (a.clientTransactions.get tx).getD []
    let recipients := waitingClients.filter fun client => client ∉ delivered
    { a with
      pendingResults := a.pendingResults.insert tx ⟨result, delivered ++ recipients, c.now⟩
      clientTransactions := a.clientTransactions.remove tx
    }.deliverResultToClients c.newRequestId tx recipients result

def isTarget (tx : Transaction) (request : RequestId) : Option ClientId → Bool
  | some client => a.clientRequestIds.lookup (tx, client) = some request
  | none => a.clientRequestIds.entries.all fun e => ¬ (e.1.1 = tx ∧ e.2 = request)

def handleResultDeliveryWithRequestId (tx : Transaction) (result : H) (request : RequestId) :
    Option (SessionActor H) :=
  if a.isTarget tx request c.target then
    match c.target with
    | some client =>
      let a := a.cleanupTransactionEntry tx client
      let a := { a with clientRequestIds := a.clientRequestIds.erase (tx, client) }
      if a.responsesOpen then
        ((a.send ⟨tx, client, request, result⟩).makeRoom tx c.evictedThen).map fun a =>
          let delivered := ((a.pendingResults.lookup tx).map (·.deliveredClients)).getD []
          { a with pendingResults := a.pendingResults.insert tx ⟨result, delivered.insert client, c.now⟩ }
      else some a
    | none => a.handleResultDelivery c tx result
  else none

def isLast (client : ClientId) (tx : Transaction) : Bool :=
  (a.clientTransactions.get tx).any fun clients => (clients.erase client).isEmpty

def cleanupClientTransactions (client : ClientId) : SessionActor H :=
  { a with
    clientTransactions := fun tx =>
      ((a.clientTransactions.get tx).map fun clients => clients.erase client).filter fun clients =>
        !clients.isEmpty
    clientRequestIds := retainEntries (fun key _ => !a.isLast client key.1 && decide (key.2 ≠ client))
      a.clientRequestIds }

def enroll (tx : Transaction) (client : ClientId) (request : RequestId) : SessionActor H :=
  { a with
    clientTransactions :=
      a.clientTransactions.insert tx (((a.clientTransactions.get tx).getD []).insert client)
    clientRequestIds := a.clientRequestIds.insert (tx, client) request }

def registerTransaction (c : Circumstances) (tx : Transaction) (client : ClientId) (request : RequestId) :
    SessionActor H :=
  let a := a.enroll tx client request
  match a.pendingResults.lookup tx with
  | none => a
  | some pending =>
    if client ∈ pending.deliveredClients then
      { a with pendingResults := a.pendingResults.insert tx { pending with lastAccessed := c.now } }
    else
      let pending' := { pending with
        deliveredClients := pending.deliveredClients ++ [client]
        lastAccessed := c.now }
      ({ a with pendingResults := a.pendingResults.insert tx pending' }.deliverResultToClients
        c.newRequestId tx [client] pending.result).cleanupTransactionEntry tx client

def handleMessage (c : Circumstances) : SessionMessage H → Option (SessionActor H)
  | .registerClient _ | .deliverResult _ => some a
  | .registerTransaction tx client request => some (a.registerTransaction c tx client request)
  | .deliverHostResponse tx response => a.handleResultDelivery c tx response
  | .deliverHostResponseWithRequestId tx response request =>
    a.handleResultDeliveryWithRequestId c tx response request
  | .clientDisconnect client => some (a.cleanupClientTransactions client)

def processMessage (c : Circumstances) (message : SessionMessage H) : Option (SessionActor H) :=
  (a.prunePendingResults c.prunedAt c.evicted).bind fun a => a.handleMessage c message

/-! How requests stand with the session actor: who waits, for what, and with how many responses. -/

def waiting (tx : Transaction) : List ClientId := (a.clientTransactions.get tx).getD []

def requestId (tx : Transaction) (client : ClientId) : Option RequestId :=
  a.clientRequestIds.lookup (tx, client)

def retains (tx : Transaction) : Bool := (a.pendingResults.lookup tx).isSome

def answers (tx : Transaction) (client : ClientId) (request : RequestId) : Nat :=
  a.responses.countP fun p => p.tx = tx ∧ p.client = client ∧ p.request = request

def Evicts (a' : SessionActor H) : Prop :=
  ∃ pending, a' = { a with pendingResults := pending } ∧
    ∀ tx v, pending.lookup tx = some v → a.pendingResults.lookup tx = some v

/-- As many clients wait as have request ids, and their requests have no response yet. -/
structure Orderly : Prop where
  isOpen : a.responsesOpen = true
  nodup : ∀ tx, (a.waiting tx).Nodup
  requested : ∀ tx client, client ∈ a.waiting tx ↔ (a.requestId tx client).isSome
  unsent : ∀ tx client request, a.requestId tx client = some request → a.answers tx client request = 0

def Settled : Prop := ∀ tx, a.retains tx = true → a.waiting tx = []

/-- Everybody who waits for the transaction gets a response, and nobody else; the result is kept. -/
structure Serves (tx : Transaction) (a' : SessionActor H) : Prop where
  isOpen : a'.responsesOpen = true
  answers : ∀ tx' client request, a'.answers tx' client request =
    a.answers tx' client request + if tx' = tx ∧ a.requestId tx client = some request then 1 else 0
  requestId : ∀ tx' client, a'.requestId tx' client = if tx' = tx then none else a.requestId tx' client
  waiting : ∀ tx', a'.waiting tx' = if tx' = tx then [] else a.waiting tx'
  retains : ∀ tx', a'.retains tx' = true → tx' = tx ∨ a.retains tx' = true
  retained : a'.retains tx = true

variable {a} {a' a'' : SessionActor H} {tx : Transaction}

theorem Evicts.refl (a : SessionActor H) : a.Evicts a := ⟨a.pendingResults, rfl, fun _ _ h => h⟩

section
variable (h : a.Evicts a')
include h

theorem Evicts.trans (h' : a'.Evicts a'') : a.Evicts a'' := by
  obtain ⟨pending, rfl, hsub⟩ := h
  obtain ⟨pending', rfl, hsub'⟩ := h'
  exact ⟨pending', rfl, fun tx v hv => hsub tx v (hsub' tx v hv)⟩

theorem Evicts.lookup {v : PendingResult H} (hv : a'.pendingResults.lookup tx = some v) :
    a.pendingResults.lookup tx = some v := by
  obtain ⟨pending, rfl, hsub⟩ := h
  exact hsub tx v hv

theorem Evicts.retains (htx : a'.retains tx = true) : a.retains tx = true := by
  obtain ⟨v, hv⟩ := Option.isSome_iff_exists.mp htx
  exact Option.isSome_iff_exists.mpr ⟨v, h.lookup hv⟩

theorem Evicts.orderly (ha : a.Orderly) : a'.Orderly := by
  obtain ⟨pending, rfl, -⟩ := h
  exact { ha with }

theorem Evicts.settled (ha : a.Settled) : a'.Settled := by
  intro tx hrets
  have hwait := ha tx (h.retains hrets)
  obtain ⟨pending, rfl, -⟩ := h
  exact hwait

end

variable {oldest : Transaction}

theorem enforcePendingCapacity_evicts (h : a.enforcePendingCapacity oldest = some a') : a.Evicts a' := by
  unfold enforcePendingCapacity at h
  split_ifs at h
  · cases h
    exact Evicts.refl a
  · cases h
    refine ⟨_, rfl, ?_⟩
    intro tx v hv
    by_cases htx : tx = oldest
    · rw [htx, AList.lookup_erase] at hv
      cases hv
    · rwa [AList.lookup_erase_ne htx] at hv

theorem makeRoom_evicts (h : a.makeRoom tx oldest = some a') : a.Evicts a' := by
  unfold makeRoom at h
  split_ifs at h
  · exact enforcePendingCapacity_evicts h
  · cases h
    exact Evicts.refl a

theorem prunePendingResults_evicts {now : Nat} (h : a.prunePendingResults now oldest = some a') :
    a.Evicts a' := by
  have hstale : a.Evicts { a with
      pendingResults :=
        (a.staleResults now).foldl (fun pending tx => pending.erase tx) a.pendingResults } := by
    refine ⟨_, rfl, ?_⟩
    intro tx v hv
    rw [lookup_foldl_erase] at hv
    split_ifs at hv
    exact hv
  unfold prunePendingResults at h
  dsimp only at h
  split_ifs at h
  · cases h
    exact Evicts.refl a
  · exact hstale.trans (enforcePendingCapacity_evicts h)
  · cases h
    exact hstale

end SessionActor
end Freenet.ClientEvents

/-! How requests are registered, what delivering a result does to them, and disconnected clients. -/
namespace Freenet.ClientEvents.SessionActor
open Lib Node List Option
variable {H : Type} {a a' a'' : SessionActor H} {tx tx' : Transaction} {client client' : ClientId}
  {request : RequestId} {c : Circumstances}

/-- Some of the clients that wait for the transaction get a response. -/
structure DeliversTo (a : SessionActor H) (tx : Transaction) (clients : List ClientId)
    (a' : SessionActor H) : Prop where
  isOpen : a'.responsesOpen = true
  answers : ∀ tx' client request, a'.answers tx' client request = a.answers tx' client request +
    if tx' = tx ∧ client ∈ clients ∧ a.requestId tx client = some request then 1 else 0
  requestId : ∀ tx' client, a'.requestId tx' client =
    if tx' = tx ∧ client ∈ clients then none else a.requestId tx' client

theorem requestId_erase {ids : AList fun _ : Transaction × ClientId => RequestId} :
    (ids.erase (tx, client)).lookup (tx', client') =
      if tx' = tx ∧ client' = client then none else ids.lookup (tx', client') := by
  split_ifs with h
  · rw [h.1, h.2, AList.lookup_erase]
  · exact AList.lookup_erase_ne fun hkey => h (Prod.ext_iff.mp hkey)

theorem deliversTo_respond (result : H) (hopen : a.responsesOpen = true)
    (hid : a.requestId tx client = some request) :
    a.DeliversTo tx [client] { a with
      clientRequestIds := a.clientRequestIds.erase (tx, client)
      responses := a.responses ++ [⟨tx, client, request, result⟩] } where
  isOpen := hopen
  answers := by
    intro tx' client' request'
    have hiff : (tx = tx' ∧ client = client' ∧ request = request') ↔
        (tx' = tx ∧ client' ∈ [client] ∧ a.requestId tx client' = some request') := by
      rw [mem_singleton]
      constructor
      · rintro ⟨rfl, rfl, rfl⟩
        exact ⟨rfl, rfl, hid⟩
      · rintro ⟨rfl, rfl, hid'⟩
        rw [hid] at hid'
        exact ⟨rfl, rfl, some.inj hid'⟩
    simp only [answers, countP_append, countP_singleton, hiff, decide_eq_true_eq]
  requestId := by
    intro tx' client'
    simp only [mem_singleton]
    exact requestId_erase

variable {newRequestId : ClientId → RequestId} {clients : List ClientId} {result : H}

theorem deliverToClient_eq (hopen : a.responsesOpen = true)
    (hid : a.requestId tx client = some request) :
    a.deliverToClient newRequestId tx result client = { a with
      clientRequestIds := a.clientRequestIds.erase (tx, client)
      responses := a.responses ++ [⟨tx, client, request, result⟩] } := by
  have hlook : a.clientRequestIds.lookup (tx, client) = some request := hid
  unfold deliverToClient
  rw [hlook]
  exact if_pos hopen

theorem DeliversTo.cons (h : a.DeliversTo tx [client] a') (h' : a'.DeliversTo tx clients a'')
    (hclient : client ∉ clients) : a.DeliversTo tx (client :: clients) a'' where
  isOpen := h'.isOpen
  answers := by
    intro tx' client' request'
    rw [h'.answers, h.answers, h.requestId, Nat.add_assoc]
    congr 1
    by_cases hsame : client' = client
    · subst hsame
      simp [hclient]
    · simp [hsame]
  requestId := by
    intro tx' client'
    rw [h'.requestId, h.requestId]
    by_cases hsame : client' = client
    · subst hsame
      simp [hclient]
    · simp [hsame]

theorem deliversTo_deliverResultToClients (hopen : a.responsesOpen = true) (hnodup : clients.Nodup)
    (hids : ∀ client ∈ clients, (a.requestId tx client).isSome) :
    a.DeliversTo tx clients (a.deliverResultToClients newRequestId tx clients result) := by
  induction clients generalizing a with
  | nil => exact ⟨hopen, by simp [deliverResultToClients], by simp [deliverResultToClients]⟩
  | cons first clients ih =>
    obtain ⟨hfirst, hnodup⟩ := nodup_cons.mp hnodup
    obtain ⟨request, hid⟩ := isSome_iff_exists.mp (hids first mem_cons_self)
    have hone : a.DeliversTo tx [first] (a.deliverToClient newRequestId tx result first) := by
      rw [deliverToClient_eq hopen hid]
      exact deliversTo_respond result hopen hid
    refine hone.cons (ih hone.isOpen hnodup ?_) hfirst
    intro client hclient
    have hne : client ∉ [first] := fun h => hfirst (mem_singleton.mp h ▸ hclient)
    rw [hone.requestId, if_neg fun h => hne h.2]
    exact hids client (mem_cons_of_mem first hclient)

theorem DeliversTo.of_eq {b : SessionActor H} (h : b.DeliversTo tx clients a')
    (hresps : b.responses = a.responses) (hids : b.clientRequestIds = a.clientRequestIds) :
    a.DeliversTo tx clients a' := by
  have hansw : b.answers = a.answers := by
    unfold SessionActor.answers
    rw [hresps]
  have hreqId : b.requestId = a.requestId := by
    unfold SessionActor.requestId
    rw [hids]
  constructor
  · exact h.isOpen
  · simpa only [hansw, hreqId] using h.answers
  · simpa only [hreqId] using h.requestId

theorem deliverResultToClients_maps (clients : List ClientId) :
    (a.deliverResultToClients newRequestId tx clients result).clientTransactions = a.clientTransactions ∧
    (a.deliverResultToClients newRequestId tx clients result).pendingResults = a.pendingResults := by
  induction clients generalizing a with
  | nil => exact ⟨rfl, rfl⟩
  | cons first clients ih =>
    have hfirst : (a.deliverToClient newRequestId tx result first).clientTransactions =
        a.clientTransactions ∧
        (a.deliverToClient newRequestId tx result first).pendingResults = a.pendingResults := by
      unfold deliverToClient send
      split_ifs <;> exact ⟨rfl, rfl⟩
    obtain ⟨htxs, hpend⟩ := ih (a := a.deliverToClient newRequestId tx result first)
    exact ⟨htxs.trans hfirst.1, hpend.trans hfirst.2⟩

theorem DeliversTo.serves (ha : a.Orderly) (h : a.DeliversTo tx (a.waiting tx) a')
    (hwait : ∀ tx', a'.waiting tx' = if tx' = tx then [] else a.waiting tx')
    (hrets : ∀ tx', a'.retains tx' = true → tx' = tx ∨ a.retains tx' = true)
    (hretd : a'.retains tx = true) : a.Serves tx a' where
  isOpen := h.isOpen
  answers := by
    intro tx' client request
    rw [h.answers]
    congr 1
    refine if_congr (and_congr_right fun _ => and_iff_right_of_imp fun hid => ?_) rfl rfl
    rw [ha.requested, hid]
    rfl
  requestId := by
    intro tx' client
    rw [h.requestId]
    by_cases htx : tx' = tx
    · subst htx
      by_cases hclient : client ∈ a.waiting tx'
      · simp [hclient]
      · have hnone : a.requestId tx' client = none := by
          rw [ha.requested, not_isSome_iff_eq_none] at hclient
          exact hclient
        simp [hnone]
    · simp [htx]
  waiting := hwait
  retains := hrets
  retained := hretd

theorem waiting_cleanupTransactionEntry : (a.cleanupTransactionEntry tx client).waiting tx' =
      if tx' = tx then (a.waiting tx).erase client else a.waiting tx' := by
  unfold cleanupTransactionEntry waiting
  cases hget : a.clientTransactions.get tx with
  | none =>
    split_ifs with htx
    · rw [htx, hget]
      rfl
    · rfl
  | some clients =>
    dsimp only
    split_ifs with hempty htx htx
    · rw [htx, Table.get_remove_self]
      exact (isEmpty_iff.mp hempty).symm
    · rw [Table.get_remove_of_ne htx]
    · rw [htx, Table.get_insert_self]
      rfl
    · rw [Table.get_insert_of_ne htx]

theorem cleanupTransactionEntry_eq (a : SessionActor H) (tx : Transaction) (client : ClientId) :
    ∃ transactions,
    a.cleanupTransactionEntry tx client = { a with clientTransactions := transactions } := by
  unfold cleanupTransactionEntry
  split
  · exact ⟨_, rfl⟩
  · exact ⟨_, rfl⟩

theorem retains_cleanupTransactionEntry :
    (a.cleanupTransactionEntry tx client).retains tx' = a.retains tx' := by
  obtain ⟨transactions, heq⟩ := a.cleanupTransactionEntry_eq tx client
  rw [heq]
  rfl

theorem DeliversTo.cleanup {clients : List ClientId} (h : a.DeliversTo tx clients a') :
    a.DeliversTo tx clients (a'.cleanupTransactionEntry tx' client) := by
  obtain ⟨transactions, heq⟩ := a'.cleanupTransactionEntry_eq tx' client
  rw [heq]
  exact { h with }

theorem retains_insert {pending : AList fun _ : Transaction => PendingResult H} {v : PendingResult H}
    (hsub : ∀ tx v, pending.lookup tx = some v → a.pendingResults.lookup tx = some v)
    (h : ((pending.insert tx v).lookup tx').isSome = true) : tx' = tx ∨ a.retains tx' = true := by
  by_cases htx : tx' = tx
  · exact .inl htx
  · rw [AList.lookup_insert_ne htx] at h
    obtain ⟨v, hv⟩ := isSome_iff_exists.mp h
    exact .inr (isSome_iff_exists.mpr ⟨v, hsub tx' v hv⟩)

theorem handleResultDelivery_serves {result : H} (ha : a.Orderly)
    (hsettl : a.retains tx = true → a.waiting tx = [])
    (h : a.handleResultDelivery c tx result = some a') : a.Serves tx a' := by
  obtain ⟨a₁, hroom, rfl⟩ := map_eq_some_iff.mp h
  obtain ⟨pending, rfl, hsub⟩ := makeRoom_evicts hroom
  dsimp only
  -- nobody who waits has had the result that is retained
  have hrecip : (a.waiting tx).filter (fun client =>
      client ∉ ((pending.lookup tx).map (·.deliveredClients)).getD []) = a.waiting tx := by
    cases hlook : pending.lookup tx with
    | none => simp
    | some v =>
      have hrets : a.retains tx = true := isSome_iff_exists.mpr ⟨v, hsub tx v hlook⟩
      rw [hsettl hrets]
      rfl
  unfold waiting at hrecip
  rw [hrecip]
  refine DeliversTo.serves ha ?_ ?_ ?_ ?_
  · have hids : ∀ client ∈ a.waiting tx, (a.requestId tx client).isSome :=
      fun client hclient => (ha.requested tx client).mp hclient
    refine DeliversTo.of_eq (deliversTo_deliverResultToClients ?_ (ha.nodup tx) hids) rfl rfl
    exact ha.isOpen
  · intro tx'
    unfold waiting
    rw [(deliverResultToClients_maps _).1, Table.get_remove]
    split_ifs <;> rfl
  · intro tx' hrets
    unfold retains at hrets
    rw [(deliverResultToClients_maps _).2] at hrets
    exact retains_insert hsub hrets
  · unfold retains
    rw [(deliverResultToClients_maps _).2, AList.lookup_insert]
    rfl

theorem handleResultDeliveryWithRequestId_serves {result : H} (ha : a.Orderly)
    (hsettl : a.retains tx = true → a.waiting tx = [])
    (halone : ∀ client ∈ a.waiting tx, ∀ client' ∈ a.waiting tx,
      a.requestId tx client = some request → client' = client)
    (h : a.handleResultDeliveryWithRequestId c tx result request = some a') : a.Serves tx a' := by
  unfold handleResultDeliveryWithRequestId at h
  split_ifs at h with htarg
  split at h
  case h_2 => exact handleResultDelivery_serves ha hsettl h
  case h_1 client hclient =>
    rw [hclient] at htarg
    have hid : a.requestId tx client = some request := of_decide_eq_true htarg
    have hmem : client ∈ a.waiting tx := by
      rw [ha.requested, hid]
      rfl
    have hwait : a.waiting tx = [client] := by
      have hall : ∀ client' ∈ a.waiting tx, client' = client :=
        fun client' hclient' => halone client hmem client' hclient' hid
      exact (perm_singleton.mp ((perm_ext_iff_of_nodup (ha.nodup tx) (nodup_singleton client)).mpr
        fun client' => ⟨fun h => mem_singleton.mpr (hall client' h), fun h => mem_singleton.mp h ▸ hmem⟩))
    obtain ⟨transactions, hclean⟩ := a.cleanupTransactionEntry_eq tx client
    have hleft (tx' : Transaction) :
        ({ a with clientTransactions := transactions } : SessionActor H).waiting tx' =
        if tx' = tx then [] else a.waiting tx' := by
      rw [← hclean, waiting_cleanupTransactionEntry, hwait, erase_cons_head]
    rw [hclean] at h
    dsimp only [send] at h
    rw [if_pos ha.isOpen, if_pos ha.isOpen] at h
    obtain ⟨a₁, hroom, rfl⟩ := map_eq_some_iff.mp h
    obtain ⟨pending, rfl, hsub⟩ := makeRoom_evicts hroom
    refine DeliversTo.serves ha ?_ hleft (fun tx' => retains_insert hsub) ?_
    · rw [hwait]
      have hresp := deliversTo_respond result ha.isOpen hid
      exact { hresp with }
    · unfold retains
      rw [AList.lookup_insert]
      rfl

theorem Orderly.new : (new : SessionActor H).Orderly where
  isOpen := rfl
  nodup _ := nodup_nil
  requested _ _ := by simp [waiting, requestId, SessionActor.new]
  unsent _ _ _ h := by cases h

theorem Serves.orderly (h : a.Serves tx a') (ha : a.Orderly) : a'.Orderly where
  isOpen := h.isOpen
  nodup tx' := by
    rw [h.waiting]
    split_ifs
    · exact nodup_nil
    · exact ha.nodup tx'
  requested tx' client := by
    rw [h.waiting, h.requestId]
    split_ifs
    · simp
    · exact ha.requested tx' client
  unsent tx' client request hid := by
    rw [h.requestId] at hid
    split_ifs at hid with htx
    rw [h.answers, if_neg fun hand => htx hand.1]
    exact ha.unsent tx' client request hid

theorem Serves.settled (h : a.Serves tx a')
    (hothers : ∀ tx', tx' ≠ tx → a.retains tx' = true → a.waiting tx' = []) : a'.Settled := by
  intro tx' hrets
  rw [h.waiting]
  split_ifs with htx
  · rfl
  · exact hothers tx' htx ((h.retains tx' hrets).resolve_left htx)

theorem waiting_enroll : (a.enroll tx client request).waiting tx' =
    if tx' = tx then (a.waiting tx).insert client else a.waiting tx' := by
  unfold waiting enroll
  rw [Table.get_insert]
  split_ifs <;> rfl

theorem requestId_enroll : (a.enroll tx client request).requestId tx' client' =
    if tx' = tx ∧ client' = client then some request else a.requestId tx' client' := by
  unfold requestId enroll
  split_ifs with h
  · rw [h.1, h.2, AList.lookup_insert]
  · exact AList.lookup_insert_ne fun hkey => h (Prod.ext_iff.mp hkey)

theorem Orderly.enroll (ha : a.Orderly) (hunsent : a.answers tx client request = 0) :
    (a.enroll tx client request).Orderly where
  isOpen := ha.isOpen
  nodup tx' := by
    rw [waiting_enroll]
    split_ifs
    · exact (ha.nodup tx).insert
    · exact ha.nodup tx'
  requested tx' client' := by
    rw [waiting_enroll, requestId_enroll]
    by_cases htx : tx' = tx
    · subst htx
      by_cases hclient : client' = client
      · simp [hclient]
      · simp [hclient, ha.requested tx' client']
    · simp [htx, ha.requested tx' client']
  unsent tx' client' request' hid := by
    rw [requestId_enroll] at hid
    split_ifs at hid with hkey
    · obtain ⟨rfl, rfl⟩ := hkey
      cases hid
      exact hunsent
    · exact ha.unsent tx' client' request' hid

theorem registerTransaction_of_none (h : a.retains tx = false) :
    a.registerTransaction c tx client request = a.enroll tx client request := by
  have hnone : (a.enroll tx client request).pendingResults.lookup tx = none :=
    isNone_iff_eq_none.mp (isSome_eq_false_iff.mp h)
  unfold registerTransaction
  dsimp only
  rw [hnone]

/-- A client that registers when a result is at hand, and nobody else waits for it, is served at
once. -/
theorem registerTransaction_serves (ha : (a.enroll tx client request).Orderly) (hrets : a.retains tx = true)
    (hwait : a.waiting tx = [])
    (hnew : ∀ pending, a.pendingResults.lookup tx = some pending → client ∉ pending.deliveredClients) :
    (a.enroll tx client request).Serves tx (a.registerTransaction c tx client request) := by
  obtain ⟨pending, hpend⟩ := isSome_iff_exists.mp hrets
  have hlook : (a.enroll tx client request).pendingResults.lookup tx = some pending := hpend
  have hclient : (a.enroll tx client request).waiting tx = [client] := by
    rw [waiting_enroll, if_pos rfl, hwait]
    rfl
  unfold registerTransaction
  dsimp only
  rw [hlook]
  dsimp only
  rw [if_neg (hnew pending hpend)]
  refine DeliversTo.serves ha ?_ ?_ ?_ ?_
  · rw [hclient]
    refine DeliversTo.cleanup (DeliversTo.of_eq (deliversTo_deliverResultToClients ?_ ?_ ?_) rfl rfl)
    · exact ha.isOpen
    · exact nodup_singleton client
    · intro client' hclient'
      rw [← hclient] at hclient'
      exact (ha.requested tx client').mp hclient'
  · intro tx'
    rw [waiting_cleanupTransactionEntry]
    unfold waiting at hclient ⊢
    rw [(deliverResultToClients_maps _).1, hclient, erase_cons_head]
  · intro tx' h
    rw [retains_cleanupTransactionEntry] at h
    unfold retains at h
    rw [(deliverResultToClients_maps _).2] at h
    exact retains_insert (fun _ _ h => h) h
  · rw [retains_cleanupTransactionEntry]
    unfold retains
    rw [(deliverResultToClients_maps _).2, AList.lookup_insert]
    rfl

theorem Settled.registerTransaction (hsettl : a.Settled) (ha : (a.enroll tx client request).Orderly)
    (hnew : ∀ pending, a.pendingResults.lookup tx = some pending → client ∉ pending.deliveredClients) :
    (a.registerTransaction c tx client request).Settled := by
  have hothers : ∀ tx', tx' ≠ tx → (a.enroll tx client request).retains tx' = true →
      (a.enroll tx client request).waiting tx' = [] := by
    intro tx' htx hrets
    rw [waiting_enroll, if_neg htx]
    exact hsettl tx' hrets
  cases hrets : a.retains tx with
  | true => exact (registerTransaction_serves ha hrets (hsettl tx hrets) hnew).settled hothers
  | false =>
    rw [registerTransaction_of_none hrets]
    intro tx' hrets'
    refine hothers tx' ?_ hrets'
    rintro rfl
    have hnone : (a.enroll tx' client request).retains tx' = false := hrets
    rw [hnone] at hrets'
    cases hrets'

theorem waiting_cleanupClientTransactions :
    (a.cleanupClientTransactions client).waiting tx = (a.waiting tx).erase client := by
  unfold waiting cleanupClientTransactions Table.get
  dsimp only
  cases a.clientTransactions tx with
  | none => rfl
  | some clients =>
    cases hclients : clients.erase client <;> simp [hclients, Option.filter]

theorem erase_waiting_of_isLast (h : a.isLast client tx = true) : (a.waiting tx).erase client = [] := by
  obtain ⟨clients, hclients, hempty⟩ := (any_eq_true _ _).mp h
  unfold waiting
  rw [hclients]
  exact isEmpty_iff.mp hempty

theorem requestId_cleanupClientTransactions (ha : a.Orderly) :
    (a.cleanupClientTransactions client).requestId tx client' =
      if client' = client then none else a.requestId tx client' := by
  unfold requestId cleanupClientTransactions
  rw [lookup_retainEntries]
  by_cases hclient : client' = client
  · simp [hclient]
  · rw [if_neg hclient]
    cases hid : a.clientRequestIds.lookup (tx, client') with
    | none => rfl
    | some request =>
      -- a client with a request id waits, so that it is not gone with the last one
      have hmem : client' ∈ (a.waiting tx).erase client := by
        rw [(ha.nodup tx).mem_erase_iff, ha.requested, requestId, hid]
        exact ⟨hclient, rfl⟩
      have hlast : a.isLast client tx = false := by
        rw [Bool.eq_false_iff]
        intro hlast
        rw [erase_waiting_of_isLast hlast] at hmem
        cases hmem
      simp [hclient, hlast]

theorem Orderly.cleanupClientTransactions (ha : a.Orderly) :
    (a.cleanupClientTransactions client).Orderly where
  isOpen := ha.isOpen
  nodup tx := by
    rw [waiting_cleanupClientTransactions]
    exact (ha.nodup tx).erase client
  requested tx client' := by
    rw [waiting_cleanupClientTransactions, requestId_cleanupClientTransactions ha,
      (ha.nodup tx).mem_erase_iff]
    by_cases hclient : client' = client
    · simp [hclient]
    · simp [hclient, ha.requested tx client']
  unsent tx client' request hid := by
    rw [requestId_cleanupClientTransactions ha] at hid
    split_ifs at hid
    exact ha.unsent tx client' request hid

theorem Settled.cleanupClientTransactions (ha : a.Settled) :
    (a.cleanupClientTransactions client).Settled := by
  intro tx hrets
  have hwait : a.waiting tx = [] := ha tx hrets
  rw [waiting_cleanupClientTransactions, hwait]
  rfl

end Freenet.ClientEvents.SessionActor
