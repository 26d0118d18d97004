import Freenet.Node.RequestRouter
import Mathlib.Data.List.TakeWhile

/-! What the runtime makes of the messages a delegate emits, and the clients that they go to. -/
namespace Freenet.Delegate
open Contract

abbrev DelegateKey := Nat
abbrev DelegateContext := List UInt8

structure ApplicationMessage where
  payload : List UInt8
  context : DelegateContext
  processed : Bool
  deriving DecidableEq

structure DelegateMessage where
  target : DelegateKey
  sender : DelegateKey
  payload : List UInt8
  context : DelegateContext
  processed : Bool
  deriving DecidableEq

inductive ContractRequest where
  | get (contractId : ContractInstanceId)
  | put (contract : ContractContainer) (state : WrappedState)
  | update (contractId : ContractInstanceId) (update : UpdateData)
  | subscribe (contractId : ContractInstanceId)
  deriving DecidableEq

inductive OutboundDelegateMsg where
  | applicationMessage (msg : ApplicationMessage)
  | requestUserInput (requestId : Nat)
  | contextUpdated (context : DelegateContext)
  | contractRequest (request : ContractRequest) (context : DelegateContext) (processed : Bool)
  | sendDelegateMessage (msg : DelegateMessage)
  deriving DecidableEq

/-- The runtime's own record of user input, kept in the delegate's context. -/
structure UserContext where
  waitingForUserInput : List Nat
  userResponse : List (Nat × Bool)

structure ContextCodec where
  deserialize : DelegateContext → Option UserContext
  serialize : UserContext → DelegateContext

def ContextCodec.allowInput (codec : ContextCodec) (context : DelegateContext) (requestId : Nat) :
    DelegateContext :=
  let ctx := (codec.deserialize context).getD ⟨[], []⟩
  codec.serialize ⟨ctx.waitingForUserInput.filter (· ≠ requestId),
    (requestId, true) :: ctx.userResponse.filter (·.1 ≠ requestId)⟩

namespace OutboundDelegateMsg

/-- Name the sender of a message to another delegate that is still to be delivered. -/
def attest (key : DelegateKey) : OutboundDelegateMsg → OutboundDelegateMsg
  | sendDelegateMessage msg =>
    sendDelegateMessage (if msg.processed then msg else { msg with sender := key })
  | msg => msg

def endsLoop : OutboundDelegateMsg → Bool
  | applicationMessage _ => true
  | requestUserInput _ => false
  | contextUpdated _ => false
  | contractRequest _ _ processed => !processed
  | sendDelegateMessage msg => !msg.processed

def isDelegateMessage : OutboundDelegateMsg → Bool
  | sendDelegateMessage _ => true
  | _ => false

def SentBy (key : DelegateKey) (m : OutboundDelegateMsg) : Prop :=
  ∀ msg, m = sendDelegateMessage msg → msg.processed = false → msg.sender = key

def ContextCleared (m : OutboundDelegateMsg) : Prop :=
  ∀ msg, m = applicationMessage msg → msg.context = []

end OutboundDelegateMsg

open OutboundDelegateMsg

/-- Take the emitted messages until one ends the loop; `context` and `results` are carried along. -/
def processOutbound (codec : ContextCodec) (key : DelegateKey) :
    List OutboundDelegateMsg → DelegateContext → List OutboundDelegateMsg →
      DelegateContext × List OutboundDelegateMsg
  | [], context, results => (context, results)
  | msg :: rest, context, results =>
    match msg with
    | applicationMessage m =>
      (context, results ++ applicationMessage { m with context := [] } :: rest)
    | requestUserInput requestId =>
      processOutbound codec key rest (codec.allowInput context requestId) results
    | contextUpdated newContext => processOutbound codec key rest newContext results
    | contractRequest request ctx processed =>
      if processed then processOutbound codec key rest ctx results
      else (context, results ++ contractRequest request ctx processed :: rest)
    | sendDelegateMessage m =>
      if m.processed then processOutbound codec key rest m.context results
      else (context, results ++ sendDelegateMessage { m with sender := key } :: rest.map (attest key))

/-- Every undelivered message to a delegate names the executing delegate, and no message to an
application carries a context. -/
def Attested (key : DelegateKey) (results : List OutboundDelegateMsg) : Prop :=
  ∀ m ∈ results, m.SentBy key ∧ m.ContextCleared

def TailAttested (key : DelegateKey) (msgs : List OutboundDelegateMsg) : Prop :=
  match msgs.dropWhile fun m => !m.endsLoop with
  | [] => True
  | last :: rest =>
    (∀ m ∈ rest, m.ContextCleared) ∧ (last.isDelegateMessage = false → ∀ m ∈ rest, m.SentBy key)

variable {codec : ContextCodec} {key : DelegateKey}
  (m : OutboundDelegateMsg) (ms : List OutboundDelegateMsg) {rest : List OutboundDelegateMsg}

theorem attest_sentBy : (attest key m).SentBy key := by
  intro msg h hproc
  cases m with
  | sendDelegateMessage m =>
    cases h
    split_ifs at hproc ⊢ with hm
    · rw [hm] at hproc
      cases hproc
    · rfl
  | _ => cases h

theorem attest_contextCleared_iff : (attest key m).ContextCleared ↔ m.ContextCleared := by
  cases m <;> simp [attest, ContextCleared]

theorem attested_map_attest_iff : Attested key (ms.map (attest key)) ↔ ∀ m ∈ ms, m.ContextCleared := by
  simp [Attested, attest_sentBy, attest_contextCleared_iff]

theorem attested_iff : Attested key ms ↔ (∀ m ∈ ms, m.ContextCleared) ∧ ∀ m ∈ ms, m.SentBy key := by
  simp only [Attested, forall_and]
  exact and_comm

variable {msg : OutboundDelegateMsg}

theorem tailAttested_of_endsLoop (h : msg.endsLoop = true) : TailAttested key (msg :: rest) ↔
      (∀ m ∈ rest, m.ContextCleared) ∧ (msg.isDelegateMessage = false → ∀ m ∈ rest, m.SentBy key) := by
  simp [TailAttested, h]

theorem tailAttested_of_not_endsLoop (h : msg.endsLoop = false) :
    TailAttested key (msg :: rest) ↔ TailAttested key rest := by
  simp [TailAttested, h]

/-- A message that ends the loop and has been put right goes to the results with all behind it. -/
theorem attested_results_iff {results rest tail : List OutboundDelegateMsg}
    {msg last : OutboundDelegateMsg} (hends : msg.endsLoop = true)
    (hlast : last.SentBy key ∧ last.ContextCleared)
    (htail : Attested key tail ↔ (∀ m ∈ rest, m.ContextCleared) ∧
      (msg.isDelegateMessage = false → ∀ m ∈ rest, m.SentBy key)) :
    Attested key (results ++ last :: tail) ↔ Attested key results ∧ TailAttested key (msg :: rest) := by
  unfold Attested at htail ⊢
  rw [List.forall_mem_append, List.forall_mem_cons, tailAttested_of_endsLoop hends, htail]
  simp only [hlast, true_and]

/-- Processing the emitted messages adds only attested results exactly when what stands behind the
message that ends the loop is attested. -/
theorem processOutbound_attested_iff (codec : ContextCodec) (key : DelegateKey)
    (msgs : List OutboundDelegateMsg) (context : DelegateContext) (results : List OutboundDelegateMsg) :
    Attested key (processOutbound codec key msgs context results).2 ↔
      Attested key results ∧ TailAttested key msgs := by
  induction msgs generalizing context results with
  | nil => simp [processOutbound, TailAttested]
  | cons msg rest ih =>
    unfold processOutbound
    cases msg with
    | applicationMessage m =>
      refine attested_results_iff rfl ?_ ?_
      · simp [SentBy, ContextCleared]
      · rw [attested_iff]
        simp [isDelegateMessage]
    | requestUserInput requestId | contextUpdated newContext =>
      exact ih _ _
    | contractRequest request ctx processed =>
      dsimp only
      cases processed with
      | true =>
        exact ih _ _
      | false =>
        refine attested_results_iff rfl ?_ ?_
        · simp [SentBy, ContextCleared]
        · rw [attested_iff]
          simp [isDelegateMessage]
    | sendDelegateMessage m =>
      dsimp only
      split_ifs with hproc
      · rw [tailAttested_of_not_endsLoop (by simp [endsLoop, hproc])]
        exact ih _ _
      · refine attested_results_iff (by simp [endsLoop, hproc]) ?_ ?_
        · simp [SentBy, ContextCleared]
        · rw [attested_map_attest_iff]
          simp [isDelegateMessage]

/-- Behind a message to an application, delegate 0 hides a message in the name of delegate 7 and
another message to an application that still carries a context. -/
def hiddenMessages : List OutboundDelegateMsg :=
  [applicationMessage ⟨[], [], false⟩, sendDelegateMessage ⟨5, 7, [], [], false⟩,
    applicationMessage ⟨[], [1], false⟩]

/-- Both reach the results as they are. -/
theorem hiddenMessages_reach_results :
    ∃ results, (processOutbound ⟨fun _ => none, fun _ => []⟩ 0 hiddenMessages [] []).2 = results ∧
      sendDelegateMessage ⟨5, 7, [], [], false⟩ ∈ results ∧
      applicationMessage ⟨[], [1], false⟩ ∈ results ∧ ¬ Attested 0 results := by
  refine ⟨hiddenMessages, rfl, by decide, by decide, ?_⟩
  intro h
  have hforg := (h (sendDelegateMessage ⟨5, 7, [], [], false⟩) (by decide)).1
  exact absurd (hforg _ rfl rfl) (by decide)

open Lib Finset Function
open Node (ClientId)

def maxAppSubscribersPerDelegate : Nat := 128

def maxDelegateSubscriptionsPerClient : Nat := 50

/-- Which delegates list which clients, each at most once, and the counts of the clients. -/
structure AppSubscribers where
  subscribers : Finset (DelegateKey × ClientId)
  clientCounts : ClientId → Nat

/-- Routing finds out which channels take a message, and after that which are closed. -/
inductive SubscriberCall where
  | register (delegateKey : DelegateKey) (clientId : ClientId)
  | remove (delegateKey : DelegateKey) (clientId : ClientId)
  | route (delegateKey : DelegateKey) (hasAppMessages : Bool) (sent closed : ClientId → Bool)
  | removeClient (clientId : ClientId)

namespace AppSubscribers

def new : AppSubscribers := ⟨∅, fun _ => 0⟩

variable (s : AppSubscribers) (delegateKey : DelegateKey) (clientId : ClientId)

def clientsOf : Finset (DelegateKey × ClientId) := s.subscribers.filter (·.1 = delegateKey)

def delegatesOf : Finset (DelegateKey × ClientId) := s.subscribers.filter (·.2 = clientId)

def registerDelegateAppSubscriber : AppSubscribers × Bool :=
  if maxDelegateSubscriptionsPerClient ≤ s.clientCounts clientId then (s, false)
  else if maxAppSubscribersPerDelegate ≤ (s.clientsOf delegateKey).card then (s, false)
  else if (delegateKey, clientId) ∈ s.subscribers then (s, true)
  else (⟨insert (delegateKey, clientId) s.subscribers,
    update s.clientCounts clientId (s.clientCounts clientId + 1)⟩, true)

def removeDelegateAppSubscriber : AppSubscribers :=
  if (delegateKey, clientId) ∈ s.subscribers then
    ⟨s.subscribers.erase (delegateKey, clientId), update s.clientCounts clientId
      (s.clientCounts clientId - 1)⟩
  else s

def routeDelegateAppMessages (hasAppMessages : Bool) (sent closed : ClientId → Bool) :
    AppSubscribers × Nat :=
  let routed := ((s.clientsOf delegateKey).filter (sent ·.2)).card
  if hasAppMessages = false then (s, 0)
  else if routed < (s.clientsOf delegateKey).card then
    ({ s with subscribers := s.subscribers.filter fun p => p.1 = delegateKey → closed p.2 = false }, routed)
  else (s, routed)

def removeClientDelegateSubscriptions : AppSubscribers :=
  if 0 < (s.delegatesOf clientId).card then
    ⟨s.subscribers.filter (·.2 ≠ clientId), update s.clientCounts clientId 0⟩
  else s

def apply : SubscriberCall → AppSubscribers
  | .register delegateKey clientId => (s.registerDelegateAppSubscriber delegateKey clientId).1
  | .remove delegateKey clientId => s.removeDelegateAppSubscriber delegateKey clientId
  | .route delegateKey hasAppMessages sent closed =>
    (s.routeDelegateAppMessages delegateKey hasAppMessages sent closed).1
  | .removeClient clientId => s.removeClientDelegateSubscriptions clientId

/-- The count of each client is the number of delegates that list it. -/
def Counted : Prop := ∀ clientId, s.clientCounts clientId = (s.delegatesOf clientId).card

/-- Routing comes upon no closed channel. -/
def OpenAt : SubscriberCall → Prop
  | .route delegateKey _ _ closed => ∀ p ∈ s.clientsOf delegateKey, closed p.2 = false
  | _ => True

variable {s delegateKey clientId} {call : SubscriberCall}

theorem Counted.of_client {subscribers : Finset (DelegateKey × ClientId)} {n : Nat} (hs : s.Counted)
    (hclient : n = (subscribers.filter (·.2 = clientId)).card)
    (hothers : ∀ c ≠ clientId, subscribers.filter (·.2 = c) = s.delegatesOf c) :
    Counted ⟨subscribers, update s.clientCounts clientId n⟩ := by
  intro c
  dsimp only [delegatesOf]
  by_cases hc : c = clientId
  · rw [hc, update_self, hclient]
  · rw [hothers c hc, update_of_ne hc, hs c]

theorem counted_apply (hs : s.Counted) (hopen : s.OpenAt call) : (s.apply call).Counted := by
  cases call with
  | register delegateKey clientId =>
    dsimp only [apply, registerDelegateAppSubscriber]
    split_ifs with hclient hdeleg hmem
    iterate 3 exact hs
    refine hs.of_client ?_ fun c hc => ?_
    · rw [filter_insert, if_pos rfl, card_insert_of_notMem (by simp [hmem]), hs clientId, delegatesOf]
    · rw [filter_insert, if_neg (Ne.symm hc), delegatesOf]
  | remove delegateKey clientId =>
    dsimp only [apply, removeDelegateAppSubscriber]
    split_ifs with hmem
    · refine hs.of_client ?_ fun c hc => ?_
      · rw [filter_erase, card_erase_of_mem (by simp [hmem]), hs clientId, delegatesOf]
      · rw [filter_erase, erase_eq_of_notMem (by simp [Ne.symm hc]), delegatesOf]
    · exact hs
  | route delegateKey hasAppMessages sent closed =>
    have hkept : (s.subscribers.filter fun p => p.1 = delegateKey → closed p.2 = false) = s.subscribers :=
      filter_true_of_mem fun p hp hkey => hopen p (mem_filter.mpr ⟨hp, hkey⟩)
    dsimp only [apply, routeDelegateAppMessages]
    rw [hkept]
    split_ifs <;> exact hs
  | removeClient clientId =>
    dsimp only [apply, removeClientDelegateSubscriptions]
    split_ifs
    · refine hs.of_client (by simp [filter_filter]) fun c hc => ?_
      rw [filter_filter]
      exact filter_congr fun p _ => ⟨fun h => h.2, fun h => ⟨h ▸ hc, h⟩⟩
    · exact hs

def calling : Machine AppSubscribers SubscriberCall where
  init s := s = new
  step s call := some (s.apply call)

/-- Unless messages are routed to a closed channel, each client is counted with as many delegates as
it has subscribed to, and a subscription is refused only at one of the limits. -/
theorem counts_exact_of_open {t : AppSubscribers} {calls : List SubscriberCall} (hinit : calling.init s)
    (hopen : calling.Along OpenAt s calls) (hrun : calling.runFrom s calls = some t) :
    t.Counted ∧ ∀ delegateKey clientId, (t.registerDelegateAppSubscriber delegateKey clientId).2 = false →
      maxDelegateSubscriptionsPerClient ≤ (t.delegatesOf clientId).card ∨
        maxAppSubscribersPerDelegate ≤ (t.clientsOf delegateKey).card := by
  have hcount : t.Counted := by
    refine calling.invariant_of_along OpenAt Counted ?_ ?_ hopen hrun
    · rintro s call _ hs hopen ⟨⟩
      exact counted_apply hs hopen
    · rw [hinit]
      exact fun _ => rfl
  refine ⟨hcount, fun delegateKey clientId hrefus => ?_⟩
  rw [← hcount clientId]
  unfold registerDelegateAppSubscriber at hrefus
  split_ifs at hrefus with hclient hdeleg
  · exact .inl hclient
  · exact .inr hdeleg

/-- Two clients subscribe, the channels are full when messages come, and one client leaves. -/
def fullChannels : List SubscriberCall :=
  [.register 1 1, .register 2 1, .register 1 2, .route 1 true (fun _ => false) fun _ => false,
    .removeClient 2]

theorem full_channel_counted : (fullChannels.foldl apply new).Counted ∧
    ((fullChannels.foldl apply new).delegatesOf 1).card = 2 := by
  have hopen : calling.Along OpenAt new fullChannels :=
    ⟨trivial, fun _ _ => ⟨trivial, fun _ _ => ⟨trivial, fun _ _ => ⟨fun _ _ => rfl, fun _ _ =>
      ⟨trivial, fun _ _ => trivial⟩⟩⟩⟩⟩
  exact ⟨(counts_exact_of_open rfl hopen rfl).1, by decide +kernel⟩

theorem closed_channels_stay_counted :
    let t := ((List.range 50).flatMap fun d =>
      [.register d 1, .route d true (fun _ => false) fun _ => true]).foldl apply new
    (t.delegatesOf 1).card = 0 ∧ (t.registerDelegateAppSubscriber 50 1).2 = false := by
  decide +kernel

end AppSubscribers
end Freenet.Delegate
