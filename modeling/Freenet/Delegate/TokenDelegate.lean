import Freenet.Lib.Machine
import Freenet.Lib.Table

/-! The token delegate, whose context still has the user's answer after the token is generated. -/
namespace Freenet.Delegate
open Lib List

inductive Response where
  | allowed
  | notAllowed
  deriving DecidableEq

structure TokenContext where
  waitingForUserInput : Table Nat Unit
  userResponse : Table Nat Response

/-- A request for a token; the delegate and the criteria are there as they are displayed. -/
structure RequestNewToken (R : Type) where
  requestId : Nat
  delegateId : String
  criteria : String
  records : R
  assignmentHash : List UInt8

inductive FailureReason where
  | userPermissionDenied
  | noFreeSlot (delegateId criteria : String)

inductive TokenDelegateMessage (R A : Type) where
  | requestNewToken (request : RequestNewToken R)
  | allocatedToken (delegateId : String) (assignment : A) (records : R)
  | failure (reason : FailureReason)

inductive OutboundTokenMsg (R A : Type) where
  | applicationMessage (msg : TokenDelegateMessage R A) (processed : Bool) (context : TokenContext)
  | requestUserInput (requestId : Nat)
  | contextUpdated (context : TokenContext)

/-- An inbound message without its context. What cannot be parsed is `none`; `slot` is what the
assignment of a slot answers when the message is processed, with the records it is added to. -/
inductive InboundTokenMsg (R A : Type) where
  | applicationMessage (payload : Option (TokenDelegateMessage R A)) (processed : Bool)
    (slot : Option (A × R))
  | userResponse (requestId : Nat) (response : Option Response)
  | other

inductive DelegateError where
  | deser
  | other (text : String)
  deriving DecidableEq

def FailureReason.display : FailureReason → String
  | userPermissionDenied => "user disallowed token allocation for this application"
  | noFreeSlot delegateId criteria =>
    "no free slot found for delegate `" ++ delegateId ++ "` with criteria " ++ criteria

namespace TokenDelegate
variable {R A : Type}

def allocateToken (context : TokenContext) (request : RequestNewToken R) (slot : Option (A × R)) :
    List (OutboundTokenMsg R A) :=
  match context.waitingForUserInput.get request.requestId, context.userResponse.get request.requestId with
  | none, none =>
    let context := { context with
      waitingForUserInput := context.waitingForUserInput.insert request.requestId () }
    [.requestUserInput request.requestId, .applicationMessage (.requestNewToken request) false context]
  | some _, _ => [.applicationMessage (.requestNewToken request) false context]
  -- the answer is removed only after the context was put into the reply
  | none, some .allowed =>
    match slot with
    | none => [.applicationMessage (.failure (.noFreeSlot request.delegateId request.criteria))
      false context]
    | some (assignment, records) =>
      [.applicationMessage (.allocatedToken request.delegateId assignment records) true context]
  | none, some .notAllowed =>
    [.applicationMessage (.failure .userPermissionDenied) false context]

def process (paramsValid : Bool) (context : TokenContext) :
    InboundTokenMsg R A → Except DelegateError (List (OutboundTokenMsg R A))
  | .applicationMessage payload processed slot =>
    if processed then .error (.other "cannot process an already processed message")
    else
      match payload with
      | none => .error .deser
      | some msg =>
        if !paramsValid then .error .deser
        else
          match msg with
          | .requestNewToken request => .ok (allocateToken context request slot)
          | .failure reason =>
            .error (.other ("unexpected message type: failure; reason: " ++ reason.display))
          | .allocatedToken .. => .error (.other "unexpected message type: allocated token")
  | .userResponse requestId response =>
    match response with
    | none => .error .deser
    | some response => .ok [.contextUpdated {
        waitingForUserInput := context.waitingForUserInput.remove requestId
        userResponse := context.userResponse.insert requestId response }]
  | .other => .error (.other "unexpected message type")

end TokenDelegate

open TokenDelegate

def OutboundTokenMsg.context {R A : Type} : OutboundTokenMsg R A → Option TokenContext
  | .applicationMessage _ _ context | .contextUpdated context => some context
  | .requestUserInput _ => none

def OutboundTokenMsg.isAllocated {R A : Type} : OutboundTokenMsg R A → Bool
  | .applicationMessage (.allocatedToken ..) _ _ => true
  | _ => false

/-- The context a delegate returned last with its messages. -/
def returnedContext {R A : Type} (out : List (OutboundTokenMsg R A)) : Option TokenContext :=
  (out.filterMap OutboundTokenMsg.context).getLast?

/-- Answers stay in the context; a token is allocated only on an answer that allows it. -/
theorem allocateToken_spec {R A : Type} (context : TokenContext) (request : RequestNewToken R)
    (slot : Option (A × R)) :
    (∃ context', returnedContext (allocateToken context request slot) =
      some context' ∧ context'.userResponse = context.userResponse) ∧
    ((allocateToken context request slot).any OutboundTokenMsg.isAllocated = true →
      context.waitingForUserInput.get request.requestId = none ∧
        context.userResponse.get request.requestId = some .allowed) := by
  unfold allocateToken
  split
  · exact ⟨⟨_, rfl, rfl⟩, by simp [OutboundTokenMsg.isAllocated]⟩
  · exact ⟨⟨_, rfl, rfl⟩, by simp [OutboundTokenMsg.isAllocated]⟩
  · rename_i hwait hresp
    cases slot with
    | none => exact ⟨⟨_, rfl, rfl⟩, by simp [OutboundTokenMsg.isAllocated]⟩
    | some assignment => exact ⟨⟨_, rfl, rfl⟩, fun _ => ⟨hwait, hresp⟩⟩
  · exact ⟨⟨_, rfl, rfl⟩, by simp [OutboundTokenMsg.isAllocated]⟩

/-- The context last returned, the request ids of the answers that allowed them and of the tokens,
and the ids for which a token was allocated since the user's last answer. -/
structure TokenRun where
  context : TokenContext
  allowed : List Nat
  allocated : List Nat
  spent : List Nat

namespace TokenRun
variable {R A : Type} (paramsValid : Bool) (s : TokenRun) (msg : InboundTokenMsg R A)

def record (out : List (OutboundTokenMsg R A)) : TokenRun :=
  let s := { s with context := (returnedContext out).getD s.context }
  match msg with
  | .applicationMessage (some (.requestNewToken request)) _ _ =>
    if out.any OutboundTokenMsg.isAllocated then { s with
      allocated := request.requestId :: s.allocated
      spent := request.requestId :: s.spent }
    else s
  | .userResponse id response => { s with
      allowed := if response = some .allowed then id :: s.allowed else s.allowed
      spent := s.spent.filter (· ≠ id) }
  | _ => s

def step : TokenRun :=
  match TokenDelegate.process paramsValid s.context msg with
  | .error _ => s
  | .ok out => s.record msg out

/-- No request finds an answer that allows it when a token was allocated since that answer. -/
def Unspent : InboundTokenMsg R A → Prop
  | .applicationMessage (some (.requestNewToken request)) _ _ =>
    s.context.waitingForUserInput.get request.requestId = none →
    s.context.userResponse.get request.requestId = some .allowed → request.requestId ∉ s.spent
  | _ => True

instance : ∀ msg : InboundTokenMsg R A, Decidable (s.Unspent msg)
  | .applicationMessage (some (.requestNewToken _)) _ _ => inferInstanceAs (Decidable (_ → _ → _))
  | .applicationMessage none _ _ | .applicationMessage (some (.allocatedToken ..)) _ _
  | .applicationMessage (some (.failure _)) _ _ | .userResponse .. | .other => isTrue trivial

/-- An answer that is not spent allows one more token. -/
structure Sound : Prop where
  le : ∀ id, s.allocated.count id ≤ s.allowed.count id
  lt : ∀ id, s.context.userResponse.get id = some .allowed → id ∉ s.spent →
    s.allocated.count id < s.allowed.count id

variable {s}

theorem Sound.answer (hs : s.Sound) (id : Nat) (response : Response) :
    (s.step paramsValid (.userResponse id (some response) : InboundTokenMsg R A)).Sound := by
  have hmore : ∀ id', s.allowed.count id' ≤
      (if some response = some .allowed then id :: s.allowed else s.allowed).count id' := by
    intro id'
    split_ifs
    · exact count_le_count_cons
    · exact Nat.le_refl _
  refine ⟨fun id' => Nat.le_trans (hs.le id') (hmore id'), ?_⟩
  intro id' hresp hspent
  change (s.context.userResponse.insert id response).get id' = some .allowed at hresp
  change id' ∉ s.spent.filter (· ≠ id) at hspent
  rw [Table.get_insert] at hresp
  split_ifs at hresp with hid
  · cases hresp
    subst hid
    have hle := hs.le id'
    show s.allocated.count id' < (id' :: s.allowed).count id'
    rw [count_cons_self]
    omega
  · refine Nat.lt_of_lt_of_le (hs.lt id' hresp ?_) (hmore id')
    intro hmem
    exact hspent (mem_filter.mpr ⟨hmem, by simpa using hid⟩)

theorem Sound.request (hs : s.Sound) (request : RequestNewToken R) (processed : Bool)
    (slot : Option (A × R))
    (hunspent : s.Unspent (.applicationMessage (some (.requestNewToken request)) processed slot)) :
    (s.record (.applicationMessage (some (.requestNewToken request)) processed slot)
      (allocateToken s.context request slot)).Sound := by
  obtain ⟨⟨context', hcont, hresps⟩, halloc⟩ :=
    allocateToken_spec s.context request slot
  simp only [record, hcont, Option.getD_some]
  split_ifs with hany
  · obtain ⟨hwait, hallow⟩ := halloc hany
    have hlt := hs.lt _ hallow (hunspent hwait hallow)
    constructor
    · intro id
      have hle := hs.le id
      simp only [count_cons, beq_iff_eq]
      split_ifs with hid
      · subst hid
        exact hlt
      · exact hle
    · intro id hresp hspent
      obtain ⟨hne, hold⟩ := not_or.mp (mem_cons.not.mp hspent)
      rw [hresps] at hresp
      rw [count_cons_of_ne (Ne.symm hne)]
      exact hs.lt id hresp hold
  · refine ⟨hs.le, ?_⟩
    rw [hresps]
    exact hs.lt

theorem Sound.step (hs : s.Sound) (hunspent : s.Unspent msg) : (s.step paramsValid msg).Sound := by
  cases msg with
  | applicationMessage payload processed slot =>
    cases processed with
    | true => exact hs
    | false =>
      cases paramsValid <;> rcases payload with _ | request | _ | _
      · exact hs
      · exact hs
      · exact hs
      · exact hs
      · exact hs
      · exact hs.request request false slot hunspent
      · exact hs
      · exact hs
  | userResponse id response =>
    cases response with
    | none => exact hs
    | some response => exact hs.answer paramsValid id response
  | other => exact hs

end TokenRun

def tokenMachine (R A : Type) (paramsValid : Bool) : Machine TokenRun (InboundTokenMsg R A) where
  init s := s = ⟨⟨.empty, .empty⟩, [], [], []⟩
  step s msg := some (s.step paramsValid msg)

/-- As long as no request comes with an answer that was spent on a token, there are no more tokens
for a request id than answers that allow it. -/
theorem tokens_le_allowed (R A : Type) (paramsValid : Bool) {s t : TokenRun}
    {msgs : List (InboundTokenMsg R A)} (hinit : (tokenMachine R A paramsValid).init s)
    (hunspent : (tokenMachine R A paramsValid).Along TokenRun.Unspent s msgs)
    (hrun : (tokenMachine R A paramsValid).runFrom s msgs = some t) (id : Nat) :
    t.allocated.count id ≤ t.allowed.count id := by
  have hsound : s.Sound := by
    cases hinit
    exact ⟨fun _ => Nat.le_refl _, fun _ h => by simp at h⟩
  refine ((tokenMachine R A paramsValid).invariant_of_along _ TokenRun.Sound ?_ hsound hunspent hrun).le id
  intro s msg s' hs hcond hstep
  cases hstep
  exact hs.step paramsValid msg hcond

def askForToken : InboundTokenMsg Unit Nat :=
  .applicationMessage (some (.requestNewToken ⟨3, "delegate", "criteria", (), []⟩)) false (some (7, ()))

def newTokenRun : TokenRun := ⟨⟨.empty, .empty⟩, [], [], []⟩

def allowOnce : List (InboundTokenMsg Unit Nat) :=
  [askForToken, .userResponse 3 (some .allowed), askForToken]

theorem allowOnce_one_token : ∃ t, (tokenMachine Unit Nat true).runFrom newTokenRun allowOnce = some t ∧
      t.allocated.count 3 ≤ t.allowed.count 3 := by
  have hunspent : (tokenMachine Unit Nat true).Along TokenRun.Unspent newTokenRun allowOnce := by
    decide +kernel
  exact ⟨_, rfl, tokens_le_allowed Unit Nat true (s := newTokenRun) rfl hunspent rfl 3⟩

/-- The user allows one token, and two are allocated. -/
theorem allowOnce_two_tokens :
    ((tokenMachine Unit Nat true).runFrom newTokenRun (allowOnce ++ [askForToken])).map
      (fun t => (t.allocated, t.allowed)) = some ([3, 3], [3]) := by
  decide +kernel

end Freenet.Delegate
