import Freenet.Transport.Listener

/-! A handshake state is set together with a task for it. -/
namespace Freenet.Transport
open Lib Outcome List Option Table ConnectionState

def ConnectionState.isHandshake : ConnectionState → Bool
  | .gatewayHandshake _ => true
  | .natTraversal _ _ => true
  | .established _ => false
  | .recentlyClosed _ => false

namespace ConnectionStateManager

def Idle (m : ConnectionStateManager) (addr : SocketAddr) : Prop :=
  ∀ st, m.getState addr = some st → st.isHandshake = false

/-- The handshake states before and after are the same. -/
def SameHandshakes (m m' : ConnectionStateManager) : Prop :=
  ∀ addr st, st.isHandshake = true → (m'.getState addr = some st ↔ m.getState addr = some st)

variable (m : ConnectionStateManager) (addr : SocketAddr)

theorem SameHandshakes.trans {m m' m'' : ConnectionStateManager} (h : m.SameHandshakes m')
    (h' : m'.SameHandshakes m'') : m.SameHandshakes m'' :=
  fun addr st hst => (h' addr st hst).trans (h addr st hst)

theorem sameHandshakes_of_states_eq (m' : ConnectionStateManager) (h : m'.states = m.states) :
    m.SameHandshakes m' := by
  intro addr st _
  rw [getState, getState, h]

theorem sameHandshakes_refl : m.SameHandshakes m := m.sameHandshakes_of_states_eq m rfl

variable (attempts : Table SocketAddr Nat) (kind : ConnectionState → Prop) (sender : FastSender)
  (status : FastSender → ChannelStatus)

theorem sameHandshakes_insert (st : ConnectionState) (hidle : m.Idle addr)
    (hst : st.isHandshake = false) : m.SameHandshakes ⟨m.states.insert addr st, attempts⟩ := by
  intro a st' hst'
  simp only [getState, get_insert]
  split_ifs with ha
  · subst ha
    constructor
    · intro h
      rw [← some.inj h, hst] at hst'
      cases hst'
    · intro h
      rw [hidle st' h] at hst'
      cases hst'
  · exact Iff.rfl

theorem sameHandshakes_remove (hidle : m.Idle addr) : m.SameHandshakes ⟨m.states.remove addr, attempts⟩ := by
  intro a st hst
  simp only [getState, get_remove]
  split_ifs with ha
  · subst ha
    constructor
    · intro h
      cases h
    · intro h
      rw [hidle st h] at hst
      cases hst
  · exact Iff.rfl

theorem sameHandshakes_retain (keep : SocketAddr → ConnectionState → Bool)
    (hkeep : ∀ a st, m.getState a = some st → st.isHandshake = true → keep a st = true) :
    m.SameHandshakes ⟨m.states.retain keep, attempts⟩ := by
  intro a st hst
  simp only [getState, get_retain, filter_eq_some_iff, and_iff_left_iff_imp]
  intro h
  exact hkeep a st h hst

theorem idle_of_established {sender : FastSender} (h : m.getState addr = some (.established sender)) :
    m.Idle addr := by
  intro st hst
  rw [h] at hst
  cases hst
  rfl

variable (now : Nat)

theorem trySendEstablished_sameHandshakes : m.SameHandshakes (m.trySendEstablished addr status now).1 := by
  unfold trySendEstablished
  split
  · rename_i sender hstate
    split
    · exact m.sameHandshakes_refl
    · exact m.sameHandshakes_refl
    · simp only [markClosed, hstate]
      exact m.sameHandshakes_insert addr _ _ (m.idle_of_established addr hstate) rfl
  · exact m.sameHandshakes_refl

theorem removeEstablished_sameHandshakes : m.SameHandshakes (m.removeEstablished addr).1 := by
  unfold removeEstablished
  split
  · rename_i sender hstate
    exact m.sameHandshakes_remove addr _ (m.idle_of_established addr hstate)
  · exact m.sameHandshakes_refl

theorem removeStaleFromIp_sameHandshakes : m.SameHandshakes (m.removeStaleFromIp addr status) := by
  refine m.sameHandshakes_retain _ _ ?_
  intro a st hstate hst
  cases st <;> simp_all [isStale, isHandshake]

theorem cleanupExpired_sameHandshakes : m.SameHandshakes (m.cleanupExpired now) := by
  refine m.sameHandshakes_retain _ _ ?_
  intro a st _ hst
  cases st <;> simp_all [isHandshake]

theorem startGatewayHandshake_cases : (m.Idle addr ∧ m.startGatewayHandshake addr sender now =
      ({ m with states := m.states.insert addr (.gatewayHandshake sender) }, true)) ∨
    m.startGatewayHandshake addr sender now = (m, false) := by
  unfold startGatewayHandshake
  split
  · rename_i hstate
    exact .inl ⟨by simp [Idle, hstate], rfl⟩
  · rename_i closedAt hstate
    split_ifs
    · exact .inl ⟨by simp [Idle, hstate, isHandshake], rfl⟩
    · exact .inr rfl
  · exact .inr rfl

theorem startNatTraversal_cases (result : ResultSender) (now : Nat) :
    (m.Idle addr ∧ ∃ attempts, m.startNatTraversal addr sender result now =
      (⟨m.states.insert addr (.natTraversal sender result), attempts⟩, true)) ∨
    m.startNatTraversal addr sender result now = (m, false) := by
  unfold startNatTraversal
  split
  · rename_i hstate
    exact .inl ⟨by simp [Idle, hstate], _, rfl⟩
  · rename_i sender hstate
    exact .inl ⟨m.idle_of_established addr hstate, _, rfl⟩
  · exact .inr rfl
  · exact .inr rfl
  · rename_i closedAt hstate
    split_ifs
    · exact .inl ⟨by simp [Idle, hstate, isHandshake], _, rfl⟩
    · exact .inr rfl

/-- `m'` is `m` but for one address, where no handshake of the given kind is left. -/
structure SettledAt (m m' : ConnectionStateManager) (addr : SocketAddr)
    (kind : ConnectionState → Prop) : Prop where
  others : ∀ a, a ≠ addr → m'.getState a = m.getState a
  cleared : ∀ st, kind st → m'.getState addr ≠ some st
  handshakes : ∀ st, st.isHandshake = true → m'.getState addr = some st → m.getState addr = some st

theorem SettledAt.handshake_before {m m' : ConnectionStateManager} {addr a : SocketAddr}
    {kind : ConnectionState → Prop} {st : ConnectionState} (h : m.SettledAt m' addr kind)
    (hst : st.isHandshake = true) (hstate : m'.getState a = some st) : m.getState a = some st := by
  by_cases ha : a = addr
  · rw [ha] at hstate ⊢
    exact h.handshakes st hst hstate
  · rw [← h.others a ha]
    exact hstate

def IsGateway (st : ConnectionState) : Prop := ∃ s, st = .gatewayHandshake s

def IsNat (st : ConnectionState) : Prop := ∃ s r, st = .natTraversal s r

theorem settledAt_insert (hkind : ¬ kind (.established sender)) :
    m.SettledAt { m with states := m.states.insert addr (.established sender) } addr kind where
  others a ha := by simp [getState, get_insert_of_ne ha]
  cleared st hst h := by
    simp only [getState, get_insert_self, some.injEq] at h
    exact hkind (h ▸ hst)
  handshakes st hst h := by
    simp only [getState, get_insert_self, some.injEq] at h
    rw [← h] at hst
    cases hst

theorem settledAt_remove : m.SettledAt { m with states := m.states.remove addr } addr kind where
  others a ha := by simp [getState, get_remove_of_ne ha]
  cleared st _ h := by simp [getState] at h
  handshakes st _ h := by simp [getState] at h

theorem settledAt_refl (h : ∀ st, kind st → m.getState addr ≠ some st) : m.SettledAt m addr kind :=
  ⟨fun _ _ => rfl, h, fun _ _ h => h⟩

theorem completeGatewayHandshake_settledAt :
    m.SettledAt (m.completeGatewayHandshake addr sender).1 addr IsGateway := by
  unfold completeGatewayHandshake
  split
  · exact m.settledAt_insert addr _ sender (by simp [IsGateway])
  · rename_i hno
    exact m.settledAt_refl addr _ fun st ⟨s, hs⟩ => hs ▸ hno s

theorem failGatewayHandshake_settledAt : m.SettledAt (m.failGatewayHandshake addr) addr IsGateway := by
  unfold failGatewayHandshake
  split
  · exact m.settledAt_remove addr _
  · rename_i hno
    exact m.settledAt_refl addr _ fun st ⟨s, hs⟩ => hs ▸ hno s

theorem completeNatTraversal_settledAt : m.SettledAt (m.completeNatTraversal addr sender).1 addr IsNat := by
  unfold completeNatTraversal
  split
  · exact m.settledAt_insert addr _ sender (by simp [IsNat])
  · rename_i hno
    exact m.settledAt_refl addr _ fun st ⟨s, r, hs⟩ => hs ▸ hno s r

theorem failNatTraversal_settledAt : m.SettledAt (m.failNatTraversal addr).1 addr IsNat := by
  unfold failNatTraversal
  split
  · exact m.settledAt_remove addr _
  · rename_i hno
    exact m.settledAt_refl addr _ fun st ⟨s, r, hs⟩ => hs ▸ hno s r

end ConnectionStateManager

namespace Listener

/-- A task of the kind that the state stands for has been spawned for the address, and its result
has not been taken. -/
def HasTask (l : Listener) (addr : SocketAddr) : ConnectionState → Prop
  | .gatewayHandshake _ => ∃ task ∈ l.gwConnectionTasks, task.remoteAddr = addr
  | .natTraversal _ _ => ∃ task ∈ l.connectionTasks, task.remoteAddr = addr
  | .established _ => False
  | .recentlyClosed _ => False

def HandshakesRunning (l : Listener) : Prop :=
  ∀ addr st, st.isHandshake = true → l.connections.getState addr = some st → l.HasTask addr st

/-- A change that loses no handshake state and no task, adds handshake states only with a task,
and adds tasks only for addresses with no handshake in progress. -/
structure Settles (l l' : Listener) : Prop where
  kept : ∀ addr st, st.isHandshake = true → l.connections.getState addr = some st →
    l'.connections.getState addr = some st
  fresh : ∀ addr st, st.isHandshake = true → l'.connections.getState addr = some st →
    l.connections.getState addr = some st ∨ l'.HasTask addr st
  gwTasks : l.gwConnectionTasks ⊆ l'.gwConnectionTasks
  natTasks : l.connectionTasks ⊆ l'.connectionTasks
  freshGw : ∀ task ∈ l'.gwConnectionTasks, task ∈ l.gwConnectionTasks ∨ l.connections.Idle task.remoteAddr
  freshNat : ∀ task ∈ l'.connectionTasks, task ∈ l.connectionTasks ∨ l.connections.Idle task.remoteAddr

variable {l l' : Listener} {addr : SocketAddr} {st : ConnectionState}

theorem HasTask.mono (hgw : l.gwConnectionTasks ⊆ l'.gwConnectionTasks)
    (hnat : l.connectionTasks ⊆ l'.connectionTasks) (h : l.HasTask addr st) : l'.HasTask addr st := by
  cases st with
  | gatewayHandshake s =>
    obtain ⟨task, htask, haddr⟩ := h
    exact ⟨task, hgw htask, haddr⟩
  | natTraversal s r =>
    obtain ⟨task, htask, haddr⟩ := h
    exact ⟨task, hnat htask, haddr⟩
  | established s => exact h
  | recentlyClosed t => exact h

section
variable (h : l.Settles l')
include h

theorem Settles.handshakesRunning (hl : l.HandshakesRunning) : l'.HandshakesRunning := by
  intro addr st hst hstate
  rcases h.fresh addr st hst hstate with hold | hnew
  · exact (hl addr st hst hold).mono h.gwTasks h.natTasks
  · exact hnew

theorem Settles.idle (hidle : l'.connections.Idle addr) : l.connections.Idle addr := by
  intro st hstate
  by_contra hst
  have hst' : st.isHandshake = true := by simpa using hst
  exact hst (hidle st (h.kept addr st hst' hstate))

theorem Settles.trans {l'' : Listener} (h' : l'.Settles l'') : l.Settles l'' where
  kept addr st hst hstate := h'.kept addr st hst (h.kept addr st hst hstate)
  fresh addr st hst hstate := by
    rcases h'.fresh addr st hst hstate with hmid | hnew
    · rcases h.fresh addr st hst hmid with hold | hnew
      · exact .inl hold
      · exact .inr (hnew.mono h'.gwTasks h'.natTasks)
    · exact .inr hnew
  gwTasks := Subset.trans h.gwTasks h'.gwTasks
  natTasks := Subset.trans h.natTasks h'.natTasks
  freshGw task htask := by
    rcases h'.freshGw task htask with hmid | hidle
    · exact h.freshGw task hmid
    · exact .inr (h.idle hidle)
  freshNat task htask := by
    rcases h'.freshNat task htask with hmid | hidle
    · exact h.freshNat task hmid
    · exact .inr (h.idle hidle)

end

theorem settles_of_sameHandshakes (h : l.connections.SameHandshakes l'.connections)
    (hgw : l'.gwConnectionTasks = l.gwConnectionTasks)
    (hnat : l'.connectionTasks = l.connectionTasks) : l.Settles l' where
  kept addr st hst hstate := (h addr st hst).mpr hstate
  fresh addr st hst hstate := .inl ((h addr st hst).mp hstate)
  gwTasks := hgw ▸ Subset.refl _
  natTasks := hnat ▸ Subset.refl _
  freshGw _ htask := .inl (hgw ▸ htask)
  freshNat _ htask := .inl (hnat ▸ htask)

theorem settles_refl (l : Listener) : l.Settles l :=
  settles_of_sameHandshakes l.connections.sameHandshakes_refl rfl rfl

theorem settles_insert (hidle : l.connections.Idle addr)
    (hstat : l'.connections.states = l.connections.states.insert addr st)
    (htask : l'.HasTask addr st) {gw : List GwTask} {nat : List NatTask}
    (hgw : l'.gwConnectionTasks = l.gwConnectionTasks ++ gw)
    (hnat : l'.connectionTasks = l.connectionTasks ++ nat)
    (hgw' : ∀ task ∈ gw, task.remoteAddr = addr) (hnat' : ∀ task ∈ nat, task.remoteAddr = addr) :
    l.Settles l' where
  kept a st' hst hstate := by
    have ha : a ≠ addr := by
      intro ha
      rw [hidle st' (ha ▸ hstate)] at hst
      cases hst
    simpa [ConnectionStateManager.getState, hstat, get_insert_of_ne ha] using hstate
  fresh a st' hst hstate := by
    simp only [ConnectionStateManager.getState, hstat, get_insert] at hstate
    split_ifs at hstate with ha
    · cases hstate
      exact .inr (ha ▸ htask)
    · exact .inl hstate
  gwTasks := hgw ▸ subset_append_left _ _
  natTasks := hnat ▸ subset_append_left _ _
  freshGw task htask :=
    (mem_append.mp (hgw ▸ htask)).imp_right fun hnew => hgw' task hnew ▸ hidle
  freshNat task htask :=
    (mem_append.mp (hnat ▸ htask)).imp_right fun hnew => hnat' task hnew ▸ hidle

variable (cfg : ListenerConfig) (env : Env) (l l' : Listener) (addr : SocketAddr) (p : Packet)

theorem outdatedGate_settles (proceed : Bool)
    (h : l.outdatedGate cfg env addr p = .ok (l', proceed)) : l.Settles l' := by
  unfold outdatedGate at h
  rw [announcesCompatibleVersion_eq] at h
  split_ifs at h
  all_goals
    simp only [ok_bind, pure_eq] at h
    try split_ifs at h
  all_goals
    cases h
    exact settles_of_sameHandshakes (l.connections.sameHandshakes_of_states_eq _ rfl) rfl rfl

theorem isNewIdentity_settles (new : Bool)
    (h : l.isNewIdentity cfg env addr p = .ok (l', new)) : l.Settles l' := by
  unfold isNewIdentity at h
  rw [announcesCompatibleVersion_eq] at h
  split_ifs at h
  all_goals
    cases h
    exact settles_of_sameHandshakes (l.connections.sameHandshakes_of_states_eq _ rfl) rfl rfl

theorem sendEstablished_settles (sender : FastSender) : l.Settles (l.sendEstablished env addr sender).1 :=
  settles_of_sameHandshakes (l.connections.trySendEstablished_sameHandshakes addr env.status env.now) rfl rfl

theorem routeByState_settles (routed : Option Route)
    (h : l.routeByState cfg env addr p = .ok (l', routed)) : l.Settles l' := by
  unfold routeByState at h
  split at h
  · rename_i sender hstate
    obtain ⟨⟨l₁, new⟩, hid, hrest⟩ := (bind_eq_ok_iff _ _ _).mp h
    have h₁ := l.isNewIdentity_settles cfg env l₁ addr p new hid
    by_cases hnew : new = true
    · simp only [hnew] at hrest
      cases hrest
      have hclear := l₁.connections.sameHandshakes_of_states_eq (l₁.connections.clearRateLimit addr) rfl
      have hremove := (l₁.connections.clearRateLimit addr).removeEstablished_sameHandshakes addr
      exact h₁.trans (settles_of_sameHandshakes (hclear.trans hremove) rfl rfl)
    · simp only [hnew] at hrest
      cases hrest
      exact h₁.trans (l₁.sendEstablished_settles env addr sender)
  · split_ifs at h <;> cases h <;> exact l.settles_refl
  · split_ifs at h <;> cases h
    all_goals
      exact settles_of_sameHandshakes (l.connections.sameHandshakes_of_states_eq _ rfl) rfl rfl
  · split_ifs at h <;> cases h <;> exact l.settles_refl
  · cases h
    exact l.settles_refl

theorem startHandshake_settles : l.Settles (l.startHandshake env addr p).1 := by
  unfold startHandshake
  rcases (l.connections.recordAsymAttempt addr env.now).startGatewayHandshake_cases addr
    l.nextChannel env.now with ⟨hidle, heq⟩ | heq
  · simp only [heq]
    refine settles_insert hidle rfl
      ⟨⟨addr, p, env.inboundKeyBytes⟩, mem_append_right _ (mem_singleton_self _), rfl⟩
      rfl (append_nil _).symm ?_ (by simp)
    intro task hnew
    rw [mem_singleton.mp hnew]
  · simp only [heq]
    exact settles_of_sameHandshakes (l.connections.sameHandshakes_of_states_eq _ rfl) rfl rfl

theorem limitIntro_settles : l.Settles (l.limitIntro env addr p).1 := by
  have hlimit : l.Settles { l with gwRateLimiter := (l.gwRateLimiter.tryAccept env.now).1 } :=
    settles_of_sameHandshakes l.connections.sameHandshakes_refl rfl rfl
  unfold limitIntro
  dsimp only
  split_ifs
  · exact l.settles_refl
  · exact l.settles_refl
  · exact hlimit.trans (startHandshake_settles env _ addr p)
  · exact hlimit

theorem handleUnknown_settles : l.Settles (l.handleUnknown cfg env addr p).1 := by
  have hstale : l.Settles
      { l with connections := l.connections.removeStaleFromIp addr env.status } :=
    settles_of_sameHandshakes (l.connections.removeStaleFromIp_sameHandshakes addr _) rfl rfl
  unfold handleUnknown
  split_ifs
  · exact l.settles_refl
  · exact hstale.trans (limitIntro_settles env _ addr p)
  · exact settles_of_sameHandshakes l.connections.sameHandshakes_refl rfl rfl

theorem handlePacket_settles (route : Route)
    (h : l.handlePacket cfg env addr p = .ok (l', route)) : l.Settles l' := by
  obtain ⟨⟨l₁, proceed⟩, hgate, h⟩ := (bind_eq_ok_iff _ _ _).mp h
  have h₁ := l.outdatedGate_settles cfg env l₁ addr p proceed hgate
  cases proceed with
  | false =>
    cases h
    exact h₁
  | true =>
    obtain ⟨⟨l₂, routed⟩, hroute, h⟩ := (bind_eq_ok_iff _ _ _).mp h
    have h₂ := h₁.trans (l₁.routeByState_settles cfg env l₂ addr p routed hroute)
    cases routed with
    | some route =>
      cases h
      exact h₂
    | none =>
      have h₃ := h₂.trans (l₂.handleUnknown_settles cfg env addr p)
      simp only [pure_eq, ok.injEq] at h
      rw [h] at h₃
      exact h₃

theorem handleDatagram_settles (datagram : List UInt8) (route : Route)
    (h : l.handleDatagram cfg env addr datagram = .ok (l', route)) : l.Settles l' := by
  obtain ⟨p, hp, h⟩ := (bind_eq_ok_iff _ _ _).mp h
  exact l.handlePacket_settles cfg env l' addr p route h

theorem handleConnectionStart_settles (openConnection : ResultSender) :
    l.Settles (l.handleConnectionStart env addr openConnection) := by
  unfold handleConnectionStart
  split_ifs with hnat
  · exact l.settles_refl
  · rcases l.connections.startNatTraversal_cases addr l.nextChannel openConnection env.now with
      ⟨hidle, attempts, heq⟩ | heq
    · simp only [heq]
      refine settles_insert hidle rfl
        ⟨⟨addr⟩, mem_append_right _ (mem_singleton_self _), rfl⟩
        (append_nil _).symm rfl (by simp) ?_
      intro task hnew
      rw [mem_singleton.mp hnew]
    · simp only [heq]
      exact settles_of_sameHandshakes l.connections.sameHandshakes_refl rfl rfl

theorem handleCleanup_settles : l.Settles (l.handleCleanup env) :=
  settles_of_sameHandshakes (l.connections.cleanupExpired_sameHandshakes env.now) rfl rfl

end Listener

/-! Handshake states and their tasks; a cancelled or panicked task leaves its address locked out. -/

theorem Listener.mem_eraseIdx_or {α : Type*} {xs : List α} {i : Nat} {x y : α} (hx : xs[i]? = some x)
    (hy : y ∈ xs) : y ∈ xs.eraseIdx i ∨ y = x := by
  obtain ⟨j, hj⟩ := mem_iff_getElem?.mp hy
  by_cases hij : j = i
  · rw [hij, hx] at hj
    exact .inr (some.inj hj).symm
  · exact .inl (mem_eraseIdx_iff_getElem?.mpr ⟨j, hij, hj⟩)

/-- The result of a task was taken and its address left the handshake state it stands for. -/
theorem Listener.handshakesRunning_of_settled {l l' : Listener} {addr : SocketAddr}
    {Kind : ConnectionState → Prop} (hl : l.HandshakesRunning)
    (hsettl : l.connections.SettledAt l'.connections addr Kind)
    (hgw : ∀ task ∈ l.gwConnectionTasks, task ∈ l'.gwConnectionTasks ∨
      task.remoteAddr = addr ∧ ∀ s, Kind (.gatewayHandshake s))
    (hnat : ∀ task ∈ l.connectionTasks, task ∈ l'.connectionTasks ∨
      task.remoteAddr = addr ∧ ∀ s r, Kind (.natTraversal s r)) : l'.HandshakesRunning := by
  intro addr' st hst hstate
  have htask := hl addr' st hst (hsettl.handshake_before hst hstate)
  cases st with
  | gatewayHandshake s =>
    obtain ⟨task, htask, rfl⟩ := htask
    rcases hgw task htask with hkept | ⟨rfl, hkind⟩
    · exact ⟨task, hkept, rfl⟩
    · exact absurd hstate (hsettl.cleared _ (hkind s))
  | natTraversal s r =>
    obtain ⟨task, htask, rfl⟩ := htask
    rcases hnat task htask with hkept | ⟨rfl, hkind⟩
    · exact ⟨task, hkept, rfl⟩
    · exact absurd hstate (hsettl.cleared _ (hkind s r))
  | established s => cases hst
  | recentlyClosed t => cases hst

/-- The event is not the abnormal end of a handshake task: the task was not cancelled and did not
panic, in particular not on a truncated symmetric packet as the awaited reply. -/
def ListenerEvent.EndsNormally : ListenerEvent → Prop
  | .gwTaskEnds _ (.ran true (.packet p)) _ => ¬ p.TruncatedSymmetric
  | .gwTaskEnds _ (.aborted _) _ => False
  | .natTaskEnds _ (.aborted _) => False
  | _ => True

namespace Listener
variable (cfg : ListenerConfig) (env : Env) (l l' : Listener) (e : ListenerEvent) (task : GwTask)

theorem joinGwTask_of_endsNormally (index : Nat) (ending : GwTaskEnding) (notifierOpen : Bool)
    (h : (ListenerEvent.gwTaskEnds index ending notifierOpen).EndsNormally) :
    ∃ result, joinGwTask cfg task ending = .ok result := by
  cases ending with
  | aborted e => exact h.elim
  | ran sent reply =>
    have hretn : (gatewayConnection cfg task.introPacket task.inboundKeyBytes sent reply).Returns := by
      refine (gatewayConnection_returns_iff _ _ _ _ _).mpr (.inr ?_)
      cases sent with
      | false => exact .inl rfl
      | true =>
        refine .inr ?_
        rintro p rfl
        exact h
    obtain ⟨result, hresult⟩ := hretn
    exact ⟨result, by simp [joinGwTask, hresult]⟩

theorem finishGwTask_settledAt (result : Except TransportError Unit) (notifierOpen : Bool)
    (h : l.finishGwTask env task (.ok result) notifierOpen = some l') :
    l.connections.SettledAt l'.connections task.remoteAddr ConnectionStateManager.IsGateway ∧
      l'.gwConnectionTasks = l.gwConnectionTasks ∧ l'.connectionTasks = l.connectionTasks := by
  cases result with
  | ok u =>
    simp only [finishGwTask] at h
    split_ifs at h
    cases h
    exact ⟨l.connections.completeGatewayHandshake_settledAt _ _, rfl, rfl⟩
  | error e =>
    cases h
    exact ⟨l.connections.failGatewayHandshake_settledAt _, rfl, rfl⟩

/-- What one turn of the loop does to handshakes: it starts some together with their tasks, or it
takes the result of a task, whose address then leaves the handshake state if the task had one. -/
inductive Turn (cfg : ListenerConfig) (l l' : Listener) : ListenerEvent → Prop where
  | settles (e : ListenerEvent) (h : l.Settles l') : Turn cfg l l' e
  | gwEnds (index : Nat) (ending : GwTaskEnding) (notifierOpen : Bool) (task : GwTask)
    (htask : l.gwConnectionTasks[index]? = some task)
    (hgw : l'.gwConnectionTasks = l.gwConnectionTasks.eraseIdx index)
    (hnat : l'.connectionTasks = l.connectionTasks)
    (hconn : l.connections.SettledAt l'.connections task.remoteAddr
        ConnectionStateManager.IsGateway ∨
      l'.connections = l.connections ∧ ∃ error, joinGwTask cfg task ending = .error error) :
    Turn cfg l l' (.gwTaskEnds index ending notifierOpen)
  | natEnds (index : Nat) (ending : NatTaskEnding) (task : NatTask)
    (htask : l.connectionTasks[index]? = some task)
    (hgw : l'.gwConnectionTasks = l.gwConnectionTasks)
    (hnat : l'.connectionTasks = l.connectionTasks.eraseIdx index)
    (hconn : l.connections.SettledAt l'.connections task.remoteAddr ConnectionStateManager.IsNat ∨
      l'.connections = l.connections ∧ ∃ error, ending = .aborted error) :
    Turn cfg l l' (.natTaskEnds index ending)

theorem turn_of_step (h : l.step cfg env e = some l') : Turn cfg l l' e := by
  cases e with
  | datagram addr bytes =>
    simp only [step] at h
    split at h
    · rename_i l₁ route hok
      cases h
      exact .settles _ (l.handleDatagram_settles cfg env l' addr bytes route hok)
    · cases h
  | recvError fatal =>
    simp only [step] at h
    split_ifs at h
    cases h
    exact .settles _ l.settles_refl
  | gwTaskEnds index ending notifierOpen =>
    simp only [step] at h
    split at h
    · cases h
    · rename_i task htask
      cases hjoin : joinGwTask cfg task ending with
      | error error =>
        rw [hjoin] at h
        cases h
        exact .gwEnds index ending notifierOpen task htask rfl rfl (.inr ⟨rfl, error, hjoin⟩)
      | ok result =>
        rw [hjoin] at h
        obtain ⟨hsettl, hgw, hnat⟩ := finishGwTask_settledAt env _ l' task result notifierOpen h
        exact .gwEnds index ending notifierOpen task htask hgw hnat (.inl hsettl)
  | natTaskEnds index ending =>
    simp only [step] at h
    split at h
    · cases h
    · rename_i task htask
      split_ifs at h
      cases h
      cases ending with
      | connected intro =>
        exact .natEnds index _ task htask rfl rfl (.inl (l.connections.completeNatTraversal_settledAt _ _))
      | failed error =>
        exact .natEnds index _ task htask rfl rfl (.inl (l.connections.failNatTraversal_settledAt _))
      | aborted error => exact .natEnds index _ task htask rfl rfl (.inr ⟨rfl, error, rfl⟩)
  | connectionStart addr openConnection =>
    cases h
    exact .settles _ (l.handleConnectionStart_settles env addr openConnection)
  | handlerClosed => cases h
  | cleanup =>
    simp only [step] at h
    split_ifs at h
    cases h
    exact .settles _ (l.handleCleanup_settles env)

/-- One turn of the loop keeps every handshake state with its task, unless it takes the result of
a task that was cancelled or panicked. -/
theorem step_handshakesRunning (hl : l.HandshakesRunning) (hnormal : e.EndsNormally)
    (h : l.step cfg env e = some l') : l'.HandshakesRunning := by
  cases turn_of_step cfg env l l' e h with
  | settles _ hsettles => exact hsettles.handshakesRunning hl
  | gwEnds index ending notifierOpen task htask hgw hnat hconn =>
    rcases hconn with hsettl | ⟨-, error, herror⟩
    · refine handshakesRunning_of_settled hl hsettl ?_ fun _ h => .inl (hnat ▸ h)
      intro task' htask'
      refine (mem_eraseIdx_or htask htask').imp (hgw ▸ ·) ?_
      rintro rfl
      exact ⟨rfl, fun s => ⟨s, rfl⟩⟩
    · obtain ⟨result, hresult⟩ :=
        joinGwTask_of_endsNormally cfg task index ending notifierOpen hnormal
      rw [hresult] at herror
      cases herror
  | natEnds index ending task htask hgw hnat hconn =>
    rcases hconn with hsettl | ⟨-, error, rfl⟩
    · refine handshakesRunning_of_settled hl hsettl (fun _ h => .inl (hgw ▸ h)) ?_
      intro task' htask'
      refine (mem_eraseIdx_or htask htask').imp (hnat ▸ ·) ?_
      rintro rfl
      exact ⟨rfl, fun s r => ⟨s, r, rfl⟩⟩
    · exact hnormal.elim

theorem Initial.handshakesRunning {l : Listener} (h : l.Initial) : l.HandshakesRunning := by
  intro addr st _ hstate
  rw [h.1] at hstate
  simp [ConnectionStateManager.getState, ConnectionStateManager.new] at hstate

end Listener

/-- In every run in which no handshake task is cancelled or panics, an address is in a handshake
state only while a handshake task for it is running. -/
theorem handshake_state_has_running_task (cfg : ListenerConfig) (l l' : Listener)
    (es : List (Env × ListenerEvent)) (hinit : (listenerMachine cfg).init l)
    (hnormal : (listenerMachine cfg).Along (fun _ e => e.2.EndsNormally) l es)
    (hrun : (listenerMachine cfg).runFrom l es = some l') : l'.HandshakesRunning := by
  refine (listenerMachine cfg).invariant_of_along _ Listener.HandshakesRunning ?_
    (Listener.Initial.handshakesRunning hinit) hnormal hrun
  intro s e s' hs hcond hstep
  exact s.step_handshakesRunning cfg e.1 s' e.2 hs hcond hstep

/-- A handshake that times out, and a traversal that is then started. -/
def timedOutHandshake : List (Env × ListenerEvent) :=
  [(envAt 0, .datagram peerAddr introDatagram), (envAt 1, .gwTaskEnds 0 (.ran true .timedOut) true),
    (envAt 2, .connectionStart peerAddr 5)]

theorem timedOutHandshake_has_running_task :
    ∃ l', (listenerMachine transparentGateway).runFrom startingListener timedOutHandshake = some l' ∧
      l'.connections.getState peerAddr = some (.natTraversal 1 5) ∧ l'.HandshakesRunning := by
  refine Machine.exists_run_imp (·.connections.getState peerAddr = some (.natTraversal 1 5))
    (by decide +kernel) ?_
  refine fun l' hrun hstate => ⟨hstate, ?_⟩
  exact handshake_state_has_running_task transparentGateway startingListener l' timedOutHandshake
    ⟨rfl, rfl, rfl, rfl⟩
    ⟨trivial, fun _ _ => ⟨trivial, fun _ _ => ⟨trivial, fun _ _ => trivial⟩⟩⟩ hrun

namespace Listener

/-- The address is in a handshake state that no task will ever end. -/
def LockedOut (l : Listener) (addr : SocketAddr) : Prop :=
  (∃ st, st.isHandshake = true ∧ l.connections.getState addr = some st) ∧
    (∀ task ∈ l.gwConnectionTasks, task.remoteAddr ≠ addr) ∧
    ∀ task ∈ l.connectionTasks, task.remoteAddr ≠ addr

variable (cfg : ListenerConfig) (env : Env)

theorem Settles.lockedOut {l l' : Listener} {addr : SocketAddr} (h : l.Settles l')
    (hl : l.LockedOut addr) : l'.LockedOut addr := by
  obtain ⟨⟨st, hst, hstate⟩, hgw, hnat⟩ := hl
  have hbusy : ¬ l.connections.Idle addr := by
    intro hidle
    rw [hidle st hstate] at hst
    cases hst
  refine ⟨⟨st, hst, h.kept addr st hst hstate⟩, ?_, ?_⟩
  · intro task htask haddr
    rcases h.freshGw task htask with hold | hidle
    · exact hgw task hold haddr
    · exact hbusy (haddr ▸ hidle)
  · intro task htask haddr
    rcases h.freshNat task htask with hold | hidle
    · exact hnat task hold haddr
    · exact hbusy (haddr ▸ hidle)

theorem LockedOut.of_ended {l l' : Listener} {addr other : SocketAddr}
    {Kind : ConnectionState → Prop} {Failed : Prop} (hl : l.LockedOut addr) (hne : other ≠ addr)
    (hconn : l.connections.SettledAt l'.connections other Kind ∨
      l'.connections = l.connections ∧ Failed) (hgw : l'.gwConnectionTasks ⊆ l.gwConnectionTasks)
    (hnat : l'.connectionTasks ⊆ l.connectionTasks) : l'.LockedOut addr := by
  have hstate : l'.connections.getState addr = l.connections.getState addr := by
    rcases hconn with hsettl | ⟨hsame, -⟩
    · exact hsettl.others addr hne.symm
    · rw [hsame]
  exact ⟨hstate ▸ hl.1, fun task htask => hl.2.1 task (hgw htask),
    fun task htask => hl.2.2 task (hnat htask)⟩

theorem step_lockedOut (l l' : Listener) (e : ListenerEvent) (addr : SocketAddr)
    (hl : l.LockedOut addr) (h : l.step cfg env e = some l') : l'.LockedOut addr := by
  cases turn_of_step cfg env l l' e h with
  | settles _ hsettles => exact hsettles.lockedOut hl
  | gwEnds index ending notifierOpen task htask hgw hnat hconn =>
    exact hl.of_ended (hl.2.1 task (mem_of_getElem? htask)) hconn (hgw ▸ eraseIdx_subset)
      (hnat ▸ Subset.refl _)
  | natEnds index ending task htask hgw hnat hconn =>
    exact hl.of_ended (hl.2.2 task (mem_of_getElem? htask)) hconn (hgw ▸ Subset.refl _)
      (hnat ▸ eraseIdx_subset)

end Listener

/-- Once an address is in a handshake state without a task, it stays so: no packet from it starts
a handshake and no request for a connection to it starts a traversal. -/
theorem lockedOut_forever (cfg : ListenerConfig) (l l' : Listener) (addr : SocketAddr)
    (es : List (Env × ListenerEvent)) (hl : l.LockedOut addr)
    (hrun : (listenerMachine cfg).runFrom l es = some l') : l'.LockedOut addr := by
  refine (listenerMachine cfg).invariant_of_run (fun s => s.LockedOut addr) ?_ hl hrun
  intro s e s' hs hstep
  exact s.step_lockedOut cfg e.1 s' e.2 addr hs hstep

def truncatedPacket : Packet :=
  ⟨packetTypeSymmetric :: replicate 1499 0, 1, length_symmetricBytes, by decide⟩

def panickedHandshake : List (Env × ListenerEvent) :=
  [(envAt 0, .datagram peerAddr introDatagram), (envAt 1, .datagram peerAddr [packetTypeSymmetric]),
    (envAt 2, .gwTaskEnds 0 (.ran true (.packet truncatedPacket)) true)]

/-- The panicked handshake leaves its address in the handshake state with no task, for good. -/
theorem panickedHandshake_locks_out : (listenerMachine transparentGateway).init startingListener ∧
    ∃ l', (listenerMachine transparentGateway).runFrom startingListener panickedHandshake = some l' ∧
      ¬ l'.HandshakesRunning ∧ ∀ es l'', (listenerMachine transparentGateway).runFrom l' es = some l'' →
        l''.LockedOut peerAddr := by
  obtain ⟨l', hrun, hstate, hgw, hnat⟩ : ∃ l', (listenerMachine transparentGateway).runFrom
      startingListener panickedHandshake = some l' ∧
      l'.connections.getState peerAddr = some (.gatewayHandshake 0) ∧ l'.gwConnectionTasks = [] ∧
      l'.connectionTasks = [] := by
    decide +kernel
  refine ⟨⟨rfl, rfl, rfl, rfl⟩, l', hrun, ?_, ?_⟩
  · intro hrunning
    obtain ⟨task, htask, -⟩ := hrunning peerAddr _ rfl hstate
    rw [hgw] at htask
    cases htask
  · intro es l'' hrest
    refine lockedOut_forever transparentGateway l' l'' peerAddr es ?_ hrest
    exact ⟨⟨_, rfl, hstate⟩, by simp [hgw], by simp [hnat]⟩

end Freenet.Transport
