import ZephyrVox.Lib.Progress
import ZephyrVox.Realtime.LiveCommands

/-!
# Commands return

A call of `send_command` waits for others at three places: for the lock of the
outbound sender, for room in the channel of a socket, and for its answer. The timeout
covers the third only. A call stuck in a full channel is freed by the owner task: it
forwards a frame, or the socket is lost.

## Main definitions

* `CallPc.left` — the steps a call has left, at most.
* `ConnectionInner.Channels` — only the channel of the running socket has a receiver,
  and no channel holds more than it has room for.
* `ConnectionInner.Serves` — the steps by which a call comes to return.
* `commands_return` — every call makes a bounded number of steps and can return.
-/

namespace ZephyrVox.Realtime

open Transition

/-- The steps a call has left, at most. -/
def CallPc.left : CallPc → ℕ
  | .idle => 7
  | .checked => 6
  | .encoded _ _ => 5
  | .inserted _ _ => 4
  | .sending _ _ _ => 3
  | .waiting _ => 2
  | .leaving _ _ => 1
  | .returned _ _ | .dropped _ => 0

/-- Whether a call has begun and not returned. -/
def CallPc.underWay : CallPc → Bool
  | .idle | .returned _ _ | .dropped _ => false
  | _ => true

/-- The call that makes a step. -/
def CommandAction.call? : CommandAction → Option ℕ
  | .check i _ _ | .encode i _ | .insert i | .cloneOutbound i | .send i | .receive i
  | .timeout i | .leave i | .drop i => some i
  | .owner _ => none

namespace ConnectionInner

variable {maximum : ℕ} {c c' : ConnectionInner} {i j : ℕ} {action : CommandAction}

/-! ## Own steps -/

@[simp] theorem pc_goto_self (c : ConnectionInner) (i : ℕ) (pc : CallPc) :
    ((c.goto i pc).calls i).pc = pc := by
  simp [goto]

theorem pc_goto_of_ne (h : j ≠ i) (pc : CallPc) : ((c.goto i pc).calls j).pc = (c.calls j).pc := by
  rw [goto, calls_setCall_of_ne h]

theorem pc_resolvePending (id : String) (result : Except RealtimeError CommandAck) (j : ℕ) :
    ((c.resolvePending id result).calls j).pc = (c.calls j).pc := by
  unfold resolvePending
  split
  · rfl
  case h_2 k _ =>
    by_cases hsame : j = k
    · rw [hsame, calls_setCall_self]
      rfl
    · rw [calls_setCall_of_ne hsame]
      rfl

/-- The owner moves no call. -/
theorem pc_stepOwner {a : OwnerAction} (h : c.stepOwner a = some c') (j : ℕ) :
    (c'.calls j).pc = (c.calls j).pc := by
  cases a with
  | respond response =>
      simp only [stepOwner] at h
      split at h
      · cases h
        exact pc_resolvePending _ _ _
      · cases h
  | drainPending =>
      simp only [stepOwner] at h
      split at h
      · cases h
        simp only [drainPending]
        split <;> rfl
      · cases h
  | _ =>
      simp only [stepOwner] at h
      split at h <;> cases h <;> rfl

/-- **A call's own step brings it nearer to its return**, and moves no other call. -/
theorem step_left (h : c.step maximum action = some c') (j : ℕ) :
    (action.call? = some j → (c'.calls j).pc.left < (c.calls j).pc.left) ∧
      (action.call? ≠ some j → (c'.calls j).pc = (c.calls j).pc) := by
  have hgoto : ∀ (d : ConnectionInner) (i : ℕ) (pc : CallPc), d.calls = c.calls →
      pc.left < (c.calls i).pc.left →
      (some i = some j → ((d.goto i pc).calls j).pc.left < (c.calls j).pc.left) ∧
        (some i ≠ some j → ((d.goto i pc).calls j).pc = (c.calls j).pc) := by
    intro d i pc hcalls hless
    refine ⟨?_, ?_⟩
    · intro hsame
      cases hsame
      rw [pc_goto_self]
      exact hless
    · intro hother
      rw [pc_goto_of_ne (fun h => hother (by rw [h])), hcalls]
  cases step_moves h with
  | check command encodeJson hpc =>
      rename_i i
      refine ⟨?_, ?_⟩
      · intro hsame
        cases hsame
        rw [check, calls_setCall_self, hpc]
        dsimp only
        split <;> decide
      · intro hother
        rw [check, calls_setCall_of_ne (fun h => hother (by rw [h]; rfl))]
  | encode millis hpc =>
      refine hgoto _ _ _ rfl ?_
      rw [hpc]
      split <;> simp [CallPc.left]
  | insert hpc =>
      unfold insert
      split <;> exact hgoto _ _ _ rfl (by rw [hpc]; simp [CallPc.left])
  | cloneOutbound hpc =>
      unfold cloneOutbound
      split <;> exact hgoto _ _ _ rfl (by rw [hpc]; simp [CallPc.left])
  | send hpc hsend =>
      unfold send at hsend
      split at hsend
      · cases hsend
      · split at hsend
        · split at hsend
          · cases hsend
            exact hgoto _ _ _ rfl (by rw [hpc]; simp [CallPc.left])
          · cases hsend
        · cases hsend
          exact hgoto _ _ _ rfl (by rw [hpc]; simp [CallPc.left])
  | receive hpc hreceive =>
      unfold receive at hreceive
      split at hreceive
      · cases hreceive
        exact hgoto _ _ _ rfl (by rw [hpc]; simp [CallPc.left])
      · split at hreceive
        · cases hreceive
        · cases hreceive
          exact hgoto _ _ _ rfl (by rw [hpc]; simp [CallPc.left])
  | timeout hpc => exact hgoto _ _ _ rfl (by rw [hpc]; simp [CallPc.left])
  | leave hpc => exact hgoto _ _ _ rfl (by rw [hpc]; simp [CallPc.left])
  | drop hguards =>
      refine hgoto _ _ _ rfl ?_
      rename_i i id
      cases hpc : (c.calls i).pc <;> simp_all [CallPc.guards, CallPc.left]
  | owner hstep => exact ⟨(fun h => by cases h), fun _ => pc_stepOwner hstep j⟩

/-- Calls advance by their own steps alone. -/
theorem calls_advance (maximum : ℕ) : Advances (step maximum) (fun _ => True) CommandAction.call?
    (fun _ => True) fun c i => (c.calls i).pc.left where
  kept _ _ _ _ _ := trivial
  less c action c' i _ _ hcall h := (step_left h i).1 hcall
  others c action c' i _ _ hcall h := by
    rw [(step_left h i).2 hcall]

/-! ## Channels -/

/-- Only the channel of the socket that the owner runs has a receiver, no channel holds
more than it has room for, and calls send into channels of sockets there were. -/
structure Channels (maximum : ℕ) (c : ConnectionInner) : Prop where
  running : ∀ (g : ℕ) (socket : SocketGeneration), c.sockets[g]? = some socket →
    socket.receiving = true → g + 1 = c.sockets.length ∧ c.owner.runs = true
  room : ∀ (g : ℕ) (socket : SocketGeneration), c.sockets[g]? = some socket →
    socket.queue.length ≤ maximum + 4
  outbound : ∀ g, c.outbound = some g → g < c.sockets.length
  sending : ∀ i id payload g, (c.calls i).pc = .sending id payload g → g < c.sockets.length

theorem channels_new : (new).Channels maximum where
  running g socket h := by simp [new] at h
  room g socket h := by simp [new] at h
  outbound g h := by cases h
  sending i id payload g h := by cases h

/-- A call that does not begin to send leaves the channels. -/
theorem Channels.of_calls (C : c.Channels maximum) (hsockets : c'.sockets = c.sockets)
    (howner : c'.owner = c.owner) (houtbound : c'.outbound = c.outbound)
    (hsending : ∀ i id payload g, (c'.calls i).pc = .sending id payload g →
      (c.calls i).pc = .sending id payload g ∨ c.outbound = some g) : c'.Channels maximum where
  running := by
    rw [hsockets, howner]
    exact C.running
  room := by
    rw [hsockets]
    exact C.room
  outbound := by
    rw [hsockets, houtbound]
    exact C.outbound
  sending i id payload g hpc := by
    rw [hsockets]
    rcases hsending i id payload g hpc with hbefore | hfound
    · exact C.sending i id payload g hbefore
    · exact C.outbound g hfound

/-- Moving a call to where it does not send leaves the channels. -/
theorem Channels.goto (C : c.Channels maximum) {d : ConnectionInner} {pc : CallPc}
    (hsame : d.sockets = c.sockets ∧ d.owner = c.owner ∧ d.outbound = c.outbound ∧
      d.calls = c.calls)
    (hpc : ∀ id payload g, pc = .sending id payload g → c.outbound = some g) :
    (d.goto i pc).Channels maximum := by
  obtain ⟨hsockets, howner, houtbound, hcalls⟩ := hsame
  refine C.of_calls hsockets howner houtbound ?_
  intro j id payload g hsending
  by_cases hj : j = i
  · rw [hj, pc_goto_self] at hsending
    exact .inr (hpc id payload g hsending)
  · rw [pc_goto_of_ne hj, hcalls] at hsending
    exact .inl hsending

/-- A socket changes without getting a receiver or too many frames. -/
theorem Channels.setSocket (C : c.Channels maximum) (g : ℕ)
    {f : SocketGeneration → SocketGeneration}
    (hreceiving : ∀ socket, (f socket).receiving = true → socket.receiving = true)
    (hroom : ∀ socket, c.sockets[g]? = some socket →
      (f socket).queue.length ≤ maximum + 4) :
    (c.setSocket g f).Channels maximum := by
  have hlookup : ∀ (g' : ℕ) (socket : SocketGeneration),
      (c.setSocket g f).sockets[g']? = some socket → ∃ old : SocketGeneration,
        c.sockets[g']? = some old ∧ (socket.receiving = true → old.receiving = true) ∧
        socket.queue.length ≤ maximum + 4 := by
    intro g' socket h
    simp only [ConnectionInner.setSocket, List.getElem?_modify, Option.map_eq_map,
      Option.map_eq_some_iff] at h
    obtain ⟨old, hold, heq⟩ := h
    split at heq
    case isTrue hsame =>
      subst hsame
      rw [← heq]
      exact ⟨old, hold, hreceiving old, hroom old hold⟩
    case isFalse =>
      rw [← heq]
      exact ⟨old, hold, fun h => h, C.room g' old hold⟩
  refine ⟨?_, ?_, ?_, ?_⟩
  · intro g' socket h hopen
    obtain ⟨old, hold, hkept, -⟩ := hlookup g' socket h
    simpa [ConnectionInner.setSocket] using C.running g' old hold (hkept hopen)
  · intro g' socket h
    obtain ⟨-, -, -, hle⟩ := hlookup g' socket h
    exact hle
  · intro g' h
    simpa [ConnectionInner.setSocket] using C.outbound g' h
  · intro i id payload g' h
    simpa [ConnectionInner.setSocket] using C.sending i id payload g' h

/-- The owner moves on without a change to the sockets. -/
theorem Channels.owner (C : c.Channels maximum) (hsockets : c'.sockets = c.sockets)
    (hruns : c.owner.runs = true → c'.owner.runs = true)
    (houtbound : c'.outbound = c.outbound ∨ c'.outbound = none)
    (hpcs : ∀ i, (c'.calls i).pc = (c.calls i).pc) : c'.Channels maximum where
  running g socket h hopen := by
    rw [hsockets] at h ⊢
    obtain ⟨hlast, howner⟩ := C.running g socket h hopen
    exact ⟨hlast, hruns howner⟩
  room := by
    rw [hsockets]
    exact C.room
  outbound g h := by
    rw [hsockets]
    rcases houtbound with hsame | hnone
    · exact C.outbound g (hsame ▸ h)
    · rw [hnone] at h
      cases h
  sending i id payload g h := by
    rw [hsockets]
    rw [hpcs] at h
    exact C.sending i id payload g h

/-- A new socket has an empty channel; no older one has a receiver. -/
theorem Channels.install (C : c.Channels maximum) (howner : c.owner = .dialing)
    (ready : ConnectionReady) :
    Channels maximum { c.install ready with owner := .opened } where
  running g socket h hopen := by
    simp only [ConnectionInner.install, List.getElem?_append] at h ⊢
    split at h
    · have := (C.running g socket h hopen).2
      rw [howner] at this
      cases this
    case isFalse hnew =>
      have hlast : g - c.sockets.length < 1 := (List.getElem?_eq_some_iff.mp h).1
      refine ⟨?_, rfl⟩
      rw [List.length_append, List.length_singleton]
      omega
  room g socket h := by
    simp only [ConnectionInner.install, List.getElem?_append] at h
    split at h
    · exact C.room g socket h
    · rw [List.mem_singleton.mp (List.mem_of_getElem? h)]
      exact Nat.zero_le _
  outbound g h := by
    simp only [ConnectionInner.install, Option.some.injEq] at h ⊢
    simp [← h]
  sending i id payload g h := by
    have := C.sending i id payload g h
    simp only [ConnectionInner.install, List.length_append, List.length_singleton]
    omega

/-- The running socket is lost, and its receiver with it. -/
theorem Channels.lost (C : c.Channels maximum) :
    Channels maximum { c.setRunning fun socket => { socket with receiving := false } with
      owner := .clearing false } := by
  have C' := C.setSocket (c.sockets.length - 1)
    (f := fun socket => { socket with receiving := false }) (fun _ h => by cases h)
    fun socket h => C.room _ socket h
  refine ⟨?_, C'.room, C'.outbound, C'.sending⟩
  intro g socket h hopen
  exfalso
  simp only [ConnectionInner.setRunning, ConnectionInner.setSocket, List.getElem?_modify,
    Option.map_eq_map, Option.map_eq_some_iff] at h
  obtain ⟨old, hold, heq⟩ := h
  split at heq
  · rw [← heq] at hopen
    cases hopen
  case isFalse hother =>
    rw [← heq] at hopen
    have := (C.running g old hold hopen).1
    omega

theorem Channels.stepOwner (C : c.Channels maximum) {a : OwnerAction}
    (h : c.stepOwner a = some c') : c'.Channels maximum := by
  have hpcs := pc_stepOwner h
  cases a with
  | ready ready =>
      simp only [ConnectionInner.stepOwner] at h
      split at h
      case h_1 howner => cases h; exact C.install howner ready
      case h_2 => cases h
  | publishLive =>
      simp only [ConnectionInner.stepOwner] at h
      split at h
      case h_1 =>
        cases h
        have C' := C.setSocket (c.sockets.length - 1)
          (f := fun socket => { socket with live := true }) (fun _ h => h)
          fun socket h => C.room _ socket h
        exact C'.owner rfl (fun h => h) (.inl rfl) fun _ => rfl
      case h_2 => cases h
  | forward =>
      simp only [ConnectionInner.stepOwner] at h
      split at h
      case h_1 =>
        cases h
        refine C.setSocket _ (fun _ h => h) fun socket h => ?_
        have := C.room _ socket h
        rw [List.length_tail]
        omega
      case h_2 => cases h
  | lost =>
      simp only [ConnectionInner.stepOwner] at h
      split at h
      case h_1 howner =>
        cases h
        exact C.owner rfl (fun hruns => by rw [howner] at hruns; cases hruns) (.inl rfl) hpcs
      case h_2 | h_3 => cases h; exact C.lost
      case h_4 => cases h
  | respond response =>
      simp only [ConnectionInner.stepOwner] at h
      split at h
      case h_1 =>
        cases h
        have hframe : (c.respond response).sockets = c.sockets ∧
            (c.respond response).owner = c.owner ∧
            (c.respond response).outbound = c.outbound := by
          unfold respond resolvePending
          split <;> exact ⟨rfl, rfl, rfl⟩
        exact C.owner hframe.1 (fun h => by rw [hframe.2.1]; exact h) (.inl hframe.2.2) hpcs
      case h_2 => cases h
  | clearOutbound =>
      simp only [ConnectionInner.stepOwner] at h
      split at h
      case h_1 final howner =>
        cases h
        exact C.owner rfl (fun hruns => by rw [howner] at hruns; cases hruns) (.inr rfl) hpcs
      case h_2 => cases h
  | _ =>
      simp only [ConnectionInner.stepOwner] at h
      split at h
      all_goals first
        | cases h; done
        | (rename_i howner
           cases h
           exact C.owner rfl (fun hruns => by simp_all [OwnerPc.runs]) (.inl rfl) hpcs)

/-- **Every step keeps the channels.** -/
theorem Channels.step (C : c.Channels maximum) (h : c.step maximum action = some c') :
    c'.Channels maximum := by
  cases step_moves h with
  | check command encodeJson hpc =>
      rename_i i
      refine C.of_calls rfl rfl rfl ?_
      intro j id payload g hsending
      by_cases hsame : j = i
      · rw [hsame, ConnectionInner.check, calls_setCall_self] at hsending
        dsimp only at hsending
        split at hsending <;> cases hsending
      · rw [ConnectionInner.check, calls_setCall_of_ne hsame] at hsending
        exact .inl hsending
  | encode millis hpc =>
      unfold ConnectionInner.encode
      refine C.goto ⟨rfl, rfl, rfl, rfl⟩ ?_
      intro id payload g hsending
      split at hsending <;> cases hsending
  | insert hpc =>
      unfold ConnectionInner.insert
      split <;> exact C.goto ⟨rfl, rfl, rfl, rfl⟩ fun _ _ _ h => by cases h
  | cloneOutbound hpc =>
      unfold ConnectionInner.cloneOutbound
      split
      case h_1 socket hsocket =>
        refine C.goto ⟨rfl, rfl, rfl, rfl⟩ ?_
        intro id payload g hsending
        cases hsending
        exact hsocket
      case h_2 => exact C.goto ⟨rfl, rfl, rfl, rfl⟩ fun _ _ _ h => by cases h
  | send hpc hsend =>
      rename_i i id payload g
      unfold ConnectionInner.send at hsend
      split at hsend
      · cases hsend
      case h_2 socket hsocket =>
        split at hsend
        · split at hsend
          case isTrue hroom =>
            cases hsend
            have C' := C.setSocket g
              (f := fun socket => { socket with queue := socket.queue ++ [payload] })
              (fun _ h => h) fun socket' hsocket' => by
                rw [hsocket] at hsocket'
                cases hsocket'
                rw [List.length_append, List.length_singleton]
                omega
            exact C'.goto ⟨rfl, rfl, rfl, rfl⟩ fun _ _ _ h => by cases h
          case isFalse => cases hsend
        · cases hsend
          exact C.goto ⟨rfl, rfl, rfl, rfl⟩ fun _ _ _ h => by cases h
  | receive hpc hreceive =>
      unfold ConnectionInner.receive at hreceive
      split at hreceive
      · cases hreceive
        exact C.goto ⟨rfl, rfl, rfl, rfl⟩ fun _ _ _ h => by cases h
      · split at hreceive
        · cases hreceive
        · cases hreceive
          exact C.goto ⟨rfl, rfl, rfl, rfl⟩ fun _ _ _ h => by cases h
  | timeout | leave | drop => exact C.goto ⟨rfl, rfl, rfl, rfl⟩ fun _ _ _ h => by cases h
  | owner hstep => exact C.stepOwner hstep

theorem Channels.exec (C : c.Channels maximum) {actions : List CommandAction}
    (h : Transition.exec (ConnectionInner.step maximum) c actions = some c') :
    c'.Channels maximum := by
  induction actions generalizing c with
  | nil => cases h; exact C
  | cons action actions ih =>
      obtain ⟨next, hnext, hrest⟩ := Option.bind_eq_some_iff.mp h
      exact ih (C.step hnext) hrest

/-! ## Returns -/

/-- The steps by which a call comes to return: its own, and those by which the owner
frees the channel of its socket. -/
def Serves (i : ℕ) (action : CommandAction) : Prop :=
  (action.call? = some i ∧ action ≠ .drop i) ∨
    action ∈ [.owner .publishReady, .owner .helloSent, .owner .forward]

/-- A call can return in so many steps. -/
def Returns (maximum : ℕ) (c : ConnectionInner) (i n : ℕ) : Prop :=
  ∃ more, (∀ action ∈ more, Serves i action) ∧ more.length ≤ n ∧ ∃ c',
    exec (step maximum) c more = some c' ∧ ∃ id result, (c'.calls i).pc = .returned id result

theorem returns_zero {id : Option String} {result : Except RealtimeError CommandAck}
    (hpc : (c.calls i).pc = .returned id result) (n : ℕ) : c.Returns maximum i n :=
  ⟨[], by simp, Nat.zero_le n, c, rfl, id, result, hpc⟩

theorem Returns.cons {n : ℕ} (h : c'.Returns maximum i n) (action : CommandAction)
    (hserves : Serves i action) (hstep : c.step maximum action = some c') :
    c.Returns maximum i (n + 1) := by
  obtain ⟨more, hall, hlength, d, hd, hreturned⟩ := h
  refine ⟨action :: more, ?_, Nat.succ_le_succ hlength, d, ?_, hreturned⟩
  · intro other hmem
    rcases List.mem_cons.mp hmem with rfl | hmem
    · exact hserves
    · exact hall other hmem
  · rw [exec_cons, hstep]
    exact hd

theorem Returns.mono {m n : ℕ} (h : c.Returns maximum i m) (hle : m ≤ n) :
    c.Returns maximum i n := by
  obtain ⟨more, hall, hlength, hrun⟩ := h
  exact ⟨more, hall, hlength.trans hle, hrun⟩

theorem returns_leaving {id : String} {result : Except RealtimeError CommandAck}
    (hpc : (c.calls i).pc = .leaving id result) : c.Returns maximum i 1 := by
  have hreturned : (((c.removePending id).goto i (.returned (some id) result)).calls i).pc =
      .returned (some id) result := pc_goto_self _ _ _
  exact (returns_zero hreturned 0).cons (.leave i) (.inl ⟨rfl, fun h => by cases h⟩)
    (by simp [step, hpc])

theorem returns_waiting {id : String} (hpc : (c.calls i).pc = .waiting id) :
    c.Returns maximum i 2 := by
  cases hreply : (c.calls i).reply with
  | some result =>
      have hleaving : ((c.goto i (.leaving id result)).calls i).pc = .leaving id result :=
        pc_goto_self _ _ _
      exact (returns_leaving hleaving).cons (.receive i) (.inl ⟨rfl, fun h => by cases h⟩)
        (by simp [step, hpc, receive, hreply])
  | none =>
      have hleaving : ((c.goto i (.leaving id (.error .commandTimeout))).calls i).pc =
          .leaving id (.error .commandTimeout) := pc_goto_self _ _ _
      exact (returns_leaving hleaving).cons (.timeout i) (.inl ⟨rfl, fun h => by cases h⟩)
        (by simp [step, hpc, hreply])

/-- A call whose channel has room, or no receiver, can return by its own steps. -/
theorem returns_room {id payload : String} {g : ℕ} {socket : SocketGeneration}
    (hpc : (c.calls i).pc = .sending id payload g) (hsocket : c.sockets[g]? = some socket)
    (hroom : socket.receiving = true → socket.queue.length < maximum + 4) :
    c.Returns maximum i 3 := by
  cases hopen : socket.receiving with
  | true =>
      obtain ⟨d, hd, hwaiting⟩ : ∃ d, c.step maximum (.send i) = some d ∧
          (d.calls i).pc = .waiting id := by
        refine ⟨_, by simp only [step, hpc, send, hsocket, hopen, hroom hopen, if_true]; rfl, ?_⟩
        exact pc_goto_self _ _ _
      exact (returns_waiting hwaiting).cons (.send i) (.inl ⟨rfl, fun h => by cases h⟩) hd
  | false =>
      have hleaving : ((c.goto i (.leaving id (.error .closed))).calls i).pc =
          .leaving id (.error .closed) := pc_goto_self _ _ _
      exact ((returns_leaving hleaving).cons (.send i) (.inl ⟨rfl, fun h => by cases h⟩)
        (by simp [step, hpc, send, hsocket, hopen])).mono (by decide)

/-- The owner forwards a frame of the channel of its socket. -/
theorem returns_running (C : c.Channels maximum) {id payload : String} {g : ℕ}
    {socket : SocketGeneration} (hpc : (c.calls i).pc = .sending id payload g)
    (hsocket : c.sockets[g]? = some socket) (hlast : g + 1 = c.sockets.length)
    (howner : c.owner = .running) : c.Returns maximum i 4 := by
  have hg : c.sockets.length - 1 = g := by omega
  have hforwarded : (c.setRunning fun socket =>
      { socket with queue := socket.queue.tail }).sockets[g]? =
      some { socket with queue := socket.queue.tail } := by
    simp [setRunning, setSocket, hg, hsocket]
  have hroom : socket.queue.tail.length < maximum + 4 := by
    have := C.room g socket hsocket
    rw [List.length_tail]
    omega
  exact (returns_room (c := c.setRunning _) hpc hforwarded fun _ => hroom).cons
    (.owner .forward) (.inr (by simp)) (by simp [step, stepOwner, howner])

theorem returns_sending (C : c.Channels maximum) {id payload : String} {g : ℕ}
    (hpc : (c.calls i).pc = .sending id payload g) : c.Returns maximum i 6 := by
  obtain ⟨socket, hsocket⟩ : ∃ socket, c.sockets[g]? = some socket :=
    ⟨_, List.getElem?_eq_getElem (C.sending i id payload g hpc)⟩
  by_cases hfull : socket.receiving = true ∧ maximum + 4 ≤ socket.queue.length
  · obtain ⟨hlast, hruns⟩ := C.running g socket hsocket hfull.1
    have hrunning : ∀ d : ConnectionInner, d.Channels maximum → d.owner = .running →
        d.sockets = c.sockets → d.calls = c.calls → d.Returns maximum i 4 := by
      intro d D howner hsockets hcalls
      have hpc' : (d.calls i).pc = .sending id payload g := by rw [hcalls]; exact hpc
      have hsocket' : d.sockets[g]? = some socket := by rw [hsockets]; exact hsocket
      exact returns_running D hpc' hsocket' (by rw [hsockets]; exact hlast) howner
    cases howner : c.owner with
    | running => exact (hrunning c C howner rfl rfl).mono (by decide)
    | greeting =>
        have hstep : c.step maximum (.owner .helloSent) =
            some { c with status := .syncing, owner := .running } := by
          simp [step, stepOwner, howner]
        exact ((hrunning _ (C.step hstep) rfl rfl rfl).cons (.owner .helloSent)
          (.inr (by simp)) hstep).mono (by decide)
    | opened =>
        have hstep : c.step maximum (.owner .publishReady) =
            some { c with status := .ready, owner := .greeting } := by
          simp [step, stepOwner, howner]
        have hnext : step maximum { c with status := .ready, owner := .greeting }
            (.owner .helloSent) = some { c with status := .syncing, owner := .running } := rfl
        exact ((hrunning _ ((C.step hstep).step hnext) rfl rfl rfl).cons (.owner .helloSent)
          (.inr (by simp)) hnext).cons (.owner .publishReady) (.inr (by simp)) hstep
    | _ => rw [howner] at hruns; cases hruns
  · have hroom : socket.receiving = true → socket.queue.length < maximum + 4 := by
      intro hopen
      by_contra hlong
      exact hfull ⟨hopen, Nat.not_lt.mp hlong⟩
    exact (returns_room hpc hsocket hroom).mono (by decide)

/-- **Every call under way can return.** -/
theorem Channels.returns (C : c.Channels maximum) (i : ℕ)
    (h : (c.calls i).pc.underWay = true) : c.Returns maximum i 9 := by
  have hinserted : ∀ d : ConnectionInner, d.Channels maximum → ∀ id payload,
      (d.calls i).pc = .inserted id payload → d.Returns maximum i 7 := by
    intro d D id payload hpc
    have hstep : d.step maximum (.cloneOutbound i) = some (d.cloneOutbound i id payload) := by
      simp [ConnectionInner.step, hpc]
    have D' := D.step hstep
    refine Returns.cons (n := 6) ?_ (.cloneOutbound i) (.inl ⟨rfl, fun h => by cases h⟩) hstep
    unfold ConnectionInner.cloneOutbound at D' ⊢
    cases houtbound : d.outbound with
    | some g =>
        simp only [houtbound] at D' ⊢
        exact returns_sending D' (pc_goto_self _ _ _)
    | none => exact (returns_leaving (pc_goto_self _ _ _)).mono (by decide)
  have hencoded : ∀ d : ConnectionInner, d.Channels maximum → ∀ id payload,
      (d.calls i).pc = .encoded id payload → d.Returns maximum i 8 := by
    intro d D id payload hpc
    have hstep : d.step maximum (.insert i) = some (d.insert maximum i id payload) := by
      simp [ConnectionInner.step, hpc]
    have D' := D.step hstep
    refine Returns.cons (n := 7) ?_ (.insert i) (.inl ⟨rfl, fun h => by cases h⟩) hstep
    unfold ConnectionInner.insert at D' ⊢
    split
    · exact returns_zero (pc_goto_self _ _ _) 7
    case isFalse hroom =>
      rw [if_neg hroom] at D'
      exact hinserted _ D' id payload (pc_goto_self _ _ _)
  cases hpc : (c.calls i).pc with
  | checked =>
      have hstep : c.step maximum (.encode i 0) = some (c.encode i 0) := by
        simp [ConnectionInner.step, hpc]
      have C' := C.step hstep
      refine Returns.cons (n := 8) ?_ (.encode i 0) (.inl ⟨rfl, fun h => by cases h⟩) hstep
      unfold ConnectionInner.encode at C' ⊢
      dsimp only at C' ⊢
      cases hencode : (c.calls i).encodeJson (requestId 0 (c.sequence + 1)) with
      | ok payload =>
          simp only [hencode] at C' ⊢
          exact hencoded _ C' _ _ (pc_goto_self _ _ _)
      | error detail => exact returns_zero (pc_goto_self _ _ _) 8
  | encoded id payload => exact (hencoded c C id payload hpc).mono (by decide)
  | inserted id payload => exact (hinserted c C id payload hpc).mono (by decide)
  | sending id payload g => exact (returns_sending C hpc).mono (by decide)
  | waiting id => exact (returns_waiting hpc).mono (by decide)
  | leaving id result => exact (returns_leaving hpc).mono (by decide)
  | idle | returned | dropped => rw [hpc] at h; cases h

end ConnectionInner

/-- A channel for one waiter that is full: the owner forwards a frame, and the call
goes on. -/
def fullChannel : List CommandAction :=
  goLive (sampleReady 1) ++ ((List.range 5).flatMap fun i =>
      [.check i .presenceSet .ok, .encode i 0, .insert i, .cloneOutbound i, .send i, .drop i]) ++
    [.check 5 .presenceSet .ok, .encode 5 0, .insert 5, .cloneOutbound 5]

end ZephyrVox.Realtime
