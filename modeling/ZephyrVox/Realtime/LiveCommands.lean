import ZephyrVox.Realtime.Correlation

/-!
# Presence commands and live sockets

`set_presence` checks that the connection is live, and takes the outbound sender some
steps later. In between the socket may be lost and another one opened, whose sender is
installed before it has replayed anything. As long as no call takes the sender of a socket
that was opened since its check and is not live yet, every presence frame goes to a socket
that has been live.

## Main definitions

* `ConnectionInner.IsLive` — a socket has published `Live`.
* `ConnectionInner.KeepsSocket` — the sender a call takes is the one it checked for.
* `ConnectionInner.PresenceSound` — what holds of presence commands then.
* `presence_reaches_live_sockets` — it holds in every run of such steps.
-/

namespace ZephyrVox.Realtime

open Transition

/-- Whether a call has passed its status check and has no sender yet. -/
def CallPc.seeksSocket : CallPc → Bool
  | .checked | .encoded _ _ | .inserted _ _ => true
  | _ => false

/-- Whether a call may have handed its frame over. -/
def CallPc.hasSent : CallPc → Bool
  | .idle | .checked | .encoded _ _ | .inserted _ _ | .sending _ _ _ => false
  | _ => true

/-- Whether the owner has a socket. -/
def OwnerPc.runs : OwnerPc → Bool
  | .opened | .greeting | .running => true
  | _ => false

namespace ConnectionInner

variable {maximum : ℕ} {c c' : ConnectionInner} {i : ℕ}

/-- The socket has published `Live`. -/
def IsLive (c : ConnectionInner) (g : ℕ) : Prop :=
  ∃ socket, c.sockets[g]? = some socket ∧ socket.live = true

instance (c : ConnectionInner) (g : ℕ) : Decidable (c.IsLive g) :=
  decidable_of_iff (c.sockets[g]?.any SocketGeneration.live = true) (by
    simp [IsLive, Option.any_eq_true])

theorem IsLive.lt {g : ℕ} (h : c.IsLive g) : g < c.sockets.length := by
  obtain ⟨socket, hsocket, -⟩ := h
  exact (List.getElem?_eq_some_iff.mp hsocket).1

/-- If a socket was opened since the call checked the status, and the call takes its
sender, then it is live already. -/
def KeepsSocket (c : ConnectionInner) (a : CommandAction) : Prop :=
  ∀ i g, a = .cloneOutbound i → (c.calls i).command = .presenceSet → c.outbound = some g →
    (c.calls i).checkedAt ≤ g → c.IsLive g

/-- The refusals of a call that handed nothing over. -/
def Refusal (result : Except RealtimeError CommandAck) : Prop :=
  result = .error .notLive ∨ result = .error .closed ∨
    result = .error (.protocol "pending command capacity is full") ∨
    ∃ detail, result = .error (.json detail)

/-- What holds of the presence commands of a connection. -/
structure PresenceSound (c : ConnectionInner) : Prop where
  /-- Frames are handed to sockets that have been live. -/
  live : ∀ i g, (i, g) ∈ c.handed → (c.calls i).command = .presenceSet → c.IsLive g
  /-- A call that returns `NotLive` has handed nothing over. -/
  notLive : ∀ i id g, (c.calls i).pc = .returned id (.error .notLive) → (i, g) ∉ c.handed
  /-- A call that handed nothing over was refused. -/
  refused : ∀ i id result, (c.calls i).pc = .returned id result → (∀ g, (i, g) ∉ c.handed) →
    Refusal result

/-! ## Sockets -/

/-- Which sockets have been live is never forgotten. -/
def LiveKept (c c' : ConnectionInner) : Prop := ∀ g, c.IsLive g → c'.IsLive g

theorem liveKept_of_eq (h : c'.sockets = c.sockets) : LiveKept c c' := by
  intro g hg
  unfold IsLive at hg ⊢
  rwa [h]

theorem liveKept_setSocket (c : ConnectionInner) (g : ℕ)
    {change : SocketGeneration → SocketGeneration}
    (hchange : ∀ socket, socket.live = true → (change socket).live = true) :
    LiveKept c (c.setSocket g change) := by
  rintro g' ⟨socket, hsocket, hlive⟩
  by_cases hg : g' = g
  · subst hg
    exact ⟨change socket, by simp [setSocket, hsocket], hchange socket hlive⟩
  · refine ⟨socket, ?_, hlive⟩
    simp only [setSocket]
    rw [List.getElem?_modify_ne _ _ (Ne.symm hg)]
    exact hsocket

theorem liveKept_install (c : ConnectionInner) (ready : ConnectionReady) :
    LiveKept c (c.install ready) := by
  rintro g ⟨socket, hsocket, hlive⟩
  refine ⟨socket, ?_, hlive⟩
  have hlt : g < c.sockets.length := (List.getElem?_eq_some_iff.mp hsocket).1
  simp only [install]
  rw [List.getElem?_append_left hlt]
  exact hsocket

/-! ## The invariant -/

/-- What a call may rely on, and what it has done. -/
structure CallSockets (c : ConnectionInner) (i : ℕ) (call : Call) : Prop where
  /-- The last socket that was open at the check has been live. -/
  checked : call.pc.seeksSocket = true → call.command = .presenceSet →
    ∃ g, g + 1 = call.checkedAt ∧ c.IsLive g
  sending : ∀ id payload g, call.pc = .sending id payload g → call.command = .presenceSet →
    c.IsLive g
  live : ∀ g, (i, g) ∈ c.handed → call.command = .presenceSet → c.IsLive g
  unhanded : call.pc.hasSent = false → ∀ g, (i, g) ∉ c.handed
  handed : ∀ id, call.pc = .waiting id → ∃ g, (i, g) ∈ c.handed
  reply : call.reply ≠ some (.error .notLive)
  notLive : call.pc.result = some (.error .notLive) → ∀ g, (i, g) ∉ c.handed
  refused : ∀ result, call.pc.result = some result → (∀ g, (i, g) ∉ c.handed) → Refusal result

/-- The invariant of the sockets and the calls. -/
structure Presence (c : ConnectionInner) : Prop where
  outbound : ∀ g, c.outbound = some g → g + 1 = c.sockets.length
  status : c.status = .live → ∃ g, g + 1 = c.sockets.length ∧ c.IsLive g
  dialing : c.owner = .dialing → c.status ≠ .live
  opened : c.owner.runs = true → 0 < c.sockets.length
  calls : ∀ i, c.CallSockets i (c.calls i)

theorem presence_new : new.Presence where
  outbound _ h := by cases h
  status h := by cases h
  dialing h := by cases h
  opened h := by cases h
  calls i := by
    constructor
    · intro h
      cases h
    · intro id payload g h
      cases h
    · intro g h
      cases h
    · intro _ g h
      cases h
    · intro id h
      cases h
    · intro h
      cases h
    · intro h
      cases h
    · intro result h
      cases h

/-- A call is not affected by the steps of others. -/
theorem CallSockets.mono {call : Call} (H : c.CallSockets i call) (hlive : LiveKept c c')
    (hhanded : ∀ g, (i, g) ∈ c'.handed ↔ (i, g) ∈ c.handed) : c'.CallSockets i call where
  checked hseeks hpresence := by
    obtain ⟨g, hg, hsocket⟩ := H.checked hseeks hpresence
    exact ⟨g, hg, hlive g hsocket⟩
  sending id payload g hpc hpresence := hlive g (H.sending id payload g hpc hpresence)
  live g hg hpresence := hlive g (H.live g ((hhanded g).mp hg) hpresence)
  unhanded hpc g hg := H.unhanded hpc g ((hhanded g).mp hg)
  handed id hpc := by
    obtain ⟨g, hg⟩ := H.handed id hpc
    exact ⟨g, (hhanded g).mpr hg⟩
  reply := H.reply
  notLive hresult g hg := H.notLive hresult g ((hhanded g).mp hg)
  refused result hresult hnone :=
    H.refused result hresult fun g hg => hnone g ((hhanded g).mpr hg)

/-- A result that a waiter receives. -/
theorem CallSockets.setReply {call : Call} (H : c.CallSockets i call)
    {result : Except RealtimeError CommandAck} (hresult : result ≠ .error .notLive) :
    c.CallSockets i { call with reply := some result } where
  checked := H.checked
  sending := H.sending
  live := H.live
  unhanded := H.unhanded
  handed := H.handed
  reply h := hresult (Option.some.inj h)
  notLive := H.notLive
  refused := H.refused

/-- **A step of one call** that hands nothing over. -/
theorem Presence.goto (H : c.Presence) {pc : CallPc}
    (hcall : c.CallSockets i { c.calls i with pc := pc }) : (c.goto i pc).Presence where
  outbound := H.outbound
  status := H.status
  dialing := H.dialing
  opened := H.opened
  calls j := by
    by_cases hj : j = i
    · subst hj
      simp only [ConnectionInner.goto, calls_setCall_self]
      exact hcall.mono (liveKept_of_eq rfl) fun _ => Iff.rfl
    · simp only [ConnectionInner.goto]
      rw [calls_setCall_of_ne hj]
      exact (H.calls j).mono (liveKept_of_eq rfl) fun _ => Iff.rfl

/-- The waiters and the sequence number do not matter. -/
theorem Presence.of_eq (H : c.Presence) (hcalls : c'.calls = c.calls)
    (hsockets : c'.sockets = c.sockets) (hhanded : c'.handed = c.handed)
    (houtbound : c'.outbound = c.outbound) (hstatus : c'.status = c.status)
    (howner : c'.owner = c.owner) : c'.Presence where
  outbound := by rw [houtbound, hsockets]; exact H.outbound
  status h := by
    obtain ⟨g, hg, hlive⟩ := H.status (hstatus ▸ h)
    exact ⟨g, by rw [hsockets]; exact hg, liveKept_of_eq hsockets g hlive⟩
  dialing h := by rw [hstatus]; exact H.dialing (howner ▸ h)
  opened h := by rw [hsockets]; exact H.opened (howner ▸ h)
  calls i := by
    rw [hcalls]
    exact (H.calls i).mono (liveKept_of_eq hsockets) fun g => by rw [hhanded]

/-- The calls of a connection after a step of the owner. -/
theorem Presence.calls_kept (H : c.Presence) (hlive : LiveKept c c') (hcalls : c'.calls = c.calls)
    (hhanded : c'.handed = c.handed) (i : ℕ) : c'.CallSockets i (c'.calls i) := by
  rw [hcalls]
  exact (H.calls i).mono hlive fun g => by rw [hhanded]

/-- A call that has handed nothing over goes to a counter with a refusal, or to one that
has sent nothing. -/
theorem CallSockets.goto_unhanded {call : Call} (H : c.CallSockets i call)
    (hunhanded : call.pc.hasSent = false) {pc : CallPc}
    (hseeks : pc.seeksSocket = true → call.pc.seeksSocket = true)
    (hsending : ∀ id payload g, pc = .sending id payload g → call.command = .presenceSet →
      c.IsLive g)
    (hwaiting : ∀ id, pc ≠ .waiting id)
    (hrefused : ∀ result, pc.result = some result → Refusal result) :
    c.CallSockets i { call with pc := pc } where
  checked h := H.checked (hseeks h)
  sending := hsending
  live := H.live
  unhanded _ := H.unhanded hunhanded
  handed id h := absurd h (hwaiting id)
  reply := H.reply
  notLive _ := H.unhanded hunhanded
  refused result h _ := hrefused result h

/-! ## One step -/

theorem presence_check (H : c.Presence) (hpc : (c.calls i).pc = .idle) (command : Command)
    (encodeJson : String → Except String String) :
    (c.check i command encodeJson).Presence where
  outbound := H.outbound
  status := H.status
  dialing := H.dialing
  opened := H.opened
  calls j := by
    by_cases hj : j = i
    swap
    · simp only [check]
      rw [calls_setCall_of_ne hj]
      exact (H.calls j).mono (liveKept_of_eq rfl) fun _ => Iff.rfl
    subst hj
    have hcall := H.calls j
    have hnone : ∀ g, (j, g) ∉ c.handed := hcall.unhanded (by rw [hpc]; rfl)
    simp only [check, calls_setCall_self]
    constructor
    · intro hseeks hpresence
      dsimp only at hseeks hpresence ⊢
      -- a presence command passes the check only while the status is live
      cases hallows : allows c.status command with
      | false => simp [hallows, CallPc.seeksSocket] at hseeks
      | true =>
          have hlive : c.status = .live := by
            simpa [allows, hpresence, Command.allowBeforeLive] using hallows
          exact H.status hlive
    · intro id payload g h
      dsimp only at h
      split at h <;> cases h
    · exact fun g hg => absurd hg (hnone g)
    · exact fun _ => hnone
    · intro id h
      dsimp only at h
      split at h <;> cases h
    · exact hcall.reply
    · exact fun _ => hnone
    · intro result h _
      dsimp only at h
      split at h
      · cases h
      · cases h
        exact .inl rfl

theorem presence_encode (H : c.Presence) (hpc : (c.calls i).pc = .checked) (millis : ℕ) :
    (c.encode i millis).Presence := by
  have hcounted : ({ c with sequence := c.sequence + 1 } : ConnectionInner).Presence :=
    H.of_eq rfl rfl rfl rfl rfl rfl
  refine hcounted.goto ((hcounted.calls i).goto_unhanded (congrArg CallPc.hasSent hpc) ?_ ?_ ?_ ?_)
  · exact fun _ => congrArg CallPc.seeksSocket hpc
  · intro id payload g h
    split at h <;> cases h
  · intro id h
    split at h <;> cases h
  · intro result h
    split at h
    · cases h
    · cases h
      exact .inr (.inr (.inr ⟨_, rfl⟩))

theorem presence_insert (H : c.Presence) {id payload : String}
    (hpc : (c.calls i).pc = .encoded id payload) :
    (c.insert maximum i id payload).Presence := by
  unfold insert
  split
  · refine H.goto ((H.calls i).goto_unhanded (congrArg CallPc.hasSent hpc) ?_ ?_ ?_ ?_)
    · exact fun h => by cases h
    · exact fun _ _ _ h => by cases h
    · exact fun _ h => by cases h
    · intro result h
      cases h
      exact .inr (.inr (.inl rfl))
  · have hpending : ({ c with pending := (id, i) :: (c.removePending id).pending } :
        ConnectionInner).Presence := H.of_eq rfl rfl rfl rfl rfl rfl
    refine hpending.goto
      ((hpending.calls i).goto_unhanded (congrArg CallPc.hasSent hpc) ?_ ?_ ?_ ?_)
    · exact fun _ => congrArg CallPc.seeksSocket hpc
    · exact fun _ _ _ h => by cases h
    · exact fun _ h => by cases h
    · exact fun _ h => by cases h

theorem presence_cloneOutbound (H : c.Presence) {id payload : String}
    (hpc : (c.calls i).pc = .inserted id payload) (hkeeps : c.KeepsSocket (.cloneOutbound i)) :
    (c.cloneOutbound i id payload).Presence := by
  unfold cloneOutbound
  split
  case h_1 g hout =>
    refine H.goto ((H.calls i).goto_unhanded (congrArg CallPc.hasSent hpc) ?_ ?_ ?_ ?_)
    · exact fun h => by cases h
    · intro id' payload' g' h hpresence
      cases h
      by_cases hlater : (c.calls i).checkedAt ≤ g
      · exact hkeeps i g rfl hpresence hout hlater
      · -- no socket was opened since the check
        obtain ⟨g', hg', hlive⟩ := (H.calls i).checked (by rw [hpc]; rfl) hpresence
        have hlast := H.outbound g hout
        have hlt := hlive.lt
        obtain rfl : g' = g := by omega
        exact hlive
    · exact fun _ h => by cases h
    · exact fun _ h => by cases h
  case h_2 =>
    refine H.goto ((H.calls i).goto_unhanded (congrArg CallPc.hasSent hpc) ?_ ?_ ?_ ?_)
    · exact fun h => by cases h
    · exact fun _ _ _ h => by cases h
    · exact fun _ h => by cases h
    · intro result h
      cases h
      exact .inl rfl

theorem presence_send (H : c.Presence) {id payload : String} {g : ℕ}
    (hpc : (c.calls i).pc = .sending id payload g) (h : c.send maximum i id payload g = some c') :
    c'.Presence := by
  unfold send at h
  split at h
  · cases h
  · split at h
    · split at h
      · cases h
        have hlive : LiveKept c (c.setSocket g fun socket =>
            { socket with queue := socket.queue ++ [payload] }) :=
          liveKept_setSocket c g fun socket hsocket => hsocket
        have hlength : (c.sockets.modify g fun socket =>
            { socket with queue := socket.queue ++ [payload] }).length = c.sockets.length :=
          List.length_modify _ _ _
        have hcall := H.calls i
        refine ⟨?_, ?_, H.dialing, ?_, fun j => ?_⟩
        · intro g' hg'
          simp only [goto, setCall, setSocket, hlength] at hg' ⊢
          exact H.outbound g' hg'
        · intro hstatus
          obtain ⟨g', hg', hsocket⟩ := H.status hstatus
          refine ⟨g', ?_, hlive g' hsocket⟩
          simp only [goto, setCall, setSocket, hlength]
          exact hg'
        · intro howner
          simp only [goto, setCall, setSocket, hlength] at howner ⊢
          exact H.opened howner
        · by_cases hj : j = i
          · subst hj
            simp only [goto, calls_setCall_self]
            refine ⟨(fun h => by cases h), (fun _ _ _ h => by cases h), ?_, (fun h => by cases h),
              fun _ _ => ⟨g, List.mem_append_right _ List.mem_cons_self⟩, hcall.reply,
              (fun h => by cases h), fun _ h => by cases h⟩
            intro g' hg' hpresence
            rcases List.mem_append.mp hg' with hg' | hg'
            · exact absurd hg' (hcall.unhanded (by rw [hpc]; rfl) g')
            · obtain rfl : g' = g := by simpa using hg'
              exact hlive g' (hcall.sending id payload g' hpc hpresence)
          · simp only [goto]
            rw [calls_setCall_of_ne hj]
            refine (H.calls j).mono hlive fun g' => ?_
            show (j, g') ∈ c.handed ++ [(i, g)] ↔ (j, g') ∈ c.handed
            simp [hj]
      · cases h
    · cases h
      refine H.goto ((H.calls i).goto_unhanded (congrArg CallPc.hasSent hpc) ?_ ?_ ?_ ?_)
      · exact fun h => by cases h
      · exact fun _ _ _ h => by cases h
      · exact fun _ h => by cases h
      · intro result h
        cases h
        exact .inr (.inl rfl)

/-- A call whose frame was handed over gets its result. -/
theorem CallSockets.leaves {call : Call} (H : c.CallSockets i call) {id : String}
    (hpc : call.pc = .waiting id) {result : Except RealtimeError CommandAck}
    (hresult : result ≠ .error .notLive) :
    c.CallSockets i { call with pc := .leaving id result } where
  checked h := by cases h
  sending _ _ _ h := by cases h
  live := H.live
  unhanded h := by cases h
  handed _ h := by cases h
  reply := H.reply
  notLive h := absurd (Option.some.inj h) hresult
  refused _ _ hnone := by
    obtain ⟨g, hg⟩ := H.handed id hpc
    exact absurd hg (hnone g)

theorem presence_receive (H : c.Presence) {id : String} (hpc : (c.calls i).pc = .waiting id)
    (h : c.receive i id = some c') : c'.Presence := by
  unfold receive at h
  split at h
  case h_1 result hreply =>
    cases h
    refine H.goto ((H.calls i).leaves hpc fun heq => (H.calls i).reply ?_)
    rw [hreply, heq]
  case h_2 =>
    split at h
    · cases h
    · cases h
      exact H.goto ((H.calls i).leaves hpc fun heq => by cases heq)

/-- The guard of a call is dropped. -/
theorem presence_leaves (H : c.Presence) {id : String} {pc : CallPc}
    (hseeks : pc.seeksSocket = false) (hsent : pc.hasSent = true)
    (hcounter : ∀ id payload g, pc ≠ .sending id payload g) (hwaiting : ∀ id, pc ≠ .waiting id)
    (hresult : ∀ result, pc.result = some result → (c.calls i).pc.result = some result) :
    ((c.removePending id).goto i pc).Presence := by
  have hremoved : (c.removePending id).Presence := H.of_eq rfl rfl rfl rfl rfl rfl
  have hcall := hremoved.calls i
  refine hremoved.goto ⟨?_, ?_, hcall.live, ?_, ?_, hcall.reply, ?_, ?_⟩
  · exact fun h => by rw [hseeks] at h; cases h
  · exact fun id' payload g h => absurd h (hcounter id' payload g)
  · exact fun h => by rw [hsent] at h; cases h
  · exact fun id' h => absurd h (hwaiting id')
  · exact fun h => hcall.notLive (hresult _ h)
  · exact fun result h => hcall.refused result (hresult result h)

/-! ## The owner -/

theorem presence_respond (H : c.Presence) (response : CommandResponse) :
    (c.respond response).Presence := by
  have hserved : response.result ≠ .error .notLive := by
    cases response with
    | commandOk ack => exact fun h => by cases h
    | commandError error => exact fun h => by cases h
  unfold respond resolvePending
  split
  case h_1 => exact H.of_eq rfl rfl rfl rfl rfl rfl
  case h_2 i hwaiter =>
    refine ⟨H.outbound, H.status, H.dialing, H.opened, fun j => ?_⟩
    by_cases hj : j = i
    · subst hj
      rw [calls_setCall_self]
      exact ((H.calls j).setReply hserved).mono (liveKept_of_eq rfl) fun _ => Iff.rfl
    · rw [calls_setCall_of_ne hj]
      exact (H.calls j).mono (liveKept_of_eq rfl) fun _ => Iff.rfl

theorem presence_drainPending (H : c.Presence) : c.drainPending.Presence := by
  have hclosed : (.error .closed : Except RealtimeError CommandAck) ≠ .error .notLive :=
    fun h => by cases h
  refine ⟨H.outbound, H.status, H.dialing, H.opened, fun i => ?_⟩
  simp only [drainPending]
  split
  · exact ((H.calls i).setReply hclosed).mono (liveKept_of_eq rfl) fun _ => Iff.rfl
  · exact (H.calls i).mono (liveKept_of_eq rfl) fun _ => Iff.rfl

/-- The owner changes the socket that it runs, and goes on. -/
theorem presence_setRunning (H : c.Presence) {change : SocketGeneration → SocketGeneration}
    (hsockets : c'.sockets = (c.setRunning change).sockets)
    (hchange : ∀ socket, socket.live = true → (change socket).live = true)
    (hcalls : c'.calls = c.calls)
    (hhanded : c'.handed = c.handed) (houtbound : c'.outbound = c.outbound)
    (hstatus : c'.status = .live → c.status = .live ∨ c'.IsLive (c.sockets.length - 1))
    (hrunning : c.owner.runs = true) (howner : c'.owner ≠ .dialing) : c'.Presence := by
  have hlive : LiveKept c c' := by
    intro g hg
    have hset := liveKept_setSocket c (c.sockets.length - 1) hchange g hg
    exact liveKept_of_eq hsockets g hset
  have hlength : c'.sockets.length = c.sockets.length := by
    rw [hsockets]
    exact List.length_modify _ _ _
  have hpos := H.opened hrunning
  refine ⟨?_, fun h => ?_, fun h => absurd h howner, fun _ => hlength ▸ hpos,
    H.calls_kept hlive hcalls hhanded⟩
  · rw [houtbound, hlength]
    exact H.outbound
  · rcases hstatus h with hbefore | hnow
    · obtain ⟨g, hg, hsocket⟩ := H.status hbefore
      exact ⟨g, hlength ▸ hg, hlive g hsocket⟩
    · exact ⟨c.sockets.length - 1, by omega, hnow⟩

/-- A step of the owner that changes no socket. -/
theorem presence_owner (H : c.Presence) (hsockets : c'.sockets = c.sockets)
    (hcalls : c'.calls = c.calls) (hhanded : c'.handed = c.handed)
    (houtbound : c'.outbound = c.outbound ∨ c'.outbound = none)
    (hstatus : c'.status = .live → c.status = .live)
    (hdialing : c'.owner = .dialing → c'.status ≠ .live)
    (hopened : c'.owner.runs = true → c.owner.runs = true) : c'.Presence := by
  refine ⟨fun g hg => ?_, fun h => ?_, hdialing, fun h => ?_,
    H.calls_kept (liveKept_of_eq hsockets) hcalls hhanded⟩
  · rw [hsockets]
    rcases houtbound with hsame | hnone
    · exact H.outbound g (hsame ▸ hg)
    · rw [hnone] at hg
      cases hg
  · obtain ⟨g, hg, hlive⟩ := H.status (hstatus h)
    exact ⟨g, by rw [hsockets]; exact hg, liveKept_of_eq hsockets g hlive⟩
  · rw [hsockets]
    exact H.opened (hopened h)

/-- The sender of a new socket is installed, while the status is not live. -/
theorem presence_install (H : c.Presence) (howner : c.owner = .dialing)
    (ready : ConnectionReady) :
    ({ c.install ready with owner := .opened } : ConnectionInner).Presence := by
  have hlive : LiveKept c { c.install ready with owner := .opened } :=
    fun g hg => liveKept_of_eq rfl g (liveKept_install c ready g hg)
  refine ⟨fun g hg => ?_, fun h => absurd h (H.dialing howner), (fun h => by cases h), fun _ => ?_,
    H.calls_kept hlive rfl rfl⟩
  · obtain rfl : c.sockets.length = g := Option.some.inj hg
    simp [install]
  · simp [install]

theorem presence_stepOwner (H : c.Presence) {a : OwnerAction} (h : c.stepOwner a = some c') :
    c'.Presence := by
  cases a with
  | ready ready =>
      simp only [stepOwner] at h
      split at h
      case h_1 howner => cases h; exact presence_install H howner ready
      case h_2 => cases h
  | publishLive =>
      simp only [stepOwner] at h
      split at h
      case h_1 howner =>
        cases h
        have hpos := H.opened (by rw [howner]; rfl)
        refine presence_setRunning H rfl (fun _ _ => rfl) rfl rfl rfl (fun _ => .inr ?_)
          (by rw [howner]; rfl) ?_
        · obtain ⟨socket, hsocket⟩ : ∃ socket, c.sockets[c.sockets.length - 1]? = some socket :=
            ⟨c.sockets[c.sockets.length - 1], List.getElem?_eq_getElem (by omega)⟩
          exact ⟨{ socket with live := true }, by simp [setRunning, setSocket, hsocket], rfl⟩
        · simp only [setRunning, setSocket, howner]
          exact fun h => by cases h
      case h_2 => cases h
  | forward =>
      simp only [stepOwner] at h
      split at h
      case h_1 howner =>
        cases h
        refine presence_setRunning H rfl (fun _ h => h) rfl rfl rfl .inl (by rw [howner]; rfl) ?_
        simp only [setRunning, setSocket, howner]
        exact fun h => by cases h
      case h_2 => cases h
  | lost =>
      simp only [stepOwner] at h
      split at h
      case h_1 howner =>
        cases h
        exact presence_owner H rfl rfl rfl (.inl rfl) id (fun h => by cases h)
          (fun h => by cases h)
      case h_2 howner | h_3 howner =>
        cases h
        exact presence_setRunning H rfl (fun _ h => h) rfl rfl rfl .inl (by rw [howner]; rfl)
          fun h => by cases h
      case h_4 => cases h
  | respond response =>
      simp only [stepOwner] at h
      split at h
      case h_1 => cases h; exact presence_respond H response
      case h_2 => cases h
  | drainPending =>
      simp only [stepOwner] at h
      split at h
      case h_1 howner =>
        cases h
        exact presence_owner (presence_drainPending H) rfl rfl rfl (.inl rfl) id
          (fun h => by cases h) (fun h => by cases h)
      case h_2 => cases h
  | clearOutbound =>
      simp only [stepOwner] at h
      split at h
      case h_1 howner =>
        cases h
        exact presence_owner H rfl rfl rfl (.inr rfl) id (fun h => by cases h)
          (fun h => by cases h)
      case h_2 => cases h
  | connect =>
      simp only [stepOwner] at h
      split at h
      case h_1 howner =>
        cases h
        have hstatus : (if c.attempt = 0 then ConnectionStatus.connecting else .reconnecting) ≠
            .live := by
          split <;> exact fun h => by cases h
        exact presence_owner H rfl rfl rfl (.inl rfl) (fun h => absurd h hstatus)
          (fun _ => hstatus) (fun h => by cases h)
      case h_2 => cases h
  | publishReady | helloSent =>
      simp only [stepOwner] at h
      split at h
      case h_1 howner =>
        cases h
        exact presence_owner H rfl rfl rfl (.inl rfl) (fun h => by cases h) (fun h => by cases h)
          (fun _ => by rw [howner]; rfl)
      case h_2 => cases h
  | publishSyncing =>
      simp only [stepOwner] at h
      split at h
      case h_1 howner =>
        cases h
        exact presence_owner H rfl rfl rfl (.inl rfl) (fun h => by cases h)
          (fun h => by rw [howner] at h; cases h) id
      case h_2 => cases h
  | tokenFailed | publishClosed =>
      simp only [stepOwner] at h
      split at h
      case h_1 howner =>
        cases h
        exact presence_owner H rfl rfl rfl (.inl rfl) (fun h => by cases h) (fun h => by cases h)
          (fun h => by cases h)
      case h_2 => cases h
  | retry =>
      simp only [stepOwner] at h
      split at h
      case h_1 howner =>
        cases h
        exact presence_owner H rfl rfl rfl (.inl rfl) (fun h => by cases h) (fun h => by cases h)
          (fun h => by cases h)
      case h_2 howner =>
        cases h
        exact presence_owner H rfl rfl rfl (.inl rfl) id (fun h => by cases h)
          (fun h => by cases h)
      case h_3 => cases h
  | leaveLoop =>
      simp only [stepOwner] at h
      split at h
      case h_5 => cases h
      all_goals
        cases h
        exact presence_owner H rfl rfl rfl (.inl rfl) id (fun h => by cases h)
          (fun h => by cases h)

/-- **A step that keeps to the checked sockets keeps the invariant.** -/
theorem presence_step (H : c.Presence) {a : CommandAction} (hkeeps : c.KeepsSocket a)
    (h : c.step maximum a = some c') : c'.Presence := by
  cases step_moves h with
  | check command encodeJson hpc => exact presence_check H hpc command encodeJson
  | encode millis hpc => exact presence_encode H hpc millis
  | insert hpc => exact presence_insert H hpc
  | cloneOutbound hpc => exact presence_cloneOutbound H hpc hkeeps
  | send hpc hsend => exact presence_send H hpc hsend
  | receive hpc hreceive => exact presence_receive H hpc hreceive
  | timeout hpc => exact H.goto ((H.calls _).leaves hpc fun heq => by cases heq)
  | leave hpc =>
      refine presence_leaves H rfl rfl (fun _ _ _ h => by cases h) (fun _ h => by cases h)
        fun result' h => ?_
      cases h
      rw [hpc]
      rfl
  | drop hguards =>
      exact presence_leaves H rfl rfl (fun _ _ _ h => by cases h) (fun _ h => by cases h)
        fun result' h => by cases h
  | owner howner => exact presence_stepOwner H howner

/-- What the invariant says of presence commands. -/
theorem Presence.presenceSound (H : c.Presence) : c.PresenceSound where
  live i g hg hpresence := (H.calls i).live g hg hpresence
  notLive i id g hpc := (H.calls i).notLive (by rw [hpc]; rfl) g
  refused i id result hpc hnone := (H.calls i).refused result (by rw [hpc]; rfl) hnone

end ConnectionInner

/-- **Presence commands reach live sockets only**, as long as no call takes the sender of
a socket that was opened since its status check and is not live yet. -/
theorem presence_reaches_live_sockets (maximum : ℕ) (actions : List CommandAction)
    (hkeeps : Along (ConnectionInner.step maximum) ConnectionInner.KeepsSocket .new actions)
    (c : ConnectionInner)
    (h : exec (ConnectionInner.step maximum) .new actions = some c) : c.PresenceSound :=
  (invariant_along (fun _ _ _ H hkeep hstep => ConnectionInner.presence_step H hkeep hstep)
    ConnectionInner.presence_new hkeeps h).presenceSound

/-- A test for the condition of a step. -/
def ConnectionInner.checkSocket (c : ConnectionInner) : CommandAction → Bool
  | .cloneOutbound i =>
      (c.calls i).command ≠ .presenceSet ||
        c.outbound.all fun g => g < (c.calls i).checkedAt || decide (c.IsLive g)
  | _ => true

theorem ConnectionInner.keepsSocket_of_check (c : ConnectionInner) (a : CommandAction)
    (h : c.checkSocket a = true) : c.KeepsSocket a := by
  rintro i g rfl hpresence hout hlater
  simp only [checkSocket, hpresence, hout, ne_eq, not_true_eq_false, decide_false, Option.all_some,
    Bool.false_or, Bool.or_eq_true, decide_eq_true_eq] at h
  rcases h with hearlier | hlive
  · omega
  · exact hlive

/-- A socket is lost while a call is about to take its sender. -/
def lostBeforeClone : List CommandAction :=
  goLive (sampleReady 1) ++ [.check 0 .presenceSet .ok, .encode 0 0, .insert 0, .owner .lost,
    .owner .clearOutbound, .owner .drainPending, .owner .retry, .owner .retry]

/-- The next socket is live before the call takes its sender. -/
theorem presence_reaches_live_sockets_reopened :
    ∃ c, exec (ConnectionInner.step 1) .new (lostBeforeClone ++ goLive (sampleReady 2) ++
        [.cloneOutbound 0, .send 0]) = some c ∧ (0, 1) ∈ c.handed ∧ c.PresenceSound := by
  refine ⟨_, rfl, by decide, presence_reaches_live_sockets 1 (lostBeforeClone ++
    goLive (sampleReady 2) ++ [.cloneOutbound 0, .send 0])
    (along_of_check ConnectionInner.keepsSocket_of_check (by decide +kernel)) _ rfl⟩

/-- The next socket has just been opened: the frame is in its channel before any replay,
and the call returns `Closed`. -/
theorem reconnect_takes_presence :
    ∃ c, exec (ConnectionInner.step 1) .new (lostBeforeClone ++
        [.owner .connect, .owner (.ready (sampleReady 2)), .cloneOutbound 0, .send 0, .receive 0,
          .leave 0]) = some c ∧
      (c.calls 0).command = .presenceSet ∧ (0, 1) ∈ c.handed ∧ ¬ c.IsLive 1 ∧
      (c.calls 0).pc = .returned (some (requestId 0 1)) (.error .closed) := by
  refine ⟨_, rfl, rfl, by decide, by decide, rfl⟩

end ZephyrVox.Realtime
