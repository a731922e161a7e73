import ZephyrVox.Realtime.Socket

/-!
# The reconnecting owner task

One task owns a control connection for its whole life. It opens one socket after
another, runs the frames of each (`Socket.processFrame`), and between two sockets
clears the identity of the lost one and waits. A step of the task goes from one
await point to the next; what it waits for is the input of the step.

## Main definitions

* `Connection V` — the shared state of a control connection and where its task is.
* `Connection.step` — one step of the task.
* `ClientEvent.opens`, `ClientEvent.interrupts` — the events that begin a socket
  and those that announce the loss of one.
* `Connection.Marked` — what the events since a moment at which a socket was open
  say: a later socket is announced by two interruptions.
* `Connection.marked_step` — every step keeps it.
-/

namespace ZephyrVox.Realtime

variable {V : Type}

/-- The diagnostic text of an error. -/
def RealtimeError.display : RealtimeError → String
  | .provider detail => "realtime provider failed: " ++ detail
  | .authenticationRequired => "authentication is required for the realtime connection"
  | .authenticationExpired => "realtime authentication expired"
  | .transport detail => "WebSocket transport failed: " ++ detail
  | .protocol detail => "WebSocket protocol violation: " ++ detail
  | .json detail => "invalid WebSocket JSON: " ++ detail
  | .state error => error.display
  | .sync error => error.display
  | .serverCommand error =>
      "command " ++ error.commandType ++ " failed with code " ++ toString error.code ++ ": " ++
        error.message
  | .notLive => "WebSocket control connection is not live"
  | .commandTimeout => "WebSocket command timed out"
  | .closed => "WebSocket control connection is closed"
  | .revoked reason => "WebSocket connection was revoked: " ++ reason
  | .tlsPinMismatch expected actual =>
      "TLS SPKI fingerprint mismatch: expected " ++ expected ++ ", got " ++ actual
  | .tlsCertificateInvalid => "TLS peer certificate validation failed"
  | .reconnectExhausted => "WebSocket reconnect attempts exhausted"
  | .configuration detail => "invalid realtime configuration: " ++ detail

/-- The errors that stop the task rather than start a reconnect. -/
def terminalError : RealtimeError → Bool
  | .closed | .revoked _ | .protocol _ | .json _ | .sync _ | .configuration _
  | .authenticationRequired | .authenticationExpired | .tlsPinMismatch _ _
  | .tlsCertificateInvalid => true
  | .provider _ | .transport _ | .state _ | .serverCommand _ | .notLive | .commandTimeout
  | .reconnectExhausted => false

/-- The parts of the reconnect policy that decide whether another attempt is
made. How long the task sleeps is left open. -/
structure ReconnectPolicy where
  enabled : Bool
  maximumAttempts : Option ℕ
  deriving DecidableEq, Repr

/-- The await points of the task. -/
inductive EnginePhase
  /-- Scheduled, before the first turn of the loop. -/
  | spawned
  | loadingToken
  | connectingSocket
  | awaitingReady
  | sendingHello
  /-- The frame loop of an open socket. -/
  | running
  | waitingRetry
  | finished
  deriving DecidableEq, Repr

/-- Whether a socket is between its `connection.ready` and its end. -/
def EnginePhase.isOpen : EnginePhase → Bool
  | .sendingHello | .running => true
  | .spawned | .loadingToken | .connectingSocket | .awaitingReady | .waitingRetry | .finished =>
      false

/-- A control connection. -/
structure Connection (V : Type) where
  socket : Socket V
  /-- The identity of the open socket. -/
  controlId : Option ControlConnectionId
  /-- The shutdown flag of the host. -/
  stopped : Bool
  policy : ReconnectPolicy
  attempt : ℕ
  phase : EnginePhase

/-- What a step of the task receives. -/
inductive EngineInput (V : Type)
  | scheduled
  | token (result : Except RealtimeError Unit)
  | connected (result : Except RealtimeError Unit)
  | first (result : Except RealtimeError (ServerFrame V))
  | helloSent (result : Except RealtimeError Unit)
  | frame (io : FrameEnv) (frame : ServerFrame V)
  /-- The socket ended without a frame: closed by the peer, timed out, or
  unreadable. -/
  | lost (error : RealtimeError)
  | slept
  /-- The host's stop request is observed. -/
  | stop
  /-- The host's stop request cuts the processing of a frame short; `io` is as far
  as it came. -/
  | stopDuring (io : FrameEnv) (frame : ServerFrame V)

namespace Socket

/-- The first server frame is accepted; the hello is not yet sent. -/
def acceptReady (s : Socket V) (ready : ConnectionReady) : Socket V :=
  let s := { s with
    machine := openedMachine s.store.state ready.controlConnectionId
    accessExpiresAt := ready.accessExpiresAt }
  (s.setStatus .ready).publish (.ready ready.controlConnectionId ready.accessExpiresAt)

/-- The first hello was handed to the transport. -/
def helloSent (s : Socket V) : Socket V :=
  ({ s with hellos := s.hellos ++ [s.machine.cursor] }).setStatus .syncing

theorem openSocket_eq (s : Socket V) (ready : ConnectionReady) :
    s.openSocket ready = (s.acceptReady ready).helloSent := rfl

end Socket

namespace Connection

/-- A connection on the snapshot its provider returned. -/
def new (snapshot : StateSnapshot) (policy : ReconnectPolicy) : Connection V where
  socket := {
    machine := SyncMachine.new (ClientState.fromSnapshot snapshot)
    store := StateStore.fromSnapshot snapshot
    status := .disconnected
    events := .new 256
    hellos := []
    accessExpiresAt := 0
    pending := []
    resolved := [] }
  controlId := none
  stopped := false
  policy := policy
  attempt := 0
  phase := .spawned

/-- The lifecycle status of the connection. -/
def status (c : Connection V) : ConnectionStatus := c.socket.status

/-- Everything sent on the combined event stream. -/
def sent (c : Connection V) : List (ClientEvent V) := c.socket.events.sent

/-- Publish a lifecycle status. -/
def setStatus (c : Connection V) (status : ConnectionStatus) : Connection V :=
  { c with socket := c.socket.setStatus status }

/-- Forget the identity of the socket and complete its waiters. -/
def clearSocketState (c : Connection V) : Connection V :=
  { c with
    controlId := none
    socket := { c.socket with
      accessExpiresAt := 0
      pending := []
      resolved := c.socket.resolved ++ c.socket.pending.map fun id => (id, .error .closed) } }

/-- Leave the loop. -/
def finish (c : Connection V) : Connection V :=
  { c.clearSocketState.setStatus .closed with phase := .finished }

/-- The top of the loop. -/
def loopTop (c : Connection V) : Connection V :=
  if c.stopped then c.finish
  else
    { c.setStatus (if c.attempt = 0 then .connecting else .reconnecting) with
      phase := .loadingToken }

/-- Start the backoff, unless no attempt is left. -/
def waitForRetry (c : Connection V) : Connection V :=
  if c.policy.maximumAttempts.any (· ≤ c.attempt) then c.finish
  else { c.setStatus .reconnecting with phase := .waitingRetry }

/-- Stop on a terminal error or without reconnects, else retry. -/
def retryAfter (c : Connection V) (error : RealtimeError) : Connection V :=
  if terminalError error || !c.policy.enabled then c.finish else c.waitForRetry

/-- The end of one socket or connection attempt. -/
def socketEnded (c : Connection V) (result : Except RealtimeError Unit) : Connection V :=
  let c := c.clearSocketState
  match result with
  | .ok () => c.finish
  | .error error =>
      let c := { c with socket := c.socket.publish (.disconnected error.display) }
      if c.stopped then c.finish else c.retryAfter error

/-- One step of the owner task. -/
def step (serde : Serde V) (c : Connection V) (input : EngineInput V) : Option (Connection V) :=
  match c.phase, input with
  | .spawned, .scheduled => some c.loopTop
  | .loadingToken, .token (.ok ()) => some { c with phase := .connectingSocket }
  | .loadingToken, .token (.error error) => some (c.retryAfter error)
  | .loadingToken, .stop => if c.stopped then some (c.retryAfter .closed) else none
  | .connectingSocket, .connected (.ok ()) =>
      if c.stopped then some (c.socketEnded (.ok ()))
      else some { c with phase := .awaitingReady }
  | .connectingSocket, .connected (.error error) => some (c.socketEnded (.error error))
  | .connectingSocket, .stop => if c.stopped then some (c.socketEnded (.error .closed)) else none
  | .awaitingReady, .first (.ok (.connectionReady ready)) =>
      some { c with
        socket := c.socket.acceptReady ready
        controlId := some ready.controlConnectionId
        phase := .sendingHello }
  | .awaitingReady, .first (.ok _) =>
      some (c.socketEnded
        (.error (.protocol "connection.ready must be the first server frame")))
  | .awaitingReady, .first (.error error) => some (c.socketEnded (.error error))
  | .awaitingReady, .stop => if c.stopped then some (c.socketEnded (.ok ())) else none
  | .sendingHello, .helloSent (.ok ()) =>
      some { c with socket := c.socket.helloSent, phase := .running }
  | .sendingHello, .helloSent (.error error) => some (c.socketEnded (.error error))
  | .sendingHello, .stop => if c.stopped then some (c.socketEnded (.ok ())) else none
  | .running, .frame io frame =>
      match c.socket.processFrame serde io frame with
      | (socket, .ok ()) => some { c with socket := socket }
      | (socket, .error error) => some ({ c with socket := socket }.socketEnded (.error error))
  | .running, .lost error => some (c.socketEnded (.error error))
  | .running, .stop => if c.stopped then some (c.socketEnded (.ok ())) else none
  | .running, .stopDuring io frame =>
      if c.stopped then
        some ({ c with socket := (c.socket.processFrame serde io frame).1 }.socketEnded (.ok ()))
      else none
  | .waitingRetry, .slept =>
      if c.stopped then some c.finish else some { c with attempt := c.attempt + 1 }.loopTop
  | .waitingRetry, .stop => if c.stopped then some c.finish else none
  | _, _ => none

end Connection

/-! ## The events of one frame -/

/-- The event that begins a socket. -/
def ClientEvent.opens : ClientEvent V → Bool
  | .ready _ _ => true
  | _ => false

/-- The events that announce the loss of a socket. -/
def ClientEvent.interrupts : ClientEvent V → Bool
  | .disconnected _ | .statusChanged .reconnecting => true
  | _ => false

/-- The events of an open socket that is not yet synchronized again. -/
def ClientEvent.resyncs : ClientEvent V → Bool
  | .statusChanged .syncing | .syncRequired _ | .state _ | .voiceLost _ | .unknown _ => true
  | _ => false

namespace Socket

/-- A socket that published only events of its resynchronization since `s`. -/
structure Resynced (s s' : Socket V) : Prop where
  events : ∃ evs, s'.events.sent = s.events.sent ++ evs ∧ ∀ e ∈ evs, e.resyncs = true
  status : s'.status = s.status ∨ s'.status = .syncing

/-- A socket that published only applied events since `s`. -/
def AppliedOnly (s s' : Socket V) : Prop :=
  (∃ evs : List (StateEvent V), s'.events.sent = s.events.sent ++ evs.map .state) ∧
    s'.status = s.status

theorem Resynced.of_eq {s s' : Socket V} (h : s'.events.sent = s.events.sent)
    (hstatus : s'.status = s.status) : Resynced s s' :=
  ⟨⟨[], by simpa using h, by simp⟩, .inl hstatus⟩

theorem Resynced.trans {s t u : Socket V} (h : Resynced s t) (h' : Resynced t u) :
    Resynced s u := by
  obtain ⟨⟨evs, hs, hr⟩, hstatus⟩ := h
  obtain ⟨⟨evs', hs', hr'⟩, hstatus'⟩ := h'
  refine ⟨⟨evs ++ evs', by rw [hs', hs, List.append_assoc], ?_⟩, ?_⟩
  · intro e he
    rcases List.mem_append.mp he with he | he
    · exact hr e he
    · exact hr' e he
  · rcases hstatus' with hstatus' | hstatus'
    · rwa [hstatus']
    · exact .inr hstatus'

/-- Only the events and the status of the first socket matter. -/
theorem Resynced.rebase {s t u : Socket V} (h : Resynced t u)
    (hsent : t.events.sent = s.events.sent) (hstatus : t.status = s.status) : Resynced s u :=
  (Resynced.of_eq hsent hstatus).trans h

theorem Resynced.publish (s : Socket V) {e : ClientEvent V} (he : e.resyncs = true) :
    Resynced s (s.publish e) :=
  ⟨⟨[e], rfl, by simpa using he⟩, .inl rfl⟩

theorem resynced_replaceSnapshotAndHello (io : FrameEnv) (s : Socket V) (reason : String) :
    Resynced s (replaceSnapshotAndHello io s reason).1 := by
  unfold replaceSnapshotAndHello
  split
  · exact .of_eq rfl rfl
  case h_2 m _ =>
    have hsync : Resynced s (({ s with machine := m }).setStatus .syncing) :=
      ⟨⟨[.statusChanged .syncing], rfl, by simp [ClientEvent.resyncs]⟩, .inr rfl⟩
    dsimp only
    split
    · exact hsync
    · have hlost (t : Socket V) (lost : Option VoiceAuthority) :
          Resynced t (t.publishVoiceLost lost) := by
        cases lost with
        | none => exact .of_eq rfl rfl
        | some authority => exact .publish t rfl
      have hreplaced (t : Socket V) (store : StateStore V) (lost : Option VoiceAuthority) :
          Resynced t (({ t with store := store }).publishVoiceLost lost) :=
        (hlost _ lost).rebase rfl rfl
      split
      · exact (hsync.trans (hreplaced _ _ _)).trans (.of_eq rfl rfl)
      · exact (hsync.trans (hreplaced _ _ _)).trans (.of_eq rfl rfl)

theorem resynced_recoverSyncError (io : FrameEnv) (s : Socket V) (error : SyncError) :
    Resynced s (recoverSyncError io s error).1 := by
  unfold recoverSyncError
  split
  · exact (Resynced.publish s rfl).trans (resynced_replaceSnapshotAndHello io _ _)
  · exact .of_eq rfl rfl

/-- An applied event is published as such; a rejected one resynchronizes. -/
theorem applyOrResync_events (serde : Serde V) (io : FrameEnv) (s : Socket V)
    (event : StateEvent V) :
    Resynced s (applyOrResync serde io s event).1 ∧
      ((applyOrResync serde io s event).2 = .ok true →
        AppliedOnly s (applyOrResync serde io s event).1) := by
  unfold applyOrResync
  split
  · exact ⟨(Resynced.publish _ rfl).rebase rfl rfl, fun _ => ⟨⟨[event], rfl⟩, rfl⟩⟩
  case h_2 error _ =>
    have hre (reason : String) := (Resynced.publish s rfl).trans
      (resynced_replaceSnapshotAndHello io (s.publish (.syncRequired reason)) reason)
    dsimp only
    split
    case h_1 heq => exact ⟨by simpa only [heq] using hre (rejectReason error), by simp⟩
    case h_2 heq => exact ⟨by simpa only [heq] using hre (rejectReason error), by simp⟩

theorem applyAll_events (serde : Serde V) (io : FrameEnv) (events : List (StateEvent V))
    (s : Socket V) :
    Resynced s (applyAll serde io s events).1 ∧
      ((applyAll serde io s events).2 = .ok true →
        AppliedOnly s (applyAll serde io s events).1) := by
  induction events generalizing s with
  | nil => exact ⟨.of_eq rfl rfl, fun _ => ⟨⟨[], by simp [applyAll]⟩, rfl⟩⟩
  | cons event rest ih =>
      obtain ⟨hre, happ⟩ := applyOrResync_events serde io s event
      unfold applyAll
      split
      case h_1 t heq =>
        rw [heq] at hre happ
        obtain ⟨⟨evs, hsent⟩, hstatus⟩ := happ rfl
        obtain ⟨hre', happ'⟩ := ih t
        refine ⟨hre.trans hre', fun hok => ?_⟩
        obtain ⟨⟨evs', hsent'⟩, hstatus'⟩ := happ' hok
        refine ⟨⟨evs ++ evs', ?_⟩, hstatus'.trans hstatus⟩
        rw [hsent', hsent, List.append_assoc, List.map_append]
      case h_2 t result hne heq =>
        rw [heq] at hre happ
        exact ⟨hre, happ⟩

/-- **What one frame publishes**: events of a resynchronization, or applied events
followed by the announcement that the socket is live. -/
theorem processFrame_events (serde : Serde V) (io : FrameEnv) (s : Socket V)
    (frame : ServerFrame V) :
    Resynced s (processFrame serde io s frame).1 ∨
      ∃ t, AppliedOnly s t ∧ (processFrame serde io s frame).1 = t.setStatus .live := by
  have hre (s : Socket V) (reason : String) := (Resynced.publish s rfl).trans
    (resynced_replaceSnapshotAndHello io (s.publish (.syncRequired reason)) reason)
  unfold processFrame
  split
  case h_1 => exact .inl (.of_eq rfl rfl)
  case h_2 replay =>
    split
    · exact .inl ((resynced_recoverSyncError io _ _).rebase rfl rfl)
    case h_2 m _ =>
      have hall := (applyAll_events serde io replay.events { s with machine := m }).1.rebase
        (s := s) rfl rfl
      left
      split
      case h_1 heq => simpa only [heq] using hall
      case h_2 heq => simpa only [heq] using hall
  case h_3 complete =>
    split
    · exact .inl ((resynced_recoverSyncError io _ _).rebase rfl rfl)
    case h_2 m queued _ =>
      have hall := applyAll_events serde io queued
        { s with machine := m, store := s.store.updateCursor complete.cursor }
      dsimp only
      split
      case h_1 t heq =>
        rw [heq] at hall
        exact .inr ⟨t, hall.2 rfl, rfl⟩
      case h_2 heq => exact .inl (by simpa only [heq] using hall.1.rebase (s := s) rfl rfl)
      case h_3 heq => exact .inl (by simpa only [heq] using hall.1.rebase (s := s) rfl rfl)
  case h_4 => exact .inl (hre _ _)
  case h_5 event =>
    split
    · exact .inl ((resynced_recoverSyncError io _ _).rebase rfl rfl)
    · exact .inl (.of_eq rfl rfl)
    case h_3 m event _ =>
      have hone := (applyOrResync_events serde io { s with machine := m } event).1.rebase
        (s := s) rfl rfl
      left
      split
      case h_1 heq => simpa only [heq] using hone
      case h_2 heq => simpa only [heq] using hone
  case h_6 ack =>
    left
    refine .of_eq ?_ ?_
    · dsimp only
      unfold resolvePending
      split <;> split <;> rfl
    · dsimp only
      split <;> simp
  case h_7 =>
    left
    refine .of_eq ?_ (by simp)
    unfold resolvePending
    split <;> rfl
  case h_8 => exact .inl (.of_eq rfl rfl)
  case h_9 =>
    split
    · exact .inl (hre _ _)
    · exact .inl (.publish _ rfl)

end Socket

namespace Connection

/-! ## What a step of the task publishes -/

/-- The task published no opening event, and either finished, after announcing
it, or goes on without a socket after at least `n` interruptions. -/
structure Leaves (c c' : Connection V) (n : ℕ) : Prop where
  events : ∃ evs, c'.sent = c.sent ++ evs ∧ (∀ e ∈ evs, e.opens = false) ∧
    ((c'.phase = .finished ∧ c'.status = .closed ∧ .statusChanged .closed ∈ evs) ∨
      (c'.phase ≠ .finished ∧ c'.status ≠ .closed ∧ n ≤ evs.countP ClientEvent.interrupts))
  isOpen : c'.phase.isOpen = false
  identity : c'.controlId = none

/-- Events published before the task leaves. -/
theorem Leaves.after {b c c' : Connection V} {m n : ℕ} (h : Leaves c c' n)
    (evs : List (ClientEvent V)) (hsent : c.sent = b.sent ++ evs)
    (hopens : ∀ e ∈ evs, e.opens = false) (hm : m ≤ evs.countP ClientEvent.interrupts) :
    Leaves b c' (m + n) := by
  obtain ⟨evs', hsent', hopens', hend⟩ := h.events
  refine ⟨⟨evs ++ evs', by rw [hsent', hsent, List.append_assoc], ?_, ?_⟩, h.isOpen,
    h.identity⟩
  · intro e he
    rcases List.mem_append.mp he with he | he
    · exact hopens e he
    · exact hopens' e he
  · rcases hend with ⟨hp, hs, hc⟩ | ⟨hp, hs, hn⟩
    · exact .inl ⟨hp, hs, List.mem_append_right _ hc⟩
    · refine .inr ⟨hp, hs, ?_⟩
      rw [List.countP_append]
      omega

theorem Leaves.mono {c c' : Connection V} {m n : ℕ} (h : Leaves c c' n) (hmn : m ≤ n) :
    Leaves c c' m := by
  obtain ⟨evs, hsent, hopens, hend⟩ := h.events
  refine ⟨⟨evs, hsent, hopens, ?_⟩, h.isOpen, h.identity⟩
  rcases hend with hend | ⟨hp, hs, hn⟩
  · exact .inl hend
  · exact .inr ⟨hp, hs, Nat.le_trans hmn hn⟩

/-- Finishing satisfies every bound: there is no later socket. -/
theorem leaves_finish (c : Connection V) (n : ℕ) : Leaves c c.finish n :=
  ⟨⟨[.statusChanged .closed], rfl, by simp [ClientEvent.opens],
    .inl ⟨rfl, rfl, by simp⟩⟩, rfl, rfl⟩

theorem leaves_waitForRetry {c : Connection V} (hid : c.controlId = none) :
    Leaves c c.waitForRetry 1 := by
  unfold waitForRetry
  split
  · exact leaves_finish c 1
  · exact ⟨⟨[.statusChanged .reconnecting], rfl, by simp [ClientEvent.opens],
      .inr ⟨(fun h => by cases h), (fun h => by cases h), by simp [ClientEvent.interrupts]⟩⟩, rfl,
      hid⟩

theorem leaves_retryAfter {c : Connection V} (hid : c.controlId = none) (error : RealtimeError) :
    Leaves c (c.retryAfter error) 1 := by
  unfold retryAfter
  split
  · exact leaves_finish c 1
  · exact leaves_waitForRetry hid

theorem leaves_loopTop {c : Connection V} (hid : c.controlId = none) :
    Leaves c c.loopTop 0 := by
  unfold loopTop
  split
  · exact leaves_finish c 0
  · refine ⟨⟨[_], rfl, by simp [ClientEvent.opens],
      .inr ⟨(fun h => by cases h), ?_, Nat.zero_le _⟩⟩, rfl, hid⟩
    show (if c.attempt = 0 then ConnectionStatus.connecting else .reconnecting) ≠ .closed
    split <;> exact fun h => by cases h

/-- The end of a socket is announced twice before another attempt. -/
theorem leaves_socketEnded (c : Connection V) (result : Except RealtimeError Unit) :
    Leaves c (c.socketEnded result) 2 := by
  unfold socketEnded
  cases result with
  | ok _ =>
      exact ⟨⟨[.statusChanged .closed], rfl, by simp [ClientEvent.opens],
        .inl ⟨rfl, rfl, by simp⟩⟩, rfl, rfl⟩
  | error error =>
      have hevs (c' : Connection V)
          (h : Leaves ({ c.clearSocketState with
            socket := c.clearSocketState.socket.publish (.disconnected error.display) }) c' 1) :
          Leaves c c' 2 :=
        h.after (m := 1) [.disconnected error.display] rfl (by simp [ClientEvent.opens])
          (by simp [ClientEvent.interrupts])
      dsimp only
      split
      · exact hevs _ (leaves_finish _ 1)
      · exact hevs _ (leaves_retryAfter rfl error)

/-- A step that stays on the open socket. -/
structure Within (c c' : Connection V) : Prop where
  before : c.phase.isOpen = true
  isOpen : c'.phase.isOpen = true
  identity : c'.controlId = c.controlId
  events : ∃ evs, c'.sent = c.sent ++ evs ∧
    ∀ e ∈ evs, e.opens = false ∧ e.interrupts = false
  status : c'.status = c.status ∨ c'.status = .syncing ∨ c'.status = .live

/-- A step that opens a socket. -/
structure Opens (c c' : Connection V) : Prop where
  before : c.phase.isOpen = false
  unfinished : c.phase ≠ .finished
  isOpen : c'.phase.isOpen = true
  identity : c'.controlId.isSome = true
  events : ∃ ready, c'.sent = c.sent ++ [.statusChanged .ready, ready] ∧ ready.opens = true ∧
    ready.interrupts = false
  status : c'.status = .ready

theorem not_boundary_of_resyncs {e : ClientEvent V} (h : e.resyncs = true) :
    e.opens = false ∧ e.interrupts = false := by
  cases e with
  | statusChanged status => cases status <;> simp_all [ClientEvent.resyncs, ClientEvent.opens,
      ClientEvent.interrupts]
  | _ => simp_all [ClientEvent.resyncs, ClientEvent.opens, ClientEvent.interrupts]

/-- The frames of a socket neither open nor interrupt one. -/
theorem processFrame_within (serde : Serde V) (io : FrameEnv) (s : Socket V)
    (frame : ServerFrame V) :
    (∃ evs, (s.processFrame serde io frame).1.events.sent = s.events.sent ++ evs ∧
      ∀ e ∈ evs, e.opens = false ∧ e.interrupts = false) ∧
    ((s.processFrame serde io frame).1.status = s.status ∨
      (s.processFrame serde io frame).1.status = .syncing ∨
      (s.processFrame serde io frame).1.status = .live) := by
  rcases Socket.processFrame_events serde io s frame with ⟨⟨evs, hsent, hre⟩, hstatus⟩ |
    ⟨t, ⟨⟨evs, hsent⟩, -⟩, heq⟩
  · refine ⟨⟨evs, hsent, fun e he => not_boundary_of_resyncs (hre e he)⟩, ?_⟩
    rcases hstatus with hstatus | hstatus
    · exact .inl hstatus
    · exact .inr (.inl hstatus)
  · rw [heq]
    refine ⟨⟨evs.map .state ++ [.statusChanged .live], ?_, ?_⟩, .inr (.inr rfl)⟩
    · show t.events.sent ++ _ = _
      rw [hsent, List.append_assoc]
    · intro e he
      rcases List.mem_append.mp he with he | he
      · obtain ⟨event, -, rfl⟩ := List.mem_map.mp he
        exact ⟨rfl, rfl⟩
      · cases List.mem_singleton.mp he
        exact ⟨rfl, rfl⟩

/-- What holds of a connection between two steps. -/
structure WellFormed (c : Connection V) : Prop where
  /-- The control identity is that of the open socket. -/
  identity : c.controlId.isSome = c.phase.isOpen
  status : c.status = .closed ↔ c.phase = .finished

/-- The end of a socket whose last frame published `evs`. -/
theorem leaves_socketEnded_after {c d : Connection V} {evs : List (ClientEvent V)}
    (hsent : d.sent = c.sent ++ evs) (hevs : ∀ e ∈ evs, e.opens = false ∧ e.interrupts = false)
    (result : Except RealtimeError Unit) : Leaves c (d.socketEnded result) 2 :=
  (leaves_socketEnded d result).after (m := 0) evs hsent (fun e he => (hevs e he).1)
    (Nat.zero_le _)

/-- **What a step of the task can do**: stay on the open socket, open one, or go
on without one; the end of an open socket is announced twice. -/
theorem step_cases {serde : Serde V} {c c' : Connection V} {input : EngineInput V}
    (hw : c.WellFormed) (h : c.step serde input = some c') :
    Within c c' ∨ Opens c c' ∨
      (c.phase ≠ .finished ∧ Leaves c c' (if c.phase.isOpen then 2 else 0)) := by
  have hnone {p : EnginePhase} (hp : c.phase = p) (ho : p.isOpen = false) :
      c.controlId = none := by
    simpa [hp, ho] using hw.identity
  have outside {p : EnginePhase} {n : ℕ} (hp : c.phase = p) (ho : p.isOpen = false)
      (hf : p ≠ .finished) (hl : Leaves c c' n) :
      Within c c' ∨ Opens c c' ∨
        (c.phase ≠ .finished ∧ Leaves c c' (if c.phase.isOpen then 2 else 0)) := by
    refine .inr (.inr ⟨hp ▸ hf, ?_⟩)
    simpa [hp, ho] using hl.mono (Nat.zero_le n)
  have inside {p : EnginePhase} (hp : c.phase = p) (ho : p.isOpen = true) (hl : Leaves c c' 2) :
      Within c c' ∨ Opens c c' ∨
        (c.phase ≠ .finished ∧ Leaves c c' (if c.phase.isOpen then 2 else 0)) := by
    refine .inr (.inr ⟨fun hf => ?_, by simpa [hp, ho] using hl⟩)
    rw [← hp, hf] at ho
    cases ho
  -- A step that only moves on to the next await point.
  have silent {p q : EnginePhase} (hp : c.phase = p) (ho : p.isOpen = false)
      (hf : p ≠ .finished) (hq : q.isOpen = false) (hqf : q ≠ .finished) :
      Leaves c { c with phase := q } 0 := by
    refine ⟨⟨[], by simp [sent], by simp, .inr ⟨hqf, ?_, Nat.zero_le _⟩⟩, hq, hnone hp ho⟩
    exact fun hc => hf (hp ▸ hw.status.mp hc)
  unfold step at h
  split at h
  case h_1 hp => cases h; exact outside hp rfl (by decide) (leaves_loopTop (hnone hp rfl))
  case h_2 hp =>
    cases h
    exact outside hp rfl (by decide) (silent hp rfl (by decide) rfl (by decide))
  case h_3 hp => cases h; exact outside hp rfl (by decide) (leaves_retryAfter (hnone hp rfl) _)
  case h_4 hp =>
    obtain ⟨-, h⟩ := Option.ite_none_right_eq_some.mp h
    cases h
    exact outside hp rfl (by decide) (leaves_retryAfter (hnone hp rfl) _)
  case h_5 hp =>
    split at h
    · cases h; exact outside hp rfl (by decide) (leaves_socketEnded c _)
    · cases h; exact outside hp rfl (by decide) (silent hp rfl (by decide) rfl (by decide))
  case h_6 hp => cases h; exact outside hp rfl (by decide) (leaves_socketEnded c _)
  case h_7 hp =>
    obtain ⟨-, h⟩ := Option.ite_none_right_eq_some.mp h
    cases h
    exact outside hp rfl (by decide) (leaves_socketEnded c _)
  case h_8 ready hp =>
    cases h
    exact .inr (.inl ⟨by rw [hp]; rfl, by rw [hp]; decide, rfl, rfl,
      ⟨.ready ready.controlConnectionId ready.accessExpiresAt,
        by simp [sent, Socket.acceptReady, Socket.setStatus, Socket.publish], rfl, rfl⟩, rfl⟩)
  case h_9 hp => cases h; exact outside hp rfl (by decide) (leaves_socketEnded c _)
  case h_10 hp => cases h; exact outside hp rfl (by decide) (leaves_socketEnded c _)
  case h_11 hp =>
    obtain ⟨-, h⟩ := Option.ite_none_right_eq_some.mp h
    cases h
    exact outside hp rfl (by decide) (leaves_socketEnded c _)
  case h_12 hp =>
    cases h
    exact .inl ⟨by rw [hp]; rfl, rfl, rfl, ⟨[.statusChanged .syncing], rfl,
      by simp [ClientEvent.opens, ClientEvent.interrupts]⟩, .inr (.inl rfl)⟩
  case h_13 hp => cases h; exact inside hp rfl (leaves_socketEnded c _)
  case h_14 hp =>
    obtain ⟨-, h⟩ := Option.ite_none_right_eq_some.mp h
    cases h
    exact inside hp rfl (leaves_socketEnded c _)
  case h_15 io frame hp =>
    obtain ⟨⟨evs, hsent, hevs⟩, hstatus⟩ := processFrame_within serde io c.socket frame
    split at h
    case h_1 socket heq =>
      rw [heq] at hsent hstatus
      cases h
      exact .inl ⟨by rw [hp]; rfl, by rw [hp]; rfl, rfl, ⟨evs, hsent, hevs⟩, hstatus⟩
    case h_2 socket error heq =>
      rw [heq] at hsent
      cases h
      exact inside hp rfl
        (leaves_socketEnded_after (d := { c with socket := socket }) hsent hevs _)
  case h_16 hp => cases h; exact inside hp rfl (leaves_socketEnded c _)
  case h_17 hp =>
    obtain ⟨-, h⟩ := Option.ite_none_right_eq_some.mp h
    cases h
    exact inside hp rfl (leaves_socketEnded c _)
  case h_18 io frame hp =>
    obtain ⟨⟨evs, hsent, hevs⟩, -⟩ := processFrame_within serde io c.socket frame
    obtain ⟨-, h⟩ := Option.ite_none_right_eq_some.mp h
    cases h
    exact inside hp rfl (leaves_socketEnded_after
      (d := { c with socket := (c.socket.processFrame serde io frame).1 }) hsent hevs _)
  case h_19 hp =>
    split at h
    · cases h; exact outside hp rfl (by decide) (leaves_finish c 0)
    · cases h
      have htop := leaves_loopTop (c := { c with attempt := c.attempt + 1 }) (hnone hp rfl)
      exact outside hp rfl (by decide) (htop.after (m := 0) (b := c) [] (by simp [sent]) (by simp)
        (Nat.zero_le _))
  case h_20 hp =>
    obtain ⟨-, h⟩ := Option.ite_none_right_eq_some.mp h
    cases h
    exact outside hp rfl (by decide) (leaves_finish c 0)
  case h_21 => cases h

theorem wellFormed_new (snapshot : StateSnapshot) (policy : ReconnectPolicy) :
    (new snapshot policy : Connection V).WellFormed :=
  ⟨rfl, by simp [status, new]⟩

theorem wellFormed_step {serde : Serde V} {c c' : Connection V} {input : EngineInput V}
    (hw : c.WellFormed) (h : c.step serde input = some c') : c'.WellFormed := by
  have hopen {p : EnginePhase} (ho : p.isOpen = true) : p ≠ .finished := by
    rintro rfl
    cases ho
  rcases step_cases hw h with hin | hopens | ⟨-, hl⟩
  · refine ⟨by rw [hin.identity, hw.identity, hin.before, hin.isOpen], ?_⟩
    have hc : c.status ≠ .closed := fun hc => hopen hin.before (hw.status.mp hc)
    have hc' : c'.status ≠ .closed := by
      rcases hin.status with hs | hs | hs <;> rw [hs]
      · exact hc
      · decide
      · decide
    exact iff_of_false hc' (hopen hin.isOpen)
  · refine ⟨by rw [hopens.identity, hopens.isOpen], ?_⟩
    rw [hopens.status]
    exact iff_of_false (by decide) (hopen hopens.isOpen)
  · refine ⟨by rw [hl.identity, hl.isOpen]; rfl, ?_⟩
    obtain ⟨evs, -, -, ⟨hp, hs, -⟩ | ⟨hp, hs, -⟩⟩ := hl.events
    · exact iff_of_true hs hp
    · exact iff_of_false hs hp

/-! ## Events since a socket was open -/

/-- The events sent from position `since` up to position `p`. -/
def window (c : Connection V) (since p : ℕ) : List (ClientEvent V) := (c.sent.take p).drop since

/-- The number of sockets opened before position `p` of the stream. -/
def socketsAt (c : Connection V) (p : ℕ) : ℕ := (c.sent.take p).countP ClientEvent.opens

/-- What the stream says after position `since`, at which the socket numbered
`socket` was open. -/
structure Marked (c : Connection V) (since socket : ℕ) : Prop where
  le : since ≤ c.sent.length
  base : c.socketsAt since = socket
  /-- A later socket was announced by two interruptions. -/
  later : ∀ p ≤ c.sent.length, socket < c.socketsAt p →
    2 ≤ (c.window since p).countP ClientEvent.interrupts
  /-- So is the loss of the socket, unless the task finished. -/
  lost : c.phase.isOpen = false → c.phase ≠ .finished →
    2 ≤ (c.window since c.sent.length).countP ClientEvent.interrupts
  finished : c.phase = .finished → .statusChanged .closed ∈ c.window since c.sent.length

theorem socketsAt_mono (c : Connection V) {p q : ℕ} (h : p ≤ q) :
    c.socketsAt p ≤ c.socketsAt q :=
  (List.take_sublist_take_left h).countP_le

/-- A position of the stream keeps what is before it. -/
theorem socketsAt_of_append {c c' : Connection V} {evs : List (ClientEvent V)}
    (h : c'.sent = c.sent ++ evs) {p : ℕ} (hp : p ≤ c.sent.length) :
    c'.socketsAt p = c.socketsAt p := by
  rw [socketsAt, h, List.take_append_of_le_length hp, socketsAt]

theorem window_of_append {c c' : Connection V} {evs : List (ClientEvent V)}
    (h : c'.sent = c.sent ++ evs) {since p : ℕ} (hp : p ≤ c.sent.length) :
    c'.window since p = c.window since p := by
  rw [window, h, List.take_append_of_le_length hp, window]

/-- New events count at the end of every window. -/
theorem socketsAt_append {c c' : Connection V} {evs : List (ClientEvent V)}
    (h : c'.sent = c.sent ++ evs) (k : ℕ) :
    c'.socketsAt (c.sent.length + k) =
      c.socketsAt c.sent.length + (evs.take k).countP ClientEvent.opens := by
  rw [socketsAt, h, List.take_length_add_append, List.countP_append, socketsAt, List.take_length]

theorem window_append {c c' : Connection V} {evs : List (ClientEvent V)}
    (h : c'.sent = c.sent ++ evs) {since : ℕ} (hs : since ≤ c.sent.length) (k : ℕ) :
    c'.window since (c.sent.length + k) = c.window since c.sent.length ++ evs.take k := by
  rw [window, h, List.take_length_add_append, List.drop_append_of_le_length hs, window,
    List.take_length]

/-- A mark set while a socket is open. -/
theorem marked_of_open {c : Connection V} (ho : c.phase.isOpen = true) :
    c.Marked c.sent.length (c.socketsAt c.sent.length) := by
  refine ⟨Nat.le_refl _, rfl, ?_, ?_, ?_⟩
  · intro p hp hlt
    exact absurd (c.socketsAt_mono hp) (Nat.not_le.mpr hlt)
  · intro hc
    rw [ho] at hc
    cases hc
  · intro hf
    rw [hf] at ho
    cases ho

/-- Without an interruption the socket is still the same. -/
theorem Marked.socketsAt_eq {c : Connection V} {since socket p : ℕ} (hm : c.Marked since socket)
    (hsince : since ≤ p) (hp : p ≤ c.sent.length)
    (hnone : ∀ e ∈ c.window since p, e.interrupts = false) : c.socketsAt p = socket := by
  have hge : socket ≤ c.socketsAt p := hm.base ▸ c.socketsAt_mono hsince
  refine Nat.le_antisymm (Nat.le_of_not_lt fun hlt => ?_) hge
  have hzero : (c.window since p).countP ClientEvent.interrupts = 0 :=
    List.countP_eq_zero.mpr fun e he => by simp [hnone e he]
  have htwo := hm.later p hp hlt
  omega

/-- Position of an event in a window. -/
theorem exists_of_mem_window {c : Connection V} {since p : ℕ} {e : ClientEvent V}
    (he : e ∈ c.window since p) : ∃ n, since ≤ n ∧ n < p ∧ c.sent[n]? = some e := by
  obtain ⟨n, hn⟩ := List.getElem?_of_mem he
  rw [window, List.getElem?_drop] at hn
  by_cases hlt : since + n < p
  · rw [List.getElem?_take_of_lt hlt] at hn
    exact ⟨since + n, Nat.le_add_right _ _, hlt, hn⟩
  · rw [List.getElem?_take_eq_none (Nat.le_of_not_lt hlt)] at hn
    cases hn

/-- The later sockets of a grown stream, when its new events open none. -/
theorem Marked.later_of_append {c c' : Connection V} {since socket : ℕ}
    {evs : List (ClientEvent V)} (hm : c.Marked since socket) (h : c'.sent = c.sent ++ evs)
    (hevs : (∀ e ∈ evs, e.opens = false) ∨
      2 ≤ (c.window since c.sent.length).countP ClientEvent.interrupts) :
    ∀ p ≤ c'.sent.length, socket < c'.socketsAt p →
      2 ≤ (c'.window since p).countP ClientEvent.interrupts := by
  intro p hp hlt
  by_cases hle : p ≤ c.sent.length
  · rw [socketsAt_of_append h hle] at hlt
    rw [window_of_append h hle]
    exact hm.later p hle hlt
  · obtain ⟨k, rfl⟩ := Nat.exists_eq_add_of_le (Nat.le_of_not_le hle)
    rw [window_append h hm.le, List.countP_append]
    rcases hevs with hevs | hevs
    · have hnone : (evs.take k).countP ClientEvent.opens = 0 := by
        refine List.countP_eq_zero.mpr fun e he => ?_
        simpa using hevs e (List.mem_of_mem_take he)
      rw [socketsAt_append h, hnone] at hlt
      exact Nat.le_add_right_of_le (hm.later _ (Nat.le_refl _) hlt)
    · exact Nat.le_add_right_of_le hevs

/-- **Every step of the task keeps a mark.** -/
theorem marked_step {serde : Serde V} {c c' : Connection V} {input : EngineInput V}
    {since socket : ℕ} (hw : c.WellFormed) (hm : c.Marked since socket)
    (h : c.step serde input = some c') : c'.Marked since socket := by
  -- What is common to the cases: the stream only grows.
  have grown {evs : List (ClientEvent V)} (hsent : c'.sent = c.sent ++ evs) :
      since ≤ c'.sent.length ∧ c'.socketsAt since = socket ∧
        c'.window since c'.sent.length = c.window since c.sent.length ++ evs := by
    have hlen : c'.sent.length = c.sent.length + evs.length := by rw [hsent, List.length_append]
    refine ⟨by rw [hlen]; exact Nat.le_add_right_of_le hm.le, ?_, ?_⟩
    · rw [socketsAt_of_append hsent hm.le, hm.base]
    · rw [hlen, window_append hsent hm.le, List.take_length]
  have absurdOpen {P : Prop} (ho : c'.phase.isOpen = true) (hc : c'.phase.isOpen = false) : P := by
    rw [ho] at hc
    cases hc
  have absurdFinished {P : Prop} (ho : c'.phase.isOpen = true) (hf : c'.phase = .finished) : P := by
    rw [hf] at ho
    cases ho
  rcases step_cases hw h with hin | hopens | ⟨hp, hl⟩
  · obtain ⟨evs, hsent, hevs⟩ := hin.events
    obtain ⟨hle, hbase, -⟩ := grown hsent
    exact ⟨hle, hbase, hm.later_of_append hsent (.inl fun e he => (hevs e he).1),
      absurdOpen hin.isOpen, absurdFinished hin.isOpen⟩
  · obtain ⟨ready, hsent, -, -⟩ := hopens.events
    obtain ⟨hle, hbase, -⟩ := grown hsent
    exact ⟨hle, hbase, hm.later_of_append hsent (.inr (hm.lost hopens.before hopens.unfinished)),
      absurdOpen hopens.isOpen, absurdFinished hopens.isOpen⟩
  · obtain ⟨evs, hsent, hevs, hend⟩ := hl.events
    obtain ⟨hle, hbase, hwin⟩ := grown hsent
    refine ⟨hle, hbase, hm.later_of_append hsent (.inl hevs), ?_, ?_⟩
    · intro _ hnf
      rcases hend with ⟨hf, -, -⟩ | ⟨-, -, hn⟩
      · exact absurd hf hnf
      · rw [hwin, List.countP_append]
        by_cases ho : c.phase.isOpen = true
        · rw [if_pos ho] at hn
          exact Nat.le_add_left_of_le hn
        · exact Nat.le_add_right_of_le (hm.lost (by simpa using ho) hp)
    · intro hf
      rcases hend with ⟨-, -, hc⟩ | ⟨hnf, -, -⟩
      · rw [hwin]
        exact List.mem_append_right _ hc
      · exact absurd hf hnf

/-- What is kept from one state of a connection to a later one. -/
structure Follows (c c' : Connection V) : Prop where
  events : ∃ evs, c'.sent = c.sent ++ evs
  wellFormed : c'.WellFormed
  closed : c.status = .closed → c'.status = .closed
  marked : ∀ {since socket : ℕ}, c.Marked since socket → c'.Marked since socket

theorem Follows.refl {c : Connection V} (hw : c.WellFormed) : Follows c c :=
  ⟨⟨[], by simp⟩, hw, id, id⟩

/-- The shutdown flag says nothing about the stream. -/
theorem follows_stopped {c : Connection V} (hw : c.WellFormed) :
    Follows c { c with stopped := true } :=
  ⟨⟨[], by simp [sent]⟩, ⟨hw.identity, hw.status⟩, id,
    fun hm => ⟨hm.le, hm.base, hm.later, hm.lost, hm.finished⟩⟩

theorem follows_step {serde : Serde V} {c c' : Connection V} {input : EngineInput V}
    (hw : c.WellFormed) (h : c.step serde input = some c') : Follows c c' := by
  refine ⟨?_, wellFormed_step hw h, ?_, fun hm => marked_step hw hm h⟩
  · rcases step_cases hw h with hin | hopens | ⟨-, hl⟩
    · obtain ⟨evs, hsent, -⟩ := hin.events
      exact ⟨evs, hsent⟩
    · obtain ⟨ready, hsent, -, -⟩ := hopens.events
      exact ⟨_, hsent⟩
    · obtain ⟨evs, hsent, -⟩ := hl.events
      exact ⟨evs, hsent⟩
  · -- A finished task makes no step.
    intro hclosed
    have hfinished := hw.status.mp hclosed
    simp [step, hfinished] at h

/-! ## A lost authority in one step -/

/-- The task published neither a lost authority nor that a socket is live. -/
def Plain (c c' : Connection V) : Prop :=
  ∃ evs, c'.sent = c.sent ++ evs ∧ .statusChanged .live ∉ evs ∧
    ∀ authority, .voiceLost authority ∉ evs

theorem plain_finish (c : Connection V) : Plain c c.finish :=
  ⟨[.statusChanged .closed], rfl, by simp, by simp⟩

theorem plain_loopTop (c : Connection V) : Plain c c.loopTop := by
  unfold loopTop
  split
  · exact plain_finish c
  · refine ⟨[_], rfl, ?_, by simp⟩
    split <;> simp

theorem plain_retryAfter (c : Connection V) (error : RealtimeError) :
    Plain c (c.retryAfter error) := by
  unfold retryAfter waitForRetry
  split
  · exact plain_finish c
  · split
    · exact plain_finish c
    · exact ⟨[.statusChanged .reconnecting], rfl, by simp, by simp⟩

theorem plain_socketEnded (c : Connection V) (result : Except RealtimeError Unit) :
    Plain c (c.socketEnded result) := by
  unfold socketEnded
  cases result with
  | ok _ => exact plain_finish c
  | error error =>
      have after {d : Connection V} (h : Plain { c.clearSocketState with
          socket := c.clearSocketState.socket.publish (.disconnected error.display) } d) :
          Plain c d := by
        obtain ⟨evs, hsent, hlive, hlost⟩ := h
        exact ⟨.disconnected error.display :: evs, hsent.trans (List.append_assoc _ _ _),
          by simpa using hlive, by simpa using hlost⟩
      dsimp only
      split
      · exact after (plain_finish _)
      · exact after (plain_retryAfter _ error)

/-- A frame does not report a lost authority and a live socket together. -/
theorem processFrame_lost (serde : Serde V) (io : FrameEnv) (s : Socket V)
    (frame : ServerFrame V) :
    ∃ evs, (s.processFrame serde io frame).1.events.sent = s.events.sent ++ evs ∧
      ∀ authority, .voiceLost authority ∈ evs → .statusChanged .live ∉ evs := by
  rcases Socket.processFrame_events serde io s frame with ⟨⟨evs, hsent, hre⟩, -⟩ |
    ⟨t, ⟨⟨evs, hsent⟩, -⟩, heq⟩
  · exact ⟨evs, hsent, fun _ _ hlive => by cases hre _ hlive⟩
  · rw [heq]
    refine ⟨evs.map .state ++ [.statusChanged .live], ?_, by simp⟩
    show t.events.sent ++ _ = _
    rw [hsent, List.append_assoc]

/-- **A step that reports a lost authority does not report a live socket.** -/
theorem step_lost {serde : Serde V} {c c' : Connection V} {input : EngineInput V}
    (h : c.step serde input = some c') :
    ∃ evs, c'.sent = c.sent ++ evs ∧
      ∀ authority, .voiceLost authority ∈ evs → .statusChanged .live ∉ evs := by
  have plain (hp : Plain c c') : ∃ evs, c'.sent = c.sent ++ evs ∧
      ∀ authority, .voiceLost authority ∈ evs → .statusChanged .live ∉ evs := by
    obtain ⟨evs, hsent, hlive, -⟩ := hp
    exact ⟨evs, hsent, fun _ _ => hlive⟩
  -- The socket ends after a frame.
  have ended {io : FrameEnv} {frame : ServerFrame V} {socket : Socket V}
      (hs : socket = (c.socket.processFrame serde io frame).1)
      (result : Except RealtimeError Unit) :
      ∃ evs, (socketEnded { c with socket := socket } result).sent = c.sent ++ evs ∧
        ∀ authority, .voiceLost authority ∈ evs → .statusChanged .live ∉ evs := by
    obtain ⟨evs, hsent, hlost⟩ := processFrame_lost serde io c.socket frame
    obtain ⟨evs', hsent', hlive', hlost'⟩ := plain_socketEnded { c with socket := socket } result
    refine ⟨evs ++ evs', ?_, ?_⟩
    · rw [hsent', ← List.append_assoc, ← show _ = c.sent ++ evs from hsent, hs]
      rfl
    · intro authority hmem hlive
      have hmem := (List.mem_append.mp hmem).resolve_right (hlost' authority)
      exact hlost authority hmem ((List.mem_append.mp hlive).resolve_right hlive')
  have silent {d : Connection V} (hd : d.sent = c.sent) : Plain c d :=
    ⟨[], by simpa using hd, by simp, by simp⟩
  unfold step at h
  split at h
  case h_1 => cases h; exact plain (plain_loopTop c)
  case h_2 => cases h; exact plain (silent rfl)
  case h_3 => cases h; exact plain (plain_retryAfter c _)
  case h_4 =>
    obtain ⟨-, h⟩ := Option.ite_none_right_eq_some.mp h
    cases h
    exact plain (plain_retryAfter c _)
  case h_5 =>
    split at h
    · cases h; exact plain (plain_socketEnded c _)
    · cases h; exact plain (silent rfl)
  case h_8 =>
    cases h
    exact plain ⟨_, by simp [sent, Socket.acceptReady, Socket.setStatus, Socket.publish]; rfl,
      by simp, by simp⟩
  case h_12 => cases h; exact plain ⟨[.statusChanged .syncing], rfl, by simp, by simp⟩
  case h_15 io frame _ =>
    split at h
    case h_1 socket heq =>
      cases h
      obtain ⟨evs, hsent, hlost⟩ := processFrame_lost serde io c.socket frame
      rw [heq] at hsent
      exact ⟨evs, hsent, hlost⟩
    case h_2 socket error heq =>
      cases h
      exact ended (by rw [heq]) _
  case h_18 io frame _ =>
    obtain ⟨-, h⟩ := Option.ite_none_right_eq_some.mp h
    cases h
    exact ended rfl _
  case h_19 =>
    split at h
    · cases h; exact plain (plain_finish c)
    · cases h; exact plain (plain_loopTop { c with attempt := c.attempt + 1 })
  case h_20 =>
    obtain ⟨-, h⟩ := Option.ite_none_right_eq_some.mp h
    cases h
    exact plain (plain_finish c)
  case h_6 | h_9 | h_10 | h_13 | h_16 => cases h; exact plain (plain_socketEnded c _)
  case h_7 | h_11 | h_14 | h_17 =>
    obtain ⟨-, h⟩ := Option.ite_none_right_eq_some.mp h
    cases h
    exact plain (plain_socketEnded c _)
  case h_21 => cases h

end Connection

end ZephyrVox.Realtime
