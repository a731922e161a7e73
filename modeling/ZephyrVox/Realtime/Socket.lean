import ZephyrVox.Realtime.StateStore
import ZephyrVox.Realtime.Sync

/-!
# Frames of one control socket

One task owns the socket: it feeds each server frame to the synchronization
machine, applies what the machine releases to the state store, and falls back to
a fresh snapshot and a new `sync.hello` on the same socket when an event or a
batch is rejected.

The functions return the socket they leave behind together with their result,
since an error ends the socket but not the effects already made. `FrameEnv` holds
the outcome of the two calls a frame can make to the outside: the snapshot
provider and the hello write. No frame makes either of them twice.

## Main definitions

* `Socket V` — machine, store, published status and the channels of one socket.
* `Socket.processFrame` — one server frame.
* `Socket.replaceSnapshotAndHello` — the in-place resynchronization.
* `Socket.openSocket` — the state after `connection.ready` and the first hello.
-/

namespace ZephyrVox.Realtime

/-- The lifecycle phase observable by an application. -/
inductive ConnectionStatus
  | disconnected
  | connecting
  | ready
  | syncing
  | live
  | reconnecting
  | closed
  deriving DecidableEq, Repr

/-- The acknowledgement of a command. -/
structure CommandAck where
  requestId : String
  commandType : String
  commandId : Option String
  expiresAt : Option ℤ
  deriving DecidableEq, Repr

/-- The structured failure returned by a server-side command. -/
structure CommandError where
  requestId : String
  commandType : String
  code : ℤ
  message : String
  retryable : Bool
  deriving DecidableEq, Repr

/-- Errors returned by the realtime control connection. -/
inductive RealtimeError
  | provider (detail : String)
  | authenticationRequired
  | authenticationExpired
  | transport (detail : String)
  | protocol (detail : String)
  | json (detail : String)
  | state (error : StateApplyError)
  | sync (error : SyncError)
  | serverCommand (error : CommandError)
  | notLive
  | commandTimeout
  | closed
  | revoked (reason : String)
  | tlsPinMismatch (expected actual : String)
  | tlsCertificateInvalid
  | reconnectExhausted
  | configuration (detail : String)
  deriving DecidableEq, Repr

/-- The first server frame after the upgrade. -/
structure ConnectionReady where
  controlConnectionId : ControlConnectionId
  accessExpiresAt : ℤ
  deriving DecidableEq, Repr

/-- A frame of a type the client does not know. -/
structure UnknownFrame (V : Type) where
  frameType : String
  requestId : Option String
  data : V
  deriving DecidableEq, Repr

/-- A parsed server frame. -/
inductive ServerFrame (V : Type)
  | connectionReady (ready : ConnectionReady)
  | syncReplay (replay : SyncReplay V)
  | syncComplete (complete : SyncComplete)
  | syncRequired (reason : String)
  | stateEvent (event : StateEvent V)
  | commandOk (ack : CommandAck)
  | commandError (error : CommandError)
  | authRevoked (reason : String)
  | unknown (frame : UnknownFrame V)

/-- Events emitted by a control connection in arrival order. -/
inductive ClientEvent (V : Type)
  | statusChanged (status : ConnectionStatus)
  | ready (controlConnectionId : ControlConnectionId) (accessExpiresAt : ℤ)
  | syncRequired (reason : String)
  | state (event : StateEvent V)
  | voiceLost (authority : VoiceAuthority)
  | disconnected (reason : String)
  | unknown (frame : UnknownFrame V)
  deriving DecidableEq, Repr

/-- The outcome of the snapshot provider and of the hello write, should the
frame need them. -/
structure FrameEnv where
  snapshot : Except RealtimeError StateSnapshot
  send : Except RealtimeError Unit

/-- The state one socket generation works on. -/
structure Socket (V : Type) where
  machine : SyncMachine V
  store : StateStore V
  /-- The value of the status watch. -/
  status : ConnectionStatus
  /-- The combined event stream of the connection. -/
  events : Broadcast.Channel (ClientEvent V)
  /-- The cursors of the `sync.hello` frames handed to the transport. -/
  hellos : List Cursor
  accessExpiresAt : ℤ
  /-- Request identifiers with a waiter. -/
  pending : List String
  /-- Results handed to waiters, oldest first. -/
  resolved : List (String × Except RealtimeError CommandAck)

namespace Socket

variable {V : Type}

/-- Send one event on the combined stream. -/
def publish (s : Socket V) (event : ClientEvent V) : Socket V :=
  { s with events := s.events.send event }

/-- Publish a lifecycle status to the watcher and the combined stream. -/
def setStatus (s : Socket V) (status : ConnectionStatus) : Socket V :=
  ({ s with status := status }).publish (.statusChanged status)

/-- Complete the waiter of one request, if there is one. -/
def resolvePending (s : Socket V) (requestId : String)
    (result : Except RealtimeError CommandAck) : Socket V :=
  if requestId ∈ s.pending then
    { s with pending := s.pending.erase requestId, resolved := s.resolved ++ [(requestId, result)] }
  else s

/-- Report the authority a snapshot invalidated. -/
def publishVoiceLost (s : Socket V) : Option VoiceAuthority → Socket V
  | some authority => s.publish (.voiceLost authority)
  | none => s

/-- Install a provider snapshot and start a new hello on the same socket. -/
def replaceSnapshotAndHello (io : FrameEnv) (s : Socket V) (reason : String) :
    Socket V × Except RealtimeError Unit :=
  match s.machine.requireSnapshot reason with
  | (m, .error e) => ({ s with machine := m }, .error (.sync e))
  | (m, .ok ()) =>
      let s := ({ s with machine := m }).setStatus .syncing
      match io.snapshot with
      | .error e => (s, .error e)
      | .ok snapshot =>
          let replaced := s.store.replaceSnapshot snapshot
          let s := ({ s with store := replaced.1 }).publishVoiceLost replaced.2
          match (s.machine.replaceSnapshot s.store.state).beginSync with
          | (m, .error e) => ({ s with machine := m }, .error (.sync e))
          | (m, .ok cursor) => ({ s with machine := m, hellos := s.hellos ++ [cursor] }, io.send)

/-- The errors a fresh snapshot recovers from. -/
def recoverable : SyncError → Bool
  | .replayBounds | .queueLimit | .geidOrder _ _ | .geidGap _ _ | .streamEpochChanged _ _
  | .snapshotRequired _ => true
  | .invalidPhase _ => false

/-- Turn a stream-order failure into a snapshot handoff. Invalid lifecycle
transitions stay protocol failures. -/
def recoverSyncError (io : FrameEnv) (s : Socket V) (error : SyncError) :
    Socket V × Except RealtimeError Unit :=
  if recoverable error then
    let reason := "state synchronization requires snapshot: " ++ error.display
    replaceSnapshotAndHello io (s.publish (.syncRequired reason)) reason
  else (s, .error (.sync error))

/-- The diagnostic of a rejected event. -/
def rejectReason : StateApplyError → String
  | .unknownEvent event => "unknown state event " ++ event
  | .snapshotRequired event => "state event requires snapshot " ++ event
  | other => "state projection rejected event: " ++ other.display

/-- Apply one event, or resynchronize when the projection rejects it. The result
says whether the event was applied. -/
def applyOrResync (serde : Serde V) (io : FrameEnv) (s : Socket V) (event : StateEvent V) :
    Socket V × Except RealtimeError Bool :=
  match s.store.applyEvent serde event with
  | .ok store => (({ s with store := store }).publish (.state event), .ok true)
  | .error error =>
      let reason := rejectReason error
      match replaceSnapshotAndHello io (s.publish (.syncRequired reason)) reason with
      | (s, .ok ()) => (s, .ok false)
      | (s, .error e) => (s, .error e)

/-- Apply events in order until one is rejected. -/
def applyAll (serde : Serde V) (io : FrameEnv) (s : Socket V) :
    List (StateEvent V) → Socket V × Except RealtimeError Bool
  | [] => (s, .ok true)
  | event :: rest =>
      match applyOrResync serde io s event with
      | (s', .ok true) => applyAll serde io s' rest
      | (s', result) => (s', result)

/-- One parsed frame. -/
def processFrame (serde : Serde V) (io : FrameEnv) (s : Socket V) :
    ServerFrame V → Socket V × Except RealtimeError Unit
  | .connectionReady _ => (s, .error (.protocol "duplicate connection.ready"))
  | .syncReplay replay =>
      match s.machine.acceptReplay replay with
      | (m, .error e) => recoverSyncError io { s with machine := m } e
      | (m, .ok ()) =>
          match applyAll serde io { s with machine := m } replay.events with
          | (s, .ok _) => (s, .ok ())
          | (s, .error e) => (s, .error e)
  | .syncComplete complete =>
      match s.machine.acceptComplete complete with
      | (m, .error e) => recoverSyncError io { s with machine := m } e
      | (m, .ok queued) =>
          let s := { s with machine := m, store := s.store.updateCursor complete.cursor }
          match applyAll serde io s queued with
          | (s, .ok true) => (s.setStatus .live, .ok ())
          | (s, .ok false) => (s, .ok ())
          | (s, .error e) => (s, .error e)
  | .syncRequired reason =>
      replaceSnapshotAndHello io (s.publish (.syncRequired reason)) reason
  | .stateEvent event =>
      match s.machine.acceptLiveEvent serde event with
      | (m, .error e) => recoverSyncError io { s with machine := m } e
      | (m, .ok none) => ({ s with machine := m }, .ok ())
      | (m, .ok (some event)) =>
          match applyOrResync serde io { s with machine := m } event with
          | (s, .ok _) => (s, .ok ())
          | (s, .error e) => (s, .error e)
  | .commandOk ack =>
      let s := match ack.expiresAt with
        | some expiresAt => { s with accessExpiresAt := expiresAt }
        | none => s
      (s.resolvePending ack.requestId (.ok ack), .ok ())
  | .commandError error =>
      (s.resolvePending error.requestId (.error (.serverCommand error)), .ok ())
  | .authRevoked reason => (s, .error (.revoked reason))
  | .unknown frame =>
      if "state.".toList.isPrefixOf frame.frameType.toList then
        replaceSnapshotAndHello io (s.publish (.syncRequired frame.frameType)) frame.frameType
      else (s.publish (.unknown frame), .ok ())

/-- The machine of a new socket: bound to the installed state, connected, ready
and past its first hello. -/
def openedMachine (state : ClientState) (id : ControlConnectionId) : SyncMachine V :=
  ((((SyncMachine.new state).beginConnecting.1).acceptReady id).1).beginSync.1

/-- The socket after `connection.ready` and the first `sync.hello`. -/
def openSocket (s : Socket V) (ready : ConnectionReady) : Socket V :=
  let s := { s with
    machine := openedMachine s.store.state ready.controlConnectionId
    accessExpiresAt := ready.accessExpiresAt }
  let s := (s.setStatus .ready).publish
    (.ready ready.controlConnectionId ready.accessExpiresAt)
  ({ s with hellos := s.hellos ++ [s.machine.cursor] }).setStatus .syncing

@[simp] theorem machine_publish (s : Socket V) (e : ClientEvent V) :
    (s.publish e).machine = s.machine := rfl
@[simp] theorem store_publish (s : Socket V) (e : ClientEvent V) :
    (s.publish e).store = s.store := rfl
@[simp] theorem status_publish (s : Socket V) (e : ClientEvent V) :
    (s.publish e).status = s.status := rfl
@[simp] theorem hellos_publish (s : Socket V) (e : ClientEvent V) :
    (s.publish e).hellos = s.hellos := rfl
@[simp] theorem machine_setStatus (s : Socket V) (st : ConnectionStatus) :
    (s.setStatus st).machine = s.machine := rfl
@[simp] theorem store_setStatus (s : Socket V) (st : ConnectionStatus) :
    (s.setStatus st).store = s.store := rfl
@[simp] theorem status_setStatus (s : Socket V) (st : ConnectionStatus) :
    (s.setStatus st).status = st := rfl
@[simp] theorem hellos_setStatus (s : Socket V) (st : ConnectionStatus) :
    (s.setStatus st).hellos = s.hellos := rfl
@[simp] theorem machine_publishVoiceLost (s : Socket V) (lost : Option VoiceAuthority) :
    (s.publishVoiceLost lost).machine = s.machine := by cases lost <;> rfl
@[simp] theorem store_publishVoiceLost (s : Socket V) (lost : Option VoiceAuthority) :
    (s.publishVoiceLost lost).store = s.store := by cases lost <;> rfl
@[simp] theorem status_publishVoiceLost (s : Socket V) (lost : Option VoiceAuthority) :
    (s.publishVoiceLost lost).status = s.status := by cases lost <;> rfl
@[simp] theorem hellos_publishVoiceLost (s : Socket V) (lost : Option VoiceAuthority) :
    (s.publishVoiceLost lost).hellos = s.hellos := by cases lost <;> rfl
@[simp] theorem machine_resolvePending (s : Socket V) (id : String)
    (r : Except RealtimeError CommandAck) : (s.resolvePending id r).machine = s.machine := by
  unfold resolvePending; split <;> rfl
@[simp] theorem store_resolvePending (s : Socket V) (id : String)
    (r : Except RealtimeError CommandAck) : (s.resolvePending id r).store = s.store := by
  unfold resolvePending; split <;> rfl
@[simp] theorem status_resolvePending (s : Socket V) (id : String)
    (r : Except RealtimeError CommandAck) : (s.resolvePending id r).status = s.status := by
  unfold resolvePending; split <;> rfl
@[simp] theorem hellos_resolvePending (s : Socket V) (id : String)
    (r : Except RealtimeError CommandAck) : (s.resolvePending id r).hellos = s.hellos := by
  unfold resolvePending; split <;> rfl

/-- A socket value before its first `connection.ready`, on a sample projection. -/
def sample (geid : Geid) (authority : Option VoiceAuthority) : Socket V where
  machine := SyncMachine.new (sampleState geid authority)
  store := StateStore.fromSnapshot (sampleSnapshot geid authority)
  status := .connecting
  events := .new 256
  hellos := []
  accessExpiresAt := 0
  pending := []
  resolved := []

end Socket

/-- The first frame of a sample socket. -/
def sampleReady (n : Fin 255) : ConnectionReady := ⟨sampleId .controlConnection n, 0⟩

/-- A frame that reaches a healthy provider and transport. -/
def sampleEnv (geid : Geid) : FrameEnv := ⟨.ok (sampleSnapshot geid none), .ok ()⟩

end ZephyrVox.Realtime
