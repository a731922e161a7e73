import ZephyrVox.Http.Credentials
import ZephyrVox.Lib.Gate
import ZephyrVox.Realtime.Engine
import ZephyrVox.Voice.Worker

/-!
# The high-level client

The facade that owns a control connection, a voice session and the tasks that
tie them together. Every operation of a host and every relay is a task that runs
from one await point to the next; connections and UDP workers step on their own.
A schedule of actions is therefore an interleaving of everything that shares one
client.

Objects that handles share (connections, workers, sessions) are entries of lists,
and a handle is an index. The fields of `History` are observations that no
operation reads.

## Main definitions

* `Client V K` — the shared state of all clones of one client.
* `Pc V` — the await points of the operations and of the relay.
* `Client.step` — one action of a host, a task, a connection or a worker.
-/

namespace ZephyrVox.Sdk

open Realtime Voice

/-! ## Data -/

/-- Errors of the high-level client. -/
inductive SdkError
  | http (error : Http.HttpError)
  | realtime (error : RealtimeError)
  | voice (error : VoiceError)
  | notConnected
  | controlNotLive
  | voiceControlUnavailable
  | codecUnavailable
  | voiceNegotiation (detail : String)
  | closed
  deriving DecidableEq, Repr

/-- The stable error of a voice channel that does not match. -/
def SdkError.channelMismatch (channelId : Snowflake) : SdkError :=
  .voiceNegotiation ("join response does not match channel " ++ toString channelId.get)

/-- The options of a voice join. -/
structure VoiceJoinRequest where
  deviceId : Option String
  forceNew : Bool
  expectedVoiceSessionId : Option VoiceSessionId
  deriving DecidableEq, Repr

/-- The UDP negotiation of a successful join. -/
structure VoiceNegotiation where
  created : Bool
  sessionId : VoiceSessionId
  key : Option String
  encrypted : Bool
  maxPayload : ℕ
  protocolVersion : ℕ
  expiresAt : ℤ
  deriving DecidableEq, Repr

/-- The parts of a join response the client reads. -/
structure VoiceJoinResponse where
  channelId : Snowflake
  voice : VoiceNegotiation
  deriving DecidableEq, Repr

/-- One negotiated audio codec. -/
structure CodecCapability where
  name : String
  clockRate : ℕ
  channels : ℕ
  ptime : List ℕ
  deriving DecidableEq, Repr

/-- The parts of the server metadata the client reads. -/
structure Metadata where
  voiceEndpoint : VoiceEndpoint
  codecs : List CodecCapability
  voiceStreamTypes : List UInt8
  deriving DecidableEq, Repr

/-- The last explicit voice join, which may be replayed after a reconnect. -/
structure VoiceIntent where
  channelId : Snowflake
  request : VoiceJoinRequest
  sessionId : VoiceSessionId
  /-- The session the intent was recorded for. -/
  session : ℕ
  deriving DecidableEq, Repr

/-- The immutable part of a voice session handle. -/
structure Session where
  channelId : Snowflake
  codec : CodecCapability
  /-- The UDP worker. -/
  transport : ℕ
  sessionId : VoiceSessionId
  /-- The control connection that owns the server-side authority. -/
  control : ℕ
  controlGeneration : ℕ
  /-- The number of sockets the connection had opened when the session was
  installed, and the length of its event stream then. -/
  socket : ℕ
  since : ℕ
  deriving DecidableEq, Repr

/-- What is outside the client: payload decoding, cryptography and base64. -/
structure Env (V K : Type) where
  serde : Serde V
  crypto : Crypto K
  base64 : String → Option (List UInt8)

/-- Decode exactly one encrypted join key. -/
def decodeSessionKey (base64 : String → Option (List UInt8)) (encrypted created : Bool)
    (key : Option String) : Except SdkError (Option SessionKey) :=
  match encrypted, created, key with
  | false, _, none => .ok none
  | false, _, some _ =>
      .error (.voiceNegotiation "plaintext voice negotiation included a session key")
  | true, true, some key =>
      match base64 key with
      | none => .error (.voiceNegotiation "voice session key is not valid base64")
      | some bytes =>
          match SessionKey.fromSlice bytes with
          | .ok key => .ok (some key)
          | .error e => .error (.voice e)
  | true, true, none =>
      .error (.voiceNegotiation "new encrypted voice negotiation omitted its session key")
  | true, false, none => .ok none
  | true, false, some _ =>
      .error (.voiceNegotiation "reused encrypted voice negotiation included a session key")

/-! ## Tasks -/

/-- A task: an operation of a host, or the relay of one connection generation. -/
inductive Task
  | host (n : ℕ)
  | relay (generation : ℕ)
  deriving DecidableEq, Repr

/-- What a relay keeps: its connection and its cursor in the event stream. -/
structure Relay where
  connection : ℕ
  next : ℕ
  deriving DecidableEq, Repr

/-- The caller of `joinVoice`: a host, or a relay that replays an intent. The
observation is the session of the intent and what was relayed since it was
recorded. -/
inductive Caller (V : Type)
  | host
  | relay (r : Relay) (session : ℕ) (since : List (ClientEvent V))

/-- One call of `joinVoice`. -/
structure JoinCall (V : Type) where
  caller : Caller V
  channelId : Snowflake
  request : VoiceJoinRequest

/-- The identity a join is bound to, read immediately before the mutation. -/
structure Binding where
  control : ℕ
  controlId : ControlConnectionId
  generation : ℕ
  metadata : Metadata
  codec : CodecCapability

/-- The await points of `joinVoice`. -/
inductive JoinPc
  | gate
  | control
  /-- The metadata, if it is cached, or the request for it. -/
  | discovering (control : ℕ) (cached : Option Metadata)
  | requesting (b : Binding)
  | connecting (b : Binding) (config : VoiceSessionConfig) (reuse : Option SessionKey)
  | starting (b : Binding) (worker : ℕ) (reuse : Option SessionKey)
  /-- The authority changed meanwhile; the new transport is being closed. -/
  | discarding (worker : ℕ)

/-- Who waits for a session to close. -/
inductive After (V : Type)
  /-- A join that replaced the session by `session`. -/
  | join (call : JoinCall V) (session : ℕ) (reuse : Option SessionKey)
  | relay (r : Relay)
  /-- `leave`, called by `Client.leaveVoice` or on a handle. -/
  | leave (viaClient : Bool)
  | close
  | shutdown

/-- The await points of all tasks. -/
inductive Pc (V : Type)
  /-- No operation is in progress; the result is that of the last one. -/
  | returned (result : Except SdkError Unit)
  | connectLock
  | connectSnapshot
  | connectInstall (connection : ℕ)
  | connectAbort (connection : ℕ)
  | discovering
  | relayTop (r : Relay)
  | relayReceive (r : Relay)
  /-- A stop event is handled; the relay waits for the voice gate. -/
  | relayStop (r : Relay) (event : ClientEvent V)
  | relayExited
  | join (call : JoinCall V) (stage : JoinPc)
  | leaveGate
  /-- Waiting for the teardown lock of a session. -/
  | teardown (session : ℕ) (k : After V)
  /-- Waiting for the worker of a session to stop. -/
  | stopping (session : ℕ) (k : After V)
  /-- Waiting for the HTTP leave of a session. -/
  | leaving (session : ℕ) (k : After V)
  | shutdownLock
  | shutdownGate
  | shutdownControl
  | shutdownClosing (connection : ℕ)
  /-- The slots are empty; the relays are being aborted. -/
  | shutdownAborting

/-- Whether a task holds the voice gate while it waits there. -/
def After.holdsGate {V : Type} : After V → Bool
  | .join _ _ _ | .relay _ | .leave true | .shutdown => true
  | .leave false | .close => false

/-- Whether a task holds the voice gate at a counter. -/
def Pc.holdsGate {V : Type} : Pc V → Bool
  | .join _ .gate => false
  | .join _ _ => true
  | .teardown _ k | .stopping _ k | .leaving _ k => k.holdsGate
  | _ => false

/-! ## Actions -/

/-- An operation a host starts. -/
inductive Call
  | connect
  | discover
  | joinVoice (channelId : Snowflake) (request : VoiceJoinRequest)
  | leaveVoice
  /-- `VoiceSession::close` on any handle. -/
  | closeSession (session : ℕ)
  /-- `VoiceSession::leave` on any handle. -/
  | leaveSession (session : ℕ)
  | shutdown

/-- What a task waited for. -/
inductive Input
  /-- A lock, a status or an event, as the state has it. -/
  | ready
  | metadata (result : Except SdkError Metadata)
  | joined (result : Except Http.HttpError VoiceJoinResponse)
  | udp (result : Except VoiceError Unit)
  | left (result : Except Http.HttpError Unit)
  | snapshot (result : Except RealtimeError StateSnapshot)

/-- One action of a schedule. -/
inductive Action (V : Type)
  /-- A host starts an operation on an idle task of its own. -/
  | call (n : ℕ) (c : Call)
  /-- A task runs to its next await point. -/
  | resume (i : Task) (input : Input)
  /-- The owner task of a connection makes a step. -/
  | engine (c : ℕ) (input : EngineInput V)
  /-- A host closes a control connection through a handle of its own. -/
  | closeControl (c : ℕ)
  /-- A UDP worker makes a turn. -/
  | worker (w : ℕ) (input : WorkerInput)

/-! ## The shared state -/

/-- An HTTP join issued by a relay. -/
structure Rejoin (V : Type) where
  /-- The session of the replayed intent. -/
  session : ℕ
  /-- The events relayed between the recording of the intent and the `Live` status. -/
  since : List (ClientEvent V)
  /-- Whether the intent was withdrawn before the request. -/
  withdrawn : Bool

/-- A relayed event that closed a session or forgot its intent. -/
structure Stop (V : Type) where
  connection : ℕ
  /-- The position of the event in the stream of its connection. -/
  position : ℕ
  event : ClientEvent V
  session : ℕ

/-- Observations of a run. -/
structure History (V K : Type) where
  /-- The connections installed so far; generation `g` is entry `g - 1`. -/
  installed : List ℕ
  /-- Events handled by the relay since the remembered intent was recorded. -/
  relayed : List (ClientEvent V)
  rejoins : List (Rejoin V)
  /-- Sessions whose remembered intent the server withdrew. -/
  withdrawn : List ℕ
  /-- Running sessions closed by a relayed event. -/
  stops : List (Stop V)
  /-- Running sessions whose intent was forgotten by a relayed event. -/
  forgets : List (Stop V)
  /-- Every call of `seal` by a worker of the client. -/
  sealed : List (Sealed K)

/-- The state shared by all clones of one client. -/
structure Client (V K : Type) where
  autoRejoinVoice : Bool
  policy : ReconnectPolicy
  stopped : Bool
  connectionGeneration : ℕ
  metadata : Option Metadata
  /-- The state store that hosts read, that of a connection. -/
  state : Option ℕ
  control : Option ℕ
  /-- The holder of the mutex around `control`. -/
  controlHolder : Option Task
  /-- The holder of the shutdown gate. -/
  shutdownHolder : Option Task
  voice : Option ℕ
  voiceIntent : Option VoiceIntent
  keyCache : SessionKeyCache
  connections : List (Connection V)
  workers : List (Worker K)
  sessions : List Session
  /-- The holder of the teardown lock of each session. -/
  teardownHolder : ℕ → Option Task
  /-- The sessions that were left successfully. -/
  left : ℕ → Bool
  /-- The voice gate and the await point of each task. -/
  tasks : Gate.Tasks Task (Pc V)
  history : History V K

namespace Client

variable {V K : Type}

/-- A client before any operation. -/
def new (autoRejoinVoice : Bool) (policy : ReconnectPolicy) : Client V K where
  autoRejoinVoice := autoRejoinVoice
  policy := policy
  stopped := false
  connectionGeneration := 0
  metadata := none
  state := none
  control := none
  controlHolder := none
  shutdownHolder := none
  voice := none
  voiceIntent := none
  keyCache := .new
  connections := []
  workers := []
  sessions := []
  teardownHolder := fun _ => none
  left := fun _ => false
  tasks := {
    holder := none
    pc := fun
      | .host _ => .returned (.ok ())
      | .relay _ => .relayExited }
  history := ⟨[], [], [], [], [], [], []⟩

/-- Move one task, keeping the gate. -/
def goto (s : Client V K) (i : Task) (p : Pc V) : Client V K :=
  { s with tasks := s.tasks.goto i p }

/-- Move one task out of the gate. -/
def release (s : Client V K) (i : Task) (p : Pc V) : Client V K :=
  { s with tasks := s.tasks.release i p }

/-- Move one task into the gate, if it is free. -/
def acquire (s : Client V K) (i : Task) (p : Pc V) : Option (Client V K) :=
  (s.tasks.acquire i p).map fun tasks => { s with tasks := tasks }

/-- The connection behind a handle. -/
def connection? (s : Client V K) (c : ℕ) : Option (Connection V) := s.connections[c]?

/-- Whether the worker of a session has not reached a terminal status. -/
def isRunning (s : Client V K) (session : ℕ) : Bool :=
  ((s.sessions[session]?).bind fun x => s.workers[x.transport]?).any
    fun w => !w.status.isTerminal

/-- Forget the remembered join. -/
def clearVoiceIntent (s : Client V K) : Client V K := { s with voiceIntent := none }

/-- Forget the remembered join if it is that of a session. -/
def clearSessionIntent (s : Client V K) (x : Session) : Client V K :=
  if s.voiceIntent.any fun intent => intent.sessionId = x.sessionId then s.clearVoiceIntent
  else s

/-! ## Joining -/

/-- Return from `joinVoice` with an error: the gate is released, and a relay
forgets the intent it replayed. -/
def failJoin (s : Client V K) (i : Task) (call : JoinCall V) (error : SdkError) : Client V K :=
  match call.caller with
  | .host => s.release i (.returned (.error error))
  | .relay r _ _ => s.clearVoiceIntent.release i (.relayTop r)

/-- The end of a successful join: keep the key of a reused session, remember the
join, return. -/
def recordJoin (s : Client V K) (i : Task) (call : JoinCall V) (session : ℕ) (x : Session)
    (reuse : Option SessionKey) : Client V K :=
  let s := { s with
    keyCache := match reuse with
      | some key => s.keyCache.insert x.sessionId key
      | none => s.keyCache
    voiceIntent :=
      if s.autoRejoinVoice then
        some {
          channelId := call.channelId
          request := call.request
          sessionId := x.sessionId
          session := session }
      else none
    history := { s.history with relayed := [] } }
  match call.caller with
  | .host => s.release i (.returned (.ok ()))
  | .relay r _ _ => s.release i (.relayTop r)

/-- The gate is taken; the client must not have been shut down meanwhile. -/
def joinGate (s : Client V K) (i : Task) (call : JoinCall V) : Option (Client V K) :=
  (s.acquire i (.join call .control)).map fun s =>
    if s.stopped then s.failJoin i call .closed else s

/-- Read the control connection under its mutex; it must be live. Then discover
the metadata. -/
def joinControl (s : Client V K) (i : Task) (call : JoinCall V) : Option (Client V K) :=
  match s.controlHolder with
  | some _ => none
  | none =>
      match s.control, s.control.bind s.connection? with
      | some c, some conn =>
          if conn.status = .closed then some (s.failJoin i call .notConnected)
          else if conn.status ≠ .live then some (s.failJoin i call .controlNotLive)
          else if s.stopped then some (s.failJoin i call .closed)
          else some (s.goto i (.join call (.discovering c s.metadata)))
      | _, _ => some (s.failJoin i call .notConnected)

/-- Metadata is known; bind the join to the control identity and send it. -/
def joinDiscovered (s : Client V K) (i : Task) (call : JoinCall V) (c : ℕ)
    (cached : Option Metadata) (result : Except SdkError Metadata) : Option (Client V K) :=
  match s.connection? c, cached.elim result .ok with
  | none, _ => none
  | some _, .error e => some (s.failJoin i call e)
  | some conn, .ok metadata =>
      let s := { s with metadata := some metadata }
      match metadata.codecs.head? with
      | none => some (s.failJoin i call .codecUnavailable)
      | some codec =>
          if conn.status ≠ .live then some (s.failJoin i call .controlNotLive)
          else
            match conn.controlId with
            | none => some (s.failJoin i call .voiceControlUnavailable)
            | some controlId =>
                let s := match call.caller with
                  | .host => s
                  | .relay _ session since =>
                      { s with history := { s.history with
                        rejoins := s.history.rejoins ++
                          [(⟨session, since, decide (session ∈ s.history.withdrawn)⟩ :
                            Rejoin V)] } }
                some (s.goto i (.join call (.requesting {
                  control := c
                  controlId := controlId
                  generation := s.connectionGeneration
                  metadata := metadata
                  codec := codec })))

/-- The transport configuration of a join response. -/
def negotiate (env : Env V K) (b : Binding) (channelId : Snowflake)
    (response : VoiceJoinResponse) : Except SdkError VoiceSessionConfig :=
  let negotiated := response.voice
  if response.channelId ≠ channelId then .error (.channelMismatch channelId)
  else
    match decodeSessionKey env.base64 negotiated.encrypted negotiated.created negotiated.key with
    | .error e => .error e
    | .ok key =>
        match VoiceSessionConfig.newWithProtocolVersion b.metadata.voiceEndpoint
          negotiated.sessionId negotiated.protocolVersion negotiated.encrypted
          negotiated.maxPayload negotiated.expiresAt key with
        | .error e => .error (.voice e)
        | .ok config =>
            match config.withStreamTypes b.metadata.voiceStreamTypes with
            | .error e => .error (.voice e)
            | .ok config => .ok config

/-- The HTTP join answered. -/
def joinResponded (env : Env V K) (s : Client V K) (i : Task) (call : JoinCall V) (b : Binding)
    (result : Except Http.HttpError VoiceJoinResponse) : Client V K :=
  match result with
  | .error e => s.failJoin i call (.http e)
  | .ok response =>
      match negotiate env b call.channelId response with
      | .error e => s.failJoin i call e
      | .ok config =>
          let negotiated := response.voice
          let reuse :=
            if negotiated.encrypted && !negotiated.created && negotiated.key.isNone then
              s.keyCache negotiated.sessionId
            else none
          s.goto i (.join call (.connecting b config reuse))

/-- The UDP socket is connected; build the codec and start the worker. -/
def joinConnected (env : Env V K) (s : Client V K) (i : Task) (call : JoinCall V) (b : Binding)
    (config : VoiceSessionConfig) (reuse : Option SessionKey)
    (result : Except VoiceError Unit) : Client V K :=
  match result with
  | .error e => s.failJoin i call (.voice e)
  | .ok () =>
      match PacketCodec.fromConfig env.crypto config s.keyCache with
      | (cache, .error e) => ({ s with keyCache := cache }).failJoin i call (.voice e)
      | (cache, .ok codec) =>
          ({ s with keyCache := cache, workers := s.workers ++ [Worker.new codec] }).goto i
            (.join call (.starting b s.workers.length reuse))

/-- Ask a worker to close. -/
def closeWorker (s : Client V K) (w : ℕ) : Client V K :=
  { s with workers := s.workers.modify w fun worker => worker.requestTermination .close }

/-- The worker started. If the authority the join was bound to is gone the
transport is closed again; otherwise the session is installed and the previous
one closed. -/
def joinStarted (s : Client V K) (i : Task) (call : JoinCall V) (b : Binding) (w : ℕ)
    (reuse : Option SessionKey) : Option (Client V K) :=
  match s.connection? b.control, s.workers[w]? with
  | some conn, some worker =>
      match worker.started with
      | none => none
      | some (.error e) => some (s.failJoin i call (.voice e))
      | some (.ok ()) =>
          if s.stopped || s.connectionGeneration ≠ b.generation ||
              conn.controlId ≠ some b.controlId then
            some ((s.closeWorker w).goto i (.join call (.discarding w)))
          else
            let session := s.sessions.length
            let x : Session := {
              channelId := call.channelId
              codec := b.codec
              transport := w
              sessionId := worker.codec.sessionId
              control := b.control
              controlGeneration := b.generation
              socket := conn.socketsAt conn.sent.length
              since := conn.sent.length }
            let t := { s with sessions := s.sessions ++ [x], voice := some session }
            match s.voice with
            | none => some (t.recordJoin i call session x reuse)
            | some previous => some (t.goto i (.teardown previous (.join call session reuse)))
  | _, _ => none

/-- The transport of a join that lost its authority has closed. -/
def joinDiscarded (s : Client V K) (i : Task) (call : JoinCall V) (w : ℕ) :
    Option (Client V K) :=
  match s.workers[w]? with
  | none => none
  | some worker =>
      if worker.status.isTerminal then
        some (s.failJoin i call (if s.stopped then .closed else .voiceControlUnavailable))
      else none

/-! ## Closing and leaving -/

/-- Return from `leave` on a session. `Client.leaveVoice` keeps the handle of a
failed leave and releases the gate. -/
def finishLeave (s : Client V K) (i : Task) (session : ℕ) (viaClient : Bool)
    (result : Except SdkError Unit) : Client V K :=
  if viaClient then
    let s := match result with
      | .ok () => s
      | .error _ => { s with voice := some session }
    s.release i (.returned result)
  else s.goto i (.returned result)

/-- Take the teardown lock of a session and ask its worker to stop. A session
that was left already is not left again. -/
def lockTeardown (s : Client V K) (i : Task) (session : ℕ) (k : After V) : Option (Client V K) :=
  match s.teardownHolder session, s.sessions[session]? with
  | none, some x =>
      match k with
      | .leave viaClient =>
          if s.left session then some (s.finishLeave i session viaClient (.ok ()))
          else
            some (({ s with teardownHolder :=
              Function.update s.teardownHolder session (some i) }.closeWorker x.transport).goto i
                (.stopping session k))
      | _ =>
          some (({ s with teardownHolder :=
            Function.update s.teardownHolder session (some i) }.closeWorker x.transport).goto i
              (.stopping session k))
  | _, _ => none

/-- Release the teardown lock of a session. -/
def unlockTeardown (s : Client V K) (session : ℕ) : Client V K :=
  { s with teardownHolder := Function.update s.teardownHolder session none }

/-- The worker has stopped: forget its key and go on. -/
def transportStopped (s : Client V K) (i : Task) (session : ℕ) (k : After V) :
    Option (Client V K) :=
  match s.sessions[session]? with
  | none => none
  | some x =>
      match s.workers[x.transport]? with
      | none => none
      | some worker =>
          if !worker.status.isTerminal then none
          else
            let s := { s with keyCache := s.keyCache.remove x.sessionId }
            match k with
            | .join call next reuse =>
                (s.sessions[next]?).map fun y =>
                  (s.unlockTeardown session).recordJoin i call next y reuse
            | .relay r => some ((s.unlockTeardown session).release i (.relayTop r))
            | .close => some ((s.unlockTeardown session).goto i (.returned (.ok ())))
            | .shutdown => some ((s.unlockTeardown session).release i .shutdownControl)
            | .leave viaClient =>
                match (s.connection? x.control).bind (·.controlId) with
                | none =>
                    some ((s.unlockTeardown session).finishLeave i session viaClient
                      (.error .voiceControlUnavailable))
                | some _ => some (s.goto i (.leaving session k))

/-- The HTTP leave answered. -/
def leaveResponded (s : Client V K) (i : Task) (session : ℕ) (k : After V)
    (result : Except Http.HttpError Unit) : Option (Client V K) :=
  match k, result with
  | .leave viaClient, .ok () =>
      some ((({ s with left := Function.update s.left session true }).unlockTeardown
        session).finishLeave i session viaClient (.ok ()))
  | .leave viaClient, .error e =>
      some ((s.unlockTeardown session).finishLeave i session viaClient (.error (.http e)))
  | _, _ => none

/-- `leaveVoice` has the gate: take the current session and leave it. -/
def leaveCurrent (s : Client V K) (i : Task) : Option (Client V K) :=
  match s.tasks.holder, s.voice with
  | some _, _ => none
  | none, none => some (s.goto i (.returned (.ok ())))
  | none, some session =>
      match s.sessions[session]? with
      | none => none
      | some x =>
          ({ s with voice := none }.clearSessionIntent x).acquire i
            (.teardown session (.leave true))

/-! ## The event relay -/

/-- The events that stop the voice transport. -/
def stopsVoice : ClientEvent V → Bool
  | .voiceLost _ | .disconnected _ | .statusChanged .reconnecting
  | .statusChanged .closed => true
  | _ => false

/-- The events that discard the remembered join. -/
def clearsIntent : ClientEvent V → Bool
  | .voiceLost _ | .statusChanged .closed => true
  | _ => false

/-- The event after which the remembered join is replayed. -/
def rejoinsVoice : ClientEvent V → Bool
  | .statusChanged .live => true
  | _ => false

/-- Discard the remembered join for an event. A forgotten intent of the running
current session is observed. -/
def forgetIntent (s : Client V K) (r : Relay) (event : ClientEvent V) : Client V K :=
  if clearsIntent event then
    let forgets := match s.voiceIntent, s.voice with
      | some intent, some session =>
          if intent.session = session && s.isRunning session then
            [⟨r.connection, r.next, event, session⟩]
          else []
      | _, _ => []
    { s.clearVoiceIntent with history := { s.history with
      forgets := s.history.forgets ++ forgets } }
  else s

/-- Replay the remembered join, if the client is configured to. -/
def rejoinVoiceIfConfigured (s : Client V K) (i : Task) (r : Relay) : Client V K :=
  match s.autoRejoinVoice, s.voiceIntent with
  | true, some intent =>
      if s.stopped then s.clearVoiceIntent.goto i (.relayTop r)
      else
        s.goto i (.join ⟨.relay r intent.session s.history.relayed, intent.channelId,
          intent.request⟩ .gate)
  | _, _ => s.goto i (.relayTop r)

/-- The relay of `generation` received an event, the one before its new cursor
`r.next + 1`. -/
def handleEvent (s : Client V K) (i : Task) (generation : ℕ) (r : Relay)
    (event : ClientEvent V) : Client V K :=
  let r' : Relay := { r with next := r.next + 1 }
  if s.connectionGeneration ≠ generation then s.goto i (.relayTop r')
  else
    let s := s.forgetIntent r event
    if stopsVoice event then
      { s with history := { s.history with relayed := s.history.relayed ++ [event] } }.goto i
        (.relayStop r' event)
    else if rejoinsVoice event then
      let s := s.rejoinVoiceIfConfigured i r'
      { s with history := { s.history with relayed := s.history.relayed ++ [event] } }
    else
      { s with history := { s.history with relayed := s.history.relayed ++ [event] } }.goto i
        (.relayTop r')

/-- One poll of the relay's receiver. -/
def relayReceive (s : Client V K) (i : Task) (generation : ℕ) (r : Relay) :
    Option (Client V K) :=
  match s.connection? r.connection with
  | none => none
  | some conn =>
      match conn.socket.events.tryRecv r.next with
      | (.empty, _) => none
      | (.lagged _, next) => some (s.goto i (.relayTop { r with next := next }))
      | (.message event, _) => some (s.handleEvent i generation r event)

/-- The relay has the gate: close the current session if it was joined on the
relay's connection generation. -/
def stopVoiceTransport (s : Client V K) (i : Task) (generation : ℕ) (r : Relay)
    (event : ClientEvent V) : Option (Client V K) :=
  match s.tasks.holder with
  | some _ => none
  | none =>
      match s.voice, s.voice.bind (s.sessions[·]?) with
      | some session, some x =>
          if x.controlGeneration = generation then
            let stops :=
              if s.isRunning session then [⟨r.connection, r.next - 1, event, session⟩] else []
            { s with
              voice := none
              history := { s.history with stops := s.history.stops ++ stops } }.acquire i
                (.teardown session (.relay r))
          else some (s.goto i (.relayTop r))
      | _, _ => some (s.goto i (.relayTop r))

/-! ## Connecting and shutting down -/

/-- `connect` has the control mutex: a connection that is not closed is kept. -/
def connectLocked (s : Client V K) (i : Task) : Option (Client V K) :=
  match s.controlHolder with
  | some _ => none
  | none =>
      if (s.control.bind s.connection?).any fun conn => conn.status ≠ .closed then
        some (s.goto i (.returned (.ok ())))
      else some ({ s with control := none, controlHolder := some i }.goto i .connectSnapshot)

/-- The initial snapshot arrived; the owner task of the new connection starts. -/
def connectReady (s : Client V K) (i : Task) (result : Except RealtimeError StateSnapshot) :
    Client V K :=
  match result with
  | .error e => { s with controlHolder := none }.goto i (.returned (.error (.realtime e)))
  | .ok snapshot =>
      { s with connections := s.connections ++ [Connection.new snapshot s.policy] }.goto i
        (.connectInstall s.connections.length)

/-- Set the shutdown flag of a connection. -/
def closeConnection (s : Client V K) (c : ℕ) : Client V K :=
  { s with connections := s.connections.modify c fun conn => { conn with stopped := true } }

/-- Install a new connection: advance the generation, start its relay at the end
of its event stream, release the mutex. -/
def connectInstall (s : Client V K) (i : Task) (c : ℕ) : Option (Client V K) :=
  match s.connection? c with
  | none => none
  | some conn =>
      if s.stopped then some ((s.closeConnection c).goto i (.connectAbort c))
      else
        let generation := s.connectionGeneration + 1
        some ({ s with
          connectionGeneration := generation
          state := some c
          control := some c
          controlHolder := none
          history := { s.history with installed := s.history.installed ++ [c] } }.goto
            (.relay generation)
            (.relayTop ⟨c, conn.socket.events.subscribe⟩) |>.goto i (.returned (.ok ())))

/-- The metadata request of `discover` was answered. -/
def discovered (s : Client V K) (i : Task) (result : Except SdkError Metadata) : Client V K :=
  match result with
  | .error e => s.goto i (.returned (.error e))
  | .ok metadata => { s with metadata := some metadata }.goto i (.returned (.ok ()))

/-- Whether a connection has reached its terminal status. -/
def isClosed (s : Client V K) (c : ℕ) : Bool :=
  (s.connection? c).any fun conn => conn.status = .closed

/-- Shutdown has the gate: close the current session. -/
def shutdownVoice (s : Client V K) (i : Task) : Option (Client V K) :=
  match s.tasks.holder, s.voice with
  | some _, _ => none
  | none, none => some (s.goto i .shutdownControl)
  | none, some session => { s with voice := none }.acquire i (.teardown session .shutdown)

/-- Shutdown forgets the keys, the intent and the state. -/
def shutdownClear (s : Client V K) (i : Task) : Client V K :=
  { s with
    keyCache := .new
    voiceIntent := none
    state := none }.goto i .shutdownAborting

/-- The last part of shutdown: abort the relays. -/
def shutdownFinish (s : Client V K) (i : Task) : Client V K :=
  let aborted (t : Option Task) : Option Task :=
    match t with
    | some (.relay _) => none
    | t => t
  { s with
    shutdownHolder := none
    teardownHolder := fun session => aborted (s.teardownHolder session)
    tasks := {
      holder := aborted s.tasks.holder
      pc := fun
        | .host n => s.tasks.pc (.host n)
        | .relay _ => .relayExited } }.goto i (.returned (.ok ()))

/-- Shutdown closes the control connection under its mutex. -/
def shutdownConnection (s : Client V K) (i : Task) : Option (Client V K) :=
  match s.controlHolder, s.control with
  | some _, _ => none
  | none, none => some (s.shutdownClear i)
  | none, some c =>
      some ({ s with control := none, controlHolder := some i }.closeConnection c |>.goto i
        (.shutdownClosing c))

/-! ## Steps -/

/-- Start an operation. -/
def call (s : Client V K) (i : Task) : Call → Option (Client V K)
  | .connect =>
      if s.stopped then some (s.goto i (.returned (.error .closed)))
      else some (s.goto i .connectLock)
  | .discover =>
      if s.stopped then some (s.goto i (.returned (.error .closed)))
      else if s.metadata.isSome then some (s.goto i (.returned (.ok ())))
      else some (s.goto i .discovering)
  | .joinVoice channelId request =>
      if s.stopped then some (s.goto i (.returned (.error .closed)))
      else some (s.goto i (.join ⟨.host, channelId, request⟩ .gate))
  | .leaveVoice =>
      if s.stopped then some (s.goto i (.returned (.error .closed)))
      else some (s.clearVoiceIntent.goto i .leaveGate)
  | .closeSession session =>
      (s.sessions[session]?).map fun x => (s.clearSessionIntent x).goto i (.teardown session .close)
  | .leaveSession session =>
      (s.sessions[session]?).map fun x =>
        (s.clearSessionIntent x).goto i (.teardown session (.leave false))
  | .shutdown => some (s.goto i .shutdownLock)

/-- Run a join to its next await point. -/
def resumeJoin (env : Env V K) (s : Client V K) (i : Task) (call : JoinCall V) :
    JoinPc → Input → Option (Client V K)
  | .gate, .ready => s.joinGate i call
  | .control, .ready => s.joinControl i call
  | .discovering c cached, .metadata result => s.joinDiscovered i call c cached result
  | .requesting b, .joined result => some (s.joinResponded env i call b result)
  | .connecting b config reuse, .udp result =>
      some (s.joinConnected env i call b config reuse result)
  | .starting b w reuse, .ready => s.joinStarted i call b w reuse
  | .discarding w, .ready => s.joinDiscarded i call w
  | _, _ => none

/-- Run a task to its next await point. -/
def resume (env : Env V K) (s : Client V K) (i : Task) (input : Input) : Option (Client V K) :=
  match s.tasks.pc i, input with
  | .connectLock, .ready => s.connectLocked i
  | .connectSnapshot, .snapshot result => some (s.connectReady i result)
  | .connectInstall c, .ready => s.connectInstall i c
  | .connectAbort c, .ready =>
      if s.isClosed c then
        some ({ s with controlHolder := none }.goto i (.returned (.error .closed)))
      else none
  | .discovering, .metadata result => some (s.discovered i result)
  | .relayTop r, .ready =>
      match i with
      | .relay generation =>
          if s.connectionGeneration ≠ generation then some (s.goto i .relayExited)
          else some (s.goto i (.relayReceive r))
      | .host _ => none
  | .relayReceive r, .ready =>
      match i with
      | .relay generation => s.relayReceive i generation r
      | .host _ => none
  | .relayStop r event, .ready =>
      match i with
      | .relay generation => s.stopVoiceTransport i generation r event
      | .host _ => none
  | .join call stage, input => s.resumeJoin env i call stage input
  | .leaveGate, .ready => s.leaveCurrent i
  | .teardown session k, .ready => s.lockTeardown i session k
  | .stopping session k, .ready => s.transportStopped i session k
  | .leaving session k, .left result => s.leaveResponded i session k result
  | .shutdownLock, .ready =>
      match s.shutdownHolder with
      | some _ => none
      | none =>
          if s.stopped then some (s.goto i (.returned (.ok ())))
          else some ({ s with shutdownHolder := some i, stopped := true }.goto i .shutdownGate)
  | .shutdownGate, .ready => s.shutdownVoice i
  | .shutdownControl, .ready => s.shutdownConnection i
  | .shutdownClosing c, .ready =>
      if s.isClosed c then some ({ s with controlHolder := none }.shutdownClear i) else none
  | .shutdownAborting, .ready => some (s.shutdownFinish i)
  | _, _ => none

/-- The session a state projects voice authority to. -/
def authoritySession (conn : Connection V) : Option VoiceSessionId :=
  conn.socket.store.state.selfUser.voiceAuthority.map (·.voiceSessionId)

/-- The intents a step of a connection withdraws: while the control connection was
live its projection named the session of the remembered intent, and does no more. -/
def withdrawnByState (s : Client V K) (c : ℕ) (before after : Connection V) : List ℕ :=
  match s.voiceIntent with
  | none => []
  | some intent =>
      if s.control = some c ∧ before.status = .live ∧
          authoritySession before = some intent.sessionId ∧
          authoritySession after ≠ some intent.sessionId then [intent.session] else []

/-- The intents a worker's turn withdraws: it accepted a revocation of the session
of the remembered intent while the control connection was live. -/
def withdrawnByWorker (s : Client V K) (worker after : Worker K) (input : WorkerInput) : List ℕ :=
  match s.voiceIntent, input with
  | some intent, .inbound _ =>
      if after.status.isTerminal ∧ worker.codec.sessionId = intent.sessionId ∧
          (s.control.bind s.connection?).any fun conn => conn.status = .live then
        [intent.session]
      else []
  | _, _ => []

/-- One step of a connection's owner task. -/
def stepEngine (env : Env V K) (s : Client V K) (c : ℕ) (input : EngineInput V) :
    Option (Client V K) :=
  match s.connection? c with
  | none => none
  | some conn =>
      (conn.step env.serde input).map fun next =>
        { s with
          connections := s.connections.set c next
          history := { s.history with
            withdrawn := s.history.withdrawn ++ s.withdrawnByState c conn next } }

/-- One turn of a UDP worker. A worker that stops removes the key of its session. -/
def stepWorker (env : Env V K) (s : Client V K) (w : ℕ) (input : WorkerInput) :
    Option (Client V K) :=
  match s.workers[w]? with
  | none => none
  | some worker =>
      (worker.step env.crypto input).map fun (next, sealed) =>
        { s with
          workers := s.workers.set w next
          keyCache :=
            if next.status.isTerminal then s.keyCache.remove worker.codec.sessionId
            else s.keyCache
          history := { s.history with
            withdrawn := s.history.withdrawn ++ s.withdrawnByWorker worker next input
            sealed := s.history.sealed ++ sealed } }

/-- One action of a schedule. -/
def step (env : Env V K) (s : Client V K) : Action V → Option (Client V K)
  | .call n c =>
      match s.tasks.pc (.host n) with
      | .returned _ => s.call (.host n) c
      | _ => none
  | .resume i input => s.resume env i input
  | .engine c input => s.stepEngine env c input
  | .closeControl c => some (s.closeConnection c)
  | .worker w input => s.stepWorker env w input

end Client

/-! ## A sample client -/

/-- A cipher that names what it was derived from. -/
abbrev SampleCipher : Type := List UInt8 × List UInt8 × List UInt8

/-- Key derivation as a free function, and a cipher that only appends a tag. -/
def sampleCrypto : Crypto SampleCipher where
  deriveCipher salt material info := (salt, material, info)
  encrypt _ _ message _ := some (message ++ List.replicate 16 0)
  decrypt _ _ ciphertext _ := some (ciphertext.take (ciphertext.length - 16))

def sampleClientEnv : Env (Option VoiceAuthority) SampleCipher where
  serde := authorityPayloads
  crypto := sampleCrypto
  base64 text := if text = "key" then some (List.replicate 32 1) else none

def sampleMetadata : Metadata where
  voiceEndpoint := ⟨"voice.example", 7601⟩
  codecs := [⟨"opus", 48000, 2, [20]⟩]
  voiceStreamTypes := [1]

def sampleChannel : Snowflake := ⟨10, by decide, by decide⟩

/-- The answer to a join of session `n`, created with a key or reused without one. -/
def sampleJoined (n : Fin 255) (created : Bool) : VoiceJoinResponse where
  channelId := sampleChannel
  voice := {
    created := created
    sessionId := sampleId .session n
    key := if created then some "key" else none
    encrypted := true
    maxPayload := 100
    protocolVersion := 1
    expiresAt := 1 }

/-- A client that rejoins voice and reconnects without a limit. -/
def sampleClient : Client (Option VoiceAuthority) SampleCipher := .new true ⟨true, none⟩

/-- The schedules of the sample runs. -/
abbrev Schedule : Type := List (Action (Option VoiceAuthority))

/-- Host `h` installs connection `c`, whose task starts. -/
def connecting (h c : ℕ) : Schedule :=
  [.call h .connect, .resume (.host h) .ready,
    .resume (.host h) (.snapshot (.ok (sampleSnapshot 5 none))), .resume (.host h) .ready,
    .engine c .scheduled]

/-- Connection `c` opens a socket with control identity `n`. -/
def opening (c : ℕ) (n : Fin 255) : Schedule :=
  [.engine c (.token (.ok ())), .engine c (.connected (.ok ())),
    .engine c (.first (.ok (.connectionReady (sampleReady n)))), .engine c (.helloSent (.ok ()))]

/-- Connection `c` processes a frame. -/
def receiving (c : ℕ) (frame : ServerFrame (Option VoiceAuthority)) : Schedule :=
  [.engine c (.frame (sampleEnv 9) frame)]

/-- Connection `c` loses its socket and starts over. -/
def losing (c : ℕ) : Schedule := [.engine c (.lost (.transport "reset")), .engine c .slept]

/-- Task `i` goes through a join that ends on worker `w`. -/
def joining (i : Task) (w : ℕ) (n : Fin 255) (created : Bool) : Schedule :=
  [.resume i .ready, .resume i .ready, .resume i (.metadata (.ok sampleMetadata)),
    .resume i (.joined (.ok (sampleJoined n created))), .resume i (.udp (.ok ())),
    .worker w (.start (.ok ())), .resume i .ready]

/-- Host `h` joins session `n`. -/
def hostJoining (h w : ℕ) (n : Fin 255) (created : Bool) : Schedule :=
  .call h (.joinVoice sampleChannel ⟨none, false, none⟩) :: joining (.host h) w n created

/-- The relay of generation `g` runs `n` times. -/
def relaying (g n : ℕ) : Schedule := List.replicate n (.resume (.relay g) .ready)

/-- A host connects, the connection becomes live, and the relay reads its events. -/
def liveSchedule : Schedule :=
  connecting 0 0 ++ opening 0 0 ++ receiving 0 (.syncComplete ⟨sampleCursor⟩) ++ relaying 1 10

/-- The host then joins session `0`. -/
def joinedSchedule : Schedule := liveSchedule ++ hostJoining 0 0 0 true

end ZephyrVox.Sdk
