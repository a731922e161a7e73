import ZephyrVox.Sdk.Client

/-!
# The branches of the operations

Each part of a join, of a close and of a shutdown is presented once as a relation, with
one constructor for each way it ends and the guards that lead there. What a part keeps,
or where it leaves its task, is then read off the constructors, and the definition is
unfolded here only.

## Main definitions

* `Installs`, `install` — the session a join installs, and why it may.
* `JoinRead`, `JoinBound`, `JoinAnswered`, `JoinConnects`, `JoinEnds` — the parts of a join.
* `TeardownLocked`, `TransportClosed`, `LeaveAnswered` — the parts of a close.
* `VoiceShut`, `ControlShut` — the parts of a shutdown.
-/

namespace ZephyrVox.Sdk

open Realtime Voice

variable {V K : Type}

namespace Client

variable {env : Env V K} {s t : Client V K} {i : Task}

/-! ## Fields that a part keeps -/

section Fields

variable (s : Client V K) (i : Task) (call : JoinCall V) (e : SdkError) (v : ℕ) (x : Session)
  (reuse : Option SessionKey) (viaClient : Bool) (result : Except SdkError Unit)

@[simp] theorem failJoin_voice : (s.failJoin i call e).voice = s.voice := by
  unfold failJoin
  split <;> rfl

@[simp] theorem failJoin_state : (s.failJoin i call e).state = s.state := by
  unfold failJoin
  split <;> rfl

@[simp] theorem failJoin_keyCache : (s.failJoin i call e).keyCache = s.keyCache := by
  unfold failJoin
  split <;> rfl

@[simp] theorem failJoin_left : (s.failJoin i call e).left = s.left := by
  unfold failJoin
  split <;> rfl

@[simp] theorem failJoin_workers : (s.failJoin i call e).workers = s.workers := by
  unfold failJoin
  split <;> rfl

@[simp] theorem recordJoin_voice : (s.recordJoin i call v x reuse).voice = s.voice := by
  unfold recordJoin
  dsimp only
  split <;> rfl

@[simp] theorem recordJoin_state : (s.recordJoin i call v x reuse).state = s.state := by
  unfold recordJoin
  dsimp only
  split <;> rfl

@[simp] theorem recordJoin_sessions : (s.recordJoin i call v x reuse).sessions = s.sessions := by
  unfold recordJoin
  dsimp only
  split <;> rfl

@[simp] theorem recordJoin_left : (s.recordJoin i call v x reuse).left = s.left := by
  unfold recordJoin
  dsimp only
  split <;> rfl

@[simp] theorem finishLeave_workers :
    (s.finishLeave i v viaClient result).workers = s.workers := by
  unfold finishLeave
  cases viaClient <;> cases result <;> rfl

@[simp] theorem clearSessionIntent_voice : (s.clearSessionIntent x).voice = s.voice := by
  unfold clearSessionIntent
  split <;> rfl

@[simp] theorem clearSessionIntent_state : (s.clearSessionIntent x).state = s.state := by
  unfold clearSessionIntent
  split <;> rfl

@[simp] theorem clearSessionIntent_keyCache : (s.clearSessionIntent x).keyCache = s.keyCache := by
  unfold clearSessionIntent
  split <;> rfl

@[simp] theorem clearSessionIntent_left : (s.clearSessionIntent x).left = s.left := by
  unfold clearSessionIntent
  split <;> rfl

@[simp] theorem clearSessionIntent_tasks : (s.clearSessionIntent x).tasks = s.tasks := by
  unfold clearSessionIntent
  split <;> rfl

@[simp] theorem clearSessionIntent_controlHolder :
    (s.clearSessionIntent x).controlHolder = s.controlHolder := by
  unfold clearSessionIntent
  split <;> rfl

/-! ### Where a part leaves its task -/

theorem finishLeave_pc : (s.finishLeave i v viaClient result).tasks.pc i = .returned result := by
  unfold finishLeave
  cases viaClient <;> simp [goto, release]

/-- A failed join leaves the task outside of any join. -/
theorem failJoin_pc : (s.failJoin i call e).tasks.pc i = .returned (.error e) ∨
    ∃ r, (s.failJoin i call e).tasks.pc i = .relayTop r := by
  unfold failJoin
  split
  · exact .inl (by simp [release])
  case h_2 r session since _ => exact .inr ⟨r, by simp [release]⟩

/-- A recorded join leaves the task outside of any join. -/
theorem recordJoin_pc : (s.recordJoin i call v x reuse).tasks.pc i = .returned (.ok ()) ∨
    ∃ r, (s.recordJoin i call v x reuse).tasks.pc i = .relayTop r := by
  unfold recordJoin
  dsimp only
  split
  · exact .inl (by simp [release])
  case h_2 r session since _ => exact .inr ⟨r, by simp [release]⟩

end Fields

/-! ## A join -/

/-- A join response is being requested; a relay's request is observed. -/
def issued (s : Client V K) (call : JoinCall V) : Client V K :=
  match call.caller with
  | .host => s
  | .relay _ session since =>
      { s with history := { s.history with
        rejoins := s.history.rejoins ++
          [(⟨session, since, decide (session ∈ s.history.withdrawn)⟩ : Rejoin V)] } }

/-- A new session is installed. -/
def install (s : Client V K) (x : Session) : Client V K :=
  { s with sessions := s.sessions ++ [x], voice := some s.sessions.length }

/-- The session a join installs, and why it may. -/
structure Installs (s : Client V K) (call : JoinCall V) (b : Binding) (w : ℕ)
    (conn : Connection V) (x : Session) : Prop where
  running : s.stopped = false
  generation : b.generation = s.connectionGeneration
  connection : s.connection? b.control = some conn
  identity : conn.controlId = some b.controlId
  worker : ∃ worker, s.workers[w]? = some worker ∧ x.sessionId = worker.codec.sessionId
  transport : x.transport = w
  control : x.control = b.control
  controlGeneration : x.controlGeneration = b.generation
  socket : x.socket = conn.socketsAt conn.sent.length
  since : x.since = conn.sent.length

/-- A join reads the control connection, which must be live. -/
inductive JoinRead (s : Client V K) (i : Task) (call : JoinCall V) : Client V K → Prop
  | fails (e : SdkError) : JoinRead s i call (s.failJoin i call e)
  | reads (c : ℕ) (hc : s.control = some c) (hfree : s.controlHolder = none) :
      JoinRead s i call (s.goto i (.join call (.discovering c s.metadata)))

theorem joinControl_cases {call : JoinCall V} (h : s.joinControl i call = some t) :
    JoinRead s i call t := by
  unfold joinControl at h
  split at h
  · cases h
  case h_2 hfree =>
    split at h
    case h_1 c conn hc _ =>
      split at h
      · cases h; exact .fails _
      · split at h
        · cases h; exact .fails _
        · split at h
          · cases h; exact .fails _
          · cases h; exact .reads c hc hfree
    · cases h; exact .fails _

/-- A join is bound to the live connection it has read. -/
inductive JoinBound (s : Client V K) (i : Task) (call : JoinCall V) (c : ℕ) : Client V K → Prop
  | fails (e : SdkError) (metadata : Option Metadata) :
      JoinBound s i call c ({ s with metadata := metadata }.failJoin i call e)
  | binds (conn : Connection V) (metadata : Metadata) (codec : CodecCapability)
      (controlId : ControlConnectionId) (hconn : s.connection? c = some conn)
      (hlive : conn.status = .live) (hid : conn.controlId = some controlId) :
      JoinBound s i call c (({ s with metadata := some metadata }.issued call).goto i
        (.join call (.requesting {
          control := c
          controlId := controlId
          generation := s.connectionGeneration
          metadata := metadata
          codec := codec })))

theorem joinDiscovered_cases {call : JoinCall V} {c : ℕ} {cached : Option Metadata}
    {result : Except SdkError Metadata} (h : s.joinDiscovered i call c cached result = some t) :
    JoinBound s i call c t := by
  unfold joinDiscovered at h
  split at h
  · cases h
  · cases h; exact .fails _ s.metadata
  case h_3 conn metadata hconn _ =>
    dsimp only at h
    split at h
    · cases h; exact .fails _ (some metadata)
    case h_2 codec _ =>
      split at h
      · cases h; exact .fails _ (some metadata)
      case isFalse hlive =>
        split at h
        · cases h; exact .fails _ (some metadata)
        case h_2 controlId hid =>
          have hbinds : JoinBound s i call c _ :=
            .binds conn metadata codec controlId hconn (by simpa using hlive) hid
          obtain ⟨caller, channelId, request⟩ := call
          cases caller with
          | host => cases h; exact hbinds
          | relay r session since => cases h; exact hbinds

/-- The HTTP join answered. -/
inductive JoinAnswered (env : Env V K) (s : Client V K) (i : Task) (call : JoinCall V)
    (b : Binding) (result : Except Http.HttpError VoiceJoinResponse) : Client V K → Prop
  | fails (e : SdkError) : JoinAnswered env s i call b result (s.failJoin i call e)
  | configures (response : VoiceJoinResponse) (config : VoiceSessionConfig)
      (reuse : Option SessionKey) (hresult : result = .ok response)
      (hconfig : negotiate env b call.channelId response = .ok config) :
      JoinAnswered env s i call b result (s.goto i (.join call (.connecting b config reuse)))

theorem joinResponded_cases {call : JoinCall V} {b : Binding}
    {result : Except Http.HttpError VoiceJoinResponse}
    (h : s.joinResponded env i call b result = t) : JoinAnswered env s i call b result t := by
  subst h
  unfold joinResponded
  split
  · exact .fails _
  case h_2 response =>
    split
    · exact .fails _
    case h_2 config hconfig => exact .configures response config _ rfl hconfig

/-- The UDP socket is connected, or is not. -/
inductive JoinConnects (env : Env V K) (s : Client V K) (i : Task) (call : JoinCall V)
    (b : Binding) (config : VoiceSessionConfig) (reuse : Option SessionKey)
    (result : Except VoiceError Unit) : Client V K → Prop
  | fails (e : VoiceError) (hresult : result = .error e) :
      JoinConnects env s i call b config reuse result (s.failJoin i call (.voice e))
  | rejects (cache : SessionKeyCache) (e : VoiceError) (hresult : result = .ok ())
      (hcodec : PacketCodec.fromConfig env.crypto config s.keyCache = (cache, .error e)) :
      JoinConnects env s i call b config reuse result
        ({ s with keyCache := cache }.failJoin i call (.voice e))
  | starts (cache : SessionKeyCache) (codec : PacketCodec K) (hresult : result = .ok ())
      (hcodec : PacketCodec.fromConfig env.crypto config s.keyCache = (cache, .ok codec)) :
      JoinConnects env s i call b config reuse result
        ({ s with keyCache := cache, workers := s.workers ++ [Worker.new codec] }.goto i
          (.join call (.starting b s.workers.length reuse)))

theorem joinConnected_cases {call : JoinCall V} {b : Binding} {config : VoiceSessionConfig}
    {reuse : Option SessionKey} {result : Except VoiceError Unit}
    (h : s.joinConnected env i call b config reuse result = t) :
    JoinConnects env s i call b config reuse result t := by
  subst h
  unfold joinConnected
  split
  case h_1 e => exact .fails e rfl
  · split
    case h_1 cache e hcodec => exact .rejects cache e rfl hcodec
    case h_2 cache codec hcodec => exact .starts cache codec rfl hcodec

/-- A worker was started for a join, which ends or loses its authority. -/
inductive JoinEnds (s : Client V K) (i : Task) (call : JoinCall V) (b : Binding) (w : ℕ)
    (reuse : Option SessionKey) : Client V K → Prop
  | fails (worker : Worker K) (e : VoiceError) (hworker : s.workers[w]? = some worker)
      (hstarted : worker.started = some (.error e)) :
      JoinEnds s i call b w reuse (s.failJoin i call (.voice e))
  | discards : JoinEnds s i call b w reuse ((s.closeWorker w).goto i (.join call (.discarding w)))
  | records (conn : Connection V) (x : Session) (hx : s.Installs call b w conn x)
      (hvoice : s.voice = none) :
      JoinEnds s i call b w reuse ((s.install x).recordJoin i call s.sessions.length x reuse)
  | replaces (conn : Connection V) (x : Session) (previous : ℕ) (hx : s.Installs call b w conn x)
      (hvoice : s.voice = some previous) :
      JoinEnds s i call b w reuse ((s.install x).goto i
        (.teardown previous (.join call s.sessions.length reuse)))

theorem joinStarted_cases {call : JoinCall V} {b : Binding} {w : ℕ} {reuse : Option SessionKey}
    (h : s.joinStarted i call b w reuse = some t) : JoinEnds s i call b w reuse t := by
  unfold joinStarted at h
  split at h
  case h_2 => cases h
  case h_1 conn worker hconn hworker =>
    split at h
    · cases h
    case h_2 e hstarted => cases h; exact .fails worker e hworker hstarted
    · split at h
      · cases h; exact .discards
      case isFalse hauthority =>
        simp only [Bool.or_eq_true, decide_eq_true_eq, not_or, Bool.not_eq_true, ne_eq,
          Decidable.not_not] at hauthority
        obtain ⟨⟨hstopped, hgeneration⟩, hidentity⟩ := hauthority
        have hinstalls (x : Session) (hx : x = {
            channelId := call.channelId
            codec := b.codec
            transport := w
            sessionId := worker.codec.sessionId
            control := b.control
            controlGeneration := b.generation
            socket := conn.socketsAt conn.sent.length
            since := conn.sent.length }) : s.Installs call b w conn x := by
          subst hx
          exact ⟨hstopped, hgeneration.symm, hconn, hidentity, ⟨worker, hworker, rfl⟩, rfl, rfl,
            rfl, rfl, rfl⟩
        split at h
        case h_1 hnone => cases h; exact .records conn _ (hinstalls _ rfl) hnone
        case h_2 previous hvoice =>
          cases h
          exact .replaces conn _ previous (hinstalls _ rfl) hvoice

/-- The worker of a join that lost its authority has stopped. -/
theorem joinDiscarded_cases {call : JoinCall V} {w : ℕ} (h : s.joinDiscarded i call w = some t) :
    ∃ (worker : Worker K) (e : SdkError), s.workers[w]? = some worker ∧
      worker.status.isTerminal = true ∧ t = s.failJoin i call e := by
  unfold joinDiscarded at h
  split at h
  · cases h
  case h_2 worker hworker =>
    split at h
    case isTrue hterminal => cases h; exact ⟨worker, _, hworker, hterminal, rfl⟩
    · cases h

/-! ## A close -/

/-- The worker of a session has reached a terminal status. -/
def HasStopped (s : Client V K) (session : ℕ) : Prop :=
  ∃ x worker, s.sessions[session]? = some x ∧ s.workers[x.transport]? = some worker ∧
    worker.status.isTerminal = true

/-- The teardown lock of a session is taken. -/
inductive TeardownLocked (s : Client V K) (i : Task) (session : ℕ) (k : After V) :
    Client V K → Prop
  /-- The session was left already. -/
  | finds (viaClient : Bool) (hk : k = .leave viaClient) (hleft : s.left session = true) :
      TeardownLocked s i session k (s.finishLeave i session viaClient (.ok ()))
  | stops (x : Session) (hx : s.sessions[session]? = some x)
      (hleft : ∀ viaClient, k = .leave viaClient → s.left session = false) :
      TeardownLocked s i session k (({ s with
        teardownHolder := Function.update s.teardownHolder session (some i) }.closeWorker
          x.transport).goto i (.stopping session k))

theorem lockTeardown_cases {session : ℕ} {k : After V} (h : s.lockTeardown i session k = some t) :
    TeardownLocked s i session k t := by
  unfold lockTeardown at h
  split at h
  case h_2 => cases h
  case h_1 x _ hx =>
    split at h
    case h_1 viaClient =>
      split at h
      case isTrue hleft => cases h; exact .finds viaClient rfl hleft
      case isFalse hleft => cases h; exact .stops x hx fun _ _ => by simpa using hleft
    case h_2 hk => cases h; exact .stops x hx fun viaClient hleave => absurd hleave (hk viaClient)

/-- The worker of a session has stopped, and its key is forgotten. -/
inductive TransportClosed (s : Client V K) (i : Task) (session : ℕ) (x : Session) (k : After V) :
    Client V K → Prop
  | records (call : JoinCall V) (next : ℕ) (reuse : Option SessionKey) (y : Session)
      (hk : k = .join call next reuse) (hy : s.sessions[next]? = some y) :
      TransportClosed s i session x k
        (({ s with keyCache := s.keyCache.remove x.sessionId }.unlockTeardown session).recordJoin i
          call next y reuse)
  | relays (r : Relay) (hk : k = .relay r) : TransportClosed s i session x k
      (({ s with keyCache := s.keyCache.remove x.sessionId }.unlockTeardown session).release i
        (.relayTop r))
  | closes (hk : k = .close) : TransportClosed s i session x k
      (({ s with keyCache := s.keyCache.remove x.sessionId }.unlockTeardown session).goto i
        (.returned (.ok ())))
  | shuts (hk : k = .shutdown) : TransportClosed s i session x k
      (({ s with keyCache := s.keyCache.remove x.sessionId }.unlockTeardown session).release i
        .shutdownControl)
  | fails (viaClient : Bool) (hk : k = .leave viaClient) : TransportClosed s i session x k
      (({ s with keyCache := s.keyCache.remove x.sessionId }.unlockTeardown session).finishLeave i
        session viaClient (.error .voiceControlUnavailable))
  | leaves (viaClient : Bool) (hk : k = .leave viaClient) : TransportClosed s i session x k
      ({ s with keyCache := s.keyCache.remove x.sessionId }.goto i (.leaving session k))

theorem transportStopped_cases {session : ℕ} {k : After V}
    (h : s.transportStopped i session k = some t) :
    ∃ x, s.sessions[session]? = some x ∧ s.HasStopped session ∧
      TransportClosed s i session x k t := by
  unfold transportStopped at h
  split at h
  · cases h
  case h_2 x hx =>
    split at h
    · cases h
    case h_2 worker hworker =>
      split at h
      · cases h
      case isFalse hterminal =>
        refine ⟨x, hx, ⟨x, worker, hx, hworker, by simpa using hterminal⟩, ?_⟩
        cases k with
        | join call next reuse =>
            obtain ⟨y, hy, rfl⟩ := Option.map_eq_some_iff.mp h
            exact .records call next reuse y rfl hy
        | relay r => cases h; exact .relays r rfl
        | close => cases h; exact .closes rfl
        | shutdown => cases h; exact .shuts rfl
        | leave viaClient =>
            dsimp only at h
            split at h
            · cases h; exact .fails viaClient rfl
            · cases h; exact .leaves viaClient rfl

/-- The HTTP leave answered. -/
inductive LeaveAnswered (s : Client V K) (i : Task) (session : ℕ) (k : After V) :
    Client V K → Prop
  | leaves (viaClient : Bool) (hk : k = .leave viaClient) : LeaveAnswered s i session k
      (({ s with left := Function.update s.left session true }.unlockTeardown session).finishLeave
        i session viaClient (.ok ()))
  | fails (viaClient : Bool) (e : SdkError) (hk : k = .leave viaClient) :
      LeaveAnswered s i session k
        ((s.unlockTeardown session).finishLeave i session viaClient (.error e))

theorem leaveResponded_cases {session : ℕ} {k : After V} {result : Except Http.HttpError Unit}
    (h : s.leaveResponded i session k result = some t) : LeaveAnswered s i session k t := by
  unfold leaveResponded at h
  split at h
  case h_1 viaClient => cases h; exact .leaves viaClient rfl
  case h_2 viaClient e => cases h; exact .fails viaClient _ rfl
  · cases h

/-! ## A shutdown -/

/-- Shutdown has the gate: the current session is taken out of its slot. -/
inductive VoiceShut (s : Client V K) (i : Task) : Client V K → Prop
  | finds (hfree : s.tasks.holder = none) (hvoice : s.voice = none) :
      VoiceShut s i (s.goto i .shutdownControl)
  | takes (session : ℕ) (t : Client V K) (hvoice : s.voice = some session)
      (h : { s with voice := none }.acquire i (.teardown session .shutdown) = some t) :
      VoiceShut s i t

theorem shutdownVoice_cases (h : s.shutdownVoice i = some t) : VoiceShut s i t := by
  unfold shutdownVoice at h
  split at h
  · cases h
  case h_2 hfree hvoice => cases h; exact .finds hfree hvoice
  case h_3 session _ hvoice => exact .takes session t hvoice h

/-- Shutdown has the control mutex. -/
inductive ControlShut (s : Client V K) (i : Task) : Client V K → Prop
  | clears (hfree : s.controlHolder = none) (hcontrol : s.control = none) :
      ControlShut s i (s.shutdownClear i)
  | closes (c : ℕ) (hfree : s.controlHolder = none) (hcontrol : s.control = some c) :
      ControlShut s i (({ s with control := none, controlHolder := some i }.closeConnection
        c).goto i (.shutdownClosing c))

theorem shutdownConnection_cases (h : s.shutdownConnection i = some t) : ControlShut s i t := by
  unfold shutdownConnection at h
  split at h
  · cases h
  case h_2 hfree hcontrol => cases h; exact .clears hfree hcontrol
  case h_3 c hfree hcontrol => cases h; exact .closes c hfree hcontrol

end Client

end ZephyrVox.Sdk
