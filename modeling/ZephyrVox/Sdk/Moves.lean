import ZephyrVox.Lib.Transition
import ZephyrVox.Sdk.Branches

/-!
# What an action of the client can do

Every action is classified once by its effect on what the tasks share, so that an
invariant is checked against the few effects that matter to it and not against
every await point of every operation.

Most actions only move one task along and change nothing an invariant reads; such
a move is *calm*, and it never gives the task a role (`Pc.Le`) it did not have.
The other effects are one constructor each of `Effect`.

## Main definitions

* `Pc.relay?`, `Pc.stop?`, `Pc.rejoin?`, `Pc.pending?`, `Pc.bound?` — the roles of
  a task at an await point.
* `Calm`, `Pc.Le` — changes that no invariant reads.
* `Effect` — the effect of a task's move.
* `Client.step_cases` — every action is a task's move with an effect, a step of a
  connection, a turn of a worker, a close request or the abort of the relays.
-/

namespace ZephyrVox.Sdk

open Realtime Voice

variable {V K : Type}

/-! ## The roles of a task -/

/-- The relay a join returns to. -/
def Caller.relay? : Caller V → Option Relay
  | .host => none
  | .relay r _ _ => some r

/-- The intent a join replays. -/
def Caller.rejoin? : Caller V → Option (ℕ × List (ClientEvent V))
  | .host => none
  | .relay _ session since => some (session, since)

/-- The relay that waits for a session to close. -/
def After.relay? : After V → Option Relay
  | .join call _ _ => call.caller.relay?
  | .relay r => some r
  | .leave _ | .close | .shutdown => none

/-- The installed session whose join waits for the previous one to close. -/
def After.pending? : After V → Option ℕ
  | .join _ session _ => some session
  | .relay _ | .leave _ | .close | .shutdown => none

namespace Pc

/-- The cursor of a relay, wherever its task is. -/
def relay? : Pc V → Option Relay
  | .relayTop r | .relayReceive r | .relayStop r _ => some r
  | .join call _ => call.caller.relay?
  | .teardown _ k | .stopping _ k | .leaving _ k => k.relay?
  | _ => none

/-- The stop event a relay has received and not yet acted on. -/
def stop? : Pc V → Option (ClientEvent V)
  | .relayStop _ event => some event
  | _ => none

/-- The intent a relay replays, before the HTTP request, with what was relayed
since it was recorded. -/
def rejoin? : Pc V → Option (ℕ × List (ClientEvent V))
  | .join call .gate | .join call .control | .join call (.discovering _ _) => call.caller.rejoin?
  | _ => none

/-- The installed session that a join has not yet recorded. -/
def pending? : Pc V → Option ℕ
  | .teardown _ k | .stopping _ k | .leaving _ k => k.pending?
  | _ => none

/-- A join holds the gate until it has recorded its session. -/
theorem holdsGate_of_pending {p : Pc V} {v : ℕ} (h : p.pending? = some v) : p.holdsGate = true := by
  have hafter {k : After V} (h : k.pending? = some v) : k.holdsGate = true := by
    cases k with
    | join => rfl
    | _ => cases h
  cases p with
  | teardown | stopping | leaving => exact hafter h
  | _ => cases h

/-- The connection a join has read. -/
def reading? : Pc V → Option ℕ
  | .join _ (.discovering c _) => some c
  | _ => none

/-- The identity a join is bound to. -/
def bound? : Pc V → Option Binding
  | .join _ (.requesting b) | .join _ (.connecting b _ _) | .join _ (.starting b _ _) => some b
  | _ => none

/-- Whether a task replaces the control connection. -/
def connects : Pc V → Bool
  | .connectSnapshot | .connectInstall _ => true
  | _ => false

/-- Whether a task holds the control mutex. -/
def holdsControl : Pc V → Bool
  | .connectSnapshot | .connectInstall _ | .connectAbort _ | .shutdownClosing _ => true
  | _ => false

/-- Whether shutdown is past the current voice session. -/
def silences : Pc V → Bool
  | .teardown _ .shutdown | .stopping _ .shutdown | .leaving _ .shutdown | .shutdownControl
  | .shutdownClosing _ | .shutdownAborting => true
  | _ => false

/-- Whether shutdown has begun. -/
def shuts : Pc V → Bool
  | .shutdownGate => true
  | p => p.silences

theorem shuts_of_silences {p : Pc V} (h : p.silences = true) : p.shuts = true := by
  cases p <;> first | exact h | rfl

/-- Whether shutdown is past the control connection. -/
def closes : Pc V → Bool
  | .shutdownClosing _ | .shutdownAborting => true
  | _ => false

theorem shuts_of_closes {p : Pc V} (h : p.closes = true) : p.shuts = true := by
  cases p <;> first | rfl | cases h

/-- The session whose HTTP leave is in flight. -/
def leaving? : Pc V → Option ℕ
  | .leaving session _ => some session
  | _ => none

/-- A move from `p` to `q` gives the task no new role and keeps its relay. -/
structure Le (q p : Pc V) : Prop where
  relay : q.relay? = p.relay? := by rfl
  stop : q.stop? = p.stop? := by rfl
  rejoin : q.rejoin? = none ∨ q.rejoin? = p.rejoin? := by exact .inl rfl
  pending : q.pending? = none ∨ q.pending? = p.pending? := by exact .inl rfl
  reading : q.reading? = none ∨ q.reading? = p.reading? := by exact .inl rfl
  bound : q.bound? = none ∨ q.bound? = p.bound? := by exact .inl rfl
  connects : q.connects = true → p.connects = true := by intro h; cases h
  silences : q.silences = true → p.silences = true := by intro h; cases h
  shuts : q.shuts = true → p.shuts = true := by intro h; cases h
  closes : q.closes = true → p.closes = true := by intro h; cases h
  leaving : q.leaving? = none ∨ q.leaving? = p.leaving? := by exact .inl rfl

/-- Whether a counter has a role outside a shutdown. -/
def engaged (q : Pc V) : Bool :=
  q.rejoin?.isSome || q.pending?.isSome || q.reading?.isSome || q.bound?.isSome ||
    q.connects || q.leaving?.isSome

/-- A shutdown goes on without another role. -/
theorem Le.of_shutdown {p q : Pc V} (hrelay : q.relay? = p.relay?) (hstop : q.stop? = p.stop?)
    (hq : q.engaged = false) (hsilences : q.silences = true → p.silences = true)
    (hshuts : q.shuts = true → p.shuts = true) (hcloses : q.closes = true → p.closes = true) :
    q.Le p := by
  simp only [engaged, Bool.or_eq_false_iff, Option.isSome_eq_false_iff,
    Option.isNone_iff_eq_none] at hq
  obtain ⟨⟨⟨⟨⟨hrejoin, hpending⟩, hreading⟩, hbound⟩, hconnects⟩, hleaving⟩ := hq
  exact ⟨hrelay, hstop, .inl hrejoin, .inl hpending, .inl hreading, .inl hbound,
    fun h => absurd h (by simp [hconnects]), hsilences, hshuts, hcloses, .inl hleaving⟩

/-- A move to a counter without a role. -/
theorem Le.of_not_engaged {p q : Pc V} (hrelay : q.relay? = p.relay?)
    (hstop : q.stop? = p.stop?) (hq : q.engaged = false) (hshuts : q.shuts = false) : q.Le p :=
  .of_shutdown hrelay hstop hq
    (fun h => absurd (shuts_of_silences h) (by simp [hshuts]))
    (fun h => absurd h (by simp [hshuts]))
    (fun h => absurd (shuts_of_closes h) (by simp [hshuts]))

/-- Only a relay waits to stop the voice transport. -/
theorem stop?_of_relay? {p : Pc V} (h : p.relay? = none) : p.stop? = none := by
  cases p with
  | relayStop r event => cases h
  | _ => rfl

/-- A host that returns has no role. -/
theorem Le.returned {p : Pc V} (h : p.relay? = none) (result : Except SdkError Unit) :
    (returned result).Le p :=
  .of_not_engaged h.symm (stop?_of_relay? h).symm rfl rfl

/-- A relay that goes on has no other role. -/
theorem Le.relayTop {p : Pc V} {r : Relay} (h : p.relay? = some r) (hstop : p.stop? = none) :
    (relayTop r).Le p :=
  .of_not_engaged h.symm hstop.symm rfl rfl

end Pc

namespace Client

/-- What a worker seals with: its codec and the last sequence number it reserved. -/
def Worker.counter (worker : Worker K) : PacketCodec K × ℕ :=
  (worker.codec, worker.transportSequence)

/-- A worker that stopped stays in its place and stopped. -/
def WorkersKept (s t : Client V K) : Prop :=
  ∀ (w : ℕ) (worker : Worker K), s.workers[w]? = some worker →
    ∃ worker' : Worker K, t.workers[w]? = some worker' ∧
      worker'.codec.sessionId = worker.codec.sessionId ∧
      (worker.status.isTerminal = true → worker'.status.isTerminal = true)

/-- A worker as it was, or asked to close. -/
def Worker.Asked (worker worker' : Worker K) : Prop :=
  worker' = worker ∨ worker' = worker.requestTermination .close

/-- Workers are as they were, or were asked to close. -/
def WorkersAsked (s t : Client V K) : Prop :=
  ∀ (w : ℕ) (worker : Worker K), s.workers[w]? = some worker →
    ∃ worker' : Worker K, t.workers[w]? = some worker' ∧ Worker.Asked worker worker'

/-- A change of the shared state that no invariant reads: the current session may
go, an intent may be forgotten, and workers may stop. -/
structure Quiet (s t : Client V K) : Prop where
  autoRejoinVoice : t.autoRejoinVoice = s.autoRejoinVoice
  stopped : t.stopped = s.stopped
  generation : t.connectionGeneration = s.connectionGeneration
  control : t.control = s.control
  connections : t.connections = s.connections
  sessions : t.sessions = s.sessions
  workers : WorkersKept s t
  voice : ∀ v, t.voice = some v → t.isRunning v = true → s.voice = some v ∧ s.isRunning v = true
  intent : t.voiceIntent = s.voiceIntent ∨ t.voiceIntent = none
  installed : t.history.installed = s.history.installed
  relayed : t.history.relayed = s.history.relayed
  rejoins : t.history.rejoins = s.history.rejoins
  withdrawn : t.history.withdrawn = s.history.withdrawn
  stops : t.history.stops = s.history.stops
  forgets : t.history.forgets = s.history.forgets

/-- A quiet change in which no worker starts and nothing is sealed. -/
structure Calm (s t : Client V K) : Prop extends Quiet s t where
  counters : t.workers.map Worker.counter = s.workers.map Worker.counter
  asked : WorkersAsked s t
  sealed : t.history.sealed = s.history.sealed

/-- The mutexes after task `i` moved to `q`: each is kept, taken when free, or
released by its holder. -/
structure Locks (s t : Client V K) (i : Task) (q : Pc V) : Prop where
  gate : (t.tasks.holder = s.tasks.holder ∧ (q.holdsGate ↔ (s.tasks.pc i).holdsGate)) ∨
    (s.tasks.holder = none ∧ t.tasks.holder = some i ∧ q.holdsGate = true) ∨
    ((s.tasks.pc i).holdsGate = true ∧ t.tasks.holder = none ∧ q.holdsGate = false)
  control : (t.controlHolder = s.controlHolder ∧
      (q.holdsControl ↔ (s.tasks.pc i).holdsControl)) ∨
    (s.controlHolder = none ∧ t.controlHolder = some i ∧ q.holdsControl = true) ∨
    ((s.tasks.pc i).holdsControl = true ∧ t.controlHolder = none ∧ q.holdsControl = false)

/-- The join of a session is remembered. -/
def recorded (s : Client V K) (call : JoinCall V) (session : ℕ) (x : Session) : Client V K :=
  { s with
    voiceIntent :=
      if s.autoRejoinVoice then some ⟨call.channelId, call.request, x.sessionId, session⟩ else none
    history := { s.history with relayed := [] } }

/-- An event was relayed. -/
def relay (s : Client V K) (event : ClientEvent V) : Client V K :=
  { s with history := { s.history with relayed := s.history.relayed ++ [event] } }

/-- The current session is closed by a relayed event. -/
def stop (s : Client V K) (r : Relay) (event : ClientEvent V) (session : ℕ) : Client V K :=
  { s with
    voice := none
    history := { s.history with
      stops := s.history.stops ++
        if s.isRunning session then [⟨r.connection, r.next - 1, event, session⟩] else [] } }

/-- What a relay finds when it polls: the cursor was overrun, or the event is of
a connection that is no longer current. -/
def Skips (s : Client V K) (g : ℕ) (r : Relay) (conn : Connection V) (next : ℕ) : Prop :=
  (conn.socket.events.capacity < conn.sent.length - r.next ∧
      next = conn.sent.length - conn.socket.events.capacity) ∨
    (s.connectionGeneration ≠ g ∧ r.next < conn.sent.length ∧ next = r.next + 1)

/-- The effect of a task's move to `q` on the shared state. -/
inductive Effect (env : Env V K) (s t : Client V K) (i : Task) (q : Pc V) : Prop
  /-- Nothing an invariant reads. -/
  | calm (h : Calm s t) (le : q.Le (s.tasks.pc i))
  /-- A relay of an earlier generation ends. -/
  | exits (g : ℕ) (r : Relay) (hi : i = .relay g) (hp : s.tasks.pc i = .relayTop r)
      (hq : q = .relayExited) (hg : s.connectionGeneration ≠ g) (h : Calm s t)
  /-- `connect` takes a closed connection out of its slot. -/
  | locks (hq : q = .connectSnapshot) (hp : s.tasks.pc i = .connectLock)
      (hc : ∀ c conn, s.control = some c → s.connection? c = some conn → conn.status = .closed)
      (h : Calm { s with control := none } t)
  /-- `connect` makes a connection. -/
  | makes (conn : Connection V) (hp : s.tasks.pc i = .connectSnapshot)
      (hq : q = .connectInstall s.connections.length) (hw : conn.WellFormed)
      (hnew : conn.sent = []) (h : Calm { s with connections := s.connections ++ [conn] } t)
  /-- A connection is asked to close, by a `connect` that comes too late. -/
  | rejects (c : ℕ) (hp : s.tasks.pc i = .connectInstall c) (hq : q = .connectAbort c)
      (h : Calm (s.closeConnection c) t)
  /-- A join reads the control connection. -/
  | reads (call : JoinCall V) (c : ℕ) (hp : s.tasks.pc i = .join call .control)
      (hq : q = .join call (.discovering c s.metadata)) (hc : s.control = some c)
      (hholder : s.controlHolder = none) (h : Calm s t)
  /-- A join is bound to a live control identity and requested. -/
  | binds (call : JoinCall V) (b : Binding) (cached : Option Metadata) (conn : Connection V)
      (hp : s.tasks.pc i = .join call (.discovering b.control cached))
      (hq : q = .join call (.requesting b)) (hconn : s.connection? b.control = some conn)
      (hlive : conn.status = .live) (hg : b.generation = s.connectionGeneration)
      (h : Calm (s.issued call) t)
  /-- A join starts its worker. -/
  | starts (call : JoinCall V) (b : Binding) (config : VoiceSessionConfig)
      (reuse : Option SessionKey) (codec : PacketCodec K)
      (hp : s.tasks.pc i = .join call (.connecting b config reuse))
      (hq : q = .join call (.starting b s.workers.length reuse))
      (hcodec : (PacketCodec.fromConfig env.crypto config s.keyCache).2 = .ok codec)
      (h : Calm { s with workers := s.workers ++ [Worker.new codec] } t)
  /-- A relay passes events without handling them. -/
  | skips (g : ℕ) (r : Relay) (conn : Connection V) (next : ℕ) (hi : i = .relay g)
      (hp : s.tasks.pc i = .relayReceive r) (hq : q = .relayTop { r with next := next })
      (hconn : s.connection? r.connection = some conn) (hskip : s.Skips g r conn next)
      (h : Calm s t)
  /-- The current relay handles an event. -/
  | handles (g : ℕ) (r : Relay) (conn : Connection V) (event : ClientEvent V)
      (hi : i = .relay g) (hp : s.tasks.pc i = .relayReceive r)
      (hconn : s.connection? r.connection = some conn)
      (hevent : conn.sent[r.next]? = some event) (hg : s.connectionGeneration = g)
      (h : Calm ((s.forgetIntent r event).relay event) t)
      (hq : (stopsVoice event = true ∧ q = .relayStop { r with next := r.next + 1 } event) ∨
        (stopsVoice event = false ∧ q = .relayTop { r with next := r.next + 1 }) ∨
        (∃ intent, event = .statusChanged .live ∧ s.autoRejoinVoice = true ∧
          s.voiceIntent = some intent ∧
          q = .join ⟨.relay { r with next := r.next + 1 } intent.session s.history.relayed,
            intent.channelId, intent.request⟩ .gate))
  /-- The relay has the gate and there is nothing to close. -/
  | passes (g : ℕ) (r : Relay) (event : ClientEvent V) (hi : i = .relay g)
      (hp : s.tasks.pc i = .relayStop r event) (hq : q = .relayTop r)
      (hfree : s.tasks.holder = none)
      (hv : ∀ v x, s.voice = some v → s.sessions[v]? = some x → x.controlGeneration ≠ g)
      (h : Calm s t)
  /-- The relay has the gate and takes the current session. -/
  | takes (g : ℕ) (r : Relay) (event : ClientEvent V) (v : ℕ) (x : Session) (hi : i = .relay g)
      (hp : s.tasks.pc i = .relayStop r event) (hq : q = .teardown v (.relay r))
      (hfree : s.tasks.holder = none)
      (hv : s.voice = some v) (hx : s.sessions[v]? = some x) (hg : x.controlGeneration = g)
      (h : Calm (s.stop r event v) t)
  /-- A join installs its session and closes the previous one. -/
  | installs (call : JoinCall V) (b : Binding) (w previous : ℕ) (reuse : Option SessionKey)
      (conn : Connection V) (x : Session) (hp : s.tasks.pc i = .join call (.starting b w reuse))
      (hq : q = .teardown previous (.join call s.sessions.length reuse))
      (hx : s.Installs call b w conn x) (h : Calm (s.install x) t)
  /-- A join installs its session and remembers it. -/
  | installsFirst (call : JoinCall V) (b : Binding) (w : ℕ) (reuse : Option SessionKey)
      (conn : Connection V) (x : Session) (hp : s.tasks.pc i = .join call (.starting b w reuse))
      (hq : q.Le (.join call .gate) ∧ q.rejoin? = none) (hx : s.Installs call b w conn x)
      (h : Calm ((s.install x).recorded call s.sessions.length x) t)
  /-- A join remembers its session once the previous one is closed. -/
  | records (call : JoinCall V) (previous v : ℕ) (reuse : Option SessionKey) (x : Session)
      (hp : s.tasks.pc i = .stopping previous (.join call v reuse))
      (hq : q.Le (.join call .gate) ∧ q.rejoin? = none) (hx : s.sessions[v]? = some x)
      (h : Calm (s.recorded call v x) t)
  /-- A stopped session is being left. -/
  | leaves (session : ℕ) (viaClient : Bool)
      (hp : s.tasks.pc i = .stopping session (.leave viaClient))
      (hq : q = .leaving session (.leave viaClient)) (hstopped : s.HasStopped session)
      (h : Calm s t)
  /-- The handle of a failed leave is kept. -/
  | putsBack (session : ℕ) (result : Except SdkError Unit)
      (hp : (s.tasks.pc i).leaving? = some session) (hq : q = .returned result)
      (hrelay : (s.tasks.pc i).relay? = none)
      (h : Calm { s with voice := some session } t)
  /-- Shutdown begins. -/
  | shuts (hp : s.tasks.pc i = .shutdownLock) (hq : q = .shutdownGate)
      (h : Calm { s with stopped := true } t) (hrunning : s.stopped = false)
  /-- Shutdown has the gate and takes the current session. -/
  | shutsVoice (hp : s.tasks.pc i = .shutdownGate) (hq : q.Le .shutdownControl)
      (h : Calm { s with voice := none } t)
  /-- Shutdown closes the control connection. -/
  | shutsControl (c : ℕ) (hp : s.tasks.pc i = .shutdownControl) (hq : q = .shutdownClosing c)
      (h : Calm ({ s with control := none }.closeConnection c) t)
  /-- Shutdown finds no control connection. -/
  | clears (hp : s.tasks.pc i = .shutdownControl) (hq : q = .shutdownAborting)
      (hc : s.control = none) (h : Calm s t)

/-- The moves a task makes as the relay of generation `g`, one by one. -/
inductive RelayMove (s t : Client V K) (g : ℕ) (q : Pc V) : Prop
  | exits (r : Relay) (hp : s.tasks.pc (.relay g) = .relayTop r)
      (hg : s.connectionGeneration ≠ g) (hq : q = .relayExited) (h : Calm s t)
  | skips (r : Relay) (conn : Connection V) (next : ℕ)
      (hp : s.tasks.pc (.relay g) = .relayReceive r) (hq : q = .relayTop { r with next := next })
      (hconn : s.connection? r.connection = some conn) (hskip : s.Skips g r conn next)
      (h : Calm s t)
  | handles (r : Relay) (conn : Connection V) (event : ClientEvent V)
      (hp : s.tasks.pc (.relay g) = .relayReceive r)
      (hconn : s.connection? r.connection = some conn)
      (hevent : conn.sent[r.next]? = some event) (hg : s.connectionGeneration = g)
      (h : Calm ((s.forgetIntent r event).relay event) t)
      (hrelay : q.relay? = some { r with next := r.next + 1 })
      (hstop : q.stop? = if stopsVoice event then some event else none)
  | passes (r : Relay) (event : ClientEvent V)
      (hp : s.tasks.pc (.relay g) = .relayStop r event) (hq : q = .relayTop r)
      (hfree : s.tasks.holder = none)
      (hv : ∀ v x, s.voice = some v → s.sessions[v]? = some x → x.controlGeneration ≠ g)
      (h : Calm s t)
  | takes (r : Relay) (event : ClientEvent V) (v : ℕ) (x : Session)
      (hp : s.tasks.pc (.relay g) = .relayStop r event) (hq : q = .teardown v (.relay r))
      (hfree : s.tasks.holder = none)
      (hv : s.voice = some v) (hx : s.sessions[v]? = some x) (hg : x.controlGeneration = g)
      (h : Calm (s.stop r event v) t)

/-- A move that is none of a relay's. -/
structure Still (s t : Client V K) (i : Task) (q : Pc V) : Prop where
  relay : q.relay? = (s.tasks.pc i).relay?
  stop : q.stop? = (s.tasks.pc i).stop?
  stops : t.history.stops = s.history.stops
  forgets : t.history.forgets = s.history.forgets

/-! ## Calm changes -/

theorem WorkersKept.refl (s : Client V K) : WorkersKept s s :=
  fun _ worker h => ⟨worker, h, rfl, id⟩

theorem Quiet.trans {s t u : Client V K} (h : Quiet s t) (h' : Quiet t u) : Quiet s u where
  autoRejoinVoice := h'.autoRejoinVoice.trans h.autoRejoinVoice
  stopped := h'.stopped.trans h.stopped
  generation := h'.generation.trans h.generation
  control := h'.control.trans h.control
  connections := h'.connections.trans h.connections
  sessions := h'.sessions.trans h.sessions
  workers := by
    intro w worker hw
    obtain ⟨worker', hw', hid, hterm⟩ := h.workers w worker hw
    obtain ⟨worker'', hw'', hid', hterm'⟩ := h'.workers w worker' hw'
    exact ⟨worker'', hw'', hid'.trans hid, hterm' ∘ hterm⟩
  voice := by
    intro v hv hr
    obtain ⟨hv, hr⟩ := h'.voice v hv hr
    exact h.voice v hv hr
  intent := by
    rcases h'.intent with h' | h'
    · rw [h']
      exact h.intent
    · exact .inr h'
  installed := h'.installed.trans h.installed
  relayed := h'.relayed.trans h.relayed
  rejoins := h'.rejoins.trans h.rejoins
  withdrawn := h'.withdrawn.trans h.withdrawn
  stops := h'.stops.trans h.stops
  forgets := h'.forgets.trans h.forgets

theorem isTerminal_requestTermination {worker : Worker K} (t : Termination)
    (h : worker.status.isTerminal = true) : worker.requestTermination t = worker := by
  simp [Worker.requestTermination, h]

theorem requestTermination_close {worker : Worker K} (h : ¬ worker.status.isTerminal = true) :
    worker.requestTermination .close =
      { worker with termination := some .close, status := .disconnecting } := by
  simp [Worker.requestTermination, h]

/-- Asking twice is asking once. -/
theorem Worker.Asked.trans {a b c : Worker K} (h : Worker.Asked a b) (h' : Worker.Asked b c) :
    Worker.Asked a c := by
  have htwice : (a.requestTermination .close).requestTermination .close =
      a.requestTermination .close := by
    by_cases hterminal : a.status.isTerminal = true
    · rw [isTerminal_requestTermination _ hterminal, isTerminal_requestTermination _ hterminal]
    · rw [requestTermination_close hterminal]
      exact requestTermination_close (by simp [VoiceStatus.isTerminal])
  rcases h with rfl | rfl
  · exact h'
  · rcases h' with rfl | rfl
    · exact .inr rfl
    · exact .inr htwice

theorem WorkersAsked.refl (s : Client V K) : WorkersAsked s s :=
  fun _ worker h => ⟨worker, h, .inl rfl⟩

theorem WorkersAsked.trans {s t u : Client V K} (h : WorkersAsked s t) (h' : WorkersAsked t u) :
    WorkersAsked s u := by
  intro w worker hw
  obtain ⟨worker', hw', hasked⟩ := h w worker hw
  obtain ⟨worker'', hw'', hasked'⟩ := h' w worker' hw'
  exact ⟨worker'', hw'', hasked.trans hasked'⟩

theorem Calm.trans {s t u : Client V K} (h : Calm s t) (h' : Calm t u) : Calm s u :=
  ⟨h.toQuiet.trans h'.toQuiet, h'.counters.trans h.counters, h.asked.trans h'.asked,
    h'.sealed.trans h.sealed⟩

/-- Locks, counters, keys and seals are not read by any invariant. -/
theorem calm_inert (s : Client V K) (metadata : Option Metadata) (keyCache : SessionKeyCache)
    (controlHolder shutdownHolder : Option Task) (teardownHolder : ℕ → Option Task)
    (left : ℕ → Bool) (tasks : Gate.Tasks Task (Pc V)) :
    Calm s { s with
      metadata := metadata
      keyCache := keyCache
      controlHolder := controlHolder
      shutdownHolder := shutdownHolder
      teardownHolder := teardownHolder
      left := left
      tasks := tasks } :=
  ⟨⟨rfl, rfl, rfl, rfl, rfl, rfl, .refl s, fun _ hv hr => ⟨hv, hr⟩, .inl rfl, rfl, rfl, rfl, rfl,
    rfl, rfl⟩, rfl, .refl s, rfl⟩

theorem calm_refl (s : Client V K) : Calm s s := calm_inert s _ _ _ _ _ _ _

theorem calm_goto (s : Client V K) (i : Task) (q : Pc V) : Calm s (s.goto i q) :=
  calm_inert s _ _ _ _ _ _ _

theorem calm_release (s : Client V K) (i : Task) (q : Pc V) : Calm s (s.release i q) :=
  calm_inert s _ _ _ _ _ _ _

/-- The state that hosts read is not read by any invariant. -/
theorem calm_state (s : Client V K) (state : Option ℕ) : Calm s { s with state := state } :=
  ⟨⟨rfl, rfl, rfl, rfl, rfl, rfl, .refl s, fun _ hv hr => ⟨hv, hr⟩, .inl rfl, rfl, rfl, rfl, rfl,
    rfl, rfl⟩, rfl, .refl s, rfl⟩

theorem calm_clearVoiceIntent (s : Client V K) : Calm s s.clearVoiceIntent :=
  ⟨⟨rfl, rfl, rfl, rfl, rfl, rfl, .refl s, fun _ hv hr => ⟨hv, hr⟩, .inr rfl, rfl, rfl, rfl, rfl,
    rfl, rfl⟩, rfl, .refl s, rfl⟩

theorem calm_clearSessionIntent (s : Client V K) (x : Session) :
    Calm s (s.clearSessionIntent x) := by
  unfold clearSessionIntent
  split
  · exact calm_clearVoiceIntent s
  · exact calm_refl s

/-- Running sessions of the new state were running, when workers are kept. -/
theorem isRunning_of_workersKept {s t : Client V K} (h : WorkersKept s t)
    (hsessions : t.sessions = s.sessions)
    (hold : ∀ w : ℕ, w < t.workers.length → w < s.workers.length)
    {v : ℕ} (hr : t.isRunning v = true) : s.isRunning v = true := by
  unfold isRunning at hr ⊢
  rw [hsessions] at hr
  cases hx : s.sessions[v]? with
  | none => simp [hx] at hr
  | some x =>
      simp only [hx, Option.bind_some] at hr ⊢
      cases hw' : t.workers[x.transport]? with
      | none => simp [hw'] at hr
      | some worker' =>
          have hlt := hold _ (List.getElem?_eq_some_iff.mp hw').1
          obtain ⟨worker, hw⟩ : ∃ worker, s.workers[x.transport]? = some worker :=
            ⟨_, List.getElem?_eq_getElem hlt⟩
          obtain ⟨worker'', hw'', -, hterm⟩ := h _ _ hw
          rw [hw'] at hw''
          cases hw''
          simp only [hw', Option.any_some, Bool.not_eq_true'] at hr
          simp only [hw, Option.any_some, Bool.not_eq_true']
          cases hs : worker.status.isTerminal with
          | false => rfl
          | true => rw [hterm hs] at hr; exact hr

theorem Worker.Asked.counter {worker worker' : Worker K} (h : Worker.Asked worker worker') :
    Worker.counter worker' = Worker.counter worker := by
  rcases h with rfl | rfl
  · rfl
  · unfold Worker.requestTermination
    split <;> rfl

theorem Worker.Asked.isTerminal {worker worker' : Worker K} (h : Worker.Asked worker worker')
    (hterminal : worker.status.isTerminal = true) : worker' = worker := by
  rcases h with rfl | rfl
  · rfl
  · exact isTerminal_requestTermination _ hterminal

/-- A request to close stops no worker by itself. -/
theorem Worker.Asked.isTerminal_eq {worker worker' : Worker K} (h : Worker.Asked worker worker') :
    worker'.status.isTerminal = worker.status.isTerminal := by
  rcases h with rfl | rfl
  · rfl
  · by_cases hterminal : worker.status.isTerminal = true
    · rw [isTerminal_requestTermination _ hterminal]
    · rw [requestTermination_close hterminal]
      simpa [VoiceStatus.isTerminal] using hterminal

theorem Worker.Asked.started {worker worker' : Worker K} (h : Worker.Asked worker worker') :
    worker'.started = worker.started := by
  rcases h with rfl | rfl
  · rfl
  · unfold Worker.requestTermination
    split <;> rfl

theorem Worker.Asked.startSettled {worker worker' : Worker K} (h : Worker.Asked worker worker')
    (hs : worker.StartSettled) : worker'.StartSettled := by
  intro e he
  rw [h.isTerminal_eq]
  exact hs e (h.started ▸ he)

theorem calm_closeWorker (s : Client V K) (w : ℕ) : Calm s (s.closeWorker w) := by
  have hget (n : ℕ) : (s.closeWorker w).workers[n]? = (s.workers[n]?).map fun worker =>
      if w = n then worker.requestTermination .close else worker := by
    simp only [closeWorker, List.getElem?_modify]
    cases s.workers[n]? with
    | none => split <;> rfl
    | some worker => split <;> rfl
  have hone (n : ℕ) (worker : Worker K) : Worker.Asked worker
      (if w = n then worker.requestTermination .close else worker) := by
    split
    · exact .inr rfl
    · exact .inl rfl
  have hasked : WorkersAsked s (s.closeWorker w) :=
    fun n worker hn => ⟨_, by rw [hget, hn]; rfl, hone n worker⟩
  have hkept : WorkersKept s (s.closeWorker w) := by
    intro n worker hn
    refine ⟨_, by rw [hget, hn]; rfl, ?_, ?_⟩
    · exact congrArg (fun counter => counter.1.sessionId) (hone n worker).counter
    · intro hterminal
      exact (congrArg (·.status.isTerminal) ((hone n worker).isTerminal hterminal)).trans hterminal
  refine ⟨⟨rfl, rfl, rfl, rfl, rfl, rfl, hkept, ?_, .inl rfl, rfl, rfl, rfl, rfl, rfl, rfl⟩, ?_,
    hasked, rfl⟩
  · intro v hv hr
    exact ⟨hv, isRunning_of_workersKept hkept rfl (by simp [closeWorker]) hr⟩
  · refine List.ext_getElem? fun n => ?_
    simp only [List.getElem?_map, hget, Option.map_map]
    congr 1
    funext worker
    exact (hone n worker).counter

/-- The current session goes, or is replaced by one that has stopped. -/
theorem calm_voice (s : Client V K) {voice : Option ℕ}
    (h : ∀ v, voice = some v → s.isRunning v = false) : Calm s { s with voice := voice } := by
  refine ⟨⟨rfl, rfl, rfl, rfl, rfl, rfl, .refl s, ?_, .inl rfl, rfl, rfl, rfl, rfl, rfl, rfl⟩, rfl,
    .refl s, rfl⟩
  intro v hv hr
  have hnot : s.isRunning v = false := h v hv
  rw [show s.isRunning v = true from hr] at hnot
  cases hnot

/-- A new worker serves no session yet. -/
theorem quiet_startWorker (s : Client V K) (worker : Worker K)
    (h : ∀ (v : ℕ) (x : Session), s.sessions[v]? = some x → x.transport < s.workers.length) :
    Quiet s { s with workers := s.workers ++ [worker] } := by
  have hget {n : ℕ} (hn : n < s.workers.length) :
      (s.workers ++ [worker])[n]? = s.workers[n]? := List.getElem?_append_left hn
  refine ⟨rfl, rfl, rfl, rfl, rfl, rfl, ?_, ?_, .inl rfl, rfl, rfl, rfl, rfl, rfl, rfl⟩
  · intro n w hn
    exact ⟨w, by rw [hget (List.getElem?_eq_some_iff.mp hn).1, hn], rfl, id⟩
  · intro v hv hr
    refine ⟨hv, ?_⟩
    unfold isRunning at hr ⊢
    cases hx : s.sessions[v]? with
    | none => simp [hx] at hr
    | some x =>
        simp only [hx, Option.bind_some] at hr ⊢
        rwa [hget (h v x hx)] at hr

/-! ## The moves of a task -/

/-- Task `i` moves to `q`. -/
structure Moved (env : Env V K) (s t : Client V K) (i : Task) (q : Pc V) : Prop where
  pc : t.tasks.pc = Function.update s.tasks.pc i q
  locks : Locks s t i q
  effect : Effect env s t i q

variable {env : Env V K} {s t : Client V K} {i : Task} {p q : Pc V}

/-- A move that keeps both mutexes. -/
theorem Locks.keep (hgate : t.tasks.holder = s.tasks.holder)
    (hcontrol : t.controlHolder = s.controlHolder) (hp : s.tasks.pc i = p)
    (hg : q.holdsGate = p.holdsGate) (hc : q.holdsControl = p.holdsControl) : Locks s t i q :=
  ⟨.inl ⟨hgate, by rw [hp, hg]⟩, .inl ⟨hcontrol, by rw [hp, hc]⟩⟩

/-- A move that releases the gate. -/
theorem Locks.leaveGate (hgate : t.tasks.holder = none)
    (hcontrol : t.controlHolder = s.controlHolder) (hp : s.tasks.pc i = p)
    (hg : p.holdsGate = true) (hg' : q.holdsGate = false)
    (hc : q.holdsControl = p.holdsControl) : Locks s t i q :=
  ⟨.inr (.inr ⟨by rw [hp, hg], hgate, hg'⟩), .inl ⟨hcontrol, by rw [hp, hc]⟩⟩

/-- A move into the gate. -/
theorem Locks.enterGate (hfree : s.tasks.holder = none) (hgate : t.tasks.holder = some i)
    (hcontrol : t.controlHolder = s.controlHolder) (hp : s.tasks.pc i = p)
    (hg : q.holdsGate = true) (hc : q.holdsControl = p.holdsControl) : Locks s t i q :=
  ⟨.inr (.inl ⟨hfree, hgate, hg⟩), .inl ⟨hcontrol, by rw [hp, hc]⟩⟩

/-- What acquiring the gate does. -/
theorem acquire_eq_some (h : s.acquire i q = some t) :
    s.tasks.holder = none ∧ t.tasks.holder = some i ∧
      t.tasks.pc = Function.update s.tasks.pc i q ∧ t.controlHolder = s.controlHolder ∧
      Calm s t := by
  unfold acquire at h
  obtain ⟨tasks, hacq, rfl⟩ := Option.map_eq_some_iff.mp h
  obtain ⟨hfree, hholder, hpc⟩ := Gate.Tasks.acquire_eq_some hacq
  exact ⟨hfree, hholder, hpc, rfl, calm_inert s _ _ _ _ _ _ _⟩

theorem acquire_pc (h : s.acquire i q = some t) : t.tasks.pc i = q := by
  rw [(acquire_eq_some h).2.2.1, Function.update_self]

/-- A failed join releases the gate. -/
theorem moved_failJoin {call : JoinCall V} {stage : JoinPc} (hp : s.tasks.pc i = .join call stage)
    (hstage : Pc.holdsGate (V := V) (.join call stage) = true) {s' : Client V K}
    (hs : Calm s s') (htasks : s'.tasks = s.tasks) (hcontrol : s'.controlHolder = s.controlHolder)
    (e : SdkError) : ∃ q, Moved env s (s'.failJoin i call e) i q := by
  unfold failJoin
  obtain ⟨caller, channelId, request⟩ := call
  cases caller with
  | host =>
      refine ⟨.returned (.error e), ?_, ?_, .calm (hs.trans (calm_release s' i _)) ?_⟩
      · simp [release, Gate.Tasks.release, htasks]
      · exact .leaveGate rfl hcontrol hp hstage rfl rfl
      · rw [hp]
        exact .returned rfl _
  | relay r session since =>
      refine ⟨.relayTop r, ?_, ?_,
        .calm ((hs.trans (calm_clearVoiceIntent s')).trans (calm_release _ i _)) ?_⟩
      · simp [release, Gate.Tasks.release, clearVoiceIntent, htasks]
      · exact .leaveGate rfl hcontrol hp hstage rfl rfl
      · rw [hp]
        exact .relayTop rfl rfl

/-- A join that moves on to a later await point. -/
theorem moved_join {call : JoinCall V} {stage stage' : JoinPc}
    (hp : s.tasks.pc i = .join call stage)
    (hstage : Pc.holdsGate (V := V) (.join call stage) = true)
    (hstage' : Pc.holdsGate (V := V) (.join call stage') = true) {s' : Client V K}
    (htasks : s'.tasks = s.tasks) (hcontrol : s'.controlHolder = s.controlHolder)
    (heffect : Effect env s (s'.goto i (.join call stage')) i (.join call stage')) :
    ∃ q, Moved env s (s'.goto i (.join call stage')) i q := by
  refine ⟨.join call stage', by simp [goto, Gate.Tasks.goto, htasks], ?_, heffect⟩
  exact .keep (by simp [goto, Gate.Tasks.goto, htasks]) hcontrol hp (hstage'.trans hstage.symm) rfl

/-- A join that has the gate goes on, or returns at once. -/
theorem moved_joinGate {call : JoinCall V} (hp : s.tasks.pc i = .join call .gate)
    (h : s.joinGate i call = some t) : ∃ q, Moved env s t i q := by
  unfold joinGate at h
  obtain ⟨m, hm, ht⟩ := Option.map_eq_some_iff.mp h
  obtain ⟨hfree, hholder, hpc, hcontrol, hcalm⟩ := acquire_eq_some hm
  split at ht
  · subst ht
    obtain ⟨caller, channelId, request⟩ := call
    cases caller with
    | host =>
        refine ⟨.returned (.error .closed), ?_, .keep hfree.symm hcontrol hp rfl rfl,
          .calm (hcalm.trans (calm_release m i _)) ?_⟩
        · simp [failJoin, release, Gate.Tasks.release, hpc]
        · rw [hp]
          exact .returned rfl _
    | relay r session since =>
        refine ⟨.relayTop r, ?_, .keep hfree.symm hcontrol hp rfl rfl,
          .calm ((hcalm.trans (calm_clearVoiceIntent m)).trans (calm_release _ i _)) ?_⟩
        · simp [failJoin, release, Gate.Tasks.release, clearVoiceIntent, hpc]
        · rw [hp]
          exact .relayTop rfl rfl
  · subst ht
    refine ⟨.join call .control, hpc, .enterGate hfree hholder hcontrol hp rfl rfl,
      .calm hcalm ?_⟩
    rw [hp]
    exact ⟨rfl, rfl, .inr rfl, .inl rfl, .inl rfl, .inl rfl, id, id, id, id, .inl rfl⟩

theorem moved_joinControl {call : JoinCall V} (hp : s.tasks.pc i = .join call .control)
    (h : s.joinControl i call = some t) : ∃ q, Moved env s t i q := by
  cases joinControl_cases h with
  | fails e => exact moved_failJoin hp rfl (calm_refl s) rfl rfl e
  | reads c hc hfree =>
      exact moved_join hp rfl rfl rfl rfl (.reads call c hp rfl hc hfree (calm_goto s i _))

theorem moved_joinDiscovered {call : JoinCall V} {c : ℕ} {cached : Option Metadata}
    {result : Except SdkError Metadata} (hp : s.tasks.pc i = .join call (.discovering c cached))
    (h : s.joinDiscovered i call c cached result = some t) : ∃ q, Moved env s t i q := by
  cases joinDiscovered_cases h with
  | fails e metadata =>
      have hcalm : Calm s { s with metadata := metadata } := calm_inert s _ _ _ _ _ _ _
      exact moved_failJoin hp rfl hcalm rfl rfl e
  | binds conn metadata codec controlId hconn hlive hid =>
      obtain ⟨caller, channelId, request⟩ := call
      cases caller with
      | host =>
          exact moved_join hp rfl rfl rfl rfl
            (.binds _ _ cached conn hp rfl hconn hlive rfl (calm_inert s _ _ _ _ _ _ _))
      | relay r session since =>
          exact moved_join hp rfl rfl rfl rfl
            (.binds _ _ cached conn hp rfl hconn hlive rfl (calm_inert (s.issued _) _ _ _ _ _ _ _))

theorem moved_joinResponded {call : JoinCall V} {b : Binding}
    {result : Except Http.HttpError VoiceJoinResponse}
    (hp : s.tasks.pc i = .join call (.requesting b)) :
    ∃ q, Moved env s (s.joinResponded env i call b result) i q := by
  generalize ht : s.joinResponded env i call b result = t
  cases joinResponded_cases ht with
  | fails e => exact moved_failJoin hp rfl (calm_refl s) rfl rfl e
  | configures response config reuse _ _ =>
      refine moved_join hp rfl rfl rfl rfl (.calm (calm_goto s i _) ?_)
      rw [hp]
      exact ⟨rfl, rfl, .inl rfl, .inl rfl, .inl rfl, .inr rfl, id, id, id, id, .inl rfl⟩

theorem moved_joinConnected {call : JoinCall V} {b : Binding} {config : VoiceSessionConfig}
    {reuse : Option SessionKey} {result : Except VoiceError Unit}
    (hp : s.tasks.pc i = .join call (.connecting b config reuse)) :
    ∃ q, Moved env s (s.joinConnected env i call b config reuse result) i q := by
  generalize ht : s.joinConnected env i call b config reuse result = t
  cases joinConnected_cases ht with
  | fails e _ => exact moved_failJoin hp rfl (calm_refl s) rfl rfl _
  | rejects cache e _ _ =>
      have hcalm : Calm s { s with keyCache := cache } := calm_inert s _ _ _ _ _ _ _
      exact moved_failJoin hp rfl hcalm rfl rfl _
  | starts cache codec _ hcodec =>
      refine moved_join hp rfl rfl rfl rfl
        (.starts call b config reuse codec hp rfl (by rw [hcodec]) ?_)
      exact calm_inert { s with workers := s.workers ++ [Worker.new codec] } _ _ _ _ _ _ _

/-- The end of a successful join. -/
theorem recordJoin_spec (s : Client V K) (i : Task) (call : JoinCall V) (session : ℕ)
    (x : Session) (reuse : Option SessionKey) :
    ∃ q : Pc V, (s.recordJoin i call session x reuse).tasks.holder = none ∧
      (s.recordJoin i call session x reuse).tasks.pc = Function.update s.tasks.pc i q ∧
      (s.recordJoin i call session x reuse).controlHolder = s.controlHolder ∧
      Calm (s.recorded call session x) (s.recordJoin i call session x reuse) ∧
      q.Le (.join call .gate) ∧ q.rejoin? = none ∧ q.holdsGate = false ∧
      q.holdsControl = false := by
  obtain ⟨caller, channelId, request⟩ := call
  cases caller with
  | host =>
      refine ⟨.returned (.ok ()), rfl, rfl, rfl, ?_, .returned rfl _, rfl, rfl, rfl⟩
      exact calm_inert (s.recorded _ session x) _ _ _ _ _ _ _
  | relay r intent since =>
      refine ⟨.relayTop r, rfl, rfl, rfl, ?_, .relayTop rfl rfl, rfl, rfl, rfl⟩
      exact calm_inert (s.recorded _ session x) _ _ _ _ _ _ _

theorem moved_joinStarted {call : JoinCall V} {b : Binding} {w : ℕ} {reuse : Option SessionKey}
    (hp : s.tasks.pc i = .join call (.starting b w reuse))
    (h : s.joinStarted i call b w reuse = some t) : ∃ q, Moved env s t i q := by
  cases joinStarted_cases h with
  | fails worker e _ _ => exact moved_failJoin hp rfl (calm_refl s) rfl rfl _
  | discards =>
      refine moved_join hp rfl rfl rfl rfl
        (.calm ((calm_closeWorker s w).trans (calm_goto _ i _)) ?_)
      rw [hp]
      exact .of_not_engaged rfl rfl rfl rfl
  | records conn x hx _ =>
      obtain ⟨q, hholder, hpc, hcontrol, hcalm, hle, hrejoin, hgate, hmutex⟩ :=
        recordJoin_spec (s.install x) i call s.sessions.length x reuse
      refine ⟨q, hpc, .leaveGate hholder hcontrol hp rfl hgate hmutex, ?_⟩
      exact .installsFirst call b w reuse conn x hp ⟨hle, hrejoin⟩ hx hcalm
  | replaces conn x previous hx _ =>
      refine ⟨.teardown previous (.join call s.sessions.length reuse), rfl,
        .keep rfl rfl hp rfl rfl, ?_⟩
      exact .installs call b w previous reuse conn x hp rfl hx (calm_goto _ i _)

theorem moved_joinDiscarded {call : JoinCall V} {w : ℕ}
    (hp : s.tasks.pc i = .join call (.discarding w))
    (h : s.joinDiscarded i call w = some t) : ∃ q, Moved env s t i q := by
  obtain ⟨worker, e, -, -, rfl⟩ := joinDiscarded_cases h
  exact moved_failJoin hp rfl (calm_refl s) rfl rfl e

theorem moved_resumeJoin {call : JoinCall V} {stage : JoinPc} {input : Input}
    (hp : s.tasks.pc i = .join call stage) (h : s.resumeJoin env i call stage input = some t) :
    ∃ q, Moved env s t i q := by
  unfold resumeJoin at h
  split at h
  · exact moved_joinGate hp h
  · exact moved_joinControl hp h
  · exact moved_joinDiscovered hp h
  · cases h; exact moved_joinResponded hp
  · cases h; exact moved_joinConnected hp
  · exact moved_joinStarted hp h
  · exact moved_joinDiscarded hp h
  · cases h

/-! ### Closing and leaving -/

/-- Returning from `leave` on a session that has stopped, or that was left. -/
theorem moved_finishLeave {session : ℕ} {viaClient : Bool} {result : Except SdkError Unit}
    (hgate : (s.tasks.pc i).holdsGate = viaClient) (hmutex : (s.tasks.pc i).holdsControl = false)
    (hrelay : (s.tasks.pc i).relay? = none) {s' : Client V K} (hcalm : Calm s s')
    (htasks : s'.tasks = s.tasks) (hcontrol : s'.controlHolder = s.controlHolder)
    (heffect : ∀ {t}, (∃ e, result = .error e) → viaClient = true →
      Calm { s' with voice := some session } t → Effect env s t i (.returned result)) :
    ∃ q, Moved env s (s'.finishLeave i session viaClient result) i q := by
  refine ⟨.returned result, ?_, ?_, ?_⟩
  · unfold finishLeave
    split
    · split <;> simp [release, Gate.Tasks.release, htasks]
    · simp [goto, Gate.Tasks.goto, htasks]
  · unfold finishLeave
    cases viaClient with
    | false =>
        exact .keep (congrArg (·.holder) htasks) hcontrol rfl hgate.symm hmutex.symm
    | true => cases result <;> exact .leaveGate rfl hcontrol rfl hgate rfl hmutex.symm
  · unfold finishLeave
    cases viaClient with
    | false => exact .calm (hcalm.trans (calm_goto s' i _)) (.returned hrelay _)
    | true =>
        cases result with
        | ok _ => exact .calm (hcalm.trans (calm_release s' i _)) (.returned hrelay _)
        | error e => exact heffect ⟨e, rfl⟩ rfl (calm_release _ i _)

theorem moved_lockTeardown {session : ℕ} {k : After V} (hp : s.tasks.pc i = .teardown session k)
    (h : s.lockTeardown i session k = some t) : ∃ q, Moved env s t i q := by
  cases lockTeardown_cases h with
  | finds viaClient hk _ =>
      subst hk
      refine moved_finishLeave ?_ ?_ ?_ (calm_refl s) rfl rfl ?_
      · rw [hp]; cases viaClient <;> rfl
      · rw [hp]; rfl
      · rw [hp]; rfl
      · rintro t ⟨e, he⟩
        cases he
  | stops x _ _ =>
      refine ⟨.stopping session k, rfl, .keep rfl rfl hp rfl rfl, .calm ?_ ?_⟩
      · have hcalm : Calm s
            { s with teardownHolder := Function.update s.teardownHolder session (some i) } :=
          calm_inert s _ _ _ _ _ _ _
        exact (hcalm.trans (calm_closeWorker _ _)).trans (calm_goto _ i _)
      · rw [hp]
        refine ⟨rfl, rfl, .inl rfl, .inr rfl, .inl rfl, .inl rfl, id, ?_, ?_, id, .inl rfl⟩
        all_goals cases k <;> exact id

theorem HasStopped.not_running {session : ℕ} (h : s.HasStopped session) :
    s.isRunning session = false := by
  obtain ⟨x, worker, hx, hworker, hterm⟩ := h
  simp [isRunning, hx, hworker, hterm]

theorem moved_transportStopped {session : ℕ} {k : After V}
    (hp : s.tasks.pc i = .stopping session k)
    (h : s.transportStopped i session k = some t) : ∃ q, Moved env s t i q := by
  obtain ⟨x, -, hstopped, hclosed⟩ := transportStopped_cases h
  -- The key is forgotten and the teardown lock is released.
  have hcalm : Calm s (unlockTeardown
      { s with keyCache := s.keyCache.remove x.sessionId } session) :=
    calm_inert s _ _ _ _ _ _ _
  cases hclosed with
  | records call next reuse y hk hy =>
      subst hk
      obtain ⟨q, hholder, hpc, hcontrol, hrecorded, hle, hrejoin, hgate, hmutex⟩ :=
        recordJoin_spec (unlockTeardown
          { s with keyCache := s.keyCache.remove x.sessionId } session) i call next y reuse
      refine ⟨q, hpc, .leaveGate hholder hcontrol hp rfl hgate hmutex,
        .records call session next reuse y hp ⟨hle, hrejoin⟩ hy (Calm.trans ?_ hrecorded)⟩
      exact calm_inert (s.recorded call next y) _ _ _ _ _ _ _
  | relays r hk =>
      subst hk
      refine ⟨.relayTop r, rfl, .leaveGate rfl rfl hp rfl rfl rfl,
        .calm (hcalm.trans (calm_release _ i _)) ?_⟩
      rw [hp]
      exact .relayTop rfl rfl
  | closes hk =>
      subst hk
      refine ⟨.returned (.ok ()), rfl, .keep rfl rfl hp rfl rfl,
        .calm (hcalm.trans (calm_goto _ i _)) ?_⟩
      rw [hp]
      exact .returned rfl _
  | shuts hk =>
      subst hk
      refine ⟨.shutdownControl, rfl, .leaveGate rfl rfl hp rfl rfl rfl,
        .calm (hcalm.trans (calm_release _ i _)) ?_⟩
      rw [hp]
      exact .of_shutdown rfl rfl rfl id id id
  | fails viaClient hk =>
      subst hk
      refine moved_finishLeave ?_ ?_ ?_ hcalm rfl rfl ?_
      · rw [hp]; cases viaClient <;> rfl
      · rw [hp]; rfl
      · rw [hp]; rfl
      · intro t _ _ ht
        refine .calm ((hcalm.trans (calm_voice _ ?_)).trans ht) ?_
        · rintro v ⟨⟩
          exact hstopped.not_running
        · rw [hp]
          exact .returned rfl _
  | leaves viaClient hk =>
      subst hk
      refine ⟨.leaving session (.leave viaClient), rfl, .keep rfl rfl hp rfl rfl,
        .leaves session viaClient hp rfl hstopped ?_⟩
      exact calm_inert s _ _ _ _ _ _ _

theorem moved_leaveResponded {session : ℕ} {k : After V} {result : Except Http.HttpError Unit}
    (hp : s.tasks.pc i = .leaving session k)
    (h : s.leaveResponded i session k result = some t) : ∃ q, Moved env s t i q := by
  have hmutex : (s.tasks.pc i).holdsControl = false := by rw [hp]; rfl
  have hrelay {viaClient : Bool} (hk : k = .leave viaClient) : (s.tasks.pc i).relay? = none := by
    rw [hp, hk]; rfl
  have hgate {viaClient : Bool} (hk : k = .leave viaClient) :
      (s.tasks.pc i).holdsGate = viaClient := by
    rw [hp, hk]; cases viaClient <;> rfl
  cases leaveResponded_cases h with
  | leaves viaClient hk =>
      refine moved_finishLeave (hgate hk) hmutex (hrelay hk) (calm_inert s _ _ _ _ _ _ _) rfl rfl ?_
      rintro t ⟨e, he⟩
      cases he
  | fails viaClient e hk =>
      refine moved_finishLeave (hgate hk) hmutex (hrelay hk) (calm_inert s _ _ _ _ _ _ _) rfl rfl ?_
      intro t _ _ ht
      refine .putsBack session _ (by rw [hp, hk]; rfl) rfl (hrelay hk) (Calm.trans ?_ ht)
      exact calm_inert { s with voice := some session } _ _ _ _ _ _ _

theorem moved_leaveCurrent (hp : s.tasks.pc i = .leaveGate) (h : s.leaveCurrent i = some t) :
    ∃ q, Moved env s t i q := by
  unfold leaveCurrent at h
  split at h
  · cases h
  · cases h
    refine ⟨.returned (.ok ()), rfl, .keep rfl rfl hp rfl rfl, .calm (calm_goto s i _) ?_⟩
    rw [hp]
    exact .returned rfl _
  case h_3 session _ _ =>
    split at h
    · cases h
    case h_2 x hx =>
      obtain ⟨hfree, hholder, hpc, hcontrol, hcalm⟩ := acquire_eq_some h
      simp only [clearSessionIntent_tasks] at hfree hpc
      simp only [clearSessionIntent_controlHolder] at hcontrol
      refine ⟨.teardown session (.leave true), hpc, .enterGate hfree hholder hcontrol hp rfl rfl,
        .calm ?_ ?_⟩
      · have hvoice : Calm s { s with voice := none } := calm_voice s (fun _ h => by cases h)
        exact (hvoice.trans (calm_clearSessionIntent _ x)).trans hcalm
      · rw [hp]
        exact .of_not_engaged rfl rfl rfl rfl

/-! ### The event relay -/

@[simp] theorem forgetIntent_tasks (s : Client V K) (r : Relay) (event : ClientEvent V) :
    (s.forgetIntent r event).tasks = s.tasks := by
  unfold forgetIntent
  split <;> rfl

@[simp] theorem forgetIntent_controlHolder (s : Client V K) (r : Relay) (event : ClientEvent V) :
    (s.forgetIntent r event).controlHolder = s.controlHolder := by
  unfold forgetIntent
  split <;> rfl

/-- A relayed event is observed without touching the current session. -/
theorem relay_forgetIntent_voice (s : Client V K) (r : Relay) (event : ClientEvent V) :
    ((s.forgetIntent r event).relay event).voice = s.voice := by
  unfold relay forgetIntent
  split <;> rfl

theorem relay_forgetIntent_isRunning (s : Client V K) (r : Relay) (event : ClientEvent V) (v : ℕ) :
    ((s.forgetIntent r event).relay event).isRunning v = s.isRunning v := by
  unfold relay forgetIntent
  split <;> rfl

theorem eq_live_of_rejoinsVoice {event : ClientEvent V} (h : rejoinsVoice event = true) :
    event = .statusChanged .live := by
  unfold rejoinsVoice at h
  split at h
  · rfl
  · cases h

theorem forgetIntent_live (s : Client V K) (r : Relay) :
    s.forgetIntent r (.statusChanged .live) = s := rfl

theorem moved_rejoinVoiceIfConfigured {g : ℕ} {r : Relay} {conn : Connection V}
    (hi : i = .relay g) (hp : s.tasks.pc i = .relayReceive r)
    (hconn : s.connection? r.connection = some conn)
    (hevent : conn.sent[r.next]? = some (.statusChanged .live))
    (hg : s.connectionGeneration = g) :
    ∃ q, Moved env s
      ((s.rejoinVoiceIfConfigured i { r with next := r.next + 1 }).relay (.statusChanged .live))
      i q := by
  have htop {u : Client V K} (hu : Calm s u) (htasks : u.tasks = s.tasks)
      (hcontrol : u.controlHolder = s.controlHolder) :
      ∃ q, Moved env s
        ((u.goto i (.relayTop { r with next := r.next + 1 })).relay (.statusChanged .live))
        i q := by
    refine ⟨.relayTop { r with next := r.next + 1 }, by rw [← htasks]; rfl,
      .keep (congrArg (·.holder) htasks) hcontrol hp rfl rfl, .handles g r conn _ hi hp hconn hevent
        hg ?_ (.inr (.inl ⟨rfl, rfl⟩))⟩
    have hrelay : Calm (s.relay (.statusChanged .live)) (u.relay (.statusChanged .live)) :=
      { hu with relayed := congrArg (· ++ _) hu.relayed }
    exact hrelay.trans (calm_goto _ i _)
  unfold rejoinVoiceIfConfigured
  split
  case h_1 intent hauto hintent =>
    split
    · exact htop (calm_clearVoiceIntent s) rfl rfl
    · refine ⟨_, rfl, .keep rfl rfl hp rfl rfl,
        .handles g r conn _ hi hp hconn hevent hg (calm_goto _ i _) (.inr (.inr ?_))⟩
      exact ⟨intent, rfl, hauto, hintent, rfl⟩
  · exact htop (calm_refl s) rfl rfl

theorem moved_handleEvent {g : ℕ} {r : Relay} {conn : Connection V} {event : ClientEvent V}
    (hi : i = .relay g) (hp : s.tasks.pc i = .relayReceive r)
    (hconn : s.connection? r.connection = some conn) (hevent : conn.sent[r.next]? = some event) :
    ∃ q, Moved env s (s.handleEvent i g r event) i q := by
  unfold handleEvent
  dsimp only
  split
  case isTrue hne =>
    refine ⟨_, rfl, .keep rfl rfl hp rfl rfl,
      .skips g r conn _ hi hp rfl hconn (.inr ⟨hne, ?_, rfl⟩) (calm_goto s i _)⟩
    exact (List.getElem?_eq_some_iff.mp hevent).1
  case isFalse hg =>
    have hg : s.connectionGeneration = g := by simpa using hg
    have hmove {q : Pc V} (hgate : q.holdsGate = false) (hmutex : q.holdsControl = false)
        (hq : (stopsVoice event = true ∧ q = .relayStop { r with next := r.next + 1 } event) ∨
          (stopsVoice event = false ∧ q = .relayTop { r with next := r.next + 1 })) :
        Moved env s (((s.forgetIntent r event).relay event).goto i q) i q := by
      refine ⟨by simp [goto, Gate.Tasks.goto, relay], ?_, .handles g r conn event hi hp hconn
        hevent hg (calm_goto _ i _) ?_⟩
      · exact .keep (by simp [goto, Gate.Tasks.goto, relay]) (by simp [goto, relay]) hp hgate hmutex
      · rcases hq with hq | hq
        · exact .inl hq
        · exact .inr (.inl hq)
    split
    case isTrue hstop => exact ⟨_, hmove rfl rfl (.inl ⟨hstop, rfl⟩)⟩
    case isFalse hstop =>
      split
      case isTrue hlive =>
        cases eq_live_of_rejoinsVoice hlive
        rw [forgetIntent_live]
        exact moved_rejoinVoiceIfConfigured hi hp hconn hevent hg
      · exact ⟨_, hmove rfl rfl (.inr ⟨by simpa using hstop, rfl⟩)⟩

theorem moved_relayReceive {g : ℕ} {r : Relay} (hi : i = .relay g)
    (hp : s.tasks.pc i = .relayReceive r) (h : s.relayReceive i g r = some t) :
    ∃ q, Moved env s t i q := by
  unfold relayReceive at h
  split at h
  · cases h
  case h_2 conn hconn =>
    unfold Broadcast.Channel.tryRecv at h
    by_cases hlag : conn.socket.events.capacity < conn.sent.length - r.next
    · rw [if_pos (show _ < conn.socket.events.sent.length - r.next from hlag)] at h
      cases h
      exact ⟨_, rfl, .keep rfl rfl hp rfl rfl,
        .skips g r conn _ hi hp rfl hconn (.inl ⟨hlag, rfl⟩) (calm_goto s i _)⟩
    · rw [if_neg (show ¬ _ < conn.socket.events.sent.length - r.next from hlag)] at h
      cases hevent : conn.socket.events.sent[r.next]? with
      | none => simp [hevent] at h
      | some event =>
          simp only [hevent] at h
          cases h
          exact moved_handleEvent hi hp hconn hevent

theorem moved_stopVoiceTransport {g : ℕ} {r : Relay} {event : ClientEvent V} (hi : i = .relay g)
    (hp : s.tasks.pc i = .relayStop r event) (h : s.stopVoiceTransport i g r event = some t) :
    ∃ q, Moved env s t i q := by
  unfold stopVoiceTransport at h
  split at h
  · cases h
  case h_2 hfree =>
    have hpass (hv : ∀ v x, s.voice = some v → s.sessions[v]? = some x →
        x.controlGeneration ≠ g) : Moved env s (s.goto i (.relayTop r)) i (.relayTop r) :=
      ⟨rfl, .keep rfl rfl hp rfl rfl, .passes g r event hi hp rfl hfree hv (calm_goto s i _)⟩
    split at h
    case h_1 session x hvoice hx =>
      rw [hvoice, Option.bind_some] at hx
      split at h
      case isTrue hg =>
        obtain ⟨-, hholder, hpc, hcontrol, hcalm⟩ := acquire_eq_some h
        exact ⟨_, hpc, .enterGate hfree hholder hcontrol hp rfl rfl,
          .takes g r event session x hi hp rfl hfree hvoice hx hg hcalm⟩
      case isFalse hg =>
        cases h
        refine ⟨_, hpass ?_⟩
        intro v y hv hy
        rw [hvoice] at hv
        cases hv
        rw [hx] at hy
        cases hy
        exact hg
    case h_2 hnone =>
      cases h
      refine ⟨_, hpass ?_⟩
      intro v x hv hx
      exact absurd (by rw [hv, Option.bind_some, hx]) (hnone v x hv)

/-! ### Connecting and shutting down -/

theorem moved_connectLocked (hp : s.tasks.pc i = .connectLock) (h : s.connectLocked i = some t) :
    ∃ q, Moved env s t i q := by
  unfold connectLocked at h
  split at h
  · cases h
  case h_2 hfree =>
    split at h
    · cases h
      refine ⟨.returned (.ok ()), rfl, .keep rfl rfl hp rfl rfl, .calm (calm_goto s i _) ?_⟩
      rw [hp]
      exact .returned rfl _
    case isFalse hclosed =>
      cases h
      refine ⟨.connectSnapshot, rfl, ⟨.inl ⟨rfl, by rw [hp]; rfl⟩, .inr (.inl ⟨hfree, rfl, rfl⟩)⟩,
        .locks rfl hp ?_ (calm_inert { s with control := none } _ _ _ _ _ _ _)⟩
      intro c conn hc hconn
      simpa [hc, hconn] using hclosed

/-- A move that releases the control mutex. -/
theorem Locks.leaveControl (hgate : t.tasks.holder = s.tasks.holder)
    (hcontrol : t.controlHolder = none) (hp : s.tasks.pc i = p) (hg : q.holdsGate = p.holdsGate)
    (hc : p.holdsControl = true) (hc' : q.holdsControl = false) : Locks s t i q :=
  ⟨.inl ⟨hgate, by rw [hp, hg]⟩, .inr (.inr ⟨by rw [hp, hc], hcontrol, hc'⟩)⟩

theorem moved_connectReady {result : Except RealtimeError StateSnapshot}
    (hp : s.tasks.pc i = .connectSnapshot) : ∃ q, Moved env s (s.connectReady i result) i q := by
  cases result with
  | error e =>
      refine ⟨.returned (.error (.realtime e)), rfl, .leaveControl rfl rfl hp rfl rfl rfl,
        .calm (calm_inert s _ _ _ _ _ _ _) ?_⟩
      rw [hp]
      exact .returned rfl _
  | ok snapshot =>
      exact ⟨.connectInstall s.connections.length, rfl, .keep rfl rfl hp rfl rfl,
        .makes (Connection.new snapshot s.policy) hp rfl
          (Connection.wellFormed_new snapshot s.policy) rfl (calm_goto _ i _)⟩

/-- The answer to a metadata request. -/
theorem moved_discovered {result : Except SdkError Metadata} (hp : s.tasks.pc i = .discovering) :
    ∃ q, Moved env s (s.discovered i result) i q := by
  unfold discovered
  cases result with
  | error e =>
      refine ⟨.returned (.error e), rfl, .keep rfl rfl hp rfl rfl, .calm (calm_goto s i _) ?_⟩
      rw [hp]
      exact .returned rfl _
  | ok metadata =>
      refine ⟨.returned (.ok ()), rfl, .keep rfl rfl hp rfl rfl,
        .calm (calm_inert s _ _ _ _ _ _ _) ?_⟩
      rw [hp]
      exact .returned rfl _

theorem calm_shutdownClear (s : Client V K) (i : Task) : Calm s (s.shutdownClear i) :=
  ((calm_clearVoiceIntent s).trans (calm_state _ none)).trans (calm_inert _ _ _ _ _ _ _ _)

theorem moved_shutdownVoice (hp : s.tasks.pc i = .shutdownGate)
    (h : s.shutdownVoice i = some t) : ∃ q, Moved env s t i q := by
  cases shutdownVoice_cases h with
  | finds hfree hvoice =>
      refine ⟨.shutdownControl, rfl, .keep rfl rfl hp rfl rfl, .shutsVoice hp ?_ ?_⟩
      · exact .of_shutdown rfl rfl rfl id id id
      · have hs : { s with voice := none } = s := by rw [← hvoice]
        rw [hs]
        exact calm_goto s i _
  | takes session _ hvoice h =>
      obtain ⟨hfree, hholder, hpc, hcontrol, hcalm⟩ := acquire_eq_some h
      refine ⟨.teardown session .shutdown, hpc, .enterGate hfree hholder hcontrol hp rfl rfl,
        .shutsVoice hp ?_ hcalm⟩
      exact .of_shutdown rfl rfl rfl (fun _ => rfl) (fun _ => rfl) id

theorem moved_call {n : ℕ} {c : Call} {result : Except SdkError Unit}
    (hp : s.tasks.pc (.host n) = .returned result) (h : s.call (.host n) c = some t) :
    ∃ q, Moved env s t (.host n) q := by
  have hidle {q : Pc V} {u : Client V K} (hcalm : Calm s u) (htasks : u.tasks = s.tasks)
      (hcontrol : u.controlHolder = s.controlHolder) (hgate : q.holdsGate = false)
      (hmutex : q.holdsControl = false) (hle : q.Le (.returned result)) :
      ∃ q', Moved env s (u.goto (.host n) q) (.host n) q' := by
    refine ⟨q, by rw [← htasks]; rfl, .keep (congrArg (·.holder) htasks) hcontrol hp hgate hmutex,
      .calm (hcalm.trans (calm_goto u _ q)) ?_⟩
    rw [hp]
    exact hle
  have hclosed : ∃ q, Moved env s (s.goto (.host n) (.returned (.error .closed))) (.host n) q :=
    hidle (calm_refl s) rfl rfl rfl rfl (.returned rfl _)
  unfold call at h
  cases c with
  | connect =>
      dsimp only at h
      split at h
      · cases h; exact hclosed
      · cases h
        exact hidle (calm_refl s) rfl rfl rfl rfl (.of_not_engaged rfl rfl rfl rfl)
  | discover =>
      dsimp only at h
      split at h
      · cases h; exact hclosed
      · split at h
        · cases h
          exact hidle (calm_refl s) rfl rfl rfl rfl (.returned rfl _)
        · cases h
          exact hidle (calm_refl s) rfl rfl rfl rfl (.of_not_engaged rfl rfl rfl rfl)
  | joinVoice channelId request =>
      dsimp only at h
      split at h
      · cases h; exact hclosed
      · cases h
        exact hidle (calm_refl s) rfl rfl rfl rfl (.of_not_engaged rfl rfl rfl rfl)
  | leaveVoice =>
      dsimp only at h
      split at h
      · cases h; exact hclosed
      · cases h
        exact hidle (calm_clearVoiceIntent s) rfl rfl rfl rfl (.of_not_engaged rfl rfl rfl rfl)
  | closeSession session =>
      obtain ⟨x, -, rfl⟩ := Option.map_eq_some_iff.mp h
      exact hidle (calm_clearSessionIntent s x) (by simp) (by simp) rfl rfl
        (.of_not_engaged rfl rfl rfl rfl)
  | leaveSession session =>
      obtain ⟨x, -, rfl⟩ := Option.map_eq_some_iff.mp h
      exact hidle (calm_clearSessionIntent s x) (by simp) (by simp) rfl rfl
        (.of_not_engaged rfl rfl rfl rfl)
  | shutdown =>
      cases h
      exact hidle (calm_refl s) rfl rfl rfl rfl (.of_not_engaged rfl rfl rfl rfl)

/-! ## Every action -/

/-- What an action of the client does. -/
inductive Change (env : Env V K) (s t : Client V K) : Action V → Prop
  /-- A host starts an operation. -/
  | call (n : ℕ) (c : Call) (q : Pc V) (result : Except SdkError Unit)
      (hp : s.tasks.pc (.host n) = .returned result) (h : Moved env s t (.host n) q) :
      Change env s t (.call n c)
  /-- A task moves. -/
  | resume (i : Task) (input : Input) (q : Pc V) (hp : s.tasks.pc i ≠ .relayExited)
      (h : Moved env s t i q) : Change env s t (.resume i input)
  /-- `connect` installs a connection and starts its relay. -/
  | install (i : Task) (input : Input) (c : ℕ) (conn : Connection V)
      (hp : s.tasks.pc i = .connectInstall c) (hconn : s.connection? c = some conn)
      (hstopped : s.stopped = false)
      (ht : t = ({ s with
        connectionGeneration := s.connectionGeneration + 1
        state := some c
        control := some c
        controlHolder := none
        history := { s.history with installed := s.history.installed ++ [c] } }.goto
          (.relay (s.connectionGeneration + 1))
          (.relayTop ⟨c, conn.sent.length⟩)).goto i (.returned (.ok ()))) :
      Change env s t (.resume i input)
  /-- Shutdown ends and aborts the relays. -/
  | abort (i : Task) (input : Input) (hp : s.tasks.pc i = .shutdownAborting)
      (ht : t = s.shutdownFinish i) : Change env s t (.resume i input)
  /-- A connection's owner task makes a step. -/
  | engine (c : ℕ) (input : EngineInput V) (conn next : Connection V)
      (hconn : s.connection? c = some conn) (hstep : conn.step env.serde input = some next)
      (ht : t = { s with
        connections := s.connections.set c next
        history := { s.history with
          withdrawn := s.history.withdrawn ++ s.withdrawnByState c conn next } }) :
      Change env s t (.engine c input)
  /-- A host asks a connection to close. -/
  | close (c : ℕ) (ht : t = s.closeConnection c) : Change env s t (.closeControl c)
  /-- A worker makes a turn. -/
  | worker (w : ℕ) (input : WorkerInput) (worker next : Worker K) (sealed : List (Sealed K))
      (keyCache : SessionKeyCache) (hworker : s.workers[w]? = some worker)
      (hstep : worker.step env.crypto input = some (next, sealed))
      (ht : t = { s with
        workers := s.workers.set w next
        keyCache := keyCache
        history := { s.history with
          withdrawn := s.history.withdrawn ++ s.withdrawnByWorker worker next input
          sealed := s.history.sealed ++ sealed } }) :
      Change env s t (.worker w input)

theorem change_resume {input : Input} (h : s.resume env i input = some t) :
    Change env s t (.resume i input) := by
  have hlive : s.tasks.pc i ≠ .relayExited := by
    intro hp
    simp [resume, hp] at h
  have moved (h : ∃ q, Moved env s t i q) : Change env s t (.resume i input) := by
    obtain ⟨q, h⟩ := h
    exact .resume i input q hlive h
  unfold resume at h
  split at h
  case h_1 hp => exact moved (moved_connectLocked hp h)
  case h_2 hp => cases h; exact moved (moved_connectReady hp)
  case h_3 c hp =>
    unfold connectInstall at h
    split at h
    · cases h
    case h_2 conn hconn =>
      split at h
      · cases h
        exact moved ⟨.connectAbort c, rfl, .keep rfl rfl hp rfl rfl,
          .rejects c hp rfl (calm_goto _ i _)⟩
      case isFalse hstopped =>
        cases h
        exact .install i .ready c conn hp hconn (by simpa using hstopped) rfl
  case h_4 c hp =>
    obtain ⟨-, h⟩ := Option.ite_none_right_eq_some.mp h
    cases h
    refine moved ⟨.returned (.error .closed), rfl, .leaveControl rfl rfl hp rfl rfl rfl,
      .calm (calm_inert s _ _ _ _ _ _ _) ?_⟩
    rw [hp]
    exact .returned rfl _
  case h_5 result hp => cases h; exact moved (moved_discovered hp)
  case h_6 r hp =>
    cases i with
    | host n => cases h
    | relay g =>
        dsimp only at h
        split at h
        case isTrue hne =>
          cases h
          exact moved ⟨.relayExited, rfl, .keep rfl rfl hp rfl rfl,
            .exits g r rfl hp rfl hne (calm_goto s _ _)⟩
        · cases h
          refine moved ⟨.relayReceive r, rfl, .keep rfl rfl hp rfl rfl, .calm (calm_goto s _ _) ?_⟩
          rw [hp]
          exact .of_not_engaged rfl rfl rfl rfl
  case h_7 r hp =>
    cases i with
    | host n => cases h
    | relay g => exact moved (moved_relayReceive rfl hp h)
  case h_8 r event hp =>
    cases i with
    | host n => cases h
    | relay g => exact moved (moved_stopVoiceTransport rfl hp h)
  case h_9 call stage hp => exact moved (moved_resumeJoin hp h)
  case h_10 hp => exact moved (moved_leaveCurrent hp h)
  case h_11 session k hp => exact moved (moved_lockTeardown hp h)
  case h_12 session k hp => exact moved (moved_transportStopped hp h)
  case h_13 session k result hp => exact moved (moved_leaveResponded hp h)
  case h_14 hp =>
    split at h
    · cases h
    · split at h
      · cases h
        refine moved ⟨.returned (.ok ()), rfl, .keep rfl rfl hp rfl rfl, .calm (calm_goto s i _) ?_⟩
        rw [hp]
        exact .returned rfl _
      case isFalse hrunning =>
        cases h
        exact moved ⟨.shutdownGate, rfl, .keep rfl rfl hp rfl rfl,
          .shuts hp rfl (calm_inert { s with stopped := true } _ _ _ _ _ _ _)
            (by simpa using hrunning)⟩
  case h_15 hp => exact moved (moved_shutdownVoice hp h)
  case h_16 hp =>
    cases shutdownConnection_cases h with
    | clears _ hcontrol =>
        exact moved ⟨.shutdownAborting, rfl, .keep rfl rfl hp rfl rfl,
          .clears hp rfl hcontrol (calm_shutdownClear s i)⟩
    | closes c hfree _ =>
        refine moved ⟨.shutdownClosing c, rfl,
          ⟨.inl ⟨rfl, by rw [hp]; rfl⟩, .inr (.inl ⟨hfree, rfl, rfl⟩)⟩, .shutsControl c hp rfl ?_⟩
        exact calm_inert ({ s with control := none }.closeConnection c) _ _ _ _ _ _ _
  case h_17 c hp =>
    obtain ⟨-, h⟩ := Option.ite_none_right_eq_some.mp h
    cases h
    refine moved ⟨.shutdownAborting, rfl, .leaveControl rfl rfl hp rfl rfl rfl,
      .calm ((calm_inert s _ _ _ _ _ _ _).trans (calm_shutdownClear _ i)) ?_⟩
    rw [hp]
    exact .of_shutdown rfl rfl rfl (fun _ => rfl) (fun _ => rfl) fun _ => rfl
  case h_18 hp => cases h; exact .abort i .ready hp rfl
  case h_19 => cases h

/-- **What an action of the client can do.** -/
theorem step_cases {a : Action V} (h : s.step env a = some t) : Change env s t a := by
  unfold step at h
  cases a with
  | call n c =>
      dsimp only at h
      split at h
      case h_1 result hp =>
        have hmoved : ∃ q, Moved env s t (.host n) q := moved_call hp h
        obtain ⟨q, hq⟩ := hmoved
        exact .call n c q result hp hq
      · cases h
  | resume i input => exact change_resume h
  | engine c input =>
      dsimp only [stepEngine] at h
      split at h
      · cases h
      case h_2 conn hconn =>
        obtain ⟨next, hstep, rfl⟩ := Option.map_eq_some_iff.mp h
        exact .engine c input conn next hconn hstep rfl
  | closeControl c => cases h; exact .close c rfl
  | worker w input =>
      dsimp only [stepWorker] at h
      split at h
      · cases h
      case h_2 worker hworker =>
        obtain ⟨⟨next, sealed⟩, hstep, rfl⟩ := Option.map_eq_some_iff.mp h
        exact .worker w input worker next sealed _ hworker hstep rfl

end Client

end ZephyrVox.Sdk
