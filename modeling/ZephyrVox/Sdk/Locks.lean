import ZephyrVox.Sdk.Shutdown

/-!
# What the tasks of the facade wait for

An operation waits for the voice gate, the mutex around the control connection, the
teardown lock of a session, the shutdown gate, a worker, a connection or an answer
of the server. Whoever holds a lock is at a counter that gives it back; a worker that
is waited for has been asked to stop, after it reported its start; a connection that
is waited for has been asked to close. Every action keeps this, and every move of a
task brings it closer to its end.

## Main definitions

* `Pc.left` — how many moves a task still makes before it rests.
* `Client.Relies` — what a task relies on at a counter.
* `Client.Served` — what a move of a task does to all of this.
* `Client.Lively` — everything progress rests on, kept by every action.
-/

namespace ZephyrVox.Sdk

open Realtime Voice Transition

variable {V K : Type}

/-! ## The work left -/

/-- How many moves a task makes at most once the session it waits for has closed. -/
def After.left : After V → ℕ
  | .shutdown => 3
  | .join _ _ _ | .relay _ | .leave _ | .close => 0

namespace Pc

/-- How many moves a task makes at most from a counter on, until its operation returns
or its relay is back in its loop. -/
def left : Pc V → ℕ
  | .returned _ | .relayTop _ | .relayReceive _ | .relayExited => 0
  | .connectAbort _ | .discovering | .shutdownAborting | .join _ (.discarding _) => 1
  | .connectInstall _ | .shutdownClosing _ => 2
  | .connectSnapshot | .shutdownControl => 3
  | .connectLock | .relayStop _ _ | .leaveGate | .join _ (.starting _ _ _) => 4
  | .join _ (.connecting _ _ _) => 5
  | .join _ (.requesting _) => 6
  | .join _ (.discovering _ _) | .shutdownGate => 7
  | .join _ .control | .shutdownLock => 8
  | .join _ .gate => 9
  | .teardown _ k => k.left + 3
  | .stopping _ k => k.left + 2
  | .leaving _ k => k.left + 1

/-- Whether a relay waits for the next event. -/
def reads : Pc V → Bool
  | .relayTop _ | .relayReceive _ => true
  | _ => false

/-- Whether an operation has returned, or a relay waits for the next event. -/
def rests : Pc V → Bool
  | .returned _ | .relayTop _ | .relayReceive _ => true
  | _ => false

/-- The session whose teardown lock a task holds. -/
def closing? : Pc V → Option ℕ
  | .stopping session _ | .leaving session _ => some session
  | _ => none

theorem left_le (p : Pc V) : p.left ≤ 9 := by
  cases p with
  | join call stage => cases stage <;> simp [left]
  | teardown session k | stopping session k | leaving session k =>
      cases k <;> simp [left, After.left]
  | _ => simp [left]

/-- A task without work left rests, unless it is a relay that has ended. -/
theorem rests_of_left_eq_zero {p : Pc V} (h : p.left = 0) : p.rests = true ∨ p = .relayExited := by
  cases p with
  | returned | relayTop | relayReceive => exact .inl rfl
  | relayExited => exact .inr rfl
  | join call stage => cases stage <;> cases h
  | _ => cases h

theorem left_eq_zero_of_rests {p : Pc V} (h : p.rests = true) : p.left = 0 := by
  cases p <;> first | rfl | cases h

theorem returned_or_reads {p : Pc V} (h : p.rests = true) :
    (∃ result, p = .returned result) ∨ p.reads = true := by
  cases p with
  | returned result => exact .inl ⟨result, rfl⟩
  | relayTop | relayReceive => exact .inr rfl
  | _ => cases h

theorem rests_of_reads {p : Pc V} (h : p.reads = true) : p.rests = true := by
  cases p <;> first | rfl | cases h

theorem left_eq_zero_of_reads {p : Pc V} (h : p.reads = true) : p.left = 0 := by
  cases p <;> first | rfl | cases h

end Pc

namespace Client

/-! ## Workers and connections -/

/-- A worker is asked to stop only after it reported its start. -/
structure Worker.InOrder (worker : Worker K) : Prop where
  joining : worker.status = .joining → worker.termination = none
  unstarted : worker.started = none → worker.status = .joining

theorem Worker.inOrder_new (codec : PacketCodec K) : Worker.InOrder (Worker.new codec) :=
  ⟨fun _ => rfl, fun _ => rfl⟩

theorem Worker.InOrder.requestTermination {worker : Worker K} (h : Worker.InOrder worker)
    (hstarted : worker.started.isSome = true) :
    Worker.InOrder (worker.requestTermination .close) := by
  by_cases hterminal : worker.status.isTerminal = true
  · rw [isTerminal_requestTermination _ hterminal]
    exact h
  · rw [requestTermination_close hterminal]
    refine ⟨fun hjoining => ?_, fun hnone => ?_⟩
    · cases hjoining
    · rw [show worker.started = none from hnone] at hstarted
      cases hstarted

/-- The first turn of a worker reports its start. -/
theorem started_startup {crypto : Crypto K} {worker : Worker K} (sent : Except VoiceError Unit) :
    (worker.startup crypto sent).1.status ≠ .joining ∧
      (worker.startup crypto sent).1.started.isSome = true := by
  unfold Worker.startup
  split
  · exact ⟨by simp, rfl⟩
  · exact ⟨by simp [Worker.finish], rfl⟩

theorem status_sendHeartbeat {crypto : Crypto K} (worker : Worker K)
    (sent : Except VoiceError Unit) :
    (worker.sendHeartbeat crypto sent).1.status = worker.status := by
  unfold Worker.sendHeartbeat
  split
  · rfl
  · dsimp only
    split <;> rfl

theorem status_sendMedia {crypto : Crypto K} (worker : Worker K) (streamType : UInt8)
    (payload : List UInt8) (sent : Except VoiceError Unit) :
    (worker.sendMedia crypto streamType payload sent).1.status = worker.status := by
  unfold Worker.sendMedia
  split
  · rfl
  · dsimp only
    split
    · rfl
    · split
      · rfl
      · split <;> rfl

theorem status_handleInbound {crypto : Crypto K} {worker : Worker K} (datagram : List UInt8)
    (hstatus : worker.status ≠ .joining) :
    (worker.handleInbound crypto datagram).status ≠ .joining := by
  unfold Worker.handleInbound
  split
  · exact hstatus
  · split
    · exact hstatus
    · dsimp only
      split
      · exact hstatus
      · simp [Worker.finish]
      · exact hstatus
      · exact hstatus

/-- A worker does not go back to joining. -/
theorem status_turn {crypto : Crypto K} {worker : Worker K} {input : WorkerInput}
    {t : Option Termination} {next : Worker K × List (Sealed K)}
    (hstatus : worker.status ≠ .joining) (h : worker.turn crypto input t = some next) :
    next.1.status ≠ .joining := by
  have hfinish (t : Termination) : (worker.finish t.status).status ≠ .joining := by
    cases t <;> simp [Worker.finish, Termination.status]
  have hsend {fatal : VoiceError → Bool}
      {result : Worker K × List (Sealed K) × Except VoiceError Unit}
      (hresult : result.1.status = worker.status) :
      (Worker.afterSend fatal result).1.status ≠ .joining := by
    obtain ⟨w', sealed, e | _⟩ := result
    · simp only [Worker.afterSend]
      split
      · simp [Worker.finish]
      · exact hresult ▸ hstatus
    · exact hresult ▸ hstatus
  unfold Worker.turn at h
  split at h
  case h_1 | h_9 => cases h
  case h_3 => cases h; exact hsend (status_sendHeartbeat worker _)
  case h_5 => cases h; exact hsend (status_sendMedia worker _ _ _)
  case h_6 => cases h; exact status_handleInbound _ hstatus
  case h_7 => cases h; simp [Worker.finish]
  case h_2 | h_4 | h_8 => cases h; exact hfinish _

/-- **What a turn does to the start of a worker**: the first reports it, the others keep
the report. -/
theorem started_step {crypto : Crypto K} {worker : Worker K} {input : WorkerInput}
    {next : Worker K × List (Sealed K)} (h : worker.step crypto input = some next) :
    next.1.status ≠ .joining ∧ (next.1.started.isSome = true ∨
      (worker.status ≠ .joining ∧ next.1.started = worker.started)) := by
  unfold Worker.step at h
  split at h
  · cases h
  · split at h
    · split at h
      · cases h
        obtain ⟨hstatus, hstarted⟩ := @started_startup _ crypto worker _
        exact ⟨hstatus, .inl hstarted⟩
      · cases h
    case isFalse hstatus => exact ⟨status_turn hstatus h, .inr ⟨hstatus, (Worker.turn_frame h).1⟩⟩

theorem Worker.InOrder.step {crypto : Crypto K} {worker : Worker K} {input : WorkerInput}
    {next : Worker K × List (Sealed K)} (hs : Worker.InOrder worker)
    (h : worker.step crypto input = some next) : Worker.InOrder next.1 := by
  obtain ⟨hnext, hstarted⟩ := started_step h
  refine ⟨fun hjoining => absurd hjoining hnext, fun hnone => ?_⟩
  rcases hstarted with hsome | ⟨hstatus, heq⟩
  · rw [hnone] at hsome
    cases hsome
  · exact absurd (hs.unstarted (heq ▸ hnone)) hstatus

/-- A worker that was asked to close stops. -/
theorem Worker.InOrder.stops (crypto : Crypto K) {worker : Worker K} (hs : Worker.InOrder worker)
    (hasked : Worker.IsAsked worker) (hrunning : worker.status.isTerminal = false) :
    worker.step crypto .stop = some (worker.finish .disconnected, []) := by
  have hclose : worker.termination = some .close := by
    rcases hasked with hterminal | hclose
    · rw [hrunning] at hterminal
      cases hterminal
    · exact hclose
  have hjoining : worker.status ≠ .joining := by
    intro hjoining
    rw [hs.joining hjoining] at hclose
    cases hclose
  simp [Worker.step, hrunning, hjoining, hclose, Worker.turn, Termination.status]

/-- A worker that has not reported its start can do so. -/
theorem Worker.InOrder.starts (crypto : Crypto K) {worker : Worker K} (hs : Worker.InOrder worker)
    (hnone : worker.started = none) (sent : Except VoiceError Unit) :
    worker.step crypto (.start sent) = some (worker.startup crypto sent) := by
  simp [Worker.step, hs.unstarted hnone, VoiceStatus.isTerminal]

/-- **A connection that was asked to close does so**, in whatever phase it is. -/
theorem connection_closes (serde : Serde V) {conn : Connection V} (hw : conn.WellFormed)
    (hstopped : conn.stopped = true) :
    ∃ inputs conn', exec (Connection.step serde) conn inputs = some conn' ∧
      conn'.status = .closed := by
  have finishes (input : EngineInput V) (d : Connection V)
      (h : conn.step serde input = some d.finish) :
      ∃ inputs conn', exec (Connection.step serde) conn inputs = some conn' ∧
        conn'.status = .closed :=
    ⟨[input], d.finish, by simp [h], rfl⟩
  cases hphase : conn.phase with
  | spawned =>
      refine finishes .scheduled conn ?_
      simp [Connection.step, hphase, Connection.loopTop, hstopped]
  | loadingToken =>
      refine finishes .stop conn ?_
      simp [Connection.step, hphase, hstopped, Connection.retryAfter, terminalError]
  | connectingSocket =>
      refine finishes (.connected (.ok ())) conn.clearSocketState ?_
      simp [Connection.step, hphase, hstopped, Connection.socketEnded]
  | awaitingReady | sendingHello | running =>
      refine finishes .stop conn.clearSocketState ?_
      simp [Connection.step, hphase, hstopped, Connection.socketEnded]
  | waitingRetry =>
      exact finishes .stop conn (by simp [Connection.step, hphase, hstopped])
  | finished => exact ⟨[], conn, rfl, hw.status.mpr hphase⟩

/-- No step of its task takes the shutdown flag of a connection back. -/
theorem stopped_step {serde : Serde V} {conn next : Connection V} {input : EngineInput V}
    (h : conn.step serde input = some next) : next.stopped = conn.stopped := by
  have hloop (d : Connection V) : d.loopTop.stopped = d.stopped := by
    unfold Connection.loopTop
    split <;> rfl
  have hretry (d : Connection V) (e : RealtimeError) : (d.retryAfter e).stopped = d.stopped := by
    unfold Connection.retryAfter Connection.waitForRetry
    split
    · rfl
    · split <;> rfl
  have hended (d : Connection V) (result : Except RealtimeError Unit) :
      (d.socketEnded result).stopped = d.stopped := by
    cases result with
    | ok _ => rfl
    | error e =>
        simp only [Connection.socketEnded]
        split
        · rfl
        · exact hretry _ e
  unfold Connection.step at h
  split at h
  case h_1 => cases h; exact hloop conn
  case h_3 => cases h; exact hretry conn _
  case h_4 => obtain ⟨-, h⟩ := Option.ite_none_right_eq_some.mp h; cases h; exact hretry conn _
  case h_5 =>
    split at h
    · cases h; exact hended conn _
    · cases h; rfl
  case h_2 | h_8 | h_12 => cases h; rfl
  case h_6 | h_9 | h_10 | h_13 | h_16 => cases h; exact hended conn _
  case h_7 | h_11 | h_14 | h_17 =>
    obtain ⟨-, h⟩ := Option.ite_none_right_eq_some.mp h
    cases h
    exact hended conn _
  case h_15 =>
    split at h
    · cases h; rfl
    · cases h; exact hended _ _
  case h_18 => obtain ⟨-, h⟩ := Option.ite_none_right_eq_some.mp h; cases h; exact hended _ _
  case h_19 =>
    split at h
    · cases h; rfl
    · cases h; exact hloop _
  case h_20 => obtain ⟨-, h⟩ := Option.ite_none_right_eq_some.mp h; cases h; rfl
  case h_21 => cases h

/-! ## What a task relies on -/

variable {env : Env V K} {s t u : Client V K} {i j : Task} {p q : Pc V} {a : Action V}

/-- A connection was asked to close. -/
def IsClosing (s : Client V K) (c : ℕ) : Prop :=
  ∃ conn, s.connection? c = some conn ∧ conn.stopped = true

/-- A worker was asked to close. -/
def Asked (s : Client V K) (w : ℕ) : Prop :=
  ∃ worker, s.workers[w]? = some worker ∧ Worker.IsAsked worker

/-- The connection a join is bound to exists. -/
def Bound (s : Client V K) (b : Binding) : Prop := ∃ conn, s.connection? b.control = some conn

/-- What comes after a close is about a session that exists. -/
def ReliesAfter (s : Client V K) : After V → Prop
  | .join _ next _ => ∃ x, s.sessions[next]? = some x
  | .relay _ | .leave _ | .close | .shutdown => True

/-- What a task relies on at a counter. -/
def Relies (s : Client V K) (i : Task) : Pc V → Prop
  | .relayExited => ∃ g, i = .relay g
  | .connectInstall c => ∃ conn, s.connection? c = some conn
  | .connectAbort c | .shutdownClosing c => s.IsClosing c
  | .join _ (.discovering c _) => ∃ conn, s.connection? c = some conn
  | .join _ (.requesting b) | .join _ (.connecting b _ _) => s.Bound b
  | .join _ (.starting b w _) => s.Bound b ∧ ∃ worker, s.workers[w]? = some worker
  | .join _ (.discarding w) => s.Asked w
  | .teardown v k => (∃ x, s.sessions[v]? = some x) ∧ s.ReliesAfter k
  | .stopping v k => (∃ x, s.sessions[v]? = some x ∧ s.Asked x.transport) ∧ s.ReliesAfter k
  | .leaving v k => (∃ x, s.sessions[v]? = some x) ∧ ∃ viaClient, k = .leave viaClient
  | _ => True

/-- What the tasks rely on and no action takes back. -/
structure Keeps (s t : Client V K) : Prop where
  connections : ∀ (c : ℕ) (conn : Connection V), s.connection? c = some conn →
    ∃ conn', t.connection? c = some conn' ∧ (conn.stopped = true → conn'.stopped = true)
  sessions : ∀ (v : ℕ) (x : Session), s.sessions[v]? = some x → t.sessions[v]? = some x
  workers : ∀ (w : ℕ) (worker : Worker K), s.workers[w]? = some worker →
    ∃ worker', t.workers[w]? = some worker' ∧
      (Worker.IsAsked worker → Worker.IsAsked worker') ∧
      (worker.started.isSome = true → worker'.started.isSome = true)

namespace Keeps

theorem connection (hk : Keeps s t) {c : ℕ} (h : ∃ conn, s.connection? c = some conn) :
    ∃ conn, t.connection? c = some conn := by
  obtain ⟨conn, hconn⟩ := h
  obtain ⟨conn', hconn', -⟩ := hk.connections c conn hconn
  exact ⟨conn', hconn'⟩

theorem closing (hk : Keeps s t) {c : ℕ} (h : s.IsClosing c) : t.IsClosing c := by
  obtain ⟨conn, hconn, hstopped⟩ := h
  obtain ⟨conn', hconn', hkept⟩ := hk.connections c conn hconn
  exact ⟨conn', hconn', hkept hstopped⟩

theorem asked (hk : Keeps s t) {w : ℕ} (h : s.Asked w) : t.Asked w := by
  obtain ⟨worker, hworker, hasked⟩ := h
  obtain ⟨worker', hworker', hkept, -⟩ := hk.workers w worker hworker
  exact ⟨worker', hworker', hkept hasked⟩

theorem session (hk : Keeps s t) {v : ℕ} (h : ∃ x, s.sessions[v]? = some x) :
    ∃ x, t.sessions[v]? = some x := by
  obtain ⟨x, hx⟩ := h
  exact ⟨x, hk.sessions v x hx⟩

theorem reliesAfter (hk : Keeps s t) {k : After V} (h : s.ReliesAfter k) : t.ReliesAfter k := by
  cases k with
  | join call next reuse => exact hk.session h
  | relay | leave | close | shutdown => exact trivial

theorem relies (hk : Keeps s t) (h : s.Relies i p) : t.Relies i p := by
  cases p with
  | relayExited => exact h
  | connectInstall c => exact hk.connection h
  | connectAbort c | shutdownClosing c => exact hk.closing h
  | join call stage =>
      cases stage with
      | discovering c cached => exact hk.connection h
      | requesting b | connecting b config reuse => exact hk.connection h
      | starting b w reuse =>
          obtain ⟨worker, hworker⟩ := h.2
          obtain ⟨worker', hworker', -⟩ := hk.workers w worker hworker
          exact ⟨hk.connection h.1, worker', hworker'⟩
      | discarding w => exact hk.asked h
      | gate | control => exact trivial
  | teardown v k => exact ⟨hk.session h.1, hk.reliesAfter h.2⟩
  | stopping v k =>
      obtain ⟨⟨x, hx, hasked⟩, hafter⟩ := h
      exact ⟨⟨x, hk.sessions v x hx, hk.asked hasked⟩, hk.reliesAfter hafter⟩
  | leaving v k => exact ⟨hk.session h.1, h.2⟩
  | _ => exact trivial

end Keeps

/-- A move keeps connections, and asks some to close. -/
theorem Effect.stopped (h : Effect env s t i q) {c : ℕ} {conn : Connection V}
    (hconn : s.connection? c = some conn) :
    ∃ conn', t.connection? c = some conn' ∧ (conn.stopped = true → conn'.stopped = true) := by
  have same {base : Client V K} (hq : Quiet base t) (hbase : base.connections = s.connections) :
      ∃ conn', t.connection? c = some conn' ∧ (conn.stopped = true → conn'.stopped = true) := by
    refine ⟨conn, ?_, id⟩
    rw [connection?, hq.connections, hbase]
    exact hconn
  have closed {base : Client V K} (hq : Quiet base t) (c' : ℕ)
      (hbase : base.connections = (s.closeConnection c').connections) :
      ∃ conn', t.connection? c = some conn' ∧ (conn.stopped = true → conn'.stopped = true) := by
    rw [connection?, hq.connections, hbase]
    rw [connection?] at hconn
    by_cases hc : c' = c
    · exact ⟨{ conn with stopped := true }, by simp [closeConnection, hc, hconn], fun _ => rfl⟩
    · exact ⟨conn, by simp [closeConnection, hc, hconn], id⟩
  cases h with
  | makes conn' hp hq hw hnew h =>
      refine ⟨conn, ?_, id⟩
      rw [connection?] at hconn
      rw [connection?, h.connections]
      exact List.getElem?_append_left (List.getElem?_eq_some_iff.mp hconn).1 ▸ hconn
  | rejects c' hp hq h => exact closed h.toQuiet c' rfl
  | shutsControl c' hp hq h => exact closed h.toQuiet c' rfl
  | binds call b cached conn' hp hq hconn' hlive hg h =>
      refine same h.toQuiet ?_
      unfold issued
      split <;> rfl
  | handles g r conn' event hi hp hconn' hevent hg h hq =>
      refine same h.toQuiet ?_
      unfold Client.relay forgetIntent
      split <;> rfl
  | calm h | exits _ _ _ _ _ _ h | locks _ _ _ h | reads _ _ _ _ _ _ h | starts _ _ _ _ _ _ _ _ h
  | skips _ _ _ _ _ _ _ _ _ h | passes _ _ _ _ _ _ _ _ h | takes _ _ _ _ _ _ _ _ _ _ _ _ h
  | installs _ _ _ _ _ _ _ _ _ _ h | installsFirst _ _ _ _ _ _ _ _ _ h
  | records _ _ _ _ _ _ _ _ h | leaves _ _ _ _ _ h | putsBack _ _ _ _ _ h | shuts _ _ h
  | shutsVoice _ _ h | clears _ _ _ h =>
      exact same h.toQuiet rfl

/-- **No action takes back what a task relies on.** -/
theorem keeps_step (hs : s.Sound) (h : s.step env a = some t) : Keeps s t where
  connections c conn hconn := by
    cases step_cases h with
    | call n c q result hp hm => exact hm.effect.stopped hconn
    | resume i input q hp hm => exact hm.effect.stopped hconn
    | install i input c' conn' hp hconn' hstopped ht => subst ht; exact ⟨conn, hconn, id⟩
    | abort i input hp ht => subst ht; exact ⟨conn, hconn, id⟩
    | engine c' input before next hbefore hstep ht =>
        subst ht
        rw [connection?] at hbefore hconn
        by_cases hc : c' = c
        · subst hc
          rw [hbefore] at hconn
          cases hconn
          have hlt : c' < s.connections.length := (List.getElem?_eq_some_iff.mp hbefore).1
          exact ⟨next, by simp [connection?, hlt], fun hstopped => by rw [stopped_step hstep, hstopped]⟩
        · exact ⟨conn, by rw [connection?, List.getElem?_set_ne hc, hconn], id⟩
    | close c' ht =>
        subst ht
        rw [connection?] at hconn
        by_cases hc : c' = c
        · exact ⟨{ conn with stopped := true }, by simp [connection?, closeConnection, hc, hconn],
            fun _ => rfl⟩
        · exact ⟨conn, by simp [connection?, closeConnection, hc, hconn], id⟩
    | worker w input worker next sealed keyCache hworker hstep ht => subst ht; exact ⟨conn, hconn, id⟩
  sessions v x hx := ((step_cases h).grows hs.connections).getElem?_sessions hx
  workers w worker hworker := by
    obtain ⟨worker', hworker', hasked | ⟨input, sealed, -, hstep⟩⟩ := step_worker h hworker
    · exact ⟨worker', hworker', fun hask => hask.asked hasked, fun hsome => by
        rw [hasked.started]; exact hsome⟩
    · refine ⟨worker', hworker', fun hask => hask.turn hstep, fun hsome => ?_⟩
      rcases (started_step hstep).2 with hsome' | ⟨-, heq⟩
      · exact hsome'
      · rw [heq]
        exact hsome

/-! ## What progress rests on -/

/-- The worker of a session has reported its start. -/
def Reported (s : Client V K) (x : Session) : Prop :=
  ∃ worker, s.workers[x.transport]? = some worker ∧ worker.started.isSome = true

/-- Everything that progress rests on. -/
structure Lively (s : Client V K) : Prop where
  sound : s.Sound
  /-- The holder of a teardown lock is closing its session. -/
  teardown : ∀ v i, s.teardownHolder v = some i → (s.tasks.pc i).closing? = some v
  /-- The holder of the shutdown gate is shutting down. -/
  shutdown : ∀ i, s.shutdownHolder = some i → (s.tasks.pc i).shuts = true
  relies : ∀ i, s.Relies i (s.tasks.pc i)
  voice : ∀ v, s.voice = some v → ∃ x, s.sessions[v]? = some x
  workers : ∀ (w : ℕ) (worker : Worker K), s.workers[w]? = some worker → Worker.InOrder worker
  reported : ∀ (v : ℕ) (x : Session), s.sessions[v]? = some x → s.Reported x

/-- A move of a task that takes and releases neither teardown nor shutdown locks and
starts nothing. -/
structure Plain (s t : Client V K) : Prop where
  teardown : t.teardownHolder = s.teardownHolder
  shutdown : t.shutdownHolder = s.shutdownHolder
  workers : t.workers = s.workers
  sessions : t.sessions = s.sessions
  voice : ∀ v, t.voice = some v → s.voice = some v ∨ ∃ x, s.sessions[v]? = some x

/-- What a move of task `i` does to everything that progress rests on. -/
structure Served (s t : Client V K) (i : Task) : Prop where
  relies : t.Relies i (t.tasks.pc i)
  less : (t.tasks.pc i).left < (s.tasks.pc i).left ∨ (s.tasks.pc i).reads = true ∨
    ∃ result, s.tasks.pc i = .returned result
  teardown : ∀ v j, t.teardownHolder v = some j →
    (j = i ∧ (t.tasks.pc i).closing? = some v) ∨
      (s.teardownHolder v = some j ∧ (j = i → (s.tasks.pc i).closing? ≠ some v))
  shutdown : ∀ j, t.shutdownHolder = some j → (j = i ∧ (t.tasks.pc i).shuts = true) ∨
    (s.shutdownHolder = some j ∧ (j = i → (s.tasks.pc i).shuts = false))
  voice : ∀ v, t.voice = some v → s.voice = some v ∨ ∃ x, t.sessions[v]? = some x
  workers : t.workers = s.workers ∨ (∃ codec, t.workers = s.workers ++ [Worker.new codec]) ∨
    ∃ w worker, s.workers[w]? = some worker ∧ worker.started.isSome = true ∧
      t.workers = s.workers.modify w fun worker => worker.requestTermination .close
  sessions : t.sessions = s.sessions ∨ ∃ x, s.Reported x ∧ t.sessions = s.sessions ++ [x]

namespace Plain

theorem refl (s : Client V K) : Plain s s := ⟨rfl, rfl, rfl, rfl, fun _ => .inl⟩

theorem goto (h : Plain s u) : Plain s (u.goto i q) :=
  ⟨h.teardown, h.shutdown, h.workers, h.sessions, h.voice⟩

theorem release (h : Plain s u) : Plain s (u.release i q) :=
  ⟨h.teardown, h.shutdown, h.workers, h.sessions, h.voice⟩

theorem acquire (h : Plain s u) (ha : u.acquire i q = some t) : Plain s t := by
  obtain ⟨tasks, -, rfl⟩ := Option.map_eq_some_iff.mp ha
  exact ⟨h.teardown, h.shutdown, h.workers, h.sessions, h.voice⟩

theorem failJoin (h : Plain s u) (call : JoinCall V) (e : SdkError) :
    Plain s (u.failJoin i call e) := by
  unfold Client.failJoin
  split
  · exact h.release
  · exact ⟨h.teardown, h.shutdown, h.workers, h.sessions, h.voice⟩

theorem recordJoin (s : Client V K) (i : Task) (call : JoinCall V) (v : ℕ) (x : Session)
    (reuse : Option SessionKey) : Plain s (s.recordJoin i call v x reuse) := by
  unfold Client.recordJoin
  dsimp only
  split
  · exact ⟨rfl, rfl, rfl, rfl, fun _ => .inl⟩
  · exact ⟨rfl, rfl, rfl, rfl, fun _ => .inl⟩

/-- A leave that fails puts its session back. -/
theorem finishLeave (s : Client V K) (i : Task) (v : ℕ) (viaClient : Bool)
    (result : Except SdkError Unit) (hv : ∃ x, s.sessions[v]? = some x) :
    Plain s (s.finishLeave i v viaClient result) := by
  unfold Client.finishLeave
  cases viaClient with
  | false => exact ⟨rfl, rfl, rfl, rfl, fun _ => .inl⟩
  | true =>
      cases result with
      | ok _ => exact ⟨rfl, rfl, rfl, rfl, fun _ => .inl⟩
      | error e =>
          refine ⟨rfl, rfl, rfl, rfl, fun w hw => ?_⟩
          obtain rfl : v = w := Option.some.inj hw
          exact .inr hv

theorem clearSessionIntent (s : Client V K) (x : Session) : Plain s (s.clearSessionIntent x) := by
  unfold Client.clearSessionIntent
  split
  · exact ⟨rfl, rfl, rfl, rfl, fun _ => .inl⟩
  · exact .refl s

theorem trans (h : Plain s t) (h' : Plain t u) : Plain s u := by
  refine ⟨h'.teardown.trans h.teardown, h'.shutdown.trans h.shutdown, h'.workers.trans h.workers,
    h'.sessions.trans h.sessions, fun v hv => ?_⟩
  rcases h'.voice v hv with hv | hx
  · exact h.voice v hv
  · exact .inr (h.sessions ▸ hx)

end Plain

/-- A task that shuts down keeps the shutdown gate. -/
theorem shutdown_kept (hp : s.tasks.pc i = p) (hq : t.tasks.pc i = q)
    (h : t.shutdownHolder = s.shutdownHolder) (hshuts : p.shuts = true → q.shuts = true)
    (hj : t.shutdownHolder = some j) : (j = i ∧ (t.tasks.pc i).shuts = true) ∨
      (s.shutdownHolder = some j ∧ (j = i → (s.tasks.pc i).shuts = false)) := by
  cases hs : p.shuts with
  | true =>
      by_cases hji : j = i
      · exact .inl ⟨hji, by rw [hq]; exact hshuts hs⟩
      · exact .inr ⟨h ▸ hj, fun heq => absurd heq hji⟩
  | false => exact .inr ⟨h ▸ hj, fun _ => by rw [hp, hs]⟩

/-- A plain move. -/
theorem Served.of_plain (hp : s.tasks.pc i = p) (hq : t.tasks.pc i = q) (h : Plain s t)
    (hclosing : p.closing? = none) (hshuts : p.shuts = true → q.shuts = true)
    (hrelies : t.Relies i q)
    (hless : q.left < p.left ∨ p.reads = true ∨ ∃ result, p = .returned result) :
    Served s t i where
  relies := hq ▸ hrelies
  less := by rw [hp, hq]; exact hless
  teardown v j hj := .inr ⟨h.teardown ▸ hj, fun _ => by rw [hp, hclosing]; simp⟩
  shutdown j hj := shutdown_kept hp hq h.shutdown hshuts hj
  voice v hv := by
    rcases h.voice v hv with hv | hx
    · exact .inl hv
    · exact .inr (h.sessions ▸ hx)
  workers := .inl h.workers
  sessions := .inl h.sessions

/-- A task that rests relies on nothing. -/
theorem relies_of_rests (h : p.rests = true) : s.Relies i p := by
  cases p with
  | returned | relayTop | relayReceive => exact trivial
  | _ => cases h

/-- A move that ends an operation or brings a relay back into its loop. -/
theorem Served.of_rest (hp : s.tasks.pc i = p) (hq : (t.tasks.pc i).rests = true) (h : Plain s t)
    (hclosing : p.closing? = none) (hshuts : p.shuts = false) (hless : 0 < p.left) :
    Served s t i := by
  refine .of_plain hp rfl h hclosing (fun hs => ?_) (relies_of_rests hq)
    (.inl (by rw [Pc.left_eq_zero_of_rests hq]; exact hless))
  rw [hshuts] at hs
  cases hs

theorem rests_failJoin (s : Client V K) (i : Task) (call : JoinCall V) (e : SdkError) :
    ((s.failJoin i call e).tasks.pc i).rests = true := by
  rcases failJoin_pc s i call e with h | ⟨r, h⟩ <;> rw [h] <;> rfl

theorem rests_recordJoin (s : Client V K) (i : Task) (call : JoinCall V) (v : ℕ) (x : Session)
    (reuse : Option SessionKey) :
    ((s.recordJoin i call v x reuse).tasks.pc i).rests = true := by
  rcases recordJoin_pc s i call v x reuse with
    h | ⟨r, h⟩ <;> rw [h] <;> rfl

/-! ### A join -/

/-- A join that fails. -/
theorem served_failJoin {call call' : JoinCall V} {stage : JoinPc}
    (hp : s.tasks.pc i = .join call' stage) (h : Plain s u) (e : SdkError) :
    Served s (u.failJoin i call e) i := by
  refine .of_rest hp (rests_failJoin u i call e) (h.failJoin call e) rfl rfl ?_
  cases stage <;> simp [Pc.left]

theorem served_joinGate {call : JoinCall V} (hp : s.tasks.pc i = .join call .gate)
    (h : s.joinGate i call = some t) : Served s t i := by
  obtain ⟨u, hu, rfl⟩ := Option.map_eq_some_iff.mp h
  split
  · exact served_failJoin hp ((Plain.refl s).acquire hu) _
  · refine .of_plain hp (acquire_pc hu) ((Plain.refl s).acquire hu) rfl (fun hs => ?_) trivial
      (.inl (by simp [Pc.left]))
    cases hs

theorem served_joinControl {call : JoinCall V} (H : s.Lively)
    (hp : s.tasks.pc i = .join call .control) (h : s.joinControl i call = some t) :
    Served s t i := by
  cases joinControl_cases h with
  | fails e => exact served_failJoin hp (.refl s) e
  | reads c hc hfree =>
      refine .of_plain hp (Gate.Tasks.pc_goto_self ..) (Plain.refl s).goto rfl
        (fun hs => by cases hs) ?_ (.inl (by simp [Pc.left]))
      have hlast := H.sound.control.current c hc
      exact H.sound.control.valid c (List.mem_of_getLast? hlast)

theorem served_joinDiscovered {call : JoinCall V} {c : ℕ} {cached : Option Metadata}
    {result : Except SdkError Metadata} (hp : s.tasks.pc i = .join call (.discovering c cached))
    (h : s.joinDiscovered i call c cached result = some t) : Served s t i := by
  cases joinDiscovered_cases h with
  | fails e metadata =>
      have hplain : Plain s { s with metadata := metadata } := ⟨rfl, rfl, rfl, rfl, fun _ => .inl⟩
      exact served_failJoin hp hplain e
  | binds conn metadata codec controlId hconn hlive hid =>
      obtain ⟨caller, channelId, request⟩ := call
      have hbound : ∃ conn, s.connection? c = some conn := ⟨conn, hconn⟩
      cases caller with
      | host =>
          exact .of_plain hp (Gate.Tasks.pc_goto_self ..) ⟨rfl, rfl, rfl, rfl, fun _ => .inl⟩ rfl
            (fun hs => by cases hs) hbound (.inl (by simp [Pc.left]))
      | relay r session since =>
          exact .of_plain hp (Gate.Tasks.pc_goto_self ..) ⟨rfl, rfl, rfl, rfl, fun _ => .inl⟩ rfl
            (fun hs => by cases hs) hbound (.inl (by simp [Pc.left]))

theorem served_joinResponded {call : JoinCall V} {b : Binding}
    {result : Except Http.HttpError VoiceJoinResponse} (H : s.Lively)
    (hp : s.tasks.pc i = .join call (.requesting b)) :
    Served s (s.joinResponded env i call b result) i := by
  have hbound := H.relies i
  rw [hp] at hbound
  generalize ht : s.joinResponded env i call b result = t
  cases joinResponded_cases ht with
  | fails e => exact served_failJoin hp (.refl s) e
  | configures response config reuse hresult hconfig =>
      exact .of_plain hp (Gate.Tasks.pc_goto_self ..) (Plain.refl s).goto rfl
        (fun hs => by cases hs) hbound (.inl (by simp [Pc.left]))

theorem served_joinConnected {call : JoinCall V} {b : Binding} {config : VoiceSessionConfig}
    {reuse : Option SessionKey} {result : Except VoiceError Unit} (H : s.Lively)
    (hp : s.tasks.pc i = .join call (.connecting b config reuse)) :
    Served s (s.joinConnected env i call b config reuse result) i := by
  have hbound := H.relies i
  rw [hp] at hbound
  generalize ht : s.joinConnected env i call b config reuse result = t
  cases joinConnected_cases ht with
  | fails e _ => exact served_failJoin hp (.refl s) _
  | rejects cache e _ _ =>
      have hplain : Plain s { s with keyCache := cache } := ⟨rfl, rfl, rfl, rfl, fun _ => .inl⟩
      exact served_failJoin hp hplain _
  | starts cache codec _ _ =>
      have hq : ({ s with keyCache := cache, workers := s.workers ++ [Worker.new codec] }.goto i
          (.join call (.starting b s.workers.length reuse))).tasks.pc i =
            .join call (.starting b s.workers.length reuse) := Gate.Tasks.pc_goto_self ..
      refine ⟨?_, .inl (by rw [hp, hq]; simp [Pc.left]), ?_, ?_, fun v hv => .inl hv,
        .inr (.inl ⟨codec, rfl⟩), .inl rfl⟩
      · rw [hq]
        exact ⟨hbound, Worker.new codec, List.getElem?_concat_length⟩
      · exact fun v j hj => .inr ⟨hj, fun _ => by rw [hp]; simp [Pc.closing?]⟩
      · exact fun j hj => shutdown_kept hp hq rfl (fun hs => by cases hs) hj

/-- Whoever goes on from a start has seen its report. -/
theorem joinStarted_reports {call : JoinCall V} {b : Binding} {w : ℕ} {reuse : Option SessionKey}
    (h : s.joinStarted i call b w reuse = some t) :
    ∃ worker, s.workers[w]? = some worker ∧ worker.started.isSome = true := by
  unfold joinStarted at h
  split at h
  case h_2 => cases h
  case h_1 conn worker hconn hworker =>
    refine ⟨worker, hworker, ?_⟩
    cases hstarted : worker.started with
    | none => simp [hstarted] at h
    | some result => rfl

/-- A join installs its session. -/
theorem served_install {call : JoinCall V} {b : Binding} {w : ℕ} {reuse : Option SessionKey}
    {conn : Connection V} {x : Session} (hp : s.tasks.pc i = .join call (.starting b w reuse))
    (hx : s.Installs call b w conn x)
    (hreports : ∃ worker, s.workers[w]? = some worker ∧ worker.started.isSome = true)
    (hq : t.tasks.pc i = q) (hteardown : t.teardownHolder = s.teardownHolder)
    (hshutdown : t.shutdownHolder = s.shutdownHolder) (hworkers : t.workers = s.workers)
    (hsessions : t.sessions = s.sessions ++ [x]) (hvoice : t.voice = some s.sessions.length)
    (hrelies : t.Relies i q) (hless : q.left < 4) : Served s t i where
  relies := hq ▸ hrelies
  less := .inl (by rw [hp, hq]; exact hless)
  teardown v j hj := .inr ⟨hteardown ▸ hj, fun _ => by rw [hp]; simp [Pc.closing?]⟩
  shutdown j hj := shutdown_kept hp hq hshutdown (fun hs => by cases hs) hj
  voice v hv := by
    rw [hvoice] at hv
    cases hv
    exact .inr ⟨x, by rw [hsessions]; exact List.getElem?_concat_length⟩
  workers := .inl hworkers
  sessions := .inr ⟨x, by rw [Reported, hx.transport]; exact hreports, hsessions⟩

theorem served_joinStarted {call : JoinCall V} {b : Binding} {w : ℕ} {reuse : Option SessionKey}
    (H : s.Lively) (hp : s.tasks.pc i = .join call (.starting b w reuse))
    (h : s.joinStarted i call b w reuse = some t) : Served s t i := by
  obtain ⟨worker, hworker, hstarted⟩ := joinStarted_reports h
  cases joinStarted_cases h with
  | fails worker e hworker hstarted => exact served_failJoin hp (.refl s) _
  | discards =>
      have hq : ((s.closeWorker w).goto i (.join call (.discarding w))).tasks.pc i =
          .join call (.discarding w) := Gate.Tasks.pc_goto_self ..
      refine ⟨?_, .inl (by rw [hp, hq]; simp [Pc.left]), ?_, ?_, fun v hv => .inl hv,
        .inr (.inr ⟨w, worker, hworker, hstarted, rfl⟩), .inl rfl⟩
      · rw [hq]
        exact ⟨worker.requestTermination .close, by simp [closeWorker, goto, hworker],
          isAsked_requestTermination worker⟩
      · exact fun v j hj => .inr ⟨hj, fun _ => by rw [hp]; simp [Pc.closing?]⟩
      · exact fun j hj => shutdown_kept hp hq rfl (fun hs => by cases hs) hj
  | records conn x hx hvoice =>
      have hplain := Plain.recordJoin (s.install x) i call s.sessions.length x reuse
      have hrests := rests_recordJoin (s.install x) i call s.sessions.length x reuse
      exact served_install hp hx ⟨worker, hworker, hstarted⟩ rfl hplain.teardown hplain.shutdown
        hplain.workers hplain.sessions (recordJoin_voice ..) (relies_of_rests hrests)
        (by rw [Pc.left_eq_zero_of_rests hrests]; omega)
  | replaces conn x previous hx hvoice =>
      obtain ⟨y, hy⟩ := H.voice previous hvoice
      refine served_install hp hx ⟨worker, hworker, hstarted⟩ (Gate.Tasks.pc_goto_self ..) rfl rfl
        rfl rfl rfl ⟨⟨y, ?_⟩, x, List.getElem?_concat_length⟩ (by simp [Pc.left, After.left])
      exact List.getElem?_append_left (List.getElem?_eq_some_iff.mp hy).1 ▸ hy

theorem served_joinDiscarded {call : JoinCall V} {w : ℕ}
    (hp : s.tasks.pc i = .join call (.discarding w)) (h : s.joinDiscarded i call w = some t) :
    Served s t i := by
  obtain ⟨worker, e, -, -, rfl⟩ := joinDiscarded_cases h
  exact served_failJoin hp (.refl s) e

/-! ### A close -/

theorem served_lockTeardown {session : ℕ} {k : After V} (H : s.Lively)
    (hp : s.tasks.pc i = .teardown session k) (h : s.lockTeardown i session k = some t) :
    Served s t i := by
  have hrelies := H.relies i
  rw [hp] at hrelies
  cases lockTeardown_cases h with
  | finds viaClient hk _ =>
      subst hk
      have hq := finishLeave_pc s i session viaClient (.ok ())
      exact .of_rest hp (by rw [hq]; rfl) (.finishLeave s i session viaClient _ hrelies.1) rfl rfl
        (by simp [Pc.left])
  | stops x hx _ =>
      obtain ⟨worker, hworker, hstarted⟩ := H.reported session x hx
      generalize ht : ({ s with teardownHolder := Function.update s.teardownHolder session (some i)
        }.closeWorker x.transport).goto i (.stopping session k) = t
      have hq : t.tasks.pc i = .stopping session k := by
        rw [← ht]
        exact Gate.Tasks.pc_goto_self ..
      have hworkers : t.workers =
          s.workers.modify x.transport fun worker => worker.requestTermination .close := by
        rw [← ht]
        rfl
      have hsessions : t.sessions = s.sessions := by rw [← ht]; rfl
      refine ⟨?_, .inl (by rw [hp, hq]; simp [Pc.left]), fun v j hj => ?_, fun j hj => ?_,
        fun v hv => .inl ?_, .inr (.inr ⟨x.transport, worker, hworker, hstarted, hworkers⟩),
        .inl hsessions⟩
      · rw [hq]
        refine ⟨⟨x, by rw [hsessions, hx], worker.requestTermination .close, ?_,
          isAsked_requestTermination worker⟩, ?_⟩
        · rw [hworkers]
          simp [hworker]
        · cases k with
          | join call next reuse =>
              show ∃ y, t.sessions[next]? = some y
              rw [hsessions]
              exact hrelies.2
          | relay | leave | close | shutdown => exact trivial
      · have hj' : Function.update s.teardownHolder session (some i) v = some j := by
          rw [← hj, ← ht]
          rfl
        by_cases hv : v = session
        · subst hv
          rw [Function.update_self] at hj'
          cases hj'
          exact .inl ⟨rfl, by rw [hq]; rfl⟩
        · rw [Function.update_of_ne hv] at hj'
          exact .inr ⟨hj', fun _ => by rw [hp]; simp [Pc.closing?]⟩
      · refine shutdown_kept hp hq (by rw [← ht]; rfl) (fun hs => ?_) hj
        cases k <;> exact hs
      · rw [← hv, ← ht]
        rfl

/-- A task gives the teardown lock of its session back and rests or goes on. -/
theorem served_unlock {session : ℕ} (hp : s.tasks.pc i = p) (hclosing : p.closing? = some session)
    (hq : t.tasks.pc i = q) (hu : Plain (s.unlockTeardown session) t)
    (hshuts : p.shuts = true → q.shuts = true) (hrelies : t.Relies i q) (hless : q.left < p.left) :
    Served s t i where
  relies := hq ▸ hrelies
  less := .inl (by rw [hp, hq]; exact hless)
  teardown v j hj := by
    rw [hu.teardown] at hj
    have hj' : Function.update s.teardownHolder session none v = some j := hj
    by_cases hv : v = session
    · subst hv
      rw [Function.update_self] at hj'
      cases hj'
    · rw [Function.update_of_ne hv] at hj'
      refine .inr ⟨hj', fun _ => ?_⟩
      rw [hp, hclosing]
      exact fun heq => hv (Option.some.inj heq).symm
  shutdown j hj := shutdown_kept hp hq hu.shutdown hshuts hj
  voice v hv := by
    rcases hu.voice v hv with hv | hx
    · exact .inl hv
    · exact .inr (by rw [hu.sessions]; exact hx)
  workers := .inl hu.workers
  sessions := .inl hu.sessions

theorem served_transportStopped {session : ℕ} {k : After V} (H : s.Lively)
    (hp : s.tasks.pc i = .stopping session k) (h : s.transportStopped i session k = some t) :
    Served s t i := by
  obtain ⟨x, hx, -, hclosed⟩ := transportStopped_cases h
  -- the key of the session is forgotten first
  have hunlocked : Plain (s.unlockTeardown session)
      ({ s with keyCache := s.keyCache.remove x.sessionId }.unlockTeardown session) :=
    ⟨rfl, rfl, rfl, rfl, fun _ => .inl⟩
  have rests {t : Client V K} (hplain : Plain (s.unlockTeardown session) t)
      (hrests : (t.tasks.pc i).rests = true) (hk : (Pc.stopping session k).shuts = false) :
      Served s t i := by
    refine served_unlock hp rfl rfl hplain (fun hs => ?_) (relies_of_rests hrests) ?_
    · rw [hk] at hs
      cases hs
    · rw [Pc.left_eq_zero_of_rests hrests]
      simp [Pc.left]
  cases hclosed with
  | records call next reuse y hk hy =>
      subst hk
      exact rests (hunlocked.trans (.recordJoin ..)) (rests_recordJoin ..) rfl
  | relays r hk =>
      subst hk
      exact rests hunlocked.release (by simp [Client.release, Pc.rests]) rfl
  | closes hk =>
      subst hk
      exact rests hunlocked.goto (by simp [Client.goto, Pc.rests]) rfl
  | shuts hk =>
      subst hk
      exact served_unlock hp rfl (Gate.Tasks.pc_release_self ..) hunlocked.release (fun _ => rfl)
        trivial (by simp [Pc.left, After.left])
  | fails viaClient hk =>
      subst hk
      exact rests (hunlocked.trans (.finishLeave _ _ _ _ _ ⟨x, hx⟩))
        (by rw [finishLeave_pc]; rfl) rfl
  | leaves viaClient hk =>
      subst hk
      generalize ht : ({ s with keyCache := s.keyCache.remove x.sessionId }.goto i
        (.leaving session (.leave viaClient)) : Client V K) = t
      have hq : t.tasks.pc i = .leaving session (.leave viaClient) := by
        rw [← ht]
        exact Gate.Tasks.pc_goto_self ..
      have hplain : Plain s t := by
        rw [← ht]
        exact ⟨rfl, rfl, rfl, rfl, fun _ => .inl⟩
      refine ⟨?_, .inl (by rw [hp, hq]; simp [Pc.left, After.left]), fun v j hj => ?_,
        fun j hj => shutdown_kept hp hq hplain.shutdown (fun hs => by cases hs) hj,
        fun v hv => ?_, .inl hplain.workers, .inl hplain.sessions⟩
      · rw [hq]
        exact ⟨⟨x, by rw [hplain.sessions, hx]⟩, viaClient, rfl⟩
      · rw [hplain.teardown] at hj
        by_cases hji : j = i
        · subst hji
          have hholds := H.teardown v j hj
          rw [hp] at hholds
          exact .inl ⟨rfl, by rw [hq]; exact hholds⟩
        · exact .inr ⟨hj, fun heq => absurd heq hji⟩
      · rcases hplain.voice v hv with hv | hx
        · exact .inl hv
        · exact .inr (by rw [hplain.sessions]; exact hx)

theorem served_leaveResponded {session : ℕ} {k : After V} {result : Except Http.HttpError Unit}
    (H : s.Lively) (hp : s.tasks.pc i = .leaving session k)
    (h : s.leaveResponded i session k result = some t) : Served s t i := by
  have hrelies := H.relies i
  rw [hp] at hrelies
  have rests {u : Client V K} {viaClient : Bool} {result : Except SdkError Unit}
      (hk : k = .leave viaClient) (hplain : Plain (s.unlockTeardown session) u) :
      Served s (u.finishLeave i session viaClient result) i := by
    have hq := finishLeave_pc u i session viaClient result
    subst hk
    refine served_unlock hp rfl hq (hplain.trans (.finishLeave _ _ _ _ _ ?_))
      (fun hs => by cases hs) trivial (by simp [Pc.left])
    rw [hplain.sessions]
    exact hrelies.1
  cases leaveResponded_cases h with
  | leaves viaClient hk => exact rests hk ⟨rfl, rfl, rfl, rfl, fun _ => .inl⟩
  | fails viaClient e hk => exact rests hk (.refl _)

theorem served_leaveCurrent (hp : s.tasks.pc i = .leaveGate)
    (h : s.leaveCurrent i = some t) : Served s t i := by
  unfold leaveCurrent at h
  split at h
  · cases h
  · cases h
    exact .of_rest hp (by simp [Client.goto, Pc.rests]) (Plain.refl s).goto rfl rfl
      (by simp [Pc.left])
  case h_3 session _ hvoice =>
    split at h
    · cases h
    case h_2 x hx =>
      have hvoiceless : Plain s { s with voice := none } :=
        ⟨rfl, rfl, rfl, rfl, fun _ hv => by cases hv⟩
      have hplain := (hvoiceless.trans (.clearSessionIntent _ x)).acquire h
      refine .of_plain hp (acquire_pc h) hplain rfl (fun hs => by cases hs) ⟨⟨x, ?_⟩, trivial⟩
        (.inl (by simp [Pc.left, After.left]))
      rw [hplain.sessions, hx]

/-! ### The event relay -/

/-- A relay that handles an event takes no lock yet. -/
theorem plain_handleEvent (s : Client V K) (i : Task) (g : ℕ) (r : Relay)
    (event : ClientEvent V) :
    Plain s (s.handleEvent i g r event) ∧
      ∀ t : Client V K, t.Relies i ((s.handleEvent i g r event).tasks.pc i) := by
  have hforget : Plain s (s.forgetIntent r event) := by
    unfold forgetIntent
    split
    · exact ⟨rfl, rfl, rfl, rfl, fun _ => .inl⟩
    · exact .refl s
  unfold handleEvent
  dsimp only
  split
  · exact ⟨(Plain.refl s).goto, fun t => by simp [Client.goto, Relies]⟩
  · split
    · exact ⟨⟨hforget.teardown, hforget.shutdown, hforget.workers, hforget.sessions,
        hforget.voice⟩, fun t => by simp [Client.goto, Relies]⟩
    · split
      · unfold rejoinVoiceIfConfigured
        split
        · split
          · exact ⟨⟨hforget.teardown, hforget.shutdown, hforget.workers, hforget.sessions,
              hforget.voice⟩, fun t => by simp [Client.goto, Relies]⟩
          · exact ⟨⟨hforget.teardown, hforget.shutdown, hforget.workers, hforget.sessions,
              hforget.voice⟩, fun t => by simp [Client.goto, Relies]⟩
        · exact ⟨⟨hforget.teardown, hforget.shutdown, hforget.workers, hforget.sessions,
            hforget.voice⟩, fun t => by simp [Client.goto, Relies]⟩
      · exact ⟨⟨hforget.teardown, hforget.shutdown, hforget.workers, hforget.sessions,
          hforget.voice⟩, fun t => by simp [Client.goto, Relies]⟩

theorem served_relayReceive {g : ℕ} {r : Relay} (hp : s.tasks.pc i = .relayReceive r)
    (h : s.relayReceive i g r = some t) : Served s t i := by
  unfold relayReceive at h
  split at h
  · cases h
  · split at h
    · cases h
    · cases h
      exact .of_plain hp (Gate.Tasks.pc_goto_self ..) (Plain.refl s).goto rfl
        (fun hs => by cases hs) trivial (.inr (.inl rfl))
    · cases h
      obtain ⟨hplain, hrelies⟩ := plain_handleEvent s i g r _
      exact .of_plain hp rfl hplain rfl (fun hs => by cases hs) (hrelies _) (.inr (.inl rfl))

theorem served_stopVoiceTransport {g : ℕ} {r : Relay} {event : ClientEvent V}
    (hp : s.tasks.pc i = .relayStop r event) (h : s.stopVoiceTransport i g r event = some t) :
    Served s t i := by
  unfold stopVoiceTransport at h
  split at h
  · cases h
  · have rests : Served s (s.goto i (.relayTop r)) i :=
      .of_rest hp (by simp [Client.goto, Pc.rests]) (Plain.refl s).goto rfl rfl (by simp [Pc.left])
    split at h
    case h_1 session x hvoice hx =>
      split at h
      · have hvoiceless : Plain s (s.stop r event session) :=
          ⟨rfl, rfl, rfl, rfl, fun _ hv => by cases hv⟩
        have hplain := hvoiceless.acquire h
        refine .of_plain hp (acquire_pc h) hplain rfl (fun hs => by cases hs) ⟨⟨x, ?_⟩, trivial⟩
          (.inl (by simp [Pc.left, After.left]))
        rw [hplain.sessions]
        simpa [hvoice] using hx
      · cases h
        exact rests
    · cases h
      exact rests

/-! ### Connecting and shutting down -/

theorem closing_closeConnection {c : ℕ} (hc : ∃ conn, s.connection? c = some conn) :
    (s.closeConnection c).IsClosing c := by
  obtain ⟨conn, hconn⟩ := hc
  rw [connection?] at hconn
  exact ⟨{ conn with stopped := true }, by simp [connection?, closeConnection, hconn], rfl⟩

theorem served_connectLocked (hp : s.tasks.pc i = .connectLock)
    (h : s.connectLocked i = some t) : Served s t i := by
  unfold connectLocked at h
  split at h
  · cases h
  · split at h
    · cases h
      exact .of_rest hp (by simp [Client.goto, Pc.rests]) (Plain.refl s).goto rfl rfl
        (by simp [Pc.left])
    · cases h
      exact .of_plain hp (Gate.Tasks.pc_goto_self ..) ⟨rfl, rfl, rfl, rfl, fun _ => .inl⟩ rfl
        (fun hs => by cases hs) trivial (.inl (by simp [Pc.left]))

theorem served_connectReady {result : Except RealtimeError StateSnapshot}
    (hp : s.tasks.pc i = .connectSnapshot) : Served s (s.connectReady i result) i := by
  unfold connectReady
  split
  · exact .of_rest hp (by simp [Client.goto, Pc.rests]) ⟨rfl, rfl, rfl, rfl, fun _ => .inl⟩ rfl rfl
      (by simp [Pc.left])
  case h_2 snapshot =>
    exact .of_plain hp (Gate.Tasks.pc_goto_self ..) ⟨rfl, rfl, rfl, rfl, fun _ => .inl⟩ rfl
      (fun hs => by cases hs) ⟨.new snapshot s.policy, List.getElem?_concat_length⟩
      (.inl (by simp [Pc.left]))

theorem served_connectInstall {c : ℕ} (hp : s.tasks.pc i = .connectInstall c)
    (h : s.connectInstall i c = some t) : Served s t i := by
  unfold connectInstall at h
  split at h
  · cases h
  case h_2 conn hconn =>
    split at h
    · cases h
      exact .of_plain hp (Gate.Tasks.pc_goto_self ..) ⟨rfl, rfl, rfl, rfl, fun _ => .inl⟩ rfl
        (fun hs => by cases hs) (closing_closeConnection ⟨conn, hconn⟩) (.inl (by simp [Pc.left]))
    · cases h
      exact .of_rest hp (by simp [Client.goto, Pc.rests]) ⟨rfl, rfl, rfl, rfl, fun _ => .inl⟩ rfl
        rfl (by simp [Pc.left])

theorem served_discovered {result : Except SdkError Metadata}
    (hp : s.tasks.pc i = .discovering) : Served s (s.discovered i result) i := by
  unfold discovered
  split <;> exact .of_rest hp (by simp [Client.goto, Pc.rests])
    ⟨rfl, rfl, rfl, rfl, fun _ => .inl⟩ rfl rfl (by simp [Pc.left])

theorem served_shutdownVoice (H : s.Lively) (hp : s.tasks.pc i = .shutdownGate)
    (h : s.shutdownVoice i = some t) : Served s t i := by
  cases shutdownVoice_cases h with
  | finds _ _ =>
      exact .of_plain hp (Gate.Tasks.pc_goto_self ..) (Plain.refl s).goto rfl (fun _ => rfl)
        trivial (.inl (by simp [Pc.left]))
  | takes session _ hvoice h =>
      obtain ⟨x, hx⟩ := H.voice session hvoice
      have hvoiceless : Plain s { s with voice := none } :=
        ⟨rfl, rfl, rfl, rfl, fun _ hv => by cases hv⟩
      have hplain := hvoiceless.acquire h
      exact .of_plain hp (acquire_pc h) hplain rfl (fun _ => rfl)
        ⟨⟨x, by rw [hplain.sessions, hx]⟩, trivial⟩ (.inl (by simp [Pc.left, After.left]))

theorem served_shutdownConnection (H : s.Lively) (hp : s.tasks.pc i = .shutdownControl)
    (h : s.shutdownConnection i = some t) : Served s t i := by
  cases shutdownConnection_cases h with
  | clears _ _ =>
      exact .of_plain hp (Gate.Tasks.pc_goto_self ..) ⟨rfl, rfl, rfl, rfl, fun _ => .inl⟩ rfl
        (fun _ => rfl) trivial (.inl (by simp [Pc.left]))
  | closes c _ hcontrol =>
      have hlast := H.sound.control.current c hcontrol
      have hvalid := H.sound.control.valid c (List.mem_of_getLast? hlast)
      have hclosing : ({ s with control := none, controlHolder := some i }.closeConnection
          c).IsClosing c := closing_closeConnection hvalid
      exact .of_plain hp (Gate.Tasks.pc_goto_self ..) ⟨rfl, rfl, rfl, rfl, fun _ => .inl⟩ rfl
        (fun _ => rfl) hclosing (.inl (by simp [Pc.left]))

theorem served_shutdownFinish (hp : s.tasks.pc i = .shutdownAborting) :
    Served s (s.shutdownFinish i) i where
  relies := by simp [shutdownFinish, Client.goto, Relies]
  less := .inl (by rw [hp]; simp [shutdownFinish, Client.goto, Pc.left])
  teardown v j hj := by
    refine .inr ⟨?_, fun _ => by rw [hp]; simp [Pc.closing?]⟩
    simp only [shutdownFinish, Client.goto] at hj
    split at hj
    · cases hj
    · exact hj
  shutdown j hj := by cases hj
  voice v hv := .inl hv
  workers := .inl rfl
  sessions := .inl rfl

/-! ### Every move -/

theorem served_resumeJoin {call : JoinCall V} {stage : JoinPc} {input : Input} (H : s.Lively)
    (hp : s.tasks.pc i = .join call stage) (h : s.resumeJoin env i call stage input = some t) :
    Served s t i := by
  unfold resumeJoin at h
  split at h
  · exact served_joinGate hp h
  · exact served_joinControl H hp h
  · exact served_joinDiscovered hp h
  · cases h; exact served_joinResponded H hp
  · cases h; exact served_joinConnected H hp
  · exact served_joinStarted H hp h
  · exact served_joinDiscarded hp h
  · cases h

/-- **What a move of a task does** to everything that progress rests on. -/
theorem served_resume {input : Input} (H : s.Lively) (h : s.resume env i input = some t) :
    Served s t i := by
  unfold resume at h
  split at h
  case h_1 hp => exact served_connectLocked hp h
  case h_2 hp => cases h; exact served_connectReady hp
  case h_3 hp => exact served_connectInstall hp h
  case h_4 hp =>
    obtain ⟨-, h⟩ := Option.ite_none_right_eq_some.mp h
    cases h
    exact .of_rest hp (by simp [Client.goto, Pc.rests]) ⟨rfl, rfl, rfl, rfl, fun _ => .inl⟩ rfl rfl
      (by simp [Pc.left])
  case h_5 hp => cases h; exact served_discovered hp
  case h_6 r hp =>
    cases i with
    | host n => cases h
    | relay g =>
        dsimp only at h
        split at h
        · cases h
          exact .of_plain hp (Gate.Tasks.pc_goto_self ..) (Plain.refl s).goto rfl
            (fun hs => by cases hs) ⟨g, rfl⟩ (.inr (.inl rfl))
        · cases h
          exact .of_plain hp (Gate.Tasks.pc_goto_self ..) (Plain.refl s).goto rfl
            (fun hs => by cases hs) trivial (.inr (.inl rfl))
  case h_7 r hp =>
    cases i with
    | host n => cases h
    | relay g => exact served_relayReceive hp h
  case h_8 r event hp =>
    cases i with
    | host n => cases h
    | relay g => exact served_stopVoiceTransport hp h
  case h_9 call stage hp => exact served_resumeJoin H hp h
  case h_10 hp => exact served_leaveCurrent hp h
  case h_11 session k hp => exact served_lockTeardown H hp h
  case h_12 session k hp => exact served_transportStopped H hp h
  case h_13 session k result hp => exact served_leaveResponded H hp h
  case h_14 hp =>
    split at h
    · cases h
    · split at h
      · cases h
        exact .of_rest hp (by simp [Client.goto, Pc.rests]) (Plain.refl s).goto rfl rfl
          (by simp [Pc.left])
      · cases h
        refine ⟨by simp [Client.goto, Relies], .inl (by rw [hp]; simp [Client.goto, Pc.left]),
          fun v j hj => .inr ⟨hj, fun _ => by rw [hp]; simp [Pc.closing?]⟩, fun j hj => ?_,
          fun v hv => .inl hv, .inl rfl, .inl rfl⟩
        have hij : some i = some j := hj
        cases hij
        exact .inl ⟨rfl, by simp [Client.goto, Pc.shuts]⟩
  case h_15 hp => exact served_shutdownVoice H hp h
  case h_16 hp => exact served_shutdownConnection H hp h
  case h_17 c hp =>
    obtain ⟨-, h⟩ := Option.ite_none_right_eq_some.mp h
    cases h
    exact .of_plain hp (Gate.Tasks.pc_goto_self ..) ⟨rfl, rfl, rfl, rfl, fun _ => .inl⟩ rfl
      (fun _ => rfl) trivial (.inl (by simp [Pc.left]))
  case h_18 hp => cases h; exact served_shutdownFinish hp
  case h_19 => cases h

/-- A call only starts its operation. -/
theorem served_call {n : ℕ} {c : Call} {result : Except SdkError Unit}
    (hp : s.tasks.pc (.host n) = .returned result) (h : s.call (.host n) c = some t) :
    Served s t (.host n) := by
  have starts {u : Client V K} {q : Pc V} (hplain : Plain s u)
      (hrelies : (u.goto (.host n) q).Relies (.host n) q) : Served s (u.goto (.host n) q) (.host n) :=
    .of_plain hp (Gate.Tasks.pc_goto_self ..) hplain.goto rfl (fun hs => by cases hs) hrelies
      (.inr (.inr ⟨result, rfl⟩))
  unfold call at h
  cases c with
  | connect | joinVoice =>
      dsimp only at h
      split at h
      · cases h; exact starts (.refl s) trivial
      · cases h; exact starts (.refl s) trivial
  | leaveVoice =>
      dsimp only at h
      split at h
      · cases h; exact starts (.refl s) trivial
      · cases h; exact starts ⟨rfl, rfl, rfl, rfl, fun _ => .inl⟩ trivial
  | discover =>
      dsimp only at h
      split at h
      · cases h; exact starts (.refl s) trivial
      · split at h
        · cases h; exact starts (.refl s) trivial
        · cases h; exact starts (.refl s) trivial
  | closeSession session | leaveSession session =>
      obtain ⟨x, hx, rfl⟩ := Option.map_eq_some_iff.mp h
      have hplain := Plain.clearSessionIntent s x
      exact starts hplain ⟨⟨x, by rw [hplain.goto.sessions, hx]⟩, trivial⟩
  | shutdown => cases h; exact starts (.refl s) trivial

/-! ### Every action -/

/-- The task an action moves. -/
def task? : Action V → Option Task
  | .call n _ => some (.host n)
  | .resume i _ => some i
  | .engine _ _ | .closeControl _ | .worker _ _ => none

/-- What an action does to a task it does not move: nothing, unless it spawns or aborts
the task as a relay. -/
inductive Bystands (s t : Client V K) (j : Task) : Prop
  | stays (h : t.tasks.pc j = s.tasks.pc j)
  | spawned (h : s.tasks.pc j = .relayExited) (h' : (t.tasks.pc j).reads = true)
  | aborted (g : ℕ) (hj : j = .relay g) (h : t.tasks.pc j = .relayExited) (hteardown : ∀ v, t.teardownHolder v ≠ some j)
      (hshutdown : t.shutdownHolder = none)

theorem bystands_step (hs : s.TasksSound) (h : s.step env a = some t) (hj : task? a ≠ some j) :
    Bystands s t j := by
  cases step_cases h with
  | call n c q result hp hm =>
      exact .stays (by rw [hm.pc, Function.update_of_ne fun heq => hj (congrArg some heq.symm)])
  | resume i input q hp hm =>
      exact .stays (by rw [hm.pc, Function.update_of_ne fun heq => hj (congrArg some heq.symm)])
  | install i input c conn hp hconn hstopped ht =>
      have hne : j ≠ i := fun heq => hj (congrArg some heq.symm)
      subst ht
      by_cases hrelay : j = .relay (s.connectionGeneration + 1)
      · subst hrelay
        exact .spawned hs.next_relay (by simp [Client.goto, Gate.Tasks.goto, hne, Pc.reads])
      · exact .stays (by simp [Client.goto, Gate.Tasks.goto, hne, hrelay])
  | abort i input hp ht =>
      have hne : j ≠ i := fun heq => hj (congrArg some heq.symm)
      subst ht
      cases j with
      | host m => exact .stays (by simp [shutdownFinish, Client.goto, Gate.Tasks.goto, hne])
      | relay g =>
          refine .aborted g rfl (by simp [shutdownFinish, Client.goto, Gate.Tasks.goto, hne])
            (fun v hv => ?_) rfl
          simp only [shutdownFinish, Client.goto] at hv
          split at hv
          · cases hv
          · rename_i hnot
            exact hnot g hv
  | engine c input conn next hconn hstep ht => subst ht; exact .stays rfl
  | close c ht => subst ht; exact .stays rfl
  | worker w input worker next sealed keyCache hworker hstep ht => subst ht; exact .stays rfl

theorem lively_new (autoRejoinVoice : Bool) (policy : ReconnectPolicy) :
    (new autoRejoinVoice policy : Client V K).Lively where
  sound := sound_new autoRejoinVoice policy
  teardown _ _ h := by cases h
  shutdown _ h := by cases h
  relies j := by
    cases j with
    | host n => exact trivial
    | relay g => exact ⟨g, rfl⟩
  voice _ h := by cases h
  workers _ _ h := by cases h
  reported _ _ h := by cases h

/-- A move of a task keeps what progress rests on. -/
theorem Served.lively (H : s.Lively) (h : s.step env a = some t) (hi : task? a = some i)
    (hm : Served s t i) : t.Lively := by
  have hkeeps := keeps_step H.sound h
  have others (j : Task) (hj : j ≠ i) : Bystands s t j :=
    bystands_step H.sound.tasks h fun heq => hj (Option.some.inj (heq.symm.trans hi))
  refine ⟨H.sound.step h, fun v j hv => ?_, fun j hj => ?_, fun j => ?_, fun v hv => ?_,
    fun w worker hw => ?_, fun v x hx => ?_⟩
  · rcases hm.teardown v j hv with ⟨rfl, hclosing⟩ | ⟨hholder, hnot⟩
    · exact hclosing
    · have hclosing := H.teardown v j hholder
      cases others j fun heq => hnot heq (heq ▸ hclosing) with
      | stays heq => rw [heq]; exact hclosing
      | spawned heq _ => rw [heq] at hclosing; cases hclosing
      | aborted _ _ _ hteardown _ => exact absurd hv (hteardown v)
  · rcases hm.shutdown j hj with ⟨rfl, hshuts⟩ | ⟨hholder, hnot⟩
    · exact hshuts
    · have hshuts := H.shutdown j hholder
      have hne : j ≠ i := by
        intro heq
        have hfalse := hnot heq
        rw [heq] at hshuts
        rw [hshuts] at hfalse
        cases hfalse
      cases others j hne with
      | stays heq => rw [heq]; exact hshuts
      | spawned heq _ => rw [heq] at hshuts; cases hshuts
      | aborted _ _ _ _ hnone => rw [hnone] at hj; cases hj
  · by_cases hji : j = i
    · exact hji ▸ hm.relies
    · cases others j hji with
      | stays heq => rw [heq]; exact hkeeps.relies (H.relies j)
      | spawned _ hreads => exact relies_of_rests (Pc.rests_of_reads hreads)
      | aborted g hj heq _ _ => rw [heq]; exact ⟨g, hj⟩
  · rcases hm.voice v hv with hv | hx
    · exact hkeeps.session (H.voice v hv)
    · exact hx
  · rcases hm.workers with heq | ⟨codec, heq⟩ | ⟨w', before, hbefore, hstarted, heq⟩
    · exact H.workers w worker (heq ▸ hw)
    · rw [heq] at hw
      rcases getElem?_concat_eq_some hw with hold | ⟨-, rfl⟩
      · exact H.workers w worker hold
      · exact Worker.inOrder_new codec
    · rw [heq, List.getElem?_modify] at hw
      cases hold : s.workers[w]? with
      | none => simp [hold] at hw
      | some old =>
          by_cases hww : w' = w
          · subst hww
            rw [hbefore] at hold
            cases hold
            have heq : before.requestTermination .close = worker := by simpa [hbefore] using hw
            rw [← heq]
            exact (H.workers w' before hbefore).requestTermination hstarted
          · have heq : old = worker := by simpa [hold, hww] using hw
            exact heq ▸ H.workers w old hold
  · have old (hx : s.sessions[v]? = some x) : t.Reported x := by
      obtain ⟨worker, hworker, hstarted⟩ := H.reported v x hx
      obtain ⟨worker', hworker', -, hkept⟩ := hkeeps.workers _ worker hworker
      exact ⟨worker', hworker', hkept hstarted⟩
    rcases hm.sessions with heq | ⟨y, ⟨worker, hworker, hstarted⟩, heq⟩
    · exact old (heq ▸ hx)
    · rw [heq] at hx
      rcases getElem?_concat_eq_some hx with hx | ⟨-, rfl⟩
      · exact old hx
      · obtain ⟨worker', hworker', -, hkept⟩ := hkeeps.workers _ worker hworker
        exact ⟨worker', hworker', hkept hstarted⟩

/-- An action that moves no task and takes no lock. -/
theorem Lively.of_idle (H : s.Lively) (h : s.step env a = some t) (htasks : t.tasks = s.tasks)
    (hteardown : t.teardownHolder = s.teardownHolder)
    (hshutdown : t.shutdownHolder = s.shutdownHolder) (hvoice : t.voice = s.voice)
    (hsessions : t.sessions = s.sessions)
    (hworkers : ∀ (w : ℕ) (worker : Worker K), t.workers[w]? = some worker →
      Worker.InOrder worker) : t.Lively := by
  have hkeeps := keeps_step H.sound h
  refine ⟨H.sound.step h, ?_, ?_, fun j => ?_, ?_, hworkers, fun v x hx => ?_⟩
  · rw [hteardown, htasks]
    exact H.teardown
  · rw [hshutdown, htasks]
    exact H.shutdown
  · rw [htasks]
    exact hkeeps.relies (H.relies j)
  · rw [hvoice, hsessions]
    exact H.voice
  · obtain ⟨worker, hworker, hstarted⟩ := H.reported v x (hsessions ▸ hx)
    obtain ⟨worker', hworker', -, hkept⟩ := hkeeps.workers _ worker hworker
    exact ⟨worker', hworker', hkept hstarted⟩

/-- **Every action keeps what progress rests on.** -/
theorem lively_step (H : s.Lively) (h : s.step env a = some t) : t.Lively := by
  cases step_cases h with
  | call n c q result hp hm =>
      have hcall : s.call (.host n) c = some t := by simpa [step, hp] using h
      exact (served_call hp hcall).lively H h rfl
  | resume i input q hp hm => exact (served_resume H h).lively H h rfl
  | install i input c conn hp hconn hstopped ht => exact (served_resume H h).lively H h rfl
  | abort i input hp ht => exact (served_resume H h).lively H h rfl
  | engine c input conn next hconn hstep ht =>
      subst ht
      exact H.of_idle h rfl rfl rfl rfl rfl H.workers
  | close c ht => subst ht; exact H.of_idle h rfl rfl rfl rfl rfl H.workers
  | worker w input worker next sealed keyCache hworker hstep ht =>
      subst ht
      refine H.of_idle h rfl rfl rfl rfl rfl fun w' worker' hw' => ?_
      by_cases hww : w = w'
      · subst hww
        have hlt : w < s.workers.length := (List.getElem?_eq_some_iff.mp hworker).1
        have heq : next = worker' := by simpa [hlt] using hw'
        exact heq ▸ (H.workers w worker hworker).step hstep
      · have hold : s.workers[w']? = some worker' := by
          rw [← hw']
          exact (List.getElem?_set_ne hww).symm
        exact H.workers w' worker' hold

end Client

end ZephyrVox.Sdk
