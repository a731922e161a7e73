import ZephyrVox.Lib.Progress
import ZephyrVox.Sdk.Locks

/-!
# Every operation of the facade returns

The locks are taken in one order: the shutdown gate, the voice gate, the teardown
lock of a session, the control mutex. So the holder of a lock waits at most for a lock
further down, for a worker that can stop or for a connection that can close: nobody is
stuck, whatever else the tasks, the connections and the workers do. And no operation
goes in circles.

## Main definitions

* `Client.settles` — the actions that go on with what was begun.
* `Client.Lessens` — going on can lead to less work for some task.
* `Client.AtRest` — all operations have returned and all locks are free.
-/

namespace ZephyrVox.Sdk

open Realtime Voice Transition

variable {V K : Type}

namespace Client

variable {env : Env V K} {s t : Client V K} {i j : Task} {a : Action V}

/-! ## Going on -/

/-- The work left of a task. -/
def workLeft (s : Client V K) (i : Task) : ℕ := (s.tasks.pc i).left

/-- The actions that go on with what was begun: no call, and no turn of a relay's loop. -/
def settles (s : Client V K) : Action V → Bool
  | .call _ _ => false
  | .resume i _ => !(s.tasks.pc i).reads
  | .engine _ _ | .closeControl _ | .worker _ _ => true

/-- A move of a task makes its work left smaller. -/
theorem workLeft_resume {input : Input} (H : s.Lively) (hreads : (s.tasks.pc i).reads = false)
    (h : s.resume env i input = some t) : t.workLeft i < s.workLeft i := by
  rcases (served_resume H h).less with hless | hr | ⟨result, hp⟩
  · exact hless
  · rw [hreads] at hr
    cases hr
  · simp [resume, hp] at h

/-- No action gives a task it does not move more to do. -/
theorem workLeft_bystands (h : Bystands s t j) : t.workLeft j ≤ s.workLeft j := by
  unfold workLeft
  cases h with
  | stays h => rw [h]
  | spawned _ h => rw [Pc.left_eq_zero_of_reads h]; exact Nat.zero_le _
  | aborted _ _ h _ _ => rw [h]; exact Nat.zero_le _

/-- Going on settles what was begun. -/
theorem advances (env : Env V K) :
    Advances (guarded (step env) settles) Lively task? (fun _ => True) workLeft where
  kept _ _ _ H h := lively_step H (guarded_eq_some h).2
  less s a t i H _ hi h := by
    obtain ⟨hguard, hstep⟩ := guarded_eq_some h
    cases a with
    | call => cases hguard
    | resume i' input =>
        cases hi
        exact workLeft_resume H (by simpa [settles] using hguard) hstep
    | engine | closeControl | worker => cases hi
  others s a t i H _ hi h :=
    workLeft_bystands (bystands_step H.sound.tasks (guarded_eq_some h).2 hi)

/-- From here the work left of some task can be lessened. -/
def Lessens (env : Env V K) (s : Client V K) : Prop :=
  Transition.Lessens (guarded (step env) settles) (fun _ => True) workLeft s

theorem lessens_of_resume (input : Input) (H : s.Lively)
    (hreads : (s.tasks.pc i).reads = false) (h : ∃ t, s.resume env i input = some t) :
    s.Lessens env := by
  obtain ⟨t, h⟩ := h
  have hsettles : s.settles (.resume i input) = true := by simp [settles, hreads]
  refine (advances env).lessens H trivial (a := .resume i input) (t := t) rfl ?_
  rw [guarded, if_pos hsettles]
  exact h

/-- What serves the tasks may have to move first. -/
theorem lessens_after {as : List (Action V)} {m : Client V K} (input : Input) (H : s.Lively)
    (hrun : exec (guarded (step env) settles) s as = some m) (htasks : m.tasks = s.tasks)
    (hreads : (s.tasks.pc i).reads = false) (h : ∃ t, m.resume env i input = some t) :
    s.Lessens env := by
  obtain ⟨t, h⟩ := h
  obtain ⟨Hm, -⟩ := (advances env).exec_le H (fun _ _ => trivial) hrun
  have hsettles : m.settles (.resume i input) = true := by simp [settles, htasks, hreads]
  have hstep : guarded (step env) settles m (.resume i input) = some t := by
    rw [guarded, if_pos hsettles]
    exact h
  refine ⟨as ++ [.resume i input], t, fun _ _ => trivial, ?_, i, ?_⟩
  · rw [exec_append, hrun]
    simp [hstep]
  · have hless := workLeft_resume Hm (by rw [htasks]; exact hreads) h
    rwa [workLeft, workLeft, htasks] at hless

variable (env) in
/-- The task of a connection runs on. -/
theorem exec_engine {c : ℕ} {inputs : List (EngineInput V)} {conn conn' : Connection V}
    (hconn : s.connection? c = some conn)
    (hrun : exec (Connection.step env.serde) conn inputs = some conn') :
    ∃ m, exec (guarded (step env) settles) s (inputs.map (.engine c)) = some m ∧
      m.tasks = s.tasks ∧ m.connection? c = some conn' := by
  induction inputs generalizing s conn with
  | nil =>
      cases hrun
      exact ⟨s, rfl, rfl, hconn⟩
  | cons input inputs ih =>
      obtain ⟨next, hnext, hrun⟩ := Option.bind_eq_some_iff.mp hrun
      have hstep : ∃ u, guarded (step env) settles s (.engine c input) = some u ∧
          u.tasks = s.tasks ∧ u.connection? c = some next := by
        rw [connection?] at hconn
        have hlt := (List.getElem?_eq_some_iff.mp hconn).1
        simp only [guarded, settles, if_true, step, stepEngine, connection?, hconn, hnext,
          Option.map_some]
        exact ⟨_, rfl, rfl, by simp [hlt]⟩
      obtain ⟨u, hu, htasks, hconn⟩ := hstep
      obtain ⟨m, hm, htasks', hconn'⟩ := ih hconn hrun
      exact ⟨m, by rw [List.map_cons, exec_cons, hu]; exact hm, htasks'.trans htasks, hconn'⟩

variable (env) in
/-- A connection that was asked to close can close. -/
theorem exec_closes {c : ℕ} (H : s.Lively) (h : s.IsClosing c) :
    ∃ as m, exec (guarded (step env) settles) s as = some m ∧ m.tasks = s.tasks ∧
      m.isClosed c = true := by
  obtain ⟨conn, hconn, hstopped⟩ := h
  obtain ⟨inputs, conn', hrun, hclosed⟩ :=
    connection_closes env.serde (H.sound.connections c conn hconn) hstopped
  obtain ⟨m, hm, htasks, hconn'⟩ := exec_engine env hconn hrun
  exact ⟨_, m, hm, htasks, isClosed_of_connection hconn' hclosed⟩

/-- A worker makes a turn. -/
theorem exec_worker {w : ℕ} {worker : Worker K} {input : WorkerInput}
    {next : Worker K × List (Sealed K)} (hworker : s.workers[w]? = some worker)
    (h : worker.step env.crypto input = some next) :
    ∃ m, exec (guarded (step env) settles) s [.worker w input] = some m ∧ m.tasks = s.tasks ∧
      m.workers[w]? = some next.1 ∧ m.connections = s.connections ∧ m.sessions = s.sessions := by
  have hlt := (List.getElem?_eq_some_iff.mp hworker).1
  simp only [exec_cons, exec_nil, guarded, settles, if_true, step, stepWorker, hworker, h,
    Option.map_some, Option.bind_some]
  exact ⟨_, rfl, rfl, by simp [hlt], rfl, rfl⟩

variable (env) in
/-- A worker that was asked to close can stop. -/
theorem exec_stops {w : ℕ} (H : s.Lively) (h : s.Asked w) :
    ∃ as m worker, exec (guarded (step env) settles) s as = some m ∧ m.tasks = s.tasks ∧
      m.workers[w]? = some worker ∧ worker.status.isTerminal = true ∧
      m.connections = s.connections ∧ m.sessions = s.sessions := by
  obtain ⟨worker, hworker, hasked⟩ := h
  cases hterminal : worker.status.isTerminal with
  | true => exact ⟨[], s, worker, rfl, rfl, hworker, hterminal, rfl, rfl⟩
  | false =>
      have hstep := (H.workers w worker hworker).stops env.crypto hasked hterminal
      obtain ⟨m, hm, htasks, hnext, hconnections, hsessions⟩ := exec_worker hworker hstep
      exact ⟨_, m, _, hm, htasks, hnext, rfl, hconnections, hsessions⟩

/-! ### The control mutex -/

/-- Whoever holds the control mutex gives it back. -/
theorem lessens_of_holdsControl (H : s.Lively) (h : (s.tasks.pc j).holdsControl = true) :
    s.Lessens env := by
  have hrelies := H.relies j
  cases hp : s.tasks.pc j with
  | connectSnapshot =>
      exact lessens_of_resume (.snapshot (.error .closed)) H (i := j) (by rw [hp]; rfl)
        (by simp only [resume, hp]; exact ⟨_, rfl⟩)
  | connectInstall c =>
      rw [hp] at hrelies
      obtain ⟨conn, hconn⟩ := hrelies
      have hinstall : ∃ t, s.connectInstall j c = some t := by
        unfold connectInstall
        simp only [hconn]
        split <;> exact ⟨_, rfl⟩
      obtain ⟨t, ht⟩ := hinstall
      exact lessens_of_resume .ready H (i := j) (by rw [hp]; rfl)
        (by simp only [resume, hp]; exact ⟨t, ht⟩)
  | connectAbort c =>
      rw [hp] at hrelies
      obtain ⟨as, m, hm, htasks, hclosed⟩ := exec_closes env H hrelies
      exact lessens_after .ready H hm htasks (i := j) (by rw [hp]; rfl)
        (by simp only [resume, htasks, hp, hclosed, if_true]; exact ⟨_, rfl⟩)
  | shutdownClosing c =>
      rw [hp] at hrelies
      obtain ⟨as, m, hm, htasks, hclosed⟩ := exec_closes env H hrelies
      exact lessens_after .ready H hm htasks (i := j) (by rw [hp]; rfl)
        (by simp only [resume, htasks, hp, hclosed, if_true]; exact ⟨_, rfl⟩)
  | _ => rw [hp] at h; cases h

/-- A task that can go on with the control mutex, goes on or waits for its holder. -/
theorem lessens_at_control (H : s.Lively) (hreads : (s.tasks.pc i).reads = false)
    (h : s.controlHolder = none → ∃ input t, s.resume env i input = some t) : s.Lessens env := by
  cases hholder : s.controlHolder with
  | none =>
      obtain ⟨input, t, ht⟩ := h hholder
      exact lessens_of_resume _ H hreads ⟨t, ht⟩
  | some j => exact lessens_of_holdsControl H ((H.sound.tasks.mutex j).mp hholder)

/-! ### The teardown locks -/

/-- The worker of a session has stopped: whoever closes it goes on. -/
theorem transportStopped_of_terminal {v : ℕ} {k : After V} {x : Session} {worker : Worker K}
    {m : Client V K} (hx : m.sessions[v]? = some x) (hworker : m.workers[x.transport]? = some worker)
    (hterminal : worker.status.isTerminal = true) (hafter : m.ReliesAfter k) :
    ∃ t, m.transportStopped i v k = some t := by
  unfold transportStopped
  simp only [hx, hworker, hterminal, Bool.not_true, Bool.false_eq_true, if_false]
  cases k with
  | join call next reuse =>
      obtain ⟨y, hy⟩ := hafter
      simp only [hy, Option.map_some]
      exact ⟨_, rfl⟩
  | relay | close | shutdown => exact ⟨_, rfl⟩
  | leave viaClient =>
      dsimp only
      split <;> exact ⟨_, rfl⟩

/-- Whoever holds the teardown lock of a session gives it back. -/
theorem lessens_of_closing {v : ℕ} (H : s.Lively) (h : (s.tasks.pc j).closing? = some v) :
    s.Lessens env := by
  have hrelies := H.relies j
  cases hp : s.tasks.pc j with
  | stopping session k =>
      rw [hp] at hrelies
      obtain ⟨⟨x, hx, hasked⟩, hafter⟩ := hrelies
      obtain ⟨as, m, worker, hm, htasks, hworker, hterminal, -, hsessions⟩ :=
        exec_stops env H hasked
      have hafter' : m.ReliesAfter k := by
        cases k with
        | join call next reuse =>
            show ∃ y, m.sessions[next]? = some y
            rw [hsessions]
            exact hafter
        | relay | leave | close | shutdown => exact trivial
      obtain ⟨t, ht⟩ := transportStopped_of_terminal (i := j) (by rw [hsessions]; exact hx) hworker
        hterminal hafter'
      exact lessens_after .ready H hm htasks (i := j) (by rw [hp]; rfl)
        (by simp only [resume, htasks, hp]; exact ⟨t, ht⟩)
  | leaving session k =>
      rw [hp] at hrelies
      obtain ⟨-, viaClient, rfl⟩ := hrelies
      exact lessens_of_resume (.left (.error .closed)) H (i := j) (by rw [hp]; rfl)
        (by simp only [resume, hp, leaveResponded]; exact ⟨_, rfl⟩)
  | _ => rw [hp] at h; cases h

/-- A task that wants to close a session, does so or waits for the holder of its lock. -/
theorem lessens_of_teardown {v : ℕ} {k : After V} (H : s.Lively)
    (hp : s.tasks.pc i = .teardown v k) : s.Lessens env := by
  have hrelies := H.relies i
  rw [hp] at hrelies
  obtain ⟨⟨x, hx⟩, -⟩ := hrelies
  cases hholder : s.teardownHolder v with
  | none =>
      have hlock : ∃ t, s.lockTeardown i v k = some t := by
        unfold lockTeardown
        simp only [hholder, hx]
        split
        · split <;> exact ⟨_, rfl⟩
        · exact ⟨_, rfl⟩
      obtain ⟨t, ht⟩ := hlock
      exact lessens_of_resume .ready H (i := i) (by rw [hp]; rfl)
        (by simp only [resume, hp]; exact ⟨t, ht⟩)
  | some j => exact lessens_of_closing H (H.teardown v j hholder)

/-! ### The voice gate -/

theorem joinDiscovered_of_connection (i : Task) (call : JoinCall V) {c : ℕ}
    (cached : Option Metadata) (result : Except SdkError Metadata) (hc : ∃ conn, s.connection? c = some conn) :
    ∃ t, s.joinDiscovered i call c cached result = some t := by
  obtain ⟨conn, hconn⟩ := hc
  unfold joinDiscovered
  simp only [hconn]
  split
  case h_1 heq => cases heq
  case h_2 => exact ⟨_, rfl⟩
  case h_3 =>
    split
    · exact ⟨_, rfl⟩
    · split
      · exact ⟨_, rfl⟩
      · split <;> exact ⟨_, rfl⟩

theorem joinStarted_of_started (i : Task) (call : JoinCall V) {b : Binding} {w : ℕ}
    (reuse : Option SessionKey) {worker : Worker K} {m : Client V K} (hb : m.Bound b)
    (hworker : m.workers[w]? = some worker) (hstarted : worker.started.isSome = true) :
    ∃ t, m.joinStarted i call b w reuse = some t := by
  obtain ⟨conn, hconn⟩ := hb
  obtain ⟨result, hresult⟩ := Option.isSome_iff_exists.mp hstarted
  unfold joinStarted
  simp only [hconn, hworker, hresult]
  cases result with
  | error e => exact ⟨_, rfl⟩
  | ok _ =>
      dsimp only
      split
      · exact ⟨_, rfl⟩
      · split <;> exact ⟨_, rfl⟩

/-- A join that holds the gate goes on. -/
theorem lessens_of_join {call : JoinCall V} {stage : JoinPc} (H : s.Lively)
    (hp : s.tasks.pc j = .join call stage) (hstage : stage ≠ .gate) : s.Lessens env := by
  have hrelies := H.relies j
  have hreads : (s.tasks.pc j).reads = false := by rw [hp]; rfl
  rw [hp] at hrelies
  cases stage with
  | gate => exact absurd rfl hstage
  | control =>
      refine lessens_at_control H (i := j) hreads fun hfree => ⟨.ready, ?_⟩
      simp only [resume, hp, resumeJoin, joinControl, hfree]
      split
      · split
        · exact ⟨_, rfl⟩
        · split
          · exact ⟨_, rfl⟩
          · split <;> exact ⟨_, rfl⟩
      · exact ⟨_, rfl⟩
  | discovering c cached =>
      obtain ⟨t, ht⟩ := joinDiscovered_of_connection j call cached (.error .closed) hrelies
      exact lessens_of_resume (.metadata (.error .closed)) H hreads
        (by simp only [resume, hp, resumeJoin]; exact ⟨t, ht⟩)
  | requesting b =>
      exact lessens_of_resume (.joined (.error .closed)) H hreads
        (by simp only [resume, hp, resumeJoin]; exact ⟨_, rfl⟩)
  | connecting b config reuse =>
      exact lessens_of_resume (.udp (.error .closed)) H hreads
        (by simp only [resume, hp, resumeJoin]; exact ⟨_, rfl⟩)
  | starting b w reuse =>
      obtain ⟨hb, worker, hworker⟩ := hrelies
      cases hstarted : worker.started with
      | some result =>
          obtain ⟨t, ht⟩ := joinStarted_of_started j call reuse hb
            hworker (by rw [hstarted]; rfl)
          exact lessens_of_resume .ready H hreads
            (by simp only [resume, hp, resumeJoin]; exact ⟨t, ht⟩)
      | none =>
          have hstart := (H.workers w worker hworker).starts env.crypto hstarted (.ok ())
          obtain ⟨m, hm, htasks, hnext, hconnections, -⟩ := exec_worker hworker hstart
          have hb' : m.Bound b := by
            obtain ⟨conn, hconn⟩ := hb
            exact ⟨conn, by rw [connection?, hconnections]; exact hconn⟩
          obtain ⟨t, ht⟩ := joinStarted_of_started j call reuse hb'
            hnext (started_startup _).2
          exact lessens_after .ready H hm htasks hreads
            (by simp only [resume, htasks, hp, resumeJoin]; exact ⟨t, ht⟩)
  | discarding w =>
      obtain ⟨as, m, worker, hm, htasks, hworker, hterminal, -, -⟩ :=
        exec_stops env H hrelies
      exact lessens_after .ready H hm htasks (i := j) hreads
        (by
          simp only [resume, htasks, hp, resumeJoin, joinDiscarded, hworker, hterminal, if_true]
          exact ⟨_, rfl⟩)

/-- Whoever holds the voice gate gives it back. -/
theorem lessens_of_holdsGate (H : s.Lively) (h : (s.tasks.pc j).holdsGate = true) :
    s.Lessens env := by
  cases hp : s.tasks.pc j with
  | join call stage =>
      refine lessens_of_join H hp fun hstage => ?_
      rw [hp, hstage] at h
      cases h
  | teardown v k => exact lessens_of_teardown H hp
  | stopping v k => exact lessens_of_closing (v := v) H (by rw [hp]; rfl)
  | leaving v k => exact lessens_of_closing (v := v) H (by rw [hp]; rfl)
  | _ => rw [hp] at h; cases h

/-- A task that can go on with the voice gate, goes on or waits for its holder. -/
theorem lessens_at_gate (H : s.Lively) (hreads : (s.tasks.pc i).reads = false)
    (h : s.tasks.holder = none → ∃ input t, s.resume env i input = some t) : s.Lessens env := by
  cases hholder : s.tasks.holder with
  | none =>
      obtain ⟨input, t, ht⟩ := h hholder
      exact lessens_of_resume _ H hreads ⟨t, ht⟩
  | some j => exact lessens_of_holdsGate H ((H.sound.tasks.gate j).mp hholder)

/-- The voice gate is taken when it is free. -/
theorem acquire_of_free {m : Client V K} (hfree : m.tasks.holder = none) (i : Task) (q : Pc V) :
    ∃ t, m.acquire i q = some t := by
  simp only [acquire, Gate.Tasks.acquire, hfree, Option.map_some]
  exact ⟨_, rfl⟩

/-! ### The shutdown gate -/

/-- A shutdown goes on. -/
theorem lessens_of_shuts (H : s.Lively) (h : (s.tasks.pc j).shuts = true) : s.Lessens env := by
  cases hp : s.tasks.pc j with
  | shutdownGate =>
      refine lessens_at_gate H (i := j) (by rw [hp]; rfl) fun hfree => ⟨.ready, ?_⟩
      simp only [resume, hp]
      unfold shutdownVoice
      split
      case h_1 heq => rw [hfree] at heq; cases heq
      case h_2 => exact ⟨_, rfl⟩
      case h_3 => exact acquire_of_free (by exact hfree) _ _
  | teardown v k => exact lessens_of_teardown H hp
  | stopping v k => exact lessens_of_closing (v := v) H (by rw [hp]; rfl)
  | leaving v k => exact lessens_of_closing (v := v) H (by rw [hp]; rfl)
  | shutdownControl =>
      refine lessens_at_control H (i := j) (by rw [hp]; rfl) fun hfree => ⟨.ready, ?_⟩
      simp only [resume, hp]
      unfold shutdownConnection
      split
      case h_1 heq => rw [hfree] at heq; cases heq
      all_goals exact ⟨_, rfl⟩
  | shutdownClosing c => exact lessens_of_holdsControl (j := j) H (by rw [hp]; rfl)
  | shutdownAborting =>
      exact lessens_of_resume .ready H (i := j) (by rw [hp]; rfl)
        (by simp only [resume, hp]; exact ⟨_, rfl⟩)
  | _ => rw [hp] at h; cases h

/-- **Nobody is stuck**: while a task has work left, some of it can be done. -/
theorem lessens_of_workLeft (H : s.Lively) (h : 0 < s.workLeft i) : s.Lessens env := by
  have hreads : (s.tasks.pc i).reads = false := by
    by_contra hr
    rw [workLeft, Pc.left_eq_zero_of_reads (by simpa using hr)] at h
    exact absurd h (Nat.lt_irrefl 0)
  unfold workLeft at h
  cases hp : s.tasks.pc i with
  | returned | relayTop | relayReceive | relayExited => rw [hp] at h; cases h
  | connectLock =>
      refine lessens_at_control H hreads fun hfree => ⟨.ready, ?_⟩
      simp only [resume, hp, connectLocked, hfree]
      split <;> exact ⟨_, rfl⟩
  | connectSnapshot | connectInstall | connectAbort =>
      exact lessens_of_holdsControl (j := i) H (by rw [hp]; rfl)
  | discovering =>
      exact lessens_of_resume (.metadata (.error .closed)) H hreads
        (by simp only [resume, hp]; exact ⟨_, rfl⟩)
  | relayStop r event =>
      obtain ⟨g, rfl⟩ : ∃ g, i = .relay g := by
        cases i with
        | host n => have hhost := H.sound.tasks.host n; rw [hp] at hhost; cases hhost
        | relay g => exact ⟨g, rfl⟩
      refine lessens_at_gate H hreads fun hfree => ⟨.ready, ?_⟩
      simp only [resume, hp, stopVoiceTransport, hfree]
      split
      · split
        · exact acquire_of_free (by exact hfree) _ _
        · exact ⟨_, rfl⟩
      · exact ⟨_, rfl⟩
  | join call stage =>
      by_cases hstage : stage = .gate
      · subst hstage
        refine lessens_at_gate H hreads fun hfree => ⟨.ready, ?_⟩
        obtain ⟨t, ht⟩ := acquire_of_free hfree i (.join call .control)
        simp only [resume, hp, resumeJoin, joinGate, ht, Option.map_some]
        exact ⟨_, rfl⟩
      · exact lessens_of_join H hp hstage
  | leaveGate =>
      refine lessens_at_gate H hreads fun hfree => ⟨.ready, ?_⟩
      simp only [resume, hp]
      unfold leaveCurrent
      split
      case h_1 heq => rw [hfree] at heq; cases heq
      case h_2 => exact ⟨_, rfl⟩
      case h_3 session _ hvoice =>
        obtain ⟨x, hx⟩ := H.voice session hvoice
        simp only [hx]
        exact acquire_of_free (by rw [clearSessionIntent_tasks]; exact hfree) _ _
  | teardown v k => exact lessens_of_teardown H hp
  | stopping v k => exact lessens_of_closing (v := v) H (by rw [hp]; rfl)
  | leaving v k => exact lessens_of_closing (v := v) H (by rw [hp]; rfl)
  | shutdownLock =>
      cases hholder : s.shutdownHolder with
      | none =>
          refine lessens_of_resume .ready H hreads ?_
          simp only [resume, hp, hholder]
          split <;> exact ⟨_, rfl⟩
      | some j => exact lessens_of_shuts H (H.shutdown j hholder)
  | shutdownGate | shutdownControl | shutdownClosing | shutdownAborting =>
      exact lessens_of_shuts (j := i) H (by rw [hp]; rfl)

/-! ## The calls of a host -/

/-- Whether an action moves a task. -/
def moves (i : Task) : Action V → Bool
  | .resume j _ => decide (j = i)
  | .call _ _ | .engine _ _ | .closeControl _ | .worker _ _ => false

/-- A host is not in the loop of a relay. -/
theorem TasksSound.reads_host (hs : s.TasksSound) (n : ℕ) :
    (s.tasks.pc (.host n)).reads = false := by
  have hhost := hs.host n
  cases hp : s.tasks.pc (.host n) with
  | relayTop | relayReceive => rw [hp] at hhost; cases hhost
  | _ => rfl

/-- Whatever anyone does, only its own moves bring a call on, and only a new call gives
the host more to do. -/
theorem advances_host (env : Env V K) (n : ℕ) :
    Advances (step env) Lively (fun a => if moves (.host n) a then some () else none)
      (fun a => ∀ c, a ≠ .call n c) fun s _ => s.workLeft (.host n) where
  kept _ _ _ H h := lively_step H h
  less s a t _ H _ hi h := by
    cases a with
    | resume j input =>
        have hj : j = .host n := by
          by_contra hne
          simp [moves, hne] at hi
        subst hj
        exact workLeft_resume H (H.sound.tasks.reads_host n) h
    | call | engine | closeControl | worker => cases hi
  others s a t _ H ha hi h := by
    refine workLeft_bystands (bystands_step H.sound.tasks h fun htask => ?_)
    cases a with
    | call m c => cases htask; exact ha c rfl
    | resume j input => cases htask; simp [moves] at hi
    | engine | closeControl | worker => cases htask

/-- A host that calls nothing stays as it is. -/
theorem returned_of_no_call (n : ℕ) {actions : List (Action V)} (result : Except SdkError Unit)
    (hp : s.tasks.pc (.host n) = .returned result) (hcall : ∀ a ∈ actions, ∀ c, a ≠ .call n c)
    (hrun : exec (step env) s actions = some t) : t.tasks.pc (.host n) = .returned result := by
  induction actions generalizing s with
  | nil => cases hrun; exact hp
  | cons a actions ih =>
      obtain ⟨m, hm, hrun⟩ := Option.bind_eq_some_iff.mp hrun
      refine ih ?_ (fun b hb => hcall b (List.mem_cons_of_mem _ hb)) hrun
      rw [step_host_pc hm (hcall a List.mem_cons_self), hp]
      rintro input rfl
      simp [step, resume, hp] at hm

/-- Only finitely many tasks have work left. -/
theorem workLeft_eq_zero {autoRejoinVoice : Bool} {policy : ReconnectPolicy}
    {actions : List (Action V)} (hs : s.TasksSound)
    (hrun : exec (step env) (new autoRejoinVoice policy) actions = some s)
    (hi : i ∉ (actions.filterMap task?).toFinset ∪
      (Finset.range (s.connectionGeneration + 1)).image Task.relay) : s.workLeft i = 0 := by
  rw [Finset.mem_union, not_or] at hi
  obtain ⟨hactions, hrelays⟩ := hi
  cases i with
  | host n =>
      have hreturned := returned_of_no_call n (.ok ()) rfl (fun a ha c heq => ?_)
        hrun
      · rw [workLeft, hreturned]
        rfl
      · refine hactions (List.mem_toFinset.mpr (List.mem_filterMap.mpr ⟨a, ha, ?_⟩))
        rw [heq]
        rfl
  | relay g =>
      rcases hs.relay g with hexited | ⟨r, conn, -, hle, hinstalled, -⟩
      · rw [workLeft, hexited]
        rfl
      · refine absurd (Finset.mem_image.mpr ⟨g, Finset.mem_range.mpr ?_, rfl⟩) hrelays
        have hlt := (List.getElem?_eq_some_iff.mp hinstalled).1
        rw [← hs.generation] at hlt
        omega

/-- All operations have returned, the relays are in their loops, and all locks are free. -/
structure AtRest (s : Client V K) : Prop where
  hosts : ∀ n, ∃ result, s.tasks.pc (.host n) = .returned result
  relays : ∀ g, (s.tasks.pc (.relay g)).reads = true ∨ s.tasks.pc (.relay g) = .relayExited
  gate : s.tasks.holder = none
  control : s.controlHolder = none
  shutdown : s.shutdownHolder = none
  teardown : ∀ v, s.teardownHolder v = none

/-- Without work left, everything is at rest. -/
theorem Lively.atRest (H : s.Lively) (h : ∀ i, s.workLeft i = 0) : s.AtRest where
  hosts n := by
    rcases Pc.rests_of_left_eq_zero (h (.host n)) with hr | hr
    · rcases Pc.returned_or_reads hr with hr | hr
      · exact hr
      · rw [H.sound.tasks.reads_host n] at hr
        cases hr
    · have hrelies := H.relies (.host n)
      rw [hr] at hrelies
      obtain ⟨g, hg⟩ := hrelies
      cases hg
  relays g := by
    rcases Pc.rests_of_left_eq_zero (h (.relay g)) with hr | hr
    · rcases Pc.returned_or_reads hr with ⟨result, hr⟩ | hr
      · rcases H.sound.tasks.relay g with hexited | ⟨r, conn, hrelay, -⟩
        · exact .inr hexited
        · rw [hr] at hrelay
          cases hrelay
      · exact .inl hr
    · exact .inr hr
  gate := by
    by_contra hne
    obtain ⟨i, hi⟩ := Option.ne_none_iff_exists'.mp hne
    have hholds := (H.sound.tasks.gate i).mp hi
    have hzero := h i
    unfold workLeft at hzero
    cases hp : s.tasks.pc i with
    | join call stage => rw [hp] at hzero; cases stage <;> cases hzero
    | teardown | stopping | leaving => rw [hp] at hzero; cases hzero
    | _ => rw [hp] at hholds; cases hholds
  control := by
    by_contra hne
    obtain ⟨i, hi⟩ := Option.ne_none_iff_exists'.mp hne
    have hholds := (H.sound.tasks.mutex i).mp hi
    have hzero := h i
    unfold workLeft at hzero
    cases hp : s.tasks.pc i with
    | connectSnapshot | connectInstall | connectAbort | shutdownClosing =>
        rw [hp] at hzero
        cases hzero
    | _ => rw [hp] at hholds; cases hholds
  shutdown := by
    by_contra hne
    obtain ⟨i, hi⟩ := Option.ne_none_iff_exists'.mp hne
    have hshuts := H.shutdown i hi
    have hzero := h i
    unfold workLeft at hzero
    cases hp : s.tasks.pc i with
    | shutdownGate | shutdownControl | shutdownClosing | shutdownAborting | teardown | stopping
    | leaving =>
        rw [hp] at hzero
        cases hzero
    | _ => rw [hp] at hshuts; cases hshuts
  teardown v := by
    by_contra hne
    obtain ⟨i, hi⟩ := Option.ne_none_iff_exists'.mp hne
    have hclosing := H.teardown v i hi
    have hzero := h i
    unfold workLeft at hzero
    cases hp : s.tasks.pc i with
    | stopping | leaving => rw [hp] at hzero; cases hzero
    | _ => rw [hp] at hclosing; cases hclosing

/-- Host `3` waits for the worker of a session, host `1` shuts the client down and waits
for host `3`, and host `2` waits for host `1` to join. -/
def crowdedSchedule : Schedule :=
  joinedSchedule ++
    [.call 2 (.joinVoice sampleChannel ⟨none, false, none⟩), .call 3 (.closeSession 0),
      .resume (.host 3) .ready, .call 1 .shutdown, .resume (.host 1) .ready,
      .resume (.host 1) .ready]

end Client

end ZephyrVox.Sdk
