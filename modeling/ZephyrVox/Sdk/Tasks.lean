import ZephyrVox.Sdk.Moves

/-!
# Mutexes and relays

What holds of the tasks whatever the schedule: streams only grow, each mutex is
held by the task between acquiring and releasing it, and the relay of every
generation reads the connection that was installed as that generation.

## Main definitions

* `Grows` — what no action takes back.
* `TasksSound` — the mutexes and the relays.
* `Change.grows`, `Change.tasksSound` — every action keeps them.
-/

namespace ZephyrVox.Sdk

open Realtime Voice

namespace Client

variable {V K : Type} {env : Env V K} {s t u : Client V K} {i : Task} {q : Pc V} {a : Action V}

/-! ## What no action takes back -/

/-- Every connection is between two steps of its task. -/
def ConnectionsSound (s : Client V K) : Prop :=
  ∀ (c : ℕ) (conn : Connection V), s.connection? c = some conn → conn.WellFormed

/-- What `t` keeps of `s`. -/
structure Grows (s t : Client V K) : Prop where
  stopped : s.stopped = true → t.stopped = true
  installed : s.history.installed <+: t.history.installed
  sessions : s.sessions <+: t.sessions
  workers : WorkersKept s t
  connections : ∀ (c : ℕ) (conn : Connection V), s.connection? c = some conn →
    ∃ conn', t.connection? c = some conn' ∧ conn.Follows conn'

/-- Nothing a `Grows` reads has changed. -/
theorem Grows.of_eq (hs : s.ConnectionsSound) (hstopped : t.stopped = s.stopped)
    (hinstalled : t.history.installed = s.history.installed) (hsessions : t.sessions = s.sessions)
    (hworkers : WorkersKept s t) (hconnections : t.connections = s.connections) : Grows s t := by
  refine ⟨hstopped.trans, hinstalled ▸ List.prefix_rfl, hsessions ▸ List.prefix_rfl, hworkers, ?_⟩
  intro c conn hconn
  refine ⟨conn, ?_, .refl (hs c conn hconn)⟩
  rw [connection?, hconnections]
  exact hconn

/-- A quiet change after a change that keeps everything. -/
theorem Quiet.grows (hq : Quiet t u) (h : Grows s t) : Grows s u where
  stopped hs := by rw [hq.stopped]; exact h.stopped hs
  installed := by rw [hq.installed]; exact h.installed
  sessions := by rw [hq.sessions]; exact h.sessions
  workers := by
    intro w worker hw
    obtain ⟨worker', hw', hid, hterm⟩ := h.workers w worker hw
    obtain ⟨worker'', hw'', hid', hterm'⟩ := hq.workers w worker' hw'
    exact ⟨worker'', hw'', hid'.trans hid, hterm' ∘ hterm⟩
  connections c conn hconn := by
    obtain ⟨conn', hconn', hf⟩ := h.connections c conn hconn
    refine ⟨conn', ?_, hf⟩
    rw [connection?, hq.connections]
    exact hconn'

theorem grows_closeConnection (hs : s.ConnectionsSound) (c : ℕ) :
    Grows s (s.closeConnection c) := by
  refine ⟨id, List.prefix_rfl, List.prefix_rfl, .refl s, ?_⟩
  intro n conn hconn
  by_cases hn : c = n
  · subst hn
    refine ⟨{ conn with stopped := true }, ?_, Connection.follows_stopped (hs c conn hconn)⟩
    simp only [connection?] at hconn
    simp [connection?, closeConnection, hconn]
  · refine ⟨conn, ?_, .refl (hs n conn hconn)⟩
    simp only [connection?] at hconn
    simp [connection?, closeConnection, hn, hconn]

theorem Effect.grows (hs : s.ConnectionsSound) (h : Effect env s t i q) : Grows s t := by
  have same {base : Client V K} (hq : Quiet base t) (hstopped : base.stopped = s.stopped)
      (hinstalled : base.history.installed = s.history.installed)
      (hsessions : base.sessions = s.sessions) (hworkers : base.workers = s.workers)
      (hconnections : base.connections = s.connections) : Grows s t := by
    refine hq.grows (.of_eq hs hstopped hinstalled hsessions ?_ hconnections)
    intro w worker hw
    exact ⟨worker, by rw [hworkers, hw], rfl, id⟩
  cases h with
  | makes conn hp hq hw hnew h =>
      refine h.toQuiet.grows ⟨id, List.prefix_rfl, List.prefix_rfl, .refl s, ?_⟩
      intro c conn' hconn
      refine ⟨conn', ?_, .refl (hs c conn' hconn)⟩
      have hlt : c < s.connections.length := (List.getElem?_eq_some_iff.mp hconn).1
      rw [connection?, List.getElem?_append_left hlt]
      exact hconn
  | rejects c hp hq h => exact h.toQuiet.grows (grows_closeConnection hs c)
  | shutsControl c hp hq h =>
      have hc := grows_closeConnection hs c
      exact h.toQuiet.grows ⟨hc.stopped, hc.installed, hc.sessions, hc.workers, hc.connections⟩
  | shuts hp hq h =>
      refine h.toQuiet.grows ⟨fun _ => rfl, List.prefix_rfl, List.prefix_rfl, .refl s, ?_⟩
      exact fun c conn hconn => ⟨conn, hconn, .refl (hs c conn hconn)⟩
  | starts call b config reuse codec hp hq hcodec h =>
      refine h.toQuiet.grows (.of_eq hs rfl rfl rfl ?_ rfl)
      intro w worker hw
      have hlt : w < s.workers.length := (List.getElem?_eq_some_iff.mp hw).1
      exact ⟨worker, by rw [List.getElem?_append_left hlt, hw], rfl, id⟩
  | installs call b w previous reuse conn x hp hq hx h =>
      refine h.toQuiet.grows ⟨id, List.prefix_rfl, List.prefix_append _ _, .refl s, ?_⟩
      exact fun c conn hconn => ⟨conn, hconn, .refl (hs c conn hconn)⟩
  | installsFirst call b w reuse conn x hp hq hx h =>
      refine h.toQuiet.grows ⟨id, List.prefix_rfl, List.prefix_append _ _, .refl s, ?_⟩
      exact fun c conn hconn => ⟨conn, hconn, .refl (hs c conn hconn)⟩
  | binds call b cached conn hp hq hconn hlive hg h =>
      refine same h.toQuiet ?_ ?_ ?_ ?_ ?_
      all_goals
        unfold issued
        split <;> rfl
  | handles g r conn event hi hp hconn hevent hg h hq =>
      refine same h.toQuiet ?_ ?_ ?_ ?_ ?_
      all_goals
        unfold relay forgetIntent
        split <;> rfl
  | calm h | exits _ _ _ _ _ _ h | locks _ _ _ h | reads _ _ _ _ _ _ h
  | skips _ _ _ _ _ _ _ _ _ h | passes _ _ _ _ _ _ _ _ h | takes _ _ _ _ _ _ _ _ _ _ _ _ h
  | records _ _ _ _ _ _ _ _ h | leaves _ _ _ _ _ h | putsBack _ _ _ _ _ h | shutsVoice _ _ h
  | clears _ _ _ h =>
      exact same h.toQuiet rfl rfl rfl rfl rfl

theorem grows_engine (hs : s.ConnectionsSound) {c : ℕ} {conn next : Connection V}
    (hconn : s.connection? c = some conn) (hf : conn.Follows next) (withdrawn : List ℕ) :
    Grows s { s with
      connections := s.connections.set c next
      history := { s.history with withdrawn := withdrawn } } := by
  refine ⟨id, List.prefix_rfl, List.prefix_rfl, .refl s, ?_⟩
  intro n conn' hconn'
  by_cases hn : c = n
  · subst hn
    rw [hconn] at hconn'
    cases hconn'
    have hlt : c < s.connections.length := (List.getElem?_eq_some_iff.mp hconn).1
    exact ⟨next, by simp [connection?, hlt], hf⟩
  · refine ⟨conn', ?_, .refl (hs n conn' hconn')⟩
    rw [connection?, List.getElem?_set_ne hn]
    exact hconn'

/-- A worker that makes a turn keeps its codec, and was running. -/
theorem workersKept_step {w : ℕ} {worker next : Worker K} {sealed : List (Sealed K)}
    {input : WorkerInput} (hworker : s.workers[w]? = some worker)
    (hstep : worker.step env.crypto input = some (next, sealed))
    (ht : t.workers = s.workers.set w next) : WorkersKept s t := by
  obtain ⟨hrunning, hcodec, -⟩ := Worker.step_spec hstep
  intro n worker' hn
  rw [ht]
  by_cases hw : w = n
  · subst hw
    rw [hworker] at hn
    cases hn
    have hlt : w < s.workers.length := (List.getElem?_eq_some_iff.mp hworker).1
    refine ⟨next, by simp [hlt], by rw [hcodec], ?_⟩
    rw [hrunning]
    exact fun h => by cases h
  · exact ⟨worker', by rw [List.getElem?_set_ne hw, hn], rfl, id⟩

/-- **No action takes anything back.** -/
theorem Change.grows (hs : s.ConnectionsSound) (h : Change env s t a) : Grows s t := by
  cases h with
  | call n c q result hp h => exact h.effect.grows hs
  | resume i input q hp h => exact h.effect.grows hs
  | install i input c conn hp hconn hstopped ht =>
      subst ht
      refine ⟨id, List.prefix_append _ _, List.prefix_rfl, .refl s, ?_⟩
      exact fun c conn hconn => ⟨conn, hconn, .refl (hs c conn hconn)⟩
  | abort i input hp ht => subst ht; exact .of_eq hs rfl rfl rfl (.refl s) rfl
  | engine c input conn next hconn hstep ht =>
      subst ht
      exact grows_engine hs hconn (Connection.follows_step (hs c conn hconn) hstep) _
  | close c ht => subst ht; exact grows_closeConnection hs c
  | worker w input worker next sealed keyCache hworker hstep ht =>
      subst ht
      exact .of_eq hs rfl rfl rfl (workersKept_step hworker hstep rfl) rfl

/-- A connection of the new state was there before, unless it was just made. -/
theorem Effect.connections (h : Effect env s t i q) :
    t.connections.length = s.connections.length ∨
      ∃ conn : Connection V, conn.WellFormed ∧ t.connections = s.connections ++ [conn] := by
  cases h with
  | makes conn hp hq hw hnew h => exact .inr ⟨conn, hw, h.connections⟩
  | rejects c hp hq h => exact .inl (by rw [h.connections]; simp [closeConnection])
  | shutsControl c hp hq h => exact .inl (by rw [h.connections]; simp [closeConnection])
  | binds call b cached conn hp hq hconn hlive hg h =>
      refine .inl (congrArg List.length (h.connections.trans ?_))
      unfold issued
      split <;> rfl
  | handles g r conn event hi hp hconn hevent hg h hq =>
      refine .inl (congrArg List.length (h.connections.trans ?_))
      unfold relay forgetIntent
      split <;> rfl
  | calm h | exits _ _ _ _ _ _ h | locks _ _ _ h | reads _ _ _ _ _ _ h | starts _ _ _ _ _ _ _ _ h
  | skips _ _ _ _ _ _ _ _ _ h | passes _ _ _ _ _ _ _ _ h | takes _ _ _ _ _ _ _ _ _ _ _ _ h
  | installs _ _ _ _ _ _ _ _ _ _ h | installsFirst _ _ _ _ _ _ _ _ _ h
  | records _ _ _ _ _ _ _ _ h | leaves _ _ _ _ _ h | putsBack _ _ _ _ _ h | shuts _ _ h
  | shutsVoice _ _ h | clears _ _ _ h =>
      exact .inl (congrArg List.length h.connections)

/-- A move of a task only asks workers to close. -/
theorem Effect.workersAsked (h : Effect env s t i q) : WorkersAsked s t := by
  have kept {u : Client V K} (h : Calm u t) (hu : u.workers = s.workers) : WorkersAsked s t := by
    intro w worker hw
    exact h.asked w worker (hu ▸ hw)
  cases h with
  | starts call b config reuse codec hp hq hcodec h =>
      intro w worker hw
      refine h.asked w worker ?_
      exact (List.getElem?_append_left (List.getElem?_eq_some_iff.mp hw).1).trans hw
  | binds call b cached conn hp hq hconn hlive hg h =>
      refine kept h ?_
      unfold issued
      split <;> rfl
  | handles g r conn event hi hp hconn hevent hg h hq =>
      refine kept h ?_
      unfold relay forgetIntent
      split <;> rfl
  | calm h | exits _ _ _ _ _ _ h | makes _ _ _ _ _ h | rejects _ _ _ h | locks _ _ _ h
  | reads _ _ _ _ _ _ h | skips _ _ _ _ _ _ _ _ _ h | passes _ _ _ _ _ _ _ _ h
  | takes _ _ _ _ _ _ _ _ _ _ _ _ h | installs _ _ _ _ _ _ _ _ _ _ h
  | installsFirst _ _ _ _ _ _ _ _ _ h | records _ _ _ _ _ _ _ _ h | leaves _ _ _ _ _ h
  | putsBack _ _ _ _ _ h | shuts _ _ h | shutsVoice _ _ h | shutsControl _ _ _ h
  | clears _ _ _ h =>
      exact kept h rfl

/-- **What an action does to a worker**: it is asked to close, or makes a turn. -/
theorem step_worker (h : s.step env a = some t) {w : ℕ} {worker : Worker K}
    (hw : s.workers[w]? = some worker) :
    ∃ worker', t.workers[w]? = some worker' ∧ (Worker.Asked worker worker' ∨
      ∃ input sealed, a = .worker w input ∧
        worker.step env.crypto input = some (worker', sealed)) := by
  have asked (h : WorkersAsked s t) : ∃ worker', t.workers[w]? = some worker' ∧
      (Worker.Asked worker worker' ∨ ∃ input sealed, a = .worker w input ∧
        worker.step env.crypto input = some (worker', sealed)) := by
    obtain ⟨worker', hw', hasked⟩ := h w worker hw
    exact ⟨worker', hw', .inl hasked⟩
  cases step_cases h with
  | call n c q result hp hm => exact asked hm.effect.workersAsked
  | resume i input q hp hm => exact asked hm.effect.workersAsked
  | install i input c conn hp hconn hstopped ht => subst ht; exact ⟨worker, hw, .inl (.inl rfl)⟩
  | abort i input hp ht => subst ht; exact ⟨worker, hw, .inl (.inl rfl)⟩
  | engine c input conn next hconn hstep ht => subst ht; exact ⟨worker, hw, .inl (.inl rfl)⟩
  | close c ht => subst ht; exact ⟨worker, hw, .inl (.inl rfl)⟩
  | worker w' input before next sealed keyCache hbefore hstep ht =>
      subst ht
      by_cases hww : w' = w
      · subst hww
        rw [hbefore] at hw
        cases hw
        have hlt : w' < s.workers.length := (List.getElem?_eq_some_iff.mp hbefore).1
        exact ⟨next, by simp [hlt], .inr ⟨input, sealed, rfl, hstep⟩⟩
      · exact ⟨worker, by rw [List.getElem?_set_ne hww, hw], .inl (.inl rfl)⟩

/-- Only its own actions move a host. -/
theorem step_host_pc (h : s.step env a = some t) {n : ℕ} (hcall : ∀ c, a ≠ .call n c)
    (hresume : ∀ input, a ≠ .resume (.host n) input) :
    t.tasks.pc (.host n) = s.tasks.pc (.host n) := by
  have hother {i : Task} {input : Input} (ha : a = .resume i input) : Task.host n ≠ i := by
    rintro rfl
    exact hresume input ha
  cases step_cases h with
  | call m c q result hp hm =>
      have hne : Task.host n ≠ .host m := fun he => by
        cases he
        exact hcall c rfl
      rw [hm.pc, Function.update_of_ne hne]
  | resume i input q hp hm => rw [hm.pc, Function.update_of_ne (hother rfl)]
  | install i input c conn hp hconn hstopped ht =>
      rw [ht]
      simp [goto, Gate.Tasks.goto, hother rfl]
  | abort i input hp ht =>
      rw [ht]
      simp [shutdownFinish, goto, Gate.Tasks.goto, hother rfl]
  | engine c input conn next hconn hstep ht => rw [ht]
  | close c ht => rw [ht]; rfl
  | worker w input worker next sealed keyCache hworker hstep ht => rw [ht]

/-- Asking a connection to close publishes nothing. -/
theorem closeConnection_sent {c : ℕ} {conn : Connection V} (hconn : s.connection? c = some conn)
    (c' : ℕ) :
    ∃ conn', (s.closeConnection c').connection? c = some conn' ∧ conn'.sent = conn.sent := by
  rw [connection?] at hconn
  by_cases hc : c' = c
  · exact ⟨{ conn with stopped := true }, by simp [connection?, closeConnection, hc, hconn], rfl⟩
  · exact ⟨conn, by simp [connection?, closeConnection, hc, hconn], rfl⟩

/-- A move publishes nothing. -/
theorem Effect.sent (h : Effect env s t i q) {c : ℕ} {conn : Connection V}
    (hconn : s.connection? c = some conn) :
    ∃ conn', t.connection? c = some conn' ∧ conn'.sent = conn.sent := by
  have same {base : Client V K} (hq : Quiet base t) (hbase : base.connections = s.connections) :
      ∃ conn', t.connection? c = some conn' ∧ conn'.sent = conn.sent := by
    refine ⟨conn, ?_, rfl⟩
    rw [connection?, hq.connections, hbase]
    exact hconn
  have closed {base : Client V K} {c' : ℕ} (hq : Quiet (base.closeConnection c') t)
      (hbase : base.connections = s.connections) :
      ∃ conn', t.connection? c = some conn' ∧ conn'.sent = conn.sent := by
    rw [connection?, hq.connections]
    rw [connection?, ← hbase] at hconn
    exact closeConnection_sent hconn c'
  cases h with
  | makes conn' hp hq hw hnew h =>
      refine ⟨conn, ?_, rfl⟩
      rw [connection?, h.connections]
      exact (List.getElem?_append_left (List.getElem?_eq_some_iff.mp hconn).1).trans hconn
  | rejects c' hp hq h => exact closed h.toQuiet rfl
  | shutsControl c' hp hq h => exact closed h.toQuiet rfl
  | binds call b cached conn' hp hq hconn' hlive hg h =>
      refine same h.toQuiet ?_
      unfold issued
      split <;> rfl
  | handles g r conn' event hi hp hconn' hevent hg h hq =>
      refine same h.toQuiet ?_
      unfold relay forgetIntent
      split <;> rfl
  | calm h | exits _ _ _ _ _ _ h | locks _ _ _ h | reads _ _ _ _ _ _ h | starts _ _ _ _ _ _ _ _ h
  | skips _ _ _ _ _ _ _ _ _ h | passes _ _ _ _ _ _ _ _ h | takes _ _ _ _ _ _ _ _ _ _ _ _ h
  | installs _ _ _ _ _ _ _ _ _ _ h | installsFirst _ _ _ _ _ _ _ _ _ h
  | records _ _ _ _ _ _ _ _ h | leaves _ _ _ _ _ h | putsBack _ _ _ _ _ h | shuts _ _ h
  | shutsVoice _ _ h | clears _ _ _ h =>
      exact same h.toQuiet rfl

theorem Change.connections (h : Change env s t a) :
    t.connections.length = s.connections.length ∨
      ∃ conn : Connection V, conn.WellFormed ∧ t.connections = s.connections ++ [conn] := by
  cases h with
  | call n c q result hp h => exact h.effect.connections
  | resume i input q hp h => exact h.effect.connections
  | install i input c conn hp hconn hstopped ht => subst ht; exact .inl rfl
  | abort i input hp ht => subst ht; exact .inl rfl
  | engine c input conn next hconn hstep ht => subst ht; exact .inl (by simp)
  | close c ht => subst ht; exact .inl (by simp [closeConnection])
  | worker w input worker next sealed keyCache hworker hstep ht => subst ht; exact .inl rfl

theorem Change.connectionsSound (hs : s.ConnectionsSound) (h : Change env s t a) :
    t.ConnectionsSound := by
  intro c conn hconn
  cases hold : s.connection? c with
  | some conn' =>
      obtain ⟨conn'', hconn'', hf⟩ := (h.grows hs).connections c conn' hold
      rw [hconn] at hconn''
      cases hconn''
      exact hf.wellFormed
  | none =>
      have hge : s.connections.length ≤ c := List.getElem?_eq_none_iff.mp hold
      have hlt : c < t.connections.length := (List.getElem?_eq_some_iff.mp hconn).1
      rcases h.connections with hlen | ⟨new, hw, heq⟩
      · omega
      · have hc : c = s.connections.length := by
          rw [heq, List.length_append, List.length_singleton] at hlt
          omega
        rw [connection?, heq, hc, List.getElem?_concat_length] at hconn
        cases hconn
        exact hw

/-! ### Consequences -/

namespace Grows

variable {c v n : ℕ} {x : Session}

theorem getElem?_installed (h : Grows s t) (hn : s.history.installed[n]? = some c) :
    t.history.installed[n]? = some c := by
  obtain ⟨rest, hrest⟩ := h.installed
  rw [← hrest, List.getElem?_append_left (List.getElem?_eq_some_iff.mp hn).1, hn]

theorem getElem?_sessions (h : Grows s t) (hx : s.sessions[v]? = some x) :
    t.sessions[v]? = some x := by
  obtain ⟨rest, hrest⟩ := h.sessions
  rw [← hrest, List.getElem?_append_left (List.getElem?_eq_some_iff.mp hx).1, hx]

theorem isClosed (h : Grows s t) (hc : s.isClosed c = true) : t.isClosed c = true := by
  obtain ⟨conn, hconn, hclosed⟩ := (Option.any_eq_true _ _).mp hc
  obtain ⟨conn', hconn', hf⟩ := h.connections c conn hconn
  refine (Option.any_eq_true _ _).mpr ⟨conn', hconn', ?_⟩
  simpa using hf.closed (by simpa using hclosed)

theorem hasStopped (h : Grows s t) (hv : s.HasStopped v) : t.HasStopped v := by
  obtain ⟨x, worker, hx, hworker, hterm⟩ := hv
  obtain ⟨worker', hworker', -, hkept⟩ := h.workers _ worker hworker
  exact ⟨x, worker', h.getElem?_sessions hx, hworker', hkept hterm⟩

/-- A session that runs has run since it was installed. -/
theorem isRunning (h : Grows s t) (hx : s.sessions[v]? = some x)
    (hw : x.transport < s.workers.length) (hr : t.isRunning v = true) : s.isRunning v = true := by
  by_contra hn
  have hstopped : s.HasStopped v := by
    refine ⟨x, _, hx, List.getElem?_eq_getElem hw, ?_⟩
    simpa [Client.isRunning, hx, List.getElem?_eq_getElem hw] using hn
  rw [(h.hasStopped hstopped).not_running] at hr
  cases hr

end Grows

/-! ## Mutexes and relays -/

/-- Where the relay of generation `g` is. -/
def RelaySound (s : Client V K) (g : ℕ) (p : Pc V) : Prop :=
  p = .relayExited ∨ ∃ (r : Relay) (conn : Connection V), p.relay? = some r ∧ 1 ≤ g ∧
    s.history.installed[g - 1]? = some r.connection ∧
    s.connection? r.connection = some conn ∧ r.next ≤ conn.sent.length

/-- The mutexes and the relays. -/
structure TasksSound (s : Client V K) : Prop where
  generation : s.connectionGeneration = s.history.installed.length
  /-- The voice gate is held by the task that is between acquiring and releasing it. -/
  gate : s.tasks.Exclusive fun p => p.holdsGate = true
  /-- So is the mutex around the control connection. -/
  mutex : (⟨s.controlHolder, s.tasks.pc⟩ : Gate.Tasks Task (Pc V)).Exclusive
    fun p => p.holdsControl = true
  host : ∀ n, (s.tasks.pc (.host n)).relay? = none
  relay : ∀ g, s.RelaySound g (s.tasks.pc (.relay g))

theorem RelaySound.mono (hg : Grows s t) {g : ℕ} {p : Pc V} (h : s.RelaySound g p) :
    t.RelaySound g p := by
  rcases h with h | ⟨r, conn, hr, hle, hinstalled, hconn, hnext⟩
  · exact .inl h
  · obtain ⟨conn', hconn', hf⟩ := hg.connections _ conn hconn
    obtain ⟨evs, hsent⟩ := hf.events
    refine .inr ⟨r, conn', hr, hle, hg.getElem?_installed hinstalled, hconn', ?_⟩
    rw [hsent, List.length_append]
    omega

/-- How a task's move changes the relay it carries. -/
theorem Effect.relay (h : Effect env s t i q) :
    q.relay? = (s.tasks.pc i).relay? ∨
      (q = .relayExited ∧ ∃ g, i = .relay g ∧ s.connectionGeneration ≠ g) ∨
      ∃ (r : Relay) (conn : Connection V) (next : ℕ), s.tasks.pc i = .relayReceive r ∧
        s.connection? r.connection = some conn ∧ next ≤ conn.sent.length ∧
        q.relay? = some { r with next := next } := by
  cases h with
  | calm h le => exact .inl le.relay
  | exits g r hi hp hq hg h => exact .inr (.inl ⟨hq, g, hi, hg⟩)
  | skips g r conn next hi hp hq hconn hskip h =>
      refine .inr (.inr ⟨r, conn, next, hp, hconn, ?_, by rw [hq]; rfl⟩)
      rcases hskip with ⟨-, rfl⟩ | ⟨-, hlt, rfl⟩ <;> omega
  | handles g r conn event hi hp hconn hevent hg h hq =>
      have hlt : r.next < conn.sent.length := (List.getElem?_eq_some_iff.mp hevent).1
      refine .inr (.inr ⟨r, conn, r.next + 1, hp, hconn, hlt, ?_⟩)
      rcases hq with ⟨-, rfl⟩ | ⟨-, rfl⟩ | ⟨intent, -, -, -, rfl⟩ <;> rfl
  | installsFirst call b w reuse conn x hp hq hx h => exact .inl (by rw [hp, hq.1.relay]; rfl)
  | records call previous v reuse x hp hq hx h => exact .inl (by rw [hp, hq.1.relay]; rfl)
  | shutsVoice hp hq h => exact .inl (by rw [hp, hq.relay]; rfl)
  | putsBack session result hp hq hrelay h => exact .inl (by rw [hq, hrelay]; rfl)
  | locks hq hp | makes _ hp hq | rejects _ hp hq | reads _ _ hp hq | binds _ _ _ _ hp hq
  | starts _ _ _ _ _ hp hq | passes _ _ _ _ hp hq | takes _ _ _ _ _ _ hp hq
  | installs _ _ _ _ _ _ _ hp hq | leaves _ _ hp hq | shuts hp hq | shutsControl _ hp hq
  | clears hp hq =>
      exact .inl (by rw [hp, hq]; rfl)

/-- A task moves as a relay, or leaves everything a relay does as it is. -/
theorem Effect.relay_cases (h : Effect env s t i q) :
    (∃ g, i = .relay g ∧ RelayMove s t g q) ∨ Still s t i q := by
  cases h with
  | exits g r hi hp hq hg h =>
      subst hi
      exact .inl ⟨g, rfl, .exits r hp hg hq h⟩
  | skips g r conn next hi hp hq hconn hskip h =>
      subst hi
      exact .inl ⟨g, rfl, .skips r conn next hp hq hconn hskip h⟩
  | handles g r conn event hi hp hconn hevent hg h hq =>
      subst hi
      refine .inl ⟨g, rfl, .handles r conn event hp hconn hevent hg h ?_ ?_⟩
      · rcases hq with ⟨-, rfl⟩ | ⟨-, rfl⟩ | ⟨intent, -, -, -, rfl⟩ <;> rfl
      · rcases hq with ⟨hstop, rfl⟩ | ⟨hstop, rfl⟩ | ⟨intent, rfl, -, -, rfl⟩
        · rw [if_pos hstop]; rfl
        · rw [hstop]; rfl
        · rfl
  | passes g r event hi hp hq hfree hv h =>
      subst hi
      exact .inl ⟨g, rfl, .passes r event hp hq hfree hv h⟩
  | takes g r event v x hi hp hq hfree hv hx hg h =>
      subst hi
      exact .inl ⟨g, rfl, .takes r event v x hp hq hfree hv hx hg h⟩
  | calm h le => exact .inr ⟨le.relay, le.stop, h.stops, h.forgets⟩
  | installsFirst call b w reuse conn x hp hq hx h =>
      exact .inr ⟨by rw [hp, hq.1.relay]; rfl, by rw [hp, hq.1.stop]; rfl, h.stops, h.forgets⟩
  | records call previous v reuse x hp hq hx h =>
      exact .inr ⟨by rw [hp, hq.1.relay]; rfl, by rw [hp, hq.1.stop]; rfl, h.stops, h.forgets⟩
  | shutsVoice hp hq h =>
      exact .inr ⟨by rw [hp, hq.relay]; rfl, by rw [hp, hq.stop]; rfl, h.stops, h.forgets⟩
  | putsBack session result hp hq hrelay h =>
      refine .inr ⟨by rw [hq, hrelay]; rfl, ?_, h.stops, h.forgets⟩
      rw [hq, Pc.stop?_of_relay? hrelay]
      rfl
  | binds call b cached conn hp hq hconn hlive hg h =>
      refine .inr ⟨by rw [hp, hq]; rfl, by rw [hp, hq]; rfl, h.stops.trans ?_, h.forgets.trans ?_⟩
      all_goals
        unfold issued
        split <;> rfl
  | locks hq hp _ h | makes _ hp hq _ _ h | rejects _ hp hq h | reads _ _ hp hq _ _ h
  | starts _ _ _ _ _ hp hq _ h | installs _ _ _ _ _ _ _ hp hq _ h | leaves _ _ hp hq _ h
  | shuts hp hq h | shutsControl _ hp hq h | clears hp hq _ h =>
      exact .inr ⟨by rw [hp, hq]; rfl, by rw [hp, hq]; rfl, h.stops, h.forgets⟩

theorem Effect.generation (h : Effect env s t i q) :
    t.connectionGeneration = s.connectionGeneration ∧
      t.history.installed = s.history.installed := by
  cases h with
  | binds call b cached conn hp hq hconn hlive hg h =>
      refine ⟨h.generation.trans ?_, h.installed.trans ?_⟩
      all_goals
        unfold issued
        split <;> rfl
  | handles g r conn event hi hp hconn hevent hg h hq =>
      refine ⟨h.generation.trans ?_, h.installed.trans ?_⟩
      all_goals
        unfold Client.relay forgetIntent
        split <;> rfl
  | calm h | exits _ _ _ _ _ _ h | locks _ _ _ h | makes _ _ _ _ _ h | rejects _ _ _ h
  | reads _ _ _ _ _ _ h | starts _ _ _ _ _ _ _ _ h | skips _ _ _ _ _ _ _ _ _ h
  | passes _ _ _ _ _ _ _ _ h | takes _ _ _ _ _ _ _ _ _ _ _ _ h
  | installs _ _ _ _ _ _ _ _ _ _ h | installsFirst _ _ _ _ _ _ _ _ _ h
  | records _ _ _ _ _ _ _ _ h | leaves _ _ _ _ _ h | putsBack _ _ _ _ _ h | shuts _ _ h
  | shutsVoice _ _ h | shutsControl _ _ _ h | clears _ _ _ h =>
      exact ⟨h.generation, h.installed⟩

theorem Locks.gate_exclusive (hl : Locks s t i q)
    (hpc : t.tasks.pc = Function.update s.tasks.pc i q)
    (h : s.tasks.Exclusive fun p => p.holdsGate = true) :
    t.tasks.Exclusive fun p => p.holdsGate = true := by
  refine h.move hpc ?_
  rcases hl.gate with hg | hg | ⟨hp, hn, hq⟩
  · exact .inl hg
  · exact .inr (.inl hg)
  · exact .inr (.inr ⟨hp, hn, by rw [hq]; intro h; cases h⟩)

theorem Locks.mutex_exclusive (hl : Locks s t i q)
    (hpc : t.tasks.pc = Function.update s.tasks.pc i q)
    (h : (⟨s.controlHolder, s.tasks.pc⟩ : Gate.Tasks Task (Pc V)).Exclusive
      fun p => p.holdsControl = true) :
    (⟨t.controlHolder, t.tasks.pc⟩ : Gate.Tasks Task (Pc V)).Exclusive
      fun p => p.holdsControl = true := by
  refine h.move hpc ?_
  rcases hl.control with hc | hc | ⟨hp, hn, hq⟩
  · exact .inl hc
  · exact .inr (.inl hc)
  · exact .inr (.inr ⟨hp, hn, by rw [hq]; intro h; cases h⟩)

theorem Moved.tasksSound (hs : s.TasksSound) (hg : Grows s t) (h : Moved env s t i q)
    (hlive : s.tasks.pc i ≠ .relayExited) : t.TasksSound := by
  obtain ⟨hgeneration, hinstalled⟩ := h.effect.generation
  refine ⟨by rw [hgeneration, hinstalled, hs.generation], h.locks.gate_exclusive h.pc hs.gate,
    h.locks.mutex_exclusive h.pc hs.mutex, ?_, ?_⟩
  · intro n
    rw [h.pc]
    by_cases hi : Task.host n = i
    · subst hi
      rw [Function.update_self]
      rcases h.effect.relay with hr | ⟨hr, -⟩ | ⟨r, conn, next, hp, -⟩
      · rw [hr, hs.host n]
      · rw [hr]; rfl
      · have := hs.host n
        rw [hp] at this
        cases this
    · rw [Function.update_of_ne hi]
      exact hs.host n
  · intro g
    rw [h.pc]
    by_cases hi : Task.relay g = i
    · subst hi
      rw [Function.update_self]
      rcases hs.relay g with hexit | ⟨r, conn, hr, hle, hinst, hconn, hnext⟩
      · exact absurd hexit hlive
      · rcases h.effect.relay with heq | ⟨heq, -⟩ | ⟨r', conn', next, hp, hconn', hle', heq⟩
        · exact .mono hg (.inr ⟨r, conn, heq.trans hr, hle, hinst, hconn, hnext⟩)
        · exact .inl heq
        · rw [hp] at hr
          cases hr
          exact .mono hg (.inr ⟨_, conn', heq, hle, hinst, hconn', hle'⟩)
    · rw [Function.update_of_ne hi]
      exact (hs.relay g).mono hg

/-- Actions that move no task. -/
theorem TasksSound.of_eq (hs : s.TasksSound) (hg : Grows s t) (htasks : t.tasks = s.tasks)
    (hholder : t.controlHolder = s.controlHolder)
    (hgeneration : t.connectionGeneration = s.connectionGeneration)
    (hinstalled : t.history.installed = s.history.installed) : t.TasksSound := by
  refine ⟨by rw [hgeneration, hinstalled, hs.generation], by rw [htasks]; exact hs.gate,
    by rw [htasks, hholder]; exact hs.mutex, ?_, ?_⟩
  · intro n
    rw [htasks]
    exact hs.host n
  · intro g
    rw [htasks]
    exact (hs.relay g).mono hg

/-- A task at a counter without a relay is a host. -/
theorem TasksSound.exists_host (hs : s.TasksSound) (hr : (s.tasks.pc i).relay? = none)
    (hlive : s.tasks.pc i ≠ .relayExited) : ∃ n, i = .host n := by
  cases i with
  | host n => exact ⟨n, rfl⟩
  | relay g =>
      rcases hs.relay g with hexit | ⟨r, conn, hr', -⟩
      · exact absurd hexit hlive
      · rw [hr] at hr'
        cases hr'

/-- No relay holds the control mutex. -/
theorem TasksSound.not_holdsControl (hs : s.TasksSound) (g : ℕ) :
    ¬ (s.tasks.pc (.relay g)).holdsControl = true := by
  rcases hs.relay g with hexit | ⟨r, conn, hr, -⟩
  · rw [hexit]
    intro h
    cases h
  · intro h
    cases hpc : s.tasks.pc (.relay g) with
    | connectSnapshot | connectInstall | connectAbort | shutdownClosing =>
        rw [hpc] at hr
        cases hr
    | _ =>
        rw [hpc] at h
        cases h

/-- Only a host shuts the client down. -/
theorem TasksSound.exists_host_of_silences (hs : s.TasksSound)
    (hp : (s.tasks.pc i).silences = true) : ∃ n, i = .host n := by
  refine hs.exists_host ?_ ?_
  · cases hpc : s.tasks.pc i with
    | teardown session k => rw [hpc] at hp; cases k <;> first | rfl | cases hp
    | stopping session k => rw [hpc] at hp; cases k <;> first | rfl | cases hp
    | leaving session k => rw [hpc] at hp; cases k <;> first | rfl | cases hp
    | shutdownControl | shutdownClosing | shutdownAborting => rfl
    | _ => rw [hpc] at hp; cases hp
  · intro hexit
    rw [hexit] at hp
    cases hp

/-- The state after `connect` installed connection `c`. -/
theorem tasksSound_install (hs : s.TasksSound) (hg : Grows s t) {c : ℕ} {conn : Connection V}
    (hp : s.tasks.pc i = .connectInstall c) (hconn : s.connection? c = some conn)
    (ht : t = ({ s with
      connectionGeneration := s.connectionGeneration + 1
      state := some c
      control := some c
      controlHolder := none
      history := { s.history with installed := s.history.installed ++ [c] } }.goto
        (.relay (s.connectionGeneration + 1))
        (.relayTop ⟨c, conn.sent.length⟩)).goto i (.returned (.ok ()))) : t.TasksSound := by
  obtain ⟨n, rfl⟩ := hs.exists_host (i := i) (by rw [hp]; rfl) (by rw [hp]; intro h; cases h)
  have hpc : t.tasks.pc = Function.update (Function.update s.tasks.pc
      (.relay (s.connectionGeneration + 1)) (.relayTop ⟨c, conn.sent.length⟩)) (.host n)
      (.returned (.ok ())) := by
    rw [ht]; rfl
  -- No relay of the next generation has started yet.
  have hnext : s.tasks.pc (.relay (s.connectionGeneration + 1)) = .relayExited := by
    rcases hs.relay (s.connectionGeneration + 1) with h | ⟨r, _, -, -, hinst, -⟩
    · exact h
    · rw [Nat.add_sub_cancel, hs.generation, List.getElem?_eq_none (Nat.le_refl _)] at hinst
      cases hinst
  have hmid {holds : Pc V → Prop} (holder : Option Task)
      (h : (⟨holder, s.tasks.pc⟩ : Gate.Tasks Task (Pc V)).Exclusive holds)
      (hexit : ¬ holds .relayExited) (htop : ¬ holds (.relayTop ⟨c, conn.sent.length⟩)) :
      (⟨holder, Function.update s.tasks.pc (.relay (s.connectionGeneration + 1))
        (.relayTop ⟨c, conn.sent.length⟩)⟩ : Gate.Tasks Task (Pc V)).Exclusive holds :=
    h.move rfl (.inl ⟨rfl, by simp [hnext, hexit, htop]⟩)
  have hhost : Function.update s.tasks.pc (.relay (s.connectionGeneration + 1))
      (.relayTop ⟨c, conn.sent.length⟩) (.host n) = .connectInstall c := by
    rw [Function.update_of_ne (by intro h; cases h), hp]
  refine ⟨?_, ?_, ?_, ?_, ?_⟩
  · rw [ht]
    simp [goto, hs.generation]
  · refine (hmid s.tasks.holder hs.gate (by intro h; cases h)
      (by intro h; cases h)).move hpc (.inl ⟨by rw [ht]; rfl, ?_⟩)
    simp only [hhost]
    exact ⟨(fun h => by cases h), (fun h => by cases h)⟩
  · refine (hmid s.controlHolder hs.mutex (by intro h; cases h)
      (by intro h; cases h)).move hpc
      (.inr (.inr ⟨?_, by rw [ht]; rfl, by intro h; cases h⟩))
    simp only [hhost]
    rfl
  · intro m
    rw [hpc]
    by_cases hm : m = n
    · subst hm
      rw [Function.update_self]
      rfl
    · rw [Function.update_of_ne (by simpa using hm), Function.update_of_ne (by intro h; cases h)]
      exact hs.host m
  · intro g
    rw [hpc, Function.update_of_ne (by intro h; cases h)]
    by_cases hge : g = s.connectionGeneration + 1
    · subst hge
      rw [Function.update_self]
      refine .inr ⟨⟨c, conn.sent.length⟩, conn, rfl, Nat.le_add_left _ _, ?_, ?_, Nat.le_refl _⟩
      · rw [ht, Nat.add_sub_cancel, hs.generation]
        exact List.getElem?_concat_length
      · rw [ht]
        exact hconn
    · rw [Function.update_of_ne (by simpa using hge)]
      exact (hs.relay g).mono hg

/-- The await points after shutdown aborted the relays. -/
theorem shutdownFinish_pc (s : Client V K) (n m : ℕ) :
    (s.shutdownFinish (.host n)).tasks.pc (.host m) =
      if m = n then .returned (.ok ()) else s.tasks.pc (.host m) := by
  by_cases hm : m = n
  · simp [shutdownFinish, goto, Gate.Tasks.goto, hm]
  · simp [shutdownFinish, goto, Gate.Tasks.goto, hm]

theorem shutdownFinish_pc_relay (s : Client V K) (n g : ℕ) :
    (s.shutdownFinish (.host n)).tasks.pc (.relay g) = .relayExited := by
  simp [shutdownFinish, goto, Gate.Tasks.goto]

theorem tasksSound_abort (hs : s.TasksSound) (hp : s.tasks.pc i = .shutdownAborting)
    (ht : t = s.shutdownFinish i) : t.TasksSound := by
  obtain ⟨n, rfl⟩ := hs.exists_host_of_silences (by rw [hp]; rfl)
  have hhost (m : ℕ) : t.tasks.pc (.host m) =
      if m = n then .returned (.ok ()) else s.tasks.pc (.host m) := by
    rw [ht, shutdownFinish_pc]
  have hrelay (g : ℕ) : t.tasks.pc (.relay g) = .relayExited := by
    rw [ht, shutdownFinish_pc_relay]
  refine ⟨by rw [ht]; exact hs.generation, ?_, ?_, ?_, fun g => .inl (hrelay g)⟩
  · intro j
    have hholder : t.tasks.holder = some j ↔ s.tasks.holder = some j ∧ ∃ m, j = .host m := by
      rw [ht]
      simp only [shutdownFinish, goto, Gate.Tasks.goto]
      cases s.tasks.holder with
      | none => simp
      | some k =>
          cases k with
          | host m =>
              simp only [Option.some.injEq]
              exact ⟨fun h => ⟨h, m, h.symm⟩, fun h => h.1⟩
          | relay g =>
              simp only [Option.some.injEq, reduceCtorEq, false_iff, not_and]
              rintro rfl ⟨m, hm⟩
              cases hm
    rw [hholder]
    cases j with
    | relay g => simp [hrelay g, Pc.holdsGate]
    | host m =>
        rw [hhost m]
        simp only [Task.host.injEq, exists_eq', and_true]
        by_cases hm : m = n
        · subst hm
          rw [if_pos rfl]
          exact (hs.gate (.host m)).trans (iff_of_false (by simp [hp, Pc.holdsGate])
            (fun h => by cases h))
        · rw [if_neg hm]
          exact hs.gate (.host m)
  · intro j
    have hsame : t.controlHolder = s.controlHolder := by rw [ht]; rfl
    show t.controlHolder = some j ↔ (t.tasks.pc j).holdsControl = true
    rw [hsame]
    refine (hs.mutex j).trans ?_
    show (s.tasks.pc j).holdsControl = true ↔ (t.tasks.pc j).holdsControl = true
    cases j with
    | relay g =>
        rw [hrelay g]
        exact iff_of_false (hs.not_holdsControl g) (fun h => by cases h)
    | host m =>
        rw [hhost m]
        by_cases hm : m = n
        · subst hm
          rw [if_pos rfl, hp]
          exact iff_of_false (fun h => by cases h) (fun h => by cases h)
        · rw [if_neg hm]
  · intro m
    rw [hhost m]
    split
    · rfl
    · exact hs.host m

/-- **Every action keeps the mutexes and the relays in order.** -/
theorem Change.tasksSound (hc : s.ConnectionsSound) (hs : s.TasksSound) (h : Change env s t a) :
    t.TasksSound := by
  have hg := h.grows hc
  cases h with
  | call n c q result hp h =>
      exact h.tasksSound hs hg (by rw [hp]; intro h; cases h)
  | resume i input q hp h => exact h.tasksSound hs hg hp
  | install i input c conn hp hconn hstopped ht => exact tasksSound_install hs hg hp hconn ht
  | abort i input hp ht => exact tasksSound_abort hs hp ht
  | engine c input conn next hconn hstep ht => subst ht; exact hs.of_eq hg rfl rfl rfl rfl
  | close c ht => subst ht; exact hs.of_eq hg rfl rfl rfl rfl
  | worker w input worker next sealed keyCache hworker hstep ht =>
      subst ht
      exact hs.of_eq hg rfl rfl rfl rfl

end Client

end ZephyrVox.Sdk
