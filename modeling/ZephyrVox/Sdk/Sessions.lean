import ZephyrVox.Sdk.Tasks

/-!
# Control connections and sessions

What holds of the control connection and of the voice sessions whatever the
schedule: a join is bound to the connection that was installed as its generation,
a connection is replaced only after it closed, and every session names the stream
it was installed on and where.

## Main definitions

* `ControlSound` — the control connection and its generations.
* `SessionsSound` — sessions, remembered joins and withdrawals.
* `Sound`, `Sound.step` — all invariants, kept by every action.
-/

namespace ZephyrVox.Sdk

open Realtime Voice

namespace Client

variable {V K : Type} {env : Env V K} {s t u : Client V K} {i : Task} {q : Pc V} {a : Action V}

/-! ## The roles a move gives -/

theorem Effect.connects (h : Effect env s t i q) (hq : q.connects = true) :
    (s.tasks.pc i).connects = true ∨
      ∀ c conn, s.control = some c → s.connection? c = some conn → conn.status = .closed := by
  cases h with
  | calm h le => exact .inl (le.connects hq)
  | locks _ hp hc h => exact .inr hc
  | makes conn hp => exact .inl (by rw [hp]; rfl)
  | installsFirst _ _ _ _ _ _ _ hle | records _ _ _ _ _ _ hle => exact by cases hle.1.connects hq
  | shutsVoice _ hle => exact by cases hle.connects hq
  | handles _ _ _ _ _ _ _ _ _ _ heq =>
      rcases heq with ⟨-, rfl⟩ | ⟨-, rfl⟩ | ⟨intent, -, -, -, rfl⟩ <;> cases hq
  | _ => subst_vars; cases hq

theorem Effect.reading (h : Effect env s t i q) {c : ℕ} (hq : q.reading? = some c) :
    (s.tasks.pc i).reading? = some c ∨ s.control = some c := by
  have inherited {p : Pc V} (he : q.reading? = none ∨ q.reading? = p.reading?) :
      p.reading? = some c := by
    rcases he with he | he
    · rw [he] at hq; cases hq
    · rw [← he, hq]
  cases h with
  | calm h le => exact .inl (inherited le.reading)
  | reads call c' hp heq hc => subst heq; cases hq; exact .inr hc
  | installsFirst _ _ _ _ _ _ _ hle | records _ _ _ _ _ _ hle => cases inherited hle.1.reading
  | shutsVoice _ hle => cases inherited hle.reading
  | handles _ _ _ _ _ _ _ _ _ _ heq =>
      rcases heq with ⟨-, rfl⟩ | ⟨-, rfl⟩ | ⟨intent, -, -, -, rfl⟩ <;> cases hq
  | _ => subst_vars; cases hq

theorem Effect.bound (h : Effect env s t i q) {b : Binding} (hq : q.bound? = some b) :
    (s.tasks.pc i).bound? = some b ∨
      ((s.tasks.pc i).reading? = some b.control ∧ b.generation = s.connectionGeneration ∧
        ∃ conn, s.connection? b.control = some conn ∧ conn.status = .live) := by
  have inherited {p : Pc V} (he : q.bound? = none ∨ q.bound? = p.bound?) : p.bound? = some b := by
    rcases he with he | he
    · rw [he] at hq; cases hq
    · rw [← he, hq]
  cases h with
  | calm h le => exact .inl (inherited le.bound)
  | binds call b' cached conn hp heq hconn hlive hg h =>
      subst heq
      cases hq
      exact .inr ⟨by rw [hp]; rfl, hg, conn, hconn, hlive⟩
  | starts call b' config reuse codec hp heq => subst heq; cases hq; exact .inl (by rw [hp]; rfl)
  | installsFirst _ _ _ _ _ _ _ hle | records _ _ _ _ _ _ hle => cases inherited hle.1.bound
  | shutsVoice _ hle => cases inherited hle.bound
  | handles _ _ _ _ _ _ _ _ _ _ heq =>
      rcases heq with ⟨-, rfl⟩ | ⟨-, rfl⟩ | ⟨intent, -, -, -, rfl⟩ <;> cases hq
  | _ => subst_vars; cases hq

theorem Effect.shuts_or (h : Effect env s t i q) (hq : q.shuts = true) :
    (s.tasks.pc i).shuts = true ∨ (s.stopped = false ∧ t.stopped = true) := by
  cases h with
  | calm h le => exact .inl (le.shuts hq)
  | shuts hp heq h hrunning => exact .inr ⟨hrunning, h.stopped⟩
  | shutsVoice hp hle => exact .inl (by rw [hp]; rfl)
  | shutsControl c hp | clears hp => exact .inl (by rw [hp]; rfl)
  | installsFirst _ _ _ _ _ _ _ hle | records _ _ _ _ _ _ hle => exact by cases hle.1.shuts hq
  | handles _ _ _ _ _ _ _ _ _ _ heq =>
      rcases heq with ⟨-, rfl⟩ | ⟨-, rfl⟩ | ⟨intent, -, -, -, rfl⟩ <;> cases hq
  | _ => subst_vars; cases hq

theorem Effect.closes (h : Effect env s t i q) (hq : q.closes = true) :
    (s.tasks.pc i).closes = true ∨ t.control = none := by
  cases h with
  | calm h le => exact .inl (le.closes hq)
  | shutsControl c hp heq h => exact .inr h.control
  | clears hp heq hc h => exact .inr (h.control.trans hc)
  | shutsVoice _ hle => exact by cases hle.closes hq
  | installsFirst _ _ _ _ _ _ _ hle | records _ _ _ _ _ _ hle => exact by cases hle.1.closes hq
  | handles _ _ _ _ _ _ _ _ _ _ heq =>
      rcases heq with ⟨-, rfl⟩ | ⟨-, rfl⟩ | ⟨intent, -, -, -, rfl⟩ <;> cases hq
  | _ => subst_vars; cases hq

theorem Effect.leaving (h : Effect env s t i q) {v : ℕ} (hq : q.leaving? = some v) :
    (s.tasks.pc i).leaving? = some v ∨ s.HasStopped v := by
  have inherited {p : Pc V} (he : q.leaving? = none ∨ q.leaving? = p.leaving?) :
      p.leaving? = some v := by
    rcases he with he | he
    · rw [he] at hq; cases hq
    · rw [← he, hq]
  cases h with
  | calm h le => exact .inl (inherited le.leaving)
  | leaves session viaClient hp heq hstopped => subst heq; cases hq; exact .inr hstopped
  | installsFirst _ _ _ _ _ _ _ hle | records _ _ _ _ _ _ hle => cases inherited hle.1.leaving
  | shutsVoice _ hle => cases inherited hle.leaving
  | handles _ _ _ _ _ _ _ _ _ _ heq =>
      rcases heq with ⟨-, rfl⟩ | ⟨-, rfl⟩ | ⟨intent, -, -, -, rfl⟩ <;> cases hq
  | _ => subst_vars; cases hq

/-- What a move does to the control connection. -/
theorem Effect.control (h : Effect env s t i q) :
    t.control = s.control ∨ (t.control = none ∧ ((s.tasks.pc i).shuts = true ∨
      ∀ c conn, s.control = some c → s.connection? c = some conn → conn.status = .closed)) := by
  cases h with
  | locks _ hp hc h => exact .inr ⟨h.control, .inr hc⟩
  | shutsControl c hp heq h => exact .inr ⟨h.control, .inl (by rw [hp]; rfl)⟩
  | binds call b cached conn hp hq hconn hlive hg h =>
      refine .inl (h.control.trans ?_)
      unfold issued
      split <;> rfl
  | handles g r conn event hi hp hconn hevent hg h hq =>
      refine .inl (h.control.trans ?_)
      unfold Client.relay forgetIntent
      split <;> rfl
  | calm h | exits _ _ _ _ _ _ h | makes _ _ _ _ _ h | rejects _ _ _ h
  | reads _ _ _ _ _ _ h | starts _ _ _ _ _ _ _ _ h | skips _ _ _ _ _ _ _ _ _ h
  | passes _ _ _ _ _ _ _ _ h | takes _ _ _ _ _ _ _ _ _ _ _ _ h
  | installs _ _ _ _ _ _ _ _ _ _ h | installsFirst _ _ _ _ _ _ _ _ _ h
  | records _ _ _ _ _ _ _ _ h | leaves _ _ _ _ _ h | putsBack _ _ _ _ _ h | shuts _ _ h
  | shutsVoice _ _ h | clears _ _ _ h =>
      exact .inl h.control

/-! ## The control connection -/

/-- The control connection, the joins that rely on it and the shutdown that ends it. -/
structure ControlSound (s : Client V K) : Prop where
  valid : ∀ c ∈ s.history.installed, ∃ conn, s.connection? c = some conn
  current : ∀ c, s.control = some c → s.history.installed.getLast? = some c
  /-- A connection leaves its slot only after it closed. -/
  replaced : s.stopped = false → ∀ c, s.history.installed.getLast? = some c →
    s.control = some c ∨ s.isClosed c = true
  connects : s.stopped = false → ∀ i c, (s.tasks.pc i).connects = true →
    s.history.installed.getLast? = some c → s.isClosed c = true
  reading : ∀ i c, (s.tasks.pc i).reading? = some c →
    s.history.installed.getLast? = some c ∨ s.isClosed c = true
  /-- The generation of a join is that of its connection. -/
  bound : ∀ i b, (s.tasks.pc i).bound? = some b →
    1 ≤ b.generation ∧ s.history.installed[b.generation - 1]? = some b.control
  shuts : ∀ i, (s.tasks.pc i).shuts = true → s.stopped = true
  closes : ∀ i, (s.tasks.pc i).closes = true → s.control = none
  /-- The relay of the current generation runs until shutdown aborts it. -/
  relaying : s.stopped = false ∨ s.control ≠ none → 1 ≤ s.connectionGeneration →
    s.tasks.pc (.relay s.connectionGeneration) ≠ .relayExited

theorem Grows.running (h : Grows s t) (ht : t.stopped = false) : s.stopped = false := by
  by_contra hs
  rw [h.stopped (by simpa using hs)] at ht
  cases ht

theorem isClosed_of_connection {c : ℕ} {conn : Connection V} (h : s.connection? c = some conn)
    (hclosed : conn.status = .closed) : s.isClosed c = true := by
  simp [isClosed, h, hclosed]

/-- A live connection is not closed. -/
theorem not_isClosed_of_live {c : ℕ} {conn : Connection V} (h : s.connection? c = some conn)
    (hlive : conn.status = .live) : s.isClosed c = false := by
  simp [isClosed, h, hlive]

theorem TasksSound.getElem?_of_getLast? (h : s.TasksSound) {c : ℕ}
    (hc : s.history.installed.getLast? = some c) :
    1 ≤ s.connectionGeneration ∧
      s.history.installed[s.connectionGeneration - 1]? = some c := by
  rw [List.getLast?_eq_getElem?] at hc
  rw [h.generation]
  have hlt := (List.getElem?_eq_some_iff.mp hc).1
  exact ⟨by omega, hc⟩

/-- Every other task stays where it was. -/
theorem Moved.forall_pc {P : Task → Pc V → Prop} (h : Moved env s t i q)
    (hs : ∀ j, P j (s.tasks.pc j)) (hq : P i q) : ∀ j, P j (t.tasks.pc j) := by
  intro j
  rw [h.pc]
  by_cases hj : j = i
  · subst hj
    rwa [Function.update_self]
  · rw [Function.update_of_ne hj]
    exact hs j

theorem Moved.controlSound (ht : s.TasksSound) (hs : s.ControlSound) (hg : Grows s t)
    (h : Moved env s t i q) : t.ControlSound := by
  obtain ⟨hgeneration, hinstalled⟩ := h.effect.generation
  -- A connection that left its slot in this step is closed.
  have hleft (hrunning : s.stopped = false) {c : ℕ}
      (hlast : s.history.installed.getLast? = some c)
      (hclosed : ∀ c conn, s.control = some c → s.connection? c = some conn →
        conn.status = .closed) : s.isClosed c = true := by
    rcases hs.replaced hrunning c hlast with hcontrol | hc
    · obtain ⟨conn, hconn⟩ := hs.valid c (List.mem_of_getLast? hlast)
      exact isClosed_of_connection hconn (hclosed c conn hcontrol hconn)
    · exact hc
  refine ⟨?_, ?_, ?_, ?_, ?_, ?_, ?_, ?_, ?_⟩
  · intro c hc
    obtain ⟨conn, hconn⟩ := hs.valid c (by rwa [hinstalled] at hc)
    obtain ⟨conn', hconn', -⟩ := hg.connections c conn hconn
    exact ⟨conn', hconn'⟩
  · intro c hc
    rw [hinstalled]
    rcases h.effect.control with heq | ⟨hnone, -⟩
    · exact hs.current c (heq ▸ hc)
    · rw [hnone] at hc
      cases hc
  · intro hrunning c hc
    have hrunning := hg.running hrunning
    rw [hinstalled] at hc
    rcases h.effect.control with heq | ⟨-, hshuts | hclosed⟩
    · rw [heq]
      exact (hs.replaced hrunning c hc).imp id hg.isClosed
    · rw [hs.shuts i hshuts] at hrunning
      cases hrunning
    · exact .inr (hg.isClosed (hleft hrunning hc hclosed))
  · intro hrunning
    have hrunning := hg.running hrunning
    rw [hinstalled]
    refine h.forall_pc (P := fun _ p => ∀ c, p.connects = true →
      s.history.installed.getLast? = some c → t.isClosed c = true) ?_ ?_
    · exact fun j c hj hc => hg.isClosed (hs.connects hrunning j c hj hc)
    · intro c hq hc
      rcases h.effect.connects hq with hp | hclosed
      · exact hg.isClosed (hs.connects hrunning i c hp hc)
      · exact hg.isClosed (hleft hrunning hc hclosed)
  · rw [hinstalled]
    refine h.forall_pc (P := fun _ p => ∀ c, p.reading? = some c →
      s.history.installed.getLast? = some c ∨ t.isClosed c = true) ?_ ?_
    · exact fun j c hj => (hs.reading j c hj).imp id hg.isClosed
    · intro c hq
      rcases h.effect.reading hq with hp | hcontrol
      · exact (hs.reading i c hp).imp id hg.isClosed
      · exact .inl (hs.current c hcontrol)
  · rw [hinstalled]
    refine h.forall_pc (P := fun _ p => ∀ b, p.bound? = some b → 1 ≤ b.generation ∧
      s.history.installed[b.generation - 1]? = some b.control) hs.bound ?_
    intro b hq
    rcases h.effect.bound hq with hp | ⟨hreading, hgen, conn, hconn, hstatus⟩
    · exact hs.bound i b hp
    · rcases hs.reading i _ hreading with hlast | hclosed
      · rw [hgen]
        exact ht.getElem?_of_getLast? hlast
      · rw [not_isClosed_of_live hconn hstatus] at hclosed
        cases hclosed
  · refine h.forall_pc (P := fun _ p => p.shuts = true → t.stopped = true) ?_ ?_
    · exact fun j hj => hg.stopped (hs.shuts j hj)
    · intro hq
      rcases h.effect.shuts_or hq with hp | ⟨-, hstopped⟩
      · exact hg.stopped (hs.shuts i hp)
      · exact hstopped
  · have hnone (hcontrol : s.control = none) : t.control = none := by
      rcases h.effect.control with heq | ⟨hn, -⟩
      · rw [heq, hcontrol]
      · exact hn
    refine h.forall_pc (P := fun _ p => p.closes = true → t.control = none) ?_ ?_
    · exact fun j hj => hnone (hs.closes j hj)
    · intro hq
      rcases h.effect.closes hq with hp | hcontrol
      · exact hnone (hs.closes i hp)
      · exact hcontrol
  · intro hrunning hge
    rw [hgeneration] at hge ⊢
    have hpre : s.stopped = false ∨ s.control ≠ none := by
      rcases hrunning with hrunning | hcontrol
      · exact .inl (hg.running hrunning)
      · refine .inr fun hn => hcontrol ?_
        rcases h.effect.control with heq | ⟨hn', -⟩
        · rw [heq, hn]
        · exact hn'
    have hrelay := hs.relaying hpre hge
    refine h.forall_pc (P := fun j p => j = .relay s.connectionGeneration → p ≠ .relayExited)
      ?_ ?_ (.relay s.connectionGeneration) rfl
    · rintro j rfl
      exact hrelay
    · rintro rfl hq
      rcases ht.relay s.connectionGeneration with hexit | ⟨r, conn, hr, -⟩
      · exact hrelay hexit
      · rcases h.effect.relay with heq | ⟨-, g, hi, hne⟩ | ⟨r', conn', next, -, -, -, heq⟩
        · rw [hq, hr] at heq
          cases heq
        · cases hi
          exact hne rfl
        · rw [hq] at heq
          cases heq

/-- Actions that move no task and keep the control connection. -/
theorem ControlSound.of_eq (hs : s.ControlSound) (hg : Grows s t) (htasks : t.tasks = s.tasks)
    (hcontrol : t.control = s.control)
    (hgeneration : t.connectionGeneration = s.connectionGeneration)
    (hinstalled : t.history.installed = s.history.installed) : t.ControlSound := by
  refine ⟨?_, by rw [hcontrol, hinstalled]; exact hs.current, ?_, ?_, ?_,
    by rw [htasks, hinstalled]; exact hs.bound, ?_, by rw [htasks, hcontrol]; exact hs.closes, ?_⟩
  · intro c hc
    obtain ⟨conn, hconn⟩ := hs.valid c (by rwa [hinstalled] at hc)
    obtain ⟨conn', hconn', -⟩ := hg.connections c conn hconn
    exact ⟨conn', hconn'⟩
  · intro hrunning c hc
    rw [hinstalled] at hc
    rw [hcontrol]
    exact (hs.replaced (hg.running hrunning) c hc).imp id hg.isClosed
  · intro hrunning j c hj hc
    rw [htasks] at hj
    rw [hinstalled] at hc
    exact hg.isClosed (hs.connects (hg.running hrunning) j c hj hc)
  · intro j c hj
    rw [htasks] at hj
    rw [hinstalled]
    exact (hs.reading j c hj).imp id hg.isClosed
  · intro j hj
    rw [htasks] at hj
    exact hg.stopped (hs.shuts j hj)
  · rw [htasks, hcontrol, hgeneration]
    intro hrunning
    exact hs.relaying (hrunning.imp hg.running id)

theorem controlSound_install (ht : s.TasksSound) (hs : s.ControlSound) {c : ℕ}
    {conn : Connection V} (hp : s.tasks.pc i = .connectInstall c)
    (hconn : s.connection? c = some conn) (hstopped : s.stopped = false)
    (hu : u = ({ s with
      connectionGeneration := s.connectionGeneration + 1
      state := some c
      control := some c
      controlHolder := none
      history := { s.history with installed := s.history.installed ++ [c] } }.goto
        (.relay (s.connectionGeneration + 1))
        (.relayTop ⟨c, conn.sent.length⟩)).goto i (.returned (.ok ()))) : u.ControlSound := by
  have hinstalled : u.history.installed = s.history.installed ++ [c] := by rw [hu]; rfl
  have hcontrol : u.control = some c := by rw [hu]; rfl
  have hclosed (n : ℕ) : u.isClosed n = s.isClosed n := by rw [hu]; rfl
  -- The other tasks are where they were; the two that moved have no role.
  have hpc (j : Task) : u.tasks.pc j = s.tasks.pc j ∧ j ≠ i ∨
      u.tasks.pc j = .returned (.ok ()) ∨ u.tasks.pc j = .relayTop ⟨c, conn.sent.length⟩ := by
    rw [hu]
    by_cases hi : j = i
    · subst hi
      exact .inr (.inl (by simp [goto]))
    · by_cases hr : j = .relay (s.connectionGeneration + 1)
      · subst hr
        refine .inr (.inr ?_)
        simp [goto, Gate.Tasks.goto, hi]
      · exact .inl ⟨by simp [goto, Gate.Tasks.goto, hi, hr], hi⟩
  have hmutex {j : Task} (hne : j ≠ i) : (s.tasks.pc j).holdsControl = false := by
    simpa using ht.mutex.others (i := i) (by simp only [hp]; rfl) j hne
  refine ⟨?_, ?_, ?_, ?_, ?_, ?_, ?_, ?_, ?_⟩
  · intro n hn
    rw [hinstalled, List.mem_append, List.mem_singleton] at hn
    rw [hu]
    rcases hn with hn | rfl
    · exact hs.valid n hn
    · exact ⟨conn, hconn⟩
  · intro n hn
    rw [hcontrol] at hn
    cases hn
    rw [hinstalled, List.getLast?_concat]
  · intro _ n hn
    rw [hinstalled, List.getLast?_concat] at hn
    exact .inl (hcontrol.trans hn)
  · intro _ j n hj _
    rcases hpc j with ⟨heq, hne⟩ | heq | heq
    · rw [heq] at hj
      have hholds : (s.tasks.pc j).holdsControl = true := by
        cases hp' : s.tasks.pc j with
        | connectSnapshot | connectInstall => rfl
        | _ => rw [hp'] at hj; cases hj
      rw [hmutex hne] at hholds
      cases hholds
    · rw [heq] at hj; cases hj
    · rw [heq] at hj; cases hj
  · intro j n hj
    rcases hpc j with ⟨heq, -⟩ | heq | heq
    · rw [heq] at hj
      refine .inr ?_
      rw [hclosed]
      rcases hs.reading j n hj with hlast | hc
      · exact hs.connects hstopped i n (by rw [hp]; rfl) hlast
      · exact hc
    · rw [heq] at hj; cases hj
    · rw [heq] at hj; cases hj
  · intro j b hj
    rcases hpc j with ⟨heq, -⟩ | heq | heq
    · rw [heq] at hj
      obtain ⟨hge, hget⟩ := hs.bound j b hj
      rw [hinstalled, List.getElem?_append_left (List.getElem?_eq_some_iff.mp hget).1]
      exact ⟨hge, hget⟩
    · rw [heq] at hj; cases hj
    · rw [heq] at hj; cases hj
  · intro j hj
    rcases hpc j with ⟨heq, -⟩ | heq | heq
    · rw [heq] at hj
      rw [hs.shuts j hj] at hstopped
      cases hstopped
    · rw [heq] at hj; cases hj
    · rw [heq] at hj; cases hj
  · intro j hj
    rcases hpc j with ⟨heq, -⟩ | heq | heq
    · rw [heq] at hj
      rw [hs.shuts j (Pc.shuts_of_closes hj)] at hstopped
      cases hstopped
    · rw [heq] at hj; cases hj
    · rw [heq] at hj; cases hj
  · intro _ _
    obtain ⟨n, rfl⟩ := ht.exists_host (i := i) (by rw [hp]; rfl)
      (by rw [hp]; intro h; cases h)
    have hnew : u.tasks.pc (.relay u.connectionGeneration) =
        .relayTop ⟨c, conn.sent.length⟩ := by
      rw [hu]
      simp [goto, Gate.Tasks.goto]
    rw [hnew]
    exact fun h => by cases h

theorem controlSound_abort (ht : s.TasksSound) (hs : s.ControlSound)
    (hp : s.tasks.pc i = .shutdownAborting)
    (hu : u = s.shutdownFinish i) : u.ControlSound := by
  have hstopped : s.stopped = true := hs.shuts i (by rw [hp]; rfl)
  have hnone : s.control = none := hs.closes i (by rw [hp]; rfl)
  obtain ⟨n, rfl⟩ := ht.exists_host_of_silences (by rw [hp]; rfl)
  have hpc (j : Task) : u.tasks.pc j = s.tasks.pc j ∨ u.tasks.pc j = .returned (.ok ()) ∨
      u.tasks.pc j = .relayExited := by
    rw [hu]
    cases j with
    | relay g => exact .inr (.inr (shutdownFinish_pc_relay s n g))
    | host m =>
        rw [shutdownFinish_pc]
        split
        · exact .inr (.inl rfl)
        · exact .inl rfl
  have hrunning {P : Prop} (h : u.stopped = false) : P := by
    rw [hu] at h
    rw [show s.stopped = false from h] at hstopped
    cases hstopped
  refine ⟨by rw [hu]; exact hs.valid, by rw [hu]; exact hs.current, hrunning, hrunning, ?_, ?_, ?_,
    ?_, ?_⟩
  · intro j c hj
    rcases hpc j with heq | heq | heq
    · rw [heq] at hj
      rw [hu]
      exact hs.reading j c hj
    · rw [heq] at hj; cases hj
    · rw [heq] at hj; cases hj
  · intro j b hj
    rcases hpc j with heq | heq | heq
    · rw [heq] at hj
      rw [hu]
      exact hs.bound j b hj
    · rw [heq] at hj; cases hj
    · rw [heq] at hj; cases hj
  · intro _ _
    rw [hu]
    exact hstopped
  · intro _ _
    rw [hu]
    exact hnone
  · intro h
    rcases h with h | h
    · exact hrunning h
    · rw [hu] at h
      exact absurd hnone h

/-- **Every action keeps the control connection in order.** -/
theorem Change.controlSound (hc : s.ConnectionsSound) (ht : s.TasksSound) (hs : s.ControlSound)
    (h : Change env s t a) : t.ControlSound := by
  have hg := h.grows hc
  cases h with
  | call n c q result hp h => exact h.controlSound ht hs hg
  | resume i input q hp h => exact h.controlSound ht hs hg
  | install i input c conn hp hconn hstopped hu =>
      exact controlSound_install ht hs hp hconn hstopped hu
  | abort i input hp hu => exact controlSound_abort ht hs hp hu
  | engine c input conn next hconn hstep hu => subst hu; exact hs.of_eq hg rfl rfl rfl rfl
  | close c hu => subst hu; exact hs.of_eq hg rfl rfl rfl rfl
  | worker w input worker next sealed keyCache hworker hstep hu =>
      subst hu
      exact hs.of_eq hg rfl rfl rfl rfl

/-! ## Sessions -/

/-- Where a session comes from. -/
structure SessionSound (s : Client V K) (x : Session) : Prop where
  worker : ∃ worker, s.workers[x.transport]? = some worker ∧ worker.codec.sessionId = x.sessionId
  generation : 1 ≤ x.controlGeneration
  control : s.history.installed[x.controlGeneration - 1]? = some x.control
  marked : ∃ conn, s.connection? x.control = some conn ∧ conn.Marked x.since x.socket

/-- Sessions, remembered joins and withdrawals. -/
structure SessionsSound (s : Client V K) : Prop where
  session : ∀ (v : ℕ) (x : Session), s.sessions[v]? = some x → s.SessionSound x
  leaving : ∀ i v, (s.tasks.pc i).leaving? = some v → s.HasStopped v
  /-- Once shutdown has passed the current session, none runs. -/
  silences : ∀ i, (s.tasks.pc i).silences = true → ∀ v, s.voice = some v → s.isRunning v = false
  intent : ∀ intent, s.voiceIntent = some intent → intent.session < s.sessions.length
  withdrawn : ∀ v ∈ s.history.withdrawn, v < s.sessions.length
  /-- A join that has not been recorded is not the remembered one. -/
  pending : ∀ i v, (s.tasks.pc i).pending? = some v →
    v < s.sessions.length ∧ v ∉ s.history.withdrawn ∧
      ∀ intent, s.voiceIntent = some intent → intent.session ≠ v

theorem SessionSound.transport {x : Session} (h : s.SessionSound x) :
    x.transport < s.workers.length := by
  obtain ⟨worker, hworker, -⟩ := h.worker
  exact (List.getElem?_eq_some_iff.mp hworker).1

theorem SessionSound.mono (hg : Grows s t) {x : Session} (h : s.SessionSound x) :
    t.SessionSound x := by
  obtain ⟨conn, hconn, hm⟩ := h.marked
  obtain ⟨conn', hconn', hf⟩ := hg.connections _ conn hconn
  obtain ⟨worker, hworker, hid⟩ := h.worker
  obtain ⟨worker', hworker', hid', -⟩ := hg.workers _ _ hworker
  exact ⟨⟨worker', hworker', hid'.trans hid⟩, h.generation, hg.getElem?_installed h.control,
    conn', hconn', hf.marked hm⟩

/-- A session is installed on an open socket. -/
theorem Installs.sessionSound (hc : s.ConnectionsSound) (hs : s.ControlSound)
    {call : JoinCall V} {b : Binding} {w : ℕ} {reuse : Option SessionKey} {conn : Connection V}
    {x : Session} (hp : s.tasks.pc i = .join call (.starting b w reuse))
    (h : s.Installs call b w conn x) : s.SessionSound x := by
  obtain ⟨hge, hget⟩ := hs.bound i b (by rw [hp]; rfl)
  obtain ⟨worker, hworker, hid⟩ := h.worker
  have hopen : conn.phase.isOpen = true := by
    rw [← (hc _ conn h.connection).identity, h.identity]
    rfl
  refine ⟨⟨worker, ?_, hid.symm⟩, by rw [h.controlGeneration]; exact hge, ?_, conn, ?_, ?_⟩
  · rw [h.transport, hworker]
  · rw [h.controlGeneration, h.control, hget]
  · rw [h.control, h.connection]
  · rw [h.since, h.socket]
    exact Connection.marked_of_open hopen

/-- An entry of a list that grew by one. -/
theorem getElem?_concat_eq_some {α : Type} {l : List α} {x y : α} {n : ℕ}
    (h : (l ++ [y])[n]? = some x) : l[n]? = some x ∨ (n = l.length ∧ y = x) := by
  by_cases hn : n < l.length
  · rw [List.getElem?_append_left hn] at h
    exact .inl h
  · have hlt := (List.getElem?_eq_some_iff.mp h).1
    rw [List.length_append, List.length_singleton] at hlt
    obtain rfl : n = l.length := by omega
    rw [List.getElem?_concat_length] at h
    exact .inr ⟨rfl, Option.some.inj h⟩

/-- A move adds at most one session, the one a join installs. -/
theorem Effect.sessions (h : Effect env s t i q) :
    t.sessions = s.sessions ∨ ∃ call b w reuse conn x,
      s.tasks.pc i = .join call (.starting b w reuse) ∧ s.Installs call b w conn x ∧
        t.sessions = s.sessions ++ [x] := by
  cases h with
  | installs call b w previous reuse conn x hp hq hx h =>
      exact .inr ⟨call, b, w, reuse, conn, x, hp, hx, h.sessions⟩
  | installsFirst call b w reuse conn x hp hq hx h =>
      exact .inr ⟨call, b, w, reuse, conn, x, hp, hx, h.sessions⟩
  | binds call b cached conn hp hq hconn hlive hg h =>
      refine .inl (h.sessions.trans ?_)
      unfold issued
      split <;> rfl
  | handles g r conn event hi hp hconn hevent hg h hq =>
      refine .inl (h.sessions.trans ?_)
      unfold Client.relay forgetIntent
      split <;> rfl
  | calm h | exits _ _ _ _ _ _ h | makes _ _ _ _ _ h | rejects _ _ _ h | locks _ _ _ h
  | reads _ _ _ _ _ _ h | starts _ _ _ _ _ _ _ _ h | skips _ _ _ _ _ _ _ _ _ h
  | passes _ _ _ _ _ _ _ _ h | takes _ _ _ _ _ _ _ _ _ _ _ _ h
  | records _ _ _ _ _ _ _ _ h | leaves _ _ _ _ _ h | putsBack _ _ _ _ _ h | shuts _ _ h
  | shutsVoice _ _ h | shutsControl _ _ _ h | clears _ _ _ h =>
      exact .inl h.sessions

/-- The current session that runs after a move ran before it, or was just installed
by a join of the current generation. -/
theorem Effect.voice (hs : s.SessionsSound) (hg : Grows s t) (h : Effect env s t i q) {v : ℕ}
    (hv : t.voice = some v) (hr : t.isRunning v = true) :
    (s.voice = some v ∧ s.isRunning v = true) ∨ (v = s.sessions.length ∧ s.stopped = false) := by
  cases h with
  | putsBack session result hp hq hrelay h =>
      obtain ⟨hbase, -⟩ := h.voice v hv hr
      cases hbase
      rw [(hg.hasStopped (hs.leaving i v hp)).not_running] at hr
      cases hr
  | starts call b config reuse codec hp hq hcodec h =>
      have hquiet := quiet_startWorker s (Worker.new codec)
        fun v x hx => (hs.session v x hx).transport
      obtain ⟨hbase, hrun⟩ := h.voice v hv hr
      exact .inl (hquiet.voice v hbase hrun)
  | installs call b w previous reuse conn x hp hq hx h =>
      obtain ⟨hbase, -⟩ := h.voice v hv hr
      cases hbase
      exact .inr ⟨rfl, hx.running⟩
  | installsFirst call b w reuse conn x hp hq hx h =>
      obtain ⟨hbase, -⟩ := h.voice v hv hr
      cases hbase
      exact .inr ⟨rfl, hx.running⟩
  | takes g r event v' x hi hp hq hfree hv' hx hg' h => cases (h.voice v hv hr).1
  | shutsVoice hp hq h => cases (h.voice v hv hr).1
  | binds call b cached conn hp hq hconn hlive hg' h =>
      obtain ⟨hbase, hrun⟩ := h.voice v hv hr
      refine .inl ⟨?_, ?_⟩
      · rw [← hbase]
        unfold issued
        split <;> rfl
      · rw [← hrun]
        unfold issued
        split <;> rfl
  | handles g r conn event hi hp hconn hevent hg' h hq =>
      obtain ⟨hbase, hrun⟩ := h.voice v hv hr
      rw [relay_forgetIntent_voice] at hbase
      rw [relay_forgetIntent_isRunning] at hrun
      exact .inl ⟨hbase, hrun⟩
  | calm h | exits _ _ _ _ _ _ h | makes _ _ _ _ _ h | rejects _ _ _ h | locks _ _ _ h
  | reads _ _ _ _ _ _ h | skips _ _ _ _ _ _ _ _ _ h | passes _ _ _ _ _ _ _ _ h
  | records _ _ _ _ _ _ _ _ h | leaves _ _ _ _ _ h | shuts _ _ h | shutsControl _ _ _ h
  | clears _ _ _ h =>
      exact .inl (h.voice v hv hr)

theorem Effect.silences_or (h : Effect env s t i q) (hq : q.silences = true) :
    (s.tasks.pc i).silences = true ∨ (s.tasks.pc i = .shutdownGate ∧
      ∀ v, t.voice = some v → t.isRunning v = false) := by
  cases h with
  | calm h le => exact .inl (le.silences hq)
  | shutsControl c hp | clears hp => exact .inl (by rw [hp]; rfl)
  | shutsVoice hp hle h =>
      refine .inr ⟨hp, fun v hv => ?_⟩
      by_contra hr
      cases (h.voice v hv (by simpa using hr)).1
  | installsFirst _ _ _ _ _ _ _ hle | records _ _ _ _ _ _ hle => exact by cases hle.1.silences hq
  | handles _ _ _ _ _ _ _ _ _ _ heq =>
      rcases heq with ⟨-, rfl⟩ | ⟨-, rfl⟩ | ⟨intent, -, -, -, rfl⟩ <;> cases hq
  | _ => subst_vars; cases hq

/-- The remembered join after one was recorded is that one. -/
theorem session_of_recorded {call : JoinCall V} {v : ℕ} {x : Session} {intent : VoiceIntent}
    (h : Calm (u.recorded call v x) t) (hi : t.voiceIntent = some intent) :
    intent.session = v := by
  rcases h.intent with he | he
  · rw [hi] at he
    have hrec : some intent = if u.autoRejoinVoice then
        some (⟨call.channelId, call.request, x.sessionId, v⟩ : VoiceIntent) else none := he
    split at hrec
    · cases hrec; rfl
    · cases hrec
  · rw [he] at hi
    cases hi

/-- The remembered join after a move was remembered before, or is the one just
recorded. -/
theorem Effect.intent (h : Effect env s t i q) {intent : VoiceIntent}
    (hi : t.voiceIntent = some intent) :
    s.voiceIntent = some intent ∨
      (intent.session = s.sessions.length ∧ ∃ x, t.sessions = s.sessions ++ [x]) ∨
      (s.tasks.pc i).pending? = some intent.session := by
  have kept {u : Client V K} (h : Calm u t) : u.voiceIntent = some intent := by
    rcases h.intent with he | he
    · rw [← he, hi]
    · rw [he] at hi
      cases hi
  cases h with
  | installsFirst call b w reuse conn x hp hq hx h =>
      exact .inr (.inl ⟨session_of_recorded h hi, x, h.sessions⟩)
  | records call previous v reuse x hp hq hx h =>
      refine .inr (.inr ?_)
      rw [hp, session_of_recorded h hi]
      rfl
  | binds call b cached conn hp hq hconn hlive hg h =>
      refine .inl ?_
      rw [← kept h]
      unfold issued
      split <;> rfl
  | handles g r conn event hi hp hconn hevent hg h hq =>
      have hkept := kept h
      unfold Client.relay forgetIntent at hkept
      split at hkept
      · cases hkept
      · exact .inl hkept
  | calm h | exits _ _ _ _ _ _ h | makes _ _ _ _ _ h | rejects _ _ _ h | locks _ _ _ h
  | reads _ _ _ _ _ _ h | starts _ _ _ _ _ _ _ _ h | skips _ _ _ _ _ _ _ _ _ h
  | passes _ _ _ _ _ _ _ _ h | takes _ _ _ _ _ _ _ _ _ _ _ _ h
  | installs _ _ _ _ _ _ _ _ _ _ h | leaves _ _ _ _ _ h | putsBack _ _ _ _ _ h | shuts _ _ h
  | shutsVoice _ _ h | shutsControl _ _ _ h | clears _ _ _ h =>
      have hkept := kept h
      exact .inl hkept

theorem Effect.withdrawn (h : Effect env s t i q) :
    t.history.withdrawn = s.history.withdrawn := by
  cases h with
  | binds call b cached conn hp hq hconn hlive hg h =>
      refine h.withdrawn.trans ?_
      unfold issued
      split <;> rfl
  | handles g r conn event hi hp hconn hevent hg h hq =>
      refine h.withdrawn.trans ?_
      unfold Client.relay forgetIntent
      split <;> rfl
  | calm h | exits _ _ _ _ _ _ h | makes _ _ _ _ _ h | rejects _ _ _ h | locks _ _ _ h
  | reads _ _ _ _ _ _ h | starts _ _ _ _ _ _ _ _ h | skips _ _ _ _ _ _ _ _ _ h
  | passes _ _ _ _ _ _ _ _ h | takes _ _ _ _ _ _ _ _ _ _ _ _ h
  | installs _ _ _ _ _ _ _ _ _ _ h | installsFirst _ _ _ _ _ _ _ _ _ h
  | records _ _ _ _ _ _ _ _ h | leaves _ _ _ _ _ h | putsBack _ _ _ _ _ h | shuts _ _ h
  | shutsVoice _ _ h | shutsControl _ _ _ h | clears _ _ _ h =>
      exact h.withdrawn

theorem Effect.pending (h : Effect env s t i q) {v : ℕ} (hq : q.pending? = some v) :
    (t.voiceIntent = s.voiceIntent ∨ t.voiceIntent = none) ∧
      ((s.tasks.pc i).pending? = some v ∨
        (v = s.sessions.length ∧ q.relay? = (s.tasks.pc i).relay? ∧
          ∃ x, t.sessions = s.sessions ++ [x])) := by
  have inherited {p : Pc V} (he : q.pending? = none ∨ q.pending? = p.pending?) :
      p.pending? = some v := by
    rcases he with he | he
    · rw [he] at hq; cases hq
    · rw [← he, hq]
  cases h with
  | calm h le => exact ⟨h.intent, .inl (inherited le.pending)⟩
  | installs call b w previous reuse conn x hp heq hx h =>
      subst heq
      cases hq
      exact ⟨h.intent, .inr ⟨rfl, by rw [hp]; rfl, x, h.sessions⟩⟩
  | installsFirst _ _ _ _ _ _ _ hle | records _ _ _ _ _ _ hle => cases inherited hle.1.pending
  | shutsVoice _ hle => cases inherited hle.pending
  | handles _ _ _ _ _ _ _ _ _ _ heq =>
      rcases heq with ⟨-, rfl⟩ | ⟨-, rfl⟩ | ⟨intent, -, -, -, rfl⟩ <;> cases hq
  | _ => subst_vars; cases hq

theorem Moved.sessionsSound (hc : s.ConnectionsSound) (ht : s.TasksSound) (hcs : s.ControlSound)
    (hs : s.SessionsSound) (hg : Grows s t) (h : Moved env s t i q) : t.SessionsSound := by
  have hlen : s.sessions.length ≤ t.sessions.length := hg.sessions.length_le
  refine ⟨?_, ?_, ?_, ?_, ?_, ?_⟩
  · intro v x hx
    rcases h.effect.sessions with heq | ⟨call, b, w, reuse, conn, y, hp, hy, heq⟩
    · rw [heq] at hx
      exact (hs.session v x hx).mono hg
    · rw [heq] at hx
      rcases getElem?_concat_eq_some hx with hx | ⟨-, rfl⟩
      · exact (hs.session v x hx).mono hg
      · exact (hy.sessionSound hc hcs hp).mono hg
  · refine h.forall_pc (P := fun _ p => ∀ v, p.leaving? = some v → t.HasStopped v) ?_ ?_
    · exact fun j v hj => hg.hasStopped (hs.leaving j v hj)
    · intro v hq
      rcases h.effect.leaving hq with hp | hstopped
      · exact hg.hasStopped (hs.leaving i v hp)
      · exact hg.hasStopped hstopped
  · have kept {j : Task} (hj : (s.tasks.pc j).silences = true) (v : ℕ) (hv : t.voice = some v) :
        t.isRunning v = false := by
      by_contra hr
      rcases h.effect.voice hs hg hv (by simpa using hr) with ⟨hv', hr'⟩ | ⟨-, hrunning⟩
      · rw [hs.silences j hj v hv'] at hr'
        cases hr'
      · rw [hcs.shuts j (Pc.shuts_of_silences hj)] at hrunning
        cases hrunning
    refine h.forall_pc (P := fun _ p => p.silences = true → ∀ v, t.voice = some v →
      t.isRunning v = false) (fun j hj => kept hj) ?_
    intro hq
    rcases h.effect.silences_or hq with hp | ⟨-, hnone⟩
    · exact kept hp
    · exact hnone
  · intro intent hi
    rcases h.effect.intent hi with hi | ⟨heq, x, hx⟩ | hp
    · exact Nat.lt_of_lt_of_le (hs.intent intent hi) hlen
    · rw [heq, hx, List.length_append, List.length_singleton]
      exact Nat.lt_succ_self _
    · exact Nat.lt_of_lt_of_le (hs.pending i _ hp).1 hlen
  · intro v hv
    rw [h.effect.withdrawn] at hv
    exact Nat.lt_of_lt_of_le (hs.withdrawn v hv) hlen
  · rw [h.effect.withdrawn]
    intro j v hj
    by_cases hji : j = i
    · subst hji
      rw [h.pc, Function.update_self] at hj
      obtain ⟨hintent, hp | ⟨rfl, -, x, hx⟩⟩ := h.effect.pending hj
      · obtain ⟨hlt, hnot, hne⟩ := hs.pending j v hp
        refine ⟨Nat.lt_of_lt_of_le hlt hlen, hnot, ?_⟩
        rcases hintent with he | he
        · rw [he]
          exact hne
        · rw [he]
          exact fun _ h => by cases h
      · refine ⟨?_, fun hmem => Nat.lt_irrefl _ (hs.withdrawn _ hmem), ?_⟩
        · rw [hx, List.length_append, List.length_singleton]
          exact Nat.lt_succ_self _
        · rcases hintent with he | he
          · rw [he]
            exact fun intent hi => Nat.ne_of_lt (hs.intent intent hi)
          · rw [he]
            exact fun _ h => by cases h
    · rw [h.pc, Function.update_of_ne hji] at hj
      obtain ⟨hlt, hnot, hne⟩ := hs.pending j v hj
      refine ⟨Nat.lt_of_lt_of_le hlt hlen, hnot, ?_⟩
      intro intent hi
      rcases h.effect.intent hi with hi | ⟨heq, -⟩ | hp
      · exact hne intent hi
      · rw [heq]
        exact (Nat.ne_of_lt hlt).symm
      · -- Both joins would hold the gate.
        exact absurd (Pc.holdsGate_of_pending hj)
          (ht.gate.others (Pc.holdsGate_of_pending hp) j hji)

/-- The intents an action withdraws are the remembered one. -/
theorem mem_withdrawnByState {c v : ℕ} {before after : Connection V}
    (h : v ∈ s.withdrawnByState c before after) :
    ∃ intent, s.voiceIntent = some intent ∧ v = intent.session ∧ s.control = some c := by
  unfold withdrawnByState at h
  split at h
  · cases h
  case h_2 intent hintent =>
    split at h
    case isTrue hc => exact ⟨intent, hintent, List.mem_singleton.mp h, hc.1⟩
    · cases h

theorem mem_withdrawnByWorker {v : ℕ} {worker after : Worker K} {input : WorkerInput}
    (h : v ∈ s.withdrawnByWorker worker after input) :
    ∃ intent, s.voiceIntent = some intent ∧ v = intent.session := by
  unfold withdrawnByWorker at h
  split at h
  case h_1 intent datagram hintent =>
    split at h
    · exact ⟨intent, hintent, List.mem_singleton.mp h⟩
    · cases h
  · cases h

/-- Actions that move no task and install no session. -/
theorem SessionsSound.of_eq (hs : s.SessionsSound) (hg : Grows s t) (htasks : t.tasks = s.tasks)
    (hsessions : t.sessions = s.sessions) (hvoice : t.voice = s.voice)
    (hintent : t.voiceIntent = s.voiceIntent) (withdrawn : List ℕ)
    (hwithdrawn : t.history.withdrawn = s.history.withdrawn ++ withdrawn)
    (hnew : ∀ v ∈ withdrawn, ∃ intent, s.voiceIntent = some intent ∧ v = intent.session) :
    t.SessionsSound := by
  refine ⟨?_, ?_, ?_, by rw [hintent, hsessions]; exact hs.intent, ?_, ?_⟩
  · rw [hsessions]
    exact fun v x hx => (hs.session v x hx).mono hg
  · rw [htasks]
    exact fun j v hj => hg.hasStopped (hs.leaving j v hj)
  · rw [htasks, hvoice]
    intro j hj v hv
    by_contra hr
    have hr : t.isRunning v = true := by simpa using hr
    cases hx : s.sessions[v]? with
    | none => simp [isRunning, hsessions, hx] at hr
    | some x =>
        have hrun := hg.isRunning hx (hs.session v x hx).transport hr
        rw [hs.silences j hj v hv] at hrun
        cases hrun
  · rw [hwithdrawn, hsessions]
    intro v hv
    rcases List.mem_append.mp hv with hv | hv
    · exact hs.withdrawn v hv
    · obtain ⟨intent, hi, rfl⟩ := hnew v hv
      exact hs.intent intent hi
  · rw [htasks, hsessions, hwithdrawn, hintent]
    intro j v hj
    obtain ⟨hlt, hnot, hne⟩ := hs.pending j v hj
    refine ⟨hlt, ?_, hne⟩
    intro hv
    rcases List.mem_append.mp hv with hv | hv
    · exact hnot hv
    · obtain ⟨intent, hi, heq⟩ := hnew v hv
      exact hne intent hi heq.symm

/-- Actions that take roles from tasks, and may forget the intent. -/
theorem SessionsSound.of_pc (hs : s.SessionsSound) (hg : Grows s t)
    (hpc : ∀ j, t.tasks.pc j = s.tasks.pc j ∨
      ((t.tasks.pc j).leaving? = none ∧ (t.tasks.pc j).silences = false ∧
        (t.tasks.pc j).pending? = none))
    (hsessions : t.sessions = s.sessions) (hworkers : t.workers = s.workers)
    (hvoice : t.voice = s.voice) (hintent : t.voiceIntent = s.voiceIntent ∨ t.voiceIntent = none)
    (hwithdrawn : t.history.withdrawn = s.history.withdrawn) : t.SessionsSound := by
  have hold : ∀ intent, t.voiceIntent = some intent → s.voiceIntent = some intent := by
    intro intent hi
    rcases hintent with he | he
    · rw [← he, hi]
    · rw [he] at hi
      cases hi
  refine ⟨?_, ?_, ?_, ?_, by rw [hwithdrawn, hsessions]; exact hs.withdrawn, ?_⟩
  · rw [hsessions]
    exact fun v x hx => (hs.session v x hx).mono hg
  · intro j v hj
    rcases hpc j with heq | ⟨hn, -⟩
    · exact hg.hasStopped (hs.leaving j v (heq ▸ hj))
    · rw [hn] at hj
      cases hj
  · intro j hj v hv
    rcases hpc j with heq | ⟨-, hn, -⟩
    · have hstopped := hs.silences j (heq ▸ hj) v (hvoice ▸ hv)
      simpa only [isRunning, hsessions, hworkers] using hstopped
    · rw [hn] at hj
      cases hj
  · rw [hsessions]
    exact fun intent hi => hs.intent intent (hold intent hi)
  · intro j v hj
    rcases hpc j with heq | ⟨-, -, hn⟩
    · obtain ⟨hlt, hnot, hne⟩ := hs.pending j v (heq ▸ hj)
      rw [hsessions, hwithdrawn]
      exact ⟨hlt, hnot, fun intent hi => hne intent (hold intent hi)⟩
    · rw [hn] at hj
      cases hj

/-- **Every action keeps the sessions in order.** -/
theorem Change.sessionsSound (hc : s.ConnectionsSound) (ht : s.TasksSound) (hcs : s.ControlSound)
    (hs : s.SessionsSound) (h : Change env s t a) : t.SessionsSound := by
  have hg := h.grows hc
  cases h with
  | call n c q result hp h => exact h.sessionsSound hc ht hcs hs hg
  | resume i input q hp h => exact h.sessionsSound hc ht hcs hs hg
  | install i input c conn hp hconn hstopped hu =>
      refine hs.of_pc hg ?_ (by rw [hu]; rfl) (by rw [hu]; rfl) (by rw [hu]; rfl)
        (.inl (by rw [hu]; rfl)) (by rw [hu]; rfl)
      intro j
      rw [hu]
      by_cases hi : j = i
      · subst hi
        exact .inr (by simp [goto, Pc.leaving?, Pc.silences, Pc.pending?])
      · by_cases hr : j = .relay (s.connectionGeneration + 1)
        · subst hr
          exact .inr (by simp [goto, Gate.Tasks.goto, hi, Pc.leaving?, Pc.silences, Pc.pending?])
        · exact .inl (by simp [goto, Gate.Tasks.goto, hi, hr])
  | abort i input hp hu =>
      refine hs.of_pc hg ?_ (by rw [hu]; rfl) (by rw [hu]; rfl) (by rw [hu]; rfl)
        (.inl (by rw [hu]; rfl)) (by rw [hu]; rfl)
      obtain ⟨n, rfl⟩ := ht.exists_host_of_silences (by rw [hp]; rfl)
      intro j
      rw [hu]
      cases j with
      | relay g => exact .inr (by rw [shutdownFinish_pc_relay]; exact ⟨rfl, rfl, rfl⟩)
      | host m =>
          rw [shutdownFinish_pc]
          split
          · exact .inr ⟨rfl, rfl, rfl⟩
          · exact .inl rfl
  | engine c input conn next hconn hstep hu =>
      subst hu
      refine hs.of_eq hg rfl rfl rfl rfl _ rfl ?_
      intro v hv
      obtain ⟨intent, hi, heq, -⟩ := mem_withdrawnByState hv
      exact ⟨intent, hi, heq⟩
  | close c hu =>
      subst hu
      exact hs.of_eq hg rfl rfl rfl rfl [] (by simp [closeConnection]) (by simp)
  | worker w input worker next sealed keyCache hworker hstep hu =>
      subst hu
      exact hs.of_eq hg rfl rfl rfl rfl _ rfl fun v hv => mem_withdrawnByWorker hv

/-! ## All invariants -/

/-- What holds in every reachable state. -/
structure Sound (s : Client V K) : Prop where
  connections : s.ConnectionsSound
  tasks : s.TasksSound
  control : s.ControlSound
  sessions : s.SessionsSound

theorem tasksSound_new (autoRejoinVoice : Bool) (policy : ReconnectPolicy) :
    (new autoRejoinVoice policy : Client V K).TasksSound where
  generation := rfl
  gate j := by cases j <;> simp [new, Pc.holdsGate]
  mutex j := by cases j <;> simp [new, Pc.holdsControl]
  host _ := rfl
  relay _ := .inl rfl

theorem controlSound_new (autoRejoinVoice : Bool) (policy : ReconnectPolicy) :
    (new autoRejoinVoice policy : Client V K).ControlSound where
  valid _ h := by cases h
  current _ h := by cases h
  replaced _ _ h := by cases h
  connects _ _ _ _ h := by cases h
  reading j _ h := by cases j <;> cases h
  bound j _ h := by cases j <;> cases h
  shuts j h := by cases j <;> cases h
  closes j h := by cases j <;> cases h
  relaying _ h := by cases h

theorem sessionsSound_new (autoRejoinVoice : Bool) (policy : ReconnectPolicy) :
    (new autoRejoinVoice policy : Client V K).SessionsSound where
  session _ _ h := by cases h
  leaving j _ h := by cases j <;> cases h
  silences j h := by cases j <;> cases h
  intent _ h := by cases h
  withdrawn _ h := by cases h
  pending j _ h := by cases j <;> cases h

theorem sound_new (autoRejoinVoice : Bool) (policy : ReconnectPolicy) :
    (new autoRejoinVoice policy : Client V K).Sound :=
  ⟨(fun _ _ h => by cases h), tasksSound_new _ _, controlSound_new _ _, sessionsSound_new _ _⟩

/-- **Every action keeps the invariants.** -/
theorem Sound.step (hs : s.Sound) (h : s.step env a = some t) : t.Sound := by
  have hchange := step_cases h
  exact ⟨hchange.connectionsSound hs.connections, hchange.tasksSound hs.connections hs.tasks,
    hchange.controlSound hs.connections hs.tasks hs.control,
    hchange.sessionsSound hs.connections hs.tasks hs.control hs.sessions⟩

end Client

end ZephyrVox.Sdk
