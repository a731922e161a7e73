import ZephyrVox.Sdk.Leaving
import ZephyrVox.Sdk.Nonces
import ZephyrVox.Sdk.Slots

/-!
# Shutdown

Shutdown sets its flag first and empties the slots one by one. A join or a leave that
was in progress then still holds the voice gate, and shutdown waits for it; one that
comes later finds the flag or an empty slot. A connection that was being installed holds
the control mutex and finds the flag afterwards. So nothing fills a slot that shutdown
has emptied, and no worker is left unasked.

## Main definitions

* `Attended` — every worker was asked to close, or someone is about to ask it.
* `Emptied` — no session is installed, and no task is left that could install one.
* `ShutDown` — the slots are empty, and every running worker was asked to close.
* `shutdown_is_complete` — the client is shut down when its first shutdown returns, and
  stays so.
-/

namespace ZephyrVox.Sdk

open Realtime Voice

variable {V K : Type}

/-- The gate is held for a join, a leave or a relayed stop, or for shutdown. -/
theorem Pc.busy_or_silences {p : Pc V} (h : p.holdsGate = true) :
    p.busy = true ∨ p.silences = true := by
  cases p with
  | join call stage => cases stage <;> first | exact .inl rfl | cases h
  | teardown session k | stopping session k | leaving session k =>
      cases k with
      | leave viaClient => cases viaClient <;> first | exact .inl rfl | cases h
      | _ => first | exact .inl rfl | exact .inr rfl | cases h
  | _ => cases h

namespace Client

variable {env : Env V K} {s t u : Client V K} {i j : Task} {a : Action V}

/-! ## Leaves and left sessions -/

/-- A task that leaves the current session has taken it out of its slot. -/
def LeavesTaken (s : Client V K) : Prop :=
  ∀ j, (s.tasks.pc j).leaves?.isSome = true → s.voice = none

/-- A session that was left has stopped. -/
def LeftStopped (s : Client V K) : Prop := ∀ v, s.left v = true → s.HasStopped v

/-- Two tasks do not hold the gate. -/
theorem Sound.gate_unique (hs : s.Sound) (hi : (s.tasks.pc i).holdsGate = true)
    (hj : (s.tasks.pc j).holdsGate = true) : i = j := by
  by_contra hne
  exact hs.tasks.gate.others hj i hne hi

theorem leavesTaken_step (hs : s.Sound) (hl : s.LeavesTaken) (h : s.step env a = some t) :
    t.LeavesTaken := by
  intro j hj
  rcases step_slots hs.tasks h with ⟨i, hm⟩ | hidle
  · by_cases hji : j = i
    · subst hji
      cases hm.slots.voice with
      | same hv _ hleaves => exact hv.trans (hl j (hleaves hj))
      | takes v k _ _ ht => exact ht
      | installs _ _ _ _ _ _ _ _ _ hnone => rw [hnone] at hj; cases hj
      | putsBack v _ _ result hq => rw [hq] at hj; cases hj
    · have hpc : t.tasks.pc j = s.tasks.pc j := by
        apply hm.pc_or hji
        · rintro r hr
          rw [hr] at hj
          cases hj
        · intro hr
          rw [hr] at hj
          cases hj
      rw [hpc] at hj
      have hgate : (s.tasks.pc j).holdsGate = true := Pc.holdsGate_of_busy (Pc.busy_of_leaves hj)
      cases hm.slots.voice with
      | same hv => exact hv.trans (hl j hj)
      | takes v k _ _ ht => exact ht
      | installs call b w reuse x hp =>
          exact absurd (hs.gate_unique hgate (by rw [hp]; rfl)) hji
      | putsBack v hp =>
          exact absurd (hs.gate_unique hgate
            (Pc.holdsGate_of_busy (Pc.busy_of_leaves (by rw [hp]; rfl)))) hji
  · rw [hidle.tasks] at hj
    exact hidle.voice.trans (hl j hj)

theorem leftStopped_step (hs : s.Sound) (hl : s.LeftStopped) (h : s.step env a = some t) :
    t.LeftStopped := by
  intro v hv
  apply ((step_cases h).grows hs.connections).hasStopped
  rcases step_slots hs.tasks h with ⟨i, hm⟩ | hidle
  · rcases hm.slots.left v hv with hleft | hleaving
    · exact hl v hleft
    · exact hs.sessions.leaving i v hleaving
  · exact hl v (hidle.left ▸ hv)

/-! ## Workers -/

/-- A worker has stopped, or was asked to close. -/
def Worker.IsAsked (worker : Worker K) : Prop :=
  worker.status.isTerminal = true ∨ worker.termination = some .close

theorem isAsked_requestTermination (worker : Worker K) :
    Worker.IsAsked (worker.requestTermination .close) := by
  by_cases hterminal : worker.status.isTerminal = true
  · rw [isTerminal_requestTermination _ hterminal]
    exact .inl hterminal
  · rw [requestTermination_close hterminal]
    exact .inr rfl

theorem Worker.IsAsked.asked {worker worker' : Worker K} (h : Worker.IsAsked worker)
    (hasked : Worker.Asked worker worker') : Worker.IsAsked worker' := by
  rcases hasked with rfl | rfl
  · exact h
  · exact isAsked_requestTermination worker

theorem Worker.IsAsked.turn {worker worker' : Worker K} {input : WorkerInput}
    {sealed : List (Sealed K)} (h : Worker.IsAsked worker)
    (hstep : worker.step env.crypto input = some (worker', sealed)) : Worker.IsAsked worker' := by
  rcases h with hterminal | hclose
  · rw [(Worker.step_spec hstep).1] at hterminal
    cases hterminal
  · exact .inr ((Worker.step_termination hstep).trans hclose)

/-- A worker was there before the action, or was just started by a join. -/
theorem step_worker_inv (h : s.step env a = some t) {w : ℕ} {worker' : Worker K}
    (hw : t.workers[w]? = some worker') :
    (∃ worker, s.workers[w]? = some worker ∧ (Worker.Asked worker worker' ∨
      ∃ input sealed, a = .worker w input ∧
        worker.step env.crypto input = some (worker', sealed))) ∨
    ∃ i call b reuse codec, t.tasks.pc i = .join call (.starting b w reuse) ∧
      Worker.Asked (Worker.new codec) worker' := by
  by_cases hlt : w < s.workers.length
  · obtain ⟨worker'', hw'', hfate⟩ := step_worker h (List.getElem?_eq_getElem hlt)
    rw [hw] at hw''
    cases hw''
    exact .inl ⟨_, List.getElem?_eq_getElem hlt, hfate⟩
  · refine .inr ?_
    have hnew : w < t.workers.length := (List.getElem?_eq_some_iff.mp hw).1
    have moved {i : Task} {q : Pc V} (hm : Moved env s t i q) :
        ∃ i call b reuse codec, t.tasks.pc i = .join call (.starting b w reuse) ∧
          Worker.Asked (Worker.new codec) worker' := by
      obtain ⟨-, hkept | ⟨call, b, config, reuse, codec, -, hq, -, hasked, hcounters⟩⟩ :=
        hm.effect.counters
      · have hlength := congrArg List.length hkept
        simp only [List.length_map] at hlength
        omega
      · have hlength := congrArg List.length hcounters
        simp only [List.length_map, List.length_append, List.length_singleton] at hlength
        obtain rfl : w = s.workers.length := by omega
        obtain ⟨worker'', hw'', hnew⟩ := hasked s.workers.length (Worker.new codec) (by simp)
        rw [hw] at hw''
        cases hw''
        exact ⟨i, call, b, reuse, codec, by rw [hm.pc, Function.update_self, hq], hnew⟩
    cases step_cases h with
    | call n c q result hp hm => exact moved hm
    | resume i input q hp hm => exact moved hm
    | install i input c conn hp hconn hstopped ht => subst ht; exact absurd hnew hlt
    | abort i input hp ht => subst ht; exact absurd hnew hlt
    | engine c input conn next hconn hstep ht => subst ht; exact absurd hnew hlt
    | close c ht => subst ht; exact absurd hnew hlt
    | worker w' input before next sealed keyCache hbefore hstep ht =>
        subst ht
        exact absurd (by simpa using hnew) hlt

/-- A start that failed has stopped its worker. -/
def StartsSettled (s : Client V K) : Prop :=
  ∀ (w : ℕ) (worker : Worker K), s.workers[w]? = some worker → worker.StartSettled

theorem startsSettled_step (hs : s.StartsSettled) (h : s.step env a = some t) :
    t.StartsSettled := by
  intro w worker' hw'
  rcases step_worker_inv h hw' with ⟨worker, hw, hasked | ⟨input, sealed, -, hstep⟩⟩ |
    ⟨i, call, b, reuse, codec, -, hasked⟩
  · exact hasked.startSettled (hs w worker hw)
  · exact (hs w worker hw).step hstep
  · exact hasked.startSettled (Worker.startSettled_new codec)

/-- Someone is about to ask worker `w` to close, or will find it in the voice slot. -/
inductive Covered (s : Client V K) (w : ℕ) : Prop
  | current (v : ℕ) (x : Session) (hv : s.voice = some v) (hx : s.sessions[v]? = some x)
      (hw : x.transport = w)
  | starting (j : Task) (call : JoinCall V) (b : Binding) (reuse : Option SessionKey)
      (hp : s.tasks.pc j = .join call (.starting b w reuse))
  | closing (j : Task) (v : ℕ) (k : After V) (x : Session) (hp : s.tasks.pc j = .teardown v k)
      (hk : k.holdsGate = true) (hx : s.sessions[v]? = some x) (hw : x.transport = w)

/-- Every worker has stopped, was asked to close, or is about to be. -/
def Attended (s : Client V K) : Prop :=
  ∀ (w : ℕ) (worker : Worker K), s.workers[w]? = some worker →
    Worker.IsAsked worker ∨ s.Covered w

theorem closeWorker_isAsked {w : ℕ} {worker : Worker K}
    (hw : (s.closeWorker w).workers[w]? = some worker) : Worker.IsAsked worker := by
  simp only [closeWorker, List.getElem?_modify] at hw
  cases hold : s.workers[w]? with
  | none => simp [hold] at hw
  | some before =>
      obtain rfl : before.requestTermination .close = worker := by simpa [hold] using hw
      exact isAsked_requestTermination before

/-- A join attends to the worker it has started. -/
theorem joinStarted_attends {call : JoinCall V} {b : Binding} {w : ℕ} {reuse : Option SessionKey}
    {worker' : Worker K} (hs : s.StartsSettled) (h : s.joinStarted i call b w reuse = some t)
    (hw' : t.workers[w]? = some worker') : Worker.IsAsked worker' ∨ t.Covered w := by
  cases joinStarted_cases h with
  | fails worker e hworker hstarted =>
      rw [failJoin_workers, hworker] at hw'
      obtain rfl : worker = worker' := Option.some.inj hw'
      exact .inl (.inl (hs w worker hworker e hstarted))
  | discards => exact .inl (closeWorker_isAsked hw')
  | records conn x hx _ =>
      refine .inr (.current s.sessions.length x (by simp [install]) ?_ hx.transport)
      simp [install]
  | replaces conn x previous hx _ =>
      refine .inr (.current s.sessions.length x rfl ?_ hx.transport)
      exact List.getElem?_concat_length

/-- Whoever takes the teardown lock asks the worker to close, or finds it stopped. -/
theorem lockTeardown_attends {session : ℕ} {k : After V} {x : Session} {worker' : Worker K}
    (hl : s.LeftStopped) (hx : s.sessions[session]? = some x)
    (h : s.lockTeardown i session k = some t)
    (hw' : t.workers[x.transport]? = some worker') : Worker.IsAsked worker' := by
  cases lockTeardown_cases h with
  | finds viaClient _ hleft =>
      obtain ⟨y, worker, hy, hworker, hterminal⟩ := hl session hleft
      obtain rfl : x = y := Option.some.inj (hx.symm.trans hy)
      rw [finishLeave_workers, hworker] at hw'
      cases hw'
      exact .inl hterminal
  | stops y hy _ =>
      obtain rfl : x = y := Option.some.inj (hx.symm.trans hy)
      exact closeWorker_isAsked hw'

/-! ## What shutdown empties -/

/-- After shutdown has the gate: no session is installed, and no task is left that holds
the gate for anything else. -/
structure Emptied (s : Client V K) : Prop where
  stopped : s.stopped = true
  voice : s.voice = none
  idle : ∀ j, (s.tasks.pc j).busy = false

/-- The slots that shutdown empties after the voice session. -/
structure Vacated (s : Client V K) : Prop where
  control : s.control = none
  state : s.state = none
  intent : s.voiceIntent = none
  key : s.keyCache = .new

/-- The invariants of shutdown. -/
structure Orderly (s : Client V K) : Prop where
  sound : s.Sound
  leaves : s.LeavesTaken
  left : s.LeftStopped
  starts : s.StartsSettled
  attended : s.Attended
  /-- One task shuts the client down. -/
  shuts : ∀ i j, (s.tasks.pc i).shuts = true → (s.tasks.pc j).shuts = true → i = j
  silences : ∀ j, (s.tasks.pc j).silences = true → s.Emptied
  aborting : ∀ j, s.tasks.pc j = .shutdownAborting → s.Vacated

/-- **Nothing fills the voice slot of an emptied client**, or takes its gate. -/
theorem Emptied.step (he : s.Emptied) (hs : s.Sound) (h : s.step env a = some t) : t.Emptied := by
  have hstopped : t.stopped = true := ((step_cases h).grows hs.connections).stopped he.stopped
  have still {j : Task} (hpc : t.tasks.pc j = s.tasks.pc j) : (t.tasks.pc j).busy = false := by
    rw [hpc]
    exact he.idle j
  rcases step_slots hs.tasks h with ⟨i, hm⟩ | hidle
  · have hothers (j : Task) (hji : j ≠ i) : (t.tasks.pc j).busy = false := by
      rcases hm.others j hji with hpc | ⟨-, r, hr⟩ | ⟨-, -, hr⟩
      · exact still hpc
      · rw [hr]
        rfl
      · rw [hr]
        rfl
    have hmover (hv : t.voice = none) (hbusy : (t.tasks.pc i).busy = false) : t.Emptied := by
      refine ⟨hstopped, hv, fun j => ?_⟩
      by_cases hji : j = i
      · exact hji ▸ hbusy
      · exact hothers j hji
    cases hm.slots.voice with
    | same hv hbusy =>
        refine hmover (hv.trans he.voice) ?_
        by_contra hnot
        rcases hbusy (by simpa using hnot) with hbefore | hrunning
        · rw [he.idle i] at hbefore
          cases hbefore
        · rw [he.stopped] at hrunning
          cases hrunning
    | takes v k _ hv => rw [he.voice] at hv; cases hv
    | installs call b w reuse x hp =>
        have hidle := he.idle i
        rw [hp] at hidle
        cases hidle
    | putsBack v hp =>
        have hbusy := Pc.busy_of_leaves (p := s.tasks.pc i) (by rw [hp]; rfl)
        rw [he.idle i] at hbusy
        cases hbusy
  · exact ⟨hstopped, hidle.voice.trans he.voice, fun j => still (by rw [hidle.tasks])⟩

/-- A move in an emptied client remembers no join. -/
theorem Emptied.intent {q : Pc V} (he : s.Emptied) (h : Effect env s t i q)
    (hnone : s.voiceIntent = none) : t.voiceIntent = none := by
  by_contra hsome
  obtain ⟨intent, hintent⟩ := Option.ne_none_iff_exists'.mp hsome
  have hidle := he.idle i
  rcases h.intent hintent with hbefore | ⟨-, x, hgrown⟩ | hpending
  · rw [hnone] at hbefore
    cases hbefore
  · rcases h.sessions with heq | ⟨call, b, w, reuse, conn, y, hp, -⟩
    · rw [heq] at hgrown
      simp at hgrown
    · rw [hp] at hidle
      cases hidle
  · rw [Pc.busy_of_pending hpending] at hidle
    cases hidle

/-- **Nothing fills the other slots of an emptied client.** -/
theorem Emptied.vacated_step (he : s.Emptied) (hs : s.Sound) (hv : s.Vacated)
    (h : s.step env a = some t) : t.Vacated := by
  have slots {i : Task} (hslots : Slots s t i) : t.state = none ∧ t.keyCache = .new := by
    refine ⟨?_, ?_⟩
    · rcases hslots.state with heq | hnone | hrunning
      · exact heq.trans hv.state
      · exact hnone
      · rw [he.stopped] at hrunning
        cases hrunning
    · ext1 id
      rcases hslots.key id with heq | hnone | hbusy
      · rw [heq, hv.key]
      · exact hnone
      · rw [he.idle i] at hbusy
        cases hbusy
  have moved {i : Task} {q : Pc V} (hslots : Slots s t i) (hm : Moved env s t i q) : t.Vacated := by
    obtain ⟨hstate, hkey⟩ := slots hslots
    refine ⟨?_, hstate, he.intent hm.effect hv.intent, hkey⟩
    rcases hm.effect.control with heq | ⟨hnone, -⟩
    · exact heq.trans hv.control
    · exact hnone
  have idles (hidle : Idles s t) : t.Vacated := by
    refine ⟨hidle.control.trans hv.control, hidle.state.trans hv.state,
      hidle.intent.trans hv.intent, ?_⟩
    ext1 id
    rcases hidle.key id with heq | hnone
    · rw [heq, hv.key]
    · exact hnone
  have hchange := step_cases h
  rcases step_slots hs.tasks h with ⟨i, hm⟩ | hidle
  · cases hchange with
    | call n c q result hp hmoved =>
        have hcall : s.call (.host n) c = some t := by simpa [Client.step, hp] using h
        exact moved (slots_call hcall) hmoved
    | resume i input q hp hmoved => exact moved (slots_resume h) hmoved
    | install i input c conn hp hconn hstopped ht =>
        rw [he.stopped] at hstopped
        cases hstopped
    | abort i input hp ht =>
        subst ht
        exact ⟨hv.control, hv.state, hv.intent, hv.key⟩
    | engine c input conn next hconn hstep ht =>
        subst ht
        exact ⟨hv.control, hv.state, hv.intent, hv.key⟩
    | close c ht => subst ht; exact ⟨hv.control, hv.state, hv.intent, hv.key⟩
    | worker w input worker next sealed keyCache hworker hstep ht =>
        have hslots := slots hm.slots
        subst ht
        exact ⟨hv.control, hv.state, hv.intent, hslots.2⟩
  · exact idles hidle

/-! ## One step -/

/-- A task that holds the gate stays where it is while another moves. -/
theorem Orderly.stays (ho : s.Orderly) (hm : Moves s t a i) (hj : j ≠ i)
    (hgate : (s.tasks.pc j).holdsGate = true) : t.tasks.pc j = s.tasks.pc j := by
  rcases hm.others j hj with heq | ⟨hexited, -⟩ | ⟨habort, -, -⟩
  · exact heq
  · rw [hexited] at hgate
    cases hgate
  · have hsilences : (s.tasks.pc i).silences = true := by
      rw [habort]
      rfl
    rcases Pc.busy_or_silences hgate with hbusy | hother
    · rw [(ho.silences i hsilences).idle j] at hbusy
      cases hbusy
    · exact absurd (ho.shuts j i (Pc.shuts_of_silences hother) (Pc.shuts_of_silences hsilences))
        hj

theorem joinStarted_of_step {call : JoinCall V} {b : Binding} {w : ℕ} {reuse : Option SessionKey}
    {input : Input} (hp : s.tasks.pc i = .join call (.starting b w reuse))
    (h : s.step env (.resume i input) = some t) : s.joinStarted i call b w reuse = some t := by
  cases input with
  | ready => simpa [Client.step, resume, resumeJoin, hp] using h
  | _ => simp [Client.step, resume, resumeJoin, hp] at h

theorem lockTeardown_of_step {session : ℕ} {k : After V} {input : Input}
    (hp : s.tasks.pc i = .teardown session k) (h : s.step env (.resume i input) = some t) :
    s.lockTeardown i session k = some t := by
  cases input with
  | ready => simpa [Client.step, resume, hp] using h
  | _ => simp [Client.step, resume, hp] at h

/-- **Nobody forgets a worker** that is to be asked. -/
theorem Orderly.covered_step (ho : s.Orderly) (h : s.step env a = some t) {w : ℕ}
    {worker' : Worker K} (hw' : t.workers[w]? = some worker') (hc : s.Covered w) :
    Worker.IsAsked worker' ∨ t.Covered w := by
  have hgrows := (step_cases h).grows ho.sound.connections
  rcases step_slots ho.sound.tasks h with ⟨i, hm⟩ | hidle
  · cases hc with
    | current v x hv hx hxw =>
        refine .inr ?_
        have hx' := hgrows.getElem?_sessions hx
        cases hm.slots.voice with
        | same hsame => exact .current v x (hsame.trans hv) hx' hxw
        | takes v' k _ hv' _ hq hk =>
            obtain rfl : v = v' := Option.some.inj (hv.symm.trans hv')
            exact .closing i v k x hq hk hx' hxw
        | installs _ _ _ _ _ _ _ _ _ _ hprevious =>
            obtain ⟨k, hq, hk⟩ := hprevious v hv
            exact .closing i v k x hq hk hx' hxw
        | putsBack v' hp =>
            have hnone := ho.leaves i (by rw [hp]; rfl)
            rw [hv] at hnone
            cases hnone
    | starting j call b reuse hp =>
        by_cases hji : j = i
        · subst hji
          rcases hm.action with ⟨input, rfl⟩ | ⟨result, hreturned⟩
          · exact joinStarted_attends ho.starts (joinStarted_of_step hp h) hw'
          · rw [hreturned] at hp
            cases hp
        · exact .inr (.starting j call b reuse ((ho.stays hm hji (by rw [hp]; rfl)).trans hp))
    | closing j v k x hp hk hx hxw =>
        by_cases hji : j = i
        · subst hji
          rcases hm.action with ⟨input, rfl⟩ | ⟨result, hreturned⟩
          · subst hxw
            exact .inl (lockTeardown_attends ho.left hx (lockTeardown_of_step hp h) hw')
          · rw [hreturned] at hp
            cases hp
        · have hstays := ho.stays hm hji (by rw [hp]; exact hk)
          exact .inr (.closing j v k x (hstays.trans hp) hk (hgrows.getElem?_sessions hx) hxw)
  · refine .inr ?_
    cases hc with
    | current v x hv hx hxw =>
        exact .current v x (hidle.voice.trans hv) (hgrows.getElem?_sessions hx) hxw
    | starting j call b reuse hp => exact .starting j call b reuse (by rw [hidle.tasks, hp])
    | closing j v k x hp hk hx hxw =>
        exact .closing j v k x (by rw [hidle.tasks, hp]) hk (hgrows.getElem?_sessions hx) hxw

theorem Orderly.attended_step (ho : s.Orderly) (h : s.step env a = some t) : t.Attended := by
  intro w worker' hw'
  rcases step_worker_inv h hw' with ⟨worker, hw, hfate⟩ | ⟨i, call, b, reuse, codec, hp, -⟩
  · rcases ho.attended w worker hw with hasked | hcovered
    · rcases hfate with hmore | ⟨input, sealed, -, hturn⟩
      · exact .inl (hasked.asked hmore)
      · exact .inl (hasked.turn hturn)
    · exact ho.covered_step h hw' hcovered
  · exact .inr (.starting i call b reuse hp)

/-- A task that shuts the client down was there before the action, or has moved. -/
theorem step_shuts (h : s.step env a = some t) (hq : (t.tasks.pc j).shuts = true) :
    t.tasks.pc j = s.tasks.pc j ∨ (Moved env s t j (t.tasks.pc j) ∧
      ((∃ input, a = .resume j input) ∨ ∃ result, s.tasks.pc j = .returned result)) := by
  cases step_cases h with
  | call n c q result hp hm =>
      by_cases hj : j = .host n
      · subst hj
        have hpc : t.tasks.pc (.host n) = q := by rw [hm.pc, Function.update_self]
        exact .inr ⟨hpc ▸ hm, .inr ⟨result, hp⟩⟩
      · exact .inl (by rw [hm.pc, Function.update_of_ne hj])
  | resume i input q hp hm =>
      by_cases hj : j = i
      · subst hj
        have hpc : t.tasks.pc j = q := by rw [hm.pc, Function.update_self]
        exact .inr ⟨hpc ▸ hm, .inl ⟨input, rfl⟩⟩
      · exact .inl (by rw [hm.pc, Function.update_of_ne hj])
  | install i input c conn hp hconn hstopped ht =>
      refine .inl ?_
      subst ht
      by_cases hj : j = i
      · subst hj
        simp [goto, Pc.shuts, Pc.silences] at hq
      · by_cases hjr : j = .relay (s.connectionGeneration + 1)
        · subst hjr
          simp [goto, Gate.Tasks.goto, hj, Pc.shuts, Pc.silences] at hq
        · simp [goto, Gate.Tasks.goto, hj, hjr]
  | abort i input hp ht =>
      refine .inl ?_
      subst ht
      by_cases hj : j = i
      · subst hj
        simp [shutdownFinish, goto, Pc.shuts, Pc.silences] at hq
      · cases j with
        | host n => simp [shutdownFinish, goto, Gate.Tasks.goto, hj]
        | relay g => simp [shutdownFinish, goto, Gate.Tasks.goto, hj, Pc.shuts, Pc.silences] at hq
  | engine c input conn next hconn hstep ht => exact .inl (by rw [ht])
  | close c ht => exact .inl (by rw [ht]; rfl)
  | worker w input worker next sealed keyCache hworker hstep ht => exact .inl (by rw [ht])

/-- **Only the first shutdown goes on.** -/
theorem Orderly.shuts_step (ho : s.Orderly) (h : s.step env a = some t)
    (hi : (t.tasks.pc i).shuts = true) (hj : (t.tasks.pc j).shuts = true) : i = j := by
  have hbefore {k : Task} (hk : (t.tasks.pc k).shuts = true) : (s.tasks.pc k).shuts = true ∨
      (s.stopped = false ∧ Moved env s t k (t.tasks.pc k)) := by
    rcases step_shuts h hk with heq | ⟨hm, -⟩
    · exact .inl (heq ▸ hk)
    · exact (hm.effect.shuts_or hk).imp_right fun hrunning => ⟨hrunning.1, hm⟩
  have hstopped {k : Task} (hk : (s.tasks.pc k).shuts = true) : s.stopped ≠ false := by
    rw [ho.sound.control.shuts k hk]
    decide
  rcases hbefore hi with hi' | ⟨hrunning, hm⟩
  · rcases hbefore hj with hj' | ⟨hrunning, -⟩
    · exact ho.shuts i j hi' hj'
    · exact absurd hrunning (hstopped hi')
  · by_contra hne
    rw [hm.pc, Function.update_of_ne (Ne.symm hne)] at hj
    exact hstopped hj hrunning

/-- Shutdown gets the gate once it is free, and takes the session out of its slot. -/
theorem shutdownVoice_empties (h : s.shutdownVoice i = some t) :
    s.tasks.holder = none ∧ t.voice = none := by
  cases shutdownVoice_cases h with
  | finds hfree hvoice => exact ⟨hfree, hvoice⟩
  | takes session _ _ h =>
      have hfree := (acquire_eq_some h).1
      obtain ⟨tasks, -, rfl⟩ := Option.map_eq_some_iff.mp h
      exact ⟨hfree, rfl⟩

theorem shutdownVoice_of_step {input : Input} (hp : s.tasks.pc i = .shutdownGate)
    (h : s.step env (.resume i input) = some t) : s.shutdownVoice i = some t := by
  cases input with
  | ready => simpa [Client.step, resume, hp] using h
  | _ => simp [Client.step, resume, hp] at h

/-- **Once shutdown has had the gate, the client is empty.** -/
theorem Orderly.silences_step (ho : s.Orderly) (h : s.step env a = some t)
    (hj : (t.tasks.pc j).silences = true) : t.Emptied := by
  rcases step_shuts h (Pc.shuts_of_silences hj) with heq | ⟨hm, haction⟩
  · exact (ho.silences j (heq ▸ hj)).step ho.sound h
  · rcases hm.effect.silences_or hj with hp | ⟨hp, -⟩
    · exact (ho.silences j hp).step ho.sound h
    · rcases haction with ⟨input, rfl⟩ | ⟨result, hreturned⟩
      · obtain ⟨hfree, hvoice⟩ := shutdownVoice_empties (shutdownVoice_of_step hp h)
        have hstopped := ho.sound.control.shuts j (by rw [hp]; rfl)
        refine ⟨((step_cases h).grows ho.sound.connections).stopped hstopped, hvoice, fun k => ?_⟩
        by_cases hk : k = j
        · subst hk
          exact Pc.not_busy_of_silences hj
        · rw [hm.pc, Function.update_of_ne hk]
          by_contra hbusy
          exact ho.sound.tasks.gate.free hfree k (Pc.holdsGate_of_busy (by simpa using hbusy))
      · rw [hreturned] at hp
        cases hp

/-- The last parts of shutdown come after the control connection. -/
theorem Effect.closes_or {q : Pc V} (h : Effect env s t i q) (hq : q.closes = true) :
    s.tasks.pc i = .shutdownControl ∨ (s.tasks.pc i).closes = true := by
  cases h with
  | calm h le => exact .inr (le.closes hq)
  | shutsControl c hp | clears hp => exact .inl hp
  | installsFirst _ _ _ _ _ _ _ hle | records _ _ _ _ _ _ hle => exact by cases hle.1.closes hq
  | shutsVoice _ hle => exact by cases hle.closes hq
  | handles _ _ _ _ _ _ _ _ _ _ heq =>
      rcases heq with ⟨-, rfl⟩ | ⟨-, rfl⟩ | ⟨intent, -, -, -, rfl⟩ <;> cases hq
  | _ => subst_vars; cases hq

/-- What a task that shuts the client down does next. -/
inductive ShutsNext (s t : Client V K) (i : Task) : Prop
  | goes (hp : (t.tasks.pc i).silences = true) (hq : t.tasks.pc i ≠ .shutdownAborting)
  | clears (u : Client V K) (ht : t = u.shutdownClear i)
  | finishes (hp : s.tasks.pc i = .shutdownAborting) (ht : t = s.shutdownFinish i)

theorem shutdownVoice_next (h : s.shutdownVoice i = some t) : ShutsNext s t i := by
  cases shutdownVoice_cases h with
  | finds _ _ => exact .goes (by simp [goto, Pc.silences]) (by simp [goto])
  | takes session _ _ h =>
      have hp := acquire_pc h
      exact .goes (by rw [hp]; rfl) (by rw [hp]; exact fun h => by cases h)

theorem shutdownConnection_next (h : s.shutdownConnection i = some t) : ShutsNext s t i := by
  cases shutdownConnection_cases h with
  | clears _ _ => exact .clears s rfl
  | closes c _ _ => exact .goes (by simp [goto, Pc.silences]) (by simp [goto])

/-- **A shutdown goes on until its last part.** -/
theorem resume_shuts {input : Input} (hp : (s.tasks.pc i).shuts = true)
    (h : s.step env (.resume i input) = some t) : ShutsNext s t i := by
  cases hpc : s.tasks.pc i with
  | teardown session k =>
      obtain rfl : k = .shutdown := by
        rw [hpc] at hp
        cases k <;> first | rfl | cases hp
      have h := lockTeardown_of_step hpc h
      cases lockTeardown_cases h with
      | finds viaClient hk _ => cases hk
      | stops x _ _ => exact .goes (by simp [goto, Pc.silences]) (by simp [goto])
  | stopping session k =>
      obtain rfl : k = .shutdown := by
        rw [hpc] at hp
        cases k <;> first | rfl | cases hp
      cases input with
      | ready =>
          have h : s.transportStopped i session .shutdown = some t := by
            simpa [Client.step, resume, hpc] using h
          obtain ⟨x, -, -, hclosed⟩ := transportStopped_cases h
          cases hclosed with
          | shuts _ => exact .goes (by simp [release, Pc.silences]) (by simp [release])
          | records _ _ _ _ hk | relays _ hk | closes hk | fails _ hk | leaves _ hk => cases hk
      | _ => simp [Client.step, resume, hpc] at h
  | leaving session k =>
      obtain rfl : k = .shutdown := by
        rw [hpc] at hp
        cases k <;> first | rfl | cases hp
      cases input <;> simp [Client.step, resume, hpc, leaveResponded] at h
  | shutdownGate => exact shutdownVoice_next (shutdownVoice_of_step hpc h)
  | shutdownControl =>
      cases input with
      | ready => exact shutdownConnection_next (by simpa [Client.step, resume, hpc] using h)
      | _ => simp [Client.step, resume, hpc] at h
  | shutdownClosing c =>
      cases input with
      | ready =>
          have h : (if s.isClosed c then some ({ s with controlHolder := none }.shutdownClear i)
              else none) = some t := by
            simpa [Client.step, resume, hpc] using h
          obtain ⟨-, h⟩ := Option.ite_none_right_eq_some.mp h
          exact .clears _ (Option.some.inj h).symm
      | _ => simp [Client.step, resume, hpc] at h
  | shutdownAborting =>
      cases input with
      | ready =>
          have h : some (s.shutdownFinish i) = some t := by simpa [Client.step, resume, hpc] using h
          exact .finishes hpc (Option.some.inj h).symm
      | _ => simp [Client.step, resume, hpc] at h
  | _ => rw [hpc] at hp; cases hp

/-- **Once shutdown is past the control connection, the other slots are empty.** -/
theorem Orderly.aborting_step (ho : s.Orderly) (ht : t.Sound) (h : s.step env a = some t)
    (hj : t.tasks.pc j = .shutdownAborting) : t.Vacated := by
  have hcloses : (t.tasks.pc j).closes = true := by
    rw [hj]
    rfl
  have hcontrol := ht.control.closes j hcloses
  rcases step_shuts h (Pc.shuts_of_closes hcloses) with heq | ⟨hm, haction⟩
  · have hp := heq.symm.trans hj
    exact (ho.silences j (by rw [hp]; rfl)).vacated_step ho.sound (ho.aborting j hp) h
  · have hshuts : (s.tasks.pc j).shuts = true := by
      rcases hm.effect.closes_or hcloses with hp | hp
      · rw [hp]
        rfl
      · exact Pc.shuts_of_closes hp
    rcases haction with ⟨input, rfl⟩ | ⟨result, hreturned⟩
    · cases resume_shuts hshuts h with
      | goes _ hq => exact absurd hj hq
      | clears u ht => exact ⟨hcontrol, by rw [ht]; rfl, by rw [ht]; rfl, by rw [ht]; rfl⟩
      | finishes hp ht =>
          rw [ht] at hj
          simp [shutdownFinish, goto] at hj
    · rw [hreturned] at hshuts
      cases hshuts

theorem orderly_new (autoRejoinVoice : Bool) (policy : ReconnectPolicy) :
    (new autoRejoinVoice policy : Client V K).Orderly where
  sound := sound_new _ _
  leaves j h := rfl
  left v h := by cases h
  starts w worker h := by cases h
  attended w worker h := by cases h
  shuts i j h _ := by cases i <;> cases h
  silences j h := by cases j <;> cases h
  aborting j h := by cases j <;> cases h

/-- **Every action keeps the invariants of shutdown.** -/
theorem Orderly.step (ho : s.Orderly) (h : s.step env a = some t) : t.Orderly where
  sound := ho.sound.step h
  leaves := leavesTaken_step ho.sound ho.leaves h
  left := leftStopped_step ho.sound ho.left h
  starts := startsSettled_step ho.starts h
  attended := ho.attended_step h
  shuts _ _ hi hj := ho.shuts_step h hi hj
  silences _ hj := ho.silences_step h hj
  aborting _ hj := ho.aborting_step (ho.sound.step h) h hj

/-! ## Complete shutdown -/

/-- The client is shut down: nothing is installed, nothing is remembered, and every
worker has been asked to close or has stopped by itself. -/
structure ShutDown (s : Client V K) : Prop where
  voice : s.voice = none
  control : s.control = none
  workers : ∀ (w : ℕ) (worker : Worker K), s.workers[w]? = some worker → Worker.IsAsked worker
  keyCache : s.keyCache = .new
  voiceIntent : s.voiceIntent = none
  state : s.state = none

/-- An emptied client that is shut down has nobody left to ask. -/
structure Closed (s : Client V K) : Prop where
  sound : s.Sound
  emptied : s.Emptied
  vacated : s.Vacated
  asked : ∀ (w : ℕ) (worker : Worker K), s.workers[w]? = some worker → Worker.IsAsked worker

theorem Closed.shutDown (h : s.Closed) : s.ShutDown where
  voice := h.emptied.voice
  control := h.vacated.control
  workers := h.asked
  keyCache := h.vacated.key
  voiceIntent := h.vacated.intent
  state := h.vacated.state

/-- **A closed client stays closed.** -/
theorem Closed.step (hc : s.Closed) (h : s.step env a = some t) : t.Closed := by
  have hemptied := hc.emptied.step hc.sound h
  refine ⟨hc.sound.step h, hemptied, hc.emptied.vacated_step hc.sound hc.vacated h, ?_⟩
  intro w worker' hw'
  rcases step_worker_inv h hw' with ⟨worker, hw, hasked | ⟨input, sealed, -, hturn⟩⟩ |
    ⟨i, call, b, reuse, codec, hp, -⟩
  · exact (hc.asked w worker hw).asked hasked
  · exact (hc.asked w worker hw).turn hturn
  · have hidle := hemptied.idle i
    rw [hp] at hidle
    cases hidle

/-- A shutdown that is about to return has closed the client. -/
theorem Orderly.closed (ho : s.Orderly) (hp : s.tasks.pc i = .shutdownAborting) : s.Closed := by
  have hsilences : (s.tasks.pc i).silences = true := by
    rw [hp]
    rfl
  have he := ho.silences i hsilences
  refine ⟨ho.sound, he, ho.aborting i hp, fun w worker hw => ?_⟩
  rcases ho.attended w worker hw with hasked | hcovered
  · exact hasked
  · cases hcovered with
    | current v x hv => rw [he.voice] at hv; cases hv
    | starting j call b reuse hj =>
        have hidle := he.idle j
        rw [hj] at hidle
        cases hidle
    | closing j v k x hj hk =>
        rcases Pc.busy_or_silences (p := s.tasks.pc j) (by rw [hj]; exact hk) with hbusy | hother
        · rw [he.idle j] at hbusy
          cases hbusy
        · obtain rfl := ho.shuts j i (Pc.shuts_of_silences hother) (Pc.shuts_of_silences hsilences)
          rw [hp] at hj
          cases hj

/-- **Shutdown is complete.** In every run of the client, when the task that set the
shutdown flag returns from `shutdown`, the client is shut down, and it stays so whatever
the tasks, the connections and the workers do and whatever is called next. -/
theorem shutdown_is_complete (env : Env V K) (autoRejoinVoice : Bool) (policy : ReconnectPolicy)
    (schedule rest : List (Action V)) (s t u : Client V K) (n : ℕ) (input : Input)
    (result : Except SdkError Unit)
    (hreach : Transition.exec (step env) (new autoRejoinVoice policy) schedule = some s)
    (hshuts : (s.tasks.pc (.host n)).shuts = true)
    (hreturn : s.step env (.resume (.host n) input) = some t)
    (hreturned : t.tasks.pc (.host n) = .returned result)
    (hrest : Transition.exec (step env) t rest = some u) : t.ShutDown ∧ u.ShutDown := by
  have ho : s.Orderly :=
    Transition.invariant (fun _ _ _ ho h => ho.step h) (orderly_new _ _) hreach
  have hlast : s.tasks.pc (.host n) = .shutdownAborting := by
    cases resume_shuts hshuts hreturn with
    | goes hp => rw [hreturned] at hp; cases hp
    | clears v ht =>
        rw [ht] at hreturned
        simp [shutdownClear, goto] at hreturned
    | finishes hp => exact hp
  have hclosed : t.Closed := (ho.closed hlast).step hreturn
  have hstays : u.Closed := Transition.invariant (fun _ _ _ hc h => hc.step h) hclosed hrest
  exact ⟨hclosed.shutDown, hstays.shutDown⟩

/-- Host `2` waits for the gate while host `1` shuts down the client of a joined host. -/
def shuttingDown : Schedule :=
  joinedSchedule ++
    [.call 2 (.joinVoice sampleChannel ⟨none, false, none⟩), .call 1 .shutdown,
      .resume (.host 1) .ready, .resume (.host 1) .ready, .resume (.host 1) .ready,
      .worker 0 .stop, .resume (.host 1) .ready, .resume (.host 1) .ready, .engine 0 .stop,
      .resume (.host 1) .ready]

/-- The waiting join gets the gate too late, and another host connects too late. -/
def afterShutdown : Schedule := [.resume (.host 2) .ready, .call 3 .connect]

/-- The join that comes too late finds the client shut down. -/
theorem shutdown_is_complete_late :
    ∃ s t u, Transition.exec (step sampleClientEnv) sampleClient shuttingDown = some s ∧
      s.step sampleClientEnv (.resume (.host 1) .ready) = some t ∧
      Transition.exec (step sampleClientEnv) t afterShutdown = some u ∧
      s.workers.length = 1 ∧ t.ShutDown ∧ u.ShutDown := by
  have hrun : (Transition.exec (step sampleClientEnv) sampleClient shuttingDown).any (fun s =>
      (s.tasks.pc (.host 1)).shuts && decide (s.workers.length = 1) &&
        (s.step sampleClientEnv (.resume (.host 1) .ready)).any fun t =>
          (t.tasks.pc (.host 1)).returnedOk &&
            (Transition.exec (step sampleClientEnv) t afterShutdown).isSome) = true := by
    decide +kernel
  obtain ⟨s, hs, hresult⟩ := (Option.any_eq_true _ _).mp hrun
  simp only [Bool.and_eq_true, decide_eq_true_eq] at hresult
  obtain ⟨⟨hshuts, hworkers⟩, hexec⟩ := hresult
  obtain ⟨t, ht, hresult⟩ := (Option.any_eq_true _ _).mp hexec
  simp only [Bool.and_eq_true] at hresult
  obtain ⟨hok, hrest⟩ := hresult
  obtain ⟨u, hu⟩ := Option.isSome_iff_exists.mp hrest
  obtain ⟨hreturn, hstays⟩ := shutdown_is_complete sampleClientEnv true ⟨true, none⟩ shuttingDown
    afterShutdown s t u 1 .ready (.ok ()) hs hshuts ht (Pc.eq_returned_of_ok hok) hu
  exact ⟨s, t, u, hs, ht, hu, hworkers, hreturn, hstays⟩

end Client

end ZephyrVox.Sdk
