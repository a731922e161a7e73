import ZephyrVox.Sdk.Sessions

/-!
# The relay watches the current session

The relay of a connection generation is meant to close the current session at the
first stop event after the session was installed. It does so as long as no stop
event is lost on the way: none is skipped when the relay lags, and no generation
takes over from a relay that has yet to receive one.

## Main definitions

* `Skipped` — an event that a lagging relay skips.
* `Watched` — between a running session and the relay's cursor no stop event was
  published, except the one the relay is about to act on.
* `watched_step` — every action that loses no stop event keeps it.
* `no_orphaned_session` — so no session outlives its stop event.
-/

namespace ZephyrVox.Sdk

open Realtime Voice

namespace Client

variable {V K : Type} {env : Env V K} {s t u : Client V K} {i : Task} {q : Pc V} {a : Action V}

/-! ## Conditions on a step -/

/-- The relay of generation `g` lags, and the action makes it skip event `e` at
position `p`. -/
def Skipped (s : Client V K) (a : Action V) (g p : ℕ) (e : ClientEvent V) : Prop :=
  ∃ (input : Input) (r : Relay) (conn : Connection V), a = .resume (.relay g) input ∧
    s.tasks.pc (.relay g) = .relayReceive r ∧ s.connection? r.connection = some conn ∧
    conn.socket.events.capacity < conn.sent.length - r.next ∧
    r.next ≤ p ∧ p < conn.sent.length - conn.socket.events.capacity ∧ conn.sent[p]? = some e

/-- The current session, while it runs. -/
def Current (s : Client V K) (v : ℕ) (x : Session) : Prop :=
  s.voice = some v ∧ s.sessions[v]? = some x ∧ s.isRunning v = true

/-- An action that loses no stop event of the running current session: its relay
does not skip one, and a new connection is installed only while the relay waits
for the gate to close the session. -/
structure KeepsStops (s : Client V K) (a : Action V) : Prop where
  skipped : ∀ v x p e, s.Current v x → x.since ≤ p → s.Skipped a x.controlGeneration p e →
    stopsVoice e = false
  replaced : ∀ v x i input c, s.Current v x → a = .resume i input →
    s.tasks.pc i = .connectInstall c →
    (s.tasks.pc (.relay x.controlGeneration)).stop?.isSome = true

/-! ## The watch -/

/-- The relay of a session's generation runs, and between the session and the
relay's cursor there is no stop event, except one the relay is about to act on. -/
structure Watches (s : Client V K) (x : Session) : Prop where
  current : x.controlGeneration = s.connectionGeneration ∨
    (s.tasks.pc (.relay x.controlGeneration)).stop?.isSome = true
  relay : ∃ r, (s.tasks.pc (.relay x.controlGeneration)).relay? = some r ∧
    ∀ (conn : Connection V) (p : ℕ) (e : ClientEvent V), s.connection? x.control = some conn →
      x.since ≤ p → p < r.next → conn.sent[p]? = some e → stopsVoice e = true →
      (s.tasks.pc (.relay x.controlGeneration)).stop?.isSome = true ∧ p + 1 = r.next

/-- The running current session is watched. -/
def Watched (s : Client V K) : Prop := ∀ v x, s.Current v x → s.Watches x

theorem exists_of_isRunning {v : ℕ} (h : s.isRunning v = true) : ∃ x, s.sessions[v]? = some x := by
  cases hx : s.sessions[v]? with
  | none => simp [isRunning, hx] at h
  | some x => exact ⟨x, rfl⟩

/-- The relay of a session's generation reads the session's connection. -/
theorem SessionSound.relay_connection (ht : s.TasksSound) {x : Session} (hx : s.SessionSound x)
    {r : Relay} (hr : (s.tasks.pc (.relay x.controlGeneration)).relay? = some r) :
    r.connection = x.control ∧
      ∃ conn, s.connection? x.control = some conn ∧ r.next ≤ conn.sent.length := by
  rcases ht.relay x.controlGeneration with hexit | ⟨r', conn, hr', -, hinst, hconn, hnext⟩
  · rw [hexit] at hr
    cases hr
  · rw [hr] at hr'
    cases hr'
    rw [hx.control] at hinst
    have hcontrol : x.control = r.connection := Option.some.inj hinst
    exact ⟨hcontrol.symm, conn, by rw [hcontrol, hconn], hnext⟩

/-- A join installs its session while the relay of its generation runs, with a
cursor no later than the session. -/
theorem Installs.exists_relay (hs : s.Sound) {call : JoinCall V} {b : Binding} {w : ℕ}
    {reuse : Option SessionKey} {conn : Connection V} {x : Session}
    (hp : s.tasks.pc i = .join call (.starting b w reuse)) (h : s.Installs call b w conn x) :
    ∃ r, (s.tasks.pc (.relay x.controlGeneration)).relay? = some r ∧
      r.next ≤ conn.sent.length := by
  have hsx := h.sessionSound hs.connections hs.control hp
  have hcurrent : x.controlGeneration = s.connectionGeneration :=
    h.controlGeneration.trans h.generation
  have hlive := hs.control.relaying (.inl h.running) (by rw [← hcurrent]; exact hsx.generation)
  rw [← hcurrent] at hlive
  rcases hs.tasks.relay x.controlGeneration with hexit | ⟨r, _, hr, -⟩
  · exact absurd hexit hlive
  · obtain ⟨-, conn', hconn', hnext⟩ := hsx.relay_connection hs.tasks hr
    rw [h.control, h.connection] at hconn'
    cases hconn'
    exact ⟨r, hr, hnext⟩

/-- What was published before a cursor stays as it is. -/
theorem Grows.getElem?_sent (hg : Grows s t) {c p : ℕ} {conn conn' : Connection V}
    (hconn : s.connection? c = some conn) (hconn' : t.connection? c = some conn')
    (hp : p < conn.sent.length) : conn'.sent[p]? = conn.sent[p]? := by
  obtain ⟨conn'', hconn'', hf⟩ := hg.connections c conn hconn
  rw [hconn'] at hconn''
  cases hconn''
  obtain ⟨evs, hsent⟩ := hf.events
  rw [hsent, List.getElem?_append_left hp]

/-- A watch is kept while its relay stays where it is. -/
theorem Watches.keep (hs : s.Sound) (hg : Grows s t) {x : Session} (hx : s.SessionSound x)
    (hw : s.Watches x)
    (hcurrent : t.connectionGeneration = s.connectionGeneration ∨
      (s.tasks.pc (.relay x.controlGeneration)).stop?.isSome = true)
    (hrelay : (t.tasks.pc (.relay x.controlGeneration)).relay? =
      (s.tasks.pc (.relay x.controlGeneration)).relay?)
    (hstop : (t.tasks.pc (.relay x.controlGeneration)).stop? =
      (s.tasks.pc (.relay x.controlGeneration)).stop?) : t.Watches x := by
  obtain ⟨r, hr, hclean⟩ := hw.relay
  obtain ⟨-, conn, hconn, hnext⟩ := hx.relay_connection hs.tasks hr
  refine ⟨?_, r, hrelay.trans hr, ?_⟩
  · rw [hstop]
    rcases hcurrent with heq | hpending
    · rw [heq]
      exact hw.current
    · exact .inr hpending
  · intro conn' p e hconn' hsince hp he hstops
    rw [hg.getElem?_sent hconn hconn' (Nat.lt_of_lt_of_le hp hnext)] at he
    rw [hstop]
    exact hclean conn p e hconn hsince hp he hstops

/-- A relay that polls belongs to the current generation of the session it watches. -/
theorem Watches.current_of_receive {x : Session} (hw : s.Watches x) {r : Relay}
    (hp : s.tasks.pc (.relay x.controlGeneration) = .relayReceive r) :
    x.controlGeneration = s.connectionGeneration := by
  rcases hw.current with heq | hpending
  · exact heq
  · rw [hp] at hpending
    cases hpending

/-- A relay that has received nothing to act on leaves no stop event behind. -/
theorem Watches.clean {x : Session} (hw : s.Watches x) {r : Relay}
    (hp : s.tasks.pc (.relay x.controlGeneration) = .relayReceive r) {conn : Connection V} {p : ℕ}
    {e : ClientEvent V} (hconn : s.connection? x.control = some conn) (hsince : x.since ≤ p)
    (hlt : p < r.next) (he : conn.sent[p]? = some e) : stopsVoice e = false := by
  obtain ⟨r', hr', hclean⟩ := hw.relay
  rw [hp] at hr' hclean
  cases hr'
  by_contra hstops
  cases (hclean conn p e hconn hsince hlt he (by simpa using hstops)).1

/-- A watch whose relay moved its cursor past events that stop nothing, or to a
stop event it is about to act on. -/
theorem Watches.advance (hg : Grows s t) {x : Session} (hw : s.Watches x)
    (hgeneration : t.connectionGeneration = s.connectionGeneration) {r : Relay}
    (hp : s.tasks.pc (.relay x.controlGeneration) = .relayReceive r) {conn : Connection V}
    (hconn : s.connection? x.control = some conn) {next : ℕ} (hnext : next ≤ conn.sent.length)
    (hrelay : (t.tasks.pc (.relay x.controlGeneration)).relay? = some { r with next := next })
    (hnew : ∀ p e, x.since ≤ p → r.next ≤ p → p < next → conn.sent[p]? = some e →
      stopsVoice e = true →
      (t.tasks.pc (.relay x.controlGeneration)).stop?.isSome = true ∧ p + 1 = next) :
    t.Watches x := by
  refine ⟨.inl ((hw.current_of_receive hp).trans hgeneration.symm), _, hrelay, ?_⟩
  intro conn' p e hconn' hsince hlt he hstops
  have hlt : p < next := hlt
  rw [hg.getElem?_sent hconn hconn' (Nat.lt_of_lt_of_le hlt hnext)] at he
  by_cases hold : p < r.next
  · rw [hw.clean hp hconn hsince hold he] at hstops
    cases hstops
  · exact hnew p e hsince (Nat.le_of_not_lt hold) hlt he hstops

theorem Moved.watched (hs : s.Sound) (hg : Grows s t) (hw : s.Watched)
    (hskip : ∀ (v : ℕ) (x : Session) (r : Relay) (conn : Connection V) (p : ℕ)
      (e : ClientEvent V), s.Current v x → i = .relay x.controlGeneration →
      s.tasks.pc i = .relayReceive r → s.connection? r.connection = some conn →
      conn.socket.events.capacity < conn.sent.length - r.next → x.since ≤ p → r.next ≤ p →
      p < conn.sent.length - conn.socket.events.capacity → conn.sent[p]? = some e →
      stopsVoice e = false)
    (h : Moved env s t i q) : t.Watched := by
  have hgeneration := h.effect.generation.1
  rintro v x ⟨hv, hx, hr⟩
  -- A session that ran before is watched by the same relay.
  have hold (hv' : s.voice = some v) (hr' : s.isRunning v = true) :
      s.Current v x ∧ s.Watches x ∧ s.SessionSound x := by
    obtain ⟨y, hy⟩ := exists_of_isRunning hr'
    rw [hg.getElem?_sessions hy] at hx
    cases hx
    exact ⟨⟨hv', hy, hr'⟩, hw v x ⟨hv', hy, hr'⟩, hs.sessions.session v x hy⟩
  rcases h.effect.relay_cases with ⟨g, rfl, hmove⟩ | hstill
  · have hother {x : Session} (hne : x.controlGeneration ≠ g) :
        t.tasks.pc (.relay x.controlGeneration) = s.tasks.pc (.relay x.controlGeneration) := by
      rw [h.pc, Function.update_of_ne (by simpa using hne)]
    have hself : t.tasks.pc (.relay g) = q := by rw [h.pc, Function.update_self]
    cases hmove with
    | exits r hp hne hq hcalm =>
        obtain ⟨hv', hr'⟩ := hcalm.voice v hv hr
        obtain ⟨-, hwx, hsx⟩ := hold hv' hr'
        have hxg : x.controlGeneration ≠ g := by
          rintro rfl
          rcases hwx.current with heq | hpending
          · exact hne heq.symm
          · rw [hp] at hpending
            cases hpending
        exact hwx.keep hs hg hsx (.inl hgeneration) (by rw [hother hxg]) (by rw [hother hxg])
    | skips r conn next hp hq hconn hskips hcalm =>
        obtain ⟨hv', hr'⟩ := hcalm.voice v hv hr
        obtain ⟨hcur, hwx, hsx⟩ := hold hv' hr'
        by_cases hxg : x.controlGeneration = g
        · subst hxg
          obtain ⟨hc, -⟩ := hsx.relay_connection hs.tasks (by rw [hp]; rfl)
          rcases hskips with ⟨hlag, rfl⟩ | ⟨hne, -, -⟩
          · refine hwx.advance hg hgeneration hp (by rw [← hc, hconn]) (Nat.sub_le _ _)
              (by rw [hself, hq]; rfl) ?_
            intro p e hsince hle hlt he hstops
            rw [hskip v x r conn p e hcur rfl hp hconn hlag hsince hle hlt he] at hstops
            cases hstops
          · exact absurd (hwx.current_of_receive hp).symm hne
        · exact hwx.keep hs hg hsx (.inl hgeneration) (by rw [hother hxg]) (by rw [hother hxg])
    | handles r conn event hp hconn hevent hgen hcalm hrelay hstop =>
        obtain ⟨hv', hr'⟩ := hcalm.voice v hv hr
        rw [relay_forgetIntent_voice] at hv'
        rw [relay_forgetIntent_isRunning] at hr'
        obtain ⟨-, hwx, hsx⟩ := hold hv' hr'
        by_cases hxg : x.controlGeneration = g
        · subst hxg
          obtain ⟨hc, -⟩ := hsx.relay_connection hs.tasks (by rw [hp]; rfl)
          have hlt : r.next < conn.sent.length := (List.getElem?_eq_some_iff.mp hevent).1
          refine hwx.advance hg hgeneration hp (by rw [← hc, hconn]) hlt (by rw [hself, hrelay]) ?_
          intro p e _ hle hlt' he hstops
          obtain rfl : p = r.next := by omega
          rw [hevent] at he
          cases he
          rw [hself, hstop, if_pos hstops]
          exact ⟨rfl, rfl⟩
        · exact hwx.keep hs hg hsx (.inl hgeneration) (by rw [hother hxg]) (by rw [hother hxg])
    | passes r event hp hq hfree hnone hcalm =>
        obtain ⟨hv', hr'⟩ := hcalm.voice v hv hr
        obtain ⟨hcur, hwx, hsx⟩ := hold hv' hr'
        have hxg := hnone v x hv' hcur.2.1
        exact hwx.keep hs hg hsx (.inl hgeneration) (by rw [hother hxg]) (by rw [hother hxg])
    | takes r event v' y hp hq hfree hv' hy hgen hcalm => cases (hcalm.voice v hv hr).1
  · have hsame (j : Task) : (t.tasks.pc j).relay? = (s.tasks.pc j).relay? ∧
        (t.tasks.pc j).stop? = (s.tasks.pc j).stop? := by
      exact h.forall_pc (P := fun j p => p.relay? = (s.tasks.pc j).relay? ∧
        p.stop? = (s.tasks.pc j).stop?) (fun _ => ⟨rfl, rfl⟩) ⟨hstill.relay, hstill.stop⟩ j
    rcases h.effect.voice hs.sessions hg hv hr with ⟨hv', hr'⟩ | ⟨rfl, hrunning⟩
    · obtain ⟨-, hwx, hsx⟩ := hold hv' hr'
      exact hwx.keep hs hg hsx (.inl hgeneration) (hsame _).1 (hsame _).2
    · -- A new session starts at the end of the stream, where no cursor is past it.
      rcases h.effect.sessions with heq | ⟨call, b, w, reuse, conn, y, hp, hy, heq⟩
      · rw [heq, List.getElem?_eq_none (Nat.le_refl _)] at hx
        cases hx
      · rw [heq, List.getElem?_concat_length] at hx
        cases hx
        obtain ⟨r, hr, hnext⟩ := hy.exists_relay hs hp
        refine ⟨.inl ?_, r, (hsame _).1.trans hr, ?_⟩
        · rw [hy.controlGeneration, hy.generation, hgeneration]
        · intro _ p e _ hsince hlt _ _
          rw [hy.since] at hsince
          omega

/-- **The current session stays watched** in every step that loses no stop event. -/
theorem watched_step (hs : s.Sound) (hw : s.Watched) (hkeeps : s.KeepsStops a)
    (h : s.step env a = some t) : t.Watched := by
  have hchange := step_cases h
  have hg := hchange.grows hs.connections
  -- What holds when no task moves and no session is installed.
  have still (htasks : t.tasks = s.tasks) (hvoice : t.voice = s.voice)
      (hsessions : t.sessions = s.sessions)
      (hgeneration : t.connectionGeneration = s.connectionGeneration) : t.Watched := by
    rintro v x ⟨hv, hx, hr⟩
    rw [hsessions] at hx
    rw [hvoice] at hv
    have hsx := hs.sessions.session v x hx
    have hwx := hw v x ⟨hv, hx, hg.isRunning hx hsx.transport hr⟩
    exact hwx.keep hs hg hsx (.inl hgeneration) (by rw [htasks]) (by rw [htasks])
  cases hchange with
  | call n c q result hp hmoved =>
      refine hmoved.watched hs hg hw ?_
      rintro v x r conn p e - ⟨⟩
  | resume i input q hp hmoved =>
      refine hmoved.watched hs hg hw ?_
      rintro v x r conn p e hcur rfl hp hconn hlag hsince hle hlt he
      exact hkeeps.skipped v x p e hcur hsince ⟨input, r, conn, rfl, hp, hconn, hlag, hle, hlt, he⟩
  | install i input c conn hp hconn hstopped ht =>
      subst ht
      intro v x hcur
      have hsx := hs.sessions.session v x hcur.2.1
      have hpending := hkeeps.replaced v x i input c hcur rfl hp
      -- Neither the installing host nor the new relay is the one that watches.
      have hne : x.controlGeneration ≠ s.connectionGeneration + 1 := by
        have hlt := (List.getElem?_eq_some_iff.mp hsx.control).1
        rw [← hs.tasks.generation] at hlt
        have := hsx.generation
        omega
      obtain ⟨n, rfl⟩ := hs.tasks.exists_host (i := i) (by rw [hp]; rfl)
        (by rw [hp]; intro h; cases h)
      refine (hw v x hcur).keep hs hg hsx (.inr hpending) ?_ ?_
      all_goals simp [goto, Gate.Tasks.goto, hne]
  | abort i input hp ht =>
      subst ht
      rintro v x ⟨hv, -, hr⟩
      have hstopped : (s.shutdownFinish i).isRunning v = false :=
        hs.sessions.silences i (by rw [hp]; rfl) v hv
      rw [hr] at hstopped
      cases hstopped
  | engine c input conn next hconn hstep ht => subst ht; exact still rfl rfl rfl rfl
  | close c ht => subst ht; exact still rfl rfl rfl rfl
  | worker w input worker next sealed keyCache hworker hstep ht =>
      subst ht
      exact still rfl rfl rfl rfl

/-! ## No session outlives its stop event -/

/-- The relay of generation `g` has passed position `p` of its connection's stream:
it ended, or its cursor is behind `p` and it is not about to act on the event there. -/
def Passed (s : Client V K) (g p : ℕ) : Prop :=
  s.tasks.pc (.relay g) = .relayExited ∨
    ∃ r, (s.tasks.pc (.relay g)).relay? = some r ∧ p < r.next ∧
      ((s.tasks.pc (.relay g)).stop?.isSome = true → p + 1 ≠ r.next)

/-- No session that was installed before a stop event of its connection is still
installed and running once its relay has passed the event. -/
def NoOrphan (s : Client V K) : Prop :=
  ∀ (v p : ℕ) (x : Session) (conn : Connection V) (e : ClientEvent V), s.voice = some v →
    s.sessions[v]? = some x → s.connection? x.control = some conn → x.since ≤ p →
    conn.sent[p]? = some e → stopsVoice e = true → s.Passed x.controlGeneration p →
    s.isRunning v = false

theorem Watched.noOrphan (hw : s.Watched) : s.NoOrphan := by
  intro v p x conn e hv hx hconn hsince he hstops hpassed
  by_contra hr
  obtain ⟨r, hr, hclean⟩ := (hw v x ⟨hv, hx, by simpa using hr⟩).relay
  rcases hpassed with hexit | ⟨r', hr', hlt, hdone⟩
  · rw [hexit] at hr
    cases hr
  · rw [hr] at hr'
    cases hr'
    obtain ⟨hpending, heq⟩ := hclean conn p e hconn hsince hlt he hstops
    exact hdone hpending heq

/-- **No orphaned voice session**: in every run that loses no stop event of the
current session, no session outlives a stop event that its relay has passed. -/
theorem no_orphaned_session (env : Env V K) (autoRejoinVoice : Bool) (policy : ReconnectPolicy)
    (schedule : List (Action V))
    (hkeeps : Transition.Along (step env) KeepsStops (new autoRejoinVoice policy) schedule)
    (h : Transition.exec (step env) (new autoRejoinVoice policy) schedule = some t) :
    t.NoOrphan := by
  have hstep : ∀ s a t, s.Sound ∧ s.Watched → KeepsStops s a → step env s a = some t →
      t.Sound ∧ t.Watched := by
    intro s a t ⟨hs, hw⟩ hk h
    exact ⟨hs.step h, watched_step hs hw hk h⟩
  have hnew : (new autoRejoinVoice policy : Client V K).Watched := fun _ _ h => by cases h.1
  exact (Transition.invariant_along hstep ⟨sound_new _ _, hnew⟩ hkeeps h).2.noOrphan

/-- A test that guarantees that an action loses no stop event: a relay that polls
does not lag, and no session is installed while a connection is. -/
def checkStops (s : Client V K) : Action V → Bool
  | .resume i _ =>
      match s.tasks.pc i with
      | .connectInstall _ => s.voice.isNone
      | .relayReceive r =>
          (s.connection? r.connection).all fun conn =>
            conn.sent.length - r.next ≤ conn.socket.events.capacity
      | _ => true
  | _ => true

theorem keepsStops_of_check (h : s.checkStops a = true) : s.KeepsStops a := by
  refine ⟨?_, ?_⟩
  · rintro v x p e - - ⟨input, r, conn, rfl, hp, hconn, hlag, -⟩
    simp only [checkStops, hp, hconn, Option.all_some, decide_eq_true_eq] at h
    omega
  · rintro v x i input c ⟨hv, -⟩ rfl hp
    simp [checkStops, hp, hv] at h

/-- A joined client loses its socket, and the relay reads `Disconnected`. -/
def lostSchedule : Schedule :=
  joinedSchedule ++ losing 0 ++ relaying 1 4 ++ [.worker 0 .stop] ++ relaying 1 1

theorem no_orphaned_session_lost :
    ∃ t, Transition.exec (step sampleClientEnv) sampleClient lostSchedule = some t ∧
      t.sessions.length = 1 ∧ t.isRunning 0 = false ∧ t.NoOrphan := by
  have hrun : (Transition.exec (step sampleClientEnv) sampleClient lostSchedule).any (fun t =>
      t.sessions.length = 1 ∧ t.isRunning 0 = false) = true := by decide
  obtain ⟨t, ht, hfacts⟩ := (Option.any_eq_true _ _).mp hrun
  rw [decide_eq_true_eq] at hfacts
  refine ⟨t, ht, hfacts.1, hfacts.2, no_orphaned_session sampleClientEnv true ⟨true, none⟩
    lostSchedule ?_ ht⟩
  exact Transition.along_of_check (fun _ _ => keepsStops_of_check) (by decide)

/-- The connection of a joined client closes, and the host connects again before the
relay has read `Closed`; the relay then ends. -/
def reconnectSchedule : Schedule :=
  joinedSchedule ++ [.closeControl 0, .engine 0 .stop] ++ connecting 1 1 ++ relaying 1 1

/-- The session of the closed connection is still installed and runs. -/
theorem reconnectSchedule_orphans_session :
    ¬ ∀ (autoRejoinVoice : Bool) (policy : ReconnectPolicy) (schedule : Schedule)
      (t : Client (Option VoiceAuthority) SampleCipher),
      Transition.exec (step sampleClientEnv) (new autoRejoinVoice policy) schedule = some t →
      t.NoOrphan := by
  intro h
  have hstopped := h true ⟨true, none⟩ reconnectSchedule _ rfl 0 5 _ _ _ rfl rfl rfl (by decide)
    rfl rfl (.inl rfl)
  exact absurd hstopped (by decide)

end Client

end ZephyrVox.Sdk
