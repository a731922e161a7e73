import ZephyrVox.Sdk.Watch

/-!
# Stop events close the session they concern

A relayed event closes the current session, or forgets its intent, whatever the
session is. It is the right one when the relay had acted on every earlier stop
event as the session was installed, so that what it reads later was published
later, and when a reported loss of authority names the session.

## Main definitions

* `Pending` — the positions of the events a relay has yet to act on.
* `Stop.Concerns` — the event ended the socket or the authority of the session.
* `Aligned` — what keeps the relay's events apart from the sessions before them.
* `stop_events_concern_their_session` — in every such run an event closes only the
  session it concerns.
-/

namespace ZephyrVox.Sdk

open Realtime Voice

namespace Client

variable {V K : Type} {env : Env V K} {s t u : Client V K} {i : Task} {q : Pc V} {a : Action V}

/-! ## Events a relay has yet to act on -/

/-- The relay of generation `g` has yet to act on what is at position `p`. -/
def Pending (s : Client V K) (g p : ℕ) : Prop :=
  ∃ r, (s.tasks.pc (.relay g)).relay? = some r ∧
    (r.next ≤ p ∨ ((s.tasks.pc (.relay g)).stop?.isSome = true ∧ p + 1 = r.next))

/-- No stop event of the current generation is pending. -/
def Drained (s : Client V K) : Prop :=
  ∀ (r : Relay) (conn : Connection V) (p : ℕ) (e : ClientEvent V),
    (s.tasks.pc (.relay s.connectionGeneration)).relay? = some r →
    s.connection? r.connection = some conn → s.Pending s.connectionGeneration p →
    conn.sent[p]? = some e → stopsVoice e = false

/-- A move leaves no position pending that was not. -/
theorem Moved.pending (h : Moved env s t i q) {g p : ℕ} (hp : t.Pending g p) : s.Pending g p := by
  have hother (hi : i ≠ .relay g) : s.Pending g p := by
    unfold Pending at hp ⊢
    rwa [h.pc, Function.update_of_ne hi.symm] at hp
  by_cases hi : i = .relay g
  · subst hi
    obtain ⟨r', hr', hpos⟩ := hp
    rw [h.pc, Function.update_self] at hr' hpos
    rcases h.effect.relay_cases with ⟨g', hg', hmove⟩ | hstill
    · cases hg'
      cases hmove with
      | exits r hp hne hq hcalm => subst hq; cases hr'
      | skips r conn next hp hq hconn hskips hcalm =>
          subst hq
          cases hr'
          refine ⟨r, by rw [hp]; rfl, .inl ?_⟩
          rcases hpos with hpos | ⟨hstop, -⟩
          · have hpos : next ≤ p := hpos
            rcases hskips with ⟨hlag, rfl⟩ | ⟨-, -, rfl⟩ <;> omega
          · cases hstop
      | handles r conn event hp hconn hevent hgen hcalm hrelay hstop =>
          rw [hrelay] at hr'
          cases hr'
          refine ⟨r, by rw [hp]; rfl, .inl ?_⟩
          rcases hpos with hpos | ⟨-, hpos⟩
          · exact Nat.le_of_succ_le hpos
          · have hpos : p + 1 = r.next + 1 := hpos
            omega
      | passes r event hp hq hfree hnone hcalm =>
          subst hq
          cases hr'
          rcases hpos with hpos | ⟨hstop, -⟩
          · exact ⟨r', by rw [hp]; rfl, .inl hpos⟩
          · cases hstop
      | takes r event v x hp hq hfree hv hx hgen hcalm =>
          subst hq
          cases hr'
          rcases hpos with hpos | ⟨hstop, -⟩
          · exact ⟨r', by rw [hp]; rfl, .inl hpos⟩
          · cases hstop
    · rw [hstill.relay] at hr'
      rw [hstill.stop] at hpos
      exact ⟨r', hr', hpos⟩
  · exact hother hi

/-- The event a relay is about to act on is the last one before its cursor. -/
def StopSound (s : Client V K) : Prop :=
  ∀ (g : ℕ) (e : ClientEvent V), (s.tasks.pc (.relay g)).stop? = some e →
    ∃ (r : Relay) (conn : Connection V), (s.tasks.pc (.relay g)).relay? = some r ∧
      s.connection? r.connection = some conn ∧ 1 ≤ r.next ∧
      conn.sent[r.next - 1]? = some e ∧ stopsVoice e = true

theorem StopSound.step (hs : s.Sound) (h : s.StopSound) (hstep : s.step env a = some t) :
    t.StopSound := by
  have hchange := step_cases hstep
  have hg := hchange.grows hs.connections
  -- A relay that waits for the gate keeps what it read.
  have kept {g : ℕ} {e : ClientEvent V} {p : Pc V}
      (hrelay : p.relay? = (s.tasks.pc (.relay g)).relay?)
      (hstop : (s.tasks.pc (.relay g)).stop? = some e) :
      ∃ (r : Relay) (conn : Connection V), p.relay? = some r ∧
        t.connection? r.connection = some conn ∧ 1 ≤ r.next ∧
        conn.sent[r.next - 1]? = some e ∧ stopsVoice e = true := by
    obtain ⟨r, conn, hr, hconn, hle, he, hstops⟩ := h g e hstop
    obtain ⟨conn', hconn', -⟩ := hg.connections _ conn hconn
    refine ⟨r, conn', hrelay.trans hr, hconn', hle, ?_, hstops⟩
    rw [hg.getElem?_sent hconn hconn' (List.getElem?_eq_some_iff.mp he).1, he]
  have moved {i : Task} {q : Pc V} (hm : Moved env s t i q) : t.StopSound := by
    intro g e hstop
    rw [hm.pc] at hstop ⊢
    by_cases hi : Task.relay g = i
    · subst hi
      rw [Function.update_self] at hstop ⊢
      rcases hm.effect.relay_cases with ⟨g', hg', hmove⟩ | hstill
      · cases hg'
        cases hmove with
        | exits r hp hne hq hcalm => subst hq; cases hstop
        | skips r conn next hp hq hconn hskips hcalm => subst hq; cases hstop
        | handles r conn event hp hconn hevent hgen hcalm hrelay hq =>
            rw [hq] at hstop
            by_cases hstops : stopsVoice event = true
            · rw [if_pos hstops] at hstop
              cases hstop
              obtain ⟨conn', hconn', hsent⟩ := hm.effect.sent hconn
              refine ⟨_, conn', hrelay, hconn', Nat.le_add_left _ _, ?_, hstops⟩
              rw [hsent]
              exact hevent
            · rw [if_neg hstops] at hstop
              cases hstop
        | passes r event hp hq hfree hnone hcalm => subst hq; cases hstop
        | takes r event v x hp hq hfree hv hx hgen hcalm => subst hq; cases hstop
      · rw [hstill.stop] at hstop
        exact kept hstill.relay hstop
    · rw [Function.update_of_ne hi] at hstop ⊢
      exact kept rfl hstop
  have same (htasks : t.tasks = s.tasks) : t.StopSound := by
    intro g e hstop
    rw [htasks] at hstop ⊢
    exact kept rfl hstop
  cases hchange with
  | call n c q result hp hm => exact moved hm
  | resume i input q hp hm => exact moved hm
  | install i input c conn hp hconn hstopped ht =>
      intro g e hstop
      by_cases hi : Task.relay g = i
      · subst hi
        rw [ht] at hstop
        simp [goto] at hstop
        cases hstop
      · by_cases hne : g = s.connectionGeneration + 1
        · subst hne
          rw [ht] at hstop
          simp [goto, Gate.Tasks.goto, hi] at hstop
          cases hstop
        · have hpc : t.tasks.pc (.relay g) = s.tasks.pc (.relay g) := by
            rw [ht]
            simp [goto, Gate.Tasks.goto, hi, hne]
          rw [hpc] at hstop ⊢
          exact kept rfl hstop
  | abort i input hp ht =>
      obtain ⟨n, rfl⟩ := hs.tasks.exists_host_of_silences (by rw [hp]; rfl)
      intro g e hstop
      rw [ht, shutdownFinish_pc_relay] at hstop
      cases hstop
  | engine c input conn next hconn hstep ht => exact same (by rw [ht])
  | close c ht => exact same (by rw [ht]; rfl)
  | worker w input worker next sealed keyCache hworker hstep ht => exact same (by rw [ht])

/-! ## The session an event concerns -/

/-- The event ended what the session was joined on: it names the session as the one
that lost its authority, or it ended the socket the session was joined on. -/
def Owns (conn : Connection V) (x : Session) (p : ℕ) : ClientEvent V → Prop
  | .voiceLost authority => x.sessionId = authority.voiceSessionId
  | _ => conn.socketsAt p = x.socket

/-- The event was published on the session's connection after the session was
installed, and ended what the session was joined on. -/
structure Concerns (s : Client V K) (e : Stop V) (x : Session) (conn : Connection V) : Prop where
  session : s.sessions[e.session]? = some x
  connection : s.connection? x.control = some conn
  stream : e.connection = x.control
  published : conn.sent[e.position]? = some e.event
  since : x.since ≤ e.position
  owns : Owns conn x e.position e.event

/-- Every event that closed a running session, or forgot the intent of one,
concerned that session. -/
def StopsConcern (s : Client V K) : Prop :=
  ∀ e ∈ s.history.stops ++ s.history.forgets, ∃ x conn, s.Concerns e x conn

theorem Concerns.mono (hg : Grows s t) {e : Stop V} {x : Session} {conn : Connection V}
    (h : s.Concerns e x conn) : ∃ conn', t.Concerns e x conn' := by
  obtain ⟨conn', hconn', hf⟩ := hg.connections _ conn h.connection
  have hlt : e.position < conn.sent.length := (List.getElem?_eq_some_iff.mp h.published).1
  have hpublished : conn'.sent[e.position]? = some e.event := by
    rw [hg.getElem?_sent h.connection hconn' hlt, h.published]
  refine ⟨conn', hg.getElem?_sessions h.session, hconn', h.stream, hpublished, h.since, ?_⟩
  obtain ⟨evs, hsent⟩ := hf.events
  have howns := h.owns
  unfold Owns at howns ⊢
  split at howns
  · exact howns
  · rw [Connection.socketsAt_of_append hsent (Nat.le_of_lt hlt)]
    exact howns

/-! ## Conditions on a step -/

/-- An action that keeps the relay's events apart from sessions they do not concern. -/
structure Aligned (env : Env V K) (s : Client V K) (a : Action V) : Prop where
  /-- The relay does not skip a stop event published since the running session. -/
  skipped : ∀ v x p e, s.Current v x → x.since ≤ p → s.Skipped a x.controlGeneration p e →
    stopsVoice e = false
  /-- A connection is installed only while no session runs. -/
  replaced : ∀ v x i input c, s.Current v x → a = .resume i input →
    s.tasks.pc i ≠ .connectInstall c
  /-- A session is installed only once the relay has acted on every stop event. -/
  installed : ∀ i input call b w reuse, a = .resume i input →
    s.tasks.pc i = .join call (.starting b w reuse) → s.Drained
  /-- A reported loss of authority names the running session of the connection. -/
  named : ∀ v x c input conn next authority, s.Current v x → a = .engine c input →
    x.control = c → s.connection? c = some conn → conn.step env.serde input = some next →
    .voiceLost authority ∈ next.sent.drop conn.sent.length →
    x.sessionId = authority.voiceSessionId

theorem Aligned.keepsStops (h : s.Aligned env a) : s.KeepsStops a :=
  ⟨h.skipped, fun v x i input c hcur ha hp => absurd hp (h.replaced v x i input c hcur ha)⟩

/-! ## The relay is behind no session -/

/-- What is pending and what was published since a session concern it. -/
structure Fresh (s : Client V K) (x : Session) : Prop where
  current : x.controlGeneration = s.connectionGeneration
  unread : ∀ (conn : Connection V) (p : ℕ) (e : ClientEvent V),
    s.connection? x.control = some conn → p < x.since → s.Pending x.controlGeneration p →
    conn.sent[p]? = some e → stopsVoice e = false
  named : ∀ (conn : Connection V) (p : ℕ) (authority : VoiceAuthority),
    s.connection? x.control = some conn → x.since ≤ p →
    conn.sent[p]? = some (.voiceLost authority) → x.sessionId = authority.voiceSessionId

/-- The running current session is fresh. -/
def AllFresh (s : Client V K) : Prop := ∀ v x, s.Current v x → s.Fresh x

theorem stopsVoice_of_interrupts {e : ClientEvent V} (h : e.interrupts = true) :
    stopsVoice e = true := by
  cases e with
  | statusChanged status => cases status <;> first | rfl | cases h
  | disconnected => rfl
  | _ => cases h

theorem stopsVoice_of_clearsIntent {e : ClientEvent V} (h : clearsIntent e = true) :
    stopsVoice e = true := by
  cases e with
  | statusChanged status => cases status <;> first | rfl | cases h
  | voiceLost => rfl
  | _ => cases h

/-- **An event that is acted on concerns the running session**: it is pending, so it
was published after the session, and no stop event lies between the two. -/
theorem Fresh.owns {x : Session} (hsx : s.SessionSound x) (hw : s.Watches x)
    (hf : s.Fresh x) {conn : Connection V} {p : ℕ} {e : ClientEvent V} {r : Relay}
    (hr : (s.tasks.pc (.relay x.controlGeneration)).relay? = some r)
    (hconn : s.connection? x.control = some conn) (hp : s.Pending x.controlGeneration p)
    (hnext : p ≤ r.next)
    (hstop : (s.tasks.pc (.relay x.controlGeneration)).stop?.isSome = true → p < r.next)
    (he : conn.sent[p]? = some e) (hstops : stopsVoice e = true) :
    x.since ≤ p ∧ Owns conn x p e := by
  have hsince : x.since ≤ p := by
    by_contra hlt
    rw [hf.unread conn p e hconn (Nat.lt_of_not_le hlt) hp he] at hstops
    cases hstops
  refine ⟨hsince, ?_⟩
  have hsocket : conn.socketsAt p = x.socket := by
    obtain ⟨conn', hconn', hm⟩ := hsx.marked
    rw [hconn] at hconn'
    cases hconn'
    refine hm.socketsAt_eq hsince (Nat.le_of_lt (List.getElem?_eq_some_iff.mp he).1) ?_
    intro e' he'
    obtain ⟨n, hle, hlt, hn⟩ := Connection.exists_of_mem_window he'
    by_contra hinterrupts
    -- The interruption would be a stop event the relay is past.
    obtain ⟨r', hr', hclean⟩ := hw.relay
    rw [hr] at hr'
    cases hr'
    obtain ⟨hpending, heq⟩ := hclean conn n e' hconn hle (Nat.lt_of_lt_of_le hlt hnext) hn
      (stopsVoice_of_interrupts (by simpa using hinterrupts))
    have hlt' := hstop hpending
    omega
  unfold Owns
  split
  case h_1 authority => exact hf.named conn p authority hconn hsince he
  · exact hsocket

/-- A fresh session stays fresh while nothing new is pending or published. -/
theorem Fresh.keep {x : Session} (hsx : s.SessionSound x) (hf : s.Fresh x)
    (hgeneration : t.connectionGeneration = s.connectionGeneration)
    (hpending : ∀ p, t.Pending x.controlGeneration p → s.Pending x.controlGeneration p)
    (hsent : ∀ conn, s.connection? x.control = some conn →
      ∃ conn', t.connection? x.control = some conn' ∧ conn'.sent = conn.sent) : t.Fresh x := by
  obtain ⟨conn, hconn, -⟩ := hsx.marked
  obtain ⟨conn', hconn', heq⟩ := hsent conn hconn
  refine ⟨hf.current.trans hgeneration.symm, ?_, ?_⟩
  · intro conn'' p e hconn'' hlt hp he
    rw [hconn'] at hconn''
    cases hconn''
    rw [heq] at he
    exact hf.unread conn p e hconn hlt (hpending p hp) he
  · intro conn'' p authority hconn'' hle he
    rw [hconn'] at hconn''
    cases hconn''
    rw [heq] at he
    exact hf.named conn p authority hconn hle he

theorem Moved.allFresh (hs : s.Sound) (hg : Grows s t) (hf : s.AllFresh)
    (hdrained : ∀ call b w reuse, s.tasks.pc i = .join call (.starting b w reuse) → s.Drained)
    (h : Moved env s t i q) : t.AllFresh := by
  rintro v x ⟨hv, hx, hr⟩
  have hgeneration := h.effect.generation.1
  rcases h.effect.voice hs.sessions hg hv hr with ⟨hv', hr'⟩ | ⟨rfl, -⟩
  · obtain ⟨y, hy⟩ := exists_of_isRunning hr'
    rw [hg.getElem?_sessions hy] at hx
    cases hx
    exact (hf v x ⟨hv', hy, hr'⟩).keep (hs.sessions.session v x hy) hgeneration
      (fun p => h.pending) (fun conn => h.effect.sent)
  · rcases h.effect.sessions with heq | ⟨call, b, w, reuse, conn, y, hp, hy, heq⟩
    · rw [heq, List.getElem?_eq_none (Nat.le_refl _)] at hx
      cases hx
    · rw [heq, List.getElem?_concat_length] at hx
      cases hx
      have hcurrent : x.controlGeneration = s.connectionGeneration :=
        hy.controlGeneration.trans hy.generation
      have hsx := hy.sessionSound hs.connections hs.control hp
      have hconn : s.connection? x.control = some conn := by rw [hy.control]; exact hy.connection
      obtain ⟨conn', hconn', hsent⟩ := h.effect.sent hconn
      refine ⟨hcurrent.trans hgeneration.symm, ?_, ?_⟩
      · intro conn'' p e hconn'' _ hpend he
        rw [hconn'] at hconn''
        cases hconn''
        rw [hsent] at he
        obtain ⟨r, hr, -⟩ := hy.exists_relay hs hp
        obtain ⟨hc, -⟩ := hsx.relay_connection hs.tasks hr
        rw [hcurrent] at hr hpend
        exact hdrained call b w reuse hp r conn p e hr (by rw [hc, hconn]) (h.pending hpend) he
      · intro conn'' p authority hconn'' hle he
        rw [hconn'] at hconn''
        cases hconn''
        rw [hsent, List.getElem?_eq_none (by rw [← hy.since]; exact hle)] at he
        cases he

theorem allFresh_step (hs : s.Sound) (hf : s.AllFresh) (ha : s.Aligned env a)
    (h : s.step env a = some t) : t.AllFresh := by
  have hchange := step_cases h
  have hg := hchange.grows hs.connections
  have still (htasks : t.tasks = s.tasks) (hvoice : t.voice = s.voice)
      (hsessions : t.sessions = s.sessions)
      (hgeneration : t.connectionGeneration = s.connectionGeneration)
      (hsent : ∀ c conn, s.connection? c = some conn →
        ∃ conn', t.connection? c = some conn' ∧ conn'.sent = conn.sent) : t.AllFresh := by
    rintro v x ⟨hv, hx, hr⟩
    rw [hsessions] at hx
    rw [hvoice] at hv
    have hsx := hs.sessions.session v x hx
    refine (hf v x ⟨hv, hx, hg.isRunning hx hsx.transport hr⟩).keep hsx hgeneration ?_ (hsent _)
    intro p hp
    unfold Pending at hp ⊢
    rwa [htasks] at hp
  cases hchange with
  | call n c q result hp hm =>
      refine hm.allFresh hs hg hf fun call b w reuse hp' => ?_
      rw [hp] at hp'
      cases hp'
  | resume i input q hp hm =>
      exact hm.allFresh hs hg hf
        fun call b w reuse hp' => ha.installed i input call b w reuse rfl hp'
  | install i input c conn hp hconn hstopped ht =>
      subst ht
      exact fun v x hcur => absurd hp (ha.replaced v x i input c hcur rfl)
  | abort i input hp ht =>
      subst ht
      rintro v x ⟨hv, -, hr⟩
      have hstopped : (s.shutdownFinish i).isRunning v = false :=
        hs.sessions.silences i (by rw [hp]; rfl) v hv
      rw [hr] at hstopped
      cases hstopped
  | engine c input conn next hconn hstep ht =>
      subst ht
      rintro v x ⟨hv, hx, hr⟩
      have hsx := hs.sessions.session v x hx
      have hcur : s.Current v x := ⟨hv, hx, hr⟩
      have hfx := hf v x hcur
      obtain ⟨evs, hevs⟩ := (Connection.follows_step (hs.connections c conn hconn) hstep).events
      have hlt : c < s.connections.length := (List.getElem?_eq_some_iff.mp hconn).1
      by_cases hc : x.control = c
      · obtain ⟨conn', hconn', hm⟩ := hsx.marked
        rw [hc, hconn] at hconn'
        cases hconn'
        refine ⟨hfx.current, ?_, ?_⟩
        · intro conn' p e hconn' hsince hp he
          rw [hc, connection?, List.getElem?_set_self hlt] at hconn'
          cases hconn'
          rw [hevs, List.getElem?_append_left (Nat.lt_of_lt_of_le hsince hm.le)] at he
          exact hfx.unread conn p e (by rw [hc, hconn]) hsince hp he
        · intro conn' p authority hconn' hle he
          rw [hc, connection?, List.getElem?_set_self hlt] at hconn'
          cases hconn'
          by_cases hold : p < conn.sent.length
          · rw [hevs, List.getElem?_append_left hold] at he
            exact hfx.named conn p authority (by rw [hc, hconn]) hle he
          · refine ha.named v x c input conn next authority hcur rfl hc hconn hstep ?_
            refine List.mem_of_getElem? (i := p - conn.sent.length) ?_
            rw [List.getElem?_drop, Nat.add_sub_cancel' (Nat.le_of_not_lt hold), he]
      · refine hfx.keep hsx rfl (fun p hp => hp) fun conn' hconn' => ⟨conn', ?_, rfl⟩
        rw [connection?, List.getElem?_set_ne (Ne.symm hc)]
        exact hconn'
  | close c ht =>
      subst ht
      exact still rfl rfl rfl rfl fun _ _ hconn => closeConnection_sent hconn c
  | worker w input worker next sealed keyCache hworker hstep ht =>
      subst ht
      exact still rfl rfl rfl rfl fun c conn hconn => ⟨conn, hconn, rfl⟩

/-! ## Every event concerns the session it closes -/

/-- An intent that an event forgets is observed when the running current session has it. -/
theorem mem_forgets {r : Relay} {event : ClientEvent V} {e : Stop V}
    (h : e ∈ ((s.forgetIntent r event).relay event).history.forgets) :
    e ∈ s.history.forgets ∨ (clearsIntent event = true ∧ s.isRunning e.session = true ∧
      s.voice = some e.session ∧ e = ⟨r.connection, r.next, event, e.session⟩) := by
  unfold Client.relay forgetIntent at h
  split at h
  case isFalse => exact .inl h
  case isTrue hclears =>
    rcases List.mem_append.mp h with h | h
    · exact .inl h
    · split at h
      case h_1 intent v hintent hv =>
        split at h
        case isTrue hrun =>
          obtain rfl := List.mem_singleton.mp h
          simp only [Bool.and_eq_true] at hrun
          exact .inr ⟨hclears, hrun.2, hv, rfl⟩
        · cases h
      · cases h

theorem Moved.stopsConcern (hs : s.Sound) (hw : s.Watched) (hss : s.StopSound) (hf : s.AllFresh)
    (hg : Grows s t) (hc : s.StopsConcern) (h : Moved env s t i q) : t.StopsConcern := by
  have old {e : Stop V} (he : e ∈ s.history.stops ++ s.history.forgets) :
      ∃ x conn, t.Concerns e x conn := by
    obtain ⟨x, conn, hx⟩ := hc e he
    obtain ⟨conn', hx'⟩ := hx.mono hg
    exact ⟨x, conn', hx'⟩
  -- What the relay of the running session acts on concerns that session.
  have acted {v p : ℕ} {x : Session} {event : ClientEvent V} {r : Relay} {conn : Connection V}
      (hcur : s.Current v x) (hr : (s.tasks.pc (.relay x.controlGeneration)).relay? = some r)
      (hconn : s.connection? r.connection = some conn)
      (hp : s.Pending x.controlGeneration p) (hnext : p ≤ r.next)
      (hstop : (s.tasks.pc (.relay x.controlGeneration)).stop?.isSome = true → p < r.next)
      (he : conn.sent[p]? = some event) (hstops : stopsVoice event = true) :
      ∃ x conn, t.Concerns ⟨r.connection, p, event, v⟩ x conn := by
    have hsx := hs.sessions.session v x hcur.2.1
    obtain ⟨hstream, -⟩ := hsx.relay_connection hs.tasks hr
    have hconn' : s.connection? x.control = some conn := by rw [← hstream, hconn]
    obtain ⟨hsince, howns⟩ :=
      (hf v x hcur).owns hsx (hw v x hcur) hr hconn' hp hnext hstop he hstops
    have hconcerns : s.Concerns ⟨r.connection, p, event, v⟩ x conn :=
      ⟨hcur.2.1, hconn', hstream, he, hsince, howns⟩
    obtain ⟨conn', hx'⟩ := hconcerns.mono hg
    exact ⟨x, conn', hx'⟩
  intro e he
  rcases h.effect.relay_cases with ⟨g, rfl, hmove⟩ | hstill
  · cases hmove with
    | exits r hp hne hq hcalm => rw [hcalm.stops, hcalm.forgets] at he; exact old he
    | skips r conn next hp hq hconn hskips hcalm =>
        rw [hcalm.stops, hcalm.forgets] at he; exact old he
    | passes r event hp hq hfree hnone hcalm => rw [hcalm.stops, hcalm.forgets] at he; exact old he
    | handles r conn event hp hconn hevent hgen hcalm hrelay hq =>
        rw [hcalm.stops, hcalm.forgets] at he
        have hstops : ((s.forgetIntent r event).relay event).history.stops = s.history.stops := by
          unfold Client.relay forgetIntent
          split <;> rfl
        rw [hstops] at he
        rcases List.mem_append.mp he with he | he
        · exact old (List.mem_append_left _ he)
        · rcases mem_forgets he with he | ⟨hclears, hrun, hv, heq⟩
          · exact old (List.mem_append_right _ he)
          · obtain ⟨x, hx⟩ := exists_of_isRunning hrun
            have hcur : s.Current e.session x := ⟨hv, hx, hrun⟩
            obtain rfl : x.controlGeneration = g := (hf _ x hcur).current.trans hgen
            rw [heq]
            refine acted hcur (by rw [hp]; rfl) hconn ⟨r, by rw [hp]; rfl, .inl (Nat.le_refl _)⟩
              (Nat.le_refl _) ?_ hevent (stopsVoice_of_clearsIntent hclears)
            rw [hp]
            exact fun h => by cases h
    | takes r event v x hp hq hfree hv hx hgen hcalm =>
        subst hgen
        have hstop : s.history.stops ++ (if s.isRunning v then
            [⟨r.connection, r.next - 1, event, v⟩] else []) = t.history.stops := hcalm.stops.symm
        rw [← hstop, hcalm.forgets] at he
        rcases List.mem_append.mp he with he | he
        · rcases List.mem_append.mp he with he | he
          · exact old (List.mem_append_left _ he)
          · split at he
            case isTrue hrun =>
              obtain rfl := List.mem_singleton.mp he
              obtain ⟨r', conn, hr', hconn, hle, hevent, hstops⟩ := hss _ event (by rw [hp]; rfl)
              rw [hp] at hr'
              cases hr'
              refine acted ⟨hv, hx, hrun⟩ (by rw [hp]; rfl) hconn
                ⟨r, by rw [hp]; rfl, .inr ⟨by rw [hp]; rfl, Nat.sub_add_cancel hle⟩⟩
                (Nat.sub_le _ _) (fun _ => Nat.sub_lt hle Nat.one_pos) hevent hstops
            · cases he
        · exact old (List.mem_append_right _ he)
  · rw [hstill.stops, hstill.forgets] at he
    exact old he

/-- What holds of the relays and of the sessions in a run that keeps them apart. -/
structure Tidy (s : Client V K) : Prop where
  sound : s.Sound
  watched : s.Watched
  stops : s.StopSound
  fresh : s.AllFresh
  concern : s.StopsConcern

theorem Tidy.step (hs : s.Tidy) (ha : s.Aligned env a) (h : s.step env a = some t) : t.Tidy := by
  refine ⟨hs.sound.step h, watched_step hs.sound hs.watched ha.keepsStops h,
    hs.stops.step hs.sound h, allFresh_step hs.sound hs.fresh ha h, ?_⟩
  have hchange := step_cases h
  have hg := hchange.grows hs.sound.connections
  have same (hstops : t.history.stops = s.history.stops)
      (hforgets : t.history.forgets = s.history.forgets) : t.StopsConcern := by
    intro e he
    rw [hstops, hforgets] at he
    obtain ⟨x, conn, hx⟩ := hs.concern e he
    obtain ⟨conn', hx'⟩ := hx.mono hg
    exact ⟨x, conn', hx'⟩
  cases hchange with
  | call n c q result hp hm =>
      exact hm.stopsConcern hs.sound hs.watched hs.stops hs.fresh hg hs.concern
  | resume i input q hp hm =>
      exact hm.stopsConcern hs.sound hs.watched hs.stops hs.fresh hg hs.concern
  | install i input c conn hp hconn hstopped ht => exact same (by rw [ht]; rfl) (by rw [ht]; rfl)
  | abort i input hp ht => exact same (by rw [ht]; rfl) (by rw [ht]; rfl)
  | engine c input conn next hconn hstep ht => exact same (by rw [ht]) (by rw [ht])
  | close c ht => exact same (by rw [ht]; rfl) (by rw [ht]; rfl)
  | worker w input worker next sealed keyCache hworker hstep ht =>
      exact same (by rw [ht]) (by rw [ht])

theorem tidy_new (autoRejoinVoice : Bool) (policy : ReconnectPolicy) :
    (new autoRejoinVoice policy : Client V K).Tidy :=
  ⟨sound_new _ _, (fun _ _ h => by cases h.1), (fun _ _ h => by cases h),
    (fun _ _ h => by cases h.1), (fun _ h => by cases h)⟩

/-- **Stop events only stop the session they concern**: in every run that keeps the
relay's events apart from the sessions before them, an event that closed a running
session or forgot its intent was published after the session was installed, on its
connection, and ended its socket or named it as the one that lost its authority. -/
theorem stop_events_concern_their_session (env : Env V K) (autoRejoinVoice : Bool)
    (policy : ReconnectPolicy) (schedule : List (Action V))
    (haligned : Transition.Along (step env) (Aligned env) (new autoRejoinVoice policy) schedule)
    (h : Transition.exec (step env) (new autoRejoinVoice policy) schedule = some t) :
    t.StopsConcern :=
  (Transition.invariant_along (fun _ _ _ hs ha h => Tidy.step hs ha h) (tidy_new _ _) haligned
    h).concern

/-- Whether an event reports a loss of authority. -/
def reportsLoss : ClientEvent V → Bool
  | .voiceLost _ => true
  | _ => false

/-- Whether no stop event of the current generation is pending. -/
def checkDrained (s : Client V K) : Bool :=
  (s.tasks.pc (.relay s.connectionGeneration)).stop?.isNone &&
    (s.tasks.pc (.relay s.connectionGeneration)).relay?.all fun r =>
      (s.connection? r.connection).all fun conn =>
        (conn.sent.drop r.next).all fun e => !stopsVoice e

/-- A test that guarantees that an action is aligned. -/
def checkAligned (env : Env V K) (s : Client V K) : Action V → Bool
  | .resume i input =>
      s.checkStops (.resume i input) &&
        match s.tasks.pc i with
        | .join _ (.starting _ _ _) => s.checkDrained
        | _ => true
  | .engine c input =>
      (s.connection? c).all fun conn => (conn.step env.serde input).all fun next =>
        (next.sent.drop conn.sent.length).all fun e => !reportsLoss e
  | _ => true

theorem drained_of_check (h : s.checkDrained = true) : s.Drained := by
  intro r conn p e hr hconn ⟨r', hr', hpos⟩ he
  rw [hr] at hr'
  cases hr'
  simp only [checkDrained, hr, hconn, Option.all_some, Bool.and_eq_true, Option.isNone_iff_eq_none,
    List.all_eq_true, Bool.not_eq_true'] at h
  obtain ⟨hstop, hunread⟩ := h
  rcases hpos with hpos | ⟨hpending, -⟩
  · refine hunread e (List.mem_of_getElem? (i := p - r.next) ?_)
    rw [List.getElem?_drop, Nat.add_sub_cancel' hpos, he]
  · rw [hstop] at hpending
    cases hpending

theorem aligned_of_check (h : s.checkAligned env a = true) : s.Aligned env a := by
  have hresume {i : Task} {input : Input} (ha : a = .resume i input) : s.KeepsStops a := by
    subst ha
    simp only [checkAligned, Bool.and_eq_true] at h
    exact keepsStops_of_check h.1
  refine ⟨?_, ?_, ?_, ?_⟩
  · intro v x p e hcur hsince hskipped
    obtain ⟨input, r, conn, ha, -⟩ := id hskipped
    exact (hresume ha).skipped v x p e hcur hsince hskipped
  · rintro v x i input c hcur rfl hp
    simp [checkAligned, checkStops, hp, hcur.1] at h
  · rintro i input call b w reuse rfl hp
    simp only [checkAligned, hp, Bool.and_eq_true] at h
    exact drained_of_check h.2
  · rintro v x c input conn next authority - rfl - hconn hstep hmem
    simp only [checkAligned, hconn, hstep, Option.all_some, List.all_eq_true] at h
    cases h _ hmem

theorem stop_events_concern_their_session_lost :
    ∃ t, Transition.exec (step sampleClientEnv) sampleClient lostSchedule = some t ∧
      t.history.stops.length = 1 ∧ t.StopsConcern := by
  have hrun : (Transition.exec (step sampleClientEnv) sampleClient lostSchedule).any (fun t =>
      t.history.stops.length = 1) = true := by decide
  obtain ⟨t, ht, hstops⟩ := (Option.any_eq_true _ _).mp hrun
  refine ⟨t, ht, by simpa using hstops, stop_events_concern_their_session sampleClientEnv true
    ⟨true, none⟩ lostSchedule ?_ ht⟩
  exact Transition.along_of_check (fun _ _ => aligned_of_check) (by decide)

/-- A connection loses its socket and opens another, on which a host joins before the
relay has read that the first one ended. -/
def lateSchedule : Schedule :=
  liveSchedule ++ losing 0 ++ opening 0 1 ++ receiving 0 (.syncComplete ⟨sampleCursor⟩) ++
    hostJoining 0 0 0 true ++ relaying 1 3

/-- `Disconnected` of the first socket closes the session of the second. -/
theorem lateSchedule_stops_new_session :
    ¬ ∀ (autoRejoinVoice : Bool) (policy : ReconnectPolicy) (schedule : Schedule)
      (t : Client (Option VoiceAuthority) SampleCipher),
      Transition.exec (step sampleClientEnv) (new autoRejoinVoice policy) schedule = some t →
      t.StopsConcern := by
  intro h
  have hrun : (Transition.exec (step sampleClientEnv) sampleClient lateSchedule).any (fun t =>
      t.history.stops.any fun e => (t.sessions[e.session]?).any fun x =>
        e.position < x.since) = true := by decide
  obtain ⟨t, ht, hstops⟩ := (Option.any_eq_true _ _).mp hrun
  obtain ⟨e, he, hx⟩ := List.any_eq_true.mp hstops
  obtain ⟨x, conn, hconcerns⟩ := h true ⟨true, none⟩ lateSchedule t ht e (List.mem_append_left _ he)
  rw [hconcerns.session, Option.any_some, decide_eq_true_eq] at hx
  exact absurd hconcerns.since (Nat.not_le.mpr hx)

end Client

end ZephyrVox.Sdk
