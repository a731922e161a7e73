import ZephyrVox.Sdk.StopEvents

/-!
# Automatic rejoin

The relay replays the remembered join at every `Live` status. That is right after
an ordinary reconnect, which publishes two interruptions before the next socket
opens, and wrong after a resynchronization of the same socket.

## Main definitions

* `interruptionsSince` — the interruptions between a session and the relay's cursor.
* `Counted` — all but one of them were relayed since the join was recorded.
* `rejoins_follow_interruption` — in a run whose `Live` statuses come from later
  sockets every rejoin was preceded by a relayed interruption.
-/

namespace ZephyrVox.Sdk

open Realtime Voice

namespace Client

variable {V K : Type} {env : Env V K} {s t u : Client V K} {i : Task} {q : Pc V} {a : Action V}

/-! ## Rejoins and what was relayed -/

/-- A relay begins to replay the remembered join when it handles `Live`. -/
theorem Effect.rejoin (h : Effect env s t i q) {v : ℕ} {since : List (ClientEvent V)}
    (hq : q.rejoin? = some (v, since)) :
    (s.tasks.pc i).rejoin? = some (v, since) ∨
      ∃ g r conn intent, i = .relay g ∧ s.tasks.pc i = .relayReceive r ∧
        s.connection? r.connection = some conn ∧
        conn.sent[r.next]? = some (.statusChanged .live) ∧ s.connectionGeneration = g ∧
        s.autoRejoinVoice = true ∧ s.voiceIntent = some intent ∧ v = intent.session ∧
        since = s.history.relayed := by
  have inherited {p : Pc V} (he : q.rejoin? = none ∨ q.rejoin? = p.rejoin?) :
      p.rejoin? = some (v, since) := by
    rcases he with he | he
    · rw [he] at hq; cases hq
    · rw [← he, hq]
  cases h with
  | calm h le => exact .inl (inherited le.rejoin)
  | reads call c hp heq => subst heq; exact .inl (by rw [hp]; exact hq)
  | installsFirst _ _ _ _ _ _ _ hle | records _ _ _ _ _ _ hle =>
      rw [hle.2] at hq; cases hq
  | shutsVoice _ hle => cases inherited hle.rejoin
  | handles g r conn event hi hp hconn hevent hg h heq =>
      rcases heq with ⟨-, rfl⟩ | ⟨-, rfl⟩ | ⟨intent, rfl, hauto, hintent, rfl⟩
      · cases hq
      · cases hq
      · cases hq
        exact .inr ⟨g, r, conn, intent, hi, hp, hconn, hevent, hg, hauto, hintent, rfl, rfl⟩
  | _ => subst_vars; cases hq

/-- A request of a relay is observed with what it replays. -/
theorem Effect.rejoins (h : Effect env s t i q) :
    t.history.rejoins = s.history.rejoins ∨
      ∃ v since, (s.tasks.pc i).rejoin? = some (v, since) ∧
        t.history.rejoins = s.history.rejoins ++
          [⟨v, since, decide (v ∈ s.history.withdrawn)⟩] := by
  cases h with
  | binds call b cached conn hp hq hconn hlive hg h =>
      obtain ⟨caller, channelId, request⟩ := call
      cases caller with
      | host => exact .inl h.rejoins
      | relay r v since => exact .inr ⟨v, since, by rw [hp]; rfl, h.rejoins⟩
  | handles g r conn event hi hp hconn hevent hg h hq =>
      refine .inl (h.rejoins.trans ?_)
      unfold Client.relay forgetIntent
      split <;> rfl
  | calm h | exits _ _ _ _ _ _ h | makes _ _ _ _ _ h | rejects _ _ _ h | locks _ _ _ h
  | reads _ _ _ _ _ _ h | starts _ _ _ _ _ _ _ _ h | skips _ _ _ _ _ _ _ _ _ h
  | passes _ _ _ _ _ _ _ _ h | takes _ _ _ _ _ _ _ _ _ _ _ _ h
  | installs _ _ _ _ _ _ _ _ _ _ h | installsFirst _ _ _ _ _ _ _ _ _ h
  | records _ _ _ _ _ _ _ _ h | leaves _ _ _ _ _ h | putsBack _ _ _ _ _ h | shuts _ _ h
  | shutsVoice _ _ h | shutsControl _ _ _ h | clears _ _ _ h =>
      exact .inl h.rejoins

/-- What was relayed since the remembered join was recorded: nothing new, one event
the relay handles, or nothing at all because a join is recorded. -/
theorem Effect.relayed (h : Effect env s t i q) :
    t.history.relayed = s.history.relayed ∧
        (t.voiceIntent = s.voiceIntent ∨ t.voiceIntent = none) ∨
      (∃ g r conn event, i = .relay g ∧ s.connectionGeneration = g ∧
        s.tasks.pc i = .relayReceive r ∧ s.connection? r.connection = some conn ∧
        conn.sent[r.next]? = some event ∧ q.relay? = some { r with next := r.next + 1 } ∧
        t.history.relayed = s.history.relayed ++ [event] ∧
        (t.voiceIntent = s.voiceIntent ∨ t.voiceIntent = none)) ∨
      q.relay? = (s.tasks.pc i).relay? ∧ ∀ intent, t.voiceIntent = some intent →
        (intent.session = s.sessions.length ∧ ∃ x, t.sessions = s.sessions ++ [x]) ∨
          (s.tasks.pc i).pending? = some intent.session := by
  cases h with
  | installsFirst call b w reuse conn x hp hq hx h =>
      refine .inr (.inr ⟨by rw [hp, hq.1.relay]; rfl, fun intent hi => .inl ⟨?_, x, h.sessions⟩⟩)
      exact session_of_recorded h hi
  | records call previous v reuse x hp hq hx h =>
      refine .inr (.inr ⟨by rw [hp, hq.1.relay]; rfl, fun intent hi => .inr ?_⟩)
      rw [hp, session_of_recorded h hi]
      rfl
  | handles g r conn event hi hp hconn hevent hg h hq =>
      refine .inr (.inl ⟨g, r, conn, event, hi, hg, hp, hconn, hevent, ?_, ?_, ?_⟩)
      · rcases hq with ⟨-, rfl⟩ | ⟨-, rfl⟩ | ⟨intent, -, -, -, rfl⟩ <;> rfl
      · refine h.relayed.trans ?_
        unfold Client.relay forgetIntent
        split <;> rfl
      · rcases h.intent with he | he
        · rw [he]
          unfold Client.relay forgetIntent
          split
          · exact .inr rfl
          · exact .inl rfl
        · exact .inr he
  | binds call b cached conn hp hq hconn hlive hg h =>
      obtain ⟨caller, channelId, request⟩ := call
      cases caller with
      | host => exact .inl ⟨h.relayed, h.intent⟩
      | relay r v since => exact .inl ⟨h.relayed, h.intent⟩
  | calm h | exits _ _ _ _ _ _ h | makes _ _ _ _ _ h | rejects _ _ _ h | locks _ _ _ h
  | reads _ _ _ _ _ _ h | starts _ _ _ _ _ _ _ _ h | skips _ _ _ _ _ _ _ _ _ h
  | passes _ _ _ _ _ _ _ _ h | takes _ _ _ _ _ _ _ _ _ _ _ _ h
  | installs _ _ _ _ _ _ _ _ _ _ h | leaves _ _ _ _ _ h | putsBack _ _ _ _ _ h | shuts _ _ h
  | shutsVoice _ _ h | shutsControl _ _ _ h | clears _ _ _ h =>
      exact .inl ⟨h.relayed, h.intent⟩

/-! ## Interruptions since a session -/

/-- The interruptions published since a session that its relay's cursor is past. -/
def interruptionsSince (s : Client V K) (x : Session) : ℕ :=
  match (s.tasks.pc (.relay x.controlGeneration)).relay?, s.connection? x.control with
  | some r, some conn => (conn.window x.since r.next).countP ClientEvent.interrupts
  | _, _ => 0

/-- What was published before a cursor is not published again. -/
theorem interruptionsSince_keep (hs : s.Sound) (hg : Grows s t) {x : Session}
    (hsx : s.SessionSound x)
    (hrelay : (t.tasks.pc (.relay x.controlGeneration)).relay? =
      (s.tasks.pc (.relay x.controlGeneration)).relay?) :
    t.interruptionsSince x = s.interruptionsSince x := by
  unfold interruptionsSince
  rw [hrelay]
  cases hr : (s.tasks.pc (.relay x.controlGeneration)).relay? with
  | none => rfl
  | some r =>
      obtain ⟨-, conn, hconn, hnext⟩ := hsx.relay_connection hs.tasks hr
      obtain ⟨conn', hconn', hf⟩ := hg.connections _ conn hconn
      obtain ⟨evs, hsent⟩ := hf.events
      simp only [hconn, hconn']
      rw [Connection.window_of_append hsent hnext]

/-- A relay that moves its cursor passes the interruptions in between. -/
theorem interruptionsSince_advance (hg : Grows s t) {x : Session} {r : Relay}
    {conn : Connection V} (hr : (s.tasks.pc (.relay x.controlGeneration)).relay? = some r)
    (hconn : s.connection? x.control = some conn) (next : ℕ) (hle : r.next ≤ next)
    (hnext : next ≤ conn.sent.length)
    (hrelay : (t.tasks.pc (.relay x.controlGeneration)).relay? = some { r with next := next }) :
    t.interruptionsSince x ≤ s.interruptionsSince x +
      (conn.window r.next next).countP ClientEvent.interrupts := by
  obtain ⟨conn', hconn', hf⟩ := hg.connections _ conn hconn
  obtain ⟨evs, hsent⟩ := hf.events
  simp only [interruptionsSince, hr, hrelay, hconn, hconn']
  rw [Connection.window_of_append hsent hnext]
  have hsplit : conn.sent.take next = conn.sent.take r.next ++ conn.window r.next next := by
    rw [Connection.window, ← List.take_append_drop r.next (conn.sent.take next), List.take_take,
      Nat.min_eq_left hle, List.drop_left' (by simp [Nat.min_eq_left (Nat.le_trans hle hnext)])]
  rw [Connection.window, hsplit, List.drop_append, List.countP_append]
  exact Nat.add_le_add_left ((List.drop_sublist _ _).countP_le) _

/-! ## Rejoins after an interruption -/

/-- Every request of a relay follows a relayed interruption. -/
def RejoinsInterrupted (s : Client V K) : Prop :=
  ∀ r ∈ s.history.rejoins, ∃ e ∈ r.since, e.interrupts = true

/-- An action after which a rejoin is one after a reconnect: the relay does not lag
over an interruption, and a `Live` status it handles while a join is remembered is
that of a later socket than the one the session was joined on. -/
structure Reconnects (s : Client V K) (a : Action V) : Prop where
  skipped : ∀ p e, s.Skipped a s.connectionGeneration p e → e.interrupts = false
  later : ∀ input r conn intent, a = .resume (.relay s.connectionGeneration) input →
    s.tasks.pc (.relay s.connectionGeneration) = .relayReceive r →
    s.connection? r.connection = some conn → conn.sent[r.next]? = some (.statusChanged .live) →
    s.autoRejoinVoice = true → s.voiceIntent = some intent →
    ∃ x, s.sessions[intent.session]? = some x ∧
      x.controlGeneration = s.connectionGeneration ∧ x.socket < conn.socketsAt r.next

/-- All interruptions since the remembered session but one were relayed since it was
recorded. -/
structure Counted (s : Client V K) : Prop where
  intent : ∀ intent x, s.voiceIntent = some intent → s.sessions[intent.session]? = some x →
    x.controlGeneration = s.connectionGeneration →
    s.interruptionsSince x ≤ s.history.relayed.countP ClientEvent.interrupts + 1
  /-- While a join waits to be recorded the relay passes at most the interruption it
  waits to act on. -/
  pending : ∀ j v x, (s.tasks.pc j).pending? = some v → s.sessions[v]? = some x →
    x.controlGeneration = s.connectionGeneration →
    s.interruptionsSince x ≤
      if (s.tasks.pc (.relay x.controlGeneration)).stop?.isSome then 1 else 0
  rejoin : ∀ j v since, (s.tasks.pc j).rejoin? = some (v, since) →
    ∃ e ∈ since, e.interrupts = true
  rejoins : s.RejoinsInterrupted

/-- A session is installed behind the relay's cursor. -/
theorem interruptionsSince_new (hs : s.Sound) (hg : Grows s t) {call : JoinCall V} {b : Binding}
    {w : ℕ} {reuse : Option SessionKey} {conn : Connection V} {x : Session}
    (hp : s.tasks.pc i = .join call (.starting b w reuse)) (h : s.Installs call b w conn x)
    (hrelay : (t.tasks.pc (.relay x.controlGeneration)).relay? =
      (s.tasks.pc (.relay x.controlGeneration)).relay?) : t.interruptionsSince x = 0 := by
  rw [interruptionsSince_keep hs hg (h.sessionSound hs.connections hs.control hp) hrelay]
  obtain ⟨r, hr, hnext⟩ := h.exists_relay hs hp
  have hconn : s.connection? x.control = some conn := by rw [h.control]; exact h.connection
  simp only [interruptionsSince, hr, hconn, Connection.window, h.since]
  rw [List.drop_eq_nil_of_le (by simp), List.countP_nil]

/-- How a move changes the interruptions since a session of the current generation. -/
theorem Moved.interruptionsSince (hs : s.Sound) (hg : Grows s t)
    (hskip : ∀ (r : Relay) (conn : Connection V) (p : ℕ) (e : ClientEvent V),
      i = .relay s.connectionGeneration → s.tasks.pc i = .relayReceive r →
      s.connection? r.connection = some conn →
      conn.socket.events.capacity < conn.sent.length - r.next → r.next ≤ p →
      p < conn.sent.length - conn.socket.events.capacity → conn.sent[p]? = some e →
      e.interrupts = false)
    (h : Moved env s t i q) {x : Session} (hsx : s.SessionSound x)
    (hx : x.controlGeneration = s.connectionGeneration) :
    (t.interruptionsSince x ≤ s.interruptionsSince x ∧
      ((t.tasks.pc (.relay x.controlGeneration)).stop? =
          (s.tasks.pc (.relay x.controlGeneration)).stop? ∨ s.tasks.holder = none)) ∨
    ∃ r conn event, i = .relay x.controlGeneration ∧ s.tasks.pc i = .relayReceive r ∧
      s.connection? r.connection = some conn ∧ conn.sent[r.next]? = some event ∧
      t.history.relayed = s.history.relayed ++ [event] ∧
      t.interruptionsSince x ≤ s.interruptionsSince x + (if event.interrupts then 1 else 0) ∧
      (t.tasks.pc (.relay x.controlGeneration)).stop? =
        if stopsVoice event then some event else none := by
  have other (hi : i ≠ .relay x.controlGeneration) :
      t.interruptionsSince x ≤ s.interruptionsSince x ∧
        ((t.tasks.pc (.relay x.controlGeneration)).stop? =
          (s.tasks.pc (.relay x.controlGeneration)).stop? ∨ s.tasks.holder = none) := by
    have hpc : t.tasks.pc (.relay x.controlGeneration) =
        s.tasks.pc (.relay x.controlGeneration) := by
      rw [h.pc, Function.update_of_ne hi.symm]
    exact ⟨Nat.le_of_eq (interruptionsSince_keep hs hg hsx (by rw [hpc])), .inl (by rw [hpc])⟩
  by_cases hi : i = .relay x.controlGeneration
  · subst hi
    have hself : t.tasks.pc (.relay x.controlGeneration) = q := by rw [h.pc, Function.update_self]
    rcases h.effect.relay_cases with ⟨g, hg', hmove⟩ | hstill
    · cases hg'
      cases hmove with
      | exits r hp hne hq hcalm => exact absurd hx.symm hne
      | skips r conn next hp hq hconn hskips hcalm =>
          obtain ⟨hc, -⟩ := hsx.relay_connection hs.tasks (by rw [hp]; rfl)
          rcases hskips with ⟨hlag, rfl⟩ | ⟨hne, -, -⟩
          · refine .inl ⟨?_, .inl (by rw [hself, hq, hp]; rfl)⟩
            have hzero : (conn.window r.next
                (conn.sent.length - conn.socket.events.capacity)).countP
                ClientEvent.interrupts = 0 := by
              refine List.countP_eq_zero.mpr fun e he => ?_
              obtain ⟨n, hle, hlt, hn⟩ := Connection.exists_of_mem_window he
              simp [hskip r conn n e (by rw [hx]) hp hconn hlag hle hlt hn]
            have hadv := interruptionsSince_advance hg (by rw [hp]; rfl) (by rw [← hc, hconn])
              (conn.sent.length - conn.socket.events.capacity) (by omega) (by omega)
              (by rw [hself, hq]; rfl)
            rwa [hzero] at hadv
          · exact absurd hx.symm hne
      | handles r conn event hp hconn hevent hgen hcalm hrelay hstop =>
          obtain ⟨hc, -⟩ := hsx.relay_connection hs.tasks (by rw [hp]; rfl)
          have hlt : r.next < conn.sent.length := (List.getElem?_eq_some_iff.mp hevent).1
          refine .inr ⟨r, conn, event, rfl, hp, hconn, hevent, ?_, ?_, by rw [hself, hstop]⟩
          · refine hcalm.relayed.trans ?_
            unfold Client.relay forgetIntent
            split <;> rfl
          · have hadv := interruptionsSince_advance hg (by rw [hp]; rfl) (by rw [← hc, hconn])
              (r.next + 1) (Nat.le_succ _) hlt (by rw [hself, hrelay])
            have hone : conn.window r.next (r.next + 1) = [event] := by
              rw [Connection.window, List.take_add_one, hevent, Option.toList_some,
                List.drop_left' (by simp [Nat.le_of_lt hlt])]
            rwa [hone, List.countP_singleton] at hadv
      | passes r event hp hq hfree hnone hcalm =>
          refine .inl ⟨Nat.le_of_eq (interruptionsSince_keep hs hg hsx ?_), .inr hfree⟩
          rw [hself, hq, hp]
          rfl
      | takes r event v y hp hq hfree hv hy hgen hcalm =>
          refine .inl ⟨Nat.le_of_eq (interruptionsSince_keep hs hg hsx ?_), .inr hfree⟩
          rw [hself, hq, hp]
          rfl
    · refine .inl ⟨Nat.le_of_eq (interruptionsSince_keep hs hg hsx ?_), .inl ?_⟩
      · rw [hself, hstill.relay]
      · rw [hself, hstill.stop]
  · exact .inl (other hi)

/-- A `Live` of a later socket is preceded by a relayed interruption. -/
theorem Counted.exists_interruption (hs : s.Sound) (hc : s.Counted) {r : Relay}
    {conn : Connection V} {intent : VoiceIntent} {x : Session}
    (hr : (s.tasks.pc (.relay s.connectionGeneration)).relay? = some r)
    (hconn : s.connection? r.connection = some conn) (hintent : s.voiceIntent = some intent)
    (hx : s.sessions[intent.session]? = some x)
    (hcurrent : x.controlGeneration = s.connectionGeneration)
    (hlater : x.socket < conn.socketsAt r.next) :
    ∃ e ∈ s.history.relayed, e.interrupts = true := by
  have hsx := hs.sessions.session _ x hx
  rw [← hcurrent] at hr
  obtain ⟨hcontrol, conn', hconn', hnext⟩ := hsx.relay_connection hs.tasks hr
  obtain ⟨conn'', hconn'', hm⟩ := hsx.marked
  rw [hcontrol] at hconn
  rw [hconn] at hconn' hconn''
  cases hconn'
  cases hconn''
  have htwo := hm.later r.next hnext hlater
  have hcount := hc.intent intent x hintent hx hcurrent
  simp only [interruptionsSince, hr, hconn] at hcount
  have hpos : 0 < s.history.relayed.countP ClientEvent.interrupts := by omega
  exact List.countP_pos_iff.mp hpos

theorem Moved.counted (hs : s.Sound) (hg : Grows s t) (hc : s.Counted)
    (hskip : ∀ (r : Relay) (conn : Connection V) (p : ℕ) (e : ClientEvent V),
      i = .relay s.connectionGeneration → s.tasks.pc i = .relayReceive r →
      s.connection? r.connection = some conn →
      conn.socket.events.capacity < conn.sent.length - r.next → r.next ≤ p →
      p < conn.sent.length - conn.socket.events.capacity → conn.sent[p]? = some e →
      e.interrupts = false)
    (hlater : ∀ (r : Relay) (conn : Connection V) (intent : VoiceIntent),
      i = .relay s.connectionGeneration → s.tasks.pc i = .relayReceive r →
      s.connection? r.connection = some conn →
      conn.sent[r.next]? = some (.statusChanged .live) → s.autoRejoinVoice = true →
      s.voiceIntent = some intent → ∃ x, s.sessions[intent.session]? = some x ∧
        x.controlGeneration = s.connectionGeneration ∧ x.socket < conn.socketsAt r.next)
    (h : Moved env s t i q) : t.Counted := by
  have hgeneration := h.effect.generation.1
  have hbefore {v : ℕ} {x : Session} (hlt : v < s.sessions.length)
      (hx : t.sessions[v]? = some x) : s.sessions[v]? = some x := by
    obtain ⟨y, hy⟩ : ∃ y, s.sessions[v]? = some y := ⟨_, List.getElem?_eq_getElem hlt⟩
    rw [hg.getElem?_sessions hy] at hx
    rw [hy, hx]
  -- A session that a join has just installed is behind the relay's cursor.
  have hnew {x : Session} (hx : t.sessions[s.sessions.length]? = some x)
      (hrelay : ∀ g, (t.tasks.pc (.relay g)).relay? = (s.tasks.pc (.relay g)).relay?) :
      t.interruptionsSince x = 0 := by
    rcases h.effect.sessions with heq | ⟨call, b, w, reuse, conn, y, hp, hy, heq⟩
    · rw [heq, List.getElem?_eq_none (Nat.le_refl _)] at hx
      cases hx
    · rw [heq, List.getElem?_concat_length] at hx
      cases hx
      exact interruptionsSince_new hs hg hp hy (hrelay _)
  have hrelay (he : q.relay? = (s.tasks.pc i).relay?) (g : ℕ) :
      (t.tasks.pc (.relay g)).relay? = (s.tasks.pc (.relay g)).relay? :=
    h.forall_pc (P := fun j p => p.relay? = (s.tasks.pc j).relay?) (fun _ => rfl) he (.relay g)
  refine ⟨?_, ?_, ?_, ?_⟩
  · intro intent x hi hx hcurrent
    rw [hgeneration] at hcurrent
    rcases h.effect.relayed with ⟨hrelayed, hintent⟩ |
      ⟨g, r, conn, event, -, -, -, -, -, -, hrelayed, hintent⟩ | ⟨he, hrecorded⟩
    · have hi' : s.voiceIntent = some intent := by
        rcases hintent with he | he
        · rw [← he, hi]
        · rw [he] at hi; cases hi
      have hx' := hbefore (hs.sessions.intent intent hi') hx
      have hold := hc.intent intent x hi' hx' hcurrent
      rcases h.interruptionsSince hs hg hskip (hs.sessions.session _ x hx') hcurrent with
        ⟨hle, -⟩ | ⟨r, conn, event, -, -, -, -, hrelayed', -⟩
      · rw [hrelayed]
        omega
      · rw [hrelayed] at hrelayed'
        exact absurd (congrArg List.length hrelayed') (by simp)
    · have hi' : s.voiceIntent = some intent := by
        rcases hintent with he | he
        · rw [← he, hi]
        · rw [he] at hi; cases hi
      have hx' := hbefore (hs.sessions.intent intent hi') hx
      have hold := hc.intent intent x hi' hx' hcurrent
      rcases h.interruptionsSince hs hg hskip (hs.sessions.session _ x hx') hcurrent with
        ⟨hle, -⟩ | ⟨r', conn', event', -, -, -, -, hrelayed', hle, -⟩
      · rw [hrelayed, List.countP_append]
        omega
      · rw [hrelayed', List.countP_append, List.countP_singleton]
        omega
    · rcases hrecorded intent hi with ⟨heq, -⟩ | hp
      · rw [heq] at hx
        rw [hnew hx (hrelay he)]
        exact Nat.zero_le _
      · have hlt := (hs.sessions.pending i _ hp).1
        have hx' := hbefore hlt hx
        have hold := hc.pending i _ x hp hx' hcurrent
        rw [interruptionsSince_keep hs hg (hs.sessions.session _ x hx') (hrelay he _)]
        split at hold <;> omega
  · intro j v x hj hx hcurrent
    rw [hgeneration] at hcurrent
    -- The join holds the gate, so the relay cannot act on a stop event.
    have hold (hj' : (s.tasks.pc j).pending? = some v) : t.interruptionsSince x ≤
        if (t.tasks.pc (.relay x.controlGeneration)).stop?.isSome then 1 else 0 := by
      have hx' := hbefore (hs.sessions.pending j v hj').1 hx
      have hbound := hc.pending j v x hj' hx' hcurrent
      rcases h.interruptionsSince hs hg hskip (hs.sessions.session _ x hx') hcurrent with
        ⟨hle, hstop | hfree⟩ | ⟨r, conn, event, hi, hp, -, -, -, hle, hstop⟩
      · rw [hstop]
        omega
      · have hholder := (hs.tasks.gate j).mpr (Pc.holdsGate_of_pending hj')
        rw [hfree] at hholder
        cases hholder
      · rw [hi] at hp
        rw [hp] at hbound
        have hzero : s.interruptionsSince x ≤ 0 := hbound
        rw [hstop]
        by_cases hinterrupts : event.interrupts = true
        · rw [if_pos (stopsVoice_of_interrupts hinterrupts)]
          rw [if_pos hinterrupts] at hle
          simpa using (by omega : t.interruptionsSince x ≤ 1)
        · rw [if_neg hinterrupts] at hle
          exact Nat.le_trans (by omega) (Nat.zero_le _)
    by_cases hji : j = i
    · subst hji
      rw [h.pc, Function.update_self] at hj
      obtain ⟨-, hp | ⟨rfl, he, -⟩⟩ := h.effect.pending hj
      · exact hold hp
      · rw [hnew hx (hrelay he)]
        exact Nat.zero_le _
    · rw [h.pc, Function.update_of_ne hji] at hj
      exact hold hj
  · refine h.forall_pc (P := fun _ p => ∀ v since, p.rejoin? = some (v, since) →
      ∃ e ∈ since, e.interrupts = true) hc.rejoin ?_
    intro v since hq
    rcases h.effect.rejoin hq with hp |
      ⟨g, r, conn, intent, hi, hp, hconn, hlive, hgen, hauto, hintent, -, rfl⟩
    · exact hc.rejoin i v since hp
    · subst hgen
      obtain ⟨x, hx, hcurrent, hsocket⟩ := hlater r conn intent hi hp hconn hlive hauto hintent
      rw [hi] at hp
      exact hc.exists_interruption hs (by rw [hp]; rfl) hconn hintent hx hcurrent hsocket
  · intro r hr
    rcases h.effect.rejoins with heq | ⟨v, since, hp, heq⟩
    · rw [heq] at hr
      exact hc.rejoins r hr
    · rw [heq] at hr
      rcases List.mem_append.mp hr with hr | hr
      · exact hc.rejoins r hr
      · obtain rfl := List.mem_singleton.mp hr
        exact hc.rejoin i v since hp

/-- Actions after which every task is where it was, or at a counter without a join. -/
theorem Counted.of_pc (hs : s.Sound) (hg : Grows s t) (hc : s.Counted)
    (hpc : ∀ j, t.tasks.pc j = s.tasks.pc j ∨
      ((t.tasks.pc j).pending? = none ∧ (t.tasks.pc j).rejoin? = none))
    (hsessions : t.sessions = s.sessions)
    (hintent : t.voiceIntent = s.voiceIntent ∨ t.voiceIntent = none)
    (hrelayed : t.history.relayed = s.history.relayed)
    (hrejoins : t.history.rejoins = s.history.rejoins)
    (hcurrent : ∀ x, s.SessionSound x → x.controlGeneration = t.connectionGeneration →
      x.controlGeneration = s.connectionGeneration ∧
        (t.interruptionsSince x = 0 ∨ t.tasks.pc (.relay x.controlGeneration) =
          s.tasks.pc (.relay x.controlGeneration))) : t.Counted := by
  have hpending {j : Task} {v : ℕ} (hj : (t.tasks.pc j).pending? = some v) :
      (s.tasks.pc j).pending? = some v := by
    rcases hpc j with heq | ⟨hn, -⟩
    · rw [← heq, hj]
    · rw [hn] at hj; cases hj
  refine ⟨?_, ?_, ?_, by unfold RejoinsInterrupted; rw [hrejoins]; exact hc.rejoins⟩
  · intro intent x hi hx hx'
    have hi' : s.voiceIntent = some intent := by
      rcases hintent with he | he
      · rw [← he, hi]
      · rw [he] at hi; cases hi
    rw [hsessions] at hx
    have hsx := hs.sessions.session _ x hx
    obtain ⟨hcur, hzero | hsame⟩ := hcurrent x hsx hx'
    · rw [hzero]
      exact Nat.zero_le _
    · rw [interruptionsSince_keep hs hg hsx (by rw [hsame]), hrelayed]
      exact hc.intent intent x hi' hx hcur
  · intro j v x hj hx hx'
    rw [hsessions] at hx
    have hsx := hs.sessions.session _ x hx
    obtain ⟨hcur, hzero | hsame⟩ := hcurrent x hsx hx'
    · rw [hzero]
      exact Nat.zero_le _
    · rw [interruptionsSince_keep hs hg hsx (by rw [hsame]), hsame]
      exact hc.pending j v x (hpending hj) hx hcur
  · intro j v since hj
    rcases hpc j with heq | ⟨-, hn⟩
    · exact hc.rejoin j v since (heq ▸ hj)
    · rw [hn] at hj; cases hj

/-- **The interruptions stay counted** in every step after which rejoins are ordinary. -/
theorem counted_step (hs : s.Sound) (hc : s.Counted) (ha : s.Reconnects a)
    (h : s.step env a = some t) : t.Counted := by
  have hchange := step_cases h
  have hg := hchange.grows hs.connections
  have same (htasks : t.tasks = s.tasks) (hsessions : t.sessions = s.sessions)
      (hintent : t.voiceIntent = s.voiceIntent) (hrelayed : t.history.relayed = s.history.relayed)
      (hrejoins : t.history.rejoins = s.history.rejoins)
      (hgeneration : t.connectionGeneration = s.connectionGeneration) : t.Counted := by
    refine hc.of_pc hs hg (fun j => .inl (by rw [htasks])) hsessions (.inl hintent) hrelayed
      hrejoins fun x _ hx => ⟨by rw [hx, hgeneration], .inr (by rw [htasks])⟩
  cases hchange with
  | call n c q result hp hm =>
      refine hm.counted hs hg hc ?_ ?_
      · rintro r conn p e ⟨⟩
      · rintro r conn intent ⟨⟩
  | resume i input q hp hm =>
      refine hm.counted hs hg hc ?_ ?_
      · rintro r conn p e rfl hp hconn hlag hle hlt he
        exact ha.skipped p e ⟨input, r, conn, rfl, hp, hconn, hlag, hle, hlt, he⟩
      · rintro r conn intent rfl
        exact ha.later input r conn intent rfl
  | install i input c conn hp hconn hstopped ht =>
      refine hc.of_pc hs hg ?_ (by rw [ht]; rfl) (.inl (by rw [ht]; rfl)) (by rw [ht]; rfl)
        (by rw [ht]; rfl) ?_
      · intro j
        rw [ht]
        by_cases hi : j = i
        · subst hi
          exact .inr (by simp [goto, Pc.pending?, Pc.rejoin?])
        · by_cases hr : j = .relay (s.connectionGeneration + 1)
          · subst hr
            exact .inr (by simp [goto, Gate.Tasks.goto, hi, Pc.pending?, Pc.rejoin?])
          · exact .inl (by simp [goto, Gate.Tasks.goto, hi, hr])
      · -- No session is of the new generation yet.
        intro x hsx hx
        rw [ht] at hx
        have hx : x.controlGeneration = s.connectionGeneration + 1 := hx
        have hlt := (List.getElem?_eq_some_iff.mp hsx.control).1
        rw [← hs.tasks.generation] at hlt
        omega
  | abort i input hp ht =>
      obtain ⟨n, rfl⟩ := hs.tasks.exists_host_of_silences (by rw [hp]; rfl)
      refine hc.of_pc hs hg ?_ (by rw [ht]; rfl) (.inl (by rw [ht]; rfl)) (by rw [ht]; rfl)
        (by rw [ht]; rfl) ?_
      · intro j
        rw [ht]
        cases j with
        | relay g => exact .inr (by rw [shutdownFinish_pc_relay]; exact ⟨rfl, rfl⟩)
        | host m =>
            rw [shutdownFinish_pc]
            split
            · exact .inr ⟨rfl, rfl⟩
            · exact .inl rfl
      · intro x _ hx
        refine ⟨by rw [hx, ht]; rfl, .inl ?_⟩
        rw [ht, Client.interruptionsSince, shutdownFinish_pc_relay]
        rfl
  | engine c input conn next hconn hstep ht => subst ht; exact same rfl rfl rfl rfl rfl rfl
  | close c ht => subst ht; exact same rfl rfl rfl rfl rfl rfl
  | worker w input worker next sealed keyCache hworker hstep ht =>
      subst ht
      exact same rfl rfl rfl rfl rfl rfl

theorem counted_new (autoRejoinVoice : Bool) (policy : ReconnectPolicy) :
    (new autoRejoinVoice policy : Client V K).Counted where
  intent _ _ h := by cases h
  pending j _ _ h := by cases j <;> cases h
  rejoin j _ _ h := by cases j <;> cases h
  rejoins _ h := by cases h

/-- **Automatic rejoin only after an ordinary reconnect**: in every run in which a
relayed `Live` is that of a later socket than the remembered session's, every HTTP
join of a relay follows a relayed interruption. -/
theorem rejoins_follow_interruption (env : Env V K) (autoRejoinVoice : Bool)
    (policy : ReconnectPolicy) (schedule : List (Action V))
    (hreconnects : Transition.Along (step env) Reconnects (new autoRejoinVoice policy) schedule)
    (h : Transition.exec (step env) (new autoRejoinVoice policy) schedule = some t) :
    t.RejoinsInterrupted := by
  have hstep : ∀ s a t, s.Sound ∧ s.Counted → Reconnects s a → step env s a = some t →
      t.Sound ∧ t.Counted := by
    intro s a t ⟨hs, hc⟩ ha h
    exact ⟨hs.step h, counted_step hs hc ha h⟩
  exact (Transition.invariant_along hstep ⟨sound_new _ _, counted_new _ _⟩ hreconnects h).2.rejoins

/-- A test that guarantees that rejoins are ordinary: a relay that polls does not lag,
and finds `Live` only on a later socket than the remembered session's. -/
def checkReconnects (s : Client V K) : Action V → Bool
  | .resume i _ =>
      match s.tasks.pc i with
      | .relayReceive r =>
          (s.connection? r.connection).all fun conn =>
            conn.sent.length - r.next ≤ conn.socket.events.capacity &&
              (!(conn.sent[r.next]?).any rejoinsVoice || s.voiceIntent.all fun intent =>
                (s.sessions[intent.session]?).any fun x =>
                  x.controlGeneration = s.connectionGeneration &&
                    x.socket < conn.socketsAt r.next)
      | _ => true
  | _ => true

theorem reconnects_of_check (h : s.checkReconnects a = true) : s.Reconnects a := by
  refine ⟨?_, ?_⟩
  · rintro p e ⟨input, r, conn, rfl, hp, hconn, hlag, -⟩
    simp only [checkReconnects, hp, hconn, Option.all_some, Bool.and_eq_true,
      decide_eq_true_eq] at h
    omega
  · rintro input r conn intent rfl hp hconn hlive - hintent
    simp only [checkReconnects, hp, hconn, hlive, hintent, Option.all_some, Option.any_some,
      rejoinsVoice, Bool.and_eq_true, Bool.not_true, Bool.false_or] at h
    obtain ⟨x, hx, hboth⟩ := (Option.any_eq_true _ _).mp h.2
    simp only [Bool.and_eq_true, decide_eq_true_eq] at hboth
    exact ⟨x, hx, hboth.1, hboth.2⟩

/-- A joined client loses its socket and becomes live again; the relay closes the
session and replays the join. -/
def rejoinSchedule : Schedule :=
  lostSchedule ++ opening 0 1 ++ receiving 0 (.syncComplete ⟨sampleCursor⟩) ++ relaying 1 16 ++
    [.resume (.relay 1) (.metadata (.ok sampleMetadata))]

theorem rejoins_follow_interruption_rejoin :
    ∃ t, Transition.exec (step sampleClientEnv) sampleClient rejoinSchedule = some t ∧
      t.history.rejoins.length = 1 ∧ t.RejoinsInterrupted := by
  have hrun : (Transition.exec (step sampleClientEnv) sampleClient rejoinSchedule).any (fun t =>
      t.history.rejoins.length = 1) = true := by decide
  obtain ⟨t, ht, hrejoins⟩ := (Option.any_eq_true _ _).mp hrun
  refine ⟨t, ht, by simpa using hrejoins, rejoins_follow_interruption sampleClientEnv true
    ⟨true, none⟩ rejoinSchedule ?_ ht⟩
  exact Transition.along_of_check (fun _ _ => reconnects_of_check) (by decide)

/-- The server asks a joined client to resynchronize; the socket stays open and the
connection becomes live again. -/
def resyncSchedule : Schedule :=
  joinedSchedule ++ receiving 0 (.syncRequired "reset") ++
    receiving 0 (.syncComplete ⟨sampleCursor⟩) ++ relaying 1 8 ++
    [.resume (.relay 1) (.metadata (.ok sampleMetadata))]

/-- The relay joins again although nothing was interrupted. -/
theorem resyncSchedule_rejoins :
    ¬ ∀ (autoRejoinVoice : Bool) (policy : ReconnectPolicy) (schedule : Schedule)
      (t : Client (Option VoiceAuthority) SampleCipher),
      Transition.exec (step sampleClientEnv) (new autoRejoinVoice policy) schedule = some t →
      t.RejoinsInterrupted := by
  intro h
  have hrun : (Transition.exec (step sampleClientEnv) sampleClient resyncSchedule).any (fun t =>
      t.history.rejoins.any fun r => r.since.all fun e => !e.interrupts) = true := by decide
  obtain ⟨t, ht, hrejoins⟩ := (Option.any_eq_true _ _).mp hrun
  obtain ⟨r, hr, hsince⟩ := List.any_eq_true.mp hrejoins
  obtain ⟨e, he, hinterrupts⟩ := h true ⟨true, none⟩ resyncSchedule t ht r hr
  have hnot := List.all_eq_true.mp hsince e he
  rw [hinterrupts] at hnot
  cases hnot

end Client

end ZephyrVox.Sdk
