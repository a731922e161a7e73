import ZephyrVox.Sdk.Rejoin

/-!
# Withdrawn joins

The server withdraws a voice session through a state event, a snapshot or a UDP
packet. Only the snapshot is reported as a lost authority, which makes the relay
forget the remembered join; a join that was withdrawn otherwise is replayed at
the next `Live` status.

## Main definitions

* `Announced` — the relay reads a clearing event before the next `Live` status.
* `Announces` — an action after which a withdrawn join is still announced.
* `withdrawn_joins_are_forgotten` — in a run of such actions no withdrawn join is
  replayed.
-/

namespace ZephyrVox.Sdk

open Realtime Voice

namespace Client

variable {V K : Type} {env : Env V K} {s t u : Client V K} {i : Task} {q : Pc V} {a : Action V}

/-- No request of a relay replays a join that was withdrawn before. -/
def RejoinsAuthorized (s : Client V K) : Prop :=
  ∀ r ∈ s.history.rejoins, r.withdrawn = false

/-- Among the events the current relay has not read there is one that clears the
remembered join, and no `Live` status before it. -/
def Announced (s : Client V K) : Prop :=
  ∃ (r : Relay) (conn : Connection V) (p : ℕ) (e : ClientEvent V),
    (s.tasks.pc (.relay s.connectionGeneration)).relay? = some r ∧
    s.connection? r.connection = some conn ∧ r.next ≤ p ∧ conn.sent[p]? = some e ∧
    clearsIntent e = true ∧
    ∀ n, r.next ≤ n → n < p → conn.sent[n]? ≠ some (.statusChanged .live)

/-- The remembered join was withdrawn. -/
def IntentWithdrawn (s : Client V K) : Prop :=
  ∃ intent, s.voiceIntent = some intent ∧ intent.session ∈ s.history.withdrawn

/-- Shutdown has aborted the current relay. -/
def Silenced (s : Client V K) : Prop :=
  s.stopped = true ∧ s.tasks.pc (.relay s.connectionGeneration) = .relayExited

/-- A step of a connection that reports the lost authority, at a time when the
current relay has read every `Live` status and no relay replays the join. -/
structure Reports (s : Client V K) (conn next : Connection V) : Prop where
  lost : ∃ authority, .voiceLost authority ∈ next.sent.drop conn.sent.length
  read : ∀ r n, (s.tasks.pc (.relay s.connectionGeneration)).relay? = some r → r.next ≤ n →
    conn.sent[n]? ≠ some (.statusChanged .live)
  idle : ∀ g ≤ s.connectionGeneration, ∀ v since intent,
    (s.tasks.pc (.relay g)).rejoin? = some (v, since) → s.voiceIntent = some intent →
    v ≠ intent.session

/-- An action that leaves no withdrawn join to be replayed: a connection withdraws
one only by a reported loss, a worker withdraws none, the relay does not lag over
the report, and no new connection is installed before the report is read. -/
structure Announces (env : Env V K) (s : Client V K) (a : Action V) : Prop where
  frame : ∀ c input conn next, a = .engine c input → s.connection? c = some conn →
    conn.step env.serde input = some next → s.withdrawnByState c conn next ≠ [] →
    s.Reports conn next
  worker : ∀ (w : ℕ) (input : WorkerInput) (worker next : Worker K) (sealed : List (Sealed K)),
    a = .worker w input → s.workers[w]? = some worker →
    worker.step env.crypto input = some (next, sealed) →
    s.withdrawnByWorker worker next input = []
  skipped : s.IntentWithdrawn → ∀ p e, s.Skipped a s.connectionGeneration p e →
    clearsIntent e = false
  replaced : s.IntentWithdrawn → ∀ i input c, a = .resume i input →
    s.tasks.pc i ≠ .connectInstall c

/-- A withdrawn join is announced, unless no relay is left, and no relay replays one. -/
structure Forgetful (s : Client V K) : Prop where
  intent : s.IntentWithdrawn → s.Announced ∨ s.Silenced
  rejoin : ∀ j v since, (s.tasks.pc j).rejoin? = some (v, since) → v ∉ s.history.withdrawn
  rejoins : s.RejoinsAuthorized

/-- An announcement stays while the current relay does not move its cursor. -/
theorem Announced.mono (h : s.Announced) (hg : Grows s t)
    (hgeneration : t.connectionGeneration = s.connectionGeneration)
    (hrelay : (t.tasks.pc (.relay s.connectionGeneration)).relay? =
      (s.tasks.pc (.relay s.connectionGeneration)).relay?) : t.Announced := by
  obtain ⟨r, conn, p, e, hr, hconn, hle, hp, hclears, hlive⟩ := h
  obtain ⟨conn', hconn', hf⟩ := hg.connections _ conn hconn
  obtain ⟨evs, hsent⟩ := hf.events
  have hlt : p < conn.sent.length := (List.getElem?_eq_some_iff.mp hp).1
  refine ⟨r, conn', p, e, by rw [hgeneration, hrelay, hr], hconn', hle, ?_, hclears, ?_⟩
  · rw [hsent, List.getElem?_append_left hlt, hp]
  · intro n hn hnp
    rw [hsent, List.getElem?_append_left (by omega)]
    exact hlive n hn hnp

theorem Silenced.mono (h : s.Silenced) (hg : Grows s t)
    (hgeneration : t.connectionGeneration = s.connectionGeneration)
    (hpc : t.tasks.pc (.relay s.connectionGeneration) =
      s.tasks.pc (.relay s.connectionGeneration)) : t.Silenced :=
  ⟨hg.stopped h.1, by rw [hgeneration, hpc, h.2]⟩

/-- An announcement stays when the current relay moves to a cursor before it. -/
theorem Announced.advance (h : s.Announced) (hg : Grows s t)
    (hgeneration : t.connectionGeneration = s.connectionGeneration) {r : Relay}
    {conn : Connection V} {next : ℕ}
    (hr : (s.tasks.pc (.relay s.connectionGeneration)).relay? = some r)
    (hconn : s.connection? r.connection = some conn) (hle : r.next ≤ next)
    (hr' : (t.tasks.pc (.relay s.connectionGeneration)).relay? = some { r with next := next })
    (hpassed : ∀ n e, r.next ≤ n → n < next → conn.sent[n]? = some e → clearsIntent e = false) :
    t.Announced := by
  obtain ⟨r', conn', p, e, hrelay, hconn', hrp, hp, hclears, hlive⟩ := h
  rw [hr] at hrelay
  cases hrelay
  rw [hconn] at hconn'
  cases hconn'
  have hnext : next ≤ p := by
    by_contra hlt
    have hnot := hpassed p e hrp (by omega) hp
    rw [hclears] at hnot
    cases hnot
  obtain ⟨conn', hconn', hf⟩ := hg.connections _ conn hconn
  obtain ⟨evs, hsent⟩ := hf.events
  have hlt : p < conn.sent.length := (List.getElem?_eq_some_iff.mp hp).1
  refine ⟨{ r with next := next }, conn', p, e, by rw [hgeneration, hr'], hconn', hnext, ?_,
    hclears, ?_⟩
  · rw [hsent, List.getElem?_append_left hlt, hp]
  · intro n hn hnp
    rw [hsent, List.getElem?_append_left (by omega)]
    exact hlive n (Nat.le_trans hle hn) hnp

/-- The join that a move leaves withdrawn was withdrawn before. -/
theorem Effect.intentWithdrawn (hs : s.SessionsSound) (h : Effect env s t i q)
    (hw : t.IntentWithdrawn) :
    ∃ intent, t.voiceIntent = some intent ∧ s.voiceIntent = some intent ∧
      intent.session ∈ s.history.withdrawn := by
  obtain ⟨intent, hi, hmem⟩ := hw
  rw [h.withdrawn] at hmem
  refine ⟨intent, hi, ?_, hmem⟩
  rcases h.intent hi with hi | ⟨heq, -⟩ | hp
  · exact hi
  · exact absurd (hs.withdrawn _ hmem) (by omega)
  · exact absurd hmem (hs.pending i _ hp).2.1

/-- A relay that handles a clearing event forgets the join. -/
theorem clearsIntent_of_kept {r : Relay} {event : ClientEvent V} {intent : VoiceIntent}
    (h : Calm ((s.forgetIntent r event).relay event) t) (hi : t.voiceIntent = some intent) :
    clearsIntent event = false := by
  by_contra hclears
  have hnone : ((s.forgetIntent r event).relay event).voiceIntent = none := by
    unfold forgetIntent
    rw [if_pos (by simpa using hclears)]
    rfl
  rcases h.intent with he | he
  · rw [he, hnone] at hi
    cases hi
  · rw [he] at hi
    cases hi

theorem Moved.announced (hs : s.Sound) (hg : Grows s t) (hf : s.Forgetful)
    (hskip : s.IntentWithdrawn → ∀ (r : Relay) (conn : Connection V) (p : ℕ) (e : ClientEvent V),
      i = .relay s.connectionGeneration → s.tasks.pc i = .relayReceive r →
      s.connection? r.connection = some conn →
      conn.socket.events.capacity < conn.sent.length - r.next → r.next ≤ p →
      p < conn.sent.length - conn.socket.events.capacity → conn.sent[p]? = some e →
      clearsIntent e = false)
    (hlive : s.tasks.pc i ≠ .relayExited) (h : Moved env s t i q) (hw : t.IntentWithdrawn) :
    t.Announced ∨ t.Silenced := by
  obtain ⟨intent, hi', hi, hmem⟩ := h.effect.intentWithdrawn hs.sessions hw
  have hwithdrawn : s.IntentWithdrawn := ⟨intent, hi, hmem⟩
  have hgeneration := h.effect.generation.1
  rcases hf.intent hwithdrawn with hannounced | hsilenced
  case inr =>
    have hne : .relay s.connectionGeneration ≠ i := fun he => hlive (he ▸ hsilenced.2)
    exact .inr (hsilenced.mono hg hgeneration (by rw [h.pc, Function.update_of_ne hne]))
  refine .inl ?_
  by_cases hir : i = .relay s.connectionGeneration
  · subst hir
    have hself : t.tasks.pc (.relay s.connectionGeneration) = q := by
      rw [h.pc, Function.update_self]
    have keep (hrelay : q.relay? = (s.tasks.pc (.relay s.connectionGeneration)).relay?) :
        t.Announced :=
      hannounced.mono hg hgeneration (by rw [hself, hrelay])
    rcases h.effect.relay_cases with ⟨g, hg', hmove⟩ | hstill
    · cases hg'
      cases hmove with
      | exits r hp hne hq hcalm => exact absurd rfl hne
      | skips r conn next hp hq hconn hskips hcalm =>
          rcases hskips with ⟨hlag, rfl⟩ | ⟨hne, -, -⟩
          · have hle : r.next ≤ conn.sent.length - conn.socket.events.capacity := by omega
            refine hannounced.advance hg hgeneration (by rw [hp]; rfl) hconn hle
              (by rw [hself, hq]; rfl) ?_
            intro n e hn hlt he
            exact hskip hwithdrawn r conn n e rfl hp hconn hlag hn hlt he
          · exact absurd rfl hne
      | handles r conn event hp hconn hevent hgen hcalm hrelay hstop =>
          refine hannounced.advance hg hgeneration (by rw [hp]; rfl) hconn (Nat.le_succ _)
            (by rw [hself, hrelay]) ?_
          intro n e hn hlt he
          obtain rfl : n = r.next := by omega
          rw [hevent] at he
          cases he
          exact clearsIntent_of_kept hcalm hi'
      | passes r event hp hq hfree hnone hcalm => exact keep (by rw [hq, hp]; rfl)
      | takes r event v y hp hq hfree hv hy hgen hcalm => exact keep (by rw [hq, hp]; rfl)
    · exact keep hstill.relay
  · refine hannounced.mono hg hgeneration ?_
    rw [h.pc, Function.update_of_ne (fun he => hir he.symm)]

/-- A `Live` status that the relay handles comes before no announcement. -/
theorem Announced.not_live (h : s.Announced) {r : Relay} {conn : Connection V}
    (hr : (s.tasks.pc (.relay s.connectionGeneration)).relay? = some r)
    (hconn : s.connection? r.connection = some conn) :
    conn.sent[r.next]? ≠ some (.statusChanged .live) := by
  obtain ⟨r', conn', p, e, hrelay, hconn', hrp, hp, hclears, hlive⟩ := h
  rw [hr] at hrelay
  cases hrelay
  rw [hconn] at hconn'
  cases hconn'
  intro hl
  by_cases heq : p = r.next
  · rw [heq, hl] at hp
    cases hp
    cases hclears
  · exact hlive r.next (Nat.le_refl _) (by omega) hl

theorem Moved.forgetful (hs : s.Sound) (hg : Grows s t) (hf : s.Forgetful)
    (hskip : s.IntentWithdrawn → ∀ (r : Relay) (conn : Connection V) (p : ℕ) (e : ClientEvent V),
      i = .relay s.connectionGeneration → s.tasks.pc i = .relayReceive r →
      s.connection? r.connection = some conn →
      conn.socket.events.capacity < conn.sent.length - r.next → r.next ≤ p →
      p < conn.sent.length - conn.socket.events.capacity → conn.sent[p]? = some e →
      clearsIntent e = false)
    (hlive : s.tasks.pc i ≠ .relayExited) (h : Moved env s t i q) : t.Forgetful := by
  have hwithdrawn := h.effect.withdrawn
  refine ⟨h.announced hs hg hf hskip hlive, ?_, ?_⟩
  · refine h.forall_pc (P := fun _ p => ∀ v since, p.rejoin? = some (v, since) →
      v ∉ t.history.withdrawn) ?_ ?_
    · rw [hwithdrawn]
      exact hf.rejoin
    · intro v since hq
      rw [hwithdrawn]
      rcases h.effect.rejoin hq with hp |
        ⟨g, r, conn, intent, hi, hp, hconn, hevent, hgen, -, hintent, rfl, -⟩
      · exact hf.rejoin i v since hp
      · intro hmem
        subst hgen
        rcases hf.intent ⟨intent, hintent, hmem⟩ with hannounced | hsilenced
        · rw [hi] at hp
          exact hannounced.not_live (by rw [hp]; rfl) hconn hevent
        · exact hlive (hi ▸ hsilenced.2)
  · intro r hr
    rcases h.effect.rejoins with heq | ⟨v, since, hp, heq⟩
    · rw [heq] at hr
      exact hf.rejoins r hr
    · rw [heq] at hr
      rcases List.mem_append.mp hr with hr | hr
      · exact hf.rejoins r hr
      · obtain rfl := List.mem_singleton.mp hr
        exact decide_eq_false (hf.rejoin i v since hp)

/-- The relay of the current generation reads the control connection. -/
theorem Sound.exists_relay_control (hs : s.Sound) {c : ℕ} (hc : s.control = some c) :
    ∃ r, (s.tasks.pc (.relay s.connectionGeneration)).relay? = some r ∧ r.connection = c := by
  obtain ⟨hle, hget⟩ := hs.tasks.getElem?_of_getLast? (hs.control.current c hc)
  rcases hs.tasks.relay s.connectionGeneration with hexit | ⟨r, conn, hr, -, hinst, -, -⟩
  · exact absurd hexit (hs.control.relaying (.inr (by rw [hc]; intro h; cases h)) hle)
  · rw [hget] at hinst
    exact ⟨r, hr, (Option.some.inj hinst).symm⟩

/-- A reported withdrawal is announced. -/
theorem Reports.announced (hs : s.Sound) {c : ℕ} {conn next : Connection V}
    {input : EngineInput V} (h : s.Reports conn next) (hconn : s.connection? c = some conn)
    (hstep : conn.step env.serde input = some next) (hc : s.control = some c)
    (hconnections : t.connection? c = some next) (htasks : t.tasks = s.tasks)
    (hgeneration : t.connectionGeneration = s.connectionGeneration) : t.Announced := by
  obtain ⟨r, hr, rfl⟩ := hs.exists_relay_control hc
  obtain ⟨evs, hsent, hlost⟩ := Connection.step_lost hstep
  obtain ⟨authority, hmem⟩ := h.lost
  have hnext : r.next ≤ conn.sent.length := by
    rcases hs.tasks.relay s.connectionGeneration with hexit | ⟨r', conn', hr', -, -, hconn', hle⟩
    · rw [hexit] at hr
      cases hr
    · rw [hr] at hr'
      cases hr'
      rw [hconn] at hconn'
      cases hconn'
      exact hle
  rw [hsent, List.drop_left] at hmem
  obtain ⟨k, hk⟩ := List.getElem?_of_mem hmem
  refine ⟨r, next, conn.sent.length + k, .voiceLost authority, by rw [hgeneration, htasks, hr],
    hconnections, by omega, ?_, rfl, ?_⟩
  · rw [hsent, List.getElem?_append_right (by omega), Nat.add_sub_cancel_left, hk]
  · intro n hn hlt
    rw [hsent]
    by_cases hold : n < conn.sent.length
    · rw [List.getElem?_append_left hold]
      exact h.read r n hr hn
    · rw [List.getElem?_append_right (by omega)]
      exact fun hlive => hlost authority hmem (List.mem_of_getElem? hlive)

/-- Only the relays of installed connections replay a join. -/
theorem TasksSound.exists_relay_of_rejoin (hs : s.TasksSound) {j : Task} {v : ℕ}
    {since : List (ClientEvent V)} (hj : (s.tasks.pc j).rejoin? = some (v, since)) :
    ∃ g, j = .relay g ∧ g ≤ s.connectionGeneration := by
  have hrelay : (s.tasks.pc j).relay? ≠ none := by
    intro hnone
    cases hpc : s.tasks.pc j with
    | join call stage =>
        obtain ⟨caller, channelId, request⟩ := call
        rw [hpc] at hj hnone
        cases caller with
        | host => cases stage <;> cases hj
        | relay r session since => cases hnone
    | _ => rw [hpc] at hj; cases hj
  cases j with
  | host n => exact absurd (hs.host n) hrelay
  | relay g =>
      refine ⟨g, rfl, ?_⟩
      rcases hs.relay g with hexit | ⟨r, conn, -, hle, hinst, -, -⟩
      · rw [hexit] at hrelay
        exact absurd rfl hrelay
      · have hlt := (List.getElem?_eq_some_iff.mp hinst).1
        rw [hs.generation]
        omega

theorem Forgetful.engine (hs : s.Sound) (hg : Grows s t) (hf : s.Forgetful) {c : ℕ}
    {conn next : Connection V} {input : EngineInput V} (hconn : s.connection? c = some conn)
    (hstep : conn.step env.serde input = some next)
    (hreports : s.withdrawnByState c conn next ≠ [] → s.Reports conn next)
    (ht : t = { s with
      connections := s.connections.set c next
      history := { s.history with
        withdrawn := s.history.withdrawn ++ s.withdrawnByState c conn next } }) : t.Forgetful := by
  have hconnections : t.connection? c = some next := by
    rw [ht, connection?, List.getElem?_set_self (List.getElem?_eq_some_iff.mp hconn).1]
  refine ⟨?_, ?_, by rw [ht]; exact hf.rejoins⟩
  · rintro ⟨intent, hi, hmem⟩
    rw [ht] at hi hmem
    rcases List.mem_append.mp hmem with hmem | hmem
    · exact (hf.intent ⟨intent, hi, hmem⟩).imp
        (fun hannounced => hannounced.mono hg (by rw [ht]) (by rw [ht]))
        (fun hsilenced => hsilenced.mono hg (by rw [ht]) (by rw [ht]))
    · obtain ⟨-, -, -, hc⟩ := mem_withdrawnByState hmem
      exact .inl ((hreports (List.ne_nil_of_mem hmem)).announced hs hconn hstep hc hconnections
        (by rw [ht]) (by rw [ht]))
  · intro j v since hj
    rw [ht] at hj ⊢
    intro hmem
    rcases List.mem_append.mp hmem with hmem | hmem
    · exact hf.rejoin j v since hj hmem
    · obtain ⟨intent, hi, rfl, -⟩ := mem_withdrawnByState hmem
      obtain ⟨g, rfl, hle⟩ := hs.tasks.exists_relay_of_rejoin hj
      exact (hreports (List.ne_nil_of_mem hmem)).idle g hle _ since intent hj hi rfl

/-- **Withdrawn joins stay announced** in every step that announces them. -/
theorem forgetful_step (hs : s.Sound) (hf : s.Forgetful) (ha : s.Announces env a)
    (h : s.step env a = some t) : t.Forgetful := by
  have hchange := step_cases h
  have hg := hchange.grows hs.connections
  cases hchange with
  | call n c q result hp hm =>
      refine hm.forgetful hs hg hf ?_ (by rw [hp]; intro h; cases h)
      rintro - r conn p e ⟨⟩
  | resume i input q hp hm =>
      refine hm.forgetful hs hg hf ?_ hp
      rintro hw r conn p e rfl hpr hconn hlag hle hlt he
      exact ha.skipped hw p e ⟨input, r, conn, rfl, hpr, hconn, hlag, hle, hlt, he⟩
  | install i input c conn hp hconn hstopped ht =>
      have hnot : ¬ s.IntentWithdrawn := fun hw => ha.replaced hw i input c rfl hp
      refine ⟨fun hw => absurd (by rw [ht] at hw; exact hw) hnot, ?_, by rw [ht]; exact hf.rejoins⟩
      intro j v since hj
      rw [ht] at hj ⊢
      by_cases hji : j = i
      · subst hji
        simp [goto, Pc.rejoin?] at hj
      · by_cases hjr : j = .relay (s.connectionGeneration + 1)
        · subst hjr
          simp [goto, Gate.Tasks.goto, hji, Pc.rejoin?] at hj
        · simp only [goto, Gate.Tasks.goto, Function.update_of_ne hji,
            Function.update_of_ne hjr] at hj
          exact hf.rejoin j v since hj
  | abort i input hp ht =>
      obtain ⟨n, rfl⟩ := hs.tasks.exists_host_of_silences (by rw [hp]; rfl)
      subst ht
      refine ⟨?_, ?_, hf.rejoins⟩
      · have hstopped : s.stopped = true := hs.control.shuts (.host n) (by rw [hp]; rfl)
        exact fun _ => .inr ⟨hstopped, shutdownFinish_pc_relay s n _⟩
      intro j v since hj
      cases j with
      | relay g =>
          rw [shutdownFinish_pc_relay] at hj
          cases hj
      | host m =>
          rw [shutdownFinish_pc] at hj
          split at hj
          · cases hj
          · exact hf.rejoin _ v since hj
  | engine c input conn next hconn hstep ht =>
      exact hf.engine hs hg hconn hstep (ha.frame c input conn next rfl hconn hstep) ht
  | close c ht =>
      subst ht
      refine ⟨fun hw => (hf.intent hw).imp ?_ ?_, hf.rejoin, hf.rejoins⟩
      · exact fun hannounced => hannounced.mono hg rfl rfl
      · exact fun hsilenced => hsilenced.mono hg rfl rfl
  | worker w input worker next sealed keyCache hworker hstep ht =>
      have hnone := ha.worker w input worker next sealed rfl hworker hstep
      rw [hnone, List.append_nil] at ht
      subst ht
      refine ⟨fun hw => (hf.intent hw).imp ?_ ?_, hf.rejoin, hf.rejoins⟩
      · exact fun hannounced => hannounced.mono hg rfl rfl
      · exact fun hsilenced => hsilenced.mono hg rfl rfl

theorem forgetful_new (autoRejoinVoice : Bool) (policy : ReconnectPolicy) :
    (new autoRejoinVoice policy : Client V K).Forgetful where
  intent h := by obtain ⟨_, hi, -⟩ := h; cases hi
  rejoin j _ _ h := by cases j <;> cases h
  rejoins _ h := by cases h

/-- **Authority loss forgets the join**: in every run in which withdrawals are
announced to the relay in time, no HTTP join of a relay replays a withdrawn join. -/
theorem withdrawn_joins_are_forgotten (env : Env V K) (autoRejoinVoice : Bool)
    (policy : ReconnectPolicy) (schedule : List (Action V))
    (hannounces : Transition.Along (step env) (Announces env) (new autoRejoinVoice policy)
      schedule)
    (h : Transition.exec (step env) (new autoRejoinVoice policy) schedule = some t) :
    t.RejoinsAuthorized := by
  have hstep : ∀ s a t, s.Sound ∧ s.Forgetful → Announces env s a → step env s a = some t →
      t.Sound ∧ t.Forgetful := by
    intro s a t ⟨hs, hf⟩ ha h
    exact ⟨hs.step h, forgetful_step hs hf ha h⟩
  exact (Transition.invariant_along hstep ⟨sound_new _ _, forgetful_new _ _⟩ hannounces h).2.rejoins

/-- A test that guarantees that a step reports the lost authority in time. -/
def checkReports (s : Client V K) (conn next : Connection V) : Bool :=
  ((next.sent.drop conn.sent.length).any fun e =>
      match e with
      | .voiceLost _ => true
      | _ => false) &&
    ((s.tasks.pc (.relay s.connectionGeneration)).relay?.all fun r =>
      (conn.sent.drop r.next).all fun e => !rejoinsVoice e) &&
    (List.range (s.connectionGeneration + 1)).all fun g =>
      (s.tasks.pc (.relay g)).rejoin?.isNone

theorem reports_of_check {conn next : Connection V} (h : s.checkReports conn next = true) :
    s.Reports conn next := by
  simp only [checkReports, Bool.and_eq_true, List.all_eq_true, List.mem_range] at h
  obtain ⟨⟨hlost, hread⟩, hidle⟩ := h
  refine ⟨?_, ?_, ?_⟩
  · obtain ⟨e, he, hmatch⟩ := List.any_eq_true.mp hlost
    cases e with
    | voiceLost authority => exact ⟨authority, he⟩
    | _ => cases hmatch
  · intro r n hr hle hlive
    rw [hr, Option.all_some, List.all_eq_true] at hread
    have hmem : .statusChanged .live ∈ conn.sent.drop r.next := by
      refine List.mem_of_getElem? (i := n - r.next) ?_
      rw [List.getElem?_drop, Nat.add_sub_cancel' hle, hlive]
    cases hread _ hmem
  · intro g hle v since intent hrejoin
    have hnone := hidle g (by omega)
    rw [hrejoin] at hnone
    cases hnone

/-- A test that guarantees that an action announces what it withdraws: it withdraws
nothing or reports it in time, the relay does not lag, and no connection is
installed while a withdrawn join is remembered. -/
def checkAnnounces (env : Env V K) (s : Client V K) : Action V → Bool
  | .engine c input =>
      (s.connection? c).all fun conn => (conn.step env.serde input).all fun next =>
        (s.withdrawnByState c conn next).isEmpty || s.checkReports conn next
  | .worker w input =>
      (s.workers[w]?).all fun worker => (worker.step env.crypto input).all fun next =>
        (s.withdrawnByWorker worker next.1 input).isEmpty
  | .resume i _ =>
      match s.tasks.pc i with
      | .relayReceive r =>
          (s.connection? r.connection).all fun conn =>
            conn.sent.length - r.next ≤ conn.socket.events.capacity
      | .connectInstall _ =>
          s.voiceIntent.all fun intent => !s.history.withdrawn.contains intent.session
      | _ => true
  | _ => true

theorem announces_of_check (h : s.checkAnnounces env a = true) : s.Announces env a := by
  refine ⟨?_, ?_, ?_, ?_⟩
  · rintro c input conn next rfl hconn hstep hne
    simp only [checkAnnounces, hconn, hstep, Option.all_some, Bool.or_eq_true,
      List.isEmpty_iff] at h
    exact reports_of_check (h.resolve_left hne)
  · rintro w input worker next sealed rfl hworker hstep
    simpa only [checkAnnounces, hworker, hstep, Option.all_some, List.isEmpty_iff] using h
  · rintro - p e ⟨input, r, conn, rfl, hp, hconn, hlag, -⟩
    simp only [checkAnnounces, hp, hconn, Option.all_some, decide_eq_true_eq] at h
    omega
  · rintro ⟨intent, hi, hmem⟩ i input c rfl hp
    simp [checkAnnounces, hp, hi, hmem] at h

/-- The server's view of the voice authority of the sample user. -/
def authorizing (geid : Geid) (authority : Option VoiceAuthority) : Schedule :=
  receiving 0 (.stateEvent (sampleEvent "voice.authority.updated" geid authority))

/-- Authority over session `n` in the sample channel. -/
def sampleAuthority (n : Fin 255) : VoiceAuthority :=
  ⟨sampleChannel, sampleId .controlConnection 0, sampleId .session n, "1"⟩

/-- A snapshot withdraws the joined session and the relay closes it; the host joins
another one, loses its socket, and the relay replays that join. -/
def replacedSchedule : Schedule :=
  joinedSchedule ++ authorizing 6 (some (sampleAuthority 0)) ++
    receiving 0 (.syncRequired "reset") ++ relaying 1 10 ++ [.worker 0 .stop] ++ relaying 1 1 ++
    receiving 0 (.syncComplete ⟨sampleCursor⟩) ++ relaying 1 2 ++ hostJoining 0 1 1 true ++
    losing 0 ++ relaying 1 4 ++ [.worker 1 .stop] ++ relaying 1 1 ++ opening 0 1 ++
    receiving 0 (.syncComplete ⟨sampleCursor⟩) ++ relaying 1 16 ++
    [.resume (.relay 1) (.metadata (.ok sampleMetadata))]

theorem withdrawn_joins_are_forgotten_replaced :
    ∃ t, Transition.exec (step sampleClientEnv) sampleClient replacedSchedule = some t ∧
      t.history.withdrawn = [0] ∧ t.history.rejoins.length = 1 ∧ t.RejoinsAuthorized := by
  have hrun : (Transition.exec (step sampleClientEnv) sampleClient replacedSchedule).any (fun t =>
      t.history.withdrawn = [0] ∧ t.history.rejoins.length = 1) = true := by decide
  obtain ⟨t, ht, hfacts⟩ := (Option.any_eq_true _ _).mp hrun
  obtain ⟨hwithdrawn, hrejoins⟩ := of_decide_eq_true hfacts
  refine ⟨t, ht, hwithdrawn, hrejoins, withdrawn_joins_are_forgotten sampleClientEnv true
    ⟨true, none⟩ replacedSchedule ?_ ht⟩
  exact Transition.along_of_check (fun _ _ => announces_of_check) (by decide)

/-- A state event withdraws the joined session; the client loses its socket later
and becomes live again. -/
def kickedSchedule : Schedule :=
  joinedSchedule ++ authorizing 6 (some (sampleAuthority 0)) ++ authorizing 7 none ++
    relaying 1 4 ++ losing 0 ++ relaying 1 4 ++ [.worker 0 .stop] ++ relaying 1 1 ++
    opening 0 1 ++ receiving 0 (.syncComplete ⟨sampleCursor⟩) ++ relaying 1 16 ++
    [.resume (.relay 1) (.metadata (.ok sampleMetadata))]

/-- The relay replays the join the server withdrew. -/
theorem kickedSchedule_rejoins :
    ¬ ∀ (autoRejoinVoice : Bool) (policy : ReconnectPolicy) (schedule : Schedule)
      (t : Client (Option VoiceAuthority) SampleCipher),
      Transition.exec (step sampleClientEnv) (new autoRejoinVoice policy) schedule = some t →
      t.RejoinsAuthorized := by
  intro h
  have hrun : (Transition.exec (step sampleClientEnv) sampleClient kickedSchedule).any (fun t =>
      t.history.rejoins.any fun r => r.withdrawn) = true := by decide
  obtain ⟨t, ht, hrejoins⟩ := (Option.any_eq_true _ _).mp hrun
  obtain ⟨r, hr, hwithdrawn⟩ := List.any_eq_true.mp hrejoins
  rw [h true ⟨true, none⟩ kickedSchedule t ht r hr] at hwithdrawn
  cases hwithdrawn

end Client

end ZephyrVox.Sdk
