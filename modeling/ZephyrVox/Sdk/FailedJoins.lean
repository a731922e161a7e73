import ZephyrVox.Sdk.Confidential

/-!
# What a failed join leaves

A join that returns an error has not touched the current session or the remembered
join. It has touched the key cache if it started a worker: a worker removes the key
of its session when it stops, and a response may name the session that is current.

The actions of a join are those of its task and those of the worker it has started;
what other tasks do meanwhile is kept apart (`Undisturbed`).

## Main definitions

* `Kept ids s t` — the voice slot, the remembered join and the keys of `ids` are the same.
* `Intact` — the current session keeps its key as well.
* `SparesKey` — no UDP socket is connected for a response that names a session.
* `Phase` — how far a join has gone, and what it has touched.
* `failed_join_intact_iff` — a failed join leaves the current session intact exactly
  if it spares its key.
-/

namespace ZephyrVox.Sdk

open Realtime Voice

variable {V K : Type}

/-- The worker a join has started. -/
def JoinPc.worker? : JoinPc → Option ℕ
  | .starting _ w _ | .discarding w => some w
  | _ => none

/-- The error an operation returned. -/
def Pc.error? : Pc V → Option SdkError
  | .returned (.error e) => some e
  | _ => none

theorem Pc.eq_returned_of_error? {p : Pc V} {e : SdkError} (h : p.error? = some e) :
    p = .returned (.error e) := by
  unfold error? at h
  split at h
  · cases h
    rfl
  · cases h

namespace Client

/-- The server identity of the current session. -/
def activeSession (s : Client V K) : Option VoiceSessionId :=
  (s.voice.bind (s.sessions[·]?)).map (·.sessionId)

/-- The voice slot, the remembered join and the cached keys of `ids` are the same. -/
structure Kept (ids : VoiceSessionId → Prop) (s t : Client V K) : Prop where
  voice : t.voice = s.voice
  intent : t.voiceIntent = s.voiceIntent
  key : ∀ id, ids id → t.keyCache id = s.keyCache id

/-- The current session, the remembered join and the key of the session are the same. -/
def Intact (s t : Client V K) : Prop := Kept (fun id => s.activeSession = some id) s t

/-- The worker a task waits for: one that its join has started, or that of a session it
closes. -/
def awaited (s : Client V K) (i : Task) : Option ℕ :=
  match s.tasks.pc i with
  | .join _ stage => stage.worker?
  | .stopping session _ => (s.sessions[session]?).map (·.transport)
  | _ => none

/-- The actions that are part of an operation of host `n`. -/
def owns (s : Client V K) (n : ℕ) : Action V → Bool
  | .call m _ => m = n
  | .resume i _ => i = .host n
  | .worker w _ => s.awaited (.host n) = some w
  | .engine _ _ | .closeControl _ => false

/-- An action of another task or worker keeps the session, the intent and the keys. -/
def Undisturbed (env : Env V K) (n : ℕ) (ids : VoiceSessionId → Prop) (s : Client V K)
    (a : Action V) : Prop :=
  s.owns n a = false → ∀ t, s.step env a = some t → Kept ids s t

/-- An action of host `n` that connects no UDP socket for session `id`. -/
def SparesKey (n : ℕ) (id : VoiceSessionId) (s : Client V K) (a : Action V) : Prop :=
  ∀ call b config reuse, s.tasks.pc (.host n) = .join call (.connecting b config reuse) →
    a = .resume (.host n) (.udp (.ok ())) → config.sessionId ≠ id

variable {env : Env V K} {s t u : Client V K} {ids : VoiceSessionId → Prop} {n : ℕ} {i : Task}
  {a : Action V}

theorem Kept.of_eq (hvoice : t.voice = s.voice) (hintent : t.voiceIntent = s.voiceIntent)
    (hkey : t.keyCache = s.keyCache) : Kept ids s t :=
  ⟨hvoice, hintent, fun _ _ => by rw [hkey]⟩

theorem Kept.trans (h : Kept ids s t) (h' : Kept ids t u) : Kept ids s u where
  voice := h'.voice.trans h.voice
  intent := h'.intent.trans h.intent
  key := fun id hid => (h'.key id hid).trans (h.key id hid)

theorem Kept.mono {ids' : VoiceSessionId → Prop} (h : Kept ids s t) (hle : ∀ id, ids' id → ids id) :
    Kept ids' s t :=
  ⟨h.voice, h.intent, fun id hid => h.key id (hle id hid)⟩

/-! ## The steps of a join -/

/-- A step of a join before its worker: the join goes on or fails, and the shared state
is the same. -/
structure Waits (s t : Client V K) (i : Task) (call : JoinCall V) : Prop where
  kept : Kept (fun _ => True) s t
  pc : (∃ stage, t.tasks.pc i = .join call stage ∧ stage.worker? = none) ∨
    ∃ e, t.tasks.pc i = .returned (.error e)

/-- The join of a host fails without a change. -/
theorem waits_failJoin {call : JoinCall V} (hcaller : call.caller = .host) (s : Client V K)
    (i : Task)
    (e : SdkError) : Waits s (s.failJoin i call e) i call := by
  unfold failJoin
  rw [hcaller]
  exact ⟨.of_eq rfl rfl rfl, .inr ⟨e, by simp [release]⟩⟩

theorem waits_goto {call : JoinCall V} {stage : JoinPc} (hstage : stage.worker? = none)
    (s : Client V K) (i : Task) : Waits s (s.goto i (.join call stage)) i call :=
  ⟨.of_eq rfl rfl rfl, .inl ⟨stage, by simp [goto], hstage⟩⟩

theorem Waits.of_kept {call : JoinCall V} (hkept : Kept (fun _ => True) s t)
    (h : Waits t u i call) :
    Waits s u i call := ⟨hkept.trans h.kept, h.pc⟩

theorem waits_joinGate {call : JoinCall V} (hcaller : call.caller = .host)
    (h : s.joinGate i call = some t) : Waits s t i call := by
  obtain ⟨s', hacquire, rfl⟩ := Option.map_eq_some_iff.mp h
  obtain ⟨tasks, -, rfl⟩ := Option.map_eq_some_iff.mp hacquire
  have hkept : Kept (fun _ => True) s { s with tasks := tasks } := .of_eq rfl rfl rfl
  split
  · exact (waits_failJoin hcaller _ i _).of_kept hkept
  · exact ⟨hkept, .inl ⟨.control, acquire_pc hacquire, rfl⟩⟩

theorem waits_joinControl {call : JoinCall V} (hcaller : call.caller = .host)
    (h : s.joinControl i call = some t) : Waits s t i call := by
  cases joinControl_cases h with
  | fails e => exact waits_failJoin hcaller s i e
  | reads c _ _ => exact waits_goto rfl s i

theorem waits_joinDiscovered {call : JoinCall V} {c : ℕ} {cached : Option Metadata}
    {result : Except SdkError Metadata} (hcaller : call.caller = .host)
    (h : s.joinDiscovered i call c cached result = some t) : Waits s t i call := by
  cases joinDiscovered_cases h with
  | fails e metadata =>
      have hkept : Kept (fun _ => True) s { s with metadata := metadata } := .of_eq rfl rfl rfl
      exact (waits_failJoin hcaller _ i e).of_kept hkept
  | binds conn metadata codec controlId _ _ _ =>
      refine (waits_goto rfl _ i).of_kept ?_
      unfold issued
      rw [hcaller]
      exact .of_eq rfl rfl rfl

theorem waits_joinResponded {call : JoinCall V} {b : Binding}
    {result : Except Http.HttpError VoiceJoinResponse} (hcaller : call.caller = .host) :
    Waits s (s.joinResponded env i call b result) i call := by
  generalize ht : s.joinResponded env i call b result = t
  cases joinResponded_cases ht with
  | fails e => exact waits_failJoin hcaller s i e
  | configures response config reuse _ _ => exact waits_goto rfl s i

/-! ## How far a join has gone -/

/-- The join of a host that has installed its session: it closes the previous one, or
has returned. -/
def Succeeds (s : Client V K) (n : ℕ) : Prop :=
  s.tasks.pc (.host n) = .returned (.ok ()) ∨
    ∃ call session v reuse, call.caller = .host ∧
      (s.tasks.pc (.host n) = .teardown session (.join call v reuse) ∨
        s.tasks.pc (.host n) = .stopping session (.join call v reuse))

/-- How far the join of host `n` has gone since state `s`, and what it has touched: the
key of `sid?` once it has a worker, and nothing else of what `ids` covers. -/
inductive Phase (ids : VoiceSessionId → Prop) (n : ℕ) (s : Client V K)
    (sid? : Option VoiceSessionId) (m : Client V K) : Prop
  /-- No worker has been started. -/
  | waiting (call : JoinCall V) (stage : JoinPc) (hcaller : call.caller = .host)
      (hp : m.tasks.pc (.host n) = .join call stage) (hstage : stage.worker? = none)
      (hsid : sid? = none) (hkept : Kept ids s m)
  /-- A worker runs, or has stopped and removed its key. -/
  | started (call : JoinCall V) (stage : JoinPc) (w : ℕ) (worker : Worker K)
      (hcaller : call.caller = .host) (hp : m.tasks.pc (.host n) = .join call stage)
      (hstage : stage.worker? = some w) (hworker : m.workers[w]? = some worker)
      (hsettled : worker.StartSettled) (hsid : sid? = some worker.codec.sessionId)
      (hkept : Kept (fun id => ids id ∧ sid? ≠ some id) s m)
      (hkey : ∀ id, ids id → sid? = some id → worker.status.isTerminal = true →
        m.keyCache id = none)
  | failed (e : SdkError) (hp : m.tasks.pc (.host n) = .returned (.error e))
      (hkept : Kept (fun id => ids id ∧ sid? ≠ some id) s m)
      (hkey : ∀ id, ids id → sid? = some id → m.keyCache id = none)
  | succeeded (h : m.Succeeds n)

variable {sid? : Option VoiceSessionId} {m m' : Client V K}

/-- Other tasks and workers leave the join where it is. -/
theorem Phase.undisturbed (h : Phase ids n s sid? m) (howns : m.owns n a = false)
    (hkept : Kept ids m m') (hstep : m.step env a = some m') : Phase ids n s sid? m' := by
  have hpc : m'.tasks.pc (.host n) = m.tasks.pc (.host n) := by
    refine step_host_pc hstep ?_ ?_
    · rintro c rfl
      simp [owns] at howns
    · rintro input rfl
      simp [owns] at howns
  have hsome : Kept (fun id => ids id ∧ sid? ≠ some id) m m' := hkept.mono fun _ hid => hid.1
  cases h with
  | waiting call stage hcaller hp hstage hsid hk =>
      exact .waiting call stage hcaller (hpc.trans hp) hstage hsid (hk.trans hkept)
  | started call stage w worker hcaller hp hstage hworker hsettled hsid hk hkey =>
      obtain ⟨worker', hworker', hasked | ⟨input, sealed, rfl, -⟩⟩ := step_worker hstep hworker
      · have hcodec : worker'.codec = worker.codec := congrArg Prod.fst hasked.counter
        refine .started call stage w worker' hcaller (hpc.trans hp) hstage hworker'
          (hasked.startSettled hsettled) (by rw [hcodec, hsid]) (hk.trans hsome) ?_
        intro id hid hown hterminal
        rw [hkept.key id hid]
        exact hkey id hid hown (hasked.isTerminal_eq ▸ hterminal)
      · simp [owns, awaited, hp, hstage] at howns
  | failed e hp hk hkey =>
      refine .failed e (hpc.trans hp) (hk.trans hsome) ?_
      intro id hid hown
      rw [hkept.key id hid]
      exact hkey id hid hown
  | succeeded h =>
      refine .succeeded ?_
      unfold Succeeds
      rw [hpc]
      exact h

/-- A join without a worker goes on or fails. -/
theorem Waits.phase {call : JoinCall V} (hcaller : call.caller = .host) (hk : Kept ids s m)
    (h : Waits m m' (.host n) call) : Phase ids n s none m' := by
  have hkept : Kept ids s m' := hk.trans (h.kept.mono fun _ _ => trivial)
  rcases h.pc with ⟨stage, hp, hstage⟩ | ⟨e, hp⟩
  · exact .waiting call stage hcaller hp hstage rfl hkept
  · exact .failed e hp (hkept.mono fun _ hid => hid.1) (fun id hid hown => by cases hown)

/-- A join whose UDP socket is connected: it has a worker, or there was no key. -/
theorem Phase.connected {call : JoinCall V} {b : Binding} {config : VoiceSessionConfig}
    {reuse : Option SessionKey} (hcaller : call.caller = .host) (hk : Kept ids s m) :
    Phase ids n s (some config.sessionId)
      (m.joinConnected env (.host n) call b config reuse (.ok ())) := by
  generalize ht : m.joinConnected env (.host n) call b config reuse (.ok ()) = m'
  cases joinConnected_cases ht with
  | fails e hresult => cases hresult
  | rejects cache e _ hconfig =>
      obtain ⟨rfl, hnone⟩ := PacketCodec.fromConfig_error hconfig
      have hfail : Waits m (m.failJoin (.host n) call (.voice e)) (.host n) call :=
        waits_failJoin hcaller m _ _
      have hkept : Kept ids s (m.failJoin (.host n) call (.voice e)) :=
        hk.trans (hfail.kept.mono fun _ _ => trivial)
      refine .failed (.voice e) ?_ (hkept.mono fun _ hid => hid.1) ?_
      · simp [failJoin, hcaller, release]
      · rintro id - hown
        cases hown
        exact (hfail.kept.key _ trivial).trans hnone
  | starts cache codec _ hconfig =>
      have hid : codec.sessionId = config.sessionId :=
        PacketCodec.fromConfig_sessionId (congrArg Prod.snd hconfig)
      have hcache {id : VoiceSessionId} (hne : config.sessionId ≠ id) :
          cache id = m.keyCache id := by
        rw [← PacketCodec.fromConfig_cache env.crypto config m.keyCache hne, hconfig]
      refine .started call (.starting b m.workers.length reuse) m.workers.length
        (Worker.new codec) hcaller (by simp [goto]) rfl (by simp [goto])
        (Worker.startSettled_new _) (by rw [← hid]; rfl) ⟨hk.voice, hk.intent, ?_⟩ ?_
      · rintro id ⟨hid, hne⟩
        exact (hcache fun h => hne (by rw [h])).trans (hk.key id hid)
      · rintro id - - hterminal
        cases hterminal

/-- A join that waits for its worker: it fails once the worker has stopped. -/
theorem Phase.settled {call : JoinCall V} {worker : Worker K} {e : SdkError}
    (hcaller : call.caller = .host) (hk : Kept (fun id => ids id ∧ sid? ≠ some id) s m)
    (hkey : ∀ id, ids id → sid? = some id → worker.status.isTerminal = true →
      m.keyCache id = none) (hterminal : worker.status.isTerminal = true) :
    Phase ids n s sid? (m.failJoin (.host n) call e) := by
  have hfail : Waits m (m.failJoin (.host n) call e) (.host n) call := waits_failJoin hcaller m _ _
  refine .failed e (by simp [failJoin, hcaller, release])
    (hk.trans (hfail.kept.mono fun _ _ => trivial)) ?_
  intro id hid hown
  rw [hfail.kept.key id trivial]
  exact hkey id hid hown hterminal

/-- The worker has started, or failed to. -/
theorem Phase.joinStarted {call : JoinCall V} {b : Binding} {w : ℕ} {worker : Worker K}
    {reuse : Option SessionKey} (hcaller : call.caller = .host)
    (hworker : m.workers[w]? = some worker) (hsettled : worker.StartSettled)
    (hsid : sid? = some worker.codec.sessionId)
    (hk : Kept (fun id => ids id ∧ sid? ≠ some id) s m)
    (hkey : ∀ id, ids id → sid? = some id → worker.status.isTerminal = true →
      m.keyCache id = none)
    (h : m.joinStarted (.host n) call b w reuse = some m') : Phase ids n s sid? m' := by
  cases joinStarted_cases h with
  | fails worker' e hworker' he =>
      obtain rfl : worker = worker' := Option.some.inj (hworker.symm.trans hworker')
      exact .settled hcaller hk hkey (hsettled e he)
  | discards =>
      obtain ⟨worker', hworker', hasked⟩ := (calm_closeWorker m w).asked w worker hworker
      have hcodec : worker'.codec = worker.codec := congrArg Prod.fst hasked.counter
      refine .started call (.discarding w) w worker' hcaller (by simp [goto]) rfl hworker'
        (hasked.startSettled hsettled) (by rw [hcodec, hsid]) ⟨hk.voice, hk.intent, hk.key⟩ ?_
      intro id hid hown hterminal
      exact hkey id hid hown (hasked.isTerminal_eq ▸ hterminal)
  | records conn x _ _ => exact .succeeded (.inl (by simp [recordJoin, hcaller, release]))
  | replaces conn x previous _ _ =>
      exact .succeeded (.inr ⟨call, previous, m.sessions.length, reuse, hcaller,
        .inl (by simp [goto])⟩)

/-- The discarded worker has stopped. -/
theorem Phase.joinDiscarded {call : JoinCall V} {w : ℕ} {worker : Worker K}
    (hcaller : call.caller = .host) (hworker : m.workers[w]? = some worker)
    (hk : Kept (fun id => ids id ∧ sid? ≠ some id) s m)
    (hkey : ∀ id, ids id → sid? = some id → worker.status.isTerminal = true →
      m.keyCache id = none)
    (h : m.joinDiscarded (.host n) call w = some m') : Phase ids n s sid? m' := by
  obtain ⟨worker', e, hworker', hterminal, rfl⟩ := joinDiscarded_cases h
  obtain rfl : worker = worker' := Option.some.inj (hworker.symm.trans hworker')
  exact .settled hcaller hk hkey hterminal

/-- A turn of the worker: it removes the key of its session when it stops. -/
theorem Phase.turn {call : JoinCall V} {stage : JoinPc} {w : ℕ} {worker : Worker K}
    {input : WorkerInput} (hcaller : call.caller = .host)
    (hp : m.tasks.pc (.host n) = .join call stage) (hstage : stage.worker? = some w)
    (hworker : m.workers[w]? = some worker) (hsettled : worker.StartSettled)
    (hsid : sid? = some worker.codec.sessionId)
    (hk : Kept (fun id => ids id ∧ sid? ≠ some id) s m)
    (h : m.stepWorker env w input = some m') : Phase ids n s sid? m' := by
  unfold stepWorker at h
  rw [hworker] at h
  obtain ⟨⟨next, sealed⟩, hstep, rfl⟩ := Option.map_eq_some_iff.mp h
  have hcodec : next.codec = worker.codec := (Worker.step_spec hstep).2.1
  have hlt : w < m.workers.length := (List.getElem?_eq_some_iff.mp hworker).1
  refine .started call stage w next hcaller hp hstage (by simp [hlt]) (hsettled.step hstep)
    (by rw [hcodec, hsid]) ⟨hk.voice, hk.intent, ?_⟩ ?_
  · rintro id ⟨hid, hne⟩
    rw [← hk.key id ⟨hid, hne⟩]
    dsimp only
    split
    · exact Function.update_of_ne (fun h => hne (by rw [hsid, h])) _ _
    · rfl
  · intro id hid hown hterminal
    rw [hsid] at hown
    cases hown
    simp [hterminal, SessionKeyCache.remove]

/-- A join that has installed its session returns successfully. -/
theorem Succeeds.resume {input : Input} (h : m.Succeeds n)
    (hstep : m.resume env (.host n) input = some m') : m'.Succeeds n := by
  unfold Client.resume at hstep
  rcases h with hp | ⟨call, session, v, reuse, hcaller, hp | hp⟩
  · rw [hp] at hstep
    cases hstep
  · rw [hp] at hstep
    cases input with
    | ready =>
        cases lockTeardown_cases hstep with
        | finds viaClient hk _ => cases hk
        | stops x _ _ =>
            exact .inr ⟨call, session, v, reuse, hcaller, .inr (by simp [goto])⟩
    | _ => cases hstep
  · rw [hp] at hstep
    cases input with
    | ready =>
        obtain ⟨x, -, -, hclosed⟩ := transportStopped_cases hstep
        cases hclosed with
        | records call' next reuse' y hk _ =>
            cases hk
            exact .inl (by simp [recordJoin, hcaller, release])
        | relays _ hk | closes hk | shuts hk | fails _ hk | leaves _ hk => cases hk
    | _ => cases hstep

/-- A step that connects no UDP socket. -/
theorem Phase.stays (h : Phase ids n s sid? m') (hspares : ∀ id, SparesKey n id m a) :
    ∃ next?, Phase ids n s next? m' ∧ Transition.Latches (SparesKey n) sid? m a next? :=
  ⟨sid?, h, .of_forall _ hspares⟩

theorem sparesKey_of_input {input : Input} (h : input ≠ .udp (.ok ())) (id : VoiceSessionId) :
    SparesKey n id m (.resume (.host n) input) := by
  intro call b config reuse _ ha
  cases ha
  exact absurd rfl h

/-- The next step of the task of a join. -/
theorem Phase.resume {input : Input} (h : Phase ids n s sid? m)
    (hstep : m.resume env (.host n) input = some m') :
    ∃ next?, Phase ids n s next? m' ∧
      Transition.Latches (SparesKey n) sid? m (.resume (.host n) input) next? := by
  cases h with
  | waiting call stage hcaller hp hstage hsid hk =>
      subst hsid
      have hjoin : m.resumeJoin env (.host n) call stage input = some m' := by
        simpa only [Client.resume, hp] using hstep
      cases stage with
      | starting | discarding => cases hstage
      | gate =>
          cases input with
          | ready =>
              exact Phase.stays ((waits_joinGate hcaller hjoin).phase hcaller hk)
                (sparesKey_of_input fun h => by cases h)
          | _ => cases hjoin
      | control =>
          cases input with
          | ready =>
              exact Phase.stays ((waits_joinControl hcaller hjoin).phase hcaller hk)
                (sparesKey_of_input fun h => by cases h)
          | _ => cases hjoin
      | discovering c cached =>
          cases input with
          | metadata result =>
              exact Phase.stays ((waits_joinDiscovered hcaller hjoin).phase hcaller hk)
                (sparesKey_of_input fun h => by cases h)
          | _ => cases hjoin
      | requesting b =>
          cases input with
          | joined result =>
              cases hjoin
              exact Phase.stays ((waits_joinResponded hcaller).phase hcaller hk)
                (sparesKey_of_input fun h => by cases h)
          | _ => cases hjoin
      | connecting b config reuse =>
          cases input with
          | udp result =>
              cases hjoin
              cases result with
              | error e =>
                  exact Phase.stays ((waits_failJoin hcaller m _ _).phase hcaller hk)
                    (sparesKey_of_input fun h => by cases h)
              | ok _ =>
                  refine ⟨some config.sessionId, .connected hcaller hk, ?_⟩
                  refine ⟨fun h => absurd rfl h, fun id => ?_⟩
                  constructor
                  · intro hspares
                    refine .inr fun heq => ?_
                    exact hspares call b config reuse hp rfl (Option.some.inj heq)
                  · rintro (h | hne) call' b' config' reuse' hp' -
                    · cases h
                    · rw [hp] at hp'
                      cases hp'
                      exact fun heq => hne (by rw [heq])
          | _ => cases hjoin
  | started call stage w worker hcaller hp hstage hworker hsettled hsid hk hkey =>
      have hjoin : m.resumeJoin env (.host n) call stage input = some m' := by
        simpa only [Client.resume, hp] using hstep
      have hspares (id : VoiceSessionId) : SparesKey n id m (.resume (.host n) input) := by
        intro call' b' config' reuse' hp' _
        rw [hp] at hp'
        cases hp'
        cases hstage
      cases stage with
      | starting b w' reuse =>
          cases hstage
          cases input with
          | ready =>
              exact Phase.stays (.joinStarted hcaller hworker hsettled hsid hk hkey hjoin) hspares
          | _ => cases hjoin
      | discarding w' =>
          cases hstage
          cases input with
          | ready => exact Phase.stays (.joinDiscarded hcaller hworker hk hkey hjoin) hspares
          | _ => cases hjoin
      | _ => cases hstage
  | failed e hp hk hkey =>
      unfold Client.resume at hstep
      rw [hp] at hstep
      cases hstep
  | succeeded h =>
      refine Phase.stays (.succeeded (h.resume hstep)) fun id call b config reuse hp _ => ?_
      rcases h with hp' | ⟨_, _, _, _, _, hp' | hp'⟩ <;> (rw [hp] at hp'; cases hp')

/-- **One step of a run with a join** that is otherwise undisturbed. -/
theorem Phase.step (h : Phase ids n s sid? m) (hcall : ∀ c, a ≠ .call n c)
    (hothers : Undisturbed env n ids m a) (hstep : m.step env a = some m') :
    ∃ next?, Phase ids n s next? m' ∧ Transition.Latches (SparesKey n) sid? m a next? := by
  cases howns : m.owns n a with
  | false =>
      refine Phase.stays (h.undisturbed howns (hothers howns m' hstep) hstep) ?_
      rintro id call b config reuse - rfl
      simp [owns] at howns
  | true =>
      cases a with
      | call k c => exact absurd (by simpa [owns] using howns) fun hk => hcall c (by rw [hk])
      | resume i input =>
          obtain rfl : i = .host n := by simpa [owns] using howns
          exact h.resume hstep
      | worker w input =>
          have hw : m.awaited (.host n) = some w := by simpa [owns] using howns
          refine Phase.stays ?_ fun id call b config reuse _ ha => by cases ha
          cases h with
          | started call stage w' worker hcaller hp hstage hworker hsettled hsid hk hkey =>
              obtain rfl : w' = w := by simpa [awaited, hp, hstage] using hw
              exact .turn hcaller hp hstage hworker hsettled hsid hk hstep
          | waiting call stage hcaller hp hstage hsid hk => simp [awaited, hp, hstage] at hw
          | failed e hp hk hkey => simp [awaited, hp] at hw
          | succeeded h =>
              have hpc : m'.tasks.pc (.host n) = m.tasks.pc (.host n) :=
                step_host_pc hstep (fun _ ha => by cases ha) (fun _ ha => by cases ha)
              refine .succeeded ?_
              unfold Succeeds
              rw [hpc]
              exact h
      | engine c input => cases howns
      | closeControl c => cases howns

/-- **A run with a join**: it touches the key of one session at most, and spares that
of every other. -/
theorem Phase.run {rest : List (Action V)} (h : Phase ids n s sid? m)
    (hcalls : ∀ c, .call n c ∉ rest)
    (hothers : Transition.Along (Client.step env) (Undisturbed env n ids) m rest)
    (hrun : Transition.exec (Client.step env) m rest = some t) :
    ∃ last?, Phase ids n s last? t ∧
      ∀ id, Transition.Along (Client.step env) (SparesKey n id) m rest ↔
        sid? = some id ∨ last? ≠ some id := by
  have hstep : ∀ sid? m a m', Phase ids n s sid? m →
      Undisturbed env n ids m a ∧ (∀ c, a ≠ .call n c) → Client.step env m a = some m' →
      ∃ next?, Phase ids n s next? m' ∧ Transition.Latches (SparesKey n) sid? m a next? :=
    fun _ _ _ _ hphase ha hm => hphase.step ha.2 ha.1 hm
  obtain ⟨last?, hlast, -, hspares⟩ := Transition.latches_along hstep h
    (hothers.and_forall fun a ha c hc => hcalls c (hc ▸ ha)) hrun
  exact ⟨last?, hlast, hspares⟩

/-- A call of `joinVoice` is refused or waits for the gate. -/
theorem Phase.call {channelId : Snowflake} {request : VoiceJoinRequest}
    (h : s.step env (.call n (.joinVoice channelId request)) = some m) : Phase ids n s none m := by
  have hjoin : s.call (.host n) (.joinVoice channelId request) = some m := by
    unfold Client.step at h
    dsimp only at h
    split at h
    · exact h
    · cases h
  unfold Client.call at hjoin
  dsimp only at hjoin
  split at hjoin
  · cases hjoin
    exact .failed .closed (by simp [goto]) (.of_eq rfl rfl rfl) fun id _ hown => by cases hown
  · cases hjoin
    exact .waiting ⟨.host, channelId, request⟩ .gate rfl (by simp [goto]) rfl rfl
      (.of_eq rfl rfl rfl)

/-- **What a failed join leaves.** When a call of `joinVoice` returns an error, in any
state and after any run in which the other tasks and workers leave the session, the
remembered join and the key alone, all three are as before the call if and only if the
session had no cached key or no UDP socket was connected for a response that names it. -/
theorem failed_join_intact_iff (env : Env V K) (s t : Client V K) (n : ℕ) (channelId : Snowflake)
    (request : VoiceJoinRequest) (rest : List (Action V)) (e : SdkError)
    (hcalls : ∀ c, .call n c ∉ rest)
    (hothers : Transition.Along (step env)
      (Undisturbed env n fun id => s.activeSession = some id) s
      (.call n (.joinVoice channelId request) :: rest))
    (hrun : Transition.exec (step env) s (.call n (.joinVoice channelId request) :: rest) = some t)
    (hfailed : t.tasks.pc (.host n) = .returned (.error e)) :
    Intact s t ↔ ∀ id key, s.activeSession = some id → s.keyCache id = some key →
      Transition.Along (step env) (SparesKey n id) s
        (.call n (.joinVoice channelId request) :: rest) := by
  obtain ⟨m, hcall, hrest⟩ := Option.bind_eq_some_iff.mp hrun
  obtain ⟨last?, hlast, hspares⟩ := (Phase.call hcall).run hcalls (hothers.2 m hcall) hrest
  have hspares (id : VoiceSessionId) : Transition.Along (step env) (SparesKey n id) s
      (.call n (.joinVoice channelId request) :: rest) ↔ last? ≠ some id := by
    have hhead : SparesKey n id s (.call n (.joinVoice channelId request)) :=
      fun _ _ _ _ _ ha => by cases ha
    rw [Transition.along_cons_iff hcall, hspares id]
    simp [hhead]
  cases hlast with
  | waiting call stage hcaller hp => rw [hfailed] at hp; cases hp
  | started call stage w worker hcaller hp => rw [hfailed] at hp; cases hp
  | succeeded h =>
      rcases h with hp | ⟨_, _, _, _, _, hp | hp⟩ <;> (rw [hfailed] at hp; cases hp)
  | failed e' hp hk hkey =>
      constructor
      · intro hintact id key hactive hcached
        rw [hspares id]
        intro hown
        have hnone : t.keyCache id = none := hkey id hactive hown
        rw [hintact.key id hactive, hcached] at hnone
        cases hnone
      · intro hall
        refine ⟨hk.voice, hk.intent, fun id hactive => ?_⟩
        by_cases hown : last? = some id
        · rw [hkey id hactive hown]
          cases hcached : s.keyCache id with
          | none => rfl
          | some key => exact absurd hown ((hspares id).mp (hall id key hactive hcached))
        · exact hk.key id ⟨hactive, hown⟩

/-- The actions of the join itself do not disturb it. -/
theorem undisturbed_of_owns (h : s.owns n a = true) : Undisturbed env n ids s a := by
  intro hnot
  rw [h] at hnot
  cases hnot

/-- A test that guarantees that no UDP socket is connected for a session. -/
def checkSparesKey (n : ℕ) (id : VoiceSessionId) (s : Client V K) (_ : Action V) : Bool :=
  match s.tasks.pc (.host n) with
  | .join _ (.connecting _ config _) => config.sessionId ≠ id
  | _ => true

theorem sparesKey_of_check {id : VoiceSessionId} (h : checkSparesKey n id s a = true) :
    SparesKey n id s a := by
  intro call b config reuse hp _
  simpa [checkSparesKey, hp] using h

/-- Host `0` joins session `n`; the first heartbeat of the worker is not sent. -/
def failingJoin (n : Fin 255) (created : Bool) : Schedule :=
  [.call 0 (.joinVoice sampleChannel ⟨none, false, none⟩), .resume (.host 0) .ready,
    .resume (.host 0) .ready, .resume (.host 0) (.metadata (.ok sampleMetadata)),
    .resume (.host 0) (.joined (.ok (sampleJoined n created))), .resume (.host 0) (.udp (.ok ())),
    .worker 1 (.start (.error (.transport "down"))), .resume (.host 0) .ready]

/-- The failing join names another session: that of the host stays as it is. -/
theorem failed_join_intact_iff_other :
    ∃ s t e, Transition.exec (step sampleClientEnv) sampleClient joinedSchedule = some s ∧
      Transition.exec (step sampleClientEnv) s (failingJoin 1 true) = some t ∧
      t.tasks.pc (.host 0) = .returned (.error e) ∧
      s.activeSession = some (sampleId .session 0) ∧
      (s.keyCache (sampleId .session 0)).isSome = true ∧ Intact s t := by
  have hrun : (Transition.exec (step sampleClientEnv) sampleClient joinedSchedule).any (fun s =>
      s.activeSession = some (sampleId .session 0) &&
        (s.keyCache (sampleId .session 0)).isSome &&
        Transition.checkAlong (step sampleClientEnv) (fun s => s.owns 0) s (failingJoin 1 true) &&
        Transition.checkAlong (step sampleClientEnv) (checkSparesKey 0 (sampleId .session 0)) s
          (failingJoin 1 true) &&
        (Transition.exec (step sampleClientEnv) s (failingJoin 1 true)).any fun t =>
          (t.tasks.pc (.host 0)).error?.isSome) = true := by decide +kernel
  obtain ⟨s, hs, hresult⟩ := (Option.any_eq_true _ _).mp hrun
  simp only [Bool.and_eq_true, decide_eq_true_eq] at hresult
  obtain ⟨⟨⟨⟨hactive, hkey⟩, howns⟩, hspares⟩, hexec⟩ := hresult
  obtain ⟨t, ht, hsome⟩ := (Option.any_eq_true _ _).mp hexec
  obtain ⟨e, he⟩ := Option.isSome_iff_exists.mp hsome
  have herror := Pc.eq_returned_of_error? he
  refine ⟨s, t, e, hs, ht, herror, hactive, hkey, ?_⟩
  refine (failed_join_intact_iff sampleClientEnv s t 0 sampleChannel ⟨none, false, none⟩
    (failingJoin 1 true).tail e (by simp [failingJoin])
    (Transition.along_of_check (fun _ _ => undisturbed_of_owns) howns) ht herror).mpr ?_
  intro id key hid _
  rw [hactive] at hid
  cases hid
  exact Transition.along_of_check (fun _ _ => sparesKey_of_check) hspares

/-- The response names the current session, and the worker does not start: the key of
the session is gone. -/
theorem failingJoin_removes_key :
    ¬ ∀ (schedule rest : Schedule) (s t : Client (Option VoiceAuthority) SampleCipher)
      (channelId : Snowflake) (request : VoiceJoinRequest) (e : SdkError),
      Transition.exec (step sampleClientEnv) sampleClient schedule = some s →
      (∀ c, .call 0 c ∉ rest) →
      Transition.Along (step sampleClientEnv)
        (Undisturbed sampleClientEnv 0 fun id => s.activeSession = some id) s
        (.call 0 (.joinVoice channelId request) :: rest) →
      Transition.exec (step sampleClientEnv) s (.call 0 (.joinVoice channelId request) :: rest) =
        some t →
      t.tasks.pc (.host 0) = .returned (.error e) → Intact s t := by
  intro h
  have hrun : (Transition.exec (step sampleClientEnv) sampleClient joinedSchedule).any (fun s =>
      s.activeSession = some (sampleId .session 0) &&
        (s.keyCache (sampleId .session 0)).isSome &&
        Transition.checkAlong (step sampleClientEnv) (fun s => s.owns 0) s (failingJoin 0 false) &&
        (Transition.exec (step sampleClientEnv) s (failingJoin 0 false)).any fun t =>
          (t.tasks.pc (.host 0)).error?.isSome &&
            (t.keyCache (sampleId .session 0)).isNone) = true := by decide +kernel
  obtain ⟨s, hs, hresult⟩ := (Option.any_eq_true _ _).mp hrun
  simp only [Bool.and_eq_true, decide_eq_true_eq] at hresult
  obtain ⟨⟨⟨hactive, hkey⟩, howns⟩, hexec⟩ := hresult
  obtain ⟨t, ht, hresult⟩ := (Option.any_eq_true _ _).mp hexec
  obtain ⟨hsome, hnone⟩ := Bool.and_eq_true_iff.mp hresult
  obtain ⟨e, he⟩ := Option.isSome_iff_exists.mp hsome
  have hintact := h joinedSchedule (failingJoin 0 false).tail s t sampleChannel
    ⟨none, false, none⟩ e hs (by simp [failingJoin])
    (Transition.along_of_check (fun _ _ => undisturbed_of_owns) howns) ht
    (Pc.eq_returned_of_error? he)
  rw [hintact.key _ hactive] at hnone
  rw [Option.isNone_iff_eq_none.mp hnone] at hkey
  cases hkey

end Client

end ZephyrVox.Sdk
