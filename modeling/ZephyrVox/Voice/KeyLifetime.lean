import ZephyrVox.Voice.Lifecycle

/-!
# How long a session key stays cached

A session started with a key cache: the future that starts it, the worker it spawns,
and the cache. The key is stored before there is a worker, and only the worker removes
it, when it publishes its last status. A start that is dropped while it awaits the first
report of the worker aborts the worker, which then publishes nothing.

No other session uses the id, so other tasks change the cache under other ids only.

## Main definitions

* `KeyedSession K` — the start, the worker and the cache.
* `KeyedSession.step` — one step of the start, of the worker, or of another task.
* `KeyedSession.Ended` — the session has ended, or its start returned an error or was
  dropped.
* `Orderly` — the steps of a start that leave no key.
* `key_forgotten_iff` — an ended session has no cached key in every run of such steps,
  and in no other run.
* `aborted_key_stays` — a key left behind is never removed.
-/

namespace ZephyrVox.Voice

open Transition

variable {K : Type}

/-- The codec of an encrypted session is built with its key in the cache. -/
theorem PacketCodec.fromConfig_cached {crypto : Crypto K} {config : VoiceSessionConfig}
    {cache : SessionKeyCache} {codec : PacketCodec K} (hencrypted : config.encrypted = true)
    (h : (fromConfig crypto config cache).2 = .ok codec) :
    (fromConfig crypto config cache).1 config.sessionId ≠ none := by
  obtain ⟨-, key, -, hkey⟩ := keyedBy_of_fromConfig hencrypted h
  have hcache : (fromConfig crypto config cache).1 = config.cacheInlineKey cache := by
    unfold fromConfig
    dsimp only
    split <;> rfl
  rw [hcache]
  unfold VoiceSessionConfig.cacheInlineKey
  cases hinline : config.sessionKey with
  | none =>
      rw [hinline, Option.none_or] at hkey
      simp [hkey]
  | some inline => simp [SessionKeyCache.insert]

/-! ## A session and its cache -/

/-- Where the future that starts a session stands. -/
inductive StartPhase
  /-- The endpoint is being resolved and the socket connected. -/
  | connecting
  /-- The worker was spawned, and its first report is awaited. -/
  | awaiting
  | returned (result : Except VoiceError Unit)
  /-- Dropped before it returned. -/
  | dropped
  deriving DecidableEq

/-- A session with the cache it was started with. -/
structure KeyedSession (K : Type) where
  cache : SessionKeyCache
  start : StartPhase
  /-- The worker, once it was spawned. -/
  sender : Option (Sender K)

/-- What can happen to a session and its cache. -/
inductive KeyedAction
  /-- The socket was connected, or an error ends the start before that. -/
  | connect (result : Except VoiceError Unit)
  /-- The start receives what the worker reported. -/
  | report
  /-- The future of the start is dropped. -/
  | drop
  | worker (action : SenderAction)
  /-- Another task stores or removes a key. -/
  | other (id : VoiceSessionId) (key : Option SessionKey)

/-- A handle requests a stop once there is one; the guard of a start that ended without
a handle aborts the worker. -/
def StartPhase.permits : StartPhase → SenderAction → Bool
  | .returned (.ok ()), .request _ => true
  | _, .request _ => false
  | .dropped, .abort => true
  | .returned (.error _), .abort => true
  | _, .abort => false
  | _, _ => true

/-- What a start receives from a worker: its report, or the loss of the channel. -/
def Sender.report (s : Sender K) : Option (Except VoiceError Unit) :=
  match s.worker.started with
  | some result => some result
  | none => if s.phase = .returned then some (.error .closed) else none

/-- The cache after a step of the worker: `finish` removes the key of the session before
it publishes the last status. -/
def Sender.cacheAfter (s t : Sender K) (cache : SessionKeyCache) : SessionKeyCache :=
  if !s.worker.status.isTerminal && t.worker.status.isTerminal then
    cache.remove t.worker.codec.sessionId
  else cache

namespace KeyedSession

/-- A session that is being started. -/
def new (cache : SessionKeyCache) : KeyedSession K := ⟨cache, .connecting, none⟩

variable (crypto : Crypto K) (config : VoiceSessionConfig)

/-- Build the codec and spawn the worker. -/
def spawn (s : KeyedSession K) : KeyedSession K :=
  match PacketCodec.fromConfig crypto config s.cache with
  | (cache, .error e) => { s with cache := cache, start := .returned (.error e) }
  | (cache, .ok codec) => ⟨cache, .awaiting, some (.new codec)⟩

/-- One step of a session or of a task that shares its cache. -/
def step (s : KeyedSession K) : KeyedAction → Option (KeyedSession K)
  | .connect result =>
      match s.start, result with
      | .connecting, .ok () => some (s.spawn crypto config)
      | .connecting, .error e => some { s with start := .returned (.error e) }
      | _, _ => none
  | .report =>
      match s.start with
      | .awaiting =>
          (s.sender.bind Sender.report).map fun result => { s with start := .returned result }
      | _ => none
  | .drop =>
      match s.start with
      | .connecting | .awaiting => some { s with start := .dropped }
      | _ => none
  | .worker action =>
      if s.start.permits action then
        s.sender.bind fun sender => (sender.step crypto action).map fun sender' =>
          { s with sender := some sender', cache := sender.cacheAfter sender' s.cache }
      else none
  | .other id key =>
      if id = config.sessionId then none
      else some { s with cache := Function.update s.cache id key }

/-- The session has ended, or its start returned an error or was dropped. -/
def Ended (s : KeyedSession K) : Prop :=
  s.start = .dropped ∨ (∃ e, s.start = .returned (.error e)) ∨
    ∃ sender ∈ s.sender, sender.phase = .returned ∨ sender.worker.status.isTerminal = true

/-- Once it has ended, the cache holds no key of the session. -/
def Forgotten (s : KeyedSession K) : Prop := s.Ended → s.cache config.sessionId = none

end KeyedSession

/-- A start that awaits its worker is dropped only after the worker returned, and one that
ends before it has a worker finds no key of its session in the cache. -/
structure Orderly (config : VoiceSessionConfig) (s : KeyedSession K) (action : KeyedAction) :
    Prop where
  awaited : action = .drop → s.start = .awaiting →
    ∀ sender ∈ s.sender, sender.phase = .returned
  unspawned : (action = .drop ∨ ∃ e, action = .connect (.error e)) → s.start = .connecting →
    s.cache config.sessionId = none

/-! ## How a worker ends -/

namespace Sender

variable {crypto : Crypto K} {s t : Sender K} {action : SenderAction}

/-- A worker that has not ended. -/
structure Running (s : Sender K) : Prop where
  status : s.worker.status.isTerminal = false
  phase : s.phase ≠ .returned
  started : ∀ e, s.worker.started ≠ some (.error e)

/-- A worker that published its last status. -/
structure Finished (s : Sender K) : Prop where
  status : s.worker.status.isTerminal = true
  phase : s.phase = .returned

/-- A worker that was aborted before it published a last status. -/
structure Aborted (s : Sender K) : Prop where
  status : s.worker.status.isTerminal = false
  phase : s.phase = .returned

theorem running_new (codec : PacketCodec K) : Running (Sender.new codec) where
  status := rfl
  phase h := by cases h
  started e h := by cases h

theorem finished_finish (s : Sender K) {status : VoiceStatus}
    (hterminal : status.isTerminal = true) : Finished (s.finish status) := ⟨hterminal, rfl⟩

theorem finished_fail (s : Sender K) (initial : Bool) (error : VoiceError) :
    Finished (s.fail initial error) := by
  cases initial <;> exact ⟨rfl, rfl⟩

/-- Reserving a sequence is not seen by the handles. -/
theorem Running.reserves (R : s.Running) {result : Worker K × Except VoiceError Outgoing}
    (h : Reserves crypto s.worker result) : Running { s with worker := result.1 } := by
  rcases h with ⟨hworker, -⟩ | ⟨-, hworker, -⟩ <;> rw [hworker] <;>
    exact ⟨R.status, R.phase, R.started⟩

theorem Running.awaitWrite (R : s.Running) {result : Worker K × Except VoiceError Outgoing}
    (h : Reserves crypto s.worker result) (initial : Bool) (fatal : VoiceError → Bool) :
    (s.awaitWrite initial fatal result).Running ∨ (s.awaitWrite initial fatal result).Finished := by
  have R' := R.reserves h
  obtain ⟨w, e | packet⟩ := result
  · simp only [Sender.awaitWrite]
    split
    · exact .inr (finished_fail _ initial e)
    · exact .inl R'
  · exact .inl ⟨R'.status, (fun h => by cases h), R'.started⟩

theorem Running.wrote (R : s.Running) (initial : Bool) (packet : Outgoing) :
    (s.wrote initial packet).Running := by
  have hkeep : (s.worker.wrote packet).status = s.worker.status ∧
      (s.worker.wrote packet).started = s.worker.started := by
    unfold Worker.wrote
    split <;> exact ⟨rfl, rfl⟩
  cases initial with
  | true => exact ⟨rfl, (fun h => by cases h), fun e h => by cases h⟩
  | false => exact ⟨hkeep.1 ▸ R.status, (fun h => by cases h), hkeep.2 ▸ R.started⟩

theorem Running.handleInbound (R : s.Running) (datagram : List UInt8) :
    (s.handleInbound crypto datagram).Running ∨ (s.handleInbound crypto datagram).Finished := by
  have hstarted : (s.worker.handleInbound crypto datagram).started = s.worker.started := by
    unfold Worker.handleInbound
    split
    · rfl
    · split
      · rfl
      · dsimp only
        split <;> rfl
  -- The worker goes on exactly if the status it leaves is not terminal.
  have hflag : (s.worker.inbox.handleInbound crypto s.worker.codec datagram).2 =
      !(s.worker.handleInbound crypto datagram).status.isTerminal :=
    congrArg Prod.snd (Worker.inbox_handleInbound R.status datagram)
  cases hstatus : (s.worker.handleInbound crypto datagram).status.isTerminal with
  | true =>
      refine .inr ⟨hstatus, ?_⟩
      simp [Sender.handleInbound, hflag, hstatus]
  | false =>
      refine .inl ⟨hstatus, ?_, hstarted ▸ R.started⟩
      simpa [Sender.handleInbound, hflag, hstatus] using R.phase

theorem Running.request (R : s.Running) (termination : Termination) :
    (s.request termination).Running := by
  have hannounced : VoiceStatus.disconnecting.isTerminal = false := rfl
  refine ⟨?_, R.phase, ?_⟩
  · cases termination with
    | revoke reason => simp [Sender.request, Worker.requestTermination, R.status]
    | close | disconnect =>
        simp [Sender.request, Worker.requestTermination, R.status, hannounced]
  · simpa [Sender.request, Worker.requestTermination, R.status] using R.started

/-- **A worker that is not aborted goes on or publishes a last status.** -/
theorem Running.step (R : s.Running) (habort : action ≠ .abort)
    (h : s.step crypto action = some t) : t.Running ∨ t.Finished := by
  cases step_move h with
  | stay => exact .inl R
  | await initial fatal idle reserves => exact R.awaitWrite reserves initial fatal
  | wrote initial packet => exact .inl (R.wrote initial packet)
  | fail initial error => exact .inr (finished_fail s initial error)
  | stop termination => exact .inr (finished_finish s (by cases termination <;> rfl))
  | disconnect => exact .inr (finished_finish s rfl)
  | inbound datagram => exact R.handleInbound datagram
  | request termination => exact .inl (R.request termination)
  | abort => exact absurd rfl habort

/-- Nothing happens to a worker after its last status. -/
theorem Finished.step (F : s.Finished) (h : s.step crypto action = some t) : t = s := by
  cases action with
  | request termination =>
      simp only [Sender.step, F.phase, Option.some.injEq] at h
      rw [← h]
      simp [Sender.request, Worker.requestTermination, F.status]
  | _ => simp [Sender.step, F.phase] at h

/-- A running worker reports success or nothing. -/
theorem Running.report (R : s.Running) {result : Except VoiceError Unit}
    (h : s.report = some result) : result = .ok () := by
  unfold Sender.report at h
  cases hstarted : s.worker.started with
  | none => simp [hstarted, R.phase] at h
  | some reported =>
      cases reported with
      | ok _ =>
          rw [hstarted] at h
          cases h
          rfl
      | error e => exact absurd hstarted (R.started e)

theorem cacheAfter_self (s : Sender K) (cache : SessionKeyCache) :
    s.cacheAfter s cache = cache := by simp [cacheAfter]

theorem cacheAfter_of_running {cache : SessionKeyCache}
    (h : t.worker.status.isTerminal = false) : s.cacheAfter t cache = cache := by
  simp [cacheAfter, h]

theorem cacheAfter_of_finished {cache : SessionKeyCache} (R : s.Running) (F : t.Finished) :
    s.cacheAfter t cache t.worker.codec.sessionId = none := by
  simp [cacheAfter, R.status, F.status, SessionKeyCache.remove]

end Sender

/-! ## The stages of a session -/

namespace KeyedSession

variable {crypto : Crypto K} {config : VoiceSessionConfig} {s t : KeyedSession K}
  {action : KeyedAction}

/-- Where a session stands with its key. The key is cached as long as there is a worker
that has not published a last status. -/
inductive Stage (config : VoiceSessionConfig) (s : KeyedSession K) : Prop
  /-- There is no worker, and no handle. -/
  | unspawned (sender : s.sender = none) (start : s.start ≠ .awaiting)
  | running (w : Sender K) (sender : s.sender = some w) (worker : w.Running)
      (start : s.start = .awaiting ∨ s.start = .returned (.ok ()) ∨ s.start = .dropped)
      (codec : w.worker.codec.sessionId = config.sessionId)
      (cached : s.cache config.sessionId ≠ none)
  | finished (w : Sender K) (sender : s.sender = some w) (worker : w.Finished)
      (start : s.start ≠ .connecting) (removed : s.cache config.sessionId = none)
  /-- The worker was aborted after the start was dropped. -/
  | aborted (w : Sender K) (sender : s.sender = some w) (worker : w.Aborted)
      (start : s.start = .dropped) (cached : s.cache config.sessionId ≠ none)

theorem stage_new (config : VoiceSessionConfig) (cache : SessionKeyCache) :
    Stage config (new cache : KeyedSession K) := .unspawned rfl (fun h => by cases h)

/-- **Spawning** ends with an error and no key, or with a worker whose key is cached. -/
theorem spawn_cases (crypto : Crypto K) (hencrypted : config.encrypted = true)
    (s : KeyedSession K) :
    (∃ e, s.spawn crypto config = { s with start := .returned (.error e) } ∧
      s.cache config.sessionId = none) ∨
    ∃ cache codec, s.spawn crypto config = ⟨cache, .awaiting, some (.new codec)⟩ ∧
      codec.sessionId = config.sessionId ∧ cache config.sessionId ≠ none := by
  unfold spawn
  rcases hbuilt : PacketCodec.fromConfig crypto config s.cache with ⟨cache, e | codec⟩
  · obtain ⟨rfl, hnone⟩ := PacketCodec.fromConfig_error hbuilt
    exact .inl ⟨e, rfl, hnone⟩
  · refine .inr ⟨cache, codec, rfl, ?_, ?_⟩
    · exact PacketCodec.fromConfig_sessionId (congrArg Prod.snd hbuilt)
    · have hcached := PacketCodec.fromConfig_cached hencrypted (congrArg Prod.snd hbuilt)
      rwa [hbuilt] at hcached

/-- **Every step**, by its action. -/
inductive Move (crypto : Crypto K) (config : VoiceSessionConfig) (s : KeyedSession K) :
    KeyedAction → KeyedSession K → Prop
  | spawn (start : s.start = .connecting) :
      Move crypto config s (.connect (.ok ())) (s.spawn crypto config)
  | unconnected (e : VoiceError) (start : s.start = .connecting) :
      Move crypto config s (.connect (.error e)) { s with start := .returned (.error e) }
  | report (w : Sender K) (result : Except VoiceError Unit) (start : s.start = .awaiting)
      (sender : s.sender = some w) (received : w.report = some result) :
      Move crypto config s .report { s with start := .returned result }
  | drop (start : s.start = .connecting ∨ s.start = .awaiting) :
      Move crypto config s .drop { s with start := .dropped }
  | worker (w w' : Sender K) (action : SenderAction) (permitted : s.start.permits action = true)
      (sender : s.sender = some w) (stepped : w.step crypto action = some w') :
      Move crypto config s (.worker action)
        { s with sender := some w', cache := w.cacheAfter w' s.cache }
  | other (id : VoiceSessionId) (key : Option SessionKey) (different : id ≠ config.sessionId) :
      Move crypto config s (.other id key) { s with cache := Function.update s.cache id key }

theorem step_move (h : s.step crypto config action = some t) : Move crypto config s action t := by
  cases action with
  | connect result =>
      cases hstart : s.start with
      | connecting =>
          cases result with
          | ok _ =>
              simp only [step, hstart, Option.some.injEq] at h
              exact h ▸ .spawn hstart
          | error e =>
              simp only [step, hstart, Option.some.injEq] at h
              exact h ▸ .unconnected e hstart
      | _ => simp [step, hstart] at h
  | report =>
      cases hstart : s.start with
      | awaiting =>
          simp only [step, hstart] at h
          obtain ⟨result, hreport, rfl⟩ := Option.map_eq_some_iff.mp h
          obtain ⟨w, hsender, hreceived⟩ := Option.bind_eq_some_iff.mp hreport
          exact .report w result hstart hsender hreceived
      | _ => simp [step, hstart] at h
  | drop =>
      cases hstart : s.start with
      | connecting | awaiting =>
          simp only [step, hstart, Option.some.injEq] at h
          exact h ▸ .drop (by simp [hstart])
      | _ => simp [step, hstart] at h
  | worker action =>
      obtain ⟨hpermitted, h⟩ := Option.ite_none_right_eq_some.mp h
      obtain ⟨w, hsender, h⟩ := Option.bind_eq_some_iff.mp h
      obtain ⟨w', hstep, rfl⟩ := Option.map_eq_some_iff.mp h
      exact .worker w w' action hpermitted hsender hstep
  | other id key =>
      obtain ⟨hdifferent, h⟩ := Option.ite_none_left_eq_some.mp h
      cases h
      exact .other id key hdifferent

theorem Stage.sender_of_connecting (S : Stage config s) (h : s.start = .connecting) :
    s.sender = none := by
  cases S with
  | unspawned sender => exact sender
  | running w sender worker start =>
      rw [h] at start
      rcases start with h | h | h <;> cases h
  | finished w sender worker start => exact absurd h start
  | aborted w sender worker start =>
      rw [h] at start
      cases start

/-- **A step of the worker**: nothing happens after the last status; before it, the worker
goes on, publishes its last status and removes the key, or is aborted with the key kept. -/
theorem Stage.worker_cases (S : Stage config s) {w w' : Sender K} {a : SenderAction}
    (hsender : s.sender = some w) (hpermits : s.start.permits a = true)
    (hstep : w.step crypto a = some w') :
    { s with sender := some w', cache := w.cacheAfter w' s.cache } = s ∨
    ((s.start = .awaiting ∨ s.start = .returned (.ok ()) ∨ s.start = .dropped) ∧
      w'.worker.codec.sessionId = config.sessionId ∧ s.cache config.sessionId ≠ none ∧
      ((w'.Running ∧ w.cacheAfter w' s.cache = s.cache) ∨
        (w'.Finished ∧ w.cacheAfter w' s.cache config.sessionId = none) ∨
        (w'.Aborted ∧ s.start = .dropped ∧ w.cacheAfter w' s.cache = s.cache))) := by
  have hcodec := (Sender.step_effect hstep).1
  cases S with
  | unspawned sender =>
      rw [sender] at hsender
      cases hsender
  | running u sender worker start codec cached =>
      cases sender.symm.trans hsender
      have hid : w'.worker.codec.sessionId = config.sessionId := hcodec ▸ codec
      refine .inr ⟨start, hid, cached, ?_⟩
      by_cases habort : a = .abort
      · subst habort
        have hdropped : s.start = .dropped := by
          rcases start with h | h | h
          · rw [h] at hpermits
            cases hpermits
          · rw [h] at hpermits
            cases hpermits
          · exact h
        have hstopped : w' = { w with phase := .returned } := by
          have hphase := worker.phase
          cases hcase : w.phase with
          | returned => exact absurd hcase hphase
          | _ =>
              simp only [Sender.step, hcase, Option.some.injEq] at hstep
              exact hstep.symm
        subst hstopped
        exact .inr (.inr ⟨⟨worker.status, rfl⟩, hdropped,
          Sender.cacheAfter_of_running worker.status⟩)
      · rcases worker.step habort hstep with hrunning | hfinished
        · exact .inl ⟨hrunning, Sender.cacheAfter_of_running hrunning.status⟩
        · exact .inr (.inl ⟨hfinished, hid ▸ Sender.cacheAfter_of_finished worker hfinished⟩)
  | finished u sender worker =>
      cases sender.symm.trans hsender
      cases worker.step hstep
      refine .inl ?_
      rw [Sender.cacheAfter_self, ← hsender]
  | aborted u sender worker start =>
      cases sender.symm.trans hsender
      rw [start] at hpermits
      cases a with
      | request termination => cases hpermits
      | _ => simp [Sender.step, worker.phase] at hstep

/-- **Every step** leads from a stage to a stage. -/
theorem Stage.step (S : Stage config s) (hencrypted : config.encrypted = true)
    (h : s.step crypto config action = some t) : Stage config t := by
  cases step_move h with
  | spawn start =>
      obtain ⟨e, hspawn, -⟩ | ⟨cache, codec, hspawn, hid, hcached⟩ :=
        spawn_cases crypto hencrypted s
      · rw [hspawn]
        exact .unspawned (S.sender_of_connecting start) (fun h => by cases h)
      · rw [hspawn]
        exact .running _ rfl (Sender.running_new codec) (.inl rfl) hid hcached
  | unconnected e start =>
      exact .unspawned (S.sender_of_connecting start) (fun h => by cases h)
  | report w result start sender received =>
      cases S with
      | unspawned hnone =>
          rw [hnone] at sender
          cases sender
      | running u hsome worker _ codec cached =>
          cases hsome.symm.trans sender
          refine .running w hsome worker (.inr (.inl ?_)) codec cached
          rw [worker.report received]
      | finished u hsome worker _ removed =>
          exact .finished u hsome worker (fun h => by cases h) removed
      | aborted u hsome worker dropped =>
          rw [dropped] at start
          cases start
  | drop start =>
      cases S with
      | unspawned hnone => exact .unspawned hnone (fun h => by cases h)
      | running u hsome worker _ codec cached =>
          exact .running u hsome worker (.inr (.inr rfl)) codec cached
      | finished u hsome worker _ removed =>
          exact .finished u hsome worker (fun h => by cases h) removed
      | aborted u hsome worker _ cached => exact .aborted u hsome worker rfl cached
  | worker w w' a permitted sender stepped =>
      obtain hsame | ⟨hstart, hid, hcached, hstep⟩ := S.worker_cases sender permitted stepped
      · exact hsame.symm ▸ S
      · rcases hstep with ⟨hworker, hcache⟩ | ⟨hworker, hremoved⟩ | ⟨hworker, hdropped, hcache⟩
        · exact .running w' rfl hworker hstart hid (hcache.symm ▸ hcached)
        · refine .finished w' rfl hworker ?_ hremoved
          intro hconnecting
          have hstart' : s.start = .connecting := hconnecting
          simp [hstart'] at hstart
        · exact .aborted w' rfl hworker hdropped (hcache.symm ▸ hcached)
  | other id key different =>
      have hkept : Function.update s.cache id key config.sessionId = s.cache config.sessionId :=
        Function.update_of_ne different.symm _ _
      cases S with
      | unspawned hnone start => exact .unspawned hnone start
      | running u hsome worker start codec cached =>
          exact .running u hsome worker start codec (fun h => cached (hkept.symm.trans h))
      | finished u hsome worker start removed =>
          exact .finished u hsome worker start (hkept.trans removed)
      | aborted u hsome worker start cached =>
          exact .aborted u hsome worker start (fun h => cached (hkept.symm.trans h))

theorem not_ended_of_running {w : Sender K} (hsender : s.sender = some w) (R : w.Running)
    (hstart : s.start = .awaiting ∨ s.start = .returned (.ok ())) : ¬ s.Ended := by
  rintro (h | ⟨e, h⟩ | ⟨u, hu, h⟩)
  · simp [h] at hstart
  · simp [h] at hstart
  · cases hsender.symm.trans hu
    rcases h with h | h
    · exact R.phase h
    · rw [R.status] at h
      cases h

/-- **A step leaves no key of an ended session exactly when it is orderly.** -/
theorem orderly_iff_forgotten (S : Stage config s) (hencrypted : config.encrypted = true)
    (hforgotten : s.Forgotten config) (h : s.step crypto config action = some t) :
    Orderly config s action ↔ t.Forgotten config := by
  cases step_move h with
  | spawn start =>
      refine iff_of_true ⟨fun h => (by cases h), fun h => (by simp at h)⟩ ?_
      obtain ⟨e, hspawn, hnone⟩ | ⟨cache, codec, hspawn, -, -⟩ :=
        spawn_cases crypto hencrypted s
      · rw [hspawn]
        exact fun _ => hnone
      · rw [hspawn]
        intro hended
        exact absurd hended (not_ended_of_running rfl (Sender.running_new codec) (.inl rfl))
  | unconnected e start =>
      constructor
      · exact fun O _ => O.unspawned (.inr ⟨e, rfl⟩) start
      · intro hnone
        exact ⟨fun h => (by cases h), fun _ _ => hnone (.inr (.inl ⟨e, rfl⟩))⟩
  | report w result start sender received =>
      refine iff_of_true ⟨fun h => (by cases h), fun h => (by simp at h)⟩ ?_
      cases S with
      | unspawned hnone =>
          rw [hnone] at sender
          cases sender
      | running u hsome worker =>
          cases hsome.symm.trans sender
          rw [worker.report received]
          intro hended
          exact absurd hended (not_ended_of_running hsome worker (.inr rfl))
      | finished u hsome worker _ removed => exact fun _ => removed
      | aborted u hsome worker dropped =>
          rw [dropped] at start
          cases start
  | drop start =>
      rcases start with hconnecting | hawaiting
      · constructor
        · exact fun O _ => O.unspawned (.inl rfl) hconnecting
        · intro hnone
          refine ⟨fun _ h => ?_, fun _ _ => hnone (.inl rfl)⟩
          rw [hconnecting] at h
          cases h
      · cases S with
        | unspawned _ hstart => exact absurd hawaiting hstart
        | running u hsome worker _ _ cached =>
            refine iff_of_false ?_ ?_
            · exact fun O => worker.phase (O.awaited rfl hawaiting u hsome)
            · exact fun hnone => cached (hnone (.inl rfl))
        | finished u hsome worker _ removed =>
            refine iff_of_true ⟨?_, ?_⟩ (fun _ => removed)
            · intro _ _ w hw
              cases hsome.symm.trans hw
              exact worker.phase
            · exact fun _ _ => removed
        | aborted u hsome worker dropped =>
            rw [dropped] at hawaiting
            cases hawaiting
  | worker w w' a permitted sender stepped =>
      refine iff_of_true ⟨fun h => (by cases h), fun h => (by simp at h)⟩ ?_
      obtain hsame | ⟨hstart, -, hcached, hstep⟩ := S.worker_cases sender permitted stepped
      · exact hsame.symm ▸ hforgotten
      · -- A dropped start with its key still cached is not forgotten before the step.
        have hdropped : s.start ≠ .dropped := fun h => hcached (hforgotten (.inl h))
        rcases hstep with ⟨hworker, -⟩ | ⟨-, hremoved⟩ | ⟨-, habsurd, -⟩
        · intro hended
          refine absurd hended (not_ended_of_running rfl hworker ?_)
          exact hstart.imp_right fun h => h.resolve_right hdropped
        · exact fun _ => hremoved
        · exact absurd habsurd hdropped
  | other id key different =>
      refine iff_of_true ⟨fun h => (by cases h), fun h => (by simp at h)⟩ ?_
      intro hended
      exact (Function.update_of_ne different.symm _ _).trans (hforgotten hended)

/-- A session whose worker was aborted moves no more. -/
theorem aborted_step {key : Option SessionKey} {w : Sender K}
    (hs : s.start = .dropped ∧ s.sender = some w ∧ s.cache config.sessionId = key)
    (A : w.Aborted) (h : s.step crypto config action = some t) :
    t.start = .dropped ∧ t.sender = some w ∧ t.cache config.sessionId = key := by
  obtain ⟨hdropped, hsender, hkey⟩ := hs
  cases step_move h with
  | spawn start | unconnected e start =>
      rw [hdropped] at start
      cases start
  | report u result start =>
      rw [hdropped] at start
      cases start
  | drop start => simp [hdropped] at start
  | worker u w' a permitted sender stepped =>
      cases hsender.symm.trans sender
      rw [hdropped] at permitted
      cases a with
      | request termination => cases permitted
      | _ => simp [Sender.step, A.phase] at stepped
  | other id key different =>
      exact ⟨hdropped, hsender, (Function.update_of_ne different.symm _ _).trans hkey⟩

end KeyedSession

open KeyedSession

/-- **A key that an aborted worker left is never removed.** -/
theorem aborted_key_stays (crypto : Crypto K) (config : VoiceSessionConfig)
    (cache : SessionKeyCache) (hencrypted : config.encrypted = true)
    (before after : List KeyedAction) (s t : KeyedSession K)
    (hs : exec (step crypto config) (new cache) before = some s)
    (haborted : ∃ w ∈ s.sender, w.Aborted)
    (ht : exec (step crypto config) s after = some t) :
    s.cache config.sessionId ≠ none ∧ t.cache config.sessionId = s.cache config.sessionId := by
  obtain ⟨w, hsender, A⟩ := haborted
  have S : Stage config s := invariant (fun _ _ _ S h => S.step hencrypted h)
    (stage_new config cache) hs
  cases S with
  | unspawned hnone =>
      rw [hnone] at hsender
      cases hsender
  | running u hsome worker =>
      cases hsome.symm.trans hsender
      exact absurd A.phase worker.phase
  | finished u hsome worker =>
      cases hsome.symm.trans hsender
      exact absurd (A.status.symm.trans worker.status) Bool.false_ne_true
  | aborted u hsome worker dropped cached =>
      have hleft := invariant (fun _ _ _ hs h => aborted_step hs worker h)
        (I := fun s' : KeyedSession K => s'.start = .dropped ∧ s'.sender = some u ∧
          s'.cache config.sessionId = s.cache config.sessionId) ⟨dropped, hsome, rfl⟩ ht
      exact ⟨cached, hleft.2.2⟩

/-- **No key outlives its session, unless its start is not orderly.** In every run of an
encrypted session, the cache holds no key of the session in any state in which the session
has ended or its start returned an error or was dropped, if and only if every step of the run
is orderly. -/
theorem key_forgotten_iff (crypto : Crypto K) (config : VoiceSessionConfig)
    (cache : SessionKeyCache) (hencrypted : config.encrypted = true)
    (actions : List KeyedAction) (s : KeyedSession K)
    (h : exec (step crypto config) (new cache) actions = some s) :
    (∀ done t, done <+: actions → exec (step crypto config) (new cache) done = some t →
      t.Forgotten config) ↔
    Along (step crypto config) (Orderly config) (new cache) actions := by
  have hnew : (new cache : KeyedSession K).Forgotten config := by
    rintro (h | ⟨e, h⟩ | ⟨w, hw, -⟩)
    · cases h
    · cases h
    · cases hw
  exact (along_iff_reached (fun _ _ _ S h => S.step hencrypted h)
    (fun _ _ _ S hforgotten h => orderly_iff_forgotten S hencrypted hforgotten h)
    (stage_new config cache) hnew h).symm

/-- Decides `Orderly`. -/
def checkOrderly (config : VoiceSessionConfig) (s : KeyedSession K) : KeyedAction → Bool
  | .drop =>
      (s.start != .awaiting || s.sender.all fun w => w.phase = .returned) &&
        (s.start != .connecting || (s.cache config.sessionId).isNone)
  | .connect (.error _) => s.start != .connecting || (s.cache config.sessionId).isNone
  | _ => true

theorem orderly_of_check {config : VoiceSessionConfig} {s : KeyedSession K}
    {action : KeyedAction} (h : checkOrderly config s action = true) :
    Orderly config s action := by
  constructor
  · rintro rfl hawaiting w hsender
    simp only [checkOrderly, hawaiting, bne_self_eq_false, Bool.false_or, Bool.and_eq_true] at h
    simpa [Option.mem_def.mp hsender] using h.1
  · rintro (rfl | ⟨e, rfl⟩) hconnecting <;> simpa [checkOrderly, hconnecting] using h

/-- A session that its handle closes. -/
def sampleClosed : List KeyedAction :=
  [.connect (.ok ()), .worker .start, .worker (.complete (.ok ())), .report,
    .worker (.request .close), .worker .stop]

theorem key_forgotten_iff_closed :
    ∃ s, exec (step taggedCrypto sampleVoiceConfig) (new SessionKeyCache.new) sampleClosed =
      some s ∧ s.Ended ∧ s.cache sampleVoiceConfig.sessionId = none := by
  have hrun : ((exec (step taggedCrypto sampleVoiceConfig) (new SessionKeyCache.new)
      sampleClosed).any fun s => s.sender.any fun w => w.phase = .returned) = true := by decide
  obtain ⟨s, hs, hresult⟩ := (Option.any_eq_true _ _).mp hrun
  obtain ⟨w, hsender, hphase⟩ := (Option.any_eq_true _ _).mp hresult
  have hended : s.Ended := .inr (.inr ⟨w, hsender, .inl (of_decide_eq_true hphase)⟩)
  exact ⟨s, hs, hended, (key_forgotten_iff taggedCrypto sampleVoiceConfig SessionKeyCache.new rfl
    sampleClosed s hs).mpr (along_of_check (fun _ _ => orderly_of_check) (by decide)) sampleClosed
    s List.prefix_rfl hs hended⟩

/-- A start that is dropped while it awaits the first heartbeat. -/
theorem key_outlives_dropped_start :
    ¬ ∀ (config : VoiceSessionConfig) (cache : SessionKeyCache) (actions : List KeyedAction)
      (s : KeyedSession (List UInt8)), config.encrypted = true →
      exec (step taggedCrypto config) (new cache) actions = some s →
      s.Ended → s.cache config.sessionId = none := by
  intro hclaim
  have hrun : ((exec (step taggedCrypto sampleVoiceConfig) (new SessionKeyCache.new)
      [.connect (.ok ()), .worker .start, .drop, .worker .abort]).any fun s =>
        s.start = .dropped ∧ (s.cache sampleVoiceConfig.sessionId).isSome) = true := by decide
  obtain ⟨s, hs, hresult⟩ := (Option.any_eq_true _ _).mp hrun
  obtain ⟨hdropped, hcached⟩ := of_decide_eq_true hresult
  rw [hclaim sampleVoiceConfig SessionKeyCache.new _ s rfl hs (.inl hdropped)] at hcached
  cases hcached

end ZephyrVox.Voice
