import ZephyrVox.Sdk.FailedJoins
import ZephyrVox.Sdk.Leaving

/-!
# Closing and leaving on a handle

A handle keeps the server identity of its session. `close` and `leave` forget the
remembered join and the cached key by that identity alone, and a reused join gives the
identity of an old session to the current one.

## Main definitions

* `Untouched` — the key of a session, and the remembered join that names it, are the same.
* `FindsLeft` — the teardown lock is taken only of a session that was left already.
* `Closing` — how far a close or a leave has gone, and what it has touched.
* `closed_handle_untouched_iff` — a close or a leave on a handle leaves the current
  session untouched exactly if it has another identity, or had nothing to lose.
-/

namespace ZephyrVox.Sdk

open Realtime Voice

variable {V K : Type}

namespace Client

/-- The key of session `id`, and the remembered join if it names the session, are the same. -/
structure Untouched (id : VoiceSessionId) (s t : Client V K) : Prop where
  key : t.keyCache id = s.keyCache id
  intent : ∀ intent, s.voiceIntent = some intent → intent.sessionId = id →
    t.voiceIntent = some intent

/-- An action with which host `n` does not take the teardown lock of session `v`, or
takes it for a leave and finds that the session was left. -/
def FindsLeft (n v : ℕ) (s : Client V K) (a : Action V) : Prop :=
  ∀ k, a = .resume (.host n) .ready → s.tasks.pc (.host n) = .teardown v k →
    k = .leave false ∧ s.left v = true

variable {env : Env V K} {s t m m' : Client V K} {ids : VoiceSessionId → Prop} {n v : ℕ}
  {x : Session} {o : Option Unit} {a : Action V}

/-! ## How far a close or a leave has gone -/

/-- How far a close or a leave of host `n` on session `v` has gone since state `s`: it
has touched the key of the session once `o` records that it stops the worker, and
nothing else of what `ids` covers. -/
inductive Closing (ids : VoiceSessionId → Prop) (n v : ℕ) (x : Session) (s : Client V K)
    (o : Option Unit) (m : Client V K) : Prop
  | waiting (k : After V) (hk : k = .close ∨ k = .leave false)
      (hp : m.tasks.pc (.host n) = .teardown v k) (ho : o = none) (hkept : Kept ids s m)
  /-- The worker is asked to stop; it removes its key, and so does the task. -/
  | stopping (k : After V) (hk : k = .close ∨ k = .leave false)
      (hp : m.tasks.pc (.host n) = .stopping v k) (ho : o = some ())
      (hkept : Kept (fun id => ids id ∧ id ≠ x.sessionId) s m)
  | leaving (hp : m.tasks.pc (.host n) = .leaving v (.leave false)) (ho : o = some ())
      (hkept : Kept (fun id => ids id ∧ id ≠ x.sessionId) s m)
      (hkey : ids x.sessionId → m.keyCache x.sessionId = none)
  /-- The session had been left. -/
  | kept (result : Except SdkError Unit) (hp : m.tasks.pc (.host n) = .returned result)
      (ho : o = none) (hkept : Kept ids s m)
  | removed (result : Except SdkError Unit) (hp : m.tasks.pc (.host n) = .returned result)
      (ho : o = some ()) (hkept : Kept (fun id => ids id ∧ id ≠ x.sessionId) s m)
      (hkey : ids x.sessionId → m.keyCache x.sessionId = none)

/-- Other tasks and workers leave the operation where it is. -/
theorem Closing.undisturbed (h : Closing ids n v x s o m) (howns : m.owns n a = false)
    (hkept : Kept ids m m') (hstep : m.step env a = some m') : Closing ids n v x s o m' := by
  have hpc : m'.tasks.pc (.host n) = m.tasks.pc (.host n) := by
    apply step_host_pc hstep
    · rintro c rfl
      simp [owns] at howns
    · rintro input rfl
      simp [owns] at howns
  have hsome : Kept (fun id => ids id ∧ id ≠ x.sessionId) m m' := hkept.mono fun _ hid => hid.1
  have hnone (hkey : ids x.sessionId → m.keyCache x.sessionId = none) (hid : ids x.sessionId) :
      m'.keyCache x.sessionId = none := by
    rw [hkept.key _ hid]
    exact hkey hid
  cases h with
  | waiting k hk hp ho hk' => exact .waiting k hk (hpc.trans hp) ho (hk'.trans hkept)
  | stopping k hk hp ho hk' => exact .stopping k hk (hpc.trans hp) ho (hk'.trans hsome)
  | leaving hp ho hk' hkey => exact .leaving (hpc.trans hp) ho (hk'.trans hsome) (hnone hkey)
  | kept result hp ho hk' => exact .kept result (hpc.trans hp) ho (hk'.trans hkept)
  | removed result hp ho hk' hkey =>
      exact .removed result (hpc.trans hp) ho (hk'.trans hsome) (hnone hkey)

/-- A step that does not take the teardown lock. -/
theorem Closing.stays (h : Closing ids n v x s o m') (hfinds : FindsLeft n v m a) :
    ∃ o', Closing ids n v x s o' m' ∧ Transition.Latches (fun _ => FindsLeft n v) o m a o' :=
  ⟨o, h, .of_forall o fun _ => hfinds⟩

/-- The teardown lock is taken: the worker is asked to stop, unless the session was left. -/
theorem Closing.lock {k : After V} (hk : k = .close ∨ k = .leave false)
    (hp : m.tasks.pc (.host n) = .teardown v k) (hkept : Kept ids s m)
    (h : m.lockTeardown (.host n) v k = some m') :
    ∃ o', Closing ids n v x s o' m' ∧
      Transition.Latches (fun _ => FindsLeft n v) none m (.resume (.host n) .ready) o' := by
  cases lockTeardown_cases h with
  | finds viaClient hleave hleft =>
      obtain rfl : k = .leave false := by
        rcases hk with rfl | rfl
        · cases hleave
        · rfl
      cases hleave
      refine (Closing.kept (.ok ()) (finishLeave_pc _ _ _ _ _) rfl ?_).stays ?_
      · exact hkept.trans (.of_eq rfl rfl rfl)
      · intro k' _ hp'
        rw [hp] at hp'
        cases hp'
        exact ⟨rfl, hleft⟩
  | stops y _ hleft =>
      have hnot : ¬ FindsLeft n v m (.resume (.host n) .ready) := by
        intro hfinds
        obtain ⟨hleave, hfound⟩ := hfinds k rfl hp
        rw [hleft false hleave] at hfound
        cases hfound
      refine ⟨some (), .stopping k hk (by simp [goto]) rfl ?_, fun h => absurd rfl h, fun b => ?_⟩
      · exact (hkept.mono fun _ hid => hid.1).trans (.of_eq rfl rfl rfl)
      · simpa using hnot

/-- The worker has stopped: the key is removed. -/
theorem Closing.stopped {k : After V} (hk : k = .close ∨ k = .leave false)
    (hx : m.sessions[v]? = some x) (hkept : Kept (fun id => ids id ∧ id ≠ x.sessionId) s m)
    (h : m.transportStopped (.host n) v k = some m') : Closing ids n v x s (some ()) m' := by
  have hremoved : Kept (fun id => ids id ∧ id ≠ x.sessionId) s
      { m with keyCache := m.keyCache.remove x.sessionId } := by
    refine ⟨hkept.voice, hkept.intent, ?_⟩
    rintro id ⟨hid, hne⟩
    rw [← hkept.key id ⟨hid, hne⟩]
    exact Function.update_of_ne hne _ _
  have hnone : m.keyCache.remove x.sessionId x.sessionId = none := by
    simp [SessionKeyCache.remove]
  obtain ⟨y, hy, -, hclosed⟩ := transportStopped_cases h
  obtain rfl : x = y := Option.some.inj (hx.symm.trans hy)
  cases hclosed with
  | closes _ =>
      exact .removed (.ok ()) (by simp [goto]) rfl (hremoved.trans (.of_eq rfl rfl rfl))
        fun _ => hnone
  | fails viaClient hleave =>
      obtain rfl : viaClient = false := by
        rcases hk with rfl | rfl
        · cases hleave
        · cases hleave
          rfl
      exact .removed _ (finishLeave_pc _ _ _ _ _) rfl (hremoved.trans (.of_eq rfl rfl rfl))
        fun _ => hnone
  | leaves viaClient hleave =>
      obtain rfl : k = .leave false := by
        rcases hk with rfl | rfl
        · cases hleave
        · rfl
      exact .leaving (by simp [goto]) rfl (hremoved.trans (.of_eq rfl rfl rfl)) fun _ => hnone
  | records call next reuse z hjoin _ => rcases hk with rfl | rfl <;> cases hjoin
  | relays r hrelay => rcases hk with rfl | rfl <;> cases hrelay
  | shuts hshuts => rcases hk with rfl | rfl <;> cases hshuts

/-- The HTTP leave answered. -/
theorem Closing.responded {result : Except Http.HttpError Unit}
    (hkept : Kept (fun id => ids id ∧ id ≠ x.sessionId) s m)
    (hkey : ids x.sessionId → m.keyCache x.sessionId = none)
    (h : m.leaveResponded (.host n) v (.leave false) result = some m') :
    Closing ids n v x s (some ()) m' := by
  cases leaveResponded_cases h with
  | leaves viaClient hk =>
      cases hk
      exact .removed _ (finishLeave_pc _ _ _ _ _) rfl (hkept.trans (.of_eq rfl rfl rfl)) hkey
  | fails viaClient e hk =>
      cases hk
      exact .removed _ (finishLeave_pc _ _ _ _ _) rfl (hkept.trans (.of_eq rfl rfl rfl)) hkey

/-- A turn of the worker the operation waits for. -/
theorem Closing.turn {k : After V} {input : WorkerInput} (hk : k = .close ∨ k = .leave false)
    (hp : m.tasks.pc (.host n) = .stopping v k) (hsession : m.SessionSound x)
    (hkept : Kept (fun id => ids id ∧ id ≠ x.sessionId) s m)
    (h : m.stepWorker env x.transport input = some m') :
    Closing ids n v x s (some ()) m' := by
  obtain ⟨worker, hworker, hid⟩ := hsession.worker
  unfold stepWorker at h
  rw [hworker] at h
  obtain ⟨⟨next, sealed⟩, -, rfl⟩ := Option.map_eq_some_iff.mp h
  refine .stopping k hk hp rfl ⟨hkept.voice, hkept.intent, ?_⟩
  rintro id ⟨hid', hne⟩
  rw [← hkept.key id ⟨hid', hne⟩]
  dsimp only
  split
  · exact Function.update_of_ne (hid ▸ hne) _ _
  · rfl

/-- Only a task that waits for the teardown lock takes it. -/
theorem findsLeft_of_pc {input : Input} (hp : ∀ k, m.tasks.pc (.host n) ≠ .teardown v k) :
    FindsLeft n v m (.resume (.host n) input) := fun k _ hp' => absurd hp' (hp k)

/-- The next step of the task. -/
theorem Closing.resume {input : Input} (h : Closing ids n v x s o m)
    (hx : m.sessions[v]? = some x) (hstep : m.resume env (.host n) input = some m') :
    ∃ o', Closing ids n v x s o' m' ∧
      Transition.Latches (fun _ => FindsLeft n v) o m (.resume (.host n) input) o' := by
  unfold Client.resume at hstep
  cases h with
  | waiting k hk hp ho hkept =>
      subst ho
      rw [hp] at hstep
      cases input with
      | ready => exact Closing.lock hk hp hkept hstep
      | _ => cases hstep
  | stopping k hk hp ho hkept =>
      subst ho
      have hfinds : FindsLeft n v m (.resume (.host n) input) :=
        findsLeft_of_pc fun k' hp' => by rw [hp] at hp'; cases hp'
      rw [hp] at hstep
      cases input with
      | ready => exact (Closing.stopped hk hx hkept hstep).stays hfinds
      | _ => cases hstep
  | leaving hp ho hkept hkey =>
      subst ho
      have hfinds : FindsLeft n v m (.resume (.host n) input) :=
        findsLeft_of_pc fun k' hp' => by rw [hp] at hp'; cases hp'
      rw [hp] at hstep
      cases input with
      | left result => exact (Closing.responded hkept hkey hstep).stays hfinds
      | _ => cases hstep
  | kept result hp ho hkept => rw [hp] at hstep; cases hstep
  | removed result hp ho hkept hkey => rw [hp] at hstep; cases hstep

/-- **One step of a run with a close or a leave** that is otherwise undisturbed. -/
theorem Closing.step (h : Closing ids n v x s o m) (hs : m.Sound) (hx : m.sessions[v]? = some x)
    (hcall : ∀ c, a ≠ .call n c) (hothers : Undisturbed env n ids m a)
    (hstep : m.step env a = some m') :
    ∃ o', Closing ids n v x s o' m' ∧ Transition.Latches (fun _ => FindsLeft n v) o m a o' := by
  cases howns : m.owns n a with
  | false =>
      refine (h.undisturbed howns (hothers howns m' hstep) hstep).stays ?_
      rintro k rfl
      simp [owns] at howns
  | true =>
      cases a with
      | call k c => exact absurd (by simpa [owns] using howns) fun hk => hcall c (by rw [hk])
      | resume i input =>
          obtain rfl : i = .host n := by simpa [owns] using howns
          exact h.resume hx hstep
      | worker w input =>
          have hw : m.awaited (.host n) = some w := by simpa [owns] using howns
          cases h with
          | stopping k hk hp ho hkept =>
              subst ho
              obtain rfl : x.transport = w := by simpa [awaited, hp, hx] using hw
              exact (Closing.turn hk hp (hs.sessions.session v x hx) hkept hstep).stays
                fun k ha => by cases ha
          | waiting k hk hp ho hkept => simp [awaited, hp] at hw
          | leaving hp ho hkept hkey => simp [awaited, hp] at hw
          | kept result hp ho hkept => simp [awaited, hp] at hw
          | removed result hp ho hkept hkey => simp [awaited, hp] at hw
      | engine c input => cases howns
      | closeControl c => cases howns

/-- **A run with a close or a leave**: the key of the session is touched exactly if the
teardown lock is taken of a session that was not left. -/
theorem Closing.run {rest : List (Action V)} (h : Closing ids n v x s none m) (hs : m.Sound)
    (hx : m.sessions[v]? = some x) (hcalls : ∀ c, .call n c ∉ rest)
    (hothers : Transition.Along (Client.step env) (Undisturbed env n ids) m rest)
    (hrun : Transition.exec (Client.step env) m rest = some t) :
    ∃ o, Closing ids n v x s o t ∧
      (Transition.Along (Client.step env) (FindsLeft n v) m rest ↔ o = none) := by
  have hstep : ∀ o m a m', (Closing ids n v x s o m ∧ m.Sound ∧ m.sessions[v]? = some x) →
      Undisturbed env n ids m a ∧ (∀ c, a ≠ .call n c) → Client.step env m a = some m' →
      ∃ o', (Closing ids n v x s o' m' ∧ m'.Sound ∧ m'.sessions[v]? = some x) ∧
        Transition.Latches (fun _ => FindsLeft n v) o m a o' := by
    rintro o m a m' ⟨hphase, hs, hx⟩ ⟨hothers, hcall⟩ hm
    obtain ⟨o', hphase', hlatch⟩ := hphase.step hs hx hcall hothers hm
    exact ⟨o', ⟨hphase', hs.step hm, ((step_cases hm).grows hs.connections).getElem?_sessions hx⟩,
      hlatch⟩
  obtain ⟨o, ⟨hlast, -⟩, -, hspares⟩ := Transition.latches_along hstep ⟨h, hs, hx⟩
    (hothers.and_forall fun a ha c hc => hcalls c (hc ▸ ha)) hrun
  refine ⟨o, hlast, (hspares ()).trans ?_⟩
  cases o <;> simp

/-- Closing or leaving on a handle forgets the remembered join that names its session. -/
theorem Closing.call {c : Call} (hc : c = .closeSession v ∨ c = .leaveSession v)
    (hx : s.sessions[v]? = some x) (h : s.step env (.call n c) = some m) :
    Closing ids n v x (s.clearSessionIntent x) none m := by
  have hcall : s.call (.host n) c = some m := by
    unfold Client.step at h
    dsimp only at h
    split at h
    · exact h
    · cases h
  unfold Client.call at hcall
  rcases hc with rfl | rfl
  · simp only [hx, Option.map_some] at hcall
    cases hcall
    exact .waiting .close (.inl rfl) (by simp [goto]) rfl (.of_eq rfl rfl rfl)
  · simp only [hx, Option.map_some] at hcall
    cases hcall
    exact .waiting (.leave false) (.inr rfl) (by simp [goto]) rfl (.of_eq rfl rfl rfl)

/-- The remembered join of session `id` survives a call on a handle of another session. -/
theorem clearSessionIntent_kept_iff (s : Client V K) (x : Session) (id : VoiceSessionId) :
    (∀ intent, s.voiceIntent = some intent → intent.sessionId = id →
      (s.clearSessionIntent x).voiceIntent = some intent) ↔
    x.sessionId ≠ id ∨ ∀ intent, s.voiceIntent = some intent → intent.sessionId ≠ id := by
  unfold clearSessionIntent
  cases hintent : s.voiceIntent with
  | none => simp
  | some intent =>
      by_cases hid : intent.sessionId = x.sessionId
      · simp [hid, clearVoiceIntent]
      · simp only [Option.any_some, hid, decide_false, Bool.false_eq_true, if_false, hintent]
        refine iff_of_true (fun _ h _ => h) ?_
        by_cases hx : x.sessionId = id
        · refine .inr fun intent' h => ?_
          cases h
          exact hx ▸ hid
        · exact .inl hx

/-- **What a close or a leave on a handle leaves of the current session.** In every
reachable state, for every handle (current or superseded) and every run of the call in
which the other tasks and workers leave the current session, the remembered join and
the key alone: the call leaves both as they were if and only if the handle's session has
another server identity, or no join of that identity is remembered and either no key is
cached or the call is a leave that finds its session left already. -/
theorem closed_handle_untouched_iff (env : Env V K) (autoRejoinVoice : Bool)
    (policy : ReconnectPolicy) (schedule : List (Action V)) (s t : Client V K) (n v : ℕ)
    (x : Session) (c : Call) (rest : List (Action V)) (result : Except SdkError Unit)
    (id : VoiceSessionId)
    (hreach : Transition.exec (step env) (new autoRejoinVoice policy) schedule = some s)
    (hx : s.sessions[v]? = some x) (hc : c = .closeSession v ∨ c = .leaveSession v)
    (hcalls : ∀ c', .call n c' ∉ rest)
    (hothers : Transition.Along (step env)
      (Undisturbed env n fun id => s.activeSession = some id) s (.call n c :: rest))
    (hrun : Transition.exec (step env) s (.call n c :: rest) = some t)
    (hreturned : t.tasks.pc (.host n) = .returned result) (hid : s.activeSession = some id) :
    Untouched id s t ↔ x.sessionId ≠ id ∨
      ((∀ intent, s.voiceIntent = some intent → intent.sessionId ≠ id) ∧
        (s.keyCache id = none ∨
          Transition.Along (step env) (FindsLeft n v) s (.call n c :: rest))) := by
  have hs : s.Sound := Transition.invariant (fun _ _ _ hs h => hs.step h) (sound_new _ _) hreach
  obtain ⟨m, hcall, hrest⟩ := Option.bind_eq_some_iff.mp hrun
  have hxm : m.sessions[v]? = some x :=
    ((step_cases hcall).grows hs.connections).getElem?_sessions hx
  obtain ⟨o, hlast, hfinds⟩ := (Closing.call hc hx hcall).run (hs.step hcall) hxm hcalls
    (hothers.2 m hcall) hrest
  have hfinds : Transition.Along (step env) (FindsLeft n v) s (.call n c :: rest) ↔ o = none := by
    have hhead : FindsLeft n v s (.call n c) := fun _ ha => by cases ha
    rw [Transition.along_cons_iff hcall, hfinds]
    simp [hhead]
  have hbase : (s.clearSessionIntent x).keyCache id = s.keyCache id := by
    rw [clearSessionIntent_keyCache]
  have hresult : t.voiceIntent = (s.clearSessionIntent x).voiceIntent ∧
      (t.keyCache id = s.keyCache id ↔ x.sessionId ≠ id ∨ s.keyCache id = none ∨ o = none) := by
    cases hlast with
    | waiting k hk hp => rw [hreturned] at hp; cases hp
    | stopping k hk hp => rw [hreturned] at hp; cases hp
    | leaving hp => rw [hreturned] at hp; cases hp
    | kept result' hp ho hkept =>
        exact ⟨hkept.intent, iff_of_true ((hkept.key id hid).trans hbase) (.inr (.inr ho))⟩
    | removed result' hp ho hkept hkey =>
        refine ⟨hkept.intent, ?_⟩
        by_cases hne : id = x.sessionId
        · subst hne
          rw [hkey hid]
          simp [ho, eq_comm]
        · exact iff_of_true ((hkept.key id ⟨hid, hne⟩).trans hbase) (.inl (Ne.symm hne))
  obtain ⟨hintent, hkey⟩ := hresult
  rw [hfinds]
  constructor
  · rintro ⟨hk, hi⟩
    rw [hintent] at hi
    by_cases hne : x.sessionId = id
    · have hi := (clearSessionIntent_kept_iff s x id).mp hi
      have hk := hkey.mp hk
      simp only [hne, ne_eq, not_true_eq_false, false_or] at hi hk
      exact .inr ⟨hi, hk⟩
    · exact .inl hne
  · intro hcondition
    refine ⟨hkey.mpr ?_, ?_⟩
    · rcases hcondition with hne | ⟨-, hk⟩
      · exact .inl hne
      · exact .inr hk
    · rw [hintent]
      refine (clearSessionIntent_kept_iff s x id).mpr ?_
      rcases hcondition with hne | ⟨hi, -⟩
      · exact .inl hne
      · exact .inr hi

/-- Host `0` joins session `n` while session `0` is current, and closes the old one. -/
def supersedingSchedule (n : Fin 255) (created : Bool) : Schedule :=
  joinedSchedule ++ hostJoining 0 1 n created ++
    [.resume (.host 0) .ready, .worker 0 .stop, .resume (.host 0) .ready]

/-- Host `0` closes the handle of its first session. -/
def closingOld : Schedule :=
  [.call 0 (.closeSession 0), .resume (.host 0) .ready, .resume (.host 0) .ready]

/-- The current session has another identity: it stays as it is. -/
theorem closed_handle_untouched_iff_other :
    ∃ s t, Transition.exec (step sampleClientEnv) sampleClient (supersedingSchedule 1 true) =
        some s ∧
      Transition.exec (step sampleClientEnv) s closingOld = some t ∧
      s.voice = some 1 ∧ s.activeSession = some (sampleId .session 1) ∧
      (s.keyCache (sampleId .session 1)).isSome = true ∧ s.voiceIntent.isSome = true ∧
      Untouched (sampleId .session 1) s t := by
  have hrun : (Transition.exec (step sampleClientEnv) sampleClient
      (supersedingSchedule 1 true)).any (fun s =>
        s.voice = some 1 && s.activeSession = some (sampleId .session 1) &&
          (s.keyCache (sampleId .session 1)).isSome && s.voiceIntent.isSome &&
          (s.sessions[0]?).any (fun x => x.sessionId ≠ sampleId .session 1) &&
          Transition.checkAlong (step sampleClientEnv) (fun s => s.owns 0) s closingOld &&
          (Transition.exec (step sampleClientEnv) s closingOld).any fun t =>
            (t.tasks.pc (.host 0)).returnedOk) = true := by decide +kernel
  obtain ⟨s, hs, hresult⟩ := (Option.any_eq_true _ _).mp hrun
  simp only [Bool.and_eq_true, decide_eq_true_eq] at hresult
  obtain ⟨⟨⟨⟨⟨⟨hvoice, hactive⟩, hkey⟩, hintent⟩, hold⟩, howns⟩, hexec⟩ := hresult
  obtain ⟨x, hx, hne⟩ := (Option.any_eq_true _ _).mp hold
  obtain ⟨t, ht, hok⟩ := (Option.any_eq_true _ _).mp hexec
  refine ⟨s, t, hs, ht, hvoice, hactive, hkey, hintent, ?_⟩
  exact (closed_handle_untouched_iff sampleClientEnv true ⟨true, none⟩ (supersedingSchedule 1 true)
    s t 0 0 x (.closeSession 0) closingOld.tail (.ok ()) (sampleId .session 1) hs hx (.inl rfl)
    (by simp [closingOld])
    (Transition.along_of_check (fun _ _ => undisturbed_of_owns) howns) ht
    (Pc.eq_returned_of_ok hok) hactive).mpr (.inl (of_decide_eq_true hne))

/-- The current session reuses the identity of the old one: its key and the remembered
join are gone. -/
theorem closingOld_touches_current :
    ¬ ∀ (schedule rest : Schedule) (s t : Client (Option VoiceAuthority) SampleCipher)
      (v : ℕ) (c : Call) (id : VoiceSessionId) (result : Except SdkError Unit),
      Transition.exec (step sampleClientEnv) sampleClient schedule = some s →
      s.voice ≠ some v → (c = .closeSession v ∨ c = .leaveSession v) →
      (∀ c', .call 0 c' ∉ rest) →
      Transition.Along (step sampleClientEnv)
        (Undisturbed sampleClientEnv 0 fun id => s.activeSession = some id) s
        (.call 0 c :: rest) →
      Transition.exec (step sampleClientEnv) s (.call 0 c :: rest) = some t →
      t.tasks.pc (.host 0) = .returned result → s.activeSession = some id →
      Untouched id s t := by
  intro h
  have hrun : (Transition.exec (step sampleClientEnv) sampleClient
      (supersedingSchedule 0 false)).any (fun s =>
        s.voice = some 1 && s.activeSession = some (sampleId .session 0) &&
          (s.keyCache (sampleId .session 0)).isSome &&
          Transition.checkAlong (step sampleClientEnv) (fun s => s.owns 0) s closingOld &&
          (Transition.exec (step sampleClientEnv) s closingOld).any fun t =>
            (t.tasks.pc (.host 0)).returnedOk && t.voice = some 1 &&
              (t.keyCache (sampleId .session 0)).isNone) = true := by decide +kernel
  obtain ⟨s, hs, hresult⟩ := (Option.any_eq_true _ _).mp hrun
  simp only [Bool.and_eq_true, decide_eq_true_eq] at hresult
  obtain ⟨⟨⟨⟨hvoice, hactive⟩, hkey⟩, howns⟩, hexec⟩ := hresult
  obtain ⟨t, ht, hresult⟩ := (Option.any_eq_true _ _).mp hexec
  simp only [Bool.and_eq_true, decide_eq_true_eq] at hresult
  obtain ⟨⟨hok, -⟩, hnone⟩ := hresult
  have huntouched := h (supersedingSchedule 0 false) closingOld.tail s t 0 (.closeSession 0)
    (sampleId .session 0) (.ok ()) hs (by simp [hvoice]) (.inl rfl) (by simp [closingOld])
    (Transition.along_of_check (fun _ _ => undisturbed_of_owns) howns) ht
    (Pc.eq_returned_of_ok hok) hactive
  rw [huntouched.key] at hnone
  rw [Option.isNone_iff_eq_none.mp hnone] at hkey
  cases hkey

end Client

end ZephyrVox.Sdk
