import ZephyrVox.Sdk.Sessions

/-!
# The slots of the client

The voice session, the keys, the state that hosts read and the marks of left sessions
are written under the voice gate, or under the control mutex before shutdown, or by
shutdown itself. A move of a task is classified once by what it does to them.

## Main definitions

* `Pc.busy` — a task holds the gate for a join, a leave or a relayed stop.
* `VoiceMove`, `Slots` — what a move does to the voice slot, and to the others.
* `Moves`, `Idles` — an action moves one task, or none and fills no slot.
* `step_slots` — every action of the client.
-/

namespace ZephyrVox.Sdk

open Realtime Voice

variable {V K : Type}

/-- Whether a session is closed for a join, a leave or a relayed stop, under the gate. -/
def After.busy : After V → Bool
  | .join _ _ _ | .relay _ | .leave true => true
  | .leave false | .close | .shutdown => false

/-- Whether a session is closed to leave it for the client. -/
def After.leavesCurrent : After V → Bool
  | .leave true => true
  | _ => false

namespace Pc

/-- Whether a task holds the gate for anything but shutdown. -/
def busy : Pc V → Bool
  | .join _ .gate => false
  | .join _ _ => true
  | .teardown _ k | .stopping _ k | .leaving _ k => k.busy
  | _ => false

/-- The session a task has taken out of its slot to leave it. -/
def leaves? : Pc V → Option ℕ
  | .teardown session k | .stopping session k | .leaving session k =>
      if k.leavesCurrent then some session else none
  | _ => none

theorem holdsGate_of_busy {p : Pc V} (h : p.busy = true) : p.holdsGate = true := by
  cases p with
  | join call stage => cases stage <;> first | rfl | cases h
  | teardown session k | stopping session k | leaving session k =>
      cases k with
      | leave viaClient => cases viaClient <;> first | rfl | cases h
      | _ => first | rfl | cases h
  | _ => cases h

theorem busy_of_leaves {p : Pc V} (h : p.leaves?.isSome = true) : p.busy = true := by
  cases p with
  | teardown session k | stopping session k | leaving session k =>
      cases k with
      | leave viaClient => cases viaClient <;> first | rfl | cases h
      | _ => cases h
  | _ => cases h

/-- A join that waits for its session to be recorded holds the gate. -/
theorem busy_of_pending {p : Pc V} {v : ℕ} (h : p.pending? = some v) : p.busy = true := by
  cases p with
  | teardown session k | stopping session k | leaving session k =>
      cases k with
      | join => rfl
      | _ => cases h
  | _ => cases h

theorem not_busy_of_silences {p : Pc V} (h : p.silences = true) : p.busy = false := by
  cases p with
  | teardown session k | stopping session k | leaving session k =>
      cases k with
      | shutdown => rfl
      | _ => cases h
  | _ => first | rfl | cases h

end Pc

namespace Client

variable {env : Env V K} {s t u : Client V K} {i j : Task} {q : Pc V} {a : Action V}

/-! ## The slots -/

/-- What a move of task `i` does to the voice slot. -/
inductive VoiceMove (s t : Client V K) (i : Task) : Prop
  | same (h : t.voice = s.voice)
      (hbusy : (t.tasks.pc i).busy = true → (s.tasks.pc i).busy = true ∨ s.stopped = false)
      (hleaves : (t.tasks.pc i).leaves?.isSome = true → (s.tasks.pc i).leaves?.isSome = true)
  /-- The session is taken out to be closed. -/
  | takes (v : ℕ) (k : After V) (hfree : s.tasks.holder = none) (hv : s.voice = some v)
      (ht : t.voice = none) (hq : t.tasks.pc i = .teardown v k) (hk : k.holdsGate = true)
  /-- A join puts its session in, and closes the one that was there. -/
  | installs (call : JoinCall V) (b : Binding) (w : ℕ) (reuse : Option SessionKey) (x : Session)
      (hp : s.tasks.pc i = .join call (.starting b w reuse))
      (ht : t.voice = some s.sessions.length) (hsessions : t.sessions = s.sessions ++ [x])
      (hw : x.transport = w) (hleaves : (t.tasks.pc i).leaves? = none)
      (hprevious : ∀ v, s.voice = some v → ∃ k, t.tasks.pc i = .teardown v k ∧ k.holdsGate = true)
  /-- A failed leave puts its session back. -/
  | putsBack (v : ℕ) (hp : (s.tasks.pc i).leaves? = some v) (ht : t.voice = some v)
      (result : Except SdkError Unit) (hq : t.tasks.pc i = .returned result)

/-- What a move of task `i` does to the slots that shutdown empties. -/
structure Slots (s t : Client V K) (i : Task) : Prop where
  voice : VoiceMove s t i
  key : ∀ id, t.keyCache id = s.keyCache id ∨ t.keyCache id = none ∨ (s.tasks.pc i).busy = true
  state : t.state = s.state ∨ t.state = none ∨ s.stopped = false
  left : ∀ v, t.left v = true → s.left v = true ∨ (s.tasks.pc i).leaving? = some v

/-- A move that touches no slot and ends outside of the gate. -/
theorem Slots.of_same (hvoice : t.voice = s.voice) (hkey : t.keyCache = s.keyCache)
    (hstate : t.state = s.state) (hleft : t.left = s.left) (hq : (t.tasks.pc i).busy = false) :
    Slots s t i where
  voice := by
    refine .same hvoice ?_ ?_
    · rw [hq]
      exact fun h => by cases h
    · intro h
      rw [Pc.busy_of_leaves h] at hq
      cases hq
  key id := .inl (by rw [hkey])
  state := .inl hstate
  left v h := .inl (hleft ▸ h)

/-- A move within a join. -/
theorem Slots.of_join {call : JoinCall V} {stage : JoinPc} (hp : s.tasks.pc i = .join call stage)
    (hstage : stage ≠ .gate) (hvoice : t.voice = s.voice) (hstate : t.state = s.state)
    (hleft : t.left = s.left) (hleaves : (t.tasks.pc i).leaves? = none) : Slots s t i := by
  have hbusy : (s.tasks.pc i).busy = true := by
    rw [hp]
    cases stage with
    | gate => exact absurd rfl hstage
    | _ => rfl
  refine ⟨.same hvoice (fun _ => .inl hbusy) ?_, fun _ => .inr (.inr hbusy), .inl hstate, ?_⟩
  · rw [hleaves]
    exact fun h => by cases h
  · exact fun v h => .inl (hleft ▸ h)

/-- A join fails. -/
theorem slots_failJoin (call : JoinCall V) (e : SdkError) (hvoice : u.voice = s.voice)
    (hkey : u.keyCache = s.keyCache) (hstate : u.state = s.state) (hleft : u.left = s.left) :
    Slots s (u.failJoin i call e) i := by
  have hq : ((u.failJoin i call e).tasks.pc i).busy = false := by
    rcases failJoin_pc u i call e with hp | ⟨r, hp⟩ <;> (rw [hp]; rfl)
  exact .of_same (by simpa) (by simpa) (by simpa) (by simpa) hq

theorem slots_joinGate {call : JoinCall V} (h : s.joinGate i call = some t) : Slots s t i := by
  obtain ⟨s', hacquire, rfl⟩ := Option.map_eq_some_iff.mp h
  obtain ⟨tasks, -, rfl⟩ := Option.map_eq_some_iff.mp hacquire
  split
  · exact slots_failJoin call .closed rfl rfl rfl rfl
  case isFalse hstopped =>
    have hp := acquire_pc hacquire
    refine ⟨.same rfl (fun _ => .inr (by simpa using hstopped)) ?_, fun _ => .inl rfl, .inl rfl,
      fun _ h => .inl h⟩
    rw [hp]
    exact fun h => by cases h

theorem slots_joinControl {call : JoinCall V} (hp : s.tasks.pc i = .join call .control)
    (h : s.joinControl i call = some t) : Slots s t i := by
  cases joinControl_cases h with
  | fails e => exact slots_failJoin call e rfl rfl rfl rfl
  | reads c _ _ => exact .of_join hp (by simp) rfl rfl rfl (by simp [goto, Pc.leaves?])

theorem slots_joinDiscovered {call : JoinCall V} {c : ℕ} {cached : Option Metadata}
    {result : Except SdkError Metadata} (hp : s.tasks.pc i = .join call (.discovering c cached))
    (h : s.joinDiscovered i call c cached result = some t) : Slots s t i := by
  cases joinDiscovered_cases h with
  | fails e metadata => exact slots_failJoin call e rfl rfl rfl rfl
  | binds conn metadata codec controlId _ _ _ =>
      refine .of_join hp (by simp) ?_ ?_ ?_ (by simp [goto, Pc.leaves?])
      all_goals
        unfold issued
        split <;> rfl

theorem slots_joinResponded {call : JoinCall V} {b : Binding}
    {result : Except Http.HttpError VoiceJoinResponse}
    (hp : s.tasks.pc i = .join call (.requesting b)) :
    Slots s (s.joinResponded env i call b result) i := by
  generalize ht : s.joinResponded env i call b result = t
  cases joinResponded_cases ht with
  | fails e => exact slots_failJoin call e rfl rfl rfl rfl
  | configures response config reuse _ _ =>
      exact .of_join hp (by simp) rfl rfl rfl (by simp [goto, Pc.leaves?])

theorem slots_joinConnected {call : JoinCall V} {b : Binding} {config : VoiceSessionConfig}
    {reuse : Option SessionKey} {result : Except VoiceError Unit}
    (hp : s.tasks.pc i = .join call (.connecting b config reuse)) :
    Slots s (s.joinConnected env i call b config reuse result) i := by
  generalize ht : s.joinConnected env i call b config reuse result = t
  cases joinConnected_cases ht with
  | fails e _ => exact slots_failJoin call _ rfl rfl rfl rfl
  | rejects cache e _ _ =>
      refine .of_join hp (by simp) (by simp) (by simp) (by simp) ?_
      rcases failJoin_pc { s with keyCache := cache } i call (.voice e) with hq | ⟨r, hq⟩ <;>
        (rw [hq]; rfl)
  | starts cache codec _ _ => exact .of_join hp (by simp) rfl rfl rfl (by simp [goto, Pc.leaves?])

theorem recordJoin_leaves (s : Client V K) (i : Task) (call : JoinCall V) (v : ℕ) (x : Session)
    (reuse : Option SessionKey) : ((s.recordJoin i call v x reuse).tasks.pc i).leaves? = none := by
  rcases s.recordJoin_pc i call v x reuse with hp | ⟨r, hp⟩ <;> (rw [hp]; rfl)

theorem slots_joinStarted {call : JoinCall V} {b : Binding} {w : ℕ} {reuse : Option SessionKey}
    (hp : s.tasks.pc i = .join call (.starting b w reuse))
    (h : s.joinStarted i call b w reuse = some t) : Slots s t i := by
  have hbusy : (s.tasks.pc i).busy = true := by
    rw [hp]
    rfl
  cases joinStarted_cases h with
  | fails worker e _ _ => exact slots_failJoin call _ rfl rfl rfl rfl
  | discards => exact .of_join hp (by simp) rfl rfl rfl (by simp [goto, Pc.leaves?])
  | records conn x hx hnone =>
      refine ⟨.installs call b w reuse x hp (by simp [install]) (by simp [install]) hx.transport
        (recordJoin_leaves _ _ _ _ _ _) ?_, fun _ => .inr (.inr hbusy), .inl (by simp [install]),
        fun v h => .inl (by simpa [install] using h)⟩
      intro v hv
      rw [hnone] at hv
      cases hv
  | replaces conn x previous hx hprevious =>
      refine ⟨.installs call b w reuse x hp rfl rfl hx.transport
        (by simp [goto, Pc.leaves?, After.leavesCurrent]) ?_, fun _ => .inr (.inr hbusy), .inl rfl,
        fun _ h => .inl h⟩
      intro v hv
      rw [hprevious] at hv
      cases hv
      exact ⟨.join call s.sessions.length reuse, by simp [goto], rfl⟩

theorem slots_joinDiscarded {call : JoinCall V} {w : ℕ} (h : s.joinDiscarded i call w = some t) :
    Slots s t i := by
  obtain ⟨worker, e, -, -, rfl⟩ := joinDiscarded_cases h
  exact slots_failJoin call e rfl rfl rfl rfl

/-! ### Closing and leaving -/

/-- A move that goes on closing a session, or is done with it. -/
theorem Slots.of_after {session : ℕ} {k : After V} (hvoice : t.voice = s.voice)
    (hkey : ∀ id, t.keyCache id = s.keyCache id ∨ t.keyCache id = none)
    (hstate : t.state = s.state)
    (hleft : ∀ v, t.left v = true → s.left v = true ∨ (s.tasks.pc i).leaving? = some v)
    (hp : s.tasks.pc i = .teardown session k ∨ s.tasks.pc i = .stopping session k)
    (hq : t.tasks.pc i = .stopping session k ∨ t.tasks.pc i = .leaving session k ∨
      (t.tasks.pc i).busy = false) : Slots s t i where
  voice := by
    have hbusy : (s.tasks.pc i).busy = k.busy := by
      rcases hp with hp | hp <;> rw [hp, Pc.busy]
    have hleaves : (t.tasks.pc i).leaves?.isSome = true →
        (s.tasks.pc i).leaves?.isSome = true := by
      intro h
      rcases hq with hq | hq | hq
      · rw [hq] at h
        rcases hp with hp | hp <;>
        · rw [hp]
          exact h
      · rw [hq] at h
        rcases hp with hp | hp <;>
        · rw [hp]
          exact h
      · rw [Pc.busy_of_leaves h] at hq
        cases hq
    refine .same hvoice (fun h => .inl ?_) hleaves
    rcases hq with hq | hq | hq
    · rw [hq] at h
      exact hbusy.trans h
    · rw [hq] at h
      exact hbusy.trans h
    · rw [h] at hq
      cases hq
  key id := (hkey id).elim .inl fun h => .inr (.inl h)
  state := .inl hstate
  left := hleft

theorem slots_lockTeardown {session : ℕ} {k : After V} (hp : s.tasks.pc i = .teardown session k)
    (h : s.lockTeardown i session k = some t) : Slots s t i := by
  cases lockTeardown_cases h with
  | finds viaClient hk _ =>
      have hq := finishLeave_pc s i session viaClient (.ok ())
      cases viaClient with
      | true => exact .of_same rfl rfl rfl rfl (by rw [hq]; rfl)
      | false => exact .of_same rfl rfl rfl rfl (by rw [hq]; rfl)
  | stops x _ _ =>
      exact .of_after rfl (fun _ => .inl rfl) rfl (fun _ h => .inl h) (.inl hp)
        (.inl (by simp [goto]))

theorem remove_or (cache : SessionKeyCache) (id id' : VoiceSessionId) :
    cache.remove id id' = cache id' ∨ cache.remove id id' = none := by
  by_cases h : id' = id
  · exact .inr (by rw [h, SessionKeyCache.remove, Function.update_self])
  · exact .inl (Function.update_of_ne h _ _)

/-- A leave fails: the client keeps the handle. -/
theorem slots_leaveFailed {session : ℕ} {viaClient : Bool} {e : SdkError}
    (hp : s.tasks.pc i = .stopping session (.leave viaClient) ∨
      s.tasks.pc i = .leaving session (.leave viaClient)) (hvoice : u.voice = s.voice)
    (hkey : ∀ id, u.keyCache id = s.keyCache id ∨ u.keyCache id = none)
    (hstate : u.state = s.state) (hleft : u.left = s.left) :
    Slots s (u.finishLeave i session viaClient (.error e)) i := by
  have hq := finishLeave_pc u i session viaClient (.error e)
  have hkeys (id : VoiceSessionId) :
      u.keyCache id = s.keyCache id ∨ u.keyCache id = none ∨ (s.tasks.pc i).busy = true :=
    (hkey id).elim .inl fun h => .inr (.inl h)
  cases viaClient with
  | true =>
      refine ⟨.putsBack session ?_ rfl (.error e) hq, hkeys, .inl hstate,
        fun v h => .inl (hleft ▸ h)⟩
      rcases hp with hp | hp <;> (rw [hp]; rfl)
  | false =>
      refine ⟨.same hvoice ?_ ?_, hkeys, .inl hstate, fun v h => .inl (hleft ▸ h)⟩
      · rw [hq]
        exact fun h => by cases h
      · rw [hq]
        exact fun h => by cases h

theorem slots_transportStopped {session : ℕ} {k : After V}
    (hp : s.tasks.pc i = .stopping session k) (h : s.transportStopped i session k = some t) :
    Slots s t i := by
  obtain ⟨x, -, -, hclosed⟩ := transportStopped_cases h
  have hkey := remove_or s.keyCache x.sessionId
  cases hclosed with
  | records call next reuse y hk _ =>
      have hbusy : (s.tasks.pc i).busy = true := by
        rw [hp, hk]
        rfl
      refine ⟨.same (by simp [unlockTeardown]) (fun _ => .inl hbusy) ?_, fun _ => .inr (.inr hbusy),
        .inl (by simp [unlockTeardown]), fun v h => .inl (by simpa [unlockTeardown] using h)⟩
      rw [recordJoin_leaves]
      exact fun h => by cases h
  | relays r hk =>
      exact .of_after rfl hkey rfl (fun _ h => .inl h) (.inr hp)
        (.inr (.inr (by simp [release, Pc.busy])))
  | closes hk =>
      exact .of_after rfl hkey rfl (fun _ h => .inl h) (.inr hp)
        (.inr (.inr (by simp [goto, Pc.busy])))
  | shuts hk =>
      exact .of_after rfl hkey rfl (fun _ h => .inl h) (.inr hp)
        (.inr (.inr (by simp [release, Pc.busy])))
  | fails viaClient hk =>
      subst hk
      exact slots_leaveFailed (.inl hp) rfl hkey rfl rfl
  | leaves viaClient hk =>
      exact .of_after rfl hkey rfl (fun _ h => .inl h) (.inr hp) (.inr (.inl (by simp [goto])))

theorem slots_leaveResponded {session : ℕ} {k : After V} {result : Except Http.HttpError Unit}
    (hp : s.tasks.pc i = .leaving session k)
    (h : s.leaveResponded i session k result = some t) : Slots s t i := by
  cases leaveResponded_cases h with
  | leaves viaClient hk =>
      have hleft (v : ℕ) (h : Function.update s.left session true v = true) :
          s.left v = true ∨ (s.tasks.pc i).leaving? = some v := by
        by_cases hv : v = session
        · exact .inr (by rw [hp, hv]; rfl)
        · rw [Function.update_of_ne hv] at h
          exact .inl h
      have hq (left : ℕ → Bool) := finishLeave_pc ({ s with left := left }.unlockTeardown session) i
        session viaClient (.ok ())
      have hbusy (h : (Pc.returned (.ok ()) : Pc V).busy = true) :
          (s.tasks.pc i).busy = true ∨ s.stopped = false := by cases h
      cases viaClient with
      | true =>
          refine ⟨.same rfl (by rw [hq]; exact hbusy) (by rw [hq]; exact fun h => by cases h),
            fun _ => .inl rfl, .inl rfl, hleft⟩
      | false =>
          refine ⟨.same rfl (by rw [hq]; exact hbusy) (by rw [hq]; exact fun h => by cases h),
            fun _ => .inl rfl, .inl rfl, hleft⟩
  | fails viaClient e hk =>
      subst hk
      exact slots_leaveFailed (.inr hp) rfl (fun _ => .inl rfl) rfl rfl

/-- The current session is taken out to be closed. -/
theorem slots_takes {v : ℕ} {k : After V} (h : u.acquire i (.teardown v k) = some t)
    (hv : s.voice = some v) (hnone : u.voice = none) (hkey : u.keyCache = s.keyCache)
    (hstate : u.state = s.state) (hleft : u.left = s.left) (htasks : u.tasks = s.tasks)
    (hk : k.holdsGate = true) : Slots s t i := by
  have hfree := (acquire_eq_some h).1
  have hq := acquire_pc h
  obtain ⟨tasks, -, rfl⟩ := Option.map_eq_some_iff.mp h
  exact ⟨.takes v k (htasks ▸ hfree) hv hnone hq hk, fun _ => .inl (by rw [hkey]), .inl hstate,
    fun v h => .inl (hleft ▸ h)⟩

theorem slots_leaveCurrent (h : s.leaveCurrent i = some t) : Slots s t i := by
  unfold leaveCurrent at h
  split at h
  · cases h
  · cases h
    exact .of_same rfl rfl rfl rfl (by simp [goto, Pc.busy])
  case h_3 session _ hv =>
    split at h
    · cases h
    · exact slots_takes h hv (by simp) (by simp) (by simp) (by simp) (by simp) rfl

/-! ### Relays, connecting and shutting down -/

theorem handleEvent_slots (s : Client V K) (i : Task) (g : ℕ) (r : Relay) (event : ClientEvent V) :
    (s.handleEvent i g r event).voice = s.voice ∧
      (s.handleEvent i g r event).keyCache = s.keyCache ∧
      (s.handleEvent i g r event).state = s.state ∧ (s.handleEvent i g r event).left = s.left ∧
      ((s.handleEvent i g r event).tasks.pc i).busy = false := by
  have hforget : (s.forgetIntent r event).voice = s.voice ∧
      (s.forgetIntent r event).keyCache = s.keyCache ∧
      (s.forgetIntent r event).state = s.state ∧ (s.forgetIntent r event).left = s.left := by
    unfold forgetIntent
    split <;> exact ⟨rfl, rfl, rfl, rfl⟩
  have hrejoin (u : Client V K) (r : Relay) :
      (u.rejoinVoiceIfConfigured i r).voice = u.voice ∧
        (u.rejoinVoiceIfConfigured i r).keyCache = u.keyCache ∧
        (u.rejoinVoiceIfConfigured i r).state = u.state ∧
        (u.rejoinVoiceIfConfigured i r).left = u.left ∧
        ((u.rejoinVoiceIfConfigured i r).tasks.pc i).busy = false := by
    unfold rejoinVoiceIfConfigured
    split
    · split
      · exact ⟨rfl, rfl, rfl, rfl, by simp [goto, Pc.busy]⟩
      · exact ⟨rfl, rfl, rfl, rfl, by simp [goto, Pc.busy]⟩
    · exact ⟨rfl, rfl, rfl, rfl, by simp [goto, Pc.busy]⟩
  obtain ⟨hvoice, hkey, hstate, hleft⟩ := hforget
  unfold handleEvent
  dsimp only
  split
  · exact ⟨rfl, rfl, rfl, rfl, by simp [goto, Pc.busy]⟩
  · split
    · exact ⟨hvoice, hkey, hstate, hleft, by simp [goto, Pc.busy]⟩
    · split
      · obtain ⟨hvoice', hkey', hstate', hleft', hq⟩ :=
          hrejoin (s.forgetIntent r event) { r with next := r.next + 1 }
        exact ⟨hvoice'.trans hvoice, hkey'.trans hkey, hstate'.trans hstate, hleft'.trans hleft,
          hq⟩
      · exact ⟨hvoice, hkey, hstate, hleft, by simp [goto, Pc.busy]⟩

theorem slots_shutdownClear (hvoice : u.voice = s.voice) (hleft : u.left = s.left) :
    Slots s (u.shutdownClear i) i := by
  refine ⟨.same hvoice ?_ ?_, fun _ => .inr (.inl rfl), .inr (.inl rfl), fun v h => .inl ?_⟩
  · simp [shutdownClear, goto, Pc.busy]
  · simp [shutdownClear, goto, Pc.leaves?]
  · exact hleft ▸ h

/-- **What a move of a task does to the slots.** -/
theorem slots_resume {input : Input} (h : s.resume env i input = some t) : Slots s t i := by
  unfold resume at h
  split at h
  case h_1 hpc =>
    unfold connectLocked at h
    split at h
    · cases h
    · split at h
      · cases h; exact .of_same rfl rfl rfl rfl (by simp [goto, Pc.busy])
      · cases h; exact .of_same rfl rfl rfl rfl (by simp [goto, Pc.busy])
  case h_2 result hpc =>
    cases h
    unfold connectReady
    split
    · exact .of_same rfl rfl rfl rfl (by simp [goto, Pc.busy])
    · exact .of_same rfl rfl rfl rfl (by simp [goto, Pc.busy])
  case h_3 c hpc =>
    unfold connectInstall at h
    split at h
    · cases h
    · split at h
      · cases h; exact .of_same rfl rfl rfl rfl (by simp [goto, Pc.busy])
      case isFalse hstopped =>
        cases h
        refine ⟨.same rfl ?_ ?_, fun _ => .inl rfl, .inr (.inr (by simpa using hstopped)),
          fun _ h => .inl h⟩
        · simp [goto, Pc.busy]
        · simp [goto, Pc.leaves?]
  case h_4 c hpc =>
    obtain ⟨-, h⟩ := Option.ite_none_right_eq_some.mp h
    cases h
    exact .of_same rfl rfl rfl rfl (by simp [goto, Pc.busy])
  case h_5 result hpc =>
    cases h
    unfold discovered
    split
    · exact .of_same rfl rfl rfl rfl (by simp [goto, Pc.busy])
    · exact .of_same rfl rfl rfl rfl (by simp [goto, Pc.busy])
  case h_6 r hpc =>
    cases i with
    | host n => cases h
    | relay g =>
        dsimp only at h
        split at h
        · cases h; exact .of_same rfl rfl rfl rfl (by simp [goto, Pc.busy])
        · cases h; exact .of_same rfl rfl rfl rfl (by simp [goto, Pc.busy])
  case h_7 r hpc =>
    cases i with
    | host n => cases h
    | relay g =>
        dsimp only [relayReceive] at h
        split at h
        · cases h
        · split at h
          · cases h
          · cases h; exact .of_same rfl rfl rfl rfl (by simp [goto, Pc.busy])
          case h_3 event _ _ =>
            cases h
            obtain ⟨hvoice, hkey, hstate, hleft, hq⟩ :=
              handleEvent_slots s (.relay g) g r event
            exact .of_same hvoice hkey hstate hleft hq
  case h_8 r event hpc =>
    cases i with
    | host n => cases h
    | relay g =>
        dsimp only [stopVoiceTransport] at h
        split at h
        · cases h
        · split at h
          case h_1 session x hv hx =>
            split at h
            · exact slots_takes h hv rfl rfl rfl rfl rfl rfl
            · cases h; exact .of_same rfl rfl rfl rfl (by simp [goto, Pc.busy])
          · cases h; exact .of_same rfl rfl rfl rfl (by simp [goto, Pc.busy])
  case h_9 call stage hpc =>
    unfold resumeJoin at h
    split at h
    · exact slots_joinGate h
    · exact slots_joinControl hpc h
    · exact slots_joinDiscovered hpc h
    · cases h; exact slots_joinResponded hpc
    · cases h; exact slots_joinConnected hpc
    · exact slots_joinStarted hpc h
    · exact slots_joinDiscarded h
    · cases h
  case h_10 hpc => exact slots_leaveCurrent h
  case h_11 session k hpc => exact slots_lockTeardown hpc h
  case h_12 session k hpc => exact slots_transportStopped hpc h
  case h_13 session k result hpc => exact slots_leaveResponded hpc h
  case h_14 hpc =>
    split at h
    · cases h
    · split at h
      · cases h; exact .of_same rfl rfl rfl rfl (by simp [goto, Pc.busy])
      · cases h; exact .of_same rfl rfl rfl rfl (by simp [goto, Pc.busy])
  case h_15 hpc =>
    cases shutdownVoice_cases h with
    | finds _ _ => exact .of_same rfl rfl rfl rfl (by simp [goto, Pc.busy])
    | takes session _ hv h => exact slots_takes h hv rfl rfl rfl rfl rfl rfl
  case h_16 hpc =>
    cases shutdownConnection_cases h with
    | clears _ _ => exact slots_shutdownClear rfl rfl
    | closes c _ _ => exact .of_same rfl rfl rfl rfl (by simp [goto, Pc.busy])
  case h_17 c hpc =>
    obtain ⟨-, h⟩ := Option.ite_none_right_eq_some.mp h
    cases h
    exact slots_shutdownClear rfl rfl
  case h_18 hpc => cases h; exact .of_same rfl rfl rfl rfl (by simp [shutdownFinish, goto, Pc.busy])
  case h_19 => cases h

/-- A call touches no slot but the remembered join. -/
theorem slots_call {n : ℕ} {c : Call} (h : s.call (.host n) c = some t) :
    Slots s t (.host n) := by
  unfold call at h
  cases c with
  | connect | leaveVoice | joinVoice =>
      dsimp only at h
      split at h
      · cases h; exact .of_same rfl rfl rfl rfl (by simp [goto, Pc.busy])
      · cases h; exact .of_same rfl rfl rfl rfl (by simp [goto, Pc.busy])
  | discover =>
      dsimp only at h
      split at h
      · cases h; exact .of_same rfl rfl rfl rfl (by simp [goto, Pc.busy])
      · split at h
        · cases h; exact .of_same rfl rfl rfl rfl (by simp [goto, Pc.busy])
        · cases h; exact .of_same rfl rfl rfl rfl (by simp [goto, Pc.busy])
  | closeSession session | leaveSession session =>
      obtain ⟨x, -, rfl⟩ := Option.map_eq_some_iff.mp h
      exact .of_same (by simp [goto]) (by simp [goto]) (by simp [goto]) (by simp [goto])
        (by simp [goto, Pc.busy, After.busy])
  | shutdown => cases h; exact .of_same rfl rfl rfl rfl (by simp [goto, Pc.busy])

/-! ## Every action -/

/-- Action `a` moves task `i`. Other tasks stay where they are, but for a relay that the
action spawns or aborts. -/
structure Moves (s t : Client V K) (a : Action V) (i : Task) : Prop where
  slots : Slots s t i
  action : (∃ input, a = .resume i input) ∨ ∃ result, s.tasks.pc i = .returned result
  others : ∀ j, j ≠ i → t.tasks.pc j = s.tasks.pc j ∨
    (s.tasks.pc j = .relayExited ∧ ∃ r, t.tasks.pc j = .relayTop r) ∨
    (s.tasks.pc i = .shutdownAborting ∧ (∃ g, j = .relay g) ∧ t.tasks.pc j = .relayExited)

/-- An action moves no task and fills no slot. -/
structure Idles (s t : Client V K) : Prop where
  tasks : t.tasks = s.tasks
  voice : t.voice = s.voice
  key : ∀ id, t.keyCache id = s.keyCache id ∨ t.keyCache id = none
  state : t.state = s.state
  left : t.left = s.left
  intent : t.voiceIntent = s.voiceIntent
  control : t.control = s.control

/-- The relay of the next generation has not been spawned. -/
theorem TasksSound.next_relay (hs : s.TasksSound) :
    s.tasks.pc (.relay (s.connectionGeneration + 1)) = .relayExited := by
  rcases hs.relay (s.connectionGeneration + 1) with hexit | ⟨r, conn, -, -, hinstalled, -⟩
  · exact hexit
  · have hlt := (List.getElem?_eq_some_iff.mp hinstalled).1
    rw [← hs.generation] at hlt
    omega

/-- **What an action does to the slots**: at most one task moves. -/
theorem step_slots (hs : s.TasksSound) (h : s.step env a = some t) :
    (∃ i, Moves s t a i) ∨ Idles s t := by
  cases step_cases h with
  | call n c q result hp hm =>
      have hcall : s.call (.host n) c = some t := by simpa [step, hp] using h
      refine .inl ⟨.host n, slots_call hcall, .inr ⟨result, hp⟩, fun j hj => .inl ?_⟩
      rw [hm.pc, Function.update_of_ne hj]
  | resume i input q hp hm =>
      refine .inl ⟨i, slots_resume h, .inl ⟨input, rfl⟩, fun j hj => .inl ?_⟩
      rw [hm.pc, Function.update_of_ne hj]
  | install i input c conn hp hconn hstopped ht =>
      refine .inl ⟨i, slots_resume h, .inl ⟨input, rfl⟩, fun j hj => ?_⟩
      rw [ht]
      by_cases hjr : j = .relay (s.connectionGeneration + 1)
      · subst hjr
        exact .inr (.inl ⟨hs.next_relay, ⟨c, conn.sent.length⟩,
          by simp [goto, Gate.Tasks.goto, hj]⟩)
      · exact .inl (by simp [goto, Gate.Tasks.goto, hj, hjr])
  | abort i input hp ht =>
      refine .inl ⟨i, slots_resume h, .inl ⟨input, rfl⟩, fun j hj => ?_⟩
      rw [ht]
      cases j with
      | host m => exact .inl (by simp [shutdownFinish, goto, Gate.Tasks.goto, hj])
      | relay g =>
          exact .inr (.inr ⟨hp, ⟨g, rfl⟩, by simp [shutdownFinish, goto, Gate.Tasks.goto, hj]⟩)
  | engine c input conn next hconn hstep ht =>
      subst ht
      exact .inr ⟨rfl, rfl, fun _ => .inl rfl, rfl, rfl, rfl, rfl⟩
  | close c ht => subst ht; exact .inr ⟨rfl, rfl, fun _ => .inl rfl, rfl, rfl, rfl, rfl⟩
  | worker w input worker next sealed keyCache hworker hstep ht =>
      have hkey : t.keyCache = if next.status.isTerminal then
          s.keyCache.remove worker.codec.sessionId else s.keyCache := by
        have hturn : s.stepWorker env w input = some t := h
        simp only [stepWorker, hworker, hstep, Option.map_some, Option.some.injEq] at hturn
        rw [← hturn]
      refine .inr ⟨by rw [ht], by rw [ht], fun id => ?_, by rw [ht], by rw [ht], by rw [ht],
        by rw [ht]⟩
      rw [hkey]
      split
      · exact remove_or _ _ _
      · exact .inl rfl

/-- A counter that a task reached without moving is one it was at, or that of a relay
outside of any join. -/
theorem Moves.pc_or (h : Moves s t a i) (hj : j ≠ i) (hrelay : ∀ r, t.tasks.pc j ≠ .relayTop r)
    (hexited : t.tasks.pc j ≠ .relayExited) : t.tasks.pc j = s.tasks.pc j := by
  rcases h.others j hj with heq | ⟨-, r, hr⟩ | ⟨-, -, hr⟩
  · exact heq
  · exact absurd hr (hrelay r)
  · exact absurd hr hexited

end Client

end ZephyrVox.Sdk
