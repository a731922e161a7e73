import ZephyrVox.Sdk.Client
import ZephyrVox.Voice.Lifecycle

/-!
# One successful leave

The calls that tear down one facade session: `close` and `leave` on any of its clones,
and `leave_voice` of a client that is not shut down, against the UDP worker of the
session. A call holds the teardown lock while it closes the transport, reads the control
id and awaits the answer of the HTTP leave. The flag `left` is set only when the
transport was closed and the answer was a success.

The transport is the `Lifecycle` of the session, so a close can find that the worker has
dropped the receiver of its stop request. That close fails, and a leave whose mutation
succeeds after it is reported as failed and stays retryable.

## Main definitions

* `FacadeSession` — the transport, the flag, the lock and gate, the tasks and the HTTP
  leaves that were sent; `FacadeSession.step`.
* `Timely` — an HTTP leave does not succeed for a leave that closed too late.
* `LeftOnce` — nothing is sent after the first success.
* `leave_sent_once` — runs of timely steps leave once, and later leaves return `Ok`.
* `leave_sent_twice` — a run with a step that is not timely.
-/

namespace ZephyrVox.Sdk

open Transition Gate Voice

/-! ## The calls of one session -/

/-- A call that tears a session down. -/
inductive Teardown
  /-- `VoiceSession::close`, and the closes of the client itself. -/
  | close
  /-- `VoiceSession::leave`. -/
  | leave
  /-- `Client::leave_voice`. -/
  | leaveVoice
  deriving DecidableEq, Repr

/-- Where a call stands. -/
inductive TeardownPc
  | idle
  /-- `leave_voice` waits for the voice gate. -/
  | gate
  /-- With the gate, about to take the session of the client. -/
  | take
  /-- The client has another session by now, which is left instead. -/
  | elsewhere
  /-- Waits for the teardown lock. -/
  | lock (call : Teardown)
  /-- Awaits call `j` of the transport. -/
  | closing (call : Teardown) (j : ℕ)
  /-- About to read the control id. -/
  | control (call : Teardown) (closed : Except VoiceError Unit)
  /-- Awaits the answer of the HTTP leave. -/
  | leaving (call : Teardown) (closed : Except VoiceError Unit)
  /-- `leave_voice` is about to restore the session it failed to leave. -/
  | restore (error : SdkError)
  | returned (call : Teardown) (result : Except SdkError Unit)
  deriving DecidableEq

/-- Between taking the teardown lock and releasing it. -/
def TeardownPc.HoldsLock : TeardownPc → Prop
  | .closing _ _ | .control _ _ | .leaving _ _ => True
  | _ => False

/-- The voice session of the client. -/
inductive VoiceSlot
  | empty
  | this
  | other
  deriving DecidableEq, Repr

/-- What happened to the HTTP leaves of a session. -/
inductive LeaveEvent
  | sent (i : ℕ)
  | succeeded (i : ℕ)
  deriving DecidableEq, Repr

/-- A facade session with everything that tears it down. -/
structure FacadeSession where
  transport : Lifecycle
  left : Bool
  /-- The calls; the mutex is the teardown lock. -/
  tasks : Tasks ℕ TeardownPc
  /-- The holder of the voice gate. -/
  gate : Option ℕ
  slot : VoiceSlot
  /-- The HTTP leaves, oldest first. -/
  leaves : List LeaveEvent
  /-- The calls whose stop request came after the worker had returned. -/
  late : List ℕ

/-- What can happen to a session. -/
inductive TeardownAction
  | invoke (i : ℕ) (call : Teardown)
  /-- The next step of a call up to its close, or after its leave. -/
  | proceed (i : ℕ)
  /-- A leave reads the control id. -/
  | control (i : ℕ) (present : Bool)
  /-- The HTTP leave is answered. -/
  | respond (i : ℕ) (answer : Except Http.HttpError Unit)
  /-- A step of the worker or of a close of the transport. -/
  | transport (action : LifecycleAction)
  /-- A join puts another session in the place of this one, or it is taken. -/
  | displace (slot : VoiceSlot)
  deriving DecidableEq

/-- Where a call starts. -/
def Teardown.start : Teardown → TeardownPc
  | .leaveVoice => .gate
  | call => .lock call

/-- Whether a call of the transport is about to send its stop request. -/
def sending (pc : CallPc) : Bool :=
  match pc with
  | .send => true
  | _ => false

namespace FacadeSession

/-- A session that its client has joined. -/
def new : FacadeSession where
  transport := .new
  left := false
  tasks := ⟨none, fun _ => .idle⟩
  gate := none
  slot := .this
  leaves := []
  late := []

/-- Where a call goes on when it releases the teardown lock. -/
def after (call : Teardown) (result : Except SdkError Unit) : TeardownPc :=
  match call, result with
  | .leaveVoice, .error e => .restore e
  | call, result => .returned call result

/-- Release the teardown lock. A `leave_voice` that succeeded releases the gate too. -/
def conclude (s : FacadeSession) (i : ℕ) (call : Teardown) (result : Except SdkError Unit) :
    FacadeSession where
  transport := s.transport
  left := s.left
  tasks := s.tasks.release i (after call result)
  gate :=
    match call, result with
    | .leaveVoice, .ok () => none
    | _, _ => s.gate
  slot := s.slot
  leaves := s.leaves
  late := s.late

/-- Take the teardown lock. A leave of a session that was left is done; any other call
closes the transport. -/
def lockTeardown (s : FacadeSession) (i : ℕ) (call : Teardown) : Option FacadeSession :=
  if call ≠ .close ∧ s.left = true then
    if s.tasks.holder = none then some (s.conclude i call (.ok ())) else none
  else
    (s.tasks.acquire i (.closing call s.transport.calls.length)).bind fun tasks =>
      (s.transport.step (.invoke .close)).map fun transport =>
        { s with tasks := tasks, transport := transport }

/-- The transport answered a close. -/
def closed (s : FacadeSession) (i : ℕ) (call : Teardown) (j : ℕ) : Option FacadeSession :=
  match s.transport.calls[j]? with
  | some ⟨_, .returned result⟩ =>
      match call with
      | .close => some (s.conclude i .close (result.mapError .voice))
      | call => some { s with tasks := s.tasks.goto i (.control call result) }
  | _ => none

/-- The end of a leave. -/
def finishLeave (s : FacadeSession) (i : ℕ) (call : Teardown) (closed : Except VoiceError Unit)
    (left : Except SdkError Unit) : FacadeSession :=
  match closed, left with
  | .error e, _ => s.conclude i call (.error (.voice e))
  | .ok (), .error e => s.conclude i call (.error e)
  | .ok (), .ok () => { s with left := true }.conclude i call (.ok ())

/-- The calls that were late, after a step of the transport. -/
def lateAfter (s : FacadeSession) : LifecycleAction → List ℕ
  | .call j =>
      if s.transport.worker = .exited ∧ s.transport.calls[j]?.any (fun c => sending c.pc) = true
      then s.late ++ s.tasks.holder.toList
      else s.late
  | _ => s.late

/-- The next step of a call that awaits nothing but locks and its close. -/
def proceed (s : FacadeSession) (i : ℕ) : Option FacadeSession :=
  match s.tasks.pc i with
  | .gate =>
      if s.gate = none then some { s with gate := some i, tasks := s.tasks.goto i .take } else none
  | .take =>
      match s.slot with
      | .empty =>
          some { s with gate := none, tasks := s.tasks.goto i (.returned .leaveVoice (.ok ())) }
      | .this => some { s with slot := .empty, tasks := s.tasks.goto i (.lock .leaveVoice) }
      | .other => some { s with gate := none, tasks := s.tasks.goto i .elsewhere }
  | .lock call => s.lockTeardown i call
  | .closing call j => s.closed i call j
  | .restore e =>
      some { s with
        slot := .this
        gate := none
        tasks := s.tasks.goto i (.returned .leaveVoice (.error e)) }
  | _ => none

/-- One step. -/
def step (s : FacadeSession) : TeardownAction → Option FacadeSession
  | .invoke i call =>
      match s.tasks.pc i with
      | .idle => some { s with tasks := s.tasks.goto i call.start }
      | _ => none
  | .proceed i => s.proceed i
  | .control i present =>
      match s.tasks.pc i with
      | .control call closed =>
          if present then
            some { s with
              leaves := s.leaves ++ [.sent i]
              tasks := s.tasks.goto i (.leaving call closed) }
          else some (s.finishLeave i call closed (.error .voiceControlUnavailable))
      | _ => none
  | .respond i answer =>
      match s.tasks.pc i, answer with
      | .leaving call closed, .ok () =>
          some ({ s with leaves := s.leaves ++ [LeaveEvent.succeeded i] }.finishLeave i call closed
            (.ok ()))
      | .leaving call closed, .error e => some (s.finishLeave i call closed (.error (.http e)))
      | _, _ => none
  -- Only the calls of the session close its transport.
  | .transport (.invoke _) => none
  | .transport action =>
      (s.transport.step action).map fun transport =>
        { s with transport := transport, late := s.lateAfter action }
  | .displace slot =>
      if s.gate = none ∧ slot ≠ .this then some { s with slot := slot } else none

end FacadeSession

/-- The HTTP leave does not succeed for a call whose stop request came after the worker had
returned. -/
def Timely (s : FacadeSession) (action : TeardownAction) : Prop :=
  ∀ i, action = .respond i (.ok ()) → i ∉ s.late

/-- No HTTP leave is sent after one has succeeded. -/
def LeftOnce (leaves : List LeaveEvent) : Prop :=
  leaves.Pairwise fun a b => ∀ i j, a = .succeeded i → b ≠ .sent j

namespace FacadeSession

variable {s t : FacadeSession} {action : TeardownAction} {i : ℕ} {call : Teardown}

/-! ## What a step does -/

@[simp] theorem transport_conclude (result : Except SdkError Unit) :
    (s.conclude i call result).transport = s.transport := rfl

@[simp] theorem left_conclude (result : Except SdkError Unit) :
    (s.conclude i call result).left = s.left := rfl

@[simp] theorem tasks_conclude (result : Except SdkError Unit) :
    (s.conclude i call result).tasks = s.tasks.release i (after call result) := rfl

@[simp] theorem leaves_conclude (result : Except SdkError Unit) :
    (s.conclude i call result).leaves = s.leaves := rfl

@[simp] theorem late_conclude (result : Except SdkError Unit) :
    (s.conclude i call result).late = s.late := rfl

/-- A counter of a call that is before its teardown, or has ended well. -/
def Calm : TeardownPc → Prop
  | .gate | .take | .elsewhere | .lock _ | .returned _ (.ok ()) => True
  | _ => False

theorem after_ok (call : Teardown) : after call (.ok ()) = .returned call (.ok ()) := by
  cases call <;> rfl

theorem not_holdsLock_after (call : Teardown) (result : Except SdkError Unit) :
    ¬ (after call result).HoldsLock := by
  unfold after
  split <;> exact id

/-- A counter of a call that has not taken the teardown lock yet. -/
def Waits : TeardownPc → Prop
  | .idle | .gate | .take | .lock _ => True
  | _ => False

/-- **Every step**, by what it does to the lock, the transport and the leaves. -/
inductive Move (s : FacadeSession) : TeardownAction → FacadeSession → Prop
  /-- A call moves without the lock. -/
  | outside {action : TeardownAction} (i : ℕ) (p : TeardownPc) (gate : Option ℕ)
      (slot : VoiceSlot) (before : ¬ (s.tasks.pc i).HoldsLock) (after : ¬ p.HoldsLock)
      (calm : Calm p ∨ ∃ e, s.tasks.pc i = .restore e)
      (begun : Waits p → Waits (s.tasks.pc i)) :
      Move s action { s with tasks := s.tasks.goto i p, gate := gate, slot := slot }
  /-- A call takes the lock and starts to close the transport. -/
  | closes {action : TeardownAction} (i : ℕ) (call : Teardown) (pc : s.tasks.pc i = .lock call)
      (free : s.tasks.holder = none) (fresh : call ≠ .close → s.left = false) :
      Move s action { s with
        tasks := ⟨some i,
          Function.update s.tasks.pc i (.closing call s.transport.calls.length)⟩
        transport := { s.transport with calls := s.transport.calls ++ [⟨.close, .check⟩] } }
  /-- A close has its answer. -/
  | closed {action : TeardownAction} (i j : ℕ) (answered : TerminationCall)
      (result : Except VoiceError Unit) (pc : s.tasks.pc i = .closing .close j)
      (at_j : s.transport.calls[j]? = some answered)
      (returned : answered.pc = .returned result) :
      Move s action (s.conclude i .close (result.mapError .voice))
  /-- A leave has the answer of its close. -/
  | stopped {action : TeardownAction} (i j : ℕ) (call : Teardown) (answered : TerminationCall)
      (result : Except VoiceError Unit) (pc : s.tasks.pc i = .closing call j)
      (leave : call ≠ .close) (at_j : s.transport.calls[j]? = some answered)
      (returned : answered.pc = .returned result) :
      Move s action { s with tasks := s.tasks.goto i (.control call result) }
  /-- There is no control id. -/
  | unavailable {action : TeardownAction} (i : ℕ) (call : Teardown)
      (closed : Except VoiceError Unit) (pc : s.tasks.pc i = .control call closed) :
      Move s action (s.finishLeave i call closed (.error .voiceControlUnavailable))
  | sent {action : TeardownAction} (i : ℕ) (call : Teardown) (closed : Except VoiceError Unit)
      (pc : s.tasks.pc i = .control call closed) :
      Move s action { s with
        leaves := s.leaves ++ [.sent i]
        tasks := s.tasks.goto i (.leaving call closed) }
  | failed {action : TeardownAction} (i : ℕ) (call : Teardown) (closed : Except VoiceError Unit)
      (e : SdkError) (pc : s.tasks.pc i = .leaving call closed) :
      Move s action (s.finishLeave i call closed (.error e))
  | succeeded (i : ℕ) (call : Teardown) (closed : Except VoiceError Unit)
      (pc : s.tasks.pc i = .leaving call closed) :
      Move s (.respond i (.ok ()))
        ({ s with leaves := s.leaves ++ [LeaveEvent.succeeded i] }.finishLeave i call closed
          (.ok ()))
  | transport (action : LifecycleAction) (transport : Lifecycle)
      (own : ∀ termination, action ≠ .invoke termination)
      (stepped : s.transport.step action = some transport) :
      Move s (.transport action)
        { s with transport := transport, late := s.lateAfter action }
  | displace {action : TeardownAction} (slot : VoiceSlot) : Move s action { s with slot := slot }

theorem proceed_move (h : s.proceed i = some t) : Move s action t := by
  unfold proceed at h
  split at h
  case h_1 hpc =>
    obtain ⟨-, h⟩ := Option.ite_none_right_eq_some.mp h
    cases h
    exact .outside i .take _ s.slot (by rw [hpc]; exact id) id (.inl trivial)
      (by rw [hpc]; exact id)
  case h_2 hpc =>
    have hout : ¬ (s.tasks.pc i).HoldsLock := by rw [hpc]; exact id
    have hwaits {p : TeardownPc} : Waits p → Waits (s.tasks.pc i) := by
      rw [hpc]
      exact fun _ => trivial
    split at h <;> cases h
    · exact .outside i _ none s.slot hout id (.inl trivial) hwaits
    · exact .outside i _ s.gate .empty hout id (.inl trivial) hwaits
    · exact .outside i _ none s.slot hout id (.inl trivial) hwaits
  case h_3 call hpc =>
    have hout : ¬ (s.tasks.pc i).HoldsLock := by rw [hpc]; exact id
    unfold lockTeardown at h
    split at h
    · obtain ⟨hfree, h⟩ := Option.ite_none_right_eq_some.mp h
      cases h
      have hsame : s.conclude i call (.ok ()) =
          { s with
            tasks := s.tasks.goto i (.returned call (.ok ()))
            gate := (s.conclude i call (.ok ())).gate
            slot := s.slot } := by
        simp [conclude, Tasks.release, Tasks.goto, hfree, after_ok]
      rw [hsame]
      exact .outside i _ _ s.slot hout id (.inl trivial) (by rw [hpc]; exact fun _ => trivial)
    case isFalse hfresh =>
      obtain ⟨tasks, hacquire, h⟩ := Option.bind_eq_some_iff.mp h
      cases h
      obtain ⟨hfree, hholder, hupdate⟩ := Tasks.acquire_eq_some hacquire
      obtain ⟨holder, pc⟩ := tasks
      cases hholder
      cases hupdate
      refine .closes i call hpc hfree fun hleave => ?_
      simpa [hleave] using hfresh
  case h_4 call j hpc =>
    unfold closed at h
    split at h
    case h_1 termination result hanswered =>
      cases call with
      | close =>
          cases h
          exact .closed i j _ result hpc hanswered rfl
      | leave | leaveVoice =>
          cases h
          exact .stopped i j _ _ result hpc (by decide) hanswered rfl
    · cases h
  case h_5 e hpc =>
    cases h
    exact .outside i _ none .this (by rw [hpc]; exact id) id (.inr ⟨e, hpc⟩) (by rw [hpc]; exact id)
  · cases h

theorem step_move (h : s.step action = some t) : Move s action t := by
  cases action with
  | invoke i call =>
      simp only [step] at h
      split at h
      case h_1 hpc =>
        cases h
        have hout : ¬ (s.tasks.pc i).HoldsLock := by rw [hpc]; exact id
        have hwaits {p : TeardownPc} : Waits p → Waits (s.tasks.pc i) := by
          rw [hpc]
          exact fun _ => trivial
        cases call <;> exact .outside i _ s.gate s.slot hout id (.inl trivial) hwaits
      · cases h
  | proceed i => exact proceed_move h
  | control i present =>
      simp only [step] at h
      split at h
      case h_1 call closed hpc =>
        cases present with
        | true =>
            cases h
            exact .sent i call closed hpc
        | false =>
            cases h
            exact .unavailable i call closed hpc
      · cases h
  | respond i answer =>
      simp only [step] at h
      split at h
      case h_1 call closed hpc =>
        cases h
        exact .succeeded i call closed hpc
      case h_2 call closed e hpc =>
        cases h
        exact .failed i call closed _ hpc
      · cases h
  | transport action =>
      cases action with
      | invoke termination => cases h
      | _ =>
          obtain ⟨transport, hstep, rfl⟩ := Option.map_eq_some_iff.mp h
          exact .transport _ transport (fun _ h => by cases h) hstep
  | displace slot =>
      obtain ⟨-, h⟩ := Option.ite_none_right_eq_some.mp h
      cases h
      exact .displace slot

/-! ## The invariant -/

/-- Every call has returned. -/
def Answered (calls : List TerminationCall) : Prop := ∀ call ∈ calls, ∃ r, call.pc = .returned r

/-- What the answer of a close says. -/
def CloseKnown (s : FacadeSession) (i : ℕ) (answer : Except VoiceError Unit) : Prop :=
  (answer = .ok () ∧ s.transport.status.isTerminal = true ∧ i ∉ s.late) ∨
    (answer = .error .closed ∧ i ∈ s.late)

/-- What a call relies on while it holds the teardown lock. -/
def Holding (s : FacadeSession) (i : ℕ) : TeardownPc → Prop
  | .closing call j => ∃ done current, s.transport.calls = done ++ [current] ∧ j = done.length ∧
      Answered done ∧ (call ≠ .close → s.left = false) ∧
      ((∀ answer, current.pc ≠ .returned answer) → i ∉ s.late) ∧
      ∀ answer, current.pc = .returned answer → s.CloseKnown i answer
  | .control _ answer | .leaving _ answer =>
      Answered s.transport.calls ∧ s.left = false ∧ s.CloseKnown i answer
  | _ => True

/-- The invariant of one session. Its transport has one call at a time, that of the holder
of the teardown lock, and is closed for good before `left` is set. -/
structure Sound (s : FacadeSession) : Prop where
  lock : s.tasks.Exclusive TeardownPc.HoldsLock
  holding : ∀ i, s.Holding i (s.tasks.pc i)
  free : s.tasks.holder = none → Answered s.transport.calls
  published : s.transport.Published
  left : s.left = true → s.transport.status.isTerminal = true ∧
    ∀ call ∈ s.transport.calls, call.pc = .check ∨ ∃ r, call.pc = .returned r
  late : s.late ≠ [] → s.transport.worker = .exited
  begun : ∀ i ∈ s.late, ¬ Waits (s.tasks.pc i)
  fresh : ∃ n, ∀ k, n ≤ k → s.tasks.pc k = .idle

theorem answered_append {done : List TerminationCall} {current : TerminationCall}
    (hdone : Answered done) {r : Except VoiceError Unit} (hcurrent : current.pc = .returned r) :
    Answered (done ++ [current]) := by
  intro call hmem
  rcases List.mem_append.mp hmem with h | h
  · exact hdone call h
  · rw [List.mem_singleton.mp h]
    exact ⟨r, hcurrent⟩

theorem holding_of_not_holdsLock {p : TeardownPc} (h : ¬ p.HoldsLock) : s.Holding i p := by
  unfold TeardownPc.HoldsLock at h
  unfold Holding
  split <;> first | exact absurd trivial h | trivial

theorem sound_new : Sound new where
  lock j := by simp [new, TeardownPc.HoldsLock]
  holding _ := trivial
  free _ call hmem := by cases hmem
  published h := by cases h
  left h := by cases h
  late h := absurd rfl h
  begun i h := by cases h
  fresh := ⟨0, fun _ _ => rfl⟩

/-- One call moves; the others hold no lock, or are as they were. -/
theorem holding_update {p : TeardownPc} (hpc : t.tasks.pc = Function.update s.tasks.pc i p)
    (hothers : ∀ j, j ≠ i → t.Holding j (s.tasks.pc j)) (hp : t.Holding i p) :
    ∀ j, t.Holding j (t.tasks.pc j) := by
  intro j
  rw [hpc]
  by_cases hj : j = i
  · subst hj
    simpa using hp
  · rw [Function.update_of_ne hj]
    exact hothers j hj

theorem fresh_update {p : TeardownPc} (hfresh : ∃ n, ∀ k, n ≤ k → s.tasks.pc k = .idle)
    (hpc : t.tasks.pc = Function.update s.tasks.pc i p) :
    ∃ n, ∀ k, n ≤ k → t.tasks.pc k = .idle := by
  obtain ⟨n, hn⟩ := hfresh
  refine ⟨max n (i + 1), fun k hk => ?_⟩
  have hne : k ≠ i := by omega
  rw [hpc, Function.update_of_ne hne]
  exact hn k (by omega)

theorem begun_update {p : TeardownPc} (hbegun : ∀ j ∈ s.late, ¬ Waits (s.tasks.pc j))
    (hpc : t.tasks.pc = Function.update s.tasks.pc i p) (hlate : t.late = s.late)
    (hp : Waits p → Waits (s.tasks.pc i)) : ∀ j ∈ t.late, ¬ Waits (t.tasks.pc j) := by
  intro j hj
  rw [hlate] at hj
  rw [hpc]
  by_cases h : j = i
  · subst h
    simpa using fun hw => hbegun j hj (hp hw)
  · rw [Function.update_of_ne h]
    exact hbegun j hj

theorem not_waits_after (call : Teardown) (result : Except SdkError Unit) :
    ¬ Waits (after call result) := by
  unfold after
  split <;> exact id

/-- The calls other than the holder of the lock rely on nothing. -/
theorem Sound.others (S : s.Sound) (hi : (s.tasks.pc i).HoldsLock) (u : FacadeSession) :
    ∀ j, j ≠ i → u.Holding j (s.tasks.pc j) := fun j hj =>
  holding_of_not_holdsLock (S.lock.others hi j hj)

/-- **Releasing the lock** with every call of the transport answered. -/
theorem Sound.conclude (S : s.Sound) (hi : (s.tasks.pc i).HoldsLock)
    (hanswered : Answered s.transport.calls) (call : Teardown)
    (result : Except SdkError Unit) : (s.conclude i call result).Sound where
  lock := S.lock.release hi (not_holdsLock_after call result)
  holding := holding_update (s := s) rfl (S.others hi _)
    (holding_of_not_holdsLock (not_holdsLock_after call result))
  free _ := hanswered
  published := S.published
  left := S.left
  late := S.late
  begun := begun_update S.begun rfl rfl fun h => absurd h (not_waits_after call result)
  fresh := fresh_update S.fresh rfl

/-- **The end of a leave**: the flag is set if the close and the mutation succeeded. -/
theorem finishLeave_cases (s : FacadeSession) (i : ℕ) (call : Teardown)
    (closed : Except VoiceError Unit) (left : Except SdkError Unit) :
    (closed = .ok () ∧ left = .ok () ∧
      s.finishLeave i call closed left = { s with left := true }.conclude i call (.ok ())) ∨
    ((left = .ok () → closed ≠ .ok ()) ∧
      ∃ e, s.finishLeave i call closed left = s.conclude i call (.error e)) := by
  cases closed with
  | error e => exact .inr ⟨fun _ h => (by cases h), _, rfl⟩
  | ok _ =>
      cases left with
      | error e => exact .inr ⟨fun h => (by cases h), e, rfl⟩
      | ok _ => exact .inl ⟨rfl, rfl, rfl⟩

/-- The last call of a list that has index `j` at its end. -/
theorem eq_of_getElem?_length {done : List TerminationCall} {current call : TerminationCall}
    (h : (done ++ [current])[done.length]? = some call) : call = current := by
  simpa using h.symm

theorem Sound.finishLeave (S : s.Sound) {closed : Except VoiceError Unit}
    (hpc : s.tasks.pc i = .control call closed ∨ s.tasks.pc i = .leaving call closed)
    (left : Except SdkError Unit) : (s.finishLeave i call closed left).Sound := by
  have hholds : (s.tasks.pc i).HoldsLock := by rcases hpc with h | h <;> rw [h] <;> trivial
  have H := S.holding i
  obtain ⟨hanswered, -, hknown⟩ :
      Answered s.transport.calls ∧ s.left = false ∧ s.CloseKnown i closed := by
    rcases hpc with h | h <;> rw [h] at H <;> exact H
  obtain ⟨hclosed, -, hfinish⟩ | ⟨-, e, hfinish⟩ := finishLeave_cases s i call closed left
  · rw [hfinish]
    -- The close succeeded, so the transport has a terminal status.
    have hterminal : s.transport.status.isTerminal = true := by
      rcases hknown with ⟨-, h, -⟩ | ⟨h, -⟩
      · exact h
      · rw [hclosed] at h
        cases h
    have C := S.conclude hholds hanswered call (.ok ())
    exact {
      lock := C.lock
      holding := holding_update (s := s) rfl (S.others hholds _)
        (holding_of_not_holdsLock (not_holdsLock_after call (.ok ())))
      free := C.free
      published := C.published
      left := fun _ => ⟨hterminal, fun c hc => .inr (hanswered c hc)⟩
      late := C.late
      begun := C.begun
      fresh := C.fresh }
  · rw [hfinish]
    exact S.conclude hholds hanswered call (.error e)

/-- A call of the transport that can take a step is that of the holder of the lock. -/
theorem Sound.current (S : s.Sound) {j : ℕ} {c : TerminationCall} {l : Lifecycle}
    (hcall : s.transport.calls[j]? = some c) (hstep : s.transport.callStep j c = some l) :
    ∃ i call done, s.tasks.holder = some i ∧ s.tasks.pc i = .closing call j ∧
      s.transport.calls = done ++ [c] ∧ j = done.length := by
  have hmem : c ∈ s.transport.calls := List.mem_of_getElem? hcall
  have hactive : ¬ ∃ r, c.pc = .returned r := by
    rintro ⟨r, hr⟩
    simp [Lifecycle.callStep, hr] at hstep
  have hnot : ¬ Answered s.transport.calls := fun h => hactive (h c hmem)
  cases hholder : s.tasks.holder with
  | none => exact absurd (S.free hholder) hnot
  | some i =>
      have H := S.holding i
      have hholds := (S.lock i).mp hholder
      cases hpc : s.tasks.pc i with
      | closing call j' =>
          rw [hpc] at H
          obtain ⟨done, current, hcalls, rfl, hdone, -⟩ := H
          refine ⟨i, call, done, rfl, ?_⟩
          rw [hcalls] at hcall hmem
          rcases Nat.lt_or_ge j done.length with hlt | hge
          · rw [List.getElem?_append_left hlt] at hcall
            exact absurd (hdone c (List.mem_of_getElem? hcall)) hactive
          · have hlast : j = done.length := by
              have hbound := (List.getElem?_eq_some_iff.mp hcall).1
              simp at hbound
              omega
            subst hlast
            rw [eq_of_getElem?_length hcall]
            exact ⟨hpc, hcalls, rfl⟩
      | control call r | leaving call r =>
          rw [hpc] at H
          exact absurd H.1 hnot
      | _ =>
          rw [hpc] at hholds
          exact hholds.elim

/-- What the holder of the lock knows survives a change of the transport that keeps its
calls and a terminal status. -/
theorem holding_mono {p : TeardownPc} {i : ℕ} (h : s.Holding i p)
    (hcalls : t.transport.calls = s.transport.calls) (hleft : t.left = s.left)
    (hstatus : s.transport.status.isTerminal = true → t.transport.status.isTerminal = true)
    (hlate : t.late = s.late) : t.Holding i p := by
  have hknown (answer : Except VoiceError Unit) (h : s.CloseKnown i answer) :
      t.CloseKnown i answer := by
    unfold CloseKnown
    rw [hlate]
    exact h.imp_left fun h => ⟨h.1, hstatus h.2.1, h.2.2⟩
  cases p with
  | closing call j =>
      obtain ⟨done, current, hcurrent, hj, hdone, hfresh, htimely, hanswer⟩ := h
      exact ⟨done, current, hcalls.trans hcurrent, hj, hdone, fun hc => hleft.trans (hfresh hc),
        hlate ▸ htimely, fun answer ha => hknown answer (hanswer answer ha)⟩
  | control call answer | leaving call answer =>
      obtain ⟨hanswered, hfresh, hanswer⟩ := h
      refine ⟨?_, hleft.trans hfresh, hknown answer hanswer⟩
      rw [hcalls]
      exact hanswered
  | _ => trivial

theorem lateAfter_of_sent {j : ℕ} {c : TerminationCall} (hcall : s.transport.calls[j]? = some c)
    (hsend : c.pc = .send) (hexited : s.transport.worker = .exited)
    (hholder : s.tasks.holder = some i) : s.lateAfter (.call j) = s.late ++ [i] := by
  simp [lateAfter, hexited, hcall, hsend, sending, hholder]

theorem lateAfter_of_not_sent {j : ℕ} {c : TerminationCall}
    (hcall : s.transport.calls[j]? = some c)
    (hnot : ¬ (c.pc = .send ∧ s.transport.worker = .exited)) : s.lateAfter (.call j) = s.late := by
  have hcond : ¬ (s.transport.worker = .exited ∧
      s.transport.calls[j]?.any (fun c => sending c.pc) = true) := by
    rintro ⟨hexited, hsending⟩
    refine hnot ⟨?_, hexited⟩
    rw [hcall] at hsending
    cases hpc : c.pc <;> simp [hpc, sending] at hsending ⊢
  simp [lateAfter, hcond]

/-- A close of the transport takes a step. -/
theorem Sound.callStep (S : s.Sound) {j : ℕ} {c : TerminationCall} {l : Lifecycle}
    (hcall : s.transport.calls[j]? = some c) (hstep : s.transport.callStep j c = some l) :
    Sound { s with transport := l, late := s.lateAfter (.call j) } := by
  obtain ⟨i, call, done, hholder, hpc, hcalls, rfl⟩ := S.current hcall hstep
  have H := S.holding i
  rw [hpc] at H
  obtain ⟨done', current, hcalls', hlength, hdone, hfresh, htimely, -⟩ := H
  obtain ⟨rfl, rfl⟩ : done = done' ∧ c = current := by
    rw [hcalls] at hcalls'
    have hsame := List.append_inj hcalls' hlength
    exact ⟨hsame.1, by simpa using hsame.2⟩
  have hholds : (s.tasks.pc i).HoldsLock := by
    rw [hpc]
    trivial
  have hworker := (Lifecycle.callStep_spec hstep).1
  have hmoved (pc : CallPc) : s.transport.calls.set done.length { c with pc := pc } =
      done ++ [{ c with pc := pc }] := by simp [hcalls]
  have hnotfree (h : s.tasks.holder = none) : False := by
    rw [hholder] at h
    cases h
  -- A call that takes a step has no answer yet.
  have hactive : ∀ answer, c.pc ≠ .returned answer := by
    intro answer h
    simp [Lifecycle.callStep, h] at hstep
  have hspared := htimely hactive
  rcases Lifecycle.callStep_answer hstep with ⟨answer, rfl, hanswer⟩ |
    ⟨pc, hset, hgoes, hcheck, hsend, hstatus⟩
  · -- The close has its answer; the status is as it was.
    have hlate : s.lateAfter (.call done.length) = s.late ∧ answer = .ok () ∧
          s.transport.status.isTerminal = true ∨
        s.lateAfter (.call done.length) = s.late ++ [i] ∧ answer = .error .closed ∧
          s.transport.worker = .exited := by
      rcases hanswer with ⟨hok, hterminal, hnot⟩ | ⟨herror, hsend, hexited⟩
      · exact .inl ⟨lateAfter_of_not_sent hcall fun h => hnot h.1, hok, hterminal⟩
      · exact .inr ⟨lateAfter_of_sent hcall hsend hexited hholder, herror, hexited⟩
    refine ⟨S.lock, ?_, fun h => (hnotfree h).elim, S.published, ?_, ?_, ?_, S.fresh⟩
    · refine holding_update (s := s) (i := i) (p := s.tasks.pc i)
        (by simp) (S.others hholds _) ?_
      rw [hpc]
      refine ⟨done, _, hmoved _, rfl, hdone, hfresh, fun h => absurd rfl (h answer), ?_⟩
      intro answer' h
      cases h
      rcases hlate with ⟨hsame, hok, hterminal⟩ | ⟨hlater, herror, -⟩
      · exact .inl ⟨hok, hterminal, by simpa only [hsame] using hspared⟩
      · exact .inr ⟨herror, by simp only [hlater]; simp⟩
    · intro hleft
      obtain ⟨hterminal, hquiet⟩ := S.left hleft
      refine ⟨hterminal, fun k hk => ?_⟩
      rcases List.mem_or_eq_of_mem_set hk with hk | rfl
      · exact hquiet k hk
      · exact .inr ⟨answer, rfl⟩
    · intro hne
      rcases hlate with ⟨hsame, -⟩ | ⟨-, -, hexited⟩
      · simp only [hsame] at hne
        exact S.late hne
      · exact hexited
    · intro k hk
      rcases hlate with ⟨hsame, -⟩ | ⟨hlater, -⟩
      · simp only [hsame] at hk
        exact S.begun k hk
      · simp only [hlater] at hk
        rcases List.mem_append.mp hk with hk | hk
        · exact S.begun k hk
        · rw [List.mem_singleton.mp hk]
          simp [hpc, Waits]
  · -- The close goes on, so `left` is not set.
    have hlate : s.lateAfter (.call done.length) = s.late := lateAfter_of_not_sent hcall hsend
    have hleft : s.left = false := by
      rw [Bool.eq_false_iff]
      intro h
      obtain ⟨hterminal, hquiet⟩ := S.left h
      rcases hquiet c (List.mem_of_getElem? hcall) with h | ⟨r, h⟩
      · rw [hcheck h] at hterminal
        cases hterminal
      · exact hactive r h
    rw [hlate]
    refine ⟨S.lock, ?_, fun h => (hnotfree h).elim, ?_, ?_, ?_, S.begun, S.fresh⟩
    · refine holding_update (s := s) (i := i) (p := s.tasks.pc i)
        (by simp) (S.others hholds _) ?_
      rw [hpc]
      exact ⟨done, _, hset.trans (hmoved pc), rfl, hdone, hfresh, fun _ => hspared,
        fun answer h => absurd h (hgoes answer)⟩
    · intro hterminal
      rw [hworker]
      rcases hstatus with h | h
      · exact S.published (h ▸ hterminal)
      · rw [h] at hterminal
        cases hterminal
    · intro h
      rw [hleft] at h
      cases h
    · rw [hworker]
      exact S.late

/-- **The transport takes a step.** -/
theorem Sound.transport (S : s.Sound) {action : LifecycleAction} {l : Lifecycle}
    (hown : ∀ termination, action ≠ .invoke termination)
    (hstep : s.transport.step action = some l) :
    Sound { s with transport := l, late := s.lateAfter action } := by
  by_cases hcall : ∃ j, action = .call j
  · obtain ⟨j, rfl⟩ := hcall
    obtain ⟨c, hc, hstep⟩ := Option.bind_eq_some_iff.mp hstep
    exact S.callStep hc hstep
  · have hcall' : ∀ j, action ≠ .call j := fun j h => hcall ⟨j, h⟩
    obtain ⟨hcalls, hpublished, hworker, hstatus⟩ :=
      Lifecycle.internal_step S.published hcall' hown hstep
    have hlate : s.lateAfter action = s.late := by
      cases action with
      | call j => exact absurd rfl (hcall' j)
      | _ => rfl
    have hterminal : s.transport.status.isTerminal = true → l.status.isTerminal = true := by
      intro h
      rw [hstatus h]
      exact h
    rw [hlate]
    refine ⟨S.lock, fun i => ?_, fun hfree => ?_, hpublished, fun hleft => ?_, fun hne => ?_,
      S.begun, S.fresh⟩
    · exact holding_mono (S.holding i) hcalls rfl hterminal rfl
    · show Answered l.calls
      rw [hcalls]
      exact S.free hfree
    · obtain ⟨h, hquiet⟩ := S.left hleft
      refine ⟨hterminal h, ?_⟩
      rw [hcalls]
      exact hquiet
    · exact absurd (S.late hne) hworker

/-- **Every step keeps the invariant.** -/
theorem Sound.step (S : s.Sound) (h : s.step action = some t) : t.Sound := by
  cases step_move h with
  | outside i p gate slot before after calm begun =>
      refine ⟨S.lock.goto (iff_of_false after before), ?_, S.free, S.published, S.left, S.late,
        begun_update S.begun rfl rfl begun, fresh_update S.fresh rfl⟩
      exact holding_update (s := s) rfl
        (fun j _ => holding_mono (S.holding j) rfl rfl id rfl)
        (holding_of_not_holdsLock after)
  | closes i call pc free fresh =>
      have hanswered := S.free free
      refine ⟨?_, ?_, (fun h => by cases h), S.published, ?_, S.late,
        begun_update S.begun rfl rfl False.elim, fresh_update S.fresh rfl⟩
      · exact S.lock.move rfl (.inr (.inl ⟨free, rfl, trivial⟩))
      · refine holding_update (s := s) rfl
          (fun j _ => holding_of_not_holdsLock (S.lock.free free j)) ?_
        refine ⟨_, _, rfl, rfl, hanswered, fresh, fun _ hlate => ?_, fun _ h => by cases h⟩
        exact S.begun i hlate (by rw [pc]; trivial)
      · intro hleft
        refine ⟨(S.left hleft).1, fun c hc => ?_⟩
        rcases List.mem_append.mp hc with hc | hc
        · exact .inr (hanswered c hc)
        · rw [List.mem_singleton.mp hc]
          exact .inl rfl
  | closed i j answered result pc at_j returned =>
      have H := S.holding i
      rw [pc] at H
      obtain ⟨done, current, hcalls, rfl, hdone, -⟩ := H
      rw [hcalls] at at_j
      rw [eq_of_getElem?_length at_j] at returned
      exact S.conclude (by rw [pc]; trivial)
        (hcalls.symm ▸ answered_append hdone returned) .close _
  | stopped i j call answered result pc leave at_j returned =>
      have hholds : (s.tasks.pc i).HoldsLock := by
        rw [pc]
        trivial
      have H := S.holding i
      rw [pc] at H
      obtain ⟨done, current, hcalls, rfl, hdone, hfresh, -, hanswer⟩ := H
      rw [hcalls] at at_j
      rw [eq_of_getElem?_length at_j] at returned
      refine ⟨S.lock.goto (iff_of_true trivial hholds), ?_, S.free, S.published, S.left, S.late,
        begun_update S.begun rfl rfl False.elim, fresh_update S.fresh rfl⟩
      refine holding_update (s := s) rfl (S.others hholds _) ?_
      exact ⟨hcalls.symm ▸ answered_append hdone returned, hfresh leave, hanswer _ returned⟩
  | unavailable i call closed pc => exact S.finishLeave (.inl pc) _
  | sent i call closed pc =>
      have hholds : (s.tasks.pc i).HoldsLock := by
        rw [pc]
        trivial
      have H := S.holding i
      rw [pc] at H
      refine ⟨S.lock.goto (iff_of_true trivial hholds), ?_, S.free, S.published, S.left, S.late,
        begun_update S.begun rfl rfl False.elim, fresh_update S.fresh rfl⟩
      exact holding_update (s := s) rfl (S.others hholds _) H
  | failed i call closed e pc => exact S.finishLeave (.inr pc) _
  | succeeded i call closed pc =>
      have S' : Sound { s with leaves := s.leaves ++ [LeaveEvent.succeeded i] } :=
        ⟨S.lock, S.holding, S.free, S.published, S.left, S.late, S.begun,
          S.fresh⟩
      exact S'.finishLeave (.inr pc) _
  | transport action l own stepped => exact S.transport own stepped
  | displace slot =>
      exact ⟨S.lock, S.holding, S.free, S.published, S.left, S.late, S.begun,
          S.fresh⟩

/-! ## What is sent -/

/-- A leave that reads the control id or awaits its answer was not done before. -/
theorem Sound.left_eq_false (S : s.Sound) {closed : Except VoiceError Unit}
    (hpc : s.tasks.pc i = .control call closed ∨ s.tasks.pc i = .leaving call closed) :
    s.left = false := by
  have H := S.holding i
  rcases hpc with h | h <;> rw [h] at H <;> exact H.2.1

/-- **A leave that succeeded** sets `left`, unless its close was late. -/
theorem Sound.answered (S : s.Sound) {closed : Except VoiceError Unit}
    (pc : s.tasks.pc i = .leaving call closed)
    (ht : t = { s with leaves := s.leaves ++ [LeaveEvent.succeeded i] }.finishLeave i call closed
      (.ok ())) :
    t.leaves = s.leaves ++ [.succeeded i] ∧ (i ∉ s.late → t.left = true) ∧
      (i ∈ s.late → t.left = false ∧ t.tasks.holder = none ∧ t.transport = s.transport) := by
  have H := S.holding i
  rw [pc] at H
  obtain ⟨-, hfresh, hknown⟩ := H
  obtain ⟨hclosed, -, hfinish⟩ | ⟨hclosed, e, hfinish⟩ := finishLeave_cases
    { s with leaves := s.leaves ++ [LeaveEvent.succeeded i] } i call closed (.ok ())
  · rw [ht, hfinish]
    refine ⟨rfl, fun _ => rfl, fun hlate => ?_⟩
    rcases hknown with ⟨-, -, hnot⟩ | ⟨herror, -⟩
    · exact absurd hlate hnot
    · rw [hclosed] at herror
      cases herror
  · rw [ht, hfinish]
    refine ⟨rfl, fun hnot => ?_, fun _ => ⟨hfresh, rfl, rfl⟩⟩
    rcases hknown with ⟨hok, -⟩ | ⟨-, hlate⟩
    · exact absurd hok (hclosed rfl)
    · exact absurd hlate hnot

/-- A mutation that succeeds was awaited. -/
theorem succeeded_cases (h : s.step (.respond i (.ok ())) = some t) :
    ∃ call closed, s.tasks.pc i = .leaving call closed ∧
      t = { s with leaves := s.leaves ++ [LeaveEvent.succeeded i] }.finishLeave i call closed
        (.ok ()) := by
  simp only [step] at h
  split at h
  case h_1 call closed hpc _ =>
    cases h
    exact ⟨call, closed, hpc, rfl⟩
  case h_2 herror =>
    cases herror
  · cases h

/-- **What a step sends.** A mutation is sent only before `left` is set, and a success sets
it unless the close of that leave was late. -/
theorem Sound.leaves_step (S : s.Sound) (h : s.step action = some t) :
    (t.leaves = s.leaves ∧ (s.left = true → t.left = true)) ∨
    (∃ i, t.leaves = s.leaves ++ [.sent i] ∧ s.left = false ∧ t.left = false) ∨
    ∃ i, action = .respond i (.ok ()) ∧ t.leaves = s.leaves ++ [.succeeded i] ∧
      (i ∉ s.late → t.left = true) := by
  cases step_move h with
  | unavailable i call closed pc =>
      refine .inl ?_
      obtain ⟨-, h, -⟩ | ⟨-, e, hfinish⟩ :=
        finishLeave_cases s i call closed (.error .voiceControlUnavailable)
      · cases h
      · rw [hfinish]
        exact ⟨rfl, id⟩
  | sent i call closed pc =>
      exact .inr (.inl ⟨i, rfl, S.left_eq_false (.inl pc), S.left_eq_false (.inl pc)⟩)
  | failed i call closed e pc =>
      refine .inl ?_
      obtain ⟨-, h, -⟩ | ⟨-, e', hfinish⟩ := finishLeave_cases s i call closed (.error e)
      · cases h
      · rw [hfinish]
        exact ⟨rfl, id⟩
  | succeeded i call closed pc =>
      obtain ⟨hleaves, hset, -⟩ := S.answered pc rfl
      exact .inr (.inr ⟨i, rfl, hleaves, hset⟩)
  | outside | closes | closed | stopped | transport | displace => exact .inl ⟨rfl, id⟩

/-- A session that was left is not left again. -/
structure Once (s : FacadeSession) : Prop where
  flagged : ∀ i, .succeeded i ∈ s.leaves → s.left = true
  once : LeftOnce s.leaves

theorem once_new : Once new where
  flagged i h := by cases h
  once := List.Pairwise.nil

theorem Once.step (O : s.Once) (S : s.Sound) (htimely : Timely s action)
    (h : s.step action = some t) : t.Once := by
  rcases S.leaves_step h with ⟨hleaves, hleft⟩ | ⟨i, hleaves, hfresh, -⟩ |
    ⟨i, haction, hleaves, hset⟩
  · refine ⟨fun j hj => ?_, hleaves ▸ O.once⟩
    rw [hleaves] at hj
    exact hleft (O.flagged j hj)
  · -- Nothing has succeeded before.
    have hnone (j : ℕ) (hj : .succeeded j ∈ s.leaves) : False := by
      rw [O.flagged j hj] at hfresh
      cases hfresh
    constructor
    · intro j hj
      rw [hleaves] at hj
      rcases List.mem_append.mp hj with hj | hj
      · exact (hnone j hj).elim
      · simp at hj
    · rw [hleaves]
      refine List.pairwise_append.mpr ⟨O.once, List.pairwise_singleton _ _, ?_⟩
      rintro a ha b - j k rfl
      exact (hnone j ha).elim
  · refine ⟨fun _ _ => hset (htimely i haction), ?_⟩
    rw [hleaves]
    refine List.pairwise_append.mpr ⟨O.once, List.pairwise_singleton _ _, ?_⟩
    rintro a - b hb j k - rfl
    simp at hb

/-! ## Calls after a successful leave -/

/-- A counter of a call that does not send a leave and does not fail one. -/
def Harmless : TeardownPc → Prop
  | .idle | .gate | .take | .elsewhere | .lock _ => True
  | .closing call _ => call = .close
  | .returned call result => call ≠ .close → result = .ok ()
  | _ => False

theorem harmless_of_calm {p : TeardownPc} (h : Calm p) : Harmless p := by
  unfold Calm at h
  split at h <;> first | trivial | exact fun _ => rfl

/-- **A call of a session that was left stays harmless**, and the session stays left. -/
theorem Sound.harmless_step (S : s.Sound) {k : ℕ}
    (hs : s.left = true ∧ Harmless (s.tasks.pc k)) (h : s.step action = some t) :
    t.left = true ∧ Harmless (t.tasks.pc k) := by
  obtain ⟨hleft, hk⟩ := hs
  have hupdate {i : ℕ} {p : TeardownPc} (hp : k = i → Harmless p) :
      Harmless (Function.update s.tasks.pc i p k) := by
    by_cases hki : k = i
    · subst hki
      simpa using hp rfl
    · rw [Function.update_of_ne hki]
      exact hk
  have hnot {i : ℕ} {call : Teardown} {closed : Except VoiceError Unit}
      (hpc : s.tasks.pc i = .control call closed ∨ s.tasks.pc i = .leaving call closed) :
      False := by
    rw [S.left_eq_false hpc] at hleft
    cases hleft
  cases step_move h with
  | outside i p gate slot before after calm =>
      refine ⟨hleft, hupdate fun hki => ?_⟩
      rcases calm with hcalm | ⟨e, hrestore⟩
      · exact harmless_of_calm hcalm
      · rw [hki, hrestore] at hk
        exact hk.elim
  | closes i call pc free fresh =>
      refine ⟨hleft, hupdate fun _ => ?_⟩
      by_contra hleave
      rw [fresh hleave] at hleft
      cases hleft
  | closed i j answered result => exact ⟨hleft, hupdate fun _ h => absurd rfl h⟩
  | stopped i j call answered result pc leave =>
      refine ⟨hleft, hupdate fun hki => ?_⟩
      rw [hki, pc] at hk
      exact absurd hk leave
  | unavailable i call closed pc => exact (hnot (.inl pc)).elim
  | sent i call closed pc => exact (hnot (.inl pc)).elim
  | failed i call closed e pc => exact (hnot (.inr pc)).elim
  | succeeded i call closed pc => exact (hnot (.inr pc)).elim
  | transport | displace => exact ⟨hleft, hk⟩

/-- A call can go on to return success. -/
def CanSucceed (s : FacadeSession) (k : ℕ) (call : Teardown) : Prop :=
  ∃ rest t, exec step s rest = some t ∧ t.tasks.pc k = .returned call (.ok ())

theorem CanSucceed.cons {k : ℕ} (h : s.step action = some t) (ht : t.CanSucceed k call) :
    s.CanSucceed k call := by
  obtain ⟨rest, u, hexec, hpc⟩ := ht
  exact ⟨action :: rest, u, by simpa [h] using hexec, hpc⟩

/-- With the lock free, a leave of a session that was left returns at once. -/
theorem canSucceed_of_free {k : ℕ} (hleft : s.left = true) (hpc : s.tasks.pc k = .lock call)
    (hleave : call ≠ .close) (hfree : s.tasks.holder = none) : s.CanSucceed k call := by
  refine ⟨[.proceed k], s.conclude k call (.ok ()), ?_, ?_⟩
  · simp [step, proceed, hpc, lockTeardown, hleave, hleft, hfree]
  · simp [Tasks.release, after_ok]

/-- **A leave of a session that was left returns success**: whoever holds the lock is a close,
and its transport has stopped. -/
theorem Sound.canSucceed (S : s.Sound) {k : ℕ} (hleft : s.left = true)
    (hpc : s.tasks.pc k = .lock call) (hleave : call ≠ .close) : s.CanSucceed k call := by
  cases hholder : s.tasks.holder with
  | none => exact canSucceed_of_free hleft hpc hleave hholder
  | some i =>
      have hholds := (S.lock i).mp hholder
      have hki : k ≠ i := by
        rintro rfl
        rw [hpc] at hholds
        exact hholds
      have H := S.holding i
      cases hi : s.tasks.pc i with
      | closing call' j =>
          rw [hi] at H
          obtain ⟨done, current, hcalls, rfl, hdone, hfresh, -⟩ := H
          have hclose : call' = .close := by
            by_contra h
            rw [hfresh h] at hleft
            cases hleft
          subst hclose
          have hat : s.transport.calls[done.length]? = some current := by simp [hcalls]
          -- Once the close has its answer, it releases the lock.
          have hrelease {u : FacadeSession} {r : Except VoiceError Unit} (hu : u.left = true)
              (htasks : u.tasks = s.tasks) (hanswer : u.transport.calls[done.length]? =
                some ⟨current.termination, .returned r⟩) : u.CanSucceed k call := by
            have hstep : u.step (.proceed i) = some (u.conclude i .close (r.mapError .voice)) := by
              simp [FacadeSession.step, proceed, htasks, hi, closed, hanswer]
            refine .cons hstep (canSucceed_of_free hu ?_ hleave rfl)
            rw [tasks_conclude, Tasks.pc_release_of_ne _ _ hki, htasks, hpc]
          obtain ⟨hterminal, hquiet⟩ := S.left hleft
          rcases hquiet current (List.mem_of_getElem? hat) with hcheck | ⟨r, hr⟩
          · have hstep : s.step (.transport (.call done.length)) = some { s with
                transport := s.transport.goto done.length current (.returned (.ok ()))
                late := s.lateAfter (.call done.length) } := by
              simp [FacadeSession.step, Lifecycle.step, hat, Lifecycle.callStep, hcheck, hterminal]
            exact .cons hstep (hrelease hleft rfl (Lifecycle.getElem?_goto hat _))
          · exact hrelease hleft rfl (by rw [hat, ← hr])
      | control call' closed =>
          rw [S.left_eq_false (.inl hi)] at hleft
          cases hleft
      | leaving call' closed =>
          rw [S.left_eq_false (.inr hi)] at hleft
          cases hleft
      | _ =>
          rw [hi] at hholds
          exact hholds.elim

/-! ## After a leave that was not timely -/

/-- Steps of one close of the transport. -/
theorem exec_transport {n j : ℕ} {l : Lifecycle}
    (h : exec Lifecycle.step s.transport (List.replicate n (.call j)) = some l) :
    ∃ t, exec step s (List.replicate n (.transport (.call j))) = some t ∧ t.transport = l ∧
      t.tasks = s.tasks ∧ t.leaves = s.leaves := by
  induction n generalizing s with
  | zero =>
      cases h
      exact ⟨s, rfl, rfl, rfl, rfl⟩
  | succ n ih =>
      obtain ⟨m, hm, h⟩ := Option.bind_eq_some_iff.mp h
      have hstep : s.step (.transport (.call j)) =
          some { s with transport := m, late := s.lateAfter (.call j) } := by simp [step, hm]
      obtain ⟨t, ht, htransport, htasks, hleaves⟩ :=
        ih (s := { s with transport := m, late := s.lateAfter (.call j) }) h
      refine ⟨t, ?_, htransport, htasks, hleaves⟩
      rw [List.replicate_succ, exec_cons, hstep]
      exact ht

/-- **A session that is not left can be left again**, also after its worker has returned. -/
theorem Sound.sends_again (S : s.Sound) (hleft : s.left = false) (hfree : s.tasks.holder = none)
    (hexited : s.transport.worker = .exited) :
    ∃ rest t k, exec FacadeSession.step s rest = some t ∧ t.leaves = s.leaves ++ [.sent k] := by
  obtain ⟨k, hk⟩ := S.fresh
  have hidle := hk k le_rfl
  have hinvoke : s.step (.invoke k .leave) =
      some { s with tasks := s.tasks.goto k (.lock .leave) } := by
    simp [FacadeSession.step, hidle, Teardown.start]
  -- The leave takes the lock and starts to close the transport.
  obtain ⟨m, hm, hpc, hcalls, hworker, hleaves⟩ : ∃ m : FacadeSession,
      exec FacadeSession.step s [.invoke k .leave, .proceed k] = some m ∧
      m.tasks.pc k = .closing .leave s.transport.calls.length ∧
      m.transport.calls = s.transport.calls ++ [⟨.close, .check⟩] ∧
      m.transport.worker = .exited ∧ m.leaves = s.leaves := by
    refine ⟨{ s with
      tasks := ⟨some k, Function.update (s.tasks.goto k (.lock .leave)).pc k
        (.closing .leave s.transport.calls.length)⟩
      transport := { s.transport with calls := s.transport.calls ++ [⟨.close, .check⟩] } },
      ?_, by simp, rfl, hexited, rfl⟩
    have hproceed : ({ s with tasks := s.tasks.goto k (.lock .leave) } : FacadeSession).step
        (.proceed k) = some { s with
          tasks := ⟨some k, Function.update (s.tasks.goto k (.lock .leave)).pc k
            (.closing .leave s.transport.calls.length)⟩
          transport := { s.transport with
            calls := s.transport.calls ++ [⟨.close, .check⟩] } } := by
      simp [FacadeSession.step, proceed, lockTeardown, hleft, Tasks.acquire, Tasks.goto, hfree,
        Lifecycle.step]
    simp [hinvoke, hproceed]
  obtain ⟨n, l, result, hclose, hanswer⟩ :=
    Lifecycle.answers_of_exited (i := s.transport.calls.length) hworker (by simp [hcalls])
  obtain ⟨u, hu, htransport, htasks, huleaves⟩ := exec_transport hclose
  have hupc : u.tasks.pc k = .closing .leave s.transport.calls.length := by rw [htasks, hpc]
  have hstopped : u.step (.proceed k) =
      some { u with tasks := u.tasks.goto k (.control .leave result) } := by
    simp [FacadeSession.step, proceed, hupc, closed, htransport, hanswer]
  refine ⟨[.invoke k .leave, .proceed k] ++
    (List.replicate n (.transport (.call s.transport.calls.length)) ++
      [.proceed k, .control k true]), { u with
        leaves := u.leaves ++ [.sent k]
        tasks := (u.tasks.goto k (.control .leave result)).goto k (.leaving .leave result) },
    k, ?_, ?_⟩
  · rw [exec_append, hm, Option.bind_some, exec_append, hu, Option.bind_some]
    rw [exec_cons, hstopped, Option.bind_some]
    simp [FacadeSession.step]
  · show u.leaves ++ [.sent k] = s.leaves ++ [.sent k]
    rw [huleaves, hleaves]

end FacadeSession

open FacadeSession

/-- **Leave is sent at most once after it succeeds, unless its close was late.** In every run
of timely steps no HTTP leave is sent after one has succeeded, a leave that was called after
the success returns `Ok`, and one that waits for the teardown lock can. A step that is not
timely can be followed by another HTTP leave. -/
theorem leave_sent_once (before after : List TeardownAction) (s t : FacadeSession)
    (hs : exec FacadeSession.step FacadeSession.new before = some s)
    (ht : exec FacadeSession.step s after = some t) :
    (Along FacadeSession.step Timely FacadeSession.new (before ++ after) →
      LeftOnce t.leaves ∧
      ∀ i, .succeeded i ∈ s.leaves → ∀ k, s.tasks.pc k = .idle → ∀ call, call ≠ .close →
        (∀ result, t.tasks.pc k = .returned call result → result = .ok ()) ∧
          (t.tasks.pc k = .lock call → t.CanSucceed k call)) ∧
    ∀ action u, ¬ Timely t action → t.step action = some u →
      ∃ rest v, exec FacadeSession.step u rest = some v ∧ ¬ LeftOnce v.leaves := by
  have Ss : s.Sound := invariant (fun _ _ _ S h => S.step h) sound_new hs
  have St : t.Sound := invariant (fun _ _ _ S h => S.step h) Ss ht
  constructor
  · intro htimely
    have hkeep : ∀ m action u, m.Sound ∧ m.Once → Timely m action → m.step action = some u →
        u.Sound ∧ u.Once := fun _ _ _ h htimely hstep =>
      ⟨h.1.step hstep, h.2.step h.1 htimely hstep⟩
    have Os := invariant_along hkeep ⟨sound_new, once_new⟩ htimely.of_append hs
    have Ot := invariant_along hkeep Os (htimely.after hs) ht
    refine ⟨Ot.2.once, ?_⟩
    intro i hsucceeded k hidle call hleave
    have hleft := Os.2.flagged i hsucceeded
    -- Nothing fails a call that was invoked after the success.
    have hlater := (invariant (I := fun m => m.Sound ∧ m.left = true ∧ Harmless (m.tasks.pc k))
      (fun _ _ _ h hstep => ⟨h.1.step hstep, h.1.harmless_step h.2 hstep⟩)
      ⟨Ss, hleft, by rw [hidle]; trivial⟩ ht).2
    refine ⟨fun result hreturned => ?_, fun hlock => St.canSucceed hlater.1 hlock hleave⟩
    have hharmless := hlater.2
    rw [hreturned] at hharmless
    exact hharmless hleave
  · intro action u hlate hu
    simp only [Timely, not_forall, not_not] at hlate
    obtain ⟨i, rfl, hi⟩ := hlate
    obtain ⟨call, closed, hpc, hfinish⟩ := succeeded_cases hu
    obtain ⟨hsucceeded, -, hfails⟩ := St.answered hpc hfinish
    obtain ⟨hleft, hfree, htransport⟩ := hfails hi
    obtain ⟨rest, v, k, hv, hsent⟩ := (St.step hu).sends_again hleft hfree
      (htransport ▸ St.late (List.ne_nil_of_mem hi))
    refine ⟨rest, v, hv, fun honce => ?_⟩
    rw [hsent, hsucceeded] at honce
    have hpair := (List.pairwise_append.mp honce).2.2 (.succeeded i) (by simp) (.sent k) (by simp)
    exact hpair i k rfl rfl

/-- Decides `Timely`. -/
def checkTimely (s : FacadeSession) : TeardownAction → Bool
  | .respond i (.ok ()) => !s.late.contains i
  | _ => true

theorem timely_of_check {s : FacadeSession} {action : TeardownAction}
    (h : checkTimely s action = true) : Timely s action := by
  rintro i rfl
  simpa [checkTimely] using h

/-- A leave whose mutation fails once and is retried. -/
def sampleRetried : List TeardownAction :=
  [.invoke 0 .leave, .proceed 0, .transport (.call 0), .transport (.call 0), .transport (.call 0),
    .transport (.call 0), .transport (.halt .requested), .transport .worker, .transport .worker,
    .transport (.call 0), .proceed 0, .control 0 true, .respond 0 (.error (.transport "timeout")),
    .invoke 1 .leaveVoice, .proceed 1, .proceed 1, .proceed 1, .transport (.call 1), .proceed 1,
    .control 1 true, .respond 1 (.ok ())]

theorem leave_sent_once_retried :
    ∃ s t, exec FacadeSession.step FacadeSession.new sampleRetried = some s ∧
      exec FacadeSession.step s [.invoke 2 .leave, .proceed 2] = some t ∧
      s.leaves = [.sent 0, .sent 1, .succeeded 1] ∧ LeftOnce t.leaves ∧
      ∀ result, t.tasks.pc 2 = .returned .leave result → result = .ok () := by
  have hrun : ((exec FacadeSession.step FacadeSession.new sampleRetried).any fun s =>
      s.leaves = [.sent 0, .sent 1, .succeeded 1] ∧ s.tasks.pc 2 = .idle ∧
        (exec FacadeSession.step s [.invoke 2 .leave, .proceed 2]).isSome) = true := by decide
  obtain ⟨s, hs, h⟩ := (Option.any_eq_true _ _).mp hrun
  obtain ⟨hleaves, hidle, hsome⟩ := of_decide_eq_true h
  obtain ⟨t, ht⟩ := Option.isSome_iff_exists.mp hsome
  obtain ⟨honce, hlater⟩ := (leave_sent_once _ _ s t hs ht).1
    (along_of_check (fun _ _ => timely_of_check) (by decide))
  exact ⟨s, t, hs, ht, hleaves, honce,
    (hlater 1 (by simp [hleaves]) 2 hidle .leave (by decide)).1⟩

/-- A leave whose worker fails between the check and the stop request of its close. -/
theorem leave_sent_twice :
    ¬ ∀ (actions : List TeardownAction) (t : FacadeSession),
      exec FacadeSession.step FacadeSession.new actions = some t → LeftOnce t.leaves := by
  intro hclaim
  have hrun : ((exec FacadeSession.step FacadeSession.new
      [.invoke 0 .leave, .proceed 0, .transport (.call 0), .transport (.call 0),
        .transport (.call 0), .transport (.halt .failure), .transport .worker, .transport .worker,
        .transport .worker, .transport (.call 0), .proceed 0, .control 0 true, .respond 0 (.ok ()),
        .invoke 1 .leave, .proceed 1, .transport (.call 1), .proceed 1,
        .control 1 true]).any fun t =>
          t.leaves = [.sent 0, .succeeded 0, .sent 1]) = true := by decide
  obtain ⟨t, ht, h⟩ := (Option.any_eq_true _ _).mp hrun
  have honce := hclaim _ t ht
  rw [of_decide_eq_true h] at honce
  simp [LeftOnce] at honce

end ZephyrVox.Sdk
