import ZephyrVox.Voice.Outbound

/-!
# Closing a voice session

Any number of `close`, `disconnect` and `revoke` calls on the handles of one
session, against the worker they stop. A call checks the status, publishes
`Disconnecting`, sends its stop request and then waits; the worker publishes a
terminal status when it stops, and drops the receiver of the stop request when it
returns. Publishing is a comparison and a replacement, so a call has two steps
between its check and the status it publishes.

A call that passed its check before the worker published its last status
overwrites that status. The worker is gone by then, so no status follows, and
whoever waits for the session to stop waits forever.

## Main definitions

* `Lifecycle` — the status, the stop request, the worker and the calls.
* `Lifecycle.step` — one atomic step of the worker or of a call.
* `Unraced` — the worker does not publish its last status while a call is about to
  publish `Disconnecting`.
* `terminal_status_is_final` — with that, a terminal status is the last one.
* `terminal_status_is_overwritten` — a run without it.
* `overwritten_status_stays` — what is left of such a session.
-/

namespace ZephyrVox.Voice

open Transition

/-- Where a call stands. -/
inductive CallPc
  /-- About to check for a terminal status. -/
  | check
  /-- About to compare the status with `Disconnecting`. -/
  | compare
  /-- About to replace the status by `Disconnecting`. -/
  | replace
  /-- About to send the stop request. -/
  | send
  /-- In `wait_until_stopped`. -/
  | waiting
  | returned (result : Except VoiceError Unit)

/-- One call of `request_termination`. -/
structure TerminationCall where
  termination : Termination
  pc : CallPc

/-- Where the worker stands. -/
inductive WorkerPc
  /-- In its loop. -/
  | running
  /-- In `finish`, about to compare the status with its last one. -/
  | comparing (status : VoiceStatus)
  /-- About to replace the status by its last one. -/
  | replacing (status : VoiceStatus)
  /-- After `finish`, about to return. -/
  | published
  /-- Returned; the receiver of the stop request is dropped. -/
  | exited
  deriving DecidableEq

/-- One session, from the moment there is a handle to it. -/
structure Lifecycle where
  /-- The value of the status watch. -/
  status : VoiceStatus
  /-- The value of the stop watch. -/
  stop : Option Termination
  worker : WorkerPc
  calls : List TerminationCall

/-- Why a worker stops. -/
inductive StopCause
  /-- The stop watch changed. -/
  | requested
  /-- A revocation packet was admitted. -/
  | revocation (reason : RevocationReason)
  /-- The socket failed, or the sequences were exhausted. -/
  | failure
  deriving DecidableEq

/-- The last status of a worker. -/
def StopCause.status (cause : StopCause) (stop : Option Termination) : Option VoiceStatus :=
  match cause with
  | .requested => stop.map Termination.status
  | .revocation reason => some (.revoked reason)
  | .failure => some .disconnected

inductive LifecycleAction
  /-- A handle calls `close`, `disconnect` or `revoke`. -/
  | invoke (termination : Termination)
  /-- The next step of a call. -/
  | call (i : ℕ)
  /-- The worker leaves its loop. -/
  | halt (cause : StopCause)
  /-- The next step of a worker that left its loop. -/
  | worker
  deriving DecidableEq

namespace Lifecycle

/-- The session that a successful start returns. -/
def new : Lifecycle := ⟨.active, none, .running, []⟩

/-- Move one call. -/
def goto (s : Lifecycle) (i : ℕ) (call : TerminationCall) (pc : CallPc) : Lifecycle :=
  { s with calls := s.calls.set i { call with pc := pc } }

/-- One step of `request_termination`. -/
def callStep (s : Lifecycle) (i : ℕ) (call : TerminationCall) : Option Lifecycle :=
  match call.pc with
  | .check =>
      if s.status.isTerminal then some (s.goto i call (.returned (.ok ())))
      else
        match call.termination with
        | .close | .disconnect => some (s.goto i call .compare)
        | .revoke _ => some (s.goto i call .send)
  | .compare =>
      if s.status = .disconnecting then some (s.goto i call .send)
      else some (s.goto i call .replace)
  | .replace => some { s.goto i call .send with status := .disconnecting }
  | .send =>
      if s.worker = .exited then some (s.goto i call (.returned (.error .closed)))
      else some { s.goto i call .waiting with stop := some call.termination }
  | .waiting =>
      if s.status.isTerminal then some (s.goto i call (.returned (.ok ()))) else none
  | .returned _ => none

/-- One step of the worker after its loop. -/
def workerStep (s : Lifecycle) : Option Lifecycle :=
  match s.worker with
  | .running => none
  | .comparing status =>
      if s.status = status then some { s with worker := .published }
      else some { s with worker := .replacing status }
  | .replacing status => some { s with status := status, worker := .published }
  | .published => some { s with worker := .exited }
  | .exited => none

/-- One atomic step of a session. -/
def step (s : Lifecycle) : LifecycleAction → Option Lifecycle
  | .invoke termination => some { s with calls := s.calls ++ [⟨termination, .check⟩] }
  | .call i => s.calls[i]?.bind fun call => s.callStep i call
  | .halt cause =>
      if s.worker = .running then
        (cause.status s.stop).map fun status => { s with worker := .comparing status }
      else none
  | .worker => s.workerStep

end Lifecycle

/-- Whether a call passed its check and has not yet published `Disconnecting`. -/
def CallPc.announcing : CallPc → Bool
  | .compare | .replace => true
  | .check | .send | .waiting | .returned _ => false

/-- Whether the worker has published its last status. -/
def WorkerPc.stopped : WorkerPc → Bool
  | .published | .exited => true
  | .running | .comparing _ | .replacing _ => false

/-- The worker does not publish its last status while a call is between its check
and its own publication. -/
def Unraced (s : Lifecycle) (action : LifecycleAction) : Prop :=
  ∀ status, action = .worker → s.worker = .replacing status →
    ∀ call ∈ s.calls, call.pc.announcing = false

namespace Lifecycle

variable {s t : Lifecycle} {action : LifecycleAction} {i : ℕ} {call : TerminationCall}

/-! ## What a step does -/

theorem getElem?_goto (hcall : s.calls[i]? = some call) (pc : CallPc) :
    (s.goto i call pc).calls[i]? = some { call with pc := pc } :=
  List.getElem?_set_self (List.getElem?_eq_some_iff.mp hcall).1

/-- **One step of a call.** It moves that call only; it enters its publication only
under a status that is not terminal, and writes the status only in its last step
there. -/
theorem callStep_spec (h : s.callStep i call = some t) :
    t.worker = s.worker ∧ ∃ pc, t.calls = s.calls.set i { call with pc := pc } ∧
      ((t.status = s.status ∧
          (pc.announcing = true → call.pc.announcing = true ∨ s.status.isTerminal = false)) ∨
        (call.pc = .replace ∧ t.status = .disconnecting ∧ pc.announcing = false)) := by
  unfold callStep at h
  split at h
  · split at h
    · cases h
      exact ⟨rfl, _, rfl, .inl ⟨rfl, fun h => by cases h⟩⟩
    case isFalse hstatus =>
      have hrunning : s.status.isTerminal = false := by simpa using hstatus
      split at h <;> cases h <;> exact ⟨rfl, _, rfl, .inl ⟨rfl, fun _ => .inr hrunning⟩⟩
  case h_2 hpc =>
    have hannouncing : call.pc.announcing = true := by rw [hpc]; rfl
    split at h <;> cases h <;> exact ⟨rfl, _, rfl, .inl ⟨rfl, fun _ => .inl hannouncing⟩⟩
  case h_3 hpc =>
    cases h
    exact ⟨rfl, _, rfl, .inr ⟨hpc, rfl, rfl⟩⟩
  · split at h <;> cases h <;> exact ⟨rfl, _, rfl, .inl ⟨rfl, fun h => by cases h⟩⟩
  · split at h
    · cases h
      exact ⟨rfl, _, rfl, .inl ⟨rfl, fun h => by cases h⟩⟩
    · cases h
  · cases h

/-- One step of the worker after its loop. -/
theorem workerStep_cases (h : s.workerStep = some t) :
    (∃ status, s.worker = .comparing status ∧ s.status = status ∧
      t = { s with worker := .published }) ∨
    (∃ status, s.worker = .comparing status ∧ t = { s with worker := .replacing status }) ∨
    (∃ status, s.worker = .replacing status ∧
      t = { s with status := status, worker := .published }) ∨
    (s.worker = .published ∧ t = { s with worker := .exited }) := by
  unfold workerStep at h
  split at h
  · cases h
  case h_2 status hcomparing =>
    split at h
    case isTrue hsame =>
      cases h
      exact .inl ⟨status, hcomparing, hsame, rfl⟩
    case isFalse =>
      cases h
      exact .inr (.inl ⟨status, hcomparing, rfl⟩)
  case h_3 status hreplacing =>
    cases h
    exact .inr (.inr (.inl ⟨status, hreplacing, rfl⟩))
  case h_4 hpublished =>
    cases h
    exact .inr (.inr (.inr ⟨hpublished, rfl⟩))
  · cases h

/-- **Every step** adds a call, moves one, takes the worker out of its loop, or moves
the worker on. -/
theorem step_cases (h : s.step action = some t) :
    (∃ termination, t = { s with calls := s.calls ++ [⟨termination, .check⟩] }) ∨
    (∃ i call, action = .call i ∧ s.calls[i]? = some call ∧ s.callStep i call = some t) ∨
    (∃ (cause : StopCause) (status : VoiceStatus), s.worker = .running ∧
      cause.status s.stop = some status ∧ t = { s with worker := .comparing status }) ∨
    (action = .worker ∧ s.workerStep = some t) := by
  cases action with
  | invoke termination =>
      cases h
      exact .inl ⟨termination, rfl⟩
  | call i =>
      obtain ⟨call, hcall, h⟩ := Option.bind_eq_some_iff.mp h
      exact .inr (.inl ⟨i, call, rfl, hcall, h⟩)
  | halt cause =>
      obtain ⟨hrunning, h⟩ := Option.ite_none_right_eq_some.mp h
      obtain ⟨status, hstatus, rfl⟩ := Option.map_eq_some_iff.mp h
      exact .inr (.inr (.inl ⟨cause, status, hrunning, hstatus, rfl⟩))
  | worker => exact .inr (.inr (.inr ⟨rfl, h⟩))

theorem isTerminal_of_cause {cause : StopCause} {stop : Option Termination}
    {status : VoiceStatus} (h : cause.status stop = some status) : status.isTerminal = true := by
  cases cause with
  | requested =>
      obtain ⟨termination, -, rfl⟩ := Option.map_eq_some_iff.mp h
      cases termination <;> rfl
  | revocation reason => cases h; rfl
  | failure => cases h; rfl

/-- The status that a worker is about to publish is terminal. -/
def Targets (s : Lifecycle) : Prop :=
  ∀ status, s.worker = .comparing status ∨ s.worker = .replacing status →
    status.isTerminal = true

theorem targets_step (T : s.Targets) (h : s.step action = some t) : t.Targets := by
  rcases step_cases h with ⟨termination, rfl⟩ | ⟨i, call, -, -, hcall⟩ |
    ⟨cause, status, -, hstatus, rfl⟩ | ⟨-, hworker⟩
  · exact T
  · intro status
    rw [(callStep_spec hcall).1]
    exact T status
  · rintro status' (h | h)
    · cases h
      exact isTerminal_of_cause hstatus
    · cases h
  · rcases workerStep_cases hworker with ⟨status, -, -, rfl⟩ | ⟨status, hcomparing, rfl⟩ |
      ⟨status, -, rfl⟩ | ⟨-, rfl⟩
    · rintro status' (h | h) <;> cases h
    · rintro status' (h | h) <;> cases h
      exact T status (.inl hcomparing)
    · rintro status' (h | h) <;> cases h
    · rintro status' (h | h) <;> cases h

/-- **The answer of a call**: success under a terminal status, or `Closed` because the
worker had returned before the stop request was sent. -/
theorem callStep_answer (h : s.callStep i call = some t) :
    (∃ result, t = s.goto i call (.returned result) ∧
      ((result = .ok () ∧ s.status.isTerminal = true ∧ call.pc ≠ .send) ∨
        (result = .error .closed ∧ call.pc = .send ∧ s.worker = .exited))) ∨
    ∃ pc, t.calls = s.calls.set i { call with pc := pc } ∧ (∀ result, pc ≠ .returned result) ∧
      (call.pc = .check → s.status.isTerminal = false) ∧
      ¬ (call.pc = .send ∧ s.worker = .exited) ∧
      (t.status = s.status ∨ t.status = .disconnecting) := by
  unfold callStep at h
  split at h
  case h_1 hpc =>
    split at h
    case isTrue hterminal =>
      cases h
      exact .inl ⟨_, rfl, .inl ⟨rfl, hterminal, by simp [hpc]⟩⟩
    case isFalse hstatus =>
      have hrunning : s.status.isTerminal = false := by simpa using hstatus
      split at h <;> cases h <;>
        exact .inr ⟨_, rfl, (fun _ h => by cases h), (fun _ => hrunning), by simp [hpc], .inl rfl⟩
  case h_2 hpc =>
    split at h <;> cases h <;>
      exact .inr ⟨_, rfl, (fun _ h => by cases h), by simp [hpc], by simp [hpc], .inl rfl⟩
  case h_3 hpc =>
    cases h
    exact .inr ⟨_, rfl, (fun _ h => by cases h), by simp [hpc], by simp [hpc], .inr rfl⟩
  case h_4 hpc =>
    split at h
    case isTrue hexited =>
      cases h
      exact .inl ⟨_, rfl, .inr ⟨rfl, hpc, hexited⟩⟩
    case isFalse hworker =>
      cases h
      exact .inr ⟨_, rfl, (fun _ h => by cases h), by simp [hpc], fun h => hworker h.2, .inl rfl⟩
  case h_5 hpc =>
    split at h
    case isTrue hterminal =>
      cases h
      exact .inl ⟨_, rfl, .inl ⟨rfl, hterminal, by simp [hpc]⟩⟩
    · cases h
  · cases h

/-- Only the worker publishes a terminal status. -/
def Published (s : Lifecycle) : Prop :=
  s.status.isTerminal = true → s.worker.stopped = true

/-- **A step of the worker** leaves the calls, and a terminal status. -/
theorem internal_step (P : s.Published) (hcall : ∀ i, action ≠ .call i)
    (hinvoke : ∀ termination, action ≠ .invoke termination) (h : s.step action = some t) :
    t.calls = s.calls ∧ t.Published ∧ s.worker ≠ .exited ∧
      (s.status.isTerminal = true → t.status = s.status) := by
  cases action with
  | invoke termination => exact absurd rfl (hinvoke termination)
  | call i => exact absurd rfl (hcall i)
  | halt cause =>
      obtain ⟨hrunning, h⟩ := Option.ite_none_right_eq_some.mp h
      obtain ⟨status, -, rfl⟩ := Option.map_eq_some_iff.mp h
      have hlive : s.status.isTerminal ≠ true := by
        intro hterminal
        have hstopped := P hterminal
        rw [hrunning] at hstopped
        cases hstopped
      refine ⟨rfl, fun hterminal => absurd hterminal hlive, ?_, fun _ => rfl⟩
      rw [hrunning]
      exact fun h => by cases h
  | worker =>
      rcases workerStep_cases h with ⟨status, hpc, -, rfl⟩ | ⟨status, hpc, rfl⟩ |
        ⟨status, hpc, rfl⟩ | ⟨hpc, rfl⟩
      · exact ⟨rfl, fun _ => rfl, (by simp [hpc]), fun _ => rfl⟩
      · refine ⟨rfl, fun hterminal => ?_, (by simp [hpc]), fun _ => rfl⟩
        have hstopped := P hterminal
        rw [hpc] at hstopped
        cases hstopped
      · refine ⟨rfl, fun _ => rfl, (by simp [hpc]), fun hterminal => ?_⟩
        have hstopped := P hterminal
        rw [hpc] at hstopped
        cases hstopped
      · exact ⟨rfl, fun _ => rfl, (by simp [hpc]), fun _ => rfl⟩

/-! ## Sessions without the race -/

/-- The status is terminal exactly after the worker has published, and no call is
about to overwrite it then. -/
structure Settled (s : Lifecycle) : Prop where
  terminal : s.status.isTerminal = s.worker.stopped
  quiet : s.worker.stopped = true → ∀ call ∈ s.calls, call.pc.announcing = false
  targets : s.Targets

theorem settled_new : Settled new where
  terminal := rfl
  quiet h := by cases h
  targets status h := by rcases h with h | h <;> cases h

/-- A moved call that is about to publish was so before, or is under a status that
is not terminal. -/
theorem mem_calls_of_callStep {pc : CallPc} {moved : TerminationCall}
    (hmem : moved ∈ s.calls.set i { call with pc := pc }) :
    moved ∈ s.calls ∨ moved.pc = pc := by
  rcases List.mem_or_eq_of_mem_set hmem with hmem | rfl
  · exact .inl hmem
  · exact .inr rfl

theorem Settled.callStep (S : Settled s) (hcall : s.calls[i]? = some call)
    (h : s.callStep i call = some t) : Settled t := by
  have hmem : call ∈ s.calls := List.mem_of_getElem? hcall
  have htargets : t.Targets := targets_step S.targets
    (show s.step (.call i) = some t by rw [step, hcall]; exact h)
  obtain ⟨hworker, pc, hcalls, ⟨hstatus, hpc⟩ | ⟨hreplace, hstatus, hpc⟩⟩ := callStep_spec h
  · refine ⟨by rw [hstatus, hworker, S.terminal], ?_, htargets⟩
    intro hstopped moved hmoved
    rw [hworker] at hstopped
    rw [hcalls] at hmoved
    rcases mem_calls_of_callStep hmoved with hold | hmoved
    · exact S.quiet hstopped moved hold
    · rw [hmoved, Bool.eq_false_iff]
      intro hannouncing
      rcases hpc hannouncing with hbefore | hrunning
      · rw [S.quiet hstopped call hmem] at hbefore
        cases hbefore
      · rw [S.terminal, hstopped] at hrunning
        cases hrunning
  · -- A worker that has published leaves no call to overwrite its status.
    have hrunning : s.worker.stopped = false := by
      rw [Bool.eq_false_iff]
      intro hstopped
      have hquiet := S.quiet hstopped call hmem
      rw [hreplace] at hquiet
      cases hquiet
    refine ⟨by rw [hstatus, hworker, hrunning]; rfl, ?_, htargets⟩
    intro hstopped
    rw [hworker, hrunning] at hstopped
    cases hstopped

theorem Settled.step (S : Settled s) (hunraced : Unraced s action)
    (h : s.step action = some t) : Settled t := by
  have htargets : t.Targets := targets_step S.targets h
  rcases step_cases h with ⟨termination, rfl⟩ | ⟨i, call, -, hcall, hstep⟩ |
    ⟨cause, status, hrunning, -, rfl⟩ | ⟨rfl, hworker⟩
  · refine ⟨S.terminal, ?_, htargets⟩
    intro hstopped call hmem
    rcases List.mem_append.mp hmem with hmem | hmem
    · exact S.quiet hstopped call hmem
    · obtain rfl := List.mem_singleton.mp hmem
      rfl
  · exact S.callStep hcall hstep
  · refine ⟨?_, (fun h => by cases h), htargets⟩
    rw [S.terminal, hrunning]
    rfl
  · rcases workerStep_cases hworker with ⟨status, hcomparing, hsame, rfl⟩ |
      ⟨status, hcomparing, rfl⟩ | ⟨status, hreplacing, rfl⟩ | ⟨hpublished, rfl⟩
    · have hterminal := S.targets status (.inl hcomparing)
      rw [← hsame, S.terminal, hcomparing] at hterminal
      cases hterminal
    · refine ⟨?_, (fun h => by cases h), htargets⟩
      rw [S.terminal, hcomparing]
      rfl
    · exact ⟨S.targets status (.inr hreplacing), fun _ => hunraced status rfl hreplacing, htargets⟩
    · have hstopped : s.worker.stopped = true := by rw [hpublished]; rfl
      exact ⟨S.terminal.trans hstopped, fun _ => S.quiet hstopped, htargets⟩

/-- A settled session keeps a terminal status. -/
theorem Settled.status_step (S : Settled s) (hterminal : s.status.isTerminal = true)
    (h : s.step action = some t) : t.status = s.status := by
  have hstopped : s.worker.stopped = true := S.terminal ▸ hterminal
  rcases step_cases h with ⟨termination, rfl⟩ | ⟨i, call, -, hcall, hstep⟩ |
    ⟨cause, status, hrunning, -, rfl⟩ | ⟨rfl, hworker⟩
  · rfl
  · obtain ⟨-, pc, -, ⟨hstatus, -⟩ | ⟨hreplace, -, -⟩⟩ := callStep_spec hstep
    · exact hstatus
    · have hquiet := S.quiet hstopped call (List.mem_of_getElem? hcall)
      rw [hreplace] at hquiet
      cases hquiet
  · rfl
  · rcases workerStep_cases hworker with ⟨status, -, -, rfl⟩ | ⟨status, -, rfl⟩ |
      ⟨status, hreplacing, rfl⟩ | ⟨-, rfl⟩
    · rfl
    · rfl
    · rw [hreplacing] at hstopped
      cases hstopped
    · rfl

theorem Settled.status_exec {actions : List LifecycleAction} (S : Settled s)
    (hunraced : Along Lifecycle.step Unraced s actions) (hterminal : s.status.isTerminal = true)
    (h : exec Lifecycle.step s actions = some t) : t.status = s.status := by
  have hkept : Settled t ∧ t.status = s.status := by
    refine invariant_along (I := fun t => Settled t ∧ t.status = s.status) ?_ ⟨S, rfl⟩ hunraced h
    rintro m action m' ⟨M, hstatus⟩ hhere hm
    exact ⟨M.step hhere hm, (M.status_step (by rw [hstatus, hterminal]) hm).trans hstatus⟩
  exact hkept.2

/-! ## Sessions with the race -/

/-- The worker published its last status, and a call overwrote it. -/
def Overwritten (s : Lifecycle) : Prop :=
  s.worker.stopped = true ∧ s.status.isTerminal = false

theorem overwritten_step (h : s.Overwritten) (hstep : s.step action = some t) :
    t.Overwritten := by
  obtain ⟨hstopped, hstatus⟩ := h
  rcases step_cases hstep with ⟨termination, rfl⟩ | ⟨i, call, -, -, hcall⟩ |
    ⟨cause, status, hrunning, -, rfl⟩ | ⟨-, hworker⟩
  · exact ⟨hstopped, hstatus⟩
  · obtain ⟨hworker, pc, -, ⟨hsame, -⟩ | ⟨-, hsame, -⟩⟩ := callStep_spec hcall
    · exact ⟨hworker ▸ hstopped, hsame ▸ hstatus⟩
    · exact ⟨hworker ▸ hstopped, hsame ▸ rfl⟩
  · rw [hrunning] at hstopped
    cases hstopped
  · rcases workerStep_cases hworker with ⟨status, hpc, -, rfl⟩ | ⟨status, hpc, rfl⟩ |
      ⟨status, hpc, rfl⟩ | ⟨-, rfl⟩
    · exact ⟨rfl, hstatus⟩
    · rw [hpc] at hstopped
      cases hstopped
    · rw [hpc] at hstopped
      cases hstopped
    · exact ⟨rfl, hstatus⟩

/-- **An overwritten status is never terminal again**, so every call that waits for
the session to stop waits forever. -/
theorem overwritten_status_stays {actions : List LifecycleAction} (h : s.Overwritten)
    (hexec : exec step s actions = some t) :
    t.status.isTerminal = false ∧
      ∀ i call, t.calls[i]? = some call → call.pc = .waiting → t.step (.call i) = none := by
  have hkept : t.Overwritten := invariant (fun _ _ _ => overwritten_step) h hexec
  refine ⟨hkept.2, ?_⟩
  intro i call hcall hwaiting
  simp [step, hcall, callStep, hwaiting, hkept.2]

theorem replace_overwrites (hpublished : s.worker = .published)
    (hcall : s.calls[i]? = some call) (hpc : call.pc = .replace) :
    ∃ t, exec step s [.call i, .worker] = some t ∧ t.worker = .exited ∧
      t.status = .disconnecting := by
  simp [step, hcall, callStep, hpc, goto, workerStep, hpublished]

/-- A call that the worker's last publication raced overwrites it. -/
theorem announcing_overwrites (hpublished : s.worker = .published)
    (hterminal : s.status.isTerminal = true) (hcall : s.calls[i]? = some call)
    (hannouncing : call.pc.announcing = true) :
    ∃ rest t, exec step s rest = some t ∧ t.worker = .exited ∧ t.status = .disconnecting := by
  cases hpc : call.pc with
  | replace => exact ⟨_, replace_overwrites hpublished hcall hpc⟩
  | compare =>
      have hstatus : s.status ≠ .disconnecting := by
        intro h
        rw [h] at hterminal
        cases hterminal
      have hstep : s.step (.call i) = some (s.goto i call .replace) := by
        simp [step, hcall, callStep, hpc, hstatus]
      obtain ⟨t, ht, hexited⟩ := replace_overwrites
        (show (s.goto i call .replace).worker = .published from hpublished)
        (getElem?_goto hcall .replace) rfl
      refine ⟨.call i :: [.call i, .worker], t, ?_, hexited⟩
      rw [exec_cons, hstep]
      exact ht
  | check | send | waiting | returned =>
      rw [hpc] at hannouncing
      cases hannouncing

/-- **Every race ends in an overwritten status**, if the calls go on. -/
theorem raced_is_overwritten (T : s.Targets) (hraced : ¬ Unraced s action)
    (h : s.step action = some t) :
    ∃ rest u, exec step t rest = some u ∧ u.worker = .exited ∧ u.status = .disconnecting := by
  simp only [Unraced, not_forall, Bool.not_eq_false] at hraced
  obtain ⟨status, rfl, hreplacing, call, hmem, hannouncing⟩ := hraced
  obtain ⟨i, hcall⟩ := List.getElem?_of_mem hmem
  simp only [step, workerStep, hreplacing, Option.some.injEq] at h
  subst h
  exact announcing_overwrites rfl (T status (.inr hreplacing)) hcall hannouncing

/-! ## Calls and workers in one step -/

/-- A call alone sends its stop request. -/
theorem exec_send (hcall : s.calls[i]? = some call) (hpc : call.pc = .send)
    (hworker : s.worker ≠ .exited) :
    ∃ n t, exec step s (List.replicate n (.call i)) = some t ∧ t.status = s.status ∧
      t.stop = some call.termination := by
  refine ⟨1, { s.goto i call .waiting with stop := some call.termination }, ?_, rfl, rfl⟩
  simp [step, hcall, callStep, hpc, hworker]

/-- A call alone publishes `Disconnecting` before that. -/
theorem exec_announce (hcall : s.calls[i]? = some call) (hpc : call.pc = .compare)
    (hworker : s.worker ≠ .exited) :
    ∃ n t, exec step s (List.replicate n (.call i)) = some t ∧ t.status = .disconnecting ∧
      t.stop = some call.termination := by
  by_cases hstatus : s.status = .disconnecting
  · have hstep : s.step (.call i) = some (s.goto i call .send) := by
      simp [step, hcall, callStep, hpc, hstatus]
    obtain ⟨n, t, ht, hresult⟩ := exec_send (getElem?_goto hcall .send) rfl hworker
    refine ⟨n + 1, t, ?_, hresult.1.trans hstatus, hresult.2⟩
    rw [List.replicate_succ, exec_cons, hstep]
    exact ht
  · have hcompare : s.step (.call i) = some (s.goto i call .replace) := by
      simp [step, hcall, callStep, hpc, hstatus]
    have hmoved := getElem?_goto hcall .replace
    have hreplace : (s.goto i call .replace).step (.call i) =
        some { (s.goto i call .replace).goto i { call with pc := .replace } .send with
          status := .disconnecting } := by
      simp [step, hmoved, callStep]
    obtain ⟨n, t, ht, hresult⟩ := exec_send
      (s := { (s.goto i call .replace).goto i { call with pc := .replace } .send with
        status := .disconnecting }) (getElem?_goto hmoved .send) rfl hworker
    refine ⟨n + 2, t, ?_, hresult⟩
    rw [List.replicate_succ, exec_cons, hcompare, Option.bind_some, List.replicate_succ, exec_cons,
      hreplace]
    exact ht

/-- **A call that nothing interrupts** does what `Worker.requestTermination` does in
one step. -/
theorem exec_call_alone {K : Type} {w : Worker K} (hstatus : w.status = s.status)
    (hcall : s.calls[i]? = some call) (hpc : call.pc = .check)
    (hrunning : s.status.isTerminal = false) (hworker : s.worker ≠ .exited) :
    ∃ n t, exec step s (List.replicate n (.call i)) = some t ∧
      t.status = (w.requestTermination call.termination).status ∧
      t.stop = (w.requestTermination call.termination).termination := by
  have hlive : w.status.isTerminal = false := by rw [hstatus, hrunning]
  -- The check only decides where the call goes on.
  have hcheck (pc : CallPc) (hstep : s.step (.call i) = some (s.goto i call pc))
      (hrest : ∃ n t, exec step (s.goto i call pc) (List.replicate n (.call i)) = some t ∧
        t.status = (w.requestTermination call.termination).status ∧
        t.stop = (w.requestTermination call.termination).termination) :
      ∃ n t, exec step s (List.replicate n (.call i)) = some t ∧
        t.status = (w.requestTermination call.termination).status ∧
        t.stop = (w.requestTermination call.termination).termination := by
    obtain ⟨n, t, ht, hresult⟩ := hrest
    refine ⟨n + 1, t, ?_, hresult⟩
    rw [List.replicate_succ, exec_cons, hstep]
    exact ht
  cases htermination : call.termination with
  | revoke reason =>
      rw [← htermination]
      refine hcheck .send (by simp [step, hcall, callStep, hpc, hrunning, htermination]) ?_
      obtain ⟨n, t, ht, hkept, hstop⟩ := exec_send (getElem?_goto hcall .send) rfl hworker
      refine ⟨n, t, ht, ?_, ?_⟩
      · rw [hkept]
        simp [goto, Worker.requestTermination, hrunning, htermination, hstatus]
      · simp [hstop, Worker.requestTermination, hlive]
  | close | disconnect =>
      rw [← htermination]
      refine hcheck .compare (by simp [step, hcall, callStep, hpc, hrunning, htermination]) ?_
      obtain ⟨n, t, ht, hannounced, hstop⟩ :=
        exec_announce (getElem?_goto hcall .compare) rfl hworker
      refine ⟨n, t, ht, ?_, ?_⟩
      · simp [hannounced, Worker.requestTermination, hlive, htermination]
      · simp [hstop, Worker.requestTermination, hlive]

/-- A close that is answered if nothing interrupts it. -/
def Answers (s : Lifecycle) (i : ℕ) : Prop :=
  ∃ n t result, exec step s (List.replicate n (.call i)) = some t ∧
    t.calls[i]? = some ⟨.close, .returned result⟩

theorem Answers.cons (h : s.step (.call i) = some t) (ht : t.Answers i) : s.Answers i := by
  obtain ⟨n, u, result, hexec, hcall⟩ := ht
  refine ⟨n + 1, u, result, ?_, hcall⟩
  rw [List.replicate_succ, exec_cons, h]
  exact hexec

theorem answers_of_returned {result : Except VoiceError Unit}
    (hcall : s.calls[i]? = some ⟨.close, .returned result⟩) : s.Answers i :=
  ⟨0, s, result, rfl, hcall⟩

theorem answers_of_send (hexited : s.worker = .exited)
    (hcall : s.calls[i]? = some ⟨.close, .send⟩) : s.Answers i := by
  have hstep : s.step (.call i) =
      some (s.goto i ⟨.close, .send⟩ (.returned (.error .closed))) := by
    simp [step, hcall, callStep, hexited]
  exact .cons hstep (answers_of_returned (getElem?_goto hcall _))

theorem answers_of_compare (hexited : s.worker = .exited)
    (hcall : s.calls[i]? = some ⟨.close, .compare⟩) : s.Answers i := by
  by_cases hstatus : s.status = .disconnecting
  · have hstep : s.step (.call i) = some (s.goto i ⟨.close, .compare⟩ .send) := by
      simp [step, hcall, callStep, hstatus]
    exact .cons hstep (answers_of_send hexited (getElem?_goto hcall _))
  · have hstep : s.step (.call i) = some (s.goto i ⟨.close, .compare⟩ .replace) := by
      simp [step, hcall, callStep, hstatus]
    have hat := getElem?_goto hcall .replace
    have hpublish : (s.goto i ⟨.close, .compare⟩ .replace).step (.call i) =
        some { (s.goto i ⟨.close, .compare⟩ .replace).goto i ⟨.close, .replace⟩ .send with
          status := .disconnecting } := by
      simp [step, hat, callStep]
    refine .cons hstep (.cons hpublish (answers_of_send hexited ?_))
    exact getElem?_goto hat .send

/-- **A close of a worker that has returned** is answered if nothing interrupts it. -/
theorem answers_of_exited (hexited : s.worker = .exited)
    (hcall : s.calls[i]? = some ⟨.close, .check⟩) : s.Answers i := by
  cases hterminal : s.status.isTerminal with
  | true =>
      have hstep : s.step (.call i) = some (s.goto i ⟨.close, .check⟩ (.returned (.ok ()))) := by
        simp [step, hcall, callStep, hterminal]
      exact .cons hstep (answers_of_returned (getElem?_goto hcall _))
  | false =>
      have hstep : s.step (.call i) = some (s.goto i ⟨.close, .check⟩ .compare) := by
        simp [step, hcall, callStep, hterminal]
      exact .cons hstep (answers_of_compare hexited (getElem?_goto hcall _))

end Lifecycle

/-! ## Why a worker stops -/

section Causes

variable {K : Type} {crypto : Crypto K}

/-- Only a revocation packet ends the handling of a datagram. -/
theorem Worker.revoked_of_handleInbound {w : Worker K} {datagram : List UInt8}
    (h : (w.inbox.handleInbound crypto w.codec datagram).2 = false) :
    ∃ reason, (w.handleInbound crypto datagram).status = .revoked reason := by
  cases hadmits : w.inbox.admits crypto w.codec datagram with
  | none =>
      rw [Inbox.handleInbound_of_not_admitted hadmits] at h
      cases h
  | some packet =>
      obtain ⟨-, -, -, hstops⟩ := Inbox.handleInbound_of_admitted hadmits
      obtain ⟨reason, hcontrol⟩ := hstops.mp h
      obtain ⟨hdecode, hnew⟩ := Inbox.admits_eq_some hadmits
      obtain ⟨replay, haccept⟩ :
          ∃ replay, w.replay.accept packet.transportSeq = (replay, true) :=
        ⟨_, Prod.ext rfl ((ReplayWindow.accept_snd _ _).trans hnew)⟩
      exact ⟨reason, by simp [Worker.handleInbound, hdecode, haccept, hcontrol, Worker.finish]⟩

namespace Sender

variable {s t : Sender K} {action : SenderAction}

/-- The status with which a worker stopped has one of the causes. -/
def Caused (s t : Sender K) : Prop :=
  t.phase = .returned →
    ∃ cause : StopCause, cause.status s.worker.termination = some t.worker.status

theorem caused_fail (s s' : Sender K) (initial : Bool) (error : VoiceError) :
    Caused s (s'.fail initial error) := by
  intro _
  refine ⟨.failure, ?_⟩
  cases initial <;> rfl

theorem caused_awaitWrite (hphase : s.phase ≠ .returned) (initial : Bool)
    (fatal : VoiceError → Bool) (result : Worker K × Except VoiceError Outgoing) :
    Caused s (s.awaitWrite initial fatal result) := by
  obtain ⟨w, e | packet⟩ := result
  · simp only [awaitWrite]
    split
    · exact caused_fail s _ initial e
    · exact fun h => absurd h hphase
  · exact fun h => by cases h

theorem caused_handleInbound (hphase : s.phase ≠ .returned) (datagram : List UInt8) :
    Caused s (s.handleInbound crypto datagram) := by
  intro hreturned
  cases hflag : (s.worker.inbox.handleInbound crypto s.worker.codec datagram).2 with
  | true =>
      simp only [handleInbound, hflag, if_true] at hreturned
      exact absurd hreturned hphase
  | false =>
      obtain ⟨reason, hstatus⟩ := Worker.revoked_of_handleInbound hflag
      exact ⟨.revocation reason, congrArg some hstatus.symm⟩

/-- **Every stop of a worker has one of the causes**, but for a cancelled start. -/
theorem step_caused (hphase : s.phase ≠ .returned) (habort : action ≠ .abort)
    (h : s.step crypto action = some t) : Caused s t := by
  cases step_move h with
  | stay => exact fun hreturned => absurd hreturned hphase
  | await initial fatal => exact caused_awaitWrite hphase initial fatal _
  | wrote initial packet => exact fun hreturned => by cases hreturned
  | fail initial error => exact caused_fail s s initial error
  | stop termination requested =>
      exact fun _ => ⟨.requested, by simp [StopCause.status, requested, finish, Worker.finish]⟩
  | disconnect => exact fun _ => ⟨.failure, rfl⟩
  | inbound datagram => exact caused_handleInbound hphase datagram
  | request termination => exact fun hreturned => absurd hreturned hphase
  | abort => exact absurd rfl habort

end Sender

end Causes

/-! ## The last status -/

/-- **A terminal status is final, unless its publication is raced.** In every run in
which the worker never publishes its last status while a call is between its check
and its own publication, a terminal status never changes, and the status of a worker
that returned is terminal. Where it does, the steps that are left to that call put the
status back to `Disconnecting`, with the worker gone. -/
theorem terminal_status_is_final (before after : List LifecycleAction) (s t : Lifecycle)
    (hs : exec Lifecycle.step Lifecycle.new before = some s)
    (ht : exec Lifecycle.step s after = some t) :
    (Along Lifecycle.step Unraced Lifecycle.new (before ++ after) →
      (s.status.isTerminal = true → t.status = s.status) ∧
        (t.worker = .exited → t.status.isTerminal = true)) ∧
    (∀ action u, ¬ Unraced t action → t.step action = some u →
      ∃ rest v, exec Lifecycle.step u rest = some v ∧ v.worker = .exited ∧
        v.status = .disconnecting) := by
  constructor
  · intro hunraced
    have S : Lifecycle.Settled s := invariant_along (fun _ _ _ S hhere h => S.step hhere h)
      Lifecycle.settled_new hunraced.of_append hs
    have hafter := hunraced.after hs
    have T : Lifecycle.Settled t :=
      invariant_along (fun _ _ _ S hhere h => S.step hhere h) S hafter ht
    refine ⟨fun hterminal => S.status_exec hafter hterminal ht, ?_⟩
    intro hexited
    rw [T.terminal, hexited]
    rfl
  · intro action u hraced hu
    have T : t.Targets := by
      refine invariant (fun _ _ _ T h => Lifecycle.targets_step T h)
        (invariant (fun _ _ _ T h => Lifecycle.targets_step T h) ?_ hs) ht
      exact Lifecycle.settled_new.targets
    exact Lifecycle.raced_is_overwritten T hraced hu

/-- Decides `Unraced`. -/
def checkUnraced (s : Lifecycle) (action : LifecycleAction) : Bool :=
  match action, s.worker with
  | .worker, .replacing _ => s.calls.all fun call => !call.pc.announcing
  | _, _ => true

theorem unraced_of_check {s : Lifecycle} {action : LifecycleAction}
    (h : checkUnraced s action = true) : Unraced s action := by
  rintro status rfl hreplacing call hmem
  simp only [checkUnraced, hreplacing, List.all_eq_true] at h
  simpa using h call hmem

/-- A close that the worker obeys, with a revocation call after it. -/
theorem terminal_status_is_final_closed :
    ∃ s t, exec Lifecycle.step Lifecycle.new
        [.invoke .close, .call 0, .call 0, .call 0, .call 0, .halt .requested, .worker, .worker] =
        some s ∧
      exec Lifecycle.step s [.invoke (.revoke .revoked), .call 1, .worker, .call 0] = some t ∧
      s.status = .disconnected ∧ t.worker = .exited ∧ t.status = s.status ∧
      t.status.isTerminal = true := by
  have hrun : ((exec Lifecycle.step Lifecycle.new
      [.invoke .close, .call 0, .call 0, .call 0, .call 0, .halt .requested, .worker,
        .worker]).any fun s => s.status = .disconnected ∧
          (exec Lifecycle.step s [.invoke (.revoke .revoked), .call 1, .worker, .call 0]).any
            fun t => t.worker = .exited) = true := by decide
  obtain ⟨s, hs, h⟩ := (Option.any_eq_true _ _).mp hrun
  obtain ⟨hstatus, hrest⟩ := of_decide_eq_true h
  obtain ⟨t, ht, h⟩ := (Option.any_eq_true _ _).mp hrest
  have hexited := of_decide_eq_true h
  obtain ⟨hsame, hterminal⟩ := (terminal_status_is_final _ _ s t hs ht).1
    (along_of_check (fun _ _ => unraced_of_check) (by decide))
  exact ⟨s, t, hs, ht, hstatus, hexited, hsame (by rw [hstatus]; rfl), hterminal hexited⟩

/-- A close that passed its check, then a revocation that ends the worker, then the
publication of the close. -/
theorem terminal_status_is_overwritten :
    ¬ ∀ before after s t, exec Lifecycle.step Lifecycle.new before = some s →
      exec Lifecycle.step s after = some t →
      (s.status.isTerminal = true → t.status = s.status) ∧
        (t.worker = .exited → t.status.isTerminal = true) := by
  intro hfinal
  have hrun : ((exec Lifecycle.step Lifecycle.new
      [.invoke .close, .call 0, .halt (.revocation .revoked), .worker, .worker]).any fun s =>
        s.status = .revoked .revoked ∧
          (exec Lifecycle.step s [.call 0, .call 0, .worker, .call 0]).any fun t =>
            t.worker = .exited ∧ t.status = .disconnecting) = true := by decide
  obtain ⟨s, hs, h⟩ := (Option.any_eq_true _ _).mp hrun
  obtain ⟨-, hrest⟩ := of_decide_eq_true h
  obtain ⟨t, ht, h⟩ := (Option.any_eq_true _ _).mp hrest
  obtain ⟨hexited, hstatus⟩ := of_decide_eq_true h
  have hterminal := (hfinal _ _ s t hs ht).2 hexited
  rw [hstatus] at hterminal
  cases hterminal

end ZephyrVox.Voice
