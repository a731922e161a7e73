import ZephyrVox.Lib.Transition
import ZephyrVox.Realtime.Backoff

/-!
# Retries of the owner task

The owner task counts its retries from its start. A lost socket that was live does not
start the count again, so the delays of a long-lived connection grow with every loss and
a limit of attempts is a limit for its whole life.

## Main definitions

* `Connection.failure` — the error a generation ends with, unless the host stops it.
* `Retrying V` — a connection, its policy and the retries made so far.
* `Retrying.step` — a step of the task, or the stop request of the host.
* `retries_counted_from_start` — what the delays and the end of a run depend on.
-/

namespace ZephyrVox.Realtime

open Transition

variable {V : Type}

namespace Connection

/-! ## Failed generations -/

/-- A socket's error, which is dropped when the host has stopped the connection. -/
def socketFailure (c : Connection V) (error : RealtimeError) : Option RealtimeError :=
  if c.stopped then none else some error

/-- The error a generation ends with in this step, unless the host stops it. -/
def failure (serde : Serde V) (c : Connection V) (input : EngineInput V) : Option RealtimeError :=
  match c.phase, input with
  | .loadingToken, .token (.error error) => some error
  | .loadingToken, .stop => some .closed
  | .connectingSocket, .connected (.error error) => c.socketFailure error
  | .connectingSocket, .stop => c.socketFailure .closed
  | .awaitingReady, .first (.ok (.connectionReady _)) => none
  | .awaitingReady, .first (.ok _) =>
      c.socketFailure (.protocol "connection.ready must be the first server frame")
  | .awaitingReady, .first (.error error) => c.socketFailure error
  | .sendingHello, .helloSent (.error error) => c.socketFailure error
  | .running, .frame io frame =>
      match (c.socket.processFrame serde io frame).2 with
      | .ok () => none
      | .error error => c.socketFailure error
  | .running, .lost error => c.socketFailure error
  | _, _ => none

/-- The failure calls for a retry. -/
def wantsRetry (serde : Serde V) (c : Connection V) (input : EngineInput V) : Bool :=
  (c.failure serde input).any fun error => !terminalError error && c.policy.enabled

/-- No attempt is left. -/
def Spent (c : Connection V) : Prop := ∃ maximum ∈ c.policy.maximumAttempts, maximum ≤ c.attempt

theorem spent_iff (c : Connection V) :
    c.policy.maximumAttempts.any (· ≤ c.attempt) = true ↔ c.Spent := by
  rw [Spent]
  cases c.policy.maximumAttempts <;> simp

/-! ## The count of retries -/

/-- A step that does not leave a wait: the count stays, a wait begins only with an
attempt left, and a failure that calls for a retry ends the loop only without one. -/
structure Counts (c c' : Connection V) (wants : Bool) : Prop where
  policy : c'.policy = c.policy
  attempt : c'.attempt = c.attempt
  retries : c'.phase = .waitingRetry → ¬ c.Spent
  gives_up : wants = true → c'.phase = .finished → c.Spent

theorem counts_finish (c : Connection V) : Counts c c.finish false :=
  ⟨rfl, rfl, (fun h => by cases h), (fun h => by cases h)⟩

theorem counts_move (c : Connection V) {d : Connection V} (hpolicy : d.policy = c.policy)
    (hattempt : d.attempt = c.attempt) (hphase : d.phase ≠ .waitingRetry) : Counts c d false :=
  ⟨hpolicy, hattempt, (fun h => (hphase h).elim), (fun h => by cases h)⟩

theorem counts_loopTop (c : Connection V) : Counts c c.loopTop false := by
  unfold loopTop
  split
  · exact counts_finish c
  · exact counts_move c rfl rfl (by simp)

/-- Only the policy and the count of the state before matter. -/
theorem Counts.rebase {c d c' : Connection V} {wants : Bool} (h : Counts d c' wants)
    (hpolicy : d.policy = c.policy) (hattempt : d.attempt = c.attempt) : Counts c c' wants := by
  have hspent : d.Spent ↔ c.Spent := by rw [Spent, Spent, hpolicy, hattempt]
  exact ⟨h.policy.trans hpolicy, h.attempt.trans hattempt, fun hp => mt hspent.mpr (h.retries hp),
    fun hw hp => hspent.mp (h.gives_up hw hp)⟩

theorem counts_retryAfter (c : Connection V) (error : RealtimeError) :
    Counts c (c.retryAfter error) (!terminalError error && c.policy.enabled) := by
  unfold retryAfter
  split
  next hterminal =>
    have hwants : (!terminalError error && c.policy.enabled) = false := by
      cases hte : terminalError error <;> simp_all
    rw [hwants]
    exact counts_finish c
  · unfold waitForRetry
    split
    next hspent =>
      exact ⟨rfl, rfl, (fun h => by cases h), fun _ _ => (spent_iff c).mp hspent⟩
    next hspent =>
      exact ⟨rfl, rfl, fun _ h => hspent ((spent_iff c).mpr h), (fun _ h => by cases h)⟩

/-- The end of a socket or of a connection attempt with an error. -/
theorem counts_socketEnded_error (c : Connection V) (error : RealtimeError) :
    Counts c (c.socketEnded (.error error))
      ((c.socketFailure error).any fun error => !terminalError error && c.policy.enabled) := by
  unfold socketEnded socketFailure
  dsimp only
  by_cases hstopped : c.stopped = true
  · rw [if_pos hstopped, if_pos (show c.clearSocketState.stopped = true from hstopped)]
    exact (counts_finish _).rebase rfl rfl
  · rw [if_neg hstopped, if_neg (show ¬ c.clearSocketState.stopped = true from hstopped)]
    exact (counts_retryAfter _ error).rebase rfl rfl

theorem counts_socketEnded_ok (c : Connection V) : Counts c (c.socketEnded (.ok ())) false :=
  (counts_finish _).rebase rfl rfl

/-- **What a step does to the count of retries.** A step outside a wait leaves it; a wait
ends with one more retry or with the loop. -/
theorem step_counts {serde : Serde V} {c c' : Connection V} {input : EngineInput V}
    (h : c.step serde input = some c') :
    (c.phase ≠ .waitingRetry ∧ c.phase ≠ .finished ∧ Counts c c' (c.wantsRetry serde input)) ∨
    (c.phase = .waitingRetry ∧ c.wantsRetry serde input = false ∧ c'.policy = c.policy ∧
      c'.phase ≠ .waitingRetry ∧ (c'.phase = .finished ∨ c'.attempt = c.attempt + 1)) := by
  have outside {p : EnginePhase} (hp : c.phase = p) (hwait : p ≠ .waitingRetry)
      (hfinished : p ≠ .finished) {wants : Bool} (hwants : c.wantsRetry serde input = wants)
      (hcounts : Counts c c' wants) :
      (c.phase ≠ .waitingRetry ∧ c.phase ≠ .finished ∧ Counts c c' (c.wantsRetry serde input)) ∨
      (c.phase = .waitingRetry ∧ c.wantsRetry serde input = false ∧ c'.policy = c.policy ∧
        c'.phase ≠ .waitingRetry ∧ (c'.phase = .finished ∨ c'.attempt = c.attempt + 1)) :=
    .inl ⟨hp ▸ hwait, hp ▸ hfinished, hwants ▸ hcounts⟩
  unfold step at h
  split at h
  case h_1 hp =>
    cases h
    exact outside hp (by decide) (by decide) (by simp [wantsRetry, failure, hp])
      (counts_loopTop c)
  case h_2 hp =>
    cases h
    exact outside hp (by decide) (by decide) (by simp [wantsRetry, failure, hp])
      (counts_move c rfl rfl (by simp))
  case h_3 hp =>
    cases h
    exact outside hp (by decide) (by decide) (by simp [wantsRetry, failure, hp])
      (counts_retryAfter c _)
  case h_4 hp =>
    obtain ⟨-, h⟩ := Option.ite_none_right_eq_some.mp h
    cases h
    exact outside hp (by decide) (by decide) (by simp [wantsRetry, failure, hp])
      (counts_retryAfter c _)
  case h_5 hp =>
    split at h
    · cases h
      exact outside hp (by decide) (by decide) (by simp [wantsRetry, failure, hp])
        (counts_socketEnded_ok c)
    · cases h
      exact outside hp (by decide) (by decide) (by simp [wantsRetry, failure, hp])
        (counts_move c rfl rfl (by simp))
  case h_6 hp =>
    cases h
    exact outside hp (by decide) (by decide) (by simp only [wantsRetry, failure, hp])
      (counts_socketEnded_error c _)
  case h_7 hp =>
    obtain ⟨-, h⟩ := Option.ite_none_right_eq_some.mp h
    cases h
    exact outside hp (by decide) (by decide) (by simp only [wantsRetry, failure, hp])
      (counts_socketEnded_error c _)
  case h_8 hp =>
    cases h
    exact outside hp (by decide) (by decide) (by simp [wantsRetry, failure, hp])
      (counts_move c rfl rfl (by simp))
  case h_9 hp =>
    cases h
    exact outside hp (by decide) (by decide) (by simp only [wantsRetry, failure, hp])
      (counts_socketEnded_error c _)
  case h_10 hp =>
    cases h
    exact outside hp (by decide) (by decide) (by simp only [wantsRetry, failure, hp])
      (counts_socketEnded_error c _)
  case h_11 hp =>
    obtain ⟨-, h⟩ := Option.ite_none_right_eq_some.mp h
    cases h
    exact outside hp (by decide) (by decide) (by simp [wantsRetry, failure, hp])
      (counts_socketEnded_ok c)
  case h_12 hp =>
    cases h
    exact outside hp (by decide) (by decide) (by simp [wantsRetry, failure, hp])
      (counts_move c rfl rfl (by simp))
  case h_13 hp =>
    cases h
    exact outside hp (by decide) (by decide) (by simp only [wantsRetry, failure, hp])
      (counts_socketEnded_error c _)
  case h_14 hp =>
    obtain ⟨-, h⟩ := Option.ite_none_right_eq_some.mp h
    cases h
    exact outside hp (by decide) (by decide) (by simp [wantsRetry, failure, hp])
      (counts_socketEnded_ok c)
  case h_15 io frame hp =>
    split at h
    case h_1 socket heq =>
      cases h
      exact outside hp (by decide) (by decide) (by simp [wantsRetry, failure, hp, heq])
        (counts_move c rfl rfl (by simp [hp]))
    case h_2 socket error heq =>
      cases h
      exact outside hp (by decide) (by decide) (by simp only [wantsRetry, failure, hp, heq]; rfl)
        ((counts_socketEnded_error { c with socket := socket } error).rebase rfl rfl)
  case h_16 hp =>
    cases h
    exact outside hp (by decide) (by decide) (by simp only [wantsRetry, failure, hp])
      (counts_socketEnded_error c _)
  case h_17 hp =>
    obtain ⟨-, h⟩ := Option.ite_none_right_eq_some.mp h
    cases h
    exact outside hp (by decide) (by decide) (by simp [wantsRetry, failure, hp])
      (counts_socketEnded_ok c)
  case h_18 io frame hp =>
    obtain ⟨-, h⟩ := Option.ite_none_right_eq_some.mp h
    cases h
    exact outside hp (by decide) (by decide) (by simp [wantsRetry, failure, hp])
      ((counts_socketEnded_ok { c with socket := (c.socket.processFrame serde io frame).1 }).rebase
        rfl rfl)
  case h_19 hp =>
    refine .inr ⟨hp, by simp [wantsRetry, failure, hp], ?_⟩
    split at h
    · cases h
      exact ⟨rfl, by simp [finish], .inl rfl⟩
    · cases h
      unfold loopTop
      split
      · exact ⟨rfl, by simp [finish], .inl rfl⟩
      · exact ⟨rfl, by simp, .inr rfl⟩
  case h_20 hp =>
    obtain ⟨-, h⟩ := Option.ite_none_right_eq_some.mp h
    cases h
    exact .inr ⟨hp, by simp [wantsRetry, failure, hp], rfl, by simp [finish], .inl rfl⟩
  case h_21 => cases h

end Connection

/-! ## Runs -/

/-- One retry: the clock when its delay was computed, the delay, and the retries made
since a socket was last live. -/
structure Wait where
  sample : ℕ
  delay : Option Duration
  sinceLive : ℕ
  deriving DecidableEq, Repr

/-- A run of the owner task. -/
structure Retrying (V : Type) where
  conn : Connection V
  policy : DelayPolicy
  waits : List Wait
  /-- The retries since a socket was last live, or since the start. -/
  sinceLive : ℕ
  /-- The task left the loop on a failure that calls for a retry. -/
  exhausted : Bool

/-- A step of the task, with the clock it reads, or the stop request of the host. -/
inductive RetryAction (V : Type)
  | task (input : EngineInput V) (sample : ℕ)
  | requestStop

/-- The event that announces a live socket. -/
def ClientEvent.isLive : ClientEvent V → Bool
  | .statusChanged .live => true
  | _ => false

namespace Retrying

/-- The start of a run. -/
def start (snapshot : StateSnapshot) (policy : DelayPolicy) : Retrying V where
  conn := .new snapshot policy.toReconnectPolicy
  policy := policy
  waits := []
  sinceLive := 0
  exhausted := false

/-- The retries since a socket was live, after the events of a step. -/
def countSinceLive (r : Retrying V) (conn : Connection V) : ℕ :=
  if (conn.sent.drop r.conn.sent.length).any ClientEvent.isLive then 0 else r.sinceLive

/-- One step. A step that enters the wait computes its delay from the counter. -/
def step (serde : Serde V) (r : Retrying V) : RetryAction V → Option (Retrying V)
  | .requestStop => some { r with conn := { r.conn with stopped := true } }
  | .task input sample => do
      let conn ← r.conn.step serde input
      let sinceLive := r.countSinceLive conn
      if conn.phase = .waitingRetry then
        return { r with
          conn := conn
          waits := r.waits ++ [⟨sample, r.policy.delay r.conn.attempt sample, sinceLive⟩]
          sinceLive := sinceLive + 1 }
      else
        return { r with
          conn := conn
          sinceLive := sinceLive
          exhausted := r.conn.wantsRetry serde input && conn.phase == .finished }

/-- The counter of the task is the number of its retries. -/
structure Counted (policy : DelayPolicy) (r : Retrying V) : Prop where
  same : r.policy = policy
  conn : r.conn.policy = policy.toReconnectPolicy
  delays : ∀ i wait, r.waits[i]? = some wait → wait.delay = policy.delay i wait.sample
  waiting : r.conn.phase = .waitingRetry → r.waits.length = r.conn.attempt + 1
  running : r.conn.phase ≠ .waitingRetry → r.conn.phase ≠ .finished →
    r.waits.length = r.conn.attempt
  limit : ∀ maximum ∈ policy.maximumAttempts, r.waits.length ≤ maximum
  exhausted : r.exhausted = true →
    r.conn.phase = .finished ∧ ∃ maximum ∈ policy.maximumAttempts, r.waits.length = maximum

theorem counted_start (snapshot : StateSnapshot) (policy : DelayPolicy) :
    Counted policy (start snapshot policy : Retrying V) where
  same := rfl
  conn := rfl
  delays i wait h := by simp [start] at h
  waiting h := by cases h
  running _ _ := rfl
  limit maximum _ := Nat.zero_le maximum
  exhausted h := by cases h

/-- The delays of a list with one more retry. -/
theorem delays_concat {policy : DelayPolicy} {waits : List Wait}
    (h : ∀ i wait, waits[i]? = some wait → wait.delay = policy.delay i wait.sample) {last : Wait}
    (hlast : last.delay = policy.delay waits.length last.sample) (i : ℕ) (wait : Wait)
    (hwait : (waits ++ [last])[i]? = some wait) : wait.delay = policy.delay i wait.sample := by
  rcases Nat.lt_trichotomy i waits.length with hlt | rfl | hgt
  · rw [List.getElem?_append_left hlt] at hwait
    exact h i wait hwait
  · rw [List.getElem?_concat_length] at hwait
    cases hwait
    exact hlast
  · rw [List.getElem?_eq_none (by simp; omega)] at hwait
    cases hwait

theorem counted_step {policy : DelayPolicy} {serde : Serde V} {r r' : Retrying V}
    {a : RetryAction V} (H : Counted policy r) (h : r.step serde a = some r') :
    Counted policy r' := by
  cases a with
  | requestStop =>
      cases h
      exact ⟨H.same, H.conn, H.delays, H.waiting, H.running, H.limit, H.exhausted⟩
  | task input sample =>
      simp only [step, Option.bind_eq_bind, Option.bind_eq_some_iff] at h
      obtain ⟨conn, hconn, h⟩ := h
      rcases Connection.step_counts hconn with ⟨hwait, hfinished, hcounts⟩ |
        ⟨hwait, hwants, hpolicy, hnot, hleaves⟩
      · have hlength := H.running hwait hfinished
        have hspent : r.conn.Spent ↔ ∃ maximum ∈ policy.maximumAttempts,
            maximum ≤ r.waits.length := by
          rw [Connection.Spent, H.conn, hlength]
        have hpolicy : conn.policy = policy.toReconnectPolicy := hcounts.policy.trans H.conn
        have hattempt : r.waits.length = conn.attempt := by rw [hcounts.attempt, hlength]
        split at h
        next hphase =>
          cases h
          have hleft := mt hspent.mpr (hcounts.retries hphase)
          refine ⟨H.same, hpolicy, delays_concat H.delays (by rw [hlength, H.same]), fun _ => ?_,
            fun h _ => (h hphase).elim, fun maximum hmaximum => ?_, fun h => ?_⟩
          · rw [List.length_append, List.length_singleton, hattempt]
          · have hlt := not_exists.mp hleft maximum
            rw [not_and, Nat.not_le] at hlt
            rw [List.length_append, List.length_singleton]
            exact hlt hmaximum
          · exact absurd (H.exhausted h).1 hfinished
        next hphase =>
          cases h
          refine ⟨H.same, hpolicy, H.delays, fun h => (hphase h).elim, fun _ _ => hattempt, H.limit,
            fun h => ?_⟩
          obtain ⟨hwants, hend⟩ := (Bool.and_eq_true_iff).mp h
          obtain ⟨maximum, hmaximum, hle⟩ :=
            hspent.mp (hcounts.gives_up hwants (eq_of_beq hend))
          exact ⟨eq_of_beq hend, maximum, hmaximum, Nat.le_antisymm (H.limit maximum hmaximum) hle⟩
      · have hlength := H.waiting hwait
        rw [if_neg hnot] at h
        cases h
        refine ⟨H.same, hpolicy.trans H.conn, H.delays, fun h => (hnot h).elim,
          fun _ hfinished => ?_, H.limit, fun h => ?_⟩
        · rw [hlength, hleaves.resolve_left hfinished]
        · rw [hwants, Bool.false_and] at h
          cases h

end Retrying

/-- **Retries are counted from the start of the run.** Whatever the task meets, the delay
of retry `i` is that of attempt `i`, live sockets in between or not; with a limit there
are at most that many retries in the whole run, and the task stops for lack of attempts
only after exactly that many. -/
theorem retries_counted_from_start (serde : Serde V) (snapshot : StateSnapshot)
    (policy : DelayPolicy) (actions : List (RetryAction V)) (r : Retrying V)
    (hrun : exec (Retrying.step serde) (Retrying.start snapshot policy) actions = some r) :
    (∀ i wait, r.waits[i]? = some wait → wait.delay = policy.delay i wait.sample) ∧
      (∀ maximum ∈ policy.maximumAttempts, r.waits.length ≤ maximum) ∧
      (r.exhausted = true → ∃ maximum ∈ policy.maximumAttempts, r.waits.length = maximum) := by
  have H : r.Counted policy := invariant (fun _ _ _ H h => Retrying.counted_step H h)
    (Retrying.counted_start snapshot policy) hrun
  exact ⟨H.delays, H.limit, fun h => (H.exhausted h).2⟩

/-- Two attempts of 10 to 40 milliseconds. -/
def twoAttempts : DelayPolicy where
  enabled := true
  maximumAttempts := some 2
  minimumDelay := .fromMillis 10
  maximumDelay := .fromMillis 40
  jitter := .zero

/-- A connection attempt is refused; the next socket becomes live and is reset; then no
token is to be had. -/
def resetAfterLive : List (RetryAction (Option VoiceAuthority)) :=
  [.task .scheduled 0, .task (.token (.ok ())) 0,
    .task (.connected (.error (.transport "refused"))) 0, .task .slept 0,
    .task (.token (.ok ())) 0, .task (.connected (.ok ())) 0,
    .task (.first (.ok (.connectionReady (sampleReady 0)))) 0, .task (.helloSent (.ok ())) 0,
    .task (.frame (sampleEnv 9) (.syncComplete ⟨sampleCursor⟩)) 0,
    .task (.lost (.transport "reset")) 0, .task .slept 0,
    .task (.token (.error (.provider "unavailable"))) 0]

theorem retries_counted_from_start_reset :
    ∃ r, exec (Retrying.step authorityPayloads)
        (Retrying.start (sampleSnapshot 5 none) twoAttempts) resetAfterLive = some r ∧
      r.exhausted = true ∧
      ∀ i wait, r.waits[i]? = some wait → wait.delay = twoAttempts.delay i wait.sample :=
  ⟨_, rfl, rfl, (retries_counted_from_start authorityPayloads (sampleSnapshot 5 none)
    twoAttempts resetAfterLive _ rfl).1⟩

/-- **A live socket does not start the backoff again**: its loss is waited out longer than
the minimum, and the task gives up one retry after it although two are allowed. -/
theorem backoff_not_restarted :
    ∃ r, exec (Retrying.step authorityPayloads)
        (Retrying.start (sampleSnapshot 5 none) twoAttempts) resetAfterLive = some r ∧
      ¬ (∀ wait ∈ r.waits, wait.delay = twoAttempts.delay wait.sinceLive wait.sample) ∧
      ¬ (r.exhausted = true → ∀ maximum ∈ twoAttempts.maximumAttempts, maximum ≤ r.sinceLive) := by
  refine ⟨_, rfl, fun h => ?_, fun h => ?_⟩
  · have hlast := h ⟨0, some (.fromMillis 20), 0⟩ (by decide +kernel)
    revert hlast
    decide +kernel
  · exact absurd (h rfl 2 rfl) (by decide)

end ZephyrVox.Realtime
