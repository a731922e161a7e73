import ZephyrVox.Sdk.Rejoin

/-!
# Explicit leaves and replayed joins

A host that leaves voice forgets the remembered join first and waits for the voice
gate, or for the session, afterwards. A relay copies the remembered join before it
waits for the same gate, and checks nothing once it has it. A leave therefore undoes
a replay only if no join is in progress when it returns.

The leaves that hosts made are observed next to the client.

## Main definitions

* `Pc.joins` — a task stands in `joinVoice`.
* `Observed V K` — a client with the leaves its hosts made; `Observed.step`.
* `Replays` — a step requests, installs or records a join.
* `Settled` — no join is in progress and none is remembered.
* `leave_not_undone` — no relay replays a join after a leave that returns settled.
-/

namespace ZephyrVox.Sdk

open Realtime Voice

variable {V K : Type}

/-- Whether a task stands in `joinVoice`. -/
def Pc.joins : Pc V → Bool
  | .join _ _ => true
  | p => p.pending?.isSome

namespace Client

variable {env : Env V K} {s t : Client V K} {i : Task} {a : Action V}

/-! ## Tasks outside of a join -/

@[simp] theorem joins_returned (result : Except SdkError Unit) :
    (Pc.returned result : Pc V).joins = false := rfl

/-- Waiting for a session to close is part of a join only if a join closes it. -/
theorem joins_of_after {session : ℕ} {k : After V} {p : Pc V}
    (hp : p = .teardown session k ∨ p = .stopping session k ∨ p = .leaving session k) :
    p.joins = k.pending?.isSome := by
  rcases hp with rfl | rfl | rfl <;> rfl

theorem lockTeardown_joins {session : ℕ} {k : After V} (hk : k.pending?.isSome = false)
    (h : s.lockTeardown i session k = some t) : (t.tasks.pc i).joins = false := by
  cases lockTeardown_cases h with
  | finds viaClient _ _ => simp [finishLeave_pc]
  | stops x _ _ => simpa [goto, Pc.joins, Pc.pending?] using hk

theorem transportStopped_joins {session : ℕ} {k : After V} (hk : k.pending?.isSome = false)
    (h : s.transportStopped i session k = some t) : (t.tasks.pc i).joins = false := by
  obtain ⟨x, -, -, hclosed⟩ := transportStopped_cases h
  cases hclosed with
  | records call next reuse y hk' _ =>
      subst hk'
      cases hk
  | relays r _ => simp [release, Pc.joins, Pc.pending?]
  | closes _ => simp [goto]
  | shuts _ => simp [release, Pc.joins, Pc.pending?]
  | fails viaClient _ => simp [finishLeave_pc]
  | leaves viaClient _ => simpa [goto, Pc.joins, Pc.pending?] using hk

theorem leaveResponded_joins {session : ℕ} {k : After V} {result : Except Http.HttpError Unit}
    (h : s.leaveResponded i session k result = some t) : (t.tasks.pc i).joins = false := by
  cases leaveResponded_cases h with
  | leaves viaClient _ => simp [finishLeave_pc]
  | fails viaClient e _ => simp [finishLeave_pc]

/-- A relay starts a join only to replay the remembered one. -/
theorem handleEvent_joins {g : ℕ} {r : Relay} {event : ClientEvent V}
    (hnone : s.voiceIntent = none) :
    ((s.handleEvent i g r event).tasks.pc i).joins = false := by
  have hforget : (s.forgetIntent r event).voiceIntent = none := by
    unfold forgetIntent
    split
    · rfl
    · exact hnone
  unfold handleEvent
  dsimp only
  split
  · simp [goto, Pc.joins, Pc.pending?]
  · split
    · simp [goto, Pc.joins, Pc.pending?]
    · split
      · unfold rejoinVoiceIfConfigured
        rw [hforget]
        cases (s.forgetIntent r event).autoRejoinVoice <;> simp [goto, Pc.joins, Pc.pending?]
      · simp [goto, Pc.joins, Pc.pending?]

/-- **A task outside of a join stays outside** as long as no join is remembered. -/
theorem resume_joins {input : Input} (hp : (s.tasks.pc i).joins = false)
    (hnone : s.voiceIntent = none) (h : s.resume env i input = some t) :
    (t.tasks.pc i).joins = false := by
  unfold resume at h
  split at h
  case h_1 hpc =>
    unfold connectLocked at h
    split at h
    · cases h
    · split at h
      · cases h; simp [goto]
      · cases h; simp [goto, Pc.joins, Pc.pending?]
  case h_2 result hpc =>
    cases h
    unfold connectReady
    split <;> simp [goto, Pc.joins, Pc.pending?]
  case h_3 c hpc =>
    unfold connectInstall at h
    split at h
    · cases h
    · split at h
      · cases h; simp [goto, Pc.joins, Pc.pending?]
      · cases h; simp [goto]
  case h_4 c hpc =>
    obtain ⟨-, h⟩ := Option.ite_none_right_eq_some.mp h
    cases h
    simp [goto]
  case h_5 result hpc =>
    cases h
    unfold discovered
    split <;> simp [goto]
  case h_6 r hpc =>
    cases i with
    | host n => cases h
    | relay g =>
        dsimp only at h
        split at h
        · cases h; simp [goto, Pc.joins, Pc.pending?]
        · cases h; simp [goto, Pc.joins, Pc.pending?]
  case h_7 r hpc =>
    cases i with
    | host n => cases h
    | relay g =>
        dsimp only [relayReceive] at h
        split at h
        · cases h
        · split at h
          · cases h
          · cases h; simp [goto, Pc.joins, Pc.pending?]
          · cases h; exact handleEvent_joins hnone
  case h_8 r event hpc =>
    cases i with
    | host n => cases h
    | relay g =>
        dsimp only [stopVoiceTransport] at h
        split at h
        · cases h
        · split at h
          · split at h
            · rw [acquire_pc h]; rfl
            · cases h; simp [goto, Pc.joins, Pc.pending?]
          · cases h; simp [goto, Pc.joins, Pc.pending?]
  case h_9 call stage hpc => rw [hpc] at hp; cases hp
  case h_10 hpc =>
    unfold leaveCurrent at h
    split at h
    · cases h
    · cases h; simp [goto]
    · split at h
      · cases h
      · rw [acquire_pc h]; rfl
  case h_11 session k hpc =>
    rw [hpc, joins_of_after (.inl rfl)] at hp
    exact lockTeardown_joins hp h
  case h_12 session k hpc =>
    rw [hpc, joins_of_after (.inr (.inl rfl))] at hp
    exact transportStopped_joins hp h
  case h_13 session k result hpc => exact leaveResponded_joins h
  case h_14 hpc =>
    split at h
    · cases h
    · split at h
      · cases h; simp [goto]
      · cases h; simp [goto, Pc.joins, Pc.pending?]
  case h_15 hpc =>
    cases shutdownVoice_cases h with
    | finds _ _ => simp [goto, Pc.joins, Pc.pending?]
    | takes session _ _ h =>
        rw [acquire_pc h]
        rfl
  case h_16 hpc =>
    cases shutdownConnection_cases h with
    | clears _ _ => simp [shutdownClear, goto, Pc.joins, Pc.pending?]
    | closes c _ _ => simp [goto, Pc.joins, Pc.pending?]
  case h_17 c hpc =>
    obtain ⟨-, h⟩ := Option.ite_none_right_eq_some.mp h
    cases h
    simp [shutdownClear, goto, Pc.joins, Pc.pending?]
  case h_18 hpc => cases h; simp [shutdownFinish, goto]
  case h_19 => cases h

/-- A call that is not `joinVoice` starts no join. -/
theorem call_joins {n : ℕ} {c : Call} (hc : ∀ channelId request, c ≠ .joinVoice channelId request)
    (h : s.call (.host n) c = some t) : (t.tasks.pc (.host n)).joins = false := by
  unfold call at h
  cases c with
  | joinVoice channelId request => exact absurd rfl (hc channelId request)
  | connect | leaveVoice =>
      dsimp only at h
      split at h
      · cases h; simp [goto]
      · cases h; simp [goto, Pc.joins, Pc.pending?]
  | discover =>
      dsimp only at h
      split at h
      · cases h; simp [goto]
      · split at h
        · cases h; simp [goto]
        · cases h; simp [goto, Pc.joins, Pc.pending?]
  | closeSession session | leaveSession session =>
      obtain ⟨x, -, rfl⟩ := Option.map_eq_some_iff.mp h
      simp [goto, Pc.joins, Pc.pending?, After.pending?]
  | shutdown => cases h; simp [goto, Pc.joins, Pc.pending?]

/-! ## Settled clients -/

/-- No join is remembered, and none is in progress. -/
structure Settled (s : Client V K) : Prop where
  intent : s.voiceIntent = none
  idle : ∀ i, (s.tasks.pc i).joins = false

/-- A step requests an HTTP join for a relay, installs a session, or records a join. -/
def Replays (s t : Client V K) : Prop :=
  t.history.rejoins ≠ s.history.rejoins ∨ t.sessions ≠ s.sessions ∨
    ∃ intent, t.voiceIntent = some intent ∧ s.voiceIntent ≠ some intent

/-- A move of a task outside of a join requests, installs and records nothing. -/
theorem Effect.not_replays {q : Pc V} (h : Effect env s t i q)
    (hp : (s.tasks.pc i).joins = false) : ¬ Replays s t := by
  have hpending : (s.tasks.pc i).pending? = none := by
    cases hpc : s.tasks.pc i with
    | join call stage => rfl
    | _ => rw [hpc] at hp; simpa [Pc.joins] using hp
  have hsessions : t.sessions = s.sessions := by
    rcases h.sessions with heq | ⟨call, b, w, reuse, conn, x, hpc, -⟩
    · exact heq
    · rw [hpc] at hp
      cases hp
  rintro (hrejoins | hinstalled | ⟨intent, ht, hs⟩)
  · rcases h.rejoins with heq | ⟨v, since, hrejoin, -⟩
    · exact hrejoins heq
    · cases hpc : s.tasks.pc i with
      | join call stage => rw [hpc] at hp; cases hp
      | _ => rw [hpc] at hrejoin; cases hrejoin
  · exact hinstalled hsessions
  · rcases h.intent ht with heq | ⟨-, x, hgrown⟩ | hrecorded
    · exact hs heq
    · rw [hsessions] at hgrown
      simp at hgrown
    · rw [hpending] at hrecorded
      cases hrecorded

/-- **A settled client stays settled** until a host calls `joinVoice`, and nothing is
joined meanwhile. -/
theorem settled_step (hs : s.Settled)
    (ha : ∀ n channelId request, a ≠ .call n (.joinVoice channelId request))
    (h : s.step env a = some t) : t.Settled ∧ ¬ Replays s t := by
  have moved {i : Task} {q : Pc V} (hm : Moved env s t i q)
      (hq : (t.tasks.pc i).joins = false) : t.Settled ∧ ¬ Replays s t := by
    have hreplays : ¬ Replays s t := hm.effect.not_replays (hs.idle i)
    refine ⟨⟨?_, ?_⟩, hreplays⟩
    · by_contra hsome
      obtain ⟨intent, hintent⟩ := Option.ne_none_iff_exists'.mp hsome
      refine hreplays (.inr (.inr ⟨intent, hintent, ?_⟩))
      rw [hs.intent]
      intro h
      cases h
    · refine hm.forall_pc (P := fun _ p => p.joins = false) hs.idle ?_
      rwa [hm.pc, Function.update_self] at hq
  have kept (htasks : t.tasks = s.tasks) (hintent : t.voiceIntent = s.voiceIntent)
      (hrejoins : t.history.rejoins = s.history.rejoins) (hsessions : t.sessions = s.sessions) :
      t.Settled ∧ ¬ Replays s t := by
    refine ⟨⟨hintent.trans hs.intent, by rw [htasks]; exact hs.idle⟩, ?_⟩
    rintro (h | h | ⟨intent, ht, hne⟩)
    · exact h hrejoins
    · exact h hsessions
    · exact hne (hintent ▸ ht)
  cases step_cases h with
  | call n c q result hp hm =>
      have hcall : s.call (.host n) c = some t := by simpa [step, hp] using h
      have hother : ∀ channelId request, c ≠ .joinVoice channelId request := by
        intro channelId request hc
        exact ha n channelId request (by rw [hc])
      exact moved hm (call_joins hother hcall)
  | resume i input q hp hm => exact moved hm (resume_joins (hs.idle i) hs.intent h)
  | install i input c conn hp hconn hstopped ht =>
      subst ht
      refine ⟨⟨hs.intent, fun j => ?_⟩, ?_⟩
      · by_cases hji : j = i
        · subst hji
          simp [goto]
        · by_cases hjr : j = .relay (s.connectionGeneration + 1)
          · subst hjr
            simp [goto, Gate.Tasks.goto, hji, Pc.joins, Pc.pending?]
          · simpa [goto, Gate.Tasks.goto, hji, hjr] using hs.idle j
      · rintro (h | h | ⟨intent, ht, hne⟩)
        · exact h rfl
        · exact h rfl
        · exact hne ht
  | abort i input hp ht =>
      subst ht
      refine ⟨⟨hs.intent, fun j => ?_⟩, ?_⟩
      · by_cases hji : j = i
        · subst hji
          simp [shutdownFinish, goto]
        · cases j with
          | relay g => simp [shutdownFinish, goto, Gate.Tasks.goto, hji, Pc.joins, Pc.pending?]
          | host m => simpa [shutdownFinish, goto, Gate.Tasks.goto, hji] using hs.idle (.host m)
      · rintro (h | h | ⟨intent, ht, hne⟩)
        · exact h rfl
        · exact h rfl
        · exact hne ht
  | engine c input conn next hconn hstep ht => subst ht; exact kept rfl rfl rfl rfl
  | close c ht => subst ht; exact kept rfl rfl rfl rfl
  | worker w input worker next sealed keyCache hworker hstep ht =>
      subst ht
      exact kept rfl rfl rfl rfl

/-! ## Observed leaves -/

end Client

/-- Whether a call leaves the current session. -/
def Call.leavesCurrent (s : Client V K) : Call → Bool
  | .leaveVoice => true
  | .leaveSession session => s.voice = some session
  | _ => false

/-- Whether an operation returned without an error. -/
def Pc.returnedOk : Pc V → Bool
  | .returned (.ok ()) => true
  | _ => false

theorem Pc.eq_returned_of_ok {p : Pc V} (h : p.returnedOk = true) : p = .returned (.ok ()) := by
  unfold returnedOk at h
  split at h
  · rfl
  · cases h

/-- A client with the leaves of its hosts. -/
structure Observed (V K : Type) where
  client : Client V K
  /-- The hosts whose last call leaves the session that was current. -/
  leaving : ℕ → Bool
  /-- A leave returned, and no host has called `joinVoice` since. -/
  left : Bool

namespace Observed

variable {env : Env V K} {o o' : Observed V K} {a : Action V}

/-- A client before any operation. -/
def new (autoRejoinVoice : Bool) (policy : ReconnectPolicy) : Observed V K where
  client := .new autoRejoinVoice policy
  leaving := fun _ => false
  left := false

/-- One action, with what it shows of the leaves. -/
def step (env : Env V K) (o : Observed V K) (a : Action V) : Option (Observed V K) :=
  (o.client.step env a).map fun t => {
    client := t
    leaving := match a with
      | .call n c => Function.update o.leaving n (c.leavesCurrent o.client)
      | _ => o.leaving
    left := match a with
      | .call _ (.joinVoice _ _) => false
      | .resume (.host n) _ => o.left || (o.leaving n && (t.tasks.pc (.host n)).returnedOk)
      | _ => o.left }

/-- An action in which no leave returns unless the client is settled. -/
def LeavesSettled (env : Env V K) (o : Observed V K) (a : Action V) : Prop :=
  ∀ n input t, a = .resume (.host n) input → o.leaving n = true →
    o.client.step env a = some t → (t.tasks.pc (.host n)).returnedOk = true → o.client.Settled

/-- After a leave that returned settled the client is settled. -/
theorem settled_step (hs : o.left = true → o.client.Settled) (ha : o.LeavesSettled env a)
    (h : o.step env a = some o') : o'.left = true → o'.client.Settled := by
  obtain ⟨t, ht, rfl⟩ := Option.map_eq_some_iff.mp h
  intro hleft
  have keep (hsettled : o.client.Settled)
      (hjoin : ∀ n channelId request, a ≠ .call n (.joinVoice channelId request)) : t.Settled :=
    (Client.settled_step hsettled hjoin ht).1
  cases a with
  | call n c =>
      cases c with
      | joinVoice channelId request => cases hleft
      | _ => exact keep (hs hleft) (fun _ _ _ h => by cases h)
  | resume i input =>
      cases i with
      | host n =>
          rcases Bool.or_eq_true_iff.mp hleft with hleft | hreturns
          · exact keep (hs hleft) (fun _ _ _ h => by cases h)
          · obtain ⟨hleaving, hok⟩ := Bool.and_eq_true_iff.mp hreturns
            exact keep (ha n input t rfl hleaving ht hok) (fun _ _ _ h => by cases h)
      | relay g => exact keep (hs hleft) (fun _ _ _ h => by cases h)
  | engine c input => exact keep (hs hleft) (fun _ _ _ h => by cases h)
  | closeControl c => exact keep (hs hleft) (fun _ _ _ h => by cases h)
  | worker w input => exact keep (hs hleft) (fun _ _ _ h => by cases h)

/-- **A leave is not undone** in a run whose leaves of the current session return
only while no join is in progress and none is remembered: afterwards no relay
requests an HTTP join, installs a session or records a join until a host calls
`joinVoice`. -/
theorem leave_not_undone (env : Env V K) (autoRejoinVoice : Bool) (policy : ReconnectPolicy)
    (schedule : List (Action V))
    (hleaves : Transition.Along (step env) (LeavesSettled env) (new autoRejoinVoice policy)
      schedule)
    (h : Transition.exec (step env) (new autoRejoinVoice policy) schedule = some o)
    (hleft : o.left = true) (g : ℕ) (input : Input) (t : Client V K)
    (ht : o.client.step env (.resume (.relay g) input) = some t) :
    ¬ Client.Replays o.client t := by
  have hstep : ∀ o a o', (o.left = true → o.client.Settled) → LeavesSettled env o a →
      step env o a = some o' → o'.left = true → o'.client.Settled :=
    fun _ _ _ hs ha h => settled_step hs ha h
  have hnew : (new autoRejoinVoice policy : Observed V K).left = true →
      (new autoRejoinVoice policy : Observed V K).client.Settled := fun h => by cases h
  have hsettled := Transition.invariant_along hstep hnew hleaves h hleft
  exact (Client.settled_step hsettled (fun _ _ _ h => by cases h) ht).2

/-- All hosts but the first `hosts` are idle. -/
def HostsIdle (hosts : ℕ) (o : Observed V K) : Prop :=
  ∀ n, hosts ≤ n → ∃ result, o.client.tasks.pc (.host n) = .returned result

/-- A test for a settled client of which all but the first hosts are idle. -/
def checkSettled (hosts : ℕ) (s : Client V K) : Bool :=
  s.voiceIntent.isNone && ((List.range hosts).all fun n => !(s.tasks.pc (.host n)).joins) &&
    (List.range (s.connectionGeneration + 1)).all fun g => !(s.tasks.pc (.relay g)).joins

/-- A test that guarantees that leaves return settled. -/
def checkLeavesSettled (hosts : ℕ) (env : Env V K) (o : Observed V K) : Action V → Bool
  | .call n _ => n < hosts
  | .resume (.host n) input =>
      !o.leaving n || checkSettled hosts o.client ||
        (o.client.step env (.resume (.host n) input)).all fun t =>
          !(t.tasks.pc (.host n)).returnedOk
  | _ => true

theorem settled_of_check {hosts : ℕ} (hs : o.client.Sound) (hidle : o.HostsIdle hosts)
    (h : checkSettled hosts o.client = true) : o.client.Settled := by
  simp only [checkSettled, Bool.and_eq_true, List.all_eq_true, List.mem_range] at h
  obtain ⟨⟨hintent, hhosts⟩, hrelays⟩ := h
  refine ⟨by simpa using hintent, fun i => ?_⟩
  cases i with
  | host n =>
      by_cases hn : n < hosts
      · simpa using hhosts n hn
      · obtain ⟨result, hp⟩ := hidle n (by omega)
        rw [hp]
        rfl
  | relay g =>
      by_cases hg : g < o.client.connectionGeneration + 1
      · simpa using hrelays g hg
      · rcases hs.tasks.relay g with hexit | ⟨r, conn, -, -, hinstalled, -⟩
        · rw [hexit]
          rfl
        · have hlt := (List.getElem?_eq_some_iff.mp hinstalled).1
          rw [← hs.tasks.generation] at hlt
          omega

/-- Only the hosts that are called leave their place. -/
theorem hostsIdle_step {hosts : ℕ} (hidle : o.HostsIdle hosts)
    (hcall : ∀ n c, a = .call n c → n < hosts) (h : o.step env a = some o') :
    o'.HostsIdle hosts := by
  obtain ⟨t, ht, rfl⟩ := Option.map_eq_some_iff.mp h
  intro n hn
  obtain ⟨result, hp⟩ := hidle n hn
  refine ⟨result, (Client.step_host_pc ht ?_ ?_).trans hp⟩
  · intro c hc
    have hlt : n < hosts := hcall n c hc
    omega
  · rintro input rfl
    simp [Client.step, Client.resume, hp] at ht

theorem along_leavesSettled (hosts : ℕ) {autoRejoinVoice : Bool} {policy : ReconnectPolicy}
    {schedule : List (Action V)}
    (h : Transition.checkAlong (step env) (checkLeavesSettled hosts env)
      (new autoRejoinVoice policy) schedule = true) :
    Transition.Along (step env) (LeavesSettled env) (new autoRejoinVoice policy) schedule := by
  refine Transition.along_of_check_invariant (I := fun o => o.client.Sound ∧ o.HostsIdle hosts)
    ?_ ?_ ⟨Client.sound_new _ _, fun n _ => ⟨.ok (), rfl⟩⟩ h
  · intro o a o' ⟨hs, hidle⟩ hcheck ho
    refine ⟨?_, hostsIdle_step hidle ?_ ho⟩
    · obtain ⟨t, ht, rfl⟩ := Option.map_eq_some_iff.mp ho
      exact hs.step ht
    · rintro n c rfl
      simpa [checkLeavesSettled] using hcheck
  · rintro o a ⟨hs, hidle⟩ hcheck n input t rfl hleaving ht hok
    simp only [checkLeavesSettled, hleaving, Bool.not_true, Bool.false_or, ht, Option.all_some,
      hok, Bool.or_false] at hcheck
    exact settled_of_check hs hidle hcheck

/-- A joined host leaves; the connection is lost and becomes live again. -/
def leftSchedule : Schedule :=
  joinedSchedule ++ [.call 0 .leaveVoice, .resume (.host 0) .ready, .resume (.host 0) .ready,
    .worker 0 .stop, .resume (.host 0) .ready, .resume (.host 0) (.left (.ok ()))] ++
    losing 0 ++ opening 0 1 ++ receiving 0 (.syncComplete ⟨sampleCursor⟩) ++ relaying 1 13

/-- The relay reads the `Live` status and goes on. -/
theorem leave_not_undone_left :
    ∃ o t, Transition.exec (step sampleClientEnv) (new true ⟨true, none⟩) leftSchedule = some o ∧
      o.left = true ∧ o.client.step sampleClientEnv (.resume (.relay 1) .ready) = some t ∧
      ¬ Client.Replays o.client t := by
  have hrun : (Transition.exec (step sampleClientEnv) (new true ⟨true, none⟩) leftSchedule).any
      (fun o => o.left && (o.client.step sampleClientEnv (.resume (.relay 1) .ready)).isSome) =
        true := by decide +kernel
  obtain ⟨o, ho, hresult⟩ := (Option.any_eq_true _ _).mp hrun
  obtain ⟨hleft, hsome⟩ := Bool.and_eq_true_iff.mp hresult
  obtain ⟨t, ht⟩ := Option.isSome_iff_exists.mp hsome
  exact ⟨o, t, ho, hleft, ht, leave_not_undone sampleClientEnv true ⟨true, none⟩ leftSchedule
    (along_leavesSettled 1 (by decide +kernel)) ho hleft 1 .ready t ht⟩

/-- The relay has copied the remembered join and waits for the gate when the host
leaves. -/
def undoneSchedule : Schedule :=
  Client.lostSchedule ++ opening 0 1 ++ receiving 0 (.syncComplete ⟨sampleCursor⟩) ++
    relaying 1 14 ++
    [.call 0 .leaveVoice, .resume (.host 0) .ready] ++ relaying 1 2

/-- The leave has returned, and the relay requests the HTTP join. -/
theorem undoneSchedule_replays :
    ¬ ∀ (autoRejoinVoice : Bool) (policy : ReconnectPolicy) (schedule : Schedule)
      (o : Observed (Option VoiceAuthority) SampleCipher),
      Transition.exec (step sampleClientEnv) (new autoRejoinVoice policy) schedule = some o →
      o.left = true → ∀ g input t, o.client.step sampleClientEnv (.resume (.relay g) input) =
        some t → ¬ Client.Replays o.client t := by
  intro h
  have hrun : (Transition.exec (step sampleClientEnv) (new true ⟨true, none⟩) undoneSchedule).any
      (fun o => o.left && (o.client.step sampleClientEnv
        (.resume (.relay 1) (.metadata (.ok sampleMetadata)))).any fun t =>
          o.client.history.rejoins.length < t.history.rejoins.length) = true := by
    decide +kernel
  obtain ⟨o, ho, hresult⟩ := (Option.any_eq_true _ _).mp hrun
  obtain ⟨hleft, hstep⟩ := Bool.and_eq_true_iff.mp hresult
  obtain ⟨t, ht, hlt⟩ := (Option.any_eq_true _ _).mp hstep
  refine h true ⟨true, none⟩ undoneSchedule o ho hleft 1 _ t ht (.inl fun heq => ?_)
  have hlt := of_decide_eq_true hlt
  rw [heq] at hlt
  omega

end Observed

end ZephyrVox.Sdk
