import ZephyrVox.Lib.Progress
import ZephyrVox.Http.Singleflight

/-!
# Every call returns

A call waits for the credential gate, for a call of the store, for a response, or as
a follower for the leader of its flight; any caller may have been dropped before.
As long as transports and stores answer, somebody can always move: the holder of the
gate is never the one that waits for it, and a follower that is not woken yet has a
leader, or the guard of a dropped one, that will wake it. And no call goes in circles.

## Main definitions

* `ClientAction.goesOn` — steps that begin no call and drop none.
* `ApiClient.left` — how many such steps a call can still make.
* `ApiClient.Heard` — every follower is woken, sees its flight settled, or has
  somebody that will wake it.
-/

namespace ZephyrVox.Http

open Transition Gate

/-! ## The work left -/

/-- Steps that begin no call and drop none. -/
def ClientAction.goesOn {Response : Type} : ClientAction Response → Prop
  | .call _ _ | .cancel _ _ => False
  | _ => True

/-- How many steps a credential operation takes at most from a counter on. -/
def CredentialPc.left : CredentialPc → ℕ
  | .idle | .finished _ => 0
  | .setWrite _ | .clearWrite | .expireWrite _ | .replaceWrite _ _ | .supersedeRead _ _ => 1
  | .setSave _ | .clearStore | .expireClear _ | .replaceSave _ _ | .supersedeGate _ _ => 2
  | .setGate _ | .clearGate | .expireRead _ | .replaceRead _ _ => 3
  | .expireGate _ | .replaceGate _ _ => 4
  | .send _ => 5
  | .loadRead _ => 6
  | .loadWrite _ _ => 7
  | .loadStore _ => 8
  | .loadGate _ => 9

/-- How many steps a call takes at most from a counter on, apart from those of the
credential operation it waits for there. -/
def ClientPc.left : ClientPc → ℕ
  | .idle | .returned _ => 0
  | .credential | .loginSet | .logoutClear _ | .retrySend _ | .dropped _ => 1
  | .retryLoad | .dropping _ => 2
  | .loginSend | .logoutSend _ => 11
  | .logoutLoad | .leaving _ _ _ | .collecting _ _ => 12
  | .waking _ _ _ | .waiting _ _ _ => 13
  | .recording _ _ _ | .peeking _ _ _ => 14
  | .leading _ _ | .checking _ _ _ => 15
  | .joined _ _ => 16
  | .refreshGate _ => 25
  | .requestCheck _ => 26
  | .requestSend _ _ => 36
  | .requestLoad _ => 37

/-- No call is under way: none was made, or it returned. -/
def ClientPc.AtRest (p : ClientPc) : Prop := p = .idle ∨ ∃ result, p = .returned result

theorem CredentialPc.left_le (p : CredentialPc) : p.left ≤ 9 := by
  cases p <;> simp [left]

theorem ClientPc.left_le (p : ClientPc) : p.left ≤ 37 := by
  cases p <;> simp [left]

namespace CredentialState

variable {Response : Type} {env : RefreshEnv Response} {c c' : CredentialState} {i : ℕ}

theorem left_afterLoad (refresh : Bool) (tokens : Option TokenPair) :
    (afterLoad env refresh tokens).left ≤ 5 := by
  unfold afterLoad
  split
  · split
    · simp [CredentialPc.left]
    · split <;> simp [CredentialPc.left]
  · simp [CredentialPc.left]

theorem left_afterSend (current : TokenPair) (response : Except HttpError Response) :
    (afterSend env current response).left ≤ 4 := by
  unfold afterSend
  split
  · simp [CredentialPc.left]
  · split
    · split <;> simp [CredentialPc.left]
    · split <;> simp [CredentialPc.left]

theorem left_advance (h : c.advance env i = some c') :
    (c'.tasks.pc i).left < (c.tasks.pc i).left := by
  unfold CredentialState.advance at h
  cases hpc : c.tasks.pc i with
  | setGate _ | clearGate | supersedeGate _ _ | expireGate _ | replaceGate _ _ =>
      rw [hpc] at h
      rw [pc_acquire h]
      simp [CredentialPc.left]
  | loadGate refresh =>
      rw [hpc] at h
      rw [pc_acquire h]
      split <;> simp [CredentialPc.left]
  | loadRead refresh =>
      simp only [hpc, Option.some.injEq] at h
      subst h
      rw [pc_release]
      exact Nat.lt_of_le_of_lt (left_afterLoad refresh c.active) (by simp [CredentialPc.left])
  | setWrite _ | clearWrite | supersedeRead _ _ | expireWrite _ | replaceWrite _ _ =>
      simp only [hpc, Option.some.injEq] at h
      subst h
      rw [pc_release]
      simp [CredentialPc.left]
  | loadWrite _ _ =>
      simp only [hpc, Option.some.injEq] at h
      subst h
      rw [pc_goto]
      simp [CredentialPc.left]
  | expireRead _ | replaceRead _ _ =>
      simp only [hpc] at h
      split at h
      · cases h
        rw [pc_release]
        simp [CredentialPc.left]
      · cases h
        rw [pc_goto]
        simp [CredentialPc.left]
  | _ => simp [hpc] at h

theorem pc_written (d : CredentialState) (content : Option TokenPair) (next : CredentialPc)
    (outcome : StoreOutcome) : ((d.written i content next outcome).tasks.pc i).left ≤ next.left := by
  cases outcome with
  | success => exact (congrArg CredentialPc.left (pc_goto _)).le
  | failure error left =>
      exact (congrArg CredentialPc.left (pc_release _)).le.trans (Nat.zero_le _)

/-- **A credential operation comes closer to its end** with every step of its own. -/
theorem left_step {a : CredentialAction Response} (ha : a.inner = true)
    (h : c.step env a = some c') : (c'.tasks.pc a.task).left < (c.tasks.pc a.task).left := by
  cases a with
  | advance j => exact left_advance h
  | store j outcome =>
      simp only [step, CredentialState.storeReturns] at h
      simp only [CredentialAction.task]
      cases hpc : c.tasks.pc j <;> simp only [hpc, reduceCtorEq, Option.some.injEq] at h
      case loadStore refresh =>
        subst h
        cases outcome with
        | success =>
            rw [pc_goto]
            simp [CredentialPc.left]
        | failure error content =>
            rw [pc_release]
            simp [CredentialPc.left]
      all_goals
        subst h
        exact Nat.lt_of_le_of_lt (pc_written _ _ _ _) (by simp [CredentialPc.left])
  | respond j response =>
      simp only [step] at h
      simp only [CredentialAction.task]
      cases hpc : c.tasks.pc j <;> simp only [hpc, reduceCtorEq, Option.some.injEq] at h
      subst h
      rw [pc_goto]
      exact Nat.lt_of_le_of_lt (left_afterSend _ response) (by simp [CredentialPc.left])
  | start j op => cases ha
  | cancel j content => cases ha

variable (env) in
/-- A counter that holds the gate can always go on. -/
theorem step_of_holds (h : (c.tasks.pc i).Holds) :
    ∃ a c', a.inner = true ∧ a.task = i ∧ c.step env a = some c' := by
  cases hpc : c.tasks.pc i with
  | setSave _ | clearStore | loadStore _ | expireClear _ | replaceSave _ _ =>
      exact ⟨.store i .success, by
        simp [CredentialAction.inner, CredentialAction.task, step, storeReturns, hpc]⟩
  | setWrite _ | clearWrite | loadWrite _ _ | loadRead _ | supersedeRead _ _ | expireWrite _
    | replaceWrite _ _ =>
      exact ⟨.advance i, by
        simp [CredentialAction.inner, CredentialAction.task, step, CredentialState.advance, hpc]⟩
  | expireRead _ | replaceRead _ _ =>
      refine ⟨.advance i, ?_⟩
      simp only [CredentialAction.inner, CredentialAction.task, step, CredentialState.advance, hpc]
      split <;> simp
  | _ => rw [hpc] at h; exact absurd h id

/-- The gate is free, or its holder is not the one that waits for it. -/
theorem acquire_or_held (H : c.Inv) (pc : CredentialPc) :
    (∃ c', c.acquire i pc = some c') ∨ ∃ j, (c.tasks.pc j).Holds := by
  cases hholder : c.tasks.holder with
  | none => exact .inl ⟨_, by simp only [acquire, Tasks.acquire, hholder, Option.map_some]; rfl⟩
  | some j => exact .inr ⟨j, (H.exclusive j).mp hholder⟩

variable (env) in
/-- **No operation is stuck**: it can move, or the holder of the gate can. -/
theorem progress (H : c.Inv) (h : (c.tasks.pc i).resting = false) :
    ∃ a c', a.inner = true ∧ (c.tasks.pc a.task).resting = false ∧ c.step env a = some c' := by
  have held {j : ℕ} (hj : (c.tasks.pc j).Holds) :
      ∃ a c', a.inner = true ∧ (c.tasks.pc a.task).resting = false ∧ c.step env a = some c' := by
    obtain ⟨a, c', ha, rfl, hstep⟩ := step_of_holds env hj
    refine ⟨a, c', ha, ?_, hstep⟩
    cases hpc : c.tasks.pc a.task with
    | idle | finished _ => rw [hpc] at hj; exact absurd hj id
    | _ => rfl
  have waits {pc : CredentialPc} (hadvance : c.advance env i = c.acquire i pc) :
      ∃ a c', a.inner = true ∧ (c.tasks.pc a.task).resting = false ∧ c.step env a = some c' := by
    rcases acquire_or_held (i := i) H pc with ⟨c', hc⟩ | ⟨j, hj⟩
    · exact ⟨.advance i, c', rfl, h, hadvance.trans hc⟩
    · exact held hj
  cases hpc : c.tasks.pc i with
  | idle | finished _ => rw [hpc] at h; cases h
  | setGate _ | clearGate | loadGate _ | supersedeGate _ _ | expireGate _ | replaceGate _ _ =>
      exact waits (by simp only [CredentialState.advance, hpc]; rfl)
  | send current =>
      exact ⟨.respond i (.error .closed), by
        simp [CredentialAction.inner, CredentialAction.task, step, hpc, CredentialPc.resting]⟩
  | _ => exact held (by rw [hpc]; trivial)

end CredentialState

namespace ApiClient

variable {Response : Type} {env : ClientEnv Response} {c c' d : ApiClient} {i : ℕ}
  {a : ClientAction Response}

/-- How many steps a call can still make. -/
def left (c : ApiClient) (i : ℕ) : ℕ :=
  (c.pc i).left + if (c.pc i).working then (c.credentials.tasks.pc i).left else 0

theorem left_pc_le : (c.pc i).left ≤ c.left i := Nat.le_add_right _ _

theorem left_goto {p : ClientPc} (hp : p.working = false) : (d.goto i p).left i = p.left := by
  simp [left, goto, hp]

/-- A call that starts a credential operation. -/
theorem left_begin {op : CredentialOp} {p : ClientPc} (h : d.begin env i op p = some c') :
    c'.left i ≤ p.left + 9 := by
  have hpc : c'.pc i = p := by simp [begin_pc h]
  unfold left
  rw [hpc]
  split
  · exact Nat.add_le_add_left (CredentialPc.left_le _) _
  · exact Nat.le_add_right _ _

theorem left_afterRefresh {k : RefreshCaller} {result : Except HttpError TokenPair}
    (h : d.afterRefresh env i k result = some c') : c'.left i ≤ 11 := by
  unfold afterRefresh at h
  split at h
  · cases h
    exact (left_goto rfl).trans_le (by simp [ClientPc.left])
  · cases h
    exact (left_goto rfl).trans_le (by simp [ClientPc.left])
  · exact left_begin h

theorem left_enterFlight {k : RefreshCaller} (h : c.enterFlight env i k = some c') :
    c'.left i ≤ 24 := by
  unfold enterFlight at h
  split at h
  · exact left_begin h
  · split at h
    · cases h
    · split at h
      · exact left_begin h
      · cases h
        exact (left_goto rfl).trans_le (by simp [ClientPc.left])

theorem left_resumeFollower {flight : RefreshFlight} {p : ClientPc}
    (h : c.resumeFollower env i flight p = some c') : c'.left i < p.left := by
  have follows {k : RefreshCaller} {f n : ℕ} {result : Except HttpError TokenPair} (hn : 11 < n)
      (h : c.follow env i k f result = some c') : c'.left i < n :=
    Nat.lt_of_le_of_lt (left_afterRefresh h) hn
  unfold resumeFollower at h
  split at h
  case h_1 =>
    cases h
    exact (left_goto rfl).trans_lt (by simp [ClientPc.left])
  case h_2 | h_3 =>
    split at h
    · exact follows (by simp [ClientPc.left]) h
    · cases h
      exact (left_goto rfl).trans_lt (by simp [ClientPc.left])
  case h_4 =>
    obtain ⟨-, h⟩ := Option.ite_none_right_eq_some.mp h
    cases h
    exact (left_goto rfl).trans_lt (by simp [ClientPc.left])
  case h_5 => exact follows (by simp [ClientPc.left]) h
  case h_6 => cases h

theorem left_afterCredential {p : ClientPc} {result : Except HttpError (Option TokenPair)}
    (h : c.afterCredential env i p result = some c') : c'.left i < p.left := by
  have begins {op : CredentialOp} {q : ClientPc} (hq : q.left + 9 < p.left)
      (h : c.begin env i op q = some c') : c'.left i < p.left :=
    Nat.lt_of_le_of_lt (left_begin h) hq
  unfold afterCredential at h
  split at h
  case h_5 | h_7 | h_8 =>
    have h := Option.some.inj h
    split at h
    · subst h
      exact (left_goto rfl).trans_lt (by simp [ClientPc.left])
    · subst h
      exact (left_goto rfl).trans_lt (by simp [ClientPc.left])
  case h_6 =>
    split at h
    · cases h
      exact (left_goto rfl).trans_lt (by simp [ClientPc.left])
    · exact begins (by simp [ClientPc.left]) h
  case h_15 => cases h
  all_goals
    cases h
    exact (left_goto rfl).trans_lt (by simp [ClientPc.left])

theorem left_replied {p : ClientPc} {reply : Reply} (h : c.replied env i p reply = some c') :
    c'.left i < p.left := by
  have begins {d : ApiClient} {op : CredentialOp} {q : ClientPc} (hq : q.left + 9 < p.left)
      (h : d.begin env i op q = some c') : c'.left i < p.left :=
    Nat.lt_of_le_of_lt (left_begin h) hq
  unfold replied at h
  split at h
  case h_1 =>
    split at h
    · exact begins (by simp [ClientPc.left]) h
    · cases h
      exact (left_goto rfl).trans_lt (by simp [ClientPc.left])
  case h_3 | h_4 => exact begins (by simp [ClientPc.left]) h
  case h_9 => cases h
  all_goals
    cases h
    exact (left_goto rfl).trans_lt (by simp [ClientPc.left])

theorem left_resume (h : c.resume env i = some c') : c'.left i < (c.pc i).left := by
  have follower {p : ClientPc} {f : ℕ}
      (h : ((c.flights[f]?).bind fun flight => c.resumeFollower env i flight p) = some c') :
      c'.left i < p.left := by
    obtain ⟨flight, -, h⟩ := Option.bind_eq_some_iff.mp h
    exact left_resumeFollower h
  unfold resume at h
  split at h
  case h_1 k hp =>
    rw [hp]
    exact Nat.lt_of_le_of_lt (left_enterFlight h) (by simp [ClientPc.left])
  case h_2 hp | h_3 hp | h_5 hp | h_6 hp =>
    cases h
    rw [left_goto rfl, hp]
    simp [ClientPc.left]
  case h_4 hp =>
    rw [hp]
    exact Nat.lt_of_le_of_lt (left_afterRefresh h) (by simp [ClientPc.left])
  case h_7 hp | h_8 hp | h_9 hp | h_10 hp | h_11 hp =>
    rw [hp]
    exact follower h
  case h_12 =>
    split at h
    · exact left_afterCredential h
    · cases h

/-- **A call comes closer to its end** with every step that goes on. -/
theorem left_step (ha : a.goesOn) (h : c.step env a = some c') :
    c'.left a.task < c.left a.task := by
  cases a with
  | call j op => exact absurd ha id
  | cancel j content => exact absurd ha id
  | resume j => exact Nat.lt_of_lt_of_le (left_resume h) left_pc_le
  | respond j reply => exact Nat.lt_of_lt_of_le (left_replied h) left_pc_le
  | credential b =>
      obtain ⟨hinner, hworking, hpc, hstep, -⟩ := credential_step h
      simp only [left, ClientAction.task, hpc, hworking, if_true]
      exact Nat.add_lt_add_left (CredentialState.left_step hinner hstep) _

/-- No other call does. -/
theorem left_step_of_ne {j : ℕ} (hj : j ≠ a.task) (h : c.step env a = some c') :
    c'.left j = c.left j := by
  unfold left
  rw [pc_step_of_ne hj h, credentialPc_step_of_ne hj h]

end ApiClient

/-! ## Followers and those that wake them -/

/-- The flight whose followers a task will wake. -/
def ClientPc.wakes : ClientPc → Option ℕ
  | .leading _ f | .recording _ f _ | .waking _ f _ | .dropping f | .dropped f => some f
  | _ => none

/-- The number of notifications that a follower saw before it looks at the flight. -/
def ClientPc.seen : ClientPc → Option ℕ
  | .checking _ _ seen | .peeking _ _ seen | .waiting _ _ seen => some seen
  | _ => none

/-- The state of a flight that a follower will still look at. -/
def ClientPc.Notices (flight : RefreshFlight) : ClientPc → Prop
  | .checking _ _ _ => flight.cancelled = true ∨ flight.result ≠ none
  | .peeking _ _ _ => flight.result ≠ none
  | _ => False

namespace ApiClient

variable {Response : Type} {env : ClientEnv Response} {c c' d : ApiClient} {i : ℕ}
  {a : ClientAction Response}

/-- Somebody will wake the followers of a flight. -/
def Expected (c : ApiClient) (f : ℕ) : Prop := ∃ j, (c.pc j).wakes = some f

/-- A flight whose followers were woken: it has a result, or was given up. -/
def Answered (flight : RefreshFlight) : Prop := flight.cancelled = true ∨ flight.result ≠ none

/-- A follower has a flight, and does not wait for it in vain. -/
def Listens (c : ApiClient) (p : ClientPc) : Prop :=
  ∀ f, p.follows = some f → ∃ flight, c.flights[f]? = some flight ∧
    ∀ seen, p.seen = some seen → seen ≤ flight.notify ∧
      (seen < flight.notify ∨ c.Expected f ∨ p.Notices flight)

/-- The invariant of the followers. -/
structure Heard (c : ApiClient) : Prop where
  gate : ∀ f, c.refreshGate = some f → f < c.flights.length
  settled : ∀ (f : ℕ) (flight : RefreshFlight), c.flights[f]? = some flight →
    c.Expected f ∨ Answered flight
  listens : ∀ i, c.Listens (c.pc i)

/-- A step loses no flight, and keeps or fulfils every expectation. -/
structure Carries (c c' : ApiClient) : Prop where
  flight : ∀ (f : ℕ) (flight : RefreshFlight), c.flights[f]? = some flight →
    ∃ flight', c'.flights[f]? = some flight' ∧ flight.notify ≤ flight'.notify ∧
      (flight.cancelled = true → flight'.cancelled = true) ∧
      (flight.result ≠ none → flight'.result ≠ none) ∧
      (c.Expected f → c'.Expected f ∨ (flight.notify < flight'.notify ∧ Answered flight'))
  /-- A new flight is expected to wake its followers. -/
  new : ∀ (f : ℕ) (flight' : RefreshFlight), c'.flights[f]? = some flight' →
    c.flights[f]? = none → c'.Expected f

theorem listens_of_follows {p : ClientPc} (h : p.follows = none) : c.Listens p := by
  intro f hf
  rw [h] at hf
  cases hf

theorem Answered.mono {flight flight' : RefreshFlight} (h : Answered flight)
    (hcancelled : flight.cancelled = true → flight'.cancelled = true)
    (hresult : flight.result ≠ none → flight'.result ≠ none) : Answered flight' :=
  h.imp hcancelled hresult

theorem notices_mono {p : ClientPc} {flight flight' : RefreshFlight} (h : p.Notices flight)
    (hcancelled : flight.cancelled = true → flight'.cancelled = true)
    (hresult : flight.result ≠ none → flight'.result ≠ none) : p.Notices flight' := by
  cases p with
  | checking k f seen => exact h.imp hcancelled hresult
  | peeking k f seen => exact hresult h
  | _ => exact absurd h id

/-- A follower that does not move goes on listening. -/
theorem Carries.listens (C : Carries c c') {p : ClientPc} (h : c.Listens p) : c'.Listens p := by
  intro f hf
  obtain ⟨flight, hflight, hseen⟩ := h f hf
  obtain ⟨flight', hflight', hle, hcancelled, hresult, hexpected⟩ := C.flight f flight hflight
  refine ⟨flight', hflight', fun seen hs => ?_⟩
  obtain ⟨hseenLe, hcases⟩ := hseen seen hs
  refine ⟨hseenLe.trans hle, ?_⟩
  rcases hcases with hlt | hexp | hnotices
  · exact .inl (hlt.trans_le hle)
  · rcases hexpected hexp with hexp' | ⟨hnotified, -⟩
    · exact .inr (.inl hexp')
    · exact .inl (hseenLe.trans_lt hnotified)
  · exact .inr (.inr (notices_mono hnotices hcancelled hresult))

/-- Flights stay settled, and new ones have a leader. -/
theorem Carries.settled (C : Carries c c') (H : c.Heard) {f : ℕ} {flight' : RefreshFlight}
    (h : c'.flights[f]? = some flight') : c'.Expected f ∨ Answered flight' := by
  cases hold : c.flights[f]? with
  | none => exact .inl (C.new f flight' h hold)
  | some flight =>
      obtain ⟨x, hx, -, hcancelled, hresult, hexpected⟩ := C.flight f flight hold
      rw [h] at hx
      cases hx
      rcases H.settled f flight hold with hexp | hsettled
      · exact (hexpected hexp).imp id And.right
      · exact .inr (hsettled.mono hcancelled hresult)

/-- Whoever else wakes the followers of a flight still does. -/
theorem Expected.update {f : ℕ} {p : ClientPc} (h : c.Expected f)
    (hpc : c'.pc = Function.update c.pc i p)
    (hi : (c.pc i).wakes = some f → p.wakes = some f) : c'.Expected f := by
  obtain ⟨j, hj⟩ := h
  refine ⟨j, ?_⟩
  rw [hpc]
  by_cases hji : j = i
  · subst hji
    rw [Function.update_self]
    exact hi hj
  · rw [Function.update_of_ne hji]
    exact hj

/-- A step that changes no flight, of a task that goes on waking its followers. -/
theorem carries_still (hflights : c'.flights = c.flights) {p : ClientPc}
    (hpc : c'.pc = Function.update c.pc i p)
    (hi : ∀ f, (c.pc i).wakes = some f → p.wakes = some f) : Carries c c' where
  flight f flight hflight := by
    refine ⟨flight, by rw [hflights, hflight], le_refl _, id, id, fun h => ?_⟩
    exact .inl (h.update hpc (hi f))
  new f flight' hflight hnone := by
    rw [hflights, hnone] at hflight
    cases hflight

/-- A step that changes one flight. -/
theorem carries_set {f : ℕ} {flight : RefreshFlight} {change : RefreshFlight → RefreshFlight}
    {p : ClientPc} (hflight : c.flights[f]? = some flight)
    (h : Still (c.setFlight f change) c') (hpc : c'.pc = Function.update c.pc i p)
    (hnotify : flight.notify ≤ (change flight).notify)
    (hcancelled : flight.cancelled = true → (change flight).cancelled = true)
    (hresult : flight.result ≠ none → (change flight).result ≠ none)
    (hwakes : (c.pc i).wakes = some f)
    (hself : p.wakes = some f ∨
      (flight.notify < (change flight).notify ∧ Answered (change flight))) : Carries c c' where
  flight g x hx := by
    rw [h.flights, getElem?_setFlight change hflight]
    by_cases hg : f = g
    · subst hg
      rw [hflight] at hx
      cases hx
      refine ⟨change flight, by simp, hnotify, hcancelled, hresult, fun hexp => ?_⟩
      rcases hself with hp | hdone
      · exact .inl (hexp.update hpc fun _ => hp)
      · exact .inr hdone
    · refine ⟨x, by simp [hg, hx], le_refl _, id, id, fun hexp => .inl (hexp.update hpc ?_)⟩
      intro hother
      rw [hwakes] at hother
      exact absurd (Option.some.inj hother) hg
  new g flight' hg hnone := by
    rw [h.flights, getElem?_setFlight change hflight] at hg
    split at hg
    case isTrue heq =>
      rw [← heq, hflight] at hnone
      cases hnone
    · rw [hnone] at hg
      cases hg

/-- The guard of a dropped leader wakes the followers. -/
theorem carries_dropped (S : c.FlightsSound) {f : ℕ} (hp : c.pc a.task = .dropped f)
    (h : c.step env a = some c') : Carries c c' := by
  have hrelies := S.relies a.task
  rw [hp] at hrelies
  cases a with
  | resume j =>
      simp only [ClientAction.task] at hp
      simp only [step, resume, hp, Option.some.injEq] at h
      subst h
      exact carries_set (i := j) (p := .idle) hrelies ⟨rfl, rfl, rfl, rfl⟩ rfl (Nat.le_succ _) id id
        (by rw [hp]; rfl) (.inr ⟨Nat.lt_succ_self _, .inl rfl⟩)
  | call j op =>
      simp only [ClientAction.task] at hp
      simp [step, hp] at h
  | credential b =>
      obtain ⟨-, hworking, -⟩ := credential_step h
      simp only [ClientAction.task] at hp
      rw [hp] at hworking
      cases hworking
  | respond j reply =>
      simp only [ClientAction.task] at hp
      simp [step, replied, hp] at h
  | cancel j content =>
      simp only [ClientAction.task] at hp
      simp [step, cancel, hp] at h

theorem wakes_of_leads {p : ClientPc} {f : ℕ} (hleads : p.leads = none)
    (hf : p.wakes = some f) : p = .dropped f := by
  cases p with
  | dropped g => cases hf; rfl
  | leading | recording | waking | dropping => cases hleads
  | _ => cases hf

theorem wakes_of_follows {p : ClientPc} {f : ℕ} (hf : p.follows = some f) : p.wakes = none := by
  cases p <;> first | rfl | cases hf

theorem working_of_follows {p : ClientPc} {f : ℕ} (hf : p.follows = some f) :
    p.working = false := by
  cases p <;> first | rfl | cases hf

/-- **What a step does to the expectations of followers.** -/
theorem carries_step (S : c.FlightsSound) (h : c.step env a = some c') : Carries c c' := by
  by_cases hdropped : ∃ f, c.pc a.task = .dropped f
  · obtain ⟨f, hp⟩ := hdropped
    exact carries_dropped S hp h
  have hrelies := S.relies a.task
  cases step_cases h with
  | inner hpc hstill =>
      refine carries_still hstill.flights (i := a.task) (p := c.pc a.task) ?_ fun _ => id
      rw [hpc, Function.update_eq_self]
  | plain p hpc hfrom hto hstill =>
      exact carries_still hstill.flights hpc fun f hf =>
        absurd ⟨f, wakes_of_leads hfrom hf⟩ hdropped
  | elects k ha hp hfree hpc hflights hgate hwork =>
      constructor
      · intro f flight hflight
        have hlt : f < c.flights.length := (List.getElem?_eq_some_iff.mp hflight).1
        refine ⟨flight, by rw [hflights, List.getElem?_append_left hlt, hflight], le_refl _, id, id,
          fun hexp => .inl (hexp.update hpc fun hf => ?_)⟩
        rw [hp] at hf
        cases hf
      · intro f flight' hflight hnone
        have hf : f < (c.flights ++ [newRefreshFlight]).length := by
          rw [← hflights]
          exact (List.getElem?_eq_some_iff.mp hflight).1
        have hge : c.flights.length ≤ f := List.getElem?_eq_none_iff.mp hnone
        have heq : f = c.flights.length := by
          simp only [List.length_append, List.length_singleton] at hf
          omega
        exact ⟨a.task, by rw [hpc, Function.update_self, heq]; rfl⟩
  | joins k f flight hp hgate hflight hcancelled hpc hstill =>
      exact carries_still hstill.flights hpc fun g hg => by rw [hp] at hg; cases hg
  | produces k f result hp hpc hflights =>
      exact carries_still hflights hpc fun g hg => by rw [hp] at hg; exact hg
  | records k f result hp hpc hstill =>
      rw [hp] at hrelies
      exact carries_set hrelies.2.1 hstill hpc (le_refl _) id (fun _ => by simp) (by rw [hp]; rfl)
        (.inl rfl)
  | wakes k f result hp hpc hstill =>
      rw [hp] at hrelies
      exact carries_set hrelies.2 hstill hpc (Nat.le_succ _) id id (by rw [hp]; rfl)
        (.inr ⟨Nat.lt_succ_self _, .inr (by simp)⟩)
  | leaves k f result p hp hpc hto hstill =>
      refine carries_still (hstill.flights.trans (flights_leaveGate f)) hpc fun g hg => ?_
      rw [hp] at hg
      cases hg
  | abandons k f result content ha hp hpc hstill =>
      exact carries_still hstill.flights hpc fun g hg => by rw [hp] at hg; cases hg
  | drops k f hp hpc hstill =>
      refine carries_still hstill.flights hpc fun g hg => ?_
      rcases hp with hp | ⟨result, hp⟩
      · rw [hp] at hg
        exact hg
      · rw [hp] at hg
        exact hg
  | flags f hp hpc hstill =>
      rw [hp] at hrelies
      exact carries_set hrelies.2 hstill hpc (le_refl _) (fun _ => rfl) id (by rw [hp]; rfl)
        (.inl rfl)
  | rouses f hp hpc hstill =>
      rw [hp] at hrelies
      exact carries_set hrelies hstill hpc (Nat.le_succ _) id id (by rw [hp]; rfl)
        (.inr ⟨Nat.lt_succ_self _, .inl rfl⟩)
  | watches f flight p hp hflight hpc hto hwoken hstill =>
      exact carries_still hstill.flights hpc fun g hg => by rw [wakes_of_follows hp] at hg; cases hg
  | collects f flight result p hp hflight hresult hpc hto hflights =>
      exact carries_still hflights hpc fun g hg => by rw [wakes_of_follows hp] at hg; cases hg

/-- A follower that moves goes on listening. -/
theorem listens_resumeFollower (H : c.Heard) {p : ClientPc} {f : ℕ} (hp : c.pc i = p)
    (hf : p.follows = some f)
    (h : ((c.flights[f]?).bind fun flight => c.resumeFollower env i flight p) = some c') :
    c.Listens (c'.pc i) := by
  obtain ⟨flight, hflight, h⟩ := Option.bind_eq_some_iff.mp h
  have hlistens := H.listens i
  rw [hp] at hlistens
  obtain ⟨x, hx, hseen⟩ := hlistens f hf
  rw [hflight] at hx
  cases hx
  have follows {k : RefreshCaller} {g : ℕ} {result : Except HttpError TokenPair}
      (h : c.follow env i k g result = some c') : c.Listens (c'.pc i) := by
    obtain ⟨q, hpc, hto, -⟩ := afterRefresh_spec h
    rw [hpc]
    simp only [Function.update_self]
    refine listens_of_follows ?_
    cases q <;> first | rfl | cases hto
  have goes {q : ClientPc} (hq : q.follows = some f) (hc : c' = c.goto i q)
      (hsees : ∀ seen, q.seen = some seen → seen ≤ flight.notify ∧
        (seen < flight.notify ∨ c.Expected f ∨ q.Notices flight)) : c.Listens (c'.pc i) := by
    subst hc
    intro g hg
    simp only [goto, Function.update_self] at hg hsees ⊢
    rw [hq] at hg
    cases hg
    exact ⟨flight, hflight, hsees⟩
  unfold resumeFollower at h
  split at h
  case h_1 =>
    cases hf
    refine goes rfl (Option.some.inj h).symm fun seen hs => ?_
    cases hs
    exact ⟨le_refl _, .inr (H.settled f flight hflight)⟩
  case h_2 =>
    cases hf
    split at h
    · exact follows h
    case isFalse hcancelled =>
      refine goes rfl (Option.some.inj h).symm fun n hn => ?_
      cases hn
      obtain ⟨hle, hcases⟩ := hseen _ rfl
      refine ⟨hle, hcases.imp id (Or.imp id ?_)⟩
      exact fun hnotices => hnotices.resolve_left hcancelled
  case h_3 =>
    cases hf
    split at h
    · exact follows h
    case h_2 hnone =>
      refine goes rfl (Option.some.inj h).symm fun n hn => ?_
      cases hn
      obtain ⟨hle, hcases⟩ := hseen _ rfl
      refine ⟨hle, hcases.imp id fun hexp => .inl (hexp.resolve_right ?_)⟩
      exact fun hresult => hresult hnone
  case h_4 =>
    cases hf
    obtain ⟨-, h⟩ := Option.ite_none_right_eq_some.mp h
    refine goes rfl (Option.some.inj h).symm fun n hn => ?_
    cases hn
  case h_5 =>
    cases hf
    exact follows h
  case h_6 => cases h

/-- A step of a follower. -/
theorem listens_follower (H : c.Heard) {f : ℕ} (hf : (c.pc a.task).follows = some f)
    (h : c.step env a = some c') : c.Listens (c'.pc a.task) := by
  cases a with
  | call j op =>
      simp only [ClientAction.task] at hf
      simp only [step] at h
      split at h
      case h_1 hp | h_2 hp =>
        rw [hp] at hf
        cases hf
      · cases h
  | credential b =>
      obtain ⟨-, hworking, -⟩ := credential_step h
      simp only [ClientAction.task] at hf
      rw [working_of_follows hf] at hworking
      cases hworking
  | resume j =>
      simp only [ClientAction.task] at hf ⊢
      simp only [step, resume] at h
      cases hp : c.pc j with
      | joined | checking | peeking | waiting | collecting =>
          rw [hp] at hf
          simp only [hp] at h
          cases hf
          exact listens_resumeFollower H hp rfl h
      | _ => rw [hp] at hf; cases hf
  | respond j reply =>
      obtain ⟨-, q, hpc, hto, -⟩ := replied_spec h
      simp only [ClientAction.task, hpc, Function.update_self]
      refine listens_of_follows ?_
      cases q <;> first | rfl | cases hto
  | cancel j content =>
      simp only [ClientAction.task] at hf ⊢
      simp only [step, cancel] at h
      cases hp : c.pc j with
      | peeking | waiting | collecting =>
          simp only [hp] at h
          cases h
          simp only [goto, Function.update_self]
          exact listens_of_follows rfl
      | joined | checking => simp [hp] at h
      | _ => rw [hp] at hf; cases hf

/-- The task that moved listens to its flight, if it has one. -/
theorem listens_moved (H : c.Heard) (h : c.step env a = some c') :
    c.Listens (c'.pc a.task) := by
  have free {p : ClientPc} (hpc : c'.pc = Function.update c.pc a.task p)
      (hp : p.follows = none) : c.Listens (c'.pc a.task) := by
    rw [hpc, Function.update_self]
    exact listens_of_follows hp
  have past {p : ClientPc} (hpc : c'.pc = Function.update c.pc a.task p)
      (hp : p.flight = none) : c.Listens (c'.pc a.task) :=
    free hpc (by cases p <;> first | rfl | cases hp)
  cases step_cases h with
  | inner hpc hstill =>
      rw [hpc]
      exact H.listens a.task
  | plain p hpc hfrom hto => exact past hpc hto
  | elects k ha hp hfree hpc => exact free hpc rfl
  | joins k f flight hp hgate hflight hcancelled hpc =>
      rw [hpc, Function.update_self]
      intro g hg
      cases hg
      exact ⟨flight, hflight, fun seen hs => by cases hs⟩
  | produces k f result hp hpc => exact free hpc rfl
  | records k f result hp hpc => exact free hpc rfl
  | wakes k f result hp hpc => exact free hpc rfl
  | leaves k f result p hp hpc hto => exact past hpc hto
  | abandons k f result content ha hp hpc => exact free hpc rfl
  | drops k f hp hpc => exact free hpc rfl
  | flags f hp hpc => exact free hpc rfl
  | rouses f hp hpc => exact free hpc rfl
  | watches f flight p hp => exact listens_follower H hp h
  | collects f flight result p hp hflight hresult hpc hto => exact past hpc hto

/-- The gate names a flight. -/
theorem gate_step (H : c.Heard) (h : c.step env a = some c') {f : ℕ}
    (hf : c'.refreshGate = some f) : f < c'.flights.length := by
  have still {b : ApiClient} (hstill : Still b c') (hgate : b.refreshGate = some f →
      f < b.flights.length) : f < c'.flights.length := by
    rw [hstill.flights]
    exact hgate (hstill.gate.symm.trans hf)
  have set {g : ℕ} {change : RefreshFlight → RefreshFlight}
      (hstill : Still (c.setFlight g change) c') : f < c'.flights.length :=
    still hstill fun hgate => by rw [length_setFlight]; exact H.gate f hgate
  cases step_cases h with
  | inner hpc hstill => exact still hstill (H.gate f)
  | plain p hpc hfrom hto hstill => exact still hstill (H.gate f)
  | elects k ha hp hfree hpc hflights hgate =>
      rw [hgate] at hf
      cases hf
      simp [hflights]
  | joins k g flight hp hgate hflight hcancelled hpc hstill => exact still hstill (H.gate f)
  | produces k g result hp hpc hflights hgate =>
      rw [hflights]
      exact H.gate f (hgate.symm.trans hf)
  | records k g result hp hpc hstill => exact set hstill
  | wakes k g result hp hpc hstill => exact set hstill
  | leaves k g result p hp hpc hto hstill =>
      refine still hstill fun hgate => ?_
      rw [flights_leaveGate]
      unfold leaveGate at hgate
      split at hgate
      · cases hgate
      · exact H.gate f hgate
  | abandons k g result content ha hp hpc hstill => exact still hstill (H.gate f)
  | drops k g hp hpc hstill => exact still hstill (H.gate f)
  | flags g hp hpc hstill => exact set hstill
  | rouses g hp hpc hstill => exact set hstill
  | watches g flight p hp hflight hpc hto hwoken hstill => exact still hstill (H.gate f)
  | collects g flight result p hp hflight hresult hpc hto hflights hgate =>
      rw [hflights]
      exact H.gate f (hgate.symm.trans hf)

/-- **No step leaves a follower behind.** -/
theorem heard_step (S : c.FlightsSound) (H : c.Heard) (h : c.step env a = some c') : c'.Heard := by
  have hcarries := carries_step S h
  refine ⟨fun f hf => gate_step H h hf, fun f flight hflight => hcarries.settled H hflight, ?_⟩
  intro j
  by_cases hj : j = a.task
  · subst hj
    exact hcarries.listens (listens_moved H h)
  · rw [pc_step_of_ne hj h]
    exact hcarries.listens (H.listens j)

theorem heard_new (persisted : Option TokenPair) : (withTransport persisted).Heard where
  gate _ h := by cases h
  settled _ _ h := by cases h
  listens _ := listens_of_follows rfl

end ApiClient

/-! ## Calls and their credential operations -/

/-- The counters of a refresh, up to a result that it can have. -/
def CredentialPc.Refreshes : CredentialPc → Prop
  | .finished result => result ≠ .ok none
  | p => p.ofRefresh = true

namespace CredentialState

variable {Response : Type} {env : RefreshEnv Response} {c c' : CredentialState} {i : ℕ}

/-- What an operation that goes on from `p` can be at. -/
def GoesTo (p q : CredentialPc) : Prop := q ≠ .idle ∧ (p.Refreshes → q.Refreshes)

theorem goesTo_afterLoad (refresh : Bool) (tokens : Option TokenPair) :
    GoesTo (.loadRead refresh) (afterLoad env refresh tokens) := by
  cases refresh with
  | false => exact ⟨by simp [afterLoad], fun h => by cases h⟩
  | true =>
      cases tokens with
      | none => simp [GoesTo, afterLoad, CredentialPc.Refreshes]
      | some current =>
          simp only [GoesTo, afterLoad, if_true]
          split <;> simp [CredentialPc.Refreshes, CredentialPc.ofRefresh, CredentialPc.refreshing]

theorem goesTo_afterSend (current : TokenPair) (response : Except HttpError Response) :
    GoesTo (.send current) (afterSend env current response) := by
  unfold afterSend
  split
  · exact ⟨by simp, fun _ => rfl⟩
  · split
    · split <;> exact ⟨by simp, fun _ => rfl⟩
    · split <;> exact ⟨by simp, fun _ => rfl⟩

theorem goesTo_superseded (active : Option TokenPair) (expected : TokenPair) (error : HttpError) :
    GoesTo (.supersedeRead expected error)
      (.finished (supersededOrError active expected error)) := by
  refine ⟨by simp, fun _ => ?_⟩
  show supersededOrError active expected error ≠ .ok none
  unfold supersededOrError
  split
  · split <;> simp
  · simp

theorem goesTo_advance (h : c.advance env i = some c') :
    GoesTo (c.tasks.pc i) (c'.tasks.pc i) := by
  unfold CredentialState.advance at h
  cases hpc : c.tasks.pc i with
  | setGate _ | clearGate | supersedeGate _ _ | expireGate _ | replaceGate _ _ =>
      rw [hpc] at h
      rw [pc_acquire h]
      exact ⟨by simp, fun h => h⟩
  | loadGate refresh =>
      rw [hpc] at h
      rw [pc_acquire h]
      split <;> exact ⟨by simp, fun h => h⟩
  | loadRead refresh =>
      simp only [hpc, Option.some.injEq] at h
      subst h
      rw [pc_release]
      exact goesTo_afterLoad refresh c.active
  | supersedeRead current error =>
      simp only [hpc, Option.some.injEq] at h
      subst h
      rw [pc_release]
      exact goesTo_superseded c.active current error
  | setWrite _ | clearWrite =>
      simp only [hpc, Option.some.injEq] at h
      subst h
      rw [pc_release]
      exact ⟨by simp, fun h => by cases h⟩
  | expireWrite _ | replaceWrite _ _ =>
      simp only [hpc, Option.some.injEq] at h
      subst h
      rw [pc_release]
      exact ⟨by simp, fun _ => by simp [CredentialPc.Refreshes]⟩
  | loadWrite _ _ =>
      simp only [hpc, Option.some.injEq] at h
      subst h
      rw [pc_goto]
      exact ⟨by simp, fun h => h⟩
  | expireRead _ | replaceRead _ _ =>
      simp only [hpc] at h
      split at h
      · cases h
        rw [pc_release]
        refine ⟨by simp, fun _ => ?_⟩
        cases c.active <;> simp [CredentialPc.Refreshes]
      · cases h
        rw [pc_goto]
        exact ⟨by simp, fun _ => rfl⟩
  | _ => simp [hpc] at h

theorem goesTo_written {p next : CredentialPc} (content : Option TokenPair)
    (hnext : GoesTo p next) (outcome : StoreOutcome) :
    GoesTo p ((c.written i content next outcome).tasks.pc i) := by
  cases outcome with
  | success =>
      rw [written, pc_goto]
      exact hnext
  | failure error left =>
      rw [written, pc_release]
      exact ⟨by simp, fun _ => by simp [CredentialPc.Refreshes]⟩

/-- **A running operation does not vanish**, and a refresh returns a pair or an error. -/
theorem goesTo_step {a : CredentialAction Response} (ha : a.inner = true)
    (h : c.step env a = some c') : GoesTo (c.tasks.pc a.task) (c'.tasks.pc a.task) := by
  cases a with
  | advance j => exact goesTo_advance h
  | store j outcome =>
      simp only [step, CredentialState.storeReturns] at h
      simp only [CredentialAction.task]
      cases hpc : c.tasks.pc j <;> simp only [hpc, reduceCtorEq, Option.some.injEq] at h
      case loadStore refresh =>
        subst h
        cases outcome with
        | success =>
            rw [pc_goto]
            exact ⟨by simp, fun h => h⟩
        | failure error content =>
            rw [pc_release]
            exact ⟨by simp, fun _ => by simp [CredentialPc.Refreshes]⟩
      all_goals
        subst h
        exact goesTo_written _ ⟨by simp, fun h => h⟩ outcome
  | respond j response =>
      simp only [step] at h
      simp only [CredentialAction.task]
      cases hpc : c.tasks.pc j <;> simp only [hpc, reduceCtorEq, Option.some.injEq] at h
      subst h
      rw [pc_goto]
      exact goesTo_afterSend _ response
  | start j op => cases ha
  | cancel j content => cases ha

end CredentialState

namespace ApiClient

variable {Response : Type} {env : ClientEnv Response} {c c' : ApiClient} {i : ℕ}
  {a : ClientAction Response}

/-- A call that waits for a credential operation runs one, and a leader a refresh. -/
def Engaged (p : ClientPc) (q : CredentialPc) : Prop :=
  (p.working = true → q ≠ .idle) ∧ (p.refreshes = true → q.Refreshes)

theorem engaged_of_not_working {p : ClientPc} (h : p.working = false) (q : CredentialPc) :
    Engaged p q := by
  refine ⟨fun hp => ?_, fun hp => ?_⟩
  · rw [h] at hp
    cases hp
  · cases p with
    | leading => cases h
    | _ => cases hp

/-- Calls stay engaged. -/
theorem engaged_step (H : ∀ i, Engaged (c.pc i) (c.credentials.tasks.pc i))
    (h : c.step env a = some c') (j : ℕ) : Engaged (c'.pc j) (c'.credentials.tasks.pc j) := by
  by_cases hj : j = a.task
  · subst hj
    have hnow := H a.task
    cases step_work h with
    | inner b ha hb hworking hpc hstep =>
        subst ha
        obtain ⟨hidle, hrefreshes⟩ := CredentialState.goesTo_step hb hstep
        rw [hpc]
        exact ⟨fun _ => hidle, fun hp => hrefreshes (hnow.2 hp)⟩
    | leads k f ha hp hpc hstep =>
        rw [CredentialState.pc_start hstep, hpc, Function.update_self]
        exact ⟨fun _ => by simp [CredentialOp.entry], fun _ => rfl⟩
    | begins op p hop hload hpc hp hworking hstep =>
        rw [CredentialState.pc_start hstep, hpc, Function.update_self]
        refine ⟨fun _ => ?_, fun hq => ?_⟩
        · cases op <;> simp [CredentialOp.entry]
        · rw [hp] at hq
          cases hq
    | goes p hpc hp =>
        rw [hpc, Function.update_self]
        exact engaged_of_not_working hp _
    | cancels content p ha hpc hp =>
        rw [hpc, Function.update_self]
        refine engaged_of_not_working ?_ _
        rcases hp with rfl | ⟨f, rfl⟩ <;> rfl
  · rw [pc_step_of_ne hj h, credentialPc_step_of_ne hj h]
    exact H j

/-- The credentials keep their invariant. -/
theorem inv_step (H : c.credentials.Inv) (h : c.step env a = some c') : c'.credentials.Inv := by
  cases step_work h with
  | inner b ha hb hworking hpc hstep => exact CredentialState.inv_step H hstep
  | leads k f ha hp hpc hstep => exact CredentialState.inv_step H hstep
  | begins op p hop hload hpc hp hworking hstep => exact CredentialState.inv_step H hstep
  | goes p hpc hp hcredentials => rw [hcredentials]; exact H
  | cancels content p ha hpc hp hcredentials =>
      have hstep : c.credentials.step env.toRefreshEnv (.cancel a.task content) =
          some c'.credentials := by rw [hcredentials]; rfl
      exact CredentialState.inv_step H hstep

/-! ## Progress -/

/-- Everything that progress rests on. -/
structure Lively (c : ApiClient) : Prop where
  flights : c.FlightsSound
  work : c.WorkSound
  heard : c.Heard
  engaged : ∀ i, Engaged (c.pc i) (c.credentials.tasks.pc i)
  credentials : c.credentials.Inv

theorem lively_new (persisted : Option TokenPair) : (withTransport persisted).Lively where
  flights := flightsSound_new persisted
  work := workSound_new persisted
  heard := heard_new persisted
  engaged _ := engaged_of_not_working rfl _
  credentials := CredentialState.inv_init persisted

theorem lively_step (H : c.Lively) (h : c.step env a = some c') : c'.Lively where
  flights := flightsSound_step H.flights h
  work := workSound_step H.work h
  heard := heard_step H.flights H.heard h
  engaged := engaged_step H.engaged h
  credentials := inv_step H.credentials h

/-- Some step goes on. -/
def Moves (env : ClientEnv Response) (c : ApiClient) : Prop :=
  ∃ (a : ClientAction Response) (c' : ApiClient), a.goesOn ∧ c.step env a = some c'

theorem begin_of_resting {d : ApiClient} (h : (d.credentials.tasks.pc i).resting = true)
    (op : CredentialOp) (p : ClientPc) : ∃ c', d.begin env i op p = some c' := by
  simp only [begin, CredentialState.start_of_resting h, Option.map_some]
  exact ⟨_, rfl⟩

theorem afterRefresh_of_resting {d : ApiClient} (h : (d.credentials.tasks.pc i).resting = true)
    (k : RefreshCaller) (result : Except HttpError TokenPair) :
    ∃ c', d.afterRefresh env i k result = some c' := by
  unfold afterRefresh
  split
  · exact ⟨_, rfl⟩
  · exact ⟨_, rfl⟩
  · exact begin_of_resting h _ _

theorem moves_of_resume (h : ∃ c', c.resume env i = some c') : c.Moves env := by
  obtain ⟨c', hc⟩ := h
  exact ⟨.resume i, c', trivial, hc⟩

theorem moves_of_respond (reply : Reply)
    (h : ∃ c', c.replied env i (c.pc i) reply = some c') : c.Moves env := by
  obtain ⟨c', hc⟩ := h
  exact ⟨.respond i reply, c', trivial, hc⟩

/-- A call whose credential operation returned goes on. -/
theorem afterCredential_of_finished {p : ClientPc} {result : Except HttpError (Option TokenPair)}
    (hp : p.working = true) (hresult : p.refreshes = true → result ≠ .ok none)
    (hrest : (c.credentials.tasks.pc i).resting = true) :
    ∃ c', c.afterCredential env i p result = some c' := by
  cases p with
  | credential | loginSet | logoutClear => exact ⟨_, rfl⟩
  | requestLoad | retryLoad => cases result <;> exact ⟨_, rfl⟩
  | leading k f =>
      cases result with
      | error e => exact ⟨_, rfl⟩
      | ok tokens =>
          cases tokens with
          | none => exact absurd rfl (hresult rfl)
          | some tokens => exact ⟨_, rfl⟩
  | logoutLoad =>
      cases result with
      | error e => exact ⟨_, rfl⟩
      | ok tokens => cases tokens <;> exact ⟨_, rfl⟩
  | requestCheck sent =>
      cases result with
      | error e => exact ⟨_, rfl⟩
      | ok tokens =>
          simp only [afterCredential]
          split
          · exact ⟨_, rfl⟩
          · exact begin_of_resting hrest _ _
  | _ => cases hp

/-- Whoever waits for a credential operation, somebody moves. -/
theorem moves_of_working (H : c.Lively) (hi : (c.pc i).working = true) : c.Moves env := by
  cases hrest : (c.credentials.tasks.pc i).resting with
  | false =>
      obtain ⟨b, credentials, hb, hbusy, hstep⟩ :=
        CredentialState.progress env.toRefreshEnv H.credentials hrest
      have hworking : (c.pc b.task).working = true := by
        by_contra hnot
        have hidle := H.work.resting b.task (by simpa using hnot)
        rw [hbusy] at hidle
        cases hidle
      have hmove : ∃ c', c.stepCredential env b.task b = some c' := by
        simp only [stepCredential, hworking, if_true, hstep, Option.map_some]
        exact ⟨_, rfl⟩
      obtain ⟨c', hc⟩ := hmove
      refine ⟨.credential b, c', trivial, ?_⟩
      cases b with
      | start | cancel => cases hb
      | _ => exact hc
  | true =>
      obtain ⟨hidle, hrefreshes⟩ := H.engaged i
      cases hq : c.credentials.tasks.pc i with
      | finished result =>
          refine moves_of_resume (i := i) ?_
          have hafter : ∃ c', c.afterCredential env i (c.pc i) result = some c' := by
            refine afterCredential_of_finished hi (fun hp => ?_) hrest
            have hr := hrefreshes hp
            rw [hq] at hr
            exact hr
          simp only [resume, hq]
          cases hp : c.pc i <;> rw [hp] at hi hafter <;> first | exact hafter | cases hi
      | idle => exact absurd hq (hidle hi)
      | _ => rw [hq] at hrest; cases hrest

/-- Somebody that will wake the followers of a flight can move. -/
theorem moves_of_expected (H : c.Lively) {f : ℕ} (h : c.Expected f) : c.Moves env := by
  obtain ⟨j, hj⟩ := h
  cases hp : c.pc j with
  | leading k g => exact moves_of_working (i := j) H (by rw [hp]; rfl)
  | recording | waking | dropping | dropped =>
      refine moves_of_resume (i := j) ?_
      simp only [resume, hp]
      exact ⟨_, rfl⟩
  | _ => rw [hp] at hj; cases hj

/-- Whoever follows a flight, somebody moves. -/
theorem moves_of_follows (H : c.Lively) {f : ℕ} (hf : (c.pc i).follows = some f) :
    c.Moves env := by
  have hrest := H.work.resting i (working_of_follows hf)
  obtain ⟨flight, hflight, hseen⟩ := H.heard.listens i f hf
  have follows (k : RefreshCaller) (result : Except HttpError TokenPair) :
      ∃ c', c.follow env i k f result = some c' :=
    afterRefresh_of_resting (d := { c with history := { c.history with
      followed := c.history.followed ++ [(f, result)] } }) hrest k result
  cases hp : c.pc i with
  | joined k g =>
      rw [hp] at hf
      cases hf
      refine moves_of_resume (i := i) ?_
      simp only [resume, hp, hflight, Option.bind_some, resumeFollower]
      exact ⟨_, rfl⟩
  | checking k g seen =>
      rw [hp] at hf
      cases hf
      refine moves_of_resume (i := i) ?_
      simp only [resume, hp, hflight, Option.bind_some, resumeFollower]
      split
      · exact follows k _
      · exact ⟨_, rfl⟩
  | peeking k g seen =>
      rw [hp] at hf
      cases hf
      refine moves_of_resume (i := i) ?_
      simp only [resume, hp, hflight, Option.bind_some, resumeFollower]
      split
      · exact follows k _
      · exact ⟨_, rfl⟩
  | waiting k g seen =>
      rw [hp] at hf hseen
      cases hf
      -- it was woken, or its leader is still on the way
      rcases (hseen seen rfl).2 with hlt | hexp | hnotices
      · refine moves_of_resume (i := i) ?_
        simp only [resume, hp, hflight, Option.bind_some, resumeFollower, hlt, if_true]
        exact ⟨_, rfl⟩
      · exact moves_of_expected H hexp
      · exact absurd hnotices id
  | collecting k g =>
      rw [hp] at hf
      cases hf
      refine moves_of_resume (i := i) ?_
      simp only [resume, hp, hflight, Option.bind_some, resumeFollower]
      exact follows k _
  | _ => rw [hp] at hf; cases hf

variable (env) in
/-- **Nobody is stuck**: while a call is under way, some step goes on. -/
theorem moves_of_left (H : c.Lively) (hi : 0 < c.left i) : c.Moves env := by
  cases hworking : (c.pc i).working with
  | true => exact moves_of_working H hworking
  | false =>
      have hrest := H.work.resting i hworking
      cases hfollows : (c.pc i).follows with
      | some f => exact moves_of_follows H hfollows
      | none =>
          cases hp : c.pc i with
          | idle | returned => simp [left, hp, ClientPc.left, ClientPc.working] at hi
          | loginSend =>
              exact moves_of_respond (i := i) (.login (.error .closed))
                (by rw [hp]; exact ⟨_, rfl⟩)
          | requestSend | retrySend =>
              exact moves_of_respond (i := i) (.status (.error .closed))
                (by rw [hp]; exact ⟨_, rfl⟩)
          | logoutSend =>
              exact moves_of_respond (i := i) (.logout (.error .closed))
                (by rw [hp]; exact ⟨_, rfl⟩)
          | refreshGate k =>
              refine moves_of_resume (i := i) ?_
              obtain ⟨c', hlead, -⟩ := @lead_eq_some _ env _ _ H.work _ hp
              simp only [resume, hp, enterFlight]
              split
              · exact ⟨c', hlead⟩
              case h_2 f hgate =>
                have hlt := H.heard.gate f hgate
                simp only [List.getElem?_eq_getElem hlt]
                split
                · exact ⟨c', hlead⟩
                · exact ⟨_, rfl⟩
          | recording | waking | dropping | dropped =>
              refine moves_of_resume (i := i) ?_
              simp only [resume, hp]
              exact ⟨_, rfl⟩
          | leaving k f result =>
              refine moves_of_resume (i := i) ?_
              simp only [resume, hp]
              refine afterRefresh_of_resting ?_ k result
              unfold leaveGate
              split <;> exact hrest
          | joined | checking | peeking | waiting | collecting => rw [hp] at hfollows; cases hfollows
          | _ => rw [hp] at hworking; cases hworking

theorem lively_exec {persisted : Option TokenPair} {actions : List (ClientAction Response)}
    (hrun : exec (ApiClient.step env) (withTransport persisted) actions = some c) : c.Lively :=
  invariant (fun _ _ _ H h => lively_step H h) (lively_new persisted) hrun

/-- Going on brings the calls to their ends. -/
theorem advances (env : ClientEnv Response) :
    Advances (ApiClient.step env) Lively (fun a => some a.task) ClientAction.goesOn left where
  kept _ _ _ H h := lively_step H h
  less _ _ _ _ _ ha hi h := by
    cases hi
    exact left_step ha h
  others _ _ _ _ _ _ hi h := (left_step_of_ne (fun heq => hi (by rw [heq])) h).le

theorem left_eq_zero_iff : c.left i = 0 ↔ (c.pc i).AtRest := by
  unfold left ClientPc.AtRest
  cases c.pc i <;> simp [ClientPc.left, ClientPc.working]

end ApiClient

/-- A follower waits for a leader that is dropped. -/
def orphanedSchedule : List (ClientAction (Except HttpError RefreshResponse)) :=
  [.call 0 .refresh, .call 1 .refresh, .resume 0, .resume 1, .resume 1, .resume 1, .resume 1,
    .cancel 0 none]

end ZephyrVox.Http
