import ZephyrVox.Http.Client
import ZephyrVox.Http.Response

/-!
# Rejected refreshes

What a refresh does after its response has come, with its own decoder in place: from
there on any other tasks may run in between, and the refresh ends the session, keeps
it, or hands out the pair of a newer login. A response with status 401 ends the
session only if the decoder gets as far as its status; headers or a body that cannot be
read hide it.

## Main definitions

* `refreshEnv` — the environment of a refresh that decodes its responses.
* `CredentialPc.Expiring`, `CredentialPc.Keeping` — the counters of the two outcomes.
* `ExpiresSession`, `KeepsSession` — what a rejected and any other response should do.
* `refresh_response_settled_iff` — exactly which responses do it.
-/

namespace ZephyrVox.Http

open Transition Gate

/-- The endpoint a refresh reports its errors for. -/
def refreshEndpoint : String := "/api/v0/auth/refresh"

/-- A refresh with the decoder of the client. -/
def refreshEnv (jsonRequest : RefreshToken → Except HttpError Unit)
    (serde : SerdeJson RefreshResponse) : RefreshEnv HttpResponse where
  jsonRequest := jsonRequest
  decodeJson response := (decodeJson serde response refreshEndpoint).map ApiResponse.data

/-- The counters of a refresh that ends the session of `current`. -/
def CredentialPc.Expiring (current : TokenPair) (pc : CredentialPc) : Prop :=
  pc = .expireGate current ∨ pc = .expireRead current ∨ pc = .expireClear current ∨
    pc = .expireWrite current

/-- The counters of a refresh that keeps the session, up to its result. -/
def CredentialPc.Keeping : CredentialPc → Prop
  | .supersedeGate _ _ | .supersedeRead _ _ | .replaceGate _ _ | .replaceRead _ _
  | .replaceSave _ _ | .replaceWrite _ _ | .finished _ => True
  | _ => False

/-- The task is neither restarted nor cancelled. -/
def GoesOn {Response : Type} (i : ℕ) (a : CredentialAction Response) : Prop :=
  a.task = i → a.inner = true

/-- When the task compares the active pair with its own, that is still the active one,
and its store calls succeed. -/
def StillActive {Response : Type} (i : ℕ) (current : TokenPair) (c : CredentialState)
    (a : CredentialAction Response) : Prop :=
  a.task = i → ((c.tasks.pc i).comparing.isSome = true → c.active = some current) ∧
    ∀ e content, a ≠ .store i (.failure e content)

/-- If the task ends with this step, it ends with `AuthExpired`, and no pair is left. -/
def EndsExpired {Response : Type} (env : RefreshEnv Response) (i : ℕ) (c : CredentialState)
    (a : CredentialAction Response) : Prop :=
  a.task = i → ∀ c' result, c.step env a = some c' → c'.tasks.pc i = .finished result →
    result = .error .authExpired ∧ c'.active = none ∧ c'.persisted = none

/-- The step does not remove the active pair, if it is one of the task. -/
def KeepsActive {Response : Type} (env : RefreshEnv Response) (i : ℕ) (c : CredentialState)
    (a : CredentialAction Response) : Prop :=
  a.task = i → ∀ c', c.step env a = some c' → c'.active = none → c.active = none

/-- The response ends the session: whatever runs in between, a refresh that is still
about the active pair and whose clear succeeds ends with `AuthExpired` and no pair; and
left alone, it gets there. -/
def ExpiresSession {Response : Type} (env : RefreshEnv Response)
    (response : Except HttpError Response) : Prop :=
  ∀ persisted before (c c₁ : CredentialState) (i : ℕ) (current : TokenPair),
    exec (CredentialState.step env) (.init persisted) before = some c →
    c.tasks.pc i = .send current → c.step env (.respond i response) = some c₁ →
    (∀ actions, (∀ a ∈ actions, GoesOn i a) →
      Along (CredentialState.step env) (StillActive i current) c₁ actions →
      Along (CredentialState.step env) (EndsExpired env i) c₁ actions) ∧
    (c.tasks.holder = none → c.active = some current →
      ∃ c', exec (CredentialState.step env) c₁
          [.advance i, .advance i, .store i .success, .advance i] = some c' ∧
        c'.tasks.pc i = .finished (.error .authExpired) ∧ c'.active = none ∧
        c'.persisted = none)

/-- The response keeps the session: whatever runs in between, no step of the refresh
removes the active pair. -/
def KeepsSession {Response : Type} (env : RefreshEnv Response)
    (response : Except HttpError Response) : Prop :=
  ∀ persisted before (c c₁ : CredentialState) (i : ℕ) (current : TokenPair),
    exec (CredentialState.step env) (.init persisted) before = some c →
    c.tasks.pc i = .send current → c.step env (.respond i response) = some c₁ →
    ∀ actions, (∀ a ∈ actions, GoesOn i a) →
      Along (CredentialState.step env) (KeepsActive env i) c₁ actions

namespace CredentialState

variable {Response : Type} {env : RefreshEnv Response} {c c' : CredentialState} {i : ℕ}
  {a : CredentialAction Response} {current : TokenPair}

/-- One step of anyone, while a refresh that is still about the active pair ends its
session. -/
theorem expiring_step (H : c.Inv)
    (hpc : (c.tasks.pc i).Expiring current ∨ ∃ result, c.tasks.pc i = .finished result)
    (hgoes : GoesOn i a) (hactive : StillActive i current c a) (h : c.step env a = some c') :
    ((c'.tasks.pc i).Expiring current ∨ ∃ result, c'.tasks.pc i = .finished result) ∧
      (a.task = i → ∀ result, c'.tasks.pc i = .finished result →
        result = .error .authExpired ∧ c'.active = none ∧ c'.persisted = none) := by
  by_cases hi : i = a.task
  swap
  · rw [pc_step_of_ne hi h]
    exact ⟨hpc, fun heq => absurd heq.symm hi⟩
  have hinner := hgoes hi.symm
  obtain ⟨hcompare, hstore⟩ := hactive hi.symm
  have hrelies := H.relies i
  cases a with
  | start j op => cases hinner
  | cancel j content => cases hinner
  | respond j response =>
      subst hi
      simp only [CredentialState.step] at h
      rcases hpc with (hpc | hpc | hpc | hpc) | ⟨result, hpc⟩ <;> simp [hpc] at h
  | store j outcome =>
      subst hi
      simp only [CredentialState.step, CredentialState.storeReturns, CredentialAction.task] at *
      rcases hpc with (hpc | hpc | hpc | hpc) | ⟨result, hpc⟩ <;>
        simp only [hpc, reduceCtorEq, Option.some.injEq] at h
      subst h
      cases outcome with
      | success =>
          simp [written, CredentialPc.Expiring]
      | failure e content => exact absurd rfl (hstore e content)
  | advance j =>
      subst hi
      simp only [CredentialState.step, CredentialState.advance, CredentialAction.task] at *
      rcases hpc with (hpc | hpc | hpc | hpc) | ⟨result, hpc⟩ <;> simp only [hpc] at h
      · rw [pc_acquire h]
        simp [CredentialPc.Expiring]
      · have hsame : c.active = some current := hcompare (by simp [hpc, CredentialPc.comparing])
        simp only [hsame, ne_eq, not_true_eq_false, if_false, Option.some.injEq] at h
        subst h
        simp [CredentialPc.Expiring]
      · cases h
      · simp only [Option.some.injEq] at h
        subst h
        rw [hpc] at hrelies
        simp only [pc_release]
        refine ⟨.inr ⟨_, rfl⟩, fun _ result hresult => ?_⟩
        exact ⟨(CredentialPc.finished.inj hresult).symm, rfl, hrelies.2⟩
      · cases h

/-- One step of anyone, while a refresh keeps the session. -/
theorem keeping_step (hpc : (c.tasks.pc i).Keeping) (hgoes : GoesOn i a)
    (h : c.step env a = some c') :
    (c'.tasks.pc i).Keeping ∧ (a.task = i → c'.active = none → c.active = none) := by
  by_cases hi : i = a.task
  swap
  · rw [pc_step_of_ne hi h]
    exact ⟨hpc, fun heq => absurd heq.symm hi⟩
  have hinner := hgoes hi.symm
  cases a with
  | start j op => cases hinner
  | cancel j content => cases hinner
  | respond j response =>
      subst hi
      simp only [CredentialState.step] at h hpc
      cases hp : c.tasks.pc i <;> simp only [hp, reduceCtorEq, Option.some.injEq] at h
      rw [hp] at hpc
      exact absurd hpc id
  | store j outcome =>
      have hactive := storeReturns_active h
      subst hi
      refine ⟨?_, fun _ hnone => hactive.symm.trans hnone⟩
      simp only [CredentialState.step, CredentialState.storeReturns] at h
      cases hp : c.tasks.pc i <;> simp only [hp, reduceCtorEq, Option.some.injEq] at h <;>
        (rw [hp] at hpc; first | exact absurd hpc id | skip)
      subst h
      cases outcome <;> simp [written, CredentialPc.Keeping]
  | advance j =>
      subst hi
      simp only [CredentialState.step, CredentialState.advance, CredentialAction.task] at *
      cases hp : c.tasks.pc i with
      | supersedeGate expected error | replaceGate expected replacement =>
          simp only [hp] at h
          rw [pc_acquire h]
          exact ⟨trivial, fun _ hnone => (active_acquire h).symm.trans hnone⟩
      | supersedeRead expected error =>
          simp only [hp, Option.some.injEq] at h
          subst h
          exact ⟨by simp [CredentialPc.Keeping], fun _ hnone => hnone⟩
      | replaceRead expected replacement =>
          simp only [hp] at h
          split at h
          · cases h
            exact ⟨by simp [CredentialPc.Keeping], fun _ hnone => hnone⟩
          · cases h
            exact ⟨by simp [CredentialPc.Keeping], fun _ hnone => hnone⟩
      | replaceWrite expected replacement =>
          simp only [hp, Option.some.injEq] at h
          subst h
          exact ⟨by simp [CredentialPc.Keeping], fun _ hnone => by cases hnone⟩
      | replaceSave _ _ | finished _ => simp [hp] at h
      | _ => rw [hp] at hpc; exact absurd hpc id

/-- A refresh that is about the active pair, and is alone, ends its session in four
steps. -/
theorem expiring_progress (hpc : c.tasks.pc i = .expireGate current)
    (hfree : c.tasks.holder = none) (hactive : c.active = some current) :
    ∃ c', exec (CredentialState.step env) c
        [.advance i, .advance i, .store i .success, .advance i] = some c' ∧
      c'.tasks.pc i = .finished (.error .authExpired) ∧ c'.active = none ∧
      c'.persisted = none := by
  simp [CredentialState.step, CredentialState.advance, CredentialState.storeReturns,
    CredentialState.acquire, Tasks.acquire, hpc, hfree, hactive, goto, written, persist, activate,
    Tasks.goto, CredentialState.release]

end CredentialState

/-- The decoder recognises a rejected refresh exactly if it can read it. -/
theorem afterSend_refreshEnv (jsonRequest : RefreshToken → Except HttpError Unit)
    (serde : SerdeJson RefreshResponse) (current : TokenPair)
    (response : Except HttpError HttpResponse) :
    (∃ r, response = .ok r ∧ r.status = 401 ∧ Readable serde r refreshEndpoint ∧
      CredentialState.afterSend (refreshEnv jsonRequest serde) current response =
        .expireGate current) ∨
    ((∀ r, response = .ok r → r.status = 401 → ¬ Readable serde r refreshEndpoint) ∧
      (CredentialState.afterSend (refreshEnv jsonRequest serde) current response).Keeping) := by
  cases response with
  | error error => exact .inr ⟨fun r h => (by cases h), trivial⟩
  | ok r =>
      have hiff := decodeJson_unauthorized_iff serde r refreshEndpoint
      cases hdecode : decodeJson serde r refreshEndpoint with
      | ok data =>
          right
          have hno : ¬ (r.status = 401 ∧ Readable serde r refreshEndpoint) := by
            rw [← hiff, hdecode]
            simp
          refine ⟨fun r' hr' h401 hreadable => ?_, ?_⟩
          · cases hr'
            exact hno ⟨h401, hreadable⟩
          · simp only [CredentialState.afterSend, refreshEnv, hdecode, Except.map]
            split <;> trivial
      | error error =>
          rw [hdecode] at hiff
          cases hunauthorized : isUnauthorized error with
          | true =>
              obtain ⟨h401, hreadable⟩ := hiff.mp ⟨error, rfl, hunauthorized⟩
              refine .inl ⟨r, rfl, h401, hreadable, ?_⟩
              simp [CredentialState.afterSend, refreshEnv, hdecode, Except.map, hunauthorized]
          | false =>
              right
              refine ⟨fun r' hr' h401 hreadable => ?_, ?_⟩
              · cases hr'
                obtain ⟨e, he, htrue⟩ := hiff.mpr ⟨h401, hreadable⟩
                rw [Except.error.inj he, htrue] at hunauthorized
                cases hunauthorized
              · simp [CredentialState.afterSend, refreshEnv, hdecode, Except.map, hunauthorized,
                  CredentialPc.Keeping]

/-! ## Which responses settle a refresh -/

/-- A refresh works with a pair only after its request has been built. -/
theorem built_of_refreshing {Response : Type} {env : RefreshEnv Response}
    {persisted : Option TokenPair} {before : List (CredentialAction Response)}
    {c : CredentialState} (h : exec (CredentialState.step env) (.init persisted) before = some c) :
    ∀ i pair, (c.tasks.pc i).refreshing = some pair →
      env.jsonRequest pair.refreshToken = .ok () := by
  refine invariant (I := fun c => ∀ i pair, (c.tasks.pc i).refreshing = some pair →
    env.jsonRequest pair.refreshToken = .ok ()) ?_ ?_ h
  · intro d a d' hd hstep i pair hpair
    by_cases hi : i = a.task
    swap
    · rw [CredentialState.pc_step_of_ne hi hstep] at hpair
      exact hd i pair hpair
    subst hi
    rcases CredentialState.refreshing_step hstep hpair with hbefore | ⟨hload, hactive⟩
    · exact hd _ pair hbefore
    · cases a with
      | advance i =>
          simp only [CredentialAction.task] at hload hpair
          simp only [CredentialState.step, CredentialState.advance, hload, hactive,
            Option.some.injEq] at hstep
          subst hstep
          rw [CredentialState.pc_release] at hpair
          cases hbuilt : env.jsonRequest pair.refreshToken with
          | ok => rfl
          | error e => simp [CredentialState.afterLoad, hbuilt, CredentialPc.refreshing] at hpair
      | cancel i content =>
          cases hstep
          rw [CredentialAction.task, CredentialState.pc_cancel] at hpair
          cases hpair
      | start i op | respond i response =>
          simp only [CredentialAction.task] at hload
          simp [CredentialState.step, hload] at hstep
      | store i outcome =>
          simp only [CredentialAction.task] at hload
          simp [CredentialState.step, CredentialState.storeReturns, hload] at hstep
  · intro i pair hpair
    cases hpair

section Settled

variable {Response : Type} {env : RefreshEnv Response} {response : Except HttpError Response}

theorem expiresSession_of_expireGate
    (hsend : ∀ current, CredentialState.afterSend env current response = .expireGate current) :
    ExpiresSession env response := by
  intro persisted before c c₁ i current hbefore hpc hrespond
  have H : c.Inv := invariant (fun _ _ _ H h => CredentialState.inv_step H h)
    (CredentialState.inv_init persisted) hbefore
  have hgate : c₁ = c.goto i (.expireGate current) := by
    simpa [CredentialState.step, hpc, hsend] using hrespond.symm
  refine ⟨fun actions hgoes hactive => ?_, fun hfree hcurrent => ?_⟩
  · refine (hactive.and_forall hgoes).imp_of_invariant
      (I := fun c => c.Inv ∧
        ((c.tasks.pc i).Expiring current ∨ ∃ result, c.tasks.pc i = .finished result)) ?_ ?_ ?_
    · rintro d a d' ⟨hinv, hd⟩ ⟨hstill, ha⟩ h
      exact ⟨CredentialState.inv_step hinv h, (CredentialState.expiring_step hinv hd ha hstill h).1⟩
    · rintro d a ⟨hinv, hd⟩ ⟨hstill, ha⟩ htask d' result h hresult
      exact (CredentialState.expiring_step hinv hd ha hstill h).2 htask result hresult
    · refine ⟨CredentialState.inv_step H hrespond, .inl (.inl ?_)⟩
      rw [hgate, CredentialState.pc_goto]
  · have hpc₁ : c₁.tasks.pc i = .expireGate current := by
      rw [hgate, CredentialState.pc_goto]
    apply CredentialState.expiring_progress hpc₁
    · rw [hgate]
      exact hfree
    · rw [hgate]
      exact hcurrent

theorem keepsSession_of_keeping
    (hsend : ∀ current, (CredentialState.afterSend env current response).Keeping) :
    KeepsSession env response := by
  intro persisted before c c₁ i current hbefore hpc hrespond actions hgoes
  have hnext : c₁.tasks.pc i = CredentialState.afterSend env current response := by
    have heq : c₁ = c.goto i (CredentialState.afterSend env current response) := by
      simpa [CredentialState.step, hpc] using hrespond.symm
    rw [heq, CredentialState.pc_goto]
  have halong : Along (CredentialState.step env) (fun _ a => GoesOn i a) c₁ actions :=
    along_iff.mpr fun done a rest heq _ _ => hgoes a (by simp [heq])
  refine halong.imp_of_invariant (I := fun c => (c.tasks.pc i).Keeping) ?_ ?_ ?_
  · exact fun d a d' hd ha h => (CredentialState.keeping_step hd ha h).1
  · exact fun d a hd ha htask d' h hnone => (CredentialState.keeping_step hd ha h).2 htask hnone
  · rw [hnext]
    exact hsend current

/-- A refresh whose request can be built gets as far as sending it. -/
theorem exists_sending (env : RefreshEnv Response) (token : RefreshToken)
    (h : env.jsonRequest token = .ok ()) :
    ∃ persisted before c current, exec (CredentialState.step env) (.init persisted) before =
      some c ∧ c.tasks.pc 0 = .send current ∧ c.tasks.holder = none ∧ c.active = some current := by
  obtain ⟨pair, hpair⟩ : ∃ pair : TokenPair, pair.refreshToken = token :=
    ⟨{ TokenPair.sample "old" with refreshToken := token }, rfl⟩
  refine ⟨some pair, [.start 0 .refreshOnce, .advance 0, .store 0 .success, .advance 0, .advance 0],
    ?_⟩
  simp [CredentialState.step, CredentialState.advance, CredentialState.storeReturns,
    CredentialState.init, CredentialState.goto, CredentialState.acquire, CredentialState.activate,
    CredentialState.release, CredentialState.afterLoad, CredentialOp.entry, Tasks.goto,
    Tasks.acquire, Tasks.release, hpair, h]

/-- A response that keeps the session does not end it. -/
theorem not_expiresSession_of_keeping (token : RefreshToken) (h : env.jsonRequest token = .ok ())
    (hsend : ∀ current, (CredentialState.afterSend env current response).Keeping) :
    ¬ ExpiresSession env response := by
  intro hexpires
  obtain ⟨persisted, before, c, current, hbefore, hpc, hfree, hactive⟩ :=
    exists_sending env token h
  have hrespond : c.step env (.respond 0 response) =
      some (c.goto 0 (CredentialState.afterSend env current response)) := by
    simp [CredentialState.step, hpc]
  obtain ⟨-, hprogress⟩ := hexpires persisted before c _ 0 current hbefore hpc hrespond
  obtain ⟨c', hrun, -, hnone, -⟩ := hprogress hfree hactive
  -- every step of the schedule is one of a refresh that keeps the session
  have halong : Along (CredentialState.step env) (fun _ a => a.task = 0 ∧ a.inner = true)
      (c.goto 0 (CredentialState.afterSend env current response))
      [.advance 0, .advance 0, .store 0 .success, .advance 0] :=
    along_iff.mpr fun done a rest heq _ _ => by
      have hmem : a ∈ [CredentialAction.advance 0, .advance 0, .store 0 .success, .advance 0] := by
        rw [heq]
        simp
      rcases hmem with _ | ⟨_, _ | ⟨_, _ | ⟨_, _ | ⟨_, _ | _⟩⟩⟩⟩ <;> exact ⟨rfl, rfl⟩
  have hkept := invariant_along
    (I := fun c : CredentialState => (c.tasks.pc 0).Keeping ∧ c.active ≠ none)
    (fun d a d' hd ha hstep =>
      have hkeep := CredentialState.keeping_step hd.1 (fun _ => ha.2) hstep
      ⟨hkeep.1, fun hnone' => hd.2 (hkeep.2 ha.1 hnone')⟩)
    ⟨by rw [CredentialState.pc_goto]; exact hsend current, by
      rw [show (c.goto 0 (CredentialState.afterSend env current response)).active = c.active from
        rfl, hactive]
      exact Option.some_ne_none _⟩ halong hrun
  exact hkept.2 hnone

end Settled

/-- **A refresh deals with a response as it should exactly if** the response is no
rejection, or is one that can be read: a response with status 401 ends the session unless
its state headers or the envelope of its body are malformed, and every other response
keeps it. Where no refresh request can be built, none is sent. -/
theorem refresh_response_settled_iff (jsonRequest : RefreshToken → Except HttpError Unit)
    (serde : SerdeJson RefreshResponse) (response : Except HttpError HttpResponse) :
    (((∃ r, response = .ok r ∧ r.status = 401) →
        ExpiresSession (refreshEnv jsonRequest serde) response) ∧
      ((¬ ∃ r, response = .ok r ∧ r.status = 401) →
        KeepsSession (refreshEnv jsonRequest serde) response)) ↔
    ((∃ token, jsonRequest token = .ok ()) →
      ∀ r, response = .ok r → r.status = 401 → Readable serde r refreshEndpoint) := by
  constructor
  · rintro ⟨hrejected, -⟩ ⟨token, htoken⟩ r hr h401
    by_contra hunreadable
    refine not_expiresSession_of_keeping token htoken (fun current => ?_) (hrejected ⟨r, hr, h401⟩)
    rcases afterSend_refreshEnv jsonRequest serde current response with
      ⟨r', hr', -, hreadable, -⟩ | ⟨-, hkeeping⟩
    · obtain rfl : r' = r := Except.ok.inj (hr'.symm.trans hr)
      exact absurd hreadable hunreadable
    · exact hkeeping
  · intro hreadable
    refine ⟨?_, fun hother => keepsSession_of_keeping fun current => ?_⟩
    · rintro ⟨r, hr, h401⟩
      by_cases hbuilt : ∃ token, jsonRequest token = .ok ()
      · refine expiresSession_of_expireGate fun current => ?_
        rcases afterSend_refreshEnv jsonRequest serde current response with
          ⟨-, -, -, -, hgate⟩ | ⟨hunreadable, -⟩
        · exact hgate
        · exact absurd (hreadable hbuilt r hr h401) (hunreadable r hr h401)
      · intro persisted before c c₁ i current hbefore hpc
        exact absurd ⟨_, built_of_refreshing hbefore i current (by rw [hpc]; rfl)⟩ hbuilt
    · rcases afterSend_refreshEnv jsonRequest serde current response with
        ⟨r, hr, h401, -⟩ | ⟨-, hkeeping⟩
      · exact absurd ⟨r, hr, h401⟩ hother
      · exact hkeeping

/-- A JSON library that finds no value in an empty body. -/
def sampleSerde : SerdeJson RefreshResponse where
  fromSlice _ := .error "EOF while parsing a value at line 1 column 0"
  fromValue _ := .error "invalid type"

/-- A refresh answered with 401 and an empty body, up to its result. -/
def emptyRejection : List (CredentialAction HttpResponse) :=
  [.start 0 .refreshOnce, .advance 0, .store 0 .success, .advance 0, .advance 0,
    .respond 0 (.ok (.new 401 [] [])), .advance 0, .advance 0]

/-- The refresh fails with the error of the body, and the rejected pair stays. -/
theorem emptyRejection_keeps_pair :
    (∃ c, exec (CredentialState.step (refreshEnv (fun _ => .ok ()) sampleSerde))
        (.init (some (.sample "old"))) emptyRejection = some c ∧
      c.tasks.pc 0 = .finished (.error (.json "EOF while parsing a value at line 1 column 0")) ∧
      c.active = some (.sample "old") ∧ c.persisted = some (.sample "old")) ∧
    ¬ ExpiresSession (refreshEnv (fun _ => .ok ()) sampleSerde) (.ok (.new 401 [] [])) := by
  refine ⟨⟨_, rfl, rfl, rfl, rfl⟩, ?_⟩
  exact not_expiresSession_of_keeping (TokenPair.sample "old").refreshToken rfl fun _ => trivial

end ZephyrVox.Http
