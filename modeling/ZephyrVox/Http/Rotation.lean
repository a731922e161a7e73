import ZephyrVox.Http.Singleflight

/-!
# One rotation for each expired token

A protected request that is answered with 401 checks whether the token it was
sent with is still active, and enters the refresh singleflight if it is. Check
and entry are two sections: a request that passed the check before another one's
refresh, and enters after it, refreshes once more although nobody rejected the
new token. Where every request that starts a refresh still finds its own token
active, one rotation is enough for each expired token.

## Main definitions

* `ApiClient.OnlyRequests` — runs of protected requests with a working server.
* `ApiClient.RefreshesOnce` — a request that leads a refresh finds its token
  active, and the new pair can be saved.
* `ApiClient.Rotation` — the invariant of such runs.
* `one_rotation_per_expired_token` — a second refresh request is sent only after
  an issued token was answered with 401.
-/

namespace ZephyrVox.Http

open Transition Gate

/-- A refresh that the server answers with a new pair. -/
def Succeeds {Response : Type} (env : RefreshEnv Response)
    (response : Except HttpError Response) : Prop :=
  ∃ body data tokens, response = .ok body ∧ env.decodeJson body = .ok data ∧
    TokenPair.fromExpiresIn data.accessToken data.refreshToken data.expiresIn = .ok tokens

namespace ApiClient

variable {Response : Type} {env : ClientEnv Response} {c c' : ApiClient} {i : ℕ}
  {a : ClientAction Response}

/-- Protected requests that nobody drops, and a server whose refresh succeeds. -/
def OnlyRequests (env : ClientEnv Response) : ClientAction Response → Prop
  | .call _ op => op.isRequest = true
  | .credential (.respond _ response) => Succeeds env.toRefreshEnv response
  | .cancel _ _ => False
  | _ => True

/-- A step that brings about no needless refresh. -/
structure RefreshesOnce (c : ApiClient) (a : ClientAction Response) : Prop where
  /-- A request that enters the singleflight while nobody leads a refresh finds the
  token active that it was sent with. -/
  current : ∀ i sent, a = .resume i → c.pc i = .refreshGate (.request sent) →
    (∀ j, (c.pc j).leads = none) →
    c.credentials.active.map TokenPair.accessToken = some sent
  /-- A rotated pair is saved. -/
  saved : ∀ i current replacement outcome, a = .credential (.store i outcome) →
    c.credentials.tasks.pc i = .replaceSave current replacement → outcome = .success

/-- An issued access token was answered with 401. -/
def Spent (c : ApiClient) : Prop := ∃ token ∈ c.history.issued, token ∈ c.history.rejected

/-! ## The invariant -/

/-- What holds at the counters of a refresh: before its request the first one is
still to be sent, and until it commits the pair it loaded is active. -/
def Stage (c : ApiClient) : CredentialPc → Prop
  | .idle | .finished _ => True
  | .loadGate refresh | .loadStore refresh | .loadWrite refresh _ | .loadRead refresh =>
      refresh = true → c.Spent ∨ c.history.refreshes = 0
  | .send current => c.credentials.active = some current
  | .replaceGate current replacement | .replaceRead current replacement
  | .replaceSave current replacement | .replaceWrite current replacement =>
      c.credentials.active = some current ∧ replacement.accessToken ∈ c.history.issued
  | _ => False

/-- After a rotation the active token is an issued one. -/
def Settled (c : ApiClient) : Prop :=
  c.Spent ∨ c.history.refreshes = 0 ∨
    ∃ pair, c.credentials.active = some pair ∧ pair.accessToken ∈ c.history.issued

/-- The invariant of a run of protected requests. -/
structure Rotation (c : ApiClient) : Prop where
  requests : ∀ i, (c.pc i).ofRequest = true
  expired : ∀ i sent, (c.pc i).expired = some sent → sent ∈ c.history.rejected
  stage : ∀ i, c.Stage (c.credentials.tasks.pc i)
  settled : (∀ i, (c.credentials.tasks.pc i).refreshing = none) → c.Settled
  bound : c.Spent ∨ c.history.refreshes ≤ 1

/-- The active pair and the number of refreshes stay as they are. -/
structure Keeps (c c' : ApiClient) : Prop where
  active : c'.credentials.active = c.credentials.active
  refreshes : c'.history.refreshes = c.history.refreshes
  issued : ∀ token ∈ c.history.issued, token ∈ c'.history.issued
  rejected : ∀ token ∈ c.history.rejected, token ∈ c'.history.rejected

theorem Spent.mono (h : c.Spent) (hissued : ∀ token ∈ c.history.issued, token ∈ c'.history.issued)
    (hrejected : ∀ token ∈ c.history.rejected, token ∈ c'.history.rejected) : c'.Spent := by
  obtain ⟨token, h, h'⟩ := h
  exact ⟨token, hissued token h, hrejected token h'⟩

theorem Keeps.stage (K : Keeps c c') {p : CredentialPc} (h : c.Stage p) : c'.Stage p := by
  cases p with
  | loadGate refresh | loadStore refresh | loadWrite refresh tokens | loadRead refresh =>
      intro hrefresh
      rcases h hrefresh with h | h
      · exact .inl (h.mono K.issued K.rejected)
      · exact .inr (K.refreshes.trans h)
  | send current => exact K.active.trans h
  | replaceGate | replaceRead | replaceSave | replaceWrite =>
      exact ⟨K.active.trans h.1, K.issued _ h.2⟩
  | _ => exact h

theorem Keeps.settled (K : Keeps c c') (h : c.Settled) : c'.Settled := by
  rcases h with h | h | ⟨pair, hactive, hissued⟩
  · exact .inl (h.mono K.issued K.rejected)
  · exact .inr (.inl (K.refreshes.trans h))
  · exact .inr (.inr ⟨pair, K.active.trans hactive, K.issued _ hissued⟩)

/-- Counters outside a refresh make no use of the state. -/
theorem Stage.of_not_ofRefresh {p : CredentialPc} (h : c.Stage p) (hp : p.ofRefresh = false) :
    c'.Stage p := by
  cases p with
  | loadGate refresh | loadStore refresh | loadWrite refresh tokens | loadRead refresh =>
      intro hrefresh
      cases hp.symm.trans hrefresh
  | send | replaceGate | replaceRead | replaceSave | replaceWrite => cases hp
  | _ => exact h

/-- A step of one task that keeps the active pair. -/
theorem Rotation.keeps (H : c.Rotation) (K : Keeps c c')
    (hpc : ∀ j, j ≠ i → c'.pc j = c.pc j)
    (hothers : ∀ j, j ≠ i → c'.credentials.tasks.pc j = c.credentials.tasks.pc j)
    (hrequests : (c'.pc i).ofRequest = true)
    (hexpired : ∀ sent, (c'.pc i).expired = some sent → sent ∈ c'.history.rejected)
    (hstage : c'.Stage (c'.credentials.tasks.pc i))
    (hrefreshing : (c'.credentials.tasks.pc i).refreshing = none →
      (c.credentials.tasks.pc i).refreshing = none) : c'.Rotation := by
  refine ⟨?_, ?_, ?_, ?_, ?_⟩
  · intro j
    by_cases hj : j = i
    · subst hj
      exact hrequests
    · rw [hpc j hj]
      exact H.requests j
  · intro j sent hsent
    by_cases hj : j = i
    · subst hj
      exact hexpired sent hsent
    · rw [hpc j hj] at hsent
      exact K.rejected _ (H.expired j sent hsent)
  · intro j
    by_cases hj : j = i
    · subst hj
      exact hstage
    · rw [hothers j hj]
      exact K.stage (H.stage j)
  · intro hnone
    refine K.settled (H.settled ?_)
    intro j
    by_cases hj : j = i
    · subst hj
      exact hrefreshing (hnone j)
    · rw [← hothers j hj]
      exact hnone j
  · rcases H.bound with h | h
    · exact .inl (h.mono K.issued K.rejected)
    · exact .inr (by rw [K.refreshes]; exact h)

/-- A step of the only refresh. -/
theorem Rotation.alone (H : c.Rotation) (hpc : c'.pc = c.pc)
    (hfree : ∀ j, j ≠ i → (c.credentials.tasks.pc j).ofRefresh = false)
    (hothers : ∀ j, j ≠ i → c'.credentials.tasks.pc j = c.credentials.tasks.pc j)
    (hrejected : c'.history.rejected = c.history.rejected)
    (hstage : c'.Stage (c'.credentials.tasks.pc i))
    (hsettled : (c'.credentials.tasks.pc i).refreshing = none → c'.Settled)
    (hbound : c'.Spent ∨ c'.history.refreshes ≤ 1) : c'.Rotation := by
  refine ⟨?_, ?_, ?_, fun hnone => hsettled (hnone i), hbound⟩
  · rw [hpc]
    exact H.requests
  · rw [hpc, hrejected]
    exact H.expired
  · intro j
    by_cases hj : j = i
    · subst hj
      exact hstage
    · rw [hothers j hj]
      exact (H.stage j).of_not_ofRefresh (hfree j hj)

/-- The first load makes a pair active while no refresh has one. -/
theorem Rotation.loads (H : c.Rotation) {refresh : Bool} {tokens : Option TokenPair}
    (hpc : c'.pc = c.pc) (hactive : c.credentials.active = none)
    (hothers : ∀ j, j ≠ i → c'.credentials.tasks.pc j = c.credentials.tasks.pc j)
    (hbefore : c.credentials.tasks.pc i = .loadWrite refresh tokens)
    (hafter : c'.credentials.tasks.pc i = .loadRead refresh)
    (hhistory : c'.history = c.history) : c'.Rotation := by
  have hspent : c.Spent → c'.Spent := fun h => h.mono (by simp [hhistory]) (by simp [hhistory])
  have hstage {p : CredentialPc} (h : c.Stage p) : c'.Stage p := by
    cases p with
    | loadGate | loadStore | loadWrite | loadRead =>
        intro hrefresh
        rcases h hrefresh with h | h
        · exact .inl (hspent h)
        · exact .inr (by rw [hhistory, h])
    | send => cases hactive.symm.trans h
    | replaceGate | replaceRead | replaceSave | replaceWrite => cases hactive.symm.trans h.1
    | _ => exact h
  refine ⟨?_, ?_, ?_, ?_, ?_⟩
  · rw [hpc]
    exact H.requests
  · rw [hpc, hhistory]
    exact H.expired
  · intro j
    by_cases hj : j = i
    · subst hj
      have hi := hstage (H.stage j)
      rw [hbefore] at hi
      rw [hafter]
      exact hi
    · rw [hothers j hj]
      exact hstage (H.stage j)
  · intro hnone
    have hsettled := H.settled fun j => by
      by_cases hj : j = i
      · subst hj
        rw [hbefore]
        rfl
      · rw [← hothers j hj]
        exact hnone j
    rcases hsettled with h | h | ⟨pair, hpair, -⟩
    · exact .inl (hspent h)
    · exact .inr (.inl (by rw [hhistory, h]))
    · cases hactive.symm.trans hpair
  · rcases H.bound with h | h
    · exact .inl (hspent h)
    · exact .inr (by rw [hhistory]; exact h)

/-- The task of a step of a running credential operation keeps its counter. -/
theorem Rotation.inner (H : c.Rotation) (K : Keeps c c') (hpc : c'.pc = c.pc)
    (hothers : ∀ j, j ≠ i → c'.credentials.tasks.pc j = c.credentials.tasks.pc j)
    (hstage : c'.Stage (c'.credentials.tasks.pc i))
    (hrefreshing : (c'.credentials.tasks.pc i).refreshing = none →
      (c.credentials.tasks.pc i).refreshing = none) : c'.Rotation := by
  refine H.keeps (i := i) K (fun j _ => by rw [hpc]) hothers ?_ ?_ hstage hrefreshing
  · rw [hpc]
    exact H.requests i
  · intro sent hsent
    rw [hpc] at hsent
    exact K.rejected _ (H.expired i sent hsent)

/-- A load that returns, to a request or to a refresh that sends its request. -/
theorem Rotation.loadRead (H : c.Rotation) {refresh : Bool}
    (hunique : (c.credentials.tasks.pc i).ofRefresh = true →
      ∀ j, j ≠ i → (c.credentials.tasks.pc j).ofRefresh = false)
    (hpc : c'.pc = c.pc)
    (hothers : ∀ j, j ≠ i → c'.credentials.tasks.pc j = c.credentials.tasks.pc j)
    (hbefore : c.credentials.tasks.pc i = .loadRead refresh)
    (hafter : c'.credentials.tasks.pc i =
      CredentialState.afterLoad env.toRefreshEnv refresh c.credentials.active)
    (hactive : c'.credentials.active = c.credentials.active)
    (hhistory : c'.history = observe c.history c.credentials.active i (c.pc i)
      (c.credentials.tasks.pc i) (c'.credentials.tasks.pc i)) : c'.Rotation := by
  have hstage := H.stage i
  rw [hbefore] at hstage hhistory hunique
  -- A refresh that sends no request has no effect.
  have finishes {result : Except HttpError (Option TokenPair)}
      (hfinished : c'.credentials.tasks.pc i = .finished result) : c'.Rotation := by
    have K : Keeps c c' := by
      rw [hfinished] at hhistory
      cases refresh <;>
        exact ⟨hactive, by rw [hhistory]; rfl, by simp [hhistory, observe],
          by simp [hhistory, observe]⟩
    refine H.inner K hpc hothers ?_ (fun _ => by rw [hbefore]; rfl)
    rw [hfinished]
    trivial
  cases refresh with
  | false => exact finishes hafter
  | true =>
      cases hloaded : c.credentials.active with
      | none =>
          rw [hloaded] at hafter
          exact finishes hafter
      | some current =>
          simp only [CredentialState.afterLoad, hloaded, if_true] at hafter
          split at hafter
          · -- The request is sent: it is the first one, or an issued token was rejected.
            rw [hafter] at hhistory
            have hspent : c.Spent → c'.Spent := fun h =>
              h.mono (by simp [hhistory, observe]) (by simp [hhistory, observe])
            refine H.alone hpc (hunique rfl) hothers (by rw [hhistory]; rfl) ?_ ?_ ?_
            · rw [hafter]
              exact hactive.trans hloaded
            · rw [hafter]
              exact fun h => by cases h
            · rcases hstage rfl with h | h
              · exact .inl (hspent h)
              · refine .inr ?_
                rw [hhistory]
                simp [observe, h]
          · exact finishes hafter

/-- Passing a lock keeps the invariant. -/
theorem Rotation.advance (H : c.Rotation) (I : c.credentials.Inv)
    (hunique : (c.credentials.tasks.pc i).ofRefresh = true →
      ∀ j, j ≠ i → (c.credentials.tasks.pc j).ofRefresh = false)
    (hpc : c'.pc = c.pc) (h : c.credentials.advance env.toRefreshEnv i = some c'.credentials)
    (hhistory : c'.history = observe c.history c.credentials.active i (c.pc i)
      (c.credentials.tasks.pc i) (c'.credentials.tasks.pc i)) : c'.Rotation := by
  have hothers (j : ℕ) (hj : j ≠ i) : c'.credentials.tasks.pc j = c.credentials.tasks.pc j :=
    CredentialState.pc_advance_of_ne hj h
  have hstage := H.stage i
  have hrelies := I.relies i
  -- A step that is observed as nothing and keeps the active pair.
  have keeps (hactive : c'.credentials.active = c.credentials.active)
      (hsame : c'.history = c.history) : Keeps c c' :=
    ⟨hactive, by rw [hsame], by simp [hsame], by simp [hsame]⟩
  unfold CredentialState.advance at h
  cases hq : c.credentials.tasks.pc i with
  | loadGate refresh =>
      rw [hq] at h hstage hhistory
      have hafter := CredentialState.pc_acquire h
      have K := keeps (CredentialState.active_acquire h) hhistory
      refine H.inner K hpc hothers ?_ (fun _ => by rw [hq]; rfl)
      rw [hafter]
      split
      · exact K.stage hstage
      · exact K.stage hstage
  | loadWrite refresh tokens =>
      rw [hq] at hrelies hhistory
      simp only [hq, Option.some.injEq] at h
      refine H.loads hpc (I.unloaded hrelies.1) hothers hq ?_ hhistory
      rw [← h, CredentialState.pc_goto]
  | loadRead refresh =>
      rw [hq] at hstage
      simp only [hq, Option.some.injEq] at h
      have hafter : c'.credentials.tasks.pc i =
          CredentialState.afterLoad env.toRefreshEnv refresh c.credentials.active := by
        rw [← h, CredentialState.pc_release]
      exact H.loadRead hunique hpc hothers hq hafter (by rw [← h]; rfl) hhistory
  | replaceGate current replacement =>
      rw [hq] at h hstage hhistory
      have hafter := CredentialState.pc_acquire h
      have K := keeps (CredentialState.active_acquire h) hhistory
      refine H.inner K hpc hothers ?_ (by rw [hafter]; intro h; cases h)
      rw [hafter]
      exact K.stage (p := .replaceRead current replacement) hstage
  | replaceRead current replacement =>
      rw [hq] at hstage hhistory
      simp only [hq, hstage.1, ne_eq, not_true_eq_false, if_false, Option.some.injEq] at h
      have hafter : c'.credentials.tasks.pc i = .replaceSave current replacement := by
        rw [← h, CredentialState.pc_goto]
      have K := keeps (by rw [← h]; rfl) hhistory
      refine H.inner K hpc hothers ?_ (by rw [hafter]; intro h; cases h)
      rw [hafter]
      exact K.stage (p := .replaceSave current replacement) hstage
  | replaceWrite current replacement =>
      rw [hq] at hstage hhistory
      simp only [hq, Option.some.injEq] at h
      have hafter : c'.credentials.tasks.pc i = .finished (.ok (some replacement)) := by
        rw [← h, CredentialState.pc_release]
      have hissued : c'.history.issued = c.history.issued := by rw [hhistory]; rfl
      have hrejected : c'.history.rejected = c.history.rejected := by rw [hhistory]; rfl
      refine H.alone hpc (hunique (by rw [hq]; rfl)) hothers hrejected ?_ ?_ ?_
      · rw [hafter]
        trivial
      · intro _
        refine .inr (.inr ⟨replacement, by rw [← h]; rfl, ?_⟩)
        rw [hissued]
        exact hstage.2
      · rcases H.bound with h | h
        · exact .inl (h.mono (by simp [hissued]) (by simp [hrejected]))
        · exact .inr (by rw [hhistory]; exact h)
  | idle | loadStore | send | replaceSave | finished => simp [hq] at h
  | _ => rw [hq] at hstage; exact absurd hstage id

/-- A store call keeps the invariant, if it is no failed save. -/
theorem Rotation.storeReturns (H : c.Rotation) {outcome : StoreOutcome} (hpc : c'.pc = c.pc)
    (hothers : ∀ j, j ≠ i → c'.credentials.tasks.pc j = c.credentials.tasks.pc j)
    (hsaved : ∀ current replacement,
      c.credentials.tasks.pc i = .replaceSave current replacement → outcome = .success)
    (h : c.credentials.storeReturns i outcome = some c'.credentials)
    (hhistory : c'.history = observe c.history c.credentials.active i (c.pc i)
      (c.credentials.tasks.pc i) (c'.credentials.tasks.pc i)) : c'.Rotation := by
  have hactive := CredentialState.storeReturns_active h
  have hstage := H.stage i
  unfold CredentialState.storeReturns at h
  cases hq : c.credentials.tasks.pc i with
  | loadStore refresh =>
      rw [hq] at hstage hhistory
      simp only [hq, Option.some.injEq] at h
      have hsame : c'.history = c.history := hhistory
      have K : Keeps c c' := ⟨hactive, by rw [hsame], by simp [hsame], by simp [hsame]⟩
      refine H.inner K hpc hothers ?_ (fun _ => by rw [hq]; rfl)
      rw [← h]
      cases outcome with
      | success =>
          rw [CredentialState.pc_goto]
          exact K.stage (p := .loadStore refresh) hstage
      | failure error content =>
          rw [CredentialState.pc_release]
          trivial
  | replaceSave current replacement =>
      cases hsaved current replacement hq
      rw [hq] at hstage hhistory
      simp only [hq, Option.some.injEq] at h
      have hafter : c'.credentials.tasks.pc i = .replaceWrite current replacement := by
        rw [← h]
        exact CredentialState.pc_goto _
      have hsame : c'.history = c.history := hhistory
      have K : Keeps c c' := ⟨hactive, by rw [hsame], by simp [hsame], by simp [hsame]⟩
      refine H.inner K hpc hothers ?_ (by rw [hafter]; intro h; cases h)
      rw [hafter]
      exact K.stage (p := .replaceSave current replacement) hstage
  | setSave | clearStore | expireClear => rw [hq] at hstage; exact absurd hstage id
  | _ => simp [hq] at h

/-- A refresh that the server answers with a new pair goes on to commit it. -/
theorem afterSend_of_succeeds (current : TokenPair) {response : Except HttpError Response}
    (h : Succeeds env.toRefreshEnv response) :
    ∃ tokens, CredentialState.afterSend env.toRefreshEnv current response =
      .replaceGate current tokens := by
  obtain ⟨body, data, tokens, rfl, hdata, htokens⟩ := h
  exact ⟨tokens, by simp [CredentialState.afterSend, hdata, htokens]⟩

/-- A refresh response that brings a new pair keeps the invariant. -/
theorem Rotation.respond (H : c.Rotation) {response : Except HttpError Response}
    (hsucceeds : Succeeds env.toRefreshEnv response) (hpc : c'.pc = c.pc)
    (hothers : ∀ j, j ≠ i → c'.credentials.tasks.pc j = c.credentials.tasks.pc j)
    (h : c.credentials.step env.toRefreshEnv (.respond i response) = some c'.credentials)
    (hhistory : c'.history = observe c.history c.credentials.active i (c.pc i)
      (c.credentials.tasks.pc i) (c'.credentials.tasks.pc i)) : c'.Rotation := by
  have hstage := H.stage i
  simp only [CredentialState.step] at h
  cases hq : c.credentials.tasks.pc i with
  | send current =>
      obtain ⟨tokens, htokens⟩ := afterSend_of_succeeds current hsucceeds
      simp only [hq, Option.some.injEq, htokens] at h
      have hafter : c'.credentials.tasks.pc i = .replaceGate current tokens := by
        rw [← h, CredentialState.pc_goto]
      rw [hq] at hstage
      rw [hq, hafter] at hhistory
      have hactive : c'.credentials.active = c.credentials.active := by rw [← h]; rfl
      have K : Keeps c c' := by
        refine ⟨hactive, by rw [hhistory]; rfl, ?_, by simp [hhistory, observe]⟩
        intro token htoken
        rw [hhistory]
        exact List.mem_append_left _ htoken
      refine H.inner K hpc hothers ?_ (by rw [hafter]; intro h; cases h)
      rw [hafter]
      refine ⟨hactive.trans hstage, ?_⟩
      rw [hhistory]
      exact List.mem_append_right _ (List.mem_singleton_self _)
  | _ => simp [hq] at h

/-- While nobody refreshes and the active token was rejected, no refresh was sent
or an issued token was rejected. -/
theorem Rotation.unspent (H : c.Rotation) (W : c.WorkSound)
    (hnone : ∀ j, (c.pc j).leads = none)
    (hrejected : ∀ pair, c.credentials.active = some pair →
      pair.accessToken ∈ c.history.rejected) : c.Spent ∨ c.history.refreshes = 0 := by
  have hfree (j : ℕ) : (c.credentials.tasks.pc j).refreshing = none := by
    cases hpair : (c.credentials.tasks.pc j).refreshing with
    | none => rfl
    | some pair =>
        obtain ⟨f, hf⟩ := W.leads (CredentialState.ofRefresh_of_refreshing hpair)
        cases (hnone j).symm.trans hf
  rcases H.settled hfree with h | h | ⟨pair, hactive, hissued⟩
  · exact .inl h
  · exact .inr h
  · exact .inl ⟨_, hissued, hrejected pair hactive⟩

/-- A task that comes to lead found no leader. -/
theorem FlightsSound.leads_none_before (F : c'.FlightsSound)
    {k : RefreshCaller} {f : ℕ} (hp : c.pc i = .refreshGate k)
    (hpc : c'.pc = Function.update c.pc i (.leading k f)) (j : ℕ) : (c.pc j).leads = none := by
  by_cases hj : j = i
  · rw [hj, hp]
    rfl
  · cases hleads : (c.pc j).leads with
    | none => rfl
    | some g =>
        refine absurd (F.leads_unique (f := g) (g := f) ?_ ?_) hj
        · rw [hpc, Function.update_of_ne hj, hleads]
        · rw [hpc, Function.update_self]
          rfl

/-- **Every step of a run of protected requests keeps the invariant**, if requests
that lead a refresh find their token active. -/
theorem rotation_step (H : c.Rotation) (I : c.credentials.Inv) (F : c.FlightsSound)
    (W : c.WorkSound) (honly : OnlyRequests env a) (honce : c.RefreshesOnce a)
    (h : c.step env a = some c') : c'.Rotation := by
  have hcall : ∀ op : ClientOp, a = .call a.task op → op.isRequest = true := by
    intro op ha
    rw [ha] at honly
    exact honly
  -- The next counter of a call is one of a protected request, and its token was rejected.
  have hrequests {p : ClientPc} (hfollows : Follows c c' a p) : p.ofRequest = true := by
    rcases hfollows.requests with h | h | ⟨op, ha, hop⟩
    · exact h
    · cases h.symm.trans (H.requests a.task)
    · cases hop.symm.trans (hcall op ha)
  have hexpired {p : ClientPc} (hfollows : Follows c c' a p) (hrecorded : Recorded c c') :
      ∀ sent, p.expired = some sent → sent ∈ c'.history.rejected := by
    intro sent hsent
    rcases hfollows.expired sent hsent with h | h
    · exact hrecorded.rejected _ (H.expired a.task sent h)
    · exact h
  cases step_work h with
  | inner b ha hb hworking hpc hstep hhistory =>
      subst ha
      have hothers (j : ℕ) (hj : j ≠ b.task) := CredentialState.pc_step_of_ne hj hstep
      cases b with
      | advance j =>
          refine H.advance I ?_ hpc hstep hhistory
          intro hj k hk
          cases hother : (c.credentials.tasks.pc k).ofRefresh with
          | false => rfl
          | true => exact absurd (F.refresh_unique W hother hj) hk
      | store j outcome =>
          refine H.storeReturns hpc hothers ?_ hstep hhistory
          exact fun current replacement hq => honce.saved j current replacement outcome rfl hq
      | respond j response => exact H.respond honly hpc hothers hstep hhistory
      | start | cancel => cases hb
  | leads k f ha hp hpc hstep hrecorded =>
      have hothers (j : ℕ) (hj : j ≠ a.task) :=
        CredentialState.pc_step_of_ne (a := .start a.task .refreshOnce) hj hstep
      have hentry := CredentialState.pc_start hstep
      have K : Keeps c c' := ⟨CredentialState.active_start hstep, hrecorded.refreshes,
        by simp [hrecorded.issued], hrecorded.rejected⟩
      have hself : c'.pc a.task = .leading k f := by rw [hpc, Function.update_self]
      refine H.keeps K (fun j hj => by rw [hpc, Function.update_of_ne hj]) hothers
        (by rw [hself]; rfl) (by rw [hself]; exact fun _ h => by cases h) ?_ ?_
      · rw [hentry]
        intro _
        have hnone := (flightsSound_step F h).leads_none_before hp hpc
        refine (H.unspent W hnone ?_).imp (fun h => h.mono K.issued K.rejected) K.refreshes.trans
        intro pair hpair
        cases k with
        | refresh => have hi := H.requests a.task; rw [hp] at hi; cases hi
        | request sent =>
            have hsent := honce.current a.task sent ha hp hnone
            rw [hpair] at hsent
            cases hsent
            exact H.expired a.task _ (by rw [hp]; rfl)
      · intro _
        exact CredentialState.refreshing_of_resting (CredentialState.resting_of_start hstep)
  | begins op p hop hload hpc hp hworking hstep hfollows hrecorded =>
      have hothers (j : ℕ) (hj : j ≠ a.task) :=
        CredentialState.pc_step_of_ne (a := .start a.task op) hj hstep
      have hself : c'.pc a.task = p := by rw [hpc, Function.update_self]
      have K : Keeps c c' := ⟨CredentialState.active_start hstep, hrecorded.refreshes,
        by simp [hrecorded.issued], hrecorded.rejected⟩
      refine H.keeps K (fun j hj => by rw [hpc, Function.update_of_ne hj]) hothers
        (by rw [hself]; exact hrequests hfollows)
        (by rw [hself]; exact hexpired hfollows hrecorded) ?_ ?_
      · rcases hload with rfl | hload
        · rw [CredentialState.pc_start hstep]
          exact fun h => by cases h
        · cases hload.symm.trans (hrequests hfollows)
      · intro _
        exact CredentialState.refreshing_of_resting (CredentialState.resting_of_start hstep)
  | goes p hpc hp hcredentials hfollows hrecorded =>
      have hself : c'.pc a.task = p := by rw [hpc, Function.update_self]
      have K : Keeps c c' := ⟨by rw [hcredentials], hrecorded.refreshes,
        by simp [hrecorded.issued], hrecorded.rejected⟩
      refine H.keeps K (fun j hj => by rw [hpc, Function.update_of_ne hj])
        (fun j _ => by rw [hcredentials]) (by rw [hself]; exact hrequests hfollows)
        (by rw [hself]; exact hexpired hfollows hrecorded) ?_ (by rw [hcredentials]; exact id)
      rw [hcredentials]
      exact K.stage (H.stage a.task)
  | cancels content p ha hpc hp hcredentials hrecorded =>
      rw [ha] at honly
      exact absurd honly id

theorem rotation_new (persisted : Option TokenPair) : (withTransport persisted).Rotation where
  requests _ := rfl
  expired _ _ h := by cases h
  stage _ := trivial
  settled _ := .inr (.inl rfl)
  bound := .inr (Nat.zero_le _)

end ApiClient

/-- **One rotation for each expired token.** In every run of protected requests on
a server whose refresh succeeds, if each request that starts a refresh finds the
token active that it was sent with, and rotated pairs are saved, a second refresh
request is sent only after an issued access token was answered with 401. -/
theorem one_rotation_per_expired_token {Response : Type} (env : ClientEnv Response)
    (persisted : Option TokenPair) (actions : List (ClientAction Response)) (c : ApiClient)
    (honly : ∀ a ∈ actions, ApiClient.OnlyRequests env a)
    (honce : Along (ApiClient.step env) ApiClient.RefreshesOnce (.withTransport persisted)
      actions)
    (hrun : exec (ApiClient.step env) (.withTransport persisted) actions = some c) :
    (∃ token ∈ c.history.issued, token ∈ c.history.rejected) ∨ c.history.refreshes ≤ 1 := by
  have hinv := invariant_along
    (I := fun c => c.Rotation ∧ c.credentials.Inv ∧ c.FlightsSound ∧ c.WorkSound)
    (fun s a t H hcond h =>
      ⟨ApiClient.rotation_step H.1 H.2.1 H.2.2.1 H.2.2.2 hcond.2 hcond.1 h,
        ApiClient.credentialsInv_step H.2.1 h, ApiClient.flightsSound_step H.2.2.1 h,
        ApiClient.workSound_step H.2.2.2 h⟩)
    ⟨ApiClient.rotation_new persisted, CredentialState.inv_init persisted,
      ApiClient.flightsSound_new persisted, ApiClient.workSound_new persisted⟩
    (honce.and_forall honly) hrun
  exact hinv.1.bound

/-- A test for `ApiClient.OnlyRequests`. -/
def checkRequests : ClientAction (Except HttpError RefreshResponse) → Bool
  | .call _ op => op.isRequest
  | .credential (.respond _ (.ok (.ok data))) =>
      (TokenPair.fromExpiresIn data.accessToken data.refreshToken data.expiresIn).toOption.isSome
  | .credential (.respond _ _) | .cancel _ _ => false
  | _ => true

theorem onlyRequests_of_check {a : ClientAction (Except HttpError RefreshResponse)}
    (h : checkRequests a = true) : ApiClient.OnlyRequests sampleClientEnv a := by
  unfold checkRequests at h
  split at h
  · exact h
  case h_2 data =>
    unfold ApiClient.OnlyRequests
    cases htokens : TokenPair.fromExpiresIn data.accessToken data.refreshToken data.expiresIn with
    | ok tokens => exact ⟨_, data, tokens, rfl, rfl, htokens⟩
    | error e => rw [htokens] at h; cases h
  · cases h
  · cases h
  case h_5 hcall hrespond hother hcancel =>
    unfold ApiClient.OnlyRequests
    split
    · exact absurd rfl (hcall _ _)
    · exact absurd rfl (hother _ _)
    · exact absurd rfl (hcancel _ _)
    · trivial

/-- A test for `ApiClient.RefreshesOnce`. -/
def ApiClient.checkOnce {Response : Type} (c : ApiClient) : ClientAction Response → Bool
  | .resume i =>
      match c.pc i with
      | .refreshGate (.request sent) =>
          decide (c.credentials.active.map TokenPair.accessToken = some sent)
      | _ => true
  | .credential (.store _ (.failure _ _)) => false
  | _ => true

theorem ApiClient.refreshesOnce_of_check {Response : Type} {c : ApiClient}
    {a : ClientAction Response} (h : c.checkOnce a = true) : c.RefreshesOnce a := by
  constructor
  · rintro i sent rfl hp -
    simpa [checkOnce, hp] using h
  · rintro i current replacement outcome rfl -
    cases outcome with
    | success => rfl
    | failure error content => cases h

/-- Two requests with the old token are answered with 401. -/
def rejectedSchedule : List (ClientAction (Except HttpError RefreshResponse)) :=
  [ClientAction.call 0 (.request true)] ++ loading 0 true ++
    [ClientAction.resume 0, .call 1 (.request true)] ++ loading 1 false ++
    [ClientAction.resume 1, .respond 0 (.status (.ok 401))] ++ loading 0 false ++
    [ClientAction.resume 0, .respond 1 (.status (.ok 401))] ++ loading 1 false ++
    [ClientAction.resume 1]

/-- The second request joins the refresh of the first one. -/
theorem one_rotation_per_expired_token_joined :
    ∃ c, exec (ApiClient.step sampleClientEnv) (.withTransport (some (.sample "old")))
        (rejectedSchedule ++ [ClientAction.resume 0, .resume 1] ++ loading 0 false ++
          rotating 0 "new") = some c ∧ c.history.rejected.length = 2 ∧
      ((∃ token ∈ c.history.issued, token ∈ c.history.rejected) ∨ c.history.refreshes ≤ 1) := by
  have hrun : (exec (ApiClient.step sampleClientEnv) (.withTransport (some (.sample "old")))
      (rejectedSchedule ++ [ClientAction.resume 0, .resume 1] ++ loading 0 false ++
        rotating 0 "new")).any (fun c => c.history.rejected.length == 2) = true := by
    decide +kernel
  obtain ⟨c, hc, h⟩ := (Option.any_eq_true _ _).mp hrun
  have honly : ∀ a ∈ rejectedSchedule ++ [ClientAction.resume 0, .resume 1] ++ loading 0 false ++
      rotating 0 "new", ApiClient.OnlyRequests sampleClientEnv a :=
    fun a ha => onlyRequests_of_check (List.all_eq_true.mp (by decide +kernel) a ha)
  refine ⟨c, hc, by simpa using h, one_rotation_per_expired_token _ _ _ c honly ?_ hc⟩
  exact along_of_check (fun _ _ => ApiClient.refreshesOnce_of_check) (by decide +kernel)

/-- A request that enters the singleflight after the refresh of another one sends a
second refresh request, although nobody rejected the new token. -/
theorem late_request_refreshes_again :
    ∃ c, (∀ a ∈ rejectedSchedule ++ [ClientAction.resume 0] ++ loading 0 false ++
        rotating 0 "new" ++ [ClientAction.resume 0, .resume 0, .resume 0, .resume 0, .resume 1] ++
        loading 1 false, ApiClient.OnlyRequests sampleClientEnv a) ∧
      exec (ApiClient.step sampleClientEnv) (.withTransport (some (.sample "old")))
        (rejectedSchedule ++ [ClientAction.resume 0] ++ loading 0 false ++ rotating 0 "new" ++
          [ClientAction.resume 0, .resume 0, .resume 0, .resume 0, .resume 1] ++ loading 1 false) =
        some c ∧
      c.history.rejected = [(TokenPair.sample "old").accessToken,
        (TokenPair.sample "old").accessToken] ∧
      c.history.issued = [(TokenPair.sample "new").accessToken] ∧ c.history.refreshes = 2 ∧
      ¬ ∃ token ∈ c.history.issued, token ∈ c.history.rejected := by
  have hrun : (exec (ApiClient.step sampleClientEnv) (.withTransport (some (.sample "old")))
      (rejectedSchedule ++ [ClientAction.resume 0] ++ loading 0 false ++ rotating 0 "new" ++
        [ClientAction.resume 0, .resume 0, .resume 0, .resume 0, .resume 1] ++ loading 1 false)).any
        (fun c => decide (c.history.rejected = [(TokenPair.sample "old").accessToken,
            (TokenPair.sample "old").accessToken]) &&
          decide (c.history.issued = [(TokenPair.sample "new").accessToken]) &&
          decide (c.history.refreshes = 2)) = true := by
    decide +kernel
  obtain ⟨c, hc, h⟩ := (Option.any_eq_true _ _).mp hrun
  simp only [Bool.and_eq_true, decide_eq_true_eq] at h
  obtain ⟨⟨hrejected, hissued⟩, hrefreshes⟩ := h
  refine ⟨c, ?_, hc, hrejected, hissued, hrefreshes, ?_⟩
  · exact fun a ha => onlyRequests_of_check (List.all_eq_true.mp (by decide +kernel) a ha)
  · rw [hrejected, hissued]
    decide

end ZephyrVox.Http
