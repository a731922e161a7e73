import ZephyrVox.Http.Client

/-!
# What a logout removes

A logout reads the active pair, sends its refresh token to the server, and clears
the credentials once the server has answered. A refresh commits only what it
finds unchanged, but a logout clears whatever is active by then: a pair that a
login installed while the request was on the network is lost. Where no login
commits in between, a logout removes the pair it sent, or a rotation of it.

## Main definitions

* `Rotated` — one pair follows from another by committed rotations.
* `ApiClient.RespectsLogins` — no login commits between the read of a logout and
  its clear.
* `ApiClient.LogoutSound` — what the pairs held by logouts have to do with the
  active one.
* `logout_removes_its_session` — a logout removes only the session it revoked.
-/

namespace ZephyrVox.Http

open Transition Gate

/-- A pair that committed rotations lead to. -/
def Rotated (rotations : List (TokenPair × TokenPair)) : TokenPair → TokenPair → Prop :=
  Relation.ReflTransGen fun current replacement => (current, replacement) ∈ rotations

theorem Rotated.mono {rotations rotations' : List (TokenPair × TokenPair)} {p q : TokenPair}
    (h : Rotated rotations p q) (hsub : ∀ e ∈ rotations, e ∈ rotations') :
    Rotated rotations' p q :=
  Relation.ReflTransGen.mono (fun _ _ he => hsub _ he) _ _ h

/-- One more rotation. -/
theorem Rotated.rotate {rotations : List (TokenPair × TokenPair)} {p q r : TokenPair}
    (h : Rotated rotations p q) : Rotated (rotations ++ [(q, r)]) p r :=
  (h.mono fun _ he => List.mem_append_left _ he).tail
    (List.mem_append_right _ (List.mem_singleton_self _))

/-! ## What commits do -/

namespace CredentialState

variable {Response : Type} {env : RefreshEnv Response} {c c' : CredentialState} {i : ℕ}

/-- What passing a lock does to the active pair. -/
inductive Commits (c c' : CredentialState) (i : ℕ) : Prop
  | none (hactive : c'.active = c.active) (hpc : ¬ (c.tasks.pc i).Writes)
  | sets (tokens : TokenPair) (hpc : c.tasks.pc i = .setWrite tokens)
      (hactive : c'.active = some tokens)
  | clears (hpc : c.tasks.pc i = .clearWrite) (hactive : c'.active = Option.none)
  | loads (refresh : Bool) (tokens : Option TokenPair)
      (hpc : c.tasks.pc i = .loadWrite refresh tokens) (hloaded : c.loaded = false)
  | expires (current : TokenPair) (hpc : c.tasks.pc i = .expireWrite current)
      (hactive : c'.active = Option.none)
  | rotates (current replacement : TokenPair)
      (hpc : c.tasks.pc i = .replaceWrite current replacement)
      (hbefore : c.active = some current) (hactive : c'.active = some replacement)

theorem Inv.commits (I : c.Inv) {a : CredentialAction Response} (ha : a.inner = true)
    (h : c.step env a = some c') : Commits c c' a.task := by
  by_cases hwrites : (c.tasks.pc a.task).Writes
  · have hrelies := I.relies a.task
    cases a with
    | advance j =>
        simp only [step, CredentialState.advance] at h
        simp only [CredentialAction.task] at hwrites hrelies ⊢
        cases hpc : c.tasks.pc j with
        | setWrite tokens =>
            simp only [hpc, Option.some.injEq] at h
            subst h
            exact .sets tokens hpc rfl
        | clearWrite =>
            simp only [hpc, Option.some.injEq] at h
            subst h
            exact .clears hpc rfl
        | loadWrite refresh tokens =>
            rw [hpc] at hrelies
            exact .loads refresh tokens hpc hrelies.1
        | expireWrite current =>
            simp only [hpc, Option.some.injEq] at h
            subst h
            exact .expires current hpc rfl
        | replaceWrite current replacement =>
            simp only [hpc, Option.some.injEq] at h
            rw [hpc] at hrelies
            subst h
            exact .rotates current replacement hpc hrelies.1 rfl
        | _ => rw [hpc] at hwrites; exact absurd hwrites id
    | store j outcome =>
        simp only [step, CredentialState.storeReturns] at h
        revert hwrites
        simp only [CredentialAction.task]
        cases hpc : c.tasks.pc j <;>
          first | exact fun hwrites => absurd hwrites id | simp [hpc] at h
    | respond j response =>
        simp only [step] at h
        revert hwrites
        simp only [CredentialAction.task]
        cases hpc : c.tasks.pc j <;>
          first | exact fun hwrites => absurd hwrites id | simp [hpc] at h
    | start | cancel => cases ha
  · exact .none ((step_active h).resolve_right hwrites) hwrites

/-- Loaded credentials stay loaded. -/
theorem loaded_step {a : CredentialAction Response} (h : c.step env a = some c')
    (hloaded : c.loaded = true) : c'.loaded = true := by
  cases a with
  | start j op =>
      simp only [step] at h
      cases hpc : c.tasks.pc j <;> simp only [hpc, reduceCtorEq, Option.some.injEq] at h <;>
        (subst h; exact hloaded)
  | advance j =>
      simp only [step, CredentialState.advance] at h
      cases hpc : c.tasks.pc j with
      | setGate _ | clearGate | loadGate _ | supersedeGate _ _ | expireGate _ | replaceGate _ _ =>
          rw [hpc] at h
          obtain ⟨tasks, -, rfl⟩ := Option.map_eq_some_iff.mp h
          exact hloaded
      | setWrite _ | clearWrite | loadWrite _ _ | expireWrite _ | replaceWrite _ _ =>
          simp only [hpc, Option.some.injEq] at h
          subst h
          rfl
      | loadRead _ | supersedeRead _ _ =>
          simp only [hpc, Option.some.injEq] at h
          subst h
          exact hloaded
      | expireRead _ | replaceRead _ _ =>
          simp only [hpc] at h
          split at h <;> cases h <;> exact hloaded
      | _ => simp [hpc] at h
  | store j outcome =>
      simp only [step, CredentialState.storeReturns] at h
      cases hpc : c.tasks.pc j <;> simp only [hpc, reduceCtorEq, Option.some.injEq] at h <;>
        (subst h; cases outcome <;> exact hloaded)
  | respond j response =>
      simp only [step] at h
      cases hpc : c.tasks.pc j <;> simp only [hpc, reduceCtorEq, Option.some.injEq] at h
      subst h
      exact hloaded
  | cancel j content =>
      cases h
      unfold CredentialState.cancel
      cases c.tasks.pc j <;> exact hloaded

/-- Outside a refresh, only a read of the active pair returns one. -/
theorem finished_of_loadRead {a : CredentialAction Response} (ha : a.inner = true)
    (h : c.step env a = some c') (hbefore : (c.tasks.pc a.task).ofRefresh = false)
    {tokens : TokenPair} (hafter : c'.tasks.pc a.task = .finished (.ok (some tokens))) :
    c.tasks.pc a.task = .loadRead false ∧ c.active = some tokens := by
  cases a with
  | advance j =>
      simp only [step, CredentialState.advance] at h
      simp only [CredentialAction.task] at hbefore hafter ⊢
      cases hpc : c.tasks.pc j with
      | setGate _ | clearGate =>
          rw [hpc] at h
          rw [pc_acquire h] at hafter
          cases hafter
      | loadGate _ =>
          rw [hpc] at h
          rw [pc_acquire h] at hafter
          split at hafter <;> cases hafter
      | setWrite _ | clearWrite | loadWrite _ _ =>
          simp only [hpc, Option.some.injEq] at h
          subst h
          simp at hafter
      | loadRead refresh =>
          rw [hpc] at hbefore
          cases hbefore
          simp only [hpc, Option.some.injEq] at h
          subst h
          rw [pc_release] at hafter
          exact ⟨rfl, Except.ok.inj (CredentialPc.finished.inj hafter)⟩
      | idle | setSave _ | clearStore | loadStore _ | finished _ => simp [hpc] at h
      | _ => rw [hpc] at hbefore; cases hbefore
  | store j outcome =>
      simp only [step, CredentialState.storeReturns] at h
      simp only [CredentialAction.task] at hafter
      cases hpc : c.tasks.pc j <;> simp only [hpc, reduceCtorEq, Option.some.injEq] at h <;>
        (subst h; cases outcome <;> simp [written] at hafter)
  | respond j response =>
      simp only [step] at h
      simp only [CredentialAction.task] at hbefore
      cases hpc : c.tasks.pc j <;> simp only [hpc, reduceCtorEq, Option.some.injEq] at h
      rw [hpc] at hbefore
      cases hbefore
  | start | cancel => cases ha

end CredentialState

/-! ## Logouts in flight -/

namespace ApiClient

variable {Response : Type} {env : ClientEnv Response} {c c' : ApiClient} {i : ℕ}
  {a : ClientAction Response}

/-- No login commits between the read of a logout and its clear. -/
structure RespectsLogins (c : ApiClient) (a : ClientAction Response) : Prop where
  /-- The server accepts a logout only if no pair was set since the logout read its own. -/
  answered : ∀ i, a = .respond i (.logout (.ok ())) →
    c.history.logins = c.history.readLogins i
  /-- No pair is set while a logout clears. -/
  settled : ∀ b j tokens sent, a = .credential b →
    c.credentials.tasks.pc b.task = .setWrite tokens → c.pc j ≠ .logoutClear sent

/-- The pair that a logout has read. -/
def HoldsPair (c : ApiClient) (i : ℕ) (tokens : TokenPair) : Prop :=
  (c.pc i = .logoutLoad ∧ c.credentials.tasks.pc i = .finished (.ok (some tokens))) ∨
    c.pc i = .logoutSend tokens ∨ c.pc i = .logoutClear tokens

/-- Until a pair is set, the active pair is a rotation of the one a logout read. -/
structure Tracks (c : ApiClient) (i : ℕ) (tokens : TokenPair) : Prop where
  loaded : c.credentials.loaded = true
  rotated : c.pc i = .logoutClear tokens ∨ c.history.logins = c.history.readLogins i →
    ∀ pair, c.credentials.active = some pair → Rotated c.history.rotations tokens pair

/-- The invariant of logouts. -/
structure LogoutSound (c : ApiClient) : Prop where
  read : ∀ i, c.history.readLogins i ≤ c.history.logins
  held : ∀ i tokens, c.HoldsPair i tokens → c.Tracks i tokens
  cleared : ∀ e ∈ c.history.cleared, ∀ pair, e.removed = some pair →
    Rotated e.rotations e.sent pair

theorem logoutSound_new (persisted : Option TokenPair) :
    (withTransport persisted).LogoutSound where
  read _ := Nat.le_refl _
  held i tokens h := by rcases h with ⟨h, -⟩ | h | h <;> cases h
  cleared _ h := by cases h

/-- Nothing that logouts depend on changes. -/
structure Untouched (c c' : ApiClient) : Prop where
  active : c'.credentials.active = c.credentials.active
  loaded : c.credentials.loaded = true → c'.credentials.loaded = true
  logins : c'.history.logins = c.history.logins
  rotations : c'.history.rotations = c.history.rotations
  cleared : c'.history.cleared = c.history.cleared

/-- A logout that keeps its pair. -/
theorem Untouched.tracks (U : Untouched c c') {tokens : TokenPair} (h : c.Tracks i tokens)
    (hnow : c'.pc i = .logoutClear tokens ∨ c'.history.logins = c'.history.readLogins i →
      c.pc i = .logoutClear tokens ∨ c.history.logins = c.history.readLogins i) :
    c'.Tracks i tokens := by
  refine ⟨U.loaded h.loaded, ?_⟩
  intro hcounts pair hpair
  rw [U.rotations]
  rw [U.active] at hpair
  exact h.rotated (hnow hcounts) pair hpair

/-- A step of one task that leaves the active pair alone. -/
theorem LogoutSound.update (H : c.LogoutSound) (U : Untouched c c')
    (hreads : c'.history.readLogins = c.history.readLogins)
    (hpc : ∀ j, j ≠ i → c'.pc j = c.pc j)
    (hothers : ∀ j, j ≠ i → c'.credentials.tasks.pc j = c.credentials.tasks.pc j)
    (hself : ∀ tokens, c'.HoldsPair i tokens → c'.Tracks i tokens) : c'.LogoutSound := by
  refine ⟨?_, ?_, ?_⟩
  · rw [hreads, U.logins]
    exact H.read
  · intro j tokens hj
    by_cases hji : j = i
    · subst hji
      exact hself tokens hj
    · rw [HoldsPair, hpc j hji, hothers j hji] at hj
      refine U.tracks (H.held j tokens hj) ?_
      rw [hpc j hji, hreads, U.logins]
      exact id
  · rw [U.cleared]
    exact H.cleared

/-- The observations of a step that does not write the active pair. -/
theorem observe_of_not_writes {h : ClientHistory} {active : Option TokenPair} {p : ClientPc}
    {before after : CredentialPc} (hpc : ¬ before.Writes) :
    (observe h active i p before after).logins = h.logins ∧
      (observe h active i p before after).rotations = h.rotations ∧
      (observe h active i p before after).cleared = h.cleared ∧
      ((observe h active i p before after).readLogins = h.readLogins ∨
        before = .loadRead false ∧
          (observe h active i p before after).readLogins =
            Function.update h.readLogins i h.logins) := by
  unfold observe
  split
  case h_2 => exact ⟨rfl, rfl, rfl, .inr ⟨rfl, rfl⟩⟩
  case h_4 | h_5 | h_6 => exact absurd trivial hpc
  all_goals exact ⟨rfl, rfl, rfl, .inl rfl⟩

/-- A step of a credential operation gives a logout its pair only by a read. -/
theorem holdsPair_inner (W : c.WorkSound) {b : CredentialAction Response}
    (hb : b.inner = true) (hpc : c'.pc = c.pc)
    (hstep : c.credentials.step env.toRefreshEnv b = some c'.credentials) {j : ℕ}
    {tokens : TokenPair} (h : c'.HoldsPair j tokens) :
    c.HoldsPair j tokens ∨ (j = b.task ∧ c.credentials.tasks.pc b.task = .loadRead false ∧
      c.pc b.task = .logoutLoad ∧ c.credentials.active = some tokens) := by
  rw [HoldsPair, hpc] at h
  rcases h with ⟨hp, hfinished⟩ | h
  · by_cases hj : j = b.task
    · subst hj
      have hfree : (c.credentials.tasks.pc b.task).ofRefresh = false := by
        cases hrefresh : (c.credentials.tasks.pc b.task).ofRefresh with
        | false => rfl
        | true =>
            have hleads := W.refreshing _ hrefresh
            rw [hp] at hleads
            cases hleads
      obtain ⟨hread, hactive⟩ := CredentialState.finished_of_loadRead hb hstep hfree hfinished
      exact .inr ⟨rfl, hread, hp, hactive⟩
    · rw [CredentialState.pc_step_of_ne hj hstep] at hfinished
      exact .inl (.inl ⟨hp, hfinished⟩)
  · exact .inl (.inr h)

/-- A step of a credential operation keeps the invariant. -/
theorem LogoutSound.inner (H : c.LogoutSound) (I : c.credentials.Inv) (W : c.WorkSound)
    {b : CredentialAction Response} (hb : b.inner = true) (hpc : c'.pc = c.pc)
    (hworking : (c.pc b.task).working = true)
    (hsettled : ∀ j tokens sent, c.credentials.tasks.pc b.task = .setWrite tokens →
      c.pc j ≠ .logoutClear sent)
    (hstep : c.credentials.step env.toRefreshEnv b = some c'.credentials)
    (hhistory : c'.history = observe c.history c.credentials.active b.task (c.pc b.task)
      (c.credentials.tasks.pc b.task) (c'.credentials.tasks.pc b.task)) : c'.LogoutSound := by
  have hloaded := CredentialState.loaded_step hstep
  have hholds {j : ℕ} {tokens : TokenPair} (h : c'.HoldsPair j tokens) :=
    holdsPair_inner W hb hpc hstep h
  -- A commit gives no logout its pair.
  have hcommit {q : CredentialPc} (hq : c.credentials.tasks.pc b.task = q)
      (hne : q ≠ .loadRead false) {j : ℕ} {tokens : TokenPair} (h : c'.HoldsPair j tokens) :
      c.HoldsPair j tokens := by
    rcases hholds h with h | ⟨-, hread, -⟩
    · exact h
    · exact absurd (hq.symm.trans hread) hne
  -- After a clear there is no active pair.
  have hempty {q : CredentialPc} (hq : c.credentials.tasks.pc b.task = q)
      (hne : q ≠ .loadRead false) (hactive : c'.credentials.active = none) {j : ℕ}
      {tokens : TokenPair} (h : c'.HoldsPair j tokens) : c'.Tracks j tokens := by
    refine ⟨hloaded (H.held j tokens (hcommit hq hne h)).loaded, ?_⟩
    intro _ pair hpair
    cases hactive.symm.trans hpair
  cases I.commits hb hstep with
  | none hactive hwrites =>
      obtain ⟨hlogins, hrotations, hcleared, hreads⟩ :=
        observe_of_not_writes (i := b.task) (h := c.history) (p := c.pc b.task) hwrites
      rw [← hhistory] at hlogins hrotations hcleared hreads
      have U : Untouched c c' := ⟨hactive, hloaded, hlogins, hrotations, hcleared⟩
      refine ⟨?_, ?_, by rw [hcleared]; exact H.cleared⟩
      · intro j
        rw [hlogins]
        rcases hreads with hreads | ⟨-, hreads⟩
        · rw [hreads]
          exact H.read j
        · rw [hreads, Function.update_apply]
          split
          · exact Nat.le_refl _
          · exact H.read j
      · intro j tokens hj
        rcases hholds hj with hheld | ⟨rfl, -, -, hread⟩
        · refine U.tracks (H.held j tokens hheld) ?_
          rw [hpc, hlogins]
          rintro (hclear | hcounts)
          · exact .inl hclear
          rcases hreads with hreads | ⟨hbefore, hreads⟩
          · rw [hreads] at hcounts
            exact .inr hcounts
          by_cases hji : j = b.task
          · -- A task that reads has no pair yet, unless it clears.
            subst hji
            rcases hheld with ⟨-, hfinished⟩ | hsend | hclear
            · cases hbefore.symm.trans hfinished
            · rw [hsend] at hworking
              cases hworking
            · exact .inl hclear
          · rw [hreads, Function.update_of_ne hji] at hcounts
            exact .inr hcounts
        · constructor
          · refine hloaded ?_
            cases hunloaded : c.credentials.loaded with
            | true => rfl
            | false => cases (I.unloaded hunloaded).symm.trans hread
          · intro _ pair hpair
            rw [hactive, hread] at hpair
            cases hpair
            exact .refl
  | sets tokens hq hactive =>
      rw [hq] at hhistory
      have hlogins : c'.history.logins = c.history.logins + 1 := by rw [hhistory]; rfl
      have hreads : c'.history.readLogins = c.history.readLogins := by rw [hhistory]; rfl
      refine ⟨?_, ?_, ?_⟩
      · intro j
        rw [hlogins, hreads]
        exact Nat.le_succ_of_le (H.read j)
      · intro j pair hj
        have htracks := H.held j pair (hcommit hq (fun h => by cases h) hj)
        refine ⟨hloaded htracks.loaded, ?_⟩
        rintro (hclear | hcount)
        · rw [hpc] at hclear
          exact absurd hclear (hsettled j tokens pair hq)
        · have := H.read j
          rw [hlogins, hreads] at hcount
          omega
      · rw [hhistory]
        exact H.cleared
  | clears hq hactive =>
      rw [hq] at hhistory
      have hcounts : c'.history.logins = c.history.logins ∧
          c'.history.readLogins = c.history.readLogins := by
        rw [hhistory]
        simp only [observe]
        split <;> exact ⟨rfl, rfl⟩
      refine ⟨?_, fun j pair hj => hempty hq (fun h => by cases h) hactive hj, ?_⟩
      · rw [hcounts.1, hcounts.2]
        exact H.read
      · intro e he
        rw [hhistory] at he
        simp only [observe] at he
        split at he
        case h_1 tokens hp =>
          rcases List.mem_append.mp he with he | he
          · exact H.cleared e he
          · obtain rfl := List.mem_singleton.mp he
            exact (H.held b.task tokens (.inr (.inr hp))).rotated (.inl hp)
        · exact H.cleared e he
  | loads refresh tokens hq hunloaded =>
      rw [hq] at hhistory
      have hsame : c'.history = c.history := hhistory
      refine ⟨?_, ?_, ?_⟩
      · rw [hsame]
        exact H.read
      · intro j pair hj
        have htracks := H.held j pair (hcommit hq (fun h => by cases h) hj)
        cases hunloaded.symm.trans htracks.loaded
      · rw [hsame]
        exact H.cleared
  | expires current hq hactive =>
      rw [hq] at hhistory
      have hsame : c'.history = c.history := hhistory
      refine ⟨?_, fun j pair hj => hempty hq (fun h => by cases h) hactive hj, ?_⟩
      · rw [hsame]
        exact H.read
      · rw [hsame]
        exact H.cleared
  | rotates current replacement hq hbefore hactive =>
      rw [hq] at hhistory
      refine ⟨?_, ?_, ?_⟩
      · rw [hhistory]
        exact H.read
      · intro j pair hj
        have htracks := H.held j pair (hcommit hq (fun h => by cases h) hj)
        refine ⟨hloaded htracks.loaded, ?_⟩
        intro hcounts active hactive'
        rw [hactive] at hactive'
        cases hactive'
        rw [hpc, hhistory] at hcounts
        rw [hhistory]
        exact (htracks.rotated hcounts current hbefore).rotate
      · rw [hhistory]
        exact H.cleared

/-- **Every step keeps the invariant of logouts**, if no login commits between the
read of a logout and its clear. -/
theorem logoutSound_step (H : c.LogoutSound) (I : c.credentials.Inv) (W : c.WorkSound)
    (hrespects : c.RespectsLogins a) (h : c.step env a = some c') : c'.LogoutSound := by
  cases step_work h with
  | inner b ha hb hworking hpc hstep hhistory =>
      subst ha
      exact H.inner I W hb hpc hworking
        (fun j tokens sent hq => hrespects.settled b j tokens sent rfl hq) hstep hhistory
  | leads k f ha hp hpc hstep hrecorded =>
      have hself : c'.pc a.task = .leading k f := by rw [hpc, Function.update_self]
      refine H.update (i := a.task) ⟨CredentialState.active_start hstep,
        CredentialState.loaded_step hstep, hrecorded.logins, hrecorded.rotations,
        hrecorded.cleared⟩ hrecorded.readLogins
        (fun j hj => by rw [hpc, Function.update_of_ne hj])
        (fun j hj => CredentialState.pc_step_of_ne (a := .start a.task .refreshOnce) hj hstep) ?_
      intro tokens hholds
      rw [HoldsPair, hself] at hholds
      rcases hholds with ⟨hp, -⟩ | hp | hp <;> cases hp
  | begins op p hop hload hpc hp hworking hstep hfollows hrecorded =>
      have hself : c'.pc a.task = p := by rw [hpc, Function.update_self]
      have U : Untouched c c' := ⟨CredentialState.active_start hstep,
        CredentialState.loaded_step hstep, hrecorded.logins, hrecorded.rotations,
        hrecorded.cleared⟩
      refine H.update (i := a.task) U hrecorded.readLogins
        (fun j hj => by rw [hpc, Function.update_of_ne hj])
        (fun j hj => CredentialState.pc_step_of_ne (a := .start a.task op) hj hstep) ?_
      intro tokens hholds
      rw [HoldsPair, hself, CredentialState.pc_start hstep] at hholds
      rcases hholds with ⟨-, hentry⟩ | rfl | rfl
      · cases op <;> cases hentry
      · cases hworking
      · obtain ⟨hsend, ha⟩ := hfollows.clears tokens rfl
        exact U.tracks (H.held _ tokens (.inr (.inl hsend)))
          fun _ => .inr (hrespects.answered a.task ha)
  | goes p hpc hp hcredentials hfollows hrecorded =>
      have hself : c'.pc a.task = p := by rw [hpc, Function.update_self]
      have U : Untouched c c' := ⟨by rw [hcredentials], by rw [hcredentials]; exact id,
        hrecorded.logins, hrecorded.rotations, hrecorded.cleared⟩
      refine H.update (i := a.task) U hrecorded.readLogins
        (fun j hj => by rw [hpc, Function.update_of_ne hj]) (fun j _ => by rw [hcredentials]) ?_
      intro tokens hholds
      rw [HoldsPair, hself] at hholds
      rcases hholds with ⟨rfl, -⟩ | rfl | rfl
      · cases hp
      · refine U.tracks (H.held _ tokens (.inl (hfollows.logout tokens rfl))) ?_
        rw [hself, hrecorded.logins, hrecorded.readLogins]
        rintro (hclear | hcounts)
        · cases hclear
        · exact .inr hcounts
      · cases hp
  | cancels content p ha hpc hp hcredentials hrecorded =>
      have hstep : c.credentials.step env.toRefreshEnv (.cancel a.task content) =
          some c'.credentials := by rw [hcredentials]; rfl
      have hself : c'.pc a.task = p := by rw [hpc, Function.update_self]
      have hactive : c'.credentials.active = c.credentials.active := by
        rw [hcredentials]
        exact CredentialState.cancel_active content
      refine H.update (i := a.task) ⟨hactive, CredentialState.loaded_step hstep,
        hrecorded.logins, hrecorded.rotations, hrecorded.cleared⟩ hrecorded.readLogins
        (fun j hj => by rw [hpc, Function.update_of_ne hj])
        (fun j hj => CredentialState.pc_step_of_ne (a := .cancel a.task content) hj hstep) ?_
      intro tokens hholds
      rw [HoldsPair, hself] at hholds
      rcases hp with rfl | ⟨f, rfl⟩ <;> rcases hholds with ⟨hp, -⟩ | hp | hp <;> cases hp

end ApiClient

/-- **A logout removes only the session it revoked.** In every run in which no
login commits between the read of a logout and its clear, the pair that a logout
removed is the one whose refresh token it sent, or a rotation of it; and while a
logout clears, neither the active pair nor a stored pair that a login installed is
another one. -/
theorem logout_removes_its_session {Response : Type} (env : ClientEnv Response)
    (persisted : Option TokenPair) (actions : List (ClientAction Response)) (c : ApiClient)
    (hrespects : Along (ApiClient.step env) ApiClient.RespectsLogins (.withTransport persisted)
      actions)
    (hrun : exec (ApiClient.step env) (.withTransport persisted) actions = some c) :
    (∀ e ∈ c.history.cleared, ∀ pair, e.removed = some pair →
      Rotated e.rotations e.sent pair) ∧
    (∀ i tokens pair, c.pc i = .logoutClear tokens →
      (c.credentials.active = some pair ∨ c.credentials.installed = some pair) →
      Rotated c.history.rotations tokens pair) := by
  obtain ⟨hsound, hinv, -⟩ := invariant_along
    (I := fun c => c.LogoutSound ∧ c.credentials.Inv ∧ c.WorkSound)
    (fun s a t H hr h => ⟨ApiClient.logoutSound_step H.1 H.2.1 H.2.2 hr h,
      ApiClient.credentialsInv_step H.2.1 h, ApiClient.workSound_step H.2.2 h⟩)
    ⟨ApiClient.logoutSound_new persisted, CredentialState.inv_init persisted,
      ApiClient.workSound_new persisted⟩ hrespects hrun
  refine ⟨hsound.cleared, ?_⟩
  intro i tokens pair hp hpair
  have hactive : c.credentials.active = some pair := by
    rcases hpair with hactive | hinstalled
    · exact hactive
    · exact (hinv.installed pair hinstalled).2
  exact (hsound.held i tokens (.inr (.inr hp))).rotated (.inl hp) pair hactive

/-- A test for `ApiClient.RespectsLogins` when one task logs out. -/
def ApiClient.checkLogins {Response : Type} (c : ApiClient) : ClientAction Response → Bool
  | .respond i (.logout (.ok ())) => decide (c.history.logins = c.history.readLogins i)
  | .credential b =>
      match c.credentials.tasks.pc b.task with
      | .setWrite _ => false
      | _ => true
  | _ => true

theorem ApiClient.respectsLogins_of_check {Response : Type} {c : ApiClient}
    {a : ClientAction Response} (h : c.checkLogins a = true) : c.RespectsLogins a := by
  constructor
  · rintro i rfl
    simpa [checkLogins] using h
  · rintro b j tokens sent rfl hq
    simp [checkLogins, hq] at h

/-- A logout that the server accepts. -/
def logoutSchedule : List (ClientAction (Except HttpError RefreshResponse)) :=
  [.respond 0 (.logout (.ok ())), .credential (.advance 0), .credential (.store 0 .success),
    .credential (.advance 0)]

/-- A logout whose pair was rotated while its request was on the network. -/
theorem logout_removes_its_session_rotated :
    ∃ c, exec (ApiClient.step sampleClientEnv) (.withTransport (some (.sample "old")))
        ([ClientAction.call 0 .logout] ++ loading 0 true ++
          [ClientAction.resume 0, .call 1 .refresh, .resume 1] ++ loading 1 false ++
          rotating 1 "new" ++ logoutSchedule) = some c ∧
      c.history.cleared.map (fun e => (e.sent, e.removed)) =
        [(.sample "old", some (.sample "new"))] ∧
      ∀ e ∈ c.history.cleared, ∀ pair, e.removed = some pair →
        Rotated e.rotations e.sent pair := by
  have hrun : (exec (ApiClient.step sampleClientEnv) (.withTransport (some (.sample "old")))
      ([ClientAction.call 0 .logout] ++ loading 0 true ++
        [ClientAction.resume 0, .call 1 .refresh, .resume 1] ++ loading 1 false ++
        rotating 1 "new" ++ logoutSchedule)).any (fun c =>
          decide (c.history.cleared.map (fun e => (e.sent, e.removed)) =
            [(.sample "old", some (.sample "new"))])) = true := by
    decide +kernel
  obtain ⟨c, hc, h⟩ := (Option.any_eq_true _ _).mp hrun
  refine ⟨c, hc, by simpa using h, (logout_removes_its_session _ _ _ c ?_ hc).1⟩
  exact along_of_check (fun _ _ => ApiClient.respectsLogins_of_check) (by decide +kernel)

/-- A pair that is set while the request of a logout is on the network is removed. -/
theorem logout_removes_newer_login :
    ∃ c, exec (ApiClient.step sampleClientEnv) (.withTransport (some (.sample "old")))
        ([ClientAction.call 0 .logout] ++ loading 0 true ++
          [ClientAction.resume 0, .call 1 (.setTokens (.sample "new")), .credential (.advance 1),
            .credential (.store 1 .success), .credential (.advance 1), .resume 1] ++
          logoutSchedule) = some c ∧
      c.credentials.active = none ∧ c.credentials.persisted = none ∧
      ∃ e ∈ c.history.cleared, e.removed = some (.sample "new") ∧
        ¬ Rotated e.rotations e.sent (.sample "new") := by
  have hrun : (exec (ApiClient.step sampleClientEnv) (.withTransport (some (.sample "old")))
      ([ClientAction.call 0 .logout] ++ loading 0 true ++
        [ClientAction.resume 0, .call 1 (.setTokens (.sample "new")), .credential (.advance 1),
          .credential (.store 1 .success), .credential (.advance 1), .resume 1] ++
        logoutSchedule)).any (fun c => decide (c.credentials.active = none) &&
          decide (c.credentials.persisted = none) &&
          decide (c.history.cleared.map (fun e => (e.sent, e.removed, e.rotations)) =
            [(.sample "old", some (.sample "new"), [])])) = true := by
    decide +kernel
  obtain ⟨c, hc, h⟩ := (Option.any_eq_true _ _).mp hrun
  simp only [Bool.and_eq_true, decide_eq_true_eq] at h
  obtain ⟨⟨hactive, hpersisted⟩, hcleared⟩ := h
  refine ⟨c, hc, hactive, hpersisted, ?_⟩
  have hmem : (TokenPair.sample "old", some (TokenPair.sample "new"), []) ∈
      c.history.cleared.map (fun e => (e.sent, e.removed, e.rotations)) := by
    rw [hcleared]
    exact List.mem_cons_self
  obtain ⟨e, he, heq⟩ := List.mem_map.mp hmem
  simp only [Prod.mk.injEq] at heq
  obtain ⟨hsent, hremoved, hrotations⟩ := heq
  refine ⟨e, he, hremoved, ?_⟩
  rw [hsent, hrotations]
  intro hrotated
  rcases Relation.ReflTransGen.cases_tail hrotated with heq | ⟨q, -, hq⟩
  · exact absurd heq (by decide)
  · cases hq

end ZephyrVox.Http
