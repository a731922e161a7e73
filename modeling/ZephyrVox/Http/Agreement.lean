import ZephyrVox.Http.Client

/-!
# Memory and store agree

Two copies of the token pair, one in memory and one in the credential store, are
written one after the other under the credential gate. Without cancellation, and
with store calls that change nothing when they fail, they differ only while a task
is between its store call and its write of the pair in memory. An operation that
reports an error of the store has changed neither copy, but the load that a refresh
begins with may have made the stored pair active before it failed.

## Main definitions

* `CredentialAction.Faithful`, `ClientAction.Faithful` — no cancellation, and a store
  call that fails leaves the content in place.
* `CredentialState.Agrees` — the invariant of the two copies.
* `CredentialPc.Committed` — the counters after an operation changed a copy.
* `ApiClient.memory_and_store_agree` — both results, for whole runs of the client.
-/

namespace ZephyrVox.Http

open Transition Gate

/-- A step that cancels nothing, and whose store call changes nothing if it fails. -/
def CredentialAction.Faithful {Response : Type} (c : CredentialState) :
    CredentialAction Response → Prop
  | .store _ (.failure _ content) => content = c.persisted
  | .cancel _ _ => False
  | _ => True

instance CredentialAction.decidableFaithful {Response : Type} (c : CredentialState) :
    (a : CredentialAction Response) → Decidable (a.Faithful c)
  | .store _ (.failure _ content) => inferInstanceAs (Decidable (content = c.persisted))
  | .cancel _ _ => .isFalse id
  | .store _ .success | .start _ _ | .advance _ | .respond _ _ => .isTrue trivial

/-- A step of a client under the same conditions. -/
def ClientAction.Faithful {Response : Type} (c : ApiClient) : ClientAction Response → Prop
  | .credential a => a.Faithful c.credentials
  | .cancel _ _ => False
  | _ => True

instance ClientAction.decidableFaithful {Response : Type} (c : ApiClient) :
    (a : ClientAction Response) → Decidable (a.Faithful c)
  | .credential a => inferInstanceAs (Decidable (a.Faithful c.credentials))
  | .cancel _ _ => .isFalse id
  | .call _ _ | .resume _ | .respond _ _ => .isTrue trivial

theorem CredentialPc.Writes.holds {pc : CredentialPc} (h : pc.Writes) : pc.Holds := by
  cases pc <;> trivial

namespace CredentialState

variable {Response : Type} {env : RefreshEnv Response} {c c' : CredentialState} {i : ℕ}
  {a : CredentialAction Response}

/-- Once loaded, memory holds the stored pair, unless a task has yet to write it. -/
def Agrees (c : CredentialState) : Prop :=
  c.loaded = true → (∀ i, ¬ (c.tasks.pc i).Writes) → c.active = c.persisted

theorem agrees_init (persisted : Option TokenPair) : (init persisted).Agrees :=
  fun h => by cases h

/-- The task that wrote memory left the stored pair in it. -/
theorem Inv.advance_writes (H : c.Inv) (hwrites : (c.tasks.pc i).Writes)
    (h : c.advance env i = some c') : c'.active = c'.persisted := by
  have hrelies := H.relies i
  unfold CredentialState.advance at h
  cases hpc : c.tasks.pc i with
  | setWrite tokens =>
      simp only [hpc, Option.some.injEq] at h hrelies
      subst h
      exact hrelies.symm
  | clearWrite =>
      simp only [hpc, Option.some.injEq] at h hrelies
      subst h
      exact hrelies.symm
  | loadWrite refresh tokens =>
      simp only [hpc, Option.some.injEq] at h hrelies
      subst h
      exact hrelies.2
  | expireWrite current =>
      simp only [hpc, Option.some.injEq] at h hrelies
      subst h
      exact hrelies.2.symm
  | replaceWrite current replacement =>
      simp only [hpc, Option.some.injEq] at h hrelies
      subst h
      exact hrelies.2.symm
  | _ => exact absurd hwrites (by rw [hpc]; exact id)

/-- Only a counter that writes memory marks the credentials loaded. -/
theorem advance_loaded (h : c.advance env i = some c') (hwrites : ¬ (c.tasks.pc i).Writes) :
    c'.loaded = c.loaded := by
  unfold advance at h
  cases hpc : c.tasks.pc i with
  | setWrite _ | clearWrite | loadWrite _ _ | expireWrite _ | replaceWrite _ _ =>
      exact absurd (by rw [hpc]; trivial) hwrites
  | setGate _ | clearGate | loadGate _ | supersedeGate _ _ | expireGate _ | replaceGate _ _ =>
      rw [hpc] at h
      obtain ⟨tasks, -, rfl⟩ := Option.map_eq_some_iff.mp h
      rfl
  | expireRead _ | replaceRead _ _ =>
      simp only [hpc] at h
      split at h <;> cases h <;> rfl
  | loadRead _ | supersedeRead _ _ =>
      simp only [hpc, Option.some.injEq] at h
      subst h
      rfl
  | _ => simp [hpc] at h

/-- A faithful store call changes the store only on the way to a counter that writes
memory. -/
theorem storeReturns_faithful {outcome : StoreOutcome}
    (hfaithful : (CredentialAction.store i outcome : CredentialAction Response).Faithful c)
    (h : c.storeReturns i outcome = some c') :
    (c'.tasks.pc i).Writes ∨ (c'.persisted = c.persisted ∧ c'.loaded = c.loaded) := by
  unfold storeReturns at h
  cases outcome with
  | success =>
      cases hpc : c.tasks.pc i <;> simp only [hpc, reduceCtorEq, Option.some.injEq] at h <;>
        (subst h; exact .inl (by simp [written, CredentialPc.Writes]))
  | failure error content =>
      have hcontent : content = c.persisted := hfaithful
      cases hpc : c.tasks.pc i <;> simp only [hpc, reduceCtorEq, Option.some.injEq] at h <;>
        (subst h; exact .inr ⟨by first | rfl | exact hcontent, rfl⟩)

/-- **What a step does to the two copies**: a counter that writes memory leaves them
equal, a store call may stop at such a counter, and every other step changes neither. -/
theorem Inv.step_copies (H : c.Inv) (hfaithful : a.Faithful c) (h : c.step env a = some c') :
    ((c.tasks.pc a.task).Writes ∧ c'.active = c'.persisted) ∨ (c'.tasks.pc a.task).Writes ∨
      (¬ (c.tasks.pc a.task).Writes ∧ c'.active = c.active ∧ c'.persisted = c.persisted ∧
        c'.loaded = c.loaded) := by
  cases a with
  | start j op =>
      simp only [CredentialState.step] at h
      cases hpc : c.tasks.pc j <;> simp only [hpc, reduceCtorEq, Option.some.injEq] at h <;>
        (subst h; exact .inr (.inr ⟨by rw [CredentialAction.task, hpc]; exact id, rfl, rfl, rfl⟩))
  | advance j =>
      by_cases hwrites : (c.tasks.pc j).Writes
      · exact .inl ⟨hwrites, H.advance_writes hwrites h⟩
      · have hactive := (advance_active h).resolve_right hwrites
        exact .inr (.inr ⟨hwrites, hactive, advance_persisted h, advance_loaded h hwrites⟩)
  | store j outcome =>
      rcases storeReturns_faithful hfaithful h with hnext | ⟨hpersisted, hloaded⟩
      · exact .inr (.inl hnext)
      · refine .inr (.inr ⟨?_, storeReturns_active h, hpersisted, hloaded⟩)
        simp only [CredentialState.step, CredentialState.storeReturns] at h
        intro hwrites
        cases hpc : c.tasks.pc j <;> simp [hpc] at h <;>
          simp [CredentialAction.task, hpc, CredentialPc.Writes] at hwrites
  | respond j response =>
      simp only [CredentialState.step] at h
      cases hpc : c.tasks.pc j <;> simp only [hpc, reduceCtorEq, Option.some.injEq] at h
      subst h
      exact .inr (.inr ⟨by rw [CredentialAction.task, hpc]; exact id, rfl, rfl, rfl⟩)
  | cancel j content => exact absurd hfaithful id

/-- The two copies agree after every faithful step. -/
theorem Agrees.step (hagrees : c.Agrees) (H : c.Inv) (hfaithful : a.Faithful c)
    (h : c.step env a = some c') : c'.Agrees := by
  intro hloaded hquiet
  rcases H.step_copies hfaithful h with ⟨-, hequal⟩ | hnext | ⟨hwrites, hactive, hpersisted, hl⟩
  · exact hequal
  · exact absurd hnext (hquiet a.task)
  · rw [hactive, hpersisted]
    refine hagrees (hl ▸ hloaded) fun j => ?_
    by_cases hj : j = a.task
    · rw [hj]
      exact hwrites
    · rw [← pc_step_of_ne hj h]
      exact hquiet j

/-- Starting an operation changes neither copy. -/
theorem start_copies {op : CredentialOp} (h : c.step env (.start i op) = some c') :
    c'.active = c.active ∧ c'.persisted = c.persisted := by
  refine ⟨active_start h, (step_persisted h).resolve_right fun hstores => ?_⟩
  have hrest := resting_of_start h
  simp only [CredentialAction.task] at hstores
  cases hpc : c.tasks.pc i <;> simp_all [CredentialPc.resting, CredentialPc.Stores]

end CredentialState

/-! ## Operations that report an error of the store -/

/-- A result that reports an error of the credential store. -/
def IsCredential {α : Type} (result : Except HttpError α) : Prop :=
  ∃ e, result = .error (.credential e)

theorem isCredential_map {α β : Type} {f : α → β} {result : Except HttpError α} :
    IsCredential (result.map f) ↔ IsCredential result := by
  cases result <;> simp [IsCredential, Except.map]

/-- The counters after an operation changed one of the two copies, up to its result. -/
def CredentialPc.Committed : CredentialPc → Prop
  | .setWrite _ | .clearWrite | .loadRead false | .expireWrite _ | .replaceWrite _ _ => True
  | .finished result => ¬ IsCredential result
  | _ => False

/-- The first load: it makes the stored pair active. -/
structure CredentialState.FirstLoad (c c' : CredentialState) : Prop where
  unloaded : c.loaded = false
  inactive : c.active = none
  active : c'.active = c.persisted
  persisted : c'.persisted = c.persisted

namespace CredentialState

variable {Response : Type} {env : RefreshEnv Response} {c c' : CredentialState} {i : ℕ}
  {a : CredentialAction Response}

@[simp] theorem pc_written_success (content : Option TokenPair) (pc : CredentialPc) :
    (c.written i content pc .success).tasks.pc i = pc := pc_goto _

/-- What was committed is not taken back with an error of the store. -/
theorem committed_step (hinner : a.inner = true) (hcommitted : (c.tasks.pc a.task).Committed)
    (h : c.step env a = some c') : (c'.tasks.pc a.task).Committed := by
  cases a with
  | start j op => cases hinner
  | cancel j content => cases hinner
  | advance j =>
      simp only [CredentialState.step, CredentialState.advance] at h
      simp only [CredentialAction.task] at hcommitted ⊢
      cases hpc : c.tasks.pc j with
      | setWrite _ | clearWrite | expireWrite _ | replaceWrite _ _ =>
          simp only [hpc, Option.some.injEq] at h
          subst h
          simp [CredentialPc.Committed, IsCredential]
      | loadRead refresh =>
          cases refresh with
          | true => simp [hpc, CredentialPc.Committed] at hcommitted
          | false =>
              simp only [hpc, Option.some.injEq] at h
              subst h
              simp [afterLoad, CredentialPc.Committed, IsCredential]
      | finished result => simp [hpc] at h
      | _ => simp [hpc, CredentialPc.Committed] at hcommitted
  | store j outcome =>
      simp only [CredentialState.step, CredentialState.storeReturns] at h
      simp only [CredentialAction.task] at hcommitted
      cases hpc : c.tasks.pc j <;> simp [hpc] at h <;>
        simp [hpc, CredentialPc.Committed] at hcommitted
  | respond j response =>
      simp only [CredentialState.step] at h
      simp only [CredentialAction.task] at hcommitted
      cases hpc : c.tasks.pc j <;> simp [hpc] at h
      simp [hpc, CredentialPc.Committed] at hcommitted

/-- A faithful step changes neither copy, or commits its operation, or is the first
load of a refresh. -/
theorem Inv.step_commits (H : c.Inv) (hfaithful : a.Faithful c) (hinner : a.inner = true)
    (h : c.step env a = some c') :
    (c'.active = c.active ∧ c'.persisted = c.persisted) ∨ (c'.tasks.pc a.task).Committed ∨
      ((c.tasks.pc a.task).ofRefresh = true ∧ c.FirstLoad c') := by
  have hrelies := H.relies a.task
  cases a with
  | start j op => cases hinner
  | cancel j content => cases hinner
  | advance j =>
      by_cases hwrites : (c.tasks.pc j).Writes
      · have hequal := H.advance_writes hwrites h
        have hpersisted := advance_persisted h
        simp only [CredentialState.step, CredentialState.advance] at h
        simp only [CredentialAction.task] at hrelies ⊢
        cases hpc : c.tasks.pc j with
        | setWrite _ | clearWrite | expireWrite _ | replaceWrite _ _ =>
            simp only [hpc, Option.some.injEq] at h
            subst h
            exact .inr (.inl (by simp [CredentialPc.Committed, IsCredential]))
        | loadWrite refresh tokens =>
            simp only [hpc] at hrelies
            cases refresh with
            | true =>
                exact .inr (.inr ⟨rfl, hrelies.1, H.unloaded hrelies.1, hequal.trans hpersisted,
                  hpersisted⟩)
            | false =>
                simp only [hpc, Option.some.injEq] at h
                subst h
                exact .inr (.inl (by simp [CredentialPc.Committed]))
        | _ => exact absurd hwrites (by rw [hpc]; exact id)
      · exact .inl ⟨(advance_active h).resolve_right hwrites, advance_persisted h⟩
  | store j outcome =>
      have hactive := storeReturns_active h
      simp only [CredentialState.step, CredentialState.storeReturns] at h
      simp only [CredentialAction.task]
      cases outcome with
      | success =>
          cases hpc : c.tasks.pc j <;> simp only [hpc, reduceCtorEq, Option.some.injEq] at h
          case loadStore refresh =>
            subst h
            exact .inl ⟨rfl, rfl⟩
          all_goals
            subst h
            exact .inr (.inl (by simp [CredentialPc.Committed]))
      | failure error content =>
          have hcontent : content = c.persisted := hfaithful
          refine .inl ⟨hactive, ?_⟩
          cases hpc : c.tasks.pc j <;> simp only [hpc, reduceCtorEq, Option.some.injEq] at h <;>
            (subst h; first | rfl | exact hcontent)
  | respond j response =>
      simp only [CredentialState.step] at h
      cases hpc : c.tasks.pc j <;> simp only [hpc, reduceCtorEq, Option.some.injEq] at h
      subst h
      exact .inl ⟨rfl, rfl⟩

end CredentialState

/-- The operations that do nothing but read or change the credentials. -/
def ClientOp.isCredential : ClientOp → Bool
  | .setTokens _ | .clearTokens | .loadCredentials | .refresh => true
  | .login | .request _ | .logout => false

/-- The counters of a call of such an operation, up to its return. -/
def ClientPc.Runs (op : ClientOp) : ClientPc → Prop
  | .credential => op ≠ .refresh
  | .refreshGate .refresh | .leading .refresh _ | .recording .refresh _ _ | .waking .refresh _ _
  | .leaving .refresh _ _ | .joined .refresh _ | .checking .refresh _ _ | .peeking .refresh _ _
  | .waiting .refresh _ _ | .collecting .refresh _ => op = .refresh
  | .returned _ => True
  | _ => False

/-- The counters of a call whose operation changed one of the two copies. -/
def ClientPc.Committed (q : CredentialPc) : ClientPc → Prop
  | .credential | .leading .refresh _ => q.Committed
  | .recording .refresh _ result | .waking .refresh _ result | .leaving .refresh _ result =>
      ¬ IsCredential result
  | .returned result => ¬ IsCredential result
  | _ => False

namespace ApiClient

variable {Response : Type} {env : ClientEnv Response} {c c' : ApiClient} {i : ℕ}
  {a : ClientAction Response} {op : ClientOp}

/-- The two copies of a client agree after every faithful step. -/
theorem agrees_step (hagrees : c.credentials.Agrees) (H : c.credentials.Inv)
    (hfaithful : a.Faithful c) (h : c.step env a = some c') : c'.credentials.Agrees := by
  cases step_work h with
  | inner b ha hb hworking hpc hstep hhistory =>
      subst ha
      exact hagrees.step H hfaithful hstep
  | leads k f ha hp hpc hstep hrecorded =>
      exact hagrees.step H (a := .start a.task .refreshOnce) trivial hstep
  | begins op p hop hload hpc hp hworking hstep hfollows hrecorded =>
      exact hagrees.step H (a := .start a.task op) trivial hstep
  | goes p hpc hp hcredentials hfollows hrecorded =>
      rw [hcredentials]
      exact hagrees
  | cancels content p ha hpc hp hcredentials hrecorded =>
      rw [ha] at hfaithful
      exact absurd hfaithful id

/-- Starting one of the operations. -/
theorem runs_call (hop : op.isCredential = true) (h : c.step env (.call i op) = some c') :
    (c'.pc i).Runs op ∧ c'.credentials.active = c.credentials.active ∧
      c'.credentials.persisted = c.credentials.persisted := by
  have hcall : c.call env i op = some c' := by
    simp only [step] at h
    split at h
    · exact h
    · exact h
    · cases h
  unfold call at hcall
  cases op with
  | setTokens _ | clearTokens | loadCredentials =>
      obtain ⟨hstep, heq⟩ := begin_eq_some hcall
      refine ⟨?_, CredentialState.start_copies hstep⟩
      rw [begin_pc hcall, Function.update_self]
      simp [ClientPc.Runs]
  | refresh =>
      cases hcall
      exact ⟨by simp [goto, ClientPc.Runs], rfl, rfl⟩
  | login | request _ | logout => cases hop

@[simp] theorem pc_goto (d : ApiClient) (p : ClientPc) : (d.goto i p).pc i = p := by
  simp [goto]

/-- `refresh_access` returns its result to the caller of `AuthApi::refresh`. -/
theorem afterRefresh_refresh {d : ApiClient} {result : Except HttpError TokenPair}
    (h : d.afterRefresh env i .refresh result = some c') :
    c' = d.goto i (.returned (result.map fun tokens => .tokens (some tokens))) := by
  simpa [afterRefresh] using h.symm

/-- A follower that returns, returns to `AuthApi::refresh`. -/
theorem runs_resumeFollower {p : ClientPc} {f : ℕ} (hruns : p.Runs op)
    (h : ((c.flights[f]?).bind fun flight => c.resumeFollower env i flight p) = some c') :
    (c'.pc i).Runs op := by
  obtain ⟨flight, -, hfollower⟩ := Option.bind_eq_some_iff.mp h
  clear h
  have follows {k : RefreshCaller} {g : ℕ} {result : Except HttpError TokenPair}
      (hk : k = .refresh) (h : c.follow env i k g result = some c') : (c'.pc i).Runs op := by
    subst hk
    rw [afterRefresh_refresh h]
    simp [ClientPc.Runs]
  unfold resumeFollower at hfollower
  split at hfollower
  case h_1 k g =>
    cases k <;> simp only [ClientPc.Runs] at hruns
    cases hfollower
    simp [ClientPc.Runs, hruns]
  case h_2 k g seen =>
    cases k <;> simp only [ClientPc.Runs] at hruns
    split at hfollower
    · exact follows rfl hfollower
    · cases hfollower
      simp [ClientPc.Runs, hruns]
  case h_3 k g seen =>
    cases k <;> simp only [ClientPc.Runs] at hruns
    split at hfollower
    · exact follows rfl hfollower
    · cases hfollower
      simp [ClientPc.Runs, hruns]
  case h_4 k g seen =>
    cases k <;> simp only [ClientPc.Runs] at hruns
    split at hfollower
    · cases hfollower
      simp [ClientPc.Runs, hruns]
    · cases hfollower
  case h_5 k g =>
    cases k <;> simp only [ClientPc.Runs] at hruns
    exact follows rfl hfollower
  case h_6 => cases hfollower

/-- A call goes on among the counters of its operation, and carries what it committed
to its result. -/
theorem runs_resume (hruns : (c.pc i).Runs op) (h : c.resume env i = some c') :
    (c'.pc i).Runs op ∧ ((c.pc i).Committed (c.credentials.tasks.pc i) →
      (c'.pc i).Committed (c'.credentials.tasks.pc i)) := by
  unfold resume at h
  cases hp : c.pc i with
  | refreshGate k =>
      cases k <;> simp only [hp, ClientPc.Runs] at hruns
      simp only [hp, enterFlight] at h
      refine ⟨?_, by simp [ClientPc.Committed]⟩
      have leads (h : c.lead env i .refresh = some c') : (c'.pc i).Runs op := by
        rw [begin_pc h, Function.update_self]
        exact hruns
      split at h
      · exact leads h
      · split at h
        · cases h
        · split at h
          · exact leads h
          · cases h
            simpa [ClientPc.Runs] using hruns
  | recording k f result =>
      cases k <;> simp only [hp, ClientPc.Runs] at hruns
      simp only [hp, Option.some.injEq] at h
      subst h
      simpa [ClientPc.Runs, ClientPc.Committed] using hruns
  | waking k f result =>
      cases k <;> simp only [hp, ClientPc.Runs] at hruns
      simp only [hp, Option.some.injEq] at h
      subst h
      simpa [ClientPc.Runs, ClientPc.Committed] using hruns
  | leaving k f result =>
      cases k <;> simp only [hp, ClientPc.Runs] at hruns
      simp only [hp] at h
      rw [afterRefresh_refresh h]
      simp [ClientPc.Runs, ClientPc.Committed, isCredential_map]
  | joined k f | checking k f seen | peeking k f seen | waiting k f seen | collecting k f =>
      rw [hp] at hruns
      simp only [hp] at h
      exact ⟨runs_resumeFollower hruns h, by simp [ClientPc.Committed]⟩
  | credential =>
      rw [hp] at hruns
      simp only [hp] at h
      split at h
      case h_1 result hresult =>
        simp only [afterCredential, Option.some.injEq] at h
        subst h
        simp [ClientPc.Runs, ClientPc.Committed, hresult, CredentialPc.Committed,
          isCredential_map]
      · cases h
  | leading k f =>
      cases k <;> simp only [hp, ClientPc.Runs] at hruns
      simp only [hp] at h
      split at h
      case h_1 result hresult =>
        rcases result with e | (- | tokens)
        · simp only [afterCredential, Option.some.injEq] at h
          subst h
          simp [produce, ClientPc.Runs, ClientPc.Committed, hresult, CredentialPc.Committed,
            IsCredential, hruns]
        · cases h
        · simp only [afterCredential, Option.some.injEq] at h
          subst h
          simp [produce, ClientPc.Runs, ClientPc.Committed, IsCredential, hruns]
      · cases h
  | returned result =>
      simp only [hp] at h
      split at h
      · cases h
      · cases h
  | _ => rw [hp] at hruns; exact absurd hruns id

/-- What a call committed depends on its credential operation only while it waits for
that. -/
theorem committed_mono {p : ClientPc} {q q' : CredentialPc} (hq : q.Committed → q'.Committed)
    (h : p.Committed q) : p.Committed q' := by
  cases p with
  | credential => exact hq h
  | leading k f =>
      cases k with
      | refresh => exact hq h
      | request sent => exact h
  | recording k f result | waking k f result | leaving k f result =>
      cases k <;> exact h
  | returned result => exact h
  | _ => exact h

/-- One step of anyone, while a call runs. -/
theorem runs_step (hfaithful : a.Faithful c) (hcall : ∀ op', a ≠ .call i op')
    (hruns : (c.pc i).Runs op) (h : c.step env a = some c') :
    (c'.pc i).Runs op ∧ ((c.pc i).Committed (c.credentials.tasks.pc i) →
      (c'.pc i).Committed (c'.credentials.tasks.pc i)) := by
  by_cases hi : i = a.task
  swap
  · rw [pc_step_of_ne hi h, credentialPc_step_of_ne hi h]
    exact ⟨hruns, id⟩
  subst hi
  cases a with
  | call j op' => exact absurd rfl (hcall op')
  | resume j => exact runs_resume hruns h
  | respond j reply =>
      -- at these counters the call awaits no reply
      have hreply : c.replied env j (c.pc j) reply = some c' := h
      simp only [ClientAction.task] at hruns
      revert hruns hreply
      cases c.pc j <;> intro hruns hreply <;>
        first | exact absurd hruns id | (cases reply <;> simp [replied] at hreply)
  | cancel j content => exact absurd hfaithful id
  | credential b =>
      obtain ⟨hinner, -, hpc, hstep, -⟩ := credential_step h
      rw [hpc]
      exact ⟨hruns, committed_mono fun hq => CredentialState.committed_step hinner hq hstep⟩

/-- A faithful step of a running call changes neither copy, or commits the call, or is
the first load of a refresh. -/
theorem runs_step_commits (I : c.credentials.Inv) (W : c.WorkSound) (hfaithful : a.Faithful c)
    (hruns : (c.pc a.task).Runs op) (h : c.step env a = some c') :
    (c'.credentials.active = c.credentials.active ∧
        c'.credentials.persisted = c.credentials.persisted) ∨
      (op = .refresh ∧ c.credentials.FirstLoad c'.credentials) ∨
      (c'.pc a.task).Committed (c'.credentials.tasks.pc a.task) := by
  cases step_work h with
  | inner b ha hb hworking hpc hstep hhistory =>
      subst ha
      rw [hpc]
      simp only [ClientAction.task] at hruns hworking ⊢
      have hwaits : c.pc b.task = .credential ∨
          ∃ f, c.pc b.task = .leading .refresh f ∧ op = .refresh := by
        revert hruns hworking
        cases c.pc b.task with
        | credential => exact fun _ _ => .inl rfl
        | leading k f =>
            cases k with
            | refresh => exact fun hop _ => .inr ⟨f, rfl, hop⟩
            | request sent => exact fun hop _ => absurd hop id
        | _ => simp [ClientPc.Runs, ClientPc.working]
      rcases I.step_commits hfaithful hb hstep with hsame | hcommitted | ⟨hload, hfirst⟩
      · exact .inl hsame
      · rcases hwaits with hp | ⟨f, hp, -⟩
        · exact .inr (.inr (by rw [hp]; exact hcommitted))
        · exact .inr (.inr (by rw [hp]; exact hcommitted))
      · -- only a leader's load belongs to a refresh
        rcases hwaits with hp | ⟨f, -, hop⟩
        · have hrefreshes := W.refreshing _ hload
          rw [hp] at hrefreshes
          cases hrefreshes
        · exact .inr (.inl ⟨hop, hfirst⟩)
  | leads k f ha hp hpc hstep hrecorded => exact .inl (CredentialState.start_copies hstep)
  | begins op' p hop hload hpc hp hworking hstep hfollows hrecorded =>
      exact .inl (CredentialState.start_copies hstep)
  | goes p hpc hp hcredentials hfollows hrecorded => exact .inl (by simp [hcredentials])
  | cancels content p ha hpc hp hcredentials hrecorded =>
      rw [ha] at hfaithful
      exact absurd hfaithful id

/-- A call keeps running, and what it committed stays committed, over any faithful run
that does not start it anew. -/
theorem runs_exec {actions : List (ClientAction Response)}
    (hfaithful : Along (ApiClient.step env) (fun c a => a.Faithful c) c actions)
    (hcall : ∀ b ∈ actions, ∀ op', b ≠ .call i op') (hruns : (c.pc i).Runs op)
    (h : exec (ApiClient.step env) c actions = some c') :
    (c'.pc i).Runs op ∧ ((c.pc i).Committed (c.credentials.tasks.pc i) →
      (c'.pc i).Committed (c'.credentials.tasks.pc i)) := by
  refine invariant_along (I := fun d : ApiClient => (d.pc i).Runs op ∧
      ((c.pc i).Committed (c.credentials.tasks.pc i) →
        (d.pc i).Committed (d.credentials.tasks.pc i)))
    (fun d a d' hd hP hstep => ?_) ⟨hruns, id⟩ (hfaithful.and_forall hcall) h
  obtain ⟨hnext, hkeeps⟩ := runs_step hP.1 hP.2 hd.1 hstep
  exact ⟨hnext, fun hstart => hkeeps (hd.2 hstart)⟩

/-- **Memory and store agree.** In every faithful run of a client, from any content of
the store: whenever no task holds the credential gate and the credentials are loaded,
memory holds the stored pair; and every step of a call of `set_tokens`, `clear_tokens`,
`load_credentials` or `refresh_access` that returns an error of the store changed
neither copy, but for the first load of a refresh, which made the stored pair active. -/
theorem memory_and_store_agree (env : ClientEnv Response) (persisted : Option TokenPair)
    (actions : List (ClientAction Response)) (c : ApiClient)
    (hfaithful : Along (ApiClient.step env) (fun c a => a.Faithful c) (withTransport persisted)
      actions)
    (hrun : exec (ApiClient.step env) (withTransport persisted) actions = some c) :
    (c.credentials.tasks.holder = none → c.credentials.loaded = true →
      c.credentials.active = c.credentials.persisted) ∧
    (∀ before i op after, actions = before ++ .call i op :: after → op.isCredential = true →
      (∀ b ∈ after, ∀ op', b ≠ .call i op') →
      ∀ e, c.pc i = .returned (.error (.credential e)) →
      ∀ first a rest, .call i op :: after = first ++ a :: rest → a.task = i →
      ∀ d d', exec (ApiClient.step env) (withTransport persisted) (before ++ first) = some d →
        d.step env a = some d' →
        (d'.credentials.active = d.credentials.active ∧
            d'.credentials.persisted = d.credentials.persisted) ∨
          (op = .refresh ∧ d.credentials.FirstLoad d'.credentials)) := by
  have hreachable : ∀ done c', exec (ApiClient.step env) (withTransport persisted) done = some c' →
      c'.credentials.Inv ∧ c'.WorkSound := fun done c' h =>
    invariant (I := fun d : ApiClient => d.credentials.Inv ∧ d.WorkSound)
      (fun _ _ _ H hstep => ⟨credentialsInv_step H.1 hstep, workSound_step H.2 hstep⟩)
      ⟨CredentialState.inv_init persisted, workSound_new persisted⟩ h
  constructor
  · intro hfree hloaded
    have hagrees : c.credentials.Inv ∧ c.credentials.Agrees := invariant_along
      (I := fun d : ApiClient => d.credentials.Inv ∧ d.credentials.Agrees)
      (fun _ _ _ H hP hstep => ⟨credentialsInv_step H.1 hstep, agrees_step H.2 H.1 hP hstep⟩)
      ⟨CredentialState.inv_init persisted, CredentialState.agrees_init persisted⟩ hfaithful hrun
    refine hagrees.2 hloaded fun i hwrites => ?_
    exact hagrees.1.exclusive.free hfree i hwrites.holds
  · intro before i op after hactions hop hafter e hreturned first a rest hsplit ha d d' hd hstep
    subst ha
    rcases first with - | ⟨b, first⟩
    · -- the step is the call itself
      simp only [List.nil_append, List.cons.injEq] at hsplit
      rw [← hsplit.1] at hstep
      exact .inl (runs_call hop hstep).2
    · simp only [List.cons_append, List.cons.injEq] at hsplit
      obtain ⟨rfl, rfl⟩ := hsplit
      subst hactions
      rw [exec_append] at hd hrun
      obtain ⟨c₀, hbefore, hd⟩ := Option.bind_eq_some_iff.mp hd
      obtain ⟨c₁, hcalled, hd⟩ := Option.bind_eq_some_iff.mp hd
      simp only [hbefore, Option.bind_some, exec_cons, hcalled] at hrun
      rw [exec_append, hd] at hrun
      simp only [Option.bind_some, exec_cons, hstep] at hrun
      have hcall := (hfaithful.after hbefore).2 c₁ hcalled
      have hrest := hcall.after hd
      have hruns := (runs_exec hcall.of_append
        (fun x hx => hafter x (List.mem_append_left _ hx)) (runs_call hop hcalled).1 hd).1
      have hreach := hreachable (before ++ .call a.task op :: first) d
        (by simp [exec_append, hbefore, hcalled, hd])
      rcases runs_step_commits hreach.1 hreach.2 hrest.1 hruns hstep with hsame | hfirst | hcommit
      · exact .inl hsame
      · exact .inr hfirst
      · -- a committed call does not return an error of the store
        have hnext := (runs_step hrest.1 (hafter a (by simp)) hruns hstep).1
        have hend := (runs_exec (hrest.2 d' hstep)
          (fun x hx => hafter x (by simp [hx])) hnext hrun).2 hcommit
        rw [hreturned] at hend
        exact absurd ⟨e, rfl⟩ hend

/-- The first call of a client refreshes: it loads the pair `old`, receives a rotated
pair, and cannot save it. -/
def refreshUnsaved : List (ClientAction (Except HttpError RefreshResponse)) :=
  [.call 0 .refresh, .resume 0] ++ loading 0 true ++
    [.credential (.respond 0 (.ok (.ok ⟨"access-new", "refresh-new", 1⟩))),
      .credential (.advance 0), .credential (.advance 0),
      .credential (.store 0 (.failure (.storage "disk") (some (.sample "old")))),
      .resume 0, .resume 0, .resume 0, .resume 0]

theorem refreshUnsaved_faithful :
    Along (ApiClient.step sampleClientEnv) (fun c a => a.Faithful c)
      (withTransport (some (.sample "old"))) refreshUnsaved := by
  have hcheck (c : ApiClient) (a : ClientAction (Except HttpError RefreshResponse)) :
      decide (a.Faithful c) = true → a.Faithful c := of_decide_eq_true
  exact along_of_check hcheck (by decide +kernel)

/-- The refresh returns an error of the store, and the pair in memory is not the one
from before the call. -/
theorem refreshUnsaved_activates :
    Along (ApiClient.step sampleClientEnv) (fun c a => a.Faithful c)
      (withTransport (some (.sample "old"))) refreshUnsaved ∧
    ∃ c, exec (ApiClient.step sampleClientEnv) (withTransport (some (.sample "old")))
        refreshUnsaved = some c ∧
      c.pc 0 = .returned (.error (.credential (.storage "disk"))) ∧
      (withTransport (some (.sample "old"))).credentials.active = none ∧
      c.credentials.active = some (.sample "old") :=
  ⟨refreshUnsaved_faithful, _, rfl, rfl, rfl, rfl⟩

/-- After the failed refresh, memory and store hold the pair `old`. -/
theorem memory_and_store_agree_refreshUnsaved :
    ∃ c, exec (ApiClient.step sampleClientEnv) (withTransport (some (.sample "old")))
        refreshUnsaved = some c ∧
      c.credentials.active = c.credentials.persisted := by
  refine ⟨_, rfl, ?_⟩
  exact (memory_and_store_agree sampleClientEnv (some (.sample "old")) refreshUnsaved _
    refreshUnsaved_faithful rfl).1 rfl rfl

end ApiClient

end ZephyrVox.Http
