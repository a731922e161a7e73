import ZephyrVox.Lib.Gate
import ZephyrVox.Lib.Transition
import ZephyrVox.Http.Credentials

/-!
# Concurrent credential updates

`set_tokens`, `clear_tokens`, `load_credentials` and `refresh_once` run as tasks
that interleave at their await points. One mutex, the credential gate, guards
the pair in memory and the calls of the credential store; a refresh gives it up
while its request is on the network, and commits afterwards only if the pair it
loaded is still the active one.

The credential store is the host's. A call that succeeds does what its contract
says; a failed save or clear, or one whose caller is cancelled, may leave any
content behind. Responses are arbitrary, and so is their decoding.

## Main definitions

* `CredentialPc` — the program counters of the four operations.
* `CredentialState` — store content, active pair, gate and tasks.
* `CredentialState.step` — one await-to-await step of a task.
* `MayReplace` — the operations entitled to replace or remove a pair.
-/

namespace ZephyrVox.Http

open Transition Gate

/-- The parts of a refresh outside this model: building the request and decoding
the response. -/
structure RefreshEnv (Response : Type) where
  jsonRequest : RefreshToken → Except HttpError Unit
  decodeJson : Response → Except HttpError RefreshResponse

/-- Where a task stands. A counter names what the task awaits: the gate, a call
of the store, or the lock of the active pair. -/
inductive CredentialPc
  | idle
  -- `set_tokens`
  | setGate (tokens : TokenPair)
  | setSave (tokens : TokenPair)
  | setWrite (tokens : TokenPair)
  -- `clear_tokens`
  | clearGate
  | clearStore
  | clearWrite
  -- `load_credentials`, alone or as the first part of a refresh
  | loadGate (refresh : Bool)
  | loadStore (refresh : Bool)
  | loadWrite (refresh : Bool) (tokens : Option TokenPair)
  | loadRead (refresh : Bool)
  -- `refresh_once` with the pair its load returned
  | send (current : TokenPair)
  | supersedeGate (current : TokenPair) (error : HttpError)
  | supersedeRead (current : TokenPair) (error : HttpError)
  | expireGate (current : TokenPair)
  | expireRead (current : TokenPair)
  | expireClear (current : TokenPair)
  | expireWrite (current : TokenPair)
  | replaceGate (current replacement : TokenPair)
  | replaceRead (current replacement : TokenPair)
  | replaceSave (current replacement : TokenPair)
  | replaceWrite (current replacement : TokenPair)
  | finished (result : Except HttpError (Option TokenPair))

/-- The operations a task can run. -/
inductive CredentialOp
  | setTokens (tokens : TokenPair)
  | clearTokens
  | loadCredentials
  | refreshOnce

/-- The counter an operation begins at: all of them take the gate first. -/
def CredentialOp.entry : CredentialOp → CredentialPc
  | .setTokens tokens => .setGate tokens
  | .clearTokens => .clearGate
  | .loadCredentials => .loadGate false
  | .refreshOnce => .loadGate true

/-- The counters between acquiring and releasing the credential gate. -/
def CredentialPc.Holds : CredentialPc → Prop
  | .setSave _ | .setWrite _ | .clearStore | .clearWrite | .loadStore _ | .loadWrite _ _
  | .loadRead _ | .supersedeRead _ _ | .expireRead _ | .expireClear _ | .expireWrite _
  | .replaceRead _ _ | .replaceSave _ _ | .replaceWrite _ _ => True
  | _ => False

/-- The shared credential state and the tasks working on it. -/
structure CredentialState where
  /-- The content of the credential store. -/
  persisted : Option TokenPair
  /-- The pair in memory, `token_state`. -/
  active : Option TokenPair
  /-- Whether `credentials_loaded` is set. -/
  loaded : Bool
  tasks : Tasks ℕ CredentialPc
  /-- The stored pair, while it is one that a completed `set_tokens` stored. -/
  installed : Option TokenPair

/-- How a call of the credential store ends. -/
inductive StoreOutcome
  | success
  /-- An error, and what it left in the store. -/
  | failure (error : CredentialStoreError) (content : Option TokenPair)

/-- What happens next, and to which task. -/
inductive CredentialAction (Response : Type)
  | start (task : ℕ) (op : CredentialOp)
  /-- The task passes a lock it awaits. -/
  | advance (task : ℕ)
  /-- The store call of the task ends. -/
  | store (task : ℕ) (outcome : StoreOutcome)
  /-- The refresh request of the task ends. -/
  | respond (task : ℕ) (response : Except HttpError Response)
  /-- The future of the task is dropped; an interrupted store call may have left
  anything behind. -/
  | cancel (task : ℕ) (content : Option TokenPair)

namespace CredentialAction

/-- The task that moves. -/
def task {Response : Type} : CredentialAction Response → ℕ
  | .start i _ | .advance i | .store i _ | .respond i _ | .cancel i _ => i

end CredentialAction

namespace CredentialState

variable {Response : Type}

/-- A new client on a store with some content. -/
def init (persisted : Option TokenPair) : CredentialState where
  persisted := persisted
  active := none
  loaded := false
  tasks := ⟨none, fun _ => .idle⟩
  installed := none

/-- The store content after a call. -/
def persist (c : CredentialState) (content : Option TokenPair) : CredentialState :=
  { c with
    persisted := content
    installed := if content = c.persisted then c.installed else none }

/-- Make a pair active and mark the credentials loaded. -/
def activate (c : CredentialState) (tokens : Option TokenPair) : CredentialState :=
  { c with active := tokens, loaded := true }

/-- Go on to another counter. -/
def goto (c : CredentialState) (i : ℕ) (pc : CredentialPc) : CredentialState :=
  { c with tasks := c.tasks.goto i pc }

/-- Take the gate, if it is free. -/
def acquire (c : CredentialState) (i : ℕ) (pc : CredentialPc) : Option CredentialState :=
  (c.tasks.acquire i pc).map fun tasks => { c with tasks := tasks }

/-- Release the gate and go on. -/
def release (c : CredentialState) (i : ℕ) (pc : CredentialPc) : CredentialState :=
  { c with tasks := c.tasks.release i pc }

/-- The counter after `load_credentials` returned: a refresh without credentials
fails, and one with credentials sends its request. -/
def afterLoad (env : RefreshEnv Response) (refresh : Bool) (tokens : Option TokenPair) :
    CredentialPc :=
  if refresh then
    match tokens with
    | none => .finished (.error .authenticationRequired)
    | some current =>
        match env.jsonRequest current.refreshToken with
        | .ok () => .send current
        | .error e => .finished (.error e)
  else .finished (.ok tokens)

/-- The counter after the refresh request ended. -/
def afterSend (env : RefreshEnv Response) (current : TokenPair) :
    Except HttpError Response → CredentialPc
  | .error error => .supersedeGate current error
  | .ok response =>
      match env.decodeJson response with
      | .error error =>
          if isUnauthorized error then .expireGate current else .supersedeGate current error
      | .ok data =>
          match TokenPair.fromExpiresIn data.accessToken data.refreshToken data.expiresIn with
          | .ok tokens => .replaceGate current tokens
          | .error error => .supersedeGate current (.credential error)

/-- `superseded_or_error`: another active pair wins over the error. -/
def supersededOrError (active : Option TokenPair) (expected : TokenPair) (error : HttpError) :
    Except HttpError (Option TokenPair) :=
  match active with
  | some tokens => if tokens ≠ expected then .ok (some tokens) else .error error
  | none => .error error

/-- Pass a lock. -/
def advance (env : RefreshEnv Response) (c : CredentialState) (i : ℕ) : Option CredentialState :=
  match c.tasks.pc i with
  | .setGate tokens => c.acquire i (.setSave tokens)
  | .setWrite tokens =>
      some ({ c.activate (some tokens) with installed := some tokens }.release i
        (.finished (.ok none)))
  | .clearGate => c.acquire i .clearStore
  | .clearWrite => some ((c.activate none).release i (.finished (.ok none)))
  | .loadGate refresh =>
      c.acquire i (if c.loaded then .loadRead refresh else .loadStore refresh)
  | .loadWrite refresh tokens => some ((c.activate tokens).goto i (.loadRead refresh))
  | .loadRead refresh => some (c.release i (afterLoad env refresh c.active))
  | .supersedeGate current error => c.acquire i (.supersedeRead current error)
  | .supersedeRead current error =>
      some (c.release i (.finished (supersededOrError c.active current error)))
  | .expireGate current => c.acquire i (.expireRead current)
  | .expireRead current =>
      if c.active ≠ some current then
        some (c.release i (.finished (match c.active with
          | some tokens => .ok (some tokens)
          | none => .error .authExpired)))
      else some (c.goto i (.expireClear current))
  | .expireWrite _ => some ((c.activate none).release i (.finished (.error .authExpired)))
  | .replaceGate current replacement => c.acquire i (.replaceRead current replacement)
  | .replaceRead current replacement =>
      if c.active ≠ some current then
        some (c.release i (.finished (match c.active with
          | some tokens => .ok (some tokens)
          | none => .error .authenticationRequired)))
      else some (c.goto i (.replaceSave current replacement))
  | .replaceWrite _ replacement =>
      some ((c.activate (some replacement)).release i (.finished (.ok (some replacement))))
  | _ => none

/-- A save or clear of the store ends. -/
def written (c : CredentialState) (i : ℕ) (content : Option TokenPair) (next : CredentialPc) :
    StoreOutcome → CredentialState
  | .success => (c.persist content).goto i next
  | .failure error left => (c.persist left).release i (.finished (.error (.credential error)))

/-- A store call ends. -/
def storeReturns (c : CredentialState) (i : ℕ) (outcome : StoreOutcome) :
    Option CredentialState :=
  match c.tasks.pc i with
  | .setSave tokens => some (c.written i (some tokens) (.setWrite tokens) outcome)
  | .clearStore => some (c.written i none .clearWrite outcome)
  | .loadStore refresh =>
      some (match outcome with
        | .success => c.goto i (.loadWrite refresh c.persisted)
        | .failure error _ => c.release i (.finished (.error (.credential error))))
  | .expireClear current => some (c.written i none (.expireWrite current) outcome)
  | .replaceSave current replacement =>
      some (c.written i (some replacement) (.replaceWrite current replacement) outcome)
  | _ => none

/-- Drop the future of a task, which releases the gate if it held it. -/
def cancel (c : CredentialState) (i : ℕ) (content : Option TokenPair) : CredentialState :=
  match c.tasks.pc i with
  | .setSave _ | .clearStore | .expireClear _ | .replaceSave _ _ =>
      (c.persist content).release i .idle
  | .setWrite _ | .clearWrite | .loadStore _ | .loadWrite _ _ | .loadRead _
  | .supersedeRead _ _ | .expireRead _ | .expireWrite _ | .replaceRead _ _
  | .replaceWrite _ _ => c.release i .idle
  | _ => c.goto i .idle

/-- One step of one task. -/
def step (env : RefreshEnv Response) (c : CredentialState) :
    CredentialAction Response → Option CredentialState
  | .start i op =>
      match c.tasks.pc i with
      | .idle | .finished _ => some (c.goto i op.entry)
      | _ => none
  | .advance i => c.advance env i
  | .store i outcome => c.storeReturns i outcome
  | .respond i response =>
      match c.tasks.pc i with
      | .send current => some (c.goto i (afterSend env current response))
      | _ => none
  | .cancel i content => some (c.cancel i content)

end CredentialState

/-- The pair that the load of a refresh returned. -/
def CredentialPc.refreshing : CredentialPc → Option TokenPair
  | .send current | .supersedeGate current _ | .supersedeRead current _ | .expireGate current
  | .expireRead current | .expireClear current | .expireWrite current | .replaceGate current _
  | .replaceRead current _ | .replaceSave current _ | .replaceWrite current _ => some current
  | _ => none

/-- The counters of `set_tokens` and `clear_tokens`. -/
def CredentialPc.Overrides : CredentialPc → Prop
  | .setGate _ | .setSave _ | .setWrite _ | .clearGate | .clearStore | .clearWrite => True
  | _ => False

/-- The operations entitled to replace or remove a pair: `set_tokens`,
`clear_tokens`, and a refresh whose load returned exactly that pair. -/
def MayReplace (pc : CredentialPc) (pair : TokenPair) : Prop :=
  pc.Overrides ∨ pc.refreshing = some pair

/-- The counters at which a refresh compares the active pair with its own, and
whether it has a rotated pair. -/
def CredentialPc.comparing : CredentialPc → Option (TokenPair × Bool)
  | .supersedeRead current _ => some (current, false)
  | .expireRead current => some (current, false)
  | .replaceRead current _ => some (current, true)
  | _ => none

/-- The counters that write the active pair. -/
def CredentialPc.Writes : CredentialPc → Prop
  | .setWrite _ | .clearWrite | .loadWrite _ _ | .expireWrite _ | .replaceWrite _ _ => True
  | _ => False

/-- The counters with a call that changes the store. -/
def CredentialPc.Stores : CredentialPc → Prop
  | .setSave _ | .clearStore | .expireClear _ | .replaceSave _ _ => True
  | _ => False

/-! ## What a task may rely on -/

/-- The facts a task established under the gate and still relies on. -/
def CredentialPc.Relies (c : CredentialState) : CredentialPc → Prop
  | .setWrite tokens => c.persisted = some tokens
  | .clearWrite => c.persisted = none
  | .loadStore _ => c.loaded = false
  | .loadWrite _ tokens => c.loaded = false ∧ tokens = c.persisted
  | .expireClear current => c.active = some current
  | .expireWrite current => c.active = some current ∧ c.persisted = none
  | .replaceSave current _ => c.active = some current
  | .replaceWrite current replacement =>
      c.active = some current ∧ c.persisted = some replacement
  | _ => True

theorem CredentialPc.relies_of_not_holds (c : CredentialState) (pc : CredentialPc)
    (h : ¬ pc.Holds) : pc.Relies c := by
  cases pc <;> first | trivial | exact absurd trivial h

/-- The invariant of concurrent credential updates. -/
structure CredentialState.Inv (c : CredentialState) : Prop where
  exclusive : c.tasks.Exclusive CredentialPc.Holds
  relies : ∀ i, (c.tasks.pc i).Relies c
  unloaded : c.loaded = false → c.active = none
  installed : ∀ pair, c.installed = some pair → c.persisted = some pair ∧ c.active = some pair

namespace CredentialState

variable {Response : Type} {env : RefreshEnv Response} {c c' : CredentialState} {i : ℕ}
  {pc : CredentialPc}

@[simp] theorem pc_goto (d : CredentialState) : (d.goto i pc).tasks.pc i = pc :=
  Tasks.pc_goto_self _ _ _

@[simp] theorem pc_release (d : CredentialState) : (d.release i pc).tasks.pc i = pc :=
  Tasks.pc_release_self _ _ _

theorem pc_acquire (h : c.acquire i pc = some c') : c'.tasks.pc i = pc := by
  obtain ⟨tasks, ht, rfl⟩ := Option.map_eq_some_iff.mp h
  simp [(Tasks.acquire_eq_some ht).2.2]

theorem pc_cancel (content : Option TokenPair) : (c.cancel i content).tasks.pc i = .idle := by
  unfold CredentialState.cancel
  cases c.tasks.pc i <;> simp

theorem inv_init (persisted : Option TokenPair) : (init persisted).Inv where
  exclusive := fun _ => ⟨(fun h => by cases h), False.elim⟩
  relies := fun _ => trivial
  unloaded := fun _ => rfl
  installed := fun _ h => by cases h

/-- Taking the gate changes nothing else. -/
theorem Inv.acquire (H : c.Inv) (h : c.acquire i pc = some c') (hholds : pc.Holds)
    (hrelies : pc.Relies c) : c'.Inv := by
  unfold CredentialState.acquire at h
  obtain ⟨tasks, ht, rfl⟩ := Option.map_eq_some_iff.mp h
  obtain ⟨hfree, -, hpc⟩ := Tasks.acquire_eq_some ht
  refine ⟨H.exclusive.acquire ht hholds, ?_, H.unloaded, H.installed⟩
  refine Tasks.forall_of_holder (Q := CredentialPc.Relies _)
    (CredentialPc.relies_of_not_holds _) (fun j _ => H.exclusive.free hfree j) hpc ?_
  cases pc <;> exact hrelies

/-- A step outside the gate changes only the counter of its task. -/
theorem Inv.goto_free (H : c.Inv) (hi : ¬ (c.tasks.pc i).Holds) (hp : ¬ pc.Holds) :
    (c.goto i pc).Inv := by
  refine ⟨H.exclusive.goto (by simp [hi, hp]), ?_, H.unloaded, H.installed⟩
  intro j
  by_cases hj : j = i
  · subst hj
    rw [show (c.goto j pc).tasks.pc j = pc from Tasks.pc_goto_self _ _ _]
    exact CredentialPc.relies_of_not_holds _ _ hp
  · rw [show (c.goto i pc).tasks.pc j = c.tasks.pc j from Tasks.pc_goto_of_ne _ _ hj]
    have hrelies := H.relies j
    revert hrelies
    cases c.tasks.pc j <;> exact id

/-- A step under the gate may change everything its task relies on. -/
theorem Inv.goto_held (H : c.Inv) (hi : (c.tasks.pc i).Holds) {d : CredentialState}
    (ht : d.tasks = c.tasks) (hu : d.loaded = false → d.active = none)
    (hn : ∀ pair, d.installed = some pair → d.persisted = some pair ∧ d.active = some pair)
    (hp : pc.Holds) (hr : pc.Relies d) : (d.goto i pc).Inv := by
  refine ⟨?_, ?_, hu, hn⟩
  · rw [show (d.goto i pc).tasks = c.tasks.goto i pc by rw [← ht]; rfl]
    exact H.exclusive.goto (by simp [hi, hp])
  · refine Tasks.forall_of_holder (Q := CredentialPc.Relies _)
      (CredentialPc.relies_of_not_holds _) (H.exclusive.others hi) (p := pc) ?_ ?_
    · rw [← ht]
      rfl
    · cases pc <;> exact hr

/-- Leaving the gate. -/
theorem Inv.release (H : c.Inv) (hi : (c.tasks.pc i).Holds) {d : CredentialState}
    (ht : d.tasks = c.tasks) (hu : d.loaded = false → d.active = none)
    (hn : ∀ pair, d.installed = some pair → d.persisted = some pair ∧ d.active = some pair)
    (hp : ¬ pc.Holds) : (d.release i pc).Inv := by
  refine ⟨?_, ?_, hu, hn⟩
  · rw [show (d.release i pc).tasks = c.tasks.release i pc by rw [← ht]; rfl]
    exact H.exclusive.release hi hp
  · refine Tasks.forall_of_holder (Q := CredentialPc.Relies _)
      (CredentialPc.relies_of_not_holds _) (H.exclusive.others hi) (p := pc) ?_
      (CredentialPc.relies_of_not_holds _ _ hp)
    rw [← ht]
    rfl

/-- An installed pair survives a store call only if the call left it in place. -/
theorem Inv.installed_persist (H : c.Inv) (content : Option TokenPair) :
    ∀ pair, (c.persist content).installed = some pair →
      (c.persist content).persisted = some pair ∧ (c.persist content).active = some pair := by
  intro pair h
  by_cases hc : content = c.persisted
  · simp only [persist, if_pos hc] at h ⊢
    rw [hc]
    exact H.installed pair h
  · simp [persist, hc] at h

/-- A save or clear that ends keeps the invariant, if the task goes on to a
counter that relies on what was written. -/
theorem Inv.written (H : c.Inv) (hi : (c.tasks.pc i).Holds) (content : Option TokenPair)
    (hp : pc.Holds) (hr : pc.Relies (c.persist content)) (outcome : StoreOutcome) :
    (c.written i content pc outcome).Inv := by
  cases outcome with
  | success =>
      exact H.goto_held hi (d := c.persist content) rfl H.unloaded (H.installed_persist content)
        hp hr
  | failure error left =>
      exact H.release hi (d := c.persist left) rfl H.unloaded (H.installed_persist left) id

theorem not_holds_afterLoad (refresh : Bool) (tokens : Option TokenPair) :
    ¬ (afterLoad env refresh tokens).Holds := by
  unfold afterLoad
  split
  · split
    · exact id
    · split <;> exact id
  · exact id

theorem not_holds_afterSend (current : TokenPair) (response : Except HttpError Response) :
    ¬ (afterSend env current response).Holds := by
  unfold afterSend
  split
  · exact id
  · split
    · split <;> exact id
    · split <;> exact id

/-- Passing a lock keeps the invariant. -/
theorem Inv.advance (H : c.Inv) (h : c.advance env i = some c') : c'.Inv := by
  unfold CredentialState.advance at h
  have hrelies := H.relies i
  cases hpc : c.tasks.pc i with
  | idle | setSave _ | clearStore | loadStore _ | send _ | expireClear _ | replaceSave _ _
  | finished _ => simp [hpc] at h
  | setGate tokens =>
      rw [hpc] at h
      exact H.acquire h trivial trivial
  | setWrite tokens =>
      simp only [hpc, Option.some.injEq] at h
      subst h
      rw [hpc] at hrelies
      refine H.release (by rw [hpc]; trivial)
        (d := { c.activate (some tokens) with installed := some tokens }) rfl
        (fun h => by cases h) ?_ id
      intro pair hpair
      cases hpair
      exact ⟨hrelies, rfl⟩
  | clearGate =>
      rw [hpc] at h
      exact H.acquire h trivial trivial
  | clearWrite =>
      simp only [hpc, Option.some.injEq] at h
      subst h
      rw [hpc] at hrelies
      refine H.release (by rw [hpc]; trivial) (d := c.activate none) rfl (fun _ => rfl) ?_ id
      intro pair hpair
      have := (H.installed pair hpair).1
      rw [show c.persisted = none from hrelies] at this
      cases this
  | loadGate refresh =>
      rw [hpc] at h
      refine H.acquire h ?_ ?_
      · split <;> trivial
      · split
        · trivial
        next hl => simpa [CredentialPc.Relies] using hl
  | loadWrite refresh tokens =>
      simp only [hpc, Option.some.injEq] at h
      subst h
      rw [hpc] at hrelies
      refine H.goto_held (by rw [hpc]; trivial) (d := c.activate tokens) rfl
        (fun h => by cases h) ?_ trivial trivial
      intro pair hpair
      have hp := (H.installed pair hpair).1
      exact ⟨hp, hrelies.2.trans hp⟩
  | loadRead refresh =>
      simp only [hpc, Option.some.injEq] at h
      subst h
      exact H.release (by rw [hpc]; trivial) rfl H.unloaded H.installed
        (not_holds_afterLoad _ _)
  | supersedeGate current error =>
      rw [hpc] at h
      exact H.acquire h trivial trivial
  | supersedeRead current error =>
      simp only [hpc, Option.some.injEq] at h
      subst h
      exact H.release (by rw [hpc]; trivial) rfl H.unloaded H.installed id
  | expireGate current =>
      rw [hpc] at h
      exact H.acquire h trivial trivial
  | expireRead current =>
      simp only [hpc] at h
      split at h
      · cases h
        exact H.release (by rw [hpc]; trivial) rfl H.unloaded H.installed id
      next hcurrent =>
        cases h
        exact H.goto_held (by rw [hpc]; trivial) rfl H.unloaded H.installed trivial
          (not_not.mp hcurrent)
  | expireWrite current =>
      simp only [hpc, Option.some.injEq] at h
      subst h
      rw [hpc] at hrelies
      refine H.release (by rw [hpc]; trivial) (d := c.activate none) rfl (fun _ => rfl) ?_ id
      intro pair hpair
      have := (H.installed pair hpair).1
      rw [hrelies.2] at this
      cases this
  | replaceGate current replacement =>
      rw [hpc] at h
      exact H.acquire h trivial trivial
  | replaceRead current replacement =>
      simp only [hpc] at h
      split at h
      · cases h
        exact H.release (by rw [hpc]; trivial) rfl H.unloaded H.installed id
      next hcurrent =>
        cases h
        exact H.goto_held (by rw [hpc]; trivial) rfl H.unloaded H.installed trivial
          (not_not.mp hcurrent)
  | replaceWrite current replacement =>
      simp only [hpc, Option.some.injEq] at h
      subst h
      rw [hpc] at hrelies
      refine H.release (by rw [hpc]; trivial) (d := c.activate (some replacement)) rfl
        (fun h => by cases h) ?_ id
      intro pair hpair
      have hp := (H.installed pair hpair).1
      exact ⟨hp, hrelies.2.symm.trans hp⟩

/-- A store call that ends keeps the invariant. -/
theorem Inv.storeReturns (H : c.Inv) {outcome : StoreOutcome}
    (h : c.storeReturns i outcome = some c') : c'.Inv := by
  unfold CredentialState.storeReturns at h
  have hrelies := H.relies i
  cases hpc : c.tasks.pc i with
  | setSave tokens =>
      simp only [hpc, Option.some.injEq] at h
      subst h
      exact H.written (by rw [hpc]; trivial) _ (by trivial) (by rfl) _
  | clearStore =>
      simp only [hpc, Option.some.injEq] at h
      subst h
      exact H.written (by rw [hpc]; trivial) _ (by trivial) (by rfl) _
  | loadStore refresh =>
      simp only [hpc, Option.some.injEq] at h
      rw [hpc] at hrelies
      subst h
      cases outcome with
      | success =>
          exact H.goto_held (by rw [hpc]; trivial) rfl H.unloaded H.installed trivial
            ⟨hrelies, rfl⟩
      | failure error left =>
          exact H.release (by rw [hpc]; trivial) rfl H.unloaded H.installed id
  | expireClear current =>
      simp only [hpc, Option.some.injEq] at h
      subst h
      rw [hpc] at hrelies
      exact H.written (by rw [hpc]; trivial) _ (by trivial) (by exact ⟨hrelies, rfl⟩) _
  | replaceSave current replacement =>
      simp only [hpc, Option.some.injEq] at h
      subst h
      rw [hpc] at hrelies
      exact H.written (by rw [hpc]; trivial) _ (by trivial) (by exact ⟨hrelies, rfl⟩) _
  | _ => simp [hpc] at h

/-- Dropping a future keeps the invariant. -/
theorem Inv.cancel (H : c.Inv) (content : Option TokenPair) : (c.cancel i content).Inv := by
  unfold CredentialState.cancel
  cases hpc : c.tasks.pc i with
  | setSave _ | clearStore | expireClear _ | replaceSave _ _ =>
      exact H.release (by rw [hpc]; trivial) (d := c.persist content) rfl H.unloaded
        (H.installed_persist content) id
  | setWrite _ | clearWrite | loadStore _ | loadWrite _ _ | loadRead _ | supersedeRead _ _
  | expireRead _ | expireWrite _ | replaceRead _ _ | replaceWrite _ _ =>
      exact H.release (by rw [hpc]; trivial) rfl H.unloaded H.installed id
  | _ => exact H.goto_free (by rw [hpc]; exact id) id

theorem inv_step (H : c.Inv) {a : CredentialAction Response} (h : c.step env a = some c') :
    c'.Inv := by
  cases a with
  | start j op =>
      simp only [step] at h
      have hentry : ¬ op.entry.Holds := by cases op <;> exact id
      cases hpc : c.tasks.pc j <;> simp only [hpc, reduceCtorEq, Option.some.injEq] at h <;>
        (subst h; exact H.goto_free (by rw [hpc]; exact id) hentry)
  | advance j => exact H.advance h
  | store j outcome => exact H.storeReturns h
  | respond j response =>
      simp only [step] at h
      cases hpc : c.tasks.pc j <;> simp only [hpc, reduceCtorEq, Option.some.injEq] at h
      subst h
      exact H.goto_free (by rw [hpc]; exact id) (not_holds_afterSend _ _)
  | cancel j content =>
      cases h
      exact H.cancel content

/-! ## Who changes a pair -/

/-- A step changes the active pair only at a counter that writes it. -/
theorem advance_active (h : c.advance env i = some c') :
    c'.active = c.active ∨ (c.tasks.pc i).Writes := by
  unfold CredentialState.advance at h
  cases hpc : c.tasks.pc i with
  | setWrite _ | clearWrite | loadWrite _ _ | expireWrite _ | replaceWrite _ _ =>
      exact .inr trivial
  | setGate _ | clearGate | loadGate _ | supersedeGate _ _ | expireGate _ | replaceGate _ _ =>
      rw [hpc] at h
      obtain ⟨tasks, -, rfl⟩ := Option.map_eq_some_iff.mp h
      exact .inl rfl
  | expireRead _ | replaceRead _ _ =>
      simp only [hpc] at h
      split at h <;> cases h <;> exact .inl rfl
  | loadRead _ | supersedeRead _ _ =>
      simp only [hpc, Option.some.injEq] at h
      subst h
      exact .inl rfl
  | _ => simp [hpc] at h

theorem advance_persisted (h : c.advance env i = some c') : c'.persisted = c.persisted := by
  unfold CredentialState.advance at h
  cases hpc : c.tasks.pc i with
  | setGate _ | clearGate | loadGate _ | supersedeGate _ _ | expireGate _ | replaceGate _ _ =>
      rw [hpc] at h
      obtain ⟨tasks, -, rfl⟩ := Option.map_eq_some_iff.mp h
      rfl
  | expireRead _ | replaceRead _ _ =>
      simp only [hpc] at h
      split at h <;> cases h <;> rfl
  | setWrite _ | clearWrite | loadWrite _ _ | expireWrite _ | replaceWrite _ _ | loadRead _
  | supersedeRead _ _ =>
      simp only [hpc, Option.some.injEq] at h
      subst h
      rfl
  | _ => simp [hpc] at h

theorem storeReturns_active {outcome : StoreOutcome} (h : c.storeReturns i outcome = some c') :
    c'.active = c.active := by
  unfold CredentialState.storeReturns at h
  cases hpc : c.tasks.pc i <;> simp only [hpc, reduceCtorEq, Option.some.injEq] at h <;>
    (subst h; cases outcome <;> rfl)

theorem storeReturns_persisted {outcome : StoreOutcome}
    (h : c.storeReturns i outcome = some c') :
    c'.persisted = c.persisted ∨ (c.tasks.pc i).Stores := by
  unfold CredentialState.storeReturns at h
  cases hpc : c.tasks.pc i with
  | setSave _ | clearStore | expireClear _ | replaceSave _ _ => exact .inr trivial
  | loadStore _ =>
      simp only [hpc, Option.some.injEq] at h
      subst h
      cases outcome <;> exact .inl rfl
  | _ => simp [hpc] at h

theorem cancel_active (content : Option TokenPair) : (c.cancel i content).active = c.active := by
  unfold CredentialState.cancel
  cases c.tasks.pc i <;> rfl

theorem cancel_persisted (content : Option TokenPair) :
    (c.cancel i content).persisted = c.persisted ∨ (c.tasks.pc i).Stores := by
  unfold CredentialState.cancel
  cases c.tasks.pc i <;> first | exact .inl rfl | exact .inr trivial

theorem step_active {a : CredentialAction Response} (h : c.step env a = some c') :
    c'.active = c.active ∨ (c.tasks.pc a.task).Writes := by
  cases a with
  | start j op =>
      simp only [step] at h
      cases hpc : c.tasks.pc j <;> simp only [hpc, reduceCtorEq, Option.some.injEq] at h <;>
        (subst h; exact .inl rfl)
  | advance j => exact advance_active h
  | store j outcome => exact .inl (storeReturns_active h)
  | respond j response =>
      simp only [step] at h
      cases hpc : c.tasks.pc j <;> simp only [hpc, reduceCtorEq, Option.some.injEq] at h
      subst h
      exact .inl rfl
  | cancel j content =>
      cases h
      exact .inl (cancel_active content)

theorem step_persisted {a : CredentialAction Response} (h : c.step env a = some c') :
    c'.persisted = c.persisted ∨ (c.tasks.pc a.task).Stores := by
  cases a with
  | start j op =>
      simp only [step] at h
      cases hpc : c.tasks.pc j <;> simp only [hpc, reduceCtorEq, Option.some.injEq] at h <;>
        (subst h; exact .inl rfl)
  | advance j => exact .inl (advance_persisted h)
  | store j outcome => exact storeReturns_persisted h
  | respond j response =>
      simp only [step] at h
      cases hpc : c.tasks.pc j <;> simp only [hpc, reduceCtorEq, Option.some.injEq] at h
      subst h
      exact .inl rfl
  | cancel j content =>
      cases h
      exact cancel_persisted content

/-- The active pair is replaced or removed only by an operation entitled to it. -/
theorem Inv.mayReplace_active (H : c.Inv) {a : CredentialAction Response}
    (h : c.step env a = some c') {pair : TokenPair} (hactive : c.active = some pair)
    (hchanged : c'.active ≠ some pair) : MayReplace (c.tasks.pc a.task) pair := by
  have hwrites : (c.tasks.pc a.task).Writes := by
    rcases step_active h with hsame | hwrites
    · rw [hsame] at hchanged
      exact absurd hactive hchanged
    · exact hwrites
  have hrelies := H.relies a.task
  revert hwrites hrelies
  cases c.tasks.pc a.task with
  | setWrite _ | clearWrite => exact fun _ _ => .inl trivial
  | loadWrite refresh tokens =>
      intro _ hrelies
      rw [H.unloaded hrelies.1] at hactive
      cases hactive
  | expireWrite current => exact fun _ hrelies => .inr (hrelies.1.symm.trans hactive)
  | replaceWrite current replacement =>
      exact fun _ hrelies => .inr (hrelies.1.symm.trans hactive)
  | _ => exact fun hwrites => absurd hwrites id

/-- A stored pair that a `set_tokens` installed is replaced or removed only by an
operation entitled to it. -/
theorem Inv.mayReplace_persisted (H : c.Inv) {a : CredentialAction Response}
    (h : c.step env a = some c') {pair : TokenPair} (hinstalled : c.installed = some pair)
    (hchanged : c'.persisted ≠ some pair) : MayReplace (c.tasks.pc a.task) pair := by
  obtain ⟨hpersisted, hactive⟩ := H.installed pair hinstalled
  have hstores : (c.tasks.pc a.task).Stores := by
    rcases step_persisted h with hsame | hstores
    · rw [hsame] at hchanged
      exact absurd hpersisted hchanged
    · exact hstores
  have hrelies := H.relies a.task
  revert hstores hrelies
  cases c.tasks.pc a.task with
  | setSave _ | clearStore => exact fun _ _ => .inl trivial
  | expireClear current => exact fun _ hrelies => .inr (hrelies.symm.trans hactive)
  | replaceSave current replacement =>
      exact fun _ hrelies => .inr (hrelies.symm.trans hactive)
  | _ => exact fun hstores => absurd hstores id

theorem refreshing_afterSend (current : TokenPair) (response : Except HttpError Response) :
    (afterSend env current response).refreshing = some current := by
  unfold afterSend
  split
  · rfl
  · split
    · split <;> rfl
    · split <;> rfl

/-- Only a load that belongs to a refresh and returned a pair starts one with it. -/
theorem refreshing_afterLoad {refresh : Bool} {tokens : Option TokenPair} {pair : TokenPair}
    (h : (afterLoad env refresh tokens).refreshing = some pair) :
    refresh = true ∧ tokens = some pair := by
  unfold afterLoad at h
  cases refresh with
  | false => cases h
  | true =>
      cases tokens with
      | none => cases h
      | some current =>
          simp only [if_true] at h
          split at h
          · exact ⟨rfl, h⟩
          · cases h

theorem refreshing_advance (h : c.advance env i = some c') {pair : TokenPair}
    (hnow : (c'.tasks.pc i).refreshing = some pair) :
    (c.tasks.pc i).refreshing = some pair ∨
      (c.tasks.pc i = .loadRead true ∧ c.active = some pair) := by
  unfold CredentialState.advance at h
  cases hpc : c.tasks.pc i with
  | setGate _ | clearGate | supersedeGate _ _ | expireGate _ | replaceGate _ _ =>
      rw [hpc] at h
      rw [pc_acquire h] at hnow
      exact .inl hnow
  | loadGate _ =>
      rw [hpc] at h
      rw [pc_acquire h] at hnow
      split at hnow <;> cases hnow
  | setWrite _ | clearWrite | loadWrite _ _ | supersedeRead _ _ | expireWrite _
  | replaceWrite _ _ =>
      simp only [hpc, Option.some.injEq] at h
      subst h
      simp [CredentialPc.refreshing] at hnow
  | loadRead refresh =>
      simp only [hpc, Option.some.injEq] at h
      subst h
      rw [pc_release] at hnow
      obtain ⟨rfl, hactive⟩ := refreshing_afterLoad hnow
      exact .inr ⟨rfl, hactive⟩
  | expireRead _ | replaceRead _ _ =>
      simp only [hpc] at h
      split at h
      · cases h
        simp [CredentialPc.refreshing] at hnow
      · cases h
        rw [pc_goto] at hnow
        exact .inl hnow
  | _ => simp [hpc] at h

theorem refreshing_storeReturns {outcome : StoreOutcome}
    (h : c.storeReturns i outcome = some c') {pair : TokenPair}
    (hnow : (c'.tasks.pc i).refreshing = some pair) :
    (c.tasks.pc i).refreshing = some pair := by
  unfold CredentialState.storeReturns at h
  cases hpc : c.tasks.pc i <;> simp only [hpc, reduceCtorEq, Option.some.injEq] at h <;>
    (subst h; cases outcome <;> simp [written, CredentialPc.refreshing] at hnow)
  all_goals rw [← hnow]; rfl

/-- The pair a refresh works with is the one its own load returned. -/
theorem refreshing_step {a : CredentialAction Response} (h : c.step env a = some c')
    {pair : TokenPair} (hnow : (c'.tasks.pc a.task).refreshing = some pair) :
    (c.tasks.pc a.task).refreshing = some pair ∨
      (c.tasks.pc a.task = .loadRead true ∧ c.active = some pair) := by
  cases a with
  | start j op =>
      simp only [step] at h
      cases hpc : c.tasks.pc j <;> simp only [hpc, reduceCtorEq, Option.some.injEq] at h <;>
        (subst h; cases op <;> simp [CredentialAction.task, CredentialOp.entry,
          CredentialPc.refreshing] at hnow)
  | advance j => exact refreshing_advance h hnow
  | store j outcome => exact .inl (refreshing_storeReturns h hnow)
  | respond j response =>
      simp only [step] at h
      cases hpc : c.tasks.pc j <;> simp only [hpc, reduceCtorEq, Option.some.injEq] at h
      subst h
      simp only [CredentialAction.task, pc_goto, refreshing_afterSend] at hnow
      exact .inl (by rw [CredentialAction.task, hpc]; exact hnow)
  | cancel j content =>
      cases h
      rw [CredentialAction.task, pc_cancel] at hnow
      cases hnow

/-- A refresh that finds another pair active returns it, and one with a rotated
pair that finds none requires authentication. -/
theorem advance_comparing {expected : TokenPair} {rotated : Bool}
    (hpc : (c.tasks.pc i).comparing = some (expected, rotated))
    (h : c.advance env i = some c') :
    (∀ tokens, c.active = some tokens → tokens ≠ expected →
        c'.tasks.pc i = .finished (.ok (some tokens))) ∧
      (c.active = none → rotated = true →
        c'.tasks.pc i = .finished (.error .authenticationRequired)) := by
  unfold CredentialState.advance at h
  cases hi : c.tasks.pc i with
  | supersedeRead current error =>
      simp only [hi, Option.some.injEq] at h
      rw [hi] at hpc
      cases hpc
      subst h
      refine ⟨?_, fun _ hr => by cases hr⟩
      intro tokens hactive hne
      simp [supersededOrError, hactive, hne]
  | expireRead current =>
      rw [hi] at hpc
      cases hpc
      refine ⟨?_, fun _ hr => by cases hr⟩
      intro tokens hactive hne
      simp only [hi, hactive, ne_eq, Option.some.injEq, hne, not_false_eq_true, if_true] at h
      subst h
      simp
  | replaceRead current replacement =>
      rw [hi] at hpc
      cases hpc
      refine ⟨?_, ?_⟩
      · intro tokens hactive hne
        simp only [hi, hactive, ne_eq, Option.some.injEq, hne, not_false_eq_true, if_true] at h
        subst h
        simp
      · intro hactive _
        simp only [hi, hactive, ne_eq, reduceCtorEq, not_false_eq_true, if_true,
          Option.some.injEq] at h
        subst h
        simp
  | _ => simp [hi, CredentialPc.comparing] at hpc

/-- A completed `set_tokens` makes its pair active and stored. -/
theorem Inv.advance_setWrite (H : c.Inv) {tokens : TokenPair}
    (hpc : c.tasks.pc i = .setWrite tokens) (h : c.advance env i = some c') :
    c'.active = some tokens ∧ c'.persisted = some tokens ∧ c'.installed = some tokens := by
  have hrelies := H.relies i
  rw [hpc] at hrelies
  simp only [CredentialState.advance, hpc, Option.some.injEq] at h
  subst h
  exact ⟨rfl, hrelies, rfl⟩

/-! ## Other tasks -/

theorem pc_goto_of_ne {j : ℕ} (d : CredentialState) (hj : j ≠ i) :
    (d.goto i pc).tasks.pc j = d.tasks.pc j := Tasks.pc_goto_of_ne _ _ hj

theorem pc_release_of_ne {j : ℕ} (d : CredentialState) (hj : j ≠ i) :
    (d.release i pc).tasks.pc j = d.tasks.pc j := by
  simp [release, Tasks.release, Function.update_of_ne hj]

theorem pc_acquire_of_ne {j : ℕ} (hj : j ≠ i) (h : c.acquire i pc = some c') :
    c'.tasks.pc j = c.tasks.pc j := by
  obtain ⟨tasks, ht, rfl⟩ := Option.map_eq_some_iff.mp h
  simp [(Tasks.acquire_eq_some ht).2.2, Function.update_of_ne hj]

theorem pc_advance_of_ne {j : ℕ} (hj : j ≠ i) (h : c.advance env i = some c') :
    c'.tasks.pc j = c.tasks.pc j := by
  unfold CredentialState.advance at h
  cases hpc : c.tasks.pc i with
  | setGate _ | clearGate | loadGate _ | supersedeGate _ _ | expireGate _ | replaceGate _ _ =>
      rw [hpc] at h
      exact pc_acquire_of_ne hj h
  | setWrite _ | clearWrite | loadRead _ | supersedeRead _ _ | expireWrite _ | replaceWrite _ _ =>
      simp only [hpc, Option.some.injEq] at h
      subst h
      exact pc_release_of_ne _ hj
  | loadWrite _ _ =>
      simp only [hpc, Option.some.injEq] at h
      subst h
      exact pc_goto_of_ne _ hj
  | expireRead _ | replaceRead _ _ =>
      simp only [hpc] at h
      split at h
      · cases h; exact pc_release_of_ne _ hj
      · cases h; exact pc_goto_of_ne _ hj
  | _ => simp [hpc] at h

/-- A step moves no other task. -/
theorem pc_step_of_ne {a : CredentialAction Response} {j : ℕ} (hj : j ≠ a.task)
    (h : c.step env a = some c') : c'.tasks.pc j = c.tasks.pc j := by
  cases a with
  | start i op =>
      simp only [step] at h
      cases hpc : c.tasks.pc i <;> simp only [hpc, reduceCtorEq, Option.some.injEq] at h <;>
        (subst h; exact pc_goto_of_ne _ hj)
  | advance i => exact pc_advance_of_ne hj h
  | store i outcome =>
      simp only [step, CredentialState.storeReturns] at h
      cases hpc : c.tasks.pc i <;> simp only [hpc, reduceCtorEq, Option.some.injEq] at h <;>
        (subst h; cases outcome <;> exact pc_goto_of_ne _ hj)
  | respond i response =>
      simp only [step] at h
      cases hpc : c.tasks.pc i <;> simp only [hpc, reduceCtorEq, Option.some.injEq] at h
      subst h
      exact pc_goto_of_ne _ hj
  | cancel i content =>
      cases h
      unfold CredentialState.cancel
      cases c.tasks.pc i <;> exact pc_goto_of_ne _ hj

/-- A started operation is at its first counter. -/
theorem pc_start {op : CredentialOp} (h : c.step env (.start i op) = some c') :
    c'.tasks.pc i = op.entry := by
  simp only [step] at h
  cases hpc : c.tasks.pc i <;> simp only [hpc, reduceCtorEq, Option.some.injEq] at h <;>
    (subst h; exact pc_goto _)

end CredentialState

/-- The counters of a refresh, its load included. -/
def CredentialPc.ofRefresh : CredentialPc → Bool
  | .loadGate refresh | .loadStore refresh | .loadWrite refresh _ | .loadRead refresh => refresh
  | p => p.refreshing.isSome

/-- The counters at which a task runs no operation. -/
def CredentialPc.resting : CredentialPc → Bool
  | .idle | .finished _ => true
  | _ => false

namespace CredentialState

variable {Response : Type} {env : RefreshEnv Response} {c c' : CredentialState} {i : ℕ}

theorem ofRefresh_of_refreshing {p : CredentialPc} {pair : TokenPair}
    (h : p.refreshing = some pair) : p.ofRefresh = true := by
  cases p <;> first | rfl | cases h

theorem ofRefresh_advance (h : c.advance env i = some c')
    (hnow : (c'.tasks.pc i).ofRefresh = true) : (c.tasks.pc i).ofRefresh = true := by
  cases hpair : (c'.tasks.pc i).refreshing with
  | some pair =>
      rcases refreshing_advance h hpair with hbefore | ⟨hload, -⟩
      · exact ofRefresh_of_refreshing hbefore
      · rw [hload]
        rfl
  | none =>
      unfold CredentialState.advance at h
      cases hpc : c.tasks.pc i with
      | setGate _ | clearGate | supersedeGate _ _ | expireGate _ | replaceGate _ _ =>
          rw [hpc] at h
          rw [pc_acquire h] at hnow
          exact hnow
      | loadGate refresh =>
          rw [hpc] at h
          rw [pc_acquire h] at hnow
          split at hnow <;> exact hnow
      | loadWrite refresh tokens =>
          simp only [hpc, Option.some.injEq] at h
          subst h
          rw [pc_goto] at hnow
          exact hnow
      | loadRead refresh =>
          simp only [hpc, Option.some.injEq] at h
          subst h
          rw [pc_release] at hnow
          cases refresh with
          | true => rfl
          | false => exact hnow
      | setWrite _ | clearWrite =>
          simp only [hpc, Option.some.injEq] at h
          subst h
          rw [pc_release] at hnow
          exact hnow
      | supersedeRead _ _ | expireRead _ | expireWrite _ | replaceRead _ _ | replaceWrite _ _ =>
          rfl
      | _ => simp [hpc] at h

/-- A running operation does not become a refresh. -/
theorem ofRefresh_step {a : CredentialAction Response} (ha : ∀ op, a ≠ .start a.task op)
    (h : c.step env a = some c') (hnow : (c'.tasks.pc a.task).ofRefresh = true) :
    (c.tasks.pc a.task).ofRefresh = true := by
  cases a with
  | start j op => exact absurd rfl (ha op)
  | advance j => exact ofRefresh_advance h hnow
  | store j outcome =>
      simp only [step, CredentialState.storeReturns] at h
      simp only [CredentialAction.task] at hnow ⊢
      cases hpc : c.tasks.pc j <;> simp only [hpc, reduceCtorEq, Option.some.injEq] at h
      case loadStore refresh =>
        subst h
        cases outcome with
        | success =>
            rw [pc_goto] at hnow
            exact hnow
        | failure error content =>
            rw [pc_release] at hnow
            cases hnow
      case setSave | clearStore =>
        subst h
        cases outcome <;> simp [written, CredentialPc.ofRefresh, CredentialPc.refreshing] at hnow
      all_goals rfl
  | respond j response =>
      simp only [step] at h
      cases hpc : c.tasks.pc j <;> simp only [hpc, reduceCtorEq, Option.some.injEq] at h
      rw [CredentialAction.task, hpc]
      rfl
  | cancel j content =>
      cases h
      rw [CredentialAction.task, pc_cancel] at hnow
      cases hnow

theorem ofRefresh_entry {op : CredentialOp} (h : op ≠ .refreshOnce) :
    op.entry.ofRefresh = false := by
  cases op <;> first | rfl | exact absurd rfl h

theorem active_acquire {pc : CredentialPc} (h : c.acquire i pc = some c') :
    c'.active = c.active := by
  obtain ⟨tasks, -, rfl⟩ := Option.map_eq_some_iff.mp h
  rfl

theorem active_start {op : CredentialOp} (h : c.step env (.start i op) = some c') :
    c'.active = c.active := by
  simp only [step] at h
  cases hpc : c.tasks.pc i <;> simp only [hpc, reduceCtorEq, Option.some.injEq] at h <;>
    (subst h; rfl)

/-- Only a task at rest starts an operation. -/
theorem resting_of_start {op : CredentialOp} (h : c.step env (.start i op) = some c') :
    (c.tasks.pc i).resting = true := by
  simp only [step] at h
  cases hpc : c.tasks.pc i <;> first | rfl | simp [hpc] at h

theorem ofRefresh_of_resting {p : CredentialPc} (h : p.resting = true) :
    p.ofRefresh = false := by
  cases p <;> first | rfl | cases h

theorem refreshing_of_resting {p : CredentialPc} (h : p.resting = true) :
    p.refreshing = none := by
  cases p <;> first | rfl | cases h

/-- A task at rest can start every operation. -/
theorem start_of_resting (h : (c.tasks.pc i).resting = true) (op : CredentialOp) :
    c.step env (.start i op) = some (c.goto i op.entry) := by
  simp only [step]
  cases hpc : c.tasks.pc i <;> first | rfl | (rw [hpc] at h; cases h)

end CredentialState

/-- **A newer login wins over an older refresh.** In every reachable state, a
step that replaces or removes the active pair, or a stored pair installed by a
`set_tokens`, belongs to a `set_tokens`, a `clear_tokens`, or a refresh whose own
load returned exactly that pair; and a refresh that finds another pair active
returns that pair. -/
theorem newer_login_wins {Response : Type} (env : RefreshEnv Response)
    (persisted : Option TokenPair) (actions : List (CredentialAction Response))
    (c c' : CredentialState) (a : CredentialAction Response)
    (hrun : exec (CredentialState.step env) (.init persisted) actions = some c)
    (hstep : c.step env a = some c') :
    (∀ i tokens, a = .advance i → c.tasks.pc i = .setWrite tokens →
      c'.active = some tokens ∧ c'.persisted = some tokens ∧ c'.installed = some tokens) ∧
    (∀ pair, c.active = some pair → c'.active ≠ some pair →
      MayReplace (c.tasks.pc a.task) pair) ∧
    (∀ pair, c.installed = some pair → c.persisted = some pair ∧
      (c'.persisted ≠ some pair → MayReplace (c.tasks.pc a.task) pair)) ∧
    (∀ pair, (c'.tasks.pc a.task).refreshing = some pair →
      (c.tasks.pc a.task).refreshing = some pair ∨
        (c.tasks.pc a.task = .loadRead true ∧ c.active = some pair)) ∧
    (∀ i expected rotated, a = .advance i →
      (c.tasks.pc i).comparing = some (expected, rotated) →
      (∀ tokens, c.active = some tokens → tokens ≠ expected →
        c'.tasks.pc i = .finished (.ok (some tokens))) ∧
      (c.active = none → rotated = true →
        c'.tasks.pc i = .finished (.error .authenticationRequired))) := by
  have H : c.Inv := invariant (fun _ _ _ H h => CredentialState.inv_step H h)
    (CredentialState.inv_init persisted) hrun
  refine ⟨?_, fun _ hactive hchanged => H.mayReplace_active hstep hactive hchanged, ?_,
    fun _ hnow => CredentialState.refreshing_step hstep hnow, ?_⟩
  · rintro i tokens rfl hpc
    exact H.advance_setWrite hpc hstep
  · intro pair hinstalled
    exact ⟨(H.installed pair hinstalled).1, H.mayReplace_persisted hstep hinstalled⟩
  · rintro i expected rotated rfl hpc
    exact CredentialState.advance_comparing hpc hstep

/-- Responses that carry their decoded outcome. -/
def decodedResponses : RefreshEnv (Except HttpError RefreshResponse) where
  jsonRequest _ := .ok ()
  decodeJson response := response

/-- A refresh loads the pair `old` and sends its request; a login then installs
`new`; the refresh receives a rotated pair and takes the gate to commit it. -/
def loginDuringRefresh : List (CredentialAction (Except HttpError RefreshResponse)) :=
  [.start 0 .refreshOnce, .advance 0, .store 0 .success, .advance 0, .advance 0,
    .start 1 (.setTokens (.sample "new")), .advance 1, .store 1 .success, .advance 1,
    .respond 0 (.ok (.ok ⟨"access-rotated", "refresh-rotated", 1⟩)), .advance 0]

theorem newer_login_wins_loginDuringRefresh :
    ∃ c c', exec (CredentialState.step decodedResponses) (.init (some (.sample "old")))
        loginDuringRefresh = some c ∧
      c.step decodedResponses (.advance 0) = some c' ∧ c.active = some (.sample "new") ∧
      c'.tasks.pc 0 = .finished (.ok (some (.sample "new"))) := by
  refine ⟨_, _, rfl, rfl, rfl, ?_⟩
  have h := newer_login_wins decodedResponses (some (.sample "old")) loginDuringRefresh _ _
    (.advance 0) rfl rfl
  exact (h.2.2.2.2 0 (.sample "old") true rfl rfl).1 (.sample "new") rfl (by decide)

end ZephyrVox.Http
