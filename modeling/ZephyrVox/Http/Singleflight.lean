import ZephyrVox.Http.Client

/-!
# The refresh singleflight

At most one caller leads a refresh at a time, and the flight it leads is behind
the gate for as long as it works. Followers return what their leader recorded. A
leader that is dropped before it recorded a result cancels its flight; one that
is dropped after it, while it waits for the gate, leaves a finished flight behind
that later callers still follow.

## Main definitions

* `ClientPc.leads`, `ClientPc.flight` — the flight a task leads or has to do with.
* `ApiClient.Move`, `ApiClient.step_cases` — what a step does to the flights.
* `ApiClient.FlightsSound` — the invariant of leaders, followers and the gate.
* `refresh_singleflight` — one request at a time, and what followers return.
* `finished_flights_are_not_reused` — a caller after all leaders leads again,
  unless a leader was dropped at the gate.
-/

namespace ZephyrVox.Http

open Transition Gate

/-! ## Roles -/

/-- The flight a task leads, until its guard has run or its flight is removed. -/
def ClientPc.leads : ClientPc → Option ℕ
  | .leading _ f | .recording _ f _ | .waking _ f _ | .leaving _ f _ | .dropping f => some f
  | _ => none

/-- The flight a task follows. -/
def ClientPc.follows : ClientPc → Option ℕ
  | .joined _ f | .checking _ f _ | .peeking _ f _ | .waiting _ f _ | .collecting _ f => some f
  | _ => none

/-- The flight a task has to do with. -/
def ClientPc.flight : ClientPc → Option ℕ
  | .dropped f => some f
  | p => p.leads.or p.follows

/-- The flight whose state is in the hands of a task. -/
def ClientPc.owns : ClientPc → Option ℕ
  | .dropped f => some f
  | p => p.leads

/-- A follower that was woken. -/
def ClientPc.woken : ClientPc → Bool
  | .collecting _ _ => true
  | _ => false

theorem ClientPc.owns_of_flight {p : ClientPc} (h : p.flight = none) : p.owns = none := by
  cases p <;> first | rfl | cases h

theorem ClientPc.owns_of_leads {p : ClientPc} {f : ℕ} (h : p.leads = some f) :
    p.owns = some f := by
  cases p <;> first | exact h | cases h

theorem ClientPc.owns_of_follows {p : ClientPc} {f : ℕ} (h : p.follows = some f) :
    p.owns = none := by
  cases p <;> first | rfl | cases h

namespace ApiClient

variable {Response : Type} {env : ClientEnv Response} {c c' d : ApiClient} {i : ℕ}
  {a : ClientAction Response}

/-! ## What a step does to the flights -/

/-- Flights, gate and results as before. -/
structure Still (c c' : ApiClient) : Prop where
  flights : c'.flights = c.flights
  gate : c'.refreshGate = c.refreshGate
  produced : c'.history.produced = c.history.produced
  followed : c'.history.followed = c.history.followed

theorem Still.refl (c : ApiClient) : Still c c := ⟨rfl, rfl, rfl, rfl⟩

/-- The result a follower returns from the flight it sees. -/
def Collects (flight : RefreshFlight) (p : ClientPc) (result : Except HttpError TokenPair) : Prop :=
  flight.result = some result ∨
    (result = .error .authExpired ∧
      (flight.cancelled = true ∨ (p.woken = true ∧ flight.result = none)))

/-- What one step of a task does to the flights. -/
inductive Move (c c' : ApiClient) (a : ClientAction Response) : Prop
  /-- The credential operation of the task moves. -/
  | inner (hpc : c'.pc = c.pc) (h : Still c c')
  /-- The task has nothing to do with a flight, or stops following one. -/
  | plain (p : ClientPc) (hpc : c'.pc = Function.update c.pc a.task p)
      (hfrom : (c.pc a.task).leads = none) (hto : p.flight = none) (h : Still c c')
  /-- The task leads a new flight. -/
  | elects (k : RefreshCaller) (ha : a = .resume a.task) (hp : c.pc a.task = .refreshGate k)
      (hfree : ∀ f flight, c.refreshGate = some f → c.flights[f]? = some flight →
        flight.cancelled = true)
      (hpc : c'.pc = Function.update c.pc a.task (.leading k c.flights.length))
      (hflights : c'.flights = c.flights ++ [newRefreshFlight])
      (hgate : c'.refreshGate = some c.flights.length)
      (hwork : c'.credentials.tasks.pc a.task = .loadGate true)
      (hproduced : c'.history.produced = c.history.produced)
      (hfollowed : c'.history.followed = c.history.followed)
  /-- The task follows the flight behind the gate. -/
  | joins (k : RefreshCaller) (f : ℕ) (flight : RefreshFlight)
      (hp : c.pc a.task = .refreshGate k) (hgate : c.refreshGate = some f)
      (hflight : c.flights[f]? = some flight) (hcancelled : flight.cancelled = false)
      (hpc : c'.pc = Function.update c.pc a.task (.joined k f)) (h : Still c c')
  /-- The refresh of a leader returned. -/
  | produces (k : RefreshCaller) (f : ℕ) (result : Except HttpError TokenPair)
      (hp : c.pc a.task = .leading k f)
      (hpc : c'.pc = Function.update c.pc a.task (.recording k f result))
      (hflights : c'.flights = c.flights) (hgate : c'.refreshGate = c.refreshGate)
      (hproduced : c'.history.produced = c.history.produced ++ [(f, result)])
      (hfollowed : c'.history.followed = c.history.followed)
  /-- The leader records its result. -/
  | records (k : RefreshCaller) (f : ℕ) (result : Except HttpError TokenPair)
      (hp : c.pc a.task = .recording k f result)
      (hpc : c'.pc = Function.update c.pc a.task (.waking k f result))
      (h : Still (c.setFlight f fun flight => { flight with result := some result }) c')
  /-- The leader wakes its followers. -/
  | wakes (k : RefreshCaller) (f : ℕ) (result : Except HttpError TokenPair)
      (hp : c.pc a.task = .waking k f result)
      (hpc : c'.pc = Function.update c.pc a.task (.leaving k f result))
      (h : Still (c.setFlight f fun flight => { flight with notify := flight.notify + 1 }) c')
  /-- The leader removes its flight and returns. -/
  | leaves (k : RefreshCaller) (f : ℕ) (result : Except HttpError TokenPair) (p : ClientPc)
      (hp : c.pc a.task = .leaving k f result) (hpc : c'.pc = Function.update c.pc a.task p)
      (hto : p.flight = none) (h : Still (c.leaveGate f) c')
  /-- The leader is dropped while it waits for the gate. -/
  | abandons (k : RefreshCaller) (f : ℕ) (result : Except HttpError TokenPair)
      (content : Option TokenPair) (ha : a = .cancel a.task content)
      (hp : c.pc a.task = .leaving k f result)
      (hpc : c'.pc = Function.update c.pc a.task .idle) (h : Still c c')
  /-- The leader is dropped before it recorded a result. -/
  | drops (k : RefreshCaller) (f : ℕ)
      (hp : c.pc a.task = .leading k f ∨ ∃ result, c.pc a.task = .recording k f result)
      (hpc : c'.pc = Function.update c.pc a.task (.dropping f)) (h : Still c c')
  /-- Its guard cancels the flight. -/
  | flags (f : ℕ) (hp : c.pc a.task = .dropping f)
      (hpc : c'.pc = Function.update c.pc a.task (.dropped f))
      (h : Still (c.setFlight f fun flight => { flight with cancelled := true }) c')
  /-- The guard wakes the followers. -/
  | rouses (f : ℕ) (hp : c.pc a.task = .dropped f)
      (hpc : c'.pc = Function.update c.pc a.task .idle)
      (h : Still (c.setFlight f fun flight => { flight with notify := flight.notify + 1 }) c')
  /-- A follower goes on. -/
  | watches (f : ℕ) (flight : RefreshFlight) (p : ClientPc)
      (hp : (c.pc a.task).follows = some f) (hflight : c.flights[f]? = some flight)
      (hpc : c'.pc = Function.update c.pc a.task p) (hto : p.follows = some f)
      (hwoken : p.woken = true → 0 < flight.notify) (h : Still c c')
  /-- A follower returns. -/
  | collects (f : ℕ) (flight : RefreshFlight) (result : Except HttpError TokenPair) (p : ClientPc)
      (hp : (c.pc a.task).follows = some f) (hflight : c.flights[f]? = some flight)
      (hresult : Collects flight (c.pc a.task) result)
      (hpc : c'.pc = Function.update c.pc a.task p) (hto : p.flight = none)
      (hflights : c'.flights = c.flights) (hgate : c'.refreshGate = c.refreshGate)
      (hproduced : c'.history.produced = c.history.produced)
      (hfollowed : c'.history.followed = c.history.followed ++ [(f, result)])

theorem begin_still {op : CredentialOp} {p : ClientPc} (h : c.begin env i op p = some c') :
    Still c c' := by
  rw [(begin_eq_some h).2]
  exact ⟨rfl, rfl, rfl, rfl⟩

/-- A caller that is past the refresh has nothing to do with the flight. -/
theorem afterRefresh_spec {k : RefreshCaller} {result : Except HttpError TokenPair}
    (h : c.afterRefresh env i k result = some c') :
    ∃ p, c'.pc = Function.update c.pc i p ∧ p.flight = none ∧ Still c c' := by
  unfold afterRefresh at h
  split at h
  · cases h; exact ⟨_, rfl, rfl, ⟨rfl, rfl, rfl, rfl⟩⟩
  · cases h; exact ⟨_, rfl, rfl, ⟨rfl, rfl, rfl, rfl⟩⟩
  · exact ⟨_, begin_pc h, rfl, begin_still h⟩

/-- A started call has nothing to do with a flight yet. -/
theorem call_spec {op : ClientOp} (h : c.call env i op = some c') :
    ∃ p, c'.pc = Function.update c.pc i p ∧ p.flight = none ∧ Still c c' := by
  unfold call at h
  split at h
  case h_4 | h_5 => cases h; exact ⟨_, rfl, rfl, ⟨rfl, rfl, rfl, rfl⟩⟩
  all_goals exact ⟨_, begin_pc h, rfl, begin_still h⟩

theorem answered_still (sent : AccessToken) (status : ℕ) :
    Still c (c.answered sent status) ∧ (c.answered sent status).pc = c.pc := by
  unfold answered
  split <;> exact ⟨⟨rfl, rfl, rfl, rfl⟩, rfl⟩

theorem Still.trans {b : ApiClient} (h : Still b c) (h' : Still c d) : Still b d :=
  ⟨h'.flights.trans h.flights, h'.gate.trans h.gate, h'.produced.trans h.produced,
    h'.followed.trans h.followed⟩

theorem replied_spec {p : ClientPc} {reply : Reply} (h : c.replied env i p reply = some c') :
    p.leads = none ∧ ∃ q, c'.pc = Function.update c.pc i q ∧ q.flight = none ∧ Still c c' := by
  unfold replied at h
  split at h
  case h_1 retryOnce sent status =>
    obtain ⟨hstill, hpc⟩ := answered_still (c := c) sent status
    refine ⟨rfl, ?_⟩
    split at h
    · exact ⟨_, hpc ▸ begin_pc h, rfl, hstill.trans (begin_still h)⟩
    · cases h
      exact ⟨_, by rw [← hpc]; rfl, rfl, hstill.trans ⟨rfl, rfl, rfl, rfl⟩⟩
  case h_2 token status =>
    obtain ⟨hstill, hpc⟩ := answered_still (c := c) token status
    cases h
    exact ⟨rfl, _, by rw [← hpc]; rfl, rfl, hstill.trans ⟨rfl, rfl, rfl, rfl⟩⟩
  case h_3 | h_4 => exact ⟨rfl, _, begin_pc h, rfl, begin_still h⟩
  case h_9 => cases h
  all_goals cases h; exact ⟨rfl, _, rfl, rfl, ⟨rfl, rfl, rfl, rfl⟩⟩

theorem move_lead {k : RefreshCaller} (ha : a = .resume a.task) (hp : c.pc a.task = .refreshGate k)
    (hfree : ∀ f flight, c.refreshGate = some f → c.flights[f]? = some flight →
      flight.cancelled = true)
    (h : c.lead env a.task k = some c') : Move c c' a := by
  obtain ⟨hstep, heq⟩ := begin_eq_some h
  have hwork := CredentialState.pc_start hstep
  rw [heq] at hwork ⊢
  exact .elects k ha hp hfree rfl rfl rfl hwork rfl rfl

theorem move_enterFlight {k : RefreshCaller} (ha : a = .resume a.task)
    (hp : c.pc a.task = .refreshGate k)
    (h : c.enterFlight env a.task k = some c') : Move c c' a := by
  unfold enterFlight at h
  split at h
  case h_1 hnone =>
    exact move_lead ha hp (fun f _ hf => absurd (hnone.symm.trans hf) (by simp)) h
  case h_2 f hgate =>
    split at h
    · cases h
    case h_2 flight hflight =>
      split at h
      case isTrue hcancelled =>
        refine move_lead ha hp ?_ h
        intro g x hg hx
        rw [hgate] at hg
        cases hg
        rw [hflight] at hx
        cases hx
        exact hcancelled
      case isFalse hcancelled =>
        cases h
        exact .joins k f flight hp hgate hflight (by simpa using hcancelled) rfl
          ⟨rfl, rfl, rfl, rfl⟩

theorem move_follow {k : RefreshCaller} {f : ℕ} {flight : RefreshFlight}
    {result : Except HttpError TokenPair} (hp : (c.pc a.task).follows = some f)
    (hflight : c.flights[f]? = some flight) (hresult : Collects flight (c.pc a.task) result)
    (h : c.follow env a.task k f result = some c') : Move c c' a := by
  obtain ⟨p, hpc, hto, hstill⟩ := afterRefresh_spec h
  exact .collects f flight result p hp hflight hresult hpc hto hstill.flights hstill.gate
    hstill.produced hstill.followed

theorem move_resumeFollower {p : ClientPc} {f : ℕ} (hp : c.pc a.task = p)
    (hf : p.follows = some f)
    (h : ((c.flights[f]?).bind fun flight => c.resumeFollower env a.task flight p) = some c') :
    Move c c' a := by
  obtain ⟨flight, hflight, h⟩ := Option.bind_eq_some_iff.mp h
  have hfollows : (c.pc a.task).follows = some f := by rw [hp, hf]
  unfold resumeFollower at h
  split at h
  case h_1 k g =>
    cases hf
    cases h
    exact .watches f flight _ hfollows hflight rfl rfl (fun h => by cases h) ⟨rfl, rfl, rfl, rfl⟩
  case h_2 k g seen =>
    cases hf
    split at h
    case isTrue hcancelled =>
      exact move_follow hfollows hflight (.inr ⟨rfl, .inl hcancelled⟩) h
    · cases h
      exact .watches f flight _ hfollows hflight rfl rfl (fun h => by cases h)
        ⟨rfl, rfl, rfl, rfl⟩
  case h_3 k g seen =>
    cases hf
    split at h
    case h_1 result hresult => exact move_follow hfollows hflight (.inl hresult) h
    · cases h
      exact .watches f flight _ hfollows hflight rfl rfl (fun h => by cases h)
        ⟨rfl, rfl, rfl, rfl⟩
  case h_4 k g seen =>
    cases hf
    obtain ⟨hseen, h⟩ := Option.ite_none_right_eq_some.mp h
    cases h
    exact .watches f flight _ hfollows hflight rfl rfl (fun _ => by omega) ⟨rfl, rfl, rfl, rfl⟩
  case h_5 k g =>
    cases hf
    refine move_follow hfollows hflight ?_ h
    cases hresult : flight.result with
    | some result => exact .inl hresult
    | none => exact .inr ⟨rfl, .inr ⟨by rw [hp]; rfl, hresult⟩⟩
  case h_6 => cases h

theorem move_afterCredential {p : ClientPc} {result : Except HttpError (Option TokenPair)}
    (hp : c.pc a.task = p) (h : c.afterCredential env a.task p result = some c') :
    Move c c' a := by
  have plain {q : ClientPc} (hleads : p.leads = none) (hto : q.flight = none)
      (hc : c' = c.goto a.task q) : Move c c' a := by
    subst hc
    exact .plain q rfl (by rw [hp, hleads]) hto ⟨rfl, rfl, rfl, rfl⟩
  have begun {op : CredentialOp} {q : ClientPc} (hleads : p.leads = none) (hto : q.flight = none)
      (hc : c.begin env a.task op q = some c') : Move c c' a :=
    .plain q (begin_pc hc) (by rw [hp, hleads]) hto (begin_still hc)
  unfold afterCredential at h
  split at h
  case h_3 k f tokens => cases h; exact .produces k f (.ok tokens) hp rfl rfl rfl rfl rfl
  case h_4 k f e => cases h; exact .produces k f (.error e) hp rfl rfl rfl rfl rfl
  case h_5 | h_7 | h_8 =>
    have h := Option.some.inj h
    split at h
    · exact plain rfl rfl h.symm
    · exact plain rfl rfl h.symm
  case h_6 sent tokens =>
    split at h
    · cases h; exact plain rfl rfl rfl
    · exact begun rfl rfl h
  case h_15 => cases h
  all_goals cases h; exact plain rfl rfl rfl

theorem move_resume (h : c.resume env i = some c') :
    Move c c' (.resume i : ClientAction Response) := by
  unfold resume at h
  split at h
  case h_1 k hp => exact move_enterFlight rfl hp h
  case h_2 k f result hp => cases h; exact .records k f result hp rfl ⟨rfl, rfl, rfl, rfl⟩
  case h_3 k f result hp => cases h; exact .wakes k f result hp rfl ⟨rfl, rfl, rfl, rfl⟩
  case h_4 k f result hp =>
    obtain ⟨p, hpc, hto, hstill⟩ := afterRefresh_spec h
    refine .leaves k f result p hp (hpc.trans ?_) hto hstill
    unfold leaveGate
    split <;> rfl
  case h_5 f hp => cases h; exact .flags f hp rfl ⟨rfl, rfl, rfl, rfl⟩
  case h_6 f hp => cases h; exact .rouses f hp rfl ⟨rfl, rfl, rfl, rfl⟩
  case h_7 hp | h_8 hp | h_9 hp | h_10 hp | h_11 hp =>
    exact move_resumeFollower (a := (.resume i : ClientAction Response)) hp rfl h
  case h_12 p _ _ _ _ _ _ _ _ _ _ _ =>
    split at h
    · exact move_afterCredential (a := (.resume i : ClientAction Response)) rfl h
    · cases h

theorem move_cancel {content : Option TokenPair} (h : c.cancel i content = some c') :
    Move c c' (.cancel i content : ClientAction Response) := by
  unfold cancel at h
  cases hp : c.pc i with
  | leading k f => simp only [hp] at h; cases h; exact .drops k f (.inl hp) rfl ⟨rfl, rfl, rfl, rfl⟩
  | recording k f result =>
      simp only [hp] at h
      cases h
      exact .drops k f (.inr ⟨result, hp⟩) rfl ⟨rfl, rfl, rfl, rfl⟩
  | leaving k f result =>
      simp only [hp] at h
      cases h
      exact .abandons k f result content rfl hp rfl ⟨rfl, rfl, rfl, rfl⟩
  | waking | dropping | dropped | joined | checking => simp [hp] at h
  | _ =>
      simp only [hp] at h
      cases h
      have hleads : (c.pc i).leads = none := by rw [hp]; rfl
      exact .plain .idle rfl hleads rfl ⟨rfl, rfl, rfl, rfl⟩

/-- Credential operations produce and return no result of a flight. -/
theorem observe_results (h : ClientHistory) (active : Option TokenPair) (i : ℕ) (p : ClientPc)
    (before after : CredentialPc) :
    (observe h active i p before after).produced = h.produced ∧
      (observe h active i p before after).followed = h.followed := by
  unfold observe
  split
  case h_6 => split <;> exact ⟨rfl, rfl⟩
  all_goals exact ⟨rfl, rfl⟩

theorem move_stepCredential {b : CredentialAction Response}
    (h : c.stepCredential env i b = some c') : Move c c' (.credential b) := by
  unfold stepCredential at h
  obtain ⟨-, h⟩ := Option.ite_none_right_eq_some.mp h
  obtain ⟨credentials, -, rfl⟩ := Option.map_eq_some_iff.mp h
  obtain ⟨hproduced, hfollowed⟩ := observe_results c.history c.credentials.active i (c.pc i)
    (c.credentials.tasks.pc i) (credentials.tasks.pc i)
  exact .inner rfl ⟨rfl, rfl, hproduced, hfollowed⟩

/-- **What a step of the client does to the flights.** -/
theorem step_cases (h : c.step env a = some c') : Move c c' a := by
  cases a with
  | call j op =>
      simp only [step] at h
      have hspec : ∀ p, c.pc j = p → p.leads = none → c.call env j op = some c' →
          Move c c' (.call j op : ClientAction Response) := by
        intro p hp hleads h
        obtain ⟨q, hpc, hto, hstill⟩ := call_spec h
        have hfrom : (c.pc j).leads = none := by rw [hp, hleads]
        exact .plain q hpc hfrom hto hstill
      split at h
      case h_1 hp => exact hspec _ hp rfl h
      case h_2 hp => exact hspec _ hp rfl h
      · cases h
  | credential b =>
      cases b with
      | advance j => exact move_stepCredential h
      | store j outcome => exact move_stepCredential h
      | respond j response => exact move_stepCredential h
      | start | cancel => cases h
  | resume j => exact move_resume h
  | respond j reply =>
      obtain ⟨hleads, q, hpc, hto, hstill⟩ := replied_spec h
      exact .plain q hpc hleads hto hstill
  | cancel j content => exact move_cancel h

/-! ## Leaders, followers and the gate -/

/-- What a task relies on: a leader on the state of its flight and on the gate, a
woken follower on a notification. -/
def Relies (c : ApiClient) : ClientPc → Prop
  | .leading _ f =>
      c.refreshGate = some f ∧ c.flights[f]? = some newRefreshFlight ∧
        ∀ result, (f, result) ∉ c.history.produced
  | .recording _ f result =>
      c.refreshGate = some f ∧ c.flights[f]? = some newRefreshFlight ∧
        (f, result) ∈ c.history.produced
  | .waking _ f result =>
      c.refreshGate = some f ∧ c.flights[f]? = some ⟨some result, 0, false⟩
  | .leaving _ f result =>
      c.refreshGate = some f ∧ c.flights[f]? = some ⟨some result, 1, false⟩
  | .dropping f => c.refreshGate = some f ∧ c.flights[f]? = some newRefreshFlight
  | .dropped f => c.flights[f]? = some ⟨none, 0, true⟩
  | .collecting _ f => ∃ flight, c.flights[f]? = some flight ∧ 0 < flight.notify
  | _ => True

/-- The states a flight can be in. -/
structure FlightSound (c : ApiClient) (f : ℕ) (flight : RefreshFlight) : Prop where
  cancelled : flight.cancelled = true → flight.result = none
  notified : 0 < flight.notify → flight.cancelled = true ∨ flight.result ≠ none
  produced : ∀ result, flight.result = some result → (f, result) ∈ c.history.produced

/-- A follower returned what its leader recorded, or its leader was cancelled
before it recorded anything. -/
def Followed (c : ApiClient) (e : ℕ × Except HttpError TokenPair) : Prop :=
  ∃ flight, c.flights[e.1]? = some flight ∧
    (flight.result = some e.2 ∨
      (e.2 = .error .authExpired ∧ flight.cancelled = true ∧ flight.result = none))

/-- The invariant of the singleflight. -/
structure FlightsSound (c : ApiClient) : Prop where
  unique : ∀ i j f, (c.pc i).owns = some f → (c.pc j).owns = some f → i = j
  relies : ∀ i, c.Relies (c.pc i)
  flight : ∀ (f : ℕ) (flight : RefreshFlight), c.flights[f]? = some flight → c.FlightSound f flight
  known : ∀ e ∈ c.history.produced, e.1 < c.flights.length
  once : ∀ f result result', (f, result) ∈ c.history.produced →
    (f, result') ∈ c.history.produced → result = result'
  followed : ∀ e ∈ c.history.followed, c.Followed e

/-- A task that has to do with no flight relies on nothing. -/
theorem relies_of_flight {p : ClientPc} (h : p.flight = none) : c.Relies p := by
  cases p <;> trivial

/-- The flight behind the gate is that of every leader. -/
theorem Relies.gate {p : ClientPc} {f : ℕ} (h : c.Relies p) (hf : p.leads = some f) :
    c.refreshGate = some f := by
  cases p <;> first | cases hf; exact h.1 | cases hf

/-- An owned flight exists. -/
theorem Relies.lt {p : ClientPc} {f : ℕ} (h : c.Relies p) (hf : p.owns = some f) :
    f < c.flights.length := by
  have hlt {flight : RefreshFlight} (h : c.flights[f]? = some flight) : f < c.flights.length :=
    (List.getElem?_eq_some_iff.mp h).1
  cases p with
  | leading k g => cases hf; exact hlt h.2.1
  | recording k g result => cases hf; exact hlt h.2.1
  | waking k g result => cases hf; exact hlt h.2
  | leaving k g result => cases hf; exact hlt h.2
  | dropping g => cases hf; exact hlt h.2
  | dropped g => cases hf; exact hlt h
  | _ => cases hf

/-- The flight of a leader is not cancelled. -/
theorem Relies.not_cancelled {p : ClientPc} {f : ℕ} {flight : RefreshFlight} (h : c.Relies p)
    (hf : p.leads = some f) (hflight : c.flights[f]? = some flight) : flight.cancelled = false := by
  have hnew {x : RefreshFlight} (hx : x.cancelled = false) (h : c.flights[f]? = some x) :
      flight.cancelled = false := by
    rw [hflight] at h
    cases h
    exact hx
  cases p with
  | leading k g => cases hf; exact hnew rfl h.2.1
  | recording k g result => cases hf; exact hnew rfl h.2.1
  | waking k g result => cases hf; exact hnew rfl h.2
  | leaving k g result => cases hf; exact hnew rfl h.2
  | dropping g => cases hf; exact hnew rfl h.2
  | _ => cases hf

/-- What a task relies on survives a step that leaves its own flight alone. -/
theorem Relies.mono {p : ClientPc} (h : c.Relies p)
    (hgate : p.leads ≠ none → c'.refreshGate = c.refreshGate)
    (howned : ∀ f, p.owns = some f → c'.flights[f]? = c.flights[f]?)
    (hnotify : ∀ (f : ℕ) (flight : RefreshFlight), c.flights[f]? = some flight →
      ∃ flight', c'.flights[f]? = some flight' ∧ flight.notify ≤ flight'.notify)
    (hproduced : ∀ e ∈ c.history.produced, e ∈ c'.history.produced)
    (hnew : ∀ f result, p.leads = some f → (f, result) ∈ c'.history.produced →
      (f, result) ∈ c.history.produced) : c'.Relies p := by
  cases p with
  | leading k f =>
      obtain ⟨hg, hflight, hnone⟩ := h
      exact ⟨(hgate (by simp [ClientPc.leads])).trans hg, (howned f rfl).trans hflight,
        fun result hr => hnone result (hnew f result rfl hr)⟩
  | recording k f result =>
      obtain ⟨hg, hflight, hr⟩ := h
      exact ⟨(hgate (by simp [ClientPc.leads])).trans hg, (howned f rfl).trans hflight,
        hproduced _ hr⟩
  | waking k f result =>
      exact ⟨(hgate (by simp [ClientPc.leads])).trans h.1, (howned f rfl).trans h.2⟩
  | leaving k f result =>
      exact ⟨(hgate (by simp [ClientPc.leads])).trans h.1, (howned f rfl).trans h.2⟩
  | dropping f => exact ⟨(hgate (by simp [ClientPc.leads])).trans h.1, (howned f rfl).trans h.2⟩
  | dropped f => exact (howned f rfl).trans h
  | collecting k f =>
      obtain ⟨flight, hflight, hpos⟩ := h
      obtain ⟨flight', hflight', hle⟩ := hnotify f flight hflight
      exact ⟨flight', hflight', Nat.lt_of_lt_of_le hpos hle⟩
  | _ => trivial

/-- A flight only gains: a result, notifications, or its cancellation. -/
structure Evolves (flight flight' : RefreshFlight) : Prop where
  result : flight.result ≠ none → flight'.result = flight.result
  notify : flight.notify ≤ flight'.notify
  cancelled : flight.cancelled = true →
    flight'.cancelled = true ∧ flight'.result = flight.result

theorem Evolves.refl (flight : RefreshFlight) : Evolves flight flight :=
  ⟨fun _ => rfl, Nat.le_refl _, fun h => ⟨h, rfl⟩⟩

/-- What a follower returned stays right. -/
theorem Followed.mono {e : ℕ × Except HttpError TokenPair} (h : c.Followed e)
    (hflights : ∀ (f : ℕ) (flight : RefreshFlight), c.flights[f]? = some flight →
      ∃ flight', c'.flights[f]? = some flight' ∧ Evolves flight flight') : c'.Followed e := by
  obtain ⟨flight, hflight, hresult⟩ := h
  obtain ⟨flight', hflight', hevolves⟩ := hflights _ flight hflight
  refine ⟨flight', hflight', ?_⟩
  rcases hresult with hresult | ⟨hexpired, hcancelled, hnone⟩
  · exact .inl ((hevolves.result (by simp [hresult])).trans hresult)
  · obtain ⟨hcancelled', hsame⟩ := hevolves.cancelled hcancelled
    exact .inr ⟨hexpired, hcancelled', hsame.trans hnone⟩

/-- One task moves. -/
theorem FlightsSound.update (H : c.FlightsSound) {p : ClientPc}
    (hpc : c'.pc = Function.update c.pc i p)
    (howns : ∀ f, p.owns = some f → ∀ j, j ≠ i → (c.pc j).owns ≠ some f)
    (hothers : ∀ j, j ≠ i → c'.Relies (c.pc j)) (hself : c'.Relies p)
    (hflight : ∀ (f : ℕ) (flight : RefreshFlight), c'.flights[f]? = some flight →
      c'.FlightSound f flight)
    (hknown : ∀ e ∈ c'.history.produced, e.1 < c'.flights.length)
    (honce : ∀ f result result', (f, result) ∈ c'.history.produced →
      (f, result') ∈ c'.history.produced → result = result')
    (hfollowed : ∀ e ∈ c'.history.followed, c'.Followed e) : c'.FlightsSound := by
  refine ⟨?_, ?_, hflight, hknown, honce, hfollowed⟩
  · intro j k f hj hk
    rw [hpc] at hj hk
    by_cases hji : j = i
    · by_cases hki : k = i
      · rw [hji, hki]
      · subst hji
        rw [Function.update_self] at hj
        rw [Function.update_of_ne hki] at hk
        exact absurd hk (howns f hj k hki)
    · rw [Function.update_of_ne hji] at hj
      by_cases hki : k = i
      · subst hki
        rw [Function.update_self] at hk
        exact absurd hj (howns f hk j hji)
      · rw [Function.update_of_ne hki] at hk
        exact H.unique j k f hj hk
  · intro j
    rw [hpc]
    by_cases hji : j = i
    · subst hji
      rwa [Function.update_self]
    · rw [Function.update_of_ne hji]
      exact hothers j hji

/-- No other task owns the flight of the one that moves. -/
theorem FlightsSound.others (H : c.FlightsSound) {p : ClientPc}
    (h : p.owns = none ∨ p.owns = (c.pc i).owns) :
    ∀ f, p.owns = some f → ∀ j, j ≠ i → (c.pc j).owns ≠ some f := by
  intro f hf j hji hj
  rcases h with hnone | hsame
  · rw [hnone] at hf
    cases hf
  · exact hji (H.unique j i f hj (hsame ▸ hf))

theorem Still.relies (h : Still c c') {p : ClientPc} (hp : c.Relies p) : c'.Relies p := by
  refine hp.mono (fun _ => h.gate) (fun f _ => by rw [h.flights]) ?_ ?_ ?_
  · intro f flight hflight
    exact ⟨flight, by rw [h.flights, hflight], Nat.le_refl _⟩
  · intro e he
    rwa [h.produced]
  · intro f result _ hr
    rwa [h.produced] at hr

/-- A step that changes no flight. -/
theorem FlightsSound.still (H : c.FlightsSound) (h : Still c c') {p : ClientPc}
    (hpc : c'.pc = Function.update c.pc i p) (howns : p.owns = none ∨ p.owns = (c.pc i).owns)
    (hself : c.Relies p) : c'.FlightsSound := by
  refine H.update hpc (H.others howns) (fun j _ => h.relies (H.relies j)) (h.relies hself)
    ?_ ?_ ?_ ?_
  · intro f flight hflight
    rw [h.flights] at hflight
    obtain ⟨hcancelled, hnotified, hproduced⟩ := H.flight f flight hflight
    exact ⟨hcancelled, hnotified, by rw [h.produced]; exact hproduced⟩
  · rw [h.produced, h.flights]
    exact H.known
  · rw [h.produced]
    exact H.once
  · intro e he
    rw [h.followed] at he
    refine (H.followed e he).mono fun f flight hflight => ⟨flight, ?_, .refl flight⟩
    rw [h.flights, hflight]

/-- The flights after a change of one of them. -/
theorem getElem?_setFlight {f : ℕ} {flight : RefreshFlight}
    (change : RefreshFlight → RefreshFlight) (hflight : c.flights[f]? = some flight) (g : ℕ) :
    (c.setFlight f change).flights[g]? =
      if f = g then some (change flight) else c.flights[g]? := by
  show (c.flights.modify f change)[g]? = _
  rw [List.getElem?_modify]
  split
  case isTrue heq =>
    subst heq
    rw [hflight]
    rfl
  · cases c.flights[g]? <;> rfl

/-- A step that changes the flight its task owns. -/
theorem FlightsSound.set (H : c.FlightsSound) {f : ℕ} {flight : RefreshFlight}
    {change : RefreshFlight → RefreshFlight} {p : ClientPc}
    (h : Still (c.setFlight f change) c') (hpc : c'.pc = Function.update c.pc i p)
    (hown : (c.pc i).owns = some f) (howns : p.owns = none ∨ p.owns = some f)
    (hflight : c.flights[f]? = some flight) (hevolves : Evolves flight (change flight))
    (hsound : c.FlightSound f (change flight))
    (hself : c'.flights[f]? = some (change flight) → c'.Relies p) : c'.FlightsSound := by
  have hget (g : ℕ) : c'.flights[g]? = if f = g then some (change flight) else c.flights[g]? := by
    rw [h.flights, getElem?_setFlight change hflight]
  have hproduced : c'.history.produced = c.history.produced := h.produced
  have hgrown : ∀ (g : ℕ) (x : RefreshFlight), c.flights[g]? = some x →
      ∃ x', c'.flights[g]? = some x' ∧ Evolves x x' := by
    intro g x hx
    rw [hget]
    split
    case isTrue heq =>
      subst heq
      rw [hflight] at hx
      cases hx
      exact ⟨_, rfl, hevolves⟩
    · exact ⟨x, hx, .refl x⟩
  refine H.update hpc (H.others (by rw [hown]; exact howns)) ?_ (hself (by rw [hget, if_pos rfl]))
    ?_ ?_ ?_ ?_
  · intro j hji
    refine (H.relies j).mono (fun _ => h.gate) ?_ ?_ ?_ ?_
    · intro g hg
      rw [hget, if_neg]
      rintro rfl
      exact hji (H.unique j i f hg hown)
    · intro g x hx
      obtain ⟨x', hx', hle⟩ := hgrown g x hx
      exact ⟨x', hx', hle.notify⟩
    · intro e he
      rwa [hproduced]
    · intro g result _ hr
      rwa [hproduced] at hr
  · intro g x hx
    rw [hget] at hx
    split at hx
    case isTrue heq =>
      cases hx
      subst heq
      exact ⟨hsound.cancelled, hsound.notified, by rw [hproduced]; exact hsound.produced⟩
    · obtain ⟨hcancelled, hnotified, hresult⟩ := H.flight g x hx
      exact ⟨hcancelled, hnotified, by rw [hproduced]; exact hresult⟩
  · intro e he
    rw [hproduced] at he
    have hlen : c'.flights.length = c.flights.length := by
      rw [h.flights]
      exact List.length_modify _ _ _
    rw [hlen]
    exact H.known e he
  · rw [hproduced]
    exact H.once
  · intro e he
    have hfollowed : c'.history.followed = c.history.followed := h.followed
    rw [hfollowed] at he
    exact (H.followed e he).mono hgrown

/-- Without a usable flight behind the gate there is no leader. -/
theorem FlightsSound.leads_none (H : c.FlightsSound)
    (hfree : ∀ f flight, c.refreshGate = some f → c.flights[f]? = some flight →
      flight.cancelled = true) (j : ℕ) : (c.pc j).leads = none := by
  cases hleads : (c.pc j).leads with
  | none => rfl
  | some f =>
      have hlt := (H.relies j).lt (ClientPc.owns_of_leads hleads)
      have hflight := List.getElem?_eq_getElem hlt
      have hcancelled := hfree f _ ((H.relies j).gate hleads) hflight
      rw [(H.relies j).not_cancelled hleads hflight] at hcancelled
      cases hcancelled

/-- A new leader finds no other one. -/
theorem FlightsSound.elects (H : c.FlightsSound) {k : RefreshCaller}
    (hfree : ∀ f flight, c.refreshGate = some f → c.flights[f]? = some flight →
      flight.cancelled = true)
    (hpc : c'.pc = Function.update c.pc i (.leading k c.flights.length))
    (hflights : c'.flights = c.flights ++ [newRefreshFlight])
    (hgate : c'.refreshGate = some c.flights.length)
    (hproduced : c'.history.produced = c.history.produced)
    (hfollowed : c'.history.followed = c.history.followed) : c'.FlightsSound := by
  have hold {f : ℕ} (hlt : f < c.flights.length) : c'.flights[f]? = c.flights[f]? := by
    rw [hflights, List.getElem?_append_left hlt]
  have hgrown : ∀ (g : ℕ) (x : RefreshFlight), c.flights[g]? = some x →
      c'.flights[g]? = some x := by
    intro g x hx
    rw [hold (List.getElem?_eq_some_iff.mp hx).1, hx]
  refine H.update hpc ?_ ?_ ⟨hgate, ?_, ?_⟩ ?_ ?_ (by rw [hproduced]; exact H.once) ?_
  · rintro f ⟨⟩ j - hj
    exact Nat.lt_irrefl _ ((H.relies j).lt hj)
  · intro j _
    refine (H.relies j).mono (fun h => absurd (H.leads_none hfree j) h) ?_ ?_ ?_ ?_
    · intro f hf
      exact hold ((H.relies j).lt hf)
    · intro g x hx
      exact ⟨x, hgrown g x hx, Nat.le_refl _⟩
    · intro e he
      rwa [hproduced]
    · intro g result _ hr
      rwa [hproduced] at hr
  · rw [hflights, List.getElem?_concat_length]
  · intro result hr
    rw [hproduced] at hr
    exact Nat.lt_irrefl _ (H.known _ hr)
  · intro f flight hflight
    by_cases hlt : f < c.flights.length
    · rw [hold hlt] at hflight
      obtain ⟨hcancelled, hnotified, hresult⟩ := H.flight f flight hflight
      exact ⟨hcancelled, hnotified, by rw [hproduced]; exact hresult⟩
    · rw [hflights, List.getElem?_append_right (Nat.le_of_not_lt hlt),
        List.getElem?_singleton] at hflight
      obtain ⟨-, heq⟩ := Option.ite_none_right_eq_some.mp hflight
      cases heq
      exact ⟨fun _ => rfl, fun h => absurd h (Nat.lt_irrefl _), fun _ h => by cases h⟩
  · intro e he
    rw [hproduced] at he
    rw [hflights, List.length_append]
    exact Nat.lt_add_right _ (H.known e he)
  · intro e he
    rw [hfollowed] at he
    exact (H.followed e he).mono fun g x hx => ⟨x, hgrown g x hx, .refl x⟩

/-- The refresh of a leader returns a result. -/
theorem FlightsSound.produces (H : c.FlightsSound) {k : RefreshCaller} {f : ℕ}
    {result : Except HttpError TokenPair} (hp : c.pc i = .leading k f)
    (hpc : c'.pc = Function.update c.pc i (.recording k f result))
    (hflights : c'.flights = c.flights) (hgate : c'.refreshGate = c.refreshGate)
    (hproduced : c'.history.produced = c.history.produced ++ [(f, result)])
    (hfollowed : c'.history.followed = c.history.followed) : c'.FlightsSound := by
  have hi := H.relies i
  rw [hp] at hi
  obtain ⟨hg, hflight, hfirst⟩ := hi
  have hmem : ∀ e ∈ c.history.produced, e ∈ c'.history.produced := by
    intro e he
    rw [hproduced]
    exact List.mem_append_left _ he
  have hcases {g : ℕ} {r : Except HttpError TokenPair} (h : (g, r) ∈ c'.history.produced) :
      (g, r) ∈ c.history.produced ∨ (g = f ∧ r = result) := by
    rw [hproduced] at h
    rcases List.mem_append.mp h with h | h
    · exact .inl h
    · cases List.mem_singleton.mp h
      exact .inr ⟨rfl, rfl⟩
  refine H.update hpc (H.others (.inr (by rw [hp]; rfl))) ?_ ⟨hgate.trans hg, ?_, ?_⟩ ?_ ?_ ?_ ?_
  · intro j hji
    refine (H.relies j).mono (fun _ => hgate) (fun g _ => by rw [hflights]) ?_ hmem ?_
    · intro g x hx
      exact ⟨x, by rw [hflights, hx], Nat.le_refl _⟩
    · intro g r hleads hr
      rcases hcases hr with hr | ⟨rfl, -⟩
      · exact hr
      · exact absurd (H.unique j i _ (ClientPc.owns_of_leads hleads) (by rw [hp]; rfl)) hji
  · rw [hflights, hflight]
  · rw [hproduced]
    exact List.mem_append_right _ (List.mem_singleton_self _)
  · intro g x hx
    rw [hflights] at hx
    obtain ⟨hcancelled, hnotified, hresult⟩ := H.flight g x hx
    exact ⟨hcancelled, hnotified, fun r hr => hmem _ (hresult r hr)⟩
  · rintro ⟨g, r⟩ he
    rw [hflights]
    rcases hcases he with he | ⟨rfl, -⟩
    · exact H.known _ he
    · exact (List.getElem?_eq_some_iff.mp hflight).1
  · intro g r r' hr hr'
    rcases hcases hr with hr | ⟨rfl, rfl⟩
    · rcases hcases hr' with hr' | ⟨rfl, rfl⟩
      · exact H.once g r r' hr hr'
      · exact absurd hr (hfirst r)
    · rcases hcases hr' with hr' | ⟨-, rfl⟩
      · exact absurd hr' (hfirst r')
      · rfl
  · intro e he
    rw [hfollowed] at he
    exact (H.followed e he).mono fun g x hx => ⟨x, by rw [hflights, hx], .refl x⟩

/-- A follower returns. -/
theorem FlightsSound.collects (H : c.FlightsSound) {f : ℕ} {flight : RefreshFlight}
    {result : Except HttpError TokenPair} {p : ClientPc} (hp : (c.pc i).follows = some f)
    (hflight : c.flights[f]? = some flight) (hresult : Collects flight (c.pc i) result)
    (hpc : c'.pc = Function.update c.pc i p) (hto : p.flight = none)
    (hflights : c'.flights = c.flights) (hgate : c'.refreshGate = c.refreshGate)
    (hproduced : c'.history.produced = c.history.produced)
    (hfollowed : c'.history.followed = c.history.followed ++ [(f, result)]) :
    c'.FlightsSound := by
  -- The step as one that only moves the task, observed afterwards.
  let d : ApiClient := { c' with history := { c'.history with followed := c.history.followed } }
  have hstill : Still c d := ⟨hflights, hgate, hproduced, rfl⟩
  have hd : d.FlightsSound :=
    H.still hstill hpc (.inl (ClientPc.owns_of_flight hto)) (relies_of_flight hto)
  refine ⟨hd.unique, hd.relies, ?_, hd.known, hd.once, ?_⟩
  · intro g x hx
    obtain ⟨hcancelled, hnotified, hproduced⟩ := hd.flight g x hx
    exact ⟨hcancelled, hnotified, hproduced⟩
  intro e he
  rw [hfollowed] at he
  rcases List.mem_append.mp he with he | he
  · exact hd.followed e he
  · obtain rfl := List.mem_singleton.mp he
    refine ⟨flight, by rw [hflights, hflight], ?_⟩
    have hsound := H.flight f flight hflight
    rcases hresult with hresult | ⟨hexpired, hcancelled | ⟨hwoken, hnone⟩⟩
    · exact .inl hresult
    · exact .inr ⟨hexpired, hcancelled, hsound.cancelled hcancelled⟩
    · -- A woken follower that finds no result has a cancelled leader.
      refine .inr ⟨hexpired, ?_, hnone⟩
      cases hpi : c.pc i with
      | collecting k g =>
          have hrelies := H.relies i
          rw [hpi] at hrelies hp
          cases hp
          obtain ⟨flight', hflight', hpos⟩ := hrelies
          rw [hflight] at hflight'
          cases hflight'
          exact (hsound.notified hpos).resolve_right (by simp [hnone])
      | _ => rw [hpi] at hwoken; cases hwoken

/-- **Every step keeps the invariant of the singleflight.** -/
theorem flightsSound_step (H : c.FlightsSound) (h : c.step env a = some c') :
    c'.FlightsSound := by
  cases step_cases h with
  | inner hpc hs =>
      refine H.still (i := a.task) hs (p := c.pc a.task) ?_ (.inr rfl) (H.relies _)
      rw [hpc, Function.update_eq_self]
  | plain p hpc hfrom hto hs =>
      exact H.still hs hpc (.inl (ClientPc.owns_of_flight hto)) (relies_of_flight hto)
  | elects k ha hp hfree hpc hflights hgate hwork hproduced hfollowed =>
      exact H.elects hfree hpc hflights hgate hproduced hfollowed
  | joins k f flight hp hgate hflight hcancelled hpc hs => exact H.still hs hpc (.inl rfl) trivial
  | produces k f result hp hpc hflights hgate hproduced hfollowed =>
      exact H.produces hp hpc hflights hgate hproduced hfollowed
  | records k f result hp hpc hs =>
      have hrelies := H.relies a.task
      rw [hp] at hrelies
      obtain ⟨hg, hflight, hmem⟩ := hrelies
      refine H.set hs hpc (by rw [hp]; rfl) (.inr rfl) hflight ?_ ?_ ?_
      · exact ⟨fun h => absurd rfl h, Nat.le_refl _, fun h => by cases h⟩
      · refine ⟨(fun h => by cases h), (fun h => absurd h (Nat.lt_irrefl _)), ?_⟩
        rintro r ⟨⟩
        exact hmem
      · intro hflight'
        exact ⟨hs.gate.trans hg, hflight'⟩
  | wakes k f result hp hpc hs =>
      have hrelies := H.relies a.task
      rw [hp] at hrelies
      obtain ⟨hg, hflight⟩ := hrelies
      have hsound := H.flight f _ hflight
      refine H.set hs hpc (by rw [hp]; rfl) (.inr rfl) hflight ?_ ?_ ?_
      · exact ⟨fun _ => rfl, Nat.le_succ _, fun h => by cases h⟩
      · exact ⟨hsound.cancelled, fun _ => .inr (by simp), hsound.produced⟩
      · intro hflight'
        exact ⟨hs.gate.trans hg, hflight'⟩
  | leaves k f result p hp hpc hto hs =>
      have hrelies := H.relies a.task
      rw [hp] at hrelies
      -- The gate is taken from no other leader.
      have hgate : (c.leaveGate f).refreshGate = none := by
        unfold leaveGate
        rw [if_pos hrelies.1]
      have hnone (j : ℕ) (hj : j ≠ a.task) : (c.pc j).leads = none := by
        cases hleads : (c.pc j).leads with
        | none => rfl
        | some g =>
            have hg := (H.relies j).gate hleads
            rw [hrelies.1] at hg
            cases hg
            exact absurd (H.unique j _ f (ClientPc.owns_of_leads hleads) (by rw [hp]; rfl)) hj
      have hsame : (c.leaveGate f).flights = c.flights ∧
          (c.leaveGate f).history = c.history := by
        unfold leaveGate
        split <;> exact ⟨rfl, rfl⟩
      have hflights : c'.flights = c.flights := hs.flights.trans hsame.1
      have hproduced : c'.history.produced = c.history.produced := by rw [hs.produced, hsame.2]
      have hfollowed : c'.history.followed = c.history.followed := by rw [hs.followed, hsame.2]
      refine H.update hpc (H.others (.inl (ClientPc.owns_of_flight hto))) ?_
        (relies_of_flight hto) ?_ ?_ ?_ ?_
      · intro j hj
        refine (H.relies j).mono (fun h => absurd (hnone j hj) h) (fun g _ => by rw [hflights]) ?_
          (fun e he => by rwa [hproduced]) (fun g r _ hr => by rwa [hproduced] at hr)
        intro g x hx
        exact ⟨x, by rw [hflights, hx], Nat.le_refl _⟩
      · intro g x hx
        rw [hflights] at hx
        obtain ⟨hcancelled, hnotified, hresult⟩ := H.flight g x hx
        exact ⟨hcancelled, hnotified, by rw [hproduced]; exact hresult⟩
      · rw [hproduced, hflights]
        exact H.known
      · rw [hproduced]
        exact H.once
      · intro e he
        rw [hfollowed] at he
        exact (H.followed e he).mono fun g x hx => ⟨x, by rw [hflights, hx], .refl x⟩
  | abandons k f result content ha hp hpc hs => exact H.still hs hpc (.inl rfl) trivial
  | drops k f hp hpc hs =>
      have hrelies := H.relies a.task
      refine H.still hs hpc (.inr ?_) ?_
      · rcases hp with hp | ⟨result, hp⟩ <;> rw [hp] <;> rfl
      · rcases hp with hp | ⟨result, hp⟩
        · rw [hp] at hrelies
          exact ⟨hrelies.1, hrelies.2.1⟩
        · rw [hp] at hrelies
          exact ⟨hrelies.1, hrelies.2.1⟩
  | flags f hp hpc hs =>
      have hrelies := H.relies a.task
      rw [hp] at hrelies
      refine H.set hs hpc (by rw [hp]; rfl) (.inr rfl) hrelies.2 ?_ ?_ ?_
      · exact ⟨fun h => absurd rfl h, Nat.le_refl _, fun h => by cases h⟩
      · exact ⟨fun _ => rfl, fun _ => .inl rfl, fun _ h => by cases h⟩
      · exact fun hflight' => hflight'
  | rouses f hp hpc hs =>
      have hrelies := H.relies a.task
      rw [hp] at hrelies
      refine H.set hs hpc (by rw [hp]; rfl) (.inl rfl) hrelies ?_ ?_ (fun _ => trivial)
      · exact ⟨fun _ => rfl, Nat.le_succ _, fun _ => ⟨rfl, rfl⟩⟩
      · exact ⟨fun _ => rfl, fun _ => .inl rfl, fun _ h => by cases h⟩
  | watches f flight p hp hflight hpc hto hwoken hs =>
      refine H.still hs hpc (.inl (ClientPc.owns_of_follows hto)) ?_
      cases p with
      | collecting k g =>
          cases hto
          exact ⟨flight, hflight, hwoken rfl⟩
      | joined | checking | peeking | waiting => trivial
      | _ => cases hto
  | collects f flight result p hp hflight hresult hpc hto hflights hgate hproduced hfollowed =>
      exact H.collects hp hflight hresult hpc hto hflights hgate hproduced hfollowed

theorem flightsSound_new (persisted : Option TokenPair) :
    (withTransport persisted).FlightsSound where
  unique _ _ _ h := by cases h
  relies _ := trivial
  flight _ _ h := by cases h
  known _ h := by cases h
  once _ _ _ h := by cases h
  followed _ h := by cases h

/-- What a follower returned was produced by its leader, or its leader was
cancelled without recording a result. -/
theorem FlightsSound.produced_of_followed (H : c.FlightsSound)
    {e : ℕ × Except HttpError TokenPair} (he : e ∈ c.history.followed) :
    e ∈ c.history.produced ∨ (e.2 = .error .authExpired ∧ ∃ flight,
      c.flights[e.1]? = some flight ∧ flight.cancelled = true ∧ flight.result = none) := by
  obtain ⟨flight, hflight, hresult | ⟨hexpired, hcancelled, hnone⟩⟩ := H.followed e he
  · exact .inl ((H.flight _ _ hflight).produced _ hresult)
  · exact .inr ⟨hexpired, flight, hflight, hcancelled, hnone⟩

/-- Whose refresh is under way leads a flight. -/
theorem WorkSound.leads (W : c.WorkSound)
    (h : (c.credentials.tasks.pc i).ofRefresh = true) : ∃ f, (c.pc i).leads = some f := by
  have hrefreshes := W.refreshing i h
  revert hrefreshes
  cases c.pc i with
  | leading k f => exact fun _ => ⟨f, rfl⟩
  | _ => exact fun h => by cases h

/-- There is one leader at a time. -/
theorem FlightsSound.leads_unique (H : c.FlightsSound) {j f g : ℕ}
    (hi : (c.pc i).leads = some f) (hj : (c.pc j).leads = some g) : i = j := by
  have hgate := (H.relies i).gate hi
  rw [(H.relies j).gate hj] at hgate
  cases hgate
  exact H.unique i j f (ClientPc.owns_of_leads hi) (ClientPc.owns_of_leads hj)

/-- Only the leader behind the gate refreshes. -/
theorem FlightsSound.refresh_unique (H : c.FlightsSound) (W : c.WorkSound) {j : ℕ}
    (hi : (c.credentials.tasks.pc i).ofRefresh = true)
    (hj : (c.credentials.tasks.pc j).ofRefresh = true) : i = j := by
  obtain ⟨f, hf⟩ := W.leads hi
  obtain ⟨g, hg⟩ := W.leads hj
  exact H.leads_unique hf hg

/-- A follower follows its flight until it returns with a result. -/
theorem resume_follower {f : ℕ} (hf : (c.pc i).follows = some f)
    (h : c.step env (.resume i) = some c') :
    (c'.pc i).follows = some f ∨ ∃ k result, c.follow env i k f result = some c' := by
  have hresume : ∃ flight, c.resumeFollower env i flight (c.pc i) = some c' := by
    simp only [step, resume] at h
    cases hp : c.pc i with
    | joined | checking | peeking | waiting | collecting =>
        simp only [hp] at h
        obtain ⟨flight, -, h⟩ := Option.bind_eq_some_iff.mp h
        exact ⟨flight, h⟩
    | _ => rw [hp] at hf; cases hf
  obtain ⟨flight, h⟩ := hresume
  have going {p : ClientPc} (hp : p.follows = some f) (h : some (c.goto i p) = some c') :
      (c'.pc i).follows = some f := by
    cases h
    simpa [goto] using hp
  cases hp : c.pc i with
  | joined k g =>
      rw [hp] at h hf
      cases hf
      exact .inl (going rfl h)
  | checking k g seen =>
      rw [hp] at h hf
      cases hf
      simp only [resumeFollower] at h
      split at h
      · exact .inr ⟨k, _, h⟩
      · exact .inl (going rfl h)
  | peeking k g seen =>
      rw [hp] at h hf
      cases hf
      simp only [resumeFollower] at h
      split at h
      · exact .inr ⟨k, _, h⟩
      · exact .inl (going rfl h)
  | waiting k g seen =>
      rw [hp] at h hf
      cases hf
      obtain ⟨-, h⟩ := Option.ite_none_right_eq_some.mp h
      exact .inl (going rfl h)
  | collecting k g =>
      rw [hp] at h hf
      cases hf
      exact .inr ⟨k, _, h⟩
  | _ => rw [hp] at hf; cases hf

/-- Both invariants hold along every run. -/
theorem sound_exec {persisted : Option TokenPair} {actions : List (ClientAction Response)}
    (hrun : exec (ApiClient.step env) (withTransport persisted) actions = some c) :
    c.FlightsSound ∧ c.WorkSound := by
  refine invariant (I := fun c => c.FlightsSound ∧ c.WorkSound) ?_
    ⟨flightsSound_new persisted, workSound_new persisted⟩ hrun
  rintro d b d' ⟨hflights, hwork⟩ hstep
  exact ⟨flightsSound_step hflights hstep, workSound_step hwork hstep⟩

end ApiClient

/-- Two callers share one flight. -/
def sharedSchedule : List (ClientAction (Except HttpError RefreshResponse)) :=
  [ClientAction.call 0 .refresh, .call 1 .refresh, .resume 0, .resume 1, .resume 1] ++
    loading 0 true ++ rotating 0 "new" ++
    [ClientAction.resume 0, .resume 0, .resume 0, .resume 1, .resume 1]

namespace ApiClient

variable {Response : Type} {env : ClientEnv Response} {c c' d : ApiClient} {i : ℕ}
  {a : ClientAction Response}

theorem leads_of_flight {p : ClientPc} (h : p.flight = none) : p.leads = none := by
  cases p <;> first | rfl | cases h

theorem follows_of_flight {p : ClientPc} (h : p.flight = none) : p.follows = none := by
  cases p <;> first | rfl | cases h

theorem leads_of_follows {p : ClientPc} {f : ℕ} (h : p.follows = some f) : p.leads = none := by
  cases p <;> first | rfl | cases h

/-- How the roles of the tasks change in a step. -/
structure Roles (c c' : ApiClient) : Prop where
  grows : c.flights.length ≤ c'.flights.length
  /-- A task comes to lead new flights only. -/
  leads : ∀ j f, (c'.pc j).leads = some f → (c.pc j).leads = some f ∨ f = c.flights.length
  /-- A task comes to follow the flight behind the gate only. -/
  follows : ∀ j f, (c'.pc j).follows = some f → (c.pc j).follows = some f ∨
    ∃ flight, c.refreshGate = some f ∧ c.flights[f]? = some flight ∧ flight.cancelled = false

theorem Roles.update {p : ClientPc} (hpc : c'.pc = Function.update c.pc i p)
    (hgrows : c.flights.length ≤ c'.flights.length)
    (hleads : ∀ f, p.leads = some f → (c.pc i).leads = some f ∨ f = c.flights.length)
    (hfollows : ∀ f, p.follows = some f → (c.pc i).follows = some f ∨
      ∃ flight, c.refreshGate = some f ∧ c.flights[f]? = some flight ∧
        flight.cancelled = false) : Roles c c' := by
  refine ⟨hgrows, ?_, ?_⟩
  · intro j f hj
    by_cases hji : j = i
    · subst hji
      rw [hpc, Function.update_self] at hj
      exact hleads f hj
    · rw [hpc, Function.update_of_ne hji] at hj
      exact .inl hj
  · intro j f hj
    by_cases hji : j = i
    · subst hji
      rw [hpc, Function.update_self] at hj
      exact hfollows f hj
    · rw [hpc, Function.update_of_ne hji] at hj
      exact .inl hj

theorem length_setFlight (f : ℕ) (change : RefreshFlight → RefreshFlight) :
    (c.setFlight f change).flights.length = c.flights.length := List.length_modify _ _ _

theorem flights_leaveGate (f : ℕ) : (c.leaveGate f).flights = c.flights := by
  unfold leaveGate
  split <;> rfl

theorem roles_step (h : c.step env a = some c') : Roles c c' := by
  -- A task that goes on leading its flight, and one without a flight.
  have leader {p : ClientPc} {f : ℕ} (hpc : c'.pc = Function.update c.pc a.task p)
      (hfrom : (c.pc a.task).leads = some f) (hto : p.leads = some f) (hfree : p.follows = none)
      (hgrows : c.flights.length ≤ c'.flights.length) : Roles c c' := by
    refine .update hpc hgrows ?_ ?_
    · intro g hg
      rw [hto] at hg
      rw [hfrom]
      exact .inl hg
    · intro g hg
      rw [hfree] at hg
      cases hg
  have free {p : ClientPc} (hpc : c'.pc = Function.update c.pc a.task p) (hto : p.leads = none)
      (hfree : p.follows = none) (hgrows : c.flights.length ≤ c'.flights.length) :
      Roles c c' := by
    refine .update hpc hgrows ?_ ?_
    · intro g hg
      rw [hto] at hg
      cases hg
    · intro g hg
      rw [hfree] at hg
      cases hg
  cases step_cases h with
  | inner hpc hs =>
      refine ⟨Nat.le_of_eq (by rw [hs.flights]), ?_, ?_⟩
      · intro j f hj
        rw [hpc] at hj
        exact .inl hj
      · intro j f hj
        rw [hpc] at hj
        exact .inl hj
  | plain p hpc hfrom hto hs =>
      exact free hpc (leads_of_flight hto) (follows_of_flight hto)
        (Nat.le_of_eq (by rw [hs.flights]))
  | elects k ha hp hfree hpc hflights hgate hwork hproduced hfollowed =>
      refine .update hpc (by rw [hflights, List.length_append]; omega) ?_ ?_
      · rintro f ⟨⟩
        exact .inr rfl
      · rintro f ⟨⟩
  | joins k f flight hp hgate hflight hcancelled hpc hs =>
      refine .update hpc (Nat.le_of_eq (by rw [hs.flights])) ?_ ?_
      · rintro g ⟨⟩
      · rintro g ⟨⟩
        exact .inr ⟨flight, hgate, hflight, hcancelled⟩
  | produces k f result hp hpc hflights hgate hproduced hfollowed =>
      exact leader (f := f) hpc (by rw [hp]; rfl) rfl rfl (Nat.le_of_eq (by rw [hflights]))
  | records k f result hp hpc hs =>
      exact leader (f := f) hpc (by rw [hp]; rfl) rfl rfl
        (Nat.le_of_eq (by rw [hs.flights, length_setFlight]))
  | wakes k f result hp hpc hs =>
      exact leader (f := f) hpc (by rw [hp]; rfl) rfl rfl
        (Nat.le_of_eq (by rw [hs.flights, length_setFlight]))
  | leaves k f result p hp hpc hto hs =>
      exact free hpc (leads_of_flight hto) (follows_of_flight hto)
        (Nat.le_of_eq (by rw [hs.flights, flights_leaveGate]))
  | abandons k f result content ha hp hpc hs =>
      exact free hpc rfl rfl (Nat.le_of_eq (by rw [hs.flights]))
  | drops k f hp hpc hs =>
      refine leader (f := f) hpc ?_ rfl rfl (Nat.le_of_eq (by rw [hs.flights]))
      rcases hp with hp | ⟨result, hp⟩
      · rw [hp]
        rfl
      · rw [hp]
        rfl
  | flags f hp hpc hs =>
      exact free hpc rfl rfl (Nat.le_of_eq (by rw [hs.flights, length_setFlight]))
  | rouses f hp hpc hs =>
      exact free hpc rfl rfl (Nat.le_of_eq (by rw [hs.flights, length_setFlight]))
  | watches f flight p hp hflight hpc hto hwoken hs =>
      refine .update hpc (Nat.le_of_eq (by rw [hs.flights])) ?_ ?_
      · intro g hg
        rw [leads_of_follows hto] at hg
        cases hg
      · intro g hg
        rw [hto] at hg
        rw [hp]
        exact .inl hg
  | collects f flight result p hp hflight hresult hpc hto hflights hgate hproduced hfollowed =>
      exact free hpc (leads_of_flight hto) (follows_of_flight hto) (Nat.le_of_eq (by rw [hflights]))

/-- No leader is dropped while it waits for the gate to remove its flight. -/
def KeepsLeaving (c : ApiClient) (a : ClientAction Response) : Prop :=
  ∀ i content k f result, a = .cancel i content → c.pc i ≠ .leaving k f result

/-- A flight that can be joined has a leader. -/
structure Attended (c : ApiClient) : Prop where
  known : ∀ f, c.refreshGate = some f → f < c.flights.length
  led : ∀ (f : ℕ) (flight : RefreshFlight), c.refreshGate = some f →
    c.flights[f]? = some flight → flight.cancelled = false → ∃ i, (c.pc i).leads = some f

/-- A step of a task that leads no flight, or goes on leading its own. -/
theorem Attended.update (H : c.Attended) {p : ClientPc}
    (hpc : c'.pc = Function.update c.pc i p)
    (hleads : (c.pc i).leads = none ∨ p.leads = (c.pc i).leads)
    (hgate : c'.refreshGate = c.refreshGate) (hgrows : c.flights.length ≤ c'.flights.length)
    (hflights : ∀ (f : ℕ) (flight' : RefreshFlight), c'.flights[f]? = some flight' →
      flight'.cancelled = false → ∃ flight, c.flights[f]? = some flight ∧
        flight.cancelled = false) : c'.Attended := by
  constructor
  · intro f hf
    rw [hgate] at hf
    exact Nat.lt_of_lt_of_le (H.known f hf) hgrows
  intro f flight' hf hflight' hcancelled'
  rw [hgate] at hf
  obtain ⟨flight, hflight, hcancelled⟩ := hflights f flight' hflight' hcancelled'
  obtain ⟨j, hj⟩ := H.led f flight hf hflight hcancelled
  refine ⟨j, ?_⟩
  rw [hpc]
  by_cases hji : j = i
  · subst hji
    rw [Function.update_self]
    rcases hleads with hnone | hsame
    · rw [hnone] at hj
      cases hj
    · rw [hsame, hj]
  · rw [Function.update_of_ne hji, hj]

/-- A change of a flight that cancels nothing revives nothing. -/
theorem not_cancelled_setFlight {f g : ℕ} {change : RefreshFlight → RefreshFlight}
    {flight' : RefreshFlight}
    (hsame : ∀ flight, (change flight).cancelled = flight.cancelled)
    (hflight : (c.setFlight f change).flights[g]? = some flight')
    (hcancelled : flight'.cancelled = false) :
    ∃ flight, c.flights[g]? = some flight ∧ flight.cancelled = false := by
  have hget : (c.flights.modify f change)[g]? = some flight' := hflight
  rw [List.getElem?_modify] at hget
  obtain ⟨flight, hg, heq⟩ := Option.map_eq_some_iff.mp hget
  refine ⟨flight, hg, ?_⟩
  rw [← hcancelled, ← heq]
  split
  · exact (hsame flight).symm
  · rfl

/-- **Every flight that can be joined keeps its leader**, unless the leader is
dropped while it waits for the gate. -/
theorem attended_step (H : c.Attended) (S : c.FlightsSound) (hkeeps : c.KeepsLeaving a)
    (h : c.step env a = some c') : c'.Attended := by
  have hgrows := (roles_step h).grows
  have still {p : ClientPc} (hpc : c'.pc = Function.update c.pc a.task p)
      (hleads : (c.pc a.task).leads = none ∨ p.leads = (c.pc a.task).leads) (hs : Still c c') :
      c'.Attended := by
    refine H.update hpc hleads hs.gate hgrows ?_
    intro f flight' hflight' hcancelled'
    rw [hs.flights] at hflight'
    exact ⟨flight', hflight', hcancelled'⟩
  have set {p : ClientPc} {f : ℕ} {change : RefreshFlight → RefreshFlight}
      (hpc : c'.pc = Function.update c.pc a.task p)
      (hleads : (c.pc a.task).leads = none ∨ p.leads = (c.pc a.task).leads)
      (hs : Still (c.setFlight f change) c')
      (hsame : ∀ flight, (change flight).cancelled = flight.cancelled) : c'.Attended := by
    refine H.update hpc hleads hs.gate hgrows ?_
    intro g flight' hflight' hcancelled'
    rw [hs.flights] at hflight'
    exact not_cancelled_setFlight hsame hflight' hcancelled'
  cases step_cases h with
  | inner hpc hs =>
      exact still (p := c.pc a.task) (by rw [hpc, Function.update_eq_self]) (.inr rfl) hs
  | plain p hpc hfrom hto hs => exact still hpc (.inl hfrom) hs
  | elects k ha hp hfree hpc hflights hgate hwork hproduced hfollowed =>
      constructor
      · intro f hf
        rw [hgate] at hf
        cases hf
        rw [hflights, List.length_append]
        exact Nat.lt_succ_self _
      · intro f flight hf hflight hcancelled
        rw [hgate] at hf
        cases hf
        refine ⟨a.task, ?_⟩
        rw [hpc, Function.update_self]
        rfl
  | joins k f flight hp hgate hflight hcancelled hpc hs =>
      exact still hpc (.inl (by rw [hp]; rfl)) hs
  | produces k f result hp hpc hflights hgate hproduced hfollowed =>
      refine H.update hpc (.inr (by rw [hp]; rfl)) hgate hgrows ?_
      intro g flight' hflight' hcancelled'
      rw [hflights] at hflight'
      exact ⟨flight', hflight', hcancelled'⟩
  | records k f result hp hpc hs =>
      exact set hpc (.inr (by rw [hp]; rfl)) hs (fun _ => rfl)
  | wakes k f result hp hpc hs =>
      exact set hpc (.inr (by rw [hp]; rfl)) hs (fun _ => rfl)
  | leaves k f result p hp hpc hto hs =>
      have hrelies := S.relies a.task
      rw [hp] at hrelies
      have hgate : c'.refreshGate = none := by
        rw [hs.gate]
        unfold leaveGate
        rw [if_pos hrelies.1]
      constructor
      · intro g hg
        rw [hgate] at hg
        cases hg
      · intro g flight hg
        rw [hgate] at hg
        cases hg
  | abandons k f result content ha hp hpc hs =>
      exact absurd hp (hkeeps a.task content k f result ha)
  | drops k f hp hpc hs =>
      refine still hpc (.inr ?_) hs
      rcases hp with hp | ⟨result, hp⟩
      · rw [hp]
        rfl
      · rw [hp]
        rfl
  | flags f hp hpc hs =>
      -- The flight behind the gate is the one that was cancelled.
      have hrelies := S.relies a.task
      rw [hp] at hrelies
      constructor
      · intro g hg
        rw [hs.gate] at hg
        exact Nat.lt_of_lt_of_le (H.known g hg) hgrows
      · intro g flight hg hflight hcancelled
        rw [hs.gate] at hg
        cases hrelies.1.symm.trans hg
        rw [hs.flights, getElem?_setFlight _ hrelies.2, if_pos rfl] at hflight
        cases hflight
        cases hcancelled
  | rouses f hp hpc hs =>
      exact set hpc (.inl (by rw [hp]; rfl)) hs (fun _ => rfl)
  | watches f flight p hp hflight hpc hto hwoken hs =>
      exact still hpc (.inl (leads_of_follows hp)) hs
  | collects f flight result p hp hflight hresult hpc hto hflights hgate hproduced hfollowed =>
      refine H.update hpc (.inl (leads_of_follows hp)) hgate hgrows ?_
      intro g flight' hflight' hcancelled'
      rw [hflights] at hflight'
      exact ⟨flight', hflight', hcancelled'⟩

/-- Since a moment with `n` flights and no leader, leaders and new followers are
at later flights. -/
structure Later (n : ℕ) (start c : ApiClient) : Prop where
  grows : n ≤ c.flights.length
  leads : ∀ i f, (c.pc i).leads = some f → n ≤ f
  follows : ∀ i f, (start.pc i).follows = none → (c.pc i).follows = some f → n ≤ f

theorem later_step {n : ℕ} {start : ApiClient} (L : Later n start c) (H : c.Attended)
    (h : c.step env a = some c') : Later n start c' := by
  obtain ⟨hgrows, hleads, hfollows⟩ := roles_step h
  refine ⟨Nat.le_trans L.grows hgrows, ?_, ?_⟩
  · intro j f hj
    rcases hleads j f hj with hj | rfl
    · exact L.leads j f hj
    · exact L.grows
  · intro j f hstart hj
    rcases hfollows j f hj with hj | ⟨flight, hgate, hflight, hcancelled⟩
    · exact L.follows j f hstart hj
    · obtain ⟨i, hi⟩ := H.led f flight hgate hflight hcancelled
      exact L.leads i f hi

theorem attended_new (persisted : Option TokenPair) : (withTransport persisted).Attended where
  known _ h := by cases h
  led _ _ h := by cases h

/-- A task at the gate can always lead a new flight. -/
theorem lead_eq_some (W : c.WorkSound) {k : RefreshCaller} (hp : c.pc i = .refreshGate k) :
    ∃ c', c.lead env i k = some c' ∧ c'.pc i = .leading k c.flights.length ∧
      c'.credentials.tasks.pc i = .loadGate true ∧
      c'.flights = c.flights ++ [newRefreshFlight] := by
  have hrest := W.resting i (by rw [hp]; rfl)
  simp only [lead, begin, CredentialState.start_of_resting hrest, Option.map_some]
  refine ⟨_, rfl, ?_, ?_, rfl⟩
  · simp [goto]
  · exact CredentialState.pc_goto _

/-- A caller that passes the gate while no flight is led leads a new one. -/
theorem leads_of_attended (H : c.Attended) (W : c.WorkSound) {k : RefreshCaller}
    (hfree : ∀ j, (c.pc j).leads = none) (hp : c.pc i = .refreshGate k) :
    ∃ c', c.step env (.resume i) = some c' ∧ c'.pc i = .leading k c.flights.length ∧
      c'.credentials.tasks.pc i = .loadGate true ∧
      c'.flights = c.flights ++ [newRefreshFlight] := by
  have hstep : c.step env (.resume i) = c.lead env i k := by
    simp only [step, resume, hp, enterFlight]
    cases hgate : c.refreshGate with
    | none => rfl
    | some f =>
        obtain ⟨flight, hflight⟩ : ∃ flight, c.flights[f]? = some flight :=
          ⟨_, List.getElem?_eq_getElem (H.known f hgate)⟩
        simp only [hflight]
        by_cases hcancelled : flight.cancelled = true
        · rw [if_pos hcancelled]
        · obtain ⟨j, hj⟩ := H.led f _ hgate hflight (by simpa using hcancelled)
          rw [hfree j] at hj
          cases hj
  rw [hstep]
  exact lead_eq_some W hp

end ApiClient

/-- **A finished flight is not reused**, if no leader is dropped while it waits
for the gate to remove its flight. Once the leader of every flight has returned or
been dropped, a caller that passes the gate leads a new flight and starts a
refresh; and from then on no caller follows one of the earlier flights, unless it
did so already. -/
theorem finished_flights_are_not_reused {Response : Type} (env : ClientEnv Response)
    (persisted : Option TokenPair) (before after : List (ClientAction Response))
    (c d : ApiClient)
    (hkeeps : Along (ApiClient.step env) ApiClient.KeepsLeaving (.withTransport persisted)
      (before ++ after))
    (hbefore : exec (ApiClient.step env) (.withTransport persisted) before = some c)
    (hafter : exec (ApiClient.step env) c after = some d)
    (hfree : ∀ j, (c.pc j).leads = none) :
    (∀ i k, c.pc i = .refreshGate k → ∃ c', c.step env (.resume i) = some c' ∧
      c'.pc i = .leading k c.flights.length ∧ c'.credentials.tasks.pc i = .loadGate true ∧
      c'.flights = c.flights ++ [newRefreshFlight]) ∧
    (∀ i f, (c.pc i).follows = none → (d.pc i).follows = some f → c.flights.length ≤ f) := by
  obtain ⟨hsound, hattended⟩ := invariant_along
    (I := fun c => (c.FlightsSound ∧ c.WorkSound) ∧ c.Attended)
    (fun s a t H hk h => ⟨⟨ApiClient.flightsSound_step H.1.1 h, ApiClient.workSound_step H.1.2 h⟩,
      ApiClient.attended_step H.2 H.1.1 hk h⟩)
    ⟨⟨ApiClient.flightsSound_new persisted, ApiClient.workSound_new persisted⟩,
      ApiClient.attended_new persisted⟩ hkeeps.of_append hbefore
  refine ⟨fun i k hp => ApiClient.leads_of_attended hattended hsound.2 hfree hp, ?_⟩
  have hstart : ApiClient.Later c.flights.length c c := by
    refine ⟨Nat.le_refl _, ?_, ?_⟩
    · intro i f hf
      rw [hfree i] at hf
      cases hf
    · intro i f hnone hf
      rw [hnone] at hf
      cases hf
  have hlater := invariant_along
    (I := fun e => (e.FlightsSound ∧ e.Attended) ∧ ApiClient.Later c.flights.length c e)
    (fun s a t H hk h => ⟨⟨ApiClient.flightsSound_step H.1.1 h,
      ApiClient.attended_step H.1.2 H.1.1 hk h⟩, ApiClient.later_step H.2 H.1.2 h⟩)
    ⟨⟨hsound.1, hattended⟩, hstart⟩ (hkeeps.after hbefore) hafter
  exact hlater.2.follows

/-- A test for `KeepsLeaving`. -/
def ApiClient.checkLeaving {Response : Type} (c : ApiClient) : ClientAction Response → Bool
  | .cancel i _ =>
      match c.pc i with
      | .leaving _ _ _ => false
      | _ => true
  | _ => true

theorem ApiClient.keepsLeaving_of_check {Response : Type} {c : ApiClient}
    {a : ClientAction Response} (h : c.checkLeaving a = true) : c.KeepsLeaving a := by
  rintro i content k f result rfl hp
  simp [checkLeaving, hp] at h

/-- The pair a call returned. -/
def ClientPc.returns : ClientPc → Option TokenPair
  | .returned (.ok (.tokens tokens)) => tokens
  | _ => none

/-- One refresh by a task, up to the moment where its leader waits for the gate. -/
def refreshSchedule (i : ℕ) (first : Bool) (name : String) :
    List (ClientAction (Except HttpError RefreshResponse)) :=
  [ClientAction.call i .refresh, .resume i] ++ loading i first ++ rotating i name ++
    [ClientAction.resume i, .resume i, .resume i]

/-- No task leads a flight if none of the first `n` does and no other one moved. -/
theorem ApiClient.leads_none_of_check {Response : Type} {env : ClientEnv Response}
    {persisted : Option TokenPair} {actions : List (ClientAction Response)} {c : ApiClient}
    (n : ℕ) (hrun : exec (ApiClient.step env) (.withTransport persisted) actions = some c)
    (htasks : ∀ a ∈ actions, a.task < n)
    (hcheck : ((List.range n).all fun j => (c.pc j).leads.isNone) = true) (j : ℕ) :
    (c.pc j).leads = none := by
  by_cases hj : j < n
  · have hnone := List.all_eq_true.mp hcheck j (List.mem_range.mpr hj)
    simpa using hnone
  · have hother : ∀ a ∈ actions, a.task ≠ j := by
      intro a ha heq
      exact hj (by rw [← heq]; exact htasks a ha)
    rw [ApiClient.pc_exec_of_ne hother hrun]
    rfl

/-- A call of `refresh` that waits for the gate. -/
def ClientPc.awaitsElection : ClientPc → Bool
  | .refreshGate .refresh => true
  | _ => false

theorem ClientPc.eq_of_awaitsElection {pc : ClientPc} (h : pc.awaitsElection = true) :
    pc = .refreshGate .refresh := by
  unfold ClientPc.awaitsElection at h
  split at h
  · rfl
  · cases h

theorem finished_flights_are_not_reused_second :
    ∃ c d, exec (ApiClient.step sampleClientEnv) (.withTransport (some (.sample "old")))
        (refreshSchedule 0 true "new" ++ [ClientAction.resume 0, .call 1 .refresh]) = some c ∧
      exec (ApiClient.step sampleClientEnv) c [ClientAction.resume 1] = some d ∧
      c.pc 1 = .refreshGate .refresh ∧
      ∃ c', c.step sampleClientEnv (.resume 1) = some c' ∧
        c'.pc 1 = .leading .refresh c.flights.length ∧
        c'.credentials.tasks.pc 1 = .loadGate true ∧
        c'.flights = c.flights ++ [newRefreshFlight] := by
  have hrun : (exec (ApiClient.step sampleClientEnv) (.withTransport (some (.sample "old")))
      (refreshSchedule 0 true "new" ++ [ClientAction.resume 0, .call 1 .refresh])).any (fun c =>
        (exec (ApiClient.step sampleClientEnv) c [ClientAction.resume 1]).isSome &&
        (c.pc 1).awaitsElection && (List.range 2).all fun j => (c.pc j).leads.isNone) = true := by
    decide +kernel
  obtain ⟨c, hc, h⟩ := (Option.any_eq_true _ _).mp hrun
  simp only [Bool.and_eq_true] at h
  obtain ⟨⟨hd, hp⟩, hleads⟩ := h
  obtain ⟨d, hd⟩ := Option.isSome_iff_exists.mp hd
  have hgate : c.pc 1 = .refreshGate .refresh := ClientPc.eq_of_awaitsElection hp
  refine ⟨c, d, hc, hd, hgate, ?_⟩
  refine (finished_flights_are_not_reused _ _ _ [ClientAction.resume 1] c d
    (along_of_check (fun _ _ => ApiClient.keepsLeaving_of_check) (by decide +kernel)) hc hd
    (ApiClient.leads_none_of_check 2 hc (by decide) hleads)).1 1 .refresh hgate

/-- A leader that is dropped while it waits for the gate leaves its finished flight
behind, and the next caller returns the result of that flight. -/
theorem abandoned_flight_is_reused :
    ∃ c d, exec (ApiClient.step sampleClientEnv) (.withTransport (some (.sample "old")))
        (refreshSchedule 0 true "new" ++ [ClientAction.cancel 0 none]) = some c ∧
      exec (ApiClient.step sampleClientEnv) c
        [ClientAction.call 1 .refresh, .resume 1, .resume 1, .resume 1, .resume 1] = some d ∧
      (∀ j, (c.pc j).leads = none) ∧ (c.pc 1).follows = none ∧
      d.flights.length = c.flights.length ∧ d.history.refreshes = c.history.refreshes ∧
      (d.pc 1).returns = some (.sample "new") := by
  have hrun : (exec (ApiClient.step sampleClientEnv) (.withTransport (some (.sample "old")))
      (refreshSchedule 0 true "new" ++ [ClientAction.cancel 0 none])).any (fun c =>
        (exec (ApiClient.step sampleClientEnv) c
          [ClientAction.call 1 .refresh, .resume 1, .resume 1, .resume 1, .resume 1]).any (fun d =>
            decide (d.flights.length = c.flights.length) &&
            decide (d.history.refreshes = c.history.refreshes) &&
            decide ((d.pc 1).returns = some (.sample "new"))) &&
        decide ((c.pc 1).follows = none) &&
        (List.range 1).all fun j => (c.pc j).leads.isNone) = true := by
    decide +kernel
  obtain ⟨c, hc, h⟩ := (Option.any_eq_true _ _).mp hrun
  simp only [Bool.and_eq_true] at h
  obtain ⟨⟨hd, hfollows⟩, hleads⟩ := h
  obtain ⟨d, hd, h⟩ := (Option.any_eq_true _ _).mp hd
  simp only [Bool.and_eq_true, decide_eq_true_eq] at h hfollows
  exact ⟨c, d, hc, hd, ApiClient.leads_none_of_check 1 hc (by decide) hleads, hfollows,
    h.1.1, h.1.2, h.2⟩

end ZephyrVox.Http
