import ZephyrVox.Lib.History
import ZephyrVox.Http.Client
import ZephyrVox.Http.Request

/-!
# The authenticated retry

`send_request` with an access token: the request is sent with the token of the active
pair; if it is answered with 401 and may be retried, the client refreshes the token unless
another one has become active, and sends the request once more with the token that is
active then. The calls run in one `ApiClient`, so between any two steps of a call
credentials may change and other calls may run.

## Main definitions

* `HttpRequest.withAccessToken` — set the authorization header.
* `RequestCall` — a protected request, and what its call did so far.
* `Requests` — a client with the requests of its tasks.
* `Lawful` — when a call may transmit its request, and when it may refresh.
* `authenticated_retry` — every call of every run keeps to it.
-/

namespace ZephyrVox.Http

open Transition History HttpRequest

variable {U Response : Type}

/-! ## Requests with an access token -/

/-- The value of the authorization header. -/
def bearerHeader (token : AccessToken) : String := "Bearer " ++ token.asStr

/-- Set the authorization header. -/
def HttpRequest.withAccessToken (request : HttpRequest U) (token : AccessToken) :
    Except HttpError (HttpRequest U) :=
  request.setHeader AUTHORIZATION (bearerHeader token)

/-- A client whose requests can be built if the token can stand in a header. -/
def requestEnv (refresh : RefreshEnv Response)
    (logoutRequest : RefreshToken → Except HttpError Unit) :
    ClientEnv Response where
  toRefreshEnv := refresh
  bearer token := ((HttpRequest.new .get ()).withAccessToken token).map fun _ => ()
  logoutRequest := logoutRequest

/-- What the call of a protected request did. -/
inductive RequestEvent (U : Type)
  /-- `load_credentials` read the active pair. -/
  | loaded (active : Option TokenPair)
  | transmitted (request : HttpRequest U)
  | answered (status : ℕ)
  /-- `refresh_access` was called. -/
  | refreshed

def RequestEvent.transmission : RequestEvent U → Option (HttpRequest U)
  | .transmitted request => some request
  | _ => none

def RequestEvent.status : RequestEvent U → Option ℕ
  | .answered status => some status
  | _ => none

def RequestEvent.refresh : RequestEvent U → Option Unit
  | .refreshed => some ()
  | _ => none

/-- The requests transmitted so far. -/
def transmissions (log : List (RequestEvent U)) : List (HttpRequest U) :=
  log.filterMap RequestEvent.transmission

/-- The statuses received so far. -/
def statuses (log : List (RequestEvent U)) : List ℕ := log.filterMap RequestEvent.status

/-- The refreshes started so far. -/
def refreshes (log : List (RequestEvent U)) : List Unit := log.filterMap RequestEvent.refresh

/-- A protected request, and what its call did so far. -/
structure RequestCall (U : Type) where
  /-- The request that the call was given. -/
  built : HttpRequest U
  /-- The request as the call has it now. -/
  request : HttpRequest U
  retryOnce : Bool
  log : List (RequestEvent U)

namespace RequestCall

def new (request : HttpRequest U) (retryOnce : Bool) : RequestCall U :=
  ⟨request, request, retryOnce, []⟩

def record (call : RequestCall U) (event : RequestEvent U) : RequestCall U :=
  { call with log := call.log ++ [event] }

/-- Set the authorization header and send the request. -/
def transmit (call : RequestCall U) (token : AccessToken) : RequestCall U :=
  match call.request.withAccessToken token with
  | .ok request => { call with request := request }.record (.transmitted request)
  | .error _ => call

/-- The part of a call in a step of its task, which goes on at `next`. -/
def observe (call : RequestCall U) (c : ApiClient) (a : ClientAction Response) (next : ClientPc) :
    RequestCall U :=
  match a with
  | .credential _ =>
      match c.credentials.tasks.pc a.task with
      | .loadRead false => call.record (.loaded c.credentials.active)
      | _ => call
  | .respond _ (.status (.ok status)) => call.record (.answered status)
  | .resume i =>
      match c.pc i, next with
      | .requestLoad _, .requestSend _ token => call.transmit token
      | .retryLoad, .retrySend token => call.transmit token
      | .requestCheck _, .refreshGate _ => call.record .refreshed
      | _, _ => call
  | _ => call

theorem observe_answered {Response : Type} (call : RequestCall U) (c : ApiClient) (i status : ℕ)
    (next : ClientPc) :
    call.observe c (.respond i (.status (.ok status)) : ClientAction Response) next =
      call.record (.answered status) := rfl

end RequestCall

/-! ## Runs -/

/-- A client with the protected requests of its tasks. -/
structure Requests (U : Type) where
  client : ApiClient
  calls : ℕ → Option (RequestCall U)

/-- What happens next. -/
inductive RequestAction (U Response : Type)
  /-- A task sends a protected request. -/
  | send (task : ℕ) (retryOnce : Bool) (request : HttpRequest U)
  /-- Anything else that the client does. -/
  | other (a : ClientAction Response)

namespace Requests

/-- No calls yet. -/
def withTransport (persisted : Option TokenPair) : Requests U :=
  ⟨.withTransport persisted, fun _ => none⟩

/-- One step of one task. -/
def step (env : ClientEnv Response) (s : Requests U) :
    RequestAction U Response → Option (Requests U)
  | .send i retryOnce request =>
      (s.client.step env (.call i (.request retryOnce))).map fun client =>
        ⟨client, Function.update s.calls i (some (.new request retryOnce))⟩
  | .other (.call i op) =>
      if op.isRequest then none
      else (s.client.step env (.call i op)).map fun client =>
        ⟨client, Function.update s.calls i none⟩
  | .other a =>
      (s.client.step env a).map fun client =>
        ⟨client, Function.update s.calls a.task
          ((s.calls a.task).map fun call => call.observe s.client a (client.pc a.task))⟩

end Requests

/-! ## The law of a call -/

/-- The last thing the call did was to read the active pair, and the request carries its
access token. -/
def CarriesActive (before : List (RequestEvent U)) (request : HttpRequest U) : Prop :=
  ∃ pair, before.getLast? = some (.loaded (some pair)) ∧
    request.header AUTHORIZATION = some (bearerHeader pair.accessToken)

/-- When the call of the request `built` may go on with an event. -/
def Lawful (built : HttpRequest U) (retryOnce : Bool) (before : List (RequestEvent U)) :
    RequestEvent U → Prop
  | .loaded _ | .answered _ => True
  | .transmitted request =>
      SameBut AUTHORIZATION built request ∧ CarriesActive before request ∧
        (transmissions before = [] ∨ retryOnce = true ∧ statuses before = [401] ∧
          ∃ first, transmissions before = [first] ∧ SameBut AUTHORIZATION first request)
  | .refreshed =>
      refreshes before = [] ∧ retryOnce = true ∧ statuses before = [401] ∧
        ∃ first, transmissions before = [first] ∧ CarriesActive before first

@[simp] theorem transmissions_snoc (log : List (RequestEvent U)) (e : RequestEvent U) :
    transmissions (log ++ [e]) = transmissions log ++ e.transmission.toList := by
  cases e <;> simp [transmissions, RequestEvent.transmission]

@[simp] theorem statuses_snoc (log : List (RequestEvent U)) (e : RequestEvent U) :
    statuses (log ++ [e]) = statuses log ++ e.status.toList := by
  cases e <;> simp [statuses, RequestEvent.status]

@[simp] theorem refreshes_snoc (log : List (RequestEvent U)) (e : RequestEvent U) :
    refreshes (log ++ [e]) = refreshes log ++ e.refresh.toList := by
  cases e <;> simp [refreshes, RequestEvent.refresh]

/-- A lawful call transmits at most twice. -/
theorem length_transmissions_le {built : HttpRequest U} {retryOnce : Bool}
    {log : List (RequestEvent U)} (h : Justified (Lawful built retryOnce) log) :
    (transmissions log).length ≤ 2 := by
  refine h.length_filterMap_le fun before e request hlaw he => ?_
  cases e with
  | transmitted r =>
      obtain ⟨-, -, hnone | ⟨-, -, first, hfirst, -⟩⟩ := hlaw
      · rw [show before.filterMap RequestEvent.transmission = [] from hnone]
        simp
      · rw [show before.filterMap RequestEvent.transmission = [first] from hfirst]
        simp
  | _ => cases he

/-- A lawful call refreshes at most once. -/
theorem length_refreshes_le {built : HttpRequest U} {retryOnce : Bool}
    {log : List (RequestEvent U)} (h : Justified (Lawful built retryOnce) log) :
    (refreshes log).length ≤ 1 := by
  refine h.length_filterMap_le fun before e _ hlaw he => ?_
  cases e with
  | refreshed =>
      rw [show before.filterMap RequestEvent.refresh = [] from hlaw.1]
      decide
  | _ => cases he

/-! ## The stages of a call -/

/-- The call sent its request once, with the token `sent`. -/
structure RequestCall.Sent (call : RequestCall U) (sent : AccessToken) : Prop where
  transmitted : transmissions call.log = [call.request]
  header : call.request.header AUTHORIZATION = some (bearerHeader sent)

/-- The call sent its request once, and may repeat it. -/
structure RequestCall.Rejected (call : RequestCall U) : Prop where
  retryOnce : call.retryOnce = true
  transmitted : transmissions call.log = [call.request]
  answered : statuses call.log = [401]

/-- What a call has done when it stands at a counter. -/
def RequestCall.Stage (call : RequestCall U) : ClientPc → Prop
  | .requestLoad retryOnce =>
      retryOnce = call.retryOnce ∧ transmissions call.log = [] ∧ statuses call.log = [] ∧
        refreshes call.log = []
  | .requestSend retryOnce sent =>
      retryOnce = call.retryOnce ∧ call.Sent sent ∧ statuses call.log = [] ∧
        refreshes call.log = []
  | .requestCheck sent => call.Rejected ∧ call.Sent sent ∧ refreshes call.log = []
  | .refreshGate (.request _) | .leading (.request _) _ | .recording (.request _) _ _
  | .waking (.request _) _ _ | .leaving (.request _) _ _ | .joined (.request _) _
  | .checking (.request _) _ _ | .peeking (.request _) _ _ | .waiting (.request _) _ _
  | .collecting (.request _) _ | .retryLoad => call.Rejected
  | .retrySend _ | .returned _ | .idle | .dropping _ | .dropped _ => True
  | _ => False

/-- The counters at which a protected request loads the credentials. -/
def ClientPc.loads : ClientPc → Bool
  | .requestLoad _ | .requestCheck _ | .retryLoad => true
  | _ => false

/-- How far a load of the credentials is: once it has returned a pair, that is what the
call read last. -/
def RequestCall.Loading (call : RequestCall U) : CredentialPc → Prop
  | .loadGate false | .loadStore false | .loadWrite false _ | .loadRead false
  | .finished (.error _) => True
  | .finished (.ok tokens) => call.log.getLast? = some (.loaded tokens)
  | _ => False

/-- The invariant of a call. -/
structure RequestCall.Sound (call : RequestCall U) (p : ClientPc) (q : CredentialPc) : Prop where
  same : SameBut AUTHORIZATION call.built call.request
  lawful : Justified (Lawful call.built call.retryOnce) call.log
  stage : call.Stage p
  loading : p.loads = true → call.Loading q

namespace RequestCall

variable {call : RequestCall U} {p : ClientPc} {q : CredentialPc} {env : ClientEnv Response}
  {c c' : ApiClient} {a : ClientAction Response} {i : ℕ}

theorem sound_new (request : HttpRequest U) (retryOnce : Bool) :
    (new request retryOnce).Sound (.requestLoad retryOnce) (.loadGate false) where
  same := .refl _ _
  lawful := justified_nil
  stage := ⟨rfl, rfl, rfl, rfl⟩
  loading := fun _ => trivial

/-- A call that goes on to a counter it has done enough for. -/
theorem Sound.goto (H : call.Sound p q) {p' : ClientPc} {q' : CredentialPc} (hp' : call.Stage p')
    (hload : p'.loads = true → q' = .loadGate false) : call.Sound p' q' where
  same := H.same
  lawful := H.lawful
  stage := hp'
  loading := fun hl => by
    rw [hload hl]
    exact trivial

/-- A token that can stand in a header can be set on any request. -/
theorem withAccessToken_of_bearer {refresh : RefreshEnv Response}
    {logoutRequest : RefreshToken → Except HttpError Unit} {token : AccessToken}
    (h : (requestEnv refresh logoutRequest).bearer token = .ok ()) (request : HttpRequest U) :
    ∃ request', request.withAccessToken token = .ok request' := by
  apply (setHeader_isOk (.new .get ()) request AUTHORIZATION (bearerHeader token)).mp
  cases hset : (HttpRequest.new .get ()).setHeader AUTHORIZATION (bearerHeader token) with
  | ok request' => exact ⟨request', rfl⟩
  | error e => simp [requestEnv, HttpRequest.withAccessToken, hset, Except.map] at h

/-- The token of the pair that was read is the one that is set. -/
theorem authorize_ok {tokens : Option TokenPair} {token : AccessToken}
    (h : ApiClient.authorize env tokens = .ok token) :
    env.bearer token = .ok () ∧ ∃ pair, tokens = some pair ∧ pair.accessToken = token := by
  unfold ApiClient.authorize at h
  cases tokens with
  | none => cases h
  | some pair =>
      cases hbearer : env.bearer pair.accessToken with
      | error e => simp [hbearer] at h
      | ok =>
          simp only [hbearer, Except.ok.injEq] at h
          exact ⟨h ▸ hbearer, pair, rfl, h⟩

theorem begin_load {d : ApiClient} {p : ClientPc}
    (h : d.begin env i .loadCredentials p = some c') :
    c'.pc i = p ∧ c'.credentials.tasks.pc i = .loadGate false := by
  refine ⟨?_, CredentialState.pc_start (ApiClient.begin_eq_some h).1⟩
  rw [ApiClient.begin_pc h, Function.update_self]

/-- Reading the active pair is no progress of its own. -/
theorem Stage.loaded (h : call.Stage p) (active : Option TokenPair) :
    (call.record (.loaded active)).Stage p := by
  have ht : transmissions (call.record (.loaded active)).log = transmissions call.log := by
    simp [record, RequestEvent.transmission]
  have hs : statuses (call.record (.loaded active)).log = statuses call.log := by
    simp [record, RequestEvent.status]
  have hr : refreshes (call.record (.loaded active)).log = refreshes call.log := by
    simp [record, RequestEvent.refresh]
  have hrejected (h : call.Rejected) : (call.record (.loaded active)).Rejected :=
    ⟨h.retryOnce, by rw [ht]; exact h.transmitted, by rw [hs]; exact h.answered⟩
  have hsent {sent : AccessToken} (h : call.Sent sent) : (call.record (.loaded active)).Sent sent :=
    ⟨by rw [ht]; exact h.transmitted, h.header⟩
  unfold Stage at h ⊢
  split at h
  case h_1 => rwa [ht, hs, hr]
  case h_2 => rw [hs, hr]; exact ⟨h.1, hsent h.2.1, h.2.2⟩
  case h_3 => rw [hr]; exact ⟨hrejected h.1, hsent h.2.1, h.2.2⟩
  case h_20 => exact h
  all_goals first | exact hrejected h | exact trivial

/-! ## Loads of the credentials -/

/-- The step that reads the active pair returns it. -/
theorem loadRead_inner {env : RefreshEnv Response} {d d' : CredentialState}
    {b : CredentialAction Response} (hb : b.inner = true)
    (hread : d.tasks.pc b.task = .loadRead false) (h : d.step env b = some d') :
    d'.tasks.pc b.task = .finished (.ok d.active) := by
  cases b with
  | advance j =>
      simp only [CredentialAction.task] at hread ⊢
      simp only [CredentialState.step, CredentialState.advance, hread, Option.some.injEq] at h
      subst h
      simp [CredentialState.afterLoad]
  | store j outcome =>
      simp only [CredentialAction.task] at hread
      simp [CredentialState.step, CredentialState.storeReturns, hread] at h
  | respond j response =>
      simp only [CredentialAction.task] at hread
      simp [CredentialState.step, hread] at h
  | start | cancel => cases hb

/-- A load goes on, up to that step. -/
theorem Loading.inner {env : RefreshEnv Response} {d d' : CredentialState}
    {b : CredentialAction Response} (hload : call.Loading (d.tasks.pc b.task))
    (hb : b.inner = true) (hread : d.tasks.pc b.task ≠ .loadRead false)
    (h : d.step env b = some d') : call.Loading (d'.tasks.pc b.task) := by
  cases b with
  | advance j =>
      simp only [CredentialAction.task, CredentialState.step, CredentialState.advance] at *
      cases hpc : d.tasks.pc j with
      | loadGate refresh =>
          rw [hpc] at h hload
          cases refresh with
          | true => exact absurd hload id
          | false =>
              rw [CredentialState.pc_acquire h]
              split <;> trivial
      | loadWrite refresh tokens =>
          simp only [hpc, Option.some.injEq] at h hload
          subst h
          cases refresh with
          | true => exact absurd hload id
          | false => rw [CredentialState.pc_goto]; trivial
      | loadRead refresh =>
          rw [hpc] at hload hread
          cases refresh with
          | true => exact absurd hload id
          | false => exact absurd rfl hread
      | loadStore | finished => simp [hpc] at h
      | _ => rw [hpc] at hload; exact absurd hload id
  | store j outcome =>
      simp only [CredentialAction.task, CredentialState.step, CredentialState.storeReturns] at *
      cases hpc : d.tasks.pc j with
      | loadStore refresh =>
          simp only [hpc, Option.some.injEq] at h hload
          subst h
          cases refresh with
          | true => exact absurd hload id
          | false => cases outcome <;> simp [Loading]
      | loadGate | loadWrite | loadRead | finished => simp [hpc] at h
      | _ => rw [hpc] at hload; exact absurd hload id
  | respond j response =>
      simp only [CredentialAction.task, CredentialState.step] at *
      cases hpc : d.tasks.pc j with
      | loadGate | loadWrite | loadRead | loadStore | finished => simp [hpc] at h
      | _ => rw [hpc] at hload; exact absurd hload id
  | start | cancel => cases hb

/-! ## One step of a call -/

/-- The credential operation of the call moves. -/
theorem Sound.credential (H : call.Sound (c.pc i) (c.credentials.tasks.pc i))
    {b : CredentialAction Response} (hb : b.task = i)
    (h : c.step env (.credential b) = some c') :
    (call.observe c (.credential b) (c'.pc i)).Sound (c'.pc i) (c'.credentials.tasks.pc i) := by
  subst hb
  obtain ⟨hinner, -, hpc, hstep, -⟩ := ApiClient.credential_step h
  rw [hpc]
  by_cases hread : c.credentials.tasks.pc b.task = .loadRead false
  · -- the active pair is read, and returned
    have hobserve : call.observe c (.credential b) (c.pc b.task) =
        call.record (.loaded c.credentials.active) := by
      unfold observe
      simp only [ClientAction.task, hread]
    rw [hobserve]
    refine ⟨H.same, H.lawful.snoc trivial, H.stage.loaded _, fun _ => ?_⟩
    rw [loadRead_inner hinner hread hstep]
    simp [Loading, record]
  · have hobserve : call.observe c (.credential b) (c.pc b.task) = call := by
      unfold observe
      simp only [ClientAction.task]
    rw [hobserve]
    exact ⟨H.same, H.lawful, H.stage, fun hl => (H.loading hl).inner hinner hread hstep⟩

/-- A request of the call ended. -/
theorem Sound.replied (H : call.Sound (c.pc i) (c.credentials.tasks.pc i)) {reply : Reply}
    (h : c.step env (.respond i reply) = some c') :
    (call.observe c (.respond i reply : ClientAction Response) (c'.pc i)).Sound (c'.pc i)
      (c'.credentials.tasks.pc i) := by
  have hstage := H.stage
  replace h : c.replied env i (c.pc i) reply = some c' := h
  generalize c.pc i = p at h hstage
  unfold ApiClient.replied at h
  split at h
  case h_1 retryOnce sent status =>
    obtain ⟨hretry, hsent, hstatus, hrefresh⟩ := hstage
    have hlawful := H.lawful.snoc (e := .answered status) trivial
    split at h
    case isTrue h401 =>
      simp only [Bool.and_eq_true, decide_eq_true_eq] at h401
      obtain ⟨rfl, rfl⟩ := h401
      obtain ⟨hpc, hcred⟩ := begin_load h
      rw [hpc, hcred]
      refine ⟨H.same, hlawful, ⟨⟨hretry.symm, ?_, ?_⟩, ⟨?_, hsent.header⟩, ?_⟩, fun _ => trivial⟩
      · simpa [observe_answered, record, RequestEvent.transmission] using hsent.transmitted
      · simp [observe_answered, record, RequestEvent.status, hstatus]
      · simpa [observe_answered, record, RequestEvent.transmission] using hsent.transmitted
      · simpa [observe_answered, record, RequestEvent.refresh] using hrefresh
    case isFalse =>
      cases h
      simp only [ApiClient.goto, Function.update_self]
      exact ⟨H.same, hlawful, trivial, fun hl => by cases hl⟩
  case h_2 token status =>
    cases h
    simp only [ApiClient.goto, Function.update_self]
    exact ⟨H.same, H.lawful.snoc trivial, trivial, fun hl => by cases hl⟩
  case h_3 | h_4 | h_7 | h_8 => exact absurd hstage id
  case h_9 => cases h
  all_goals
    cases h
    simp only [ApiClient.goto, Function.update_self]
    exact H.goto trivial fun hl => by cases hl

/-- The future of the call is dropped. -/
theorem Sound.cancel (H : call.Sound (c.pc i) (c.credentials.tasks.pc i))
    {content : Option TokenPair} (h : c.step env (.cancel i content) = some c') :
    call.Sound (c'.pc i) (c'.credentials.tasks.pc i) := by
  simp only [ApiClient.step] at h
  unfold ApiClient.cancel at h
  split at h <;> cases h <;>
    (simp only [ApiClient.goto, Function.update_self]; exact H.goto trivial fun hl => by cases hl)

/-- `refresh_access` returned to the call. -/
theorem Sound.afterRefresh (H : call.Sound p q) (hrejected : call.Rejected) {d : ApiClient}
    {sent : AccessToken} {result : Except HttpError TokenPair}
    (h : d.afterRefresh env i (.request sent) result = some c') :
    call.Sound (c'.pc i) (c'.credentials.tasks.pc i) := by
  unfold ApiClient.afterRefresh at h
  split at h
  case h_1 hk => cases hk
  case h_2 =>
    cases h
    simp only [ApiClient.goto, Function.update_self]
    exact H.goto trivial fun hl => by cases hl
  case h_3 =>
    obtain ⟨hpc, hcred⟩ := begin_load h
    rw [hpc, hcred]
    exact H.goto hrejected fun _ => rfl

/-- The call goes on with what it did so far. -/
theorem Sound.goes (H : call.Sound p q) {d : ApiClient} {r : ClientPc} (hp' : call.Stage r)
    (hload : r.loads = false) (h : some (d.goto i r) = some c') :
    call.Sound (c'.pc i) (c'.credentials.tasks.pc i) := by
  cases h
  simp only [ApiClient.goto, Function.update_self]
  exact H.goto hp' fun hl => by rw [hload] at hl; cases hl

/-- The call follows a flight. -/
theorem Sound.resumeFollower (H : call.Sound p q) {flight : RefreshFlight}
    (h : c.resumeFollower env i flight p = some c') :
    call.Sound (c'.pc i) (c'.credentials.tasks.pc i) := by
  have hstage := H.stage
  have follow {k : RefreshCaller} {f : ℕ} {result : Except HttpError TokenPair}
      (hstage : call.Stage (.collecting k f)) (h : c.follow env i k f result = some c') :
      call.Sound (c'.pc i) (c'.credentials.tasks.pc i) := by
    cases k with
    | refresh => exact absurd hstage id
    | request sent => exact H.afterRefresh hstage h
  unfold ApiClient.resumeFollower at h
  split at h
  case h_1 k f => exact H.goes (r := .checking k f _) (by cases k <;> exact hstage) rfl h
  case h_2 k f seen =>
    split at h
    · exact follow (f := f) (by cases k <;> exact hstage) h
    · exact H.goes (r := .peeking k f _) (by cases k <;> exact hstage) rfl h
  case h_3 k f seen =>
    split at h
    · exact follow (f := f) (by cases k <;> exact hstage) h
    · exact H.goes (r := .waiting k f _) (by cases k <;> exact hstage) rfl h
  case h_4 k f seen =>
    obtain ⟨-, h⟩ := Option.ite_none_right_eq_some.mp h
    exact H.goes (r := .collecting k f) (by cases k <;> exact hstage) rfl h
  case h_5 k f => exact follow hstage h
  case h_6 => cases h

/-- The call enters a flight. -/
theorem Sound.enterFlight (H : call.Sound p q) {k : RefreshCaller}
    (hstage : call.Stage (.refreshGate k)) (h : c.enterFlight env i k = some c') :
    call.Sound (c'.pc i) (c'.credentials.tasks.pc i) := by
  have leads (h : c.lead env i k = some c') :
      call.Sound (c'.pc i) (c'.credentials.tasks.pc i) := by
    rw [ApiClient.begin_pc h, Function.update_self]
    exact H.goto (by cases k <;> exact hstage) fun hl => by cases hl
  unfold ApiClient.enterFlight at h
  split at h
  · exact leads h
  · split at h
    · cases h
    · split at h
      · exact leads h
      · exact H.goes (r := .joined k _) (by cases k <;> exact hstage) rfl h

/-- The call passes a lock, or the end of its refresh. -/
theorem Sound.resume_of_not_loads (H : call.Sound (c.pc i) (c.credentials.tasks.pc i))
    (hload : (c.pc i).loads = false) (h : c.resume env i = some c') :
    call.Sound (c'.pc i) (c'.credentials.tasks.pc i) := by
  have hstage := H.stage
  have follower {p : ClientPc} (hp : c.pc i = p) {f : ℕ}
      (h : (c.flights[f]?.bind fun flight => c.resumeFollower env i flight p) = some c') :
      call.Sound (c'.pc i) (c'.credentials.tasks.pc i) := by
    obtain ⟨flight, -, h⟩ := Option.bind_eq_some_iff.mp h
    exact (hp ▸ H).resumeFollower h
  unfold ApiClient.resume at h
  split at h
  case h_1 k hp => exact H.enterFlight (hp ▸ hstage) h
  case h_2 k f result hp =>
    rw [hp] at hstage
    exact H.goes (r := .waking k f result) (by cases k <;> exact hstage) rfl h
  case h_3 k f result hp =>
    rw [hp] at hstage
    exact H.goes (r := .leaving k f result) (by cases k <;> exact hstage) rfl h
  case h_4 k f result hp =>
    rw [hp] at hstage
    cases k with
    | refresh => exact absurd hstage id
    | request sent => exact H.afterRefresh hstage h
  case h_5 f hp => exact H.goes (r := .dropped f) trivial rfl h
  case h_6 => exact H.goes (r := .idle) trivial rfl h
  case h_7 hp | h_8 hp | h_9 hp | h_10 hp | h_11 hp => exact follower hp h
  case h_12 =>
    split at h
    case h_2 => cases h
    case h_1 result hresult =>
      generalize c.pc i = p at h hstage hload
      unfold ApiClient.afterCredential at h
      split at h
      case h_3 k f tokens => exact H.goes (by cases k <;> exact hstage) rfl h
      case h_4 k f e => exact H.goes (by cases k <;> exact hstage) rfl h
      case h_15 => cases h
      all_goals first | exact absurd hstage id | cases hload

/-- Outside its loads, a call does nothing that is observed when it passes a lock. -/
theorem observe_resume (hload : (c.pc i).loads = false) (next : ClientPc) :
    call.observe c (.resume i : ClientAction Response) next = call := by
  cases hp : c.pc i with
  | requestLoad | requestCheck | retryLoad => rw [hp] at hload; cases hload
  | _ => unfold observe; simp only [hp]

/-- The call transmits its request with the token of the pair that it read. -/
theorem Sound.transmits (H : call.Sound p q) {pair : TokenPair}
    (hread : call.log.getLast? = some (.loaded (some pair)))
    (hset : ∃ request, call.request.withAccessToken pair.accessToken = .ok request)
    (hfirst : transmissions call.log = [] ∨ call.Rejected) {r : ClientPc}
    (hp' : (call.transmit pair.accessToken).Stage r) (hload : r.loads = false)
    {q' : CredentialPc} : (call.transmit pair.accessToken).Sound r q' := by
  obtain ⟨request, hrequest⟩ := hset
  obtain ⟨hsame, hheader⟩ := setHeader_ok hrequest
  have hbuilt : SameBut AUTHORIZATION call.built request := H.same.trans hsame
  have htransmit : call.transmit pair.accessToken =
      { call with request := request }.record (.transmitted request) := by
    simp [transmit, hrequest]
  have hlawful : Justified (Lawful call.built call.retryOnce)
      (call.log ++ [.transmitted request]) := by
    refine H.lawful.snoc ⟨hbuilt, ⟨pair, hread, hheader⟩, ?_⟩
    rcases hfirst with hnone | hrejected
    · exact .inl hnone
    · exact .inr ⟨hrejected.retryOnce, hrejected.answered, _, hrejected.transmitted, hsame⟩
  refine ⟨?_, ?_, hp', fun hl => by rw [hload] at hl; cases hl⟩
  · rw [htransmit]
    exact hbuilt
  · rw [htransmit]
    exact hlawful

theorem transmit_log {token : AccessToken} {request : HttpRequest U}
    (h : call.request.withAccessToken token = .ok request) :
    call.transmit token = { call with
      request := request
      log := call.log ++ [.transmitted request] } := by
  simp [transmit, h, record]

/-- A load that has returned hands its result to the call. -/
theorem resume_loaded (hload : (c.pc i).loads = true) (h : c.resume env i = some c') :
    ∃ result, c.credentials.tasks.pc i = .finished result ∧
      c.afterCredential env i (c.pc i) result = some c' := by
  cases hp : c.pc i with
  | requestLoad _ | requestCheck _ | retryLoad =>
      simp only [ApiClient.resume, hp] at h
      split at h
      case h_1 result hresult => exact ⟨result, hresult, h⟩
      case h_2 => cases h
  | _ => rw [hp] at hload; cases hload

/-- A call whose load failed returns. -/
theorem Sound.loadFailed (H : call.Sound (c.pc i) q) (hload : (c.pc i).loads = true)
    {e : HttpError} (h : c.afterCredential env i (c.pc i) (.error e) = some c') :
    (call.observe c (.resume i : ClientAction Response) (c'.pc i)).Sound (c'.pc i)
      (c'.credentials.tasks.pc i) := by
  cases hp : c.pc i with
  | requestLoad _ | requestCheck _ | retryLoad =>
      simp only [hp, ApiClient.afterCredential, Option.some.injEq] at h
      subst h
      unfold observe
      simp only [hp, ApiClient.goto, Function.update_self]
      exact H.goto trivial fun hl => by cases hl
  | _ => rw [hp] at hload; cases hload

section Loaded

variable {refresh : RefreshEnv Response} {logoutRequest : RefreshToken → Except HttpError Unit}
  {tokens : Option TokenPair}

/-- The first load returned: the call transmits, or its token cannot be set. -/
theorem Sound.requestLoaded {retryOnce : Bool} (H : call.Sound (.requestLoad retryOnce) q)
    (hp : c.pc i = .requestLoad retryOnce) (hread : call.log.getLast? = some (.loaded tokens))
    (h : c.afterCredential (requestEnv refresh logoutRequest) i (.requestLoad retryOnce)
      (.ok tokens) = some c') :
    (call.observe c (.resume i : ClientAction Response) (c'.pc i)).Sound (c'.pc i)
      (c'.credentials.tasks.pc i) := by
  obtain ⟨hretry, hnone, hstatus, hrefresh⟩ := H.stage
  simp only [ApiClient.afterCredential, Option.some.injEq] at h
  subst h
  cases hauthorize : ApiClient.authorize (requestEnv refresh logoutRequest) tokens with
  | error e =>
      unfold observe
      simp only [hp, ApiClient.goto, Function.update_self]
      exact H.goto trivial fun hl => by cases hl
  | ok token =>
      obtain ⟨hbearer, pair, rfl, rfl⟩ := authorize_ok hauthorize
      unfold observe
      simp only [hp, ApiClient.goto, Function.update_self]
      obtain ⟨request, hrequest⟩ := withAccessToken_of_bearer hbearer call.request
      refine H.transmits hread ⟨request, hrequest⟩ (.inl hnone) ?_ rfl
      rw [transmit_log hrequest]
      refine ⟨hretry, ⟨?_, (setHeader_ok hrequest).2⟩, ?_, ?_⟩
      · simp [hnone, RequestEvent.transmission]
      · simp [hstatus, RequestEvent.status]
      · simp [hrefresh, RequestEvent.refresh]

/-- The load after a rejection returned: the call refreshes only if the rejected token
is still the active one. -/
theorem Sound.requestChecked {sent : AccessToken} (H : call.Sound (.requestCheck sent) q)
    (hp : c.pc i = .requestCheck sent) (hread : call.log.getLast? = some (.loaded tokens))
    (h : c.afterCredential env i (.requestCheck sent) (.ok tokens) = some c') :
    (call.observe c (.resume i : ClientAction Response) (c'.pc i)).Sound (c'.pc i)
      (c'.credentials.tasks.pc i) := by
  obtain ⟨hrejected, hsent, hrefresh⟩ := H.stage
  simp only [ApiClient.afterCredential] at h
  split at h
  case isTrue hsame =>
    cases h
    unfold observe
    simp only [hp, ApiClient.goto, Function.update_self]
    obtain ⟨pair, rfl, rfl⟩ := Option.map_eq_some_iff.mp hsame
    refine ⟨H.same, H.lawful.snoc ⟨hrefresh, hrejected.retryOnce, hrejected.answered,
      _, hsent.transmitted, pair, hread, hsent.header⟩, ⟨hrejected.retryOnce, ?_, ?_⟩,
      fun hl => by cases hl⟩
    · simpa [record, RequestEvent.transmission] using hsent.transmitted
    · simpa [record, RequestEvent.status] using hrejected.answered
  case isFalse =>
    obtain ⟨hpc, hcred⟩ := begin_load h
    unfold observe
    simp only [hp, hpc, hcred]
    exact H.goto hrejected fun _ => rfl

/-- The load before the retry returned: the call transmits once more, or its token
cannot be set. -/
theorem Sound.retryLoaded (H : call.Sound .retryLoad q) (hp : c.pc i = .retryLoad)
    (hread : call.log.getLast? = some (.loaded tokens))
    (h : c.afterCredential (requestEnv refresh logoutRequest) i .retryLoad (.ok tokens) =
      some c') :
    (call.observe c (.resume i : ClientAction Response) (c'.pc i)).Sound (c'.pc i)
      (c'.credentials.tasks.pc i) := by
  simp only [ApiClient.afterCredential, Option.some.injEq] at h
  subst h
  cases hauthorize : ApiClient.authorize (requestEnv refresh logoutRequest) tokens with
  | error e =>
      unfold observe
      simp only [hp, ApiClient.goto, Function.update_self]
      exact H.goto trivial fun hl => by cases hl
  | ok token =>
      obtain ⟨hbearer, pair, rfl, rfl⟩ := authorize_ok hauthorize
      unfold observe
      simp only [hp, ApiClient.goto, Function.update_self]
      exact H.transmits (r := .retrySend _) hread
        (withAccessToken_of_bearer hbearer call.request) (.inr H.stage) trivial rfl

/-- A load of the call returned. -/
theorem Sound.resume_of_loads (H : call.Sound (c.pc i) (c.credentials.tasks.pc i))
    (hload : (c.pc i).loads = true)
    (h : c.resume (requestEnv refresh logoutRequest) i = some c') :
    (call.observe c (.resume i : ClientAction Response) (c'.pc i)).Sound (c'.pc i)
      (c'.credentials.tasks.pc i) := by
  obtain ⟨result, hresult, hafter⟩ := resume_loaded hload h
  have hread := H.loading hload
  rw [hresult] at hread
  cases result with
  | error e => exact H.loadFailed hload hafter
  | ok tokens =>
      cases hp : c.pc i with
      | requestLoad retryOnce =>
          rw [hp] at H hafter
          exact H.requestLoaded hp hread hafter
      | requestCheck sent =>
          rw [hp] at H hafter
          exact H.requestChecked hp hread hafter
      | retryLoad =>
          rw [hp] at H hafter
          exact H.retryLoaded hp hread hafter
      | _ => rw [hp] at hload; cases hload

end Loaded

/-- **One step of a call** that is not a new call of its task. -/
theorem Sound.step {refresh : RefreshEnv Response}
    {logoutRequest : RefreshToken → Except HttpError Unit}
    (H : call.Sound (c.pc a.task) (c.credentials.tasks.pc a.task))
    (hcall : ∀ op, a ≠ .call a.task op)
    (h : c.step (requestEnv refresh logoutRequest) a = some c') :
    (call.observe c a (c'.pc a.task)).Sound (c'.pc a.task)
      (c'.credentials.tasks.pc a.task) := by
  cases a with
  | call i op => exact absurd rfl (hcall op)
  | credential b => exact H.credential rfl h
  | resume i =>
      cases hload : (c.pc i).loads with
      | true => exact H.resume_of_loads hload h
      | false =>
          rw [ClientAction.task, observe_resume hload]
          exact H.resume_of_not_loads hload h
  | respond i reply => exact H.replied h
  | cancel i content => exact H.cancel h

end RequestCall

/-! ## Runs of the client -/

namespace Requests

variable {refresh : RefreshEnv Response} {logoutRequest : RefreshToken → Except HttpError Unit}
  {s s' : Requests U}

/-- The invariant of the requests. -/
def Sound (s : Requests U) : Prop :=
  ∀ i call, s.calls i = some call →
    call.Sound (s.client.pc i) (s.client.credentials.tasks.pc i)

theorem sound_withTransport (persisted : Option TokenPair) :
    (withTransport persisted : Requests U).Sound := by
  intro i call h
  cases h

/-- A step of one task leaves the calls of the others where they are. -/
theorem Sound.update (H : s.Sound) {a : ClientAction Response} {env : ClientEnv Response}
    (h : s.client.step env a = some s'.client) {entry : Option (RequestCall U)}
    (hcalls : s'.calls = Function.update s.calls a.task entry)
    (hentry : ∀ call, entry = some call →
      call.Sound (s'.client.pc a.task) (s'.client.credentials.tasks.pc a.task)) : s'.Sound := by
  intro i call hcall
  rw [hcalls] at hcall
  by_cases hi : i = a.task
  · subst hi
    rw [Function.update_self] at hcall
    exact hentry call hcall
  · rw [Function.update_of_ne hi] at hcall
    rw [ApiClient.pc_step_of_ne hi h, ApiClient.credentialPc_step_of_ne hi h]
    exact H i call hcall

/-- The requests keep their invariant. -/
theorem sound_step (H : s.Sound) {a : RequestAction U Response}
    (h : s.step (requestEnv refresh logoutRequest) a = some s') : s'.Sound := by
  have goes {a : ClientAction Response} (hcall : ∀ op, a ≠ .call a.task op)
      (h : ((s.client.step (requestEnv refresh logoutRequest) a).map fun client =>
        (⟨client, Function.update s.calls a.task
          ((s.calls a.task).map fun call => call.observe s.client a (client.pc a.task))⟩ :
            Requests U)) = some s') : s'.Sound := by
    obtain ⟨client, hclient, rfl⟩ := Option.map_eq_some_iff.mp h
    refine H.update hclient rfl fun call hentry => ?_
    obtain ⟨before, hbefore, rfl⟩ := Option.map_eq_some_iff.mp hentry
    exact (H _ before hbefore).step hcall hclient
  cases a with
  | send i retryOnce request =>
      obtain ⟨client, hclient, rfl⟩ := Option.map_eq_some_iff.mp h
      refine H.update hclient rfl fun call hentry => ?_
      cases hentry
      have hbegin : s.client.call (requestEnv refresh logoutRequest) i (.request retryOnce) =
          some client := by
        simp only [ApiClient.step] at hclient
        split at hclient
        · exact hclient
        · exact hclient
        · cases hclient
      obtain ⟨hpc, hcred⟩ := RequestCall.begin_load hbegin
      simp only [ClientAction.task, hpc, hcred]
      exact RequestCall.sound_new request retryOnce
  | other a =>
      cases a with
      | call i op =>
          simp only [step] at h
          split at h
          · cases h
          · obtain ⟨client, hclient, rfl⟩ := Option.map_eq_some_iff.mp h
            exact H.update hclient rfl fun call hentry => by cases hentry
      | credential b => exact goes (fun op => by simp) h
      | resume i => exact goes (fun op => by simp) h
      | respond i reply => exact goes (fun op => by simp) h
      | cancel i content => exact goes (fun op => by simp) h

end Requests

/-! ## The retry -/

/-- Every request that a lawful call transmits is the one it was given, apart from the
authorization header. -/
theorem sameBut_of_transmitted {built : HttpRequest U} {retryOnce : Bool}
    {log : List (RequestEvent U)} (h : Justified (Lawful built retryOnce) log)
    {request : HttpRequest U} (hmem : request ∈ transmissions log) :
    SameBut AUTHORIZATION built request := by
  obtain ⟨e, he, hrequest⟩ := List.mem_filterMap.mp hmem
  obtain ⟨before, after, heq⟩ := List.append_of_mem he
  have hlaw := h before e after heq
  cases e with
  | transmitted r =>
      cases hrequest
      exact hlaw.1
  | _ => cases hrequest

/-- **An authenticated request is sent at most twice**, whatever the responses, the
credential changes and the refreshes of all calls in between. The second time follows a
401, differs in the authorization header only and carries the token that is active then;
the call refreshes at most once, and only while the token it sent is the active one. -/
theorem authenticated_retry (refresh : RefreshEnv Response)
    (logoutRequest : RefreshToken → Except HttpError Unit) (persisted : Option TokenPair)
    (actions : List (RequestAction U Response)) (s : Requests U)
    (h : exec (Requests.step (requestEnv refresh logoutRequest)) (.withTransport persisted)
      actions = some s) (i : ℕ) (call : RequestCall U) (hcall : s.calls i = some call) :
    (transmissions call.log).length ≤ 2 ∧ (refreshes call.log).length ≤ 1 ∧
    Justified (Lawful call.built call.retryOnce) call.log ∧
    ∀ join method path options,
      (emptyRequest join method path options = .ok call.built ∨
        ∃ serialized, jsonRequest join method path serialized options = .ok call.built) →
      ∀ request ∈ transmissions call.log, options.Carried request := by
  have hsound : s.Sound := invariant (fun _ _ _ H hstep => Requests.sound_step H hstep)
    (Requests.sound_withTransport persisted) h
  have hlawful := (hsound i call hcall).lawful
  refine ⟨length_transmissions_le hlawful, length_refreshes_le hlawful, hlawful, ?_⟩
  intro join method path options hbuilt request hmem
  have hcarried : options.Carried call.built := by
    rcases hbuilt with hempty | ⟨serialized, hjson⟩
    · exact emptyRequest_carried hempty
    · exact jsonRequest_carried hjson
  exact hcarried.of_sameBut (sameBut_of_transmitted hlawful hmem)

/-- A request is rejected, the token refreshed and the request sent again. -/
def retriedRequest : List (RequestAction Unit (Except HttpError RefreshResponse)) :=
  .send 0 true (.new .post ()) :: (loading 0 true ++
    [ClientAction.resume 0, .respond 0 (.status (.ok 401))] ++ loading 0 false ++
    [ClientAction.resume 0, .resume 0, .credential (.advance 0), .credential (.advance 0)] ++
    rotating 0 "new" ++ [ClientAction.resume 0, .resume 0, .resume 0, .resume 0] ++
    loading 0 false ++ [ClientAction.resume 0, .respond 0 (.status (.ok 200))]).map .other

theorem authenticated_retry_retriedRequest :
    ∃ s call, exec (Requests.step (requestEnv decodedResponses fun _ => .ok ()))
        (.withTransport (some (.sample "old"))) retriedRequest = some s ∧
      s.calls 0 = some call ∧ (transmissions call.log).length = 2 ∧
      (refreshes call.log).length = 1 ∧ (transmissions call.log).length ≤ 2 := by
  have hrun : (exec (Requests.step (requestEnv decodedResponses fun _ => .ok ()))
      (.withTransport (some (.sample "old"))) retriedRequest).any (fun s =>
        (s.calls 0).any fun call => decide ((transmissions call.log).length = 2 ∧
          (refreshes call.log).length = 1)) = true := by
    decide +kernel
  obtain ⟨s, hs, hcall⟩ := (Option.any_eq_true _ _).mp hrun
  obtain ⟨call, hcall, hcounts⟩ := (Option.any_eq_true _ _).mp hcall
  obtain ⟨htwice, honce⟩ := of_decide_eq_true hcounts
  exact ⟨s, call, hs, hcall, htwice, honce, (authenticated_retry decodedResponses _ _
    retriedRequest s hs 0 call hcall).1⟩

end ZephyrVox.Http
