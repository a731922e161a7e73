import ZephyrVox.Http.Refresh

/-!
# The authenticated HTTP client

Hosts call `login`, `refresh`, `logout`, the credential operations and protected
requests on clones of one `ApiClient`. Every call is a task; its credential
operations run in the `CredentialState` of the client under the same task
number, and a task that waits for one goes on when it has finished there.

A refresh is shared: the first caller that finds no usable flight behind the
refresh gate leads a new one, and the others follow it. Neither the gate nor the
lock of a flight's result is held over an await point, so the sections they
guard are single steps. A dropped future runs the leader guard.

## Main definitions

* `RefreshFlight` — the shared state of one refresh.
* `ClientPc` — where a call stands.
* `ApiClient` — credentials, flights, gate and tasks, with the observations
  `ClientHistory` that no operation reads.
* `ApiClient.step` — one step of one task.
-/

namespace ZephyrVox.Http

open Transition Gate

/-! ## Data -/

/-- The shared state of one refresh. -/
structure RefreshFlight where
  result : Option (Except HttpError TokenPair)
  /-- The number of `notify_waiters` calls; a waiter is woken by calls made after
  it began to wait. -/
  notify : ℕ
  cancelled : Bool

/-- A new flight. -/
def newRefreshFlight : RefreshFlight := ⟨none, 0, false⟩

/-- The caller of `refresh_access`: `AuthApi::refresh`, or a request that was sent
with an access token and answered with 401. -/
inductive RefreshCaller
  | refresh
  | request (sent : AccessToken)
  deriving DecidableEq, Repr

/-- What a call returns. -/
inductive Outcome
  | done
  | tokens (tokens : Option TokenPair)
  | status (status : ℕ)

/-- Where a call stands. -/
inductive ClientPc
  | idle
  /-- `set_tokens`, `clear_tokens` or `load_credentials`, called by a host. -/
  | credential
  -- `login`
  | loginSend
  | loginSet
  -- `refresh_access`, as the leader of a flight
  | refreshGate (k : RefreshCaller)
  | leading (k : RefreshCaller) (flight : ℕ)
  | recording (k : RefreshCaller) (flight : ℕ) (result : Except HttpError TokenPair)
  | waking (k : RefreshCaller) (flight : ℕ) (result : Except HttpError TokenPair)
  | leaving (k : RefreshCaller) (flight : ℕ) (result : Except HttpError TokenPair)
  -- the drop of a leader guard that is not finished
  | dropping (flight : ℕ)
  | dropped (flight : ℕ)
  -- `refresh_access`, as a follower
  | joined (k : RefreshCaller) (flight : ℕ)
  | checking (k : RefreshCaller) (flight seen : ℕ)
  | peeking (k : RefreshCaller) (flight seen : ℕ)
  | waiting (k : RefreshCaller) (flight seen : ℕ)
  | collecting (k : RefreshCaller) (flight : ℕ)
  -- `send_request` with an access token
  | requestLoad (retryOnce : Bool)
  | requestSend (retryOnce : Bool) (sent : AccessToken)
  | requestCheck (sent : AccessToken)
  | retryLoad
  | retrySend (token : AccessToken)
  -- `logout`
  | logoutLoad
  | logoutSend (tokens : TokenPair)
  | logoutClear (tokens : TokenPair)
  | returned (result : Except HttpError Outcome)

/-- Whether a call waits for its credential operation. -/
def ClientPc.working : ClientPc → Bool
  | .credential | .loginSet | .leading _ _ | .requestLoad _ | .requestCheck _ | .retryLoad
  | .logoutLoad | .logoutClear _ => true
  | _ => false

/-- The parts of the client outside this model: building requests and decoding
the response of a refresh. -/
structure ClientEnv (Response : Type) extends RefreshEnv Response where
  /-- Set the authorization header. -/
  bearer : AccessToken → Except HttpError Unit
  logoutRequest : RefreshToken → Except HttpError Unit

/-- The calls of a host. -/
inductive ClientOp
  | setTokens (tokens : TokenPair)
  | clearTokens
  | loadCredentials
  | login
  | refresh
  | request (retryOnce : Bool)
  | logout

/-- The end of a request of the client, other than a refresh. -/
inductive Reply
  /-- The status of a protected request. -/
  | status (result : Except HttpError ℕ)
  /-- The pair of a login. -/
  | login (result : Except HttpError TokenPair)
  | logout (result : Except HttpError Unit)

/-- What happens next, and to which task. -/
inductive ClientAction (Response : Type)
  | call (task : ℕ) (op : ClientOp)
  /-- A step of the credential operation of a task. -/
  | credential (a : CredentialAction Response)
  /-- The task passes a lock or the end of its credential operation. -/
  | resume (task : ℕ)
  | respond (task : ℕ) (reply : Reply)
  /-- The future of the task is dropped; an interrupted store call may have left
  anything behind. -/
  | cancel (task : ℕ) (content : Option TokenPair)

/-- Credentials that a logout removed. -/
structure Cleared where
  /-- The pair whose refresh token was sent. -/
  sent : TokenPair
  removed : Option TokenPair
  /-- The rotations committed so far. -/
  rotations : List (TokenPair × TokenPair)

/-- Observations of a run. -/
structure ClientHistory where
  /-- The number of refresh requests sent. -/
  refreshes : ℕ
  /-- The access tokens that refresh responses issued. -/
  issued : List AccessToken
  /-- The access tokens that were answered with 401. -/
  rejected : List AccessToken
  /-- The results that leaders produced, by flight. -/
  produced : List (ℕ × Except HttpError TokenPair)
  /-- The results that followers returned, by flight. -/
  followed : List (ℕ × Except HttpError TokenPair)
  /-- The number of pairs that `set_tokens` made active. -/
  logins : ℕ
  /-- That number when each task last read the active pair. -/
  readLogins : ℕ → ℕ
  /-- The rotations that refreshes committed. -/
  rotations : List (TokenPair × TokenPair)
  cleared : List Cleared

/-- The shared state of all clones of one client. -/
structure ApiClient where
  credentials : CredentialState
  /-- All flights so far. -/
  flights : List RefreshFlight
  refreshGate : Option ℕ
  pc : ℕ → ClientPc
  history : ClientHistory

namespace ApiClient

variable {Response : Type}

/-- A new client on a store with some content. -/
def withTransport (persisted : Option TokenPair) : ApiClient where
  credentials := .init persisted
  flights := []
  refreshGate := none
  pc _ := .idle
  history := ⟨0, [], [], [], [], 0, fun _ => 0, [], []⟩

/-- Move one task. -/
def goto (c : ApiClient) (i : ℕ) (p : ClientPc) : ApiClient :=
  { c with pc := Function.update c.pc i p }

/-- Start a credential operation of a task. -/
def begin (env : ClientEnv Response) (c : ApiClient) (i : ℕ) (op : CredentialOp) (p : ClientPc) :
    Option ApiClient :=
  (c.credentials.step env.toRefreshEnv (.start i op)).map fun credentials =>
    { c with credentials := credentials }.goto i p

/-- Change one flight. -/
def setFlight (c : ApiClient) (f : ℕ) (change : RefreshFlight → RefreshFlight) : ApiClient :=
  { c with flights := c.flights.modify f change }

/-! ## Refreshing -/

/-- Lead a new flight. -/
def lead (env : ClientEnv Response) (c : ApiClient) (i : ℕ) (k : RefreshCaller) :
    Option ApiClient :=
  { c with
    flights := c.flights ++ [newRefreshFlight]
    refreshGate := some c.flights.length }.begin env i .refreshOnce (.leading k c.flights.length)

/-- The first section of `refresh_access`: follow the flight behind the gate, or
lead a new one if there is none or its leader was cancelled. -/
def enterFlight (env : ClientEnv Response) (c : ApiClient) (i : ℕ) (k : RefreshCaller) :
    Option ApiClient :=
  match c.refreshGate with
  | none => c.lead env i k
  | some f =>
      match c.flights[f]? with
      | none => none
      | some flight =>
          if flight.cancelled then c.lead env i k else some (c.goto i (.joined k f))

/-- `refresh_access` returned to its caller. -/
def afterRefresh (env : ClientEnv Response) (c : ApiClient) (i : ℕ) (k : RefreshCaller)
    (result : Except HttpError TokenPair) : Option ApiClient :=
  match k, result with
  | .refresh, result =>
      some (c.goto i (.returned (result.map fun tokens => .tokens (some tokens))))
  | .request _, .error e => some (c.goto i (.returned (.error e)))
  | .request _, .ok _ => c.begin env i .loadCredentials .retryLoad

/-- `refresh_once` returned to the leader. -/
def produce (c : ApiClient) (i : ℕ) (k : RefreshCaller) (f : ℕ)
    (result : Except HttpError TokenPair) : ApiClient :=
  { c with history := { c.history with produced := c.history.produced ++ [(f, result)] } }.goto i
    (.recording k f result)

/-- A follower returns. -/
def follow (env : ClientEnv Response) (c : ApiClient) (i : ℕ) (k : RefreshCaller) (f : ℕ)
    (result : Except HttpError TokenPair) : Option ApiClient :=
  { c with history := { c.history with
      followed := c.history.followed ++ [(f, result)] } }.afterRefresh env i k result

/-- The leader removes its flight from the gate. -/
def leaveGate (c : ApiClient) (f : ℕ) : ApiClient :=
  if c.refreshGate = some f then { c with refreshGate := none } else c

/-- One step of a follower. -/
def resumeFollower (env : ClientEnv Response) (c : ApiClient) (i : ℕ) (flight : RefreshFlight) :
    ClientPc → Option ApiClient
  | .joined k f => some (c.goto i (.checking k f flight.notify))
  | .checking k f seen =>
      if flight.cancelled then c.follow env i k f (.error .authExpired)
      else some (c.goto i (.peeking k f seen))
  | .peeking k f seen =>
      match flight.result with
      | some result => c.follow env i k f result
      | none => some (c.goto i (.waiting k f seen))
  | .waiting k f seen =>
      if seen < flight.notify then some (c.goto i (.collecting k f)) else none
  | .collecting k f => c.follow env i k f (flight.result.getD (.error .authExpired))
  | _ => none

/-! ## Other operations -/

/-- The access token of a loaded pair, in the header of a request. -/
def authorize (env : ClientEnv Response) (tokens : Option TokenPair) :
    Except HttpError AccessToken :=
  match tokens with
  | none => .error .authenticationRequired
  | some tokens =>
      match env.bearer tokens.accessToken with
      | .error e => .error e
      | .ok () => .ok tokens.accessToken

/-- A credential operation returned to its call. -/
def afterCredential (env : ClientEnv Response) (c : ApiClient) (i : ℕ) :
    ClientPc → Except HttpError (Option TokenPair) → Option ApiClient
  | .credential, result => some (c.goto i (.returned (result.map .tokens)))
  | .loginSet, result => some (c.goto i (.returned (result.map fun _ => .done)))
  | .leading k f, .ok (some tokens) => some (c.produce i k f (.ok tokens))
  | .leading k f, .error e => some (c.produce i k f (.error e))
  | .requestLoad retryOnce, .ok tokens =>
      some (match authorize env tokens with
        | .ok token => c.goto i (.requestSend retryOnce token)
        | .error e => c.goto i (.returned (.error e)))
  | .requestCheck sent, .ok tokens =>
      if tokens.map TokenPair.accessToken = some sent then
        some (c.goto i (.refreshGate (.request sent)))
      else c.begin env i .loadCredentials .retryLoad
  | .retryLoad, .ok tokens =>
      some (match authorize env tokens with
        | .ok token => c.goto i (.retrySend token)
        | .error e => c.goto i (.returned (.error e)))
  | .logoutLoad, .ok (some tokens) =>
      some (match env.logoutRequest tokens.refreshToken with
        | .ok () => c.goto i (.logoutSend tokens)
        | .error e => c.goto i (.returned (.error e)))
  | .logoutLoad, .ok none => some (c.goto i (.returned (.ok .done)))
  | .logoutClear _, result => some (c.goto i (.returned (result.map fun _ => .done)))
  | .requestLoad _, .error e | .requestCheck _, .error e | .retryLoad, .error e
  | .logoutLoad, .error e => some (c.goto i (.returned (.error e)))
  | _, _ => none

/-- A protected request was answered. -/
def answered (c : ApiClient) (sent : AccessToken) (status : ℕ) : ApiClient :=
  if status = 401 then
    { c with history := { c.history with rejected := c.history.rejected ++ [sent] } }
  else c

/-- A request of a call ended. -/
def replied (env : ClientEnv Response) (c : ApiClient) (i : ℕ) :
    ClientPc → Reply → Option ApiClient
  | .requestSend retryOnce sent, .status (.ok status) =>
      if status = 401 && retryOnce then
        (c.answered sent status).begin env i .loadCredentials (.requestCheck sent)
      else some ((c.answered sent status).goto i (.returned (.ok (.status status))))
  | .retrySend token, .status (.ok status) =>
      some ((c.answered token status).goto i (.returned (.ok (.status status))))
  | .loginSend, .login (.ok tokens) => c.begin env i (.setTokens tokens) .loginSet
  | .logoutSend tokens, .logout (.ok ()) => c.begin env i .clearTokens (.logoutClear tokens)
  | .requestSend _ _, .status (.error e) | .retrySend _, .status (.error e)
  | .loginSend, .login (.error e) | .logoutSend _, .logout (.error e) =>
      some (c.goto i (.returned (.error e)))
  | _, _ => none

/-! ## Steps -/

/-- Start a call. -/
def call (env : ClientEnv Response) (c : ApiClient) (i : ℕ) : ClientOp → Option ApiClient
  | .setTokens tokens => c.begin env i (.setTokens tokens) .credential
  | .clearTokens => c.begin env i .clearTokens .credential
  | .loadCredentials => c.begin env i .loadCredentials .credential
  | .login => some (c.goto i .loginSend)
  | .refresh => some (c.goto i (.refreshGate .refresh))
  | .request retryOnce => c.begin env i .loadCredentials (.requestLoad retryOnce)
  | .logout => c.begin env i .loadCredentials .logoutLoad

/-- Pass a lock or the end of a credential operation. -/
def resume (env : ClientEnv Response) (c : ApiClient) (i : ℕ) : Option ApiClient :=
  match c.pc i with
  | .refreshGate k => c.enterFlight env i k
  | .recording k f result =>
      some ((c.setFlight f fun flight => { flight with result := some result }).goto i
        (.waking k f result))
  | .waking k f result =>
      some ((c.setFlight f fun flight => { flight with notify := flight.notify + 1 }).goto i
        (.leaving k f result))
  | .leaving k f result => (c.leaveGate f).afterRefresh env i k result
  | .dropping f =>
      some ((c.setFlight f fun flight => { flight with cancelled := true }).goto i (.dropped f))
  | .dropped f =>
      some ((c.setFlight f fun flight => { flight with notify := flight.notify + 1 }).goto i .idle)
  | .joined k f => (c.flights[f]?).bind fun flight => c.resumeFollower env i flight (.joined k f)
  | .checking k f seen =>
      (c.flights[f]?).bind fun flight => c.resumeFollower env i flight (.checking k f seen)
  | .peeking k f seen =>
      (c.flights[f]?).bind fun flight => c.resumeFollower env i flight (.peeking k f seen)
  | .waiting k f seen =>
      (c.flights[f]?).bind fun flight => c.resumeFollower env i flight (.waiting k f seen)
  | .collecting k f =>
      (c.flights[f]?).bind fun flight => c.resumeFollower env i flight (.collecting k f)
  | p =>
      match c.credentials.tasks.pc i with
      | .finished result => c.afterCredential env i p result
      | _ => none

/-- What a step of a credential operation is observed as. -/
def observe (h : ClientHistory) (active : Option TokenPair) (i : ℕ) (p : ClientPc) :
    (before after : CredentialPc) → ClientHistory
  | .loadRead true, .send _ => { h with refreshes := h.refreshes + 1 }
  | .loadRead false, _ => { h with readLogins := Function.update h.readLogins i h.logins }
  | .send _, .replaceGate _ tokens => { h with issued := h.issued ++ [tokens.accessToken] }
  | .setWrite _, _ => { h with logins := h.logins + 1 }
  | .replaceWrite current replacement, _ =>
      { h with rotations := h.rotations ++ [(current, replacement)] }
  | .clearWrite, _ =>
      match p with
      | .logoutClear tokens => { h with cleared := h.cleared ++ [⟨tokens, active, h.rotations⟩] }
      | _ => h
  | _, _ => h

/-- One step of the credential operation of a task. -/
def stepCredential (env : ClientEnv Response) (c : ApiClient) (i : ℕ)
    (a : CredentialAction Response) : Option ApiClient :=
  if (c.pc i).working then
    (c.credentials.step env.toRefreshEnv a).map fun credentials =>
      { c with
        credentials := credentials
        history := observe c.history c.credentials.active i (c.pc i) (c.credentials.tasks.pc i)
          (credentials.tasks.pc i) }
  else none

/-- Drop the future of a task. A leader that has not recorded its result runs its
guard; between two await points a task cannot be dropped. -/
def cancel (c : ApiClient) (i : ℕ) (content : Option TokenPair) : Option ApiClient :=
  match c.pc i with
  | .leading _ f | .recording _ f _ =>
      some ({ c with credentials := c.credentials.cancel i content }.goto i (.dropping f))
  | .waking _ _ _ | .dropping _ | .dropped _ | .joined _ _ | .checking _ _ _ => none
  | _ => some ({ c with credentials := c.credentials.cancel i content }.goto i .idle)

/-- One step of one task. -/
def step (env : ClientEnv Response) (c : ApiClient) : ClientAction Response → Option ApiClient
  | .call i op =>
      match c.pc i with
      | .idle | .returned _ => c.call env i op
      | _ => none
  | .credential a =>
      match a with
      | .advance i | .store i _ | .respond i _ => c.stepCredential env i a
      | .start _ _ | .cancel _ _ => none
  | .resume i => c.resume env i
  | .respond i reply => c.replied env i (c.pc i) reply
  | .cancel i content => c.cancel i content

/-! ## What a step does to the credentials -/

end ApiClient

/-- The task that moves. -/
def ClientAction.task {Response : Type} : ClientAction Response → ℕ
  | .call i _ | .resume i | .respond i _ | .cancel i _ => i
  | .credential a => a.task

/-- The steps of a running credential operation. -/
def CredentialAction.inner {Response : Type} : CredentialAction Response → Bool
  | .advance _ | .store _ _ | .respond _ _ => true
  | .start _ _ | .cancel _ _ => false

/-- The token a call found answered with 401, until it enters a flight. -/
def ClientPc.expired : ClientPc → Option AccessToken
  | .requestCheck sent | .refreshGate (.request sent) => some sent
  | _ => none

/-- The counters of protected requests; those inside `refresh_access` are shared
with `AuthApi::refresh`. -/
def ClientPc.ofRequest : ClientPc → Bool
  | .credential | .loginSend | .loginSet | .refreshGate .refresh | .logoutLoad | .logoutSend _
  | .logoutClear _ => false
  | _ => true

/-- The protected requests among the calls. -/
def ClientOp.isRequest : ClientOp → Bool
  | .request _ => true
  | _ => false

/-- Whether a call leads a flight whose refresh is under way. -/
def ClientPc.refreshes : ClientPc → Bool
  | .leading _ _ => true
  | _ => false

/-- The counters inside a logout, once its credentials are loaded. -/
def ClientPc.logsOut : ClientPc → Bool
  | .logoutSend _ | .logoutClear _ => true
  | _ => false

namespace ApiClient

variable {Response : Type} {env : ClientEnv Response} {c c' : ApiClient} {i : ℕ}
  {a : ClientAction Response}

/-- Observations of a step outside the credential operations. -/
structure Recorded (c c' : ApiClient) : Prop where
  refreshes : c'.history.refreshes = c.history.refreshes := by rfl
  issued : c'.history.issued = c.history.issued := by rfl
  rejected : ∀ token ∈ c.history.rejected, token ∈ c'.history.rejected := by exact fun _ h => h
  logins : c'.history.logins = c.history.logins := by rfl
  readLogins : c'.history.readLogins = c.history.readLogins := by rfl
  rotations : c'.history.rotations = c.history.rotations := by rfl
  cleared : c'.history.cleared = c.history.cleared := by rfl

/-- How a call comes to its next counter `p`. -/
structure Follows (c c' : ApiClient) (a : ClientAction Response) (p : ClientPc) : Prop where
  /-- A task that waits for its credential operation goes on when that returned. -/
  worked : (c.pc a.task).working = true →
    ∃ result, c.credentials.tasks.pc a.task = .finished result := by intro h; cases h
  expired : ∀ sent, p.expired = some sent →
    (c.pc a.task).expired = some sent ∨ sent ∈ c'.history.rejected := by
      exact fun _ h => by cases h
  /-- Protected requests start no other operation. -/
  requests : p.ofRequest = true ∨ (c.pc a.task).ofRequest = false ∨
    (∃ op : ClientOp, a = .call a.task op ∧ op.isRequest = false) := by exact .inl rfl
  logout : ∀ tokens, p = .logoutSend tokens → c.pc a.task = .logoutLoad ∧
    c.credentials.tasks.pc a.task = .finished (.ok (some tokens)) := by exact fun _ h => by cases h
  clears : ∀ tokens, p = .logoutClear tokens → c.pc a.task = .logoutSend tokens ∧
    a = .respond a.task (.logout (.ok ())) := by exact fun _ h => by cases h

/-- A step that observes nothing. -/
theorem Recorded.of_history (h : c'.history = c.history) : Recorded c c' := by
  constructor <;> rw [h]
  exact fun _ h => h

/-- A counter outside a logout's request. -/
theorem Follows.of_not_logsOut {p : ClientPc}
    (hworked : (c.pc a.task).working = true →
      ∃ result, c.credentials.tasks.pc a.task = .finished result)
    (hexpired : ∀ sent, p.expired = some sent →
      (c.pc a.task).expired = some sent ∨ sent ∈ c'.history.rejected)
    (hrequests : p.ofRequest = true ∨ (c.pc a.task).ofRequest = false ∨
      (∃ op : ClientOp, a = .call a.task op ∧ op.isRequest = false))
    (hp : p.logsOut = false) : Follows c c' a p where
  worked := hworked
  expired := hexpired
  requests := hrequests
  logout := by rintro _ rfl; cases hp
  clears := by rintro _ rfl; cases hp

/-- Such a counter that carries no rejected token. -/
theorem Follows.plain {p : ClientPc}
    (hworked : (c.pc a.task).working = true →
      ∃ result, c.credentials.tasks.pc a.task = .finished result)
    (hrequests : p.ofRequest = true ∨ (c.pc a.task).ofRequest = false ∨
      (∃ op : ClientOp, a = .call a.task op ∧ op.isRequest = false))
    (hexpired : p.expired = none) (hp : p.logsOut = false) : Follows c c' a p :=
  .of_not_logsOut hworked (fun _ h => by rw [hexpired] at h; cases h) hrequests hp

/-- What one step of a task does to the credentials. -/
inductive Work (env : ClientEnv Response) (c c' : ApiClient) (a : ClientAction Response) : Prop
  /-- Its credential operation moves. -/
  | inner (b : CredentialAction Response) (ha : a = .credential b)
      (hb : b.inner = true) (hworking : (c.pc a.task).working = true)
      (hpc : c'.pc = c.pc)
      (hstep : c.credentials.step env.toRefreshEnv b = some c'.credentials)
      (hhistory : c'.history = observe c.history c.credentials.active a.task (c.pc a.task)
        (c.credentials.tasks.pc a.task) (c'.credentials.tasks.pc a.task))
  /-- It leads a flight and starts a refresh. -/
  | leads (k : RefreshCaller) (f : ℕ) (ha : a = .resume a.task)
      (hp : c.pc a.task = .refreshGate k)
      (hpc : c'.pc = Function.update c.pc a.task (.leading k f))
      (hstep : c.credentials.step env.toRefreshEnv (.start a.task .refreshOnce) =
        some c'.credentials) (h : Recorded c c')
  /-- It starts another credential operation. -/
  | begins (op : CredentialOp) (p : ClientPc) (hop : op ≠ .refreshOnce)
      (hload : op = .loadCredentials ∨ p.ofRequest = false)
      (hpc : c'.pc = Function.update c.pc a.task p) (hp : p.refreshes = false)
      (hworking : p.working = true)
      (hstep : c.credentials.step env.toRefreshEnv (.start a.task op) = some c'.credentials)
      (hfollows : Follows c c' a p) (h : Recorded c c')
  /-- It goes on without one. -/
  | goes (p : ClientPc) (hpc : c'.pc = Function.update c.pc a.task p) (hp : p.working = false)
      (hcredentials : c'.credentials = c.credentials) (hfollows : Follows c c' a p)
      (h : Recorded c c')
  /-- It is dropped. -/
  | cancels (content : Option TokenPair) (p : ClientPc) (ha : a = .cancel a.task content)
      (hpc : c'.pc = Function.update c.pc a.task p) (hp : p = .idle ∨ ∃ f, p = .dropping f)
      (hcredentials : c'.credentials = c.credentials.cancel a.task content) (h : Recorded c c')

/-- What starting a credential operation does. -/
theorem begin_eq_some {op : CredentialOp} {p : ClientPc} (h : c.begin env i op p = some c') :
    c.credentials.step env.toRefreshEnv (.start i op) = some c'.credentials ∧
      c' = { c with credentials := c'.credentials }.goto i p := by
  obtain ⟨credentials, hstep, rfl⟩ := Option.map_eq_some_iff.mp h
  exact ⟨hstep, rfl⟩

theorem begin_pc {op : CredentialOp} {p : ClientPc} (h : c.begin env i op p = some c') :
    c'.pc = Function.update c.pc i p := by
  rw [(begin_eq_some h).2]
  rfl

/-- A credential operation that a call starts. -/
theorem work_begin {d : ApiClient} {op : CredentialOp} {p : ClientPc}
    (h : d.begin env a.task op p = some c') (hd : d.credentials = c.credentials)
    (hpc : d.pc = c.pc) (hop : op ≠ .refreshOnce)
    (hload : op = .loadCredentials ∨ p.ofRequest = false) (hp : p.refreshes = false)
    (hworking : p.working = true) (hrecorded : Recorded c d)
    (hfollows : d.history = c'.history → Follows c c' a p) : Work env c c' a := by
  obtain ⟨hstep, heq⟩ := begin_eq_some h
  have hhistory : c'.history = d.history := by rw [heq]; rfl
  refine .begins op p hop hload (by rw [begin_pc h, hpc]) hp hworking (by rw [← hd, hstep])
    (hfollows hhistory.symm) ?_
  obtain ⟨h1, h2, h3, h4, h5, h6, h7⟩ := hrecorded
  constructor <;> rw [hhistory] <;> assumption

/-- A call that goes on without a credential operation. -/
theorem work_goto {d : ApiClient} {p : ClientPc} (hc : c' = d.goto a.task p)
    (hd : d.credentials = c.credentials) (hpc : d.pc = c.pc) (hp : p.working = false)
    (hrecorded : Recorded c d) (hfollows : d.history = c'.history → Follows c c' a p) :
    Work env c c' a := by
  subst hc
  refine .goes p ?_ hp hd (hfollows rfl) ?_
  · show Function.update d.pc a.task p = _
    rw [hpc]
  · obtain ⟨h1, h2, h3, h4, h5, h6, h7⟩ := hrecorded
    exact ⟨h1, h2, h3, h4, h5, h6, h7⟩

theorem work_afterRefresh {d : ApiClient} {k : RefreshCaller}
    {result : Except HttpError TokenPair} (hd : d.credentials = c.credentials)
    (hpc : d.pc = c.pc) (hleads : (c.pc a.task).working = false) (hrecorded : Recorded c d)
    (h : d.afterRefresh env a.task k result = some c') : Work env c c' a := by
  have hworked : (c.pc a.task).working = true →
      ∃ result, c.credentials.tasks.pc a.task = .finished result := by
    rw [hleads]
    exact fun h => by cases h
  unfold afterRefresh at h
  split at h
  · exact work_goto (Option.some.inj h).symm hd hpc rfl hrecorded fun _ =>
      .plain hworked (.inl rfl) rfl rfl
  · exact work_goto (Option.some.inj h).symm hd hpc rfl hrecorded fun _ =>
      .plain hworked (.inl rfl) rfl rfl
  · exact work_begin h hd hpc (fun h => by cases h) (.inl rfl) rfl rfl hrecorded
          fun _ => .plain hworked (.inl rfl) rfl rfl

theorem work_call {op : ClientOp} (ha : a = .call a.task op)
    (hleads : (c.pc a.task).working = false) (h : c.call env a.task op = some c') :
    Work env c c' a := by
  have hworked : (c.pc a.task).working = true →
      ∃ result, c.credentials.tasks.pc a.task = .finished result := by
    rw [hleads]
    exact fun h => by cases h
  unfold call at h
  split at h
  case h_6 =>
    exact work_begin h rfl rfl (fun h => by cases h) (.inl rfl) rfl rfl (.of_history rfl) fun _ =>
      .plain hworked (.inl rfl) rfl rfl
  case h_4 | h_5 =>
    exact work_goto (Option.some.inj h).symm rfl rfl rfl (.of_history rfl) fun _ =>
      .plain hworked (.inr (.inr ⟨_, ha, rfl⟩)) rfl rfl
  all_goals
    exact work_begin h rfl rfl (fun h => by cases h) (.inr rfl) rfl rfl (.of_history rfl) fun _ =>
      .plain hworked (.inr (.inr ⟨_, ha, rfl⟩)) rfl rfl

theorem answered_recorded (sent : AccessToken) (status : ℕ) :
    Recorded c (c.answered sent status) ∧ (c.answered sent status).pc = c.pc ∧
      (c.answered sent status).credentials = c.credentials ∧
      (status = 401 → sent ∈ (c.answered sent status).history.rejected) := by
  unfold answered
  split
  · refine ⟨{ rejected := fun _ h => List.mem_append_left _ h }, rfl, rfl, fun _ => ?_⟩
    exact List.mem_append_right _ (List.mem_singleton_self _)
  case isFalse hne => exact ⟨.of_history rfl, rfl, rfl, fun h => absurd h hne⟩

theorem work_replied {reply : Reply} (ha : a = .respond a.task reply)
    (h : c.replied env a.task (c.pc a.task) reply = some c') : Work env c c' a := by
  generalize hp : c.pc a.task = p at h
  have hworked (hleads : p.working = false) : (c.pc a.task).working = true →
      ∃ result, c.credentials.tasks.pc a.task = .finished result := by
    rw [hp, hleads]
    exact fun h => by cases h
  unfold replied at h
  split at h
  case h_1 retryOnce sent status =>
    obtain ⟨hrecorded, hpc, hcred, hrejected⟩ := answered_recorded (c := c) sent status
    split at h
    case isTrue hretry =>
      refine work_begin h hcred hpc (fun h => by cases h) (.inl rfl) rfl rfl hrecorded fun hh =>
        .of_not_logsOut (hworked rfl) ?_ (.inl rfl) rfl
      rintro token ⟨⟩
      simp only [Bool.and_eq_true, decide_eq_true_eq] at hretry
      exact .inr (hh ▸ hrejected hretry.1)
    · exact work_goto (Option.some.inj h).symm hcred hpc rfl hrecorded fun _ =>
        .plain (hworked rfl) (.inl rfl) rfl rfl
  case h_2 token status =>
    obtain ⟨hrecorded, hpc, hcred, -⟩ := answered_recorded (c := c) token status
    exact work_goto (Option.some.inj h).symm hcred hpc rfl hrecorded fun _ =>
      .plain (hworked rfl) (.inl rfl) rfl rfl
  case h_3 =>
    exact work_begin h rfl rfl (fun h => by cases h) (.inr rfl) rfl rfl (.of_history rfl) fun _ =>
      .plain (hworked rfl) (.inr (.inl (by rw [hp]; rfl))) rfl rfl
  case h_4 tokens =>
    refine work_begin h rfl rfl (fun h => by cases h) (.inr rfl) rfl rfl (.of_history rfl) fun _ =>
      { worked := hworked rfl, requests := .inr (.inl (by rw [hp]; rfl)), clears := ?_,
        expired := fun _ h => (by cases h), logout := fun _ h => (by cases h) }
    rintro _ ⟨⟩
    exact ⟨hp, ha⟩
  case h_9 => cases h
  all_goals
    exact work_goto (Option.some.inj h).symm rfl rfl rfl (.of_history rfl) fun _ =>
      .plain (hworked rfl) (.inl rfl) rfl rfl

theorem work_afterCredential {p : ClientPc} {result : Except HttpError (Option TokenPair)}
    (hp : c.pc a.task = p) (hresult : c.credentials.tasks.pc a.task = .finished result)
    (h : c.afterCredential env a.task p result = some c') : Work env c c' a := by
  have hworked : (c.pc a.task).working = true →
      ∃ result, c.credentials.tasks.pc a.task = .finished result := fun _ => ⟨result, hresult⟩
  unfold afterCredential at h
  split at h
  case h_3 | h_4 =>
    exact work_goto (d := { c with history := { c.history with produced := _ } })
      (Option.some.inj h).symm rfl rfl rfl ⟨rfl, rfl, fun _ h => h, rfl, rfl, rfl, rfl⟩ fun _ =>
        .plain hworked (.inl rfl) rfl rfl
  case h_5 | h_7 =>
    have h := Option.some.inj h
    split at h
    · exact work_goto h.symm rfl rfl rfl (.of_history rfl) fun _ =>
        .plain hworked (.inl rfl) rfl rfl
    · exact work_goto h.symm rfl rfl rfl (.of_history rfl) fun _ =>
        .plain hworked (.inl rfl) rfl rfl
  case h_6 sent tokens =>
    split at h
    · refine work_goto (Option.some.inj h).symm rfl rfl rfl (.of_history rfl) fun _ =>
        .of_not_logsOut hworked ?_ (.inl rfl) rfl
      rintro token ⟨⟩
      exact .inl (by rw [hp]; rfl)
    · exact work_begin h rfl rfl (fun h => by cases h) (.inl rfl) rfl rfl (.of_history rfl)
          fun _ => .plain hworked (.inl rfl) rfl rfl
  case h_8 tokens =>
    have h := Option.some.inj h
    split at h
    · refine work_goto h.symm rfl rfl rfl (.of_history rfl) fun _ =>
        { worked := hworked, requests := .inr (.inl (by rw [hp]; rfl)), logout := ?_,
          expired := fun _ h => (by cases h), clears := fun _ h => (by cases h) }
      rintro _ ⟨⟩
      exact ⟨hp, hresult⟩
    · exact work_goto h.symm rfl rfl rfl (.of_history rfl) fun _ =>
        .plain hworked (.inl rfl) rfl rfl
  case h_15 => cases h
  all_goals
    exact work_goto (Option.some.inj h).symm rfl rfl rfl (.of_history rfl) fun _ =>
      .plain hworked (.inl rfl) rfl rfl

theorem work_resumeFollower {p : ClientPc} {f : ℕ} (hp : c.pc a.task = p)
    (hleads : p.working = false)
    (h : ((c.flights[f]?).bind fun flight => c.resumeFollower env a.task flight p) = some c') :
    Work env c c' a := by
  have hrefreshes : (c.pc a.task).working = false := by rw [hp, hleads]
  have hworked : (c.pc a.task).working = true →
      ∃ result, c.credentials.tasks.pc a.task = .finished result := by
    rw [hrefreshes]
    exact fun h => by cases h
  have follows {k : RefreshCaller} {g : ℕ} {result : Except HttpError TokenPair}
      (h : c.follow env a.task k g result = some c') : Work env c c' a :=
    work_afterRefresh (d := { c with history := { c.history with
      followed := c.history.followed ++ [(g, result)] } }) rfl rfl hrefreshes
        ⟨rfl, rfl, fun _ h => h, rfl, rfl, rfl, rfl⟩ h
  obtain ⟨flight, -, h⟩ := Option.bind_eq_some_iff.mp h
  unfold resumeFollower at h
  split at h
  case h_1 =>
    exact work_goto (Option.some.inj h).symm rfl rfl rfl (.of_history rfl) fun _ =>
      .plain hworked (.inl rfl) rfl rfl
  case h_2 =>
    split at h
    · exact follows h
    · exact work_goto (Option.some.inj h).symm rfl rfl rfl (.of_history rfl) fun _ =>
        .plain hworked (.inl rfl) rfl rfl
  case h_3 =>
    split at h
    · exact follows h
    · exact work_goto (Option.some.inj h).symm rfl rfl rfl (.of_history rfl) fun _ =>
        .plain hworked (.inl rfl) rfl rfl
  case h_4 =>
    obtain ⟨-, h⟩ := Option.ite_none_right_eq_some.mp h
    exact work_goto (Option.some.inj h).symm rfl rfl rfl (.of_history rfl) fun _ =>
      .plain hworked (.inl rfl) rfl rfl
  case h_5 => exact follows h
  case h_6 => cases h

theorem work_lead {k : RefreshCaller} (ha : a = .resume a.task) (hp : c.pc a.task = .refreshGate k)
    (h : c.lead env a.task k = some c') : Work env c c' a := by
  obtain ⟨hstep, heq⟩ := begin_eq_some h
  have hpc : c'.pc = Function.update c.pc a.task (.leading k c.flights.length) := by rw [heq]; rfl
  refine .leads k c.flights.length ha hp hpc hstep ?_
  rw [heq]
  exact .of_history rfl

theorem work_resume (ha : a = .resume a.task) (h : c.resume env a.task = some c') :
    Work env c c' a := by
  have goes {d : ApiClient} {q p : ClientPc} (hp : c.pc a.task = p) (hleads : p.working = false)
      (hd : d.credentials = c.credentials) (hpc : d.pc = c.pc) (hrecorded : Recorded c d)
      (hq : q.working = false) (hfollows : (hworked : (c.pc a.task).working = true →
        ∃ result, c.credentials.tasks.pc a.task = .finished result) → Follows c c' a q)
      (hc : c' = d.goto a.task q) : Work env c c' a := by
    refine work_goto hc hd hpc hq hrecorded fun _ => hfollows ?_
    rw [hp, hleads]
    exact fun h => by cases h
  unfold resume at h
  split at h
  case h_1 k hp =>
    unfold enterFlight at h
    split at h
    · exact work_lead ha hp h
    · split at h
      · cases h
      · split at h
        · exact work_lead ha hp h
        · exact goes hp rfl rfl rfl (.of_history rfl) rfl
            (fun hw => .plain hw (.inl rfl) rfl rfl) (Option.some.inj h).symm
  case h_2 hp | h_3 hp | h_5 hp | h_6 hp =>
    exact goes hp rfl (d := c.setFlight _ _) rfl rfl (.of_history rfl) rfl
      (fun hw => .plain hw (.inl rfl) rfl rfl)
      (Option.some.inj h).symm
  case h_4 k f result hp =>
    have hgate : (c.leaveGate f).credentials = c.credentials ∧ (c.leaveGate f).pc = c.pc ∧
        Recorded c (c.leaveGate f) := by
      unfold leaveGate
      split <;> exact ⟨rfl, rfl, .of_history rfl⟩
    exact work_afterRefresh hgate.1 hgate.2.1 (by rw [hp]; rfl) hgate.2.2 h
  case h_7 hp | h_8 hp | h_9 hp | h_10 hp | h_11 hp => exact work_resumeFollower hp rfl h
  case h_12 =>
    split at h
    case h_1 result hresult => exact work_afterCredential rfl hresult h
    · cases h

theorem work_cancel {content : Option TokenPair} (ha : a = .cancel a.task content)
    (h : c.cancel a.task content = some c') : Work env c c' a := by
  unfold cancel at h
  split at h
  case h_1 | h_2 => cases h; exact .cancels content _ ha rfl (.inr ⟨_, rfl⟩) rfl (.of_history rfl)
  case h_8 => cases h; exact .cancels content _ ha rfl (.inl rfl) rfl (.of_history rfl)
  all_goals cases h

/-- What a step of a credential operation does to the client. -/
theorem credential_step {b : CredentialAction Response}
    (h : c.step env (.credential b) = some c') :
    b.inner = true ∧ (c.pc b.task).working = true ∧ c'.pc = c.pc ∧
      c.credentials.step env.toRefreshEnv b = some c'.credentials ∧
      c'.history = observe c.history c.credentials.active b.task (c.pc b.task)
        (c.credentials.tasks.pc b.task) (c'.credentials.tasks.pc b.task) := by
  have inner {j : ℕ} (hj : b.task = j) (h : c.stepCredential env j b = some c') :
      (c.pc b.task).working = true ∧ c'.pc = c.pc ∧
        c.credentials.step env.toRefreshEnv b = some c'.credentials ∧
        c'.history = observe c.history c.credentials.active b.task (c.pc b.task)
          (c.credentials.tasks.pc b.task) (c'.credentials.tasks.pc b.task) := by
    subst hj
    unfold stepCredential at h
    obtain ⟨hworking, h⟩ := Option.ite_none_right_eq_some.mp h
    obtain ⟨credentials, hstep, rfl⟩ := Option.map_eq_some_iff.mp h
    exact ⟨hworking, rfl, hstep, rfl⟩
  cases b with
  | advance j => exact ⟨rfl, inner rfl h⟩
  | store j outcome => exact ⟨rfl, inner rfl h⟩
  | respond j response => exact ⟨rfl, inner rfl h⟩
  | start j op' => cases h
  | cancel j content => cases h

/-- **What a step of the client does to the credentials.** -/
theorem step_work (h : c.step env a = some c') : Work env c c' a := by
  cases a with
  | call j op =>
      simp only [step] at h
      split at h
      case h_1 hp | h_2 hp =>
        have hleads : (c.pc j).working = false := by rw [hp]; rfl
        exact work_call rfl hleads h
      · cases h
  | credential b =>
      obtain ⟨hb, hworking, hpc, hstep, hhistory⟩ := credential_step h
      exact .inner b rfl hb hworking hpc hstep hhistory
  | resume j => exact work_resume rfl h
  | respond j reply => exact work_replied rfl h
  | cancel j content => exact work_cancel rfl h

/-- A step moves no other call. -/
theorem pc_step_of_ne {j : ℕ} (hj : j ≠ a.task) (h : c.step env a = some c') :
    c'.pc j = c.pc j := by
  cases step_work h with
  | inner b ha hb hworking hpc => rw [hpc]
  | leads k f ha hp hpc => rw [hpc, Function.update_of_ne hj]
  | begins op p hop hload hpc => rw [hpc, Function.update_of_ne hj]
  | goes p hpc => rw [hpc, Function.update_of_ne hj]
  | cancels content p ha hpc => rw [hpc, Function.update_of_ne hj]

/-- A step moves the credential operation of no other call. -/
theorem credentialPc_step_of_ne {j : ℕ} (hj : j ≠ a.task) (h : c.step env a = some c') :
    c'.credentials.tasks.pc j = c.credentials.tasks.pc j := by
  cases step_work h with
  | inner b ha hb hworking hpc hstep =>
      subst ha
      exact CredentialState.pc_step_of_ne hj hstep
  | leads k f ha hp hpc hstep =>
      exact CredentialState.pc_step_of_ne (a := .start a.task .refreshOnce) hj hstep
  | begins op p hop hload hpc hp hworking hstep =>
      exact CredentialState.pc_step_of_ne (a := .start a.task op) hj hstep
  | goes p hpc hp hcredentials => rw [hcredentials]
  | cancels content p ha hpc hp hcredentials =>
      have hstep : c.credentials.step env.toRefreshEnv (.cancel a.task content) =
          some c'.credentials := by rw [hcredentials]; rfl
      exact CredentialState.pc_step_of_ne (a := .cancel a.task content) hj hstep

theorem pc_exec_of_ne {actions : List (ClientAction Response)} {j : ℕ}
    (hj : ∀ a ∈ actions, a.task ≠ j)
    (h : exec (ApiClient.step env) c actions = some c') : c'.pc j = c.pc j := by
  induction actions generalizing c with
  | nil => cases h; rfl
  | cons a actions ih =>
      obtain ⟨d, hd, h⟩ := Option.bind_eq_some_iff.mp h
      rw [ih (fun b hb => hj b (List.mem_cons_of_mem _ hb)) h]
      exact pc_step_of_ne (Ne.symm (hj a List.mem_cons_self)) hd

/-! ## Tasks and their credential operations -/

/-- How the calls and their credential operations fit together. -/
structure WorkSound (c : ApiClient) : Prop where
  /-- Only leaders refresh. -/
  refreshing : ∀ i, (c.credentials.tasks.pc i).ofRefresh = true → (c.pc i).refreshes = true
  /-- A call that waits for no operation runs none. -/
  resting : ∀ i, (c.pc i).working = false → (c.credentials.tasks.pc i).resting = true

theorem workSound_new (persisted : Option TokenPair) : (withTransport persisted).WorkSound where
  refreshing _ h := by cases h
  resting _ _ := rfl

/-- A step of one task and its credential operation. -/
theorem WorkSound.update (H : c.WorkSound) {p : ClientPc}
    (hpc : c'.pc = Function.update c.pc i p)
    (hothers : ∀ j, j ≠ i → c'.credentials.tasks.pc j = c.credentials.tasks.pc j)
    (hrefreshing : (c'.credentials.tasks.pc i).ofRefresh = true → p.refreshes = true)
    (hresting : p.working = false → (c'.credentials.tasks.pc i).resting = true) :
    c'.WorkSound := by
  constructor
  · intro j hj
    by_cases hji : j = i
    · subst hji
      rw [hpc, Function.update_self]
      exact hrefreshing hj
    · rw [hothers j hji] at hj
      rw [hpc, Function.update_of_ne hji]
      exact H.refreshing j hj
  · intro j hj
    by_cases hji : j = i
    · subst hji
      rw [hpc, Function.update_self] at hj
      exact hresting hj
    · rw [hothers j hji]
      rw [hpc, Function.update_of_ne hji] at hj
      exact H.resting j hj

/-- **Only leaders refresh**, after every step. -/
theorem workSound_step (H : c.WorkSound) (h : c.step env a = some c') : c'.WorkSound := by
  have hothers : ∀ j, j ≠ a.task → c'.credentials.tasks.pc j = c.credentials.tasks.pc j :=
    fun _ hj => credentialPc_step_of_ne hj h
  cases step_work h with
  | inner b ha hb hworking hpc hstep hhistory =>
      subst ha
      refine H.update (i := b.task) (p := c.pc b.task) (by rw [hpc, Function.update_eq_self])
        hothers ?_ ?_
      · intro hnow
        refine H.refreshing _ (CredentialState.ofRefresh_step ?_ hstep hnow)
        rintro op hstart
        rw [hstart] at hb
        cases hb
      · intro hfree
        cases hworking.symm.trans hfree
  | leads k f ha hp hpc hstep hrecorded =>
      exact H.update hpc hothers (fun _ => rfl) (fun hfree => by cases hfree)
  | begins op p hop hload hpc hp hworking hstep hfollows hrecorded =>
      refine H.update hpc hothers ?_ ?_
      · intro hnow
        rw [CredentialState.pc_start hstep, CredentialState.ofRefresh_entry hop] at hnow
        cases hnow
      · intro hfree
        cases hworking.symm.trans hfree
  | goes p hpc hp hcredentials hfollows hrecorded =>
      have hrest : (c.credentials.tasks.pc a.task).resting = true := by
        cases hworking : (c.pc a.task).working with
        | false => exact H.resting _ hworking
        | true =>
            obtain ⟨result, hresult⟩ := hfollows.worked hworking
            rw [hresult]
            rfl
      refine H.update hpc hothers ?_ ?_
      · intro hnow
        rw [hcredentials, CredentialState.ofRefresh_of_resting hrest] at hnow
        cases hnow
      · intro _
        rw [hcredentials, hrest]
  | cancels content p ha hpc hp hcredentials hrecorded =>
      refine H.update hpc hothers ?_ ?_
      · intro hnow
        rw [hcredentials, CredentialState.pc_cancel] at hnow
        cases hnow
      · intro _
        rw [hcredentials, CredentialState.pc_cancel]
        rfl

/-- The credentials of a client keep their invariant. -/
theorem credentialsInv_step (H : c.credentials.Inv) (h : c.step env a = some c') :
    c'.credentials.Inv := by
  cases step_work h with
  | inner b ha hb hworking hpc hstep hhistory => exact CredentialState.inv_step H hstep
  | leads k f ha hp hpc hstep hrecorded => exact CredentialState.inv_step H hstep
  | begins op p hop hload hpc hp hworking hstep hfollows hrecorded =>
      exact CredentialState.inv_step H hstep
  | goes p hpc hp hcredentials hfollows hrecorded =>
      rw [hcredentials]
      exact H
  | cancels content p ha hpc hp hcredentials hrecorded =>
      rw [hcredentials]
      exact H.cancel content

/-! ## Sample schedules -/

end ApiClient

/-- Responses that are decoded already, and requests that can always be built. -/
def sampleClientEnv : ClientEnv (Except HttpError RefreshResponse) where
  toRefreshEnv := decodedResponses
  bearer _ := .ok ()
  logoutRequest _ := .ok ()

/-- A task loads the credentials, from the store the first time. -/
def loading (i : ℕ) (first : Bool) : List (ClientAction (Except HttpError RefreshResponse)) :=
  if first then
    [.credential (.advance i), .credential (.store i .success), .credential (.advance i),
      .credential (.advance i)]
  else [.credential (.advance i), .credential (.advance i)]

/-- A refresh with a request on the network is answered with a new pair. -/
def rotating (i : ℕ) (name : String) : List (ClientAction (Except HttpError RefreshResponse)) :=
  [.credential (.respond i (.ok (.ok ⟨"access-" ++ name, "refresh-" ++ name, 1⟩))),
    .credential (.advance i), .credential (.advance i), .credential (.store i .success),
    .credential (.advance i)]

end ZephyrVox.Http
