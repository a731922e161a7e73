import ZephyrVox.Types.Parse

/-!
# Credentials and errors of the HTTP client

Token types carry the checks of their constructors, so an empty token or a pair
without a lifetime cannot be built.

## Main definitions

* `TokenPair` — the access and refresh token of one authenticated client.
* `HttpError` — errors of the control-plane client.
* `TokenPair.fromExpiresIn` — the pair of a server response.
* `isUnauthorized` — the errors that prove that the session expired.
-/

namespace ZephyrVox.Http

/-- Errors raised by the credential store. -/
inductive CredentialStoreError
  | storage (detail : String)
  | invalidTokenPair
  deriving DecidableEq, Repr

/-- The normalized error of an unsuccessful envelope. -/
structure ApiError where
  httpStatus : Option ℕ
  endpoint : Option String
  code : ℤ
  message : String
  fields : List (String × String)
  retryable : Bool
  deriving DecidableEq, Repr

/-- Errors raised while interpreting a response envelope. -/
inductive EnvelopeError
  | api (error : ApiError)
  | missingSuccessData
  | nonEmptySuccessMessage
  | dataSerialization (detail : String)
  | dataDeserialization (detail : String)
  deriving DecidableEq, Repr

/-- Errors raised by the HTTP control-plane client. -/
inductive HttpError
  | transport (detail : String)
  | invalidUrl (detail : String)
  | invalidHeader (detail : String)
  | json (detail : String)
  | wire (detail : String)
  | envelope (error : EnvelopeError)
  | api (error : ApiError)
  | preconditionFailed (error : ApiError)
  | httpStatus (status : ℕ) (endpoint : String)
  | authenticationRequired
  | authExpired
  | protocolVersionMismatch (expected actual : ℕ)
  | tlsPinMismatch (expected actual : String)
  | tlsPeerCertificateUnavailable
  | tlsPeerCertificateInvalid
  | unexpectedNoContent (endpoint : String)
  | unexpectedContent (endpoint : String)
  | expectedNoContent (endpoint : String)
  | closed
  | missingControlConnection
  | missingPrecondition (header : String)
  | credential (error : CredentialStoreError)
  deriving DecidableEq, Repr

/-- A non-empty bearer access token. -/
structure AccessToken where
  asStr : String
  nonempty : asStr ≠ ""
  deriving Repr

theorem AccessToken.asStr_inj {a b : AccessToken} : a.asStr = b.asStr ↔ a = b := by
  cases a
  cases b
  simp

instance : DecidableEq AccessToken := fun _ _ => decidable_of_iff _ AccessToken.asStr_inj

/-- A non-empty refresh token. -/
structure RefreshToken where
  asStr : String
  nonempty : asStr ≠ ""
  deriving Repr

theorem RefreshToken.asStr_inj {a b : RefreshToken} : a.asStr = b.asStr ↔ a = b := by
  cases a
  cases b
  simp

instance : DecidableEq RefreshToken := fun _ _ => decidable_of_iff _ RefreshToken.asStr_inj

/-- The rotated access and refresh pair held by one authenticated client. -/
structure TokenPair where
  accessToken : AccessToken
  refreshToken : RefreshToken
  /-- The lifetime in nanoseconds. -/
  expiresIn : ℕ
  pos : 0 < expiresIn
  deriving DecidableEq, Repr

def AccessToken.new (value : String) : Except CredentialStoreError AccessToken :=
  if h : value = "" then .error .invalidTokenPair else .ok ⟨value, h⟩

def RefreshToken.new (value : String) : Except CredentialStoreError RefreshToken :=
  if h : value = "" then .error .invalidTokenPair else .ok ⟨value, h⟩

/-- A pair with its server-provided lifetime. -/
def TokenPair.new (accessToken : AccessToken) (refreshToken : RefreshToken) (expiresIn : ℕ) :
    Except CredentialStoreError TokenPair :=
  if h : expiresIn = 0 then .error .invalidTokenPair
  else .ok ⟨accessToken, refreshToken, expiresIn, Nat.pos_of_ne_zero h⟩

/-- A pair from the integer lifetime of a response, in seconds. -/
def TokenPair.fromExpiresIn (accessToken refreshToken : String) (expiresIn : ℤ) :
    Except CredentialStoreError TokenPair :=
  if expiresIn ≤ 0 then .error .invalidTokenPair
  else do
    let access ← AccessToken.new accessToken
    let refresh ← RefreshToken.new refreshToken
    TokenPair.new access refresh (expiresIn.toNat * 10 ^ 9)

/-- The data of a successful refresh response. -/
structure RefreshResponse where
  accessToken : String
  refreshToken : String
  expiresIn : ℤ
  deriving DecidableEq, Repr

/-- Whether a refresh response proves that the local session expired. -/
def isUnauthorized : HttpError → Bool
  | .api error => error.httpStatus == some 401
  | .httpStatus status _ => status == 401
  | _ => false

/-- A pair whose tokens are named after `name`. -/
def TokenPair.sample (name : String) : TokenPair where
  accessToken := ⟨"access-" ++ name, by
    intro h
    simpa using congrArg String.length h⟩
  refreshToken := ⟨"refresh-" ++ name, by
    intro h
    simpa using congrArg String.length h⟩
  expiresIn := 10 ^ 9
  pos := by decide

end ZephyrVox.Http
