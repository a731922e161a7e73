import ZephyrVox.Types.Parse
import ZephyrVox.Http.Credentials

/-!
# Requests and responses

The transport-neutral messages of the control plane. A request owns its body and a
map of headers under lowercase names, so it can be sent a second time with one header
changed. URLs are values of a type `U`; joining a path to the base URL is outside this
model, as are the bytes a value serializes to.

## Main definitions

* `HttpRequest U`, `HttpResponse` — the messages.
* `HttpRequest.setHeader` — insert or replace one header.
* `RequestOptions.apply` — the optional headers of a mutation.
* `emptyRequest`, `jsonRequest` — how the endpoints build their requests.
-/

namespace ZephyrVox.Http

variable {U : Type}

/-! ## The header names -/

/-- The bearer access-token header. -/
def AUTHORIZATION : String := "Authorization"

/-- The idempotency key of a mutation. -/
def IDEMPOTENCY_KEY : String := "Idempotency-Key"

/-- The resource precondition. -/
def IF_MATCH : String := "If-Match"

/-- The resource ETag of a response. -/
def ETAG : String := "ETag"

/-- The parent resource precondition. -/
def PARENT_IF_MATCH : String := "X-Zephyr-Parent-If-Match"

/-- The parent resource ETag of a response. -/
def PARENT_ETAG : String := "X-Zephyr-Parent-ETag"

/-- The active control connection. -/
def CONTROL_CONNECTION : String := "X-Zephyr-Control-Connection"

/-- The server command of a committed mutation. -/
def COMMAND_ID : String := "X-Zephyr-Command-ID"

/-- The state cursor after a committed mutation. -/
def STATE_CURSOR : String := "X-Zephyr-State-Cursor"

/-- The state stream epoch of a committed mutation. -/
def STREAM_EPOCH : String := "X-Zephyr-Stream-Epoch"

/-- The highest committed GEID. -/
def GEID : String := "X-Zephyr-Geid"

/-- Whether the client has to fetch a snapshot. -/
def SYNC_REQUIRED : String := "X-Zephyr-Sync-Required"

/-- The text with its ASCII letters in lower case. -/
def toAsciiLowercase (text : String) : String := String.ofList (text.toList.map Char.toLower)

/-! ## Messages -/

/-- The HTTP methods of the server. -/
inductive HttpMethod
  | get
  | post
  | patch
  | put
  | delete
  deriving DecidableEq, Repr

/-- Header values by lowercase name. -/
abbrev Headers := String → Option String

/-- One transport-neutral request. -/
structure HttpRequest (U : Type) where
  method : HttpMethod
  url : U
  headers : Headers
  body : Option (List UInt8)

/-- The characters of an HTTP token; a character outside ASCII has bytes outside it. -/
def isHttpTokenByte (c : Char) : Bool :=
  let n := c.toNat
  c.isAlphanum || n == 0x21 || (0x23 ≤ n && n ≤ 0x27) || (0x2a ≤ n && n ≤ 0x2b) || n == 0x2d ||
    n == 0x2e || n == 0x5e || n == 0x5f || n == 0x60 || n == 0x7c || n == 0x7e

/-- The control characters, horizontal tab excepted. -/
def isControlByte (c : Char) : Bool := (c.toNat < 0x20 && c.toNat != 9) || c.toNat == 0x7f

namespace HttpRequest

/-- An empty request. -/
def new (method : HttpMethod) (url : U) : HttpRequest U := ⟨method, url, fun _ => none, none⟩

/-- Insert or replace one header. -/
def setHeader (request : HttpRequest U) (name value : String) :
    Except HttpError (HttpRequest U) :=
  if name.toList.isEmpty || value.toList.any isControlByte ||
      !name.toList.all isHttpTokenByte then
    .error (.invalidHeader name)
  else .ok { request with
    headers := Function.update request.headers (toAsciiLowercase name) (some value) }

/-- A header, whatever the case of its name. -/
def header (request : HttpRequest U) (name : String) : Option String :=
  request.headers (toAsciiLowercase name)

/-- Replace the body by the bytes of a serialized value. -/
def setJson (request : HttpRequest U) (serialized : Except String (List UInt8)) :
    Except HttpError (HttpRequest U) :=
  match serialized with
  | .error detail => .error (.json detail)
  | .ok body => { request with body := some body }.setHeader "content-type" "application/json"

/-- Two requests that differ at most in one header. -/
structure SameBut (name : String) (r r' : HttpRequest U) : Prop where
  method : r'.method = r.method
  url : r'.url = r.url
  body : r'.body = r.body
  headers : ∀ other, toAsciiLowercase other ≠ toAsciiLowercase name →
    r'.header other = r.header other

theorem SameBut.refl (name : String) (r : HttpRequest U) : SameBut name r r where
  method := rfl
  url := rfl
  body := rfl
  headers _ _ := rfl

theorem SameBut.trans {name : String} {r r' r'' : HttpRequest U} (h : SameBut name r r')
    (h' : SameBut name r' r'') : SameBut name r r'' where
  method := h'.method.trans h.method
  url := h'.url.trans h.url
  body := h'.body.trans h.body
  headers other hother := (h'.headers other hother).trans (h.headers other hother)

/-- Setting a header changes nothing else, and the header has its new value. -/
theorem setHeader_ok {request request' : HttpRequest U} {name value : String}
    (h : request.setHeader name value = .ok request') :
    SameBut name request request' ∧ request'.header name = some value := by
  unfold setHeader at h
  split at h
  · cases h
  · cases h
    refine ⟨⟨rfl, rfl, rfl, fun other hother => ?_⟩, ?_⟩
    · exact Function.update_of_ne hother _ _
    · exact Function.update_self _ _ _

/-- Whether a header can be set depends on name and value only. -/
theorem setHeader_isOk {V : Type} (r : HttpRequest U) (r' : HttpRequest V) (name value : String) :
    (∃ s, r.setHeader name value = .ok s) ↔ ∃ s, r'.setHeader name value = .ok s := by
  unfold setHeader
  split <;> simp

end HttpRequest

/-- One transport-neutral response. -/
structure HttpResponse where
  status : ℕ
  headers : Headers
  body : List UInt8

namespace HttpResponse

/-- A response; of headers with one name the last one counts. -/
def new (status : ℕ) (headers : List (String × String)) (body : List UInt8) : HttpResponse where
  status := status
  headers := headers.foldl
    (fun normalized (name, value) =>
      Function.update normalized (toAsciiLowercase name) (some value)) fun _ => none
  body := body

/-- A header, whatever the case of its name. -/
def header (response : HttpResponse) (name : String) : Option String :=
  response.headers (toAsciiLowercase name)

end HttpResponse

/-! ## The options of a mutation -/

/-- A validated idempotency key. -/
structure IdempotencyKey where
  asStr : String
  min_length : 16 ≤ asStr.toList.length
  max_length : asStr.toList.length ≤ 64
  chars : asStr.toList.all Cursor.isCursorChar = true

/-- The optional headers of a mutation. -/
structure RequestOptions where
  idempotencyKey : Option IdempotencyKey
  ifMatch : Option Etag
  parentIfMatch : Option Etag
  controlConnection : Option ControlConnectionId

/-- Set a header to an optional value. -/
def HttpRequest.setOptional (request : HttpRequest U) (name : String) :
    Option String → Except HttpError (HttpRequest U)
  | some value => request.setHeader name value
  | none => .ok request

/-- Set the headers of the options on a request. -/
def RequestOptions.apply (options : RequestOptions) (request : HttpRequest U) :
    Except HttpError (HttpRequest U) := do
  let request ← request.setOptional IDEMPOTENCY_KEY
    (options.idempotencyKey.map IdempotencyKey.asStr)
  let request ← request.setOptional IF_MATCH (options.ifMatch.map Etag.asStr)
  let request ← request.setOptional PARENT_IF_MATCH (options.parentIfMatch.map Etag.asStr)
  request.setOptional CONTROL_CONNECTION (options.controlConnection.map FixedId.toHex)

/-- The headers of the options on a request. -/
structure RequestOptions.Carried (options : RequestOptions) (request : HttpRequest U) : Prop where
  idempotencyKey : request.header IDEMPOTENCY_KEY = options.idempotencyKey.map IdempotencyKey.asStr
  ifMatch : request.header IF_MATCH = options.ifMatch.map Etag.asStr
  parentIfMatch : request.header PARENT_IF_MATCH = options.parentIfMatch.map Etag.asStr
  controlConnection :
    request.header CONTROL_CONNECTION = options.controlConnection.map FixedId.toHex

/-- The URL of a path below the base URL. `join` is that of the base URL. -/
def endpoint (join : String → Except String U) (path : String) : Except HttpError U :=
  match join (String.ofList (path.toList.dropWhile (· == '/'))) with
  | .ok url => .ok url
  | .error detail => .error (.invalidUrl detail)

/-- A request without a body. -/
def emptyRequest (join : String → Except String U) (method : HttpMethod) (path : String)
    (options : RequestOptions) : Except HttpError (HttpRequest U) := do
  let url ← endpoint join path
  options.apply (HttpRequest.new method url)

/-- A request with a serialized value. -/
def jsonRequest (join : String → Except String U) (method : HttpMethod) (path : String)
    (serialized : Except String (List UInt8)) (options : RequestOptions) :
    Except HttpError (HttpRequest U) := do
  let url ← endpoint join path
  let request ← (HttpRequest.new method url).setJson serialized
  options.apply request

/-! ## The headers of a built request -/

theorem bind_ok {α β : Type} {x : Except HttpError α} {f : α → Except HttpError β} {b : β}
    (h : (x >>= f) = .ok b) : ∃ a, x = .ok a ∧ f a = .ok b := by
  cases x with
  | error e => cases h
  | ok a => exact ⟨a, rfl, h⟩

/-- An optional header that was not set before has the optional value. -/
theorem HttpRequest.setOptional_ok {request request' : HttpRequest U} {name : String}
    {value : Option String} (hnone : request.header name = none)
    (h : request.setOptional name value = .ok request') :
    SameBut name request request' ∧ request'.header name = value := by
  cases value with
  | none =>
      cases h
      exact ⟨.refl name request, hnone⟩
  | some value => exact setHeader_ok h

/-- The options set their headers on a request that has none of them. -/
theorem RequestOptions.apply_carried {options : RequestOptions} {request request' : HttpRequest U}
    (hkey : request.header IDEMPOTENCY_KEY = none) (hmatch : request.header IF_MATCH = none)
    (hparent : request.header PARENT_IF_MATCH = none)
    (hconnection : request.header CONTROL_CONNECTION = none)
    (h : options.apply request = .ok request') : options.Carried request' := by
  obtain ⟨r₁, h₁, h⟩ := bind_ok h
  obtain ⟨r₂, h₂, h⟩ := bind_ok h
  obtain ⟨r₃, h₃, h₄⟩ := bind_ok h
  obtain ⟨s₁, v₁⟩ := HttpRequest.setOptional_ok hkey h₁
  rw [← s₁.headers IF_MATCH (by decide)] at hmatch
  obtain ⟨s₂, v₂⟩ := HttpRequest.setOptional_ok hmatch h₂
  rw [← s₁.headers PARENT_IF_MATCH (by decide), ← s₂.headers PARENT_IF_MATCH (by decide)] at hparent
  obtain ⟨s₃, v₃⟩ := HttpRequest.setOptional_ok hparent h₃
  rw [← s₁.headers CONTROL_CONNECTION (by decide), ← s₂.headers CONTROL_CONNECTION (by decide),
    ← s₃.headers CONTROL_CONNECTION (by decide)] at hconnection
  obtain ⟨s₄, v₄⟩ := HttpRequest.setOptional_ok hconnection h₄
  constructor
  · rw [s₄.headers _ (by decide), s₃.headers _ (by decide), s₂.headers _ (by decide), v₁]
  · rw [s₄.headers _ (by decide), s₃.headers _ (by decide), v₂]
  · rw [s₄.headers _ (by decide), v₃]
  · exact v₄

/-- A request carries the headers of the options it was built with. -/
theorem emptyRequest_carried {join : String → Except String U} {method : HttpMethod}
    {path : String} {options : RequestOptions} {request : HttpRequest U}
    (h : emptyRequest join method path options = .ok request) : options.Carried request := by
  obtain ⟨url, -, h⟩ := bind_ok h
  exact RequestOptions.apply_carried rfl rfl rfl rfl h

theorem jsonRequest_carried {join : String → Except String U} {method : HttpMethod}
    {path : String} {serialized : Except String (List UInt8)} {options : RequestOptions}
    {request : HttpRequest U} (h : jsonRequest join method path serialized options = .ok request) :
    options.Carried request := by
  obtain ⟨url, -, h⟩ := bind_ok h
  obtain ⟨r, hjson, happly⟩ := bind_ok h
  cases serialized with
  | error detail => cases hjson
  | ok body =>
      obtain ⟨hsame, -⟩ := HttpRequest.setHeader_ok hjson
      refine RequestOptions.apply_carried ?_ ?_ ?_ ?_ happly <;>
        (rw [hsame.headers _ (by decide)]; rfl)

/-- The authorization header is none of them. -/
theorem RequestOptions.Carried.of_sameBut {options : RequestOptions} {r r' : HttpRequest U}
    (h : options.Carried r) (hsame : HttpRequest.SameBut AUTHORIZATION r r') :
    options.Carried r' where
  idempotencyKey := (hsame.headers _ (by decide)).trans h.idempotencyKey
  ifMatch := (hsame.headers _ (by decide)).trans h.ifMatch
  parentIfMatch := (hsame.headers _ (by decide)).trans h.parentIfMatch
  controlConnection := (hsame.headers _ (by decide)).trans h.controlConnection

end ZephyrVox.Http
