import ZephyrVox.Http.Request

/-!
# Decoding responses

A response is decoded in a fixed order: the state headers, then the envelope of the
body, then the envelope's data. Reading JSON text and typed data from JSON values is
the host library's (`SerdeJson`); everything between is here.

## Main definitions

* `Json` — a JSON value.
* `ApiEnvelope` — the envelope of a body-bearing response.
* `parseHeaders` — the state headers, or the first malformed one.
* `decodeJson` — the typed data of a response.
* `decodeJson_unauthorized_iff` — which responses are recognised as unauthorized.
-/

namespace ZephyrVox.Http

/-! ## Envelopes -/

/-- A JSON value; a number is kept as its text. -/
inductive Json
  | null
  | bool (value : Bool)
  | number (text : String)
  | string (text : String)
  | array (items : List Json)
  | object (entries : List (String × Json))

/-- The envelope of a response body. -/
structure ApiEnvelope where
  code : ℤ
  message : String
  data : Option Json

/-- The JSON library: an envelope from bytes, and typed data from a value. -/
structure SerdeJson (T : Type) where
  fromSlice : List UInt8 → Except String ApiEnvelope
  fromValue : Json → Except String T

/-- The entries of a JSON object. -/
def Json.asObject : Json → Option (List (String × Json))
  | .object entries => some entries
  | _ => none

/-- The text of a JSON string. -/
def Json.asStr : Json → Option String
  | .string text => some text
  | _ => none

/-- The field messages of error data: the string entries of its object `fields`. -/
def extractFieldErrors (data : Option Json) : List (String × String) :=
  match (data.bind Json.asObject).bind (List.lookup "fields") |>.bind Json.asObject with
  | none => []
  | some fields => fields.filterMap fun entry => entry.2.asStr.map (entry.1, ·)

/-- The data of a success, or the error of the envelope. -/
def ApiEnvelope.intoResult (envelope : ApiEnvelope) : Except EnvelopeError Json :=
  if envelope.code = 0 then
    if envelope.message ≠ "" then .error .nonEmptySuccessMessage
    else
      match envelope.data with
      | some data => .ok data
      | none => .error .missingSuccessData
  else
    .error (.api {
      httpStatus := none
      endpoint := none
      code := envelope.code
      message := envelope.message
      fields := extractFieldErrors envelope.data
      retryable := false })

/-- The typed data of a success. -/
def ApiEnvelope.intoTyped {T : Type} (serde : SerdeJson T) (envelope : ApiEnvelope) :
    Except EnvelopeError T :=
  match envelope.intoResult with
  | .error e => .error e
  | .ok value =>
      match serde.fromValue value with
      | .ok data => .ok data
      | .error detail => .error (.dataDeserialization detail)

/-- Attach the HTTP context of a response. -/
def ApiError.withHttpContext (error : ApiError) (httpStatus : ℕ) (endpoint : String)
    (retryable : Bool) : ApiError :=
  { error with httpStatus := some httpStatus, endpoint := some endpoint, retryable := retryable }

/-- The client error of an envelope error. -/
def mapEnvelopeError (error : EnvelopeError) (status : ℕ) (endpoint : String) : HttpError :=
  match error with
  | .api api =>
      let api := api.withHttpContext status endpoint
        (status = 429 || (500 ≤ status && status < 600))
      if status = 412 then .preconditionFailed api else .api api
  | other => .envelope other

/-! ## State headers -/

/-- State and concurrency metadata of a response. -/
structure ResponseHeaders where
  etag : Option Etag
  parentEtag : Option Etag
  commandId : Option String
  stateCursor : Option Cursor
  streamEpoch : Option StreamEpoch
  geid : Option Geid
  syncRequired : Bool
  deriving DecidableEq, Repr

/-- Read a header that may be missing. -/
def parseOptional {α : Type} (parse : String → Except IdError α) (invalid : IdError → HttpError) :
    Option String → Except HttpError (Option α)
  | none => .ok none
  | some value =>
      match parse value with
      | .ok parsed => .ok (some parsed)
      | .error e => .error (invalid e)

/-- The error of a malformed header. -/
def invalidResponseHeader (endpoint header reason : String) : HttpError :=
  .invalidHeader (endpoint ++ ": " ++ header ++ ": " ++ reason)

/-- Read an ETag; its error does not name the endpoint. -/
def parseOptionalEtag (value : Option String) (header : String) :
    Except HttpError (Option Etag) :=
  parseOptional Etag.new (fun e => .invalidHeader (header ++ ": " ++ e.display)) value

def parseOptionalCursor (value : Option String) (endpoint : String) :
    Except HttpError (Option Cursor) :=
  parseOptional Cursor.new (fun e => invalidResponseHeader endpoint STATE_CURSOR e.display) value

def parseOptionalEpoch (value : Option String) (endpoint : String) :
    Except HttpError (Option StreamEpoch) :=
  parseOptional FixedId.parseHex (fun e => invalidResponseHeader endpoint STREAM_EPOCH e.display)
    value

def parseOptionalGeid (value : Option String) (endpoint : String) :
    Except HttpError (Option Geid) :=
  parseOptional Geid.fromStr (fun e => invalidResponseHeader endpoint GEID e.display) value

/-- Read the synchronization flag. -/
def parseSyncRequired (value : Option String) (endpoint : String) : Except HttpError Bool :=
  match value with
  | none => .ok false
  | some value =>
      if value = "true" ∨ value = "TRUE" ∨ value = "True" then .ok true
      else if value = "false" ∨ value = "FALSE" ∨ value = "False" then .ok false
      else .error (invalidResponseHeader endpoint SYNC_REQUIRED
        ("unsupported boolean value " ++ value))

/-- The state headers of a response, or the error of the first malformed one. -/
def parseHeaders (response : HttpResponse) (endpoint : String) :
    Except HttpError ResponseHeaders := do
  let etag ← parseOptionalEtag (response.header ETAG) ETAG
  let parentEtag ← parseOptionalEtag (response.header PARENT_ETAG) PARENT_ETAG
  let stateCursor ← parseOptionalCursor (response.header STATE_CURSOR) endpoint
  let streamEpoch ← parseOptionalEpoch (response.header STREAM_EPOCH) endpoint
  let geid ← parseOptionalGeid (response.header GEID) endpoint
  let syncRequired ← parseSyncRequired (response.header SYNC_REQUIRED) endpoint
  .ok {
    etag := etag
    parentEtag := parentEtag
    commandId := response.header COMMAND_ID
    stateCursor := stateCursor
    streamEpoch := streamEpoch
    geid := geid
    syncRequired := syncRequired }

/-! ## Decoding -/

/-- A successful response with its metadata. -/
structure ApiResponse (T : Type) where
  data : T
  status : ℕ
  headers : ResponseHeaders

/-- The typed data of a body-bearing response. -/
def decodeJson {T : Type} (serde : SerdeJson T) (response : HttpResponse) (endpoint : String) :
    Except HttpError (ApiResponse T) :=
  if response.status = 204 then .error (.unexpectedNoContent endpoint)
  else
    match parseHeaders response endpoint with
    | .error e => .error e
    | .ok headers =>
        match serde.fromSlice response.body with
        | .error detail => .error (.json detail)
        | .ok envelope =>
            if ¬ (200 ≤ response.status ∧ response.status < 300) ∧ envelope.code = 0 then
              .error (.httpStatus response.status endpoint)
            else
              match envelope.intoTyped serde with
              | .ok data => .ok ⟨data, response.status, headers⟩
              | .error e => .error (mapEnvelopeError e response.status endpoint)

/-! ## Which responses are recognised as unauthorized -/

theorem parseOptional_error {α : Type} {parse : String → Except IdError α}
    {invalid : IdError → HttpError} {value : Option String} {e : HttpError}
    (hinvalid : ∀ reason, ∃ detail, invalid reason = .invalidHeader detail)
    (h : parseOptional parse invalid value = .error e) : ∃ detail, e = .invalidHeader detail := by
  unfold parseOptional at h
  split at h
  · cases h
  · split at h
    · cases h
    · cases h
      exact hinvalid _

theorem parseSyncRequired_error {value : Option String} {endpoint : String} {e : HttpError}
    (h : parseSyncRequired value endpoint = .error e) : ∃ detail, e = .invalidHeader detail := by
  unfold parseSyncRequired at h
  split at h
  · cases h
  · split at h
    · cases h
    · split at h
      · cases h
      · cases h
        exact ⟨_, rfl⟩

theorem bind_error {α β : Type} {x : Except HttpError α} {f : α → Except HttpError β}
    {P : HttpError → Prop} (hx : ∀ e, x = .error e → P e)
    (hf : ∀ a e, f a = .error e → P e) {e : HttpError} (h : (x >>= f) = .error e) : P e := by
  cases x with
  | error e' =>
      obtain rfl : e' = e := by simpa [bind, Except.bind] using h
      exact hx e' rfl
  | ok a => exact hf a e h

/-- A malformed header is reported as one. -/
theorem parseHeaders_error {response : HttpResponse} {endpoint : String} {e : HttpError}
    (h : parseHeaders response endpoint = .error e) : ∃ detail, e = .invalidHeader detail := by
  unfold parseHeaders at h
  refine bind_error (fun e he => parseOptional_error (fun _ => ⟨_, rfl⟩) he) (fun _ e h => ?_) h
  refine bind_error (fun e he => parseOptional_error (fun _ => ⟨_, rfl⟩) he) (fun _ e h => ?_) h
  refine bind_error (fun e he => parseOptional_error (fun _ => ⟨_, rfl⟩) he) (fun _ e h => ?_) h
  refine bind_error (fun e he => parseOptional_error (fun _ => ⟨_, rfl⟩) he) (fun _ e h => ?_) h
  refine bind_error (fun e he => parseOptional_error (fun _ => ⟨_, rfl⟩) he) (fun _ e h => ?_) h
  refine bind_error (fun e he => parseSyncRequired_error he) (fun _ e h => ?_) h
  cases h

/-- An envelope with an error code is no success, whatever its data. -/
theorem ApiEnvelope.intoTyped_of_code_ne {T : Type} {serde : SerdeJson T} {envelope : ApiEnvelope}
    (h : envelope.code ≠ 0) : ∃ api, envelope.intoTyped serde = .error (.api api) := by
  simp [intoTyped, intoResult, h]

/-- Typed data is refused with an error of the envelope, which carries no HTTP status of
its own. -/
theorem isUnauthorized_mapEnvelopeError {error : EnvelopeError} {status : ℕ} {endpoint : String}
    (h : isUnauthorized (mapEnvelopeError error status endpoint) = true) : status = 401 := by
  unfold mapEnvelopeError at h
  split at h
  · dsimp only at h
    split at h
    · cases h
    · simpa [isUnauthorized, ApiError.withHttpContext] using h
  · cases h

/-- The headers and the envelope of a response can be read. -/
structure Readable {T : Type} (serde : SerdeJson T) (response : HttpResponse)
    (endpoint : String) : Prop where
  headers : ∃ headers, parseHeaders response endpoint = .ok headers
  envelope : ∃ envelope, serde.fromSlice response.body = .ok envelope

/-- **A response is recognised as unauthorized exactly if** its status is 401 and its
headers and envelope can be read. -/
theorem decodeJson_unauthorized_iff {T : Type} (serde : SerdeJson T) (response : HttpResponse)
    (endpoint : String) :
    (∃ e, decodeJson serde response endpoint = .error e ∧ isUnauthorized e = true) ↔
      response.status = 401 ∧ Readable serde response endpoint := by
  unfold decodeJson
  by_cases hempty : response.status = 204
  · simp [hempty, isUnauthorized]
  simp only [hempty, if_false]
  cases hheaders : parseHeaders response endpoint with
  | error e =>
      obtain ⟨detail, rfl⟩ := parseHeaders_error hheaders
      have hunreadable : ¬ Readable serde response endpoint := by
        rintro ⟨⟨headers, h⟩, -⟩
        rw [hheaders] at h
        cases h
      simp [isUnauthorized, hunreadable]
  | ok headers =>
      cases hbody : serde.fromSlice response.body with
      | error detail =>
          have hunreadable : ¬ Readable serde response endpoint := by
            rintro ⟨-, envelope, h⟩
            rw [hbody] at h
            cases h
          simp [isUnauthorized, hunreadable]
      | ok envelope =>
          have hreadable : Readable serde response endpoint :=
            ⟨⟨headers, hheaders⟩, envelope, hbody⟩
          simp only [hreadable, and_true]
          constructor
          · rintro ⟨e, he, hunauthorized⟩
            split at he
            · cases he
              simpa [isUnauthorized] using hunauthorized
            · split at he
              · cases he
              · cases he
                exact isUnauthorized_mapEnvelopeError hunauthorized
          · intro hstatus
            by_cases hcode : envelope.code = 0
            · exact ⟨.httpStatus 401 endpoint, by simp [hstatus, hcode], rfl⟩
            · obtain ⟨api, happi⟩ : ∃ api, envelope.intoTyped serde = .error (.api api) :=
                ApiEnvelope.intoTyped_of_code_ne hcode
              refine ⟨mapEnvelopeError (.api api) 401 endpoint, ?_, ?_⟩
              · simp [hstatus, hcode, happi]
              · simp [mapEnvelopeError, isUnauthorized, ApiError.withHttpContext]

end ZephyrVox.Http
