import ZephyrVox.Types.Ids
import ZephyrVox.Wire.ServerCard

/-!
# Negotiated voice sessions

The values one HTTP join hands to the UDP transport: the session key and its
cache, and the validated configuration from which a packet codec is built.

## Main definitions

* `SessionKey`, `SessionKeyCache` — the 32-byte master key and the shared cache.
* `VoiceSessionConfig` — a validated configuration; the bounds its constructor
  checks are fields.
* `VoiceSessionConfig.resolveKey`, `VoiceSessionConfig.cacheInlineKey` — the key
  lifecycle of a created and of a reused session.
* `VoiceStatus` — the lifecycle of one UDP session.
-/

namespace ZephyrVox.Voice

/-! ## The wire constants -/

/-- The outer UDP header size in bytes. -/
def OUTER_HEADER_SIZE : ℕ := 30

/-- The per-channel UDP header size in bytes. -/
def CHANNEL_HEADER_SIZE : ℕ := 12

/-- The AES-GCM authentication tag size in bytes. -/
def TAG_SIZE : ℕ := 16

/-- The hard maximum datagram size. -/
def MAX_PACKET_SIZE : ℕ := 1200

/-- The stream type reserved for heartbeats. -/
def HEARTBEAT_STREAM_TYPE : UInt8 := 0

/-- The payload limit of a packet protection mode. -/
def maxPayload (encrypted : Bool) : ℕ :=
  if encrypted then MAX_PACKET_SIZE - OUTER_HEADER_SIZE - CHANNEL_HEADER_SIZE - TAG_SIZE
  else MAX_PACKET_SIZE - OUTER_HEADER_SIZE - CHANNEL_HEADER_SIZE

/-- Whether a stream type is available for application media. -/
def isBusinessStreamType (streamType : UInt8) : Bool := streamType != HEARTBEAT_STREAM_TYPE

/-! ## Errors and lifecycle -/

/-- Why a server packet stopped the media session. -/
inductive RevocationReason
  | replaced
  | revoked
  | unknown (value : UInt8)
  deriving DecidableEq, Repr

/-- The reason of a wire byte. -/
def RevocationReason.fromWire (value : UInt8) : RevocationReason :=
  if value = 0x01 then .replaced else if value = 0x02 then .revoked else .unknown value

/-- The wire byte of a reason. -/
def RevocationReason.asWire : RevocationReason → UInt8
  | .replaced => 0x01
  | .revoked => 0x02
  | .unknown value => value

/-- A reason that came from a wire byte goes back to that byte. -/
theorem RevocationReason.asWire_fromWire (value : UInt8) : (fromWire value).asWire = value := by
  unfold fromWire
  split
  case isTrue h => rw [h]; rfl
  · split
    case isTrue h => rw [h]; rfl
    · rfl

/-- Errors raised while encoding or validating one datagram. -/
inductive PacketError
  | truncated
  | oversized
  | invalidMagic
  | unsupportedVersion (version : UInt8)
  | invalidFlags
  | wrongSession
  | sequenceZero
  | authenticationFailed
  | invalidControlPacket
  | invalidSpeaker
  | unknownStreamType (streamType : UInt8)
  | payloadTooLarge (actual maximum : ℕ)
  | heartbeatStream
  deriving DecidableEq, Repr

/-- Errors raised by the UDP voice transport. -/
inductive VoiceError
  | configuration (detail : String)
  | endpoint (detail : String)
  | transport (detail : String)
  | packet (error : PacketError)
  | keyUnavailable
  | protocolVersionMismatch (expected actual : ℕ)
  | queueFull
  | mediaLagged (missed : ℕ)
  | closed
  | notActive
  | sequenceExhausted
  | revoked (reason : RevocationReason)
  deriving DecidableEq, Repr

/-- The locally observable lifecycle of one negotiated UDP session. -/
inductive VoiceStatus
  | idle
  | joining
  | active
  | disconnecting
  | disconnected
  | revoked (reason : RevocationReason)
  deriving DecidableEq, Repr

/-- Whether a status cannot become active again. -/
def VoiceStatus.isTerminal : VoiceStatus → Bool
  | .disconnected | .revoked _ => true
  | .idle | .joining | .active | .disconnecting => false

/-! ## Session keys -/

/-- A voice master key. -/
structure SessionKey where
  asBytes : List UInt8
  length_eq : asBytes.length = 32
  deriving Repr

theorem SessionKey.asBytes_inj {a b : SessionKey} : a.asBytes = b.asBytes ↔ a = b := by
  cases a
  cases b
  simp

instance : DecidableEq SessionKey := fun _ _ => decidable_of_iff _ SessionKey.asBytes_inj

/-- A key from a byte slice of exactly 32 bytes. -/
def SessionKey.fromSlice (bytes : List UInt8) : Except VoiceError SessionKey :=
  if h : bytes.length = 32 then .ok ⟨bytes, h⟩
  else .error (.configuration "voice session key must be exactly 32 bytes")

/-- The keys of encrypted sessions, shared by a client and its workers. -/
abbrev SessionKeyCache := VoiceSessionId → Option SessionKey

namespace SessionKeyCache

/-- An empty cache. -/
def new : SessionKeyCache := fun _ => none

/-- Store or replace the key of one session. -/
def insert (cache : SessionKeyCache) (id : VoiceSessionId) (key : SessionKey) :
    SessionKeyCache := Function.update cache id (some key)

/-- Forget the key of one session. -/
def remove (cache : SessionKeyCache) (id : VoiceSessionId) : SessionKeyCache :=
  Function.update cache id none

end SessionKeyCache

/-! ## Configuration -/

/-- A host and port advertised for UDP voice. -/
structure VoiceEndpoint where
  host : String
  port : UInt16
  deriving DecidableEq, Repr

/-- Reject endpoints that are no concrete remote address. -/
def validateEndpoint (endpoint : VoiceEndpoint) : Except VoiceError Unit :=
  if (Wire.trim endpoint.host.toList).isEmpty || endpoint.port = 0 then
    .error (.configuration "voice endpoint must have a host and non-zero port")
  else if (Wire.IpAddr.fromStr endpoint.host.toList).any Wire.IpAddr.isUnspecified then
    .error (.configuration "voice endpoint must not be a wildcard address")
  else .ok ()

/-- Validated values of one HTTP join and the server metadata. -/
structure VoiceSessionConfig where
  endpoint : VoiceEndpoint
  sessionId : VoiceSessionId
  encrypted : Bool
  maxPayload : ℕ
  expiresAt : ℤ
  sessionKey : Option SessionKey
  allowedStreamTypes : Option (List UInt8)
  payload_pos : 0 < maxPayload
  payload_le : maxPayload ≤ Voice.maxPayload encrypted
  expiry_pos : 0 < expiresAt
  plain_no_key : encrypted = false → sessionKey = none
  business : ∀ types ∈ allowedStreamTypes, types ≠ [] ∧ HEARTBEAT_STREAM_TYPE ∉ types

namespace VoiceSessionConfig

/-- A configuration under an explicit protocol version. -/
def newWithProtocolVersion (endpoint : VoiceEndpoint) (sessionId : VoiceSessionId)
    (protocolVersion : ℕ) (encrypted : Bool) (maxPayload : ℕ) (expiresAt : ℤ)
    (sessionKey : Option SessionKey) : Except VoiceError VoiceSessionConfig := do
  validateEndpoint endpoint
  if protocolVersion ≠ Wire.PROTOCOL_VERSION then
    .error (.protocolVersionMismatch Wire.PROTOCOL_VERSION protocolVersion)
  else if hp : maxPayload = 0 ∨ Voice.maxPayload encrypted < maxPayload then
    .error (.configuration ("voice payload limit must be between 1 and " ++
      toString (Voice.maxPayload encrypted) ++ " bytes"))
  else if he : expiresAt ≤ 0 then
    .error (.configuration "voice session expiry must be positive")
  else if hk : encrypted = false ∧ sessionKey.isSome then
    .error (.configuration "plaintext sessions must not carry a session key")
  else
    .ok {
      endpoint := endpoint
      sessionId := sessionId
      encrypted := encrypted
      maxPayload := maxPayload
      expiresAt := expiresAt
      sessionKey := sessionKey
      allowedStreamTypes := none
      payload_pos := by omega
      payload_le := by omega
      expiry_pos := by omega
      plain_no_key := fun h => by simpa [h] using hk
      business := fun _ h => by cases h }

/-- A new configuration has the values it was made of. -/
theorem newWithProtocolVersion_ok {endpoint : VoiceEndpoint} {sessionId : VoiceSessionId}
    {protocolVersion : ℕ} {encrypted : Bool} {maxPayload : ℕ} {expiresAt : ℤ}
    {sessionKey : Option SessionKey} {config : VoiceSessionConfig}
    (h : newWithProtocolVersion endpoint sessionId protocolVersion encrypted maxPayload expiresAt
      sessionKey = .ok config) :
    config.sessionId = sessionId ∧ config.encrypted = encrypted ∧
      config.sessionKey = sessionKey := by
  unfold newWithProtocolVersion at h
  cases hendpoint : validateEndpoint endpoint with
  | error e =>
      rw [hendpoint] at h
      cases h
  | ok _ =>
      rw [hendpoint] at h
      simp only [bind, Except.bind] at h
      split at h
      · cases h
      · split at h
        · cases h
        · split at h
          · cases h
          · split at h
            · cases h
            · cases h
              exact ⟨rfl, rfl, rfl⟩

/-- Restrict media to the stream types the metadata advertises. -/
def withStreamTypes (config : VoiceSessionConfig) (streamTypes : List UInt8) :
    Except VoiceError VoiceSessionConfig :=
  let values := (streamTypes.insertionSort (· ≤ ·)).dedup
  if h : values = [] ∨ HEARTBEAT_STREAM_TYPE ∈ values then
    .error (.configuration "voice stream types must contain business types only")
  else
    .ok { config with
      allowedStreamTypes := some values
      business := by
        intro types ht
        cases ht
        exact not_or.mp h }

/-- Restricting the stream types changes nothing else. -/
theorem withStreamTypes_ok {config config' : VoiceSessionConfig} {streamTypes : List UInt8}
    (h : config.withStreamTypes streamTypes = .ok config') :
    config'.sessionId = config.sessionId ∧ config'.encrypted = config.encrypted ∧
      config'.sessionKey = config.sessionKey := by
  unfold withStreamTypes at h
  dsimp only at h
  split at h
  · cases h
  · cases h
    exact ⟨rfl, rfl, rfl⟩

/-- The inline key, or the cached key of the session. -/
def resolveKey (config : VoiceSessionConfig) (cache : SessionKeyCache) :
    Except VoiceError (Option SessionKey) :=
  if !config.encrypted then .ok none
  else
    match config.sessionKey.or (cache config.sessionId) with
    | some key => .ok (some key)
    | none => .error .keyUnavailable

/-- A key is missing only if neither the configuration nor the cache has one. -/
theorem resolveKey_error {config : VoiceSessionConfig} {cache : SessionKeyCache} {e : VoiceError}
    (h : config.resolveKey cache = .error e) :
    config.sessionKey = none ∧ cache config.sessionId = none := by
  unfold resolveKey at h
  split at h
  · cases h
  · split at h
    · cases h
    case h_2 hnone => exact Option.or_eq_none_iff.mp hnone

/-- Store an inline key before the configuration is dropped. -/
def cacheInlineKey (config : VoiceSessionConfig) (cache : SessionKeyCache) : SessionKeyCache :=
  match config.sessionKey with
  | some key => cache.insert config.sessionId key
  | none => cache

end VoiceSessionConfig

end ZephyrVox.Voice
