import ZephyrVox.Lib.Bytes
import ZephyrVox.Voice.Config

/-!
# The UDP packet codec

Datagrams of one negotiated session: an outer header, used as additional data of
the AEAD, and a body that is sealed when the session is encrypted. AES-GCM and
HKDF are parameters (`Crypto K`); a cipher is a value of `K`.

## Main definitions

* `Crypto K`, `DirectionKeys K`, `deriveDirectionKeys` — the two directional keys.
* `nonceFor` — the 96-bit nonce of a transport sequence.
* `PacketCodec K` — a codec, built from a configuration by `PacketCodec.fromConfig`.
* `PacketCodec.encodeBody`, `PacketCodec.decodeDirection` — one datagram.
* `nonceFor_injOn` — different 64-bit sequences have different nonces.
-/

namespace ZephyrVox.Voice

open Bytes

variable {K : Type}

/-! ## Cryptography -/

/-- The primitives the codec calls. -/
structure Crypto (K : Type) where
  /-- HKDF-SHA256 with a salt, key material and an info string, expanded to an
  AES-256-GCM cipher. -/
  deriveCipher : (salt material info : List UInt8) → K
  /-- AEAD encryption under a nonce, of a message with additional data. -/
  encrypt : K → (nonce message aad : List UInt8) → Option (List UInt8)
  /-- AEAD decryption. -/
  decrypt : K → (nonce ciphertext aad : List UInt8) → Option (List UInt8)

/-- The bytes of an ASCII text. -/
def asciiBytes (text : String) : List UInt8 := text.toList.map fun c => UInt8.ofNat c.toNat

/-- The info string of the client-to-server key. -/
def C2S_INFO : List UInt8 := asciiBytes "zephyrvox-voice-c2s-v1"

/-- The info string of the server-to-client key. -/
def S2C_INFO : List UInt8 := asciiBytes "zephyrvox-voice-s2c-v1"

/-- The independent ciphers of the two directions. -/
structure DirectionKeys (K : Type) where
  c2s : K
  s2c : K

/-- The direction-separated ciphers of one join key. -/
def deriveDirectionKeys (crypto : Crypto K) (id : VoiceSessionId) (key : SessionKey) :
    DirectionKeys K where
  c2s := crypto.deriveCipher id.asBytes key.asBytes C2S_INFO
  s2c := crypto.deriveCipher id.asBytes key.asBytes S2C_INFO

/-- The deterministic nonce of one transport sequence. -/
def nonceFor (sequence : ℕ) : List UInt8 := List.replicate 4 0 ++ toBeBytes 8 sequence

/-- **Different sequences have different nonces.** -/
theorem nonceFor_injOn {n m : ℕ} (hn : n < 2 ^ 64) (hm : m < 2 ^ 64)
    (h : nonceFor n = nonceFor m) : n = m := by
  have hbytes : toBeBytes 8 n = toBeBytes 8 m := List.append_cancel_left h
  have hwidth : (256 : ℕ) ^ 8 = 2 ^ 64 := by decide
  exact toBeBytes_injOn (hwidth ▸ hn) (hwidth ▸ hm) hbytes

/-- Encrypt one packet body with its outer header as additional data. -/
def sealBody (crypto : Crypto K) (cipher : K) (sequence : ℕ) (header plaintext : List UInt8) :
    Except PacketError (List UInt8) :=
  if sequence = 0 then .error .sequenceZero
  else
    match crypto.encrypt cipher (nonceFor sequence) plaintext header with
    | some ciphertext => .ok ciphertext
    | none => .error .authenticationFailed

/-- Decrypt one packet body with its outer header as additional data. -/
def openBody (crypto : Crypto K) (cipher : K) (sequence : ℕ) (header ciphertext : List UInt8) :
    Except PacketError (List UInt8) :=
  if sequence = 0 then .error .sequenceZero
  else
    match crypto.decrypt cipher (nonceFor sequence) ciphertext header with
    | some plaintext => .ok plaintext
    | none => .error .authenticationFailed

/-! ## The codec -/

/-- The four bytes every datagram starts with. -/
def MAGIC : List UInt8 := asciiBytes "ZVX1"

/-- The protocol version byte. -/
def VERSION_BYTE : UInt8 := UInt8.ofNat Wire.PROTOCOL_VERSION

/-- A stateless codec of one negotiated session. -/
structure PacketCodec (K : Type) where
  sessionId : VoiceSessionId
  encrypted : Bool
  maxPayload : ℕ
  keys : Option (DirectionKeys K)
  allowedStreamTypes : UInt8 → Bool

/-- A non-media packet of the reserved stream. -/
inductive PacketControl
  | heartbeat
  | revocation (reason : RevocationReason)
  deriving DecidableEq, Repr

/-- A validated packet. -/
structure DecodedPacket where
  sessionId : VoiceSessionId
  transportSeq : ℕ
  streamType : UInt8
  channelSeq : UInt16
  flags : UInt8
  speakerId : Option Snowflake
  payload : List UInt8
  control : Option PacketControl
  deriving DecidableEq, Repr

namespace PacketCodec

/-- The stream types a configuration admits. -/
def allowed (config : VoiceSessionConfig) (streamType : UInt8) : Bool :=
  match config.allowedStreamTypes with
  | none => streamType != HEARTBEAT_STREAM_TYPE
  | some types => types.contains streamType

/-- A codec, and the cache after an inline key was stored in it. -/
def fromConfig (crypto : Crypto K) (config : VoiceSessionConfig) (cache : SessionKeyCache) :
    SessionKeyCache × Except VoiceError (PacketCodec K) :=
  let cache := config.cacheInlineKey cache
  match config.resolveKey cache with
  | .error e => (cache, .error e)
  | .ok key =>
      (cache, .ok {
        sessionId := config.sessionId
        encrypted := config.encrypted
        maxPayload := config.maxPayload
        keys := key.map (deriveDirectionKeys crypto config.sessionId)
        allowedStreamTypes := allowed config })

/-- Building a codec stores no key but that of its session. -/
theorem fromConfig_cache (crypto : Crypto K) (config : VoiceSessionConfig) (cache : SessionKeyCache)
    {id : VoiceSessionId} (hid : config.sessionId ≠ id) :
    (fromConfig crypto config cache).1 id = cache id := by
  have hcache : config.cacheInlineKey cache id = cache id := by
    unfold VoiceSessionConfig.cacheInlineKey
    cases config.sessionKey with
    | none => rfl
    | some key => exact Function.update_of_ne (Ne.symm hid) _ _
  unfold fromConfig
  dsimp only
  split <;> exact hcache

/-- A codec that cannot be built had no key to store, and none in the cache. -/
theorem fromConfig_error {crypto : Crypto K} {config : VoiceSessionConfig}
    {cache cache' : SessionKeyCache} {e : VoiceError}
    (h : fromConfig crypto config cache = (cache', .error e)) :
    cache' = cache ∧ cache config.sessionId = none := by
  unfold fromConfig at h
  dsimp only at h
  split at h
  case h_1 e' hresolve =>
    obtain ⟨hinline, hcached⟩ := VoiceSessionConfig.resolveKey_error hresolve
    have hcache : config.cacheInlineKey cache = cache := by
      simp [VoiceSessionConfig.cacheInlineKey, hinline]
    rw [hcache] at hcached h
    cases h
    exact ⟨rfl, hcached⟩
  · cases h

theorem fromConfig_sessionId {crypto : Crypto K} {config : VoiceSessionConfig}
    {cache : SessionKeyCache} {codec : PacketCodec K}
    (h : (fromConfig crypto config cache).2 = .ok codec) :
    codec.sessionId = config.sessionId := by
  unfold fromConfig at h
  dsimp only at h
  split at h
  · cases h
  · cases h
    rfl

/-- Validate a media stream and a payload length against the negotiation. -/
def validateMedia (codec : PacketCodec K) (streamType : UInt8) (length : ℕ) :
    Except PacketError Unit :=
  if streamType = HEARTBEAT_STREAM_TYPE then .error .heartbeatStream
  else if !isBusinessStreamType streamType || !codec.allowedStreamTypes streamType then
    .error (.unknownStreamType streamType)
  else if codec.maxPayload < length then .error (.payloadTooLarge length codec.maxPayload)
  else .ok ()

/-- The cipher of a direction. -/
def directionKey (keys : DirectionKeys K) (clientToServer : Bool) : K :=
  if clientToServer then keys.c2s else keys.s2c

/-- The outer header of a datagram. -/
def outerHeader (codec : PacketCodec K) (transportSeq : ℕ) : List UInt8 :=
  MAGIC ++ [VERSION_BYTE, 0] ++ codec.sessionId.asBytes ++ toBeBytes 8 transportSeq

/-- The channel header and payload of a datagram. -/
def channelBody (streamType : UInt8) (channelSeq : UInt16) (speakerId : ℕ)
    (payload : List UInt8) : List UInt8 :=
  [streamType] ++ toBeBytes 2 channelSeq.toNat ++ [0] ++ toBeBytes 8 speakerId ++ payload

/-- Build one datagram and apply direction-specific encryption. -/
def encodeBody (crypto : Crypto K) (codec : PacketCodec K) (transportSeq : ℕ)
    (streamType : UInt8) (channelSeq : UInt16) (speakerId : ℕ) (payload : List UInt8)
    (clientToServer : Bool) : Except PacketError (List UInt8) := do
  if transportSeq = 0 then .error .sequenceZero
  else
    let header := codec.outerHeader transportSeq
    let body := channelBody streamType channelSeq speakerId payload
    let body ←
      if codec.encrypted then
        match codec.keys with
        | none => .error .authenticationFailed
        | some keys => sealBody crypto (directionKey keys clientToServer) transportSeq header body
      else .ok body
    if MAX_PACKET_SIZE < OUTER_HEADER_SIZE + body.length then .error .oversized
    else .ok (header ++ body)

/-- One client-to-server media datagram. -/
def encodeMedia (crypto : Crypto K) (codec : PacketCodec K) (transportSeq : ℕ)
    (channelSeq : UInt16) (streamType : UInt8) (payload : List UInt8) :
    Except PacketError (List UInt8) := do
  codec.validateMedia streamType payload.length
  codec.encodeBody crypto transportSeq streamType channelSeq 0 payload true

/-- One empty client-to-server heartbeat. -/
def encodeHeartbeat (crypto : Crypto K) (codec : PacketCodec K) (transportSeq : ℕ) :
    Except PacketError (List UInt8) :=
  codec.encodeBody crypto transportSeq HEARTBEAT_STREAM_TYPE 0 0 [] true

/-- One server-to-client media datagram. -/
def encodeServerMedia (crypto : Crypto K) (codec : PacketCodec K) (transportSeq : ℕ)
    (channelSeq : UInt16) (streamType : UInt8) (speakerId : Snowflake) (payload : List UInt8) :
    Except PacketError (List UInt8) := do
  codec.validateMedia streamType payload.length
  codec.encodeBody crypto transportSeq streamType channelSeq speakerId.get payload false

/-- One server-to-client revocation of one byte. -/
def encodeRevocation (crypto : Crypto K) (codec : PacketCodec K) (transportSeq : ℕ)
    (reason : RevocationReason) : Except PacketError (List UInt8) :=
  codec.encodeBody crypto transportSeq HEARTBEAT_STREAM_TYPE 0 0 [reason.asWire] false

/-- The fields of a decrypted body, under the rules of its direction. -/
def decodeFields (codec : PacketCodec K) (clientToServer : Bool) (transportSeq : ℕ)
    (body : List UInt8) : Except PacketError DecodedPacket :=
  let streamType := body.headD 0
  let channelSeq := ofBeBytes ((body.drop 1).take 2)
  let flags := (body.drop 3).headD 0
  let speakerRaw := ofBeBytes ((body.drop 4).take 8)
  let payload := body.drop CHANNEL_HEADER_SIZE
  let packet : DecodedPacket := {
    sessionId := codec.sessionId
    transportSeq := transportSeq
    streamType := streamType
    channelSeq := UInt16.ofNat channelSeq
    flags := flags
    speakerId := none
    payload := payload
    control := none }
  if flags ≠ 0 then .error .invalidFlags
  else if streamType = HEARTBEAT_STREAM_TYPE then
    if channelSeq ≠ 0 ∨ speakerRaw ≠ 0 ∨ 1 < payload.length ∨
        (clientToServer ∧ payload ≠ []) then
      .error .invalidControlPacket
    else
      match payload with
      | [] => .ok { packet with control := some .heartbeat }
      | reason :: _ =>
          .ok { packet with control := some (.revocation (RevocationReason.fromWire reason)) }
  else if !isBusinessStreamType streamType || !codec.allowedStreamTypes streamType then
    .error (.unknownStreamType streamType)
  else if clientToServer then
    if speakerRaw ≠ 0 then .error .invalidSpeaker
    else if codec.maxPayload < payload.length then
      .error (.payloadTooLarge payload.length codec.maxPayload)
    else .ok packet
  else
    match Snowflake.new speakerRaw with
    | none => .error .invalidSpeaker
    | some speaker =>
        if codec.maxPayload < payload.length then
          .error (.payloadTooLarge payload.length codec.maxPayload)
        else .ok { packet with speakerId := some speaker }

/-- Parse one datagram under the key and speaker rules of a direction. -/
def decodeDirection (crypto : Crypto K) (codec : PacketCodec K) (datagram : List UInt8)
    (clientToServer : Bool) : Except PacketError DecodedPacket := do
  if datagram.length < OUTER_HEADER_SIZE + CHANNEL_HEADER_SIZE then .error .truncated
  else if MAX_PACKET_SIZE < datagram.length then .error .oversized
  else if datagram.take 4 ≠ MAGIC then .error .invalidMagic
  else
    let version := (datagram.drop 4).headD 0
    let transportSeq := ofBeBytes ((datagram.drop 22).take 8)
    if version ≠ VERSION_BYTE then .error (.unsupportedVersion version)
    else if (datagram.drop 5).headD 0 ≠ 0 then .error .invalidFlags
    else if FixedId.fromBytes ((datagram.drop 6).take 16) ≠ some codec.sessionId then
      .error .wrongSession
    else if transportSeq = 0 then .error .sequenceZero
    else
      let rest := datagram.drop OUTER_HEADER_SIZE
      let body ←
        if codec.encrypted then
          if datagram.length < OUTER_HEADER_SIZE + CHANNEL_HEADER_SIZE + TAG_SIZE then
            .error .truncated
          else
            match codec.keys with
            | none => .error .authenticationFailed
            | some keys =>
                openBody crypto (directionKey keys clientToServer) transportSeq
                  (datagram.take OUTER_HEADER_SIZE) rest
        else .ok rest
      if body.length < CHANNEL_HEADER_SIZE then .error .truncated
      else codec.decodeFields clientToServer transportSeq body

/-- One server-to-client datagram. -/
def decodeServer (crypto : Crypto K) (codec : PacketCodec K) (datagram : List UInt8) :
    Except PacketError DecodedPacket := codec.decodeDirection crypto datagram false

/-- One client-to-server datagram. -/
def decodeClient (crypto : Crypto K) (codec : PacketCodec K) (datagram : List UInt8) :
    Except PacketError DecodedPacket := codec.decodeDirection crypto datagram true

end PacketCodec

end ZephyrVox.Voice
