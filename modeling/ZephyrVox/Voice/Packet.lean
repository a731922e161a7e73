import ZephyrVox.Voice.Codec

/-!
# Encoding and decoding one packet

The encoder writes two headers and a body, sealed if the session is encrypted;
the decoder checks every byte of them. What the encoder writes decodes to what
was encoded, and whatever decodes is what the encoder writes for the result, so a
packet has one encoding. AES-GCM enters through two assumptions: opening a seal
gives the message back, and a text that opens is the seal of its message.

## Main definitions

* `Crypto.RoundTrips`, `Crypto.Canonical` — what is assumed of the AEAD.
* `PacketCodec.Negotiated` — what a codec built from a configuration satisfies.
* `PacketCodec.indexedDecode` — the decoder with its accesses checked.
* `packet_round_trip` — decoding an encoded packet.
* `packet_unique_encoding` — decoding is total, and inverts the encoder.
-/

namespace ZephyrVox.Voice

open Bytes

variable {K : Type}

/-! ## Assumptions on the AEAD -/

/-- Messages of the size of a packet are sealed, and a seal opens to its message. -/
structure Crypto.RoundTrips (crypto : Crypto K) : Prop where
  encrypts : ∀ k nonce message aad, nonce.length = 12 → message.length ≤ MAX_PACKET_SIZE →
    ∃ ciphertext, crypto.encrypt k nonce message aad = some ciphertext
  opens : ∀ k nonce message aad ciphertext,
    crypto.encrypt k nonce message aad = some ciphertext →
    crypto.decrypt k nonce ciphertext aad = some message
  length : ∀ k nonce message aad ciphertext,
    crypto.encrypt k nonce message aad = some ciphertext →
    ciphertext.length = message.length + TAG_SIZE

/-- Bodies of media are sealed, and a seal is longer than its message by the tag. -/
structure Crypto.Seals (crypto : Crypto K) : Prop where
  encrypts : ∀ k nonce message aad, nonce.length = 12 →
    message.length ≤ CHANNEL_HEADER_SIZE + maxPayload true →
    ∃ ciphertext, crypto.encrypt k nonce message aad = some ciphertext
  length : ∀ k nonce message aad ciphertext,
    crypto.encrypt k nonce message aad = some ciphertext →
    ciphertext.length = message.length + TAG_SIZE

theorem Crypto.RoundTrips.seals {crypto : Crypto K} (h : crypto.RoundTrips) : crypto.Seals where
  encrypts k nonce message aad hnonce hlength :=
    h.encrypts k nonce message aad hnonce (Nat.le_trans hlength (by decide))
  length := h.length

/-- A text that opens is the seal of its message. -/
structure Crypto.Canonical (crypto : Crypto K) : Prop where
  seals : ∀ k nonce ciphertext aad message,
    crypto.decrypt k nonce ciphertext aad = some message →
    crypto.encrypt k nonce message aad = some ciphertext

theorem length_nonceFor (sequence : ℕ) : (nonceFor sequence).length = 12 := by
  simp [nonceFor]

/-! ## The layout of the headers -/

namespace PacketCodec

variable {crypto : Crypto K} {codec : PacketCodec K} {transportSeq : ℕ} {streamType : UInt8}
  {channelSeq : UInt16} {speakerId : ℕ} {payload : List UInt8} {clientToServer : Bool}

theorem length_outerHeader (codec : PacketCodec K) (transportSeq : ℕ) :
    (codec.outerHeader transportSeq).length = OUTER_HEADER_SIZE := by
  have hmagic : MAGIC.length = 4 := by decide
  simp [outerHeader, codec.sessionId.length_eq, hmagic, OUTER_HEADER_SIZE]

theorem length_channelBody (streamType : UInt8) (channelSeq : UInt16) (speakerId : ℕ)
    (payload : List UInt8) : (channelBody streamType channelSeq speakerId payload).length =
      CHANNEL_HEADER_SIZE + payload.length := by
  simp [channelBody, CHANNEL_HEADER_SIZE]
  omega

/-- The fields of the outer header, as the decoder reads them. -/
theorem outerHeader_fields (codec : PacketCodec K) (transportSeq : ℕ) (rest : List UInt8) :
    (codec.outerHeader transportSeq ++ rest).take 4 = MAGIC ∧
      ((codec.outerHeader transportSeq ++ rest).drop 4).headD 0 = VERSION_BYTE ∧
      ((codec.outerHeader transportSeq ++ rest).drop 5).headD 0 = 0 ∧
      ((codec.outerHeader transportSeq ++ rest).drop 6).take 16 = codec.sessionId.asBytes ∧
      ((codec.outerHeader transportSeq ++ rest).drop 22).take 8 = toBeBytes 8 transportSeq := by
  have hmagic : MAGIC = [90, 86, 88, 49] := by decide
  have hshape : codec.outerHeader transportSeq ++ rest =
      90 :: 86 :: 88 :: 49 :: VERSION_BYTE :: 0 ::
        (codec.sessionId.asBytes ++ (toBeBytes 8 transportSeq ++ rest)) := by
    simp [outerHeader, hmagic]
  rw [hshape]
  refine ⟨by simp [hmagic], by simp, by simp, ?_, ?_⟩
  · simp only [List.drop_succ_cons, List.drop_zero]
    exact List.take_left' codec.sessionId.length_eq
  · simp only [List.drop_succ_cons]
    rw [List.drop_left' codec.sessionId.length_eq]
    exact List.take_left' (length_toBeBytes 8 transportSeq)

/-- The fields of the channel header, as the decoder reads them. -/
theorem channelBody_fields (streamType : UInt8) (channelSeq : UInt16) (speakerId : ℕ)
    (payload : List UInt8) :
    (channelBody streamType channelSeq speakerId payload).headD 0 = streamType ∧
      ((channelBody streamType channelSeq speakerId payload).drop 1).take 2 =
        toBeBytes 2 channelSeq.toNat ∧
      ((channelBody streamType channelSeq speakerId payload).drop 3).headD 0 = 0 ∧
      ((channelBody streamType channelSeq speakerId payload).drop 4).take 8 =
        toBeBytes 8 speakerId ∧
      (channelBody streamType channelSeq speakerId payload).drop CHANNEL_HEADER_SIZE =
        payload := by
  have hshape : channelBody streamType channelSeq speakerId payload =
      streamType ::
        (toBeBytes 2 channelSeq.toNat ++ (0 :: (toBeBytes 8 speakerId ++ payload))) := by
    simp [channelBody]
  have hdrop (n : ℕ) : (toBeBytes 2 channelSeq.toNat ++
      (0 :: (toBeBytes 8 speakerId ++ payload))).drop (2 + n) =
        (0 :: (toBeBytes 8 speakerId ++ payload)).drop n := by
    rw [← List.drop_drop, List.drop_left' (length_toBeBytes 2 _)]
  rw [hshape]
  refine ⟨rfl, ?_, ?_, ?_, ?_⟩
  · simp only [List.drop_succ_cons, List.drop_zero]
    exact List.take_left' (length_toBeBytes 2 _)
  · simp only [List.drop_succ_cons]
    rw [hdrop 0]
    rfl
  · simp only [List.drop_succ_cons]
    rw [hdrop 1]
    exact List.take_left' (length_toBeBytes 8 _)
  · rw [CHANNEL_HEADER_SIZE]
    simp only [List.drop_succ_cons]
    rw [hdrop 9]
    simp only [List.drop_succ_cons]
    exact List.drop_left' (length_toBeBytes 8 _)

/-! ## Decoding what was encoded -/

/-- The rules of a direction on the fields of a body. -/
def judgeFields (codec : PacketCodec K) (clientToServer : Bool) (transportSeq : ℕ)
    (streamType : UInt8) (channelSeq : ℕ) (flags : UInt8) (speakerRaw : ℕ)
    (payload : List UInt8) : Except PacketError DecodedPacket :=
  let packet : DecodedPacket := {
    sessionId := codec.sessionId
    transportSeq := transportSeq
    streamType := streamType
    channelSeq := UInt16.ofNat channelSeq
    flags := flags
    speakerId := none
    payload := payload
    control := none }
  if flags ≠ 0 then .error .invalidFlags
  else if streamType = HEARTBEAT_STREAM_TYPE then
    if channelSeq ≠ 0 ∨ speakerRaw ≠ 0 ∨ 1 < payload.length ∨
        (clientToServer ∧ payload ≠ []) then
      .error .invalidControlPacket
    else
      match payload with
      | [] => .ok { packet with control := some .heartbeat }
      | reason :: _ =>
          .ok { packet with control := some (.revocation (RevocationReason.fromWire reason)) }
  else if !isBusinessStreamType streamType || !codec.allowedStreamTypes streamType then
    .error (.unknownStreamType streamType)
  else if clientToServer then
    if speakerRaw ≠ 0 then .error .invalidSpeaker
    else if codec.maxPayload < payload.length then
      .error (.payloadTooLarge payload.length codec.maxPayload)
    else .ok packet
  else
    match Snowflake.new speakerRaw with
    | none => .error .invalidSpeaker
    | some speaker =>
        if codec.maxPayload < payload.length then
          .error (.payloadTooLarge payload.length codec.maxPayload)
        else .ok { packet with speakerId := some speaker }

theorem decodeFields_eq (codec : PacketCodec K) (clientToServer : Bool) (transportSeq : ℕ)
    (body : List UInt8) : codec.decodeFields clientToServer transportSeq body =
      codec.judgeFields clientToServer transportSeq (body.headD 0)
        (ofBeBytes ((body.drop 1).take 2)) ((body.drop 3).headD 0)
        (ofBeBytes ((body.drop 4).take 8)) (body.drop CHANNEL_HEADER_SIZE) := rfl

/-- The fields of an encoded body are judged as they were given. -/
theorem decodeFields_channelBody (hspeaker : speakerId < 2 ^ 64) :
    codec.decodeFields clientToServer transportSeq
        (channelBody streamType channelSeq speakerId payload) =
      codec.judgeFields clientToServer transportSeq streamType channelSeq.toNat 0 speakerId
        payload := by
  obtain ⟨hstream, hchannel, hflags, hraw, hpayload⟩ :=
    channelBody_fields streamType channelSeq speakerId payload
  have hwide : (256 : ℕ) ^ 8 = 2 ^ 64 := by decide
  have hseq : channelSeq.toNat < 256 ^ 2 := channelSeq.toNat_lt
  rw [decodeFields_eq, hstream, hchannel, hflags, hraw, hpayload, ofBeBytes_toBeBytes,
    ofBeBytes_toBeBytes, hwide, Nat.mod_eq_of_lt hspeaker, Nat.mod_eq_of_lt hseq]

/-- The body of a datagram, opened if the session is encrypted. -/
def openRest (crypto : Crypto K) (codec : PacketCodec K) (clientToServer : Bool)
    (transportSeq : ℕ) (header rest : List UInt8) : Except PacketError (List UInt8) :=
  if codec.encrypted then
    if OUTER_HEADER_SIZE + rest.length < OUTER_HEADER_SIZE + CHANNEL_HEADER_SIZE + TAG_SIZE then
      .error .truncated
    else
      match codec.keys with
      | none => .error .authenticationFailed
      | some keys =>
          openBody crypto (directionKey keys clientToServer) transportSeq header rest
  else .ok rest

/-- A datagram with the header of the session is judged by its body. -/
theorem decodeDirection_outerHeader {rest : List UInt8} (hseq : transportSeq ≠ 0)
    (hwide : transportSeq < 2 ^ 64) (hlong : CHANNEL_HEADER_SIZE ≤ rest.length)
    (hshort : OUTER_HEADER_SIZE + rest.length ≤ MAX_PACKET_SIZE) :
    codec.decodeDirection crypto (codec.outerHeader transportSeq ++ rest) clientToServer =
      (codec.openRest crypto clientToServer transportSeq (codec.outerHeader transportSeq)
        rest).bind fun body =>
          if body.length < CHANNEL_HEADER_SIZE then .error .truncated
          else codec.decodeFields clientToServer transportSeq body := by
  obtain ⟨hmagic, hversion, hflags, hsession, hsequence⟩ :=
    outerHeader_fields codec transportSeq rest
  have hlength : (codec.outerHeader transportSeq ++ rest).length =
      OUTER_HEADER_SIZE + rest.length := by
    rw [List.length_append, length_outerHeader]
  have hread : ofBeBytes (toBeBytes 8 transportSeq) = transportSeq := by
    rw [ofBeBytes_toBeBytes]
    exact Nat.mod_eq_of_lt (by simpa using hwide)
  have hid : FixedId.fromBytes codec.sessionId.asBytes = some codec.sessionId :=
    dif_pos ⟨codec.sessionId.length_eq, codec.sessionId.nonzero⟩
  have htake : (codec.outerHeader transportSeq ++ rest).take OUTER_HEADER_SIZE =
      codec.outerHeader transportSeq := List.take_left' (length_outerHeader codec transportSeq)
  have hdrop : (codec.outerHeader transportSeq ++ rest).drop OUTER_HEADER_SIZE = rest :=
    List.drop_left' (length_outerHeader codec transportSeq)
  unfold decodeDirection
  rw [hlength, if_neg (by omega), if_neg (by omega), if_neg (by simp [hmagic]), hsequence, hread,
    hversion, hflags, hsession, hid]
  simp only [ne_eq, not_true_eq_false, if_false, if_neg hseq, htake, hdrop]
  unfold openRest
  split
  · split
    · rfl
    · cases codec.keys <;> rfl
  · rfl

/-- The body that the encoder puts after the header. -/
def sealRest (crypto : Crypto K) (codec : PacketCodec K) (clientToServer : Bool)
    (transportSeq : ℕ) (header body : List UInt8) : Except PacketError (List UInt8) :=
  if codec.encrypted then
    match codec.keys with
    | none => .error .authenticationFailed
    | some keys => sealBody crypto (directionKey keys clientToServer) transportSeq header body
  else .ok body

/-- The encoder writes the header, and the sealed body if both fit a packet. -/
theorem encodeBody_eq (hseq : transportSeq ≠ 0) :
    codec.encodeBody crypto transportSeq streamType channelSeq speakerId payload clientToServer =
      (codec.sealRest crypto clientToServer transportSeq (codec.outerHeader transportSeq)
        (channelBody streamType channelSeq speakerId payload)).bind fun rest =>
          if MAX_PACKET_SIZE < OUTER_HEADER_SIZE + rest.length then .error .oversized
          else .ok (codec.outerHeader transportSeq ++ rest) := by
  unfold encodeBody sealRest
  rw [if_neg hseq]
  split
  · cases codec.keys <;> rfl
  · rfl

/-- What a codec of a validated configuration satisfies. -/
structure Negotiated (codec : PacketCodec K) : Prop where
  payload_le : codec.maxPayload ≤ Voice.maxPayload codec.encrypted
  keyed : codec.encrypted = true → ∃ keys, codec.keys = some keys
  business : codec.allowedStreamTypes HEARTBEAT_STREAM_TYPE = false

theorem fromConfig_negotiated {config : VoiceSessionConfig} {cache : SessionKeyCache}
    (h : (fromConfig crypto config cache).2 = .ok codec) : codec.Negotiated := by
  unfold fromConfig at h
  simp only at h
  split at h
  · cases h
  case h_2 key hkey =>
    cases h
    refine ⟨config.payload_le, ?_, ?_⟩
    · intro hencrypted
      unfold VoiceSessionConfig.resolveKey at hkey
      simp only [show config.encrypted = true from hencrypted, Bool.not_true, Bool.false_eq_true,
        if_false] at hkey
      split at hkey
      · cases hkey
        exact ⟨_, rfl⟩
      · cases hkey
    · unfold allowed
      split
      · rfl
      case h_2 types htypes =>
        have hmem := (config.business types htypes).2
        simpa using hmem

/-- The bytes a codec adds to a body. -/
def tagSize (codec : PacketCodec K) : ℕ := if codec.encrypted then TAG_SIZE else 0

/-- A body within the limit of its protection mode is sealed, and fits a packet with
its tag. -/
theorem sealRest_ok (hcrypto : crypto.Seals) (hcodec : codec.Negotiated)
    (clientToServer : Bool) (header : List UInt8) {body : List UInt8} (hseq : transportSeq ≠ 0)
    (hshort : body.length ≤ CHANNEL_HEADER_SIZE + Voice.maxPayload codec.encrypted) :
    ∃ rest, codec.sealRest crypto clientToServer transportSeq header body = .ok rest ∧
      rest.length = body.length + codec.tagSize ∧
      OUTER_HEADER_SIZE + rest.length ≤ MAX_PACKET_SIZE := by
  cases hencrypted : codec.encrypted with
  | false =>
      refine ⟨body, by simp [sealRest, hencrypted], by simp [tagSize, hencrypted], ?_⟩
      simp [hencrypted, Voice.maxPayload, MAX_PACKET_SIZE, OUTER_HEADER_SIZE,
        CHANNEL_HEADER_SIZE] at hshort ⊢
      omega
  | true =>
      obtain ⟨keys, hkeys⟩ := hcodec.keyed hencrypted
      rw [hencrypted] at hshort
      obtain ⟨rest, hrest⟩ := hcrypto.encrypts (directionKey keys clientToServer)
        (nonceFor transportSeq) body header (length_nonceFor _) hshort
      have hlength := hcrypto.length _ _ _ _ _ hrest
      refine ⟨rest, ?_, by simp [tagSize, hencrypted, hlength], ?_⟩
      · simp [sealRest, hencrypted, hkeys, sealBody, hseq, hrest]
      · simp [Voice.maxPayload, MAX_PACKET_SIZE, OUTER_HEADER_SIZE, CHANNEL_HEADER_SIZE,
          TAG_SIZE] at hshort hlength ⊢
        omega

/-- A seal of at least a channel header opens again. -/
theorem openRest_of_sealRest (hcrypto : crypto.RoundTrips) (clientToServer : Bool)
    (header : List UInt8) {body rest : List UInt8} (hseq : transportSeq ≠ 0)
    (hlong : CHANNEL_HEADER_SIZE ≤ body.length)
    (h : codec.sealRest crypto clientToServer transportSeq header body = .ok rest) :
    codec.openRest crypto clientToServer transportSeq header rest = .ok body := by
  cases hencrypted : codec.encrypted with
  | false =>
      have hrest : body = rest := by simpa [sealRest, hencrypted] using h
      simp [openRest, hencrypted, hrest]
  | true =>
      cases hkeys : codec.keys with
      | none => simp [sealRest, hencrypted, hkeys] at h
      | some keys =>
          cases hrest : crypto.encrypt (directionKey keys clientToServer) (nonceFor transportSeq)
            body header with
          | none => simp [sealRest, hencrypted, hkeys, sealBody, hseq, hrest] at h
          | some sealed =>
              have hsealed : sealed = rest := by
                simpa [sealRest, hencrypted, hkeys, sealBody, hseq, hrest] using h
              rw [hsealed] at hrest
              have hlength := hcrypto.length _ _ _ _ _ hrest
              have hopens := hcrypto.opens _ _ _ _ _ hrest
              have hlarge : ¬ OUTER_HEADER_SIZE + rest.length <
                  OUTER_HEADER_SIZE + CHANNEL_HEADER_SIZE + TAG_SIZE := by omega
              simp [openRest, hencrypted, hkeys, openBody, hseq, hopens, hlarge]

/-- **What the encoder writes is judged as it was given.** -/
theorem decodeDirection_encodeBody (hcrypto : crypto.RoundTrips) (hcodec : codec.Negotiated)
    (hseq : transportSeq ≠ 0) (hwide : transportSeq < 2 ^ 64) (streamType : UInt8)
    (channelSeq : UInt16) {speakerId : ℕ} (payload : List UInt8) (clientToServer : Bool)
    (hspeaker : speakerId < 2 ^ 64)
    (hpayload : payload.length ≤ Voice.maxPayload codec.encrypted) :
    ∃ datagram, codec.encodeBody crypto transportSeq streamType channelSeq speakerId payload
        clientToServer = .ok datagram ∧
      codec.decodeDirection crypto datagram clientToServer =
        codec.judgeFields clientToServer transportSeq streamType channelSeq.toNat 0 speakerId
          payload := by
  have hbody := length_channelBody streamType channelSeq speakerId payload
  obtain ⟨rest, hrest, hlength, hshort⟩ := sealRest_ok hcrypto.seals hcodec clientToServer
    (codec.outerHeader transportSeq) hseq (by rw [hbody]; omega)
  have hopen := openRest_of_sealRest hcrypto clientToServer (codec.outerHeader transportSeq) hseq
    (by rw [hbody]; omega) hrest
  refine ⟨codec.outerHeader transportSeq ++ rest, ?_, ?_⟩
  · rw [encodeBody_eq hseq, hrest]
    simp [Except.bind, Nat.not_lt_of_le hshort]
  · rw [decodeDirection_outerHeader hseq hwide (by omega) hshort, hopen]
    have hfits : ¬ (channelBody streamType channelSeq speakerId payload).length <
        CHANNEL_HEADER_SIZE := by
      rw [hbody]
      omega
    simp only [Except.bind, if_neg hfits]
    exact decodeFields_channelBody hspeaker

/-- An admitted stream is not the reserved one. -/
theorem Negotiated.ne_heartbeat (hcodec : codec.Negotiated)
    (hstream : codec.allowedStreamTypes streamType = true) :
    streamType ≠ HEARTBEAT_STREAM_TYPE := by
  rintro rfl
  rw [hcodec.business] at hstream
  cases hstream

theorem Negotiated.validateMedia (hcodec : codec.Negotiated)
    (hstream : codec.allowedStreamTypes streamType = true)
    (hpayload : payload.length ≤ codec.maxPayload) :
    codec.validateMedia streamType payload.length = .ok () := by
  have hne := hcodec.ne_heartbeat hstream
  simp [PacketCodec.validateMedia, hne, isBusinessStreamType, hstream, Nat.not_lt.mpr hpayload]

/-- Media of a client, as its fields are judged. -/
theorem Negotiated.judge_client (hcodec : codec.Negotiated)
    (hstream : codec.allowedStreamTypes streamType = true)
    (hpayload : payload.length ≤ codec.maxPayload) :
    codec.judgeFields true transportSeq streamType channelSeq.toNat 0 0 payload =
      .ok ⟨codec.sessionId, transportSeq, streamType, channelSeq, 0, none, payload, none⟩ := by
  have hne := hcodec.ne_heartbeat hstream
  simp [judgeFields, hne, isBusinessStreamType, hstream, Nat.not_lt.mpr hpayload]

/-- Media of the server, as its fields are judged. -/
theorem Negotiated.judge_server (hcodec : codec.Negotiated) {speaker : Snowflake}
    (hstream : codec.allowedStreamTypes streamType = true)
    (hpayload : payload.length ≤ codec.maxPayload) :
    codec.judgeFields false transportSeq streamType channelSeq.toNat 0 speaker.get payload =
      .ok ⟨codec.sessionId, transportSeq, streamType, channelSeq, 0, some speaker, payload,
        none⟩ := by
  have hne := hcodec.ne_heartbeat hstream
  have hspeaker : Snowflake.new speaker.get = some speaker :=
    dif_pos ⟨speaker.pos, speaker.le_max⟩
  simp [judgeFields, hne, isBusinessStreamType, hstream, Nat.not_lt.mpr hpayload, hspeaker]

end PacketCodec

/-- **What a codec encodes, it decodes.** For every codec of a validated
configuration and every non-zero 64-bit sequence, media of both directions,
heartbeats and revocations are encoded, and decoding gives back exactly what was
encoded. -/
theorem packet_round_trip (crypto : Crypto K) (hcrypto : crypto.RoundTrips)
    (config : VoiceSessionConfig) (cache : SessionKeyCache) (codec : PacketCodec K)
    (hconfig : (PacketCodec.fromConfig crypto config cache).2 = .ok codec)
    (transportSeq : ℕ) (hseq : transportSeq ≠ 0) (hwide : transportSeq < 2 ^ 64) :
    (∀ channelSeq streamType payload, codec.allowedStreamTypes streamType = true →
      payload.length ≤ codec.maxPayload →
      ∃ datagram,
        codec.encodeMedia crypto transportSeq channelSeq streamType payload = .ok datagram ∧
        codec.decodeClient crypto datagram = .ok ⟨codec.sessionId, transportSeq, streamType,
          channelSeq, 0, none, payload, none⟩) ∧
    (∀ channelSeq streamType speaker payload, codec.allowedStreamTypes streamType = true →
      payload.length ≤ codec.maxPayload →
      ∃ datagram, codec.encodeServerMedia crypto transportSeq channelSeq streamType speaker
          payload = .ok datagram ∧
        codec.decodeServer crypto datagram = .ok ⟨codec.sessionId, transportSeq, streamType,
          channelSeq, 0, some speaker, payload, none⟩) ∧
    (∃ datagram, codec.encodeHeartbeat crypto transportSeq = .ok datagram ∧
      codec.decodeClient crypto datagram = .ok ⟨codec.sessionId, transportSeq,
        HEARTBEAT_STREAM_TYPE, 0, 0, none, [], some .heartbeat⟩) ∧
    (∀ value, ∃ datagram, codec.encodeRevocation crypto transportSeq
        (RevocationReason.fromWire value) = .ok datagram ∧
      codec.decodeServer crypto datagram = .ok ⟨codec.sessionId, transportSeq,
        HEARTBEAT_STREAM_TYPE, 0, 0, none, [value],
        some (.revocation (RevocationReason.fromWire value))⟩) := by
  have hcodec := PacketCodec.fromConfig_negotiated hconfig
  have hone : 1 ≤ Voice.maxPayload codec.encrypted := by
    cases codec.encrypted <;> decide
  refine ⟨?_, ?_, ?_, ?_⟩
  · intro channelSeq streamType payload hstream hpayload
    obtain ⟨datagram, hencode, hdecode⟩ := PacketCodec.decodeDirection_encodeBody hcrypto hcodec
      hseq hwide streamType channelSeq payload true (by decide : 0 < 2 ^ 64)
      (Nat.le_trans hpayload hcodec.payload_le)
    refine ⟨datagram, ?_, hdecode.trans (hcodec.judge_client hstream hpayload)⟩
    rw [PacketCodec.encodeMedia, hcodec.validateMedia hstream hpayload]
    exact hencode
  · intro channelSeq streamType speaker payload hstream hpayload
    have hspeaker : speaker.get < 2 ^ 64 := by
      have := speaker.le_max
      simp only [maxSnowflake] at this
      omega
    obtain ⟨datagram, hencode, hdecode⟩ := PacketCodec.decodeDirection_encodeBody hcrypto hcodec
      hseq hwide streamType channelSeq payload false hspeaker
      (Nat.le_trans hpayload hcodec.payload_le)
    refine ⟨datagram, ?_, hdecode.trans (hcodec.judge_server hstream hpayload)⟩
    rw [PacketCodec.encodeServerMedia, hcodec.validateMedia hstream hpayload]
    exact hencode
  · obtain ⟨datagram, hencode, hdecode⟩ := PacketCodec.decodeDirection_encodeBody hcrypto hcodec
      hseq hwide HEARTBEAT_STREAM_TYPE 0 [] true (by decide : 0 < 2 ^ 64) (Nat.zero_le _)
    exact ⟨datagram, hencode, hdecode.trans (by simp [PacketCodec.judgeFields])⟩
  · intro value
    obtain ⟨datagram, hencode, hdecode⟩ := PacketCodec.decodeDirection_encodeBody hcrypto hcodec
      hseq hwide HEARTBEAT_STREAM_TYPE 0 [(RevocationReason.fromWire value).asWire] false
      (by decide : 0 < 2 ^ 64) hone
    refine ⟨datagram, hencode, hdecode.trans ?_⟩
    simp [PacketCodec.judgeFields, RevocationReason.asWire_fromWire]

/-! ## Encoding what was decoded -/

/-- The speaker field of a packet on the wire. -/
def DecodedPacket.speakerRaw (packet : DecodedPacket) : ℕ :=
  (packet.speakerId.map Snowflake.get).getD 0

/-- A control packet: an empty heartbeat, or one reason byte of the server. -/
structure DecodedPacket.IsControl (packet : DecodedPacket) (clientToServer : Bool) : Prop where
  stream : packet.streamType = HEARTBEAT_STREAM_TYPE
  channel : packet.channelSeq = 0
  speaker : packet.speakerId = none
  short : packet.payload.length ≤ 1
  client : clientToServer = true → packet.payload = []
  control : packet.control = some (match packet.payload with
    | [] => .heartbeat
    | reason :: _ => .revocation (RevocationReason.fromWire reason))

/-- A media packet within the limits of a session. -/
structure DecodedPacket.IsMedia (packet : DecodedPacket) (codec : PacketCodec K)
    (clientToServer : Bool) : Prop where
  stream : isBusinessStreamType packet.streamType = true
  allowed : codec.allowedStreamTypes packet.streamType = true
  payload : packet.payload.length ≤ codec.maxPayload
  speaker : packet.speakerId.isSome = !clientToServer
  control : packet.control = none

namespace PacketCodec

variable {crypto : Crypto K} {codec : PacketCodec K} {transportSeq : ℕ}
  {clientToServer : Bool} {packet : DecodedPacket}

/-- What accepted fields say about the packet. -/
theorem judgeFields_ok {streamType : UInt8} {channelSeq : ℕ} {flags : UInt8} {speakerRaw : ℕ}
    {payload : List UInt8}
    (h : codec.judgeFields clientToServer transportSeq streamType channelSeq flags speakerRaw
      payload = .ok packet) :
    packet.sessionId = codec.sessionId ∧ packet.transportSeq = transportSeq ∧
      packet.streamType = streamType ∧ packet.channelSeq = UInt16.ofNat channelSeq ∧
      flags = 0 ∧ packet.flags = 0 ∧ packet.speakerRaw = speakerRaw ∧ packet.payload = payload ∧
      (packet.IsControl clientToServer ∨ packet.IsMedia codec clientToServer) := by
  unfold judgeFields at h
  simp only at h
  split at h
  · cases h
  case isFalse hflags =>
    have hflags : flags = 0 := not_not.mp hflags
    split at h
    case isTrue hstream =>
      split at h
      · cases h
      case isFalse hcontrol =>
        simp only [not_or, not_and, not_not, Nat.not_lt] at hcontrol
        obtain ⟨hchannel, hspeaker, hshort, hclient⟩ := hcontrol
        split at h
        · cases h
          exact ⟨rfl, rfl, rfl, rfl, hflags, hflags, hspeaker.symm, rfl, .inl ⟨hstream,
            by simp [hchannel], rfl, Nat.zero_le _, fun _ => rfl, rfl⟩⟩
        · cases h
          exact ⟨rfl, rfl, rfl, rfl, hflags, hflags, hspeaker.symm, rfl, .inl ⟨hstream,
            by simp [hchannel], rfl, hshort, fun hdir => hclient hdir, rfl⟩⟩
    · split at h
      · cases h
      case isFalse hstream =>
        simp only [Bool.or_eq_true, Bool.not_eq_true', not_or, Bool.not_eq_false] at hstream
        split at h
        case isTrue hdir =>
          split at h
          · cases h
          case isFalse hspeaker =>
            split at h
            · cases h
            case isFalse hpayload =>
              cases h
              exact ⟨rfl, rfl, rfl, rfl, hflags, hflags, (not_not.mp hspeaker).symm, rfl,
                .inr ⟨hstream.1, hstream.2, Nat.le_of_not_lt hpayload, by simp [hdir], rfl⟩⟩
        case isFalse hdir =>
          split at h
          · cases h
          case h_2 speaker hspeaker =>
            split at h
            · cases h
            case isFalse hpayload =>
              cases h
              have hraw : speaker.get = speakerRaw := by
                unfold Snowflake.new at hspeaker
                split at hspeaker
                · cases hspeaker
                  rfl
                · cases hspeaker
              exact ⟨rfl, rfl, rfl, rfl, hflags, hflags, hraw, rfl,
                .inr ⟨hstream.1, hstream.2, Nat.le_of_not_lt hpayload, by simp [hdir], rfl⟩⟩

/-- A body with a channel header is what the encoder writes for its fields. -/
theorem channelBody_of_fields {body : List UInt8} (hlong : CHANNEL_HEADER_SIZE ≤ body.length)
    (hflags : (body.drop 3).headD 0 = 0) :
    channelBody (body.headD 0) (UInt16.ofNat (ofBeBytes ((body.drop 1).take 2)))
      (ofBeBytes ((body.drop 4).take 8)) (body.drop CHANNEL_HEADER_SIZE) = body := by
  simp only [CHANNEL_HEADER_SIZE] at hlong
  have hchannel : ((body.drop 1).take 2).length = 2 := by simp; omega
  have hspeaker : ((body.drop 4).take 8).length = 8 := by simp; omega
  have hsmall : ofBeBytes ((body.drop 1).take 2) < 2 ^ 16 := by
    have := ofBeBytes_lt ((body.drop 1).take 2)
    rw [hchannel] at this
    exact this
  have hchannelBytes : toBeBytes 2 (ofBeBytes ((body.drop 1).take 2)) = (body.drop 1).take 2 := by
    have := toBeBytes_ofBeBytes ((body.drop 1).take 2)
    rwa [hchannel] at this
  have hspeakerBytes : toBeBytes 8 (ofBeBytes ((body.drop 4).take 8)) = (body.drop 4).take 8 := by
    have := toBeBytes_ofBeBytes ((body.drop 4).take 8)
    rwa [hspeaker] at this
  have hstream := take_one_drop body (i := 0) (by omega)
  have hzero := take_one_drop body (i := 3) (by omega)
  rw [List.drop_zero] at hstream
  rw [hflags] at hzero
  have hnat : (UInt16.ofNat (ofBeBytes ((body.drop 1).take 2))).toNat =
      ofBeBytes ((body.drop 1).take 2) := by
    rw [UInt16.toNat_ofNat']
    exact Nat.mod_eq_of_lt hsmall
  rw [channelBody, hnat, hchannelBytes, hspeakerBytes, ← hstream, ← hzero]
  -- The five slices of the body, put together again.
  calc body.take 1 ++ (body.drop 1).take 2 ++ (body.drop 3).take 1 ++ (body.drop 4).take 8 ++
        body.drop CHANNEL_HEADER_SIZE
      = body.take 3 ++ (body.drop 3).take 1 ++ (body.drop 4).take 8 ++
          body.drop CHANNEL_HEADER_SIZE := by rw [← List.take_add]
    _ = body.take 4 ++ (body.drop 4).take 8 ++ body.drop CHANNEL_HEADER_SIZE := by
        rw [← List.take_add]
    _ = body.take 12 ++ body.drop 12 := by rw [← List.take_add, CHANNEL_HEADER_SIZE]
    _ = body := List.take_append_drop 12 body

/-- Accepted header bytes are the header of the session. -/
theorem outerHeader_of_fields {datagram : List UInt8}
    (hlong : OUTER_HEADER_SIZE ≤ datagram.length) (hmagic : datagram.take 4 = MAGIC)
    (hversion : (datagram.drop 4).headD 0 = VERSION_BYTE)
    (hflags : (datagram.drop 5).headD 0 = 0)
    (hsession : (datagram.drop 6).take 16 = codec.sessionId.asBytes) :
    codec.outerHeader (ofBeBytes ((datagram.drop 22).take 8)) =
      datagram.take OUTER_HEADER_SIZE := by
  simp only [OUTER_HEADER_SIZE] at hlong
  have hsequence : ((datagram.drop 22).take 8).length = 8 := by simp; omega
  have hbytes : toBeBytes 8 (ofBeBytes ((datagram.drop 22).take 8)) =
      (datagram.drop 22).take 8 := by
    have := toBeBytes_ofBeBytes ((datagram.drop 22).take 8)
    rwa [hsequence] at this
  have hfour := take_one_drop datagram (i := 4) (by omega)
  have hfive := take_one_drop datagram (i := 5) (by omega)
  rw [hversion] at hfour
  rw [hflags] at hfive
  have hpair : [VERSION_BYTE, 0] = (datagram.drop 4).take 1 ++ (datagram.drop 5).take 1 := by
    rw [hfour, hfive]
    rfl
  rw [outerHeader, hbytes, hpair, ← hmagic, ← hsession]
  calc datagram.take 4 ++ ((datagram.drop 4).take 1 ++ (datagram.drop 5).take 1) ++
        (datagram.drop 6).take 16 ++ (datagram.drop 22).take 8
      = datagram.take 5 ++ (datagram.drop 5).take 1 ++ (datagram.drop 6).take 16 ++
          (datagram.drop 22).take 8 := by rw [← List.append_assoc, ← List.take_add]
    _ = datagram.take 6 ++ (datagram.drop 6).take 16 ++ (datagram.drop 22).take 8 := by
        rw [← List.take_add]
    _ = datagram.take 22 ++ (datagram.drop 22).take 8 := by rw [← List.take_add]
    _ = datagram.take OUTER_HEADER_SIZE := by rw [← List.take_add, OUTER_HEADER_SIZE]

/-- The checks that an accepted datagram passed. -/
theorem decodeDirection_checks {datagram : List UInt8}
    (h : codec.decodeDirection crypto datagram clientToServer = .ok packet) :
    OUTER_HEADER_SIZE + CHANNEL_HEADER_SIZE ≤ datagram.length ∧
      datagram.length ≤ MAX_PACKET_SIZE ∧ datagram.take 4 = MAGIC ∧
      (datagram.drop 4).headD 0 = VERSION_BYTE ∧ (datagram.drop 5).headD 0 = 0 ∧
      (datagram.drop 6).take 16 = codec.sessionId.asBytes ∧
      ofBeBytes ((datagram.drop 22).take 8) ≠ 0 := by
  unfold decodeDirection at h
  split at h
  · cases h
  case isFalse hlong =>
    split at h
    · cases h
    case isFalse hshort =>
      split at h
      · cases h
      case isFalse hmagic =>
        simp only at h
        split at h
        · cases h
        case isFalse hversion =>
          split at h
          · cases h
          case isFalse hflags =>
            split at h
            · cases h
            case isFalse hsession =>
              split at h
              · cases h
              case isFalse hseq =>
                refine ⟨Nat.le_of_not_lt hlong, Nat.le_of_not_lt hshort, not_not.mp hmagic,
                  not_not.mp hversion, not_not.mp hflags, ?_, hseq⟩
                have hid := not_not.mp hsession
                unfold FixedId.fromBytes at hid
                split at hid
                · rw [← Option.some.inj hid]
                · cases hid

/-- What an accepted datagram consists of. -/
theorem decodeDirection_ok {datagram : List UInt8}
    (h : codec.decodeDirection crypto datagram clientToServer = .ok packet) :
    ∃ rest body, datagram = codec.outerHeader packet.transportSeq ++ rest ∧
      OUTER_HEADER_SIZE + rest.length ≤ MAX_PACKET_SIZE ∧ packet.transportSeq ≠ 0 ∧
      packet.transportSeq < 2 ^ 64 ∧
      codec.openRest crypto clientToServer packet.transportSeq
        (codec.outerHeader packet.transportSeq) rest = .ok body ∧
      CHANNEL_HEADER_SIZE ≤ body.length ∧
      codec.decodeFields clientToServer packet.transportSeq body = .ok packet := by
  obtain ⟨hlong, hshort, hmagic, hversion, hflags, hsession, hseq⟩ := decodeDirection_checks h
  have hheader := outerHeader_of_fields (by omega) hmagic hversion hflags hsession
  have hsplit : datagram = codec.outerHeader (ofBeBytes ((datagram.drop 22).take 8)) ++
      datagram.drop OUTER_HEADER_SIZE := by
    rw [hheader, List.take_append_drop]
  have hrest : (datagram.drop OUTER_HEADER_SIZE).length + OUTER_HEADER_SIZE =
      datagram.length := by
    rw [List.length_drop]
    omega
  have hwide : ofBeBytes ((datagram.drop 22).take 8) < 2 ^ 64 := by
    have hlt := ofBeBytes_lt ((datagram.drop 22).take 8)
    have hlen : ((datagram.drop 22).take 8).length = 8 := by
      simp only [OUTER_HEADER_SIZE, CHANNEL_HEADER_SIZE] at hlong
      simp
      omega
    rw [hlen] at hlt
    exact hlt
  generalize ofBeBytes ((datagram.drop 22).take 8) = seq at hseq hsplit hwide
  generalize datagram.drop OUTER_HEADER_SIZE = rest at hsplit hrest
  rw [hsplit, decodeDirection_outerHeader hseq hwide (by omega) (by omega)] at h
  cases hopen : codec.openRest crypto clientToServer seq (codec.outerHeader seq) rest with
  | error e => rw [hopen] at h; cases h
  | ok body =>
      rw [hopen] at h
      simp only [Except.bind] at h
      split at h
      · cases h
      case isFalse hbody =>
        have hsame := (judgeFields_ok (decodeFields_eq codec clientToServer seq body ▸ h)).2.1
        rw [hsame]
        exact ⟨rest, body, hsplit, by omega, hseq, hwide, hopen, Nat.le_of_not_lt hbody, h⟩

/-- A body that opens is sealed as it was. -/
theorem sealRest_of_openRest (hcrypto : crypto.Canonical) {header rest body : List UInt8}
    (h : codec.openRest crypto clientToServer transportSeq header rest = .ok body) :
    codec.sealRest crypto clientToServer transportSeq header body = .ok rest := by
  unfold openRest at h
  unfold sealRest
  split at h
  case isTrue hencrypted =>
    rw [if_pos hencrypted]
    split at h
    · cases h
    · cases hkeys : codec.keys with
      | none => simp [hkeys] at h
      | some keys =>
          simp only [hkeys, openBody] at h
          split at h
          · cases h
          case isFalse hseq =>
            split at h
            case h_1 hopen =>
              cases h
              simp [sealBody, hcrypto.seals _ _ _ _ _ hopen, hseq]
            · cases h
  case isFalse hplain =>
    cases h
    rw [if_neg hplain]

/-! ## Accesses of the decoder -/

/-- The fields of a body, read with checked accesses. -/
def indexedFields (codec : PacketCodec K) (clientToServer : Bool) (transportSeq : ℕ)
    (body : List UInt8) : Option (Except PacketError DecodedPacket) := do
  let streamType ← byteAt body 0
  let high ← byteAt body 1
  let low ← byteAt body 2
  let flags ← byteAt body 3
  if flags ≠ 0 then some (.error .invalidFlags)
  else
    let speaker ← slice body 4 12
    let payload ← slice body CHANNEL_HEADER_SIZE body.length
    some (codec.judgeFields clientToServer transportSeq streamType (ofBeBytes [high, low]) flags
      (ofBeBytes speaker) payload)

/-- `decode_direction` with checked accesses: `none` is an access out of bounds. -/
def indexedDecode (crypto : Crypto K) (codec : PacketCodec K) (datagram : List UInt8)
    (clientToServer : Bool) : Option (Except PacketError DecodedPacket) :=
  if datagram.length < OUTER_HEADER_SIZE + CHANNEL_HEADER_SIZE then some (.error .truncated)
  else if MAX_PACKET_SIZE < datagram.length then some (.error .oversized)
  else do
    let magic ← slice datagram 0 4
    if magic ≠ MAGIC then some (.error .invalidMagic)
    else
      let version ← byteAt datagram 4
      if version ≠ VERSION_BYTE then some (.error (.unsupportedVersion version))
      else
        let flags ← byteAt datagram 5
        if flags ≠ 0 then some (.error .invalidFlags)
        else
          let id ← slice datagram 6 22
          if FixedId.fromBytes id ≠ some codec.sessionId then some (.error .wrongSession)
          else
            let sequence ← slice datagram 22 30
            if ofBeBytes sequence = 0 then some (.error .sequenceZero)
            else
              let header ← slice datagram 0 OUTER_HEADER_SIZE
              let rest ← slice datagram OUTER_HEADER_SIZE datagram.length
              match codec.openRest crypto clientToServer (ofBeBytes sequence) header rest with
              | .error e => some (.error e)
              | .ok body =>
                  if body.length < CHANNEL_HEADER_SIZE then some (.error .truncated)
                  else codec.indexedFields clientToServer (ofBeBytes sequence) body

/-- A body with a channel header is read within its bounds. -/
theorem indexedFields_eq {body : List UInt8} (hlong : CHANNEL_HEADER_SIZE ≤ body.length) :
    codec.indexedFields clientToServer transportSeq body =
      some (codec.decodeFields clientToServer transportSeq body) := by
  have hlong' : 12 ≤ body.length := hlong
  have htwo : [(body.drop 1).headD 0, (body.drop 2).headD 0] = (body.drop 1).take 2 := by
    rw [List.take_add (i := 1) (j := 1), take_one_drop body (by omega), List.drop_drop,
      take_one_drop body (by omega)]
    rfl
  have hpayload : (body.drop CHANNEL_HEADER_SIZE).take (body.length - CHANNEL_HEADER_SIZE) =
      body.drop CHANNEL_HEADER_SIZE := by
    rw [List.take_of_length_le (by simp)]
  unfold indexedFields
  rw [byteAt_eq_some (i := 0) (by omega), byteAt_eq_some (i := 1) (by omega),
    byteAt_eq_some (i := 2) (by omega), byteAt_eq_some (i := 3) (by omega),
    slice_eq_some (by decide) (by omega), slice_eq_some hlong (Nat.le_refl _)]
  simp only [Option.bind_eq_bind, Option.bind_some, List.drop_zero, htwo, hpayload]
  rw [decodeFields_eq]
  by_cases hflags : (body.drop 3).headD 0 = 0
  · rw [if_neg (not_not.mpr hflags)]
  · rw [if_pos hflags]
    unfold judgeFields
    rw [if_pos hflags]

/-- **No access of the decoder is out of bounds.** -/
theorem indexedDecode_eq (crypto : Crypto K) (codec : PacketCodec K) (datagram : List UInt8)
    (clientToServer : Bool) :
    codec.indexedDecode crypto datagram clientToServer =
      some (codec.decodeDirection crypto datagram clientToServer) := by
  unfold indexedDecode decodeDirection
  by_cases hlong : datagram.length < OUTER_HEADER_SIZE + CHANNEL_HEADER_SIZE
  · rw [if_pos hlong, if_pos hlong]
  rw [if_neg hlong, if_neg hlong]
  by_cases hshort : MAX_PACKET_SIZE < datagram.length
  · rw [if_pos hshort, if_pos hshort]
  rw [if_neg hshort, if_neg hshort]
  have hsize : 42 ≤ datagram.length := Nat.le_of_not_lt hlong
  have hlength : OUTER_HEADER_SIZE + (datagram.drop OUTER_HEADER_SIZE).length =
      datagram.length := by
    rw [List.length_drop, OUTER_HEADER_SIZE]
    omega
  have hrest : (datagram.drop OUTER_HEADER_SIZE).take (datagram.length - OUTER_HEADER_SIZE) =
      datagram.drop OUTER_HEADER_SIZE := List.take_of_length_le (by simp)
  have houter : slice datagram 0 OUTER_HEADER_SIZE =
      some (datagram.take OUTER_HEADER_SIZE) :=
    slice_eq_some (Nat.zero_le _) (by rw [OUTER_HEADER_SIZE]; omega)
  have hinner : slice datagram OUTER_HEADER_SIZE datagram.length =
      some (datagram.drop OUTER_HEADER_SIZE) := by
    rw [slice_eq_some (by rw [OUTER_HEADER_SIZE]; omega) (Nat.le_refl _), hrest]
  rw [slice_eq_some (Nat.zero_le 4) (by omega), byteAt_eq_some (i := 4) (by omega),
    byteAt_eq_some (i := 5) (by omega), slice_eq_some (by decide : 6 ≤ 22) (by omega),
    slice_eq_some (by decide : 22 ≤ 30) (by omega), houter, hinner]
  simp only [Option.bind_eq_bind, Option.bind_some, List.drop_zero, Nat.sub_zero]
  by_cases hmagic : datagram.take 4 ≠ MAGIC
  · rw [if_pos hmagic, if_pos hmagic]
  rw [if_neg hmagic, if_neg hmagic]
  by_cases hversion : (datagram.drop 4).headD 0 ≠ VERSION_BYTE
  · rw [if_pos hversion, if_pos hversion]
  rw [if_neg hversion, if_neg hversion]
  by_cases hflags : (datagram.drop 5).headD 0 ≠ 0
  · rw [if_pos hflags, if_pos hflags]
  rw [if_neg hflags, if_neg hflags]
  by_cases hsession : FixedId.fromBytes ((datagram.drop 6).take 16) ≠ some codec.sessionId
  · rw [if_pos hsession, if_pos hsession]
  rw [if_neg hsession, if_neg hsession]
  by_cases hseq : ofBeBytes ((datagram.drop 22).take 8) = 0
  · rw [if_pos hseq, if_pos hseq]
  rw [if_neg hseq, if_neg hseq]
  -- A body that was opened is read within its bounds, too.
  have hbody (body : List UInt8) :
      (if body.length < CHANNEL_HEADER_SIZE then some (.error .truncated)
        else codec.indexedFields clientToServer (ofBeBytes ((datagram.drop 22).take 8)) body) =
      some (if body.length < CHANNEL_HEADER_SIZE then .error .truncated
        else codec.decodeFields clientToServer (ofBeBytes ((datagram.drop 22).take 8)) body) := by
    split
    · rfl
    case isFalse hfits => exact indexedFields_eq (Nat.le_of_not_lt hfits)
  unfold openRest
  rw [hlength]
  by_cases hencrypted : codec.encrypted = true
  · rw [if_pos hencrypted, if_pos hencrypted]
    by_cases htag : datagram.length < OUTER_HEADER_SIZE + CHANNEL_HEADER_SIZE + TAG_SIZE
    · rw [if_pos htag, if_pos htag]
      rfl
    · rw [if_neg htag, if_neg htag]
      cases codec.keys with
      | none => rfl
      | some keys =>
          simp only
          cases openBody crypto (directionKey keys clientToServer)
            (ofBeBytes ((datagram.drop 22).take 8)) (datagram.take OUTER_HEADER_SIZE)
            (datagram.drop OUTER_HEADER_SIZE) with
          | error e => rfl
          | ok body => exact hbody body
  · rw [if_neg hencrypted, if_neg hencrypted]
    exact hbody (datagram.drop OUTER_HEADER_SIZE)

end PacketCodec

/-- **A packet has one encoding, and decoding is total.** For every byte string and
both directions, the decoder makes no access out of bounds; and if it accepts,
the byte string is what the encoder writes for the packet, which belongs to the
session, has a non-zero sequence and is a control or media packet within the
negotiated limits. -/
theorem packet_unique_encoding (crypto : Crypto K) (hcrypto : crypto.Canonical)
    (codec : PacketCodec K) (datagram : List UInt8) (clientToServer : Bool) :
    codec.indexedDecode crypto datagram clientToServer =
      some (codec.decodeDirection crypto datagram clientToServer) ∧
    ∀ packet, codec.decodeDirection crypto datagram clientToServer = .ok packet →
      codec.encodeBody crypto packet.transportSeq packet.streamType packet.channelSeq
        packet.speakerRaw packet.payload clientToServer = .ok datagram ∧
      packet.sessionId = codec.sessionId ∧ packet.transportSeq ≠ 0 ∧
      (packet.IsControl clientToServer ∨ packet.IsMedia codec clientToServer) := by
  refine ⟨PacketCodec.indexedDecode_eq crypto codec datagram clientToServer, ?_⟩
  intro packet h
  obtain ⟨rest, body, rfl, hshort, hseq, -, hopen, hlong, hfields⟩ :=
    PacketCodec.decodeDirection_ok h
  rw [PacketCodec.decodeFields_eq] at hfields
  obtain ⟨hsession, -, hstream, hchannel, hflags, -, hspeaker, hpayload, hkind⟩ :=
    PacketCodec.judgeFields_ok hfields
  refine ⟨?_, hsession, hseq, hkind⟩
  rw [PacketCodec.encodeBody_eq hseq, hstream, hchannel, hspeaker, hpayload,
    PacketCodec.channelBody_of_fields hlong hflags,
    PacketCodec.sealRest_of_openRest hcrypto hopen]
  simp [Except.bind, Nat.not_lt.mpr hshort]

/-! ## A sample session -/

/-- The tag of a toy cipher. -/
def sampleTag (k nonce message aad : List UInt8) : List UInt8 :=
  toBeBytes TAG_SIZE (ofBeBytes (k ++ nonce ++ aad ++ message))

/-- A toy cipher that appends a checksum of all it is given. -/
def taggedCrypto : Crypto (List UInt8) where
  deriveCipher salt material info := salt ++ material ++ info
  encrypt k nonce message aad := some (message ++ sampleTag k nonce message aad)
  decrypt k nonce ciphertext aad :=
    if ciphertext = ciphertext.take (ciphertext.length - TAG_SIZE) ++
        sampleTag k nonce (ciphertext.take (ciphertext.length - TAG_SIZE)) aad then
      some (ciphertext.take (ciphertext.length - TAG_SIZE))
    else none

theorem taggedCrypto_roundTrips : taggedCrypto.RoundTrips where
  encrypts k nonce message aad _ _ := ⟨_, rfl⟩
  opens k nonce message aad ciphertext h := by
    cases h
    have htake : (message ++ sampleTag k nonce message aad).take
        ((message ++ sampleTag k nonce message aad).length - TAG_SIZE) = message := by
      rw [List.length_append, sampleTag, length_toBeBytes, Nat.add_sub_cancel]
      exact List.take_left
    simp only [taggedCrypto, htake, if_true]
  length k nonce message aad ciphertext h := by
    cases h
    simp [sampleTag]

theorem taggedCrypto_canonical : taggedCrypto.Canonical where
  seals k nonce ciphertext aad message h := by
    obtain ⟨htag, hmessage⟩ := Option.ite_none_right_eq_some.mp h
    cases hmessage
    exact congrArg some htag.symm

/-- An encrypted session with one admitted stream. -/
def sampleVoiceConfig : VoiceSessionConfig where
  endpoint := ⟨"voice.example", 7601⟩
  sessionId := ⟨List.replicate 16 1, by decide, by decide⟩
  encrypted := true
  maxPayload := 100
  expiresAt := 1
  sessionKey := some ⟨List.replicate 32 2, by decide⟩
  allowedStreamTypes := some [1]
  payload_pos := by decide
  payload_le := by decide
  expiry_pos := by decide
  plain_no_key := fun h => by cases h
  business := by
    intro types htypes
    cases htypes
    decide

/-- The codec of the sample session. -/
def sampleCodec : PacketCodec (List UInt8) where
  sessionId := sampleVoiceConfig.sessionId
  encrypted := true
  maxPayload := 100
  keys := some (deriveDirectionKeys taggedCrypto sampleVoiceConfig.sessionId
    ⟨List.replicate 32 2, by decide⟩)
  allowedStreamTypes := PacketCodec.allowed sampleVoiceConfig

theorem packet_round_trip_sample :
    (PacketCodec.fromConfig taggedCrypto sampleVoiceConfig SessionKeyCache.new).2 =
      .ok sampleCodec ∧
    ∃ datagram, sampleCodec.encodeMedia taggedCrypto (2 ^ 64 - 1) 65535 1 [7, 8, 9] =
        .ok datagram ∧
      sampleCodec.decodeClient taggedCrypto datagram = .ok ⟨sampleCodec.sessionId, 2 ^ 64 - 1, 1,
        65535, 0, none, [7, 8, 9], none⟩ := by
  have hconfig : (PacketCodec.fromConfig taggedCrypto sampleVoiceConfig
      SessionKeyCache.new).2 = .ok sampleCodec := rfl
  refine ⟨hconfig, ?_⟩
  exact (packet_round_trip taggedCrypto taggedCrypto_roundTrips sampleVoiceConfig
    SessionKeyCache.new sampleCodec hconfig (2 ^ 64 - 1) (by decide) (by decide)).1 65535 1
    [7, 8, 9] (by decide) (by decide)

theorem packet_unique_encoding_sample :
    ∃ datagram packet, sampleCodec.decodeDirection taggedCrypto datagram true = .ok packet ∧
      sampleCodec.encodeBody taggedCrypto packet.transportSeq packet.streamType
        packet.channelSeq packet.speakerRaw packet.payload true = .ok datagram := by
  have hcodec : sampleCodec.Negotiated := PacketCodec.fromConfig_negotiated
    (show (PacketCodec.fromConfig taggedCrypto sampleVoiceConfig SessionKeyCache.new).2 =
      .ok sampleCodec from rfl)
  obtain ⟨datagram, -, hdecode⟩ := PacketCodec.decodeDirection_encodeBody taggedCrypto_roundTrips
    hcodec (by decide : 5 ≠ 0) (by decide) 1 3 [7, 8, 9] true (by decide : 0 < 2 ^ 64) (by decide)
  have hpacket := hdecode.trans (hcodec.judge_client (by decide) (by decide))
  exact ⟨datagram, _, hpacket, ((packet_unique_encoding taggedCrypto taggedCrypto_canonical
    sampleCodec datagram true).2 _ hpacket).1⟩

end ZephyrVox.Voice
