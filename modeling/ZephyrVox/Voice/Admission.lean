import ZephyrVox.Voice.Packet
import ZephyrVox.Voice.Worker

/-!
# Admission and size of media

A media payload is judged three times: by the session handle before it is queued,
by the worker when it takes the command, and by the encoder. The handle judges with
the values it kept when the session started; the others judge with the codec. A
payload that all three let through fits a datagram, tag included.

## Main definitions

* `validateMediaValues` — the check the handle and the codec share.
* `SessionInner` — what a session handle keeps of the negotiation.
* `SessionInner.send` — a send up to the queued command.
* `Crypto.Seals` — bodies of media are sealed, and a seal is a tag longer.
* `packet_size_limits` — exactly which media are encoded, and how long they are.
-/

namespace ZephyrVox.Voice

variable {K : Type}

/-! ## The session handle -/

/-- The capacity of the command queue. -/
def MEDIA_QUEUE_CAPACITY : ℕ := 128

/-- Validate media against the immutable values of a negotiation. -/
def validateMediaValues (allowedStreamTypes : UInt8 → Bool) (maxPayload : ℕ) (streamType : UInt8)
    (payloadLength : ℕ) : Except PacketError Unit :=
  if streamType = HEARTBEAT_STREAM_TYPE then .error .heartbeatStream
  else if !isBusinessStreamType streamType || !allowedStreamTypes streamType then
    .error (.unknownStreamType streamType)
  else if maxPayload < payloadLength then .error (.payloadTooLarge payloadLength maxPayload)
  else .ok ()

/-- A queued media command. -/
structure SessionCommand where
  streamType : UInt8
  payload : List UInt8
  deriving DecidableEq, Repr

/-- The bounded queue between the handles of a session and its worker. -/
structure CommandQueue where
  commands : List SessionCommand
  /-- The worker dropped its receiver. -/
  closed : Bool

/-- Queue a command without waiting for room. -/
def CommandQueue.trySend (queue : CommandQueue) (command : SessionCommand) :
    Except VoiceError CommandQueue :=
  if queue.closed then .error .closed
  else if MEDIA_QUEUE_CAPACITY ≤ queue.commands.length then .error .queueFull
  else .ok { queue with commands := queue.commands ++ [command] }

/-- What a session handle keeps of the negotiation for its sends. -/
structure SessionInner where
  maxPayload : ℕ
  allowedStreamTypes : UInt8 → Bool

/-- The handle of a session that starts: the limit is the configuration's, the
stream types are those of its codec. -/
def SessionInner.start (config : VoiceSessionConfig) (codec : PacketCodec K) : SessionInner where
  maxPayload := config.maxPayload
  allowedStreamTypes := codec.allowedStreamTypes

/-- A send, up to the command it leaves in the queue; the handle then waits for the
worker's result. -/
def SessionInner.send (inner : SessionInner) (status : VoiceStatus) (queue : CommandQueue)
    (streamType : UInt8) (payload : List UInt8) : Except VoiceError CommandQueue :=
  match status with
  | .active =>
      match validateMediaValues inner.allowedStreamTypes inner.maxPayload streamType
        payload.length with
      | .error e => .error (.packet e)
      | .ok () => queue.trySend ⟨streamType, payload⟩
  | .revoked reason => .error (.revoked reason)
  | .disconnected => .error .closed
  | .idle | .joining | .disconnecting => .error .notActive

/-! ## The three checks -/

namespace PacketCodec

variable {crypto : Crypto K} {codec : PacketCodec K} {transportSeq : ℕ} {streamType : UInt8}
  {channelSeq : UInt16} {speakerId : ℕ} {payload : List UInt8} {clientToServer : Bool}

/-- The codec judges media by the values it holds. -/
theorem validateMedia_eq (codec : PacketCodec K) (streamType : UInt8) (length : ℕ) :
    codec.validateMedia streamType length =
      validateMediaValues codec.allowedStreamTypes codec.maxPayload streamType length := rfl

theorem validateMedia_ok_iff {length : ℕ} :
    codec.validateMedia streamType length = .ok () ↔
      streamType ≠ HEARTBEAT_STREAM_TYPE ∧ codec.allowedStreamTypes streamType = true ∧
        length ≤ codec.maxPayload := by
  unfold validateMedia isBusinessStreamType
  by_cases hheartbeat : streamType = HEARTBEAT_STREAM_TYPE
  · simp [hheartbeat]
  · cases hallowed : codec.allowedStreamTypes streamType
    · simp [hheartbeat]
    · by_cases hlength : codec.maxPayload < length
      · simp [hheartbeat, hlength, Nat.not_le.mpr hlength]
      · simp [hheartbeat, hlength, Nat.not_lt.mp hlength]

/-- A codec holds the values of its configuration. -/
theorem fromConfig_values {config : VoiceSessionConfig} {cache : SessionKeyCache}
    (h : (fromConfig crypto config cache).2 = .ok codec) :
    codec.encrypted = config.encrypted ∧ codec.maxPayload = config.maxPayload ∧
      codec.allowedStreamTypes = allowed config := by
  unfold fromConfig at h
  dsimp only at h
  split at h
  · cases h
  · cases h
    exact ⟨rfl, rfl, rfl⟩

/-- Outside the reserved type, a configuration admits what its list holds, or
everything if it has none. -/
theorem allowed_iff {config : VoiceSessionConfig} (h : streamType ≠ HEARTBEAT_STREAM_TYPE) :
    allowed config streamType = true ↔
      ∀ types ∈ config.allowedStreamTypes, streamType ∈ types := by
  unfold allowed
  cases config.allowedStreamTypes with
  | none => simp [h]
  | some types => simp

/-- A body within the limit of its protection mode is encoded, and this is its
length. -/
theorem encodeBody_ok (hcrypto : crypto.Seals) (hcodec : codec.Negotiated)
    (hseq : transportSeq ≠ 0) (hpayload : payload.length ≤ Voice.maxPayload codec.encrypted) :
    ∃ datagram, codec.encodeBody crypto transportSeq streamType channelSeq speakerId payload
        clientToServer = .ok datagram ∧
      datagram.length =
        OUTER_HEADER_SIZE + CHANNEL_HEADER_SIZE + payload.length + codec.tagSize ∧
      datagram.length ≤ MAX_PACKET_SIZE := by
  have hbody := length_channelBody streamType channelSeq speakerId payload
  have hheader := length_outerHeader codec transportSeq
  have hfits : (channelBody streamType channelSeq speakerId payload).length ≤
      CHANNEL_HEADER_SIZE + Voice.maxPayload codec.encrypted := by omega
  obtain ⟨rest, hrest, hlength, hshort⟩ := sealRest_ok hcrypto hcodec clientToServer
    (codec.outerHeader transportSeq) hseq hfits
  refine ⟨codec.outerHeader transportSeq ++ rest, ?_, ?_, ?_⟩
  · rw [encodeBody_eq hseq, hrest]
    simp [Except.bind, Nat.not_lt_of_le hshort]
  · rw [List.length_append]
    omega
  · rw [List.length_append]
    omega

/-- Media is encoded under a sequence in use if the codec admits it, and is otherwise
refused by the first check that fails. -/
theorem encodeMedia_cases (hcrypto : crypto.Seals) (hcodec : codec.Negotiated)
    (transportSeq : ℕ) (channelSeq : UInt16) (streamType : UInt8) (payload : List UInt8) :
    (∃ e, codec.validateMedia streamType payload.length = .error e ∧
      codec.encodeMedia crypto transportSeq channelSeq streamType payload = .error e) ∨
    (codec.validateMedia streamType payload.length = .ok () ∧ transportSeq = 0 ∧
      codec.encodeMedia crypto transportSeq channelSeq streamType payload =
        .error .sequenceZero) ∨
    (codec.validateMedia streamType payload.length = .ok () ∧ transportSeq ≠ 0 ∧
      ∃ datagram, codec.encodeMedia crypto transportSeq channelSeq streamType payload =
          .ok datagram ∧
        datagram.length =
          OUTER_HEADER_SIZE + CHANNEL_HEADER_SIZE + payload.length + codec.tagSize ∧
        datagram.length ≤ MAX_PACKET_SIZE) := by
  cases hvalid : codec.validateMedia streamType payload.length with
  | error e => exact Or.inl ⟨e, rfl, by simp [encodeMedia, hvalid, bind, Except.bind]⟩
  | ok _ =>
      have hencode : codec.encodeMedia crypto transportSeq channelSeq streamType payload =
          codec.encodeBody crypto transportSeq streamType channelSeq 0 payload true := by
        simp [encodeMedia, hvalid, bind, Except.bind]
      rw [hencode]
      by_cases hseq : transportSeq = 0
      · exact Or.inr (Or.inl ⟨rfl, hseq, by simp [encodeBody, hseq]⟩)
      · have hlength := (validateMedia_ok_iff.mp hvalid).2.2
        exact Or.inr (Or.inr ⟨rfl, hseq,
          encodeBody_ok hcrypto hcodec hseq (Nat.le_trans hlength hcodec.payload_le)⟩)

/-- The codec's check never reports what only the encoder can find. -/
theorem validateMedia_error {length : ℕ} {e : PacketError}
    (h : codec.validateMedia streamType length = .error e) :
    e ≠ .oversized ∧ e ≠ .authenticationFailed := by
  unfold validateMedia at h
  split at h
  · cases h
    simp
  · split at h
    · cases h
      simp
    · split at h
      · cases h
        simp
      · cases h

end PacketCodec

/-- A handle queues what the worker's codec admits, if the session is active and the
queue has room. -/
theorem SessionInner.send_ok_iff {config : VoiceSessionConfig} {codec : PacketCodec K}
    (hpayload : codec.maxPayload = config.maxPayload) {status : VoiceStatus}
    {queue queue' : CommandQueue} {streamType : UInt8} {payload : List UInt8} :
    (SessionInner.start config codec).send status queue streamType payload = .ok queue' ↔
      status = .active ∧ codec.validateMedia streamType payload.length = .ok () ∧
        queue.trySend ⟨streamType, payload⟩ = .ok queue' := by
  cases status with
  | active =>
      rw [PacketCodec.validateMedia_eq, hpayload]
      unfold send start
      dsimp only
      cases validateMediaValues codec.allowedStreamTypes config.maxPayload streamType
        payload.length <;> simp
  | idle | joining | disconnecting | disconnected => simp [send]
  | revoked reason => simp [send]

/-- An active handle refuses media with the error of the worker's check. -/
theorem SessionInner.send_packet_error {config : VoiceSessionConfig} {codec : PacketCodec K}
    (hpayload : codec.maxPayload = config.maxPayload) {queue : CommandQueue} {streamType : UInt8}
    {payload : List UInt8} {e : PacketError}
    (h : codec.validateMedia streamType payload.length = .error e) :
    (SessionInner.start config codec).send .active queue streamType payload =
      .error (.packet e) := by
  rw [PacketCodec.validateMedia_eq, hpayload] at h
  simp [send, start, h]

/-! ## The limits -/

/-- **The size limits of media are exact.** For every validated configuration and the
codec made of it: media is encoded exactly under a non-zero sequence, on an admitted
stream, up to the negotiated payload; the datagram has the length the constants
promise and fits a packet, so that neither the final size check nor the cipher ever
fails; and an active handle with room in its queue queues exactly the media that the
worker's check lets through. -/
theorem packet_size_limits (crypto : Crypto K) (hcrypto : crypto.Seals)
    (config : VoiceSessionConfig) (cache : SessionKeyCache) (codec : PacketCodec K)
    (hconfig : (PacketCodec.fromConfig crypto config cache).2 = .ok codec) :
    (∀ transportSeq channelSeq streamType payload,
      (∃ datagram,
        codec.encodeMedia crypto transportSeq channelSeq streamType payload = .ok datagram) ↔
      transportSeq ≠ 0 ∧ streamType ≠ 0 ∧
        (∀ types ∈ config.allowedStreamTypes, streamType ∈ types) ∧
        payload.length ≤ config.maxPayload) ∧
    (∀ transportSeq channelSeq streamType payload datagram,
      codec.encodeMedia crypto transportSeq channelSeq streamType payload = .ok datagram →
      datagram.length = 42 + payload.length + (if config.encrypted then 16 else 0) ∧
        datagram.length ≤ 1200) ∧
    (∀ transportSeq channelSeq streamType payload,
      codec.encodeMedia crypto transportSeq channelSeq streamType payload ≠ .error .oversized ∧
      codec.encodeMedia crypto transportSeq channelSeq streamType payload ≠
        .error .authenticationFailed) ∧
    (∀ status queue queue' streamType payload,
      (SessionInner.start config codec).send status queue streamType payload = .ok queue' ↔
        status = .active ∧ codec.validateMedia streamType payload.length = .ok () ∧
          queue.trySend ⟨streamType, payload⟩ = .ok queue') ∧
    (∀ queue streamType payload e,
      codec.validateMedia streamType payload.length = .error e →
      (SessionInner.start config codec).send .active queue streamType payload =
        .error (.packet e)) := by
  have hcodec := PacketCodec.fromConfig_negotiated hconfig
  obtain ⟨hencrypted, hpayload, hallowed⟩ := PacketCodec.fromConfig_values hconfig
  have hcases := PacketCodec.encodeMedia_cases hcrypto hcodec
  refine ⟨?_, ?_, ?_, ?_, ?_⟩
  · intro transportSeq channelSeq streamType payload
    have hvalid : codec.validateMedia streamType payload.length = .ok () ↔ streamType ≠ 0 ∧
        (∀ types ∈ config.allowedStreamTypes, streamType ∈ types) ∧
        payload.length ≤ config.maxPayload := by
      rw [PacketCodec.validateMedia_ok_iff, hallowed, hpayload]
      refine and_congr_right fun hne => ?_
      rw [PacketCodec.allowed_iff hne]
    rw [← hvalid]
    rcases hcases transportSeq channelSeq streamType payload with
      ⟨e, herror, hencode⟩ | ⟨-, hzero, hencode⟩ | ⟨hok, hseq, datagram, hencode, -⟩
    · simp [herror, hencode]
    · rw [hencode]
      simp [hzero]
    · simp [hok, hseq, hencode]
  · intro transportSeq channelSeq streamType payload datagram h
    rcases hcases transportSeq channelSeq streamType payload with
      ⟨e, -, hencode⟩ | ⟨-, -, hencode⟩ | ⟨-, -, datagram', hencode, hlength, hfits⟩
    · simp [hencode] at h
    · simp [hencode] at h
    · obtain rfl : datagram' = datagram := Except.ok.inj (hencode.symm.trans h)
      rw [PacketCodec.tagSize, hencrypted] at hlength
      exact ⟨hlength, hfits⟩
  · intro transportSeq channelSeq streamType payload
    rcases hcases transportSeq channelSeq streamType payload with
      ⟨e, herror, hencode⟩ | ⟨-, -, hencode⟩ | ⟨-, -, datagram, hencode, -⟩
    · have hne := PacketCodec.validateMedia_error herror
      rw [hencode]
      exact ⟨fun h => hne.1 (Except.error.inj h), fun h => hne.2 (Except.error.inj h)⟩
    · simp [hencode]
    · simp [hencode]
  · intro status queue queue' streamType payload
    exact SessionInner.send_ok_iff hpayload
  · intro queue streamType payload e h
    exact SessionInner.send_packet_error hpayload h

/-- A payload of one byte over the limit of the sample session is refused on both
sides of the queue, and the largest one is encoded. -/
theorem packet_size_limits_sample :
    (∃ datagram, sampleCodec.encodeMedia taggedCrypto 1 0 1 (List.replicate 100 7) =
      .ok datagram) ∧
    ¬ (∃ datagram, sampleCodec.encodeMedia taggedCrypto 1 0 1 (List.replicate 101 7) =
      .ok datagram) := by
  have hlimits := packet_size_limits taggedCrypto taggedCrypto_roundTrips.seals sampleVoiceConfig
    SessionKeyCache.new sampleCodec rfl
  refine ⟨(hlimits.1 1 0 1 _).mpr (by decide), fun h => ?_⟩
  exact absurd ((hlimits.1 1 0 1 _).mp h) (by decide)

end ZephyrVox.Voice
