import ZephyrVox.Sdk.Confidential

/-!
# Checks before and after a committed join

Metadata and a join response are validated by the HTTP adapter before the client
sees them. What the client, the configuration and the codec check afterwards is
written separately; here each of those checks is derived from the two
validators, so a join that the server has committed is not given up by a local
check. The one failure left is the missing key of a reused session.

## Main definitions

* `MetadataBody`, `metadataResponse` — the received metadata and its validation.
* `ValidMetadata`, `ValidJoin` — what the validators establish.
-/

namespace ZephyrVox.Sdk

open Voice

/-! ## The metadata response -/

/-- A stream type that the server advertises. -/
structure VoiceStreamType where
  id : UInt8
  name : String
  muteKind : String
  deriving DecidableEq, Repr

/-- The received metadata. -/
structure MetadataBody where
  protocolVersion : ℕ
  voiceEndpoint : VoiceEndpoint
  codecs : List CodecCapability
  voiceStreamTypes : List VoiceStreamType
  features : List String
  deriving DecidableEq, Repr

/-- The parts of the metadata that are read later. -/
def MetadataBody.metadata (body : MetadataBody) : Metadata :=
  ⟨body.voiceEndpoint, body.codecs, body.voiceStreamTypes.map fun stream => stream.id⟩

/-- The ASCII control characters. -/
def isAsciiControl (c : Char) : Bool := c.toNat < 32 || c.toNat == 127

/-- Accept capability labels without surrounding whitespace or control characters. -/
def validMetadataText (value : String) : Bool :=
  !value.toList.isEmpty && value.toList == Wire.trim value.toList &&
    value.toList.all fun c => !isAsciiControl c

/-- The host grammar of the server's endpoint. -/
def validMetadataHost (host : String) : Bool :=
  let trimmed := Wire.trim host.toList
  if trimmed ≠ host.toList ∨ trimmed.isEmpty ∨ 253 < Wire.byteLength trimmed then false
  else
    match Wire.IpAddr.fromStr trimmed with
    | some address => !address.isUnspecified
    | none =>
        if trimmed.head? = some '.' ∨ trimmed.getLast? = some '.' ∨ ['.', '.'] <:+: trimmed ∨
            trimmed.head? = some '[' ∨ trimmed.getLast? = some ']' then false
        else (Wire.splitDots trimmed).all Wire.isLabel

/-- Check the codecs against each other: `names` are those inserted before. -/
def validateCodecs (names : List (List Char)) : List CodecCapability → Except Http.HttpError Unit
  | [] => .ok ()
  | codec :: codecs =>
      let name := codec.name.toList.map Char.toLower
      if !validMetadataText codec.name || codec.clockRate == 0 || codec.channels == 0 ||
          codec.ptime.isEmpty || codec.ptime.contains 0 || names.contains name then
        .error (.wire "metadata contains an invalid or duplicate codec")
      else validateCodecs (name :: names) codecs

/-- Check the stream types against each other: `ids` are those inserted before. -/
def validateStreamTypes (ids : List UInt8) : List VoiceStreamType → Except Http.HttpError Unit
  | [] => .ok ()
  | stream :: streams =>
      if stream.id == HEARTBEAT_STREAM_TYPE || !validMetadataText stream.name ||
          !validMetadataText stream.muteKind || ids.contains stream.id then
        .error (.wire "metadata contains an invalid or duplicate voice stream type")
      else validateStreamTypes (stream.id :: ids) streams

/-- Validate metadata before an application uses its advertised voice endpoint. -/
def validateMetadata (metadata : MetadataBody) : Except Http.HttpError Unit :=
  if !validMetadataHost metadata.voiceEndpoint.host || metadata.voiceEndpoint.port == 0 then
    .error (.wire "metadata contains an invalid voice endpoint")
  else if metadata.codecs.isEmpty then
    .error (.wire "metadata must advertise at least one codec")
  else if metadata.features.any fun feature => !validMetadataText feature then
    .error (.wire "metadata contains an invalid feature name")
  else
    match validateCodecs [] metadata.codecs with
    | .error e => .error e
    | .ok () =>
        if metadata.voiceStreamTypes.isEmpty then
          .error (.wire "metadata must advertise at least one voice stream type")
        else validateStreamTypes [] metadata.voiceStreamTypes

/-- Discover the capabilities of the server: `data` is what the request brought. -/
def metadataResponse (data : MetadataBody) : Except Http.HttpError MetadataBody :=
  if data.protocolVersion ≠ Wire.PROTOCOL_VERSION then
    .error (.protocolVersionMismatch Wire.PROTOCOL_VERSION data.protocolVersion)
  else
    match validateMetadata data with
    | .error e => .error e
    | .ok () => .ok data

/-! ## What the validators establish -/

/-- What accepted metadata provides for a join. -/
structure ValidMetadata (metadata : MetadataBody) : Prop where
  host : validMetadataHost metadata.voiceEndpoint.host = true
  port : metadata.voiceEndpoint.port ≠ 0
  codecs : metadata.codecs ≠ []
  streams : metadata.voiceStreamTypes ≠ []
  business : ∀ stream ∈ metadata.voiceStreamTypes, stream.id ≠ HEARTBEAT_STREAM_TYPE

theorem validateStreamTypes_ok {ids : List UInt8} {streams : List VoiceStreamType}
    (h : validateStreamTypes ids streams = .ok ()) :
    ∀ stream ∈ streams, stream.id ≠ HEARTBEAT_STREAM_TYPE := by
  induction streams generalizing ids with
  | nil => simp
  | cons stream streams ih =>
      simp only [validateStreamTypes, Wire.check_ok_iff, Bool.or_eq_true, beq_iff_eq, not_or] at h
      obtain ⟨⟨⟨⟨hid, -⟩, -⟩, -⟩, hrest⟩ := h
      intro x hx
      rcases List.mem_cons.mp hx with rfl | hx
      · exact hid
      · exact ih hrest x hx

theorem validateMetadata_ok {metadata : MetadataBody} (h : validateMetadata metadata = .ok ()) :
    ValidMetadata metadata := by
  simp only [validateMetadata, Wire.check_ok_iff] at h
  obtain ⟨hendpoint, hcodecs, -, hnext⟩ := h
  cases hvalid : validateCodecs [] metadata.codecs with
  | error e => simp [hvalid] at hnext
  | ok _ =>
      simp only [hvalid, Wire.check_ok_iff] at hnext
      simp only [Bool.or_eq_true, Bool.not_eq_true', beq_iff_eq, not_or,
        Bool.not_eq_false] at hendpoint
      exact {
        host := hendpoint.1
        port := hendpoint.2
        codecs := by simpa using hcodecs
        streams := by simpa using hnext.1
        business := validateStreamTypes_ok hnext.2 }

theorem metadataResponse_ok {data metadata : MetadataBody}
    (h : metadataResponse data = .ok metadata) : ValidMetadata metadata := by
  simp only [metadataResponse, Wire.check_ok_iff] at h
  cases hvalid : validateMetadata data with
  | error e => simp [hvalid] at h
  | ok _ =>
      simp only [hvalid, Except.ok.injEq] at h
      rw [← h.2]
      exact validateMetadata_ok hvalid

/-- What an accepted join response provides. -/
structure ValidJoin (base64 : String → Option (List UInt8)) (channelId : Snowflake)
    (response : VoiceJoinBody) : Prop where
  channel : response.channel.id = channelId
  version : response.voice.protocolVersion = Wire.PROTOCOL_VERSION
  payload : response.voice.maxPayload ≠ 0 ∧
    response.voice.maxPayload ≤ maxPayload response.voice.encrypted
  expiry : 0 < response.voice.expiresAt
  created : response.voice.encrypted = true → response.voice.created = true →
    ∃ key bytes, response.voice.key = some key ∧ base64 key = some bytes ∧ bytes.length = 32
  reused : response.voice.encrypted = true → response.voice.created = false →
    response.voice.key = none
  plain : response.voice.encrypted = false → response.voice.key = none

theorem validateVoiceJoin_ok {base64 : String → Option (List UInt8)} {channelId : Snowflake}
    {response : VoiceJoinBody} {tlsCard : Bool}
    (h : validateVoiceJoin base64 channelId response tlsCard = .ok ()) :
    ValidJoin base64 channelId response := by
  simp only [validateVoiceJoin, Wire.check_ok_iff] at h
  obtain ⟨hchannel, -, hversion, -, hpayload, hexpiry, -, hcreated, hreused, hplain, -⟩ := h
  exact {
    channel := by simpa using hchannel
    version := by simpa using hversion
    payload := by simpa using hpayload
    expiry := by simpa using hexpiry
    created := by
      intro hencrypted hnew
      simp only [hencrypted, hnew, Bool.and_self, Bool.true_and, Bool.not_eq_true',
        Bool.not_eq_false, Option.any_eq_true, decide_eq_true_eq] at hcreated
      obtain ⟨key, hkey, bytes, hbytes, hlength⟩ := hcreated
      exact ⟨key, bytes, hkey, hbytes, hlength⟩
    reused := by
      intro hencrypted hold
      simpa [hencrypted, hold] using hreused
    plain := by
      intro hencrypted
      simpa [hencrypted] using hplain }

/-! ## The checks of the client and the transport -/

/-- A host that the metadata may name is a concrete endpoint. -/
theorem validateEndpoint_of_validMetadata {metadata : MetadataBody} (H : ValidMetadata metadata) :
    validateEndpoint metadata.voiceEndpoint = .ok () := by
  have hhost := H.host
  simp only [validMetadataHost, ne_eq, Bool.if_false_left, Bool.and_eq_true,
    Bool.not_eq_true', decide_eq_false_iff_not, not_or, Decidable.not_not] at hhost
  obtain ⟨⟨htrim, hne, -⟩, hgrammar⟩ := hhost
  have hspecified : ¬ ((Wire.IpAddr.fromStr metadata.voiceEndpoint.host.toList).any
      Wire.IpAddr.isUnspecified = true) := by
    rw [htrim] at hgrammar
    cases haddress : Wire.IpAddr.fromStr metadata.voiceEndpoint.host.toList with
    | none => simp
    | some address => simpa [haddress] using hgrammar
  rw [validateEndpoint, if_neg (by simpa [H.port] using hne), if_neg hspecified]

/-- **The key is decoded**: there is one exactly for a new encrypted session. -/
theorem decodeSessionKey_of_validJoin {base64 : String → Option (List UInt8)}
    {channelId : Snowflake} {response : VoiceJoinBody} (H : ValidJoin base64 channelId response) :
    ∃ key, decodeSessionKey base64 response.voice.encrypted response.voice.created
        response.voice.key = .ok key ∧
      (key.isSome = true ↔ response.voice.encrypted = true ∧ response.voice.created = true) := by
  cases hencrypted : response.voice.encrypted with
  | false =>
      rw [H.plain hencrypted]
      exact ⟨none, rfl, by simp⟩
  | true =>
      cases hcreated : response.voice.created with
      | false =>
          rw [H.reused hencrypted hcreated]
          exact ⟨none, rfl, by simp⟩
      | true =>
          obtain ⟨text, bytes, htext, hbytes, hlength⟩ := H.created hencrypted hcreated
          refine ⟨some ⟨bytes, hlength⟩, ?_, by simp⟩
          simp [htext, decodeSessionKey, hbytes, SessionKey.fromSlice, hlength]

/-- **The configuration is accepted.** -/
theorem newWithProtocolVersion_of_valid {base64 : String → Option (List UInt8)}
    {channelId : Snowflake} {metadata : MetadataBody} {response : VoiceJoinBody}
    {key : Option SessionKey} (HM : ValidMetadata metadata)
    (HJ : ValidJoin base64 channelId response)
    (hkey : response.voice.encrypted = false → key = none) :
    ∃ config, VoiceSessionConfig.newWithProtocolVersion metadata.voiceEndpoint
      response.voice.sessionId response.voice.protocolVersion response.voice.encrypted
      response.voice.maxPayload response.voice.expiresAt key = .ok config := by
  have hpayload := HJ.payload
  have hexpiry := HJ.expiry
  have hplain : ¬ (response.voice.encrypted = false ∧ key.isSome = true) := by
    rintro ⟨hencrypted, hsome⟩
    simp [hkey hencrypted] at hsome
  rw [VoiceSessionConfig.newWithProtocolVersion, validateEndpoint_of_validMetadata HM]
  simp only [bind, Except.bind]
  rw [if_neg (by simp [HJ.version]), dif_neg (by omega), dif_neg (by omega), dif_neg hplain]
  exact ⟨_, rfl⟩

/-- **The stream list is accepted.** -/
theorem withStreamTypes_of_valid {metadata : MetadataBody} (H : ValidMetadata metadata)
    (config : VoiceSessionConfig) :
    ∃ restricted, config.withStreamTypes metadata.metadata.voiceStreamTypes = .ok restricted := by
  have hmem (id : UInt8) :
      id ∈ (metadata.metadata.voiceStreamTypes.insertionSort (· ≤ ·)).dedup ↔
        ∃ stream ∈ metadata.voiceStreamTypes, stream.id = id := by
    rw [List.mem_dedup, List.mem_insertionSort]
    exact List.mem_map
  have hvalues : ¬ ((metadata.metadata.voiceStreamTypes.insertionSort (· ≤ ·)).dedup = [] ∨
      HEARTBEAT_STREAM_TYPE ∈
        (metadata.metadata.voiceStreamTypes.insertionSort (· ≤ ·)).dedup) := by
    rintro (hnil | hheartbeat)
    · obtain ⟨stream, hstream⟩ := List.exists_mem_of_ne_nil _ H.streams
      have hid := (hmem stream.id).mpr ⟨stream, hstream, rfl⟩
      rw [hnil] at hid
      cases hid
    · obtain ⟨stream, hstream, hid⟩ := (hmem _).mp hheartbeat
      exact H.business stream hstream hid
  rw [VoiceSessionConfig.withStreamTypes]
  exact ⟨_, dif_neg hvalues⟩

/-- **The codec is built**, unless no key is to be had. -/
theorem fromConfig_error_iff {K : Type} {crypto : Crypto K} {config : VoiceSessionConfig}
    {cache : SessionKeyCache} {e : VoiceError} :
    (PacketCodec.fromConfig crypto config cache).2 = .error e ↔
      e = .keyUnavailable ∧ config.encrypted = true ∧ config.sessionKey = none ∧
        cache config.sessionId = none := by
  constructor
  · intro h
    have hpair : PacketCodec.fromConfig crypto config cache =
        ((PacketCodec.fromConfig crypto config cache).1, .error e) := Prod.ext rfl h
    obtain ⟨-, hcached⟩ := PacketCodec.fromConfig_error hpair
    simp only [PacketCodec.fromConfig] at h
    split at h
    · rename_i e' hresolve
      cases h
      have hinline := (VoiceSessionConfig.resolveKey_error hresolve).1
      simp only [VoiceSessionConfig.resolveKey] at hresolve
      split at hresolve
      · cases hresolve
      · rename_i hencrypted
        split at hresolve
        · cases hresolve
        · cases hresolve
          exact ⟨rfl, by simpa using hencrypted, hinline, hcached⟩
    · cases h
  · rintro ⟨rfl, hencrypted, hinline, hcached⟩
    rw [PacketCodec.fromConfig_keyUnavailable hencrypted (by simp [hinline, hcached])]

/-- **A committed join is not given up by a local check.** For metadata and a join
response that passed their validators, a codec is advertised, the channel is the
requested one, the key is decoded, the configuration and its stream types are
accepted, and the join goes on to open the socket. The packet codec then lacks
at most the key of a reused encrypted session that is not cached. -/
theorem committed_join_passes_local_checks {V K : Type} (env : Env V K)
    (data metadata : MetadataBody) (channelId : Snowflake) (response : VoiceJoinBody)
    (tlsCard : Bool) (hmetadata : metadataResponse data = .ok metadata)
    (hjoin : validateVoiceJoin env.base64 channelId response tlsCard = .ok ()) :
    (∃ codec, metadata.metadata.codecs.head? = some codec) ∧
    response.response.channelId = channelId ∧
    ∃ key config restricted,
      decodeSessionKey env.base64 response.voice.encrypted response.voice.created
        response.voice.key = .ok key ∧
      VoiceSessionConfig.newWithProtocolVersion metadata.metadata.voiceEndpoint
        response.voice.sessionId response.voice.protocolVersion response.voice.encrypted
        response.voice.maxPayload response.voice.expiresAt key = .ok config ∧
      config.withStreamTypes metadata.metadata.voiceStreamTypes = .ok restricted ∧
      (∀ (s : Client V K) i call b, call.channelId = channelId →
        b.metadata = metadata.metadata → ∃ reuse,
          s.joinResponded env i call b (.ok response.response) =
            s.goto i (.join call (.connecting b restricted reuse))) ∧
      ∀ cache e, (PacketCodec.fromConfig env.crypto restricted cache).2 = .error e ↔
        e = .keyUnavailable ∧ response.voice.encrypted = true ∧
          response.voice.created = false ∧ cache response.voice.sessionId = none := by
  have HM := metadataResponse_ok hmetadata
  have HJ := validateVoiceJoin_ok hjoin
  obtain ⟨key, hdecode, hkey⟩ := decodeSessionKey_of_validJoin HJ
  have hplain : response.voice.encrypted = false → key = none := by
    intro hencrypted
    simpa [hencrypted] using hkey
  obtain ⟨config, hconfig⟩ := newWithProtocolVersion_of_valid HM HJ hplain
  obtain ⟨restricted, hrestricted⟩ := withStreamTypes_of_valid HM config
  obtain ⟨hsession, hencrypted, hinline⟩ := VoiceSessionConfig.newWithProtocolVersion_ok hconfig
  obtain ⟨hsession', hencrypted', hinline'⟩ := VoiceSessionConfig.withStreamTypes_ok hrestricted
  refine ⟨?_, HJ.channel, key, config, restricted, hdecode, hconfig, hrestricted, ?_, ?_⟩
  · cases hcodecs : metadata.codecs with
    | nil => exact absurd hcodecs HM.codecs
    | cons codec codecs => exact ⟨codec, by simp [MetadataBody.metadata, hcodecs]⟩
  · intro s i call b hcall hb
    have hnegotiate : Client.negotiate env b call.channelId response.response = .ok restricted := by
      have hchannel : response.response.channelId = call.channelId := HJ.channel.trans hcall.symm
      have hvoice : response.response.voice = response.voice := rfl
      have hendpoint : metadata.metadata.voiceEndpoint = metadata.voiceEndpoint := rfl
      simp [Client.negotiate, hchannel, hvoice, hb, hdecode, hendpoint, hconfig, hrestricted]
    exact ⟨_, by simp only [Client.joinResponded, hnegotiate]; rfl⟩
  · intro cache e
    rw [fromConfig_error_iff, hencrypted', hencrypted, hinline', hinline, hsession', hsession]
    constructor
    · rintro ⟨he, hsealed, hnone, hcached⟩
      refine ⟨he, hsealed, ?_, hcached⟩
      by_contra hcreated
      have hsome := hkey.mpr ⟨hsealed, by simpa using hcreated⟩
      simp [hnone] at hsome
    · rintro ⟨he, hsealed, hreused, hcached⟩
      refine ⟨he, hsealed, ?_, hcached⟩
      by_contra hsome
      have hcreated := (hkey.mp (Option.isSome_iff_ne_none.mpr hsome)).2
      simp [hreused] at hcreated

/-- Metadata with one codec and one stream type. -/
def sampleMetadataBody : MetadataBody where
  protocolVersion := Wire.PROTOCOL_VERSION
  voiceEndpoint := ⟨"voice.example", 7601⟩
  codecs := [⟨"opus", 48000, 2, [20]⟩]
  voiceStreamTypes := [⟨1, "microphone", "voice"⟩]
  features := []

/-- The standard base64 text of 32 bytes `1`. -/
def sampleKeyText : String := "AQEBAQEBAQEBAQEBAQEBAQEBAQEBAQEBAQEBAQEBAQE="

/-- Base64 as the sample response needs it. -/
def sampleJoinEnv : Env (Option VoiceAuthority) SampleCipher :=
  { sampleClientEnv with
    base64 := fun text => if text = sampleKeyText then some (List.replicate 32 1) else none }

/-- The answer to a join that created an encrypted session. -/
def sampleJoinBody : VoiceJoinBody where
  channel := ⟨sampleChannel, none, "", "voice", false, "", 0, 0, false, ""⟩
  members := []
  voice := ⟨true, sampleId .session 0, some sampleKeyText, true, 1000, Wire.PROTOCOL_VERSION, 1⟩

theorem committed_join_passes_local_checks_created : ∃ key config restricted,
    decodeSessionKey sampleJoinEnv.base64 true true (some sampleKeyText) = .ok key ∧
    VoiceSessionConfig.newWithProtocolVersion sampleMetadata.voiceEndpoint (sampleId .session 0)
      Wire.PROTOCOL_VERSION true 1000 1 key = .ok config ∧
    config.withStreamTypes sampleMetadata.voiceStreamTypes = .ok restricted ∧
    ∀ cache e, (PacketCodec.fromConfig sampleJoinEnv.crypto restricted cache).2 ≠ .error e := by
  obtain ⟨-, -, key, config, restricted, hdecode, hconfig, hrestricted, -, hcodec⟩ :=
    committed_join_passes_local_checks sampleJoinEnv sampleMetadataBody sampleMetadataBody
      sampleChannel sampleJoinBody true (by decide) (by decide)
  refine ⟨key, config, restricted, hdecode, hconfig, hrestricted, fun cache e he => ?_⟩
  exact absurd ((hcodec cache e).mp he).2.2.1 (by decide)

end ZephyrVox.Sdk
