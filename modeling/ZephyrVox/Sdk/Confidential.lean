import ZephyrVox.Sdk.Nonces
import ZephyrVox.Voice.Outbound

/-!
# Voice under a TLS card

The answer to a voice join passes `validateVoiceJoin` before the client sees it.
Under a TLS card it names an encrypted session, so every worker of the client has
direction keys and writes sealed bodies only; a join that finds no key fails
before a worker starts.

## Main definitions

* `validateVoiceJoin`, `ChannelApi.joinVoice` — the checks of the HTTP adapter.
* `AnsweredByApi` — joins are answered by the adapter.
* `tls_voice_is_sealed` — the datagrams of every worker, under a TLS card.
-/

namespace ZephyrVox.Sdk

open Realtime Voice

/-! ## The join response -/

/-- The parts of a join response that are validated. -/
structure VoiceJoinBody where
  channel : Channel
  members : List VoiceMembership
  voice : VoiceNegotiation
  deriving DecidableEq, Repr

/-- The parts of a join response that are read later. -/
def VoiceJoinBody.response (body : VoiceJoinBody) : VoiceJoinResponse :=
  ⟨body.channel.id, body.voice⟩

/-- Validate negotiated voice values before handing them to a UDP client. -/
def validateVoiceJoin (base64 : String → Option (List UInt8)) (requestedChannelId : Snowflake)
    (response : VoiceJoinBody) (tlsCard : Bool) : Except Http.HttpError Unit :=
  let voice := response.voice
  if response.channel.id ≠ requestedChannelId then
    .error (.wire "voice join response channel does not match the requested channel")
  else if response.channel.mode ≠ "voice" then
    .error (.wire "voice join response does not contain a voice channel")
  else if voice.protocolVersion ≠ Wire.PROTOCOL_VERSION then
    .error (.protocolVersionMismatch Wire.PROTOCOL_VERSION voice.protocolVersion)
  else if tlsCard && !voice.encrypted then
    .error (.wire "plaintext voice sessions are not allowed for TLS server cards")
  else if voice.maxPayload = 0 ∨ maxPayload voice.encrypted < voice.maxPayload then
    .error (.wire "voice join response exceeds the protocol payload limit")
  else if voice.expiresAt ≤ 0 then
    .error (.wire "voice join response has an invalid session expiry")
  else if response.members.any fun member => member.channelId ≠ requestedChannelId then
    .error (.wire "voice join response contains a member from another channel")
  else if voice.encrypted && voice.created &&
      !(voice.key.any fun key => (base64 key).any fun decoded => decoded.length = 32) then
    .error (.wire "new encrypted voice sessions must include a 32-byte base64 session key")
  else if voice.encrypted && !voice.created && voice.key.isSome then
    .error (.wire "reused encrypted voice sessions must not include a session key")
  else if !voice.encrypted && voice.key.isSome then
    .error (.wire "plaintext voice sessions must not include a session key")
  else .ok ()

/-- Join a voice channel: `sent` is what the authenticated request brought. -/
def ChannelApi.joinVoice (base64 : String → Option (List UInt8)) (card : Wire.ServerCard)
    (channelId : Snowflake) (controlConnection : Option ControlConnectionId)
    (sent : Except Http.HttpError VoiceJoinBody) : Except Http.HttpError VoiceJoinBody :=
  if controlConnection.isNone then .error .missingControlConnection
  else
    match sent with
    | .error e => .error e
    | .ok response =>
        match validateVoiceJoin base64 channelId response card.scheme.isTls with
        | .error e => .error e
        | .ok () => .ok response

/-- A TLS card admits encrypted sessions only. -/
theorem validateVoiceJoin_encrypted {base64 : String → Option (List UInt8)}
    {channelId : Snowflake} {response : VoiceJoinBody}
    (h : validateVoiceJoin base64 channelId response true = .ok ()) :
    response.voice.encrypted = true := by
  by_contra hplain
  simp only [Bool.not_eq_true] at hplain
  unfold validateVoiceJoin at h
  simp only [hplain, Bool.not_false, Bool.and_self, if_true] at h
  split at h
  · cases h
  · split at h
    · cases h
    · split at h <;> cases h

/-- What the adapter returns under a TLS card is an encrypted session. -/
theorem ChannelApi.joinVoice_encrypted {base64 : String → Option (List UInt8)}
    {card : Wire.ServerCard} {channelId : Snowflake} {control : Option ControlConnectionId}
    {sent : Except Http.HttpError VoiceJoinBody} {response : VoiceJoinBody}
    (hcard : card.scheme.isTls = true)
    (h : joinVoice base64 card channelId control sent = .ok response) :
    response.voice.encrypted = true := by
  unfold joinVoice at h
  split at h
  · cases h
  · split at h
    · cases h
    case h_2 body =>
      cases hvalid : validateVoiceJoin base64 channelId body card.scheme.isTls with
      | error e =>
          rw [hvalid] at h
          cases h
      | ok _ =>
          rw [hvalid] at h
          cases h
          rw [hcard] at hvalid
          exact validateVoiceJoin_encrypted hvalid

/-! ## Keys of configurations and workers -/

/-- The configuration that an encrypted session was answered with. -/
structure ConfiguredBy (base64 : String → Option (List UInt8)) (response : VoiceJoinResponse)
    (config : VoiceSessionConfig) : Prop where
  encrypted : config.encrypted = true
  session : config.sessionId = response.voice.sessionId
  created : response.voice.created = true → ∃ key, config.sessionKey = some key ∧
    response.voice.key.bind base64 = some key.asBytes

/-- A codec with the keys of the session of a response: those of the inline key, if
the session was created. -/
structure KeyedFor {K : Type} (crypto : Crypto K) (base64 : String → Option (List UInt8))
    (response : VoiceJoinResponse) (codec : PacketCodec K) (key : SessionKey) : Prop where
  session : codec.sessionId = response.voice.sessionId
  keyed : codec.KeyedBy crypto key
  created : response.voice.created = true → response.voice.key.bind base64 = some key.asBytes

/-- A created session brings its key. -/
theorem decodeSessionKey_created {base64 : String → Option (List UInt8)} {text : Option String}
    {key : Option SessionKey} (h : decodeSessionKey base64 true true text = .ok key) :
    ∃ key', key = some key' ∧ text.bind base64 = some key'.asBytes := by
  cases text with
  | none => cases h
  | some text =>
      simp only [decodeSessionKey] at h
      cases hbytes : base64 text with
      | none =>
          rw [hbytes] at h
          cases h
      | some bytes =>
          rw [hbytes] at h
          by_cases hlength : bytes.length = 32
          · simp only [SessionKey.fromSlice, hlength, dif_pos] at h
            cases h
            exact ⟨_, rfl, hbytes⟩
          · simp only [SessionKey.fromSlice, hlength, dif_neg, not_false_eq_true] at h
            cases h

theorem negotiate_configuredBy {V K : Type} {env : Env V K} {b : Binding} {channelId : Snowflake}
    {response : VoiceJoinResponse} {config : VoiceSessionConfig}
    (hencrypted : response.voice.encrypted = true)
    (h : Client.negotiate env b channelId response = .ok config) :
    ConfiguredBy env.base64 response config := by
  unfold Client.negotiate at h
  dsimp only at h
  split at h
  · cases h
  · cases hkey : decodeSessionKey env.base64 response.voice.encrypted response.voice.created
        response.voice.key with
    | error e =>
        rw [hkey] at h
        cases h
    | ok key =>
        rw [hkey] at h
        dsimp only at h
        split at h
        · cases h
        case h_2 base hbase =>
          obtain ⟨hid, henc, hinline⟩ := VoiceSessionConfig.newWithProtocolVersion_ok hbase
          split at h
          · cases h
          case h_2 restricted hrestricted =>
            cases h
            obtain ⟨hid', henc', hinline'⟩ := VoiceSessionConfig.withStreamTypes_ok hrestricted
            refine ⟨henc'.trans (henc.trans hencrypted), hid'.trans hid, fun hcreated => ?_⟩
            rw [hencrypted, hcreated] at hkey
            obtain ⟨key', rfl, hbytes⟩ := decodeSessionKey_created hkey
            exact ⟨key', hinline'.trans hinline, hbytes⟩

/-- The codec of such a configuration has keys. -/
theorem ConfiguredBy.keyedFor {K : Type} {crypto : Crypto K}
    {base64 : String → Option (List UInt8)} {response : VoiceJoinResponse}
    {config : VoiceSessionConfig} {cache : SessionKeyCache} {codec : PacketCodec K}
    (h : ConfiguredBy base64 response config)
    (hcodec : (PacketCodec.fromConfig crypto config cache).2 = .ok codec) :
    ∃ key, KeyedFor crypto base64 response codec key := by
  obtain ⟨hid, key, hkeyed, hkey⟩ := PacketCodec.keyedBy_of_fromConfig h.encrypted hcodec
  refine ⟨key, hid.trans h.session, hkeyed, fun hcreated => ?_⟩
  obtain ⟨inline, hinline, hbytes⟩ := h.created hcreated
  rw [hinline, Option.some_or] at hkey
  cases hkey
  exact hbytes

namespace Client

variable {V K : Type} {env : Env V K} {s t : Client V K} {i : Task} {q : Pc V} {a : Action V}

/-! ## Where a configuration comes from -/

/-- A task that stands before a UDP connection was bound to a control identity. -/
theorem Effect.connecting {call : JoinCall V} {b : Binding} {config : VoiceSessionConfig}
    {reuse : Option SessionKey} (h : Effect env s t i (.join call (.connecting b config reuse))) :
    (s.tasks.pc i).bound? = some b := by
  have inherited {p : Pc V}
      (he : (Pc.join call (.connecting b config reuse)).bound? = none ∨
        (Pc.join call (.connecting b config reuse)).bound? = p.bound?) : p.bound? = some b := by
    rcases he with he | he
    · cases he
    · exact he.symm
  cases h with
  | calm h le => exact inherited le.bound
  | installsFirst _ _ _ _ _ _ _ hle | records _ _ _ _ _ _ hle => cases inherited hle.1.bound
  | shutsVoice _ hle => cases inherited hle.bound
  | handles _ _ _ _ _ _ _ _ _ _ heq =>
      rcases heq with ⟨-, heq⟩ | ⟨-, heq⟩ | ⟨intent, -, -, -, heq⟩ <;> cases heq
  | binds _ _ _ _ _ heq | starts _ _ _ _ _ _ heq | reads _ _ _ heq | exits _ _ _ _ heq
  | locks heq | makes _ _ heq | rejects _ _ heq | skips _ _ _ _ _ _ heq | passes _ _ _ _ _ heq
  | takes _ _ _ _ _ _ _ heq | installs _ _ _ _ _ _ _ _ heq | leaves _ _ _ heq
  | putsBack _ _ _ heq | shuts _ heq | shutsControl _ _ heq | clears _ heq => cases heq

/-- Only the answer to the HTTP join leads to a UDP connection. -/
theorem resumeJoin_connecting {call call' : JoinCall V} {stage : JoinPc} {input : Input}
    {b : Binding} {config : VoiceSessionConfig} {reuse : Option SessionKey}
    (hbound : (Pc.join call' stage).bound? = some b)
    (h : s.resumeJoin env i call' stage input = some t)
    (hq : t.tasks.pc i = .join call (.connecting b config reuse)) :
    ∃ response, input = .joined (.ok response) ∧ stage = .requesting b ∧ call' = call ∧
      negotiate env b call.channelId response = .ok config := by
  have hfail (u : Client V K) (e : SdkError) (hu : u.failJoin i call' e = t) : False := by
    subst hu
    rcases u.failJoin_pc i call' e with hp | ⟨r, hp⟩ <;> (rw [hp] at hq; cases hq)
  cases stage with
  | gate | control | discovering | discarding => cases hbound
  | requesting b' =>
      cases hbound
      cases input with
      | joined result =>
          injection h with h
          cases joinResponded_cases h with
          | fails e => exact absurd rfl (hfail s e)
          | configures response config' reuse' hresult hconfig =>
              simp only [goto, Gate.Tasks.pc_goto_self] at hq
              cases hq
              exact ⟨response, by rw [hresult], rfl, rfl, hconfig⟩
      | _ => cases h
  | connecting b' config' reuse' =>
      cases input with
      | udp result =>
          injection h with h
          cases joinConnected_cases h with
          | fails e _ => exact absurd rfl (hfail s _)
          | rejects cache e _ _ => exact absurd rfl (hfail _ _)
          | starts cache codec _ _ =>
              simp only [goto, Gate.Tasks.pc_goto_self] at hq
              cases hq
      | _ => cases h
  | starting b' w reuse' =>
      cases input with
      | ready =>
          cases joinStarted_cases (t := t) h with
          | fails worker e _ _ => exact absurd rfl (hfail s _)
          | discards => simp [goto] at hq
          | records conn x _ _ =>
              rcases recordJoin_pc (s.install x) i call' s.sessions.length x reuse' with
                hp | ⟨r, hp⟩ <;> (rw [hp] at hq; cases hq)
          | replaces conn x previous _ _ => simp [goto] at hq
      | _ => cases h

/-- What an action did to a task that stands before a UDP connection. -/
theorem connecting_cases (h : s.step env a = some t)
    {call : JoinCall V} {b : Binding} {config : VoiceSessionConfig} {reuse : Option SessionKey}
    {j : Task} (hj : t.tasks.pc j = .join call (.connecting b config reuse)) :
    s.tasks.pc j = .join call (.connecting b config reuse) ∨
      ∃ response, a = .resume j (.joined (.ok response)) ∧
        s.tasks.pc j = .join call (.requesting b) ∧
        negotiate env b call.channelId response = .ok config := by
  have moved {i : Task} {q : Pc V} (hm : Moved env s t i q) (hne : j ≠ i) :
      s.tasks.pc j = .join call (.connecting b config reuse) := by
    rwa [hm.pc, Function.update_of_ne hne] at hj
  have self {q : Pc V} (hm : Moved env s t j q) : (s.tasks.pc j).bound? = some b := by
    rw [hm.pc, Function.update_self] at hj
    subst hj
    exact hm.effect.connecting
  cases step_cases h with
  | call n c q result hp hm =>
      by_cases hjn : j = .host n
      · subst hjn
        have hbound := self hm
        rw [hp] at hbound
        cases hbound
      · exact .inl (moved hm hjn)
  | resume i input q hp hm =>
      by_cases hji : j = i
      · subst hji
        have hbound := self hm
        have hresume : s.resume env j input = some t := h
        unfold resume at hresume
        cases hpc : s.tasks.pc j with
        | join call' stage =>
            simp only [hpc] at hbound hresume
            obtain ⟨response, rfl, rfl, rfl, hconfig⟩ :=
              resumeJoin_connecting hbound hresume hj
            exact .inr ⟨response, rfl, rfl, hconfig⟩
        | _ => rw [hpc] at hbound; cases hbound
      · exact .inl (moved hm hji)
  | install i input c conn hp hconn hstopped ht =>
      subst ht
      by_cases hji : j = i
      · subst hji
        simp [goto] at hj
      · by_cases hjr : j = .relay (s.connectionGeneration + 1)
        · subst hjr
          simp [goto, Gate.Tasks.goto, hji] at hj
        · simp only [goto, Gate.Tasks.goto, Function.update_of_ne hji,
            Function.update_of_ne hjr] at hj
          exact .inl hj
  | abort i input hp ht =>
      subst ht
      by_cases hji : j = i
      · subst hji
        simp [shutdownFinish, goto] at hj
      · cases j with
        | relay g => simp [shutdownFinish, goto, Gate.Tasks.goto, hji] at hj
        | host m => exact .inl (by simpa [shutdownFinish, goto, Gate.Tasks.goto, hji] using hj)
  | engine c input conn next hconn hstep ht => subst ht; exact .inl hj
  | close c ht => subst ht; exact .inl hj
  | worker w input worker next sealed keyCache hworker hstep ht => subst ht; exact .inl hj

/-! ## The invariant -/

/-- The adapter of a client with a card answered a join. -/
def AnsweredByApi (env : Env V K) (card : Wire.ServerCard) (s : Client V K) (a : Action V) : Prop :=
  ∀ i call b result, a = .resume i (.joined result) →
    s.tasks.pc i = .join call (.requesting b) →
      ∃ sent, result = (ChannelApi.joinVoice env.base64 card call.channelId (some b.controlId)
        sent).map VoiceJoinBody.response

/-- Under a TLS card the adapter returns encrypted sessions. -/
theorem AnsweredByApi.encrypted {card : Wire.ServerCard} (hcard : card.scheme.isTls = true)
    {call : JoinCall V} {b : Binding} {response : VoiceJoinResponse}
    (h : s.AnsweredByApi env card (.resume i (.joined (.ok response))))
    (hp : s.tasks.pc i = .join call (.requesting b)) : response.voice.encrypted = true := by
  obtain ⟨sent, hsent⟩ := h i call b _ rfl hp
  cases hjoin : ChannelApi.joinVoice env.base64 card call.channelId (some b.controlId) sent with
  | error e =>
      rw [hjoin] at hsent
      cases hsent
  | ok body =>
      rw [hjoin] at hsent
      cases hsent
      exact ChannelApi.joinVoice_encrypted hcard hjoin

/-- Joins that wait for their UDP socket, and workers, have the keys of a session that
a response in `answered` named. -/
structure Confidential (env : Env V K) (answered : VoiceJoinResponse → Prop) (s : Client V K) :
    Prop where
  connecting : ∀ i call b config reuse,
    s.tasks.pc i = .join call (.connecting b config reuse) →
      ∃ response, answered response ∧ ConfiguredBy env.base64 response config
  workers : ∀ worker ∈ s.workers, ∃ response, answered response ∧
    ∃ key, KeyedFor env.crypto env.base64 response worker.codec key

/-- Workers are as they were, but for one that the action may have started. -/
theorem workers_cases (h : s.step env a = some t) {worker : Worker K}
    (hworker : worker ∈ t.workers) :
    (∃ worker' ∈ s.workers, worker'.codec = worker.codec) ∨
      ∃ i call b config reuse, s.tasks.pc i = .join call (.connecting b config reuse) ∧
        (PacketCodec.fromConfig env.crypto config s.keyCache).2 = .ok worker.codec := by
  have kept (hmem : Worker.counter worker ∈ s.workers.map Worker.counter) :
      ∃ worker' ∈ s.workers, worker'.codec = worker.codec := by
    obtain ⟨worker', hworker', heq⟩ := List.mem_map.mp hmem
    exact ⟨worker', hworker', congrArg Prod.fst heq⟩
  have same (hsame : t.workers = s.workers) : ∃ worker' ∈ s.workers,
      worker'.codec = worker.codec := ⟨worker, hsame ▸ hworker, rfl⟩
  have hmem : Worker.counter worker ∈ t.workers.map Worker.counter := List.mem_map_of_mem hworker
  have moved {i : Task} {q : Pc V} (heffect : Effect env s t i q) :
      (∃ worker' ∈ s.workers, worker'.codec = worker.codec) ∨
        ∃ i call b config reuse, s.tasks.pc i = .join call (.connecting b config reuse) ∧
          (PacketCodec.fromConfig env.crypto config s.keyCache).2 = .ok worker.codec := by
    obtain ⟨-, hkept | ⟨call, b, config, reuse, codec, hp, -, hcodec, -, hstarted⟩⟩ :=
      heffect.counters
    · exact .inl (kept (hkept ▸ hmem))
    · rw [hstarted] at hmem
      rcases List.mem_append.mp hmem with hmem | hmem
      · exact .inl (kept hmem)
      · have hnew : worker.codec = codec := congrArg Prod.fst (List.mem_singleton.mp hmem)
        exact .inr ⟨i, call, b, config, reuse, hp, hnew ▸ hcodec⟩
  cases step_cases h with
  | call n c q result hp hm => exact moved hm.effect
  | resume i input q hp hm => exact moved hm.effect
  | install i input c conn hp hconn hstopped ht => exact .inl (same (by rw [ht]; rfl))
  | abort i input hp ht => exact .inl (same (by rw [ht]; rfl))
  | engine c input conn next hconn hstep ht => exact .inl (same (by rw [ht]))
  | close c ht => exact .inl (same (by rw [ht]; rfl))
  | worker w input before next sealed keyCache hbefore hstep ht =>
      rw [ht] at hworker
      rcases List.mem_or_eq_of_mem_set hworker with hold | rfl
      · exact .inl ⟨worker, hold, rfl⟩
      · exact .inl ⟨before, List.mem_of_getElem? hbefore, (Worker.step_spec hstep).2.1.symm⟩

/-- **Keys stay with their sessions** in every step of a client with a TLS card. -/
theorem confidential_step {card : Wire.ServerCard} {answered : VoiceJoinResponse → Prop}
    (hcard : card.scheme.isTls = true) (hs : s.Confidential env answered)
    (hapi : s.AnsweredByApi env card a)
    (hanswered : ∀ i response, a = .resume i (.joined (.ok response)) → answered response)
    (h : s.step env a = some t) : t.Confidential env answered := by
  refine ⟨?_, ?_⟩
  · intro i call b config reuse hp
    rcases connecting_cases h hp with hp | ⟨response, rfl, hp, hconfig⟩
    · exact hs.connecting i call b config reuse hp
    · exact ⟨response, hanswered i response rfl,
        negotiate_configuredBy (hapi.encrypted hcard hp) hconfig⟩
  · intro worker hworker
    rcases workers_cases h hworker with ⟨worker', hworker', heq⟩ |
      ⟨i, call, b, config, reuse, hp, hcodec⟩
    · rw [← heq]
      exact hs.workers worker' hworker'
    · obtain ⟨response, hresponse, hconfigured⟩ := hs.connecting i call b config reuse hp
      exact ⟨response, hresponse, hconfigured.keyedFor hcodec⟩

/-- **Voice under a TLS card is sealed.** In every run of a client whose joins the
adapter answers, whatever the key cache held before it: all that a worker writes is
sealed under the client-to-server key of a session that a response of the run named,
derived from a session key (the inline key of that response, if the session was
created); and a join that finds no key when its UDP socket is connected fails
without a worker. -/
theorem tls_voice_is_sealed (env : Env V K) (card : Wire.ServerCard)
    (hcard : card.scheme.isTls = true) (autoRejoinVoice : Bool) (policy : ReconnectPolicy)
    (cache : SessionKeyCache) (schedule : List (Action V))
    (hapi : Transition.Along (step env) (AnsweredByApi env card)
      { new autoRejoinVoice policy with keyCache := cache } schedule)
    (h : Transition.exec (step env) { new autoRejoinVoice policy with keyCache := cache }
      schedule = some t) :
    (∀ worker ∈ t.workers, ∃ i response key,
      .resume i (.joined (.ok response)) ∈ schedule ∧
      KeyedFor env.crypto env.base64 response worker.codec key ∧
      ∀ actions sender, Transition.exec (Sender.step env.crypto) (Sender.new worker.codec)
        actions = some sender →
      ∀ packet ∈ sender.written, packet.SealedUnder env.crypto worker.codec key) ∧
    ∀ i call b config reuse, t.tasks.pc i = .join call (.connecting b config reuse) →
      config.sessionKey.or (t.keyCache config.sessionId) = none →
      t.step env (.resume i (.udp (.ok ()))) =
          some (t.failJoin i call (.voice .keyUnavailable)) ∧
        (t.failJoin i call (.voice .keyUnavailable)).workers = t.workers := by
  have hnew : ({ new autoRejoinVoice policy with keyCache := cache } : Client V K).Confidential env
      fun response => ∃ i, .resume i (.joined (.ok response)) ∈ schedule :=
    ⟨(fun j _ _ _ _ h => by cases j <;> cases h), (fun _ h => by cases h)⟩
  have hstep : ∀ s a t,
      (s.Confidential env fun response => ∃ i, .resume i (.joined (.ok response)) ∈ schedule) →
      s.AnsweredByApi env card a ∧ a ∈ schedule → step env s a = some t →
      t.Confidential env fun response => ∃ i, .resume i (.joined (.ok response)) ∈ schedule := by
    intro s a t hs ⟨hapi, hmem⟩ h
    exact confidential_step hcard hs hapi (fun i response ha => ⟨i, ha ▸ hmem⟩) h
  have ht := Transition.invariant_along hstep hnew (hapi.and_forall fun a ha => ha) h
  refine ⟨?_, ?_⟩
  · intro worker hworker
    obtain ⟨response, ⟨i, hmem⟩, key, hkeyed⟩ := ht.workers worker hworker
    exact ⟨i, response, key, hmem, hkeyed, fun _ _ hsender => hkeyed.keyed.written hsender⟩
  · intro i call b config reuse hp hkey
    obtain ⟨response, -, hconfigured⟩ := ht.connecting i call b config reuse hp
    have hfail : PacketCodec.fromConfig env.crypto config t.keyCache =
        (t.keyCache, .error .keyUnavailable) :=
      PacketCodec.fromConfig_keyUnavailable hconfigured.encrypted hkey
    refine ⟨?_, ?_⟩
    · simp [step, resume, hp, resumeJoin, joinConnected, hfail]
    · unfold failJoin
      split <;> rfl

/-- A test that guarantees that the adapter answered a join. -/
def checkAnsweredByApi (env : Env V K) (card : Wire.ServerCard) (s : Client V K) :
    Action V → Bool
  | .resume i (.joined (.ok response)) =>
      match s.tasks.pc i with
      | .join call (.requesting _) =>
          let channel : Channel :=
            ⟨response.channelId, none, "", "voice", false, "", 0, 0, false, ""⟩
          match validateVoiceJoin env.base64 call.channelId ⟨channel, [], response.voice⟩
            card.scheme.isTls with
          | .ok () => true
          | .error _ => false
      | _ => true
  | _ => true

theorem answeredByApi_of_check {card : Wire.ServerCard}
    (h : s.checkAnsweredByApi env card a = true) : s.AnsweredByApi env card a := by
  rintro i call b result rfl hp
  cases result with
  | error e => exact ⟨.error e, rfl⟩
  | ok response =>
      simp only [checkAnsweredByApi, hp] at h
      refine ⟨.ok ⟨⟨response.channelId, none, "", "voice", false, "", 0, 0, false, ""⟩, [],
        response.voice⟩, ?_⟩
      split at h
      case h_1 hvalid => simp [ChannelApi.joinVoice, hvalid, Except.map, VoiceJoinBody.response]
      case h_2 => cases h

/-- A card of a TLS server. -/
def sampleTlsCard : Wire.ServerCard where
  scheme := .tls
  host := "voice.example"
  port := 7600
  fingerprint := some ⟨List.replicate 32 0, by decide⟩
  invite := none
  protocolVersion := Wire.PROTOCOL_VERSION

/-- A worker starts and sends one media packet. -/
def sampleMedia : List SenderAction :=
  [.start, .complete (.ok ()), .send 1 [7], .complete (.ok ())]

/-- A created session and a reused one: the workers of both write a heartbeat and media. -/
theorem tls_voice_is_sealed_reused :
    ∃ t, Transition.exec (step sampleClientEnv) sampleClient reusedSchedule = some t ∧
      t.workers.length = 2 ∧ ∀ worker ∈ t.workers, ∃ sender key,
        Transition.exec (Sender.step sampleCrypto) (Sender.new worker.codec) sampleMedia =
          some sender ∧
        sender.written.length = 2 ∧
        ∀ packet ∈ sender.written, packet.SealedUnder sampleCrypto worker.codec key := by
  have hrun : (Transition.exec (step sampleClientEnv) sampleClient reusedSchedule).any (fun t =>
      t.workers.length = 2 && t.workers.all fun worker =>
        (Transition.exec (Sender.step sampleCrypto) (Sender.new worker.codec) sampleMedia).any
          fun sender => sender.written.length = 2) = true := by decide
  obtain ⟨t, ht, hresult⟩ := (Option.any_eq_true _ _).mp hrun
  obtain ⟨hworkers, hsenders⟩ := Bool.and_eq_true_iff.mp hresult
  refine ⟨t, ht, of_decide_eq_true hworkers, fun worker hworker => ?_⟩
  obtain ⟨sender, hsender, hwritten⟩ :=
    (Option.any_eq_true _ _).mp (List.all_eq_true.mp hsenders worker hworker)
  obtain ⟨-, -, key, -, -, hsealed⟩ := (tls_voice_is_sealed sampleClientEnv sampleTlsCard rfl true
    ⟨true, none⟩ .new reusedSchedule
    (Transition.along_of_check (fun _ _ => answeredByApi_of_check) (by decide)) ht).1 worker hworker
  exact ⟨sender, key, hsender, of_decide_eq_true hwritten, hsealed _ _ hsender⟩

end Client

end ZephyrVox.Sdk
