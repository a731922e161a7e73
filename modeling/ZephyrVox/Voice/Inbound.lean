import ZephyrVox.Voice.Packet
import ZephyrVox.Voice.Replay

/-!
# Received datagrams

What a session makes of the datagrams it is handed: each is authenticated and
parsed, its transport sequence is admitted once, and only then is a media frame
published or a revocation obeyed. A datagram the codec rejects leaves no trace,
so a sequence of datagrams and the same sequence without the rejected ones end
in the same state.

The sequence of datagrams is arbitrary, and nothing is assumed about the cipher:
forged, repeated and reordered traffic is included. The results are also about
datagrams handed over after a revocation, which the worker's loop never does.

## Main definitions

* `Inbox` — the part of a session that a datagram can change.
* `Inbox.handleInbound`, `Inbox.receive` — one datagram, and a sequence of them.
* `Worker.inbox_handleInbound` — the worker's own turn on a datagram is this one.
* `inbound_media_at_most_once` — one delivery for each sequence, and no influence
  of rejected datagrams.
-/

namespace ZephyrVox.Voice

variable {K : Type}

/-- The part of a session that a received datagram can change. -/
structure Inbox where
  replay : ReplayWindow
  /-- Whether `media_tx` still holds its sender. -/
  mediaOpen : Bool
  /-- Media published to receivers, oldest first. -/
  media : List InboundMedia
  status : VoiceStatus
  deriving DecidableEq, Repr

/-- The media frame of a packet. A control packet has none. -/
def DecodedPacket.inboundMedia (packet : DecodedPacket) : Option InboundMedia :=
  match packet.control, packet.speakerId with
  | none, some speaker => some {
      speakerId := speaker
      streamType := packet.streamType
      channelSeq := packet.channelSeq
      transportSeq := packet.transportSeq
      payload := packet.payload }
  | _, _ => none

theorem DecodedPacket.inboundMedia_seq {packet : DecodedPacket} {frame : InboundMedia}
    (h : packet.inboundMedia = some frame) : frame.transportSeq = packet.transportSeq := by
  unfold inboundMedia at h
  split at h
  · cases h
    rfl
  · cases h

namespace Inbox

/-- The inbox of a new session. -/
def new (status : VoiceStatus) : Inbox := ⟨.default, true, [], status⟩

/-- Close the media channel and publish a last status. -/
def finish (s : Inbox) (status : VoiceStatus) : Inbox :=
  { s with mediaOpen := false, status := status }

/-- Publish a frame while the media channel is open. -/
def publish (s : Inbox) (frame : InboundMedia) : Inbox :=
  if s.mediaOpen then { s with media := s.media ++ [frame] } else s

variable (crypto : Crypto K) (codec : PacketCodec K)

/-- Authenticate, replay-check and project one datagram. The flag says whether the
worker goes on. -/
def handleInbound (s : Inbox) (datagram : List UInt8) : Inbox × Bool :=
  match codec.decodeServer crypto datagram with
  | .error _ => (s, true)
  | .ok packet =>
      let (replay, accepted) := s.replay.accept packet.transportSeq
      let s := { s with replay := replay }
      if !accepted then (s, true)
      else
        match packet.control with
        | some .heartbeat => (s, true)
        | some (.revocation reason) => (s.finish (.revoked reason), false)
        | none =>
            match packet.speakerId with
            | none => (s, true)
            | some speaker =>
                (s.publish {
                  speakerId := speaker
                  streamType := packet.streamType
                  channelSeq := packet.channelSeq
                  transportSeq := packet.transportSeq
                  payload := packet.payload }, true)

/-- The inbox after a sequence of datagrams. -/
def receive (s : Inbox) (datagrams : List (List UInt8)) : Inbox :=
  datagrams.foldl (fun s datagram => (s.handleInbound crypto codec datagram).1) s

/-- The packet of a datagram that is authentic and new. -/
def admits (s : Inbox) (datagram : List UInt8) : Option DecodedPacket :=
  match codec.decodeServer crypto datagram with
  | .error _ => none
  | .ok packet => if s.replay.wouldAccept packet.transportSeq then some packet else none

/-- Whether the codec accepts a datagram. -/
def accepted (datagram : List UInt8) : Bool := (codec.decodeServer crypto datagram).toBool

/-! ## One datagram -/

variable {crypto codec} {s : Inbox} {datagram : List UInt8} {packet : DecodedPacket}

theorem admits_eq_some (h : s.admits crypto codec datagram = some packet) :
    codec.decodeServer crypto datagram = .ok packet ∧
      s.replay.wouldAccept packet.transportSeq = true := by
  unfold admits at h
  split at h
  · cases h
  case h_2 decoded hdecode =>
    obtain ⟨hnew, hsome⟩ := Option.ite_none_right_eq_some.mp h
    cases hsome
    exact ⟨hdecode, hnew⟩

/-- A datagram that is not authentic or not new changes nothing. -/
theorem handleInbound_of_not_admitted (h : s.admits crypto codec datagram = none) :
    s.handleInbound crypto codec datagram = (s, true) := by
  unfold admits at h
  unfold handleInbound
  cases hdecode : codec.decodeServer crypto datagram with
  | error e => rfl
  | ok packet =>
      simp only [hdecode, ite_eq_right_iff, reduceCtorEq, imp_false,
        Bool.not_eq_true] at h
      rw [← ReplayWindow.accept_snd] at h
      simp [h, ReplayWindow.accept_of_rejected h]

/-- **What an admitted datagram does**: its sequence enters the window, its frame is
published if the channel is open, and only a revocation changes the rest. -/
theorem handleInbound_of_admitted (h : s.admits crypto codec datagram = some packet) :
    (s.handleInbound crypto codec datagram).1.replay =
        (s.replay.accept packet.transportSeq).1 ∧
      (s.handleInbound crypto codec datagram).1.media =
        s.media ++ (if s.mediaOpen then packet.inboundMedia.toList else []) ∧
      (s.handleInbound crypto codec datagram).1.mediaOpen =
        (s.mediaOpen && (s.handleInbound crypto codec datagram).2) ∧
      ((s.handleInbound crypto codec datagram).2 = false ↔
        ∃ reason, packet.control = some (.revocation reason)) := by
  obtain ⟨hdecode, hnew⟩ := admits_eq_some h
  rw [← ReplayWindow.accept_snd] at hnew
  unfold handleInbound DecodedPacket.inboundMedia
  simp only [hdecode, hnew, Bool.not_true, Bool.false_eq_true, if_false]
  cases packet.control with
  | some control => cases control <;> simp [finish]
  | none =>
      cases packet.speakerId with
      | none => simp
      | some speaker => cases hopen : s.mediaOpen <;> simp [publish]

/-- A datagram the codec rejects changes nothing. -/
theorem handleInbound_of_rejected (h : accepted crypto codec datagram = false) :
    s.handleInbound crypto codec datagram = (s, true) := by
  apply handleInbound_of_not_admitted
  unfold accepted at h
  unfold admits
  cases hdecode : codec.decodeServer crypto datagram with
  | error e => rfl
  | ok packet => simp [hdecode, Except.toBool] at h

/-! ## Sequences of datagrams -/

@[simp] theorem receive_nil (s : Inbox) : s.receive crypto codec [] = s := rfl

@[simp] theorem receive_cons (s : Inbox) (datagram : List UInt8)
    (datagrams : List (List UInt8)) :
    s.receive crypto codec (datagram :: datagrams) =
      (s.handleInbound crypto codec datagram).1.receive crypto codec datagrams := rfl

/-- The frames an inbox published have sequences of the set its window stands for,
each at most once. -/
structure Delivered (s : Inbox) (seen : List ℕ) : Prop where
  window : s.replay.Represents seen
  admitted : ∀ frame ∈ s.media, frame.transportSeq ∈ seen
  once : (s.media.map InboundMedia.transportSeq).Nodup

theorem delivered_new (status : VoiceStatus) : Delivered (new status) [] where
  window := ReplayWindow.represents_default
  admitted frame h := by cases h
  once := List.nodup_nil

variable (crypto codec) in
/-- One datagram keeps deliveries distinct: the frame it publishes has a sequence
that was not in the set before. -/
theorem Delivered.handleInbound {seen : List ℕ} (D : Delivered s seen)
    (datagram : List UInt8) :
    ∃ seen', Delivered (s.handleInbound crypto codec datagram).1 seen' := by
  cases h : s.admits crypto codec datagram with
  | none =>
      refine ⟨seen, ?_⟩
      rw [handleInbound_of_not_admitted h]
      exact D
  | some packet =>
      obtain ⟨hreplay, hmedia, -, -⟩ := handleInbound_of_admitted h
      have hnew := (admits_eq_some h).2
      have hfresh : packet.transportSeq ∉ seen := ((D.window.wouldAccept_iff _).mp hnew).2.1
      have hframe : ∀ frame ∈ (if s.mediaOpen then packet.inboundMedia.toList else []),
          frame.transportSeq = packet.transportSeq := by
        intro frame hmem
        split at hmem
        · exact packet.inboundMedia_seq (by simpa using hmem)
        · cases hmem
      refine ⟨packet.transportSeq :: seen, ?_, ?_, ?_⟩
      · rw [hreplay]
        exact D.window.accept hnew
      · intro frame hmem
        rw [hmedia] at hmem
        rcases List.mem_append.mp hmem with hold | hadded
        · exact List.mem_cons_of_mem _ (D.admitted frame hold)
        · rw [hframe frame hadded]
          exact List.mem_cons_self
      · rw [hmedia, List.map_append]
        refine List.nodup_append'.mpr ⟨D.once, ?_, ?_⟩
        · split
          · cases packet.inboundMedia <;> simp
          · exact List.nodup_nil
        · intro sequence hold hadded
          obtain ⟨frame, hmem, rfl⟩ := List.mem_map.mp hold
          obtain ⟨added, hmem', heq⟩ := List.mem_map.mp hadded
          rw [hframe added hmem'] at heq
          exact hfresh (heq ▸ D.admitted frame hmem)

variable (crypto codec) in
theorem Delivered.receive {seen : List ℕ} (D : Delivered s seen)
    (datagrams : List (List UInt8)) :
    ∃ seen', Delivered (s.receive crypto codec datagrams) seen' := by
  induction datagrams generalizing s seen with
  | nil => exact ⟨seen, D⟩
  | cons datagram datagrams ih =>
      obtain ⟨seen', D'⟩ := D.handleInbound crypto codec datagram
      exact ih D'

/-- A published frame was there before or is the frame of a received datagram. -/
theorem mem_media_receive (datagrams : List (List UInt8)) {frame : InboundMedia}
    (h : frame ∈ (s.receive crypto codec datagrams).media) :
    frame ∈ s.media ∨ ∃ datagram ∈ datagrams, ∃ packet,
      codec.decodeServer crypto datagram = .ok packet ∧ packet.inboundMedia = some frame := by
  induction datagrams generalizing s with
  | nil => exact .inl h
  | cons datagram datagrams ih =>
      rw [receive_cons] at h
      rcases ih h with hhere | ⟨later, hlater, hpacket⟩
      · cases hadmits : s.admits crypto codec datagram with
        | none =>
            rw [handleInbound_of_not_admitted hadmits] at hhere
            exact .inl hhere
        | some packet =>
            rw [(handleInbound_of_admitted hadmits).2.1] at hhere
            rcases List.mem_append.mp hhere with hold | hadded
            · exact .inl hold
            · refine .inr ⟨datagram, List.mem_cons_self, packet, (admits_eq_some hadmits).1, ?_⟩
              split at hadded
              · simpa using hadded
              · cases hadded
      · exact .inr ⟨later, List.mem_cons_of_mem _ hlater, hpacket⟩

/-- A closed media channel stays closed, and nothing more is published. -/
theorem handleInbound_of_closed (h : s.mediaOpen = false) (datagram : List UInt8) :
    (s.handleInbound crypto codec datagram).1.mediaOpen = false ∧
      (s.handleInbound crypto codec datagram).1.media = s.media := by
  cases hadmits : s.admits crypto codec datagram with
  | none =>
      rw [handleInbound_of_not_admitted hadmits]
      exact ⟨h, rfl⟩
  | some packet =>
      obtain ⟨-, hmedia, hopen, -⟩ := handleInbound_of_admitted hadmits
      rw [hmedia, hopen, h]
      simp

theorem media_receive_of_closed (h : s.mediaOpen = false) (datagrams : List (List UInt8)) :
    (s.receive crypto codec datagrams).media = s.media := by
  induction datagrams generalizing s with
  | nil => rfl
  | cons datagram datagrams ih =>
      rw [receive_cons]
      obtain ⟨hclosed, hmedia⟩ : (s.handleInbound crypto codec datagram).1.mediaOpen = false ∧
          (s.handleInbound crypto codec datagram).1.media = s.media :=
        handleInbound_of_closed h datagram
      exact (ih hclosed).trans hmedia

/-- Nothing is published from an admitted revocation on. -/
theorem media_receive_of_revocation {reason : RevocationReason}
    (h : s.admits crypto codec datagram = some packet)
    (hcontrol : packet.control = some (.revocation reason)) (datagrams : List (List UInt8)) :
    (s.receive crypto codec (datagram :: datagrams)).media = s.media := by
  obtain ⟨-, hmedia, hopen, hstops⟩ := handleInbound_of_admitted h
  have hframe : packet.inboundMedia = none := by
    simp [DecodedPacket.inboundMedia, hcontrol]
  have hclosed : (s.handleInbound crypto codec datagram).1.mediaOpen = false := by
    rw [hopen, hstops.mpr ⟨reason, hcontrol⟩, Bool.and_false]
  refine (media_receive_of_closed hclosed datagrams).trans ?_
  simp [hmedia, hframe]

/-- Rejected datagrams have no influence. -/
theorem receive_filter_accepted (s : Inbox) (datagrams : List (List UInt8)) :
    s.receive crypto codec (datagrams.filter (accepted crypto codec)) =
      s.receive crypto codec datagrams := by
  induction datagrams generalizing s with
  | nil => rfl
  | cons datagram datagrams ih =>
      cases h : accepted crypto codec datagram with
      | true =>
          rw [List.filter_cons_of_pos h, receive_cons, receive_cons]
          exact ih _
      | false =>
          rw [List.filter_cons_of_neg (by simp [h]), ih]
          rw [receive_cons, handleInbound_of_rejected h]

end Inbox

/-! ## The worker's turn -/

/-- The inbox of a worker. A worker that stopped has closed its media channel. -/
def Worker.inbox (w : Worker K) : Inbox := ⟨w.replay, !w.status.isTerminal, w.media, w.status⟩

/-- A running worker handles a datagram as its inbox does, and goes on unless it
stopped. -/
theorem Worker.inbox_handleInbound {crypto : Crypto K} {w : Worker K}
    (h : w.status.isTerminal = false) (datagram : List UInt8) :
    w.inbox.handleInbound crypto w.codec datagram =
      ((w.handleInbound crypto datagram).inbox,
        !(w.handleInbound crypto datagram).status.isTerminal) := by
  unfold Inbox.handleInbound Worker.handleInbound
  cases w.codec.decodeServer crypto datagram with
  | error e => simp [inbox, h]
  | ok packet =>
      cases hnew : (w.replay.accept packet.transportSeq).2 with
      | false =>
          have haccept : w.replay.accept packet.transportSeq = (w.replay, false) :=
            Prod.ext (ReplayWindow.accept_of_rejected hnew) hnew
          simp [inbox, haccept, h]
      | true =>
          obtain ⟨replay, haccept⟩ :
              ∃ replay, w.replay.accept packet.transportSeq = (replay, true) :=
            ⟨_, Prod.ext rfl hnew⟩
          rcases hcontrol : packet.control with _ | _ | reason
          · cases hspeaker : packet.speakerId <;>
              simp [inbox, haccept, hcontrol, hspeaker, Inbox.publish, h]
          · simp [inbox, haccept, hcontrol, h]
          · have hrevoked : (VoiceStatus.revoked reason).isTerminal = true := rfl
            simp [inbox, haccept, hcontrol, Inbox.finish, Worker.finish, hrevoked]

/-- **Inbound media is delivered at most once, and rejected datagrams have no
influence.** For every sequence of datagrams the published frames have distinct
transport sequences, each is the frame of a received datagram that the codec
accepts as media, nothing is published from an admitted revocation on, and the
media, the window and the status are those of the accepted datagrams alone. -/
theorem inbound_media_at_most_once (crypto : Crypto K) (codec : PacketCodec K)
    (status : VoiceStatus) (datagrams : List (List UInt8)) :
    (((Inbox.new status).receive crypto codec datagrams).media.map
      InboundMedia.transportSeq).Nodup ∧
    (∀ frame ∈ ((Inbox.new status).receive crypto codec datagrams).media,
      ∃ datagram ∈ datagrams, ∃ packet,
        codec.decodeServer crypto datagram = .ok packet ∧ packet.inboundMedia = some frame) ∧
    (∀ before datagram after packet reason, datagrams = before ++ datagram :: after →
      codec.decodeServer crypto datagram = .ok packet →
      (((Inbox.new status).receive crypto codec before).replay.accept
        packet.transportSeq).2 = true →
      packet.control = some (.revocation reason) →
      ((Inbox.new status).receive crypto codec datagrams).media =
        ((Inbox.new status).receive crypto codec before).media) ∧
    (Inbox.new status).receive crypto codec (datagrams.filter (Inbox.accepted crypto codec)) =
      (Inbox.new status).receive crypto codec datagrams := by
  refine ⟨?_, ?_, ?_, Inbox.receive_filter_accepted _ _⟩
  · obtain ⟨seen, D⟩ := (Inbox.delivered_new status).receive crypto codec datagrams
    exact D.once
  · intro frame hframe
    rcases Inbox.mem_media_receive datagrams hframe with hold | hreceived
    · cases hold
    · exact hreceived
  · rintro before datagram after packet reason rfl hdecode hnew hcontrol
    have hadmits : ((Inbox.new status).receive crypto codec before).admits crypto codec datagram =
        some packet := by
      rw [ReplayWindow.accept_snd] at hnew
      simp [Inbox.admits, hdecode, hnew]
    rw [Inbox.receive, List.foldl_append]
    exact Inbox.media_receive_of_revocation hadmits hcontrol after

/-- A frame, its repetition, a datagram that is no packet, a revocation and another
frame: one frame is published. -/
theorem inbound_media_at_most_once_sample :
    ∃ first revoking late, (sampleCodec.decodeServer taggedCrypto late).toBool = true ∧
      ((Inbox.new .active).receive taggedCrypto sampleCodec
        [first, first, [], revoking, late]).media =
        [⟨⟨5, by decide, by decide⟩, 1, 3, 9, [7, 8, 9]⟩] := by
  have hcodec : sampleCodec.Negotiated := PacketCodec.fromConfig_negotiated
    (show (PacketCodec.fromConfig taggedCrypto sampleVoiceConfig SessionKeyCache.new).2 =
      .ok sampleCodec from rfl)
  obtain ⟨first, -, hfirst⟩ := PacketCodec.decodeDirection_encodeBody taggedCrypto_roundTrips
    hcodec (by decide : 9 ≠ 0) (by decide) 1 3 [7, 8, 9] false (by decide : 5 < 2 ^ 64) (by decide)
  obtain ⟨revoking, -, hrevoking⟩ := PacketCodec.decodeDirection_encodeBody
    taggedCrypto_roundTrips hcodec (by decide : 10 ≠ 0) (by decide) HEARTBEAT_STREAM_TYPE 0 [2]
    false (by decide : 0 < 2 ^ 64) (by decide)
  obtain ⟨late, -, hlate⟩ := PacketCodec.decodeDirection_encodeBody taggedCrypto_roundTrips
    hcodec (by decide : 11 ≠ 0) (by decide) 1 4 [7] false (by decide : 5 < 2 ^ 64) (by decide)
  replace hfirst : sampleCodec.decodeServer taggedCrypto first = .ok ⟨sampleCodec.sessionId, 9, 1,
      3, 0, some ⟨5, by decide, by decide⟩, [7, 8, 9], none⟩ :=
    hfirst.trans (by decide)
  replace hrevoking : sampleCodec.decodeServer taggedCrypto revoking =
      .ok ⟨sampleCodec.sessionId, 10, HEARTBEAT_STREAM_TYPE, 0, 0, none, [2],
        some (.revocation .revoked)⟩ :=
    hrevoking.trans (by decide)
  replace hlate : (sampleCodec.decodeServer taggedCrypto late).toBool = true :=
    (congrArg Except.toBool hlate).trans (by decide)
  have hgarbage : sampleCodec.decodeServer taggedCrypto [] = .error .truncated := rfl
  have hbefore : (Inbox.new .active).receive taggedCrypto sampleCodec [first, first, []] =
      ⟨(ReplayWindow.default.accept 9).1, true,
        [⟨⟨5, by decide, by decide⟩, 1, 3, 9, [7, 8, 9]⟩], .active⟩ := by
    simp only [Inbox.receive_cons, Inbox.receive_nil, Inbox.handleInbound, hfirst, hgarbage]
    decide
  refine ⟨first, revoking, late, hlate, ?_⟩
  rw [(inbound_media_at_most_once taggedCrypto sampleCodec .active
    [first, first, [], revoking, late]).2.2.1 [first, first, []] revoking [late] _ .revoked rfl
    hrevoking (by rw [hbefore]; decide) rfl, hbefore]

end ZephyrVox.Voice
