import ZephyrVox.Lib.Window
import ZephyrVox.Voice.Outbound

/-!
# Media across the network

A session and the server at the other end of its socket. The server numbers what it
sends, from one; the network loses, repeats and reorders the datagrams as it likes,
and strangers send datagrams of their own. The worker meanwhile sends, beats and is
asked to stop in any interleaving.

What the session publishes is then told by the arrivals alone. If strangers cannot
write what the codec accepts, it is what the server sent, frame for frame, without
repetition and in the order of arrival, and a frame is missing only if its datagram
never arrived or arrived 128 or more behind another one.

## Main definitions

* `Sending`, `Sending.encode` — what a server sends on a session.
* `Downlink`, `Downlink.step` — the server, the network and the worker of a session.
* `Unforged` — strangers write nothing that the codec accepts.
* `media_delivered` — what a session publishes.
-/

namespace ZephyrVox.Voice

open Transition Window

variable {K : Type}

/-- How far behind the highest sequence a datagram is still admitted. -/
def replayWidth : ℕ := 128

/-! ## What the server sends -/

/-- What the server sends on a session. -/
inductive Sending
  | media (channelSeq : UInt16) (streamType : UInt8) (speakerId : Snowflake)
      (payload : List UInt8)
  | revocation (reason : RevocationReason)
  deriving DecidableEq, Repr

namespace Sending

/-- The datagram under a transport sequence. -/
def encode (crypto : Crypto K) (codec : PacketCodec K) (transportSeq : ℕ) :
    Sending → Except PacketError (List UInt8)
  | .media channelSeq streamType speakerId payload =>
      codec.encodeServerMedia crypto transportSeq channelSeq streamType speakerId payload
  | .revocation reason => codec.encodeRevocation crypto transportSeq reason

/-- The packet that a receiver reads. -/
def packet (codec : PacketCodec K) (transportSeq : ℕ) : Sending → DecodedPacket
  | .media channelSeq streamType speakerId payload =>
      ⟨codec.sessionId, transportSeq, streamType, channelSeq, 0, some speakerId, payload, none⟩
  | .revocation reason =>
      ⟨codec.sessionId, transportSeq, HEARTBEAT_STREAM_TYPE, 0, 0, none, [reason.asWire],
        some (.revocation (RevocationReason.fromWire reason.asWire))⟩

/-- The frame that a receiver publishes. -/
def frame (transportSeq : ℕ) : Sending → Option InboundMedia
  | .media channelSeq streamType speakerId payload =>
      some ⟨speakerId, streamType, channelSeq, transportSeq, payload⟩
  | .revocation _ => none

theorem inboundMedia_packet (codec : PacketCodec K) (transportSeq : ℕ) (sending : Sending) :
    (sending.packet codec transportSeq).inboundMedia = sending.frame transportSeq := by
  cases sending <;> rfl

theorem transportSeq_packet (codec : PacketCodec K) (transportSeq : ℕ) (sending : Sending) :
    (sending.packet codec transportSeq).transportSeq = transportSeq := by
  cases sending <;> rfl

theorem transportSeq_frame {transportSeq : ℕ} {sending : Sending} {media : InboundMedia}
    (h : sending.frame transportSeq = some media) : media.transportSeq = transportSeq := by
  cases sending with
  | media => cases h; rfl
  | revocation => cases h

variable {crypto : Crypto K} {codec : PacketCodec K} {transportSeq : ℕ}

/-- **What the server sends, the session reads.** -/
theorem decodeServer_encode (hcrypto : crypto.RoundTrips) (hcodec : codec.Negotiated)
    (hseq : transportSeq ≠ 0) (hwide : transportSeq < 2 ^ 64) {sending : Sending}
    {datagram : List UInt8} (h : sending.encode crypto codec transportSeq = .ok datagram) :
    codec.decodeServer crypto datagram = .ok (sending.packet codec transportSeq) := by
  cases sending with
  | media channelSeq streamType speakerId payload =>
      obtain ⟨hvalid, hbody⟩ : codec.validateMedia streamType payload.length = .ok () ∧
          codec.encodeBody crypto transportSeq streamType channelSeq speakerId.get payload false =
            .ok datagram := by
        rw [encode, PacketCodec.encodeServerMedia] at h
        cases hvalid : codec.validateMedia streamType payload.length with
        | error e => simp [hvalid, bind, Except.bind] at h
        | ok _ => exact ⟨rfl, by simpa [hvalid, bind, Except.bind] using h⟩
      obtain ⟨hstream, hpayload⟩ : codec.allowedStreamTypes streamType = true ∧
          payload.length ≤ codec.maxPayload := by
        unfold PacketCodec.validateMedia at hvalid
        split at hvalid
        · cases hvalid
        · split at hvalid
          · cases hvalid
          · split at hvalid
            · cases hvalid
            case isFalse _ hkind hlength =>
              simp only [Bool.or_eq_true, Bool.not_eq_true', not_or, Bool.not_eq_false] at hkind
              exact ⟨hkind.2, Nat.not_lt.mp hlength⟩
      have hspeaker : speakerId.get < 2 ^ 64 := by
        have := speakerId.le_max
        simp only [maxSnowflake] at this
        omega
      obtain ⟨datagram', hencode, hdecode⟩ := PacketCodec.decodeDirection_encodeBody hcrypto hcodec
        hseq hwide streamType channelSeq payload false hspeaker
        (Nat.le_trans hpayload hcodec.payload_le)
      rw [hbody] at hencode
      cases hencode
      exact hdecode.trans (hcodec.judge_server hstream hpayload)
  | revocation reason =>
      have hone : 1 ≤ Voice.maxPayload codec.encrypted := by
        cases codec.encrypted <;> decide
      obtain ⟨datagram', hencode, hdecode⟩ := PacketCodec.decodeDirection_encodeBody hcrypto hcodec
        hseq hwide HEARTBEAT_STREAM_TYPE 0 [reason.asWire] false (by decide : 0 < 2 ^ 64) hone
      rw [encode, PacketCodec.encodeRevocation, hencode] at h
      cases h
      refine hdecode.trans ?_
      simp [PacketCodec.judgeFields, packet]

end Sending

/-! ## The server, the network and the worker -/

/-- A session with what its server sent. -/
structure Downlink (K : Type) where
  session : Sender K
  /-- What the server sent, with its datagrams; the first one has the sequence one. -/
  sent : List (Sending × List UInt8)
  /-- The sequences of the server's datagrams that the worker took from its socket,
  oldest first. -/
  arrivals : List ℕ

/-- A step of the server, of the network or of the session. -/
inductive DownlinkAction
  /-- The server sends something. -/
  | serve (sending : Sending)
  /-- The worker takes a copy of the server's datagram at `index` from its socket. -/
  | deliver (index : ℕ)
  /-- Anything else that happens to the worker. A datagram it takes is a stranger's. -/
  | work (action : SenderAction)

/-- Strangers write nothing that the codec accepts. -/
def Unforged (crypto : Crypto K) (codec : PacketCodec K) (action : DownlinkAction) : Prop :=
  ∀ datagram, action = .work (.inbound datagram) →
    ∃ e, codec.decodeServer crypto datagram = .error e

namespace Downlink

/-- A new session and a server that has sent nothing. -/
def new (codec : PacketCodec K) : Downlink K := ⟨.new codec, [], []⟩

variable (crypto : Crypto K) (codec : PacketCodec K)

/-- One step. The server's datagrams stay in the network, for further copies. -/
def step (d : Downlink K) : DownlinkAction → Option (Downlink K)
  | .serve sending =>
      if d.sent.length + 1 < 2 ^ 64 then
        match sending.encode crypto codec (d.sent.length + 1) with
        | .error _ => none
        | .ok datagram => some { d with sent := d.sent ++ [(sending, datagram)] }
      else none
  | .deliver index =>
      d.sent[index]?.bind fun entry =>
        (d.session.step crypto (.inbound entry.2)).map fun session =>
          { d with session := session, arrivals := d.arrivals ++ [index + 1] }
  | .work action =>
      (d.session.step crypto action).map fun session => { d with session := session }

/-- The frame of what the server sent under a sequence. -/
def frame (d : Downlink K) (transportSeq : ℕ) : Option InboundMedia :=
  d.sent[transportSeq - 1]?.bind fun entry => entry.1.frame transportSeq

end Downlink

/-! ## What a step does to what datagrams change -/

/-- The codec, the window and the media of a worker are kept. -/
structure Worker.Unheard (w w' : Worker K) : Prop where
  codec : w'.codec = w.codec
  replay : w'.replay = w.replay
  media : w'.media = w.media

namespace Worker

variable {crypto : Crypto K} {w w' : Worker K}

theorem Unheard.rfl : Unheard w w := ⟨Eq.refl _, Eq.refl _, Eq.refl _⟩

theorem Unheard.finish (h : Unheard w w') (status : VoiceStatus) : Unheard w (w'.finish status) :=
  ⟨h.codec, h.replay, h.media⟩

theorem Unheard.of_reserves {result : Worker K × Except VoiceError Outgoing}
    (h : Reserves crypto w result) : Unheard w result.1 := by
  rcases h with ⟨hsame, -⟩ | ⟨-, hnext, -⟩
  · rw [hsame]
    exact .rfl
  · rw [hnext]
    exact ⟨Eq.refl _, Eq.refl _, Eq.refl _⟩

theorem unheard_wrote (packet : Outgoing) : Unheard w (w.wrote packet) := by
  unfold wrote
  split <;> exact ⟨Eq.refl _, Eq.refl _, Eq.refl _⟩

theorem unheard_requestTermination (termination : Termination) :
    Unheard w (w.requestTermination termination) := by
  unfold requestTermination
  split <;> exact ⟨Eq.refl _, Eq.refl _, Eq.refl _⟩

/-- A datagram that the codec rejects is not heard. -/
theorem unheard_of_error {datagram : List UInt8} {e : PacketError}
    (h : w.codec.decodeServer crypto datagram = .error e) :
    Unheard w (w.handleInbound crypto datagram) := by
  simp only [handleInbound, h]
  exact .rfl

/-- **What an authentic datagram does**: the window judges its sequence, and its frame
is published if the window admits it. -/
theorem handleInbound_of_packet {datagram : List UInt8} {packet : DecodedPacket}
    (h : w.codec.decodeServer crypto datagram = .ok packet) :
    (w.handleInbound crypto datagram).replay = (w.replay.accept packet.transportSeq).1 ∧
      (w.handleInbound crypto datagram).media = w.media ++
        (if w.replay.wouldAccept packet.transportSeq then packet.inboundMedia.toList else []) := by
  cases hnew : w.replay.wouldAccept packet.transportSeq with
  | false =>
      rw [← ReplayWindow.accept_snd] at hnew
      have haccept : w.replay.accept packet.transportSeq = (w.replay, false) :=
        Prod.ext (ReplayWindow.accept_of_rejected hnew) hnew
      simp [handleInbound, h, haccept]
  | true =>
      rw [← ReplayWindow.accept_snd] at hnew
      obtain ⟨replay, haccept⟩ : ∃ replay, w.replay.accept packet.transportSeq = (replay, true) :=
        ⟨_, Prod.ext (Eq.refl _) hnew⟩
      rcases hcontrol : packet.control with _ | _ | reason
      · cases hspeaker : packet.speakerId <;>
          simp [handleInbound, h, haccept, hcontrol, hspeaker, DecodedPacket.inboundMedia]
      · simp [handleInbound, h, haccept, hcontrol, DecodedPacket.inboundMedia]
      · simp [handleInbound, h, haccept, hcontrol, DecodedPacket.inboundMedia, Worker.finish]

end Worker

namespace Sender

variable {crypto : Crypto K} {s t : Sender K} {action : SenderAction}

theorem step_inbound {datagram : List UInt8} (h : s.step crypto (.inbound datagram) = some t) :
    t.worker = s.worker.handleInbound crypto datagram := by
  cases hphase : s.phase with
  | ready =>
      simp only [step, hphase, Option.some.injEq] at h
      rw [← h]
      rfl
  | unstarted | writing | returned => simp [step, hphase] at h

theorem unheard_awaitWrite {result : Worker K × Except VoiceError Outgoing}
    (h : Reserves crypto s.worker result) (initial : Bool) (fatal : VoiceError → Bool) :
    s.worker.Unheard (s.awaitWrite initial fatal result).worker := by
  have hresult := Worker.Unheard.of_reserves h
  obtain ⟨w, e | packet⟩ := result
  · simp only [awaitWrite, fail]
    split
    · cases initial
      · exact hresult.finish _
      · exact ⟨hresult.codec, hresult.replay, hresult.media⟩
    · exact hresult
  · exact hresult

theorem unheard_fail (initial : Bool) (error : VoiceError) :
    s.worker.Unheard (s.fail initial error).worker := by
  cases initial <;> exact ⟨rfl, rfl, rfl⟩

theorem unheard_unlessStopped {next : Sender K} (h : s.worker.Unheard next.worker) :
    s.worker.Unheard (s.unlessStopped next).worker := by
  unfold unlessStopped
  split
  · exact Worker.Unheard.rfl.finish _
  · exact h

theorem unheard_of_stop (h : (s.worker.termination.map fun t => s.finish t.status) = some t) :
    s.worker.Unheard t.worker := by
  obtain ⟨termination, -, rfl⟩ := Option.map_eq_some_iff.mp h
  exact Worker.Unheard.rfl.finish _

/-- **Only datagrams are heard.** -/
theorem step_unheard (h : s.step crypto action = some t)
    (hother : ∀ datagram, action ≠ .inbound datagram) : s.worker.Unheard t.worker := by
  unfold step at h
  split at h
  case h_1 => cases h; exact unheard_awaitWrite s.worker.prepareHeartbeat_reserves _ _
  case h_2 => cases h; exact .rfl
  case h_3 =>
    cases h
    exact unheard_unlessStopped (unheard_awaitWrite s.worker.prepareHeartbeat_reserves _ _)
  case h_4 streamType payload _ =>
    cases h
    exact unheard_unlessStopped
      (unheard_awaitWrite (s.worker.prepareMedia_reserves streamType payload) _ _)
  case h_5 => exact unheard_of_stop h
  case h_6 datagram _ => exact absurd rfl (hother datagram)
  case h_7 | h_8 => cases h; exact Worker.Unheard.rfl.finish _
  case h_9 initial packet _ =>
    cases h
    have hwrote := Worker.unheard_wrote (w := s.worker) packet
    cases initial
    · exact hwrote
    · exact ⟨hwrote.codec, hwrote.replay, hwrote.media⟩
  case h_10 => cases h; exact unheard_fail _ _
  case h_11 => exact unheard_of_stop h
  case h_14 => cases h; exact Worker.unheard_requestTermination _
  case h_16 => cases h; exact .rfl
  all_goals cases h

end Sender

/-! ## Whole runs -/

/-- The highest of some sequences, against a bound. -/
theorem ReplayWindow.highest_lt_iff {seen : List ℕ} {bound : ℕ} (hpos : 0 < bound) :
    ReplayWindow.highest seen < bound ↔ ∀ m ∈ seen, m < bound := by
  induction seen with
  | nil => simpa [ReplayWindow.highest] using hpos
  | cons m seen ih =>
      rw [List.forall_mem_cons, ← ih]
      exact Nat.max_lt

/-- A window takes what the specification of its width takes. -/
theorem ReplayWindow.Represents.wouldAccept_iff_admits {w : ReplayWindow} {seen : List ℕ}
    (R : w.Represents seen.reverse) {sequence : ℕ} (hseq : sequence ≠ 0) :
    w.wouldAccept sequence = true ↔ Admits replayWidth seen sequence := by
  have hhighest : (ReplayWindow.highest seen.reverse : ℤ) - 128 < sequence ↔
      ReplayWindow.highest seen.reverse < sequence + replayWidth := by
    unfold replayWidth
    omega
  rw [R.wouldAccept_iff, hhighest, ReplayWindow.highest_lt_iff (Nat.lt_add_right _ (by omega))]
  simp [Admits, hseq]

namespace Downlink

variable {crypto : Crypto K} {codec : PacketCodec K} {d d' : Downlink K}
  {action : DownlinkAction}

/-- The session is where the server's datagrams that it took lead it. -/
structure Delivers (crypto : Crypto K) (codec : PacketCodec K) (d : Downlink K) : Prop where
  codec_eq : d.session.worker.codec = codec
  encoded : ∀ index sending datagram, d.sent[index]? = some (sending, datagram) →
    index + 1 < 2 ^ 64 ∧ sending.encode crypto codec (index + 1) = .ok datagram
  arrived : ∀ transportSeq ∈ d.arrivals, transportSeq ≠ 0 ∧ transportSeq ≤ d.sent.length
  window : d.session.worker.replay.Represents (admitted replayWidth d.arrivals).reverse
  published : d.session.worker.media = (admitted replayWidth d.arrivals).filterMap d.frame

theorem delivers_new (codec : PacketCodec K) : (new codec).Delivers crypto codec where
  codec_eq := rfl
  encoded index sending datagram h := by simp [new] at h
  arrived transportSeq h := by cases h
  window := ReplayWindow.represents_default
  published := rfl

/-- What the worker did not hear makes no difference. -/
theorem Delivers.work (D : d.Delivers crypto codec) {session : Sender K}
    (h : d.session.worker.Unheard session.worker) :
    Delivers crypto codec { d with session := session } where
  codec_eq := h.codec.trans D.codec_eq
  encoded := D.encoded
  arrived := D.arrived
  window := by
    rw [h.replay]
    exact D.window
  published := h.media.trans D.published

/-- What the server sends later does not change the frames before it. -/
theorem Delivers.serve (D : d.Delivers crypto codec) {sending : Sending} {datagram : List UInt8}
    (hwide : d.sent.length + 1 < 2 ^ 64)
    (h : sending.encode crypto codec (d.sent.length + 1) = .ok datagram) :
    Delivers crypto codec { d with sent := d.sent ++ [(sending, datagram)] } where
  codec_eq := D.codec_eq
  encoded index sending' datagram' hindex := by
    simp only [List.getElem?_append] at hindex
    split at hindex
    · exact D.encoded index sending' datagram' hindex
    case isFalse hlast =>
      obtain ⟨hzero, heq⟩ := List.getElem?_eq_some_iff.mp hindex
      have hindex' : index = d.sent.length := by
        simp only [List.length_singleton] at hzero
        omega
      subst hindex'
      simp only [Nat.sub_self, List.getElem_cons_zero, Prod.mk.injEq] at heq
      rw [← heq.1, ← heq.2]
      exact ⟨hwide, h⟩
  arrived transportSeq hmem := by
    obtain ⟨hseq, hle⟩ := D.arrived transportSeq hmem
    exact ⟨hseq, hle.trans (by simp)⟩
  window := D.window
  published := by
    refine D.published.trans (List.filterMap_congr fun transportSeq hmem => ?_)
    obtain ⟨hseq, hle⟩ := D.arrived transportSeq ((admitted_sublist _).subset hmem)
    have hbefore : transportSeq - 1 < d.sent.length := by omega
    simp only [frame, List.getElem?_append_left hbefore]

/-- A copy of what the server sent is published if the window admits its sequence. -/
theorem Delivers.deliver (hcrypto : crypto.RoundTrips) (hcodec : codec.Negotiated)
    (D : d.Delivers crypto codec) {index : ℕ} {entry : Sending × List UInt8} {session : Sender K}
    (hentry : d.sent[index]? = some entry)
    (hsession : d.session.step crypto (.inbound entry.2) = some session) :
    Delivers crypto codec
      { d with session := session, arrivals := d.arrivals ++ [index + 1] } := by
  obtain ⟨hwide, hencode⟩ := D.encoded index entry.1 entry.2 hentry
  have hdecode := Sending.decodeServer_encode hcrypto hcodec (Nat.succ_ne_zero index) hwide hencode
  have hworker := Sender.step_inbound hsession
  obtain ⟨hreplay, hmedia⟩ := Worker.handleInbound_of_packet (w := d.session.worker)
    (by rw [D.codec_eq]; exact hdecode)
  rw [Sending.transportSeq_packet] at hreplay hmedia
  rw [Sending.inboundMedia_packet] at hmedia
  have hadmits := D.window.wouldAccept_iff_admits (Nat.succ_ne_zero index)
  have hframe : d.frame (index + 1) = entry.1.frame (index + 1) := by
    simp [frame, hentry]
  refine ⟨?_, D.encoded, ?_, ?_, ?_⟩
  · rw [hworker, (Worker.handleInbound_advances _).1]
    exact D.codec_eq
  · intro transportSeq hmem
    rcases List.mem_append.mp hmem with hold | hnew
    · exact D.arrived transportSeq hold
    · rw [List.mem_singleton.mp hnew]
      exact ⟨Nat.succ_ne_zero index, (List.getElem?_eq_some_iff.mp hentry).1⟩
  · rw [hworker, hreplay]
    by_cases h : Admits replayWidth (admitted replayWidth d.arrivals) (index + 1)
    · rw [admitted_snoc_of_admits h, List.reverse_append]
      exact D.window.accept (hadmits.mpr h)
    · have hrejected : (d.session.worker.replay.accept (index + 1)).2 = false := by
        rw [ReplayWindow.accept_snd]
        exact Bool.eq_false_iff.mpr fun hnew => h (hadmits.mp hnew)
      rw [admitted_snoc_of_not h, ReplayWindow.accept_of_rejected hrejected]
      exact D.window
  · change session.worker.media = (admitted replayWidth (d.arrivals ++ [index + 1])).filterMap
      d.frame
    rw [hworker, hmedia, D.published]
    by_cases h : Admits replayWidth (admitted replayWidth d.arrivals) (index + 1)
    · rw [admitted_snoc_of_admits h, List.filterMap_append, if_pos (hadmits.mpr h)]
      cases hsome : entry.1.frame (index + 1) <;> simp [hframe, hsome]
    · rw [admitted_snoc_of_not h, if_neg fun hnew => h (hadmits.mp hnew), List.append_nil]

/-- **One step keeps what was delivered.** -/
theorem Delivers.step (hcrypto : crypto.RoundTrips) (hcodec : codec.Negotiated)
    (D : d.Delivers crypto codec) (hunforged : Unforged crypto codec action)
    (h : d.step crypto codec action = some d') : d'.Delivers crypto codec := by
  cases action with
  | serve sending =>
      simp only [Downlink.step] at h
      split at h
      case isTrue hwide =>
        split at h
        · cases h
        case h_2 datagram hencode =>
          cases h
          exact D.serve hwide hencode
      case isFalse => cases h
  | deliver index =>
      obtain ⟨entry, hentry, hmap⟩ := Option.bind_eq_some_iff.mp h
      obtain ⟨session, hsession, rfl⟩ := Option.map_eq_some_iff.mp hmap
      exact D.deliver hcrypto hcodec hentry hsession
  | work action =>
      obtain ⟨session, hsession, rfl⟩ := Option.map_eq_some_iff.mp h
      refine D.work ?_
      by_cases hinbound : ∃ datagram, action = .inbound datagram
      · obtain ⟨datagram, rfl⟩ := hinbound
        obtain ⟨e, he⟩ := hunforged datagram rfl
        rw [Sender.step_inbound hsession]
        exact Worker.unheard_of_error (by rw [D.codec_eq]; exact he)
      · exact Sender.step_unheard hsession fun datagram heq => hinbound ⟨datagram, heq⟩

theorem Delivers.exec (hcrypto : crypto.RoundTrips) (hcodec : codec.Negotiated)
    (D : d.Delivers crypto codec) {actions : List DownlinkAction}
    (hunforged : ∀ action ∈ actions, Unforged crypto codec action)
    (h : Transition.exec (Downlink.step crypto codec) d actions = some d') :
    d'.Delivers crypto codec := by
  induction actions generalizing d with
  | nil => cases h; exact D
  | cons action actions ih =>
      obtain ⟨next, hnext, hrest⟩ := Option.bind_eq_some_iff.mp h
      have hfirst := D.step hcrypto hcodec (hunforged action List.mem_cons_self) hnext
      exact ih hfirst (fun a ha => hunforged a (List.mem_cons_of_mem _ ha)) hrest

/-- A frame carries the sequence it was sent under. -/
theorem transportSeq_of_frame {transportSeq : ℕ} {media : InboundMedia}
    (h : d.frame transportSeq = some media) : media.transportSeq = transportSeq := by
  obtain ⟨entry, -, hframe⟩ := Option.bind_eq_some_iff.mp h
  exact Sending.transportSeq_frame hframe

theorem map_transportSeq_sublist (d : Downlink K) (sequences : List ℕ) :
    ((sequences.filterMap d.frame).map InboundMedia.transportSeq).Sublist sequences := by
  induction sequences with
  | nil => exact List.Sublist.refl _
  | cons sequence sequences ih =>
      cases hframe : d.frame sequence with
      | none =>
          rw [List.filterMap_cons_none hframe]
          exact ih.cons sequence
      | some media =>
          rw [List.filterMap_cons_some hframe, List.map_cons, transportSeq_of_frame hframe]
          exact ih.cons_cons sequence

/-- What the server sent is published exactly if its sequence was admitted. -/
theorem Delivers.mem_media_iff (D : d.Delivers crypto codec) {index : ℕ} {sending : Sending}
    {datagram : List UInt8} {media : InboundMedia}
    (hsent : d.sent[index]? = some (sending, datagram))
    (hframe : sending.frame (index + 1) = some media) :
    media ∈ d.session.worker.media ↔ index + 1 ∈ admitted replayWidth d.arrivals := by
  have hthis : d.frame (index + 1) = some media := by simp [frame, hsent, hframe]
  rw [D.published, List.mem_filterMap]
  constructor
  · rintro ⟨sequence, hmem, hother⟩
    have hsame : sequence = index + 1 :=
      (transportSeq_of_frame hother).symm.trans (transportSeq_of_frame hthis)
    rw [← hsame]
    exact hmem
  · exact fun hmem => ⟨index + 1, hmem, hthis⟩

end Downlink

/-- **What a session publishes.** The server numbers what it sends; the network loses,
repeats and reorders it; strangers write nothing the codec accepts; and the worker
sends, beats and stops in any interleaving with this. Then the session publishes
exactly the frames of the datagrams it took first and in time, each as the server sent
it, none twice, in the order of their arrival; and all that arrived, if nothing arrived
128 or more behind. -/
theorem media_delivered (crypto : Crypto K) (hcrypto : crypto.RoundTrips)
    (config : VoiceSessionConfig) (cache : SessionKeyCache) (codec : PacketCodec K)
    (hconfig : (PacketCodec.fromConfig crypto config cache).2 = .ok codec)
    (actions : List DownlinkAction)
    (hunforged : ∀ action ∈ actions, Unforged crypto codec action) (d : Downlink K)
    (hd : exec (Downlink.step crypto codec) (Downlink.new codec) actions = some d) :
    (∀ media ∈ d.session.worker.media, ∃ index, ∃ sending : Sending, ∃ datagram,
      d.sent[index]? = some (sending, datagram) ∧ sending.frame (index + 1) = some media) ∧
    (d.session.worker.media.map InboundMedia.transportSeq).Nodup ∧
    (d.session.worker.media.map InboundMedia.transportSeq).Sublist d.arrivals ∧
    ∀ index (sending : Sending) datagram media, d.sent[index]? = some (sending, datagram) →
      sending.frame (index + 1) = some media →
      (media ∈ d.session.worker.media ↔ ∃ before after,
        d.arrivals = before ++ (index + 1) :: after ∧
          Admits replayWidth before (index + 1)) ∧
      (Timely replayWidth d.arrivals →
        (media ∈ d.session.worker.media ↔ index + 1 ∈ d.arrivals)) := by
  have D : d.Delivers crypto codec := (Downlink.delivers_new codec).exec hcrypto
    (PacketCodec.fromConfig_negotiated hconfig) hunforged hd
  have hsequences : (d.session.worker.media.map InboundMedia.transportSeq).Sublist
      (admitted replayWidth d.arrivals) := by
    rw [D.published]
    exact d.map_transportSeq_sublist _
  refine ⟨?_, (nodup_admitted _).sublist hsequences,
    hsequences.trans (admitted_sublist _), ?_⟩
  · intro media hmedia
    rw [D.published] at hmedia
    obtain ⟨sequence, hmem, hframe⟩ := List.mem_filterMap.mp hmedia
    obtain ⟨hseq, -⟩ := D.arrived sequence ((admitted_sublist _).subset hmem)
    obtain ⟨⟨sending, datagram⟩, hsent, hframe⟩ := Option.bind_eq_some_iff.mp hframe
    refine ⟨sequence - 1, sending, datagram, hsent, ?_⟩
    rw [Nat.sub_add_cancel (Nat.one_le_iff_ne_zero.mpr hseq)]
    exact hframe
  · intro index sending datagram media hsent hframe
    have hadmitted := D.mem_media_iff hsent hframe
    refine ⟨hadmitted.trans mem_admitted_iff, fun htimely => hadmitted.trans ⟨?_, ?_⟩⟩
    · exact fun hmem => (admitted_sublist _).subset hmem
    · exact mem_admitted_of_timely htimely

/-- A frame of the sample session. -/
def sampleSending : Sending := .media 3 1 ⟨5, by decide, by decide⟩ [7, 8, 9]

/-- Two frames that swap places on their way; a stranger sends what is no packet, the
worker sends a frame of its own, and a copy comes late. -/
def swappedSendings : List DownlinkAction :=
  [.work .start, .work (.complete (.ok ())), .serve sampleSending, .serve sampleSending,
    .deliver 1, .work (.inbound []), .deliver 0, .work (.send 1 [7]),
    .work (.complete (.ok ())), .deliver 1]

theorem media_delivered_swapped :
    ∃ d, exec (Downlink.step taggedCrypto sampleCodec) (Downlink.new sampleCodec)
        swappedSendings = some d ∧ d.arrivals = [2, 1, 2] ∧
      ⟨⟨5, by decide, by decide⟩, 1, 3, 1, [7, 8, 9]⟩ ∈ d.session.worker.media := by
  have hrun : ((exec (Downlink.step taggedCrypto sampleCodec) (Downlink.new sampleCodec)
      swappedSendings).any fun d =>
        decide (d.arrivals = [2, 1, 2] ∧ (d.sent.map Prod.fst)[0]? = some sampleSending)) =
      true := by
    decide +kernel
  obtain ⟨d, hd, hresult⟩ := (Option.any_eq_true _ _).mp hrun
  obtain ⟨harrivals, hsent⟩ := of_decide_eq_true hresult
  rw [List.getElem?_map, Option.map_eq_some_iff] at hsent
  obtain ⟨⟨sending, datagram⟩, hsent, rfl⟩ := hsent
  have hunforged : ∀ action ∈ swappedSendings, Unforged taggedCrypto sampleCodec action := by
    intro action hmem datagram heq
    subst heq
    simp only [swappedSendings, List.mem_cons, reduceCtorEq, DownlinkAction.work.injEq,
      SenderAction.inbound.injEq, false_or, or_false, List.not_mem_nil] at hmem
    subst hmem
    exact ⟨.truncated, rfl⟩
  have hdelivered := (media_delivered taggedCrypto taggedCrypto_roundTrips sampleVoiceConfig
    SessionKeyCache.new sampleCodec rfl swappedSendings hunforged d hd).2.2.2 0 _ datagram _
    hsent rfl
  refine ⟨d, hd, harrivals, (hdelivered.2 ?_).mpr ?_⟩
  · rw [harrivals]
    simp [Timely, replayWidth]
  · simp [harrivals]

end ZephyrVox.Voice
