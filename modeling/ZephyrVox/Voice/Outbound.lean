import ZephyrVox.Lib.Transition
import ZephyrVox.Voice.Inbound

/-!
# Sent datagrams

The worker seen from its socket. A send reserves a transport sequence, encodes,
and then awaits the UDP write; the await ends with a written datagram, with a
socket error, or with a stop request that drops the write. The turns of `Worker`
take a send and its write in one step; here they are two, with any other task of
the session in between.

A write that is dropped leaves no datagram. The deadline of the heartbeat is not
modelled: whether it has passed is an input of the tick.

## Main definitions

* `Outgoing` — a datagram with the sequences it carries.
* `Worker.prepareHeartbeat`, `Worker.prepareMedia` — a send up to its UDP write.
* `Sender K` — a worker, the write it awaits, and what it has written.
* `Sender.step` — one step of the worker, or of a task that asks it to stop.
* `Sequenced` — the invariant of the two kinds of counters.
* `outbound_sequencing` — the sequences of everything a worker writes.
* `Outgoing.SealedUnder` — a datagram whose body is sealed; with a codec that is
  `KeyedBy` a session key, all are.
-/

namespace ZephyrVox.Voice

open Bytes

variable {K : Type}

/-- A datagram for the socket, with its transport sequence and, for media, the
stream type and the channel sequence. -/
structure Outgoing where
  transportSeq : ℕ
  media : Option (UInt8 × UInt16)
  datagram : List UInt8
  deriving DecidableEq, Repr

namespace Worker

variable (crypto : Crypto K)

/-- A heartbeat up to its UDP write. -/
def prepareHeartbeat (w : Worker K) : Worker K × Except VoiceError Outgoing :=
  match reserveTransportSequence w.transportSequence with
  | .error e => (w, .error e)
  | .ok (sequence, next) =>
      let w := { w with transportSequence := next }
      match w.codec.encodeHeartbeat crypto sequence with
      | .error e => (w, .error (.packet e))
      | .ok datagram => (w, .ok ⟨sequence, none, datagram⟩)

/-- A media packet up to its UDP write. -/
def prepareMedia (w : Worker K) (streamType : UInt8) (payload : List UInt8) :
    Worker K × Except VoiceError Outgoing :=
  match w.codec.validateMedia streamType payload.length with
  | .error e => (w, .error (.packet e))
  | .ok () =>
      let channelSequence := w.channelSequences streamType
      match reserveTransportSequence w.transportSequence with
      | .error e => (w, .error e)
      | .ok (sequence, next) =>
          let w := { w with transportSequence := next }
          match w.codec.encodeMedia crypto sequence channelSequence streamType payload with
          | .error e => (w, .error (.packet e))
          | .ok datagram => (w, .ok ⟨sequence, some (streamType, channelSequence), datagram⟩)

/-- The worker after a successful write: the stream of a media packet moves on. -/
def wrote (w : Worker K) (packet : Outgoing) : Worker K :=
  match packet.media with
  | none => w
  | some (streamType, channelSequence) =>
      { w with channelSequences :=
          Function.update w.channelSequences streamType (channelSequence + 1) }

/-- A heartbeat in one step is its two halves. -/
theorem sendHeartbeat_eq (w : Worker K) (sent : Except VoiceError Unit) :
    ((w.sendHeartbeat crypto sent).1, (w.sendHeartbeat crypto sent).2.2) =
      match w.prepareHeartbeat crypto with
      | (w, .error e) => (w, .error e)
      | (w, .ok _) => (w, sent) := by
  unfold sendHeartbeat prepareHeartbeat
  cases reserveTransportSequence w.transportSequence with
  | error e => rfl
  | ok reserved =>
      obtain ⟨sequence, next⟩ := reserved
      dsimp only
      cases w.codec.encodeHeartbeat crypto sequence <;> rfl

/-- A media packet in one step is its two halves. -/
theorem sendMedia_eq (w : Worker K) (streamType : UInt8) (payload : List UInt8)
    (sent : Except VoiceError Unit) :
    ((w.sendMedia crypto streamType payload sent).1,
        (w.sendMedia crypto streamType payload sent).2.2) =
      match w.prepareMedia crypto streamType payload with
      | (w, .error e) => (w, .error e)
      | (w, .ok packet) =>
          match sent with
          | .error e => (w, .error e)
          | .ok () => (w.wrote packet, .ok ()) := by
  unfold sendMedia prepareMedia
  cases w.codec.validateMedia streamType payload.length with
  | error e => rfl
  | ok _ =>
      dsimp only
      cases reserveTransportSequence w.transportSequence with
      | error e => rfl
      | ok reserved =>
          obtain ⟨sequence, next⟩ := reserved
          dsimp only
          cases w.codec.encodeMedia crypto sequence (w.channelSequences streamType) streamType
            payload with
          | error e => rfl
          | ok datagram => cases sent <;> rfl

end Worker

/-! ## The worker and its socket -/

/-- Where the worker's task stands. -/
inductive SenderPhase
  /-- The task was spawned. -/
  | unstarted
  /-- At the top of its loop. -/
  | ready
  /-- A UDP write is pending; the first heartbeat is not raced against a stop. -/
  | writing (initial : Bool) (packet : Outgoing)
  | returned
  deriving DecidableEq, Repr

/-- A worker with the datagrams it has written, oldest first. -/
structure Sender (K : Type) where
  worker : Worker K
  phase : SenderPhase
  written : List Outgoing

/-- What can happen to a worker. -/
inductive SenderAction
  /-- The first heartbeat. -/
  | start
  /-- The heartbeat timer fired; the flag says whether a heartbeat is due. -/
  | tick (elapsed : Bool)
  /-- A queued media command. -/
  | send (streamType : UInt8) (payload : List UInt8)
  /-- The pending write ended. -/
  | complete (sent : Except String Unit)
  /-- The stop watch changed during a pending write. -/
  | interrupt
  /-- The stop watch changed. -/
  | stop
  | inbound (datagram : List UInt8)
  | receiveError
  /-- The stop watch or the command queue lost its senders. -/
  | closed
  /-- A handle asks the worker to stop. -/
  | request (termination : Termination)
  /-- The start of the session was cancelled. -/
  | abort

namespace Sender

/-- The sender of a new session. -/
def new (codec : PacketCodec K) : Sender K := ⟨.new codec, .unstarted, []⟩

/-- The datagram whose write is pending. -/
def pending (s : Sender K) : Option Outgoing :=
  match s.phase with
  | .writing _ packet => some packet
  | _ => none

/-- Publish a last status and return. -/
def finish (s : Sender K) (status : VoiceStatus) : Sender K :=
  { s with worker := s.worker.finish status, phase := .returned }

/-- Stop after a failed send. The error of the first one is reported to the start. -/
def fail (s : Sender K) (initial : Bool) (error : VoiceError) : Sender K where
  worker :=
    if initial then { s.worker.finish .disconnected with started := some (.error error) }
    else s.worker.finish .disconnected
  phase := .returned
  written := s.written

/-- Await the write of a prepared packet; an error that `fatal` admits stops the
worker. -/
def awaitWrite (s : Sender K) (initial : Bool) (fatal : VoiceError → Bool) :
    Worker K × Except VoiceError Outgoing → Sender K
  | (w, .ok packet) => { s with worker := w, phase := .writing initial packet }
  | (w, .error e) =>
      if fatal e then { s with worker := w }.fail initial e else { s with worker := w }

/-- A successful write. The first one makes the session active. -/
def wrote (s : Sender K) (initial : Bool) (packet : Outgoing) : Sender K where
  worker :=
    if initial then { s.worker.wrote packet with status := .active, started := some (.ok ()) }
    else s.worker.wrote packet
  phase := .ready
  written := s.written ++ [packet]

/-- A handle asks the worker to stop. -/
def request (s : Sender K) (termination : Termination) : Sender K :=
  { s with worker := s.worker.requestTermination termination }

variable (crypto : Crypto K)

/-- A send, unless a stop request came first. -/
def unlessStopped (s : Sender K) (next : Sender K) : Sender K :=
  match s.worker.termination with
  | some t => s.finish t.status
  | none => next

/-- The worker handles a datagram, and returns after a revocation. -/
def handleInbound (s : Sender K) (datagram : List UInt8) : Sender K where
  worker := s.worker.handleInbound crypto datagram
  phase :=
    if (s.worker.inbox.handleInbound crypto s.worker.codec datagram).2 then s.phase else .returned
  written := s.written

/-- One step of the worker's task, or of a task that asks it to stop. -/
def step (s : Sender K) (action : SenderAction) : Option (Sender K) :=
  match s.phase, action with
  | .unstarted, .start =>
      some (s.awaitWrite true (fun _ => true) (s.worker.prepareHeartbeat crypto))
  | .ready, .tick false => some s
  | .ready, .tick true =>
      some (s.unlessStopped
        (s.awaitWrite false (fun _ => true) (s.worker.prepareHeartbeat crypto)))
  | .ready, .send streamType payload =>
      some (s.unlessStopped
        (s.awaitWrite false Worker.sendFatal (s.worker.prepareMedia crypto streamType payload)))
  | .ready, .stop => s.worker.termination.map fun t => s.finish t.status
  | .ready, .inbound datagram => some (s.handleInbound crypto datagram)
  | .ready, .receiveError => some (s.finish .disconnected)
  | .ready, .closed => some (s.finish .disconnected)
  | .writing initial packet, .complete (.ok ()) => some (s.wrote initial packet)
  | .writing initial _, .complete (.error detail) => some (s.fail initial (.transport detail))
  | .writing false _, .interrupt => s.worker.termination.map fun t => s.finish t.status
  -- There is no handle before the first heartbeat was written.
  | .unstarted, .request _ => none
  | .writing true _, .request _ => none
  | _, .request termination => some (s.request termination)
  | .returned, _ => none
  | _, .abort => some { s with phase := .returned }
  | _, _ => none

end Sender

/-! ## What a step does to the counters -/

/-- A datagram is the encoding of the sequences noted with it. -/
def Outgoing.EncodedBy (crypto : Crypto K) (codec : PacketCodec K) (packet : Outgoing) : Prop :=
  match packet.media with
  | none => codec.encodeHeartbeat crypto packet.transportSeq = .ok packet.datagram
  | some (streamType, channelSeq) => ∃ payload,
      codec.encodeMedia crypto packet.transportSeq channelSeq streamType payload =
        .ok packet.datagram

/-- A packet with the next sequences of a worker. -/
structure Prepared (crypto : Crypto K) (w : Worker K) (packet : Outgoing) : Prop where
  transport : packet.transportSeq = w.transportSequence
  channel : ∀ streamType channelSeq, packet.media = some (streamType, channelSeq) →
    channelSeq = w.channelSequences streamType
  encoded : packet.EncodedBy crypto w.codec

/-- The first half of a send fails at once, or it consumes one transport sequence
and may leave a packet that carries it. -/
def Reserves (crypto : Crypto K) (w : Worker K)
    (result : Worker K × Except VoiceError Outgoing) : Prop :=
  (result.1 = w ∧ ∃ e, result.2 = .error e) ∨
    (w.transportSequence ≠ U64_MAX ∧
      result.1 = { w with transportSequence := w.transportSequence + 1 } ∧
      ∀ packet, result.2 = .ok packet → Prepared crypto w packet)

namespace Worker

variable {crypto : Crypto K} {w : Worker K} {streamType : UInt8} {payload : List UInt8}

theorem prepareHeartbeat_of_exhausted (h : w.transportSequence = U64_MAX) :
    w.prepareHeartbeat crypto = (w, .error .sequenceExhausted) := by
  simp [prepareHeartbeat, reserveTransportSequence, h]

theorem prepareHeartbeat_reserves (w : Worker K) :
    Reserves crypto w (w.prepareHeartbeat crypto) := by
  by_cases hmax : w.transportSequence = U64_MAX
  · rw [prepareHeartbeat_of_exhausted hmax]
    exact .inl ⟨rfl, _, rfl⟩
  · refine .inr ⟨hmax, ?_⟩
    simp only [prepareHeartbeat, reserveTransportSequence, hmax, if_false]
    cases hencode : w.codec.encodeHeartbeat crypto w.transportSequence with
    | error e => exact ⟨rfl, fun packet h => by cases h⟩
    | ok datagram =>
        refine ⟨rfl, fun packet h => ?_⟩
        cases h
        exact ⟨rfl, (fun _ _ h => by cases h), hencode⟩

theorem prepareMedia_of_invalid {e : PacketError}
    (h : w.codec.validateMedia streamType payload.length = .error e) :
    w.prepareMedia crypto streamType payload = (w, .error (.packet e)) := by
  simp [prepareMedia, h]

theorem prepareMedia_of_exhausted
    (hvalid : w.codec.validateMedia streamType payload.length = .ok ())
    (h : w.transportSequence = U64_MAX) :
    w.prepareMedia crypto streamType payload = (w, .error .sequenceExhausted) := by
  simp [prepareMedia, reserveTransportSequence, hvalid, h]

theorem prepareMedia_reserves (w : Worker K) (streamType : UInt8) (payload : List UInt8) :
    Reserves crypto w (w.prepareMedia crypto streamType payload) := by
  cases hvalid : w.codec.validateMedia streamType payload.length with
  | error e =>
      rw [prepareMedia_of_invalid hvalid]
      exact .inl ⟨rfl, _, rfl⟩
  | ok _ =>
      by_cases hmax : w.transportSequence = U64_MAX
      · rw [prepareMedia_of_exhausted hvalid hmax]
        exact .inl ⟨rfl, _, rfl⟩
      · refine .inr ⟨hmax, ?_⟩
        simp only [prepareMedia, reserveTransportSequence, hvalid, hmax, if_false]
        cases hencode : w.codec.encodeMedia crypto w.transportSequence
            (w.channelSequences streamType) streamType payload with
        | error e => exact ⟨rfl, fun packet h => by cases h⟩
        | ok datagram =>
            refine ⟨rfl, fun packet h => ?_⟩
            cases h
            exact ⟨rfl, (fun _ _ h => by cases h; rfl), payload, hencode⟩

end Worker

namespace Sender

variable {crypto : Crypto K} {s t : Sender K} {action : SenderAction}

/-- **What a step is**, whatever phase it starts in. -/
inductive Move (crypto : Crypto K) (s : Sender K) : SenderAction → Sender K → Prop
  | stay {action : SenderAction} : Move crypto s action s
  /-- A send, up to its write. -/
  | await {action : SenderAction} {result : Worker K × Except VoiceError Outgoing}
      (initial : Bool) (fatal : VoiceError → Bool) (idle : s.pending = none)
      (reserves : Reserves crypto s.worker result) :
      Move crypto s action (s.awaitWrite initial fatal result)
  /-- A pending write ended. -/
  | wrote {action : SenderAction} (initial : Bool) (packet : Outgoing)
      (pending : s.pending = some packet) : Move crypto s action (s.wrote initial packet)
  | fail {action : SenderAction} (initial : Bool) (error : VoiceError) :
      Move crypto s action (s.fail initial error)
  /-- A stop request was seen. -/
  | stop {action : SenderAction} (termination : Termination)
      (requested : s.worker.termination = some termination) :
      Move crypto s action (s.finish termination.status)
  | disconnect {action : SenderAction} : Move crypto s action (s.finish .disconnected)
  | inbound {action : SenderAction} (datagram : List UInt8) (ready : s.phase = .ready) :
      Move crypto s action (s.handleInbound crypto datagram)
  | request {action : SenderAction} (termination : Termination) :
      Move crypto s action (s.request termination)
  | abort : Move crypto s .abort { s with phase := .returned }

theorem move_of_stop
    (h : (s.worker.termination.map fun t => s.finish t.status) = some t) :
    Move crypto s action t := by
  obtain ⟨termination, hrequested, rfl⟩ := Option.map_eq_some_iff.mp h
  exact .stop termination hrequested

theorem move_unlessStopped {next : Sender K} (h : Move crypto s action next) :
    Move crypto s action (s.unlessStopped next) := by
  unfold unlessStopped
  cases hrequested : s.worker.termination with
  | none => exact h
  | some termination => exact .stop termination hrequested

theorem step_move (h : s.step crypto action = some t) : Move crypto s action t := by
  cases hphase : s.phase with
  | unstarted =>
      have hidle : s.pending = none := by simp [pending, hphase]
      cases action with
      | start =>
          simp only [step, hphase, Option.some.injEq] at h
          exact h ▸ .await _ _ hidle s.worker.prepareHeartbeat_reserves
      | abort =>
          simp only [step, hphase, Option.some.injEq] at h
          exact h ▸ .abort
      | _ => simp [step, hphase] at h
  | ready =>
      have hidle : s.pending = none := by simp [pending, hphase]
      cases action with
      | tick elapsed =>
          cases elapsed with
          | false =>
              simp only [step, hphase, Option.some.injEq] at h
              exact h ▸ .stay
          | true =>
              simp only [step, hphase, Option.some.injEq] at h
              exact h ▸ move_unlessStopped
                (.await _ _ hidle s.worker.prepareHeartbeat_reserves)
      | send streamType payload =>
          simp only [step, hphase, Option.some.injEq] at h
          exact h ▸ move_unlessStopped
            (.await _ _ hidle (s.worker.prepareMedia_reserves streamType payload))
      | stop =>
          simp only [step, hphase] at h
          exact move_of_stop h
      | inbound datagram =>
          simp only [step, hphase, Option.some.injEq] at h
          exact h ▸ .inbound datagram hphase
      | request termination =>
          simp only [step, hphase, Option.some.injEq] at h
          exact h ▸ .request termination
      | receiveError | closed =>
          simp only [step, hphase, Option.some.injEq] at h
          exact h ▸ .disconnect
      | abort =>
          simp only [step, hphase, Option.some.injEq] at h
          exact h ▸ .abort
      | _ => simp [step, hphase] at h
  | writing initial packet =>
      have hpending : s.pending = some packet := by simp [pending, hphase]
      cases action with
      | complete sent =>
          cases sent with
          | ok _ =>
              simp only [step, hphase, Option.some.injEq] at h
              exact h ▸ .wrote initial packet hpending
          | error detail =>
              simp only [step, hphase, Option.some.injEq] at h
              exact h ▸ .fail initial _
      | interrupt =>
          cases initial with
          | true => simp [step, hphase] at h
          | false =>
              simp only [step, hphase] at h
              exact move_of_stop h
      | request termination =>
          cases initial with
          | true => simp [step, hphase] at h
          | false =>
              simp only [step, hphase, Option.some.injEq] at h
              exact h ▸ .request termination
      | abort =>
          simp only [step, hphase, Option.some.injEq] at h
          exact h ▸ .abort
      | _ => simp [step, hphase] at h
  | returned =>
      cases action with
      | request termination =>
          simp only [step, hphase, Option.some.injEq] at h
          exact h ▸ .request termination
      | _ => simp [step, hphase] at h

/-- What a step can do to the counters, the pending write and the socket. -/
inductive Effect (crypto : Crypto K) (s t : Sender K) : Prop
  /-- Nothing is reserved or written; a pending write may be dropped. -/
  | quiet (transport : t.worker.transportSequence = s.worker.transportSequence)
      (channel : t.worker.channelSequences = s.worker.channelSequences)
      (written : t.written = s.written) (pending : t.pending = s.pending ∨ t.pending = none)
  /-- One transport sequence is consumed, for the packet that is then pending. -/
  | reserve (idle : s.pending = none) (more : s.worker.transportSequence ≠ U64_MAX)
      (transport : t.worker.transportSequence = s.worker.transportSequence + 1)
      (channel : t.worker.channelSequences = s.worker.channelSequences)
      (written : t.written = s.written)
      (pending : ∀ packet, t.pending = some packet → Prepared crypto s.worker packet)
  /-- The pending packet is written. -/
  | write (packet : Outgoing) (pending : s.pending = some packet)
      (transport : t.worker.transportSequence = s.worker.transportSequence)
      (channel : t.worker.channelSequences = (s.worker.wrote packet).channelSequences)
      (written : t.written = s.written ++ [packet]) (idle : t.pending = none)

theorem Effect.refl (s : Sender K) : Effect crypto s s := .quiet rfl rfl rfl (.inl rfl)

theorem finish_effect (s : Sender K) (status : VoiceStatus) :
    Effect crypto s (s.finish status) := .quiet rfl rfl rfl (.inr rfl)

theorem fail_effect (s : Sender K) (initial : Bool) (error : VoiceError) :
    Effect crypto s (s.fail initial error) := by
  cases initial <;> exact .quiet rfl rfl rfl (.inr rfl)

theorem fail_worker (s : Sender K) (initial : Bool) (error : VoiceError) :
    (s.fail initial error).worker.codec = s.worker.codec ∧
      (s.fail initial error).worker.transportSequence = s.worker.transportSequence ∧
      (s.fail initial error).worker.channelSequences = s.worker.channelSequences := by
  cases initial <;> exact ⟨rfl, rfl, rfl⟩

theorem awaitWrite_effect (hidle : s.pending = none)
    {result : Worker K × Except VoiceError Outgoing} (h : Reserves crypto s.worker result)
    (initial : Bool) (fatal : VoiceError → Bool) :
    (s.awaitWrite initial fatal result).worker.codec = s.worker.codec ∧
      Effect crypto s (s.awaitWrite initial fatal result) := by
  obtain ⟨w, e | packet⟩ := result
  · obtain ⟨hworker, -⟩ | ⟨hmore, hworker, -⟩ := h
    · cases hworker
      simp only [awaitWrite]
      split
      · exact ⟨(fail_worker _ _ _).1, fail_effect s initial e⟩
      · exact ⟨rfl, Effect.refl s⟩
    · cases hworker
      simp only [awaitWrite]
      split
      · obtain ⟨hcodec, htransport, hchannel⟩ := fail_worker
          { s with worker := { s.worker with
              transportSequence := s.worker.transportSequence + 1 } } initial e
        exact ⟨hcodec, .reserve hidle hmore htransport hchannel rfl (fun _ h => by cases h)⟩
      · refine ⟨rfl, .reserve hidle hmore rfl rfl rfl ?_⟩
        intro packet hpending
        have hsame : s.pending = some packet := hpending
        rw [hidle] at hsame
        cases hsame
  · obtain ⟨-, e, he⟩ | ⟨hmore, hworker, hprepared⟩ := h
    · cases he
    · cases hworker
      refine ⟨rfl, .reserve hidle hmore rfl rfl rfl ?_⟩
      intro packet' hpending
      cases hpending
      exact hprepared packet rfl

theorem wrote_effect {packet : Outgoing} (hpending : s.pending = some packet) (initial : Bool) :
    (s.wrote initial packet).worker.codec = s.worker.codec ∧
      Effect crypto s (s.wrote initial packet) := by
  have hkeep : (s.worker.wrote packet).codec = s.worker.codec ∧
      (s.worker.wrote packet).transportSequence = s.worker.transportSequence := by
    unfold Worker.wrote
    split <;> exact ⟨rfl, rfl⟩
  cases initial <;> exact ⟨hkeep.1, .write packet hpending hkeep.2 rfl rfl rfl⟩

theorem handleInbound_effect (hready : s.phase = .ready) (datagram : List UInt8) :
    (s.handleInbound crypto datagram).worker.codec = s.worker.codec ∧
      Effect crypto s (s.handleInbound crypto datagram) := by
  obtain ⟨hcodec, htransport, hchannel⟩ : (s.worker.handleInbound crypto datagram).codec =
        s.worker.codec ∧
      (s.worker.handleInbound crypto datagram).transportSequence = s.worker.transportSequence ∧
      (s.worker.handleInbound crypto datagram).channelSequences =
        s.worker.channelSequences := by
    unfold Worker.handleInbound
    split
    · exact ⟨rfl, rfl, rfl⟩
    · split
      · exact ⟨rfl, rfl, rfl⟩
      · dsimp only
        split <;> exact ⟨rfl, rfl, rfl⟩
  refine ⟨hcodec, .quiet htransport hchannel rfl (.inr ?_)⟩
  unfold handleInbound pending
  rw [hready]
  cases (s.worker.inbox.handleInbound crypto s.worker.codec datagram).2 <;> rfl

theorem request_effect (s : Sender K) (termination : Termination) :
    (s.request termination).worker.codec = s.worker.codec ∧
      Effect crypto s (s.request termination) := by
  unfold request Worker.requestTermination
  split <;> exact ⟨rfl, .quiet rfl rfl rfl (.inl rfl)⟩

/-- **Every step has one of the three effects**, and the codec stays. -/
theorem step_effect (h : s.step crypto action = some t) :
    t.worker.codec = s.worker.codec ∧ Effect crypto s t := by
  cases step_move h with
  | stay => exact ⟨rfl, Effect.refl s⟩
  | await initial fatal idle reserves => exact awaitWrite_effect idle reserves initial fatal
  | wrote initial packet pending => exact wrote_effect pending initial
  | fail initial error => exact ⟨(fail_worker _ _ _).1, fail_effect s initial error⟩
  | stop termination => exact ⟨rfl, finish_effect s _⟩
  | disconnect => exact ⟨rfl, finish_effect s _⟩
  | inbound datagram ready => exact handleInbound_effect ready datagram
  | request termination => exact request_effect s termination
  | abort => exact ⟨rfl, .quiet rfl rfl rfl (.inr rfl)⟩

end Sender

/-! ## The counters over a run -/

/-- The channel sequences of the media packets of one stream type. -/
def channelSeqs (streamType : UInt8) (packets : List Outgoing) : List UInt16 :=
  packets.filterMap fun packet =>
    packet.media.bind fun media => if media.1 = streamType then some media.2 else none

/-- The first values of a wrapping 16-bit counter. -/
def counted (n : ℕ) : List UInt16 := (List.range n).map UInt16.ofNat

theorem counted_succ (n : ℕ) : counted (n + 1) = counted n ++ [UInt16.ofNat n] := by
  simp [counted, List.range_succ]

theorem channelSeqs_concat (streamType : UInt8) (packets : List Outgoing) (packet : Outgoing) :
    channelSeqs streamType (packets ++ [packet]) = channelSeqs streamType packets ++
      (packet.media.bind fun media =>
        if media.1 = streamType then some media.2 else none).toList := by
  rw [channelSeqs, List.filterMap_append]
  rfl

/-- The invariant of the counters. Transport sequences rise along the written
packets and the pending one, all of them behind the counter; the channel counter
of a stream is the number of its written packets. -/
structure Sequenced (crypto : Crypto K) (codec : PacketCodec K) (s : Sender K) : Prop where
  codec_eq : s.worker.codec = codec
  positive : 0 < s.worker.transportSequence
  bounded : s.worker.transportSequence ≤ U64_MAX
  rising : (s.written ++ s.pending.toList).Pairwise fun a b => a.transportSeq < b.transportSeq
  behind : ∀ packet ∈ s.written ++ s.pending.toList,
    0 < packet.transportSeq ∧ packet.transportSeq < s.worker.transportSequence ∧
      packet.EncodedBy crypto codec
  channels : ∀ streamType, ∃ n, channelSeqs streamType s.written = counted n ∧
    s.worker.channelSequences streamType = UInt16.ofNat n
  next : ∀ packet, s.pending = some packet → ∀ streamType channelSeq,
    packet.media = some (streamType, channelSeq) →
      channelSeq = s.worker.channelSequences streamType

namespace Sequenced

open Sender

variable {crypto : Crypto K} {codec : PacketCodec K} {s t : Sender K}

theorem new (crypto : Crypto K) (codec : PacketCodec K) :
    Sequenced crypto codec (Sender.new codec) where
  codec_eq := rfl
  positive := Nat.one_pos
  bounded := by simp [Sender.new, Worker.new, U64_MAX]
  rising := List.Pairwise.nil
  behind packet h := by cases h
  channels _ := ⟨0, rfl, rfl⟩
  next packet h := by cases h

/-- The channel counters after a write, with the log one packet longer. -/
theorem channels_wrote (H : Sequenced crypto codec s) {packet : Outgoing}
    (hpending : s.pending = some packet) (streamType : UInt8) :
    ∃ n, channelSeqs streamType (s.written ++ [packet]) = counted n ∧
      (s.worker.wrote packet).channelSequences streamType = UInt16.ofNat n := by
  obtain ⟨n, hlog, hcounter⟩ := H.channels streamType
  rw [channelSeqs_concat, hlog]
  rcases hmedia : packet.media with _ | ⟨stream, channelSeq⟩
  · exact ⟨n, by simp, by simpa [Worker.wrote, hmedia] using hcounter⟩
  · have hnext := H.next packet hpending stream channelSeq hmedia
    by_cases hstream : stream = streamType
    · subst hstream
      rw [hcounter] at hnext
      refine ⟨n + 1, by simp [counted_succ, hnext], ?_⟩
      simp [Worker.wrote, hmedia, hnext]
    · refine ⟨n, by simp [hstream], ?_⟩
      have hother : streamType ≠ stream := Ne.symm hstream
      simpa [Worker.wrote, hmedia, Function.update_of_ne hother] using hcounter

/-- Every effect keeps the counters in order. -/
theorem of_effect (H : Sequenced crypto codec s) (hcodec : t.worker.codec = s.worker.codec)
    (E : Effect crypto s t) : Sequenced crypto codec t := by
  have hcodec' := hcodec.trans H.codec_eq
  cases E with
  | quiet transport channel written pending =>
      have hsub : (t.written ++ t.pending.toList).Sublist (s.written ++ s.pending.toList) := by
        rw [written]
        rcases pending with h | h
        · rw [h]
        · simp [h]
      refine ⟨hcodec', transport ▸ H.positive, transport ▸ H.bounded, H.rising.sublist hsub, ?_,
        ?_, ?_⟩
      · intro packet hmem
        rw [transport]
        exact H.behind packet (hsub.subset hmem)
      · rw [channel, written]
        exact H.channels
      · intro packet hpacket
        rw [channel]
        rcases pending with h | h
        · exact H.next packet (h ▸ hpacket)
        · rw [h] at hpacket
          cases hpacket
  | reserve idle more transport channel written pending =>
      have hold : s.written ++ s.pending.toList = s.written := by simp [idle]
      have hprepared : ∀ packet ∈ t.pending.toList, Prepared crypto s.worker packet := by
        intro packet hmem
        exact pending packet (by simpa using hmem)
      refine ⟨hcodec', by omega, ?_, ?_, ?_, ?_, ?_⟩
      · have := H.bounded
        omega
      · rw [written]
        refine List.pairwise_append.mpr ⟨hold ▸ H.rising, ?_, ?_⟩
        · cases t.pending <;> simp
        · intro a ha b hb
          rw [(hprepared b hb).transport]
          exact (H.behind a (List.mem_append_left _ ha)).2.1
      · intro packet hmem
        rw [written] at hmem
        rw [transport]
        rcases List.mem_append.mp hmem with hmem | hmem
        · obtain ⟨hpos, hlt, hencoded⟩ := H.behind packet (List.mem_append_left _ hmem)
          exact ⟨hpos, by omega, hencoded⟩
        · obtain ⟨htransport, -, hencoded⟩ := hprepared packet hmem
          have := H.positive
          exact ⟨by omega, by omega, H.codec_eq ▸ hencoded⟩
      · rw [channel, written]
        exact H.channels
      · intro packet hpacket
        rw [channel]
        exact (pending packet hpacket).channel
  | write packet pending transport channel written idle =>
      have hsame : t.written ++ t.pending.toList = s.written ++ s.pending.toList := by
        simp [written, idle, pending]
      refine ⟨hcodec', transport ▸ H.positive, transport ▸ H.bounded, hsame ▸ H.rising, ?_, ?_, ?_⟩
      · rw [hsame, transport]
        exact H.behind
      · rw [channel, written]
        exact H.channels_wrote pending
      · intro other hother
        rw [idle] at hother
        cases hother

theorem step (H : Sequenced crypto codec s) {action : SenderAction}
    (h : s.step crypto action = some t) : Sequenced crypto codec t := by
  obtain ⟨hcodec, E⟩ := step_effect h
  exact H.of_effect hcodec E

theorem run {actions : List SenderAction}
    (h : Transition.exec (Sender.step crypto) (Sender.new codec) actions = some s) :
    Sequenced crypto codec s :=
  Transition.invariant (fun _ _ _ H h => H.step h) (new crypto codec) h

end Sequenced

/-! ## The end of the transport counter -/

/-- An action that makes the worker write: a due heartbeat, or media that passes
validation. -/
def SenderAction.Attempts (codec : PacketCodec K) (action : SenderAction) : Prop :=
  action = .tick true ∨ ∃ streamType payload, action = .send streamType payload ∧
    codec.validateMedia streamType payload.length = .ok ()

namespace Sender

open Transition

variable {crypto : Crypto K} {s t : Sender K} {action : SenderAction}

/-- The worker returned and published a terminal status. -/
def Stopped (s : Sender K) : Prop := s.phase = .returned ∧ s.worker.status.isTerminal = true

theorem stopped_step (hs : s.Stopped) (h : s.step crypto action = some t) : t.Stopped := by
  obtain ⟨hphase, hstatus⟩ := hs
  cases action with
  | request termination =>
      simp only [step, hphase, Option.some.injEq] at h
      subst h
      refine ⟨hphase, ?_⟩
      simp [request, Worker.requestTermination, hstatus]
  | _ => simp [step, hphase] at h

theorem stopped_unlessStopped {next : Sender K} (h : next.Stopped) :
    (s.unlessStopped next).Stopped := by
  unfold unlessStopped
  cases s.worker.termination with
  | none => exact h
  | some termination => cases termination <;> exact ⟨rfl, rfl⟩

/-- At the end of the counter an attempt to write stops the worker. -/
theorem step_of_exhausted (hmax : s.worker.transportSequence = U64_MAX)
    (hattempt : action.Attempts s.worker.codec) (h : s.step crypto action = some t) :
    t.Stopped := by
  have hphase : s.phase = .ready := by
    rcases hattempt with rfl | ⟨streamType, payload, rfl, -⟩ <;>
      cases hphase : s.phase <;> simp [step, hphase] at h ⊢
  rcases hattempt with rfl | ⟨streamType, payload, rfl, hvalid⟩
  · simp only [step, hphase, Option.some.injEq] at h
    subst h
    rw [Worker.prepareHeartbeat_of_exhausted hmax]
    exact stopped_unlessStopped ⟨rfl, rfl⟩
  · simp only [step, hphase, Option.some.injEq] at h
    subst h
    rw [Worker.prepareMedia_of_exhausted hvalid hmax]
    exact stopped_unlessStopped ⟨rfl, rfl⟩

/-- Nothing new is reserved at the end of the counter. -/
theorem exhausted_step (hmax : s.worker.transportSequence = U64_MAX)
    (h : s.step crypto action = some t) :
    t.worker.transportSequence = U64_MAX ∧ s.written <+: t.written ∧
      t.written ++ t.pending.toList <+: s.written ++ s.pending.toList := by
  cases (step_effect h).2 with
  | quiet transport channel written pending =>
      refine ⟨transport.trans hmax, written ▸ List.prefix_rfl, ?_⟩
      rw [written]
      rcases pending with hpending | hpending
      · exact hpending ▸ List.prefix_rfl
      · simp [hpending]
  | reserve idle more => exact absurd hmax more
  | write packet pending transport channel written idle =>
      refine ⟨transport.trans hmax, written ▸ List.prefix_append _ _, ?_⟩
      simp [written, idle, pending]

theorem exhausted_run {rest : List SenderAction}
    (hmax : s.worker.transportSequence = U64_MAX)
    (h : exec (step crypto) s rest = some t) :
    s.written <+: t.written ∧
      t.written ++ t.pending.toList <+: s.written ++ s.pending.toList ∧
      ((∃ action ∈ rest, action.Attempts s.worker.codec) → t.Stopped) := by
  induction rest generalizing s with
  | nil =>
      cases h
      exact ⟨List.prefix_rfl, List.prefix_rfl, fun ⟨_, hmem, _⟩ => by cases hmem⟩
  | cons action rest ih =>
      obtain ⟨m, hm, hrest⟩ := Option.bind_eq_some_iff.mp h
      obtain ⟨hmax', hlog, hpending⟩ := exhausted_step hmax hm
      obtain ⟨hlog', hpending', hstopped⟩ := ih hmax' hrest
      refine ⟨hlog.trans hlog', hpending'.trans hpending, ?_⟩
      rintro ⟨attempt, hmem, hattempt⟩
      rcases List.mem_cons.mp hmem with rfl | hmem
      · exact invariant (fun _ _ _ => stopped_step) (step_of_exhausted hmax hattempt hm) hrest
      · exact hstopped ⟨attempt, hmem, by rwa [(step_effect hm).1]⟩

/-- A media command that fails validation is not sequenced. -/
theorem step_of_invalid {streamType : UInt8} {payload : List UInt8} {e : PacketError}
    (hinvalid : s.worker.codec.validateMedia streamType payload.length = .error e)
    (h : s.step crypto (.send streamType payload) = some t) :
    t.worker.transportSequence = s.worker.transportSequence ∧
      t.worker.channelSequences = s.worker.channelSequences ∧ t.written = s.written := by
  have hphase : s.phase = .ready := by
    cases hphase : s.phase <;> simp [step, hphase] at h ⊢
  simp only [step, hphase, Option.some.injEq] at h
  subst h
  rw [Worker.prepareMedia_of_invalid hinvalid]
  unfold unlessStopped
  cases s.worker.termination <;> exact ⟨rfl, rfl, rfl⟩

end Sender

/-- The sequence field of a datagram is the transport sequence it was encoded with. -/
theorem Outgoing.EncodedBy.header {crypto : Crypto K} {codec : PacketCodec K}
    {packet : Outgoing} (h : packet.EncodedBy crypto codec) (hpos : packet.transportSeq ≠ 0)
    (hwide : packet.transportSeq < 2 ^ 64) :
    ofBeBytes ((packet.datagram.drop 22).take 8) = packet.transportSeq := by
  obtain ⟨streamType, channelSeq, speaker, payload, hbody⟩ : ∃ streamType channelSeq speaker
      payload, codec.encodeBody crypto packet.transportSeq streamType channelSeq speaker payload
        true = .ok packet.datagram := by
    unfold EncodedBy at h
    split at h
    · exact ⟨_, _, _, _, h⟩
    · obtain ⟨payload, h⟩ := h
      unfold PacketCodec.encodeMedia at h
      cases hvalid : codec.validateMedia _ payload.length with
      | error e =>
          rw [hvalid] at h
          cases h
      | ok _ =>
          rw [hvalid] at h
          exact ⟨_, _, _, _, h⟩
  rw [PacketCodec.encodeBody_eq hpos] at hbody
  cases hseal : codec.sealRest crypto true packet.transportSeq
      (codec.outerHeader packet.transportSeq)
      (PacketCodec.channelBody streamType channelSeq speaker payload) with
  | error e =>
      rw [hseal] at hbody
      cases hbody
  | ok rest =>
      rw [hseal] at hbody
      simp only [Except.bind] at hbody
      split at hbody
      · cases hbody
      · injection hbody with hdatagram
        rw [← hdatagram, (codec.outerHeader_fields packet.transportSeq rest).2.2.2.2,
          ofBeBytes_toBeBytes]
        exact Nat.mod_eq_of_lt hwide

/-- **The sequences of a worker's datagrams.** In every run the written datagrams
carry strictly increasing transport sequences from 1 to `u64::MAX - 1`; the media
of each stream type carry 0, 1, 2, … modulo 2^16; media that fails validation moves
no counter; and with the transport counter at `u64::MAX` nothing but the write
already pending is written, and the next attempt to write stops the worker. -/
theorem outbound_sequencing (crypto : Crypto K) (codec : PacketCodec K)
    (actions : List SenderAction) (s : Sender K)
    (h : Transition.exec (Sender.step crypto) (Sender.new codec) actions = some s) :
    (s.written.Pairwise fun a b => a.transportSeq < b.transportSeq) ∧
    (∀ packet ∈ s.written, packet.transportSeq ≠ 0 ∧ packet.transportSeq < U64_MAX ∧
      packet.EncodedBy crypto codec ∧
      ofBeBytes ((packet.datagram.drop 22).take 8) = packet.transportSeq) ∧
    (∀ streamType, channelSeqs streamType s.written =
      counted (channelSeqs streamType s.written).length) ∧
    (∀ streamType payload e t, codec.validateMedia streamType payload.length = .error e →
      s.step crypto (.send streamType payload) = some t →
      t.worker.transportSequence = s.worker.transportSequence ∧
        t.worker.channelSequences = s.worker.channelSequences ∧ t.written = s.written) ∧
    (s.worker.transportSequence = U64_MAX → ∀ rest t,
      Transition.exec (Sender.step crypto) s rest = some t →
      (t.written = s.written ∨
        ∃ packet, s.pending = some packet ∧ t.written = s.written ++ [packet]) ∧
      ((∃ action ∈ rest, action.Attempts codec) → t.Stopped)) := by
  have H := Sequenced.run h
  refine ⟨(List.pairwise_append.mp H.rising).1, ?_, ?_, ?_, ?_⟩
  · intro packet hmem
    obtain ⟨hpos, hlt, hencoded⟩ := H.behind packet (List.mem_append_left _ hmem)
    have hbounded := Nat.lt_of_lt_of_le hlt H.bounded
    refine ⟨by omega, hbounded, hencoded, hencoded.header (by omega) ?_⟩
    unfold U64_MAX at hbounded
    omega
  · intro streamType
    obtain ⟨n, hlog, -⟩ := H.channels streamType
    have hlength : (counted n).length = n := by simp [counted]
    rw [hlog, hlength]
  · intro streamType payload e t hinvalid ht
    exact Sender.step_of_invalid (H.codec_eq.symm ▸ hinvalid) ht
  · intro hmax rest t ht
    obtain ⟨hlog, hpending, hstopped⟩ := Sender.exhausted_run hmax ht
    refine ⟨?_, H.codec_eq ▸ hstopped⟩
    obtain ⟨more, hmore⟩ := hlog
    have hwritten : t.written <+: s.written ++ s.pending.toList :=
      (List.prefix_append _ _).trans hpending
    rw [← hmore, List.prefix_append_right_inj] at hwritten
    cases hcase : s.pending with
    | none =>
        rw [hcase, Option.toList_none, List.prefix_nil] at hwritten
        exact .inl (by rw [← hmore, hwritten, List.append_nil])
    | some packet =>
        rw [hcase, Option.toList_some] at hwritten
        rcases List.prefix_cons_iff.mp hwritten with hnil | ⟨tail, hcons, htail⟩
        · exact .inl (by rw [← hmore, hnil, List.append_nil])
        · rw [List.prefix_nil] at htail
          exact .inr ⟨packet, rfl, by rw [← hmore, hcons, htail]⟩

/-- A run with media that is rejected, and a last packet that a stop request drops. -/
def sampleSends : List SenderAction :=
  [.start, .complete (.ok ()), .send 1 [7], .complete (.ok ()), .send 2 [8], .tick true,
    .complete (.ok ()), .send 1 [9], .complete (.ok ()), .send 1 [10], .request .close, .interrupt]

theorem outbound_sequencing_interrupted :
    ∃ s, Transition.exec (Sender.step taggedCrypto) (Sender.new sampleCodec) sampleSends =
        some s ∧
      s.written.map Outgoing.transportSeq = [1, 2, 3, 4] ∧ channelSeqs 1 s.written = [0, 1] ∧
      s.worker.transportSequence = 6 ∧
      s.written.Pairwise fun a b => a.transportSeq < b.transportSeq := by
  have hrun : ((Transition.exec (Sender.step taggedCrypto) (Sender.new sampleCodec)
      sampleSends).any fun s => (s.written.map Outgoing.transportSeq, channelSeqs 1 s.written,
        s.worker.transportSequence) = ([1, 2, 3, 4], [0, 1], 6)) = true := by decide
  obtain ⟨s, hs, hresult⟩ := (Option.any_eq_true _ _).mp hrun
  obtain ⟨htransport, hchannel, hcounter⟩ : s.written.map Outgoing.transportSeq = [1, 2, 3, 4] ∧
      channelSeqs 1 s.written = [0, 1] ∧ s.worker.transportSequence = 6 := by
    simpa using hresult
  exact ⟨s, hs, htransport, hchannel, hcounter,
    (outbound_sequencing taggedCrypto sampleCodec sampleSends s hs).1⟩

/-! ## Sealed datagrams -/

/-- The stream of a datagram. -/
def Outgoing.streamType (packet : Outgoing) : UInt8 :=
  packet.media.elim HEARTBEAT_STREAM_TYPE Prod.fst

/-- The channel sequence of a datagram. -/
def Outgoing.channelSeq (packet : Outgoing) : UInt16 := packet.media.elim 0 Prod.snd

/-- The body of a datagram is the encryption of its channel header and payload under
the client-to-server cipher of a session, with the outer header as additional data.
A heartbeat has no payload. -/
def Outgoing.SealedUnder (crypto : Crypto K) (codec : PacketCodec K) (key : SessionKey)
    (packet : Outgoing) : Prop :=
  ∃ payload body, (packet.media = none → payload = []) ∧
    crypto.encrypt (deriveDirectionKeys crypto codec.sessionId key).c2s
      (nonceFor packet.transportSeq)
      (PacketCodec.channelBody packet.streamType packet.channelSeq 0 payload)
      (codec.outerHeader packet.transportSeq) = some body ∧
    packet.datagram = codec.outerHeader packet.transportSeq ++ body

/-- A codec that encrypts under the keys derived from a session key. -/
structure PacketCodec.KeyedBy (crypto : Crypto K) (codec : PacketCodec K) (key : SessionKey) :
    Prop where
  encrypted : codec.encrypted = true
  keys : codec.keys = some (deriveDirectionKeys crypto codec.sessionId key)

/-- A datagram is encoded from its stream, its channel sequence and a payload. -/
theorem Outgoing.EncodedBy.body {crypto : Crypto K} {codec : PacketCodec K} {packet : Outgoing}
    (h : packet.EncodedBy crypto codec) :
    ∃ payload, (packet.media = none → payload = []) ∧
      codec.encodeBody crypto packet.transportSeq packet.streamType packet.channelSeq 0 payload
        true = .ok packet.datagram := by
  unfold EncodedBy at h
  unfold streamType channelSeq
  cases hmedia : packet.media with
  | none =>
      rw [hmedia] at h
      exact ⟨[], fun _ => rfl, h⟩
  | some media =>
      obtain ⟨stream, sequence⟩ := media
      rw [hmedia] at h
      obtain ⟨payload, h⟩ := h
      refine ⟨payload, (fun hnone => by cases hnone), ?_⟩
      unfold PacketCodec.encodeMedia at h
      cases hvalid : codec.validateMedia stream payload.length with
      | error e =>
          rw [hvalid] at h
          cases h
      | ok _ =>
          rw [hvalid] at h
          exact h

/-- A keyed codec seals every body. -/
theorem PacketCodec.KeyedBy.sealedUnder {crypto : Crypto K} {codec : PacketCodec K}
    {key : SessionKey} {packet : Outgoing} (hkeyed : codec.KeyedBy crypto key)
    (h : packet.EncodedBy crypto codec) (hseq : packet.transportSeq ≠ 0) :
    packet.SealedUnder crypto codec key := by
  obtain ⟨payload, hheartbeat, hbody⟩ := h.body
  rw [encodeBody_eq hseq, sealRest, if_pos hkeyed.encrypted, hkeyed.keys] at hbody
  simp only [sealBody, if_neg hseq, directionKey, if_true] at hbody
  cases hseal : crypto.encrypt (deriveDirectionKeys crypto codec.sessionId key).c2s
      (nonceFor packet.transportSeq)
      (channelBody packet.streamType packet.channelSeq 0 payload)
      (codec.outerHeader packet.transportSeq) with
  | none =>
      rw [hseal] at hbody
      cases hbody
  | some body =>
      rw [hseal] at hbody
      simp only [Except.bind] at hbody
      refine ⟨payload, body, hheartbeat, hseal, ?_⟩
      split at hbody
      · cases hbody
      · injection hbody with hdatagram
        exact hdatagram.symm

/-- Everything a worker with a keyed codec writes is sealed. -/
theorem PacketCodec.KeyedBy.written {crypto : Crypto K} {codec : PacketCodec K}
    {key : SessionKey} (hkeyed : codec.KeyedBy crypto key) {actions : List SenderAction}
    {sender : Sender K}
    (h : Transition.exec (Sender.step crypto) (Sender.new codec) actions = some sender) :
    ∀ packet ∈ sender.written, packet.SealedUnder crypto codec key := by
  intro packet hmem
  obtain ⟨hpos, -, hencoded⟩ := (Sequenced.run h).behind packet (List.mem_append_left _ hmem)
  exact hkeyed.sealedUnder hencoded (by omega)

/-- The codec of an encrypted configuration is keyed by its inline key, or by the
cached key of its session. -/
theorem PacketCodec.keyedBy_of_fromConfig {crypto : Crypto K} {config : VoiceSessionConfig}
    {cache : SessionKeyCache} {codec : PacketCodec K} (hencrypted : config.encrypted = true)
    (h : (PacketCodec.fromConfig crypto config cache).2 = .ok codec) :
    codec.sessionId = config.sessionId ∧ ∃ key, codec.KeyedBy crypto key ∧
      config.sessionKey.or (cache config.sessionId) = some key := by
  have hcached : config.sessionKey.or (config.cacheInlineKey cache config.sessionId) =
      config.sessionKey.or (cache config.sessionId) := by
    unfold VoiceSessionConfig.cacheInlineKey
    cases config.sessionKey <;> rfl
  unfold fromConfig VoiceSessionConfig.resolveKey at h
  simp only [hencrypted, Bool.not_true, Bool.false_eq_true, if_false, hcached] at h
  cases hkey : config.sessionKey.or (cache config.sessionId) with
  | none =>
      rw [hkey] at h
      cases h
  | some key =>
      rw [hkey] at h
      cases h
      exact ⟨rfl, key, ⟨rfl, rfl⟩, rfl⟩

/-- Without a key no codec is built, and the cache stays as it is. -/
theorem PacketCodec.fromConfig_keyUnavailable {crypto : Crypto K} {config : VoiceSessionConfig}
    {cache : SessionKeyCache} (hencrypted : config.encrypted = true)
    (hnone : config.sessionKey.or (cache config.sessionId) = none) :
    PacketCodec.fromConfig crypto config cache = (cache, .error .keyUnavailable) := by
  obtain ⟨hinline, hcache⟩ := Option.or_eq_none_iff.mp hnone
  simp [fromConfig, VoiceSessionConfig.cacheInlineKey, VoiceSessionConfig.resolveKey, hencrypted,
    hinline, hcache]

end ZephyrVox.Voice
