import ZephyrVox.Voice.Codec

/-!
# The UDP worker

One task owns the socket of a voice session. It seals every datagram under the
client-to-server cipher of its codec with the next transport sequence, admits
each received sequence once, and stops for good on a stop request, a revocation
or a socket failure.

A step is one turn of the worker's loop. What the outside decides (the result of
a UDP write, a received datagram) is the input of the step; the calls of `seal`
it makes are returned with the worker it leaves.

## Main definitions

* `ReplayWindow` — the 128-packet window of received sequences.
* `Worker K` — the state of one worker.
* `Sealed K` — the cipher and the nonce of one call of `seal`.
* `Worker.step` — one turn of the loop.
* `Worker.step_spec` — what a turn does to the sequence, the seals and the status.
-/

namespace ZephyrVox.Voice

variable {K : Type}

/-! ## The replay window -/

/-- The sliding window of server sequences: bit `i` of `low` is `high - i`, bit
`i` of `upper` is `high - 64 - i`. -/
structure ReplayWindow where
  high : ℕ
  low : BitVec 64
  upper : BitVec 64
  deriving DecidableEq, Repr

namespace ReplayWindow

/-- The window before any packet. -/
def default : ReplayWindow := ⟨0, 0, 0⟩

/-- The word of the bitmap that holds an offset. -/
def word (w : ReplayWindow) (offset : ℕ) : BitVec 64 := if offset / 64 = 0 then w.low else w.upper

/-- Whether a sequence is new. -/
def wouldAccept (w : ReplayWindow) (sequence : ℕ) : Bool :=
  if sequence = 0 then false
  else if w.high < sequence then true
  else if 128 ≤ w.high - sequence then false
  else w.word (w.high - sequence) &&& (1#64 <<< ((w.high - sequence) % 64)) == 0

/-- Shift the bitmap when the high-water mark advances by less than 128. -/
def shiftLeft (w : ReplayWindow) (shift : ℕ) : ReplayWindow :=
  if shift = 0 then w
  else if shift < 64 then
    { w with upper := (w.upper <<< shift) ||| (w.low >>> (64 - shift)), low := w.low <<< shift }
  else { w with upper := w.low <<< (shift - 64), low := 0 }

/-- Set the bit of one offset. -/
def mark (w : ReplayWindow) (offset : ℕ) : ReplayWindow :=
  if offset / 64 = 0 then { w with low := w.low ||| (1#64 <<< (offset % 64)) }
  else { w with upper := w.upper ||| (1#64 <<< (offset % 64)) }

/-- Admit a new sequence, advancing the window when necessary. -/
def accept (w : ReplayWindow) (sequence : ℕ) : ReplayWindow × Bool :=
  if w.wouldAccept sequence then
    if w.high < sequence then
      let shifted :=
        if 128 ≤ sequence - w.high then { w with low := 0, upper := 0 }
        else w.shiftLeft (sequence - w.high)
      ({ shifted with high := sequence, low := shifted.low ||| 1 }, true)
    else (w.mark (w.high - sequence), true)
  else (w, false)

end ReplayWindow

/-! ## The worker -/

/-- A stop request. -/
inductive Termination
  | close
  | disconnect
  | revoke (reason : RevocationReason)
  deriving DecidableEq, Repr

/-- The terminal status of a stop request. -/
def Termination.status : Termination → VoiceStatus
  | .close | .disconnect => .disconnected
  | .revoke reason => .revoked reason

/-- One received media frame. -/
structure InboundMedia where
  speakerId : Snowflake
  streamType : UInt8
  channelSeq : UInt16
  transportSeq : ℕ
  payload : List UInt8
  deriving DecidableEq, Repr

/-- The cipher and the nonce of one call of `seal`. -/
structure Sealed (K : Type) where
  cipher : K
  nonce : List UInt8
  deriving DecidableEq, Repr

/-- The state of one worker and of the session handle it serves. -/
structure Worker (K : Type) where
  codec : PacketCodec K
  /-- The next client-to-server sequence. -/
  transportSequence : ℕ
  /-- The next channel sequence of each stream. -/
  channelSequences : UInt8 → UInt16
  replay : ReplayWindow
  /-- The value of the status watch. -/
  status : VoiceStatus
  /-- What the start of the session reported. -/
  started : Option (Except VoiceError Unit)
  /-- The value of the stop watch. -/
  termination : Option Termination
  /-- Media published to receivers, oldest first. -/
  media : List InboundMedia

/-- What a turn of the worker's loop receives. -/
inductive WorkerInput
  /-- The first heartbeat, with the result of its UDP write. -/
  | start (sent : Except VoiceError Unit)
  /-- The heartbeat interval elapsed without a send. -/
  | tick (sent : Except VoiceError Unit)
  /-- A queued media command. -/
  | send (streamType : UInt8) (payload : List UInt8) (sent : Except VoiceError Unit)
  /-- A received datagram. -/
  | inbound (datagram : List UInt8)
  /-- The socket failed to receive. -/
  | receiveError
  /-- The stop watch changed. -/
  | stop

/-- The largest 64-bit value. -/
def U64_MAX : ℕ := 2 ^ 64 - 1

/-- Reserve one sequence; the result is the sequence and the next one. -/
def reserveTransportSequence (sequence : ℕ) : Except VoiceError (ℕ × ℕ) :=
  if sequence = U64_MAX then .error .sequenceExhausted else .ok (sequence, sequence + 1)

/-- The call of `seal` that encoding one client datagram makes. -/
def PacketCodec.seals (codec : PacketCodec K) (sequence : ℕ) : List (Sealed K) :=
  if codec.encrypted && sequence != 0 then
    (codec.keys.map fun keys => ⟨keys.c2s, nonceFor sequence⟩).toList
  else []

namespace Worker

variable (crypto : Crypto K)

/-- The worker of a new session, before its first heartbeat. -/
def new (codec : PacketCodec K) : Worker K where
  codec := codec
  transportSequence := 1
  channelSequences := fun _ => 0
  replay := .default
  status := .joining
  started := none
  termination := none
  media := []

/-- Stop for good. The caller removes the cached key. -/
def finish (w : Worker K) (status : VoiceStatus) : Worker K := { w with status := status }

/-- Write one heartbeat. -/
def sendHeartbeat (w : Worker K) (sent : Except VoiceError Unit) :
    Worker K × List (Sealed K) × Except VoiceError Unit :=
  match reserveTransportSequence w.transportSequence with
  | .error e => (w, [], .error e)
  | .ok (sequence, next) =>
      let w := { w with transportSequence := next }
      match w.codec.encodeHeartbeat crypto sequence with
      | .error e => (w, w.codec.seals sequence, .error (.packet e))
      | .ok _ => (w, w.codec.seals sequence, sent)

/-- Validate, sequence, encode and write one media packet. -/
def sendMedia (w : Worker K) (streamType : UInt8) (payload : List UInt8)
    (sent : Except VoiceError Unit) : Worker K × List (Sealed K) × Except VoiceError Unit :=
  match w.codec.validateMedia streamType payload.length with
  | .error e => (w, [], .error (.packet e))
  | .ok () =>
      let channelSequence := w.channelSequences streamType
      match reserveTransportSequence w.transportSequence with
      | .error e => (w, [], .error e)
      | .ok (sequence, next) =>
          let w := { w with transportSequence := next }
          let sealed := w.codec.seals sequence
          match w.codec.encodeMedia crypto sequence channelSequence streamType payload with
          | .error e => (w, sealed, .error (.packet e))
          | .ok _ =>
              match sent with
              | .error e => (w, sealed, .error e)
              | .ok () =>
                  ({ w with channelSequences :=
                      Function.update w.channelSequences streamType (channelSequence + 1) },
                    sealed, .ok ())

/-- The send errors after which the worker stops. -/
def sendFatal : VoiceError → Bool
  | .transport _ | .sequenceExhausted => true
  | _ => false

/-- Authenticate, replay-check and project one datagram. -/
def handleInbound (w : Worker K) (datagram : List UInt8) : Worker K :=
  match w.codec.decodeServer crypto datagram with
  | .error _ => w
  | .ok packet =>
      match w.replay.accept packet.transportSeq with
      | (_, false) => w
      | (replay, true) =>
          let w := { w with replay := replay }
          match packet.control, packet.speakerId with
          | some .heartbeat, _ => w
          | some (.revocation reason), _ => w.finish (.revoked reason)
          | none, none => w
          | none, some speaker =>
              { w with media := w.media ++ [{
                  speakerId := speaker
                  streamType := packet.streamType
                  channelSeq := packet.channelSeq
                  transportSeq := packet.transportSeq
                  payload := packet.payload }] }

/-- The worker after a send: an error that `fatal` admits stops it. -/
def afterSend (fatal : VoiceError → Bool) :
    Worker K × List (Sealed K) × Except VoiceError Unit → Worker K × List (Sealed K)
  | (w, sealed, .ok ()) => (w, sealed)
  | (w, sealed, .error e) => (if fatal e then w.finish .disconnected else w, sealed)

/-- The first turn: the heartbeat that makes the session active. -/
def startup (w : Worker K) (sent : Except VoiceError Unit) : Worker K × List (Sealed K) :=
  match w.sendHeartbeat crypto sent with
  | (w, sealed, .ok ()) => ({ w with status := .active, started := some (.ok ()) }, sealed)
  | (w, sealed, .error e) => ({ w.finish .disconnected with started := some (.error e) }, sealed)

/-- A later turn. A pending stop request wins over a send. -/
def turn (w : Worker K) : WorkerInput → Option Termination → Option (Worker K × List (Sealed K))
  | .start _, _ => none
  | .tick _, some t => some (w.finish t.status, [])
  | .tick sent, none => some (afterSend (fun _ => true) (w.sendHeartbeat crypto sent))
  | .send _ _ _, some t => some (w.finish t.status, [])
  | .send streamType payload sent, none =>
      some (afterSend sendFatal (w.sendMedia crypto streamType payload sent))
  | .inbound datagram, _ => some (w.handleInbound crypto datagram, [])
  | .receiveError, _ => some (w.finish .disconnected, [])
  | .stop, some t => some (w.finish t.status, [])
  | .stop, none => none

/-- One turn of the worker. A terminal worker makes no turn. -/
def step (w : Worker K) (input : WorkerInput) : Option (Worker K × List (Sealed K)) :=
  if w.status.isTerminal then none
  else if w.status = .joining then
    match input with
    | .start sent => some (w.startup crypto sent)
    | _ => none
  else w.turn crypto input w.termination

/-- Ask a running worker to stop. -/
def requestTermination (w : Worker K) (t : Termination) : Worker K :=
  if w.status.isTerminal then w
  else
    { w with
      termination := some t
      status := match t with
        | .close | .disconnect => .disconnecting
        | .revoke _ => w.status }

/-! ## What a turn does -/

/-- A worker keeps its codec, and either seals nothing or seals one datagram
under the sequence it consumes. -/
def Advances (w w' : Worker K) (sealed : List (Sealed K)) : Prop :=
  w'.codec = w.codec ∧
    ((w'.transportSequence = w.transportSequence ∧ sealed = []) ∨
      (w.transportSequence ≠ U64_MAX ∧ w'.transportSequence = w.transportSequence + 1 ∧
        sealed = w.codec.seals w.transportSequence))

variable {crypto} {w w' : Worker K} {sealed : List (Sealed K)}

theorem Advances.refl (w : Worker K) : Advances w w [] := ⟨rfl, .inl ⟨rfl, rfl⟩⟩

/-- Stopping changes only the status. -/
theorem Advances.finish (h : Advances w w' sealed) (status : VoiceStatus) :
    Advances w (w'.finish status) sealed := h

theorem sendHeartbeat_advances (sent : Except VoiceError Unit) :
    Advances w (w.sendHeartbeat crypto sent).1 (w.sendHeartbeat crypto sent).2.1 := by
  unfold sendHeartbeat reserveTransportSequence
  by_cases hmax : w.transportSequence = U64_MAX
  · simpa [hmax] using Advances.refl w
  · simp only [hmax, if_false]
    cases w.codec.encodeHeartbeat crypto w.transportSequence <;>
      exact ⟨rfl, .inr ⟨hmax, rfl, rfl⟩⟩

theorem sendMedia_advances (streamType : UInt8) (payload : List UInt8)
    (sent : Except VoiceError Unit) :
    Advances w (w.sendMedia crypto streamType payload sent).1
      (w.sendMedia crypto streamType payload sent).2.1 := by
  unfold sendMedia reserveTransportSequence
  cases w.codec.validateMedia streamType payload.length with
  | error e => exact Advances.refl w
  | ok _ =>
      by_cases hmax : w.transportSequence = U64_MAX
      · simpa [hmax] using Advances.refl w
      · simp only [hmax, if_false]
        cases w.codec.encodeMedia crypto w.transportSequence (w.channelSequences streamType)
          streamType payload with
        | error e => exact ⟨rfl, .inr ⟨hmax, rfl, rfl⟩⟩
        | ok _ => cases sent <;> exact ⟨rfl, .inr ⟨hmax, rfl, rfl⟩⟩

theorem handleInbound_advances (datagram : List UInt8) :
    Advances w (w.handleInbound crypto datagram) [] := by
  refine ⟨?_, .inl ⟨?_, rfl⟩⟩
  all_goals
    unfold handleInbound
    split
    · rfl
    · split
      · rfl
      · dsimp only
        split <;> rfl

theorem afterSend_advances {fatal : VoiceError → Bool}
    {result : Worker K × List (Sealed K) × Except VoiceError Unit}
    (h : Advances w result.1 result.2.1) :
    Advances w (afterSend fatal result).1 (afterSend fatal result).2 := by
  obtain ⟨w', sealed, e | _⟩ := result
  · simp only [afterSend]
    split
    · exact h.finish _
    · exact h
  · exact h

theorem startup_advances (sent : Except VoiceError Unit) :
    Advances w (w.startup crypto sent).1 (w.startup crypto sent).2 := by
  have h : Advances w (w.sendHeartbeat crypto sent).1 (w.sendHeartbeat crypto sent).2.1 :=
    sendHeartbeat_advances sent
  unfold startup
  generalize w.sendHeartbeat crypto sent = result at h
  obtain ⟨w', sealed, e | _⟩ := result
  · exact h.finish .disconnected
  · exact h

theorem turn_advances {input : WorkerInput} {t : Option Termination}
    {next : Worker K × List (Sealed K)} (h : w.turn crypto input t = some next) :
    Advances w next.1 next.2 := by
  have hstop (status : VoiceStatus) : Advances w (w.finish status) [] :=
    (Advances.refl w).finish status
  unfold turn at h
  split at h
  case h_3 sent => cases h; exact afterSend_advances (sendHeartbeat_advances sent)
  case h_5 ty payload sent => cases h; exact afterSend_advances (sendMedia_advances ty payload sent)
  case h_6 datagram => cases h; exact handleInbound_advances datagram
  all_goals first | cases h; exact hstop _ | cases h

/-- **One turn of the worker** is made by a running worker, which then has sealed
at most one datagram, under a sequence it will not use again. -/
theorem step_spec {input : WorkerInput} {next : Worker K × List (Sealed K)}
    (h : w.step crypto input = some next) :
    w.status.isTerminal = false ∧ Advances w next.1 next.2 := by
  unfold step at h
  split at h
  · cases h
  case isFalse hrunning =>
    refine ⟨by simpa using hrunning, ?_⟩
    split at h
    · split at h
      · cases h; exact startup_advances _
      · cases h
    · exact turn_advances h

/-- A worker whose start failed has stopped. -/
def StartSettled (w : Worker K) : Prop :=
  ∀ e, w.started = some (.error e) → w.status.isTerminal = true

theorem startSettled_new (codec : PacketCodec K) : (new codec).StartSettled :=
  fun _ h => by cases h

theorem StartSettled.startup (sent : Except VoiceError Unit) :
    (w.startup crypto sent).1.StartSettled := by
  unfold Worker.startup
  split
  · intro e h
    cases h
  · intro e h
    simp [Worker.finish, VoiceStatus.isTerminal]

theorem sendHeartbeat_frame (sent : Except VoiceError Unit) :
    (w.sendHeartbeat crypto sent).1.started = w.started ∧
      (w.sendHeartbeat crypto sent).1.termination = w.termination := by
  unfold sendHeartbeat
  split
  · exact ⟨rfl, rfl⟩
  · dsimp only
    split <;> exact ⟨rfl, rfl⟩

theorem sendMedia_frame (streamType : UInt8) (payload : List UInt8)
    (sent : Except VoiceError Unit) :
    (w.sendMedia crypto streamType payload sent).1.started = w.started ∧
      (w.sendMedia crypto streamType payload sent).1.termination = w.termination := by
  unfold sendMedia
  split
  · exact ⟨rfl, rfl⟩
  · dsimp only
    split
    · exact ⟨rfl, rfl⟩
    · split
      · exact ⟨rfl, rfl⟩
      · split <;> exact ⟨rfl, rfl⟩

theorem handleInbound_frame (datagram : List UInt8) :
    (w.handleInbound crypto datagram).started = w.started ∧
      (w.handleInbound crypto datagram).termination = w.termination := by
  unfold handleInbound
  split
  · exact ⟨rfl, rfl⟩
  · split
    · exact ⟨rfl, rfl⟩
    · dsimp only
      split <;> exact ⟨rfl, rfl⟩

/-- A later turn keeps what the start reported and the stop request. -/
theorem turn_frame {input : WorkerInput} {t : Option Termination}
    {next : Worker K × List (Sealed K)} (h : w.turn crypto input t = some next) :
    next.1.started = w.started ∧ next.1.termination = w.termination := by
  have hsend {fatal : VoiceError → Bool}
      {result : Worker K × List (Sealed K) × Except VoiceError Unit}
      (hresult : result.1.started = w.started ∧ result.1.termination = w.termination) :
      (afterSend fatal result).1.started = w.started ∧
        (afterSend fatal result).1.termination = w.termination := by
    obtain ⟨w', sealed, e | _⟩ := result
    · simp only [afterSend]
      split <;> exact hresult
    · exact hresult
  unfold turn at h
  split at h
  case h_3 sent => cases h; exact hsend (sendHeartbeat_frame sent)
  case h_5 ty payload sent => cases h; exact hsend (sendMedia_frame ty payload sent)
  case h_6 datagram => cases h; exact handleInbound_frame datagram
  all_goals first | cases h; exact ⟨rfl, rfl⟩ | cases h

/-- A worker does not withdraw the request to stop. -/
theorem step_termination {input : WorkerInput} {next : Worker K × List (Sealed K)}
    (h : w.step crypto input = some next) : next.1.termination = w.termination := by
  unfold step at h
  split at h
  · cases h
  · split at h
    · split at h
      case h_1 sent =>
        cases h
        have hframe : (w.sendHeartbeat crypto sent).1.termination = w.termination :=
          (sendHeartbeat_frame sent).2
        unfold startup
        generalize w.sendHeartbeat crypto sent = result at hframe
        obtain ⟨w', sealed, e | _⟩ := result
        · exact hframe
        · exact hframe
      · cases h
    · exact (turn_frame h).2

theorem StartSettled.step (hs : w.StartSettled) {input : WorkerInput}
    {next : Worker K × List (Sealed K)} (h : w.step crypto input = some next) :
    next.1.StartSettled := by
  obtain ⟨hrunning, -⟩ := step_spec h
  unfold Worker.step at h
  split at h
  · cases h
  · split at h
    · split at h
      · cases h
        exact .startup _
      · cases h
    · intro e he
      rw [(turn_frame h).1] at he
      have hstopped := hs e he
      rw [hrunning] at hstopped
      cases hstopped

end Worker

end ZephyrVox.Voice
