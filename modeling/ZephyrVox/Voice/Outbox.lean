import ZephyrVox.Voice.Admission
import ZephyrVox.Voice.Outbound

/-!
# Sends of a session

The callers of `send`, the bounded queue of their commands and the worker that takes
them. A caller reads the status, validates, queues its command and awaits the answer;
callers and worker move in any interleaving, callers may be dropped while they wait,
and the worker may stop at any step with commands in its queue.

The number of a call stands for the channel on which the worker answers it; an answer
is dropped with the command it belongs to.

## Main definitions

* `SendCall`, `SendPc` — a call of `send` and where it is.
* `Outbox`, `Outbox.step` — the callers, the queue and the worker of a session.
* `Outbox.Accounted` — each command is in one place.
* `Outbox.Recorded` — each datagram belongs to a command.
-/

namespace ZephyrVox.Voice

open Transition

variable {K : Type}

/-! ## The callers, the queue and the worker -/

/-- Where a call of `send` is. -/
inductive SendPc
  /-- Before it reads the status. -/
  | checking
  /-- Before it queues its command. -/
  | admitted
  /-- It awaits the worker's answer. -/
  | waiting (response : Option (Except VoiceError Unit))
  | returned (result : Except VoiceError Unit)
  /-- Its caller dropped it. -/
  | dropped

/-- A call of `send`. -/
structure SendCall where
  command : SessionCommand
  pc : SendPc

/-- What a handle checks before it queues a command. -/
def SessionInner.check (inner : SessionInner) (status : VoiceStatus) (command : SessionCommand) :
    Except VoiceError Unit :=
  match status with
  | .active =>
      match validateMediaValues inner.allowedStreamTypes inner.maxPayload command.streamType
        command.payload.length with
      | .error e => .error (.packet e)
      | .ok () => .ok ()
  | .revoked reason => .error (.revoked reason)
  | .disconnected => .error .closed
  | .idle | .joining | .disconnecting => .error .notActive

/-- A send is its checks and then the attempt to queue its command. -/
theorem SessionInner.send_eq (inner : SessionInner) (status : VoiceStatus) (queue : CommandQueue)
    (command : SessionCommand) :
    inner.send status queue command.streamType command.payload =
      (inner.check status command).bind fun _ => queue.trySend command := by
  unfold send check
  cases status with
  | active =>
      cases validateMediaValues inner.allowedStreamTypes inner.maxPayload command.streamType
        command.payload.length <;> rfl
  | _ => rfl

/-- A session with the calls of `send` on its handles. -/
structure Outbox (K : Type) where
  sender : Sender K
  /-- Queued commands with their calls, oldest first. -/
  queue : List (ℕ × SessionCommand)
  /-- The worker dropped its end of the queue. -/
  closed : Bool
  /-- The call whose datagram is being written. -/
  current : Option ℕ
  calls : List SendCall
  /-- The calls whose commands were queued, oldest first. -/
  entered : List ℕ
  /-- Of these, the ones whose commands left the worker's hands. -/
  settled : List ℕ
  /-- Of these, the ones whose datagrams were written. -/
  log : List ℕ

/-- A step of a caller or of the worker. -/
inductive OutboxAction
  | call (command : SessionCommand)
  /-- A call reads the status and validates. -/
  | check (id : ℕ)
  | enqueue (id : ℕ)
  /-- A call sees the answer, or that there will be none. -/
  | resume (id : ℕ)
  | cancel (id : ℕ)
  /-- The worker takes a command from its queue. -/
  | take
  /-- Anything else that happens to the worker. -/
  | work (action : SenderAction)
  /-- The returned worker drops its end of the queue. -/
  | drop

namespace Outbox

/-- A new session without calls. -/
def new (codec : PacketCodec K) : Outbox K := ⟨.new codec, [], false, none, [], [], [], []⟩

/-- The calls whose commands are in the worker's hands, oldest first. -/
def held (s : Outbox K) : List ℕ := s.current.toList ++ s.queue.map Prod.fst

/-- Move a call. -/
def setPc (s : Outbox K) (id : ℕ) (pc : SendPc) : Outbox K :=
  { s with calls := s.calls.modify id fun call => { call with pc := pc } }

/-- The command of a call enters the queue. -/
def push (s : Outbox K) (id : ℕ) (command : SessionCommand) : Outbox K :=
  { s with
    calls := s.calls.modify id fun call => { call with pc := .waiting none }
    queue := s.queue ++ [(id, command)]
    entered := s.entered ++ [id] }

/-- The worker is done with the command of a call, and answers it unless it stopped. -/
def settle (s : Outbox K) (id : ℕ) (response : Option (Except VoiceError Unit)) : Outbox K :=
  { s with
    calls := s.calls.modify id fun call =>
      match call.pc, response with
      | .waiting _, some result => { call with pc := .waiting (some result) }
      | _, _ => call
    current := none
    settled := s.settled ++ [id]
    log := match response with
      | some (.ok ()) => s.log ++ [id]
      | _ => s.log }

/-- The worker made a step: a write that ended is answered, and a worker that returned
drops the answer it owes. -/
def worked (s : Outbox K) (action : SenderAction) (sender : Sender K) : Outbox K :=
  let s' : Outbox K := { s with sender := sender }
  match s.current, action with
  | none, _ => s'
  | some id, .complete (.ok ()) => s'.settle id (some (.ok ()))
  | some id, .complete (.error detail) => s'.settle id (some (.error (.transport detail)))
  | some id, _ =>
      match sender.phase with
      | .returned => s'.settle id none
      | _ => s'

variable (crypto : Crypto K) (inner : SessionInner)

/-- One step of the callers and the worker. -/
def step (s : Outbox K) : OutboxAction → Option (Outbox K)
  | .call command => some { s with calls := s.calls ++ [⟨command, .checking⟩] }
  | .check id =>
      match s.calls[id]? with
      | some ⟨command, .checking⟩ =>
          match inner.check s.sender.worker.status command with
          | .error e => some (s.setPc id (.returned (.error e)))
          | .ok () => some (s.setPc id .admitted)
      | _ => none
  | .enqueue id =>
      match s.calls[id]? with
      | some ⟨command, .admitted⟩ =>
          match (CommandQueue.mk (s.queue.map Prod.snd) s.closed).trySend command with
          | .error e => some (s.setPc id (.returned (.error e)))
          | .ok _ => some (s.push id command)
      | _ => none
  | .resume id =>
      match s.calls[id]? with
      | some ⟨_, .waiting (some response)⟩ => some (s.setPc id (.returned response))
      | some ⟨_, .waiting none⟩ =>
          if id ∈ s.held then none else some (s.setPc id (.returned (.error .closed)))
      | _ => none
  | .cancel id =>
      match s.calls[id]? with
      | some ⟨_, .checking⟩ | some ⟨_, .admitted⟩ | some ⟨_, .waiting _⟩ =>
          some (s.setPc id .dropped)
      | _ => none
  | .take =>
      match s.queue with
      | [] => none
      | (id, command) :: queue =>
          (s.sender.step crypto (.send command.streamType command.payload)).map fun sender =>
            let s' : Outbox K := { s with sender := sender, queue := queue, current := some id }
            match s.sender.worker.termination,
              (s.sender.worker.prepareMedia crypto command.streamType command.payload).2 with
            | some _, _ => s'.settle id none
            | none, .error e => s'.settle id (some (.error e))
            | none, .ok _ => s'
  | .work (.send _ _) => none
  | .work action => (s.sender.step crypto action).map fun sender => s.worked action sender
  | .drop =>
      match s.sender.phase with
      | .returned =>
          some { s with queue := [], closed := true, settled := s.settled ++ s.queue.map Prod.fst }
      | _ => none

end Outbox

/-! ## What the steps of the worker do -/

namespace Worker

variable {crypto : Crypto K} {w : Worker K} {streamType : UInt8} {payload : List UInt8}

/-- A prepared media packet encodes what it was prepared for. -/
theorem prepareMedia_ok {packet : Outgoing}
    (h : (w.prepareMedia crypto streamType payload).2 = .ok packet) :
    ∃ channelSeq, packet.media = some (streamType, channelSeq) ∧
      w.codec.encodeMedia crypto packet.transportSeq channelSeq streamType payload =
        .ok packet.datagram := by
  unfold prepareMedia at h
  cases hvalid : w.codec.validateMedia streamType payload.length with
  | error e => simp [hvalid] at h
  | ok _ =>
      cases hreserve : reserveTransportSequence w.transportSequence with
      | error e => simp [hvalid, hreserve] at h
      | ok reserved =>
          obtain ⟨sequence, next⟩ := reserved
          cases hencode : w.codec.encodeMedia crypto sequence (w.channelSequences streamType)
              streamType payload with
          | error e => simp [hvalid, hreserve, hencode] at h
          | ok datagram =>
              have hpacket : packet =
                  ⟨sequence, some (streamType, w.channelSequences streamType), datagram⟩ := by
                simpa [hvalid, hreserve, hencode] using h.symm
              rw [hpacket]
              exact ⟨_, rfl, hencode⟩

/-- A prepared heartbeat is no media. -/
theorem prepareHeartbeat_ok {packet : Outgoing}
    (h : (w.prepareHeartbeat crypto).2 = .ok packet) : packet.media = none := by
  unfold prepareHeartbeat at h
  cases hreserve : reserveTransportSequence w.transportSequence with
  | error e => simp [hreserve] at h
  | ok reserved =>
      obtain ⟨sequence, next⟩ := reserved
      cases hencode : w.codec.encodeHeartbeat crypto sequence with
      | error e => simp [hreserve, hencode] at h
      | ok datagram =>
          have hpacket : packet = ⟨sequence, none, datagram⟩ := by
            simpa [hreserve, hencode] using h.symm
          rw [hpacket]

end Worker

namespace Sender

variable {crypto : Crypto K} {s t : Sender K} {action : SenderAction}

theorem step_complete {sent : Except String Unit}
    (h : s.step crypto (.complete sent) = some t) :
    ∃ initial packet, s.phase = .writing initial packet ∧
      (sent = .ok () → t = s.wrote initial packet) ∧
      ∀ detail, sent = .error detail → t = s.fail initial (.transport detail) := by
  cases hphase : s.phase with
  | writing initial packet =>
      refine ⟨initial, packet, rfl, ?_, ?_⟩
      · rintro rfl
        simpa [step, hphase] using h.symm
      · rintro detail rfl
        simpa [step, hphase] using h.symm
  | unstarted | ready | returned => cases sent <;> simp [step, hphase] at h

theorem step_send {streamType : UInt8} {payload : List UInt8}
    (h : s.step crypto (.send streamType payload) = some t) :
    s.phase = .ready ∧ t = s.unlessStopped
      (s.awaitWrite false Worker.sendFatal (s.worker.prepareMedia crypto streamType payload)) := by
  cases hphase : s.phase with
  | ready => exact ⟨rfl, by simpa [step, hphase] using h.symm⟩
  | unstarted | writing | returned => simp [step, hphase] at h

/-- A step that neither takes a command nor ends a write: it writes nothing, and at most
begins a heartbeat. -/
structure Silent (s t : Sender K) : Prop where
  written : t.written = s.written
  phase : t.phase = s.phase ∨ t.phase = .returned ∨
    (s.pending = none ∧ s.phase ≠ .returned ∧
      ∃ packet, t.pending = some packet ∧ packet.media = none)

theorem silent_finish (status : VoiceStatus) : Silent s (s.finish status) := ⟨rfl, .inr (.inl rfl)⟩

theorem silent_awaitWrite (hpending : s.pending = none) (hphase : s.phase ≠ .returned)
    (initial : Bool) :
    Silent s (s.awaitWrite initial (fun _ => true) (s.worker.prepareHeartbeat crypto)) := by
  cases hresult : s.worker.prepareHeartbeat crypto with
  | mk w result =>
      cases result with
      | error e => exact ⟨rfl, .inr (.inl rfl)⟩
      | ok packet =>
          have hprepared : (s.worker.prepareHeartbeat crypto).2 = .ok packet := by rw [hresult]
          exact ⟨rfl, .inr (.inr ⟨hpending, hphase, packet, rfl,
            Worker.prepareHeartbeat_ok hprepared⟩)⟩

theorem silent_unlessStopped {next : Sender K} (h : Silent s next) :
    Silent s (s.unlessStopped next) := by
  unfold unlessStopped
  split
  · exact silent_finish _
  · exact h

theorem silent_of_stop (h : (s.worker.termination.map fun t => s.finish t.status) = some t) :
    Silent s t := by
  obtain ⟨termination, -, rfl⟩ := Option.map_eq_some_iff.mp h
  exact silent_finish _

theorem step_silent (h : s.step crypto action = some t)
    (hsend : ∀ streamType payload, action ≠ .send streamType payload)
    (hcomplete : ∀ sent, action ≠ .complete sent) : Silent s t := by
  unfold step at h
  split at h
  case h_1 hphase =>
    cases h
    exact silent_awaitWrite (by simp [pending, hphase]) (by simp [hphase]) _
  case h_2 => cases h; exact ⟨rfl, .inl rfl⟩
  case h_3 hphase =>
    cases h
    exact silent_unlessStopped
      (silent_awaitWrite (by simp [pending, hphase]) (by simp [hphase]) _)
  case h_4 streamType payload _ => exact absurd rfl (hsend streamType payload)
  case h_5 => exact silent_of_stop h
  case h_6 datagram hphase =>
    cases h
    refine ⟨rfl, ?_⟩
    simp only [handleInbound]
    split
    · exact .inl rfl
    · exact .inr (.inl rfl)
  case h_7 | h_8 => cases h; exact silent_finish _
  case h_9 | h_10 => exact absurd rfl (hcomplete _)
  case h_11 => exact silent_of_stop h
  case h_14 => cases h; exact ⟨rfl, .inl rfl⟩
  case h_16 => cases h; exact ⟨rfl, .inr (.inl rfl)⟩
  all_goals cases h

end Sender

/-! ## Where each command is -/

namespace Outbox

variable {crypto : Crypto K} {codec : PacketCodec K} {inner : SessionInner} {s t : Outbox K}
  {id : ℕ} {action : OutboxAction}

/-- What is known of a call, from where it is. -/
def Fits (s : Outbox K) (id : ℕ) : SendPc → Prop
  | .checking | .admitted => id ∉ s.entered
  | .waiting none => id ∈ s.held ∨ (id ∉ s.log ∧ s.sender.phase = .returned)
  | .waiting (some response) => id ∈ s.settled ∧ (response = .ok () ↔ id ∈ s.log)
  | .returned result => id ∉ s.held ∧ (result = .ok () ↔ id ∈ s.log)
  | .dropped => True

/-- **Every command is in one place**: its call has not queued it, the worker has it in
hand, or the worker is done with it. -/
structure Accounted (s : Outbox K) : Prop where
  entered_eq : s.entered = s.settled ++ s.held
  nodup : s.entered.Nodup
  log_sublist : s.log.Sublist s.settled
  called : ∀ id ∈ s.entered, id < s.calls.length
  fits : ∀ id call, s.calls[id]? = some call → s.Fits id call.pc
  closed : s.closed = true → s.sender.phase = .returned ∧ s.queue = []

theorem accounted_new (codec : PacketCodec K) : (new codec).Accounted where
  entered_eq := rfl
  nodup := List.nodup_nil
  log_sublist := List.Sublist.refl _
  called id h := by cases h
  fits id call h := by simp [new] at h
  closed h := by cases h

theorem Accounted.not_settled (A : s.Accounted) (h : id ∈ s.held) : id ∉ s.settled := by
  have hnodup := A.nodup
  rw [A.entered_eq] at hnodup
  exact fun hsettled => (List.nodup_append'.mp hnodup).2.2 hsettled h

theorem Accounted.not_written (A : s.Accounted) (h : id ∈ s.held) : id ∉ s.log :=
  fun hlog => A.not_settled h (A.log_sublist.subset hlog)

theorem Accounted.mem_entered_of_held (A : s.Accounted) (h : id ∈ s.held) : id ∈ s.entered := by
  rw [A.entered_eq]
  exact List.mem_append_right _ h

/-- A call whose command is in the worker's hands awaits the answer, or was dropped. -/
theorem Accounted.pc_of_held (A : s.Accounted) (h : id ∈ s.held) {call : SendCall}
    (hcall : s.calls[id]? = some call) : call.pc = .waiting none ∨ call.pc = .dropped := by
  have hfits := A.fits id call hcall
  cases hpc : call.pc with
  | checking | admitted =>
      rw [hpc] at hfits
      exact absurd (A.mem_entered_of_held h) hfits
  | waiting response =>
      rw [hpc] at hfits
      cases response with
      | none => exact .inl rfl
      | some response => exact absurd hfits.1 (A.not_settled h)
  | returned result =>
      rw [hpc] at hfits
      exact absurd h hfits.1
  | dropped => exact .inr rfl

/-- What is known of a call stays so where the worker keeps its command or lets go of
it for good, and its answer stays the same. -/
theorem Fits.mono {pc : SendPc} (h : s.Fits id pc) (hentered : id ∈ t.entered → id ∈ s.entered)
    (hheld : id ∈ t.held → id ∈ s.held) (hkept : id ∈ s.held → t.Fits id (.waiting none))
    (hsettled : id ∈ s.settled → id ∈ t.settled) (hlog : id ∈ t.log ↔ id ∈ s.log)
    (hphase : s.sender.phase = .returned → t.sender.phase = .returned) : t.Fits id pc := by
  cases pc with
  | checking | admitted => exact fun hmem => h (hentered hmem)
  | waiting response =>
      cases response with
      | none =>
          rcases h with hmem | ⟨hnot, hreturned⟩
          · exact hkept hmem
          · exact .inr ⟨fun hmem => hnot (hlog.mp hmem), hphase hreturned⟩
      | some response => exact ⟨hsettled h.1, h.2.trans hlog.symm⟩
  | returned result => exact ⟨fun hmem => h.1 (hheld hmem), h.2.trans hlog.symm⟩
  | dropped => trivial

/-- A call moves to where it fits. -/
theorem Accounted.setPc (A : s.Accounted) {pc : SendPc} (hfits : s.Fits id pc) :
    (s.setPc id pc).Accounted where
  entered_eq := A.entered_eq
  nodup := A.nodup
  log_sublist := A.log_sublist
  called other h := by simpa [Outbox.setPc] using A.called other h
  fits other call h := by
    simp only [Outbox.setPc, List.getElem?_modify, Option.map_eq_map, Option.map_eq_some_iff] at h
    obtain ⟨call', hcall', heq⟩ := h
    split at heq
    case isTrue hsame =>
      subst hsame
      rw [← heq]
      exact hfits
    case isFalse =>
      rw [← heq]
      exact A.fits other call' hcall'
  closed := A.closed

/-- A new call has queued nothing. -/
theorem Accounted.call (A : s.Accounted) (command : SessionCommand) :
    Accounted { s with calls := s.calls ++ [⟨command, .checking⟩] } where
  entered_eq := A.entered_eq
  nodup := A.nodup
  log_sublist := A.log_sublist
  called other h := by
    have := A.called other h
    simp only [List.length_append, List.length_singleton]
    omega
  fits other call h := by
    rw [List.getElem?_append] at h
    split at h
    · exact A.fits other call h
    case isFalse hlast =>
      rw [List.mem_singleton.mp (List.mem_of_getElem? h)]
      exact fun hentered => hlast (A.called other hentered)
  closed := A.closed

/-- A command enters the queue behind the others. -/
theorem Accounted.push (A : s.Accounted) {call : SendCall} (command : SessionCommand)
    (hcall : s.calls[id]? = some call) (hnew : id ∉ s.entered) (hopen : s.closed = false) :
    (s.push id command).Accounted := by
  have hheld : (s.push id command).held = s.held ++ [id] := by simp [held, Outbox.push]
  refine ⟨?_, ?_, A.log_sublist, ?_, ?_, ?_⟩
  · change s.entered ++ [id] = s.settled ++ (s.push id command).held
    rw [hheld, ← List.append_assoc, ← A.entered_eq]
  · refine List.nodup_append'.mpr ⟨A.nodup, List.nodup_singleton id, ?_⟩
    intro other hold hlast
    rw [List.mem_singleton.mp hlast] at hold
    exact hnew hold
  · intro other h
    have hlength := (List.getElem?_eq_some_iff.mp hcall).1
    simp only [Outbox.push, List.length_modify]
    rcases List.mem_append.mp h with hold | hlast
    · exact A.called other hold
    · rw [List.mem_singleton.mp hlast]
      exact hlength
  · intro other call' h
    simp only [Outbox.push, List.getElem?_modify, Option.map_eq_map, Option.map_eq_some_iff] at h
    obtain ⟨old, hold, heq⟩ := h
    split at heq
    case isTrue hsame =>
      subst hsame
      rw [← heq]
      refine .inl ?_
      rw [hheld]
      exact List.mem_append_right _ (List.mem_singleton_self _)
    case isFalse hother =>
      rw [← heq]
      have hne : other ≠ id := fun h => hother h.symm
      refine (A.fits other old hold).mono ?_ ?_ ?_ (fun h => h) Iff.rfl fun h => h
      · simp [Outbox.push, hne]
      · simp [hheld, hne]
      · intro hmem
        refine .inl ?_
        rw [hheld]
        exact List.mem_append_left _ hmem
  · intro h
    rw [show s.closed = true from h] at hopen
    cases hopen

/-- The worker's own steps move no command. -/
theorem Accounted.sender (A : s.Accounted) {sender : Sender K}
    (h : s.sender.phase = .returned → sender.phase = .returned) :
    Accounted { s with sender := sender } where
  entered_eq := A.entered_eq
  nodup := A.nodup
  log_sublist := A.log_sublist
  called := A.called
  fits id call hcall :=
    (A.fits id call hcall).mono (fun h => h) (fun h => h) .inl (fun h => h) Iff.rfl h
  closed hclosed := ⟨h (A.closed hclosed).1, (A.closed hclosed).2⟩

/-- A worker without a command takes the first one in hand. -/
theorem Accounted.take (A : s.Accounted) {command : SessionCommand}
    {queue : List (ℕ × SessionCommand)} (hcurrent : s.current = none)
    (hqueue : s.queue = (id, command) :: queue) :
    Accounted { s with queue := queue, current := some id } := by
  have hheld : held { s with queue := queue, current := some id } = s.held := by
    simp [held, hcurrent, hqueue]
  refine ⟨?_, A.nodup, A.log_sublist, A.called, ?_, ?_⟩
  · rw [hheld]
    exact A.entered_eq
  · intro other call hcall
    refine (A.fits other call hcall).mono (fun h => h) ?_ ?_ (fun h => h) Iff.rfl fun h => h
    · rw [hheld]
      exact fun h => h
    · intro hmem
      refine .inl ?_
      rw [hheld]
      exact hmem
  · intro hclosed
    have := (A.closed hclosed).2
    rw [hqueue] at this
    cases this

theorem held_of_current (h : s.current = some id) : s.held = id :: s.queue.map Prod.fst := by
  simp [held, h]

theorem mem_log_settle {response : Option (Except VoiceError Unit)} (other : ℕ) :
    other ∈ (s.settle id response).log ↔
      other ∈ s.log ∨ (other = id ∧ response = some (.ok ())) := by
  rcases response with _ | _ | ⟨⟨⟩⟩ <;> simp [Outbox.settle]

/-- The worker is done with the command it had in hand. Without an answer it has
returned. -/
theorem Accounted.settle (A : s.Accounted) (hcurrent : s.current = some id)
    (response : Option (Except VoiceError Unit))
    (hstopped : response = none → s.sender.phase = .returned) :
    (s.settle id response).Accounted := by
  have hheld := held_of_current hcurrent
  have hhand : id ∈ s.held := by
    rw [hheld]
    exact List.mem_cons_self
  have hrest : ∀ other, other ≠ id → (other ∈ s.held ↔ other ∈ (s.settle id response).held) := by
    intro other hne
    rw [hheld]
    simp [held, Outbox.settle, hne]
  refine ⟨?_, A.nodup, ?_, ?_, ?_, A.closed⟩
  · refine A.entered_eq.trans ?_
    rw [hheld]
    simp [held, Outbox.settle]
  · rcases response with _ | _ | ⟨⟨⟩⟩
    · exact A.log_sublist.trans (List.sublist_append_left _ _)
    · exact A.log_sublist.trans (List.sublist_append_left _ _)
    · exact A.log_sublist.append (List.Sublist.refl _)
  · intro other h
    simpa [Outbox.settle] using A.called other h
  · intro other call hcall
    simp only [Outbox.settle, List.getElem?_modify, Option.map_eq_map,
      Option.map_eq_some_iff] at hcall
    obtain ⟨old, hold, heq⟩ := hcall
    split at heq
    case isTrue hsame =>
      subst hsame
      rcases A.pc_of_held hhand hold with hpc | hpc
      · rw [hpc] at heq
        cases response with
        | none =>
            rw [← heq, hpc]
            refine .inr ⟨?_, hstopped rfl⟩
            rw [mem_log_settle]
            rintro (hlog | ⟨-, hanswer⟩)
            · exact A.not_written hhand hlog
            · cases hanswer
        | some result =>
            rw [← heq]
            refine ⟨List.mem_append_right _ (List.mem_singleton_self id), ?_⟩
            rw [mem_log_settle]
            simp [A.not_written hhand]
      · rw [hpc] at heq
        rw [← heq, hpc]
        trivial
    case isFalse hother =>
      have hne : other ≠ id := fun h => hother h.symm
      have hlog : other ∈ (s.settle id response).log ↔ other ∈ s.log := by
        rw [mem_log_settle]
        simp [hne]
      rw [← heq]
      exact (A.fits other old hold).mono (fun h => h) (hrest other hne).mpr
        (fun h => .inl ((hrest other hne).mp h)) (fun h => List.mem_append_left _ h) hlog
        fun h => h

/-- A returned worker lets go of its queue. -/
theorem Accounted.drop (A : s.Accounted) (hcurrent : s.current = none)
    (hphase : s.sender.phase = .returned) :
    Accounted { s with
      queue := [], closed := true, settled := s.settled ++ s.queue.map Prod.fst } := by
  have hheld : s.held = s.queue.map Prod.fst := by simp [held, hcurrent]
  have hempty : held { s with
      queue := [], closed := true, settled := s.settled ++ s.queue.map Prod.fst } = [] := by
    simp [held, hcurrent]
  refine ⟨?_, A.nodup, A.log_sublist.trans (List.sublist_append_left _ _), A.called, ?_, ?_⟩
  · rw [hempty, List.append_nil, ← hheld]
    exact A.entered_eq
  · intro other call hcall
    refine (A.fits other call hcall).mono (fun h => h) ?_ ?_
      (fun h => List.mem_append_left _ h) Iff.rfl fun _ => hphase
    · rw [hempty]
      exact fun h => absurd h List.not_mem_nil
    · exact fun hmem => .inr ⟨A.not_written hmem, hphase⟩
  · exact fun _ => ⟨hphase, rfl⟩

/-! ## What is written for each command -/

/-- A datagram is the media of a call. -/
def Carries (crypto : Crypto K) (codec : PacketCodec K) (calls : List SendCall) (id : ℕ)
    (packet : Outgoing) : Prop :=
  ∃ call channelSeq, calls[id]? = some call ∧
    packet.media = some (call.command.streamType, channelSeq) ∧
    codec.encodeMedia crypto packet.transportSeq channelSeq call.command.streamType
      call.command.payload = .ok packet.datagram

/-- The datagrams of media, oldest first. -/
def media (s : Outbox K) : List Outgoing :=
  s.sender.written.filter fun packet => packet.media.isSome

/-- The pending write is the datagram of the command in hand, or a heartbeat. -/
def Writing (crypto : Crypto K) (codec : PacketCodec K) (s : Outbox K) : Prop :=
  match s.sender.pending, s.current with
  | some packet, some id => Carries crypto codec s.calls id packet
  | some packet, none => packet.media = none
  | none, current => current = none

/-- The datagrams written are those of the logged calls, one for each. -/
structure Recorded (crypto : Crypto K) (codec : PacketCodec K) (s : Outbox K) : Prop where
  codec_eq : s.sender.worker.codec = codec
  queued : ∀ entry ∈ s.queue, ∃ call, s.calls[entry.1]? = some call ∧ call.command = entry.2
  writing : s.Writing crypto codec
  written : List.Forall₂ (Carries crypto codec s.calls) s.log s.media

/-- The calls are still there, with their commands. -/
def Extends (calls calls' : List SendCall) : Prop :=
  ∀ (id : ℕ) (call : SendCall), calls[id]? = some call → ∃ call' : SendCall,
    calls'[id]? = some call' ∧ call'.command = call.command

theorem Carries.mono {calls calls' : List SendCall} {packet : Outgoing}
    (h : Carries crypto codec calls id packet) (hcalls : Extends calls calls') :
    Carries crypto codec calls' id packet := by
  obtain ⟨call, channelSeq, hcall, hmedia, hencode⟩ := h
  obtain ⟨call', hcall', hcommand⟩ := hcalls id call hcall
  exact ⟨call', channelSeq, hcall', hcommand ▸ hmedia, hcommand ▸ hencode⟩

theorem Writing.mono {calls : List SendCall} (h : s.Writing crypto codec)
    (hcalls : Extends s.calls calls) : Writing crypto codec { s with calls := calls } := by
  unfold Writing at h ⊢
  cases hpending : s.sender.pending with
  | none => simpa only [hpending] using h
  | some packet =>
      cases hcurrent : s.current with
      | none => simpa only [hpending, hcurrent] using h
      | some id =>
          simp only [hpending, hcurrent] at h ⊢
          exact h.mono hcalls

theorem Recorded.mono {calls : List SendCall} (R : s.Recorded crypto codec)
    (hcalls : Extends s.calls calls) : Recorded crypto codec { s with calls := calls } where
  codec_eq := R.codec_eq
  queued entry hentry := by
    obtain ⟨call, hcall, hcommand⟩ := R.queued entry hentry
    obtain ⟨call', hcall', hcommand'⟩ := hcalls entry.1 call hcall
    exact ⟨call', hcall', hcommand'.trans hcommand⟩
  writing := R.writing.mono hcalls
  written := R.written.imp fun _ _ h => h.mono hcalls

/-- Calls that keep their commands are extended. -/
theorem extends_modify (calls : List SendCall) (id : ℕ) {f : SendCall → SendCall}
    (hf : ∀ call, (f call).command = call.command) : Extends calls (calls.modify id f) := by
  intro other call hcall
  by_cases hsame : id = other
  · exact ⟨f call, by simp [hcall, hsame], hf call⟩
  · exact ⟨call, by simp [hcall, hsame], rfl⟩

theorem recorded_new (codec : PacketCodec K) : (new codec).Recorded crypto codec where
  codec_eq := rfl
  queued entry h := by cases h
  writing := rfl
  written := .nil

theorem Recorded.setPc (R : s.Recorded crypto codec) (id : ℕ) (pc : SendPc) :
    (s.setPc id pc).Recorded crypto codec := R.mono (extends_modify _ id fun _ => rfl)

theorem Recorded.call (R : s.Recorded crypto codec) (command : SessionCommand) :
    Recorded crypto codec { s with calls := s.calls ++ [⟨command, .checking⟩] } :=
  R.mono fun id call hcall => ⟨call, by
    rw [List.getElem?_append_left (List.getElem?_eq_some_iff.mp hcall).1]
    exact ⟨hcall, rfl⟩⟩

theorem Recorded.push (R : s.Recorded crypto codec) {command : SessionCommand} {pc : SendPc}
    (hcall : s.calls[id]? = some ⟨command, pc⟩) : (s.push id command).Recorded crypto codec := by
  have R' := R.mono (extends_modify s.calls id (f := fun call =>
    { call with pc := .waiting none }) fun _ => rfl)
  refine ⟨R'.codec_eq, ?_, R'.writing, R'.written⟩
  intro entry hentry
  rcases List.mem_append.mp hentry with hold | hlast
  · exact R'.queued entry hold
  · rw [List.mem_singleton.mp hlast]
    exact ⟨⟨command, .waiting none⟩, by simp [Outbox.push, hcall], rfl⟩

theorem Recorded.drop (R : s.Recorded crypto codec) :
    Recorded crypto codec { s with
      queue := [], closed := true, settled := s.settled ++ s.queue.map Prod.fst } where
  codec_eq := R.codec_eq
  queued entry h := by cases h
  writing := R.writing
  written := R.written

/-- A command without a written datagram is settled: nothing is pending any more. -/
theorem Recorded.settle (R : s.Recorded crypto codec) {sender : Sender K}
    {queue : List (ℕ × SessionCommand)} {current : Option ℕ}
    (hcodec : sender.worker.codec = codec) (hqueue : queue ⊆ s.queue)
    (hpending : sender.pending = none) (hwritten : sender.written = s.sender.written)
    {response : Option (Except VoiceError Unit)} (hresponse : response ≠ some (.ok ())) :
    (Outbox.settle { s with sender := sender, queue := queue, current := current } id
      response).Recorded crypto codec := by
  have hextends : Extends s.calls (Outbox.settle
      { s with sender := sender, queue := queue, current := current } id response).calls := by
    refine extends_modify s.calls id fun call => ?_
    rcases call with ⟨command, _ | _ | _ | _ | _⟩ <;> cases response <;> rfl
  refine ⟨hcodec, ?_, ?_, ?_⟩
  · intro entry hentry
    obtain ⟨call, hcall, hcommand⟩ := R.queued entry (hqueue hentry)
    obtain ⟨call', hcall', hcommand'⟩ := hextends entry.1 call hcall
    exact ⟨call', hcall', hcommand'.trans hcommand⟩
  · simp only [Writing, Outbox.settle, hpending]
  · have hlog : (Outbox.settle { s with sender := sender, queue := queue, current := current } id
        response).log = s.log := by
      rcases response with _ | _ | ⟨⟨⟩⟩
      · rfl
      · rfl
      · exact absurd rfl hresponse
    have hmedia : (Outbox.settle { s with sender := sender, queue := queue, current := current } id
        response).media = s.media := by
      simp only [media, Outbox.settle, hwritten]
    rw [hlog, hmedia]
    exact R.written.imp fun _ _ h => h.mono hextends

/-- The write of the datagram in hand ended. -/
theorem Recorded.wrote (R : s.Recorded crypto codec) {initial : Bool} {packet : Outgoing}
    (hphase : s.sender.phase = .writing initial packet) (hcurrent : s.current = some id)
    (hcodec : (s.sender.wrote initial packet).worker.codec = codec) :
    (Outbox.settle { s with sender := s.sender.wrote initial packet } id
      (some (.ok ()))).Recorded crypto codec := by
  have hcarries : Carries crypto codec s.calls id packet := by
    have hwriting := R.writing
    simpa only [Writing, Sender.pending, hphase, hcurrent] using hwriting
  have hextends : Extends s.calls (Outbox.settle
      { s with sender := s.sender.wrote initial packet } id (some (.ok ()))).calls := by
    refine extends_modify s.calls id fun call => ?_
    rcases call with ⟨command, _ | _ | _ | _ | _⟩ <;> rfl
  have hmedia : (Outbox.settle { s with sender := s.sender.wrote initial packet } id
      (some (.ok ()))).media = s.media ++ [packet] := by
    obtain ⟨call, channelSeq, -, hsome, -⟩ := hcarries
    simp [media, Outbox.settle, Sender.wrote, List.filter_append, hsome]
  refine ⟨hcodec, ?_, rfl, ?_⟩
  · intro entry hentry
    obtain ⟨call, hcall, hcommand⟩ := R.queued entry hentry
    obtain ⟨call', hcall', hcommand'⟩ := hextends entry.1 call hcall
    exact ⟨call', hcall', hcommand'.trans hcommand⟩
  · rw [hmedia]
    exact List.rel_append (R.written.imp fun _ _ h => h.mono hextends)
      (.cons (hcarries.mono hextends) .nil)

/-- Without a command in hand the worker writes heartbeats only. -/
theorem Recorded.wrote_heartbeat (R : s.Recorded crypto codec) {initial : Bool}
    {packet : Outgoing} (hphase : s.sender.phase = .writing initial packet)
    (hcurrent : s.current = none)
    (hcodec : (s.sender.wrote initial packet).worker.codec = codec) :
    Recorded crypto codec { s with sender := s.sender.wrote initial packet } := by
  have hheartbeat : packet.media = none := by
    have hwriting := R.writing
    simpa only [Writing, Sender.pending, hphase, hcurrent] using hwriting
  have hmedia : media { s with sender := s.sender.wrote initial packet } = s.media := by
    simp [media, Sender.wrote, List.filter_append, hheartbeat]
  refine ⟨hcodec, R.queued, ?_, ?_⟩
  · simp only [Writing, Sender.pending, Sender.wrote, hcurrent]
  · rw [hmedia]
    exact R.written

end Outbox

end ZephyrVox.Voice
