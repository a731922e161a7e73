import ZephyrVox.Voice.Outbox

/-!
# Answers of `send`

In every interleaving of the callers of `send` and the worker of their session no
command is lost and none is written twice: a call that returned succeeded exactly if
its datagram was written, the datagrams written are those of the queued commands, in
the order in which these were queued, and a call that waits can return.

## Main definitions

* `Outbox.Sound` — each command is in one place, and each datagram belongs to one.
* `Outbox.Sound.step` — every step of a caller or of the worker keeps this.
* `Outbox.Waits`, `Outbox.left` — waiting calls, and how long they wait at most.
* `sends_answered` — what a call may rely on.
-/

namespace ZephyrVox.Voice

open Transition

variable {K : Type}

namespace Outbox

variable {crypto : Crypto K} {codec : PacketCodec K} {inner : SessionInner} {s t : Outbox K}
  {id : ℕ} {action : OutboxAction}

/-! ## Every step -/

/-- Each command is in one place, and each datagram belongs to one. -/
structure Sound (crypto : Crypto K) (codec : PacketCodec K) (s : Outbox K) : Prop where
  accounted : s.Accounted
  recorded : s.Recorded crypto codec

theorem sound_new (codec : PacketCodec K) : (new codec).Sound crypto codec :=
  ⟨accounted_new codec, recorded_new codec⟩

/-- A call that has queued nothing wrote nothing. -/
theorem Accounted.fits_refused (A : s.Accounted) (h : id ∉ s.entered) (e : VoiceError) :
    s.Fits id (.returned (.error e)) := by
  rw [A.entered_eq, List.mem_append, not_or] at h
  have hlog : id ∉ s.log := fun hlog => h.1 (A.log_sublist.subset hlog)
  exact ⟨h.2, by simp [hlog]⟩

theorem Writing.current_of_pending (h : s.Writing crypto codec)
    (hpending : s.sender.pending = none) : s.current = none := by
  unfold Writing at h
  rw [hpending] at h
  cases hcurrent : s.current with
  | none => rfl
  | some id => rw [hcurrent] at h; cases h

theorem Sound.check (S : s.Sound crypto codec) (h : s.step crypto inner (.check id) = some t) :
    t.Sound crypto codec := by
  simp only [Outbox.step] at h
  split at h
  case h_1 command hcall =>
    have hnew : id ∉ s.entered := S.accounted.fits id _ hcall
    split at h
    · cases h
      exact ⟨S.accounted.setPc (S.accounted.fits_refused hnew _), S.recorded.setPc _ _⟩
    · cases h
      exact ⟨S.accounted.setPc hnew, S.recorded.setPc _ _⟩
  case h_2 => cases h

theorem Sound.enqueue (S : s.Sound crypto codec)
    (h : s.step crypto inner (.enqueue id) = some t) : t.Sound crypto codec := by
  simp only [Outbox.step] at h
  split at h
  case h_1 command hcall =>
    have hnew : id ∉ s.entered := S.accounted.fits id _ hcall
    split at h
    · cases h
      exact ⟨S.accounted.setPc (S.accounted.fits_refused hnew _), S.recorded.setPc _ _⟩
    case h_2 queue hqueued =>
      cases h
      have hopen : s.closed = false := by
        cases hclosed : s.closed with
        | false => rfl
        | true => simp [CommandQueue.trySend, hclosed] at hqueued
      exact ⟨S.accounted.push command hcall hnew hopen, S.recorded.push hcall⟩
  case h_2 => cases h

theorem Sound.resume (S : s.Sound crypto codec) (h : s.step crypto inner (.resume id) = some t) :
    t.Sound crypto codec := by
  simp only [Outbox.step] at h
  split at h
  case h_1 command response hcall =>
    cases h
    obtain ⟨hsettled, hanswer⟩ : id ∈ s.settled ∧ (response = .ok () ↔ id ∈ s.log) :=
      S.accounted.fits id _ hcall
    have hheld : id ∉ s.held := fun hheld => S.accounted.not_settled hheld hsettled
    exact ⟨S.accounted.setPc ⟨hheld, hanswer⟩, S.recorded.setPc _ _⟩
  case h_2 command hcall =>
    split at h
    · cases h
    case isFalse hheld =>
      cases h
      obtain hheld' | ⟨hlog, -⟩ : id ∈ s.held ∨ (id ∉ s.log ∧ s.sender.phase = .returned) :=
        S.accounted.fits id _ hcall
      · exact absurd hheld' hheld
      · have hfits : s.Fits id (.returned (.error .closed)) := ⟨hheld, by simp [hlog]⟩
        exact ⟨S.accounted.setPc hfits, S.recorded.setPc _ _⟩
  case h_3 => cases h

theorem Sound.cancel (S : s.Sound crypto codec) (h : s.step crypto inner (.cancel id) = some t) :
    t.Sound crypto codec := by
  have hdropped : (s.setPc id .dropped).Sound crypto codec :=
    ⟨S.accounted.setPc trivial, S.recorded.setPc _ _⟩
  simp only [Outbox.step] at h
  split at h
  case h_4 => cases h
  all_goals
    cases h
    exact hdropped

/-- The worker takes a command: it stops, fails it, or prepares its datagram. -/
theorem Sound.take (S : s.Sound crypto codec) (h : s.step crypto inner .take = some t) :
    t.Sound crypto codec := by
  simp only [Outbox.step] at h
  split at h
  · cases h
  case h_2 id command queue hqueue =>
    obtain ⟨sender, hsender, rfl⟩ := Option.map_eq_some_iff.mp h
    obtain ⟨hphase, hstep⟩ := Sender.step_send hsender
    have hcodec : sender.worker.codec = codec :=
      (Sender.step_effect hsender).1.trans S.recorded.codec_eq
    have hcurrent : s.current = none :=
      S.recorded.writing.current_of_pending (by simp [Sender.pending, hphase])
    have htaken : Accounted { s with sender := sender, queue := queue, current := some id } :=
      (S.accounted.take hcurrent hqueue).sender fun hreturned => by
        rw [show s.sender.phase = .ready from hphase] at hreturned
        cases hreturned
    have htail : queue ⊆ s.queue := by
      rw [hqueue]
      exact List.subset_cons_self _ _
    cases htermination : s.sender.worker.termination with
    | some termination =>
        have hfinish : sender = s.sender.finish termination.status := by
          rw [hstep, Sender.unlessStopped, htermination]
        simp only
        refine ⟨htaken.settle rfl none fun _ => ?_, S.recorded.settle hcodec htail ?_ ?_ ?_⟩
        · simp [hfinish, Sender.finish]
        · simp [hfinish, Sender.finish, Sender.pending]
        · simp [hfinish, Sender.finish]
        · simp
    | none =>
        rw [Sender.unlessStopped, htermination] at hstep
        cases hresult : s.sender.worker.prepareMedia crypto command.streamType
          command.payload with
        | mk w result =>
            rw [hresult] at hstep
            cases result with
            | error e =>
                have hquiet : sender.pending = none ∧ sender.written = s.sender.written := by
                  rw [hstep]
                  simp only [Sender.awaitWrite]
                  split <;> simp [Sender.fail, Sender.pending, hphase]
                simp only
                exact ⟨htaken.settle rfl (some (.error e)) (by simp),
                  S.recorded.settle hcodec htail hquiet.1 hquiet.2 (by simp)⟩
            | ok packet =>
                simp only
                refine ⟨htaken, hcodec, fun entry hentry => S.recorded.queued entry (htail hentry),
                  ?_, ?_⟩
                · obtain ⟨call, hcall, hcommand⟩ := S.recorded.queued (id, command) (by
                    rw [hqueue]
                    exact List.mem_cons_self)
                  have hprepared : (s.sender.worker.prepareMedia crypto command.streamType
                      command.payload).2 = .ok packet := by rw [hresult]
                  obtain ⟨channelSeq, hmedia, hencode⟩ := Worker.prepareMedia_ok hprepared
                  have hcommand' : call.command = command := hcommand
                  simp only [Writing, Sender.pending, hstep, Sender.awaitWrite]
                  refine ⟨call, channelSeq, hcall, ?_, ?_⟩
                  · rw [hcommand']
                    exact hmedia
                  · rw [hcommand', ← S.recorded.codec_eq]
                    exact hencode
                · have hwritten : media { s with
                      sender := sender, queue := queue, current := some id } = s.media := by
                    simp [media, hstep, Sender.awaitWrite]
                  rw [hwritten]
                  exact S.recorded.written

theorem step_work {action : SenderAction} (h : s.step crypto inner (.work action) = some t) :
    (∀ streamType payload, action ≠ .send streamType payload) ∧
      ∃ sender, s.sender.step crypto action = some sender ∧ t = s.worked action sender := by
  cases action with
  | send => cases h
  | _ =>
      obtain ⟨sender, hsender, rfl⟩ := Option.map_eq_some_iff.mp h
      exact ⟨nofun, sender, hsender, rfl⟩

/-- The worker begins a heartbeat, or nothing is pending that was not. -/
theorem Sound.silent (S : s.Sound crypto codec) {action : SenderAction} {sender : Sender K}
    (hcodec : sender.worker.codec = codec) (hsilent : s.sender.Silent sender)
    (hcomplete : ∀ sent, action ≠ .complete sent) :
    (s.worked action sender).Sound crypto codec := by
  have hreturned : s.sender.phase = .returned → sender.phase = .returned := by
    intro h
    rcases hsilent.phase with hsame | hreturned | ⟨-, hne, -⟩
    · rw [hsame, h]
    · exact hreturned
    · exact absurd h hne
  have hmedia : media { s with sender := sender } = s.media := by
    simp [media, hsilent.written]
  have hkept : s.Writing crypto codec → sender.phase = s.sender.phase →
      Writing crypto codec { s with sender := sender } := by
    intro hwriting hsame
    simpa only [Writing, Sender.pending, hsame] using hwriting
  have hsender : Writing crypto codec { s with sender := sender } →
      Sound crypto codec { s with sender := sender } := by
    intro hwriting
    refine ⟨S.accounted.sender hreturned, hcodec, S.recorded.queued, hwriting, ?_⟩
    rw [hmedia]
    exact S.recorded.written
  cases hcurrent : s.current with
  | none =>
      have hworked : s.worked action sender = { s with sender := sender } := by
        simp [worked, hcurrent]
      rw [hworked]
      refine hsender ?_
      rcases hsilent.phase with hsame | hreturned | ⟨-, -, packet, hpending, hheartbeat⟩
      · exact hkept S.recorded.writing hsame
      · simp [Writing, Sender.pending, hreturned, hcurrent]
      · simp [Writing, hpending, hcurrent, hheartbeat]
  | some id =>
      have hworked : s.worked action sender =
          if sender.phase = .returned then Outbox.settle { s with sender := sender } id none
          else { s with sender := sender } := by
        cases action with
        | complete sent => exact absurd rfl (hcomplete sent)
        | _ => cases hphase : sender.phase <;> simp [worked, hcurrent, hphase]
      rw [hworked]
      split
      case isTrue hphase =>
        exact ⟨(S.accounted.sender hreturned).settle hcurrent none fun _ => hphase,
          S.recorded.settle hcodec (List.Subset.refl _) (by simp [Sender.pending, hphase])
            hsilent.written (by simp)⟩
      case isFalse hphase =>
        refine hsender ?_
        rcases hsilent.phase with hsame | hreturned | ⟨hpending, -⟩
        · exact hkept S.recorded.writing hsame
        · exact absurd hreturned hphase
        · rw [S.recorded.writing.current_of_pending hpending] at hcurrent
          cases hcurrent

/-- A write ended: it was a heartbeat, or the datagram of the command in hand. -/
theorem Sound.complete (S : s.Sound crypto codec) {sent : Except String Unit} {sender : Sender K}
    (h : s.sender.step crypto (.complete sent) = some sender) :
    (s.worked (.complete sent) sender).Sound crypto codec := by
  have hcodec : sender.worker.codec = codec :=
    (Sender.step_effect h).1.trans S.recorded.codec_eq
  obtain ⟨initial, packet, hphase, hwrote, hfail⟩ := Sender.step_complete h
  have hrunning : s.sender.phase ≠ .returned := by simp [hphase]
  have hkept : Accounted { s with sender := sender } :=
    S.accounted.sender fun hreturned => absurd hreturned hrunning
  have hheartbeat : s.current = none → s.worked (.complete sent) sender =
      { s with sender := sender } := fun hcurrent => by simp [worked, hcurrent]
  cases sent with
  | ok done =>
      obtain rfl := hwrote rfl
      cases hcurrent : s.current with
      | none =>
          rw [hheartbeat hcurrent]
          exact ⟨hkept, S.recorded.wrote_heartbeat hphase hcurrent hcodec⟩
      | some id =>
          have hanswered : s.worked (.complete (.ok done)) (s.sender.wrote initial packet) =
              Outbox.settle { s with sender := s.sender.wrote initial packet } id
                (some (.ok ())) := by
            simp [worked, hcurrent]
          rw [hanswered]
          exact ⟨hkept.settle hcurrent _ (by simp), S.recorded.wrote hphase hcurrent hcodec⟩
  | error detail =>
      obtain rfl := hfail detail rfl
      cases hcurrent : s.current with
      | none =>
          rw [hheartbeat hcurrent]
          refine ⟨hkept, hcodec, S.recorded.queued, ?_, S.recorded.written⟩
          simp [Writing, Sender.pending, Sender.fail, hcurrent]
      | some id =>
          have hanswered : s.worked (.complete (.error detail))
              (s.sender.fail initial (.transport detail)) =
              Outbox.settle { s with sender := s.sender.fail initial (.transport detail) } id
                (some (.error (.transport detail))) := by
            simp [worked, hcurrent]
          rw [hanswered]
          exact ⟨hkept.settle hcurrent _ (by simp),
            S.recorded.settle hcodec (List.Subset.refl _) rfl rfl (by simp)⟩

/-- **Every step keeps each command in its place.** -/
theorem Sound.step (S : s.Sound crypto codec) (h : s.step crypto inner action = some t) :
    t.Sound crypto codec := by
  cases action with
  | call command => cases h; exact ⟨S.accounted.call command, S.recorded.call command⟩
  | check id => exact S.check h
  | enqueue id => exact S.enqueue h
  | resume id => exact S.resume h
  | cancel id => exact S.cancel h
  | take => exact S.take h
  | work action =>
      obtain ⟨hsend, sender, hsender, rfl⟩ := step_work h
      by_cases hcomplete : ∃ sent, action = .complete sent
      · obtain ⟨sent, rfl⟩ := hcomplete
        exact S.complete hsender
      · have hother : ∀ sent, action ≠ .complete sent := fun sent heq => hcomplete ⟨sent, heq⟩
        exact S.silent ((Sender.step_effect hsender).1.trans S.recorded.codec_eq)
          (Sender.step_silent hsender hsend hother) hother
  | drop =>
      simp only [Outbox.step] at h
      split at h
      case h_1 hphase =>
        cases h
        have hcurrent : s.current = none :=
          S.recorded.writing.current_of_pending (by simp [Sender.pending, hphase])
        exact ⟨S.accounted.drop hcurrent hphase, S.recorded.drop⟩
      case h_2 => cases h

theorem sound_exec {actions : List OutboxAction}
    (h : exec (Outbox.step crypto inner) (new codec) actions = some t) : t.Sound crypto codec := by
  have hrun : ∀ (actions : List OutboxAction) (s : Outbox K), s.Sound crypto codec →
      exec (Outbox.step crypto inner) s actions = some t → t.Sound crypto codec := by
    intro actions
    induction actions with
    | nil => intro s S h; cases h; exact S
    | cons action actions ih =>
        intro s S h
        obtain ⟨next, hnext, hrest⟩ := Option.bind_eq_some_iff.mp h
        exact ih next (S.step hnext) hrest
  exact hrun actions _ (sound_new codec) h

/-! ## Waiting calls -/

/-- How far a worker is from its next command. -/
def phaseLeft : SenderPhase → ℕ
  | .unstarted => 3
  | .writing _ _ => 2
  | .ready => 1
  | .returned => 0

/-- The steps the worker can make before its queue is empty, at most. -/
def left (s : Outbox K) : ℕ := 3 * s.queue.length + phaseLeft s.sender.phase

/-- A call awaits its answer, or has it. -/
def Waits (s : Outbox K) (id : ℕ) : Prop :=
  ∃ command response, s.calls[id]? = some ⟨command, .waiting response⟩

/-- The steps by which a call comes to return. -/
def Serves (id : ℕ) (action : OutboxAction) : Prop :=
  action ∈ [.take, .work .start, .work (.complete (.ok ())), .drop, .resume id]

theorem Waits.settle (h : s.Waits id) (other : ℕ) (response : Option (Except VoiceError Unit)) :
    (s.settle other response).Waits id := by
  obtain ⟨command, earlier, hcall⟩ := h
  by_cases hsame : other = id
  · cases response with
    | none => exact ⟨command, earlier, by simp [Outbox.settle, hcall, hsame]⟩
    | some result => exact ⟨command, some result, by simp [Outbox.settle, hcall, hsame]⟩
  · exact ⟨command, earlier, by simp [Outbox.settle, hcall, hsame]⟩

/-- The worker's own steps leave the queue and let no call go. -/
theorem worked_spec (id : ℕ) (action : SenderAction) (sender : Sender K) :
    (s.worked action sender).queue = s.queue ∧ (s.worked action sender).sender = sender ∧
      (s.Waits id → (s.worked action sender).Waits id) := by
  simp only [worked]
  split
  · exact ⟨rfl, rfl, fun h => h⟩
  · exact ⟨rfl, rfl, fun h => Waits.settle (s := { s with sender := sender }) h _ _⟩
  · exact ⟨rfl, rfl, fun h => Waits.settle (s := { s with sender := sender }) h _ _⟩
  · split
    · exact ⟨rfl, rfl, fun h => Waits.settle (s := { s with sender := sender }) h _ _⟩
    · exact ⟨rfl, rfl, fun h => h⟩

theorem phaseLeft_le (phase : SenderPhase) : phaseLeft phase ≤ 3 := by
  cases phase <;> simp [phaseLeft]

/-- A worker with a command in hand or in its queue can move towards the next one. -/
theorem Sound.worker_moves (S : s.Sound crypto codec) (inner : SessionInner)
    (hheld : id ∈ s.held) (hwaits : s.Waits id) :
    ∃ action t, Serves id action ∧ s.step crypto inner action = some t ∧ t.left < s.left ∧
      t.Waits id := by
  cases hphase : s.sender.phase with
  | unstarted =>
      obtain ⟨hqueue, hsender, hkept⟩ := s.worked_spec id .start
        (s.sender.awaitWrite true (fun _ => true) (s.sender.worker.prepareHeartbeat crypto))
      refine ⟨.work .start, _, by simp [Serves], ?_, ?_, hkept hwaits⟩
      · simp [Outbox.step, Sender.step, hphase]
      · rw [left, left, hqueue, hsender, hphase]
        refine Nat.add_lt_add_left ?_ _
        rcases s.sender.worker.prepareHeartbeat crypto with ⟨w, e | packet⟩ <;>
          simp [Sender.awaitWrite, Sender.fail, phaseLeft]
  | ready =>
      have hcurrent : s.current = none :=
        S.recorded.writing.current_of_pending (by simp [Sender.pending, hphase])
      cases hqueue : s.queue with
      | nil => simp [held, hcurrent, hqueue] at hheld
      | cons entry queue =>
          obtain ⟨other, command⟩ := entry
          obtain ⟨sender, hsender⟩ : ∃ sender, s.sender.step crypto
              (.send command.streamType command.payload) = some sender := by
            simp [Sender.step, hphase]
          let taken : Outbox K := { s with sender := sender, queue := queue, current := some other }
          have hwaits' : taken.Waits id := hwaits
          have hleft : 3 * queue.length + phaseLeft sender.phase < s.left := by
            have hle := phaseLeft_le sender.phase
            have hready : phaseLeft .ready = 1 := rfl
            rw [left, hqueue, hphase, hready, List.length_cons]
            omega
          cases htermination : s.sender.worker.termination with
          | some termination =>
              refine ⟨.take, taken.settle other none, by simp [Serves], ?_, hleft,
                hwaits'.settle other none⟩
              simp [Outbox.step, hqueue, hsender, htermination, taken]
          | none =>
              cases hresult : (s.sender.worker.prepareMedia crypto command.streamType
                command.payload).2 with
              | error e =>
                  refine ⟨.take, taken.settle other (some (.error e)), by simp [Serves], ?_, hleft,
                    hwaits'.settle other (some (.error e))⟩
                  simp [Outbox.step, hqueue, hsender, htermination, hresult, taken]
              | ok packet =>
                  refine ⟨.take, taken, by simp [Serves], ?_, hleft, hwaits'⟩
                  simp [Outbox.step, hqueue, hsender, htermination, hresult, taken]
  | writing initial packet =>
      obtain ⟨hqueue, hsender, hkept⟩ := s.worked_spec id (.complete (.ok ()))
        (s.sender.wrote initial packet)
      refine ⟨.work (.complete (.ok ())), _, by simp [Serves], ?_, ?_, hkept hwaits⟩
      · simp [Outbox.step, Sender.step, hphase]
      · rw [left, left, hqueue, hsender, hphase]
        exact Nat.add_lt_add_left (by simp [Sender.wrote, phaseLeft]) _
  | returned =>
      have hcurrent : s.current = none :=
        S.recorded.writing.current_of_pending (by simp [Sender.pending, hphase])
      have hqueue : 0 < s.queue.length := by
        cases hqueue : s.queue with
        | nil => simp [held, hcurrent, hqueue] at hheld
        | cons entry queue => exact Nat.succ_pos _
      refine ⟨.drop, { s with
        queue := [], closed := true, settled := s.settled ++ s.queue.map Prod.fst },
        by simp [Serves], by simp [Outbox.step, hphase], ?_, hwaits⟩
      simp only [left, hphase, phaseLeft, List.length_nil]
      omega

/-- **A waiting call can return**, by steps of the worker and its own. -/
theorem Sound.returns (S : s.Sound crypto codec) (hwaits : s.Waits id) :
    ∃ actions, (∀ action ∈ actions, Serves id action) ∧ ∃ t,
      exec (Outbox.step crypto inner) s actions = some t ∧ ∃ call result,
        t.calls[id]? = some call ∧ call.pc = .returned result := by
  induction hleft : s.left using Nat.strong_induction_on generalizing s with
  | _ n ih =>
      subst hleft
      have hresume : ∀ result command response, s.calls[id]? = some ⟨command, .waiting response⟩ →
          s.step crypto inner (.resume id) = some (s.setPc id (.returned result)) →
          ∃ actions, (∀ action ∈ actions, Serves id action) ∧ ∃ t,
            exec (Outbox.step crypto inner) s actions = some t ∧ ∃ call result,
              t.calls[id]? = some call ∧ call.pc = .returned result := by
        intro result command response hcall hstep
        refine ⟨[.resume id], by simp [Serves], s.setPc id (.returned result), ?_,
          ⟨command, .returned result⟩, result, ?_, rfl⟩
        · simp [hstep]
        · simp [Outbox.setPc, hcall]
      obtain ⟨command, response, hcall⟩ := hwaits
      cases response with
      | some result => exact hresume result command _ hcall (by simp [Outbox.step, hcall])
      | none =>
          by_cases hheld : id ∈ s.held
          · obtain ⟨action, t, hserves, hstep, hless, hwaits'⟩ :=
              S.worker_moves inner hheld ⟨command, none, hcall⟩
            obtain ⟨actions, hall, u, hu, hreturned⟩ := ih t.left hless (S.step hstep) hwaits' rfl
            refine ⟨action :: actions, ?_, u, ?_, hreturned⟩
            · intro other hmem
              rcases List.mem_cons.mp hmem with rfl | hmem
              · exact hserves
              · exact hall other hmem
            · simp [hstep, hu]
          · exact hresume (.error .closed) command _ hcall (by simp [Outbox.step, hcall, hheld])

end Outbox

/-- **What a call of `send` may rely on.** In every interleaving of callers and worker:
a call that returned succeeded exactly if its datagram was written; the datagrams of
media are those of the logged calls, one for each, with the stream and the payload of
the call, in the order in which the commands were queued; and a call that waits can
return, by steps of the worker and its own, whatever was queued before it. -/
theorem sends_answered (crypto : Crypto K) (codec : PacketCodec K) (inner : SessionInner)
    (actions : List OutboxAction) (s : Outbox K)
    (h : exec (Outbox.step crypto inner) (Outbox.new codec) actions = some s) :
    (∀ id call result, s.calls[id]? = some call → call.pc = .returned result →
      (result = .ok () ↔ id ∈ s.log)) ∧
    List.Forall₂ (Outbox.Carries crypto codec s.calls) s.log s.media ∧
    s.log.Nodup ∧ s.log.Sublist s.entered ∧
    ∀ id, s.Waits id → ∃ more, (∀ action ∈ more, Outbox.Serves id action) ∧ ∃ t,
      exec (Outbox.step crypto inner) s more = some t ∧ ∃ call result,
        t.calls[id]? = some call ∧ call.pc = .returned result := by
  have S : s.Sound crypto codec := Outbox.sound_exec h
  have hentered : s.log.Sublist s.entered := by
    rw [S.accounted.entered_eq]
    exact S.accounted.log_sublist.trans (List.sublist_append_left _ _)
  refine ⟨?_, S.recorded.written, S.accounted.nodup.sublist hentered, hentered,
    fun id hwaits => S.returns hwaits⟩
  intro id call result hcall hpc
  have hfits := S.accounted.fits id call hcall
  rw [hpc] at hfits
  exact hfits.2

/-- Two calls that overtake each other; the second command is in hand when the session
is closed. -/
def overtakingSends : List OutboxAction :=
  [.work .start, .work (.complete (.ok ())), .call ⟨1, [7]⟩, .call ⟨1, [8]⟩, .check 0, .check 1,
    .enqueue 1, .enqueue 0, .take, .work (.complete (.ok ())), .take, .work (.request .close),
    .work .interrupt, .resume 1]

/-- Whether a call still waits. -/
def SendCall.isWaiting (call : SendCall) : Bool :=
  match call.pc with
  | .waiting _ => true
  | _ => false

theorem sends_answered_overtaking :
    ∃ s, exec (Outbox.step taggedCrypto (.start sampleVoiceConfig sampleCodec))
        (Outbox.new sampleCodec) overtakingSends = some s ∧
      s.entered = [1, 0] ∧ s.log = [1] ∧ s.media.length = 1 ∧
      ∃ more t, exec (Outbox.step taggedCrypto (.start sampleVoiceConfig sampleCodec)) s more =
        some t ∧ ∃ call result, t.calls[0]? = some call ∧ call.pc = .returned result := by
  have hrun : ((exec (Outbox.step taggedCrypto (.start sampleVoiceConfig sampleCodec))
      (Outbox.new sampleCodec) overtakingSends).any fun s =>
        decide (s.entered = [1, 0] ∧ s.log = [1]) && (s.calls[0]?).any SendCall.isWaiting) =
      true := by
    decide
  obtain ⟨s, hs, hresult⟩ := (Option.any_eq_true _ _).mp hrun
  obtain ⟨hlists, hwaiting⟩ := Bool.and_eq_true_iff.mp hresult
  obtain ⟨hentered, hlog⟩ := of_decide_eq_true hlists
  obtain ⟨⟨command, pc⟩, hcall, hpc⟩ := (Option.any_eq_true _ _).mp hwaiting
  have hwaits : s.Waits 0 := by
    cases pc with
    | waiting response => exact ⟨command, response, hcall⟩
    | _ => cases hpc
  obtain ⟨-, hmedia, -, -, hreturns⟩ := sends_answered taggedCrypto sampleCodec
    (.start sampleVoiceConfig sampleCodec) overtakingSends s hs
  obtain ⟨more, -, t, ht, hreturned⟩ := hreturns 0 hwaits
  have hlength := hmedia.length_eq
  rw [hlog] at hlength
  exact ⟨s, hs, hentered, hlog, hlength.symm, more, t, ht, hreturned⟩

end ZephyrVox.Voice
