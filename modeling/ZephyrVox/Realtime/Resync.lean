import ZephyrVox.Realtime.LiveBarrier

/-!
# Resynchronization with frames in flight

The socket is a FIFO: the server answers each `sync.hello` in order, with any
number of `sync.replay` frames and one `sync.complete`, and interleaves live
events as it likes. Neither answer names the hello it belongs to, so the client
judges a frame by its own phase alone. When a frame is refused while an answer
is still outstanding, the client sends a second hello, takes the completion of
the first for that of the second, and ends the socket when the second arrives.

`Orderly` is the condition under which this cannot happen: what arrives while a
hello is unanswered is accepted. It speaks of the frame and of the state before
it only.

## Main definitions

* `InFlight V`, `Link V` — a socket and the frames the server has sent to it.
* `Link.step` — the server sends, or the client processes the oldest frame.
* `Link.Tolerated` — no phase error and no completion taken for a later hello.
* `Orderly` — the frames of an open handoff are acceptable.
-/

namespace ZephyrVox.Realtime

open Transition SyncMachine

variable {V : Type}

/-- A server frame in flight, with the number of the hello it answers. -/
inductive InFlight (V : Type)
  | replay (hello : ℕ) (batch : SyncReplay V)
  | complete (hello : ℕ) (completion : SyncComplete)
  | live (event : StateEvent V)

/-- The frame as the client parses it. -/
def InFlight.frame : InFlight V → ServerFrame V
  | .replay _ batch => .syncReplay batch
  | .complete _ completion => .syncComplete completion
  | .live event => .stateEvent event

/-- Outcomes of the snapshot provider and of the hello write. Their errors are
their own: neither can report an error of the synchronization machine. -/
structure LinkEnv extends FrameEnv where
  snapshot_ne : ∀ e, snapshot ≠ .error (.sync e)
  send_ne : ∀ e, send ≠ .error (.sync e)

/-- One socket and the frames on their way to it. -/
structure Link (V : Type) where
  socket : Socket V
  /-- The error that ended the socket. -/
  ended : Option RealtimeError
  inFlight : List (InFlight V)
  /-- The number of hellos the server has completed. -/
  answered : ℕ
  /-- Whether the completion of an earlier hello has replaced the store cursor
  of a later snapshot. -/
  overwritten : Bool

/-- What the server or the client does next. -/
inductive LinkAction (V : Type)
  | sendReplay (replay : SyncReplay V)
  | sendComplete (complete : SyncComplete)
  | sendLive (event : StateEvent V)
  | deliver (io : LinkEnv)

/-- The frame completes a hello after which another was sent, and the machine
accepts it, so the store cursor of the later snapshot is replaced. -/
def InFlight.overwrites (s : Socket V) : InFlight V → Bool
  | .complete hello completion =>
      hello + 1 < s.hellos.length && (s.machine.acceptComplete completion).2.isOk
  | _ => false

namespace Link

/-- A socket that has just sent its first hello. -/
def start (s : Socket V) (ready : ConnectionReady) : Link V where
  socket := s.openSocket ready
  ended := none
  inFlight := []
  answered := s.hellos.length
  overwritten := false

/-- The server answers the oldest hello it has not completed. -/
def step (serde : Serde V) (r : Link V) : LinkAction V → Option (Link V)
  | .sendReplay replay =>
      if r.answered < r.socket.hellos.length then
        some { r with inFlight := r.inFlight ++ [.replay r.answered replay] }
      else none
  | .sendComplete complete =>
      if r.answered < r.socket.hellos.length then
        some { r with
          inFlight := r.inFlight ++ [.complete r.answered complete]
          answered := r.answered + 1 }
      else none
  | .sendLive event => some { r with inFlight := r.inFlight ++ [.live event] }
  | .deliver io =>
      match r.ended, r.inFlight with
      | none, f :: rest =>
          let processed := r.socket.processFrame serde io.toFrameEnv f.frame
          some { r with
            socket := processed.1
            ended := match processed.2 with
              | .ok () => none
              | .error e => some e
            inFlight := rest
            overwritten := r.overwritten || f.overwrites r.socket }
      | _, _ => none

/-- The socket was not ended by a phase error, and no completion was taken for
that of a later hello. -/
def Tolerated (r : Link V) : Prop :=
  (∀ detail, r.ended ≠ some (.sync (.invalidPhase detail))) ∧ r.overwritten = false

end Link

/-! ## The frames an open handoff accepts -/

/-- A live event that fits the queue and advances the boundary. -/
def Queueable (serde : Serde V) (m : SyncMachine V) (event : StateEvent V) : Prop :=
  m.geid < event.geid ∧ m.queuedLive.length < maxQueuedLiveEvents ∧
    ∃ bytes, serde.encodedLength event = some bytes ∧
      m.queuedLiveBytes + bytes ≤ maxQueuedLiveBytes

/-- The announced bounds of a replay batch are those of its events; an empty
batch stands at the boundary. -/
def Bounded (m : SyncMachine V) (replay : SyncReplay V) : Prop :=
  (replay.events = [] ∧ replay.fromGeid = replay.toGeid ∧ replay.fromGeid = m.geid) ∨
    (replay.events.head?.map StateEvent.geid = some replay.fromGeid ∧
      replay.events.getLast?.map StateEvent.geid = some replay.toGeid)

/-- A replay batch with true bounds that continues the boundary and projects on
the installed state. -/
def Continues (serde : Serde V) (s : Socket V) (replay : SyncReplay V) : Prop :=
  Bounded s.machine replay ∧ (∃ geid, Ascends s.machine.geid replay.events geid) ∧
    ∃ state, replay.events.foldlM (StateStore.project serde) s.store.state = .ok state

/-- The frames an open handoff takes without starting another. -/
def InFlight.Acceptable (serde : Serde V) (s : Socket V) : InFlight V → Prop
  | .live event => Queueable serde s.machine event
  | .replay _ batch => Continues serde s batch
  | .complete _ _ => True

/-- What arrives while a hello is unanswered is acceptable. -/
def Orderly (serde : Serde V) (r : Link V) : LinkAction V → Prop
  | .deliver _ =>
      r.socket.machine.phase = .syncing →
        ∀ f ∈ r.inFlight.head?, f.Acceptable serde r.socket
  | _ => True

/-! ## What one frame does to the handoff -/

/-- Another hello was sent. -/
structure NextHello (s s' : Socket V) : Prop where
  phase : s'.machine.phase = .syncing
  hellos : s'.hellos.length = s.hellos.length + 1

/-- The result is not a phase error. -/
def Benign {α : Type} (result : Except RealtimeError α) : Prop :=
  ∀ detail, result ≠ .error (.sync (.invalidPhase detail))

theorem replaceSnapshotAndHello_benign {s : Socket V} (hs : Resyncable s) (io : LinkEnv)
    (reason : String) :
    Benign (s.replaceSnapshotAndHello io.toFrameEnv reason).2 ∧
      ((s.replaceSnapshotAndHello io.toFrameEnv reason).2 = .ok () →
        NextHello s (s.replaceSnapshotAndHello io.toFrameEnv reason).1) := by
  unfold Socket.replaceSnapshotAndHello
  rw [requireSnapshot_of_resyncable hs]
  cases hsnap : io.snapshot with
  | error e =>
      refine ⟨?_, fun h => by cases h⟩
      intro detail h
      cases h
      exact io.snapshot_ne _ hsnap
  | ok snapshot =>
      simp only [SyncMachine.beginSync, SyncMachine.replaceSnapshot, if_true]
      refine ⟨fun detail h => io.send_ne _ h, fun _ => ⟨rfl, ?_⟩⟩
      simp

/-- Recovering from an error of the machine sends another hello or ends the
socket for an error of the provider or the transport. -/
theorem recoverSyncError_benign {s : Socket V} (hs : Resyncable s) (io : LinkEnv)
    (error : SyncError) (hr : Socket.recoverable error = true) :
    Benign (s.recoverSyncError io.toFrameEnv error).2 ∧
      ((s.recoverSyncError io.toFrameEnv error).2 = .ok () →
        NextHello s (s.recoverSyncError io.toFrameEnv error).1) := by
  unfold Socket.recoverSyncError
  rw [if_pos hr]
  have h := replaceSnapshotAndHello_benign (s := s.publish (.syncRequired
    ("state synchronization requires snapshot: " ++ error.display))) hs io
    ("state synchronization requires snapshot: " ++ error.display)
  exact ⟨h.1, fun hok => ⟨(h.2 hok).phase, (h.2 hok).hellos⟩⟩

/-- Applying one event keeps the handoff, sends another hello, or ends the
socket for an error of the provider or the transport. -/
theorem applyOrResync_benign (serde : Serde V) {s : Socket V} (hs : Resyncable s)
    (io : LinkEnv) (event : StateEvent V) :
    ((s.applyOrResync serde io.toFrameEnv event).2 = .ok true ∧
        (s.applyOrResync serde io.toFrameEnv event).1.machine = s.machine ∧
        (s.applyOrResync serde io.toFrameEnv event).1.hellos = s.hellos) ∨
      ((s.applyOrResync serde io.toFrameEnv event).2 ≠ .ok true ∧
        Benign (s.applyOrResync serde io.toFrameEnv event).2 ∧
        ((s.applyOrResync serde io.toFrameEnv event).2 = .ok false →
          NextHello s (s.applyOrResync serde io.toFrameEnv event).1)) := by
  unfold Socket.applyOrResync
  cases ha : s.store.applyEvent serde event with
  | ok store => exact .inl ⟨rfl, rfl, rfl⟩
  | error error =>
      have h := replaceSnapshotAndHello_benign
        (s := s.publish (.syncRequired (Socket.rejectReason error))) hs io
        (Socket.rejectReason error)
      revert h
      simp only
      cases Socket.replaceSnapshotAndHello io.toFrameEnv
          (s.publish (.syncRequired (Socket.rejectReason error)))
          (Socket.rejectReason error) with
      | mk t result =>
          intro h
          refine .inr ?_
          cases result with
          | ok _ =>
              refine ⟨by simp, (fun d hd => by cases hd), fun _ => ?_⟩
              exact ⟨(h.2 rfl).phase, (h.2 rfl).hellos⟩
          | error e =>
              refine ⟨by simp, fun d hd => h.1 d ?_, fun hf => by cases hf⟩
              cases hd
              rfl

theorem applyAll_benign (serde : Serde V) (io : LinkEnv) (events : List (StateEvent V))
    {s : Socket V} (hs : Resyncable s) :
    ((s.applyAll serde io.toFrameEnv events).2 = .ok true ∧
        (s.applyAll serde io.toFrameEnv events).1.machine = s.machine ∧
        (s.applyAll serde io.toFrameEnv events).1.hellos = s.hellos) ∨
      ((s.applyAll serde io.toFrameEnv events).2 ≠ .ok true ∧
        Benign (s.applyAll serde io.toFrameEnv events).2 ∧
        ((s.applyAll serde io.toFrameEnv events).2 = .ok false →
          NextHello s (s.applyAll serde io.toFrameEnv events).1)) := by
  induction events generalizing s with
  | nil => exact .inl ⟨rfl, rfl, rfl⟩
  | cons event rest ih =>
      have h := applyOrResync_benign serde hs io event
      unfold Socket.applyAll
      revert h
      cases s.applyOrResync serde io.toFrameEnv event with
      | mk t result =>
          intro h
          rcases h with ⟨hok, hm, hh⟩ | ⟨hne, hb, hn⟩
          · simp only at hok hm hh
            subst hok
            have ht : Resyncable t := by unfold Resyncable; rw [hm]; exact hs
            rcases ih ht with ⟨h1, h2, h3⟩ | ⟨h1, h2, h3⟩
            · exact .inl ⟨h1, h2.trans hm, h3.trans hh⟩
            · refine .inr ⟨h1, h2, fun hf => ⟨(h3 hf).phase, ?_⟩⟩
              rw [← hh]
              exact (h3 hf).hellos
          · cases result with
            | error e => exact .inr ⟨hne, hb, hn⟩
            | ok applied =>
                cases applied with
                | true => exact absurd rfl hne
                | false => exact .inr ⟨hne, hb, hn⟩

/-- A batch that projects on the installed state is applied whole. -/
theorem applyAll_of_projects {serde : Serde V} (io : FrameEnv) (events : List (StateEvent V))
    {s : Socket V} {state : ClientState}
    (h : events.foldlM (StateStore.project serde) s.store.state = .ok state) :
    (s.applyAll serde io events).2 = .ok true ∧
      (s.applyAll serde io events).1.machine = s.machine ∧
      (s.applyAll serde io events).1.hellos = s.hellos := by
  induction events generalizing s with
  | nil => exact ⟨rfl, rfl, rfl⟩
  | cons event rest ih =>
      rw [List.foldlM_cons] at h
      cases hp : StateStore.project serde s.store.state event with
      | error e => simp [hp, bind, Except.bind] at h
      | ok next =>
          simp only [hp, bind, Except.bind] at h
          have ha : s.store.applyEvent serde event = .ok { s.store with
              state := next
              published := next
              events := s.store.events.send event } := by
            simp [StateStore.applyEvent, hp, bind, Except.bind, pure, Except.pure]
          simp only [Socket.applyAll, Socket.applyOrResync, ha]
          exact ih h

theorem acceptLiveEvent_of_queueable {serde : Serde V} {m : SyncMachine V}
    {event : StateEvent V} (hp : m.phase = .syncing) (h : Queueable serde m event) :
    ∃ m', m.acceptLiveEvent serde event = (m', .ok none) ∧ m'.phase = .syncing := by
  obtain ⟨hlt, hlen, bytes, hbytes, hfit⟩ := h
  have hfull : ¬ (m.queuedLive.length ≥ maxQueuedLiveEvents ∨
      m.queuedLiveBytes + bytes > maxQueuedLiveBytes) := by omega
  refine ⟨{ m with
    phase := .syncing
    cursor := event.cursor
    geid := event.geid
    queuedLive := m.queuedLive ++ [event]
    queuedLiveBytes := m.queuedLiveBytes + bytes }, ?_, rfl⟩
  simp only [SyncMachine.acceptLiveEvent, hp, hbytes, hfull, if_false,
    SyncMachine.acceptOrderedEvent, Nat.not_le.mpr hlt]

theorem acceptOrderedEvents_of_ascends {m : SyncMachine V} {events : List (StateEvent V)}
    {geid : Geid} (h : Ascends m.geid events geid) :
    (m.acceptOrderedEvents events).2 = .ok () := by
  induction events generalizing m with
  | nil => rfl
  | cons event rest ih =>
      simp only [SyncMachine.acceptOrderedEvents, SyncMachine.acceptOrderedEvent,
        Nat.not_le.mpr h.1, if_false]
      exact ih h.2

theorem acceptReplay_of_continues {m : SyncMachine V} {replay : SyncReplay V} {geid : Geid}
    (hp : m.phase = .syncing) (hb : Bounded m replay) (ha : Ascends m.geid replay.events geid) :
    ∃ m', m.acceptReplay replay = (m', .ok ()) ∧ m'.phase = .syncing := by
  have hok : (m.acceptReplay replay).2 = .ok () := by
    unfold SyncMachine.acceptReplay
    rw [if_neg (not_not.mpr hp)]
    rcases hb with ⟨hnil, hft, hfm⟩ | ⟨hfirst, hlast⟩
    · simp [hnil, ← hft, hfm]
    · have hne : replay.events.isEmpty = false := by
        cases he : replay.events with
        | nil => simp [he] at hfirst
        | cons e es => rfl
      simp [hne, hfirst, hlast, acceptOrderedEvents_of_ascends ha]
  refine ⟨(m.acceptReplay replay).1, Prod.ext rfl hok, ?_⟩
  -- no branch of the validator changes the phase
  unfold SyncMachine.acceptReplay
  rw [if_neg (not_not.mpr hp)]
  split
  · split <;> exact hp
  · split
    · exact hp
    · exact (acceptOrderedEvents_ok
        (Prod.ext rfl (acceptOrderedEvents_of_ascends ha))).2.2.1.trans hp

/-! ## The order of answers -/

/-- The frames in flight are answers to the hellos from `next` on, in order, up
to a server that has completed `answered` of them. -/
def Answers (hellos : ℕ) : ℕ → ℕ → List (InFlight V) → Prop
  | next, answered, [] => next = answered
  | next, answered, .live _ :: rest => Answers hellos next answered rest
  | next, answered, .replay hello _ :: rest =>
      hello = next ∧ next < hellos ∧ Answers hellos next answered rest
  | next, answered, .complete hello _ :: rest =>
      hello = next ∧ next < hellos ∧ Answers hellos (next + 1) answered rest

theorem Answers.mono {hellos hellos' next answered : ℕ} {fs : List (InFlight V)}
    (hle : hellos ≤ hellos') (h : Answers hellos next answered fs) :
    Answers hellos' next answered fs := by
  induction fs generalizing next with
  | nil => exact h
  | cons f fs ih =>
      cases f with
      | live event => exact ih h
      | replay hello batch => exact ⟨h.1, Nat.lt_of_lt_of_le h.2.1 hle, ih h.2.2⟩
      | complete hello completion => exact ⟨h.1, Nat.lt_of_lt_of_le h.2.1 hle, ih h.2.2⟩

theorem Answers.append {hellos next mid answered : ℕ} {fs gs : List (InFlight V)}
    (h : Answers hellos next mid fs) (h' : Answers hellos mid answered gs) :
    Answers hellos next answered (fs ++ gs) := by
  induction fs generalizing next with
  | nil =>
      have hmid : next = mid := h
      rw [hmid]
      exact h'
  | cons f fs ih =>
      cases f with
      | live event => exact ih h
      | replay hello batch => exact ⟨h.1, h.2.1, ih h.2.2⟩
      | complete hello completion => exact ⟨h.1, h.2.1, ih h.2.2⟩

/-- The hello whose completion the client waits for: the last one while it is
syncing, and none when it is live. -/
def Awaits (s : Socket V) (next : ℕ) : Prop :=
  (s.machine.phase = .syncing ∧ next + 1 = s.hellos.length) ∨
    (s.machine.phase = .live ∧ next = s.hellos.length)

theorem Awaits.of_nextHello {s s' : Socket V} {next : ℕ} (h : next = s.hellos.length)
    (hn : NextHello s s') : Awaits s' next :=
  .inl ⟨hn.phase, by rw [hn.hellos, h]⟩

/-! ## One frame -/

/-- A frame that keeps the order of answers: it ends the socket for no phase
error, and leaves the client waiting for some hello from which the frames still
in flight are the answers. -/
def Keeps (hellos answered : ℕ) (rest : List (InFlight V)) (s' : Socket V)
    (result : Except RealtimeError Unit) : Prop :=
  Benign result ∧ (result = .ok () → hellos ≤ s'.hellos.length ∧
    ∃ next, Awaits s' next ∧ Answers hellos next answered rest)

theorem Keeps.of_nextHello {answered : ℕ} {rest : List (InFlight V)} {s s' : Socket V}
    {result : Except RealtimeError Unit} (hb : Benign result)
    (hn : result = .ok () → NextHello s s')
    (ha : Answers s.hellos.length s.hellos.length answered rest) :
    Keeps s.hellos.length answered rest s' result := by
  refine ⟨hb, fun hok => ⟨?_, s.hellos.length, .of_nextHello rfl (hn hok), ha⟩⟩
  rw [(hn hok).hellos]
  exact Nat.le_succ _

theorem Keeps.of_ok {answered next : ℕ} {rest : List (InFlight V)} {s s' : Socket V}
    (hh : s'.hellos = s.hellos) (hw : Awaits s' next)
    (ha : Answers s.hellos.length next answered rest) :
    Keeps s.hellos.length answered rest s' (.ok ()) :=
  ⟨(fun _ h => by cases h), fun _ => ⟨Nat.le_of_eq (by rw [hh]), next, hw, ha⟩⟩

/-- A live event in an open handoff is queued. -/
theorem keeps_live_syncing {serde : Serde V} {s : Socket V} {next answered : ℕ} (io : LinkEnv)
    {event : StateEvent V} {rest : List (InFlight V)} (hp : s.machine.phase = .syncing)
    (hn : next + 1 = s.hellos.length) (ha : Answers s.hellos.length next answered rest)
    (hq : Queueable serde s.machine event) :
    Keeps s.hellos.length answered rest
      (s.processFrame serde io.toFrameEnv (.stateEvent event)).1
      (s.processFrame serde io.toFrameEnv (.stateEvent event)).2 := by
  obtain ⟨m', hacc, hp'⟩ := acceptLiveEvent_of_queueable hp hq
  simp only [Socket.processFrame, hacc]
  exact .of_ok rfl (.inl ⟨hp', hn⟩) ha

/-- A live event of a live socket is applied, or starts a handoff that no frame
in flight answers. -/
theorem keeps_live_live {serde : Serde V} {s : Socket V} {answered : ℕ} (io : LinkEnv)
    {event : StateEvent V} {rest : List (InFlight V)} (hp : s.machine.phase = .live)
    (ha : Answers s.hellos.length s.hellos.length answered rest) :
    Keeps s.hellos.length answered rest
      (s.processFrame serde io.toFrameEnv (.stateEvent event)).1
      (s.processFrame serde io.toFrameEnv (.stateEvent event)).2 := by
  by_cases hle : event.geid ≤ s.machine.geid
  · have hacc : s.machine.acceptLiveEvent serde event =
        (s.machine, .error (.geidOrder s.machine.geid event.geid)) := by
      simp [SyncMachine.acceptLiveEvent, hp, SyncMachine.acceptOrderedEvent, hle]
    simp only [Socket.processFrame, hacc]
    have h := recoverSyncError_benign (s := s) (.inr hp) io
      (.geidOrder s.machine.geid event.geid) rfl
    exact .of_nextHello h.1 h.2 ha
  · have hacc : s.machine.acceptLiveEvent serde event =
        ({ s.machine with geid := event.geid, cursor := event.cursor }, .ok (some event)) := by
      simp [SyncMachine.acceptLiveEvent, hp, SyncMachine.acceptOrderedEvent, hle]
    simp only [Socket.processFrame, hacc]
    have h := applyOrResync_benign serde (s := { s with machine :=
      { s.machine with geid := event.geid, cursor := event.cursor } }) (.inr hp) io event
    revert h
    cases Socket.applyOrResync serde io.toFrameEnv { s with machine :=
        { s.machine with geid := event.geid, cursor := event.cursor } } event with
    | mk t result =>
        intro h
        rcases h with ⟨hok, hm, hh⟩ | ⟨hne, hb, hn⟩
        · simp only at hok hm hh
          subst hok
          exact .of_ok hh (.inr ⟨by rw [hm]; exact hp, by rw [hh]⟩) ha
        · cases result with
          | error e =>
              refine .of_nextHello (s := s) ?_ (fun hok => by cases hok) ha
              intro detail hd
              cases hd
              exact hb detail rfl
          | ok applied =>
              cases applied with
              | true => exact absurd rfl hne
              | false =>
                  exact .of_nextHello (s := s) (fun _ hd => by cases hd)
                    (fun _ => ⟨(hn rfl).phase, (hn rfl).hellos⟩) ha

/-- A replay batch that continues the boundary is applied. -/
theorem keeps_replay {serde : Serde V} {s : Socket V} {next answered : ℕ} (io : LinkEnv)
    {batch : SyncReplay V} {rest : List (InFlight V)} (hp : s.machine.phase = .syncing)
    (hn : next + 1 = s.hellos.length) (ha : Answers s.hellos.length next answered rest)
    (hc : Continues serde s batch) :
    Keeps s.hellos.length answered rest
      (s.processFrame serde io.toFrameEnv (.syncReplay batch)).1
      (s.processFrame serde io.toFrameEnv (.syncReplay batch)).2 := by
  obtain ⟨hb, ⟨geid, hasc⟩, state, hproj⟩ := hc
  obtain ⟨m', hacc, hp'⟩ := acceptReplay_of_continues hp hb hasc
  simp only [Socket.processFrame, hacc]
  have h := applyAll_of_projects io.toFrameEnv batch.events (s := { s with machine := m' }) hproj
  revert h
  cases Socket.applyAll serde io.toFrameEnv { s with machine := m' } batch.events with
  | mk t result =>
      intro h
      obtain ⟨hok, hm, hh⟩ := h
      simp only at hok hm hh
      subst hok
      exact .of_ok hh (.inl ⟨by rw [hm]; exact hp', by rw [hh]; exact hn⟩) ha

/-- The completion of the last hello makes the socket live, or starts the next
handoff with every earlier hello answered. -/
theorem keeps_complete {serde : Serde V} {s : Socket V} {answered : ℕ} (io : LinkEnv)
    {completion : SyncComplete} {rest : List (InFlight V)} (hp : s.machine.phase = .syncing)
    (ha : Answers s.hellos.length s.hellos.length answered rest) :
    Keeps s.hellos.length answered rest
      (s.processFrame serde io.toFrameEnv (.syncComplete completion)).1
      (s.processFrame serde io.toFrameEnv (.syncComplete completion)).2 := by
  have hacc : ∃ m', s.machine.acceptComplete completion = (m', .ok s.machine.queuedLive) ∧
      m'.phase = .live := by
    simp [SyncMachine.acceptComplete, hp]
  obtain ⟨m', hacc, hp'⟩ := hacc
  simp only [Socket.processFrame, hacc]
  have h := applyAll_benign serde io s.machine.queuedLive
    (s := { s with machine := m', store := s.store.updateCursor completion.cursor }) (.inr hp')
  revert h
  cases Socket.applyAll serde io.toFrameEnv
      { s with machine := m', store := s.store.updateCursor completion.cursor }
      s.machine.queuedLive with
  | mk t result =>
      intro h
      rcases h with ⟨hok, hm, hh⟩ | ⟨hne, hb, hn⟩
      · simp only at hok hm hh
        subst hok
        have hw : Awaits (t.setStatus .live) s.hellos.length := by
          refine .inr ⟨?_, ?_⟩
          · rw [Socket.machine_setStatus, hm]
            exact hp'
          · rw [Socket.hellos_setStatus, hh]
        exact .of_ok hh hw ha
      · cases result with
        | error e =>
            refine .of_nextHello (s := s) ?_ (fun hok => by cases hok) ha
            intro detail hd
            cases hd
            exact hb detail rfl
        | ok applied =>
            cases applied with
            | true => exact absurd rfl hne
            | false =>
                exact .of_nextHello (s := s) (fun _ hd => by cases hd)
                  (fun _ => ⟨(hn rfl).phase, (hn rfl).hellos⟩) ha

/-- **One frame keeps the order of answers.** The completion the client waits for
is that of its last hello, so it replaces no later cursor. -/
theorem processFrame_keeps {serde : Serde V} {s : Socket V} {next answered : ℕ} (io : LinkEnv)
    {f : InFlight V} {rest : List (InFlight V)} (hw : Awaits s next)
    (ha : Answers s.hellos.length next answered (f :: rest))
    (ho : s.machine.phase = .syncing → f.Acceptable serde s) :
    f.overwrites s = false ∧ Keeps s.hellos.length answered rest
      (s.processFrame serde io.toFrameEnv f.frame).1
      (s.processFrame serde io.toFrameEnv f.frame).2 := by
  rcases hw with ⟨hp, hn⟩ | ⟨hp, hn⟩
  · cases f with
    | live event => exact ⟨rfl, keeps_live_syncing io hp hn ha (ho hp)⟩
    | replay hello batch => exact ⟨rfl, keeps_replay io hp hn ha.2.2 (ho hp)⟩
    | complete hello completion =>
        obtain ⟨hhello, -, ha⟩ := ha
        rw [hn] at ha
        refine ⟨?_, keeps_complete io hp ha⟩
        have hlast : ¬ hello + 1 < s.hellos.length := by omega
        simp [InFlight.overwrites, hlast]
  · -- a live client has no unanswered hello, so only live events are in flight
    subst hn
    cases f with
    | live event => exact ⟨rfl, keeps_live_live io hp ha⟩
    | replay hello batch => exact absurd ha.2.1 (Nat.lt_irrefl _)
    | complete hello completion => exact absurd ha.2.1 (Nat.lt_irrefl _)

/-! ## Whole runs -/

/-- The invariant of a link: it is tolerated so far, and while the socket is open
the frames in flight are the answers the client waits for. -/
def Link.Inv (r : Link V) : Prop :=
  r.Tolerated ∧ (r.ended = none →
    ∃ next, Awaits r.socket next ∧
      Answers r.socket.hellos.length next r.answered r.inFlight)

theorem Link.inv_start (s : Socket V) (ready : ConnectionReady) : (Link.start s ready).Inv := by
  refine ⟨⟨(fun detail h => by cases h), rfl⟩, fun _ => ⟨s.hellos.length, .inl ⟨rfl, ?_⟩, rfl⟩⟩
  simp [Link.start, Socket.openSocket]

theorem Link.inv_step {serde : Serde V} {r r' : Link V} {a : LinkAction V} (hI : r.Inv)
    (ho : Orderly serde r a) (h : r.step serde a = some r') : r'.Inv := by
  obtain ⟨htol, hopen⟩ := hI
  cases a with
  | sendReplay replay =>
      simp only [Link.step] at h
      split at h
      next hlt =>
        cases h
        refine ⟨htol, fun hended => ?_⟩
        obtain ⟨next, hw, ha⟩ := hopen hended
        exact ⟨next, hw, ha.append ⟨rfl, hlt, rfl⟩⟩
      next => cases h
  | sendComplete complete =>
      simp only [Link.step] at h
      split at h
      next hlt =>
        cases h
        refine ⟨htol, fun hended => ?_⟩
        obtain ⟨next, hw, ha⟩ := hopen hended
        exact ⟨next, hw, ha.append ⟨rfl, hlt, rfl⟩⟩
      next => cases h
  | sendLive event =>
      cases h
      refine ⟨htol, fun hended => ?_⟩
      obtain ⟨next, hw, ha⟩ := hopen hended
      exact ⟨next, hw, ha.append rfl⟩
  | deliver io =>
      cases hended : r.ended with
      | some e => simp [Link.step, hended] at h
      | none =>
          cases hin : r.inFlight with
          | nil => simp [Link.step, hended, hin] at h
          | cons f rest =>
              simp only [Link.step, hended, hin, Option.some.injEq] at h
              subst h
              obtain ⟨next, hw, ha⟩ := hopen hended
              rw [hin] at ha
              have hf : r.socket.machine.phase = .syncing → f.Acceptable serde r.socket := by
                intro hp
                exact ho hp f (by simp [hin])
              obtain ⟨hover, hbenign, hkeeps⟩ := processFrame_keeps io hw ha hf
              refine ⟨⟨?_, ?_⟩, ?_⟩
              · intro detail hd
                cases hr : (r.socket.processFrame serde io.toFrameEnv f.frame).2 with
                | ok u => simp [hr] at hd
                | error e =>
                    simp only [hr, Option.some.injEq] at hd
                    exact hbenign detail (by rw [hr, hd])
              · simp [htol.2, hover]
              · intro hok
                cases hr : (r.socket.processFrame serde io.toFrameEnv f.frame).2 with
                | error e => simp [hr] at hok
                | ok u =>
                    obtain ⟨hle, next', hw', ha'⟩ := hkeeps hr
                    exact ⟨next', hw', ha'.mono hle⟩

/-- **Orderly handoffs tolerate frames in flight.** In every run in which each
frame that arrives while a hello is unanswered is acceptable (its completion
apart), the socket is never ended by a phase error and no completion replaces
the cursor of a later snapshot. -/
theorem orderly_handoffs_tolerate_in_flight (serde : Serde V) (s : Socket V)
    (ready : ConnectionReady) (actions : List (LinkAction V)) (r : Link V)
    (horderly : Along (Link.step serde) (Orderly serde) (Link.start s ready) actions)
    (hrun : exec (Link.step serde) (Link.start s ready) actions = some r) : r.Tolerated :=
  (invariant_along (fun _ _ _ hI ho h => Link.inv_step hI ho h) (Link.inv_start s ready)
    horderly hrun).1

/-- Provider and transport of a sample link work. -/
def sampleLinkEnv (geid : Geid) : LinkEnv where
  toFrameEnv := sampleEnv geid
  snapshot_ne := fun _ h => by cases h
  send_ne := fun _ h => by cases h

/-- An event newer than the boundary is queued, then released by the completion. -/
def queuedHandoff : List (LinkAction (Option VoiceAuthority)) :=
  [.sendLive (sampleEvent "server.updated" 7 none), .sendComplete ⟨sampleCursor⟩,
    .deliver (sampleLinkEnv 9), .deliver (sampleLinkEnv 9)]

theorem orderly_handoffs_tolerate_in_flight_queuedHandoff :
    ∃ r, exec (Link.step authorityPayloads) (Link.start (.sample 5 none) (sampleReady 0))
      queuedHandoff = some r ∧ r.socket.status = .live ∧ r.Tolerated := by
  refine ⟨_, rfl, rfl, ?_⟩
  refine orderly_handoffs_tolerate_in_flight authorityPayloads (.sample 5 none) (sampleReady 0)
    queuedHandoff _ ?_ rfl
  refine ⟨trivial, fun t ht => ⟨trivial, fun t' ht' => ⟨?_, fun t'' ht'' => ⟨?_, ?_⟩⟩⟩⟩
  · cases ht
    cases ht'
    rintro - f ⟨⟩
    exact ⟨by decide, by decide, 256, rfl, by decide⟩
  · cases ht
    cases ht'
    cases ht''
    rintro - f ⟨⟩
    trivial
  · exact fun _ _ => trivial

/-- An event of the stream before the installed boundary arrives in the handoff,
and the server answers both hellos. -/
def staleEventHandoff : List (LinkAction (Option VoiceAuthority)) :=
  [.sendLive (sampleEvent "server.updated" 3 none), .sendComplete ⟨sampleCursor⟩,
    .deliver (sampleLinkEnv 9), .sendComplete ⟨sampleCursor⟩, .deliver (sampleLinkEnv 9),
    .deliver (sampleLinkEnv 9)]

/-- The first completion is taken for the second, whose arrival then ends the
socket. -/
theorem staleEventHandoff_ends_socket :
    ¬ ∀ (serde : Serde (Option VoiceAuthority)) (s : Socket (Option VoiceAuthority))
      (ready : ConnectionReady) (actions : List (LinkAction (Option VoiceAuthority)))
      (r : Link (Option VoiceAuthority)),
      exec (Link.step serde) (Link.start s ready) actions = some r → r.Tolerated := by
  intro h
  have htol := h authorityPayloads (.sample 5 none) (sampleReady 0) staleEventHandoff _ rfl
  exact htol.1 "sync.complete received in Live" rfl

end ZephyrVox.Realtime
