import ZephyrVox.Realtime.Resync

/-!
# The shared stream boundary

The machine keeps one GEID and one cursor for two kinds of events: replayed ones,
which are applied at once, and live ones, which wait in the queue until
`sync.complete`. A live event moves the boundary when it is queued. So a replay
batch that arrives after it is refused, and when the completion sets the machine
back to its own cursor, the queue it releases moves the store past it.

## Main definitions

* `InOrder`, `SameOutcome` — a batch that fits the machine, and the claim that it
  can be exchanged with a later live event.
* `CursorsAgree` — a live machine has the cursor of the installed state.
* `HelloInstalled` — a hello carries the cursor of the installed state.
* `CompletesCurrent` — a completion has the cursor of the queue it releases.
-/

namespace ZephyrVox.Realtime

open Transition SyncMachine

variable {V : Type}

/-! ## Live events and replay batches -/

/-- A batch with matching bounds whose GEIDs ascend strictly above the boundary of
the machine. -/
structure InOrder (m : SyncMachine V) (replay : SyncReplay V) : Prop where
  bounds : Bounded m replay
  ascending : (replay.events.map StateEvent.geid).Pairwise (· < ·)
  above : ∀ event ∈ replay.events, m.geid < event.geid

/-- The queue has room for the event. -/
def QueueRoom (serde : Serde V) (m : SyncMachine V) (event : StateEvent V) : Prop :=
  m.queuedLive.length < maxQueuedLiveEvents ∧
    ∃ bytes, serde.encodedLength event = some bytes ∧
      m.queuedLiveBytes + bytes ≤ maxQueuedLiveBytes

/-- The live event can be exchanged with the batch: both orders succeed, leave the
same GEID and queue, and release the same events. -/
def SameOutcome (serde : Serde V) (m : SyncMachine V) (replay : SyncReplay V)
    (event : StateEvent V) : Prop :=
  ∃ queued liveFirst replayed replayFirst,
    m.acceptLiveEvent serde event = (queued, .ok none) ∧
    queued.acceptReplay replay = (liveFirst, .ok ()) ∧
    m.acceptReplay replay = (replayed, .ok ()) ∧
    replayed.acceptLiveEvent serde event = (replayFirst, .ok none) ∧
    liveFirst.geid = replayFirst.geid ∧ liveFirst.queuedLive = replayFirst.queuedLive ∧
    ∀ complete, (liveFirst.acceptComplete complete).2 = (replayFirst.acceptComplete complete).2

/-- A batch that is refused for its order or its bounds. -/
def Refused (result : Except SyncError Unit) : Prop :=
  ∃ e, result = .error e ∧ Socket.recoverable e = true

/-- Events that ascend above a boundary end at some GEID. -/
theorem exists_ascends {geid : Geid} {events : List (StateEvent V)}
    (hasc : (events.map StateEvent.geid).Pairwise (· < ·))
    (habove : ∀ event ∈ events, geid < event.geid) : ∃ stop, Ascends geid events stop := by
  induction events generalizing geid with
  | nil => exact ⟨geid, rfl⟩
  | cons event rest ih =>
      rw [List.map_cons, List.pairwise_cons] at hasc
      obtain ⟨stop, hstop⟩ := ih hasc.2 fun later hmem =>
        hasc.1 later.geid (List.mem_map_of_mem hmem)
      exact ⟨stop, habove event List.mem_cons_self, hstop⟩

/-- Events that ascend to a GEID above the start end with that GEID. -/
theorem SyncMachine.Ascends.eq_or_mem {start stop : Geid} {events : List (StateEvent V)}
    (h : Ascends start events stop) : stop = start ∨ ∃ event ∈ events, event.geid = stop := by
  induction events generalizing start with
  | nil => exact .inl h
  | cons event rest ih =>
      rcases ih h.2 with heq | ⟨last, hmem, heq⟩
      · exact .inr ⟨event, List.mem_cons_self, heq.symm⟩
      · exact .inr ⟨last, List.mem_cons_of_mem _ hmem, heq⟩

/-- A batch leaves the byte count of the queue alone. -/
theorem queuedLiveBytes_acceptReplay (m : SyncMachine V) (replay : SyncReplay V) :
    (m.acceptReplay replay).1.queuedLiveBytes = m.queuedLiveBytes := by
  have hevents : ∀ (events : List (StateEvent V)) (m : SyncMachine V),
      (m.acceptOrderedEvents events).1.queuedLiveBytes = m.queuedLiveBytes := by
    intro events
    induction events with
    | nil => intro m; rfl
    | cons event rest ih =>
        intro m
        unfold acceptOrderedEvents acceptOrderedEvent
        by_cases hle : event.geid ≤ m.geid
        · simp [hle]
        · simp only [hle, if_false]
          exact ih _
  unfold SyncMachine.acceptReplay
  split
  · rfl
  · split
    · split <;> rfl
    · split
      · rfl
      · exact hevents _ _

/-- A batch in order is accepted, and leaves the queue alone. -/
theorem acceptReplay_of_inOrder {m : SyncMachine V} {replay : SyncReplay V}
    (hphase : m.phase = .syncing) (h : InOrder m replay) :
    ∃ m', m.acceptReplay replay = (m', .ok ()) ∧ m'.phase = .syncing ∧
      m'.queuedLive = m.queuedLive ∧ m'.queuedLiveBytes = m.queuedLiveBytes ∧
      Ascends m.geid replay.events m'.geid := by
  obtain ⟨stop, hasc⟩ := exists_ascends h.ascending h.above
  obtain ⟨m', hok, hphase'⟩ := acceptReplay_of_continues hphase h.bounds hasc
  have hbytes := queuedLiveBytes_acceptReplay m replay
  rw [hok] at hbytes
  rcases acceptReplay_cases m replay with
    ⟨_, he⟩ | ⟨_, _, he, -, -⟩ | ⟨m'', he, -, -, hqueue, hends⟩
  · simp [hok] at he
  · simp [hok] at he
  · rw [hok] at he
    cases he
    exact ⟨m', hok, hphase', hqueue, hbytes, hends⟩

/-- **After a later live event no batch is accepted**: the event has moved the
boundary past the batch. -/
theorem refused_of_later_live {serde : Serde V} {m queued : SyncMachine V}
    {replay : SyncReplay V} {event : StateEvent V} (hphase : m.phase = .syncing)
    (h : InOrder m replay) (habove : ∀ e ∈ replay.events, e.geid < event.geid)
    (hlive : m.acceptLiveEvent serde event = (queued, .ok none)) :
    Refused (queued.acceptReplay replay).2 := by
  rcases acceptLiveEvent_cases serde event (.inl hphase) with
    ⟨e, he, -⟩ | ⟨-, hlt, queued', he, hphase', hgeid, -⟩ | ⟨hlive', -⟩
  · simp [hlive] at he
  swap
  · rw [hphase] at hlive'
    cases hlive'
  rw [hlive] at he
  cases he
  unfold SyncMachine.acceptReplay
  rw [if_neg (not_not.mpr hphase')]
  cases hevents : replay.events with
  | nil =>
      have hfrom : replay.fromGeid = m.geid := by
        rcases h.bounds with ⟨-, -, hfrom⟩ | ⟨hfirst, -⟩
        · exact hfrom
        · simp [hevents] at hfirst
      have hmoved : replay.fromGeid ≠ queued.geid := by
        rw [hfrom, hgeid]
        exact Nat.ne_of_lt hlt
      exact ⟨.replayBounds, by simp [hmoved], rfl⟩
  | cons first rest =>
      have hbounds : ¬ ((first :: rest).head?.map StateEvent.geid ≠ some replay.fromGeid ∨
          (first :: rest).getLast?.map StateEvent.geid ≠ some replay.toGeid) := by
        rcases h.bounds with ⟨hnil, -⟩ | ⟨hfirst, hlast⟩
        · simp [hevents] at hnil
        · rw [hevents] at hfirst hlast
          simpa [hlast] using hfirst
      have hle : first.geid ≤ queued.geid := by
        rw [hgeid]
        exact Nat.le_of_lt (habove first (by simp [hevents]))
      refine ⟨.geidOrder queued.geid first.geid, ?_, rfl⟩
      rw [if_neg hbounds]
      simp [acceptOrderedEvents, acceptOrderedEvent, hle]

/-- A refused batch makes the socket install another snapshot. -/
theorem snapshot_of_refused {serde : Serde V} {s : Socket V} {io : FrameEnv}
    {replay : SyncReplay V} {snapshot : StateSnapshot} (hphase : s.machine.phase = .syncing)
    (hrefused : Refused (s.machine.acceptReplay replay).2) (hio : io.snapshot = .ok snapshot) :
    (s.processFrame serde io (.syncReplay replay)).1.store.state =
      ClientState.fromSnapshot snapshot := by
  obtain ⟨e, he, hrecover⟩ := hrefused
  rcases acceptReplay_cases s.machine replay with
    ⟨detail, hr⟩ | ⟨m', e', hr, hphase', -⟩ | ⟨m', hr, -⟩
  · rw [hr] at he
    cases he
    cases hrecover
  · rw [hr] at he
    cases he
    have hres : Resyncable (({ s with machine := m' } : Socket V).publish (.syncRequired
        ("state synchronization requires snapshot: " ++ e.display))) :=
      .inl (hphase'.trans hphase)
    simp only [Socket.processFrame, hr, Socket.recoverSyncError, hrecover, if_true,
      Socket.replaceSnapshotAndHello, requireSnapshot_of_resyncable hres, hio]
    simp [SyncMachine.beginSync, SyncMachine.replaceSnapshot]
  · simp [hr] at he

/-- **No live event can be exchanged with a batch**: the batch is accepted before the
event and refused after it, and the refusal makes the socket install another
snapshot. -/
theorem live_before_batch_refused (serde : Serde V) (m : SyncMachine V) (replay : SyncReplay V)
    (event : StateEvent V) (hphase : m.phase = .syncing) (h : InOrder m replay)
    (habove : ∀ e ∈ replay.events, e.geid < event.geid) (hroom : QueueRoom serde m event) :
    ¬ SameOutcome serde m replay event ∧
    (m.geid < event.geid →
      (∃ replayed replayFirst, m.acceptReplay replay = (replayed, .ok ()) ∧
        replayed.acceptLiveEvent serde event = (replayFirst, .ok none)) ∧
      ∃ queued, m.acceptLiveEvent serde event = (queued, .ok none) ∧
        Refused (queued.acceptReplay replay).2 ∧
        ∀ (s : Socket V) (io : FrameEnv) (snapshot : StateSnapshot), s.machine = queued →
          io.snapshot = .ok snapshot →
            (s.processFrame serde io (.syncReplay replay)).1.store.state =
              ClientState.fromSnapshot snapshot) := by
  refine ⟨?_, fun hlt => ⟨?_, ?_⟩⟩
  · rintro ⟨queued, liveFirst, -, -, hlive, hreplay, -⟩
    obtain ⟨e, he, -⟩ := refused_of_later_live hphase h habove hlive
    simp [hreplay] at he
  · obtain ⟨replayed, hok, hphase', hqueue, hbytes, hends⟩ := acceptReplay_of_inOrder hphase h
    have hlt' : replayed.geid < event.geid := by
      rcases hends.eq_or_mem with heq | ⟨last, hmem, heq⟩
      · exact heq ▸ hlt
      · exact heq ▸ habove last hmem
    have hfits : Queueable serde replayed event := by
      refine ⟨hlt', ?_⟩
      rw [hqueue, hbytes]
      exact hroom
    obtain ⟨replayFirst, hlive, -⟩ := acceptLiveEvent_of_queueable hphase' hfits
    exact ⟨replayed, replayFirst, hok, hlive⟩
  · obtain ⟨queued, hlive, hphase'⟩ := acceptLiveEvent_of_queueable hphase ⟨hlt, hroom⟩
    have hrefused := refused_of_later_live hphase h habove hlive
    refine ⟨queued, hlive, hrefused, ?_⟩
    rintro s io snapshot rfl hio
    exact snapshot_of_refused hphase' hrefused hio

/-- A machine that consumes replay from GEID 0. -/
def syncingMachine : SyncMachine (Option VoiceAuthority) :=
  Socket.openedMachine (sampleState 0 none) (sampleId .controlConnection 0)

/-- A batch with one event, at GEID 1. -/
def firstBatch : SyncReplay (Option VoiceAuthority) :=
  ⟨1, 1, [sampleEvent "server.updated" 1 none]⟩

theorem inOrder_firstBatch : InOrder syncingMachine firstBatch where
  bounds := .inr ⟨rfl, rfl⟩
  ascending := by simp [firstBatch]
  above := by
    intro event hmem
    rw [firstBatch, List.mem_singleton] at hmem
    rw [hmem]
    decide

theorem queueRoom_syncingMachine (event : StateEvent (Option VoiceAuthority)) :
    QueueRoom authorityPayloads syncingMachine event :=
  ⟨by decide, 256, rfl, by decide⟩

theorem live_before_batch_refused_firstBatch :
    ¬ SameOutcome authorityPayloads syncingMachine firstBatch
      (sampleEvent "server.updated" 2 none) :=
  (live_before_batch_refused authorityPayloads syncingMachine firstBatch
    (sampleEvent "server.updated" 2 none) rfl inOrder_firstBatch (by
      intro event hmem
      rw [firstBatch, List.mem_singleton] at hmem
      rw [hmem]
      decide) (queueRoom_syncingMachine _)).1

/-- The live event at GEID 2 is queued, and the batch at GEID 1 that follows it is
refused; in the other order both are accepted. -/
theorem firstBatch_after_live_refused :
    InOrder syncingMachine firstBatch ∧
    (syncingMachine.acceptReplay firstBatch).2 = .ok () ∧
    ((syncingMachine.acceptReplay firstBatch).1.acceptLiveEvent authorityPayloads
      (sampleEvent "server.updated" 2 none)).2 = .ok none ∧
    (syncingMachine.acceptLiveEvent authorityPayloads
      (sampleEvent "server.updated" 2 none)).2 = .ok none ∧
    ((syncingMachine.acceptLiveEvent authorityPayloads
      (sampleEvent "server.updated" 2 none)).1.acceptReplay firstBatch).2 =
        .error (.geidOrder 2 1) :=
  ⟨inOrder_firstBatch, rfl, rfl, rfl, rfl⟩

/-! ## The cursor of a live machine -/

/-- A live machine has the cursor of the installed state. -/
def CursorsAgree (s : Socket V) : Prop :=
  s.machine.phase = .live → s.machine.cursor = s.store.state.cursor

/-- Between `s` and `s'` no hello was sent, or one with the cursor of the state that
was installed last. -/
def HelloInstalled (s s' : Socket V) : Prop :=
  s'.hellos = s.hellos ∨ s'.hellos = s.hellos ++ [s'.store.state.cursor]

/-- A completion that releases queued events, all of which the projection accepts,
has the cursor of the last of them. -/
def FrameCurrent (serde : Serde V) (s : Socket V) (frame : ServerFrame V) : Prop :=
  s.machine.phase = .syncing → ∀ complete state, frame = .syncComplete complete →
    s.machine.queuedLive.foldlM (StateStore.project serde)
      { s.store.state with cursor := complete.cursor } = .ok state →
    ∀ event ∈ s.machine.queuedLive.getLast?, event.cursor = complete.cursor

/-- The next frame of a run is current. -/
def CompletesCurrent (serde : Serde V) (r : SocketRun V) (input : ServerFrame V × FrameEnv) :
    Prop :=
  r.ended = none → FrameCurrent serde r.socket input.1

/-- A resynchronization ends outside of `Live`, and its hello carries the cursor of
the snapshot. -/
theorem replaceSnapshotAndHello_cursors (io : FrameEnv) (s : Socket V) (reason : String) :
    (s.replaceSnapshotAndHello io reason).1.machine.phase ≠ .live ∧
      HelloInstalled s (s.replaceSnapshotAndHello io reason).1 := by
  unfold Socket.replaceSnapshotAndHello SyncMachine.requireSnapshot
  cases hphase : s.machine.phase with
  | ready | syncing | live =>
      cases io.snapshot with
      | error e => exact ⟨by simp, .inl rfl⟩
      | ok snapshot =>
          simp only [SyncMachine.beginSync, SyncMachine.replaceSnapshot, if_true]
          exact ⟨by simp, .inr (by simp)⟩
  | disconnected | connecting | reconnecting => exact ⟨by simp [hphase], .inl rfl⟩

/-- Recovering from an error of the machine ends outside of `Live`, or changes
nothing. -/
theorem recoverSyncError_cursors (io : FrameEnv) (s : Socket V) (error : SyncError) :
    ((s.recoverSyncError io error).1.machine.phase ≠ .live ∨
      (s.recoverSyncError io error).1 = s) ∧
      HelloInstalled s (s.recoverSyncError io error).1 := by
  unfold Socket.recoverSyncError
  split
  · obtain ⟨hphase, hhello⟩ := replaceSnapshotAndHello_cursors io (s.publish (.syncRequired
      ("state synchronization requires snapshot: " ++ error.display)))
      ("state synchronization requires snapshot: " ++ error.display)
    exact ⟨.inl hphase, hhello⟩
  · exact ⟨.inr rfl, .inl rfl⟩

/-- Applying events either applies them all, with the machine untouched and the
store at the cursor of the last, or ends outside of `Live`. -/
theorem applyAll_cursors (serde : Serde V) (io : FrameEnv) (events : List (StateEvent V))
    (s : Socket V) :
    (((s.applyAll serde io events).2 = .ok true ∧
        events.foldlM (StateStore.project serde) s.store.state =
          .ok (s.applyAll serde io events).1.store.state ∧
        (s.applyAll serde io events).1.machine = s.machine ∧
        (s.applyAll serde io events).1.store.state.cursor =
          (events.getLast?.map StateEvent.cursor).getD s.store.state.cursor) ∨
      ((s.applyAll serde io events).2 ≠ .ok true ∧
        (s.applyAll serde io events).1.machine.phase ≠ .live)) ∧
    HelloInstalled s (s.applyAll serde io events).1 := by
  induction events generalizing s with
  | nil => exact ⟨.inl ⟨rfl, rfl, rfl, rfl⟩, .inl rfl⟩
  | cons event rest ih =>
      unfold Socket.applyAll Socket.applyOrResync
      cases ha : s.store.applyEvent serde event with
      | ok store =>
          obtain ⟨hproject, -⟩ := StateStore.applyEvent_ok ha
          obtain ⟨-, next, -, hnext⟩ := StateStore.project_ok hproject
          obtain ⟨happlied | hleft, hhello⟩ :=
            ih (({ s with store := store } : Socket V).publish (.state event))
          · obtain ⟨hok, hfold, hmachine, hcursor⟩ := happlied
            refine ⟨.inl ⟨hok, ?_, hmachine, ?_⟩, hhello⟩
            · rw [List.foldlM_cons, hproject]
              exact hfold
            · refine hcursor.trans ?_
              cases rest with
              | nil => simp [hnext]
              | cons later rest => simp [List.getLast?_cons]
          · exact ⟨.inr hleft, hhello⟩
      | error error =>
          obtain ⟨hphase, hhello⟩ := replaceSnapshotAndHello_cursors io
            (s.publish (.syncRequired (Socket.rejectReason error))) (Socket.rejectReason error)
          simp only
          cases hr : Socket.replaceSnapshotAndHello io
            (s.publish (.syncRequired (Socket.rejectReason error)))
            (Socket.rejectReason error) with
          | mk t result =>
              rw [hr] at hphase hhello
              cases result with
              | ok _ => exact ⟨.inr ⟨by simp, hphase⟩, hhello⟩
              | error e => exact ⟨.inr ⟨by simp, hphase⟩, hhello⟩

/-- The socket that has accepted a completion and not yet applied the queue. -/
def released (s : Socket V) (complete : SyncComplete) : Socket V :=
  { s with
    machine := { s.machine with
      cursor := complete.cursor
      phase := .live
      queuedLiveBytes := 0
      queuedLive := [] }
    store := s.store.updateCursor complete.cursor }

/-- A completion applies the queue and reports `Live` if that worked. -/
theorem processFrame_syncComplete (serde : Serde V) (io : FrameEnv) (s : Socket V)
    (complete : SyncComplete) (hphase : s.machine.phase = .syncing) {t : Socket V}
    {result : Except RealtimeError Bool}
    (h : (released s complete).applyAll serde io s.machine.queuedLive = (t, result)) :
    (result = .ok true →
      (s.processFrame serde io (.syncComplete complete)).1 = t.setStatus .live) ∧
    (result ≠ .ok true → (s.processFrame serde io (.syncComplete complete)).1 = t) := by
  have haccept : s.machine.acceptComplete complete =
      ((released s complete).machine, .ok s.machine.queuedLive) := by
    simp [SyncMachine.acceptComplete, hphase, released]
  have happly : Socket.applyAll serde io { s with
      machine := (released s complete).machine
      store := s.store.updateCursor complete.cursor } s.machine.queuedLive = (t, result) := h
  unfold Socket.processFrame
  simp only [haccept, happly]
  cases result with
  | error e => exact ⟨(by simp), fun _ => rfl⟩
  | ok all => cases all <;> simp

/-- After a completion machine and store agree exactly if the queue, when it is
applied whole, ends with the cursor of the completion. -/
theorem syncComplete_cursors (serde : Serde V) (io : FrameEnv) (s : Socket V)
    (complete : SyncComplete) (hphase : s.machine.phase = .syncing) :
    (CursorsAgree (s.processFrame serde io (.syncComplete complete)).1 ↔
      ∀ state, s.machine.queuedLive.foldlM (StateStore.project serde)
          { s.store.state with cursor := complete.cursor } = .ok state →
        ∀ event ∈ s.machine.queuedLive.getLast?, event.cursor = complete.cursor) ∧
    HelloInstalled s (s.processFrame serde io (.syncComplete complete)).1 := by
  have happly := applyAll_cursors serde io s.machine.queuedLive (released s complete)
  cases hr : (released s complete).applyAll serde io s.machine.queuedLive with
  | mk t result =>
      obtain ⟨hlive, hleave⟩ := processFrame_syncComplete serde io s complete hphase hr
      rw [hr] at happly
      obtain ⟨⟨hok, hfold, hmachine, hcursor⟩ | ⟨hne, hleft⟩, hhello⟩ := happly
      · rw [hlive hok]
        refine ⟨?_, hhello⟩
        have hagree : CursorsAgree (t.setStatus .live) ↔
            complete.cursor = t.store.state.cursor := by
          simp only at hmachine
          simp [CursorsAgree, hmachine, released]
        rw [hagree, show t.store.state.cursor = _ from hcursor]
        constructor
        · intro h _ _ event hlast
          rw [Option.mem_def.mp hlast] at h
          exact h.symm
        · intro h
          cases hlast : s.machine.queuedLive.getLast? with
          | none => rfl
          | some event => exact (h _ hfold event hlast).symm
      · rw [hleave hne]
        refine ⟨iff_of_true (fun hlive => absurd hlive hleft) ?_, hhello⟩
        intro state hstate
        have hwhole := (applyAll_of_projects (s := released s complete) io
          s.machine.queuedLive hstate).1
        rw [hr] at hwhole
        exact absurd hwhole hne

/-- What a frame other than a completion of replay does to the cursors. -/
def KeepsCursors (s s' : Socket V) : Prop :=
  (CursorsAgree s → CursorsAgree s') ∧ HelloInstalled s s'

/-- A frame that touches neither machine, installed state nor hellos. -/
theorem KeepsCursors.of_eq {s s' : Socket V} (hm : s'.machine = s.machine)
    (hst : s'.store = s.store) (hh : s'.hellos = s.hellos) : KeepsCursors s s' := by
  refine ⟨fun hs => ?_, .inl hh⟩
  unfold CursorsAgree
  rw [hm, hst]
  exact hs

/-- A frame after which the socket is not live. -/
theorem KeepsCursors.of_not_live {s s' : Socket V} (hphase : s'.machine.phase ≠ .live)
    (hh : HelloInstalled s s') : KeepsCursors s s' :=
  ⟨fun _ hlive => absurd hlive hphase, hh⟩

/-- A resynchronization. -/
theorem keepsCursors_resync (io : FrameEnv) (s : Socket V) (event : ClientEvent V)
    (reason : String) :
    KeepsCursors s ((s.publish event).replaceSnapshotAndHello io reason).1 :=
  .of_not_live (replaceSnapshotAndHello_cursors io _ _).1 (replaceSnapshotAndHello_cursors io _ _).2

/-- Recovering from an error of a machine that is not live, or that it left alone. -/
theorem keepsCursors_recover (io : FrameEnv) (s : Socket V) (m : SyncMachine V)
    (error : SyncError) (h : m = s.machine ∨ m.phase ≠ .live) :
    KeepsCursors s (({ s with machine := m } : Socket V).recoverSyncError io error).1 := by
  obtain ⟨hphase | hsame, hhello⟩ := recoverSyncError_cursors io { s with machine := m } error
  · exact .of_not_live hphase hhello
  · rw [hsame]
    rcases h with rfl | hphase
    · exact .of_eq rfl rfl rfl
    · exact .of_not_live hphase (.inl rfl)

/-- A replay batch is consumed outside of `Live`. -/
theorem keepsCursors_syncReplay (serde : Serde V) (io : FrameEnv) (s : Socket V)
    (replay : SyncReplay V) :
    KeepsCursors s (s.processFrame serde io (.syncReplay replay)).1 := by
  by_cases hphase : s.machine.phase = .syncing
  · have hm : (s.machine.acceptReplay replay).1.phase ≠ .live := by
      rcases acceptReplay_cases s.machine replay with
        ⟨detail, hr⟩ | ⟨m, e, hr, hsame, -⟩ | ⟨m, hr, -, hsame, -⟩
      · simp [hr, hphase]
      · simp [hr, hsame, hphase]
      · simp [hr, hsame, hphase]
    cases hr : s.machine.acceptReplay replay with
    | mk m result =>
        rw [hr] at hm
        cases result with
        | error e =>
            simp only [Socket.processFrame, hr]
            exact keepsCursors_recover io s m e (.inr hm)
        | ok _ =>
            obtain ⟨happly, hhello⟩ :=
              applyAll_cursors serde io replay.events { s with machine := m }
            simp only [Socket.processFrame, hr]
            cases ha : Socket.applyAll serde io { s with machine := m } replay.events with
            | mk t applied =>
                rw [ha] at happly hhello
                have ht : t.machine.phase ≠ .live := by
                  rcases happly with ⟨-, -, hmachine, -⟩ | ⟨-, hleft⟩
                  · simp only at hmachine
                    rwa [hmachine]
                  · exact hleft
                cases applied <;> exact .of_not_live ht hhello
  · have hr : s.machine.acceptReplay replay = (s.machine, .error (.invalidPhase
        ("sync.replay received in " ++ s.machine.phase.debug))) := by
      simp [SyncMachine.acceptReplay, hphase]
    simp only [Socket.processFrame, hr]
    exact keepsCursors_recover io s s.machine _ (.inl rfl)

/-- What a live event leaves of the machine: it is unchanged after an error, still
syncing, or live at the cursor of the event. -/
theorem acceptLiveEvent_cursor (serde : Serde V) (m : SyncMachine V) (event : StateEvent V) :
    (∃ e, m.acceptLiveEvent serde event = (m, .error e)) ∨
      (∃ m', m.acceptLiveEvent serde event = (m', .ok none) ∧ m'.phase = .syncing) ∨
      ∃ m', m.acceptLiveEvent serde event = (m', .ok (some event)) ∧
        m'.phase = .live ∧ m'.cursor = event.cursor := by
  by_cases hsync : m.phase = .syncing ∨ m.phase = .live
  · rcases acceptLiveEvent_cases serde event hsync with
      ⟨e, hr, -⟩ | ⟨-, -, m', hr, hphase, -⟩ | ⟨hlive, hlt, m', hr, hphase, -⟩
    · exact .inl ⟨e, hr⟩
    · exact .inr (.inl ⟨m', hr, hphase⟩)
    · refine .inr (.inr ⟨m', hr, hphase, ?_⟩)
      simp only [SyncMachine.acceptLiveEvent, hlive, acceptOrderedEvent, Nat.not_le.mpr hlt,
        if_false, Prod.mk.injEq] at hr
      rw [← hr.1]
  · refine .inl ⟨.invalidPhase ("state.event received in " ++ m.phase.debug), ?_⟩
    unfold SyncMachine.acceptLiveEvent
    cases hphase : m.phase <;> simp_all

/-- A live event moves the cursors of a live machine and of the store together. -/
theorem keepsCursors_stateEvent (serde : Serde V) (io : FrameEnv) (s : Socket V)
    (event : StateEvent V) :
    KeepsCursors s (s.processFrame serde io (.stateEvent event)).1 := by
  rcases acceptLiveEvent_cursor serde s.machine event with
    ⟨e, hr⟩ | ⟨m, hr, hphase⟩ | ⟨m, hr, hphase, hcursor⟩
  · simp only [Socket.processFrame, hr]
    exact keepsCursors_recover io s s.machine e (.inl rfl)
  · simp only [Socket.processFrame, hr]
    exact .of_not_live (by simp [hphase]) (.inl rfl)
  · obtain ⟨happly, hhello⟩ := applyAll_cursors serde io [event] { s with machine := m }
    simp only [Socket.processFrame, hr]
    unfold Socket.applyAll at happly hhello
    cases ha : Socket.applyOrResync serde io { s with machine := m } event with
    | mk t applied =>
        rw [ha] at happly hhello
        cases applied with
        | error e =>
            rcases happly with ⟨hok, -⟩ | ⟨-, hleft⟩
            · simp at hok
            · exact .of_not_live hleft hhello
        | ok all =>
            cases all with
            | false =>
                rcases happly with ⟨hok, -⟩ | ⟨-, hleft⟩
                · simp at hok
                · exact .of_not_live hleft hhello
            | true =>
                rcases happly with ⟨-, -, hmachine, hstore⟩ | ⟨hne, -⟩
                · refine ⟨fun _ _ => ?_, hhello⟩
                  change t.machine = m at hmachine
                  change t.store.state.cursor = event.cursor at hstore
                  simp only [hmachine, hstore, hcursor]
                · exact absurd rfl hne

/-- **One frame**: every hello carries the installed cursor, and a socket whose
cursors agree keeps them in agreement unless a completion releases a queue that
ends with another cursor. -/
theorem processFrame_cursors (serde : Serde V) (io : FrameEnv) (s : Socket V)
    (frame : ServerFrame V) :
    (CursorsAgree s →
      (CursorsAgree (s.processFrame serde io frame).1 ↔ FrameCurrent serde s frame)) ∧
    HelloInstalled s (s.processFrame serde io frame).1 := by
  have hother : KeepsCursors s (s.processFrame serde io frame).1 →
      (∀ complete, frame = .syncComplete complete → s.machine.phase ≠ .syncing) →
      (CursorsAgree s →
        (CursorsAgree (s.processFrame serde io frame).1 ↔ FrameCurrent serde s frame)) ∧
      HelloInstalled s (s.processFrame serde io frame).1 := by
    intro hkeeps hnot
    refine ⟨fun hs => iff_of_true (hkeeps.1 hs) ?_, hkeeps.2⟩
    intro hphase complete _ hframe
    exact absurd hphase (hnot complete hframe)
  cases frame with
  | connectionReady ready => exact hother (.of_eq rfl rfl rfl) (by simp)
  | syncReplay replay => exact hother (keepsCursors_syncReplay serde io s replay) (by simp)
  | syncComplete complete =>
      by_cases hphase : s.machine.phase = .syncing
      · obtain ⟨hiff, hhello⟩ := syncComplete_cursors serde io s complete hphase
        refine ⟨fun _ => hiff.trans ⟨?_, ?_⟩, hhello⟩
        · intro h _ complete' state hframe
          cases hframe
          exact h state
        · intro h state hstate
          exact h hphase complete state rfl hstate
      · have hr : s.machine.acceptComplete complete = (s.machine, .error (.invalidPhase
            ("sync.complete received in " ++ s.machine.phase.debug))) := by
          simp [SyncMachine.acceptComplete, hphase]
        refine hother ?_ fun _ _ => hphase
        simp only [Socket.processFrame, hr]
        exact keepsCursors_recover io s s.machine _ (.inl rfl)
  | syncRequired reason => exact hother (keepsCursors_resync io s _ _) (by simp)
  | stateEvent event => exact hother (keepsCursors_stateEvent serde io s event) (by simp)
  | commandOk ack =>
      refine hother (.of_eq ?_ ?_ ?_) (by simp)
      all_goals cases hexpires : ack.expiresAt <;> simp [Socket.processFrame, hexpires]
  | commandError error =>
      refine hother (.of_eq ?_ ?_ ?_) (by simp)
      all_goals simp [Socket.processFrame]
  | authRevoked reason => exact hother (.of_eq rfl rfl rfl) (by simp)
  | unknown frame =>
      refine hother ?_ (by simp)
      by_cases hstate : "state.".toList.isPrefixOf frame.frameType.toList = true
      · simp only [Socket.processFrame, hstate, if_true]
        exact keepsCursors_resync io s _ _
      · simp only [Socket.processFrame, hstate]
        exact .of_eq rfl rfl rfl

/-- One step of a run. -/
theorem step_cursors {serde : Serde V} {r r' : SocketRun V} {input : ServerFrame V × FrameEnv}
    (h : r.step serde input = some r') :
    (CursorsAgree r.socket → (CursorsAgree r'.socket ↔ CompletesCurrent serde r input)) ∧
      HelloInstalled r.socket r'.socket := by
  unfold SocketRun.step at h
  cases hended : r.ended with
  | some e => simp [hended] at h
  | none =>
      simp only [hended, Option.some.injEq] at h
      subst h
      obtain ⟨hiff, hhello⟩ := processFrame_cursors serde input.2 r.socket input.1
      refine ⟨fun hr => (hiff hr).trans ⟨fun h _ => h, fun h => h hended⟩, hhello⟩

/-- The first hello carries the cursor of the installed state. -/
theorem openSocket_cursors (s : Socket V) (ready : ConnectionReady) :
    CursorsAgree (s.openSocket ready) ∧ HelloInstalled s (s.openSocket ready) :=
  ⟨fun _ => rfl, .inr rfl⟩

/-- **Machine and store agree on the cursor exactly in the runs whose completions
have the cursor of the queue they release**; every hello carries the cursor of the
state installed when it was sent, in every run. -/
theorem cursors_agree_iff (serde : Serde V) (s : Socket V) (ready : ConnectionReady)
    (frames : List (ServerFrame V × FrameEnv)) :
    ((∀ done rest r, frames = done ++ rest →
        exec (SocketRun.step serde) (SocketRun.start s ready) done = some r →
          CursorsAgree r.socket) ↔
      Along (SocketRun.step serde) (CompletesCurrent serde) (SocketRun.start s ready) frames) ∧
    HelloInstalled s (SocketRun.start s ready).socket ∧
    ∀ done input rest r r', frames = done ++ input :: rest →
      exec (SocketRun.step serde) (SocketRun.start s ready) done = some r →
      r.step serde input = some r' → HelloInstalled r.socket r'.socket := by
  refine ⟨⟨?_, ?_⟩, (openSocket_cursors s ready).2, fun _ _ _ _ _ _ _ h => (step_cursors h).2⟩
  · intro h
    refine along_iff.mpr fun done input rest hframes r hr => ?_
    have hagree := h done (input :: rest) r hframes hr
    cases hstep : r.step serde input with
    | none =>
        intro hended
        simp [SocketRun.step, hended] at hstep
    | some r' =>
        refine ((step_cursors hstep).1 hagree).mp
          (h (done ++ [input]) rest r' (by simp [hframes]) ?_)
        simp [exec_append, hr, hstep]
  · rintro h done rest r rfl hr
    exact invariant_along (fun r input r' hI hP hstep => ((step_cursors hstep).1 hI).mpr hP)
      (openSocket_cursors s ready).1 h.of_append hr

/-- A live event at another cursor than the sample one. -/
def laterEvent : StateEvent (Option VoiceAuthority) :=
  { sampleEvent "server.updated" 7 none with cursor := ⟨"B", by decide, by decide, by decide⟩ }

/-- Nothing is queued when the handoff completes; then a live event follows. -/
def completeThenLive : List (ServerFrame (Option VoiceAuthority) × FrameEnv) :=
  [(.syncComplete ⟨sampleCursor⟩, sampleEnv 9), (.stateEvent laterEvent, sampleEnv 9)]

theorem cursors_agree_iff_completeThenLive :
    ∃ r, exec (SocketRun.step authorityPayloads) (SocketRun.start (.sample 5 none) (sampleReady 0))
        completeThenLive = some r ∧ r.socket.machine.phase = .live ∧
      r.socket.machine.cursor = r.socket.store.state.cursor := by
  refine ⟨_, rfl, rfl, ?_⟩
  refine (cursors_agree_iff authorityPayloads (.sample 5 none) (sampleReady 0)
    completeThenLive).1.mpr ?_ completeThenLive [] _ (by simp) rfl rfl
  refine ⟨?_, ?_⟩
  · rintro - - complete state - - event hlast
    cases hlast
  · rintro r hr
    refine ⟨?_, fun _ _ => trivial⟩
    rintro - - complete state hframe
    cases hframe

/-- A live event that is queued during the handoff leaves the store at its cursor
and the machine at the cursor of the completion. -/
theorem queued_live_splits_cursors :
    ∃ r, exec (SocketRun.step authorityPayloads) (SocketRun.start (.sample 5 none) (sampleReady 0))
        [(.stateEvent laterEvent, sampleEnv 9), (.syncComplete ⟨sampleCursor⟩, sampleEnv 9)] =
          some r ∧ r.socket.machine.phase = .live ∧
      r.socket.machine.cursor ≠ r.socket.store.state.cursor := by
  exact ⟨_, rfl, rfl, by decide⟩

end ZephyrVox.Realtime
