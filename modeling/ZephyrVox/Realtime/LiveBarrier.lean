import ZephyrVox.Lib.Transition
import ZephyrVox.Realtime.Socket

/-!
# `Live` is a publication barrier

The machine and the store advance separately: replayed events are applied at
once, live events that arrive early are queued and released by `sync.complete`,
and every rejection re-enters a snapshot handoff. A run of a socket is observed
together with its `History`: the state that the current handoff started from and
the events the machine has accepted since. Whenever the published status is
`Live`, the store is exactly the fold of those events.

The invariant of the syncing phase is `Handoff`. A replay batch accepted while
live events are queued overtakes them; the store then refuses the overtaken
event when the queue is released, so such a handoff never completes, and the
invariant records that instead of an order of application.

## Main definitions

* `History V`, `SocketRun V` — a socket with what was observed of it.
* `Applied` — a list of events is what the store has applied since the base.
* `Handoff`, `Converged` — the invariants of the syncing and live phases.
-/

namespace ZephyrVox.Realtime

open Transition SyncMachine

variable {V : Type}

/-- The events the machine accepts from one frame. A batch that fails its bounds
or its phase is refused whole; one that fails its order is cut there. -/
def SyncMachine.accepted (serde : Serde V) (m : SyncMachine V) :
    ServerFrame V → List (StateEvent V)
  | .syncReplay replay =>
      match (m.acceptReplay replay).2 with
      | .ok () => replay.events
      | .error (.geidOrder _ _) => acceptedPrefix m.geid replay.events
      | .error _ => []
  | .stateEvent event =>
      match (m.acceptLiveEvent serde event).2 with
      | .ok _ => [event]
      | .error _ => []
  | _ => []

/-- What was observed of a socket since the current handoff began. -/
structure History (V : Type) where
  /-- The state at socket start or the last snapshot installed since. -/
  base : ClientState
  /-- The events the store's channel carried when the base was installed. -/
  earlier : List (StateEvent V)
  /-- The events the machine accepted since, in order of acceptance. -/
  accepted : List (StateEvent V)

/-- Observe one frame: an installed snapshot starts a new history. -/
def History.observe (serde : Serde V) (h : History V) (before after : Socket V)
    (frame : ServerFrame V) : History V :=
  if after.store.generation = before.store.generation then
    { h with accepted := h.accepted ++ before.machine.accepted serde frame }
  else ⟨after.store.state, [], []⟩

/-- A socket, its history, and the error that ended it. -/
structure SocketRun (V : Type) where
  socket : Socket V
  history : History V
  ended : Option RealtimeError

namespace SocketRun

/-- A socket that has just sent its first hello. -/
def start (s : Socket V) (ready : ConnectionReady) : SocketRun V where
  socket := s.openSocket ready
  history := ⟨s.store.state, s.store.events.sent, []⟩
  ended := none

/-- Process one frame; a socket that ended processes nothing more. -/
def step (serde : Serde V) (r : SocketRun V) (input : ServerFrame V × FrameEnv) :
    Option (SocketRun V) :=
  match r.ended with
  | some _ => none
  | none =>
      let processed := r.socket.processFrame serde input.2 input.1
      some {
        socket := processed.1
        history := r.history.observe serde r.socket processed.1 input.1
        ended := match processed.2 with
          | .ok () => none
          | .error e => some e }

end SocketRun

/-- The store has applied exactly `applied` since the base of the history: the
events were broadcast once each, ascend to the store's GEID, and fold to its
projected fields. -/
structure Applied (serde : Serde V) (h : History V) (store : StateStore V)
    (applied : List (StateEvent V)) : Prop where
  sent : store.events.sent = h.earlier ++ applied
  ascends : Ascends h.base.geid applied store.state.geid
  folds : ∃ folded, applied.foldlM (applyKnownEvent serde) h.base = .ok folded ∧
    store.state = folded.reposition store.state.cursor store.state.geid

/-- The invariant while replay is consumed: either the accepted events are the
applied ones followed by the queue, or a queued event has been overtaken. -/
structure Handoff (serde : Serde V) (h : History V) (s : Socket V) : Prop where
  phase : s.machine.phase = .syncing
  status : s.status ≠ .live
  ascends : Ascends h.base.geid h.accepted s.machine.geid
  applied : ∃ applied, Applied serde h s.store applied ∧
    (h.accepted = applied ++ s.machine.queuedLive ∨
      ∃ queued ∈ s.machine.queuedLive, queued.geid ≤ s.store.state.geid)

/-- The invariant of the live phase: everything accepted is applied. -/
structure Converged (serde : Serde V) (h : History V) (s : Socket V) : Prop where
  phase : s.machine.phase = .live
  queue : s.machine.queuedLive = []
  geid : s.machine.geid = s.store.state.geid
  applied : Applied serde h s.store h.accepted

/-- A snapshot was installed and a new hello sent. -/
structure Restarted (s s' : Socket V) : Prop where
  phase : s'.machine.phase = .syncing
  status : s'.status = .syncing
  queue : s'.machine.queuedLive = []
  geid : s'.machine.geid = s'.store.state.geid
  sent : s'.store.events.sent = []
  generation : s'.store.generation ≠ s.store.generation

/-! ## Application -/

theorem foldlM_concat (serde : Serde V) (base : ClientState) (events : List (StateEvent V))
    (event : StateEvent V) :
    (events ++ [event]).foldlM (applyKnownEvent serde) base =
      (events.foldlM (applyKnownEvent serde) base).bind fun s =>
        applyKnownEvent serde s event := by
  rw [List.foldlM_append]
  refine bind_congr fun s => ?_
  simp

/-- One applied event extends what the store has applied. -/
theorem Applied.concat {serde : Serde V} {h : History V} {store store' : StateStore V}
    {applied : List (StateEvent V)} {event : StateEvent V} (H : Applied serde h store applied)
    (ha : store.applyEvent serde event = .ok store') :
    Applied serde h store' (applied ++ [event]) := by
  obtain ⟨hproject, -, hevents, -, -⟩ := StateStore.applyEvent_ok ha
  obtain ⟨hlt, next, hnext, hstate⟩ := StateStore.project_ok hproject
  obtain ⟨folded, hfold, hfolded⟩ := H.folds
  have hgeid : store'.state.geid = event.geid := by rw [hstate]; rfl
  refine ⟨?_, ?_, ?_⟩
  · rw [hevents, Broadcast.Channel.sent_send, H.sent, List.append_assoc]
  · rw [ascends_append, hgeid]
    exact ⟨_, H.ascends, hlt, rfl⟩
  · -- the rule does not see the position, so it acts on the fold as on the store
    rw [hfolded, applyKnownEvent_reposition] at hnext
    cases hstep : applyKnownEvent serde folded event with
    | error e => simp [hstep, Functor.map, Except.map] at hnext
    | ok folded' =>
        simp only [hstep, Functor.map, Except.map, Except.ok.injEq] at hnext
        refine ⟨folded', ?_, ?_⟩
        · rw [foldlM_concat, hfold]; exact hstep
        · rw [hstate, ← hnext]; rfl

theorem Applied.updateCursor {serde : Serde V} {h : History V} {store : StateStore V}
    {applied : List (StateEvent V)} (H : Applied serde h store applied) (cursor : Cursor) :
    Applied serde h (store.updateCursor cursor) applied := by
  obtain ⟨folded, hfold, hstate⟩ := H.folds
  refine ⟨H.sent, H.ascends, folded, hfold, ?_⟩
  rw [StateStore.state_updateCursor, hstate]
  rfl

/-- A restarted socket is in a handoff with nothing accepted. -/
theorem Restarted.handoff {serde : Serde V} {s s' : Socket V} (H : Restarted s s') :
    Handoff serde ⟨s'.store.state, [], []⟩ s' where
  phase := H.phase
  status := by simp [H.status]
  ascends := H.geid
  applied := by
    refine ⟨[], ⟨?_, rfl, s'.store.state, rfl, rfl⟩, .inl ?_⟩
    · rw [H.sent]; rfl
    · rw [H.queue]; rfl

/-! ## The helpers of `processFrame` -/

/-- The phases in which a snapshot may be required. -/
def Resyncable (s : Socket V) : Prop := s.machine.phase = .syncing ∨ s.machine.phase = .live

theorem requireSnapshot_of_resyncable {s : Socket V} (hs : Resyncable s) (reason : String) :
    s.machine.requireSnapshot reason =
      ({ s.machine with queuedLive := [], queuedLiveBytes := 0, phase := .ready }, .ok ()) := by
  unfold SyncMachine.requireSnapshot
  rcases hs with h | h <;> rw [h]

/-- A resynchronization leaves `Live`, and restarts the handoff if it succeeds. -/
theorem replaceSnapshotAndHello_spec {s : Socket V} (hs : Resyncable s) (io : FrameEnv)
    (reason : String) :
    (s.replaceSnapshotAndHello io reason).1.status = .syncing ∧
      ((s.replaceSnapshotAndHello io reason).2 = .ok () →
        Restarted s (s.replaceSnapshotAndHello io reason).1) := by
  unfold Socket.replaceSnapshotAndHello
  rw [requireSnapshot_of_resyncable hs]
  cases io.snapshot with
  | error e => exact ⟨rfl, fun h => by cases h⟩
  | ok snapshot =>
      simp only [SyncMachine.beginSync, SyncMachine.replaceSnapshot, if_true,
        Socket.status_publishVoiceLost, Socket.status_setStatus, Socket.store_publishVoiceLost,
        Socket.store_setStatus]
      refine ⟨trivial, fun _ => ?_⟩
      exact ⟨rfl, by simp, rfl, rfl, rfl,
        StateStore.generation_replaceSnapshot_ne s.store snapshot⟩

theorem Restarted.of_generation {s t s' : Socket V} (H : Restarted t s')
    (h : t.store.generation = s.store.generation) : Restarted s s' :=
  ⟨H.phase, H.status, H.queue, H.geid, H.sent, by rw [← h]; exact H.generation⟩

/-- What recovering from a machine error does: it restarts the handoff, leaves
`Live`, or ends the socket for an invalid phase with nothing changed. -/
theorem recoverSyncError_spec {s : Socket V} (hs : Resyncable s) (io : FrameEnv)
    (error : SyncError) :
    ((s.recoverSyncError io error).2 = .ok () → Restarted s (s.recoverSyncError io error).1) ∧
      ((s.recoverSyncError io error).1.status = .syncing ∨
        ((∃ detail, error = .invalidPhase detail) ∧ (s.recoverSyncError io error).1 = s ∧
          (s.recoverSyncError io error).2 = .error (.sync error))) := by
  unfold Socket.recoverSyncError
  cases error with
  | invalidPhase detail => exact ⟨(fun h => by cases h), .inr ⟨⟨detail, rfl⟩, rfl, rfl⟩⟩
  | _ =>
      simp only [Socket.recoverable, if_true]
      refine ⟨fun h => ?_, .inl ?_⟩
      · exact ((replaceSnapshotAndHello_spec (s := s.publish _) hs io _).2 h).of_generation rfl
      · exact (replaceSnapshotAndHello_spec (s := s.publish _) hs io _).1

/-- Applying a list of events either applies them all, with machine and status
untouched, or leaves `Live` through a resynchronization. -/
theorem applyAll_spec {serde : Serde V} {h : History V} (io : FrameEnv)
    (events : List (StateEvent V)) {s : Socket V} {applied : List (StateEvent V)}
    (hs : Resyncable s) (H : Applied serde h s.store applied) :
    ((s.applyAll serde io events).2 = .ok true ∧
        Applied serde h (s.applyAll serde io events).1.store (applied ++ events) ∧
        (s.applyAll serde io events).1.machine = s.machine ∧
        (s.applyAll serde io events).1.status = s.status ∧
        (s.applyAll serde io events).1.store.generation = s.store.generation) ∨
      ((s.applyAll serde io events).1.status = .syncing ∧
        (s.applyAll serde io events).2 ≠ .ok true ∧
        ((s.applyAll serde io events).2 = .ok false →
          Restarted s (s.applyAll serde io events).1)) := by
  induction events generalizing s applied with
  | nil => exact .inl ⟨rfl, by simpa [Socket.applyAll] using H, rfl, rfl, rfl⟩
  | cons event rest ih =>
      unfold Socket.applyAll Socket.applyOrResync
      cases ha : s.store.applyEvent serde event with
      | ok store =>
          obtain ⟨-, -, -, -, hgen⟩ := StateStore.applyEvent_ok ha
          have hnext := ih (s := ({ s with store := store }).publish (.state event)) hs
            (H.concat ha)
          simp only [List.append_assoc, List.singleton_append] at hnext
          rcases hnext with ⟨h1, h2, h3, h4, h5⟩ | ⟨h1, h2, h3⟩
          · exact .inl ⟨h1, h2, h3, h4, h5.trans hgen⟩
          · exact .inr ⟨h1, h2, fun hf => (h3 hf).of_generation hgen⟩
      | error error =>
          simp only
          have hres := replaceSnapshotAndHello_spec
            (s := s.publish (.syncRequired (Socket.rejectReason error))) hs io
            (Socket.rejectReason error)
          revert hres
          cases hr : Socket.replaceSnapshotAndHello io
            (s.publish (.syncRequired (Socket.rejectReason error)))
            (Socket.rejectReason error) with
          | mk t result =>
              intro hres
              refine .inr ?_
              cases result with
              | ok _ =>
                  exact ⟨hres.1, by simp, fun _ => (hres.2 rfl).of_generation rfl⟩
              | error e => exact ⟨hres.1, by simp, fun hf => by cases hf⟩

/-! ## One frame -/

/-- What a processed frame leaves: a continuing socket is in one of the two
invariants, and a socket that reports `Live` has converged. -/
def Sound (serde : Serde V) (h : History V) (s : Socket V)
    (result : Except RealtimeError Unit) : Prop :=
  (result = .ok () → Handoff serde h s ∨ Converged serde h s) ∧
    (s.status = .live → Converged serde h s)

theorem Sound.of_restarted {serde : Serde V} {h : History V} {s s' : Socket V}
    {frame : ServerFrame V} {result : Except RealtimeError Unit} (hs : s'.status = .syncing)
    (H : result = .ok () → Restarted s s') :
    Sound serde (h.observe serde s s' frame) s' result := by
  refine ⟨fun hr => ?_, fun hl => by simp [hs] at hl⟩
  have hR := H hr
  rw [History.observe, if_neg hR.generation]
  exact .inl hR.handoff

theorem observe_of_generation {serde : Serde V} {h : History V} {s t : Socket V}
    {frame : ServerFrame V} (hgen : t.store.generation = s.store.generation) :
    h.observe serde s t frame =
      { h with accepted := h.accepted ++ s.machine.accepted serde frame } := by
  rw [History.observe, if_pos hgen]

/-- A frame that changes neither machine, store nor status, and from which the
machine accepts nothing, keeps the invariant. -/
theorem Sound.of_unchanged {serde : Serde V} {h : History V} {s s' : Socket V}
    {frame : ServerFrame V} {result : Except RealtimeError Unit}
    (hI : Handoff serde h s ∨ Converged serde h s) (hm : s'.machine = s.machine)
    (hst : s'.store = s.store) (hs : s'.status = s.status)
    (ha : s.machine.accepted serde frame = []) :
    Sound serde (h.observe serde s s' frame) s' result := by
  rw [observe_of_generation (by rw [hst]), ha, List.append_nil]
  have hI' : Handoff serde h s' ∨ Converged serde h s' := by
    rcases hI with H | H
    · refine .inl ⟨?_, ?_, ?_, ?_⟩
      · rw [hm]; exact H.phase
      · rw [hs]; exact H.status
      · rw [hm]; exact H.ascends
      · rw [hm, hst]; exact H.applied
    · refine .inr ⟨?_, ?_, ?_, ?_⟩
      · rw [hm]; exact H.phase
      · rw [hm]; exact H.queue
      · rw [hm, hst]; exact H.geid
      · rw [hst]; exact H.applied
  refine ⟨fun _ => hI', fun hl => ?_⟩
  rcases hI' with H | H
  · exact absurd hl H.status
  · exact H

theorem resyncable_of_inv {serde : Serde V} {h : History V} {s : Socket V}
    (hI : Handoff serde h s ∨ Converged serde h s) : Resyncable s :=
  hI.imp Handoff.phase Converged.phase

/-- Recovering from a machine error keeps the invariant. -/
theorem Sound.of_recover {serde : Serde V} {h : History V} {s : Socket V}
    {frame : ServerFrame V} (hI : Handoff serde h s ∨ Converged serde h s) (io : FrameEnv)
    {m : SyncMachine V} {error : SyncError} (hphase : m.phase = s.machine.phase)
    (hinvalid : ∀ detail, error = .invalidPhase detail →
      m = s.machine ∧ s.machine.accepted serde frame = []) :
    Sound serde
      (h.observe serde s (({ s with machine := m } : Socket V).recoverSyncError io error).1 frame)
      (({ s with machine := m } : Socket V).recoverSyncError io error).1
      (({ s with machine := m } : Socket V).recoverSyncError io error).2 := by
  have hs : Resyncable ({ s with machine := m } : Socket V) := by
    have hres : Resyncable s := resyncable_of_inv hI
    unfold Resyncable at hres ⊢
    rwa [show ({ s with machine := m } : Socket V).machine.phase = s.machine.phase from hphase]
  obtain ⟨hok, hstatus | ⟨⟨detail, he⟩, hsame, hres⟩⟩ := recoverSyncError_spec hs io error
  · exact Sound.of_restarted hstatus fun hr => (hok hr).of_generation rfl
  · obtain ⟨hm, ha⟩ := hinvalid detail he
    rw [hsame]
    exact Sound.of_unchanged hI hm rfl rfl ha

/-- The outcomes of a replay batch. -/
theorem acceptReplay_cases (m : SyncMachine V) (replay : SyncReplay V) :
    (∃ detail, m.acceptReplay replay = (m, .error (.invalidPhase detail))) ∨
      (∃ m' e, m.acceptReplay replay = (m', .error e) ∧ m'.phase = m.phase ∧
        ∀ detail, e ≠ .invalidPhase detail) ∨
      (∃ m', m.acceptReplay replay = (m', .ok ()) ∧ m.phase = .syncing ∧
        m'.phase = m.phase ∧ m'.queuedLive = m.queuedLive ∧
        Ascends m.geid replay.events m'.geid) := by
  unfold SyncMachine.acceptReplay
  by_cases hphase : m.phase = .syncing
  swap
  · exact .inl ⟨_, by simp only [ne_eq, hphase, not_false_eq_true, if_true]; rfl⟩
  simp only [ne_eq, hphase, not_true_eq_false, if_false]
  refine .inr ?_
  split
  · rename_i hempty
    split
    · exact .inl ⟨m, _, rfl, hphase, by simp⟩
    · refine .inr ⟨m, rfl, trivial, hphase, rfl, ?_⟩
      rw [List.isEmpty_iff.mp hempty]; rfl
  · split
    · exact .inl ⟨m, _, rfl, hphase, by simp⟩
    · cases hres : m.acceptOrderedEvents replay.events with
      | mk m' result =>
          cases result with
          | error e =>
              obtain ⟨⟨current, actual, he⟩, hp⟩ := acceptOrderedEvents_error hres
              exact .inl ⟨m', e, rfl, hp.trans hphase, by simp [he]⟩
          | ok u =>
              obtain ⟨-, hasc, hp, hq⟩ := acceptOrderedEvents_ok hres
              exact .inr ⟨m', rfl, trivial, hp.trans hphase, hq, hasc⟩

/-- The outcomes of a live event in the two phases that accept one. -/
theorem acceptLiveEvent_cases (serde : Serde V) {m : SyncMachine V} (event : StateEvent V)
    (hm : m.phase = .syncing ∨ m.phase = .live) :
    (∃ e, m.acceptLiveEvent serde event = (m, .error e) ∧ ∀ detail, e ≠ .invalidPhase detail) ∨
      (m.phase = .syncing ∧ m.geid < event.geid ∧ ∃ m',
        m.acceptLiveEvent serde event = (m', .ok none) ∧ m'.phase = .syncing ∧
        m'.geid = event.geid ∧ m'.queuedLive = m.queuedLive ++ [event]) ∨
      (m.phase = .live ∧ m.geid < event.geid ∧ ∃ m',
        m.acceptLiveEvent serde event = (m', .ok (some event)) ∧ m'.phase = .live ∧
        m'.geid = event.geid ∧ m'.queuedLive = m.queuedLive) := by
  unfold SyncMachine.acceptLiveEvent SyncMachine.acceptOrderedEvent
  rcases hm with hphase | hphase
  · simp only [hphase]
    cases serde.encodedLength event with
    | none => exact .inl ⟨_, rfl, by simp⟩
    | some bytes =>
        by_cases hfull : m.queuedLive.length ≥ maxQueuedLiveEvents ∨
            m.queuedLiveBytes + bytes > maxQueuedLiveBytes
        · exact .inl ⟨_, by simp only [hfull, if_true]; rfl, by simp⟩
        · by_cases hle : event.geid ≤ m.geid
          · exact .inl ⟨_, by simp only [hfull, hle, if_false, if_true]; rfl, by simp⟩
          · refine .inr (.inl ⟨trivial, Nat.lt_of_not_le hle, ?_⟩)
            simp only [hfull, hle, if_false]
            exact ⟨_, rfl, rfl, rfl, rfl⟩
  · simp only [hphase]
    by_cases hle : event.geid ≤ m.geid
    · exact .inl ⟨_, by simp only [hle, if_true]; rfl, by simp⟩
    · refine .inr (.inr ⟨trivial, Nat.lt_of_not_le hle, ?_⟩)
      simp only [hle, if_false]
      exact ⟨_, rfl, rfl, rfl, rfl⟩

/-- A replay batch keeps the invariant. Applied while live events are queued, it
overtakes them. -/
theorem sound_syncReplay {serde : Serde V} {h : History V} {s : Socket V} (io : FrameEnv)
    (replay : SyncReplay V) (hI : Handoff serde h s ∨ Converged serde h s) :
    Sound serde (h.observe serde s (s.processFrame serde io (.syncReplay replay)).1
      (.syncReplay replay)) (s.processFrame serde io (.syncReplay replay)).1
      (s.processFrame serde io (.syncReplay replay)).2 := by
  unfold Socket.processFrame
  obtain ⟨detail, hres⟩ | ⟨m', e, hres, hp, he⟩ | ⟨m', hres, hsync, hp, hq, hasc⟩ :=
    acceptReplay_cases s.machine replay
  · simp only [hres]
    exact Sound.of_recover hI io rfl fun _ _ => ⟨rfl, by simp [SyncMachine.accepted, hres]⟩
  · simp only [hres]
    exact Sound.of_recover hI io hp fun detail hd => absurd hd (he detail)
  · simp only [hres]
    have H : Handoff serde h s := by
      rcases hI with H | H
      · exact H
      · simp [H.phase] at hsync
    obtain ⟨applied, hA, hacc⟩ := H.applied
    have hrs : Resyncable ({ s with machine := m' } : Socket V) := .inl (hp.trans hsync)
    obtain ⟨hr, hA', hm, hst, hgen⟩ | ⟨hst, hne, hrestart⟩ :=
      applyAll_spec io replay.events hrs hA
    · generalize ({ s with machine := m' } : Socket V).applyAll serde io replay.events = p at *
      obtain ⟨s', result⟩ := p
      simp only at hr hA' hm hst hgen
      subst hr
      simp only
      rw [observe_of_generation hgen]
      have haccepted : s.machine.accepted serde (.syncReplay replay) = replay.events := by
        simp [SyncMachine.accepted, hres]
      rw [haccepted]
      have H' : Handoff serde { h with accepted := h.accepted ++ replay.events } s' := by
        refine ⟨?_, ?_, ?_, applied ++ replay.events, ⟨hA'.sent, hA'.ascends, hA'.folds⟩, ?_⟩
        · rw [hm]; exact hp.trans hsync
        · rw [hst]; exact H.status
        · rw [hm]; exact ascends_append.mpr ⟨_, H.ascends, hasc⟩
        · obtain ⟨mid, hbase, hrest⟩ := ascends_append.mp hA'.ascends
          have hmid : mid = s.store.state.geid := hbase.unique hA.ascends
          subst hmid
          have hmono : s.store.state.geid ≤ s'.store.state.geid := hrest.le
          rw [hm, hq]
          rcases hacc with hacc | ⟨q, hqmem, hle⟩
          · cases hqueue : s.machine.queuedLive with
            | nil => simp [hacc, hqueue]
            | cons q queue =>
                cases hev : replay.events with
                | nil => left; simp [hacc, hqueue]
                | cons event events =>
                    -- the batch is past everything queued, so the queue is overtaken
                    refine .inr ⟨q, List.mem_cons_self, ?_⟩
                    have hq1 : q.geid ≤ s.machine.geid :=
                      H.ascends.le_of_mem q (by rw [hacc, hqueue]; simp)
                    have hq2 : s.machine.geid < event.geid :=
                      hasc.lt_of_mem event (by rw [hev]; simp)
                    have hq3 : event.geid ≤ s'.store.state.geid :=
                      hrest.le_of_mem event (by rw [hev]; simp)
                    exact Nat.le_trans hq1 (Nat.le_trans (Nat.le_of_lt hq2) hq3)
          · exact .inr ⟨q, hqmem, Nat.le_trans hle hmono⟩
      exact ⟨fun _ => .inl H', fun hl => absurd hl H'.status⟩
    · generalize ({ s with machine := m' } : Socket V).applyAll serde io replay.events = p at *
      obtain ⟨s', result⟩ := p
      cases result with
      | error e => exact Sound.of_restarted hst fun hr => by cases hr
      | ok b =>
          cases b with
          | true => exact absurd rfl hne
          | false => exact Sound.of_restarted hst fun _ => (hrestart rfl).of_generation rfl

/-- `sync.complete` keeps the invariant: it publishes `Live` only when the whole
queue was applied, which an overtaken queue never is. -/
theorem sound_syncComplete {serde : Serde V} {h : History V} {s : Socket V} (io : FrameEnv)
    (complete : SyncComplete) (hI : Handoff serde h s ∨ Converged serde h s) :
    Sound serde (h.observe serde s (s.processFrame serde io (.syncComplete complete)).1
      (.syncComplete complete)) (s.processFrame serde io (.syncComplete complete)).1
      (s.processFrame serde io (.syncComplete complete)).2 := by
  unfold Socket.processFrame SyncMachine.acceptComplete
  by_cases hphase : s.machine.phase = .syncing
  swap
  · simp only [ne_eq, hphase, not_false_eq_true, if_true]
    exact Sound.of_recover hI io rfl fun _ _ => ⟨rfl, rfl⟩
  simp only [ne_eq, hphase, not_true_eq_false, if_false]
  have H : Handoff serde h s := by
    rcases hI with H | H
    · exact H
    · simp [H.phase] at hphase
  obtain ⟨applied, hA, hacc⟩ := H.applied
  generalize hs₁ : ({ s with
      machine := { s.machine with
        cursor := complete.cursor, phase := .live, queuedLiveBytes := 0, queuedLive := [] }
      store := s.store.updateCursor complete.cursor } : Socket V) = s₁
  have hrs : Resyncable s₁ := by rw [← hs₁]; exact .inr rfl
  have hA₁ : Applied serde h s₁.store applied := by
    rw [← hs₁]; exact hA.updateCursor complete.cursor
  have hgen₁ : s₁.store.generation = s.store.generation := by rw [← hs₁]; rfl
  obtain ⟨hr, hA', hm, -, hgen⟩ | ⟨hst, hne, hrestart⟩ :=
    applyAll_spec io s.machine.queuedLive hrs hA₁
  · generalize s₁.applyAll serde io s.machine.queuedLive = p at *
    obtain ⟨s', result⟩ := p
    simp only at hr hA' hm hgen
    subst hr
    simp only
    rw [observe_of_generation (t := s'.setStatus .live) (hgen.trans hgen₁)]
    have haccepted : s.machine.accepted serde (.syncComplete complete) = [] := rfl
    rw [haccepted, List.append_nil]
    have hinorder : h.accepted = applied ++ s.machine.queuedLive := by
      rcases hacc with hacc | ⟨q, hqmem, hle⟩
      · exact hacc
      · -- an overtaken event is not after the store, yet it was applied to it
        obtain ⟨mid, hbase, hrest⟩ := ascends_append.mp hA'.ascends
        have hlt := hrest.lt_of_mem q hqmem
        rw [hbase.unique hA.ascends] at hlt
        exact absurd hle (Nat.not_le_of_lt hlt)
    have hC : Converged serde h (s'.setStatus .live) := by
      refine ⟨?_, ?_, ?_, ?_⟩
      · rw [Socket.machine_setStatus, hm, ← hs₁]
      · rw [Socket.machine_setStatus, hm, ← hs₁]
      · rw [Socket.machine_setStatus, Socket.store_setStatus, hm, ← hs₁]
        exact H.ascends.unique (hinorder ▸ hA'.ascends)
      · rw [Socket.store_setStatus, hinorder]; exact hA'
    exact ⟨fun _ => .inr hC, fun _ => hC⟩
  · generalize s₁.applyAll serde io s.machine.queuedLive = p at *
    obtain ⟨s', result⟩ := p
    cases result with
    | error e => exact Sound.of_restarted hst fun hr => by cases hr
    | ok b =>
        cases b with
        | true => exact absurd rfl hne
        | false => exact Sound.of_restarted hst fun _ => (hrestart rfl).of_generation hgen₁

/-- A live event keeps the invariant: queued while syncing, applied when live. -/
theorem sound_stateEvent {serde : Serde V} {h : History V} {s : Socket V} (io : FrameEnv)
    (event : StateEvent V) (hI : Handoff serde h s ∨ Converged serde h s) :
    Sound serde (h.observe serde s (s.processFrame serde io (.stateEvent event)).1
      (.stateEvent event)) (s.processFrame serde io (.stateEvent event)).1
      (s.processFrame serde io (.stateEvent event)).2 := by
  have hrs : Resyncable s := resyncable_of_inv hI
  unfold Socket.processFrame
  obtain ⟨e, hres, he⟩ | ⟨hsync, hlt, m', hres, hp, hg, hq⟩ | ⟨hlive, hlt, m', hres, hp, hg, hq⟩ :=
    acceptLiveEvent_cases serde event hrs
  · simp only [hres]
    exact Sound.of_recover hI io rfl fun detail hd => absurd hd (he detail)
  · simp only [hres]
    have H : Handoff serde h s := by
      rcases hI with H | H
      · exact H
      · simp [H.phase] at hsync
    have haccepted : s.machine.accepted serde (.stateEvent event) = [event] := by
      simp [SyncMachine.accepted, hres]
    rw [observe_of_generation (s := s) (t := { s with machine := m' }) rfl, haccepted]
    obtain ⟨applied, hA, hacc⟩ := H.applied
    have H' : Handoff serde { h with accepted := h.accepted ++ [event] }
        { s with machine := m' } := by
      refine ⟨hp, H.status, ?_, applied, ⟨hA.sent, hA.ascends, hA.folds⟩, ?_⟩
      · exact ascends_append.mpr ⟨_, H.ascends, hlt, hg⟩
      · rw [hq]
        rcases hacc with hacc | ⟨q, hqmem, hle⟩
        · left; rw [hacc, List.append_assoc]
        · exact .inr ⟨q, List.mem_append_left _ hqmem, hle⟩
    exact ⟨fun _ => .inl H', fun hl => absurd hl H'.status⟩
  · simp only [hres]
    have H : Converged serde h s := by
      rcases hI with H | H
      · simp [H.phase] at hlive
      · exact H
    have hrs' : Resyncable ({ s with machine := m' } : Socket V) := .inr hp
    have hsingle : ({ s with machine := m' } : Socket V).applyAll serde io [event] =
        ({ s with machine := m' } : Socket V).applyOrResync serde io event := by
      unfold Socket.applyAll
      generalize ({ s with machine := m' } : Socket V).applyOrResync serde io event = p
      obtain ⟨s', _ | b⟩ := p
      · rfl
      · cases b <;> rfl
    have hspec := applyAll_spec io [event] hrs' H.applied
    rw [hsingle] at hspec
    generalize ({ s with machine := m' } : Socket V).applyOrResync serde io event = p at *
    obtain ⟨s', result⟩ := p
    rcases hspec with ⟨hr, hA', hm, -, hgen⟩ | ⟨hst, hne, hrestart⟩
    · simp only at hr hA' hm hgen
      subst hr
      simp only
      have haccepted : s.machine.accepted serde (.stateEvent event) = [event] := by
        simp [SyncMachine.accepted, hres]
      rw [observe_of_generation hgen, haccepted]
      have hC : Converged serde { h with accepted := h.accepted ++ [event] } s' := by
        refine ⟨by rw [hm]; exact hp, by rw [hm]; exact hq.trans H.queue, ?_,
          ⟨hA'.sent, hA'.ascends, hA'.folds⟩⟩
        obtain ⟨mid, -, hrest⟩ := ascends_append.mp hA'.ascends
        rw [hm, show m'.geid = event.geid from hg]
        exact (show s'.store.state.geid = event.geid from hrest.2).symm
      exact ⟨fun _ => .inr hC, fun _ => hC⟩
    · cases result with
      | error e => exact Sound.of_restarted hst fun hr => by cases hr
      | ok b =>
          cases b with
          | true => exact absurd rfl hne
          | false => exact Sound.of_restarted hst fun _ => (hrestart rfl).of_generation rfl

/-- A requested snapshot keeps the invariant. -/
theorem Sound.of_resync {serde : Serde V} {h : History V} {s : Socket V}
    {frame : ServerFrame V} (hI : Handoff serde h s ∨ Converged serde h s) (io : FrameEnv)
    (event : ClientEvent V) (reason : String) :
    Sound serde
      (h.observe serde s ((s.publish event).replaceSnapshotAndHello io reason).1 frame)
      ((s.publish event).replaceSnapshotAndHello io reason).1
      ((s.publish event).replaceSnapshotAndHello io reason).2 := by
  have hrs : Resyncable (s.publish event) := resyncable_of_inv (s := s) hI
  have hspec := replaceSnapshotAndHello_spec hrs io reason
  exact Sound.of_restarted hspec.1 fun hr => (hspec.2 hr).of_generation rfl

/-- **One frame keeps the invariant.** -/
theorem sound_processFrame {serde : Serde V} {h : History V} {s : Socket V} (io : FrameEnv)
    (frame : ServerFrame V) (hI : Handoff serde h s ∨ Converged serde h s) :
    Sound serde (h.observe serde s (s.processFrame serde io frame).1 frame)
      (s.processFrame serde io frame).1 (s.processFrame serde io frame).2 := by
  cases frame with
  | connectionReady ready => exact Sound.of_unchanged hI rfl rfl rfl rfl
  | syncReplay replay => exact sound_syncReplay io replay hI
  | syncComplete complete => exact sound_syncComplete io complete hI
  | syncRequired reason => exact Sound.of_resync hI io _ reason
  | stateEvent event => exact sound_stateEvent io event hI
  | commandOk ack =>
      cases hexp : ack.expiresAt <;>
        exact Sound.of_unchanged hI (by simp [Socket.processFrame, hexp])
          (by simp [Socket.processFrame, hexp]) (by simp [Socket.processFrame, hexp]) rfl
  | commandError error =>
      exact Sound.of_unchanged hI (by simp [Socket.processFrame])
        (by simp [Socket.processFrame]) (by simp [Socket.processFrame]) rfl
  | authRevoked reason => exact Sound.of_unchanged hI rfl rfl rfl rfl
  | unknown frame =>
      by_cases hstate : "state.".toList.isPrefixOf frame.frameType.toList = true
      · simp only [Socket.processFrame, hstate, if_true]
        exact Sound.of_resync hI io _ _
      · simp only [Socket.processFrame, hstate]
        exact Sound.of_unchanged hI rfl rfl rfl rfl

/-! ## Whole runs -/

/-- The invariant of a run: a socket that has not ended is in one of the two
invariants, and one that reports `Live` has converged. -/
def SocketRun.Inv (serde : Serde V) (r : SocketRun V) : Prop :=
  (r.ended = none → Handoff serde r.history r.socket ∨ Converged serde r.history r.socket) ∧
    (r.socket.status = .live → Converged serde r.history r.socket)

theorem SocketRun.inv_start (serde : Serde V) (s : Socket V) (ready : ConnectionReady) :
    (SocketRun.start s ready).Inv serde := by
  have H : Handoff serde (SocketRun.start s ready).history (SocketRun.start s ready).socket :=
    ⟨rfl, by simp [SocketRun.start, Socket.openSocket], rfl, [],
      ⟨by simp [SocketRun.start, Socket.openSocket], rfl, s.store.state, rfl, rfl⟩, .inl rfl⟩
  exact ⟨fun _ => .inl H, fun hl => absurd hl H.status⟩

theorem SocketRun.inv_step {serde : Serde V} {r r' : SocketRun V}
    {input : ServerFrame V × FrameEnv} (hI : r.Inv serde) (h : r.step serde input = some r') :
    r'.Inv serde := by
  unfold SocketRun.step at h
  cases he : r.ended with
  | some e => simp [he] at h
  | none =>
      simp only [he, Option.some.injEq] at h
      subst h
      have hS := sound_processFrame input.2 input.1 (hI.1 he)
      refine ⟨fun hended => hS.1 ?_, hS.2⟩
      cases hr : (r.socket.processFrame serde input.2 input.1).2 with
      | ok u => rfl
      | error e => simp [hr] at hended

/-- **`Live` means fully applied.** After any run of frames on one socket that
leaves the published status `Live`, the machine is live with an empty queue and
at the store's GEID; the events accepted since the base of the handoff ascend
strictly, were each broadcast by the store exactly once and in that order, and
fold from the base to the projected fields of the store. -/
theorem live_means_fully_applied (serde : Serde V) (s : Socket V) (ready : ConnectionReady)
    (frames : List (ServerFrame V × FrameEnv)) (r : SocketRun V)
    (hrun : exec (SocketRun.step serde) (SocketRun.start s ready) frames = some r)
    (hlive : r.socket.status = .live) :
    r.socket.machine.phase = .live ∧ r.socket.machine.queuedLive = [] ∧
      r.socket.machine.geid = r.socket.store.state.geid ∧
      (r.history.accepted.map StateEvent.geid).Pairwise (· < ·) ∧
      (∀ event ∈ r.history.accepted, r.history.base.geid < event.geid) ∧
      r.socket.store.events.sent = r.history.earlier ++ r.history.accepted ∧
      ∃ folded, r.history.accepted.foldlM (applyKnownEvent serde) r.history.base = .ok folded ∧
        r.socket.store.state =
          folded.reposition r.socket.store.state.cursor r.socket.store.state.geid := by
  have hI : r.Inv serde :=
    invariant (fun _ _ _ hI h => SocketRun.inv_step hI h) (SocketRun.inv_start serde s ready) hrun
  have hC := hI.2 hlive
  exact ⟨hC.phase, hC.queue, hC.geid, hC.applied.ascends.pairwise, hC.applied.ascends.lt_of_mem,
    hC.applied.sent, hC.applied.folds⟩

/-- A live event queued during the handoff is released by `sync.complete`. -/
def queuedThenComplete : List (ServerFrame (Option VoiceAuthority) × FrameEnv) :=
  [(.stateEvent (sampleEvent "voice.authority.updated" 7 none), sampleEnv 9),
    (.syncComplete ⟨sampleCursor⟩, sampleEnv 9)]

theorem live_means_fully_applied_queuedThenComplete :
    ∃ r, exec (SocketRun.step authorityPayloads) (SocketRun.start (.sample 5 none) (sampleReady 0))
        queuedThenComplete = some r ∧ r.socket.status = .live ∧
      r.history.accepted = [sampleEvent "voice.authority.updated" 7 none] ∧
      r.socket.store.events.sent = r.history.earlier ++ r.history.accepted := by
  refine ⟨_, rfl, rfl, rfl, ?_⟩
  have h := live_means_fully_applied authorityPayloads (.sample 5 none) (sampleReady 0)
    queuedThenComplete _ rfl rfl
  exact h.2.2.2.2.2.1

end ZephyrVox.Realtime
