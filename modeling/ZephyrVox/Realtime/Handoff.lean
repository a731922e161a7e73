import ZephyrVox.Lib.FixedWidth
import ZephyrVox.Lib.Transition
import ZephyrVox.Realtime.Sync

/-!
# The handoff queue

Live events that arrive before `sync.complete` wait in a queue bounded in number and in
bytes. Every public call of the machine may come at any time, also after a failed one;
the queue is what was accepted since the hello and is empty outside the replay.

## Main definitions

* `SyncCall V` — the calls that take the machine mutably or compare with it.
* `Handover V` — a machine, and the live events accepted since its last hello.
* `QueueBounded` — what is always true of the queue.
* `handoff_queue` — it holds after any calls, and a completion releases the queue.
-/

namespace ZephyrVox.Realtime

open Transition FixedWidth SyncMachine

variable {V : Type}

/-- A call of the machine. -/
inductive SyncCall (V : Type)
  | fallible (op : SyncOp V)
  | replaceSnapshot (state : ClientState)
  | checkStreamEpoch (actual : StreamEpoch)
  | disconnect
  | reconnecting

/-- The machine after a call. -/
def SyncCall.run (serde : Serde V) (m : SyncMachine V) : SyncCall V → SyncMachine V
  | .fallible op => (op.run serde m).1
  | .replaceSnapshot state => m.replaceSnapshot state
  | .checkStreamEpoch _ => m
  | .disconnect => m.disconnect
  | .reconnecting => m.reconnecting

/-- A machine, and the live events it accepted since the last successful `begin_sync`. -/
structure Handover (V : Type) where
  machine : SyncMachine V
  sinceSync : List (StateEvent V)

namespace Handover

/-- The live events accepted since the last hello, after a call. -/
def observe (serde : Serde V) (h : Handover V) : SyncCall V → List (StateEvent V)
  | .fallible .beginSync =>
      match h.machine.beginSync.2 with
      | .ok _ => []
      | .error _ => h.sinceSync
  | .fallible (.acceptLiveEvent event) =>
      match (h.machine.acceptLiveEvent serde event).2 with
      | .ok _ => h.sinceSync ++ [event]
      | .error _ => h.sinceSync
  | _ => h.sinceSync

/-- One call. -/
def step (serde : Serde V) (h : Handover V) (call : SyncCall V) : Option (Handover V) :=
  some ⟨call.run serde h.machine, h.observe serde call⟩

/-- A new machine. -/
def new (state : ClientState) : Handover V := ⟨.new state, []⟩

end Handover

/-- What is always true of the queue. -/
structure QueueBounded (serde : Serde V) (m : SyncMachine V) : Prop where
  syncing : m.queuedLive ≠ [] → m.phase = .syncing
  length_le : m.queuedLive.length ≤ maxQueuedLiveEvents
  ascending : (m.queuedLive.map StateEvent.geid).Pairwise (· < ·)
  le_geid : ∀ event ∈ m.queuedLive, event.geid ≤ m.geid
  bytes : ∃ sizes, m.queuedLive.mapM serde.encodedLength = some sizes ∧
    m.queuedLiveBytes = sizes.sum
  bytes_le : m.queuedLiveBytes ≤ maxQueuedLiveBytes

/-! ## What a call does to the queue -/

/-- The queue stays as it is and the boundary does not go back; the replay is neither
begun nor left with a queue. -/
structure QueueKept (m m' : SyncMachine V) : Prop where
  queue : m'.queuedLive = m.queuedLive
  bytes : m'.queuedLiveBytes = m.queuedLiveBytes
  geid : m.geid ≤ m'.geid
  phase : m'.phase = m.phase ∨ m.phase ≠ .syncing ∧ m'.phase ≠ .syncing

/-- The queue is empty. -/
structure QueueCleared (m' : SyncMachine V) : Prop where
  queue : m'.queuedLive = []
  bytes : m'.queuedLiveBytes = 0

/-- An event is queued within the bounds. -/
structure QueueGrown (serde : Serde V) (m : SyncMachine V) (event : StateEvent V)
    (m' : SyncMachine V) : Prop where
  phase : m.phase = .syncing ∧ m'.phase = .syncing
  queue : m'.queuedLive = m.queuedLive ++ [event]
  length_lt : m.queuedLive.length < maxQueuedLiveEvents
  above : m.geid < event.geid
  geid : m'.geid = event.geid
  bytes : ∃ size, serde.encodedLength event = some size ∧
    m.queuedLiveBytes + size ≤ maxQueuedLiveBytes ∧
    m'.queuedLiveBytes = m.queuedLiveBytes + size

theorem QueueKept.refl (m : SyncMachine V) : QueueKept m m :=
  ⟨rfl, rfl, Nat.le_refl _, .inl rfl⟩

theorem QueueKept.trans {m m' m'' : SyncMachine V} (h : QueueKept m m')
    (h' : QueueKept m' m'') : QueueKept m m'' := by
  refine ⟨h'.queue.trans h.queue, h'.bytes.trans h.bytes, h.geid.trans h'.geid, ?_⟩
  rcases h.phase with hsame | hout
  · rw [← hsame]
    exact h'.phase
  · rcases h'.phase with hsame' | hout'
    · exact .inr ⟨hout.1, hsame' ▸ hout.2⟩
    · exact .inr ⟨hout.1, hout'.2⟩

theorem queueKept_acceptOrderedEvent (m : SyncMachine V) (event : StateEvent V) :
    QueueKept m (m.acceptOrderedEvent event).1 := by
  unfold acceptOrderedEvent
  split
  · exact .refl m
  next hlt => exact ⟨rfl, rfl, Nat.le_of_not_le hlt, .inl rfl⟩

theorem queueKept_acceptOrderedEvents (m : SyncMachine V) (events : List (StateEvent V)) :
    QueueKept m (m.acceptOrderedEvents events).1 := by
  induction events generalizing m with
  | nil => exact .refl m
  | cons event rest ih =>
      have hfirst := queueKept_acceptOrderedEvent m event
      unfold acceptOrderedEvents
      split
      next m' heq =>
        rw [heq] at hfirst
        exact hfirst.trans (ih m')
      next m' e heq =>
        rw [heq] at hfirst
        exact hfirst

theorem queueKept_acceptReplay (m : SyncMachine V) (replay : SyncReplay V) :
    QueueKept m (m.acceptReplay replay).1 := by
  by_cases hchecks : m.phase = .syncing ∧ replay.BoundsMatch
  · rw [acceptReplay_of_boundsMatch hchecks.1 hchecks.2]
    exact queueKept_acceptOrderedEvents m replay.events
  · rw [acceptReplay_of_not hchecks]
    exact .refl m

/-- **A live event** is queued during the replay, passed on after it, or rejected. -/
theorem acceptLiveEvent_grows (serde : Serde V) (m : SyncMachine V) (event : StateEvent V) :
    (∃ m', m.acceptLiveEvent serde event = (m', .ok none) ∧ QueueGrown serde m event m') ∨
    (∃ m', m.acceptLiveEvent serde event = (m', .ok (some event)) ∧ m.phase ≠ .syncing ∧
      QueueKept m m') ∨
    ∃ e, m.acceptLiveEvent serde event = (m, .error e) := by
  have rejected {m' : SyncMachine V} {e : SyncError}
      (h : m.acceptOrderedEvent event = (m', .error e)) : m' = m := by
    unfold acceptOrderedEvent at h
    split at h
    · exact (Prod.mk.inj h).1.symm
    · cases (Prod.mk.inj h).2
  unfold acceptLiveEvent
  split
  next hphase =>
    split
    · exact .inr (.inr ⟨_, rfl⟩)
    next size hsize =>
      split
      · exact .inr (.inr ⟨_, rfl⟩)
      next hroom =>
        rw [not_or, Nat.not_le, Nat.not_lt] at hroom
        split
        next m' e heq =>
          cases rejected heq
          exact .inr (.inr ⟨e, rfl⟩)
        next m' heq =>
          unfold acceptOrderedEvent at heq
          split at heq
          · cases (Prod.mk.inj heq).2
          next hlt =>
            cases (Prod.mk.inj heq).1
            exact .inl ⟨_, rfl, ⟨hphase, hphase⟩, rfl, hroom.1, Nat.lt_of_not_le hlt, rfl, size,
              hsize, hroom.2, rfl⟩
  next hphase =>
    have hkept := queueKept_acceptOrderedEvent m event
    split
    next m' e heq =>
      cases rejected heq
      exact .inr (.inr ⟨e, rfl⟩)
    next m' heq =>
      rw [heq] at hkept
      exact .inr (.inl ⟨m', rfl, by rw [hphase]; decide, hkept⟩)
  · exact .inr (.inr ⟨_, rfl⟩)

/-- A completion releases the queue, or is rejected. -/
theorem acceptComplete_cases (m : SyncMachine V) (complete : SyncComplete) :
    (m.phase = .syncing ∧ (m.acceptComplete complete).2 = .ok m.queuedLive ∧
      QueueCleared (m.acceptComplete complete).1) ∨
    ∃ e, m.acceptComplete complete = (m, .error e) := by
  unfold acceptComplete
  split
  · exact .inr ⟨_, rfl⟩
  next hphase => exact .inl ⟨not_not.mp hphase, rfl, rfl, rfl⟩

/-- **What a call does to the queue**, and to the events accepted since the hello. -/
theorem step_queue {serde : Serde V} {h h' : Handover V} {call : SyncCall V}
    (hstep : h.step serde call = some h') :
    (QueueCleared h'.machine ∧ (h'.machine.phase = .syncing → h'.sinceSync = [])) ∨
    (QueueKept h.machine h'.machine ∧
      (h.machine.phase = .syncing → h'.sinceSync = h.sinceSync)) ∨
    ∃ event, QueueGrown serde h.machine event h'.machine ∧
      h'.sinceSync = h.sinceSync ++ [event] := by
  cases hstep
  cases call with
  | replaceSnapshot state => exact .inl ⟨⟨rfl, rfl⟩, fun hphase => by cases hphase⟩
  | checkStreamEpoch actual => exact .inr (.inl ⟨.refl _, fun _ => rfl⟩)
  | disconnect => exact .inl ⟨⟨rfl, rfl⟩, fun hphase => by cases hphase⟩
  | reconnecting => exact .inl ⟨⟨rfl, rfl⟩, fun hphase => by cases hphase⟩
  | fallible op =>
      cases op with
      | beginConnecting =>
          refine .inr (.inl ⟨?_, fun _ => rfl⟩)
          simp only [SyncCall.run, SyncOp.run]
          unfold beginConnecting
          split <;> rename_i hphase
          · exact ⟨rfl, rfl, Nat.le_refl _, .inr ⟨by simp [hphase], by simp⟩⟩
          · exact ⟨rfl, rfl, Nat.le_refl _, .inr ⟨by simp [hphase], by simp⟩⟩
          · exact .refl _
      | acceptReady id =>
          refine .inr (.inl ⟨?_, fun _ => rfl⟩)
          simp only [SyncCall.run, SyncOp.run]
          unfold acceptReady
          split <;> rename_i hphase
          · exact ⟨rfl, rfl, Nat.le_refl _, .inr ⟨by simp [hphase], by simp⟩⟩
          · exact ⟨rfl, rfl, Nat.le_refl _, .inr ⟨by simp [hphase], by simp⟩⟩
          · exact .refl _
      | beginSync =>
          simp only [SyncCall.run, SyncOp.run, Handover.observe]
          unfold beginSync
          split
          · exact .inl ⟨⟨rfl, rfl⟩, fun _ => rfl⟩
          · exact .inr (.inl ⟨.refl _, fun _ => rfl⟩)
      | acceptReplay replay =>
          exact .inr (.inl ⟨queueKept_acceptReplay h.machine replay, fun _ => rfl⟩)
      | acceptLiveEvent event =>
          simp only [SyncCall.run, SyncOp.run, Handover.observe]
          rcases acceptLiveEvent_grows serde h.machine event with ⟨m', heq, hgrown⟩ |
            ⟨m', heq, hphase, hkept⟩ | ⟨e, heq⟩
          · rw [heq]
            exact .inr (.inr ⟨event, hgrown, rfl⟩)
          · rw [heq]
            exact .inr (.inl ⟨hkept, fun hsyncing => absurd hsyncing hphase⟩)
          · rw [heq]
            exact .inr (.inl ⟨.refl _, fun _ => rfl⟩)
      | acceptComplete complete =>
          rcases acceptComplete_cases h.machine complete with ⟨hphase, -, hcleared⟩ | ⟨e, heq⟩
          · refine .inl ⟨hcleared, fun hsyncing => ?_⟩
            simp [SyncCall.run, SyncOp.run, acceptComplete, hphase] at hsyncing
          · simp only [SyncCall.run, SyncOp.run, heq]
            exact .inr (.inl ⟨.refl _, fun _ => rfl⟩)
      | requireSnapshot reason =>
          simp only [SyncCall.run, SyncOp.run]
          unfold requireSnapshot
          split
          · exact .inl ⟨⟨rfl, rfl⟩, fun hphase => by cases hphase⟩
          · exact .inl ⟨⟨rfl, rfl⟩, fun hphase => by cases hphase⟩
          · exact .inl ⟨⟨rfl, rfl⟩, fun hphase => by cases hphase⟩
          · exact .inr (.inl ⟨.refl _, fun _ => rfl⟩)

/-! ## The invariant -/

theorem QueueCleared.bounded {serde : Serde V} {m : SyncMachine V} (h : QueueCleared m) :
    QueueBounded serde m where
  syncing hne := absurd h.queue hne
  length_le := by simp [h.queue]
  ascending := by simp [h.queue]
  le_geid event hmem := by simp [h.queue] at hmem
  bytes := ⟨[], by rw [h.queue]; rfl, h.bytes⟩
  bytes_le := by rw [h.bytes]; exact Nat.zero_le _

theorem QueueBounded.kept {serde : Serde V} {m m' : SyncMachine V} (H : QueueBounded serde m)
    (h : QueueKept m m') : QueueBounded serde m' where
  syncing hne := by
    have hphase := H.syncing (h.queue ▸ hne)
    rcases h.phase with hsame | hout
    · rw [hsame, hphase]
    · exact absurd hphase hout.1
  length_le := h.queue ▸ H.length_le
  ascending := h.queue ▸ H.ascending
  le_geid event hmem := (H.le_geid event (h.queue ▸ hmem)).trans h.geid
  bytes := by rw [h.queue, h.bytes]; exact H.bytes
  bytes_le := h.bytes ▸ H.bytes_le

theorem QueueBounded.grown {serde : Serde V} {m m' : SyncMachine V} {event : StateEvent V}
    (H : QueueBounded serde m) (h : QueueGrown serde m event m') : QueueBounded serde m' := by
  obtain ⟨size, hsize, hle, hbytes⟩ := h.bytes
  obtain ⟨sizes, hsizes, hsum⟩ := H.bytes
  refine ⟨fun _ => h.phase.2, ?_, ?_, ?_, ⟨sizes ++ [size], ?_, ?_⟩, hbytes ▸ hle⟩
  · rw [h.queue, List.length_append, List.length_singleton]
    exact h.length_lt
  · rw [h.queue, List.map_append, List.pairwise_append]
    refine ⟨H.ascending, List.pairwise_singleton _ _, ?_⟩
    intro geid hgeid last hlast
    obtain ⟨earlier, hmem, rfl⟩ := List.mem_map.mp hgeid
    rw [List.mem_singleton.mp hlast]
    exact Nat.lt_of_le_of_lt (H.le_geid earlier hmem) h.above
  · intro queued hqueued
    rw [h.geid]
    rw [h.queue] at hqueued
    rcases List.mem_append.mp hqueued with hold | hnew
    · exact (H.le_geid queued hold).trans (Nat.le_of_lt h.above)
    · rw [List.mem_singleton.mp hnew]
  · rw [h.queue, List.mapM_append, hsizes, List.mapM_cons, hsize]
    rfl
  · rw [hbytes, hsum, List.sum_append, List.sum_singleton]

/-- The queue is bounded, and it is what was accepted since the hello. -/
structure Handover.Inv (serde : Serde V) (h : Handover V) : Prop where
  bounded : QueueBounded serde h.machine
  queued : h.machine.phase = .syncing → h.machine.queuedLive = h.sinceSync

theorem Handover.inv_new (serde : Serde V) (state : ClientState) : (Handover.new state).Inv serde :=
  ⟨QueueCleared.bounded ⟨rfl, rfl⟩, fun h => by cases h⟩

theorem Handover.inv_step {serde : Serde V} {h h' : Handover V} {call : SyncCall V}
    (H : h.Inv serde) (hstep : h.step serde call = some h') : h'.Inv serde := by
  rcases step_queue hstep with ⟨hcleared, hsince⟩ | ⟨hkept, hsince⟩ | ⟨event, hgrown, hsince⟩
  · exact ⟨hcleared.bounded, fun hphase => by rw [hcleared.queue, hsince hphase]⟩
  · refine ⟨H.bounded.kept hkept, fun hphase => ?_⟩
    have hbefore : h.machine.phase = .syncing := by
      rcases hkept.phase with hsame | hout
      · rw [← hsame, hphase]
      · exact absurd hphase hout.2
    rw [hkept.queue, hsince hbefore, H.queued hbefore]
  · exact ⟨H.bounded.grown hgrown, fun _ => by rw [hgrown.queue, hsince, H.queued hgrown.phase.1]⟩

/-- The test of the bound in 64 bits is the test in exact arithmetic. -/
theorem saturatingAdd_gt_iff (bytes size : ℕ) :
    maxQueuedLiveBytes < saturatingAdd 64 bytes size ↔ maxQueuedLiveBytes < bytes + size := by
  have hmax : maxQueuedLiveBytes < maxValue 64 := by decide +kernel
  rw [saturatingAdd, lt_min_iff]
  exact and_iff_left hmax

/-- **The handoff queue is bounded and complete.** After any calls, failed ones included,
the queue keeps its bounds, the size of an event that is queued is added without overflow
and the test before is exact, and a completion that succeeds returns the live events
accepted since the last hello, in order. -/
theorem handoff_queue (serde : Serde V) (state : ClientState) (calls : List (SyncCall V))
    (h : Handover V) (hrun : exec (Handover.step serde) (Handover.new state) calls = some h) :
    QueueBounded serde h.machine ∧
      (∀ event m', h.machine.acceptLiveEvent serde event = (m', .ok none) →
        ∃ size, serde.encodedLength event = some size ∧
          checkedAdd 64 h.machine.queuedLiveBytes size = some m'.queuedLiveBytes) ∧
      (∀ size, maxQueuedLiveBytes < saturatingAdd 64 h.machine.queuedLiveBytes size ↔
        maxQueuedLiveBytes < h.machine.queuedLiveBytes + size) ∧
      ∀ complete m' released, h.machine.acceptComplete complete = (m', .ok released) →
        released = h.sinceSync := by
  have H : h.Inv serde := invariant (fun _ _ _ H hstep => Handover.inv_step H hstep)
    (Handover.inv_new serde state) hrun
  refine ⟨H.bounded, fun event m' hlive => ?_, saturatingAdd_gt_iff _, ?_⟩
  · rcases acceptLiveEvent_grows serde h.machine event with ⟨m'', heq, hgrown⟩ |
      ⟨m'', heq, -⟩ | ⟨e, heq⟩
    · rw [heq] at hlive
      cases hlive
      obtain ⟨size, hsize, hle, hbytes⟩ := hgrown.bytes
      have hfits : maxQueuedLiveBytes < 2 ^ 64 := by decide +kernel
      exact ⟨size, hsize, by rw [hbytes, checkedAdd_eq_some (Nat.lt_of_le_of_lt hle hfits)]⟩
    · rw [heq] at hlive
      cases hlive
    · rw [heq] at hlive
      cases hlive
  · intro complete m' released hcomplete
    rcases acceptComplete_cases h.machine complete with ⟨hphase, hreleased, -⟩ | ⟨e, heq⟩
    · rw [hcomplete] at hreleased
      cases hreleased
      exact H.queued hphase
    · rw [heq] at hcomplete
      cases hcomplete

/-- Two live events are queued around a replay batch that fails, and released. -/
def queuedAroundReplay : List (SyncCall (Option VoiceAuthority)) :=
  [.fallible .beginConnecting, .fallible (.acceptReady (sampleId .controlConnection 0)),
    .fallible .beginSync, .fallible (.acceptLiveEvent (sampleEvent "server.updated" 7 none)),
    .fallible (.acceptReplay ⟨0, 1, []⟩),
    .fallible (.acceptLiveEvent (sampleEvent "server.updated" 8 none))]

theorem handoff_queue_around_replay :
    ∃ h, exec (Handover.step authorityPayloads) (Handover.new (sampleState 5 none))
        queuedAroundReplay = some h ∧
      (h.machine.acceptComplete ⟨sampleCursor⟩).2 = .ok h.sinceSync ∧
      h.sinceSync.map StateEvent.geid = [7, 8] ∧ QueueBounded authorityPayloads h.machine :=
  ⟨_, rfl, rfl, rfl, (handoff_queue authorityPayloads (sampleState 5 none) queuedAroundReplay _
    rfl).1⟩

end ZephyrVox.Realtime
