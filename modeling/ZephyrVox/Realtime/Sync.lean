import ZephyrVox.Realtime.Projection

/-!
# The synchronization state machine

A pure validator of the realtime handoff. It owns no socket and never touches
the projection: it records the cursor and GEID boundary the store has installed
and validates each frame before the connection applies it.

Every operation returns the machine it leaves behind together with its result,
because a batch that is rejected half way has already advanced the boundary.

## Main definitions

* `SyncMachine V` — phase, boundary and the queue of early live events.
* `SyncMachine.acceptReplay`, `SyncMachine.acceptLiveEvent`,
  `SyncMachine.acceptComplete`, `SyncMachine.requireSnapshot` — the operations.
* `SyncMachine.acceptedPrefix` — the events of a batch the machine lets through.
* `SyncOp.Atomic` — an operation that fails leaves the whole machine as it was.

`SyncOp.failed_operation_atomic_iff` names the one kind of input on which an
operation is not atomic.
-/

namespace ZephyrVox.Realtime

/-- The synchronization phase used by the WebSocket protocol. -/
inductive SyncPhase
  /-- No socket is attached. -/
  | disconnected
  /-- A socket upgrade is in progress. -/
  | connecting
  /-- `connection.ready` was received. -/
  | ready
  /-- `sync.hello` was sent and replay is being consumed. -/
  | syncing
  /-- `sync.complete` was received. -/
  | live
  /-- The prior socket ended and a new one is being attempted. -/
  | reconnecting
  deriving DecidableEq, Repr

/-- The name `{phase:?}` prints. -/
def SyncPhase.debug : SyncPhase → String
  | .disconnected => "Disconnected"
  | .connecting => "Connecting"
  | .ready => "Ready"
  | .syncing => "Syncing"
  | .live => "Live"
  | .reconnecting => "Reconnecting"

/-- Errors raised by the synchronization state machine. -/
inductive SyncError
  | invalidPhase (detail : String)
  | replayBounds
  | queueLimit
  | geidOrder (current actual : Geid)
  | geidGap (expected actual : Geid)
  | streamEpochChanged (expected actual : StreamEpoch)
  | snapshotRequired (reason : String)
  deriving DecidableEq, Repr

/-- The text of a synchronization error. -/
def SyncError.display : SyncError → String
  | .invalidPhase detail => "invalid synchronization phase transition: " ++ detail
  | .replayBounds => "sync replay GEID bounds are inconsistent"
  | .queueLimit => "queued live state events exceed the synchronization limit"
  | .geidOrder current actual =>
      "state stream GEID " ++ toString actual ++ " is not after " ++ toString current
  | .geidGap expected actual =>
      "state stream GEID gap: expected " ++ toString expected ++ ", got " ++ toString actual
  | .streamEpochChanged expected actual =>
      "state stream epoch changed from " ++ expected.toHex ++ " to " ++ actual.toHex
  | .snapshotRequired reason => "server requires a state snapshot: " ++ reason

/-- A bounded replay batch sent during synchronization. -/
structure SyncReplay (V : Type) where
  fromGeid : Geid
  toGeid : Geid
  events : List (StateEvent V)

/-- The end of replay and the cursor at the replay high-water. -/
structure SyncComplete where
  cursor : Cursor
  deriving DecidableEq, Repr

/-- The most live events the handoff queue holds. -/
def maxQueuedLiveEvents : ℕ := 256

/-- The most encoded bytes the handoff queue holds. -/
def maxQueuedLiveBytes : ℕ := 2 ^ 20

/-- The validator of the realtime state handoff. -/
structure SyncMachine (V : Type) where
  phase : SyncPhase
  cursor : Cursor
  streamEpoch : StreamEpoch
  geid : Geid
  controlConnectionId : Option ControlConnectionId
  queuedLive : List (StateEvent V)
  queuedLiveBytes : ℕ

namespace SyncMachine

variable {V : Type}

/-- A machine bound to the current client snapshot. -/
def new (state : ClientState) : SyncMachine V where
  phase := .disconnected
  cursor := state.cursor
  streamEpoch := state.streamEpoch
  geid := state.geid
  controlConnectionId := none
  queuedLive := []
  queuedLiveBytes := 0

/-- Rebind to a replacement snapshot and discard the queue. -/
def replaceSnapshot (m : SyncMachine V) (state : ClientState) : SyncMachine V :=
  { m with
    cursor := state.cursor
    streamEpoch := state.streamEpoch
    geid := state.geid
    queuedLive := []
    queuedLiveBytes := 0
    phase := .ready }

/-- Check that a checkpoint belongs to this snapshot's process epoch. -/
def checkStreamEpoch (m : SyncMachine V) (actual : StreamEpoch) : Except SyncError Unit :=
  if m.streamEpoch = actual then .ok ()
  else .error (.streamEpochChanged m.streamEpoch actual)

/-- Record that a socket attempt has started. -/
def beginConnecting (m : SyncMachine V) : SyncMachine V × Except SyncError Unit :=
  match m.phase with
  | .disconnected | .reconnecting => ({ m with phase := .connecting }, .ok ())
  | phase => (m, .error (.invalidPhase ("cannot connect from " ++ phase.debug)))

/-- Accept the first server frame. -/
def acceptReady (m : SyncMachine V) (id : ControlConnectionId) :
    SyncMachine V × Except SyncError Unit :=
  match m.phase with
  | .connecting | .reconnecting =>
      ({ m with controlConnectionId := some id, phase := .ready }, .ok ())
  | phase => (m, .error (.invalidPhase ("connection.ready received in " ++ phase.debug)))

/-- Mark the point at which `sync.hello` has been sent. -/
def beginSync (m : SyncMachine V) : SyncMachine V × Except SyncError Cursor :=
  if m.phase = .ready then
    ({ m with phase := .syncing, queuedLive := [], queuedLiveBytes := 0 }, .ok m.cursor)
  else (m, .error (.invalidPhase ("sync.hello sent in " ++ m.phase.debug)))

/-- Advance the stream boundary after enforcing monotonic order. Visibility
filtering leaves gaps, so only backward and repeated values are rejected. -/
def acceptOrderedEvent (m : SyncMachine V) (event : StateEvent V) :
    SyncMachine V × Except SyncError Unit :=
  if event.geid ≤ m.geid then (m, .error (.geidOrder m.geid event.geid))
  else ({ m with geid := event.geid, cursor := event.cursor }, .ok ())

/-- The loop of `acceptReplay`: events before the first rejected one stay
accepted. -/
def acceptOrderedEvents (m : SyncMachine V) :
    List (StateEvent V) → SyncMachine V × Except SyncError Unit
  | [] => (m, .ok ())
  | event :: rest =>
      match m.acceptOrderedEvent event with
      | (m', .ok ()) => m'.acceptOrderedEvents rest
      | (m', .error e) => (m', .error e)

/-- Validate and accept one replay batch. -/
def acceptReplay (m : SyncMachine V) (replay : SyncReplay V) :
    SyncMachine V × Except SyncError Unit :=
  if m.phase ≠ .syncing then
    (m, .error (.invalidPhase ("sync.replay received in " ++ m.phase.debug)))
  else if replay.events.isEmpty then
    if replay.fromGeid ≠ replay.toGeid ∨ replay.fromGeid ≠ m.geid then (m, .error .replayBounds)
    else (m, .ok ())
  else if replay.events.head?.map StateEvent.geid ≠ some replay.fromGeid ∨
      replay.events.getLast?.map StateEvent.geid ≠ some replay.toGeid then
    (m, .error .replayBounds)
  else m.acceptOrderedEvents replay.events

/-- Validate one live event; before completion it is queued and nothing is
released. -/
def acceptLiveEvent (serde : Serde V) (m : SyncMachine V) (event : StateEvent V) :
    SyncMachine V × Except SyncError (Option (StateEvent V)) :=
  match m.phase with
  | .syncing =>
      match serde.encodedLength event with
      | none => (m, .error .queueLimit)
      | some eventBytes =>
          if m.queuedLive.length ≥ maxQueuedLiveEvents ∨
              m.queuedLiveBytes + eventBytes > maxQueuedLiveBytes then
            (m, .error .queueLimit)
          else
            match m.acceptOrderedEvent event with
            | (m', .error e) => (m', .error e)
            | (m', .ok ()) =>
                ({ m' with
                    queuedLiveBytes := m'.queuedLiveBytes + eventBytes
                    queuedLive := m'.queuedLive ++ [event] }, .ok none)
  | .live =>
      match m.acceptOrderedEvent event with
      | (m', .error e) => (m', .error e)
      | (m', .ok ()) => (m', .ok (some event))
  | phase => (m, .error (.invalidPhase ("state.event received in " ++ phase.debug)))

/-- Accept `sync.complete`, update the cursor and release the queue. -/
def acceptComplete (m : SyncMachine V) (complete : SyncComplete) :
    SyncMachine V × Except SyncError (List (StateEvent V)) :=
  if m.phase ≠ .syncing then
    (m, .error (.invalidPhase ("sync.complete received in " ++ m.phase.debug)))
  else
    ({ m with
        cursor := complete.cursor
        phase := .live
        queuedLiveBytes := 0
        queuedLive := [] }, .ok m.queuedLive)

/-- Reset the machine for a replacement snapshot. -/
def requireSnapshot (m : SyncMachine V) (reason : String) :
    SyncMachine V × Except SyncError Unit :=
  match m.phase with
  | .ready | .syncing | .live =>
      ({ m with queuedLive := [], queuedLiveBytes := 0, phase := .ready }, .ok ())
  | phase =>
      (m, .error (.invalidPhase
        ("sync.required received in " ++ phase.debug ++ ": " ++ reason)))

/-- Mark the socket disconnected while keeping the last durable cursor. -/
def disconnect (m : SyncMachine V) : SyncMachine V :=
  { m with
    queuedLive := []
    queuedLiveBytes := 0
    controlConnectionId := none
    phase := .disconnected }

/-- Mark the socket as entering reconnect backoff. -/
def reconnecting (m : SyncMachine V) : SyncMachine V :=
  { m with
    queuedLive := []
    queuedLiveBytes := 0
    controlConnectionId := none
    phase := .reconnecting }

/-! ## What an accepted batch does -/

/-- The events of a batch that the machine lets through: those before the first
one that does not advance the boundary. -/
def acceptedPrefix (geid : Geid) : List (StateEvent V) → List (StateEvent V)
  | [] => []
  | event :: rest => if event.geid ≤ geid then [] else event :: acceptedPrefix event.geid rest

/-- The GEIDs of `events` ascend strictly from `start` and end at `stop`. -/
def Ascends (start : Geid) : List (StateEvent V) → Geid → Prop
  | [], stop => stop = start
  | event :: rest, stop => start < event.geid ∧ Ascends event.geid rest stop

theorem ascends_append {a b : Geid} {xs ys : List (StateEvent V)} :
    Ascends a (xs ++ ys) b ↔ ∃ m, Ascends a xs m ∧ Ascends m ys b := by
  induction xs generalizing a with
  | nil => simp [Ascends]
  | cons x xs ih => simp [Ascends, ih, and_assoc]

theorem Ascends.le {a b : Geid} {xs : List (StateEvent V)} (h : Ascends a xs b) : a ≤ b := by
  induction xs generalizing a with
  | nil => exact Nat.le_of_eq h.symm
  | cons x xs ih => exact Nat.le_trans (Nat.le_of_lt h.1) (ih h.2)

theorem Ascends.lt_of_mem {a b : Geid} {xs : List (StateEvent V)} (h : Ascends a xs b) :
    ∀ x ∈ xs, a < x.geid := by
  induction xs generalizing a with
  | nil => simp
  | cons y xs ih =>
      intro x hx
      rcases List.mem_cons.mp hx with rfl | hx
      · exact h.1
      · exact Nat.lt_trans h.1 (ih h.2 x hx)

theorem Ascends.le_of_mem {a b : Geid} {xs : List (StateEvent V)} (h : Ascends a xs b) :
    ∀ x ∈ xs, x.geid ≤ b := by
  induction xs generalizing a with
  | nil => simp
  | cons y xs ih =>
      intro x hx
      rcases List.mem_cons.mp hx with rfl | hx
      · exact Ascends.le h.2
      · exact ih h.2 x hx

theorem Ascends.unique {a b c : Geid} {xs : List (StateEvent V)} (hb : Ascends a xs b)
    (hc : Ascends a xs c) : b = c := by
  induction xs generalizing a with
  | nil => exact Eq.trans hb (Eq.symm hc)
  | cons y xs ih => exact ih hb.2 hc.2

theorem Ascends.pairwise {a b : Geid} {xs : List (StateEvent V)} (h : Ascends a xs b) :
    (xs.map StateEvent.geid).Pairwise (· < ·) := by
  induction xs generalizing a with
  | nil => simp
  | cons x xs ih =>
      rw [List.map_cons, List.pairwise_cons]
      refine ⟨?_, ih h.2⟩
      intro g hg
      obtain ⟨y, hy, rfl⟩ := List.mem_map.mp hg
      exact h.2.lt_of_mem y hy

/-- An accepted batch was let through whole: it ascends from the boundary to the
new one, and phase and queue did not move. -/
theorem acceptOrderedEvents_ok {m m' : SyncMachine V} {events : List (StateEvent V)}
    (h : m.acceptOrderedEvents events = (m', .ok ())) :
    acceptedPrefix m.geid events = events ∧ Ascends m.geid events m'.geid ∧
      m'.phase = m.phase ∧ m'.queuedLive = m.queuedLive := by
  induction events generalizing m with
  | nil =>
      cases h
      exact ⟨rfl, rfl, rfl, rfl⟩
  | cons event rest ih =>
      unfold acceptOrderedEvents acceptOrderedEvent at h
      by_cases hle : event.geid ≤ m.geid
      · simp [hle] at h
      · simp only [hle, if_false] at h
        obtain ⟨hwhole, hasc, hphase, hqueue⟩ := ih h
        refine ⟨?_, ⟨Nat.lt_of_not_le hle, hasc⟩, hphase, hqueue⟩
        simpa [acceptedPrefix, hle] using hwhole

/-- A batch the loop rejects is rejected for its order, in the same phase. -/
theorem acceptOrderedEvents_error {m m' : SyncMachine V} {events : List (StateEvent V)}
    {e : SyncError} (h : m.acceptOrderedEvents events = (m', .error e)) :
    (∃ current actual, e = .geidOrder current actual) ∧ m'.phase = m.phase := by
  induction events generalizing m with
  | nil => simp [acceptOrderedEvents] at h
  | cons event rest ih =>
      unfold acceptOrderedEvents acceptOrderedEvent at h
      by_cases hle : event.geid ≤ m.geid
      · simp only [hle, if_true, Prod.mk.injEq, Except.error.injEq] at h
        exact ⟨⟨_, _, h.2.symm⟩, by rw [← h.1]⟩
      · simp only [hle, if_false] at h
        obtain ⟨horder, hphase⟩ := ih h
        exact ⟨horder, hphase⟩

theorem acceptOrderedEvents_cons_of_lt {m : SyncMachine V} {event : StateEvent V}
    {rest : List (StateEvent V)} (h : m.geid < event.geid) :
    m.acceptOrderedEvents (event :: rest) =
      { m with geid := event.geid, cursor := event.cursor }.acceptOrderedEvents rest := by
  simp [acceptOrderedEvents, acceptOrderedEvent, Nat.not_le.mpr h]

theorem acceptOrderedEvents_cons_of_le {m : SyncMachine V} {event : StateEvent V}
    {rest : List (StateEvent V)} (h : event.geid ≤ m.geid) :
    m.acceptOrderedEvents (event :: rest) = (m, .error (.geidOrder m.geid event.geid)) := by
  simp [acceptOrderedEvents, acceptOrderedEvent, h]

/-- The loop never moves the boundary backwards, accepted or not. -/
theorem geid_le_acceptOrderedEvents (m : SyncMachine V) (events : List (StateEvent V)) :
    m.geid ≤ (m.acceptOrderedEvents events).1.geid := by
  induction events generalizing m with
  | nil => exact Nat.le_refl _
  | cons event rest ih =>
      by_cases h : event.geid ≤ m.geid
      · simp [acceptOrderedEvents_cons_of_le h]
      · have hlt : m.geid < event.geid := Nat.lt_of_not_le h
        have hrest := ih { m with geid := event.geid, cursor := event.cursor }
        rw [acceptOrderedEvents_cons_of_lt hlt]
        exact Nat.le_trans (Nat.le_of_lt hlt) hrest

/-- The loop accepts a batch exactly when its GEIDs ascend from the boundary. -/
theorem acceptOrderedEvents_isOk_iff (m : SyncMachine V) (events : List (StateEvent V)) :
    (m.acceptOrderedEvents events).2 = .ok () ↔
      (m.geid :: events.map StateEvent.geid).Pairwise (· < ·) := by
  induction events generalizing m with
  | nil => simp [acceptOrderedEvents]
  | cons event rest ih =>
      by_cases h : event.geid ≤ m.geid
      · simp [acceptOrderedEvents_cons_of_le h, Nat.not_lt.mpr h]
      · have hlt : m.geid < event.geid := Nat.lt_of_not_le h
        rw [acceptOrderedEvents_cons_of_lt hlt, ih, List.map_cons, List.pairwise_cons (a := m.geid)]
        refine ⟨fun hrest => ⟨?_, hrest⟩, fun hall => hall.2⟩
        intro g hg
        rcases List.mem_cons.mp hg with rfl | hg
        · exact hlt
        · exact Nat.lt_trans hlt ((List.pairwise_cons.mp hrest).1 g hg)

/-- Of a live event the order is checked last, and the queue is extended only after
it: a rejected one leaves the machine as it was. -/
theorem acceptLiveEvent_error {serde : Serde V} {m m' : SyncMachine V} {event : StateEvent V}
    {e : SyncError} (h : m.acceptLiveEvent serde event = (m', .error e)) : m' = m := by
  have horder : ∀ m'' e', m.acceptOrderedEvent event = (m'', .error e') → m'' = m := by
    intro m'' e' hevent
    by_cases hle : event.geid ≤ m.geid
    · simp only [acceptOrderedEvent, hle, if_true, Prod.mk.injEq] at hevent
      exact hevent.1.symm
    · simp [acceptOrderedEvent, hle] at hevent
  unfold acceptLiveEvent at h
  split at h
  · split at h
    · simpa using (congrArg Prod.fst h).symm
    · split at h
      · simpa using (congrArg Prod.fst h).symm
      · split at h
        · next hevent => simpa using (congrArg Prod.fst h).symm.trans (horder _ _ hevent)
        · simp at h
  · split at h
    · next hevent => simpa using (congrArg Prod.fst h).symm.trans (horder _ _ hevent)
    · simp at h
  · simpa using (congrArg Prod.fst h).symm

end SyncMachine

/-! ## Failed operations -/

/-- The first and last GEID of a replay batch are the bounds it announces. -/
def SyncReplay.BoundsMatch {V : Type} (replay : SyncReplay V) : Prop :=
  replay.events.head?.map StateEvent.geid = some replay.fromGeid ∧
    replay.events.getLast?.map StateEvent.geid = some replay.toGeid

/-- The GEIDs of a replay batch ascend strictly. -/
def SyncReplay.Ascending {V : Type} (replay : SyncReplay V) : Prop :=
  (replay.events.map StateEvent.geid).Pairwise (· < ·)

/-- The fallible operations of the machine, each with its argument. -/
inductive SyncOp (V : Type)
  | beginConnecting
  | acceptReady (id : ControlConnectionId)
  | beginSync
  | acceptReplay (replay : SyncReplay V)
  | acceptLiveEvent (event : StateEvent V)
  | acceptComplete (complete : SyncComplete)
  | requireSnapshot (reason : String)

theorem SyncReplay.BoundsMatch.exists_cons {V : Type} {replay : SyncReplay V}
    (h : replay.BoundsMatch) : ∃ event rest, replay.events = event :: rest := by
  cases hevents : replay.events with
  | nil => simp [SyncReplay.BoundsMatch, hevents] at h
  | cons event rest => exact ⟨event, rest, rfl⟩

namespace SyncMachine

variable {V : Type} {m : SyncMachine V} {replay : SyncReplay V}

/-- In phase `Syncing` a batch with matching bounds reaches the loop. -/
theorem acceptReplay_of_boundsMatch (hphase : m.phase = .syncing) (h : replay.BoundsMatch) :
    m.acceptReplay replay = m.acceptOrderedEvents replay.events := by
  obtain ⟨event, rest, hevents⟩ := h.exists_cons
  have hempty : replay.events.isEmpty = false := by simp [hevents]
  simp [acceptReplay, hphase, hempty, h.1, h.2]

/-- Any other batch is judged without a write. -/
theorem acceptReplay_of_not (h : ¬ (m.phase = .syncing ∧ replay.BoundsMatch)) :
    (m.acceptReplay replay).1 = m := by
  unfold acceptReplay
  by_cases hphase : m.phase = .syncing
  · have hbounds := not_and_or.mp fun hb => h ⟨hphase, hb⟩
    simp only [hphase, ne_eq, not_true_eq_false, if_false]
    split
    · split <;> rfl
    · rfl
  · simp [hphase]

end SyncMachine

namespace SyncOp

variable {V : Type} (serde : Serde V) (m : SyncMachine V)

/-- Run an operation; of a result that is not an error only the success is kept. -/
def run : SyncOp V → SyncMachine V × Except SyncError Unit
  | .beginConnecting => m.beginConnecting
  | .acceptReady id => m.acceptReady id
  | .beginSync => (m.beginSync.1, m.beginSync.2.map fun _ => ())
  | .acceptReplay replay => m.acceptReplay replay
  | .acceptLiveEvent event =>
      ((m.acceptLiveEvent serde event).1, (m.acceptLiveEvent serde event).2.map fun _ => ())
  | .acceptComplete complete =>
      ((m.acceptComplete complete).1, (m.acceptComplete complete).2.map fun _ => ())
  | .requireSnapshot reason => m.requireSnapshot reason

/-- If the operation returns an error, it leaves the whole machine as it was. -/
def Atomic (op : SyncOp V) : Prop :=
  ∀ e, (op.run serde m).2 = .error e → (op.run serde m).1 = m

/-- An operation whose result is a success is atomic. -/
theorem atomic_of_ok {op : SyncOp V} (h : (op.run serde m).2 = .ok ()) : op.Atomic serde m := by
  intro e he
  simp [h] at he

/-- An operation that checks everything before its first write is atomic. -/
theorem atomic_of_unchanged {op : SyncOp V} (h : (op.run serde m).1 = m) : op.Atomic serde m :=
  fun _ _ => h

theorem atomic_beginConnecting : (beginConnecting : SyncOp V).Atomic serde m := by
  intro e
  cases hphase : m.phase <;> simp [run, SyncMachine.beginConnecting, hphase]

theorem atomic_acceptReady (id : ControlConnectionId) :
    (acceptReady id : SyncOp V).Atomic serde m := by
  intro e
  cases hphase : m.phase <;> simp [run, SyncMachine.acceptReady, hphase]

theorem atomic_beginSync : (beginSync : SyncOp V).Atomic serde m := by
  intro e
  by_cases hphase : m.phase = .ready <;> simp [run, SyncMachine.beginSync, hphase, Except.map]

theorem atomic_acceptLiveEvent (event : StateEvent V) :
    (acceptLiveEvent event : SyncOp V).Atomic serde m := by
  intro e he
  generalize hres : m.acceptLiveEvent serde event = res at *
  simp only [run, hres] at he ⊢
  cases hr : res.2 with
  | ok released => simp [hr, Except.map] at he
  | error e' => exact SyncMachine.acceptLiveEvent_error (hres.trans (Prod.ext rfl hr))

theorem atomic_acceptComplete (complete : SyncComplete) :
    (acceptComplete complete : SyncOp V).Atomic serde m := by
  intro e
  by_cases hphase : m.phase = .syncing <;>
    simp [run, SyncMachine.acceptComplete, hphase, Except.map]

theorem atomic_requireSnapshot (reason : String) :
    (requireSnapshot reason : SyncOp V).Atomic serde m := by
  intro e
  cases hphase : m.phase <;> simp [run, SyncMachine.requireSnapshot, hphase]

/-- A batch whose first event is rejected changes nothing; one whose first event is
accepted has moved the boundary for good, whatever its later events do. -/
theorem atomic_acceptReplay_iff (replay : SyncReplay V) :
    (acceptReplay replay).Atomic serde m ↔
      (m.phase = .syncing → replay.BoundsMatch → m.geid < replay.fromGeid →
        replay.Ascending) := by
  by_cases hchecks : m.phase = .syncing ∧ replay.BoundsMatch
  swap
  · have hsame : ((acceptReplay replay).run serde m).1 = m :=
      SyncMachine.acceptReplay_of_not hchecks
    have hvacuous : m.phase = .syncing → replay.BoundsMatch → m.geid < replay.fromGeid →
        replay.Ascending := fun hphase hbounds => absurd ⟨hphase, hbounds⟩ hchecks
    exact iff_of_true (atomic_of_unchanged serde m hsame) hvacuous
  have hrun := SyncMachine.acceptReplay_of_boundsMatch hchecks.1 hchecks.2
  obtain ⟨event, rest, hevents⟩ := hchecks.2.exists_cons
  have hfrom : event.geid = replay.fromGeid := by
    simpa [SyncReplay.BoundsMatch, hevents] using hchecks.2.1
  simp only [hchecks.1, hchecks.2, true_implies, ← hfrom]
  rw [hevents] at hrun
  by_cases hlt : m.geid < event.geid
  swap
  · rw [SyncMachine.acceptOrderedEvents_cons_of_le (Nat.le_of_not_lt hlt)] at hrun
    have hsame : ((acceptReplay replay).run serde m).1 = m := congrArg Prod.fst hrun
    simp only [hlt, false_implies, iff_true]
    exact atomic_of_unchanged serde m hsame
  rw [SyncMachine.acceptOrderedEvents_cons_of_lt hlt] at hrun
  have hok := SyncMachine.acceptOrderedEvents_isOk_iff
    { m with geid := event.geid, cursor := event.cursor } rest
  have hle := SyncMachine.geid_le_acceptOrderedEvents
    { m with geid := event.geid, cursor := event.cursor } rest
  rw [← hrun] at hok hle
  simp only [hlt, true_implies, SyncReplay.Ascending, hevents, List.map_cons]
  refine ⟨fun hatomic => ?_, fun hasc => atomic_of_ok serde m (hok.mpr hasc)⟩
  -- an error would have to restore a boundary that is already behind
  apply hok.mp
  cases hresult : (m.acceptReplay replay).2 with
  | ok => rfl
  | error e =>
      have hback : (m.acceptReplay replay).1 = m := hatomic e hresult
      rw [hback] at hle
      exact absurd hle (Nat.not_le.mpr hlt)

/-- **A failed operation leaves the machine as it was**, except for a replay batch that
fails after its first event: its phase and bounds are right and it starts after the
machine's boundary, but its GEIDs do not ascend. -/
theorem failed_operation_atomic_iff (op : SyncOp V) :
    op.Atomic serde m ↔
      ∀ replay, op = .acceptReplay replay → m.phase = .syncing → replay.BoundsMatch →
        m.geid < replay.fromGeid → replay.Ascending := by
  cases op with
  | acceptReplay replay =>
      rw [atomic_acceptReplay_iff]
      refine ⟨fun h replay' heq => ?_, fun h => h replay rfl⟩
      rw [← SyncOp.acceptReplay.inj heq]
      exact h
  | beginConnecting => simpa using atomic_beginConnecting serde m
  | acceptReady id => simpa using atomic_acceptReady serde m id
  | beginSync => simpa using atomic_beginSync serde m
  | acceptLiveEvent event => simpa using atomic_acceptLiveEvent serde m event
  | acceptComplete complete => simpa using atomic_acceptComplete serde m complete
  | requireSnapshot reason => simpa using atomic_requireSnapshot serde m reason

/-- A decoder table that refuses every payload. -/
def sampleSerde : Serde Unit where
  group _ := .error "payload"
  channel _ := .error "payload"
  entityTombstone _ := .error "payload"
  membershipEnvelope _ := .error "payload"
  membershipTombstone _ := .error "payload"
  userEnvelope _ := .error "payload"
  userTombstone _ := .error "payload"
  selfEnvelope _ := .error "payload"
  role _ := .error "payload"
  roleTombstone _ := .error "payload"
  authorityEnvelope _ := .error "payload"
  encodedLength _ := none

/-- A machine bound to a snapshot at GEID `0` that has sent `sync.hello`. -/
def sampleSyncing : SyncMachine Unit :=
  { SyncMachine.new (sampleState 0 none) with phase := .syncing }

/-- A batch that carries GEID `1` twice. -/
def sampleRepeated : SyncReplay Unit :=
  ⟨1, 1, [sampleEvent "server.updated" 1 (), sampleEvent "server.updated" 1 ()]⟩

/-- The rejected batch leaves the boundary at GEID `1`. -/
theorem rejected_batch_advances :
    (sampleSyncing.acceptReplay sampleRepeated).2 = .error (.geidOrder 1 1) ∧
      (sampleSyncing.acceptReplay sampleRepeated).1.geid = 1 ∧
      ¬ (acceptReplay sampleRepeated).Atomic sampleSerde sampleSyncing := by
  have herror : (sampleSyncing.acceptReplay sampleRepeated).2 = .error (.geidOrder 1 1) := by
    decide
  have hmoved : (sampleSyncing.acceptReplay sampleRepeated).1.geid = 1 := by decide
  refine ⟨herror, hmoved, fun hatomic => ?_⟩
  have hback : (sampleSyncing.acceptReplay sampleRepeated).1 = sampleSyncing := hatomic _ herror
  rw [hback] at hmoved
  exact absurd hmoved (by decide)

end SyncOp

end ZephyrVox.Realtime
