import ZephyrVox.Lib.Broadcast
import ZephyrVox.Realtime.Projection

/-!
# The atomic state store

The store holds the installed projection, the value published to state
watchers, and the broadcast channel of ordered events. A snapshot replacement
installs a fresh channel and advances the generation marker that receivers
compare; the replaced channels are kept, because a receiver that has not polled
since still reads from one.

## Main definitions

* `StateStore V` — the projection, the watch value and the event channels.
* `StateStore.replaceSnapshot`, `StateStore.updateCursor`, `StateStore.applyEvent`
  — the three writers.
* `StateStore.applyEvent_ok` — what a successful application does.
-/

namespace ZephyrVox.Realtime

variable {V : Type}

/-- The number of ordered events a channel retains for a slow receiver. -/
def eventCapacity : ℕ := 256

/-- Generation markers are `u64` values and wrap. -/
def generationModulus : ℕ := 2 ^ 64

/-- An atomic client-side state projection. -/
structure StateStore (V : Type) where
  /-- The installed projection. -/
  state : ClientState
  /-- The value last sent to state watchers. -/
  published : ClientState
  /-- The current channel of ordered events. -/
  events : Broadcast.Channel (StateEvent V)
  /-- Channels whose sender was dropped by a replacement, oldest first. -/
  replaced : List (Broadcast.Channel (StateEvent V))
  /-- The generation marker published with the current channel. -/
  generation : ℕ

namespace StateStore

/-- A store on one authoritative HTTP snapshot. -/
def fromSnapshot (snapshot : StateSnapshot) : StateStore V where
  state := ClientState.fromSnapshot snapshot
  published := ClientState.fromSnapshot snapshot
  events := .new eventCapacity
  replaced := []
  generation := 0

/-- The authority a replacement invalidates: the previous one, unless the new
state carries the same authority. -/
def voiceLost (current replacement : ClientState) : Option VoiceAuthority :=
  match current.selfUser.voiceAuthority, replacement.selfUser.voiceAuthority with
  | some previous, some next => if previous = next then none else some previous
  | some previous, none => some previous
  | none, _ => none

/-- Replace the whole projection at a snapshot boundary and report the voice
authority that the replacement invalidates. -/
def replaceSnapshot (store : StateStore V) (snapshot : StateSnapshot) :
    StateStore V × Option VoiceAuthority :=
  let replacement := ClientState.fromSnapshot snapshot
  ({ state := replacement
     published := replacement
     events := .new eventCapacity
     replaced := store.replaced ++ [store.events]
     generation := (store.generation + 1) % generationModulus },
    voiceLost store.state replacement)

/-- Replace only the authenticated cursor after `sync.complete`. -/
def updateCursor (store : StateStore V) (cursor : Cursor) : StateStore V :=
  let next := { store.state with cursor := cursor }
  { store with state := next, published := next }

/-- The projection after one event, at the event's stream position. -/
def project (serde : Serde V) (state : ClientState) (event : StateEvent V) :
    Except StateApplyError ClientState := do
  validateEvent event state
  let next ← applyKnownEvent serde state event
  return next.reposition event.cursor event.geid

/-- Validate, apply and publish one event; the event is broadcast after the new
state is installed, and an error changes nothing. -/
def applyEvent (serde : Serde V) (store : StateStore V) (event : StateEvent V) :
    Except StateApplyError (StateStore V) := do
  let next ← project serde store.state event
  return { store with
    state := next
    published := next
    events := store.events.send event }

@[simp] theorem state_replaceSnapshot (store : StateStore V) (snapshot : StateSnapshot) :
    (store.replaceSnapshot snapshot).1.state = ClientState.fromSnapshot snapshot := rfl
@[simp] theorem snd_replaceSnapshot (store : StateStore V) (snapshot : StateSnapshot) :
    (store.replaceSnapshot snapshot).2 =
      voiceLost store.state (ClientState.fromSnapshot snapshot) := rfl
@[simp] theorem state_updateCursor (store : StateStore V) (cursor : Cursor) :
    (store.updateCursor cursor).state = { store.state with cursor := cursor } := rfl
@[simp] theorem generation_updateCursor (store : StateStore V) (cursor : Cursor) :
    (store.updateCursor cursor).generation = store.generation := rfl

/-- A replacement always changes the generation marker. -/
theorem generation_replaceSnapshot_ne (store : StateStore V) (snapshot : StateSnapshot) :
    (store.replaceSnapshot snapshot).1.generation ≠ store.generation := by
  have hmod : (store.generation + 1) % generationModulus ≠ store.generation := by
    unfold generationModulus
    omega
  exact hmod

/-- An accepted event is strictly after the projection it is applied to. -/
theorem geid_lt_of_validateEvent {event : StateEvent V} {current : ClientState}
    (h : validateEvent event current = .ok ()) : current.geid < event.geid := by
  by_contra hle
  have hle : event.geid ≤ current.geid := Nat.not_lt.mp hle
  unfold validateEvent at h
  rw [if_pos hle] at h
  split at h
  · cases h
  · split at h <;> cases h

/-- **What a successful projection does**: the event is strictly later, the
projection rule succeeded, and the result is its state at the event's position. -/
theorem project_ok {serde : Serde V} {s t : ClientState} {event : StateEvent V}
    (h : project serde s event = .ok t) :
    s.geid < event.geid ∧ ∃ next, applyKnownEvent serde s event = .ok next ∧
      t = next.reposition event.cursor event.geid := by
  unfold project at h
  cases hv : validateEvent event s with
  | error e => simp [hv, bind, Except.bind] at h
  | ok _ =>
      cases ha : applyKnownEvent serde s event with
      | error e => simp [hv, ha, bind, Except.bind] at h
      | ok next =>
          simp only [hv, ha, bind, Except.bind, pure, Except.pure, Except.ok.injEq] at h
          exact ⟨geid_lt_of_validateEvent hv, next, rfl, h.symm⟩

/-- **What a successful application does**: the projected state is installed and
published and the event is broadcast; channel identity is unchanged. -/
theorem applyEvent_ok {serde : Serde V} {store store' : StateStore V} {event : StateEvent V}
    (h : applyEvent serde store event = .ok store') :
    project serde store.state event = .ok store'.state ∧
      store'.published = store'.state ∧ store'.events = store.events.send event ∧
      store'.replaced = store.replaced ∧ store'.generation = store.generation := by
  unfold applyEvent at h
  cases hp : project serde store.state event with
  | error e => simp [hp, bind, Except.bind] at h
  | ok next =>
      simp only [hp, bind, Except.bind, pure, Except.pure, Except.ok.injEq] at h
      subst h
      exact ⟨rfl, rfl, rfl, rfl, rfl⟩

end StateStore

end ZephyrVox.Realtime
