import ZephyrVox.Lib.Transition
import ZephyrVox.Realtime.StateStore

/-!
# Ordered event receivers across snapshot replacements

A replacement gives the store a fresh channel. A receiver notices it by its
generation marker, but only when the host polls it next, and then subscribes at
the end of the fresh channel: what was applied between the replacement and that
poll is not delivered and not reported as lag.

Events are delivered exactly once while the receiver is attached to the current
channel whenever an event is applied, which is the condition `AttachedAtApply`.

## Main definitions

* `StateEventReceiver` — the channel, the cursor in it and the observed marker.
* `StateEventReceiver.tryRecv`, `StateEventReceiver.recv` — one poll.
* `Feed V` — a store and one receiver, with what was applied and returned.
* `Drains` — the events polling returns until there is none left.
-/

namespace ZephyrVox.Realtime

open Transition

variable {V : Type}

/-- All channels of a store; the last one is the current one. -/
def StateStore.channels (store : StateStore V) : List (Broadcast.Channel (StateEvent V)) :=
  store.replaced ++ [store.events]

/-- A receiver of ordered state events. -/
structure StateEventReceiver where
  /-- The channel the receiver is subscribed to, by its number in the store. -/
  channel : ℕ
  /-- The position in that channel. -/
  next : ℕ
  observedGeneration : ℕ
  deriving DecidableEq, Repr

/-- What a poll returns. -/
inductive TryRecv (V : Type)
  | event (event : StateEvent V)
  | lagged (missed : ℕ)
  | empty
  | closed

namespace StateEventReceiver

/-- Subscribe to the current channel and pair it with the current marker. -/
def new (store : StateStore V) : StateEventReceiver where
  channel := store.replaced.length
  next := store.events.subscribe
  observedGeneration := store.generation

/-- Replace the subscription after a snapshot boundary. -/
def refreshGeneration (store : StateStore V) (r : StateEventReceiver) : StateEventReceiver :=
  if store.generation = r.observedGeneration then r else new store

/-- Poll the subscribed channel. The sender of a replaced channel is gone, so an
exhausted one is closed. -/
def poll (store : StateStore V) (r : StateEventReceiver) : TryRecv V × StateEventReceiver :=
  match store.channels[r.channel]? with
  | none => (.closed, r)
  | some channel =>
      match channel.tryRecv r.next with
      | (.message event, next) => (.event event, { r with next := next })
      | (.lagged missed, next) => (.lagged missed, { r with next := next })
      | (.empty, next) =>
          (if r.channel < store.replaced.length then .closed else .empty, { r with next := next })

/-- Try to receive the next event without waiting. No replacement falls between
the refresh and the poll of one call, so its loop runs once. -/
def tryRecv (store : StateStore V) (r : StateEventReceiver) : TryRecv V × StateEventReceiver :=
  (r.refreshGeneration store).poll store

/-- Receive the next event; `none` is a call that waits. -/
def recv (store : StateStore V) (r : StateEventReceiver) :
    Option (TryRecv V) × StateEventReceiver :=
  match r.tryRecv store with
  | (.empty, r) => (none, r)
  | (result, r) => (some result, r)

/-- The receiver is subscribed to the current channel. -/
def Attached (store : StateStore V) (r : StateEventReceiver) : Prop :=
  r.channel = store.replaced.length

end StateEventReceiver

/-- Polling returns exactly these events and then nothing. -/
inductive Drains (store : StateStore V) : StateEventReceiver → List (StateEvent V) → Prop
  | empty {r r' : StateEventReceiver} (h : r.tryRecv store = (.empty, r')) : Drains store r []
  | event {r r' : StateEventReceiver} {event : StateEvent V} {rest : List (StateEvent V)}
      (h : r.tryRecv store = (.event event, r')) (hrest : Drains store r' rest) :
      Drains store r (event :: rest)

/-- A store with one receiver, and what was observed of both. -/
structure Feed (V : Type) where
  store : StateStore V
  receiver : StateEventReceiver
  /-- The events applied since the later of the last replacement and the creation
  of the receiver. -/
  applied : List (StateEvent V)
  /-- The events the receiver has returned since. -/
  returned : List (StateEvent V)

/-- The calls on a store and its receiver. -/
inductive FeedAction (V : Type)
  | applyEvent (event : StateEvent V)
  | replaceSnapshot (snapshot : StateSnapshot)
  | subscribeEvents
  | tryRecv
  | recv

namespace Feed

/-- A store on its first snapshot and a receiver of it. -/
def start (snapshot : StateSnapshot) : Feed V where
  store := .fromSnapshot snapshot
  receiver := .new (.fromSnapshot snapshot : StateStore V)
  applied := []
  returned := []

/-- Record what a poll returned. -/
def observe (s : Feed V) (polled : TryRecv V × StateEventReceiver) : Feed V :=
  match polled with
  | (.event event, r) => { s with receiver := r, returned := s.returned ++ [event] }
  | (_, r) => { s with receiver := r }

/-- One call. An application that fails is not a step. -/
def step (serde : Serde V) (s : Feed V) : FeedAction V → Option (Feed V)
  | .applyEvent event =>
      match s.store.applyEvent serde event with
      | .ok store => some { s with store := store, applied := s.applied ++ [event] }
      | .error _ => none
  | .replaceSnapshot snapshot =>
      some { s with store := (s.store.replaceSnapshot snapshot).1, applied := [], returned := [] }
  | .subscribeEvents =>
      some { s with receiver := .new s.store, applied := [], returned := [] }
  | .tryRecv => some (s.observe (s.receiver.tryRecv s.store))
  | .recv =>
      match s.receiver.recv s.store with
      | (none, r) => some { s with receiver := r }
      | (some result, r) => some (s.observe (result, r))

/-- Draining the receiver returns, after what it has returned already, exactly
what was applied. -/
def Delivers (s : Feed V) : Prop :=
  ∃ rest, Drains s.store s.receiver rest ∧ s.returned ++ rest = s.applied

end Feed

/-- An event is applied only while the receiver is subscribed to the current
channel, and no replacement brings the wrapping marker back to the one the
receiver observed. -/
def AttachedAtApply (s : Feed V) : FeedAction V → Prop
  | .applyEvent _ => s.receiver.Attached s.store
  | .replaceSnapshot _ =>
      (s.store.generation + 1) % generationModulus ≠ s.receiver.observedGeneration
  | _ => True

/-! ## One poll -/

namespace StateEventReceiver

theorem attached_new (store : StateStore V) : (new store).Attached store := rfl

theorem refreshGeneration_of_eq {store : StateStore V} {r : StateEventReceiver}
    (h : r.observedGeneration = store.generation) : r.refreshGeneration store = r := by
  rw [refreshGeneration, if_pos h.symm]

theorem refreshGeneration_of_ne {store : StateStore V} {r : StateEventReceiver}
    (h : r.observedGeneration ≠ store.generation) : r.refreshGeneration store = new store := by
  rw [refreshGeneration, if_neg (Ne.symm h)]

/-- An attached receiver polls the current channel. -/
theorem poll_of_attached {store : StateStore V} {r : StateEventReceiver}
    (h : r.Attached store) :
    r.poll store = match store.events.tryRecv r.next with
      | (.message event, next) => (.event event, { r with next := next })
      | (.lagged missed, next) => (.lagged missed, { r with next := next })
      | (.empty, next) => (.empty, { r with next := next }) := by
  have hget : store.channels[r.channel]? = some store.events := by
    rw [show r.channel = store.replaced.length from h]
    simp [StateStore.channels]
  have hcurrent : ¬ r.channel < store.replaced.length := by
    rw [show r.channel = store.replaced.length from h]
    exact Nat.lt_irrefl _
  simp only [poll, hget, hcurrent, if_false]

end StateEventReceiver

/-- What holds of a receiver: it reads the current channel with the current
marker, or it is behind and its marker says so. -/
structure Tracks (store : StateStore V) (r : StateEventReceiver) : Prop where
  capacity : store.events.capacity = eventCapacity
  attached : r.Attached store → r.observedGeneration = store.generation ∧
    r.next ≤ store.events.sent.length
  behind : ¬ r.Attached store → r.channel < store.replaced.length ∧
    r.observedGeneration ≠ store.generation

theorem Tracks.new {store : StateStore V} (hcap : store.events.capacity = eventCapacity) :
    Tracks store (.new store) :=
  ⟨hcap, fun _ => ⟨rfl, Nat.le_refl _⟩, fun h => absurd rfl h⟩

/-- The receiver a poll works with is attached. -/
theorem Tracks.refresh {store : StateStore V} {r : StateEventReceiver} (H : Tracks store r) :
    Tracks store (r.refreshGeneration store) ∧
      (r.refreshGeneration store).Attached store := by
  by_cases ha : r.Attached store
  · rw [StateEventReceiver.refreshGeneration_of_eq (H.attached ha).1]
    exact ⟨H, ha⟩
  · rw [StateEventReceiver.refreshGeneration_of_ne (H.behind ha).2]
    exact ⟨.new H.capacity, StateEventReceiver.attached_new store⟩

/-- Moving the cursor within the channel keeps the receiver attached. -/
theorem Tracks.advance {store : StateStore V} {r : StateEventReceiver} {next : ℕ}
    (H : Tracks store r) (ha : r.Attached store) (h : next ≤ store.events.sent.length) :
    Tracks store { r with next := next } :=
  ⟨H.capacity, fun _ => ⟨(H.attached ha).1, h⟩, fun hn => absurd ha hn⟩

/-! ## Whole runs -/

/-- The invariant of a feed: an attached receiver still has to read exactly what
it has not returned, and one that is behind has missed nothing yet. -/
structure Feed.Inv (s : Feed V) : Prop where
  tracks : Tracks s.store s.receiver
  attached : s.receiver.Attached s.store → s.store.events.sent.length ≤ eventCapacity →
    s.returned ++ s.store.events.unread s.receiver.next = s.applied
  behind : ¬ s.receiver.Attached s.store → s.applied = [] ∧ s.returned = []

namespace Feed

theorem inv_new {s : Feed V} (hcap : s.store.events.capacity = eventCapacity)
    (ha : s.applied = []) (hr : s.returned = []) :
    ({ s with receiver := .new s.store } : Feed V).Inv where
  tracks := .new hcap
  attached := by
    intro _ _
    simp [StateEventReceiver.new, ha, hr, Broadcast.Channel.unread]
  behind := fun h => absurd rfl h

/-- Refreshing keeps the invariant and attaches the receiver. -/
theorem Inv.refresh {s : Feed V} (H : s.Inv) :
    ({ s with receiver := s.receiver.refreshGeneration s.store } : Feed V).Inv := by
  by_cases ha : s.receiver.Attached s.store
  · rw [StateEventReceiver.refreshGeneration_of_eq (H.tracks.attached ha).1]
    exact H
  · rw [StateEventReceiver.refreshGeneration_of_ne (H.tracks.behind ha).2]
    exact inv_new H.tracks.capacity (H.behind ha).1 (H.behind ha).2

/-- Polling an attached receiver keeps the invariant. -/
theorem Inv.poll {s : Feed V} (H : s.Inv) (ha : s.receiver.Attached s.store) :
    (s.observe (s.receiver.poll s.store)).Inv := by
  obtain ⟨-, hnext⟩ := H.tracks.attached ha
  rw [StateEventReceiver.poll_of_attached ha]
  by_cases hcap : s.store.events.capacity < s.store.events.sent.length - s.receiver.next
  · -- an overrun cursor: more was sent than the channel retains
    have hpoll : s.store.events.tryRecv s.receiver.next =
        (.lagged (s.store.events.sent.length - s.receiver.next - s.store.events.capacity),
          s.store.events.sent.length - s.store.events.capacity) := by
      simp [Broadcast.Channel.tryRecv, hcap]
    rw [hpoll]
    have hover : ¬ s.store.events.sent.length ≤ eventCapacity := by
      rw [← H.tracks.capacity]
      omega
    exact ⟨H.tracks.advance ha (Nat.sub_le _ _), fun _ hle => absurd hle hover,
      fun hn => absurd ha hn⟩
  · cases hun : s.store.events.unread s.receiver.next with
    | nil =>
        rw [Broadcast.Channel.tryRecv_nil hun]
        exact H
    | cons event rest =>
        obtain ⟨hpoll, hrest⟩ := Broadcast.Channel.tryRecv_cons (Nat.not_lt.mp hcap) hun
        have hlt : s.receiver.next < s.store.events.sent.length := by
          by_contra hge
          have hnil : s.store.events.unread s.receiver.next = [] :=
            List.drop_eq_nil_of_le (Nat.not_lt.mp hge)
          simp [hnil] at hun
        rw [hpoll]
        refine ⟨H.tracks.advance ha hlt, fun _ hle => ?_, fun hn => absurd ha hn⟩
        have happlied := H.attached ha hle
        rw [hun] at happlied
        simp only [observe, hrest, List.append_assoc, List.singleton_append]
        exact happlied

theorem Inv.tryRecv {s : Feed V} (H : s.Inv) :
    (s.observe (s.receiver.tryRecv s.store)).Inv := by
  have hpoll := H.refresh.poll H.tracks.refresh.2
  rw [StateEventReceiver.tryRecv]
  revert hpoll
  cases StateEventReceiver.poll s.store (s.receiver.refreshGeneration s.store) with
  | mk result r =>
      intro hpoll
      cases result <;> exact hpoll

theorem inv_start (snapshot : StateSnapshot) : (start snapshot : Feed V).Inv :=
  inv_new (s := start snapshot) rfl rfl rfl

theorem inv_step {serde : Serde V} {s s' : Feed V} {a : FeedAction V} (H : s.Inv)
    (ho : AttachedAtApply s a) (h : s.step serde a = some s') : s'.Inv := by
  cases a with
  | applyEvent event =>
      simp only [step] at h
      cases happly : s.store.applyEvent serde event with
      | error e => simp [happly] at h
      | ok store =>
          simp only [happly, Option.some.injEq] at h
          subst h
          obtain ⟨-, -, hevents, hreplaced, hgen⟩ := StateStore.applyEvent_ok happly
          have ha : s.receiver.Attached s.store := ho
          have ha' : s.receiver.Attached store := by
            rw [StateEventReceiver.Attached, hreplaced]
            exact ha
          obtain ⟨hobs, hnext⟩ := H.tracks.attached ha
          refine ⟨⟨?_, fun _ => ⟨?_, ?_⟩, fun hn => absurd ha' hn⟩, fun _ hle => ?_,
            fun hn => absurd ha' hn⟩
          · rw [hevents, Broadcast.Channel.capacity_send]
            exact H.tracks.capacity
          · rw [hgen]
            exact hobs
          · rw [hevents, Broadcast.Channel.sent_send, List.length_append]
            exact Nat.le_add_right_of_le hnext
          · rw [hevents, Broadcast.Channel.sent_send, List.length_append] at hle
            have happlied := H.attached ha (by omega)
            simp only [hevents]
            rw [Broadcast.Channel.unread_send hnext, ← List.append_assoc, happlied]
  | replaceSnapshot snapshot =>
      cases h
      have hchannel : s.receiver.channel < s.store.replaced.length + 1 := by
        by_cases ha : s.receiver.Attached s.store
        · rw [show s.receiver.channel = s.store.replaced.length from ha]
          exact Nat.lt_succ_self _
        · exact Nat.lt_succ_of_lt (H.tracks.behind ha).1
      have hlength : (s.store.replaceSnapshot snapshot).1.replaced.length =
          s.store.replaced.length + 1 := by
        simp [StateStore.replaceSnapshot]
      have hbehind : ¬ s.receiver.Attached (s.store.replaceSnapshot snapshot).1 := by
        rw [StateEventReceiver.Attached, hlength]
        exact Nat.ne_of_lt hchannel
      refine ⟨⟨rfl, fun ha => absurd ha hbehind, fun _ => ⟨?_, Ne.symm ho⟩⟩,
        fun ha => absurd ha hbehind, fun _ => ⟨rfl, rfl⟩⟩
      rw [hlength]
      exact hchannel
  | subscribeEvents =>
      cases h
      exact inv_new (s := { s with applied := [], returned := [] }) H.tracks.capacity rfl rfl
  | tryRecv =>
      cases h
      exact H.tryRecv
  | recv =>
      have hpoll := H.tryRecv
      simp only [step, StateEventReceiver.recv] at h
      revert h hpoll
      cases s.receiver.tryRecv s.store with
      | mk result r =>
          intro h hpoll
          cases result <;> cases h <;> exact hpoll

end Feed

/-- An attached receiver that was not overrun drains its unread events. -/
theorem drains_unread {store : StateStore V} {r : StateEventReceiver} (H : Tracks store r)
    (ha : r.Attached store) (hle : store.events.sent.length ≤ eventCapacity) :
    Drains store r (store.events.unread r.next) := by
  generalize hun : store.events.unread r.next = unread
  induction unread generalizing r with
  | nil =>
      have hempty : r.tryRecv store = (.empty, r) := by
        rw [StateEventReceiver.tryRecv, StateEventReceiver.refreshGeneration_of_eq
          (H.attached ha).1, StateEventReceiver.poll_of_attached ha,
          Broadcast.Channel.tryRecv_nil hun]
      exact .empty hempty
  | cons event rest ih =>
      have hcap : store.events.sent.length - r.next ≤ store.events.capacity := by
        rw [H.capacity]
        omega
      obtain ⟨hpoll, hrest⟩ := Broadcast.Channel.tryRecv_cons hcap hun
      have hlt : r.next < store.events.sent.length := by
        by_contra hge
        have hnil : store.events.unread r.next = [] :=
          List.drop_eq_nil_of_le (Nat.not_lt.mp hge)
        simp [hnil] at hun
      have hevent : r.tryRecv store = (.event event, { r with next := r.next + 1 }) := by
        rw [StateEventReceiver.tryRecv, StateEventReceiver.refreshGeneration_of_eq
          (H.attached ha).1, StateEventReceiver.poll_of_attached ha, hpoll]
      exact .event hevent (ih (H.advance ha hlt) ha hrest)

theorem StateEventReceiver.refreshGeneration_idem (store : StateStore V)
    (r : StateEventReceiver) :
    (r.refreshGeneration store).refreshGeneration store = r.refreshGeneration store := by
  by_cases h : r.observedGeneration = store.generation
  · rw [refreshGeneration_of_eq h, refreshGeneration_of_eq h]
  · rw [refreshGeneration_of_ne h, refreshGeneration_of_eq rfl]

/-- Draining begins with a refresh. -/
theorem Drains.of_refresh {store : StateStore V} {r : StateEventReceiver}
    {events : List (StateEvent V)} (h : Drains store (r.refreshGeneration store) events) :
    Drains store r events := by
  have hsame : (r.refreshGeneration store).tryRecv store = r.tryRecv store := by
    rw [StateEventReceiver.tryRecv, StateEventReceiver.refreshGeneration_idem]
    rfl
  cases h with
  | empty hempty => exact .empty (hsame ▸ hempty)
  | event hevent hrest => exact .event (hsame ▸ hevent) hrest

/-- **An attached receiver misses nothing.** In every run in which events are
applied only while the receiver is subscribed to the current channel, and with
at most 256 events applied since the last replacement, draining the receiver
returns exactly what was applied and not yet returned, in order. -/
theorem attached_receiver_delivers (serde : Serde V) (snapshot : StateSnapshot)
    (actions : List (FeedAction V)) (s : Feed V)
    (hattached : Along (Feed.step serde) AttachedAtApply (Feed.start snapshot) actions)
    (hrun : exec (Feed.step serde) (Feed.start snapshot) actions = some s)
    (hrecent : s.store.events.sent.length ≤ eventCapacity) : s.Delivers := by
  have H : s.Inv := invariant_along (fun _ _ _ H ho h => Feed.inv_step H ho h)
    (Feed.inv_start snapshot) hattached hrun
  have hattached := H.tracks.refresh.2
  exact ⟨_, (drains_unread H.tracks.refresh.1 hattached hrecent).of_refresh,
    H.refresh.attached hattached hrecent⟩

/-- A receiver polled after a replacement reads the event applied next. -/
def polledReplacement : List (FeedAction (Option VoiceAuthority)) :=
  [.replaceSnapshot (sampleSnapshot 5 none), .tryRecv,
    .applyEvent (sampleEvent "server.updated" 7 none)]

theorem attached_receiver_delivers_polledReplacement :
    ∃ s, exec (Feed.step authorityPayloads) (Feed.start (sampleSnapshot 1 none))
      polledReplacement = some s ∧
      s.applied = [sampleEvent "server.updated" 7 none] ∧ s.Delivers := by
  refine ⟨_, rfl, rfl, ?_⟩
  refine attached_receiver_delivers authorityPayloads (sampleSnapshot 1 none) polledReplacement _
    ?_ rfl (by decide)
  refine ⟨show (0 + 1) % generationModulus ≠ 0 by decide,
    fun t ht => ⟨trivial, fun t' ht' => ⟨?_, fun _ _ => trivial⟩⟩⟩
  cases ht
  cases ht'
  rfl

/-- The receiver is not polled between a replacement and the next event. -/
def unpolledReplacement : List (FeedAction (Option VoiceAuthority)) :=
  [.replaceSnapshot (sampleSnapshot 5 none),
    .applyEvent (sampleEvent "server.updated" 7 none)]

/-- The event applied after the replacement is lost without a lag report. -/
theorem unpolledReplacement_loses_event :
    ¬ ∀ (serde : Serde (Option VoiceAuthority)) (snapshot : StateSnapshot)
      (actions : List (FeedAction (Option VoiceAuthority))) (s : Feed (Option VoiceAuthority)),
      exec (Feed.step serde) (Feed.start snapshot) actions = some s →
      s.store.events.sent.length ≤ eventCapacity → s.Delivers := by
  intro h
  obtain ⟨rest, hdrains, happlied⟩ := h authorityPayloads (sampleSnapshot 1 none)
    unpolledReplacement _ rfl (by decide)
  cases hdrains with
  | empty hempty => cases happlied
  | event hevent hrest => cases hevent

end ZephyrVox.Realtime
