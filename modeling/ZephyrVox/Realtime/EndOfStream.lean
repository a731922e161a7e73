import ZephyrVox.Lib.Transition
import ZephyrVox.Realtime.EventReceiver

/-!
# The end of an event stream

A replacement drops the sender of the old channel before it publishes the new
generation, and it does so while receivers compare generations and poll. Here
every channel operation of both sides is a step of its own: a receiver that has
read everything is told `Closed` when the last sender of its channel is gone,
and whether it takes that for the end of the stream depends on where its
comparisons fall. `tryRecv` compares before it polls and again only for an
event; `recv` compares after every result.

The condition is `Undisturbed`: no sender is dropped behind a comparison of
`tryRecv` that has nothing left to read, and no comparison that decides about
the end of a replaced channel finds the old generation.

## Main definitions

* `EventStream V` — the channels of a store, its clones, the replacement in
  progress and all receivers.
* `EventStream.step` — one channel operation of one of them.
* `EventStream.NoFalseEnd` — `Closed` is returned only once every clone is gone.
* `EventStream.disturbs`, `Undisturbed` — the steps that mislead a receiver.
* `receivers_see_no_false_end` — without them no receiver is misled.
-/

namespace ZephyrVox.Realtime

open Transition

variable {V : Type}

/-- The calls of `refresh_generation`, by where they stand. -/
inductive RefreshSite
  /-- At the top of the loop of `try_recv`. -/
  | tryRecv
  /-- In `try_recv`, after an event of an older generation. -/
  | tryRecvStale
  /-- At the top of the loop of `recv`. -/
  | recv
  /-- In `recv`, after the generation changed. -/
  | recvChanged
  /-- In `recv`, after a result of an older generation. -/
  | recvStale
  deriving DecidableEq, Repr

/-- Where a receiver is in its call. -/
inductive ReceiverPc (V : Type)
  /-- No call, or a subscription that is complete. -/
  | idle
  /-- `refresh_generation` compares the generations. -/
  | comparing (site : RefreshSite)
  /-- It upgrades its reference to the sender lock. -/
  | upgrading (site : RefreshSite) (generation : ℕ)
  /-- It waits for the sender lock. -/
  | locking (site : RefreshSite) (generation : ℕ)
  /-- It has a clone of the sender. -/
  | subscribing (site : RefreshSite) (generation : ℕ) (sender : ℕ)
  /-- It has subscribed and still holds the clone. -/
  | refreshed (site : RefreshSite) (sender : ℕ)
  /-- `try_recv` polls. -/
  | polling
  /-- `try_recv` has an event and compares the generations. -/
  | judging (event : StateEvent V)
  /-- `recv` waits for a message or a new generation. -/
  | awaiting
  /-- `recv` has a result and compares the generations. -/
  | received (result : TryRecv V)
  /-- `resubscribe` upgrades its reference to the sender lock. -/
  | resubscribing
  /-- It waits for the sender lock. -/
  | pairing
  /-- It has paired the channel with the generation. -/
  | paired
  /-- The call returned. -/
  | returned (result : TryRecv V)
  | dropped

/-- A receiver and its call. -/
structure StreamReceiver (V : Type) where
  /-- The channel it is subscribed to, by its number. -/
  channel : ℕ
  next : ℕ
  observedGeneration : ℕ
  /-- The publications of the generation that `changed` has seen. -/
  seen : ℕ
  pc : ReceiverPc V

/-- Where `replace_snapshot` is. -/
inductive ReplacePc
  | idle
  /-- It holds the state lock and knows the next generation. -/
  | prepared (next : ℕ)
  /-- It holds the sender lock. -/
  | locked (next : ℕ)
  /-- It has installed the new sender and dropped the old one. -/
  | installed (next : ℕ)
  /-- It has published the generation. -/
  | generationPublished
  /-- It has published the state. -/
  | statePublished
  deriving DecidableEq, Repr

/-- The event channels of a store and everybody who uses them. -/
structure EventStream (V : Type) where
  /-- The clones of the store that are left. -/
  stores : ℕ
  /-- All channels, oldest first. -/
  channels : List (Broadcast.Channel (StateEvent V))
  /-- The channel whose sender is behind the sender lock. -/
  installed : ℕ
  /-- The published generation. -/
  generation : ℕ
  /-- How often a generation was published. -/
  publications : ℕ
  /-- How often a replaced state was published. -/
  statePublications : ℕ
  writer : ReplacePc
  receivers : List (StreamReceiver V)

/-- The steps. -/
inductive StreamAction (V : Type)
  | cloneStore
  | dropStore
  /-- The next operation of a replacement. -/
  | replaceSnapshot
  | applyEvent (event : StateEvent V)
  | subscribeEvents
  | resubscribe (i : ℕ)
  | tryRecv (i : ℕ)
  | recv (i : ℕ)
  /-- The next operation of a call; a waiting `recv` polls its channel. -/
  | advance (i : ℕ)
  /-- A waiting `recv` polls for a new generation. -/
  | changed (i : ℕ)
  /-- A waiting `recv` is dropped. -/
  | cancel (i : ℕ)
  /-- The host takes the result. -/
  | take (i : ℕ)
  | dropReceiver (i : ℕ)

/-- What a call does after `refresh_generation` returned true. -/
def RefreshSite.resume : RefreshSite → ReceiverPc V
  | .tryRecv => .polling
  | .tryRecvStale => .comparing .tryRecv
  | .recv => .awaiting
  | .recvChanged => .comparing .recv
  | .recvStale => .comparing .recv

namespace ReceiverPc

/-- The channel of the cloned sender that a call holds. -/
def sender : ReceiverPc V → Option ℕ
  | .subscribing _ _ sender => some sender
  | .refreshed _ sender => some sender
  | _ => none

/-- The call keeps the sender lock, and the sender behind it, alive. -/
def keepsLock : ReceiverPc V → Bool
  | .locking _ _ => true
  | .subscribing _ _ _ => true
  | .refreshed _ _ => true
  | .pairing => true
  | .paired => true
  | _ => false

end ReceiverPc

namespace ReplacePc

/-- The replacement holds the sender lock. -/
def excludes : ReplacePc → Bool
  | .idle => false
  | .prepared _ => false
  | _ => true

end ReplacePc

namespace EventStream

/-- A store on its first snapshot. -/
def start : EventStream V where
  stores := 1
  channels := [.new eventCapacity]
  installed := 0
  generation := 0
  publications := 0
  statePublications := 0
  writer := .idle
  receivers := []

/-- The sender lock can still be reached. -/
def lockAlive (s : EventStream V) : Bool :=
  decide (0 < s.stores) || s.receivers.any fun r => r.pc.keepsLock

/-- Some sender of the channel is left. -/
def hasSender (s : EventStream V) (channel : ℕ) : Bool :=
  s.lockAlive && channel == s.installed ||
    s.receivers.any fun r => r.pc.sender == some channel

/-- A fresh cursor of the channel. -/
def subscribe (s : EventStream V) (channel : ℕ) : ℕ :=
  (s.channels[channel]?.map fun c => c.subscribe).getD 0

/-- The messages of its channel that a receiver has not read. -/
def unread (s : EventStream V) (r : StreamReceiver V) : List (StateEvent V) :=
  (s.channels[r.channel]?.map fun c => c.unread r.next).getD []

/-- Poll the channel of a receiver. -/
def poll (s : EventStream V) (r : StreamReceiver V) : TryRecv V × ℕ :=
  match s.channels[r.channel]? with
  | none => (.closed, r.next)
  | some channel =>
      match channel.tryRecv r.next with
      | (.message event, next) => (.event event, next)
      | (.lagged missed, next) => (.lagged missed, next)
      | (.empty, next) => (if s.hasSender r.channel then .empty else .closed, next)

/-- The next operation of a call. -/
def advance (s : EventStream V) (r : StreamReceiver V) : Option (StreamReceiver V) :=
  match r.pc with
  | .comparing site =>
      if s.generation = r.observedGeneration then some { r with pc := site.resume }
      else some { r with pc := .upgrading site s.generation }
  | .upgrading site generation =>
      if s.lockAlive then some { r with pc := .locking site generation }
      else some { r with pc := .returned .closed }
  | .locking site generation =>
      if s.writer.excludes then none
      else some { r with pc := .subscribing site generation s.installed }
  | .subscribing site generation sender =>
      some { r with
        channel := sender
        next := s.subscribe sender
        observedGeneration := generation
        pc := .refreshed site sender }
  | .refreshed site _ => some { r with pc := site.resume }
  | .polling =>
      match s.poll r with
      | (.event event, next) => some { r with next := next, pc := .judging event }
      | (result, next) => some { r with next := next, pc := .returned result }
  | .judging event =>
      if s.generation = r.observedGeneration then some { r with pc := .returned (.event event) }
      else some { r with pc := .comparing .tryRecvStale }
  | .awaiting =>
      match s.poll r with
      | (.empty, _) => none
      | (result, next) => some { r with next := next, pc := .received result }
  | .received result =>
      if s.generation = r.observedGeneration then some { r with pc := .returned result }
      else some { r with pc := .comparing .recvStale }
  | .resubscribing =>
      if s.lockAlive then some { r with pc := .pairing }
      else some { r with
        next := s.subscribe r.channel
        observedGeneration := s.generation
        pc := .idle }
  | .pairing =>
      if s.writer.excludes then none
      else some { r with
        channel := s.installed
        next := s.subscribe s.installed
        observedGeneration := s.generation
        pc := .paired }
  | .paired => some { r with pc := .idle }
  | _ => none

/-- A waiting `recv` polls for a new generation. -/
def changed (s : EventStream V) (r : StreamReceiver V) : Option (StreamReceiver V) :=
  match r.pc with
  | .awaiting =>
      if r.seen = s.publications then
        if s.stores = 0 then some { r with pc := .returned .closed } else none
      else some { r with seen := s.publications, pc := .comparing .recvChanged }
  | _ => none

/-- Begin a call. -/
def call (r : StreamReceiver V) (pc : ReceiverPc V) : Option (StreamReceiver V) :=
  match r.pc with
  | .idle => some { r with pc := pc }
  | _ => none

/-- A receiver of the current channel. -/
def subscribed (s : EventStream V) : StreamReceiver V where
  channel := s.installed
  next := s.subscribe s.installed
  observedGeneration := s.generation
  seen := s.publications
  pc := .idle

/-- One receiver moves. -/
def move (s : EventStream V) (i : ℕ)
    (f : StreamReceiver V → Option (StreamReceiver V)) : Option (EventStream V) :=
  (s.receivers[i]?.bind f).map fun r => { s with receivers := s.receivers.set i r }

/-- The next operation of a replacement. -/
def replaceSnapshot (s : EventStream V) : Option (EventStream V) :=
  match s.writer with
  | .idle =>
      if s.stores = 0 then none
      else some { s with writer := .prepared ((s.generation + 1) % generationModulus) }
  | .prepared next => some { s with writer := .locked next }
  | .locked next =>
      some { s with
        channels := s.channels ++ [.new eventCapacity]
        installed := s.channels.length
        writer := .installed next }
  | .installed next =>
      some { s with
        generation := next
        publications := s.publications + 1
        writer := .generationPublished }
  | .generationPublished =>
      some { s with statePublications := s.statePublications + 1, writer := .statePublished }
  | .statePublished => some { s with writer := .idle }

/-- One operation. -/
def step (s : EventStream V) : StreamAction V → Option (EventStream V)
  | .cloneStore => if s.stores = 0 then none else some { s with stores := s.stores + 1 }
  | .dropStore =>
      -- a replacement in progress borrows a clone
      if s.stores = 0 ∨ s.writer ≠ .idle ∧ s.stores = 1 then none
      else some { s with stores := s.stores - 1 }
  | .replaceSnapshot => s.replaceSnapshot
  | .applyEvent event =>
      -- the state lock is held up to the send
      if s.stores = 0 ∨ s.writer ≠ .idle then none
      else some { s with channels := s.channels.modify s.installed fun c => c.send event }
  | .subscribeEvents =>
      if s.stores = 0 ∨ s.writer.excludes then none
      else some { s with receivers := s.receivers ++ [s.subscribed] }
  | .resubscribe i =>
      -- the original is borrowed, so what the call reads of it is read here
      (s.receivers[i]?.bind fun r => call r .resubscribing).map fun r =>
        { s with receivers := s.receivers ++ [r] }
  | .tryRecv i => s.move i fun r => call r (.comparing .tryRecv)
  | .recv i => s.move i fun r => call r (.comparing .recv)
  | .advance i => s.move i s.advance
  | .changed i => s.move i s.changed
  | .cancel i => s.move i fun r =>
      match r.pc with
      | .awaiting => some { r with pc := .idle }
      | _ => none
  | .take i => s.move i fun r =>
      match r.pc with
      | .returned _ => some { r with pc := .idle }
      | _ => none
  | .dropReceiver i => s.move i fun r => call r .dropped

/-- `Closed` is returned only once every clone of the store is dropped. -/
def NoFalseEnd (s : EventStream V) : Prop :=
  ∀ r ∈ s.receivers, r.pc = .returned .closed → s.stores = 0

/-- A `try_recv` has done its last comparison before the poll and has nothing left
to read. -/
def pollsDrained (s : EventStream V) (r : StreamReceiver V) : Bool :=
  match r.pc with
  | .subscribing .tryRecv _ _ => true
  | .refreshed .tryRecv _ => true
  | .polling => (s.unread r).isEmpty
  | _ => false

/-- The comparison of a receiver with the published generation misses that its
channel is replaced: in `try_recv` with nothing left to read, in `recv` with the
end of the channel in hand. -/
def misjudges (s : EventStream V) (r : StreamReceiver V) : Bool :=
  match r.pc with
  | .comparing .tryRecv =>
      r.channel != s.installed && s.generation == r.observedGeneration && (s.unread r).isEmpty
  | .received .closed => s.generation == r.observedGeneration
  | _ => false

/-- The steps that mislead a receiver: a sender is dropped behind its comparison,
or the comparison itself comes before the publication. -/
def disturbs (s : EventStream V) : StreamAction V → Bool
  | .replaceSnapshot =>
      match s.writer with
      | .locked _ => s.receivers.any s.pollsDrained
      | _ => false
  | .advance i => s.receivers[i]?.any s.misjudges
  | _ => false

end EventStream

/-- A step that misleads no receiver while the store is alive. -/
def Undisturbed (s : EventStream V) (a : StreamAction V) : Prop :=
  0 < s.stores → s.disturbs a = false

namespace EventStream

variable {s s' : EventStream V} {r r' : StreamReceiver V}

/-! ## One receiver -/

/-- What the last comparison leaves behind for the poll that follows it. -/
def Placed (s : EventStream V) (r : StreamReceiver V) : Prop :=
  match r.pc with
  | .subscribing .tryRecv _ sender => sender = s.installed
  | .refreshed .tryRecv _ => r.channel = s.installed
  | .polling => r.channel = s.installed ∨ s.unread r ≠ []
  | .returned .closed => False
  | _ => True

theorem move_some {i : ℕ} {f : StreamReceiver V → Option (StreamReceiver V)}
    (h : s.move i f = some s') : ∃ r r', s.receivers[i]? = some r ∧ f r = some r' ∧
      s' = { s with receivers := s.receivers.set i r' } := by
  obtain ⟨r', hr', hs'⟩ := Option.map_eq_some_iff.mp h
  obtain ⟨r, hr, hf⟩ := Option.bind_eq_some_iff.mp hr'
  exact ⟨r, r', hr, hf, hs'.symm⟩

theorem call_some {pc : ReceiverPc V} (h : call r pc = some r') : r' = { r with pc := pc } := by
  simp only [call] at h
  split at h
  · exact (Option.some.inj h).symm
  · cases h

/-- What one operation does. -/
inductive Moves (s : EventStream V) : StreamAction V → EventStream V → Prop
  | stores {a : StreamAction V} (n : ℕ) (hstores : 0 < s.stores) :
      Moves s a { s with stores := n }
  | replaces {s' : EventStream V} (h : s.replaceSnapshot = some s') :
      Moves s .replaceSnapshot s'
  | sends (event : StateEvent V) :
      Moves s (.applyEvent event)
        { s with channels := s.channels.modify s.installed fun c => c.send event }
  | subscribes : Moves s .subscribeEvents { s with receivers := s.receivers ++ [s.subscribed] }
  | resubscribes {i : ℕ} {r : StreamReceiver V} (hr : s.receivers[i]? = some r) :
      Moves s (.resubscribe i)
        { s with receivers := s.receivers ++ [{ r with pc := .resubscribing }] }
  /-- A call begins, or its result is taken, or it is cancelled. -/
  | goes {a : StreamAction V} {i : ℕ} {r : StreamReceiver V} {pc : ReceiverPc V}
      (hr : s.receivers[i]? = some r)
      (hpc : pc ∈ [.comparing .tryRecv, .comparing .recv, .dropped, .idle]) :
      Moves s a { s with receivers := s.receivers.set i { r with pc := pc } }
  | advances {i : ℕ} {r r' : StreamReceiver V} (hr : s.receivers[i]? = some r)
      (h : s.advance r = some r') :
      Moves s (.advance i) { s with receivers := s.receivers.set i r' }
  | changes {i : ℕ} {r r' : StreamReceiver V} (hr : s.receivers[i]? = some r)
      (h : s.changed r = some r') :
      Moves s (.changed i) { s with receivers := s.receivers.set i r' }

theorem step_moves {a : StreamAction V} (h : s.step a = some s') : s.Moves a s' := by
  cases a with
  | cloneStore =>
      simp only [step] at h
      split at h
      · cases h
      · cases h
        exact .stores _ (by omega)
  | dropStore =>
      simp only [step] at h
      split at h
      · cases h
      · cases h
        exact .stores _ (by omega)
  | replaceSnapshot => exact .replaces h
  | applyEvent event =>
      simp only [step] at h
      split at h
      · cases h
      · cases h
        exact .sends event
  | subscribeEvents =>
      simp only [step] at h
      split at h
      · cases h
      · cases h
        exact .subscribes
  | resubscribe i =>
      obtain ⟨r, hr, rfl⟩ := Option.map_eq_some_iff.mp h
      obtain ⟨original, horiginal, hcall⟩ := Option.bind_eq_some_iff.mp hr
      rw [call_some hcall]
      exact .resubscribes horiginal
  | tryRecv i | recv i | dropReceiver i =>
      obtain ⟨r, r', hr, hcall, rfl⟩ := move_some h
      rw [call_some hcall]
      exact .goes hr (by simp)
  | advance i =>
      obtain ⟨r, r', hr, hadvance, rfl⟩ := move_some h
      exact .advances hr hadvance
  | changed i =>
      obtain ⟨r, r', hr, hchanged, rfl⟩ := move_some h
      exact .changes hr hchanged
  | cancel i | take i =>
      obtain ⟨r, r', hr, hmove, rfl⟩ := move_some h
      split at hmove
      · cases hmove
        exact .goes hr (by simp)
      · cases hmove

theorem lockAlive_of_stores (h : 0 < s.stores) : s.lockAlive = true := by
  simp [lockAlive, h]

/-- A poll that says `Closed` while the store is alive found a replaced channel
with nothing to read. -/
theorem poll_closed {next : ℕ} (hinstalled : s.installed < s.channels.length)
    (hstores : 0 < s.stores) (h : s.poll r = (.closed, next)) :
    r.channel ≠ s.installed ∧ s.unread r = [] := by
  simp only [poll] at h
  cases hchannel : s.channels[r.channel]? with
  | none =>
      refine ⟨fun heq => ?_, by simp [unread, hchannel]⟩
      rw [heq, List.getElem?_eq_none_iff] at hchannel
      omega
  | some channel =>
      simp only [hchannel] at h
      split at h
      · cases h
      · cases h
      · rename_i next' hempty
        have hsender : s.hasSender r.channel = false := by
          by_contra hne
          simp [Bool.eq_true_of_not_eq_false hne] at h
        refine ⟨fun heq => ?_, ?_⟩
        · simp [hasSender, heq, lockAlive_of_stores hstores] at hsender
        · simpa [unread, hchannel] using Broadcast.Channel.unread_of_tryRecv hempty

/-- The continuation of a comparison that found nothing new. -/
theorem placed_resume {site : RefreshSite} (h : site = .tryRecv →
    r.channel = s.installed ∨ s.unread r ≠ []) : s.Placed { r with pc := site.resume } := by
  cases site with
  | tryRecv => exact h rfl
  | _ => exact trivial

/-- **A step of a call.** -/
theorem placed_advance (hinstalled : s.installed < s.channels.length) (hstores : 0 < s.stores)
    (hr : s.Placed r) (hjudge : s.misjudges r = false) (h : s.advance r = some r') :
    s.Placed r' := by
  simp only [advance] at h
  split at h
  case h_1 site hpc =>
    split at h
    · rename_i hgeneration
      cases h
      refine placed_resume fun hsite => ?_
      subst hsite
      by_contra hnone
      push Not at hnone
      simp [misjudges, hpc, hgeneration, hnone] at hjudge
    · cases h
      exact trivial
  case h_2 site generation hpc =>
    rw [if_pos (lockAlive_of_stores hstores)] at h
    cases h
    exact trivial
  case h_3 site generation hpc =>
    split at h
    · cases h
    · cases h
      cases site with
      | tryRecv => exact rfl
      | _ => exact trivial
  case h_4 site generation sender hpc =>
    cases h
    cases site with
    | tryRecv => simpa [Placed, hpc] using hr
    | _ => exact trivial
  case h_5 site sender hpc =>
    cases h
    refine placed_resume fun hsite => ?_
    subst hsite
    exact .inl (by simpa [Placed, hpc] using hr)
  case h_6 hpc =>
    split at h
    · cases h
      exact trivial
    · rename_i result next _ hpoll
      cases h
      cases result with
      | closed =>
          -- the comparison left a channel that is installed or has something unread
          have hdrained := poll_closed hinstalled hstores hpoll
          simp only [Placed, hpc] at hr
          exact hr.elim hdrained.1 fun hne => hne hdrained.2
      | _ => exact trivial
  case h_7 event hpc =>
    split at h <;> cases h <;> exact trivial
  case h_8 hpc =>
    split at h
    · cases h
    · cases h
      exact trivial
  case h_9 result hpc =>
    split at h
    · rename_i hgeneration
      cases h
      cases result with
      | closed => simp [misjudges, hpc, hgeneration] at hjudge
      | _ => exact trivial
    · cases h
      exact trivial
  case h_10 hpc =>
    rw [if_pos (lockAlive_of_stores hstores)] at h
    cases h
    exact trivial
  case h_11 hpc =>
    split at h
    · cases h
    · cases h
      exact trivial
  case h_12 hpc =>
    cases h
    exact trivial
  case h_13 => cases h

theorem placed_changed (hstores : 0 < s.stores) (h : s.changed r = some r') : s.Placed r' := by
  simp only [changed] at h
  split at h
  · split at h
    · rw [if_neg (Nat.ne_of_gt hstores)] at h
      cases h
    · cases h
      exact trivial
  · cases h

/-- A placed receiver stays placed while what it has not read stays unread, unless
a sender is dropped behind its comparison. -/
theorem Placed.mono (H : s.Placed r) (hunread : s.unread r ≠ [] → s'.unread r ≠ [])
    (hinstalled : s'.installed = s.installed ∨ s.pollsDrained r = false) : s'.Placed r := by
  simp only [Placed] at H ⊢
  simp only [pollsDrained] at hinstalled
  cases hpc : r.pc with
  | subscribing site _ _ | refreshed site _ =>
      cases site with
      | tryRecv =>
          simp only [hpc, Bool.true_eq_false, or_false] at H hinstalled ⊢
          rw [hinstalled]
          exact H
      | _ => exact trivial
  | polling =>
      simp only [hpc, List.isEmpty_eq_false_iff] at H hinstalled ⊢
      rcases hinstalled with heq | hne
      · rw [heq]
        exact H.imp_right hunread
      · exact .inr (hunread hne)
  | returned result =>
      cases result with
      | closed => simp [hpc] at H
      | _ => exact trivial
  | _ => exact trivial

/-! ## Whole runs -/

/-- The invariant of a run without disturbance. -/
structure Watchful (s : EventStream V) : Prop where
  installed : s.installed + 1 = s.channels.length
  placed : 0 < s.stores → ∀ r ∈ s.receivers, s.Placed r

theorem watchful_start : (start : EventStream V).Watchful where
  installed := rfl
  placed := fun _ _ hr => absurd hr List.not_mem_nil

theorem Watchful.noFalseEnd (H : s.Watchful) : s.NoFalseEnd := by
  intro r hr hpc
  by_contra hstores
  simpa [Placed, hpc] using H.placed (Nat.pos_of_ne_zero hstores) r hr

/-- One receiver moves to a placed state. -/
theorem Watchful.set (H : s.Watchful) (i : ℕ) (hr' : 0 < s.stores → s.Placed r') :
    ({ s with receivers := s.receivers.set i r' } : EventStream V).Watchful where
  installed := H.installed
  placed := by
    intro hstores q hq
    rcases List.mem_or_eq_of_mem_set hq with hq | rfl
    · exact H.placed hstores q hq
    · exact hr' hstores

/-- A new receiver is placed. -/
theorem Watchful.append (H : s.Watchful) (hr' : s.Placed r') :
    ({ s with receivers := s.receivers ++ [r'] } : EventStream V).Watchful where
  installed := H.installed
  placed := by
    intro hstores q hq
    rcases List.mem_append.mp hq with hq | hq
    · exact H.placed hstores q hq
    · rw [List.mem_singleton.mp hq]
      exact hr'

/-- The unread messages after an application. -/
theorem unread_modify {event : StateEvent V} (h : s.unread r ≠ []) :
    ({ s with channels := s.channels.modify s.installed fun c => c.send event } :
      EventStream V).unread r ≠ [] := by
  cases hchannel : s.channels[r.channel]? with
  | none => simp [unread, hchannel] at h
  | some channel =>
      simp only [unread, List.getElem?_modify, hchannel, Option.map_some, Option.getD_some] at h ⊢
      by_cases heq : s.installed = r.channel
      · simpa [heq] using Broadcast.Channel.unread_send_ne_nil h event
      · simpa [heq] using h

/-- The unread messages after an installation. -/
theorem unread_append {channel : Broadcast.Channel (StateEvent V)} {n : ℕ} {pc : ReplacePc}
    (h : s.unread r ≠ []) : ({ s with
      channels := s.channels ++ [channel], installed := n, writer := pc } :
        EventStream V).unread r ≠ [] := by
  cases hchannel : s.channels[r.channel]? with
  | none => simp [unread, hchannel] at h
  | some old =>
      have hlt : r.channel < s.channels.length := (List.getElem?_eq_some_iff.mp hchannel).1
      simpa [unread, List.getElem?_append_left hlt] using h

/-- **A step of a replacement.** -/
theorem Watchful.replaceSnapshot (H : s.Watchful) (ha : Undisturbed s .replaceSnapshot)
    (h : s.replaceSnapshot = some s') : s'.Watchful := by
  simp only [EventStream.replaceSnapshot] at h
  split at h
  case h_1 =>
    split at h
    · cases h
    · cases h
      exact ⟨H.installed, H.placed⟩
  case h_3 next hwriter =>
    cases h
    refine ⟨by simp, fun hstores r hr => ?_⟩
    have hquiet := ha hstores
    simp only [disturbs, hwriter, List.any_eq_false] at hquiet
    exact (H.placed hstores r hr).mono unread_append
      (.inr (Bool.eq_false_of_not_eq_true (hquiet r hr)))
  all_goals
    cases h
    exact ⟨H.installed, H.placed⟩

/-- **One operation.** -/
theorem watchful_step {a : StreamAction V} (H : s.Watchful) (ha : Undisturbed s a)
    (h : s.step a = some s') : s'.Watchful := by
  have hlt : s.installed < s.channels.length := by
    have hinstalled := H.installed
    omega
  cases step_moves h with
  | stores n hstores => exact ⟨H.installed, fun _ => H.placed hstores⟩
  | replaces hreplace => exact H.replaceSnapshot ha hreplace
  | sends event =>
      refine ⟨by simpa using H.installed, fun hstores r hr => ?_⟩
      exact (H.placed hstores r hr).mono unread_modify (.inl rfl)
  | subscribes => exact H.append trivial
  | resubscribes hr => exact H.append trivial
  | goes hr hpc =>
      refine H.set _ fun _ => ?_
      simp only [List.mem_cons, List.not_mem_nil, or_false] at hpc
      rcases hpc with rfl | rfl | rfl | rfl <;> exact trivial
  | advances hr hadvance =>
      refine H.set _ fun hstores => placed_advance hlt hstores
        (H.placed hstores _ (List.mem_of_getElem? hr)) ?_ hadvance
      simpa [disturbs, hr] using ha hstores
  | changes hr hchanged => exact H.set _ fun hstores => placed_changed hstores hchanged

/-! ## The window of a replacement -/

/-- The generation marker of a receiver is the number of its channel or an older
one. -/
def Marked (s : EventStream V) (r : StreamReceiver V) : Prop :=
  r.channel ≤ s.installed ∧ (∃ n ≤ r.channel, r.observedGeneration = n % generationModulus) ∧
    match r.pc with
    | .upgrading _ generation => ∃ n ≤ s.publications, generation = n % generationModulus
    | .locking _ generation => ∃ n ≤ s.publications, generation = n % generationModulus
    | .subscribing _ generation sender =>
        sender ≤ s.installed ∧ ∃ n ≤ sender, generation = n % generationModulus
    | .received .closed => r.channel < s.installed
    | _ => True

/-- How far the publication is behind the installation. -/
def Publishes (s : EventStream V) : Prop :=
  match s.writer with
  | .installed next =>
      s.installed = s.publications + 1 ∧ next = (s.publications + 1) % generationModulus
  | .prepared next | .locked next =>
      s.installed = s.publications ∧ next = (s.publications + 1) % generationModulus
  | _ => s.installed = s.publications

/-- The generation counts the replacements. -/
structure Counted (s : EventStream V) : Prop where
  installed : s.installed + 1 = s.channels.length
  generation : s.generation = s.publications % generationModulus
  publishes : s.Publishes
  marked : 0 < s.stores → ∀ r ∈ s.receivers, s.Marked r

theorem Publishes.le (H : s.Publishes) : s.publications ≤ s.installed := by
  simp only [Publishes] at H
  split at H <;> omega

/-- Markers stay markers while the channels and publications grow. -/
theorem Marked.mono (H : s.Marked r) (hinstalled : s.installed ≤ s'.installed)
    (hpublications : s.publications ≤ s'.publications) : s'.Marked r := by
  obtain ⟨hchannel, hobserved, hpc⟩ := H
  refine ⟨hchannel.trans hinstalled, hobserved, ?_⟩
  cases hr : r.pc with
  | upgrading site generation | locking site generation =>
      rw [hr] at hpc
      obtain ⟨n, hn, rfl⟩ := hpc
      exact ⟨n, hn.trans hpublications, rfl⟩
  | subscribing site generation sender =>
      rw [hr] at hpc
      exact ⟨hpc.1.trans hinstalled, hpc.2⟩
  | received result =>
      cases result with
      | closed =>
          rw [hr] at hpc
          exact lt_of_lt_of_le hpc hinstalled
      | _ => exact trivial
  | _ => exact trivial

theorem marked_resume {site : RefreshSite} (H : s.Marked r) :
    s.Marked { r with pc := site.resume } :=
  ⟨H.1, H.2.1, by cases site <;> exact trivial⟩

/-- **A step of a call.** -/
theorem marked_advance (HC : s.Counted) (hstores : 0 < s.stores) (H : s.Marked r)
    (h : s.advance r = some r') : s.Marked r' := by
  have hcurrent : ∃ n ≤ s.publications, s.generation = n % generationModulus :=
    ⟨s.publications, le_rfl, HC.generation⟩
  have hle := HC.publishes.le
  obtain ⟨hchannel, hobserved, hmark⟩ := H
  simp only [advance] at h
  split at h
  case h_1 site hpc =>
    split at h
    · cases h
      exact marked_resume ⟨hchannel, hobserved, hmark⟩
    · cases h
      exact ⟨hchannel, hobserved, hcurrent⟩
  case h_2 site generation hpc =>
    rw [if_pos (lockAlive_of_stores hstores)] at h
    cases h
    simp only [hpc] at hmark
    exact ⟨hchannel, hobserved, hmark⟩
  case h_3 site generation hpc =>
    split at h
    · cases h
    · cases h
      simp only [hpc] at hmark
      obtain ⟨n, hn, hgeneration⟩ := hmark
      exact ⟨hchannel, hobserved, le_rfl, n, hn.trans hle, hgeneration⟩
  case h_4 site generation sender hpc =>
    cases h
    simp only [hpc] at hmark
    exact ⟨hmark.1, hmark.2, trivial⟩
  case h_5 site sender hpc =>
    cases h
    exact marked_resume ⟨hchannel, hobserved, hmark⟩
  case h_6 hpc =>
    split at h <;> cases h <;> exact ⟨hchannel, hobserved, trivial⟩
  case h_7 event hpc =>
    split at h <;> cases h <;> exact ⟨hchannel, hobserved, trivial⟩
  case h_8 hpc =>
    split at h
    · cases h
    · rename_i result next _ hpoll
      cases h
      refine ⟨hchannel, hobserved, ?_⟩
      cases result with
      | closed =>
          have hlt : s.installed < s.channels.length := by
            have hinstalled := HC.installed
            omega
          exact lt_of_le_of_ne hchannel (poll_closed hlt hstores hpoll).1
      | _ => exact trivial
  case h_9 result hpc =>
    split at h <;> cases h <;> exact ⟨hchannel, hobserved, trivial⟩
  case h_10 hpc =>
    rw [if_pos (lockAlive_of_stores hstores)] at h
    cases h
    exact ⟨hchannel, hobserved, trivial⟩
  case h_11 hpc =>
    split at h
    · cases h
    · cases h
      obtain ⟨n, hn, hgeneration⟩ := hcurrent
      exact ⟨le_rfl, ⟨n, hn.trans hle, hgeneration⟩, trivial⟩
  case h_12 hpc =>
    cases h
    exact ⟨hchannel, hobserved, trivial⟩
  case h_13 => cases h

theorem marked_changed (hstores : 0 < s.stores) (H : s.Marked r)
    (h : s.changed r = some r') : s.Marked r' := by
  obtain ⟨hchannel, hobserved, -⟩ := H
  simp only [changed] at h
  split at h
  · split at h
    · rw [if_neg (Nat.ne_of_gt hstores)] at h
      cases h
    · cases h
      exact ⟨hchannel, hobserved, trivial⟩
  · cases h

theorem counted_start : (start : EventStream V).Counted where
  installed := rfl
  generation := rfl
  publishes := rfl
  marked := fun _ _ hr => absurd hr List.not_mem_nil

theorem Counted.set (H : s.Counted) (i : ℕ) (hr' : 0 < s.stores → s.Marked r') :
    ({ s with receivers := s.receivers.set i r' } : EventStream V).Counted where
  installed := H.installed
  generation := H.generation
  publishes := H.publishes
  marked := by
    intro hstores q hq
    rcases List.mem_or_eq_of_mem_set hq with hq | rfl
    · exact H.marked hstores q hq
    · exact hr' hstores

theorem Counted.append (H : s.Counted) (hr' : 0 < s.stores → s.Marked r') :
    ({ s with receivers := s.receivers ++ [r'] } : EventStream V).Counted where
  installed := H.installed
  generation := H.generation
  publishes := H.publishes
  marked := by
    intro hstores q hq
    rcases List.mem_append.mp hq with hq | hq
    · exact H.marked hstores q hq
    · rw [List.mem_singleton.mp hq]
      exact hr' hstores

/-- **A step of a replacement.** -/
theorem Counted.replaceSnapshot (H : s.Counted) (h : s.replaceSnapshot = some s') :
    s'.Counted := by
  have hpublishes := H.publishes
  simp only [EventStream.replaceSnapshot] at h
  simp only [Publishes] at hpublishes
  split at h
  case h_1 hwriter =>
    simp only [hwriter] at hpublishes
    split at h
    · cases h
    · cases h
      refine ⟨H.installed, H.generation, ⟨hpublishes, ?_⟩, H.marked⟩
      simp [H.generation]
  case h_2 next hwriter =>
    simp only [hwriter] at hpublishes
    cases h
    exact ⟨H.installed, H.generation, hpublishes, H.marked⟩
  case h_3 next hwriter =>
    simp only [hwriter] at hpublishes
    have hinstalled := H.installed
    cases h
    refine ⟨by simp, H.generation, ⟨?_, hpublishes.2⟩, fun hstores r hr => ?_⟩
    · simp only
      omega
    · exact (H.marked hstores r hr).mono (by simp only; omega) le_rfl
  case h_4 next hwriter =>
    simp only [hwriter] at hpublishes
    cases h
    refine ⟨H.installed, hpublishes.2, hpublishes.1, fun hstores r hr => ?_⟩
    exact (H.marked hstores r hr).mono le_rfl (Nat.le_succ _)
  case h_5 hwriter =>
    simp only [hwriter] at hpublishes
    cases h
    exact ⟨H.installed, H.generation, hpublishes, H.marked⟩
  case h_6 hwriter =>
    simp only [hwriter] at hpublishes
    cases h
    exact ⟨H.installed, H.generation, hpublishes, H.marked⟩

/-- **One operation.** -/
theorem counted_step {a : StreamAction V} (H : s.Counted) (h : s.step a = some s') :
    s'.Counted := by
  cases step_moves h with
  | stores n hstores =>
      exact ⟨H.installed, H.generation, H.publishes, fun _ => H.marked hstores⟩
  | replaces hreplace => exact H.replaceSnapshot hreplace
  | sends event =>
      exact ⟨by simpa using H.installed, H.generation, H.publishes, H.marked⟩
  | subscribes =>
      exact H.append fun _ =>
        ⟨le_rfl, ⟨s.publications, H.publishes.le, H.generation⟩, trivial⟩
  | resubscribes hr =>
      refine H.append fun hstores => ?_
      obtain ⟨hchannel, hobserved, -⟩ := H.marked hstores _ (List.mem_of_getElem? hr)
      exact ⟨hchannel, hobserved, trivial⟩
  | goes hr hpc =>
      refine H.set _ fun hstores => ?_
      obtain ⟨hchannel, hobserved, -⟩ := H.marked hstores _ (List.mem_of_getElem? hr)
      simp only [List.mem_cons, List.not_mem_nil, or_false] at hpc
      rcases hpc with rfl | rfl | rfl | rfl <;> exact ⟨hchannel, hobserved, trivial⟩
  | advances hr hadvance =>
      exact H.set _ fun hstores =>
        marked_advance H hstores (H.marked hstores _ (List.mem_of_getElem? hr)) hadvance
  | changes hr hchanged =>
      exact H.set _ fun hstores =>
        marked_changed hstores (H.marked hstores _ (List.mem_of_getElem? hr)) hchanged

/-- **A comparison is misled only inside a replacement**: with fewer than `2 ^ 64`
replacements, between the installation of the sender and the publication of the
generation. -/
theorem misjudges_in_window {actions : List (StreamAction V)}
    (hrun : exec step start actions = some s) (hstores : 0 < s.stores)
    (hfew : s.channels.length ≤ generationModulus) (hr : r ∈ s.receivers)
    (hjudge : s.misjudges r = true) : ∃ next, s.writer = .installed next := by
  have H : s.Counted := invariant (fun _ _ _ H h => counted_step H h) counted_start hrun
  obtain ⟨hchannel, ⟨n, hn, hobserved⟩, hmark⟩ := H.marked hstores r hr
  -- the marker it observed is the published one, and its channel is replaced
  have hbehind : s.generation = r.observedGeneration ∧ r.channel < s.installed := by
    simp only [misjudges] at hjudge
    split at hjudge
    case h_1 hpc =>
      simp only [Bool.and_eq_true, bne_iff_ne, ne_eq, beq_iff_eq] at hjudge
      exact ⟨hjudge.1.2, lt_of_le_of_ne hchannel hjudge.1.1⟩
    case h_2 hpc =>
      simp only [hpc] at hmark
      exact ⟨by simpa using hjudge, hmark⟩
    case h_3 => cases hjudge
  obtain ⟨hgeneration, hlt⟩ := hbehind
  have hinstalled := H.installed
  have hle := H.publishes.le
  have hsame : s.publications = n := by
    rw [H.generation, hobserved, Nat.mod_eq_of_lt (by omega), Nat.mod_eq_of_lt (by omega)]
      at hgeneration
    exact hgeneration
  have hpublishes := H.publishes
  simp only [Publishes] at hpublishes
  split at hpublishes
  case h_1 next hwriter => exact ⟨next, hwriter⟩
  all_goals omega

end EventStream

/-- A receiver notices a replacement, and the store is dropped before it polls. -/
def shutdownRun : List (StreamAction Unit) :=
  [.subscribeEvents, .replaceSnapshot, .replaceSnapshot, .replaceSnapshot, .replaceSnapshot,
    .replaceSnapshot, .replaceSnapshot, .tryRecv 0, .advance 0, .advance 0, .advance 0, .advance 0,
    .advance 0, .dropStore, .advance 0]

/-- A decision of the condition. -/
def undisturbed (s : EventStream V) (a : StreamAction V) : Bool :=
  s.stores == 0 || !s.disturbs a

theorem undisturbed_spec (s : EventStream V) (a : StreamAction V) (h : undisturbed s a = true) :
    Undisturbed s a := by
  intro hstores
  simpa [undisturbed, Nat.ne_of_gt hstores] using h

/-- The sender is dropped between the comparison and the poll of `try_recv`. -/
def droppedBehindTryRecv : List (StreamAction Unit) :=
  [.subscribeEvents, .tryRecv 0, .advance 0, .replaceSnapshot, .replaceSnapshot, .replaceSnapshot,
    .advance 0]

/-- `recv` polls and compares before the new generation is published. -/
def recvBeforePublication : List (StreamAction Unit) :=
  [.subscribeEvents, .recv 0, .advance 0, .replaceSnapshot, .replaceSnapshot, .replaceSnapshot,
    .advance 0, .advance 0]

end ZephyrVox.Realtime
