import ZephyrVox.Realtime.StateStore

/-!
# One event, write by write

`applyEventM` is the application of one event as the store performs it: a
sequence of writes to the installed projection, the watch value and the event
channel, which an error cuts off where it occurs. It is compared with
`StateStore.applyEvent`, which describes the whole call at once.

The four string tables of the projection (known types, scopes, visibility, and
the rules themselves) are compared here as well: a type is known exactly when
there is a rule for it.

## Main definitions

* `StoreWrite`, `applyEventM` — the writes of one call, in order.
* `Projection` — what each projection rule does, one constructor for each rule.
* `mayChange`, `AgreeOutside` — the fields an event type may change.
* `EventApplied` — the outcome of a successful application.
-/

namespace ZephyrVox.Realtime

variable {V : Type}

/-! ## The writes of one call -/

/-- One write to the store. -/
inductive StoreWrite (V : Type)
  /-- Replace the installed projection. -/
  | install (next : ClientState)
  /-- Send the projection to state watchers. -/
  | publish (next : ClientState)
  /-- Send the event to ordered subscribers. -/
  | broadcast (event : StateEvent V)

/-- The store after one write. -/
def StoreWrite.perform (store : StateStore V) : StoreWrite V → StateStore V
  | .install next => { store with state := next }
  | .publish next => { store with published := next }
  | .broadcast event => { store with events := store.events.send event }

/-- A store together with the writes made so far. -/
structure StoreTrace (V : Type) where
  store : StateStore V
  writes : List (StoreWrite V)

/-- Computations on the store; an error keeps the writes made before it. -/
abbrev StoreM (V : Type) := ExceptT StateApplyError (StateM (StoreTrace V))

/-- Perform one write. -/
def StoreM.write (w : StoreWrite V) : StoreM V Unit :=
  modify fun trace => ⟨w.perform trace.store, trace.writes ++ [w]⟩

/-- Validate, apply and publish one state event. -/
def applyEventM (serde : Serde V) (event : StateEvent V) : StoreM V Unit := do
  let current := (← get).store.state
  validateEvent event current
  -- The rules work on a clone, so a payload error leaves `current` as it is.
  let next ← applyKnownEvent serde current event
  let next := { next with cursor := event.cursor, geid := event.geid }
  StoreM.write (.install next)
  StoreM.write (.publish next)
  StoreM.write (.broadcast event)

/-- Run a call on a store on which it has written nothing yet. -/
def StoreM.start (x : StoreM V Unit) (store : StateStore V) :
    Except StateApplyError Unit × StoreTrace V :=
  x.run ⟨store, []⟩

@[simp] theorem run_get_bind {α : Type} (f : StoreTrace V → StoreM V α) (trace : StoreTrace V) :
    (get >>= f : StoreM V α).run trace = (f trace).run trace := rfl

@[simp] theorem run_write (w : StoreWrite V) (trace : StoreTrace V) :
    (StoreM.write w : StoreM V Unit).run trace =
      (.ok (), ⟨w.perform trace.store, trace.writes ++ [w]⟩) := rfl

@[simp] theorem run_write_bind {α : Type} (w : StoreWrite V) (f : Unit → StoreM V α)
    (trace : StoreTrace V) : (StoreM.write w >>= f).run trace =
      (f ()).run ⟨w.perform trace.store, trace.writes ++ [w]⟩ := rfl

@[simp] theorem run_ok_bind {α β : Type} (a : α) (f : α → StoreM V β) (trace : StoreTrace V) :
    ((liftM (.ok a : Except StateApplyError α) : StoreM V α) >>= f).run trace =
      (f a).run trace := rfl

@[simp] theorem run_error_bind {α β : Type} (e : StateApplyError) (f : α → StoreM V β)
    (trace : StoreTrace V) :
    ((liftM (.error e : Except StateApplyError α) : StoreM V α) >>= f).run trace =
      (.error e, trace) := rfl

/-- An event that cannot be applied leaves the store without a write. -/
theorem start_applyEventM_of_error {serde : Serde V} {store : StateStore V}
    {event : StateEvent V} {e : StateApplyError} (h : store.applyEvent serde event = .error e) :
    (applyEventM serde event).start store = (.error e, ⟨store, []⟩) := by
  unfold StateStore.applyEvent StateStore.project at h
  unfold applyEventM StoreM.start
  cases hv : validateEvent event store.state with
  | error e' =>
      simp only [hv, bind, Except.bind, Except.error.injEq] at h
      simp only [run_get_bind, hv, run_error_bind, h]
  | ok _ =>
      cases ha : applyKnownEvent serde store.state event with
      | error e' =>
          simp only [hv, ha, bind, Except.bind, Except.error.injEq] at h
          simp only [run_get_bind, hv, run_ok_bind, ha, run_error_bind, h]
      | ok next => simp [hv, ha, bind, Except.bind, pure, Except.pure] at h

/-- An event that can be applied is installed, published and broadcast, in that
order. -/
theorem start_applyEventM_of_ok {serde : Serde V} {store store' : StateStore V}
    {event : StateEvent V} (h : store.applyEvent serde event = .ok store') :
    (applyEventM serde event).start store =
      (.ok (), ⟨store', [.install store'.state, .publish store'.state, .broadcast event]⟩) := by
  unfold StateStore.applyEvent StateStore.project at h
  unfold applyEventM StoreM.start
  cases hv : validateEvent event store.state with
  | error e => simp [hv, bind, Except.bind] at h
  | ok _ =>
      cases ha : applyKnownEvent serde store.state event with
      | error e => simp [hv, ha, bind, Except.bind] at h
      | ok next =>
          simp only [hv, ha, bind, Except.bind, pure, Except.pure, Except.ok.injEq] at h
          subst h
          simp only [run_get_bind, hv, run_ok_bind, ha, run_write_bind, run_write]
          rfl

/-- **The call refines the application in one piece**: it has the same result, and
leaves the store that the application describes. -/
theorem start_applyEventM (serde : Serde V) (store : StateStore V) (event : StateEvent V) :
    (∀ e, ((applyEventM serde event).start store).1 = .error e →
      store.applyEvent serde event = .error e) ∧
    (((applyEventM serde event).start store).1 = .ok () →
      store.applyEvent serde event = .ok ((applyEventM serde event).start store).2.store) := by
  cases h : store.applyEvent serde event with
  | error e => simp [start_applyEventM_of_error h]
  | ok store' => simp [start_applyEventM_of_ok h]

/-! ## What each rule does -/

/-- What a rule that succeeds makes of a state, one constructor for each rule. -/
inductive Projection (serde : Serde V) (s : ClientState) (event : StateEvent V) :
    ClientState → Prop
  | groupSet {group : Group} (htype : event.eventType ∈ ["group.created", "group.updated"])
      (h : payload serde.group event = .ok group) :
      Projection serde s event { s with groups := upsertById s.groups group Group.id }
  | groupDeleted {deleted : Snowflake} (htype : event.eventType = "group.deleted")
      (h : payload serde.entityTombstone event = .ok deleted) :
      Projection serde s event { s with
        groups := s.groups.filter fun group => group.id ≠ deleted
        channels := s.channels.filter fun channel => channel.groupId ≠ some deleted }
  | channelSet {channel : Channel}
      (htype : event.eventType ∈ ["channel.created", "channel.updated"])
      (h : payload serde.channel event = .ok channel) :
      Projection serde s event { s with channels := upsertById s.channels channel Channel.id }
  | channelDeleted {deleted : Snowflake} (htype : event.eventType = "channel.deleted")
      (h : payload serde.entityTombstone event = .ok deleted) :
      Projection serde s event { s with
        channels := s.channels.filter fun channel => channel.id ≠ deleted
        voiceMemberships := s.voiceMemberships.filter fun membership =>
          membership.channelId ≠ deleted
        selfUser := { s.selfUser with
          voiceAuthority := s.selfUser.voiceAuthority.filter fun authority =>
            authority.channelId ≠ deleted } }
  | memberJoined {membership : VoiceMembership}
      (htype : event.eventType = "channel.member.joined")
      (h : payload serde.membershipEnvelope event = .ok membership) :
      Projection serde s event { s with
        voiceMemberships := upsertMembership s.voiceMemberships membership }
  | memberLeft {left : MembershipTombstone} (htype : event.eventType = "channel.member.left")
      (h : payload serde.membershipTombstone event = .ok left) :
      Projection serde s event { s with
        voiceMemberships := s.voiceMemberships.filter fun membership =>
          membership.userId ≠ left.userId ∨ membership.channelId ≠ left.channelId }
  | userSet {user : UserPresence}
      (htype : event.eventType ∈ ["user.created", "user.updated", "presence.updated"])
      (h : payload serde.userEnvelope event = .ok user) :
      Projection serde s event { s with users := upsertUser s.users user }
  | userDeleted {deleted : Snowflake} (htype : event.eventType = "user.deleted")
      (h : payload serde.userTombstone event = .ok deleted) :
      Projection serde s event { s with
        users := s.users.filter fun user => user.userId ≠ deleted }
  | selfUpdated {selfState : SelfUserState} (htype : event.eventType = "self.updated")
      (h : payload serde.selfEnvelope event = .ok selfState) :
      Projection serde s event { s with selfUser := selfState }
  | roleSet {role : Role}
      (htype : event.eventType ∈ ["rbac.role.created", "rbac.role.updated"])
      (h : payload serde.role event = .ok role) :
      Projection serde s event { s with roles := upsertByKey s.roles role Role.key }
  | roleDeleted {deleted : String} (htype : event.eventType = "rbac.role.deleted")
      (h : payload serde.roleTombstone event = .ok deleted) :
      Projection serde s event { s with roles := s.roles.filter fun role => role.key ≠ deleted }
  | authorityUpdated {authority : Option VoiceAuthority}
      (htype : event.eventType = "voice.authority.updated")
      (h : payload serde.authorityEnvelope event = .ok authority) :
      Projection serde s event { s with
        selfUser := { s.selfUser with voiceAuthority := authority } }
  | unchanged (htype : event.eventType ∈ ["voice.revoked", "voice.disconnected",
      "voice.membership.updated", "group.access.updated", "acl.updated",
      "channel.access.updated", "rbac.binding.updated", "rbac.config.updated",
      "owner.transferred", "moderation.mute.updated", "moderation.mute.removed",
      "server.updated"]) : Projection serde s event s

/-- A rule that decodes a payload and then rewrites the state. -/
private theorem payload_rule_ok {T : Type} {x : Except StateApplyError T} {f : T → ClientState}
    {t : ClientState} (h : (x >>= fun v => (pure (f v) : Except StateApplyError ClientState)) =
      .ok t) : ∃ v, x = .ok v ∧ f v = t := by
  cases x with
  | error e => cases h
  | ok v => exact ⟨v, rfl, by simpa [bind, Except.bind, pure, Except.pure] using h⟩

/-- **What a successful projection does.** -/
theorem applyKnownEvent_ok {serde : Serde V} {s t : ClientState} {event : StateEvent V}
    (h : applyKnownEvent serde s event = .ok t) : Projection serde s event t := by
  unfold applyKnownEvent at h
  split at h
  case h_1 htype | h_2 htype =>
    obtain ⟨group, hdata, rfl⟩ := payload_rule_ok h
    exact .groupSet (by simp [htype]) hdata
  case h_3 htype =>
    obtain ⟨deleted, hdata, rfl⟩ := payload_rule_ok h
    exact .groupDeleted htype hdata
  case h_4 htype | h_5 htype =>
    obtain ⟨channel, hdata, rfl⟩ := payload_rule_ok h
    exact .channelSet (by simp [htype]) hdata
  case h_6 htype =>
    obtain ⟨deleted, hdata, rfl⟩ := payload_rule_ok h
    exact .channelDeleted htype hdata
  case h_7 htype =>
    obtain ⟨membership, hdata, rfl⟩ := payload_rule_ok h
    exact .memberJoined htype hdata
  case h_8 htype =>
    obtain ⟨left, hdata, rfl⟩ := payload_rule_ok h
    exact .memberLeft htype hdata
  case h_9 htype | h_10 htype | h_11 htype =>
    obtain ⟨user, hdata, rfl⟩ := payload_rule_ok h
    exact .userSet (by simp [htype]) hdata
  case h_12 htype =>
    obtain ⟨deleted, hdata, rfl⟩ := payload_rule_ok h
    exact .userDeleted htype hdata
  case h_13 htype =>
    obtain ⟨selfState, hdata, rfl⟩ := payload_rule_ok h
    exact .selfUpdated htype hdata
  case h_14 htype | h_15 htype =>
    obtain ⟨role, hdata, rfl⟩ := payload_rule_ok h
    exact .roleSet (by simp [htype]) hdata
  case h_16 htype =>
    obtain ⟨deleted, hdata, rfl⟩ := payload_rule_ok h
    exact .roleDeleted htype hdata
  case h_17 htype =>
    obtain ⟨authority, hdata, rfl⟩ := payload_rule_ok h
    exact .authorityUpdated htype hdata
  case h_30 =>
    split at h <;> cases h
  all_goals
    rename_i htype
    cases h
    exact .unchanged (by simp [htype])

/-- Every payload error names the event type it decodes. -/
private theorem payload_rule_error {T : Type} {decode : V → Except String T}
    {event : StateEvent V} {f : T → ClientState} {e : StateApplyError}
    (h : (payload decode event >>= fun v =>
      (pure (f v) : Except StateApplyError ClientState)) = .error e) :
    ∃ message, e = .invalidPayload event.eventType message := by
  unfold payload at h
  cases hd : decode event.data with
  | error message =>
      simp only [hd, bind, Except.bind, Except.error.injEq] at h
      exact ⟨message, h.symm⟩
  | ok v => simp [hd, bind, Except.bind, pure, Except.pure] at h

/-! ## The tables agree -/

/-- A visibility transition has no projection rule of its own, and is known. -/
theorem isKnownStateEvent_of_visibility {eventType : String}
    (h : isVisibilityStateEvent eventType = true) : isKnownStateEvent eventType = true := by
  unfold isVisibilityStateEvent isVisibilityScopeEvent at h
  split at h
  case h_6 =>
    have htype : eventType = "visibility.transition.complete" := by simpa using h
    rw [htype]
    rfl
  all_goals rfl

/-- A type with a prescribed scope is known. -/
theorem isKnownStateEvent_of_expectedScopeKind {eventType kind : String}
    (h : expectedScopeKind eventType = some kind) : isKnownStateEvent eventType = true := by
  unfold expectedScopeKind at h
  split at h
  all_goals first | rfl | cases h

/-- **The errors of the projection rules**: a payload that does not decode, a
visibility transition, or a type outside the table of known types. -/
theorem applyKnownEvent_error {serde : Serde V} {s : ClientState} {event : StateEvent V}
    {e : StateApplyError} (h : applyKnownEvent serde s event = .error e) :
    (∃ message, e = .invalidPayload event.eventType message) ∨
      (e = .snapshotRequired event.eventType ∧
        isVisibilityStateEvent event.eventType = true) ∨
      (e = .unknownEvent event.eventType ∧ isKnownStateEvent event.eventType = false) := by
  unfold applyKnownEvent at h
  split at h
  case h_30 =>
    split at h
    case isTrue hvis =>
      cases h
      exact .inr (.inl ⟨rfl, hvis⟩)
    case isFalse hvis =>
      cases h
      refine .inr (.inr ⟨rfl, ?_⟩)
      unfold isKnownStateEvent
      split
      -- a known type has a rule, or is a visibility transition
      all_goals first
        | contradiction
        | rfl
        | (rename_i htype; rw [htype] at hvis; exact absurd rfl hvis)
  all_goals first
    | exact .inl (payload_rule_error h)
    | cases h

/-- **There is a rule for exactly the known types.** -/
theorem applyKnownEvent_unknown_iff (serde : Serde V) (s : ClientState) (event : StateEvent V) :
    (∃ eventType, applyKnownEvent serde s event = .error (.unknownEvent eventType)) ↔
      isKnownStateEvent event.eventType = false := by
  constructor
  · rintro ⟨eventType, h⟩
    rcases applyKnownEvent_error h with ⟨message, he⟩ | ⟨he, -⟩ | ⟨-, hunknown⟩
    · cases he
    · cases he
    · exact hunknown
  · intro h
    refine ⟨event.eventType, ?_⟩
    have hvis : isVisibilityStateEvent event.eventType = false := by
      by_contra hvis
      rw [isKnownStateEvent_of_visibility (by simpa using hvis)] at h
      cases h
    unfold isKnownStateEvent at h
    unfold applyKnownEvent
    split at h <;> simp_all

/-- An accepted event is of a known type. -/
theorem isKnownStateEvent_of_validateEvent {event : StateEvent V} {state : ClientState}
    (h : validateEvent event state = .ok ()) : isKnownStateEvent event.eventType = true := by
  by_contra hunknown
  have hcond : (!isKnownStateEvent event.eventType) = true := by simpa using hunknown
  unfold validateEvent at h
  rw [if_pos hcond] at h
  split at h
  · cases h
  · split at h
    · cases h
    · split at h <;> cases h

/-- **An accepted event fails only for its payload or for a visibility transition.** -/
theorem applyKnownEvent_error_of_validateEvent {serde : Serde V} {state : ClientState}
    {event : StateEvent V} {e : StateApplyError} (hvalid : validateEvent event state = .ok ())
    (h : applyKnownEvent serde state event = .error e) :
    (∃ message, e = .invalidPayload event.eventType message) ∨
      (e = .snapshotRequired event.eventType ∧
        isVisibilityStateEvent event.eventType = true) := by
  rcases applyKnownEvent_error h with hpayload | hvis | ⟨-, hunknown⟩
  · exact .inl hpayload
  · exact .inr hvis
  · rw [isKnownStateEvent_of_validateEvent hvalid] at hunknown
    cases hunknown

/-! ## What an event may change -/

/-- The parts of a projection that some event type may change. -/
inductive StateField
  | groups
  | channels
  | voiceMemberships
  | users
  | roles
  | selfUser
  | voiceAuthority
  deriving DecidableEq, Repr

/-- The parts each event type may change. -/
def mayChange : String → List StateField
  | "group.created" | "group.updated" | "group.deleted" => [.groups, .channels]
  | "channel.created" | "channel.updated" | "channel.deleted" =>
      [.channels, .voiceMemberships, .voiceAuthority]
  | "channel.member.joined" | "channel.member.left" => [.voiceMemberships]
  | "user.created" | "user.updated" | "user.deleted" | "presence.updated" => [.users]
  | "self.updated" => [.selfUser]
  | "rbac.role.created" | "rbac.role.updated" | "rbac.role.deleted" => [.roles]
  | "voice.authority.updated" => [.voiceAuthority]
  | _ => []

/-- The states `s` and `t` agree on everything but `fields` and the position in
the stream. -/
structure AgreeOutside (fields : List StateField) (s t : ClientState) : Prop where
  streamEpoch : t.streamEpoch = s.streamEpoch
  stateVersion : t.stateVersion = s.stateVersion
  server : t.server = s.server
  groups : .groups ∉ fields → t.groups = s.groups
  channels : .channels ∉ fields → t.channels = s.channels
  voiceMemberships : .voiceMemberships ∉ fields → t.voiceMemberships = s.voiceMemberships
  users : .users ∉ fields → t.users = s.users
  roles : .roles ∉ fields → t.roles = s.roles
  /-- Only the authority of the current user may change without the whole. -/
  selfUser : .selfUser ∉ fields →
    t.selfUser = { s.selfUser with voiceAuthority := t.selfUser.voiceAuthority }
  voiceAuthority : .selfUser ∉ fields → .voiceAuthority ∉ fields →
    t.selfUser.voiceAuthority = s.selfUser.voiceAuthority

theorem AgreeOutside.refl (fields : List StateField) (s : ClientState) :
    AgreeOutside fields s s := by
  constructor <;> intros <;> rfl

theorem AgreeOutside.reposition {fields : List StateField} {s t : ClientState}
    (h : AgreeOutside fields s t) (c : Cursor) (n : Geid) :
    AgreeOutside fields s (t.reposition c n) :=
  ⟨h.1, h.2, h.3, h.4, h.5, h.6, h.7, h.8, h.9, h.10⟩

/-- **Each rule changes only what its event type may change.** -/
theorem Projection.agreeOutside {serde : Serde V} {s t : ClientState} {event : StateEvent V}
    (h : Projection serde s event t) : AgreeOutside (mayChange event.eventType) s t := by
  cases h with
  | groupSet htype =>
      have hfields : mayChange event.eventType = [.groups, .channels] := by
        simp only [List.mem_cons, List.not_mem_nil, or_false] at htype
        rcases htype with htype | htype <;> rw [htype] <;> rfl
      rw [hfields]
      constructor <;> simp
  | groupDeleted htype =>
      have hfields : mayChange event.eventType = [.groups, .channels] := by rw [htype]; rfl
      rw [hfields]
      constructor <;> simp
  | channelSet htype =>
      have hfields : mayChange event.eventType =
          [.channels, .voiceMemberships, .voiceAuthority] := by
        simp only [List.mem_cons, List.not_mem_nil, or_false] at htype
        rcases htype with htype | htype <;> rw [htype] <;> rfl
      rw [hfields]
      constructor <;> simp
  | channelDeleted htype =>
      have hfields : mayChange event.eventType =
          [.channels, .voiceMemberships, .voiceAuthority] := by rw [htype]; rfl
      rw [hfields]
      constructor <;> simp
  | memberJoined htype | memberLeft htype =>
      have hfields : mayChange event.eventType = [.voiceMemberships] := by rw [htype]; rfl
      rw [hfields]
      constructor <;> simp
  | userSet htype =>
      have hfields : mayChange event.eventType = [.users] := by
        simp only [List.mem_cons, List.not_mem_nil, or_false] at htype
        rcases htype with htype | htype | htype <;> rw [htype] <;> rfl
      rw [hfields]
      constructor <;> simp
  | userDeleted htype =>
      have hfields : mayChange event.eventType = [.users] := by rw [htype]; rfl
      rw [hfields]
      constructor <;> simp
  | selfUpdated htype =>
      have hfields : mayChange event.eventType = [.selfUser] := by rw [htype]; rfl
      rw [hfields]
      constructor <;> simp
  | roleSet htype =>
      have hfields : mayChange event.eventType = [.roles] := by
        simp only [List.mem_cons, List.not_mem_nil, or_false] at htype
        rcases htype with htype | htype <;> rw [htype] <;> rfl
      rw [hfields]
      constructor <;> simp
  | roleDeleted htype =>
      have hfields : mayChange event.eventType = [.roles] := by rw [htype]; rfl
      rw [hfields]
      constructor <;> simp
  | authorityUpdated htype =>
      have hfields : mayChange event.eventType = [.voiceAuthority] := by rw [htype]; rfl
      rw [hfields]
      constructor <;> simp
  | unchanged htype => exact AgreeOutside.refl _ s

/-- The outcome of a successful application of `event` to `store`, with the
writes it made. -/
structure EventApplied (event : StateEvent V) (store : StateStore V) (after : StoreTrace V) :
    Prop where
  /-- The event is strictly after the projection it was applied to. -/
  geid_lt : store.state.geid < event.geid
  geid : after.store.state.geid = event.geid
  cursor : after.store.state.cursor = event.cursor
  agree : AgreeOutside (mayChange event.eventType) store.state after.store.state
  published : after.store.published = after.store.state
  /-- Ordered subscribers get the event once, and nothing else. -/
  events : after.store.events = store.events.send event
  channels : after.store.replaced = store.replaced ∧ after.store.generation = store.generation
  /-- The state is installed and published before the event is sent. -/
  writes : after.writes = [.install after.store.state, .publish after.store.state,
    .broadcast event]

/-- **An event is applied completely or not at all**, and the tables agree: there
is a rule for exactly the known types, and an accepted event fails only for its
payload or because its type asks for a snapshot. -/
theorem applyEventM_all_or_nothing (serde : Serde V) (event : StateEvent V) :
    (∀ (store : StateStore V) (e : StateApplyError),
      ((applyEventM serde event).start store).1 = .error e →
        ((applyEventM serde event).start store).2 = ⟨store, []⟩) ∧
    (∀ store : StateStore V, ((applyEventM serde event).start store).1 = .ok () →
      EventApplied event store ((applyEventM serde event).start store).2) ∧
    (∀ state : ClientState,
      (∃ eventType, applyKnownEvent serde state event = .error (.unknownEvent eventType)) ↔
        isKnownStateEvent event.eventType = false) ∧
    (∀ (state : ClientState) (e : StateApplyError), validateEvent event state = .ok () →
      applyKnownEvent serde state event = .error e →
        (∃ message, e = .invalidPayload event.eventType message) ∨
          (e = .snapshotRequired event.eventType ∧
            isVisibilityStateEvent event.eventType = true)) := by
  refine ⟨?_, ?_, fun state => applyKnownEvent_unknown_iff serde state event,
    fun state e hvalid => applyKnownEvent_error_of_validateEvent hvalid⟩
  · intro store e h
    rw [start_applyEventM_of_error ((start_applyEventM serde store event).1 e h)]
  · intro store h
    have hs := (start_applyEventM serde store event).2 h
    obtain ⟨hproject, hpublished, hevents, hreplaced, hgeneration⟩ := StateStore.applyEvent_ok hs
    obtain ⟨hlt, next, hnext, heq⟩ := StateStore.project_ok hproject
    exact {
      geid_lt := hlt
      geid := by simp [heq]
      cursor := by simp [heq]
      agree := heq ▸ (applyKnownEvent_ok hnext).agreeOutside.reposition _ _
      published := hpublished
      events := hevents
      channels := ⟨hreplaced, hgeneration⟩
      writes := by rw [start_applyEventM_of_ok hs] }

/-- On an empty projection at GEID 0, a server event at GEID 1 is applied and one at
GEID 0 is refused. -/
theorem applyEventM_all_or_nothing_sample :
    (∃ after, (applyEventM authorityPayloads (sampleEvent "server.updated" 1 none)).start
        (.fromSnapshot (sampleSnapshot 0 none)) = (.ok (), after) ∧
      EventApplied (sampleEvent "server.updated" 1 none) (.fromSnapshot (sampleSnapshot 0 none))
        after) ∧
    (applyEventM authorityPayloads (sampleEvent "server.updated" 0 none)).start
      (.fromSnapshot (sampleSnapshot 0 none)) =
        (.error (.geidOrder 0 0), ⟨.fromSnapshot (sampleSnapshot 0 none), []⟩) := by
  refine ⟨⟨_, rfl, ?_⟩, ?_⟩
  · exact (applyEventM_all_or_nothing authorityPayloads
      (sampleEvent "server.updated" 1 none)).2.1 _ rfl
  · refine Prod.ext rfl ?_
    exact (applyEventM_all_or_nothing authorityPayloads
      (sampleEvent "server.updated" 0 none)).1 _ _ rfl

end ZephyrVox.Realtime
