import ZephyrVox.Lib.Keyed
import ZephyrVox.Realtime.Application

/-!
# Invariants of the projected tables

Two invariants of the projection over the events a store applies. The keys of
every table stay distinct, whatever the events are. References from voice state
to channels are kept by the deletion of a channel, but the deletion of a group
removes the channels of the group without the voice state that refers to them.

## Main definitions

* `applyEvents` — the store after a sequence of events, applied or refused.
* `KeysUnique` — the keys of every table are distinct.
* `Upserts` — what each successful upsert event leaves in its table.
* `VoiceListed`, `Undangling` — voice state names listed channels only.
-/

namespace ZephyrVox.Realtime

variable {V : Type}

/-- The store after the events, each applied or refused. -/
def applyEvents (serde : Serde V) (store : StateStore V) (events : List (StateEvent V)) :
    StateStore V :=
  events.foldl (fun store event => ((applyEventM serde event).start store).2.store) store

/-- The result of applying one more event. -/
def applyResult (serde : Serde V) (store : StateStore V) (event : StateEvent V) :
    Except StateApplyError Unit :=
  ((applyEventM serde event).start store).1

@[simp] theorem applyEvents_nil (serde : Serde V) (store : StateStore V) :
    applyEvents serde store [] = store := rfl

theorem applyEvents_concat (serde : Serde V) (store : StateStore V)
    (events : List (StateEvent V)) (event : StateEvent V) :
    applyEvents serde store (events ++ [event]) =
      ((applyEventM serde event).start (applyEvents serde store events)).2.store := by
  simp [applyEvents, List.foldl_append]

/-- A refused event leaves the store as it was. -/
theorem store_applyEventM_of_error {serde : Serde V} {store : StateStore V}
    {event : StateEvent V} {e : StateApplyError} (h : applyResult serde store event = .error e) :
    ((applyEventM serde event).start store).2.store = store := by
  rw [start_applyEventM_of_error ((start_applyEventM serde store event).1 e h)]

/-- An applied event is projected by the rule of its type. -/
theorem projection_of_applyEventM {serde : Serde V} {store : StateStore V}
    {event : StateEvent V} (h : applyResult serde store event = .ok ()) :
    ∃ next, Projection serde store.state event next ∧
      ((applyEventM serde event).start store).2.store.state =
        next.reposition event.cursor event.geid := by
  have hs := (start_applyEventM serde store event).2 h
  obtain ⟨-, next, hnext, heq⟩ := StateStore.project_ok (StateStore.applyEvent_ok hs).1
  exact ⟨next, applyKnownEvent_ok hnext, heq⟩

/-- **A property of projections that every rule keeps holds after any events.** -/
theorem applyEvents_invariant {serde : Serde V} {P : ClientState → Prop}
    (hrule : ∀ s event t, P s → Projection serde s event t → P (t.reposition event.cursor
      event.geid)) {store : StateStore V} (h : P store.state) (events : List (StateEvent V)) :
    P (applyEvents serde store events).state := by
  induction events using List.reverseRecOn with
  | nil => exact h
  | append_singleton events event ih =>
      rw [applyEvents_concat]
      cases hresult : applyResult serde (applyEvents serde store events) event with
      | error e => rwa [store_applyEventM_of_error hresult]
      | ok _ =>
          obtain ⟨next, hnext, heq⟩ := projection_of_applyEventM hresult
          rw [heq]
          exact hrule _ event next ih hnext

/-! ## Keys -/

/-- **An upsert sets the one entry with its key.** -/
theorem upserted_upsertById {T I : Type} [DecidableEq I] {key : T → I} {items : List T}
    (h : Keyed.Unique key items) (item : T) :
    Keyed.Upserted key items (upsertById items item key) item := by
  induction items with
  | nil => exact Keyed.upserted_nil
  | cons existing rest ih =>
      obtain ⟨hfresh, hrest⟩ := Keyed.unique_cons.mp h
      unfold upsertById
      by_cases hkey : key existing = key item
      · rw [if_pos hkey]
        exact Keyed.upserted_head hkey fun y hy => hkey ▸ hfresh y hy
      · rw [if_neg hkey]
        exact (ih hrest).cons hkey

/-- The keys of every table are distinct; a user has at most one voice membership. -/
structure KeysUnique (s : ClientState) : Prop where
  users : Keyed.Unique UserPresence.userId s.users
  roles : Keyed.Unique Role.key s.roles
  groups : Keyed.Unique Group.id s.groups
  channels : Keyed.Unique Channel.id s.channels
  voiceMemberships : Keyed.Unique VoiceMembership.userId s.voiceMemberships

theorem KeysUnique.reposition {s : ClientState} (h : KeysUnique s) (c : Cursor) (n : Geid) :
    KeysUnique (s.reposition c n) :=
  ⟨h.users, h.roles, h.groups, h.channels, h.voiceMemberships⟩

/-- **Every rule keeps the keys distinct.** -/
theorem Projection.keysUnique {serde : Serde V} {s t : ClientState} {event : StateEvent V}
    (h : Projection serde s event t) (hs : KeysUnique s) : KeysUnique t := by
  cases h with
  | groupSet => exact { hs with groups := (upserted_upsertById hs.groups _).unique hs.groups }
  | groupDeleted =>
      exact { hs with groups := hs.groups.filter _, channels := hs.channels.filter _ }
  | channelSet =>
      exact { hs with channels := (upserted_upsertById hs.channels _).unique hs.channels }
  | channelDeleted =>
      exact { hs with
        channels := hs.channels.filter _
        voiceMemberships := hs.voiceMemberships.filter _ }
  | memberJoined =>
      exact { hs with
        voiceMemberships :=
          (upserted_upsertById hs.voiceMemberships _).unique hs.voiceMemberships }
  | memberLeft => exact { hs with voiceMemberships := hs.voiceMemberships.filter _ }
  | userSet => exact { hs with users := (upserted_upsertById hs.users _).unique hs.users }
  | userDeleted => exact { hs with users := hs.users.filter _ }
  | selfUpdated => exact { hs with }
  | roleSet => exact { hs with roles := (upserted_upsertById hs.roles _).unique hs.roles }
  | roleDeleted => exact { hs with roles := hs.roles.filter _ }
  | authorityUpdated => exact { hs with }
  | unchanged => exact hs

/-- What an upsert event that was applied leaves in its table: its payload, once,
and every entry with another key as it was. -/
structure Upserts (serde : Serde V) (event : StateEvent V) (s t : ClientState) : Prop where
  groups : event.eventType ∈ ["group.created", "group.updated"] →
    ∃ group, serde.group event.data = .ok group ∧
      Keyed.Upserted Group.id s.groups t.groups group
  channels : event.eventType ∈ ["channel.created", "channel.updated"] →
    ∃ channel, serde.channel event.data = .ok channel ∧
      Keyed.Upserted Channel.id s.channels t.channels channel
  voiceMemberships : event.eventType ∈ ["channel.member.joined"] →
    ∃ membership, serde.membershipEnvelope event.data = .ok membership ∧
      Keyed.Upserted VoiceMembership.userId s.voiceMemberships t.voiceMemberships membership
  users : event.eventType ∈ ["user.created", "user.updated", "presence.updated"] →
    ∃ user, serde.userEnvelope event.data = .ok user ∧
      Keyed.Upserted UserPresence.userId s.users t.users user
  roles : event.eventType ∈ ["rbac.role.created", "rbac.role.updated"] →
    ∃ role, serde.role event.data = .ok role ∧ Keyed.Upserted Role.key s.roles t.roles role

/-- A decoded payload is what serde read. -/
theorem decode_of_payload {T : Type} {decode : V → Except String T} {event : StateEvent V}
    {v : T} (h : payload decode event = .ok v) : decode event.data = .ok v := by
  unfold payload at h
  cases hd : decode event.data with
  | error message => simp [hd] at h
  | ok w => simpa [hd] using h

/-- An event type of one list of types is in no other list. -/
private theorem type_absurd {eventType : String} {types others : List String} {P : Prop}
    (h : eventType ∈ types) (ho : eventType ∈ others)
    (hdisjoint : types.all (fun t => t ∉ others) = true) : P :=
  absurd ho (by simpa using List.all_eq_true.mp hdisjoint eventType h)

/-- **What each rule leaves in its table.** -/
theorem Projection.upserts {serde : Serde V} {s t : ClientState} {event : StateEvent V}
    (h : Projection serde s event t) (hs : KeysUnique s) : Upserts serde event s t := by
  cases h with
  | groupSet htype hdata =>
      constructor
      case groups => exact fun _ => ⟨_, decode_of_payload hdata, upserted_upsertById hs.groups _⟩
      all_goals exact fun h => type_absurd htype h (by decide)
  | channelSet htype hdata =>
      constructor
      case channels =>
        exact fun _ => ⟨_, decode_of_payload hdata, upserted_upsertById hs.channels _⟩
      all_goals exact fun h => type_absurd htype h (by decide)
  | memberJoined htype hdata =>
      constructor
      case voiceMemberships =>
        exact fun _ => ⟨_, decode_of_payload hdata, upserted_upsertById hs.voiceMemberships _⟩
      all_goals exact fun h => type_absurd (List.mem_singleton.mpr htype) h (by decide)
  | userSet htype hdata =>
      constructor
      case users => exact fun _ => ⟨_, decode_of_payload hdata, upserted_upsertById hs.users _⟩
      all_goals exact fun h => type_absurd htype h (by decide)
  | roleSet htype hdata =>
      constructor
      case roles => exact fun _ => ⟨_, decode_of_payload hdata, upserted_upsertById hs.roles _⟩
      all_goals exact fun h => type_absurd htype h (by decide)
  | groupDeleted htype | channelDeleted htype | memberLeft htype | userDeleted htype
  | selfUpdated htype | roleDeleted htype | authorityUpdated htype =>
      constructor
      all_goals exact fun h => type_absurd (List.mem_singleton.mpr htype) h (by decide)
  | unchanged htype =>
      constructor
      all_goals exact fun h => type_absurd htype h (by decide)

theorem Upserts.reposition {serde : Serde V} {event : StateEvent V} {s t : ClientState}
    (h : Upserts serde event s t) (c : Cursor) (n : Geid) :
    Upserts serde event s (t.reposition c n) :=
  ⟨h.groups, h.channels, h.voiceMemberships, h.users, h.roles⟩

/-- **Projection keys stay unique**: after any events on a snapshot with distinct
keys the keys are distinct, and a further upsert event that is applied leaves its
payload as the one entry with its key and every other entry as it was. -/
theorem applyEvents_keysUnique (serde : Serde V) (snapshot : StateSnapshot)
    (hkeys : KeysUnique (ClientState.fromSnapshot snapshot)) (events : List (StateEvent V)) :
    KeysUnique (applyEvents serde (.fromSnapshot snapshot) events).state ∧
    ∀ event, applyResult serde (applyEvents serde (.fromSnapshot snapshot) events) event =
        .ok () →
      Upserts serde event (applyEvents serde (.fromSnapshot snapshot) events).state
        (applyEvents serde (.fromSnapshot snapshot) (events ++ [event])).state := by
  have hunique : KeysUnique (applyEvents serde (.fromSnapshot snapshot) events).state :=
    applyEvents_invariant (fun s event t hs hrule => (hrule.keysUnique hs).reposition _ _)
      hkeys events
  refine ⟨hunique, ?_⟩
  intro event hresult
  obtain ⟨next, hnext, heq⟩ := projection_of_applyEventM hresult
  rw [applyEvents_concat, heq]
  exact (hnext.upserts hunique).reposition _ _

/-! ## Sample tables -/

/-- Payloads of the sample events: a channel, or the identifier of a tombstone. -/
def samplePayloads : Serde (Channel ⊕ Snowflake) where
  group _ := .error "missing field `name`"
  channel
    | .inl channel => .ok channel
    | .inr _ => .error "missing field `name`"
  entityTombstone
    | .inl _ => .error "missing field `entity_id`"
    | .inr id => .ok id
  membershipEnvelope _ := .error "missing field `membership`"
  membershipTombstone _ := .error "missing field `user_id`"
  userEnvelope _ := .error "missing field `user`"
  userTombstone _ := .error "missing field `user_id`"
  selfEnvelope _ := .error "missing field `self`"
  role _ := .error "missing field `key`"
  roleTombstone _ := .error "missing field `role_key`"
  authorityEnvelope _ := .error "missing field `authority`"
  encodedLength _ := some 256

/-- The identifiers of the sample user, group and channel. -/
def sampleUserId : Snowflake := (sampleState 0 none).selfUser.user.id
def sampleGroupId : Snowflake := ⟨7, by decide, by decide⟩
def sampleChannelId : Snowflake := ⟨8, by decide, by decide⟩

/-- A voice channel in the sample group. -/
def sampleVoiceChannel (name : String) : Channel where
  id := sampleChannelId
  groupId := some sampleGroupId
  name := name
  mode := "voice"
  temporary := false
  visibility := "public"
  capacity := 0
  position := 0
  pinned := false
  version := "1"

/-- A snapshot in which the sample user is in the sample channel. -/
def sampleTables : StateSnapshot :=
  let snapshot := sampleSnapshot 0 none
  { snapshot with
    state := { snapshot.state with
      groups := [⟨sampleGroupId, "group", 0, "public", "1"⟩]
      channels := [sampleVoiceChannel "channel"]
      voiceMemberships := [⟨sampleUserId, sampleChannelId, 0⟩] } }

/-- An event in the scope of one resource. -/
def scopedEvent {V : Type} (kind : String) (id : Snowflake) (eventType : String) (geid : Geid)
    (data : V) : StateEvent V :=
  { sampleEvent eventType geid data with scope := ⟨kind, some id⟩ }

/-- Renaming the sample channel twice keeps it the one channel of the table. -/
theorem applyEvents_keysUnique_sample :
    let renamed := scopedEvent "channel" sampleChannelId "channel.updated"
    Upserts samplePayloads (renamed 2 (.inl (sampleVoiceChannel "second")))
      (applyEvents samplePayloads (.fromSnapshot sampleTables)
        [renamed 1 (.inl (sampleVoiceChannel "first"))]).state
      (applyEvents samplePayloads (.fromSnapshot sampleTables)
        [renamed 1 (.inl (sampleVoiceChannel "first")),
          renamed 2 (.inl (sampleVoiceChannel "second"))]).state := by
  intro renamed
  refine (applyEvents_keysUnique samplePayloads sampleTables ?_
    [renamed 1 (.inl (sampleVoiceChannel "first"))]).2 _ rfl
  constructor <;> simp [Keyed.Unique, ClientState.fromSnapshot, sampleTables, sampleSnapshot]

/-! ## Voice references -/

/-- Voice state refers to a channel: a membership, or the authority of the current
user. -/
def VoiceRefers (s : ClientState) (channelId : Snowflake) : Prop :=
  (∃ membership ∈ s.voiceMemberships, membership.channelId = channelId) ∨
    ∃ authority ∈ s.selfUser.voiceAuthority, authority.channelId = channelId

/-- Every channel that voice state refers to is present. -/
def VoiceListed (s : ClientState) : Prop :=
  ∀ channelId, VoiceRefers s channelId → ∃ channel ∈ s.channels, channel.id = channelId

/-- The step from `s` to `t` leaves no dangling voice state: every channel that
voice state refers to is present, and none that the step removed is referred to. -/
def Undangling (s t : ClientState) : Prop :=
  VoiceListed t ∧ ∀ channel ∈ s.channels, channel ∉ t.channels → ¬ VoiceRefers t channel.id

/-- A group deletion hits no channel that voice state refers to. -/
def GroupUnused (serde : Serde V) (s : ClientState) (event : StateEvent V) : Prop :=
  event.eventType = "group.deleted" →
    ∀ deleted, serde.entityTombstone event.data = .ok deleted →
      ∀ channel ∈ s.channels, channel.groupId = some deleted → ¬ VoiceRefers s channel.id

/-- The projection after the deletion of a channel. -/
def withoutChannel (s : ClientState) (deleted : Snowflake) : ClientState :=
  { s with
    channels := s.channels.filter fun channel => channel.id ≠ deleted
    voiceMemberships := s.voiceMemberships.filter fun membership => membership.channelId ≠ deleted
    selfUser := { s.selfUser with
      voiceAuthority := s.selfUser.voiceAuthority.filter fun authority =>
        authority.channelId ≠ deleted } }

/-- The projection after the deletion of a group. -/
def withoutGroup (s : ClientState) (deleted : Snowflake) : ClientState :=
  { s with
    groups := s.groups.filter fun group => group.id ≠ deleted
    channels := s.channels.filter fun channel => channel.groupId ≠ some deleted }

/-- The voice state of a deleted channel is deleted with it. -/
theorem voiceRefers_withoutChannel {s : ClientState} {deleted channelId : Snowflake}
    (h : VoiceRefers (withoutChannel s deleted) channelId) :
    VoiceRefers s channelId ∧ channelId ≠ deleted := by
  rcases h with ⟨membership, hmem, rfl⟩ | ⟨authority, hauth, rfl⟩
  · obtain ⟨hmem, hne⟩ := List.mem_filter.mp hmem
    exact ⟨.inl ⟨membership, hmem, rfl⟩, by simpa using hne⟩
  · obtain ⟨hauth, hne⟩ := Option.mem_filter_iff.mp hauth
    exact ⟨.inr ⟨authority, hauth, rfl⟩, by simpa using hne⟩

/-- The deletion of a channel leaves no dangling voice state. -/
theorem undangling_withoutChannel {s : ClientState} (hs : VoiceListed s) (deleted : Snowflake) :
    Undangling s (withoutChannel s deleted) := by
  constructor
  · intro channelId h
    obtain ⟨hold, hne⟩ := voiceRefers_withoutChannel h
    obtain ⟨channel, hmem, hid⟩ := hs channelId hold
    exact ⟨channel, List.mem_filter.mpr ⟨hmem, by simpa [hid] using hne⟩, hid⟩
  · intro channel hmem hremoved h
    obtain ⟨-, hne⟩ := voiceRefers_withoutChannel h
    exact hremoved (List.mem_filter.mpr ⟨hmem, by simpa using hne⟩)

/-- The deletion of a group removes its channels only, so voice state dangles
exactly when it refers to one of them. -/
theorem undangling_withoutGroup_iff {s : ClientState} (hs : VoiceListed s)
    (deleted : Snowflake) : Undangling s (withoutGroup s deleted) ↔
      ∀ channel ∈ s.channels, channel.groupId = some deleted → ¬ VoiceRefers s channel.id := by
  constructor
  · intro h channel hmem hgroup
    exact h.2 channel hmem fun hkept => by simpa [hgroup] using (List.mem_filter.mp hkept).2
  · intro h
    constructor
    · intro channelId hrefers
      obtain ⟨channel, hmem, hid⟩ := hs channelId hrefers
      refine ⟨channel, List.mem_filter.mpr ⟨hmem, ?_⟩, hid⟩
      have hgroup : channel.groupId ≠ some deleted := fun hgroup =>
        h channel hmem hgroup (hid ▸ hrefers)
      simpa using hgroup
    · intro channel hmem hremoved
      have hgroup : channel.groupId = some deleted := by
        by_contra hgroup
        exact hremoved (List.mem_filter.mpr ⟨hmem, by simpa using hgroup⟩)
      exact h channel hmem hgroup

theorem undangling_reposition_iff {s t : ClientState} {c : Cursor} {n : Geid} :
    Undangling s (t.reposition c n) ↔ Undangling s t := Iff.rfl

/-- **Exactly when a deletion leaves no dangling voice state**: the deletion of a
channel always, the deletion of a group if no voice state refers to one of its
channels. -/
theorem deletion_undangling_iff (serde : Serde V) (store : StateStore V) (event : StateEvent V)
    (hlisted : VoiceListed store.state)
    (htype : event.eventType ∈ ["channel.deleted", "group.deleted"])
    (happlied : applyResult serde store event = .ok ()) :
    Undangling store.state ((applyEventM serde event).start store).2.store.state ↔
      GroupUnused serde store.state event := by
  obtain ⟨next, hnext, heq⟩ := projection_of_applyEventM happlied
  rw [heq, undangling_reposition_iff]
  cases hnext with
  | channelDeleted hdeleted hdata =>
      refine iff_of_true (undangling_withoutChannel hlisted _) fun hgroup => ?_
      rw [hdeleted] at hgroup
      simp at hgroup
  | groupDeleted hdeleted hdata =>
      refine (undangling_withoutGroup_iff hlisted _).trans ?_
      constructor
      · intro h _ deleted hd
        rw [decode_of_payload hdata] at hd
        cases hd
        exact h
      · intro h
        exact h hdeleted _ (decode_of_payload hdata)
  | groupSet h | channelSet h | userSet h | roleSet h | unchanged h =>
      exact type_absurd h htype (by decide)
  | memberJoined h | memberLeft h | userDeleted h | selfUpdated h | roleDeleted h
  | authorityUpdated h => exact type_absurd (List.mem_singleton.mpr h) htype (by decide)

/-- The one membership of the sample tables refers to their one channel. -/
theorem voiceListed_sampleTables : VoiceListed (ClientState.fromSnapshot sampleTables) := by
  rintro channelId (⟨membership, hmem, rfl⟩ | ⟨authority, hauth, rfl⟩)
  · have hm : membership = ⟨sampleUserId, sampleChannelId, 0⟩ := by
      simpa [sampleTables, ClientState.fromSnapshot] using hmem
    exact ⟨sampleVoiceChannel "channel", by simp [sampleTables, ClientState.fromSnapshot],
      by rw [hm]; rfl⟩
  · cases hauth

/-- Deleting the sample channel deletes its membership. -/
theorem deletion_undangling_iff_sample :
    Undangling (ClientState.fromSnapshot sampleTables)
      ((applyEventM samplePayloads (scopedEvent "channel" sampleChannelId "channel.deleted" 1
        (.inr sampleChannelId))).start (.fromSnapshot sampleTables)).2.store.state :=
  (deletion_undangling_iff samplePayloads (.fromSnapshot sampleTables) _
    voiceListed_sampleTables (by decide) rfl).mpr fun h => by simp [scopedEvent, sampleEvent] at h

/-- Deleting the sample group keeps a membership of a channel that is gone. -/
theorem groupDeleted_dangles :
    VoiceListed (ClientState.fromSnapshot sampleTables) ∧
    ∃ event : StateEvent (Channel ⊕ Snowflake), event.eventType = "group.deleted" ∧
      applyResult samplePayloads (.fromSnapshot sampleTables) event = .ok () ∧
      ¬ VoiceListed ((applyEventM samplePayloads event).start
        (.fromSnapshot sampleTables)).2.store.state := by
  refine ⟨voiceListed_sampleTables,
    scopedEvent "group" sampleGroupId "group.deleted" 1 (.inr sampleGroupId), rfl, rfl, ?_⟩
  intro h
  obtain ⟨channel, hmem, -⟩ := h sampleChannelId (.inl ⟨⟨sampleUserId, sampleChannelId, 0⟩,
    List.mem_singleton.mpr rfl, rfl⟩)
  cases hmem

end ZephyrVox.Realtime
