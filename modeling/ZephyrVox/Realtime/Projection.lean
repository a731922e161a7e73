import ZephyrVox.Types.State

/-!
# Projection of ordered state events

`validateEvent` checks an event against the projection and the closed event
table; `applyKnownEvent` performs the replace, upsert and delete rules of the
known event types. Payloads are decoded by serde; its decoders are the fields of
`Serde`, and nothing below depends on how they read JSON.

## Main definitions

* `Serde V` — the payload decoders and the encoded size of an event.
* `validateEvent`, `applyKnownEvent` — the two halves of applying an event.
* `upsertById` — replace the first entry with the same key, or append.
* `applyKnownEvent_reposition` — the projection rules neither read nor write the
  cursor and the GEID.
-/

namespace ZephyrVox.Realtime

/-- Errors raised while applying one ordered state event. -/
inductive StateApplyError
  | invalidEnvelope (detail : String)
  | geidOrder (current actual : Geid)
  | geidGap (expected actual : Geid)
  | unknownEvent (eventType : String)
  | snapshotRequired (eventType : String)
  | invalidPayload (eventType message : String)
  | invalidCursor
  deriving DecidableEq, Repr

/-- The text of an application error. -/
def StateApplyError.display : StateApplyError → String
  | .invalidEnvelope detail => "invalid state event envelope: " ++ detail
  | .geidOrder current actual =>
      "state GEID " ++ toString actual ++ " is not after current GEID " ++ toString current
  | .geidGap expected actual =>
      "state stream GEID gap: expected " ++ toString expected ++ ", got " ++ toString actual
  | .unknownEvent eventType => "unknown state event type: " ++ eventType
  | .snapshotRequired eventType => "state event requires a full snapshot: " ++ eventType
  | .invalidPayload eventType message =>
      "invalid payload for state event " ++ eventType ++ ": " ++ message
  | .invalidCursor => "state event cursor is invalid"

/-- The payload of `channel.member.left`. -/
structure MembershipTombstone where
  userId : Snowflake
  channelId : Snowflake
  deriving DecidableEq, Repr

/-- The serde functions the client calls: one decoder for each payload type, and
the length of the JSON text of a whole event (`none` when encoding fails).
The decoders of the one-field envelopes return the field. -/
structure Serde (V : Type) where
  group : V → Except String Group
  channel : V → Except String Channel
  entityTombstone : V → Except String Snowflake
  membershipEnvelope : V → Except String VoiceMembership
  membershipTombstone : V → Except String MembershipTombstone
  userEnvelope : V → Except String UserPresence
  userTombstone : V → Except String Snowflake
  selfEnvelope : V → Except String SelfUserState
  role : V → Except String Role
  roleTombstone : V → Except String String
  authorityEnvelope : V → Except String (Option VoiceAuthority)
  encodedLength : StateEvent V → Option ℕ

/-! ## The event tables -/

/-- The closed list of event types with a projection rule. -/
def isKnownStateEvent : String → Bool
  | "group.created" | "group.updated" | "group.deleted" | "group.access.updated"
  | "acl.updated" | "channel.created" | "channel.updated" | "channel.deleted"
  | "channel.access.updated" | "channel.member.joined" | "channel.member.left"
  | "user.created" | "user.updated" | "user.deleted" | "presence.updated"
  | "self.updated" | "rbac.role.created" | "rbac.role.updated" | "rbac.role.deleted"
  | "rbac.binding.updated" | "rbac.config.updated" | "owner.transferred"
  | "moderation.mute.updated" | "moderation.mute.removed" | "voice.authority.updated"
  | "voice.revoked" | "voice.disconnected" | "voice.membership.updated"
  | "server.updated" | "visibility.grant.begin" | "visibility.fragment"
  | "visibility.granted" | "visibility.revoked" | "visibility.tombstone"
  | "visibility.transition.complete" => true
  | _ => false

/-- The scope kind required by events that concern one resource family. -/
def expectedScopeKind : String → Option String
  | "group.created" | "group.updated" | "group.deleted" | "group.access.updated" =>
      some "group"
  | "channel.created" | "channel.updated" | "channel.deleted" | "channel.access.updated"
  | "channel.member.joined" | "channel.member.left" | "voice.membership.updated" =>
      some "channel"
  | "user.created" | "user.updated" | "user.deleted" | "presence.updated"
  | "self.updated" | "rbac.role.created" | "rbac.role.updated" | "rbac.role.deleted"
  | "owner.transferred" | "voice.authority.updated" | "voice.revoked"
  | "voice.disconnected" | "server.updated" | "visibility.transition.complete" =>
      some "server"
  | _ => none

/-- Visibility transitions that carry a group or channel scope. -/
def isVisibilityScopeEvent : String → Bool
  | "visibility.grant.begin" | "visibility.fragment" | "visibility.granted"
  | "visibility.revoked" | "visibility.tombstone" => true
  | _ => false

/-- Events that must be completed from a fresh snapshot. -/
def isVisibilityStateEvent (eventType : String) : Bool :=
  isVisibilityScopeEvent eventType || eventType == "visibility.transition.complete"

variable {V : Type}

/-- Check envelope, cursor, GEID order, event table and scope, in that order. -/
def validateEvent (event : StateEvent V) (current : ClientState) :
    Except StateApplyError Unit :=
  if event.frameType != "state.event" || event.class_ != "state" then
    .error (.invalidEnvelope "state event must have type state.event and class state")
  else if event.cursor.asStr.isEmpty then
    .error .invalidCursor
  else if event.geid ≤ current.geid then
    .error (.geidOrder current.geid event.geid)
  else if !isKnownStateEvent event.eventType then
    .error (.unknownEvent event.eventType)
  else if event.scope.kind != "server" && event.scope.kind != "group"
      && event.scope.kind != "channel" then
    .error (.invalidEnvelope ("unknown event scope " ++ event.scope.kind))
  else if event.scope.kind != "server" && event.scope.id.isNone then
    .error (.invalidEnvelope "non-server event scope has no id")
  else if event.scope.kind == "server" && event.scope.id.isSome then
    .error (.invalidEnvelope "server event scope must not have an id")
  else if (expectedScopeKind event.eventType).any (· != event.scope.kind) then
    .error (.invalidEnvelope (event.eventType ++ " event must use a "
      ++ (expectedScopeKind event.eventType).getD "" ++ " scope"))
  else if isVisibilityScopeEvent event.eventType && event.scope.kind == "server" then
    .error (.invalidEnvelope
      "visibility transition event must use a group or channel scope")
  else .ok ()

/-! ## The projection rules -/

/-- Replace the first entry with the same key, or append the item. -/
def upsertById {T I : Type} [DecidableEq I] (items : List T) (item : T) (key : T → I) : List T :=
  match items with
  | [] => [item]
  | existing :: rest =>
      if key existing = key item then item :: rest else existing :: upsertById rest item key

/-- Replace or append an entity by its string-like key. -/
def upsertByKey {T K : Type} [DecidableEq K] (items : List T) (item : T) (key : T → K) : List T :=
  upsertById items item key

/-- Replace or append a privacy-projected user. -/
def upsertUser (items : List UserPresence) (item : UserPresence) : List UserPresence :=
  upsertById items item UserPresence.userId

/-- Replace or append a membership, keeping one active channel for each user. -/
def upsertMembership (items : List VoiceMembership) (item : VoiceMembership) :
    List VoiceMembership :=
  upsertById items item VoiceMembership.userId

/-- Decode a payload, keeping the event type in the diagnostic. -/
def payload {T : Type} (decode : V → Except String T) (event : StateEvent V) :
    Except StateApplyError T :=
  match decode event.data with
  | .ok value => .ok value
  | .error message => .error (.invalidPayload event.eventType message)

/-- The replace, upsert and delete semantics of the known event types. -/
def applyKnownEvent (serde : Serde V) (state : ClientState) (event : StateEvent V) :
    Except StateApplyError ClientState :=
  match event.eventType with
  | "group.created" | "group.updated" => do
      let group ← payload serde.group event
      return { state with groups := upsertById state.groups group Group.id }
  | "group.deleted" => do
      let deleted ← payload serde.entityTombstone event
      return { state with
        groups := state.groups.filter fun group => group.id ≠ deleted
        channels := state.channels.filter fun channel => channel.groupId ≠ some deleted }
  | "channel.created" | "channel.updated" => do
      let channel ← payload serde.channel event
      return { state with channels := upsertById state.channels channel Channel.id }
  | "channel.deleted" => do
      let deleted ← payload serde.entityTombstone event
      return { state with
        channels := state.channels.filter fun channel => channel.id ≠ deleted
        voiceMemberships :=
          state.voiceMemberships.filter fun membership => membership.channelId ≠ deleted
        selfUser := { state.selfUser with
          voiceAuthority := state.selfUser.voiceAuthority.filter fun authority =>
            authority.channelId ≠ deleted } }
  | "channel.member.joined" => do
      let membership ← payload serde.membershipEnvelope event
      return { state with
        voiceMemberships := upsertMembership state.voiceMemberships membership }
  | "channel.member.left" => do
      let left ← payload serde.membershipTombstone event
      return { state with
        voiceMemberships := state.voiceMemberships.filter fun membership =>
          membership.userId ≠ left.userId ∨ membership.channelId ≠ left.channelId }
  | "user.created" | "user.updated" | "presence.updated" => do
      let user ← payload serde.userEnvelope event
      return { state with users := upsertUser state.users user }
  | "user.deleted" => do
      let deleted ← payload serde.userTombstone event
      return { state with users := state.users.filter fun user => user.userId ≠ deleted }
  | "self.updated" => do
      let selfState ← payload serde.selfEnvelope event
      return { state with selfUser := selfState }
  | "rbac.role.created" | "rbac.role.updated" => do
      let role ← payload serde.role event
      return { state with roles := upsertByKey state.roles role Role.key }
  | "rbac.role.deleted" => do
      let deleted ← payload serde.roleTombstone event
      return { state with roles := state.roles.filter fun role => role.key ≠ deleted }
  | "voice.authority.updated" => do
      let authority ← payload serde.authorityEnvelope event
      return { state with selfUser := { state.selfUser with voiceAuthority := authority } }
  | "voice.revoked" | "voice.disconnected" | "voice.membership.updated" => return state
  | "group.access.updated" | "acl.updated" | "channel.access.updated"
  | "rbac.binding.updated" | "rbac.config.updated" | "owner.transferred"
  | "moderation.mute.updated" | "moderation.mute.removed" | "server.updated" => return state
  | eventType =>
      if isVisibilityStateEvent eventType then .error (.snapshotRequired eventType)
      else .error (.unknownEvent eventType)

/-- A payload rule that commutes with repositioning yields a state that does. -/
private theorem map_payload_reposition {T : Type} (x : Except StateApplyError T)
    (f g : T → ClientState) (c : Cursor) (n : Geid) (h : ∀ t, f t = (g t).reposition c n) :
    (x >>= fun t => (pure (f t) : Except StateApplyError ClientState)) =
      (fun s => s.reposition c n) <$> (x >>= fun t => pure (g t)) := by
  cases x with
  | error e => rfl
  | ok t => simp [bind, Except.bind, pure, Except.pure, h, Functor.map, Except.map]

/-- **The projection rules are independent of the stream position.** -/
theorem applyKnownEvent_reposition (serde : Serde V) (s : ClientState) (event : StateEvent V)
    (c : Cursor) (n : Geid) :
    applyKnownEvent serde (s.reposition c n) event =
      (fun t => t.reposition c n) <$> applyKnownEvent serde s event := by
  unfold applyKnownEvent
  split
  all_goals first
    | exact map_payload_reposition _ _ _ c n fun _ => rfl
    | rfl
    | (split <;> rfl)

/-- A successful projection keeps the position it started from. -/
theorem applyKnownEvent_position {serde : Serde V} {s t : ClientState} {event : StateEvent V}
    (h : applyKnownEvent serde s event = .ok t) : t.cursor = s.cursor ∧ t.geid = s.geid := by
  have hpos := applyKnownEvent_reposition serde s event s.cursor s.geid
  rw [ClientState.reposition_self, h] at hpos
  have ht : t = t.reposition s.cursor s.geid := by
    simpa [Functor.map, Except.map] using hpos
  exact ⟨by rw [ht]; rfl, by rw [ht]; rfl⟩

/-- Decoders over the payloads `{ voice_authority }`: such a payload has none of
the fields that the other payload types require. -/
def authorityPayloads : Serde (Option VoiceAuthority) where
  group _ := .error "missing field `id`"
  channel _ := .error "missing field `id`"
  entityTombstone _ := .error "missing field `id`"
  membershipEnvelope _ := .error "missing field `membership`"
  membershipTombstone _ := .error "missing field `user_id`"
  userEnvelope _ := .error "missing field `user`"
  userTombstone _ := .error "missing field `user_id`"
  selfEnvelope _ := .error "missing field `self`"
  role _ := .error "missing field `key`"
  roleTombstone _ := .error "missing field `key`"
  authorityEnvelope authority := .ok authority
  encodedLength _ := some 256

end ZephyrVox.Realtime
