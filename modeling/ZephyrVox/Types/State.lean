import ZephyrVox.Types.Ids

/-!
# The visible state projection

The snapshot the server returns, the projection a client keeps, and the events
that change it. A state event carries a JSON payload; its type is the parameter
`V`, since only the decoders of the payload look inside it.

## Main definitions

* `ClientState` — the client-side projection after a snapshot and events.
* `StateSnapshot` — a complete authenticated snapshot.
* `StateEvent V` — one replayable state event with a payload in `V`.
-/

namespace ZephyrVox

/-- Server-global presence activity. -/
structure PresenceActivity where
  kind : String
  name : String
  privacy : String
  deriving DecidableEq, Repr

/-- A server-global online status and optional activity. -/
structure Presence where
  status : String
  activity : Option PresenceActivity
  deriving DecidableEq, Repr

/-- A credential-free user identity in the visible state projection. -/
structure User where
  id : Snowflake
  username : String
  nickname : String
  avatar : Option String
  deriving DecidableEq, Repr

/-- A user identity together with privacy-projected presence. -/
structure UserPresence where
  userId : Snowflake
  nickname : String
  avatar : Option String
  presence : Presence
  deriving DecidableEq, Repr

/-- A server-scoped role definition. -/
structure Role where
  key : String
  displayName : String
  rank : ℤ
  builtin : Bool
  deriving DecidableEq, Repr

/-- A visible channel group. -/
structure Group where
  id : Snowflake
  name : String
  position : ℤ
  visibility : String
  version : String
  deriving DecidableEq, Repr

/-- A visible text, announcement, or voice channel. -/
structure Channel where
  id : Snowflake
  groupId : Option Snowflake
  name : String
  mode : String
  temporary : Bool
  visibility : String
  capacity : ℤ
  position : ℤ
  pinned : Bool
  version : String
  deriving DecidableEq, Repr

/-- One visible active voice membership. -/
structure VoiceMembership where
  userId : Snowflake
  channelId : Snowflake
  joinedAt : ℤ
  deriving DecidableEq, Repr

/-- The current user's ephemeral voice authority projection. -/
structure VoiceAuthority where
  channelId : Snowflake
  controlConnectionId : ControlConnectionId
  voiceSessionId : SessionId
  voiceAuthorityGeneration : String
  deriving DecidableEq, Repr

/-- Server-level state metadata. -/
structure ServerState where
  name : String
  version : String
  deriving DecidableEq, Repr

/-- The current user's complete visible state. -/
structure SelfUserState where
  user : User
  serverRoleKeys : List String
  serverPermissions : List String
  presence : Presence
  voiceAuthority : Option VoiceAuthority
  deriving DecidableEq, Repr

/-- The replace-style state body returned by the snapshot endpoint. -/
structure SnapshotState where
  server : ServerState
  selfState : SelfUserState
  users : List UserPresence
  roles : List Role
  groups : List Group
  channels : List Channel
  voiceMemberships : List VoiceMembership
  deriving DecidableEq, Repr

/-- A complete authenticated state snapshot. -/
structure StateSnapshot where
  cursor : Cursor
  streamEpoch : StreamEpoch
  geid : Geid
  stateVersion : String
  state : SnapshotState
  deriving DecidableEq, Repr

/-- The client-side projection after applying a snapshot and events. -/
structure ClientState where
  cursor : Cursor
  streamEpoch : StreamEpoch
  geid : Geid
  stateVersion : String
  server : ServerState
  selfUser : SelfUserState
  users : List UserPresence
  roles : List Role
  groups : List Group
  channels : List Channel
  voiceMemberships : List VoiceMembership
  deriving DecidableEq, Repr

namespace ClientState

/-- The client projection of an authoritative snapshot. -/
def fromSnapshot (snapshot : StateSnapshot) : ClientState where
  cursor := snapshot.cursor
  streamEpoch := snapshot.streamEpoch
  geid := snapshot.geid
  stateVersion := snapshot.stateVersion
  server := snapshot.state.server
  selfUser := snapshot.state.selfState
  users := snapshot.state.users
  roles := snapshot.state.roles
  groups := snapshot.state.groups
  channels := snapshot.state.channels
  voiceMemberships := snapshot.state.voiceMemberships

/-- The same projected fields at another position of the event stream: two states
that are equal once repositioned agree on everything but cursor and GEID. -/
def reposition (s : ClientState) (cursor : Cursor) (geid : Geid) : ClientState :=
  { s with cursor := cursor, geid := geid }

@[simp] theorem cursor_reposition (s : ClientState) (c : Cursor) (g : Geid) :
    (s.reposition c g).cursor = c := rfl
@[simp] theorem geid_reposition (s : ClientState) (c : Cursor) (g : Geid) :
    (s.reposition c g).geid = g := rfl
@[simp] theorem selfUser_reposition (s : ClientState) (c : Cursor) (g : Geid) :
    (s.reposition c g).selfUser = s.selfUser := rfl
@[simp] theorem reposition_reposition (s : ClientState) (c c' : Cursor) (g g' : Geid) :
    (s.reposition c g).reposition c' g' = s.reposition c' g' := rfl
@[simp] theorem reposition_self (s : ClientState) : s.reposition s.cursor s.geid = s := rfl

end ClientState

/-- The scope of a state event: `server`, `group` or `channel`. -/
structure EventScope where
  kind : String
  id : Option Snowflake
  deriving DecidableEq, Repr

/-- One replayable state event shared by live and replay delivery. -/
structure StateEvent (V : Type) where
  frameType : String
  geid : Geid
  cursor : Cursor
  class_ : String
  scope : EventScope
  eventType : String
  causationId : Option Geid
  serverTime : ℤ
  data : V
  deriving DecidableEq, Repr

/-! ## Sample values -/

/-- A one-character cursor. -/
def sampleCursor : Cursor := ⟨"A", by decide, by decide, by decide⟩

instance neZeroSampleId : NeZero 255 := ⟨by decide⟩

/-- A fixed identifier that ends in the byte `n + 1`. -/
def sampleId (kind : FixedIdKind) (n : Fin 255) : FixedId kind where
  asBytes := List.replicate 15 0 ++ [(n.val + 1).toUInt8]
  length_eq := by simp
  nonzero := by revert n; decide +kernel

/-- An otherwise empty projection at GEID `geid`. -/
def sampleState (geid : Geid) (authority : Option VoiceAuthority) : ClientState where
  cursor := sampleCursor
  streamEpoch := sampleId .streamEpoch 0
  geid := geid
  stateVersion := "1"
  server := ⟨"server", "1"⟩
  selfUser :=
    ⟨⟨⟨1, by decide, by decide⟩, "user", "user", none⟩, [], [], ⟨"online", none⟩, authority⟩
  users := []
  roles := []
  groups := []
  channels := []
  voiceMemberships := []

/-- The snapshot whose projection is `sampleState`. -/
def sampleSnapshot (geid : Geid) (authority : Option VoiceAuthority) : StateSnapshot where
  cursor := sampleCursor
  streamEpoch := sampleId .streamEpoch 0
  geid := geid
  stateVersion := "1"
  state := {
    server := (sampleState geid authority).server
    selfState := (sampleState geid authority).selfUser
    users := []
    roles := []
    groups := []
    channels := []
    voiceMemberships := [] }

/-- A server-scoped event of the given type at GEID `geid`. -/
def sampleEvent {V : Type} (eventType : String) (geid : Geid) (data : V) : StateEvent V where
  frameType := "state.event"
  geid := geid
  cursor := sampleCursor
  class_ := "state"
  scope := ⟨"server", none⟩
  eventType := eventType
  causationId := none
  serverTime := 0
  data := data

end ZephyrVox
