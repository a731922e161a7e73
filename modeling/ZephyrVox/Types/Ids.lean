import Mathlib

/-!
# Identifiers of the wire contract

Each identifier carries the range its constructor enforces, so an identifier
outside the contract cannot be built.

## Main definitions

* `Snowflake` — a positive 63-bit entity identifier.
* `Geid` — a position in the global event order; zero is an empty checkpoint.
* `Cursor` — an opaque, non-empty, unpadded base64url token.
* `FixedId` — a non-zero 128-bit identifier, with one kind for each of the
  three protocol uses.
-/

namespace ZephyrVox

/-- The largest value a `Snowflake` can have, `i64::MAX`. -/
def maxSnowflake : ℕ := 2 ^ 63 - 1

/-- A positive 63-bit Snowflake identifier. -/
structure Snowflake where
  get : ℕ
  pos : 0 < get
  le_max : get ≤ maxSnowflake
  deriving Repr

theorem Snowflake.get_inj {a b : Snowflake} : a.get = b.get ↔ a = b := by
  cases a
  cases b
  simp

instance : DecidableEq Snowflake := fun _ _ => decidable_of_iff _ Snowflake.get_inj

/-- The identifier of a value in range. -/
def Snowflake.new (value : ℕ) : Option Snowflake :=
  if h : 0 < value ∧ value ≤ maxSnowflake then some ⟨value, h.1, h.2⟩ else none

/-- A globally ordered event identifier. -/
abbrev Geid := ℕ

/-- The maximum encoded length of a cursor. -/
def Cursor.maxLength : ℕ := 256

/-- The characters of an unpadded base64url token. -/
def Cursor.isCursorChar (c : Char) : Bool :=
  ('A' ≤ c && c ≤ 'Z') || ('a' ≤ c && c ≤ 'z') || ('0' ≤ c && c ≤ '9') || c == '-' || c == '_'

/-- An authenticated opaque state cursor. Only the outer grammar is known to the
client; the content is never decoded. -/
structure Cursor where
  asStr : String
  nonempty : asStr.toList ≠ []
  length_le : asStr.toList.length ≤ Cursor.maxLength
  chars : asStr.toList.all Cursor.isCursorChar = true
  deriving DecidableEq, Repr

/-- The three protocol uses of a 128-bit identifier. -/
inductive FixedIdKind
  | session
  | controlConnection
  | streamEpoch
  deriving DecidableEq, Repr

/-- A non-zero 128-bit protocol identifier. -/
structure FixedId (kind : FixedIdKind) where
  asBytes : List UInt8
  length_eq : asBytes.length = 16
  nonzero : asBytes ≠ List.replicate 16 0
  deriving DecidableEq, Repr

/-- The identifier of sixteen bytes that are not all zero. -/
def FixedId.fromBytes {kind : FixedIdKind} (bytes : List UInt8) : Option (FixedId kind) :=
  if h : bytes.length = 16 ∧ bytes ≠ List.replicate 16 0 then some ⟨bytes, h.1, h.2⟩ else none

/-- The lowercase hexadecimal digits, by value. -/
def hexDigits : List Char := "0123456789abcdef".toList

/-- The canonical lowercase hexadecimal text of sixteen bytes. -/
def encodeHex16 (value : List UInt8) : String :=
  String.ofList (value.flatMap fun (byte : UInt8) =>
    [hexDigits.getD (byte >>> 4).toNat '0', hexDigits.getD (byte &&& 0x0f).toNat '0'])

/-- The canonical text of an identifier. -/
def FixedId.toHex {kind : FixedIdKind} (id : FixedId kind) : String := encodeHex16 id.asBytes

/-- The identifier of a server session. -/
abbrev SessionId := FixedId .session

/-- The identifier the server assigns to one control socket. -/
abbrev ControlConnectionId := FixedId .controlConnection

/-- The identifier of the server process whose events are numbered. -/
abbrev StreamEpoch := FixedId .streamEpoch

/-- Voice sessions use the representation of the generic session identifier. -/
abbrev VoiceSessionId := SessionId

end ZephyrVox
