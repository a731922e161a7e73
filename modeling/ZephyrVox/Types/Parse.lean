import ZephyrVox.Types.Ids

/-!
# Reading identifiers

The constructors that take text: a cursor, an entity tag, a 128-bit identifier in
lowercase hexadecimal, and a decimal GEID. Each reports the first thing it finds
wrong.

## Main definitions

* `IdError` — why a text is no identifier, with the words it is reported in.
* `Cursor.new`, `Etag.new`, `FixedId.parseHex`, `Geid.fromStr` — the readers.
-/

namespace ZephyrVox

/-- Errors raised while reading an identifier. -/
inductive IdError
  | invalidDecimal (text : String)
  | invalidHexLength (expected actual : ℕ)
  | invalidHexCharacter (index : ℕ)
  | zeroIdentifier
  | emptyCursor
  | cursorTooLong (max actual : ℕ)
  | invalidCursorCharacter (index : ℕ)
  | emptyEtag
  deriving DecidableEq, Repr

/-- The text of an error. -/
def IdError.display : IdError → String
  | .invalidDecimal text => "invalid decimal identifier: " ++ text
  | .invalidHexLength expected actual =>
      "hex value must contain " ++ toString expected ++ " characters, got " ++ toString actual
  | .invalidHexCharacter index =>
      "hex value contains an invalid character at index " ++ toString index
  | .zeroIdentifier => "identifier must not be all zero"
  | .emptyCursor => "cursor must not be empty"
  | .cursorTooLong max actual =>
      "cursor must contain at most " ++ toString max ++ " characters, got " ++ toString actual
  | .invalidCursorCharacter index =>
      "cursor contains an invalid character at index " ++ toString index
  | .emptyEtag => "ETag must not be empty"

/-- The bytes of the UTF-8 encoding of a text. -/
def utf8Bytes (text : String) : List UInt8 := text.toList.flatMap String.utf8EncodeChar

/-- Every character takes at least one byte. -/
theorem length_le_utf8Bytes (text : String) : text.toList.length ≤ (utf8Bytes text).length := by
  unfold utf8Bytes
  induction text.toList with
  | nil => simp
  | cons c cs ih =>
      have hpos := Char.utf8Size_pos c
      simp only [List.flatMap_cons, List.length_append, List.length_cons,
        String.length_utf8EncodeChar]
      omega

/-- Read a cursor: only the outer grammar is checked. All characters before the first
one outside the grammar take one byte, so its index counts bytes. -/
def Cursor.new (value : String) : Except IdError Cursor :=
  if hempty : value.toList = [] then .error .emptyCursor
  else if hlength : Cursor.maxLength < (utf8Bytes value).length then
    .error (.cursorTooLong Cursor.maxLength (utf8Bytes value).length)
  else if hchars : value.toList.all Cursor.isCursorChar = true then
    .ok {
      asStr := value
      nonempty := hempty
      length_le := Nat.le_trans (length_le_utf8Bytes value) (Nat.le_of_not_lt hlength)
      chars := hchars }
  else .error (.invalidCursorCharacter (value.toList.findIdx fun c => !Cursor.isCursorChar c))

/-- A non-empty entity tag. -/
structure Etag where
  asStr : String
  nonempty : asStr ≠ ""
  deriving DecidableEq, Repr

/-- Read an entity tag. -/
def Etag.new (value : String) : Except IdError Etag :=
  if h : value = "" then .error .emptyEtag else .ok ⟨value, h⟩

/-- The value of a lowercase hexadecimal digit. -/
def lowerHexValue (value : UInt8) : Option UInt8 :=
  if 0x30 ≤ value ∧ value ≤ 0x39 then some (value - 0x30)
  else if 0x61 ≤ value ∧ value ≤ 0x66 then some (value - 0x61 + 10)
  else none

/-- Read pairs of digits, the first of which stands at `index`. -/
def decodePairs (index : ℕ) : List UInt8 → Except IdError (List UInt8)
  | high :: low :: rest =>
      match lowerHexValue high, lowerHexValue low with
      | none, _ => .error (.invalidHexCharacter index)
      | some _, none => .error (.invalidHexCharacter (index + 1))
      | some h, some l => (decodePairs (index + 2) rest).map (((h <<< 4) ||| l) :: ·)
  | _ => .ok []

/-- Read 32 hexadecimal digits. -/
def decodeHex16 (value : String) : Except IdError (List UInt8) :=
  if (utf8Bytes value).length ≠ 32 then .error (.invalidHexLength 32 (utf8Bytes value).length)
  else decodePairs 0 (utf8Bytes value)

/-- Read a 128-bit identifier. -/
def FixedId.parseHex {kind : FixedIdKind} (value : String) : Except IdError (FixedId kind) := do
  let bytes ← decodeHex16 value
  match FixedId.fromBytes bytes with
  | some id => .ok id
  | none => .error .zeroIdentifier

/-- Read a decimal GEID: an optional plus sign and at least one digit, within 64 bits. -/
def Geid.fromStr (value : String) : Except IdError Geid :=
  let digits : List Char := match value.toList with
    | '+' :: rest => rest
    | digits => digits
  let number : ℕ := digits.foldl (fun acc c => acc * 10 + (c.toNat - '0'.toNat)) 0
  if digits ≠ [] ∧ digits.all Char.isDigit = true ∧ number < 2 ^ 64 then .ok number
  else .error (.invalidDecimal value)

/-- The canonical text of an identifier is read back. -/
example : FixedId.parseHex (FixedId.toHex (⟨List.replicate 16 0xa7, by decide, by decide⟩ :
    StreamEpoch)) = .ok (⟨List.replicate 16 0xa7, by decide, by decide⟩ : StreamEpoch) := by
  decide +kernel

end ZephyrVox
