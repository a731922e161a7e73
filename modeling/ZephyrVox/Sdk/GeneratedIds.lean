import ZephyrVox.Lib.Utf8
import ZephyrVox.Http.Request
import ZephyrVox.Realtime.Commands

/-!
# Generated identifiers

A control command and a mutation without a key of its caller are numbered from a
counter and stamped with the clock. Both texts are two hexadecimal numbers with a
minimum width and no maximum, so what bounds them is the width of the clock and of the
counter. The grammars they have to pass are checked elsewhere, on bytes.

## Main definitions

* `IdempotencyKey.new`, `validRequestId` — the two grammars.
* `generateIdempotencyKey`, `nextRequestId` — the two generators.
* `generated_ids_valid` — generated texts pass and are distinct.
-/

namespace ZephyrVox.Http

/-! ## Idempotency keys -/

def MIN_IDEMPOTENCY_KEY_LENGTH : ℕ := 16
def MAX_IDEMPOTENCY_KEY_LENGTH : ℕ := 64

/-- Errors raised while validating header values with a fixed grammar. -/
inductive HeaderError
  | invalidIdempotencyKeyLength (min max actual : ℕ)
  | invalidIdempotencyKeyCharacter (index : ℕ)
  deriving DecidableEq, Repr

/-- The bytes of an idempotency key. -/
def isKeyByte (byte : UInt8) : Bool :=
  (0x41 ≤ byte && byte ≤ 0x5a) || (0x61 ≤ byte && byte ≤ 0x7a) || (0x30 ≤ byte && byte ≤ 0x39) ||
    byte == 0x5f || byte == 0x2d

theorem isKeyByte_ascii {byte : UInt8} (h : isKeyByte byte = true) :
    byte.toNat < 128 ∧ ∀ c : Char, c.toNat = byte.toNat → Cursor.isCursorChar c = true := by
  have hall : ∀ n < 256, isKeyByte (UInt8.ofNat n) = true →
      n < 128 ∧ Cursor.isCursorChar (Char.ofNat n) = true := by
    decide +kernel
  have hbyte := hall byte.toNat byte.toNat_lt (by rwa [UInt8.ofNat_toNat])
  refine ⟨hbyte.1, fun c hc => ?_⟩
  rw [← hc, Char.ofNat_toNat] at hbyte
  exact hbyte.2

/-- The characters of a text of key bytes. -/
theorem chars_of_isKeyByte {text : String} (h : ∀ byte ∈ utf8Bytes text, isKeyByte byte = true) :
    text.toList.all Cursor.isCursorChar = true ∧
      (utf8Bytes text).length = text.toList.length := by
  have hchars := (Utf8.forall_mem_encode_iff
    (fun byte (hbyte : isKeyByte byte = true) => (isKeyByte_ascii hbyte).1) text.toList).mp h
  constructor
  · rw [List.all_eq_true]
    intro c hc
    obtain ⟨hascii, hbyte⟩ := hchars c hc
    exact (isKeyByte_ascii hbyte).2 c hascii.toNat_byteOf.symm
  · have hencode := Utf8.encode_of_ascii fun c hc => (hchars c hc).1
    rw [utf8Bytes, ← Utf8.encode, hencode, List.length_map]

/-- Create an idempotency key by the length and character rules of the server. -/
def IdempotencyKey.new (value : String) : Except HeaderError IdempotencyKey :=
  if hlength : MIN_IDEMPOTENCY_KEY_LENGTH ≤ (utf8Bytes value).length ∧
      (utf8Bytes value).length ≤ MAX_IDEMPOTENCY_KEY_LENGTH then
    if hbytes : ∀ byte ∈ utf8Bytes value, isKeyByte byte = true then
      .ok {
        asStr := value
        min_length := (chars_of_isKeyByte hbytes).2 ▸ hlength.1
        max_length := (chars_of_isKeyByte hbytes).2 ▸ hlength.2
        chars := (chars_of_isKeyByte hbytes).1 }
    else .error (.invalidIdempotencyKeyCharacter
      ((utf8Bytes value).findIdx fun byte => !isKeyByte byte))
  else .error (.invalidIdempotencyKeyLength MIN_IDEMPOTENCY_KEY_LENGTH
    MAX_IDEMPOTENCY_KEY_LENGTH (utf8Bytes value).length)

/-- A text of key bytes within the bounds is accepted as it stands. -/
theorem IdempotencyKey.new_eq_ok {value : String}
    (hmin : MIN_IDEMPOTENCY_KEY_LENGTH ≤ (utf8Bytes value).length)
    (hmax : (utf8Bytes value).length ≤ MAX_IDEMPOTENCY_KEY_LENGTH)
    (hbytes : ∀ byte ∈ utf8Bytes value, isKeyByte byte = true) :
    ∃ key, IdempotencyKey.new value = .ok key ∧ key.asStr = value := by
  rw [IdempotencyKey.new, dif_pos ⟨hmin, hmax⟩, dif_pos hbytes]
  exact ⟨_, rfl, rfl⟩

/-- The text of a generated key. -/
def idempotencyText (now : BitVec 128) (counter : UInt64) : String :=
  String.ofList ("sdk-".toList ++
    (Realtime.hexPadded 16 now.toNat ++ '-' :: Realtime.hexPadded 16 counter.toNat))

/-- Generate a key from the nanoseconds of the clock and the counter. The caller
unwraps the result. -/
def generateIdempotencyKey (now : BitVec 128) (counter : UInt64) :
    Except HeaderError IdempotencyKey :=
  IdempotencyKey.new (idempotencyText now counter)

end ZephyrVox.Http

namespace ZephyrVox.Realtime

/-! ## Request identifiers -/

/-- An ASCII letter or digit. -/
def isAsciiAlphanumeric (byte : UInt8) : Bool :=
  (0x30 ≤ byte && byte ≤ 0x39) || (0x41 ≤ byte && byte ≤ 0x5a) || (0x61 ≤ byte && byte ≤ 0x7a)

/-- The grammar of request identifiers. -/
def validRequestId (requestId : String) : Bool :=
  (16 ≤ (utf8Bytes requestId).length && (utf8Bytes requestId).length ≤ 64) &&
    (utf8Bytes requestId).all fun byte =>
      isAsciiAlphanumeric byte || byte == 0x5f || byte == 0x2d

/-- The identifier generated from the milliseconds of the clock and the counter before
it is advanced. The sum wraps. -/
def nextRequestId (millis : BitVec 128) (counter : UInt64) : String :=
  requestId millis.toNat (counter + 1).toNat

/-- Request identifiers and keys are made of the same bytes. -/
theorem isKeyByte_eq (byte : UInt8) :
    Http.isKeyByte byte = (isAsciiAlphanumeric byte || byte == 0x5f || byte == 0x2d) := by
  simp only [Http.isKeyByte, isAsciiAlphanumeric]
  ac_rfl

/-! ## Padded numbers -/

theorem length_hexPadded (width n : ℕ) :
    (hexPadded width n).length = max width (Nat.toDigits 16 n).length := by
  simp only [hexPadded, List.length_append, List.length_replicate]
  omega

/-- A padded number is as wide as it has to be. -/
theorem length_hexPadded_le (width : ℕ) {n : ℕ} (digits : ℕ) (hdigits : 0 < digits)
    (h : n < 16 ^ digits) :
    (hexPadded width n).length ≤ max width digits := by
  have hlength := (Nat.length_toDigits_le_iff (b := 16) (by omega) hdigits).mpr h
  rw [length_hexPadded]
  omega

/-- The characters of a padded number are key bytes. -/
theorem isKeyByte_of_mem_hexPadded {width n : ℕ} {c : Char} (h : c ∈ hexPadded width n) :
    Utf8.IsAscii c ∧ Http.isKeyByte (Utf8.byteOf c) = true := by
  rcases List.mem_append.mp h with hzero | hdigit
  · rw [List.eq_of_mem_replicate hzero]
    decide
  · obtain ⟨d, hd, rfl⟩ := Numeral.exists_digitChar_of_mem (by omega) hdigit
    have hall : ∀ d < 16, Utf8.IsAscii (Nat.digitChar d) ∧
        Http.isKeyByte (Utf8.byteOf (Nat.digitChar d)) = true := by
      decide
    exact hall d hd

/-- The bytes of a stamped text: those of its leading characters, of two numbers and of
the dash between them. -/
theorem stamped_bytes (lead : List Char) (width : ℕ) (stamp : BitVec 128) (counter : UInt64)
    (hlead : (lead.all fun c => decide (Utf8.IsAscii c) && Http.isKeyByte (Utf8.byteOf c)) = true)
    {text : String} (htext : text = String.ofList
      (lead ++ (hexPadded width stamp.toNat ++ '-' :: hexPadded 16 counter.toNat))) :
    (∀ byte ∈ utf8Bytes text, Http.isKeyByte byte = true) ∧
      lead.length + width + 17 ≤ (utf8Bytes text).length ∧
      (utf8Bytes text).length ≤ lead.length + max width 32 + 17 := by
  have hchars : ∀ c ∈ text.toList, Utf8.IsAscii c ∧ Http.isKeyByte (Utf8.byteOf c) = true := by
    rw [htext, String.toList_ofList]
    intro c hc
    rcases List.mem_append.mp hc with hc | hc
    · simpa using List.all_eq_true.mp hlead c hc
    rcases List.mem_append.mp hc with hc | hc
    · exact isKeyByte_of_mem_hexPadded hc
    rcases List.mem_cons.mp hc with rfl | hc
    · decide
    · exact isKeyByte_of_mem_hexPadded hc
  have hbytes : utf8Bytes text = text.toList.map Utf8.byteOf :=
    Utf8.encode_of_ascii fun c hc => (hchars c hc).1
  have hlength : (utf8Bytes text).length =
      lead.length + ((hexPadded width stamp.toNat).length +
        ((hexPadded 16 counter.toNat).length + 1)) := by
    rw [hbytes, List.length_map, htext, String.toList_ofList, List.length_append,
      List.length_append, List.length_cons]
  have hstamp := length_hexPadded_le width 32 (by omega)
    (Nat.lt_of_lt_of_le stamp.isLt (by norm_num))
  have hcounter := length_hexPadded_le 16 16 (by omega)
    (Nat.lt_of_lt_of_le counter.toNat_lt (by norm_num))
  have hstampMin := length_hexPadded width stamp.toNat
  have hcounterMin := length_hexPadded 16 counter.toNat
  refine ⟨?_, by omega, by omega⟩
  exact (Utf8.forall_mem_encode_iff (p := fun byte => Http.isKeyByte byte = true)
    (fun byte hbyte => (Http.isKeyByte_ascii hbyte).1) text.toList).mpr hchars

end ZephyrVox.Realtime

namespace ZephyrVox.Sdk

open Http Realtime

/-- Generated request identifiers pass their grammar. -/
theorem validRequestId_nextRequestId (millis : BitVec 128) (counter : UInt64) :
    validRequestId (nextRequestId millis counter) = true := by
  obtain ⟨hbytes, hmin, hmax⟩ := stamped_bytes "zv-".toList 11 millis (counter + 1)
    (by decide) (rfl : nextRequestId millis counter = _)
  have hlead : "zv-".toList.length = 3 := by decide
  rw [validRequestId, Bool.and_eq_true, Bool.and_eq_true, decide_eq_true_eq, decide_eq_true_eq,
    List.all_eq_true]
  exact ⟨⟨by omega, by omega⟩, fun byte hbyte => by rw [← isKeyByte_eq, hbytes byte hbyte]⟩

/-- Generated idempotency keys are accepted as they are. -/
theorem generateIdempotencyKey_ok (now : BitVec 128) (counter : UInt64) :
    ∃ key, generateIdempotencyKey now counter = .ok key ∧
      key.asStr = idempotencyText now counter := by
  obtain ⟨hbytes, hmin, hmax⟩ := stamped_bytes "sdk-".toList 16 now counter
    (by decide) (rfl : idempotencyText now counter = _)
  have hlead : "sdk-".toList.length = 4 := by decide
  refine IdempotencyKey.new_eq_ok ?_ ?_ hbytes
  · rw [MIN_IDEMPOTENCY_KEY_LENGTH]
    omega
  · rw [MAX_IDEMPOTENCY_KEY_LENGTH]
    omega

/-- **Generated identifiers are valid and distinct**, whatever the clock says: the
grammars accept them, and different counters give different texts. -/
theorem generated_ids_valid :
    (∀ millis counter, validRequestId (nextRequestId millis counter) = true) ∧
    (∀ now counter, ∃ key, generateIdempotencyKey now counter = .ok key ∧
      key.asStr = idempotencyText now counter) ∧
    (∀ millis millis' counter counter', counter ≠ counter' →
      nextRequestId millis counter ≠ nextRequestId millis' counter') ∧
    (∀ now now' counter counter', counter ≠ counter' →
      idempotencyText now counter ≠ idempotencyText now' counter') := by
  refine ⟨validRequestId_nextRequestId, generateIdempotencyKey_ok, ?_, ?_⟩
  · intro millis millis' counter counter' hne h
    have hsequence := UInt64.toNat_inj.mp (sequence_eq_of_requestId_eq h)
    exact hne ((UInt64.add_left_inj 1).mp hsequence)
  · intro now now' counter counter' hne h
    exact hne (UInt64.toNat_inj.mp
      (eq_of_hexPadded_dash (List.append_cancel_left (String.ofList_injective h))))

end ZephyrVox.Sdk
