import ZephyrVox.Lib.Utf8
import ZephyrVox.Wire.CardUrl

/-!
# Hexadecimal texts

The identifiers of 128 bits and the fingerprints have one text each. Two loops read
such texts two bytes at a time; both accept exactly the rendered texts, and the one
of the identifiers reports the first byte that is no digit.

## Main definitions

* `hexText bytes` — two lowercase digits for each byte.
* `FirstOffending bytes i` — byte `i` is the first that is no digit.
* `ExactCodec` — a reader accepts exactly the texts of one form and is inverse to a
  renderer.
* `hex_texts_exact` — the readers of identifiers and fingerprints.
-/

namespace ZephyrVox.Wire

open Utf8

/-- A lowercase hexadecimal digit. -/
def IsHexChar (c : Char) : Prop := '0' ≤ c ∧ c ≤ '9' ∨ 'a' ≤ c ∧ c ≤ 'f'

/-- The byte of a lowercase hexadecimal digit. -/
def IsHexByte (byte : UInt8) : Prop := 0x30 ≤ byte ∧ byte ≤ 0x39 ∨ 0x61 ≤ byte ∧ byte ≤ 0x66

instance (byte : UInt8) : Decidable (IsHexByte byte) :=
  inferInstanceAs (Decidable (0x30 ≤ byte ∧ byte ≤ 0x39 ∨ 0x61 ≤ byte ∧ byte ≤ 0x66))

instance (c : Char) : Decidable (IsHexChar c) :=
  inferInstanceAs (Decidable ('0' ≤ c ∧ c ≤ '9' ∨ 'a' ≤ c ∧ c ≤ 'f'))

/-- Byte `i` is the first that is no digit. -/
def FirstOffending (bytes : List UInt8) (i : ℕ) : Prop :=
  (∃ byte, bytes[i]? = some byte ∧ ¬ IsHexByte byte) ∧
    ∀ j < i, ∃ byte, bytes[j]? = some byte ∧ IsHexByte byte

/-- The digits of a byte string. -/
def hexText (bytes : List UInt8) : List Char :=
  bytes.flatMap fun byte : UInt8 => [hexDigit (byte >>> 4), hexDigit (byte &&& 0x0f)]

/-! ## Digits -/

theorem IsHexByte.lt {byte : UInt8} (h : IsHexByte byte) : byte.toNat < 128 := by
  rcases h with ⟨-, h⟩ | ⟨-, h⟩
  · exact Nat.lt_of_le_of_lt (UInt8.le_iff_toNat_le.mp h) (by decide)
  · exact Nat.lt_of_le_of_lt (UInt8.le_iff_toNat_le.mp h) (by decide)

/-- Digits as characters and as bytes. -/
theorem isHexChar_iff (c : Char) : IsHexChar c ↔ IsAscii c ∧ IsHexByte (byteOf c) := by
  have hle (d e : Char) : d ≤ e ↔ d.toNat ≤ e.toNat := UInt32.le_iff_toNat_le
  have hbytes (hc : IsAscii c) : IsHexByte (byteOf c) ↔
      0x30 ≤ c.toNat ∧ c.toNat ≤ 0x39 ∨ 0x61 ≤ c.toNat ∧ c.toNat ≤ 0x66 := by
    simp only [IsHexByte, UInt8.le_iff_toNat_le, hc.toNat_byteOf]
    rfl
  have hchars : IsHexChar c ↔
      0x30 ≤ c.toNat ∧ c.toNat ≤ 0x39 ∨ 0x61 ≤ c.toNat ∧ c.toNat ≤ 0x66 := by
    simp only [IsHexChar, hle]
    rfl
  constructor
  · intro h
    have hascii : IsAscii c := by
      have hnat := hchars.mp h
      show c.toNat < 128
      omega
    exact ⟨hascii, (hbytes hascii).mpr (hchars.mp h)⟩
  · rintro ⟨hascii, h⟩
    exact hchars.mpr ((hbytes hascii).mp h)

/-- The byte of the digit of a value. -/
theorem toNat_byteOf_hexDigit {value : UInt8} (h : value.toNat < 16) :
    (byteOf (hexDigit value)).toNat =
      if value.toNat < 10 then value.toNat + 48 else value.toNat + 87 := by
  have hall : ∀ n < 16, (byteOf (hexDigit (UInt8.ofNat n))).toNat =
      if n < 10 then n + 48 else n + 87 := by decide
  have hvalue := hall value.toNat h
  rwa [UInt8.ofNat_toNat] at hvalue

/-- The readers' digits: a byte has a value exactly when it is a digit, and it is the
digit of that value. -/
theorem lowerHexValue_cases (byte : UInt8) :
    (lowerHexValue byte = none ∧ ¬ IsHexByte byte) ∨
      ∃ value : UInt8, lowerHexValue byte = some value ∧ value.toNat < 16 ∧ IsHexByte byte ∧
        byte = byteOf (hexDigit value) := by
  have digit (value : UInt8) (hvalue : value.toNat < 16)
      (hbyte : byte.toNat = if value.toNat < 10 then value.toNat + 48 else value.toNat + 87) :
      byte = byteOf (hexDigit value) :=
    UInt8.toNat_inj.mp (hbyte.trans (toNat_byteOf_hexDigit hvalue).symm)
  by_cases hdecimal : 0x30 ≤ byte ∧ byte ≤ 0x39
  · obtain ⟨hlow, hhigh⟩ := hdecimal
    have hlowNat : 48 ≤ byte.toNat := UInt8.le_iff_toNat_le.mp hlow
    have hhighNat : byte.toNat ≤ 57 := UInt8.le_iff_toNat_le.mp hhigh
    have hvalue : (byte - 0x30).toNat = byte.toNat - 48 := UInt8.toNat_sub_of_le _ _ hlow
    refine .inr ⟨byte - 0x30, ?_, by omega, .inl ⟨hlow, hhigh⟩, digit _ (by omega) ?_⟩
    · rw [lowerHexValue, if_pos ⟨hlow, hhigh⟩]
    · rw [hvalue, if_pos (by omega)]
      omega
  by_cases hletter : 0x61 ≤ byte ∧ byte ≤ 0x66
  · obtain ⟨hlow, hhigh⟩ := hletter
    have hlowNat : 97 ≤ byte.toNat := UInt8.le_iff_toNat_le.mp hlow
    have hhighNat : byte.toNat ≤ 102 := UInt8.le_iff_toNat_le.mp hhigh
    have hsub : (byte - 0x61).toNat = byte.toNat - 97 := UInt8.toNat_sub_of_le _ _ hlow
    have hvalue : (byte - 0x61 + 10).toNat = byte.toNat - 87 := by
      rw [UInt8.toNat_add, hsub]
      show (byte.toNat - 97 + 10) % 256 = byte.toNat - 87
      omega
    refine .inr ⟨byte - 0x61 + 10, ?_, by omega, .inr ⟨hlow, hhigh⟩, digit _ (by omega) ?_⟩
    · rw [lowerHexValue, if_neg hdecimal, if_pos ⟨hlow, hhigh⟩]
    · rw [hvalue, if_neg (by omega)]
      omega
  · refine .inl ⟨?_, not_or.mpr ⟨hdecimal, hletter⟩⟩
    rw [lowerHexValue, if_neg hdecimal, if_neg hletter]

/-- A digit has the value it was written for. -/
theorem lowerHexValue_hexDigit {value : UInt8} (h : value.toNat < 16) :
    lowerHexValue (byteOf (hexDigit value)) = some value := by
  have hall : ∀ n < 16,
      lowerHexValue (byteOf (hexDigit (UInt8.ofNat n))) = some (UInt8.ofNat n) := by
    decide
  have hvalue := hall value.toNat h
  rwa [UInt8.ofNat_toNat] at hvalue

theorem isHexChar_hexDigit {value : UInt8} (h : value.toNat < 16) :
    IsHexChar (hexDigit value) := by
  have hall : ∀ n < 16, IsHexChar (hexDigit (UInt8.ofNat n)) := by decide
  have hvalue := hall value.toNat h
  rwa [UInt8.ofNat_toNat] at hvalue

/-- A byte is put together from two digits and falls apart into them. -/
theorem split_joined {high low : UInt8} (hhigh : high.toNat < 16) (hlow : low.toNat < 16) :
    (high <<< 4 ||| low) >>> 4 = high ∧ (high <<< 4 ||| low) &&& 0x0f = low := by
  have hfour : (4 : UInt8).toNat % 8 = 4 := rfl
  have hshift : high.toNat <<< 4 % 2 ^ 8 = high.toNat <<< 4 := by
    rw [Nat.shiftLeft_eq]
    omega
  have hjoined : (high <<< 4 ||| low).toNat = high.toNat * 2 ^ 4 + low.toNat := by
    rw [UInt8.toNat_or, UInt8.toNat_shiftLeft, hfour, hshift,
      ← Nat.shiftLeft_add_eq_or_of_lt hlow, Nat.shiftLeft_eq]
  constructor
  · apply UInt8.toNat_inj.mp
    rw [Bytes.toNat_shiftRight_four, hjoined]
    omega
  · apply UInt8.toNat_inj.mp
    rw [Bytes.toNat_and_fifteen, hjoined]
    omega

/-! ## Rendered texts -/

@[simp] theorem hexText_cons (byte : UInt8) (bytes : List UInt8) :
    hexText (byte :: bytes) =
      hexDigit (byte >>> 4) :: hexDigit (byte &&& 0x0f) :: hexText bytes := rfl

theorem length_hexText (bytes : List UInt8) : (hexText bytes).length = 2 * bytes.length := by
  induction bytes with
  | nil => rfl
  | cons byte bytes ih =>
      simp only [hexText_cons, List.length_cons, ih]
      omega

/-- Rendered texts consist of digits. -/
theorem isHexChar_of_mem_hexText {bytes : List UInt8} {c : Char} (h : c ∈ hexText bytes) :
    IsHexChar c := by
  obtain ⟨byte, -, hc⟩ := List.mem_flatMap.mp h
  obtain ⟨hhigh, hlow⟩ := Bytes.halves_lt byte
  rcases List.mem_pair.mp hc with rfl | rfl
  · exact isHexChar_hexDigit hhigh
  · exact isHexChar_hexDigit hlow

theorem encode_hexText (bytes : List UInt8) :
    encode (hexText bytes) = (hexText bytes).map byteOf :=
  encode_of_ascii fun c hc => ((isHexChar_iff c).mp (isHexChar_of_mem_hexText hc)).1

theorem isHexByte_of_mem_encode {bytes : List UInt8} {byte : UInt8}
    (h : byte ∈ encode (hexText bytes)) : IsHexByte byte := by
  rw [encode_hexText] at h
  obtain ⟨c, hc, rfl⟩ := List.mem_map.mp h
  exact ((isHexChar_iff c).mp (isHexChar_of_mem_hexText hc)).2

/-! ## The loop of the identifiers -/

/-- One turn of the loop: it stops at the first of the two bytes that is no digit, or
reads the byte whose digits they are. -/
theorem decodePairs_cases (index : ℕ) (high low : UInt8) (rest : List UInt8) :
    (¬ IsHexByte high ∧
      decodePairs index (high :: low :: rest) = .error (.invalidHexCharacter index)) ∨
    (IsHexByte high ∧ ¬ IsHexByte low ∧
      decodePairs index (high :: low :: rest) = .error (.invalidHexCharacter (index + 1))) ∨
    ∃ byte : UInt8, high = byteOf (hexDigit (byte >>> 4)) ∧
      low = byteOf (hexDigit (byte &&& 0x0f)) ∧ IsHexByte high ∧ IsHexByte low ∧
      decodePairs index (high :: low :: rest) = (decodePairs (index + 2) rest).map (byte :: ·) := by
  obtain ⟨hnone, hhigh⟩ | ⟨v, hv, hv16, hhigh, hhighDigit⟩ := lowerHexValue_cases high
  · exact .inl ⟨hhigh, by rw [decodePairs, hnone]⟩
  obtain ⟨hnone, hlow⟩ | ⟨w, hw, hw16, hlow, hlowDigit⟩ := lowerHexValue_cases low
  · exact .inr (.inl ⟨hhigh, hlow, by rw [decodePairs, hv, hnone]⟩)
  · obtain ⟨hsplitHigh, hsplitLow⟩ := split_joined hv16 hw16
    refine .inr (.inr ⟨v <<< 4 ||| w, ?_, ?_, hhigh, hlow, by rw [decodePairs, hv, hw]⟩)
    · rw [hsplitHigh, ← hhighDigit]
    · rw [hsplitLow, ← hlowDigit]

/-- The loop accepts rendered texts only. -/
theorem eq_encode_of_decodePairs {index : ℕ} {bytes out : List UInt8}
    (heven : bytes.length % 2 = 0) (h : decodePairs index bytes = .ok out) :
    bytes = encode (hexText out) := by
  rw [encode_hexText]
  induction bytes using List.twoStepInduction generalizing index out with
  | nil =>
      cases h
      rfl
  | singleton byte => simp at heven
  | cons_cons high low rest ih =>
      have hrest : rest.length % 2 = 0 := by
        simp only [List.length_cons] at heven
        omega
      obtain ⟨-, herror⟩ | ⟨-, -, herror⟩ | ⟨byte, hhigh, hlow, -, -, hread⟩ :=
        decodePairs_cases index high low rest
      · rw [herror] at h
        cases h
      · rw [herror] at h
        cases h
      · rw [hread] at h
        cases htail : decodePairs (index + 2) rest with
        | error e =>
            rw [htail] at h
            cases h
        | ok tail =>
            rw [htail] at h
            cases h
            rw [hexText_cons, List.map_cons, List.map_cons, ← hhigh, ← hlow, ← ih hrest htail]

/-- What is rendered is read back. -/
theorem decodePairs_encode (index : ℕ) (out : List UInt8) :
    decodePairs index (encode (hexText out)) = .ok out := by
  rw [encode_hexText]
  induction out generalizing index with
  | nil => rfl
  | cons byte out ih =>
      obtain ⟨hhigh, hlow⟩ := Bytes.halves_lt byte
      rw [hexText_cons, List.map_cons, List.map_cons, decodePairs, lowerHexValue_hexDigit hhigh,
        lowerHexValue_hexDigit hlow]
      simp only [ih, Except.map, Bytes.join_halves]

/-- A failing loop reports the first byte that is no digit. -/
theorem firstOffending_of_decodePairs {index : ℕ} {bytes : List UInt8} {e : IdError}
    (h : decodePairs index bytes = .error e) :
    ∃ i, e = .invalidHexCharacter (index + i) ∧ FirstOffending bytes i := by
  induction bytes using List.twoStepInduction generalizing index with
  | nil => cases h
  | singleton byte => cases h
  | cons_cons high low rest ih =>
      obtain ⟨hhigh, herror⟩ | ⟨hhigh, hlow, herror⟩ | ⟨byte, -, -, hhigh, hlow, hread⟩ :=
        decodePairs_cases index high low rest
      · rw [herror] at h
        cases h
        exact ⟨0, rfl, ⟨high, rfl, hhigh⟩, fun j hj => absurd hj (Nat.not_lt_zero j)⟩
      · rw [herror] at h
        cases h
        refine ⟨1, rfl, ⟨low, rfl, hlow⟩, fun j hj => ?_⟩
        obtain rfl : j = 0 := by omega
        exact ⟨high, rfl, hhigh⟩
      · rw [hread] at h
        cases htail : decodePairs (index + 2) rest with
        | ok tail =>
            rw [htail] at h
            cases h
        | error e' =>
            rw [htail] at h
            cases h
            obtain ⟨i, rfl, hoffending, hbefore⟩ := ih htail
            refine ⟨i + 2, by rw [Nat.add_assoc, Nat.add_comm 2 i], hoffending, fun j hj => ?_⟩
            rcases j with _ | _ | j
            · exact ⟨high, rfl, hhigh⟩
            · exact ⟨low, rfl, hlow⟩
            · exact hbefore j (by omega)

/-- The loop of the fingerprints reads the same texts and keeps no index. -/
theorem hexPairs_eq_toOption (index : ℕ) (bytes : List UInt8) :
    hexPairs bytes = (decodePairs index bytes).toOption := by
  induction bytes using List.twoStepInduction generalizing index with
  | nil => rfl
  | singleton byte => rfl
  | cons_cons high low rest ih =>
      have hvalue : hexValue = lowerHexValue := rfl
      rw [hexPairs, decodePairs, hvalue, ih (index + 2)]
      cases lowerHexValue high with
      | none => rfl
      | some h =>
          cases lowerHexValue low with
          | none => rfl
          | some l => cases decodePairs (index + 2) rest <;> rfl

/-! ## Texts of a fixed length -/

/-- The text is `width` digits. -/
def IsHexText (width : ℕ) (text : String) : Prop :=
  text.toList.length = width ∧ ∀ c ∈ text.toList, IsHexChar c

/-- The bytes of a text of digits are as many digits. -/
theorem IsHexText.bytes {width : ℕ} {text : String} (h : IsHexText width text) :
    (utf8Bytes text).length = width ∧ ∀ byte ∈ utf8Bytes text, IsHexByte byte := by
  have hchars : ∀ c ∈ text.toList, IsAscii c ∧ IsHexByte (byteOf c) :=
    fun c hc => (isHexChar_iff c).mp (h.2 c hc)
  have hbytes : utf8Bytes text = text.toList.map byteOf :=
    encode_of_ascii fun c hc => (hchars c hc).1
  refine ⟨?_, (forall_mem_encode_iff (fun _ => IsHexByte.lt) text.toList).mpr hchars⟩
  rw [hbytes, List.length_map, h.1]

/-- A text of digits is read. -/
theorem IsHexText.decodes {width : ℕ} {text : String} (h : IsHexText width text) :
    ∃ out, decodePairs 0 (utf8Bytes text) = .ok out := by
  cases hread : decodePairs 0 (utf8Bytes text) with
  | ok out => exact ⟨out, rfl⟩
  | error e =>
      obtain ⟨i, -, ⟨byte, hbyte, hbad⟩, -⟩ := firstOffending_of_decodePairs hread
      exact (hbad (h.bytes.2 byte (List.mem_of_getElem? hbyte))).elim

/-- A text that is read is the text of what is read. -/
theorem toList_of_decodePairs {text : String} {out : List UInt8}
    (heven : (utf8Bytes text).length % 2 = 0)
    (h : decodePairs 0 (utf8Bytes text) = .ok out) : text.toList = hexText out :=
  eq_of_encode_eq
    (fun c hc => ((isHexChar_iff c).mp (isHexChar_of_mem_hexText hc)).1)
    (eq_encode_of_decodePairs heven h)

/-- A rendered text is so many digits. -/
theorem isHexText_of_toList {text : String} {out : List UInt8} {count : ℕ}
    (h : text.toList = hexText out) (hlength : out.length = count) :
    IsHexText (2 * count) text := by
  refine ⟨?_, ?_⟩
  · rw [h, length_hexText, hlength]
  · rw [h]
    exact fun c hc => isHexChar_of_mem_hexText hc

/-! ## The two readers -/

/-- A reader accepts exactly the valid texts, and renders what it accepts as the text
it was; rendered values are read back. -/
structure ExactCodec {α ε : Type} (parse : String → Except ε α) (render : α → String)
    (valid : String → Prop) : Prop where
  accepts : ∀ text, (∃ value, parse text = .ok value) ↔ valid text
  canonical : ∀ text value, parse text = .ok value → render value = text
  reads_back : ∀ value, parse (render value) = .ok value

/-- The bytes of a rendered text are read back, and there are two for each byte. -/
theorem decodePairs_ofList (bytes : List UInt8) :
    decodePairs 0 (utf8Bytes (String.ofList (hexText bytes))) = .ok bytes ∧
      (utf8Bytes (String.ofList (hexText bytes))).length = 2 * bytes.length := by
  have hbytes : utf8Bytes (String.ofList (hexText bytes)) = encode (hexText bytes) := by
    rw [utf8Bytes, String.toList_ofList, encode]
  rw [hbytes]
  refine ⟨decodePairs_encode 0 bytes, ?_⟩
  rw [encode_hexText, List.length_map, length_hexText]

/-- What is read from `2 * count` bytes. -/
theorem decoded_of_length {text : String} {out : List UInt8} (count : ℕ)
    (hlength : (utf8Bytes text).length = 2 * count)
    (h : decodePairs 0 (utf8Bytes text) = .ok out) :
    text.toList = hexText out ∧ out.length = count := by
  have htext := toList_of_decodePairs (by omega) h
  have hbytes : (utf8Bytes text).length = (hexText out).length := by
    rw [utf8Bytes, htext, ← encode, encode_hexText, List.length_map]
  rw [hlength, length_hexText] at hbytes
  exact ⟨htext, by omega⟩

/-- The zero bytes and no others are rendered as zeros. -/
theorem hexText_eq_zeros {bytes : List UInt8} :
    hexText bytes = List.replicate 32 '0' ↔ bytes = List.replicate 16 0 := by
  have hzeros : hexText (List.replicate 16 0) = List.replicate 32 '0' := by decide
  constructor
  · intro h
    have hread := decodePairs_encode 0 bytes
    rw [h, ← hzeros, decodePairs_encode] at hread
    cases hread
    rfl
  · rintro rfl
    exact hzeros

/-! ### Identifiers -/

/-- Reading an identifier: the bytes are read and are not all zero. -/
theorem fixedId_parseHex_ok_iff {kind : FixedIdKind} {text : String} {id : FixedId kind} :
    FixedId.parseHex text = .ok id ↔
      (utf8Bytes text).length = 32 ∧ decodePairs 0 (utf8Bytes text) = .ok id.asBytes := by
  have hbytes (out : List UInt8) :
      FixedId.fromBytes out = some id ↔ out = id.asBytes := by
    simp only [FixedId.fromBytes, Option.dite_none_right_eq_some, Option.some.injEq]
    constructor
    · rintro ⟨-, rfl⟩
      rfl
    · rintro rfl
      exact ⟨⟨id.length_eq, id.nonzero⟩, rfl⟩
  by_cases hlength : (utf8Bytes text).length = 32
  · simp only [FixedId.parseHex, decodeHex16, hlength, ne_eq, not_true, if_false, true_and]
    cases hread : decodePairs 0 (utf8Bytes text) with
    | error e => simp [bind, Except.bind]
    | ok out =>
        simp only [bind, Except.bind, Except.ok.injEq, ← hbytes out]
        cases hid : (FixedId.fromBytes out : Option (FixedId kind)) with
        | none => simp
        | some id' => simp
  · simp [FixedId.parseHex, decodeHex16, hlength, bind, Except.bind]

/-- **The reader of identifiers.** -/
theorem fixedId_exactCodec (kind : FixedIdKind) :
    ExactCodec (@FixedId.parseHex kind) FixedId.toHex
      fun text => IsHexText 32 text ∧ text.toList ≠ List.replicate 32 '0' where
  accepts text := by
    constructor
    · rintro ⟨id, h⟩
      obtain ⟨hlength, hread⟩ := fixedId_parseHex_ok_iff.mp h
      obtain ⟨htext, -⟩ := decoded_of_length 16 hlength hread
      refine ⟨isHexText_of_toList htext id.length_eq, fun hzeros => ?_⟩
      exact id.nonzero (hexText_eq_zeros.mp (htext.symm.trans hzeros))
    · rintro ⟨htext, hzeros⟩
      obtain ⟨out, hread⟩ := htext.decodes
      obtain ⟨hout, hcount⟩ := decoded_of_length 16 htext.bytes.1 hread
      have hnonzero : out ≠ List.replicate 16 0 := by
        intro h
        rw [hout] at hzeros
        exact hzeros (hexText_eq_zeros.mpr h)
      exact ⟨⟨out, hcount, hnonzero⟩, fixedId_parseHex_ok_iff.mpr ⟨htext.bytes.1, hread⟩⟩
  canonical text id h := by
    obtain ⟨hlength, hread⟩ := fixedId_parseHex_ok_iff.mp h
    obtain ⟨htext, -⟩ := decoded_of_length 16 hlength hread
    rw [← String.ofList_toList (s := text), htext]
    rfl
  reads_back id := by
    obtain ⟨hread, hlength⟩ := decodePairs_ofList id.asBytes
    rw [id.length_eq] at hlength
    exact fixedId_parseHex_ok_iff.mpr ⟨hlength, hread⟩

/-- The first byte that is no digit is unique. -/
theorem FirstOffending.unique {bytes : List UInt8} {i j : ℕ} (hi : FirstOffending bytes i)
    (hj : FirstOffending bytes j) : i = j := by
  have hle {i j : ℕ} (hi : FirstOffending bytes i) (hj : FirstOffending bytes j) : i ≤ j := by
    by_contra hlt
    obtain ⟨⟨byte, hbyte, hbad⟩, -⟩ := hj
    obtain ⟨byte', hbyte', hgood⟩ := hi.2 j (Nat.lt_of_not_le hlt)
    rw [hbyte] at hbyte'
    cases hbyte'
    exact hbad hgood
  exact Nat.le_antisymm (hle hi hj) (hle hj hi)

/-- Bytes that are not all digits have a first that is none. -/
theorem exists_firstOffending {bytes : List UInt8} (h : ∃ byte ∈ bytes, ¬ IsHexByte byte) :
    ∃ i, FirstOffending bytes i := by
  obtain ⟨byte, hmem, hbad⟩ := h
  induction bytes with
  | nil => cases hmem
  | cons first bytes ih =>
      by_cases hfirst : IsHexByte first
      · have htail : byte ∈ bytes := by
          rcases List.mem_cons.mp hmem with rfl | htail
          · exact (hbad hfirst).elim
          · exact htail
        obtain ⟨i, hi, hbefore⟩ := ih htail
        refine ⟨i + 1, hi, fun j hj => ?_⟩
        rcases j with _ | j
        · exact ⟨first, rfl, hfirst⟩
        · exact hbefore j (by omega)
      · exact ⟨0, ⟨first, rfl, hfirst⟩, fun j hj => absurd hj (Nat.not_lt_zero j)⟩

/-- **A character is reported exactly when the text has 32 bytes and one of them is no
digit; the report is of the first.** -/
theorem fixedId_invalidHexCharacter_iff (kind : FixedIdKind) (text : String) (i : ℕ) :
    @FixedId.parseHex kind text = .error (.invalidHexCharacter i) ↔
      (utf8Bytes text).length = 32 ∧ FirstOffending (utf8Bytes text) i := by
  by_cases hlength : (utf8Bytes text).length = 32
  · simp only [FixedId.parseHex, decodeHex16, hlength, ne_eq, not_true, if_false, true_and]
    cases hread : decodePairs 0 (utf8Bytes text) with
    | error e =>
        obtain ⟨j, rfl, hj⟩ := firstOffending_of_decodePairs hread
        simp only [bind, Except.bind, Except.error.injEq, IdError.invalidHexCharacter.injEq,
          Nat.zero_add]
        constructor
        · rintro rfl
          exact hj
        · exact hj.unique
    | ok out =>
        have hdigits := eq_encode_of_decodePairs (by omega) hread
        have hnone : ¬ FirstOffending (utf8Bytes text) i := by
          rintro ⟨⟨byte, hbyte, hbad⟩, -⟩
          exact hbad (isHexByte_of_mem_encode (hdigits ▸ List.mem_of_getElem? hbyte))
        simp only [bind, Except.bind, hnone, iff_false]
        cases (FixedId.fromBytes out : Option (FixedId kind)) <;> simp
  · simp [FixedId.parseHex, decodeHex16, hlength, bind, Except.bind]

/-! ### Fingerprints -/

/-- Reading a fingerprint. -/
theorem fingerprint_parseHex_ok_iff {text : String} {fingerprint : Fingerprint} :
    Fingerprint.parseHex text = .ok fingerprint ↔
      (utf8Bytes text).length = 64 ∧
        decodePairs 0 (utf8Bytes text) = .ok fingerprint.asBytes := by
  by_cases hlength : (utf8Bytes text).length = 64
  · simp only [Fingerprint.parseHex, hlength, ne_eq, not_true, if_false, true_and,
      hexPairs_eq_toOption 0]
    cases hread : decodePairs 0 (utf8Bytes text) with
    | error e => simp [Except.toOption]
    | ok out =>
        have hcount := (decoded_of_length 32 hlength hread).2
        simp only [Except.toOption, hcount, dite_true, Except.ok.injEq]
        constructor
        · rintro rfl
          rfl
        · rintro rfl
          rfl
  · simp [Fingerprint.parseHex, hlength]

/-- **The reader of fingerprints.** -/
theorem fingerprint_exactCodec :
    ExactCodec Fingerprint.parseHex Fingerprint.toHex (IsHexText 64) where
  accepts text := by
    constructor
    · rintro ⟨fingerprint, h⟩
      obtain ⟨hlength, hread⟩ := fingerprint_parseHex_ok_iff.mp h
      obtain ⟨htext, -⟩ := decoded_of_length 32 hlength hread
      exact isHexText_of_toList htext fingerprint.length_eq
    · intro htext
      obtain ⟨out, hread⟩ := htext.decodes
      obtain ⟨-, hcount⟩ := decoded_of_length 32 htext.bytes.1 hread
      exact ⟨⟨out, hcount⟩, fingerprint_parseHex_ok_iff.mpr ⟨htext.bytes.1, hread⟩⟩
  canonical text fingerprint h := by
    obtain ⟨hlength, hread⟩ := fingerprint_parseHex_ok_iff.mp h
    obtain ⟨htext, -⟩ := decoded_of_length 32 hlength hread
    rw [← String.ofList_toList (s := text), htext]
    rfl
  reads_back fingerprint := by
    obtain ⟨hread, hlength⟩ := decodePairs_ofList fingerprint.asBytes
    rw [fingerprint.length_eq] at hlength
    exact fingerprint_parseHex_ok_iff.mpr ⟨hlength, hread⟩

/-! ### Both -/

/-- **Hexadecimal texts are exact.** The readers of identifiers and of fingerprints
accept exactly the texts of 32 digits that are not all zero and of 64 digits, and are
inverse to the renderers; in 32 bytes the first that is no digit is reported. -/
theorem hex_texts_exact :
    (∀ kind, ExactCodec (@FixedId.parseHex kind) FixedId.toHex
      fun text => IsHexText 32 text ∧ text.toList ≠ List.replicate 32 '0') ∧
    (∀ kind text, (utf8Bytes text).length = 32 → (∃ byte ∈ utf8Bytes text, ¬ IsHexByte byte) →
      ∃ i, @FixedId.parseHex kind text = .error (.invalidHexCharacter i)) ∧
    (∀ kind text i, @FixedId.parseHex kind text = .error (.invalidHexCharacter i) →
      FirstOffending (utf8Bytes text) i) ∧
    ExactCodec Fingerprint.parseHex Fingerprint.toHex (IsHexText 64) := by
  refine ⟨fixedId_exactCodec, fun kind text hlength hbad => ?_, fun kind text i h => ?_,
    fingerprint_exactCodec⟩
  · obtain ⟨i, hi⟩ := exists_firstOffending hbad
    exact ⟨i, (fixedId_invalidHexCharacter_iff kind text i).mpr ⟨hlength, hi⟩⟩
  · exact ((fixedId_invalidHexCharacter_iff kind text i).mp h).2

end ZephyrVox.Wire
