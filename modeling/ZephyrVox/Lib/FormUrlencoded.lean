import ZephyrVox.Lib.Bytes

/-!
# Form encoding of name and value pairs

The encoding `application/x-www-form-urlencoded`: a text is encoded byte by byte,
where letters, digits and four marks stand for themselves, a space is a plus sign
and every other byte is a percent sign and two digits. No encoded text contains
the separators, so pairs are read back from where the separators stand.

## Main definitions

* `serialize` — the encoding of a list of pairs.
* `parse` — the pairs of an encoded text, if its bytes are UTF-8.
* `parse_serialize` — encoded pairs are read back.
-/

namespace ZephyrVox.FormUrlencoded

/-- The bytes that stand for themselves. -/
def isUnreserved (byte : UInt8) : Bool :=
  (0x30 ≤ byte && byte ≤ 0x39) || (0x41 ≤ byte && byte ≤ 0x5a) ||
    (0x61 ≤ byte && byte ≤ 0x7a) || byte == 0x2a || byte == 0x2d || byte == 0x2e || byte == 0x5f

/-- An uppercase hexadecimal digit. -/
def hexDigit (value : UInt8) : Char := "0123456789ABCDEF".toList.getD value.toNat '0'

/-- The value of a hexadecimal digit of either case. -/
def hexValue (c : Char) : Option UInt8 :=
  if '0' ≤ c ∧ c ≤ '9' then some (UInt8.ofNat (c.toNat - 48))
  else if 'A' ≤ c ∧ c ≤ 'F' then some (UInt8.ofNat (c.toNat - 55))
  else if 'a' ≤ c ∧ c ≤ 'f' then some (UInt8.ofNat (c.toNat - 87))
  else none

/-- Encode one byte. -/
def serializeByte (byte : UInt8) : List Char :=
  if isUnreserved byte then [Char.ofNat byte.toNat]
  else if byte = 0x20 then ['+']
  else ['%', hexDigit (byte >>> 4), hexDigit (byte &&& 0x0f)]

/-- Encode a text. -/
def serializeText (text : String) : List Char :=
  (text.toList.flatMap String.utf8EncodeChar).flatMap serializeByte

/-- Encode one pair. -/
def serializePair (pair : String × String) : List Char :=
  serializeText pair.1 ++ '=' :: serializeText pair.2

/-- Encode a list of pairs. -/
def serialize (pairs : List (String × String)) : List Char :=
  ['&'].intercalate (pairs.map serializePair)

/-- The bytes that an encoded text stands for. -/
def decodeBytes : List Char → List UInt8
  | [] => []
  | c :: rest =>
      if c = '+' then 0x20 :: decodeBytes rest
      else if c = '%' then
        match rest with
        | high :: low :: rest' =>
            match hexValue high, hexValue low with
            | some h, some l => ((h <<< 4) ||| l) :: decodeBytes rest'
            | _, _ => 0x25 :: decodeBytes (high :: low :: rest')
        | rest' => 0x25 :: decodeBytes rest'
      else String.utf8EncodeChar c ++ decodeBytes rest

/-- The text that an encoded text stands for. -/
def parseText (encoded : List Char) : Option String :=
  (decodeBytes encoded).toByteArray.utf8Decode?.map fun chars => String.ofList chars.toList

/-- Read one pair: the value begins after the first equals sign. -/
def parsePair (encoded : List Char) : Option (String × String) := do
  let name ← parseText (encoded.takeWhile (· ≠ '='))
  let value ← parseText ((encoded.dropWhile (· ≠ '=')).drop 1)
  return (name, value)

/-- Read all pairs. -/
def parse (encoded : List Char) : Option (List (String × String)) :=
  ((encoded.splitOn '&').filter fun part => !part.isEmpty).mapM parsePair

/-! ## One byte -/

/-- What a byte is encoded to: a mark that is no separator, a plus sign, or two
digits after a percent sign. -/
inductive Encodes (byte : UInt8) : List Char → Prop
  | mark {c : Char} (hbyte : String.utf8EncodeChar c = [byte]) (hplus : c ≠ '+')
      (hpercent : c ≠ '%')
      (hequals : c ≠ '=') (hampersand : c ≠ '&') : Encodes byte [c]
  | space (hbyte : byte = 0x20) : Encodes byte ['+']
  | digits {high low : Char} {h l : UInt8} (hhigh : hexValue high = some h)
      (hlow : hexValue low = some l) (hjoin : (h <<< 4) ||| l = byte)
      (hequals : '=' ∉ [high, low]) (hampersand : '&' ∉ [high, low]) :
      Encodes byte ['%', high, low]

/-- A digit is read back, and is no separator. -/
theorem hexValue_hexDigit {value : UInt8} (h : value.toNat < 16) :
    hexValue (hexDigit value) = some value ∧ hexDigit value ≠ '=' ∧ hexDigit value ≠ '&' := by
  have hdigit : ∀ n < 16, hexValue (hexDigit (UInt8.ofNat n)) = some (UInt8.ofNat n) ∧
      hexDigit (UInt8.ofNat n) ≠ '=' ∧ hexDigit (UInt8.ofNat n) ≠ '&' := by
    decide +kernel
  have hvalue := hdigit value.toNat h
  rwa [UInt8.ofNat_toNat] at hvalue

/-- A byte that stands for itself is a mark. -/
theorem utf8EncodeChar_of_isUnreserved {byte : UInt8} (h : isUnreserved byte = true) :
    String.utf8EncodeChar (Char.ofNat byte.toNat) = [byte] ∧ Char.ofNat byte.toNat ≠ '+' ∧
      Char.ofNat byte.toNat ≠ '%' ∧ Char.ofNat byte.toNat ≠ '=' ∧
      Char.ofNat byte.toNat ≠ '&' := by
  have hmark : ∀ n < 256, isUnreserved (UInt8.ofNat n) = true →
      String.utf8EncodeChar (Char.ofNat n) = [UInt8.ofNat n] ∧ Char.ofNat n ≠ '+' ∧
        Char.ofNat n ≠ '%' ∧ Char.ofNat n ≠ '=' ∧ Char.ofNat n ≠ '&' := by
    decide +kernel
  have hbyte := hmark byte.toNat byte.toNat_lt
  rw [UInt8.ofNat_toNat] at hbyte
  exact hbyte h

theorem encodes_serializeByte (byte : UInt8) : Encodes byte (serializeByte byte) := by
  rw [serializeByte]
  split
  · rename_i hunreserved
    obtain ⟨hbyte, hplus, hpercent, hequals, hampersand⟩ :=
      utf8EncodeChar_of_isUnreserved hunreserved
    exact .mark hbyte hplus hpercent hequals hampersand
  · split
    · rename_i hspace
      exact .space hspace
    · obtain ⟨hhigh, hlow⟩ := Bytes.halves_lt byte
      obtain ⟨hreadHigh, hequalsHigh, hampersandHigh⟩ := hexValue_hexDigit hhigh
      obtain ⟨hreadLow, hequalsLow, hampersandLow⟩ := hexValue_hexDigit hlow
      refine .digits hreadHigh hreadLow (Bytes.join_halves byte) ?_ ?_
      · simp [hequalsHigh.symm, hequalsLow.symm]
      · simp [hampersandHigh.symm, hampersandLow.symm]

/-- An encoded byte is read back. -/
theorem Encodes.decodeBytes {byte : UInt8} {encoded : List Char} (h : Encodes byte encoded)
    (rest : List Char) :
    FormUrlencoded.decodeBytes (encoded ++ rest) = byte :: FormUrlencoded.decodeBytes rest := by
  cases h with
  | mark hbyte hplus hpercent _ _ =>
      rw [List.singleton_append, FormUrlencoded.decodeBytes.eq_def]
      simp [hplus, hpercent, hbyte]
  | space hbyte =>
      rw [List.singleton_append, FormUrlencoded.decodeBytes.eq_def]
      simp [hbyte]
  | digits hhigh hlow hjoin _ _ => simp [FormUrlencoded.decodeBytes, hhigh, hlow, hjoin]

/-- An encoded byte contains no separator. -/
theorem Encodes.separators {byte : UInt8} {encoded : List Char} (h : Encodes byte encoded) :
    '=' ∉ encoded ∧ '&' ∉ encoded := by
  cases h with
  | mark _ _ _ hequals hampersand => simp [hequals.symm, hampersand.symm]
  | space _ => decide
  | digits _ _ _ hequals hampersand =>
      exact ⟨by simpa using hequals, by simpa using hampersand⟩

/-! ## Texts and pairs -/

theorem decodeBytes_flatMap (bytes : List UInt8) :
    decodeBytes (bytes.flatMap serializeByte) = bytes := by
  induction bytes with
  | nil => rfl
  | cons byte bytes ih => rw [List.flatMap_cons, (encodes_serializeByte byte).decodeBytes, ih]

/-- **An encoded text is read back.** -/
theorem parseText_serializeText (text : String) : parseText (serializeText text) = some text := by
  have hbytes : (text.toList.flatMap String.utf8EncodeChar).toByteArray =
      text.toList.utf8Encode := rfl
  rw [parseText, serializeText, decodeBytes_flatMap, hbytes, List.utf8Decode?_utf8Encode]
  simp

theorem separators_serializeText (text : String) :
    '=' ∉ serializeText text ∧ '&' ∉ serializeText text := by
  constructor
  · intro hmem
    obtain ⟨byte, -, hbyte⟩ := List.mem_flatMap.mp hmem
    exact (encodes_serializeByte byte).separators.1 hbyte
  · intro hmem
    obtain ⟨byte, -, hbyte⟩ := List.mem_flatMap.mp hmem
    exact (encodes_serializeByte byte).separators.2 hbyte

/-- A text up to a separator that it does not contain. -/
theorem takeWhile_ne {separator : Char} {text rest : List Char} (h : separator ∉ text) :
    (text ++ separator :: rest).takeWhile (· ≠ separator) = text := by
  have htext : ∀ c ∈ text, decide (c ≠ separator) = true := by
    intro c hc
    simp only [decide_eq_true_eq]
    rintro rfl
    exact h hc
  rw [List.takeWhile_append_of_pos htext]
  simp

/-- What stands after a text and a separator that it does not contain. -/
theorem dropWhile_ne {separator : Char} {text rest : List Char} (h : separator ∉ text) :
    (text ++ separator :: rest).dropWhile (· ≠ separator) = separator :: rest := by
  have htext : ∀ c ∈ text, decide (c ≠ separator) = true := by
    intro c hc
    simp only [decide_eq_true_eq]
    rintro rfl
    exact h hc
  rw [List.dropWhile_append_of_pos htext]
  simp

/-- **An encoded pair is read back.** -/
theorem parsePair_serializePair (pair : String × String) :
    parsePair (serializePair pair) = some pair := by
  have hname := (separators_serializeText pair.1).1
  rw [parsePair, serializePair, takeWhile_ne hname, dropWhile_ne hname]
  simp [parseText_serializeText]

/-- **Encoded pairs are read back.** -/
theorem parse_serialize (pairs : List (String × String)) :
    parse (serialize pairs) = some pairs := by
  have hparts : ∀ part ∈ pairs.map serializePair, '&' ∉ part := by
    intro part hpart
    obtain ⟨pair, -, rfl⟩ := List.mem_map.mp hpart
    simp [serializePair, separators_serializeText]
  have hread : (pairs.map serializePair).mapM parsePair = some pairs := by
    induction pairs with
    | nil => rfl
    | cons pair pairs ih =>
        rw [List.map_cons, List.mapM_cons, parsePair_serializePair,
          ih fun part hpart => hparts part (List.mem_cons_of_mem _ hpart)]
        rfl
  cases pairs with
  | nil => rfl
  | cons pair pairs =>
      have hkept : ((pair :: pairs).map serializePair).filter (fun part => !part.isEmpty) =
          (pair :: pairs).map serializePair := by
        rw [List.filter_eq_self]
        intro part hpart
        obtain ⟨p, -, rfl⟩ := List.mem_map.mp hpart
        simp [serializePair]
      rw [parse, serialize, List.splitOn_intercalate _ hparts (by simp), hkept, hread]

end ZephyrVox.FormUrlencoded
