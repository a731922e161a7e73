import ZephyrVox.Lib.Der
import ZephyrVox.Lib.FixedWidth

/-!
# The certificate pin

A pinned server is recognised by the hash of the SubjectPublicKeyInfo of its
certificate. It is found by a walk over the elements of the certificate, which comes
from the peer: the walk must neither overflow nor leave the bytes it was given,
whatever they are.

## Main definitions

* `BoundedBytes` — bytes as they are in memory, at most `isize::MAX` of them.
* `readTlv`, `spkiSha256` — the walk.
* `CertificateShape` — a certificate, as far as the walk looks at it.
* `readTlv_safe`, `spkiSha256_safe` — the walk on any bytes.
* `spkiSha256_shape` — the walk on a certificate.
-/

namespace ZephyrVox.Http

open Bytes Der FixedWidth

/-- The most bytes one allocation holds: `isize::MAX`. -/
def maxSliceLength : ℕ := 2 ^ 63 - 1

/-- Bytes in memory. -/
structure BoundedBytes where
  bytes : List UInt8
  length_le : bytes.length ≤ maxSliceLength

/-- The length in long form. -/
def longLength (octets : List UInt8) : Option ℕ :=
  octets.foldlM (fun length byte => do
    let shifted ← checkedShl 64 length 8
    checkedAdd 64 shifted byte.toNat) 0

/-- The length of the element at `offset`, and the start of its content. -/
def readLength (input : List UInt8) (offset : ℕ) (lengthByte : UInt8) : Outcome (ℕ × ℕ) :=
  if lengthByte &&& 0x80 = 0 then do
    let contentStart ← .orPanic (checkedAdd 64 offset 2)
    return (lengthByte.toNat, contentStart)
  else
    let lengthBytes := (lengthByte &&& 0x7f).toNat
    if lengthBytes = 0 ∨ 8 < lengthBytes then .returns none
    else do
      let first ← .orPanic (checkedAdd 64 offset 2)
      let contentStart ← .orPanic (checkedAdd 64 first lengthBytes)
      let octets ← .orNothing (slice input first contentStart)
      let length ← .orNothing (longLength octets)
      return (length, contentStart)

/-- The tag, the start of the content, its end, and the start of what follows. -/
def readTlv (input : List UInt8) (offset : ℕ) : Outcome (UInt8 × ℕ × ℕ × ℕ) := do
  let tag ← .orNothing (byteAt input offset)
  let second ← .orPanic (checkedAdd 64 offset 1)
  let lengthByte ← .orNothing (byteAt input second)
  let (length, contentStart) ← readLength input offset lengthByte
  let contentEnd ← .orNothing (checkedAdd 64 contentStart length)
  if input.length < contentEnd then .returns none
  else return (tag, contentStart, contentEnd, contentEnd)

/-- The start of what follows the optional version. -/
def skipVersion (tbs : List UInt8) : Outcome ℕ := do
  let (tag, _, _, _) ← readTlv tbs 0
  if tag = 0xa0 then do
    let (_, _, _, next) ← readTlv tbs 0
    return next
  else return 0

/-- The start of what follows `count` elements. -/
def skipElements (input : List UInt8) : ℕ → ℕ → Outcome ℕ
  | 0, offset => pure offset
  | count + 1, offset => do
      let (_, _, _, next) ← readTlv input offset
      skipElements input count next

/-- The hash of the SubjectPublicKeyInfo of a certificate. -/
def spkiSha256 {D : Type} (sha256 : List UInt8 → D) (certificate : BoundedBytes) : Outcome D := do
  let (tag, certificateStart, certificateEnd, certificateNext) ← readTlv certificate.bytes 0
  if tag ≠ 0x30 ∨ certificateNext ≠ certificate.bytes.length then .returns none
  else do
    let inner ← .orPanic (slice certificate.bytes certificateStart certificateEnd)
    let (tag, tbsStart, tbsEnd, _) ← readTlv inner 0
    if tag ≠ 0x30 then .returns none
    else do
      let first ← .orPanic (checkedAdd 64 certificateStart tbsStart)
      let last ← .orPanic (checkedAdd 64 certificateStart tbsEnd)
      let tbs ← .orPanic (slice certificate.bytes first last)
      let offset ← skipVersion tbs
      let offset ← skipElements tbs 5 offset
      let (_, _, _, spkiNext) ← readTlv tbs offset
      let spki ← .orPanic (slice tbs offset spkiNext)
      pure (sha256 spki)

/-! ## The walk on any bytes -/

/-- The top bit of a byte and the rest of it. -/
theorem lengthByte_cases (byte : UInt8) :
    (byte &&& 0x80 = 0 ∧ byte.toNat < 128) ∨
      (byte &&& 0x80 ≠ 0 ∧ byte.toNat = 128 + (byte &&& 0x7f).toNat) := by
  have hall : ∀ n < 256, (UInt8.ofNat n &&& 0x80 = 0 ∧ n < 128) ∨
      (UInt8.ofNat n &&& 0x80 ≠ 0 ∧ n = 128 + (UInt8.ofNat n &&& 0x7f).toNat) := by
    decide +kernel
  have hbyte := hall byte.toNat byte.toNat_lt
  rwa [UInt8.ofNat_toNat] at hbyte

theorem safe_orPanic_add {a b : ℕ} (h : a + b < 2 ^ 64) :
    Outcome.Safe (· = a + b) (.orPanic (checkedAdd 64 a b)) := by
  rw [checkedAdd_eq_some h]
  exact .value rfl

theorem safe_orPanic_slice {bytes : List UInt8} {start stop : ℕ} (h : start ≤ stop)
    (hstop : stop ≤ bytes.length) :
    Outcome.Safe (fun part : List UInt8 => part.length = stop - start)
      (.orPanic (slice bytes start stop)) := by
  rw [slice_eq_some h hstop]
  refine .value ?_
  rw [List.length_take, List.length_drop]
  omega

/-- What an element found at `offset` is known to be. -/
structure Located (input : List UInt8) (offset : ℕ) (found : UInt8 × ℕ × ℕ × ℕ) : Prop where
  start : offset ≤ found.2.1
  stop : found.2.1 ≤ found.2.2.1
  next : found.2.2.2 = found.2.2.1
  contained : found.2.2.1 ≤ input.length
  inside : found.2.2.2 ≤ input.length

theorem safe_readLength {input : List UInt8} {offset : ℕ} (h : offset + 16 < 2 ^ 64)
    (lengthByte : UInt8) :
    Outcome.Safe (fun found : ℕ × ℕ => offset ≤ found.2) (readLength input offset lengthByte) := by
  unfold readLength
  split
  · refine .bind (safe_orPanic_add (by omega)) fun contentStart hstart => ?_
    exact .value (by simp only [hstart]; omega)
  · dsimp only
    split
    · exact .nothing _
    · refine .bind (safe_orPanic_add (by omega)) fun first hfirst => ?_
      subst hfirst
      refine .bind (safe_orPanic_add (by omega)) fun contentStart hstart => ?_
      refine .bind (P := fun _ => True) (.orNothing fun _ _ => trivial) fun octets _ => ?_
      refine .bind (P := fun _ => True) (.orNothing fun _ _ => trivial) fun length _ => ?_
      exact .value (by simp only [hstart]; omega)

/-- **Reading an element is safe** anywhere in the bytes, and stays inside. -/
theorem readTlv_safe {input : List UInt8} (hinput : input.length ≤ maxSliceLength) {offset : ℕ}
    (hoffset : offset ≤ input.length) :
    Outcome.Safe (Located input offset) (readTlv input offset) := by
  have hroom : offset + 16 < 2 ^ 64 := by
    rw [maxSliceLength] at hinput
    omega
  refine .bind (P := fun _ => True) (.orNothing fun _ _ => trivial) fun tag _ => ?_
  refine .bind (safe_orPanic_add (by omega)) fun second _ => ?_
  refine .bind (P := fun _ => True) (.orNothing fun _ _ => trivial) fun lengthByte _ => ?_
  refine .bind (safe_readLength hroom lengthByte) fun found hstart => ?_
  obtain ⟨length, contentStart⟩ := found
  refine .bind (P := fun n => contentStart ≤ n) (.orNothing fun n hn => ?_) fun stop hstop => ?_
  · rw [checkedAdd, Option.mem_def, Option.ite_none_right_eq_some] at hn
    cases hn.2
    exact Nat.le_add_right _ _
  · split
    · exact .nothing _
    next hle => exact .value ⟨hstart, hstop, rfl, Nat.le_of_not_lt hle, Nat.le_of_not_lt hle⟩

theorem skipVersion_safe {tbs : List UInt8} (htbs : tbs.length ≤ maxSliceLength) :
    Outcome.Safe (· ≤ tbs.length) (skipVersion tbs) := by
  have hread := readTlv_safe htbs (Nat.zero_le _)
  refine .bind hread fun found _ => ?_
  obtain ⟨tag, start, stop, next⟩ := found
  dsimp only
  split
  · refine .bind hread fun found hfound => ?_
    exact .value hfound.inside
  · exact .value (Nat.zero_le _)

theorem skipElements_safe {input : List UInt8} (hinput : input.length ≤ maxSliceLength)
    (count : ℕ) {offset : ℕ} (hoffset : offset ≤ input.length) :
    Outcome.Safe (· ≤ input.length) (skipElements input count offset) := by
  induction count generalizing offset with
  | zero => exact .value hoffset
  | succ count ih =>
      refine .bind (readTlv_safe hinput hoffset) fun found hfound => ?_
      exact ih hfound.inside

/-- **The walk is safe on any bytes.** -/
theorem spkiSha256_safe {D : Type} (sha256 : List UInt8 → D) (certificate : BoundedBytes) :
    Outcome.Safe (fun _ => True) (spkiSha256 sha256 certificate) := by
  have hmax := certificate.length_le
  refine .bind (readTlv_safe hmax (Nat.zero_le _)) fun outer houter => ?_
  obtain ⟨tag, certificateStart, certificateEnd, certificateNext⟩ := outer
  have hcertificate : certificateEnd ≤ certificate.bytes.length := houter.contained
  have hstop : certificateStart ≤ certificateEnd := houter.stop
  dsimp only
  split
  · exact .nothing _
  refine .bind (safe_orPanic_slice hstop hcertificate) fun inner hinner => ?_
  refine .bind (readTlv_safe (by omega) (Nat.zero_le _)) fun sequence hsequence => ?_
  obtain ⟨tag', tbsStart, tbsEnd, tbsNext⟩ := sequence
  have htbs : tbsEnd ≤ inner.length := hsequence.contained
  have htbsStop : tbsStart ≤ tbsEnd := hsequence.stop
  dsimp only
  split
  · exact .nothing _
  have hroom : certificateStart + tbsEnd < 2 ^ 64 := by
    rw [maxSliceLength] at hmax
    omega
  refine .bind (safe_orPanic_add (by omega)) fun first hfirst => ?_
  refine .bind (safe_orPanic_add hroom) fun last hlast => ?_
  refine .bind (safe_orPanic_slice (by omega) (by omega)) fun tbs hlength => ?_
  have htbsMax : tbs.length ≤ maxSliceLength := by omega
  refine .bind (skipVersion_safe htbsMax) fun offset hoffset => ?_
  refine .bind (skipElements_safe htbsMax 5 hoffset) fun offset hoffset => ?_
  refine .bind (readTlv_safe htbsMax hoffset) fun spki hspki => ?_
  obtain ⟨_, spkiStart, spkiEnd, spkiNext⟩ := spki
  have hspkiNext : offset ≤ spkiNext :=
    (hspki.start.trans hspki.stop).trans (Nat.le_of_eq hspki.next.symm)
  refine .bind (safe_orPanic_slice hspkiNext hspki.inside) fun part _ => ?_
  exact .value trivial

/-! ## The walk on a certificate -/

/-- The octets of a length are read as the length. -/
theorem longLength_eq {octets : List UInt8} (h : octets.length ≤ 8) :
    longLength octets = some (ofBeBytes octets) := by
  induction octets using List.reverseRecOn with
  | nil => rfl
  | append_singleton octets byte ih =>
      rw [List.length_append, List.length_singleton] at h
      have hpower : 256 ^ octets.length ≤ 256 ^ 7 := Nat.pow_le_pow_right (by omega) (by omega)
      have hprefix : ofBeBytes octets < 2 ^ 56 :=
        Nat.lt_of_lt_of_le (ofBeBytes_lt octets) (hpower.trans_eq (by norm_num))
      have hbyte := byte.toNat_lt
      have hshift : checkedShl 64 (ofBeBytes octets) 8 = some (ofBeBytes octets * 2 ^ 8) :=
        checkedShl_eq_some (by omega) (by omega)
      have hadd : checkedAdd 64 (ofBeBytes octets * 2 ^ 8) byte.toNat =
          some (ofBeBytes octets * 2 ^ 8 + byte.toNat) := checkedAdd_eq_some (by omega)
      have hinit := ih (by omega)
      rw [longLength] at hinit
      rw [longLength, List.foldlM_append, hinit, ofBeBytes_concat]
      simp only [Option.bind_eq_bind, Option.bind_some, List.foldlM_cons, List.foldlM_nil, hshift,
        hadd, Option.pure_def]
      rfl

/-- A byte of what is left after `offset`. -/
theorem byteAt_of_drop {input part : List UInt8} {offset : ℕ} (h : input.drop offset = part)
    (i : ℕ) : byteAt input (offset + i) = part[i]? := by
  rw [byteAt, ← h, List.getElem?_drop]

/-- A slice of what is left after `offset`. -/
theorem slice_of_drop {input part rest : List UInt8} {offset : ℕ}
    (h : input.drop offset = part ++ rest) (hoffset : offset ≤ input.length) :
    slice input offset (offset + part.length) = some part := by
  have hlength := congrArg List.length h
  rw [List.length_drop, List.length_append] at hlength
  rw [slice_eq_some (Nat.le_add_right _ _) (by omega), Nat.add_sub_cancel_left, h,
    List.take_left]

/-- The octets of a length, within some bytes. -/
theorem readLength_eq {octets rest : List UInt8} {n : ℕ} (h : IsLength octets n)
    {input : List UInt8} {offset : ℕ} (hroom : offset + 16 < 2 ^ 64)
    (hinput : input.drop (offset + 1) = octets ++ rest) :
    ∃ lengthByte, byteAt input (offset + 1) = some lengthByte ∧
      readLength input offset lengthByte =
        .returns (some (n, offset + 1 + octets.length)) := by
  cases h with
  | short octet hlow =>
      refine ⟨octet, byteAt_of_drop hinput 0, ?_⟩
      obtain ⟨hbit, -⟩ | ⟨-, hhigh⟩ := lengthByte_cases octet
      · rw [readLength, if_pos hbit, checkedAdd_eq_some (by omega)]
        rfl
      · omega
  | long count octets hcount hpos hle =>
      refine ⟨count, byteAt_of_drop hinput 0, ?_⟩
      obtain ⟨-, hlow⟩ | ⟨hbit, hhigh⟩ := lengthByte_cases count
      · omega
      have hbytes : (count &&& 0x7f).toNat = octets.length := by omega
      have hcontent : input.drop (offset + 2) = octets ++ rest := by
        have hdrop := congrArg (List.drop 1) hinput
        rwa [List.drop_drop] at hdrop
      have hlength := congrArg List.length hcontent
      rw [List.length_drop, List.length_append] at hlength
      have hslice := slice_of_drop hcontent (by omega)
      rw [readLength, if_neg hbit]
      dsimp only
      rw [hbytes, if_neg (by omega), checkedAdd_eq_some (by omega), Outcome.orPanic_some,
        Outcome.returns_some_bind, checkedAdd_eq_some (by omega), Outcome.orPanic_some,
        Outcome.returns_some_bind, hslice, Outcome.orNothing_some, Outcome.returns_some_bind,
        longLength_eq hle, Outcome.orNothing_some, Outcome.returns_some_bind, List.length_cons,
        Outcome.pure_eq]
      congr 3
      omega

/-- **An element is read where it stands.** -/
theorem readTlv_eq {input rest : List UInt8} {e : Element}
    (hmax : input.length ≤ maxSliceLength) (offset : ℕ)
    (hinput : input.drop offset = e.bytes ++ rest) :
    readTlv input offset = .returns (some (e.tag, offset + e.header.length,
      offset + e.bytes.length, offset + e.bytes.length)) := by
  have hlength := congrArg List.length hinput
  rw [List.length_drop, List.length_append, e.length_bytes, e.length_header] at hlength
  have hroom : input.length + 16 < 2 ^ 64 := by
    rw [maxSliceLength] at hmax
    omega
  have htail : input.drop (offset + 1) = e.octets ++ (e.content ++ rest) := by
    have hdrop := congrArg (List.drop 1) hinput
    rw [List.drop_drop] at hdrop
    rw [hdrop, Element.bytes, Element.header, List.cons_append, List.cons_append, List.drop_one,
      List.tail_cons, List.append_assoc]
  obtain ⟨lengthByte, hbyte, hread⟩ := readLength_eq e.isLength (by omega) htail
  have htag : byteAt input offset = some e.tag := byteAt_of_drop hinput 0
  rw [readTlv, htag, Outcome.orNothing_some, Outcome.returns_some_bind,
    checkedAdd_eq_some (by omega), Outcome.orPanic_some, Outcome.returns_some_bind, hbyte,
    Outcome.orNothing_some, Outcome.returns_some_bind, hread, Outcome.returns_some_bind]
  have hinside : ¬ input.length < offset + 1 + e.octets.length + e.content.length := by omega
  have hstart : offset + 1 + e.octets.length = offset + (e.octets.length + 1) := by omega
  have hstop : offset + 1 + e.octets.length + e.content.length =
      offset + (e.octets.length + 1 + e.content.length) := by omega
  dsimp only
  rw [checkedAdd_eq_some (by omega), Outcome.orNothing_some, Outcome.returns_some_bind,
    if_neg hinside, e.length_bytes, e.length_header, Outcome.pure_eq, hstop, hstart]

/-- Elements are skipped one after the other. -/
theorem skipElements_eq {input rest : List UInt8} (hmax : input.length ≤ maxSliceLength)
    (elements : List Element) {offset : ℕ}
    (hinput : input.drop offset = elements.flatMap Element.bytes ++ rest) :
    skipElements input elements.length offset =
      .returns (some (offset + (elements.flatMap Element.bytes).length)) := by
  induction elements generalizing offset with
  | nil => rfl
  | cons e elements ih =>
      rw [List.flatMap_cons, List.append_assoc] at hinput
      have hnext : input.drop (offset + e.bytes.length) =
          elements.flatMap Element.bytes ++ rest := by
        rw [← List.drop_drop, hinput, List.drop_left]
      rw [List.length_cons, skipElements, readTlv_eq hmax offset hinput, Outcome.returns_some_bind]
      dsimp only
      rw [ih hnext, List.flatMap_cons, List.length_append, Nat.add_assoc]

/-- A certificate: a sequence that begins with a sequence of an optional version, five
fields, the key, and whatever follows. -/
structure CertificateShape where
  /-- The sequence that is the whole certificate. -/
  outer : Element
  /-- The certificate that is signed. -/
  tbs : Element
  version : Option Element
  fields : List Element
  subjectPublicKeyInfo : Element
  further : List Element
  /-- What follows the signed certificate. -/
  signature : List UInt8
  outer_tag : outer.tag = 0x30
  outer_content : outer.content = tbs.bytes ++ signature
  tbs_tag : tbs.tag = 0x30
  tbs_content : tbs.content = version.toList.flatMap Element.bytes ++
    (fields.flatMap Element.bytes ++
      (subjectPublicKeyInfo.bytes ++ further.flatMap Element.bytes))
  version_tag : ∀ e ∈ version, e.tag = 0xa0
  fields_length : fields.length = 5
  fields_tag : ∀ e ∈ fields.head?, e.tag ≠ 0xa0

namespace CertificateShape

/-- The version is skipped, if there is one. -/
theorem skipVersion_eq (c : CertificateShape) (hmax : c.tbs.content.length ≤ maxSliceLength) :
    skipVersion c.tbs.content =
      .returns (some (c.version.toList.flatMap Element.bytes).length) := by
  have hcontent := c.tbs_content
  cases hversion : c.version with
  | some e =>
      rw [hversion, Option.toList_some, List.flatMap_cons, List.flatMap_nil, List.append_nil]
        at hcontent
      have hread := readTlv_eq hmax 0 hcontent
      rw [skipVersion, hread, Outcome.returns_some_bind]
      dsimp only
      rw [if_pos (c.version_tag e hversion), Outcome.returns_some_bind]
      simp
  | none =>
      obtain ⟨first, fields, hfields⟩ : ∃ first fields, c.fields = first :: fields := by
        cases hfields : c.fields with
        | nil =>
            have hlength := c.fields_length
            rw [hfields] at hlength
            cases hlength
        | cons first fields => exact ⟨first, fields, rfl⟩
      have htag : first.tag ≠ 0xa0 := c.fields_tag first (by rw [hfields]; rfl)
      rw [hversion, hfields, Option.toList_none, List.flatMap_nil, List.nil_append,
        List.flatMap_cons, List.append_assoc] at hcontent
      have hread := readTlv_eq hmax 0 hcontent
      rw [skipVersion, hread, Outcome.returns_some_bind]
      dsimp only
      rw [if_neg htag]
      rfl

/-- After the version and the fields comes the key. -/
theorem find_key (c : CertificateShape) (hmax : c.tbs.content.length ≤ maxSliceLength) :
    ∃ versionEnd offset,
      skipVersion c.tbs.content = .returns (some versionEnd) ∧
      skipElements c.tbs.content 5 versionEnd = .returns (some offset) ∧
      offset ≤ c.tbs.content.length ∧
      c.tbs.content.drop offset =
        c.subjectPublicKeyInfo.bytes ++ c.further.flatMap Element.bytes := by
  have hversion := c.skipVersion_eq hmax
  have hfields : c.tbs.content.drop (c.version.toList.flatMap Element.bytes).length =
      c.fields.flatMap Element.bytes ++
        (c.subjectPublicKeyInfo.bytes ++ c.further.flatMap Element.bytes) := by
    rw [c.tbs_content, List.drop_left]
  have hskip := skipElements_eq hmax c.fields hfields
  rw [c.fields_length] at hskip
  refine ⟨_, _, hversion, hskip, ?_, ?_⟩
  · rw [c.tbs_content, List.length_append, List.length_append]
    omega
  · rw [← List.drop_drop, hfields, List.drop_left]

/-- **The walk finds the key of a certificate.** -/
theorem spkiSha256_eq {D : Type} (sha256 : List UInt8 → D) (c : CertificateShape)
    (certificate : BoundedBytes) (h : certificate.bytes = c.outer.bytes) :
    spkiSha256 sha256 certificate =
      .returns (some (sha256 c.subjectPublicKeyInfo.bytes)) := by
  have hmax := certificate.length_le
  have hlength : certificate.bytes.length =
      c.outer.header.length +
        (c.tbs.header.length + c.tbs.content.length + c.signature.length) := by
    rw [h, c.outer.length_bytes, c.outer_content, List.length_append, c.tbs.length_bytes]
  -- the certificate, its first element, and the content of that
  have houter : readTlv certificate.bytes 0 = .returns (some (c.outer.tag, c.outer.header.length,
      c.outer.bytes.length, c.outer.bytes.length)) := by
    have hwhole : certificate.bytes.drop 0 = c.outer.bytes ++ [] := by
      rw [List.drop_zero, h, List.append_nil]
    simpa only [Nat.zero_add] using readTlv_eq hmax 0 hwhole
  have hinner : slice certificate.bytes c.outer.header.length c.outer.bytes.length =
      some c.outer.content := by
    have hdrop : certificate.bytes.drop c.outer.header.length = c.outer.content ++ [] := by
      rw [h, Element.bytes, List.drop_left, List.append_nil]
    rw [c.outer.length_bytes]
    exact slice_of_drop hdrop (by omega)
  have htbs : readTlv c.outer.content 0 = .returns (some (c.tbs.tag, c.tbs.header.length,
      c.tbs.bytes.length, c.tbs.bytes.length)) := by
    have hcontent : c.outer.content.length ≤ maxSliceLength := by
      rw [c.outer_content, List.length_append, c.tbs.length_bytes]
      omega
    have hread := readTlv_eq hcontent 0 c.outer_content
    simpa only [Nat.zero_add] using hread
  have hcontent : slice certificate.bytes (c.outer.header.length + c.tbs.header.length)
      (c.outer.header.length + c.tbs.bytes.length) = some c.tbs.content := by
    have hdrop : certificate.bytes.drop (c.outer.header.length + c.tbs.header.length) =
        c.tbs.content ++ c.signature := by
      rw [← List.drop_drop, h, Element.bytes, List.drop_left, c.outer_content, Element.bytes,
        List.append_assoc, List.drop_left]
    rw [c.tbs.length_bytes, ← Nat.add_assoc]
    exact slice_of_drop hdrop (by omega)
  have htbsMax : c.tbs.content.length ≤ maxSliceLength := by omega
  obtain ⟨versionEnd, offset, hversion, hfields, hoffset, hkey⟩ := c.find_key htbsMax
  have hspki := slice_of_drop hkey hoffset
  have hroom : certificate.bytes.length < 2 ^ 64 := by
    rw [maxSliceLength] at hmax
    omega
  have hstop : c.outer.header.length + c.tbs.bytes.length ≤ certificate.bytes.length := by
    rw [c.tbs.length_bytes]
    omega
  have htags : ¬ (c.outer.tag ≠ 0x30 ∨ c.outer.bytes.length ≠ certificate.bytes.length) := by
    rw [h, c.outer_tag]
    simp
  have htag : ¬ c.tbs.tag ≠ 0x30 := not_not.mpr c.tbs_tag
  rw [spkiSha256, houter, Outcome.returns_some_bind]
  dsimp only
  rw [if_neg htags, hinner, Outcome.orPanic_some, Outcome.returns_some_bind, htbs,
    Outcome.returns_some_bind]
  dsimp only
  rw [if_neg htag, checkedAdd_eq_some (by omega), Outcome.orPanic_some,
    Outcome.returns_some_bind, checkedAdd_eq_some (by omega), Outcome.orPanic_some,
    Outcome.returns_some_bind, hcontent, Outcome.orPanic_some, Outcome.returns_some_bind, hversion,
    Outcome.returns_some_bind, hfields, Outcome.returns_some_bind, readTlv_eq htbsMax offset hkey,
    Outcome.returns_some_bind]
  dsimp only
  rw [hspki, Outcome.orPanic_some, Outcome.returns_some_bind, Outcome.pure_eq]

end CertificateShape

end ZephyrVox.Http
