import ZephyrVox.Http.TlsPin

/-!
# The certificate pin of control connections

The WebSocket connector has its own copy of the walk that finds the
SubjectPublicKeyInfo of a certificate. Both copies agree on every byte string.

## Main definitions

* `readTlv`, `spkiSha256` — the walk of the connector.
* `pin_hashes_key` — both walks hash exactly the key, and neither panics.
-/

namespace ZephyrVox.Realtime

open Bytes FixedWidth
open Http (BoundedBytes CertificateShape)

/-- The length in long form. -/
def longLength (octets : List UInt8) : Option ℕ :=
  octets.foldlM (fun length byte => do
    let shifted ← checkedShl 64 length 8
    checkedAdd 64 shifted byte.toNat) 0

/-- The length of the element at `offset`, and the start of its content. -/
def readLength (input : List UInt8) (offset : ℕ) (lengthByte : UInt8) : Outcome (ℕ × ℕ) :=
  if lengthByte &&& 0x80 = 0 then do
    let contentStart ← .orPanic (checkedAdd 64 offset 2)
    return (lengthByte.toNat, contentStart)
  else
    let lengthBytes := (lengthByte &&& 0x7f).toNat
    if lengthBytes = 0 ∨ 8 < lengthBytes then .returns none
    else do
      let first ← .orPanic (checkedAdd 64 offset 2)
      let contentStart ← .orPanic (checkedAdd 64 first lengthBytes)
      let octets ← .orNothing (slice input first contentStart)
      let length ← .orNothing (longLength octets)
      return (length, contentStart)

/-- One definite-length element: its tag, the start of its content, its end, and the
start of what follows. -/
def readTlv (input : List UInt8) (offset : ℕ) : Outcome (UInt8 × ℕ × ℕ × ℕ) := do
  let tag ← .orNothing (byteAt input offset)
  let second ← .orPanic (checkedAdd 64 offset 1)
  let lengthByte ← .orNothing (byteAt input second)
  let (length, contentStart) ← readLength input offset lengthByte
  let contentEnd ← .orNothing (checkedAdd 64 contentStart length)
  if input.length < contentEnd then .returns none
  else return (tag, contentStart, contentEnd, contentEnd)

/-- The start of what follows the optional version. -/
def skipVersion (tbs : List UInt8) : Outcome ℕ := do
  let (tag, _, _, _) ← readTlv tbs 0
  if tag = 0xa0 then do
    let (_, _, _, next) ← readTlv tbs 0
    return next
  else return 0

/-- The start of what follows `count` elements. -/
def skipElements (input : List UInt8) : ℕ → ℕ → Outcome ℕ
  | 0, offset => pure offset
  | count + 1, offset => do
      let (_, _, _, next) ← readTlv input offset
      skipElements input count next

/-- Extract the SubjectPublicKeyInfo of a certificate and hash it. -/
def spkiSha256 {D : Type} (sha256 : List UInt8 → D) (certificate : BoundedBytes) : Outcome D := do
  let (tag, certificateStart, certificateEnd, certificateNext) ← readTlv certificate.bytes 0
  if tag ≠ 0x30 ∨ certificateNext ≠ certificate.bytes.length then .returns none
  else do
    let inner ← .orPanic (slice certificate.bytes certificateStart certificateEnd)
    let (tag, tbsStart, tbsEnd, _) ← readTlv inner 0
    if tag ≠ 0x30 then .returns none
    else do
      let first ← .orPanic (checkedAdd 64 certificateStart tbsStart)
      let last ← .orPanic (checkedAdd 64 certificateStart tbsEnd)
      let tbs ← .orPanic (slice certificate.bytes first last)
      let offset ← skipVersion tbs
      let offset ← skipElements tbs 5 offset
      let (_, _, _, spkiNext) ← readTlv tbs offset
      let spki ← .orPanic (slice tbs offset spkiNext)
      pure (sha256 spki)

/-! ## The two copies -/

theorem readTlv_eq_http (input : List UInt8) (offset : ℕ) :
    readTlv input offset = Http.readTlv input offset := rfl

theorem skipElements_eq_http (input : List UInt8) (count offset : ℕ) :
    skipElements input count offset = Http.skipElements input count offset := by
  induction count generalizing offset with
  | zero => rfl
  | succ count ih => simp only [skipElements, Http.skipElements, readTlv_eq_http, ih]

/-- **The copies agree** on all bytes. -/
theorem spkiSha256_eq_http {D : Type} (sha256 : List UInt8 → D) (certificate : BoundedBytes) :
    spkiSha256 sha256 certificate = Http.spkiSha256 sha256 certificate := by
  have hversion (tbs : List UInt8) : skipVersion tbs = Http.skipVersion tbs := rfl
  simp only [spkiSha256, Http.spkiSha256, readTlv_eq_http, hversion, skipElements_eq_http]

/-- **The pin hashes exactly the key.** On a certificate both walks return the hash of the
complete SubjectPublicKeyInfo element; on any bytes whatever they return the same and do
not panic. -/
theorem pin_hashes_key {D : Type} (sha256 : List UInt8 → D) :
    (∀ (c : CertificateShape) (certificate : BoundedBytes), certificate.bytes = c.outer.bytes →
      Http.spkiSha256 sha256 certificate =
          .returns (some (sha256 c.subjectPublicKeyInfo.bytes)) ∧
        spkiSha256 sha256 certificate = .returns (some (sha256 c.subjectPublicKeyInfo.bytes))) ∧
    ∀ certificate : BoundedBytes,
      Http.spkiSha256 sha256 certificate = spkiSha256 sha256 certificate ∧
        Http.spkiSha256 sha256 certificate ≠ .panics := by
  refine ⟨fun c certificate h => ?_, fun certificate => ⟨?_, fun hpanics => ?_⟩⟩
  · rw [spkiSha256_eq_http]
    exact ⟨c.spkiSha256_eq sha256 certificate h, c.spkiSha256_eq sha256 certificate h⟩
  · rw [spkiSha256_eq_http]
  · obtain ⟨result, hreturns, -⟩ := Http.spkiSha256_safe sha256 certificate
    rw [hpanics] at hreturns
    cases hreturns

/-- Five empty fields and a key of one byte. -/
def emptyFields : CertificateShape where
  outer := .ofShort 0x30 [0x30, 13, 2, 0, 2, 0, 2, 0, 2, 0, 2, 0, 3, 1, 7] (by decide)
  tbs := .ofShort 0x30 [2, 0, 2, 0, 2, 0, 2, 0, 2, 0, 3, 1, 7] (by decide)
  version := none
  fields := List.replicate 5 (.ofShort 2 [] (by decide))
  subjectPublicKeyInfo := .ofShort 3 [7] (by decide)
  further := []
  signature := []
  outer_tag := rfl
  outer_content := by decide
  tbs_tag := rfl
  tbs_content := by decide
  version_tag _ h := by cases h
  fields_length := rfl
  fields_tag _ h := by
    cases h
    decide

/-- The key is hashed with its tag and length. -/
example : spkiSha256 id ⟨emptyFields.outer.bytes, by decide⟩ = .returns (some [3, 1, 7]) := by
  decide +kernel

end ZephyrVox.Realtime
