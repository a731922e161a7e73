import Mathlib

/-!
# ASCII in UTF-8

A text is the bytes of its characters one after the other. A character below 128 is
the byte of its number, and every byte of another character is at least 128, so a
test that only ASCII bytes pass says the same about the bytes of a text as about its
characters.

## Main definitions

* `encode cs` — the bytes of a list of characters.
* `IsAscii c` — the character takes one byte.
* `encode_of_ascii`, `ascii_of_encode` — the two directions.
* `forall_mem_encode_iff` — a test on bytes read as one on characters.
-/

namespace ZephyrVox.Utf8

/-- The UTF-8 encoding of a list of characters. -/
def encode (cs : List Char) : List UInt8 := cs.flatMap String.utf8EncodeChar

/-- The character is one byte of the encoding. -/
def IsAscii (c : Char) : Prop := c.toNat < 128

instance (c : Char) : Decidable (IsAscii c) := inferInstanceAs (Decidable (c.toNat < 128))

/-- The byte of an ASCII character. -/
def byteOf (c : Char) : UInt8 := UInt8.ofNat c.toNat

theorem IsAscii.toNat_byteOf {c : Char} (h : IsAscii c) : (byteOf c).toNat = c.toNat := by
  have hlt : c.toNat < 128 := h
  rw [byteOf, UInt8.toNat_ofNat']
  omega

/-- ASCII characters are told apart by their bytes. -/
theorem IsAscii.byteOf_inj {c d : Char} (hc : IsAscii c) (hd : IsAscii d)
    (h : byteOf c = byteOf d) : c = d := by
  have hnat : c.toNat = d.toNat := by
    rw [← hc.toNat_byteOf, ← hd.toNat_byteOf, h]
  exact Char.ext (UInt32.toNat_inj.mp hnat)

/-- An ASCII character is one byte. -/
theorem IsAscii.encodeChar {c : Char} (h : IsAscii c) :
    String.utf8EncodeChar c = [byteOf c] := by
  have hle : c.val.toNat ≤ 0x7f := Nat.le_of_lt_succ h
  simp only [String.utf8EncodeChar, hle, if_true]
  rfl

/-- Every byte of another character has its top bit set. -/
theorem le_of_mem_encodeChar {c : Char} (h : ¬ IsAscii c) {byte : UInt8}
    (hbyte : byte ∈ String.utf8EncodeChar c) : 128 ≤ byte.toNat := by
  have hlarge : ¬ c.val.toNat ≤ 0x7f := fun hle => h (Nat.lt_succ_of_le hle)
  have hvalid : c.val.toNat < 0x110000 := by
    have hc := c.valid
    rcases hc with hc | ⟨-, hc⟩
    · exact Nat.lt_trans hc (by norm_num)
    · exact hc
  simp only [String.utf8EncodeChar, hlarge, if_false] at hbyte
  split at hbyte
  · simp only [List.mem_cons, List.not_mem_nil, or_false] at hbyte
    rcases hbyte with rfl | rfl <;> rw [UInt8.toNat_ofNat'] <;> omega
  · split at hbyte
    · simp only [List.mem_cons, List.not_mem_nil, or_false] at hbyte
      rcases hbyte with rfl | rfl | rfl <;> rw [UInt8.toNat_ofNat'] <;> omega
    · simp only [List.mem_cons, List.not_mem_nil, or_false] at hbyte
      rcases hbyte with rfl | rfl | rfl | rfl <;> rw [UInt8.toNat_ofNat'] <;> omega

@[simp] theorem encode_nil : encode [] = [] := rfl

@[simp] theorem encode_cons (c : Char) (cs : List Char) :
    encode (c :: cs) = String.utf8EncodeChar c ++ encode cs := rfl

@[simp] theorem encode_append (cs ds : List Char) : encode (cs ++ ds) = encode cs ++ encode ds :=
  List.flatMap_append

/-- An ASCII text is the bytes of its characters. -/
theorem encode_of_ascii {cs : List Char} (h : ∀ c ∈ cs, IsAscii c) :
    encode cs = cs.map byteOf := by
  induction cs with
  | nil => rfl
  | cons c cs ih =>
      have hc : IsAscii c := h c List.mem_cons_self
      have hcs := ih fun d hd => h d (List.mem_cons_of_mem c hd)
      rw [encode_cons, hc.encodeChar, hcs, List.map_cons, List.singleton_append]

/-- A text whose bytes are all below 128 is ASCII. -/
theorem ascii_of_encode {cs : List Char} (h : ∀ byte ∈ encode cs, byte.toNat < 128) {c : Char}
    (hc : c ∈ cs) : IsAscii c := by
  by_contra hnot
  obtain ⟨byte, hbyte⟩ := List.exists_mem_of_ne_nil _ (String.utf8EncodeChar_ne_nil (c := c))
  have hlow := h byte (List.mem_flatMap.mpr ⟨c, hc, hbyte⟩)
  have hhigh := le_of_mem_encodeChar hnot hbyte
  omega

/-- A byte below 128 is that of a character. -/
theorem exists_of_mem_encode {cs : List Char} {byte : UInt8} (hlow : byte.toNat < 128)
    (h : byte ∈ encode cs) : ∃ c ∈ cs, c.toNat = byte.toNat := by
  obtain ⟨c, hc, hbyte⟩ := List.mem_flatMap.mp h
  by_cases hascii : IsAscii c
  · rw [hascii.encodeChar, List.mem_singleton] at hbyte
    exact ⟨c, hc, by rw [hbyte, hascii.toNat_byteOf]⟩
  · have hhigh := le_of_mem_encodeChar hascii hbyte
    omega

/-- **A test that only ASCII bytes pass is a test of the characters.** -/
theorem forall_mem_encode_iff {p : UInt8 → Prop} (hp : ∀ byte, p byte → byte.toNat < 128)
    (cs : List Char) :
    (∀ byte ∈ encode cs, p byte) ↔ ∀ c ∈ cs, IsAscii c ∧ p (byteOf c) := by
  constructor
  · intro h c hc
    have hascii : ∀ d ∈ cs, IsAscii d := fun d hd => ascii_of_encode (fun b hb => hp b (h b hb)) hd
    rw [encode_of_ascii hascii] at h
    exact ⟨hascii c hc, h (byteOf c) (List.mem_map_of_mem hc)⟩
  · intro h byte hbyte
    rw [encode_of_ascii fun c hc => (h c hc).1] at hbyte
    obtain ⟨c, hc, rfl⟩ := List.mem_map.mp hbyte
    exact (h c hc).2

/-- ASCII texts with the same bytes are equal. -/
theorem eq_of_map_byteOf_eq {cs ds : List Char} (hcs : ∀ c ∈ cs, IsAscii c)
    (hds : ∀ d ∈ ds, IsAscii d) (h : cs.map byteOf = ds.map byteOf) : cs = ds := by
  induction cs generalizing ds with
  | nil => exact (List.map_eq_nil_iff.mp h.symm).symm
  | cons c cs ih =>
      cases ds with
      | nil => cases h
      | cons d ds =>
          rw [List.map_cons, List.map_cons, List.cons.injEq] at h
          have hhead : c = d :=
            (hcs c List.mem_cons_self).byteOf_inj (hds d List.mem_cons_self) h.1
          have htail : cs = ds := ih (fun e he => hcs e (List.mem_cons_of_mem c he))
            (fun e he => hds e (List.mem_cons_of_mem d he)) h.2
          rw [hhead, htail]

/-- **A text whose bytes are those of an ASCII text is that text.** -/
theorem eq_of_encode_eq {cs ds : List Char} (hds : ∀ d ∈ ds, IsAscii d)
    (h : encode cs = encode ds) : cs = ds := by
  have hlow : ∀ byte ∈ encode cs, byte.toNat < 128 := by
    intro byte hbyte
    rw [h, encode_of_ascii hds] at hbyte
    obtain ⟨d, hd, rfl⟩ := List.mem_map.mp hbyte
    rw [(hds d hd).toNat_byteOf]
    exact hds d hd
  have hcs : ∀ c ∈ cs, IsAscii c := fun c hc => ascii_of_encode hlow hc
  rw [encode_of_ascii hcs, encode_of_ascii hds] at h
  exact eq_of_map_byteOf_eq hcs hds h

end ZephyrVox.Utf8
