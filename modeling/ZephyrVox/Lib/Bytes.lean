import Mathlib

/-!
# Big-endian bytes

Fixed-width numbers written most significant byte first, as `to_be_bytes` and
`from_be_bytes` do.

## Main definitions

* `toBeBytes width n` — the low `width` bytes of `n`.
* `ofBeBytes bytes` — the number a byte string denotes.
* `toBeBytes_injOn` — numbers that fit the width have different bytes.
* `toBeBytes_ofBeBytes` — every byte string is the writing of its number.
* `join_halves` — a byte is joined from its two hexadecimal digits.
* `byteAt`, `slice` — checked accesses; an access out of bounds is `none`.
-/

namespace ZephyrVox.Bytes

/-- The big-endian bytes of a number, truncated to `width` bytes. -/
def toBeBytes : ℕ → ℕ → List UInt8
  | 0, _ => []
  | width + 1, n => toBeBytes width (n / 256) ++ [UInt8.ofNat n]

/-- The number denoted by big-endian bytes. -/
def ofBeBytes (bytes : List UInt8) : ℕ := bytes.foldl (fun n byte => n * 256 + byte.toNat) 0

@[simp] theorem length_toBeBytes (width n : ℕ) : (toBeBytes width n).length = width := by
  induction width generalizing n with
  | zero => rfl
  | succ width ih => simp [toBeBytes, ih]

theorem ofBeBytes_concat (bytes : List UInt8) (byte : UInt8) :
    ofBeBytes (bytes ++ [byte]) = ofBeBytes bytes * 256 + byte.toNat := by
  simp [ofBeBytes]

/-- Reading back gives the number modulo the width. -/
theorem ofBeBytes_toBeBytes (width n : ℕ) : ofBeBytes (toBeBytes width n) = n % 256 ^ width := by
  induction width generalizing n with
  | zero => simp [toBeBytes, ofBeBytes, Nat.mod_one]
  | succ width ih =>
      have hbyte : (UInt8.ofNat n).toNat = n % 256 := by simp
      rw [toBeBytes, ofBeBytes_concat, ih, hbyte, Nat.pow_succ', Nat.mod_mul]
      omega

/-- **Distinct numbers of one width have distinct bytes.** -/
theorem toBeBytes_injOn {width n m : ℕ} (hn : n < 256 ^ width) (hm : m < 256 ^ width)
    (h : toBeBytes width n = toBeBytes width m) : n = m := by
  have hread := congrArg ofBeBytes h
  rwa [ofBeBytes_toBeBytes, ofBeBytes_toBeBytes, Nat.mod_eq_of_lt hn, Nat.mod_eq_of_lt hm] at hread

/-- A byte string denotes a number of its width. -/
theorem ofBeBytes_lt (bytes : List UInt8) : ofBeBytes bytes < 256 ^ bytes.length := by
  induction bytes using List.reverseRecOn with
  | nil => decide
  | append_singleton bytes byte ih =>
      have hbyte := byte.toNat_lt
      rw [ofBeBytes_concat, List.length_append, List.length_singleton, Nat.pow_succ]
      omega

/-- **Reading bytes and writing the number gives the bytes.** -/
theorem toBeBytes_ofBeBytes (bytes : List UInt8) :
    toBeBytes bytes.length (ofBeBytes bytes) = bytes := by
  induction bytes using List.reverseRecOn with
  | nil => rfl
  | append_singleton bytes byte ih =>
      have hbyte := byte.toNat_lt
      have hdiv : (ofBeBytes bytes * 256 + byte.toNat) / 256 = ofBeBytes bytes := by omega
      have hlow : UInt8.ofNat (ofBeBytes bytes * 256 + byte.toNat) = byte := by
        apply UInt8.toNat_inj.mp
        rw [UInt8.toNat_ofNat']
        omega
      rw [ofBeBytes_concat, List.length_append, List.length_singleton, toBeBytes, hdiv, hlow, ih]

/-! ## The halves of a byte -/

theorem toNat_shiftRight_four (byte : UInt8) : (byte >>> 4).toNat = byte.toNat / 2 ^ 4 := by
  rw [UInt8.toNat_shiftRight, ← Nat.shiftRight_eq_div_pow]
  rfl

theorem toNat_and_fifteen (byte : UInt8) : (byte &&& 0x0f).toNat = byte.toNat % 2 ^ 4 := by
  rw [UInt8.toNat_and, ← Nat.and_two_pow_sub_one_eq_mod]
  rfl

/-- The halves of a byte are hexadecimal digits. -/
theorem halves_lt (byte : UInt8) : (byte >>> 4).toNat < 16 ∧ (byte &&& 0x0f).toNat < 16 := by
  have hlt := byte.toNat_lt
  rw [toNat_shiftRight_four, toNat_and_fifteen]
  omega

/-- **A byte is joined from its halves.** -/
theorem join_halves (byte : UInt8) : (byte >>> 4) <<< 4 ||| (byte &&& 0x0f) = byte := by
  have hlt := byte.toNat_lt
  have hfour : (4 : UInt8).toNat % 8 = 4 := rfl
  have hshift : (byte.toNat / 2 ^ 4) <<< 4 % 2 ^ 8 = (byte.toNat / 2 ^ 4) <<< 4 := by
    rw [Nat.shiftLeft_eq]
    omega
  apply UInt8.toNat_inj.mp
  rw [UInt8.toNat_or, UInt8.toNat_shiftLeft, toNat_shiftRight_four, toNat_and_fifteen, hfour,
    hshift, ← Nat.shiftLeft_add_eq_or_of_lt (by omega), Nat.shiftLeft_eq]
  omega

/-! ## Checked accesses -/

/-- The byte at an index. -/
def byteAt (bytes : List UInt8) (i : ℕ) : Option UInt8 := bytes[i]?

/-- The bytes from `start` up to `stop`. -/
def slice (bytes : List UInt8) (start stop : ℕ) : Option (List UInt8) :=
  if start ≤ stop ∧ stop ≤ bytes.length then some ((bytes.drop start).take (stop - start))
  else none

theorem byteAt_eq_some {bytes : List UInt8} {i : ℕ} (h : i < bytes.length) :
    byteAt bytes i = some ((bytes.drop i).headD 0) := by
  rw [byteAt, List.getElem?_eq_getElem h, List.drop_eq_getElem_cons h]
  rfl

theorem slice_eq_some {bytes : List UInt8} {start stop : ℕ} (h : start ≤ stop)
    (hstop : stop ≤ bytes.length) :
    slice bytes start stop = some ((bytes.drop start).take (stop - start)) := if_pos ⟨h, hstop⟩

/-- One byte of a string is a slice of it. -/
theorem take_one_drop (bytes : List UInt8) {i : ℕ} (h : i < bytes.length) :
    (bytes.drop i).take 1 = [(bytes.drop i).headD 0] := by
  rw [List.drop_eq_getElem_cons h]
  rfl

end ZephyrVox.Bytes
