import ZephyrVox.Lib.Numeral

/-!
# Textual IP addresses

Parsing and display of addresses as `std::net` performs them. The parser reads
an address off the front of its input; a text is an address when nothing is left.

## Main definitions

* `Ipv4Addr`, `Ipv6Addr`, `IpAddr` — the addresses.
* `IpAddr.fromStr` — parsing of a whole text.
* `Ipv4Addr.display`, `Ipv6Addr.display` — the canonical texts.
* `IpAddr.fromStr_display_v4` — a displayed IPv4 address is parsed back.
-/

namespace ZephyrVox.Wire

open Numeral

/-- An IPv4 address. -/
structure Ipv4Addr where
  a : Fin 256
  b : Fin 256
  c : Fin 256
  d : Fin 256
  deriving DecidableEq, Repr

/-- An IPv6 address by its eight segments. -/
structure Ipv6Addr where
  segments : List (Fin 65536)
  length_eq : segments.length = 8
  deriving DecidableEq, Repr

/-- An IP address. -/
inductive IpAddr
  | v4 (address : Ipv4Addr)
  | v6 (address : Ipv6Addr)
  deriving DecidableEq, Repr

/-- Whether an address is the wildcard of its family. -/
def IpAddr.isUnspecified : IpAddr → Bool
  | .v4 address => address = ⟨0, 0, 0, 0⟩
  | .v6 address => address.segments = List.replicate 8 0

/-! ## Parsing -/

/-- Read a number below `bound` with at most `maxDigits` digits. -/
def readNumber (radix maxDigits bound : ℕ) (allowZeroPrefix : Bool) (input : List Char) :
    Option (Fin bound × List Char) :=
  match spanDigits radix input with
  | (digits, rest) =>
      if digits = [] ∨ maxDigits < digits.length then none
      else if !allowZeroPrefix && input.head? == some '0' && decide (1 < digits.length) then none
      else if h : ofDigits radix digits < bound then some (⟨ofDigits radix digits, h⟩, rest)
      else none

/-- Read one given character. -/
def readGivenChar (c : Char) : List Char → Option (List Char)
  | [] => none
  | x :: rest => if x = c then some rest else none

/-- Read an element, with a separator before every one but the first. -/
def readSeparator {α : Type} (separator : Char) (index : ℕ)
    (inner : List Char → Option (α × List Char)) (input : List Char) :
    Option (α × List Char) :=
  if 0 < index then (readGivenChar separator input).bind inner else inner input

/-- Read one octet of an IPv4 address. -/
def readOctet (index : ℕ) : List Char → Option (Fin 256 × List Char) :=
  readSeparator '.' index (readNumber 10 3 256 false)

/-- Read an IPv4 address. -/
def readIpv4Addr (input : List Char) : Option (Ipv4Addr × List Char) := do
  let (a, input) ← readOctet 0 input
  let (b, input) ← readOctet 1 input
  let (c, input) ← readOctet 2 input
  let (d, input) ← readOctet 3 input
  return (⟨a, b, c, d⟩, input)

/-- Two octets in one segment. -/
def joinOctets (high low : Fin 256) : Fin 65536 := ⟨high.val * 256 + low.val, by omega⟩

/-- Read segments into the slots that are left, `index` being the number read
before. A trailing IPv4 address takes two slots; the flag reports one. -/
def readGroups : ℕ → ℕ → List Char → List (Fin 65536) × Bool × List Char
  | 0, _, input => ([], false, input)
  | slots + 1, index, input =>
      let ipv4 := if 0 < slots then readSeparator ':' index readIpv4Addr input else none
      match ipv4 with
      | some (v4, rest) => ([joinOctets v4.a v4.b, joinOctets v4.c v4.d], true, rest)
      | none =>
          match readSeparator ':' index (readNumber 16 4 65536 true) input with
          | none => ([], false, input)
          | some (group, rest) =>
              let more := readGroups slots (index + 1) rest
              (group :: more.1, more.2.1, more.2.2)

theorem length_readGroups_le (slots index : ℕ) (input : List Char) :
    (readGroups slots index input).1.length ≤ slots := by
  induction slots generalizing index input with
  | zero => simp [readGroups]
  | succ slots ih =>
      simp only [readGroups]
      split
      next hv4 =>
        split at hv4
        next hpos => exact Nat.succ_le_succ hpos
        next => cases hv4
      next =>
        split
        · simp
        next group rest _ => simpa using ih (index + 1) rest

/-- Read an IPv6 address: eight segments, or two parts around `::`. -/
def readIpv6Addr (input : List Char) : Option (Ipv6Addr × List Char) :=
  let head := readGroups 8 0 input
  if h : head.1.length = 8 then some (⟨head.1, h⟩, head.2.2)
  else if head.2.1 then none
  else
    match (readGivenChar ':' head.2.2).bind (readGivenChar ':') with
    | none => none
    | some rest =>
        let tail := readGroups (8 - (head.1.length + 1)) 0 rest
        let zeros := List.replicate (8 - head.1.length - tail.1.length) (0 : Fin 65536)
        some (⟨head.1 ++ zeros ++ tail.1, by
          have hhead := length_readGroups_le 8 0 input
          have htail := length_readGroups_le (8 - (head.1.length + 1)) 0 rest
          simp only [zeros, tail, head, List.length_append, List.length_replicate] at *
          omega⟩, tail.2.2)

/-- Parse a whole text as an address. -/
def IpAddr.fromStr (text : List Char) : Option IpAddr :=
  let read := match readIpv4Addr text with
    | some (address, rest) => some (IpAddr.v4 address, rest)
    | none => (readIpv6Addr text).map fun (address, rest) => (IpAddr.v6 address, rest)
  match read with
  | some (address, []) => some address
  | _ => none

/-! ## Display -/

/-- Dotted decimal. -/
def Ipv4Addr.display (address : Ipv4Addr) : List Char :=
  Nat.toDigits 10 address.a ++ '.' :: Nat.toDigits 10 address.b ++
    '.' :: Nat.toDigits 10 address.c ++ '.' :: Nat.toDigits 10 address.d

/-- Segments in hexadecimal, separated by colons. -/
def fmtSubslice : List (Fin 65536) → List Char
  | [] => []
  | [segment] => Nat.toDigits 16 segment
  | segment :: rest => Nat.toDigits 16 segment ++ ':' :: fmtSubslice rest

/-- A run of zero segments. -/
structure Span where
  start : ℕ
  len : ℕ
  deriving DecidableEq, Repr

/-- The first longest run of zero segments. -/
def longestZeros : ℕ → Span → Span → List (Fin 65536) → Span
  | _, _, longest, [] => longest
  | i, current, longest, segment :: rest =>
      if segment = 0 then
        let current : Span :=
          ⟨if current.len = 0 then i else current.start, current.len + 1⟩
        longestZeros (i + 1) current (if longest.len < current.len then current else longest) rest
      else longestZeros (i + 1) ⟨0, 0⟩ longest rest

/-- The IPv4 address mapped into `::ffff:0:0/96`. -/
def Ipv6Addr.toIpv4Mapped (address : Ipv6Addr) : Option Ipv4Addr :=
  match address.segments with
  | [0, 0, 0, 0, 0, 65535, ab, cd] =>
      some ⟨⟨ab.val / 256, by omega⟩, ⟨ab.val % 256, by omega⟩,
        ⟨cd.val / 256, by omega⟩, ⟨cd.val % 256, by omega⟩⟩
  | _ => none

/-- The canonical text: mapped addresses in dotted form, else the first longest
run of more than one zero segment is compressed. -/
def Ipv6Addr.display (address : Ipv6Addr) : List Char :=
  match address.toIpv4Mapped with
  | some ipv4 => "::ffff:".toList ++ ipv4.display
  | none =>
      let zeroes := longestZeros 0 ⟨0, 0⟩ ⟨0, 0⟩ address.segments
      if 1 < zeroes.len then
        fmtSubslice (address.segments.take zeroes.start) ++ "::".toList ++
          fmtSubslice (address.segments.drop (zeroes.start + zeroes.len))
      else fmtSubslice address.segments

/-- The canonical text of an address. -/
def IpAddr.display : IpAddr → List Char
  | .v4 address => address.display
  | .v6 address => address.display

/-! ## Displayed addresses -/

/-- Decimal octets have no leading zero. -/
theorem length_toDigits_of_leading_zero (n : Fin 256)
    (h : (Nat.toDigits 10 n.val).head? = some '0') : (Nat.toDigits 10 n.val).length ≤ 1 := by
  have hall : ∀ n : Fin 256, (Nat.toDigits 10 n.val).head? = some '0' →
      (Nat.toDigits 10 n.val).length ≤ 1 := by
    decide +kernel
  exact hall n h

theorem readNumber_octet (n : Fin 256) {rest : List Char} (hrest : NoDigitAhead 10 rest) :
    readNumber 10 3 256 false (Nat.toDigits 10 n.val ++ rest) = some (n, rest) := by
  obtain ⟨ds, hspan, hval, hlen⟩ := spanDigits_toDigits (by decide) (by decide) n.val hrest
  have hpos : 0 < ds.length := by
    rw [hlen]
    exact Nat.length_toDigits_pos
  have hmax : ds.length ≤ 3 := by
    rw [hlen]
    exact (Nat.length_toDigits_le_iff (by decide) (by decide)).mpr (by omega)
  have hne : ¬ (ds = [] ∨ 3 < ds.length) := by
    rintro (rfl | h)
    · simp at hpos
    · omega
  have hhead : (Nat.toDigits 10 n.val ++ rest).head? = (Nat.toDigits 10 n.val).head? := by
    cases hd : Nat.toDigits 10 n.val with
    | nil => simp at hd
    | cons c cs => rfl
  have hzero : ¬ ((Nat.toDigits 10 n.val).head? = some '0' ∧ 1 < ds.length) := by
    rintro ⟨h0, hlt⟩
    have := length_toDigits_of_leading_zero n h0
    omega
  simp only [readNumber, hspan, hne, if_false, hhead, hval, n.isLt, dite_true]
  rw [if_neg]
  simpa using hzero

theorem noDigitAhead_dot (rest : List Char) : NoDigitAhead 10 ('.' :: rest) := by
  intro c hc
  cases hc
  rfl

theorem noDigitAhead_nil (radix : ℕ) : NoDigitAhead radix [] := by
  intro c hc
  cases hc

/-- A displayed IPv4 address is read back. -/
theorem readIpv4Addr_display (address : Ipv4Addr) :
    readIpv4Addr address.display = some (address, []) := by
  have hd := readNumber_octet address.d (noDigitAhead_nil 10)
  rw [List.append_nil] at hd
  simp only [readIpv4Addr, Ipv4Addr.display, readOctet, readSeparator, List.append_assoc,
    List.cons_append, Nat.lt_irrefl, if_false, readNumber_octet _ (noDigitAhead_dot _), bind,
    Option.bind, readGivenChar, if_true, Nat.zero_lt_succ, hd, pure]

/-- **A displayed IPv4 address is parsed back.** -/
theorem IpAddr.fromStr_display_v4 (address : Ipv4Addr) :
    IpAddr.fromStr address.display = some (.v4 address) := by
  simp [IpAddr.fromStr, readIpv4Addr_display]

/-- The characters of a displayed IPv4 address. -/
theorem Ipv4Addr.mem_display {address : Ipv4Addr} {c : Char} (h : c ∈ address.display) :
    c.isDigit = true ∨ c = '.' := by
  have hdigit : ∀ n : Fin 256, c ∈ Nat.toDigits 10 n.val → c.isDigit = true :=
    fun n hc => Nat.isDigit_of_mem_toDigits (by decide) (by decide) hc
  simp only [Ipv4Addr.display, List.mem_append, List.mem_cons] at h
  rcases h with ((h | h | h) | h | h) | h | h
  all_goals first | exact .inl (hdigit _ h) | exact .inr h

theorem colon_not_mem_display_v4 (address : Ipv4Addr) : ':' ∉ address.display := by
  intro h
  rcases Ipv4Addr.mem_display h with h | h <;> cases h

theorem colon_mem_fmtSubslice {segments : List (Fin 65536)} (h : 2 ≤ segments.length) :
    ':' ∈ fmtSubslice segments := by
  match segments, h with
  | _ :: _ :: _, _ => simp [fmtSubslice]

/-- The characters of segments in hexadecimal. -/
theorem mem_fmtSubslice {segments : List (Fin 65536)} {c : Char} (h : c ∈ fmtSubslice segments) :
    (toDigit 16 c).isSome ∨ c = ':' := by
  induction segments with
  | nil => cases h
  | cons segment rest ih =>
      have hdigit : c ∈ Nat.toDigits 16 segment.val → (toDigit 16 c).isSome :=
        fun hc => toDigit_isSome_of_mem (by decide) (by decide) _ hc
      cases rest with
      | nil => exact .inl (hdigit h)
      | cons next rest =>
          rcases List.mem_append.mp h with h | h
          · exact .inl (hdigit h)
          · rcases List.mem_cons.mp h with h | h
            · exact .inr h
            · exact ih h

theorem toDigit_isSome_of_isDigit {c : Char} (h : c.isDigit = true) :
    (toDigit 16 c).isSome := by
  simp only [Char.isDigit, Bool.and_eq_true, decide_eq_true_eq, ge_iff_le] at h
  have hrange : '0' ≤ c ∧ c ≤ '9' := h
  have hhigh : c.toNat ≤ 57 := UInt32.le_iff_toNat_le.mp h.2
  have hzero : '0'.toNat = 48 := rfl
  simp only [toDigit, hrange, and_self, if_true, Option.filter_some, decide_eq_true_eq]
  rw [if_pos (by omega)]
  rfl

/-- The characters of a displayed IPv6 address. -/
theorem Ipv6Addr.mem_display {address : Ipv6Addr} {c : Char} (h : c ∈ address.display) :
    (toDigit 16 c).isSome ∨ c = ':' ∨ c = '.' := by
  have hslice : ∀ segments : List (Fin 65536), c ∈ fmtSubslice segments →
      (toDigit 16 c).isSome ∨ c = ':' ∨ c = '.' :=
    fun _ hc => (mem_fmtSubslice hc).imp_right .inl
  unfold Ipv6Addr.display at h
  split at h
  next ipv4 _ =>
    rcases List.mem_append.mp h with h | h
    · have hall : ("::ffff:".toList.all fun x =>
          (toDigit 16 x).isSome || x = ':' || x = '.') = true := by decide
      simpa [or_assoc] using List.all_eq_true.mp hall c h
    · rcases Ipv4Addr.mem_display h with h | h
      · exact .inl (toDigit_isSome_of_isDigit h)
      · exact .inr (.inr h)
  next =>
    dsimp only at h
    split at h
    · rcases List.mem_append.mp h with h | h
      · rcases List.mem_append.mp h with h | h
        · exact hslice _ h
        · have hall : ∀ x ∈ "::".toList, x = ':' := by simp
          exact .inr (.inl (hall c h))
      · exact hslice _ h
    · exact hslice _ h

/-- A displayed IPv6 address contains a colon. -/
theorem colon_mem_display_v6 (address : Ipv6Addr) : ':' ∈ address.display := by
  unfold Ipv6Addr.display
  split
  · simp
  · dsimp only
    split
    · simp
    · exact colon_mem_fmtSubslice (by rw [address.length_eq]; decide)

end ZephyrVox.Wire
