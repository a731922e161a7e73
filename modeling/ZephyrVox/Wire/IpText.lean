import ZephyrVox.Wire.Ip

/-!
# The texts of IP addresses

What the parser of an address consumes, and the canonical texts of IPv6
addresses. A canonical text is the segments on both sides of the longest run of
zeros; the parser reads the segments before `::`, then those after it, and puts
the zeros back between them.

## Main definitions

* `Ipv6Addr.compressed` — the text without a dotted tail, as URLs write it.
* `IpAddr.fromStr_compressed`, `IpAddr.fromStr_display` — both texts are read back.
* `IpAddr.mem_of_fromStr_v4`, `IpAddr.colon_mem_of_fromStr_v6` — the characters of
  a text that is an address.
-/

namespace ZephyrVox.Wire

open Numeral

theorem Ipv6Addr.eq_of_segments {a b : Ipv6Addr} (h : a.segments = b.segments) : a = b := by
  cases a
  cases b
  simpa using h

/-- The text of an IPv6 address in hexadecimal: the first longest run of more than
one zero segment is compressed. -/
def Ipv6Addr.compressed (address : Ipv6Addr) : List Char :=
  let zeroes := longestZeros 0 ⟨0, 0⟩ ⟨0, 0⟩ address.segments
  if 1 < zeroes.len then
    fmtSubslice (address.segments.take zeroes.start) ++ "::".toList ++
      fmtSubslice (address.segments.drop (zeroes.start + zeroes.len))
  else fmtSubslice address.segments

theorem Ipv6Addr.display_of_not_mapped {address : Ipv6Addr} (h : address.toIpv4Mapped = none) :
    address.display = address.compressed := by
  simp [Ipv6Addr.display, h, Ipv6Addr.compressed]

/-! ## What the parser consumes -/

/-- A number is the digits before what follows it. -/
theorem readNumber_some {radix maxDigits bound : ℕ} {zero : Bool} {input rest : List Char}
    {n : Fin bound} (h : readNumber radix maxDigits bound zero input = some (n, rest)) :
    ∃ digits, input = digits ++ rest ∧ digits ≠ [] ∧ ∀ c ∈ digits, (toDigit radix c).isSome := by
  obtain ⟨digits, hinput, hdigits⟩ := exists_denotes_spanDigits radix input
  simp only [readNumber] at h
  split at h
  · cases h
  · rename_i hlength
    split at h
    · cases h
    · split at h
      · cases h
        refine ⟨digits, hinput, ?_, fun c hc => hdigits.isSome_of_mem hc⟩
        rintro rfl
        exact hlength (.inl (List.map_eq_nil_iff.mp hdigits.symm))
      · cases h

theorem readGivenChar_some {c : Char} {input rest : List Char}
    (h : readGivenChar c input = some rest) : input = c :: rest := by
  cases input with
  | nil => cases h
  | cons x input =>
      simp only [readGivenChar] at h
      split at h
      · rename_i hx
        cases h
        rw [hx]
      · cases h

/-- A separated element is read after its separator. -/
theorem readSeparator_some {α : Type} {separator : Char} {index : ℕ}
    {inner : List Char → Option (α × List Char)} {input rest : List Char} {a : α}
    (h : readSeparator separator index inner input = some (a, rest)) :
    ∃ input', inner input' = some (a, rest) ∧
      (0 < index ∧ input = separator :: input' ∨ index = 0 ∧ input = input') := by
  simp only [readSeparator] at h
  split at h
  · rename_i hpos
    obtain ⟨input', hgiven, hinner⟩ := Option.bind_eq_some_iff.mp h
    exact ⟨input', hinner, .inl ⟨hpos, readGivenChar_some hgiven⟩⟩
  · exact ⟨input, h, .inr ⟨by omega, rfl⟩⟩

/-- The input is a text of digits and separators, and then the rest. -/
def Consumes (radix : ℕ) (separator : Char) (input rest : List Char) : Prop :=
  ∃ consumed, input = consumed ++ rest ∧
    ∀ c ∈ consumed, (toDigit radix c).isSome = true ∨ c = separator

theorem Consumes.refl (radix : ℕ) (separator : Char) (input : List Char) :
    Consumes radix separator input input := ⟨[], rfl, by simp⟩

theorem Consumes.trans {radix : ℕ} {separator : Char} {input mid rest : List Char}
    (h : Consumes radix separator input mid) (h' : Consumes radix separator mid rest) :
    Consumes radix separator input rest := by
  obtain ⟨first, rfl, hfirst⟩ := h
  obtain ⟨second, rfl, hsecond⟩ := h'
  refine ⟨first ++ second, by simp, fun c hc => ?_⟩
  rcases List.mem_append.mp hc with hc | hc
  · exact hfirst c hc
  · exact hsecond c hc

theorem readOctet_some {index : ℕ} {input rest : List Char} {n : Fin 256}
    (h : readOctet index input = some (n, rest)) :
    Consumes 10 '.' input rest ∧ (0 < index → '.' ∈ input) := by
  obtain ⟨input', hnumber, hinput⟩ := readSeparator_some h
  obtain ⟨digits, rfl, -, hdigits⟩ := readNumber_some hnumber
  rcases hinput with ⟨hpos, rfl⟩ | ⟨rfl, rfl⟩
  · refine ⟨⟨'.' :: digits, rfl, fun c hc => ?_⟩, fun _ => List.mem_cons_self⟩
    rcases List.mem_cons.mp hc with rfl | hc
    · exact .inr rfl
    · exact .inl (hdigits c hc)
  · exact ⟨⟨digits, rfl, fun c hc => .inl (hdigits c hc)⟩, fun hpos => absurd hpos (by omega)⟩

/-- An IPv4 address is read off digits and dots. -/
theorem readIpv4Addr_some {input rest : List Char} {address : Ipv4Addr}
    (h : readIpv4Addr input = some (address, rest)) :
    Consumes 10 '.' input rest ∧ '.' ∈ input := by
  simp only [readIpv4Addr, Option.bind_eq_bind, Option.bind_eq_some_iff] at h
  obtain ⟨⟨a, input₁⟩, ha, ⟨b, input₂⟩, hb, ⟨c, input₃⟩, hc, ⟨d, input₄⟩, hd, heq⟩ := h
  cases heq
  obtain ⟨ha, -⟩ := readOctet_some ha
  obtain ⟨hb, hdot⟩ := readOctet_some hb
  refine ⟨ha.trans (hb.trans ((readOctet_some hc).1.trans (readOctet_some hd).1)), ?_⟩
  obtain ⟨consumed, rfl, -⟩ := ha
  exact List.mem_append_right _ (hdot Nat.one_pos)

/-- A text without a dot does not begin with an IPv4 address. -/
theorem readIpv4Addr_of_not_mem {input : List Char} (h : '.' ∉ input) :
    readIpv4Addr input = none := by
  cases hread : readIpv4Addr input with
  | none => rfl
  | some read =>
      obtain ⟨address, rest⟩ := read
      exact absurd (readIpv4Addr_some hread).2 h

theorem readSeparator_ipv4_of_not_mem {separator : Char} {index : ℕ} {input : List Char}
    (h : '.' ∉ input) : readSeparator separator index readIpv4Addr input = none := by
  cases hread : readSeparator separator index readIpv4Addr input with
  | none => rfl
  | some read =>
      obtain ⟨address, rest⟩ := read
      obtain ⟨input', hinner, hinput⟩ := readSeparator_some hread
      have hdot := (readIpv4Addr_some hinner).2
      rcases hinput with ⟨-, rfl⟩ | ⟨-, rfl⟩
      · exact absurd (List.mem_cons_of_mem _ hdot) h
      · exact absurd hdot h

/-- A group of up to four hexadecimal digits is read back. -/
theorem readNumber_group (n : Fin 65536) {rest : List Char} (hrest : NoDigitAhead 16 rest) :
    readNumber 16 4 65536 true (Nat.toDigits 16 n.val ++ rest) = some (n, rest) := by
  obtain ⟨ds, hspan, hval, hlen⟩ := spanDigits_toDigits (by decide) (by decide) n.val hrest
  have hpos : 0 < ds.length := by
    rw [hlen]
    exact Nat.length_toDigits_pos
  have hmax : ds.length ≤ 4 := by
    rw [hlen]
    exact (Nat.length_toDigits_le_iff (by decide) (by decide)).mpr (by omega)
  have hne : ¬ (ds = [] ∨ 4 < ds.length) := by
    rintro (rfl | h)
    · simp at hpos
    · omega
  simp [readNumber, hspan, hne, hval, n.isLt]

/-! ## Groups -/

/-- The text of groups of which `index` were read before. -/
def groupsText (index : ℕ) : List (Fin 65536) → List Char
  | [] => []
  | group :: groups =>
      (if 0 < index then [':'] else []) ++
        (Nat.toDigits 16 group ++ groupsText (index + 1) groups)

theorem groupsText_succ (index : ℕ) {groups : List (Fin 65536)} (h : groups ≠ []) :
    groupsText (index + 1) groups = ':' :: fmtSubslice groups := by
  induction groups generalizing index with
  | nil => exact absurd rfl h
  | cons group groups ih =>
      cases groups with
      | nil => simp [groupsText, fmtSubslice]
      | cons next groups =>
          rw [groupsText, ih (index + 1) (List.cons_ne_nil _ _)]
          simp [fmtSubslice]

/-- Segments are displayed as groups of which none was read before. -/
theorem fmtSubslice_eq_groupsText (segments : List (Fin 65536)) :
    fmtSubslice segments = groupsText 0 segments := by
  cases segments with
  | nil => rfl
  | cons segment segments =>
      cases segments with
      | nil => simp [groupsText, fmtSubslice]
      | cons next segments =>
          rw [groupsText, groupsText_succ 0 (List.cons_ne_nil _ _)]
          simp [fmtSubslice]

/-- No further group follows: the text ends, or it goes on with `::`. -/
def StopsGroups (rest : List Char) : Prop := rest = [] ∨ ∃ tail, rest = ':' :: ':' :: tail

theorem StopsGroups.noDigitAhead {rest : List Char} (h : StopsGroups rest) :
    NoDigitAhead 16 rest := by
  rcases h with rfl | ⟨tail, rfl⟩
  · exact noDigitAhead_nil 16
  · intro c hc
    cases hc
    rfl

/-- A text that does not begin with a digit does not begin with a number. -/
theorem readNumber_of_noDigitAhead {radix maxDigits bound : ℕ} {zero : Bool} {input : List Char}
    (h : NoDigitAhead radix input) : readNumber radix maxDigits bound zero input = none := by
  have hspan : spanDigits radix input = ([], input) := by
    cases input with
    | nil => rfl
    | cons c input => simp [spanDigits, h c rfl]
  simp [readNumber, hspan]

/-- Where the groups stop, none is read. -/
theorem StopsGroups.readSeparator {rest : List Char} (h : StopsGroups rest) (index : ℕ) :
    Wire.readSeparator ':' index (readNumber 16 4 65536 true) rest = none := by
  by_cases hpos : 0 < index
  · rcases h with rfl | ⟨tail, rfl⟩
    · simp [Wire.readSeparator, hpos, readGivenChar]
    · have hcolon : NoDigitAhead 16 (':' :: tail) := by
        intro c hc
        cases hc
        rfl
      simp [Wire.readSeparator, hpos, readGivenChar, readNumber_of_noDigitAhead hcolon]
  · simp [Wire.readSeparator, hpos, readNumber_of_noDigitAhead h.noDigitAhead]

/-- **Groups are read back** up to the place where they stop. -/
theorem readGroups_groupsText {slots index : ℕ} {groups : List (Fin 65536)} {rest : List Char}
    (hslots : groups.length ≤ slots) (hdot : '.' ∉ groupsText index groups ++ rest)
    (hstop : StopsGroups rest) :
    readGroups slots index (groupsText index groups ++ rest) = (groups, false, rest) := by
  induction groups generalizing slots index with
  | nil =>
      cases slots with
      | zero => rfl
      | succ slots =>
          simp only [groupsText, List.nil_append] at hdot ⊢
          simp [readGroups, readSeparator_ipv4_of_not_mem hdot, hstop.readSeparator]
  | cons group groups ih =>
      cases slots with
      | zero => simp at hslots
      | succ slots =>
          have hnext : NoDigitAhead 16 (groupsText (index + 1) groups ++ rest) := by
            cases groups with
            | nil => exact hstop.noDigitAhead
            | cons next groups =>
                rw [groupsText_succ index (List.cons_ne_nil _ _)]
                intro c hc
                cases hc
                rfl
          have hgroup : readSeparator ':' index (readNumber 16 4 65536 true)
              (groupsText index (group :: groups) ++ rest) =
                some (group, groupsText (index + 1) groups ++ rest) := by
            by_cases hpos : 0 < index
            · simp [readSeparator, groupsText, hpos, readGivenChar, readNumber_group group hnext]
            · simp [readSeparator, groupsText, hpos, readNumber_group group hnext]
          have hrest : '.' ∉ groupsText (index + 1) groups ++ rest := by
            intro hmem
            apply hdot
            simp only [groupsText, List.mem_append] at hmem ⊢
            exact hmem.imp_left fun hmem => .inr (.inr hmem)
          have hmore := ih (Nat.le_of_succ_le_succ hslots) hrest
          simp only [readGroups, readSeparator_ipv4_of_not_mem hdot, ite_self, hgroup, hmore]

/-! ## The longest run of zeros -/

/-- The segments of a span are zero. -/
structure ZeroRun (segments : List (Fin 65536)) (span : Span) : Prop where
  le_length : span.start + span.len ≤ segments.length
  zero : ∀ k, span.start ≤ k → k < span.start + span.len → segments[k]? = some 0

theorem ZeroRun.empty (segments : List (Fin 65536)) : ZeroRun segments ⟨0, 0⟩ where
  le_length := Nat.zero_le _
  zero := fun k _ hk => absurd hk (Nat.not_lt_zero k)

/-- **The span found is a run of zeros.** -/
theorem zeroRun_longestZeros {segments : List (Fin 65536)} {i : ℕ} {current longest : Span}
    {rest : List (Fin 65536)} (hrest : segments.drop i = rest)
    (hcurrent : ZeroRun segments current)
    (hends : current.len = 0 ∨ current.start + current.len = i)
    (hlongest : ZeroRun segments longest) :
    ZeroRun segments (longestZeros i current longest rest) := by
  induction rest generalizing i current longest with
  | nil => exact hlongest
  | cons segment rest ih =>
      have hget : segments[i]? = some segment := by
        rw [← List.head?_drop, hrest]
        rfl
      have hlt : i < segments.length := (List.getElem?_eq_some_iff.mp hget).1
      have hdrop : segments.drop (i + 1) = rest := by
        rw [← List.tail_drop, hrest]
        rfl
      simp only [longestZeros]
      split
      · rename_i hzero
        have hgrown : ZeroRun segments
            ⟨if current.len = 0 then i else current.start, current.len + 1⟩ := by
          by_cases hlen : current.len = 0
          · simp only [hlen, if_true]
            refine ⟨by simp only; omega, fun k hk hk' => ?_⟩
            have hki : k = i := by
              simp only at hk hk'
              omega
            rw [hki, hget, hzero]
          · have hend : current.start + current.len = i := hends.resolve_left hlen
            simp only [hlen, if_false]
            refine ⟨by simp only; omega, fun k hk hk' => ?_⟩
            simp only at hk hk'
            by_cases hki : k = i
            · rw [hki, hget, hzero]
            · exact hcurrent.zero k hk (by omega)
        refine ih hdrop hgrown (.inr ?_) ?_
        · rcases hends with hlen | hend
          · simp [hlen]
          · by_cases hlen : current.len = 0
            · simp [hlen]
            · simp only [hlen, if_false]
              omega
        · split
          · exact hgrown
          · exact hlongest
      · exact ih hdrop (.empty segments) (.inl rfl) hlongest

/-- Around a run of zeros, the segments are the others with the zeros put back. -/
theorem ZeroRun.eq_append {segments : List (Fin 65536)} {span : Span}
    (h : ZeroRun segments span) :
    segments.take span.start ++ List.replicate span.len 0 ++
      segments.drop (span.start + span.len) = segments := by
  have hle := h.le_length
  have hrun : List.replicate span.len 0 = (segments.drop span.start).take span.len := by
    apply List.ext_getElem?
    intro k
    by_cases hk : k < span.len
    · rw [List.getElem?_replicate_of_lt hk, List.getElem?_take_of_lt hk, List.getElem?_drop,
        h.zero _ (by omega) (by omega)]
    · rw [List.getElem?_eq_none (by simpa using hk), List.getElem?_eq_none]
      simp only [List.length_take, List.length_drop]
      omega
  rw [hrun, List.append_assoc, ← List.drop_drop, List.take_append_drop, List.take_append_drop]

/-! ## Reading IPv6 texts -/

theorem dot_not_mem_fmtSubslice (segments : List (Fin 65536)) : '.' ∉ fmtSubslice segments := by
  intro h
  rcases mem_fmtSubslice h with h | h <;> cases h

theorem dot_not_mem_compressed (address : Ipv6Addr) : '.' ∉ address.compressed := by
  simp only [Ipv6Addr.compressed]
  split
  · simp [dot_not_mem_fmtSubslice]
  · exact dot_not_mem_fmtSubslice _

/-- Eight groups are an address. -/
theorem readIpv6Addr_groups {segments : List (Fin 65536)} (h : segments.length = 8) :
    ∃ address, readIpv6Addr (fmtSubslice segments) = some (address, []) ∧
      address.segments = segments := by
  have hdot : '.' ∉ groupsText 0 segments ++ [] := by
    rw [List.append_nil, ← fmtSubslice_eq_groupsText]
    exact dot_not_mem_fmtSubslice segments
  have hread := readGroups_groupsText h.le hdot (.inl rfl)
  rw [List.append_nil, ← fmtSubslice_eq_groupsText] at hread
  exact ⟨⟨segments, h⟩, by simp [readIpv6Addr, hread, h], rfl⟩

/-- Groups on both sides of `::` are an address with zeros between them. -/
theorem readIpv6Addr_doubleColon {before after : List (Fin 65536)} {text : List Char}
    {dotted : Bool} (hbefore : before.length + 1 ≤ 8)
    (htext : readGroups 8 0 (fmtSubslice before ++ ':' :: ':' :: text) =
      (before, false, ':' :: ':' :: text))
    (hafter : readGroups (8 - (before.length + 1)) 0 text = (after, dotted, [])) :
    ∃ address, readIpv6Addr (fmtSubslice before ++ ':' :: ':' :: text) = some (address, []) ∧
      address.segments =
        before ++ List.replicate (8 - before.length - after.length) 0 ++ after := by
  have hlength : before.length ≠ 8 := by omega
  have hle := length_readGroups_le (8 - (before.length + 1)) 0 text
  rw [hafter] at hle
  refine ⟨⟨before ++ List.replicate (8 - before.length - after.length) 0 ++ after, ?_⟩, ?_, rfl⟩
  · simp only [List.length_append, List.length_replicate] at *
    omega
  · rw [Nat.add_comm, ← Nat.sub_sub] at hafter
    simp [readIpv6Addr, htext, hlength, readGivenChar, hafter]

/-- **The text without a dotted tail is read back.** -/
theorem readIpv6Addr_compressed (address : Ipv6Addr) :
    readIpv6Addr address.compressed = some (address, []) := by
  have hrun : ZeroRun address.segments (longestZeros 0 ⟨0, 0⟩ ⟨0, 0⟩ address.segments) :=
    zeroRun_longestZeros rfl (.empty _) (.inl rfl) (.empty _)
  simp only [Ipv6Addr.compressed]
  split
  · rename_i hlong
    generalize longestZeros 0 ⟨0, 0⟩ ⟨0, 0⟩ address.segments = span at hrun hlong
    have hle := hrun.le_length
    rw [address.length_eq] at hle
    have hbefore : (address.segments.take span.start).length = span.start := by
      rw [List.length_take, address.length_eq]
      omega
    have hafter : (address.segments.drop (span.start + span.len)).length =
        8 - (span.start + span.len) := by
      rw [List.length_drop, address.length_eq]
    have hdot : '.' ∉ groupsText 0 (address.segments.take span.start) ++
        ':' :: ':' :: fmtSubslice (address.segments.drop (span.start + span.len)) := by
      rw [← fmtSubslice_eq_groupsText]
      simp [dot_not_mem_fmtSubslice]
    have hdot' : '.' ∉ groupsText 0 (address.segments.drop (span.start + span.len)) ++ [] := by
      rw [List.append_nil, ← fmtSubslice_eq_groupsText]
      exact dot_not_mem_fmtSubslice _
    have hfirst : readGroups 8 0 _ = _ := readGroups_groupsText (by omega) hdot (.inr ⟨_, rfl⟩)
    have hsecond : readGroups (8 - ((address.segments.take span.start).length + 1)) 0 _ = _ :=
      readGroups_groupsText (by omega) hdot' (.inl rfl)
    rw [← fmtSubslice_eq_groupsText] at hfirst
    rw [List.append_nil, ← fmtSubslice_eq_groupsText] at hsecond
    obtain ⟨address', hread, hsegments⟩ := readIpv6Addr_doubleColon (by omega) hfirst hsecond
    have hzeros : 8 - (address.segments.take span.start).length -
        (address.segments.drop (span.start + span.len)).length = span.len := by omega
    rw [hzeros, hrun.eq_append] at hsegments
    rw [Ipv6Addr.eq_of_segments hsegments] at hread
    simpa using hread
  · obtain ⟨address', hread, hsegments⟩ := readIpv6Addr_groups address.length_eq
    rw [Ipv6Addr.eq_of_segments hsegments] at hread
    exact hread

/-- A text that does not begin with a decimal digit does not begin with an IPv4
address. -/
theorem readIpv4Addr_of_noDigitAhead {input : List Char} (h : NoDigitAhead 10 input) :
    readIpv4Addr input = none := by
  simp [readIpv4Addr, readOctet, readSeparator, readNumber_of_noDigitAhead h]

theorem noDigitAhead_cons {radix : ℕ} {c : Char} {rest : List Char} (h : toDigit radix c = none) :
    NoDigitAhead radix (c :: rest) := by
  intro x hx
  cases hx
  exact h

/-- The segments of a mapped address. -/
theorem segments_of_toIpv4Mapped {address : Ipv6Addr} {ipv4 : Ipv4Addr}
    (h : address.toIpv4Mapped = some ipv4) :
    address.segments =
      [0, 0, 0, 0, 0, 65535, joinOctets ipv4.a ipv4.b, joinOctets ipv4.c ipv4.d] := by
  simp only [Ipv6Addr.toIpv4Mapped] at h
  split at h
  · rename_i ab cd hsegments
    cases h
    have hab : joinOctets ⟨ab.val / 256, by omega⟩ ⟨ab.val % 256, by omega⟩ = ab := by
      apply Fin.ext
      simp only [joinOctets]
      omega
    have hcd : joinOctets ⟨cd.val / 256, by omega⟩ ⟨cd.val % 256, by omega⟩ = cd := by
      apply Fin.ext
      simp only [joinOctets]
      omega
    rw [hsegments, hab, hcd]
  · cases h

/-- The last two segments may be written as an IPv4 address. -/
theorem readGroups_dotted (slots : ℕ) (ipv4 : Ipv4Addr) :
    readGroups (slots + 3) 0 ("ffff:".toList ++ ipv4.display) =
      ([65535, joinOctets ipv4.a ipv4.b, joinOctets ipv4.c ipv4.d], true, []) := by
  have hhex : readIpv4Addr ("ffff:".toList ++ ipv4.display) = none :=
    readIpv4Addr_of_noDigitAhead (noDigitAhead_cons rfl)
  have hgroup : readNumber 16 4 65536 true ("ffff:".toList ++ ipv4.display) =
      some (65535, ':' :: ipv4.display) :=
    readNumber_group 65535 (noDigitAhead_cons rfl)
  have hlast : readGroups (slots + 2) 1 (':' :: ipv4.display) =
      ([joinOctets ipv4.a ipv4.b, joinOctets ipv4.c ipv4.d], true, []) := by
    simp [readGroups, readSeparator, readGivenChar, readIpv4Addr_display]
  rw [readGroups]
  simp only [readSeparator, Nat.lt_irrefl, if_false, hhex, ite_self, hgroup, Nat.zero_add, hlast]

/-- **A mapped address is read back** from its dotted text. -/
theorem readIpv6Addr_mapped {address : Ipv6Addr} {ipv4 : Ipv4Addr}
    (h : address.toIpv4Mapped = some ipv4) :
    readIpv6Addr ("::ffff:".toList ++ ipv4.display) = some (address, []) := by
  have hnone : readIpv4Addr (':' :: ':' :: ("ffff:".toList ++ ipv4.display)) = none :=
    readIpv4Addr_of_noDigitAhead (noDigitAhead_cons rfl)
  have hstop : StopsGroups (':' :: ':' :: ("ffff:".toList ++ ipv4.display)) := .inr ⟨_, rfl⟩
  have hfirst : readGroups 8 0 (fmtSubslice [] ++
      ':' :: ':' :: ("ffff:".toList ++ ipv4.display)) =
        ([], false, ':' :: ':' :: ("ffff:".toList ++ ipv4.display)) := by
    have hgroup := hstop.readSeparator 0
    simp only [readSeparator, Nat.lt_irrefl, if_false] at hgroup
    simp only [fmtSubslice, List.nil_append, readGroups, readSeparator, Nat.lt_irrefl, if_false,
      hnone, ite_self, hgroup]
  obtain ⟨address', hread, hsegments⟩ := readIpv6Addr_doubleColon (by decide) hfirst
    (readGroups_dotted 4 ipv4)
  have heq : address' = address := by
    apply Ipv6Addr.eq_of_segments
    rw [hsegments, segments_of_toIpv4Mapped h]
    rfl
  rw [heq] at hread
  exact hread

/-! ## Parsing a whole text -/

theorem IpAddr.fromStr_of_readIpv6Addr {text : List Char} {address : Ipv6Addr}
    (h4 : readIpv4Addr text = none) (h6 : readIpv6Addr text = some (address, [])) :
    IpAddr.fromStr text = some (.v6 address) := by
  simp [IpAddr.fromStr, h4, h6]

/-- **The text without a dotted tail is parsed back.** -/
theorem IpAddr.fromStr_compressed (address : Ipv6Addr) :
    IpAddr.fromStr address.compressed = some (.v6 address) :=
  fromStr_of_readIpv6Addr (readIpv4Addr_of_not_mem (dot_not_mem_compressed address))
    (readIpv6Addr_compressed address)

/-- **The canonical text of an address is parsed back.** -/
theorem IpAddr.fromStr_display (address : IpAddr) :
    IpAddr.fromStr address.display = some address := by
  cases address with
  | v4 address => exact fromStr_display_v4 address
  | v6 address =>
      cases hmapped : address.toIpv4Mapped with
      | none =>
          simp only [IpAddr.display, Ipv6Addr.display_of_not_mapped hmapped]
          exact fromStr_compressed address
      | some ipv4 =>
          have hdisplay : address.display = "::ffff:".toList ++ ipv4.display := by
            simp [Ipv6Addr.display, hmapped]
          simp only [IpAddr.display, hdisplay]
          exact fromStr_of_readIpv6Addr (readIpv4Addr_of_noDigitAhead (noDigitAhead_cons rfl))
            (readIpv6Addr_mapped hmapped)

/-! ## The characters of a text that is an address -/

/-- A text that is an IPv4 address consists of digits and dots. -/
theorem IpAddr.mem_of_fromStr_v4 {text : List Char} {address : Ipv4Addr}
    (h : IpAddr.fromStr text = some (.v4 address)) {c : Char} (hc : c ∈ text) :
    (toDigit 10 c).isSome = true ∨ c = '.' := by
  simp only [IpAddr.fromStr] at h
  cases hread : readIpv4Addr text with
  | none =>
      simp only [hread] at h
      cases hread6 : readIpv6Addr text with
      | none => simp [hread6] at h
      | some read =>
          simp only [hread6, Option.map_some] at h
          split at h
          · rename_i heq
            cases h
            cases heq
          · cases h
  | some read =>
      obtain ⟨address, rest⟩ := read
      obtain ⟨consumed, htext, hconsumed⟩ := (readIpv4Addr_some hread).1
      simp only [hread] at h
      split at h
      · rename_i heq
        have hrest : rest = [] := congrArg Prod.snd (Option.some.inj heq)
        rw [hrest, List.append_nil] at htext
        exact hconsumed c (htext ▸ hc)
      · cases h

theorem readGroups_of_no_colon {slots : ℕ} {text : List Char} (h : ':' ∉ text) :
    (readGroups slots 0 text).1.length ≤ 2 ∧ ':' ∉ (readGroups slots 0 text).2.2 := by
  have hstop {index slots : ℕ} {rest : List Char} (hrest : ':' ∉ rest) :
      readGroups slots (index + 1) rest = ([], false, rest) := by
    have hseparator {α : Type} (inner : List Char → Option (α × List Char)) :
        readSeparator ':' (index + 1) inner rest = none := by
      cases hread : readSeparator ':' (index + 1) inner rest with
      | none => rfl
      | some read =>
          obtain ⟨a, rest'⟩ := read
          obtain ⟨input', -, ⟨-, rfl⟩ | ⟨hzero, -⟩⟩ := readSeparator_some hread
          · exact absurd List.mem_cons_self hrest
          · omega
    cases slots with
    | zero => rfl
    | succ slots => simp [readGroups, hseparator]
  cases slots with
  | zero => exact ⟨Nat.zero_le _, h⟩
  | succ slots =>
      rw [readGroups]
      simp only [readSeparator, Nat.lt_irrefl, if_false]
      split
      · rename_i v4 rest hv4
        split at hv4
        · obtain ⟨consumed, rfl, -⟩ := (readIpv4Addr_some hv4).1
          exact ⟨le_rfl, fun hmem => h (List.mem_append_right _ hmem)⟩
        · cases hv4
      · split
        · exact ⟨Nat.zero_le _, h⟩
        · rename_i group rest hgroup
          obtain ⟨digits, rfl, -⟩ := readNumber_some hgroup
          have hrest : ':' ∉ rest := fun hmem => h (List.mem_append_right _ hmem)
          rw [hstop hrest]
          exact ⟨by simp, hrest⟩

/-- A text that is an IPv6 address contains a colon. -/
theorem IpAddr.colon_mem_of_fromStr_v6 {text : List Char} {address : Ipv6Addr}
    (h : IpAddr.fromStr text = some (.v6 address)) : ':' ∈ text := by
  by_contra hcolon
  obtain ⟨hlength, hrest⟩ : (readGroups 8 0 text).1.length ≤ 2 ∧
      ':' ∉ (readGroups 8 0 text).2.2 := readGroups_of_no_colon hcolon
  have hgiven : readGivenChar ':' (readGroups 8 0 text).2.2 = none := by
    cases hread : readGivenChar ':' (readGroups 8 0 text).2.2 with
    | none => rfl
    | some rest =>
        rw [readGivenChar_some hread] at hrest
        exact absurd List.mem_cons_self hrest
  have hnone : readIpv6Addr text = none := by
    have hne : (readGroups 8 0 text).1.length ≠ 8 := by omega
    simp [readIpv6Addr, hne, hgiven]
  simp only [IpAddr.fromStr, hnone, Option.map_none] at h
  split at h
  · rename_i address' heq
    cases h
    split at heq <;> cases heq
  · cases h

/-! ## The length of a canonical text -/

theorem length_fmtSubslice_le (segments : List (Fin 65536)) :
    (fmtSubslice segments).length ≤ 5 * segments.length := by
  have hdigits (n : Fin 65536) : (Nat.toDigits 16 n.val).length ≤ 4 :=
    (Nat.length_toDigits_le_iff (by decide) (by decide)).mpr (by omega)
  induction segments with
  | nil => simp [fmtSubslice]
  | cons segment segments ih =>
      have hsegment := hdigits segment
      cases segments with
      | nil =>
          simp only [fmtSubslice, List.length_cons, List.length_nil]
          omega
      | cons next segments =>
          simp only [fmtSubslice, List.length_append, List.length_cons] at ih ⊢
          omega

theorem Ipv4Addr.length_display_le (address : Ipv4Addr) : address.display.length ≤ 15 := by
  have hdigits (n : Fin 256) : (Nat.toDigits 10 n.val).length ≤ 3 :=
    (Nat.length_toDigits_le_iff (by decide) (by decide)).mpr (by omega)
  have ha := hdigits address.a
  have hb := hdigits address.b
  have hc := hdigits address.c
  have hd := hdigits address.d
  simp only [Ipv4Addr.display, List.length_append, List.length_cons]
  omega

theorem Ipv6Addr.length_compressed_le (address : Ipv6Addr) : address.compressed.length ≤ 42 := by
  have hlength := address.length_eq
  simp only [Ipv6Addr.compressed]
  split
  · have hbefore := length_fmtSubslice_le
      (address.segments.take (longestZeros 0 ⟨0, 0⟩ ⟨0, 0⟩ address.segments).start)
    have hafter := length_fmtSubslice_le (address.segments.drop
      ((longestZeros 0 ⟨0, 0⟩ ⟨0, 0⟩ address.segments).start +
        (longestZeros 0 ⟨0, 0⟩ ⟨0, 0⟩ address.segments).len))
    have hcolons : "::".toList.length = 2 := rfl
    simp only [List.length_take, List.length_drop, List.length_append, hcolons] at *
    omega
  · have hall := length_fmtSubslice_le address.segments
    omega

theorem IpAddr.length_display_le (address : IpAddr) : address.display.length ≤ 42 := by
  cases address with
  | v4 address =>
      have hlength := address.length_display_le
      simp only [IpAddr.display]
      omega
  | v6 address =>
      cases hmapped : address.toIpv4Mapped with
      | none =>
          simp only [IpAddr.display, Ipv6Addr.display_of_not_mapped hmapped]
          exact address.length_compressed_le
      | some ipv4 =>
          have hlength := ipv4.length_display_le
          have hcolons : "::ffff:".toList.length = 7 := rfl
          simp only [IpAddr.display, Ipv6Addr.display, hmapped, List.length_append, hcolons]
          omega

end ZephyrVox.Wire
