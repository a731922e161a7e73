import ZephyrVox.Wire.IpText
import ZephyrVox.Wire.ServerCard

/-!
# Normalized hosts

A normalized host is accepted as it is: the canonical text of an address parses
as that address again, and lowering a DNS name neither changes its labels nor
makes it the text of an address.

## Main definitions

* `Bare` — a text that trimming and the removal of brackets leave alone.
* `normalizeHost_idem` — a normalized host is normalized.
* `normalizeHost_bracketed` — an address in brackets is normalized to its text.
-/

namespace ZephyrVox.Wire

open Numeral

/-! ## Trimming -/

theorem dropWhile_of_head {p : Char → Bool} {text : List Char}
    (h : ∀ c ∈ text.head?, p c = false) : text.dropWhile p = text := by
  cases text with
  | nil => rfl
  | cons c text => simp [List.dropWhile, h c rfl]

/-- Nothing is trimmed off a text with no whitespace at its ends. -/
theorem trim_of_ends {text : List Char} (hhead : ∀ c ∈ text.head?, isWhitespace c = false)
    (hlast : ∀ c ∈ text.getLast?, isWhitespace c = false) : trim text = text := by
  rw [trim, dropWhile_of_head hhead, dropWhile_of_head, List.reverse_reverse]
  rw [List.head?_reverse]
  exact hlast

/-- A trimmed text has no whitespace at its ends. -/
theorem trim_trim (text : List Char) : trim (trim text) = trim text := by
  have hdrop (text : List Char) : ∀ c ∈ (text.dropWhile isWhitespace).head?,
      isWhitespace c = false := by
    intro c hc
    have hne := List.head?_dropWhile_not isWhitespace text
    rw [Option.mem_def] at hc
    rw [hc] at hne
    simpa using hne
  apply trim_of_ends
  · -- the first character survives the removal at the end
    intro c hc
    have hprefix : trim text <+: text.dropWhile isWhitespace := by
      rw [trim, ← List.reverse_suffix, List.reverse_reverse]
      exact List.dropWhile_suffix _
    obtain ⟨rest, hrest⟩ := hprefix
    have hfirst := hdrop text
    rw [← hrest, List.head?_append, Option.mem_def.mp hc] at hfirst
    exact hfirst c rfl
  · intro c hc
    rw [trim, List.getLast?_reverse] at hc
    exact hdrop _ c hc

/-- A text without whitespace that does not begin with a bracket. -/
structure Bare (text : List Char) : Prop where
  printed : ∀ c ∈ text, isWhitespace c = false
  bracket : text.head? ≠ some '['

theorem trim_of_printed {text : List Char} (h : ∀ c ∈ text, isWhitespace c = false) :
    trim text = text :=
  trim_of_ends (fun c hc => h c (List.mem_of_mem_head? hc))
    fun c hc => h c (List.mem_of_mem_getLast? hc)

theorem Bare.stripBrackets {text : List Char} (H : Bare text) : Wire.stripBrackets text = text := by
  cases text with
  | nil => rfl
  | cons c text =>
      have hc : c ≠ '[' := fun heq => H.bracket (by rw [heq]; rfl)
      unfold Wire.stripBrackets
      split
      · rename_i heq
        cases heq
        exact absurd rfl hc
      · rfl

/-- A text between 1 and 253 bytes without whitespace, as the first check of
`normalizeHost` demands. -/
structure Sized (text : List Char) : Prop where
  nonempty : text ≠ []
  length : byteLength text ≤ 253
  printed : ∀ c ∈ text, isWhitespace c = false

theorem Sized.check {text : List Char} (H : Sized text) :
    ¬ (text.isEmpty || byteLength text > 253 || text.any isWhitespace) = true := by
  have hany : text.any isWhitespace = false := by
    rw [List.any_eq_false]
    intro c hc
    simp [H.printed c hc]
  simp [hany, H.nonempty, H.length]

/-- An address is normalized to its canonical text. -/
theorem normalizeHost_of_address {host : String} {text : List Char} {address : IpAddr}
    (hstrip : stripBrackets (trim host.toList) = text) (H : Sized text)
    (haddress : IpAddr.fromStr text = some address) :
    normalizeHost host = .ok (String.ofList address.display) := by
  simp only [normalizeHost, hstrip]
  rw [if_neg H.check]
  simp only [haddress]

/-- A DNS name is lowered. -/
theorem normalizeHost_of_name {host : String} {text : List Char}
    (hstrip : stripBrackets (trim host.toList) = text) (H : Sized text)
    (haddress : IpAddr.fromStr text = none) (hchars : ∀ c ∈ text, isLabelChar c = true ∨ c = '.')
    (hlabels : (splitDots text).all isLabel = true) :
    normalizeHost host = .ok (String.ofList (text.map Char.toLower)) := by
  have hnone (c : Char) (hc : isLabelChar c = false) (hdot : c ≠ '.') :
      text.contains c = false := by
    rw [List.contains_eq_mem, decide_eq_false_iff_not]
    intro hmem
    rcases hchars c hmem with h | h
    · rw [hc] at h
      cases h
    · exact hdot h
  have hseparators :
      ¬ (text.contains ':' || text.contains '/' || text.contains '\\') = true := by
    simp only [hnone ':' (by decide) (by decide), hnone '/' (by decide) (by decide),
      hnone '\\' (by decide) (by decide), Bool.or_self, Bool.false_eq_true, not_false_iff]
  simp only [normalizeHost, hstrip]
  rw [if_neg H.check]
  simp only [haddress]
  rw [if_neg hseparators, if_pos hlabels]

/-! ## Canonical texts -/

theorem isWhitespace_of_digit {c : Char} (h : (toDigit 16 c).isSome = true) :
    isWhitespace c = false := by
  by_contra hspace
  simp only [Bool.not_eq_false, isWhitespace, Bool.or_eq_true, Bool.and_eq_true, decide_eq_true_eq,
    beq_iff_eq] at hspace
  have hnone : toDigit 16 c = none := by
    have h0 : ¬ ('0' ≤ c ∧ c ≤ '9') := by
      intro hrange
      have hlow : 48 ≤ c.toNat := UInt32.le_iff_toNat_le.mp hrange.1
      have hhigh : c.toNat ≤ 57 := UInt32.le_iff_toNat_le.mp hrange.2
      omega
    have ha : ¬ ('a' ≤ c ∧ c ≤ 'z') := by
      intro hrange
      have hlow : 97 ≤ c.toNat := UInt32.le_iff_toNat_le.mp hrange.1
      have hhigh : c.toNat ≤ 122 := UInt32.le_iff_toNat_le.mp hrange.2
      omega
    have hA : ¬ ('A' ≤ c ∧ c ≤ 'Z') := by
      intro hrange
      have hlow : 65 ≤ c.toNat := UInt32.le_iff_toNat_le.mp hrange.1
      have hhigh : c.toNat ≤ 90 := UInt32.le_iff_toNat_le.mp hrange.2
      omega
    simp [toDigit, h0, ha, hA]
  rw [hnone] at h
  cases h

/-- The characters of addresses: hexadecimal digits, colons and dots. -/
def isAddressChar (c : Char) : Bool := (toDigit 16 c).isSome || c == ':' || c == '.'

theorem isWhitespace_of_isAddressChar {c : Char} (h : isAddressChar c = true) :
    isWhitespace c = false := by
  simp only [isAddressChar, Bool.or_eq_true, beq_iff_eq] at h
  rcases h with (h | rfl) | rfl
  · exact isWhitespace_of_digit h
  · decide
  · decide

theorem Ipv6Addr.isAddressChar_of_mem_compressed {address : Ipv6Addr} {c : Char}
    (h : c ∈ address.compressed) : isAddressChar c = true := by
  have hslice (segments : List (Fin 65536)) (hc : c ∈ fmtSubslice segments) :
      isAddressChar c = true := by
    rcases mem_fmtSubslice hc with hc | hc <;> simp [isAddressChar, hc]
  simp only [Ipv6Addr.compressed] at h
  split at h
  · rcases List.mem_append.mp h with h | h
    · rcases List.mem_append.mp h with h | h
      · exact hslice _ h
      · have hall : ∀ x ∈ "::".toList, x = ':' := by simp
        rw [hall c h]
        rfl
    · exact hslice _ h
  · exact hslice _ h

theorem IpAddr.isAddressChar_of_mem_display {address : IpAddr} {c : Char}
    (h : c ∈ address.display) : isAddressChar c = true := by
  cases address with
  | v4 address =>
      rcases Ipv4Addr.mem_display h with h | h
      · simp [isAddressChar, toDigit_isSome_of_isDigit h]
      · simp [isAddressChar, h]
  | v6 address =>
      rcases Ipv6Addr.mem_display h with h | h | h <;> simp [isAddressChar, h]

theorem byteLength_le (text : List Char) : byteLength text ≤ 4 * text.length := by
  induction text with
  | nil => simp [byteLength]
  | cons c text ih =>
      have hc := Char.utf8Size_le_four c
      simp only [byteLength, List.map_cons, List.sum_cons, List.length_cons] at ih ⊢
      omega

theorem IpAddr.display_ne_nil (address : IpAddr) : address.display ≠ [] := by
  intro hnil
  have hparse := fromStr_display address
  rw [hnil] at hparse
  cases hparse

/-- The canonical text of an address passes the first check of `normalizeHost`. -/
theorem IpAddr.sized_display (address : IpAddr) : Sized address.display where
  nonempty := address.display_ne_nil
  length := by
    have hbytes := byteLength_le address.display
    have hlength := address.length_display_le
    omega
  printed := fun _ hc => isWhitespace_of_isAddressChar (isAddressChar_of_mem_display hc)

/-- A text of address characters is bare. -/
theorem bare_of_isAddressChar {text : List Char} (h : ∀ c ∈ text, isAddressChar c = true) :
    Bare text where
  printed := fun c hc => isWhitespace_of_isAddressChar (h c hc)
  bracket := by
    intro hhead
    have hbracket := h '[' (List.mem_of_mem_head? hhead)
    revert hbracket
    decide

theorem Bare.strip_trim {text : List Char} (H : Bare text) :
    Wire.stripBrackets (trim text) = text := by
  rw [trim_of_printed H.printed, H.stripBrackets]

/-- **The canonical text of an address is normalized.** -/
theorem normalizeHost_display (address : IpAddr) :
    normalizeHost (String.ofList address.display) = .ok (String.ofList address.display) := by
  apply normalizeHost_of_address _ address.sized_display (IpAddr.fromStr_display address)
  rw [String.toList_ofList]
  exact (bare_of_isAddressChar fun _ hc => IpAddr.isAddressChar_of_mem_display hc).strip_trim

/-- **An address in brackets** is normalized to its canonical text. -/
theorem normalizeHost_bracketed (address : Ipv6Addr) :
    normalizeHost ("[" ++ String.ofList address.compressed ++ "]") =
      .ok (String.ofList address.display) := by
  have hchars (c : Char) (hc : c ∈ address.compressed) :=
    Ipv6Addr.isAddressChar_of_mem_compressed hc
  have hparse := IpAddr.fromStr_compressed address
  apply normalizeHost_of_address _ _ hparse
  · have htext : ("[" ++ String.ofList address.compressed ++ "]").toList =
        '[' :: (address.compressed ++ [']']) := by simp
    rw [htext, trim_of_printed]
    · simp [Wire.stripBrackets]
    · intro c hc
      rcases List.mem_cons.mp hc with rfl | hc
      · decide
      · rcases List.mem_append.mp hc with hc | hc
        · exact isWhitespace_of_isAddressChar (hchars c hc)
        · rw [List.mem_singleton.mp hc]
          decide
  · refine ⟨?_, ?_, fun c hc => isWhitespace_of_isAddressChar (hchars c hc)⟩
    · intro hnil
      rw [hnil] at hparse
      cases hparse
    · have hbytes := byteLength_le address.compressed
      have hlength := address.length_compressed_le
      omega

/-! ## Lowered names -/

/-- Lowering does not change how many bytes a character takes. -/
theorem utf8Size_toLower (c : Char) : c.toLower.utf8Size = c.utf8Size := by
  unfold Char.toLower
  split
  · rename_i h
    have hlow : 65 ≤ c.val.toNat := UInt32.le_iff_toNat_le.mp h.1
    have hhigh : c.val.toNat ≤ 90 := UInt32.le_iff_toNat_le.mp h.2
    have hval : (c.val + ('a'.val - 'A'.val)).toNat = c.val.toNat + 32 := by
      have hshift : ('a'.val - 'A'.val).toNat = 32 := rfl
      rw [UInt32.toNat_add]
      omega
    have hascii : (127 : UInt32).toNat = 127 := rfl
    rw [Char.utf8Size_eq_one_iff.mpr, Char.utf8Size_eq_one_iff.mpr]
    · rw [UInt32.le_iff_toNat_le, hascii]
      omega
    · rw [UInt32.le_iff_toNat_le, hascii, hval]
      omega
  · rfl

theorem byteLength_map_toLower (text : List Char) :
    byteLength (text.map Char.toLower) = byteLength text := by
  simp [byteLength, Function.comp_def, utf8Size_toLower]

/-- Only a character that is no letter is lowered to one that is none. -/
theorem eq_of_toLower_eq {c d : Char} (h : c.toLower = d) (hd : d.isLower = false) : c = d := by
  rcases toLower_eq_or_isLower c with hc | hc
  · rw [← hc, h]
  · rw [h, hd] at hc
    cases hc

theorem splitDots_map_toLower (text : List Char) :
    splitDots (text.map Char.toLower) = (splitDots text).map (List.map Char.toLower) := by
  induction text with
  | nil => rfl
  | cons c text ih =>
      by_cases hdot : c = '.'
      · have hlower : c.toLower = '.' := by rw [hdot]; rfl
        simp [splitDots, hdot, ih]
      · have hlower : c.toLower ≠ '.' := fun h => hdot (eq_of_toLower_eq h rfl)
        cases hsplit : splitDots text with
        | nil => exact absurd hsplit (splitDots_ne_nil text)
        | cons label labels =>
            rw [hsplit] at ih
            simp [splitDots, hdot, hlower, hsplit, ih]

theorem isLabel_map_toLower {label : List Char} (h : isLabel label = true) :
    isLabel (label.map Char.toLower) = true := by
  simp only [isLabel, Bool.and_eq_true, Bool.not_eq_true', decide_eq_true_eq, bne_iff_ne, ne_eq,
    List.all_eq_true] at h ⊢
  obtain ⟨⟨⟨⟨hne, hlength⟩, hhead⟩, hlast⟩, hchars⟩ := h
  refine ⟨⟨⟨⟨by simpa using hne, ?_⟩, ?_⟩, ?_⟩, ?_⟩
  · rw [byteLength_map_toLower]
    exact hlength
  · rw [List.head?_map]
    intro hhyphen
    obtain ⟨c, hc, hlower⟩ := Option.map_eq_some_iff.mp hhyphen
    rw [eq_of_toLower_eq hlower rfl] at hc
    exact hhead hc
  · rw [List.getLast?_map]
    intro hhyphen
    obtain ⟨c, hc, hlower⟩ := Option.map_eq_some_iff.mp hhyphen
    rw [eq_of_toLower_eq hlower rfl] at hc
    exact hlast hc
  · intro c hc
    obtain ⟨x, hx, rfl⟩ := List.mem_map.mp hc
    exact isLabelChar_toLower (hchars x hx)

theorem isWhitespace_of_isLabelChar {c : Char} (h : isLabelChar c = true) :
    isWhitespace c = false := by
  by_contra hspace
  simp only [Bool.not_eq_false, isWhitespace, Bool.or_eq_true, Bool.and_eq_true, decide_eq_true_eq,
    beq_iff_eq] at hspace
  simp only [isLabelChar, Char.isAlphanum, Char.isAlpha, Char.isUpper, Char.isLower, Char.isDigit,
    Bool.or_eq_true, Bool.and_eq_true, decide_eq_true_eq, beq_iff_eq, ge_iff_le,
    UInt32.le_iff_toNat_le] at h
  have hval : c.val.toNat = c.toNat := rfl
  have hA : 'A'.val.toNat = 65 := rfl
  have hZ : 'Z'.val.toNat = 90 := rfl
  have ha : 'a'.val.toNat = 97 := rfl
  have hz : 'z'.val.toNat = 122 := rfl
  have h0 : '0'.val.toNat = 48 := rfl
  have h9 : '9'.val.toNat = 57 := rfl
  rcases h with h | rfl
  · omega
  · revert hspace
    decide

theorem not_isLower_of_digit {c : Char} (h : (toDigit 10 c).isSome = true) : c.isLower = false := by
  by_contra hlower
  simp only [Bool.not_eq_false, Char.isLower, Bool.and_eq_true, decide_eq_true_eq, ge_iff_le,
    UInt32.le_iff_toNat_le] at hlower
  have ha : 'a'.val.toNat = 97 := rfl
  have hval : c.val.toNat = c.toNat := rfl
  have hdigit : ¬ ('0' ≤ c ∧ c ≤ '9') := by
    intro hrange
    have hhigh : c.toNat ≤ 57 := UInt32.le_iff_toNat_le.mp hrange.2
    omega
  have hnone : toDigit 10 c = none := by
    simp only [toDigit, hdigit, if_false]
    split
    · simp
    · split
      · simp
      · rfl
  rw [hnone] at h
  cases h

/-- A name that is no address is none in lower case. -/
theorem fromStr_map_toLower {text : List Char} (h : IpAddr.fromStr text = none)
    (hchars : ∀ c ∈ text, isLabelChar c = true ∨ c = '.') :
    IpAddr.fromStr (text.map Char.toLower) = none := by
  cases hparse : IpAddr.fromStr (text.map Char.toLower) with
  | none => rfl
  | some address =>
      cases address with
      | v4 address =>
          -- digits and dots are not lowered, so the text itself would be the address
          have hsame : ∀ c ∈ text, c.toLower = c := by
            intro c hc
            rcases toLower_eq_or_isLower c with heq | hlower
            · exact heq
            · rcases IpAddr.mem_of_fromStr_v4 hparse (List.mem_map_of_mem hc) with hd | hd
              · rw [not_isLower_of_digit hd] at hlower
                cases hlower
              · rw [hd] at hlower
                cases hlower
          rw [(List.map_congr_left hsame).trans (List.map_id' text), h] at hparse
          cases hparse
      | v6 address =>
          obtain ⟨c, hc, hcolon⟩ := List.mem_map.mp (IpAddr.colon_mem_of_fromStr_v6 hparse)
          have heq : c = ':' := eq_of_toLower_eq hcolon rfl
          rcases hchars c hc with hlabel | hdot
          · rw [heq] at hlabel
            exact absurd hlabel (by decide)
          · rw [heq] at hdot
            cases hdot

/-- The characters of a text whose parts are labels. -/
theorem isLabelChar_of_splitDots {text : List Char} (h : (splitDots text).all isLabel = true)
    {c : Char} (hc : c ∈ text) : isLabelChar c = true ∨ c = '.' := by
  rcases mem_splitDots hc with hdot | ⟨label, hlabel, hmem⟩
  · exact .inr hdot
  · have hvalid := List.all_eq_true.mp h label hlabel
    simp only [isLabel, Bool.and_eq_true] at hvalid
    exact .inl (List.all_eq_true.mp hvalid.2 c hmem)

/-- **A lowered name is normalized.** -/
theorem normalizeHost_lowered {text : List Char} (H : Sized text)
    (haddress : IpAddr.fromStr text = none) (hlabels : (splitDots text).all isLabel = true) :
    normalizeHost (String.ofList (text.map Char.toLower)) =
      .ok (String.ofList (text.map Char.toLower)) := by
  have hchars (c : Char) (hc : c ∈ text.map Char.toLower) : isLabelChar c = true ∨ c = '.' := by
    obtain ⟨x, hx, rfl⟩ := List.mem_map.mp hc
    rcases isLabelChar_of_splitDots hlabels hx with hlabel | hdot
    · exact .inl (isLabelChar_toLower hlabel)
    · rw [hdot]
      exact .inr rfl
  have hprinted (c : Char) (hc : c ∈ text.map Char.toLower) : isWhitespace c = false := by
    rcases hchars c hc with hlabel | hdot
    · exact isWhitespace_of_isLabelChar hlabel
    · rw [hdot]
      decide
  have hbare : Bare (text.map Char.toLower) := by
    refine ⟨hprinted, fun hhead => ?_⟩
    rcases hchars '[' (List.mem_of_mem_head? hhead) with h | h
    · exact absurd h (by decide)
    · cases h
  have hsized : Sized (text.map Char.toLower) := by
    refine ⟨by simpa using H.nonempty, ?_, hprinted⟩
    rw [byteLength_map_toLower]
    exact H.length
  have hlabels' : (splitDots (text.map Char.toLower)).all isLabel = true := by
    rw [splitDots_map_toLower, List.all_map, List.all_eq_true]
    intro label hlabel
    exact isLabel_map_toLower (List.all_eq_true.mp hlabels label hlabel)
  have hidem : (text.map Char.toLower).map Char.toLower = text.map Char.toLower := by
    simp [Function.comp_def]
  have hnormal : normalizeHost (String.ofList (text.map Char.toLower)) = _ := normalizeHost_of_name
    (by rw [String.toList_ofList]; exact hbare.strip_trim) hsized
    (fromStr_map_toLower haddress fun c hc => isLabelChar_of_splitDots hlabels hc) hchars hlabels'
  rw [hidem] at hnormal
  exact hnormal

/-- **A normalized host is normalized.** -/
theorem normalizeHost_idem {host accepted : String} (h : normalizeHost host = .ok accepted) :
    normalizeHost accepted = .ok accepted := by
  simp only [normalizeHost] at h
  generalize Wire.stripBrackets (trim host.toList) = text at h
  split at h
  · cases h
  · rename_i hcheck
    simp only [Bool.or_eq_true, decide_eq_true_eq, not_or, List.any_eq_true, not_exists,
      not_and] at hcheck
    obtain ⟨⟨hne, hlength⟩, hprinted⟩ := hcheck
    split at h
    · cases h
      exact normalizeHost_display _
    · rename_i haddress
      split at h
      · cases h
      · split at h
        · rename_i hlabels
          cases h
          refine normalizeHost_lowered ⟨by simpa using hne, by omega, fun c hc => ?_⟩ haddress
            hlabels
          simpa using hprinted c hc
        · cases h

end ZephyrVox.Wire
