import Mathlib
import ZephyrVox.Lib.Bytes

/-!
# Definite-length elements

An element is a tag, the octets of its length and its content. A length below 128 is
one octet; any length that fits is also written as the number of its octets and these,
most significant first, with leading zeros or without.

## Main definitions

* `IsLength octets n` — the octets denote the length `n`.
* `Element` — an element with the octets of its length; `Element.bytes` is its text.
-/

namespace ZephyrVox.Der

open Bytes

/-- The octets of a length, in short form or in long form of one to eight bytes. -/
inductive IsLength : List UInt8 → ℕ → Prop
  | short (octet : UInt8) (h : octet.toNat < 128) : IsLength [octet] octet.toNat
  | long (count : UInt8) (octets : List UInt8) (hcount : count.toNat = 128 + octets.length)
      (hpos : 0 < octets.length) (hle : octets.length ≤ 8) :
      IsLength (count :: octets) (ofBeBytes octets)

/-- An element of definite length. -/
structure Element where
  tag : UInt8
  octets : List UInt8
  content : List UInt8
  isLength : IsLength octets content.length

namespace Element

/-- The octets before the content. -/
def header (e : Element) : List UInt8 := e.tag :: e.octets

/-- The complete element. -/
def bytes (e : Element) : List UInt8 := e.header ++ e.content

@[simp] theorem length_bytes (e : Element) :
    e.bytes.length = e.header.length + e.content.length := List.length_append

/-- An element whose length takes one octet. -/
def ofShort (tag : UInt8) (content : List UInt8) (h : content.length < 128) : Element where
  tag := tag
  octets := [UInt8.ofNat content.length]
  content := content
  isLength := by
    have hoctet : (UInt8.ofNat content.length).toNat = content.length := by
      rw [UInt8.toNat_ofNat']
      omega
    have hshort := IsLength.short (UInt8.ofNat content.length) (by omega)
    rwa [hoctet] at hshort

theorem length_header (e : Element) : e.header.length = e.octets.length + 1 := rfl

end Element

end ZephyrVox.Der
