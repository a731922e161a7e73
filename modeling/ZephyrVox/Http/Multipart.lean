import ZephyrVox.Lib.HeaderFields
import ZephyrVox.Lib.Utf8
import ZephyrVox.Types.Parse

/-!
# The avatar upload

An avatar is sent as the one part of a multipart body. The caller's filename and content
type are written into the header of the part after control characters and double quotes
are taken out of them. No line can be added that way; but a backslash is kept, and a
consumer that reads the filename as a quoted string takes the closing quote for an
escaped one when an odd run of backslashes stands before it.

## Main definitions

* `multipartBoundary`, `multipartBody`, `headerValue` — the encoder.
* `PartIntact` — a consumer reads the two lines, the two parameters and no more.
* `partIntact_iff` — the filenames for which it does.
-/

namespace ZephyrVox.Http

open HeaderFields Utf8

/-! ## The encoder -/

/-- A control character of ASCII. -/
def isAsciiControl (c : Char) : Bool := c.toNat < 0x20 || c.toNat == 0x7f

/-- The characters that are kept in a header value. -/
def isHeaderChar (c : Char) : Bool := !isAsciiControl c && c.toNat != 0x22

/-- A header value: what is kept of a text, or a fallback if nothing is. -/
def headerValue (value fallback : String) : String :=
  let filtered := String.ofList (value.toList.filter isHeaderChar)
  if filtered = "" then fallback else filtered

/-- The boundary of a body, from the clock. -/
def multipartBoundary (nanos : ℕ) : String :=
  "zephyrvox-" ++ String.ofList (Nat.toDigits 16 nanos)

/-- A body of one part. -/
def multipartBody (boundary filename contentType : String) (bytes : List UInt8) : List UInt8 :=
  let safeFilename := headerValue filename "upload.bin"
  let safeContentType := headerValue contentType "application/octet-stream"
  utf8Bytes ("--" ++ boundary ++ "\r\n") ++
    utf8Bytes ("Content-Disposition: form-data; name=\"file\"; filename=\"" ++ safeFilename ++
      "\"\r\n") ++
    utf8Bytes ("Content-Type: " ++ safeContentType ++ "\r\n\r\n") ++
    bytes ++
    utf8Bytes ("\r\n--" ++ boundary ++ "--\r\n")

/-! ## What a consumer reads -/

/-- The first line of the header of the part. -/
def dispositionLine (filename : String) : List UInt8 :=
  utf8Bytes ("Content-Disposition: form-data; name=\"file\"; filename=\"" ++
    headerValue filename "upload.bin" ++ "\"")

/-- The second line of the header of the part. -/
def typeLine (contentType : String) : List UInt8 :=
  utf8Bytes ("Content-Type: " ++ headerValue contentType "application/octet-stream")

/-- A body after the line of the boundary, if it begins with that. -/
def afterOpening (boundary : String) (body : List UInt8) : Option (List UInt8) :=
  let opening := utf8Bytes ("--" ++ boundary ++ "\r\n")
  if opening.isPrefixOf body then some (body.drop opening.length) else none

/-- The parameters of a content disposition. -/
def dispositionParameters (line : List UInt8) : Option (List (List UInt8 × List UInt8)) :=
  let field := utf8Bytes "Content-Disposition: form-data"
  if field.isPrefixOf line then readParameters line.length (line.drop field.length) else none

/-- The header of the part is what it is meant to be: the two lines and an empty one stand
before the payload; the quoted string of the filename ends at the quote written after it;
and the first line has two parameters. -/
structure PartIntact (boundary filename contentType : String) (bytes : List UInt8) : Prop where
  lines : ∃ part, afterOpening boundary (multipartBody boundary filename contentType bytes) =
      some part ∧
    readHeader part.length part = some ([dispositionLine filename, typeLine contentType],
      bytes ++ utf8Bytes ("\r\n--" ++ boundary ++ "--\r\n"))
  unbroken : ∀ line ∈ [dispositionLine filename, typeLine contentType],
    CR ∉ line ∧ LF ∉ line
  quoted : ∃ value, readQuoted (utf8Bytes (headerValue filename "upload.bin") ++ [quote]) =
    some (value, [])
  parameters : ∃ value, dispositionParameters (dispositionLine filename) =
    some [(utf8Bytes "name", utf8Bytes "file"), (utf8Bytes "filename", value)]

/-- The filename, without the characters that are taken out, ends in an even run of
backslashes. -/
def EvenBackslashes (filename : String) : Prop :=
  trailing '\\' (filename.toList.filter isHeaderChar) % 2 = 0

instance (filename : String) : Decidable (EvenBackslashes filename) :=
  inferInstanceAs (Decidable (trailing '\\' (filename.toList.filter isHeaderChar) % 2 = 0))

/-! ## Header values -/

theorem utf8Bytes_append (a b : String) : utf8Bytes (a ++ b) = utf8Bytes a ++ utf8Bytes b := by
  rw [utf8Bytes, utf8Bytes, utf8Bytes, String.toList_append, List.flatMap_append]

/-- The characters of a header value. -/
theorem isHeaderChar_of_mem {value fallback : String} (hfallback : ∀ c ∈ fallback.toList,
    isHeaderChar c = true) {c : Char} (h : c ∈ (headerValue value fallback).toList) :
    isHeaderChar c = true := by
  rw [headerValue] at h
  split at h
  · exact hfallback c h
  · rw [String.toList_ofList] at h
    exact (List.mem_filter.mp h).2

/-- The bytes that a header value never has. -/
theorem not_mem_headerValue (value : String) {fallback : String}
    (hfallback : ∀ c ∈ fallback.toList, isHeaderChar c = true) :
    CR ∉ utf8Bytes (headerValue value fallback) ∧ LF ∉ utf8Bytes (headerValue value fallback) ∧
      quote ∉ utf8Bytes (headerValue value fallback) := by
  have hchar {byte : UInt8} (hlow : byte.toNat < 128)
      (hnot : ∀ c : Char, c.toNat = byte.toNat → isHeaderChar c = false) :
      byte ∉ utf8Bytes (headerValue value fallback) := by
    intro hmem
    obtain ⟨c, hc, hbyte⟩ := exists_of_mem_encode hlow hmem
    have hkept := isHeaderChar_of_mem hfallback hc
    rw [hnot c hbyte] at hkept
    cases hkept
  refine ⟨hchar (by decide) ?_, hchar (by decide) ?_, hchar (by decide) ?_⟩
  · intro c hc
    simp [isHeaderChar, isAsciiControl, hc, CR]
  · intro c hc
    simp [isHeaderChar, isAsciiControl, hc, LF]
  · intro c hc
    simp [isHeaderChar, isAsciiControl, hc, quote]

/-- The run of backslashes at the end, in bytes and in characters. -/
theorem trailing_encode (cs : List Char) :
    trailing backslash (encode cs) = trailing '\\' cs := by
  induction cs using List.reverseRecOn with
  | nil => rfl
  | append_singleton cs c ih =>
      rw [encode_append, trailing_concat]
      by_cases hc : c = '\\'
      · subst hc
        have hbyte : encode ['\\'] = [backslash] := by decide
        rw [hbyte, trailing_concat, if_pos rfl, if_pos rfl, ih]
      · have hnonempty : encode [c] ≠ [] := by
          rw [encode_cons, encode_nil, List.append_nil]
          exact String.utf8EncodeChar_ne_nil
        obtain ⟨init, last, hlast⟩ := (List.eq_nil_or_concat (encode [c])).resolve_left hnonempty
        have hne : last ≠ backslash := by
          rintro rfl
          have hmem : backslash ∈ encode [c] := by simp [hlast]
          obtain ⟨d, hd, hnat⟩ := exists_of_mem_encode (by decide) hmem
          rw [List.mem_singleton.mp hd] at hnat
          exact hc (Char.toNat_inj.mp hnat)
        rw [hlast, List.concat_eq_append, ← List.append_assoc, trailing_concat, if_neg hne,
          if_neg hc]

/-- The backslashes at the end of the filename that is sent. -/
theorem trailing_headerValue (filename : String) :
    trailing backslash (utf8Bytes (headerValue filename "upload.bin")) =
      trailing '\\' (filename.toList.filter isHeaderChar) := by
  have hfallback : trailing '\\' "upload.bin".toList = 0 := by decide
  rw [utf8Bytes, ← encode, trailing_encode, headerValue]
  split
  next hempty =>
    have hnone : filename.toList.filter isHeaderChar = [] := by
      rw [← String.toList_ofList (l := filename.toList.filter isHeaderChar), hempty]
      rfl
    rw [hnone, hfallback]
    rfl
  next => rw [String.toList_ofList]

/-! ## The header of the part -/

/-- The first line, with its quotes. -/
theorem dispositionLine_eq (filename : String) :
    dispositionLine filename = utf8Bytes "Content-Disposition: form-data" ++
      semicolon :: space :: (utf8Bytes "name" ++ equals :: quote :: (utf8Bytes "file" ++
        quote :: semicolon :: space :: (utf8Bytes "filename" ++ equals :: quote ::
          (utf8Bytes (headerValue filename "upload.bin") ++ [quote])))) := by
  have hlead : utf8Bytes "Content-Disposition: form-data; name=\"file\"; filename=\"" =
      utf8Bytes "Content-Disposition: form-data" ++
        semicolon :: space :: (utf8Bytes "name" ++ equals :: quote :: (utf8Bytes "file" ++
          quote :: semicolon :: space :: (utf8Bytes "filename" ++ [equals, quote]))) := by
    decide +kernel
  have hclose : utf8Bytes "\"" = [quote] := by decide
  rw [dispositionLine, utf8Bytes_append, utf8Bytes_append, hlead, hclose]
  simp only [List.append_assoc, List.cons_append, List.nil_append]

/-- The two lines, the empty one and what follows them. -/
def linesThen (filename contentType : String) (rest : List UInt8) : List UInt8 :=
  dispositionLine filename ++
    CR :: LF :: (typeLine contentType ++ CR :: LF :: (CR :: LF :: rest))

/-- The body in its parts. -/
theorem multipartBody_eq (boundary filename contentType : String) (bytes : List UInt8) :
    multipartBody boundary filename contentType bytes =
      utf8Bytes ("--" ++ boundary ++ "\r\n") ++ linesThen filename contentType
        (bytes ++ utf8Bytes ("\r\n--" ++ boundary ++ "--\r\n")) := by
  have hend : utf8Bytes "\"\r\n" = utf8Bytes "\"" ++ [CR, LF] := by decide
  have hblank : utf8Bytes "\r\n\r\n" = [CR, LF, CR, LF] := by decide
  simp only [multipartBody, linesThen, dispositionLine, typeLine, utf8Bytes_append, hend, hblank,
    List.append_assoc, List.cons_append, List.nil_append]

/-- The fallbacks are header values. -/
theorem isHeaderChar_fallback {fallback : String}
    (h : fallback = "upload.bin" ∨ fallback = "application/octet-stream") (c : Char)
    (hc : c ∈ fallback.toList) : isHeaderChar c = true := by
  have hall : ("upload.bin".toList.all isHeaderChar &&
      "application/octet-stream".toList.all isHeaderChar) = true := by decide
  rw [Bool.and_eq_true, List.all_eq_true, List.all_eq_true] at hall
  rcases h with rfl | rfl
  · exact hall.1 c hc
  · exact hall.2 c hc

/-- **Neither line is broken**, whatever the filename and the content type. -/
theorem lines_unbroken (filename contentType : String) :
    ∀ line ∈ [dispositionLine filename, typeLine contentType], CR ∉ line ∧ LF ∉ line := by
  obtain ⟨hcr, hlf, -⟩ := not_mem_headerValue filename
    (isHeaderChar_fallback (.inl rfl))
  obtain ⟨hcr', hlf', -⟩ := not_mem_headerValue contentType
    (isHeaderChar_fallback (.inr rfl))
  intro line hline
  rcases List.mem_pair.mp hline with rfl | rfl
  · have hlead : CR ∉ utf8Bytes "Content-Disposition: form-data; name=\"file\"; filename=\"" ∧
        LF ∉ utf8Bytes "Content-Disposition: form-data; name=\"file\"; filename=\"" := by
      decide +kernel
    have hclose : CR ∉ utf8Bytes "\"" ∧ LF ∉ utf8Bytes "\"" := by decide
    simp only [dispositionLine, utf8Bytes_append, List.mem_append, not_or]
    exact ⟨⟨⟨hlead.1, hcr⟩, hclose.1⟩, ⟨hlead.2, hlf⟩, hclose.2⟩
  · have hlead : CR ∉ utf8Bytes "Content-Type: " ∧ LF ∉ utf8Bytes "Content-Type: " := by decide
    simp only [typeLine, utf8Bytes_append, List.mem_append, not_or]
    exact ⟨⟨hlead.1, hcr'⟩, hlead.2, hlf'⟩

theorem afterOpening_multipartBody (boundary filename contentType : String) (bytes : List UInt8) :
    afterOpening boundary (multipartBody boundary filename contentType bytes) =
      some (linesThen filename contentType
        (bytes ++ utf8Bytes ("\r\n--" ++ boundary ++ "--\r\n"))) := by
  rw [afterOpening, multipartBody_eq, List.isPrefixOf_iff_prefix.mpr (List.prefix_append _ _)]
  exact congrArg some List.drop_left

/-- **A consumer reads two lines and an empty one**, whatever follows. -/
theorem readHeader_linesThen (filename contentType : String) (rest : List UInt8) :
    readHeader (linesThen filename contentType rest).length (linesThen filename contentType rest) =
      some ([dispositionLine filename, typeLine contentType], rest) := by
  have hunbroken := lines_unbroken filename contentType
  have hdisposition := hunbroken _ List.mem_cons_self
  have htype := hunbroken _ (List.mem_cons_of_mem _ List.mem_cons_self)
  have hdispositionNe : dispositionLine filename ≠ [] := by
    rw [dispositionLine_eq]
    simp
  have htypeNe : typeLine contentType ≠ [] := by
    have hlead : utf8Bytes "Content-Type: " ≠ [] := by decide
    rw [typeLine, utf8Bytes_append]
    exact List.append_ne_nil_of_left_ne_nil hlead _
  obtain ⟨fuel, hfuel⟩ : ∃ fuel, (linesThen filename contentType rest).length = fuel + 3 := by
    refine ⟨_, (Nat.sub_add_cancel ?_).symm⟩
    simp only [linesThen, List.length_append, List.length_cons]
    omega
  rw [hfuel, linesThen, readHeader_cons hdispositionNe hdisposition.1,
    readHeader_cons htypeNe htype.1, readHeader_end]
  rfl

/-- The parameters that are read when the filename ends at its quote. -/
theorem parameters_of_quoted {filename : String} {value : List UInt8}
    (h : readQuoted (utf8Bytes (headerValue filename "upload.bin") ++ [quote]) =
      some (value, [])) :
    dispositionParameters (dispositionLine filename) =
      some [(utf8Bytes "name", utf8Bytes "file"), (utf8Bytes "filename", value)] := by
  have hname : (utf8Bytes "name").head? ≠ some space ∧ equals ∉ utf8Bytes "name" := by decide
  have hfilename : (utf8Bytes "filename").head? ≠ some space ∧ equals ∉ utf8Bytes "filename" := by
    decide
  have hfile (rest : List UInt8) :
      readQuoted (utf8Bytes "file" ++ quote :: semicolon :: rest) =
        some (utf8Bytes "file", semicolon :: rest) := rfl
  obtain ⟨fuel, hfuel⟩ : ∃ fuel, (dispositionLine filename).length = fuel + 2 := by
    refine ⟨_, (Nat.sub_add_cancel ?_).symm⟩
    rw [dispositionLine_eq]
    simp only [List.length_append, List.length_cons]
    omega
  rw [dispositionParameters, hfuel, dispositionLine_eq,
    List.isPrefixOf_iff_prefix.mpr (List.prefix_append _ _)]
  simp only [if_true, List.drop_left]
  rw [readParameters_cons hname.1 hname.2, hfile, Option.bind_eq_bind, Option.bind_some]
  dsimp only
  rw [readParameters_cons hfilename.1 hfilename.2, h]
  cases fuel <;> rfl

/-- **The part is intact exactly for filenames that end, as they are sent, in an even run
of backslashes**, whatever the boundary, the content type and the payload. -/
theorem partIntact_iff (boundary filename contentType : String) (bytes : List UInt8) :
    PartIntact boundary filename contentType bytes ↔ EvenBackslashes filename := by
  have hquote := (not_mem_headerValue filename
    (isHeaderChar_fallback (.inl rfl))).2.2
  have hends := readQuoted_quote_iff hquote []
  rw [trailing_headerValue] at hends
  constructor
  · intro h
    exact hends.mp h.quoted
  · intro h
    obtain ⟨value, hvalue⟩ := hends.mpr h
    exact ⟨⟨_, afterOpening_multipartBody boundary filename contentType bytes,
      readHeader_linesThen filename contentType _⟩, lines_unbroken filename contentType,
      ⟨value, hvalue⟩, ⟨value, parameters_of_quoted hvalue⟩⟩

/-- A filename with one backslash at its end takes the closing quote with it, and the
parameters cannot be read. -/
theorem backslash_takes_quote :
    ¬ PartIntact (multipartBoundary 0) "a\\" "image/png" [] ∧
      dispositionParameters (dispositionLine "a\\") = none := by
  have hnone : readQuoted (utf8Bytes (headerValue "a\\" "upload.bin") ++ [quote]) = none := by
    decide +kernel
  refine ⟨fun h => ?_, by decide +kernel⟩
  obtain ⟨value, hvalue⟩ := h.quoted
  rw [hnone] at hvalue
  cases hvalue

end ZephyrVox.Http
