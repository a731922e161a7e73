import Mathlib

/-!
# Header fields

A header is a run of lines, each ended by a carriage return and a line feed, up to an
empty one. A field may carry parameters, whose values are quoted strings; in a quoted
string a backslash takes the byte after it literally, so a quote ends the string unless
an odd run of backslashes stands before it.

## Main definitions

* `readLine`, `readHeader` — the lines of a header and what follows it.
* `readQuoted` — a quoted string after its opening quote.
* `readParameters` — the parameters of a field.
* `trailing b bytes` — the length of the run of `b` at the end.
* `readQuoted_quote_iff` — when a quoted string ends at a quote written after it.
-/

namespace ZephyrVox.HeaderFields

/-- The carriage return. -/
def CR : UInt8 := 0x0d

/-- The line feed. -/
def LF : UInt8 := 0x0a

/-- The double quote. -/
def quote : UInt8 := 0x22

def backslash : UInt8 := 0x5c

def semicolon : UInt8 := 0x3b

def space : UInt8 := 0x20

def equals : UInt8 := 0x3d

/-! ## Lines -/

/-- The bytes up to the first line end, and what follows it. -/
def readLine : List UInt8 → Option (List UInt8 × List UInt8)
  | [] => none
  | byte :: rest =>
      if byte = CR ∧ rest.head? = some LF then some ([], rest.tail)
      else (readLine rest).map (Prod.map (byte :: ·) id)

/-- The lines up to an empty one, at most `fuel` of them, and what follows it. -/
def readHeader : ℕ → List UInt8 → Option (List (List UInt8) × List UInt8)
  | 0, _ => none
  | fuel + 1, bytes => do
      let (line, rest) ← readLine bytes
      if line = [] then return ([], rest)
      else (readHeader fuel rest).map (Prod.map (line :: ·) id)

/-- A line without a carriage return is read up to its end. -/
theorem readLine_append {line : List UInt8} (h : CR ∉ line) (rest : List UInt8) :
    readLine (line ++ CR :: LF :: rest) = some (line, rest) := by
  induction line with
  | nil => rfl
  | cons byte line ih =>
      rw [List.mem_cons, not_or] at h
      have hbyte : ¬ (byte = CR ∧ (line ++ CR :: LF :: rest).head? = some LF) :=
        fun hcr => h.1 hcr.1.symm
      rw [List.cons_append, readLine, if_neg hbyte, ih h.2]
      rfl

theorem readHeader_cons {line : List UInt8} (hline : line ≠ []) (h : CR ∉ line) (fuel : ℕ)
    (rest : List UInt8) :
    readHeader (fuel + 1) (line ++ CR :: LF :: rest) =
      (readHeader fuel rest).map (Prod.map (line :: ·) id) := by
  rw [readHeader, readLine_append h, Option.bind_eq_bind, Option.bind_some]
  exact if_neg hline

theorem readHeader_end (fuel : ℕ) (rest : List UInt8) :
    readHeader (fuel + 1) (CR :: LF :: rest) = some ([], rest) := rfl

/-! ## Quoted strings -/

/-- A quoted string after its opening quote: its value, and what follows its closing
quote. -/
def readQuoted : List UInt8 → Option (List UInt8 × List UInt8)
  | [] => none
  | [byte] => if byte = quote then some ([], []) else none
  | byte :: next :: rest =>
      if byte = quote then some ([], next :: rest)
      else if byte = backslash then (readQuoted rest).map (Prod.map (next :: ·) id)
      else (readQuoted (next :: rest)).map (Prod.map (byte :: ·) id)

/-- The length of the run of `b` at the end. -/
def trailing {α : Type} [DecidableEq α] (b : α) (bytes : List α) : ℕ :=
  (bytes.reverse.takeWhile (· = b)).length

theorem trailing_concat {α : Type} [DecidableEq α] (b : α) (bytes : List α) (last : α) :
    trailing b (bytes ++ [last]) = if last = b then trailing b bytes + 1 else 0 := by
  rw [trailing, trailing, List.reverse_append, List.reverse_singleton, List.singleton_append,
    List.takeWhile_cons]
  split
  next h => rw [if_pos (of_decide_eq_true h), List.length_cons]
  next h => rw [if_neg (fun heq => h (decide_eq_true heq)), List.length_nil]

theorem trailing_cons {α : Type} [DecidableEq α] (b first : α) (bytes : List α) :
    trailing b (first :: bytes) =
      if trailing b bytes = bytes.length ∧ first = b then bytes.length + 1
      else trailing b bytes := by
  simp only [trailing, List.reverse_cons, List.takeWhile_append, List.length_reverse]
  by_cases hall : (bytes.reverse.takeWhile fun x => decide (x = b)).length = bytes.length
  · by_cases hfirst : first = b
    · simp [hall, hfirst]
    · simp [hall, hfirst]
  · simp [hall]

/-- A first byte other than `b` is not in the run at the end. -/
theorem trailing_cons_of_ne {α : Type} [DecidableEq α] {b first : α} (h : first ≠ b)
    (bytes : List α) : trailing b (first :: bytes) = trailing b bytes := by
  rw [trailing_cons, if_neg fun hb => h hb.2]

/-- A pair that begins with `b` does not change whether the run at the end is even. -/
theorem trailing_pair {α : Type} [DecidableEq α] (b next : α) (bytes : List α) :
    trailing b (b :: next :: bytes) % 2 = trailing b bytes % 2 := by
  rw [trailing_cons b b, trailing_cons b next, List.length_cons]
  by_cases hnext : trailing b bytes = bytes.length ∧ next = b
  · rw [if_pos hnext, if_pos ⟨rfl, rfl⟩, hnext.1]
    omega
  · have hle : trailing b bytes ≤ bytes.length := by
      have htaken : (bytes.reverse.takeWhile (· = b)).length ≤ bytes.reverse.length :=
        List.IsPrefix.length_le <| List.takeWhile_prefix _
      rwa [List.length_reverse] at htaken
    rw [if_neg hnext, if_neg (by omega)]

/-- What follows a quoted string is shorter than it. -/
theorem length_lt_of_readQuoted {bytes value rest : List UInt8}
    (h : readQuoted bytes = some (value, rest)) : rest.length < bytes.length := by
  induction bytes using List.twoStepInduction generalizing value rest with
  | nil => cases h
  | singleton byte =>
      rw [readQuoted, Option.ite_none_right_eq_some] at h
      cases h.2
      exact Nat.zero_lt_one
  | cons_cons byte next bytes ih ih' =>
      rw [readQuoted] at h
      split at h
      · cases h
        exact Nat.lt_succ_self _
      · split at h
        · obtain ⟨⟨value', rest'⟩, hread, heq⟩ := Option.map_eq_some_iff.mp h
          cases heq
          have hlt := ih hread
          simp only [List.length_cons, id]
          omega
        · obtain ⟨⟨value', rest'⟩, hread, heq⟩ := Option.map_eq_some_iff.mp h
          cases heq
          have hlt := ih' next hread
          simp only [List.length_cons, id] at hlt ⊢
          omega

/-- Only what follows matters for whether there is a value. -/
theorem exists_map_cons {o : Option (List UInt8 × List UInt8)} {byte : UInt8}
    {rest : List UInt8} :
    (∃ value, o.map (Prod.map (byte :: ·) id) = some (value, rest)) ↔
      ∃ value, o = some (value, rest) := by
  constructor
  · rintro ⟨value, h⟩
    obtain ⟨⟨value', rest'⟩, ho, heq⟩ := Option.map_eq_some_iff.mp h
    cases heq
    exact ⟨value', ho⟩
  · rintro ⟨value, rfl⟩
    exact ⟨byte :: value, rfl⟩

theorem readQuoted_quote (rest : List UInt8) : readQuoted (quote :: rest) = some ([], rest) := by
  cases rest <;> rfl

/-- **A quoted string without quotes of its own ends at the quote written after it**
exactly when its run of backslashes at the end is even. -/
theorem readQuoted_quote_iff {bytes : List UInt8} (h : quote ∉ bytes) (rest : List UInt8) :
    (∃ value, readQuoted (bytes ++ quote :: rest) = some (value, rest)) ↔
      trailing backslash bytes % 2 = 0 := by
  induction bytes using List.twoStepInduction with
  | nil => exact iff_of_true ⟨[], readQuoted_quote rest⟩ rfl
  | singleton byte =>
      have hbyte : byte ≠ quote := fun heq => h (heq ▸ List.mem_singleton_self _)
      rw [List.singleton_append, readQuoted, if_neg hbyte]
      split
      next hback =>
        subst hback
        refine iff_of_false ?_ (by decide)
        rw [exists_map_cons]
        rintro ⟨value, hread⟩
        exact Nat.lt_irrefl _ (length_lt_of_readQuoted hread)
      next hback =>
        rw [exists_map_cons, trailing_cons_of_ne hback]
        exact iff_of_true ⟨[], readQuoted_quote rest⟩ rfl
  | cons_cons byte next bytes ih ih' =>
      rw [List.mem_cons, not_or] at h
      have htail := h.2
      rw [List.mem_cons, not_or] at htail
      rw [List.cons_append, List.cons_append, readQuoted, if_neg (Ne.symm h.1)]
      split
      next hback => rw [exists_map_cons, hback, trailing_pair, ih htail.2]
      next hback =>
        rw [exists_map_cons, trailing_cons_of_ne hback, ← List.cons_append, ih' next h.2]

/-! ## Parameters -/

/-- The parameters of a field, at most `fuel` of them: a semicolon, a name and a quoted
string each. -/
def readParameters : ℕ → List UInt8 → Option (List (List UInt8 × List UInt8))
  | _, [] => some []
  | 0, _ :: _ => none
  | fuel + 1, byte :: rest =>
      let field := rest.dropWhile (· = space)
      if byte = semicolon ∧ ((field.dropWhile (· ≠ equals)).drop 1).head? = some quote then do
        let (value, after) ← readQuoted ((field.dropWhile (· ≠ equals)).drop 2)
        let parameters ← readParameters fuel after
        return (field.takeWhile (· ≠ equals), value) :: parameters
      else none

/-- A parameter is read up to the end of its quoted string. -/
theorem readParameters_cons {name : List UInt8} (hspace : name.head? ≠ some space)
    (hequals : equals ∉ name) (fuel : ℕ) (text : List UInt8) :
    readParameters (fuel + 1) (semicolon :: space :: (name ++ equals :: quote :: text)) = do
      let (value, after) ← readQuoted text
      let parameters ← readParameters fuel after
      return (name, value) :: parameters := by
  have hname : ∀ byte ∈ name, decide (byte ≠ equals) = true := by
    intro byte hbyte
    exact decide_eq_true fun heq => hequals (heq ▸ hbyte)
  have hfield : (space :: (name ++ equals :: quote :: text)).dropWhile (· = space) =
      name ++ equals :: quote :: text := by
    rw [List.dropWhile_cons_of_pos (by decide)]
    cases name with
    | nil => exact List.dropWhile_cons_of_neg (by decide)
    | cons first name =>
        have hfirst : first ≠ space := fun heq => hspace (by rw [heq]; rfl)
        exact List.dropWhile_cons_of_neg (by simpa using hfirst)
  have htake : (name ++ equals :: quote :: text).takeWhile (· ≠ equals) = name := by
    rw [List.takeWhile_append_of_pos hname, List.takeWhile_cons_of_neg (by decide),
      List.append_nil]
  have hdrop : (name ++ equals :: quote :: text).dropWhile (· ≠ equals) =
      equals :: quote :: text := by
    rw [List.dropWhile_append_of_pos hname, List.dropWhile_cons_of_neg (by decide)]
  rw [readParameters]
  dsimp only
  rw [hfield, hdrop, htake]
  exact if_pos ⟨rfl, rfl⟩

end ZephyrVox.HeaderFields
