import Mathlib

/-!
# Reading numerals

A numeral is a list of digit characters in some radix. Reading takes the longest
prefix of digits, so a numeral followed by anything but a digit is read back
exactly.

## Main definitions

* `toDigit radix c` — the value of a digit character.
* `spanDigits radix cs` — the longest prefix of digits, as values, and the rest.
* `ofDigits radix ds` — the number a list of digit values denotes.
* `spanDigits_toDigits` — reading back a rendered number.
-/

namespace ZephyrVox.Numeral

/-- The value of a digit character, letters of both cases included. -/
def toDigit (radix : ℕ) (c : Char) : Option ℕ :=
  let value :=
    if '0' ≤ c ∧ c ≤ '9' then some (c.toNat - '0'.toNat)
    else if 'a' ≤ c ∧ c ≤ 'z' then some (c.toNat - 'a'.toNat + 10)
    else if 'A' ≤ c ∧ c ≤ 'Z' then some (c.toNat - 'A'.toNat + 10)
    else none
  value.filter (· < radix)

/-- The values of the leading digits and what follows them. -/
def spanDigits (radix : ℕ) : List Char → List ℕ × List Char
  | [] => ([], [])
  | c :: cs =>
      match toDigit radix c with
      | some d => (d :: (spanDigits radix cs).1, (spanDigits radix cs).2)
      | none => ([], c :: cs)

/-- The number a list of digit values denotes, most significant first. -/
def ofDigits (radix : ℕ) (ds : List ℕ) : ℕ := ds.foldl (fun acc d => acc * radix + d) 0

/-- The characters `cs` are the digits `ds`. -/
def Denotes (radix : ℕ) (cs : List Char) (ds : List ℕ) : Prop :=
  cs.map (toDigit radix) = ds.map some

/-- The text does not begin with a digit. -/
def NoDigitAhead (radix : ℕ) (cs : List Char) : Prop := ∀ c ∈ cs.head?, toDigit radix c = none

theorem ofDigits_concat (radix : ℕ) (ds : List ℕ) (d : ℕ) :
    ofDigits radix (ds ++ [d]) = ofDigits radix ds * radix + d := by
  simp [ofDigits]

theorem toDigit_digitChar {radix d : ℕ} (hr : radix ≤ 16) (hd : d < radix) :
    toDigit radix (Nat.digitChar d) = some d := by
  have h : ∀ d < 16, ∀ radix ≤ 16, d < radix → toDigit radix (Nat.digitChar d) = some d := by
    decide
  exact h d (Nat.lt_of_lt_of_le hd hr) radix hr hd

/-- The rendered digits of a number denote it. -/
theorem denotes_toDigits {radix : ℕ} (h1 : 1 < radix) (hr : radix ≤ 16) (n : ℕ) :
    ∃ ds, Denotes radix (Nat.toDigits radix n) ds ∧ ofDigits radix ds = n := by
  induction n using Nat.strongRecOn with
  | ind n ih =>
      rw [Nat.toDigits_eq_if h1]
      split
      next hlt =>
        refine ⟨[n], ?_, ?_⟩
        · simp [Denotes, toDigit_digitChar hr hlt]
        · simp [ofDigits]
      next hge =>
        have hpos : 0 < n := by omega
        obtain ⟨ds, hds, hval⟩ := ih (n / radix) (Nat.div_lt_self hpos h1)
        refine ⟨ds ++ [n % radix], ?_, ?_⟩
        · have hlast := toDigit_digitChar hr (Nat.mod_lt n (Nat.lt_trans Nat.zero_lt_one h1))
          simp only [Denotes, List.map_append, List.map_cons, List.map_nil, hlast]
          rw [hds]
        · rw [ofDigits_concat, hval]
          exact Nat.div_add_mod' n radix

/-- A rendered number is made of the characters of digits. -/
theorem exists_digitChar_of_mem {radix : ℕ} (h1 : 1 < radix) {n : ℕ} {c : Char}
    (hc : c ∈ Nat.toDigits radix n) : ∃ d < radix, c = Nat.digitChar d := by
  induction n using Nat.strongRecOn with
  | ind n ih =>
      rw [Nat.toDigits_eq_if h1] at hc
      split at hc
      next hlt => exact ⟨n, hlt, List.mem_singleton.mp hc⟩
      next hge =>
        rcases List.mem_append.mp hc with hinit | hlast
        · exact ih (n / radix) (Nat.div_lt_self (by omega) h1) hinit
        · exact ⟨n % radix, Nat.mod_lt n (by omega), List.mem_singleton.mp hlast⟩

/-- Reading stops exactly after the digits. -/
theorem spanDigits_append {radix : ℕ} {cs rest : List Char} {ds : List ℕ}
    (h : Denotes radix cs ds) (hrest : NoDigitAhead radix rest) :
    spanDigits radix (cs ++ rest) = (ds, rest) := by
  induction cs generalizing ds with
  | nil =>
      have hds : ds = [] := List.map_eq_nil_iff.mp (show ds.map some = [] from h.symm)
      subst hds
      cases rest with
      | nil => rfl
      | cons c rest => simp [spanDigits, hrest c rfl]
  | cons c cs ih =>
      cases ds with
      | nil => simp [Denotes] at h
      | cons d ds =>
          simp only [Denotes, List.map_cons, List.cons.injEq] at h
          simp [spanDigits, h.1, ih h.2]

/-- What was read and what follows it make up the text. -/
theorem exists_denotes_spanDigits (radix : ℕ) (cs : List Char) :
    ∃ digits, cs = digits ++ (spanDigits radix cs).2 ∧
      Denotes radix digits (spanDigits radix cs).1 := by
  induction cs with
  | nil => exact ⟨[], rfl, rfl⟩
  | cons c cs ih =>
      cases hc : toDigit radix c with
      | none => exact ⟨[], by simp [spanDigits, hc], by simp [spanDigits, hc, Denotes]⟩
      | some d =>
          obtain ⟨digits, hcs, hdigits⟩ := ih
          refine ⟨c :: digits, ?_, ?_⟩
          · simp only [spanDigits, hc, List.cons_append]
            rw [← hcs]
          · simp only [spanDigits, hc, Denotes, List.map_cons]
            rw [hdigits]

/-- Every character of a numeral is a digit. -/
theorem Denotes.isSome_of_mem {radix : ℕ} {cs : List Char} {ds : List ℕ}
    (h : Denotes radix cs ds) {c : Char} (hc : c ∈ cs) : (toDigit radix c).isSome := by
  have hmem : toDigit radix c ∈ cs.map (toDigit radix) := List.mem_map_of_mem hc
  rw [h] at hmem
  obtain ⟨d, -, hd⟩ := List.mem_map.mp hmem
  rw [← hd]
  rfl

theorem Denotes.length_eq {radix : ℕ} {cs : List Char} {ds : List ℕ}
    (h : Denotes radix cs ds) : ds.length = cs.length := by
  simpa using (congrArg List.length h).symm

/-- **A rendered number is read back.** -/
theorem spanDigits_toDigits {radix : ℕ} (h1 : 1 < radix) (hr : radix ≤ 16) (n : ℕ)
    {rest : List Char} (hrest : NoDigitAhead radix rest) :
    ∃ ds, spanDigits radix (Nat.toDigits radix n ++ rest) = (ds, rest) ∧
      ofDigits radix ds = n ∧ ds.length = (Nat.toDigits radix n).length := by
  obtain ⟨ds, hds, hval⟩ := denotes_toDigits h1 hr n
  exact ⟨ds, spanDigits_append hds hrest, hval, hds.length_eq⟩

/-- Every character of a rendered number is a digit. -/
theorem toDigit_isSome_of_mem {radix : ℕ} (h1 : 1 < radix) (hr : radix ≤ 16) (n : ℕ) {c : Char}
    (hc : c ∈ Nat.toDigits radix n) : (toDigit radix c).isSome := by
  obtain ⟨ds, hds, -⟩ := denotes_toDigits h1 hr n
  exact hds.isSome_of_mem hc

end ZephyrVox.Numeral
