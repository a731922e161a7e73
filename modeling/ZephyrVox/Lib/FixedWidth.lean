import Mathlib

/-!
# Unsigned numbers of a fixed width

Numbers below `2 ^ w` as natural numbers. A plain operation panics when its result
does not fit, a checked one says so, and both are `none` here; a saturating one stops
at the greatest number. Code that does both, panic and return nothing, is an `Outcome`.

## Main definitions

* `Outcome α` — a value, nothing, or a panic.
* `Outcome.Safe P o` — no panic, and a value only with the property.
* `maxValue w` — the greatest number of the width.
* `checkedAdd`, `checkedMul`, `checkedShl`, `checkedRem` — `none` where the result is
  undefined.
* `saturatingAdd`, `saturatingMul` — monotone, and exact below the bound.
-/

namespace ZephyrVox.FixedWidth

/-! ## Outcomes -/

variable {α β : Type}

/-- What a fallible computation ends with. -/
inductive Outcome (α : Type)
  | panics
  | returns (result : Option α)
  deriving DecidableEq, Repr

namespace Outcome

/-- Go on with a value only. -/
def bind : Outcome α → (α → Outcome β) → Outcome β
  | panics, _ => panics
  | returns none, _ => returns none
  | returns (some a), next => next a

instance : Monad Outcome where
  pure a := returns (some a)
  bind := bind

/-- Return nothing without a value. -/
def orNothing (result : Option α) : Outcome α := returns result

/-- Panic without a value. -/
def orPanic : Option α → Outcome α
  | some a => returns (some a)
  | none => panics

@[simp] theorem returns_some_bind (a : α) (next : α → Outcome β) :
    (returns (some a) >>= next) = next a := rfl

@[simp] theorem returns_none_bind (next : α → Outcome β) :
    (returns none >>= next) = returns none := rfl

@[simp] theorem pure_eq (a : α) : (pure a : Outcome α) = returns (some a) := rfl

@[simp] theorem orNothing_some (a : α) : orNothing (some a) = returns (some a) := rfl

@[simp] theorem orPanic_some (a : α) : orPanic (some a) = returns (some a) := rfl

/-- The computation does not panic, and what it returns has the property. -/
def Safe (P : α → Prop) (o : Outcome α) : Prop := ∃ result, o = returns result ∧ ∀ a ∈ result, P a

theorem Safe.nothing (P : α → Prop) : Safe P (returns none) :=
  ⟨none, rfl, fun _ h => absurd h (Option.not_mem_none _)⟩

theorem Safe.value {P : α → Prop} {a : α} (h : P a) : Safe P (returns (some a)) :=
  ⟨some a, rfl, fun b hb => by cases hb; exact h⟩

/-- A returned option is safe; so is one that is never missing. -/
theorem Safe.orNothing {P : α → Prop} {result : Option α} (h : ∀ a ∈ result, P a) :
    Safe P (orNothing result) := ⟨result, rfl, h⟩

/-- **Safe computations compose.** -/
theorem Safe.bind {P : α → Prop} {Q : β → Prop} {o : Outcome α} {next : α → Outcome β}
    (h : Safe P o) (hnext : ∀ a, P a → Safe Q (next a)) : Safe Q (o >>= next) := by
  obtain ⟨result, rfl, hresult⟩ := h
  cases result with
  | none => exact .nothing Q
  | some a => exact hnext a (hresult a rfl)

theorem Safe.mono {P Q : α → Prop} {o : Outcome α} (h : Safe P o) (hPQ : ∀ a, P a → Q a) :
    Safe Q o := by
  obtain ⟨result, ho, hresult⟩ := h
  exact ⟨result, ho, fun a ha => hPQ a (hresult a ha)⟩

end Outcome

/-! ## Arithmetic -/

/-- The greatest number of `w` bits. -/
def maxValue (w : ℕ) : ℕ := 2 ^ w - 1

def checkedAdd (w a b : ℕ) : Option ℕ := if a + b < 2 ^ w then some (a + b) else none

def checkedMul (w a b : ℕ) : Option ℕ := if a * b < 2 ^ w then some (a * b) else none

/-- Shifting by at least the width is undefined; bits shifted out are lost. -/
def checkedShl (w a shift : ℕ) : Option ℕ :=
  if shift < w then some (a * 2 ^ shift % 2 ^ w) else none

def checkedRem (a b : ℕ) : Option ℕ := if b = 0 then none else some (a % b)

def saturatingAdd (w a b : ℕ) : ℕ := min (a + b) (maxValue w)

def saturatingMul (w a b : ℕ) : ℕ := min (a * b) (maxValue w)

theorem lt_two_pow_iff (w n : ℕ) : n < 2 ^ w ↔ n ≤ maxValue w := by
  have hpos := Nat.two_pow_pos w
  rw [maxValue]
  omega

theorem checkedAdd_eq_some {w a b : ℕ} (h : a + b < 2 ^ w) : checkedAdd w a b = some (a + b) :=
  if_pos h

theorem checkedMul_eq_some {w a b : ℕ} (h : a * b < 2 ^ w) : checkedMul w a b = some (a * b) :=
  if_pos h

/-- A shift that loses no bit multiplies. -/
theorem checkedShl_eq_some {w a shift : ℕ} (hshift : shift < w) (h : a * 2 ^ shift < 2 ^ w) :
    checkedShl w a shift = some (a * 2 ^ shift) := by
  rw [checkedShl, if_pos hshift, Nat.mod_eq_of_lt h]

theorem checkedRem_eq_some {a b : ℕ} (h : 0 < b) : checkedRem a b = some (a % b) :=
  if_neg (Nat.ne_of_gt h)

@[gcongr] theorem saturatingAdd_le_saturatingAdd {w a b c d : ℕ} (hac : a ≤ c) (hbd : b ≤ d) :
    saturatingAdd w a b ≤ saturatingAdd w c d := by
  rw [saturatingAdd, saturatingAdd]
  gcongr

@[gcongr] theorem saturatingMul_le_saturatingMul {w a b c d : ℕ} (hac : a ≤ c) (hbd : b ≤ d) :
    saturatingMul w a b ≤ saturatingMul w c d := by
  rw [saturatingMul, saturatingMul]
  gcongr

/-- A bound that fits the width sees no saturation. -/
theorem min_saturatingAdd {w a b bound : ℕ} (h : bound < 2 ^ w) :
    min (saturatingAdd w a b) bound = min (a + b) bound := by
  rw [lt_two_pow_iff] at h
  rw [saturatingAdd, min_assoc, min_eq_right h]

theorem min_saturatingMul {w a b bound : ℕ} (h : bound < 2 ^ w) :
    min (saturatingMul w a b) bound = min (a * b) bound := by
  rw [lt_two_pow_iff] at h
  rw [saturatingMul, min_assoc, min_eq_right h]

end ZephyrVox.FixedWidth
