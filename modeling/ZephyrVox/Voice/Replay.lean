import ZephyrVox.Voice.Worker

/-!
# The replay window as a set

The window keeps 128 bits of history in two words, relative to the highest
sequence it has admitted. It behaves as the set of all admitted sequences with
one rule: a sequence is admitted if it is not zero, was not admitted before, and
is less than 128 below the highest one.

## Main definitions

* `ReplayWindow.bit` — the bit of an offset below the high-water mark.
* `ReplayWindow.feed` — the window and the admitted sequences after some values.
* `ReplayWindow.Represents` — a window stands for a set of sequences.
* `ReplayWindow.checkedAccept` — `accept` with its shifts and accesses checked.
* `replay_window_is_set` — the window admits what the set specification admits.
-/

namespace ZephyrVox.Voice

namespace ReplayWindow

variable {w : ReplayWindow} {offset shift k : ℕ}

/-! ## Bits of the window -/

/-- Whether the sequence `offset` below the high-water mark is marked. -/
def bit (w : ReplayWindow) (offset : ℕ) : Bool := (w.word offset).getLsbD (offset % 64)

/-- A mask of one bit tests that bit. -/
theorem and_mask_eq_zero (x : BitVec 64) {b : ℕ} (hb : b < 64) :
    (x &&& (1#64 <<< b) == 0) = !x.getLsbD b := by
  have hne : BitVec.twoPow 64 b ≠ 0#64 := by
    intro hzero
    have hbit := congrArg (fun y : BitVec 64 => y.getLsbD b) hzero
    simp [hb] at hbit
  rw [← BitVec.twoPow_eq, BitVec.and_twoPow]
  cases x.getLsbD b with
  | true => simpa using hne
  | false => simp

theorem wouldAccept_eq (w : ReplayWindow) (sequence : ℕ) :
    w.wouldAccept sequence = true ↔ sequence ≠ 0 ∧ (w.high < sequence ∨
      (w.high - sequence < 128 ∧ w.bit (w.high - sequence) = false)) := by
  unfold wouldAccept
  by_cases hzero : sequence = 0
  · simp [hzero]
  by_cases hnew : w.high < sequence
  · simp [hzero, hnew]
  by_cases hold : 128 ≤ w.high - sequence
  · simp [hzero, hnew, hold, Nat.not_lt.mpr hold]
  rw [if_neg hzero, if_neg hnew, if_neg hold, and_mask_eq_zero _ (Nat.mod_lt _ (by decide))]
  simp [hzero, hnew, Nat.lt_of_not_le hold, bit]

/-- A word and a bit of it name an offset. -/
theorem bit_of_lt (h : offset < 64) : w.bit offset = w.low.getLsbD offset := by
  simp [bit, word, Nat.div_eq_of_lt h, Nat.mod_eq_of_lt h]

theorem bit_of_ge (h : 64 ≤ offset) (h' : offset < 128) :
    w.bit offset = w.upper.getLsbD (offset - 64) := by
  have hdiv : offset / 64 = 1 := by omega
  have hmod : offset % 64 = offset - 64 := by omega
  simp [bit, word, hdiv, hmod]

/-- Marking sets one bit. -/
theorem bit_mark (hoffset : offset < 128) (hk : k < 128) :
    (w.mark offset).bit k = (w.bit k || decide (k = offset)) := by
  unfold mark
  by_cases hlow : offset < 64
  · rw [if_pos (Nat.div_eq_of_lt hlow), Nat.mod_eq_of_lt hlow]
    by_cases hk64 : k < 64
    · rw [bit_of_lt hk64, bit_of_lt hk64, ← BitVec.twoPow_eq]
      simp [BitVec.getLsbD_twoPow, hlow, eq_comm]
    · rw [bit_of_ge (Nat.le_of_not_lt hk64) hk, bit_of_ge (Nat.le_of_not_lt hk64) hk]
      have hne : k ≠ offset := by omega
      simp [hne]
  · have hdiv : ¬ offset / 64 = 0 := by omega
    have hmod : offset % 64 = offset - 64 := by omega
    rw [if_neg hdiv, hmod]
    by_cases hk64 : k < 64
    · rw [bit_of_lt hk64, bit_of_lt hk64]
      have hne : k ≠ offset := by omega
      simp [hne]
    · have heq : (offset - 64 = k - 64) = (k = offset) := by
        apply propext
        omega
      have hsmall : offset - 64 < 64 := by omega
      rw [bit_of_ge (Nat.le_of_not_lt hk64) hk, bit_of_ge (Nat.le_of_not_lt hk64) hk,
        ← BitVec.twoPow_eq]
      simp [BitVec.getLsbD_twoPow, hsmall, heq]

/-- Shifting moves every bit up by the shift. -/
theorem bit_shiftLeft (hpos : 0 < shift) (hshift : shift < 128) (hk : k < 128) :
    (w.shiftLeft shift).bit k = (decide (shift ≤ k) && w.bit (k - shift)) := by
  unfold shiftLeft
  rw [if_neg (Nat.ne_of_gt hpos)]
  by_cases hsmall : shift < 64
  · rw [if_pos hsmall]
    by_cases hk64 : k < 64
    · rw [bit_of_lt hk64, bit_of_lt (by omega : k - shift < 64)]
      simp only [BitVec.getLsbD_shiftLeft, hk64, decide_true, Bool.true_and]
      by_cases hle : shift ≤ k
      · simp only [hle, Nat.not_lt.mpr hle, decide_true, decide_false, Bool.not_false]
      · simp only [hle, Nat.lt_of_not_le hle, decide_true, decide_false, Bool.not_true,
          Bool.false_and]
    · rw [bit_of_ge (Nat.le_of_not_lt hk64) hk]
      have hle : shift ≤ k := by omega
      simp only [BitVec.getLsbD_or, BitVec.getLsbD_shiftLeft, BitVec.getLsbD_ushiftRight]
      by_cases hcarry : k - shift < 64
      · -- The bit comes from the low word.
        have hlt : k - 64 < shift := by omega
        have hindex : 64 - shift + (k - 64) = k - shift := by omega
        rw [bit_of_lt hcarry, hindex]
        simp [hle, hlt]
      · have hge : ¬ k - 64 < shift := by omega
        have hindex : k - 64 - shift = k - shift - 64 := by omega
        have hout : w.low.getLsbD (64 - shift + (k - 64)) = false :=
          BitVec.getLsbD_of_ge _ _ (by omega)
        have hin : k - 64 < 64 := by omega
        rw [bit_of_ge (Nat.le_of_not_lt hcarry) (by omega), hout, hindex]
        simp [hle, hge, hin]
  · rw [if_neg hsmall]
    by_cases hk64 : k < 64
    · rw [bit_of_lt hk64]
      have hlt : ¬ shift ≤ k := by omega
      simp [hlt]
    · rw [bit_of_ge (Nat.le_of_not_lt hk64) hk, bit_of_lt (by omega : k - shift < 64)]
      have hin : k - 64 < 64 := by omega
      have hindex : k - 64 - (shift - 64) = k - shift := by omega
      have hlt : (k - 64 < shift - 64) = (k < shift) := by
        apply propext
        omega
      simp only [BitVec.getLsbD_shiftLeft, hindex, hlt, hin]
      by_cases hle : shift ≤ k
      · simp [hle, Nat.not_lt.mpr hle]
      · simp [hle, Nat.lt_of_not_le hle]

/-! ## The set of admitted sequences -/

/-- The highest of some sequences, zero if there are none. -/
def highest (seen : List ℕ) : ℕ := seen.foldr max 0

/-- One call of `accept`, with the admitted sequences so far, latest first. -/
def offer (state : ReplayWindow × List ℕ) (sequence : ℕ) : ReplayWindow × List ℕ :=
  ((state.1.accept sequence).1,
    if (state.1.accept sequence).2 then sequence :: state.2 else state.2)

/-- The window and the admitted sequences after some values. -/
def feed (values : List ℕ) : ReplayWindow × List ℕ := values.foldl offer (default, [])

/-- A window stands for a set of sequences. -/
structure Represents (w : ReplayWindow) (seen : List ℕ) : Prop where
  high : w.high = highest seen
  bits : ∀ k < 128, w.bit k = true ↔ k ≤ w.high ∧ w.high - k ∈ seen
  nonzero : 0 ∉ seen

theorem le_highest {seen : List ℕ} {sequence : ℕ} (h : sequence ∈ seen) :
    sequence ≤ highest seen := by
  induction seen with
  | nil => cases h
  | cons head seen ih =>
      rcases List.mem_cons.mp h with rfl | h
      · exact Nat.le_max_left _ _
      · exact Nat.le_trans (ih h) (Nat.le_max_right _ _)

theorem represents_default : Represents default [] where
  high := rfl
  bits k _ := by
    have hbit : default.bit k = false := by
      unfold bit word default
      split <;> simp
    simp [hbit]
  nonzero := List.not_mem_nil

/-- The window admits what the set specification admits. -/
theorem Represents.wouldAccept_iff {seen : List ℕ} (R : Represents w seen) (sequence : ℕ) :
    w.wouldAccept sequence = true ↔
      sequence ≠ 0 ∧ sequence ∉ seen ∧ (highest seen : ℤ) - 128 < sequence := by
  rw [wouldAccept_eq, ← R.high]
  refine and_congr_right fun _ => ?_
  by_cases hnew : w.high < sequence
  · have hfresh : sequence ∉ seen := by
      intro hmem
      have := le_highest hmem
      rw [← R.high] at this
      omega
    simp only [hnew, true_or, hfresh, not_false_eq_true, true_and, true_iff]
    omega
  · have hback : w.high - (w.high - sequence) = sequence := by omega
    constructor
    · rintro (h | ⟨hrange, hbit⟩)
      · exact absurd h hnew
      · refine ⟨?_, by omega⟩
        intro hmem
        have := (R.bits _ hrange).mpr ⟨Nat.sub_le _ _, by rw [hback]; exact hmem⟩
        rw [hbit] at this
        cases this
    · rintro ⟨hfresh, hrange⟩
      have hlt : w.high - sequence < 128 := by omega
      refine .inr ⟨hlt, ?_⟩
      cases hbit : w.bit (w.high - sequence) with
      | false => rfl
      | true =>
          have hmem := ((R.bits _ hlt).mp hbit).2
          rw [hback] at hmem
          exact absurd hmem hfresh

/-- A new high-water mark moves the history up and marks itself. -/
theorem bit_accept_high {sequence : ℕ} (hnew : w.high < sequence) (hk : k < 128) :
    (w.accept sequence).1.bit k =
      (decide (k = 0) || (decide (sequence - w.high ≤ k) && w.bit (k - (sequence - w.high)))) ∧
      (w.accept sequence).1.high = sequence := by
  have hzero : sequence ≠ 0 := by omega
  have hwould : w.wouldAccept sequence = true :=
    (wouldAccept_eq w sequence).mpr ⟨hzero, .inl hnew⟩
  -- The bits of the shifted history.
  have hmarked (v : ReplayWindow) :
      ({ v with high := sequence, low := v.low ||| 1 } : ReplayWindow).bit k =
        (decide (k = 0) || v.bit k) := by
    by_cases hk64 : k < 64
    · rw [bit_of_lt hk64, bit_of_lt hk64, Bool.or_comm]
      have hone : (1 : BitVec 64).getLsbD k = decide (k = 0) := by
        rw [show (1 : BitVec 64) = 1#64 from rfl, BitVec.getLsbD_one]
        simp
      rw [BitVec.getLsbD_or, hone]
    · have hne : k ≠ 0 := by omega
      rw [bit_of_ge (Nat.le_of_not_lt hk64) hk, bit_of_ge (Nat.le_of_not_lt hk64) hk]
      simp [hne]
  unfold accept
  rw [if_pos hwould, if_pos hnew]
  refine ⟨?_, rfl⟩
  simp only
  rw [hmarked]
  congr 1
  by_cases hfar : 128 ≤ sequence - w.high
  · have hle : ¬ sequence - w.high ≤ k := by omega
    rw [if_pos hfar]
    simp only [hle, decide_false, Bool.false_and]
    unfold bit word
    split <;> simp
  · rw [if_neg hfar]
    exact bit_shiftLeft (by omega) (by omega) hk

/-- Admitting a sequence adds it to the set. -/
theorem Represents.accept {seen : List ℕ} (R : Represents w seen) {sequence : ℕ}
    (h : w.wouldAccept sequence = true) :
    Represents (w.accept sequence).1 (sequence :: seen) := by
  obtain ⟨hzero, -, -⟩ := (R.wouldAccept_iff sequence).mp h
  by_cases hnew : w.high < sequence
  · have hhigh : (w.accept sequence).1.high = sequence :=
      (bit_accept_high (k := 0) hnew (by decide)).2
    refine ⟨?_, ?_, ?_⟩
    · rw [hhigh]
      have := R.high
      simp only [highest, List.foldr_cons] at this ⊢
      omega
    · intro k hk
      rw [(bit_accept_high hnew hk).1, hhigh]
      simp only [Bool.or_eq_true, decide_eq_true_eq, Bool.and_eq_true, List.mem_cons]
      constructor
      · rintro (rfl | ⟨hle, hbit⟩)
        · exact ⟨Nat.zero_le _, .inl (Nat.sub_zero _)⟩
        · obtain ⟨hrange, hmem⟩ := (R.bits _ (by omega)).mp hbit
          have hindex : w.high - (k - (sequence - w.high)) = sequence - k := by omega
          rw [hindex] at hmem
          exact ⟨by omega, .inr hmem⟩
      · rintro ⟨hrange, hself | hmem⟩
        · exact .inl (by omega)
        · refine .inr ?_
          have hle := le_highest hmem
          rw [← R.high] at hle
          have hindex : w.high - (k - (sequence - w.high)) = sequence - k := by omega
          refine ⟨by omega, (R.bits _ (by omega)).mpr ⟨?_, by rw [hindex]; exact hmem⟩⟩
          omega
    · intro hmem
      rcases List.mem_cons.mp hmem with heq | hmem
      · exact hzero heq.symm
      · exact R.nonzero hmem
  · have hrange : w.high - sequence < 128 := by
      rcases (wouldAccept_eq w sequence).mp h with ⟨-, hlt | ⟨hlt, -⟩⟩
      · exact absurd hlt hnew
      · exact hlt
    have haccept : (w.accept sequence).1 = w.mark (w.high - sequence) := by
      simp [ReplayWindow.accept, h, hnew]
    have hhigh : (w.mark (w.high - sequence)).high = w.high := by
      unfold mark
      split <;> rfl
    rw [haccept]
    refine ⟨?_, ?_, ?_⟩
    · rw [hhigh, R.high]
      have := R.high
      simp only [highest, List.foldr_cons] at this ⊢
      omega
    · intro k hk
      rw [bit_mark hrange hk, hhigh]
      simp only [Bool.or_eq_true, decide_eq_true_eq, List.mem_cons]
      constructor
      · rintro (hbit | rfl)
        · obtain ⟨hle, hmem⟩ := (R.bits k hk).mp hbit
          exact ⟨hle, .inr hmem⟩
        · exact ⟨Nat.sub_le _ _, .inl (by omega)⟩
      · rintro ⟨hle, hself | hmem⟩
        · exact .inr (by omega)
        · exact .inl ((R.bits k hk).mpr ⟨hle, hmem⟩)
    · intro hmem
      rcases List.mem_cons.mp hmem with heq | hmem
      · exact hzero heq.symm
      · exact R.nonzero hmem

theorem accept_snd (w : ReplayWindow) (sequence : ℕ) :
    (w.accept sequence).2 = w.wouldAccept sequence := by
  unfold accept
  split
  case isTrue h =>
    rw [h]
    split <;> rfl
  case isFalse h => simpa using h

/-- A rejecting call leaves the window alone. -/
theorem accept_of_rejected {sequence : ℕ} (h : (w.accept sequence).2 = false) :
    (w.accept sequence).1 = w := by
  rw [accept_snd] at h
  simp [accept, h]

theorem represents_offer {state : ReplayWindow × List ℕ} (R : Represents state.1 state.2)
    (sequence : ℕ) : Represents (offer state sequence).1 (offer state sequence).2 := by
  unfold offer
  cases haccept : (state.1.accept sequence).2 with
  | true =>
      rw [accept_snd] at haccept
      exact R.accept haccept
  | false =>
      rw [accept_of_rejected haccept]
      exact R

/-- **Every fed window stands for the set of the sequences it admitted.** -/
theorem represents_feed (values : List ℕ) : Represents (feed values).1 (feed values).2 := by
  have hfold : ∀ (values : List ℕ) (state : ReplayWindow × List ℕ), Represents state.1 state.2 →
      Represents (values.foldl offer state).1 (values.foldl offer state).2 := by
    intro values
    induction values with
    | nil => exact fun _ R => R
    | cons sequence values ih => exact fun state R => ih _ (represents_offer R sequence)
  exact hfold values _ represents_default

/-! ## Shifts and accesses -/

/-- A left shift of a word; the amount has to be below the width. -/
def checkedShl (x : BitVec 64) (n : ℕ) : Option (BitVec 64) :=
  if n < 64 then some (x <<< n) else none

/-- A right shift of a word. -/
def checkedShr (x : BitVec 64) (n : ℕ) : Option (BitVec 64) :=
  if n < 64 then some (x >>> n) else none

/-- The word of an index into the two words. -/
def checkedWord (w : ReplayWindow) (index : ℕ) : Option (BitVec 64) :=
  if index = 0 then some w.low else if index = 1 then some w.upper else none

/-- `would_accept`, checked. -/
def checkedWouldAccept (w : ReplayWindow) (sequence : ℕ) : Option Bool :=
  if sequence = 0 then some false
  else if w.high < sequence then some true
  else if 128 ≤ w.high - sequence then some false
  else do
    let word ← w.checkedWord ((w.high - sequence) / 64)
    let mask ← checkedShl 1#64 ((w.high - sequence) % 64)
    some (word &&& mask == 0)

/-- `shift_left`, checked; its last branch is unreachable. -/
def checkedShiftLeft (w : ReplayWindow) (shift : ℕ) : Option ReplayWindow :=
  if shift = 0 then some w
  else if shift < 64 then do
    let upper ← checkedShl w.upper shift
    let carry ← checkedShr w.low (64 - shift)
    let low ← checkedShl w.low shift
    some { w with upper := upper ||| carry, low := low }
  else if shift < 128 then do
    let upper ← checkedShl w.low (shift - 64)
    some { w with upper := upper, low := 0 }
  else none

/-- Set one bit, checked. -/
def checkedMark (w : ReplayWindow) (offset : ℕ) : Option ReplayWindow := do
  let word ← w.checkedWord (offset / 64)
  let mask ← checkedShl 1#64 (offset % 64)
  some (if offset / 64 = 0 then { w with low := word ||| mask }
    else { w with upper := word ||| mask })

/-- `accept`, checked: `none` is a panic. -/
def checkedAccept (w : ReplayWindow) (sequence : ℕ) : Option (ReplayWindow × Bool) := do
  let accepted ← w.checkedWouldAccept sequence
  if accepted then
    if w.high < sequence then
      let shifted ←
        if 128 ≤ sequence - w.high then some { w with low := 0, upper := 0 }
        else w.checkedShiftLeft (sequence - w.high)
      some ({ shifted with high := sequence, low := shifted.low ||| 1 }, true)
    else
      let marked ← w.checkedMark (w.high - sequence)
      some (marked, true)
  else some (w, false)

theorem checkedWord_eq (h : offset < 128) :
    w.checkedWord (offset / 64) = some (w.word offset) := by
  unfold checkedWord word
  by_cases hlow : offset / 64 = 0
  · simp [hlow]
  · have hone : offset / 64 = 1 := by omega
    simp [hone]

theorem checkedWouldAccept_eq (w : ReplayWindow) (sequence : ℕ) :
    w.checkedWouldAccept sequence = some (w.wouldAccept sequence) := by
  unfold checkedWouldAccept wouldAccept
  split
  · rfl
  · split
    · rfl
    · split
      · rfl
      case isFalse hrange =>
        rw [checkedWord_eq (Nat.lt_of_not_le hrange), checkedShl,
          if_pos (Nat.mod_lt _ (by decide))]
        rfl

theorem checkedShiftLeft_eq (hshift : shift < 128) :
    w.checkedShiftLeft shift = some (w.shiftLeft shift) := by
  unfold checkedShiftLeft shiftLeft
  split
  · rfl
  case isFalse hpos =>
    split
    case isTrue hsmall =>
      simp only [checkedShl, checkedShr, hsmall, (by omega : 64 - shift < 64), if_true]
      rfl
    case isFalse hlarge =>
      simp only [checkedShl, (by omega : shift - 64 < 64), if_true]
      rfl

theorem checkedMark_eq (h : offset < 128) : w.checkedMark offset = some (w.mark offset) := by
  unfold checkedMark mark
  rw [checkedWord_eq h, checkedShl, if_pos (Nat.mod_lt _ (by decide))]
  simp only [Option.bind_eq_bind, Option.bind_some, word]
  split <;> rfl

/-- **No call of `accept` panics.** -/
theorem checkedAccept_eq (w : ReplayWindow) (sequence : ℕ) :
    w.checkedAccept sequence = some (w.accept sequence) := by
  unfold checkedAccept accept
  rw [checkedWouldAccept_eq]
  simp only [Option.bind_eq_bind, Option.bind_some]
  split
  case isTrue hwould =>
    split
    · split
      · rfl
      case isFalse hnear =>
        rw [checkedShiftLeft_eq (Nat.lt_of_not_le hnear)]
        rfl
    case isFalse hnew =>
      have hrange : w.high - sequence < 128 := by
        rcases (wouldAccept_eq w sequence).mp hwould with ⟨-, hlt | ⟨hlt, -⟩⟩
        · exact absurd hlt hnew
        · exact hlt
      rw [checkedMark_eq hrange]
      rfl
  · rfl

end ReplayWindow

/-- **The replay window is its set specification.** After any values, a sequence is
admitted if and only if it is not zero, was not admitted before, and is greater
than the highest admitted one less 128; `would_accept` agrees with `accept`, a
rejecting call leaves the window alone, and no call panics. -/
theorem replay_window_is_set (values : List ℕ) (sequence : ℕ) :
    (((ReplayWindow.feed values).1.accept sequence).2 = true ↔
      sequence ≠ 0 ∧ sequence ∉ (ReplayWindow.feed values).2 ∧
        (ReplayWindow.highest (ReplayWindow.feed values).2 : ℤ) - 128 < sequence) ∧
    (ReplayWindow.feed values).1.wouldAccept sequence =
      ((ReplayWindow.feed values).1.accept sequence).2 ∧
    (((ReplayWindow.feed values).1.accept sequence).2 = true ∨
      ((ReplayWindow.feed values).1.accept sequence).1 = (ReplayWindow.feed values).1) ∧
    (ReplayWindow.feed values).1.checkedAccept sequence =
      some ((ReplayWindow.feed values).1.accept sequence) := by
  refine ⟨?_, (ReplayWindow.accept_snd _ _).symm, ?_, ReplayWindow.checkedAccept_eq _ _⟩
  · rw [ReplayWindow.accept_snd]
    exact (ReplayWindow.represents_feed values).wouldAccept_iff sequence
  · cases haccept : ((ReplayWindow.feed values).1.accept sequence).2 with
    | true => exact .inl rfl
    | false => exact .inr (ReplayWindow.accept_of_rejected haccept)

end ZephyrVox.Voice
