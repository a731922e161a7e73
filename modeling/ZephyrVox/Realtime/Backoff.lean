import ZephyrVox.Lib.FixedWidth
import ZephyrVox.Realtime.Engine

/-!
# The reconnect delay

The delay before a reconnect attempt doubles with every attempt up to a maximum, plus
some jitter taken from the clock. It is computed in nanoseconds of 128 bits and narrowed
to 64 bits at the end.

## Main definitions

* `Duration` — whole seconds of 64 bits and nanoseconds below a second.
* `DelayPolicy`, `DelayPolicy.new` — a reconnect policy with its delays.
* `DelayPolicy.delay` — the computation, `none` where it would overflow.
* `DelayPolicy.delayNanos` — the delay in exact arithmetic.
* `reconnect_delay_bounded` — the computation never overflows, is bounded on both sides
  and monotone in the attempt.
-/

namespace ZephyrVox.Realtime

open FixedWidth

/-! ## Durations -/

/-- A span of time. -/
structure Duration where
  secs : UInt64
  nanos : ℕ
  nanos_lt : nanos < 10 ^ 9
  deriving DecidableEq, Repr

namespace Duration

theorem zero_lt_nanosPerSec : 0 < 10 ^ 9 := by decide

/-- No time at all. -/
def zero : Duration := ⟨0, 0, zero_lt_nanosPerSec⟩

def isZero (d : Duration) : Bool := d.secs == 0 && d.nanos == 0

def fromSecs (secs : UInt64) : Duration := ⟨secs, 0, zero_lt_nanosPerSec⟩

def fromNanos (nanos : UInt64) : Duration :=
  ⟨UInt64.ofNat (nanos.toNat / 10 ^ 9), nanos.toNat % 10 ^ 9, Nat.mod_lt _ (by decide)⟩

def fromMillis (millis : UInt64) : Duration :=
  ⟨UInt64.ofNat (millis.toNat / 10 ^ 3), millis.toNat % 10 ^ 3 * 10 ^ 6, by omega⟩

/-- Seconds first. -/
instance : LT Duration := ⟨fun a b => a.secs < b.secs ∨ a.secs = b.secs ∧ a.nanos < b.nanos⟩

instance (a b : Duration) : Decidable (a < b) :=
  inferInstanceAs (Decidable (a.secs < b.secs ∨ a.secs = b.secs ∧ a.nanos < b.nanos))

/-- The exact number of nanoseconds. -/
def nanoseconds (d : Duration) : ℕ := d.secs.toNat * 10 ^ 9 + d.nanos

/-- The number of nanoseconds, in 128 bits. -/
def asNanos (d : Duration) : Option ℕ := do
  let whole ← checkedMul 128 d.secs.toNat (10 ^ 9)
  checkedAdd 128 whole d.nanos

theorem nanoseconds_lt (d : Duration) : d.nanoseconds < 2 ^ 64 * 10 ^ 9 := by
  have hsecs := d.secs.toNat_lt
  have hnanos := d.nanos_lt
  rw [nanoseconds]
  omega

theorem nanoseconds_lt_u128 (d : Duration) : d.nanoseconds < 2 ^ 128 :=
  Nat.lt_trans d.nanoseconds_lt (by norm_num)

/-- 128 bits hold the nanoseconds of every duration. -/
theorem asNanos_eq (d : Duration) : d.asNanos = some d.nanoseconds := by
  have hlt := d.nanoseconds_lt_u128
  rw [nanoseconds] at hlt
  have hwhole := checkedMul_eq_some (Nat.lt_of_le_of_lt (Nat.le_add_right _ d.nanos) hlt)
  rw [asNanos, hwhole, Option.bind_eq_bind, Option.bind_some, checkedAdd_eq_some hlt, nanoseconds]

theorem lt_iff (a b : Duration) : a < b ↔ a.nanoseconds < b.nanoseconds := by
  have ha := a.nanos_lt
  have hb := b.nanos_lt
  have hunfold : a < b ↔ a.secs.toNat < b.secs.toNat ∨
      a.secs.toNat = b.secs.toNat ∧ a.nanos < b.nanos := by
    rw [UInt64.toNat_inj, ← UInt64.lt_iff_toNat_lt]
    rfl
  rw [hunfold, nanoseconds, nanoseconds]
  omega

theorem isZero_iff (d : Duration) : d.isZero = true ↔ d.nanoseconds = 0 := by
  rw [isZero, Bool.and_eq_true, beq_iff_eq, beq_iff_eq, ← UInt64.toNat_inj, UInt64.toNat_zero,
    nanoseconds]
  omega

/-- Nanoseconds of 64 bits are kept. -/
theorem nanoseconds_fromNanos (nanos : UInt64) :
    (fromNanos nanos).nanoseconds = nanos.toNat := by
  have hlt := nanos.toNat_lt
  have hsecs : nanos.toNat / 10 ^ 9 % 2 ^ 64 = nanos.toNat / 10 ^ 9 := by omega
  simp only [nanoseconds, fromNanos, UInt64.toNat_ofNat', hsecs]
  exact Nat.div_add_mod' _ _

end Duration

/-! ## Policies -/

/-- A reconnect policy and its delays. -/
structure DelayPolicy extends ReconnectPolicy where
  minimumDelay : Duration
  maximumDelay : Duration
  jitter : Duration
  deriving DecidableEq, Repr

namespace DelayPolicy

/-- An enabled policy without a limit of attempts. -/
def new (minimumDelay maximumDelay jitter : Duration) : Except RealtimeError DelayPolicy :=
  if minimumDelay.isZero = true ∨ maximumDelay < minimumDelay then
    .error (.configuration "reconnect delays must be non-zero and ordered")
  else
    .ok {
      enabled := true
      maximumAttempts := none
      minimumDelay := minimumDelay
      maximumDelay := maximumDelay
      jitter := jitter }

/-- A policy that never opens a second socket. -/
def disabled : DelayPolicy where
  enabled := false
  maximumAttempts := some 0
  minimumDelay := .fromSecs 1
  maximumDelay := .fromSecs 1
  jitter := .zero

def defaultPolicy : DelayPolicy where
  enabled := true
  maximumAttempts := none
  minimumDelay := .fromMillis 250
  maximumDelay := .fromSecs 30
  jitter := .fromMillis 250

/-- Limit the attempts; `none` is no limit. -/
def withMaximumAttempts (policy : DelayPolicy) (attempts : Option ℕ) : DelayPolicy :=
  { policy with maximumAttempts := attempts }

/-- The jitter taken from the clock. -/
def sampleJitter (policy : DelayPolicy) (sample : ℕ) : Option ℕ :=
  if policy.jitter.isZero then some 0
  else do
    let range ← policy.jitter.asNanos
    checkedRem sample (max range 1)

/-- The delay before one zero-based attempt; `sample` is the clock in nanoseconds. -/
def delay (policy : DelayPolicy) (attempt sample : ℕ) : Option Duration := do
  let exponent := min attempt 31 % 2 ^ 32
  let multiplier ← checkedShl 128 1 exponent
  let minimum ← policy.minimumDelay.asNanos
  let baseNanos := saturatingMul 128 minimum multiplier
  let maximum ← policy.maximumDelay.asNanos
  let bounded := min baseNanos maximum
  let jitter ← policy.sampleJitter sample
  return .fromNanos (UInt64.ofNat
    (min (min (saturatingAdd 128 bounded jitter) maximum) (maxValue 64)))

/-- The jitter of one attempt. -/
def jitterNanos (policy : DelayPolicy) (sample : ℕ) : ℕ :=
  if policy.jitter.nanoseconds = 0 then 0 else sample % policy.jitter.nanoseconds

/-- The delay in exact arithmetic. -/
def delayNanos (policy : DelayPolicy) (attempt sample : ℕ) : ℕ :=
  min
    (min (min (policy.minimumDelay.nanoseconds * 2 ^ min attempt 31)
      policy.maximumDelay.nanoseconds + policy.jitterNanos sample)
      policy.maximumDelay.nanoseconds)
    (maxValue 64)

theorem sampleJitter_eq (policy : DelayPolicy) (sample : ℕ) :
    policy.sampleJitter sample = some (policy.jitterNanos sample) := by
  by_cases hzero : policy.jitter.nanoseconds = 0
  · rw [sampleJitter, if_pos ((Duration.isZero_iff _).mpr hzero), jitterNanos, if_pos hzero]
  · have hnot : ¬ policy.jitter.isZero = true := fun h => hzero ((Duration.isZero_iff _).mp h)
    have hmax : max policy.jitter.nanoseconds 1 = policy.jitter.nanoseconds := by omega
    rw [sampleJitter, if_neg hnot, Duration.asNanos_eq, Option.bind_eq_bind, Option.bind_some,
      hmax, checkedRem_eq_some (Nat.pos_of_ne_zero hzero), jitterNanos, if_neg hzero]

/-- The power of two fits. -/
theorem checkedShl_one (attempt : ℕ) :
    checkedShl 128 1 (min attempt 31 % 2 ^ 32) = some (2 ^ min attempt 31) := by
  have hexponent : min attempt 31 < 128 := by omega
  have hcast : min attempt 31 % 2 ^ 32 = min attempt 31 := Nat.mod_eq_of_lt (by omega)
  have hfits : 1 * 2 ^ min attempt 31 < 2 ^ 128 := by
    rw [Nat.one_mul]
    exact Nat.pow_lt_pow_right (by omega) hexponent
  rw [hcast, checkedShl_eq_some hexponent hfits, Nat.one_mul]

/-- **The computation is exact**: it neither overflows nor loses bits. -/
theorem delay_eq (policy : DelayPolicy) (attempt sample : ℕ) :
    ∃ d, policy.delay attempt sample = some d ∧
      d.nanoseconds = policy.delayNanos attempt sample := by
  have hmaximum := policy.maximumDelay.nanoseconds_lt_u128
  simp only [delay, checkedShl_one, Duration.asNanos_eq, sampleJitter_eq, Option.bind_eq_bind,
    Option.bind_some, Option.pure_def, Option.some.injEq, exists_eq_left',
    Duration.nanoseconds_fromNanos, UInt64.toNat_ofNat', min_saturatingMul hmaximum,
    min_saturatingAdd hmaximum]
  rw [Nat.mod_eq_of_lt ((lt_two_pow_iff 64 _).mpr (Nat.min_le_right _ _)), delayNanos]

/-- A limit of attempts leaves the delays as they are. -/
@[simp] theorem delay_withMaximumAttempts (policy : DelayPolicy) (attempts : Option ℕ) :
    (policy.withMaximumAttempts attempts).delay = policy.delay := rfl

/-- What an accepted policy was made of. -/
theorem new_eq_ok {minimumDelay maximumDelay jitter : Duration} {policy : DelayPolicy}
    (h : DelayPolicy.new minimumDelay maximumDelay jitter = .ok policy) :
    policy.minimumDelay = minimumDelay ∧ policy.maximumDelay = maximumDelay ∧
      policy.jitter = jitter ∧ minimumDelay.nanoseconds ≤ maximumDelay.nanoseconds := by
  rw [DelayPolicy.new] at h
  split at h
  · cases h
  next hvalid =>
    cases h
    rw [not_or, Duration.lt_iff] at hvalid
    exact ⟨rfl, rfl, rfl, Nat.le_of_not_lt hvalid.2⟩

/-! ## Bounds -/

/-- Delays are at most the maximum. -/
theorem delayNanos_le_maximum (policy : DelayPolicy) (attempt sample : ℕ) :
    policy.delayNanos attempt sample ≤ policy.maximumDelay.nanoseconds :=
  (Nat.min_le_left _ _).trans (Nat.min_le_right _ _)

/-- Delays are at least the minimum, as far as 64 bits go. -/
theorem minimum_le_delayNanos {policy : DelayPolicy}
    (hordered : policy.minimumDelay.nanoseconds ≤ policy.maximumDelay.nanoseconds)
    (attempt sample : ℕ) :
    min policy.minimumDelay.nanoseconds (maxValue 64) ≤ policy.delayNanos attempt sample := by
  have hgrown : policy.minimumDelay.nanoseconds ≤
      policy.minimumDelay.nanoseconds * 2 ^ min attempt 31 :=
    Nat.le_mul_of_pos_right _ (Nat.two_pow_pos _)
  have hbounded : policy.minimumDelay.nanoseconds ≤
      min (policy.minimumDelay.nanoseconds * 2 ^ min attempt 31)
        policy.maximumDelay.nanoseconds := Nat.le_min.mpr ⟨hgrown, hordered⟩
  rw [delayNanos]
  refine min_le_min_right _ (Nat.le_min.mpr ⟨?_, hordered⟩)
  exact hbounded.trans (Nat.le_add_right _ _)

/-- Later attempts wait no less. -/
theorem delayNanos_mono (policy : DelayPolicy) (sample : ℕ) {attempt attempt' : ℕ}
    (h : attempt ≤ attempt') :
    policy.delayNanos attempt sample ≤ policy.delayNanos attempt' sample := by
  have hpower : 2 ^ min attempt 31 ≤ 2 ^ min attempt' 31 :=
    Nat.pow_le_pow_right (by omega) (by omega)
  rw [delayNanos, delayNanos]
  gcongr

/-- Without jitter the delay does not depend on the clock. -/
theorem delayNanos_of_jitter_zero {policy : DelayPolicy}
    (h : policy.jitter.nanoseconds = 0) (attempt sample : ℕ) :
    policy.delayNanos attempt sample =
      min (min (policy.minimumDelay.nanoseconds * 2 ^ min attempt 31)
        policy.maximumDelay.nanoseconds) (maxValue 64) := by
  have hbounded := Nat.min_le_right (policy.minimumDelay.nanoseconds * 2 ^ min attempt 31)
    policy.maximumDelay.nanoseconds
  rw [delayNanos, jitterNanos, if_pos h, Nat.add_zero, min_eq_left hbounded]

end DelayPolicy

/-- **Delays are bounded and grow.** For every accepted policy, attempt and clock the
delay is computed without overflow; it is at most the maximum and at least the minimum
as far as 64 bits go, later attempts wait no less, and without jitter it is the minimum
doubled with each attempt, up to the maximum. -/
theorem reconnect_delay_bounded {minimumDelay maximumDelay jitter : Duration}
    {policy : DelayPolicy} (h : DelayPolicy.new minimumDelay maximumDelay jitter = .ok policy)
    (attempt sample : ℕ) :
    ∃ d, policy.delay attempt sample = some d ∧
      d.nanoseconds ≤ maximumDelay.nanoseconds ∧
      min minimumDelay.nanoseconds (maxValue 64) ≤ d.nanoseconds ∧
      (∀ attempt', attempt ≤ attempt' → ∀ d', policy.delay attempt' sample = some d' →
        d.nanoseconds ≤ d'.nanoseconds) ∧
      (jitter = .zero → d.nanoseconds =
        min (min (minimumDelay.nanoseconds * 2 ^ min attempt 31) maximumDelay.nanoseconds)
          (maxValue 64)) := by
  obtain ⟨rfl, rfl, rfl, hordered⟩ := DelayPolicy.new_eq_ok h
  obtain ⟨d, hd, hnanos⟩ := policy.delay_eq attempt sample
  refine ⟨d, hd, ?_, ?_, ?_, ?_⟩
  · rw [hnanos]
    exact policy.delayNanos_le_maximum attempt sample
  · rw [hnanos]
    exact DelayPolicy.minimum_le_delayNanos hordered attempt sample
  · intro attempt' hle d' hd'
    obtain ⟨d'', hd'', hnanos'⟩ := policy.delay_eq attempt' sample
    cases hd''.symm.trans hd'
    rw [hnanos, hnanos']
    exact policy.delayNanos_mono sample hle
  · intro hjitter
    have hzero : policy.jitter.nanoseconds = 0 := by
      rw [hjitter]
      rfl
    rw [hnanos]
    exact DelayPolicy.delayNanos_of_jitter_zero hzero attempt sample

/-- Delays from 10 to 40 milliseconds. -/
theorem reconnect_delay_bounded_millis : ∃ policy d,
    DelayPolicy.new (.fromMillis 10) (.fromMillis 40) .zero = .ok policy ∧
      policy.delay 1 0 = some d ∧ d.nanoseconds ≤ (Duration.fromMillis 40).nanoseconds := by
  obtain ⟨d, hd, hmaximum, -⟩ := reconnect_delay_bounded
    (rfl : DelayPolicy.new (.fromMillis 10) (.fromMillis 40) .zero = .ok _) 1 0
  exact ⟨_, d, rfl, hd, hmaximum⟩

/-- A second attempt after 10 milliseconds waits 20, and a later one 40. -/
example : ((⟨⟨true, none⟩, .fromMillis 10, .fromMillis 40, .zero⟩ : DelayPolicy).delay 1 0 =
      some (.fromMillis 20)) ∧
    (⟨⟨true, none⟩, .fromMillis 10, .fromMillis 40, .zero⟩ : DelayPolicy).delay 10 0 =
      some (.fromMillis 40) := by
  decide +kernel

end ZephyrVox.Realtime
