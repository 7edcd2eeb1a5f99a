import Apollo.Filesystem.FileInfo

/-!
# Time intervals

`TimeInterval.c` and the inline functions of `TimeInterval.h`.  Both fields are
`long`s of 32 bits.  A canonical interval that is not negative stands for a
number of nanoseconds, and the functions below work on that number as long as
they do not saturate.
-/

set_option autoImplicit false

namespace Apollo.TimeInterval

def oneSecondInNanos : Int := 1000000000

def toLong (value : Int) : Int := value.bmod 4294967296

def zero : TimeInterval := ⟨0, 0⟩

def infinity : TimeInterval := ⟨2147483647, oneSecondInNanos⟩

def minusInfinity : TimeInterval := ⟨-2147483648, oneSecondInNanos⟩

def isNegative (ti : TimeInterval) : Bool := decide (ti.tvSec < 0 ∨ ti.tvNsec < 0)

def less (t0 t1 : TimeInterval) : Bool :=
  decide (t0.tvSec < t1.tvSec ∨ (t0.tvSec = t1.tvSec ∧ t0.tvNsec < t1.tvNsec))

def greater (t0 t1 : TimeInterval) : Bool :=
  decide (t0.tvSec > t1.tvSec ∨ (t0.tvSec = t1.tvSec ∧ t0.tvNsec > t1.tvNsec))

def carried (t0 t1 : TimeInterval) : TimeInterval :=
  let tvSec := toLong (t0.tvSec + t1.tvSec)
  let tvNsec := toLong (t0.tvNsec + t1.tvNsec)
  if oneSecondInNanos ≤ tvNsec then ⟨toLong (tvSec + 1), tvNsec - oneSecondInNanos⟩ else ⟨tvSec, tvNsec⟩

def add (t0 t1 : TimeInterval) : TimeInterval :=
  let ti := carried t0 t1
  if (0 ≤ t0.tvSec ∧ 0 ≤ t1.tvSec ∧ ti.tvSec < 0) ∨ (t0.tvSec < 0 ∧ t1.tvSec < 0 ∧ 0 ≤ ti.tvSec) then
    if t0.isNegative && t1.isNegative then minusInfinity else infinity
  else ti

/-! ## Nanoseconds -/

def nanos (ti : TimeInterval) : Int := ti.tvSec * oneSecondInNanos + ti.tvNsec

structure Canonical (ti : TimeInterval) : Prop where
  sec_nonneg : 0 ≤ ti.tvSec
  sec_lt : ti.tvSec < 2147483648
  nsec_nonneg : 0 ≤ ti.tvNsec
  nsec_lt : ti.tvNsec < oneSecondInNanos

instance (ti : TimeInterval) : Decidable ti.Canonical :=
  decidable_of_iff (0 ≤ ti.tvSec ∧ ti.tvSec < 2147483648 ∧ 0 ≤ ti.tvNsec ∧ ti.tvNsec < oneSecondInNanos)
    ⟨fun ⟨low, high, nsecLow, nsecHigh⟩ => ⟨low, high, nsecLow, nsecHigh⟩,
      fun ⟨low, high, nsecLow, nsecHigh⟩ => ⟨low, high, nsecLow, nsecHigh⟩⟩

theorem toLong_eq_self {value : Int} (low : -2147483648 ≤ value) (high : value < 2147483648) :
    toLong value = value := by
  unfold toLong
  rw [Int.bmod_eq_of_le_mul_two (by omega) (by omega)]

theorem toLong_add (value other : Int) : toLong (toLong value + other) = toLong (value + other) :=
  Int.bmod_add_bmod ..

section Canonical
variable {t0 t1 ti : TimeInterval}

theorem Canonical.nanos_nonneg (canonical : ti.Canonical) : 0 ≤ ti.nanos := by
  obtain ⟨secLow, -, nsecLow, -⟩ := canonical
  simp only [nanos, oneSecondInNanos]
  omega

theorem Canonical.nanos_lt (canonical : ti.Canonical) : ti.nanos < 2147483648 * oneSecondInNanos := by
  obtain ⟨-, secHigh, -, nsecHigh⟩ := canonical
  simp only [nanos, oneSecondInNanos] at *
  omega

theorem less_iff (first : t0.Canonical) (second : t1.Canonical) :
    t0.less t1 = true ↔ t0.nanos < t1.nanos := by
  obtain ⟨-, -, low, high⟩ := first
  obtain ⟨-, -, low', high'⟩ := second
  simp only [less, nanos, oneSecondInNanos, decide_eq_true_eq] at *
  omega

theorem greater_iff (first : t0.Canonical) (second : t1.Canonical) :
    t0.greater t1 = true ↔ t1.nanos < t0.nanos := by
  obtain ⟨-, -, low, high⟩ := first
  obtain ⟨-, -, low', high'⟩ := second
  simp only [greater, nanos, oneSecondInNanos, decide_eq_true_eq] at *
  omega

/-- Below the limit a sum does not saturate. -/
theorem add_spec (first : t0.Canonical) (second : t1.Canonical)
    (small : t0.nanos + t1.nanos < 2147483648 * oneSecondInNanos) :
    (t0.add t1).Canonical ∧ (t0.add t1).nanos = t0.nanos + t1.nanos := by
  obtain ⟨secLow, secHigh, nsecLow, nsecHigh⟩ := first
  obtain ⟨secLow', secHigh', nsecLow', nsecHigh'⟩ := second
  simp only [nanos, oneSecondInNanos] at *
  have nsec : toLong (t0.tvNsec + t1.tvNsec) = t0.tvNsec + t1.tvNsec :=
    toLong_eq_self (by omega) (by omega)
  have sec : toLong (t0.tvSec + t1.tvSec) = t0.tvSec + t1.tvSec := toLong_eq_self (by omega) (by omega)
  by_cases carry : oneSecondInNanos ≤ t0.tvNsec + t1.tvNsec
  · have next : toLong (t0.tvSec + t1.tvSec + 1) = t0.tvSec + t1.tvSec + 1 :=
      toLong_eq_self (by omega) (by simp only [oneSecondInNanos] at carry; omega)
    have sum : t0.add t1 =
        ⟨t0.tvSec + t1.tvSec + 1, t0.tvNsec + t1.tvNsec - oneSecondInNanos⟩ := by
      simp only [add, carried, nsec, sec, if_pos carry, next]
      rw [if_neg (by omega)]
    rw [sum]
    simp only [oneSecondInNanos] at carry ⊢
    exact ⟨⟨by simp only; omega, by simp only; omega, by simp only; omega,
      by simp only [oneSecondInNanos]; omega⟩, by omega⟩
  · have sum : t0.add t1 = ⟨t0.tvSec + t1.tvSec, t0.tvNsec + t1.tvNsec⟩ := by
      simp only [add, carried, nsec, sec, if_neg carry]
      rw [if_neg (by omega)]
    rw [sum]
    simp only [oneSecondInNanos] at carry ⊢
    exact ⟨⟨by simp only; omega, by simp only; omega, by simp only; omega,
      by simp only [oneSecondInNanos]; omega⟩, by omega⟩

end Canonical

end Apollo.TimeInterval
