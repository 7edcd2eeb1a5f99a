import Apollo.Klib.TimeInterval

/-!
# The monotonic clock

The quantum timer interrupt advances the count of quantums and the metric time
one beside the other, each in variables of 32 bits.  The deadline of a wait is
armed as a count of quantums, and the wait has timed out at the first interrupt
that has reached it.
-/

set_option autoImplicit false

namespace Apollo.Driver

open TimeInterval

structure MonotonicClock where
  currentTime : TimeInterval
  currentQuantum : Int
  nsPerQuantum : Int
  deriving DecidableEq

inductive QuantumRounding
  | towardsZero
  | awayFromZero

def toLongLong (value : Int) : Int := value.bmod 18446744073709551616

namespace MonotonicClock

def createForLocalCPU (quantumDurationNs : Int) : MonotonicClock := ⟨zero, 0, quantumDurationNs⟩

def onInterrupt (clock : MonotonicClock) : MonotonicClock :=
  let tvNsec := toLong (clock.currentTime.tvNsec + clock.nsPerQuantum)
  { clock with
    currentQuantum := toLong (clock.currentQuantum + 1)
    currentTime :=
      if oneSecondInNanos ≤ tvNsec then ⟨toLong (clock.currentTime.tvSec + 1), tvNsec - oneSecondInNanos⟩
      else ⟨clock.currentTime.tvSec, tvNsec⟩ }

def quantumsMakeFromTimeInterval (clock : MonotonicClock) (ti : TimeInterval) : QuantumRounding → Int
  | .towardsZero =>
    toLong ((toLongLong (ti.tvSec * oneSecondInNanos + ti.tvNsec)).tdiv clock.nsPerQuantum)
  | .awayFromZero =>
    let nanos := toLongLong (ti.tvSec * oneSecondInNanos + ti.tvNsec)
    let quants := nanos.tdiv clock.nsPerQuantum
    if toLongLong (quants * clock.nsPerQuantum) < nanos then toLong (toLong quants + 1) else toLong quants

/-- The deadline that `ArmTimeout` stores. -/
def armed (clock : MonotonicClock) (deadline : TimeInterval) : Int :=
  clock.quantumsMakeFromTimeInterval deadline .awayFromZero

/-- `OnEndOfQuantum` does not leave its loop at a timeout with this deadline. -/
def isDue (clock : MonotonicClock) (deadline : Int) : Prop := ¬ clock.currentQuantum < deadline

def ticked : Nat → MonotonicClock → MonotonicClock
  | 0, clock => clock
  | count + 1, clock => (ticked count clock).onInterrupt

end MonotonicClock

/-! ## Quantums -/

def ceilQuantums (nsPerQuantum nanos : Int) : Int := (nanos + (nsPerQuantum - 1)) / nsPerQuantum

section Quantums
variable {nsPerQuantum nanos : Int}

theorem ceilQuantums_le_iff (positive : 0 < nsPerQuantum) (count : Int) :
    ceilQuantums nsPerQuantum nanos ≤ count ↔ nanos ≤ count * nsPerQuantum := by
  unfold ceilQuantums
  rw [← Int.lt_add_one_iff, Int.ediv_lt_iff_lt_mul positive, Int.add_mul, Int.one_mul]
  constructor
  · omega
  · omega

theorem ceilQuantums_eq (positive : 0 < nsPerQuantum) :
    ceilQuantums nsPerQuantum nanos =
      if nanos / nsPerQuantum * nsPerQuantum < nanos then nanos / nsPerQuantum + 1 else nanos / nsPerQuantum := by
  have split := Int.mul_ediv_add_emod nanos nsPerQuantum
  have low := Int.emod_nonneg nanos (ne_of_gt positive)
  have high := Int.emod_lt_of_pos nanos positive
  rw [Int.mul_comm] at split
  unfold ceilQuantums
  by_cases part : nanos / nsPerQuantum * nsPerQuantum < nanos
  · rw [if_pos part, show nanos + (nsPerQuantum - 1) =
      (nanos % nsPerQuantum - 1) + (nanos / nsPerQuantum + 1) * nsPerQuantum by
        rw [Int.add_mul, Int.one_mul]
        omega,
      Int.add_mul_ediv_right _ _ (ne_of_gt positive), Int.ediv_eq_zero_of_lt (by omega) (by omega), Int.zero_add]
  · rw [if_neg part, show nanos + (nsPerQuantum - 1) =
      (nsPerQuantum - 1) + nanos / nsPerQuantum * nsPerQuantum by omega,
      Int.add_mul_ediv_right _ _ (ne_of_gt positive), Int.ediv_eq_zero_of_lt (by omega) (by omega), Int.zero_add]

end Quantums

section Clock
variable {nsPerQuantum : Int} {deadline : TimeInterval}

theorem toLong_lt (value : Int) : toLong value < 2147483648 := by
  have bound := Int.bmod_lt (x := value) (m := 4294967296) (by decide)
  unfold toLong
  omega

/-- What is armed for a deadline is the true number of quantums as long as that number fits. -/
theorem armed_eq_iff (positive : 0 < nsPerQuantum) (canonical : deadline.Canonical) :
    (MonotonicClock.createForLocalCPU nsPerQuantum).armed deadline = ceilQuantums nsPerQuantum deadline.nanos ↔
      ceilQuantums nsPerQuantum deadline.nanos < 2147483648 := by
  have low := canonical.nanos_nonneg
  have high := canonical.nanos_lt
  have whole : toLongLong deadline.nanos = deadline.nanos := by
    simp only [oneSecondInNanos] at high
    exact Int.bmod_eq_of_le_mul_two (by omega) (by omega)
  have quotient : 0 ≤ deadline.nanos / nsPerQuantum := Int.ediv_nonneg low (le_of_lt positive)
  have product : deadline.nanos / nsPerQuantum * nsPerQuantum ≤ deadline.nanos :=
    Int.ediv_mul_le _ (ne_of_gt positive)
  have product_nonneg : 0 ≤ deadline.nanos / nsPerQuantum * nsPerQuantum :=
    Int.mul_nonneg quotient (le_of_lt positive)
  have multiple : toLongLong (deadline.nanos / nsPerQuantum * nsPerQuantum) =
      deadline.nanos / nsPerQuantum * nsPerQuantum := by
    simp only [oneSecondInNanos] at high
    exact Int.bmod_eq_of_le_mul_two (by omega) (by omega)
  have value : (MonotonicClock.createForLocalCPU nsPerQuantum).armed deadline =
      if deadline.nanos / nsPerQuantum * nsPerQuantum < deadline.nanos then
        toLong (toLong (deadline.nanos / nsPerQuantum) + 1)
      else toLong (deadline.nanos / nsPerQuantum) := by
    change (if toLongLong ((toLongLong deadline.nanos).tdiv nsPerQuantum * nsPerQuantum) <
      toLongLong deadline.nanos then toLong (toLong ((toLongLong deadline.nanos).tdiv nsPerQuantum) + 1)
      else toLong ((toLongLong deadline.nanos).tdiv nsPerQuantum)) = _
    rw [whole, Int.tdiv_eq_ediv_of_nonneg low, multiple]
  constructor
  · intro same
    rw [← same, value]
    split_ifs
    · exact toLong_lt _
    · exact toLong_lt _
  · intro small
    rw [ceilQuantums_eq positive] at small ⊢
    rw [value]
    split_ifs at small ⊢ with part
    · rw [@toLong_eq_self (deadline.nanos / nsPerQuantum) (by omega) (by omega)]
      exact toLong_eq_self (by omega) small
    · exact toLong_eq_self (by omega) small

/-! ## Interrupts -/

theorem ticked_eq (positive : 0 < nsPerQuantum) (short : nsPerQuantum ≤ oneSecondInNanos) (count : Nat) :
    (MonotonicClock.createForLocalCPU nsPerQuantum).ticked count =
      ⟨⟨toLong (count * nsPerQuantum / oneSecondInNanos), count * nsPerQuantum % oneSecondInNanos⟩,
        toLong count, nsPerQuantum⟩ := by
  induction count with
  | zero => simp [MonotonicClock.ticked, MonotonicClock.createForLocalCPU, zero, toLong]
  | succ count ih =>
    have low := Int.emod_nonneg (count * nsPerQuantum) (b := oneSecondInNanos) (by decide)
    have high := Int.emod_lt_of_pos (count * nsPerQuantum) (b := oneSecondInNanos) (by decide)
    have next : ((count + 1 : Nat) : Int) * nsPerQuantum = count * nsPerQuantum + nsPerQuantum := by
      push_cast
      rw [Int.add_mul, Int.one_mul]
    generalize count * nsPerQuantum = nanos at ih low high next
    rw [MonotonicClock.ticked, ih, next]
    simp only [oneSecondInNanos] at *
    have sum : toLong (nanos % 1000000000 + nsPerQuantum) = nanos % 1000000000 + nsPerQuantum :=
      toLong_eq_self (by omega) (by omega)
    unfold MonotonicClock.onInterrupt
    simp only [sum, oneSecondInNanos, toLong_add]
    push_cast
    by_cases carry : 1000000000 ≤ nanos % 1000000000 + nsPerQuantum
    · rw [if_pos carry, show (nanos + nsPerQuantum) / 1000000000 = nanos / 1000000000 + 1 by omega,
        show (nanos + nsPerQuantum) % 1000000000 = nanos % 1000000000 + nsPerQuantum - 1000000000 by omega]
    · rw [if_neg carry, show (nanos + nsPerQuantum) / 1000000000 = nanos / 1000000000 by omega,
        show (nanos + nsPerQuantum) % 1000000000 = nanos % 1000000000 + nsPerQuantum by omega]

/-- The two counters agree as long as the first one has not run over; with quantums of one second they run
over together. -/
theorem ticked_agrees (positive : 0 < nsPerQuantum) (short : nsPerQuantum ≤ oneSecondInNanos) (count : Nat)
    (fits : count < 2147483648 ∨ nsPerQuantum = oneSecondInNanos) :
    ((MonotonicClock.createForLocalCPU nsPerQuantum).ticked count).currentTime.nanos =
      ((MonotonicClock.createForLocalCPU nsPerQuantum).ticked count).currentQuantum * nsPerQuantum := by
  rw [ticked_eq positive short]
  unfold nanos
  rcases fits with small | same
  · have seconds : (count : Int) * nsPerQuantum ≤ count * oneSecondInNanos :=
      Int.mul_le_mul_of_nonneg_left short (Int.natCast_nonneg count)
    have nonneg : 0 ≤ (count : Int) * nsPerQuantum :=
      Int.mul_nonneg (Int.natCast_nonneg count) (le_of_lt positive)
    generalize product_eq : (count : Int) * nsPerQuantum = product at seconds nonneg ⊢
    have quantums : toLong count = count := toLong_eq_self (by omega) (by omega)
    simp only [oneSecondInNanos] at *
    rw [quantums, product_eq, toLong_eq_self (by omega) (by omega)]
    omega
  · subst same
    rw [Int.mul_ediv_cancel _ (by decide), Int.mul_emod_left, Int.add_zero]

/-- After 2 ^ 31 interrupts the count of quantums is negative and the time is not. -/
theorem ticked_disagrees (positive : 0 < nsPerQuantum) (shorter : nsPerQuantum < oneSecondInNanos) :
    ((MonotonicClock.createForLocalCPU nsPerQuantum).ticked 2147483648).currentTime.nanos ≠
      ((MonotonicClock.createForLocalCPU nsPerQuantum).ticked 2147483648).currentQuantum * nsPerQuantum := by
  rw [ticked_eq positive (le_of_lt shorter)]
  unfold nanos
  simp only [oneSecondInNanos] at *
  rw [toLong_eq_self (by omega) (by omega), show toLong ((2147483648 : Nat) : Int) = -2147483648 by decide]
  omega

/-! ## Timed waits -/

structure TimedWaits (nsPerQuantum : Int) (deadline : TimeInterval) (interrupts : Nat) : Prop where
  armed : (MonotonicClock.createForLocalCPU nsPerQuantum).armed deadline = ceilQuantums nsPerQuantum deadline.nanos
  agrees : ∀ count, count ≤ interrupts →
    ((MonotonicClock.createForLocalCPU nsPerQuantum).ticked count).currentTime.nanos =
      ((MonotonicClock.createForLocalCPU nsPerQuantum).ticked count).currentQuantum * nsPerQuantum
  /-- The wait times out at or after the deadline. -/
  late : ∀ count, count ≤ interrupts →
    ((MonotonicClock.createForLocalCPU nsPerQuantum).ticked count).isDue
      ((MonotonicClock.createForLocalCPU nsPerQuantum).armed deadline) →
    deadline.nanos ≤ ((MonotonicClock.createForLocalCPU nsPerQuantum).ticked count).currentTime.nanos

theorem timedWaits_iff (positive : 0 < nsPerQuantum) (short : nsPerQuantum ≤ oneSecondInNanos)
    (canonical : deadline.Canonical) (interrupts : Nat) :
    TimedWaits nsPerQuantum deadline interrupts ↔
      ceilQuantums nsPerQuantum deadline.nanos < 2147483648 ∧
        (interrupts < 2147483648 ∨ nsPerQuantum = oneSecondInNanos) := by
  constructor
  · intro waits
    refine ⟨(armed_eq_iff positive canonical).mp waits.armed, ?_⟩
    by_contra beyond
    rw [not_or] at beyond
    exact ticked_disagrees positive (lt_of_le_of_ne short beyond.2) (waits.agrees 2147483648 (by omega))
  · rintro ⟨small, fits⟩
    have armed := (armed_eq_iff positive canonical).mpr small
    have agrees : ∀ count, count ≤ interrupts →
        ((MonotonicClock.createForLocalCPU nsPerQuantum).ticked count).currentTime.nanos =
          ((MonotonicClock.createForLocalCPU nsPerQuantum).ticked count).currentQuantum * nsPerQuantum :=
      fun count inside => ticked_agrees positive short count (fits.imp_left (lt_of_le_of_lt inside))
    refine ⟨armed, agrees, fun count inside due => ?_⟩
    rw [agrees count inside, ← ceilQuantums_le_iff positive, ← armed]
    exact Int.not_lt.mp due

/-- A wait for one hour, on a machine with an NTSC display, watched for a day. -/
theorem oneHour_timedWaits : TimedWaits 16761906 ⟨3600, 0⟩ 5154545 :=
  (timedWaits_iff (by decide) (by decide) (by decide) 5154545).mpr (by decide)

/-- A wait for 36 million seconds times out at once. -/
theorem farDeadline_early :
    ((MonotonicClock.createForLocalCPU 16761906).ticked 1).isDue
        ((MonotonicClock.createForLocalCPU 16761906).armed ⟨36000000, 0⟩) ∧
      ¬ TimedWaits 16761906 ⟨36000000, 0⟩ 1 := by
  have due : ((MonotonicClock.createForLocalCPU 16761906).ticked 1).isDue
      ((MonotonicClock.createForLocalCPU 16761906).armed ⟨36000000, 0⟩) := by
    unfold MonotonicClock.isDue
    decide
  exact ⟨due, fun waits => absurd (waits.late 1 (le_refl 1) due) (by decide)⟩

end Clock

end Apollo.Driver
