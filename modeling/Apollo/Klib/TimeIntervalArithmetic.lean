import Apollo.Klib.TimeInterval

/-!
# Time interval arithmetic

What the functions of `TimeInterval.c` and `TimeInterval.h` do with all canonical intervals, also
the negative ones, whose sign is on the seconds, or on the nanoseconds when there are no seconds.
-/

set_option autoImplicit false

namespace Apollo.TimeInterval

def equals (t0 t1 : TimeInterval) : Bool := decide (t0.tvNsec = t1.tvNsec ∧ t0.tvSec = t1.tvSec)

def borrowed (t0 t1 : TimeInterval) : TimeInterval :=
  let tvSec := toLong (t0.tvSec - t1.tvSec)
  let tvNsec := toLong (t0.tvNsec - t1.tvNsec)
  if tvNsec < 0 then ⟨toLong (tvSec - 1), tvNsec + oneSecondInNanos⟩ else ⟨tvSec, tvNsec⟩

/-- The sign goes to the seconds, or to the nanoseconds where there are none. -/
def negated (ti : TimeInterval) : TimeInterval :=
  if ti.tvSec ≠ 0 then ⟨toLong (-ti.tvSec), ti.tvNsec⟩ else ⟨ti.tvSec, -ti.tvNsec⟩

def subtract (t0 t1 : TimeInterval) : TimeInterval :=
  let ti := if t0.greater t1 then borrowed t0 t1 else negated (borrowed t1 t0)
  if (t0.tvSec < 0 ∧ 0 ≤ t1.tvSec ∧ 0 ≤ ti.tvSec) ∨ (0 ≤ t0.tvSec ∧ t1.tvSec < 0 ∧ ti.tvSec < 0) then
    if t0.isNegative && t1.isNegative then minusInfinity else infinity
  else ti

/-! ## What an interval stands for -/

structure Signed (ti : TimeInterval) : Prop where
  secRange : -2147483648 ≤ ti.tvSec ∧ ti.tvSec < 2147483648
  nsecRange : -oneSecondInNanos < ti.tvNsec ∧ ti.tvNsec < oneSecondInNanos
  sign : ti.tvSec ≠ 0 → 0 ≤ ti.tvNsec

def value (ti : TimeInterval) : Int :=
  if ti.tvSec < 0 then ti.tvSec * oneSecondInNanos - ti.tvNsec else ti.tvSec * oneSecondInNanos + ti.tvNsec

def Represents (ti : TimeInterval) (nanoseconds : Int) : Prop :=
  if 2147483648 * oneSecondInNanos ≤ nanoseconds then ti = infinity
  else if nanoseconds ≤ -2147483649 * oneSecondInNanos then ti = minusInfinity
  else ti.Signed ∧ ti.value = nanoseconds

theorem toLong_cases {value : Int} (low : -4294967296 ≤ value) (high : value < 4294967296) :
    toLong value = if value < -2147483648 then value + 4294967296
      else if 2147483648 ≤ value then value - 4294967296 else value := by
  unfold toLong
  rw [Int.bmod_def]
  split_ifs <;> omega

theorem represents_mk (sec nsec nanoseconds : Int) :
    Represents ⟨sec, nsec⟩ nanoseconds ↔
      if 2147483648 * 1000000000 ≤ nanoseconds then sec = 2147483647 ∧ nsec = 1000000000
      else if nanoseconds ≤ -2147483649 * 1000000000 then sec = -2147483648 ∧ nsec = 1000000000
      else -2147483648 ≤ sec ∧ sec < 2147483648 ∧ -1000000000 < nsec ∧ nsec < 1000000000 ∧ (sec ≠ 0 → 0 ≤ nsec) ∧
        (if sec < 0 then sec * 1000000000 - nsec else sec * 1000000000 + nsec) = nanoseconds := by
  have signed : Signed ⟨sec, nsec⟩ ↔
      -2147483648 ≤ sec ∧ sec < 2147483648 ∧ -1000000000 < nsec ∧ nsec < 1000000000 ∧ (sec ≠ 0 → 0 ≤ nsec) := by
    constructor
    · rintro ⟨⟨low, high⟩, ⟨nsecLow, nsecHigh⟩, sign⟩
      exact ⟨low, high, nsecLow, nsecHigh, sign⟩
    · rintro ⟨low, high, nsecLow, nsecHigh, sign⟩
      exact ⟨⟨low, high⟩, ⟨nsecLow, nsecHigh⟩, sign⟩
  simp only [Represents, infinity, minusInfinity, TimeInterval.mk.injEq, signed, value, oneSecondInNanos, and_assoc]

structure Ranged (ti : TimeInterval) : Prop where
  secRange : -2147483648 ≤ ti.tvSec ∧ ti.tvSec < 2147483648
  nsecRange : -oneSecondInNanos < ti.tvNsec ∧ ti.tvNsec ≤ oneSecondInNanos
  sign : ti.tvSec ≠ 0 → 0 ≤ ti.tvNsec

/-- What the fields of an interval are, whatever their signs. -/
structure Placed (ti : TimeInterval) : Prop where
  secRange : -2147483648 ≤ ti.tvSec ∧ ti.tvSec < 2147483648
  nsecRange : -oneSecondInNanos < ti.tvNsec ∧ ti.tvNsec ≤ oneSecondInNanos

variable {ti t0 t1 : TimeInterval}

theorem Ranged.placed (ranged : ti.Ranged) : ti.Placed := ⟨ranged.secRange, ranged.nsecRange⟩

theorem Signed.ranged (signed : ti.Signed) : ti.Ranged :=
  ⟨signed.secRange, signed.nsecRange.imp_right le_of_lt, signed.sign⟩

theorem infinity_ranged : infinity.Ranged := ⟨by decide, by decide, by decide⟩

theorem minusInfinity_ranged : minusInfinity.Ranged := ⟨by decide, by decide, by decide⟩

theorem toLong_spec {value : Int} (low : -4294967296 ≤ value) (high : value < 4294967296) :
    -2147483648 ≤ toLong value ∧ toLong value < 2147483648 ∧
      (toLong value = value ∨ toLong value = value + 4294967296 ∨ toLong value = value - 4294967296) := by
  rw [toLong_cases low high]
  split_ifs <;> omega

def saturated (sec nsec : Int) : TimeInterval :=
  if 2147483648 ≤ sec then infinity else if sec < -2147483648 then minusInfinity else ⟨sec, nsec⟩

theorem add_saturates (first : t0.Placed) (second : t1.Placed)
    (sign : t0.tvSec + t1.tvSec < 2147483647 ∨ 0 ≤ t0.tvNsec ∨ 0 ≤ t1.tvNsec) :
    t0.add t1 =
      if 1000000000 ≤ t0.tvNsec + t1.tvNsec then
        saturated (t0.tvSec + t1.tvSec + 1) (t0.tvNsec + t1.tvNsec - 1000000000)
      else saturated (t0.tvSec + t1.tvSec) (t0.tvNsec + t1.tvNsec) := by
  obtain ⟨sec, nsec⟩ := t0
  obtain ⟨sec', nsec'⟩ := t1
  obtain ⟨⟨low, high⟩, nsecLow, nsecHigh⟩ := first
  obtain ⟨⟨low', high'⟩, nsecLow', nsecHigh'⟩ := second
  simp only [oneSecondInNanos] at *
  have nanoseconds : toLong (nsec + nsec') = nsec + nsec' := toLong_eq_self (by omega) (by omega)
  have saturates : ∀ total left : Int, (total = sec + sec' ∨ total = sec + sec' + 1) →
      (if (0 ≤ sec ∧ 0 ≤ sec' ∧ toLong total < 0) ∨ (sec < 0 ∧ sec' < 0 ∧ 0 ≤ toLong total) then
        if (isNegative ⟨sec, nsec⟩ && isNegative ⟨sec', nsec'⟩) = true then minusInfinity else infinity
      else ⟨toLong total, left⟩) = saturated total left := by
    intro total left sum
    have wrapped := @toLong_spec total (by omega) (by omega)
    simp only [saturated, isNegative, Bool.and_eq_true, decide_eq_true_eq]
    by_cases beyond : 2147483648 ≤ total
    · rw [if_pos beyond, if_pos (by omega), if_neg (by omega)]
    · rw [if_neg beyond]
      by_cases under : total < -2147483648
      · rw [if_pos under, if_pos (by omega), if_pos (by omega)]
      · have same : toLong total = total := by omega
        rw [if_neg under, if_neg (by omega), same]
  rw [add]
  simp only [carried, nanoseconds, toLong_add, oneSecondInNanos]
  split
  case isTrue carry => exact saturates _ _ (.inr rfl)
  case isFalse carry => exact saturates _ _ (.inl rfl)

theorem add_eq (first : t0.Ranged) (second : t1.Ranged) :
    t0.add t1 =
      if 1000000000 ≤ t0.tvNsec + t1.tvNsec then
        saturated (t0.tvSec + t1.tvSec + 1) (t0.tvNsec + t1.tvNsec - 1000000000)
      else saturated (t0.tvSec + t1.tvSec) (t0.tvNsec + t1.tvNsec) := by
  have := first.sign
  have := second.sign
  exact add_saturates first.placed second.placed (by omega)

/-- What is left of a difference of the operands in the other order. -/
def opposite (t0 t1 : TimeInterval) (sec nsec : Int) : TimeInterval :=
  if t0.tvSec < 0 ∧ 0 ≤ t1.tvSec ∧ (sec = 0 ∨ 2147483648 < sec) then
    if t1.tvNsec < 0 then minusInfinity else infinity
  else if sec = 0 then ⟨0, -nsec⟩ else ⟨-sec, nsec⟩

theorem subtract_eq (first : t0.Ranged) (second : t1.Ranged) :
    t0.subtract t1 =
      if t0.greater t1 then
        if t0.tvNsec - t1.tvNsec < 0 then
          saturated (t0.tvSec - t1.tvSec - 1) (t0.tvNsec - t1.tvNsec + 1000000000)
        else saturated (t0.tvSec - t1.tvSec) (t0.tvNsec - t1.tvNsec)
      else
        if t1.tvNsec - t0.tvNsec < 0 then
          opposite t0 t1 (t1.tvSec - t0.tvSec - 1) (t1.tvNsec - t0.tvNsec + 1000000000)
        else opposite t0 t1 (t1.tvSec - t0.tvSec) (t1.tvNsec - t0.tvNsec) := by
  obtain ⟨sec, nsec⟩ := t0
  obtain ⟨sec', nsec'⟩ := t1
  obtain ⟨⟨low, high⟩, ⟨nsecLow, nsecHigh⟩, sign⟩ := first
  obtain ⟨⟨low', high'⟩, ⟨nsecLow', nsecHigh'⟩, sign'⟩ := second
  simp only [oneSecondInNanos] at *
  have nanoseconds : toLong (nsec - nsec') = nsec - nsec' := toLong_eq_self (by omega) (by omega)
  have nanoseconds' : toLong (nsec' - nsec) = nsec' - nsec := toLong_eq_self (by omega) (by omega)
  simp only [subtract, greater, decide_eq_true_eq]
  by_cases greater : sec > sec' ∨ (sec = sec' ∧ nsec > nsec')
  · have saturates : ∀ total left : Int,
        (total = sec - sec' ∧ ¬nsec - nsec' < 0 ∨ total = sec - sec' - 1 ∧ nsec - nsec' < 0) →
        (if (sec < 0 ∧ 0 ≤ sec' ∧ 0 ≤ toLong total) ∨ (0 ≤ sec ∧ sec' < 0 ∧ toLong total < 0) then
          if (isNegative ⟨sec, nsec⟩ && isNegative ⟨sec', nsec'⟩) = true then minusInfinity else infinity
        else ⟨toLong total, left⟩) = saturated total left := by
      intro total left difference
      have wrapped := @toLong_spec total (by omega) (by omega)
      simp only [saturated, isNegative, Bool.and_eq_true, decide_eq_true_eq]
      by_cases beyond : 2147483648 ≤ total
      · rw [if_pos beyond, if_pos (by omega), if_neg (by omega)]
      · have same : toLong total = total := by omega
        rw [if_neg beyond, if_neg (by omega), if_neg (by omega), same]
    have minus : ∀ change, toLong (toLong (sec - sec') - change) = toLong (sec - sec' - change) := by
      intro change
      exact toLong_add (sec - sec') (-change)
    simp only [if_pos greater, borrowed, nanoseconds, minus, oneSecondInNanos]
    split
    case isTrue borrow => exact saturates _ _ (.inr ⟨rfl, borrow⟩)
    case isFalse borrow => exact saturates _ _ (.inl ⟨rfl, borrow⟩)
  · have saturates : ∀ total left : Int,
        (total = sec' - sec ∧ ¬nsec' - nsec < 0 ∨ total = sec' - sec - 1 ∧ nsec' - nsec < 0) →
        (let ti := negated ⟨toLong total, left⟩
        if (sec < 0 ∧ 0 ≤ sec' ∧ 0 ≤ ti.tvSec) ∨ (0 ≤ sec ∧ sec' < 0 ∧ ti.tvSec < 0) then
          if (isNegative ⟨sec, nsec⟩ && isNegative ⟨sec', nsec'⟩) = true then minusInfinity else infinity
        else ti) = opposite ⟨sec, nsec⟩ ⟨sec', nsec'⟩ total left := by
      intro total left difference
      have wrapped := @toLong_spec total (by omega) (by omega)
      have back := @toLong_spec (-toLong total) (by omega) (by omega)
      simp only [negated, opposite, isNegative, Bool.and_eq_true, decide_eq_true_eq]
      by_cases zero : total = 0
      · have none : toLong total = 0 := by omega
        rw [if_neg (not_not.mpr none), if_pos zero, none]
        by_cases mixed : sec < 0 ∧ 0 ≤ sec'
        · have wraps : (sec < 0 ∧ 0 ≤ sec' ∧ (0 : Int) ≤ 0) ∨ (0 ≤ sec ∧ sec' < 0 ∧ (0 : Int) < 0) := by omega
          have wrong : sec < 0 ∧ 0 ≤ sec' ∧ (total = 0 ∨ 2147483648 < total) := by omega
          rw [if_pos wraps, if_pos wrong]
          exact if_congr (by omega) rfl rfl
        · have right : ¬((sec < 0 ∧ 0 ≤ sec' ∧ (0 : Int) ≤ 0) ∨ (0 ≤ sec ∧ sec' < 0 ∧ (0 : Int) < 0)) := by omega
          have kept : ¬(sec < 0 ∧ 0 ≤ sec' ∧ (total = 0 ∨ 2147483648 < total)) := by omega
          rw [if_neg right, if_neg kept]
      · have some : toLong total ≠ 0 := by omega
        rw [if_pos some, if_neg zero]
        by_cases beyond : 2147483648 < total
        · have wraps : (sec < 0 ∧ 0 ≤ sec' ∧ 0 ≤ toLong (-toLong total)) ∨
              (0 ≤ sec ∧ sec' < 0 ∧ toLong (-toLong total) < 0) := by omega
          have wrong : sec < 0 ∧ 0 ≤ sec' ∧ (total = 0 ∨ 2147483648 < total) := by omega
          rw [if_pos wraps, if_pos wrong]
          exact if_congr (by omega) rfl rfl
        · have same : toLong (-toLong total) = -total := by omega
          have right : ¬((sec < 0 ∧ 0 ≤ sec' ∧ 0 ≤ -total) ∨ (0 ≤ sec ∧ sec' < 0 ∧ -total < 0)) := by omega
          have kept : ¬(sec < 0 ∧ 0 ≤ sec' ∧ (total = 0 ∨ 2147483648 < total)) := by omega
          rw [same, if_neg right, if_neg kept]
    have minus : ∀ change, toLong (toLong (sec' - sec) - change) = toLong (sec' - sec - change) := by
      intro change
      exact toLong_add (sec' - sec) (-change)
    simp only [if_neg greater, borrowed, nanoseconds', minus, oneSecondInNanos]
    split
    case isTrue borrow => exact saturates _ _ (.inr ⟨rfl, borrow⟩)
    case isFalse borrow => exact saturates _ _ (.inl ⟨rfl, borrow⟩)

/-! ## When the arithmetic is exact -/

theorem infinity_represents (nanoseconds : Int) :
    Represents infinity nanoseconds ↔ 2147483648 * oneSecondInNanos ≤ nanoseconds := by
  rw [Represents]
  split
  case isTrue beyond => exact iff_of_true rfl beyond
  case isFalse inside =>
    refine iff_of_false ?_ inside
    split
    · exact fun same => absurd (congrArg tvSec same) (by decide)
    · exact fun represented => absurd represented.1.nsecRange.2 (by decide)

theorem minusInfinity_represents (nanoseconds : Int) :
    Represents minusInfinity nanoseconds ↔ nanoseconds ≤ -2147483649 * oneSecondInNanos := by
  rw [Represents]
  split
  case isTrue beyond =>
    refine iff_of_false (fun same => absurd (congrArg tvSec same) (by decide)) ?_
    simp only [oneSecondInNanos] at beyond ⊢
    omega
  case isFalse =>
    split
    case isTrue under => exact iff_of_true rfl under
    case isFalse inside => exact iff_of_false (fun represented => absurd represented.1.nsecRange.2 (by decide)) inside

theorem saturated_represents (sec nsec nanoseconds : Int) :
    Represents (saturated sec nsec) nanoseconds ↔
      if 2147483648 ≤ sec then 2147483648 * oneSecondInNanos ≤ nanoseconds
      else if sec < -2147483648 then nanoseconds ≤ -2147483649 * oneSecondInNanos
      else Represents ⟨sec, nsec⟩ nanoseconds := by
  rw [saturated]
  split_ifs
  · exact infinity_represents nanoseconds
  · exact minusInfinity_represents nanoseconds
  · rfl

/-- The operands for which `TimeInterval_Add` is exact. -/
def AddMeets (t0 t1 : TimeInterval) : Prop :=
  if 0 ≤ t0.tvSec ∧ 0 ≤ t1.tvSec then
    (0 ≤ t0.tvNsec ∧ 0 ≤ t1.tvNsec) ∨ 0 ≤ t0.tvNsec + t1.tvNsec ∨
      (t0.tvSec + t1.tvSec = 0 ∧ -oneSecondInNanos < t0.tvNsec + t1.tvNsec)
  else if t0.tvSec < 0 ∧ t1.tvSec < 0 then
    t0.tvNsec + t1.tvNsec < oneSecondInNanos ∨ t0.tvSec + t1.tvSec ≤ -2147483650
  else
    0 ≤ t0.tvNsec ∧ 0 ≤ t1.tvNsec ∧
      if 0 ≤ t0.tvSec + t1.tvSec then (t0.tvSec < 0 → t0.tvNsec = 0) ∧ (t1.tvSec < 0 → t1.tvNsec = 0)
      else (0 ≤ t0.tvSec → t0.tvNsec = 0) ∧ (0 ≤ t1.tvSec → t1.tvNsec = 0)

/-- The operands for which `TimeInterval_Subtract` is exact. -/
def SubtractMeets (t0 t1 : TimeInterval) : Prop :=
  if 0 ≤ t0.tvSec ∧ 0 ≤ t1.tvSec then
    (-oneSecondInNanos < t0.tvNsec - t1.tvNsec ∧ t0.tvNsec - t1.tvNsec < oneSecondInNanos) ∨
      (t0.tvSec = 2147483647 ∧ t0.tvNsec - t1.tvNsec = oneSecondInNanos)
  else if t0.tvSec < 0 ∧ t1.tvSec < 0 then t0.tvNsec = t1.tvNsec
  else if t0.tvSec < 0 then
    t0.tvNsec = 0 ∧ t1.tvSec - t0.tvSec ≤ 2147483648 ∧ (t1.tvNsec < 0 → t0.tvSec ≤ -2)
  else
    (t1.tvNsec = 0 ∧ (t0.tvSec - t1.tvSec < 2147483648 ∨ t0.tvNsec < 0)) ∨
      (2147483648 ≤ t0.tvSec - t1.tvSec ∧ ¬(t0.tvSec - t1.tvSec = 2147483648 ∧ t0.tvNsec < t1.tvNsec))

theorem add_comm (t0 t1 : TimeInterval) (first : t0.Ranged) (second : t1.Ranged) : t0.add t1 = t1.add t0 := by
  rw [add_eq first second, add_eq second first, Int.add_comm t0.tvSec, Int.add_comm t0.tvNsec]

theorem AddMeets.comm (meets : AddMeets t0 t1) : AddMeets t1 t0 := by
  simp only [AddMeets] at *
  split_ifs at * <;> omega

section Sums
variable {sec nsec sec' nsec' : Int} (first : Signed ⟨sec, nsec⟩) (second : Signed ⟨sec', nsec'⟩)
include first second

theorem add_negative (negative : sec < 0) (negative' : sec' < 0) :
    Represents (add ⟨sec, nsec⟩ ⟨sec', nsec'⟩) (value ⟨sec, nsec⟩ + value ⟨sec', nsec'⟩) ↔ AddMeets ⟨sec, nsec⟩ ⟨sec', nsec'⟩ := by
  rw [add_eq first.ranged second.ranged]
  obtain ⟨⟨low, high⟩, ⟨nsecLow, nsecHigh⟩, sign⟩ := first
  obtain ⟨⟨low', high'⟩, ⟨nsecLow', nsecHigh'⟩, sign'⟩ := second
  simp only [oneSecondInNanos] at *
  have values : value ⟨sec, nsec⟩ + value ⟨sec', nsec'⟩ = (sec + sec') * 1000000000 - (nsec + nsec') := by
    simp only [value, if_pos negative, if_pos negative', oneSecondInNanos]
    omega
  have meets : AddMeets ⟨sec, nsec⟩ ⟨sec', nsec'⟩ ↔ nsec + nsec' < 1000000000 ∨ sec + sec' ≤ -2147483650 := by
    simp only [AddMeets, oneSecondInNanos]
    rw [if_neg (by omega), if_pos ⟨negative, negative'⟩]
  rw [values, meets]
  split <;> simp only [saturated_represents, represents_mk, oneSecondInNanos] <;> split_ifs <;> omega

theorem add_mixed (negative : sec < 0) (positive : 0 ≤ sec') :
    Represents (add ⟨sec, nsec⟩ ⟨sec', nsec'⟩) (value ⟨sec, nsec⟩ + value ⟨sec', nsec'⟩) ↔ AddMeets ⟨sec, nsec⟩ ⟨sec', nsec'⟩ := by
  rw [add_eq first.ranged second.ranged]
  obtain ⟨⟨low, high⟩, ⟨nsecLow, nsecHigh⟩, sign⟩ := first
  obtain ⟨⟨low', high'⟩, ⟨nsecLow', nsecHigh'⟩, sign'⟩ := second
  simp only [oneSecondInNanos] at *
  have values : value ⟨sec, nsec⟩ + value ⟨sec', nsec'⟩ = (sec + sec') * 1000000000 + (nsec' - nsec) := by
    simp only [value, if_pos negative, if_neg (not_lt.mpr positive), oneSecondInNanos]
    omega
  have meets : AddMeets ⟨sec, nsec⟩ ⟨sec', nsec'⟩ ↔
      0 ≤ nsec' ∧ (0 ≤ sec + sec' ∧ nsec = 0 ∨ sec + sec' < 0 ∧ nsec' = 0) := by
    simp only [AddMeets, oneSecondInNanos]
    rw [if_neg (by omega), if_neg (by omega)]
    split <;> omega
  have inside : ¬2147483648 ≤ sec + sec' ∧ ¬sec + sec' < -2147483648 ∧ ¬2147483648 ≤ sec + sec' + 1 ∧
      ¬sec + sec' + 1 < -2147483648 := by omega
  obtain ⟨beyond, under, beyond', under'⟩ := inside
  rw [values, meets]
  split <;> simp only [saturated, if_neg beyond, if_neg under, if_neg beyond', if_neg under', represents_mk] <;> split_ifs <;> omega

/-- Neither is a negative number of seconds. -/
theorem add_positive (positive : 0 ≤ sec) (positive' : 0 ≤ sec') :
    Represents (add ⟨sec, nsec⟩ ⟨sec', nsec'⟩) (value ⟨sec, nsec⟩ + value ⟨sec', nsec'⟩) ↔ AddMeets ⟨sec, nsec⟩ ⟨sec', nsec'⟩ := by
  rw [add_eq first.ranged second.ranged]
  obtain ⟨⟨low, high⟩, ⟨nsecLow, nsecHigh⟩, sign⟩ := first
  obtain ⟨⟨low', high'⟩, ⟨nsecLow', nsecHigh'⟩, sign'⟩ := second
  simp only [oneSecondInNanos] at *
  have values : value ⟨sec, nsec⟩ + value ⟨sec', nsec'⟩ = (sec + sec') * 1000000000 + (nsec + nsec') := by
    simp only [value, if_neg (not_lt.mpr positive), if_neg (not_lt.mpr positive'), oneSecondInNanos]
    omega
  have meets : AddMeets ⟨sec, nsec⟩ ⟨sec', nsec'⟩ ↔
      0 ≤ nsec + nsec' ∨ sec + sec' = 0 ∧ -1000000000 < nsec + nsec' := by
    simp only [AddMeets, oneSecondInNanos]
    rw [if_pos ⟨positive, positive'⟩]
    omega
  have inside : ¬sec + sec' < -2147483648 ∧ ¬sec + sec' + 1 < -2147483648 := by omega
  obtain ⟨under, under'⟩ := inside
  rw [values, meets]
  split <;> simp only [saturated_represents, if_neg under, if_neg under', represents_mk, oneSecondInNanos] <;> split_ifs <;> omega

end Sums

theorem add_represents {t0 t1 : TimeInterval} (first : t0.Signed) (second : t1.Signed) :
    Represents (t0.add t1) (t0.value + t1.value) ↔ AddMeets t0 t1 := by
  rcases lt_or_ge t0.tvSec 0 with negative | positive
  · rcases lt_or_ge t1.tvSec 0 with negative' | positive'
    · exact add_negative first second negative negative'
    · exact add_mixed first second negative positive'
  · rcases lt_or_ge t1.tvSec 0 with negative' | positive'
    · rw [add_comm _ _ first.ranged second.ranged, Int.add_comm t0.value]
      exact (add_mixed second first negative' positive).trans ⟨.comm, .comm⟩
    · exact add_positive first second positive positive'

section Differences
variable {sec nsec sec' nsec' : Int}

theorem greater_mk : greater ⟨sec, nsec⟩ ⟨sec', nsec'⟩ = true ↔ sec > sec' ∨ (sec = sec' ∧ nsec > nsec') := decide_eq_true_iff

variable (first : Signed ⟨sec, nsec⟩) (second : Signed ⟨sec', nsec'⟩)
include first second

/-- Neither is a negative number of seconds. -/
theorem subtract_positive (positive : 0 ≤ sec) (positive' : 0 ≤ sec') :
    Represents (subtract ⟨sec, nsec⟩ ⟨sec', nsec'⟩) (value ⟨sec, nsec⟩ - value ⟨sec', nsec'⟩) ↔
      SubtractMeets ⟨sec, nsec⟩ ⟨sec', nsec'⟩ := by
  rw [subtract_eq first.ranged second.ranged]
  obtain ⟨⟨low, high⟩, ⟨nsecLow, nsecHigh⟩, sign⟩ := first
  obtain ⟨⟨low', high'⟩, ⟨nsecLow', nsecHigh'⟩, sign'⟩ := second
  simp only [oneSecondInNanos] at *
  have values : value ⟨sec, nsec⟩ - value ⟨sec', nsec'⟩ = (sec - sec') * 1000000000 + (nsec - nsec') := by
    simp only [value, if_neg (not_lt.mpr positive), if_neg (not_lt.mpr positive'), oneSecondInNanos]
    omega
  have meets : SubtractMeets ⟨sec, nsec⟩ ⟨sec', nsec'⟩ ↔
      (-1000000000 < nsec - nsec' ∧ nsec - nsec' < 1000000000) ∨ (sec = 2147483647 ∧ nsec - nsec' = 1000000000) := by
    simp only [SubtractMeets, oneSecondInNanos]
    rw [if_pos ⟨positive, positive'⟩]
  rw [values, meets]
  by_cases greater : sec > sec' ∨ (sec = sec' ∧ nsec > nsec')
  · rw [if_pos (greater_mk.mpr greater)]
    have inside : ¬2147483648 ≤ sec - sec' ∧ ¬sec - sec' < -2147483648 ∧ ¬2147483648 ≤ sec - sec' - 1 ∧
        ¬sec - sec' - 1 < -2147483648 := by omega
    obtain ⟨beyond, under, beyond', under'⟩ := inside
    split <;> simp only [saturated, if_neg beyond, if_neg under, if_neg beyond', if_neg under', represents_mk] <;>
      split_ifs <;> omega
  · rw [if_neg (greater ∘ greater_mk.mp)]
    have right : ¬sec < 0 := by omega
    simp only [opposite, right, false_and, if_false]
    split <;> split <;> rw [represents_mk] <;> split_ifs <;> omega

theorem subtract_negative (negative : sec < 0) (negative' : sec' < 0) :
    Represents (subtract ⟨sec, nsec⟩ ⟨sec', nsec'⟩) (value ⟨sec, nsec⟩ - value ⟨sec', nsec'⟩) ↔
      SubtractMeets ⟨sec, nsec⟩ ⟨sec', nsec'⟩ := by
  rw [subtract_eq first.ranged second.ranged]
  obtain ⟨⟨low, high⟩, ⟨nsecLow, nsecHigh⟩, sign⟩ := first
  obtain ⟨⟨low', high'⟩, ⟨nsecLow', nsecHigh'⟩, sign'⟩ := second
  simp only [oneSecondInNanos] at *
  have values : value ⟨sec, nsec⟩ - value ⟨sec', nsec'⟩ = (sec - sec') * 1000000000 - (nsec - nsec') := by
    simp only [value, if_pos negative, if_pos negative', oneSecondInNanos]
    omega
  have meets : SubtractMeets ⟨sec, nsec⟩ ⟨sec', nsec'⟩ ↔ nsec = nsec' := by
    simp only [SubtractMeets]
    rw [if_neg (by omega), if_pos ⟨negative, negative'⟩]
  rw [values, meets]
  by_cases greater : sec > sec' ∨ (sec = sec' ∧ nsec > nsec')
  · rw [if_pos (greater_mk.mpr greater)]
    have inside : ¬2147483648 ≤ sec - sec' ∧ ¬sec - sec' < -2147483648 ∧ ¬2147483648 ≤ sec - sec' - 1 ∧
        ¬sec - sec' - 1 < -2147483648 := by omega
    obtain ⟨beyond, under, beyond', under'⟩ := inside
    split <;> simp only [saturated, if_neg beyond, if_neg under, if_neg beyond', if_neg under', represents_mk] <;>
      split_ifs <;> omega
  · rw [if_neg (greater ∘ greater_mk.mp)]
    have right : ¬0 ≤ sec' := by omega
    simp only [opposite, right, false_and, and_false, if_false]
    split <;> split <;> rw [represents_mk] <;> split_ifs <;> omega

theorem subtract_mixed (negative : sec < 0) (positive : 0 ≤ sec') :
    Represents (subtract ⟨sec, nsec⟩ ⟨sec', nsec'⟩) (value ⟨sec, nsec⟩ - value ⟨sec', nsec'⟩) ↔
      SubtractMeets ⟨sec, nsec⟩ ⟨sec', nsec'⟩ := by
  rw [subtract_eq first.ranged second.ranged]
  obtain ⟨⟨low, high⟩, ⟨nsecLow, nsecHigh⟩, sign⟩ := first
  obtain ⟨⟨low', high'⟩, ⟨nsecLow', nsecHigh'⟩, sign'⟩ := second
  simp only [oneSecondInNanos] at *
  have values : value ⟨sec, nsec⟩ - value ⟨sec', nsec'⟩ = (sec - sec') * 1000000000 - (nsec + nsec') := by
    simp only [value, if_pos negative, if_neg (not_lt.mpr positive), oneSecondInNanos]
    omega
  have meets : SubtractMeets ⟨sec, nsec⟩ ⟨sec', nsec'⟩ ↔
      nsec = 0 ∧ sec' - sec ≤ 2147483648 ∧ (nsec' < 0 → sec ≤ -2) := by
    simp only [SubtractMeets]
    rw [if_neg (by omega), if_neg (by omega), if_pos negative]
  have less : ¬(sec > sec' ∨ (sec = sec' ∧ nsec > nsec')) := by omega
  rw [values, meets, if_neg (less ∘ greater_mk.mp)]
  simp only [opposite, negative, positive, true_and]
  split
  case isTrue borrow =>
    split
    case isTrue =>
      split
      · rw [minusInfinity_represents, oneSecondInNanos]
        omega
      · rw [infinity_represents, oneSecondInNanos]
        omega
    case isFalse =>
      split <;> rw [represents_mk] <;> split_ifs <;> omega
  case isFalse borrow =>
    split
    case isTrue =>
      split
      · omega
      · rw [infinity_represents, oneSecondInNanos]
        omega
    case isFalse =>
      split <;> rw [represents_mk] <;> split_ifs <;> omega

theorem subtract_mixed' (positive : 0 ≤ sec) (negative : sec' < 0) :
    Represents (subtract ⟨sec, nsec⟩ ⟨sec', nsec'⟩) (value ⟨sec, nsec⟩ - value ⟨sec', nsec'⟩) ↔
      SubtractMeets ⟨sec, nsec⟩ ⟨sec', nsec'⟩ := by
  rw [subtract_eq first.ranged second.ranged]
  obtain ⟨⟨low, high⟩, ⟨nsecLow, nsecHigh⟩, sign⟩ := first
  obtain ⟨⟨low', high'⟩, ⟨nsecLow', nsecHigh'⟩, sign'⟩ := second
  simp only [oneSecondInNanos] at *
  have values : value ⟨sec, nsec⟩ - value ⟨sec', nsec'⟩ = (sec - sec') * 1000000000 + (nsec + nsec') := by
    simp only [value, if_neg (not_lt.mpr positive), if_pos negative, oneSecondInNanos]
    omega
  have meets : SubtractMeets ⟨sec, nsec⟩ ⟨sec', nsec'⟩ ↔
      (nsec' = 0 ∧ (sec - sec' < 2147483648 ∨ nsec < 0)) ∨
        (2147483648 ≤ sec - sec' ∧ ¬(sec - sec' = 2147483648 ∧ nsec < nsec')) := by
    simp only [SubtractMeets]
    rw [if_neg (by omega), if_neg (by omega), if_neg (by omega)]
  have more : sec > sec' ∨ (sec = sec' ∧ nsec > nsec') := by omega
  rw [values, meets, if_pos (greater_mk.mpr more)]
  have inside : ¬sec - sec' < -2147483648 ∧ ¬sec - sec' - 1 < -2147483648 := by omega
  obtain ⟨under, under'⟩ := inside
  split <;> simp only [saturated_represents, if_neg under, if_neg under', represents_mk, oneSecondInNanos] <;>
    split_ifs <;> omega

end Differences

theorem subtract_represents {t0 t1 : TimeInterval} (first : t0.Signed) (second : t1.Signed) :
    Represents (t0.subtract t1) (t0.value - t1.value) ↔ SubtractMeets t0 t1 := by
  rcases lt_or_ge t0.tvSec 0 with negative | positive <;> rcases lt_or_ge t1.tvSec 0 with negative' | positive'
  · exact subtract_negative first second negative negative'
  · exact subtract_mixed first second negative positive'
  · exact subtract_mixed' first second positive negative'
  · exact subtract_positive first second positive positive'

/-! ## The order -/

def ComparesAsSaid (t0 t1 : TimeInterval) : Prop := ¬(t0.tvSec = t1.tvSec ∧ t0.tvSec < 0 ∧ t0.tvNsec ≠ t1.tvNsec)

section Order
variable {t0 t1 : TimeInterval}

theorem less_value (first : t0.Signed) (second : t1.Signed) :
    (t0.less t1 = true ↔ t0.value < t1.value) ↔ ComparesAsSaid t0 t1 := by
  obtain ⟨-, ⟨low, high⟩, sign⟩ := first
  obtain ⟨-, ⟨low', high'⟩, sign'⟩ := second
  simp only [less, value, ComparesAsSaid, oneSecondInNanos, decide_eq_true_eq] at *
  split_ifs <;> omega

theorem greater_value (first : t0.Signed) (second : t1.Signed) :
    (t0.greater t1 = true ↔ t1.value < t0.value) ↔ ComparesAsSaid t0 t1 := by
  obtain ⟨-, ⟨low, high⟩, sign⟩ := first
  obtain ⟨-, ⟨low', high'⟩, sign'⟩ := second
  simp only [greater, value, ComparesAsSaid, oneSecondInNanos, decide_eq_true_eq] at *
  split_ifs <;> omega

theorem lessEquals_value (first : t0.Signed) (second : t1.Signed) :
    (t0.lessEquals t1 = true ↔ t0.value ≤ t1.value) ↔ ComparesAsSaid t0 t1 := by
  obtain ⟨-, ⟨low, high⟩, sign⟩ := first
  obtain ⟨-, ⟨low', high'⟩, sign'⟩ := second
  change (t0 ≤ t1 ↔ _) ↔ _
  rw [le_iff]
  simp only [value, ComparesAsSaid, oneSecondInNanos] at *
  split_ifs <;> omega

theorem equals_value (first : t0.Signed) (second : t1.Signed) : t0.equals t1 = true ↔ t0.value = t1.value := by
  obtain ⟨-, ⟨low, high⟩, sign⟩ := first
  obtain ⟨-, ⟨low', high'⟩, sign'⟩ := second
  simp only [equals, value, oneSecondInNanos, decide_eq_true_eq] at *
  split_ifs <;> omega

end Order

/-! ## The infinities -/

section Infinities
variable {ti : TimeInterval}

theorem saturated_eq_infinity (sec nsec : Int) :
    saturated sec nsec = infinity ↔ 2147483648 ≤ sec ∨ (sec = 2147483647 ∧ nsec = 1000000000) := by
  rw [saturated]
  split
  case isTrue beyond => exact iff_of_true rfl (.inl beyond)
  case isFalse below =>
    split
    case isTrue under => exact iff_of_false (fun same => absurd (congrArg tvSec same) (by decide)) (by omega)
    case isFalse above =>
      rw [infinity, oneSecondInNanos, TimeInterval.mk.injEq]
      omega

theorem saturated_eq_minusInfinity (sec nsec : Int) :
    saturated sec nsec = minusInfinity ↔ sec < -2147483648 ∨ (sec = -2147483648 ∧ nsec = 1000000000) := by
  rw [saturated]
  split
  case isTrue beyond => exact iff_of_false (fun same => absurd (congrArg tvSec same) (by decide)) (by omega)
  case isFalse below =>
    split
    case isTrue under => exact iff_of_true rfl (.inl under)
    case isFalse above =>
      rw [minusInfinity, oneSecondInNanos, TimeInterval.mk.injEq]
      omega

theorem infinity_add (signed : ti.Signed) : infinity.add ti = infinity ↔ 0 ≤ ti.value := by
  rw [add_eq infinity_ranged signed.ranged]
  obtain ⟨⟨low, high⟩, ⟨nsecLow, nsecHigh⟩, sign⟩ := signed
  have sec : infinity.tvSec = 2147483647 := rfl
  have nsec : infinity.tvNsec = 1000000000 := rfl
  simp only [value, oneSecondInNanos] at *
  split <;> rw [saturated_eq_infinity] <;> split_ifs <;> omega

theorem minusInfinity_add (signed : ti.Signed) : minusInfinity.add ti = minusInfinity ↔ ti.tvSec ≤ -2 := by
  rw [add_eq minusInfinity_ranged signed.ranged]
  obtain ⟨⟨low, high⟩, ⟨nsecLow, nsecHigh⟩, sign⟩ := signed
  have sec : minusInfinity.tvSec = -2147483648 := rfl
  have nsec : minusInfinity.tvNsec = 1000000000 := rfl
  simp only [oneSecondInNanos] at *
  split <;> rw [saturated_eq_minusInfinity] <;> omega

theorem infinity_subtract (signed : ti.Signed) : infinity.subtract ti = infinity ↔ ti = zero ∨ ti.tvSec < 0 := by
  rw [subtract_eq infinity_ranged signed.ranged]
  obtain ⟨⟨low, high⟩, ⟨nsecLow, nsecHigh⟩, sign⟩ := signed
  have sec : infinity.tvSec = 2147483647 := rfl
  have nsec : infinity.tvNsec = 1000000000 := rfl
  have none : ti = zero ↔ ti.tvSec = 0 ∧ ti.tvNsec = 0 := by
    exact Iff.of_eq (TimeInterval.mk.injEq ..)
  have more : infinity.greater ti = true := by
    rw [greater, decide_eq_true_eq]
    simp only [oneSecondInNanos] at *
    omega
  rw [if_pos more, none]
  simp only [oneSecondInNanos] at *
  split <;> rw [saturated_eq_infinity] <;> omega

theorem minusInfinity_subtract (signed : ti.Signed) : minusInfinity.subtract ti ≠ minusInfinity := by
  rw [subtract_eq minusInfinity_ranged signed.ranged]
  obtain ⟨⟨low, high⟩, ⟨nsecLow, nsecHigh⟩, sign⟩ := signed
  have sec : minusInfinity.tvSec = -2147483648 := rfl
  have nsec : minusInfinity.tvNsec = 1000000000 := rfl
  simp only [oneSecondInNanos] at *
  intro same
  split at same
  case isTrue more =>
    have more := of_decide_eq_true more
    split at same <;> rw [saturated_eq_minusInfinity] at same <;> omega
  case isFalse less =>
    rw [if_pos (by omega), opposite] at same
    split at same
    case isTrue wraps =>
      rw [if_neg (by omega)] at same
      exact absurd (congrArg tvSec same) (by decide)
    case isFalse =>
      split at same
      case isTrue => cases sec.symm.trans (congrArg tvSec same).symm
      case isFalse =>
        have left := congrArg tvNsec same
        simp only [nsec] at left
        omega

end Infinities

/-- What each function makes of canonical operands, and of an infinity and a canonical operand. -/
theorem arithmetic_exact {t0 t1 : TimeInterval} (first : t0.Signed) (second : t1.Signed) :
    ((t0.less t1 = true ↔ t0.value < t1.value) ↔ ComparesAsSaid t0 t1) ∧
      ((t0.lessEquals t1 = true ↔ t0.value ≤ t1.value) ↔ ComparesAsSaid t0 t1) ∧
      ((t0.greater t1 = true ↔ t1.value < t0.value) ↔ ComparesAsSaid t0 t1) ∧
      (t0.equals t1 = true ↔ t0.value = t1.value) ∧
      (Represents (t0.add t1) (t0.value + t1.value) ↔ AddMeets t0 t1) ∧
      (Represents (t0.subtract t1) (t0.value - t1.value) ↔ SubtractMeets t0 t1) ∧
      (infinity.add t1 = infinity ↔ 0 ≤ t1.value) ∧
      (minusInfinity.add t1 = minusInfinity ↔ t1.tvSec ≤ -2) ∧
      (infinity.subtract t1 = infinity ↔ t1 = zero ∨ t1.tvSec < 0) ∧
      minusInfinity.subtract t1 ≠ minusInfinity :=
  ⟨less_value first second, lessEquals_value first second, greater_value first second, equals_value first second,
    add_represents first second, subtract_represents first second, infinity_add second, minusInfinity_add second,
    infinity_subtract second, minusInfinity_subtract second⟩

/-- A half second is not taken from minus one and a half, but put to it. -/
theorem halves_added :
    ¬Represents (add ⟨-1, 500000000⟩ ⟨0, -500000000⟩) (value ⟨-1, 500000000⟩ + value ⟨0, -500000000⟩) := by
  have first : Signed ⟨-1, 500000000⟩ := ⟨by decide, by decide, by decide⟩
  have second : Signed ⟨0, -500000000⟩ := ⟨by decide, by decide, by decide⟩
  have wrong : ¬AddMeets ⟨-1, 500000000⟩ ⟨0, -500000000⟩ := by simp [AddMeets]
  exact wrong ∘ (arithmetic_exact first second).2.2.2.2.1.mp

/-- Minus one and a half seconds is less than minus one second. -/
theorem halves_differ :
    Signed ⟨-1, 500000000⟩ ∧ Signed ⟨-1, 0⟩ ∧
      ¬(less ⟨-1, 500000000⟩ ⟨-1, 0⟩ = true ↔ value ⟨-1, 500000000⟩ < value ⟨-1, 0⟩) :=
  ⟨⟨by decide, by decide, by decide⟩, ⟨by decide, by decide, by decide⟩, by decide⟩

end Apollo.TimeInterval
