import Mathlib.Logic.Function.Iterate

/-!
# Loops over a state

`while` and `do … while` with a bound of their rounds.  A loop that is left in time is as
many rounds of its body as it makes.
-/

set_option autoImplicit false

namespace Apollo.Lib

variable {σ : Type}

/-- `while (continues) step`. -/
def whileDo (continues : σ → Prop) [DecidablePred continues] (step : σ → σ) : Nat → σ → σ
  | 0, state => state
  | rounds + 1, state => if continues state then whileDo continues step rounds (step state) else state

/-- `do step while (continues)`. -/
def doWhile (continues : σ → Prop) [DecidablePred continues] (step : σ → σ) : Nat → σ → σ
  | 0, state => state
  | rounds + 1, state => if continues (step state) then doWhile continues step rounds (step state) else step state

variable {continues : σ → Prop} [DecidablePred continues] {step : σ → σ}

theorem whileDo_eq_iterate {made rounds : Nat} {state : σ} (enough : made ≤ rounds)
    (goesOn : ∀ round < made, continues (step^[round] state)) (ends : ¬continues (step^[made] state)) :
    whileDo continues step rounds state = step^[made] state := by
  induction made generalizing rounds state with
  | zero =>
    cases rounds with
    | zero => rfl
    | succ rounds => exact if_neg ends
  | succ made ih =>
    cases rounds with
    | zero => exact absurd enough (Nat.not_succ_le_zero made)
    | succ rounds =>
      have first : continues state := goesOn 0 (Nat.zero_lt_succ made)
      rw [whileDo, if_pos first, Function.iterate_succ_apply]
      apply ih (Nat.le_of_succ_le_succ enough)
      · intro round inside
        exact goesOn (round + 1) (Nat.succ_lt_succ inside)
      · exact ends

theorem whileDo_of_not {rounds : Nat} {state : σ} (ends : ¬continues state) : whileDo continues step rounds state = state :=
  whileDo_eq_iterate (Nat.zero_le rounds) (fun _ inside => absurd inside (Nat.not_lt_zero _)) ends

/-- Behind the first round it is a `while` loop. -/
theorem doWhile_succ (rounds : Nat) (state : σ) :
    doWhile continues step (rounds + 1) state = whileDo continues step rounds (step state) := by
  induction rounds generalizing state with
  | zero => exact ite_self _
  | succ rounds ih => rw [doWhile, whileDo, ih]

theorem doWhile_eq_iterate {made rounds : Nat} {state : σ} (enough : made < rounds)
    (goesOn : ∀ round < made, continues (step^[round + 1] state)) (ends : ¬continues (step^[made + 1] state)) :
    doWhile continues step rounds state = step^[made + 1] state := by
  obtain ⟨rounds, rfl⟩ := Nat.exists_eq_succ_of_ne_zero (Nat.ne_zero_of_lt enough)
  rw [doWhile_succ]
  exact whileDo_eq_iterate (Nat.le_of_lt_succ enough) goesOn ends

/-! ## Pointers -/

section Pointers
variable {pointer : σ → Nat} {width : Nat}

/-- `while (p < pe)`. -/
def whileBelow (pointer : σ → Nat) (step : σ → σ) (pe : Nat) (state : σ) : σ :=
  whileDo (fun state => pointer state < pe) step (pe - pointer state) state

def unrolled (step : σ → σ) (rounds : Nat) : σ → σ := (fun state => step (step (step (step state))))^[rounds]

theorem unrolled_eq (step : σ → σ) (rounds : Nat) : unrolled step rounds = step^[4 * rounds] := by
  rw [Function.iterate_mul]
  rfl

section Advancing
variable (advances : ∀ state, pointer (step state) = pointer state + width) {state : σ}
include advances

theorem pointer_iterate (rounds : Nat) : pointer (step^[rounds] state) = pointer state + rounds * width := by
  induction rounds with
  | zero => simp
  | succ rounds ih =>
    rw [Function.iterate_succ_apply', advances, ih, Nat.succ_mul, Nat.add_assoc]

theorem whileBelow_eq {rounds pe : Nat} (positive : 0 < width) (ends : pointer state + rounds * width = pe) :
    whileBelow pointer step pe state = step^[rounds] state := by
  apply whileDo_eq_iterate
  · rw [← ends, Nat.add_sub_cancel_left]
    exact Nat.le_mul_of_pos_right rounds positive
  · intro round inside
    have short : round * width < rounds * width := Nat.mul_lt_mul_of_pos_right inside positive
    rw [pointer_iterate advances]
    omega
  · rw [pointer_iterate advances]
    omega

theorem whileBelow_unrolled {fours units pe : Nat} (positive : 0 < width) (short : 4 * fours ≤ units)
    (ends : pointer state + units * width = pe) :
    whileBelow pointer step pe (unrolled step fours state) = step^[units] state := by
  obtain ⟨rest, rfl⟩ := Nat.exists_eq_add_of_le short
  have reached := @pointer_iterate _ _ _ _ advances state (4 * fours)
  rw [Nat.add_mul] at ends
  rw [unrolled_eq, @whileBelow_eq _ _ _ _ advances _ rest pe positive (by omega), ← Function.iterate_add_apply, Nat.add_comm]

/-- Four units at a time, the units that are left, and the single steps that are left. -/
theorem whileBelow_units {unit : σ → σ} {size count : Nat} (positive : 0 < size)
    (unitAdvances : ∀ state, pointer (unit state) = pointer state + size)
    (steps : ∀ rounds, unit^[rounds] state = step^[rounds * size] state) (single : width = 1) :
    whileBelow pointer step (pointer state + count) (whileBelow pointer unit (pointer state + count / size * size)
      (unrolled unit ((pointer state + count / size * size - pointer state) / size / 4) state)) = step^[count] state := by
  subst single
  have units : (pointer state + count / size * size - pointer state) / size / 4 = count / size / 4 := by
    rw [Nat.add_sub_cancel_left, Nat.mul_div_cancel _ positive]
  have whole : count / size * size ≤ count := Nat.div_mul_le_self count size
  have reached := @pointer_iterate _ _ _ _ advances state (count / size * size)
  rw [units, whileBelow_unrolled unitAdvances positive (Nat.mul_div_le _ 4) rfl, steps,
    @whileBelow_eq _ _ _ _ advances _ (count - count / size * size) _ Nat.one_pos (by omega), ← Function.iterate_add_apply,
    Nat.sub_add_cancel whole]

end Advancing

/-- The rounds up to the next multiple of `unit`. -/
theorem doWhile_aligned (advances : ∀ state, pointer (step state) = pointer state + 1) {state : σ} {unit : Nat}
    (positive : 0 < unit) (unaligned : pointer state % unit > 0) :
    doWhile (fun state => pointer state % unit ≠ 0) step unit state = step^[unit - pointer state % unit] state := by
  have below : pointer state % unit < unit := Nat.mod_lt _ positive
  have remainder : ∀ rounds, (pointer state + rounds * 1) % unit = (pointer state % unit + rounds) % unit := by
    intro rounds
    rw [Nat.mul_one, Nat.mod_add_mod]
  obtain ⟨made, rounds⟩ : ∃ made, unit - pointer state % unit = made + 1 := Nat.exists_eq_succ_of_ne_zero (by omega)
  rw [rounds]
  apply doWhile_eq_iterate
  · omega
  · intro round inside
    rw [pointer_iterate advances, remainder, Nat.mod_eq_of_lt (by omega)]
    omega
  · have whole : pointer state % unit + (made + 1) = unit := by omega
    rw [pointer_iterate advances, remainder, whole, Nat.mod_self]
    exact fun differs => differs rfl

/-- `while (p > pe)`. -/
def whileAbove (pointer : σ → Nat) (step : σ → σ) (pe : Nat) (state : σ) : σ :=
  whileDo (fun state => pointer state > pe) step (pointer state - pe) state

theorem whileAbove_of_le {pe : Nat} {state : σ} (low : pointer state ≤ pe) : whileAbove pointer step pe state = state :=
  whileDo_of_not (Nat.not_lt.mpr low)

section Retreating
variable (retreats : ∀ state, pointer (step state) = pointer state - width) {state : σ}
include retreats

theorem pointer_iterate_down (rounds : Nat) : pointer (step^[rounds] state) = pointer state - rounds * width := by
  induction rounds with
  | zero => simp
  | succ rounds ih =>
    rw [Function.iterate_succ_apply', retreats, ih, Nat.succ_mul, Nat.sub_sub]

theorem whileAbove_eq {rounds pe : Nat} (positive : 0 < width) (ends : pointer state = pe + rounds * width) :
    whileAbove pointer step pe state = step^[rounds] state := by
  apply whileDo_eq_iterate
  · rw [ends, Nat.add_sub_cancel_left]
    exact Nat.le_mul_of_pos_right rounds positive
  · intro round inside
    have short : round * width < rounds * width := Nat.mul_lt_mul_of_pos_right inside positive
    rw [pointer_iterate_down retreats]
    omega
  · rw [pointer_iterate_down retreats]
    omega

theorem whileAbove_unrolled {fours units pe : Nat} (positive : 0 < width) (short : 4 * fours ≤ units)
    (ends : pointer state = pe + units * width) :
    whileAbove pointer step pe (unrolled step fours state) = step^[units] state := by
  obtain ⟨rest, rfl⟩ := Nat.exists_eq_add_of_le short
  have reached := @pointer_iterate_down _ _ _ _ retreats state (4 * fours)
  rw [Nat.add_mul] at ends
  rw [unrolled_eq, @whileAbove_eq _ _ _ _ retreats _ rest pe positive (by omega), ← Function.iterate_add_apply, Nat.add_comm]

end Retreating

end Pointers

end Apollo.Lib
