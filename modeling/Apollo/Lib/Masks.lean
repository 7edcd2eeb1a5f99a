import Mathlib.Data.Nat.ModEq

/-!
# Masked indices

An index of `width` bits runs freely and wraps; masked with `2^exponent - 1` it
is a slot of a ring.  Wrapping and masking agree, since the size of the ring
divides the number of indices.
-/

set_option autoImplicit false

namespace Apollo.Lib

variable {width exponent : Nat} {mask : BitVec width}

theorem toNat_and_mask (isMask : mask.toNat = 2 ^ exponent - 1) (index : BitVec width) :
    (index &&& mask).toNat = index.toNat % 2 ^ exponent := by
  rw [BitVec.toNat_and, isMask, Nat.and_two_pow_sub_one_eq_mod]

/-- A masked index is the index modulo the size of the ring, wrapped or not. -/
theorem toNat_add_and_mask (small : exponent ≤ width) (isMask : mask.toNat = 2 ^ exponent - 1) (index : BitVec width)
    (offset : Nat) : ((index + BitVec.ofNat width offset) &&& mask).toNat = (index.toNat + offset) % 2 ^ exponent := by
  have divides : 2 ^ exponent ∣ 2 ^ width := Nat.pow_dvd_pow 2 small
  rw [toNat_and_mask isMask, BitVec.toNat_add, BitVec.toNat_ofNat, Nat.mod_mod_of_dvd _ divides, Nat.add_mod,
    Nat.mod_mod_of_dvd _ divides, ← Nat.add_mod]

/-- Two slots of one round through the ring are different. -/
theorem masked_inj (small : exponent ≤ width) (isMask : mask.toNat = 2 ^ exponent - 1) {index : BitVec width}
    {first second : Nat} (low : first < 2 ^ exponent) (high : second < 2 ^ exponent)
    (same : ((index + BitVec.ofNat width first) &&& mask).toNat = ((index + BitVec.ofNat width second) &&& mask).toNat) :
    first = second := by
  rw [toNat_add_and_mask small isMask, toNat_add_and_mask small isMask] at same
  have congruent : first ≡ second [MOD 2 ^ exponent] := Nat.ModEq.add_left_cancel' index.toNat same
  exact Nat.ModEq.eq_of_lt_of_lt congruent low high

end Apollo.Lib
