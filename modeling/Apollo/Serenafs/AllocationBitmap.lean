import Apollo.Lib.Bytes

/-!
# The allocation bitmap

One bit for each block of the volume, most significant bit first: the bit of
block `lba` is bit `7 - lba % 8` of byte `lba / 8`.
-/

set_option autoImplicit false

namespace Apollo.Serenafs

def bitMask (lba : Nat) : UInt8 := 1 <<< UInt8.ofNat (7 - lba % 8)

def isBlockInUse (bitmap : List UInt8) (lba : Nat) : Bool :=
  bitmap.getD (lba / 8) 0 &&& bitMask lba != 0

def setBlockInUse (bitmap : List UInt8) (lba : Nat) (inUse : Bool) : List UInt8 :=
  bitmap.modify (lba / 8) fun byte =>
    if inUse then byte ||| bitMask lba else byte &&& ~~~(bitMask lba)

@[simp] theorem length_setBlockInUse (bitmap : List UInt8) (lba : Nat) (inUse : Bool) :
    (setBlockInUse bitmap lba inUse).length = bitmap.length := by
  simp [setBlockInUse]

theorem toBitVec_bitMask (lba : Nat) :
    (bitMask lba).toBitVec = BitVec.twoPow 8 (7 - lba % 8) := by
  have cases : lba % 8 = 0 ∨ lba % 8 = 1 ∨ lba % 8 = 2 ∨ lba % 8 = 3 ∨ lba % 8 = 4 ∨
      lba % 8 = 5 ∨ lba % 8 = 6 ∨ lba % 8 = 7 := by omega
  unfold bitMask
  rcases cases with h | h | h | h | h | h | h | h <;> rw [h] <;> rfl

theorem and_bitMask_ne_zero_iff (byte : UInt8) (lba : Nat) :
    (byte &&& bitMask lba != 0) = byte.toBitVec.getLsbD (7 - lba % 8) := by
  have zero : (byte &&& bitMask lba = 0) ↔
      byte.toBitVec &&& BitVec.twoPow 8 (7 - lba % 8) = 0#8 := by
    rw [← UInt8.toBitVec_inj, UInt8.toBitVec_and, toBitVec_bitMask]
    rfl
  have bound : 7 - lba % 8 < 8 := by omega
  have different : BitVec.twoPow 8 (7 - lba % 8) ≠ 0#8 := by
    intro same
    have bits := congrArg (fun bits : BitVec 8 => bits.getLsbD (7 - lba % 8)) same
    simp [bound] at bits
  rw [BitVec.and_twoPow] at zero
  cases set : byte.toBitVec.getLsbD (7 - lba % 8) with
  | true =>
    rw [set, if_pos rfl] at zero
    rw [bne_iff_ne]
    exact fun same => different (zero.mp same)
  | false =>
    rw [set, if_neg (by decide)] at zero
    rw [bne_eq_false_iff_eq]
    exact zero.mpr rfl

theorem isBlockInUse_eq (bitmap : List UInt8) (lba : Nat) :
    isBlockInUse bitmap lba = (bitmap.getD (lba / 8) 0).toBitVec.getLsbD (7 - lba % 8) :=
  and_bitMask_ne_zero_iff _ lba

theorem getLsbD_setBit (byte : UInt8) (lba other : Nat) (inUse : Bool) :
    (if inUse then byte ||| bitMask lba else byte &&& ~~~(bitMask lba)).toBitVec.getLsbD
        (7 - other % 8) =
      if other % 8 = lba % 8 then inUse else byte.toBitVec.getLsbD (7 - other % 8) := by
  have bound : 7 - other % 8 < 8 := by omega
  have mask : (bitMask lba).toBitVec.getLsbD (7 - other % 8) = decide (other % 8 = lba % 8) := by
    rw [toBitVec_bitMask, BitVec.getLsbD_twoPow]
    by_cases same : other % 8 = lba % 8
    · simp [same]
      omega
    · have : 7 - lba % 8 ≠ 7 - other % 8 := by omega
      simp [same, this]
  cases inUse with
  | true =>
    rw [if_pos rfl, UInt8.toBitVec_or, BitVec.getLsbD_or, mask]
    by_cases same : other % 8 = lba % 8 <;> simp [same]
  | false =>
    rw [if_neg (by decide), UInt8.toBitVec_and, BitVec.getLsbD_and, UInt8.toBitVec_not,
      BitVec.getLsbD_not, mask]
    by_cases same : other % 8 = lba % 8 <;> simp [same, bound]

theorem getD_setBlockInUse_self (bitmap : List UInt8) {lba : Nat} (inUse : Bool)
    (bound : lba / 8 < bitmap.length) :
    (setBlockInUse bitmap lba inUse).getD (lba / 8) 0 =
      if inUse then bitmap.getD (lba / 8) 0 ||| bitMask lba
      else bitmap.getD (lba / 8) 0 &&& ~~~(bitMask lba) := by
  simp [setBlockInUse, bound]

theorem getD_setBlockInUse_of_ne (bitmap : List UInt8) (lba : Nat) (inUse : Bool) {index : Nat}
    (other : lba / 8 ≠ index) :
    (setBlockInUse bitmap lba inUse).getD index 0 = bitmap.getD index 0 := by
  simp [setBlockInUse, other]

/-- Setting one bit changes that bit and no other. -/
theorem isBlockInUse_setBlockInUse (bitmap : List UInt8) {lba : Nat} (other : Nat) (inUse : Bool)
    (bound : lba / 8 < bitmap.length) :
    isBlockInUse (setBlockInUse bitmap lba inUse) other =
      if other = lba then inUse else isBlockInUse bitmap other := by
  rw [isBlockInUse_eq, isBlockInUse_eq]
  by_cases sameByte : lba / 8 = other / 8
  · rw [← sameByte, getD_setBlockInUse_self bitmap inUse bound, getLsbD_setBit]
    have same : other % 8 = lba % 8 ↔ other = lba := by omega
    simp only [same]
  · have different : other ≠ lba := by
      intro same
      exact sameByte (by rw [same])
    rw [if_neg different, getD_setBlockInUse_of_ne bitmap lba inUse sameByte]

theorem lt_length_of_isBlockInUse {bitmap : List UInt8} {lba : Nat}
    (marked : isBlockInUse bitmap lba = true) : lba / 8 < bitmap.length := by
  by_contra outside
  rw [isBlockInUse_eq, List.getD_eq_default _ _ (by omega)] at marked
  simp at marked

end Apollo.Serenafs
