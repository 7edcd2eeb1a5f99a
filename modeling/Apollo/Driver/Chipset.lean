import Mathlib.Data.Fin.Basic

/-!
# The interrupt registers of the chipset

`chipset_enable_interrupt` and `chipset_disable_interrupt` of `chipset_asm.s`.  A
write to an enable register sets or clears the bits that are set in the value,
depending on the top bit of the value.
-/

set_option autoImplicit false

namespace Apollo.Driver

abbrev kInterruptIDCount : Nat := 24

abbrev InterruptID : Type := Fin kInterruptIDCount

def kInterruptIDPorts : InterruptID := 3

def kInterruptIDExtern : InterruptID := 13

/-- `INTENA` and the interrupt masks of CIA A and CIA B. -/
structure Chipset where
  intena : BitVec 16
  ciaAICR : BitVec 8
  ciaBICR : BitVec 8
  deriving DecidableEq

/-- A register behind a write; the top bit of the value says whether the others are set or cleared. -/
def writeMask {width : Nat} (mask value : BitVec width) : BitVec width :=
  if value.msb then mask ||| value else mask &&& ~~~value

/-- `INTF_SETCLR | INTF_INTEN | INTF_EXTER | INTF_PORTS`. -/
def kMasterInterrupts : BitVec 16 := 0x8000 ||| 0x4000 ||| 0x2000 ||| 0x0008

/-- `ICRB_IR` as a mask. -/
def kInterruptRequest : BitVec 8 := 0x80

def interruptBit (width : Nat) (interruptId : InterruptID) (first : Nat) : BitVec width := BitVec.ofNat width 1 <<< (interruptId.val - first)

namespace Chipset

def reset : Chipset := ⟨0, 0, 0⟩

def enableInterrupt (chipset : Chipset) (interruptId : InterruptID) : Chipset :=
  if interruptId.val ≤ 13 then
    { chipset with intena := writeMask chipset.intena (interruptBit 16 interruptId 0 ||| kMasterInterrupts) }
  else if interruptId.val ≤ 18 then
    { chipset with
      ciaAICR := writeMask chipset.ciaAICR (interruptBit 8 interruptId 14 ||| kInterruptRequest)
      intena := writeMask chipset.intena kMasterInterrupts }
  else
    { chipset with
      ciaBICR := writeMask chipset.ciaBICR (interruptBit 8 interruptId 19 ||| kInterruptRequest)
      intena := writeMask chipset.intena kMasterInterrupts }

def disableInterrupt (chipset : Chipset) (interruptId : InterruptID) : Chipset :=
  if interruptId.val ≤ 13 then { chipset with intena := writeMask chipset.intena (interruptBit 16 interruptId 0) }
  else if interruptId.val ≤ 18 then { chipset with ciaAICR := writeMask chipset.ciaAICR (interruptBit 8 interruptId 14) }
  else { chipset with ciaBICR := writeMask chipset.ciaBICR (interruptBit 8 interruptId 19) }

/-- Whether the bit of a source is set in its own mask. -/
def isUnmasked (chipset : Chipset) (interruptId : InterruptID) : Bool :=
  if interruptId.val ≤ 13 then chipset.intena.getLsbD interruptId.val
  else if interruptId.val ≤ 18 then chipset.ciaAICR.getLsbD (interruptId.val - 14)
  else chipset.ciaBICR.getLsbD (interruptId.val - 19)

/-- `INTB_INTEN`, the master switch. -/
def isMasterEnabled (chipset : Chipset) : Bool := chipset.intena.getLsbD 14

/-- An interrupt of a CIA arrives as one of the source that the CIA is connected to. -/
def carrier (interruptId : InterruptID) : Option InterruptID :=
  if interruptId.val ≤ 13 then none else if interruptId.val ≤ 18 then some kInterruptIDPorts else some kInterruptIDExtern

def isEnabled (chipset : Chipset) (interruptId : InterruptID) : Bool :=
  chipset.isMasterEnabled && chipset.isUnmasked interruptId && (carrier interruptId).all chipset.isUnmasked

theorem isUnmasked_of_isEnabled {chipset : Chipset} {interruptId : InterruptID} (enabled : chipset.isEnabled interruptId = true) :
    chipset.isUnmasked interruptId = true := by
  unfold isEnabled at enabled
  simp only [Bool.and_eq_true] at enabled
  exact enabled.1.2

theorem isUnmasked_reset (interruptId : InterruptID) : reset.isUnmasked interruptId = false := by
  revert interruptId
  decide

section Masks
variable {width : Nat} (mask : BitVec width) {value : BitVec width} {index : Nat}

theorem getLsbD_writeMask_set (sets : value.msb = true) :
    (writeMask mask value).getLsbD index = (mask.getLsbD index || value.getLsbD index) := by
  unfold writeMask
  rw [if_pos sets, BitVec.getLsbD_or]

theorem getLsbD_writeMask_clear (clears : value.msb = false) (bound : index < width) :
    (writeMask mask value).getLsbD index = (mask.getLsbD index && !value.getLsbD index) := by
  unfold writeMask
  rw [if_neg (by rw [clears]; decide), BitVec.getLsbD_and, BitVec.getLsbD_not, decide_eq_true bound, Bool.true_and]

end Masks

/-! The bits of the values that are written, for all interrupts. -/

theorem intenaBits (interruptId other : InterruptID) (first : interruptId.val ≤ 13) (second : other.val ≤ 13) :
    (interruptBit 16 interruptId 0).getLsbD other.val = (other == interruptId) ∧
      (interruptBit 16 interruptId 0).msb = false := by
  revert interruptId other
  decide

theorem ciaABits (interruptId other : InterruptID) (low : 13 < interruptId.val) (high : interruptId.val ≤ 18)
    (low' : 13 < other.val) (high' : other.val ≤ 18) :
    (interruptBit 8 interruptId 14).getLsbD (other.val - 14) = (other == interruptId) ∧
      (interruptBit 8 interruptId 14).msb = false ∧ kInterruptRequest.getLsbD (other.val - 14) = false := by
  revert interruptId other
  decide

theorem ciaBBits (interruptId other : InterruptID) (low : 18 < interruptId.val) (low' : 18 < other.val) :
    (interruptBit 8 interruptId 19).getLsbD (other.val - 19) = (other == interruptId) ∧
      (interruptBit 8 interruptId 19).msb = false ∧ kInterruptRequest.getLsbD (other.val - 19) = false := by
  revert interruptId other
  decide

theorem masterBits (other : InterruptID) :
    (other.val ≤ 13 → kMasterInterrupts.getLsbD other.val = (other == kInterruptIDExtern || other == kInterruptIDPorts)) ∧
      (13 < other.val → (other == kInterruptIDExtern || other == kInterruptIDPorts) = false) := by
  revert other
  decide

theorem msb_or_of_right {width : Nat} (value : BitVec width) {flag : BitVec width} (isSet : flag.msb = true) :
    (value ||| flag).msb = true := by
  rw [BitVec.msb_or, isSet, Bool.or_true]

theorem beq_of_range {interruptId other : InterruptID} (different : other.val ≠ interruptId.val) : (other == interruptId) = false :=
  beq_eq_false_iff_ne.mpr fun same => different (congrArg Fin.val same)

theorem isUnmasked_enableInterrupt (chipset : Chipset) (interruptId other : InterruptID) :
    (chipset.enableInterrupt interruptId).isUnmasked other =
      (chipset.isUnmasked other || (other == interruptId || (other == kInterruptIDExtern || other == kInterruptIDPorts))) := by
  have master : kMasterInterrupts.msb = true := by decide
  have request : kInterruptRequest.msb = true := by decide
  obtain ⟨masterLow, masterHigh⟩ := masterBits other
  unfold enableInterrupt isUnmasked
  by_cases low : other.val ≤ 13
  · rw [if_pos low, if_pos low, ← masterLow low]
    split_ifs with isLow isMiddle
    · rw [getLsbD_writeMask_set _ (msb_or_of_right _ master), BitVec.getLsbD_or, (intenaBits interruptId other isLow low).1]
    · rw [getLsbD_writeMask_set _ master, beq_of_range (by omega), Bool.false_or]
    · rw [getLsbD_writeMask_set _ master, beq_of_range (by omega), Bool.false_or]
  rw [if_neg low, if_neg low, masterHigh (by omega), Bool.or_false]
  by_cases middle : other.val ≤ 18
  · split_ifs with isLow isMiddle
    · rw [beq_of_range (by omega), Bool.or_false]
    · obtain ⟨bit, -, flag⟩ := ciaABits interruptId other (by omega) isMiddle (by omega) middle
      rw [getLsbD_writeMask_set _ (msb_or_of_right _ request), BitVec.getLsbD_or, bit, flag, Bool.or_false]
    · rw [beq_of_range (by omega), Bool.or_false]
  · split_ifs with isLow isMiddle
    · rw [beq_of_range (by omega), Bool.or_false]
    · rw [beq_of_range (by omega), Bool.or_false]
    · obtain ⟨bit, -, flag⟩ := ciaBBits interruptId other (by omega) (by omega)
      rw [getLsbD_writeMask_set _ (msb_or_of_right _ request), BitVec.getLsbD_or, bit, flag, Bool.or_false]

theorem isUnmasked_disableInterrupt (chipset : Chipset) (interruptId other : InterruptID) :
    (chipset.disableInterrupt interruptId).isUnmasked other = (chipset.isUnmasked other && !(other == interruptId)) := by
  unfold disableInterrupt isUnmasked
  by_cases low : other.val ≤ 13
  · rw [if_pos low, if_pos low]
    split_ifs with isLow isMiddle
    · obtain ⟨bit, clears⟩ := intenaBits interruptId other isLow low
      rw [getLsbD_writeMask_clear _ clears (by omega), bit]
    · rw [beq_of_range (by omega), Bool.not_false, Bool.and_true]
    · rw [beq_of_range (by omega), Bool.not_false, Bool.and_true]
  by_cases middle : other.val ≤ 18
  · split_ifs with isLow isMiddle
    · rw [beq_of_range (by omega), Bool.not_false, Bool.and_true]
    · obtain ⟨bit, clears, -⟩ := ciaABits interruptId other (by omega) isMiddle (by omega) middle
      rw [getLsbD_writeMask_clear _ clears (by omega), bit]
    · rw [beq_of_range (by omega), Bool.not_false, Bool.and_true]
  · split_ifs with isLow isMiddle
    · rw [beq_of_range (by omega), Bool.not_false, Bool.and_true]
    · rw [beq_of_range (by omega), Bool.not_false, Bool.and_true]
    · have bound : other.val < 24 := other.isLt
      obtain ⟨bit, clears, -⟩ := ciaBBits interruptId other (by omega) (by omega)
      rw [getLsbD_writeMask_clear _ clears (by omega), bit]

theorem isMasterEnabled_enableInterrupt (chipset : Chipset) (interruptId : InterruptID) :
    (chipset.enableInterrupt interruptId).isMasterEnabled = true := by
  have master : kMasterInterrupts.msb = true ∧ kMasterInterrupts.getLsbD 14 = true := by decide
  unfold enableInterrupt isMasterEnabled
  split_ifs
  · rw [getLsbD_writeMask_set _ (msb_or_of_right _ master.1), BitVec.getLsbD_or, master.2, Bool.or_true, Bool.or_true]
  · rw [getLsbD_writeMask_set _ master.1, master.2, Bool.or_true]
  · rw [getLsbD_writeMask_set _ master.1, master.2, Bool.or_true]

/-- The master switch stays on. -/
theorem isMasterEnabled_disableInterrupt (chipset : Chipset) (interruptId : InterruptID) :
    (chipset.disableInterrupt interruptId).isMasterEnabled = chipset.isMasterEnabled := by
  have bits : ∀ interruptId : InterruptID, interruptId.val ≤ 13 →
      (interruptBit 16 interruptId 0).getLsbD 14 = false ∧ (interruptBit 16 interruptId 0).msb = false := by decide
  unfold disableInterrupt isMasterEnabled
  split_ifs with low
  · obtain ⟨bit, clears⟩ := bits interruptId low
    rw [getLsbD_writeMask_clear _ clears (by omega), bit, Bool.not_false, Bool.and_true]
  · rfl
  · rfl

end Chipset

end Apollo.Driver
