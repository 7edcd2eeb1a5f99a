import Mathlib.Tactic.Common

/-!
# Modifier flags

`EventDriver_ReportKeyboardDeviceChange` keeps a bit for each key and flags for the
modifier keys: one for each kind of modifier, and one for each of its keys.  A release
clears the flag of the kind, also when the other key of the kind is still down.
-/

set_option autoImplicit false

namespace Apollo.Driver

def gUSBHIDKeyFlags : List UInt8 :=
  [
    0x40, 0x40, 0x40, 0x40, 0x00, 0x00, 0x00, 0x00, 0x00, 0x00, 0x00, 0x00, 0x00, 0x00, 0x00, 0x00,
    0x00, 0x00, 0x00, 0x00, 0x00, 0x00, 0x00, 0x00, 0x00, 0x00, 0x00, 0x00, 0x00, 0x00, 0x00, 0x00,
    0x00, 0x00, 0x00, 0x00, 0x00, 0x00, 0x00, 0x00, 0x40, 0x40, 0x40, 0x40, 0x00, 0x00, 0x00, 0x00,
    0x00, 0x00, 0x00, 0x00, 0x00, 0x00, 0x00, 0x00, 0x00, 0x50, 0x40, 0x40, 0x40, 0x40, 0x40, 0x40,
    0x40, 0x40, 0x40, 0x40, 0x40, 0x40, 0x40, 0x40, 0x40, 0x40, 0x40, 0x40, 0x40, 0x40, 0x40, 0x40,
    0x40, 0x40, 0x40, 0x60, 0x20, 0x20, 0x20, 0x20, 0x60, 0x20, 0x20, 0x20, 0x20, 0x20, 0x20, 0x20,
    0x20, 0x20, 0x20, 0x20, 0x00, 0x40, 0x40, 0x20, 0x40, 0x40, 0x40, 0x40, 0x40, 0x40, 0x40, 0x40,
    0x40, 0x40, 0x40, 0x40, 0x40, 0x40, 0x40, 0x40, 0x40, 0x40, 0x40, 0x40, 0x40, 0x40, 0x40, 0x40,
    0x40, 0x40, 0x40, 0x40, 0x40, 0x20, 0x20, 0x40, 0x40, 0x40, 0x40, 0x40, 0x20, 0x40, 0x40, 0x40,
    0x40, 0x40, 0x40, 0x40, 0x40, 0x40, 0x40, 0x40, 0x40, 0x40, 0x40, 0x40, 0x40, 0x40, 0x40, 0x40,
    0x40, 0x40, 0x40, 0x40, 0x40, 0x00, 0x00, 0x00, 0x00, 0x00, 0x00, 0x00, 0x00, 0x00, 0x00, 0x00,
    0x20, 0x20, 0x20, 0x20, 0x20, 0x20, 0x20, 0x20, 0x20, 0x20, 0x60, 0x60, 0x20, 0x20, 0x20, 0x20,
    0x20, 0x20, 0x60, 0x20, 0x20, 0x20, 0x20, 0x20, 0x20, 0x20, 0x20, 0x20, 0x20, 0x20, 0x20, 0x20,
    0x60, 0x60, 0x60, 0x60, 0x60, 0x60, 0x60, 0x60, 0x60, 0x60, 0x60, 0x60, 0x60, 0x60, 0x00, 0x00,
    0x04, 0x01, 0x02, 0x08, 0x84, 0x81, 0x82, 0x88, 0x40, 0x40, 0x40, 0x40, 0x40, 0x40, 0x40, 0x40,
    0x40, 0x40, 0x40, 0x40, 0x40, 0x40, 0x40, 0x40, 0x40, 0x40, 0x40, 0x40, 0x00, 0x00, 0x00, 0x00]

inductive HIDKeyState
  | down
  | repeat
  | up
  deriving DecidableEq

inductive HIDEventType
  | keyDown
  | keyUp
  | flagsChanged
  deriving DecidableEq

structure HIDKeyEvent where
  type : HIDEventType
  flags : BitVec 32
  keyCode : Fin 256
  isRepeat : Bool
  deriving DecidableEq

structure EventDriver where
  keyMap : Fin 8 → BitVec 32
  modifierFlags : BitVec 32

def keyFlags (keyCode : Fin 256) : UInt8 := gUSBHIDKeyFlags.getD keyCode.val 0

def logModFlags (keyCode : Fin 256) : BitVec 32 := BitVec.ofNat 32 (keyFlags keyCode &&& 0x1f).toNat

def devModFlags (keyCode : Fin 256) : BitVec 32 :=
  if keyFlags keyCode &&& 0x80 ≠ 0 then logModFlags keyCode <<< 16 else logModFlags keyCode <<< 24

def keyFunc (keyCode : Fin 256) : BitVec 32 := BitVec.ofNat 32 (keyFlags keyCode &&& 0x60).toNat

namespace EventDriver

def create : EventDriver := ⟨fun _ => 0, 0⟩

def wordIdx (keyCode : Fin 256) : Fin 8 := ⟨keyCode.val / 32, by omega⟩

def isKeyDown (driver : EventDriver) (keyCode : Fin 256) : Bool :=
  (driver.keyMap (wordIdx keyCode)).getLsbD (keyCode.val % 32)

def isSet (driver : EventDriver) (index : Nat) : Bool := driver.modifierFlags.getLsbD index

/-- `EventDriver_ReportKeyboardDeviceChange`, for the key codes that the key map has bits for. -/
def reportKeyboardDeviceChange (driver : EventDriver) (keyState : HIDKeyState) (keyCode : Fin 256) : EventDriver × HIDKeyEvent :=
  let bit : BitVec 32 := 1 <<< (keyCode.val % 32)
  let word := driver.keyMap (wordIdx keyCode)
  let keyMap := Function.update driver.keyMap (wordIdx keyCode) (if keyState = .up then word &&& ~~~bit else word ||| bit)
  let isModifierKey := logModFlags keyCode ≠ 0
  let modifierFlags :=
    if isModifierKey then
      if keyState = .up then driver.modifierFlags &&& ~~~logModFlags keyCode &&& ~~~devModFlags keyCode
      else driver.modifierFlags ||| logModFlags keyCode ||| devModFlags keyCode
    else driver.modifierFlags
  let type := if isModifierKey then .flagsChanged else if keyState = .up then .keyUp else .keyDown
  (⟨keyMap, modifierFlags⟩, ⟨type, modifierFlags ||| keyFunc keyCode, keyCode, false⟩)

end EventDriver

/-! ## Modifier keys -/

inductive Modifier
  | shift
  | option
  | control
  | command
  deriving DecidableEq

namespace Modifier

/-- The flag of the modifier.  That of its right key is 16 bits above it, and that of the left one 24. -/
def bit : Modifier → Nat
  | shift => 0
  | option => 1
  | control => 2
  | command => 3

def left : Modifier → Fin 256
  | shift => 0xe1
  | option => 0xe2
  | control => 0xe0
  | command => 0xe3

def right : Modifier → Fin 256
  | shift => 0xe5
  | option => 0xe6
  | control => 0xe4
  | command => 0xe7

end Modifier

def capsLock : Fin 256 := 0x39

def modifierBits (keyCode : Fin 256) : Option (Nat × Nat) :=
  if keyCode = capsLock then some (4, 28)
  else if keyCode = 0xe0 then some (2, 26)
  else if keyCode = 0xe1 then some (0, 24)
  else if keyCode = 0xe2 then some (1, 25)
  else if keyCode = 0xe3 then some (3, 27)
  else if keyCode = 0xe4 then some (2, 18)
  else if keyCode = 0xe5 then some (0, 16)
  else if keyCode = 0xe6 then some (1, 17)
  else if keyCode = 0xe7 then some (3, 19)
  else none

set_option maxRecDepth 4000 in
theorem modFlags_eq (keyCode : Fin 256) :
    logModFlags keyCode = (match modifierBits keyCode with | some bits => BitVec.twoPow 32 bits.1 | none => 0) ∧
      devModFlags keyCode = (match modifierBits keyCode with | some bits => BitVec.twoPow 32 bits.2 | none => 0) := by
  revert keyCode
  decide

theorem modifierBits_cases (keyCode : Fin 256) :
    modifierBits keyCode = none ∨ keyCode = capsLock ∨ ∃ modifier : Modifier, keyCode = modifier.left ∨ keyCode = modifier.right := by
  unfold modifierBits
  split_ifs with caps control shift option command control' shift' option' command'
  · exact .inr (.inl caps)
  · exact .inr (.inr ⟨.control, .inl control⟩)
  · exact .inr (.inr ⟨.shift, .inl shift⟩)
  · exact .inr (.inr ⟨.option, .inl option⟩)
  · exact .inr (.inr ⟨.command, .inl command⟩)
  · exact .inr (.inr ⟨.control, .inr control'⟩)
  · exact .inr (.inr ⟨.shift, .inr shift'⟩)
  · exact .inr (.inr ⟨.option, .inr option'⟩)
  · exact .inr (.inr ⟨.command, .inr command'⟩)
  · exact .inl rfl

namespace EventDriver

variable {driver : EventDriver} {keyState : HIDKeyState} {keyCode : Fin 256}

/-! ## One report -/

theorem isKeyDown_report (driver : EventDriver) (keyState : HIDKeyState) (keyCode other : Fin 256) :
    (driver.reportKeyboardDeviceChange keyState keyCode).1.isKeyDown other =
      if other = keyCode then decide (keyState ≠ .up) else driver.isKeyDown other := by
  have bit (index : Nat) (small : index < 32) :
      (1 <<< (keyCode.val % 32) : BitVec 32).getLsbD index = decide (index = keyCode.val % 32) := by
    change (BitVec.twoPow 32 (keyCode.val % 32)).getLsbD index = _
    rw [BitVec.getLsbD_twoPow, decide_eq_true (by omega : keyCode.val % 32 < 32), Bool.true_and]
    exact decide_eq_decide.mpr eq_comm
  have small : other.val % 32 < 32 := by omega
  unfold isKeyDown reportKeyboardDeviceChange
  dsimp only
  by_cases word : wordIdx other = wordIdx keyCode
  · have words : other.val / 32 = keyCode.val / 32 := congrArg Fin.val word
    have same : other = keyCode ↔ other.val % 32 = keyCode.val % 32 := by
      rw [Fin.ext_iff]
      omega
    rw [word, Function.update_self]
    by_cases released : keyState = .up
    · rw [if_pos released, BitVec.getLsbD_and, BitVec.getLsbD_not, bit _ small]
      by_cases here : other.val % 32 = keyCode.val % 32
      · simp [same.mpr here, released]
      · simp [here, small, mt same.mp here]
    · rw [if_neg released, BitVec.getLsbD_or, bit _ small]
      by_cases here : other.val % 32 = keyCode.val % 32
      · simp [same.mpr here, released]
      · simp [here, mt same.mp here]
  · have different : other ≠ keyCode := fun same => word (by rw [same])
    rw [Function.update_of_ne word, if_neg different]

theorem isSet_report (driver : EventDriver) (keyState : HIDKeyState) (keyCode : Fin 256) {index : Nat} (small : index < 32) :
    (driver.reportKeyboardDeviceChange keyState keyCode).1.isSet index =
      match modifierBits keyCode with
      | some (logical, device) =>
        if logical = index ∨ device = index then decide (keyState ≠ .up) else driver.isSet index
      | none => driver.isSet index := by
  have flags := modFlags_eq keyCode
  unfold isSet reportKeyboardDeviceChange
  dsimp only
  cases bits : modifierBits keyCode with
  | none =>
    rw [bits] at flags
    rw [if_neg (not_not.mpr flags.1)]
  | some pair =>
    obtain ⟨logical, device⟩ := pair
    rw [bits] at flags
    obtain ⟨logicalFlags, deviceFlags⟩ := flags
    have positions : logical < 32 ∧ device < 32 := by
      unfold modifierBits at bits
      split_ifs at bits <;> cases bits <;> decide
    have nonzero : logModFlags keyCode ≠ 0 := by
      intro zero
      have one := congrArg (BitVec.getLsbD · logical) (logicalFlags.symm.trans zero)
      simp [positions.1] at one
    rw [if_pos nonzero, logicalFlags, deviceFlags]
    have apart (other : ¬(logical = index ∨ device = index)) : index ≠ logical ∧ index ≠ device :=
      ⟨fun same => other (.inl same.symm), fun same => other (.inr same.symm)⟩
    by_cases released : keyState = .up
    · rw [if_pos released]
      by_cases touched : logical = index ∨ device = index
      · rcases touched with rfl | rfl <;> simp [small, released]
      · simp [small, touched, apart touched]
    · rw [if_neg released]
      by_cases touched : logical = index ∨ device = index
      · rcases touched with rfl | rfl <;> simp [small, released]
      · simp [small, touched, apart touched]

/-! ## Flags and keys -/

structure Mirrors (driver : EventDriver) : Prop where
  logical : ∀ modifier : Modifier,
    driver.isSet modifier.bit = (driver.isKeyDown modifier.left || driver.isKeyDown modifier.right)
  left : ∀ modifier : Modifier, driver.isSet (modifier.bit + 24) = driver.isKeyDown modifier.left
  right : ∀ modifier : Modifier, driver.isSet (modifier.bit + 16) = driver.isKeyDown modifier.right
  lock : driver.isSet 4 = driver.isKeyDown capsLock
  lockKey : driver.isSet 28 = driver.isKeyDown capsLock

def Crosses (driver : EventDriver) (keyState : HIDKeyState) (keyCode : Fin 256) : Prop :=
  keyState = .up ∧ ∃ modifier : Modifier,
    keyCode = modifier.left ∧ driver.isKeyDown modifier.right = true ∨
      keyCode = modifier.right ∧ driver.isKeyDown modifier.left = true

theorem mirrors_create : create.Mirrors := by
  constructor
  case lock | lockKey => rfl
  all_goals
    intro modifier
    cases modifier <;> rfl

theorem forall_modifier {P : Modifier → Prop} :
    (∀ modifier, P modifier) ↔ P .shift ∧ P .option ∧ P .control ∧ P .command :=
  ⟨fun all => ⟨all _, all _, all _, all _⟩, fun ⟨_, _, _, _⟩ modifier => by cases modifier <;> assumption⟩

theorem mirrors_iff : driver.Mirrors ↔
    (∀ modifier : Modifier,
      driver.isSet modifier.bit = (driver.isKeyDown modifier.left || driver.isKeyDown modifier.right) ∧
        driver.isSet (modifier.bit + 24) = driver.isKeyDown modifier.left ∧
          driver.isSet (modifier.bit + 16) = driver.isKeyDown modifier.right) ∧
      driver.isSet 4 = driver.isKeyDown capsLock ∧ driver.isSet 28 = driver.isKeyDown capsLock :=
  ⟨fun mirrors => ⟨fun _ => ⟨mirrors.logical _, mirrors.left _, mirrors.right _⟩, mirrors.lock, mirrors.lockKey⟩,
    fun ⟨kinds, lock, lockKey⟩ => ⟨fun _ => (kinds _).1, fun _ => (kinds _).2.1, fun _ => (kinds _).2.2, lock, lockKey⟩⟩

/-- A key without modifier flags changes nothing that the flags are about. -/
theorem Mirrors.report_other (mirrors : driver.Mirrors) (other : modifierBits keyCode = none) :
    (driver.reportKeyboardDeviceChange keyState keyCode).1.Mirrors ∧ ¬driver.Crosses keyState keyCode := by
  have apart (key : Fin 256) (isModifier : modifierBits key ≠ none) : key ≠ keyCode := fun same => isModifier (same ▸ other)
  have keyLeft (modifier : Modifier) : modifier.left ≠ keyCode := apart _ (by cases modifier <;> decide)
  have keyRight (modifier : Modifier) : modifier.right ≠ keyCode := apart _ (by cases modifier <;> decide)
  have lock : capsLock ≠ keyCode := apart _ (by decide)
  have flags {index : Nat} (small : index < 32) :
      (driver.reportKeyboardDeviceChange keyState keyCode).1.isSet index = driver.isSet index := by
    rw [isSet_report _ _ _ small, other]
  constructor
  · rw [mirrors_iff] at mirrors ⊢
    simp only [isKeyDown_report, keyLeft, keyRight, lock, if_false]
    refine ⟨fun modifier => ?_, ?_, ?_⟩
    · rw [flags (by cases modifier <;> decide), flags (by cases modifier <;> decide), flags (by cases modifier <;> decide)]
      exact mirrors.1 modifier
    · rw [flags (by decide)]
      exact mirrors.2.1
    · rw [flags (by decide)]
      exact mirrors.2.2
  · rintro ⟨-, modifier, ⟨same, -⟩ | ⟨same, -⟩⟩
    · exact keyLeft modifier same.symm
    · exact keyRight modifier same.symm

theorem crosses_left (modifier : Modifier) :
    driver.Crosses keyState modifier.left ↔ keyState = .up ∧ driver.isKeyDown modifier.right = true := by
  refine and_congr_right fun _ => ⟨?_, fun down => ⟨modifier, .inl ⟨rfl, down⟩⟩⟩
  rintro ⟨kind, ⟨same, down⟩ | ⟨same, down⟩⟩
  · have kinds : modifier = kind := by cases modifier <;> cases kind <;> first | rfl | exact absurd same (by decide)
    rwa [kinds]
  · exact absurd same (by cases modifier <;> cases kind <;> decide)

theorem crosses_right (modifier : Modifier) :
    driver.Crosses keyState modifier.right ↔ keyState = .up ∧ driver.isKeyDown modifier.left = true := by
  refine and_congr_right fun _ => ⟨?_, fun down => ⟨modifier, .inr ⟨rfl, down⟩⟩⟩
  rintro ⟨kind, ⟨same, down⟩ | ⟨same, down⟩⟩
  · exact absurd same (by cases modifier <;> cases kind <;> decide)
  · have kinds : modifier = kind := by cases modifier <;> cases kind <;> first | rfl | exact absurd same (by decide)
    rwa [kinds]

theorem not_crosses_capsLock : ¬driver.Crosses keyState capsLock := by
  rintro ⟨-, modifier, ⟨same, -⟩ | ⟨same, -⟩⟩ <;> cases modifier <;> exact absurd same (by decide)

/-- After a report the flags mirror the keys unless it crosses the other key of a modifier. -/
theorem Mirrors.report_iff (mirrors : driver.Mirrors) (keyState : HIDKeyState) (keyCode : Fin 256) :
    (driver.reportKeyboardDeviceChange keyState keyCode).1.Mirrors ↔ ¬driver.Crosses keyState keyCode := by
  rcases modifierBits_cases keyCode with other | rfl | ⟨modifier, rfl | rfl⟩
  · have kept : (driver.reportKeyboardDeviceChange keyState keyCode).1.Mirrors ∧ ¬driver.Crosses keyState keyCode :=
      mirrors.report_other other
    exact iff_of_true kept.1 kept.2
  · refine iff_of_true ?_ not_crosses_capsLock
    rw [mirrors_iff, forall_modifier] at mirrors ⊢
    simp only [Modifier.bit, Modifier.left, Modifier.right, Nat.zero_add, Nat.reduceAdd] at mirrors ⊢
    have bits : modifierBits capsLock = some (4, 28) := rfl
    simp (disch := decide) only [isSet_report, isKeyDown_report, bits]
    simp [mirrors, capsLock]
  · have bits : modifierBits modifier.left = some (modifier.bit, modifier.bit + 24) := by cases modifier <;> rfl
    rw [crosses_left]
    rw [mirrors_iff, forall_modifier] at mirrors ⊢
    cases modifier
    all_goals
      simp only [Modifier.bit, Modifier.left, Modifier.right, Nat.zero_add, Nat.reduceAdd] at bits mirrors ⊢
      simp (disch := decide) only [isSet_report, isKeyDown_report, bits]
      simp [mirrors, capsLock]
      grind
  · have bits : modifierBits modifier.right = some (modifier.bit, modifier.bit + 16) := by cases modifier <;> rfl
    rw [crosses_right]
    rw [mirrors_iff, forall_modifier] at mirrors ⊢
    cases modifier
    all_goals
      simp only [Modifier.bit, Modifier.left, Modifier.right, Nat.zero_add, Nat.reduceAdd] at bits mirrors ⊢
      simp (disch := decide) only [isSet_report, isKeyDown_report, bits]
      simp [mirrors, capsLock]
      grind

/-! ## Runs -/

def MirrorsAll : List (HIDKeyState × Fin 256) → EventDriver → Prop
  | [], _ => True
  | (keyState, keyCode) :: rest, driver =>
    let (after, event) := driver.reportKeyboardDeviceChange keyState keyCode
    after.Mirrors ∧ event.flags = after.modifierFlags ||| keyFunc keyCode ∧ MirrorsAll rest after

def CrossesNone : List (HIDKeyState × Fin 256) → EventDriver → Prop
  | [], _ => True
  | (keyState, keyCode) :: rest, driver =>
    ¬driver.Crosses keyState keyCode ∧ CrossesNone rest (driver.reportKeyboardDeviceChange keyState keyCode).1

theorem Mirrors.all_iff (mirrors : driver.Mirrors) (reports : List (HIDKeyState × Fin 256)) :
    MirrorsAll reports driver ↔ CrossesNone reports driver := by
  induction reports generalizing driver with
  | nil => exact Iff.rfl
  | cons report rest ih =>
    obtain ⟨keyState, keyCode⟩ := report
    constructor
    · rintro ⟨here, -, later⟩
      exact ⟨(mirrors.report_iff keyState keyCode).mp here, (ih here).mp later⟩
    · rintro ⟨clear, later⟩
      have here := (mirrors.report_iff keyState keyCode).mpr clear
      exact ⟨here, rfl, (ih here).mpr later⟩

/-- The flags mirror the keys in every run in which no modifier key is released while the other one of its kind is down. -/
theorem mirrorsAll_iff (reports : List (HIDKeyState × Fin 256)) : MirrorsAll reports create ↔ CrossesNone reports create :=
  mirrors_create.all_iff reports

/-- Both shift keys are down, and the left one is released. -/
theorem shiftKeys_lost : ¬MirrorsAll [(.down, 0xe1), (.down, 0xe5), (.up, 0xe1)] create := by
  rintro ⟨-, -, -, -, released, -⟩
  exact absurd (released.logical .shift) (by decide)

end EventDriver

end Apollo.Driver
