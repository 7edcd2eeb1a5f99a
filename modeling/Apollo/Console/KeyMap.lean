import Apollo.Lib.BackPatching

/-!
# Key maps

`KeyMap_Map` of `KeyMap.c`.  A key map is the bytes of its image, which are read
big-endian; the result is `none` where a byte behind the image is read.
-/

set_option autoImplicit false

namespace Apollo.Console

open Lib

/-! Modifier flags. -/

def kHIDEventModifierFlagShift : UInt32 := 1

def kHIDEventModifierFlagOption : UInt32 := 2

def kHIDEventModifierFlagControl : UInt32 := 4

def kHIDEventModifierFlagCapsLock : UInt32 := 16

def keyA : Nat := 0x04

def keyZ : Nat := 0x1d

def keyMapRangeType0 : Nat := 0

def keyMapRangeType3 : Nat := 3

/-- `HIDEventData_KeyUpDown`; a key code has 16 bits. -/
structure KeyEvent where
  flags : UInt32
  keyCode : Nat
  deriving DecidableEq

structure KeyMapRange where
  type : Nat
  lower : Nat
  upper : Nat
  traps : Nat
  deriving DecidableEq

def readRange (image : List UInt8) (offset : Nat) : Option KeyMapRange := do
  let type ← read16 image offset
  let lower ← read16 image (offset + 2)
  let upper ← read16 image (offset + 4)
  let traps ← read16 image (offset + 6)
  pure ⟨type, lower, upper, traps⟩

def hasFlag (flags flag : UInt32) : Bool := flags &&& flag != 0

def effectiveFlags (event : KeyEvent) : UInt32 :=
  if hasFlag event.flags kHIDEventModifierFlagCapsLock ∧ keyA ≤ event.keyCode ∧ event.keyCode ≤ keyZ then
    if hasFlag event.flags kHIDEventModifierFlagShift then event.flags &&& ~~~kHIDEventModifierFlagShift
    else event.flags ||| kHIDEventModifierFlagShift
  else event.flags

def mapType0 (image : List UInt8) (range : KeyMapRange) (event : KeyEvent) : Option (List UInt8) := do
  let evtFlags := effectiveFlags event
  let trap := range.traps + 4 * (event.keyCode - range.lower)
  let modifierIdx := evtFlags &&& (kHIDEventModifierFlagShift ||| kHIDEventModifierFlagOption)
  let selected ← image[trap + modifierIdx.toNat]?
  let ch ← if selected = 0 then image[trap]? else some selected
  pure [if hasFlag evtFlags kHIDEventModifierFlagControl then ch &&& 0x1f else ch]

/-- The loop of `KeyMapRange_Type3_Map`, which reads one byte more than it copies. -/
def copyTrapString (image : List UInt8) (offset : Nat) : Nat → Option (List UInt8)
  | 0 => do
      let _ ← image[offset]?
      pure []
  | maxOutChars + 1 => do
      let ch ← image[offset]?
      if ch = 0 then pure []
      else
        let rest ← copyTrapString image (offset + 1) maxOutChars
        pure (ch :: rest)

def mapType3 (image : List UInt8) (range : KeyMapRange) (event : KeyEvent) (maxOutChars : Nat) : Option (List UInt8) := do
  let targetTrapOffset ← read16 image (range.traps + 2 * (event.keyCode - range.lower))
  copyTrapString image targetTrapOffset maxOutChars

/-- The loop of `KeyMap_Map` over `count` ranges from `index` on. -/
def mapRanges (image : List UInt8) (event : KeyEvent) (maxOutBytes index : Nat) : Nat → Option (List UInt8)
  | 0 => some []
  | count + 1 => do
      let rangeOffset ← read16 image (6 + 2 * index)
      let range ← readRange image rangeOffset
      if range.lower ≤ event.keyCode ∧ event.keyCode ≤ range.upper then
        if range.type = keyMapRangeType0 then mapType0 image range event
        else if range.type = keyMapRangeType3 then mapType3 image range event maxOutBytes
        else some []
      else mapRanges image event maxOutBytes (index + 1) count

/-- `KeyMap_Map`: the bytes that are stored. -/
def keyMapMap (image : List UInt8) (event : KeyEvent) (maxOutBytes : Nat) : Option (List UInt8) :=
  if 0 < maxOutBytes then do
    let rangeCount ← read16 image 4
    mapRanges image event maxOutBytes 0 rangeCount
  else some []

end Apollo.Console
