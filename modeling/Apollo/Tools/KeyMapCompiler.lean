import Apollo.Lib.BackPatching
import Apollo.Lib.Code
import Mathlib.Data.List.Sort

/-!
# The key map compiler

`keymap.c` from its key statements on.  The bytes of a compiled key map are those
that were written so far, and a write behind the end of the memory that is allocated
for them is a fault.
-/

set_option autoImplicit false

namespace Apollo.Tools

open Lib

def kKeyMapMaxByteSequenceLength : Nat := 16

/-- What a key is mapped to: a `key` statement with four characters or with a string. -/
inductive KeyMeaning
  | bytes (unmodified shift option shiftOption : UInt8)
  | string (text : List UInt8)
  deriving DecidableEq

structure KeyStatement where
  keyCode : Nat
  meaning : KeyMeaning
  deriving DecidableEq

inductive KeyType
  | fourBytes
  | string
  deriving DecidableEq

/-- `kKeyType_4Bytes` and `kKeyType_String`. -/
def KeyType.code : KeyType → Nat
  | fourBytes => 0
  | string => 3

inductive KeyTrap
  | fourBytes (unmodified shift option shiftOption : UInt8)
  | string (stringIdx : Nat)
  deriving DecidableEq

structure Key where
  keyCode : Nat
  trap : KeyTrap
  deriving DecidableEq

def Key.type (key : Key) : KeyType :=
  match key.trap with
  | .fourBytes .. => .fourBytes
  | .string _ => .string

structure KeyRange where
  keyType : KeyType
  lowerKeyIndex : Nat
  upperKeyIndex : Nat
  deriving DecidableEq

structure KeyMap where
  keys : List Key
  ranges : List KeyRange
  strings : List (List UInt8)
  deriving DecidableEq

/-! ## Statements -/

/-- `addAndUniqueString`: the table and the index of the string. -/
def addAndUniqueString (strings : List (List UInt8)) (text : List UInt8) : List (List UInt8) × Nat :=
  match strings.findIdx? (· == text) with
  | some index => (strings, index)
  | none => (strings ++ [text], strings.length)

/-- `parseKeyStatement`, behind its parsing. -/
def addKeyStatement (kmap : KeyMap) (statement : KeyStatement) : KeyMap :=
  match statement.meaning with
  | .bytes unmodified shift option shiftOption =>
    { kmap with keys := kmap.keys ++ [⟨statement.keyCode, .fourBytes unmodified shift option shiftOption⟩] }
  | .string text =>
    let (strings, stringIdx) := addAndUniqueString kmap.strings text
    { kmap with strings := strings, keys := kmap.keys ++ [⟨statement.keyCode, .string stringIdx⟩] }

def parseKeysFile (statements : List KeyStatement) : KeyMap := statements.foldl addKeyStatement ⟨[], [], []⟩

/-! ## Ranges -/

def startsRange (previous : Option Key) (key : Key) : Bool :=
  match previous with
  | none => true
  | some previous => decide ((key.keyCode : Int) - previous.keyCode > 1) || key.type != previous.type

def closeRange (upperKeyIndex : Nat) : List KeyRange → List KeyRange
  | [] => []
  | last :: rest => { last with upperKeyIndex := upperKeyIndex } :: rest

/-- The loop of `calculateKeyRanges` from a key on; the ranges are newest first. -/
def rangesLoop (index : Nat) (previous : Option Key) (ranges : List KeyRange) : List Key → List KeyRange
  | [] => ranges
  | key :: rest =>
    if startsRange previous key then
      rangesLoop (index + 1) (some key) (⟨key.type, index, index⟩ :: closeRange (index - 1) ranges) rest
    else rangesLoop (index + 1) (some key) ranges rest

def calculateKeyRanges (kmap : KeyMap) : KeyMap :=
  let keys := kmap.keys.mergeSort fun left right => decide (left.keyCode ≤ right.keyCode)
  { kmap with keys := keys, ranges := (closeRange (keys.length - 1) (rangesLoop 0 none [] keys)).reverse }

/-! ## Compiled key maps -/

inductive PatchLabel
  | range (index : Nat)
  | string (index : Nat)
  deriving DecidableEq

structure CompiledKeyMap where
  bytes : List UInt8
  capacity : Nat
  patchLocs : List (Nat × PatchLabel)
  deriving DecidableEq

inductive CompileError
  | tooBig
  deriving DecidableEq

abbrev Compile (α : Type) : Type := Code CompiledKeyMap CompileError α

def getLocationCounter : Compile Nat := do
  let ckmap ← Code.get
  pure (ckmap.bytes.length % 65536)

def addPatchLocation (offset : Nat) (label : PatchLabel) : Compile Unit :=
  Code.modify fun ckmap => { ckmap with patchLocs := ckmap.patchLocs ++ [(offset, label)] }

/-- `patch16` of bytes that were written. -/
def patchWritten (offset value : Nat) : Compile Unit :=
  Code.modify fun ckmap => { ckmap with bytes := patch16 ckmap.bytes offset value }

def patchLabeled16 (label : PatchLabel) (value : Nat) : Compile Unit :=
  Code.modify fun ckmap =>
    { ckmap with
      bytes := (ckmap.patchLocs.filter (·.2 = label)).foldl (fun bytes slot => patch16 bytes slot.1 value) ckmap.bytes }

/-- `ensureCompiledKeyMapSize`: the memory only grows when it is full. -/
def ensureCompiledKeyMapSize (minCapacityIncrease : Nat) : Compile Unit := do
  let ckmap ← Code.get
  if ckmap.bytes.length > 65535 then Code.throw .tooBig
  else if ckmap.bytes.length = ckmap.capacity then
    let newCapacity := if ckmap.capacity > 0 then ckmap.capacity * 2 else 4096
    Code.modify fun ckmap => { ckmap with capacity := max newCapacity (minCapacityIncrease + ckmap.capacity) }
  else pure ()

def storeByte (byte : UInt8) : Compile Unit := do
  let ckmap ← Code.get
  if ckmap.bytes.length < ckmap.capacity then Code.modify fun ckmap => { ckmap with bytes := ckmap.bytes ++ [byte] }
  else Code.fault

def storeBytes : List UInt8 → Compile Unit
  | [] => pure ()
  | byte :: rest => do
      storeByte byte
      storeBytes rest

/-- `write16`; the result is the offset of the value. -/
def write16 (value : Nat) : Compile Nat := do
  ensureCompiledKeyMapSize 2
  let ckmap ← Code.get
  storeBytes (beBytes 2 value)
  pure ckmap.bytes.length

def write8 (byte : UInt8) : Compile Unit := do
  ensureCompiledKeyMapSize 1
  storeBytes [byte]

def writeString (text : List UInt8) : Compile Unit := do
  ensureCompiledKeyMapSize (text.length + 1)
  storeBytes (text ++ [0])

/-! ## Compiling -/

def keyAt (kmap : KeyMap) (index : Nat) : Compile Key :=
  match kmap.keys[index]? with
  | some key => pure key
  | none => Code.fault

def writeRangeSlots : Nat → Compile Unit
  | 0 => pure ()
  | count + 1 => do
      let _ ← write16 0
      writeRangeSlots count

def writeRanges (kmap : KeyMap) (offsetToFirstRangeOffset : Nat) : Nat → List KeyRange → Compile Unit
  | _, [] => pure ()
  | index, range :: rest => do
      let offsetToCurRange ← write16 range.keyType.code
      let lower ← keyAt kmap range.lowerKeyIndex
      let _ ← write16 lower.keyCode
      let upper ← keyAt kmap range.upperKeyIndex
      let _ ← write16 upper.keyCode
      let slot ← write16 0
      addPatchLocation slot (.range index)
      patchWritten (offsetToFirstRangeOffset + 2 * index) offsetToCurRange
      writeRanges kmap offsetToFirstRangeOffset (index + 1) rest

def writeTrap : KeyTrap → Compile Unit
  | .fourBytes unmodified shift option shiftOption => do
      write8 unmodified
      write8 shift
      write8 option
      write8 shiftOption
  | .string stringIdx => do
      let slot ← write16 0
      addPatchLocation slot (.string stringIdx)

/-- The traps of the keys from `index` up to `upper`, which are `count` keys. -/
def writeTraps (kmap : KeyMap) (index : Nat) : Nat → Compile Unit
  | 0 => pure ()
  | count + 1 => do
      let key ← keyAt kmap index
      writeTrap key.trap
      writeTraps kmap (index + 1) count

def writeTrapTables (kmap : KeyMap) : Nat → List KeyRange → Compile Unit
  | _, [] => pure ()
  | index, range :: rest => do
      let location ← getLocationCounter
      patchLabeled16 (.range index) location
      writeTraps kmap range.lowerKeyIndex (range.upperKeyIndex + 1 - range.lowerKeyIndex)
      writeTrapTables kmap (index + 1) rest

def writeStrings : Nat → List (List UInt8) → Compile Unit
  | _, [] => pure ()
  | index, text :: rest => do
      let offsetToString ← getLocationCounter
      writeString text
      patchLabeled16 (.string index) offsetToString
      writeStrings (index + 1) rest

def compileKeyMapType0 (kmap : KeyMap) : Compile Unit := do
  let _ ← write16 0
  let keyMapSizeOffset ← write16 0
  let _ ← write16 kmap.ranges.length
  if kmap.ranges.length > 0 then
    let offsetToFirstRangeOffset ← getLocationCounter
    writeRangeSlots kmap.ranges.length
    writeRanges kmap offsetToFirstRangeOffset 0 kmap.ranges
    writeTrapTables kmap 0 kmap.ranges
    writeStrings 0 kmap.strings
  let ckmap ← Code.get
  patchWritten keyMapSizeOffset ckmap.bytes.length

def compile (statements : List KeyStatement) : Outcome CompiledKeyMap CompileError Unit :=
  compileKeyMapType0 (calculateKeyRanges (parseKeysFile statements)) ⟨[], 0, []⟩

end Apollo.Tools
