import Mathlib.Data.List.TakeWhile
import Mathlib.Tactic.Common

/-!
# The line reader

`LineReader.c`.  A call is none when it leaves the line's capacity or follows a null pointer, and
the loop of `LineReader_ReadLine` also when it has not ended within its fuel.  What is printed is
left out, but not the bytes of the line that are read for it.  Allocations succeed.
-/

set_option autoImplicit false

namespace Apollo.Shell

def cString? (buffer : List UInt8) : Option (List UInt8) :=
  if 0 ∈ buffer then some (buffer.takeWhile (· ≠ 0)) else none

/-- `strncpy` into a buffer of at least `count` bytes. -/
def strncpy (buffer src : List UInt8) (count : Nat) : List UInt8 :=
  src.take count ++ List.replicate (count - src.length) 0 ++ buffer.drop count

structure LineReader where
  x : Nat
  maxX : Nat
  savedLine : Option (List UInt8)
  isDirty : Bool
  history : List (List UInt8)
  historyCapacity : Nat
  historyIndex : Int
  lineCapacity : Nat
  lineCount : Nat
  line : List UInt8
  deriving DecidableEq

namespace LineReader

/-- What `LineReader_Create` makes; there is at least one column. -/
def create (maxLineLength historyCapacity : Nat) : LineReader where
  x := 0
  maxX := maxLineLength - 1
  savedLine := none
  isDirty := false
  history := []
  historyCapacity := historyCapacity
  historyIndex := 0
  lineCapacity := maxLineLength + 1
  lineCount := 0
  line := List.replicate (maxLineLength + 1) 0

def store (idx : Nat) (ch : UInt8) (reader : LineReader) : Option LineReader :=
  if idx < reader.lineCapacity then some { reader with line := reader.line.set idx ch } else none

def printInputLine (reader : LineReader) : Option LineReader := do
  let reader ← reader.store reader.lineCount 0
  let _ ← cString? reader.line
  some reader

def onUserInput (reader : LineReader) : LineReader :=
  { reader with isDirty := true, historyIndex := reader.history.length }

def saveLineIfDirty (reader : LineReader) : Option LineReader :=
  if reader.isDirty then do
    let saved ← cString? reader.line
    some { reader with savedLine := some saved, isDirty := false }
  else some reader

def setLine (pNewLine : List UInt8) (reader : LineReader) : Option LineReader :=
  let lineCount := if pNewLine.length ≥ reader.lineCapacity then reader.lineCapacity - 2 else pNewLine.length
  let reader :=
    { reader with
      line := strncpy reader.line pNewLine (reader.lineCapacity - 1)
      lineCount := lineCount
      x := min lineCount reader.maxX }
  do
    let _ ← cString? reader.line
    some reader

/-- `LineReader_RemoveFromHistory`, from the entry at `idx` on.  The entry behind one that is
removed is not looked at.  The entries, the history index, and whether one was removed. -/
def removeFromHistory (pLine : List UInt8) : List (List UInt8) → Nat → Int → List (List UInt8) × Int × Bool
  | [], _, historyIndex => ([], historyIndex, false)
  | [entry], idx, historyIndex =>
    if pLine = entry then ([], if idx ≤ historyIndex then historyIndex - 1 else historyIndex, true)
    else ([entry], historyIndex, false)
  | entry :: next :: rest, idx, historyIndex =>
    if pLine = entry then
      let (rest, historyIndex, _) :=
        removeFromHistory pLine rest (idx + 1) (if idx ≤ historyIndex then historyIndex - 1 else historyIndex)
      (next :: rest, historyIndex, true)
    else
      let (rest, historyIndex, removed) := removeFromHistory pLine (next :: rest) (idx + 1) historyIndex
      (entry :: rest, historyIndex, removed)

def isSpace (ch : UInt8) : Bool := ch == 32 || (9 ≤ ch && ch ≤ 13)

def pushHistory (pLine : List UInt8) (reader : LineReader) : LineReader :=
  if reader.historyCapacity = 0 then reader
  else if pLine.all isSpace then reader
  else
    let (history, historyIndex, didPullUp) := removeFromHistory pLine reader.history 0 reader.historyIndex
    let history := (if history.length = reader.historyCapacity then history.tail else history) ++ [pLine]
    { reader with history := history, historyIndex := if didPullUp then (history.length : Int) - 1 else historyIndex }

def moveHistoryUp (reader : LineReader) : Option LineReader :=
  if reader.history.length = 0 ∨ reader.historyIndex < 1 then some reader
  else do
    let reader ← reader.saveLineIfDirty
    let entry ← reader.history[(reader.historyIndex - 1).toNat]?
    { reader with historyIndex := reader.historyIndex - 1 }.setLine entry

def moveHistoryDown (reader : LineReader) : Option LineReader :=
  if reader.history.length = 0 ∨ reader.historyIndex = reader.history.length then some reader
  else
    let reader := { reader with historyIndex := reader.historyIndex + 1 }
    if reader.historyIndex < reader.history.length then do
      let entry ← reader.history[reader.historyIndex.toNat]?
      reader.setLine entry
    else do
      let saved ← reader.savedLine
      let reader ← reader.setLine saved
      some { reader with savedLine := none }

def moveCursorLeft (reader : LineReader) : LineReader := { reader with x := reader.x - 1 }

def moveCursorRight (reader : LineReader) : LineReader :=
  if reader.x < reader.maxX then { reader with x := reader.x + 1 } else reader

def moveCursorToBeginningOfLine (reader : LineReader) : LineReader := { reader with x := 0 }

def moveCursorToEndOfLine (reader : LineReader) : LineReader := { reader with x := reader.lineCount }

def clearScreen (reader : LineReader) : Option LineReader := reader.printInputLine

def backspace (reader : LineReader) : LineReader :=
  if reader.x = 0 then reader else { reader with x := reader.x - 1 }.onUserInput

/-- `getchar`: nothing at the end of the input, now and later. -/
def getchar : List UInt8 → Option UInt8 × List UInt8
  | [] => (none, [])
  | ch :: rest => (some ch, rest)

def readEscapeSequence (input : List UInt8) (reader : LineReader) : Option (LineReader × List UInt8) :=
  let (_, input) := getchar input
  let (dir, input) := getchar input
  let reader := match dir with
    | some 65 => reader.moveHistoryUp
    | some 66 => reader.moveHistoryDown
    | some 67 => some reader.moveCursorRight
    | some 68 => some reader.moveCursorLeft
    | _ => some reader
  reader.map fun reader => (reader, input)

def acceptCharacter (ch : UInt8) (reader : LineReader) : Option LineReader := do
  let reader ← reader.store reader.x ch
  let reader := if reader.x < reader.maxX then
      { reader with x := reader.x + 1, lineCount := reader.lineCount + 1 }
    else reader
  some { reader with lineCount := min reader.lineCount (reader.maxX + 1) }.onUserInput

/-- One round of the loop of `LineReader_ReadLine`, for anything but a newline.  The end of the
input comes as `-1`, which as a character is `0xff`. -/
def accept (ch : Option UInt8) (input : List UInt8) (reader : LineReader) : Option (LineReader × List UInt8) :=
  match ch with
  | some 1 => some (reader.moveCursorToBeginningOfLine, input)
  | some 5 => some (reader.moveCursorToEndOfLine, input)
  | some 8 => some (reader.backspace, input)
  | some 12 => reader.clearScreen.map fun reader => (reader, input)
  | some 27 => reader.readEscapeSequence input
  | some ch => (reader.acceptCharacter ch).map fun reader => (reader, input)
  | none => (reader.acceptCharacter 0xff).map fun reader => (reader, input)

def readLineLoop : Nat → LineReader → List UInt8 → Option (LineReader × List UInt8)
  | 0, _, _ => none
  | fuel + 1, reader, input =>
    let (ch, input) := getchar input
    if ch = some 10 then some (reader, input)
    else (reader.accept ch input).bind fun (reader, input) => readLineLoop fuel reader input

/-- What `LineReader_ReadLine` sets before it reads. -/
def started (reader : LineReader) : LineReader :=
  { reader with
    line := reader.line.set 0 0
    lineCount := 0
    x := 0
    isDirty := false
    historyIndex := reader.history.length }

/-- `LineReader_ReadLine`: the string it returns, the reader and the rest of the input. -/
def readLine (fuel : Nat) (reader : LineReader) (input : List UInt8) : Option (List UInt8 × LineReader × List UInt8) := do
  let (reader, input) ← readLineLoop fuel reader.started input
  let reader ← reader.store reader.lineCount 0
  let text ← cString? reader.line
  some (text, reader.pushHistory text, input)

end LineReader
end Apollo.Shell
