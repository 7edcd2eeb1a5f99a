import Apollo.Lib.Code

/-!
# The lexer of the shell

`Lexer.c`.  The text is the bytes in front of its terminating NUL.  `sourceIndex`
may go anywhere, but reading behind the NUL is a fault.

The loops of the lexer carry a bound on the number of their rounds, which is
larger than the text; `OutOfFuel` would say that it was too small.  The text buffer
is taken to get its memory.  `output` is what `printf` has written.
-/

set_option autoImplicit false

namespace Apollo.Shell

open Lib

inductive TokenId
  | eof
  | character
  | unquotedString
  | singleQuotedString
  | doubleQuotedString
  | quotedCharacter
  | variableName
  | semicolon
  | newline
  | openingParenthesis
  | closingParenthesis
  | less
  | greater
  | bar
  | ampersand
  deriving DecidableEq

def TokenId.code : TokenId → Nat
  | .eof => 0
  | .character => 1
  | .unquotedString => 2
  | .singleQuotedString => 3
  | .doubleQuotedString => 4
  | .quotedCharacter => 5
  | .variableName => 6
  | .semicolon => 59
  | .newline => 10
  | .openingParenthesis => 40
  | .closingParenthesis => 41
  | .less => 60
  | .greater => 62
  | .bar => 124
  | .ampersand => 38

/-- The field `u` of a token. -/
inductive TokenValue
  | nothing
  | string (bytes : List UInt8)
  | character (ch : UInt8)

structure Token where
  id : TokenId
  u : TokenValue
  column : Nat
  line : Nat
  length : Nat
  hasTrailingWhitespace : Bool

structure Lexer where
  source : List UInt8
  sourceIndex : Nat
  textBuffer : List UInt8
  column : Nat
  line : Nat
  t : Token
  output : List String

inductive OutOfFuel
  | outOfFuel

abbrev Lexing (α : Type) : Type := Code Lexer OutOfFuel α

/-! ## Characters -/

def isalnum (ch : UInt8) : Bool := (48 ≤ ch && ch ≤ 57) || (65 ≤ ch && ch ≤ 90) || (97 ≤ ch && ch ≤ 122)

def isxdigit (ch : UInt8) : Bool := (48 ≤ ch && ch ≤ 57) || (65 ≤ ch && ch ≤ 70) || (97 ≤ ch && ch ≤ 102)

def isgraph (ch : UInt8) : Bool := 33 ≤ ch && ch ≤ 126

def isspace (ch : UInt8) : Bool := (9 ≤ ch && ch ≤ 13) || ch == 32

/-- The case labels of `Lexer_ConsumeToken`. -/
inductive Lead
  | nul
  | blank
  | hash
  | carriageReturn
  | newline
  | punctuation (id : TokenId)
  | dollar
  | singleQuote
  | doubleQuote
  | backslash
  | other
  deriving DecidableEq

def leadOf (ch : UInt8) : Lead :=
  if ch = 0 then .nul
  else if ch = 32 ∨ ch = 9 ∨ ch = 11 ∨ ch = 12 then .blank
  else if ch = 35 then .hash
  else if ch = 13 then .carriageReturn
  else if ch = 10 then .newline
  else if ch = 40 then .punctuation .openingParenthesis
  else if ch = 41 then .punctuation .closingParenthesis
  else if ch = 60 then .punctuation .less
  else if ch = 62 then .punctuation .greater
  else if ch = 124 then .punctuation .bar
  else if ch = 38 then .punctuation .ampersand
  else if ch = 59 then .punctuation .semicolon
  else if ch = 36 then .dollar
  else if ch = 39 then .singleQuote
  else if ch = 34 then .doubleQuote
  else if ch = 92 then .backslash
  else .other

/-- The characters `( ) | < > & # ; $`, both quotes and the backslash end a morpheme. -/
def isMorphemeChar (ch : UInt8) : Bool :=
  match leadOf ch with
  | .nul | .hash | .punctuation _ | .dollar | .singleQuote | .doubleQuote | .backslash => false
  | .blank | .carriageReturn | .newline | .other => isgraph ch

/-! ## Moves -/

/-- `self->source[self->sourceIndex + ahead]`. -/
def peek (ahead : Nat) : Lexing UInt8 := fun self =>
  if self.sourceIndex + ahead ≤ self.source.length then
    .ok (self.source.getD (self.sourceIndex + ahead) 0) self
  else .fault

def rounds : Lexing Nat := fun self => .ok (self.source.length + 2) self

/-- `sourceIndex++`. -/
def skip : Lexing Unit := Code.modify fun self => { self with sourceIndex := self.sourceIndex + 1 }

/-- `sourceIndex++` and `column++`. -/
def advance : Lexing Unit :=
  Code.modify fun self => { self with sourceIndex := self.sourceIndex + 1, column := self.column + 1 }

def startLine : Lexing Unit := Code.modify fun self => { self with column := 1, line := self.line + 1 }

def startColumn : Lexing Unit := Code.modify fun self => { self with column := 1 }

def clearTextBuffer : Lexing Unit := Code.modify fun self => { self with textBuffer := [] }

/-- `Lexer_AddCharToTextBuffer`.  The NUL behind the text is not part of the buffer here. -/
def addCharToTextBuffer (ch : UInt8) : Lexing Unit :=
  Code.modify fun self => { self with textBuffer := self.textBuffer ++ [ch] }

def printf (message : String) : Lexing Unit :=
  Code.modify fun self => { self with output := self.output ++ [message] }

/-- A loop that goes on while the character is one of a class, and may add it to the text buffer. -/
def scanWhile (stays : UInt8 → Bool) (adds : Bool) : Nat → Lexing Unit
  | 0 => Code.throw .outOfFuel
  | fuel + 1 => do
      let ch ← peek 0
      if stays ch then
        advance
        if adds then addCharToTextBuffer ch else pure ()
        scanWhile stays adds fuel
      else pure ()

def scanVariableName : Lexing Unit := do
  clearTextBuffer
  let fuel ← rounds
  scanWhile (fun ch => !(ch == 0 || (!isalnum ch && ch != 95))) true fuel

def scanMorpheme : Lexing Unit := do
  clearTextBuffer
  let fuel ← rounds
  scanWhile isMorphemeChar true fuel

def skipWhitespace : Lexing Unit := do
  let fuel ← rounds
  scanWhile (fun ch => !(ch != 32 && ch != 9 && ch != 11 && ch != 12)) false fuel

/-- The loop of `Lexer_ScanSingleQuotedString`. -/
def singleQuotedLoop : Nat → Lexing Unit
  | 0 => Code.throw .outOfFuel
  | fuel + 1 => do
      let ch ← peek 0
      if ch = 0 then printf "Error: unexpected end of string\n"
      else
        advance
        if ch = 39 then pure ()
        else
          addCharToTextBuffer ch
          singleQuotedLoop fuel

def scanSingleQuotedString : Lexing Unit := do
  clearTextBuffer
  let fuel ← rounds
  singleQuotedLoop fuel

/-- The loop of `Lexer_ScanOctalEscapeSequence`, with the value so far. -/
def octalLoop : Nat → Nat → Lexing Nat
  | 0, val => pure val
  | count + 1, val => do
      let ch ← peek 0
      if ch < 48 ∨ 55 < ch then pure val
      else
        advance
        octalLoop count (val * 8 + (ch.toNat - 48))

def scanOctalEscapeSequence : Lexing Unit := do
  let val ← octalLoop 3 0
  addCharToTextBuffer (UInt8.ofNat val)

/-- The value of a digit in `Lexer_ScanHexByteEscapeSequence`. -/
def hexDigit (ch : UInt8) : Nat :=
  if 97 ≤ ch then ch.toNat - 97 else if 65 ≤ ch then ch.toNat - 65 else ch.toNat - 48

/-- The loop of `Lexer_ScanHexByteEscapeSequence`, with the value so far. -/
def hexLoop : Nat → Nat → Lexing Nat
  | 0, val => pure val
  | count + 1, val => do
      let ch ← peek 0
      if isxdigit ch then
        advance
        hexLoop count (val * 16 + hexDigit ch)
      else pure val

def scanHexByteEscapeSequence : Lexing Unit := do
  let val ← hexLoop 2 0
  addCharToTextBuffer (UInt8.ofNat val)

/-- What `Lexer_ScanEscapeSequence` does with a character. -/
inductive Escape
  | plain (ch : UInt8)
  | octal
  | hex
  | nul
  | carriageReturn
  | newline
  | unexpected
  deriving DecidableEq

def escapeOf (ch : UInt8) : Escape :=
  if ch = 97 then .plain 0x07
  else if ch = 98 then .plain 0x08
  else if ch = 101 then .plain 0x1b
  else if ch = 102 then .plain 0x0c
  else if ch = 114 then .plain 0x0d
  else if ch = 118 then .plain 0x0b
  else if ch = 36 ∨ ch = 34 ∨ ch = 39 ∨ ch = 92 then .plain ch
  else if 48 ≤ ch ∧ ch ≤ 55 then .octal
  else if ch = 120 ∨ ch = 88 then .hex
  else if ch = 0 then .nul
  else if ch = 13 then .carriageReturn
  else if ch = 10 then .newline
  else .unexpected

def scanEscapeSequence : Lexing Unit := do
  let ch ← peek 0
  match escapeOf ch with
  | .plain ch =>
    skip
    addCharToTextBuffer ch
  | .octal => scanOctalEscapeSequence
  | .hex =>
    advance
    scanHexByteEscapeSequence
  | .nul => printf "Error: incomplete escape sequence\n"
  | .carriageReturn =>
    let next ← peek 1
    if next ≠ 10 then
      skip
      addCharToTextBuffer ch
    else
      skip
      startLine
      skip
      addCharToTextBuffer 10
  | .newline =>
    startLine
    skip
    addCharToTextBuffer 10
  | .unexpected =>
    printf "Error: unexpected escape sequence (ignored)\n"
    advance

/-- The loop of `Lexer_ScanDoubleQuotedString`. -/
def doubleQuotedLoop : Nat → Lexing Unit
  | 0 => Code.throw .outOfFuel
  | fuel + 1 => do
      let ch ← peek 0
      if ch = 0 then printf "Error: unexpected end of string\n"
      else
        advance
        if ch = 34 then pure ()
        else if ch = 92 then
          scanEscapeSequence
          doubleQuotedLoop fuel
        else
          addCharToTextBuffer ch
          doubleQuotedLoop fuel

def scanDoubleQuotedString : Lexing Unit := do
  clearTextBuffer
  let fuel ← rounds
  doubleQuotedLoop fuel

def scanQuotedCharacter : Lexing Unit := do
  let ch ← peek 0
  if ch = 0 then printf "Error: incomplete escape sequence\n"
  else if ch = 13 then
    let next ← peek 1
    if next ≠ 10 then
      skip
      addCharToTextBuffer ch
    else
      skip
      startLine
      skip
      addCharToTextBuffer ch
  else if ch = 10 then
    startLine
    skip
    addCharToTextBuffer ch
  else
    skip
    addCharToTextBuffer ch

/-- The loop of `Lexer_SkipEndOfLineComment`. -/
def commentLoop : Nat → Lexing Unit
  | 0 => Code.throw .outOfFuel
  | fuel + 1 => do
      let ch ← peek 0
      if ch = 10 then pure ()
      else if ch = 13 then
        let next ← peek 1
        if next = 10 then pure ()
        else
          advance
          commentLoop fuel
      else
        advance
        commentLoop fuel

def skipEndOfLineComment : Lexing Unit := do
  let fuel ← rounds
  commentLoop fuel

def hasTrailingWhitespace : Lexing Bool := do
  let ch ← peek 0
  pure (ch == 0 || isspace ch)

/-! ## Tokens -/

/-- The token `id` ends here. -/
def endToken (id : TokenId) (u : TokenValue) (length : Nat) : Lexing Unit := do
  let trailing ← hasTrailingWhitespace
  Code.modify fun self => { self with t := { self.t with id := id, u := u, length := length, hasTrailingWhitespace := trailing } }

def endTextToken (id : TokenId) : Lexing Unit := do
  let self ← Code.get
  endToken id (.string self.textBuffer) self.textBuffer.length

def endLine (length : Nat) : Lexing Unit := do
  skip
  startLine
  endToken .newline .nothing length

def consumeLoop : Nat → Lexing Unit
  | 0 => Code.throw .outOfFuel
  | fuel + 1 => do
      let ch ← peek 0
      match leadOf ch with
      | .nul => Code.modify fun self => { self with t := { self.t with id := .eof, hasTrailingWhitespace := true } }
      | .blank =>
        skipWhitespace
        consumeLoop fuel
      | .hash =>
        skipEndOfLineComment
        consumeLoop fuel
      | .carriageReturn =>
        skip
        startColumn
        let next ← peek 1
        if next ≠ 10 then consumeLoop fuel else endLine 2
      | .newline => endLine 1
      | .punctuation id =>
        advance
        endToken id .nothing 0
      | .dollar =>
        advance
        scanVariableName
        endTextToken .variableName
      | .singleQuote =>
        advance
        scanSingleQuotedString
        endTextToken .singleQuotedString
      | .doubleQuote =>
        advance
        scanDoubleQuotedString
        endTextToken .doubleQuotedString
      | .backslash =>
        advance
        clearTextBuffer
        scanQuotedCharacter
        let self ← Code.get
        if self.textBuffer = [10] then consumeLoop fuel else endTextToken .quotedCharacter
      | .other =>
        if isMorphemeChar ch then
          scanMorpheme
          endTextToken .unquotedString
        else
          advance
          endToken .character (.character ch) 1

def consumeToken : Lexing Unit := do
  Code.modify fun self => { self with
    t := { self.t with column := self.column, line := self.line, length := 0, u := .nothing } }
  let fuel ← rounds
  consumeLoop fuel

def setInput (source : List UInt8) : Lexing Unit := do
  Code.modify fun self => { self with source := source, sourceIndex := 0 }
  consumeToken

end Apollo.Shell
