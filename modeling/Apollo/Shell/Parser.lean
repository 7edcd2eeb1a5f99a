import Apollo.Shell.Lexer

/-!
# The parser of the shell

`Parser.c` with the parts of a script of `Script.c`, whose memory is taken to be
there.  A nested block is parsed by the rule for blocks again; the recursion
carries a bound like the loops do.
-/

set_option autoImplicit false

namespace Apollo.Shell

open Lib

inductive MorphemeType
  | unquotedString
  | singleQuotedString
  | doubleQuotedString
  | quotedCharacter
  | variableReference
  deriving DecidableEq

/-- A nested block has sentences, each of them words and a terminator, and a word has morphemes. -/
inductive Morpheme
  | string (type : MorphemeType) (bytes : List UInt8)
  | block (sentences : List (List (List Morpheme) × TokenId))

abbrev Word : Type := List Morpheme

structure Sentence where
  words : List Word
  terminator : TokenId

abbrev Block : Type := List Sentence

def Morpheme.ofBlock (block : Block) : Morpheme :=
  .block (block.map fun sentence => (sentence.words, sentence.terminator))

/-- `StringMorpheme_Create` copies the string up to its first NUL. -/
def Morpheme.ofToken (type : MorphemeType) : TokenValue → Morpheme
  | .string bytes => .string type (bytes.takeWhile (· != 0))
  | .nothing | .character _ => .string type []

def getToken : Lexing Token := fun self => .ok self.t self

/-- The tokens that end `Parser_SkipUntilStartOfNextSentence`. -/
def TokenId.endsSkip : TokenId → Bool
  | .newline | .semicolon | .ampersand | .eof | .closingParenthesis => true
  | _ => false

/-- The loop of `Parser_SkipUntilStartOfNextSentence`; the token that is looked at is the one behind
the one that is consumed. -/
def skipLoop : Nat → Lexing Unit
  | 0 => Code.throw .outOfFuel
  | fuel + 1 => do
      consumeToken
      let t ← getToken
      if t.id.endsSkip then pure () else skipLoop fuel

def skipUntilStartOfNextSentence : Lexing Unit := do
  let fuel ← rounds
  skipLoop fuel

def getMorphemeFromToken : TokenId → Option MorphemeType
  | .unquotedString => some .unquotedString
  | .singleQuotedString => some .singleQuotedString
  | .doubleQuotedString => some .doubleQuotedString
  | .quotedCharacter => some .quotedCharacter
  | .variableName => some .variableReference
  | _ => none

def TokenId.endsSentence (isNested : Bool) : TokenId → Bool
  | .eof | .newline | .semicolon | .ampersand => true
  | .closingParenthesis => isNested
  | _ => false

def isAtSentenceTerminator (isNested : Bool) : Lexing Bool := do
  let t ← getToken
  pure (t.id.endsSentence isNested)

section Rules
-- the rule for nested blocks
variable (parseNested : Lexing Block)

/-- `Parser_NestedBlock`, with the word so far. -/
def nestedBlock (word : Word) : Lexing Word := do
  consumeToken
  let block ← parseNested
  let t ← getToken
  if t.id = .closingParenthesis then
    consumeToken
    pure (word ++ [Morpheme.ofBlock block])
  else if t.id = .eof then
    printf "Error: unexpected end of script\n"
    pure word
  else
    printf "Error: garbage in nested block\n"
    skipUntilStartOfNextSentence
    pure word

/-- A token that is part of a word or an error, in `Parser_Word`. -/
def wordToken (next : Word → Lexing (Bool × Word)) (word : Word) : Lexing (Bool × Word) := do
  let t ← getToken
  match getMorphemeFromToken t.id with
  | some type =>
    let word := word ++ [Morpheme.ofToken type t.u]
    consumeToken
    if t.hasTrailingWhitespace then pure (false, word) else next word
  | none =>
    printf ("Error: unexpected character '" ++ String.singleton (Char.ofNat t.id.code) ++ "'.\n")
    pure (true, word)

/-- The loop of `Parser_Word`: whether there was an error, and the word. -/
def wordLoop (isNested : Bool) : Nat → Word → Lexing (Bool × Word)
  | 0, _ => Code.throw .outOfFuel
  | fuel + 1, word => do
      let t ← getToken
      if t.id = .openingParenthesis then
        let word ← nestedBlock parseNested word
        wordLoop isNested fuel word
      else if t.id.endsSentence isNested then pure (false, word)
      else wordToken (wordLoop isNested fuel) word

def parserWord (isNested : Bool) : Lexing (Bool × Word) := do
  let fuel ← rounds
  wordLoop parseNested isNested fuel []

/-- The loop of `Parser_Sentence`, with the words so far. -/
def sentenceLoop (isNested : Bool) : Nat → List Word → Lexing (List Word)
  | 0, _ => Code.throw .outOfFuel
  | fuel + 1, words => do
      let atEnd ← isAtSentenceTerminator isNested
      if atEnd then pure words
      else
        let (hasError, word) ← parserWord parseNested isNested
        if hasError then
          skipUntilStartOfNextSentence
          pure (words ++ [word])
        else sentenceLoop isNested fuel (words ++ [word])

def parserSentence (isNested : Bool) : Lexing Sentence := do
  let fuel ← rounds
  let words ← sentenceLoop parseNested isNested fuel []
  let t ← getToken
  if isNested ∧ t.id = .closingParenthesis then pure () else consumeToken
  pure ⟨words, t.id⟩

/-- The loop of `Parser_Block`, with the sentences so far. -/
def blockLoop (isNested : Bool) : Nat → Block → Lexing Block
  | 0, _ => Code.throw .outOfFuel
  | fuel + 1, block => do
      let t ← getToken
      if t.id = .eof ∨ (isNested ∧ t.id = .closingParenthesis) then pure block
      else
        let sentence ← parserSentence parseNested isNested
        blockLoop isNested fuel (block ++ [sentence])

end Rules

/-- `Parser_Block` with blocks in blocks down to a depth. -/
def parserBlock : Nat → Bool → Lexing Block
  | 0, _ => Code.throw .outOfFuel
  | depth + 1, isNested => do
      let fuel ← rounds
      blockLoop (parserBlock depth true) isNested fuel []

/-- `Parser_Parse`; the script gets the block. -/
def parserParse (text : List UInt8) : Lexing Block := do
  setInput text
  let depth ← rounds
  let block ← parserBlock depth false
  setInput []
  pure block

end Apollo.Shell
