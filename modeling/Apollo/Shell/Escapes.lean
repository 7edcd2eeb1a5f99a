import Apollo.Shell.Inside

/-!
# Escape sequences

What a double quoted string stands for, and what the lexer makes of it.  The digits of a
sequence go as far as they can: a character that could be one more digit is one.
-/

set_option autoImplicit false

namespace Apollo.Shell

open Lib

/-! ## Double quoted strings -/

inductive EscapeName
  | bell | backspace | escape | formFeed | verticalTab | carriageReturn | lineFeed
  | dollar | doubleQuote | singleQuote | backslash
  deriving DecidableEq

def EscapeName.letter : EscapeName → UInt8
  | .bell => 97
  | .backspace => 98
  | .escape => 101
  | .formFeed => 102
  | .verticalTab => 118
  | .carriageReturn => 114
  | .lineFeed => 110
  | .dollar => 36
  | .doubleQuote => 34
  | .singleQuote => 39
  | .backslash => 92

def EscapeName.character : EscapeName → UInt8
  | .bell => 0x07
  | .backspace => 0x08
  | .escape => 0x1b
  | .formFeed => 0x0c
  | .verticalTab => 0x0b
  | .carriageReturn => 0x0d
  | .lineFeed => 0x0a
  | .dollar => 36
  | .doubleQuote => 34
  | .singleQuote => 39
  | .backslash => 92

inductive HexDigit
  | decimal (digit : Fin 10)
  | letter (upper : Bool) (digit : Fin 6)
  deriving DecidableEq

def HexDigit.character : HexDigit → UInt8
  | .decimal digit => .ofNat (48 + digit.val)
  | .letter true digit => .ofNat (65 + digit.val)
  | .letter false digit => .ofNat (97 + digit.val)

def HexDigit.value : HexDigit → Nat
  | .decimal digit => digit.val
  | .letter _ digit => 10 + digit.val

def HexDigit.taken : HexDigit → Nat
  | .decimal digit => digit.val
  | .letter _ digit => digit.val

def octalCharacter (digit : Fin 8) : UInt8 := .ofNat (48 + digit.val)

def numeral (base : Nat) (digits : List Nat) : Nat := digits.foldl (fun val digit => val * base + digit) 0

/-- What a double quoted string is built from. -/
inductive Piece
  | plain (ch : UInt8) (ordinary : ch ≠ 0 ∧ ch ≠ 34 ∧ ch ≠ 92)
  | named (name : EscapeName)
  | octal (digits : List (Fin 8)) (few : 0 < digits.length ∧ digits.length ≤ 3)
  | hex (upper : Bool) (digits : List HexDigit) (few : 0 < digits.length ∧ digits.length ≤ 2)
  | newline (crlf : Bool)

namespace Piece

def text : Piece → List UInt8
  | .plain ch _ => [ch]
  | .named name => [92, name.letter]
  | .octal digits _ => 92 :: digits.map octalCharacter
  | .hex upper digits _ => 92 :: (if upper then 88 else 120) :: digits.map HexDigit.character
  | .newline crlf => 92 :: (if crlf then [13, 10] else [10])

def denoted : Piece → List UInt8
  | .plain ch _ => [ch]
  | .named name => [name.character]
  | .octal digits _ => [.ofNat (numeral 8 (digits.map Fin.val))]
  | .hex _ digits _ => [.ofNat (numeral 16 (digits.map HexDigit.value))]
  | .newline _ => []

def scanned : Piece → List UInt8
  | .plain ch _ => [ch]
  | .named name => if name = .lineFeed then [] else [name.character]
  | .octal digits _ => [.ofNat (numeral 8 (digits.map Fin.val))]
  | .hex _ digits _ => [.ofNat (numeral 16 (digits.map HexDigit.taken))]
  | .newline _ => [10]

def StopsBefore (next : UInt8) : Piece → Prop
  | .octal digits _ => digits.length < 3 → next < 48 ∨ 55 < next
  | .hex _ digits _ => digits.length < 2 → isxdigit next = false
  | _ => True

end Piece

def textOf (pieces : List Piece) : List UInt8 := pieces.flatMap Piece.text

/-- The digits of the sequences go as far as they can. -/
def Munches : List Piece → Prop
  | [] => True
  | piece :: rest => piece.StopsBefore ((textOf rest ++ [34]).headD 0) ∧ Munches rest

/-- The contents of a double quoted string. -/
structure Quotation where
  pieces : List Piece
  munches : Munches pieces

def Quotation.denoted (quotation : Quotation) : List UInt8 := quotation.pieces.flatMap Piece.denoted

def Quotation.scanned (quotation : Quotation) : List UInt8 := quotation.pieces.flatMap Piece.scanned

/-! ## What the lexer scans -/

/-- The lexer has gone on by `count` characters and has added some to the text buffer. -/
structure Scanned (before after : Lexer) (count : Nat) (added : List UInt8) : Prop where
  source : after.source = before.source
  index : after.sourceIndex = before.sourceIndex + count
  buffer : after.textBuffer = before.textBuffer ++ added

section Scanning
variable {self after middle : Lexer} {rest : List UInt8} {count count' fuel : Nat} {added added' : List UInt8} {ch next : UInt8}

theorem Scanned.trans (first : Scanned self middle count added) (second : Scanned middle after count' added') :
    Scanned self after (count + count') (added ++ added') where
  source := second.source.trans first.source
  index := by rw [second.index, first.index, Nat.add_assoc]
  buffer := by rw [second.buffer, first.buffer, List.append_assoc]

theorem Scanned.at {text : List UInt8} (scanned : Scanned self after text.length added) (here : At self (text ++ rest)) : At after rest := by
  obtain ⟨inside, drop, noNul⟩ := here
  have length : (text ++ rest).length = self.source.length - self.sourceIndex := by rw [← drop, List.length_drop]
  rw [List.length_append] at length
  refine ⟨?_, ?_, scanned.source ▸ noNul⟩
  · rw [scanned.source, scanned.index]
    by_cases none : text.length = 0
    · omega
    · omega
  · rw [scanned.source, scanned.index, ← List.drop_drop, drop, List.drop_left]

theorem octalCharacter_range : ∀ digit : Fin 8, ¬(octalCharacter digit < 48 ∨ 55 < octalCharacter digit) ∧
    (octalCharacter digit).toNat - 48 = digit.val ∧ escapeOf (octalCharacter digit) = .octal := by
  decide

theorem hexCharacter_range (digit : HexDigit) : isxdigit digit.character = true ∧ hexDigit digit.character = digit.taken := by
  have decimals : ∀ digit : Fin 10, isxdigit (HexDigit.decimal digit).character = true ∧
    hexDigit (HexDigit.decimal digit).character = digit.val := by decide
  have letters : ∀ (upper : Bool) (digit : Fin 6), isxdigit (HexDigit.letter upper digit).character = true ∧
    hexDigit (HexDigit.letter upper digit).character = digit.val := by decide
  cases digit with
  | decimal digit => exact decimals digit
  | letter upper digit => exact letters upper digit

theorem TakesDigits.scanned {ι : Type} {loop : Nat → Nat → Lexing Nat} {isDigit : UInt8 → Bool} {taken : Nat → UInt8 → Nat}
    {character : ι → UInt8} {value : Nat → ι → Nat} (takes : TakesDigits loop isDigit taken)
    (range : ∀ digit, isDigit (character digit) = true ∧ ∀ val, taken val (character digit) = value val digit)
    (digits : List ι) (val : Nat) (few : digits.length ≤ count) (here : At self (digits.map character ++ next :: rest))
    (stops : digits.length < count → isDigit next = false) :
    ∃ after, loop count val self = .ok (digits.foldl value val) after ∧ Scanned self after digits.length [] := by
  induction digits generalizing self val count with
  | nil =>
    refine ⟨self, ?_, rfl, rfl, (List.append_nil _).symm⟩
    cases count with
    | zero =>
      rw [takes.last]
      rfl
    | succ count =>
      rw [takes.round, Code.bind_apply, peek_cons here]
      dsimp only
      rw [stops (Nat.succ_pos count)]
      rfl
  | cons digit digits ih =>
    obtain ⟨count, rfl⟩ := Nat.exists_eq_succ_of_ne_zero (Nat.ne_of_gt (Nat.lt_of_lt_of_le (Nat.succ_pos digits.length) few))
    have moved : Scanned self { self with sourceIndex := self.sourceIndex + 1, column := self.column + 1 } 1 [] :=
      ⟨rfl, rfl, (List.append_nil _).symm⟩
    have here' := @Scanned.at self _ _ [] [character digit] moved here
    obtain ⟨after, looped, scanned⟩ := @ih _ count (value val digit) (Nat.le_of_succ_le_succ few) here'
      fun more => stops (Nat.succ_lt_succ more)
    refine ⟨after, ?_, ?_⟩
    · rw [takes.round, Code.bind_apply, peek_cons here]
      dsimp only
      rw [(range digit).1, (range digit).2]
      exact looped
    · have both := moved.trans scanned
      rw [Nat.add_comm] at both
      exact both

theorem octalLoop_scanned (digits : List (Fin 8)) (val : Nat) (few : digits.length ≤ count)
    (here : At self (digits.map octalCharacter ++ next :: rest)) (stops : digits.length < count → next < 48 ∨ 55 < next) :
    ∃ after, octalLoop count val self = .ok (digits.foldl (fun val digit => val * 8 + digit.val) val) after ∧
      Scanned self after digits.length [] := by
  refine octalLoop_takes.scanned (fun digit => ?_) digits val few here fun more => by simp [stops more]
  obtain ⟨inside, value, -⟩ := octalCharacter_range digit
  exact ⟨by simp only [inside, decide_false, Bool.not_false], fun val => congrArg (val * 8 + ·) value⟩

theorem hexLoop_scanned (digits : List HexDigit) (val : Nat) (few : digits.length ≤ count)
    (here : At self (digits.map HexDigit.character ++ next :: rest)) (stops : digits.length < count → isxdigit next = false) :
    ∃ after, hexLoop count val self = .ok (digits.foldl (fun val digit => val * 16 + digit.taken) val) after ∧
      Scanned self after digits.length [] := by
  refine hexLoop_takes.scanned (fun digit => ?_) digits val few here stops
  obtain ⟨inside, value⟩ := hexCharacter_range digit
  exact ⟨inside, fun val => congrArg (val * 16 + ·) value⟩

theorem escapeOf_named : ∀ name : EscapeName, name ≠ .lineFeed → escapeOf name.letter = .plain name.character
  | .lineFeed, other => absurd rfl other
  | .bell, _ | .backspace, _ | .escape, _ | .formFeed, _ | .verticalTab, _ | .carriageReturn, _ | .dollar, _ | .doubleQuote, _
  | .singleQuote, _ | .backslash, _ => rfl

theorem Scanned.addChar (moved : Scanned self after count added) (ch : UInt8) :
    Scanned self { after with textBuffer := after.textBuffer ++ [ch] } count (added ++ [ch]) where
  source := moved.source
  index := moved.index
  buffer := by
    rw [moved.buffer, List.append_assoc]

theorem scanEscapeSequence_scanned (piece : Piece) {text : List UInt8} (escape : piece.text = 92 :: text) (first : text ≠ [] )
    (ordinary : ∀ ch plain, piece ≠ .plain ch plain) (here : At self (text ++ next :: rest)) (stops : piece.StopsBefore next) :
    ∃ after, scanEscapeSequence self = .ok () after ∧ Scanned self after text.length piece.scanned := by
  cases piece with
  | plain ch plain => exact absurd rfl (ordinary ch plain)
  | named name =>
    obtain rfl := (List.cons.inj escape).2
    unfold scanEscapeSequence
    rw [Code.bind_apply, peek_cons here]
    dsimp only
    by_cases lineFeed : name = .lineFeed
    · subst lineFeed
      exact ⟨_, rfl, rfl, rfl, (List.append_nil _).symm⟩
    · rw [escapeOf_named name lineFeed]
      exact ⟨_, rfl, rfl, rfl, congrArg (self.textBuffer ++ ·) (if_neg lineFeed).symm⟩
  | octal digits few =>
    obtain rfl := (List.cons.inj escape).2
    obtain ⟨after, looped, moved⟩ := octalLoop_scanned digits 0 few.2 here stops
    refine ⟨{ after with textBuffer := after.textBuffer ++ [.ofNat (numeral 8 (digits.map Fin.val))] }, ?_, ?_⟩
    · cases digits with
      | nil => exact absurd few.1 (Nat.lt_irrefl 0)
      | cons digit digits =>
        unfold scanEscapeSequence
        rw [Code.bind_apply, peek_cons here]
        dsimp only
        rw [(octalCharacter_range digit).2.2]
        dsimp only
        unfold scanOctalEscapeSequence numeral
        rw [Code.bind_apply, looped, List.foldl_map]
        rfl
    · have both := moved.addChar (.ofNat (numeral 8 (digits.map Fin.val)))
      rw [List.length_map]
      exact both
  | hex upper digits few =>
    obtain rfl := (List.cons.inj escape).2
    have moved : Scanned self { self with sourceIndex := self.sourceIndex + 1, column := self.column + 1 } 1 [] :=
      ⟨rfl, rfl, (List.append_nil _).symm⟩
    have here' := @Scanned.at self _ _ [] [if upper then 88 else 120] moved here
    obtain ⟨after, looped, moved'⟩ := hexLoop_scanned digits 0 few.2 here' stops
    refine ⟨{ after with textBuffer := after.textBuffer ++ [.ofNat (numeral 16 (digits.map HexDigit.taken))] }, ?_, ?_⟩
    · have hex : escapeOf (if upper then 88 else 120) = .hex := by cases upper <;> rfl
      unfold scanEscapeSequence
      rw [Code.bind_apply, peek_cons here]
      dsimp only
      rw [hex]
      change (hexLoop 2 0 >>= fun val => addCharToTextBuffer (.ofNat val)) _ = _
      rw [Code.bind_apply, looped]
      unfold numeral
      rw [List.foldl_map]
      rfl
    · have both := (moved.trans moved').addChar (.ofNat (numeral 16 (digits.map HexDigit.taken)))
      rw [Nat.add_comm] at both
      rw [List.length_cons, List.length_map]
      exact both
  | newline crlf =>
    obtain rfl := (List.cons.inj escape).2
    cases crlf with
    | false =>
      unfold scanEscapeSequence
      rw [Code.bind_apply, peek_cons here]
      exact ⟨_, rfl, rfl, rfl, rfl⟩
    | true =>
      have behind : peek 1 self = .ok 10 self := peek_cons_one here
      unfold scanEscapeSequence
      rw [Code.bind_apply, peek_cons here]
      dsimp only
      rw [show escapeOf 13 = .carriageReturn from rfl]
      dsimp only
      rw [Code.bind_apply, behind]
      exact ⟨_, rfl, rfl, rfl, rfl⟩

theorem piece_text (piece : Piece) :
    (∃ ch plain, piece = .plain ch plain) ∨ ∃ text, piece.text = 92 :: text ∧ text ≠ [] ∧ ∀ ch plain, piece ≠ .plain ch plain := by
  cases piece with
  | plain ch plain => exact .inl ⟨ch, plain, rfl⟩
  | named name => exact .inr ⟨_, rfl, List.cons_ne_nil _ _, nofun⟩
  | octal digits few =>
    refine .inr ⟨_, rfl, fun none => ?_, nofun⟩
    rw [List.map_eq_nil_iff.mp none] at few
    exact Nat.lt_irrefl 0 few.1
  | hex upper digits few => exact .inr ⟨_, rfl, List.cons_ne_nil _ _, nofun⟩
  | newline crlf => exact .inr ⟨_, rfl, by cases crlf <;> exact List.cons_ne_nil _ _, nofun⟩

theorem doubleQuotedLoop_cons (here : At self (ch :: rest)) :
    doubleQuotedLoop (fuel + 1) self =
      (if ch = 34 then pure ()
      else if ch = 92 then (scanEscapeSequence >>= fun _ => doubleQuotedLoop fuel)
      else (addCharToTextBuffer ch >>= fun _ => doubleQuotedLoop fuel) : Lexing Unit)
        { self with sourceIndex := self.sourceIndex + 1, column := self.column + 1 } := by
  rw [doubleQuotedLoop, Code.bind_apply, peek_cons here]
  dsimp only
  rw [if_neg here.ne_nul, Code.bind_apply]
  rfl

theorem doubleQuotedLoop_piece (piece : Piece) (here : At self (piece.text ++ next :: rest)) (stops : piece.StopsBefore next) :
    ∃ after, doubleQuotedLoop (fuel + 1) self = doubleQuotedLoop fuel after ∧ Scanned self after piece.text.length piece.scanned := by
  have moved : Scanned self { self with sourceIndex := self.sourceIndex + 1, column := self.column + 1 } 1 [] :=
    ⟨rfl, rfl, (List.append_nil _).symm⟩
  rcases piece_text piece with ⟨ch, plain, rfl⟩ | ⟨text, escape, some, other⟩
  · refine ⟨_, ?_, moved.addChar ch⟩
    rw [doubleQuotedLoop_cons here, if_neg plain.2.1, if_neg plain.2.2]
    rfl
  · rw [escape] at here ⊢
    have here' := @Scanned.at self _ _ [] [92] moved here
    obtain ⟨after, scan, scanned⟩ := scanEscapeSequence_scanned piece escape some other here' stops
    refine ⟨after, ?_, ?_⟩
    · rw [doubleQuotedLoop_cons here, if_neg (by decide), if_pos rfl, Code.bind_apply, scan]
    · have both := moved.trans scanned
      rw [Nat.add_comm] at both
      exact both

theorem doubleQuotedLoop_scanned {pieces : List Piece} (munches : Munches pieces) (here : At self (textOf pieces ++ 34 :: rest))
    (enough : (textOf pieces).length < fuel) :
    ∃ after, doubleQuotedLoop fuel self = .ok () after ∧ Scanned self after ((textOf pieces).length + 1) (pieces.flatMap Piece.scanned) := by
  induction pieces generalizing self fuel with
  | nil =>
    obtain ⟨fuel, rfl⟩ := Nat.exists_eq_succ_of_ne_zero (Nat.ne_of_gt enough)
    refine ⟨{ self with sourceIndex := self.sourceIndex + 1, column := self.column + 1 }, ?_, rfl, rfl, (List.append_nil _).symm⟩
    rw [doubleQuotedLoop_cons here]
    rfl
  | cons piece pieces ih =>
    obtain ⟨stops, munches⟩ := munches
    obtain ⟨fuel, rfl⟩ := Nat.exists_eq_succ_of_ne_zero (Nat.ne_of_gt (Nat.lt_of_le_of_lt (Nat.zero_le _) enough))
    have parts : textOf (piece :: pieces) = piece.text ++ textOf pieces := rfl
    have some : 0 < piece.text.length := by
      rcases piece_text piece with ⟨ch, plain, rfl⟩ | ⟨text, escape, -, -⟩
      · exact Nat.one_pos
      · rw [escape]
        exact Nat.succ_pos _
    rw [parts, List.length_append] at enough
    rw [parts, List.append_assoc] at here
    have next : ∃ next behind, textOf pieces ++ 34 :: rest = next :: behind ∧ (textOf pieces ++ [34]).headD 0 = next := by
      cases textOf pieces with
      | nil => exact ⟨34, rest, rfl, rfl⟩
      | cons first others => exact ⟨first, others ++ 34 :: rest, rfl, rfl⟩
    obtain ⟨next, behind, same, head⟩ := next
    rw [head] at stops
    obtain ⟨middle, looped, scanned⟩ := @doubleQuotedLoop_piece self behind fuel next piece (same ▸ here) stops
    have left : (textOf pieces).length < fuel := by omega
    obtain ⟨after, looped', scanned'⟩ := ih munches (scanned.at here) left
    refine ⟨after, looped.trans looped', ?_⟩
    have both := scanned.trans scanned'
    rw [← Nat.add_assoc, ← List.length_append] at both
    exact both

theorem scanDoubleQuotedString_scanned (quotation : Quotation) (here : At self (textOf quotation.pieces ++ 34 :: rest)) :
    ∃ after, scanDoubleQuotedString self = .ok () after ∧ after.textBuffer = quotation.scanned ∧
      after.sourceIndex = self.sourceIndex + ((textOf quotation.pieces).length + 1) := by
  have length := here.length
  rw [List.length_append, List.length_cons] at length
  have cleared : At { self with textBuffer := [] } (textOf quotation.pieces ++ 34 :: rest) := here.same rfl rfl
  obtain ⟨after, looped, scanned⟩ := @doubleQuotedLoop_scanned _ rest (self.source.length + 2) _ quotation.munches cleared (by omega)
  exact ⟨after, looped, scanned.buffer, scanned.index⟩

end Scanning

/-! ## When both are the same -/

/-- The digits of a hexadecimal sequence are decimal ones. -/
def Piece.Exact : Piece → Prop
  | .hex _ digits _ => ∀ digit ∈ digits, digit.taken = digit.value
  | _ => True

/-- The line feeds that the lexer owes are made up for by escaped newlines, and while there are some it scans line feeds only. -/
def Balances : Int → List Piece → Prop
  | owed, [] => owed = 0
  | owed, .named .lineFeed :: rest => Balances (owed + 1) rest
  | owed, .newline _ :: rest => Balances (owed - 1) rest
  | owed, piece :: rest => piece.Exact ∧ (owed = 0 ∨ piece.denoted = [10]) ∧ Balances owed rest

section Balance
variable {digits : List HexDigit} {left right : List UInt8} {first second : UInt8} {more less : Nat}

theorem HexDigit.bounds (digit : HexDigit) :
    digit.taken ≤ 9 ∧ digit.value < 16 ∧ (digit.value = digit.taken ∨ digit.value = digit.taken + 10) := by
  cases digit with
  | decimal digit => exact ⟨Nat.le_of_lt_succ digit.isLt, Nat.lt_of_lt_of_le digit.isLt (by decide), .inl rfl⟩
  | letter upper digit =>
    exact ⟨Nat.le_trans (Nat.le_of_lt_succ digit.isLt) (by decide), Nat.add_lt_add_left digit.isLt 10, .inr (Nat.add_comm 10 _)⟩

theorem ofNat_ne {value value' : Nat} (low : value < 256) (low' : value' < 256) (other : value ≠ value') :
    UInt8.ofNat value ≠ UInt8.ofNat value' := by
  intro same
  have values := congrArg UInt8.toNat same
  rw [UInt8.toNat_ofNat', UInt8.toNat_ofNat', Nat.mod_eq_of_lt low, Nat.mod_eq_of_lt low'] at values
  exact other values

/-- A letter among the digits gives another character, and not a line feed. -/
theorem hex_wrong (few : 0 < digits.length ∧ digits.length ≤ 2) (wrong : ¬∀ digit ∈ digits, digit.taken = digit.value) :
    UInt8.ofNat (numeral 16 (digits.map HexDigit.value)) ≠ UInt8.ofNat (numeral 16 (digits.map HexDigit.taken)) ∧
      UInt8.ofNat (numeral 16 (digits.map HexDigit.taken)) ≠ 10 := by
  obtain ⟨digit, rfl⟩ | ⟨high, low, rfl⟩ : (∃ digit, digits = [digit]) ∨ ∃ high low, digits = [high, low] := by
    match digits, few with
    | [digit], _ => exact .inl ⟨digit, rfl⟩
    | [high, low], _ => exact .inr ⟨high, low, rfl⟩
  · obtain ⟨taken, value, letter⟩ := digit.bounds
    have other : digit.value ≠ digit.taken := fun same => wrong fun other member => by rw [List.mem_singleton.mp member, same]
    simp only [numeral, List.map_cons, List.map_nil, List.foldl_cons, List.foldl_nil, Nat.zero_mul, Nat.zero_add]
    exact ⟨ofNat_ne (by omega) (by omega) other, @ofNat_ne _ 10 (by omega) (by decide) (by omega)⟩
  · obtain ⟨taken, value, letter⟩ := high.bounds
    obtain ⟨taken', value', letter'⟩ := low.bounds
    have other : ¬(high.value = high.taken ∧ low.value = low.taken) := by
      rintro ⟨same, same'⟩
      refine wrong fun digit member => ?_
      rcases List.mem_cons.mp member with rfl | member
      · exact same.symm
      · rw [List.mem_singleton.mp member, same']
    simp only [numeral, List.map_cons, List.map_nil, List.foldl_cons, List.foldl_nil, Nat.zero_mul, Nat.zero_add]
    exact ⟨ofNat_ne (by omega) (by omega) (by omega), @ofNat_ne _ 10 (by omega) (by decide) (by omega)⟩

/-- The other pieces give one character, and it is the right one. -/
theorem scanned_exact (piece : Piece) (named : piece ≠ .named .lineFeed) (newline : ∀ crlf, piece ≠ .newline crlf) (exact : piece.Exact) :
    ∃ ch, piece.denoted = [ch] ∧ piece.scanned = [ch] := by
  cases piece with
  | plain ch plain => exact ⟨ch, rfl, rfl⟩
  | named name => exact ⟨name.character, rfl, if_neg fun same => named (congrArg Piece.named same)⟩
  | octal digits few => exact ⟨_, rfl, rfl⟩
  | hex upper digits few =>
    have same : digits.map HexDigit.taken = digits.map HexDigit.value := List.map_congr_left exact
    exact ⟨_, rfl, congrArg (fun digits => [UInt8.ofNat (numeral 16 digits)]) same⟩
  | newline crlf => exact absurd rfl (newline crlf)

theorem scanned_wrong (piece : Piece) (wrong : ¬piece.Exact) :
    ∃ right wrong, piece.denoted = [right] ∧ piece.scanned = [wrong] ∧ right ≠ wrong ∧ wrong ≠ 10 := by
  cases piece with
  | hex upper digits few => exact ⟨_, _, rfl, rfl, hex_wrong few wrong⟩
  | plain ch plain => exact absurd trivial wrong
  | named name => exact absurd trivial wrong
  | octal digits few => exact absurd trivial wrong
  | newline crlf => exact absurd trivial wrong

/-- Characters other than the line feed are scanned for each one that is denoted. -/
theorem countP_denoted_le (pieces : List Piece) :
    (pieces.flatMap Piece.denoted).countP (· ≠ 10) ≤ (pieces.flatMap Piece.scanned).countP (· ≠ 10) := by
  induction pieces with
  | nil => exact Nat.le_refl 0
  | cons piece rest ih =>
    rw [List.flatMap_cons, List.flatMap_cons, List.countP_append, List.countP_append]
    refine Nat.add_le_add ?_ ih
    by_cases exact : piece.Exact
    · by_cases named : piece = .named .lineFeed
      · rw [named]
        exact Nat.le_refl 0
      · by_cases newline : ∃ crlf, piece = .newline crlf
        · obtain ⟨crlf, rfl⟩ := newline
          exact Nat.zero_le _
        · obtain ⟨ch, denoted, scanned⟩ := scanned_exact piece named (fun crlf same => newline ⟨crlf, same⟩) exact
          exact Nat.le_of_eq (by rw [denoted, scanned])
    · obtain ⟨right, wrong, denoted, scanned, -, other⟩ := scanned_wrong piece exact
      have one : [wrong].countP (· ≠ 10) = 1 := by simp [other]
      rw [denoted, scanned, one]
      exact List.countP_le_length

theorem replicate_append_cons (more : Nat) (left : List UInt8) :
    List.replicate more (10 : UInt8) ++ 10 :: left = List.replicate (more + 1) 10 ++ left := by
  rw [List.replicate_succ', List.append_assoc, List.singleton_append]

theorem replicate_append_inj (other : first ≠ 10) (other' : second ≠ 10)
    (same : List.replicate more (10 : UInt8) ++ first :: left = List.replicate less 10 ++ second :: right) :
    more = less ∧ first = second ∧ left = right := by
  induction more generalizing less with
  | zero =>
    cases less with
    | zero =>
      obtain ⟨here, behind⟩ := List.cons.inj same
      exact ⟨rfl, here, behind⟩
    | succ less => exact absurd (List.cons.inj same).1 other
  | succ more ih =>
    cases less with
    | zero => exact absurd (List.cons.inj same).1.symm other'
    | succ less =>
      obtain ⟨amount, rest⟩ := ih (List.cons.inj same).2
      exact ⟨congrArg (· + 1) amount, rest⟩

theorem balances_other {piece : Piece} {owed : Int} {rest : List Piece} (named : piece ≠ .named .lineFeed)
    (newline : ∀ crlf, piece ≠ .newline crlf) :
    Balances owed (piece :: rest) ↔ piece.Exact ∧ (owed = 0 ∨ piece.denoted = [10]) ∧ Balances owed rest := by
  cases piece with
  | named name =>
    cases name with
    | lineFeed => exact absurd rfl named
    | _ => exact Iff.rfl
  | newline crlf => exact absurd rfl (newline crlf)
  | _ => exact Iff.rfl

theorem balances_iff (pieces : List Piece) (more less : Nat) :
    List.replicate more (10 : UInt8) ++ pieces.flatMap Piece.denoted = List.replicate less 10 ++ pieces.flatMap Piece.scanned ↔
      Balances (more - less) pieces := by
  induction pieces generalizing more less with
  | nil =>
    rw [List.flatMap_nil, List.flatMap_nil, List.append_nil, List.append_nil, Balances]
    constructor
    · intro same
      have length := congrArg List.length same
      rw [List.length_replicate, List.length_replicate] at length
      omega
    · intro same
      rw [show more = less by omega]
  | cons piece rest ih =>
    rw [List.flatMap_cons, List.flatMap_cons]
    by_cases named : piece = .named .lineFeed
    · subst named
      have owed : (more : Int) - less + 1 = (more + 1 : Nat) - less := by omega
      rw [Balances, owed, ← ih (more + 1) less, ← replicate_append_cons]
      rfl
    · by_cases newline : ∃ crlf, piece = .newline crlf
      · obtain ⟨crlf, rfl⟩ := newline
        have owed : (more : Int) - less - 1 = more - (less + 1 : Nat) := by omega
        rw [Balances, owed, ← ih more (less + 1), ← replicate_append_cons]
        rfl
      · rw [balances_other named fun crlf same => newline ⟨crlf, same⟩]
        by_cases exact : piece.Exact
        · obtain ⟨ch, denoted, scanned⟩ := scanned_exact piece named (fun crlf same => newline ⟨crlf, same⟩) exact
          rw [denoted, scanned, and_iff_right exact, List.singleton_append, List.singleton_append]
          by_cases feed : ch = 10
          · subst feed
            have owed : ((more + 1 : Nat) : Int) - (less + 1 : Nat) = more - less := by omega
            rw [replicate_append_cons, replicate_append_cons, ih, owed, and_iff_right (.inr rfl)]
          · have settled : ((more : Int) - less = 0 ∨ [ch] = [10]) ↔ more = less := by
              rw [or_iff_left fun same => feed (List.cons.inj same).1]
              omega
            have none := ih 0 0
            simp only [List.replicate_zero, List.nil_append, Int.sub_self] at none
            rw [settled]
            constructor
            · intro same
              obtain ⟨amount, -, behind⟩ := replicate_append_inj feed feed same
              subst amount
              rw [Int.sub_self]
              exact ⟨rfl, none.mp behind⟩
            · rintro ⟨rfl, balances⟩
              rw [Int.sub_self] at balances
              rw [none.mpr balances]
        · refine iff_of_false (fun same => ?_) fun both => exact both.1
          obtain ⟨right, wrong, denoted, scanned, differ, other⟩ := scanned_wrong piece exact
          rw [denoted, scanned, List.singleton_append, List.singleton_append] at same
          by_cases feed : right = 10
          · have counts := congrArg (List.countP (· ≠ 10)) same
            have fewer := countP_denoted_le rest
            have feeds (count : Nat) : (List.replicate count (10 : UInt8)).countP (· ≠ 10) = 0 := by
              rw [List.countP_replicate]
              rfl
            have one : (wrong :: rest.flatMap Piece.scanned).countP (· ≠ 10) = (rest.flatMap Piece.scanned).countP (· ≠ 10) + 1 := by
              simp [other]
            have none : ((10 : UInt8) :: rest.flatMap Piece.denoted).countP (· ≠ 10) = (rest.flatMap Piece.denoted).countP (· ≠ 10) := rfl
            rw [List.countP_append, List.countP_append, feeds, feeds, feed, one, none] at counts
            omega
          · exact differ (replicate_append_inj feed other same).2.1

end Balance

/-! ## The string -/

theorem piece_noNul (piece : Piece) : 0 ∉ piece.text := by
  have octal : ∀ digit, octalCharacter digit ≠ 0 := by decide
  have named : ∀ name : EscapeName, name.letter ≠ 0 := by
    intro name
    cases name <;> decide
  have decimals : ∀ digit : Fin 10, (HexDigit.decimal digit).character ≠ 0 := by decide
  have letters : ∀ (upper : Bool) (digit : Fin 6), (HexDigit.letter upper digit).character ≠ 0 := by decide
  intro member
  cases piece with
  | plain ch plain => exact plain.1 (List.mem_singleton.mp member).symm
  | named name =>
    rcases List.mem_cons.mp member with escape | member
    · cases escape
    · exact named name (List.mem_singleton.mp member).symm
  | octal digits few =>
    rcases List.mem_cons.mp member with escape | member
    · cases escape
    · obtain ⟨digit, -, zero⟩ := List.mem_map.mp member
      exact octal digit zero
  | hex upper digits few =>
    rcases List.mem_cons.mp member with escape | member
    · cases escape
    · rcases List.mem_cons.mp member with mark | member
      · cases upper <;> cases mark
      · obtain ⟨digit, -, zero⟩ := List.mem_map.mp member
        cases digit with
        | decimal digit => exact decimals digit zero
        | letter upper digit => exact letters upper digit zero
  | newline crlf =>
    revert member
    cases crlf <;> decide

def Lexer.before (lexer : Lexer) (front back : Text) (quotation : Quotation) : Lexer :=
  { lexer with source := front.bytes ++ (textOf quotation.pieces ++ 34 :: back.bytes), sourceIndex := front.bytes.length }

theorem at_before (lexer : Lexer) (front back : Text) (quotation : Quotation) :
    At (lexer.before front back quotation) (textOf quotation.pieces ++ 34 :: back.bytes) where
  inside := by
    unfold Lexer.before
    rw [List.length_append]
    exact Nat.le_add_right _ _
  drop := List.drop_left
  noNul := by
    intro member
    rcases List.mem_append.mp member with member | member
    · exact front.noNul member
    · rcases List.mem_append.mp member with member | member
      · obtain ⟨piece, -, member⟩ := List.mem_flatMap.mp member
        exact piece_noNul piece member
      · rcases List.mem_cons.mp member with quote | member
        · cases quote
        · exact back.noNul member

/-- A string is scanned as what it stands for when its hexadecimal sequences have decimal digits only and its line feeds
balance with its escaped newlines; the scan ends behind the closing quote in any case. -/
theorem scanDoubleQuotedString_denotes (lexer : Lexer) (front back : Text) (quotation : Quotation) :
    (∃ after, scanDoubleQuotedString (lexer.before front back quotation) = .ok () after ∧ after.textBuffer = quotation.denoted ∧
      after.sourceIndex = front.bytes.length + ((textOf quotation.pieces).length + 1)) ↔ Balances 0 quotation.pieces := by
  obtain ⟨after, returned, buffer, index⟩ := scanDoubleQuotedString_scanned quotation (at_before lexer front back quotation)
  have same := balances_iff quotation.pieces 0 0
  rw [List.replicate_zero, List.nil_append, List.nil_append, Int.sub_self] at same
  rw [← same]
  constructor
  · rintro ⟨other, returned', buffer', -⟩
    rw [returned] at returned'
    cases returned'
    exact buffer'.symm.trans buffer
  · intro equal
    exact ⟨after, returned, buffer.trans equal.symm, index⟩

def lineFeedString : Quotation := ⟨[.named .lineFeed], ⟨trivial, trivial⟩⟩

def letterString : Quotation := ⟨[.hex false [.letter false 1] (by decide)], ⟨fun _ => by decide, trivial⟩⟩

/-- The first one is scanned as nothing, and the second one as the character 1. -/
theorem lineFeed_lost :
    (¬∃ after, scanDoubleQuotedString (Lexer.init.before ⟨[], by decide⟩ ⟨[], by decide⟩ lineFeedString) = .ok () after ∧
      after.textBuffer = lineFeedString.denoted) ∧
    ¬∃ after, scanDoubleQuotedString (Lexer.init.before ⟨[], by decide⟩ ⟨[], by decide⟩ letterString) = .ok () after ∧
      after.textBuffer = letterString.denoted := by
  constructor
  all_goals
    rintro ⟨after, returned, same⟩
    have buffer := congrArg (fun outcome => outcome.state?.map Lexer.textBuffer) returned
    dsimp only [Outcome.state?, Option.map_some] at buffer
    rw [same] at buffer
    revert buffer
    decide

end Apollo.Shell
