import Apollo.Shell.Parser

/-!
# The parser stays inside its text

Which texts the parser reads without leaving them.  Everything but a comment and
a carriage return looks for the terminating NUL in time: a comment that no line
feed ends, and a carriage return in the last place, take the lexer behind it.
-/

set_option autoImplicit false

namespace Apollo.Shell

open Lib

inductive Mode
  | plain
  | comment
  | singleQuoted
  | doubleQuoted

/-- Outside of quotes, a line feed ends every comment, and no carriage return is the last character.
A backslash takes the next character with it, and so does a carriage return whose second next one is
a line feed. -/
def settles : Mode → List UInt8 → Bool
  | .plain, [] => true
  | .plain, ch :: rest =>
    match leadOf ch with
    | .hash => settles .comment rest
    | .singleQuote => settles .singleQuoted rest
    | .doubleQuote => settles .doubleQuoted rest
    | .backslash =>
      match rest with
      | [] => true
      | _ :: rest => settles .plain rest
    | .carriageReturn =>
      match rest with
      | [] => false
      | next :: rest => if rest.head? = some 10 then settles .plain rest else settles .plain (next :: rest)
    | _ => settles .plain rest
  | .comment, [] => false
  | .comment, ch :: rest => if ch = 10 then settles .plain rest else settles .comment rest
  | .singleQuoted, [] => true
  | .singleQuoted, ch :: rest => if ch = 39 then settles .plain rest else settles .singleQuoted rest
  | .doubleQuoted, [] => true
  | .doubleQuoted, ch :: rest =>
    if ch = 34 then settles .plain rest
    else if ch = 92 then
      match rest with
      | [] => true
      | _ :: rest => settles .doubleQuoted rest
    else settles .doubleQuoted rest

structure Text where
  bytes : List UInt8
  noNul : 0 ∉ bytes

/-! ## Reading -/

structure At (lexer : Lexer) (rest : List UInt8) : Prop where
  inside : lexer.sourceIndex ≤ lexer.source.length
  drop : lexer.source.drop lexer.sourceIndex = rest
  noNul : 0 ∉ lexer.source

section Reading
variable {self after : Lexer} {ch : UInt8} {rest : List UInt8}

theorem At.same (here : At self rest) (source : after.source = self.source)
    (index : after.sourceIndex = self.sourceIndex) : At after rest := by
  obtain ⟨inside, drop, noNul⟩ := here
  rw [← source, ← index] at inside drop
  rw [← source] at noNul
  exact ⟨inside, drop, noNul⟩

theorem At.length (here : At self rest) : rest.length = self.source.length - self.sourceIndex := by
  rw [← here.drop, List.length_drop]

theorem At.next (here : At self (ch :: rest)) (source : after.source = self.source)
    (index : after.sourceIndex = self.sourceIndex + 1) : At after rest := by
  have length := here.length
  rw [List.length_cons] at length
  refine ⟨?_, ?_, source ▸ here.noNul⟩
  · rw [source, index]
    omega
  · rw [source, index, ← List.tail_drop, here.drop]
    rfl

theorem At.ne_nul (here : At self (ch :: rest)) : ch ≠ 0 := by
  intro nul
  have member : ch ∈ self.source := by
    apply List.mem_of_mem_drop
    rw [here.drop]
    exact List.mem_cons_self
  exact here.noNul (nul ▸ member)

theorem At.getD (here : At self rest) (ahead : Nat) :
    self.source.getD (self.sourceIndex + ahead) 0 = rest.getD ahead 0 := by
  rw [List.getD_eq_getElem?_getD, List.getD_eq_getElem?_getD, ← here.drop, List.getElem?_drop]

/-- The lexer may look at its text and at the NUL behind it. -/
theorem peek_inside (here : At self rest) {ahead : Nat} (inside : ahead ≤ rest.length) :
    peek ahead self = .ok (rest.getD ahead 0) self := by
  have length := here.length
  have bound := here.inside
  unfold peek
  rw [if_pos (by omega), here.getD]

theorem peek_outside (here : At self []) : peek 1 self = .fault := by
  have length := here.length
  rw [List.length_nil] at length
  unfold peek
  rw [if_neg (by omega)]

theorem peek_cons (here : At self (ch :: rest)) : peek 0 self = .ok ch self :=
  peek_inside here (Nat.zero_le _)

theorem peek_nil (here : At self []) : peek 0 self = .ok 0 self :=
  peek_inside here (Nat.zero_le _)

theorem peek_cons_one (here : At self (ch :: rest)) : peek 1 self = .ok (rest.headD 0) self := by
  rw [peek_inside here (by simp)]
  cases rest with
  | nil => rfl
  | cons next rest => rfl

end Reading

/-! ## Scanning -/

theorem forall_byte {P : UInt8 → Prop} (each : ∀ n < 256, P (UInt8.ofNat n)) : ∀ ch, P ch := by
  intro ch
  have byte := each ch.toNat (UInt8.toNat_lt ch)
  rwa [UInt8.ofNat_toNat] at byte

/-- The code ends in a state with `post`, or faults where `stuck` allows. -/
def Goes {α : Type} (stuck : Prop) (post : Lexer → Prop) (outcome : Outcome Lexer OutOfFuel α) : Prop :=
  outcome.Ends stuck (fun _ => post) fun _ _ => False

variable {α β : Type} {stuck : Prop} {self : Lexer}

theorem Goes.mono {stuck' : Prop} {post post' : Lexer → Prop} {outcome : Outcome Lexer OutOfFuel α}
    (goes : Goes stuck post outcome) (weaker : stuck → stuck') (implies : ∀ after, post after → post' after) :
    Goes stuck' post' outcome := by
  apply Code.ends_weaken _ weaker
  exact Code.ends_mono goes (fun _ => implies) fun _ _ => id

theorem Goes.advance_bind {post : Lexer → Prop} {next : Unit → Lexing β}
    (rest : ∀ after : Lexer, after.source = self.source → after.sourceIndex = self.sourceIndex + 1 →
      Goes stuck post (next () after)) : Goes stuck post ((advance >>= next) self) := rest _ rfl rfl

theorem Goes.modify_bind {post : Lexer → Prop} {change : Lexer → Lexer}
    {next : Unit → Lexing β} (rest : Goes stuck post (next () (change self))) :
    Goes stuck post ((Code.modify change >>= next) self) := rest

theorem Goes.rounds_bind {post : Lexer → Prop} {next : Nat → Lexing β}
    (rest : Goes stuck post (next (self.source.length + 2) self)) : Goes stuck post ((rounds >>= next) self) := rest

theorem Goes.bind {middle post : Lexer → Prop} {code : Lexing α} {next : α → Lexing β} (first : Goes stuck middle (code self))
    (rest : ∀ value after, middle after → Goes stuck post (next value after)) : Goes stuck post ((code >>= next) self) :=
  Code.ends_bind first rest

/-- The text that is left is not longer, and settles in `mode'` as the text before did in `mode`. -/
def Reaches (mode mode' : Mode) (rest : List UInt8) (bound : Nat) (after : Lexer) : Prop :=
  ∃ rest', At after rest' ∧ rest'.length ≤ bound ∧ settles mode' rest' = settles mode rest

/-- A character that changes nothing outside of quotes and comments. -/
def Ordinary (ch : UInt8) : Prop := ∀ rest, settles .plain (ch :: rest) = settles .plain rest

section Scanning
variable {self : Lexer} {rest : List UInt8} {fuel : Nat}

theorem scanWhile_goes {stays : UInt8 → Bool} {adds : Bool} (ends : stays 0 = false)
    (ordinary : ∀ ch, stays ch = true → Ordinary ch) (here : At self rest) (enough : rest.length < fuel) :
    Goes False (Reaches .plain .plain rest (rest.dropWhile stays).length) (scanWhile stays adds fuel self) := by
  induction rest generalizing self fuel with
  | nil =>
    cases fuel with
    | zero => simp at enough
    | succ fuel =>
      unfold scanWhile
      rw [Code.bind_of_ok (peek_nil here), if_neg (by rw [ends]; decide)]
      exact ⟨[], here, Nat.le_refl _, rfl⟩
  | cons ch rest ih =>
    cases fuel with
    | zero => simp at enough
    | succ fuel =>
      unfold scanWhile
      rw [Code.bind_of_ok (peek_cons here)]
      by_cases stay : stays ch = true
      · rw [if_pos stay, List.dropWhile_cons, if_pos stay]
        have moved : ∀ after : Lexer, after.source = self.source → after.sourceIndex = self.sourceIndex + 1 →
            Goes False (Reaches .plain .plain (ch :: rest) (rest.dropWhile stays).length) (scanWhile stays adds fuel after) := by
          intro after source index
          refine (ih (here.next source index) (by simpa using enough)).mono id ?_
          rintro last ⟨rest', there, bound, settled⟩
          exact ⟨rest', there, bound, settled.trans (ordinary ch stay rest).symm⟩
        cases adds with
        | true => exact moved _ rfl rfl
        | false => exact moved _ rfl rfl
      · rw [if_neg stay, List.dropWhile_cons, if_neg stay]
        exact ⟨ch :: rest, here, Nat.le_refl _, rfl⟩

theorem singleQuotedLoop_goes (here : At self rest) (enough : rest.length < fuel) :
    Goes False (Reaches .singleQuoted .plain rest rest.length) (singleQuotedLoop fuel self) := by
  induction rest generalizing self fuel with
  | nil =>
    cases fuel with
    | zero => simp at enough
    | succ fuel =>
      unfold singleQuotedLoop
      rw [Code.bind_of_ok (peek_nil here)]
      exact ⟨[], here.same rfl rfl, Nat.le_refl _, rfl⟩
  | cons ch rest ih =>
    cases fuel with
    | zero => simp at enough
    | succ fuel =>
      unfold singleQuotedLoop
      rw [Code.bind_of_ok (peek_cons here), if_neg here.ne_nul]
      by_cases closes : ch = 39
      · rw [if_pos closes]
        refine ⟨rest, here.next rfl rfl, Nat.le_succ _, ?_⟩
        exact (if_pos closes).symm
      · rw [if_neg closes]
        refine Goes.mono (ih (here.next rfl rfl) (by simpa using enough)) id ?_
        rintro after ⟨rest', there, bound, settled⟩
        exact ⟨rest', there, Nat.le_succ_of_le bound, settled.trans (if_neg closes).symm⟩

/-! ## Escapes -/

theorem doubleQuoted_cons {ch : UInt8} (other : ch ≠ 34 ∧ ch ≠ 92) :
    settles .doubleQuoted (ch :: rest) = settles .doubleQuoted rest := by
  rw [settles.eq_def]
  simp only [if_neg other.1, if_neg other.2]

theorem doubleQuoted_quote : settles .doubleQuoted (34 :: rest) = settles .plain rest := by
  rw [settles.eq_def]
  rfl

/-- The rounds of a loop that takes up digits. -/
structure TakesDigits (loop : Nat → Nat → Lexing Nat) (isDigit : UInt8 → Bool) (taken : Nat → UInt8 → Nat) : Prop where
  last : ∀ val, loop 0 val = pure val
  round : ∀ count val, loop (count + 1) val = do
    let ch ← peek 0
    if isDigit ch then
      advance
      loop count (taken val ch)
    else pure val

theorem octalLoop_takes :
    TakesDigits octalLoop (fun ch => !decide (ch < 48 ∨ 55 < ch)) fun val ch => val * 8 + (ch.toNat - 48) where
  last _ := rfl
  round count val := by
    refine congrArg (peek 0 >>= ·) (funext fun ch => ?_)
    by_cases stops : ch < 48 ∨ 55 < ch
    · simp [stops]
    · simp [stops]

theorem hexLoop_takes : TakesDigits hexLoop isxdigit fun val ch => val * 16 + hexDigit ch := ⟨fun _ => rfl, fun _ _ => rfl⟩

theorem TakesDigits.goes {loop : Nat → Nat → Lexing Nat} {isDigit : UInt8 → Bool} {taken : Nat → UInt8 → Nat} {count val : Nat}
    (takes : TakesDigits loop isDigit taken) (others : isDigit 0 = false ∧ isDigit 34 = false ∧ isDigit 92 = false)
    (here : At self rest) :
    Goes False (Reaches .doubleQuoted .doubleQuoted rest rest.length) (loop count val self) := by
  induction count generalizing self rest val with
  | zero =>
    rw [takes.last]
    exact ⟨rest, here, Nat.le_refl _, rfl⟩
  | succ count ih =>
    rw [takes.round]
    cases rest with
    | nil =>
      rw [Code.bind_of_ok (peek_nil here), others.1]
      exact ⟨[], here, Nat.le_refl _, rfl⟩
    | cons ch rest =>
      rw [Code.bind_of_ok (peek_cons here)]
      by_cases digit : isDigit ch = true
      · rw [if_pos digit]
        refine Goes.mono (ih (here.next rfl rfl)) id ?_
        rintro after ⟨rest', there, bound, settled⟩
        have other : ch ≠ 34 ∧ ch ≠ 92 := by
          constructor
          · rintro rfl
            exact Bool.false_ne_true (others.2.1.symm.trans digit)
          · rintro rfl
            exact Bool.false_ne_true (others.2.2.symm.trans digit)
        exact ⟨rest', there, Nat.le_succ_of_le bound, settled.trans (doubleQuoted_cons other).symm⟩
      · rw [if_neg digit]
        exact ⟨ch :: rest, here, Nat.le_refl _, rfl⟩

theorem escapeOf_nul : ∀ ch, escapeOf ch = .nul → ch = 0 := forall_byte (by decide +kernel)

theorem escapeOf_octal {ch : UInt8} (octal : escapeOf ch = .octal) : ch ≠ 34 ∧ ch ≠ 92 := by
  constructor
  · rintro rfl
    exact absurd octal (by decide)
  · rintro rfl
    exact absurd octal (by decide)

theorem eq_cons_of_headD {next : UInt8} (head : rest.headD 0 = next) (some : next ≠ 0) :
    ∃ rest', rest = next :: rest' := by
  cases rest with
  | nil => exact absurd head.symm some
  | cons ch rest => exact ⟨rest, by rw [← head]; rfl⟩

theorem scanEscapeSequence_goes (here : At self rest) :
    Goes False (Reaches .doubleQuoted .doubleQuoted (92 :: rest) rest.length) (scanEscapeSequence self) := by
  unfold scanEscapeSequence
  cases rest with
  | nil =>
    rw [Code.bind_of_ok (peek_nil here)]
    exact ⟨[], here.same rfl rfl, Nat.le_refl _, rfl⟩
  | cons ch rest =>
    rw [Code.bind_of_ok (peek_cons here)]
    cases kind : escapeOf ch with
    | plain ch' => exact ⟨rest, here.next rfl rfl, Nat.le_succ _, rfl⟩
    | octal =>
      refine Goes.bind (octalLoop_takes.goes (by decide) here) ?_
      rintro val after ⟨rest', there, bound, settled⟩
      exact ⟨rest', there.same rfl rfl, bound, settled.trans (doubleQuoted_cons (escapeOf_octal kind))⟩
    | hex =>
      refine Goes.advance_bind fun after source index => ?_
      refine Goes.bind (hexLoop_takes.goes (by decide) (here.next source index)) ?_
      rintro val after ⟨rest', there, bound, settled⟩
      exact ⟨rest', there.same rfl rfl, Nat.le_succ_of_le bound, settled⟩
    | nul => exact absurd (escapeOf_nul ch kind) here.ne_nul
    | newline => exact ⟨rest, here.next rfl rfl, Nat.le_succ _, rfl⟩
    | unexpected => exact ⟨rest, here.next rfl rfl, Nat.le_succ _, rfl⟩
    | carriageReturn =>
      dsimp only
      rw [Code.bind_of_ok (peek_cons_one here)]
      by_cases lineFeed : rest.headD 0 ≠ 10
      · rw [if_pos lineFeed]
        exact ⟨rest, here.next rfl rfl, Nat.le_succ _, rfl⟩
      · obtain ⟨rest', rfl⟩ := eq_cons_of_headD (not_not.mp lineFeed) (by decide)
        have second : At { self with sourceIndex := self.sourceIndex + 1 } (10 :: rest') := here.next rfl rfl
        refine ⟨rest', second.next rfl rfl, ?_, ?_⟩
        · simp only [List.length_cons]
          omega
        · exact (doubleQuoted_cons (by decide)).symm

theorem doubleQuotedLoop_goes (here : At self rest) (enough : rest.length < fuel) :
    Goes False (Reaches .doubleQuoted .plain rest rest.length) (doubleQuotedLoop fuel self) := by
  induction fuel generalizing self rest with
  | zero => simp at enough
  | succ fuel ih =>
    unfold doubleQuotedLoop
    cases rest with
    | nil =>
      rw [Code.bind_of_ok (peek_nil here)]
      exact ⟨[], here.same rfl rfl, Nat.le_refl _, rfl⟩
    | cons ch rest =>
      have shorter : rest.length < fuel := by simpa using enough
      rw [Code.bind_of_ok (peek_cons here), if_neg here.ne_nul]
      by_cases closes : ch = 34
      · rw [if_pos closes]
        refine ⟨rest, here.next rfl rfl, Nat.le_succ _, ?_⟩
        rw [closes, doubleQuoted_quote]
      · rw [if_neg closes]
        by_cases escape : ch = 92
        · rw [if_pos escape, escape]
          refine Goes.advance_bind fun after source index => ?_
          refine Goes.bind (scanEscapeSequence_goes (here.next source index)) ?_
          rintro _ after ⟨rest', there, bound, settled⟩
          refine Goes.mono (ih there (by omega)) id ?_
          rintro last ⟨rest'', there', bound', settled'⟩
          exact ⟨rest'', there', by simp only [List.length_cons]; omega, settled'.trans settled⟩
        · rw [if_neg escape]
          refine Goes.mono (ih (here.next rfl rfl) shorter) id ?_
          rintro after ⟨rest', there, bound, settled⟩
          exact ⟨rest', there, Nat.le_succ_of_le bound, settled.trans (doubleQuoted_cons ⟨closes, escape⟩).symm⟩

theorem scanQuotedCharacter_goes (here : At self rest) :
    Goes False (Reaches .plain .plain (92 :: rest) rest.length) (scanQuotedCharacter self) := by
  unfold scanQuotedCharacter
  cases rest with
  | nil =>
    rw [Code.bind_of_ok (peek_nil here)]
    exact ⟨[], here.same rfl rfl, Nat.le_refl _, rfl⟩
  | cons ch rest =>
    rw [Code.bind_of_ok (peek_cons here), if_neg here.ne_nul]
    by_cases isReturn : ch = 13
    · rw [if_pos isReturn, Code.bind_of_ok (peek_cons_one here)]
      by_cases lineFeed : rest.headD 0 ≠ 10
      · rw [if_pos lineFeed]
        exact ⟨rest, here.next rfl rfl, Nat.le_succ _, rfl⟩
      · obtain ⟨rest', rfl⟩ := eq_cons_of_headD (not_not.mp lineFeed) (by decide)
        have second : At { self with sourceIndex := self.sourceIndex + 1 } (10 :: rest') := here.next rfl rfl
        refine ⟨rest', second.next rfl rfl, ?_, rfl⟩
        simp only [List.length_cons]
        omega
    · rw [if_neg isReturn]
      by_cases lineFeed : ch = 10
      · rw [if_pos lineFeed]
        exact ⟨rest, here.next rfl rfl, Nat.le_succ _, rfl⟩
      · rw [if_neg lineFeed]
        exact ⟨rest, here.next rfl rfl, Nat.le_succ _, rfl⟩

/-- A comment goes on to its line feed, or behind the text when there is none. -/
theorem commentLoop_goes (here : At self rest) (enough : rest.length + 1 < fuel) :
    Goes (settles .comment rest = false) (Reaches .comment .plain rest rest.length) (commentLoop fuel self) := by
  induction rest generalizing self fuel with
  | nil =>
    obtain ⟨fuel, rfl⟩ : ∃ less, fuel = less + 2 := ⟨fuel - 2, by omega⟩
    have length := here.length
    rw [List.length_nil] at length
    unfold commentLoop
    rw [Code.bind_of_ok (peek_nil here)]
    change Goes _ _ (commentLoop (fuel + 1) _)
    unfold commentLoop
    have outside : peek 0 { self with sourceIndex := self.sourceIndex + 1, column := self.column + 1 } = .fault := by
      exact if_neg (by simp only; omega)
    rw [Code.bind_of_fault outside]
    rfl
  | cons ch rest ih =>
    cases fuel with
    | zero => simp at enough
    | succ fuel =>
      have shorter : rest.length + 1 < fuel := by simpa using enough
      -- behind a character that is no line feed
      have goesOn : ch ≠ 10 → ∀ after : Lexer, after.source = self.source →
          after.sourceIndex = self.sourceIndex + 1 → Goes (settles .comment (ch :: rest) = false)
            (Reaches .comment .plain (ch :: rest) (ch :: rest).length) (commentLoop fuel after) := by
        intro other after source index
        have same : settles .comment (ch :: rest) = settles .comment rest := if_neg other
        refine (ih (here.next source index) shorter).mono (same ▸ id) ?_
        rintro last ⟨rest', there, bound, settled⟩
        exact ⟨rest', there, Nat.le_succ_of_le bound, settled.trans same.symm⟩
      unfold commentLoop
      rw [Code.bind_of_ok (peek_cons here)]
      by_cases lineFeed : ch = 10
      · rw [if_pos lineFeed]
        refine ⟨ch :: rest, here, Nat.le_refl _, ?_⟩
        rw [lineFeed]
        rfl
      · rw [if_neg lineFeed]
        by_cases isReturn : ch = 13
        · rw [if_pos isReturn, Code.bind_of_ok (peek_cons_one here)]
          by_cases follows : rest.headD 0 = 10
          · obtain ⟨rest', rfl⟩ := eq_cons_of_headD follows (by decide)
            refine ⟨ch :: 10 :: rest', here, Nat.le_refl _, ?_⟩
            rw [isReturn]
            exact ite_self _
          · rw [if_neg follows]
            exact goesOn lineFeed _ rfl rfl
        · rw [if_neg isReturn]
          exact goesOn lineFeed _ rfl rfl

end Scanning

/-! ## Tokens -/

section Tokens
variable {self : Lexer} {ch : UInt8} {rest : List UInt8} {fuel : Nat}

/-- Behind a token the lexer is further on, or at the end of the text. -/
def Passes (rest : List UInt8) (after : Lexer) : Prop :=
  ∃ rest', At after rest' ∧ settles .plain rest' = settles .plain rest ∧
    (after.t.id = .eof → rest' = []) ∧ (after.t.id ≠ .eof → rest'.length < rest.length)

variable {id : TokenId} {u : TokenValue} {stuck : Prop} {rest' : List UInt8} {stays : UInt8 → Bool}

theorem endToken_goes {length : Nat} (here : At self rest) :
    Goes False (fun after => At after rest ∧ after.t.id = id) (endToken id u length self) := by
  have peeks : ∃ next, peek 0 self = .ok next self := ⟨_, peek_inside here (Nat.zero_le _)⟩
  obtain ⟨next, peeks⟩ := peeks
  unfold endToken hasTrailingWhitespace
  simp only [Code.bind_apply, peeks]
  exact ⟨here.same rfl rfl, rfl⟩

theorem endToken_passes {length : Nat}
    (some : id ≠ .eof) (here : At self rest') (settled : settles .plain rest' = settles .plain rest)
    (shorter : rest'.length < rest.length) : Goes stuck (Passes rest) (endToken id u length self) := by
  refine (endToken_goes here).mono False.elim ?_
  rintro after ⟨there, same⟩
  exact ⟨rest', there, settled, fun ends => absurd (same.symm.trans ends) some, fun _ => shorter⟩

theorem endTextToken_passes (some : id ≠ .eof) (here : At self rest')
    (settled : settles .plain rest' = settles .plain rest) (shorter : rest'.length < rest.length) :
    Goes stuck (Passes rest) (endTextToken id self) :=
  endToken_passes some here settled shorter

/-- The characters that have a case of their own. -/
structure LeadChars (ch : UInt8) : Prop where
  nul : leadOf ch = .nul → ch = 0
  hash : leadOf ch = .hash → ch = 35
  carriageReturn : leadOf ch = .carriageReturn → ch = 13
  singleQuote : leadOf ch = .singleQuote → ch = 39
  doubleQuote : leadOf ch = .doubleQuote → ch = 34
  backslash : leadOf ch = .backslash → ch = 92

theorem leadChars (ch : UInt8) : LeadChars ch := by
  have each : ∀ ch : UInt8, (leadOf ch = .nul → ch = 0) ∧ (leadOf ch = .hash → ch = 35) ∧
      (leadOf ch = .carriageReturn → ch = 13) ∧ (leadOf ch = .singleQuote → ch = 39) ∧
      (leadOf ch = .doubleQuote → ch = 34) ∧ (leadOf ch = .backslash → ch = 92) :=
    forall_byte (by decide +kernel)
  obtain ⟨nul, hash, carriageReturn, singleQuote, doubleQuote, backslash⟩ := each ch
  exact ⟨nul, hash, carriageReturn, singleQuote, doubleQuote, backslash⟩

theorem leadOf_punctuation : ∀ ch, leadOf ch ≠ .punctuation .eof := forall_byte (by decide +kernel)

theorem plain_ordinary (other : ch ≠ 35 ∧ ch ≠ 39 ∧ ch ≠ 34 ∧ ch ≠ 92 ∧ ch ≠ 13) : Ordinary ch := by
  intro rest
  rw [settles.eq_def]
  obtain ⟨hash, singleQuote, doubleQuote, backslash, carriageReturn⟩ := other
  cases lead : leadOf ch with
  | hash => exact absurd ((leadChars ch).hash lead) hash
  | singleQuote => exact absurd ((leadChars ch).singleQuote lead) singleQuote
  | doubleQuote => exact absurd ((leadChars ch).doubleQuote lead) doubleQuote
  | backslash => exact absurd ((leadChars ch).backslash lead) backslash
  | carriageReturn => exact absurd ((leadChars ch).carriageReturn lead) carriageReturn
  | nul => simp only [lead]
  | blank => simp only [lead]
  | newline => simp only [lead]
  | punctuation id => simp only [lead]
  | dollar => simp only [lead]
  | other => simp only [lead]

theorem ordinary_of_class
    (special : stays 35 = false ∧ stays 39 = false ∧ stays 34 = false ∧ stays 92 = false ∧ stays 13 = false)
    (stay : stays ch = true) : Ordinary ch := by
  obtain ⟨hash, singleQuote, doubleQuote, backslash, carriageReturn⟩ := special
  have other : ∀ v, stays v = false → ch ≠ v := by
    rintro v leaves rfl
    rw [leaves] at stay
    simp at stay
  exact plain_ordinary ⟨other _ hash, other _ singleQuote, other _ doubleQuote, other _ backslash, other _ carriageReturn⟩

/-- A loop over a class of ordinary characters, behind one that it takes. -/
theorem scanWhile_reaches {adds : Bool}
    (special : stays 35 = false ∧ stays 39 = false ∧ stays 34 = false ∧ stays 92 = false ∧ stays 13 = false)
    (ends : stays 0 = false) (here : At self rest) :
    Goes False (Reaches .plain .plain rest (rest.dropWhile stays).length)
      (scanWhile stays adds (self.source.length + 2) self) := by
  have length := here.length
  exact scanWhile_goes ends (fun _ => ordinary_of_class special) here (by omega)

theorem length_dropWhile_cons (stay : stays ch = true) :
    ((ch :: rest).dropWhile stays).length ≤ rest.length := by
  rw [List.dropWhile_cons, if_pos stay]
  exact (List.dropWhile_sublist stays).length_le

theorem skipWhitespace_goes (here : At self (ch :: rest)) (blank : leadOf ch = .blank) :
    Goes False (Reaches .plain .plain (ch :: rest) rest.length) (skipWhitespace self) := by
  have stays : ∀ ch, leadOf ch = .blank → (!(ch != 32 && ch != 9 && ch != 11 && ch != 12)) = true :=
    forall_byte (by decide +kernel)
  refine (Goes.rounds_bind (scanWhile_reaches (by decide) (by decide) here)).mono id ?_
  rintro after ⟨rest', there, bound, settled⟩
  exact ⟨rest', there, Nat.le_trans bound (length_dropWhile_cons (stays ch blank)), settled⟩

theorem scanMorpheme_goes (here : At self (ch :: rest)) (stay : isMorphemeChar ch = true) :
    Goes False (Reaches .plain .plain (ch :: rest) rest.length) (scanMorpheme self) := by
  have cleared : At { self with textBuffer := [] } (ch :: rest) := here.same rfl rfl
  refine Goes.mono (Goes.rounds_bind (scanWhile_reaches (by decide) (by decide) cleared)) id ?_
  rintro after ⟨rest', there, bound, settled⟩
  exact ⟨rest', there, Nat.le_trans bound (length_dropWhile_cons stay), settled⟩

theorem scanVariableName_goes (here : At self rest) :
    Goes False (Reaches .plain .plain rest rest.length) (scanVariableName self) := by
  have cleared : At { self with textBuffer := [] } rest := here.same rfl rfl
  refine Goes.mono (Goes.rounds_bind (scanWhile_reaches (by decide) (by decide) cleared)) id ?_
  rintro after ⟨rest', there, bound, settled⟩
  exact ⟨rest', there, Nat.le_trans bound (List.dropWhile_sublist _).length_le, settled⟩

theorem scanSingleQuotedString_goes (here : At self rest) :
    Goes False (Reaches .singleQuoted .plain rest rest.length) (scanSingleQuotedString self) := by
  have cleared : At { self with textBuffer := [] } rest := here.same rfl rfl
  have length := here.length
  exact Goes.rounds_bind (singleQuotedLoop_goes cleared (by simp only; omega))

theorem scanDoubleQuotedString_goes (here : At self rest) :
    Goes False (Reaches .doubleQuoted .plain rest rest.length) (scanDoubleQuotedString self) := by
  have cleared : At { self with textBuffer := [] } rest := here.same rfl rfl
  have length := here.length
  exact Goes.rounds_bind (doubleQuotedLoop_goes cleared (by simp only; omega))

/-- A comment takes its first character at least. -/
theorem skipEndOfLineComment_goes (here : At self (35 :: rest)) :
    Goes (settles .comment rest = false) (Reaches .comment .plain rest rest.length) (skipEndOfLineComment self) := by
  have length := here.length
  rw [List.length_cons] at length
  refine Goes.rounds_bind ?_
  unfold commentLoop
  rw [Code.bind_of_ok (peek_cons here)]
  refine Goes.advance_bind fun after source index => ?_
  exact commentLoop_goes (here.next source index) (by omega)

theorem plain_quote {mode : Mode} {lead : Lead} (is : leadOf ch = lead)
    (opens : lead = .hash ∧ mode = .comment ∨ lead = .singleQuote ∧ mode = .singleQuoted ∨
      lead = .doubleQuote ∧ mode = .doubleQuoted) : settles .plain (ch :: rest) = settles mode rest := by
  rw [settles.eq_def]
  obtain ⟨rfl, rfl⟩ | ⟨rfl, rfl⟩ | ⟨rfl, rfl⟩ := opens
  · simp only [is]
  · simp only [is]
  · simp only [is]

theorem plain_carriageReturn {next : UInt8} :
    settles .plain (13 :: next :: rest) =
      if rest.head? = some 10 then settles .plain rest else settles .plain (next :: rest) := rfl

theorem consumeLoop_goes (here : At self rest) (enough : rest.length < fuel) :
    Goes (settles .plain rest = false) (Passes rest) (consumeLoop fuel self) := by
  induction fuel generalizing self rest with
  | zero => simp at enough
  | succ fuel ih =>
    unfold consumeLoop
    cases rest with
    | nil =>
      rw [Code.bind_of_ok (peek_nil here)]
      exact ⟨[], here.same rfl rfl, rfl, fun _ => rfl, fun other => absurd rfl other⟩
    | cons ch rest =>
      have behind : rest.length < (ch :: rest).length := Nat.lt_succ_self _
      -- another round of the loop
      have again : ∀ after, Reaches .plain .plain (ch :: rest) rest.length after →
          Goes (settles .plain (ch :: rest) = false) (Passes (ch :: rest)) (consumeLoop fuel after) := by
        rintro after ⟨rest', there, bound, settled⟩
        refine (ih there (by omega)).mono (settled ▸ id) ?_
        rintro last ⟨rest'', there', settled', ends, passed⟩
        exact ⟨rest'', there', settled'.trans settled, ends, fun other => by have := passed other; omega⟩
      -- the end of a token with a string
      have ends : ∀ id, id ≠ .eof → ∀ after, Reaches .plain .plain (ch :: rest) rest.length after →
          Goes (settles .plain (ch :: rest) = false) (Passes (ch :: rest)) (endTextToken id after) := by
        rintro id some after ⟨rest', there, bound, settled⟩
        exact endTextToken_passes some there settled (Nat.lt_of_le_of_lt bound behind)
      rw [Code.bind_of_ok (peek_cons here)]
      cases lead : leadOf ch with
      | nul => exact absurd ((leadChars ch).nul lead) here.ne_nul
      | blank =>
        refine Goes.bind ((skipWhitespace_goes here lead).mono False.elim fun _ => id) ?_
        exact fun _ after reached => again after reached
      | hash =>
        have same : settles .plain (ch :: rest) = settles .comment rest := plain_quote lead (.inl ⟨rfl, rfl⟩)
        have isHash := (leadChars ch).hash lead
        refine Goes.bind ((skipEndOfLineComment_goes (isHash ▸ here)).mono (same ▸ id) fun _ => id) ?_
        rintro _ after ⟨rest', there, bound, settled⟩
        exact again after ⟨rest', there, bound, settled.trans same.symm⟩
      | carriageReturn =>
        have isReturn := (leadChars ch).carriageReturn lead
        subst isReturn
        have first : At { self with sourceIndex := self.sourceIndex + 1, column := 1 } rest := here.next rfl rfl
        change Goes _ _ ((peek 1 >>= fun next => if next ≠ 10 then consumeLoop fuel else endLine 2)
          { self with sourceIndex := self.sourceIndex + 1, column := 1 })
        cases rest with
        | nil =>
          rw [Code.bind_of_fault (peek_outside first)]
          rfl
        | cons next rest =>
          rw [Code.bind_of_ok (peek_cons_one first)]
          by_cases lineFeed : rest.headD 0 ≠ 10
          · rw [if_pos lineFeed]
            refine again _ ⟨next :: rest, first, Nat.le_refl _, ?_⟩
            rw [plain_carriageReturn, if_neg]
            intro head
            cases rest with
            | nil => simp at head
            | cons second rest => exact lineFeed (Option.some.inj head)
          · obtain ⟨rest', rfl⟩ := eq_cons_of_headD (not_not.mp lineFeed) (by decide)
            refine endToken_passes (by decide) (first.next rfl rfl) rfl ?_
            simp only [List.length_cons]
            omega
      | newline =>
        refine endToken_passes (by decide) (here.next rfl rfl) (plain_ordinary ?_ rest).symm behind
        refine ⟨?_, ?_, ?_, ?_, ?_⟩
        all_goals
          rintro rfl
          exact absurd lead (by decide)
      | punctuation id =>
        have some : id ≠ .eof := by
          rintro rfl
          exact leadOf_punctuation ch lead
        refine Goes.advance_bind fun after source index => ?_
        refine endToken_passes some (here.next source index) (plain_ordinary ?_ rest).symm behind
        refine ⟨?_, ?_, ?_, ?_, ?_⟩
        all_goals
          rintro rfl
          exact absurd lead (by simp [leadOf])
      | dollar =>
        have same : settles .plain (ch :: rest) = settles .plain rest := by
          refine plain_ordinary ⟨?_, ?_, ?_, ?_, ?_⟩ rest
          all_goals
            rintro rfl
            exact absurd lead (by decide)
        refine Goes.advance_bind fun after source index => ?_
        refine Goes.bind ((scanVariableName_goes (here.next source index)).mono False.elim fun _ => id) ?_
        rintro _ last ⟨rest', there, bound, settled⟩
        exact ends _ (by decide) last ⟨rest', there, bound, settled.trans same.symm⟩
      | singleQuote =>
        have same : settles .plain (ch :: rest) = settles .singleQuoted rest := plain_quote lead (.inr (.inl ⟨rfl, rfl⟩))
        refine Goes.advance_bind fun after source index => ?_
        refine Goes.bind ((scanSingleQuotedString_goes (here.next source index)).mono False.elim fun _ => id) ?_
        rintro _ last ⟨rest', there, bound, settled⟩
        exact ends _ (by decide) last ⟨rest', there, bound, settled.trans same.symm⟩
      | doubleQuote =>
        have same : settles .plain (ch :: rest) = settles .doubleQuoted rest := plain_quote lead (.inr (.inr ⟨rfl, rfl⟩))
        refine Goes.advance_bind fun after source index => ?_
        refine Goes.bind ((scanDoubleQuotedString_goes (here.next source index)).mono False.elim fun _ => id) ?_
        rintro _ last ⟨rest', there, bound, settled⟩
        exact ends _ (by decide) last ⟨rest', there, bound, settled.trans same.symm⟩
      | backslash =>
        have isBackslash := (leadChars ch).backslash lead
        subst isBackslash
        refine Goes.advance_bind fun after source index => ?_
        have cleared : At { after with textBuffer := [] } rest := (here.next source index).same rfl rfl
        refine Goes.modify_bind ?_
        refine Goes.bind ((scanQuotedCharacter_goes cleared).mono False.elim fun _ => id) ?_
        intro _ last reached
        change Goes _ _ ((if last.textBuffer = [10] then consumeLoop fuel else endTextToken .quotedCharacter) last)
        by_cases continues : last.textBuffer = [10]
        · rw [if_pos continues]
          exact again last reached
        · rw [if_neg continues]
          exact ends _ (by decide) last reached
      | other =>
        by_cases morpheme : isMorphemeChar ch = true
        · rw [if_pos morpheme]
          refine Goes.bind ((scanMorpheme_goes here morpheme).mono False.elim fun _ => id) ?_
          exact fun _ after reached => ends _ (by decide) after reached
        · rw [if_neg morpheme]
          have same : settles .plain (ch :: rest) = settles .plain rest := by
            refine plain_ordinary ⟨?_, ?_, ?_, ?_, ?_⟩ rest
            all_goals
              rintro rfl
              exact absurd lead (by decide)
          refine Goes.advance_bind fun after source index => ?_
          exact endToken_passes (by decide) (here.next source index) same.symm behind

theorem consumeToken_goes (here : At self rest) :
    Goes (settles .plain rest = false) (Passes rest) (consumeToken self) := by
  have length := here.length
  change Goes _ _ (consumeLoop (self.source.length + 2) _)
  exact consumeLoop_goes (here.same rfl rfl) (by omega)

end Tokens

/-! ## Rules -/

def Lexer.left (self : Lexer) : Nat :=
  self.source.length - self.sourceIndex + if self.t.id = .eof then 0 else 1

/-- The lexer is inside of its text, and what is left of the text settles as the text did. -/
def Good (settled : Bool) (self : Lexer) : Prop :=
  ∃ rest, At self rest ∧ settles .plain rest = settled ∧ (self.t.id = .eof → rest = [])

/-- The lexer has not gone back, and has gone on unless it was at the end. -/
structure Onward (settled : Bool) (before after : Lexer) : Prop where
  good : Good settled after
  le : after.left ≤ before.left
  lt : 0 < before.left → after.left < before.left

section Rules
variable {settled : Bool} {self after : Lexer} {fuel bound : Nat}

theorem Good.left_pos (good : Good settled self) : 0 < self.left ↔ self.t.id ≠ .eof := by
  obtain ⟨rest, here, -, ends⟩ := good
  have length := here.length
  unfold Lexer.left
  constructor
  · intro positive isEof
    rw [if_pos isEof, ← length, ends isEof] at positive
    exact absurd positive (by simp)
  · intro other
    rw [if_neg other]
    omega

theorem Good.same (good : Good settled self) (source : after.source = self.source)
    (index : after.sourceIndex = self.sourceIndex) (token : after.t = self.t) :
    Good settled after ∧ after.left = self.left := by
  obtain ⟨rest, here, same, ends⟩ := good
  refine ⟨⟨rest, here.same source index, same, ?_⟩, ?_⟩
  · rw [token]
    exact ends
  · unfold Lexer.left
    rw [source, index, token]

theorem printf_goes {stuck : Prop} (good : Good settled self) (message : String) :
    Goes stuck (fun after => Good settled after ∧ after.left = self.left) (printf message self) :=
  good.same rfl rfl rfl

theorem left_le : self.left ≤ self.source.length + 1 := by
  unfold Lexer.left
  split <;> omega

theorem consumeToken_onward (good : Good settled self) :
    Goes (settled = false) (Onward settled self) (consumeToken self) := by
  obtain ⟨rest, here, same, ends⟩ := good
  refine (consumeToken_goes here).mono (same ▸ id) ?_
  rintro after ⟨rest', there, same', ends', passed⟩
  have length := here.length
  have length' := there.length
  have good' : Good settled after := ⟨rest', there, same'.trans same, ends'⟩
  by_cases isEof : after.t.id = .eof
  · have none : after.left = 0 := by
      unfold Lexer.left
      rw [if_pos isEof, ← length', ends' isEof]
      rfl
    exact ⟨good', by omega, by omega⟩
  · have shorter := passed isEof
    have some : self.t.id ≠ .eof := by
      intro atEnd
      rw [ends atEnd] at shorter
      simp at shorter
    have count : self.left = self.source.length - self.sourceIndex + 1 := by
      unfold Lexer.left
      rw [if_neg some]
    have count' : after.left = after.source.length - after.sourceIndex + 1 := by
      unfold Lexer.left
      rw [if_neg isEof]
    exact ⟨good', by omega, by omega⟩

theorem Goes.getToken_bind {β : Type} {stuck : Prop} {post : Lexer → Prop} {next : Token → Lexing β}
    (rest : Goes stuck post (next self.t self)) : Goes stuck post ((getToken >>= next) self) := rest

theorem Onward.trans {middle : Lexer} (first : Onward settled self middle) (second : Onward settled middle after) :
    Onward settled self after := by
  have le := first.le
  have lt := first.lt
  have le' := second.le
  exact ⟨second.good, by omega, by omega⟩

theorem skipLoop_onward (good : Good settled self) (enough : self.left < fuel) :
    Goes (settled = false) (Onward settled self) (skipLoop fuel self) := by
  induction fuel generalizing self with
  | zero => simp at enough
  | succ fuel ih =>
    refine Goes.bind (consumeToken_onward good) ?_
    intro _ after onward
    have goesOn : after.t.id ≠ .eof → Goes (settled = false) (Onward settled self) (skipLoop fuel after) := by
      intro other
      have positive := onward.good.left_pos.mpr other
      have le := onward.le
      have lt := onward.lt (by omega)
      exact (ih onward.good (by omega)).mono id fun last => onward.trans
    refine Goes.getToken_bind ?_
    by_cases ends : after.t.id.endsSkip = true
    · rw [if_pos ends]
      exact onward
    · rw [if_neg ends]
      apply goesOn
      intro atEnd
      rw [atEnd] at ends
      exact ends rfl

theorem skipUntilStartOfNextSentence_onward (good : Good settled self) :
    Goes (settled = false) (Onward settled self) (skipUntilStartOfNextSentence self) := by
  have bound := @left_le self
  exact Goes.rounds_bind (skipLoop_onward good (by omega))

/-- What a rule for nested blocks does, when there are fewer tokens than `bound`. -/
def Nests (settled : Bool) (bound : Nat) (parseNested : Lexing Block) : Prop :=
  ∀ self : Lexer, Good settled self → self.left < bound →
    Goes (settled = false) (fun after => Good settled after ∧ after.left ≤ self.left) (parseNested self)

variable {parseNested : Lexing Block} {isNested : Bool} {word : Word}

theorem nestedBlock_goes (nests : Nests settled bound parseNested) (good : Good settled self)
    (some : 0 < self.left) (small : self.left ≤ bound) :
    Goes (settled = false) (Onward settled self) (nestedBlock parseNested word self) := by
  refine Goes.bind (consumeToken_onward good) ?_
  intro _ first onward
  have fewer := onward.lt some
  refine Goes.bind (nests first onward.good (by omega)) ?_
  rintro block second ⟨good', le⟩
  -- whatever comes behind the block, the opening parenthesis is gone
  have passed : ∀ last, Onward settled second last → Onward settled self last := by
    intro last after
    have le' := after.le
    exact ⟨after.good, by omega, by omega⟩
  refine Goes.getToken_bind ?_
  by_cases closes : second.t.id = .closingParenthesis
  · rw [if_pos closes]
    refine Goes.bind (consumeToken_onward good') ?_
    exact fun _ last after => passed last after
  · rw [if_neg closes]
    by_cases ends : second.t.id = .eof
    · rw [if_pos ends]
      refine Goes.bind (printf_goes good' _) ?_
      rintro _ last ⟨good'', same⟩
      exact ⟨good'', by omega, by omega⟩
    · rw [if_neg ends]
      refine Goes.bind (printf_goes good' _) ?_
      rintro _ third ⟨good'', same⟩
      refine Goes.bind (skipUntilStartOfNextSentence_onward good'') ?_
      intro _ last after
      have le' := after.le
      exact ⟨after.good, by omega, by omega⟩

theorem wordToken_ends {next : Word → Lexing (Bool × Word)} (good : Good settled self) (some : 0 < self.left)
    (goesOn : ∀ word after, Good settled after → after.left < self.left → (next word after).Ends (settled = false)
      (fun result last => Good settled last ∧ last.left ≤ after.left ∧ (result.1 = true → 0 < last.left))
      fun _ _ => False) :
    (wordToken next word self).Ends (settled = false)
      (fun result last => Good settled last ∧ last.left ≤ self.left ∧ (result.1 = true → 0 < last.left) ∧
        (result.1 = false → last.left < self.left))
      fun _ _ => False := by
  have token : (getToken self).Ends (settled = false) (fun t last => t = self.t ∧ last = self) fun _ _ => False :=
    ⟨rfl, rfl⟩
  refine Code.ends_bind token ?_
  rintro t last ⟨is, same⟩
  rw [is, same]
  cases getMorphemeFromToken self.t.id with
  | none =>
    refine Code.ends_bind (printf_goes good _) ?_
    rintro _ last ⟨good', same⟩
    exact ⟨good', by omega, fun _ => by omega, Bool.noConfusion⟩
  | some type =>
    refine Code.ends_bind (consumeToken_onward good) ?_
    intro _ after onward
    have fewer := onward.lt some
    by_cases trailing : self.t.hasTrailingWhitespace = true
    · rw [if_pos trailing]
      exact ⟨onward.good, by omega, Bool.noConfusion, fun _ => fewer⟩
    · rw [if_neg trailing]
      refine Code.ends_mono (goesOn _ after onward.good fewer) ?_ fun _ _ => id
      rintro result last ⟨good', le, atError⟩
      exact ⟨good', by omega, atError, fun _ => by omega⟩

/-- Behind a word that does not start at a terminator and has no error there are fewer tokens; an error
is no end of the text. -/
theorem wordLoop_ends (nests : Nests settled bound parseNested) (good : Good settled self) (small : self.left ≤ bound)
    (enough : self.left < fuel) :
    (wordLoop parseNested isNested fuel word self).Ends (settled = false)
      (fun result last => Good settled last ∧ last.left ≤ self.left ∧ (result.1 = true → 0 < last.left) ∧
        (result.1 = false → self.t.id.endsSentence isNested = false → last.left < self.left))
      fun _ _ => False := by
  induction fuel generalizing self word with
  | zero => simp at enough
  | succ fuel ih =>
    unfold wordLoop
    rw [Code.bind_of_ok (rfl : getToken self = .ok self.t self)]
    by_cases opens : self.t.id = .openingParenthesis
    · rw [if_pos opens]
      have some : 0 < self.left := good.left_pos.mpr (by rw [opens]; decide)
      refine Code.ends_bind (nestedBlock_goes nests good some small) ?_
      intro word after onward
      have fewer := onward.lt some
      refine Code.ends_mono (ih onward.good (by omega) (by omega)) ?_ fun _ _ => id
      rintro result last ⟨good', le, atError, -⟩
      exact ⟨good', by omega, atError, fun _ _ => by omega⟩
    · rw [if_neg opens]
      by_cases ends : self.t.id.endsSentence isNested = true
      · rw [if_pos ends]
        refine ⟨good, Nat.le_refl _, Bool.noConfusion, fun _ other => ?_⟩
        rw [ends] at other
        exact absurd other (by decide)
      · rw [if_neg ends]
        have some : 0 < self.left := by
          refine good.left_pos.mpr fun atEnd => ends ?_
          rw [atEnd]
          rfl
        refine Code.ends_mono (wordToken_ends good some ?_) ?_ fun _ _ => id
        · intro word after good' fewer
          refine Code.ends_mono (ih good' (by omega) (by omega)) ?_ fun _ _ => id
          exact fun _ last rest => ⟨rest.1, rest.2.1, rest.2.2.1⟩
        · exact fun _ last rest => ⟨rest.1, rest.2.1, rest.2.2.1, fun noError _ => rest.2.2.2 noError⟩

/-- The words of a sentence: nothing is read when there are none, and tokens are gone otherwise. -/
theorem sentenceLoop_goes (nests : Nests settled bound parseNested) {words : List Word} (good : Good settled self)
    (small : self.left ≤ bound) (enough : self.left < fuel) :
    Goes (settled = false) (fun last => Good settled last ∧ last.left ≤ self.left ∧
        (self.t.id.endsSentence isNested = true → last = self) ∧
        (self.t.id.endsSentence isNested = false → last.left < self.left))
      (sentenceLoop parseNested isNested fuel words self) := by
  induction fuel generalizing self words with
  | zero => simp at enough
  | succ fuel ih =>
    unfold sentenceLoop
    rw [Code.bind_of_ok (rfl : isAtSentenceTerminator isNested self = .ok (self.t.id.endsSentence isNested) self)]
    by_cases ends : self.t.id.endsSentence isNested = true
    · rw [if_pos ends]
      refine ⟨good, Nat.le_refl _, fun _ => rfl, fun other => ?_⟩
      rw [ends] at other
      exact absurd other (by decide)
    · rw [if_neg ends]
      have isWord : self.t.id.endsSentence isNested = false := by simpa using ends
      have limit := @left_le self
      have enough' : self.left < self.source.length + 2 := by omega
      refine Code.ends_bind (wordLoop_ends nests good small enough') ?_
      rintro ⟨hasError, word⟩ after ⟨good', le, atError, fewer⟩
      cases hasError with
      | true =>
        refine Goes.bind (skipUntilStartOfNextSentence_onward good') ?_
        intro _ last onward
        have fewer := onward.lt (atError rfl)
        exact ⟨onward.good, by omega, fun other => absurd other ends, fun _ => by omega⟩
      | false =>
        have fewer := fewer rfl isWord
        refine (ih good' (by omega) (by omega)).mono id ?_
        rintro last ⟨good'', le', -, -⟩
        exact ⟨good'', by omega, fun other => absurd other ends, fun _ => by omega⟩

theorem parserSentence_goes (nests : Nests settled bound parseNested) (good : Good settled self)
    (small : self.left ≤ bound) (some : 0 < self.left) (inside : ¬(isNested ∧ self.t.id = .closingParenthesis)) :
    Goes (settled = false) (fun last => Good settled last ∧ last.left < self.left)
      (parserSentence parseNested isNested self) := by
  have limit := @left_le self
  refine Goes.rounds_bind ?_
  refine Goes.bind (sentenceLoop_goes nests good small (by omega)) ?_
  rintro words middle ⟨good', le, none, fewer⟩
  refine Goes.getToken_bind ?_
  by_cases closes : isNested ∧ middle.t.id = .closingParenthesis
  · rw [if_pos closes]
    refine ⟨good', fewer ?_⟩
    cases ends : self.t.id.endsSentence isNested with
    | true =>
      rw [none ends] at closes
      exact absurd closes inside
    | false => rfl
  · rw [if_neg closes]
    refine Goes.bind (consumeToken_onward good') ?_
    intro _ last onward
    refine ⟨onward.good, ?_⟩
    have le' := onward.le
    cases ends : self.t.id.endsSentence isNested with
    | true =>
      have lt := onward.lt
      rw [none ends] at lt
      exact lt some
    | false =>
      have fewer := fewer ends
      omega

theorem blockLoop_goes (nests : Nests settled bound parseNested) {block : Block} (good : Good settled self)
    (small : self.left ≤ bound) (enough : self.left < fuel) :
    Goes (settled = false) (fun last => Good settled last ∧ last.left ≤ self.left ∧
        (isNested = false → last.t.id = .eof)) (blockLoop parseNested isNested fuel block self) := by
  induction fuel generalizing self block with
  | zero => simp at enough
  | succ fuel ih =>
    refine Goes.getToken_bind ?_
    by_cases ends : self.t.id = .eof ∨ (isNested ∧ self.t.id = .closingParenthesis)
    · rw [if_pos ends]
      refine ⟨good, Nat.le_refl _, ?_⟩
      rintro rfl
      simpa using ends
    · rw [if_neg ends]
      have some := good.left_pos.mpr fun atEnd => ends (.inl atEnd)
      refine Goes.bind (parserSentence_goes nests good small some fun closes => ends (.inr closes)) ?_
      rintro sentence after ⟨good', fewer⟩
      refine (ih good' (by omega) (by omega)).mono id ?_
      rintro last ⟨good'', le, atEnd⟩
      exact ⟨good'', by omega, atEnd⟩

theorem parserBlock_goes {depth : Nat} (good : Good settled self) (enough : self.left < depth) :
    Goes (settled = false) (fun last => Good settled last ∧ last.left ≤ self.left ∧
        (isNested = false → last.t.id = .eof)) (parserBlock depth isNested self) := by
  induction depth generalizing self isNested with
  | zero => simp at enough
  | succ depth ih =>
    have nests : Nests settled depth (parserBlock depth true) := by
      intro self good fewer
      exact (ih good fewer).mono id fun last rest => ⟨rest.1, rest.2.1⟩
    have limit := @left_le self
    exact Goes.rounds_bind (blockLoop_goes nests good (by omega) (by omega))

end Rules

/-! ## The parser -/

/-- The parser never runs out of fuel: it returns, or it reads behind the NUL. -/
theorem parserParse_goes (self : Lexer) (text : Text) :
    Goes (settles .plain text.bytes = false) (fun _ => settles .plain text.bytes = true)
      (parserParse text.bytes self) := by
  have here : At { self with source := text.bytes, sourceIndex := 0 } text.bytes :=
    ⟨Nat.zero_le _, rfl, text.noNul⟩
  refine Goes.bind (consumeToken_goes here) ?_
  rintro _ first ⟨rest, there, settled, atEnd, -⟩
  have good : Good (settles .plain text.bytes) first := ⟨rest, there, settled, atEnd⟩
  have limit := @left_le first
  refine Goes.rounds_bind ?_
  refine Goes.bind (parserBlock_goes good (by omega)) ?_
  rintro block second ⟨⟨rest', -, settled', none⟩, -, ends⟩
  rw [none (ends rfl)] at settled'
  -- the empty text behind the parse
  have empty : At { second with source := [], sourceIndex := 0 } [] := ⟨Nat.le_refl _, rfl, List.not_mem_nil⟩
  refine Goes.bind (Goes.mono (consumeToken_goes empty) (fun never => absurd never (by decide)) fun _ => id) ?_
  exact fun _ _ _ => settled'.symm

/-- The parser returns and reads nothing behind the NUL, exactly for the texts that settle. -/
theorem parserParse_inside_iff (self : Lexer) (text : Text) :
    (∃ block after, parserParse text.bytes self = .ok block after) ↔ settles .plain text.bytes = true := by
  have ends := parserParse_goes self text
  cases outcome : parserParse text.bytes self with
  | ok block after =>
    rw [outcome] at ends
    exact ⟨fun _ => ends, fun _ => ⟨block, after, rfl⟩⟩
  | err error after =>
    rw [outcome] at ends
    exact ends.elim
  | fault =>
    rw [outcome] at ends
    have stuck : settles .plain text.bytes = false := ends
    rw [stuck]
    simp

def Lexer.init : Lexer :=
  ⟨[], 0, [], 1, 1, ⟨.eof, .nothing, 0, 0, 0, false⟩, []⟩

/-- The text `#`, a comment without a line feed. -/
def bareComment : Text := ⟨[35], by decide⟩

theorem bareComment_outside :
    ¬∃ block after, parserParse bareComment.bytes Lexer.init = .ok block after := by
  have outside : parserParse bareComment.bytes Lexer.init = .fault := rfl
  rw [outside]
  rintro ⟨block, after, never⟩
  simp at never

end Apollo.Shell
