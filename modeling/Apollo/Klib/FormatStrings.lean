import Mathlib.Data.List.TakeWhile
import Mathlib.Tactic.Common

/-!
# Reading format strings

`Formatter_vFormat` of the kernel and `__Formatter_vFormat` of the C library, as far as they read the
format string and take arguments.  A pointer into the format string is the rest of it with its NUL; there is
nothing to read behind that.
-/

set_option autoImplicit false

namespace Apollo.Klib

inductive LengthModifier
  | hh | h | none | l | ll | j | z | t | L
  deriving DecidableEq

def isDigit (ch : UInt8) : Bool := 0x30 ≤ ch && ch ≤ 0x39

/-- What the formatters differ in: the flags, the length modifiers beside `l` and `h`, how many arguments
`Formatter_FormatArgument` takes, and the conversions that are for an argument. -/
structure Formatter where
  isFlag : UInt8 → Bool
  lengthModifier : UInt8 → LengthModifier
  formatArgument : UInt8 → LengthModifier → Nat
  takes : UInt8 → Bool
  zero : isFlag 0x30 = true
  nul : lengthModifier 0 = .none
  digit : ∀ ch, isDigit ch = true → lengthModifier ch = .none

/-- The formatter of the kernel: `#` and `0`; `z`; `c`, `s`, `d`, `p`, and `o`, `x`, `X`, `u`, which leave the
argument alone behind `z`. -/
def kernelFormatter : Formatter where
  isFlag ch := ch = 0x23 || ch = 0x30
  lengthModifier ch := if ch = 0x7a then .z else .none
  formatArgument conversion modifier :=
    if conversion ∈ [0x63, 0x73, 0x64, 0x70] then 1
    else if conversion ∈ [0x6f, 0x78, 0x58, 0x75] then if modifier = .z then 0 else 1
    else 0
  takes conversion := conversion ∈ [0x63, 0x73, 0x64, 0x70, 0x6f, 0x78, 0x58, 0x75]
  zero := rfl
  nul := rfl
  digit ch digit := if_neg fun same => by subst same; cases digit

/-- The formatter of the C library: `-`, `+`, space, `#` and `0`; `j`, `z`, `t`, `L`; `c`, `s`, `d`, `i`, `o`, `x`,
`X`, `u`, `p`; `n`, which goes on with `p`; and the conversions of floating point numbers, which do nothing. -/
def libcFormatter : Formatter where
  isFlag ch := ch = 0x2d || ch = 0x2b || ch = 0x20 || ch = 0x23 || ch = 0x30
  lengthModifier ch :=
    if ch = 0x6a then .j else if ch = 0x7a then .z else if ch = 0x74 then .t else if ch = 0x4c then .L else .none
  formatArgument conversion _ :=
    if conversion ∈ [0x63, 0x73, 0x64, 0x69, 0x6f, 0x78, 0x58, 0x75, 0x70] then 1
    else if conversion = 0x6e then 2
    else 0
  takes conversion :=
    conversion ∈ [0x63, 0x73, 0x64, 0x69, 0x6f, 0x78, 0x58, 0x75, 0x70, 0x6e, 0x66, 0x46, 0x65, 0x45, 0x61, 0x41, 0x67, 0x47]
  zero := rfl
  nul := rfl
  digit ch digit := by
    rw [if_neg, if_neg, if_neg, if_neg] <;> rintro rfl <;> cases digit

/-! ## The code -/

/-- The digits of `atoi` and `strtol` with base 10; a number that is too large ends behind the digit that made it so. -/
def skipNumber : Nat → Nat → List UInt8 → Option (List UInt8)
  | _, _, [] => Option.none
  | val, i, ch :: rest =>
    if isDigit ch then
      let newVal := val * 10 + (ch.toNat - 0x30)
      if newVal > 2147483647 ∨ i > 10 then some rest else skipNumber newVal (i + 1) rest
    else some (ch :: rest)

/-- A width or a precision, and how many arguments are taken for it. -/
def parseCount (first : UInt8) : List UInt8 → Option (Nat × List UInt8)
  | [] => Option.none
  | ch :: rest =>
    if ch = 0x2a then some (1, rest)
    else if first ≤ ch ∧ ch ≤ 0x39 then (skipNumber 0 0 (ch :: rest)).map (0, ·)
    else some (0, ch :: rest)

def parsePrecision : List UInt8 → Option (Nat × List UInt8)
  | [] => Option.none
  | ch :: rest => if ch = 0x2e then parseCount 0x30 rest else some (0, ch :: rest)

/-- `l` or `ll`, and `h` or `hh`, behind their first letter. -/
def parseDoubled (letter : UInt8) (once twice : LengthModifier) : List UInt8 → Option (LengthModifier × List UInt8)
  | [] => Option.none
  | ch :: rest => some (if ch = letter then (twice, rest) else (once, ch :: rest))

namespace Formatter
variable (self : Formatter)

def parseLengthModifier : List UInt8 → Option (LengthModifier × List UInt8)
  | [] => Option.none
  | ch :: rest =>
    if ch = 0x6c then parseDoubled 0x6c .l .ll rest
    else if ch = 0x68 then parseDoubled 0x68 .h .hh rest
    else some (if self.lengthModifier ch = .none then (.none, ch :: rest) else (self.lengthModifier ch, rest))

def skipFlags : List UInt8 → Option (List UInt8)
  | [] => Option.none
  | ch :: rest => if ch ≠ 0 ∧ self.isFlag ch = true then skipFlags rest else some (ch :: rest)

def parseConversionSpec (format : List UInt8) : Option (Nat × LengthModifier × List UInt8) := do
  let format ← self.skipFlags format
  if format.head? = some 0 then some (0, .none, format)
  else
    let (width, format) ← parseCount 0x31 format
    let (precision, format) ← parsePrecision format
    let (modifier, format) ← self.parseLengthModifier format
    some (width + precision, modifier, format)

end Formatter

structure Conversion where
  stars : Nat
  modifier : LengthModifier
  conversion : UInt8
  arguments : Nat
  deriving DecidableEq

namespace Formatter
variable (self : Formatter)

/-- The loop of `Formatter_vFormat`; `fails` says in which rounds a character cannot be written. -/
def formatLoop (fails : Nat → Bool) : Nat → Nat → List UInt8 → Option (List Conversion)
  | 0, _, _ => Option.none
  | _ + 1, _, [] => Option.none
  | fuel + 1, round, ch :: rest =>
    if ch = 0 then some []
    else if ch = 0x25 then do
      let (stars, modifier, format) ← self.parseConversionSpec rest
      let conversion ← format.head?
      let done : Conversion := ⟨stars, modifier, conversion, stars + self.formatArgument conversion modifier⟩
      if fails round then some [done] else (formatLoop fails fuel (round + 1) format.tail).map (done :: ·)
    else if fails round then some []
    else formatLoop fails fuel (round + 1) rest

def vFormat (fails : Nat → Bool) (format : List UInt8) : Option (List Conversion) :=
  self.formatLoop fails (format.length + 1) 0 (format ++ [0])

/-! ## What a format string says -/

def countOf : List UInt8 → Nat × List UInt8
  | [] => (0, [])
  | ch :: rest => if ch = 0x2a then (1, rest) else (0, (ch :: rest).dropWhile isDigit)

def precisionOf : List UInt8 → Nat × List UInt8
  | [] => (0, [])
  | ch :: rest => if ch = 0x2e then countOf rest else (0, ch :: rest)

def doubledOf (letter : UInt8) (once twice : LengthModifier) (text : List UInt8) : LengthModifier × List UInt8 :=
  if text.head? = some letter then (twice, text.tail) else (once, text)

def modifierOf : List UInt8 → LengthModifier × List UInt8
  | [] => (.none, [])
  | ch :: rest =>
    if ch = 0x6c then doubledOf 0x6c .l .ll rest
    else if ch = 0x68 then doubledOf 0x68 .h .hh rest
    else if self.lengthModifier ch = .none then (.none, ch :: rest) else (self.lengthModifier ch, rest)

/-- A conversion specification up to its conversion character. -/
def specOf (format : List UInt8) : Nat × LengthModifier × List UInt8 :=
  let width := countOf (format.dropWhile self.isFlag)
  let precision := precisionOf width.2
  let modifier := self.modifierOf precision.2
  (width.1 + precision.1, modifier.1, modifier.2)

def conversions : Nat → List UInt8 → List Conversion
  | 0, _ => []
  | _ + 1, [] => []
  | fuel + 1, ch :: rest =>
    if ch = 0x25 then
      match self.specOf rest with
      | (_, _, []) => []
      | (stars, modifier, conversion :: format) =>
        ⟨stars, modifier, conversion, stars + (self.takes conversion).toNat⟩ :: conversions fuel format
    else conversions fuel rest

/-- Without an error of the stream the conversions are those of the format string, and with one the first of them; the
NUL is read, and nothing behind it. -/
def Reads (format : List UInt8) : Prop :=
  ∀ fails : Nat → Bool, ∃ done, self.vFormat fails format = some done ∧ done <+: self.conversions format.length format ∧
    ((∀ round, fails round = false) → done = self.conversions format.length format)

def Fits (digits : List UInt8) : Prop :=
  digits.length ≤ 12 ∧ digits.dropLast.foldl (fun val ch => val * 10 + (ch.toNat - 0x30)) 0 ≤ 2147483647

def NumbersFit (format : List UInt8) : Prop :=
  let format := format.dropWhile self.isFlag
  Fits (format.takeWhile isDigit) ∧
    ((countOf format).2.head? = some 0x2e → Fits ((countOf format).2.tail.takeWhile isDigit))

def Sound : Nat → List UInt8 → Prop
  | 0, _ => True
  | _ + 1, [] => True
  | fuel + 1, ch :: rest =>
    if ch = 0x25 then
      self.NumbersFit rest ∧ ∃ conversion format, (self.specOf rest).2.2 = conversion :: format ∧
        self.formatArgument conversion (self.specOf rest).2.1 = (self.takes conversion).toNat ∧ Sound fuel format
    else Sound fuel rest

end Formatter

/-! ## Numbers -/

theorem le_foldl (digits : List UInt8) (val : Nat) :
    val ≤ digits.foldl (fun val ch => val * 10 + (ch.toNat - 0x30)) val := by
  induction digits generalizing val with
  | nil => exact Nat.le_refl val
  | cons ch digits ih => exact Nat.le_trans (by omega) (ih (val * 10 + (ch.toNat - 0x30)))

/-- The pointer behind a number, or in front of one of its digits when the number is too large there. -/
theorem skipNumber_spec (rest : List UInt8) {digits : List UInt8} (isDigits : ∀ ch ∈ digits, isDigit ch = true)
    {next : UInt8} (ends : isDigit next = false) {val i : Nat} (small : val ≤ 2147483647) (few : i ≤ 11) :
    (i + digits.length ≤ 12 ∧ digits.dropLast.foldl (fun val ch => val * 10 + (ch.toNat - 0x30)) val ≤ 2147483647 →
      skipNumber val i (digits ++ next :: rest) = some (next :: rest)) ∧
    (¬(i + digits.length ≤ 12 ∧ digits.dropLast.foldl (fun val ch => val * 10 + (ch.toNat - 0x30)) val ≤ 2147483647) →
      ∃ ch after, isDigit ch = true ∧ skipNumber val i (digits ++ next :: rest) = some (ch :: after)) := by
  induction digits generalizing val i with
  | nil =>
    refine ⟨fun _ => ?_, fun large => absurd ⟨?_, small⟩ large⟩
    · rw [List.nil_append, skipNumber, if_neg (Bool.eq_false_iff.1 ends)]
    · exact Nat.le_succ_of_le few
  | cons ch digits ih =>
    rw [List.cons_append, skipNumber, if_pos (isDigits ch List.mem_cons_self)]
    dsimp only
    cases digits with
    | nil =>
      refine ⟨fun _ => ?_, fun large => absurd ⟨Nat.succ_le_succ few, small⟩ large⟩
      rw [List.nil_append, skipNumber, if_neg (Bool.eq_false_iff.1 ends), ite_self]
    | cons ch' digits =>
      rw [List.dropLast_cons_cons, List.foldl_cons]
      by_cases overflow : val * 10 + (ch.toNat - 0x30) > 2147483647 ∨ i > 10
      · rw [if_pos overflow]
        refine ⟨fun fits => ?_, fun _ => ⟨ch', digits ++ next :: rest, isDigits ch' (by simp), rfl⟩⟩
        have least := le_foldl (ch' :: digits).dropLast (val * 10 + (ch.toNat - 0x30))
        simp only [List.length_cons] at fits
        omega
      · rw [if_neg overflow]
        have later := ih (fun ch member => isDigits ch (List.mem_cons_of_mem _ member))
          (show val * 10 + (ch.toNat - 0x30) ≤ 2147483647 by omega) (show i + 1 ≤ 11 by omega)
        simpa only [List.length_cons, Nat.add_assoc, Nat.add_comm, Nat.add_left_comm] using later

/-! ## Specifications -/

open Formatter

section Parts
variable {text : List UInt8}

theorem head_dropWhile (text : List UInt8) {ch : UInt8} (first : (text.dropWhile isDigit).head? = some ch) :
    isDigit ch = false := by
  have stops := List.head?_dropWhile_not isDigit text
  rw [first] at stops
  exact stops

theorem fits_nil : Fits [] := ⟨by decide, by decide⟩

theorem skipNumber_text (text : List UInt8) :
    (Fits (text.takeWhile isDigit) → skipNumber 0 0 (text ++ [0]) = some (text.dropWhile isDigit ++ [0])) ∧
    (¬Fits (text.takeWhile isDigit) → ∃ ch after, isDigit ch = true ∧ skipNumber 0 0 (text ++ [0]) = some (ch :: after)) := by
  have whole : text ++ [0] = text.takeWhile isDigit ++ (text.dropWhile isDigit ++ [0]) := by
    rw [← List.append_assoc, List.takeWhile_append_dropWhile]
  obtain ⟨next, after, behind, ends⟩ : ∃ next after, text.dropWhile isDigit ++ [0] = next :: after ∧ isDigit next = false := by
    cases rest : text.dropWhile isDigit with
    | nil => exact ⟨0, [], rfl, rfl⟩
    | cons next after => exact ⟨next, after ++ [0], rfl, head_dropWhile text (by rw [rest]; rfl)⟩
  have isDigits : ∀ ch ∈ text.takeWhile isDigit, isDigit ch = true := fun ch member => List.mem_takeWhile_imp member
  have spec := skipNumber_spec after isDigits ends (Nat.zero_le 2147483647) (Nat.zero_le 11)
  rw [Nat.zero_add] at spec
  rw [whole, behind]
  exact spec

theorem parseCount_spec (first : UInt8) (text : List UInt8) (zero : first = 0x30 ∨ first = 0x31 ∧ text.head? ≠ some 0x30) :
    (Fits (text.takeWhile isDigit) → parseCount first (text ++ [0]) = some ((countOf text).1, (countOf text).2 ++ [0])) ∧
    (¬Fits (text.takeWhile isDigit) →
      ∃ ch after, isDigit ch = true ∧ parseCount first (text ++ [0]) = some (0, ch :: after)) := by
  cases text with
  | nil =>
    refine ⟨fun _ => ?_, fun large => absurd fits_nil large⟩
    rcases zero with rfl | ⟨rfl, -⟩ <;> rfl
  | cons ch rest =>
    rw [List.cons_append, parseCount, countOf]
    by_cases star : ch = 0x2a
    · subst star
      rw [List.takeWhile_cons_of_neg (by decide)]
      exact ⟨fun _ => rfl, fun large => absurd fits_nil large⟩
    · rw [if_neg star, if_neg star]
      have digit : first ≤ ch ∧ ch ≤ 0x39 ↔ isDigit ch = true := by
        rw [isDigit, Bool.and_eq_true, decide_eq_true_iff, decide_eq_true_iff]
        rcases zero with rfl | ⟨rfl, other⟩
        · rfl
        · rw [List.head?_cons, Ne, Option.some.injEq] at other
          simp only [UInt8.le_iff_toNat_le, ← UInt8.toNat_inj] at *
          refine and_congr_left fun _ => ⟨fun low => by simp at *; omega, fun low => by simp at *; omega⟩
      by_cases isDigits : isDigit ch = true
      · rw [if_pos (digit.2 isDigits), ← List.cons_append]
        obtain ⟨fits, large⟩ := skipNumber_text (ch :: rest)
        refine ⟨fun fit => by rw [fits fit]; rfl, fun notFit => ?_⟩
        obtain ⟨ch', after, isDigit', stops⟩ := large notFit
        exact ⟨ch', after, isDigit', by rw [stops]; rfl⟩
      · rw [if_neg (mt digit.1 isDigits), List.takeWhile_cons_of_neg isDigits, List.dropWhile_cons_of_neg isDigits]
        exact ⟨fun _ => rfl, fun large => absurd fits_nil large⟩

theorem head_countOf {ch : UInt8} {after : List UInt8} (noStar : (countOf text).1 = 0) (behind : (countOf text).2 = ch :: after) :
    isDigit ch = false := by
  cases text with
  | nil => cases behind
  | cons first rest =>
    rw [countOf] at noStar behind
    split at behind
    case isTrue star => rw [if_pos star] at noStar; cases noStar
    case isFalse => exact head_dropWhile (first :: rest) (congrArg List.head? behind)

theorem countOf_suffix (text : List UInt8) : (countOf text).2 <:+ text := by
  cases text with
  | nil => exact List.suffix_refl _
  | cons ch rest =>
    rw [countOf]
    split
    case isTrue => exact List.suffix_cons ch rest
    case isFalse => exact List.dropWhile_suffix isDigit

theorem precisionOf_suffix (text : List UInt8) : (precisionOf text).2 <:+ text := by
  cases text with
  | nil => exact List.suffix_refl _
  | cons ch rest =>
    rw [precisionOf]
    split
    case isTrue => exact (countOf_suffix rest).trans (List.suffix_cons ch rest)
    case isFalse => exact List.suffix_refl _

variable (self : Formatter)

theorem modifierOf_suffix (text : List UInt8) : (self.modifierOf text).2 <:+ text := by
  cases text with
  | nil => exact List.suffix_refl _
  | cons ch rest =>
    have doubled : ∀ letter once twice, (doubledOf letter once twice rest).2 <:+ ch :: rest := by
      intro letter once twice
      unfold doubledOf
      split
      case isTrue => exact (List.tail_suffix rest).trans (List.suffix_cons ch rest)
      case isFalse => exact List.suffix_cons ch rest
    rw [modifierOf]
    split_ifs
    · exact doubled _ _ _
    · exact doubled _ _ _
    · exact List.suffix_refl _
    · exact List.suffix_cons ch rest

theorem specOf_suffix (text : List UInt8) : (self.specOf text).2.2 <:+ text :=
  (modifierOf_suffix self _).trans ((precisionOf_suffix _).trans ((countOf_suffix _).trans (List.dropWhile_suffix _)))

theorem modifierOf_none (plain : (self.modifierOf text).1 = .none) : (self.modifierOf text).2 = text := by
  cases text with
  | nil => rfl
  | cons ch rest =>
    simp only [modifierOf, doubledOf] at *
    split_ifs at * <;> simp_all

theorem skipFlags_spec (noNul : 0 ∉ text) : self.skipFlags (text ++ [0]) = some (text.dropWhile self.isFlag ++ [0]) := by
  induction text with
  | nil => rfl
  | cons ch rest ih =>
    rw [List.mem_cons, not_or] at noNul
    rw [List.cons_append, skipFlags]
    by_cases flag : self.isFlag ch = true
    · rw [if_pos ⟨Ne.symm noNul.1, flag⟩, ih noNul.2, List.dropWhile_cons_of_pos flag]
    · rw [if_neg fun both => flag both.2, List.dropWhile_cons_of_neg flag, List.cons_append]

theorem parseDoubled_text {letter : UInt8} (other : letter ≠ 0) (once twice : LengthModifier) (text : List UInt8) :
    parseDoubled letter once twice (text ++ [0]) =
      some ((doubledOf letter once twice text).1, (doubledOf letter once twice text).2 ++ [0]) := by
  cases text with
  | nil =>
    rw [List.nil_append, parseDoubled, if_neg other.symm]
    rfl
  | cons ch rest =>
    simp only [List.cons_append, parseDoubled, doubledOf, List.head?_cons, Option.some.injEq]
    split_ifs <;> rfl

theorem parseLengthModifier_spec (text : List UInt8) :
    self.parseLengthModifier (text ++ [0]) = some ((self.modifierOf text).1, (self.modifierOf text).2 ++ [0]) := by
  cases text with
  | nil =>
    rw [List.nil_append, parseLengthModifier, if_neg (by decide), if_neg (by decide), if_pos self.nul]
    rfl
  | cons ch rest =>
    rw [List.cons_append, parseLengthModifier, modifierOf]
    by_cases l : ch = 0x6c
    · rw [if_pos l, if_pos l, parseDoubled_text (by decide)]
    · rw [if_neg l, if_neg l]
      by_cases h : ch = 0x68
      · rw [if_pos h, if_pos h, parseDoubled_text (by decide)]
      · rw [if_neg h, if_neg h]
        split_ifs <;> rfl

theorem parseLengthModifier_digit {ch : UInt8} (digit : isDigit ch = true) (after : List UInt8) :
    self.parseLengthModifier (ch :: after) = some (.none, ch :: after) := by
  rw [parseLengthModifier, if_neg, if_neg, if_pos (self.digit ch digit)] <;> rintro rfl <;> cases digit

theorem parsePrecision_spec (text : List UInt8) :
    ((text.head? = some 0x2e → Fits (text.tail.takeWhile isDigit)) →
      parsePrecision (text ++ [0]) = some ((precisionOf text).1, (precisionOf text).2 ++ [0])) ∧
    (¬(text.head? = some 0x2e → Fits (text.tail.takeWhile isDigit)) →
      ∃ ch after, isDigit ch = true ∧ parsePrecision (text ++ [0]) = some (0, ch :: after)) := by
  cases text with
  | nil => exact ⟨fun _ => rfl, fun large => absurd (fun dot => nomatch dot) large⟩
  | cons ch rest =>
    rw [List.cons_append, parsePrecision, precisionOf, List.head?_cons, List.tail_cons, Option.some.injEq]
    by_cases dot : ch = 0x2e
    · rw [if_pos dot, if_pos dot]
      obtain ⟨fits, large⟩ := parseCount_spec 0x30 rest (.inl rfl)
      exact ⟨fun fit => fits (fit dot), fun notFit => large fun fit => notFit fun _ => fit⟩
    · rw [if_neg dot, if_neg dot]
      exact ⟨fun _ => rfl, fun large => absurd (fun same => absurd same dot) large⟩

theorem parsePrecision_digit {ch : UInt8} (digit : isDigit ch = true) (after : List UInt8) :
    parsePrecision (ch :: after) = some (0, ch :: after) := by
  rw [parsePrecision, if_neg]
  rintro rfl
  cases digit

theorem head_behind {ch : UInt8} {format : List UInt8} (noDigit : ∀ ch after, text = ch :: after → isDigit ch = false)
    (noStar : (precisionOf text).1 = 0) (behind : self.modifierOf (precisionOf text).2 = (.none, ch :: format)) :
    isDigit ch = false := by
  have same := modifierOf_none self (congrArg Prod.fst behind)
  rw [behind] at same
  cases text with
  | nil => cases same
  | cons first rest =>
    rw [precisionOf] at noStar same
    split at same
    case isTrue dot =>
      rw [if_pos dot] at noStar
      exact head_countOf noStar same.symm
    case isFalse => exact noDigit ch format same.symm

/-- The code reads a specification as it is, or takes one of the digits for the conversion. -/
theorem parseConversionSpec_spec (noNul : 0 ∉ text) :
    (self.NumbersFit text → self.parseConversionSpec (text ++ [0]) =
      some ((self.specOf text).1, (self.specOf text).2.1, (self.specOf text).2.2 ++ [0])) ∧
    (¬self.NumbersFit text → ∃ stars ch after, isDigit ch = true ∧
      self.parseConversionSpec (text ++ [0]) = some (stars, .none, ch :: after) ∧
      ∀ format, self.specOf text ≠ (stars, .none, ch :: format)) := by
  unfold parseConversionSpec NumbersFit specOf
  rw [skipFlags_spec self noNul]
  have stops := List.head?_dropWhile_not self.isFlag text
  have noNul' : 0 ∉ text.dropWhile self.isFlag := fun member => noNul ((List.dropWhile_suffix _).mem member)
  generalize text.dropWhile self.isFlag = text at *
  have noZero : text.head? ≠ some 0x30 := fun zero => by
    rw [zero] at stops
    exact Bool.false_ne_true (stops.symm.trans self.zero)
  simp only [Option.bind_eq_bind, Option.bind_some]
  cases text with
  | nil =>
    refine ⟨fun _ => rfl, fun large => absurd ⟨fits_nil, ?_⟩ large⟩
    intro dot
    cases dot
  | cons first rest =>
    rw [if_neg (fun nul => noNul' (by rw [Option.some.inj nul]; exact List.mem_cons_self))]
    obtain ⟨fits, large⟩ := parseCount_spec 0x31 (first :: rest) (.inr ⟨rfl, noZero⟩)
    by_cases width : Fits ((first :: rest).takeWhile isDigit)
    · obtain ⟨fits', large'⟩ := parsePrecision_spec (countOf (first :: rest)).2
      rw [fits width, Option.bind_some]
      refine ⟨fun fit => ?_, fun notFit => ?_⟩
      · rw [fits' fit.2, Option.bind_some, parseLengthModifier_spec, Option.bind_some]
      · have precision : ¬((countOf (first :: rest)).2.head? = some 0x2e → Fits ((countOf (first :: rest)).2.tail.takeWhile isDigit)) :=
          fun precision => notFit ⟨width, precision⟩
        obtain ⟨ch, after, digit, stops⟩ := large' precision
        rw [stops, Option.bind_some, parseLengthModifier_digit self digit, Option.bind_some]
        refine ⟨_, ch, after, digit, rfl, fun format same => ?_⟩
        obtain ⟨stars, behind⟩ := Prod.mk.inj same
        refine Bool.false_ne_true ((head_behind self (fun next after first => ?_) (Nat.add_left_cancel stars) behind).symm.trans digit)
        obtain ⟨dot, -⟩ := Classical.not_imp.1 precision
        rw [first] at dot
        rw [Option.some.inj dot]
        rfl
    · obtain ⟨ch, after, digit, stops⟩ := large width
      rw [stops, Option.bind_some, parsePrecision_digit digit, Option.bind_some, parseLengthModifier_digit self digit,
        Option.bind_some]
      refine ⟨fun fit => absurd fit.1 width, fun _ => ⟨_, ch, after, digit, rfl, fun format same => ?_⟩⟩
      obtain ⟨stars, behind⟩ := Prod.mk.inj same
      have noStar := Nat.add_eq_zero_iff.1 stars
      exact Bool.false_ne_true ((head_behind self (fun next after => head_countOf noStar.1) noStar.2 behind).symm.trans digit)

/-! ## Format strings -/

theorem reads_of_sound (fails : Nat → Bool) {fuel : Nat} (round : Nat) (noNul : 0 ∉ text) (short : text.length ≤ fuel)
    (sound : self.Sound fuel text) :
    ∃ done, self.formatLoop fails (fuel + 1) round (text ++ [0]) = some done ∧ done <+: self.conversions fuel text ∧
      ((∀ round, fails round = false) → done = self.conversions fuel text) := by
  induction fuel generalizing text round with
  | zero =>
    obtain rfl := List.length_eq_zero_iff.1 (Nat.le_zero.1 short)
    exact ⟨[], rfl, List.nil_prefix, fun _ => rfl⟩
  | succ fuel ih =>
    cases text with
    | nil => exact ⟨[], rfl, List.nil_prefix, fun _ => rfl⟩
    | cons ch rest =>
      rw [List.mem_cons, not_or] at noNul
      have short' : rest.length ≤ fuel := Nat.le_of_succ_le_succ short
      rw [List.cons_append, formatLoop, if_neg (Ne.symm noNul.1)]
      rw [Sound] at sound
      rw [conversions]
      by_cases percent : ch = 0x25
      · rw [if_pos percent] at sound ⊢
        obtain ⟨fit, conversion, format, spec, takes, sound⟩ := sound
        have suffix := specOf_suffix self rest
        rw [(parseConversionSpec_spec self noNul.2).1 fit]
        generalize self.specOf rest = parts at *
        obtain ⟨stars, modifier, behind⟩ := parts
        obtain rfl : behind = conversion :: format := spec
        dsimp only at takes suffix ⊢
        have inside : format <:+ rest := (List.suffix_cons conversion format).trans suffix
        obtain ⟨done, returns, isPrefix, all⟩ := ih (round + 1) (fun member => noNul.2 (inside.mem member))
          (inside.length_le.trans short') sound
        simp only [Option.bind_eq_bind, Option.bind_some, List.cons_append, List.head?_cons, List.tail_cons, if_pos percent, takes]
        cases failing : fails round with
        | true =>
          exact ⟨_, rfl, List.cons_prefix_cons.2 ⟨rfl, List.nil_prefix⟩, fun never => by rw [never] at failing; cases failing⟩
        | false =>
          refine ⟨_ :: done, ?_, List.cons_prefix_cons.2 ⟨rfl, isPrefix⟩, fun never => congrArg _ (all never)⟩
          rw [returns]
          rfl
      · rw [if_neg percent] at sound ⊢
        obtain ⟨done, returns, isPrefix, all⟩ := ih (round + 1) noNul.2 short' sound
        rw [if_neg percent]
        cases failing : fails round with
        | true => exact ⟨[], rfl, List.nil_prefix, fun never => by rw [never] at failing; cases failing⟩
        | false => exact ⟨done, returns, isPrefix, all⟩

theorem sound_of_reads {fuel : Nat} {round : Nat} (noNul : 0 ∉ text) (short : text.length ≤ fuel)
    (reads : self.formatLoop (fun _ => false) (fuel + 1) round (text ++ [0]) = some (self.conversions fuel text)) :
    self.Sound fuel text := by
  induction fuel generalizing text round with
  | zero => trivial
  | succ fuel ih =>
    cases text with
    | nil => trivial
    | cons ch rest =>
      rw [List.mem_cons, not_or] at noNul
      have short' : rest.length ≤ fuel := Nat.le_of_succ_le_succ short
      rw [List.cons_append, formatLoop, if_neg (Ne.symm noNul.1), conversions] at reads
      rw [Sound]
      by_cases percent : ch = 0x25
      · rw [if_pos percent] at reads ⊢
        rw [if_pos percent] at reads
        have suffix := specOf_suffix self rest
        obtain ⟨fits, large⟩ := parseConversionSpec_spec self noNul.2
        by_cases fit : self.NumbersFit rest
        · rw [fits fit] at reads
          refine ⟨fit, ?_⟩
          generalize self.specOf rest = parts at *
          obtain ⟨stars, modifier, behind⟩ := parts
          simp only [Option.bind_eq_bind, Option.bind_some, Bool.false_eq_true, if_false] at reads
          cases behind with
          | nil =>
            -- the NUL is taken for the conversion, and the loop goes on behind it
            simp only [List.nil_append, List.head?_cons, Option.bind_some] at reads
            obtain ⟨done, -, same⟩ := Option.map_eq_some_iff.1 reads
            cases same
          | cons conversion format =>
            have inside : format <:+ rest := (List.suffix_cons conversion format).trans suffix
            simp only [List.cons_append, List.head?_cons, List.tail_cons, Option.bind_some] at reads
            obtain ⟨done, returns, same⟩ := Option.map_eq_some_iff.1 reads
            obtain ⟨first, rfl⟩ := List.cons.inj same
            obtain ⟨-, -, -, arguments⟩ := Conversion.mk.inj first
            exact ⟨conversion, format, rfl, Nat.add_left_cancel arguments,
              ih (fun member => noNul.2 (inside.mem member)) (inside.length_le.trans short') returns⟩
        · obtain ⟨stars, ch', after, -, parses, other⟩ := large fit
          rw [parses] at reads
          simp only [Option.bind_eq_bind, Option.bind_some, Bool.false_eq_true, if_false, List.head?_cons] at reads
          obtain ⟨done, -, same⟩ := Option.map_eq_some_iff.1 reads
          generalize self.specOf rest = parts at *
          obtain ⟨stars', modifier, behind⟩ := parts
          cases behind with
          | nil => cases same
          | cons conversion format =>
            obtain ⟨rfl, rfl, rfl, -⟩ := Conversion.mk.inj (List.cons.inj same).1
            exact absurd rfl (other format)
      · rw [if_neg percent] at reads ⊢
        rw [if_neg percent] at reads
        exact ih noNul.2 short' reads

theorem reads_iff (noNul : 0 ∉ text) : self.Reads text ↔ self.Sound text.length text := by
  constructor
  · intro reads
    obtain ⟨done, returns, -, all⟩ := reads fun _ => false
    exact sound_of_reads self noNul (Nat.le_refl _) (returns.trans (congrArg some (all fun _ => rfl)))
  · exact fun sound fails => reads_of_sound self fails 0 noNul (Nat.le_refl _) sound

end Parts

/-- Both formatters, for every text in front of a NUL. -/
theorem formatters_read_iff (format : { text : List UInt8 // 0 ∉ text }) :
    (kernelFormatter.Reads format.1 ↔ kernelFormatter.Sound format.1.length format.1) ∧
      (libcFormatter.Reads format.1 ↔ libcFormatter.Sound format.1.length format.1) :=
  ⟨reads_iff kernelFormatter format.2, reads_iff libcFormatter format.2⟩

/-- The format string `%`, which both formatters leave behind its NUL. -/
theorem percent_not_read :
    ¬∀ format : { text : List UInt8 // 0 ∉ text }, kernelFormatter.Reads format.1 ∧ libcFormatter.Reads format.1 := by
  intro reads
  obtain ⟨done, returns, -⟩ := (reads ⟨[0x25], by decide⟩).1 fun _ => false
  exact absurd returns (by rw [show kernelFormatter.vFormat (fun _ => false) [0x25] = Option.none by decide]; exact fun same => nomatch same)

end Apollo.Klib
