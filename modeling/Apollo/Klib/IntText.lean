import Mathlib.Data.Nat.Digits.Defs

/-!
# Integers as text

`Int.c` of the kernel and `xtoa.c` of the C library, which have the same code: the digits are put
into a buffer of their own from its end on, behind a count and a sign, and copied from there.
-/

set_option autoImplicit false

namespace Apollo.Klib

abbrev Chars : Type := Nat → UInt8

def kDigitBufferCapacity : Nat := 67

def gLowerDigits : List UInt8 :=
  [0x30, 0x31, 0x32, 0x33, 0x34, 0x35, 0x36, 0x37, 0x38, 0x39, 0x61, 0x62, 0x63, 0x64, 0x65, 0x66]

def gUpperDigits : List UInt8 :=
  [0x30, 0x31, 0x32, 0x33, 0x34, 0x35, 0x36, 0x37, 0x38, 0x39, 0x41, 0x42, 0x43, 0x44, 0x45, 0x46]

/-- `copy_constant`; the constant is copied without its NUL. -/
def copyConstant (digits : Chars) (cst : List UInt8) : Chars := fun i =>
  if i = 0 then UInt8.ofNat cst.length else (cst[i - 1]?).getD (digits i)

/-- How a digit is split off. -/
abbrev Divide : Type := Int → Int → Int × Int

/-- `val / radix` and `val % radix` of 32-bit values. -/
def divide32 : Divide := fun val radix => (val.tdiv radix, val.tmod radix)

section Digits
variable (divide : Divide) (radix : Int) (isUppercase : Bool)

/-- The loop that writes the digits, from the index `p` on; the result has the place for the sign.  An
access in front of the buffer or outside of the table of the digits is a fault. -/
def writeDigits : Nat → Int → Nat → Chars → Option (Chars × Nat × Nat)
  | 0, _, _, _ => none
  | p + 1, val, i, digits => do
      let (q, r) := divide val radix
      if r < 0 then none
      else
        let digit ← (if isUppercase then gUpperDigits else gLowerDigits)[r.toNat]?
        let digits : Chars := Function.update digits (p + 1) digit
        if q ≠ 0 then writeDigits p q (i + 1) digits else some (digits, p, i + 1)

def toDigits (val : Int) (sign : UInt8) (digits : Chars) : Option (Chars × Nat) := do
  let digits : Chars := Function.update digits (kDigitBufferCapacity - 1) 0
  match ← writeDigits divide radix isUppercase (kDigitBufferCapacity - 2) val 1 digits with
  | (_, 0, _) => none
  | (digits, p + 1, i) =>
    let digits : Chars := Function.update digits (p + 1) sign
    some (Function.update digits p (UInt8.ofNat i), p)

def i32toa (val : Int32) (digits : Chars) : Option (Chars × Nat) :=
  if val.toInt < 0 then
    if val = Int32.minValue then
      some (copyConstant digits [0x2d, 0x32, 0x31, 0x34, 0x37, 0x34, 0x38, 0x33, 0x36, 0x34, 0x38], 0)
    else toDigits divide32 radix isUppercase (-val.toInt) 0x2d digits
  else toDigits divide32 radix isUppercase val.toInt 0x2b digits

def i64toa (val : Int64) (digits : Chars) : Option (Chars × Nat) :=
  if val.toInt < 0 then
    if val = Int64.minValue then
      some (copyConstant digits
        [0x2d, 0x39, 0x32, 0x32, 0x33, 0x33, 0x37, 0x32, 0x30, 0x33, 0x36, 0x38, 0x35, 0x34, 0x37, 0x37, 0x35, 0x38, 0x30,
          0x38], 0)
    else toDigits divide radix isUppercase (-val.toInt) 0x2d digits
  else toDigits divide radix isUppercase val.toInt 0x2b digits

def ui32toa (val : UInt32) (digits : Chars) : Option (Chars × Nat) :=
  toDigits divide32 radix isUppercase val.toNat 0x2b digits

/-- `__ui64toa`; the division gets the value as a signed one. -/
def ui64toa (val : UInt64) (digits : Chars) : Option (Chars × Nat) :=
  toDigits divide radix isUppercase val.toInt64.toInt 0x2b digits

end Digits

/-- The loop of `copy_out`, with the index in `buf`. -/
def copyLoop (digits : Chars) : Nat → Nat → Nat → Chars → Option (Chars × Nat)
  | 0, _, _, _ => none
  | left + 1, p, i, buf =>
    if digits p ≠ 0 then copyLoop digits left (p + 1) (i + 1) (Function.update buf i (digits p))
    else some (Function.update buf i 0, i)

/-- `copy_out`; the result is a pointer into `buf`. -/
def copyOut (buf digits : Chars) (pCanonDigits : Nat) : Option (Chars × Nat) :=
  let p := if digits (pCanonDigits + 1) = 0x2b then pCanonDigits + 2 else pCanonDigits + 1
  copyLoop digits (kDigitBufferCapacity - p) p 0 buf

/-- A conversion with its value; `itoa`, `ltoa` and `lltoa` are the signed ones in lower case. -/
inductive IntText
  | int32 (val : Int32)
  | int64 (val : Int64)
  | uint32 (val : UInt32)
  | uint64 (val : UInt64)

namespace IntText
variable (divmods64 : Divide)

def value : IntText → Int
  | int32 val => val.toInt
  | int64 val => val.toInt
  | uint32 val => val.toNat
  | uint64 val => val.toNat

def canonDigits (radix : Int) (isUppercase : Bool) : IntText → Chars → Option (Chars × Nat)
  | int32 val => i32toa radix isUppercase val
  | int64 val => i64toa divmods64 radix isUppercase val
  | uint32 val => ui32toa radix isUppercase val
  | uint64 val => ui64toa divmods64 radix isUppercase val

/-- `Int32_ToString` and its siblings; `NULL` is an inner `none`.  The buffer `t` has any content. -/
def toString (call : IntText) (radix : Int) (isUppercase : Bool) (t : Chars) (pBuffer : Option Chars) :
    Option (Option (Chars × Nat)) :=
  if radix ≠ 8 ∧ radix ≠ 10 ∧ radix ≠ 16 then some none
  else
    match pBuffer with
    | none => some none
    | some buf => do
        let (digits, pCanonDigits) ← call.canonDigits divmods64 radix isUppercase t
        let result ← copyOut buf digits pCanonDigits
        some (some result)

end IntText

/-! ## What the text is for -/

def numeral (radix : Nat) (isUppercase : Bool) (value : Int) : List UInt8 :=
  let digits := if value = 0 then [0] else (Nat.digits radix value.natAbs).reverse
  (if value < 0 then [0x2d] else []) ++ digits.map fun digit => ((if isUppercase then gUpperDigits else gLowerDigits)[digit]?).getD 0

def IsText (chars : Chars) (p : Nat) (text : List UInt8) : Prop :=
  (∀ (i : Nat) (h : i < text.length), chars (p + i) = text.get ⟨i, h⟩ ∧ text.get ⟨i, h⟩ ≠ 0) ∧ chars (p + text.length) = 0

def IntText.Denoted (divmods64 : Divide) (call : IntText) (radix : Nat) (isUppercase : Bool) (t buf : Chars) : Prop :=
  ∃ after p, call.toString divmods64 radix isUppercase t (some buf) = some (some (after, p)) ∧
    IsText after p (numeral radix isUppercase call.value)

/-! ## Where the pointer is -/

/-- `copy_out` returns the pointer that it has moved to the NUL. -/
theorem copyLoop_end {digits buf after : Chars} {left p i last : Nat}
    (copies : copyLoop digits left p i buf = some (after, last)) : after last = 0 := by
  induction left generalizing p i buf with
  | zero => cases copies
  | succ left ih =>
    rw [copyLoop] at copies
    split at copies
    case isTrue => exact ih copies
    case isFalse =>
      obtain ⟨rfl, rfl⟩ := Prod.mk.inj (Option.some.inj copies)
      exact Function.update_self i 0 buf

theorem toString_end {divmods64 : Divide} {call : IntText} {radix : Int} {isUppercase : Bool} {t buf after : Chars} {p : Nat}
    (returns : call.toString divmods64 radix isUppercase t (some buf) = some (some (after, p))) : after p = 0 := by
  unfold IntText.toString at returns
  split at returns
  case isTrue => cases returns
  case isFalse =>
    obtain ⟨⟨digits, pCanonDigits⟩, -, copies⟩ := Option.bind_eq_some_iff.1 returns
    obtain ⟨result, copies, same⟩ := Option.bind_eq_some_iff.1 copies
    obtain rfl := Option.some.inj (Option.some.inj same)
    exact copyLoop_end copies

theorem numeral_ne_nil (radix : Nat) (isUppercase : Bool) (value : Int) : numeral radix isUppercase value ≠ [] := by
  unfold numeral
  refine List.append_ne_nil_of_right_ne_nil _ (mt List.map_eq_nil_iff.1 ?_)
  by_cases zero : value = 0
  · rw [if_pos zero]
    exact List.cons_ne_nil 0 []
  · rw [if_neg zero]
    intro empty
    exact zero (Int.natAbs_eq_zero.1 (Nat.digits_eq_nil_iff_eq_zero.1 (List.reverse_eq_nil_iff.1 empty)))

/-- The text at the pointer is empty, whatever the value is, what the buffers hold and how 64-bit values are divided. -/
theorem not_denoted (divmods64 : Divide) (call : IntText) (radix : Nat) (isUppercase : Bool) (t buf : Chars) :
    ¬call.Denoted divmods64 radix isUppercase t buf := by
  rintro ⟨after, p, returns, text, -⟩
  obtain ⟨same, nonzero⟩ := text 0 (List.length_pos_iff.2 (numeral_ne_nil radix isUppercase call.value))
  exact nonzero (same.symm.trans (toString_end returns))

/-- `itoa(5, buf, 10)`, or the number in another radix. -/
theorem five_not_denoted :
    ¬∀ (divmods64 : Divide) (call : IntText) (radix : Nat) (isUppercase : Bool) (t buf : Chars),
      radix = 8 ∨ radix = 10 ∨ radix = 16 → call.Denoted divmods64 radix isUppercase t buf := by
  intro denoted
  obtain ⟨after, p, returns, text, -⟩ := denoted divide32 (.int32 5) 10 false (fun _ => 0) (fun _ => 0) (by decide)
  have ends : after p = 0 := toString_end returns
  obtain ⟨same, nonzero⟩ := text 0 (by decide)
  exact nonzero (same.symm.trans ends)

end Apollo.Klib
