import Apollo.Lib.Loops
import Mathlib.Data.List.GetD

/-!
# Copying and filling memory

`Memory.c`, with pointers as addresses.  Where source and destination are aligned alike the
bytes in front of the first word and behind the last one are copied singly, and the words
between them four in a round.  A word is read before it is written.
-/

set_option autoImplicit false

namespace Apollo.Klib

open Lib

abbrev Memory : Type := Nat → UInt8

/-- `WORD_SIZE` of the data model ILP32. -/
def wordSize : Nat := 4

def Memory.move (count dst src : Nat) (memory : Memory) : Memory := fun address =>
  if dst ≤ address ∧ address < dst + count then memory (src + (address - dst)) else memory address

structure Copying where
  p : Nat
  ps : Nat
  memory : Memory

namespace Copying

/-- `*p++ = *ps++` with pointers to units of `width` bytes. -/
def up (width : Nat) (copying : Copying) : Copying where
  p := copying.p + width
  ps := copying.ps + width
  memory := copying.memory.move width copying.p copying.ps

/-- `*(--p) = *(--ps)`. -/
def down (width : Nat) (copying : Copying) : Copying where
  p := copying.p - width
  ps := copying.ps - width
  memory := copying.memory.move width (copying.p - width) (copying.ps - width)

end Copying

namespace Memory

def memcpyOpt (dst src count : Nat) (memory : Memory) : Memory :=
  let copying : Copying := ⟨dst, src, memory⟩
  let nModBytes := copying.p % wordSize
  let head := nModBytes > 0
  let copying :=
    if head then doWhile (fun copying => copying.p % wordSize ≠ 0) (Copying.up 1) wordSize copying else copying
  let count := if head then count - (wordSize - nModBytes) else count
  let pe := copying.p + count
  let pew := copying.p + count / wordSize * wordSize
  let copying := whileBelow Copying.p (Copying.up wordSize) pew (unrolled (Copying.up wordSize) ((pew - copying.p) / wordSize / 4) copying)
  (whileBelow Copying.p (Copying.up 1) pe copying).memory

def memcpy (dst src count : Nat) (memory : Memory) : Memory :=
  if src = dst ∨ count = 0 then memory
  else if count ≥ 2 * wordSize ∧ src % wordSize = dst % wordSize then memcpyOpt dst src count memory
  else (whileBelow Copying.p (Copying.up 1) (dst + count) (unrolled (Copying.up 1) (count / 4) ⟨dst, src, memory⟩)).memory

def memcpyOptRev (dst src count : Nat) (memory : Memory) : Memory :=
  let copying : Copying := ⟨dst + count, src + count, memory⟩
  let pe := dst
  let nModBytes := (copying.p - 1) % wordSize
  let head := nModBytes > 0
  let copying :=
    if head then doWhile (fun copying => copying.p % wordSize ≠ 0) (Copying.down 1) wordSize copying else copying
  let count := if head then count - nModBytes else count
  let pew := copying.p - count / wordSize * wordSize
  let copying := whileAbove Copying.p (Copying.down wordSize) pew (unrolled (Copying.down wordSize) ((copying.p - pew) / wordSize / 4) copying)
  (whileAbove Copying.p (Copying.down 1) pe copying).memory

/-- The end of `memcpy_rev`, which copies byte by byte. -/
def memcpyBytesRev (dst src count : Nat) (memory : Memory) : Memory :=
  (whileAbove Copying.p (Copying.down 1) dst (unrolled (Copying.down 1) (count / 4) ⟨dst + count, src + count, memory⟩)).memory

def memcpyRev (dst src count : Nat) (memory : Memory) : Memory :=
  if src = dst ∨ count = 0 then memory
  else if count ≥ 2 * wordSize ∧ src % wordSize = dst % wordSize then memcpyOptRev dst src count memory
  else memcpyBytesRev dst src count memory

def memmove (dst src count : Nat) (memory : Memory) : Memory :=
  if dst < src then memcpy dst src count memory else memcpyRev dst src count memory

end Memory

def wordFromByte (b : UInt8) : UInt32 := b.toUInt32 <<< 24 ||| b.toUInt32 <<< 16 ||| b.toUInt32 <<< 8 ||| b.toUInt32

def byteOfWord (word : UInt32) : Nat → UInt8
  | 0 => (word >>> 24).toUInt8
  | 1 => (word >>> 16).toUInt8
  | 2 => (word >>> 8).toUInt8
  | _ => word.toUInt8

/-- A region of the memory with the bytes `bytes`. -/
def Memory.put (count dst : Nat) (bytes : Nat → UInt8) (memory : Memory) : Memory := fun address =>
  if dst ≤ address ∧ address < dst + count then bytes (address - dst) else memory address

structure Filling where
  p : Nat
  memory : Memory

namespace Filling

/-- `*p++ = b`. -/
def byte (b : UInt8) (filling : Filling) : Filling := ⟨filling.p + 1, filling.memory.put 1 filling.p fun _ => b⟩

/-- `*pw++ = bw`. -/
def word (bw : UInt32) (filling : Filling) : Filling :=
  ⟨filling.p + wordSize, filling.memory.put wordSize filling.p (byteOfWord bw)⟩

end Filling

def Memory.memset (dst : Nat) (c : Int) (count : Nat) (memory : Memory) : Memory :=
  let filling : Filling := ⟨dst, memory⟩
  let b := UInt8.ofInt c
  if count < 16 then (whileBelow Filling.p (Filling.byte b) (filling.p + count) filling).memory
  else
    let nModBytes := filling.p % wordSize
    let head := nModBytes > 0
    let filling :=
      if head then doWhile (fun filling => filling.p % wordSize ≠ 0) (Filling.byte b) wordSize filling else filling
    let count := if head then count - (wordSize - nModBytes) else count
    let pe := filling.p + count
    let bw := wordFromByte b
    let pew := filling.p + count / wordSize * wordSize
    let filling := whileBelow Filling.p (Filling.word bw) pew
      (unrolled (Filling.word bw) ((pew - filling.p) / wordSize / 4) filling)
    (whileBelow Filling.p (Filling.byte b) pe filling).memory

/-! ## Moves one after the other -/

section Moves
variable {dst src : Nat} {memory : Memory}

@[simp] theorem Memory.move_zero : memory.move 0 dst src = memory := by
  funext address
  exact if_neg (by omega)

@[simp] theorem Memory.move_self (count : Nat) : memory.move count dst dst = memory := by
  funext address
  unfold move
  by_cases inside : dst ≤ address ∧ address < dst + count
  · rw [if_pos inside, Nat.add_sub_cancel' inside.1]
  · rw [if_neg inside]

/-- Two regions side by side, the lower one first. -/
theorem Memory.move_up {first second : Nat} (apart : dst ≤ src ∨ src + (first + second) ≤ dst) :
    (memory.move first dst src).move second (dst + first) (src + first) = memory.move (first + second) dst src := by
  funext address
  unfold move
  by_cases upper : dst + first ≤ address ∧ address < dst + first + second
  · have outside : ¬(dst ≤ src + first + (address - (dst + first)) ∧
        src + first + (address - (dst + first)) < dst + first) := by omega
    have same : src + first + (address - (dst + first)) = src + (address - dst) := by omega
    rw [if_pos upper, if_neg outside, if_pos (by omega), same]
  · rw [if_neg upper]
    by_cases lower : dst ≤ address ∧ address < dst + first
    · rw [if_pos lower, if_pos (by omega)]
    · rw [if_neg lower, if_neg (by omega)]

/-- Two regions side by side, the upper one first. -/
theorem Memory.move_down {first second : Nat} (apart : src ≤ dst ∨ dst + (first + second) ≤ src) :
    (memory.move second (dst + first) (src + first)).move first dst src = memory.move (first + second) dst src := by
  funext address
  unfold move
  by_cases lower : dst ≤ address ∧ address < dst + first
  · have outside : ¬(dst + first ≤ src + (address - dst) ∧ src + (address - dst) < dst + first + second) := by omega
    rw [if_pos lower, if_neg outside, if_pos (by omega)]
  · rw [if_neg lower]
    by_cases upper : dst + first ≤ address ∧ address < dst + first + second
    · have same : src + first + (address - (dst + first)) = src + (address - dst) := by omega
      rw [if_pos upper, if_pos (by omega), same]
    · rw [if_neg upper, if_neg (by omega)]

namespace Copying

variable {width : Nat} {copying : Copying}

theorem up_iterate {rounds : Nat} (apart : dst ≤ src ∨ src + rounds * width ≤ dst) :
    (up width)^[rounds] ⟨dst, src, memory⟩ =
      ⟨dst + rounds * width, src + rounds * width, memory.move (rounds * width) dst src⟩ := by
  induction rounds with
  | zero => simp
  | succ rounds ih =>
    rw [Nat.succ_mul] at apart ⊢
    rw [Function.iterate_succ_apply', ih (by omega)]
    unfold up
    rw [Memory.move_up apart, Nat.add_assoc, Nat.add_assoc]

theorem down_iterate {width rounds : Nat} (apart : src ≤ dst ∨ dst + rounds * width ≤ src) :
    (down width)^[rounds] ⟨dst + rounds * width, src + rounds * width, memory⟩ =
      ⟨dst, src, memory.move (rounds * width) dst src⟩ := by
  induction rounds generalizing dst src memory with
  | zero => simp
  | succ rounds ih =>
    have split : (rounds + 1) * width = width + rounds * width := by rw [Nat.succ_mul, Nat.add_comm]
    rw [split] at apart ⊢
    have shifted : ∀ start, start + (width + rounds * width) = start + width + rounds * width := by
      intro start
      rw [Nat.add_assoc]
    rw [Function.iterate_succ_apply', shifted, shifted, ih (by omega)]
    unfold down
    rw [Nat.add_sub_cancel, Nat.add_sub_cancel, Memory.move_down apart]

theorem up_p (width : Nat) (copying : Copying) : (copying.up width).p = copying.p + width := rfl

theorem up_ps (width : Nat) (copying : Copying) : (copying.up width).ps = copying.ps + width := rfl

theorem down_p (width : Nat) (copying : Copying) : (copying.down width).p = copying.p - width := rfl

theorem up_eq_bytes (apart : copying.p ≤ copying.ps ∨ copying.ps + width ≤ copying.p) :
    copying.up width = (up 1)^[width] copying := by
  rw [up_iterate (by rwa [Nat.mul_one]), Nat.mul_one]
  rfl

theorem up_iterate_eq_bytes {rounds : Nat}
    (apart : copying.p ≤ copying.ps ∨ copying.ps + width ≤ copying.p) :
    (up width)^[rounds] copying = (up 1)^[rounds * width] copying := by
  induction rounds generalizing copying with
  | zero => simp
  | succ rounds ih =>
    have next : (copying.up width).p ≤ (copying.up width).ps ∨ (copying.up width).ps + width ≤ (copying.up width).p := by
      simp only [up]
      omega
    rw [Function.iterate_succ_apply, ih next, up_eq_bytes apart, ← Function.iterate_add_apply, Nat.succ_mul]

/-- The bytes behind the last word; a whole word where the end is aligned. -/
theorem doWhile_down {copying : Copying} {made : Nat} (long : wordSize ≤ copying.p) (small : made < wordSize)
    (head : (copying.p - 1) % wordSize = made) :
    doWhile (fun copying => copying.p % wordSize ≠ 0) (down 1) wordSize copying = (down 1)^[made + 1] copying := by
  simp only [wordSize] at long small head
  apply doWhile_eq_iterate
  · simp only [wordSize]
    omega
  · intro round inside
    rw [pointer_iterate_down (down_p 1)]
    simp only [wordSize]
    omega
  · rw [pointer_iterate_down (down_p 1)]
    simp only [wordSize]
    omega

theorem upWords_eq {count : Nat} (apart : copying.p ≤ copying.ps ∨ copying.ps + wordSize ≤ copying.p) :
    whileBelow p (up 1) (copying.p + count) (whileBelow p (up wordSize) (copying.p + count / wordSize * wordSize)
      (unrolled (up wordSize) ((copying.p + count / wordSize * wordSize - copying.p) / wordSize / 4) copying)) =
        (up 1)^[count] copying :=
  whileBelow_units (up_p 1) (by decide) (up_p wordSize) (fun _ => up_iterate_eq_bytes apart) rfl

end Copying

namespace Memory

def copyBytes (dst src count : Nat) (memory : Memory) : Memory := ((Copying.up 1)^[count] ⟨dst, src, memory⟩).memory

theorem copyBytes_eq_move {count : Nat} (apart : dst ≤ src ∨ src + count ≤ dst) :
    copyBytes dst src count memory = memory.move count dst src := by
  unfold copyBytes
  rw [Copying.up_iterate (by rwa [Nat.mul_one]), Nat.mul_one]

theorem memcpyOpt_eq {count : Nat} (long : 2 * wordSize ≤ count) (alike : src % wordSize = dst % wordSize) (_ : src ≠ dst) :
    memcpyOpt dst src count memory = copyBytes dst src count memory := by
  have apart : dst ≤ src ∨ src + wordSize ≤ dst := by
    simp only [wordSize] at alike ⊢
    omega
  unfold memcpyOpt copyBytes
  dsimp only
  by_cases head : dst % wordSize > 0
  · have apart' : ((Copying.up 1)^[wordSize - dst % wordSize] ⟨dst, src, memory⟩).p ≤
          ((Copying.up 1)^[wordSize - dst % wordSize] ⟨dst, src, memory⟩).ps ∨
        ((Copying.up 1)^[wordSize - dst % wordSize] ⟨dst, src, memory⟩).ps + wordSize ≤
          ((Copying.up 1)^[wordSize - dst % wordSize] ⟨dst, src, memory⟩).p := by
      rw [pointer_iterate (Copying.up_p 1), pointer_iterate (Copying.up_ps 1)]
      dsimp only
      omega
    rw [if_pos head, if_pos head, doWhile_aligned (Copying.up_p 1) (by decide) head, Copying.upWords_eq apart', ← Function.iterate_add_apply,
      Nat.sub_add_cancel (by omega)]
  · rw [if_neg head, if_neg head, Copying.upWords_eq apart]

/-- `memcpy` copies byte by byte, from the first one to the last one. -/
theorem memcpy_eq_copyBytes (dst src count : Nat) (memory : Memory) :
    memcpy dst src count memory = copyBytes dst src count memory := by
  unfold memcpy
  by_cases idle : src = dst ∨ count = 0
  · rw [if_pos idle]
    rcases idle with rfl | rfl
    · rw [copyBytes_eq_move (.inl (Nat.le_refl _)), move_self]
    · rfl
  · obtain ⟨differ, -⟩ := not_or.mp idle
    rw [if_neg idle]
    by_cases words : count ≥ 2 * wordSize ∧ src % wordSize = dst % wordSize
    · rw [if_pos words, memcpyOpt_eq words.1 words.2 differ]
    · rw [if_neg words, whileBelow_unrolled (Copying.up_p 1) Nat.one_pos (Nat.mul_div_le _ 4) (by rw [Nat.mul_one])]
      rfl

theorem memcpyBytesRev_eq {count : Nat} (apart : src ≤ dst ∨ dst + count ≤ src) :
    memcpyBytesRev dst src count memory = memory.move count dst src := by
  unfold memcpyBytesRev
  have down := @Copying.down_iterate dst src memory 1 count (by rwa [Nat.mul_one])
  rw [Nat.mul_one] at down
  rw [whileAbove_unrolled (Copying.down_p 1) Nat.one_pos (Nat.mul_div_le _ 4) (by rw [Nat.mul_one]), down]

end Memory

/-! ## From the last byte to the first one -/

namespace Copying

theorem downWords_eq {count : Nat} {copying : Copying} (long : count ≤ copying.p) :
    whileAbove p (down wordSize) (copying.p - count / wordSize * wordSize)
      (unrolled (down wordSize) ((copying.p - (copying.p - count / wordSize * wordSize)) / wordSize / 4) copying) =
        (down wordSize)^[count / wordSize] copying := by
  have positive : 0 < wordSize := by decide
  have whole : count / wordSize * wordSize ≤ count := Nat.div_mul_le_self count wordSize
  have bytes : copying.p - (copying.p - count / wordSize * wordSize) = count / wordSize * wordSize := by omega
  rw [bytes, Nat.mul_div_cancel _ positive, whileAbove_unrolled (down_p wordSize) positive (Nat.mul_div_le _ 4)]
  omega

/-- The words of a region, and the bytes in front of them. -/
theorem downRegion {count : Nat} (ordered : src ≤ dst) :
    whileAbove p (down 1) dst ((down wordSize)^[count / wordSize] ⟨dst + count, src + count, memory⟩) =
      ⟨dst, src, memory.move count dst src⟩ := by
  have split := Nat.mod_add_div' count wordSize
  have top : ∀ start, start + count = start + count % wordSize + count / wordSize * wordSize := by
    intro start
    rw [Nat.add_assoc, split]
  have words := @down_iterate (dst + count % wordSize) (src + count % wordSize) memory wordSize (count / wordSize)
    (.inl (by omega))
  have bytes := @down_iterate dst src (memory.move (count / wordSize * wordSize) (dst + count % wordSize) (src + count % wordSize)) 1
    (count % wordSize) (.inl ordered)
  rw [Nat.mul_one] at bytes
  rw [top, top, words, @whileAbove_eq _ _ _ _ (down_p 1) _ (count % wordSize) _ Nat.one_pos (by rw [Nat.mul_one]), bytes,
    Memory.move_down (.inl ordered), split]

end Copying

namespace Memory

/-- The count is one too large behind the bytes that align the end, so that a word too many is copied where
the region begins one byte behind a word boundary. -/
theorem memcpyOptRev_eq {count : Nat} (long : 2 * wordSize ≤ count) (alike : src % wordSize = dst % wordSize) (ordered : src < dst) :
    memcpyOptRev dst src count memory =
      if dst % wordSize = 1 ∧ count % wordSize ≠ 0 then memory.move (count + 1) (dst - 1) (src - 1) else memory.move count dst src := by
  have below : (dst + count - 1) % wordSize < wordSize := Nat.mod_lt _ (by decide)
  unfold memcpyOptRev
  dsimp only
  generalize made_eq : (dst + count - 1) % wordSize = made at below
  by_cases head : made > 0
  · obtain ⟨rest, total⟩ := Nat.exists_eq_add_of_le (show made + 1 ≤ count by omega)
    have top : ∀ start, start + count = start + rest + (made + 1) := by
      omega
    have tail := @Copying.down_iterate (dst + rest) (src + rest) memory 1 (made + 1) (.inl (by omega))
    rw [Nat.mul_one, ← top, ← top] at tail
    have aligned := @Copying.doWhile_down ⟨dst + count, src + count, memory⟩ made (by dsimp only; omega) below made_eq
    have left : count - made = rest + 1 := by omega
    rw [if_pos head, if_pos head, aligned, tail, left, Copying.downWords_eq (by dsimp only; omega)]
    by_cases tooFar : dst % wordSize = 1 ∧ count % wordSize ≠ 0
    · have words : (rest + 1) / wordSize * wordSize = rest + 1 := by
        simp only [wordSize] at made_eq tooFar ⊢
        omega
      have before : ∀ start, start % wordSize = 1 → start + rest = start - 1 + (rest + 1) := by
        intro start unaligned
        simp only [wordSize] at unaligned
        omega
      have moves := @Copying.down_iterate (dst - 1) (src - 1) (memory.move (made + 1) (dst - 1 + (rest + 1)) (src - 1 + (rest + 1)))
        wordSize ((rest + 1) / wordSize) (.inl (by omega))
      rw [words] at moves
      have stops : ∀ memory, whileAbove Copying.p (Copying.down 1) dst ⟨dst - 1, src - 1, memory⟩ = ⟨dst - 1, src - 1, memory⟩ :=
        fun _ => whileAbove_of_le (Nat.sub_le dst 1)
      have whole : rest + 1 + (made + 1) = count + 1 := by omega
      rw [if_pos tooFar, before dst tooFar.1, before src (alike.trans tooFar.1), moves, stops]
      rw [move_down (.inl (by omega)), whole]
    · have words : (rest + 1) / wordSize = rest / wordSize := by
        simp only [wordSize] at made_eq tooFar ⊢
        omega
      have whole : rest + (made + 1) = count := by omega
      rw [if_neg tooFar, words, Copying.downRegion (Nat.le_of_lt ordered)]
      rw [move_down (.inl (Nat.le_of_lt ordered)), whole]
  · have noHead : dst % wordSize = 1 → count % wordSize = 0 := by
      simp only [wordSize] at made_eq ⊢
      omega
    have exactly : ¬(dst % wordSize = 1 ∧ count % wordSize ≠ 0) := fun both => both.2 (noHead both.1)
    rw [if_neg head, if_neg head, if_neg exactly, Copying.downWords_eq (by dsimp only; omega), Copying.downRegion (Nat.le_of_lt ordered)]

theorem memcpyRev_eq {count : Nat} (ordered : src ≤ dst) :
    memcpyRev dst src count memory =
      if src < dst ∧ 2 * wordSize ≤ count ∧ src % wordSize = 1 ∧ dst % wordSize = 1 ∧ count % wordSize ≠ 0 then
        memory.move (count + 1) (dst - 1) (src - 1)
      else memory.move count dst src := by
  unfold memcpyRev
  by_cases idle : src = dst ∨ count = 0
  · rw [if_pos idle, if_neg]
    · rcases idle with rfl | rfl
      · rw [move_self]
      · rw [move_zero]
    · simp only [wordSize]
      omega
  · obtain ⟨differ, -⟩ := not_or.mp idle
    rw [if_neg idle]
    by_cases words : count ≥ 2 * wordSize ∧ src % wordSize = dst % wordSize
    · have below : src < dst := Nat.lt_of_le_of_ne ordered differ
      have same : (src < dst ∧ 2 * wordSize ≤ count ∧ src % wordSize = 1 ∧ dst % wordSize = 1 ∧ count % wordSize ≠ 0) ↔
          dst % wordSize = 1 ∧ count % wordSize ≠ 0 := by
        rw [words.2]
        simp [below, words.1]
      rw [if_pos words, memcpyOptRev_eq words.1 words.2 below]
      simp only [same]
    · have exactly : ¬(src < dst ∧ 2 * wordSize ≤ count ∧ src % wordSize = 1 ∧ dst % wordSize = 1 ∧ count % wordSize ≠ 0) :=
        fun tooFar => words ⟨tooFar.2.1, tooFar.2.2.1.trans tooFar.2.2.2.1.symm⟩
      rw [if_neg words, if_neg exactly, memcpyBytesRev_eq (.inl ordered)]

/-- The region has been copied, and nothing else has been written. -/
def Exact (dst src count : Nat) (before after : Memory) : Prop :=
  (∀ index < count, after (dst + index) = before (src + index)) ∧
    ∀ address, ¬(dst ≤ address ∧ address < dst + count) → after address = before address

theorem exact_iff {count : Nat} {after : Memory} : Exact dst src count memory after ↔ after = memory.move count dst src := by
  constructor
  · intro ⟨inside, outside⟩
    funext address
    unfold move
    by_cases within : dst ≤ address ∧ address < dst + count
    · have copied := inside (address - dst) (by omega)
      rw [Nat.add_sub_cancel' within.1] at copied
      rw [if_pos within, copied]
    · rw [if_neg within, outside address within]
  · rintro rfl
    constructor
    · intro index inside
      unfold move
      rw [if_pos (by omega), Nat.add_sub_cancel_left]
    · intro address outside
      exact if_neg outside

/-- One byte more in front of the region. -/
theorem move_before_iff {count : Nat} (first : 0 < dst) (first' : 0 < src) :
    memory.move (count + 1) (dst - 1) (src - 1) = memory.move count dst src ↔ memory (dst - 1) = memory (src - 1) := by
  constructor
  · intro same
    have byte := congrFun same (dst - 1)
    unfold move at byte
    rw [if_pos (by omega), if_neg (by omega), Nat.sub_self, Nat.add_zero] at byte
    exact byte.symm
  · intro same
    funext address
    unfold move
    by_cases within : dst ≤ address ∧ address < dst + count
    · have shifted : src - 1 + (address - (dst - 1)) = src + (address - dst) := by omega
      rw [if_pos within, if_pos (by omega), shifted]
    · rw [if_neg within]
      by_cases before : dst - 1 ≤ address ∧ address < dst - 1 + (count + 1)
      · obtain rfl : address = dst - 1 := by omega
        rw [if_pos before, Nat.sub_self, Nat.add_zero, same]
      · rw [if_neg before]

/-- `memmove` copies the region exactly, and its two ways from the end agree, unless a word too many is copied whose
first byte differs. -/
theorem memmove_exact_iff (dst src count : Nat) (memory : Memory) :
    (Exact dst src count memory (memmove dst src count memory) ∧
        (src ≤ dst → memcpyRev dst src count memory = memcpyBytesRev dst src count memory)) ↔
      ¬(src < dst ∧ 2 * wordSize ≤ count ∧ src % wordSize = 1 ∧ dst % wordSize = 1 ∧ count % wordSize ≠ 0 ∧
        memory (dst - 1) ≠ memory (src - 1)) := by
  rw [exact_iff]
  unfold memmove
  by_cases below : dst < src
  · rw [if_pos below, memcpy_eq_copyBytes, copyBytes_eq_move (.inl (Nat.le_of_lt below))]
    constructor
    · omega
    · intro _
      refine ⟨rfl, fun ordered => ?_⟩
      omega
  · have ordered : src ≤ dst := Nat.not_lt.mp below
    rw [if_neg below, memcpyRev_eq ordered, memcpyBytesRev_eq (.inl ordered)]
    by_cases tooFar : src < dst ∧ 2 * wordSize ≤ count ∧ src % wordSize = 1 ∧ dst % wordSize = 1 ∧ count % wordSize ≠ 0
    · have first : ∀ start, start % wordSize = 1 → 0 < start := by
        intro start unaligned
        simp only [wordSize] at unaligned
        omega
      rw [if_pos tooFar, move_before_iff (first dst tooFar.2.2.2.1) (first src tooFar.2.2.1)]
      constructor
      · intro ⟨same, _⟩ ⟨_, _, _, _, _, differs⟩
        exact differs same
      · intro exactly
        have same : memory (dst - 1) = memory (src - 1) := by
          by_contra differs
          exact exactly ⟨tooFar.1, tooFar.2.1, tooFar.2.2.1, tooFar.2.2.2.1, tooFar.2.2.2.2, differs⟩
        exact ⟨same, fun _ => same⟩
    · rw [if_neg tooFar]
      constructor
      · intro _ ⟨above, long, odd, odd', rest, _⟩
        exact tooFar ⟨above, long, odd, odd', rest⟩
      · intro _
        exact ⟨rfl, fun _ => rfl⟩

/-- Nine bytes moved up by a word, from behind a word boundary to behind one. -/
theorem memmove_not_exact :
    ¬∀ (dst src count : Nat) (memory : Memory), Exact dst src count memory (memmove dst src count memory) ∧
      (src ≤ dst → memcpyRev dst src count memory = memcpyBytesRev dst src count memory) := by
  intro always
  have outside := (always 5 1 9 fun address => UInt8.ofNat address).1.2 4 (by decide)
  exact absurd outside (by decide)

end Memory

end Moves

/-! ## Filling -/

section Fillings
variable {dst : Nat} {memory : Memory}

theorem byteOfWord_wordFromByte (b : UInt8) (index : Nat) : byteOfWord (wordFromByte b) index = b := by
  have each : ∀ b : Fin 256, (wordFromByte (UInt8.ofFin b) >>> 24).toUInt8 = UInt8.ofFin b ∧
      (wordFromByte (UInt8.ofFin b) >>> 16).toUInt8 = UInt8.ofFin b ∧
        (wordFromByte (UInt8.ofFin b) >>> 8).toUInt8 = UInt8.ofFin b ∧ (wordFromByte (UInt8.ofFin b)).toUInt8 = UInt8.ofFin b := by
    decide +kernel
  obtain ⟨first, second, third, last⟩ := each b.toFin
  unfold byteOfWord
  split
  · exact first
  · exact second
  · exact third
  · exact last

/-- Two regions side by side. -/
theorem Memory.put_up {first second : Nat} (b : UInt8) :
    (memory.put first dst fun _ => b).put second (dst + first) (fun _ => b) = memory.put (first + second) dst fun _ => b := by
  funext address
  unfold put
  by_cases upper : dst + first ≤ address ∧ address < dst + first + second
  · rw [if_pos upper, if_pos (by omega)]
  · rw [if_neg upper]
    by_cases lower : dst ≤ address ∧ address < dst + first
    · rw [if_pos lower, if_pos (by omega)]
    · rw [if_neg lower, if_neg (by omega)]

namespace Filling

theorem byte_p (b : UInt8) (filling : Filling) : (filling.byte b).p = filling.p + 1 := rfl

theorem word_p (bw : UInt32) (filling : Filling) : (filling.word bw).p = filling.p + wordSize := rfl

theorem byte_iterate (b : UInt8) (rounds : Nat) :
    (byte b)^[rounds] ⟨dst, memory⟩ = ⟨dst + rounds, memory.put rounds dst fun _ => b⟩ := by
  induction rounds with
  | zero =>
    have none : memory.put 0 dst (fun _ => b) = memory := by
      funext address
      exact if_neg (by omega)
    rw [none]
    rfl
  | succ rounds ih =>
    rw [Function.iterate_succ_apply', ih]
    unfold byte
    rw [Memory.put_up, Nat.add_assoc]

theorem word_eq_bytes (b : UInt8) (filling : Filling) : filling.word (wordFromByte b) = (byte b)^[wordSize] filling := by
  rw [byte_iterate]
  unfold word
  rw [funext (byteOfWord_wordFromByte b)]

theorem word_iterate_eq_bytes (b : UInt8) (rounds : Nat) :
    (word (wordFromByte b))^[rounds] = (byte b)^[rounds * wordSize] := by
  rw [funext (word_eq_bytes b), Nat.mul_comm, Function.iterate_mul]

theorem words_eq (b : UInt8) (count : Nat) (filling : Filling) :
    whileBelow p (byte b) (filling.p + count) (whileBelow p (word (wordFromByte b)) (filling.p + count / wordSize * wordSize)
      (unrolled (word (wordFromByte b)) ((filling.p + count / wordSize * wordSize - filling.p) / wordSize / 4) filling)) =
        (byte b)^[count] filling :=
  whileBelow_units (byte_p b) (by decide) (word_p _) (fun rounds => congrFun (word_iterate_eq_bytes b rounds) filling) rfl

end Filling

namespace Memory

def fillBytes (dst : Nat) (c : Int) (count : Nat) (memory : Memory) : Memory :=
  ((Filling.byte (UInt8.ofInt c))^[count] ⟨dst, memory⟩).memory

theorem memset_eq_fillBytes (dst : Nat) (c : Int) (count : Nat) (memory : Memory) :
    memset dst c count memory = fillBytes dst c count memory := by
  unfold memset fillBytes
  dsimp only
  by_cases small : count < 16
  · rw [if_pos small, whileBelow_eq (Filling.byte_p _) Nat.one_pos (by rw [Nat.mul_one])]
  · rw [if_neg small]
    by_cases head : dst % wordSize > 0
    · have short : wordSize - dst % wordSize ≤ count := by
        simp only [wordSize]
        omega
      rw [if_pos head, if_pos head, doWhile_aligned (Filling.byte_p _) (by decide) head, Filling.words_eq,
        ← Function.iterate_add_apply, Nat.sub_add_cancel short]
    · rw [if_neg head, if_neg head, Filling.words_eq]

/-- `memset` fills the region, `memcpy` copies it where it is apart from or above its destination, and both do what
a loop over the bytes does. -/
theorem memset_memcpy_exact :
    (∀ dst c count memory address, memset dst c count memory address =
      if dst ≤ address ∧ address < dst + count then UInt8.ofInt c else memory address) ∧
    (∀ dst c count memory, memset dst c count memory = fillBytes dst c count memory) ∧
    (∀ dst src count memory, dst ≤ src ∨ src + count ≤ dst → Exact dst src count memory (memcpy dst src count memory)) ∧
    ∀ dst src count memory, memcpy dst src count memory = copyBytes dst src count memory := by
  refine ⟨fun dst c count memory address => ?_, memset_eq_fillBytes, fun dst src count memory apart => ?_, memcpy_eq_copyBytes⟩
  · rw [memset_eq_fillBytes, fillBytes, Filling.byte_iterate]
    rfl
  · rw [memcpy_eq_copyBytes, copyBytes_eq_move apart]
    exact exact_iff.mpr rfl

/-- 22 bytes from an odd address to an overlapping region below it. -/
theorem memcpy_exact_overlapping (memory : Memory) : Exact 3 7 22 memory (memcpy 3 7 22 memory) :=
  memset_memcpy_exact.2.2.1 3 7 22 memory (by decide)

end Memory

end Fillings

end Apollo.Klib
