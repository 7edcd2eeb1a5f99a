import Apollo.Lib.Masks
import Mathlib.Data.List.Basic
import Mathlib.Tactic.Ring

/-!
# The ring buffer

`RingBuffer.c` keeps two free-running indices of type `size_t`, which wrap at
`2^32`, and masks them when it accesses the data.  The capacity is a power of
two, so that wrapping and masking agree.  `content` is the sequence of bytes
that the buffer stands for.
-/

set_option autoImplicit false

namespace Apollo.Klib

open Lib

/-! ## The capacity -/

/-- The loop of `Int_NextPowerOf2` with the number of rounds that it may make. -/
def doubleUpTo (n : BitVec 32) : Nat → BitVec 32 → Option (BitVec 32)
  | 0, _ => none
  | fuel + 1, p => if p.slt n then doubleUpTo n fuel (p <<< 1) else some p

/-- `Int_NextPowerOf2`; the argument and the result are of type `int`. -/
def intNextPowerOf2 (fuel : Nat) (n : BitVec 32) : Option (BitVec 32) :=
  if n ≠ 0 ∧ n &&& (n - 1) = 0 then some n else doubleUpTo n fuel 1

structure RingBuffer where
  data : Nat → UInt8
  capacity : BitVec 32
  readIdx : BitVec 32
  writeIdx : BitVec 32

namespace RingBuffer

/-- `RingBuffer_Init`; `data` is what is in the memory that `kalloc` returns. -/
def init (fuel : Nat) (capacity : BitVec 32) (data : Nat → UInt8) : Option RingBuffer :=
  (intNextPowerOf2 fuel capacity).map fun capacity => ⟨data, capacity, 0, 0⟩

def maskIndex (capacity val : BitVec 32) : Nat := (val &&& (capacity - 1)).toNat

def readableCount (buffer : RingBuffer) : BitVec 32 := buffer.writeIdx - buffer.readIdx

def writableCount (buffer : RingBuffer) : BitVec 32 :=
  buffer.capacity - (buffer.writeIdx - buffer.readIdx)

/-- `__min(avail, count)`.  The comparison is one of `size_t` values, since `count` is one. -/
def bytesToCopy (avail count : BitVec 32) : BitVec 32 := if avail.ult count then avail else count

/-- The rounds of a loop that counts an `int` from 0 up to `count`. -/
def rounds (count : BitVec 32) : Nat := count.toInt.toNat

/-- The loop of `RingBuffer_PutBytes` from the index `index` on. -/
def copyIn (capacity : BitVec 32) : BitVec 32 → List UInt8 → (Nat → UInt8) → Nat → UInt8
  | _, [], data => data
  | index, byte :: rest, data =>
    copyIn capacity (index + 1) rest (Function.update data (maskIndex capacity index) byte)

/-- The loop of `RingBuffer_GetBytes` from the index `index` on. -/
def copyOut (capacity : BitVec 32) (data : Nat → UInt8) : BitVec 32 → Nat → List UInt8
  | _, 0 => []
  | index, count + 1 => data (maskIndex capacity index) :: copyOut capacity data (index + 1) count

def putBytes (buffer : RingBuffer) (bytes : List UInt8) : BitVec 32 × RingBuffer :=
  let count : BitVec 32 := BitVec.ofNat 32 bytes.length
  let avail := buffer.writableCount
  if count = 0 ∨ avail = 0 then (0, buffer)
  else
    let nBytesToCopy := bytesToCopy avail count
    (nBytesToCopy, { buffer with
      data := copyIn buffer.capacity buffer.writeIdx (bytes.take (rounds nBytesToCopy)) buffer.data
      writeIdx := buffer.writeIdx + nBytesToCopy })

/-- `RingBuffer_GetBytes`; the bytes that it stores at `pBytes` come with the result. -/
def getBytes (buffer : RingBuffer) (count : BitVec 32) : BitVec 32 × List UInt8 × RingBuffer :=
  let avail := buffer.readableCount
  if count = 0 ∨ avail = 0 then (0, [], buffer)
  else
    let nBytesToCopy := bytesToCopy avail count
    (nBytesToCopy, copyOut buffer.capacity buffer.data buffer.readIdx (rounds nBytesToCopy),
      { buffer with readIdx := buffer.readIdx + nBytesToCopy })

def content (buffer : RingBuffer) : List UInt8 :=
  copyOut buffer.capacity buffer.data buffer.readIdx buffer.readableCount.toNat

/-! ## Masked indices -/

/-- The capacity is a power of two, and no more than that many bytes are stored. -/
structure Valid (buffer : RingBuffer) : Prop where
  power : ∃ exponent, exponent < 32 ∧ buffer.capacity.toNat = 2 ^ exponent
  bounded : buffer.readableCount.toNat ≤ buffer.capacity.toNat

section Masks
variable {capacity : BitVec 32} {exponent : Nat}

theorem mask_toNat (power : capacity.toNat = 2 ^ exponent) : (capacity - 1).toNat = 2 ^ exponent - 1 := by
  have positive : 0 < 2 ^ exponent := Nat.two_pow_pos exponent
  have one : (1 : BitVec 32).toNat = 1 := rfl
  rw [BitVec.toNat_sub_of_le (by rw [BitVec.le_def, one, power]; omega), power, one]

/-- Two slots of one round through the buffer are different. -/
theorem maskIndex_inj (small : exponent < 32) (power : capacity.toNat = 2 ^ exponent) {index : BitVec 32}
    {first second : Nat} (low : first < 2 ^ exponent) (high : second < 2 ^ exponent)
    (same : maskIndex capacity (index + BitVec.ofNat 32 first) =
      maskIndex capacity (index + BitVec.ofNat 32 second)) : first = second :=
  masked_inj (Nat.le_of_lt small) (mask_toNat power) low high same

theorem ofNat_succ (index : BitVec 32) (offset : Nat) :
    index + 1 + BitVec.ofNat 32 offset = index + BitVec.ofNat 32 (offset + 1) := by
  rw [BitVec.add_assoc, Nat.add_comm offset 1, BitVec.ofNat_add]
  rfl

theorem ofNat_toNat_add (index : BitVec 32) (first second : Nat) :
    index + BitVec.ofNat 32 first + BitVec.ofNat 32 second = index + BitVec.ofNat 32 (first + second) := by
  rw [BitVec.add_assoc, BitVec.ofNat_add]

end Masks

/-! ## The copy loops -/

section Copies
variable {capacity : BitVec 32}

theorem copyOut_append (data : Nat → UInt8) (index : BitVec 32) (first second : Nat) :
    copyOut capacity data index (first + second) =
      copyOut capacity data index first ++ copyOut capacity data (index + BitVec.ofNat 32 first) second := by
  induction first generalizing index with
  | zero => simp [copyOut]
  | succ first ih =>
    rw [Nat.succ_add, copyOut, copyOut, ih, ofNat_succ]
    rfl

theorem length_copyOut (data : Nat → UInt8) (index : BitVec 32) (count : Nat) :
    (copyOut capacity data index count).length = count := by
  induction count generalizing index with
  | zero => rfl
  | succ count ih => rw [copyOut, List.length_cons, ih]

theorem copyOut_congr {data data' : Nat → UInt8} {index : BitVec 32} {count : Nat}
    (same : ∀ offset, offset < count → data (maskIndex capacity (index + BitVec.ofNat 32 offset)) =
      data' (maskIndex capacity (index + BitVec.ofNat 32 offset))) :
    copyOut capacity data index count = copyOut capacity data' index count := by
  induction count generalizing index with
  | zero => rfl
  | succ count ih =>
    have here := same 0 (Nat.succ_pos count)
    rw [BitVec.add_zero] at here
    rw [copyOut, copyOut, here, ih]
    intro offset inside
    rw [ofNat_succ]
    exact same (offset + 1) (by omega)

theorem copyIn_apart {slot : Nat} {index : BitVec 32} (bytes : List UInt8) {data : Nat → UInt8}
    (apart : ∀ offset, offset < bytes.length → maskIndex capacity (index + BitVec.ofNat 32 offset) ≠ slot) :
    copyIn capacity index bytes data slot = data slot := by
  induction bytes generalizing index data with
  | nil => rfl
  | cons byte rest ih =>
    have here := apart 0 (Nat.succ_pos rest.length)
    rw [BitVec.add_zero] at here
    rw [copyIn, ih, Function.update_of_ne here.symm]
    intro offset inside
    rw [ofNat_succ]
    exact apart (offset + 1) (by simpa using inside)

theorem copyOut_copyIn {exponent : Nat} (small : exponent < 32) (power : capacity.toNat = 2 ^ exponent)
    (index : BitVec 32) {bytes : List UInt8} (fits : bytes.length ≤ 2 ^ exponent) (data : Nat → UInt8) :
    copyOut capacity (copyIn capacity index bytes data) index bytes.length = bytes := by
  induction bytes generalizing index data with
  | nil => rfl
  | cons byte rest ih =>
    rw [List.length_cons] at fits
    have first : copyIn capacity (index + 1) rest (Function.update data (maskIndex capacity index) byte)
        (maskIndex capacity index) = byte := by
      rw [copyIn_apart rest, Function.update_self]
      intro offset inside same
      rw [ofNat_succ] at same
      have start : maskIndex capacity index = maskIndex capacity (index + BitVec.ofNat 32 0) := by
        rw [BitVec.add_zero]
      rw [start] at same
      exact absurd (maskIndex_inj small power (by omega) (by omega) same) (Nat.succ_ne_zero offset)
    rw [List.length_cons, copyOut, copyIn, first, ih (index + 1) (by omega)]

end Copies

/-! ## What the operations do to the content -/

section Specs
variable {buffer : RingBuffer}

theorem Valid.writeIdx_eq (buffer : RingBuffer) :
    buffer.writeIdx = buffer.readIdx + BitVec.ofNat 32 buffer.readableCount.toNat := by
  rw [BitVec.ofNat_toNat, BitVec.setWidth_eq]
  unfold readableCount
  rw [BitVec.add_comm, BitVec.sub_add_cancel]

theorem Valid.length_content (buffer : RingBuffer) : buffer.content.length = buffer.readableCount.toNat :=
  length_copyOut _ _ _

theorem Valid.writableCount_toNat (valid : buffer.Valid) :
    buffer.writableCount.toNat = buffer.capacity.toNat - buffer.content.length := by
  rw [Valid.length_content]
  exact BitVec.toNat_sub_of_le valid.bounded

theorem Valid.content_le (valid : buffer.Valid) : buffer.content.length ≤ buffer.capacity.toNat := by
  rw [Valid.length_content]
  exact valid.bounded

theorem bytesToCopy_toNat (avail count : BitVec 32) :
    (bytesToCopy avail count).toNat = min avail.toNat count.toNat := by
  unfold bytesToCopy
  by_cases less : avail.toNat < count.toNat
  · rw [if_pos (by simpa [BitVec.ult] using less)]
    omega
  · rw [if_neg (by simpa [BitVec.ult] using less)]
    omega

theorem rounds_eq {count : BitVec 32} (small : count.toNat < 2147483648) : rounds count = count.toNat := by
  unfold rounds
  rw [BitVec.toInt_eq_toNat_of_lt (by omega)]
  rfl

/-- `RingBuffer_PutBytes` appends as many bytes as fit. -/
theorem putBytes_spec (valid : buffer.Valid) {bytes : List UInt8} (small : bytes.length < 2147483648) :
    (buffer.putBytes bytes).1.toNat = min (buffer.capacity.toNat - buffer.content.length) bytes.length ∧
      (buffer.putBytes bytes).2.Valid ∧ (buffer.putBytes bytes).2.capacity = buffer.capacity ∧
      (buffer.putBytes bytes).2.content =
        buffer.content ++ bytes.take (buffer.capacity.toNat - buffer.content.length) := by
  have room := valid.writableCount_toNat
  have full := valid.content_le
  have count : (BitVec.ofNat 32 bytes.length).toNat = bytes.length := by
    exact Nat.mod_eq_of_lt (by omega)
  have copied := bytesToCopy_toNat buffer.writableCount (BitVec.ofNat 32 bytes.length)
  rw [room, count] at copied
  unfold putBytes
  by_cases nothing : BitVec.ofNat 32 bytes.length = 0 ∨ buffer.writableCount = 0
  · simp only [if_pos nothing]
    have zero : bytes.length = 0 ∨ buffer.capacity.toNat - buffer.content.length = 0 := by
      rcases nothing with empty | noRoom
      · rw [empty] at count
        exact .inl count.symm
      · rw [noRoom] at room
        exact .inr room.symm
    have none : bytes.take (buffer.capacity.toNat - buffer.content.length) = [] := by
      rw [List.take_eq_nil_iff, ← List.length_eq_zero_iff]
      exact zero.symm
    rw [none, List.append_nil]
    refine ⟨?_, valid, trivial, rfl⟩
    change 0 = _
    omega
  · simp only [if_neg nothing]
    have length := Valid.length_content buffer
    obtain ⟨exponent, bound, power⟩ := valid.power
    generalize bytesToCopy buffer.writableCount (BitVec.ofNat 32 bytes.length) = n at copied ⊢
    have rounds : rounds n = n.toNat := rounds_eq (by omega)
    have readable : buffer.writeIdx + n - buffer.readIdx = buffer.readableCount + n := by
      unfold readableCount
      rw [BitVec.sub_add_comm, BitVec.add_comm, BitVec.add_comm n]
    have total : (buffer.writeIdx + n - buffer.readIdx).toNat = buffer.readableCount.toNat + n.toNat := by
      rw [readable, BitVec.toNat_add]
      exact Nat.mod_eq_of_lt (by omega)
    have taken : bytes.take n.toNat = bytes.take (buffer.capacity.toNat - buffer.content.length) := by
      rw [copied, List.take_eq_take_iff]
      omega
    have takenLength : (bytes.take n.toNat).length = n.toNat := by
      rw [List.length_take]
      omega
    refine ⟨copied, ⟨⟨exponent, bound, power⟩, ?_⟩, trivial, ?_⟩
    · change (buffer.writeIdx + n - buffer.readIdx).toNat ≤ buffer.capacity.toNat
      omega
    · rw [← taken, rounds]
      change copyOut buffer.capacity (copyIn buffer.capacity buffer.writeIdx (bytes.take n.toNat) buffer.data)
        buffer.readIdx (buffer.writeIdx + n - buffer.readIdx).toNat = _
      rw [total, copyOut_append]
      congr 1
      · apply copyOut_congr
        intro offset inside
        apply copyIn_apart
        intro other early same
        rw [Valid.writeIdx_eq buffer, ofNat_toNat_add] at same
        have equal := maskIndex_inj bound power (by omega) (by omega) same
        omega
      · have copies := copyOut_copyIn bound power buffer.writeIdx
          (by omega : (bytes.take n.toNat).length ≤ 2 ^ exponent) buffer.data
        rw [takenLength] at copies
        rw [← Valid.writeIdx_eq buffer]
        exact copies

theorem getBytes_spec (valid : buffer.Valid) {count : Nat} (small : count < 2147483648) :
    (buffer.getBytes (BitVec.ofNat 32 count)).1.toNat = min buffer.content.length count ∧
      (buffer.getBytes (BitVec.ofNat 32 count)).2.1 = buffer.content.take count ∧
      (buffer.getBytes (BitVec.ofNat 32 count)).2.2.Valid ∧
      (buffer.getBytes (BitVec.ofNat 32 count)).2.2.capacity = buffer.capacity ∧
      (buffer.getBytes (BitVec.ofNat 32 count)).2.2.content = buffer.content.drop count := by
  have length := Valid.length_content buffer
  have wanted : (BitVec.ofNat 32 count).toNat = count := by
    exact Nat.mod_eq_of_lt (by omega)
  have copied := bytesToCopy_toNat buffer.readableCount (BitVec.ofNat 32 count)
  rw [wanted] at copied
  unfold getBytes
  by_cases nothing : BitVec.ofNat 32 count = 0 ∨ buffer.readableCount = 0
  · simp only [if_pos nothing]
    have zero : count = 0 ∨ buffer.content = [] := by
      rcases nothing with none | empty
      · rw [none] at wanted
        exact .inl wanted.symm
      · rw [empty] at length
        exact .inr (List.length_eq_zero_iff.mp length)
    rcases zero with none | empty
    · rw [none]
      exact ⟨(Nat.min_zero _).symm, rfl, valid, trivial, rfl⟩
    · rw [empty]
      exact ⟨(Nat.zero_min _).symm, List.take_nil.symm, valid, trivial, List.drop_nil.symm⟩
  · simp only [if_neg nothing]
    generalize bytesToCopy buffer.readableCount (BitVec.ofNat 32 count) = n at copied ⊢
    have rounds : rounds n = n.toNat := rounds_eq (by omega)
    have split : buffer.content = copyOut buffer.capacity buffer.data buffer.readIdx n.toNat ++
        copyOut buffer.capacity buffer.data (buffer.readIdx + n) (buffer.readableCount.toNat - n.toNat) := by
      have whole : buffer.readableCount.toNat = n.toNat + (buffer.readableCount.toNat - n.toNat) := by omega
      have parts := @copyOut_append buffer.capacity buffer.data buffer.readIdx n.toNat
        (buffer.readableCount.toNat - n.toNat)
      rw [← whole, BitVec.ofNat_toNat, BitVec.setWidth_eq] at parts
      exact parts
    have left : (buffer.writeIdx - (buffer.readIdx + n)).toNat = buffer.readableCount.toNat - n.toNat := by
      have same : buffer.writeIdx - (buffer.readIdx + n) = buffer.readableCount - n := by
        unfold readableCount
        bv_omega
      rw [same]
      exact BitVec.toNat_sub_of_le (by rw [BitVec.le_def]; omega)
    have first := @length_copyOut buffer.capacity buffer.data buffer.readIdx n.toNat
    refine ⟨by rw [copied, length], ?_, ⟨valid.power, ?_⟩, trivial, ?_⟩
    · have same : buffer.content.take count = buffer.content.take n.toNat := by
        rw [List.take_eq_take_iff]
        omega
      rw [rounds, same, split, List.take_left' first]
    · change (buffer.writeIdx - (buffer.readIdx + n)).toNat ≤ buffer.capacity.toNat
      have bounded := valid.bounded
      omega
    · change copyOut buffer.capacity buffer.data (buffer.readIdx + n)
        (buffer.writeIdx - (buffer.readIdx + n)).toNat = _
      have same : buffer.content.drop count = buffer.content.drop n.toNat := by
        rw [List.drop_eq_drop_iff]
        omega
      rw [left, same, split, List.drop_left' first]

end Specs

/-! ## The new buffer -/

variable {n result : BitVec 32} {fuel : Nat}

/-- Once the bit has left the word, the loop goes on for ever. -/
theorem doubleUpTo_zero (positive : BitVec.slt 0 n = true) (fuel : Nat) :
    doubleUpTo n fuel 0 = none := by
  induction fuel with
  | zero => rfl
  | succ fuel ih =>
    rw [doubleUpTo, if_pos positive]
    exact ih

theorem doubleUpTo_power (positive : BitVec.slt 0 n = true) {exponent : Nat}
    (small : exponent < 32) (doubles : doubleUpTo n fuel (BitVec.twoPow 32 exponent) = some result) :
    ∃ other, other < 32 ∧ result.toNat = 2 ^ other := by
  induction fuel generalizing exponent with
  | zero => simp [doubleUpTo] at doubles
  | succ fuel ih =>
    rw [doubleUpTo] at doubles
    by_cases less : (BitVec.twoPow 32 exponent).slt n = true
    · rw [if_pos less] at doubles
      have doubled : BitVec.twoPow 32 exponent <<< 1 = BitVec.twoPow 32 (exponent + 1) := by
        rw [BitVec.twoPow_eq, BitVec.twoPow_eq, BitVec.shiftLeft_add]
      rw [doubled] at doubles
      by_cases last : exponent + 1 < 32
      · exact ih last doubles
      · have out : BitVec.twoPow 32 (exponent + 1) = 0 := by
          have exact : exponent + 1 = 32 := by omega
          rw [exact]
          rfl
        rw [out, doubleUpTo_zero positive] at doubles
        simp at doubles
    · rw [if_neg less] at doubles
      refine ⟨exponent, small, ?_⟩
      rw [← Option.some.inj doubles, BitVec.toNat_twoPow]
      exact Nat.mod_eq_of_lt (Nat.pow_lt_pow_right (by omega) small)

/-- Whatever `Int_NextPowerOf2` returns is a power of two, also for an argument that is
negative as an `int`. -/
theorem intNextPowerOf2_power (returns : intNextPowerOf2 fuel n = some result) :
    ∃ exponent, exponent < 32 ∧ result.toNat = 2 ^ exponent := by
  unfold intNextPowerOf2 at returns
  by_cases single : n ≠ 0 ∧ n &&& (n - 1) = 0
  · rw [if_pos single] at returns
    rw [← Option.some.inj returns]
    have nonzero : n.toNat ≠ 0 := by
      intro zero
      exact single.1 (BitVec.eq_of_toNat_eq zero)
    have masked : n.toNat &&& (n.toNat - 1) = 0 := by
      have bits := congrArg BitVec.toNat single.2
      have one : (1 : BitVec 32).toNat = 1 := rfl
      rw [BitVec.toNat_and, BitVec.toNat_sub_of_le (by rw [BitVec.le_def, one]; omega), one] at bits
      exact bits
    obtain ⟨exponent, power⟩ := (Nat.and_sub_one_eq_zero_iff_isPowerOfTwo nonzero).mp masked
    refine ⟨exponent, ?_, power⟩
    have bound := n.isLt
    rw [power] at bound
    exact (Nat.pow_lt_pow_iff_right (by omega)).mp bound
  · rw [if_neg single] at returns
    by_cases positive : BitVec.slt 0 n = true
    · exact doubleUpTo_power positive (by omega : 0 < 32) returns
    · cases fuel with
      | zero => simp [doubleUpTo] at returns
      | succ fuel =>
        have atMost : ¬ BitVec.slt 1 n = true := by
          simp only [BitVec.slt, decide_eq_true_eq] at positive ⊢
          have zero : (0 : BitVec 32).toInt = 0 := rfl
          have one : (1 : BitVec 32).toInt = 1 := rfl
          omega
        rw [doubleUpTo, if_neg atMost] at returns
        exact ⟨0, by omega, by rw [← Option.some.inj returns]; rfl⟩

theorem init_spec {capacity : BitVec 32} {data : Nat → UInt8} {buffer : RingBuffer}
    (inits : init fuel capacity data = some buffer) : buffer.Valid ∧ buffer.content = [] := by
  obtain ⟨power, returns, rfl⟩ := Option.map_eq_some_iff.mp inits
  have empty : readableCount ⟨data, power, 0, 0⟩ = 0 := BitVec.sub_self 0
  refine ⟨⟨intNextPowerOf2_power returns, ?_⟩, ?_⟩
  · rw [empty]
    exact Nat.zero_le _
  · unfold content
    rw [empty]
    rfl

end RingBuffer

end Apollo.Klib
