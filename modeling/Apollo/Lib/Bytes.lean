import Mathlib.Data.List.GetD
import Mathlib.Tactic.Ring

/-!
# Fixed-size byte buffers and big-endian numbers

A `Buffer size` is `size` bytes; nothing can be stored outside of it.  `byte`
reads it by plain index.  `beByte width value k` is byte `k` of `value` written
most significant byte first, and `Buffer.be16`, `Buffer.be32` and `Buffer.be64`
read such numbers back.
-/

set_option autoImplicit false

namespace Apollo.Lib

abbrev Buffer (size : Nat) : Type := Fin size → UInt8

namespace Buffer

variable {size : Nat}

def zero : Buffer size := fun _ => 0

def byte (buffer : Buffer size) (index : Nat) : UInt8 :=
  if bound : index < size then buffer ⟨index, bound⟩ else 0

/-- The bytes of `list`, then zeros. -/
def ofList (list : List UInt8) : Buffer size := fun index => list.getD index.val 0

/-- `buffer` with `data` copied over the bytes that start at `start`. -/
def blit (buffer : Buffer size) (start : Nat) (data : List UInt8) : Buffer size := fun index =>
  if start ≤ index.val ∧ index.val < start + data.length then
    data.getD (index.val - start) 0
  else buffer index

/-- `count` bytes from `start` on. -/
def slice (buffer : Buffer size) (start count : Nat) : List UInt8 :=
  (List.range count).map fun index => buffer.byte (start + index)

@[simp] theorem byte_zero (index : Nat) : (zero : Buffer size).byte index = 0 := by
  simp [byte, zero]

theorem byte_ofList (list : List UInt8) {index : Nat} (bound : index < size) :
    (ofList list : Buffer size).byte index = list.getD index 0 := by
  simp [byte, ofList, bound]

theorem byte_blit (buffer : Buffer size) (start : Nat) (data : List UInt8) {index : Nat}
    (bound : index < size) :
    (buffer.blit start data).byte index =
      if start ≤ index ∧ index < start + data.length then data.getD (index - start) 0
      else buffer.byte index := by
  simp [byte, blit, bound]

theorem byte_blit_of_lt (buffer : Buffer size) (start : Nat) (data : List UInt8) {index : Nat}
    (before : index < start) : (buffer.blit start data).byte index = buffer.byte index := by
  by_cases bound : index < size
  · rw [byte_blit buffer start data bound, if_neg (by omega)]
  · simp [byte, bound]

theorem byte_blit_of_ge (buffer : Buffer size) (start : Nat) (data : List UInt8) {index : Nat}
    (after : start + data.length ≤ index) :
    (buffer.blit start data).byte index = buffer.byte index := by
  by_cases bound : index < size
  · rw [byte_blit buffer start data bound, if_neg (by omega)]
  · simp [byte, bound]

theorem byte_blit_inside (buffer : Buffer size) (start : Nat) (data : List UInt8) {index : Nat}
    (inside : index < data.length) (bound : start + index < size) :
    (buffer.blit start data).byte (start + index) = data.getD index 0 := by
  rw [byte_blit buffer start data bound, if_pos (by omega)]
  congr 1
  omega

@[simp] theorem length_slice (buffer : Buffer size) (start count : Nat) :
    (buffer.slice start count).length = count := by
  simp [slice]

theorem getD_slice (buffer : Buffer size) (start count : Nat) {index : Nat}
    (inside : index < count) :
    (buffer.slice start count).getD index 0 = buffer.byte (start + index) := by
  simp [slice, inside]

end Buffer

theorem getD_replicate_zero (count index : Nat) :
    (List.replicate count (0 : UInt8)).getD index 0 = 0 := by
  rw [List.getD_eq_getElem?_getD, List.getElem?_replicate]
  split_ifs <;> rfl

/-! ## Big-endian numbers -/

/-- Byte `index` of `value` written big-endian in `width` bytes. -/
def beByte (width value index : Nat) : UInt8 := UInt8.ofNat (value / 256 ^ (width - 1 - index))

/-- `value` written big-endian in `width` bytes. -/
def beBytes (width value : Nat) : List UInt8 := (List.range width).map (beByte width value)

@[simp] theorem length_beBytes (width value : Nat) : (beBytes width value).length = width := by
  simp [beBytes]

theorem getD_beBytes (width value : Nat) {index : Nat} (inside : index < width) :
    (beBytes width value).getD index 0 = beByte width value index := by
  simp [beBytes, inside]

namespace Buffer

variable {size : Nat}

def be16 (buffer : Buffer size) (start : Nat) : Nat :=
  (buffer.byte start).toNat * 256 + (buffer.byte (start + 1)).toNat

def be32 (buffer : Buffer size) (start : Nat) : Nat :=
  buffer.be16 start * 65536 + buffer.be16 (start + 2)

def be64 (buffer : Buffer size) (start : Nat) : Nat :=
  buffer.be32 start * 4294967296 + buffer.be32 (start + 4)

theorem be16_lt (buffer : Buffer size) (start : Nat) : buffer.be16 start < 65536 := by
  have high := (buffer.byte start).toNat_lt
  have low := (buffer.byte (start + 1)).toNat_lt
  unfold be16
  omega

theorem be32_lt (buffer : Buffer size) (start : Nat) : buffer.be32 start < 4294967296 := by
  have high := buffer.be16_lt start
  have low := buffer.be16_lt (start + 2)
  unfold be32
  omega

theorem be64_lt (buffer : Buffer size) (start : Nat) :
    buffer.be64 start < 18446744073709551616 := by
  have high := buffer.be32_lt start
  have low := buffer.be32_lt (start + 4)
  unfold be64
  omega

theorem be16_congr {left right : Buffer size} {start : Nat}
    (same : ∀ index, start ≤ index → index < start + 2 → left.byte index = right.byte index) :
    left.be16 start = right.be16 start := by
  unfold be16
  rw [same start (by omega) (by omega), same (start + 1) (by omega) (by omega)]

theorem be32_congr {left right : Buffer size} {start : Nat}
    (same : ∀ index, start ≤ index → index < start + 4 → left.byte index = right.byte index) :
    left.be32 start = right.be32 start := by
  unfold be32
  rw [be16_congr fun index from_ to_ => same index from_ (by omega),
    be16_congr fun index from_ to_ => same index (by omega) (by omega)]

variable {buffer : Buffer size} {data : List UInt8}

theorem be16_of_bytes {start value : Nat}
    (written : ∀ index, index < 2 → buffer.byte (start + index) = beByte 2 value index) :
    buffer.be16 start = value % 65536 := by
  have high := written 0 (by omega)
  have low := written 1 (by omega)
  simp only [Nat.add_zero] at high
  unfold be16
  rw [high, low]
  simp only [beByte, UInt8.toNat_ofNat']
  omega

theorem be32_of_bytes {start value : Nat}
    (written : ∀ index, index < 4 → buffer.byte (start + index) = beByte 4 value index) :
    buffer.be32 start = value % 4294967296 := by
  have first := written 0 (by omega)
  have second := written 1 (by omega)
  have third := written 2 (by omega)
  have fourth := written 3 (by omega)
  simp only [Nat.add_zero] at first
  unfold be32 be16
  rw [first, second, third, Nat.add_assoc start 2 1, fourth]
  simp only [beByte, UInt8.toNat_ofNat']
  norm_num
  omega

theorem be64_of_bytes {start value : Nat}
    (written : ∀ index, index < 8 → buffer.byte (start + index) = beByte 8 value index) :
    buffer.be64 start = value % 18446744073709551616 := by
  have high : buffer.be32 start = value / 4294967296 % 4294967296 := by
    apply be32_of_bytes
    intro index inside
    rw [written index (by omega)]
    unfold beByte
    have exponent : 8 - 1 - index = 4 + (4 - 1 - index) := by omega
    rw [exponent, pow_add, ← Nat.div_div_eq_div_mul]
    norm_num
  have low : buffer.be32 (start + 4) = value % 4294967296 := by
    apply be32_of_bytes
    intro index inside
    rw [Nat.add_assoc, written (4 + index) (by omega)]
    unfold beByte
    congr 3
    omega
  unfold be64
  omega

/-! Reading a number from a buffer after a copy into it. -/

theorem be16_blit_same (buffer : Buffer size) {start value : Nat} (fits : start + 2 ≤ size) :
    (buffer.blit start (beBytes 2 value)).be16 start = value % 65536 := by
  apply be16_of_bytes
  intro index inside
  rw [byte_blit_inside buffer start _ (by simpa using inside) (by omega), getD_beBytes 2 value inside]

theorem be32_blit_same (buffer : Buffer size) {start value : Nat} (fits : start + 4 ≤ size) :
    (buffer.blit start (beBytes 4 value)).be32 start = value % 4294967296 := by
  apply be32_of_bytes
  intro index inside
  rw [byte_blit_inside buffer start _ (by simpa using inside) (by omega), getD_beBytes 4 value inside]

theorem be64_blit_same (buffer : Buffer size) {start value : Nat} (fits : start + 8 ≤ size) :
    (buffer.blit start (beBytes 8 value)).be64 start = value % 18446744073709551616 := by
  apply be64_of_bytes
  intro index inside
  rw [byte_blit_inside buffer start _ (by simpa using inside) (by omega), getD_beBytes 8 value inside]

theorem byte_blit_apart (buffer : Buffer size) {start index : Nat}
    (apart : index < start ∨ start + data.length ≤ index) :
    (buffer.blit start data).byte index = buffer.byte index := by
  rcases apart with before | after
  · exact byte_blit_of_lt buffer start data before
  · exact byte_blit_of_ge buffer start data after

theorem be16_blit_apart (buffer : Buffer size) {start index : Nat}
    (apart : index + 2 ≤ start ∨ start + data.length ≤ index) :
    (buffer.blit start data).be16 index = buffer.be16 index :=
  be16_congr fun _ _ _ => byte_blit_apart buffer (by omega)

theorem be32_blit_apart (buffer : Buffer size) {start index : Nat}
    (apart : index + 4 ≤ start ∨ start + data.length ≤ index) :
    (buffer.blit start data).be32 index = buffer.be32 index :=
  be32_congr fun _ _ _ => byte_blit_apart buffer (by omega)

theorem be64_blit_apart (buffer : Buffer size) {start index : Nat}
    (apart : index + 8 ≤ start ∨ start + data.length ≤ index) :
    (buffer.blit start data).be64 index = buffer.be64 index := by
  unfold be64
  rw [be32_blit_apart buffer (by omega), be32_blit_apart buffer (by omega)]

end Buffer

/-! ## Tables of 32-bit numbers -/

theorem length_be32Table (values : List Nat) :
    (values.flatMap (beBytes 4)).length = 4 * values.length := by
  induction values with
  | nil => rfl
  | cons value rest ih =>
    rw [List.flatMap_cons, List.length_append, ih, length_beBytes, List.length_cons]
    omega

theorem getD_be32Table (values : List Nat) (slot index : Nat) (inside : index < 4) :
    (values.flatMap (beBytes 4)).getD (4 * slot + index) 0 =
      if slot < values.length then beByte 4 (values.getD slot 0) index else 0 := by
  induction values generalizing slot with
  | nil => simp
  | cons value rest ih =>
    rw [List.flatMap_cons]
    cases slot with
    | zero =>
      rw [List.getD_append _ _ _ _ (by simpa using inside)]
      simpa using getD_beBytes 4 value inside
    | succ slot =>
      rw [List.getD_append_right _ _ _ _ (by rw [length_beBytes]; omega), length_beBytes]
      have step : 4 * (slot + 1) + index - 4 = 4 * slot + index := by omega
      rw [step, ih]
      simp

theorem Buffer.be32_table {size : Nat} (buffer : Buffer size) {start slot : Nat} {values : List Nat}
    (inside : slot < values.length) (fits : start + 4 * values.length ≤ size) :
    (buffer.blit start (values.flatMap (beBytes 4))).be32 (start + 4 * slot) =
      values.getD slot 0 % 4294967296 := by
  apply be32_of_bytes
  intro index small
  rw [Nat.add_assoc, byte_blit_inside buffer start _ (by rw [length_be32Table]; omega) (by omega),
    getD_be32Table values slot index small, if_pos inside]

end Apollo.Lib
