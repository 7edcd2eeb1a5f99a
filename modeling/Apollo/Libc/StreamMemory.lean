import Apollo.Filesystem.Inode
import Mathlib.Data.List.Basic

/-!
# Memory streams

`Stream_Memory.c`.  The store is seen from its pointer: `store index` is the
byte at that index, whether the index is inside the block or not.  `size_t` has
32 bits.  A byte count that is asked for is a `ssize_t` and not negative, so
that no count below exceeds `2^31` and signed comparisons of counts are
unsigned ones.
-/

set_option autoImplicit false

namespace Apollo.Libc

def sizeMin (x y : BitVec 32) : BitVec 32 := if x < y then x else y

def sizeMax (x y : BitVec 32) : BitVec 32 := if x > y then x else y

/-- The bytes behind a pointer after `count` bytes from `start` on were stored. -/
def overwrite (store : Nat → UInt8) (start count : Nat) (bytes : Nat → UInt8) : Nat → UInt8 :=
  fun index => if start ≤ index ∧ index < start + count then bytes (index - start) else store index

inductive Whence
  | cur
  | fromEnd
  | set
  deriving DecidableEq

structure MemoryFileVars where
  storeIsNull : Bool
  store : Nat → UInt8
  currentCapacity : BitVec 32
  maximumCapacity : BitVec 32
  eofPosition : BitVec 32
  currentPosition : BitVec 32

/-- What `__mem_read` leaves behind: `buffer` is the buffer of the reader, `filled` the number of
bytes that were stored in it, and `touched` has the indices of the store that were accessed. -/
structure MemoryRead where
  vars : MemoryFileVars
  buffer : Nat → UInt8
  nBytesRead : BitVec 32
  filled : Nat
  touched : List Nat

structure MemoryWrite where
  vars : MemoryFileVars
  nBytesWritten : BitVec 32
  error : Option Errno
  touched : List Nat

namespace MemoryFileVars

def memRead (mp : MemoryFileVars) (pBuffer : Nat → UInt8) (nBytesToRead : Nat) : MemoryRead :=
  let nBytesRead := sizeMin (BitVec.ofNat 32 nBytesToRead) (mp.eofPosition - mp.currentPosition)
  let nBytesToCopy := sizeMin nBytesRead (mp.currentCapacity - mp.currentPosition)
  let nBytesToZero := nBytesRead - nBytesToCopy
  let position := mp.currentPosition + nBytesToCopy
  { vars :=
      { mp with
        store := overwrite mp.store position.toNat nBytesToZero.toNat fun _ => 0
        currentPosition := position + nBytesToZero }
    buffer := overwrite pBuffer 0 nBytesToCopy.toNat fun index => mp.store (mp.currentPosition.toNat + index)
    nBytesRead := nBytesRead
    filled := nBytesToCopy.toNat
    touched :=
      List.range' mp.currentPosition.toNat nBytesToCopy.toNat ++ List.range' position.toNat nBytesToZero.toNat }

def autoGrowCapacity (mp : MemoryFileVars) : BitVec 32 :=
  if mp.currentCapacity > 0 then mp.currentCapacity * 2 else 512

/-- The capacity that `__mem_write` asks for.  The new position may be past what growing by itself gives. -/
def newCapacity (mp : MemoryFileVars) (newCurrentPosition : BitVec 32) : BitVec 32 :=
  sizeMin (sizeMax mp.autoGrowCapacity newCurrentPosition) mp.maximumCapacity

def nBytesToClear (mp : MemoryFileVars) (newCapacity : BitVec 32) : BitVec 32 :=
  if mp.eofPosition > mp.currentCapacity then newCapacity - mp.currentCapacity else 0

/-- The stream with a block from `realloc`, which has the bytes of the old one; `block` is what it
holds behind them. -/
def withStore (mp : MemoryFileVars) (block : Nat → UInt8) (newCapacity : BitVec 32) : MemoryFileVars :=
  let pNewStore := fun index =>
    if mp.storeIsNull = false ∧ index < mp.currentCapacity.toNat then mp.store index else block index
  { mp with
    storeIsNull := false
    store := overwrite pNewStore mp.currentCapacity.toNat (mp.nBytesToClear newCapacity).toNat fun _ => 0
    currentCapacity := newCapacity }

/-- The part of `__mem_write` that expands the backing store. -/
def expand (mp : MemoryFileVars) (newCurrentPosition : BitVec 32) (realloc : Option (Nat → UInt8)) :
    MemoryFileVars × List Nat :=
  if newCurrentPosition > mp.currentCapacity ∧ mp.currentCapacity < mp.maximumCapacity then
    let newCapacity := mp.newCapacity newCurrentPosition
    match realloc with
    | none => (mp, [])
    | some block =>
      (mp.withStore block newCapacity,
        List.range' mp.currentCapacity.toNat (mp.nBytesToClear newCapacity).toNat)
  else (mp, [])

def memWrite (mp : MemoryFileVars) (bytes : List UInt8) (realloc : Option (Nat → UInt8)) : MemoryWrite :=
  let nBytesToWrite := BitVec.ofNat 32 bytes.length
  let expanded := mp.expand (mp.currentPosition + nBytesToWrite) realloc
  let mp := expanded.1
  let nBytesWritten := sizeMin nBytesToWrite (mp.currentCapacity - mp.currentPosition)
  if nBytesWritten = 0 then ⟨mp, 0, some .ENOSPC, expanded.2⟩
  else
    let position := mp.currentPosition + nBytesWritten
    { vars :=
        { mp with
          store := overwrite mp.store mp.currentPosition.toNat nBytesWritten.toNat fun index => bytes.getD index 0
          currentPosition := position
          eofPosition := if position > mp.eofPosition then position else mp.eofPosition }
      nBytesWritten := nBytesWritten
      error := none
      touched := expanded.2 ++ List.range' mp.currentPosition.toNat nBytesWritten.toNat }

def newPosition (mp : MemoryFileVars) (offset : Int) : Whence → BitVec 32
  | .cur => BitVec.ofInt 32 (mp.currentPosition.toNat + offset)
  | .fromEnd => BitVec.ofInt 32 (mp.eofPosition.toNat + offset)
  | .set => BitVec.ofInt 32 offset

/-- `__mem_seek`.  It does not store the old offset for its caller. -/
def memSeek (mp : MemoryFileVars) (offset : Int) (whence : Whence) : MemoryFileVars :=
  let newPosition := mp.newPosition offset whence
  { mp with
    eofPosition := if newPosition > mp.eofPosition then newPosition else mp.eofPosition
    currentPosition := newPosition }

end MemoryFileVars

/-- `FILE_Memory`; the option to free the store does not matter before the stream is closed. -/
structure FileMemory where
  baseIsNull : Bool
  base : Nat → UInt8
  initialEof : BitVec 32
  initialCapacity : BitVec 32
  maximumCapacity : BitVec 32

/-- The part of `__fopen_memory_init` that is about the store. -/
def FileMemory.fopenMemoryInit (mem : FileMemory) : MemoryFileVars where
  storeIsNull := mem.baseIsNull
  store := mem.base
  currentCapacity := mem.initialCapacity
  maximumCapacity := mem.maximumCapacity
  eofPosition := mem.initialEof
  currentPosition := 0

/-! ## What is touched -/

inductive Transfer
  | read (pBuffer : Nat → UInt8) (nBytesToRead : Nat) (small : nBytesToRead < 2147483648)
  | write (bytes : List UInt8) (small : bytes.length < 2147483648) (realloc : Option (Nat → UInt8))
  | seek (offset : Int) (whence : Whence)

namespace Transfer

def vars (mp : MemoryFileVars) : Transfer → MemoryFileVars
  | read pBuffer nBytesToRead _ => (mp.memRead pBuffer nBytesToRead).vars
  | write bytes _ realloc => (mp.memWrite bytes realloc).vars
  | seek offset whence => mp.memSeek offset whence

/-- The call stays inside its store, and a reader finds its bytes in its own buffer. -/
def Safe (mp : MemoryFileVars) : Transfer → Prop
  | read pBuffer nBytesToRead _ =>
    let result := mp.memRead pBuffer nBytesToRead
    (∀ index ∈ result.touched, result.vars.storeIsNull = false ∧ index < result.vars.currentCapacity.toNat) ∧
      result.filled = result.nBytesRead.toNat ∧ result.vars.store = mp.store
  | write bytes _ realloc =>
    let result := mp.memWrite bytes realloc
    ∀ index ∈ result.touched, result.vars.storeIsNull = false ∧ index < result.vars.currentCapacity.toNat
  | seek _ _ => True

/-- A read ends in front of the capacity.  A write starts at the capacity at the latest, in a store
that is there, or it expands the store past its start. -/
def Fits (mp : MemoryFileVars) : Transfer → Prop
  | read _ nBytesToRead _ =>
    nBytesToRead = 0 ∨ mp.currentPosition = mp.eofPosition ∨
      (mp.storeIsNull = false ∧
        min (mp.currentPosition.toNat + nBytesToRead) mp.eofPosition.toNat ≤ mp.currentCapacity.toNat)
  | write bytes _ realloc =>
    bytes = [] ∨ mp.currentPosition = mp.currentCapacity ∨
      (mp.storeIsNull = false ∧ mp.currentPosition ≤ mp.currentCapacity) ∨
      (realloc.isSome = true ∧ mp.currentCapacity < mp.maximumCapacity ∧ mp.currentPosition ≤ mp.maximumCapacity ∧
        mp.currentCapacity.toNat < mp.currentPosition.toNat + bytes.length ∧
        mp.currentPosition.toNat + bytes.length < 4294967296)
  | seek _ _ => True

end Transfer

@[simp] theorem toNat_sizeMin (x y : BitVec 32) : (sizeMin x y).toNat = min x.toNat y.toNat := by
  unfold sizeMin
  split <;> rename_i order <;> rw [BitVec.lt_def] at order <;> omega

@[simp] theorem toNat_sizeMax (x y : BitVec 32) : (sizeMax x y).toNat = max x.toNat y.toNat := by
  unfold sizeMax
  split <;> rename_i order <;> rw [gt_iff_lt, BitVec.lt_def] at order <;> omega

namespace MemoryFileVars

variable {mp : MemoryFileVars} {pBuffer : Nat → UInt8} {nBytesToRead : Nat} {bytes : List UInt8}
  {realloc : Option (Nat → UInt8)}

def Placed (mp : MemoryFileVars) : Prop := mp.currentPosition.toNat ≤ mp.eofPosition.toNat

def readable (mp : MemoryFileVars) (nBytesToRead : Nat) : Nat :=
  min nBytesToRead (mp.eofPosition.toNat - mp.currentPosition.toNat)

/-- The bytes that a read copies from the store.  The unsigned difference is huge when the position
is behind the capacity. -/
def copyable (mp : MemoryFileVars) (nBytesToRead : Nat) : Nat :=
  if mp.currentPosition ≤ mp.currentCapacity then
    min (mp.readable nBytesToRead) (mp.currentCapacity.toNat - mp.currentPosition.toNat)
  else mp.readable nBytesToRead

theorem copyable_le (mp : MemoryFileVars) (nBytesToRead : Nat) : mp.copyable nBytesToRead ≤ mp.readable nBytesToRead := by
  unfold copyable
  split <;> omega

theorem position_readable (placed : mp.Placed) (nBytesToRead : Nat) :
    mp.currentPosition.toNat + mp.readable nBytesToRead ≤ mp.eofPosition.toNat := by
  have order : mp.currentPosition.toNat ≤ mp.eofPosition.toNat := placed
  unfold readable
  omega

theorem memRead_eq (small : nBytesToRead < 2147483648) (placed : mp.Placed) :
    mp.memRead pBuffer nBytesToRead =
      { vars :=
          { mp with
            store := overwrite mp.store (mp.currentPosition.toNat + mp.copyable nBytesToRead)
              (mp.readable nBytesToRead - mp.copyable nBytesToRead) fun _ => 0
            currentPosition := BitVec.ofNat 32 (mp.currentPosition.toNat + mp.readable nBytesToRead) }
        buffer := overwrite pBuffer 0 (mp.copyable nBytesToRead) fun index => mp.store (mp.currentPosition.toNat + index)
        nBytesRead := BitVec.ofNat 32 (mp.readable nBytesToRead)
        filled := mp.copyable nBytesToRead
        touched :=
          List.range' mp.currentPosition.toNat (mp.copyable nBytesToRead) ++
            List.range' (mp.currentPosition.toNat + mp.copyable nBytesToRead)
              (mp.readable nBytesToRead - mp.copyable nBytesToRead) } := by
  have inside := position_readable placed nBytesToRead
  have fewer := mp.copyable_le nBytesToRead
  have read : sizeMin (BitVec.ofNat 32 nBytesToRead) (mp.eofPosition - mp.currentPosition) =
      BitVec.ofNat 32 (mp.readable nBytesToRead) := by
    apply BitVec.eq_of_toNat_eq
    simp only [readable, toNat_sizeMin, BitVec.toNat_ofNat, BitVec.toNat_sub]
    omega
  have copied : sizeMin (BitVec.ofNat 32 (mp.readable nBytesToRead)) (mp.currentCapacity - mp.currentPosition) =
      BitVec.ofNat 32 (mp.copyable nBytesToRead) := by
    apply BitVec.eq_of_toNat_eq
    simp only [copyable, toNat_sizeMin, BitVec.toNat_ofNat, BitVec.toNat_sub, BitVec.le_def]
    split <;> omega
  have position : (mp.currentPosition + BitVec.ofNat 32 (mp.copyable nBytesToRead)).toNat =
      mp.currentPosition.toNat + mp.copyable nBytesToRead := by
    simp only [BitVec.toNat_add, BitVec.toNat_ofNat]
    omega
  have zeroed : (BitVec.ofNat 32 (mp.readable nBytesToRead) - BitVec.ofNat 32 (mp.copyable nBytesToRead)).toNat =
      mp.readable nBytesToRead - mp.copyable nBytesToRead := by
    simp only [BitVec.toNat_sub, BitVec.toNat_ofNat]
    omega
  have last : mp.currentPosition + BitVec.ofNat 32 (mp.copyable nBytesToRead) +
      (BitVec.ofNat 32 (mp.readable nBytesToRead) - BitVec.ofNat 32 (mp.copyable nBytesToRead)) =
      BitVec.ofNat 32 (mp.currentPosition.toNat + mp.readable nBytesToRead) := by
    apply BitVec.eq_of_toNat_eq
    rw [BitVec.toNat_add, position, zeroed, BitVec.toNat_ofNat]
    omega
  have count : (BitVec.ofNat 32 (mp.copyable nBytesToRead)).toNat = mp.copyable nBytesToRead := by
    rw [BitVec.toNat_ofNat]
    omega
  simp only [memRead, read, copied, position, zeroed, last, count]

theorem read_safe_iff (small : nBytesToRead < 2147483648) (placed : mp.Placed) :
    (Transfer.read pBuffer nBytesToRead small).Safe mp ↔ (Transfer.read pBuffer nBytesToRead small).Fits mp := by
  have inside := position_readable placed nBytesToRead
  have count : (BitVec.ofNat 32 (mp.readable nBytesToRead)).toNat = mp.readable nBytesToRead := by
    rw [BitVec.toNat_ofNat]
    omega
  simp only [Transfer.Safe, Transfer.Fits, memRead_eq small placed, count, List.mem_append, List.mem_range'_1]
  constructor
  · rintro ⟨touched, filled, -⟩
    by_cases none : mp.readable nBytesToRead = 0
    · have ends : nBytesToRead = 0 ∨ mp.currentPosition.toNat = mp.eofPosition.toNat := by
        unfold readable at none
        omega
      rcases ends with ends | ends
      · exact .inl ends
      · exact .inr (.inl (BitVec.eq_of_toNat_eq ends))
    · have last := touched (mp.currentPosition.toNat + mp.readable nBytesToRead - 1) (.inl (by omega))
      refine .inr (.inr ⟨last.1, ?_⟩)
      have below := last.2
      unfold readable at below none
      omega
  · intro fits
    have copied : mp.copyable nBytesToRead = mp.readable nBytesToRead ∧
        (mp.readable nBytesToRead = 0 ∨ (mp.storeIsNull = false ∧
          mp.currentPosition.toNat + mp.readable nBytesToRead ≤ mp.currentCapacity.toNat)) := by
      rcases fits with rfl | ends | ⟨stored, fits⟩
      · have none : mp.readable 0 = 0 := Nat.zero_min _
        exact ⟨Nat.le_antisymm (mp.copyable_le 0) (by omega), .inl none⟩
      · have none : mp.readable nBytesToRead = 0 := by
          rw [readable, ends, Nat.sub_self, Nat.min_zero]
        exact ⟨Nat.le_antisymm (mp.copyable_le _) (by omega), .inl none⟩
      · refine ⟨?_, .inr ⟨stored, ?_⟩⟩
        · simp only [copyable, readable, BitVec.le_def]
          split <;> omega
        · unfold readable
          omega
    obtain ⟨copied, stays⟩ := copied
    rw [copied, Nat.sub_self]
    refine ⟨?_, rfl, ?_⟩
    · intro index touched
      rcases stays with none | ⟨stored, stays⟩
      · omega
      · exact ⟨stored, by omega⟩
    · funext index
      exact if_neg (by omega)

/-! ### Writing -/

theorem expand_cases (mp : MemoryFileVars) (newCurrentPosition : BitVec 32) (realloc : Option (Nat → UInt8)) :
    (mp.expand newCurrentPosition realloc = (mp, []) ∧
        (newCurrentPosition ≤ mp.currentCapacity ∨ mp.maximumCapacity ≤ mp.currentCapacity ∨ realloc = none)) ∨
      ∃ block, realloc = some block ∧ mp.currentCapacity < newCurrentPosition ∧
        mp.currentCapacity < mp.maximumCapacity ∧
        mp.expand newCurrentPosition realloc =
          (mp.withStore block (mp.newCapacity newCurrentPosition),
            List.range' mp.currentCapacity.toNat (mp.nBytesToClear (mp.newCapacity newCurrentPosition)).toNat) := by
  unfold expand
  split
  · rename_i needed
    cases realloc with
    | none => exact .inl ⟨rfl, .inr (.inr rfl)⟩
    | some block => exact .inr ⟨block, rfl, needed.1, needed.2, rfl⟩
  · rename_i enough
    rw [not_and_or, gt_iff_lt, BitVec.not_lt, BitVec.not_lt] at enough
    exact .inl ⟨rfl, enough.imp id .inl⟩

theorem newCapacity_gt {newCurrentPosition : BitVec 32} (needed : mp.currentCapacity < newCurrentPosition)
    (allowed : mp.currentCapacity < mp.maximumCapacity) :
    mp.currentCapacity.toNat < (mp.newCapacity newCurrentPosition).toNat := by
  rw [BitVec.lt_def] at needed allowed
  rw [newCapacity, toNat_sizeMin, toNat_sizeMax]
  omega

theorem toNat_nBytesToClear {newCapacity : BitVec 32} (larger : mp.currentCapacity.toNat ≤ newCapacity.toNat) :
    (mp.nBytesToClear newCapacity).toNat =
      if mp.currentCapacity.toNat < mp.eofPosition.toNat then newCapacity.toNat - mp.currentCapacity.toNat else 0 := by
  simp only [nBytesToClear, gt_iff_lt, BitVec.lt_def]
  split
  · exact BitVec.toNat_sub_of_le (BitVec.le_def.mpr larger)
  · rfl

theorem expand_touched (mp : MemoryFileVars) (newCurrentPosition : BitVec 32) (realloc : Option (Nat → UInt8)) :
    ∀ index ∈ (mp.expand newCurrentPosition realloc).2,
      (mp.expand newCurrentPosition realloc).1.storeIsNull = false ∧
        index < (mp.expand newCurrentPosition realloc).1.currentCapacity.toNat := by
  intro index touched
  rcases mp.expand_cases newCurrentPosition realloc with ⟨same, -⟩ | ⟨block, -, needed, allowed, grown⟩
  · rw [same] at touched
    exact absurd touched List.not_mem_nil
  · have larger := newCapacity_gt needed allowed
    rw [grown] at touched ⊢
    refine ⟨rfl, ?_⟩
    rw [List.mem_range'_1, toNat_nBytesToClear larger.le] at touched
    dsimp only [withStore]
    split at touched <;> omega

@[simp] theorem expand_currentPosition (mp : MemoryFileVars) (newCurrentPosition : BitVec 32)
    (realloc : Option (Nat → UInt8)) :
    (mp.expand newCurrentPosition realloc).1.currentPosition = mp.currentPosition := by
  rcases mp.expand_cases newCurrentPosition realloc with ⟨same, -⟩ | ⟨block, -, -, -, grown⟩
  · rw [same]
  · rw [grown]
    rfl

@[simp] theorem expand_eofPosition (mp : MemoryFileVars) (newCurrentPosition : BitVec 32)
    (realloc : Option (Nat → UInt8)) :
    (mp.expand newCurrentPosition realloc).1.eofPosition = mp.eofPosition := by
  rcases mp.expand_cases newCurrentPosition realloc with ⟨same, -⟩ | ⟨block, -, -, -, grown⟩
  · rw [same]
  · rw [grown]
    rfl

/-- The number of bytes that a write stores when it finds the capacity `capacity`. -/
theorem toNat_written (small : bytes.length < 2147483648) (position capacity : BitVec 32) :
    (sizeMin (BitVec.ofNat 32 bytes.length) (capacity - position)).toNat =
      if position.toNat ≤ capacity.toNat then min bytes.length (capacity.toNat - position.toNat)
      else min bytes.length (4294967296 + capacity.toNat - position.toNat) := by
  simp only [toNat_sizeMin, BitVec.toNat_ofNat, BitVec.toNat_sub]
  split <;> omega

theorem write_safe_iff_reaches (small : bytes.length < 2147483648) (some : bytes ≠ []) :
    (Transfer.write bytes small realloc).Safe mp ↔
      let expanded := (mp.expand (mp.currentPosition + BitVec.ofNat 32 bytes.length) realloc).1
      mp.currentPosition.toNat = expanded.currentCapacity.toNat ∨
        (expanded.storeIsNull = false ∧ mp.currentPosition.toNat ≤ expanded.currentCapacity.toNat) := by
  have touched := mp.expand_touched (mp.currentPosition + BitVec.ofNat 32 bytes.length) realloc
  have length_pos := List.length_pos_iff.mpr some
  simp only [Transfer.Safe, memWrite, expand_currentPosition]
  generalize mp.expand (mp.currentPosition + BitVec.ofNat 32 bytes.length) realloc = expanded at *
  have count := toNat_written small mp.currentPosition expanded.1.currentCapacity
  generalize sizeMin (BitVec.ofNat 32 bytes.length) (expanded.1.currentCapacity - mp.currentPosition) = written at *
  split
  · rename_i none
    subst none
    refine iff_of_true touched (.inl ?_)
    simp only [BitVec.ofNat_eq_ofNat, BitVec.toNat_ofNat] at count
    split at count <;> omega
  · rename_i written_some
    have written_pos : 0 < written.toNat := by
      rw [Nat.pos_iff_ne_zero]
      exact fun zero => written_some (BitVec.eq_of_toNat_eq zero)
    constructor
    · intro safe
      have first := safe mp.currentPosition.toNat (List.mem_append_right _ (List.mem_range'_1.mpr (by omega)))
      exact .inr ⟨first.1, first.2.le⟩
    · intro reaches index member
      rcases List.mem_append.mp member with cleared | stored
      · exact touched index cleared
      · rw [List.mem_range'_1] at stored
        rcases reaches with full | ⟨present, reaches⟩
        · rw [if_pos (Nat.le_of_eq full)] at count
          omega
        · rw [if_pos reaches] at count
          have room : index < expanded.1.currentCapacity.toNat := by omega
          exact ⟨present, room⟩

theorem write_safe_iff (small : bytes.length < 2147483648) :
    (Transfer.write bytes small realloc).Safe mp ↔ (Transfer.write bytes small realloc).Fits mp := by
  by_cases empty : bytes = []
  · subst empty
    refine iff_of_true ?_ (.inl rfl)
    have none : sizeMin (BitVec.ofNat 32 ([] : List UInt8).length)
        ((mp.expand (mp.currentPosition + BitVec.ofNat 32 ([] : List UInt8).length) realloc).1.currentCapacity -
          (mp.expand (mp.currentPosition + BitVec.ofNat 32 ([] : List UInt8).length) realloc).1.currentPosition) = 0 :=
      BitVec.eq_of_toNat_eq (by simp)
    simp only [Transfer.Safe, memWrite, none, if_true]
    exact mp.expand_touched _ realloc
  · have moved : (mp.currentPosition + BitVec.ofNat 32 bytes.length).toNat =
        (mp.currentPosition.toNat + bytes.length) % 4294967296 := by
      simp only [BitVec.toNat_add, BitVec.toNat_ofNat]
      omega
    rw [write_safe_iff_reaches small empty, Transfer.Fits, or_iff_right empty]
    simp only [BitVec.le_def, BitVec.lt_def, ← BitVec.toNat_inj]
    rcases mp.expand_cases (mp.currentPosition + BitVec.ofNat 32 bytes.length) realloc with
      ⟨same, enough⟩ | ⟨block, rfl, needed, allowed, grown⟩
    · rw [same]
      refine or_congr_right (or_iff_left ?_).symm
      rintro ⟨allocates, growable, -, beyond, fits⟩
      rcases enough with enough | enough | rfl
      · rw [BitVec.le_def, moved] at enough
        omega
      · rw [BitVec.le_def] at enough
        omega
      · simp at allocates
    · have auto : mp.autoGrowCapacity.toNat ≤ mp.currentCapacity.toNat * 2 ∨ mp.autoGrowCapacity.toNat = 512 := by
        unfold autoGrowCapacity
        split
        · left
          exact Nat.mod_le _ _
        · exact .inr rfl
      have larger := newCapacity_gt needed allowed
      rw [BitVec.lt_def, moved] at needed
      rw [grown]
      simp only [withStore, newCapacity, toNat_sizeMin, toNat_sizeMax, moved, Option.isSome_some, true_and] at *
      omega

theorem safe_iff (placed : mp.Placed) (transfer : Transfer) : transfer.Safe mp ↔ transfer.Fits mp := by
  cases transfer with
  | read pBuffer nBytesToRead small => exact read_safe_iff small placed
  | write bytes small realloc => exact write_safe_iff small
  | seek offset whence => exact Iff.rfl

theorem toNat_le_later (position eof : BitVec 32) :
    position.toNat ≤ (if position > eof then position else eof).toNat := by
  split
  · exact Nat.le_refl _
  · rename_i order
    rw [gt_iff_lt, BitVec.not_lt] at order
    exact BitVec.le_def.mp order

/-- Every call keeps the position in the file, also when it leaves the store. -/
theorem Placed.transfer (placed : mp.Placed) (transfer : Transfer) : (transfer.vars mp).Placed := by
  cases transfer with
  | read pBuffer nBytesToRead small =>
    have inside := position_readable placed nBytesToRead
    simp only [Transfer.vars, memRead_eq small placed, Placed, BitVec.toNat_ofNat]
    omega
  | write bytes small realloc =>
    simp only [Transfer.vars, memWrite]
    split
    · simpa only [Placed, expand_currentPosition, expand_eofPosition] using placed
    · exact toNat_le_later _ _
  | seek offset whence => exact toNat_le_later _ _

end MemoryFileVars

/-! ## Sequences of calls -/

namespace Transfers

def Safe : List Transfer → MemoryFileVars → Prop
  | [], _ => True
  | transfer :: rest, mp => transfer.Safe mp ∧ Safe rest (transfer.vars mp)

def Fit : List Transfer → MemoryFileVars → Prop
  | [], _ => True
  | transfer :: rest, mp => transfer.Fits mp ∧ Fit rest (transfer.vars mp)

theorem safe_iff (transfers : List Transfer) {mp : MemoryFileVars} (placed : mp.Placed) :
    Safe transfers mp ↔ Fit transfers mp := by
  induction transfers generalizing mp with
  | nil => exact Iff.rfl
  | cons transfer rest ih => exact and_congr (mp.safe_iff placed transfer) (ih (placed.transfer transfer))

end Transfers

/-- For every memory stream: all calls stay inside the store, and every reader finds its bytes in
its buffer, exactly when every call fits in the state it is made in. -/
theorem memoryStream_safe_iff (mem : FileMemory) (transfers : List Transfer) :
    Transfers.Safe transfers mem.fopenMemoryInit ↔ Transfers.Fit transfers mem.fopenMemoryInit :=
  Transfers.safe_iff transfers (Nat.zero_le _)

def singleByte : FileMemory := ⟨false, fun _ => 0, 0, 1, 1⟩

/-- The file is extended to two bytes, and both are read: the second one is cleared in the store,
behind its end, and not in the buffer of the reader. -/
theorem singleByte_unsafe :
    ¬ Transfers.Safe [.seek 2 .set, .seek 0 .set, .read (fun _ => 1) 2 (by decide)] singleByte.fopenMemoryInit := by
  rintro ⟨-, -, ⟨touched, -⟩, -⟩
  exact absurd (touched 1 (by decide)).2 (by decide)

end Apollo.Libc
