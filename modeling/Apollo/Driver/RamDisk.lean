import Apollo.Klib.Allocator
import Apollo.Lib.Runs
import Mathlib.Tactic.Ring

/-!
# The RAM disk

`RamDisk.c` stores a disk as a list of extents that are allocated when a block
in them is written for the first time.  Addresses and sizes are 32-bit numbers.
The singly linked list of extents is a list here, and a pointer to an extent is
its position.
-/

set_option autoImplicit false

namespace Apollo.Driver

open Klib (Allocator HeapBuild kMemBlockSize)
open Lib

def wrap32 (value : Nat) : Nat := value % 4294967296

theorem wrap32_of_lt {value : Nat} (small : value < 4294967296) : wrap32 value = value :=
  Nat.mod_eq_of_lt small

structure DiskExtent where
  firstBlockIndex : Nat
  data : List UInt8
  deriving DecidableEq

structure RamDisk where
  extents : List DiskExtent
  extentBlockCount : Nat
  blockCount : Nat
  blockSize : Nat
  deriving DecidableEq

def ramDiskCreate (nBlockSize nBlockCount nExtentBlockCount : Nat) : RamDisk :=
  ⟨[], min nExtentBlockCount nBlockCount, nBlockCount, nBlockSize⟩

structure ExtentSearch where
  extent : Option Nat
  before : Option Nat
  deriving DecidableEq

/-- `RamDisk_GetDiskExtentForBlockIndex_Locked` from the extent at `position` on. -/
def getDiskExtentForBlockIndex (extentBlockCount lba : Nat) :
    List DiskExtent → Nat → Option Nat → ExtentSearch
  | [], _, before => ⟨none, before⟩
  | extent :: rest, position, before =>
    if extent.firstBlockIndex ≤ lba ∧ lba < wrap32 (extent.firstBlockIndex + extentBlockCount) then
      ⟨some position, before⟩
    else if lba < extent.firstBlockIndex then ⟨none, before⟩
    else getDiskExtentForBlockIndex extentBlockCount lba rest (position + 1) (some position)

def RamDisk.search (disk : RamDisk) (lba : Nat) : ExtentSearch :=
  getDiskExtentForBlockIndex disk.extentBlockCount lba disk.extents 0 none

def DiskExtent.offset (extent : DiskExtent) (blockSize lba : Nat) : Nat :=
  wrap32 ((lba - extent.firstBlockIndex) * blockSize)

/-- `RamDisk_getBlock`.  Reading behind the memory of an extent is a fault. -/
def getBlock (lba : Nat) : Code RamDisk Errno (List UInt8) := do
  let disk ← Code.get
  if disk.blockCount ≤ lba then Code.throw .EIOError
  else
    match (disk.search lba).extent.bind (disk.extents[·]?) with
    | some extent =>
      let offset := extent.offset disk.blockSize lba
      if offset + disk.blockSize ≤ extent.data.length then
        pure ((extent.data.drop offset).take disk.blockSize)
      else Code.fault
    | none => pure (List.replicate disk.blockSize 0)

def insertAfter (extents : List DiskExtent) (extent : DiskExtent) : Option Nat → List DiskExtent
  | none => extent :: extents
  | some before => extents.insertIdx (before + 1) extent

def offsetofData : Nat := 8

/-- `kalloc_cleared` of a `size_t`; the result is how many bytes are cleared.  `allocated`
says whether a heap has a block, and to clear more than the block holds is a fault. -/
def kallocCleared (allocated : Bool) (size : Nat) : Code RamDisk Errno Nat :=
  let nbytes := HeapBuild.kernel.toSize size
  if nbytes < 0 then Code.fault
  else if !allocated then Code.throw .ENOMEM
  else if nbytes ≤ Allocator.bytesToAlloc .kernel nbytes.toNat - kMemBlockSize then pure nbytes.toNat
  else Code.fault

/-- `RamDisk_AddExtentAfter_Locked`; the result is the position of the new extent.
`sizeofDiskExtent` is up to the compiler, and `kalloc` is `kalloc_cleared`. -/
def addExtentAfter (sizeofDiskExtent : Nat) (kalloc : Nat → Code RamDisk Errno Nat) (firstBlockIndex : Nat)
    (before : Option Nat) : Code RamDisk Errno Nat := do
  let disk ← Code.get
  let size ← kalloc (wrap32 (sizeofDiskExtent - 1 + wrap32 (disk.extentBlockCount * disk.blockSize)))
  if size < offsetofData then Code.fault
  else
    let extent : DiskExtent := ⟨firstBlockIndex, List.replicate (size - offsetofData) 0⟩
    Code.modify fun disk => { disk with extents := insertAfter disk.extents extent before }
    pure ((before.map (· + 1)).getD 0)

/-- The bytes of `buffer` copied over those that start at `offset`. -/
def overwrite (data : List UInt8) (offset : Nat) (buffer : List UInt8) : List UInt8 :=
  data.take offset ++ (buffer ++ data.drop (offset + buffer.length))

/-- The copy of a block into the extent at `position`. -/
def writeExtent (position : Nat) (buffer : List UInt8) (lba : Nat) : Code RamDisk Errno Unit := do
  let disk ← Code.get
  match disk.extents[position]? with
  | none => Code.fault
  | some extent =>
    let offset := extent.offset disk.blockSize lba
    if offset + disk.blockSize ≤ extent.data.length then
      Code.modify fun disk =>
        { disk with
          extents := disk.extents.set position
            { extent with data := overwrite extent.data offset (buffer.take disk.blockSize) } }
    else Code.fault

def putBlock (sizeofDiskExtent : Nat) (kalloc : Nat → Code RamDisk Errno Nat) (buffer : List UInt8) (lba : Nat) :
    Code RamDisk Errno Unit := do
  let disk ← Code.get
  if disk.blockCount ≤ lba then Code.throw .EIOError
  else
    match (disk.search lba).extent with
    | some position => writeExtent position buffer lba
    | none =>
      let position ← addExtentAfter sizeofDiskExtent kalloc
        (lba / disk.extentBlockCount * disk.extentBlockCount) (disk.search lba).before
      writeExtent position buffer lba

def Serves (kalloc : Nat → Code RamDisk Errno Nat) : Prop :=
  ∀ size < 4294967296, ∀ disk, kalloc size disk = if size ≤ 2147483632 then .ok size disk else .fault

theorem kallocCleared_serves : Serves (kallocCleared true) := by
  intro size small disk
  unfold kallocCleared
  by_cases negative : 2147483648 ≤ size
  · have nbytes : HeapBuild.kernel.toSize size < 0 := by
      simp only [HeapBuild.toSize, Int.bmod_def]
      omega
    rw [if_pos nbytes, if_neg (by omega)]
    rfl
  · have nbytes : HeapBuild.kernel.toSize size = size := by
      simp only [HeapBuild.toSize, Int.bmod_def]
      omega
    have served : (size : Int) ≤ Allocator.bytesToAlloc .kernel size - kMemBlockSize ↔ size ≤ 2147483632 := by
      simp only [Allocator.bytesToAlloc, kMemBlockSize, HeapBuild.toSize, Int.bmod_def]
      omega
    rw [nbytes, if_neg (by omega), if_neg (by decide), Int.toNat_natCast]
    simp only [served]
    split_ifs <;> rfl

theorem addExtentAfter_eq {kalloc : Nat → Code RamDisk Errno Nat} (serves : Serves kalloc) (disk : RamDisk)
    (sizeofDiskExtent firstBlockIndex : Nat) (before : Option Nat) {size : Nat}
    (size_eq : wrap32 (sizeofDiskExtent - 1 + wrap32 (disk.extentBlockCount * disk.blockSize)) = size) :
    addExtentAfter sizeofDiskExtent kalloc firstBlockIndex before disk =
      if 8 ≤ size ∧ size ≤ 2147483632 then
        .ok ((before.map (· + 1)).getD 0)
          { disk with extents := insertAfter disk.extents ⟨firstBlockIndex, List.replicate (size - 8) 0⟩ before }
      else .fault := by
  have small : size < 4294967296 := by
    rw [← size_eq]
    exact Nat.mod_lt _ (by decide)
  have clears := serves size small disk
  rw [addExtentAfter, Code.bind_of_ok (Code.get_apply _), size_eq]
  by_cases served : size ≤ 2147483632
  · rw [if_pos served] at clears
    rw [Code.bind_of_ok clears]
    by_cases header : size < offsetofData
    · rw [if_pos header, if_neg (by simp only [offsetofData] at header; omega)]
      rfl
    · rw [if_neg header, if_pos ⟨Nat.le_of_not_lt header, served⟩]
      rfl
  · rw [if_neg served] at clears
    rw [if_neg fun both => served both.2]
    exact Code.bind_of_fault clears _

/-! ## Extents in order -/

def RamDisk.base (disk : RamDisk) (lba : Nat) : Nat :=
  lba / disk.extentBlockCount * disk.extentBlockCount

/-- The extents are sorted, each starts at a multiple of their size, and no two
of them overlap. -/
structure RamDisk.Sorted (disk : RamDisk) : Prop where
  ascending : disk.extents.Pairwise fun first second => first.firstBlockIndex < second.firstBlockIndex
  aligned : ∀ extent ∈ disk.extents, disk.extentBlockCount ∣ extent.firstBlockIndex
  apart : disk.extents.Pairwise fun first second =>
    first.firstBlockIndex + disk.extentBlockCount ≤ second.firstBlockIndex

/-- No address on this disk wraps around, and an extent has a size that `kalloc` serves. -/
structure RamDisk.Fits (disk : RamDisk) (sizeofDiskExtent : Nat) : Prop where
  positive : 0 < disk.extentBlockCount
  addresses : disk.base (disk.blockCount - 1) + disk.extentBlockCount < 4294967296
  memory : sizeofDiskExtent - 1 + disk.extentBlockCount * disk.blockSize ≤ 2147483632

structure RamDisk.WellFormed (disk : RamDisk) : Prop where
  ascending : disk.extents.Pairwise fun first second => first.firstBlockIndex < second.firstBlockIndex
  aligned : ∀ extent ∈ disk.extents, disk.extentBlockCount ∣ extent.firstBlockIndex
  onDisk : ∀ extent ∈ disk.extents, extent.firstBlockIndex < disk.blockCount
  room : ∀ extent ∈ disk.extents, disk.extentBlockCount * disk.blockSize ≤ extent.data.length

theorem RamDisk.WellFormed.sorted {disk : RamDisk} (wellFormed : disk.WellFormed) : disk.Sorted := by
  refine ⟨wellFormed.ascending, wellFormed.aligned, ?_⟩
  refine wellFormed.ascending.imp_of_mem ?_
  intro first second member member' less
  obtain ⟨i, first_eq⟩ := wellFormed.aligned first member
  obtain ⟨j, second_eq⟩ := wellFormed.aligned second member'
  rw [first_eq, second_eq] at less ⊢
  have order : i < j := Nat.lt_of_mul_lt_mul_left less
  calc disk.extentBlockCount * i + disk.extentBlockCount = disk.extentBlockCount * (i + 1) := by ring
    _ ≤ disk.extentBlockCount * j := Nat.mul_le_mul_left _ order

section Search
variable {count first : Nat} (lba : Nat)

theorem aligned_contains_iff (positive : 0 < count) (aligned : count ∣ first) :
    (first ≤ lba ∧ lba < first + count) ↔ first = lba / count * count := by
  obtain ⟨k, rfl⟩ := aligned
  have divides := Nat.div_add_mod lba count
  have remainder := Nat.mod_lt lba positive
  constructor
  · rintro ⟨low, high⟩
    have quotient : lba / count = k := by
      apply Nat.div_eq_of_lt_le
      · rw [Nat.mul_comm]
        exact low
      · rw [Nat.succ_mul, Nat.mul_comm]
        exact high
    rw [quotient, Nat.mul_comm]
  · intro same
    rw [same, Nat.mul_comm]
    constructor
    · exact Nat.mul_div_le lba count
    · omega

theorem aligned_lt_iff (positive : 0 < count) (aligned : count ∣ first) :
    lba < first ↔ lba / count * count < first := by
  obtain ⟨k, rfl⟩ := aligned
  have le := Nat.div_mul_le_self lba count
  constructor
  · intro less
    exact lt_of_le_of_lt le less
  · intro less
    rw [Nat.mul_comm] at less
    have order : lba / count < k := Nat.lt_of_mul_lt_mul_left less
    calc lba < (lba / count + 1) * count := by
          rw [Nat.mul_comm]
          exact Nat.lt_mul_div_succ lba positive
      _ ≤ k * count := Nat.mul_le_mul_right _ order
      _ = count * k := Nat.mul_comm _ _

/-- What the search finds in extents that are sorted and do not wrap around: it
splits the list at the extent of the block, or where that extent belongs. -/
inductive Splits (base : Nat) (extents : List DiskExtent) (position : Nat) (before : Option Nat) :
    ExtentSearch → Prop
  | found (front back : List DiskExtent) {extent : DiskExtent} (other : Option Nat)
      (split : extents = front ++ extent :: back)
      (low : ∀ other ∈ front, other.firstBlockIndex < base) (hit : extent.firstBlockIndex = base) :
      Splits base extents position before ⟨some (position + front.length), other⟩
  | missing (front back : List DiskExtent) (split : extents = front ++ back)
      (low : ∀ other ∈ front, other.firstBlockIndex < base)
      (high : ∀ other ∈ back, base < other.firstBlockIndex) :
      Splits base extents position before
        ⟨none, if front = [] then before else some (position + front.length - 1)⟩

theorem Splits.cons {base position : Nat} {rest : List DiskExtent} {extent : DiskExtent}
    {result : ExtentSearch} (splits : Splits base rest (position + 1) (some position) result)
    (passed : extent.firstBlockIndex < base) (before : Option Nat) :
    Splits base (extent :: rest) position before result := by
  have low : ∀ {front : List DiskExtent}, (∀ other ∈ front, other.firstBlockIndex < base) →
      ∀ other ∈ extent :: front, other.firstBlockIndex < base := by
    intro front low other member
    rcases List.mem_cons.mp member with rfl | member
    · exact passed
    · exact low other member
  cases splits with
  | found front back other split low' hit =>
    have position_eq : position + 1 + front.length = position + (extent :: front).length := by
      rw [List.length_cons]
      omega
    rw [position_eq]
    exact .found (extent :: front) back other (by rw [split]; rfl) (low low') hit
  | missing front back split low' high =>
    have before_eq : (if front = [] then some position else some (position + 1 + front.length - 1)) =
        if extent :: front = [] then before else some (position + (extent :: front).length - 1) := by
      rw [if_neg (List.cons_ne_nil _ _), List.length_cons]
      split_ifs with empty
      · rw [empty]
        simp
      · congr 1
        omega
    rw [before_eq]
    exact .missing (extent :: front) back (by rw [split]; rfl) (low low') high

theorem getDiskExtentForBlockIndex_splits {extents : List DiskExtent} (positive : 0 < count)
    (aligned : ∀ extent ∈ extents, count ∣ extent.firstBlockIndex)
    (ascending : extents.Pairwise fun first second => first.firstBlockIndex < second.firstBlockIndex)
    (small : ∀ extent ∈ extents, extent.firstBlockIndex + count < 4294967296)
    (position : Nat) (before : Option Nat) :
    Splits (lba / count * count) extents position before
      (getDiskExtentForBlockIndex count lba extents position before) := by
  induction extents generalizing position before with
  | nil => exact .missing [] [] rfl (by simp) (by simp)
  | cons extent rest ih =>
    have aligned' := aligned extent List.mem_cons_self
    have contains := aligned_contains_iff lba positive aligned'
    have below := aligned_lt_iff lba positive aligned'
    obtain ⟨first, ascending'⟩ := List.pairwise_cons.mp ascending
    unfold getDiskExtentForBlockIndex
    rw [wrap32_of_lt (small extent List.mem_cons_self)]
    rcases Nat.lt_trichotomy extent.firstBlockIndex (lba / count * count) with passed | hit | beyond
    · rw [if_neg (fun inside => absurd (contains.mp inside) (Nat.ne_of_lt passed)),
        if_neg (fun less => absurd (below.mp less) (Nat.lt_asymm passed))]
      refine (ih ?_ ascending' ?_ (position + 1) (some position)).cons passed before
      · exact fun other member => aligned other (List.mem_cons_of_mem _ member)
      · exact fun other member => small other (List.mem_cons_of_mem _ member)
    · rw [if_pos (contains.mpr hit)]
      exact .found [] rest before rfl (by simp) hit
    · rw [if_neg (fun inside => absurd (contains.mp inside) (Nat.ne_of_gt beyond)),
        if_pos (below.mpr beyond)]
      refine .missing [] (extent :: rest) rfl (by simp) ?_
      intro other member
      rcases List.mem_cons.mp member with rfl | member
      · exact beyond
      · exact lt_trans beyond (first other member)

end Search

/-! ## Blocks in an extent -/

section Overwrite
variable {data buffer : List UInt8} {offset : Nat}

theorem length_overwrite (fits : offset + buffer.length ≤ data.length) :
    (overwrite data offset buffer).length = data.length := by
  simp only [overwrite, List.length_append, List.length_take, List.length_drop]
  omega

theorem getElem?_overwrite (fits : offset + buffer.length ≤ data.length) (index : Nat) :
    (overwrite data offset buffer)[index]? =
      if offset ≤ index ∧ index < offset + buffer.length then buffer[index - offset]? else data[index]? := by
  have front : (data.take offset).length = offset := by
    rw [List.length_take]
    omega
  unfold overwrite
  rw [List.getElem?_append, front]
  by_cases before : index < offset
  · rw [if_pos before, if_neg (by omega), List.getElem?_take_of_lt before]
  rw [if_neg before, List.getElem?_append]
  by_cases inside : index < offset + buffer.length
  · rw [if_pos (by omega), if_pos ⟨by omega, inside⟩]
  · rw [if_neg (by omega), if_neg (by omega), List.getElem?_drop]
    congr 1
    omega

theorem read_overwrite (fits : offset + buffer.length ≤ data.length) :
    ((overwrite data offset buffer).drop offset).take buffer.length = buffer := by
  apply List.ext_getElem?
  intro index
  rw [List.getElem?_take, List.getElem?_drop, getElem?_overwrite fits]
  by_cases inside : index < buffer.length
  · rw [if_pos inside, if_pos (by omega), Nat.add_sub_cancel_left]
  · rw [if_neg inside, List.getElem?_eq_none (by omega)]

theorem read_overwrite_apart (fits : offset + buffer.length ≤ data.length) {other count : Nat}
    (apart : other + count ≤ offset ∨ offset + buffer.length ≤ other) :
    ((overwrite data offset buffer).drop other).take count = (data.drop other).take count := by
  apply List.ext_getElem?
  intro index
  rw [List.getElem?_take, List.getElem?_take, List.getElem?_drop, List.getElem?_drop,
    getElem?_overwrite fits]
  by_cases inside : index < count
  · rw [if_pos inside, if_pos inside, if_neg (by omega)]
  · rw [if_neg inside, if_neg inside]

end Overwrite

/-! ## The disk as a flat array -/

def RamDisk.lookup (disk : RamDisk) (base : Nat) : Option DiskExtent :=
  disk.extents.find? (·.firstBlockIndex = base)

def RamDisk.content (disk : RamDisk) (lba : Nat) : List UInt8 :=
  match disk.lookup (disk.base lba) with
  | some extent => (extent.data.drop ((lba - disk.base lba) * disk.blockSize)).take disk.blockSize
  | none => List.replicate disk.blockSize 0

section Lookup
variable {front back : List DiskExtent} {extent extent' : DiskExtent} {base : Nat}

theorem find_split (low : ∀ other ∈ front, other.firstBlockIndex < base)
    (hit : extent.firstBlockIndex = base) :
    (front ++ extent :: back).find? (·.firstBlockIndex = base) = some extent := by
  have none : front.find? (·.firstBlockIndex = base) = none := by
    rw [List.find?_eq_none]
    intro other member
    simpa using Nat.ne_of_lt (low other member)
  rw [List.find?_append, none, Option.none_or, List.find?_cons_of_pos (by simpa using hit)]

theorem find_skip (different : extent.firstBlockIndex ≠ base) :
    (front ++ extent :: back).find? (·.firstBlockIndex = base) =
      (front ++ back).find? (·.firstBlockIndex = base) := by
  rw [List.find?_append, List.find?_append, List.find?_cons_of_neg (by simpa using different)]

end Lookup

section Transfers
variable {disk : RamDisk} {sizeofDiskExtent lba : Nat}

theorem RamDisk.base_le (disk : RamDisk) (lba : Nat) : disk.base lba ≤ lba :=
  Nat.div_mul_le_self lba disk.extentBlockCount

theorem RamDisk.lt_base_add (positive : 0 < disk.extentBlockCount) (lba : Nat) :
    lba < disk.base lba + disk.extentBlockCount := by
  unfold RamDisk.base
  rw [← Nat.succ_mul, Nat.mul_comm]
  exact Nat.lt_mul_div_succ lba positive

/-- The block lies in its extent, in front of the end of its data. -/
theorem RamDisk.Fits.block_inside (fits : disk.Fits sizeofDiskExtent) (lba : Nat) :
    (lba - disk.base lba) * disk.blockSize + disk.blockSize ≤ disk.extentBlockCount * disk.blockSize := by
  have below := RamDisk.lt_base_add fits.positive lba
  have above := disk.base_le lba
  rw [← Nat.succ_mul]
  exact Nat.mul_le_mul_right _ (by omega)

theorem RamDisk.Fits.offset_eq (fits : disk.Fits sizeofDiskExtent) {extent : DiskExtent}
    (hit : extent.firstBlockIndex = disk.base lba) :
    extent.offset disk.blockSize lba = (lba - disk.base lba) * disk.blockSize := by
  have inside := fits.block_inside lba
  have memory := fits.memory
  unfold DiskExtent.offset
  rw [hit]
  by_cases empty : disk.blockSize = 0
  · rw [empty]
    rfl
  · exact wrap32_of_lt (by omega)

theorem RamDisk.WellFormed.small (wellFormed : disk.WellFormed) (fits : disk.Fits sizeofDiskExtent)
    (extent : DiskExtent) (member : extent ∈ disk.extents) :
    extent.firstBlockIndex + disk.extentBlockCount < 4294967296 := by
  have onDisk := wellFormed.onDisk extent member
  have below := aligned_lt_iff (disk.blockCount - 1) fits.positive (wellFormed.aligned extent member)
  have addresses := fits.addresses
  unfold RamDisk.base at addresses
  omega

theorem RamDisk.WellFormed.search_splits (wellFormed : disk.WellFormed)
    (fits : disk.Fits sizeofDiskExtent) (lba : Nat) :
    Splits (disk.base lba) disk.extents 0 none (disk.search lba) :=
  getDiskExtentForBlockIndex_splits lba fits.positive wellFormed.aligned wellFormed.ascending
    (wellFormed.small fits) 0 none

theorem getBlock_eq (wellFormed : disk.WellFormed) (fits : disk.Fits sizeofDiskExtent)
    (inside : lba < disk.blockCount) : getBlock lba disk = .ok (disk.content lba) disk := by
  have splits := wellFormed.search_splits fits lba
  unfold getBlock RamDisk.content RamDisk.lookup
  rw [Code.bind_of_ok (Code.get_apply _), if_neg (by omega)]
  generalize disk.search lba = result at splits ⊢
  cases splits with
  | @found front back extent other split low hit =>
    have member : extent ∈ disk.extents := by
      rw [split]
      simp
    have room := wellFormed.room extent member
    have block := fits.block_inside lba
    have position : disk.extents[0 + front.length]? = some extent := by
      rw [split, Nat.zero_add, List.getElem?_append_right (le_refl _), Nat.sub_self]
      rfl
    simp only [Option.bind_some]
    rw [position]
    simp only
    rw [fits.offset_eq hit, if_pos (by omega), split, find_split low hit]
    rfl
  | missing front back split low high =>
    have missing : disk.extents.find? (·.firstBlockIndex = disk.base lba) = none := by
      rw [split, List.find?_eq_none]
      intro other member
      rcases List.mem_append.mp member with member | member
      · simpa using Nat.ne_of_lt (low other member)
      · simpa using Nat.ne_of_gt (high other member)
    rw [missing]
    rfl

/-! ### Writing a block -/

def RamDisk.withExtents (disk : RamDisk) (extents : List DiskExtent) : RamDisk :=
  { disk with extents := extents }

def RamDisk.written (disk : RamDisk) (front back : List DiskExtent) (data : List UInt8) (lba : Nat)
    (buffer : List UInt8) : RamDisk :=
  disk.withExtents (front ++
    ⟨disk.base lba, overwrite data ((lba - disk.base lba) * disk.blockSize) buffer⟩ :: back)

section Writing
variable {front back : List DiskExtent} {data buffer : List UInt8}

theorem writeExtent_eq (fits : disk.Fits sizeofDiskExtent)
    (split : disk.extents = front ++ ⟨disk.base lba, data⟩ :: back)
    (room : disk.extentBlockCount * disk.blockSize ≤ data.length)
    (sized : buffer.length = disk.blockSize) :
    writeExtent front.length buffer lba disk = .ok () (disk.written front back data lba buffer) := by
  have block := fits.block_inside lba
  have position : disk.extents[front.length]? = some ⟨disk.base lba, data⟩ := by
    rw [split, List.getElem?_append_right (le_refl _), Nat.sub_self]
    rfl
  have offset : DiskExtent.offset ⟨disk.base lba, data⟩ disk.blockSize lba = (lba - disk.base lba) * disk.blockSize :=
    fits.offset_eq rfl
  unfold writeExtent
  rw [Code.bind_of_ok (Code.get_apply _), position]
  simp only
  rw [offset, if_pos (by omega), Code.modify_apply, split,
    List.set_append_right _ _ (le_refl _), Nat.sub_self, List.set_cons_zero,
    List.take_of_length_le (by omega)]
  rfl

theorem content_written (fits : disk.Fits sizeofDiskExtent)
    (low : ∀ other ∈ front, other.firstBlockIndex < disk.base lba)
    (room : disk.extentBlockCount * disk.blockSize ≤ data.length)
    (sized : buffer.length = disk.blockSize) (other : Nat) :
    (disk.written front back data lba buffer).content other =
      if other = lba then buffer
      else (disk.withExtents (front ++ ⟨disk.base lba, data⟩ :: back)).content other := by
  have block := fits.block_inside lba
  change (match (front ++ _ :: back).find? (·.firstBlockIndex = disk.base other) with
    | some extent => (extent.data.drop ((other - disk.base other) * disk.blockSize)).take disk.blockSize
    | none => List.replicate disk.blockSize 0) = if other = lba then buffer else
      match (front ++ _ :: back).find? (·.firstBlockIndex = disk.base other) with
      | some extent => (extent.data.drop ((other - disk.base other) * disk.blockSize)).take disk.blockSize
      | none => List.replicate disk.blockSize 0
  by_cases same : disk.base lba = disk.base other
  · rw [← same, find_split low rfl, find_split low rfl]
    by_cases equal : other = lba
    · have inside : (lba - disk.base lba) * disk.blockSize + buffer.length ≤ data.length := by omega
      have read := read_overwrite inside
      rw [sized] at read
      rw [if_pos equal, equal]
      exact read
    · rw [if_neg equal]
      apply read_overwrite_apart (by omega)
      rw [sized]
      have above := disk.base_le lba
      have above' := disk.base_le other
      rcases Nat.lt_or_ge other lba with less | less
      · left
        rw [← Nat.succ_mul]
        exact Nat.mul_le_mul_right _ (by omega)
      · right
        rw [← Nat.succ_mul]
        exact Nat.mul_le_mul_right _ (by omega)
  · have different : other ≠ lba := by
      rintro rfl
      exact same rfl
    rw [if_neg different, find_skip same, find_skip same]

/-- A new extent holds the zeros that the blocks in it had before. -/
theorem content_cleared (fits : disk.Fits sizeofDiskExtent)
    (low : ∀ other ∈ front, other.firstBlockIndex < disk.base lba)
    (high : ∀ other ∈ back, disk.base lba < other.firstBlockIndex)
    {size : Nat} (room : disk.extentBlockCount * disk.blockSize ≤ size) (other : Nat) :
    (disk.withExtents (front ++ ⟨disk.base lba, List.replicate size 0⟩ :: back)).content other =
      (disk.withExtents (front ++ back)).content other := by
  have block := fits.block_inside other
  change (match (front ++ _ :: back).find? (·.firstBlockIndex = disk.base other) with
    | some extent => (extent.data.drop ((other - disk.base other) * disk.blockSize)).take disk.blockSize
    | none => List.replicate disk.blockSize 0) =
      match (front ++ back).find? (·.firstBlockIndex = disk.base other) with
      | some extent => (extent.data.drop ((other - disk.base other) * disk.blockSize)).take disk.blockSize
      | none => List.replicate disk.blockSize 0
  by_cases same : disk.base lba = disk.base other
  · have missing : (front ++ back).find? (·.firstBlockIndex = disk.base lba) = none := by
      rw [List.find?_eq_none]
      intro other member
      rcases List.mem_append.mp member with member | member
      · simpa using Nat.ne_of_lt (low other member)
      · simpa using Nat.ne_of_gt (high other member)
    rw [← same, find_split low rfl, missing, same]
    simp only [List.drop_replicate, List.take_replicate]
    congr 1
    omega
  · rw [find_skip same]

theorem RamDisk.WellFormed.written (wellFormed : (disk.withExtents (front ++ back)).WellFormed)
    (fits : disk.Fits sizeofDiskExtent) (inside : lba < disk.blockCount)
    (low : ∀ other ∈ front, other.firstBlockIndex < disk.base lba)
    (high : ∀ other ∈ back, disk.base lba < other.firstBlockIndex)
    (room : disk.extentBlockCount * disk.blockSize ≤ data.length)
    (sized : buffer.length = disk.blockSize) :
    (disk.written front back data lba buffer).WellFormed := by
  have block := fits.block_inside lba
  have members : ∀ (property : DiskExtent → Prop), (∀ other ∈ front ++ back, property other) →
      ∀ extent : DiskExtent, property extent →
        ∀ other ∈ front ++ extent :: back, property other := by
    intro property others extent holds other member
    rcases List.mem_append.mp member with member | member
    · exact others other (List.mem_append_left _ member)
    · rcases List.mem_cons.mp member with rfl | member
      · exact holds
      · exact others other (List.mem_append_right _ member)
  constructor
  · obtain ⟨first, second, across⟩ := List.pairwise_append.mp wellFormed.ascending
    refine List.pairwise_append.mpr ⟨first, List.pairwise_cons.mpr ⟨high, second⟩, ?_⟩
    intro before member after member'
    rcases List.mem_cons.mp member' with rfl | member'
    · exact low before member
    · exact across before member after member'
  · exact members _ wellFormed.aligned _ (Dvd.intro_left _ rfl)
  · exact members _ wellFormed.onDisk _ (lt_of_le_of_lt (disk.base_le lba) inside)
  · refine members _ wellFormed.room _ ?_
    rw [length_overwrite (by omega)]
    exact room

end Writing

theorem insertIdx_length_append (front back : List DiskExtent) (extent : DiskExtent) :
    (front ++ back).insertIdx front.length extent = front ++ extent :: back := by
  induction front with
  | nil => rfl
  | cons first rest ih =>
    rw [List.cons_append, List.length_cons, List.insertIdx_succ_cons, ih]
    rfl

/-- The new extent goes behind the last extent in front of the block. -/
theorem insertAfter_predecessor (front back : List DiskExtent) (extent : DiskExtent) :
    insertAfter (front ++ back) extent (if front = [] then none else some (front.length - 1)) =
      front ++ extent :: back := by
  cases front with
  | nil => rfl
  | cons first rest =>
    exact insertIdx_length_append (first :: rest) back extent

theorem predecessor_succ (front : List DiskExtent) :
    ((if front = [] then none else some (front.length - 1) : Option Nat).map (· + 1)).getD 0 =
      front.length := by
  cases front with
  | nil => rfl
  | cons first rest =>
    rfl

/-- A write puts the block on the disk, leaves every other block alone and keeps
the extents in order. -/
theorem putBlock_eq {kalloc : Nat → Code RamDisk Errno Nat} (serves : Serves kalloc) (wellFormed : disk.WellFormed) (fits : disk.Fits sizeofDiskExtent)
    (declared : 9 ≤ sizeofDiskExtent) (inside : lba < disk.blockCount) {buffer : List UInt8}
    (sized : buffer.length = disk.blockSize) :
    ∃ extents, putBlock sizeofDiskExtent kalloc buffer lba disk = .ok () (disk.withExtents extents) ∧
      (disk.withExtents extents).WellFormed ∧
      ∀ other, (disk.withExtents extents).content other =
        if other = lba then buffer else disk.content other := by
  have splits := wellFormed.search_splits fits lba
  rw [putBlock, Code.bind_of_ok (Code.get_apply _), if_neg (by omega)]
  generalize disk.search lba = result at splits ⊢
  cases splits with
  | @found front back extent other split low hit =>
    obtain ⟨first, data⟩ := extent
    subst hit
    have member : (⟨disk.base lba, data⟩ : DiskExtent) ∈ disk.extents := by
      rw [split]
      simp
    have room := wellFormed.room _ member
    obtain ⟨ascending, ascending', -⟩ := List.pairwise_append.mp (split ▸ wellFormed.ascending)
    have high := (List.pairwise_cons.mp ascending').1
    have same : disk.withExtents (front ++ ⟨disk.base lba, data⟩ :: back) = disk := by
      rw [← split]
      rfl
    have wellFormed' : (disk.withExtents (front ++ back)).WellFormed := by
      have sub : (front ++ back).Sublist disk.extents := by
        rw [split]
        exact List.Sublist.append (List.Sublist.refl _) (List.sublist_cons_self _ _)
      exact ⟨wellFormed.ascending.sublist sub,
        fun other member => wellFormed.aligned other (sub.subset member),
        fun other member => wellFormed.onDisk other (sub.subset member),
        fun other member => wellFormed.room other (sub.subset member)⟩
    refine ⟨_, ?_, wellFormed'.written fits inside low high room sized, ?_⟩
    · simp only [Nat.zero_add]
      exact writeExtent_eq fits split room sized
    · intro other
      have content : (disk.written front back data lba buffer).content other = _ :=
        content_written fits low room sized other
      rw [same] at content
      exact content
  | missing front back split low high =>
    have memory := fits.memory
    have product : disk.extentBlockCount * disk.blockSize < 4294967296 := by omega
    have total : sizeofDiskExtent - 1 + disk.extentBlockCount * disk.blockSize < 4294967296 := by omega
    have size_eq : wrap32 (sizeofDiskExtent - 1 +
        wrap32 (disk.extentBlockCount * disk.blockSize)) =
          sizeofDiskExtent - 1 + disk.extentBlockCount * disk.blockSize := by
      rw [wrap32_of_lt product, wrap32_of_lt total]
    generalize data_eq : List.replicate (sizeofDiskExtent - 1 +
      disk.extentBlockCount * disk.blockSize - offsetofData) (0 : UInt8) = data
    have room : disk.extentBlockCount * disk.blockSize ≤ data.length := by
      rw [← data_eq, List.length_replicate]
      simp only [offsetofData]
      omega
    have wellFormed' : (disk.withExtents (front ++ back)).WellFormed := by
      rw [← split]
      exact wellFormed
    have adds : addExtentAfter sizeofDiskExtent kalloc (disk.base lba)
        (if front = [] then none else some (0 + front.length - 1)) disk =
          .ok front.length (disk.withExtents (front ++ ⟨disk.base lba, data⟩ :: back)) := by
      have inserted := insertAfter_predecessor front back (⟨disk.base lba, data⟩ : DiskExtent)
      have position := predecessor_succ front
      have served : 8 ≤ sizeofDiskExtent - 1 + disk.extentBlockCount * disk.blockSize ∧
          sizeofDiskExtent - 1 + disk.extentBlockCount * disk.blockSize ≤ 2147483632 := ⟨by omega, memory⟩
      rw [Nat.zero_add, addExtentAfter_eq serves disk _ _ _ size_eq, if_pos served, position, split, ← inserted, ← data_eq]
      rfl
    refine ⟨_, ?_, wellFormed'.written fits inside low high room sized, ?_⟩
    · unfold RamDisk.base at adds
      dsimp only
      rw [Code.bind_of_ok adds]
      have fits' : (disk.withExtents (front ++ ⟨disk.base lba, data⟩ :: back)).Fits sizeofDiskExtent :=
        ⟨fits.positive, fits.addresses, fits.memory⟩
      exact writeExtent_eq fits' rfl room sized
    · intro other
      have same : disk.withExtents (front ++ back) = disk := by
        rw [← split]
        rfl
      have cleared := content_cleared fits low high room other
      have content : (disk.written front back data lba buffer).content other = _ :=
        content_written fits low room sized other
      rw [← data_eq, List.length_replicate, data_eq, same] at cleared
      rw [cleared] at content
      exact content

end Transfers

/-! ## Runs -/

inductive BlockCall
  | get (lba : Nat)
  | put (buffer : List UInt8) (lba : Nat)
  deriving DecidableEq

inductive BlockStep (sizeofDiskExtent : Nat) (disk : RamDisk) : BlockCall → RamDisk → Prop
  | get {lba : Nat} {block : List UInt8} {after : RamDisk} (inside : lba < disk.blockCount)
      (returns : getBlock lba disk = .ok block after) : BlockStep sizeofDiskExtent disk (.get lba) after
  | put {buffer : List UInt8} {lba : Nat} {after : RamDisk} (inside : lba < disk.blockCount)
      (sized : buffer.length = disk.blockSize)
      (returns : putBlock sizeofDiskExtent (kallocCleared true) buffer lba disk = .ok () after) :
      BlockStep sizeofDiskExtent disk (.put buffer lba) after

/-- The content that was put last at a block, or zeros.  The newest call comes first. -/
def lastPut (blockSize lba : Nat) : List BlockCall → List UInt8
  | [] => List.replicate blockSize 0
  | .get _ :: calls => lastPut blockSize lba calls
  | .put buffer other :: calls => if lba = other then buffer else lastPut blockSize lba calls

structure RamDisk.RefinesFlat (start : RamDisk) (sizeofDiskExtent : Nat) : Prop where
  sorted : ∀ calls disk, Runs (BlockStep sizeofDiskExtent) start calls disk → disk.Sorted
  reads : ∀ calls disk, Runs (BlockStep sizeofDiskExtent) start calls disk → ∀ lba < disk.blockCount,
    getBlock lba disk = .ok (lastPut start.blockSize lba calls) disk
  writes : ∀ calls disk, Runs (BlockStep sizeofDiskExtent) start calls disk → ∀ lba < disk.blockCount,
    ∀ buffer : List UInt8, buffer.length = disk.blockSize →
      ∃ after, putBlock sizeofDiskExtent (kallocCleared true) buffer lba disk = .ok () after

structure RamDisk.Holds (start : RamDisk) (calls : List BlockCall) (disk : RamDisk) : Prop where
  shape : disk = start.withExtents disk.extents
  wellFormed : disk.WellFormed
  content : ∀ lba, disk.content lba = lastPut start.blockSize lba calls

section Runs
variable {start disk after : RamDisk} {sizeofDiskExtent : Nat} {call : BlockCall} {calls : List BlockCall}

theorem RamDisk.Fits.of_shape (fits : start.Fits sizeofDiskExtent)
    (shape : disk = start.withExtents disk.extents) : disk.Fits sizeofDiskExtent := by
  rw [shape]
  exact ⟨fits.positive, fits.addresses, fits.memory⟩

theorem BlockStep.holds (fits : start.Fits sizeofDiskExtent) (declared : 9 ≤ sizeofDiskExtent)
    (holds : start.Holds calls disk) (step : BlockStep sizeofDiskExtent disk call after) :
    start.Holds (call :: calls) after := by
  have fits' := fits.of_shape holds.shape
  cases step with
  | get inside returns =>
    rw [getBlock_eq holds.wellFormed fits' inside] at returns
    cases returns
    exact ⟨holds.shape, holds.wellFormed, holds.content⟩
  | @put buffer lba _ inside sized returns =>
    obtain ⟨extents, writes, wellFormed, content⟩ :=
      putBlock_eq kallocCleared_serves holds.wellFormed fits' declared inside sized
    rw [writes] at returns
    cases returns
    refine ⟨?_, wellFormed, ?_⟩
    · rw [holds.shape]
      rfl
    · intro other
      rw [content, holds.content]
      rfl

theorem RamDisk.Fits.refinesFlat (fits : start.Fits sizeofDiskExtent) (declared : 9 ≤ sizeofDiskExtent)
    (empty : start.extents = []) : start.RefinesFlat sizeofDiskExtent := by
  have initial : start.Holds [] start := by
    refine ⟨rfl, ?_, ?_⟩
    · constructor <;> simp [empty]
    · simp [RamDisk.content, RamDisk.lookup, empty, lastPut]
  have reached : ∀ calls disk, Runs (BlockStep sizeofDiskExtent) start calls disk →
      start.Holds calls disk := by
    intro calls disk run
    exact run.history start.Holds initial fun _ _ _ _ _ holds step => step.holds fits declared holds
  refine ⟨fun calls disk run => (reached calls disk run).wellFormed.sorted, ?_, ?_⟩
  · intro calls disk run lba inside
    have holds := reached calls disk run
    rw [getBlock_eq holds.wellFormed (fits.of_shape holds.shape) inside, holds.content]
  · intro calls disk run lba inside buffer sized
    have holds := reached calls disk run
    obtain ⟨extents, writes, -⟩ :=
      putBlock_eq kallocCleared_serves holds.wellFormed (fits.of_shape holds.shape) declared inside sized
    exact ⟨_, writes⟩

/-! ### Numbers that wrap around -/

/-- The extents after a put into an extent that the search did not find, when the
new extent is at the position that the code takes for it. -/
theorem putBlock_missing {kalloc : Nat → Code RamDisk Errno Nat} (serves : Serves kalloc) {buffer : List UInt8} {lba : Nat} {before : Option Nat}
    (inside : lba < disk.blockCount) (missing : disk.search lba = ⟨none, before⟩)
    (placed : ∀ extent, (insertAfter disk.extents extent before)[(before.map (· + 1)).getD 0]? = some extent)
    (returns : putBlock sizeofDiskExtent kalloc buffer lba disk = .ok () after) :
    ∃ data data', after = disk.withExtents ((insertAfter disk.extents ⟨disk.base lba, data⟩ before).set
        ((before.map (· + 1)).getD 0) ⟨disk.base lba, data'⟩) ∧
      8 + data.length = wrap32 (sizeofDiskExtent - 1 + wrap32 (disk.extentBlockCount * disk.blockSize)) ∧
      8 + data.length ≤ 2147483632 ∧
      wrap32 ((lba - disk.base lba) * disk.blockSize) + disk.blockSize ≤ data.length := by
  rw [putBlock, Code.bind_of_ok (Code.get_apply _), if_neg (by omega), missing] at returns
  dsimp only at returns
  rw [Code.bind_eq_ok] at returns
  obtain ⟨position, middle, adds, writes⟩ := returns
  rw [addExtentAfter_eq serves disk _ _ _ rfl] at adds
  split_ifs at adds with served
  obtain ⟨rfl, rfl⟩ := adds
  unfold writeExtent at writes
  rw [Code.bind_of_ok (Code.get_apply _)] at writes
  simp only [placed] at writes
  split_ifs at writes with room
  · simp only [Code.modify_apply, Outcome.ok.injEq, true_and] at writes
    rw [List.length_replicate] at room
    exact ⟨_, _, writes.symm, by rw [List.length_replicate]; omega, by rw [List.length_replicate]; omega,
      by rw [List.length_replicate]; exact room⟩
  · simp at writes

/-- In front of an extent that reaches over the last address, the search misses
its first block. -/
theorem search_wrapped {data : List UInt8} {lba : Nat} (only : disk.extents = [⟨lba, data⟩])
    (small : lba < 4294967296) (count : disk.extentBlockCount < 4294967296)
    (wraps : 4294967296 ≤ lba + disk.extentBlockCount) : disk.search lba = ⟨none, some 0⟩ := by
  have wrapped : wrap32 (lba + disk.extentBlockCount) < lba := by
    simp only [wrap32]
    omega
  simp only [RamDisk.search, only, getDiskExtentForBlockIndex]
  rw [if_neg (by omega), if_neg (by omega)]

variable {nBlockSize nBlockCount nExtentBlockCount : Nat}

theorem ramDisk_addresses (refines : (ramDiskCreate nBlockSize nBlockCount nExtentBlockCount).RefinesFlat
      sizeofDiskExtent)
    (blocks : 1 ≤ nBlockCount) (blocks32 : nBlockCount < 4294967296) (extent : 1 ≤ nExtentBlockCount) :
    (nBlockCount - 1) / min nExtentBlockCount nBlockCount * min nExtentBlockCount nBlockCount +
      min nExtentBlockCount nBlockCount < 4294967296 := by
  generalize start_eq : ramDiskCreate nBlockSize nBlockCount nExtentBlockCount = start at refines
  generalize count_eq : min nExtentBlockCount nBlockCount = count
  have start_count : start.extentBlockCount = count := by
    rw [← start_eq, ← count_eq]
    rfl
  have start_blocks : start.blockCount = nBlockCount := by
    rw [← start_eq]
    rfl
  generalize lba_eq : (nBlockCount - 1) / count * count = lba
  have le : lba ≤ nBlockCount - 1 := by
    rw [← lba_eq]
    exact Nat.div_mul_le_self _ _
  have positive : 0 < count := by omega
  have base : start.base lba = lba := by
    unfold RamDisk.base
    rw [start_count, ← lba_eq, Nat.mul_div_cancel _ positive]
  by_contra wraps
  -- the same block put twice gets two extents
  have empty : start.extents = [] := by
    rw [← start_eq]
    rfl
  have nowhere : start.search lba = ⟨none, none⟩ := by
    rw [RamDisk.search, empty]
    rfl
  obtain ⟨first, puts⟩ := refines.writes [] start .nil lba (by omega) (List.replicate start.blockSize 0)
    List.length_replicate
  have run := Runs.step .nil (BlockStep.put (by omega) List.length_replicate puts)
  obtain ⟨data, data', first_eq, -⟩ := putBlock_missing kallocCleared_serves (by omega) nowhere (by simp [insertAfter]) puts
  rw [base, empty] at first_eq
  have only : first.extents = [⟨lba, data'⟩] := by
    rw [first_eq]
    rfl
  have shape : first.extentBlockCount = count ∧ first.blockCount = nBlockCount ∧ first.base lba = lba := by
    rw [first_eq]
    exact ⟨start_count, start_blocks, base⟩
  obtain ⟨second, puts'⟩ := refines.writes _ first run lba (by omega)
    (List.replicate first.blockSize 0) List.length_replicate
  have run' := run.step (BlockStep.put (by omega) List.length_replicate puts')
  obtain ⟨data₂, data₃, second_eq, -⟩ := putBlock_missing kallocCleared_serves (by omega)
    (search_wrapped only (by omega) (by omega) (by omega)) (by simp [insertAfter, only]) puts'
  have ascending := (refines.sorted _ second run').ascending
  rw [second_eq, only, shape.2.2] at ascending
  simp [RamDisk.withExtents, insertAfter] at ascending

theorem ramDisk_memory (refines : (ramDiskCreate nBlockSize nBlockCount nExtentBlockCount).RefinesFlat
      sizeofDiskExtent)
    (blocks : 1 ≤ nBlockCount) (declared32 : sizeofDiskExtent < 4294967296) :
    sizeofDiskExtent - 1 + min nExtentBlockCount nBlockCount * nBlockSize ≤ 2147483632 := by
  by_contra large
  generalize start_eq : ramDiskCreate nBlockSize nBlockCount nExtentBlockCount = start at refines
  generalize count_eq : min nExtentBlockCount nBlockCount = count at large
  generalize memory_eq : count * nBlockSize = memory at large
  have shape : start.extents = [] ∧ start.extentBlockCount = count ∧ start.blockCount = nBlockCount ∧
      start.blockSize = nBlockSize := by
    rw [← start_eq, ← count_eq]
    exact ⟨rfl, rfl, rfl, rfl⟩
  obtain ⟨empty, start_count, start_blocks, start_size⟩ := shape
  have nowhere : ∀ lba, start.search lba = ⟨none, none⟩ := by
    intro lba
    rw [RamDisk.search, empty]
    rfl
  by_cases wraps : sizeofDiskExtent - 1 + memory < 4294967296
  · -- the assertion fails, or the block is too small
    obtain ⟨after, puts⟩ := refines.writes [] start .nil 0 (by omega) (List.replicate start.blockSize 0)
      List.length_replicate
    obtain ⟨data, data', -, length, served, -⟩ := putBlock_missing kallocCleared_serves (by omega) (nowhere 0) (by simp [insertAfter]) puts
    rw [start_count, start_size, memory_eq, wrap32_of_lt (show memory < 4294967296 by omega), wrap32_of_lt wraps] at length
    omega
  have positive : 0 < nBlockSize := by
    apply Nat.pos_of_ne_zero
    intro zero
    rw [zero, Nat.mul_zero] at memory_eq
    omega
  -- the first block of the extent that is not inside the memory it got
  generalize lba_eq : (wrap32 (sizeofDiskExtent - 1 + wrap32 memory) - 8) / nBlockSize = lba
  have below : lba * nBlockSize ≤ wrap32 (sizeofDiskExtent - 1 + wrap32 memory) - 8 := by
    rw [← lba_eq]
    exact Nat.div_mul_le_self _ _
  have above : wrap32 (sizeofDiskExtent - 1 + wrap32 memory) - 8 < lba * nBlockSize + nBlockSize := by
    rw [← lba_eq, ← Nat.succ_mul, Nat.mul_comm]
    exact Nat.lt_mul_div_succ _ positive
  have short : wrap32 (sizeofDiskExtent - 1 + wrap32 memory) - 8 < memory := by
    simp only [wrap32]
    omega
  have inside : lba < count := by
    apply Nat.lt_of_mul_lt_mul_right (a := nBlockSize)
    omega
  have base : start.base lba = 0 := by
    unfold RamDisk.base
    rw [start_count, Nat.div_eq_of_lt inside, Nat.zero_mul]
  obtain ⟨after, puts⟩ := refines.writes [] start .nil lba (by omega) (List.replicate start.blockSize 0)
    List.length_replicate
  obtain ⟨data, data', -, length, -, room⟩ :=
    putBlock_missing kallocCleared_serves (by omega) (nowhere lba) (by simp [insertAfter]) puts
  rw [base, Nat.sub_zero, start_size, wrap32_of_lt (by simp only [wrap32] at below; omega)] at room
  rw [start_count, start_size, memory_eq] at length
  omega

/-- A RAM disk is a flat array of blocks exactly when the address behind its last
extent does not wrap around and `kalloc` serves the size of an extent. -/
theorem ramDisk_refines_iff (blocks : 1 ≤ nBlockCount) (blocks32 : nBlockCount < 4294967296)
    (extent : 1 ≤ nExtentBlockCount) (declared : 9 ≤ sizeofDiskExtent)
    (declared32 : sizeofDiskExtent < 4294967296) :
    (ramDiskCreate nBlockSize nBlockCount nExtentBlockCount).RefinesFlat sizeofDiskExtent ↔
      (nBlockCount - 1) / min nExtentBlockCount nBlockCount * min nExtentBlockCount nBlockCount +
          min nExtentBlockCount nBlockCount < 4294967296 ∧
        sizeofDiskExtent - 1 + min nExtentBlockCount nBlockCount * nBlockSize ≤ 2147483632 := by
  constructor
  · intro refines
    exact ⟨ramDisk_addresses refines blocks blocks32 extent, ramDisk_memory refines blocks declared32⟩
  · rintro ⟨addresses, memory⟩
    have fits : (ramDiskCreate nBlockSize nBlockCount nExtentBlockCount).Fits sizeofDiskExtent :=
      ⟨by simp only [ramDiskCreate]; omega, addresses, memory⟩
    exact fits.refinesFlat declared rfl

end Runs

/-- The RAM disk that the kernel boots from. -/
theorem bootDisk_refines : (ramDiskCreate 512 128 128).RefinesFlat 12 :=
  (ramDisk_refines_iff (by decide) (by decide) (by decide) (by decide) (by decide)).mpr (by decide)

/-- The last block of a disk with an odd number of blocks in extents of two is
never found again. -/
theorem largestDisk_forgets :
    ¬ ∀ (sizeofDiskExtent nBlockSize nBlockCount nExtentBlockCount : Nat), 1 ≤ nBlockCount →
      nBlockCount < 4294967296 → 1 ≤ nExtentBlockCount → 9 ≤ sizeofDiskExtent →
      (ramDiskCreate nBlockSize nBlockCount nExtentBlockCount).RefinesFlat sizeofDiskExtent := by
  intro claim
  have refines := claim 12 1 4294967295 2 (by decide) (by decide) (by decide) (by decide)
  have puts := Outcome.eq_ok
    (show (putBlock 12 (kallocCleared true) [1] 4294967294 (ramDiskCreate 1 4294967295 2)).value? = some () by
      decide)
    (ramDiskCreate 1 4294967295 2)
  have reads := refines.reads _ _ (Runs.step .nil (BlockStep.put (by decide) rfl puts)) 4294967294
    (by decide)
  revert reads
  decide

end Apollo.Driver
