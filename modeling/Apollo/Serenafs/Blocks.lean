import Apollo.Serenafs.State

/-!
# Block allocation

The block allocator of `SerenaFS.c`.  The cached bitmap is searched from block 1
on, and after every change the window of the bitmap that holds the changed bit
is copied to the scratch block and written back.
-/

set_option autoImplicit false

namespace Apollo.Serenafs

open Lib

/-- The 512 bytes of the cached bitmap that belong to bitmap block `index`. -/
def bitmapWindow (bitmap : List UInt8) (index : Nat) : Block :=
  Buffer.ofList (bitmap.drop (index * kSFSBlockSize))

/-- The number of bytes that the write-back copies for bitmap block `index`: all
that follow in the bitmap. -/
def writeBackLength (fs : SerenaFS) (index : Nat) : Int :=
  (fs.allocationBitmapByteSize : Int) - index * kSFSBlockSize

def copyFits (fs : SerenaFS) (index : Nat) : Prop :=
  0 ≤ writeBackLength fs index ∧ writeBackLength fs index ≤ kSFSBlockSize

instance (fs : SerenaFS) (index : Nat) : Decidable (copyFits fs index) :=
  inferInstanceAs (Decidable (_ ∧ _))

def writeBackAllocationBitmapForLba (lba : Nat) : FS Unit := do
  let fs ← Code.get
  let index := lba / 8 / kSFSBlockSize
  -- the memcpy overruns the scratch block when the length is not that of a window
  if copyFits fs index then
    putBlock (bitmapWindow fs.allocationBitmap index) (fs.allocationBitmapLba + index)
  else Code.fault

inductive BlockSearch where
  | found (lba : Nat)
  | full
  | outside
  deriving DecidableEq, Repr

/-- The search loop of the allocator over `count` blocks from `lba` on; `outside`
is a read past the end of the bitmap. -/
def findFreeBlock (bitmap : List UInt8) : Nat → Nat → BlockSearch
  | 0, _ => .full
  | count + 1, lba =>
    if bitmap.length ≤ lba / 8 then .outside
    else if isBlockInUse bitmap lba then findFreeBlock bitmap count (lba + 1)
    else .found lba

def SerenaFS.withBit (fs : SerenaFS) (lba : Nat) (inUse : Bool) : SerenaFS :=
  { fs with allocationBitmap := setBlockInUse fs.allocationBitmap lba inUse }

def setBit (lba : Nat) (inUse : Bool) : FS Unit := Code.modify fun fs => fs.withBit lba inUse

def allocateBlockLocked : FS Nat := do
  let fs ← Code.get
  match findFreeBlock fs.allocationBitmap (fs.volumeBlockCount - 1) 1 with
  | .outside => Code.fault
  | .full => Code.throw .ENOSPC
  | .found lba =>
    setBit lba true
    Code.onError (writeBackAllocationBitmapForLba lba) (setBit lba false)
    pure lba

def deallocateBlockLocked (lba : Nat) : FS Unit :=
  if lba = 0 then pure ()
  else do
    let fs ← Code.get
    if fs.allocationBitmap.length ≤ lba / 8 then Code.fault
    else
      setBit lba false
      let _ ← Code.attempt (writeBackAllocationBitmapForLba lba)
      pure ()

/-! ## What the search finds -/

theorem findFreeBlock_found {bitmap : List UInt8} {count start lba : Nat}
    (search : findFreeBlock bitmap count start = .found lba) :
    start ≤ lba ∧ lba < start + count ∧ lba / 8 < bitmap.length ∧
      isBlockInUse bitmap lba = false := by
  induction count generalizing start with
  | zero => simp [findFreeBlock] at search
  | succ count ih =>
    unfold findFreeBlock at search
    split_ifs at search with outside used
    · obtain ⟨low, high, rest⟩ := ih search
      exact ⟨by omega, by omega, rest⟩
    · simp only [BlockSearch.found.injEq] at search
      subst search
      exact ⟨le_refl _, by omega, by omega, by simpa using used⟩

theorem findFreeBlock_inside {bitmap : List UInt8} {count start : Nat}
    (covers : start + count ≤ 8 * bitmap.length) : findFreeBlock bitmap count start ≠ .outside := by
  induction count generalizing start with
  | zero => simp [findFreeBlock]
  | succ count ih =>
    unfold findFreeBlock
    split_ifs with outside
    · omega
    · exact ih (by omega)
    · simp

/-! ## Allocation on a disk that does not fail -/

/-- The bitmap block that holds the bit of block `lba`. -/
def windowOf (lba : Nat) : Nat := lba / 8 / kSFSBlockSize

/-- The volume after the bit of `lba` was set and its bitmap block was written back. -/
def SerenaFS.mark (fs : SerenaFS) (lba : Nat) (inUse : Bool) : SerenaFS :=
  (fs.withBit lba inUse).writeBlock (fs.allocationBitmapLba + windowOf lba)
    (bitmapWindow (fs.withBit lba inUse).allocationBitmap (windowOf lba))

structure SerenaFS.Geometry (fs : SerenaFS) : Prop where
  bytes : fs.allocationBitmap.length = fs.allocationBitmapByteSize
  blocks : fs.allocationBitmapBlockCount =
    (fs.allocationBitmapByteSize + (kSFSBlockSize - 1)) / kSFSBlockSize
  onDisk : fs.allocationBitmapLba + fs.allocationBitmapBlockCount ≤ fs.disk.blockCount

theorem SerenaFS.Geometry.windowOf_lt {fs : SerenaFS} (geometry : fs.Geometry) {lba : Nat}
    (inside : lba / 8 < fs.allocationBitmap.length) :
    windowOf lba < fs.allocationBitmapBlockCount := by
  have bytes := geometry.bytes
  have blocks := geometry.blocks
  unfold windowOf
  simp only [kSFSBlockSize] at *
  omega

theorem SerenaFS.Geometry.mark {fs : SerenaFS} (geometry : fs.Geometry) (lba : Nat)
    (inUse : Bool) : (fs.mark lba inUse).Geometry where
  bytes := by
    rw [← show fs.allocationBitmapByteSize = (fs.mark lba inUse).allocationBitmapByteSize from rfl,
      ← geometry.bytes]
    exact length_setBlockInUse _ _ _
  blocks := geometry.blocks
  onDisk := geometry.onDisk

section Quiet
variable {fs : SerenaFS} (quiet : fs.disk.faults = []) (geometry : fs.Geometry)

include quiet geometry

theorem writeBack_withBit {lba : Nat} (inside : lba / 8 < fs.allocationBitmap.length)
    (inUse : Bool) :
    writeBackAllocationBitmapForLba lba (fs.withBit lba inUse) =
      if copyFits fs (windowOf lba) then .ok () (fs.mark lba inUse) else .fault := by
  have window := geometry.windowOf_lt inside
  have onDisk := geometry.onDisk
  have written : putBlock (bitmapWindow (fs.withBit lba inUse).allocationBitmap (windowOf lba))
      (fs.allocationBitmapLba + windowOf lba) (fs.withBit lba inUse) =
        .ok () (fs.mark lba inUse) := by
    have bound : fs.allocationBitmapLba + windowOf lba < fs.disk.blockCount := by omega
    rw [putBlock_quiet (show (fs.withBit lba inUse).disk.faults = [] from quiet)]
    exact if_pos bound
  change (if copyFits fs (windowOf lba) then _ else Code.fault) _ = _
  split_ifs with fits
  · exact written
  · rfl

theorem allocateBlockLocked_found {lba : Nat}
    (search : findFreeBlock fs.allocationBitmap (fs.volumeBlockCount - 1) 1 = .found lba) :
    allocateBlockLocked fs =
      if copyFits fs (windowOf lba) then .ok lba (fs.mark lba true) else .fault := by
  have inside := (findFreeBlock_found search).2.2.1
  unfold allocateBlockLocked
  rw [Code.bind_of_ok (Code.get_apply _), search]
  simp only
  rw [Code.bind_of_ok (show setBit lba true fs = .ok () (fs.withBit lba true) from rfl),
    Code.bind_apply]
  unfold Code.onError
  rw [writeBack_withBit quiet geometry inside]
  split_ifs <;> rfl

omit quiet geometry in
theorem allocateBlockLocked_full
    (search : findFreeBlock fs.allocationBitmap (fs.volumeBlockCount - 1) 1 = .full) :
    allocateBlockLocked fs = .err .ENOSPC fs := by
  unfold allocateBlockLocked
  rw [Code.bind_of_ok (Code.get_apply _), search]
  rfl

theorem deallocateBlockLocked_eq {lba : Nat} (nonzero : lba ≠ 0)
    (inside : lba / 8 < fs.allocationBitmap.length) :
    deallocateBlockLocked lba fs =
      if copyFits fs (windowOf lba) then .ok () (fs.mark lba false) else .fault := by
  unfold deallocateBlockLocked
  rw [if_neg nonzero, Code.bind_of_ok (Code.get_apply _), if_neg (by omega),
    Code.bind_of_ok (show setBit lba false fs = .ok () (fs.withBit lba false) from rfl),
    Code.bind_apply]
  unfold Code.attempt
  rw [writeBack_withBit quiet geometry inside]
  split_ifs <;> rfl

end Quiet

end Apollo.Serenafs
