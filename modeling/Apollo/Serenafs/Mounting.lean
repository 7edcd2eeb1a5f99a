import Apollo.Lib.Runs
import Apollo.Serenafs.BitmapCoherence

/-!
# Which volumes are mounted

`SerenaFS_onMount` reads five numbers from the volume header.  It compares the
block size with the one it knows and the other sizes with their least values,
and it never compares the numbers with each other or with the disk.
-/

set_option autoImplicit false

namespace Apollo.Serenafs

open Lib

/-! ## What a mount reads -/

structure SameBlocks (disk after : Disk) : Prop where
  block : after.block = disk.block
  blockCount : after.blockCount = disk.blockCount

theorem Disk.getBlock_ok {disk after : Disk} {lba : Nat} {block : Block}
    (read : Disk.getBlock lba disk = .ok block after) :
    block = disk.block lba ∧ SameBlocks disk after := by
  unfold Disk.getBlock at read
  split at read
  · simp at read
  · simp only at read
    split_ifs at read
    obtain ⟨rfl, rfl⟩ := read
    exact ⟨rfl, rfl, rfl⟩

theorem readHeader_reads {driver after : Disk} {header : SFSVolumeHeader}
    (read : readHeader driver = .ok header after) :
    header = decodeHeader (driver.block 0) ∧ header.blockSize = kSFSBlockSize ∧
      SameBlocks driver after := by
  unfold readHeader at read
  rw [Code.bind_of_ok (Code.get_apply _)] at read
  split_ifs at read
  · simp at read
  · simp at read
  rw [Code.bind_eq_ok] at read
  obtain ⟨block, middle, transfer, checks⟩ := read
  obtain ⟨rfl, same⟩ := Disk.getBlock_ok transfer
  split_ifs at checks with wrong bad
  · simp at checks
  · simp at checks
  · obtain ⟨rfl, rfl⟩ := checks
    simp only [not_or, not_not] at bad
    exact ⟨rfl, bad.1, same⟩

theorem readBitmapBlocks_reads {lba count byteSize : Nat} {driver after : Disk} {bitmap : List UInt8}
    (covers : byteSize ≤ count * kSFSBlockSize)
    (read : readBitmapBlocks lba count byteSize driver = .ok bitmap after) :
    bitmap.length = byteSize ∧ SameBlocks driver after := by
  induction count generalizing lba byteSize driver bitmap after with
  | zero =>
    obtain ⟨rfl, rfl⟩ := read
    exact ⟨(Nat.le_zero.mp covers).symm, rfl, rfl⟩
  | succ count ih =>
    obtain ⟨block, middle, transfer, read⟩ := Code.bind_eq_ok.mp read
    obtain ⟨rest, final, others, returned⟩ := Code.bind_eq_ok.mp read
    obtain ⟨-, first⟩ := Disk.getBlock_ok transfer
    have shorter : byteSize - min kSFSBlockSize byteSize ≤ count * kSFSBlockSize := by
      rw [Nat.succ_mul] at covers
      omega
    obtain ⟨length, second⟩ := ih shorter others
    obtain ⟨rfl, rfl⟩ := returned
    refine ⟨?_, second.block.trans first.block, second.blockCount.trans first.blockCount⟩
    rw [List.length_append, Buffer.length_slice, length]
    omega

/-- The cached bitmap has `bytes` bytes, and the volume and the disk have these
numbers of blocks. -/
structure SerenaFS.Caches (bytes volume count : Nat) (fs : SerenaFS) : Prop where
  bytes : fs.allocationBitmap.length = bytes
  volume : fs.volumeBlockCount = volume
  count : fs.disk.blockCount = count

theorem onMount_reads {driver : Disk} {before fs : SerenaFS}
    (mounts : onMount driver before = .ok () fs) :
    fs.allocationBitmapByteSize = (decodeHeader (driver.block 0)).allocationBitmapByteSize ∧
      fs.Caches (decodeHeader (driver.block 0)).allocationBitmapByteSize
        (decodeHeader (driver.block 0)).volumeBlockCount driver.blockCount := by
  unfold onMount at mounts
  split_ifs at mounts
  cases read : readHeader driver with
  | fault => simp [read] at mounts
  | err reason after => simp [read] at mounts
  | ok header after =>
    obtain ⟨decoded, size, first⟩ := readHeader_reads read
    simp only [read, size] at mounts
    split at mounts
    · simp at mounts
    · simp at mounts
    next memory allocated =>
      obtain ⟨heap, rfl⟩ := kalloc_ok allocated
      split at mounts
      · simp at mounts
      · simp at mounts
      next bitmap final cached =>
        have covers : header.allocationBitmapByteSize ≤
            (header.allocationBitmapByteSize + (kSFSBlockSize - 1)) / kSFSBlockSize *
              kSFSBlockSize := by
          simp only [kSFSBlockSize]
          omega
        obtain ⟨length, second⟩ := readBitmapBlocks_reads covers cached
        simp only [Outcome.ok.injEq, true_and] at mounts
        subst mounts
        rw [← decoded]
        exact ⟨rfl, length, rfl, second.blockCount.trans first.blockCount⟩

/-! ## Runs of the allocator -/

section Runs
variable {bytes volume count : Nat}

theorem Disk.putBlock_blockCount (block : Block) (lba : Nat) (disk : Disk) :
    (Disk.putBlock block lba disk).Returned (fun _ after => after.blockCount = disk.blockCount)
      (fun _ after => after.blockCount = disk.blockCount) := by
  unfold Disk.putBlock
  split
  · rfl
  · simp only
    split_ifs
    · rfl
    · rfl

theorem putBlock_caches (block : Block) (lba : Nat) :
    Code.Keeps (SerenaFS.Caches bytes volume count) (putBlock block lba) := by
  intro fs caches
  have counts := Disk.putBlock_blockCount block lba fs.disk
  unfold putBlock onDisk
  cases transfer : Disk.putBlock block lba fs.disk with
  | fault => trivial
  | ok value disk =>
    rw [transfer] at counts
    exact ⟨caches.bytes, caches.volume, counts.trans caches.count⟩
  | err reason disk =>
    rw [transfer] at counts
    exact ⟨caches.bytes, caches.volume, counts.trans caches.count⟩

theorem setBit_caches (lba : Nat) (inUse : Bool) :
    Code.Keeps (SerenaFS.Caches bytes volume count) (setBit lba inUse) := by
  refine Code.keeps_modify fun fs caches => ⟨?_, caches.volume, caches.count⟩
  rw [← caches.bytes]
  exact length_setBlockInUse _ _ _

theorem writeBack_caches (lba : Nat) :
    Code.Keeps (SerenaFS.Caches bytes volume count) (writeBackAllocationBitmapForLba lba) := by
  refine Code.keeps_bind Code.keeps_get fun fs => ?_
  simp only
  split_ifs
  · exact putBlock_caches _ _
  · exact Code.keeps_fault

theorem allocateBlockLocked_caches :
    Code.Keeps (SerenaFS.Caches bytes volume count) allocateBlockLocked := by
  refine Code.keeps_bind Code.keeps_get fun fs => ?_
  cases findFreeBlock fs.allocationBitmap (fs.volumeBlockCount - 1) 1 with
  | outside => exact Code.keeps_fault
  | full => exact Code.keeps_throw _
  | found lba =>
    refine Code.keeps_bind (setBit_caches lba true) fun _ => ?_
    refine Code.keeps_bind ?_ fun _ => Code.keeps_pure _
    exact Code.keeps_onError (writeBack_caches lba) (setBit_caches lba false)

theorem deallocateBlockLocked_caches (lba : Nat) :
    Code.Keeps (SerenaFS.Caches bytes volume count) (deallocateBlockLocked lba) := by
  unfold deallocateBlockLocked
  split_ifs
  · exact Code.keeps_pure _
  refine Code.keeps_bind Code.keeps_get fun fs => ?_
  split_ifs
  · exact Code.keeps_fault
  refine Code.keeps_bind (setBit_caches lba false) fun _ => ?_
  exact Code.keeps_bind (Code.keeps_attempt (writeBack_caches lba)) fun _ => Code.keeps_pure _

def BlockStep (fs : SerenaFS) (call : BlockCall) (after : SerenaFS) : Prop :=
  (call.exec fs).state? = some after

theorem BlockStep.caches {fs after : SerenaFS} {call : BlockCall} (step : BlockStep fs call after)
    (caches : fs.Caches bytes volume count) : after.Caches bytes volume count := by
  cases call with
  | allocate =>
    have keeps : Code.Keeps (SerenaFS.Caches bytes volume count) BlockCall.allocate.exec :=
      Code.keeps_bind allocateBlockLocked_caches fun _ => Code.keeps_pure _
    exact keeps.of_state caches step
  | deallocate lba => exact (deallocateBlockLocked_caches lba).of_state caches step

end Runs

/-- The allocator looks only at bits of the cached bitmap, changes only such bits
and returns only blocks of the disk. -/
structure SerenaFS.AllocatesInside (fs : SerenaFS) : Prop where
  reads : findFreeBlock fs.allocationBitmap (fs.volumeBlockCount - 1) 1 ≠ .outside
  writes : ∀ lba, findFreeBlock fs.allocationBitmap (fs.volumeBlockCount - 1) 1 = .found lba →
    lba / 8 < fs.allocationBitmap.length
  returns : ∀ lba after, allocateBlockLocked fs = .ok lba after → lba < fs.disk.blockCount

/-- The volume fits its bitmap and its disk, and the allocator stays inside both
in every run. -/
structure SerenaFS.Operable (fs : SerenaFS) : Prop where
  bitmap : fs.volumeBlockCount ≤ 8 * fs.allocationBitmapByteSize
  disk : fs.volumeBlockCount ≤ fs.disk.blockCount
  runs : ∀ calls after, Runs BlockStep fs calls after → after.AllocatesInside

theorem SerenaFS.Caches.allocatesInside {bytes volume count : Nat} {fs : SerenaFS}
    (caches : fs.Caches bytes volume count) (bitmap : volume ≤ 8 * bytes) (disk : volume ≤ count) :
    fs.AllocatesInside := by
  have inside : findFreeBlock fs.allocationBitmap (fs.volumeBlockCount - 1) 1 ≠ .outside := by
    by_cases empty : fs.volumeBlockCount = 0
    · rw [empty]
      simp [findFreeBlock]
    · apply findFreeBlock_inside
      rw [caches.bytes, caches.volume] at *
      omega
  refine ⟨inside, fun lba search => (findFreeBlock_found search).2.2.1, ?_⟩
  intro lba after allocates
  unfold allocateBlockLocked at allocates
  rw [Code.bind_of_ok (Code.get_apply _)] at allocates
  cases search : findFreeBlock fs.allocationBitmap (fs.volumeBlockCount - 1) 1 with
  | outside => exact absurd search inside
  | full => simp [search] at allocates
  | found block =>
    obtain ⟨low, high, -⟩ := findFreeBlock_found search
    simp only [search] at allocates
    obtain ⟨-, middle, -, allocates⟩ := Code.bind_eq_ok.mp allocates
    obtain ⟨-, final, -, returned⟩ := Code.bind_eq_ok.mp allocates
    simp only [Code.pure_apply, Outcome.ok.injEq] at returned
    have counted := caches.count
    have sized := caches.volume
    omega

/-- A volume that is mounted can be operated on exactly when the numbers in its
header agree with each other and with the disk. -/
theorem onMount_operable_iff {driver : Disk} {before fs : SerenaFS}
    (mounts : onMount driver before = .ok () fs) :
    fs.Operable ↔
      (decodeHeader (driver.block 0)).volumeBlockCount ≤
          8 * (decodeHeader (driver.block 0)).allocationBitmapByteSize ∧
        (decodeHeader (driver.block 0)).volumeBlockCount ≤ driver.blockCount := by
  obtain ⟨bytes, caches⟩ := onMount_reads mounts
  constructor
  · intro operable
    have bitmap := operable.bitmap
    have disk := operable.disk
    rw [caches.volume, bytes] at bitmap
    rw [caches.volume, caches.count] at disk
    exact ⟨bitmap, disk⟩
  · rintro ⟨bitmap, disk⟩
    refine ⟨by rw [caches.volume, bytes]; exact bitmap, by rw [caches.volume, caches.count]; exact disk, ?_⟩
    intro calls after run
    have reached := run.invariant (SerenaFS.Caches _ _ _) caches fun _ _ _ holds step => step.caches holds
    exact reached.allocatesInside bitmap disk

theorem emptyDisk_operable :
    (((onMount smallDisk (created ⟨0, 0⟩ [])).state?).getD (created ⟨0, 0⟩ [])).Operable := by
  have mounts := Outcome.eq_ok
    (show (onMount smallDisk (created ⟨0, 0⟩ [])).value? = some () by decide)
    (created ⟨0, 0⟩ [])
  exact (onMount_operable_iff mounts).mpr (by decide)

def overstatedDisk : Disk :=
  { emptyDisk 4 with
    block := Function.update (fun _ => Buffer.ofList [0xff])
      0 (encodeHeader ⟨kSFSSignatureSerenaFS, kSFSVersionV01, kSFSBlockSize, 1000, 1, 2, 1⟩ ⟨0, 0⟩) }

/-- It is mounted, and the first allocation reads behind the bitmap. -/
theorem overstatedDisk_mounted :
    ¬ ∀ (driver : Disk) (before fs : SerenaFS), driver.blockSize = kSFSBlockSize →
      4 ≤ driver.blockCount → onMount driver before = .ok () fs → fs.Operable := by
  intro claim
  have mounts := Outcome.eq_ok
    (show (onMount overstatedDisk (created ⟨0, 0⟩ [])).value? = some () by decide)
    (created ⟨0, 0⟩ [])
  have operable := claim overstatedDisk (created ⟨0, 0⟩ []) _ rfl (by decide) mounts
  have inside := (operable.runs [] _ .nil).reads
  revert inside
  decide

end Apollo.Serenafs
