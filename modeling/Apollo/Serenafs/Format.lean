import Apollo.Serenafs.Directories

/-!
# Formatting and mounting

`SerenaFS_FormatDrive` writes an empty volume to a disk and `SerenaFS_onMount`
reads the header and the allocation bitmap of a volume back.
-/

set_option autoImplicit false

namespace Apollo.Serenafs

open Lib

/-! ## Formatting -/

def allocationBitmapByteSizeFor (diskBlockCount : Nat) : Nat :=
  (diskBlockCount + 7) % 4294967296 / 8

def allocBitmapBlockCountFor (diskBlockCount : Nat) : Nat :=
  (allocationBitmapByteSizeFor diskBlockCount + (kSFSBlockSize - 1)) / kSFSBlockSize

/-- The inner loop over a bitmap block: marks `count` blocks from `bitNo` on. -/
def markBlocksInUse : Nat → Nat → List UInt8 → List UInt8
  | 0, _, bitmap => bitmap
  | count + 1, bitNo, bitmap => markBlocksInUse count (bitNo + 1) (setBlockInUse bitmap bitNo true)

/-- The loop that writes the bitmap blocks from index `i` on; `allocated` blocks
have been marked so far. -/
def writeBitmapBlocks (nBlocksToAllocate : Nat) : Nat → Nat → Nat → Code Disk Errno Unit
  | 0, _, _ => pure ()
  | count + 1, i, allocated => do
      let limit := min nBlocksToAllocate (kSFSBlockSize * 8)
      let bitmap := markBlocksInUse (limit - allocated) 0 (List.replicate kSFSBlockSize 0)
      Disk.putBlock (Buffer.ofList bitmap) (1 + i)
      writeBitmapBlocks nBlocksToAllocate count (i + 1) (max allocated limit)

def formatHeader (diskBlockCount : Nat) : SFSVolumeHeader where
  signature := kSFSSignatureSerenaFS
  version := kSFSVersionV01
  blockSize := kSFSBlockSize
  volumeBlockCount := diskBlockCount
  allocationBitmapByteSize := allocationBitmapByteSizeFor diskBlockCount
  rootDirectoryLba := allocBitmapBlockCountFor diskBlockCount + 1
  allocationBitmapLba := 1

def rootInode (diskBlockCount : Nat) (user : User) (permissions : FilePermissions)
    (curTime : TimeInterval) : SFSInode where
  accessTime := curTime
  modificationTime := curTime
  statusChangeTime := curTime
  size := 2 * sizeofSFSDirectoryEntry
  uid := user.uid
  gid := user.gid
  linkCount := 1
  permissions := permissions
  type := .directory
  blockMap :=
    Function.update BlockMap.empty ⟨0, by decide⟩ (allocBitmapBlockCountFor diskBlockCount + 2)

def rootContent (rootDirInodeLba : Nat) : Block :=
  let block : Block := Buffer.zero
  let block := block.blit 0 (beBytes 4 rootDirInodeLba ++ kPathComponentSelf)
  block.blit sizeofSFSDirectoryEntry (beBytes 4 rootDirInodeLba ++ kPathComponentParent)

/-- `SerenaFS_FormatDrive`; `scratch` says whether the scratch block could be
allocated. -/
def formatDrive (user : User) (permissions : FilePermissions) (curTime : TimeInterval)
    (scratch : Bool) : Code Disk Errno Unit := do
  let disk ← Code.get
  if disk.blockSize ≠ kSFSBlockSize then Code.throw .EINVAL
  else if disk.blockCount < kSFSVolumeMinBlockCount then Code.throw .ENOSPC
  else if !scratch then Code.throw .ENOMEM
  else
    let bitmapBlocks := allocBitmapBlockCountFor disk.blockCount
    Disk.putBlock (encodeHeader (formatHeader disk.blockCount) curTime) 0
    writeBitmapBlocks (1 + bitmapBlocks + 1 + 1) bitmapBlocks 0 0
    Disk.putBlock (encodeInode (rootInode disk.blockCount user permissions curTime))
      (bitmapBlocks + 1)
    Disk.putBlock (rootContent (bitmapBlocks + 1)) (bitmapBlocks + 2)

/-! ## Mounting -/

/-- The instance that `SerenaFS_Create` returns, before anything is mounted. -/
def created (clock : TimeInterval) (heapFaults : List Bool) : SerenaFS where
  disk := ⟨0, 0, fun _ => Buffer.zero, []⟩
  isMounted := false
  allocationBitmapLba := 0
  allocationBitmapBlockCount := 0
  allocationBitmap := []
  allocationBitmapByteSize := 0
  volumeBlockCount := 0
  rootDirLba := 0
  isReadOnly := false
  inodesInUse := []
  inode := fun _ => none
  nextRef := 0
  heapFaults := heapFaults
  clock := clock
  nodeLog := []

/-- The loop that caches `byteSize` bytes of the bitmap from block `lba` on. -/
def readBitmapBlocks (lba : Nat) : Nat → Nat → Code Disk Errno (List UInt8)
  | 0, _ => pure []
  | count + 1, byteSize => do
      let block ← Disk.getBlock lba
      let rest ← readBitmapBlocks (lba + 1) count (byteSize - min kSFSBlockSize byteSize)
      pure (block.slice 0 (min kSFSBlockSize byteSize) ++ rest)

/-- The checks of `SerenaFS_onMount` on the disk and on the volume header. -/
def readHeader : Code Disk Errno SFSVolumeHeader := do
  let disk ← Code.get
  if disk.blockCount < kSFSVolumeMinBlockCount then Code.throw .EIOError
  else if disk.blockSize ≠ kSFSBlockSize then Code.throw .EIOError
  else
    let block ← Disk.getBlock 0
    let header := decodeHeader block
    if header.signature ≠ kSFSSignatureSerenaFS ∨ header.version ≠ kSFSVersionV01 then
      Code.throw .EIOError
    else if header.blockSize ≠ kSFSBlockSize ∨ header.volumeBlockCount < kSFSVolumeMinBlockCount ∨
        header.allocationBitmapByteSize < 1 then
      Code.throw .EIOError
    else pure header

def onMount (driver : Disk) : FS Unit := fun fs =>
  if fs.isMounted then .err .EIOError fs
  else
    match readHeader driver with
    | .fault => .fault
    | .err reason _ => .err reason fs
    | .ok header driver =>
      let blockCount := (header.allocationBitmapByteSize + (header.blockSize - 1)) / header.blockSize
      let fs := { fs with
        rootDirLba := header.rootDirectoryLba
        allocationBitmapLba := header.allocationBitmapLba
        allocationBitmapBlockCount := blockCount
        allocationBitmapByteSize := header.allocationBitmapByteSize
        volumeBlockCount := header.volumeBlockCount }
      match kalloc fs with
      | .fault => .fault
      | .err reason fs => .err reason fs
      | .ok _ fs =>
        match readBitmapBlocks header.allocationBitmapLba blockCount
            header.allocationBitmapByteSize driver with
        | .fault => .fault
        | .err reason _ => .err reason fs
        | .ok bitmap driver =>
          .ok () { fs with allocationBitmap := bitmap, disk := driver, isMounted := true }

/-! ## Reading the bitmap -/

/-- The bitmap of `size` bytes that the disk blocks from `lba` on hold. -/
def storedBitmap (block : Nat → Block) (lba size : Nat) : List UInt8 :=
  (List.range size).map fun index =>
    (block (lba + index / kSFSBlockSize)).byte (index % kSFSBlockSize)

@[simp] theorem length_storedBitmap (block : Nat → Block) (lba size : Nat) :
    (storedBitmap block lba size).length = size := by
  simp [storedBitmap]

theorem getD_storedBitmap (block : Nat → Block) (lba : Nat) {size index : Nat}
    (inside : index < size) :
    (storedBitmap block lba size).getD index 0 =
      (block (lba + index / kSFSBlockSize)).byte (index % kSFSBlockSize) := by
  simp [storedBitmap, inside]

theorem ext_getD {left right : List UInt8} (length : left.length = right.length)
    (same : ∀ index, index < left.length → left.getD index 0 = right.getD index 0) :
    left = right := by
  apply List.ext_getElem length
  intro index inLeft inRight
  have bytes := same index inLeft
  rwa [List.getD_eq_getElem _ _ inLeft, List.getD_eq_getElem _ _ inRight] at bytes

/-- The first window of a stored bitmap and the windows behind it. -/
theorem storedBitmap_split (block : Nat → Block) (lba size : Nat) :
    (block lba).slice 0 (min kSFSBlockSize size) ++
        storedBitmap block (lba + 1) (size - min kSFSBlockSize size) =
      storedBitmap block lba size := by
  apply ext_getD
  · simp
  intro index inside
  simp only [List.length_append, Buffer.length_slice, length_storedBitmap] at inside
  have bound : index < size := by omega
  rw [getD_storedBitmap block lba bound]
  by_cases first : index < min kSFSBlockSize size
  · rw [List.getD_append _ _ _ _ (by simpa using first), Buffer.getD_slice _ _ _ first]
    have small : index < 512 := lt_of_lt_of_le first (min_le_left _ _)
    have quotient : index / kSFSBlockSize = 0 := Nat.div_eq_of_lt small
    have remainder : index % kSFSBlockSize = index := Nat.mod_eq_of_lt small
    rw [quotient, remainder, Nat.add_zero, Nat.zero_add]
  · have length : ((block lba).slice 0 (min kSFSBlockSize size)).length = kSFSBlockSize := by
      rw [Buffer.length_slice]
      omega
    rw [List.getD_append_right _ _ _ _ (by omega), length, getD_storedBitmap _ _ (by omega)]
    have quotient : lba + 1 + (index - kSFSBlockSize) / kSFSBlockSize =
        lba + index / kSFSBlockSize := by
      simp only [kSFSBlockSize] at *
      omega
    have remainder : (index - kSFSBlockSize) % kSFSBlockSize = index % kSFSBlockSize := by
      simp only [kSFSBlockSize] at *
      omega
    rw [quotient, remainder]

/-- Mounting reads the stored bitmap, and it fails when a bitmap block does not
lie on the disk. -/
theorem readBitmapBlocks_eq {disk : Disk} (quiet : disk.faults = []) {lba count size : Nat}
    (covers : size ≤ count * kSFSBlockSize) :
    readBitmapBlocks lba count size disk =
      if count = 0 ∨ lba + count ≤ disk.blockCount then .ok (storedBitmap disk.block lba size) disk
      else .err .EIOError disk := by
  induction count generalizing lba size with
  | zero =>
    have empty : size = 0 := by omega
    subst empty
    simp [readBitmapBlocks, storedBitmap]
  | succ count ih =>
    have rest : size - min kSFSBlockSize size ≤ count * kSFSBlockSize := by
      simp only [kSFSBlockSize] at *
      omega
    unfold readBitmapBlocks
    rw [Code.bind_apply, Disk.getBlock_quiet quiet]
    by_cases first : lba < disk.blockCount
    · rw [if_pos first]
      simp only
      rw [Code.bind_apply, ih rest]
      by_cases others : count = 0 ∨ lba + 1 + count ≤ disk.blockCount
      · rw [if_pos others, if_pos (by omega)]
        simp only [Code.pure_apply, storedBitmap_split]
      · rw [if_neg others, if_neg (by omega)]
    · rw [if_neg first, if_neg (by omega)]

/-! ## What a mount leaves behind -/

theorem kalloc_ok {fs after : SerenaFS} (memory : kalloc fs = .ok () after) :
    ∃ heap, after = { fs with heapFaults := heap } := by
  unfold kalloc at memory
  split at memory
  · simp at memory
  · simp only [Outcome.ok.injEq, true_and] at memory
    exact ⟨_, memory.symm⟩

theorem readHeader_ok {driver after : Disk} {header : SFSVolumeHeader}
    (quiet : driver.faults = []) (read : readHeader driver = .ok header after) :
    after = driver ∧ header = decodeHeader (driver.block 0) ∧
      header.blockSize = kSFSBlockSize ∧ 1 ≤ header.allocationBitmapByteSize := by
  unfold readHeader at read
  rw [Code.bind_of_ok (Code.get_apply _)] at read
  split_ifs at read with small wrongSize
  · simp at read
  · simp at read
  rw [Code.bind_apply, Disk.getBlock_quiet quiet] at read
  split_ifs at read with onDisk
  · simp only at read
    split_ifs at read with wrong bad
    · simp at read
    · simp at read
    · obtain ⟨rfl, rfl⟩ := read
      simp only [not_or, not_not, not_lt] at bad
      exact ⟨rfl, rfl, bad.1, bad.2.2⟩

def SFSVolumeHeader.mounted (header : SFSVolumeHeader) (driver : Disk) (before : SerenaFS)
    (heap : List Bool) : SerenaFS :=
  { before with
    disk := driver
    isMounted := true
    rootDirLba := header.rootDirectoryLba
    allocationBitmapLba := header.allocationBitmapLba
    allocationBitmapBlockCount :=
      (header.allocationBitmapByteSize + (kSFSBlockSize - 1)) / kSFSBlockSize
    allocationBitmapByteSize := header.allocationBitmapByteSize
    allocationBitmap :=
      storedBitmap driver.block header.allocationBitmapLba header.allocationBitmapByteSize
    volumeBlockCount := header.volumeBlockCount
    heapFaults := heap }

theorem onMount_ok {driver : Disk} {before fs : SerenaFS} (quiet : driver.faults = [])
    (mounts : onMount driver before = .ok () fs) :
    ∃ header heap, header = decodeHeader (driver.block 0) ∧
      header.allocationBitmapLba +
        (header.allocationBitmapByteSize + (kSFSBlockSize - 1)) / kSFSBlockSize ≤
          driver.blockCount ∧
      fs = header.mounted driver before heap := by
  unfold onMount at mounts
  split_ifs at mounts
  cases read : readHeader driver with
  | fault => simp [read] at mounts
  | err reason after => simp [read] at mounts
  | ok header after =>
    obtain ⟨rfl, decoded, size, positive⟩ := readHeader_ok quiet read
    simp only [read, size] at mounts
    split at mounts
    · simp at mounts
    · simp at mounts
    next memory allocated =>
      obtain ⟨heap, rfl⟩ := kalloc_ok allocated
      have covers : header.allocationBitmapByteSize ≤
          (header.allocationBitmapByteSize + (kSFSBlockSize - 1)) / kSFSBlockSize *
            kSFSBlockSize := by
        simp only [kSFSBlockSize]
        omega
      have nonempty :
          (header.allocationBitmapByteSize + (kSFSBlockSize - 1)) / kSFSBlockSize ≠ 0 := by
        simp only [kSFSBlockSize]
        omega
      rw [readBitmapBlocks_eq quiet covers] at mounts
      split_ifs at mounts with onDisk
      · simp only [Outcome.ok.injEq, true_and] at mounts
        exact ⟨header, heap, decoded, onDisk.resolve_left nonempty, mounts.symm⟩

def formatAndMount (user : User) (permissions : FilePermissions) (curTime : TimeInterval)
    (heapFaults : List Bool) (disk : Disk) : Option SerenaFS :=
  match formatDrive user permissions curTime true disk with
  | .ok _ disk =>
    match onMount disk (created curTime heapFaults) with
    | .ok _ fs => some fs
    | _ => none
  | _ => none

def emptyDisk (blockCount : Nat) : Disk := ⟨kSFSBlockSize, blockCount, fun _ => Buffer.zero, []⟩

/-- A cleared disk of `blockCount` blocks, formatted for the super user with the
permissions `rwxr-xr-x` on the root directory, and mounted. -/
def emptyVolume (blockCount : Nat) : SerenaFS :=
  (formatAndMount ⟨0, 0⟩ 0x1ed ⟨0, 0⟩ [] (emptyDisk blockCount)).getD (created ⟨0, 0⟩ [])

theorem formatAndMount_emptyDisk (blockCount : Nat)
    (mounts : (formatAndMount ⟨0, 0⟩ 0x1ed ⟨0, 0⟩ [] (emptyDisk blockCount)).isSome = true) :
    formatAndMount ⟨0, 0⟩ 0x1ed ⟨0, 0⟩ [] (emptyDisk blockCount) = some (emptyVolume blockCount) := by
  unfold emptyVolume
  obtain ⟨fs, mounted⟩ := Option.isSome_iff_exists.mp mounts
  rw [mounted]
  rfl

end Apollo.Serenafs
