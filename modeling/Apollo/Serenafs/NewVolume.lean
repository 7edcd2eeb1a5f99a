import Apollo.Serenafs.Access
import Apollo.Serenafs.DirectoryTables
import Apollo.Serenafs.FormatSpecs

/-!
# A formatted disk is mounted

`SerenaFS_FormatDrive` counts the blocks that it reserves in 32 bits and marks
them in the first block of the bitmap.
-/

set_option autoImplicit false

namespace Apollo.Serenafs

open Lib

/-! ## What a new volume is -/

/-- The last block that a new volume uses: behind the header and the bitmap come
the inode and the content of the root directory. -/
def lastReservedBlock (blockCount : Nat) : Nat :=
  ((blockCount + 7) / 8 + (kSFSBlockSize - 1)) / kSFSBlockSize + 2

/-- The entry `name` of the directory `dir` is `dir` itself, for every user. -/
def NamesItself (fs : SerenaFS) (dir : InodeRef) (name : PathComponent) : Prop :=
  ∀ user, ∃ after, acquireNodeForName dir name user fs = .ok dir after

/-- A mounted volume on which nothing but the root directory uses a block. -/
structure IsNewVolume (blockCount : Nat) (fs : SerenaFS) : Prop where
  reserved : ∀ lba, lba < blockCount →
    (isBlockInUse fs.allocationBitmap lba = true ↔ lba ≤ lastReservedBlock blockCount)
  root : ∃ root after, acquireRootNode fs = .ok root after ∧
    NamesItself after root kPathComponentSelf ∧ NamesItself after root kPathComponentParent

def MountsNewVolume (disk : Disk) (clock : TimeInterval) (blockCount : Nat) : Prop :=
  ∃ fs, onMount disk (created clock []) = .ok () fs ∧ IsNewVolume blockCount fs

/-! ## Mounting -/

variable {fs : SerenaFS} {driver : Disk} {header : SFSVolumeHeader} {pos : Nat}

theorem kalloc_plenty (plenty : fs.heapFaults = []) : kalloc fs = .ok () fs := by
  cases fs
  subst plenty
  rfl

theorem readHeader_plenty (quiet : driver.faults = [])
    (sectors : driver.blockSize = kSFSBlockSize) (large : kSFSVolumeMinBlockCount ≤ driver.blockCount) (decoded : decodeHeader (driver.block 0) = header)
    (signature : header.signature = kSFSSignatureSerenaFS) (version : header.version = kSFSVersionV01)
    (blockSize : header.blockSize = kSFSBlockSize)
    (volume : kSFSVolumeMinBlockCount ≤ header.volumeBlockCount)
    (positive : 1 ≤ header.allocationBitmapByteSize) :
    readHeader driver = .ok header driver := by
  have onDisk : 0 < driver.blockCount := lt_of_lt_of_le (by decide) large
  have read : Disk.getBlock 0 driver = .ok (driver.block 0) driver := by
    rw [Disk.getBlock_quiet quiet, if_pos onDisk]
  unfold readHeader
  rw [Code.bind_of_ok (Code.get_apply _), if_neg (Nat.not_lt.mpr large), if_neg (not_not.mpr sectors),
    Code.bind_of_ok read]
  simp only [decoded]
  rw [if_neg (by simp [signature, version]),
    if_neg (by omega)]
  rfl

theorem onMount_plenty {before : SerenaFS} (quiet : driver.faults = [])
    (unmounted : before.isMounted = false) (plenty : before.heapFaults = []) (read : readHeader driver = .ok header driver)
    (onDisk : header.allocationBitmapLba +
      (header.allocationBitmapByteSize + (kSFSBlockSize - 1)) / kSFSBlockSize ≤ driver.blockCount) :
    onMount driver before = .ok () (header.mounted driver before []) := by
  obtain ⟨-, -, blockSize, -⟩ := readHeader_ok quiet read
  have covers : header.allocationBitmapByteSize ≤
      (header.allocationBitmapByteSize + (kSFSBlockSize - 1)) / kSFSBlockSize * kSFSBlockSize := by
    simp only [kSFSBlockSize]
    omega
  unfold onMount
  rw [if_neg (by rw [unmounted]; decide), read]
  simp only [blockSize]
  rw [kalloc_plenty (by exact plenty)]
  rw [readBitmapBlocks_eq quiet covers, if_pos (Or.inr onDisk)]
  simp only [SFSVolumeHeader.mounted, plenty]

theorem onMount_checked {before : SerenaFS} (quiet : driver.faults = [])
    (mounts : onMount driver before = .ok () fs) :
    ∃ header, readHeader driver = .ok header driver := by
  unfold onMount at mounts
  split_ifs at mounts
  cases read : readHeader driver with
  | fault => simp [read] at mounts
  | err reason after => simp [read] at mounts
  | ok header after =>
    obtain ⟨rfl, -⟩ := readHeader_ok quiet read
    exact ⟨header, rfl⟩

theorem formatDrive_blockSize {user : User} {permissions : FilePermissions} {curTime : TimeInterval}
    {scratch : Bool} {disk after : Disk}
    (formats : formatDrive user permissions curTime scratch disk = .ok () after) :
    disk.blockSize = kSFSBlockSize ∧ kSFSVolumeMinBlockCount ≤ disk.blockCount ∧ scratch = true ∧
      after.blockSize = kSFSBlockSize := by
  have put : ∀ block lba, Code.Keeps (fun disk : Disk => disk.blockSize = kSFSBlockSize)
      (Disk.putBlock block lba) := by
    intro block lba state sectors
    unfold Disk.putBlock
    split
    · exact sectors
    · simp only
      split_ifs
      · exact sectors
      · exact sectors
  have bitmap : ∀ marks count i allocated, Code.Keeps
      (fun disk : Disk => disk.blockSize = kSFSBlockSize) (writeBitmapBlocks marks count i allocated) := by
    intro marks count
    induction count with
    | zero => exact fun i allocated => Code.keeps_pure ()
    | succ count ih => exact fun i allocated => Code.keeps_bind (put _ _) fun _ => ih _ _
  unfold formatDrive at formats
  rw [Code.bind_of_ok (Code.get_apply _)] at formats
  split_ifs at formats with wrongSize small memory
  · simp at formats
  · simp at formats
  · simp at formats
  rw [not_not] at wrongSize
  refine ⟨wrongSize, Nat.le_of_not_lt small, by simpa using memory, ?_⟩
  have keeps := Code.keeps_bind (put (encodeHeader (formatHeader disk.blockCount) curTime) 0) fun _ =>
    Code.keeps_bind (bitmap (1 + allocBitmapBlockCountFor disk.blockCount + 1 + 1)
      (allocBitmapBlockCountFor disk.blockCount) 0 0) fun _ =>
    Code.keeps_bind (put (encodeInode (rootInode disk.blockCount user permissions curTime))
      (allocBitmapBlockCountFor disk.blockCount + 1)) fun _ =>
    put (rootContent (allocBitmapBlockCountFor disk.blockCount + 1))
      (allocBitmapBlockCountFor disk.blockCount + 2)
  have returned := keeps disk wrongSize
  rw [formats] at returned
  exact returned

/-! ## The root directory -/

def rootSlots (root : Nat) : List (Option DirectoryEntry) :=
  [some ⟨kPathComponentSelf, root⟩, some ⟨kPathComponentParent, root⟩]

theorem holdsSlot_stored {block : Block} {id : Nat} {name : PathComponent}
    (free : HoldsSlot block pos none) (inside : pos < slotsPerBlock) :
    HoldsSlot (block.blit (sizeofSFSDirectoryEntry * pos) (beBytes 4 id ++ name)) pos
      (some ⟨name, id⟩) := by
  intro j small
  simp only [sizeofSFSDirectoryEntry, slotsPerBlock] at small inside
  by_cases stored : j < 4 + name.length
  · rw [Buffer.byte_blit_inside _ _ _ (by rw [List.length_append, length_beBytes]; exact stored)
      (by simp only [sizeofSFSDirectoryEntry]; omega)]
    unfold slotBytes
    by_cases front : j < 4
    · rw [List.getD_append _ _ _ _ (by exact front),
        List.getD_append _ _ _ _ (by exact front)]
    · have behind : (beBytes 4 id).length ≤ j := by
        rw [length_beBytes]
        omega
      rw [List.getD_append_right _ _ _ _ behind, List.getD_append_right _ _ _ _ behind,
        List.getD_append _ _ _ _ (by exact (Nat.sub_lt_left_of_lt_add (by omega) stored))]
  · rw [Buffer.byte_blit_of_ge _ _ _ (by rw [List.length_append, length_beBytes]; omega),
      free j (by simp only [sizeofSFSDirectoryEntry]; omega), getD_slotBytes_none]
    obtain ⟨k, rfl⟩ : ∃ k, j = 4 + k := ⟨j - 4, by omega⟩
    rw [getD_slotBytes_name]
    exact (List.getD_eq_default _ _ (show name.length ≤ k by omega)).symm

theorem rootContent_holds (root : Nat) (inside : pos < slotsPerBlock) :
    HoldsSlot (rootContent root) pos ((rootSlots root).getD pos none) := by
  have self : ValidName kPathComponentSelf := by decide
  have parent : ValidName kPathComponentParent := by decide
  have first : HoldsSlot (Buffer.zero.blit (sizeofSFSDirectoryEntry * 0)
      (beBytes 4 root ++ kPathComponentSelf) : Block) 0 (some ⟨kPathComponentSelf, root⟩) :=
    holdsSlot_stored (holdsSlot_zero 0) (by decide)
  have behind : ∀ other, other ≠ 0 → HoldsSlot (Buffer.zero.blit (sizeofSFSDirectoryEntry * 0)
      (beBytes 4 root ++ kPathComponentSelf) : Block) other none := by
    intro other different
    refine (holdsSlot_zero other).blit_apart different (le_refl _) ?_
    rw [List.length_append, length_beBytes]
    decide
  have width : sizeofSFSDirectoryEntry * 1 + (beBytes 4 root ++ kPathComponentParent).length ≤
      sizeofSFSDirectoryEntry * 1 + sizeofSFSDirectoryEntry := by
    rw [List.length_append, length_beBytes]
    decide
  match pos with
  | 0 => exact first.blit_apart (by decide) (le_refl _) width
  | 1 => exact holdsSlot_stored (behind 1 (by decide)) inside
  | pos + 2 =>
    exact (behind (pos + 2) (by omega)).blit_apart (by omega) (le_refl _) width

section Root
variable {user : User} {permissions : FilePermissions} {blockCount : Nat} {fs : SerenaFS}

theorem mem_rootSlots {root : Nat} {entry : DirectoryEntry} (member : some entry ∈ rootSlots root) :
    ValidName entry.name ∧ entry.id = root := by
  simp only [rootSlots, List.mem_cons, Option.some.injEq, List.not_mem_nil, or_false] at member
  obtain rfl | rfl := member
  · exact ⟨show ValidName kPathComponentSelf by decide, rfl⟩
  · exact ⟨show ValidName kPathComponentParent by decide, rfl⟩

theorem Fresh.lists (fresh : Fresh user permissions blockCount fs)
    (small : blockCount ≤ maxFormattedBlockCount) :
    Lists fs.disk.block (rootView blockCount user permissions).size
      (rootView blockCount user permissions).blockMap (rootSlots fs.rootDirLba) := by
  have root := fresh.root
  have fits := fresh.fits
  unfold maxFormattedBlockCount at small
  have room : 2 ≤ slotsPerBlock * kSFSMaxDirectDataBlockPointers := by decide
  refine ⟨rfl, room, fun index => ?_, fun index present pos inside => ?_, fun entry member => ?_⟩
  · rw [rootView_blockMap]
    change _ ↔ slotsPerBlock * index.val < 2
    constructor
    · intro present
      by_cases first : index = ⟨0, by decide⟩
      · rw [first]
        decide
      · rw [if_neg first] at present
        exact absurd rfl present
    · intro low
      have first : index = ⟨0, by decide⟩ := by
        apply Fin.ext
        change index.val = 0
        simp only [slotsPerBlock] at low
        omega
      rw [if_pos first]
      omega
  · rw [rootView_blockMap] at present ⊢
    by_cases first : index = ⟨0, by decide⟩
    · rw [if_pos first, fresh.rootBlock, first, root]
      change HoldsSlot _ pos ((rootSlots _).getD (0 + pos) none)
      rw [Nat.zero_add]
      exact rootContent_holds _ inside
    · rw [if_neg first] at present
      exact absurd rfl present
  · obtain ⟨valid, id⟩ := mem_rootSlots member
    exact ⟨valid.storable, by omega, by omega⟩

/-- The node `id` is in use already, and there is one more reference to it. -/
theorem acquireNodeWithId_held (table : fs.Table) {ref : InodeRef} {value : Inode}
    (core : fs.Core ref value) :
    acquireNodeWithId value.inid fs = .ok ref (fs.setNode ref (some (reacquired value))) := by
  unfold acquireNodeWithId
  rw [Code.bind_of_ok (Code.get_apply _)]
  cases search : fs.inodesInUse.find? (fs.hasId value.inid) with
  | none => exact absurd rfl (find_hasId_none search ref value core)
  | some found =>
    obtain ⟨other, core', inid⟩ := find_hasId_some table search
    obtain ⟨rfl, rfl⟩ := table.eq_of_inid core' core inid
    exact reacquireNode_core core

theorem acquireNodeWithId_read (hardware : fs.Hardware) (plenty : fs.heapFaults = []) {id : Nat}
    (unused : fs.inodesInUse = []) (onDisk : id < fs.disk.blockCount) :
    acquireNodeWithId id fs = .ok fs.nextRef (fs.install (readInode fs id)) := by
  have plenty' : (fs.orphan (inodeOfDisk id (decodeInode (fs.disk.block id)))).heapFaults = [] := plenty
  have block : getBlock id fs = .ok (fs.disk.block id) fs := by
    rw [getBlock_quiet hardware.quiet, if_pos onDisk]
  have read : onReadNodeFromDisk id fs =
      .ok fs.nextRef (fs.orphan (inodeOfDisk id (decodeInode (fs.disk.block id)))) := by
    unfold onReadNodeFromDisk inodeCreate
    rw [Code.bind_of_ok (kalloc_plenty plenty), Code.bind_of_ok block,
      Code.bind_of_ok (kalloc_plenty plenty)]
    rfl
  unfold acquireNodeWithId addToInodesInUse
  rw [Code.bind_of_ok (Code.get_apply _), unused]
  simp only [List.find?_nil]
  rw [Code.bind_of_ok read, Code.bind_assoc, Code.bind_of_ok (kalloc_plenty plenty'),
    Code.bind_of_ok (Code.modify_apply _ _), reacquireNode_core ⟨List.mem_append_right _ List.mem_cons_self, Function.update_self _ _ _⟩]
  exact congrArg (Outcome.ok fs.nextRef) (install_eq fs.heapFaults _ _)

/-- A directory whose table starts with ".", ".." and has no free slot is found
under both names. -/
theorem namesItself {dir : InodeRef} {value : Inode} (consistent : fs.Consistent True none [])
    (core : fs.Core dir value)
    (lists : Lists fs.disk.block value.size value.blockMap (rootSlots value.inid))
    {name : PathComponent} (itself : name = kPathComponentSelf ∨ name = kPathComponentParent) :
    NamesItself fs dir name := by
  have proper : ValidName name := by
    obtain rfl | rfl := itself
    · decide
    · decide
  have lookup : ∃ pointer, getDirectoryEntry dir (.pathComponent name) false fs =
      .ok ⟨.null, some ⟨pointer, value.inid, name⟩⟩ fs := by
    have comparable : SFSDirectoryQuery.Comparable (.pathComponent name) (rootSlots value.inid) :=
      ⟨proper, fun entry member => (mem_rootSlots member).1⟩
    rw [getDirectoryEntry_lists consistent core lists comparable]
    obtain rfl | rfl := itself
    · exact ⟨_, rfl⟩
    · exact ⟨_, rfl⟩
  obtain ⟨pointer, lookup⟩ := lookup
  intro user
  have granted : requireAccess dir user kFilePermissionExecute fs = .ok () fs := by
    rw [requireAccess_eq core.stored, if_neg (by rintro ⟨same, -⟩; exact absurd same (by decide))]
  unfold acquireNodeForName
  rw [Code.bind_of_ok granted, Code.bind_of_ok lookup]
  exact ⟨_, acquireNodeWithId_held consistent.table core⟩

theorem Fresh.isNewVolume (fresh : Fresh user permissions blockCount fs)
    (small : blockCount ≤ maxFormattedBlockCount) (plenty : fs.heapFaults = []) :
    IsNewVolume blockCount fs where
  reserved := by
    intro lba _
    obtain ⟨-, blocks⟩ := allocBitmapBlockCountFor_eq small
    rw [fresh.marked, blocks]
    unfold lastReservedBlock kSFSBlockSize
    omega
  root := by
    have consistent := fresh.consistent small
    have has : fs.hasNode fs.rootDirLba = true := (fresh.hasNode_iff _).mpr rfl
    have onDisk : fs.rootDirLba < fs.disk.blockCount := by
      have fits := fresh.fits
      rw [fresh.root, fresh.size]
      omega
    have read := acquireNodeWithId_read consistent.hardware plenty fresh.unused onDisk
    have acquired : Acquired fs fs.rootDirLba fs.nextRef
        (fs.install (readInode fs fs.rootDirLba)) := .read fs.heapFaults (fresh.absent _)
    have consistent' := consistent.acquired has acquired
    have core : (fs.install (readInode fs fs.rootDirLba)).Core fs.nextRef
        (readInode fs fs.rootDirLba) := (core_install consistent.table _ _).mpr (Or.inr ⟨rfl, rfl⟩)
    have size : (readInode fs fs.rootDirLba).size = (rootView blockCount user permissions).size :=
      congrArg NodeView.size fresh.rootNode
    have map : (readInode fs fs.rootDirLba).blockMap = (rootView blockCount user permissions).blockMap :=
      congrArg NodeView.blockMap fresh.rootNode
    have lists := fresh.lists small
    rw [← size, ← map] at lists
    refine ⟨fs.nextRef, _, ?_, namesItself consistent' core lists (Or.inl rfl),
      namesItself consistent' core lists (Or.inr rfl)⟩
    exact read

end Root

/-! ## Formatting and mounting -/

section Formatted
variable {user : User} {permissions : FilePermissions} {curTime : TimeInterval}
variable {blockCount : Nat} {disk : Disk}

theorem Formatted.mountsNewVolume (formatted : Formatted user permissions curTime blockCount disk)
    (sectors : disk.blockSize = kSFSBlockSize) (large : kSFSVolumeMinBlockCount ≤ blockCount)
    (small : blockCount ≤ maxFormattedBlockCount) (clock : TimeInterval) :
    MountsNewVolume disk clock blockCount := by
  have addressable : blockCount < 4294967296 := by
    unfold maxFormattedBlockCount at small
    omega
  have decoded : decodeHeader (disk.block 0) = formatHeader blockCount := by
    rw [formatted.header, decodeHeader_encodeHeader _ _ (formatHeader_storable addressable)]
  have positive : 1 ≤ allocationBitmapByteSizeFor blockCount := by
    rw [(allocBitmapBlockCountFor_eq small).1]
    simp only [kSFSVolumeMinBlockCount] at large
    omega
  have read := readHeader_plenty formatted.quiet sectors (formatted.size ▸ large) decoded rfl rfl rfl
    large positive
  have onDisk : 1 + allocBitmapBlockCountFor blockCount ≤ disk.blockCount := by
    have fits := formatted.fits
    rw [formatted.size]
    omega
  have mounts : onMount disk (created clock []) = _ :=
    onMount_plenty formatted.quiet rfl rfl read onDisk
  exact ⟨_, mounts, (formatted.fresh small mounts).isNewVolume small rfl⟩

/-- With more blocks the bitmap is found empty, or the mark of a reserved block
is missing. -/
theorem Formatted.not_mountsNewVolume (formatted : Formatted user permissions curTime blockCount disk)
    (addressable : blockCount < 4294967296) (large : maxFormattedBlockCount < blockCount)
    (clock : TimeInterval) : ¬ MountsNewVolume disk clock blockCount := by
  rintro ⟨fs, mounts, new⟩
  have decoded : decodeHeader (disk.block 0) = formatHeader blockCount := by
    rw [formatted.header, decodeHeader_encodeHeader _ _ (formatHeader_storable addressable)]
  unfold maxFormattedBlockCount at large
  by_cases wraps : 4294967296 ≤ blockCount + 7
  · -- the byte size of the bitmap is 0
    obtain ⟨header, read⟩ := onMount_checked formatted.quiet mounts
    obtain ⟨-, header_eq, -, positive⟩ := readHeader_ok formatted.quiet read
    rw [decoded] at header_eq
    subst header_eq
    change 1 ≤ allocationBitmapByteSizeFor blockCount at positive
    unfold allocationBitmapByteSizeFor at positive
    omega
  have bytes : allocationBitmapByteSizeFor blockCount = (blockCount + 7) / 8 := by
    unfold allocationBitmapByteSizeFor
    rw [Nat.mod_eq_of_lt (by omega)]
  obtain ⟨header, heap, header_eq, onDisk, rfl⟩ := onMount_ok formatted.quiet mounts
  rw [decoded] at header_eq
  subst header_eq
  -- block 4096 is the first one whose mark lies in the second bitmap block
  have marked := (new.reserved 4096 (by omega)).mpr (by
    unfold lastReservedBlock kSFSBlockSize
    omega)
  change isBlockInUse (storedBitmap disk.block 1 (allocationBitmapByteSizeFor blockCount)) 4096 = true
    at marked
  have second : disk.block (1 + 1) = formattedBitmapBlock 0 := by
    rw [formatted.bitmap 1 (by
      unfold allocBitmapBlockCountFor kSFSBlockSize
      omega)]
    rfl
  rw [isBlockInUse_eq, getD_storedBitmap _ _ (by omega)] at marked
  change ((disk.block (1 + 1)).byte (4096 / 8 % kSFSBlockSize)).toBitVec.getLsbD (7 - 4096 % 8) = true
    at marked
  rw [second, isBlockInUse_formattedBitmapBlock (by decide)] at marked
  omega

end Formatted

/-- A formatted disk is mounted as a new volume exactly when the marks of the
reserved blocks fit into one bitmap block. -/
theorem formatDrive_mounts_iff {user : User} {permissions : FilePermissions}
    {curTime clock : TimeInterval} {scratch : Bool} {disk after : Disk} (quiet : disk.faults = [])
    (addressable : disk.blockCount < 4294967296)
    (formats : formatDrive user permissions curTime scratch disk = .ok () after) :
    MountsNewVolume after clock disk.blockCount ↔ disk.blockCount ≤ maxFormattedBlockCount := by
  obtain ⟨-, large, rfl, sectors⟩ := formatDrive_blockSize formats
  have formatted := formatDrive_ok quiet formats
  constructor
  · intro mounts
    by_contra more
    exact formatted.not_mountsNewVolume addressable (by omega) clock mounts
  · exact fun small => formatted.mountsNewVolume sectors large small clock

/-- What the formatter leaves on a cleared disk of `blockCount` blocks. -/
def formattedDisk (blockCount : Nat) : Disk :=
  ((formatDrive ⟨0, 0⟩ 0x1ed ⟨0, 0⟩ true (emptyDisk blockCount)).state?).getD (emptyDisk blockCount)

theorem formattedDisk_mounts : MountsNewVolume (formattedDisk 64) ⟨0, 0⟩ 64 := by
  have formats : formatDrive ⟨0, 0⟩ 0x1ed ⟨0, 0⟩ true (emptyDisk 64) = .ok () (formattedDisk 64) :=
    Outcome.eq_ok (by decide +kernel) _
  exact (formatDrive_mounts_iff rfl (by decide) formats).mpr (by decide)

theorem putBlock_inside {disk : Disk} (quiet : disk.faults = []) (block : Block) {lba : Nat}
    (bound : lba < disk.blockCount) : Disk.putBlock block lba disk = .ok () (disk.write lba block) := by
  rw [Disk.putBlock_quiet quiet, if_pos bound]
  rfl

theorem writeBitmapBlocks_inside {marks count i allocated : Nat} {disk : Disk}
    (quiet : disk.faults = []) (bound : 1 + i + count ≤ disk.blockCount) :
    ∃ after, writeBitmapBlocks marks count i allocated disk = .ok () after ∧ after.faults = [] ∧
      after.blockCount = disk.blockCount := by
  induction count generalizing i allocated disk with
  | zero => exact ⟨disk, rfl, quiet, rfl⟩
  | succ count ih =>
    unfold writeBitmapBlocks
    rw [Code.bind_of_ok (putBlock_inside quiet _ (by omega))]
    exact ih (Disk.write_faults quiet _ _) (show _ ≤ disk.blockCount by omega)

theorem formatDrive_inside {user : User} {permissions : FilePermissions} {curTime : TimeInterval}
    {disk : Disk} (quiet : disk.faults = []) (sectors : disk.blockSize = kSFSBlockSize)
    (large : kSFSVolumeMinBlockCount ≤ disk.blockCount)
    (fits : allocBitmapBlockCountFor disk.blockCount + 2 < disk.blockCount) :
    ∃ after, formatDrive user permissions curTime true disk = .ok () after := by
  unfold formatDrive
  rw [Code.bind_of_ok (Code.get_apply _), if_neg (not_not.mpr sectors),
    if_neg (Nat.not_lt.mpr large), if_neg (by decide),
    Code.bind_of_ok (putBlock_inside quiet _ (by omega))]
  have headed := Disk.write_faults quiet 0 (encodeHeader (formatHeader disk.blockCount) curTime)
  have room : 1 + 0 + allocBitmapBlockCountFor disk.blockCount ≤
      (disk.write 0 (encodeHeader (formatHeader disk.blockCount) curTime)).blockCount := by
    change _ ≤ disk.blockCount
    omega
  obtain ⟨marked, bitmap, quiet', size⟩ := writeBitmapBlocks_inside headed room
  change marked.blockCount = disk.blockCount at size
  rw [Code.bind_of_ok bitmap, Code.bind_of_ok (putBlock_inside quiet' _ (by omega))]
  exact ⟨_, putBlock_inside (Disk.write_faults quiet' _ _) _ (show _ < marked.blockCount by omega)⟩

/-- The smallest disk whose root directory is found on a free block: its content
is in block 4096. -/
theorem largeDisk_not_mounts :
    ¬ ∀ (disk after : Disk) (user : User) (permissions : FilePermissions)
      (curTime clock : TimeInterval) (scratch : Bool), disk.faults = [] →
      disk.blockSize = kSFSBlockSize → 4 ≤ disk.blockCount → disk.blockCount < 4294967296 →
      formatDrive user permissions curTime scratch disk = .ok () after →
      MountsNewVolume after clock disk.blockCount := by
  intro claim
  obtain ⟨after, formats⟩ : ∃ after,
      formatDrive ⟨0, 0⟩ 0x1ed ⟨0, 0⟩ true (emptyDisk 16764929) = .ok () after :=
    formatDrive_inside rfl rfl (by decide) (by decide)
  have formatted := formatDrive_ok rfl formats
  exact formatted.not_mountsNewVolume (by decide) (by decide) ⟨0, 0⟩
    (claim _ _ _ _ _ _ _ rfl rfl (by decide) (by decide) formats)

end Apollo.Serenafs
