import Apollo.Serenafs.NodeSpecs

/-!
# What a new volume looks like

A disk that was formatted and mounted holds one node, the root directory, and
its allocation bitmap marks the system blocks and the two blocks of the root
directory.  The formatter marks blocks in the first bitmap block only, which is
why the system blocks have to fit there.
-/

set_option autoImplicit false

namespace Apollo.Serenafs

open Lib

/-- The largest volume whose system blocks are all marked by the formatter. -/
def maxFormattedBlockCount : Nat := 16764928

/-! ## The bitmap blocks -/

theorem isBlockInUse_markBlocksInUse {count start : Nat} {bitmap : List UInt8}
    (inside : start + count ≤ 8 * bitmap.length) (lba : Nat) :
    isBlockInUse (markBlocksInUse count start bitmap) lba = true ↔
      (start ≤ lba ∧ lba < start + count) ∨ isBlockInUse bitmap lba = true := by
  induction count generalizing start bitmap with
  | zero =>
    constructor
    · exact Or.inr
    · rintro (⟨low, high⟩ | marked)
      · omega
      · exact marked
  | succ count ih =>
    unfold markBlocksInUse
    rw [ih (by rw [length_setBlockInUse]; omega),
      isBlockInUse_setBlockInUse bitmap lba true (by omega)]
    split_ifs with first
    · simp only [or_true, true_iff]
      omega
    · constructor
      · rintro (⟨low, high⟩ | marked)
        · omega
        · exact Or.inr marked
      · rintro (⟨low, high⟩ | marked)
        · omega
        · exact Or.inr marked

theorem isBlockInUse_replicate (count lba : Nat) :
    isBlockInUse (List.replicate count 0) lba = false := by
  rw [isBlockInUse_eq, getD_replicate_zero]
  simp

/-- The bitmap block that the formatter writes when `marks` blocks are left to be
marked. -/
def formattedBitmapBlock (marks : Nat) : Block :=
  Buffer.ofList (markBlocksInUse marks 0 (List.replicate kSFSBlockSize 0))

def Disk.write (disk : Disk) (lba : Nat) (block : Block) : Disk :=
  { disk with block := Function.update disk.block lba block }

theorem Disk.write_faults {disk : Disk} (quiet : disk.faults = []) (lba : Nat) (block : Block) :
    (disk.write lba block).faults = [] := quiet

theorem Disk.write_of_ne (disk : Disk) {lba other : Nat} (different : other ≠ lba) (block : Block) :
    (disk.write lba block).block other = disk.block other := Function.update_of_ne different _ _

@[simp] theorem Disk.write_self (disk : Disk) (lba : Nat) (block : Block) :
    (disk.write lba block).block lba = block := Function.update_self _ _ _

theorem putBlock_ok {disk after : Disk} (quiet : disk.faults = []) {block : Block} {lba : Nat}
    (written : Disk.putBlock block lba disk = .ok () after) :
    lba < disk.blockCount ∧ after = disk.write lba block := by
  rw [Disk.putBlock_quiet quiet] at written
  split_ifs at written with bound
  simp only [Outcome.ok.injEq, true_and] at written
  exact ⟨bound, written.symm⟩

theorem writeBitmapBlocks_rest {nBlocks count i : Nat} {disk after : Disk} (quiet : disk.faults = [])
    (written : writeBitmapBlocks nBlocks count i (min nBlocks (kSFSBlockSize * 8)) disk =
      .ok () after) :
    after.faults = [] ∧ after.blockCount = disk.blockCount ∧
      (∀ j, i ≤ j → j < i + count → after.block (1 + j) = formattedBitmapBlock 0) ∧
      ∀ lba, (lba < 1 + i ∨ 1 + i + count ≤ lba) → after.block lba = disk.block lba := by
  induction count generalizing i disk with
  | zero =>
    simp only [writeBitmapBlocks, Code.pure_apply, Outcome.ok.injEq, true_and] at written
    subst written
    exact ⟨quiet, rfl, by omega, fun _ _ => rfl⟩
  | succ count ih =>
    obtain ⟨result, middle, first, rest⟩ := Code.bind_eq_ok.mp written
    obtain ⟨bound, rfl⟩ := putBlock_ok quiet first
    simp only [max_self, Nat.sub_self] at rest
    obtain ⟨quiet', size, cleared, others⟩ := ih (Disk.write_faults quiet _ _) rest
    refine ⟨quiet', size, ?_, ?_⟩
    · intro j low high
      by_cases same : j = i
      · subst same
        rw [others _ (by omega), Disk.write_self]
        rfl
      · exact cleared j (by omega) (by omega)
    · intro lba outside
      rw [others lba (by omega)]
      exact Disk.write_of_ne _ (by omega) _

theorem writeBitmapBlocks_ok {nBlocks count : Nat} {disk after : Disk} (quiet : disk.faults = [])
    (written : writeBitmapBlocks nBlocks count 0 0 disk = .ok () after) :
    after.faults = [] ∧ after.blockCount = disk.blockCount ∧
      (∀ j, j < count → after.block (1 + j) =
        formattedBitmapBlock (if j = 0 then min nBlocks (kSFSBlockSize * 8) else 0)) ∧
      ∀ lba, (lba < 1 ∨ 1 + count ≤ lba) → after.block lba = disk.block lba := by
  cases count with
  | zero =>
    simp only [writeBitmapBlocks, Code.pure_apply, Outcome.ok.injEq, true_and] at written
    subst written
    exact ⟨quiet, rfl, by omega, fun _ _ => rfl⟩
  | succ count =>
    obtain ⟨result, middle, first, rest⟩ := Code.bind_eq_ok.mp written
    obtain ⟨bound, rfl⟩ := putBlock_ok quiet first
    obtain ⟨quiet', size, cleared, others⟩ :=
      writeBitmapBlocks_rest (Disk.write_faults quiet _ _) rest
    refine ⟨quiet', size, ?_, ?_⟩
    · intro j high
      by_cases same : j = 0
      · subst same
        rw [others _ (by omega), if_pos rfl, Disk.write_self, Nat.sub_zero]
        rfl
      · rw [if_neg same]
        exact cleared j (by omega) (by omega)
    · intro lba outside
      rw [others lba (by omega)]
      exact Disk.write_of_ne _ (by omega) _

/-! ## The formatted disk -/

/-- What `SerenaFS_FormatDrive` leaves on a disk of `blockCount` blocks. -/
structure Formatted (user : User) (permissions : FilePermissions) (curTime : TimeInterval)
    (blockCount : Nat) (disk : Disk) : Prop where
  quiet : disk.faults = []
  size : disk.blockCount = blockCount
  fits : allocBitmapBlockCountFor blockCount + 2 < blockCount
  header : disk.block 0 = encodeHeader (formatHeader blockCount) curTime
  bitmap : ∀ index, index < allocBitmapBlockCountFor blockCount → disk.block (1 + index) =
    formattedBitmapBlock (if index = 0 then
      min (allocBitmapBlockCountFor blockCount + 3) (kSFSBlockSize * 8) else 0)
  rootInode : disk.block (allocBitmapBlockCountFor blockCount + 1) =
    encodeInode (rootInode blockCount user permissions curTime)
  rootContent : disk.block (allocBitmapBlockCountFor blockCount + 2) =
    rootContent (allocBitmapBlockCountFor blockCount + 1)

theorem formatDrive_ok {user : User} {permissions : FilePermissions} {curTime : TimeInterval}
    {disk after : Disk} (quiet : disk.faults = [])
    (formats : formatDrive user permissions curTime true disk = .ok () after) :
    Formatted user permissions curTime disk.blockCount after := by
  unfold formatDrive at formats
  rw [Code.bind_of_ok (Code.get_apply _)] at formats
  split_ifs at formats with wrongSize small
  · simp at formats
  · simp at formats
  · simp at formats
  obtain ⟨_, afterHeader, header, formats⟩ := Code.bind_eq_ok.mp formats
  obtain ⟨_, afterBitmap, bitmap, formats⟩ := Code.bind_eq_ok.mp formats
  obtain ⟨_, afterInode, inode, content⟩ := Code.bind_eq_ok.mp formats
  obtain ⟨-, rfl⟩ := putBlock_ok quiet header
  obtain ⟨quiet', size, blocks, others⟩ := writeBitmapBlocks_ok (Disk.write_faults quiet _ _) bitmap
  obtain ⟨-, rfl⟩ := putBlock_ok quiet' inode
  obtain ⟨bound, rfl⟩ := putBlock_ok (Disk.write_faults quiet' _ _) content
  change afterBitmap.blockCount = disk.blockCount at size
  change _ < afterBitmap.blockCount at bound
  refine ⟨quiet', size, by omega, ?_, ?_, ?_, ?_⟩
  · rw [Disk.write_of_ne _ (by omega), Disk.write_of_ne _ (by omega), others 0 (by omega),
      Disk.write_self]
  · intro index inside
    rw [Disk.write_of_ne _ (by omega), Disk.write_of_ne _ (by omega), blocks index inside,
      show 1 + allocBitmapBlockCountFor disk.blockCount + 1 + 1 =
        allocBitmapBlockCountFor disk.blockCount + 3 by omega]
  · rw [Disk.write_of_ne _ (by omega), Disk.write_self]
  · rw [Disk.write_self]

/-! ## The mounted volume -/

section Mounted
variable {user : User} {permissions : FilePermissions} {curTime : TimeInterval}
variable {blockCount : Nat} {disk : Disk}

theorem allocBitmapBlockCountFor_eq (small : blockCount ≤ maxFormattedBlockCount) :
    allocationBitmapByteSizeFor blockCount = (blockCount + 7) / 8 ∧
      allocBitmapBlockCountFor blockCount = ((blockCount + 7) / 8 + 511) / 512 := by
  have bytes : allocationBitmapByteSizeFor blockCount = (blockCount + 7) / 8 := by
    unfold allocationBitmapByteSizeFor maxFormattedBlockCount at *
    rw [Nat.mod_eq_of_lt (by omega)]
  refine ⟨bytes, ?_⟩
  unfold allocBitmapBlockCountFor
  rw [bytes]
  rfl

theorem allocationBitmapByteSizeFor_le (blockCount : Nat) :
    allocationBitmapByteSizeFor blockCount ≤ 536870911 ∧
      allocBitmapBlockCountFor blockCount ≤ 1048576 := by
  unfold allocBitmapBlockCountFor allocationBitmapByteSizeFor kSFSBlockSize
  omega

theorem formatHeader_storable (addressable : blockCount < 4294967296) :
    (formatHeader blockCount).Storable := by
  obtain ⟨bytes, blocks⟩ := allocationBitmapByteSizeFor_le blockCount
  constructor
  · show kSFSSignatureSerenaFS < _
    decide
  · show kSFSVersionV01 < _
    decide
  · show kSFSBlockSize < _
    decide
  · exact addressable
  · change allocationBitmapByteSizeFor blockCount < _
    omega
  · change allocBitmapBlockCountFor blockCount + 1 < _
    omega
  · show 1 < _
    decide

theorem isBlockInUse_formattedBitmapBlock {marks : Nat} (fits : marks ≤ 4096) (lba : Nat) :
    ((formattedBitmapBlock marks).byte (lba / 8 % kSFSBlockSize)).toBitVec.getLsbD (7 - lba % 8) =
      true ↔ lba % 4096 < marks := by
  have inside : lba / 8 % kSFSBlockSize < 512 := Nat.mod_lt _ (by decide)
  have byte : lba % 4096 / 8 = lba / 8 % kSFSBlockSize := by
    simp only [kSFSBlockSize]
    omega
  have bit : lba % 4096 % 8 = lba % 8 := by omega
  unfold formattedBitmapBlock
  rw [Buffer.byte_ofList _ inside, ← byte, ← bit, ← isBlockInUse_eq,
    isBlockInUse_markBlocksInUse (by rw [List.length_replicate, Nat.zero_add]; exact fits),
    isBlockInUse_replicate]
  simp

/-- The bitmap of a new volume marks the first blocks up to the content of the
root directory. -/
theorem Formatted.isBlockInUse_iff (formatted : Formatted user permissions curTime blockCount disk)
    (small : blockCount ≤ maxFormattedBlockCount) (lba : Nat) :
    isBlockInUse (storedBitmap disk.block 1 (allocationBitmapByteSizeFor blockCount)) lba = true ↔
      lba < allocBitmapBlockCountFor blockCount + 3 := by
  obtain ⟨bytes, blocks⟩ := allocBitmapBlockCountFor_eq small
  have fits := formatted.fits
  unfold maxFormattedBlockCount at small
  by_cases inside : lba / 8 < allocationBitmapByteSizeFor blockCount
  · rw [isBlockInUse_eq, getD_storedBitmap _ _ inside, formatted.bitmap _ (by
      simp only [kSFSBlockSize]
      omega)]
    by_cases first : lba / 8 / kSFSBlockSize = 0
    · have low : lba < 4096 := by
        simp only [kSFSBlockSize] at first
        omega
      rw [if_pos first, isBlockInUse_formattedBitmapBlock (by simp [kSFSBlockSize]),
        Nat.mod_eq_of_lt low]
      simp only [kSFSBlockSize]
      omega
    · have high : 4096 ≤ lba := by
        simp only [kSFSBlockSize] at first
        omega
      rw [if_neg first, isBlockInUse_formattedBitmapBlock (by omega)]
      omega
  · have unmarked : isBlockInUse (storedBitmap disk.block 1 (allocationBitmapByteSizeFor blockCount))
        lba = false := by
      rw [isBlockInUse_eq, List.getD_eq_default _ _ (by rw [length_storedBitmap]; omega)]
      simp
    rw [unmarked]
    simp only [Bool.false_eq_true, false_iff, not_lt]
    omega

def rootView (blockCount : Nat) (user : User) (permissions : FilePermissions) : NodeView :=
  (rootInode blockCount user permissions ⟨0, 0⟩).view

theorem Formatted.root_view (formatted : Formatted user permissions curTime blockCount disk)
    (small : blockCount ≤ maxFormattedBlockCount) :
    (decodeInode (disk.block (allocBitmapBlockCountFor blockCount + 1))).view =
      rootView blockCount user permissions := by
  obtain ⟨-, blocks⟩ := allocBitmapBlockCountFor_eq small
  unfold maxFormattedBlockCount at small
  rw [formatted.rootInode, view_decodeInode_encodeInode]
  unfold NodeView.stored
  have map : (fun index => (Serenafs.rootInode blockCount user permissions curTime).view.blockMap index %
      4294967296) = (Serenafs.rootInode blockCount user permissions curTime).view.blockMap := by
    funext index
    refine Nat.mod_eq_of_lt ?_
    change Function.update BlockMap.empty _ (allocBitmapBlockCountFor blockCount + 2) index < _
    by_cases first : index = ⟨0, by decide⟩
    · rw [first, Function.update_self]
      omega
    · rw [Function.update_of_ne first]
      exact Nat.zero_lt_succ _
  rw [map]
  rfl

structure Fresh (user : User) (permissions : FilePermissions) (blockCount : Nat) (fs : SerenaFS) :
    Prop where
  unused : fs.inodesInUse = []
  empty : ∀ ref, fs.inode ref = none
  unlogged : fs.nodeLog = []
  quiet : fs.disk.faults = []
  size : fs.disk.blockCount = blockCount
  volume : fs.volumeBlockCount = blockCount
  root : fs.rootDirLba = allocBitmapBlockCountFor blockCount + 1
  bitmapLba : fs.allocationBitmapLba = 1
  bitmapBlocks : fs.allocationBitmapBlockCount = allocBitmapBlockCountFor blockCount
  geometry : fs.Geometry
  fits : allocBitmapBlockCountFor blockCount + 2 < blockCount
  marked : ∀ lba, isBlockInUse fs.allocationBitmap lba = true ↔
    lba < allocBitmapBlockCountFor blockCount + 3
  rootNode : (decodeInode (fs.disk.block fs.rootDirLba)).view = rootView blockCount user permissions
  rootBlock : fs.disk.block (allocBitmapBlockCountFor blockCount + 2) =
    rootContent (allocBitmapBlockCountFor blockCount + 1)

theorem Formatted.fresh {clock : TimeInterval} {heapFaults : List Bool} {fs : SerenaFS}
    (formatted : Formatted user permissions curTime blockCount disk)
    (small : blockCount ≤ maxFormattedBlockCount)
    (mounts : onMount disk (created clock heapFaults) = .ok () fs) :
    Fresh user permissions blockCount fs := by
  have addressable : blockCount < 4294967296 := by
    unfold maxFormattedBlockCount at small
    omega
  obtain ⟨header, heap, decoded, onDisk, rfl⟩ := onMount_ok formatted.quiet mounts
  rw [formatted.header, decodeHeader_encodeHeader _ _ (formatHeader_storable addressable)] at decoded
  subst decoded
  refine ⟨rfl, fun _ => rfl, rfl, formatted.quiet, formatted.size, rfl, rfl, rfl, rfl,
    ⟨?_, rfl, onDisk⟩, formatted.fits, formatted.isBlockInUse_iff small,
    formatted.root_view small, formatted.rootContent⟩
  exact length_storedBitmap _ _ _

theorem fresh_formatAndMount {heapFaults : List Bool} {fs : SerenaFS} (quiet : disk.faults = [])
    (small : disk.blockCount ≤ maxFormattedBlockCount)
    (mounts : formatAndMount user permissions curTime heapFaults disk = some fs) :
    Fresh user permissions disk.blockCount fs := by
  unfold formatAndMount at mounts
  cases formats : formatDrive user permissions curTime true disk with
  | fault => simp [formats] at mounts
  | err reason after => simp [formats] at mounts
  | ok result driver =>
    have formatted := formatDrive_ok quiet formats
    cases mount : onMount driver (created curTime heapFaults) with
    | fault => simp [formats, mount] at mounts
    | err reason after => simp [formats, mount] at mounts
    | ok result' after =>
      simp only [formats, mount, Option.some.injEq] at mounts
      rw [← mounts]
      exact formatted.fresh small mount

end Mounted

section Fresh
variable {user : User} {permissions : FilePermissions} {blockCount : Nat} {fs : SerenaFS}

theorem Fresh.not_core (fresh : Fresh user permissions blockCount fs) {ref : InodeRef} {value : Inode}
    (core : fs.Core ref value) : False := by
  have inUse := core.inUse
  rw [fresh.unused] at inUse
  simp at inUse

theorem Fresh.absent (fresh : Fresh user permissions blockCount fs) (id : Nat) : fs.Absent id :=
  fun _ _ core => (fresh.not_core core).elim

theorem Fresh.hasNode_iff (fresh : Fresh user permissions blockCount fs) (id : Nat) :
    fs.hasNode id = true ↔ id = fs.rootDirLba := by
  unfold SerenaFS.hasNode
  rw [fresh.unlogged]
  simp [aliveIn]

theorem Fresh.isNode_iff (fresh : Fresh user permissions blockCount fs) (id : Nat) (view : NodeView) :
    fs.IsNode id view ↔ id = fs.rootDirLba ∧ view = rootView blockCount user permissions := by
  constructor
  · intro isNode
    cases isNode with
    | core core => exact (fresh.not_core core).elim
    | disk has absent =>
      have root := (fresh.hasNode_iff id).mp has
      rw [root]
      exact ⟨rfl, fresh.rootNode⟩
  · rintro ⟨rfl, rfl⟩
    rw [← fresh.rootNode]
    exact .disk ((fresh.hasNode_iff _).mpr rfl) (fresh.absent _)

theorem rootView_blockMap (index : Fin kSFSMaxDirectDataBlockPointers) :
    (rootView blockCount user permissions).blockMap index =
      if index = ⟨0, by decide⟩ then allocBitmapBlockCountFor blockCount + 2 else 0 := by
  change Function.update BlockMap.empty _ _ index = _
  rw [Function.update_apply]
  rfl

inductive FreshRole (bitmapBlocks : Nat) : Role → Nat → Prop
  | header : FreshRole bitmapBlocks .header 0
  | bitmap {index : Nat} (inside : index < bitmapBlocks) :
      FreshRole bitmapBlocks (.bitmap index) (1 + index)
  | inode : FreshRole bitmapBlocks (.inode (bitmapBlocks + 1)) (bitmapBlocks + 1)
  | content : FreshRole bitmapBlocks (.content (bitmapBlocks + 1) ⟨0, by decide⟩) (bitmapBlocks + 2)

def freshRole (bitmapBlocks lba : Nat) : Role :=
  if lba = 0 then .header
  else if lba < bitmapBlocks + 1 then .bitmap (lba - 1)
  else if lba = bitmapBlocks + 1 then .inode (bitmapBlocks + 1)
  else .content (bitmapBlocks + 1) ⟨0, Nat.zero_lt_succ 113⟩

theorem FreshRole.eq {bitmapBlocks lba : Nat} {role : Role} (holds : FreshRole bitmapBlocks role lba) :
    role = freshRole bitmapBlocks lba := by
  unfold freshRole
  cases holds with
  | header => rw [if_pos rfl]
  | @bitmap index inside => rw [if_neg (by omega), if_pos (by omega), Nat.add_sub_cancel_left]
  | inode => rw [if_neg (by omega), if_neg (by omega), if_pos rfl]
  | content => rw [if_neg (by omega), if_neg (by omega), if_neg (by omega)]

theorem freshRole_holds {bitmapBlocks lba : Nat} (marked : lba < bitmapBlocks + 3) :
    FreshRole bitmapBlocks (freshRole bitmapBlocks lba) lba := by
  unfold freshRole
  split_ifs with header bitmap inode
  · rw [header]
    exact .header
  · have inside : lba - 1 < bitmapBlocks := by omega
    have position : 1 + (lba - 1) = lba := by omega
    have holds := FreshRole.bitmap inside
    rwa [position] at holds
  · rw [inode]
    exact .inode
  · have last : lba = bitmapBlocks + 2 := by omega
    rw [last]
    exact .content

theorem Fresh.holds_iff (fresh : Fresh user permissions blockCount fs) (role : Role) (lba : Nat) :
    (fs.ledger []).holds role lba ↔ FreshRole (allocBitmapBlockCountFor blockCount) role lba := by
  constructor
  · rintro (held | ⟨-, member⟩)
    · cases role with
      | header =>
        subst held
        exact .header
      | bitmap index =>
        obtain ⟨inside, rfl⟩ := held
        rw [fresh.bitmapBlocks] at inside
        rw [fresh.bitmapLba]
        exact .bitmap inside
      | inode id =>
        obtain ⟨has, rfl⟩ := held
        rw [(fresh.hasNode_iff _).mp has, fresh.root]
        exact .inode
      | content id index =>
        obtain ⟨view, isNode, entry, nonzero⟩ := held
        obtain ⟨rfl, rfl⟩ := (fresh.isNode_iff id view).mp isNode
        rw [rootView_blockMap] at entry
        split_ifs at entry with first
        · subst first entry
          rw [fresh.root]
          exact .content
        · exact absurd entry.symm nonzero
      | pending claimed => exact held.elim
    · simp at member
  · rintro (_ | inside | _ | _)
    · exact Or.inl rfl
    · exact Or.inl ⟨fresh.bitmapBlocks ▸ inside, by rw [fresh.bitmapLba]⟩
    · exact Or.inl ⟨(fresh.hasNode_iff _).mpr fresh.root.symm, rfl⟩
    · refine Or.inl ⟨_, (fresh.isNode_iff _ _).mpr ⟨fresh.root.symm, rfl⟩, ?_, by omega⟩
      rw [rootView_blockMap, if_pos rfl]

/-- Every new volume is consistent, and nothing else is marked on it. -/
theorem Fresh.consistent (fresh : Fresh user permissions blockCount fs)
    (small : blockCount ≤ maxFormattedBlockCount) : fs.Consistent True none [] := by
  have fits := fresh.fits
  refine ⟨⟨fresh.quiet, fresh.geometry, ?_, ?_⟩, ?_, ⟨?_, ?_⟩, ?_, ⟨?_, ?_⟩, fun _ => ?_⟩
  · rw [fresh.volume, fresh.size]
  · rw [fresh.volume]
    unfold maxFormattedBlockCount at small
    omega
  · constructor
    · rw [fresh.unused]
      exact List.nodup_nil
    · exact fun ref _ => fresh.empty ref
    · intro ref member
      rw [fresh.unused] at member
      simp at member
    · exact fun _ _ core => (fresh.not_core core).elim
    · exact fun _ _ core => (fresh.not_core core).elim
    · exact fun _ _ core => (fresh.not_core core).elim
    · exact fun _ _ _ _ core => (fresh.not_core core).elim
  · exact fun _ _ core => (fresh.not_core core).elim
  · intro id has _
    rw [(fresh.hasNode_iff id).mp has]
    exact congrArg NodeView.linkCount fresh.rootNode
  · intro lba marked
    rw [fresh.marked] at marked
    rw [fresh.volume]
    omega
  · intro role lba held
    change isBlockInUse fs.allocationBitmap lba = true
    rw [fresh.marked]
    rcases (fresh.holds_iff role lba).mp held with _ | inside | _ | _ <;> omega
  · intro role role' lba held held'
    rw [((fresh.holds_iff role lba).mp held).eq, ((fresh.holds_iff role' lba).mp held').eq]
  · intro lba marked
    exact ⟨_, (fresh.holds_iff _ lba).mpr (freshRole_holds ((fresh.marked lba).mp marked))⟩

end Fresh

end Apollo.Serenafs
