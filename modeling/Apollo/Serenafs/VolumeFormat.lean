import Apollo.Filesystem.Inode
import Apollo.Lib.Bytes

/-!
# The on-disk format of SerenaFS

Blocks, disk nodes, directory entries and the volume header of
`VolumeFormat.h`.  Every number is stored big-endian.  A record is written
field by field into a cleared block, as the kernel does it, and
`view_decodeInode_encodeInode` states that a disk node is read back as it was
written.
-/

set_option autoImplicit false

namespace Apollo.Serenafs

open Lib

def kSFSMaxFilenameLength : Nat := 28
def kSFSBlockSize : Nat := 512
def kSFSVolumeMinBlockCount : Nat := 4
def kSFSSignatureSerenaFS : Nat := 0x53654653
def kSFSVersionV01 : Nat := 0x00000100
def sizeofSFSDirectoryEntry : Nat := 32

abbrev Block : Type := Buffer 512

/-! ## Conversions between C integers -/

def toUInt32 (value : Int) : Nat := (value % 4294967296).toNat

def toUInt64 (value : Int) : Nat := (value % 18446744073709551616).toNat

def toInt32 (bits : Nat) : Int := if bits < 2147483648 then bits else bits - 4294967296

def toInt64 (bits : Nat) : Int :=
  if bits < 9223372036854775808 then bits else bits - 18446744073709551616

theorem toUInt32_lt (value : Int) : toUInt32 value < 4294967296 := by
  unfold toUInt32
  omega

theorem toUInt64_lt (value : Int) : toUInt64 value < 18446744073709551616 := by
  unfold toUInt64
  omega

theorem toInt32_toUInt32 {value : Int} (low : -2147483648 ≤ value) (high : value < 2147483648) :
    toInt32 (toUInt32 value) = value := by
  unfold toInt32 toUInt32
  split_ifs <;> omega

theorem toInt64_toUInt64 {value : Int} (low : -9223372036854775808 ≤ value)
    (high : value < 9223372036854775808) :
    toInt64 (toUInt64 value) = value := by
  unfold toInt64 toUInt64
  split_ifs <;> omega

def FileType.ofByte (byte : UInt8) : FileType :=
  if byte.toNat = 0 then .regularFile
  else if byte.toNat = 1 then .directory
  else .unknown ⟨byte.toNat - 2, by have := byte.toNat_lt; omega⟩

def FileType.toByte : FileType → UInt8
  | .regularFile => 0
  | .directory => 1
  | .unknown code => UInt8.ofNat (code.val + 2)

theorem FileType.ofByte_toByte (type : FileType) : FileType.ofByte (FileType.toByte type) = type := by
  cases type with
  | regularFile => rfl
  | directory => rfl
  | unknown code =>
    have value : (FileType.toByte (.unknown code)).toNat = code.val + 2 := by
      show (UInt8.ofNat (code.val + 2)).toNat = code.val + 2
      rw [UInt8.toNat_ofNat']
      omega
    unfold FileType.ofByte
    rw [if_neg (by omega), if_neg (by omega)]
    simp only [value, Nat.add_sub_cancel]

/-! ## Disk nodes -/

/-- `SFSInode`, with its fields read as the kernel reads them. -/
structure SFSInode where
  accessTime : TimeInterval
  modificationTime : TimeInterval
  statusChangeTime : TimeInterval
  size : Int
  uid : UInt32
  gid : UInt32
  linkCount : Int
  permissions : FilePermissions
  type : FileType
  blockMap : BlockMap

def encodeTime (block : Block) (start : Nat) (time : TimeInterval) : Block :=
  (block.blit start (beBytes 4 (toUInt32 time.tvSec))).blit (start + 4)
    (beBytes 4 (toUInt32 time.tvNsec))

def decodeTime (block : Block) (start : Nat) : TimeInterval :=
  ⟨toInt32 (block.be32 start), toInt32 (block.be32 (start + 4))⟩

/-- The fields of a disk node from `size` on, written over `block`. -/
def encodeFields (block : Block) (node : SFSInode) : Block :=
  let block := block.blit 24 (beBytes 8 (toUInt64 node.size))
  let block := block.blit 32 (beBytes 4 node.uid.toNat)
  let block := block.blit 36 (beBytes 4 node.gid.toNat)
  let block := block.blit 40 (beBytes 4 (toUInt32 node.linkCount))
  let block := block.blit 44 (beBytes 2 node.permissions.toNat)
  let block := block.blit 46 [FileType.toByte node.type]
  block.blit 48 ((List.ofFn node.blockMap).flatMap (beBytes 4))

def encodeInode (node : SFSInode) : Block :=
  let block := encodeTime Buffer.zero 0 node.accessTime
  let block := encodeTime block 8 node.modificationTime
  let block := encodeTime block 16 node.statusChangeTime
  encodeFields block node

def decodeInode (block : Block) : SFSInode where
  accessTime := decodeTime block 0
  modificationTime := decodeTime block 8
  statusChangeTime := decodeTime block 16
  size := toInt64 (block.be64 24)
  uid := UInt32.ofNat (block.be32 32)
  gid := UInt32.ofNat (block.be32 36)
  linkCount := toInt32 (block.be32 40)
  permissions := UInt16.ofNat (block.be16 44)
  type := FileType.ofByte (block.byte 46)
  blockMap := fun index => block.be32 (48 + 4 * index.val)

/-- What a node is, apart from its time-stamps: the part that decides which
blocks it holds and who may use it. -/
structure NodeView where
  type : FileType
  linkCount : Int
  size : Int
  uid : UInt32
  gid : UInt32
  permissions : FilePermissions
  blockMap : BlockMap

def SFSInode.view (node : SFSInode) : NodeView :=
  ⟨node.type, node.linkCount, node.size, node.uid, node.gid, node.permissions, node.blockMap⟩

/-- The view with its numbers cut down to the fields they are stored in. -/
def NodeView.stored (view : NodeView) : NodeView :=
  { view with
    size := toInt64 (toUInt64 view.size)
    linkCount := toInt32 (toUInt32 view.linkCount)
    blockMap := fun index => view.blockMap index % 4294967296 }

theorem NodeView.stored_linkCount {view : NodeView} (low : 0 ≤ view.linkCount)
    (high : view.linkCount < 2147483648) : view.stored.linkCount = view.linkCount :=
  toInt32_toUInt32 (by omega) high

theorem NodeView.stored_blockMap {view : NodeView} (small : ∀ index, view.blockMap index < 4294967296) :
    view.stored.blockMap = view.blockMap := by
  funext index
  exact Nat.mod_eq_of_lt (small index)

section Fields
variable (block : Block) (node : SFSInode)

theorem decode_size : (encodeFields block node).be64 24 = toUInt64 node.size := by
  unfold encodeFields
  rw [Buffer.be64_blit_apart _ (by simp), Buffer.be64_blit_apart _ (by simp),
    Buffer.be64_blit_apart _ (by simp), Buffer.be64_blit_apart _ (by simp),
    Buffer.be64_blit_apart _ (by simp), Buffer.be64_blit_apart _ (by simp),
    Buffer.be64_blit_same _ (by decide), Nat.mod_eq_of_lt (toUInt64_lt node.size)]

theorem decode_uid : (encodeFields block node).be32 32 = node.uid.toNat % 4294967296 := by
  unfold encodeFields
  rw [Buffer.be32_blit_apart _ (by simp), Buffer.be32_blit_apart _ (by simp),
    Buffer.be32_blit_apart _ (by simp), Buffer.be32_blit_apart _ (by simp),
    Buffer.be32_blit_apart _ (by simp), Buffer.be32_blit_same _ (by decide)]

theorem decode_gid : (encodeFields block node).be32 36 = node.gid.toNat % 4294967296 := by
  unfold encodeFields
  rw [Buffer.be32_blit_apart _ (by simp), Buffer.be32_blit_apart _ (by simp),
    Buffer.be32_blit_apart _ (by simp), Buffer.be32_blit_apart _ (by simp),
    Buffer.be32_blit_same _ (by decide)]

theorem decode_linkCount :
    (encodeFields block node).be32 40 = toUInt32 node.linkCount := by
  unfold encodeFields
  rw [Buffer.be32_blit_apart _ (by simp), Buffer.be32_blit_apart _ (by simp),
    Buffer.be32_blit_apart _ (by simp), Buffer.be32_blit_same _ (by decide),
    Nat.mod_eq_of_lt (toUInt32_lt node.linkCount)]

theorem decode_permissions :
    (encodeFields block node).be16 44 = node.permissions.toNat % 65536 := by
  unfold encodeFields
  rw [Buffer.be16_blit_apart _ (by simp), Buffer.be16_blit_apart _ (by simp),
    Buffer.be16_blit_same _ (by decide)]

theorem decode_type : (encodeFields block node).byte 46 = FileType.toByte node.type := by
  rfl

theorem decode_blockMap (index : Fin kSFSMaxDirectDataBlockPointers) :
    (encodeFields block node).be32 (48 + 4 * index.val) = node.blockMap index % 4294967296 := by
  unfold encodeFields
  rw [Buffer.be32_table _ (by exact index.isLt)
    (by rw [List.length_ofFn]; decide)]
  simp [index.isLt]

end Fields

/-- A disk node is read back as it was written, up to the width of its fields. -/
theorem view_decodeInode_encodeInode (node : SFSInode) :
    (decodeInode (encodeInode node)).view = node.view.stored := by
  have uid : UInt32.ofNat (node.uid.toNat % 4294967296) = node.uid := by
    rw [Nat.mod_eq_of_lt node.uid.toNat_lt]
    exact UInt32.ofNat_toNat
  have gid : UInt32.ofNat (node.gid.toNat % 4294967296) = node.gid := by
    rw [Nat.mod_eq_of_lt node.gid.toNat_lt]
    exact UInt32.ofNat_toNat
  have permissions : UInt16.ofNat (node.permissions.toNat % 65536) = node.permissions := by
    rw [Nat.mod_eq_of_lt node.permissions.toNat_lt]
    exact UInt16.ofNat_toNat
  unfold NodeView.stored SFSInode.view decodeInode encodeInode
  simp only [decode_size, decode_uid, decode_gid, decode_linkCount, decode_permissions, decode_type,
    decode_blockMap, uid, gid, permissions, FileType.ofByte_toByte]

theorem stored_view_decodeInode (block : Block) :
    (decodeInode block).view.stored = (decodeInode block).view := by
  have size : toInt64 (toUInt64 (toInt64 (block.be64 24))) = toInt64 (block.be64 24) := by
    have bound := block.be64_lt 24
    apply toInt64_toUInt64
    · unfold toInt64
      split_ifs <;> omega
    · unfold toInt64
      split_ifs <;> omega
  have linkCount : toInt32 (toUInt32 (toInt32 (block.be32 40))) = toInt32 (block.be32 40) := by
    have bound := block.be32_lt 40
    apply toInt32_toUInt32
    · unfold toInt32
      split_ifs <;> omega
    · unfold toInt32
      split_ifs <;> omega
  have map : (fun index : Fin kSFSMaxDirectDataBlockPointers =>
      block.be32 (48 + 4 * index.val) % 4294967296) =
        fun index => block.be32 (48 + 4 * index.val) := by
    funext index
    exact Nat.mod_eq_of_lt (block.be32_lt _)
  unfold NodeView.stored SFSInode.view decodeInode
  rw [size, linkCount, map]

/-! ## Directory entries -/

/-- The `id` of the directory entry at index `slot` of a block. -/
def entryId (block : Block) (slot : Nat) : Nat := block.be32 (sizeofSFSDirectoryEntry * slot)

/-- `filename[index]` of the entry at index `slot`; like the C pointer it can
run past the entry. -/
def entryChar (block : Block) (slot index : Nat) : UInt8 :=
  block.byte (sizeofSFSDirectoryEntry * slot + 4 + index)

def entryFilename (block : Block) (slot : Nat) : List UInt8 :=
  (block.slice (sizeofSFSDirectoryEntry * slot + 4) kSFSMaxFilenameLength).takeWhile (· ≠ 0)

/-! ## Volume header -/

structure SFSVolumeHeader where
  signature : Nat
  version : Nat
  blockSize : Nat
  volumeBlockCount : Nat
  allocationBitmapByteSize : Nat
  rootDirectoryLba : Nat
  allocationBitmapLba : Nat
  deriving DecidableEq, Repr

def encodeHeader (header : SFSVolumeHeader) (creationTime : TimeInterval) : Block :=
  let block : Block := Buffer.zero
  let block := block.blit 0 (beBytes 4 header.signature)
  let block := block.blit 4 (beBytes 4 header.version)
  let block := block.blit 8 (beBytes 4 0)
  let block := encodeTime block 12 creationTime
  let block := encodeTime block 20 creationTime
  let block := block.blit 28 (beBytes 4 header.blockSize)
  let block := block.blit 32 (beBytes 4 header.volumeBlockCount)
  let block := block.blit 36 (beBytes 4 header.allocationBitmapByteSize)
  let block := block.blit 40 (beBytes 4 header.rootDirectoryLba)
  block.blit 44 (beBytes 4 header.allocationBitmapLba)

def decodeHeader (block : Block) : SFSVolumeHeader where
  signature := block.be32 0
  version := block.be32 4
  blockSize := block.be32 28
  volumeBlockCount := block.be32 32
  allocationBitmapByteSize := block.be32 36
  rootDirectoryLba := block.be32 40
  allocationBitmapLba := block.be32 44

structure SFSVolumeHeader.Storable (header : SFSVolumeHeader) : Prop where
  signature : header.signature < 4294967296
  version : header.version < 4294967296
  blockSize : header.blockSize < 4294967296
  volumeBlockCount : header.volumeBlockCount < 4294967296
  allocationBitmapByteSize : header.allocationBitmapByteSize < 4294967296
  rootDirectoryLba : header.rootDirectoryLba < 4294967296
  allocationBitmapLba : header.allocationBitmapLba < 4294967296

theorem decodeHeader_encodeHeader (header : SFSVolumeHeader) (creationTime : TimeInterval)
    (storable : header.Storable) :
    decodeHeader (encodeHeader header creationTime) = header := by
  have signature := Nat.mod_eq_of_lt storable.signature
  have version := Nat.mod_eq_of_lt storable.version
  have blockSize := Nat.mod_eq_of_lt storable.blockSize
  have volumeBlockCount := Nat.mod_eq_of_lt storable.volumeBlockCount
  have allocationBitmapByteSize := Nat.mod_eq_of_lt storable.allocationBitmapByteSize
  have rootDirectoryLba := Nat.mod_eq_of_lt storable.rootDirectoryLba
  have allocationBitmapLba := Nat.mod_eq_of_lt storable.allocationBitmapLba
  have apart : ∀ (block : Block) (start index value : Nat),
      index + 4 ≤ start ∨ start + 4 ≤ index →
        (Buffer.blit block start (beBytes 4 value)).be32 index = block.be32 index := by
    intro block start index value apart
    exact Buffer.be32_blit_apart block (by simpa using apart)
  have same : ∀ (block : Block) (start value : Nat), start + 4 ≤ 512 →
      (Buffer.blit block start (beBytes 4 value)).be32 start = value % 4294967296 := by
    intro block start value fits
    exact Buffer.be32_blit_same block fits
  simp only [decodeHeader, encodeHeader, encodeTime]
  simp (disch := omega) only [apart, same]
  rw [signature, version, blockSize, volumeBlockCount, allocationBitmapByteSize,
    rootDirectoryLba, allocationBitmapLba]

end Apollo.Serenafs
