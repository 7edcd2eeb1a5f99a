import Apollo.Serenafs.Blocks

/-!
# Inode management

The inode life cycle of `Filesystem.c` together with the four hooks that
SerenaFS overrides.  An in-core inode exists from `inodeCreate` to the
relinquish that brings its use count to zero.
-/

set_option autoImplicit false

namespace Apollo.Serenafs

open Lib

/-! ## The hooks of SerenaFS -/

/-- The inode that `SerenaFS_onAllocateNodeOnDisk` passes to `Inode_Create`. -/
def newInode (lba : Nat) (type : FileType) (curTime : TimeInterval) : Inode where
  accessTime := curTime
  modificationTime := curTime
  statusChangeTime := curTime
  size := 0
  inid := lba
  useCount := 0
  linkCount := 1
  type := type
  isMountpoint := false
  accessed := false
  updated := false
  statusChanged := false
  permissions := 0
  uid := 0
  gid := 0
  blockMap := BlockMap.empty

/-- The inode that `SerenaFS_onReadNodeFromDisk` passes to `Inode_Create`. -/
def inodeOfDisk (id : Nat) (disk : SFSInode) : Inode where
  accessTime := disk.accessTime
  modificationTime := disk.modificationTime
  statusChangeTime := disk.statusChangeTime
  size := disk.size
  inid := id
  useCount := 0
  linkCount := disk.linkCount
  type := disk.type
  isMountpoint := false
  accessed := false
  updated := false
  statusChanged := false
  permissions := disk.permissions
  uid := disk.uid
  gid := disk.gid
  blockMap := disk.blockMap

/-- The disk node that `SerenaFS_onWriteNodeToDisk` writes. -/
def diskOfInode (value : Inode) (curTime : TimeInterval) : SFSInode where
  accessTime := if value.accessed then curTime else value.accessTime
  modificationTime := if value.updated then curTime else value.modificationTime
  statusChangeTime := if value.statusChanged then curTime else value.statusChangeTime
  size := value.size
  uid := value.uid
  gid := value.gid
  linkCount := value.linkCount
  permissions := value.permissions
  type := value.type
  blockMap := value.blockMap

def onAllocateNodeOnDisk (type : FileType) : FS InodeRef := do
  kalloc
  let lba ← allocateBlockLocked
  let fs ← Code.get
  let ref ← Code.onError (inodeCreate (newInode lba type fs.clock)) (deallocateBlockLocked lba)
  logNode (.allocated lba)
  pure ref

def onReadNodeFromDisk (id : Nat) : FS InodeRef := do
  kalloc
  let block ← getBlock id
  inodeCreate (inodeOfDisk id (decodeInode block))

def onWriteNodeToDisk (ref : InodeRef) : FS Unit := do
  let value ← node ref
  let fs ← Code.get
  putBlock (encodeInode (diskOfInode value fs.clock)) value.inid

/-- `SerenaFS_DeallocateFileContentBlocks_Locked` over the entries of the block
map: the loop ends at the first entry that is 0. -/
def deallocateFileContentBlocksLocked : List Nat → FS Unit
  | [] => pure ()
  | lba :: rest =>
    if lba = 0 then pure ()
    else do
      deallocateBlockLocked lba
      deallocateFileContentBlocksLocked rest

def onRemoveNodeFromDisk (ref : InodeRef) : FS Unit := do
  let value ← node ref
  logNode (.removed ref value.inid)
  deallocateFileContentBlocksLocked (List.ofFn value.blockMap)
  deallocateBlockLocked value.inid

/-! ## Filesystem -/

/-- `PointerArray_Remove` and `Inode_Destroy`. -/
def destroyNode (ref : InodeRef) : FS Unit :=
  Code.modify fun fs =>
    { fs.setNode ref none with inodesInUse := fs.inodesInUse.erase ref }

/-- The first half of `Filesystem_RelinquishNode`: the node is removed when no
directory references it, whatever its use count, and written back when it was
modified. -/
def settleNode (ref : InodeRef) (value : Inode) : FS Unit :=
  if value.linkCount = 0 then onRemoveNodeFromDisk ref
  else if value.isModified then do
    let _ ← Code.attempt (onWriteNodeToDisk ref)
    pure ()
  else pure ()

def relinquishNode (ref : InodeRef) : FS Unit := do
  let value ← node ref
  assert (0 ≤ value.linkCount)
  settleNode ref value
  updateNode ref Inode.clearModified
  assert (0 < value.useCount)
  updateNode ref fun value => { value with useCount := value.useCount - 1 }
  if value.useCount - 1 = 0 then destroyNode ref else pure ()

def allocateNode (type : FileType) (uid gid : UInt32) (permissions : FilePermissions) :
    FS InodeRef := do
  let ref ← onAllocateNodeOnDisk type
  Code.onError (addToInodesInUse ref) do
    updateNode ref fun value => { value with linkCount := value.linkCount - 1 }
    relinquishNode ref
  updateNode ref fun value =>
    { value with
      useCount := value.useCount + 1, uid := uid, gid := gid, permissions := permissions,
      accessed := true, updated := true, statusChanged := true }
  pure ref

def SerenaFS.hasId (fs : SerenaFS) (id : Nat) (ref : InodeRef) : Bool :=
  match fs.inode ref with
  | some value => value.inid == id
  | none => false

/-- `Filesystem_ReacquireNode` and `Filesystem_ReacquireUnlockedNode`. -/
def reacquireNode (ref : InodeRef) : FS InodeRef := do
  updateNode ref fun value => { value with useCount := value.useCount + 1 }
  pure ref

def acquireNodeWithId (id : Nat) : FS InodeRef := do
  let fs ← Code.get
  match fs.inodesInUse.find? (fs.hasId id) with
  | some ref => reacquireNode ref
  | none =>
    let ref ← onReadNodeFromDisk id
    addToInodesInUse ref
    reacquireNode ref

end Apollo.Serenafs
