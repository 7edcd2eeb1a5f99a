import Apollo.Serenafs.Files

/-!
# Directories

The directory scanner of `SerenaFS.c` and the operations built on it.  A
directory file is an array of 32-byte entries; an entry whose id is 0 is free.
`scanDirectory` follows the pointer that receives the free entry: a caller that
passes none makes the scanner write through a null pointer as soon as it meets
a free entry.
-/

set_option autoImplicit false

namespace Apollo.Serenafs

open Lib

abbrev PathComponent : Type := List UInt8

def kPathComponentSelf : PathComponent := [0x2e]

def kPathComponentParent : PathComponent := [0x2e, 0x2e]

/-- The comparison loop of `PathComponent_EqualsString` from character `index` on. -/
def equalsStringFrom (rhs : Nat → UInt8) : Nat → PathComponent → Bool
  | index, [] => rhs index == 0
  | index, char :: rest =>
    if rhs index = 0 then false
    else if rhs index ≠ char then false
    else equalsStringFrom rhs (index + 1) rest

def equalsString (name : PathComponent) (rhs : Nat → UInt8) : Bool :=
  if rhs name.length ≠ 0 then false else equalsStringFrom rhs 0 name

/-- `String_CopyUpTo` with the length of `source` as the count: the bytes that it
stores. -/
def stringCopyUpTo (source : PathComponent) : List UInt8 :=
  let copied := source.takeWhile (· ≠ 0)
  if copied.length < source.length then copied ++ [0] else copied

inductive SFSDirectoryQuery where
  | pathComponent (name : PathComponent)
  | inodeId (id : Nat)
  deriving DecidableEq

/-- The comparison of one live entry with the query; `none` is a read past the
end of the block. -/
def SFSDirectoryQuery.matchesEntry (query : SFSDirectoryQuery) (block : Block) (slot : Nat) :
    Option Bool :=
  match query with
  | .pathComponent name =>
    if kSFSBlockSize ≤ sizeofSFSDirectoryEntry * slot + 4 + name.length then none
    else some (equalsString name (entryChar block slot))
  | .inodeId id => some (entryId block slot == id)

/-- What a scan of a block found: the last free entry that it passed and the
matching entry. -/
structure BlockScan where
  empty : Option Nat
  found : Option Nat
  deriving DecidableEq

/-- `xHasMatchingDirectoryEntry` over `nEntries` entries from `slot` on. -/
def xHasMatchingDirectoryEntry (query : SFSDirectoryQuery) (block : Block) :
    Nat → Nat → Option Nat → Option BlockScan
  | 0, _, empty => some ⟨empty, none⟩
  | nEntries + 1, slot, empty =>
    if 0 < entryId block slot then
      match query.matchesEntry block slot with
      | none => none
      | some true => some ⟨empty, some slot⟩
      | some false => xHasMatchingDirectoryEntry query block nEntries (slot + 1) empty
    else xHasMatchingDirectoryEntry query block nEntries (slot + 1) (some slot)

structure SFSDirectoryEntryPointer where
  lba : Nat
  offset : Nat
  fileOffset : Int
  deriving DecidableEq

def SFSDirectoryEntryPointer.null : SFSDirectoryEntryPointer := ⟨0, 0, 0⟩

structure DirectoryMatch where
  pointer : SFSDirectoryEntryPointer
  id : Nat
  filename : PathComponent
  deriving DecidableEq

/-- The out-parameters of `SerenaFS_GetDirectoryEntry`; `found = none` is the
return of `ENOENT`. -/
structure DirectoryLookup where
  empty : SFSDirectoryEntryPointer
  found : Option DirectoryMatch
  deriving DecidableEq

def entryPointer (lba : Nat) (offset : Int) (slot : Nat) : SFSDirectoryEntryPointer :=
  ⟨lba, sizeofSFSDirectoryEntry * slot, offset + (sizeofSFSDirectoryEntry * slot : Nat)⟩

/-- The store through `pOutEmptyPtr` after a block was scanned. -/
def storeEmpty (wantEmpty : Bool) (lba : Nat) (offset : Int) (slot : Option Nat)
    (empty : SFSDirectoryEntryPointer) : FS SFSDirectoryEntryPointer :=
  match slot with
  | none => pure empty
  | some slot => if wantEmpty then pure (entryPointer lba offset slot) else Code.fault

/-- The loop of `SerenaFS_GetDirectoryEntry`.  Block 114 raises `EFBIG`, which
bounds the iterations. -/
def scanDirectory (ref : InodeRef) (query : SFSDirectoryQuery) (wantEmpty : Bool)
    (fileSize : Int) : Nat → Int → SFSDirectoryEntryPointer → FS DirectoryLookup
  | 0, _, empty => pure ⟨empty, none⟩
  | fuel + 1, offset, empty =>
    let nBytesAvailable := min (kSFSBlockSize : Int) (fileSize - offset)
    if nBytesAvailable ≤ 0 then pure ⟨empty, none⟩
    else do
      let (lba, block) ← fileBlock ref (blockIndex offset) .read
      match xHasMatchingDirectoryEntry query block
          (nBytesAvailable.toNat / sizeofSFSDirectoryEntry) 0 none with
      | none => Code.fault
      | some scan =>
        let empty ← storeEmpty wantEmpty lba offset scan.empty empty
        match scan.found with
        | some slot =>
          pure ⟨empty, some
            ⟨entryPointer lba offset slot, entryId block slot, entryFilename block slot⟩⟩
        | none => scanDirectory ref query wantEmpty fileSize fuel (offset + nBytesAvailable) empty

/-- `SerenaFS_GetDirectoryEntry`.  `wantEmpty` says whether the caller passes a
pointer for the free entry. -/
def getDirectoryEntry (ref : InodeRef) (query : SFSDirectoryQuery) (wantEmpty : Bool) :
    FS DirectoryLookup := do
  let value ← node ref
  match query with
  | .pathComponent name =>
    if name.length = 0 then pure ⟨.null, none⟩
    else if kSFSMaxFilenameLength < name.length then Code.throw .ENAMETOOLONG
    else scanDirectory ref query wantEmpty value.size 115 0 .null
  | .inodeId _ => scanDirectory ref query wantEmpty value.size 115 0 .null

def checkAccessLocked (fs : SerenaFS) (value : Inode) (user : User) (mode : UInt32) :
    Option Errno :=
  if mode = kFilePermissionWrite.toUInt32 ∧ fs.isReadOnly then some .EROFS
  else
    let permissions :=
      if mode = kAccessReadable then FilePermissions.make kFilePermissionRead 0 0
      else if mode = kAccessWritable then FilePermissions.make kFilePermissionWrite 0 0
      else if mode = kAccessExecutable then FilePermissions.make kFilePermissionExecute 0 0
      else 0
    value.checkAccess user permissions

def requireAccess (ref : InodeRef) (user : User) (mode : FilePermissions) : FS Unit := do
  let value ← node ref
  let fs ← Code.get
  check (checkAccessLocked fs value user mode.toUInt32)

def acquireRootNode : FS InodeRef := do
  let fs ← Code.get
  acquireNodeWithId fs.rootDirLba

def acquireNodeForName (parent : InodeRef) (name : PathComponent) (user : User) : FS InodeRef := do
  requireAccess parent user kFilePermissionExecute
  let lookup ← getDirectoryEntry parent (.pathComponent name) false
  match lookup.found with
  | none => Code.throw .ENOENT
  | some entry => acquireNodeWithId entry.id

/-! ## Changing a directory -/

def removeDirectoryEntry (dir : InodeRef) (idToRemove : Nat) : FS Unit := do
  let lookup ← getDirectoryEntry dir (.inodeId idToRemove) false
  match lookup.found with
  | none => Code.throw .ENOENT
  | some entry =>
    let block ← getBlock entry.pointer.lba
    putBlock (block.blit entry.pointer.offset (List.replicate sizeofSFSDirectoryEntry 0))
      entry.pointer.lba
    updateNode dir fun value =>
      if value.size - sizeofSFSDirectoryEntry = entry.pointer.fileOffset then
        { value with size := value.size - sizeofSFSDirectoryEntry }
      else value

/-- The entry `(name, id)` stored over the free entry at `offset`: the rest of
the name is cleared. -/
def reuseEntry (block : Block) (offset : Nat) (name : PathComponent) (id : Nat) : Block :=
  let copied := stringCopyUpTo name
  let block := block.blit (offset + 4)
    (copied ++ List.replicate (kSFSMaxFilenameLength - copied.length) 0)
  block.blit offset (beBytes 4 id)

/-- The entry `(name, id)` stored at `offset` behind the last entry: what follows
the name is left as it is. -/
def appendEntry (block : Block) (offset : Nat) (name : PathComponent) (id : Nat) : Block :=
  (block.blit (offset + 4) (stringCopyUpTo name)).blit offset (beBytes 4 id)

/-- The second half of an append: the block that holds the entry is written and
entered in the block map. -/
def finishAppend (dir : InodeRef) (index : Fin kSFSMaxDirectDataBlockPointers) (lba : Nat)
    (block : Block) : FS Unit := do
  putBlock block lba
  updateNode dir fun value =>
    { value.setUpdated with
      blockMap := Function.update value.blockMap index lba
      size := value.size + sizeofSFSDirectoryEntry }

/-- The append branch of `SerenaFS_InsertDirectoryEntry`. -/
def appendDirectoryEntry (dir : InodeRef) (name : PathComponent) (id : Nat) : FS Unit := do
  let value ← node dir
  let remainder := blockOffset value.size
  if 0 < remainder then
    let idx := toInt32 (toUInt32 (value.size.tdiv kSFSBlockSize))
    if bound : 0 ≤ idx ∧ idx < kSFSMaxDirectDataBlockPointers then
      let index : Fin kSFSMaxDirectDataBlockPointers := ⟨idx.toNat, by omega⟩
      let lba := value.blockMap index
      let block ← getBlock lba
      finishAppend dir index lba (appendEntry block remainder name id)
    else Code.fault
  else
    match (List.finRange kSFSMaxDirectDataBlockPointers).find? (value.blockMap · = 0) with
    | none => Code.throw .EIOError
    | some index =>
      let lba ← allocateBlockLocked
      finishAppend dir index lba (appendEntry Buffer.zero 0 name id)

def insertDirectoryEntry (dir : InodeRef) (name : PathComponent) (id : Nat)
    (empty : Option SFSDirectoryEntryPointer) : FS Unit :=
  if kSFSMaxFilenameLength < name.length then Code.throw .ENAMETOOLONG
  else
    match empty.filter (0 < ·.lba) with
    | some pointer => do
        let block ← getBlock pointer.lba
        putBlock (reuseEntry block pointer.offset name id) pointer.lba
        updateNode dir Inode.setUpdated
    | none => appendDirectoryEntry dir name id

def createDirectoryDiskNode (parentId : Nat) (uid gid : UInt32) (permissions : FilePermissions) :
    FS Nat := do
  let dir ← allocateNode .directory uid gid permissions
  let value ← node dir
  Code.onError
    (do
      insertDirectoryEntry dir kPathComponentSelf value.inid none
      -- the ids are signed in the source
      insertDirectoryEntry dir kPathComponentParent
        (if 0 < toInt32 (parentId % 4294967296) then parentId else value.inid) none)
    (relinquishNode dir)
  relinquishNode dir
  pure value.inid

def createDirectory (name : PathComponent) (parent : InodeRef) (user : User)
    (permissions : FilePermissions) : FS Unit := do
  let value ← node parent
  if !value.isDirectory then Code.throw .ENOTDIR
  else
    requireAccess parent user kFilePermissionWrite
    let lookup ← getDirectoryEntry parent (.pathComponent name) true
    match lookup.found with
    | some _ => Code.throw .EEXIST
    | none =>
      let newDirId ← createDirectoryDiskNode value.inid user.uid user.gid permissions
      insertDirectoryEntry parent name newDirId (some lookup.empty)

/-- What `SerenaFS_createFile` leaves with its caller: the error and `*pOutNode`. -/
structure CreatedFile where
  error : Option Errno
  node : Option InodeRef
  deriving DecidableEq

/-- The checks of `SerenaFS_createFile` and its search for the name. -/
def createFileLookup (name : PathComponent) (parent : InodeRef) (user : User) (options : UInt32) :
    FS DirectoryLookup := do
  let value ← node parent
  if !value.isDirectory then Code.throw .ENOTDIR
  else
    requireAccess parent user kFilePermissionWrite
    let lookup ← getDirectoryEntry parent (.pathComponent name) true
    match lookup.found with
    | some _ => if options &&& kOpenExclusive = kOpenExclusive then Code.throw .EEXIST else pure lookup
    | none => pure lookup

def truncateIf (condition : Bool) (ref : InodeRef) : FS Unit :=
  if condition then xTruncateFile ref 0 else pure ()

def createFile (name : PathComponent) (parent : InodeRef) (user : User) (options : UInt32)
    (permissions : FilePermissions) : FS CreatedFile := do
  match ← Code.attempt (createFileLookup name parent user options) with
  | .error reason => pure ⟨some reason, none⟩
  | .ok lookup =>
    match lookup.found with
    | some entry =>
      match ← Code.attempt (acquireNodeWithId entry.id) with
      | .error reason => pure ⟨some reason, none⟩
      | .ok ref =>
        truncateIf (options &&& kOpenTruncate = kOpenTruncate) ref
        pure ⟨none, some ref⟩
    | none =>
      match ← Code.attempt (allocateNode .regularFile user.uid user.gid permissions) with
      | .error reason => pure ⟨some reason, none⟩
      | .ok ref =>
        let value ← node ref
        match ← Code.attempt
          (insertDirectoryEntry parent name value.inid (some lookup.empty)) with
        | .error reason => pure ⟨some reason, some ref⟩
        | .ok _ => pure ⟨none, some ref⟩

def directoryNodeIsEmpty (value : Inode) : Bool := value.size ≤ sizeofSFSDirectoryEntry * 2

def unlink (nodeToUnlink parent : InodeRef) (user : User) : FS Unit := do
  requireAccess parent user kFilePermissionWrite
  let value ← node nodeToUnlink
  if value.isDirectory && !directoryNodeIsEmpty value then Code.throw .EBUSY
  else
    removeDirectoryEntry parent value.inid
    let dir ← node parent
    xTruncateFile parent dir.size
    updateNode nodeToUnlink fun value =>
      { value with linkCount := value.linkCount - 1, statusChanged := true }

/-! ## Opening a file -/

/-- The I/O channel that `File_Create` makes. -/
structure File where
  inode : InodeRef
  mode : UInt32
  offset : Int
  deriving DecidableEq

def fileCreate (mode : UInt32) (ref : InodeRef) : FS File := do
  kalloc
  let ref ← reacquireNode ref
  pure ⟨ref, mode &&& (kOpenReadWrite ||| kOpenAppend), 0⟩

def openFile (ref : InodeRef) (mode : UInt32) (user : User) : FS File := do
  let value ← node ref
  if value.isDirectory then Code.throw .EISDIR
  else if mode &&& kOpenReadWrite = 0 then Code.throw .EACCESS
  else
    let permissions : FilePermissions :=
      (if mode &&& kOpenRead = 0 then 0 else kFilePermissionRead) |||
        (if mode &&& kOpenWrite = 0 then 0 else kFilePermissionWrite)
    check (value.checkAccess user permissions)
    let file ← fileCreate mode ref
    truncateIf (mode &&& kOpenTruncate ≠ 0) ref
    pure file

end Apollo.Serenafs
