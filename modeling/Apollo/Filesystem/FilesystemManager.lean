import Apollo.Filesystem.Inode
import Apollo.Lib.Runs

/-!
# The mount table

The functions of `FilesystemManager.c`.  A number stands for the address of a
filesystem or of an in-core inode.  The inodes that come into core during a run
are there from its start with a clear mountpoint flag: mounting and unmounting
look at no inode but the ones they are called with and the ones in the table.

The answers of `kalloc`, `onMount` and `onUnmount` are arguments of the calls.
Every function runs with the lock of the manager held from its start to its end.
-/

set_option autoImplicit false

namespace Apollo.Filesystem

open Lib

structure InCoreNode where
  fsid : Nat
  inid : Nat
  useCount : Int
  linkCount : Int
  isMountpoint : Bool
  isModified : Bool
  deriving DecidableEq

structure Mountpoint where
  mountedFilesystem : Nat
  mountingFilesystem : Option Nat
  mountingInode : Option Nat
  deriving DecidableEq

/-- `fsid` gives the id of the filesystem at an address.  `capacity` belongs to the array
`filesystems`. -/
structure FilesystemManager where
  filesystems : List Nat
  capacity : Nat
  mountpoints : List Mountpoint
  rootMountpoint : Option Mountpoint
  fsid : Nat → Nat
  inode : Nat → Option InCoreNode

/-- Whether `kalloc` delivers the new entry, what `onMount` answers, and whether the
array of filesystems can grow. -/
structure MountAnswers where
  entry : Bool
  onMount : Option Errno
  growth : Bool
  deriving DecidableEq

/-! ## In-core inodes -/

def node (ref : Nat) : Code FilesystemManager Errno InCoreNode := fun manager =>
  match manager.inode ref with
  | some found => .ok found manager
  | none => .fault

def FilesystemManager.setNode (manager : FilesystemManager) (ref : Nat) (value : Option InCoreNode) :
    FilesystemManager :=
  { manager with inode := Function.update manager.inode ref value }

def InCoreNode.equals (self other : InCoreNode) : Bool := self.fsid == other.fsid && self.inid == other.inid

def reacquireUnlockedNode (ref : Nat) : Code FilesystemManager Errno Unit := do
  let found ← node ref
  Code.modify (·.setNode ref (some { found with useCount := found.useCount + 1 }))

def setMountpoint (ref : Nat) (flag : Bool) : Code FilesystemManager Errno Unit := do
  let found ← node ref
  Code.modify (·.setNode ref (some { found with isMountpoint := flag }))

/-- `Filesystem_RelinquishNode` without what the hooks do to the disk. -/
def relinquishNode (ref : Nat) : Code FilesystemManager Errno Unit := do
  let found ← node ref
  if found.linkCount < 0 ∨ found.useCount ≤ 0 then Code.fault
  else if found.useCount = 1 then Code.modify (·.setNode ref none)
  else Code.modify (·.setNode ref (some { found with isModified := false, useCount := found.useCount - 1 }))

/-! ## The table and the registry -/

def FilesystemManager.getFilesystemForId (manager : FilesystemManager) (fsid : Nat) : Option Nat :=
  manager.filesystems.find? (manager.fsid · = fsid)

/-- `FilesystemManager_RegisterFilesystem_Locked`.  An array that cannot grow is left as
it is. -/
def FilesystemManager.registerFilesystem (manager : FilesystemManager) (filesystem : Nat) (growth : Bool) :
    FilesystemManager :=
  if filesystem ∈ manager.filesystems then manager
  else if manager.filesystems.length = manager.capacity then
    if growth then
      { manager with
        filesystems := manager.filesystems ++ [filesystem]
        capacity := if 0 < manager.capacity then manager.capacity * 2 else 8 }
    else manager
  else { manager with filesystems := manager.filesystems ++ [filesystem] }

def FilesystemManager.getMountpointForFilesystemId (manager : FilesystemManager) (fsid : Nat) :
    Option Mountpoint :=
  manager.mountpoints.find? (manager.fsid ·.mountedFilesystem = fsid)

/-- The loop of `FilesystemManager_GetMountpointForInode_Locked`. -/
def findMountpoint (self : InCoreNode) : List Mountpoint → Code FilesystemManager Errno (Option Mountpoint)
  | [] => pure none
  | entry :: rest =>
    match entry.mountingInode with
    | none => Code.fault
    | some ref => do
        let other ← node ref
        if self.equals other then pure (some entry) else findMountpoint self rest

def getMountpointForInode (ref : Nat) : Code FilesystemManager Errno (Option Mountpoint) := do
  let self ← node ref
  let manager ← Code.get
  findMountpoint self manager.mountpoints

/-! ## Mounting and unmounting -/

/-- The first part of `FilesystemManager_Mount_Locked`: the entry of the filesystem that
owns the directory, if there is a directory. -/
def checkMount (filesystem : Nat) : Option Nat → Code FilesystemManager Errno (Option Mountpoint)
  | none => pure none
  | some dirNode => do
      let directory ← node dirNode
      let manager ← Code.get
      let mountingFsid := manager.fsid filesystem
      if directory.fsid = mountingFsid then Code.throw .EINVAL
      else if (manager.getMountpointForFilesystemId mountingFsid).isSome then Code.throw .EINVAL
      else
        match manager.getMountpointForFilesystemId directory.fsid with
        | none => Code.throw .EINVAL
        | some mount => pure (some mount)

def mountLocked (filesystem : Nat) (dirNode : Option Nat) (answers : MountAnswers) :
    Code FilesystemManager Errno Unit := do
  let dirNodeMount ← checkMount filesystem dirNode
  if !answers.entry then Code.throw .ENOMEM
  else
    match answers.onMount with
    | some error => Code.throw error
    | none =>
      match dirNode with
      | some ref => reacquireUnlockedNode ref
      | none => pure ()
      Code.modify fun manager =>
        let mount : Mountpoint := ⟨filesystem, dirNodeMount.map (·.mountedFilesystem), dirNode⟩
        { manager with
          rootMountpoint := if manager.mountpoints = [] then some mount else manager.rootMountpoint
          mountpoints := manager.mountpoints ++ [mount] }
      Code.modify (·.registerFilesystem filesystem answers.growth)
      match dirNode with
      | some ref => setMountpoint ref true
      | none => pure ()

/-- `FilesystemManager_Unmount_Locked`.  The error of `onUnmount` is the result, but does
not stop the unmount. -/
def unmountLocked (filesystem dirNode : Nat) (onUnmount : Option Errno) : Code FilesystemManager Errno Unit := do
  let directory ← node dirNode
  let found ← if directory.isMountpoint then getMountpointForInode dirNode else pure none
  let manager ← Code.get
  match found with
  | none => Code.throw .EINVAL
  | some mount =>
    if manager.fsid mount.mountedFilesystem ≠ manager.fsid filesystem then Code.throw .EINVAL
    else
      match manager.rootMountpoint with
      | none => Code.fault
      | some root =>
        if manager.fsid filesystem = manager.fsid root.mountedFilesystem then Code.throw .EINVAL
        else
          setMountpoint dirNode false
          Code.modify fun manager => { manager with mountpoints := manager.mountpoints.erase mount }
          match mount.mountingInode with
          | some ref => relinquishNode ref
          | none => pure ()
          match onUnmount with
          | some error => Code.throw error
          | none => pure ()

def FilesystemManager.copyFilesystemForId (manager : FilesystemManager) (fsid : Nat) : Option Nat :=
  manager.getFilesystemForId fsid

def copyFilesystemMountedAtNode (ref : Nat) : Code FilesystemManager Errno (Option Nat) := do
  let self ← node ref
  if self.isMountpoint then
    match ← getMountpointForInode ref with
    | some mount => pure (some mount.mountedFilesystem)
    | none => Code.fault
  else pure none

/-- `FilesystemManager_Create`; `initial` says whether the array of filesystems gets its
first memory. -/
def create (rootFilesystem : Nat) (fsid : Nat → Nat) (inode : Nat → Option InCoreNode) (initial : Bool)
    (answers : MountAnswers) : Outcome FilesystemManager Errno Unit :=
  mountLocked rootFilesystem none answers
    ⟨[], if initial then 4 else 0, [], none, fsid, inode⟩

end Apollo.Filesystem
