import Apollo.Serenafs.AllocationBitmap
import Apollo.Serenafs.VolumeFormat

/-!
# The state of a mounted SerenaFS

The instance variables of `Filesystem` and `SerenaFS`, the in-core inodes with
the addresses that stand for pointers to them, and the disk.  The scratch block
`tmpBlock` is a local value of the functions that fill it.

Failing hardware is part of the state: `faults` lists what happens to the next
disk transfers and `heapFaults` to the next allocations.
-/

set_option autoImplicit false

namespace Apollo.Serenafs

open Lib

/-- A disk driver.  The head of `faults` decides the next transfer: `none` lets
it succeed, `some garbage` makes it fail, and a failing write leaves `garbage`
in the block. -/
structure Disk where
  blockSize : Nat
  blockCount : Nat
  block : Nat → Block
  faults : List (Option Block)

def Disk.getBlock (lba : Nat) : Code Disk Errno Block := fun disk =>
  match disk.faults with
  | some _ :: rest => .err .EIOError { disk with faults := rest }
  | outcomes =>
    let disk := { disk with faults := outcomes.tail }
    if lba < disk.blockCount then .ok (disk.block lba) disk else .err .EIOError disk

def Disk.putBlock (block : Block) (lba : Nat) : Code Disk Errno Unit := fun disk =>
  match disk.faults with
  | some garbage :: rest =>
    .err .EIOError { disk with faults := rest, block := Function.update disk.block lba garbage }
  | outcomes =>
    let disk := { disk with faults := outcomes.tail }
    if lba < disk.blockCount then
      .ok () { disk with block := Function.update disk.block lba block }
    else .err .EIOError disk

abbrev InodeRef : Type := Nat

/-- The calls of the hooks that create and delete disk nodes, newest first.
Nothing in the file system reads this record. -/
inductive NodeEvent where
  | allocated (id : Nat)
  | removed (node : InodeRef) (id : Nat)
  deriving DecidableEq, Repr

structure SerenaFS where
  disk : Disk
  isMounted : Bool
  allocationBitmapLba : Nat
  allocationBitmapBlockCount : Nat
  allocationBitmap : List UInt8
  allocationBitmapByteSize : Nat
  volumeBlockCount : Nat
  rootDirLba : Nat
  isReadOnly : Bool
  inodesInUse : List InodeRef
  inode : InodeRef → Option Inode
  nextRef : InodeRef
  heapFaults : List Bool
  clock : TimeInterval
  nodeLog : List NodeEvent

abbrev FS (α : Type) : Type := Code SerenaFS Errno α

def onDisk {α : Type} (transfer : Code Disk Errno α) : FS α := fun fs =>
  match transfer fs.disk with
  | .ok value disk => .ok value { fs with disk := disk }
  | .err error disk => .err error { fs with disk := disk }
  | .fault => .fault

def getBlock (lba : Nat) : FS Block := onDisk (Disk.getBlock lba)

def putBlock (block : Block) (lba : Nat) : FS Unit := onDisk (Disk.putBlock block lba)

/-- `kalloc`: only whether memory is delivered matters. -/
def kalloc : FS Unit := fun fs =>
  match fs.heapFaults with
  | true :: rest => .err .ENOMEM { fs with heapFaults := rest }
  | outcomes => .ok () { fs with heapFaults := outcomes.tail }

def assert (condition : Bool) : FS Unit := if condition then pure () else Code.fault

/-! ## In-core inodes -/

def node (ref : InodeRef) : FS Inode := fun fs =>
  match fs.inode ref with
  | some found => .ok found fs
  | none => .fault

def SerenaFS.setNode (fs : SerenaFS) (ref : InodeRef) (value : Option Inode) : SerenaFS :=
  { fs with inode := Function.update fs.inode ref value }

def updateNode (ref : InodeRef) (change : Inode → Inode) : FS Unit := fun fs =>
  match fs.inode ref with
  | some found => .ok () (fs.setNode ref (some (change found)))
  | none => .fault

def storeInode (value : Inode) : FS InodeRef := fun fs =>
  .ok fs.nextRef { fs.setNode fs.nextRef (some value) with nextRef := fs.nextRef + 1 }

def inodeCreate (value : Inode) : FS InodeRef := do
  kalloc
  storeInode value

/-- `PointerArray_Add` on `inodesInUse`. -/
def addToInodesInUse (ref : InodeRef) : FS Unit := do
  kalloc
  Code.modify fun fs => { fs with inodesInUse := fs.inodesInUse ++ [ref] }

def logNode (event : NodeEvent) : FS Unit :=
  Code.modify fun fs => { fs with nodeLog := event :: fs.nodeLog }

/-! ## Hardware that does not fail -/

def SerenaFS.writeBlock (fs : SerenaFS) (lba : Nat) (block : Block) : SerenaFS :=
  { fs with disk := { fs.disk with block := Function.update fs.disk.block lba block } }

section Writing
variable (fs : SerenaFS) (lba : Nat) (block : Block)

@[simp] theorem writeBlock_block :
    (fs.writeBlock lba block).disk.block = Function.update fs.disk.block lba block := rfl

end Writing

theorem Disk.getBlock_quiet {disk : Disk} (quiet : disk.faults = []) (lba : Nat) :
    Disk.getBlock lba disk =
      if lba < disk.blockCount then .ok (disk.block lba) disk else .err .EIOError disk := by
  obtain ⟨_, _, _, list⟩ := disk
  subst quiet
  rfl

theorem Disk.putBlock_quiet {disk : Disk} (quiet : disk.faults = []) (block : Block) (lba : Nat) :
    Disk.putBlock block lba disk =
      if lba < disk.blockCount then
        .ok () { disk with block := Function.update disk.block lba block }
      else .err .EIOError disk := by
  obtain ⟨_, _, _, list⟩ := disk
  subst quiet
  rfl

theorem getBlock_quiet {fs : SerenaFS} (quiet : fs.disk.faults = []) (lba : Nat) :
    getBlock lba fs =
      if lba < fs.disk.blockCount then .ok (fs.disk.block lba) fs else .err .EIOError fs := by
  unfold getBlock onDisk
  rw [Disk.getBlock_quiet quiet]
  split_ifs <;> rfl

theorem putBlock_quiet {fs : SerenaFS} (quiet : fs.disk.faults = []) (block : Block) (lba : Nat) :
    putBlock block lba fs =
      if lba < fs.disk.blockCount then .ok () (fs.writeBlock lba block) else .err .EIOError fs := by
  unfold putBlock onDisk
  rw [Disk.putBlock_quiet quiet]
  split_ifs <;> rfl

/-! ## Transfers on a disk that fails -/

/-- The transfer after the next `index` ones fails. -/
def SerenaFS.failsAt (fs : SerenaFS) (index : Nat) : Bool := (fs.disk.faults[index]?).any Option.isSome

def SerenaFS.transferred (fs : SerenaFS) : SerenaFS :=
  { fs with disk := { fs.disk with faults := fs.disk.faults.tail } }

theorem getBlock_outcome (fs : SerenaFS) (lba : Nat) :
    (getBlock lba fs = .err .EIOError fs.transferred) ∨
      (fs.failsAt 0 = false ∧ getBlock lba fs = .ok (fs.disk.block lba) fs.transferred) := by
  unfold getBlock onDisk Disk.getBlock SerenaFS.transferred SerenaFS.failsAt
  rcases faults : fs.disk.faults with _ | ⟨_ | garbage, rest⟩
  · by_cases onDisk : lba < fs.disk.blockCount <;> simp [onDisk]
  · by_cases onDisk : lba < fs.disk.blockCount <;> simp [onDisk]
  · simp

theorem putBlock_outcome (fs : SerenaFS) (block : Block) (lba : Nat) :
    (putBlock block lba fs = .err .EIOError fs.transferred) ∨
      (∃ garbage, fs.failsAt 0 = true ∧
        putBlock block lba fs = .err .EIOError (fs.transferred.writeBlock lba garbage)) ∨
      (fs.failsAt 0 = false ∧ putBlock block lba fs = .ok () (fs.transferred.writeBlock lba block)) := by
  unfold putBlock onDisk Disk.putBlock SerenaFS.transferred SerenaFS.failsAt SerenaFS.writeBlock
  rcases faults : fs.disk.faults with _ | ⟨_ | garbage, rest⟩
  · by_cases onDisk : lba < fs.disk.blockCount <;> simp [onDisk]
  · by_cases onDisk : lba < fs.disk.blockCount <;> simp [onDisk]
  · exact .inr (.inl ⟨garbage, by simp⟩)

end Apollo.Serenafs
