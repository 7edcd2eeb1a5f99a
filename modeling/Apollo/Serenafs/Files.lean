import Apollo.Serenafs.Nodes

/-!
# File content

Reading, writing and truncating the content of a node, as `SerenaFS.c` does it
block by block.  Offsets are 64-bit in the source and block indices are `int`,
so the index of a far offset is its block number modulo `2^32`.
-/

set_option autoImplicit false

namespace Apollo.Serenafs

open Lib

inductive SFSBlockMode where
  | read
  | write
  deriving DecidableEq, Repr

/-- The `int` block index of a file offset. -/
def blockIndex (offset : Int) : Int := toInt32 (toUInt32 (offset / kSFSBlockSize))

def blockOffset (offset : Int) : Nat := (offset % kSFSBlockSize).toNat

def getLogicalBlockAddressForFileBlockAddress (ref : InodeRef) (fba : Int) (mode : SFSBlockMode) :
    FS Nat :=
  if bound : 0 ≤ fba ∧ fba < kSFSMaxDirectDataBlockPointers then do
    let index : Fin kSFSMaxDirectDataBlockPointers := ⟨fba.toNat, by omega⟩
    let value ← node ref
    if value.blockMap index = 0 ∧ mode = .write then
      let lba ← allocateBlockLocked
      updateNode ref fun value =>
        { value with blockMap := Function.update value.blockMap index lba }
      pure lba
    else pure (value.blockMap index)
  else Code.throw .EFBIG

def fileBlock (ref : InodeRef) (fba : Int) (mode : SFSBlockMode) : FS (Nat × Block) := do
  let lba ← getLogicalBlockAddressForFileBlockAddress ref fba mode
  if lba = 0 then pure (0, Buffer.zero)
  else
    let block ← getBlock lba
    pure (lba, block)

/-- The loop of `SerenaFS_xRead`.  Every iteration reads at least one byte, so
the number of bytes that are asked for bounds the iterations. -/
def xReadLoop (ref : InodeRef) (fileSize : Int) :
    Nat → Int → Nat → List UInt8 → FS (List UInt8)
  | 0, _, _, read => pure read
  | fuel + 1, offset, nBytesToRead, read =>
    if 0 < nBytesToRead ∧ offset < fileSize then do
      let count := min (kSFSBlockSize - blockOffset offset)
        (min (fileSize - offset).toNat nBytesToRead)
      match ← Code.attempt (fileBlock ref (blockIndex offset) .read) with
      | .error reason => if read = [] then Code.throw reason else pure read
      | .ok (_, block) =>
        xReadLoop ref fileSize fuel (offset + count) (nBytesToRead - count)
          (read ++ block.slice (blockOffset offset) count)
    else pure read

def xRead (ref : InodeRef) (offset : Int) (nBytesToRead : Nat) : FS (List UInt8) :=
  if offset < 0 then Code.throw .EINVAL
  else do
    let value ← node ref
    let read ← xReadLoop ref value.size nBytesToRead offset nBytesToRead []
    if read = [] then pure read
    else
      updateNode ref fun value => { value with accessed := true }
      pure read

/-- The loop of `SerenaFS_xWrite`; the result is the offset that was reached and
the number of bytes written. -/
def xWriteLoop (ref : InodeRef) : Nat → Int → List UInt8 → Nat → FS (Int × Nat)
  | 0, offset, _, written => pure (offset, written)
  | fuel + 1, offset, data, written =>
    if data = [] then pure (offset, written)
    else do
      let count := min (kSFSBlockSize - blockOffset offset) data.length
      match ← Code.attempt (fileBlock ref (blockIndex offset) .write) with
      | .error reason => if written = 0 then Code.throw reason else pure (offset, written)
      | .ok (lba, block) =>
        match ← Code.attempt
          (putBlock (block.blit (blockOffset offset) (data.take count)) lba) with
        | .error reason => if written = 0 then Code.throw reason else pure (offset, written)
        | .ok _ => xWriteLoop ref fuel (offset + count) (data.drop count) (written + count)

def xWrite (ref : InodeRef) (offset : Int) (data : List UInt8) : FS Nat :=
  if offset < 0 then Code.throw .EINVAL
  else do
    let (reached, written) ← xWriteLoop ref data.length offset data 0
    if 0 < written then
      updateNode ref fun value =>
        { value with
          size := if value.size < reached then reached else value.size
          updated := true, statusChanged := true }
      pure written
    else pure written

/-- The loop of `SerenaFS_xTruncateFile` over the indices of the block map. -/
def xTruncateLoop (ref : InodeRef) (firstBlockIdx : Int) :
    List (Fin kSFSMaxDirectDataBlockPointers) → FS Unit
  | [] => pure ()
  | index :: rest => do
      let value ← node ref
      if firstBlockIdx ≤ index.val ∧ value.blockMap index ≠ 0 then
        deallocateBlockLocked (value.blockMap index)
        updateNode ref fun value =>
          { value with blockMap := Function.update value.blockMap index 0 }
        xTruncateLoop ref firstBlockIdx rest
      else xTruncateLoop ref firstBlockIdx rest

/-- The index from which on `SerenaFS_xTruncateFile` frees blocks; it is computed
from the old length. -/
def firstBlockIdx (oldLength : Int) : Int := blockIndex (oldLength + (kSFSBlockSize - 1))

def xTruncateFile (ref : InodeRef) (length : Int) : FS Unit := do
  let value ← node ref
  -- a negative index would make the loop start in front of the block map
  if firstBlockIdx value.size < 0 then Code.fault
  else
    xTruncateLoop ref (firstBlockIdx value.size) (List.finRange kSFSMaxDirectDataBlockPointers)
    updateNode ref fun value => { value.setUpdated with size := length }

def check (result : Option Errno) : FS Unit :=
  match result with
  | none => pure ()
  | some reason => Code.throw reason

def truncate (ref : InodeRef) (user : User) (length : Int) : FS Unit := do
  let value ← node ref
  if value.isDirectory then Code.throw .EISDIR
  else if !value.isRegularFile then Code.throw .ENOTDIR
  else if length < 0 then Code.throw .EINVAL
  else
    check (value.checkAccess user kFilePermissionWrite)
    if value.size < length then
      updateNode ref fun value => { value.setUpdated with size := length }
    else if length < value.size then xTruncateFile ref length
    else pure ()

end Apollo.Serenafs
