import Apollo.Klib.MemoryCopy
import Apollo.Process.ProcessArguments

/-!
# Loading GemDOS executables

`GemDosExecutableLoader.c`.  The file is the list of its bytes; whether it can be opened, whether
the address space has room in its list of blocks and what `kalloc` gives are parameters.  An
access outside of the block of the image is none, and so is an assertion that fails.
-/

set_option autoImplicit false

namespace Apollo.Process

open Klib Lib

/-- The fields of `GemDosExecutableHeader` that the loader looks at. -/
structure GemDosExecutableHeader where
  magic : Nat
  textSize : Int
  dataSize : Int
  bssSize : Int
  symbolTableSize : Int
  isAbsolute : Nat
  deriving DecidableEq

def gemDosExecMagic : Nat := 0x601a

/-- `sizeof(GemDosExecutableHeader)` where words are aligned to two bytes. -/
def sizeOfHeader : Nat := 28

/-- A word as an `int32_t`. -/
def int32 (word : Nat) : Int := if word < 2147483648 then word else (word : Int) - 4294967296

def GemDosExecutableHeader.ofBytes (bytes : List UInt8) : GemDosExecutableHeader where
  magic := beNumber (bytes.take 2)
  textSize := int32 (beNumber ((bytes.drop 2).take 4))
  dataSize := int32 (beNumber ((bytes.drop 6).take 4))
  bssSize := int32 (beNumber ((bytes.drop 10).take 4))
  symbolTableSize := int32 (beNumber ((bytes.drop 14).take 4))
  isAbsolute := beNumber ((bytes.drop 26).take 2)

/-- `IOResource_Read` behind `File_SetOffset`.  A count from 2^31 on is a negative `ssize_t`. -/
def readFile (file : List UInt8) (offset nBytesToRead : Nat) : List UInt8 :=
  if nBytesToRead < 2147483648 then (file.drop offset).take nBytesToRead else []

/-! ## Sizes -/

namespace GemDosExecutableHeader

variable (hdr : GemDosExecutableHeader) (fileSize : Nat)

def nbytesToRead : Nat := (sizeOfHeader + hdr.textSize.toNat + hdr.dataSize.toNat) % 4294967296

def fileOffsetToReloc : Nat := (hdr.nbytesToRead + hdr.symbolTableSize.toNat) % 4294967296

def relocSize : Nat := (((fileSize : Int) - hdr.fileOffsetToReloc) % 4294967296).toNat

def nbytesToAlloc : Nat := ceilPage ((hdr.nbytesToRead + max hdr.bssSize.toNat (hdr.relocSize fileSize)) % 4294967296)

end GemDosExecutableHeader

/-! ## Relocation -/

structure Relocated where
  memory : Nat → UInt8
  locations : List Nat

section Relocation
variable {size : Nat} (block : Region size) (offset : Nat)

/-- `*((uint32_t*) pLoc) += offset`. -/
def relocWord (pLoc : Nat) (relocated : Relocated) : Option Relocated :=
  if block.Contains pLoc 4 then
    some ⟨storeWord relocated.memory pLoc (wordAt relocated.memory pLoc + offset), pLoc :: relocated.locations⟩
  else none

/-- The loop of `GemDosExecutableLoader_RelocExecutable`, with `remaining` bytes of the block from `p` on. -/
def relocLoop : Nat → Nat → Relocated → Option Relocated
  | 0, _, _ => none
  | remaining + 1, pLoc, relocated =>
    let b := relocated.memory (block.base + size - (remaining + 1))
    if b = 0 then some relocated
    else if b = 1 then relocLoop remaining ((pLoc + 254) % 4294967296) relocated
    else do
      let pLoc := (pLoc + b.toNat) % 4294967296
      let relocated ← relocWord block offset pLoc relocated
      relocLoop remaining pLoc relocated

/-- `GemDosExecutableLoader_RelocExecutable`; `offset` is the base of the text. -/
def relocExecutable (pRelocBase : Nat) (memory : Nat → UInt8) : Option Relocated := do
  let word ← block.load memory pRelocBase 4
  let firstRelocOffset := beNumber word
  if firstRelocOffset = 0 then some ⟨memory, []⟩
  else
    let pLoc := (offset + firstRelocOffset) % 4294967296
    let relocated ← relocWord block offset pLoc ⟨memory, []⟩
    relocLoop block offset (block.base + size - (pRelocBase + 4)) pLoc relocated

end Relocation

/-! ## The loader -/

structure LoaderWorld where
  opened : Except Errno Unit
  memBlocks : Except Errno Unit
  kalloc : (size : Nat) → Option (Region size)

/-- `AddressSpace_Allocate`.  `kalloc` asserts that the count is not negative. -/
def LoaderWorld.allocate (world : LoaderWorld) (count : Nat) : Option (Except Errno (Region count)) :=
  if count = 0 then some (.error .EINVAL)
  else if count / kCpuPageSize * kCpuPageSize ≠ count then some (.error .EINVAL)
  else
    match world.memBlocks with
    | .error err => some (.error err)
    | .ok () =>
      if count < 2147483648 then
        match world.kalloc count with
        | none => some (.error .ENOMEM)
        | some block => some (.ok block)
      else none

structure Image where
  memory : Nat → UInt8
  imageBase : Nat
  entryPoint : Nat
  /-- The locations that have been relocated, newest first. -/
  relocations : List Nat

section Filling
variable {size : Nat} (block : Region size)

def readInto (memory : Nat → UInt8) (pBuffer : Nat) (bytes : List UInt8) : Option (Nat → UInt8) :=
  if bytes = [] then some memory else block.store memory pBuffer bytes

/-- `memset` with zeros. -/
def clear (memory : Nat → UInt8) (dst count : Nat) : Option (Nat → UInt8) :=
  if count = 0 ∨ block.Contains dst count then some (Memory.memset dst 0 count memory) else none

/-- The part of `GemDosExecutableLoader_Load` behind the allocation. -/
def loadInto (file : List UInt8) (hdr : GemDosExecutableHeader) (memory : Nat → UInt8) : Option (Except Errno Image) := do
  let pImageBase := block.base
  let bytes := readFile file 0 hdr.nbytesToRead
  let memory ← readInto block memory pImageBase bytes
  if bytes.length ≠ hdr.nbytesToRead then some (.error .EIOError)
  else
    let pRelocBase := pImageBase + hdr.nbytesToRead
    let bytes := readFile file hdr.fileOffsetToReloc (hdr.relocSize file.length)
    let memory ← readInto block memory pRelocBase bytes
    if bytes.length ≠ hdr.relocSize file.length then some (.error .EIOError)
    else
      let pTextBase := pImageBase + sizeOfHeader
      let relocated ← relocExecutable block pTextBase pRelocBase memory
      let memory ← clear block relocated.memory pRelocBase hdr.bssSize.toNat
      some (.ok ⟨memory, pImageBase, pTextBase, relocated.locations⟩)

end Filling

def checkHeader (hdr : GemDosExecutableHeader) : Except Errno Unit :=
  if hdr.magic ≠ gemDosExecMagic then .error .ENOEXEC
  else if hdr.textSize ≤ 0 then .error .EINVAL
  else if hdr.dataSize < 0 ∨ hdr.bssSize < 0 ∨ hdr.symbolTableSize < 0 then .error .EINVAL
  else if hdr.isAbsolute ≠ 0 then .error .EINVAL
  else .ok ()

def acceptFile (world : LoaderWorld) (file : List UInt8) : Except Errno GemDosExecutableHeader := do
  let fileSize := file.length
  if fileSize < sizeOfHeader then throw .ENOEXEC
  else if fileSize > 4294967295 then throw .ENOMEM
  else
    world.opened
    let bytes := readFile file 0 sizeOfHeader
    if bytes.length < sizeOfHeader then throw .ENOEXEC
    else
      let hdr := GemDosExecutableHeader.ofBytes bytes
      checkHeader hdr
      return hdr

def loadAccepted (world : LoaderWorld) (file : List UInt8) (hdr : GemDosExecutableHeader) (memory : Nat → UInt8) :
    Option (Except Errno Image) :=
  match world.allocate (hdr.nbytesToAlloc file.length) with
  | none => none
  | some (.error err) => some (.error err)
  | some (.ok block) => loadInto block file hdr memory

def load (world : LoaderWorld) (file : List UInt8) (memory : Nat → UInt8) : Option (Except Errno Image) :=
  match acceptFile world file with
  | .error err => some (.error err)
  | .ok hdr => loadAccepted world file hdr memory

end Apollo.Process
