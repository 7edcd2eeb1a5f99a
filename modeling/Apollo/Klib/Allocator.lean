import Apollo.Filesystem.Inode
import Apollo.Klib.List

/-!
# The heap

`Allocator.c` of the kernel and of the C library, which differ in the type of
the sizes.  Addresses have 32 bits, and so has the arithmetic with them.  The
headers of the memory blocks are in the memory that they describe; a header is
known by its address, and what else is stored in the memory does not matter.

`none` is a call that does not return: it follows a null pointer, fails its
assertion, or goes around a list that does not end.
-/

set_option autoImplicit false

namespace Apollo.Klib

/-- The type of the sizes: `ssize_t` in the kernel, `size_t` in the C library. -/
inductive HeapBuild
  | kernel
  | libc
  deriving DecidableEq

def HeapBuild.toSize : HeapBuild → Int → Int
  | kernel, x => x.bmod 4294967296
  | libc, x => x.emod 4294967296

def kMemBlockSize : Nat := 8

def kMemRegionSize : Nat := 16

def kAllocatorSize : Nat := 12

def charPtrMax : Nat := 4294967295

def ceilPtr (x : Nat) : Nat := (x + 7) % 4294967296 / 8 * 8

def floorPtr (x : Nat) : Nat := x / 8 * 8

def kCpuPageSize : Nat := 4096

/-- `__Ceil_PowerOf2(size, CPU_PAGE_SIZE)`. -/
def ceilPage (size : Nat) : Nat := (size + 4095) % 4294967296 / 4096 * 4096

def addPtr (ptr : Nat) (count : Int) : Nat := ((ptr + count) % 4294967296).toNat

structure Headers where
  next : Links Nat
  size : Nat → Int

namespace Headers

def setNext (headers : Headers) (block : Nat) (next : Option Nat) : Headers :=
  { headers with next := Function.update headers.next block next }

def setSize (headers : Headers) (block : Nat) (size : Int) : Headers :=
  { headers with size := Function.update headers.size block size }

section
variable (headers : Headers) {block other : Nat} (next : Option Nat) (size : Int)

@[simp] theorem setNext_size : (headers.setNext block next).size = headers.size := rfl

@[simp] theorem setSize_next : (headers.setSize block size).next = headers.next := rfl

@[simp] theorem setNext_next_self : (headers.setNext block next).next block = next := Function.update_self ..

@[simp] theorem setSize_size_self : (headers.setSize block size).size block = size := Function.update_self ..

theorem setNext_next_of_ne (apart : other ≠ block) : (headers.setNext block next).next other = headers.next other :=
  Function.update_of_ne apart ..

theorem setSize_size_of_ne (apart : other ≠ block) : (headers.setSize block size).size other = headers.size other :=
  Function.update_of_ne apart ..

end

end Headers

structure MemRegion where
  lower : Nat
  upper : Nat
  firstFreeBlock : Option Nat
  deriving DecidableEq

structure MemoryDescriptor where
  lower : Nat
  upper : Nat
  deriving DecidableEq

structure Allocator where
  headers : Headers
  regions : List MemRegion
  firstAllocatedBlock : Option Nat

def kBlockCapacity : Nat := 4294967296

variable (build : HeapBuild)

namespace MemRegion

/-- `MemRegion_Create`.  The difference of the pointers is compared as an unsigned number. -/
def create (headers : Headers) (pMemRegionHeader : Nat) (pMemDesc : MemoryDescriptor) : Option (Headers × MemRegion) :=
  let pMemRegionBase := ceilPtr pMemRegionHeader
  let pFreeLower := ceilPtr (addPtr pMemRegionBase kMemRegionSize)
  let pFreeUpper := floorPtr pMemDesc.upper
  if pFreeUpper > pMemDesc.upper then none
  else if addPtr pFreeUpper (-pFreeLower) ≤ kMemBlockSize then none
  else
    let headers := (headers.setNext pFreeLower none).setSize pFreeLower (build.toSize (pFreeUpper - pFreeLower))
    some (headers, ⟨pMemDesc.lower, pMemDesc.upper, some pFreeLower⟩)

def isManaging (pMemRegion : MemRegion) (pAddress : Nat) : Bool :=
  pAddress ≥ pMemRegion.lower && pAddress < pMemRegion.upper

/-- The search of `MemRegion_AllocMemBlock`: the block in front of the one that was found, and this one. -/
def findFit (headers : Headers) (nBytesToAlloc : Int) : Nat → Option Nat → Option Nat → Option (Option (Option Nat × Nat))
  | _, none, _ => some none
  | 0, some _, _ => none
  | fuel + 1, some pCurBlock, pPrevFoundBlock =>
    if headers.size pCurBlock ≥ nBytesToAlloc then some (some (pPrevFoundBlock, pCurBlock))
    else findFit headers nBytesToAlloc fuel (headers.next pCurBlock) (some pCurBlock)

def setLink (headers : Headers) (pMemRegion : MemRegion) (pPrevBlock : Option Nat) (next : Option Nat) : Headers × MemRegion :=
  match pPrevBlock with
  | some prev => (headers.setNext prev next, pMemRegion)
  | none => (headers, { pMemRegion with firstFreeBlock := next })

def allocMemBlock (headers : Headers) (pMemRegion : MemRegion) (nBytesToAlloc : Int) :
    Option (Headers × MemRegion × Option Nat) := do
  let found ← findFit headers nBytesToAlloc kBlockCapacity pMemRegion.firstFreeBlock none
  match found with
  | none => some (headers, pMemRegion, none)
  | some (pPrevFoundBlock, pFoundBlock) =>
    if headers.size pFoundBlock = nBytesToAlloc then
      let (headers, pMemRegion) := setLink headers pMemRegion pPrevFoundBlock (headers.next pFoundBlock)
      some (headers.setNext pFoundBlock none, pMemRegion, some pFoundBlock)
    else
      let pRemainingFreeBlock := addPtr pFoundBlock nBytesToAlloc
      let headers := headers.setNext pRemainingFreeBlock (headers.next pFoundBlock)
      let headers := headers.setSize pRemainingFreeBlock (build.toSize (headers.size pFoundBlock - nBytesToAlloc))
      let (headers, pMemRegion) := setLink headers pMemRegion pPrevFoundBlock (some pRemainingFreeBlock)
      let headers := headers.setSize pFoundBlock nBytesToAlloc
      some (headers.setNext pFoundBlock none, pMemRegion, some pFoundBlock)

/-- What the search of `MemRegion_FreeMemBlock` finds. -/
structure Neighbors where
  pLowerFreeBlock : Option Nat
  pUpperFreeBlock : Option Nat
  isLowerFreeBlockAdjacent : Bool
  isUpperFreeBlockAdjacent : Bool
  deriving DecidableEq

/-- The search of `MemRegion_FreeMemBlock`. -/
def findNeighbors (headers : Headers) (pLowerToFree pUpperToFree : Nat) : Nat → Option Nat → Neighbors → Option Neighbors
  | _, none, found => some found
  | 0, some _, _ => none
  | fuel + 1, some pCurBlock, found =>
    let pCurBlockUpper := addPtr pCurBlock (headers.size pCurBlock)
    if pCurBlockUpper ≤ pLowerToFree then
      findNeighbors headers pLowerToFree pUpperToFree fuel (headers.next pCurBlock)
        { found with
          pLowerFreeBlock := some pCurBlock
          isLowerFreeBlockAdjacent := pCurBlockUpper == pLowerToFree }
    else if pCurBlock ≥ pUpperToFree then
      some
        { found with
          pUpperFreeBlock := some pCurBlock
          isUpperFreeBlockAdjacent := pCurBlock == pUpperToFree }
    else findNeighbors headers pLowerToFree pUpperToFree fuel (headers.next pCurBlock) found

def freeMemBlock (headers : Headers) (pMemRegion : MemRegion) (pBlockToFree : Nat) : Option (Headers × MemRegion) := do
  if headers.next pBlockToFree ≠ none then none
  else
    let pUpperToFree := addPtr pBlockToFree (headers.size pBlockToFree)
    let found ← findNeighbors headers pBlockToFree pUpperToFree kBlockCapacity pMemRegion.firstFreeBlock
      ⟨none, none, false, false⟩
    match found.isLowerFreeBlockAdjacent, found.isUpperFreeBlockAdjacent with
    | false, false =>
      match found.pLowerFreeBlock with
      | some pLowerFreeBlock =>
        let headers := headers.setNext pBlockToFree (headers.next pLowerFreeBlock)
        some (headers.setNext pLowerFreeBlock (some pBlockToFree), pMemRegion)
      | none =>
        some (headers.setNext pBlockToFree found.pUpperFreeBlock, { pMemRegion with firstFreeBlock := some pBlockToFree })
    | false, true =>
      let pUpperFreeBlock ← found.pUpperFreeBlock
      let headers := headers.setSize pBlockToFree
        (build.toSize (headers.size pBlockToFree + headers.size pUpperFreeBlock))
      let headers := headers.setNext pBlockToFree (headers.next pUpperFreeBlock)
      let (headers, pMemRegion) := setLink headers pMemRegion found.pLowerFreeBlock (some pBlockToFree)
      some ((headers.setNext pUpperFreeBlock none).setSize pUpperFreeBlock 0, pMemRegion)
    | true, false =>
      let pLowerFreeBlock ← found.pLowerFreeBlock
      let headers := headers.setSize pLowerFreeBlock
        (build.toSize (headers.size pLowerFreeBlock + headers.size pBlockToFree))
      some ((headers.setNext pBlockToFree none).setSize pBlockToFree 0, pMemRegion)
    | true, true =>
      let pLowerFreeBlock ← found.pLowerFreeBlock
      let pUpperFreeBlock ← found.pUpperFreeBlock
      let headers := headers.setSize pLowerFreeBlock
        (build.toSize (headers.size pLowerFreeBlock + headers.size pBlockToFree + headers.size pUpperFreeBlock))
      let headers := headers.setNext pLowerFreeBlock (headers.next pUpperFreeBlock)
      let headers := (headers.setNext pBlockToFree none).setSize pBlockToFree 0
      some ((headers.setNext pUpperFreeBlock none).setSize pUpperFreeBlock 0, pMemRegion)

end MemRegion

namespace Allocator

/-- `Allocator_Create`; `headers` is what the memory holds. -/
def create (headers : Headers) (pMemDesc : MemoryDescriptor) : Except Errno Allocator :=
  let pAllocatorBase := ceilPtr pMemDesc.lower
  let pFirstMemRegionBase := addPtr pAllocatorBase kAllocatorSize
  match MemRegion.create build headers pFirstMemRegionBase pMemDesc with
  | none => .error .ENOMEM
  | some (headers, pFirstRegion) => .ok ⟨headers, [pFirstRegion], none⟩

def addMemoryRegion (pAllocator : Allocator) (pMemDesc : MemoryDescriptor) : Except Errno Unit × Allocator :=
  match MemRegion.create build pAllocator.headers pMemDesc.lower pMemDesc with
  | none => (.error .ENOMEM, pAllocator)
  | some (headers, pMemRegion) =>
    (.ok (), { pAllocator with headers := headers, regions := pAllocator.regions ++ [pMemRegion] })

/-- The loop of `Allocator_AllocateBytes`. -/
def allocFromRegions (nBytesToAlloc : Int) : List MemRegion → Headers → Option (Headers × List MemRegion × Option Nat)
  | [], headers => some (headers, [], none)
  | pCurRegion :: rest, headers => do
      let (headers, pCurRegion, pMemBlock) ← MemRegion.allocMemBlock build headers pCurRegion nBytesToAlloc
      match pMemBlock with
      | some _ => some (headers, pCurRegion :: rest, pMemBlock)
      | none =>
        let (headers, rest, pMemBlock) ← allocFromRegions nBytesToAlloc rest headers
        some (headers, pCurRegion :: rest, pMemBlock)

/-- How many bytes `Allocator_AllocateBytes` takes from free memory. -/
def bytesToAlloc (nbytes : Nat) : Int := build.toSize ((kMemBlockSize + nbytes + 7) % 4294967296 / 8 * 8 : Nat)

def allocateBytes (pAllocator : Allocator) (nbytes : Nat) : Option (Except Errno Nat × Allocator) :=
  if nbytes = 0 then some (.ok charPtrMax, pAllocator)
  else do
    let (headers, regions, pMemBlock) ← allocFromRegions build (bytesToAlloc build nbytes) pAllocator.regions pAllocator.headers
    match pMemBlock with
    | none => some (.error .ENOMEM, { pAllocator with headers := headers, regions := regions })
    | some pMemBlock =>
      some (.ok (addPtr pMemBlock kMemBlockSize),
        { headers := headers.setNext pMemBlock pAllocator.firstAllocatedBlock
          regions := regions
          firstAllocatedBlock := some pMemBlock })

/-- The loop of `Allocator_DeallocateBytes`: the block in front of the one to free, when this is on the list. -/
def findAllocated (headers : Headers) (pBlockToFree : Nat) : Nat → Option Nat → Option Nat → Option (Option (Option Nat))
  | _, none, _ => some none
  | 0, some _, _ => none
  | fuel + 1, some pCurBlock, pPrevBlock =>
    if pCurBlock = pBlockToFree then some (some pPrevBlock)
    else findAllocated headers pBlockToFree fuel (headers.next pCurBlock) (some pCurBlock)

/-- The part of `Allocator_DeallocateBytes` that takes the block from the list of allocated blocks. -/
def unlinkAllocated (pAllocator : Allocator) (pBlockToFree : Nat) : Option Allocator := do
  let found ← findAllocated pAllocator.headers pBlockToFree kBlockCapacity pAllocator.firstAllocatedBlock none
  match found with
  | none => some pAllocator
  | some (some pPrevBlock) =>
    let headers := pAllocator.headers.setNext pPrevBlock (pAllocator.headers.next pBlockToFree)
    some { pAllocator with headers := headers.setNext pBlockToFree none }
  | some none =>
    some
      { pAllocator with
        headers := pAllocator.headers.setNext pBlockToFree none
        firstAllocatedBlock := pAllocator.headers.next pBlockToFree }

/-- `MemRegion_FreeMemBlock` in the region that manages the pointer, which is the first one that does. -/
def freeInRegions (ptr pBlockToFree : Nat) : List MemRegion → Headers → Option (Headers × List MemRegion)
  | [], _ => none
  | pMemRegion :: rest, headers =>
    if pMemRegion.isManaging ptr then do
      let (headers, pMemRegion) ← MemRegion.freeMemBlock build headers pMemRegion pBlockToFree
      some (headers, pMemRegion :: rest)
    else do
      let (headers, rest) ← freeInRegions ptr pBlockToFree rest headers
      some (headers, pMemRegion :: rest)

def deallocateBytes (pAllocator : Allocator) (ptr : Nat) : Option (Except Errno Unit × Allocator) :=
  if ptr = 0 ∨ ptr = charPtrMax then some (.ok (), pAllocator)
  else if ¬(∃ pMemRegion ∈ pAllocator.regions, pMemRegion.isManaging ptr = true) then some (.error .ENOTBLK, pAllocator)
  else do
    let pBlockToFree := addPtr ptr (-kMemBlockSize)
    let pAllocator ← pAllocator.unlinkAllocated pBlockToFree
    if pAllocator.headers.next pBlockToFree ≠ none then some (.error .ENOTBLK, pAllocator)
    else
      let (headers, regions) ← freeInRegions build ptr pBlockToFree pAllocator.regions pAllocator.headers
      some (.ok (), { pAllocator with headers := headers, regions := regions })

end Allocator

end Apollo.Klib
