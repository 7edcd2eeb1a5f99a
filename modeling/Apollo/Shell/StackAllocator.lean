import Apollo.Lib.Intervals
import Apollo.Lib.Runs

/-!
# The stack allocator of the shell

`StackAllocator.c` of the data model ILP32.  A chain of pages is the list of its pages, and
a store to `next` of a page cuts the chain behind it.  `malloc` is a parameter of a call;
the pages that it has delivered and the ones that were passed to `free` are kept beside the
allocator.

`tos` is not advanced to a new page.  The third page of a stack is linked behind the first
one, and the second one is lost.
-/

set_option autoImplicit false

namespace Apollo.Shell

open Lib

/-- One more than the largest `size_t`. -/
def kAddressSpaceSize : Nat := 4294967296

def kHeapAlignment : Nat := 8

/-- `__Ceil_PowerOf2(size, HEAP_ALIGNMENT)`. -/
def ceilHeapAlignment (size : Nat) : Nat := (size + 7) % kAddressSpaceSize / 8 * 8

structure StackPage where
  address : Nat
  pageCapacity : Nat
  deriving DecidableEq

def StackPage.region (page : StackPage) : Interval := ⟨page.address, kHeapAlignment + page.pageCapacity⟩

def StackPage.body (page : StackPage) : Interval := ⟨page.address + kHeapAlignment, page.pageCapacity⟩

structure StackAllocator where
  bos : List StackPage
  tos : Option Nat
  cache : List StackPage
  tosPtr : Nat
  tosPageEndPtr : Nat
  pageSize : Nat
  pageCacheBytesCapacity : Nat
  pageCacheBytesCount : Nat
  deriving DecidableEq

/-- `tos->next = page` and `page->next = NULL` on the chain of `bos`. -/
def linkBehind (tos : Nat) (page : StackPage) : List StackPage → List StackPage
  | [] => []
  | first :: rest => if first.address = tos then [first, page] else first :: linkBehind tos page rest

def takeCached (nbytes : Nat) : List StackPage → Option (StackPage × List StackPage)
  | [] => none
  | page :: rest =>
    if page.pageCapacity ≥ nbytes then some (page, rest)
    else (takeCached nbytes rest).map fun taken => (taken.1, page :: taken.2)

namespace StackAllocator

def create (pageSize pageCacheCapacity : Nat) : StackAllocator where
  bos := []
  tos := none
  cache := []
  tosPtr := 0
  tosPageEndPtr := 0
  pageSize := if pageSize < 4 * kHeapAlignment then 4 * kHeapAlignment else pageSize
  pageCacheBytesCapacity := pageCacheCapacity
  pageCacheBytesCount := 0

def push (self : StackAllocator) (page : StackPage) : StackAllocator :=
  { self with
    bos := match self.tos with
      | some tos => linkBehind tos page self.bos
      | none => [page]
    tos := match self.tos with
      | some tos => some tos
      | none => some page.address
    tosPtr := (page.address + kHeapAlignment) % kAddressSpaceSize
    tosPageEndPtr := (page.address + self.pageSize) % kAddressSpaceSize }

def alignedPageSize (self : StackAllocator) (nbytes : Nat) : Nat :=
  ceilHeapAlignment (if nbytes > self.pageSize then nbytes else self.pageSize)

/-- What a new page asks `malloc` for. -/
def pageBlockSize (self : StackAllocator) (nbytes : Nat) : Nat :=
  (self.alignedPageSize nbytes + kHeapAlignment) % kAddressSpaceSize

/-- `StackAllocator_AllocateBackingStore`: the allocator and the page that came from `malloc`, or `none` for `ENOMEM`. -/
def allocateBackingStore (self : StackAllocator) (malloc : Nat → Option Nat) (nbytes : Nat) :
    Option (StackAllocator × Option StackPage) :=
  match takeCached nbytes self.cache with
  | some (page, rest) =>
    let count := (self.pageCacheBytesCount + kAddressSpaceSize - page.pageCapacity) % kAddressSpaceSize
    some (push { self with cache := rest, pageCacheBytesCount := count } page, none)
  | none =>
    match malloc (self.pageBlockSize nbytes) with
    | some address =>
      let page : StackPage := ⟨address, self.alignedPageSize nbytes⟩
      some (self.push page, some page)
    | none => none

def NeedsPage (self : StackAllocator) (nbytes : Nat) : Prop :=
  (self.tosPtr + ceilHeapAlignment nbytes) % kAddressSpaceSize > self.tosPageEndPtr

instance (self : StackAllocator) (nbytes : Nat) : Decidable (self.NeedsPage nbytes) := Nat.decLt ..

def advance (self : StackAllocator) (nbytes : Nat) : Nat × StackAllocator :=
  (self.tosPtr, { self with tosPtr := (self.tosPtr + ceilHeapAlignment nbytes) % kAddressSpaceSize })

/-- `StackAllocator_Alloc`: the pointer, the allocator and the page that came from `malloc`. -/
def alloc (self : StackAllocator) (malloc : Nat → Option Nat) (nbytes : Nat) : Nat × StackAllocator × Option StackPage :=
  if nbytes = 0 then (kAddressSpaceSize - 1, self, none)
  else if self.NeedsPage nbytes then
    match self.allocateBackingStore malloc nbytes with
    | some (self, page) => ((self.advance nbytes).1, (self.advance nbytes).2, page)
    | none => (0, self, none)
  else ((self.advance nbytes).1, (self.advance nbytes).2, none)

/-- The loop of `StackAllocator_DeallocAll`: the allocator and the pages that were freed. -/
def retireAll : List StackPage → StackAllocator → StackAllocator × List StackPage
  | [], self => (self, [])
  | page :: rest, self =>
    if (self.pageCacheBytesCount + page.pageCapacity) % kAddressSpaceSize < self.pageCacheBytesCapacity then
      retireAll rest
        { self with
          cache := page :: self.cache
          pageCacheBytesCount := (self.pageCacheBytesCount + page.pageCapacity) % kAddressSpaceSize }
    else
      let (self, freed) := retireAll rest self
      (self, page :: freed)

def deallocAll (self : StackAllocator) : StackAllocator × List StackPage :=
  retireAll self.bos { self with bos := [], tos := none, tosPtr := 0, tosPageEndPtr := 0 }

/-- `StackAllocator_Destroy`: the pages that were freed. -/
def destroy (self : StackAllocator) : List StackPage :=
  let (self, freed) := { self with pageCacheBytesCapacity := 0 }.deallocAll
  freed ++ self.cache

end StackAllocator

/-! ## Sessions -/

/-- The allocator, what `malloc` has delivered so far, what was freed, what was delivered and not freed, and the
blocks that were returned since all of them were given back. -/
structure StackSession where
  self : StackAllocator
  obtained : List StackPage
  freed : List StackPage
  live : List StackPage
  blocks : List Interval

def StackSession.create (pageSize pageCacheCapacity : Nat) : StackSession :=
  ⟨.create pageSize pageCacheCapacity, [], [], [], []⟩

inductive StackCall
  | alloc (nbytes : Nat)
  | deallocAll
  deriving DecidableEq

structure StackRequest where
  call : StackCall
  malloc : Nat → Option Nat

/-- What `malloc` promises: the memory is aligned, belongs to nobody else and ends inside the address space. -/
structure StackSession.Mallocs (session : StackSession) (malloc : Nat → Option Nat) : Prop where
  aligned : ∀ size address, malloc size = some address → kHeapAlignment ∣ address
  positive : ∀ size address, malloc size = some address → 0 < address
  inside : ∀ size address, malloc size = some address → address + size < kAddressSpaceSize
  apart : ∀ size address, malloc size = some address → ∀ page ∈ session.live, page.region.Apart ⟨address, size⟩

namespace StackSession

def perform (session : StackSession) (request : StackRequest) : StackSession :=
  match request.call with
  | .alloc nbytes =>
    let (pointer, self, page) := session.self.alloc request.malloc nbytes
    { session with
      self := self
      obtained := page.toList ++ session.obtained
      live := page.toList ++ session.live
      blocks := if pointer = 0 then session.blocks else ⟨pointer, nbytes⟩ :: session.blocks }
  | .deallocAll =>
    let (self, freed) := session.self.deallocAll
    { session with
      self := self
      freed := freed ++ session.freed
      live := session.live.diff freed
      blocks := [] }

/-- A step of a session.  `malloc` may refuse. -/
def Step (session : StackSession) (request : StackRequest) (after : StackSession) : Prop :=
  session.Mallocs request.malloc ∧ after = session.perform request

/-- Every block is aligned and inside one page that came from `malloc`, behind its header, and no two overlap. -/
structure Sound (session : StackSession) : Prop where
  aligned : ∀ block ∈ session.blocks, kHeapAlignment ∣ block.start
  inside : ∀ block ∈ session.blocks, ∃ page ∈ session.live, block.Within page.body
  apart : session.blocks.Pairwise Interval.Apart

end StackSession

end Apollo.Shell
