import Apollo.Klib.Requests

/-!
# kalloc

`kalloc_options` on top of the two heaps of the kernel, and which sizes a heap can
represent.
-/

set_option autoImplicit false

namespace Apollo.Klib

open Lib

/-- The sizes that are still there when the header was added and the sum was rounded up. -/
def HeapBuild.Represents : HeapBuild → Int → Prop
  | kernel, count => -8 < count ∧ count ≤ 2147483632
  | libc, count => count ≤ 4294967280

instance : (build : HeapBuild) → (count : Int) → Decidable (build.Represents count)
  | .kernel, count => inferInstanceAs (Decidable (-8 < count ∧ count ≤ 2147483632))
  | .libc, count => inferInstanceAs (Decidable (count ≤ 4294967280))

/-- The request is refused and nothing changes, or the block has room for it. -/
def Served (before : Allocator) (wanted : Int) : Option (Except Errno Nat × Allocator) → Prop
  | none => False
  | some (.error error, after) => error = .ENOMEM ∧ after = before
  | some (.ok ptr, after) => after.HasRoom ptr wanted

section Served
variable {build : HeapBuild} {pAllocator : Allocator} {layouts : List Layout} {blocks : List Tile} {nbytes : Nat}

/-- A size is represented exactly when the total has room for the header and the request. -/
theorem represents_iff (build : HeapBuild) (bound : nbytes < 4294967296) :
    build.Represents (build.toSize nbytes) ↔
      0 ≤ Allocator.bytesToAlloc build nbytes - kMemBlockSize ∧
        build.toSize nbytes ≤ Allocator.bytesToAlloc build nbytes - kMemBlockSize := by
  unfold Allocator.bytesToAlloc kMemBlockSize
  cases build with
  | kernel =>
    simp only [HeapBuild.Represents, HeapBuild.toSize, Int.bmod_def]
    omega
  | libc =>
    have whole : ∀ x : Int, x.emod 4294967296 = x % 4294967296 := fun _ => rfl
    simp only [HeapBuild.Represents, HeapBuild.toSize, whole]
    omega

theorem allocateBytes_outcome (holds : pAllocator.Holds layouts blocks) (placed : Placed build (layouts.map (·.placement)))
    (bound : nbytes < 4294967296) :
    (¬pAllocator.HasFree (Allocator.bytesToAlloc build nbytes) ∧
        pAllocator.allocateBytes build nbytes = some (.error .ENOMEM, pAllocator)) ∨
      (build.Represents (build.toSize nbytes) ∨ pAllocator.HasFree (Allocator.bytesToAlloc build nbytes)) ∧
        ∃ ptr after, pAllocator.allocateBytes build nbytes = some (.ok ptr, after) ∧
          (after.HasRoom ptr (build.toSize nbytes) ↔ build.Represents (build.toSize nbytes)) := by
  by_cases request : nbytes = 0
  · right
    subst request
    have represented : build.Represents (build.toSize (0 : Nat)) := by cases build <;> decide
    refine ⟨.inl represented, _, _, allocateBytes_empty .., iff_of_true ?_ represented⟩
    rw [Allocator.HasRoom, if_pos rfl]
    cases build <;> decide
  · rcases @allocateBytes_cases build _ _ _ _ holds placed request with
      ⟨noFit, refused⟩ | ⟨fits, ptr, after, served, -, regular, usable⟩
    · exact .inl ⟨fun free => noFit ((hasFit_iff holds).mpr free), refused⟩
    · refine .inr ⟨.inr ((hasFit_iff holds).mp fits), ptr, after, served, ?_⟩
      rw [Allocator.HasRoom, if_neg regular, usable, represents_iff build bound]

/-- What `Allocator_AllocateBytes` returns is large enough, unless the size is not represented and there is a free block
that seems to be large enough. -/
theorem allocateBytes_served_iff (holds : pAllocator.Holds layouts blocks) (placed : Placed build (layouts.map (·.placement)))
    (bound : nbytes < 4294967296) :
    Served pAllocator (build.toSize nbytes) (pAllocator.allocateBytes build nbytes) ↔
      build.Represents (build.toSize nbytes) ∨ ¬pAllocator.HasFree (Allocator.bytesToAlloc build nbytes) := by
  rcases allocateBytes_outcome holds placed bound with ⟨noFree, refused⟩ | ⟨either, ptr, after, served, room⟩
  · rw [refused]
    exact iff_of_true ⟨rfl, rfl⟩ (.inr noFree)
  · rw [served, Served, room]
    tauto

end Served

/-! ## The heaps of the kernel -/

structure KernelHeap where
  gUnifiedMemory : Allocator
  gCpuOnlyMemory : Allocator

structure KernelBlock where
  isUnified : Bool
  ptr : Nat

/-- How `kalloc_options` allocates unified memory. -/
def KernelHeap.allocUnified (heap : KernelHeap) (nbytes : Nat) (cleared : Int) :
    Option (Except Errno KernelBlock × KernelHeap × Int) := do
  let (reply, gUnifiedMemory) ← heap.gUnifiedMemory.allocateBytes .kernel nbytes
  let heap := { heap with gUnifiedMemory := gUnifiedMemory }
  match reply with
  | .error error => some (.error error, heap, 0)
  | .ok ptr => some (.ok ⟨true, ptr⟩, heap, cleared)

/-- `kalloc_options`, with how many bytes from the pointer on are cleared.  Of the errors of the memory for the CPU only
`ENOMEM` is looked at. -/
def kallocOptions (heap : KernelHeap) (nbytes : Int) (isUnified isCleared : Bool) :
    Option (Except Errno KernelBlock × KernelHeap × Int) :=
  let cleared := if isCleared then nbytes else 0
  if nbytes < 0 then none
  else if isUnified then heap.allocUnified nbytes.toNat cleared
  else do
    let (reply, gCpuOnlyMemory) ← heap.gCpuOnlyMemory.allocateBytes .kernel nbytes.toNat
    let heap := { heap with gCpuOnlyMemory := gCpuOnlyMemory }
    match reply with
    | .error .ENOMEM => heap.allocUnified nbytes.toNat cleared
    | .error _ => some (.ok ⟨false, 0⟩, heap, cleared)
    | .ok ptr => some (.ok ⟨false, ptr⟩, heap, cleared)

def KallocServed (before : KernelHeap) (wanted : Int) : Option (Except Errno KernelBlock × KernelHeap × Int) → Prop
  | none => False
  | some (.error error, after, _) => error = .ENOMEM ∧ after = before
  | some (.ok block, after, cleared) =>
    (if block.isUnified then after.gUnifiedMemory else after.gCpuOnlyMemory).HasRoom block.ptr (max wanted cleared)

section Kalloc
variable {heap : KernelHeap} {nbytes cleared : Int} {layouts layouts' : List Layout} {blocks blocks' : List Tile}

theorem kernel_represents (positive : 0 ≤ nbytes) (top : nbytes < 2147483648) :
    HeapBuild.kernel.toSize nbytes.toNat = nbytes ∧ (HeapBuild.kernel.Represents nbytes ↔ nbytes ≤ 2147483632) := by
  constructor
  · simp only [HeapBuild.toSize, Int.bmod_def]
    omega
  · simp only [HeapBuild.Represents]
    omega

theorem allocUnified_served_iff (holds : heap.gUnifiedMemory.Holds layouts blocks)
    (placed : Placed .kernel (layouts.map (·.placement))) (positive : 0 ≤ nbytes) (top : nbytes < 2147483648)
    (within : max nbytes cleared = nbytes) :
    KallocServed heap nbytes (heap.allocUnified nbytes.toNat cleared) ↔
      nbytes ≤ 2147483632 ∨ ¬heap.gUnifiedMemory.HasFree (Allocator.bytesToAlloc .kernel nbytes.toNat) := by
  obtain ⟨size, represents⟩ := kernel_represents positive top
  unfold KernelHeap.allocUnified
  rcases @allocateBytes_outcome _ _ _ _ nbytes.toNat holds placed (by omega) with
    ⟨noFree, refused⟩ | ⟨either, ptr, after, served, room⟩
  · rw [refused]
    exact iff_of_true ⟨rfl, rfl⟩ (.inr noFree)
  · rw [size] at either room
    rw [served]
    simp only [Option.bind_eq_bind, Option.bind_some, KallocServed, if_true]
    rw [within, room, ← represents]
    exact ⟨.inl, fun served => either.elim id fun free => served.resolve_right (not_not.mpr free)⟩

/-- What `kalloc_options` returns is large enough, unless the size is negative, or it is not represented and there is a
free block that seems to be large enough. -/
theorem kallocOptions_served_iff (holds : heap.gUnifiedMemory.Holds layouts blocks)
    (placed : Placed .kernel (layouts.map (·.placement))) (holds' : heap.gCpuOnlyMemory.Holds layouts' blocks')
    (placed' : Placed .kernel (layouts'.map (·.placement))) (isUnified isCleared : Bool) (top : nbytes < 2147483648) :
    KallocServed heap nbytes (kallocOptions heap nbytes isUnified isCleared) ↔
      0 ≤ nbytes ∧ (nbytes ≤ 2147483632 ∨
        ¬heap.gUnifiedMemory.HasFree (Allocator.bytesToAlloc .kernel nbytes.toNat) ∧
          (isUnified = false → ¬heap.gCpuOnlyMemory.HasFree (Allocator.bytesToAlloc .kernel nbytes.toNat))) := by
  unfold kallocOptions
  by_cases negative : nbytes < 0
  · rw [if_pos negative]
    exact iff_of_false id fun both => absurd both.1 (Int.not_le.mpr negative)
  · have positive := Int.not_lt.mp negative
    obtain ⟨size, represents⟩ := kernel_represents positive top
    have within : max nbytes (if isCleared then nbytes else 0) = nbytes := by
      cases isCleared
      · exact max_eq_left positive
      · exact max_self nbytes
    rw [if_neg negative]
    cases isUnified with
    | true =>
      rw [if_pos rfl, allocUnified_served_iff holds placed positive top within]
      simp [positive]
    | false =>
      rw [if_neg (by decide)]
      rcases @allocateBytes_outcome _ _ _ _ nbytes.toNat holds' placed' (by omega) with
        ⟨noFree, refused⟩ | ⟨either, ptr, after, served, room⟩
      · rw [refused]
        simp only [Option.bind_eq_bind, Option.bind_some]
        rw [allocUnified_served_iff holds placed positive top within]
        simp [positive, noFree]
      · rw [size] at either room
        rw [served]
        simp only [Option.bind_eq_bind, Option.bind_some, KallocServed]
        rw [if_neg (by decide), within, room, ← represents]
        constructor
        · exact fun represented => ⟨positive, .inl represented⟩
        · rintro ⟨-, represented | ⟨-, noFree⟩⟩
          · exact represented
          · exact either.resolve_right (noFree trivial)

end Kalloc

end Apollo.Klib
