import Apollo.Klib.Kalloc
import Apollo.Libc.Malloc

/-!
# calloc

The size of an array is a product that wraps around.
-/

set_option autoImplicit false

namespace Apollo.Libc

open Klib Lib

/-- `calloc`, with how many bytes from the pointer on are cleared. -/
def calloc (allocateAddressSpace : Nat → Except Errno Nat) (gAllocator : Allocator) (num size : Nat) :
    Option (Except Errno Nat × Allocator × Nat) := do
  let len := num * size % 4294967296
  let (reply, gAllocator) ← malloc allocateAddressSpace gAllocator len
  match reply with
  | .error error => some (.error error, gAllocator, 0)
  | .ok ptr => some (.ok ptr, gAllocator, len)

/-- The blocks stay as they are, next to those of a new region, or the block has room for the array and for what is
cleared. -/
def CallocServed (layouts : List Layout) (blocks : List Tile) (wanted : Nat) :
    Option (Except Errno Nat × Allocator × Nat) → Prop
  | none => False
  | some (.error _, after, _) => ∃ added, after.Holds (layouts ++ added) blocks
  | some (.ok ptr, after, cleared) => after.HasRoom ptr (max wanted cleared : Nat)

section Calloc
variable {allocateAddressSpace : Nat → Except Errno Nat} {pAllocator : Allocator} {layouts : List Layout} {blocks : List Tile}
  {num size : Nat}

theorem represents_product (wanted : Nat) :
    (0 ≤ Allocator.bytesToAlloc .libc (wanted % 4294967296) - kMemBlockSize ∧
        ((max wanted (wanted % 4294967296) : Nat) : Int) ≤ Allocator.bytesToAlloc .libc (wanted % 4294967296) - kMemBlockSize) ↔
      wanted ≤ 4294967280 := by
  have whole : ∀ x : Int, x.emod 4294967296 = x % 4294967296 := fun _ => rfl
  simp only [Allocator.bytesToAlloc, HeapBuild.toSize, kMemBlockSize, whole]
  omega

/-- What `calloc` returns has room for the array, unless the product wraps around, or its size is not represented, and
`malloc` returns something nevertheless. -/
theorem calloc_served_iff (holds : pAllocator.Holds layouts blocks) (placed : Placed .libc (layouts.map (·.placement)))
    (grants : Grants (layouts.map (·.placement)) allocateAddressSpace) (num size : Nat) :
    CallocServed layouts blocks (num * size) (calloc allocateAddressSpace pAllocator num size) ↔
      num * size ≤ 4294967280 ∨ num * size % 4294967296 ≠ 0 ∧
        ¬pAllocator.HasFree (Allocator.bytesToAlloc .libc (num * size % 4294967296)) ∧
        ((∃ refused, allocateAddressSpace (expansionFor (num * size % 4294967296)) = .error refused) ∨
          expansionFor (num * size % 4294967296) <
            Allocator.bytesToAlloc .libc (num * size % 4294967296) + kMemRegionSize) := by
  have product := represents_product (num * size)
  unfold calloc
  generalize num * size = wanted at *
  by_cases request : wanted % 4294967296 = 0
  · dsimp only
    rw [request, malloc_empty]
    simp only [Option.bind_eq_bind, Option.bind_some, CallocServed, Allocator.HasRoom, if_true, ne_eq, not_true_eq_false,
      false_and, or_false]
    omega
  · dsimp only
    rcases malloc_cases holds placed grants request with
      ⟨fits, does⟩ | ⟨noFit, refused, answer, does⟩ | ⟨noFit, ptr, region, grown, answer, placed', holds', does, roomy⟩
    · rw [does]
      rcases @allocateBytes_cases .libc _ _ _ _ holds placed request with ⟨noFit, -⟩ | ⟨-, ptr, after, served, -, regular, usable⟩
      · exact absurd fits noFit
      · rw [served]
        simp only [Option.bind_eq_bind, Option.bind_some, CallocServed]
        rw [Allocator.HasRoom, if_neg regular, usable, product]
        exact ⟨.inl, fun either => either.resolve_right fun fails => fails.2.1 ((hasFit_iff holds).mp fits)⟩
    · rw [does]
      refine iff_of_true ⟨[], ?_⟩ (.inr ⟨request, fun free => noFit ((hasFit_iff holds).mpr free), .inl ⟨refused, answer⟩⟩)
      rwa [List.append_nil]
    · have missing : ¬pAllocator.HasFree (Allocator.bytesToAlloc .libc (wanted % 4294967296)) :=
        fun free => noFit ((hasFit_iff holds).mpr free)
      rw [does]
      rcases @allocateBytes_cases .libc _ _ _ _ holds' placed' request with
        ⟨noFit', failed⟩ | ⟨fits', block, after, served, -, regular, usable⟩
      · rw [failed]
        refine iff_of_true ⟨_, holds'⟩ (.inr ⟨request, missing, .inr ?_⟩)
        exact Int.not_le.mp fun fits => noFit' (roomy.mpr fits)
      · rw [served]
        simp only [Option.bind_eq_bind, Option.bind_some, CallocServed]
        rw [Allocator.HasRoom, if_neg regular, usable, product]
        refine ⟨.inl, fun either => either.resolve_right ?_⟩
        rintro ⟨-, -, ⟨refused, isError⟩ | small⟩
        · rw [answer] at isError
          simp at isError
        · exact absurd (roomy.mp fits') (Int.not_le.mpr small)

/-- When a request is refused or served with enough room: on the heaps of both builds, through `kalloc_options`, and through
`calloc`. -/
theorem requests_served_iff (build : HeapBuild) :
    (∀ (pAllocator : Allocator) (layouts : List Layout) (blocks : List Tile) (nbytes : Nat),
        pAllocator.Holds layouts blocks → Placed build (layouts.map (·.placement)) → nbytes < 4294967296 →
          (Served pAllocator (build.toSize nbytes) (pAllocator.allocateBytes build nbytes) ↔
            build.Represents (build.toSize nbytes) ∨ ¬pAllocator.HasFree (Allocator.bytesToAlloc build nbytes))) ∧
      (∀ (heap : KernelHeap) (layouts layouts' : List Layout) (blocks blocks' : List Tile) (nbytes : Int)
          (isUnified isCleared : Bool),
        heap.gUnifiedMemory.Holds layouts blocks → Placed .kernel (layouts.map (·.placement)) →
          heap.gCpuOnlyMemory.Holds layouts' blocks' → Placed .kernel (layouts'.map (·.placement)) → nbytes < 2147483648 →
            (KallocServed heap nbytes (kallocOptions heap nbytes isUnified isCleared) ↔
              0 ≤ nbytes ∧ (nbytes ≤ 2147483632 ∨
                ¬heap.gUnifiedMemory.HasFree (Allocator.bytesToAlloc .kernel nbytes.toNat) ∧
                  (isUnified = false → ¬heap.gCpuOnlyMemory.HasFree (Allocator.bytesToAlloc .kernel nbytes.toNat))))) ∧
      ∀ (allocateAddressSpace : Nat → Except Errno Nat) (pAllocator : Allocator) (layouts : List Layout) (blocks : List Tile)
          (num size : Nat),
        pAllocator.Holds layouts blocks → Placed .libc (layouts.map (·.placement)) →
          Grants (layouts.map (·.placement)) allocateAddressSpace →
            (CallocServed layouts blocks (num * size) (calloc allocateAddressSpace pAllocator num size) ↔
              num * size ≤ 4294967280 ∨ num * size % 4294967296 ≠ 0 ∧
                ¬pAllocator.HasFree (Allocator.bytesToAlloc .libc (num * size % 4294967296)) ∧
                ((∃ refused, allocateAddressSpace (expansionFor (num * size % 4294967296)) = .error refused) ∨
                  expansionFor (num * size % 4294967296) <
                    Allocator.bytesToAlloc .libc (num * size % 4294967296) + kMemRegionSize)) := by
  refine ⟨?_, ?_, ?_⟩
  · intro pAllocator layouts blocks nbytes holds placed bound
    exact allocateBytes_served_iff holds placed bound
  · intro heap layouts layouts' blocks blocks' nbytes isUnified isCleared holds placed holds' placed' top
    exact kallocOptions_served_iff holds placed holds' placed' isUnified isCleared top
  · intro allocateAddressSpace pAllocator layouts blocks num size holds placed grants
    exact calloc_served_iff holds placed grants num size

theorem page_holds (build : HeapBuild) : ∃ pAllocator layouts blocks,
    Allocator.create build blankHeaders ⟨4096, 8192⟩ = .ok pAllocator ∧ pAllocator.Holds layouts blocks ∧
      Placed build (layouts.map (·.placement)) := by
  obtain ⟨pAllocator, created⟩ : ∃ pAllocator, Allocator.create build blankHeaders ⟨4096, 8192⟩ = .ok pAllocator := by
    cases build <;> exact ⟨_, rfl⟩
  have roomy : (Placement.first ⟨4096, 8192⟩).Roomy build := by cases build <;> decide
  obtain ⟨region, holds⟩ := Allocator.create_spec roomy created
  refine ⟨pAllocator, _, [], created, holds, ?_, List.pairwise_singleton ..⟩
  exact fun placement member => List.mem_singleton.mp member ▸ roomy

/-- Ten bytes of a page are a request that is served. -/
theorem requests_served_ten : ∃ pAllocator, Allocator.create .kernel blankHeaders ⟨4096, 8192⟩ = .ok pAllocator ∧
    Served pAllocator 10 (pAllocator.allocateBytes .kernel 10) := by
  obtain ⟨pAllocator, layouts, blocks, created, holds, placed⟩ := page_holds .kernel
  exact ⟨pAllocator, created,
    ((requests_served_iff .kernel).1 pAllocator layouts blocks 10 holds placed (by decide)).mpr (.inl (by decide))⟩

/-- The largest size gives a block of a negative size in the kernel and an empty one in the C library, and 268435457 pieces
of 16 bytes are an array of 16 bytes. -/
theorem requests_wrap :
    (∃ pAllocator after, Allocator.create .kernel blankHeaders ⟨4096, 8192⟩ = .ok pAllocator ∧
      pAllocator.allocateBytes .kernel 2147483647 = some (.ok 4136, after) ∧ after.usableSize 4136 = -2147483648 ∧
      ¬Served pAllocator 2147483647 (pAllocator.allocateBytes .kernel 2147483647)) ∧
    (∃ pAllocator after, Allocator.create .libc blankHeaders ⟨4096, 8192⟩ = .ok pAllocator ∧
      pAllocator.allocateBytes .libc 4294967295 = some (.ok 4136, after) ∧ after.usableSize 4136 = 0 ∧
      ¬Served pAllocator 4294967295 (pAllocator.allocateBytes .libc 4294967295)) ∧
    ∃ pAllocator after, Allocator.create .libc blankHeaders ⟨4096, 8192⟩ = .ok pAllocator ∧
      calloc oneGrant pAllocator 268435457 16 = some (.ok 4136, after, 16) ∧ after.usableSize 4136 = 16 ∧
      ¬after.HasRoom 4136 (268435457 * 16 : Nat) := by
  refine ⟨?_, ?_, ?_⟩
  · obtain ⟨pAllocator, after, created, does, usable⟩ : ∃ pAllocator after,
        Allocator.create .kernel blankHeaders ⟨4096, 8192⟩ = .ok pAllocator ∧
          pAllocator.allocateBytes .kernel 2147483647 = some (.ok 4136, after) ∧ after.usableSize 4136 = -2147483648 :=
      ⟨_, _, rfl, rfl, rfl⟩
    refine ⟨pAllocator, after, created, does, usable, ?_⟩
    rw [does, Served, Allocator.HasRoom, if_neg (by decide), usable]
    decide
  · obtain ⟨pAllocator, after, created, does, usable⟩ : ∃ pAllocator after,
        Allocator.create .libc blankHeaders ⟨4096, 8192⟩ = .ok pAllocator ∧
          pAllocator.allocateBytes .libc 4294967295 = some (.ok 4136, after) ∧ after.usableSize 4136 = 0 :=
      ⟨_, _, rfl, rfl, rfl⟩
    refine ⟨pAllocator, after, created, does, usable, ?_⟩
    rw [does, Served, Allocator.HasRoom, if_neg (by decide), usable]
    decide
  · obtain ⟨pAllocator, after, created, does, usable⟩ : ∃ pAllocator after,
        Allocator.create .libc blankHeaders ⟨4096, 8192⟩ = .ok pAllocator ∧
          calloc oneGrant pAllocator 268435457 16 = some (.ok 4136, after, 16) ∧ after.usableSize 4136 = 16 :=
      ⟨_, _, rfl, rfl, rfl⟩
    refine ⟨pAllocator, after, created, does, usable, ?_⟩
    rw [Allocator.HasRoom, if_neg (by decide), usable]
    decide

end Calloc

end Apollo.Libc
