import Apollo.Klib.Requests

/-!
# malloc

`malloc.c`.  The heap of a process grows by address space that the kernel allocates;
what it answers is a parameter.
-/

set_option autoImplicit false

namespace Apollo.Libc

open Klib Lib

def kInitialHeapSize : Nat := ceilPage 65536

def kExpansionHeapSize : Nat := ceilPage 65536

section Functions
variable (allocateAddressSpace : Nat → Except Errno Nat)

def expandBackingstoreBy (gAllocator : Allocator) (nbytes : Nat) : Except Errno Unit × Allocator :=
  match allocateAddressSpace nbytes with
  | .error err => (.error err, gAllocator)
  | .ok ptr => gAllocator.addMemoryRegion .libc ⟨ptr, addPtr ptr nbytes⟩

/-- How many bytes `__malloc` asks the kernel for. -/
def expansionFor (size : Nat) : Nat := min (ceilPage size) kExpansionHeapSize

/-- `__malloc`: the pointer, or the error that is stored in `errno`. -/
def malloc (gAllocator : Allocator) (size : Nat) : Option (Except Errno Nat × Allocator) := do
  let (reply, gAllocator) ← gAllocator.allocateBytes .libc size
  match reply with
  | .error .ENOMEM =>
    let (expanded, gAllocator) := expandBackingstoreBy allocateAddressSpace gAllocator (expansionFor size)
    match expanded with
    | .error err => some (.error err, gAllocator)
    | .ok () => gAllocator.allocateBytes .libc size
  | reply => some (reply, gAllocator)

end Functions

/-- What the kernel promises: memory is aligned and belongs to nobody else, and none is given when none is asked for. -/
structure Grants (placements : List Placement) (allocateAddressSpace : Nat → Except Errno Nat) : Prop where
  positive : ∀ ptr, allocateAddressSpace 0 ≠ .ok ptr
  aligned : ∀ nbytes ptr, allocateAddressSpace nbytes = .ok ptr → 8 ∣ ptr
  inside : ∀ nbytes ptr, allocateAddressSpace nbytes = .ok ptr → ptr + nbytes < 4294967296
  apart : ∀ nbytes ptr, allocateAddressSpace nbytes = .ok ptr →
    ∀ placement ∈ placements, placement.Apart (.added ⟨ptr, ptr + nbytes⟩)

def newPlacements (before after : Allocator) : List Placement :=
  (after.regions.drop before.regions.length).map fun region => .added ⟨region.lower, region.upper⟩

def InRange (size : Nat) : Prop := size + kCpuPageSize + kMemRegionSize < 4294967296

instance (size : Nat) : Decidable (InRange size) := inferInstanceAs (Decidable (_ < _))

inductive MallocAction
  | malloc (size : Nat)
  | free (ptr : Nat)
  | write

inductive MallocStep : HeapState → MallocAction → HeapState → Prop
  | allocated {heap : HeapState} {size ptr : Nat} {allocateAddressSpace : Nat → Except Errno Nat} {after : Allocator}
      (range : InRange size) (request : size ≠ 0) (grants : Grants heap.placements allocateAddressSpace)
      (does : malloc allocateAddressSpace heap.allocator size = some (.ok ptr, after)) :
      MallocStep heap (.malloc size)
        ⟨after, heap.placements ++ newPlacements heap.allocator after, (ptr, size) :: heap.handed⟩
  | failed {heap : HeapState} {size : Nat} {allocateAddressSpace : Nat → Except Errno Nat} {error : Errno} {after : Allocator}
      (range : InRange size) (grants : Grants heap.placements allocateAddressSpace)
      (does : malloc allocateAddressSpace heap.allocator size = some (.error error, after)) :
      MallocStep heap (.malloc size) ⟨after, heap.placements ++ newPlacements heap.allocator after, heap.handed⟩
  | empty {heap : HeapState} {ptr : Nat} {allocateAddressSpace : Nat → Except Errno Nat} {after : Allocator}
      (does : malloc allocateAddressSpace heap.allocator 0 = some (.ok ptr, after)) :
      MallocStep heap (.malloc 0) { heap with allocator := after }
  | freed {heap after : HeapState} {ptr : Nat} (taken : HeapStep .libc heap (.deallocateBytes ptr) after) :
      MallocStep heap (.free ptr) after
  | written {heap after : HeapState} (taken : HeapStep .libc heap .write after) : MallocStep heap .write after

def FitsExisting (pAllocator : Allocator) (size : Nat) : Prop :=
  pAllocator.HasFree ((kMemBlockSize + size + 7) / 8 * 8 : Nat)

def FitsExpansion (size : Nat) : Prop :=
  kMemRegionSize + (kMemBlockSize + size + 7) / 8 * 8 ≤ min (ceilPage size) kExpansionHeapSize

section Expanding
variable {allocateAddressSpace : Nat → Except Errno Nat} {pAllocator : Allocator} {layouts : List Layout} {blocks : List Tile}
  {ptr size nbytes : Nat} {count : Int}

theorem ceilPage_dvd (size : Nat) : 4096 ∣ ceilPage size := Nat.dvd_mul_left _ _

/-- What is asked of the kernel is nothing or at least a page. -/
theorem expansionFor_facts (size : Nat) : 8 ∣ expansionFor size ∧ expansionFor size ≤ 65536 ∧
    (expansionFor size ≠ 0 → 4096 ≤ expansionFor size) := by
  have divides := ceilPage_dvd size
  unfold expansionFor kExpansionHeapSize
  rw [show ceilPage 65536 = 65536 from rfl]
  omega

/-- The memory that the kernel gives is a region with room. -/
theorem expansion_usable (aligned : 8 ∣ ptr) (multiple : 8 ∣ nbytes) (large : 4096 ≤ nbytes) (inside : ptr + nbytes < 4294967296) :
    (Placement.added ⟨ptr, ptr + nbytes⟩).usableLower = ptr + kMemRegionSize ∧
      (Placement.added ⟨ptr, ptr + nbytes⟩).usableUpper = ptr + nbytes ∧
      (Placement.added ⟨ptr, ptr + nbytes⟩).Roomy .libc := by
  have lower : (Placement.added ⟨ptr, ptr + nbytes⟩).usableLower = ptr + kMemRegionSize := by
    simp only [Placement.usableLower, Placement.added, ceilPtr, addPtr, kMemRegionSize]
    omega
  have upper : (Placement.added ⟨ptr, ptr + nbytes⟩).usableUpper = ptr + nbytes := by
    simp only [Placement.usableUpper, Placement.added, floorPtr]
    omega
  refine ⟨lower, upper, ?_, ?_, ?_, inside⟩
  · rw [lower]
    exact Nat.le_refl _
  · rw [lower, upper, kMemRegionSize]
    omega
  · rw [lower, upper, HeapBuild.sizeLimit]
    omega

/-- The heap grows by what the kernel gives. -/
theorem expandBackingstoreBy_spec (holds : pAllocator.Holds layouts blocks) (placed : Placed .libc (layouts.map (·.placement)))
    (grants : Grants (layouts.map (·.placement)) allocateAddressSpace) (size : Nat) :
    (∃ error, allocateAddressSpace (expansionFor size) = .error error ∧
        expandBackingstoreBy allocateAddressSpace pAllocator (expansionFor size) = (.error error, pAllocator)) ∨
      ∃ ptr region after, allocateAddressSpace (expansionFor size) = .ok ptr ∧
        expandBackingstoreBy allocateAddressSpace pAllocator (expansionFor size) = (.ok (), after) ∧
        Placed .libc ((layouts ++ [(Placement.added ⟨ptr, ptr + expansionFor size⟩).unused region]).map (·.placement)) ∧
        after.Holds (layouts ++ [(Placement.added ⟨ptr, ptr + expansionFor size⟩).unused region]) blocks ∧
        (Placement.added ⟨ptr, ptr + expansionFor size⟩).block.size + kMemRegionSize = expansionFor size := by
  unfold expandBackingstoreBy
  cases answer : allocateAddressSpace (expansionFor size) with
  | error error => exact .inl ⟨error, rfl, rfl⟩
  | ok ptr =>
    right
    obtain ⟨multiple, -, atLeast⟩ := expansionFor_facts size
    have large : 4096 ≤ expansionFor size := by
      refine atLeast fun zero => grants.positive ptr ?_
      rw [← answer, zero]
    have inside := grants.inside _ ptr answer
    obtain ⟨lower, upper, roomy⟩ := expansion_usable (grants.aligned _ ptr answer) multiple large inside
    have placed' : Placed .libc (layouts.map (·.placement) ++ [.added ⟨ptr, ptr + expansionFor size⟩]) := by
      refine ⟨?_, List.pairwise_append.mpr ⟨placed.apart, List.pairwise_singleton .., ?_⟩⟩
      · intro placement member
        rcases List.mem_append.mp member with old | isNew
        · exact placed.roomy placement old
        · rw [List.mem_singleton.mp isNew]
          exact roomy
      · intro placement member other isNew
        rw [List.mem_singleton.mp isNew]
        exact grants.apart _ ptr answer placement member
    have size' : (Placement.added ⟨ptr, ptr + expansionFor size⟩).block.size + kMemRegionSize = expansionFor size := by
      rw [Placement.block, lower, upper, kMemRegionSize]
      dsimp only
      omega
    dsimp only
    rw [addPtr_natCast inside]
    rcases holds.addMemoryRegion placed' with ⟨-, tiny⟩ | ⟨region, after, added, holds'⟩
    · rw [lower, upper, kMemRegionSize, kMemBlockSize] at tiny
      omega
    · refine ⟨ptr, region, after, rfl, added, ?_, holds', size'⟩
      rw [List.map_append]
      exact placed'

/-- What `malloc` does: it takes a free block, fails with the kernel, or takes a block of the memory that it got. -/
theorem malloc_cases (holds : pAllocator.Holds layouts blocks) (placed : Placed .libc (layouts.map (·.placement)))
    (grants : Grants (layouts.map (·.placement)) allocateAddressSpace) (request : size ≠ 0) :
    (HasFit layouts (Allocator.bytesToAlloc .libc size) ∧
        malloc allocateAddressSpace pAllocator size = pAllocator.allocateBytes .libc size) ∨
      (¬HasFit layouts (Allocator.bytesToAlloc .libc size) ∧ ∃ error, allocateAddressSpace (expansionFor size) = .error error ∧
        malloc allocateAddressSpace pAllocator size = some (.error error, pAllocator)) ∨
      ¬HasFit layouts (Allocator.bytesToAlloc .libc size) ∧ ∃ ptr region, ∃ grown : Allocator,
        allocateAddressSpace (expansionFor size) = .ok ptr ∧
        Placed .libc ((layouts ++ [(Placement.added ⟨ptr, ptr + expansionFor size⟩).unused region]).map (·.placement)) ∧
        grown.Holds (layouts ++ [(Placement.added ⟨ptr, ptr + expansionFor size⟩).unused region]) blocks ∧
        malloc allocateAddressSpace pAllocator size = grown.allocateBytes .libc size ∧
        (HasFit (layouts ++ [(Placement.added ⟨ptr, ptr + expansionFor size⟩).unused region]) (Allocator.bytesToAlloc .libc size) ↔
          Allocator.bytesToAlloc .libc size + kMemRegionSize ≤ expansionFor size) := by
  unfold malloc
  rcases @allocateBytes_cases .libc _ _ _ _ holds placed request with ⟨noFit, refused⟩ | ⟨fits, ptr, after, served, -⟩
  · right
    rw [refused]
    simp only [Option.bind_eq_bind, Option.bind_some]
    rcases expandBackingstoreBy_spec holds placed grants size with
      ⟨error, answer, failed⟩ | ⟨ptr, region, grown, answer, expanded, placed', holds', size'⟩
    · left
      rw [failed]
      exact ⟨noFit, error, answer, rfl⟩
    · right
      rw [expanded]
      refine ⟨noFit, ptr, region, grown, answer, placed', holds', rfl, ?_⟩
      constructor
      · rintro ⟨layout, member, tile, free, fits⟩
        rcases List.mem_append.mp member with old | isNew
        · exact absurd ⟨layout, old, tile, free, fits⟩ noFit
        · rw [List.mem_singleton.mp isNew] at free
          rw [List.mem_singleton.mp free] at fits
          omega
      · intro fits
        refine ⟨_, List.mem_append_right _ (List.mem_singleton.mpr rfl), _, List.mem_singleton.mpr rfl, ?_⟩
        omega
  · left
    rw [served]
    exact ⟨fits, rfl⟩

theorem malloc_grown (holds : pAllocator.Holds layouts blocks) (placed : Placed .libc (layouts.map (·.placement)))
    (grants : Grants (layouts.map (·.placement)) allocateAddressSpace) (request : size ≠ 0) :
    ∃ (layouts' : List Layout) (descs : List MemoryDescriptor) (grown : Allocator), layouts'.map (·.placement) = layouts.map (·.placement) ++ descs.map Placement.added ∧
      Placed .libc (layouts'.map (·.placement)) ∧ grown.Holds layouts' blocks ∧
      (malloc allocateAddressSpace pAllocator size = grown.allocateBytes .libc size ∨
        ∃ error, malloc allocateAddressSpace pAllocator size = some (.error error, grown)) := by
  rcases malloc_cases holds placed grants request with
    ⟨-, served⟩ | ⟨-, error, -, failed⟩ | ⟨-, ptr, region, grown, -, placed', holds', does, -⟩
  · exact ⟨layouts, [], pAllocator, (List.append_nil _).symm, placed, holds, .inl served⟩
  · exact ⟨layouts, [], pAllocator, (List.append_nil _).symm, placed, holds, .inr ⟨error, failed⟩⟩
  · refine ⟨_, [⟨ptr, ptr + expansionFor size⟩], grown, ?_, placed', holds', .inl does⟩
    rw [List.map_append]
    rfl

theorem newPlacements_eq {before after : Allocator} {layouts' : List Layout} {blocks' : List Tile} {descs : List MemoryDescriptor}
    (holds : before.Holds layouts blocks) (holds' : after.Holds layouts' blocks')
    (same : layouts'.map (·.placement) = layouts.map (·.placement) ++ descs.map Placement.added) :
    newPlacements before after = descs.map Placement.added := by
  have behind : (layouts'.drop layouts.length).map (·.placement) = descs.map Placement.added := by
    rw [List.map_drop, same]
    exact List.drop_left' (List.length_map _)
  rw [newPlacements, holds'.regions, holds.regions, List.length_map, ← List.map_drop, List.map_map, ← behind]
  refine List.map_congr_left fun layout member => ?_
  have cut := (holds'.described layout (List.mem_of_mem_drop member)).toCut
  have isNew : layout.placement ∈ descs.map Placement.added := behind ▸ List.mem_map.mpr ⟨layout, member, rfl⟩
  obtain ⟨desc, -, is⟩ := List.mem_map.mp isNew
  rw [Function.comp_apply, cut.lower, cut.upper, ← is]
  rfl

end Expanding

/-! ## Runs -/

section Runs
variable {heap after : HeapState} {action : MallocAction} {size ptr : Nat} {pAllocator next : Allocator} {layouts : List Layout}
  {blocks : List Tile} {allocateAddressSpace : Nat → Except Errno Nat}

theorem InRange.limit (range : InRange size) : (kMemBlockSize + size + 7) / 8 * 8 < HeapBuild.libc.sizeLimit := by
  unfold InRange kCpuPageSize kMemRegionSize at range
  change _ < 4294967296
  unfold kMemBlockSize
  omega

theorem malloc_empty (allocateAddressSpace : Nat → Except Errno Nat) (pAllocator : Allocator) :
    malloc allocateAddressSpace pAllocator 0 = some (.ok charPtrMax, pAllocator) := rfl

theorem malloc_allocated (kept : heap.Kept .libc) (range : InRange size) (request : size ≠ 0)
    (grants : Grants heap.placements allocateAddressSpace)
    (does : malloc allocateAddressSpace heap.allocator size = some (.ok ptr, next)) :
    HeapState.Kept .libc ⟨next, heap.placements ++ newPlacements heap.allocator next, (ptr, size) :: heap.handed⟩ := by
  obtain ⟨placed, layouts, blocks, sound⟩ := kept
  rw [← sound.placements] at placed grants
  obtain ⟨layouts₁, descs, grown, same, placed₁, holds₁, served | ⟨error, failed⟩⟩ :=
    malloc_grown sound.holds placed grants request
  · rw [served] at does
    rcases holds₁.allocate placed₁ request range.limit with refused | ⟨layouts₂, start, count, last, serves, same', large, holds₂, -⟩
    · rw [refused] at does
      simp at does
    · rw [serves] at does
      obtain ⟨rfl, rfl⟩ := does
      rw [newPlacements_eq sound.holds holds₂ (same'.trans same), ← sound.placements, ← same]
      exact ⟨placed₁, layouts₂, _, HeapState.sound_of same' holds₂ (.cons ⟨rfl, Nat.pos_of_ne_zero request, large⟩ sound.handed)⟩
  · rw [failed] at does
    simp at does

/-- When `malloc` fails the blocks stay as they are; the heap may have grown. -/
theorem malloc_failed {error : Errno} (kept : heap.Kept .libc) (range : InRange size)
    (grants : Grants heap.placements allocateAddressSpace)
    (does : malloc allocateAddressSpace heap.allocator size = some (.error error, next)) :
    HeapState.Kept .libc ⟨next, heap.placements ++ newPlacements heap.allocator next, heap.handed⟩ := by
  obtain ⟨placed, layouts, blocks, sound⟩ := kept
  rw [← sound.placements] at placed grants
  have request : size ≠ 0 := by
    rintro rfl
    rw [malloc_empty] at does
    simp at does
  obtain ⟨layouts₁, descs, grown, same, placed₁, holds₁, served | ⟨error, failed⟩⟩ :=
    malloc_grown sound.holds placed grants request
  · rw [served] at does
    rcases holds₁.allocate placed₁ request range.limit with refused | ⟨_, _, _, _, serves, -⟩
    · rw [refused] at does
      obtain ⟨-, rfl⟩ := does
      rw [newPlacements_eq sound.holds holds₁ same, ← sound.placements, ← same]
      exact ⟨placed₁, layouts₁, blocks, HeapState.sound_of rfl holds₁ sound.handed⟩
    · rw [serves] at does
      simp at does
  · rw [failed] at does
    obtain ⟨-, rfl⟩ := does
    rw [newPlacements_eq sound.holds holds₁ same, ← sound.placements, ← same]
    exact ⟨placed₁, layouts₁, blocks, HeapState.sound_of rfl holds₁ sound.handed⟩

theorem MallocStep.kept (taken : MallocStep heap action after) (kept : heap.Kept .libc) : after.Kept .libc := by
  have roomy := kept.placed.roomy
  cases taken with
  | allocated range request grants does => exact malloc_allocated kept range request grants does
  | failed range grants does => exact malloc_failed kept range grants does
  | empty does =>
    obtain ⟨-, rfl⟩ := does
    exact kept
  | freed taken =>
    refine taken.kept kept ?_
    cases taken <;> exact roomy
  | written taken =>
    refine taken.kept kept ?_
    cases taken
    exact roomy

structure Started (headers : Headers) (ptr : Nat) (pAllocator : Allocator) : Prop where
  aligned : 8 ∣ ptr
  inside : ptr + kInitialHeapSize < 4294967296
  created : Allocator.create .libc headers ⟨ptr, addPtr ptr kInitialHeapSize⟩ = .ok pAllocator

theorem Started.kept {headers : Headers} (started : Started headers ptr pAllocator) :
    HeapState.Kept .libc (.created ⟨ptr, addPtr ptr kInitialHeapSize⟩ pAllocator) := by
  refine runs_kept started.created .nil fun placement member => ?_
  rw [List.mem_singleton.mp member]
  have aligned := started.aligned
  have inside := started.inside
  rw [show kInitialHeapSize = 65536 from rfl] at inside
  have stop : addPtr ptr kInitialHeapSize = ptr + 65536 := addPtr_natCast inside
  have lower : (Placement.first ⟨ptr, addPtr ptr kInitialHeapSize⟩).usableLower = ptr + 32 := by
    simp only [Placement.usableLower, Placement.first, ceilPtr, addPtr, kMemRegionSize, kAllocatorSize]
    omega
  have upper : (Placement.first ⟨ptr, addPtr ptr kInitialHeapSize⟩).usableUpper = ptr + 65536 := by
    simp only [Placement.usableUpper, Placement.first, floorPtr, stop]
    omega
  refine ⟨?_, ?_, ?_, ?_⟩
  · rw [lower, kMemRegionSize]
    exact Nat.add_le_add_left (by decide) ptr
  · omega
  · change _ < 4294967296
    omega
  · change addPtr ptr kInitialHeapSize < 4294967296
    omega

/-- `malloc` returns a pointer, or the kernel has refused memory, exactly when the request fits in a free block or in what
the kernel is asked for, which is not more than 64 KB and has no room for headers. -/
theorem malloc_refused_iff {headers : Headers} {actions : List MallocAction} (started : Started headers ptr pAllocator)
    (run : Runs MallocStep (.created ⟨ptr, addPtr ptr kInitialHeapSize⟩ pAllocator) actions heap) (range : InRange size)
    (grants : Grants heap.placements allocateAddressSpace) :
    (∃ reply after, malloc allocateAddressSpace heap.allocator size = some (reply, after) ∧
        ∀ error, reply = .error error → ∃ refused, allocateAddressSpace (expansionFor size) = .error refused) ↔
      size = 0 ∨ FitsExisting heap.allocator size ∨ FitsExpansion size ∨
        ∃ refused, allocateAddressSpace (expansionFor size) = .error refused := by
  obtain ⟨placed, layouts, blocks, sound⟩ :=
    Lib.Runs.invariant (HeapState.Kept .libc) started.kept (fun _ _ _ kept taken => taken.kept kept) run
  rw [← sound.placements] at placed grants
  have total := bytesToAlloc_natCast range.limit
  by_cases request : size = 0
  · subst request
    refine iff_of_true ⟨_, _, malloc_empty .., ?_⟩ (.inl rfl)
    simp
  · rcases malloc_cases sound.holds placed grants request with
      ⟨fits, does⟩ | ⟨noFit, refused, answer, does⟩ | ⟨noFit, ptr, region, grown, answer, placed', holds', does, roomy⟩
    · refine iff_of_true ?_ (.inr (.inl ?_))
      · rcases @allocateBytes_cases .libc _ _ _ _ sound.holds placed request with ⟨noFit, -⟩ | ⟨-, ptr, after, served, -⟩
        · exact absurd fits noFit
        · exact ⟨_, _, does.trans served, by simp⟩
      · rw [total] at fits
        exact (hasFit_iff sound.holds).mp fits
    · refine iff_of_true ⟨_, _, does, fun _ _ => ⟨refused, answer⟩⟩ (.inr (.inr (.inr ⟨refused, answer⟩)))
    · have misses : ¬FitsExisting heap.allocator size := by
        rw [total] at noFit
        exact fun fits => noFit ((hasFit_iff sound.holds).mpr fits)
      have room : FitsExpansion size ↔ Allocator.bytesToAlloc .libc size + kMemRegionSize ≤ expansionFor size := by
        rw [total, FitsExpansion, expansionFor]
        omega
      have answered : ¬∃ refused, allocateAddressSpace (expansionFor size) = .error refused := by
        rintro ⟨refused, isError⟩
        rw [answer] at isError
        simp at isError
      rcases @allocateBytes_cases .libc _ _ _ _ holds' placed' request with ⟨noFit', failed⟩ | ⟨fits', after, last, served, -⟩
      · refine iff_of_false ?_ ?_
        · rintro ⟨reply, after, isReply, onlyRefused⟩
          rw [does, failed] at isReply
          simp only [Option.some.injEq, Prod.mk.injEq] at isReply
          exact answered (onlyRefused .ENOMEM isReply.1.symm)
        · rw [roomy, ← room] at noFit'
          simp only [request, misses, noFit', answered, or_self, not_false_eq_true]
      · refine iff_of_true ⟨_, _, does.trans served, by simp⟩ (.inr (.inr (.inl ?_)))
        exact room.mpr (roomy.mp fits')

def oneGrant (nbytes : Nat) : Except Errno Nat := if nbytes = 0 ∨ 65536 < nbytes then .error .EINVAL else .ok 1048576

theorem oneGrant_grants : Grants [.first ⟨4096, 69632⟩] oneGrant := by
  have bound : ∀ nbytes ptr, oneGrant nbytes = .ok ptr → ptr = 1048576 ∧ nbytes ≤ 65536 := by
    intro nbytes ptr answer
    unfold oneGrant at answer
    split at answer
    · simp at answer
    · exact ⟨(Except.ok.inj answer).symm, by omega⟩
  refine ⟨fun ptr => by simp [oneGrant], ?_, ?_, ?_⟩
  · intro nbytes ptr answer
    rw [(bound nbytes ptr answer).1]
    decide
  · intro nbytes ptr answer
    obtain ⟨rfl, small⟩ := bound nbytes ptr answer
    omega
  · intro nbytes ptr answer placement member
    obtain ⟨rfl, -⟩ := bound nbytes ptr answer
    rw [List.mem_singleton.mp member]
    exact .inl (show 69632 ≤ 1048576 by decide)

/-- The second sixty thousand bytes come from what the kernel gives. -/
theorem malloc_refused_iff_second : ∃ pAllocator ptr first, Started blankHeaders 4096 pAllocator ∧
    malloc oneGrant pAllocator 60000 = some (.ok ptr, first) ∧
    (malloc oneGrant first 60000).map (·.2.regions.length) = some 2 ∧
    ∃ reply after, malloc oneGrant first 60000 = some (reply, after) ∧
      ∀ error, reply = .error error → ∃ refused, oneGrant (expansionFor 60000) = .error refused := by
  obtain ⟨pAllocator, ptr, first, created, does, fits, grows⟩ : ∃ pAllocator ptr first,
      Allocator.create .libc blankHeaders ⟨4096, 69632⟩ = .ok pAllocator ∧
        malloc oneGrant pAllocator 60000 = some (.ok ptr, first) ∧ newPlacements pAllocator first = [] ∧
        (malloc oneGrant first 60000).map (·.2.regions.length) = some 2 := ⟨_, _, _, rfl, rfl, rfl, rfl⟩
  have started : Started blankHeaders 4096 pAllocator := ⟨by decide, by decide, created⟩
  have run := Runs.nil.step (@MallocStep.allocated (.created ⟨4096, addPtr 4096 kInitialHeapSize⟩ pAllocator) 60000 ptr _ first
    (by decide) (by decide) oneGrant_grants does)
  refine ⟨pAllocator, ptr, first, started, does, grows, (malloc_refused_iff started run (by decide) ?_).mpr ?_⟩
  · dsimp only [HeapState.created]
    rw [fits]
    exact oneGrant_grants
  · exact .inr (.inr (.inl (by unfold FitsExpansion; decide)))

/-- The kernel gives the 64 KB that it is asked for, and they are not enough for 64 KB and the headers. -/
theorem malloc_null_granted : ∃ pAllocator after, Started blankHeaders 4096 pAllocator ∧
    Grants [.first ⟨4096, 69632⟩] oneGrant ∧ InRange 65536 ∧ oneGrant (expansionFor 65536) = .ok 1048576 ∧
    malloc oneGrant pAllocator 65536 = some (.error .ENOMEM, after) := by
  obtain ⟨pAllocator, after, created, does⟩ : ∃ pAllocator after,
      Allocator.create .libc blankHeaders ⟨4096, 69632⟩ = .ok pAllocator ∧
        malloc oneGrant pAllocator 65536 = some (.error .ENOMEM, after) := ⟨_, _, rfl, rfl⟩
  exact ⟨pAllocator, after, ⟨by decide, by decide, created⟩, oneGrant_grants, by decide, rfl, does⟩

end Runs

end Apollo.Libc
