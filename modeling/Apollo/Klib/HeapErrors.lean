import Apollo.Klib.HeapRuns

/-!
# Freeing what is not allocated

`Allocator_DeallocateBytes` searches the list of allocated blocks, and then looks
at the link of the block to see whether it was there.
-/

set_option autoImplicit false

namespace Apollo.Klib

open Lib

section Missing
variable {headers : Headers} {first prev : Option Nat} {blocks : List Tile} {fuel pBlockToFree : Nat}

theorem findAllocated_missing (list : BlockList headers first blocks) (absent : pBlockToFree ∉ startsOf blocks)
    (enough : blocks.length ≤ fuel) : Allocator.findAllocated headers pBlockToFree fuel first prev = some none := by
  induction blocks generalizing first prev fuel with
  | nil =>
    rw [BlockList.nil_iff.mp list]
    cases fuel <;> rfl
  | cons tile rest ih =>
    obtain ⟨rfl, -, list'⟩ := list.tail
    rw [startsOf_cons, List.mem_cons, not_or] at absent
    cases fuel with
    | zero => simp at enough
    | succ fuel =>
      unfold Allocator.findAllocated
      rw [if_neg (Ne.symm absent.1)]
      exact ih list' absent.2 (Nat.le_of_succ_le_succ enough)

end Missing

section Rejecting
variable {build : HeapBuild} {headers : Headers} {pMemDesc : MemoryDescriptor} {pAllocator : Allocator} {heap : HeapState}
  {actions : List HeapAction} {layouts : List Layout} {blocks : List Tile} {ptr : Nat}

theorem HeapState.Sound.absent (sound : heap.Sound layouts blocks) (placed : Placed build heap.placements) (inside : ptr < 4294967296)
    (notOut : ptr ∉ heap.handed.map Prod.fst) : addPtr ptr (-kMemBlockSize) ∉ startsOf blocks := by
  intro member
  obtain ⟨block, isBlock, starts⟩ := mem_startsOf.mp member
  obtain ⟨before, behind, rfl⟩ := List.append_of_mem isBlock
  obtain ⟨before', request, behind', isOut, -, ⟨isPtr, -, large⟩, -⟩ := forall₂_middle sound.handed.flip
  obtain ⟨layout, there, isTile, -⟩ := mem_allUsed.mp (sound.holds.complete.mem_iff.mp isBlock)
  have within := (sound.holds.described layout there).inside
    (placed.roomy _ (sound.placements ▸ List.mem_map.mpr ⟨layout, there, rfl⟩)) isTile
  have address : ptr = block.start + kMemBlockSize := by
    unfold addPtr kMemBlockSize at starts
    unfold kMemBlockSize at large ⊢
    omega
  refine notOut (List.mem_map.mpr ⟨request, ?_, isPtr.trans address.symm⟩)
  rw [isOut]
  exact List.mem_append_right _ List.mem_cons_self

/-- The pointer is rejected when the link of the supposed block leads somewhere. -/
theorem deallocateBytes_unknown (managed : ∃ region ∈ pAllocator.regions, region.isManaging ptr = true)
    (unlinked : pAllocator.unlinkAllocated (addPtr ptr (-kMemBlockSize)) = some pAllocator) (regular : ptr ≠ charPtrMax) :
    pAllocator.deallocateBytes build ptr = some (.error .ENOTBLK, pAllocator) ↔
      ptr ≠ 0 ∧ pAllocator.headers.next (addPtr ptr (-kMemBlockSize)) ≠ none := by
  unfold Allocator.deallocateBytes
  by_cases null : ptr = 0
  · simp [null]
  · rw [if_neg (not_or.mpr ⟨null, regular⟩), if_neg (not_not.mpr managed)]
    simp only [Option.bind_eq_bind]
    rw [unlinked, Option.bind_some]
    by_cases linked : pAllocator.headers.next (addPtr ptr (-kMemBlockSize)) = none
    · cases Allocator.freeInRegions build ptr (addPtr ptr (-kMemBlockSize)) pAllocator.regions pAllocator.headers with
      | none => simp [linked]
      | some result => simp [linked]
    · simp [null, linked]

/-- A pointer into a region that is not the address of an allocated block is rejected, with nothing changed, if and only
if the word in front of it, which is taken for the link of a block, is not zero. -/
theorem deallocateBytes_rejects_iff (created : Allocator.create build headers pMemDesc = .ok pAllocator)
    (run : Runs (HeapStep build) (.created pMemDesc pAllocator) actions heap)
    (roomy : ∀ placement ∈ heap.placements, placement.Roomy build)
    (managed : ∃ region ∈ heap.allocator.regions, region.isManaging ptr = true) (notOut : ptr ∉ heap.handed.map Prod.fst) :
    heap.allocator.deallocateBytes build ptr = some (.error .ENOTBLK, heap.allocator) ↔
      ptr ≠ 0 ∧ heap.allocator.headers.next (addPtr ptr (-kMemBlockSize)) ≠ none := by
  obtain ⟨placed, layouts, blocks, sound⟩ := runs_kept created run roomy
  have placed' : Placed build (layouts.map (·.placement)) := by rwa [sound.placements]
  have inside : ptr < charPtrMax := by
    obtain ⟨region, member, managing⟩ := managed
    rw [sound.holds.regions] at member
    obtain ⟨layout, there, rfl⟩ := List.mem_map.mp member
    have below := (isManaging_iff.mp managing).2
    have top := (placed'.of_mem there).top
    rw [(sound.holds.described layout there).upper] at below
    unfold charPtrMax
    omega
  have missing : Allocator.findAllocated heap.allocator.headers (addPtr ptr (-kMemBlockSize)) kBlockCapacity
      heap.allocator.firstAllocatedBlock none = some none :=
    findAllocated_missing sound.holds.allocated (sound.absent placed (by unfold charPtrMax at inside; omega) notOut)
      (sound.holds.length_le placed')
  refine deallocateBytes_unknown managed ?_ (Nat.ne_of_lt inside)
  unfold Allocator.unlinkAllocated
  rw [missing]
  rfl

/-- Two blocks of a page are allocated and the first is freed; it is not freed again. -/
theorem deallocateBytes_rejects_linked : ∃ pAllocator heap,
    Allocator.create .kernel blankHeaders ⟨4096, 8192⟩ = .ok pAllocator ∧
      Runs (HeapStep .kernel) (.created ⟨4096, 8192⟩ pAllocator) [.deallocateBytes 4136, .allocateBytes 10, .allocateBytes 10] heap ∧
      heap.allocator.deallocateBytes .kernel 4136 = some (.error .ENOTBLK, heap.allocator) := by
  obtain ⟨first, second, third, fourth, reply, created, served, served', freed, managed, linked⟩ :
      ∃ first second third fourth reply, Allocator.create .kernel blankHeaders ⟨4096, 8192⟩ = .ok first ∧
        first.allocateBytes .kernel 10 = some (.ok 4136, second) ∧ second.allocateBytes .kernel 10 = some (.ok 4160, third) ∧
        third.deallocateBytes .kernel 4136 = some (reply, fourth) ∧
        (∃ region ∈ fourth.regions, region.isManaging 4136 = true) ∧ fourth.headers.next (addPtr 4136 (-kMemBlockSize)) ≠ none :=
    ⟨_, _, _, _, _, rfl, rfl, rfl, rfl, ⟨_, List.mem_cons_self, rfl⟩, Option.some_ne_none 4176⟩
  have allocated : Runs (HeapStep .kernel) (.created ⟨4096, 8192⟩ first) [.allocateBytes 10, .allocateBytes 10]
      ⟨third, [.first ⟨4096, 8192⟩], [(4160, 10), (4136, 10)]⟩ :=
    .step (.step .nil (.allocated (by decide) (by decide) served)) (.allocated (by decide) (by decide) served')
  have deallocated : HeapStep .kernel ⟨third, [.first ⟨4096, 8192⟩], [(4160, 10), (4136, 10)]⟩ (.deallocateBytes 4136)
      ⟨fourth, [.first ⟨4096, 8192⟩], [(4160, 10)]⟩ := @HeapStep.deallocated _ _ [(4160, 10)] [] 4136 10 _ _ rfl freed
  have run := allocated.step deallocated
  have roomy : ∀ placement ∈ [Placement.first ⟨4096, 8192⟩], placement.Roomy .kernel := by decide
  have notOut : 4136 ∉ [(4160, 10)].map Prod.fst := by decide
  exact ⟨first, _, created, run, (deallocateBytes_rejects_iff created run roomy managed notOut).mpr ⟨by decide, linked⟩⟩

/-- The only block of a page is freed; the whole page is one free block, which has no link, and the block is freed again. -/
theorem deallocateBytes_accepts_freed : ∃ pAllocator heap again,
    Allocator.create .kernel blankHeaders ⟨4096, 8192⟩ = .ok pAllocator ∧
      Runs (HeapStep .kernel) (.created ⟨4096, 8192⟩ pAllocator) [.deallocateBytes 4136, .allocateBytes 10] heap ∧
      (∃ region ∈ heap.allocator.regions, region.isManaging 4136 = true) ∧ 4136 ∉ heap.handed.map Prod.fst ∧
      heap.allocator.deallocateBytes .kernel 4136 = some (.ok (), again) := by
  obtain ⟨first, second, third, fourth, reply, created, served, freed, managed, again⟩ :
      ∃ first second third fourth reply, Allocator.create .kernel blankHeaders ⟨4096, 8192⟩ = .ok first ∧
        first.allocateBytes .kernel 10 = some (.ok 4136, second) ∧ second.deallocateBytes .kernel 4136 = some (reply, third) ∧
        (∃ region ∈ third.regions, region.isManaging 4136 = true) ∧
        third.deallocateBytes .kernel 4136 = some (.ok (), fourth) :=
    ⟨_, _, _, _, _, rfl, rfl, rfl, ⟨_, List.mem_cons_self, rfl⟩, rfl⟩
  have allocated : Runs (HeapStep .kernel) (.created ⟨4096, 8192⟩ first) [.allocateBytes 10]
      ⟨second, [.first ⟨4096, 8192⟩], [(4136, 10)]⟩ := .step .nil (.allocated (by decide) (by decide) served)
  have deallocated : HeapStep .kernel ⟨second, [.first ⟨4096, 8192⟩], [(4136, 10)]⟩ (.deallocateBytes 4136)
      ⟨third, [.first ⟨4096, 8192⟩], []⟩ := @HeapStep.deallocated _ _ [] [] 4136 10 _ _ rfl freed
  exact ⟨first, _, fourth, created, allocated.step deallocated, managed, List.not_mem_nil, again⟩

end Rejecting

end Apollo.Klib
