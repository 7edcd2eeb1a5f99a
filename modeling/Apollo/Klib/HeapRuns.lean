import Apollo.Klib.Heap
import Apollo.Lib.Runs

/-!
# Runs of the heap

A heap is created, regions are added to it, and blocks are allocated and freed.
Between the calls the memory behind the headers of the blocks is written by
everyone else.
-/

set_option autoImplicit false

namespace Apollo.Klib

open Lib

/-- An allocator with the memory that it was given, and the pointers that are out with the sizes that were requested. -/
structure HeapState where
  allocator : Allocator
  placements : List Placement
  handed : List (Nat × Nat)

def Fits (nbytes : Nat) : Prop := (kMemBlockSize + nbytes + 7) / 8 * 8 < 2147483648

instance (nbytes : Nat) : Decidable (Fits nbytes) := inferInstanceAs (Decidable (_ < _))

inductive OnList (headers : Headers) : Option Nat → Nat → Prop
  | here {block : Nat} : OnList headers (some block) block
  | behind {first block : Nat} (later : OnList headers (headers.next first) block) : OnList headers (some first) block

def Allocator.HasHeader (pAllocator : Allocator) (address : Nat) : Prop :=
  (∃ region ∈ pAllocator.regions, OnList pAllocator.headers region.firstFreeBlock address) ∨
    OnList pAllocator.headers pAllocator.firstAllocatedBlock address

inductive HeapAction
  | addMemoryRegion (pMemDesc : MemoryDescriptor)
  | allocateBytes (nbytes : Nat)
  | deallocateBytes (ptr : Nat)
  | write

inductive HeapStep (build : HeapBuild) : HeapState → HeapAction → HeapState → Prop
  | added {heap : HeapState} {pMemDesc : MemoryDescriptor} {after : Allocator}
      (apart : ∀ placement ∈ heap.placements, placement.Apart (.added pMemDesc))
      (does : heap.allocator.addMemoryRegion build pMemDesc = (.ok (), after)) :
      HeapStep build heap (.addMemoryRegion pMemDesc) { heap with allocator := after, placements := heap.placements ++ [.added pMemDesc] }
  | refused {heap : HeapState} {pMemDesc : MemoryDescriptor} {error : Errno} {after : Allocator}
      (does : heap.allocator.addMemoryRegion build pMemDesc = (.error error, after)) :
      HeapStep build heap (.addMemoryRegion pMemDesc) { heap with allocator := after }
  | allocated {heap : HeapState} {nbytes ptr : Nat} {after : Allocator} (request : nbytes ≠ 0) (fits : Fits nbytes)
      (does : heap.allocator.allocateBytes build nbytes = some (.ok ptr, after)) :
      HeapStep build heap (.allocateBytes nbytes) { heap with allocator := after, handed := (ptr, nbytes) :: heap.handed }
  | unallocated {heap : HeapState} {nbytes : Nat} {error : Errno} {after : Allocator} (fits : Fits nbytes)
      (does : heap.allocator.allocateBytes build nbytes = some (.error error, after)) :
      HeapStep build heap (.allocateBytes nbytes) { heap with allocator := after }
  | empty {heap : HeapState} {ptr : Nat} {after : Allocator} (does : heap.allocator.allocateBytes build 0 = some (.ok ptr, after)) :
      HeapStep build heap (.allocateBytes 0) { heap with allocator := after }
  | deallocated {heap : HeapState} {front back : List (Nat × Nat)} {ptr nbytes : Nat} {reply : Except Errno Unit} {after : Allocator}
      (isOut : heap.handed = front ++ (ptr, nbytes) :: back)
      (does : heap.allocator.deallocateBytes build ptr = some (reply, after)) :
      HeapStep build heap (.deallocateBytes ptr) { heap with allocator := after, handed := front ++ back }
  | nothing {heap : HeapState} {ptr : Nat} {reply : Except Errno Unit} {after : Allocator} (none : ptr = 0 ∨ ptr = charPtrMax)
      (does : heap.allocator.deallocateBytes build ptr = some (reply, after)) :
      HeapStep build heap (.deallocateBytes ptr) { heap with allocator := after }
  | written {heap : HeapState} {headers : Headers}
      (same : ∀ address, heap.allocator.HasHeader address →
        headers.next address = heap.allocator.headers.next address ∧ headers.size address = heap.allocator.headers.size address) :
      HeapStep build heap .write { heap with allocator := { heap.allocator with headers := headers } }

def HeapState.created (pMemDesc : MemoryDescriptor) (pAllocator : Allocator) : HeapState := ⟨pAllocator, [.first pMemDesc], []⟩

/-- The blocks of the heap: the regions are cut into them, and those that are out are as large as requested. -/
structure HeapState.Sound (heap : HeapState) (layouts : List Layout) (blocks : List Tile) : Prop where
  placements : layouts.map (·.placement) = heap.placements
  holds : heap.allocator.Holds layouts blocks
  ascending : ∀ layout ∈ layouts, (freeOf layout.tiles).Pairwise fun block other => block.start + block.size < other.start
  handed : List.Forall₂ (fun (request : Nat × Nat) block =>
    request.1 = block.start + kMemBlockSize ∧ 0 < request.2 ∧ kMemBlockSize + request.2 ≤ block.size) heap.handed blocks

section Lists
variable {headers headers' : Headers} {first : Option Nat} {blocks : List Tile} {start : Nat}

theorem BlockList.onList (list : BlockList headers first blocks) (member : start ∈ startsOf blocks) : OnList headers first start := by
  induction blocks generalizing first with
  | nil => simp at member
  | cons tile rest ih =>
    obtain ⟨rfl, -, list'⟩ := list.tail
    rcases List.mem_cons.mp member with rfl | later
    · exact .here
    · exact .behind (ih list' later)

theorem OnList.mem (met : OnList headers first start) (list : BlockList headers first blocks) : start ∈ startsOf blocks := by
  induction met generalizing blocks with
  | here =>
    cases blocks with
    | nil => exact absurd (BlockList.nil_iff.mp list) (by simp)
    | cons tile rest =>
      obtain ⟨same, -⟩ := list.tail
      rw [Option.some.inj same]
      exact List.mem_cons_self
  | behind later ih =>
    cases blocks with
    | nil => exact absurd (BlockList.nil_iff.mp list) (by simp)
    | cons tile rest =>
      obtain ⟨same, -, list'⟩ := list.tail
      rw [Option.some.inj same] at ih
      exact List.mem_cons_of_mem _ (ih list')

end Lists

section Requests
variable {build : HeapBuild} {nbytes : Nat}

theorem bytesToAlloc_natCast (fits : (kMemBlockSize + nbytes + 7) / 8 * 8 < build.sizeLimit) :
    Allocator.bytesToAlloc build nbytes = ((kMemBlockSize + nbytes + 7) / 8 * 8 : Nat) := by
  have limit : build.sizeLimit ≤ 4294967296 := by cases build <;> decide
  have small : (kMemBlockSize + nbytes + 7) % 4294967296 / 8 * 8 = (kMemBlockSize + nbytes + 7) / 8 * 8 := by
    omega
  rw [Allocator.bytesToAlloc, small]
  exact build.toSize_natCast fits

theorem Fits.limit (fits : Fits nbytes) (build : HeapBuild) : (kMemBlockSize + nbytes + 7) / 8 * 8 < build.sizeLimit := by
  refine Nat.lt_of_lt_of_le fits ?_
  cases build <;> decide

end Requests

/-! ## What a step keeps -/

section Steps
variable {build : HeapBuild} {heap : HeapState} {pAllocator : Allocator} {front back layouts : List Layout} {layout : Layout}
  {blocks : List Tile} {nbytes : Nat}

/-- The list of free blocks ascends, and no two of them touch. -/
theorem Layout.Cut.separate (cut : layout.Cut) :
    (freeOf layout.tiles).Pairwise fun block other => block.start + block.size < other.start := by
  have ascending := cut.covers.ascending.sublist (List.filter_sublist (p := fun tile : Tile => tile.isFree))
  refine ascending.imp_of_mem fun member member' below => ?_
  exact Nat.lt_of_le_of_ne below (cut.covers.apart member member')

theorem HeapState.sound_of (placements : layouts.map (·.placement) = heap.placements) (holds : heap.allocator.Holds layouts blocks)
    (handed : List.Forall₂ (fun (request : Nat × Nat) block =>
      request.1 = block.start + kMemBlockSize ∧ 0 < request.2 ∧ kMemBlockSize + request.2 ≤ block.size) heap.handed blocks) :
    heap.Sound layouts blocks :=
  ⟨placements, holds, fun layout member => (holds.described layout member).separate, handed⟩

theorem allocateBytes_empty (build : HeapBuild) (pAllocator : Allocator) :
    pAllocator.allocateBytes build 0 = some (.ok charPtrMax, pAllocator) := rfl

theorem roundUp_facts (nbytes : Nat) : kMemBlockSize + nbytes ≤ (kMemBlockSize + nbytes + 7) / 8 * 8 ∧
    8 ∣ (kMemBlockSize + nbytes + 7) / 8 * 8 := by
  exact ⟨by omega, Nat.dvd_mul_left _ _⟩

theorem Allocator.Holds.allocate (holds : pAllocator.Holds layouts blocks) (placed : Placed build (layouts.map (·.placement)))
    (request : nbytes ≠ 0) (fits : (kMemBlockSize + nbytes + 7) / 8 * 8 < build.sizeLimit) :
    pAllocator.allocateBytes build nbytes = some (.error .ENOMEM, pAllocator) ∨
      ∃ layouts' start size after, pAllocator.allocateBytes build nbytes = some (.ok (start + kMemBlockSize), after) ∧
        layouts'.map (·.placement) = layouts.map (·.placement) ∧ kMemBlockSize + nbytes ≤ size ∧
        after.Holds layouts' (⟨start, size, false⟩ :: blocks) ∧
        ∃ restored, after.deallocateBytes build (start + kMemBlockSize) = some (.ok (), restored) ∧
          restored.Holds layouts blocks := by
  obtain ⟨large, divides⟩ := roundUp_facts nbytes
  have positive : 0 < (kMemBlockSize + nbytes + 7) / 8 * 8 := by
    omega
  rcases allocateBytes_spec holds placed request (bytesToAlloc_natCast fits) positive divides with
    ⟨refused, -⟩ | ⟨front, layout, back, front', start, size, back', region', after, rfl, parts, within, served, holds'⟩
  · exact .inl refused
  · right
    have here := holds.described layout (List.mem_append_right _ List.mem_cons_self)
    have covers := here.covers
    rw [parts] at covers
    obtain ⟨middle, first, -, -, -, apart, second⟩ := Tiles.append.mp covers
    have used : endsFree false front' = false := Bool.eq_false_iff.mpr fun free => absurd (apart free) (by simp)
    have used' : beginsFree back' = false := second.used_of_free
    have placed' : Placed build ((front ++ (⟨layout.placement, region',
        takenFrom front' start size ((kMemBlockSize + nbytes + 7) / 8 * 8) back'⟩ : Layout) :: back).map (·.placement)) := by
      rw [List.map_append, List.map_cons] at placed ⊢
      exact placed
    refine ⟨_, start, _, after, served, by simp, large, holds', ?_⟩
    obtain ⟨region'', restored, freed, holds''⟩ :=
      @deallocateBytes_spec build after front back _ [] blocks front' back' start 0 _ (size - _) holds' placed' rfl used used'
        (by omega)
    have whole : 0 + (kMemBlockSize + nbytes + 7) / 8 * 8 + (size - (kMemBlockSize + nbytes + 7) / 8 * 8) = size := by omega
    rw [whole, ← parts] at holds''
    have there := holds''.described ⟨layout.placement, region'', layout.tiles⟩ (List.mem_append_right _ List.mem_cons_self)
    have same : region'' = layout.region := by
      have firsts := there.free.first.trans here.free.first.symm
      have lowers := there.lower.trans here.lower.symm
      have uppers := there.upper.trans here.upper.symm
      obtain ⟨lower, upper, first⟩ := region''
      dsimp only at firsts lowers uppers
      rw [firsts, lowers, uppers]
    rw [same] at holds''
    exact ⟨restored, freed, holds''⟩

theorem Allocator.Holds.deallocate {tile : Tile} {blocks' : List Tile}
    (holds : pAllocator.Holds layouts (blocks ++ tile :: blocks')) (placed : Placed build (layouts.map (·.placement)))
    (large : kMemBlockSize < tile.size) :
    ∃ layouts' after, pAllocator.deallocateBytes build (tile.start + kMemBlockSize) = some (.ok (), after) ∧
      layouts'.map (·.placement) = layouts.map (·.placement) ∧ after.Holds layouts' (blocks ++ blocks') := by
  obtain ⟨layout, member, inside, used⟩ :=
    mem_allUsed.mp (holds.complete.mem_iff.mp (List.mem_append_right _ List.mem_cons_self))
  obtain ⟨front, back, rfl⟩ := List.append_of_mem member
  obtain ⟨front', back', parts⟩ := List.append_of_mem inside
  have covers := (holds.described layout member).covers
  rw [parts] at covers
  obtain ⟨front₁, start, before, after, back₁, rfl, starts, rfl, used₁, used₂⟩ := covers.around
  obtain ⟨start', size, isFree⟩ := tile
  subst starts used
  rw [List.append_assoc] at parts
  obtain ⟨region', done, freed, holds'⟩ := deallocateBytes_spec holds placed parts used₁ used₂ large
  exact ⟨_, done, freed, by simp, holds'⟩

theorem forall₂_middle {α β : Type} {related : α → β → Prop} {before behind : List α} {request : α} {all : List β}
    (pairs : List.Forall₂ related (before ++ request :: behind) all) :
    ∃ before' block behind', all = before' ++ block :: behind' ∧ List.Forall₂ related before before' ∧ related request block ∧
      List.Forall₂ related behind behind' := by
  induction before generalizing all with
  | nil =>
    obtain ⟨block, behind', here, later, rfl⟩ := List.forall₂_cons_left_iff.mp pairs
    exact ⟨[], block, behind', rfl, .nil, here, later⟩
  | cons other rest ih =>
    obtain ⟨first, rest', here, later, rfl⟩ := List.forall₂_cons_left_iff.mp pairs
    obtain ⟨before', block, behind', rfl, pairs', isBlock, pairs''⟩ := ih later
    exact ⟨first :: before', block, behind', rfl, .cons here pairs', isBlock, pairs''⟩

theorem HeapState.Sound.deallocate {before behind : List (Nat × Nat)} {ptr : Nat} (sound : heap.Sound layouts blocks)
    (placed : Placed build heap.placements) (isOut : heap.handed = before ++ (ptr, nbytes) :: behind) :
    ∃ after layouts' blocks', heap.allocator.deallocateBytes build ptr = some (.ok (), after) ∧
      HeapState.Sound { heap with allocator := after, handed := before ++ behind } layouts' blocks' := by
  have handed := sound.handed
  rw [isOut] at handed
  obtain ⟨before', block, behind', rfl, pairs, ⟨rfl, positive, large⟩, pairs'⟩ := forall₂_middle handed
  obtain ⟨layouts', after, freed, placements, holds⟩ :=
    sound.holds.deallocate (by rwa [sound.placements]) (by omega)
  exact ⟨after, layouts', _, freed, HeapState.sound_of (placements.trans sound.placements) holds (List.rel_append pairs pairs')⟩

theorem Allocator.Holds.written {headers : Headers} (holds : pAllocator.Holds layouts blocks)
    (same : ∀ address, pAllocator.HasHeader address →
      headers.next address = pAllocator.headers.next address ∧ headers.size address = pAllocator.headers.size address) :
    Allocator.Holds { pAllocator with headers := headers } layouts blocks := by
  refine ⟨holds.regions, ?_, ?_, holds.complete⟩
  · intro layout member
    have here := holds.described layout member
    refine ⟨here.toCut, here.free.congr fun start there => same start (.inl ⟨layout.region, ?_, here.free.onList there⟩)⟩
    rw [holds.regions]
    exact List.mem_map.mpr ⟨layout, member, rfl⟩
  · exact holds.allocated.congr fun start there => same start (.inr (holds.allocated.onList there))

structure HeapState.Kept (build : HeapBuild) (heap : HeapState) : Prop where
  placed : Placed build heap.placements
  sound : ∃ layouts blocks, heap.Sound layouts blocks

/-- Every step keeps the heap sound when the new region has room. -/
theorem HeapStep.kept {action : HeapAction} {after : HeapState} (taken : HeapStep build heap action after) (kept : heap.Kept build)
    (roomy : ∀ placement ∈ after.placements, placement.Roomy build) : after.Kept build := by
  obtain ⟨placed, layouts, blocks, sound⟩ := kept
  have placed' : Placed build (layouts.map (·.placement)) := by rwa [sound.placements]
  cases taken with
  | @added pMemDesc _ apart does =>
    have both : Placed build (heap.placements ++ [.added pMemDesc]) := by
      refine ⟨roomy, List.pairwise_append.mpr ⟨placed.apart, List.pairwise_singleton .., ?_⟩⟩
      intro placement member other isNew
      rw [List.mem_singleton.mp isNew]
      exact apart placement member
    rcases sound.holds.addMemoryRegion (by rwa [sound.placements]) with ⟨refused, -⟩ | ⟨region, after, added, holds⟩
    · rw [refused] at does
      simp at does
    · rw [added, Prod.mk.injEq] at does
      obtain ⟨-, rfl⟩ := does
      refine ⟨both, _, blocks, HeapState.sound_of ?_ holds sound.handed⟩
      rw [List.map_append, sound.placements]
      rfl
  | refused does =>
    unfold Allocator.addMemoryRegion at does
    split at does
    · obtain ⟨-, rfl⟩ := does
      exact ⟨placed, layouts, blocks, sound⟩
    · simp at does
  | allocated request fits does =>
    rcases sound.holds.allocate placed' request (fits.limit build) with refused | ⟨layouts', start, size, after, served, placements, large, holds, -⟩
    · rw [refused] at does
      simp at does
    · rw [served] at does
      obtain ⟨rfl, rfl⟩ := does
      exact ⟨placed, layouts', _, HeapState.sound_of (placements.trans sound.placements) holds
        (.cons ⟨rfl, Nat.pos_of_ne_zero request, large⟩ sound.handed)⟩
  | @unallocated nbytes _ _ fits does =>
    by_cases request : nbytes = 0
    · rw [request, allocateBytes_empty] at does
      simp at does
    · rcases sound.holds.allocate placed' request (fits.limit build) with refused | ⟨_, _, _, _, served, -⟩
      · rw [refused] at does
        obtain ⟨-, rfl⟩ := does
        exact ⟨placed, layouts, blocks, sound⟩
      · rw [served] at does
        simp at does
  | empty does =>
    obtain ⟨-, rfl⟩ := does
    exact ⟨placed, layouts, blocks, sound⟩
  | deallocated isOut does =>
    obtain ⟨after, layouts', blocks', freed, sound'⟩ := sound.deallocate placed isOut
    rw [freed] at does
    obtain ⟨-, rfl⟩ := does
    exact ⟨placed, layouts', blocks', sound'⟩
  | nothing none does =>
    rw [Allocator.deallocateBytes, if_pos none] at does
    obtain ⟨-, rfl⟩ := does
    exact ⟨placed, layouts, blocks, sound⟩
  | written same => exact ⟨placed, layouts, blocks, HeapState.sound_of sound.placements (sound.holds.written same) sound.handed⟩

end Steps

/-! ## Runs -/

section HeapRuns
variable {build : HeapBuild} {headers : Headers} {pMemDesc : MemoryDescriptor} {pAllocator : Allocator} {heap after : HeapState}
  {action : HeapAction} {actions : List HeapAction}

theorem HeapStep.placements_subset (taken : HeapStep build heap action after) : heap.placements ⊆ after.placements := by
  cases taken with
  | added => exact List.subset_append_left _ _
  | _ => exact List.Subset.refl _

theorem runs_kept (created : Allocator.create build headers pMemDesc = .ok pAllocator)
    (run : Runs (HeapStep build) (.created pMemDesc pAllocator) actions heap)
    (roomy : ∀ placement ∈ heap.placements, placement.Roomy build) : heap.Kept build := by
  refine Runs.invariant (fun heap => (∀ placement ∈ heap.placements, placement.Roomy build) → heap.Kept build) ?_ ?_ run roomy
  · intro roomy
    have here : (Placement.first pMemDesc).Roomy build := roomy _ (List.mem_singleton.mpr rfl)
    obtain ⟨region, holds⟩ := Allocator.create_spec here created
    exact ⟨⟨roomy, List.pairwise_singleton ..⟩, _, [], HeapState.sound_of rfl holds .nil⟩
  · intro action heap after kept taken roomy
    exact taken.kept (kept fun placement member => roomy placement (taken.placements_subset member)) roomy

/-- As long as every region has room for its header and its size is a signed number, the regions are cut into the blocks
on the lists, every block that is out is as large as requested, the calls return, and a block that is allocated and freed
leaves no trace. -/
theorem heap_sound (created : Allocator.create build headers pMemDesc = .ok pAllocator)
    (run : Runs (HeapStep build) (.created pMemDesc pAllocator) actions heap)
    (roomy : ∀ placement ∈ heap.placements, placement.Roomy build) :
    ∃ layouts blocks, heap.Sound layouts blocks ∧
      (∀ nbytes, Fits nbytes → ∃ reply after, heap.allocator.allocateBytes build nbytes = some (reply, after)) ∧
      (∀ request ∈ heap.handed, ∃ after, heap.allocator.deallocateBytes build request.1 = some (.ok (), after)) ∧
      ∀ nbytes ptr after, Fits nbytes → heap.allocator.allocateBytes build nbytes = some (.ok ptr, after) →
        ∃ restored, after.deallocateBytes build ptr = some (.ok (), restored) ∧ restored.Holds layouts blocks := by
  obtain ⟨placed, layouts, blocks, sound⟩ := runs_kept created run roomy
  have placed' : Placed build (layouts.map (·.placement)) := by rwa [sound.placements]
  refine ⟨layouts, blocks, sound, ?_, ?_, ?_⟩
  · intro nbytes fits
    by_cases request : nbytes = 0
    · rw [request]
      exact ⟨_, _, allocateBytes_empty ..⟩
    · rcases sound.holds.allocate placed' request (fits.limit build) with refused | ⟨_, _, _, after, served, -⟩
      · exact ⟨_, _, refused⟩
      · exact ⟨_, after, served⟩
  · rintro ⟨ptr, nbytes⟩ member
    obtain ⟨before, behind, isOut⟩ := List.append_of_mem member
    obtain ⟨after, -, -, freed, -⟩ := sound.deallocate placed isOut
    exact ⟨after, freed⟩
  · intro nbytes ptr after fits does
    by_cases request : nbytes = 0
    · rw [request, allocateBytes_empty] at does
      obtain ⟨rfl, rfl⟩ := does
      refine ⟨_, ?_, sound.holds⟩
      rw [Allocator.deallocateBytes, if_pos (.inr rfl)]
    · rcases sound.holds.allocate placed' request (fits.limit build) with refused | ⟨_, start, _, _, served, -, -, -, restored, freed, holds⟩
      · rw [refused] at does
        simp at does
      · rw [served] at does
        obtain ⟨rfl, rfl⟩ := does
        exact ⟨restored, freed, holds⟩

def blankHeaders : Headers := ⟨fun _ => none, fun _ => 0⟩

theorem page_run : ∃ pAllocator heap, Allocator.create .kernel blankHeaders ⟨4096, 8192⟩ = .ok pAllocator ∧
    Runs (HeapStep .kernel) (.created ⟨4096, 8192⟩ pAllocator) [.deallocateBytes 4136, .allocateBytes 10] heap ∧
    heap.placements = [.first ⟨4096, 8192⟩] := by
  obtain ⟨first, second, third, reply, created, served, freed⟩ : ∃ first second third reply,
      Allocator.create .kernel blankHeaders ⟨4096, 8192⟩ = .ok first ∧
        first.allocateBytes .kernel 10 = some (.ok 4136, second) ∧
        second.deallocateBytes .kernel 4136 = some (reply, third) := ⟨_, _, _, _, rfl, rfl, rfl⟩
  have allocated : Runs (HeapStep .kernel) (.created ⟨4096, 8192⟩ first) [.allocateBytes 10]
      ⟨second, [.first ⟨4096, 8192⟩], [(4136, 10)]⟩ := .step .nil (.allocated (by decide) (by decide) served)
  have deallocated : HeapStep .kernel ⟨second, [.first ⟨4096, 8192⟩], [(4136, 10)]⟩ (.deallocateBytes 4136)
      ⟨third, [.first ⟨4096, 8192⟩], []⟩ := @HeapStep.deallocated _ _ [] [] 4136 10 _ _ rfl freed
  exact ⟨first, _, created, allocated.step deallocated, rfl⟩

/-- A page is made the heap, ten bytes are allocated in it and freed. -/
theorem heap_sound_page : ∃ pAllocator heap layouts blocks,
    Allocator.create .kernel blankHeaders ⟨4096, 8192⟩ = .ok pAllocator ∧
      Runs (HeapStep .kernel) (.created ⟨4096, 8192⟩ pAllocator) [.deallocateBytes 4136, .allocateBytes 10] heap ∧
      heap.Sound layouts blocks := by
  obtain ⟨pAllocator, heap, created, run, placements⟩ := page_run
  have roomy : ∀ placement ∈ heap.placements, placement.Roomy .kernel := by
    rw [placements]
    decide
  obtain ⟨layouts, blocks, sound, -⟩ := heap_sound created run roomy
  exact ⟨pAllocator, heap, layouts, blocks, created, run, sound⟩

/-- The memory ends in front of the place of the first block, and the difference of the two is not seen to be negative. -/
theorem heap_unsound_tiny : ∃ pAllocator, Allocator.create .kernel blankHeaders ⟨4096, 4120⟩ = .ok pAllocator ∧
    pAllocator.regions = [⟨4096, 4120, some 4128⟩] ∧ pAllocator.headers.size 4128 = -8 ∧
    ¬∃ layouts blocks, HeapState.Sound (.created ⟨4096, 4120⟩ pAllocator) layouts blocks := by
  refine ⟨_, rfl, rfl, rfl, ?_⟩
  rintro ⟨layouts, blocks, sound⟩
  have placements := sound.placements
  cases layouts with
  | nil => simp [HeapState.created] at placements
  | cons layout rest =>
    have here := (sound.holds.described layout List.mem_cons_self).covers.le
    have first : layout.placement = .first ⟨4096, 4120⟩ := (List.cons.inj placements).1
    rw [first] at here
    exact absurd here (by decide)

end HeapRuns

end Apollo.Klib
