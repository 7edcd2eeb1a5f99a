import Apollo.Klib.HeapRuns

/-!
# Requests of any size

`Allocator_AllocateBytes` adds the header to the size, rounds the sum up, and takes
the first free block that is not smaller than the result.  What comes out is a block
of exactly that size, whatever the size has become.
-/

set_option autoImplicit false

namespace Apollo.Klib

open Lib

def Allocator.usableSize (pAllocator : Allocator) (ptr : Nat) : Int :=
  pAllocator.headers.size (addPtr ptr (-kMemBlockSize)) - kMemBlockSize

def Allocator.HasRoom (pAllocator : Allocator) (ptr : Nat) (wanted : Int) : Prop :=
  if ptr = charPtrMax then wanted ≤ 0 else 0 ≤ pAllocator.usableSize ptr ∧ wanted ≤ pAllocator.usableSize ptr

def Allocator.HasFree (pAllocator : Allocator) (count : Int) : Prop :=
  ∃ region ∈ pAllocator.regions, ∃ block, OnList pAllocator.headers region.firstFreeBlock block ∧
    count ≤ pAllocator.headers.size block

def HasFit (layouts : List Layout) (count : Int) : Prop :=
  ∃ layout ∈ layouts, ∃ tile ∈ freeOf layout.tiles, count ≤ tile.size

section Finding
variable {build : HeapBuild} {headers headers' : Headers} {first prev : Option Nat} {region region' : MemRegion}
  {blocks tiles : List Tile} {layouts : List Layout} {count : Int} {fuel lower upper block : Nat}

theorem findFit_found (list : BlockList headers first blocks) (fits : ∃ tile ∈ blocks, count ≤ tile.size)
    (enough : blocks.length ≤ fuel) :
    ∃ before, ∃ tile ∈ blocks, MemRegion.findFit headers count fuel first prev = some (some (before, tile.start)) := by
  induction blocks generalizing first prev fuel with
  | nil =>
    obtain ⟨tile, member, -⟩ := fits
    exact absurd member List.not_mem_nil
  | cons tile rest ih =>
    obtain ⟨rfl, size, list'⟩ := list.tail
    cases fuel with
    | zero => simp at enough
    | succ fuel =>
      unfold MemRegion.findFit
      rw [size]
      by_cases large : (tile.size : Int) ≥ count
      · exact ⟨prev, tile, List.mem_cons_self, if_pos large⟩
      · rw [if_neg large]
        have later : ∃ tile ∈ rest, count ≤ tile.size := by
          obtain ⟨other, member, fits⟩ := fits
          rcases List.mem_cons.mp member with rfl | behind
          · exact absurd fits large
          · exact ⟨other, behind, fits⟩
        obtain ⟨before, found, member, does⟩ := ih list' later (Nat.le_of_succ_le_succ enough)
        exact ⟨before, found, List.mem_cons_of_mem _ member, does⟩

theorem allocMemBlock_found' (list : BlockList headers region.firstFreeBlock (freeOf tiles))
    (covers : Tiles 8 lower false tiles upper) (top : upper < 4294967296) (fits : ∃ tile ∈ freeOf tiles, count ≤ tile.size) :
    ∃ headers' region', ∃ tile ∈ tiles,
      MemRegion.allocMemBlock build headers region count = some (headers', region', some tile.start) ∧
        headers'.size tile.start = count := by
  have short : (freeOf tiles).length ≤ kBlockCapacity :=
    Nat.le_trans (List.length_filter_le _ _) (length_le_capacity covers (Nat.le_of_lt top))
  obtain ⟨before, tile, member, found⟩ := @findFit_found _ _ none _ _ _ list fits short
  unfold MemRegion.allocMemBlock
  rw [found]
  simp only [Option.bind_eq_bind, Option.bind_some]
  by_cases whole : headers.size tile.start = count
  · rw [if_pos whole]
    refine ⟨_, _, tile, (mem_freeOf.mp member).1, rfl, ?_⟩
    rw [Headers.setNext_size, MemRegion.setLink_size]
    exact whole
  · rw [if_neg whole]
    refine ⟨_, _, tile, (mem_freeOf.mp member).1, rfl, ?_⟩
    exact Headers.setSize_size_self ..

theorem allocMemBlock_missing (list : BlockList headers region.firstFreeBlock (freeOf tiles))
    (covers : Tiles 8 lower false tiles upper) (top : upper < 4294967296) (small : ∀ tile ∈ freeOf tiles, (tile.size : Int) < count) :
    MemRegion.allocMemBlock build headers region count = some (headers, region, none) := by
  have short : (freeOf tiles).length ≤ kBlockCapacity :=
    Nat.le_trans (List.length_filter_le _ _) (length_le_capacity covers (Nat.le_of_lt top))
  unfold MemRegion.allocMemBlock
  rw [findFit_none list small short]
  rfl

theorem allocFromRegions_cases (placed : Placed build (layouts.map (·.placement))) (holds : ∀ layout ∈ layouts, layout.Holds headers) :
    (¬HasFit layouts count ∧
        Allocator.allocFromRegions build count (layouts.map (·.region)) headers = some (headers, layouts.map (·.region), none)) ∨
      HasFit layouts count ∧ ∃ headers' regions, ∃ layout ∈ layouts, ∃ tile ∈ layout.tiles,
        Allocator.allocFromRegions build count (layouts.map (·.region)) headers = some (headers', regions, some tile.start) ∧
          headers'.size tile.start = count := by
  induction layouts with
  | nil =>
    left
    refine ⟨?_, rfl⟩
    rintro ⟨layout, member, -⟩
    exact absurd member List.not_mem_nil
  | cons layout rest ih =>
    have roomy := @Placed.of_mem _ _ layout placed List.mem_cons_self
    have here := holds layout List.mem_cons_self
    have top : layout.placement.usableUpper < 4294967296 := Nat.lt_of_le_of_lt layout.placement.usableUpper_le roomy.top
    have rest' := ih ⟨fun placement member => placed.roomy placement (List.mem_cons_of_mem _ member),
      (List.pairwise_cons.mp placed.apart).2⟩ (fun other member => holds other (List.mem_cons_of_mem _ member))
    rw [List.map_cons, Allocator.allocFromRegions]
    by_cases fits : ∃ tile ∈ freeOf layout.tiles, count ≤ tile.size
    · right
      obtain ⟨headers', region', tile, member, took, size⟩ := @allocMemBlock_found' build _ _ _ _ _ _ here.free here.covers top fits
      refine ⟨⟨layout, List.mem_cons_self, fits⟩, headers', region' :: rest.map (·.region), layout, List.mem_cons_self, tile,
        member, ?_, size⟩
      rw [took]
      rfl
    · have small : ∀ tile ∈ freeOf layout.tiles, (tile.size : Int) < count := fun tile member =>
        Int.not_le.mp fun large => fits ⟨tile, member, large⟩
      rw [allocMemBlock_missing here.free here.covers top small]
      simp only [Option.bind_eq_bind, Option.bind_some]
      rcases rest' with ⟨noFit, none⟩ | ⟨⟨other, there, fits'⟩, headers', regions, found, there', tile, member, took, size⟩
      · left
        rw [none]
        refine ⟨?_, rfl⟩
        rintro ⟨other, member, fits'⟩
        rcases List.mem_cons.mp member with rfl | behind
        · exact fits fits'
        · exact noFit ⟨other, behind, fits'⟩
      · right
        rw [took]
        exact ⟨⟨other, List.mem_cons_of_mem _ there, fits'⟩, headers', _, found, List.mem_cons_of_mem _ there', tile, member, rfl,
          size⟩

end Finding

/-! ## The outcome of a request -/

section Outcome
variable {build : HeapBuild} {pAllocator : Allocator} {layouts : List Layout} {blocks : List Tile} {nbytes : Nat} {count : Int}

theorem hasFit_iff (holds : pAllocator.Holds layouts blocks) :
    HasFit layouts count ↔ pAllocator.HasFree count := by
  constructor
  · rintro ⟨layout, member, tile, free, fits⟩
    have list := (holds.described layout member).free
    refine ⟨layout.region, ?_, tile.start, list.onList (mem_startsOf.mpr ⟨tile, free, rfl⟩), ?_⟩
    · rw [holds.regions]
      exact List.mem_map.mpr ⟨layout, member, rfl⟩
    · rw [list.sized tile free]
      exact fits
  · rintro ⟨region, member, block, met, fits⟩
    rw [holds.regions] at member
    obtain ⟨layout, there, rfl⟩ := List.mem_map.mp member
    have list := (holds.described layout there).free
    obtain ⟨tile, free, rfl⟩ := mem_startsOf.mp (met.mem list)
    rw [list.sized tile free] at fits
    exact ⟨layout, there, tile, free, fits⟩

/-- A block that is too small is returned as well, when a free block is not smaller than what the size has become. -/
theorem allocateBytes_cases (holds : pAllocator.Holds layouts blocks) (placed : Placed build (layouts.map (·.placement)))
    (request : nbytes ≠ 0) :
    (¬HasFit layouts (Allocator.bytesToAlloc build nbytes) ∧
        pAllocator.allocateBytes build nbytes = some (.error .ENOMEM, pAllocator)) ∨
      HasFit layouts (Allocator.bytesToAlloc build nbytes) ∧
        ∃ ptr after, pAllocator.allocateBytes build nbytes = some (.ok ptr, after) ∧ ptr ≠ 0 ∧ ptr ≠ charPtrMax ∧
          after.usableSize ptr = Allocator.bytesToAlloc build nbytes - kMemBlockSize := by
  unfold Allocator.allocateBytes
  rw [if_neg request, holds.regions]
  rcases @allocFromRegions_cases _ _ _ (Allocator.bytesToAlloc build nbytes) placed holds.described with
    ⟨noFit, none⟩ | ⟨fits, headers', regions, layout, there, tile, member, took, size⟩
  · left
    rw [none]
    refine ⟨noFit, ?_⟩
    simp only [Option.bind_eq_bind, Option.bind_some, ← holds.regions]
  · right
    rw [took]
    have covers := (holds.described layout there).covers
    have inside := covers.inside member
    have sized := covers.sized member
    have upper := layout.placement.dvd_usableUpper
    have limit := layout.placement.usableUpper_le
    have top := (placed.of_mem there).top
    have address : addPtr tile.start kMemBlockSize = tile.start + kMemBlockSize := by
      refine addPtr_natCast ?_
      unfold kMemBlockSize
      omega
    have back : addPtr (tile.start + kMemBlockSize) (-kMemBlockSize) = tile.start := by
      unfold addPtr kMemBlockSize
      omega
    refine ⟨fits, tile.start + kMemBlockSize,
      ⟨headers'.setNext tile.start pAllocator.firstAllocatedBlock, regions, some tile.start⟩, ?_, ?_, ?_, ?_⟩
    · simp only [Option.bind_eq_bind, Option.bind_some, address]
    · unfold kMemBlockSize
      omega
    · unfold kMemBlockSize charPtrMax
      omega
    · rw [Allocator.usableSize, back]
      exact congrArg (· - (kMemBlockSize : Int)) size

end Outcome

end Apollo.Klib
