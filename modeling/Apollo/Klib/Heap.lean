import Apollo.Klib.AllocatorRegions

/-!
# The regions and the list of allocated blocks

What `Allocator.c` keeps: the usable range of every region is cut into free and
allocated blocks, the free ones are on the list of the region, and the allocated
ones of all the regions are on one list.
-/

set_option autoImplicit false

namespace Apollo.Klib

open Lib

/-- A region that is made: where its header may start, and the memory that it gets. -/
structure Placement where
  pMemRegionHeader : Nat
  pMemDesc : MemoryDescriptor
  deriving DecidableEq

namespace Placement

def first (pMemDesc : MemoryDescriptor) : Placement := ⟨addPtr (ceilPtr pMemDesc.lower) kAllocatorSize, pMemDesc⟩

def added (pMemDesc : MemoryDescriptor) : Placement := ⟨pMemDesc.lower, pMemDesc⟩

def usableLower (placement : Placement) : Nat := ceilPtr (addPtr (ceilPtr placement.pMemRegionHeader) kMemRegionSize)

def usableUpper (placement : Placement) : Nat := floorPtr placement.pMemDesc.upper

/-- The headers fit in the memory, and the rest has a size. -/
structure Roomy (build : HeapBuild) (placement : Placement) : Prop where
  lower : placement.pMemDesc.lower + kMemRegionSize ≤ placement.usableLower
  order : placement.usableLower ≤ placement.usableUpper
  range : placement.usableUpper - placement.usableLower < build.sizeLimit
  top : placement.pMemDesc.upper < 4294967296

instance (build : HeapBuild) (placement : Placement) : Decidable (placement.Roomy build) :=
  decidable_of_iff (placement.pMemDesc.lower + kMemRegionSize ≤ placement.usableLower ∧
      placement.usableLower ≤ placement.usableUpper ∧
      placement.usableUpper - placement.usableLower < build.sizeLimit ∧ placement.pMemDesc.upper < 4294967296)
    ⟨fun ⟨lower, order, range, top⟩ => ⟨lower, order, range, top⟩, fun ⟨lower, order, range, top⟩ => ⟨lower, order, range, top⟩⟩

def Apart (placement other : Placement) : Prop :=
  placement.pMemDesc.upper ≤ other.pMemDesc.lower ∨ other.pMemDesc.upper ≤ placement.pMemDesc.lower

theorem Apart.symm {placement other : Placement} (apart : placement.Apart other) : other.Apart placement := Or.symm apart

theorem usableUpper_le (placement : Placement) : placement.usableUpper ≤ placement.pMemDesc.upper := Nat.div_mul_le_self _ _

theorem dvd_usableLower (placement : Placement) : 8 ∣ placement.usableLower := Nat.dvd_mul_left _ _

theorem dvd_usableUpper (placement : Placement) : 8 ∣ placement.usableUpper := Nat.dvd_mul_left _ _

end Placement

structure Layout where
  placement : Placement
  region : MemRegion
  tiles : List Tile

structure Layout.Cut (layout : Layout) : Prop where
  lower : layout.region.lower = layout.placement.pMemDesc.lower
  upper : layout.region.upper = layout.placement.pMemDesc.upper
  covers : Tiles 8 layout.placement.usableLower false layout.tiles layout.placement.usableUpper

structure Layout.Holds (headers : Headers) (layout : Layout) : Prop extends layout.Cut where
  free : BlockList headers layout.region.firstFreeBlock (freeOf layout.tiles)

def allUsed (layouts : List Layout) : List Tile := layouts.flatMap fun layout => usedOf layout.tiles

theorem mem_allUsed {layouts : List Layout} {tile : Tile} :
    tile ∈ allUsed layouts ↔ ∃ layout ∈ layouts, tile ∈ layout.tiles ∧ tile.isFree = false := by
  simp only [allUsed, List.mem_flatMap, mem_usedOf]

structure Allocator.Holds (pAllocator : Allocator) (layouts : List Layout) (blocks : List Tile) : Prop where
  regions : pAllocator.regions = layouts.map (·.region)
  described : ∀ layout ∈ layouts, layout.Holds pAllocator.headers
  allocated : BlockList pAllocator.headers pAllocator.firstAllocatedBlock blocks
  complete : blocks.Perm (allUsed layouts)

structure Placed (build : HeapBuild) (placements : List Placement) : Prop where
  roomy : ∀ placement ∈ placements, placement.Roomy build
  apart : placements.Pairwise Placement.Apart

section Placements
variable {build : HeapBuild} {headers headers' : Headers} {layout other : Layout} {tile : Tile}

theorem Layout.Cut.inside (cut : layout.Cut) (roomy : layout.placement.Roomy build) (member : tile ∈ layout.tiles) :
    layout.placement.pMemDesc.lower + kMemRegionSize ≤ tile.start ∧ 0 < tile.size ∧
      tile.start + tile.size ≤ layout.placement.pMemDesc.upper ∧ layout.placement.pMemDesc.upper < 4294967296 := by
  have inside := cut.covers.inside member
  have sized := cut.covers.sized member
  have upper := layout.placement.usableUpper_le
  have lower := roomy.lower
  exact ⟨by omega, sized.1, by omega, roomy.top⟩

/-- Blocks of two regions do not overlap. -/
theorem Layout.Cut.apart {tile' : Tile} (cut : layout.Cut) (cut' : other.Cut) (roomy : layout.placement.Roomy build)
    (roomy' : other.placement.Roomy build) (apart : layout.placement.Apart other.placement) (member : tile ∈ layout.tiles)
    (member' : tile' ∈ other.tiles) :
    tile.start + tile.size ≤ tile'.start ∨ tile'.start + tile'.size ≤ tile.start := by
  have inside := cut.inside roomy member
  have inside' := cut'.inside roomy' member'
  rcases apart with below | above
  · omega
  · omega

/-- What is written in another region does not matter. -/
theorem Layout.Holds.frame {blocks : List Tile} (holds : layout.Holds headers) (keeps : KeepsOutside blocks headers headers')
    (apart : ∀ tile ∈ freeOf layout.tiles, ∀ block ∈ blocks,
      tile.start < block.start ∨ block.start + block.size ≤ tile.start) : layout.Holds headers' := by
  refine ⟨holds.toCut, holds.free.congr ?_⟩
  intro start member
  obtain ⟨tile, inside, rfl⟩ := mem_startsOf.mp member
  exact keeps tile.start fun block there => apart tile inside block there

end Placements

section Middle
variable {build : HeapBuild} {headers : Headers} {front back layouts : List Layout} {layout other : Layout} {tile block : Tile}

theorem Placed.of_mem (placed : Placed build (layouts.map (·.placement))) (member : layout ∈ layouts) :
    layout.placement.Roomy build :=
  placed.roomy _ (List.mem_map.mpr ⟨layout, member, rfl⟩)

theorem Placed.others (placed : Placed build ((front ++ layout :: back).map (·.placement))) (member : other ∈ front ++ back) :
    other.placement.Roomy build ∧ other.placement.Apart layout.placement := by
  have apart := placed.apart
  rw [List.map_append, List.map_cons, List.pairwise_append] at apart
  rcases List.mem_append.mp member with before | behind
  · refine ⟨placed.of_mem (List.mem_append_left _ before), ?_⟩
    exact apart.2.2 _ (List.mem_map.mpr ⟨other, before, rfl⟩) _ List.mem_cons_self
  · refine ⟨placed.of_mem (List.mem_append_right _ (List.mem_cons_of_mem _ behind)), ?_⟩
    exact (List.rel_of_pairwise_cons apart.2.1 (List.mem_map.mpr ⟨other, behind, rfl⟩)).symm

theorem mem_middle : other ∈ front ++ layout :: back ↔ other = layout ∨ other ∈ front ++ back := by
  simp only [List.mem_append, List.mem_cons]
  tauto

theorem allUsed_apart (placed : Placed build (layouts.map (·.placement))) (cut : ∀ layout ∈ layouts, layout.Cut)
    (member : block ∈ allUsed layouts) (there : layout ∈ layouts) (free : tile ∈ freeOf layout.tiles) :
    (block.start < tile.start ∨ tile.start + tile.size ≤ block.start) ∧
      (tile.start < block.start ∨ block.start + block.size ≤ tile.start) := by
  obtain ⟨other, there', inside, used⟩ := mem_allUsed.mp member
  obtain ⟨inside', isFree⟩ := mem_freeOf.mp free
  have positive := ((cut other there').inside (placed.of_mem there') inside).2.1
  have positive' := ((cut layout there).inside (placed.of_mem there) inside').2.1
  have separate : block.start + block.size ≤ tile.start ∨ tile.start + tile.size ≤ block.start := by
    obtain ⟨front, back, rfl⟩ := List.append_of_mem there
    rcases mem_middle.mp there' with rfl | elsewhere
    · refine (cut _ there).covers.disjoint inside inside' ?_
      rintro rfl
      exact absurd (used.symm.trans isFree) (by simp)
    · obtain ⟨roomy, apart⟩ := placed.others elsewhere
      exact (cut other there').apart (cut layout there) roomy (placed.of_mem there) apart inside inside'
  omega

end Middle

/-! ## The regions one after the other -/

section Allocating
variable {build : HeapBuild} {headers : Headers} {pAllocator : Allocator} {front back layouts : List Layout} {layout : Layout}
  {blocks : List Tile} {count nbytes : Nat}

theorem allocFromRegions_spec (placed : Placed build (layouts.map (·.placement))) (holds : ∀ layout ∈ layouts, layout.Holds headers)
    (positive : 0 < count) :
    (Allocator.allocFromRegions build count (layouts.map (·.region)) headers = some (headers, layouts.map (·.region), none) ∧
        ∀ layout ∈ layouts, ∀ tile ∈ freeOf layout.tiles, tile.size < count) ∨
      ∃ front layout back front' start size back' headers' region', layouts = front ++ layout :: back ∧
        layout.tiles = front' ++ ⟨start, size, true⟩ :: back' ∧ count ≤ size ∧
        Allocator.allocFromRegions build count (layouts.map (·.region)) headers =
          some (headers', (front ++ ⟨layout.placement, region', takenFrom front' start size count back'⟩ :: back).map (·.region),
            some start) ∧
        BlockList headers' region'.firstFreeBlock (freeOf (takenFrom front' start size count back')) ∧
        headers'.size start = count ∧ region'.lower = layout.region.lower ∧ region'.upper = layout.region.upper ∧
        KeepsOutside (freeOf layout.tiles) headers headers' := by
  induction layouts with
  | nil => exact .inl ⟨rfl, fun _ member => absurd member List.not_mem_nil⟩
  | cons layout rest ih =>
    have roomy := @Placed.of_mem _ _ layout placed List.mem_cons_self
    have here := holds layout List.mem_cons_self
    have top : layout.placement.usableUpper < 4294967296 := Nat.lt_of_le_of_lt layout.placement.usableUpper_le roomy.top
    have rest' := ih ⟨fun placement member => placed.roomy placement (List.mem_cons_of_mem _ member),
      (List.pairwise_cons.mp placed.apart).2⟩ (fun other member => holds other (List.mem_cons_of_mem _ member))
    rw [List.map_cons, Allocator.allocFromRegions]
    rcases allocMemBlock_spec build here.free here.covers top roomy.range positive with
      ⟨missed, small⟩ | ⟨headers', region', front', start, size, back', took, parts, fits, list', sized, lower, upper, keeps⟩
    · rw [missed]
      simp only [Option.bind_eq_bind, Option.bind_some]
      rcases rest' with ⟨none, small'⟩ | ⟨front, other, back, front', start, size, back', headers', region', parts, rest'⟩
      · left
        rw [none]
        exact ⟨rfl, List.forall_mem_cons.mpr ⟨small, small'⟩⟩
      · right
        obtain ⟨parts', fits, took, facts⟩ := rest'
        refine ⟨layout :: front, other, back, front', start, size, back', headers', region', by rw [parts]; rfl, parts', fits, ?_,
          facts⟩
        rw [took]
        rfl
    · right
      refine ⟨[], layout, rest, front', start, size, back', headers', region', rfl, parts, fits, ?_, list', sized, lower, upper,
        keeps⟩
      rw [took]
      rfl

end Allocating

section Elsewhere
variable {build : HeapBuild} {headers headers' : Headers} {first : Option Nat} {front back layouts : List Layout}
  {layout other : Layout} {blocks written : List Tile}

theorem holds_elsewhere (placed : Placed build ((front ++ layout :: back).map (·.placement)))
    (holds : ∀ other ∈ front ++ back, other.Holds headers) (keeps : KeepsOutside written headers headers')
    (inside : ∀ block ∈ written, layout.placement.usableLower ≤ block.start ∧
      block.start + block.size ≤ layout.placement.usableUpper) (member : other ∈ front ++ back) : other.Holds headers' := by
  have holds' := holds other member
  obtain ⟨roomy, apart⟩ := placed.others member
  refine holds'.frame keeps fun tile free block isWritten => ?_
  have within := holds'.inside roomy (mem_freeOf.mp free).1
  have within' := inside block isWritten
  have lower := (placed.of_mem (List.mem_append_right front List.mem_cons_self)).lower
  have upper := layout.placement.usableUpper_le
  rcases apart with below | above
  · omega
  · omega

theorem BlockList.cons (list : BlockList headers first blocks) (tile : Tile) (next : headers.next tile.start = first)
    (sized : headers.size tile.start = tile.size) : BlockList headers (some tile.start) (tile :: blocks) := by
  refine ⟨rfl, ⟨?_, list.linked⟩, List.forall_mem_cons.mpr ⟨sized, list.sized⟩⟩
  rw [Option.or_none, next]
  exact list.first

/-- What is written in free blocks does not matter to the allocated ones. -/
theorem BlockList.elsewhere (list : BlockList headers first blocks) (placed : Placed build (layouts.map (·.placement)))
    (cut : ∀ layout ∈ layouts, layout.Cut) (used : ∀ block ∈ blocks, block ∈ allUsed layouts) (member : layout ∈ layouts)
    (keeps : KeepsOutside (freeOf layout.tiles) headers headers') : BlockList headers' first blocks := by
  refine list.congr fun start there => ?_
  obtain ⟨block, inside, rfl⟩ := mem_startsOf.mp there
  exact keeps block.start fun tile free => (allUsed_apart placed cut (used block inside) member free).1

theorem allUsed_middle : allUsed (front ++ layout :: back) = allUsed front ++ (usedOf layout.tiles ++ allUsed back) := by
  simp [allUsed]

end Elsewhere

/-! ## Allocating -/

section Taking
variable {build : HeapBuild} {headers' : Headers} {pAllocator : Allocator} {front back layouts : List Layout} {layout : Layout}
  {region' : MemRegion} {blocks front' back' : List Tile} {start size count nbytes : Nat}

theorem Allocator.Holds.taken (holds : pAllocator.Holds (front ++ layout :: back) blocks)
    (placed : Placed build ((front ++ layout :: back).map (·.placement)))
    (parts : layout.tiles = front' ++ ⟨start, size, true⟩ :: back') (positive : 0 < count) (divides : 8 ∣ count)
    (fits : count ≤ size) (list : BlockList headers' region'.firstFreeBlock (freeOf (takenFrom front' start size count back')))
    (sized : headers'.size start = count) (lower : region'.lower = layout.region.lower)
    (upper : region'.upper = layout.region.upper) (keeps : KeepsOutside (freeOf layout.tiles) pAllocator.headers headers') :
    Allocator.Holds
      ⟨headers'.setNext start pAllocator.firstAllocatedBlock,
        (front ++ ⟨layout.placement, region', takenFrom front' start size count back'⟩ :: back).map (·.region), some start⟩
      (front ++ ⟨layout.placement, region', takenFrom front' start size count back'⟩ :: back) (⟨start, count, false⟩ :: blocks) := by
  have member : layout ∈ front ++ layout :: back := List.mem_append_right _ List.mem_cons_self
  have here := holds.described layout member
  have covers := here.covers
  rw [parts] at covers
  have hole : ⟨start, size, true⟩ ∈ freeOf layout.tiles := by
    rw [parts]
    exact mem_freeOf.mpr ⟨List.mem_append_right _ List.mem_cons_self, rfl⟩
  have keeps' := keeps.setNext ⟨_, hole, Nat.le_refl start, by dsimp only; omega⟩ pAllocator.firstAllocatedBlock
  have cut : Layout.Cut ⟨layout.placement, region', takenFrom front' start size count back'⟩ :=
    ⟨lower.trans here.lower, upper.trans here.upper, covers.take positive divides fits⟩
  have used : ∀ block ∈ blocks, block ∈ allUsed (front ++ layout :: back) := fun _ => holds.complete.mem_iff.mp
  have list' := holds.allocated.elsewhere placed (fun other there => (holds.described other there).toCut) used member keeps'
  refine ⟨rfl, ?_, list'.cons ⟨start, count, false⟩ (Headers.setNext_next_self ..) sized, ?_⟩
  · intro other there
    rcases mem_middle.mp there with rfl | elsewhere
    · refine ⟨cut, list.setNext fun absurd => ?_⟩
      obtain ⟨tile, free, same⟩ := mem_startsOf.mp absurd
      obtain ⟨inside, isFree⟩ := mem_freeOf.mp free
      have equal := @Tiles.eq_of_start _ _ _ _ _ _ ⟨start, count, false⟩ cut.covers inside
        (List.mem_append_right _ List.mem_cons_self) same
      rw [equal] at isFree
      simp at isFree
    · exact holds_elsewhere placed (fun other there => holds.described other (mem_middle.mpr (.inr there))) keeps' (fun block free => here.covers.inside (mem_freeOf.mp free).1) elsewhere
  · have old : allUsed (front ++ layout :: back) = (allUsed front ++ usedOf front') ++ (usedOf back' ++ allUsed back) := by
      rw [allUsed_middle, parts]
      simp only [usedOf_append, usedOf_cons_free, List.append_assoc]
    have new : allUsed (front ++ ⟨layout.placement, region', takenFrom front' start size count back'⟩ :: back) =
        (allUsed front ++ usedOf front') ++ ⟨start, count, false⟩ :: (usedOf back' ++ allUsed back) := by
      rw [allUsed_middle, takenFrom]
      simp only [usedOf_append, usedOf_cons_used, usedOf_freeTile, List.nil_append, List.append_assoc, List.cons_append]
    rw [new]
    exact ((old ▸ holds.complete).cons _).trans List.perm_middle.symm

theorem allocateBytes_spec (holds : pAllocator.Holds layouts blocks) (placed : Placed build (layouts.map (·.placement)))
    (request : nbytes ≠ 0) (rounded : Allocator.bytesToAlloc build nbytes = count) (positive : 0 < count) (divides : 8 ∣ count) :
    (pAllocator.allocateBytes build nbytes = some (.error .ENOMEM, pAllocator) ∧
        ∀ layout ∈ layouts, ∀ tile ∈ freeOf layout.tiles, tile.size < count) ∨
      ∃ front layout back front' start size back' region' after, layouts = front ++ layout :: back ∧
        layout.tiles = front' ++ ⟨start, size, true⟩ :: back' ∧ count ≤ size ∧
        pAllocator.allocateBytes build nbytes = some (.ok (start + kMemBlockSize), after) ∧
        after.Holds (front ++ ⟨layout.placement, region', takenFrom front' start size count back'⟩ :: back)
          (⟨start, count, false⟩ :: blocks) := by
  unfold Allocator.allocateBytes
  rw [if_neg request, rounded, holds.regions]
  rcases allocFromRegions_spec placed holds.described positive with
    ⟨none, small⟩ | ⟨front, layout, back, front', start, size, back', headers', region', rfl, parts, fits, took, list', sized, lower,
      upper, keeps⟩
  · left
    rw [none]
    refine ⟨?_, small⟩
    simp only [Option.bind_eq_bind, Option.bind_some, ← holds.regions]
  · right
    have taken := holds.taken placed parts positive divides fits list' sized lower upper keeps
    have member : layout ∈ front ++ layout :: back := List.mem_append_right _ List.mem_cons_self
    have inside := @Layout.Cut.inside _ _ ⟨start, size, true⟩ (holds.described layout member).toCut (placed.of_mem member) (by
      rw [parts]
      exact List.mem_append_right _ List.mem_cons_self)
    dsimp only at inside
    have address : addPtr start kMemBlockSize = start + kMemBlockSize := by
      refine addPtr_natCast ?_
      unfold kMemBlockSize
      omega
    refine ⟨front, layout, back, front', start, size, back', region', _, rfl, parts, fits, ?_, taken⟩
    rw [took]
    simp only [Option.bind_eq_bind, Option.bind_some, address]

end Taking

/-! ## Freeing -/

section GivingBack
variable {build : HeapBuild} {headers : Headers} {pAllocator : Allocator} {front back layouts : List Layout} {layout : Layout}
  {region : MemRegion} {blocks blocks' front' back' : List Tile} {tile : Tile} {start before size after : Nat}

theorem allUsed_disjoint (placed : Placed build (layouts.map (·.placement))) (cut : ∀ layout ∈ layouts, layout.Cut) :
    (allUsed layouts).Pairwise fun tile other => tile.start + tile.size ≤ other.start ∨ other.start + other.size ≤ tile.start := by
  rw [allUsed, List.pairwise_flatMap]
  constructor
  · intro layout member
    exact ((cut layout member).covers.ascending.imp Or.inl).sublist List.filter_sublist
  · have apart := placed.apart
    rw [List.pairwise_map] at apart
    refine apart.imp_of_mem fun {layout other} member member' separate tile inside tile' inside' => ?_
    exact (cut layout member).apart (cut other member') (placed.of_mem member) (placed.of_mem member') separate
      (mem_usedOf.mp inside).1 (mem_usedOf.mp inside').1

theorem Allocator.Holds.nodup (holds : pAllocator.Holds layouts blocks) (placed : Placed build (layouts.map (·.placement))) :
    (startsOf blocks).Nodup := by
  have cut := fun layout member => (holds.described layout member).toCut
  have disjoint := (holds.complete.pairwise_iff fun {_ _} => Or.symm).mpr (allUsed_disjoint placed cut)
  rw [startsOf, List.Nodup, List.pairwise_map]
  refine disjoint.imp_of_mem fun {tile other} member member' separate => ?_
  obtain ⟨layout, there, inside, -⟩ := mem_allUsed.mp (holds.complete.mem_iff.mp member)
  obtain ⟨layout', there', inside', -⟩ := mem_allUsed.mp (holds.complete.mem_iff.mp member')
  have positive := ((cut layout there).inside (placed.of_mem there) inside).2.1
  have positive' := ((cut layout' there').inside (placed.of_mem there') inside').2.1
  omega

theorem Allocator.Holds.length_le (holds : pAllocator.Holds layouts blocks)
    (placed : Placed build (layouts.map (·.placement))) : blocks.length ≤ kBlockCapacity := by
  have inside : startsOf blocks ⊆ List.range kBlockCapacity := by
    intro start member
    obtain ⟨tile, there, rfl⟩ := mem_startsOf.mp member
    obtain ⟨layout, isLayout, inside, -⟩ := mem_allUsed.mp (holds.complete.mem_iff.mp there)
    have within := (holds.described layout isLayout).inside (placed.of_mem isLayout) inside
    rw [List.mem_range, kBlockCapacity]
    omega
  have short := (List.Nodup.subperm (holds.nodup placed) inside).length_le
  rwa [List.length_range, startsOf, List.length_map] at short

theorem unlinkAllocated_spec (list : BlockList pAllocator.headers pAllocator.firstAllocatedBlock (blocks ++ tile :: blocks'))
    (nodup : (startsOf (blocks ++ tile :: blocks')).Nodup) (positive : ∀ block ∈ blocks ++ tile :: blocks', 0 < block.size)
    (enough : blocks.length < kBlockCapacity) :
    ∃ headers first, pAllocator.unlinkAllocated tile.start = some ⟨headers, pAllocator.regions, first⟩ ∧
      BlockList headers first (blocks ++ blocks') ∧ headers.next tile.start = none ∧
      headers.size = pAllocator.headers.size ∧ KeepsOutside (blocks ++ tile :: blocks') pAllocator.headers headers := by
  have absent : tile.start ∉ startsOf (blocks ++ blocks') := by
    rw [startsOf_append, startsOf_cons, List.nodup_middle] at nodup
    rw [startsOf_append]
    exact (List.nodup_cons.mp nodup).1
  have absent' : tile.start ∉ startsOf blocks := fun member => absent (by
    rw [startsOf_append]
    exact List.mem_append_left _ member)
  have linked := list.linked
  rw [startsOf_append] at linked
  have next : pAllocator.headers.next tile.start = (startsOf blocks').head? := by
    have points := (Segment.append.mp linked).2.1
    rwa [Option.or_none] at points
  have inside : ∀ block ∈ blocks ++ tile :: blocks', ∃ other ∈ blocks ++ tile :: blocks',
      other.start ≤ block.start ∧ block.start < other.start + other.size := by
    intro block member
    have := positive block member
    exact ⟨block, member, Nat.le_refl _, by omega⟩
  have refl := KeepsOutside.refl (blocks ++ tile :: blocks') pAllocator.headers
  have atBlock := inside tile (List.mem_append_right _ List.mem_cons_self)
  have found : Allocator.findAllocated pAllocator.headers tile.start kBlockCapacity pAllocator.firstAllocatedBlock none =
      some (some ((startsOf blocks).getLast?.or none)) := findAllocated_eq list absent' enough
  unfold Allocator.unlinkAllocated
  rw [found, Option.or_none]
  cases last : (startsOf blocks).getLast? with
  | none =>
    have empty : blocks = [] := List.map_eq_nil_iff.mp (List.getLast?_eq_none_iff.mp last)
    subst empty
    refine ⟨_, _, rfl, ?_, Headers.setNext_next_self .., rfl, refl.setNext atBlock none⟩
    exact list.tail.2.2.setNext absent
  | some prev =>
    obtain ⟨block, member, rfl⟩ := mem_startsOf.mp (List.mem_of_getLast? last)
    have nodup' : (startsOf blocks ++ startsOf blocks').Nodup := by
      rw [startsOf_append, startsOf_cons, List.nodup_middle] at nodup
      exact (List.nodup_cons.mp nodup).2
    have linked' : BlockList (pAllocator.headers.setNext block.start (pAllocator.headers.next tile.start))
        pAllocator.firstAllocatedBlock (blocks ++ ([] ++ blocks')) := by
      refine @BlockList.exchange _ _ _ _ _ [tile] _ _ list ?_ ?_ ?_ trivial ?_ (fun _ _ => rfl) (fun _ none => by simp at none)
      · rw [list.first, startsOf_append, startsOf_append]
        cases blocks with
        | nil => simp at last
        | cons other rest => rfl
      · intro start there
        refine Headers.setNext_next_of_ne _ _ ?_
        rintro rfl
        exact getLast?_not_mem_dropLast (List.nodup_append.mp nodup').1 last there
      · intro start isLast
        rw [last, Option.some.injEq] at isLast
        rw [← isLast, Headers.setNext_next_self, next]
        rfl
      · intro start there
        refine Headers.setNext_next_of_ne _ _ ?_
        rintro rfl
        exact (List.nodup_append.mp nodup').2.2 _ (List.mem_of_getLast? last) _ there rfl
    refine ⟨_, _, rfl, linked'.setNext absent, Headers.setNext_next_self .., rfl, ?_⟩
    exact (refl.setNext (inside block (List.mem_append_left _ member)) _).setNext atBlock none

theorem freeInRegions_spec {ptr pBlockToFree : Nat} {headers' : Headers} {region' : MemRegion}
    (elsewhere : ∀ layout ∈ front, layout.region.isManaging ptr = false) (here : layout.region.isManaging ptr = true)
    (freed : MemRegion.freeMemBlock build headers layout.region pBlockToFree = some (headers', region')) :
    Allocator.freeInRegions build ptr pBlockToFree ((front ++ layout :: back).map (·.region)) headers =
      some (headers', front.map (·.region) ++ region' :: back.map (·.region)) := by
  induction front with
  | nil =>
    rw [List.nil_append, List.map_cons, Allocator.freeInRegions, if_pos here, freed]
    rfl
  | cons other rest ih =>
    rw [List.cons_append, List.map_cons, Allocator.freeInRegions,
      if_neg (ne_true_of_eq_false (elsewhere other List.mem_cons_self)),
      ih fun layout member => elsewhere layout (List.mem_cons_of_mem _ member)]
    rfl

theorem isManaging_iff {ptr : Nat} : region.isManaging ptr = true ↔ region.lower ≤ ptr ∧ ptr < region.upper := by
  rw [MemRegion.isManaging, Bool.and_eq_true, decide_eq_true_eq, decide_eq_true_eq]

/-- What `Allocator_DeallocateBytes` does with a block that is allocated: it is joined with the free blocks around it. -/
theorem deallocateBytes_spec (holds : pAllocator.Holds (front ++ layout :: back) (blocks ++ ⟨start + before, size, false⟩ :: blocks'))
    (placed : Placed build ((front ++ layout :: back).map (·.placement)))
    (parts : layout.tiles = giveBackFrom front' start before size after back') (used : endsFree false front' = false)
    (used' : beginsFree back' = false) (large : kMemBlockSize < size) :
    ∃ region' done, pAllocator.deallocateBytes build (start + before + kMemBlockSize) = some (.ok (), done) ∧
      done.Holds (front ++ ⟨layout.placement, region', front' ++ ⟨start, before + size + after, true⟩ :: back'⟩ :: back)
        (blocks ++ blocks') := by
  have member : layout ∈ front ++ layout :: back := List.mem_append_right _ List.mem_cons_self
  have roomy := placed.of_mem member
  have here := holds.described layout member
  have isTile : ⟨start + before, size, false⟩ ∈ layout.tiles := by
    rw [parts, giveBackFrom]
    simp
  have inside := here.inside roomy isTile
  dsimp only [kMemRegionSize] at inside
  dsimp only [kMemBlockSize] at large
  have managing : layout.region.isManaging (start + before + kMemBlockSize) = true := by
    rw [isManaging_iff, here.lower, here.upper, kMemBlockSize]
    omega
  have elsewhere : ∀ other ∈ front, other.region.isManaging (start + before + kMemBlockSize) = false := by
    intro other there
    have holds' := holds.described other (List.mem_append_left _ there)
    have apart := (placed.others (List.mem_append_left back there)).2
    rw [← Bool.not_eq_true, isManaging_iff, holds'.lower, holds'.upper, kMemBlockSize]
    rcases apart with below | above
    · omega
    · omega
  have nodup := holds.nodup placed
  have enough : blocks.length < kBlockCapacity := by
    have := holds.length_le placed
    rw [List.length_append, List.length_cons] at this
    omega
  have cut := fun layout member => (holds.described layout member).toCut
  have isUsed : ∀ block ∈ blocks ++ ⟨start + before, size, false⟩ :: blocks', block ∈ allUsed (front ++ layout :: back) :=
    fun _ => holds.complete.mem_iff.mp
  have positive : ∀ block ∈ blocks ++ ⟨start + before, size, false⟩ :: blocks', 0 < block.size := by
    intro block there
    obtain ⟨other, isLayout, isTile, -⟩ := mem_allUsed.mp (isUsed block there)
    exact ((cut other isLayout).inside (placed.of_mem isLayout) isTile).2.1
  -- The block is taken from the list of allocated blocks,
  obtain ⟨headers₁, first₁, unlinked, list₁, next₁, size₁, keeps₁⟩ := unlinkAllocated_spec holds.allocated nodup positive enough
  have holds₁ : ∀ other ∈ front ++ layout :: back, other.Holds headers₁ := fun other there =>
    (holds.described other there).frame keeps₁ fun tile free block isBlock =>
      (allUsed_apart placed cut (isUsed block isBlock) there free).2
  -- and put on the list of free blocks.
  have sized : headers₁.size (start + before) = size := by
    rw [size₁]
    exact holds.allocated.sized ⟨start + before, size, false⟩ (List.mem_append_right _ List.mem_cons_self)
  have free := (holds₁ layout member).free
  have covers := here.covers
  rw [parts] at free covers
  have top : layout.placement.usableUpper < 4294967296 := Nat.lt_of_le_of_lt layout.placement.usableUpper_le roomy.top
  obtain ⟨headers₂, region₂, freed, list₂, lower, upper, keeps₂⟩ :=
    freeMemBlock_around build free covers top roomy.range used used' sized next₁
  have cut₂ : Layout.Cut ⟨layout.placement, region₂, front' ++ ⟨start, before + size + after, true⟩ :: back'⟩ :=
    ⟨lower.trans here.lower, upper.trans here.upper, covers.giveBack used used'⟩
  have holds₂ : ∀ other ∈ front ++ ⟨layout.placement, region₂, front' ++ ⟨start, before + size + after, true⟩ :: back'⟩ :: back,
      other.Holds headers₂ := by
    intro other there
    rcases mem_middle.mp there with rfl | elsewhere
    · exact ⟨cut₂, list₂⟩
    · exact holds_elsewhere placed (fun other there => holds₁ other (mem_middle.mpr (.inr there))) keeps₂ (fun block isFree => cut₂.covers.inside (mem_freeOf.mp isFree).1) elsewhere
  have complete : (blocks ++ blocks').Perm
      (allUsed (front ++ ⟨layout.placement, region₂, front' ++ ⟨start, before + size + after, true⟩ :: back'⟩ :: back)) := by
    have old : allUsed (front ++ layout :: back) =
        (allUsed front ++ usedOf front') ++ ⟨start + before, size, false⟩ :: (usedOf back' ++ allUsed back) := by
      rw [allUsed_middle, parts, giveBackFrom]
      simp only [usedOf_append, usedOf_cons_used, usedOf_freeTile, List.nil_append, List.append_assoc, List.cons_append]
    have new : allUsed (front ++ ⟨layout.placement, region₂, front' ++ ⟨start, before + size + after, true⟩ :: back'⟩ :: back) =
        (allUsed front ++ usedOf front') ++ (usedOf back' ++ allUsed back) := by
      rw [allUsed_middle]
      simp only [usedOf_append, usedOf_cons_free, List.append_assoc]
    rw [new]
    exact ((List.perm_middle.symm.trans (old ▸ holds.complete)).trans List.perm_middle).cons_inv
  have placed₂ : Placed build
      ((front ++ ⟨layout.placement, region₂, front' ++ ⟨start, before + size + after, true⟩ :: back'⟩ :: back).map (·.placement)) := by
    rw [List.map_append, List.map_cons] at placed ⊢
    exact placed
  have allocated := list₁.elsewhere placed₂ (fun other there => (holds₂ other there).toCut) (fun _ => complete.mem_iff.mp)
    (List.mem_append_right _ List.mem_cons_self) keeps₂
  have address : addPtr (start + before + kMemBlockSize) (-kMemBlockSize) = start + before := by
    unfold addPtr kMemBlockSize
    omega
  have regular : ¬(start + before + kMemBlockSize = 0 ∨ start + before + kMemBlockSize = charPtrMax) := by
    unfold kMemBlockSize charPtrMax
    omega
  have managed : ∃ region ∈ pAllocator.regions, region.isManaging (start + before + kMemBlockSize) = true := by
    rw [holds.regions]
    exact ⟨layout.region, List.mem_map.mpr ⟨layout, member, rfl⟩, managing⟩
  refine ⟨region₂, ⟨headers₂, _, first₁⟩, ?_, ⟨rfl, holds₂, allocated, complete⟩⟩
  unfold Allocator.deallocateBytes
  rw [if_neg regular, if_neg (not_not.mpr managed), address]
  simp only [Option.bind_eq_bind]
  rw [unlinked, holds.regions]
  simp only [Option.bind_some]
  rw [if_neg (not_not.mpr next₁), freeInRegions_spec elsewhere managing freed]
  simp

end GivingBack

/-! ## New regions -/

section Creating
variable {build : HeapBuild} {headers headers' : Headers} {pAllocator after : Allocator} {layouts : List Layout}
  {blocks : List Tile} {placement : Placement} {pMemDesc : MemoryDescriptor} {region : MemRegion}

def Placement.block (placement : Placement) : Tile := ⟨placement.usableLower, placement.usableUpper - placement.usableLower, true⟩

def Placement.unused (placement : Placement) (region : MemRegion) : Layout := ⟨placement, region, [placement.block]⟩

theorem create_eq (build : HeapBuild) (headers : Headers) (placement : Placement) :
    MemRegion.create build headers placement.pMemRegionHeader placement.pMemDesc =
      if placement.usableUpper > placement.pMemDesc.upper then none
      else if addPtr placement.usableUpper (-placement.usableLower) ≤ kMemBlockSize then none
      else
        some ((headers.setNext placement.usableLower none).setSize placement.usableLower
            (build.toSize (placement.usableUpper - placement.usableLower)),
          ⟨placement.pMemDesc.lower, placement.pMemDesc.upper, some placement.usableLower⟩) := rfl

/-- In a region with room the difference of the pointers is the size of the block. -/
theorem Placement.Roomy.distance (roomy : placement.Roomy build) :
    addPtr placement.usableUpper (-placement.usableLower) = placement.usableUpper - placement.usableLower := by
  have order := roomy.order
  have top := roomy.top
  have upper := placement.usableUpper_le
  unfold addPtr
  omega

theorem create_none (roomy : placement.Roomy build)
    (none : MemRegion.create build headers placement.pMemRegionHeader placement.pMemDesc = none) :
    placement.usableUpper - placement.usableLower ≤ kMemBlockSize := by
  by_contra large
  rw [create_eq, if_neg (Nat.not_lt.mpr placement.usableUpper_le), roomy.distance, if_neg large] at none
  simp at none

/-- What `MemRegion_Create` makes of memory with enough room. -/
theorem create_spec (roomy : placement.Roomy build)
    (created : MemRegion.create build headers placement.pMemRegionHeader placement.pMemDesc = some (headers', region)) :
    Layout.Holds headers' (placement.unused region) ∧ KeepsOutside [placement.block] headers headers' := by
  have order := roomy.order
  have range := roomy.range
  have upper := placement.usableUpper_le
  rw [create_eq, if_neg (Nat.not_lt.mpr upper)] at created
  split at created
  · simp at created
  · rename_i large
    obtain ⟨rfl, rfl⟩ := created
    rw [roomy.distance, kMemBlockSize] at large
    have divides : 8 ∣ placement.usableUpper - placement.usableLower :=
      Nat.dvd_sub placement.dvd_usableUpper placement.dvd_usableLower
    have size : build.toSize ((placement.usableUpper : Int) - placement.usableLower) =
        (placement.usableUpper - placement.usableLower : Nat) := by
      rw [← Int.ofNat_sub order, build.toSize_natCast range]
    have covers : Tiles 8 placement.usableLower false [placement.block] placement.usableUpper :=
      ⟨rfl, by dsimp only [Placement.block]; omega, divides, fun absurd => by simp at absurd, by
        change placement.usableLower + (placement.usableUpper - placement.usableLower) = placement.usableUpper
        omega⟩
    constructor
    · refine ⟨⟨rfl, rfl, covers⟩, rfl, ⟨?_, trivial⟩, ?_⟩
      · exact Headers.setNext_next_self ..
      · intro tile member
        rw [List.mem_singleton.mp member]
        exact (Headers.setSize_size_self ..).trans size
    · have inside : ∃ tile ∈ [placement.block], tile.start ≤ placement.usableLower ∧
          placement.usableLower < tile.start + tile.size :=
        ⟨_, List.mem_singleton.mpr rfl, Nat.le_refl _, by dsimp only [Placement.block]; omega⟩
      exact ((KeepsOutside.refl _ _).setNext inside none).setSize inside _

theorem Allocator.create_spec (roomy : (Placement.first pMemDesc).Roomy build)
    (created : Allocator.create build headers pMemDesc = .ok pAllocator) :
    ∃ region, pAllocator.Holds [(Placement.first pMemDesc).unused region] [] := by
  unfold Allocator.create at created
  dsimp only at created
  cases made : MemRegion.create build headers (addPtr (ceilPtr pMemDesc.lower) kAllocatorSize) pMemDesc with
  | none =>
    rw [made] at created
    simp at created
  | some result =>
    obtain ⟨headers', region⟩ := result
    rw [made] at created
    obtain rfl := Except.ok.inj created
    obtain ⟨holds, -⟩ := @Klib.create_spec _ _ _ (.first pMemDesc) _ roomy made
    refine ⟨region, rfl, ?_, ⟨rfl, trivial, fun _ none => by simp at none⟩, List.Perm.refl _⟩
    intro layout member
    rw [List.mem_singleton.mp member]
    exact holds

theorem Allocator.Holds.addMemoryRegion (holds : pAllocator.Holds layouts blocks)
    (placed : Placed build ((layouts.map (·.placement)) ++ [.added pMemDesc])) :
    (pAllocator.addMemoryRegion build pMemDesc = (.error .ENOMEM, pAllocator) ∧
        (Placement.added pMemDesc).usableUpper - (Placement.added pMemDesc).usableLower ≤ kMemBlockSize) ∨
      ∃ region after, pAllocator.addMemoryRegion build pMemDesc = (.ok (), after) ∧
        after.Holds (layouts ++ [(Placement.added pMemDesc).unused region]) blocks := by
  have roomy : (Placement.added pMemDesc).Roomy build := placed.roomy _ (List.mem_append_right _ (List.mem_singleton.mpr rfl))
  unfold Allocator.addMemoryRegion
  cases made : MemRegion.create build pAllocator.headers pMemDesc.lower pMemDesc with
  | none => exact .inl ⟨rfl, @create_none _ _ (.added pMemDesc) roomy made⟩
  | some result =>
    right
    obtain ⟨headers', region⟩ := result
    obtain ⟨holds', keeps⟩ := @Klib.create_spec _ _ _ (.added pMemDesc) _ roomy made
    have placed' : Placed build ((layouts ++ [(Placement.added pMemDesc).unused region]).map (·.placement)) := by
      rwa [List.map_append]
    have elsewhere : ∀ other ∈ layouts, other.Holds headers' := by
      intro other member
      refine @holds_elsewhere _ _ _ _ _ ((Placement.added pMemDesc).unused region) _ _ placed' ?_ keeps ?_
        (List.mem_append_left [] member)
      · rw [List.append_nil]
        exact holds.described
      · exact fun block isBlock => holds'.covers.inside isBlock
    have described : ∀ other ∈ layouts ++ [(Placement.added pMemDesc).unused region],
        other.Holds headers' := by
      intro other member
      rcases List.mem_append.mp member with there | here
      · exact elsewhere other there
      · rw [List.mem_singleton.mp here]
        exact holds'
    have complete : blocks.Perm (allUsed (layouts ++ [(Placement.added pMemDesc).unused region])) := by
      rw [allUsed_middle]
      refine holds.complete.trans (List.Perm.of_eq ?_)
      exact (List.append_nil _).symm
    have allocated : BlockList headers' pAllocator.firstAllocatedBlock blocks :=
      holds.allocated.elsewhere placed' (fun other member => (described other member).toCut) (fun _ => complete.mem_iff.mp)
        (List.mem_append_right _ (List.mem_singleton.mpr rfl)) keeps
    refine ⟨region, _, rfl, ⟨?_, described, allocated, complete⟩⟩
    rw [List.map_append, holds.regions]
    rfl

end Creating

end Apollo.Klib
