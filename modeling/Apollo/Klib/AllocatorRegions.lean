import Apollo.Klib.AllocatorBlocks
import Mathlib.Data.List.Perm.Subperm

/-!
# Taking and giving back blocks

What `MemRegion_AllocMemBlock` and `MemRegion_FreeMemBlock` do to the list of free
blocks, when the free blocks are the free tiles of a tiling of the usable range.
-/

set_option autoImplicit false

namespace Apollo.Klib

open Lib

/-! ## What is left alone -/

def KeepsOutside (blocks : List Tile) (headers headers' : Headers) : Prop :=
  ∀ address, (∀ tile ∈ blocks, address < tile.start ∨ tile.start + tile.size ≤ address) →
    headers'.next address = headers.next address ∧ headers'.size address = headers.size address

namespace KeepsOutside

variable {blocks : List Tile} {headers headers' : Headers} {address : Nat}

theorem refl (blocks : List Tile) (headers : Headers) : KeepsOutside blocks headers headers := fun _ _ => ⟨rfl, rfl⟩

theorem mono {blocks' : List Tile} (keeps : KeepsOutside blocks headers headers') (more : ∀ tile ∈ blocks, tile ∈ blocks') :
    KeepsOutside blocks' headers headers' :=
  fun address outside => keeps address fun tile member => outside tile (more tile member)

theorem setNext (keeps : KeepsOutside blocks headers headers')
    (inside : ∃ tile ∈ blocks, tile.start ≤ address ∧ address < tile.start + tile.size) (next : Option Nat) :
    KeepsOutside blocks headers (headers'.setNext address next) := by
  intro other outside
  obtain ⟨tile, member, starts, stops⟩ := inside
  have apart : other ≠ address := by
    have := outside tile member
    omega
  rw [← (keeps other outside).1]
  exact ⟨Function.update_of_ne apart _ _, (keeps other outside).2⟩

theorem setSize (keeps : KeepsOutside blocks headers headers')
    (inside : ∃ tile ∈ blocks, tile.start ≤ address ∧ address < tile.start + tile.size) (size : Int) :
    KeepsOutside blocks headers (headers'.setSize address size) := by
  intro other outside
  obtain ⟨tile, member, starts, stops⟩ := inside
  have apart : other ≠ address := by
    have := outside tile member
    omega
  rw [← (keeps other outside).2]
  exact ⟨(keeps other outside).1, Function.update_of_ne apart _ _⟩

theorem setLink (keeps : KeepsOutside blocks headers headers') {prev : Option Nat}
    (inside : ∀ address, prev = some address → ∃ tile ∈ blocks, tile.start ≤ address ∧ address < tile.start + tile.size)
    (region : MemRegion) (next : Option Nat) :
    KeepsOutside blocks headers (MemRegion.setLink headers' region prev next).1 := by
  cases prev with
  | none => exact keeps
  | some address => exact keeps.setNext (inside address rfl) next

end KeepsOutside

/-! ## Linking -/

theorem getLast?_not_mem_dropLast {starts : List Nat} (nodup : starts.Nodup) {start : Nat}
    (isLast : starts.getLast? = some start) : start ∉ starts.dropLast := by
  obtain ⟨before, rfl⟩ := List.getLast?_eq_some_iff.mp isLast
  rw [List.dropLast_concat]
  intro member
  exact (List.nodup_append.mp nodup).2.2 start member start List.mem_cons_self rfl

section Linking
variable {headers : Headers} {first : Option Nat} {blocks : List Tile} {address : Nat}

theorem BlockList.setNext {next : Option Nat} (list : BlockList headers first blocks) (absent : address ∉ startsOf blocks) :
    BlockList (headers.setNext address next) first blocks := by
  refine list.congr fun start member => ⟨Headers.setNext_next_of_ne _ _ ?_, rfl⟩
  rintro rfl
  exact absent member

theorem BlockList.setSize {size : Int} (list : BlockList headers first blocks) (absent : address ∉ startsOf blocks) :
    BlockList (headers.setSize address size) first blocks := by
  refine list.congr fun start member => ⟨rfl, Headers.setSize_size_of_ne _ _ ?_⟩
  rintro rfl
  exact absent member

end Linking

/-! ## The usable range of a region -/

def HeapBuild.sizeLimit : HeapBuild → Nat
  | kernel => 2147483648
  | libc => 4294967296

theorem HeapBuild.toSize_natCast (build : HeapBuild) {size : Nat} (fits : size < build.sizeLimit) : build.toSize size = size := by
  cases build with
  | kernel =>
    simp only [sizeLimit] at fits
    simp only [toSize, Int.bmod_def]
    omega
  | libc =>
    exact Int.emod_eq_of_lt (Int.natCast_nonneg _) (Int.ofNat_lt.mpr fits)

section Ranges
variable {headers headers' : Headers} {region : MemRegion} {lower upper start size count : Nat} {wasFree isFree : Bool}
  {tiles front back : List Tile} {tile : Tile}

theorem around_apart (covers : Tiles 8 lower wasFree (front ++ ⟨start, size, isFree⟩ :: back) upper) :
    (∀ tile ∈ front, lower ≤ tile.start ∧ 0 < tile.size ∧ tile.start + tile.size ≤ start) ∧
      (∀ tile ∈ back, start + size ≤ tile.start ∧ 0 < tile.size ∧ tile.start + tile.size ≤ upper) := by
  obtain ⟨middle, first, starts, -, -, -, second⟩ := Tiles.append.mp covers
  constructor
  · intro tile member
    have inside := first.inside member
    have sized := first.sized member
    dsimp only at starts
    omega
  · intro tile member
    have inside := second.inside member
    have sized := second.sized member
    dsimp only at starts inside
    omega

theorem startsOf_pairwise (covers : Tiles 8 lower wasFree tiles upper) : (startsOf tiles).Pairwise (· < ·) := by
  rw [startsOf, List.pairwise_map]
  have sized := fun tile member => (@Tiles.sized _ _ _ _ _ tile covers member).1
  refine List.Pairwise.imp_of_mem ?_ covers.ascending
  intro tile other member _ apart
  have positive := sized tile member
  omega

theorem startsOf_nodup (covers : Tiles 8 lower wasFree tiles upper) : (startsOf tiles).Nodup :=
  (startsOf_pairwise covers).imp Nat.ne_of_lt

theorem startsOf_freeOf_sublist (tiles : List Tile) : (startsOf (freeOf tiles)).Sublist (startsOf tiles) :=
  List.Sublist.map _ List.filter_sublist

theorem length_le_capacity (covers : Tiles 8 lower wasFree tiles upper) (bound : upper ≤ kBlockCapacity) :
    tiles.length ≤ kBlockCapacity := by
  have inside : startsOf tiles ⊆ List.range kBlockCapacity := by
    intro start member
    obtain ⟨tile, there, rfl⟩ := mem_startsOf.mp member
    have := covers.inside there
    have := covers.sized there
    rw [List.mem_range]
    omega
  have short := (List.Nodup.subperm (startsOf_nodup covers) inside).length_le
  rwa [List.length_range, startsOf, List.length_map] at short

theorem inside_of_start (covers : Tiles 8 lower wasFree tiles upper) {address : Nat} (member : address ∈ startsOf (freeOf tiles)) :
    ∃ tile ∈ freeOf tiles, tile.start ≤ address ∧ address < tile.start + tile.size := by
  obtain ⟨tile, inside, rfl⟩ := mem_startsOf.mp member
  have positive := (covers.sized (mem_freeOf.mp inside).1).1
  exact ⟨tile, inside, Nat.le_refl _, by omega⟩

theorem firstFit (tiles : List Tile) (count : Nat) :
    (∀ tile ∈ freeOf tiles, tile.size < count) ∨
      ∃ front start size back, tiles = front ++ ⟨start, size, true⟩ :: back ∧ (∀ tile ∈ freeOf front, tile.size < count) ∧
        count ≤ size := by
  cases found : tiles.find? (fun tile => tile.isFree && decide (count ≤ tile.size)) with
  | none =>
    left
    intro tile member
    obtain ⟨inside, free⟩ := mem_freeOf.mp member
    have misses := List.find?_eq_none.mp found tile inside
    simp only [free, Bool.true_and, decide_eq_true_eq] at misses
    omega
  | some tile =>
    obtain ⟨hit, front, back, parts, misses⟩ := List.find?_eq_some_iff_append.mp found
    rw [Bool.and_eq_true, decide_eq_true_eq] at hit
    right
    refine ⟨front, tile.start, tile.size, back, ?_, ?_, hit.2⟩
    · rw [← hit.1]
      exact parts
    · intro other member
      obtain ⟨inside, free⟩ := mem_freeOf.mp member
      have missed := misses other inside
      simp only [free, Bool.true_and, Bool.not_eq_true', decide_eq_false_iff_not] at missed
      omega

end Ranges

/-! ## A free block among the others -/

section Hole
variable {headers headers' : Headers} {region : MemRegion} {lower upper start size : Nat}
  {front middle center back : List Tile} (covers : Tiles 8 lower false (front ++ ⟨start, size, true⟩ :: back) upper)
include covers

theorem starts_below {address : Nat} (member : address ∈ startsOf (freeOf front)) : address < start := by
  obtain ⟨tile, inside, rfl⟩ := mem_startsOf.mp member
  have := (around_apart covers).1 tile (mem_freeOf.mp inside).1
  omega

theorem starts_above {address : Nat} (member : address ∈ startsOf (freeOf back)) : start + size ≤ address := by
  obtain ⟨tile, inside, rfl⟩ := mem_startsOf.mp member
  exact ((around_apart covers).2 tile (mem_freeOf.mp inside).1).1

theorem startsOf_front_nodup : (startsOf (freeOf front)).Nodup := by
  obtain ⟨middle, first, -⟩ := Tiles.append.mp covers
  exact (startsOf_nodup first).sublist (startsOf_freeOf_sublist front)

theorem absent_of_inside {address : Nat} (above : start ≤ address) (below : address < start + size)
    (absent : address ∉ startsOf center) : address ∉ startsOf (freeOf front ++ (center ++ freeOf back)) := by
  rw [startsOf_append, startsOf_append, List.mem_append, List.mem_append]
  rintro (member | member | member)
  · have := starts_below covers member
    omega
  · exact absent member
  · have := starts_above covers member
    omega

theorem kept_around (keeps : KeepsOutside [⟨start, size, true⟩] headers headers') :
    ∀ tile ∈ freeOf front ++ freeOf back,
      headers'.next tile.start = headers.next tile.start ∧ headers'.size tile.start = headers.size tile.start := by
  intro tile member
  refine keeps tile.start fun hole isHole => ?_
  rw [List.mem_singleton.mp isHole]
  rcases List.mem_append.mp member with member | member
  · exact .inl (starts_below covers (mem_startsOf.mpr ⟨tile, member, rfl⟩))
  · exact .inr (starts_above covers (mem_startsOf.mpr ⟨tile, member, rfl⟩))

theorem BlockList.setLink (list : BlockList headers region.firstFreeBlock (freeOf front ++ (middle ++ freeOf back)))
    (keeps : KeepsOutside [⟨start, size, true⟩] headers headers')
    (inside : ∀ address ∈ startsOf center, start ≤ address)
    (inner : Segment headers'.next (startsOf center) (startsOf (freeOf back)).head?)
    (sized : ∀ tile ∈ center, headers'.size tile.start = tile.size) :
    BlockList (MemRegion.setLink headers' region (startsOf (freeOf front)).getLast? (startsOf (center ++ freeOf back)).head?).1
      (MemRegion.setLink headers' region (startsOf (freeOf front)).getLast? (startsOf (center ++ freeOf back)).head?).2.firstFreeBlock
      (freeOf front ++ (center ++ freeOf back)) := by
  have kept := kept_around covers keeps
  have behind : ∀ address, start ≤ address →
      (MemRegion.setLink headers' region (startsOf (freeOf front)).getLast? (startsOf (center ++ freeOf back)).head?).1.next
        address = headers'.next address := by
    intro address above
    rw [MemRegion.setLink_next, if_neg]
    intro isLast
    have := starts_below covers (List.mem_of_getLast? isLast)
    omega
  refine list.exchange (MemRegion.setLink_first headers' region _ _ list.first rfl rfl) ?_ ?_ ?_ ?_ ?_ ?_
  · intro address member
    rw [MemRegion.setLink_next, if_neg fun isLast => getLast?_not_mem_dropLast (startsOf_front_nodup covers) isLast member]
    obtain ⟨tile, there, rfl⟩ := mem_startsOf.mp (List.dropLast_subset _ member)
    exact (kept tile (List.mem_append_left _ there)).1
  · intro address isLast
    rw [MemRegion.setLink_next, if_pos isLast]
  · exact inner.congr fun address member => behind address (inside address member)
  · intro address member
    have := starts_above covers member
    rw [behind address (by omega)]
    obtain ⟨tile, there, rfl⟩ := mem_startsOf.mp member
    exact (kept tile (List.mem_append_right _ there)).1
  · intro tile member
    rw [MemRegion.setLink_size]
    exact (kept tile member).2
  · intro tile member
    rw [MemRegion.setLink_size]
    exact sized tile member

omit covers in
theorem KeepsOutside.hole (keeps : KeepsOutside [⟨start, size, true⟩] headers headers') :
    KeepsOutside (freeOf (front ++ ⟨start, size, true⟩ :: back)) headers headers' := by
  refine keeps.mono fun tile member => ?_
  rw [List.mem_singleton.mp member]
  exact mem_freeOf.mpr ⟨List.mem_append_right front List.mem_cons_self, rfl⟩

/-- Only the memory of free blocks is written when the link is set. -/
theorem KeepsOutside.linked (keeps : KeepsOutside [⟨start, size, true⟩] headers headers') (next : Option Nat) :
    KeepsOutside (freeOf (front ++ ⟨start, size, true⟩ :: back)) headers
      (MemRegion.setLink headers' region (startsOf (freeOf front)).getLast? next).1 := by
  rw [freeOf_append, freeOf_cons_free]
  refine (keeps.mono fun tile member => ?_).setLink (fun address isLast => ?_) region next
  · rw [List.mem_singleton.mp member]
    exact List.mem_append_right _ List.mem_cons_self
  · obtain ⟨middle, first, -⟩ := Tiles.append.mp covers
    obtain ⟨tile, member, within⟩ := inside_of_start first (List.mem_of_getLast? isLast)
    exact ⟨tile, List.mem_append_left _ member, within⟩

end Hole

/-! ## Taking a block -/

def takenFrom (front : List Tile) (start size count : Nat) (back : List Tile) : List Tile :=
  front ++ ⟨start, count, false⟩ :: (freeTile (start + count) (size - count) ++ back)

section Taking
variable {headers : Headers} {region : MemRegion} {lower upper start size count : Nat} {tiles front back : List Tile}

theorem freeOf_takenFrom :
    freeOf (takenFrom front start size count back) =
      freeOf front ++ (freeTile (start + count) (size - count) ++ freeOf back) := by
  simp [takenFrom]

theorem allocMemBlock_found (build : HeapBuild)
    (list : BlockList headers region.firstFreeBlock (freeOf (front ++ ⟨start, size, true⟩ :: back)))
    (covers : Tiles 8 lower false (front ++ ⟨start, size, true⟩ :: back) upper) (top : upper < 4294967296)
    (range : upper - lower < build.sizeLimit) (positive : 0 < count) (small : ∀ tile ∈ freeOf front, tile.size < count)
    (fits : count ≤ size) :
    ∃ headers' region', MemRegion.allocMemBlock build headers region count = some (headers', region', some start) ∧
      BlockList headers' region'.firstFreeBlock (freeOf (takenFrom front start size count back)) ∧
      headers'.size start = count ∧ region'.lower = region.lower ∧ region'.upper = region.upper ∧
      KeepsOutside (freeOf (front ++ ⟨start, size, true⟩ :: back)) headers headers' := by
  have inside := covers.inside (List.mem_append_right front List.mem_cons_self)
  dsimp only at inside
  have short : (freeOf front).length < kBlockCapacity := by
    have whole := length_le_capacity covers (Nat.le_of_lt top)
    have part := List.length_filter_le (fun tile : Tile => tile.isFree) front
    rw [List.length_append, List.length_cons] at whole
    rw [freeOf]
    omega
  have hole : ∀ address, start ≤ address → address < start + size →
      ∃ tile ∈ [(⟨start, size, true⟩ : Tile)], tile.start ≤ address ∧ address < tile.start + tile.size :=
    fun address above below => ⟨_, List.mem_singleton.mpr rfl, above, below⟩
  have hole' : ∀ address, start ≤ address → address < start + size →
      ∃ tile ∈ freeOf (front ++ ⟨start, size, true⟩ :: back), tile.start ≤ address ∧ address < tile.start + tile.size := by
    intro address above below
    exact ⟨_, mem_freeOf.mpr ⟨List.mem_append_right front List.mem_cons_self, rfl⟩, above, below⟩
  rw [freeOf_append, freeOf_cons_free] at list
  have found : MemRegion.findFit headers count kBlockCapacity region.firstFreeBlock none =
      some (some ((startsOf (freeOf front)).getLast?.or none, start)) :=
    findFit_some list (fun tile member => Int.ofNat_lt.mpr (small tile member)) (Int.ofNat_le.mpr fits) short
  have sized : headers.size start = size := list.sized ⟨start, size, true⟩ (List.mem_append_right _ List.mem_cons_self)
  have next : headers.next start = (startsOf (freeOf back)).head? := by
    have linked := list.linked
    rw [startsOf_append] at linked
    rw [(Segment.append.mp linked).2.1, Option.or_none]
    rfl
  unfold MemRegion.allocMemBlock
  rw [found, Option.or_none, freeOf_takenFrom]
  simp only [Option.bind_eq_bind, Option.bind_some]
  rw [sized]
  by_cases whole : size = count
  · -- The whole block is taken.
    subst whole
    have keeps := KeepsOutside.refl [⟨start, size, true⟩] headers
    have linked := @BlockList.setLink headers headers region lower upper start size front [⟨start, size, true⟩] [] back covers
      list keeps (fun _ absurd => by simp at absurd) trivial (fun _ absurd => by simp at absurd)
    rw [List.nil_append, ← next] at linked
    rw [if_pos rfl, freeTile, if_pos (Nat.sub_self size)]
    refine ⟨_, _, rfl, linked.setNext ?_, ?_, MemRegion.setLink_lower .., MemRegion.setLink_upper .., ?_⟩
    · exact @absent_of_inside lower upper start size front [] back covers start (Nat.le_refl _) (by omega) List.not_mem_nil
    · exact (congrFun (MemRegion.setLink_size ..) start).trans sized
    · exact (keeps.linked covers _).setNext (hole' start (Nat.le_refl _) (by omega)) none
  · -- The rest of the block stays on the list.
    have rest : 0 < size - count := Nat.sub_pos_of_lt (Nat.lt_of_le_of_ne fits (Ne.symm whole))
    rw [if_neg fun same => whole (Int.ofNat_inj.mp same), addPtr_natCast (by omega)]
    simp only [Headers.setNext_size, sized]
    rw [← Int.ofNat_sub fits, build.toSize_natCast (by omega)]
    have atRest := hole (start + count) (by omega) (by omega)
    have keeps := ((KeepsOutside.refl [⟨start, size, true⟩] headers).setNext atRest (headers.next start)).setSize atRest
      (size - count : Nat)
    have linked := @BlockList.setLink headers _ region lower upper start size front [⟨start, size, true⟩]
      [⟨start + count, size - count, true⟩] back covers list keeps
      (fun address member => by
        rw [List.mem_singleton.mp member]
        exact Nat.le_add_right start count)
      ⟨by simpa using next, trivial⟩
      (fun tile member => by
        rw [List.mem_singleton.mp member]
        exact Headers.setSize_size_self ..)
    have absent : start ∉ startsOf (freeOf front ++ ([⟨start + count, size - count, true⟩] ++ freeOf back)) := by
      refine absent_of_inside covers (Nat.le_refl _) (by omega) ?_
      rw [startsOf_cons, startsOf_nil, List.mem_singleton]
      dsimp only
      omega
    rw [freeTile, if_neg (Nat.ne_of_gt rest)]
    refine ⟨_, _, rfl, (linked.setSize absent).setNext absent, Headers.setSize_size_self .., MemRegion.setLink_lower ..,
      MemRegion.setLink_upper .., ?_⟩
    have atStart := hole' start (Nat.le_refl _) (by omega)
    exact ((keeps.linked covers _).setSize atStart _).setNext atStart none

theorem allocMemBlock_spec (build : HeapBuild) (list : BlockList headers region.firstFreeBlock (freeOf tiles))
    (covers : Tiles 8 lower false tiles upper) (top : upper < 4294967296) (range : upper - lower < build.sizeLimit)
    (positive : 0 < count) :
    (MemRegion.allocMemBlock build headers region count = some (headers, region, none) ∧ ∀ tile ∈ freeOf tiles, tile.size < count) ∨
      ∃ headers' region' front start size back,
        MemRegion.allocMemBlock build headers region count = some (headers', region', some start) ∧
          tiles = front ++ ⟨start, size, true⟩ :: back ∧ count ≤ size ∧
          BlockList headers' region'.firstFreeBlock (freeOf (takenFrom front start size count back)) ∧
          headers'.size start = count ∧ region'.lower = region.lower ∧ region'.upper = region.upper ∧
          KeepsOutside (freeOf tiles) headers headers' := by
  rcases firstFit tiles count with small | ⟨front, start, size, back, rfl, small, fits⟩
  · left
    have short : (freeOf tiles).length ≤ kBlockCapacity :=
      Nat.le_trans (List.length_filter_le _ _) (length_le_capacity covers (Nat.le_of_lt top))
    have missing : MemRegion.findFit headers count kBlockCapacity region.firstFreeBlock none = some none :=
      findFit_none list (fun tile member => Int.ofNat_lt.mpr (small tile member)) short
    refine ⟨?_, small⟩
    unfold MemRegion.allocMemBlock
    rw [missing]
    rfl
  · right
    obtain ⟨headers', region', took, rest⟩ := allocMemBlock_found build list covers top range positive small fits
    exact ⟨headers', region', front, start, size, back, took, rfl, fits, rest⟩

end Taking

/-! ## Giving back a block -/

def giveBackFrom (front : List Tile) (start before size after : Nat) (back : List Tile) : List Tile :=
  front ++ (freeTile start before ++ ⟨start + before, size, false⟩ :: (freeTile (start + before + size) after ++ back))

section GivingBack
variable {headers headers' : Headers} {region : MemRegion} {first : Option Nat} {lower upper start before size after : Nat}
  {front back rest : List Tile}

theorem freeOf_giveBackFrom :
    freeOf (giveBackFrom front start before size after back) =
      (freeOf front ++ freeTile start before) ++ (freeTile (start + before + size) after ++ freeOf back) := by
  simp [giveBackFrom]

/-- The first block inside stays and takes the room of the others. -/
theorem BlockList.grown (covers : Tiles 8 lower false (front ++ ⟨start, size, true⟩ :: back) upper)
    (list : BlockList headers first (freeOf front ++ ((⟨start, before, true⟩ :: rest) ++ freeOf back)))
    (keeps : KeepsOutside [⟨start, size, true⟩] headers headers')
    (next : headers'.next start = (startsOf (freeOf back)).head?) (sized : headers'.size start = size) :
    BlockList headers' first (freeOf front ++ ([⟨start, size, true⟩] ++ freeOf back)) := by
  have kept := kept_around covers keeps
  have linked := list.linked
  rw [startsOf_append] at linked
  refine list.exchange ?_ ?_ ?_ ⟨by simpa using next, trivial⟩ ?_ ?_ ?_
  · rw [list.first]
    simp only [startsOf_append, startsOf_cons, List.head?_append, List.cons_append, List.head?_cons]
  · intro address member
    obtain ⟨tile, there, rfl⟩ := mem_startsOf.mp (List.dropLast_subset _ member)
    exact (kept tile (List.mem_append_left _ there)).1
  · intro address isLast
    obtain ⟨tile, there, rfl⟩ := mem_startsOf.mp (List.mem_of_getLast? isLast)
    rw [(kept tile (List.mem_append_left _ there)).1, linked.last isLast]
    rfl
  · intro address member
    obtain ⟨tile, there, rfl⟩ := mem_startsOf.mp member
    exact (kept tile (List.mem_append_right _ there)).1
  · exact fun tile member => (kept tile member).2
  · intro tile member
    rw [List.mem_singleton.mp member]
    exact sized

theorem findNeighbors_around (covers : Tiles 8 lower false (giveBackFrom front start before size after back) upper)
    (list : BlockList headers region.firstFreeBlock (freeOf (giveBackFrom front start before size after back)))
    (top : upper < 4294967296) (used : endsFree false front = false) (used' : beginsFree back = false) :
    MemRegion.findNeighbors headers (start + before) (start + before + size) kBlockCapacity region.firstFreeBlock
        ⟨none, none, false, false⟩ =
      some
        { pLowerFreeBlock := (startsOf (freeOf front ++ freeTile start before)).getLast?
          pUpperFreeBlock := (startsOf (freeTile (start + before + size) after ++ freeOf back)).head?
          isLowerFreeBlockAdjacent := decide (before ≠ 0)
          isUpperFreeBlockAdjacent := decide (after ≠ 0) } := by
  have covers' := covers
  rw [giveBackFrom, ← List.append_assoc] at covers'
  have positive := (covers'.sized (List.mem_append_right _ List.mem_cons_self)).1
  have inside := covers'.inside (List.mem_append_right _ List.mem_cons_self)
  dsimp only at positive inside
  obtain ⟨around, around'⟩ := around_apart covers'
  have below : ∀ tile ∈ freeOf front ++ freeTile start before, tile.start + tile.size ≤ start + before := by
    intro tile member
    rw [← freeOf_freeTile, ← freeOf_append] at member
    exact (around tile (mem_freeOf.mp member).1).2.2
  have above : ∀ tile ∈ freeTile (start + before + size) after ++ freeOf back,
      start + before + size ≤ tile.start ∧ 0 < tile.size ∧ tile.start + tile.size < 4294967296 := by
    intro tile member
    rw [← freeOf_freeTile, ← freeOf_append] at member
    have := around' tile (mem_freeOf.mp member).1
    exact ⟨this.1, this.2.1, by omega⟩
  have enough : ((freeOf front ++ freeTile start before) ++ (freeTile (start + before + size) after ++ freeOf back)).length ≤
      kBlockCapacity := by
    rw [← freeOf_giveBackFrom]
    exact Nat.le_trans (List.length_filter_le _ _) (length_le_capacity covers (Nat.le_of_lt top))
  rw [freeOf_giveBackFrom] at list
  rw [findNeighbors_eq list below above (by omega) (by omega) enough]
  obtain ⟨middle, covers₁, covers₂⟩ := Tiles.append.mp covers'
  obtain ⟨middle', covers₃, covers₄⟩ := Tiles.append.mp covers₁
  obtain ⟨starts, -, -, -, covers₅⟩ := covers₂
  obtain ⟨middle'', covers₆, covers₇⟩ := Tiles.append.mp covers₅
  have lowerAdjacent : ((freeOf front ++ freeTile start before).getLast?.elim false
      fun tile => tile.start + tile.size == start + before) = decide (before ≠ 0) := by
    by_cases empty : before = 0
    · rw [freeTile, if_pos empty, List.append_nil]
      cases last : (freeOf front).getLast? with
      | none => simp [empty]
      | some tile =>
        have stops := covers₃.stop_lt used (List.mem_of_getLast? last)
        have ends := (Tiles.freeTile_iff.mp covers₄).1
        dsimp only at starts
        simp only [Option.elim_some, empty, ne_eq, not_true_eq_false, decide_false, beq_eq_false_iff_ne]
        omega
    · rw [freeTile, if_neg empty, List.getLast?_concat]
      simp [empty]
  have upperAdjacent : ((freeTile (start + before + size) after ++ freeOf back).head?.elim false
      fun tile => tile.start == start + before + size) = decide (after ≠ 0) := by
    by_cases empty : after = 0
    · rw [freeTile, if_pos empty, List.nil_append]
      cases head : (freeOf back).head? with
      | none => simp [empty]
      | some tile =>
        have behind := covers₇.lt_start used' (List.mem_of_mem_head? head)
        have ends := (Tiles.freeTile_iff.mp covers₆).1
        dsimp only at starts ends
        simp only [Option.elim_some, empty, ne_eq, not_true_eq_false, decide_false, beq_eq_false_iff_ne]
        omega
    · rw [freeTile, if_neg empty]
      simp [empty]
  rw [lowerAdjacent, upperAdjacent, Option.or_none, Option.or_none]

theorem freeMemBlock_apart (build : HeapBuild)
    (list : BlockList headers region.firstFreeBlock (freeOf (giveBackFrom front start 0 size after back)))
    (covers : Tiles 8 lower false (giveBackFrom front start 0 size after back) upper) (top : upper < 4294967296)
    (range : upper - lower < build.sizeLimit) (used : endsFree false front = false) (used' : beginsFree back = false)
    (sized : headers.size start = size) (taken : headers.next start = none) :
    ∃ headers' region', MemRegion.freeMemBlock build headers region start = some (headers', region') ∧
      BlockList headers' region'.firstFreeBlock (freeOf (front ++ ⟨start, size + after, true⟩ :: back)) ∧
      region'.lower = region.lower ∧ region'.upper = region.upper ∧
      KeepsOutside (freeOf (front ++ ⟨start, size + after, true⟩ :: back)) headers headers' := by
  have whole := covers.giveBack used used'
  have neighbors := findNeighbors_around covers list top used used'
  have inside := whole.inside (List.mem_append_right front List.mem_cons_self)
  have positive : 0 < size := by
    refine (@Tiles.sized _ _ _ _ _ ⟨start + 0, size, false⟩ covers ?_).1
    simp [giveBackFrom]
  rw [freeOf_giveBackFrom, freeTile, if_pos rfl, List.append_nil, Nat.add_zero] at list
  rw [Nat.zero_add] at whole inside
  dsimp only at inside
  have atStart : ∃ tile ∈ [(⟨start, size + after, true⟩ : Tile)], tile.start ≤ start ∧ start < tile.start + tile.size :=
    ⟨_, List.mem_singleton.mpr rfl, Nat.le_refl _, by
      dsimp only
      omega⟩
  have refl := KeepsOutside.refl [⟨start, size + after, true⟩] headers
  have linked := list.linked
  rw [startsOf_append] at linked
  unfold MemRegion.freeMemBlock
  rw [if_neg (not_not.mpr taken), sized, addPtr_natCast (by omega)]
  dsimp only
  rw [Nat.add_zero] at neighbors
  rw [neighbors]
  simp only [Option.bind_eq_bind, Option.bind_some]
  rw [freeTile, if_pos rfl, List.append_nil]
  by_cases noUpper : after = 0
  · subst noUpper
    have keeps := refl.setNext atStart (startsOf (freeOf back)).head?
    have done := @BlockList.setLink headers _ region lower upper start (size + 0) front [] [⟨start, size + 0, true⟩] back
      whole list keeps (fun address member => Nat.le_of_eq (List.mem_singleton.mp member).symm)
      ⟨by simp, trivial⟩ (fun tile member => by
        rw [List.mem_singleton.mp member]
        exact sized)
    rw [List.singleton_append, ← freeOf_cons_free, ← freeOf_append] at done
    refine ⟨_, _, ?_, done, MemRegion.setLink_lower .., MemRegion.setLink_upper .., keeps.linked whole (some start)⟩
    cases last : (startsOf (freeOf front)).getLast? with
    | none => rfl
    | some address =>
      have next := linked.last last
      rw [Option.or_none] at next
      simp only [ne_eq, not_true_eq_false, decide_false, next]
      rfl
  · rw [freeTile, if_neg noUpper] at list linked ⊢
    have next : headers.next (start + size) = (startsOf (freeOf back)).head? := by
      have points := (Segment.append.mp linked).2.1
      rwa [Option.or_none] at points
    have size' : headers.size (start + size) = after :=
      list.sized ⟨start + size, after, true⟩ (List.mem_append_right _ List.mem_cons_self)
    have keeps := (refl.setSize atStart (size + after : Nat)).setNext atStart (startsOf (freeOf back)).head?
    have linked' := @BlockList.setLink headers _ region lower upper start (size + after) front [⟨start + size, after, true⟩]
      [⟨start, size + after, true⟩] back whole list keeps
      (fun address member => Nat.le_of_eq (List.mem_singleton.mp member).symm) ⟨by simp, trivial⟩ (fun tile member => by
        rw [List.mem_singleton.mp member]
        exact Headers.setSize_size_self ..)
    have absent : start + size ∉ startsOf (freeOf front ++ ([⟨start, size + after, true⟩] ++ freeOf back)) := by
      refine absent_of_inside whole (by omega) (by omega) ?_
      rw [startsOf_cons, startsOf_nil, List.mem_singleton]
      dsimp only
      omega
    have done := @BlockList.setSize _ _ _ _ 0 (@BlockList.setNext _ _ _ _ none linked' absent) absent
    have atUpper : ∃ tile ∈ freeOf (front ++ ⟨start, size + after, true⟩ :: back), tile.start ≤ start + size ∧
        start + size < tile.start + tile.size :=
      ⟨_, mem_freeOf.mpr ⟨List.mem_append_right front List.mem_cons_self, rfl⟩, Nat.le_add_right _ _, by
        dsimp only
        omega⟩
    rw [List.singleton_append, ← freeOf_cons_free, ← freeOf_append] at done
    refine ⟨_, _, ?_, done, MemRegion.setLink_lower .., MemRegion.setLink_upper ..,
      ((keeps.linked whole (some start)).setNext atUpper none).setSize atUpper 0⟩
    simp only [ne_eq, noUpper, not_true_eq_false, not_false_eq_true, decide_false, decide_true, startsOf_append, startsOf_cons,
      List.cons_append, List.head?_cons, Option.bind_some, Headers.setSize_next, next, size']
    rw [← Int.natCast_add, build.toSize_natCast (by omega)]
    rfl

theorem freeMemBlock_grown (build : HeapBuild) (lowerFree : before ≠ 0)
    (list : BlockList headers region.firstFreeBlock (freeOf (giveBackFrom front start before size after back)))
    (covers : Tiles 8 lower false (giveBackFrom front start before size after back) upper) (top : upper < 4294967296)
    (range : upper - lower < build.sizeLimit) (used : endsFree false front = false) (used' : beginsFree back = false)
    (sized : headers.size (start + before) = size) (taken : headers.next (start + before) = none) :
    ∃ headers', MemRegion.freeMemBlock build headers region (start + before) = some (headers', region) ∧
      BlockList headers' region.firstFreeBlock (freeOf (front ++ ⟨start, before + size + after, true⟩ :: back)) ∧
      KeepsOutside (freeOf (front ++ ⟨start, before + size + after, true⟩ :: back)) headers headers' := by
  have whole := covers.giveBack used used'
  have neighbors := findNeighbors_around covers list top used used'
  have inside := whole.inside (List.mem_append_right front List.mem_cons_self)
  have positive : 0 < size := by
    refine (@Tiles.sized _ _ _ _ _ ⟨start + before, size, false⟩ covers ?_).1
    simp [giveBackFrom]
  dsimp only at inside
  have hole : ∀ address, start ≤ address → address < start + (before + size + after) →
      ∃ tile ∈ [(⟨start, before + size + after, true⟩ : Tile)], tile.start ≤ address ∧ address < tile.start + tile.size :=
    fun address above below => ⟨_, List.mem_singleton.mpr rfl, above, below⟩
  have atLower := hole start (Nat.le_refl _) (by omega)
  have atBlock := hole (start + before) (by omega) (by omega)
  have apart : start ≠ start + before := by omega
  have refl := KeepsOutside.refl [⟨start, before + size + after, true⟩] headers
  rw [freeOf_giveBackFrom, freeTile, if_neg lowerFree] at list
  have linked := list.linked
  rw [startsOf_append] at linked
  have size' : headers.size start = before := by
    refine list.sized ⟨start, before, true⟩ ?_
    simp
  have last : (startsOf (freeOf front ++ [⟨start, before, true⟩])).getLast? = some start := by simp
  unfold MemRegion.freeMemBlock
  rw [if_neg (not_not.mpr taken), sized, addPtr_natCast (by omega)]
  dsimp only
  rw [neighbors]
  simp only [Option.bind_eq_bind, Option.bind_some]
  rw [freeTile, if_neg lowerFree]
  by_cases noUpper : after = 0
  · subst noUpper
    have next := linked.last last
    rw [Option.or_none] at next
    have keeps := ((refl.setSize atLower (before + size : Nat)).setNext atBlock none).setSize atBlock 0
    have done := @BlockList.grown _ _ _ _ _ _ _ _ _ _ [] whole (by rwa [List.append_assoc] at list) keeps
      (by rwa [Headers.setSize_next, Headers.setNext_next_of_ne _ _ apart]) (by
        rw [Headers.setSize_size_of_ne _ _ apart]
        exact Headers.setSize_size_self ..)
    rw [List.singleton_append, ← freeOf_cons_free, ← freeOf_append] at done
    refine ⟨_, ?_, done, keeps.hole⟩
    simp only [ne_eq, lowerFree, not_true_eq_false, not_false_eq_true, decide_false, decide_true, last, Option.bind_some, size']
    rw [← Int.natCast_add, build.toSize_natCast (by omega)]
  · rw [freeTile, if_neg noUpper] at list linked ⊢
    have size'' : headers.size (start + before + size) = after := by
      refine list.sized ⟨start + before + size, after, true⟩ ?_
      simp
    have next : headers.next (start + before + size) = (startsOf (freeOf back)).head? := by
      have points := (Segment.append.mp linked).2.1
      rwa [Option.or_none] at points
    have atUpper := hole (start + before + size) (by omega) (by omega)
    have apart' : start ≠ start + before + size := by omega
    have keeps := ((((((refl.setSize atLower (before + size + after : Nat)).setNext atLower
      (startsOf (freeOf back)).head?).setNext atBlock none).setSize atBlock 0).setNext atUpper none).setSize atUpper 0)
    have done := @BlockList.grown _ _ _ _ _ _ _ _ _ _ [⟨start + before + size, after, true⟩] whole
      (by rwa [List.append_assoc] at list) keeps
      (by
        rw [Headers.setSize_next, Headers.setNext_next_of_ne _ _ apart', Headers.setSize_next,
          Headers.setNext_next_of_ne _ _ apart]
        exact Headers.setNext_next_self ..)
      (by
        rw [Headers.setSize_size_of_ne _ _ apart', Headers.setNext_size, Headers.setSize_size_of_ne _ _ apart]
        exact Headers.setSize_size_self ..)
    rw [List.singleton_append, ← freeOf_cons_free, ← freeOf_append] at done
    refine ⟨_, ?_, done, keeps.hole⟩
    simp only [ne_eq, lowerFree, noUpper, not_false_eq_true, decide_true, last, List.cons_append, startsOf_cons,
      List.head?_cons, Option.bind_some, Headers.setSize_next, next, size', size'']
    rw [← Int.natCast_add, ← Int.natCast_add, build.toSize_natCast (by omega)]

theorem freeMemBlock_around (build : HeapBuild)
    (list : BlockList headers region.firstFreeBlock (freeOf (giveBackFrom front start before size after back)))
    (covers : Tiles 8 lower false (giveBackFrom front start before size after back) upper) (top : upper < 4294967296)
    (range : upper - lower < build.sizeLimit) (used : endsFree false front = false) (used' : beginsFree back = false)
    (sized : headers.size (start + before) = size) (taken : headers.next (start + before) = none) :
    ∃ headers' region', MemRegion.freeMemBlock build headers region (start + before) = some (headers', region') ∧
      BlockList headers' region'.firstFreeBlock (freeOf (front ++ ⟨start, before + size + after, true⟩ :: back)) ∧
      region'.lower = region.lower ∧ region'.upper = region.upper ∧
      KeepsOutside (freeOf (front ++ ⟨start, before + size + after, true⟩ :: back)) headers headers' := by
  by_cases noLower : before = 0
  · subst noLower
    rw [Nat.zero_add]
    exact freeMemBlock_apart build list covers top range used used' sized taken
  · obtain ⟨headers', freed, list', keeps⟩ := freeMemBlock_grown build noLower list covers top range used used' sized taken
    exact ⟨headers', region, freed, list', rfl, rfl, keeps⟩

end GivingBack

end Apollo.Klib
