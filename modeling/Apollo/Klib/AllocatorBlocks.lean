import Apollo.Klib.Allocator
import Apollo.Lib.Tilings

/-!
# The lists of blocks

What the searches of `Allocator.c` find on a list of blocks, and what the list is
after a block was taken from it or given back.
-/

set_option autoImplicit false

namespace Apollo.Klib

open Lib

def startsOf (tiles : List Tile) : List Nat := tiles.map (·.start)

@[simp] theorem startsOf_nil : startsOf [] = [] := rfl

@[simp] theorem startsOf_cons (tile : Tile) (tiles : List Tile) : startsOf (tile :: tiles) = tile.start :: startsOf tiles := rfl

@[simp] theorem startsOf_append (front back : List Tile) : startsOf (front ++ back) = startsOf front ++ startsOf back :=
  List.map_append

theorem mem_startsOf {tiles : List Tile} {start : Nat} : start ∈ startsOf tiles ↔ ∃ tile ∈ tiles, tile.start = start :=
  List.mem_map

structure BlockList (headers : Headers) (first : Option Nat) (blocks : List Tile) : Prop where
  first : first = (startsOf blocks).head?
  linked : Segment headers.next (startsOf blocks) none
  sized : ∀ tile ∈ blocks, headers.size tile.start = tile.size

section Searches
variable {headers headers' : Headers} {first prev : Option Nat} {blocks front back : List Tile} {tile : Tile} {fuel : Nat}

theorem BlockList.congr (list : BlockList headers first blocks)
    (same : ∀ start ∈ startsOf blocks, headers'.next start = headers.next start ∧ headers'.size start = headers.size start) :
    BlockList headers' first blocks := by
  refine ⟨list.first, list.linked.congr fun start member => (same start member).1, ?_⟩
  intro tile member
  rw [(same tile.start (mem_startsOf.mpr ⟨tile, member, rfl⟩)).2]
  exact list.sized tile member

theorem BlockList.tail (list : BlockList headers first (tile :: blocks)) :
    first = some tile.start ∧ headers.size tile.start = tile.size ∧ BlockList headers (headers.next tile.start) blocks := by
  refine ⟨list.first, list.sized tile List.mem_cons_self, ?_, list.linked.2, ?_⟩
  · rw [list.linked.1, Option.or_none]
    rfl
  · exact fun other member => list.sized other (List.mem_cons_of_mem _ member)

theorem BlockList.nil_iff : BlockList headers first [] ↔ first = none := by
  constructor
  · exact fun list => list.first
  · exact fun none => ⟨none, trivial, fun _ member => absurd member List.not_mem_nil⟩

theorem getLast?_cons_or (start : Nat) (starts : List Nat) (prev : Option Nat) :
    (start :: starts).getLast?.or prev = starts.getLast?.or (some start) := by
  cases starts with
  | nil => rfl
  | cons other rest =>
    rw [List.getLast?_cons_cons]
    cases last : (other :: rest).getLast? with
    | none => simp at last
    | some _ => rfl

theorem findFit_none {count : Int} (list : BlockList headers first blocks) (small : ∀ tile ∈ blocks, (tile.size : Int) < count)
    (enough : blocks.length ≤ fuel) : MemRegion.findFit headers count fuel first prev = some none := by
  induction blocks generalizing first prev fuel with
  | nil =>
    rw [BlockList.nil_iff.mp list]
    cases fuel <;> rfl
  | cons tile rest ih =>
    obtain ⟨rfl, size, list'⟩ := list.tail
    cases fuel with
    | zero => simp at enough
    | succ fuel =>
      have smaller := small tile List.mem_cons_self
      unfold MemRegion.findFit
      rw [size, if_neg (by omega)]
      exact ih list' (fun other member => small other (List.mem_cons_of_mem _ member)) (Nat.le_of_succ_le_succ enough)

theorem findFit_some {count : Int} (list : BlockList headers first (front ++ tile :: back))
    (small : ∀ tile ∈ front, (tile.size : Int) < count) (fits : count ≤ tile.size) (enough : front.length < fuel) :
    MemRegion.findFit headers count fuel first prev = some (some ((startsOf front).getLast?.or prev, tile.start)) := by
  induction front generalizing first prev fuel with
  | nil =>
    obtain ⟨rfl, size, -⟩ := list.tail
    cases fuel with
    | zero => simp at enough
    | succ fuel =>
      unfold MemRegion.findFit
      rw [size]
      exact if_pos fits
  | cons other rest ih =>
    obtain ⟨rfl, size, list'⟩ := list.tail
    cases fuel with
    | zero => simp at enough
    | succ fuel =>
      have smaller := small other List.mem_cons_self
      unfold MemRegion.findFit
      rw [size, if_neg (by omega), startsOf_cons, getLast?_cons_or]
      exact ih list' (fun other member => small other (List.mem_cons_of_mem _ member)) (Nat.lt_of_succ_lt_succ enough)

theorem findAllocated_eq (list : BlockList headers first (front ++ tile :: back)) (absent : tile.start ∉ startsOf front)
    (enough : front.length < fuel) :
    Allocator.findAllocated headers tile.start fuel first prev = some (some ((startsOf front).getLast?.or prev)) := by
  induction front generalizing first prev fuel with
  | nil =>
    obtain ⟨rfl, -⟩ := list.tail
    cases fuel with
    | zero => simp at enough
    | succ fuel =>
      exact if_pos rfl
  | cons other rest ih =>
    obtain ⟨rfl, -, list'⟩ := list.tail
    rw [startsOf_cons, List.mem_cons, not_or] at absent
    cases fuel with
    | zero => simp at enough
    | succ fuel =>
      unfold Allocator.findAllocated
      rw [if_neg (Ne.symm absent.1), startsOf_cons, getLast?_cons_or]
      exact ih list' absent.2 (Nat.lt_of_succ_lt_succ enough)

theorem addPtr_natCast {ptr count : Nat} (inside : ptr + count < 4294967296) : addPtr ptr count = ptr + count := by
  unfold addPtr
  omega

theorem findNeighbors_eq {pLowerToFree pUpperToFree : Nat} {found : MemRegion.Neighbors}
    (list : BlockList headers first (front ++ back)) (below : ∀ tile ∈ front, tile.start + tile.size ≤ pLowerToFree)
    (above : ∀ tile ∈ back, pUpperToFree ≤ tile.start ∧ 0 < tile.size ∧ tile.start + tile.size < 4294967296)
    (order : pLowerToFree < pUpperToFree) (inside : pLowerToFree < 4294967296) (enough : (front ++ back).length ≤ fuel) :
    MemRegion.findNeighbors headers pLowerToFree pUpperToFree fuel first found =
      some
        { pLowerFreeBlock := (startsOf front).getLast?.or found.pLowerFreeBlock
          pUpperFreeBlock := (startsOf back).head?.or found.pUpperFreeBlock
          isLowerFreeBlockAdjacent := front.getLast?.elim found.isLowerFreeBlockAdjacent
            fun tile => tile.start + tile.size == pLowerToFree
          isUpperFreeBlockAdjacent := back.head?.elim found.isUpperFreeBlockAdjacent
            fun tile => tile.start == pUpperToFree } := by
  induction front generalizing first found fuel with
  | nil =>
    cases back with
    | nil =>
      rw [BlockList.nil_iff.mp list]
      cases fuel <;> rfl
    | cons tile rest =>
      obtain ⟨rfl, size, -⟩ := list.tail
      obtain ⟨behind, positive, bound⟩ := above tile List.mem_cons_self
      cases fuel with
      | zero => simp at enough
      | succ fuel =>
        unfold MemRegion.findNeighbors
        rw [size, addPtr_natCast bound]
        rw [if_neg (by omega), if_pos behind]
        rfl
  | cons tile rest ih =>
    obtain ⟨rfl, size, list'⟩ := list.tail
    have stops := below tile List.mem_cons_self
    cases fuel with
    | zero => simp at enough
    | succ fuel =>
      unfold MemRegion.findNeighbors
      rw [size, addPtr_natCast (by omega)]
      rw [if_pos stops, ih list' (fun other member => below other (List.mem_cons_of_mem _ member))
        (Nat.le_of_succ_le_succ enough), startsOf_cons, getLast?_cons_or]
      cases rest with
      | nil => rfl
      | cons other rest =>
        cases last : (other :: rest).getLast? with
        | none => simp at last
        | some _ => rw [List.getLast?_cons_cons, last]; rfl

end Searches

/-! ## Exchanging blocks -/

section Exchange
variable {headers headers' : Headers} {first first' : Option Nat} {front middle center back : List Tile}

theorem BlockList.exchange (list : BlockList headers first (front ++ (middle ++ back)))
    (isFirst : first' = (startsOf (front ++ (center ++ back))).head?)
    (kept : ∀ start ∈ (startsOf front).dropLast, headers'.next start = headers.next start)
    (last : ∀ start, (startsOf front).getLast? = some start → headers'.next start = (startsOf (center ++ back)).head?)
    (inner : Segment headers'.next (startsOf center) (startsOf back).head?)
    (kept' : ∀ start ∈ startsOf back, headers'.next start = headers.next start)
    (sized : ∀ tile ∈ front ++ back, headers'.size tile.start = headers.size tile.start)
    (sized' : ∀ tile ∈ center, headers'.size tile.start = tile.size) :
    BlockList headers' first' (front ++ (center ++ back)) := by
  refine ⟨isFirst, ?_, ?_⟩
  · have linked := list.linked
    rw [startsOf_append, startsOf_append] at linked ⊢
    refine linked.relink kept ?_ ?_ kept'
    · intro start isLast
      rw [Option.or_none, ← startsOf_append]
      exact last start isLast
    · rw [Option.or_none]
      exact inner
  · intro tile member
    rw [List.mem_append, List.mem_append] at member
    have old : tile ∈ front ++ back → headers'.size tile.start = tile.size := by
      intro member
      rw [sized tile member]
      refine list.sized tile ?_
      rw [List.mem_append] at member
      rw [List.mem_append, List.mem_append]
      exact member.imp id .inr
    rcases member with before | inside | behind
    · exact old (List.mem_append_left _ before)
    · exact sized' tile inside
    · exact old (List.mem_append_right _ behind)

end Exchange

namespace MemRegion

variable (headers : Headers) (region : MemRegion) (prev next : Option Nat)

@[simp] theorem setLink_size : (setLink headers region prev next).1.size = headers.size := by
  cases prev <;> rfl

theorem setLink_next (start : Nat) :
    (setLink headers region prev next).1.next start = if prev = some start then next else headers.next start := by
  cases prev with
  | none => rfl
  | some other =>
    change Function.update headers.next other next start = _
    rw [Function.update_apply]
    simp only [Option.some.injEq, eq_comm]

@[simp] theorem setLink_lower : (setLink headers region prev next).2.lower = region.lower := by
  cases prev <;> rfl

@[simp] theorem setLink_upper : (setLink headers region prev next).2.upper = region.upper := by
  cases prev <;> rfl

theorem setLink_first {front back : List Tile} (isFirst : region.firstFreeBlock = (startsOf (front ++ back)).head?)
    {center : List Tile} (isNext : next = (startsOf center).head?) (isPrev : prev = (startsOf front).getLast?) :
    (setLink headers region prev next).2.firstFreeBlock = (startsOf (front ++ center)).head? := by
  cases front with
  | nil =>
    rw [isPrev]
    exact isNext
  | cons tile rest =>
    obtain ⟨last, isLast⟩ : ∃ last, prev = some last := by
      cases there : prev with
      | none =>
        rw [there, eq_comm, List.getLast?_eq_none_iff] at isPrev
        simp at isPrev
      | some last => exact ⟨last, rfl⟩
    rw [isLast]
    exact isFirst

end MemRegion

end Apollo.Klib
