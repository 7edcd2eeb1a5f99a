import Mathlib.Algebra.Order.Group.Nat
import Mathlib.Data.List.Pairwise

/-!
# Tilings of an interval

An interval of naturals is cut into tiles that are free or used.  The sizes are
multiples of a unit, and no two free tiles touch.  Taking a piece from the start
of a free tile keeps this; so does giving a used tile back, which is joined with
the free tiles next to it.
-/

set_option autoImplicit false

namespace Apollo.Lib

structure Tile where
  start : Nat
  size : Nat
  isFree : Bool
  deriving DecidableEq

/-- The tiles go from `lower` to `upper`; `wasFree` tells whether a free tile ends at `lower`. -/
def Tiles (unit : Nat) : Nat → Bool → List Tile → Nat → Prop
  | lower, _, [], upper => lower = upper
  | lower, wasFree, tile :: rest, upper =>
    tile.start = lower ∧ 0 < tile.size ∧ unit ∣ tile.size ∧ (wasFree = true → tile.isFree = false) ∧
      Tiles unit (lower + tile.size) tile.isFree rest upper

def endsFree : Bool → List Tile → Bool
  | wasFree, [] => wasFree
  | _, tile :: rest => endsFree tile.isFree rest

def beginsFree (tiles : List Tile) : Bool := tiles.head?.any (·.isFree)

def freeOf (tiles : List Tile) : List Tile := tiles.filter (·.isFree)

def usedOf (tiles : List Tile) : List Tile := tiles.filter (!·.isFree)

def freeTile (start size : Nat) : List Tile := if size = 0 then [] else [⟨start, size, true⟩]

section Lists
variable {front back tiles : List Tile} {tile : Tile}

@[simp] theorem freeOf_append : freeOf (front ++ back) = freeOf front ++ freeOf back := List.filter_append ..

@[simp] theorem usedOf_append : usedOf (front ++ back) = usedOf front ++ usedOf back := List.filter_append ..

@[simp] theorem freeOf_cons_free {start size : Nat} : freeOf (⟨start, size, true⟩ :: tiles) = ⟨start, size, true⟩ :: freeOf tiles :=
  rfl

@[simp] theorem freeOf_cons_used {start size : Nat} : freeOf (⟨start, size, false⟩ :: tiles) = freeOf tiles := rfl

@[simp] theorem usedOf_cons_free {start size : Nat} : usedOf (⟨start, size, true⟩ :: tiles) = usedOf tiles := rfl

@[simp] theorem usedOf_cons_used {start size : Nat} : usedOf (⟨start, size, false⟩ :: tiles) = ⟨start, size, false⟩ :: usedOf tiles :=
  rfl

theorem mem_freeOf : tile ∈ freeOf tiles ↔ tile ∈ tiles ∧ tile.isFree = true := List.mem_filter

theorem mem_usedOf : tile ∈ usedOf tiles ↔ tile ∈ tiles ∧ tile.isFree = false := by
  rw [usedOf, List.mem_filter, Bool.not_eq_true']

@[simp] theorem freeOf_freeTile (start size : Nat) : freeOf (freeTile start size) = freeTile start size := by
  unfold freeTile
  split <;> rfl

@[simp] theorem usedOf_freeTile (start size : Nat) : usedOf (freeTile start size) = [] := by
  unfold freeTile
  split <;> rfl

theorem endsFree_append (wasFree : Bool) : endsFree wasFree (front ++ back) = endsFree (endsFree wasFree front) back := by
  induction front generalizing wasFree with
  | nil => rfl
  | cons tile rest ih => exact ih tile.isFree

end Lists

namespace Tiles

variable {unit lower middle upper : Nat} {wasFree : Bool} {front back tiles : List Tile} {tile other : Tile}

theorem append : Tiles unit lower wasFree (front ++ back) upper ↔
    ∃ middle, Tiles unit lower wasFree front middle ∧ Tiles unit middle (endsFree wasFree front) back upper := by
  induction front generalizing lower wasFree with
  | nil =>
    constructor
    · intro covers
      exact ⟨lower, rfl, covers⟩
    · rintro ⟨middle, rfl, covers⟩
      exact covers
  | cons tile rest ih =>
    constructor
    · rintro ⟨starts, positive, divides, apart, covers⟩
      obtain ⟨middle, first, second⟩ := ih.mp covers
      exact ⟨middle, ⟨starts, positive, divides, apart, first⟩, second⟩
    · rintro ⟨middle, ⟨starts, positive, divides, apart, first⟩, second⟩
      exact ⟨starts, positive, divides, apart, ih.mpr ⟨middle, first, second⟩⟩

theorem used_of_free (covers : Tiles unit lower true tiles upper) : beginsFree tiles = false := by
  cases tiles with
  | nil => rfl
  | cons tile rest => exact covers.2.2.2.1 rfl

section
variable (covers : Tiles unit lower wasFree tiles upper)
include covers

theorem le : lower ≤ upper := by
  induction tiles generalizing lower wasFree with
  | nil => exact Nat.le_of_eq covers
  | cons tile rest ih => exact Nat.le_trans (Nat.le_add_right _ _) (ih covers.2.2.2.2)

theorem sized (member : tile ∈ tiles) : 0 < tile.size ∧ unit ∣ tile.size := by
  obtain ⟨front, back, rfl⟩ := List.append_of_mem member
  obtain ⟨middle, -, -, positive, divides, -⟩ := append.mp covers
  exact ⟨positive, divides⟩

theorem inside (member : tile ∈ tiles) : lower ≤ tile.start ∧ tile.start + tile.size ≤ upper := by
  obtain ⟨front, back, rfl⟩ := List.append_of_mem member
  obtain ⟨middle, first, starts, -, -, -, second⟩ := append.mp covers
  rw [starts]
  exact ⟨first.le, second.le⟩

theorem ascending : tiles.Pairwise fun tile other => tile.start + tile.size ≤ other.start := by
  induction tiles generalizing lower wasFree with
  | nil => exact List.Pairwise.nil
  | cons tile rest ih =>
    obtain ⟨starts, -, -, -, covers⟩ := covers
    refine List.Pairwise.cons ?_ (ih covers)
    intro other member
    rw [starts]
    exact (covers.inside member).1

theorem disjoint (member : tile ∈ tiles) (member' : other ∈ tiles)
    (different : tile ≠ other) : tile.start + tile.size ≤ other.start ∨ other.start + other.size ≤ tile.start := by
  let Apart (tile other : Tile) := tile.start + tile.size ≤ other.start ∨ other.start + other.size ≤ tile.start
  have symm : Std.Symm Apart := ⟨fun _ _ => Or.symm⟩
  have apart : tiles.Pairwise Apart := covers.ascending.imp Or.inl
  exact apart.forall member member' different

theorem eq_of_start (member : tile ∈ tiles) (member' : other ∈ tiles)
    (same : tile.start = other.start) : tile = other := by
  induction tiles generalizing lower wasFree with
  | nil => exact absurd member List.not_mem_nil
  | cons first rest ih =>
    have positive := covers.2.1
    have behind : ∀ later ∈ rest, first.start < later.start := by
      intro later member
      have apart := List.rel_of_pairwise_cons covers.ascending member
      omega
    rcases List.mem_cons.mp member with is | member
    · rcases List.mem_cons.mp member' with is' | member'
      · exact is.trans is'.symm
      · exact absurd (is ▸ same) (Nat.ne_of_lt (behind other member'))
    · rcases List.mem_cons.mp member' with is' | member'
      · exact absurd (is' ▸ same.symm) (Nat.ne_of_lt (behind tile member))
      · exact ih covers.2.2.2.2 member member'

/-- What lies in front of the tiles does not matter when they begin with a used one. -/
theorem of_used (used : beginsFree tiles = false) (before : Bool) : Tiles unit lower before tiles upper := by
  cases tiles with
  | nil => exact covers
  | cons tile rest =>
    obtain ⟨starts, positive, divides, -, covers⟩ := covers
    exact ⟨starts, positive, divides, fun _ => used, covers⟩

theorem stop_lt (used : endsFree wasFree tiles = false)
    (member : tile ∈ freeOf tiles) : tile.start + tile.size < upper := by
  obtain ⟨member, free⟩ := mem_freeOf.mp member
  obtain ⟨front, back, rfl⟩ := List.append_of_mem member
  obtain ⟨middle, -, starts, -, -, -, second⟩ := append.mp covers
  cases back with
  | nil =>
    rw [endsFree_append] at used
    exact absurd used (by simp [endsFree, free])
  | cons next rest =>
    have positive := second.2.1
    have inside := second.2.2.2.2.le
    omega

theorem lt_start (used : beginsFree tiles = false) (member : tile ∈ freeOf tiles) : lower < tile.start := by
  obtain ⟨member, free⟩ := mem_freeOf.mp member
  cases tiles with
  | nil => exact absurd member List.not_mem_nil
  | cons first rest =>
    obtain ⟨starts, positive, -, -, second⟩ := covers
    rcases List.mem_cons.mp member with rfl | member
    · exact absurd (free.symm.trans used) (by simp)
    · have behind := (second.inside member).1
      omega

theorem apart (member : tile ∈ freeOf tiles) (member' : other ∈ freeOf tiles) :
    tile.start + tile.size ≠ other.start := by
  obtain ⟨inside, free⟩ := mem_freeOf.mp member
  obtain ⟨inside', free'⟩ := mem_freeOf.mp member'
  obtain ⟨front, back, rfl⟩ := List.append_of_mem inside
  obtain ⟨middle, first, starts, positive, -, -, second⟩ := append.mp covers
  rcases List.mem_append.mp inside' with before | behind
  · have stops := (first.inside before).2
    omega
  · rcases List.mem_cons.mp behind with rfl | behind
    · omega
    · have used : beginsFree back = false := by
        rw [free] at second
        exact second.used_of_free
      have later := second.lt_start used (mem_freeOf.mpr ⟨behind, free'⟩)
      omega

end

/-! ## Taking and giving back -/

theorem freeTile_iff {start size : Nat} :
    Tiles unit lower wasFree (freeTile start size) upper ↔
      lower + size = upper ∧ (size ≠ 0 → start = lower ∧ unit ∣ size ∧ wasFree = false) := by
  unfold freeTile
  by_cases empty : size = 0
  · rw [if_pos empty, empty]
    simp [Tiles]
  · rw [if_neg empty]
    simp only [Tiles, Bool.true_eq_false, imp_false, Bool.not_eq_true]
    constructor
    · rintro ⟨starts, -, divides, used, ends⟩
      exact ⟨ends, fun _ => ⟨starts, divides, used⟩⟩
    · rintro ⟨ends, rest⟩
      obtain ⟨starts, divides, used⟩ := rest empty
      exact ⟨starts, Nat.pos_of_ne_zero empty, divides, used, ends⟩

theorem take {start size count : Nat} (covers : Tiles unit lower wasFree (front ++ ⟨start, size, true⟩ :: back) upper)
    (positive : 0 < count) (divides : unit ∣ count) (fits : count ≤ size) :
    Tiles unit lower wasFree (front ++ ⟨start, count, false⟩ :: (freeTile (start + count) (size - count) ++ back)) upper := by
  obtain ⟨middle, first, starts, -, whole, -, second⟩ := append.mp covers
  refine append.mpr ⟨middle, first, starts, positive, divides, fun _ => rfl, append.mpr ⟨middle + size, ?_, ?_⟩⟩
  · refine freeTile_iff.mpr ⟨by dsimp only; omega, fun _ => ⟨?_, Nat.dvd_sub whole divides, rfl⟩⟩
    rw [← starts]
  · exact second.of_used second.used_of_free _

theorem giveBack {start before size after : Nat}
    (covers : Tiles unit lower wasFree
      (front ++ (freeTile start before ++ ⟨start + before, size, false⟩ :: (freeTile (start + before + size) after ++ back))) upper)
    (used : endsFree wasFree front = false) (used' : beginsFree back = false) :
    Tiles unit lower wasFree (front ++ ⟨start, before + size + after, true⟩ :: back) upper := by
  obtain ⟨middle, first, second⟩ := append.mp covers
  obtain ⟨_, lowerFree, starts, positive, divides, -, third⟩ := append.mp second
  obtain ⟨stop, upperFree, fourth⟩ := append.mp third
  obtain ⟨ends, facts⟩ := freeTile_iff.mp lowerFree
  obtain ⟨ends', facts'⟩ := freeTile_iff.mp upperFree
  dsimp only at starts ends'
  refine append.mpr ⟨middle, first, by dsimp only; omega, by dsimp only at positive ⊢; omega, ?_, ?_, ?_⟩
  · have lowerDivides : unit ∣ before := by
      by_cases empty : before = 0
      · rw [empty]
        exact Nat.dvd_zero unit
      · exact (facts empty).2.1
    have upperDivides : unit ∣ after := by
      by_cases empty : after = 0
      · rw [empty]
        exact Nat.dvd_zero unit
      · exact (facts' empty).2.1
    exact Nat.dvd_add (Nat.dvd_add lowerDivides divides) upperDivides
  · intro free
    rw [used] at free
    simp at free
  · have same : middle + (before + size + after) = stop := by
      omega
    rw [same]
    exact fourth.of_used used' true

theorem around {tile : Tile} (covers : Tiles unit lower false (front ++ tile :: back) upper) :
    ∃ front' start before after back', front = front' ++ freeTile start before ∧ tile.start = start + before ∧
      back = freeTile (start + before + tile.size) after ++ back' ∧ endsFree false front' = false ∧
      beginsFree back' = false := by
  obtain ⟨middle, first, starts, -, -, -, second⟩ := append.mp covers
  have lowerPart : ∃ front' start before, front = front' ++ freeTile start before ∧ tile.start = start + before ∧
      endsFree false front' = false := by
    rcases List.eq_nil_or_concat front with rfl | ⟨front', last, rfl⟩
    · exact ⟨[], tile.start, 0, rfl, rfl, rfl⟩
    · rw [List.concat_eq_append] at first ⊢
      obtain ⟨_, covers', starts', positive, -, apart, ends⟩ := append.mp first
      change _ = middle at ends
      by_cases free : last.isFree = true
      · refine ⟨front', last.start, last.size, ?_, by omega, ?_⟩
        · rw [freeTile, if_neg (Nat.ne_of_gt positive), ← free]
        · refine Bool.eq_false_iff.mpr fun before => ?_
          rw [apart before] at free
          simp at free
      · refine ⟨front' ++ [last], tile.start, 0, ?_, rfl, ?_⟩
        · rw [freeTile, if_pos rfl, List.append_nil]
        · rw [endsFree_append]
          exact Bool.eq_false_iff.mpr free
  have upperPart : ∃ after back', back = freeTile (tile.start + tile.size) after ++ back' ∧ beginsFree back' = false := by
    cases back with
    | nil => exact ⟨0, [], rfl, rfl⟩
    | cons next rest =>
      obtain ⟨starts', positive, -, -, third⟩ := second
      by_cases free : next.isFree = true
      · refine ⟨next.size, rest, ?_, ?_⟩
        · rw [freeTile, if_neg (Nat.ne_of_gt positive), starts, ← starts', ← free]
          rfl
        · rw [free] at third
          exact third.used_of_free
      · exact ⟨0, next :: rest, rfl, Bool.eq_false_iff.mpr free⟩
  obtain ⟨front', start, before, isFront, isStart, used⟩ := lowerPart
  obtain ⟨after, back', isBack, used'⟩ := upperPart
  exact ⟨front', start, before, after, back', isFront, isStart, isStart ▸ isBack, used, used'⟩

end Tiles

end Apollo.Lib
