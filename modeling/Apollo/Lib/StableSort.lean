import Mathlib.Order.Lattice

/-!
# Insertion sort from the back

A sort in descending order of a key that moves every entry from the back over the
entries with a smaller key.  The sorted part is kept last entry first, as the loop
walks over it.  Entries with the same key stay in their order.
-/

set_option autoImplicit false

namespace Apollo.Lib

variable {α κ : Type} [LinearOrder κ] (key : α → κ)

def shiftIn (entry : α) : List α → List α
  | [] => [entry]
  | last :: front => if key last < key entry then last :: shiftIn entry front else entry :: last :: front

def sortDescending (entries : List α) : List α :=
  (entries.foldl (fun sorted entry => shiftIn key entry sorted) []).reverse

/-- The order of the sorted entries; entries with the same key are in the order `before`. -/
def Precedes (before : α → α → Prop) (first second : α) : Prop :=
  key second < key first ∨ key first = key second ∧ before first second

section Shift
variable {key} {before : α → α → Prop} {entry : α} {sorted : List α}

theorem shiftIn_perm (entry : α) (sorted : List α) : (shiftIn key entry sorted).Perm (entry :: sorted) := by
  induction sorted with
  | nil => exact .refl _
  | cons last front ih =>
    unfold shiftIn
    split_ifs
    · exact (ih.cons last).trans (.swap entry last front)
    · exact .refl _

theorem key_le_of_precedes {first second : α} (precedes : Precedes key before first second) : key second ≤ key first := by
  rcases precedes with less | ⟨same, -⟩
  · exact le_of_lt less
  · exact le_of_eq same.symm

/-- Without an order of the entries with the same key. -/
theorem precedes_true_iff {first second : α} : Precedes key (fun _ _ => True) first second ↔ key second ≤ key first := by
  unfold Precedes
  rw [and_true, le_iff_lt_or_eq]
  exact or_congr_right eq_comm

theorem pairwise_shiftIn (ordered : sorted.Pairwise fun second first => Precedes key before first second)
    (later : ∀ other ∈ sorted, key other = key entry → before other entry) :
    (shiftIn key entry sorted).Pairwise fun second first => Precedes key before first second := by
  induction sorted with
  | nil => exact List.pairwise_singleton _ _
  | cons last front ih =>
    obtain ⟨lastBehind, rest⟩ := List.pairwise_cons.mp ordered
    unfold shiftIn
    split_ifs with less
    · refine List.pairwise_cons.mpr ⟨fun other member => ?_, ih rest fun other member => later other (.tail _ member)⟩
      rcases List.mem_cons.mp ((shiftIn_perm entry front).mem_iff.mp member) with rfl | inFront
      · exact .inl less
      · exact lastBehind other inFront
    · have atLeast : ∀ other ∈ last :: front, key entry ≤ key other := by
        intro other member
        rcases List.mem_cons.mp member with rfl | inFront
        · exact not_lt.mp less
        · exact le_trans (not_lt.mp less) (key_le_of_precedes (lastBehind other inFront))
      refine List.pairwise_cons.mpr ⟨fun other member => ?_, ordered⟩
      rcases lt_or_eq_of_le (atLeast other member) with less | same
      · exact .inl less
      · exact .inr ⟨same.symm, later other member same.symm⟩

end Shift

section Sorting
variable {key} {before : α → α → Prop} {entries sorted : List α}

theorem foldl_shiftIn_perm (entries sorted : List α) :
    (entries.foldl (fun sorted entry => shiftIn key entry sorted) sorted).Perm (entries ++ sorted) := by
  induction entries generalizing sorted with
  | nil => exact .refl _
  | cons entry rest ih =>
    refine (ih (shiftIn key entry sorted)).trans ?_
    exact ((shiftIn_perm entry sorted).append_left rest).trans List.perm_middle

/-- The sort loses no entry and adds none. -/
theorem sortDescending_perm (entries : List α) : (sortDescending key entries).Perm entries := by
  have perm := @foldl_shiftIn_perm _ _ _ key entries []
  rw [List.append_nil] at perm
  exact (List.reverse_perm _).trans perm

theorem pairwise_foldl_shiftIn (ordered : sorted.Pairwise fun second first => Precedes key before first second)
    (stable : entries.Pairwise fun first second => key first = key second → before first second)
    (later : ∀ other ∈ sorted, ∀ entry ∈ entries, key other = key entry → before other entry) :
    (entries.foldl (fun sorted entry => shiftIn key entry sorted) sorted).Pairwise
      fun second first => Precedes key before first second := by
  induction entries generalizing sorted with
  | nil => exact ordered
  | cons entry rest ih =>
    obtain ⟨first, rest⟩ := List.pairwise_cons.mp stable
    refine ih (pairwise_shiftIn ordered fun other member => later other member entry (.head _)) rest ?_
    intro other member entry' inRest
    rcases List.mem_cons.mp ((shiftIn_perm entry sorted).mem_iff.mp member) with rfl | inSorted
    · exact first entry' inRest
    · exact later other inSorted entry' (.tail _ inRest)

theorem pairwise_sortDescending (stable : entries.Pairwise fun first second => key first = key second → before first second) :
    (sortDescending key entries).Pairwise (Precedes key before) :=
  List.pairwise_reverse.mpr (pairwise_foldl_shiftIn .nil stable fun _ member => absurd member List.not_mem_nil)

end Sorting

/-! ## A queue that is kept in this order -/

section Queue
variable {key} {before : α → α → Prop} {entry : α} {front back : List α}

/-- A new entry between those with a key that is not smaller and the rest, whose first key is smaller. -/
theorem pairwise_between (ordered : (front ++ back).Pairwise (Precedes key before))
    (least : ∀ other ∈ front, key entry ≤ key other) (less : ∀ other, back.head? = some other → key other < key entry)
    (later : ∀ other ∈ front, key other = key entry → before other entry) :
    (front ++ entry :: back).Pairwise (Precedes key before) := by
  obtain ⟨frontOrdered, backOrdered, apart⟩ := List.pairwise_append.mp ordered
  have behind : ∀ other ∈ back, key other < key entry := by
    intro other member
    cases back with
    | nil => exact absurd member List.not_mem_nil
    | cons head rest =>
      have headLess := less head rfl
      rcases List.mem_cons.mp member with rfl | inRest
      · exact headLess
      · exact lt_of_le_of_lt (key_le_of_precedes ((List.pairwise_cons.mp backOrdered).1 other inRest)) headLess
  refine List.pairwise_append.mpr ⟨frontOrdered, List.pairwise_cons.mpr ⟨?_, backOrdered⟩, ?_⟩
  · intro other member
    exact .inl (behind other member)
  · intro other member second inSecond
    rcases List.mem_cons.mp inSecond with rfl | inBack
    · rcases lt_or_eq_of_le (least other member) with less | same
      · exact .inl less
      · exact .inr ⟨same.symm, later other member same.symm⟩
    · exact apart other member second inBack

end Queue

end Apollo.Lib
