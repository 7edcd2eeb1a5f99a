import Mathlib.Data.List.Basic

/-!
# Tables by ranges

A row of a table that is indexed by a number and has few different entries: the
ranges of equal entries in ascending order, each with its last index.  Behind the
last range the row has no entry.
-/

set_option autoImplicit false

namespace Apollo.Lib

variable {α : Type}

def rangeEntry : List (Nat × α) → Nat → Option α
  | [], _ => none
  | (last, entry) :: rest, index => if index ≤ last then some entry else rangeEntry rest index

theorem mem_of_rangeEntry {row : List (Nat × α)} {index : Nat} {entry : α} (found : rangeEntry row index = some entry) :
    entry ∈ row.map Prod.snd := by
  induction row with
  | nil => cases found
  | cons range rest ih =>
    rw [rangeEntry] at found
    split at found
    · rw [← Option.some.inj found]
      exact List.mem_cons_self
    · exact List.mem_cons_of_mem _ (ih found)

theorem rangeEntry_eq_none {row : List (Nat × α)} {index : Nat} :
    rangeEntry row index = none ↔ ∀ range ∈ row, range.1 < index := by
  induction row with
  | nil => simp [rangeEntry]
  | cons range rest ih =>
    rw [rangeEntry, List.forall_mem_cons]
    split
    · constructor
      · intro found
        cases found
      · omega
    · rw [ih]
      constructor
      · exact fun above => ⟨by omega, above⟩
      · exact fun above => above.2

end Apollo.Lib
