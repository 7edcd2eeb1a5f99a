import Mathlib.Data.List.Basic

/-!
# Tables of slots

A table is a list of slots that are free or hold an entry.  `scan` walks over a
table until it meets an entry that is asked for, and it remembers the last free
slot on its way.  A table can be scanned piece by piece.
-/

set_option autoImplicit false

namespace Apollo.Lib

structure SlotScan where
  empty : Option Nat
  found : Option Nat

namespace Slots

variable {α : Type} (wanted : α → Bool)

/-- Scans the table, whose first slot has number `slot`. -/
def scan : List (Option α) → Nat → Option Nat → SlotScan
  | [], _, empty => ⟨empty, none⟩
  | none :: rest, slot, _ => scan rest (slot + 1) (some slot)
  | some entry :: rest, slot, empty =>
    if wanted entry then ⟨empty, some slot⟩ else scan rest (slot + 1) empty

def position (table : List (Option α)) : Option Nat := table.findIdx? (·.any wanted)

theorem scan_found (table : List (Option α)) (slot : Nat) (empty : Option Nat) :
    (scan wanted table slot empty).found = (position wanted table).map (slot + ·) := by
  induction table generalizing slot empty with
  | nil => rfl
  | cons head rest ih =>
    have step : Option.map (slot + 1 + ·) (position wanted rest) =
        Option.map (slot + ·) (Option.map (· + 1) (position wanted rest)) := by
      rw [Option.map_map]
      congr 1
      funext index
      simp only [Function.comp_apply]
      omega
    cases head with
    | none =>
      rw [scan, ih, step, position, position, List.findIdx?_cons]
      simp
    | some entry =>
      rw [scan]
      cases hit : wanted entry with
      | true => simp [position, List.findIdx?_cons, hit]
      | false =>
        rw [if_neg (by simp), ih, step, position, position, List.findIdx?_cons]
        simp [hit]

/-- A free slot that is passed later replaces the one that is remembered. -/
theorem scan_remembered (table : List (Option α)) (slot : Nat) (empty : Option Nat) :
    (scan wanted table slot empty).empty = (scan wanted table slot none).empty.or empty := by
  induction table generalizing slot empty with
  | nil => rfl
  | cons head rest ih =>
    cases head with
    | none =>
      rw [scan, scan, ih (slot + 1) (some slot)]
      cases (scan wanted rest (slot + 1) none).empty <;> rfl
    | some entry =>
      rw [scan, scan]
      split_ifs
      · rfl
      · exact ih (slot + 1) empty

theorem scan_shift (table : List (Option α)) (base slot : Nat) (empty : Option Nat) :
    (scan wanted table (base + slot) (empty.map (base + ·))).empty =
      (scan wanted table slot empty).empty.map (base + ·) := by
  induction table generalizing slot empty with
  | nil => rfl
  | cons head rest ih =>
    cases head with
    | none => exact ih (slot + 1) (some slot)
    | some entry =>
      rw [scan, scan]
      split_ifs
      · rfl
      · exact ih (slot + 1) empty

theorem scan_append (first second : List (Option α)) (slot : Nat) (empty : Option Nat) :
    scan wanted (first ++ second) slot empty =
      match (scan wanted first slot empty).found with
      | some _ => scan wanted first slot empty
      | none => scan wanted second (slot + first.length) (scan wanted first slot empty).empty := by
  induction first generalizing slot empty with
  | nil => rfl
  | cons head rest ih =>
    have position : slot + (head :: rest).length = slot + 1 + rest.length := by
      rw [List.length_cons]
      omega
    rw [position]
    cases head with
    | none => exact ih (slot + 1) (some slot)
    | some entry =>
      rw [List.cons_append, scan, scan]
      split_ifs
      · rfl
      · exact ih (slot + 1) empty

theorem scan_found_some {table : List (Option α)} {slot hit : Nat} {empty : Option Nat}
    (found : (scan wanted table slot empty).found = some hit) :
    slot ≤ hit ∧ ∃ entry, table[hit - slot]? = some (some entry) ∧ wanted entry = true := by
  rw [scan_found, Option.map_eq_some_iff] at found
  obtain ⟨index, position, rfl⟩ := found
  obtain ⟨inside, hit, -⟩ := List.findIdx?_eq_some_iff_getElem.mp position
  obtain ⟨entry, holds, wants⟩ := (Option.any_eq_true _ _).mp hit
  refine ⟨Nat.le_add_right _ _, entry, ?_, wants⟩
  rw [Nat.add_sub_cancel_left, List.getElem?_eq_getElem inside, holds]

theorem scan_empty_some {table : List (Option α)} {slot free : Nat}
    (remembered : (scan wanted table slot none).empty = some free) :
    slot ≤ free ∧ table[free - slot]? = some none := by
  induction table generalizing slot with
  | nil => simp [scan] at remembered
  | cons head rest ih =>
    cases head with
    | none =>
      rw [scan, scan_remembered] at remembered
      cases later : (scan wanted rest (slot + 1) none).empty with
      | none =>
        rw [later, Option.none_or, Option.some.injEq] at remembered
        subst remembered
        simp
      | some other =>
        rw [later, Option.some_or, Option.some.injEq] at remembered
        subst remembered
        obtain ⟨low, free⟩ := ih later
        rw [show other - slot = other - (slot + 1) + 1 by omega]
        exact ⟨by omega, free⟩
    | some entry =>
      rw [scan] at remembered
      split_ifs at remembered
      obtain ⟨low, free'⟩ := ih remembered
      rw [show free - slot = free - (slot + 1) + 1 by omega]
      exact ⟨by omega, free'⟩

end Slots

end Apollo.Lib
