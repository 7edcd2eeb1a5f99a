import Mathlib.Algebra.GroupWithZero.Nat
import Mathlib.Order.Interval.Finset.Nat

/-!
# Intervals of addresses

Intervals that are apart from each other have room for no more than what they are inside of.
-/

set_option autoImplicit false

namespace Apollo.Lib

structure Interval where
  start : Nat
  size : Nat
  deriving DecidableEq

namespace Interval

def stop (interval : Interval) : Nat := interval.start + interval.size

def Apart (left right : Interval) : Prop := left.stop ≤ right.start ∨ right.stop ≤ left.start

instance (left right : Interval) : Decidable (left.Apart right) := inferInstanceAs (Decidable (_ ∨ _))

/-- `inner` is a part of `outer`. -/
def Within (inner outer : Interval) : Prop := outer.start ≤ inner.start ∧ inner.stop ≤ outer.stop

instance (inner outer : Interval) : Decidable (inner.Within outer) := inferInstanceAs (Decidable (_ ∧ _))

theorem Apart.symm {left right : Interval} (apart : left.Apart right) : right.Apart left := Or.symm apart

theorem Within.trans {inner middle outer : Interval} (first : inner.Within middle) (second : middle.Within outer) :
    inner.Within outer :=
  ⟨Nat.le_trans second.1 first.1, Nat.le_trans first.2 second.2⟩

theorem Apart.of_within {left right outer outer' : Interval} (apart : outer.Apart outer') (within : left.Within outer)
    (within' : right.Within outer') : left.Apart right := by
  rcases apart with before | behind
  · exact .inl (Nat.le_trans within.2 (Nat.le_trans before within'.1))
  · exact .inr (Nat.le_trans within'.2 (Nat.le_trans behind within.1))

def addresses (interval : Interval) : Finset Nat := Finset.Ico interval.start interval.stop

theorem card_addresses (interval : Interval) : interval.addresses.card = interval.size := by
  rw [addresses, Nat.card_Ico, stop, Nat.add_sub_cancel_left]

theorem Apart.disjoint {left right : Interval} (apart : left.Apart right) : Disjoint left.addresses right.addresses := by
  rw [Finset.disjoint_left]
  intro address inLeft inRight
  have left := Finset.mem_Ico.mp inLeft
  have right := Finset.mem_Ico.mp inRight
  rcases apart with before | behind <;> omega

def covered (intervals : List Interval) : Finset Nat := intervals.foldr (fun interval rest => interval.addresses ∪ rest) ∅

variable {intervals : List Interval}

theorem mem_covered {address : Nat} :
    address ∈ covered intervals ↔ ∃ interval ∈ intervals, address ∈ interval.addresses := by
  induction intervals with
  | nil => simp [covered]
  | cons interval rest ih =>
    have split : address ∈ covered (interval :: rest) ↔ address ∈ interval.addresses ∨ address ∈ covered rest := Finset.mem_union
    rw [split, ih, List.exists_mem_cons_iff]

theorem card_covered (apart : intervals.Pairwise Apart) :
    (covered intervals).card = (intervals.map size).sum := by
  induction apart with
  | nil => rfl
  | @cons interval rest first later ih =>
    have beside : Disjoint interval.addresses (covered rest) := by
      rw [Finset.disjoint_left]
      intro address inside covers
      obtain ⟨other, member, there⟩ := mem_covered.mp covers
      exact Finset.disjoint_left.mp (first other member).disjoint inside there
    rw [List.map_cons, List.sum_cons, ← ih, ← card_addresses interval]
    exact Finset.card_union_of_disjoint beside

theorem sum_size_le {bound : Nat} (apart : intervals.Pairwise Apart)
    (inside : ∀ interval ∈ intervals, interval.stop ≤ bound) : (intervals.map size).sum ≤ bound := by
  rw [← card_covered apart, ← Finset.card_range bound]
  apply Finset.card_le_card
  intro address covers
  obtain ⟨interval, member, there⟩ := mem_covered.mp covers
  have below := Finset.mem_Ico.mp there
  have := inside interval member
  exact Finset.mem_range.mpr (by omega)

end Interval

end Apollo.Lib
