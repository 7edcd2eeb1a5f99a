import Apollo.Tools.KeyMapImage

/-!
# The ranges of a key map

The ranges that the compiler finds in the sorted table of the keys are its longest
runs of keys of one type with consecutive codes.
-/

set_option autoImplicit false

namespace Apollo.Tools

open Lib

def startCount (previous : Option Key) : List Key → Nat
  | [] => 0
  | key :: rest => (if startsRange previous key then 1 else 0) + startCount (some key) rest

namespace KeyRun

def single (key : Key) : KeyRun where
  keyType := key.type
  lower := key.keyCode
  keys := [key]
  nonempty := Nat.one_pos
  consecutive index found here := by
    cases index with
    | zero =>
      rw [Option.some.inj here]
      exact ⟨rfl, rfl⟩
    | succ index => simp at here

def extend (run : KeyRun) (key : Key) (code : key.keyCode = run.lower + run.keys.length) (type : key.type = run.keyType) : KeyRun where
  keyType := run.keyType
  lower := run.lower
  keys := run.keys ++ [key]
  nonempty := by
    rw [List.length_append]
    exact Nat.succ_pos _
  consecutive index found here := by
    by_cases inside : index < run.keys.length
    · rw [List.getElem?_append_left inside] at here
      exact run.consecutive index found here
    · rw [List.getElem?_append_right (Nat.le_of_not_lt inside), List.getElem?_singleton] at here
      split_ifs at here with last
      rw [← Option.some.inj here]
      exact ⟨by omega, type⟩

end KeyRun

section Ranges

theorem rangesLoop_spec (rest : List Key) (start : Nat) (run : KeyRun) (previous : Key)
    (code : previous.keyCode + 1 = run.lower + run.keys.length) (type : previous.type = run.keyType)
    (sorted : (previous :: rest).Pairwise fun left right => left.keyCode < right.keyCode) (upper : Nat) (ranges : List KeyRange) :
    ∃ runs : List KeyRun, runs.flatMap KeyRun.keys = run.keys ++ rest ∧ runs.length = 1 + startCount (some previous) rest ∧
      closeRange (start + run.keys.length + rest.length - 1)
          (rangesLoop (start + run.keys.length) (some previous) (⟨run.keyType, start, upper⟩ :: ranges) rest) =
        (rangesOf start runs).reverse ++ ranges := by
  induction rest generalizing start run previous upper ranges with
  | nil =>
    have count : start + run.keys.length + ([] : List Key).length - 1 = start + (run.keys.length - 1) := by
      have := run.nonempty
      rw [List.length_nil]
      omega
    refine ⟨[run], List.flatMap_singleton _ _ |>.trans (List.append_nil _).symm, rfl, ?_⟩
    rw [count]
    rfl
  | cons key rest ih =>
    obtain ⟨later, sorted'⟩ := List.pairwise_cons.mp sorted
    have above := later key List.mem_cons_self
    have positive := run.nonempty
    rw [startCount]
    by_cases starts : startsRange (some previous) key
    · -- the range ends in front of the key
      obtain ⟨runs, keys, length, closed⟩ := ih (start + run.keys.length) (.single key) key rfl rfl sorted' (start + run.keys.length)
        (⟨run.keyType, start, start + run.keys.length - 1⟩ :: ranges)
      refine ⟨run :: runs, ?_, ?_, ?_⟩
      · rw [List.flatMap_cons, keys]
        rfl
      · rw [List.length_cons, length, if_pos starts]
        omega
      · rw [rangesLoop, if_pos starts]
        have count : start + run.keys.length + (key :: rest).length - 1 =
            start + run.keys.length + (KeyRun.single key).keys.length + rest.length - 1 := by
          change _ = start + run.keys.length + 1 + rest.length - 1
          rw [List.length_cons]
          omega
        rw [count, rangesOf, List.reverse_cons, List.append_assoc]
        have upper : start + (run.keys.length - 1) = start + run.keys.length - 1 := by omega
        rw [upper]
        exact closed
    · -- the key belongs to the range
      have same : key.type = run.keyType ∧ key.keyCode = run.lower + run.keys.length := by
        unfold startsRange at starts
        simp only [Bool.or_eq_true, decide_eq_true_eq, bne_iff_ne, ne_eq, not_or, not_not] at starts
        exact ⟨starts.2.trans type, by omega⟩
      obtain ⟨runs, keys, length, closed⟩ := ih start (run.extend key same.2 same.1) key
        (by
          change _ = run.lower + (run.keys ++ [key]).length
          rw [List.length_append, List.length_singleton, same.2, Nat.add_assoc]) same.1 sorted' upper ranges
      have extended : (run.extend key same.2 same.1).keys.length = run.keys.length + 1 := List.length_append
      rw [extended] at closed
      refine ⟨runs, ?_, ?_, ?_⟩
      · rw [keys]
        exact List.append_assoc _ _ _
      · rw [length, if_neg starts, Nat.zero_add]
      · rw [rangesLoop, if_neg starts]
        have count : start + run.keys.length + (key :: rest).length - 1 = start + (run.keys.length + 1) + rest.length - 1 := by
          rw [List.length_cons]
          omega
        rw [count]
        exact closed

theorem ranges_spec {keys : List Key} (sorted : keys.Pairwise fun left right => left.keyCode < right.keyCode) :
    ∃ runs : List KeyRun, keys = runs.flatMap KeyRun.keys ∧ runs.length = startCount none keys ∧
      (closeRange (keys.length - 1) (rangesLoop 0 none [] keys)).reverse = rangesOf 0 runs := by
  cases keys with
  | nil => exact ⟨[], rfl, rfl, rfl⟩
  | cons key rest =>
    obtain ⟨runs, flat, length, closed⟩ := rangesLoop_spec rest 0 (.single key) key rfl rfl sorted 0 []
    refine ⟨runs, flat.symm, length, ?_⟩
    have count : 0 + (KeyRun.single key).keys.length + rest.length - 1 = (key :: rest).length - 1 := by
      change 0 + 1 + _ - 1 = _
      rw [List.length_cons]
      omega
    rw [count, List.append_nil] at closed
    exact congrArg List.reverse closed |>.trans (List.reverse_reverse _)

end Ranges

end Apollo.Tools
