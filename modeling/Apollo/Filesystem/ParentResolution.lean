import Apollo.Filesystem.PathResolution
import Mathlib.Data.List.TakeDrop
import Mathlib.Data.List.TakeWhile

/-!
# The two resolution modes

Parent mode hands out the last name of a path and the directory that it is to be
looked up in.  Target mode finds there what the path names, except that a
slash at the end of the path asks for a directory: then the name "." is looked
up as well, and the slashes count against the limit of the path length.

A path of nothing but slashes has no name.  The scanner makes up the name "." for
it, but what parent mode hands out is the last slash.
-/

set_option autoImplicit false

namespace Apollo.Filesystem

open Lib

/-! ## Paths with a name in them -/

theorem body_ne_nil_iff (path : List UInt8) : body path ≠ [] ↔ ∃ char ∈ path, char ≠ slash := by
  unfold body
  simp

variable {path : List UInt8}

theorem firstName_of_slashes (only : body path = []) : firstName path = [] := by
  unfold firstName
  rw [only]
  rfl

theorem afterName_of_slashes (only : body path = []) : afterName path = [] := by
  unfold afterName
  rw [only]
  rfl

theorem scannedLength_of_slashes (only : body path = []) :
    scannedLength path = path.length := by
  have total := length_afterName path
  rw [afterName_of_slashes only, List.length_nil] at total
  exact total

theorem path_split (path : List UInt8) :
    path.takeWhile (· == slash) ++ (firstName path ++ afterName path) = path := by
  have named : firstName path ++ afterName path = body path := List.takeWhile_append_dropWhile
  rw [named]
  exact List.takeWhile_append_dropWhile

theorem scannedComponent_of_name (named : body path ≠ []) :
    scannedComponent path = firstName path := if_neg (firstName_ne_nil named)

theorem characters_firstName {whole path : List UInt8} {pi : Nat} (rest : whole.drop pi = path) :
    (LastPathComponent.mk (pi + scannedLength path - (firstName path).length) (firstName path).length).characters
      whole = firstName path := by
  have stands : pi + scannedLength path - (firstName path).length =
      pi + (path.takeWhile (· == slash)).length := by
    unfold scannedLength
    omega
  have skips : path.drop (path.takeWhile (· == slash)).length = firstName path ++ afterName path := by
    have split := congrArg (List.drop (path.takeWhile (· == slash)).length) (path_split path)
    rw [List.drop_left] at split
    exact split.symm
  unfold LastPathComponent.characters
  rw [stands, ← List.drop_drop, rest, skips]
  exact List.take_left

theorem drop_scanned {whole : List UInt8} {pi : Nat} (rest : whole.drop pi = path) :
    whole.drop (pi + scannedLength path) = afterName path := by
  have split := congrArg (List.drop (scannedLength path)) (path_split path)
  rw [← List.append_assoc, List.drop_left' (by rw [List.length_append]; rfl)] at split
  rw [← List.drop_drop, rest]
  exact split.symm

theorem endsWith_slash (more : afterName path ≠ []) :
    path.getLast? = some slash ↔ (afterName path).getLast? = some slash := by
  have split := congrArg List.getLast? (path_split path)
  rw [← List.append_assoc, List.getLast?_append] at split
  rw [← split]
  cases last : (afterName path).getLast? with
  | none => exact absurd (List.getLast?_eq_none_iff.mp last) more
  | some char => simp

theorem last_of_ended (named : body path ≠ []) (ended : afterName path = []) :
    path.getLast? ≠ some slash := by
  intro last
  rw [← path_split path, ended, List.append_nil, List.getLast?_append] at last
  cases tail : (firstName path).getLast? with
  | none => exact firstName_ne_nil named (List.getLast?_eq_none_iff.mp tail)
  | some char =>
    rw [tail] at last
    rw [Option.some.inj last] at tail
    exact firstName_plain path (List.mem_of_getLast? tail)

theorem last_of_slashes (nonempty : path ≠ []) (only : body path = []) :
    path.getLast? = some slash := by
  have all := List.dropWhile_eq_nil_iff.mp only
  cases last : path.getLast? with
  | none => exact absurd (List.getLast?_eq_none_iff.mp last) nonempty
  | some char => rw [eq_of_beq (all char (List.mem_of_getLast? last))]

section Resolution

variable {node filesystem : Type} [DecidableEq node] (hierarchy : FileHierarchy node filesystem)
  (resolver : PathResolver node) (user : User)

/-! ## From the parent to the target -/

/-- What follows in target mode when `name`, the last name of a path, is looked up from
`iter` on. -/
def resolveLast (path : List UInt8) (iter : InodeIterator node filesystem) (name : PathComponent) :
    Code (UseCounts node) Errno (InodeIterator node filesystem) :=
  lookUp hierarchy resolver user iter name >>= fun found =>
    if path.getLast? ≠ some slash then pure found
    else if path.length ≤ kMaxPathLength then lookUp hierarchy resolver user found kPathComponentSelf
    else orDeinit found (Code.throw .ENAMETOOLONG)

theorem resolve_last {whole path : List UInt8} {pi fuel : Nat} (iter : InodeIterator node filesystem)
    (state : UseCounts node) (rest : whole.drop pi = path) (named : body path ≠ [])
    (only : body (afterName path) = []) (lasts : path.length < fuel + 1) (readable : Readable pi path) :
    resolve hierarchy resolver user .targetOnly (fuel + 1) pi path iter state =
      (resolveLast hierarchy resolver user whole iter (firstName path) >>= fun found =>
        pure (some ⟨found.inode, found.filesystem, whole.length, 0⟩)) state := by
  have nonempty : path ≠ [] := by
    rintro rfl
    exact named rfl
  have total := length_afterName path
  have reaches : pi + path.length = whole.length := by
    have length := congrArg List.length rest
    rw [List.length_drop] at length
    have := List.length_pos_iff.mpr nonempty
    omega
  have lastOf : path.getLast? = whole.getLast? := by
    have := List.length_pos_iff.mpr nonempty
    rw [← rest, List.getLast?_drop, if_neg (by omega)]
  have before : pi ≤ kMaxPathLength := Nat.le_trans (Nat.le_add_right _ _) readable.1
  rw [resolve_succ hierarchy resolver user _ fuel path iter before, if_pos readable,
    if_neg (by simp), scannedComponent_of_name named]
  unfold resolveLast
  rw [Code.bind_assoc, ← lastOf]
  refine congrFun (congrArg _ (funext fun found => ?_)) state
  by_cases ended : afterName path = []
  · have reached : pi + scannedLength path = whole.length := by
      rw [ended, List.length_nil] at total
      omega
    rw [if_pos ended, if_pos (last_of_ended named ended), reached]
    rfl
  · have slashes : path.getLast? = some slash := (endsWith_slash ended).mpr (last_of_slashes ended only)
    obtain ⟨rounds, rfl⟩ : ∃ rounds, fuel = rounds + 1 :=
      ⟨fuel - 1, by have := afterName_shorter nonempty; omega⟩
    have unnamed := firstName_of_slashes only
    rw [if_neg ended, if_neg (fun other => other slashes),
      resolve_succ hierarchy resolver user _ rounds (afterName path) found readable.1,
      show scannedComponent (afterName path) = kPathComponentSelf from if_pos unnamed,
      scannedLength_of_slashes only, afterName_of_slashes only]
    have end_ : pi + scannedLength path + (afterName path).length = whole.length := by omega
    by_cases inside : whole.length ≤ kMaxPathLength
    · have fits : Readable (pi + scannedLength path) (afterName path) := by
        refine ⟨?_, by rw [unnamed]; exact Nat.zero_le _⟩
        rw [scannedLength_of_slashes only, end_]
        exact inside
      rw [if_pos fits, if_neg (by simp), if_pos inside, end_]
      rfl
    · have passes : ¬Readable (pi + scannedLength path) (afterName path) := by
        rintro ⟨inside', _⟩
        rw [scannedLength_of_slashes only, end_] at inside'
        exact inside inside'
      rw [if_neg passes, if_neg inside, orDeinit_throw_bind]

/-- A parent and a name from which target mode goes on as parent mode leaves off. -/
def Agrees (whole : List UInt8) (result : PathResolverResult node filesystem) (after : UseCounts node)
    (target : Outcome (UseCounts node) Errno (Option (PathResolverResult node filesystem))) : Prop :=
  result.lastPathComponent.characters whole ≠ [] ∧ slash ∉ result.lastPathComponent.characters whole ∧
    target =
      (resolveLast hierarchy resolver user whole ⟨result.inode, result.filesystem⟩
        (result.lastPathComponent.characters whole) >>= fun found =>
          pure (some ⟨found.inode, found.filesystem, whole.length, 0⟩)) after

theorem resolve_agrees (fuel : Nat) {whole path : List UInt8} {pi : Nat} (iter : InodeIterator node filesystem)
    (state : UseCounts node) (rest : whole.drop pi = path) (named : body path ≠ []) (lasts : path.length < fuel)
    (before : pi ≤ kMaxPathLength) {result : PathResolverResult node filesystem} {after : UseCounts node}
    (returned : resolve hierarchy resolver user .parentOnly fuel pi path iter state = .ok (some result) after) :
    Agrees hierarchy resolver user whole result after
      (resolve hierarchy resolver user .targetOnly fuel pi path iter state) := by
  induction fuel generalizing path pi iter state with
  | zero => omega
  | succ fuel ih =>
    rw [resolve_succ hierarchy resolver user _ fuel path iter before] at returned
    by_cases readable : Readable pi path
    · rw [if_pos readable, scannedComponent_of_name named] at returned
      by_cases only : body (afterName path) = []
      · rw [if_pos ⟨rfl, only⟩] at returned
        obtain ⟨found, rfl⟩ := Outcome.ok.inj returned
        rw [← Option.some.inj found]
        have characters := @characters_firstName _ _ pi rest
        refine ⟨?_, ?_, ?_⟩
        · rw [characters]
          exact firstName_ne_nil named
        · rw [characters]
          exact firstName_plain path
        · rw [characters]
          exact resolve_last hierarchy resolver user iter state rest named only lasts readable
      · have more : afterName path ≠ [] := by
          intro ended
          rw [ended] at only
          exact only rfl
        have shorter : (afterName path).length < path.length :=
          afterName_shorter (by rintro rfl; exact named rfl)
        rw [if_neg (by simp [only])] at returned
        obtain ⟨next, middle, looksUp, goesOn⟩ := Code.bind_eq_ok.mp returned
        rw [if_neg more] at goesOn
        have agrees := ih next middle (drop_scanned rest) only (by omega) readable.1 goesOn
        rw [resolve_succ hierarchy resolver user _ fuel path iter before, if_pos readable,
          if_neg (by simp), scannedComponent_of_name named, Code.bind_of_ok looksUp, if_neg more]
        exact agrees
    · rw [if_neg readable] at returned
      exact absurd returned (orDeinit_throw_ne_ok iter .ENAMETOOLONG state after _)

/-- When parent mode returns the directory and the last name of a path that has a name in
it, target mode finds what this name stands for in the directory. -/
theorem parentOnly_targetOnly {fuel : Nat} {path : List UInt8} (named : ∃ char ∈ path, char ≠ slash)
    (lasts : path.length < fuel) {state after : UseCounts node} {result : PathResolverResult node filesystem}
    (returned : acquireNodeForPath hierarchy resolver user fuel .parentOnly path state = .ok (some result) after) :
    Agrees hierarchy resolver user path result after
      (acquireNodeForPath hierarchy resolver user fuel .targetOnly path state) := by
  have some := (body_ne_nil_iff path).mpr named
  have nonempty : path ≠ [] := by
    rintro rfl
    exact some rfl
  unfold acquireNodeForPath at returned ⊢
  rw [if_neg nonempty] at returned ⊢
  obtain ⟨iter, middle, begins, resolves⟩ := Code.bind_eq_ok.mp returned
  rw [Code.bind_of_ok begins]
  exact resolve_agrees hierarchy resolver user fuel iter middle List.drop_zero some lasts (Nat.zero_le _) resolves

end Resolution

/-- Parent mode and target mode on the path "a/b". -/
theorem smallTree_agrees :
    ∃ result after,
      acquireNodeForPath smallTree atRoot ⟨0, 0⟩ 4 .parentOnly [97, 47, 98] unused = .ok (some result) after ∧
      Agrees smallTree atRoot ⟨0, 0⟩ [97, 47, 98] result after
        (acquireNodeForPath smallTree atRoot ⟨0, 0⟩ 4 .targetOnly [97, 47, 98] unused) :=
  ⟨⟨.a, some (), ⟨2, 1⟩⟩, _, rfl,
    parentOnly_targetOnly smallTree atRoot ⟨0, 0⟩ ⟨97, by decide, by decide⟩ (by decide) rfl⟩

/-- The file "b" is found in the directory that parent mode returns for "a/b/", while the
path names no node in target mode. -/
theorem trailingSlash_disagrees :
    (acquireNodeForPath smallTree atRoot ⟨0, 0⟩ 5 .parentOnly [97, 47, 98, 47] unused).returned?.map Prod.fst =
      some (.ok (some ⟨.a, some (), ⟨2, 1⟩⟩)) ∧
    (LastPathComponent.mk 2 1).characters [97, 47, 98, 47] = [98] ∧
    ((acquireNodeForPath smallTree atRoot ⟨0, 0⟩ 5 .parentOnly [97, 47, 98, 47] >>= fun result =>
        result.elim Code.fault fun parent =>
          lookUp smallTree atRoot ⟨0, 0⟩ ⟨parent.inode, parent.filesystem⟩
            (parent.lastPathComponent.characters [97, 47, 98, 47])) unused).returned?.map Prod.fst =
      some (.ok ⟨.b, some ()⟩) ∧
    (acquireNodeForPath smallTree atRoot ⟨0, 0⟩ 5 .targetOnly [97, 47, 98, 47] unused).returned?.map Prod.fst =
      some (.error .ENOTDIR) :=
  ⟨rfl, rfl, rfl, rfl⟩

end Apollo.Filesystem
