import Apollo.Filesystem.PathResolver

/-!
# The components of a path

What the scanner of the path resolver reads is the path split at its slashes.
`components` says which names these are, and the loop of the resolver looks
them up one after the other.
-/

set_option autoImplicit false

namespace Apollo.Filesystem

open Lib

/-! ## Splitting a path -/

def names (path : List UInt8) : List PathComponent := (path.splitOn slash).filter (· ≠ [])

def components (path : List UInt8) : List PathComponent :=
  names path ++ if path.getLast? = some slash then [kPathComponentSelf] else []

theorem names_append_slash (dir post : List UInt8) :
    names (dir ++ slash :: post) = names dir ++ names post := by
  unfold names
  rw [List.splitOn_append_cons_self, List.filter_append]

theorem names_slash (post : List UInt8) : names (slash :: post) = names post :=
  names_append_slash [] post

theorem names_single {name : PathComponent} (plain : slash ∉ name) (nonempty : name ≠ []) :
    names name = [name] := by
  unfold names
  rw [List.splitOn_eq_singleton plain]
  simp [nonempty]

theorem components_append_slash (dir post : List UInt8) :
    components (dir ++ slash :: post) = names dir ++ components (slash :: post) := by
  unfold components
  rw [names_append_slash, names_slash, List.append_assoc]
  simp [List.getLast?_append, List.getLast?_cons]

theorem components_slash {post : List UInt8} (nonempty : post ≠ []) :
    components (slash :: post) = components post := by
  unfold components
  rw [names_slash]
  cases post with
  | nil => exact absurd rfl nonempty
  | cons char rest => simp [List.getLast?_cons]

/-! ## The scanner -/

theorem skipSlashes_eq (path : List UInt8) (pi : Nat) (inside : pi ≤ kMaxPathLength) :
    skipSlashes pi path =
      if pi + (path.takeWhile (· == slash)).length ≤ kMaxPathLength then
        .ok (pi + (path.takeWhile (· == slash)).length, path.dropWhile (· == slash))
      else .error .ENAMETOOLONG := by
  induction path generalizing pi with
  | nil => simp [skipSlashes, inside]
  | cons char rest ih =>
    unfold skipSlashes
    by_cases isSlash : char = slash
    · rw [if_pos isSlash, List.takeWhile_cons_of_pos (by simp [isSlash]),
        List.dropWhile_cons_of_pos (by simp [isSlash]), List.length_cons]
      by_cases full : kMaxPathLength ≤ pi
      · rw [if_pos full, if_neg (by omega)]
      · rw [if_neg full, ih (pi + 1) (by omega)]
        have moved : pi + 1 + (rest.takeWhile (· == slash)).length =
            pi + ((rest.takeWhile (· == slash)).length + 1) := by omega
        rw [moved]
    · rw [if_neg isSlash, List.takeWhile_cons_of_neg (by simp [isSlash]),
        List.dropWhile_cons_of_neg (by simp [isSlash]), List.length_nil, Nat.add_zero, if_pos inside]

theorem pickComponent_eq (path : List UInt8) (pi : Nat) (name : PathComponent) (inside : pi ≤ kMaxPathLength)
    (fits : name.length ≤ kMaxPathComponentLength) :
    pickComponent pi name path =
      if pi + (path.takeWhile (· != slash)).length ≤ kMaxPathLength ∧
          name.length + (path.takeWhile (· != slash)).length ≤ kMaxPathComponentLength then
        .ok (pi + (path.takeWhile (· != slash)).length, name ++ path.takeWhile (· != slash),
          path.dropWhile (· != slash))
      else .error .ENAMETOOLONG := by
  induction path generalizing pi name with
  | nil => simp [pickComponent, inside, fits]
  | cons char rest ih =>
    unfold pickComponent
    by_cases isSlash : char = slash
    · rw [if_neg (by simp [isSlash]), List.takeWhile_cons_of_neg (by simp [isSlash]),
        List.dropWhile_cons_of_neg (by simp [isSlash]), List.length_nil, Nat.add_zero, Nat.add_zero,
        if_pos ⟨inside, fits⟩, List.append_nil]
    · rw [if_pos isSlash, List.takeWhile_cons_of_pos (by simp [isSlash]),
        List.dropWhile_cons_of_pos (by simp [isSlash]), List.length_cons]
      by_cases full : kMaxPathLength ≤ pi ∨ kMaxPathComponentLength ≤ name.length
      · rw [if_pos full, if_neg (by omega)]
      · rw [if_neg full, ih (pi + 1) (name ++ [char]) (by omega) (by simp; omega)]
        have moved : pi + 1 + (rest.takeWhile (· != slash)).length =
            pi + ((rest.takeWhile (· != slash)).length + 1) := by omega
        have longer : (name ++ [char]).length + (rest.takeWhile (· != slash)).length =
            name.length + ((rest.takeWhile (· != slash)).length + 1) := by
          rw [List.length_append, List.length_singleton]
          omega
        rw [moved, longer, List.append_assoc, List.singleton_append]

def body (path : List UInt8) : List UInt8 := path.dropWhile (· == slash)

def firstName (path : List UInt8) : PathComponent := (body path).takeWhile (· != slash)

def afterName (path : List UInt8) : List UInt8 := (body path).dropWhile (· != slash)

/-- The number of characters before `afterName`. -/
def scannedLength (path : List UInt8) : Nat := (path.takeWhile (· == slash)).length + (firstName path).length

theorem firstName_plain (path : List UInt8) : slash ∉ firstName path := by
  intro isSlash
  have other := List.all_eq_true.mp List.all_takeWhile slash isSlash
  simp at other

theorem length_afterName (path : List UInt8) : scannedLength path + (afterName path).length = path.length := by
  have front := congrArg List.length (path.takeWhile_append_dropWhile (p := (· == slash)))
  have back := congrArg List.length ((body path).takeWhile_append_dropWhile (p := (· != slash)))
  rw [List.length_append] at front back
  unfold scannedLength firstName afterName
  unfold body at *
  omega

variable {path : List UInt8}

theorem afterName_shorter (nonempty : path ≠ []) : (afterName path).length < path.length := by
  have total := length_afterName path
  cases path with
  | nil => exact absurd rfl nonempty
  | cons char rest =>
    by_cases isSlash : char = slash
    · unfold scannedLength at total
      rw [List.takeWhile_cons_of_pos (by simp [isSlash]), List.length_cons] at total
      omega
    · have named : firstName (char :: rest) = char :: rest.takeWhile (· != slash) := by
        unfold firstName body
        rw [List.dropWhile_cons_of_neg (by simp [isSlash]), List.takeWhile_cons_of_pos (by simp [isSlash])]
      unfold scannedLength at total
      rw [named, List.length_cons] at total
      omega

def scannedComponent (path : List UInt8) : PathComponent :=
  if firstName path = [] then kPathComponentSelf else firstName path

theorem scanComponent_eq (path : List UInt8) (pi : Nat) (inside : pi ≤ kMaxPathLength) :
    scanComponent pi path =
      if pi + scannedLength path ≤ kMaxPathLength ∧ (firstName path).length ≤ kMaxPathComponentLength then
        .ok ⟨pi + scannedLength path, scannedComponent path, afterName path⟩
      else .error .ENAMETOOLONG := by
  unfold scanComponent
  rw [skipSlashes_eq path pi inside]
  by_cases skipped : pi + (path.takeWhile (· == slash)).length ≤ kMaxPathLength
  · have picks : pickComponent (pi + (path.takeWhile (· == slash)).length) [] (body path) =
        if pi + scannedLength path ≤ kMaxPathLength ∧ (firstName path).length ≤ kMaxPathComponentLength then
          .ok (pi + scannedLength path, firstName path, afterName path)
        else .error .ENAMETOOLONG := by
      rw [pickComponent_eq _ _ _ skipped (by decide), Nat.add_assoc, List.length_nil, Nat.zero_add,
        List.nil_append]
      rfl
    rw [if_pos skipped]
    show (pickComponent _ [] (body path) >>= _) = _
    rw [picks]
    by_cases picked : pi + scannedLength path ≤ kMaxPathLength ∧
        (firstName path).length ≤ kMaxPathComponentLength
    · rw [if_pos picked, if_pos picked]
      rfl
    · rw [if_neg picked, if_neg picked]
      rfl
  · rw [if_neg skipped, if_neg]
    · rfl
    · unfold scannedLength
      omega

/-! ## The components, one after the other -/

theorem components_body (path : List UInt8) (nonempty : body path ≠ []) : components path = components (body path) := by
  induction path with
  | nil => exact absurd rfl nonempty
  | cons char rest ih =>
    unfold body at nonempty ⊢
    by_cases isSlash : char = slash
    · rw [List.dropWhile_cons_of_pos (by simp [isSlash])] at nonempty ⊢
      have more : rest ≠ [] := by
        rintro rfl
        exact nonempty rfl
      rw [isSlash, components_slash more]
      exact ih nonempty
    · rw [List.dropWhile_cons_of_neg (by simp [isSlash])]

theorem components_slashes (nonempty : path ≠ []) (only : body path = []) :
    components path = [kPathComponentSelf] := by
  induction path with
  | nil => exact absurd rfl nonempty
  | cons char rest ih =>
    unfold body at only
    by_cases isSlash : char = slash
    · rw [List.dropWhile_cons_of_pos (by simp [isSlash])] at only
      rw [isSlash]
      by_cases more : rest = []
      · rw [more]
        rfl
      · rw [components_slash more]
        exact ih more only
    · rw [List.dropWhile_cons_of_neg (by simp [isSlash])] at only
      exact absurd only (by simp)

theorem firstName_ne_nil (nonempty : body path ≠ []) : firstName path ≠ [] := by
  have head := List.head?_dropWhile_not (· == slash) path
  unfold firstName
  cases split : body path with
  | nil => exact absurd split nonempty
  | cons char rest =>
    rw [show path.dropWhile (· == slash) = char :: rest from split] at head
    have plain : (char == slash) = false := head
    rw [List.takeWhile_cons_of_pos (by simpa using plain)]
    exact List.cons_ne_nil _ _

/-- The components of a path are the one that the scanner delivers, and those of the rest. -/
theorem components_eq (nonempty : path ≠ []) :
    components path =
      scannedComponent path :: if afterName path = [] then [] else components (afterName path) := by
  by_cases named : body path = []
  · have unnamed : firstName path = [] := by
      unfold firstName
      rw [named]
      rfl
    have ended : afterName path = [] := by
      unfold afterName
      rw [named]
      rfl
    rw [components_slashes nonempty named, if_pos ended]
    unfold scannedComponent
    rw [if_pos unnamed]
  · have found := firstName_ne_nil named
    have joined : body path = firstName path ++ afterName path :=
      (List.takeWhile_append_dropWhile (p := (· != slash))).symm
    unfold scannedComponent
    rw [if_neg found, components_body path named]
    by_cases ended : afterName path = []
    · rw [if_pos ended, joined, ended, List.append_nil]
      unfold components
      rw [names_single (firstName_plain path) found, if_neg, List.append_nil]
      intro last
      exact firstName_plain path (List.mem_of_getLast? last)
    · obtain ⟨rest, starts⟩ : ∃ rest, afterName path = slash :: rest := by
        have head := List.head?_dropWhile_not (· != slash) (body path)
        cases split : afterName path with
        | nil => exact absurd split ended
        | cons char rest =>
          rw [show (body path).dropWhile (· != slash) = char :: rest from split] at head
          have isSlash : (char != slash) = false := head
          exact ⟨rest, by rw [show char = slash by simpa using isSlash]⟩
      rw [joined, starts, components_append_slash, names_single (firstName_plain path) found]
      rfl

end Apollo.Filesystem
