import Apollo.Filesystem.PathComponents

/-!
# What the path resolver finds

In target mode the resolver looks up the components of the path, one after the
other, from the root directory or from the working directory on.  In parent
mode it stops before the last name, and hands it out as a part of the path.

A lookup of "." that succeeds leaves the iterator and the use counts as they
are.  It fails in a directory that the user may not search.
-/

set_option autoImplicit false

namespace Apollo.Filesystem

open Lib

section Resolution

variable {node filesystem : Type} [DecidableEq node] (hierarchy : FileHierarchy node filesystem)
  (resolver : PathResolver node) (user : User)

/-! ## One round of the loop -/

variable {α β : Type} {pi fuel : Nat} {path path' dir : List UInt8}

theorem orDeinit_throw_apply (iter : InodeIterator node filesystem) (error : Errno)
    (state : UseCounts node) :
    (orDeinit iter (Code.throw error) : Code (UseCounts node) Errno α) state =
      match iter.deinit state with
      | .ok _ after => .err error after
      | .err _ after => .err error after
      | .fault => .fault := by
  unfold orDeinit Code.onError Code.throw
  cases deinits : iter.deinit state <;> simp only [deinits]

theorem orDeinit_throw_bind (iter : InodeIterator node filesystem) (error : Errno)
    (next : α → Code (UseCounts node) Errno β) :
    orDeinit iter (Code.throw error) >>= next = orDeinit iter (Code.throw error) := by
  funext state
  rw [Code.bind_apply, orDeinit_throw_apply, orDeinit_throw_apply]
  cases iter.deinit state <;> rfl

theorem orDeinit_throw_ne_ok (iter : InodeIterator node filesystem) (error : Errno)
    (state after : UseCounts node) (value : α) :
    orDeinit iter (Code.throw error) state ≠ .ok value after := by
  rw [orDeinit_throw_apply]
  cases iter.deinit state <;> simp

/-- The scanner reads the next component without passing a limit. -/
def Readable (pi : Nat) (path : List UInt8) : Prop :=
  pi + scannedLength path ≤ kMaxPathLength ∧ (firstName path).length ≤ kMaxPathComponentLength

instance (pi : Nat) (path : List UInt8) : Decidable (Readable pi path) :=
  inferInstanceAs (Decidable (_ ∧ _))

theorem resolve_succ (mode : PathResolutionMode) (fuel : Nat) (path : List UInt8)
    (iter : InodeIterator node filesystem) (before : pi ≤ kMaxPathLength) :
    resolve hierarchy resolver user mode (fuel + 1) pi path iter =
      if Readable pi path then
        if mode = .parentOnly ∧ body (afterName path) = [] then
          pure (some ⟨iter.inode, iter.filesystem, pi + scannedLength path - (scannedComponent path).length,
            (scannedComponent path).length⟩)
        else
          lookUp hierarchy resolver user iter (scannedComponent path) >>= fun iter =>
            if afterName path = [] then pure (some ⟨iter.inode, iter.filesystem, pi + scannedLength path, 0⟩)
            else resolve hierarchy resolver user mode fuel (pi + scannedLength path) (afterName path) iter
      else orDeinit iter (Code.throw .ENAMETOOLONG) := by
  have scans : scanComponent pi path =
      if Readable pi path then .ok ⟨pi + scannedLength path, scannedComponent path, afterName path⟩
      else .error .ENAMETOOLONG := scanComponent_eq path pi before
  rw [resolve]
  unfold scanOrDeinit Scanned.isLast
  rw [scans]
  by_cases readable : Readable pi path
  · rw [if_pos readable, if_pos readable]
    simp only [beq_iff_eq]
    rfl
  · rw [if_neg readable, if_neg readable]
    exact orDeinit_throw_bind iter .ENAMETOOLONG _

/-! ## Target mode -/

theorem resolve_targetOnly (fuel : Nat) (pi : Nat) (iter : InodeIterator node filesystem)
    (nonempty : path ≠ []) (lasts : path.length < fuel) (inside : pi + path.length ≤ kMaxPathLength)
    (short : ∀ component ∈ components path, component.length ≤ kMaxPathComponentLength) :
    resolve hierarchy resolver user .targetOnly fuel pi path iter =
      (components path).foldlM (lookUp hierarchy resolver user) iter >>= fun iter =>
        pure (some ⟨iter.inode, iter.filesystem, pi + path.length, 0⟩) := by
  induction fuel generalizing path pi iter with
  | zero => omega
  | succ fuel ih =>
    have total := length_afterName path
    have shorter := afterName_shorter nonempty
    have split := components_eq nonempty
    have firstShort : (firstName path).length ≤ kMaxPathComponentLength := by
      by_cases unnamed : firstName path = []
      · rw [unnamed]
        exact Nat.zero_le _
      · have delivered : scannedComponent path = firstName path := if_neg unnamed
        rw [← delivered]
        exact short _ (split ▸ List.mem_cons_self)
    have readable : Readable pi path := ⟨by omega, firstShort⟩
    rw [resolve_succ hierarchy resolver user _ fuel path iter (by omega), if_pos readable,
      if_neg (by simp), split, List.foldlM_cons, Code.bind_assoc]
    congr 1
    funext next
    by_cases ended : afterName path = []
    · have reached : pi + scannedLength path = pi + path.length := by
        rw [ended, List.length_nil] at total
        omega
      rw [if_pos ended, if_pos ended, reached]
      rfl
    · rw [if_neg ended, if_neg ended, ih (pi + scannedLength path) next ended (by omega) (by omega)]
      · rw [Nat.add_assoc, total]
      · intro component member
        refine short component ?_
        rw [split, if_neg ended]
        exact List.mem_cons_of_mem _ member

/-- `InodeIterator_Init` for the directory that a path starts from. -/
def start (path : List UInt8) : Code (UseCounts node) Errno (InodeIterator node filesystem) :=
  InodeIterator.init hierarchy (resolver.startingDir path)

structure Within (path : List UInt8) : Prop where
  nonempty : path ≠ []
  length : path.length ≤ kMaxPathLength
  short : ∀ component ∈ components path, component.length ≤ kMaxPathComponentLength

theorem acquireNodeForPath_components (within : Within path)
    (lasts : path.length < fuel) :
    acquireNodeForPath hierarchy resolver user fuel .targetOnly path =
      start hierarchy resolver path >>= fun iter =>
        (components path).foldlM (lookUp hierarchy resolver user) iter >>= fun iter =>
          pure (some ⟨iter.inode, iter.filesystem, path.length, 0⟩) := by
  unfold acquireNodeForPath
  rw [if_neg within.nonempty]
  congr 1
  funext iter
  rw [resolve_targetOnly hierarchy resolver user fuel 0 iter within.nonempty lasts (by have := within.length; omega)
    within.short, Nat.zero_add]

def targetOfPath (fuel : Nat) (path : List UInt8) :
    Code (UseCounts node) Errno (Option (InodeIterator node filesystem)) :=
  acquireNodeForPath hierarchy resolver user fuel .targetOnly path >>= fun result =>
    pure (result.map fun found => ⟨found.inode, found.filesystem⟩)

theorem targetOfPath_components (within : Within path)
    (lasts : path.length < fuel) :
    targetOfPath hierarchy resolver user fuel path =
      start hierarchy resolver path >>= fun iter =>
        (components path).foldlM (lookUp hierarchy resolver user) iter >>= fun iter => pure (some iter) := by
  unfold targetOfPath
  rw [acquireNodeForPath_components hierarchy resolver user within lasts]
  simp only [Code.bind_assoc]
  rfl

/-! ## The loop ends -/

theorem resolve_ends (mode : PathResolutionMode) (fuel : Nat)
    (iter : InodeIterator node filesystem) (state after : UseCounts node) (nonempty : path ≠ [])
    (lasts : path.length < fuel) (before : pi ≤ kMaxPathLength) :
    resolve hierarchy resolver user mode fuel pi path iter state ≠ .ok none after := by
  induction fuel generalizing path pi iter state with
  | zero => omega
  | succ fuel ih =>
    have shorter := afterName_shorter nonempty
    intro returned
    rw [resolve_succ hierarchy resolver user mode fuel path iter before] at returned
    by_cases readable : Readable pi path
    · rw [if_pos readable] at returned
      by_cases parent : mode = .parentOnly ∧ body (afterName path) = []
      · rw [if_pos parent] at returned
        cases returned
      · rw [if_neg parent] at returned
        obtain ⟨next, middle, _, rest⟩ := Code.bind_eq_ok.mp returned
        by_cases ended : afterName path = []
        · rw [if_pos ended] at rest
          cases rest
        · rw [if_neg ended] at rest
          exact ih next middle ended (by omega) readable.1 rest
    · rw [if_neg readable] at returned
      exact orDeinit_throw_ne_ok iter .ENAMETOOLONG state after _ returned

theorem acquireNodeForPath_ends (mode : PathResolutionMode)
    (lasts : path.length < fuel) (state after : UseCounts node) :
    acquireNodeForPath hierarchy resolver user fuel mode path state ≠ .ok none after := by
  intro returned
  unfold acquireNodeForPath at returned
  by_cases empty : path = []
  · rw [if_pos empty] at returned
    cases returned
  · rw [if_neg empty] at returned
    obtain ⟨iter, middle, _, rest⟩ := Code.bind_eq_ok.mp returned
    exact resolve_ends hierarchy resolver user mode fuel iter middle after empty lasts (Nat.zero_le _) rest

/-! ## Extra slashes -/

theorem components_slashRun (count : Nat) (dir post : List UInt8) :
    components (dir ++ slash :: (List.replicate count slash ++ post)) = components (dir ++ slash :: post) := by
  have merged : components (slash :: (List.replicate count slash ++ post)) = components (slash :: post) := by
    induction count with
    | zero => rfl
    | succ count ih =>
      exact ih
  rw [components_append_slash, components_append_slash, merged]

omit [DecidableEq node] in
theorem startingDir_append (dir : List UInt8) (char : UInt8) (post post' : List UInt8) :
    resolver.startingDir (dir ++ char :: post) = resolver.startingDir (dir ++ char :: post') := by
  cases dir <;> rfl

/-- A path with fewer characters, but the same components, is within the limits as well. -/
theorem Within.of_components (within : Within path') (nonempty : path ≠ [])
    (shorter : path.length ≤ path'.length)
    (same : ∀ component ∈ components path, component ∈ components path') : Within path where
  nonempty := nonempty
  length := Nat.le_trans shorter within.length
  short component member := within.short component (same component member)

/-! ## The name "." -/

def Searchable (iter : InodeIterator node filesystem) : Prop :=
  hierarchy.isDirectory iter.inode = true ∧
    ∃ owner found, iter.filesystem = some owner ∧
      hierarchy.nodeForName owner iter.inode kPathComponentSelf user = .ok found

theorem lookUp_self (named : hierarchy.SelfNamed) {iter : InodeIterator node filesystem}
    (searchable : Searchable hierarchy user iter) (state : UseCounts node) :
    lookUp hierarchy resolver user iter kPathComponentSelf state = .ok iter state := by
  obtain ⟨directory, owner, found, mounted, finds⟩ := searchable
  have same : found = iter.inode := named.self owner iter.inode user found directory finds
  have acquires : acquireNodeForName hierarchy iter.filesystem iter.inode kPathComponentSelf user state =
      .ok iter.inode (Function.update state iter.inode (state iter.inode + 1)) := by
    unfold acquireNodeForName
    rw [mounted]
    simp only [finds, same]
    rfl
  have gives : relinquishRef iter.filesystem iter.inode
      (Function.update state iter.inode (state iter.inode + 1)) = .ok () state := by
    unfold relinquishRef
    rw [mounted, Code.bind_of_ok (Code.get_apply _), Function.update_self]
    simp [Code.modify]
  have walks : updateIterator hierarchy resolver user iter kPathComponentSelf state = .ok iter state := by
    unfold updateIterator updateIteratorWalkingDown
    rw [directory, if_neg (by decide), if_neg (by decide), Code.bind_of_ok acquires, if_pos rfl,
      Code.bind_of_ok gives]
    rfl
  unfold lookUp orDeinit Code.onError
  rw [walks]

/-- `path'` is `path` with the name "." put in behind the directory that its prefix `dir` names. -/
inductive SelfInserted (dir : List UInt8) : List UInt8 → List UInt8 → Prop
  | inside (post : List UInt8) : SelfInserted dir (dir ++ slash :: post) (dir ++ slash :: 46 :: slash :: post)
  | atEnd (nonempty : dir ≠ []) (plain : dir.getLast? ≠ some slash) : SelfInserted dir dir (dir ++ [slash, 46])

theorem SelfInserted.components (inserted : SelfInserted dir path path') :
    ∃ rest, components path = names dir ++ rest ∧ components path' = names dir ++ kPathComponentSelf :: rest := by
  cases inserted with
  | inside post =>
    refine ⟨Filesystem.components (slash :: post), components_append_slash dir post, ?_⟩
    rw [components_append_slash, components_slash (List.cons_ne_nil _ _),
      show (46 : UInt8) :: slash :: post = [46] ++ slash :: post from rfl, components_append_slash]
    rfl
  | atEnd nonempty plain =>
    refine ⟨[], ?_, ?_⟩
    · unfold Filesystem.components
      rw [if_neg plain]
    · rw [components_append_slash]
      rfl

omit [DecidableEq node] in
theorem SelfInserted.startingDir {dir path path' : List UInt8} (inserted : SelfInserted dir path path') :
    resolver.startingDir path' = resolver.startingDir path := by
  cases inserted with
  | inside post => exact startingDir_append resolver dir slash _ _
  | atEnd nonempty plain =>
    cases dir with
    | nil => exact absurd rfl nonempty
    | cons char rest => rfl

theorem SelfInserted.within (inserted : SelfInserted dir path path')
    (within : Within path') : Within path := by
  obtain ⟨rest, before, after⟩ := inserted.components
  refine within.of_components ?_ ?_ ?_
  · cases inserted with
    | inside post => exact List.append_ne_nil_of_right_ne_nil _ (List.cons_ne_nil _ _)
    | atEnd nonempty plain => exact nonempty
  · cases inserted <;> simp
  · rw [before, after]
    intro component member
    simp only [List.mem_append, List.mem_cons] at member ⊢
    tauto

omit [DecidableEq node] in
theorem foldlM_append (next : α → β → Code (UseCounts node) Errno α) (before after : List β)
    (first : α) : (before ++ after).foldlM next first = before.foldlM next first >>= (after.foldlM next ·) := by
  induction before generalizing first with
  | nil => rfl
  | cons head rest ih =>
    rw [List.cons_append, List.foldlM_cons, List.foldlM_cons, Code.bind_assoc]
    congr 1
    funext middle
    exact ih middle

/-- Wherever the names up to `dir` lead, one more "." changes nothing. -/
theorem SelfInserted.foldlM (named : hierarchy.SelfNamed)
    (inserted : SelfInserted dir path path') (iter : InodeIterator node filesystem) (state : UseCounts node)
    (searchable : ∀ reached after,
      (names dir).foldlM (lookUp hierarchy resolver user) iter state = .ok reached after →
        Searchable hierarchy user reached) :
    (Filesystem.components path').foldlM (lookUp hierarchy resolver user) iter state =
      (Filesystem.components path).foldlM (lookUp hierarchy resolver user) iter state := by
  obtain ⟨rest, before, after⟩ := inserted.components
  rw [before, after, foldlM_append, foldlM_append]
  cases walk : (names dir).foldlM (lookUp hierarchy resolver user) iter state with
  | ok reached middle =>
    rw [Code.bind_of_ok walk, Code.bind_of_ok walk, List.foldlM_cons]
    exact Code.bind_of_ok (lookUp_self hierarchy resolver user named (searchable reached middle walk) middle) _
  | err reason middle => rw [Code.bind_of_err walk, Code.bind_of_err walk]
  | fault => rw [Code.bind_of_fault walk, Code.bind_of_fault walk]

theorem targetOfPath_slashRun (count : Nat) (dir post : List UInt8)
    (within : Within (dir ++ slash :: (List.replicate count slash ++ post)))
    (lasts : (dir ++ slash :: (List.replicate count slash ++ post)).length < fuel) :
    targetOfPath hierarchy resolver user fuel (dir ++ slash :: (List.replicate count slash ++ post)) =
      targetOfPath hierarchy resolver user fuel (dir ++ slash :: post) := by
  have shorter : (dir ++ slash :: post).length ≤ (dir ++ slash :: (List.replicate count slash ++ post)).length := by
    simp
  have single : Within (dir ++ slash :: post) :=
    within.of_components (List.append_ne_nil_of_right_ne_nil _ (List.cons_ne_nil _ _)) shorter
      (by rw [components_slashRun]; exact fun _ member => member)
  rw [targetOfPath_components hierarchy resolver user within lasts,
    targetOfPath_components hierarchy resolver user single (by omega), components_slashRun]
  unfold start
  rw [startingDir_append resolver dir slash _ post]

theorem targetOfPath_selfInserted (named : hierarchy.SelfNamed)
    (inserted : SelfInserted dir path path') (within : Within path') (lasts : path'.length < fuel)
    (state : UseCounts node)
    (searchable : ∀ reached after,
      (start hierarchy resolver path >>= (names dir).foldlM (lookUp hierarchy resolver user)) state =
        .ok reached after → Searchable hierarchy user reached) :
    targetOfPath hierarchy resolver user fuel path' state = targetOfPath hierarchy resolver user fuel path state := by
  have shorter : path.length ≤ path'.length := by cases inserted <;> simp
  rw [targetOfPath_components hierarchy resolver user within lasts,
    targetOfPath_components hierarchy resolver user (inserted.within within) (by omega)]
  have starts : @start _ filesystem _ hierarchy resolver path' = start hierarchy resolver path := by
    unfold start
    rw [inserted.startingDir resolver]
  rw [starts]
  cases begins : start hierarchy resolver path state with
  | ok iter middle =>
    rw [Code.bind_of_ok begins, Code.bind_of_ok begins, Code.bind_apply, Code.bind_apply,
      inserted.foldlM hierarchy resolver user named iter middle]
    intro reached after walk
    exact searchable reached after ((Code.bind_of_ok begins _).trans walk)
  | err reason middle => rw [Code.bind_of_err begins, Code.bind_of_err begins]
  | fault => rw [Code.bind_of_fault begins, Code.bind_of_fault begins]

/-- What the resolver does with a path: it looks up its components, neither slashes beside
a slash nor names "." behind a directory that can be searched matter, and it ends. -/
theorem acquireNodeForPath_resolves :
    (∀ path fuel, Within path → path.length < fuel →
      acquireNodeForPath hierarchy resolver user fuel .targetOnly path =
        start hierarchy resolver path >>= fun iter =>
          (components path).foldlM (lookUp hierarchy resolver user) iter >>= fun iter =>
            pure (some ⟨iter.inode, iter.filesystem, path.length, 0⟩)) ∧
    (∀ count dir post fuel, Within (dir ++ slash :: (List.replicate count slash ++ post)) →
      (dir ++ slash :: (List.replicate count slash ++ post)).length < fuel →
        targetOfPath hierarchy resolver user fuel (dir ++ slash :: (List.replicate count slash ++ post)) =
          targetOfPath hierarchy resolver user fuel (dir ++ slash :: post)) ∧
    (hierarchy.SelfNamed → ∀ dir path path' fuel state, SelfInserted dir path path' → Within path' →
      path'.length < fuel →
      (∀ reached after,
        (start hierarchy resolver path >>= (names dir).foldlM (lookUp hierarchy resolver user)) state =
          .ok reached after → Searchable hierarchy user reached) →
        targetOfPath hierarchy resolver user fuel path' state =
          targetOfPath hierarchy resolver user fuel path state) ∧
    ∀ mode path fuel state after, path.length < fuel →
      acquireNodeForPath hierarchy resolver user fuel mode path state ≠ .ok none after :=
  ⟨fun _ _ within lasts => acquireNodeForPath_components hierarchy resolver user within lasts,
    fun count dir post _ within lasts => targetOfPath_slashRun hierarchy resolver user count dir post within lasts,
    fun named _ _ _ _ state inserted within lasts searchable =>
      targetOfPath_selfInserted hierarchy resolver user named inserted within lasts state searchable,
    fun mode _ _ state after lasts => acquireNodeForPath_ends hierarchy resolver user mode lasts state after⟩

end Resolution

/-! ## Two hierarchies -/

/-- A root directory with the directory "a" in it, which holds the file "b". -/
inductive TreeNode where
  | root
  | a
  | b
  deriving DecidableEq

def smallTree : FileHierarchy TreeNode Unit where
  isDirectory entry := entry != .b
  fsid _ := 1
  inid
    | .root => 1
    | .a => 2
    | .b => 3
  copyFilesystem _ := some ()
  nodeForName _ directory name _ :=
    if name = kPathComponentSelf then .ok directory
    else if name = kPathComponentParent then .ok .root
    else if directory = .root ∧ name = [97] then .ok .a
    else if directory = .a ∧ name = [98] then .ok .b
    else .error .ENOENT
  rootNode _ := .ok .root
  mountpointOf _ := some none
  mountedAt _ := none

theorem smallTree_selfNamed : smallTree.SelfNamed where
  self owner directory user found _ finds := by
    exact (Except.ok.inj finds).symm

def atRoot : PathResolver TreeNode := ⟨.root, .root⟩

def unused {node : Type} : UseCounts node := fun _ => 0

theorem smallTree_resolves :
    acquireNodeForPath smallTree atRoot ⟨0, 0⟩ 4 .targetOnly [97, 47, 98] =
      (start smallTree atRoot [97, 47, 98] >>= fun iter =>
        ([[97], [98]] : List PathComponent).foldlM (lookUp smallTree atRoot ⟨0, 0⟩) iter >>= fun iter =>
          pure (some ⟨iter.inode, iter.filesystem, 3, 0⟩)) ∧
    targetOfPath smallTree atRoot ⟨0, 0⟩ 6 [97, 47, 47, 47, 98] =
      targetOfPath smallTree atRoot ⟨0, 0⟩ 6 [97, 47, 98] ∧
    targetOfPath smallTree atRoot ⟨0, 0⟩ 6 [97, 47, 46, 47, 98] unused =
      targetOfPath smallTree atRoot ⟨0, 0⟩ 6 [97, 47, 98] unused ∧
    ∀ after, acquireNodeForPath smallTree atRoot ⟨0, 0⟩ 4 .parentOnly [97, 47, 98] unused ≠ .ok none after := by
  have resolves := acquireNodeForPath_resolves smallTree atRoot ⟨0, 0⟩
  refine ⟨?_, ?_, ?_, ?_⟩
  · exact resolves.1 [97, 47, 98] 4 ⟨by decide, by decide, by decide⟩ (by decide)
  · exact resolves.2.1 2 [97] [98] 6 ⟨by decide, by decide, by decide⟩ (by decide)
  · refine resolves.2.2.1 smallTree_selfNamed [97] _ _ 6 unused (.inside [98])
      ⟨by decide, by decide, by decide⟩ (by decide) ?_
    intro reached after walk
    have arrives : reached = ⟨.a, some ()⟩ := (Outcome.ok.inj walk).1.symm
    rw [arrives]
    exact ⟨rfl, (), .a, rfl, rfl⟩
  · exact fun after => resolves.2.2.2 .parentOnly [97, 47, 98] 4 unused after (by decide)

def lockedRoot : FileHierarchy Unit Unit where
  isDirectory _ := true
  fsid _ := 1
  inid _ := 1
  copyFilesystem _ := some ()
  nodeForName _ _ _ _ := .error .EACCESS
  rootNode _ := .ok ()
  mountpointOf _ := some none
  mountedAt _ := none

/-- The empty path has no component, but names no node; and "/./.." fails where "/.." does not. -/
theorem lockedRoot_refuses :
    (targetOfPath lockedRoot ⟨(), ()⟩ ⟨0, 0⟩ 1 [] unused).returned?.map Prod.fst = some (.error .ENOENT) ∧
    ((start lockedRoot ⟨(), ()⟩ [] >>=
        (components []).foldlM (lookUp lockedRoot ⟨(), ()⟩ ⟨0, 0⟩)) unused).returned?.map Prod.fst =
      some (.ok ⟨(), some ()⟩) ∧
    (targetOfPath lockedRoot ⟨(), ()⟩ ⟨0, 0⟩ 6 [47, 46, 46] unused).returned?.map Prod.fst =
      some (.ok (some ⟨(), some ()⟩)) ∧
    (targetOfPath lockedRoot ⟨(), ()⟩ ⟨0, 0⟩ 6 [47, 46, 47, 46, 46] unused).returned?.map Prod.fst =
      some (.error .EACCESS) :=
  ⟨rfl, rfl, rfl, rfl⟩

end Apollo.Filesystem
