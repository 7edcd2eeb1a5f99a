import Apollo.Filesystem.Inode

/-!
# The path resolver

`PathResolver_AcquireNodeForPath` and the functions below it, over any set of
mounted filesystems.  A filesystem is an abstract base class here as in
`Filesystem.h`: what its methods find is a parameter, and so is the table of
the mounted filesystems.  No call of the resolver changes a name or a mount, so
that the only state is the use count of every in-core inode; the reference
counts of the filesystem objects are left out.

A path is the list of the characters before its NUL.  A pointer into the path is
the index `pi` together with the characters from there on.
-/

set_option autoImplicit false

namespace Apollo.Filesystem

open Lib

abbrev PathComponent : Type := List UInt8

def slash : UInt8 := 47

def kPathComponentSelf : PathComponent := [46]
def kPathComponentParent : PathComponent := [46, 46]

def kMaxPathLength : Nat := 4095
def kMaxPathComponentLength : Nat := 256

/-- What the filesystems and the filesystem manager answer.  `copyFilesystem` is `none`
for an inode whose filesystem is no longer mounted, and `mountpointOf` is `some none` for
the filesystem at the root of the hierarchy. -/
structure FileHierarchy (node filesystem : Type) where
  isDirectory : node → Bool
  fsid : node → Nat
  inid : node → Nat
  copyFilesystem : node → Option filesystem
  nodeForName : filesystem → node → PathComponent → User → Except Errno node
  rootNode : filesystem → Except Errno node
  mountpointOf : filesystem → Option (Option (node × filesystem))
  mountedAt : node → Option filesystem

/-- The contract of `acquireNodeForName` for the name ".": the node itself. -/
structure FileHierarchy.SelfNamed {node filesystem : Type} (hierarchy : FileHierarchy node filesystem) :
    Prop where
  self : ∀ owner directory user found, hierarchy.isDirectory directory →
    hierarchy.nodeForName owner directory kPathComponentSelf user = .ok found → found = directory

def FileHierarchy.equals {node filesystem : Type} (hierarchy : FileHierarchy node filesystem)
    (self other : node) : Bool :=
  hierarchy.fsid self == hierarchy.fsid other && hierarchy.inid self == hierarchy.inid other

structure PathResolver (node : Type) where
  rootDirectory : node
  workingDirectory : node

inductive PathResolutionMode where
  | targetOnly
  | parentOnly
  deriving DecidableEq

structure InodeIterator (node filesystem : Type) where
  inode : node
  filesystem : Option filesystem
  deriving DecidableEq

/-- `lastPathComponent` of the result: the index of its first character in the path. -/
structure LastPathComponent where
  name : Nat
  count : Nat
  deriving DecidableEq

structure PathResolverResult (node filesystem : Type) where
  inode : node
  filesystem : Option filesystem
  lastPathComponent : LastPathComponent
  deriving DecidableEq

/-- The characters of a component that was returned as a part of `path`. -/
def LastPathComponent.characters (component : LastPathComponent) (path : List UInt8) : PathComponent :=
  (path.drop component.name).take component.count

abbrev UseCounts (node : Type) : Type := node → Nat

section Nodes

variable {node filesystem : Type} [DecidableEq node]

/-! ## References to inodes -/

def reacquireNode (ref : node) : Code (UseCounts node) Errno Unit :=
  Code.modify fun counts => Function.update counts ref (counts ref + 1)

def relinquishRef (owner : Option filesystem) (ref : node) : Code (UseCounts node) Errno Unit := do
  let counts ← Code.get
  match owner with
  | none => Code.fault
  | some _ =>
    if counts ref = 0 then Code.fault
    else Code.modify fun counts => Function.update counts ref (counts ref - 1)

variable (hierarchy : FileHierarchy node filesystem)

def inodeRelinquish (ref : node) : Code (UseCounts node) Errno Unit :=
  relinquishRef (hierarchy.copyFilesystem ref) ref

def acquireNodeForName (owner : Option filesystem) (parent : node) (component : PathComponent) (user : User) :
    Code (UseCounts node) Errno node :=
  match owner with
  | none => Code.fault
  | some owner =>
    match hierarchy.nodeForName owner parent component user with
    | .error error => Code.throw error
    | .ok found => do
        reacquireNode found
        pure found

def acquireRootNode (owner : filesystem) : Code (UseCounts node) Errno node :=
  match hierarchy.rootNode owner with
  | .error error => Code.throw error
  | .ok root => do
      reacquireNode root
      pure root

def copyMountpointOfFilesystem (owner : filesystem) :
    Code (UseCounts node) Errno (Option (node × filesystem)) :=
  match hierarchy.mountpointOf owner with
  | none => Code.throw .ENOENT
  | some none => pure none
  | some (some mounting) => do
      reacquireNode mounting.1
      pure (some mounting)

/-! ## The iterator -/

def InodeIterator.init (firstNode : node) : Code (UseCounts node) Errno (InodeIterator node filesystem) :=
  match hierarchy.copyFilesystem firstNode with
  | none => Code.throw .ENOENT
  | some owner => do
      reacquireNode firstNode
      pure ⟨firstNode, some owner⟩

def InodeIterator.deinit (iter : InodeIterator node filesystem) : Code (UseCounts node) Errno Unit :=
  relinquishRef iter.filesystem iter.inode

def InodeIterator.updateWithNodeOnly (iter : InodeIterator node filesystem) (newNode : node) :
    Code (UseCounts node) Errno (InodeIterator node filesystem) := do
  relinquishRef iter.filesystem iter.inode
  pure { iter with inode := newNode }

def InodeIterator.update (iter : InodeIterator node filesystem) (newNode : node) :
    Code (UseCounts node) Errno (InodeIterator node filesystem) := do
  relinquishRef iter.filesystem iter.inode
  pure ⟨newNode, hierarchy.copyFilesystem newNode⟩

variable (resolver : PathResolver node) (user : User)

/-! ## One component -/

/-- `PathResolver_UpdateIteratorWalkingUp`.  The reference to the parent node of the root
of a mounted filesystem is not given back on the way out through the mounting directory. -/
def updateIteratorWalkingUp (iter : InodeIterator node filesystem) :
    Code (UseCounts node) Errno (InodeIterator node filesystem) :=
  if hierarchy.equals iter.inode resolver.rootDirectory then pure iter
  else do
    let parentNode ← acquireNodeForName hierarchy iter.filesystem iter.inode kPathComponentParent user
    if !hierarchy.equals iter.inode parentNode then iter.updateWithNodeOnly parentNode
    else
      match iter.filesystem with
      | none => Code.fault
      | some owner =>
        match ← (copyMountpointOfFilesystem hierarchy owner).onError (inodeRelinquish hierarchy parentNode) with
        -- The name is looked up in a filesystem that is NULL.
        | none => Code.fault
        | some mounting =>
          let parentOfMountingDir ←
            (acquireNodeForName hierarchy (some mounting.2) mounting.1 kPathComponentParent user).onError do
              inodeRelinquish hierarchy parentNode
              relinquishRef (some mounting.2) mounting.1
          let iter ← iter.update hierarchy parentOfMountingDir
          relinquishRef (some mounting.2) mounting.1
          pure iter

/-- `PathResolver_UpdateIteratorWalkingDown`.  A child that is a mountpoint stays acquired
when the root node of the mounted filesystem cannot be acquired. -/
def updateIteratorWalkingDown (iter : InodeIterator node filesystem) (component : PathComponent) :
    Code (UseCounts node) Errno (InodeIterator node filesystem) := do
  let childNode ← acquireNodeForName hierarchy iter.filesystem iter.inode component user
  if iter.inode = childNode then do
    relinquishRef iter.filesystem childNode
    pure iter
  else
    match hierarchy.mountedAt childNode with
    | none => iter.updateWithNodeOnly childNode
    | some mountedFileSys => do
        let mountedFileSysRootNode ← acquireRootNode hierarchy mountedFileSys
        relinquishRef iter.filesystem childNode
        iter.update hierarchy mountedFileSysRootNode

def updateIterator (iter : InodeIterator node filesystem) (component : PathComponent) :
    Code (UseCounts node) Errno (InodeIterator node filesystem) :=
  if !hierarchy.isDirectory iter.inode then Code.throw .ENOTDIR
  else if component = kPathComponentParent then updateIteratorWalkingUp hierarchy resolver user iter
  else updateIteratorWalkingDown hierarchy user iter component

/-! ## The scanner -/

def skipSlashes (pi : Nat) : List UInt8 → Except Errno (Nat × List UInt8)
  | [] => .ok (pi, [])
  | char :: rest =>
    if char = slash then
      if kMaxPathLength ≤ pi then .error .ENAMETOOLONG else skipSlashes (pi + 1) rest
    else .ok (pi, char :: rest)

/-- "Pick up the next path component"; `name` holds the characters in `nameBuffer`. -/
def pickComponent (pi : Nat) (name : PathComponent) : List UInt8 → Except Errno (Nat × PathComponent × List UInt8)
  | [] => .ok (pi, name, [])
  | char :: rest =>
    if char ≠ slash then
      if kMaxPathLength ≤ pi ∨ kMaxPathComponentLength ≤ name.length then .error .ENAMETOOLONG
      else pickComponent (pi + 1) (name ++ [char]) rest
    else .ok (pi, name, char :: rest)

structure Scanned where
  pi : Nat
  component : PathComponent
  rest : List UInt8
  deriving DecidableEq

/-- The next component from `pi` on, which is "." where there is none. -/
def scanComponent (pi : Nat) (path : List UInt8) : Except Errno Scanned := do
  let skipped ← skipSlashes pi path
  let picked ← pickComponent skipped.1 [] skipped.2
  pure ⟨picked.1, if picked.2.1 = [] then kPathComponentSelf else picked.2.1, picked.2.2⟩

def Scanned.isLast (scanned : Scanned) : Bool := scanned.rest.dropWhile (· == slash) == []

/-! ## The whole path -/

def orDeinit {α : Type} (iter : InodeIterator node filesystem) (code : Code (UseCounts node) Errno α) :
    Code (UseCounts node) Errno α :=
  code.onError iter.deinit

def scanOrDeinit (iter : InodeIterator node filesystem) (pi : Nat) (path : List UInt8) :
    Code (UseCounts node) Errno Scanned :=
  match scanComponent pi path with
  | .error error => orDeinit iter (Code.throw error)
  | .ok scanned => pure scanned

/-- One component of the loop, which looks it up from `iter` on. -/
def lookUp (iter : InodeIterator node filesystem) (component : PathComponent) :
    Code (UseCounts node) Errno (InodeIterator node filesystem) :=
  orDeinit iter (updateIterator hierarchy resolver user iter component)

/-- The `while (true)` loop.  `none` is a loop that did not end within `fuel` rounds. -/
def resolve (mode : PathResolutionMode) :
    Nat → Nat → List UInt8 → InodeIterator node filesystem →
      Code (UseCounts node) Errno (Option (PathResolverResult node filesystem))
  | 0, _, _, _ => pure none
  | fuel + 1, pi, path, iter => do
      let scanned ← scanOrDeinit iter pi path
      if mode = .parentOnly ∧ scanned.isLast then
        pure (some ⟨iter.inode, iter.filesystem, scanned.pi - scanned.component.length, scanned.component.length⟩)
      else
        let iter ← lookUp hierarchy resolver user iter scanned.component
        if scanned.rest = [] then pure (some ⟨iter.inode, iter.filesystem, scanned.pi, 0⟩)
        else resolve mode fuel scanned.pi scanned.rest iter

def PathResolver.startingDir (path : List UInt8) : node :=
  if path.head? = some slash then resolver.rootDirectory else resolver.workingDirectory

def acquireNodeForPath (fuel : Nat) (mode : PathResolutionMode) (path : List UInt8) :
    Code (UseCounts node) Errno (Option (PathResolverResult node filesystem)) :=
  if path = [] then Code.throw .ENOENT
  else do
    let iter ← InodeIterator.init hierarchy (resolver.startingDir path)
    resolve hierarchy resolver user mode fuel 0 path iter

end Nodes

end Apollo.Filesystem
