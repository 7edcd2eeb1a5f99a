import Apollo.Serenafs.FormatSpecs
import Apollo.Serenafs.Operations

/-!
# Every block has one role

A block is the volume header, a bitmap block, the inode block of a node that is
linked or in use, or a content block of such a node.  While unlinked nodes are
given up by their last user only, no block ever has two of these roles, every
block with a role is marked, and the allocator never hands one out.

`Filesystem_RelinquishNode` looks at the link count and not at the use count
when it deletes a node, so a client that gives up an unlinked node while another
one still uses it frees blocks that are in use.
-/

set_option autoImplicit false

namespace Apollo.Serenafs

open Lib

inductive NodeHolder where
  | core (ref : InodeRef)
  | disk (id : Nat)
  deriving DecidableEq

inductive BlockRole where
  | volumeHeader
  | bitmapBlock (index : Nat)
  | inodeBlock (holder : NodeHolder)
  | contentBlock (holder : NodeHolder) (index : Fin kSFSMaxDirectDataBlockPointers)
  deriving DecidableEq

/-- The node `holder` is linked or in use, its inode block is `id` and `map` is its
block map. -/
def SerenaFS.Keeps (fs : SerenaFS) (holder : NodeHolder) (id : Nat) (map : BlockMap) : Prop :=
  match holder with
  | .core ref => ∃ value, fs.Core ref value ∧ (0 < value.linkCount ∨ 0 < value.useCount) ∧
      value.inid = id ∧ value.blockMap = map
  | .disk node => node = id ∧ fs.hasNode id = true ∧ fs.Absent id ∧
      0 < (decodeInode (fs.disk.block id)).linkCount ∧ (decodeInode (fs.disk.block id)).blockMap = map

def SerenaFS.HasRole (fs : SerenaFS) : BlockRole → Nat → Prop
  | .volumeHeader, lba => lba = 0
  | .bitmapBlock index, lba =>
    index < fs.allocationBitmapBlockCount ∧ lba = fs.allocationBitmapLba + index
  | .inodeBlock holder, lba => ∃ map, fs.Keeps holder lba map
  | .contentBlock holder index, lba => ∃ id map, fs.Keeps holder id map ∧ map index = lba ∧ lba ≠ 0

structure SerenaFS.BlockExclusive (fs : SerenaFS) : Prop where
  marked : ∀ {role lba}, fs.HasRole role lba → isBlockInUse fs.allocationBitmap lba = true
  exclusive : ∀ {role role' lba}, fs.HasRole role lba → fs.HasRole role' lba → role = role'

section Roles
variable {fs : SerenaFS} {strict : Prop}

def SerenaFS.idOf (fs : SerenaFS) : NodeHolder → Nat
  | .core ref => ((fs.inode ref).map Inode.inid).getD 0
  | .disk id => id

variable {holder : NodeHolder} {id lba : Nat} {map : BlockMap}

theorem SerenaFS.Keeps.id_eq
    (keeps : fs.Keeps holder id map) : fs.idOf holder = id := by
  cases holder with
  | core ref =>
    obtain ⟨value, core, -, inid, -⟩ := keeps
    change ((fs.inode ref).map Inode.inid).getD 0 = id
    rw [core.stored]
    exact inid
  | disk node => exact keeps.1

theorem SerenaFS.Keeps.isNode
    (keeps : fs.Keeps holder id map) : ∃ view, fs.IsNode id view ∧ view.blockMap = map := by
  cases holder with
  | core ref =>
    obtain ⟨value, core, -, rfl, rfl⟩ := keeps
    exact ⟨value.view, .core core, rfl⟩
  | disk node =>
    obtain ⟨rfl, has, absent, -, rfl⟩ := keeps
    exact ⟨_, .disk has absent, rfl⟩

theorem holder_eq (table : fs.Table) {holder' : NodeHolder} {map' : BlockMap}
    (keeps : fs.Keeps holder id map) (keeps' : fs.Keeps holder' id map') : holder = holder' := by
  cases holder with
  | core ref =>
    obtain ⟨value, core, -, inid, -⟩ := keeps
    cases holder' with
    | core ref' =>
      obtain ⟨value', core', -, inid', -⟩ := keeps'
      rw [table.unique ref ref' value value' core core' (inid.trans inid'.symm)]
    | disk node => exact absurd inid (keeps'.2.2.1 ref value core)
  | disk node =>
    cases holder' with
    | core ref' =>
      obtain ⟨value', core', -, inid', -⟩ := keeps'
      exact absurd inid' (keeps.2.2.1 ref' value' core')
    | disk node' => rw [keeps.1, keeps'.1]

def SerenaFS.roleOf (fs : SerenaFS) : BlockRole → Role
  | .volumeHeader => .header
  | .bitmapBlock index => .bitmap index
  | .inodeBlock holder => .inode (fs.idOf holder)
  | .contentBlock holder index => .content (fs.idOf holder) index

theorem SerenaFS.HasRole.holds (table : fs.Table) {role : BlockRole}
    (has : fs.HasRole role lba) : fs.Holds (fs.roleOf role) lba := by
  cases role with
  | volumeHeader => exact has
  | bitmapBlock index => exact has
  | inodeBlock holder =>
    obtain ⟨map, keeps⟩ := has
    obtain ⟨view, isNode, -⟩ := keeps.isNode
    have id := keeps.id_eq
    have alive := table.hasNode_of_isNode isNode
    rw [← id] at alive
    exact ⟨alive, id.symm⟩
  | contentBlock holder index =>
    obtain ⟨id, map, keeps, entry, nonzero⟩ := has
    obtain ⟨view, isNode, rfl⟩ := keeps.isNode
    rw [← keeps.id_eq] at isNode
    exact ⟨view, isNode, entry, nonzero⟩

theorem SerenaFS.Consistent.blockExclusive (consistent : fs.Consistent strict none []) :
    fs.BlockExclusive := by
  have table := consistent.table
  have sound : Ledger.Sound ⟨fs.HasRole, fun lba => isBlockInUse fs.allocationBitmap lba = true⟩ := by
    refine consistent.accounts.sound.pullback fs.roleOf (fun has => Or.inl (has.holds table))
      (fun used => used) ?_
    intro role role' lba has has' same
    cases role with
    | volumeHeader => cases role' <;> simp_all [SerenaFS.roleOf]
    | bitmapBlock index => cases role' <;> simp_all [SerenaFS.roleOf]
    | inodeBlock holder =>
      cases role' with
      | inodeBlock holder' =>
        obtain ⟨map, keeps⟩ := has
        obtain ⟨map', keeps'⟩ := has'
        rw [holder_eq table keeps keeps']
      | volumeHeader => simp [SerenaFS.roleOf] at same
      | bitmapBlock index => simp [SerenaFS.roleOf] at same
      | contentBlock holder' index => simp [SerenaFS.roleOf] at same
    | contentBlock holder index =>
      cases role' with
      | contentBlock holder' index' =>
        obtain ⟨id, map, keeps, -⟩ := has
        obtain ⟨id', map', keeps', -⟩ := has'
        simp only [SerenaFS.roleOf, Role.content.injEq] at same
        rw [keeps.id_eq, keeps'.id_eq] at same
        obtain ⟨rfl, rfl⟩ := same
        rw [holder_eq table keeps keeps']
      | volumeHeader => simp [SerenaFS.roleOf] at same
      | bitmapBlock index => simp [SerenaFS.roleOf] at same
      | inodeBlock holder' => simp [SerenaFS.roleOf] at same
  exact ⟨sound.covered, sound.exclusive⟩

/-- The allocator hands out blocks without a role. -/
theorem SerenaFS.Consistent.allocates_unheld (consistent : fs.Consistent strict none [])
    {after : SerenaFS} (allocates : allocateBlockLocked fs = .ok lba after) (role : BlockRole) :
    ¬ fs.HasRole role lba := by
  intro has
  have marked := consistent.blockExclusive.marked has
  rcases allocateBlockLocked_cases consistent.hardware with fault | full | ⟨found, vacant, returned⟩
  · rw [fault] at allocates
    simp at allocates
  · rw [full] at allocates
    simp at allocates
  · rw [returned] at allocates
    simp only [Outcome.ok.injEq] at allocates
    rw [← allocates.1, vacant.unused] at marked
    exact absurd marked (by decide)

end Roles

/-! ## Runs from a new volume -/

theorem runs_consistent {user : User} {permissions : FilePermissions} {curTime : TimeInterval}
    {heapFaults : List Bool} {disk : Disk} {start fs : SerenaFS} {calls : List Call}
    (quiet : disk.faults = []) (small : disk.blockCount ≤ 4096)
    (mounts : formatAndMount user permissions curTime heapFaults disk = some start)
    (run : Runs OrderlyStep start calls fs) : fs.Consistent False none [] := by
  have small : disk.blockCount ≤ maxFormattedBlockCount := small.trans (by decide)
  have fresh := fresh_formatAndMount quiet small mounts
  refine run.invariant (fun state => state.Consistent False none [])
    ((fresh.consistent small).loosen False.elim) ?_
  intro call state after consistent step
  exact step.consistent consistent False.elim

theorem emptyVolume_mounts :
    formatAndMount ⟨0, 0⟩ 0x1ed ⟨0, 0⟩ [] (emptyDisk 64) = some (emptyVolume 64) :=
  formatAndMount_emptyDisk 64 (by decide +kernel)

theorem SFSInode.eq_of_view {left right : SFSInode} (access : left.accessTime = right.accessTime)
    (modification : left.modificationTime = right.modificationTime)
    (status : left.statusChangeTime = right.statusChangeTime) (view : left.view = right.view) : left = right := by
  obtain ⟨_, _, _, _, _, _, _, _, _, _⟩ := left
  obtain ⟨rfl, rfl, rfl, rfl, rfl, rfl, rfl⟩ := view
  subst access modification status
  rfl

theorem kalloc_granted {fs : SerenaFS} (heap : fs.heapFaults = []) : kalloc fs = .ok () fs := by
  obtain ⟨_, _, _, _, _, _, _, _, _, _, _, _, _, _, _⟩ := fs
  subst heap
  rfl

theorem acquireNodeWithId_first {fs : SerenaFS} {id : Nat} (unused : fs.inodesInUse = []) (heap : fs.heapFaults = [])
    (quiet : fs.disk.faults = []) (inside : id < fs.disk.blockCount) (first : fs.nextRef = 0) :
    acquireNodeWithId id fs =
      .ok 0 { fs with
        inodesInUse := [0], nextRef := 1,
        inode := Function.update fs.inode 0
          (some { inodeOfDisk id (decodeInode (fs.disk.block id)) with useCount := 1 }) } := by
  have read : getBlock id fs = .ok (fs.disk.block id) fs := by rw [getBlock_quiet quiet, if_pos inside]
  have created : onReadNodeFromDisk id fs =
      .ok 0 { fs.setNode 0 (some (inodeOfDisk id (decodeInode (fs.disk.block id)))) with nextRef := 1 } := by
    unfold onReadNodeFromDisk inodeCreate
    rw [Code.bind_of_ok (kalloc_granted heap), Code.bind_of_ok read, Code.bind_of_ok (kalloc_granted heap)]
    unfold storeInode
    rw [first]
  unfold acquireNodeWithId
  rw [Code.bind_of_ok (Code.get_apply _), unused, List.find?_nil]
  dsimp only
  rw [Code.bind_of_ok created]
  have added : ∀ after : SerenaFS, after.heapFaults = [] →
      addToInodesInUse 0 after = .ok () { after with inodesInUse := after.inodesInUse ++ [0] } := by
    intro after heap
    unfold addToInodesInUse
    rw [Code.bind_of_ok (kalloc_granted heap), Code.modify_apply]
  refine (Code.bind_of_ok (added _ (by exact heap)) _).trans ?_
  have reacquired : ∀ (after : SerenaFS) (value : Inode), after.inode 0 = some value →
      reacquireNode 0 after = .ok 0 (after.setNode 0 (some { value with useCount := value.useCount + 1 })) := by
    intro after value stored
    unfold reacquireNode
    rw [Code.bind_of_ok (updateNode_stored stored _), Code.pure_apply]
  rw [reacquired _ (inodeOfDisk id (decodeInode (fs.disk.block id))) (by simp [SerenaFS.setNode])]
  simp [SerenaFS.setNode, unused, inodeOfDisk]

def acquiredRootInode : Inode := { inodeOfDisk 2 (rootInode 64 ⟨0, 0⟩ 0x1ed ⟨0, 0⟩) with useCount := 1 }

def smallVolume : SerenaFS :=
  { emptyVolume 64 with
    inodesInUse := [0], nextRef := 1, inode := Function.update (emptyVolume 64).inode 0 (some acquiredRootInode) }

theorem emptyVolume_rootBlock : (emptyVolume 64).disk.block 2 = encodeInode (rootInode 64 ⟨0, 0⟩ 0x1ed ⟨0, 0⟩) := by
  have mounts := emptyVolume_mounts
  unfold formatAndMount at mounts
  cases formats : formatDrive ⟨0, 0⟩ 0x1ed ⟨0, 0⟩ true (emptyDisk 64) with
  | fault => simp [formats] at mounts
  | err reason after => simp [formats] at mounts
  | ok result driver =>
    have formatted := formatDrive_ok rfl formats
    cases mount : onMount driver (created ⟨0, 0⟩ []) with
    | fault => simp [formats, mount] at mounts
    | err reason after => simp [formats, mount] at mounts
    | ok result' after =>
      simp only [formats, mount, Option.some.injEq] at mounts
      obtain ⟨header, heap, -, -, rfl⟩ := onMount_ok formatted.quiet mount
      rw [← mounts]
      exact formatted.rootInode

theorem rootInode_stored : decodeInode (encodeInode (rootInode 64 ⟨0, 0⟩ 0x1ed ⟨0, 0⟩)) = rootInode 64 ⟨0, 0⟩ 0x1ed ⟨0, 0⟩ := by
  refine SFSInode.eq_of_view (by decide +kernel) (by decide +kernel) (by decide +kernel) ?_
  rw [view_decodeInode_encodeInode]
  have small : ∀ index, (rootInode 64 ⟨0, 0⟩ 0x1ed ⟨0, 0⟩).view.blockMap index < 4294967296 := by decide +kernel
  exact congrArg (fun map => { (rootInode 64 ⟨0, 0⟩ 0x1ed ⟨0, 0⟩).view with blockMap := map }) (NodeView.stored_blockMap small)

theorem emptyVolume_acquired : execute (.acquireNodeWithId 2) (emptyVolume 64) = .ok (some 0) smallVolume := by
  have acquired : acquireNodeWithId 2 (emptyVolume 64) = .ok 0 smallVolume := by
    have fresh := fresh_formatAndMount rfl (by decide) emptyVolume_mounts
    rw [acquireNodeWithId_first fresh.unused (by decide +kernel) fresh.quiet (by rw [fresh.size]; decide) (by decide +kernel),
      emptyVolume_rootBlock, rootInode_stored]
    rfl
  unfold execute
  dsimp only
  rw [Code.bind_of_ok acquired]
  rfl

theorem performAll_acquired (admits : SerenaFS → Operation → Bool) (rest : List Operation)
    (admitted : admits (emptyVolume 64) (.acquireNodeWithId 2) = true) :
    performAll admits (.acquireNodeWithId 2 :: rest) [] (emptyVolume 64) =
      performAll admits rest [⟨.acquireNodeWithId 2, .ok (some 0)⟩] smallVolume := by
  rw [performAll, admitted, emptyVolume_acquired]
  rfl

/-- A file is created, written, opened twice and unlinked by its last user. -/
def orderlyOperations : List Operation :=
  [.acquireNodeWithId 2, .createFile [0x61] 0 ⟨0, 0⟩ 0 0x1a4, .xWrite 1 0 [1, 2, 3],
    .acquireNodeWithId 4, .relinquishNode 1, .unlink 1 0 ⟨0, 0⟩, .relinquishNode 1]

theorem orderlyOperations_performed :
    (performAll (fun fs operation => operation.orderly fs) orderlyOperations []
      (emptyVolume 64)).isSome = true := by
  rw [orderlyOperations, performAll_acquired _ _ (by decide +kernel)]
  decide +kernel

/-- A file with two users is unlinked and given up by one of them. -/
def earlyRemoval : List Operation :=
  [.acquireNodeWithId 2, .createFile [0x61] 0 ⟨0, 0⟩ 0 0x1a4, .acquireNodeWithId 4,
    .unlink 1 0 ⟨0, 0⟩, .relinquishNode 1]

/-- The node is deleted and its inode block given back, and the inode is still in use. -/
theorem earlyRemoval_final :
    ∃ calls fs, Runs Performs (emptyVolume 64) calls fs ∧ 1 ∈ fs.inodesInUse ∧
      (∃ value, fs.Core 1 value ∧ value.useCount = 1 ∧ value.inid = 4) ∧
      isBlockInUse fs.allocationBitmap 4 = false ∧ unlinks 1 calls = 1 ∧ fs.removals 1 = 1 := by
  have final : (performAll (fun _ _ => true) earlyRemoval [] (emptyVolume 64)).map
      (fun (calls, fs) => (fs.inodesInUse.contains 1,
        (fs.inode 1).map (fun value => (value.useCount, value.inid)),
        isBlockInUse fs.allocationBitmap 4, unlinks 1 calls, fs.removals 1)) =
          some (true, some (1, 4), false, 1, 1) := by
    rw [earlyRemoval, performAll_acquired _ _ rfl]
    decide +kernel
  obtain ⟨⟨calls, fs⟩, performed, state⟩ := Option.map_eq_some_iff.mp final
  simp only [Prod.mk.injEq, List.contains_iff_mem, Option.map_eq_some_iff] at state
  obtain ⟨inUse, ⟨value, stored, counted, inid⟩, unmarked, unlinked, removed⟩ := state
  have run := (runs_performAll .nil performed).mono (fun _ _ _ step => step.2)
  exact ⟨calls, fs, run, inUse, ⟨value, ⟨inUse, stored⟩, counted, inid⟩, unmarked, unlinked, removed⟩

end Apollo.Serenafs
