import Apollo.Serenafs.Access
import Apollo.Serenafs.BlockExclusivity

/-!
# What a failed creation leaves behind

`SerenaFS_createFile` and `SerenaFS_createDirectory` allocate a node before they
enter it in the directory, and neither of them unlinks the node again when that
fails.
-/

set_option autoImplicit false

namespace Apollo.Serenafs

open Lib

/-! ## The allocation of a node -/

section Allocating
variable {fs : SerenaFS} {strict : Prop}

structure SerenaFS.DeliversNode (fs : SerenaFS) : Prop where
  disk : fs.heapFaults.getD 0 false = false
  core : fs.heapFaults.getD 1 false = false
  space : findFreeBlock fs.allocationBitmap (fs.volumeBlockCount - 1) 1 ≠ .full

theorem kalloc_eq (fs : SerenaFS) :
    kalloc fs = if fs.heapFaults.getD 0 false = true then .err .ENOMEM (fs.withHeap fs.heapFaults.tail)
      else .ok () (fs.withHeap fs.heapFaults.tail) := by
  unfold kalloc SerenaFS.withHeap
  cases fs.heapFaults with
  | nil => rfl
  | cons outcome rest => cases outcome <;> rfl

theorem allocateBlockLocked_outside
    (search : findFreeBlock fs.allocationBitmap (fs.volumeBlockCount - 1) 1 = .outside) :
    allocateBlockLocked fs = .fault := by
  unfold allocateBlockLocked
  rw [Code.bind_of_ok (Code.get_apply _), search]
  rfl

theorem onAllocateNodeOnDisk_delivers (hardware : fs.Hardware) (type : FileType) :
    (onAllocateNodeOnDisk type fs).Returned (fun _ _ => fs.DeliversNode)
      (fun _ _ => ¬ fs.DeliversNode) := by
  unfold onAllocateNodeOnDisk
  have memory := kalloc_eq fs
  by_cases first : fs.heapFaults.getD 0 false = true
  · rw [if_pos first] at memory
    rw [Code.bind_of_err memory]
    rintro ⟨disk, -, -⟩
    rw [first] at disk
    exact absurd disk (by decide)
  rw [if_neg first] at memory
  rw [Code.bind_of_ok memory]
  have second : (fs.withHeap fs.heapFaults.tail).heapFaults.getD 0 false = fs.heapFaults.getD 1 false := by
    cases fs.heapFaults <;> rfl
  have search_eq : findFreeBlock (fs.withHeap fs.heapFaults.tail).allocationBitmap
      ((fs.withHeap fs.heapFaults.tail).volumeBlockCount - 1) 1 =
        findFreeBlock fs.allocationBitmap (fs.volumeBlockCount - 1) 1 := rfl
  rw [Bool.not_eq_true] at first
  have hardware' : (fs.withHeap fs.heapFaults.tail).Hardware :=
    hardware.of_eq rfl rfl rfl rfl rfl rfl
  generalize fs.withHeap fs.heapFaults.tail = heaped at second search_eq hardware' ⊢
  cases search : findFreeBlock fs.allocationBitmap (fs.volumeBlockCount - 1) 1 with
  | outside =>
    rw [search] at search_eq
    rw [Code.bind_of_fault (allocateBlockLocked_outside search_eq)]
    trivial
  | full =>
    rw [search] at search_eq
    rw [Code.bind_of_err (allocateBlockLocked_full search_eq)]
    exact fun delivers => delivers.space search
  | found lba =>
    rw [search] at search_eq
    have found := allocateBlockLocked_found hardware'.quiet hardware'.geometry search_eq
    split_ifs at found with fits
    swap
    · rw [Code.bind_of_fault found]
      trivial
    rw [Code.bind_of_ok found, Code.bind_of_ok (Code.get_apply _)]
    have memory' := kalloc_eq (heaped.mark lba true)
    change kalloc (heaped.mark lba true) =
      if heaped.heapFaults.getD 0 false = true then _ else _ at memory'
    rw [second] at memory'
    split_ifs at memory' with last
    · -- no memory for the inode
      have create : inodeCreate (newInode lba type (heaped.mark lba true).clock)
          (heaped.mark lba true) = .err .ENOMEM _ := Code.bind_of_err memory' _
      rw [Code.bind_apply]
      unfold Code.onError
      rw [create]
      simp only
      have refused : ¬ fs.DeliversNode := fun delivers => by
        rw [delivers.core] at last
        exact absurd last (by decide)
      generalize deallocateBlockLocked lba ((heaped.mark lba true).withHeap _) = cleaned
      cases cleaned with
      | ok value after => exact refused
      | err reason after => exact refused
      | fault => trivial
    · have create : inodeCreate (newInode lba type (heaped.mark lba true).clock)
          (heaped.mark lba true) = .ok _ _ := Code.bind_of_ok memory' _
      rw [Code.bind_apply]
      unfold Code.onError
      rw [create]
      rw [Bool.not_eq_true] at last
      exact ⟨first, last, by rw [search]; simp⟩

theorem allocateNode_delivers (hardware : fs.Hardware) (type : FileType) (uid gid : UInt32)
    (permissions : FilePermissions) :
    allocateNode type uid gid permissions fs = .fault ∨
    (¬ fs.DeliversNode ∧ ∃ reason after, allocateNode type uid gid permissions fs = .err reason after ∧
      NotAllocated fs after) ∨
    (fs.DeliversNode ∧ ∃ lba heap, fs.Vacant lba ∧ allocateNode type uid gid permissions fs =
      .ok fs.nextRef (fs.allocated lba heap
        (allocatedInode lba type uid gid permissions fs.clock))) := by
  have delivers := onAllocateNodeOnDisk_delivers hardware type
  rcases allocateNode_returns hardware type uid gid permissions with
    fault | ⟨reason, after, failed, state, none⟩ | ⟨lba, heap, vacant, created⟩
  · exact Or.inl fault
  · rw [none] at delivers
    exact Or.inr (Or.inl ⟨delivers, reason, after, failed, state⟩)
  · obtain ⟨ref, middle, allocates, -⟩ := Code.bind_eq_ok.mp created
    rw [allocates] at delivers
    exact Or.inr (Or.inr ⟨delivers, lba, heap, vacant, created⟩)

/-- A node that is in no table of inodes is read from the disk, or nothing is
changed but the memory. -/
theorem acquireNodeWithId_failed (consistent : fs.Consistent strict none []) {id : Nat}
    {reason : Errno} {after : SerenaFS} (failed : acquireNodeWithId id fs = .err reason after) :
    OutOfMemory fs after := by
  unfold acquireNodeWithId at failed
  rw [Code.bind_of_ok (Code.get_apply _)] at failed
  cases search : fs.inodesInUse.find? (fs.hasId id) with
  | some ref =>
    obtain ⟨value, core, -⟩ := find_hasId_some consistent.table search
    simp only [search] at failed
    rw [reacquireNode_core core] at failed
    simp at failed
  | none =>
    simp only [search] at failed
    by_cases onDisk : id < fs.disk.blockCount
    · obtain ⟨heap, noMemory | read⟩ := onReadNodeFromDisk_cases consistent.hardware onDisk
      · rw [Code.bind_of_err noMemory] at failed
        simp only [Outcome.err.injEq] at failed
        rw [← failed.2]
        exact .heap heap
      rw [Code.bind_of_ok read] at failed
      obtain ⟨heap', noMemory | listed⟩ := addToInodesInUse_cases ((fs.withHeap heap).orphan
        (inodeOfDisk id (decodeInode (fs.disk.block id)))) fs.nextRef
      · rw [Code.bind_of_err noMemory] at failed
        simp only [Outcome.err.injEq] at failed
        rw [← failed.2]
        exact .orphan heap' _
      rw [Code.bind_of_ok listed,
        reacquireNode_core ⟨List.mem_append_right _ List.mem_cons_self, Function.update_self _ _ _⟩]
        at failed
      simp at failed
    · have unread : ∃ cause, onReadNodeFromDisk id fs = .err cause (fs.withHeap fs.heapFaults.tail) := by
        unfold onReadNodeFromDisk
        have memory := kalloc_eq fs
        split_ifs at memory
        · exact ⟨_, Code.bind_of_err memory _⟩
        · have quiet : (fs.withHeap fs.heapFaults.tail).disk.faults = [] := consistent.hardware.quiet
          rw [Code.bind_of_ok memory]
          refine ⟨.EIOError, Code.bind_of_err ?_ _⟩
          rw [getBlock_quiet quiet]
          exact if_neg onDisk
      obtain ⟨cause, unread⟩ := unread
      rw [Code.bind_of_err unread] at failed
      simp only [Outcome.err.injEq] at failed
      rw [← failed.2]
      exact .heap _

end Allocating

/-! ## Traces -/

/-- A directory entry leads to the node `id`, as far as the node knows. -/
def SerenaFS.IsLinked (fs : SerenaFS) (id : Nat) : Prop :=
  ∃ view, fs.IsNode id view ∧ 0 < view.linkCount

/-- The allocation bitmap, the entries of the directory `parent` and the set of
linked nodes are the same. -/
structure Untraced (fs : SerenaFS) (parent : InodeRef) (dir : Inode) (after : SerenaFS) : Prop where
  bitmap : ∀ lba, isBlockInUse after.allocationBitmap lba = isBlockInUse fs.allocationBitmap lba
  directory : ∃ value, after.inode parent = some value ∧ value.size = dir.size ∧
    value.blockMap = dir.blockMap
  entries : ∀ index, dir.blockMap index ≠ 0 →
    after.disk.block (dir.blockMap index) = fs.disk.block (dir.blockMap index)
  linked : ∀ id, after.IsLinked id ↔ fs.IsLinked id

def GivesBack (handed : Option InodeRef) (fs after : SerenaFS) : Prop :=
  match handed with
  | none => after = fs
  | some ref => relinquishNode ref fs = .ok () after

/-- A creation under `name` fails, and `final` is the volume after the caller gave
back what it was handed. -/
inductive FailedCreation (fs : SerenaFS) (name : PathComponent) (parent : InodeRef) (user : User)
    (permissions : FilePermissions) : SerenaFS → Prop
  | file {options : UInt32} {reason : Errno} {handed : Option InodeRef} {after final : SerenaFS}
      (fails : createFile name parent user options permissions fs = .ok ⟨some reason, handed⟩ after)
      (back : GivesBack handed after final) : FailedCreation fs name parent user permissions final
  | directory {reason : Errno} {final : SerenaFS}
      (fails : createDirectory name parent user permissions fs = .err reason final) :
      FailedCreation fs name parent user permissions final

/-- The parent is a directory that may be written, and the search of it ends
without an entry of that name. -/
structure LacksName (fs : SerenaFS) (parent : InodeRef) (dir : Inode) (name : PathComponent) : Prop where
  directory : dir.isDirectory = true
  writable : fs.isReadOnly = false
  unused : ∃ lookup, getDirectoryEntry parent (.pathComponent name) true fs = .ok lookup fs ∧
    lookup.found = none

structure StartsNode (fs : SerenaFS) (parent : InodeRef) (dir : Inode) (name : PathComponent) : Prop where
  lacks : LacksName fs parent dir name
  delivers : fs.DeliversNode

section Traces
variable {fs after : SerenaFS} {parent : InodeRef} {dir : Inode} {name : PathComponent}

/-- A call that changes no node and no mark leaves no trace. -/
theorem untraced_of_beside (consistent : after.Consistent False none []) (core : fs.Core parent dir)
    (beside : ∀ ref own, Beside ref own fs after)
    (bitmap : ∀ lba, isBlockInUse after.allocationBitmap lba = isBlockInUse fs.allocationBitmap lba) :
    Untraced fs parent dir after where
  bitmap := bitmap
  directory :=
    ⟨dir, ((beside (parent + 1) 0).core parent dir (Nat.ne_of_lt (Nat.lt_succ_self _)) core).stored,
      rfl, rfl⟩
  entries index present :=
    (beside 0 (dir.inid + 1)).content dir.inid dir.view index (Nat.ne_of_lt (Nat.lt_succ_self _))
      (.core core) present
  linked id := by
    have apart : id ≠ id + 1 := Nat.ne_of_lt (Nat.lt_succ_self _)
    constructor
    · rintro ⟨view, isNode, linked⟩
      exact ⟨view, (beside 0 (id + 1)).isNode_before consistent.table apart isNode, linked⟩
    · rintro ⟨view, isNode, linked⟩
      exact ⟨view, (beside 0 (id + 1)).isNode id view apart isNode, linked⟩

theorem untraced_refl (consistent : fs.Consistent False none []) (core : fs.Core parent dir) :
    Untraced fs parent dir fs :=
  untraced_of_beside consistent core (fun _ _ => Beside.refl fs) fun _ => rfl

theorem OutOfMemory.untraced (consistent : fs.Consistent False none []) (core : fs.Core parent dir)
    (failed : OutOfMemory fs after) : Untraced fs parent dir after := by
  refine untraced_of_beside (consistent.outOfMemory failed) core
    (fun _ _ => failed.beside consistent) fun lba => ?_
  cases failed with
  | heap heap => rfl
  | orphan heap value => rfl

theorem NotAllocated.untraced (consistent : fs.Consistent False none []) (core : fs.Core parent dir)
    (failed : NotAllocated fs after) : Untraced fs parent dir after := by
  refine untraced_of_beside (consistent.notAllocated failed) core
    (fun _ _ => failed.beside consistent) fun lba => ?_
  cases failed with
  | heap heap => rfl
  | @returned allocated heap vacant =>
    change isBlockInUse (setBlockInUse (setBlockInUse fs.allocationBitmap allocated true) allocated
      false) lba = _
    rw [isBlockInUse_setBlockInUse _ _ _ (by rw [length_setBlockInUse]; exact vacant.inside),
      isBlockInUse_setBlockInUse _ _ _ vacant.inside]
    by_cases same : lba = allocated
    · rw [if_pos same, same, vacant.unused]
    · rw [if_neg same, if_neg same]

theorem traced_of_hasNode (consistent : after.Consistent False none []) {lba : Nat}
    (vacant : fs.Vacant lba) (has : after.hasNode lba = true) : ¬ Untraced fs parent dir after := by
  intro untraced
  have inode : after.Holds (.inode lba) lba := ⟨has, rfl⟩
  have marked : isBlockInUse after.allocationBitmap lba = true :=
    consistent.accounts.sound.covered (Or.inl inode)
  rw [untraced.bitmap, vacant.unused] at marked
  exact absurd marked (by decide)

/-- A linked node stays a node when a reference to it is given up. -/
theorem hasNode_relinquish (consistent : fs.Consistent False none []) {ref : InodeRef} {value : Inode}
    (core : fs.Core ref value) (linked : value.linkCount ≠ 0)
    (returned : relinquishNode ref fs = .ok () after) (id : Nat) :
    after.Consistent False none [] ∧ after.hasNode id = fs.hasNode id := by
  have spec := relinquishNode_spec consistent core (fun zero => absurd zero linked)
    (fun _ zero => absurd zero linked)
  rw [returned] at spec
  refine ⟨spec, ?_⟩
  rcases relinquishNode_linked consistent core linked with fault | ⟨-, closed⟩
  · rw [fault] at returned
    simp at returned
  rw [closed] at returned
  simp only [Outcome.ok.injEq, true_and] at returned
  rw [← returned]
  have settled : (fs.settled value).hasNode id = fs.hasNode id := by
    unfold SerenaFS.settled
    split_ifs
    · rfl
    · rfl
  split_ifs
  · exact settled
  · exact settled

end Traces

/-! ## The calls -/

section Calls
variable {fs : SerenaFS} {parent : InodeRef} {dir : Inode} {name : PathComponent}

theorem createFileLookup_returns (consistent : fs.Consistent False none []) (core : fs.Core parent dir)
    (name : PathComponent) (user : User) (options : UInt32) :
    createFileLookup name parent user options fs = .fault ∨
    (¬ LacksName fs parent dir name ∧
      ((∃ reason, createFileLookup name parent user options fs = .err reason fs) ∨
        ∃ lookup entry, createFileLookup name parent user options fs = .ok lookup fs ∧
          lookup.found = some entry)) ∨
    (LacksName fs parent dir name ∧
      ∃ lookup, createFileLookup name parent user options fs = .ok lookup fs ∧
        lookup.found = none ∧ lookup.empty.Into dir.blockMap) := by
  unfold createFileLookup
  rw [Code.bind_of_ok (node_core core)]
  by_cases directory : dir.isDirectory = true
  swap
  · rw [if_pos (by simpa using directory)]
    exact Or.inr (Or.inl ⟨fun lacks => directory lacks.directory, Or.inl ⟨_, rfl⟩⟩)
  rw [if_neg (by simp [directory])]
  by_cases readOnly : fs.isReadOnly = true
  · have denied : requireAccess parent user kFilePermissionWrite fs = .err .EROFS fs := by
      rw [requireAccess_eq core.stored, if_pos ⟨rfl, readOnly⟩]
    rw [Code.bind_of_err denied]
    refine Or.inr (Or.inl ⟨fun lacks => ?_, Or.inl ⟨_, rfl⟩⟩)
    rw [lacks.writable] at readOnly
    exact absurd readOnly (by decide)
  have granted : requireAccess parent user kFilePermissionWrite fs = .ok () fs := by
    rw [requireAccess_eq core.stored, if_neg (fun refused => readOnly refused.2)]
  rw [Bool.not_eq_true] at readOnly
  rw [Code.bind_of_ok granted]
  rcases getDirectoryEntry_spec consistent core (.pathComponent name) true with
    fault | ⟨reason, failed⟩ | ⟨lookup, returned, into, -⟩
  · exact Or.inl (Code.bind_of_fault fault _)
  · refine Or.inr (Or.inl ⟨fun lacks => ?_, Or.inl ⟨reason, Code.bind_of_err failed _⟩⟩)
    obtain ⟨lookup, returned, -⟩ := lacks.unused
    rw [failed] at returned
    simp at returned
  rw [Code.bind_of_ok returned]
  cases found : lookup.found with
  | some entry =>
    have has : ¬ LacksName fs parent dir name := by
      intro lacks
      obtain ⟨lookup', returned', unused⟩ := lacks.unused
      rw [returned] at returned'
      simp only [Outcome.ok.injEq, and_true] at returned'
      rw [← returned', found] at unused
      simp at unused
    split_ifs
    · exact Or.inr (Or.inl ⟨has, Or.inl ⟨_, rfl⟩⟩)
    · exact Or.inr (Or.inl ⟨has, Or.inr ⟨lookup, entry, rfl, found⟩⟩)
  | none =>
    exact Or.inr (Or.inr ⟨⟨directory, readOnly, lookup, returned, found⟩, lookup, rfl, found, into⟩)

variable {user : User} {permissions : FilePermissions} {reason : Errno} {final : SerenaFS}

theorem createFileLookup_exclusive {lookup : DirectoryLookup} {after : SerenaFS}
    (returned : createFileLookup name parent user kOpenExclusive fs = .ok lookup after) :
    lookup.found = none := by
  obtain ⟨value, first, -, returned⟩ := Code.bind_eq_ok.mp returned
  by_cases directory : (!value.isDirectory) = true
  · rw [if_pos directory] at returned
    simp at returned
  rw [if_neg directory] at returned
  obtain ⟨-, second, -, returned⟩ := Code.bind_eq_ok.mp returned
  obtain ⟨search, third, -, returned⟩ := Code.bind_eq_ok.mp returned
  cases found : search.found with
  | some entry =>
    simp only [found] at returned
    simp at returned
  | none =>
    simp only [found, Code.pure_apply, Outcome.ok.injEq] at returned
    rw [← returned.1]
    exact found

/-- `SerenaFS_createDirectory` makes the checks of an exclusive
`SerenaFS_createFile`. -/
theorem createDirectory_eq (core : fs.Core parent dir)
    (name : PathComponent) (user : User) (permissions : FilePermissions) :
    createDirectory name parent user permissions fs =
      (do
        let lookup ← createFileLookup name parent user kOpenExclusive
        let newDirId ← createDirectoryDiskNode dir.inid user.uid user.gid permissions
        insertDirectoryEntry parent name newDirId (some lookup.empty) : FS Unit) fs := by
  unfold createDirectory createFileLookup
  rw [Code.bind_of_ok (node_core core), Code.bind_assoc, Code.bind_of_ok (node_core core)]
  by_cases directory : (!dir.isDirectory) = true
  · rw [if_pos directory, if_pos directory]
    rfl
  rw [if_neg directory, if_neg directory, Code.bind_assoc]
  cases access : requireAccess parent user kFilePermissionWrite fs with
  | fault => rw [Code.bind_of_fault access, Code.bind_of_fault access]
  | err reason after => rw [Code.bind_of_err access, Code.bind_of_err access]
  | ok granted after =>
    rw [Code.bind_of_ok access, Code.bind_of_ok access, Code.bind_assoc]
    cases search : getDirectoryEntry parent (.pathComponent name) true after with
    | fault => rw [Code.bind_of_fault search, Code.bind_of_fault search]
    | err reason final => rw [Code.bind_of_err search, Code.bind_of_err search]
    | ok lookup final =>
      rw [Code.bind_of_ok search, Code.bind_of_ok search]
      cases found : lookup.found with
      | none => rfl
      | some entry =>
        rfl

theorem createFile_failed (consistent : fs.Consistent False none []) (core : fs.Core parent dir) {options : UInt32}
    {handed : Option InodeRef} {after : SerenaFS}
    (fails : createFile name parent user options permissions fs = .ok ⟨some reason, handed⟩ after)
    (back : GivesBack handed after final) :
    Untraced fs parent dir final ↔ ¬ StartsNode fs parent dir name := by
  unfold createFile at fails
  rcases createFileLookup_returns consistent core name user options with
    fault | ⟨present, ⟨cause, failed⟩ | ⟨lookup, entry, returned, found⟩⟩ |
      ⟨lacks, lookup, returned, found, into⟩
  · rw [Code.bind_of_fault (attempt_of_fault fault)] at fails
    simp at fails
  · rw [Code.bind_of_ok (attempt_of_err failed)] at fails
    obtain ⟨⟨-, rfl⟩, rfl⟩ := fails
    rw [show final = fs from back]
    exact iff_of_true (untraced_refl consistent core) fun starts => present starts.lacks
  · rw [Code.bind_of_ok (attempt_of_ok returned)] at fails
    simp only [found] at fails
    cases acquires : acquireNodeWithId entry.id fs with
    | fault =>
      rw [Code.bind_of_fault (attempt_of_fault acquires)] at fails
      simp at fails
    | err cause middle =>
      rw [Code.bind_of_ok (attempt_of_err acquires)] at fails
      simp only [Code.pure_apply, Outcome.ok.injEq, CreatedFile.mk.injEq] at fails
      obtain ⟨⟨-, rfl⟩, rfl⟩ := fails
      rw [show final = middle from back]
      exact iff_of_true ((acquireNodeWithId_failed consistent acquires).untraced consistent core)
        fun starts => present starts.lacks
    | ok ref middle =>
      rw [Code.bind_of_ok (attempt_of_ok acquires)] at fails
      obtain ⟨_, _, _, returned⟩ := Code.bind_eq_ok.mp fails
      simp at returned
  rw [Code.bind_of_ok (attempt_of_ok returned)] at fails
  simp only [found] at fails
  rcases allocateNode_delivers consistent.hardware .regularFile user.uid user.gid permissions with
    fault | ⟨none, cause, middle, failed, state⟩ | ⟨delivers, lba, heap, vacant, created⟩
  · rw [Code.bind_of_fault (attempt_of_fault fault)] at fails
    simp at fails
  · rw [Code.bind_of_ok (attempt_of_err failed)] at fails
    simp only [Code.pure_apply, Outcome.ok.injEq, CreatedFile.mk.injEq] at fails
    obtain ⟨⟨-, rfl⟩, rfl⟩ := fails
    rw [show final = middle from back]
    exact iff_of_true (state.untraced consistent core) fun starts => none starts.delivers
  -- from here on there is a linked node without a directory entry
  refine iff_of_false ?_ (not_not.mpr ⟨lacks, delivers⟩)
  have allocated : (fs.allocated lba heap (allocatedInode lba .regularFile user.uid user.gid
      permissions fs.clock)).Consistent False none [] :=
    consistent.allocated vacant rfl Int.zero_lt_one (le_refl _) rfl rfl
  have new : (fs.allocated lba heap (allocatedInode lba .regularFile user.uid user.gid
      permissions fs.clock)).Core fs.nextRef _ := core_allocated
  have apart := consistent.table.ne_nextRef core.inUse
  have core' := (beside_allocated consistent vacant heap
    (allocatedInode_inid lba .regularFile user.uid user.gid permissions fs.clock)).core parent dir
      apart core
  have has : (fs.allocated lba heap (allocatedInode lba .regularFile user.uid user.gid
      permissions fs.clock)).hasNode lba = true := by
    change (lba == lba || _) = true
    simp
  rw [Code.bind_of_ok (attempt_of_ok created)] at fails
  simp only at fails
  rw [Code.bind_of_ok (node_core new)] at fails
  have inserted := insertDirectoryEntry_spec name lba (some lookup.empty)
    (Reached.start' core' allocated) core'
    (by rintro pointer same; rw [← Option.some.inj same]; exact into)
  generalize fs.allocated lba heap (allocatedInode lba .regularFile user.uid user.gid permissions
    fs.clock) = current at allocated new core' has inserted fails
  rw [allocatedInode_inid] at fails
  cases insert : insertDirectoryEntry parent name lba (some lookup.empty) current with
  | fault =>
    rw [Code.bind_of_fault (attempt_of_fault insert)] at fails
    simp at fails
  | ok result middle =>
    rw [Code.bind_of_ok (attempt_of_ok insert)] at fails
    simp at fails
  | err cause middle =>
    rw [insert] at inserted
    rw [Code.bind_of_ok (attempt_of_err insert)] at fails
    obtain ⟨⟨-, rfl⟩, rfl⟩ := fails
    obtain ⟨kept, new', -, same⟩ := inserted.frame.core new
    rw [same apart.symm] at new'
    obtain ⟨consistent', nodes⟩ :=
      hasNode_relinquish inserted.consistent new' one_ne_zero back lba
    exact traced_of_hasNode consistent' vacant (by rw [nodes, inserted.frame.hasNode, has])

/-- A directory whose node was allocated stays a linked node, whether or not its
entries could be made. -/
theorem finishDirectory_leaves {ref : InodeRef} {value : Inode} (consistent : fs.Consistent False none [])
    (core : fs.Core ref value) (linked : value.linkCount = 1) (self up : Nat) {id : Nat}
    (has : fs.hasNode id = true) :
    ((do
      Code.onError
        (do
          insertDirectoryEntry ref kPathComponentSelf self none
          insertDirectoryEntry ref kPathComponentParent up none)
        (relinquishNode ref)
      relinquishNode ref
      pure value.inid : FS Nat) fs).Returned
      (fun _ after => (after.Consistent False none [] ∧ after.hasNode id = true) ∧
        Beside ref value.inid fs after)
      (fun _ after => after.Consistent False none [] ∧ after.hasNode id = true) := by
  have gives : Code.Spec (Reached fs ref value False false []) (relinquishNode ref)
      (fun _ after => (after.Consistent False none [] ∧ after.hasNode id = true) ∧
        Beside ref value.inid fs after)
      (fun _ after => after.Consistent False none [] ∧ after.hasNode id = true) := by
    intro state reached
    obtain ⟨current, core', identity⟩ := reached.core
    have link : current.linkCount ≠ 0 := by
      have same : current.linkCount = value.linkCount := congrArg (·.2.2.1) identity
      rw [same, linked]
      exact one_ne_zero
    have returned := reached.relinquish linked
    cases call : relinquishNode ref state with
    | fault => trivial
    | err reason after =>
      rw [call] at returned
      exact returned.elim
    | ok result after =>
      rw [call] at returned
      obtain ⟨consistent', nodes⟩ := hasNode_relinquish reached.consistent core' link call id
      exact ⟨⟨consistent', by rw [nodes, reached.frame.hasNode, has]⟩, returned.2.1⟩
  have cleans := Code.spec_weaken gives (fun _ holds => holds) (fun _ _ held => held.1)
    (fun _ _ held => held)
  exact Code.spec_bind (Code.spec_onError (insertDotEntries_spec self up) fun _ => cleans)
    (fun _ => Code.spec_bind gives fun _ => Code.spec_pure fun _ holds => holds) fs
    (Reached.start' core consistent)

theorem createDirectory_failed (consistent : fs.Consistent False none []) (core : fs.Core parent dir)
    (fails : createDirectory name parent user permissions fs = .err reason final) :
    Untraced fs parent dir final ↔ ¬ StartsNode fs parent dir name := by
  rw [createDirectory_eq core] at fails
  rcases createFileLookup_returns consistent core name user kOpenExclusive with
    fault | ⟨present, ⟨cause, failed⟩ | ⟨lookup, entry, returned, found⟩⟩ |
      ⟨lacks, lookup, returned, found, into⟩
  · rw [Code.bind_of_fault fault] at fails
    simp at fails
  · rw [Code.bind_of_err failed] at fails
    simp only [Outcome.err.injEq] at fails
    rw [← fails.2]
    exact iff_of_true (untraced_refl consistent core) fun starts => present starts.lacks
  · have unused := createFileLookup_exclusive returned
    rw [found] at unused
    simp at unused
  rw [Code.bind_of_ok returned] at fails
  unfold createDirectoryDiskNode at fails
  rw [Code.bind_assoc] at fails
  rcases allocateNode_delivers consistent.hardware .directory user.uid user.gid permissions with
    fault | ⟨none, cause, middle, failed, state⟩ | ⟨delivers, lba, heap, vacant, created⟩
  · rw [Code.bind_of_fault fault] at fails
    simp at fails
  · rw [Code.bind_of_err failed] at fails
    simp only [Outcome.err.injEq] at fails
    rw [← fails.2]
    exact iff_of_true (state.untraced consistent core) fun starts => none starts.delivers
  refine iff_of_false ?_ (not_not.mpr ⟨lacks, delivers⟩)
  have allocated : (fs.allocated lba heap (allocatedInode lba .directory user.uid user.gid
      permissions fs.clock)).Consistent False none [] :=
    consistent.allocated vacant rfl Int.zero_lt_one (le_refl _) rfl rfl
  have new : (fs.allocated lba heap (allocatedInode lba .directory user.uid user.gid
      permissions fs.clock)).Core fs.nextRef _ := core_allocated
  have has : (fs.allocated lba heap (allocatedInode lba .directory user.uid user.gid
      permissions fs.clock)).hasNode lba = true := by
    change (lba == lba || _) = true
    simp
  have apart := consistent.table.ne_nextRef core.inUse
  have core' := (beside_allocated consistent vacant heap
    (allocatedInode_inid lba .directory user.uid user.gid permissions fs.clock)).core parent dir
      apart core
  have made := finishDirectory_leaves allocated new rfl lba
    (if 0 < toInt32 (dir.inid % 4294967296) then dir.inid else lba) has
  rw [Code.bind_of_ok created, Code.bind_assoc, Code.bind_of_ok (node_core new), allocatedInode_inid,
    Code.bind_apply] at fails
  rw [allocatedInode_inid] at made
  split at fails
  · next id middle finished =>
    rw [finished] at made
    obtain ⟨⟨consistent', nodes⟩, beside⟩ := made
    have parent' := beside.core parent dir apart core'
    have inserted := insertDirectoryEntry_spec name id (some lookup.empty)
      (Reached.start' parent' consistent') parent'
      (by rintro pointer same; rw [← Option.some.inj same]; exact into)
    rw [fails] at inserted
    exact traced_of_hasNode inserted.consistent vacant (by rw [inserted.frame.hasNode, nodes])
  · next cause middle finished =>
    rw [finished] at made
    simp only [Outcome.err.injEq] at fails
    rw [← fails.2]
    exact traced_of_hasNode made.1 vacant made.2
  · simp at fails

/-- A failed creation leaves no trace exactly when it fails before the node is
allocated: nobody unlinks the node again. -/
theorem failedCreation_untraced_iff (consistent : fs.Consistent False none []) (core : fs.Core parent dir)
    {user : User} {permissions : FilePermissions} {final : SerenaFS}
    (failed : FailedCreation fs name parent user permissions final) :
    Untraced fs parent dir final ↔ ¬ StartsNode fs parent dir name := by
  cases failed with
  | file fails back => exact createFile_failed consistent core fails back
  | directory fails => exact createDirectory_failed consistent core fails

end Calls

/-! ## Two small volumes -/

/-- A new volume of `blockCount` blocks whose root directory was acquired. -/
def rootedVolume (blockCount : Nat) : SerenaFS :=
  ((acquireRootNode (emptyVolume blockCount)).state?).getD (emptyVolume blockCount)

theorem rootedVolume_consistent {blockCount : Nat} (small : blockCount ≤ maxFormattedBlockCount)
    (mounts : (formatAndMount ⟨0, 0⟩ 0x1ed ⟨0, 0⟩ [] (emptyDisk blockCount)).isSome = true)
    (acquires : (acquireRootNode (emptyVolume blockCount)).value? = some 0) :
    (rootedVolume blockCount).Consistent False none [] := by
  have fresh := fresh_formatAndMount rfl small (formatAndMount_emptyDisk blockCount mounts)
  have consistent := (fresh.consistent small).loosen False.elim
  have has : (emptyVolume blockCount).hasNode (emptyVolume blockCount).rootDirLba = true :=
    (fresh.hasNode_iff _).mpr rfl
  have acquired := Outcome.eq_ok acquires (emptyVolume blockCount)
  change acquireNodeWithId _ _ = .ok 0 (rootedVolume blockCount) at acquired
  rcases acquireNodeWithId_cases consistent has with
    ⟨after, failed, -⟩ | ⟨ref, after, returned, state⟩
  · rw [failed] at acquired
    simp at acquired
  · rw [returned] at acquired
    simp only [Outcome.ok.injEq] at acquired
    rw [← acquired.2]
    exact consistent.acquired has state

/-- The volume is full before the file is made. -/
theorem fullVolume_untraced : ∃ dir final, (rootedVolume 4).Core 0 dir ∧
    FailedCreation (rootedVolume 4) [0x61] 0 ⟨0, 0⟩ 0x1a4 final ∧
      Untraced (rootedVolume 4) 0 dir final := by
  have core : (rootedVolume 4).Core 0 (((rootedVolume 4).inode 0).get (by decide +kernel)) :=
    ⟨by decide +kernel, by simp⟩
  have fails := Outcome.eq_ok (show (createFile [0x61] 0 ⟨0, 0⟩ 0 0x1a4 (rootedVolume 4)).value? =
    some ⟨some .ENOSPC, none⟩ by decide +kernel) (rootedVolume 4)
  have failed : FailedCreation (rootedVolume 4) [0x61] 0 ⟨0, 0⟩ 0x1a4 _ := .file fails rfl
  have consistent : (rootedVolume 4).Consistent False none [] :=
    rootedVolume_consistent (by decide) (by decide +kernel) (by decide +kernel)
  exact ⟨_, _, core, failed, (failedCreation_untraced_iff consistent core failed).mpr
    fun starts => starts.delivers.space (by decide +kernel)⟩

/-- The last block goes to the node of a directory that cannot hold its entries. -/
theorem lastBlock_traced :
    ¬ ∀ (fs final : SerenaFS) (parent : InodeRef) (dir : Inode) (name : PathComponent) (user : User)
      (permissions : FilePermissions), fs.Consistent False none [] → fs.Core parent dir →
      FailedCreation fs name parent user permissions final → Untraced fs parent dir final := by
  intro claim
  have core : (rootedVolume 5).Core 0 (((rootedVolume 5).inode 0).get (by decide +kernel)) :=
    ⟨by decide +kernel, by simp⟩
  have consistent : (rootedVolume 5).Consistent False none [] :=
    rootedVolume_consistent (by decide) (by decide +kernel) (by decide +kernel)
  have unmarked : isBlockInUse (rootedVolume 5).allocationBitmap 4 = false := by decide +kernel
  have marked : ((createDirectory [0x61] 0 ⟨0, 0⟩ 0x1ed (rootedVolume 5)).returned?.any fun returned =>
      !returned.1.toBool && isBlockInUse returned.2.allocationBitmap 4) = true := by
    decide +kernel
  cases call : createDirectory [0x61] 0 ⟨0, 0⟩ 0x1ed (rootedVolume 5) with
  | fault => simp [call, Outcome.returned?] at marked
  | ok result after => simp [call, Outcome.returned?, Except.toBool] at marked
  | err reason after =>
    simp only [call, Outcome.returned?, Option.any_some, Except.toBool, Bool.not_false, Bool.true_and] at marked
    have untraced := claim _ _ _ _ _ _ _ consistent core (.directory call)
    rw [untraced.bitmap, unmarked] at marked
    exact absurd marked (by decide)

end Apollo.Serenafs
