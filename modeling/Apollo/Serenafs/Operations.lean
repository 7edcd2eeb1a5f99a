import Apollo.Lib.Runs
import Apollo.Serenafs.NodeFrames

/-!
# The operations of a mounted volume

The calls that clients make, in any order.  A call may fail and the run goes on
with the state it left behind; a call that does not return ends the run.
-/

set_option autoImplicit false

namespace Apollo.Serenafs

open Lib

inductive Operation where
  | createFile (name : PathComponent) (parent : InodeRef) (user : User) (options : UInt32)
      (permissions : FilePermissions)
  | createDirectory (name : PathComponent) (parent : InodeRef) (user : User)
      (permissions : FilePermissions)
  | allocateNode (type : FileType) (uid gid : UInt32) (permissions : FilePermissions)
  | acquireNodeWithId (id : Nat)
  | reacquireNode (ref : InodeRef)
  | relinquishNode (ref : InodeRef)
  | xRead (ref : InodeRef) (offset : Int) (nBytesToRead : Nat)
  | xWrite (ref : InodeRef) (offset : Int) (data : List UInt8)
  | truncate (ref : InodeRef) (user : User) (length : Int)
  | unlink (nodeToUnlink parent : InodeRef) (user : User)
  | tick (now : TimeInterval)

def SerenaFS.withClock (fs : SerenaFS) (now : TimeInterval) : SerenaFS := { fs with clock := now }

/-- Runs the operation; the result is the reference that the client got. -/
def execute : Operation → FS (Option InodeRef)
  | .createFile name parent user options permissions => do
      let created ← createFile name parent user options permissions
      pure created.node
  | .createDirectory name parent user permissions => do
      createDirectory name parent user permissions
      pure none
  | .allocateNode type uid gid permissions => do
      let ref ← allocateNode type uid gid permissions
      pure (some ref)
  | .acquireNodeWithId id => do
      let ref ← acquireNodeWithId id
      pure (some ref)
  | .reacquireNode ref => do
      let ref ← reacquireNode ref
      pure (some ref)
  | .relinquishNode ref => do
      relinquishNode ref
      pure none
  | .xRead ref offset nBytesToRead => do
      let _ ← xRead ref offset nBytesToRead
      pure none
  | .xWrite ref offset data => do
      let _ ← xWrite ref offset data
      pure none
  | .truncate ref user length => do
      truncate ref user length
      pure none
  | .unlink nodeToUnlink parent user => do
      unlink nodeToUnlink parent user
      pure none
  | .tick now => do
      Code.modify fun fs => fs.withClock now
      pure none

/-! ## Creating and unlinking nodes -/

section Creating
variable {fs : SerenaFS} {strict : Prop} {parent : InodeRef} {dir : Inode}

variable {ref : InodeRef} {lba : Nat} {origin : SerenaFS} {name : PathComponent} {user : User}

theorem requireAccess_cases {value : Inode} (core : fs.Core ref value) (user : User)
    (mode : FilePermissions) :
    requireAccess ref user mode fs = .ok () fs ∨ ∃ reason, requireAccess ref user mode fs = .err reason fs := by
  unfold requireAccess
  rw [Code.bind_of_ok (node_core core), Code.bind_of_ok (Code.get_apply _)]
  cases checkAccessLocked fs value user mode.toUInt32 with
  | none => exact Or.inl rfl
  | some reason => exact Or.inr ⟨reason, rfl⟩

theorem SerenaFS.Table.ne_nextRef (table : fs.Table) (inUse : ref ∈ fs.inodesInUse) :
    ref ≠ fs.nextRef := by
  rintro rfl
  exact table.nextRef_notMem inUse

theorem core_allocated {heap : List Bool} {value : Inode} :
    (fs.allocated lba heap value).Core fs.nextRef value :=
  ⟨List.mem_append_right _ List.mem_cons_self, Function.update_self _ _ _⟩

theorem Acquired.core {id : Nat} {ref : InodeRef} {after : SerenaFS}
    (acquired : Acquired fs id ref after) : ∃ value, after.Core ref value := by
  cases acquired with
  | held core inid => exact ⟨_, core_setNode_self core _⟩
  | read heap absent =>
    exact ⟨_, List.mem_append_right _ List.mem_cons_self, Function.update_self _ _ _⟩

theorem SerenaFS.Consistent.hasNode_vacant (consistent : fs.Consistent strict none [])
    (vacant : fs.Vacant lba) : fs.hasNode lba = false := by
  cases has : fs.hasNode lba with
  | false => rfl
  | true =>
    have inode : fs.Holds (.inode lba) lba := ⟨has, rfl⟩
    have used := consistent.accounts.sound.covered (Or.inl inode)
    have unused := vacant.unused
    rw [used] at unused
    exact absurd unused (by decide)

/-- The reference to a linked node is given up after its content was worked on. -/
theorem Reached.relinquish {value : Inode}
    (reached : Reached origin ref value strict false [] fs) (linked : value.linkCount = 1) :
    (relinquishNode ref fs).Returned
      (fun _ after => after.Consistent strict none [] ∧ Beside ref value.inid origin after ∧
        Recounts ref (if value.useCount = 1 then none else some (value.useCount - 1, 1)) 0 origin after)
      (fun _ _ => False) := by
  obtain ⟨current, core, identity⟩ := reached.core
  have use : current.useCount = value.useCount := congrArg (·.2.1) identity
  have linkOne : current.linkCount = 1 := (congrArg (·.2.2.1) identity).trans linked
  have link : current.linkCount ≠ 0 := by omega
  have spec := relinquishNode_spec reached.consistent core (fun zero => absurd zero link)
    (fun _ zero => absurd zero link)
  cases call : relinquishNode ref fs with
  | fault => trivial
  | err reason after =>
    rw [call] at spec
    exact spec
  | ok result after =>
    rw [call] at spec
    have beside := beside_relinquish reached.consistent core (fun zero => absurd zero link) call
    rw [reached.inid core] at beside
    have recounts := (recounts_relinquish reached.consistent core (fun zero => absurd zero link)
      call).2
    rw [use, linkOne, if_neg one_ne_zero] at recounts
    exact ⟨spec, (Beside.of_reached reached).trans beside,
      (SameCounts.of_frame reached.frame).trans_recounts recounts⟩

theorem insertDotEntries_spec {value : Inode} (self up : Nat) :
    Code.Spec (Reached origin ref value strict false [])
      (do
        insertDirectoryEntry ref kPathComponentSelf self none
        insertDirectoryEntry ref kPathComponentParent up none)
      (fun _ => Reached origin ref value strict false [])
      (fun _ => Reached origin ref value strict false []) := by
  have insert : ∀ name id, Code.Spec (Reached origin ref value strict false [])
      (insertDirectoryEntry ref name id none) (fun _ => Reached origin ref value strict false [])
      (fun _ => Reached origin ref value strict false []) := by
    intro name id state reached
    obtain ⟨current, core, -⟩ := reached.core
    exact insertDirectoryEntry_spec name id none reached core (by simp)
  exact Code.spec_bind (insert _ _) (fun _ => insert _ _)

theorem SerenaFS.Consistent.hasNode_zero (consistent : fs.Consistent strict none []) :
    fs.hasNode 0 = false := by
  cases has : fs.hasNode 0 with
  | false => rfl
  | true =>
    have inode : fs.Holds (.inode 0) 0 := ⟨has, rfl⟩
    have header : fs.Holds .header 0 := rfl
    have roles := consistent.accounts.sound.exclusive (Or.inl inode) (Or.inl header)
    simp at roles

/-- A directory that is created touches no node that was there, and it leaves
the volume consistent even when its entries cannot be made. -/
theorem createDirectoryDiskNode_spec (consistent : fs.Consistent strict none []) (parentId : Nat)
    (uid gid : UInt32) (permissions : FilePermissions) :
    (createDirectoryDiskNode parentId uid gid permissions fs).Returned
      (fun id after => (after.Consistent strict none [] ∧ SameCounts fs after) ∧
        Beside fs.nextRef id fs after ∧ fs.hasNode id = false)
      (fun _ after => (after.Consistent strict none [] ∧ SameCounts fs after) ∧
        ∃ own, Beside fs.nextRef own fs after ∧ fs.hasNode own = false) := by
  unfold createDirectoryDiskNode
  rcases allocateNode_cases consistent.hardware .directory uid gid permissions with
    fault | ⟨reason, after, failed, state⟩ | ⟨lba, heap, vacant, created⟩
  · rw [Code.bind_of_fault fault]
    trivial
  · rw [Code.bind_of_err failed]
    exact ⟨⟨consistent.notAllocated state, state.sameCounts⟩, 0, state.beside consistent,
      consistent.hasNode_zero⟩
  have allocated : (fs.allocated lba heap (allocatedInode lba .directory uid gid permissions
      fs.clock)).Consistent strict none [] :=
    consistent.allocated vacant rfl Int.zero_lt_one (le_refl _) rfl rfl
  have core : (fs.allocated lba heap (allocatedInode lba .directory uid gid permissions
      fs.clock)).Core fs.nextRef _ := core_allocated
  have beside := beside_allocated consistent vacant heap
    (allocatedInode_inid lba .directory uid gid permissions fs.clock)
  rw [Code.bind_of_ok created, Code.bind_of_ok (node_core core)]
  have recounts := recounts_allocated consistent vacant heap
    (allocatedInode lba .directory uid gid permissions fs.clock)
  have unused := consistent.hasNode_vacant vacant
  generalize fs.allocated lba heap (allocatedInode lba .directory uid gid permissions fs.clock) =
    current at allocated core beside recounts ⊢
  have gives : Code.Spec
      (Reached current fs.nextRef (allocatedInode lba .directory uid gid permissions fs.clock)
        strict false []) (relinquishNode fs.nextRef)
      (fun _ after => (after.Consistent strict none [] ∧ SameCounts fs after) ∧
        Beside fs.nextRef lba fs after)
      (fun _ after => (after.Consistent strict none [] ∧ SameCounts fs after) ∧
        ∃ own, Beside fs.nextRef own fs after ∧ fs.hasNode own = false) := by
    intro state reached
    have returned := reached.relinquish rfl
    cases call : relinquishNode fs.nextRef state with
    | fault => trivial
    | err reason after =>
      rw [call] at returned
      exact returned.elim
    | ok result after =>
      rw [call] at returned
      obtain ⟨consistent', beside', recounts'⟩ := returned
      have unlisted : fs.counts fs.nextRef = none :=
        consistent.table.counts_none.mpr consistent.table.nextRef_notMem
      exact ⟨⟨consistent', (recounts.trans recounts').same unlisted⟩, beside.trans beside'⟩
  have cleans : Code.Spec _ (relinquishNode fs.nextRef)
      (fun _ after => (after.Consistent strict none [] ∧ SameCounts fs after) ∧
        ∃ own, Beside fs.nextRef own fs after ∧ fs.hasNode own = false) _ :=
    Code.spec_weaken gives (fun _ holds => holds) (fun _ _ held => ⟨held.1, lba, held.2, unused⟩)
      (fun _ _ held => held)
  have guarded := fun self up => Code.spec_onError (insertDotEntries_spec self up) (fun _ => cleans)
  refine Code.spec_bind (guarded _ _) (fun _ => Code.spec_bind gives fun _ => Code.spec_pure ?_)
    current (Reached.start' core allocated)
  rintro state ⟨kept, beside'⟩
  exact ⟨kept, beside', unused⟩

theorem createDirectory_spec (consistent : fs.Consistent strict none []) (core : fs.Core parent dir)
    (name : PathComponent) (user : User) (permissions : FilePermissions) :
    (createDirectory name parent user permissions fs).Returned
      (fun _ after => after.Consistent strict none [] ∧ SameCounts fs after)
      (fun _ after => after.Consistent strict none [] ∧ SameCounts fs after) := by
  have unchanged : fs.Consistent strict none [] ∧ SameCounts fs fs := ⟨consistent, SameCounts.refl fs⟩
  unfold createDirectory
  rw [Code.bind_of_ok (node_core core)]
  by_cases notDirectory : (!dir.isDirectory) = true
  · rw [if_pos notDirectory]
    exact unchanged
  rw [if_neg notDirectory]
  rcases requireAccess_cases core user kFilePermissionWrite with granted | ⟨reason, denied⟩
  swap
  · rw [Code.bind_of_err denied]
    exact unchanged
  rw [Code.bind_of_ok granted]
  rcases getDirectoryEntry_spec consistent core (.pathComponent name) true with
    fault | ⟨reason, failed⟩ | ⟨lookup, returned, into, -⟩
  · rw [Code.bind_of_fault fault]
    trivial
  · rw [Code.bind_of_err failed]
    exact unchanged
  rw [Code.bind_of_ok returned]
  cases found : lookup.found with
  | some entry => exact unchanged
  | none =>
    simp only
    have made := createDirectoryDiskNode_spec consistent dir.inid user.uid user.gid permissions
    cases call : createDirectoryDiskNode dir.inid user.uid user.gid permissions fs with
    | fault =>
      rw [Code.bind_of_fault call]
      trivial
    | err reason after =>
      rw [call] at made
      rw [Code.bind_of_err call]
      exact made.1
    | ok id after =>
      rw [call] at made
      obtain ⟨⟨consistent', same⟩, beside, -⟩ := made
      have core' := beside.core parent dir (consistent.table.ne_nextRef core.inUse) core
      have reached := Reached.start' core' consistent'
      have inserted := insertDirectoryEntry_spec name id (some lookup.empty) reached core'
        (by rintro pointer same; rw [← Option.some.inj same]; exact into)
      rw [Code.bind_of_ok call]
      cases insert : insertDirectoryEntry parent name id (some lookup.empty) after with
      | fault => trivial
      | err reason final =>
        rw [insert] at inserted
        exact ⟨inserted.consistent, same.trans (SameCounts.of_frame inserted.frame)⟩
      | ok result final =>
        rw [insert] at inserted
        exact ⟨inserted.consistent, same.trans (SameCounts.of_frame inserted.frame)⟩

theorem createFileLookup_cases (consistent : fs.Consistent strict none [])
    (core : fs.Core parent dir) (name : PathComponent) (user : User) (options : UInt32) :
    ScanReturns fs dir.blockMap (createFileLookup name parent user options fs) := by
  unfold createFileLookup
  rw [Code.bind_of_ok (node_core core)]
  by_cases notDirectory : (!dir.isDirectory) = true
  · rw [if_pos notDirectory]
    exact Or.inr (Or.inl ⟨_, rfl⟩)
  rw [if_neg notDirectory]
  rcases requireAccess_cases core user kFilePermissionWrite with granted | ⟨reason, denied⟩
  swap
  · exact Or.inr (Or.inl ⟨reason, Code.bind_of_err denied _⟩)
  rw [Code.bind_of_ok granted]
  rcases getDirectoryEntry_spec consistent core (.pathComponent name) true with
    fault | ⟨reason, failed⟩ | ⟨lookup, returned, into, pointers⟩
  · exact Or.inl (Code.bind_of_fault fault _)
  · exact Or.inr (Or.inl ⟨reason, Code.bind_of_err failed _⟩)
  rw [Code.bind_of_ok returned]
  cases found : lookup.found with
  | none => exact Or.inr (Or.inr ⟨lookup, rfl, into, pointers⟩)
  | some entry =>
    split_ifs
    · exact Or.inr (Or.inl ⟨_, rfl⟩)
    · exact Or.inr (Or.inr ⟨lookup, rfl, into, pointers⟩)

/-- The entry that `SerenaFS_createFile` finds under the name, if any, belongs to
a node that exists. -/
def SerenaFS.findsNode (fs : SerenaFS) (name : PathComponent) (parent : InodeRef) (user : User)
    (options : UInt32) : Bool :=
  ((createFileLookup name parent user options fs).value?.bind DirectoryLookup.found).all
    fun entry => fs.hasNode entry.id

theorem SerenaFS.hasNode_of_findsNode {options : UInt32}
    (finds : fs.findsNode name parent user options = true) {lookup : DirectoryLookup}
    {entry : DirectoryMatch} (returned : createFileLookup name parent user options fs = .ok lookup fs)
    (found : lookup.found = some entry) : fs.hasNode entry.id = true := by
  unfold SerenaFS.findsNode at finds
  simpa [returned, Outcome.value?, found] using finds

/-- The inode of the file that `SerenaFS_createFile` allocates on block `lba`. -/
def SerenaFS.newFile (fs : SerenaFS) (lba : Nat) (user : User) (permissions : FilePermissions) : Inode :=
  allocatedInode lba .regularFile user.uid user.gid permissions fs.clock

def errorOf {α : Type} : Except Errno α → Option Errno
  | .ok _ => none
  | .error reason => some reason

/-- Everything that `SerenaFS_createFile` may do. -/
inductive CreatesFile (fs : SerenaFS) (strict : Prop) (name : PathComponent) (parent : InodeRef)
    (dir : Inode) (user : User) (options : UInt32) (permissions : FilePermissions) :
    CreatedFile → SerenaFS → Prop
  | refused (reason : Errno) :
      CreatesFile fs strict name parent dir user options permissions ⟨some reason, none⟩ fs
  | notAcquired {after : SerenaFS} (reason : Errno) (failed : OutOfMemory fs after) :
      CreatesFile fs strict name parent dir user options permissions ⟨some reason, none⟩ after
  | acquired {lookup : DirectoryLookup} {entry : DirectoryMatch} {ref : InodeRef} {value : Inode}
      {middle after : SerenaFS} (returned : createFileLookup name parent user options fs = .ok lookup fs)
      (found : lookup.found = some entry) (has : fs.hasNode entry.id = true)
      (acquired : Acquired fs entry.id ref middle)
      (truncates : truncateIf (options &&& kOpenTruncate = kOpenTruncate) ref middle = .ok () after)
      (reached : Reached middle ref value strict false [] after) :
      CreatesFile fs strict name parent dir user options permissions ⟨none, some ref⟩ after
  | notAllocated {after : SerenaFS} (reason : Errno) (failed : NotAllocated fs after) :
      CreatesFile fs strict name parent dir user options permissions ⟨some reason, none⟩ after
  | allocated {lookup : DirectoryLookup} {lba : Nat} {heap : List Bool} {after : SerenaFS}
      (result : Except Errno Unit)
      (returned : createFileLookup name parent user options fs = .ok lookup fs)
      (found : lookup.found = none) (vacant : fs.Vacant lba)
      (inserts : (insertDirectoryEntry parent name lba (some lookup.empty)
        (fs.allocated lba heap (fs.newFile lba user permissions))).returned? = some (result, after))
      (reached : Reached (fs.allocated lba heap (fs.newFile lba user permissions)) parent dir strict
        false [] after) :
      CreatesFile fs strict name parent dir user options permissions
        ⟨errorOf result, some fs.nextRef⟩ after

theorem createFile_cases (consistent : fs.Consistent strict none []) (core : fs.Core parent dir)
    (name : PathComponent) (user : User) (options : UInt32) (permissions : FilePermissions)
    (finds : fs.findsNode name parent user options = true) :
    createFile name parent user options permissions fs = .fault ∨
      ∃ created after, createFile name parent user options permissions fs = .ok created after ∧
        CreatesFile fs strict name parent dir user options permissions created after := by
  unfold createFile
  rcases createFileLookup_cases consistent core name user options with
    fault | ⟨reason, failed⟩ | ⟨lookup, returned, into, -⟩
  · exact Or.inl (Code.bind_of_fault (attempt_of_fault fault) _)
  · exact Or.inr ⟨_, _, Code.bind_of_ok (attempt_of_err failed) _, .refused reason⟩
  rw [Code.bind_of_ok (attempt_of_ok returned)]
  simp only
  cases found : lookup.found with
  | some entry =>
    simp only
    have has := SerenaFS.hasNode_of_findsNode finds returned found
    rcases acquireNodeWithId_cases consistent has with
      ⟨after, failed, state⟩ | ⟨ref, after, acquired, state⟩
    · exact Or.inr ⟨_, _, Code.bind_of_ok (attempt_of_err failed) _, .notAcquired _ state⟩
    rw [Code.bind_of_ok (attempt_of_ok acquired)]
    have consistent' := consistent.acquired has state
    obtain ⟨value, core'⟩ := state.core
    have start := Reached.start' core' consistent'
    have truncates : truncateIf (options &&& kOpenTruncate = kOpenTruncate) ref after = .fault ∨
        ∃ final, truncateIf (options &&& kOpenTruncate = kOpenTruncate) ref after = .ok () final ∧
          Reached after ref value strict false [] final := by
      unfold truncateIf
      split_ifs
      · rcases xTruncateFile_spec 0 start core' with fault | ⟨final, truncated, -, reached, -⟩
        · exact Or.inl fault
        · exact Or.inr ⟨final, truncated, reached⟩
      · exact Or.inr ⟨after, rfl, start⟩
    rcases truncates with fault | ⟨final, truncated, reached⟩
    · exact Or.inl (Code.bind_of_fault fault _)
    · exact Or.inr ⟨_, _, Code.bind_of_ok truncated _, .acquired returned found has state truncated reached⟩
  | none =>
    simp only
    rcases allocateNode_cases consistent.hardware .regularFile user.uid user.gid permissions with
      fault | ⟨reason, after, failed, state⟩ | ⟨lba, heap, vacant, created⟩
    · exact Or.inl (Code.bind_of_fault (attempt_of_fault fault) _)
    · exact Or.inr ⟨_, _, Code.bind_of_ok (attempt_of_err failed) _, .notAllocated _ state⟩
    change _ = Outcome.ok fs.nextRef (fs.allocated lba heap (fs.newFile lba user permissions)) at created
    have inid : (fs.newFile lba user permissions).inid = lba := rfl
    have allocated : (fs.allocated lba heap (fs.newFile lba user permissions)).Consistent strict none [] :=
      consistent.allocated vacant rfl Int.zero_lt_one (le_refl _) rfl rfl
    have new : (fs.allocated lba heap (fs.newFile lba user permissions)).Core fs.nextRef _ :=
      core_allocated
    have beside := beside_allocated consistent vacant heap inid
    have core' := beside.core parent dir (consistent.table.ne_nextRef core.inUse) core
    rw [Code.bind_of_ok (attempt_of_ok created)]
    simp only
    rw [Code.bind_of_ok (node_core new), inid]
    have inserted := insertDirectoryEntry_spec name lba (some lookup.empty)
      (Reached.start' core' allocated) core'
      (by rintro pointer same; rw [← Option.some.inj same]; exact into)
    have made : ∀ (result : Except Errno Unit) final,
        (insertDirectoryEntry parent name lba (some lookup.empty)
          (fs.allocated lba heap (fs.newFile lba user permissions))).returned? = some (result, final) →
        Reached (fs.allocated lba heap (fs.newFile lba user permissions)) parent dir strict false []
          final →
        CreatesFile fs strict name parent dir user options permissions
          ⟨errorOf result, some fs.nextRef⟩ final :=
      fun result final inserts reached => .allocated result returned found vacant inserts reached
    generalize fs.allocated lba heap (fs.newFile lba user permissions) = current at inserted made ⊢
    cases insert : insertDirectoryEntry parent name lba (some lookup.empty) current with
    | fault => exact Or.inl (Code.bind_of_fault (attempt_of_fault insert) _)
    | err reason final =>
      rw [insert] at inserted
      exact Or.inr ⟨_, _, Code.bind_of_ok (attempt_of_err insert) _,
        made (.error reason) final (by rw [insert]; rfl) inserted⟩
    | ok result final =>
      rw [insert] at inserted
      exact Or.inr ⟨_, _, Code.bind_of_ok (attempt_of_ok insert) _,
        made (.ok ()) final (by rw [insert]; rfl) inserted⟩

theorem CreatesFile.consistent {options : UInt32}
    {permissions : FilePermissions} {created : CreatedFile} {after : SerenaFS}
    (consistent : fs.Consistent strict none [])
    (creates : CreatesFile fs strict name parent dir user options permissions created after) :
    after.Consistent strict none [] := by
  cases creates with
  | refused reason => exact consistent
  | notAcquired reason failed => exact consistent.outOfMemory failed
  | acquired returned found has acquired truncates reached => exact reached.consistent
  | notAllocated reason failed => exact consistent.notAllocated failed
  | allocated result returned found vacant inserts reached => exact reached.consistent

def unlinked (value : Inode) : Inode :=
  { value with linkCount := value.linkCount - 1, statusChanged := true }

/-- Everything that `SerenaFS_unlink` may do. -/
inductive Unlinks (fs : SerenaFS) (strict : Prop) (ref : InodeRef) (value : Inode) (parent : InodeRef)
    (dir : Inode) : Outcome SerenaFS Errno Unit → Prop
  | fault : Unlinks fs strict ref value parent dir .fault
  | refused (reason : Errno) : Unlinks fs strict ref value parent dir (.err reason fs)
  | notRemoved {after : SerenaFS} (reason : Errno)
      (removes : removeDirectoryEntry parent value.inid fs = .err reason after)
      (reached : Reached fs parent dir strict false [] after) :
      Unlinks fs strict ref value parent dir (.err reason after)
  | unlinked {removed middle : SerenaFS} {dir' value' : Inode}
      (empty : value.isDirectory = true → directoryNodeIsEmpty value = true)
      (removes : removeDirectoryEntry parent value.inid fs = .ok () removed)
      (directory : removed.Core parent dir') (dirty : Reached fs parent dir strict true [] removed)
      (truncates : xTruncateFile parent dir'.size removed = .ok () middle)
      (reached : Reached fs parent dir strict false [] middle) (core : middle.Core ref value') :
      Unlinks fs strict ref value parent dir (.ok () (middle.setNode ref (some (unlinked value'))))

theorem unlink_cases (consistent : fs.Consistent strict none []) {value : Inode}
    (core : fs.Core ref value) (directory : fs.Core parent dir) (user : User) :
    Unlinks fs strict ref value parent dir (unlink ref parent user fs) := by
  have start := Reached.start' directory consistent
  unfold unlink
  rcases requireAccess_cases directory user kFilePermissionWrite with granted | ⟨reason, denied⟩
  swap
  · rw [Code.bind_of_err denied]
    exact .refused reason
  rw [Code.bind_of_ok granted, Code.bind_of_ok (node_core core)]
  by_cases busy : (value.isDirectory && !directoryNodeIsEmpty value) = true
  · rw [if_pos busy]
    exact .refused .EBUSY
  rw [if_neg busy]
  have empty : value.isDirectory = true → directoryNodeIsEmpty value = true := by
    intro isDirectory
    simpa [isDirectory] using busy
  have removed := removeDirectoryEntry_spec value.inid fs start
  cases remove : removeDirectoryEntry parent value.inid fs with
  | fault =>
    rw [Code.bind_of_fault remove]
    exact .fault
  | err reason after =>
    rw [remove] at removed
    rw [Code.bind_of_err remove]
    exact .notRemoved reason remove removed
  | ok result after =>
    rw [remove] at removed
    obtain ⟨dir', directory', -⟩ := removed.core
    rw [Code.bind_of_ok remove, Code.bind_of_ok (node_core directory')]
    rcases xTruncateFile_spec dir'.size removed directory' with
      fault | ⟨final, truncated, -, reached, -⟩
    · rw [Code.bind_of_fault fault]
      exact .fault
    rw [Code.bind_of_ok truncated]
    obtain ⟨value', core', -, -⟩ := reached.frame.core core
    rw [updateNode_core core']
    exact .unlinked empty remove directory' removed truncated reached core'

theorem SerenaFS.Consistent.unlinked {ref : InodeRef} {value : Inode}
    (consistent : fs.Consistent strict none []) (core : fs.Core ref value) :
    (fs.setNode ref (some (unlinked value))).Consistent strict none [] := by
  have linked := consistent.table.linked ref value core
  refine consistent.setNode core rfl rfl (consistent.table.counted ref value core) ?_
    (fun _ _ _ => by simp) ?_
  · change value.linkCount - 1 ≤ 1
    omega
  · intro _ unmodified
    simp [Inode.isModified, Serenafs.unlinked] at unmodified

end Creating

/-! ## Runs -/

def Operation.references : Operation → List InodeRef
  | .createFile _ parent _ _ _ => [parent]
  | .createDirectory _ parent _ _ => [parent]
  | .allocateNode _ _ _ _ => []
  | .acquireNodeWithId _ => []
  | .reacquireNode ref => [ref]
  | .relinquishNode ref => [ref]
  | .xRead ref _ _ => [ref]
  | .xWrite ref _ _ => [ref]
  | .truncate ref _ _ => [ref]
  | .unlink nodeToUnlink parent _ => [nodeToUnlink, parent]
  | .tick _ => []

structure Call where
  operation : Operation
  result : Except Errno (Option InodeRef)

def Call.acquired (call : Call) : Option InodeRef :=
  match call.result with
  | .ok ref => ref
  | .error _ => none

def Call.relinquished (call : Call) : Option InodeRef :=
  match call.operation, call.result with
  | .relinquishNode ref, .ok _ => some ref
  | _, _ => none

def Call.unlinked (call : Call) : Option InodeRef :=
  match call.operation, call.result with
  | .unlink ref _ _, .ok _ => some ref
  | _, _ => none

def acquisitions (ref : InodeRef) (calls : List Call) : Nat := calls.countP (·.acquired = some ref)

def relinquishments (ref : InodeRef) (calls : List Call) : Nat :=
  calls.countP (·.relinquished = some ref)

def unlinks (ref : InodeRef) (calls : List Call) : Nat := calls.countP (·.unlinked = some ref)

structure Performs (fs : SerenaFS) (call : Call) (after : SerenaFS) : Prop where
  inUse : ∀ ref ∈ call.operation.references, ref ∈ fs.inodesInUse
  returns : (execute call.operation fs).returned? = some (call.result, after)

/-- A node that was unlinked is given up only by its last user, and a node is
acquired only while it exists. -/
def Operation.orderly (fs : SerenaFS) : Operation → Bool
  | .createFile name parent user options _ => fs.findsNode name parent user options
  | .acquireNodeWithId id => fs.hasNode id
  | .relinquishNode ref =>
    (fs.inode ref).all fun value => value.linkCount ≠ 0 || value.useCount = 1
  | _ => true

def Operation.gapless (fs : SerenaFS) : Operation → Bool
  | .relinquishNode ref =>
    (fs.inode ref).all fun value => value.linkCount ≠ 0 || Dense value.blockMap
  | _ => true

section Runs
variable {fs after : SerenaFS} {strict : Prop}

theorem sameNodes_withClock (now : TimeInterval) : SameNodes fs (fs.withClock now) :=
  ⟨fun _ _ => ⟨fun held => ⟨held.inUse, held.stored⟩, fun held => ⟨held.inUse, held.stored⟩⟩,
    fun _ => rfl, fun _ _ _ => rfl⟩

theorem SerenaFS.Consistent.withClock (consistent : fs.Consistent strict none []) (now : TimeInterval) :
    (fs.withClock now).Consistent strict none [] :=
  consistent.of_sameNodes (sameNodes_withClock now) rfl
    (consistent.hardware.of_eq rfl rfl rfl rfl rfl rfl)
    (consistent.accounts.sameNodes (sameNodes_withClock now) rfl rfl rfl rfl)
    consistent.table.nodup consistent.table.fresh consistent.table.known

theorem returned_then {α β : Type} {code : FS α} {post : SerenaFS → Prop} (result : α → β)
    (returned : (code fs).Returned (fun _ => post) (fun _ => post)) :
    ((do let value ← code; pure (result value) : FS β) fs).Returned (fun _ => post) (fun _ => post) := by
  cases call : code fs with
  | fault =>
    rw [Code.bind_of_fault call]
    trivial
  | err reason final =>
    rw [call] at returned
    rw [Code.bind_of_err call]
    exact returned
  | ok value final =>
    rw [call] at returned
    rw [Code.bind_of_ok call]
    exact returned

theorem execute_consistent (consistent : fs.Consistent strict none []) (operation : Operation)
    (inUse : ∀ ref ∈ operation.references, ref ∈ fs.inodesInUse) (orderly : operation.orderly fs = true)
    (gapless : strict → operation.gapless fs = true) :
    (execute operation fs).Returned (fun _ final => final.Consistent strict none [])
      (fun _ final => final.Consistent strict none []) := by
  have held : ∀ ref ∈ operation.references, ∃ value, fs.Core ref value := by
    intro ref member
    obtain ⟨value, stored⟩ := consistent.table.known ref (inUse ref member)
    exact ⟨value, inUse ref member, stored⟩
  have content : ∀ {α : Type} {code : FS α} {ref : InodeRef} {value : Inode},
      fs.Core ref value →
      Code.Spec (Reached fs ref value strict false []) code
        (fun _ => Reached fs ref value strict false []) (fun _ => Reached fs ref value strict false []) →
      (code fs).Returned (fun _ final => final.Consistent strict none [])
        (fun _ final => final.Consistent strict none []) := by
    intro α code ref value core spec
    exact Code.spec_weaken spec (fun _ holds => holds) (fun _ _ reached => reached.consistent)
      (fun _ _ reached => reached.consistent) fs (Reached.start' core consistent)
  cases operation with
  | createFile name parent user options permissions =>
    obtain ⟨dir, core⟩ := held parent (by simp [Operation.references])
    refine returned_then _ ?_
    rcases createFile_cases consistent core name user options permissions orderly with
      fault | ⟨created, final, returned, creates⟩
    · rw [fault]
      trivial
    · rw [returned]
      exact creates.consistent consistent
  | createDirectory name parent user permissions =>
    obtain ⟨dir, core⟩ := held parent (by simp [Operation.references])
    refine returned_then _ (Outcome.Returned.mono (fun _ _ made => made.1)
      (fun _ _ made => made.1) (createDirectory_spec consistent core name user permissions))
  | allocateNode type uid gid permissions =>
    refine returned_then _ ?_
    rcases allocateNode_cases consistent.hardware type uid gid permissions with
      fault | ⟨reason, final, failed, state⟩ | ⟨lba, heap, vacant, created⟩
    · rw [fault]
      trivial
    · rw [failed]
      exact consistent.notAllocated state
    · rw [created]
      exact consistent.allocated vacant rfl Int.zero_lt_one (le_refl _) rfl rfl
  | acquireNodeWithId id =>
    refine returned_then _ ?_
    rcases acquireNodeWithId_cases consistent orderly with
      ⟨final, failed, state⟩ | ⟨ref, final, acquired, state⟩
    · rw [failed]
      exact consistent.outOfMemory state
    · rw [acquired]
      exact consistent.acquired orderly state
  | reacquireNode ref =>
    obtain ⟨value, core⟩ := held ref (by simp [Operation.references])
    refine returned_then _ ?_
    rw [reacquireNode_core core]
    exact consistent.reacquire core
  | relinquishNode ref =>
    obtain ⟨value, core⟩ := held ref (by simp [Operation.references])
    simp only [Operation.orderly, Operation.gapless, core.stored, Option.all_some, ne_eq,
      Bool.or_eq_true, decide_eq_true_eq] at orderly gapless
    have spec := relinquishNode_spec consistent core
      (fun unlinked => orderly.resolve_left (not_not.mpr unlinked))
      (fun isStrict unlinked => (gapless isStrict).resolve_left (not_not.mpr unlinked))
    refine returned_then _ ?_
    cases call : relinquishNode ref fs with
    | fault => trivial
    | err reason final =>
      rw [call] at spec
      exact spec.elim
    | ok result final =>
      rw [call] at spec
      exact spec
  | xRead ref offset nBytesToRead =>
    obtain ⟨value, core⟩ := held ref (by simp [Operation.references])
    exact returned_then _ (content core (xRead_spec offset nBytesToRead))
  | xWrite ref offset data =>
    obtain ⟨value, core⟩ := held ref (by simp [Operation.references])
    exact returned_then _ (content core (xWrite_spec offset data))
  | truncate ref user length =>
    obtain ⟨value, core⟩ := held ref (by simp [Operation.references])
    exact returned_then _ (content core (truncate_spec user length))
  | unlink nodeToUnlink parent user =>
    obtain ⟨value, core⟩ := held nodeToUnlink (by simp [Operation.references])
    obtain ⟨dir, directory⟩ := held parent (by simp [Operation.references])
    refine returned_then _ ?_
    have unlinks := unlink_cases consistent core directory user
    generalize unlink nodeToUnlink parent user fs = outcome at unlinks ⊢
    cases unlinks with
    | fault => trivial
    | refused reason => exact consistent
    | notRemoved reason removes reached => exact reached.consistent
    | unlinked empty removes held dirty truncates reached core' =>
      exact reached.consistent.unlinked core'
  | tick now => exact consistent.withClock now

def OrderlyStep (fs : SerenaFS) (call : Call) (after : SerenaFS) : Prop :=
  call.operation.orderly fs = true ∧ Performs fs call after

theorem Performs.cases {call : Call} (performs : Performs fs call after) :
    (∃ result, call.result = .ok result ∧ execute call.operation fs = .ok result after) ∨
      ∃ reason, call.result = .error reason ∧ execute call.operation fs = .err reason after := by
  have returns := performs.returns
  cases outcome : execute call.operation fs with
  | fault => simp [outcome, Outcome.returned?] at returns
  | err reason final =>
    simp only [outcome, Outcome.returned?, Option.some.injEq, Prod.mk.injEq] at returns
    exact Or.inr ⟨reason, returns.1.symm, by rw [returns.2]⟩
  | ok result final =>
    simp only [outcome, Outcome.returned?, Option.some.injEq, Prod.mk.injEq] at returns
    exact Or.inl ⟨result, returns.1.symm, by rw [returns.2]⟩

theorem OrderlyStep.consistent {call : Call} (step : OrderlyStep fs call after)
    (consistent : fs.Consistent strict none [])
    (gapless : strict → call.operation.gapless fs = true) : after.Consistent strict none [] := by
  obtain ⟨orderly, performs⟩ := step
  have returned := execute_consistent consistent call.operation performs.inUse orderly gapless
  rcases performs.cases with ⟨result, -, call⟩ | ⟨reason, -, call⟩
  · rw [call] at returned
    exact returned
  · rw [call] at returned
    exact returned

end Runs

/-! ## Concrete runs -/

/-- Performs the operations one after the other, as long as each is admitted; the
calls are kept newest first. -/
def performAll (admits : SerenaFS → Operation → Bool) :
    List Operation → List Call → SerenaFS → Option (List Call × SerenaFS)
  | [], calls, fs => some (calls, fs)
  | operation :: rest, calls, fs =>
    if admits fs operation && operation.references.all (fs.inodesInUse.contains ·) then
      match (execute operation fs).returned? with
      | some (result, after) => performAll admits rest (⟨operation, result⟩ :: calls) after
      | none => none
    else none

theorem runs_performAll {admits : SerenaFS → Operation → Bool} {start fs final : SerenaFS}
    {operations : List Operation} {calls calls' : List Call}
    (run : Runs (fun fs call after => admits fs call.operation = true ∧ Performs fs call after)
      start calls fs)
    (performs : performAll admits operations calls fs = some (calls', final)) :
    Runs (fun fs call after => admits fs call.operation = true ∧ Performs fs call after)
      start calls' final := by
  induction operations generalizing fs calls with
  | nil =>
    simp only [performAll, Option.some.injEq, Prod.mk.injEq] at performs
    rw [← performs.1, ← performs.2]
    exact run
  | cons operation rest ih =>
    unfold performAll at performs
    split_ifs at performs with allowed
    rw [Bool.and_eq_true] at allowed
    cases returned : (execute operation fs).returned? with
    | none => simp [returned] at performs
    | some pair =>
      obtain ⟨result, after⟩ := pair
      simp only [returned] at performs
      have inUse : ∀ ref ∈ operation.references, ref ∈ fs.inodesInUse := by
        simpa using allowed.2
      have taken : Performs fs ⟨operation, result⟩ after := ⟨inUse, returned⟩
      exact ih (run.step ⟨allowed.1, taken⟩) performs

end Apollo.Serenafs
