import Apollo.Serenafs.NodeSpecs

/-!
# What the node operations leave alone

A call that allocates, acquires or relinquishes a node touches that node only:
the inodes of the others, their disk nodes and their content stay as they are.
-/

set_option autoImplicit false

namespace Apollo.Serenafs

open Lib

structure Beside (ref : InodeRef) (own : Nat) (fs after : SerenaFS) : Prop where
  volume : after.volumeBlockCount = fs.volumeBlockCount
  hasNode : ∀ id, id ≠ own → after.hasNode id = fs.hasNode id
  core : ∀ r value, r ≠ ref → fs.Core r value → after.Core r value
  isNode : ∀ id view, id ≠ own → fs.IsNode id view → after.IsNode id view
  content : ∀ id view index, id ≠ own → fs.IsNode id view → view.blockMap index ≠ 0 →
    after.disk.block (view.blockMap index) = fs.disk.block (view.blockMap index)

namespace Beside
variable {ref : InodeRef} {own : Nat} {fs middle after : SerenaFS} {strict : Prop}
variable {dirty : Option InodeRef} {pending : List Nat} {value value' : Inode} {lba : Nat}

theorem refl (fs : SerenaFS) : Beside ref own fs fs :=
  ⟨rfl, fun _ _ => rfl, fun _ _ _ core => core, fun _ _ _ isNode => isNode, fun _ _ _ _ _ _ => rfl⟩

theorem trans (first : Beside ref own fs middle) (second : Beside ref own middle after) :
    Beside ref own fs after where
  volume := second.volume.trans first.volume
  hasNode id different := (second.hasNode id different).trans (first.hasNode id different)
  core r value different core := second.core r value different (first.core r value different core)
  isNode id view different isNode :=
    second.isNode id view different (first.isNode id view different isNode)
  content id view index different isNode nonzero := by
    rw [second.content id view index different (first.isNode id view different isNode) nonzero,
      first.content id view index different isNode nonzero]

theorem of_frame (frame : Frame ref own fs after)
    (owns : ∀ value, fs.Core ref value → value.inid = own) : Beside ref own fs after where
  volume := frame.volume
  hasNode id _ := frame.hasNode id
  core r value different core := by
    obtain ⟨new, core', -, unchanged⟩ := frame.core core
    rw [← unchanged different]
    exact core'
  isNode id view different isNode := (frame.isNode_iff owns different view).mpr isNode
  content := frame.content

theorem of_reached {origin : SerenaFS} {dirty : Bool}
    (reached : Reached origin ref value strict dirty pending fs) :
    Beside ref value.inid origin fs := of_frame reached.frame reached.owns

theorem of_sameNodes (same : SameNodes fs after) (volume : after.volumeBlockCount = fs.volumeBlockCount)
    (content : ∀ id view index, fs.IsNode id view → view.blockMap index ≠ 0 →
      after.disk.block (view.blockMap index) = fs.disk.block (view.blockMap index)) :
    Beside ref own fs after where
  volume := volume
  hasNode id _ := same.hasNode id
  core r value _ core := (same.core_iff r value).mpr core
  isNode id view _ isNode := (same.isNode_iff id view).mpr isNode
  content id view index _ isNode nonzero := content id view index isNode nonzero

theorem withHeap (heap : List Bool) : Beside ref own fs (fs.withHeap heap) := by
  refine of_sameNodes ⟨fun r found => ?_, fun _ => rfl, fun _ _ _ => rfl⟩ rfl (fun _ _ _ _ _ => rfl)
  exact ⟨fun held => ⟨held.inUse, held.stored⟩, fun held => ⟨held.inUse, held.stored⟩⟩

theorem mark (accounts : fs.Accounts strict pending) (geometry : fs.Geometry)
    (inside : lba / 8 < fs.allocationBitmap.length) (inUse : Bool) :
    Beside ref own fs (fs.mark lba inUse) := by
  refine of_sameNodes (sameNodes_mark accounts geometry inside inUse) rfl ?_
  intro id view index isNode nonzero
  -- any node but `id` may serve as the node of the frame
  have frame : Frame 0 (id + 1) fs (fs.mark lba inUse) := frame_mark accounts geometry inside inUse
  exact frame.content id view index (by omega) isNode nonzero

theorem setNode (table : fs.Table) (core : fs.Core ref value) (inid : value'.inid = value.inid)
    (own_eq : value.inid = own) : Beside ref own fs (fs.setNode ref (some value')) where
  volume := rfl
  hasNode _ _ := rfl
  core r found different held := (core_setNode core r found).mpr (Or.inr ⟨different, held⟩)
  isNode id view different isNode := by
    rw [isNode_setNode core inid table, if_neg (by rw [own_eq]; exact different)]
    exact isNode
  content _ _ _ _ _ _ := rfl

theorem orphan (table : fs.Table) : Beside ref own fs (fs.orphan value) := by
  refine of_sameNodes ⟨fun r found => ?_, fun _ => rfl, fun _ _ _ => rfl⟩ rfl (fun _ _ _ _ _ => rfl)
  exact core_orphan table r found

theorem install (table : fs.Table) (own_eq : value.inid = own) :
    Beside fs.nextRef own fs (fs.install value) where
  volume := rfl
  hasNode _ _ := rfl
  core r found _ held := (core_install table r found).mpr (Or.inl held)
  isNode id view different isNode := by
    cases isNode with
    | core held => exact .core ((core_install table _ _).mpr (Or.inl held))
    | disk has absent =>
      refine .disk has fun r found held => ?_
      rcases (core_install table r found).mp held with old | ⟨-, rfl⟩
      · exact absent r found old
      · rw [own_eq]
        exact different.symm
  content _ _ _ _ _ _ := rfl

theorem logged {event : NodeEvent} (about : event = .allocated own ∨ event = .removed ref own) :
    Beside ref own fs (fs.logged event) where
  volume := rfl
  hasNode id different := by
    rcases about with rfl | rfl
    · change (id == own || fs.hasNode id) = fs.hasNode id
      simp [different]
    · change (id != own && fs.hasNode id) = fs.hasNode id
      simp [different]
  core _ _ _ held := ⟨held.inUse, held.stored⟩
  isNode id view different isNode := by
    cases isNode with
    | @core r found held =>
      have held' : (fs.logged event).Core r found := ⟨held.inUse, held.stored⟩
      exact .core held'
    | disk has absent =>
      have has' : (fs.logged event).hasNode id = true := by
        rcases about with rfl | rfl
        · change (id == own || fs.hasNode id) = true
          rw [has, Bool.or_true]
        · change (id != own && fs.hasNode id) = true
          rw [has, Bool.and_true, bne_iff_ne]
          exact different
      have absent' : (fs.logged event).Absent id := fun r found held =>
        absent r found ⟨held.inUse, held.stored⟩
      exact .disk has' absent'
  content _ _ _ _ _ _ := rfl

theorem evict (table : fs.Table) (core : fs.Core ref value) (own_eq : value.inid = own) :
    Beside ref own fs (fs.evict ref) where
  volume := rfl
  hasNode _ _ := rfl
  core r found different held := (core_evict table r found).mpr ⟨held, different⟩
  isNode id view different isNode := by
    cases isNode with
    | @core r found held =>
      have other : r ≠ ref := by
        rintro rfl
        rw [held.value_eq core] at different
        exact different own_eq
      exact .core ((core_evict table r found).mpr ⟨held, other⟩)
    | disk has absent =>
      exact .disk has fun r found held => absent r found ((core_evict table r found).mp held).1
  content _ _ _ _ _ _ := rfl

theorem writeBlock_content (accounts : fs.Accounts strict pending) (has : fs.hasNode own = true)
    (block : Block) {id : Nat} {view : NodeView} (isNode : fs.IsNode id view)
    {index : Fin kSFSMaxDirectDataBlockPointers} (present : view.blockMap index ≠ 0) :
    (fs.writeBlock own block).disk.block (view.blockMap index) = fs.disk.block (view.blockMap index) := by
  have content : fs.Holds (.content id index) (view.blockMap index) := ⟨view, isNode, rfl, present⟩
  refine Function.update_of_ne ?_ _ _
  intro same
  rw [same] at content
  rw [accounts.hasNode_of_holds (Or.inl content) (by simp)] at has
  exact absurd has (by decide)

theorem writeInode (accounts : fs.Accounts strict pending) (has : fs.hasNode own = true)
    (block : Block) : Beside ref own fs (fs.writeBlock own block) where
  volume := rfl
  hasNode _ _ := rfl
  core r found _ held := (core_writeBlock _ _ r found).mpr held
  isNode id view different isNode := by
    cases isNode with
    | core held => exact .core ((core_writeBlock _ _ _ _).mpr held)
    | disk has' absent =>
      have same : (fs.writeBlock own block).disk.block id = fs.disk.block id :=
        Function.update_of_ne different _ _
      rw [← same]
      exact .disk has' fun r found held => absent r found ((core_writeBlock _ _ r found).mp held)
  content _ _ _ _ isNode present := writeBlock_content accounts has block isNode present

theorem release {blocks : List Nat} (consistent : fs.Consistent strict dirty blocks)
    (nodup : blocks.Nodup) : Beside ref own fs (fs.release blocks) := by
  induction blocks generalizing fs with
  | nil => exact refl fs
  | cons lba rest ih =>
    obtain ⟨once, nodup⟩ := List.nodup_cons.mp nodup
    have claimed : (fs.ledger (lba :: rest)).holds (.pending lba) lba :=
      Or.inr ⟨rfl, List.mem_cons_self⟩
    have inside := lt_length_of_isBlockInUse (consistent.accounts.sound.covered claimed)
    exact (mark consistent.accounts consistent.hardware.geometry inside false).trans
      (ih (consistent.mark_false once inside) nodup)

end Beside

/-! ## Use counts and link counts -/

def SerenaFS.counts (fs : SerenaFS) (ref : InodeRef) : Option (Int × Int) :=
  if ref ∈ fs.inodesInUse then (fs.inode ref).map fun value => (value.useCount, value.linkCount)
  else none

def NodeEvent.isRemovalOf (ref : InodeRef) : NodeEvent → Bool
  | .allocated _ => false
  | .removed node _ => node == ref

def SerenaFS.removals (fs : SerenaFS) (ref : InodeRef) : Nat :=
  fs.nodeLog.countP (NodeEvent.isRemovalOf ref)

variable {fs : SerenaFS} {ref : InodeRef}

theorem SerenaFS.Core.counts {value : Inode}
    (core : fs.Core ref value) : fs.counts ref = some (value.useCount, value.linkCount) := by
  unfold SerenaFS.counts
  rw [if_pos core.inUse, core.stored]
  rfl

theorem counts_eq_some {use link : Int}
    (counted : fs.counts ref = some (use, link)) :
    ∃ value, fs.Core ref value ∧ value.useCount = use ∧ value.linkCount = link := by
  unfold SerenaFS.counts at counted
  split_ifs at counted with inUse
  obtain ⟨value, stored, same⟩ := Option.map_eq_some_iff.mp counted
  simp only [Prod.mk.injEq] at same
  exact ⟨value, ⟨inUse, stored⟩, same.1, same.2⟩

theorem SerenaFS.Table.counts_none (table : fs.Table) :
    fs.counts ref = none ↔ ref ∉ fs.inodesInUse := by
  unfold SerenaFS.counts
  constructor
  · intro counted inUse
    obtain ⟨value, stored⟩ := table.known ref inUse
    rw [if_pos inUse, stored] at counted
    simp at counted
  · intro unused
    rw [if_neg unused]

structure SameCounts (fs after : SerenaFS) : Prop where
  counts : ∀ r, after.counts r = fs.counts r
  removals : ∀ r, after.removals r = fs.removals r
  nextRef : fs.nextRef ≤ after.nextRef

/-- The counts of one inode change to `entry`, and its node is deleted `removed`
times. -/
structure Recounts (ref : InodeRef) (entry : Option (Int × Int)) (removed : Nat)
    (fs after : SerenaFS) : Prop where
  self : after.counts ref = entry
  counts : ∀ r, r ≠ ref → after.counts r = fs.counts r
  deleted : after.removals ref = fs.removals ref + removed
  removals : ∀ r, r ≠ ref → after.removals r = fs.removals r
  nextRef : fs.nextRef ≤ after.nextRef

section Counts
variable {fs middle after : SerenaFS} {ref : InodeRef} {entry entry' : Option (Int × Int)}
variable {removed removed' : Nat} {value : Inode}

theorem SameCounts.refl (fs : SerenaFS) : SameCounts fs fs :=
  ⟨fun _ => rfl, fun _ => rfl, Nat.le_refl _⟩

theorem SameCounts.trans (first : SameCounts fs middle) (second : SameCounts middle after) :
    SameCounts fs after :=
  ⟨fun r => (second.counts r).trans (first.counts r),
    fun r => (second.removals r).trans (first.removals r), first.nextRef.trans second.nextRef⟩

theorem Recounts.trans (first : Recounts ref entry removed fs middle)
    (second : Recounts ref entry' removed' middle after) :
    Recounts ref entry' (removed + removed') fs after :=
  ⟨second.self, fun r different => (second.counts r different).trans (first.counts r different),
    by rw [second.deleted, first.deleted, Nat.add_assoc],
    fun r different => (second.removals r different).trans (first.removals r different),
    first.nextRef.trans second.nextRef⟩

theorem Recounts.trans_same (first : Recounts ref entry removed fs middle)
    (second : SameCounts middle after) : Recounts ref entry removed fs after :=
  ⟨(second.counts ref).trans first.self,
    fun r different => (second.counts r).trans (first.counts r different),
    (second.removals ref).trans first.deleted,
    fun r different => (second.removals r).trans (first.removals r different),
    first.nextRef.trans second.nextRef⟩

theorem SameCounts.trans_recounts (first : SameCounts fs middle)
    (second : Recounts ref entry removed middle after) : Recounts ref entry removed fs after :=
  ⟨second.self, fun r different => (second.counts r different).trans (first.counts r),
    by rw [second.deleted, first.removals],
    fun r different => (second.removals r different).trans (first.removals r),
    first.nextRef.trans second.nextRef⟩

theorem Recounts.same (recounts : Recounts ref entry 0 fs after) (entry_eq : fs.counts ref = entry) :
    SameCounts fs after where
  counts r := by
    by_cases same : r = ref
    · rw [same, recounts.self, entry_eq]
    · exact recounts.counts r same
  removals r := by
    by_cases same : r = ref
    · rw [same, recounts.deleted, Nat.add_zero]
    · exact recounts.removals r same
  nextRef := recounts.nextRef

theorem SameCounts.of_frame {own : Nat} (frame : Frame ref own fs after) : SameCounts fs after where
  counts r := by
    unfold SerenaFS.counts
    rw [frame.inodesInUse]
    have same : (after.inode r).map (fun value => (value.useCount, value.linkCount)) =
        (fs.inode r).map fun value => (value.useCount, value.linkCount) := by
      by_cases self : r = ref
      · have projected := congrArg (Option.map fun identity : Nat × Int × Int × FileType ×
          FilePermissions × UInt32 × UInt32 => (identity.2.1, identity.2.2.1)) frame.self
        simpa [self, Option.map_map, Function.comp_def, Inode.identity] using projected
      · rw [frame.inode r self]
    rw [same]
  removals r := by
    unfold SerenaFS.removals
    rw [frame.nodeLog]
  nextRef := by rw [frame.nextRef]

theorem SameCounts.of_eq (inUse : after.inodesInUse = fs.inodesInUse) (inode : after.inode = fs.inode)
    (log : after.nodeLog = fs.nodeLog) (next : after.nextRef = fs.nextRef) : SameCounts fs after := by
  refine ⟨fun r => ?_, fun r => ?_, by rw [next]⟩
  · unfold SerenaFS.counts
    rw [inUse, inode]
  · unfold SerenaFS.removals
    rw [log]

theorem recounts_setNode (core : fs.Core ref value) (value' : Inode) :
    Recounts ref (some (value'.useCount, value'.linkCount)) 0 fs (fs.setNode ref (some value')) where
  self := (core_setNode_self core value').counts
  counts r different := by
    unfold SerenaFS.counts SerenaFS.setNode
    simp only [Function.update_of_ne different]
  deleted := rfl
  removals _ _ := rfl
  nextRef := Nat.le_refl _

theorem sameCounts_orphan (table : fs.Table) : SameCounts fs (fs.orphan value) where
  counts r := by
    unfold SerenaFS.counts SerenaFS.orphan
    simp only
    by_cases new : r = fs.nextRef
    · subst new
      rw [if_neg table.nextRef_notMem, if_neg table.nextRef_notMem]
    · rw [Function.update_of_ne new]
  removals _ := rfl
  nextRef := Nat.le_succ _

theorem recounts_install (table : fs.Table) (value : Inode) :
    Recounts fs.nextRef (some (value.useCount, value.linkCount)) 0 fs (fs.install value) where
  self := ((core_install table fs.nextRef value).mpr (Or.inr ⟨rfl, rfl⟩)).counts
  counts r different := by
    unfold SerenaFS.counts SerenaFS.install
    simp only [List.mem_append, List.mem_singleton, different, or_false,
      Function.update_of_ne different]
  deleted := rfl
  removals _ _ := rfl
  nextRef := Nat.le_succ _

theorem recounts_evict (table : fs.Table) : Recounts ref none 0 fs (fs.evict ref) where
  self := by
    unfold SerenaFS.counts SerenaFS.evict
    rw [if_neg (table.nodup.not_mem_erase)]
  counts r different := by
    unfold SerenaFS.counts SerenaFS.evict
    simp only [table.nodup.mem_erase_iff, different, ne_eq, not_false_eq_true, true_and,
      Function.update_of_ne different]
  deleted := rfl
  removals _ _ := rfl
  nextRef := Nat.le_refl _

theorem sameCounts_logged_allocated (id : Nat) : SameCounts fs (fs.logged (.allocated id)) :=
  ⟨fun _ => rfl, fun _ => rfl, Nat.le_refl _⟩

theorem recounts_logged_removed (id : Nat) :
    Recounts ref (fs.counts ref) 1 fs (fs.logged (.removed ref id)) where
  self := rfl
  counts _ _ := rfl
  deleted := by
    unfold SerenaFS.removals SerenaFS.logged
    rw [List.countP_cons_of_pos (by simp [NodeEvent.isRemovalOf])]
  removals r different := by
    unfold SerenaFS.removals SerenaFS.logged
    rw [List.countP_cons_of_neg (by simpa [NodeEvent.isRemovalOf] using different.symm)]
  nextRef := Nat.le_refl _

theorem sameCounts_release (blocks : List Nat) : SameCounts fs (fs.release blocks) := by
  induction blocks generalizing fs with
  | nil => exact SameCounts.refl fs
  | cons lba rest ih =>
    have marked : SameCounts fs (fs.mark lba false) := SameCounts.of_eq rfl rfl rfl rfl
    exact marked.trans ih

end Counts

/-! ## The operations -/

section Operations
variable {fs after : SerenaFS} {strict : Prop} {ref : InodeRef} {value : Inode} {own : Nat}

theorem NotAllocated.beside (consistent : fs.Consistent strict none [])
    (failed : NotAllocated fs after) : Beside ref own fs after := by
  cases failed with
  | heap heap => exact Beside.withHeap heap
  | returned heap vacant =>
    have marked := consistent.mark_true vacant.inside vacant.volume vacant.unused
    have marked' := marked.withHeap heap
    refine (Beside.mark consistent.accounts consistent.hardware.geometry vacant.inside true).trans
      ((Beside.withHeap heap).trans
        (Beside.mark marked'.accounts marked'.hardware.geometry ?_ false))
    change _ < (setBlockInUse fs.allocationBitmap _ true).length
    rw [length_setBlockInUse]
    exact vacant.inside

theorem beside_allocated (consistent : fs.Consistent strict none []) {lba : Nat}
    (vacant : fs.Vacant lba) (heap : List Bool) (inid : value.inid = lba) :
    Beside fs.nextRef lba fs (fs.allocated lba heap value) := by
  have heaped := consistent.withHeap heap
  have marked := heaped.mark_true vacant.inside vacant.volume vacant.unused
  have first : Beside fs.nextRef lba fs (fs.withHeap heap) := Beside.withHeap heap
  have second : Beside fs.nextRef lba (fs.withHeap heap) ((fs.withHeap heap).mark lba true) :=
    Beside.mark heaped.accounts heaped.hardware.geometry vacant.inside true
  exact (first.trans second).trans
    ((Beside.install marked.table inid).trans (Beside.logged (Or.inl rfl)))

theorem OutOfMemory.beside (consistent : fs.Consistent strict none [])
    (failed : OutOfMemory fs after) : Beside ref own fs after := by
  cases failed with
  | heap heap => exact Beside.withHeap heap
  | orphan heap value =>
    exact (Beside.withHeap heap).trans (Beside.orphan (consistent.withHeap heap).table)

theorem beside_settled (consistent : fs.Consistent strict none []) (core : fs.Core ref value) :
    Beside ref value.inid fs (fs.settled value) := by
  unfold SerenaFS.settled
  split_ifs
  · exact Beside.writeInode consistent.accounts (consistent.table.alive ref value core) _
  · exact Beside.refl fs

theorem SerenaFS.Consistent.loosen {weaker : Prop} {dirty : Option InodeRef} {pending : List Nat}
    (consistent : fs.Consistent strict dirty pending) (implies : weaker → strict) :
    fs.Consistent weaker dirty pending := by
  obtain ⟨hardware, table, disk, accounts⟩ := consistent
  exact ⟨hardware, table, disk, accounts.inVolume, accounts.sound,
    fun holds => accounts.tight (implies holds)⟩

theorem beside_relinquish (consistent : fs.Consistent strict none []) (core : fs.Core ref value)
    (last : value.linkCount = 0 → value.useCount = 1)
    (returned : relinquishNode ref fs = .ok () after) : Beside ref value.inid fs after := by
  by_cases unlinked : value.linkCount = 0
  · have loose : fs.Consistent False none [] := consistent.loosen False.elim
    rcases relinquishNode_unlinked consistent core unlinked (last unlinked) with fault | closed
    · rw [fault] at returned
      simp at returned
    · rw [closed] at returned
      simp only [Outcome.ok.injEq, true_and] at returned
      rw [← returned]
      exact ((Beside.evict consistent.table core rfl).trans (Beside.logged (Or.inr rfl))).trans
        (Beside.release (loose.remove core False.elim)
          (nodup_freedBlocks consistent.table consistent.accounts core))
  · rcases relinquishNode_linked consistent core unlinked with fault | ⟨-, closed⟩
    · rw [fault] at returned
      simp at returned
    · rw [closed] at returned
      simp only [Outcome.ok.injEq, true_and] at returned
      obtain ⟨settled, core', -⟩ := consistent.settled core
      rw [← returned]
      refine (beside_settled consistent core).trans ?_
      split_ifs
      · exact Beside.evict settled.table core' rfl
      · exact Beside.setNode settled.table core' rfl rfl

theorem NotAllocated.sameCounts (failed : NotAllocated fs after) : SameCounts fs after := by
  cases failed with
  | heap heap => exact SameCounts.of_eq rfl rfl rfl rfl
  | returned heap vacant => exact SameCounts.of_eq rfl rfl rfl rfl

theorem OutOfMemory.sameCounts (consistent : fs.Consistent strict none [])
    (failed : OutOfMemory fs after) : SameCounts fs after := by
  cases failed with
  | heap heap => exact SameCounts.of_eq rfl rfl rfl rfl
  | orphan heap value =>
    have heaped : SameCounts fs (fs.withHeap heap) := SameCounts.of_eq rfl rfl rfl rfl
    exact heaped.trans (sameCounts_orphan (consistent.withHeap heap).table)

theorem recounts_allocated (consistent : fs.Consistent strict none []) {lba : Nat}
    (vacant : fs.Vacant lba) (heap : List Bool) (value : Inode) :
    Recounts fs.nextRef (some (value.useCount, value.linkCount)) 0 fs (fs.allocated lba heap value) := by
  have marked := (consistent.withHeap heap).mark_true vacant.inside vacant.volume vacant.unused
  have first : SameCounts fs ((fs.withHeap heap).mark lba true) := SameCounts.of_eq rfl rfl rfl rfl
  exact (first.trans_recounts (recounts_install marked.table value)).trans_same
    (sameCounts_logged_allocated lba)

/-- An acquired inode has one more user; one that was read has one link. -/
theorem Acquired.recounts {id : Nat} (consistent : fs.Consistent strict none [])
    (has : fs.hasNode id = true) (acquired : Acquired fs id ref after) :
    (∃ use link, fs.counts ref = some (use, link) ∧
      Recounts ref (some (use + 1, link)) 0 fs after) ∨
    (ref = fs.nextRef ∧ fs.nextRef < after.nextRef ∧ Recounts ref (some (1, 1)) 0 fs after) := by
  cases acquired with
  | @held _ value core inid =>
    exact Or.inl ⟨value.useCount, value.linkCount, core.counts, recounts_setNode core (reacquired value)⟩
  | read heap absent =>
    have link : (readInode fs id).linkCount = 1 := consistent.disk.absent id has absent
    have heaped : SameCounts fs (fs.withHeap heap) := SameCounts.of_eq rfl rfl rfl rfl
    have installed := recounts_install (consistent.withHeap heap).table (readInode fs id)
    rw [link] at installed
    exact Or.inr ⟨rfl, Nat.lt_succ_self _, heaped.trans_recounts installed⟩

theorem sameCounts_settled (value : Inode) : SameCounts fs (fs.settled value) := by
  unfold SerenaFS.settled
  split_ifs
  · exact SameCounts.of_eq rfl rfl rfl rfl
  · exact SameCounts.refl fs

/-- A relinquished inode has one user less; without users it leaves the table, and
its node is deleted when it has no link. -/
theorem recounts_relinquish (consistent : fs.Consistent strict none []) (core : fs.Core ref value)
    (last : value.linkCount = 0 → value.useCount = 1)
    (returned : relinquishNode ref fs = .ok () after) :
    (value.linkCount = 0 ∨ value.linkCount = 1) ∧
      Recounts ref (if value.useCount = 1 then none else some (value.useCount - 1, value.linkCount))
        (if value.linkCount = 0 then 1 else 0) fs after := by
  by_cases unlinked : value.linkCount = 0
  · rw [if_pos (last unlinked), if_pos unlinked]
    refine ⟨Or.inl unlinked, ?_⟩
    rcases relinquishNode_unlinked consistent core unlinked (last unlinked) with fault | closed
    · rw [fault] at returned
      simp at returned
    · rw [closed] at returned
      simp only [Outcome.ok.injEq, true_and] at returned
      rw [← returned]
      have evicted : Recounts ref none 0 fs (fs.evict ref) := recounts_evict consistent.table
      have logged : Recounts ref ((fs.evict ref).counts ref) 1 (fs.evict ref)
        ((fs.evict ref).logged (.removed ref value.inid)) := recounts_logged_removed value.inid
      rw [evicted.self] at logged
      exact (evicted.trans logged).trans_same (sameCounts_release _)
  · rw [if_neg unlinked]
    rcases relinquishNode_linked consistent core unlinked with fault | ⟨link, closed⟩
    · rw [fault] at returned
      simp at returned
    · refine ⟨Or.inr link, ?_⟩
      rw [closed] at returned
      simp only [Outcome.ok.injEq, true_and] at returned
      obtain ⟨settled, core', -⟩ := consistent.settled core
      rw [← returned]
      refine (sameCounts_settled value).trans_recounts ?_
      by_cases only : value.useCount = 1
      · rw [if_pos only, if_pos only]
        exact recounts_evict settled.table
      · rw [if_neg only, if_neg only]
        exact recounts_setNode core' (relinquished value)

end Operations

/-! ## What a node is -/

section Views
variable {fs after : SerenaFS} {strict : Prop} {ref : InodeRef} {value : Inode} {own id : Nat}

theorem SerenaFS.Table.isNode_unique (table : fs.Table) {view view' : NodeView}
    (isNode : fs.IsNode id view) (isNode' : fs.IsNode id view') : view = view' := by
  cases isNode with
  | core held => exact ((table.isNode_inid held view').mp isNode').symm
  | disk has absent =>
    cases isNode' with
    | core held => exact absurd rfl (absent _ _ held)
    | disk _ _ => rfl

theorem exists_isNode (has : fs.hasNode id = true) : ∃ view, fs.IsNode id view := by
  by_cases absent : fs.Absent id
  · exact ⟨_, .disk has absent⟩
  · unfold SerenaFS.Absent at absent
    push Not at absent
    obtain ⟨ref, value, core, rfl⟩ := absent
    exact ⟨_, .core core⟩

theorem Beside.isNode_before (beside : Beside ref own fs after) (table : after.Table)
    (different : id ≠ own) {view : NodeView} (isNode : after.IsNode id view) : fs.IsNode id view := by
  have has : fs.hasNode id = true := by
    rw [← beside.hasNode id different]
    exact table.hasNode_of_isNode isNode
  obtain ⟨before, isNode'⟩ := exists_isNode has
  rw [table.isNode_unique isNode (beside.isNode id before different isNode')]
  exact isNode'

theorem Acquired.disk_eq (acquired : Acquired fs id ref after) : after.disk = fs.disk := by
  cases acquired with
  | held core inid => rfl
  | read heap absent => rfl

end Views

end Apollo.Serenafs
