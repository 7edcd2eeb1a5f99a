import Apollo.Serenafs.Volume

/-!
# What the content operations do to a volume

Reading, writing and truncating a node, and changing the entries of a
directory, touch one node in use: its inode, its content blocks and the
allocation bitmap.  `Frame` says that nothing else changes.
-/

set_option autoImplicit false

namespace Apollo.Serenafs

open Lib

/-! ## The frame of a content operation -/

/-- `other` differs from `fs` in the node `ref` with id `own` at most. -/
structure Frame (ref : InodeRef) (own : Nat) (fs other : SerenaFS) : Prop where
  inodesInUse : other.inodesInUse = fs.inodesInUse
  nextRef : other.nextRef = fs.nextRef
  nodeLog : other.nodeLog = fs.nodeLog
  rootDirLba : other.rootDirLba = fs.rootDirLba
  isReadOnly : other.isReadOnly = fs.isReadOnly
  volume : other.volumeBlockCount = fs.volumeBlockCount
  inode : ∀ r, r ≠ ref → other.inode r = fs.inode r
  self : (other.inode ref).map Inode.identity = (fs.inode ref).map Inode.identity
  inodeBlock : ∀ id, fs.hasNode id = true → other.disk.block id = fs.disk.block id
  content : ∀ id view index, id ≠ own → fs.IsNode id view → view.blockMap index ≠ 0 →
    other.disk.block (view.blockMap index) = fs.disk.block (view.blockMap index)

namespace Frame
variable {ref : InodeRef} {own : Nat} {fs other third : SerenaFS}

theorem refl (fs : SerenaFS) : Frame ref own fs fs :=
  ⟨rfl, rfl, rfl, rfl, rfl, rfl, fun _ _ => rfl, rfl, fun _ _ => rfl, fun _ _ _ _ _ _ => rfl⟩

theorem hasNode (frame : Frame ref own fs other) (id : Nat) : other.hasNode id = fs.hasNode id := by
  unfold SerenaFS.hasNode
  rw [frame.rootDirLba, frame.nodeLog]

theorem inode_self (frame : Frame ref own fs other) {value : Inode}
    (stored : other.inode ref = some value) :
    ∃ old, fs.inode ref = some old ∧ Inode.identity old = Inode.identity value := by
  have self := frame.self
  rw [stored] at self
  cases before : fs.inode ref with
  | none => simp [before] at self
  | some old =>
    rw [before] at self
    simp only [Option.map_some, Option.some.injEq] at self
    exact ⟨old, rfl, self.symm⟩

theorem symm_inode_self (frame : Frame ref own fs other) {value : Inode}
    (stored : fs.inode ref = some value) :
    ∃ new, other.inode ref = some new ∧ Inode.identity new = Inode.identity value := by
  have self := frame.self
  rw [stored] at self
  cases after : other.inode ref with
  | none => simp [after] at self
  | some new =>
    rw [after] at self
    simp only [Option.map_some, Option.some.injEq] at self
    exact ⟨new, rfl, self⟩

/-- Any node in use is still in use under the same id. -/
theorem core (frame : Frame ref own fs other) {r : InodeRef} {value : Inode}
    (core : fs.Core r value) :
    ∃ new, other.Core r new ∧ Inode.identity new = Inode.identity value ∧ (r ≠ ref → new = value) := by
  by_cases same : r = ref
  · subst same
    obtain ⟨new, stored, identity⟩ := frame.symm_inode_self core.stored
    exact ⟨new, ⟨frame.inodesInUse ▸ core.inUse, stored⟩, identity, fun different => absurd rfl different⟩
  · exact ⟨value, ⟨frame.inodesInUse ▸ core.inUse, (frame.inode r same).trans core.stored⟩, rfl,
      fun _ => rfl⟩

theorem symm_core (frame : Frame ref own fs other) {r : InodeRef} {value : Inode}
    (core : other.Core r value) :
    ∃ old, fs.Core r old ∧ Inode.identity old = Inode.identity value ∧ (r ≠ ref → old = value) := by
  by_cases same : r = ref
  · subst same
    obtain ⟨old, stored, identity⟩ := frame.inode_self core.stored
    exact ⟨old, ⟨frame.inodesInUse ▸ core.inUse, stored⟩, identity, fun different => absurd rfl different⟩
  · exact ⟨value, ⟨frame.inodesInUse ▸ core.inUse, (frame.inode r same).symm.trans core.stored⟩, rfl,
      fun _ => rfl⟩

theorem inid_eq {value value' : Inode} (identity : Inode.identity value = Inode.identity value') :
    value.inid = value'.inid := congrArg Prod.fst identity

theorem absent_iff (frame : Frame ref own fs other) (id : Nat) : other.Absent id ↔ fs.Absent id := by
  constructor
  · intro absent r value held
    obtain ⟨new, core, identity, -⟩ := frame.core held
    rw [← inid_eq identity]
    exact absent r new core
  · intro absent r value held
    obtain ⟨old, core, identity, -⟩ := frame.symm_core held
    rw [← inid_eq identity]
    exact absent r old core

theorem isNode_iff (frame : Frame ref own fs other)
    (owns : ∀ value, fs.Core ref value → value.inid = own) {id : Nat} (different : id ≠ own)
    (view : NodeView) : other.IsNode id view ↔ fs.IsNode id view := by
  constructor
  · intro isNode
    cases isNode with
    | @core r value held =>
      obtain ⟨old, core, identity, unchanged⟩ := frame.symm_core held
      have other : r ≠ ref := by
        rintro rfl
        exact different ((inid_eq identity).symm.trans (owns old core))
      rw [← unchanged other]
      exact .core core
    | disk has absent =>
      have has' : fs.hasNode id = true := by rw [← frame.hasNode, has]
      rw [frame.inodeBlock id has']
      exact .disk has' ((frame.absent_iff id).mp absent)
  · intro isNode
    cases isNode with
    | @core r value held =>
      obtain ⟨new, core, identity, unchanged⟩ := frame.core held
      have other : r ≠ ref := by
        rintro rfl
        exact different (owns value held)
      rw [← unchanged other]
      exact .core core
    | disk has absent =>
      rw [← frame.inodeBlock id has]
      exact .disk (by rw [frame.hasNode, has]) ((frame.absent_iff id).mpr absent)

theorem trans (first : Frame ref own fs other) (second : Frame ref own other third)
    (owns : ∀ value, fs.Core ref value → value.inid = own) : Frame ref own fs third where
  inodesInUse := second.inodesInUse.trans first.inodesInUse
  nextRef := second.nextRef.trans first.nextRef
  nodeLog := second.nodeLog.trans first.nodeLog
  rootDirLba := second.rootDirLba.trans first.rootDirLba
  isReadOnly := second.isReadOnly.trans first.isReadOnly
  volume := second.volume.trans first.volume
  inode r different := (second.inode r different).trans (first.inode r different)
  self := second.self.trans first.self
  inodeBlock id has := by
    rw [second.inodeBlock id (by rw [first.hasNode, has]), first.inodeBlock id has]
  content id view index different isNode nonzero := by
    rw [second.content id view index different ((first.isNode_iff owns different view).mpr isNode)
      nonzero, first.content id view index different isNode nonzero]

end Frame

section Frames
variable {ref : InodeRef} {own : Nat} {fs : SerenaFS} {strict : Prop} {pending : List Nat}

theorem frame_writeBlock (accounts : fs.Accounts strict pending) {role : Role} {lba : Nat}
    (holds : (fs.ledger pending).holds role lba) (notInode : role ≠ .inode lba)
    (notOthers : ∀ id index, id ≠ own → role ≠ .content id index) (block : Block) :
    Frame ref own fs (fs.writeBlock lba block) where
  inodesInUse := rfl
  nextRef := rfl
  nodeLog := rfl
  rootDirLba := rfl
  isReadOnly := rfl
  volume := rfl
  inode _ _ := rfl
  self := rfl
  inodeBlock := writeBlock_inodeBlock (accounts.hasNode_of_holds holds notInode) block
  content id view index different isNode nonzero := by
    have content : fs.Holds (.content id index) (view.blockMap index) := ⟨view, isNode, rfl, nonzero⟩
    have apart : view.blockMap index ≠ lba := by
      rintro rfl
      exact notOthers id index different (accounts.sound.exclusive holds (Or.inl content))
    exact Function.update_of_ne apart _ _

theorem frame_mark (accounts : fs.Accounts strict pending) (geometry : fs.Geometry) {lba : Nat}
    (inside : lba / 8 < fs.allocationBitmap.length) (inUse : Bool) :
    Frame ref own fs (fs.mark lba inUse) where
  inodesInUse := rfl
  nextRef := rfl
  nodeLog := rfl
  rootDirLba := rfl
  isReadOnly := rfl
  volume := rfl
  inode _ _ := rfl
  self := rfl
  inodeBlock := mark_inodeBlock accounts geometry inside inUse
  content id view index different isNode nonzero := by
    have content : fs.Holds (.content id index) (view.blockMap index) := ⟨view, isNode, rfl, nonzero⟩
    have bitmap : fs.Holds (.bitmap (windowOf lba)) (fs.allocationBitmapLba + windowOf lba) :=
      ⟨geometry.windowOf_lt inside, rfl⟩
    have apart : view.blockMap index ≠ fs.allocationBitmapLba + windowOf lba := by
      intro same
      rw [same] at content
      have roles := accounts.sound.exclusive (Or.inl content) (Or.inl bitmap)
      simp at roles
    exact Function.update_of_ne apart _ _

theorem frame_setNode {value value' : Inode} (core : fs.Core ref value)
    (identity : Inode.identity value' = Inode.identity value) :
    Frame ref own fs (fs.setNode ref (some value')) where
  inodesInUse := rfl
  nextRef := rfl
  nodeLog := rfl
  rootDirLba := rfl
  isReadOnly := rfl
  volume := rfl
  inode r different := Function.update_of_ne different _ _
  self := by
    simp only [SerenaFS.setNode, Function.update_self, core.stored, Option.map_some, identity]
  inodeBlock _ _ := rfl
  content _ _ _ _ _ _ := rfl

end Frames

/-! ## States that a content operation runs through -/

/-- A consistent state that an operation on the node `ref` reached from `origin`.
The inode of the node may be ahead of its flags when `dirty` is set. -/
structure Reached (origin : SerenaFS) (ref : InodeRef) (start : Inode) (strict : Prop)
    (dirty : Bool) (pending : List Nat) (fs : SerenaFS) : Prop where
  held : origin.Core ref start
  consistent : fs.Consistent strict (if dirty then some ref else none) pending
  frame : Frame ref start.inid origin fs

namespace Reached
variable {origin fs : SerenaFS} {ref : InodeRef} {start value value' : Inode} {strict : Prop}
variable {dirty : Bool} {pending : List Nat} {lba : Nat}
variable {index : Fin kSFSMaxDirectDataBlockPointers}

theorem start' (held : origin.Core ref start) (consistent : origin.Consistent strict none []) :
    Reached origin ref start strict false [] origin :=
  ⟨held, consistent, Frame.refl origin⟩

theorem others_clean (dirty dirty' : Bool) (other : InodeRef) (different : other ≠ ref)
    (_clean : (if dirty' then some ref else none) ≠ some other) :
    (if dirty then some ref else none) ≠ some other := by
  cases dirty with
  | true => simpa using different.symm
  | false => simp

section
variable (reached : Reached origin ref start strict dirty pending fs)
include reached

theorem owns (value : Inode) (core : origin.Core ref value) : value.inid = start.inid := by
  rw [core.value_eq reached.held]

theorem core : ∃ value, fs.Core ref value ∧ Inode.identity value = Inode.identity start := by
  obtain ⟨new, core, identity, -⟩ := reached.frame.core reached.held
  exact ⟨new, core, identity⟩

theorem identity (core : fs.Core ref value) : Inode.identity value = Inode.identity start := by
  obtain ⟨new, core', identity⟩ := reached.core
  rw [core.value_eq core', identity]

theorem inid (core : fs.Core ref value) : value.inid = start.inid := Frame.inid_eq (reached.identity core)

theorem counts (core : fs.Core ref value) (same : Inode.identity value' = Inode.identity value) :
    value'.inid = value.inid ∧ 0 < value'.useCount ∧ value'.linkCount ≤ 1 := by
  have counted := reached.consistent.table.counted ref value core
  have linked := reached.consistent.table.linked ref value core
  simp only [Inode.identity, Prod.mk.injEq] at same
  rw [same.1, same.2.1, same.2.2.1]
  exact ⟨rfl, counted, linked⟩

/-- A clean node may count as dirty. -/
theorem unflag : Reached origin ref start strict true pending fs := by
  obtain ⟨held, ⟨hardware, table, disk, accounts⟩, frame⟩ := reached
  refine ⟨held, ⟨hardware, table, ⟨fun other value core clean => ?_, disk.absent⟩, accounts⟩, frame⟩
  refine disk.clean other value core (others_clean dirty true other ?_ clean)
  rintro rfl
  exact clean rfl

theorem mark_true (inside : lba / 8 < fs.allocationBitmap.length) (volume : lba < fs.volumeBlockCount)
    (unused : isBlockInUse fs.allocationBitmap lba = false) :
    Reached origin ref start strict dirty (lba :: pending) (fs.mark lba true) :=
  ⟨reached.held, reached.consistent.mark_true inside volume unused,
    reached.frame.trans (frame_mark reached.consistent.accounts
      reached.consistent.hardware.geometry inside true) reached.owns⟩

omit reached in
theorem mark_false (reached : Reached origin ref start strict dirty (lba :: pending) fs)
    (once : lba ∉ pending) (inside : lba / 8 < fs.allocationBitmap.length) :
    Reached origin ref start strict dirty pending (fs.mark lba false) :=
  ⟨reached.held, reached.consistent.mark_false once inside,
    reached.frame.trans (frame_mark reached.consistent.accounts
      reached.consistent.hardware.geometry inside false) reached.owns⟩

theorem writeBlock {role : Role} (holds : (fs.ledger pending).holds role lba) (notInode : role ≠ .inode lba)
    (notOthers : ∀ id index, id ≠ start.inid → role ≠ .content id index) (block : Block) :
    Reached origin ref start strict dirty pending (fs.writeBlock lba block) := by
  have accounts := reached.consistent.accounts
  exact ⟨reached.held,
    reached.consistent.writeBlock (accounts.hasNode_of_holds holds notInode) block,
    reached.frame.trans (frame_writeBlock accounts holds notInode notOthers block) reached.owns⟩

theorem writeContent (core : fs.Core ref value) (entry : value.blockMap index = lba) (block : Block) :
    Reached origin ref start strict dirty pending (fs.writeBlock lba block) := by
  by_cases zero : lba = 0
  · have header : fs.Holds .header lba := zero
    exact reached.writeBlock (Or.inl header) (by simp) (by simp) block
  · have content : fs.Holds (.content value.inid index) lba := ⟨value.view, .core core, entry, zero⟩
    refine reached.writeBlock (Or.inl content) (by simp) ?_ block
    intro id other different same
    rw [Role.content.injEq] at same
    exact different (same.1.symm.trans (reached.inid core))

theorem writePending (member : lba ∈ pending) (block : Block) :
    Reached origin ref start strict dirty pending (fs.writeBlock lba block) := by
  have claimed : (fs.ledger pending).holds (.pending lba) lba := Or.inr ⟨rfl, member⟩
  exact reached.writeBlock claimed (by simp) (by simp) block

/-- The inode changes outside its block map, and the change is flagged or the
node is left dirty. -/
theorem setNode (core : fs.Core ref value) (same : Inode.identity value' = Inode.identity value)
    (map : value'.blockMap = value.blockMap) (dirty' : Bool)
    (flagged : dirty' = false → value'.isModified = false →
      (decodeInode (fs.disk.block value.inid)).view = value'.view.stored) :
    Reached origin ref start strict dirty' pending (fs.setNode ref (some value')) := by
  obtain ⟨inid, counted, linked⟩ := reached.counts core same
  refine ⟨reached.held, ?_, reached.frame.trans (frame_setNode core same) reached.owns⟩
  refine reached.consistent.setNode core inid map counted linked (others_clean dirty dirty') ?_
  intro clean
  exact flagged (by simpa using clean)

end

theorem enter (reached : Reached origin ref start strict dirty [lba] fs) (core : fs.Core ref value)
    (same : Inode.identity value' = Inode.identity value) (vacant : value.blockMap index = 0)
    (nonzero : lba ≠ 0) (map : value'.blockMap = Function.update value.blockMap index lba)
    (dirty' : Bool) (flagged : dirty' = false → value'.isModified = true) :
    Reached origin ref start strict dirty' [] (fs.setNode ref (some value')) := by
  obtain ⟨inid, counted, linked⟩ := reached.counts core same
  refine ⟨reached.held, ?_, reached.frame.trans (frame_setNode core same) reached.owns⟩
  refine reached.consistent.enter core inid vacant nonzero map counted linked
    (others_clean dirty dirty') ?_
  intro clean
  exact flagged (by simpa using clean)

theorem withdraw (reached : Reached origin ref start strict dirty [] fs) (core : fs.Core ref value)
    (same : Inode.identity value' = Inode.identity value) (occupied : value.blockMap index = lba)
    (nonzero : lba ≠ 0) (map : value'.blockMap = Function.update value.blockMap index 0)
    (dirty' : Bool) (flagged : dirty' = false → value'.isModified = true) :
    Reached origin ref start strict dirty' [lba] (fs.setNode ref (some value')) := by
  obtain ⟨inid, counted, linked⟩ := reached.counts core same
  refine ⟨reached.held, ?_, reached.frame.trans (frame_setNode core same) reached.owns⟩
  refine reached.consistent.withdraw core inid occupied nonzero map counted linked
    (others_clean dirty dirty') ?_
  intro clean
  exact flagged (by simpa using clean)

end Reached

/-! ## Blocks -/

variable {fs : SerenaFS} {ref : InodeRef}

theorem node_stored {value : Inode}
    (stored : fs.inode ref = some value) : node ref fs = .ok value fs := by
  simp [node, stored]

theorem updateNode_stored {value : Inode}
    (stored : fs.inode ref = some value) (change : Inode → Inode) :
    updateNode ref change fs = .ok () (fs.setNode ref (some (change value))) := by
  simp [updateNode, stored]

theorem node_core {value : Inode} (core : fs.Core ref value) :
    node ref fs = .ok value fs := node_stored core.stored

theorem updateNode_core {value : Inode} (core : fs.Core ref value)
    (change : Inode → Inode) :
    updateNode ref change fs = .ok () (fs.setNode ref (some (change value))) :=
  updateNode_stored core.stored change

theorem core_setNode_self {value : Inode}
    (core : fs.Core ref value) (value' : Inode) : (fs.setNode ref (some value')).Core ref value' :=
  (core_setNode core ref value').mpr (Or.inl ⟨rfl, rfl⟩)

/-- A block that the allocator may hand out. -/
structure SerenaFS.Vacant (fs : SerenaFS) (lba : Nat) : Prop where
  nonzero : lba ≠ 0
  volume : lba < fs.volumeBlockCount
  inside : lba / 8 < fs.allocationBitmap.length
  unused : isBlockInUse fs.allocationBitmap lba = false

theorem allocateBlockLocked_cases (hardware : fs.Hardware) :
    allocateBlockLocked fs = .fault ∨ allocateBlockLocked fs = .err .ENOSPC fs ∨
      ∃ lba, fs.Vacant lba ∧ allocateBlockLocked fs = .ok lba (fs.mark lba true) := by
  cases search : findFreeBlock fs.allocationBitmap (fs.volumeBlockCount - 1) 1 with
  | found lba =>
    obtain ⟨low, high, inside, unused⟩ := findFreeBlock_found search
    rw [allocateBlockLocked_found hardware.quiet hardware.geometry search]
    split_ifs
    · exact Or.inr (Or.inr ⟨lba, ⟨by omega, by omega, inside, unused⟩, rfl⟩)
    · exact Or.inl rfl
  | full => exact Or.inr (Or.inl (allocateBlockLocked_full search))
  | outside =>
    left
    unfold allocateBlockLocked
    rw [Code.bind_of_ok (Code.get_apply _), search]
    rfl

theorem deallocateBlockLocked_cases (hardware : fs.Hardware) {lba : Nat}
    (nonzero : lba ≠ 0) :
    deallocateBlockLocked lba fs = .fault ∨
      (lba / 8 < fs.allocationBitmap.length ∧
        deallocateBlockLocked lba fs = .ok () (fs.mark lba false)) := by
  by_cases inside : lba / 8 < fs.allocationBitmap.length
  · rw [deallocateBlockLocked_eq hardware.quiet hardware.geometry nonzero inside]
    split_ifs
    · exact Or.inr ⟨inside, rfl⟩
    · exact Or.inl rfl
  · left
    unfold deallocateBlockLocked
    rw [if_neg nonzero, Code.bind_of_ok (Code.get_apply _), if_pos (by omega)]
    rfl

/-- The block behind an entry of the block map, when it is asked for to be
written: the one that is there, or a new one. -/
inductive Located (fs : SerenaFS) (ref : InodeRef) (value : Inode)
    (index : Fin kSFSMaxDirectDataBlockPointers) : Nat → SerenaFS → Prop
  | present (nonzero : value.blockMap index ≠ 0) : Located fs ref value index (value.blockMap index) fs
  | fresh {lba : Nat} (empty : value.blockMap index = 0) (vacant : fs.Vacant lba) :
      Located fs ref value index lba
        ((fs.mark lba true).setNode ref (some (value.withEntry index lba)))

section Located
variable {origin fs after : SerenaFS} {ref : InodeRef} {start value : Inode} {strict : Prop}
variable {dirty : Bool} {lba : Nat} {index : Fin kSFSMaxDirectDataBlockPointers}

theorem Reached.located (reached : Reached origin ref start strict dirty [] fs)
    (core : fs.Core ref value) (located : Located fs ref value index lba after) :
    Reached origin ref start strict true [] after ∧ lba ≠ 0 ∧
      after.Core ref (value.withEntry index lba) := by
  cases located with
  | present nonzero =>
    have unchanged : value.withEntry index (value.blockMap index) = value := by
      unfold Inode.withEntry
      rw [Function.update_eq_self]
    rw [unchanged]
    exact ⟨reached.unflag, nonzero, core⟩
  | fresh empty vacant =>
    have marked := reached.mark_true vacant.inside vacant.volume vacant.unused
    have core' := (core_mark lba true ref value).mpr core
    have same : Inode.identity (value.withEntry index lba) = Inode.identity value := rfl
    exact ⟨marked.enter core' same empty vacant.nonzero rfl true (by simp), vacant.nonzero,
      core_setNode_self core' _⟩

variable {fba : Int}

theorem getLogical_write (hardware : fs.Hardware) (core : fs.Core ref value)
    (bound : fba = index.val) :
    getLogicalBlockAddressForFileBlockAddress ref fba .write fs = .fault ∨
      getLogicalBlockAddressForFileBlockAddress ref fba .write fs = .err .ENOSPC fs ∨
      ∃ lba after, Located fs ref value index lba after ∧
        getLogicalBlockAddressForFileBlockAddress ref fba .write fs = .ok lba after := by
  have inBounds : 0 ≤ fba ∧ fba < kSFSMaxDirectDataBlockPointers := by omega
  have position : (⟨fba.toNat, by omega⟩ : Fin kSFSMaxDirectDataBlockPointers) = index := by
    simp [bound]
  unfold getLogicalBlockAddressForFileBlockAddress
  rw [dif_pos inBounds, Code.bind_of_ok (node_core core)]
  simp only [position]
  by_cases empty : value.blockMap index = 0
  · rw [if_pos ⟨empty, trivial⟩]
    rcases allocateBlockLocked_cases hardware with fault | full | ⟨lba, vacant, found⟩
    · exact Or.inl (Code.bind_of_fault fault _)
    · exact Or.inr (Or.inl (Code.bind_of_err full _))
    · refine Or.inr (Or.inr ⟨lba, _, .fresh empty vacant, ?_⟩)
      have core' := (core_mark lba true ref value).mpr core
      rw [Code.bind_of_ok found, Code.bind_of_ok (updateNode_core core' _)]
      rfl
  · rw [if_neg (by simp [empty])]
    exact Or.inr (Or.inr ⟨_, _, .present empty, rfl⟩)

theorem getLogical_outside (outside : ¬ (0 ≤ fba ∧ fba < kSFSMaxDirectDataBlockPointers))
    (mode : SFSBlockMode) :
    getLogicalBlockAddressForFileBlockAddress ref fba mode fs = .err .EFBIG fs := by
  unfold getLogicalBlockAddressForFileBlockAddress
  rw [dif_neg outside]
  rfl

theorem getLogical_read (core : fs.Core ref value) (bound : fba = index.val) :
    getLogicalBlockAddressForFileBlockAddress ref fba .read fs = .ok (value.blockMap index) fs := by
  have inBounds : 0 ≤ fba ∧ fba < kSFSMaxDirectDataBlockPointers := by omega
  have position : (⟨fba.toNat, by omega⟩ : Fin kSFSMaxDirectDataBlockPointers) = index := by
    simp [bound]
  unfold getLogicalBlockAddressForFileBlockAddress
  rw [dif_pos inBounds, Code.bind_of_ok (node_core core)]
  simp only [position, reduceCtorEq, and_false, if_false]
  rfl

def SerenaFS.contentBlock (fs : SerenaFS) (map : BlockMap)
    (index : Fin kSFSMaxDirectDataBlockPointers) : Block :=
  if map index = 0 then Buffer.zero else fs.disk.block (map index)

theorem fileBlock_read {unflagged : Option InodeRef} (consistent : fs.Consistent strict unflagged [])
    (core : fs.Core ref value) (bound : fba = index.val) :
    fileBlock ref fba .read fs =
      .ok (value.blockMap index, fs.contentBlock value.blockMap index) fs := by
  unfold fileBlock SerenaFS.contentBlock
  rw [Code.bind_of_ok (getLogical_read core bound)]
  by_cases empty : value.blockMap index = 0
  · rw [if_pos empty, if_pos empty, empty]
    rfl
  · have small := (consistent.accounts.blockMap_lt (.core core) index).resolve_left empty
    have onDisk := lt_of_lt_of_le small consistent.hardware.volume
    rw [if_neg empty, if_neg empty,
      Code.bind_of_ok (show getBlock (value.blockMap index) fs = .ok _ fs by
        rw [getBlock_quiet consistent.hardware.quiet]
        exact if_pos onDisk)]
    rfl

theorem fileBlock_outside (outside : ¬ (0 ≤ fba ∧ fba < kSFSMaxDirectDataBlockPointers))
    (mode : SFSBlockMode) : fileBlock ref fba mode fs = .err .EFBIG fs := by
  exact Code.bind_of_err (getLogical_outside outside mode) _

theorem fileBlock_write (reached : Reached origin ref start strict dirty [] fs)
    (core : fs.Core ref value) (bound : fba = index.val) :
    fileBlock ref fba .write fs = .fault ∨ fileBlock ref fba .write fs = .err .ENOSPC fs ∨
      ∃ lba after, Located fs ref value index lba after ∧
        fileBlock ref fba .write fs = .ok (lba, after.disk.block lba) after := by
  unfold fileBlock
  rcases getLogical_write reached.consistent.hardware core bound with
    fault | full | ⟨lba, after, located, found⟩
  · exact Or.inl (Code.bind_of_fault fault _)
  · exact Or.inr (Or.inl (Code.bind_of_err full _))
  · obtain ⟨reached', nonzero, core'⟩ := reached.located core located
    have entry : (value.withEntry index lba).blockMap index = lba := Function.update_self _ _ _
    have small := (reached'.consistent.accounts.blockMap_lt (.core core') index).resolve_left
      (by rw [show (value.withEntry index lba).view.blockMap index = lba from entry]; exact nonzero)
    rw [show (value.withEntry index lba).view.blockMap index = lba from entry] at small
    have onDisk := lt_of_lt_of_le small reached'.consistent.hardware.volume
    refine Or.inr (Or.inr ⟨lba, after, located, ?_⟩)
    rw [Code.bind_of_ok found, if_neg nonzero,
      Code.bind_of_ok (show getBlock lba after = .ok _ after by
        rw [getBlock_quiet reached'.consistent.hardware.quiet]
        exact if_pos onDisk)]
    rfl

end Located

/-! ## Reading, writing and truncating -/

theorem attempt_of_ok {α : Type} {code : FS α} {fs after : SerenaFS} {value : α}
    (returns : code fs = .ok value after) : Code.attempt code fs = .ok (.ok value) after := by
  unfold Code.attempt
  rw [returns]

theorem attempt_of_err {α : Type} {code : FS α} {fs after : SerenaFS} {reason : Errno}
    (fails : code fs = .err reason after) : Code.attempt code fs = .ok (.error reason) after := by
  unfold Code.attempt
  rw [fails]

theorem attempt_of_fault {α : Type} {code : FS α} {fs : SerenaFS} (stops : code fs = .fault) :
    Code.attempt code fs = .fault := by
  unfold Code.attempt
  rw [stops]

theorem blockOffset_lt (offset : Int) : blockOffset offset < kSFSBlockSize := by
  unfold blockOffset
  simp only [kSFSBlockSize]
  omega

theorem blockIndex_cases (fba : Int) :
    ¬ (0 ≤ fba ∧ fba < kSFSMaxDirectDataBlockPointers) ∨
      ∃ index : Fin kSFSMaxDirectDataBlockPointers, fba = index.val := by
  by_cases bound : 0 ≤ fba ∧ fba < kSFSMaxDirectDataBlockPointers
  · exact Or.inr ⟨⟨fba.toNat, by omega⟩, by simp [bound.1]⟩
  · exact Or.inl bound

section Files
variable {origin fs : SerenaFS} {ref : InodeRef} {start : Inode} {strict : Prop}

theorem xReadLoop_state (consistent : fs.Consistent strict none []) {value : Inode}
    (core : fs.Core ref value) (fileSize : Int) (fuel : Nat) (offset : Int) (count : Nat)
    (read : List UInt8) :
    (∃ bytes, xReadLoop ref fileSize fuel offset count read fs = .ok bytes fs) ∨
      ∃ reason, xReadLoop ref fileSize fuel offset count read fs = .err reason fs := by
  induction fuel generalizing offset count read with
  | zero => exact Or.inl ⟨read, rfl⟩
  | succ fuel ih =>
    unfold xReadLoop
    by_cases more : 0 < count ∧ offset < fileSize
    · rw [if_pos more]
      rcases blockIndex_cases (blockIndex offset) with outside | ⟨index, bound⟩
      · rw [Code.bind_of_ok (attempt_of_err (fileBlock_outside outside .read))]
        split_ifs
        · exact Or.inr ⟨_, rfl⟩
        · exact Or.inl ⟨_, rfl⟩
      · rw [Code.bind_of_ok (attempt_of_ok (fileBlock_read consistent core bound))]
        exact ih _ _ _
    · rw [if_neg more]
      exact Or.inl ⟨read, rfl⟩

theorem xRead_spec (offset : Int) (count : Nat) :
    Code.Spec (Reached origin ref start strict false []) (xRead ref offset count)
      (fun _ => Reached origin ref start strict false [])
      (fun _ => Reached origin ref start strict false []) := by
  intro fs reached
  obtain ⟨value, core, -⟩ := reached.core
  unfold xRead
  split_ifs
  · exact reached
  · rw [Code.bind_of_ok (node_core core)]
    rcases xReadLoop_state reached.consistent core value.size count offset count [] with
      ⟨bytes, returned⟩ | ⟨reason, failed⟩
    · rw [Code.bind_of_ok returned]
      split_ifs
      · exact reached
      · rw [Code.bind_of_ok (updateNode_core core _)]
        refine reached.setNode core ?_ ?_ false ?_
        · rfl
        · rfl
        · simp [Inode.isModified]
    · rw [Code.bind_of_err failed]
      exact reached

/-- Nothing is left unflagged until a byte was written, and an error leaves
everything as it was. -/
theorem xWriteLoop_spec (fuel : Nat) (offset : Int) (data : List UInt8) (written : Nat) :
    Code.Spec (Reached origin ref start strict (decide (0 < written)) [])
      (xWriteLoop ref fuel offset data written)
      (fun result => Reached origin ref start strict (decide (0 < result.2)) [])
      (fun _ => Reached origin ref start strict false []) := by
  induction fuel generalizing offset data written with
  | zero => exact fun fs reached => reached
  | succ fuel ih =>
    intro fs reached
    have stop : ∀ reason : Errno, ((if written = 0 then Code.throw reason
        else pure (offset, written) : FS (Int × Nat)) fs).Returned
          (fun result => Reached origin ref start strict (decide (0 < result.2)) [])
          (fun _ => Reached origin ref start strict false []) := by
      intro reason
      split_ifs with none
      · subst none
        exact reached
      · exact reached
    unfold xWriteLoop
    by_cases done : data = []
    · rw [if_pos done]
      exact reached
    rw [if_neg done]
    rcases blockIndex_cases (blockIndex offset) with outside | ⟨index, bound⟩
    · rw [Code.bind_of_ok (attempt_of_err (fileBlock_outside outside .write))]
      exact stop _
    · obtain ⟨value, core, -⟩ := reached.core
      rcases fileBlock_write reached core bound with fault | full | ⟨lba, after, located, found⟩
      · rw [Code.bind_of_fault (attempt_of_fault fault)]
        trivial
      · rw [Code.bind_of_ok (attempt_of_err full)]
        exact stop _
      · obtain ⟨reached', nonzero, core'⟩ := reached.located core located
        have entry : (value.withEntry index lba).blockMap index = lba :=
          Function.update_self _ _ _
        have small := reached'.consistent.accounts.lt_volume
          (Or.inl (show after.Holds (.content _ index) lba from
            ⟨_, .core core', entry, nonzero⟩))
        have onDisk := lt_of_lt_of_le small reached'.consistent.hardware.volume
        rw [Code.bind_of_ok (attempt_of_ok found)]
        dsimp only
        rw [Code.bind_of_ok (attempt_of_ok (show putBlock _ lba after = .ok () _ by
          rw [putBlock_quiet reached'.consistent.hardware.quiet]
          exact if_pos onDisk))]
        have progress : 0 < min (kSFSBlockSize - blockOffset offset) data.length := by
          have inBlock := blockOffset_lt offset
          have some := List.length_pos_iff.mpr done
          omega
        have positive : decide (0 < written + min (kSFSBlockSize - blockOffset offset)
            data.length) = true := by
          simp only [decide_eq_true_eq]
          omega
        apply ih
        rw [positive]
        exact reached'.writeContent core' entry _

theorem xWrite_spec (offset : Int) (data : List UInt8) :
    Code.Spec (Reached origin ref start strict false []) (xWrite ref offset data)
      (fun _ => Reached origin ref start strict false [])
      (fun _ => Reached origin ref start strict false []) := by
  unfold xWrite
  split_ifs
  · exact fun fs reached => reached
  · refine Code.spec_bind (xWriteLoop_spec data.length offset data 0) ?_
    rintro ⟨reached, written⟩ fs state
    simp only at state ⊢
    split_ifs with some
    · obtain ⟨value, core, -⟩ := state.core
      rw [Code.bind_of_ok (updateNode_core core _)]
      refine state.setNode core ?_ ?_ false ?_
      · rfl
      · rfl
      · simp [Inode.isModified]
    · have none : decide (0 < written) = false := by simpa using some
      rw [none] at state
      exact state

/-- The block map without its entries in `cut` from index `first` on. -/
def cutMap (first : Int) (cut : List (Fin kSFSMaxDirectDataBlockPointers)) (map : BlockMap) :
    BlockMap := fun index => if index ∈ cut ∧ first ≤ index.val then 0 else map index

/-- `lba` is a block of the allocation bitmap. -/
def SerenaFS.IsBitmapBlock (fs : SerenaFS) (lba : Nat) : Prop :=
  ∃ index, fs.Holds (.bitmap index) lba

theorem mark_block_of_ne (hardware : fs.Hardware) {lba other : Nat}
    (inside : lba / 8 < fs.allocationBitmap.length) (inUse : Bool)
    (notBitmap : ¬ fs.IsBitmapBlock other) :
    (fs.mark lba inUse).disk.block other = fs.disk.block other := by
  refine Function.update_of_ne ?_ _ _
  rintro rfl
  exact notBitmap ⟨windowOf lba, hardware.geometry.windowOf_lt inside, rfl⟩

theorem xTruncateLoop_spec (first : Int) (cut : List (Fin kSFSMaxDirectDataBlockPointers))
    {value : Inode} (reached : Reached origin ref start strict true [] fs)
    (core : fs.Core ref value) :
    xTruncateLoop ref first cut fs = .fault ∨
      ∃ after, xTruncateLoop ref first cut fs = .ok () after ∧
        Reached origin ref start strict true [] after ∧
        after.Core ref { value with blockMap := cutMap first cut value.blockMap } ∧
        ∀ lba, ¬ fs.IsBitmapBlock lba → after.disk.block lba = fs.disk.block lba := by
  induction cut generalizing fs value with
  | nil =>
    exact Or.inr ⟨fs, rfl, reached, core, fun _ _ => rfl⟩
  | cons index rest ih =>
    unfold xTruncateLoop
    rw [Code.bind_of_ok (node_core core)]
    by_cases cuts : first ≤ index.val ∧ value.blockMap index ≠ 0
    · rw [if_pos cuts]
      have hardware := reached.consistent.hardware
      rcases deallocateBlockLocked_cases hardware cuts.2 with fault | ⟨inside, freed⟩
      · exact Or.inl (Code.bind_of_fault fault _)
      rw [Code.bind_of_ok freed, Code.bind_of_ok (updateNode_core ((core_mark _ false ref value).mpr core) _)]
      -- the two changes commute, and in the other order no rule is broken in between
      have same : Inode.identity (value.withEntry index 0) = Inode.identity value := rfl
      have withdrawn := reached.withdraw core same rfl cuts.2 rfl true (by simp)
      have released := withdrawn.mark_false (by simp) inside
      have core' : (SerenaFS.mark (fs.setNode ref (some (value.withEntry index 0)))
          (value.blockMap index) false).Core ref (value.withEntry index 0) :=
        (core_mark _ false ref _).mpr (core_setNode_self core _)
      have map : cutMap first rest (value.withEntry index 0).blockMap =
          cutMap first (index :: rest) value.blockMap := by
        funext other
        unfold cutMap Inode.withEntry
        by_cases equal : other = index
        · subst equal
          simp [cuts.1]
        · simp [equal]
      rcases ih released core' with fault | ⟨after, returned, reached', final, blocks⟩
      · exact Or.inl fault
      · refine Or.inr ⟨after, returned, reached', map ▸ final, fun lba notBitmap => ?_⟩
        exact (blocks lba notBitmap).trans (mark_block_of_ne hardware inside false notBitmap)
    · rw [if_neg cuts]
      have map : cutMap first rest value.blockMap = cutMap first (index :: rest) value.blockMap := by
        funext other
        unfold cutMap
        by_cases equal : other = index
        · subst equal
          by_cases low : first ≤ other.val
          · have empty : value.blockMap other = 0 := by
              by_contra nonzero
              exact cuts ⟨low, nonzero⟩
            simp [empty]
          · simp [low]
        · simp [equal]
      rcases ih reached core with fault | ⟨after, returned, reached', final, blocks⟩
      · exact Or.inl fault
      · exact Or.inr ⟨after, returned, reached', map ▸ final, blocks⟩

/-- The inode after `SerenaFS_xTruncateFile`. -/
def truncated (value : Inode) (length : Int) : Inode :=
  { value.setUpdated with
    size := length
    blockMap := cutMap (firstBlockIdx value.size) (List.finRange kSFSMaxDirectDataBlockPointers)
      value.blockMap }

theorem xTruncateFile_spec (length : Int) {dirty : Bool} {value : Inode}
    (reached : Reached origin ref start strict dirty [] fs) (core : fs.Core ref value) :
    xTruncateFile ref length fs = .fault ∨
      ∃ after, xTruncateFile ref length fs = .ok () after ∧ 0 ≤ firstBlockIdx value.size ∧
        Reached origin ref start strict false [] after ∧ after.Core ref (truncated value length) ∧
        ∀ lba, ¬ fs.IsBitmapBlock lba → after.disk.block lba = fs.disk.block lba := by
  unfold xTruncateFile
  rw [Code.bind_of_ok (node_core core)]
  by_cases negative : firstBlockIdx value.size < 0
  · rw [if_pos negative]
    exact Or.inl rfl
  rw [if_neg negative]
  rcases xTruncateLoop_spec (firstBlockIdx value.size) _ reached.unflag core with
    fault | ⟨middle, returned, reached', final, blocks⟩
  · exact Or.inl (Code.bind_of_fault fault _)
  · rw [Code.bind_of_ok returned, updateNode_core final]
    refine Or.inr ⟨_, rfl, by omega, ?_, core_setNode_self final _, blocks⟩
    refine reached'.setNode final ?_ ?_ false ?_
    · rfl
    · rfl
    · simp [Inode.isModified, Inode.setUpdated]

theorem truncate_spec (user : User) (length : Int) :
    Code.Spec (Reached origin ref start strict false []) (truncate ref user length)
      (fun _ => Reached origin ref start strict false [])
      (fun _ => Reached origin ref start strict false []) := by
  intro fs reached
  obtain ⟨value, core, -⟩ := reached.core
  unfold truncate
  rw [Code.bind_of_ok (node_core core)]
  by_cases directory : value.isDirectory = true
  · rw [if_pos directory]
    exact reached
  rw [if_neg directory]
  by_cases irregular : (!value.isRegularFile) = true
  · rw [if_pos irregular]
    exact reached
  rw [if_neg irregular]
  by_cases negative : length < 0
  · rw [if_pos negative]
    exact reached
  rw [if_neg negative]
  cases access : value.checkAccess user kFilePermissionWrite with
  | some reason => exact reached
  | none =>
    rw [Code.bind_of_ok (show check none fs = .ok () fs from rfl)]
    by_cases grows : value.size < length
    · rw [if_pos grows, updateNode_core core]
      refine reached.setNode core ?_ ?_ false ?_
      · rfl
      · rfl
      · simp [Inode.isModified, Inode.setUpdated]
    rw [if_neg grows]
    by_cases shrinks : length < value.size
    · rw [if_pos shrinks]
      rcases xTruncateFile_spec length reached core with fault | ⟨after, returned, -, final, -⟩
      · rw [fault]
        trivial
      · rw [returned]
        exact final
    · rw [if_neg shrinks]
      exact reached

end Files

end Apollo.Serenafs
