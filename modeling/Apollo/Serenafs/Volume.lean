import Apollo.Lib.Ledger
import Apollo.Serenafs.Format

/-!
# The nodes of a volume and the blocks they hold

A volume is a set of nodes.  A node that is in use lives in core, and its inode
there is the truth about it; any other node is what its inode block on the disk
says.  Every block of the volume has at most one role: volume header, bitmap
block, inode block of a node or content block of a node.  `Consistent` is the
invariant that ties the in-core inodes, the disk and the allocation bitmap
together.  While an operation is under way one inode may differ from its disk
node without being flagged (`dirty`), and blocks may be marked without being
entered in a block map (`pending`).
-/

set_option autoImplicit false

namespace Apollo

/-- The part of an in-core inode that goes to its disk node, without the
time-stamps. -/
def Inode.view (value : Inode) : Serenafs.NodeView :=
  ⟨value.type, value.linkCount, value.size, value.uid, value.gid, value.permissions,
    value.blockMap⟩

def Inode.identity (value : Inode) :
    Nat × Int × Int × FileType × FilePermissions × UInt32 × UInt32 :=
  (value.inid, value.useCount, value.linkCount, value.type, value.permissions, value.uid, value.gid)

def Inode.withEntry (value : Inode) (index : Fin kSFSMaxDirectDataBlockPointers) (lba : Nat) :
    Inode :=
  { value with blockMap := Function.update value.blockMap index lba }

end Apollo

namespace Apollo.Serenafs

open Lib

/-! ## Nodes -/

/-- The nodes that exist after a history of events; the root directory always
did. -/
def aliveIn (root : Nat) : List NodeEvent → Nat → Bool
  | [], id => id == root
  | .allocated new :: rest, id => id == new || aliveIn root rest id
  | .removed _ old :: rest, id => id != old && aliveIn root rest id

/-- Block `id` is the inode block of a node. -/
def SerenaFS.hasNode (fs : SerenaFS) (id : Nat) : Bool := aliveIn fs.rootDirLba fs.nodeLog id

structure SerenaFS.Core (fs : SerenaFS) (ref : InodeRef) (value : Inode) : Prop where
  inUse : ref ∈ fs.inodesInUse
  stored : fs.inode ref = some value

def SerenaFS.Absent (fs : SerenaFS) (id : Nat) : Prop :=
  ∀ ref value, fs.Core ref value → value.inid ≠ id

inductive SerenaFS.IsNode (fs : SerenaFS) : Nat → NodeView → Prop
  | core {ref : InodeRef} {value : Inode} (core : fs.Core ref value) :
      IsNode fs value.inid value.view
  | disk {id : Nat} (has : fs.hasNode id = true) (absent : fs.Absent id) :
      IsNode fs id (decodeInode (fs.disk.block id)).view

theorem SerenaFS.Core.value_eq {fs : SerenaFS} {ref : InodeRef} {value value' : Inode}
    (core : fs.Core ref value) (core' : fs.Core ref value') : value = value' := by
  have same := core.stored.symm.trans core'.stored
  simpa using same

inductive Role where
  | header
  | bitmap (index : Nat)
  | inode (id : Nat)
  | content (id : Nat) (index : Fin kSFSMaxDirectDataBlockPointers)
  | pending (lba : Nat)
  deriving DecidableEq

/-- The block `lba` has this role on the volume. -/
def SerenaFS.Holds (fs : SerenaFS) : Role → Nat → Prop
  | .header, lba => lba = 0
  | .bitmap index, lba =>
    index < fs.allocationBitmapBlockCount ∧ lba = fs.allocationBitmapLba + index
  | .inode id, lba => fs.hasNode id = true ∧ lba = id
  | .content id index, lba => ∃ view, fs.IsNode id view ∧ view.blockMap index = lba ∧ lba ≠ 0
  | .pending _, _ => False

def SerenaFS.ledger (fs : SerenaFS) (pending : List Nat) : Ledger Role Nat where
  holds role lba := fs.Holds role lba ∨ (role = .pending lba ∧ lba ∈ pending)
  used lba := isBlockInUse fs.allocationBitmap lba = true

/-! ## The invariant -/

structure SerenaFS.Hardware (fs : SerenaFS) : Prop where
  quiet : fs.disk.faults = []
  geometry : fs.Geometry
  volume : fs.volumeBlockCount ≤ fs.disk.blockCount
  addresses : fs.volumeBlockCount ≤ 4294967296

structure SerenaFS.Table (fs : SerenaFS) : Prop where
  nodup : fs.inodesInUse.Nodup
  fresh : ∀ ref, fs.nextRef ≤ ref → fs.inode ref = none
  known : ∀ ref, ref ∈ fs.inodesInUse → ∃ value, fs.inode ref = some value
  counted : ∀ ref value, fs.Core ref value → 0 < value.useCount
  linked : ∀ ref value, fs.Core ref value → value.linkCount ≤ 1
  alive : ∀ ref value, fs.Core ref value → fs.hasNode value.inid = true
  unique : ∀ ref ref' value value', fs.Core ref value → fs.Core ref' value' →
    value.inid = value'.inid → ref = ref'

structure SerenaFS.WrittenBack (fs : SerenaFS) (dirty : Option InodeRef) : Prop where
  clean : ∀ ref value, fs.Core ref value → dirty ≠ some ref → value.isModified = false →
    (decodeInode (fs.disk.block value.inid)).view = value.view.stored
  absent : ∀ id, fs.hasNode id = true → fs.Absent id →
    (decodeInode (fs.disk.block id)).linkCount = 1

/-- Every block has one role at most and the marked blocks include those with a
role; in the `strict` case they are no others. -/
structure SerenaFS.Accounts (fs : SerenaFS) (strict : Prop) (pending : List Nat) : Prop where
  inVolume : ∀ lba, isBlockInUse fs.allocationBitmap lba = true → lba < fs.volumeBlockCount
  sound : (fs.ledger pending).Sound
  tight : strict → (fs.ledger pending).Tight

structure SerenaFS.Consistent (fs : SerenaFS) (strict : Prop) (dirty : Option InodeRef)
    (pending : List Nat) : Prop where
  hardware : fs.Hardware
  table : fs.Table
  disk : fs.WrittenBack dirty
  accounts : fs.Accounts strict pending

section Facts
variable {fs : SerenaFS} {strict : Prop} {dirty : Option InodeRef} {pending : List Nat}

variable {ref : InodeRef} {id lba : Nat} {role : Role}

theorem SerenaFS.Table.eq_of_inid (table : fs.Table) {ref' : InodeRef} {value value' : Inode}
    (core : fs.Core ref value) (core' : fs.Core ref' value') (same : value.inid = value'.inid) :
    ref = ref' ∧ value = value' := by
  have sameRef := table.unique _ _ _ _ core core' same
  subst sameRef
  exact ⟨rfl, core.value_eq core'⟩

theorem SerenaFS.Table.isNode_inid (table : fs.Table) {value : Inode}
    (core : fs.Core ref value) (view : NodeView) :
    fs.IsNode value.inid view ↔ view = value.view := by
  constructor
  · intro isNode
    generalize identity : value.inid = id at isNode
    cases isNode with
    | core other => rw [(table.eq_of_inid core other identity).2]
    | disk has absent => exact absurd identity (absent _ _ core)
  · rintro rfl
    exact .core core

theorem SerenaFS.Table.hasNode_of_isNode (table : fs.Table) {view : NodeView}
    (isNode : fs.IsNode id view) : fs.hasNode id = true := by
  cases isNode with
  | core core => exact table.alive _ _ core
  | disk has absent => exact has

theorem SerenaFS.Accounts.lt_volume (accounts : fs.Accounts strict pending) (holds : (fs.ledger pending).holds role lba) : lba < fs.volumeBlockCount :=
  accounts.inVolume lba (accounts.sound.covered holds)

theorem SerenaFS.Accounts.blockMap_lt (accounts : fs.Accounts strict pending)
    {view : NodeView} (isNode : fs.IsNode id view)
    (index : Fin kSFSMaxDirectDataBlockPointers) :
    view.blockMap index = 0 ∨ view.blockMap index < fs.volumeBlockCount := by
  by_cases zero : view.blockMap index = 0
  · exact Or.inl zero
  · have content : fs.Holds (.content id index) (view.blockMap index) := ⟨view, isNode, rfl, zero⟩
    exact Or.inr (accounts.lt_volume (Or.inl content))

/-- A block with another role is no node's inode block. -/
theorem SerenaFS.Accounts.hasNode_of_holds (accounts : fs.Accounts strict pending) (holds : (fs.ledger pending).holds role lba) (other : role ≠ .inode lba) :
    fs.hasNode lba = false := by
  cases has : fs.hasNode lba with
  | false => rfl
  | true =>
    have inode : fs.Holds (.inode lba) lba := ⟨has, rfl⟩
    exact absurd (accounts.sound.exclusive holds (Or.inl inode)) other

theorem SerenaFS.Accounts.hasNode_bitmap (accounts : fs.Accounts strict pending) {index : Nat}
    (inside : index < fs.allocationBitmapBlockCount) :
    fs.hasNode (fs.allocationBitmapLba + index) = false := by
  have bitmap : fs.Holds (.bitmap index) (fs.allocationBitmapLba + index) := ⟨inside, rfl⟩
  exact accounts.hasNode_of_holds (Or.inl bitmap) (by simp)

theorem SerenaFS.Accounts.hasNode_pending (accounts : fs.Accounts strict pending)
    (member : lba ∈ pending) : fs.hasNode lba = false := by
  have claimed : (fs.ledger pending).holds (.pending lba) lba := Or.inr ⟨rfl, member⟩
  exact accounts.hasNode_of_holds claimed (by simp)

end Facts

/-! ## Changes that leave every node as it is -/

structure SameNodes (fs other : SerenaFS) : Prop where
  core_iff : ∀ ref value, other.Core ref value ↔ fs.Core ref value
  hasNode : ∀ id, other.hasNode id = fs.hasNode id
  block : ∀ id, fs.hasNode id = true → fs.Absent id → other.disk.block id = fs.disk.block id

namespace SameNodes
variable {fs other : SerenaFS} (same : SameNodes fs other)

include same

theorem absent_iff (id : Nat) : other.Absent id ↔ fs.Absent id := by
  unfold SerenaFS.Absent
  simp only [same.core_iff]

theorem isNode_iff (id : Nat) (view : NodeView) : other.IsNode id view ↔ fs.IsNode id view := by
  constructor
  · intro isNode
    cases isNode with
    | core core => exact .core ((same.core_iff _ _).mp core)
    | disk has absent =>
      have has' : fs.hasNode id = true := same.hasNode id ▸ has
      have absent' := (same.absent_iff id).mp absent
      rw [same.block id has' absent']
      exact .disk has' absent'
  · intro isNode
    cases isNode with
    | core core => exact .core ((same.core_iff _ _).mpr core)
    | disk has absent =>
      rw [← same.block id has absent]
      exact .disk (by rw [same.hasNode, has]) ((same.absent_iff id).mpr absent)

theorem table (table : fs.Table) (nodup : other.inodesInUse.Nodup)
    (fresh : ∀ ref, other.nextRef ≤ ref → other.inode ref = none)
    (known : ∀ ref, ref ∈ other.inodesInUse → ∃ value, other.inode ref = some value) :
    other.Table where
  nodup := nodup
  fresh := fresh
  known := known
  counted ref value core := table.counted ref value ((same.core_iff ref value).mp core)
  linked ref value core := table.linked ref value ((same.core_iff ref value).mp core)
  alive ref value core := by
    rw [same.hasNode]
    exact table.alive ref value ((same.core_iff ref value).mp core)
  unique ref ref' value value' core core' :=
    table.unique ref ref' value value' ((same.core_iff _ _).mp core) ((same.core_iff _ _).mp core')

/-- The disk nodes of the inodes in use are the same, unless they may be stale. -/
theorem writtenBack {dirty dirty' : Option InodeRef} (disk : fs.WrittenBack dirty)
    (clean : ∀ ref value, fs.Core ref value → dirty' ≠ some ref →
      dirty ≠ some ref ∧ other.disk.block value.inid = fs.disk.block value.inid) :
    other.WrittenBack dirty' where
  clean ref value core fresh := by
    have core' := (same.core_iff ref value).mp core
    obtain ⟨fresh', block⟩ := clean ref value core' fresh
    rw [block]
    exact disk.clean ref value core' fresh'
  absent id has absent := by
    have has' : fs.hasNode id = true := same.hasNode id ▸ has
    have absent' := (same.absent_iff id).mp absent
    rw [same.block id has' absent']
    exact disk.absent id has' absent'

theorem holds_iff (lba : other.allocationBitmapLba = fs.allocationBitmapLba)
    (count : other.allocationBitmapBlockCount = fs.allocationBitmapBlockCount)
    (role : Role) (block : Nat) : other.Holds role block ↔ fs.Holds role block := by
  cases role with
  | header => exact Iff.rfl
  | bitmap index =>
    change (_ ∧ _) ↔ (_ ∧ _)
    rw [lba, count]
  | inode id =>
    change (_ ∧ _) ↔ (_ ∧ _)
    rw [same.hasNode]
  | content id index =>
    change (∃ view, _ ∧ _) ↔ (∃ view, _ ∧ _)
    simp only [same.isNode_iff]
  | pending claimed => exact Iff.rfl

end SameNodes

section Effects
variable {fs : SerenaFS} {strict : Prop} {dirty : Option InodeRef} {pending : List Nat}

theorem core_writeBlock (lba : Nat) (block : Block) (ref : InodeRef) (value : Inode) :
    (fs.writeBlock lba block).Core ref value ↔ fs.Core ref value :=
  ⟨fun core => ⟨core.inUse, core.stored⟩, fun core => ⟨core.inUse, core.stored⟩⟩

theorem core_mark (lba : Nat) (inUse : Bool) (ref : InodeRef) (value : Inode) :
    (fs.mark lba inUse).Core ref value ↔ fs.Core ref value :=
  ⟨fun core => ⟨core.inUse, core.stored⟩, fun core => ⟨core.inUse, core.stored⟩⟩

variable {lba : Nat}

theorem writeBlock_inodeBlock (free : fs.hasNode lba = false) (block : Block) (id : Nat)
    (has : fs.hasNode id = true) : (fs.writeBlock lba block).disk.block id = fs.disk.block id := by
  refine Function.update_of_ne ?_ _ _
  rintro rfl
  rw [has] at free
  exact absurd free (by decide)

theorem sameNodes_writeBlock (free : fs.hasNode lba = false) (block : Block) :
    SameNodes fs (fs.writeBlock lba block) :=
  ⟨core_writeBlock lba block, fun _ => rfl, fun id has _ => writeBlock_inodeBlock free block id has⟩

theorem mark_inodeBlock (accounts : fs.Accounts strict pending) (geometry : fs.Geometry)
    (inside : lba / 8 < fs.allocationBitmap.length) (inUse : Bool) (id : Nat)
    (has : fs.hasNode id = true) : (fs.mark lba inUse).disk.block id = fs.disk.block id := by
  have free := accounts.hasNode_bitmap (geometry.windowOf_lt inside)
  refine Function.update_of_ne ?_ _ _
  rintro rfl
  rw [has] at free
  exact absurd free (by decide)

theorem sameNodes_mark (accounts : fs.Accounts strict pending) (geometry : fs.Geometry)
    (inside : lba / 8 < fs.allocationBitmap.length) (inUse : Bool) :
    SameNodes fs (fs.mark lba inUse) :=
  ⟨core_mark lba inUse, fun _ => rfl,
    fun id has _ => mark_inodeBlock accounts geometry inside inUse id has⟩

theorem SerenaFS.Accounts.sameNodes {other : SerenaFS} (accounts : fs.Accounts strict pending)
    (same : SameNodes fs other) (lba : other.allocationBitmapLba = fs.allocationBitmapLba)
    (count : other.allocationBitmapBlockCount = fs.allocationBitmapBlockCount)
    (bitmap : other.allocationBitmap = fs.allocationBitmap)
    (volume : other.volumeBlockCount = fs.volumeBlockCount) : other.Accounts strict pending := by
  have holds : ∀ role block, (other.ledger pending).holds role block ↔
      (fs.ledger pending).holds role block := fun role block =>
    or_congr (same.holds_iff lba count role block) Iff.rfl
  have used : ∀ block, (other.ledger pending).used block ↔ (fs.ledger pending).used block := by
    intro block
    change isBlockInUse other.allocationBitmap block = true ↔ _
    rw [bitmap]
    exact Iff.rfl
  refine ⟨?_, ?_, fun isStrict => ?_⟩
  · rw [bitmap, volume]
    exact accounts.inVolume
  · exact accounts.sound.shrink (fun held => (holds _ _).mp held)
      (fun held => (used _).mpr (accounts.sound.covered ((holds _ _).mp held)))
  · intro block marked
    obtain ⟨role, held⟩ := accounts.tight isStrict block ((used block).mp marked)
    exact ⟨role, (holds role block).mpr held⟩

theorem SerenaFS.Hardware.writeBlock (hardware : fs.Hardware) (lba : Nat) (block : Block) :
    (fs.writeBlock lba block).Hardware :=
  ⟨hardware.quiet, ⟨hardware.geometry.bytes, hardware.geometry.blocks, hardware.geometry.onDisk⟩,
    hardware.volume, hardware.addresses⟩

theorem SerenaFS.Consistent.writeBlock (consistent : fs.Consistent strict dirty pending)
    (free : fs.hasNode lba = false) (block : Block) :
    (fs.writeBlock lba block).Consistent strict dirty pending := by
  have same := sameNodes_writeBlock free block
  obtain ⟨hardware, table, disk, accounts⟩ := consistent
  refine ⟨hardware.writeBlock lba block,
    same.table table table.nodup table.fresh table.known, same.writtenBack disk ?_,
    accounts.sameNodes same rfl rfl rfl rfl⟩
  intro ref value core fresh
  exact ⟨fresh, writeBlock_inodeBlock free block _ (table.alive ref value core)⟩

theorem SerenaFS.Hardware.mark (hardware : fs.Hardware) (lba : Nat) (inUse : Bool) :
    (fs.mark lba inUse).Hardware :=
  ⟨hardware.quiet, hardware.geometry.mark lba inUse, hardware.volume, hardware.addresses⟩

theorem isBlockInUse_mark (inside : lba / 8 < fs.allocationBitmap.length) (inUse : Bool)
    (other : Nat) :
    isBlockInUse (fs.mark lba inUse).allocationBitmap other =
      if other = lba then inUse else isBlockInUse fs.allocationBitmap other :=
  isBlockInUse_setBlockInUse _ _ _ inside

theorem SerenaFS.Consistent.mark_true (consistent : fs.Consistent strict dirty pending)
    (inside : lba / 8 < fs.allocationBitmap.length) (volume : lba < fs.volumeBlockCount)
    (unused : isBlockInUse fs.allocationBitmap lba = false) :
    (fs.mark lba true).Consistent strict dirty (lba :: pending) := by
  have accounts := consistent.accounts
  have same := sameNodes_mark accounts consistent.hardware.geometry inside true
  have bit := isBlockInUse_mark inside true
  have grants : Ledger.Grants (fs.ledger pending) ((fs.mark lba true).ledger (lba :: pending))
      (.pending lba) lba := by
    refine ⟨fun role block => ?_, fun block => ?_⟩
    · change _ ∨ _ ↔ (_ ∨ _) ∨ _
      rw [same.holds_iff rfl rfl, List.mem_cons]
      constructor
      · rintro (held | ⟨rfl, rfl | member⟩)
        · exact Or.inl (Or.inl held)
        · exact Or.inr ⟨rfl, rfl⟩
        · exact Or.inl (Or.inr ⟨rfl, member⟩)
      · rintro ((held | ⟨rfl, member⟩) | ⟨rfl, rfl⟩)
        · exact Or.inl held
        · exact Or.inr ⟨rfl, Or.inr member⟩
        · exact Or.inr ⟨rfl, Or.inl rfl⟩
    · change isBlockInUse _ block = true ↔ isBlockInUse _ block = true ∨ block = lba
      rw [bit]
      by_cases same : block = lba <;> simp [same]
  have free : (fs.ledger pending).Free lba :=
    accounts.sound.free_of_not_used (by simp [SerenaFS.ledger, unused])
  have table := consistent.table
  refine ⟨consistent.hardware.mark lba true, same.table table table.nodup table.fresh table.known,
    same.writtenBack consistent.disk fun ref value core fresh => ⟨fresh, ?_⟩, ?_⟩
  · exact mark_inodeBlock accounts consistent.hardware.geometry inside true _
      (consistent.table.alive ref value core)
  refine ⟨?_, grants.sound accounts.sound free, fun isStrict => grants.tight (accounts.tight isStrict)⟩
  intro block marked
  rw [bit] at marked
  by_cases same : block = lba
  · rw [same]
    exact volume
  · rw [if_neg same] at marked
    exact accounts.inVolume block marked

theorem SerenaFS.Consistent.mark_false
    (consistent : fs.Consistent strict dirty (lba :: pending)) (once : lba ∉ pending)
    (inside : lba / 8 < fs.allocationBitmap.length) :
    (fs.mark lba false).Consistent strict dirty pending := by
  have accounts := consistent.accounts
  have same := sameNodes_mark accounts consistent.hardware.geometry inside false
  have bit := isBlockInUse_mark inside false
  have claimed : (fs.ledger (lba :: pending)).holds (.pending lba) lba :=
    Or.inr ⟨rfl, List.mem_cons_self⟩
  have revokes : Ledger.Revokes (fs.ledger (lba :: pending)) ((fs.mark lba false).ledger pending)
      (· = .pending lba) := by
    refine ⟨fun role block => ?_, fun block => ?_⟩
    · change _ ∨ _ ↔ (_ ∨ _) ∧ _
      rw [same.holds_iff rfl rfl, List.mem_cons]
      constructor
      · rintro (held | ⟨rfl, member⟩)
        · refine ⟨Or.inl held, ?_⟩
          rintro rfl
          exact held
        · refine ⟨Or.inr ⟨rfl, Or.inr member⟩, fun equal => once ?_⟩
          rw [Role.pending.injEq] at equal
          exact equal ▸ member
      · rintro ⟨held | ⟨rfl, rfl | member⟩, different⟩
        · exact Or.inl held
        · exact absurd rfl different
        · exact Or.inr ⟨rfl, member⟩
    · change isBlockInUse _ block = true ↔ isBlockInUse _ block = true ∧ _
      rw [bit]
      by_cases equal : block = lba
      · subst equal
        simp [claimed]
      · simp only [equal, if_false, forall_eq, iff_self_and]
        rintro _ (held | ⟨same, -⟩)
        · exact held
        · rw [Role.pending.injEq] at same
          exact equal same.symm
  have table := consistent.table
  refine ⟨consistent.hardware.mark lba false, same.table table table.nodup table.fresh table.known,
    same.writtenBack consistent.disk fun ref value core fresh => ⟨fresh, ?_⟩, ?_⟩
  · exact mark_inodeBlock accounts consistent.hardware.geometry inside false _
      (consistent.table.alive ref value core)
  refine ⟨?_, revokes.sound accounts.sound, fun isStrict => revokes.tight (accounts.tight isStrict)⟩
  intro block marked
  rw [bit] at marked
  by_cases same : block = lba
  · simp [same] at marked
  · rw [if_neg same] at marked
    exact accounts.inVolume block marked

end Effects

/-! ## Changes of one inode in use -/

section Update
variable {fs : SerenaFS} {ref : InodeRef} {value value' : Inode}

theorem core_setNode (core : fs.Core ref value) (other : InodeRef) (found : Inode) :
    (fs.setNode ref (some value')).Core other found ↔
      (other = ref ∧ found = value') ∨ (other ≠ ref ∧ fs.Core other found) := by
  by_cases same : other = ref
  · subst same
    constructor
    · rintro ⟨-, stored⟩
      simp only [SerenaFS.setNode, Function.update_self, Option.some.injEq] at stored
      exact Or.inl ⟨rfl, stored.symm⟩
    · rintro (⟨-, rfl⟩ | ⟨different, -⟩)
      · exact ⟨core.inUse, Function.update_self _ _ _⟩
      · exact absurd rfl different
  · have unchanged : (fs.setNode ref (some value')).inode other = fs.inode other :=
      Function.update_of_ne same _ _
    constructor
    · rintro ⟨inUse, stored⟩
      exact Or.inr ⟨same, inUse, unchanged ▸ stored⟩
    · rintro (⟨equal, -⟩ | ⟨-, inUse, stored⟩)
      · exact absurd equal same
      · exact ⟨inUse, unchanged.trans stored⟩

variable (core : fs.Core ref value) (inid : value'.inid = value.inid)

include core inid

theorem absent_setNode (id : Nat) : (fs.setNode ref (some value')).Absent id ↔ fs.Absent id := by
  constructor
  · intro absent other found held
    by_cases same : other = ref
    · subst same
      rw [← core.value_eq held, ← inid]
      exact absent _ _ ((core_setNode core _ _).mpr (Or.inl ⟨rfl, rfl⟩))
    · exact absent other found ((core_setNode core _ _).mpr (Or.inr ⟨same, held⟩))
  · intro absent other found held
    rcases (core_setNode core _ _).mp held with ⟨rfl, rfl⟩ | ⟨-, old⟩
    · rw [inid]
      exact absent _ _ core
    · exact absent other found old

theorem isNode_setNode (table : fs.Table) (id : Nat) (view : NodeView) :
    (fs.setNode ref (some value')).IsNode id view ↔
      if id = value.inid then view = value'.view else fs.IsNode id view := by
  split_ifs with same
  · subst same
    constructor
    · intro isNode
      generalize identity : value.inid = id at isNode
      cases isNode with
      | core held =>
        rcases (core_setNode core _ _).mp held with ⟨rfl, rfl⟩ | ⟨different, old⟩
        · rfl
        · exact absurd (table.eq_of_inid core old identity).1.symm different
      | disk has absent =>
        exact absurd identity ((absent_setNode core inid id).mp absent _ _ core)
    · rintro rfl
      rw [← inid]
      exact .core ((core_setNode core _ _).mpr (Or.inl ⟨rfl, rfl⟩))
  · constructor
    · intro isNode
      cases isNode with
      | core held =>
        rcases (core_setNode core _ _).mp held with ⟨rfl, rfl⟩ | ⟨-, old⟩
        · exact absurd inid same
        · exact .core old
      | disk has absent => exact .disk has ((absent_setNode core inid id).mp absent)
    · intro isNode
      cases isNode with
      | @core other found held =>
        have different : other ≠ ref := by
          rintro rfl
          exact same (by rw [core.value_eq held])
        exact .core ((core_setNode core _ _).mpr (Or.inr ⟨different, held⟩))
      | disk has absent => exact .disk has ((absent_setNode core inid id).mpr absent)

theorem table_setNode (table : fs.Table) (counted : 0 < value'.useCount)
    (linked : value'.linkCount ≤ 1) : (fs.setNode ref (some value')).Table where
  nodup := table.nodup
  fresh other low := by
    have different : other ≠ ref := by
      rintro rfl
      have none := table.fresh _ low
      rw [core.stored] at none
      simp at none
    exact (Function.update_of_ne different _ _).trans (table.fresh other low)
  known other inUse := by
    by_cases same : other = ref
    · subst same
      exact ⟨value', Function.update_self _ _ _⟩
    · obtain ⟨found, stored⟩ := table.known other inUse
      exact ⟨found, (Function.update_of_ne same _ _).trans stored⟩
  counted other found held := by
    rcases (core_setNode core _ _).mp held with ⟨rfl, rfl⟩ | ⟨-, old⟩
    · exact counted
    · exact table.counted _ _ old
  linked other found held := by
    rcases (core_setNode core _ _).mp held with ⟨rfl, rfl⟩ | ⟨-, old⟩
    · exact linked
    · exact table.linked _ _ old
  alive other found held := by
    rcases (core_setNode core _ _).mp held with ⟨rfl, rfl⟩ | ⟨-, old⟩
    · rw [inid]
      exact table.alive _ _ core
    · exact table.alive _ _ old
  unique other other' found found' held held' same := by
    rcases (core_setNode core _ _).mp held with ⟨rfl, rfl⟩ | ⟨different, old⟩
    · rcases (core_setNode core _ _).mp held' with ⟨rfl, rfl⟩ | ⟨-, old'⟩
      · rfl
      · exact table.unique _ _ _ _ core old' (inid ▸ same)
    · rcases (core_setNode core _ _).mp held' with ⟨rfl, rfl⟩ | ⟨-, old'⟩
      · exact table.unique _ _ _ _ old core (inid ▸ same)
      · exact table.unique _ _ _ _ old old' same

theorem writtenBack_setNode {dirty dirty' : Option InodeRef} (disk : fs.WrittenBack dirty)
    (others : ∀ other, other ≠ ref → dirty' ≠ some other → dirty ≠ some other)
    (self : dirty' ≠ some ref → value'.isModified = false →
      (decodeInode (fs.disk.block value.inid)).view = value'.view.stored) :
    (fs.setNode ref (some value')).WrittenBack dirty' where
  clean other found held clean unmodified := by
    rcases (core_setNode core _ _).mp held with ⟨rfl, rfl⟩ | ⟨different, old⟩
    · rw [inid]
      exact self clean unmodified
    · exact disk.clean other found old (others other different clean) unmodified
  absent id has absent := disk.absent id has ((absent_setNode core inid id).mp absent)

theorem holds_setNode (table : fs.Table) (role : Role) (lba : Nat) :
    (fs.setNode ref (some value')).Holds role lba ↔
      match role with
      | .content id index =>
        if id = value.inid then value'.blockMap index = lba ∧ lba ≠ 0
        else fs.Holds (.content id index) lba
      | role => fs.Holds role lba := by
  cases role with
  | content id index =>
    change (∃ view, _ ∧ _) ↔ _
    simp only [isNode_setNode core inid table]
    split_ifs with same
    · simp only [exists_eq_left, Inode.view]
    · exact Iff.rfl
  | header => exact Iff.rfl
  | bitmap index => exact Iff.rfl
  | inode id => exact Iff.rfl
  | pending claimed => exact Iff.rfl

end Update

section UpdateConsistent
variable {fs : SerenaFS} {strict : Prop} {dirty dirty' : Option InodeRef} {pending : List Nat}
variable {ref : InodeRef} {value value' : Inode}

theorem SerenaFS.Consistent.setNode (consistent : fs.Consistent strict dirty pending)
    (core : fs.Core ref value) (inid : value'.inid = value.inid)
    (map : value'.blockMap = value.blockMap) (counted : 0 < value'.useCount)
    (linked : value'.linkCount ≤ 1)
    (others : ∀ other, other ≠ ref → dirty' ≠ some other → dirty ≠ some other)
    (self : dirty' ≠ some ref → value'.isModified = false →
      (decodeInode (fs.disk.block value.inid)).view = value'.view.stored) :
    (fs.setNode ref (some value')).Consistent strict dirty' pending := by
  obtain ⟨⟨quiet, ⟨bytes, blocks, onDisk⟩, volume, addresses⟩, table, disk, accounts⟩ := consistent
  have holds : ∀ role lba, ((fs.setNode ref (some value')).ledger pending).holds role lba ↔
      (fs.ledger pending).holds role lba := by
    intro role lba
    refine or_congr ?_ Iff.rfl
    rw [holds_setNode core inid table]
    cases role with
    | content id index =>
      simp only
      split_ifs with same
      · subst same
        rw [map]
        constructor
        · rintro ⟨entry, nonzero⟩
          exact ⟨value.view, .core core, entry, nonzero⟩
        · rintro ⟨view, isNode, entry, nonzero⟩
          rw [(table.isNode_inid core view).mp isNode] at entry
          exact ⟨entry, nonzero⟩
      · exact Iff.rfl
    | header => exact Iff.rfl
    | bitmap index => exact Iff.rfl
    | inode id => exact Iff.rfl
    | pending claimed => exact Iff.rfl
  refine ⟨⟨quiet, ⟨bytes, blocks, onDisk⟩, volume, addresses⟩,
    table_setNode core inid table counted linked,
    writtenBack_setNode core inid disk others self, accounts.inVolume, ?_, fun isStrict => ?_⟩
  · exact accounts.sound.shrink (fun held => (holds _ _).mp held)
      (fun held => accounts.sound.covered ((holds _ _).mp held))
  · intro lba marked
    obtain ⟨role, held⟩ := accounts.tight isStrict lba marked
    exact ⟨role, (holds role lba).mpr held⟩

section Entry
variable {index : Fin kSFSMaxDirectDataBlockPointers} {lba : Nat}

theorem holds_content_inid (table : fs.Table) (core : fs.Core ref value)
    (other : Fin kSFSMaxDirectDataBlockPointers) (block : Nat) :
    fs.Holds (.content value.inid other) block ↔ value.blockMap other = block ∧ block ≠ 0 := by
  constructor
  · rintro ⟨view, isNode, entry, nonzero⟩
    rw [(table.isNode_inid core view).mp isNode] at entry
    exact ⟨entry, nonzero⟩
  · rintro ⟨entry, nonzero⟩
    exact ⟨value.view, .core core, entry, nonzero⟩

/-- One entry of the block map of a node in use changes; `block` is the other
block that is affected. -/
theorem holds_setNode_entry (table : fs.Table) (core : fs.Core ref value)
    (inid : value'.inid = value.inid)
    (map : value'.blockMap = Function.update value.blockMap index lba) (role : Role) (block : Nat) :
    (fs.setNode ref (some value')).Holds role block ↔
      if role = .content value.inid index then lba = block ∧ block ≠ 0
      else fs.Holds role block := by
  rw [holds_setNode core inid table]
  cases role with
  | content id other =>
    simp only [Role.content.injEq]
    by_cases same : id = value.inid
    · subst same
      rw [if_pos rfl, map, holds_content_inid table core]
      by_cases equal : other = index
      · subst equal
        rw [Function.update_self, if_pos ⟨rfl, rfl⟩]
      · rw [Function.update_of_ne equal, if_neg (by simp [equal])]
    · rw [if_neg same, if_neg (by simp [same])]
  | header => simp
  | bitmap index => simp
  | inode id => simp
  | pending claimed => simp

theorem SerenaFS.Consistent.enter (consistent : fs.Consistent strict dirty [lba])
    (core : fs.Core ref value) (inid : value'.inid = value.inid)
    (vacant : value.blockMap index = 0) (nonzero : lba ≠ 0)
    (map : value'.blockMap = Function.update value.blockMap index lba)
    (counted : 0 < value'.useCount) (linked : value'.linkCount ≤ 1)
    (others : ∀ other, other ≠ ref → dirty' ≠ some other → dirty ≠ some other)
    (self : dirty' ≠ some ref → value'.isModified = true) :
    (fs.setNode ref (some value')).Consistent strict dirty' [] := by
  obtain ⟨⟨quiet, ⟨bytes, blocks, onDisk⟩, volume, addresses⟩, table, disk, accounts⟩ := consistent
  have moves : Ledger.Moves (fs.ledger [lba]) ((fs.setNode ref (some value')).ledger [])
      (.pending lba) (.content value.inid index) := by
    refine ⟨fun role block => ?_, fun block => Iff.rfl⟩
    change (_ ∨ _) ↔ ((_ ∨ _) ∧ _) ∨ (_ ∧ (_ ∨ _))
    rw [holds_setNode_entry table core inid map]
    by_cases entry : role = .content value.inid index
    · subst entry
      rw [if_pos rfl, holds_content_inid table core, vacant]
      constructor
      · rintro (⟨rfl, -⟩ | ⟨equal, -⟩)
        · exact Or.inr ⟨rfl, Or.inr ⟨rfl, List.mem_cons_self⟩⟩
        · simp at equal
      · rintro (⟨⟨zero, some⟩ | ⟨equal, -⟩, -⟩ | ⟨-, held | ⟨equal, -⟩⟩)
        · exact absurd zero.symm some
        · simp at equal
        · exact held.elim
        · rw [Role.pending.injEq] at equal
          subst equal
          exact Or.inl ⟨rfl, nonzero⟩
    · rw [if_neg entry]
      constructor
      · rintro (held | ⟨-, member⟩)
        · refine Or.inl ⟨Or.inl held, ?_⟩
          rintro rfl
          exact held
        · simp at member
      · rintro (⟨held | ⟨rfl, member⟩, different⟩ | ⟨equal, -⟩)
        · exact Or.inl held
        · simp only [List.mem_singleton] at member
          exact absurd (by rw [member]) different
        · exact absurd equal entry
  exact ⟨⟨quiet, ⟨bytes, blocks, onDisk⟩, volume, addresses⟩,
    table_setNode core inid table counted linked,
    writtenBack_setNode core inid disk others
      (fun clean unmodified => by rw [self clean] at unmodified; simp at unmodified),
    accounts.inVolume, moves.sound accounts.sound,
    fun isStrict => moves.tight (accounts.tight isStrict)⟩

/-- A block is taken out of the block map and becomes pending. -/
theorem SerenaFS.Consistent.withdraw (consistent : fs.Consistent strict dirty [])
    (core : fs.Core ref value) (inid : value'.inid = value.inid)
    (occupied : value.blockMap index = lba) (nonzero : lba ≠ 0)
    (map : value'.blockMap = Function.update value.blockMap index 0)
    (counted : 0 < value'.useCount) (linked : value'.linkCount ≤ 1)
    (others : ∀ other, other ≠ ref → dirty' ≠ some other → dirty ≠ some other)
    (self : dirty' ≠ some ref → value'.isModified = true) :
    (fs.setNode ref (some value')).Consistent strict dirty' [lba] := by
  obtain ⟨⟨quiet, ⟨bytes, blocks, onDisk⟩, volume, addresses⟩, table, disk, accounts⟩ := consistent
  have moves : Ledger.Moves (fs.ledger []) ((fs.setNode ref (some value')).ledger [lba])
      (.content value.inid index) (.pending lba) := by
    refine ⟨fun role block => ?_, fun block => Iff.rfl⟩
    change (_ ∨ _) ↔ ((_ ∨ _) ∧ _) ∨ (_ ∧ (_ ∨ _))
    rw [holds_setNode_entry table core inid map, holds_content_inid table core, occupied]
    by_cases entry : role = .content value.inid index
    · subst entry
      simp only [reduceCtorEq, false_and, or_false, ne_eq, not_true_eq_false, and_false, iff_false]
      rintro ⟨rfl, absurd⟩
      exact absurd rfl
    · rw [if_neg entry]
      constructor
      · rintro (held | ⟨rfl, member⟩)
        · exact Or.inl ⟨Or.inl held, entry⟩
        · simp only [List.mem_singleton] at member
          subst member
          exact Or.inr ⟨rfl, Or.inl ⟨rfl, nonzero⟩⟩
      · rintro (⟨held | ⟨rfl, member⟩, -⟩ | ⟨rfl, ⟨rfl, -⟩ | ⟨equal, -⟩⟩)
        · exact Or.inl held
        · simp at member
        · exact Or.inr ⟨rfl, List.mem_cons_self⟩
        · simp at equal
  exact ⟨⟨quiet, ⟨bytes, blocks, onDisk⟩, volume, addresses⟩,
    table_setNode core inid table counted linked,
    writtenBack_setNode core inid disk others
      (fun clean unmodified => by rw [self clean] at unmodified; simp at unmodified),
    accounts.inVolume, moves.sound accounts.sound,
    fun isStrict => moves.tight (accounts.tight isStrict)⟩

end Entry

end UpdateConsistent

end Apollo.Serenafs
