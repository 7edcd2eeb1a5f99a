import Apollo.Serenafs.DirectorySpecs
import Mathlib.Data.List.OfFn
import Mathlib.Data.List.TakeWhile

/-!
# The life cycle of a node

Allocating, acquiring and relinquishing a node change the table of inodes in
use.  Each of these calls amounts to one of a few state functions: `install`
enters an inode in the table, `evict` takes it out, `remove` takes it out and
deletes the node, and `release` gives its blocks back.
-/

set_option autoImplicit false

namespace Apollo.Serenafs

open Lib

/-! ## Changes of the table -/

def SerenaFS.orphan (fs : SerenaFS) (value : Inode) : SerenaFS :=
  { fs with
    inode := Function.update fs.inode fs.nextRef (some value)
    nextRef := fs.nextRef + 1 }

def SerenaFS.install (fs : SerenaFS) (value : Inode) : SerenaFS :=
  { fs with
    inode := Function.update fs.inode fs.nextRef (some value)
    nextRef := fs.nextRef + 1
    inodesInUse := fs.inodesInUse ++ [fs.nextRef] }

def SerenaFS.logged (fs : SerenaFS) (event : NodeEvent) : SerenaFS :=
  { fs with nodeLog := event :: fs.nodeLog }

def SerenaFS.withHeap (fs : SerenaFS) (heap : List Bool) : SerenaFS := { fs with heapFaults := heap }

def SerenaFS.evict (fs : SerenaFS) (ref : InodeRef) : SerenaFS :=
  { fs with
    inode := Function.update fs.inode ref none
    inodesInUse := fs.inodesInUse.erase ref }

def SerenaFS.release (fs : SerenaFS) (blocks : List Nat) : SerenaFS :=
  blocks.foldl (fun fs lba => fs.mark lba false) fs

section Table
variable {fs : SerenaFS} {strict : Prop} {dirty : Option InodeRef} {pending : List Nat}
variable {ref : InodeRef} {value : Inode}

theorem SerenaFS.Table.nextRef_notMem (table : fs.Table) : fs.nextRef ∉ fs.inodesInUse := by
  intro member
  obtain ⟨value, stored⟩ := table.known _ member
  rw [table.fresh _ (le_refl _)] at stored
  simp at stored

theorem core_orphan (table : fs.Table) (r : InodeRef) (found : Inode) :
    (fs.orphan value).Core r found ↔ fs.Core r found := by
  have different : ∀ {r}, r ∈ fs.inodesInUse → r ≠ fs.nextRef := by
    rintro r member rfl
    exact table.nextRef_notMem member
  constructor
  · rintro ⟨inUse, stored⟩
    exact ⟨inUse, (Function.update_of_ne (different inUse) _ _).symm.trans stored⟩
  · rintro ⟨inUse, stored⟩
    exact ⟨inUse, (Function.update_of_ne (different inUse) _ _).trans stored⟩

theorem core_install (table : fs.Table) (r : InodeRef) (found : Inode) :
    (fs.install value).Core r found ↔ fs.Core r found ∨ (r = fs.nextRef ∧ found = value) := by
  constructor
  · rintro ⟨inUse, stored⟩
    rcases List.mem_append.mp inUse with old | new
    · exact Or.inl ((core_orphan table r found).mp ⟨old, stored⟩)
    · rw [List.mem_singleton.mp new] at stored ⊢
      simp only [SerenaFS.install, Function.update_self, Option.some.injEq] at stored
      exact Or.inr ⟨rfl, stored.symm⟩
  · rintro (old | ⟨rfl, rfl⟩)
    · exact ⟨List.mem_append_left _ old.inUse, ((core_orphan table r found).mpr old).stored⟩
    · exact ⟨List.mem_append_right _ List.mem_cons_self, Function.update_self _ _ _⟩

theorem core_evict (table : fs.Table) (r : InodeRef) (found : Inode) :
    (fs.evict ref).Core r found ↔ fs.Core r found ∧ r ≠ ref := by
  constructor
  · rintro ⟨inUse, stored⟩
    obtain ⟨different, inUse⟩ := (table.nodup.mem_erase_iff).mp inUse
    exact ⟨⟨inUse, (Function.update_of_ne different _ _).symm.trans stored⟩, different⟩
  · rintro ⟨⟨inUse, stored⟩, different⟩
    exact ⟨(table.nodup.mem_erase_iff).mpr ⟨different, inUse⟩,
      (Function.update_of_ne different _ _).trans stored⟩

theorem fresh_orphan (table : fs.Table) (r : InodeRef) (low : fs.nextRef + 1 ≤ r) :
    (fs.orphan value).inode r = none := by
  have different : r ≠ fs.nextRef := Nat.ne_of_gt low
  exact (Function.update_of_ne different _ _).trans (table.fresh r (Nat.le_of_succ_le low))

theorem table_install (table : fs.Table) (counted : 0 < value.useCount) (linked : value.linkCount ≤ 1)
    (absent : fs.Absent value.inid) (other : SerenaFS)
    (core : ∀ r found, other.Core r found ↔ fs.Core r found ∨ (r = fs.nextRef ∧ found = value))
    (inUse : other.inodesInUse = fs.inodesInUse ++ [fs.nextRef])
    (fresh : ∀ r, other.nextRef ≤ r → other.inode r = none)
    (alive : ∀ id, fs.hasNode id = true ∨ id = value.inid → other.hasNode id = true) :
    other.Table where
  nodup := by
    rw [inUse, List.nodup_append]
    refine ⟨table.nodup, by simp, fun r member r' single same => ?_⟩
    rw [same, List.mem_singleton.mp single] at member
    exact table.nextRef_notMem member
  fresh := fresh
  known r member := by
    rw [inUse] at member
    rcases List.mem_append.mp member with old | new
    · obtain ⟨found, stored⟩ := table.known r old
      exact ⟨found, ((core r found).mpr (Or.inl ⟨old, stored⟩)).stored⟩
    · exact ⟨value, ((core r value).mpr (Or.inr ⟨List.mem_singleton.mp new, rfl⟩)).stored⟩
  counted r found held := by
    rcases (core r found).mp held with old | ⟨-, rfl⟩
    · exact table.counted r found old
    · exact counted
  linked r found held := by
    rcases (core r found).mp held with old | ⟨-, rfl⟩
    · exact table.linked r found old
    · exact linked
  alive r found held := by
    rcases (core r found).mp held with old | ⟨-, rfl⟩
    · exact alive _ (Or.inl (table.alive r found old))
    · exact alive _ (Or.inr rfl)
  unique r r' found found' held held' same := by
    rcases (core r found).mp held with old | ⟨rfl, rfl⟩
    · rcases (core r' found').mp held' with old' | ⟨rfl, rfl⟩
      · exact table.unique r r' found found' old old' same
      · exact absurd same (absent r found old)
    · rcases (core r' found').mp held' with old' | ⟨rfl, rfl⟩
      · exact absurd same.symm (absent r' found' old')
      · rfl

theorem SerenaFS.Hardware.of_eq (hardware : fs.Hardware) {other : SerenaFS}
    (disk : other.disk = fs.disk) (bitmap : other.allocationBitmap = fs.allocationBitmap)
    (size : other.allocationBitmapByteSize = fs.allocationBitmapByteSize)
    (count : other.allocationBitmapBlockCount = fs.allocationBitmapBlockCount)
    (lba : other.allocationBitmapLba = fs.allocationBitmapLba)
    (volume : other.volumeBlockCount = fs.volumeBlockCount) : other.Hardware := by
  obtain ⟨quiet, ⟨bytes, blocks, onDisk⟩, inDisk, addresses⟩ := hardware
  exact ⟨by rw [disk, quiet], ⟨by rw [bitmap, size, bytes], by rw [count, size, blocks],
    by rw [lba, count, disk]; exact onDisk⟩, by rw [volume, disk]; exact inDisk,
    by rw [volume]; exact addresses⟩

theorem SerenaFS.Hardware.install (hardware : fs.Hardware) (value : Inode) (event : NodeEvent) :
    ((fs.install value).logged event).Hardware :=
  hardware.of_eq rfl rfl rfl rfl rfl rfl

theorem SerenaFS.Consistent.install_read (consistent : fs.Consistent strict none pending)
    (has : fs.hasNode value.inid = true) (absent : fs.Absent value.inid)
    (counted : 0 < value.useCount)
    (view : value.view = (decodeInode (fs.disk.block value.inid)).view) :
    (fs.install value).Consistent strict none pending := by
  obtain ⟨hardware, table, disk, accounts⟩ := consistent
  have core : ∀ r found, (fs.install value).Core r found ↔
      fs.Core r found ∨ (r = fs.nextRef ∧ found = value) := core_install table
  have absent_iff : ∀ id, (fs.install value).Absent id ↔ fs.Absent id ∧ id ≠ value.inid := by
    intro id
    constructor
    · intro gone
      exact ⟨fun r found held => gone r found ((core r found).mpr (Or.inl held)),
        fun same => gone fs.nextRef value ((core _ _).mpr (Or.inr ⟨rfl, rfl⟩)) same.symm⟩
    · rintro ⟨gone, different⟩ r found held
      rcases (core r found).mp held with old | ⟨-, rfl⟩
      · exact gone r found old
      · exact different.symm
  have isNode_iff : ∀ id view', (fs.install value).IsNode id view' ↔ fs.IsNode id view' := by
    intro id view'
    constructor
    · intro isNode
      cases isNode with
      | core held =>
        rcases (core _ _).mp held with old | ⟨-, rfl⟩
        · exact .core old
        · rw [view]
          exact .disk has absent
      | disk has' absent' => exact .disk has' ((absent_iff id).mp absent').1
    · intro isNode
      cases isNode with
      | core held => exact .core ((core _ _).mpr (Or.inl held))
      | disk has' absent' =>
        by_cases same : id = value.inid
        · subst same
          have node : (fs.install value).IsNode value.inid value.view :=
            .core ((core fs.nextRef value).mpr (Or.inr ⟨rfl, rfl⟩))
          rwa [view] at node
        · exact .disk has' ((absent_iff id).mpr ⟨absent', same⟩)
  have link : value.linkCount = 1 :=
    (congrArg NodeView.linkCount view).trans (disk.absent value.inid has absent)
  have holds : ∀ role lba, ((fs.install value).ledger pending).holds role lba ↔
      (fs.ledger pending).holds role lba := by
    intro role lba
    refine or_congr ?_ Iff.rfl
    cases role with
    | content id index =>
      change (∃ view', _ ∧ _) ↔ (∃ view', _ ∧ _)
      simp only [isNode_iff]
    | header => exact Iff.rfl
    | bitmap index => exact Iff.rfl
    | inode id => exact Iff.rfl
    | pending claimed => exact Iff.rfl
  refine ⟨hardware.of_eq rfl rfl rfl rfl rfl rfl,
    table_install table counted (by omega) absent _ core rfl (fresh_orphan table) ?_,
    ⟨?_, fun id has' gone => disk.absent id has' ((absent_iff id).mp gone).1⟩,
    accounts.inVolume, ?_, fun isStrict => ?_⟩
  · rintro id (old | rfl)
    · exact old
    · exact has
  · intro r found held clean unmodified
    rcases (core r found).mp held with old | ⟨-, rfl⟩
    · exact disk.clean r found old (by simp) unmodified
    · rw [view, stored_view_decodeInode]
      rfl
  · exact accounts.sound.shrink (fun held => (holds _ _).mp held)
      (fun held => accounts.sound.covered ((holds _ _).mp held))
  · intro lba marked
    obtain ⟨role, held⟩ := accounts.tight isStrict lba marked
    exact ⟨role, (holds role lba).mpr held⟩

theorem SerenaFS.Consistent.install_new (consistent : fs.Consistent strict none [value.inid])
    (counted : 0 < value.useCount) (linked : value.linkCount ≤ 1)
    (empty : value.blockMap = BlockMap.empty) (flagged : value.isModified = true) :
    ((fs.install value).logged (.allocated value.inid)).Consistent strict none [] := by
  obtain ⟨hardware, table, disk, accounts⟩ := consistent
  have unused : fs.hasNode value.inid = false := accounts.hasNode_pending List.mem_cons_self
  have absent : fs.Absent value.inid := by
    intro r found held same
    rw [← same, table.alive r found held] at unused
    exact absurd unused (by decide)
  have core : ∀ r found, ((fs.install value).logged (.allocated value.inid)).Core r found ↔
      fs.Core r found ∨ (r = fs.nextRef ∧ found = value) := by
    intro r found
    rw [← core_install table]
    exact ⟨fun held => ⟨held.inUse, held.stored⟩, fun held => ⟨held.inUse, held.stored⟩⟩
  have hasNode : ∀ id, ((fs.install value).logged (.allocated value.inid)).hasNode id = true ↔
      fs.hasNode id = true ∨ id = value.inid := by
    intro id
    change (id == value.inid || fs.hasNode id) = true ↔ _
    rw [Bool.or_eq_true, beq_iff_eq, or_comm]
  have hardware' := hardware.install value (.allocated value.inid)
  have fresh : ∀ r, ((fs.install value).logged (.allocated value.inid)).nextRef ≤ r →
      ((fs.install value).logged (.allocated value.inid)).inode r = none := fresh_orphan table
  have inUse : ((fs.install value).logged (.allocated value.inid)).inodesInUse =
      fs.inodesInUse ++ [fs.nextRef] := rfl
  have sameDisk : ((fs.install value).logged (.allocated value.inid)).disk = fs.disk := rfl
  have bitmap : ((fs.install value).logged (.allocated value.inid)).allocationBitmap =
      fs.allocationBitmap := rfl
  have volume : ((fs.install value).logged (.allocated value.inid)).volumeBlockCount =
      fs.volumeBlockCount := rfl
  have count : ((fs.install value).logged (.allocated value.inid)).allocationBitmapBlockCount =
      fs.allocationBitmapBlockCount := rfl
  have lba₀ : ((fs.install value).logged (.allocated value.inid)).allocationBitmapLba =
      fs.allocationBitmapLba := rfl
  generalize (fs.install value).logged (.allocated value.inid) = other at *
  have disk_iff : ∀ id, other.hasNode id = true ∧
      other.Absent id ↔
        fs.hasNode id = true ∧ fs.Absent id := by
    intro id
    rw [hasNode]
    constructor
    · rintro ⟨has, gone⟩
      have different : id ≠ value.inid := fun same =>
        gone fs.nextRef value ((core _ _).mpr (Or.inr ⟨rfl, rfl⟩)) same.symm
      exact ⟨has.resolve_right different,
        fun r found held => gone r found ((core r found).mpr (Or.inl held))⟩
    · rintro ⟨has, gone⟩
      refine ⟨Or.inl has, fun r found held same => ?_⟩
      rcases (core r found).mp held with old | ⟨-, rfl⟩
      · exact gone r found old same
      · rw [same, has] at unused
        exact absurd unused (by decide)
  have isNode_iff : ∀ id view,
      other.IsNode id view ↔
        fs.IsNode id view ∨ (id = value.inid ∧ view = value.view) := by
    intro id view
    constructor
    · intro isNode
      cases isNode with
      | core held =>
        rcases (core _ _).mp held with old | ⟨-, rfl⟩
        · exact Or.inl (.core old)
        · exact Or.inr ⟨rfl, rfl⟩
      | disk has gone =>
        obtain ⟨has, gone⟩ := (disk_iff id).mp ⟨has, gone⟩
        rw [sameDisk]
        exact Or.inl (.disk has gone)
    · rintro (isNode | ⟨rfl, rfl⟩)
      · cases isNode with
        | core held => exact .core ((core _ _).mpr (Or.inl held))
        | disk has gone =>
          obtain ⟨has, gone⟩ := (disk_iff id).mpr ⟨has, gone⟩
          rw [← sameDisk]
          exact .disk has gone
      · exact .core ((core _ _).mpr (Or.inr ⟨rfl, rfl⟩))
  have moves : Ledger.Moves (fs.ledger [value.inid])
      (other.ledger [])
      (.pending value.inid) (.inode value.inid) := by
    refine ⟨fun role lba => ?_, fun lba => by simp [SerenaFS.ledger, bitmap]⟩
    have holds : other.Holds role lba ↔
        fs.Holds role lba ∨ (role = .inode value.inid ∧ lba = value.inid) := by
      cases role with
      | content id index =>
        change (∃ view, _ ∧ _) ↔ (∃ view, _ ∧ _) ∨ _
        simp only [isNode_iff, reduceCtorEq, false_and, or_false]
        constructor
        · rintro ⟨view, isNode | ⟨rfl, rfl⟩, entry, nonzero⟩
          · exact ⟨view, isNode, entry, nonzero⟩
          · have zero : (0 : Nat) = lba := by
              rw [← entry]
              exact (congrFun empty index).symm
            exact absurd zero.symm nonzero
        · rintro ⟨view, isNode, entry, nonzero⟩
          exact ⟨view, Or.inl isNode, entry, nonzero⟩
      | inode id =>
        change (_ ∧ _) ↔ (_ ∧ _) ∨ _
        rw [hasNode, Role.inode.injEq]
        constructor
        · rintro ⟨old | rfl, rfl⟩
          · exact Or.inl ⟨old, rfl⟩
          · exact Or.inr ⟨rfl, rfl⟩
        · rintro (⟨old, rfl⟩ | ⟨rfl, rfl⟩)
          · exact ⟨Or.inl old, rfl⟩
          · exact ⟨Or.inr rfl, rfl⟩
      | header => simp [SerenaFS.Holds]
      | bitmap index => simp [SerenaFS.Holds, count, lba₀]
      | pending claimed => simp [SerenaFS.Holds]
    change (_ ∨ _) ↔ ((_ ∨ _) ∧ _) ∨ (_ ∧ (_ ∨ _))
    rw [holds]
    constructor
    · rintro ((old | ⟨rfl, rfl⟩) | ⟨-, member⟩)
      · refine Or.inl ⟨Or.inl old, ?_⟩
        rintro rfl
        exact old
      · exact Or.inr ⟨rfl, Or.inr ⟨rfl, List.mem_cons_self⟩⟩
      · simp at member
    · rintro (⟨old | ⟨rfl, member⟩, different⟩ | ⟨rfl, old | ⟨same, -⟩⟩)
      · exact Or.inl (Or.inl old)
      · exact absurd (by rw [List.mem_singleton.mp member]) different
      · exact old.elim
      · rw [Role.pending.injEq] at same
        exact Or.inl (Or.inr ⟨rfl, same.symm⟩)
  refine ⟨hardware', table_install table counted linked absent other core inUse fresh
      (fun id => (hasNode id).mpr),
    ⟨?_, fun id has gone => ?_⟩, by rw [bitmap, volume]; exact accounts.inVolume,
    moves.sound accounts.sound, fun isStrict => moves.tight (accounts.tight isStrict)⟩
  · intro r found held clean unmodified
    rw [sameDisk]
    rcases (core r found).mp held with old | ⟨-, rfl⟩
    · exact disk.clean r found old (by simp) unmodified
    · rw [flagged] at unmodified
      exact absurd unmodified (by decide)
  · obtain ⟨has, gone⟩ := (disk_iff id).mp ⟨has, gone⟩
    rw [sameDisk]
    exact disk.absent id has gone

/-- Nothing but memory outside the table changes. -/
theorem SerenaFS.Consistent.of_sameNodes (consistent : fs.Consistent strict dirty pending)
    {other : SerenaFS} (same : SameNodes fs other) (disk : other.disk = fs.disk)
    (hardware : other.Hardware) (accounts : other.Accounts strict pending)
    (nodup : other.inodesInUse.Nodup)
    (fresh : ∀ r, other.nextRef ≤ r → other.inode r = none)
    (known : ∀ r, r ∈ other.inodesInUse → ∃ found, other.inode r = some found) :
    other.Consistent strict dirty pending :=
  ⟨hardware, same.table consistent.table nodup fresh known,
    same.writtenBack consistent.disk fun _ _ _ clean => ⟨clean, by rw [disk]⟩, accounts⟩

theorem SerenaFS.Consistent.withHeap (consistent : fs.Consistent strict dirty pending)
    (heap : List Bool) : (fs.withHeap heap).Consistent strict dirty pending := by
  have same : SameNodes fs (fs.withHeap heap) :=
    ⟨fun r found => ⟨fun held => ⟨held.inUse, held.stored⟩, fun held => ⟨held.inUse, held.stored⟩⟩,
      fun _ => rfl, fun _ _ _ => rfl⟩
  exact consistent.of_sameNodes same rfl (consistent.hardware.of_eq rfl rfl rfl rfl rfl rfl)
    (consistent.accounts.sameNodes same rfl rfl rfl rfl) consistent.table.nodup
    consistent.table.fresh consistent.table.known

theorem SerenaFS.Consistent.orphan (consistent : fs.Consistent strict dirty pending) (value : Inode) :
    (fs.orphan value).Consistent strict dirty pending := by
  have table := consistent.table
  have same : SameNodes fs (fs.orphan value) :=
    ⟨core_orphan table, fun _ => rfl, fun _ _ _ => rfl⟩
  refine consistent.of_sameNodes same rfl (consistent.hardware.of_eq rfl rfl rfl rfl rfl rfl)
    (consistent.accounts.sameNodes same rfl rfl rfl rfl) table.nodup (fresh_orphan table) ?_
  intro r member
  obtain ⟨found, stored⟩ := table.known r member
  exact ⟨found, ((core_orphan table r found).mpr ⟨member, stored⟩).stored⟩

/-- The inode block of a node in use may be written at any time. -/
theorem SerenaFS.Consistent.writeInode (consistent : fs.Consistent strict none pending)
    (core : fs.Core ref value) (block : Block) :
    (fs.writeBlock value.inid block).Consistent strict (some ref) pending := by
  have table := consistent.table
  have untouched : ∀ id, id ≠ value.inid →
      (fs.writeBlock value.inid block).disk.block id = fs.disk.block id :=
    fun id different => Function.update_of_ne different _ _
  have same : SameNodes fs (fs.writeBlock value.inid block) :=
    ⟨core_writeBlock _ _, fun _ => rfl, fun id _ absent => untouched id (absent ref value core).symm⟩
  refine ⟨consistent.hardware.writeBlock _ _,
    same.table table table.nodup table.fresh table.known,
    same.writtenBack consistent.disk fun r found held clean => ⟨by simp, untouched _ ?_⟩,
    consistent.accounts.sameNodes same rfl rfl rfl rfl⟩
  intro inid
  exact clean (by rw [table.unique _ _ _ _ held core inid])

theorem table_evict (table : fs.Table) (other : SerenaFS)
    (core : ∀ r found, other.Core r found ↔ fs.Core r found ∧ r ≠ ref)
    (inUse : other.inodesInUse = fs.inodesInUse.erase ref)
    (nextRef : other.nextRef = fs.nextRef) (inode : other.inode = Function.update fs.inode ref none)
    (alive : ∀ r found, other.Core r found → other.hasNode found.inid = true) : other.Table where
  nodup := by
    rw [inUse]
    exact table.nodup.erase ref
  fresh r low := by
    rw [nextRef] at low
    rw [inode]
    by_cases same : r = ref
    · rw [same, Function.update_self]
    · rw [Function.update_of_ne same]
      exact table.fresh r low
  known r member := by
    rw [inUse] at member
    obtain ⟨different, member⟩ := (table.nodup.mem_erase_iff).mp member
    obtain ⟨found, stored⟩ := table.known r member
    exact ⟨found, ((core r found).mpr ⟨⟨member, stored⟩, different⟩).stored⟩
  counted r found held := table.counted r found ((core r found).mp held).1
  linked r found held := table.linked r found ((core r found).mp held).1
  alive := alive
  unique r r' found found' held held' same :=
    table.unique r r' found found' ((core r found).mp held).1 ((core r' found').mp held').1 same

/-- A node whose disk node is up to date leaves memory. -/
theorem SerenaFS.Consistent.evict (consistent : fs.Consistent strict dirty pending)
    (core : fs.Core ref value) (link : value.linkCount = 1)
    (others : ∀ other, other ≠ ref → dirty ≠ some other)
    (stored : (decodeInode (fs.disk.block value.inid)).view = value.view.stored) :
    (fs.evict ref).Consistent strict none pending := by
  obtain ⟨hardware, table, disk, accounts⟩ := consistent
  have core_iff : ∀ r found, (fs.evict ref).Core r found ↔ fs.Core r found ∧ r ≠ ref :=
    core_evict table
  have absent_iff : ∀ id, (fs.evict ref).Absent id ↔ fs.Absent id ∨ id = value.inid := by
    intro id
    constructor
    · intro gone
      by_cases same : id = value.inid
      · exact Or.inr same
      · refine Or.inl fun r found held inid => ?_
        have different : r ≠ ref := by
          rintro rfl
          rw [held.value_eq core] at inid
          exact same inid.symm
        exact gone r found ((core_iff r found).mpr ⟨held, different⟩) inid
    · rintro (gone | rfl) r found held
      · exact gone r found ((core_iff r found).mp held).1
      · obtain ⟨held, different⟩ := (core_iff r found).mp held
        exact fun inid => different (table.unique _ _ _ _ held core inid)
  have map : value.view.stored.blockMap = value.view.blockMap := by
    apply NodeView.stored_blockMap
    intro index
    have addresses := hardware.addresses
    have small := accounts.blockMap_lt (.core core) index
    omega
  have holds : ∀ role lba, ((fs.evict ref).ledger pending).holds role lba ↔
      (fs.ledger pending).holds role lba := by
    intro role lba
    refine or_congr ?_ Iff.rfl
    cases role with
    | content id index =>
      constructor
      · rintro ⟨view, isNode, entry, nonzero⟩
        cases isNode with
        | core held => exact ⟨_, .core ((core_iff _ _).mp held).1, entry, nonzero⟩
        | disk has gone =>
          rcases (absent_iff id).mp gone with old | rfl
          · exact ⟨_, .disk has old, entry, nonzero⟩
          · refine ⟨_, .core core, ?_, nonzero⟩
            rw [← map, ← stored]
            exact entry
      · rintro ⟨view, isNode, entry, nonzero⟩
        cases isNode with
        | @core r found held =>
          by_cases same : r = ref
          · subst same
            have equal := held.value_eq core
            subst equal
            refine ⟨_, .disk (table.alive _ _ held) ((absent_iff _).mpr (Or.inr rfl)), ?_, nonzero⟩
            change (decodeInode (fs.disk.block found.inid)).view.blockMap index = lba
            rw [stored, map]
            exact entry
          · exact ⟨_, .core ((core_iff r found).mpr ⟨held, same⟩), entry, nonzero⟩
        | disk has gone =>
          exact ⟨_, .disk has ((absent_iff id).mpr (Or.inl gone)), entry, nonzero⟩
    | header => exact Iff.rfl
    | bitmap index => exact Iff.rfl
    | inode id => exact Iff.rfl
    | pending claimed => exact Iff.rfl
  refine ⟨hardware.of_eq rfl rfl rfl rfl rfl rfl, table_evict table _ core_iff rfl rfl rfl ?_,
    ⟨?_, ?_⟩, accounts.inVolume, ?_, fun isStrict => ?_⟩
  · exact fun r found held => table.alive r found ((core_iff r found).mp held).1
  · intro r found held clean unmodified
    obtain ⟨held, different⟩ := (core_iff r found).mp held
    exact disk.clean r found held (others r different) unmodified
  · intro id has gone
    rcases (absent_iff id).mp gone with old | rfl
    · exact disk.absent id has old
    · have count := congrArg NodeView.linkCount stored
      have fits : value.view.stored.linkCount = value.linkCount :=
        NodeView.stored_linkCount (by rw [show value.view.linkCount = 1 from link]; decide)
          (by rw [show value.view.linkCount = 1 from link]; decide)
      exact (count.trans fits).trans link
  · exact accounts.sound.shrink (fun held => (holds _ _).mp held)
      (fun held => accounts.sound.covered ((holds _ _).mp held))
  · intro lba marked
    obtain ⟨role, held⟩ := accounts.tight isStrict lba marked
    exact ⟨role, (holds role lba).mpr held⟩

end Table

/-! ## Removing a node -/

/-- The block map has no hole in front of a block: behind its first empty entry
all are empty. -/
def Dense (map : BlockMap) : Prop := ∀ lba ∈ (List.ofFn map).dropWhile (· ≠ 0), lba = 0

instance (map : BlockMap) : Decidable (Dense map) := inferInstanceAs (Decidable (∀ lba ∈ _, lba = 0))

/-- The blocks that the removal of a node gives back: those in front of the first
empty entry of its block map, and its inode block. -/
def freedBlocks (value : Inode) : List Nat :=
  (List.ofFn value.blockMap).takeWhile (· ≠ 0) ++ [value.inid]

theorem mem_ofFn_takeWhile {map : BlockMap} {lba : Nat} :
    lba ∈ (List.ofFn map).takeWhile (· ≠ 0) → ∃ index, map index = lba ∧ lba ≠ 0 := by
  intro member
  have nonzero : lba ≠ 0 := by simpa using List.mem_takeWhile_imp member
  obtain ⟨index, entry⟩ := List.mem_ofFn.mp (List.takeWhile_subset _ member)
  exact ⟨index, entry, nonzero⟩

theorem mem_takeWhile_of_dense {map : BlockMap} (dense : Dense map)
    {index : Fin kSFSMaxDirectDataBlockPointers} (nonzero : map index ≠ 0) :
    map index ∈ (List.ofFn map).takeWhile (· ≠ 0) := by
  have member : map index ∈ List.ofFn map := List.mem_ofFn.mpr ⟨index, rfl⟩
  rw [← List.takeWhile_append_dropWhile (p := (· ≠ 0)) (l := List.ofFn map)] at member
  rcases List.mem_append.mp member with taken | dropped
  · exact taken
  · exact absurd (dense _ dropped) nonzero

section Remove
variable {fs : SerenaFS} {strict : Prop} {ref : InodeRef} {value : Inode}

theorem nodup_freedBlocks (table : fs.Table) (accounts : fs.Accounts strict [])
    (core : fs.Core ref value) : (freedBlocks value).Nodup := by
  have holds : ∀ index, value.blockMap index ≠ 0 →
      fs.Holds (.content value.inid index) (value.blockMap index) :=
    fun index nonzero => ⟨value.view, .core core, rfl, nonzero⟩
  have distinct : (List.ofFn value.blockMap).Pairwise (fun left right => left ≠ 0 → left ≠ right) := by
    rw [List.pairwise_ofFn]
    intro low high less nonzero same
    have high' := holds high (same ▸ nonzero)
    rw [← same] at high'
    have equal := accounts.sound.exclusive (Or.inl (holds low nonzero)) (Or.inl high')
    simp only [Role.content.injEq, true_and] at equal
    exact absurd equal (Fin.ne_of_lt less)
  have prefixDistinct := distinct.sublist (List.takeWhile_sublist (fun lba : Nat => decide (lba ≠ 0)))
  unfold freedBlocks
  rw [List.nodup_append]
  refine ⟨prefixDistinct.imp_of_mem fun member _ different => ?_, by simp, ?_⟩
  · obtain ⟨index, -, nonzero⟩ := mem_ofFn_takeWhile member
    exact different nonzero
  · intro lba member inid single same
    obtain ⟨index, entry, nonzero⟩ := mem_ofFn_takeWhile member
    rw [List.mem_singleton.mp single] at same
    have content := holds index (entry ▸ nonzero)
    have inode : fs.Holds (.inode value.inid) (value.blockMap index) :=
      ⟨table.alive ref value core, entry.trans same⟩
    have equal := accounts.sound.exclusive (Or.inl content) (Or.inl inode)
    simp at equal

theorem SerenaFS.Consistent.remove (consistent : fs.Consistent strict none [])
    (core : fs.Core ref value) (dense : strict → Dense value.blockMap) :
    ((fs.evict ref).logged (.removed ref value.inid)).Consistent strict none (freedBlocks value) := by
  obtain ⟨hardware, table, disk, accounts⟩ := consistent
  have core_iff : ∀ r found, ((fs.evict ref).logged (.removed ref value.inid)).Core r found ↔
      fs.Core r found ∧ r ≠ ref := by
    intro r found
    rw [← core_evict table]
    exact ⟨fun held => ⟨held.inUse, held.stored⟩, fun held => ⟨held.inUse, held.stored⟩⟩
  have inid_ne : ∀ r found, fs.Core r found → r ≠ ref → found.inid ≠ value.inid :=
    fun r found held different same => different (table.unique _ _ _ _ held core same)
  have hasNode : ∀ id, ((fs.evict ref).logged (.removed ref value.inid)).hasNode id = true ↔
      id ≠ value.inid ∧ fs.hasNode id = true := by
    intro id
    change (id != value.inid && fs.hasNode id) = true ↔ _
    rw [Bool.and_eq_true, bne_iff_ne]
  have disk_iff : ∀ id, ((fs.evict ref).logged (.removed ref value.inid)).hasNode id = true ∧
      ((fs.evict ref).logged (.removed ref value.inid)).Absent id ↔
        fs.hasNode id = true ∧ fs.Absent id := by
    intro id
    rw [hasNode]
    constructor
    · rintro ⟨⟨different, has⟩, gone⟩
      refine ⟨has, fun r found held same => ?_⟩
      have other : r ≠ ref := by
        rintro rfl
        rw [held.value_eq core] at same
        exact different same.symm
      exact gone r found ((core_iff r found).mpr ⟨held, other⟩) same
    · rintro ⟨has, gone⟩
      exact ⟨⟨(gone ref value core).symm, has⟩,
        fun r found held => gone r found ((core_iff r found).mp held).1⟩
  have isNode_iff : ∀ id view, ((fs.evict ref).logged (.removed ref value.inid)).IsNode id view ↔
      fs.IsNode id view ∧ id ≠ value.inid := by
    intro id view
    constructor
    · intro isNode
      cases isNode with
      | core held =>
        obtain ⟨held, different⟩ := (core_iff _ _).mp held
        exact ⟨.core held, inid_ne _ _ held different⟩
      | disk has gone =>
        have different := ((hasNode id).mp has).1
        obtain ⟨has, gone⟩ := (disk_iff id).mp ⟨has, gone⟩
        exact ⟨.disk has gone, different⟩
    · rintro ⟨isNode, different⟩
      cases isNode with
      | @core r found held =>
        have other : r ≠ ref := by
          rintro rfl
          exact different (by rw [held.value_eq core])
        exact .core ((core_iff r found).mpr ⟨held, other⟩)
      | disk has gone =>
        obtain ⟨has, gone⟩ := (disk_iff id).mpr ⟨has, gone⟩
        exact .disk has gone
  -- the node's roles are gone, and the blocks it gives back are pending instead
  have lost : ∀ lba, lba ∈ freedBlocks value →
      fs.Holds (.inode value.inid) lba ∨ ∃ index, fs.Holds (.content value.inid index) lba := by
    intro lba member
    rcases List.mem_append.mp member with content | inode
    · obtain ⟨index, entry, nonzero⟩ := mem_ofFn_takeWhile content
      exact Or.inr ⟨index, value.view, .core core, entry, nonzero⟩
    · exact Or.inl ⟨table.alive ref value core, List.mem_singleton.mp inode⟩
  have holds : ∀ role lba, ((fs.evict ref).logged (.removed ref value.inid)).Holds role lba ↔
      fs.Holds role lba ∧ role ≠ .inode value.inid ∧ ∀ index, role ≠ .content value.inid index := by
    intro role lba
    cases role with
    | content id index =>
      change (∃ view, _ ∧ _) ↔ (∃ view, _ ∧ _) ∧ _
      simp only [isNode_iff, ne_eq, reduceCtorEq, not_false_eq_true, true_and, Role.content.injEq,
        not_and]
      constructor
      · rintro ⟨view, ⟨isNode, different⟩, entry⟩
        exact ⟨⟨view, isNode, entry⟩, fun _ same => absurd same different⟩
      · rintro ⟨⟨view, isNode, entry⟩, different⟩
        exact ⟨view, ⟨isNode, fun same => different index same rfl⟩, entry⟩
    | inode id =>
      change (_ ∧ _) ↔ (_ ∧ _) ∧ _
      rw [hasNode]
      simp only [ne_eq, Role.inode.injEq, reduceCtorEq, not_false_eq_true, implies_true, and_true]
      tauto
    | header => simp [SerenaFS.Holds]
    | bitmap index => simp [SerenaFS.Holds, SerenaFS.logged, SerenaFS.evict]
    | pending claimed => simp [SerenaFS.Holds]
  refine ⟨hardware.of_eq rfl rfl rfl rfl rfl rfl, table_evict table _ core_iff rfl rfl rfl ?_,
    ⟨?_, ?_⟩, accounts.inVolume, ⟨?_, ?_⟩, fun isStrict => ?_⟩
  · intro r found held
    obtain ⟨held, different⟩ := (core_iff r found).mp held
    exact (hasNode _).mpr ⟨inid_ne r found held different, table.alive r found held⟩
  · intro r found held clean unmodified
    exact disk.clean r found ((core_iff r found).mp held).1 (by simp) unmodified
  · intro id has gone
    obtain ⟨has, gone⟩ := (disk_iff id).mp ⟨has, gone⟩
    exact disk.absent id has gone
  · rintro role lba (held | ⟨-, member⟩)
    · exact accounts.sound.covered (Or.inl ((holds role lba).mp held).1)
    · rcases lost lba member with held | ⟨index, held⟩
      · exact accounts.sound.covered (Or.inl held)
      · exact accounts.sound.covered (Or.inl held)
  · have apart : ∀ role lba, fs.Holds role lba → role ≠ .inode value.inid →
        (∀ index, role ≠ .content value.inid index) → lba ∉ freedBlocks value := by
      intro role lba held notInode notContent member
      rcases lost lba member with held' | ⟨index, held'⟩
      · exact notInode (accounts.sound.exclusive (Or.inl held) (Or.inl held'))
      · exact notContent index (accounts.sound.exclusive (Or.inl held) (Or.inl held'))
    rintro role role' lba (held | ⟨rfl, member⟩) (held' | ⟨rfl, member'⟩)
    · exact accounts.sound.exclusive (Or.inl ((holds _ _).mp held).1)
        (Or.inl ((holds _ _).mp held').1)
    · obtain ⟨held, notInode, notContent⟩ := (holds _ _).mp held
      exact absurd member' (apart _ _ held notInode notContent)
    · obtain ⟨held', notInode, notContent⟩ := (holds _ _).mp held'
      exact absurd member (apart _ _ held' notInode notContent)
    · rfl
  · intro lba marked
    obtain ⟨role, held | ⟨-, member⟩⟩ := accounts.tight isStrict lba marked
    · by_cases inode : role = .inode value.inid
      · subst inode
        exact ⟨.pending lba, Or.inr ⟨rfl, List.mem_append_right _ (by simp [held.2])⟩⟩
      · by_cases content : ∃ index, role = .content value.inid index
        · obtain ⟨index, rfl⟩ := content
          obtain ⟨entry, nonzero⟩ := (holds_content_inid table core index lba).mp held
          refine ⟨.pending lba, Or.inr ⟨rfl, List.mem_append_left _ ?_⟩⟩
          rw [← entry] at nonzero ⊢
          exact mem_takeWhile_of_dense (dense isStrict) nonzero
        · exact ⟨role, Or.inl ((holds role lba).mpr
            ⟨held, inode, fun index same => content ⟨index, same⟩⟩)⟩
    · simp at member

theorem SerenaFS.Consistent.release {dirty : Option InodeRef} {blocks : List Nat}
    (consistent : fs.Consistent strict dirty blocks) (nodup : blocks.Nodup) :
    (fs.release blocks).Consistent strict dirty [] := by
  induction blocks generalizing fs with
  | nil => exact consistent
  | cons lba rest ih =>
    obtain ⟨once, nodup⟩ := List.nodup_cons.mp nodup
    have claimed : (fs.ledger (lba :: rest)).holds (.pending lba) lba :=
      Or.inr ⟨rfl, List.mem_cons_self⟩
    have inside := lt_length_of_isBlockInUse (consistent.accounts.sound.covered claimed)
    exact ih (consistent.mark_false once inside) nodup

end Remove

/-! ## Relinquishing a node -/

section Relinquish
variable {fs : SerenaFS} {strict : Prop} {ref : InodeRef} {value : Inode}

@[simp] theorem release_inode (blocks : List Nat) : (fs.release blocks).inode = fs.inode := by
  induction blocks generalizing fs with
  | nil => rfl
  | cons lba rest ih => exact ih

@[simp] theorem release_inodesInUse (blocks : List Nat) :
    (fs.release blocks).inodesInUse = fs.inodesInUse := by
  induction blocks generalizing fs with
  | nil => rfl
  | cons lba rest ih => exact ih

theorem release_append (first second : List Nat) :
    fs.release (first ++ second) = (fs.release first).release second := List.foldl_append

theorem evict_release (blocks : List Nat) :
    (fs.release blocks).evict ref = (fs.evict ref).release blocks := by
  induction blocks generalizing fs with
  | nil => rfl
  | cons lba rest ih => exact ih

theorem evict_setNode (value : Option Inode) : (fs.setNode ref value).evict ref = fs.evict ref := by
  unfold SerenaFS.evict SerenaFS.setNode
  simp

theorem destroyNode_eq : destroyNode ref fs = .ok () (fs.evict ref) := rfl

theorem deallocateFileContentBlocksLocked_cases (hardware : fs.Hardware) (map : List Nat) :
    deallocateFileContentBlocksLocked map fs = .fault ∨
      deallocateFileContentBlocksLocked map fs = .ok () (fs.release (map.takeWhile (· ≠ 0))) := by
  induction map generalizing fs with
  | nil => exact Or.inr rfl
  | cons lba rest ih =>
    unfold deallocateFileContentBlocksLocked
    by_cases zero : lba = 0
    · rw [if_pos zero, List.takeWhile_cons_of_neg (by simp [zero])]
      exact Or.inr rfl
    · rw [if_neg zero, List.takeWhile_cons_of_pos (by simp [zero])]
      rcases deallocateBlockLocked_cases hardware zero with fault | ⟨-, freed⟩
      · exact Or.inl (Code.bind_of_fault fault _)
      · rw [Code.bind_of_ok freed]
        exact ih (hardware.mark lba false)

theorem onRemoveNodeFromDisk_cases (consistent : fs.Consistent strict none [])
    (core : fs.Core ref value) :
    onRemoveNodeFromDisk ref fs = .fault ∨
      onRemoveNodeFromDisk ref fs =
        .ok () ((fs.logged (.removed ref value.inid)).release (freedBlocks value)) := by
  have hardware : (fs.logged (.removed ref value.inid)).Hardware :=
    consistent.hardware.of_eq rfl rfl rfl rfl rfl rfl
  have nonzero : value.inid ≠ 0 := by
    intro zero
    have alive := consistent.table.alive ref value core
    have header : fs.Holds .header value.inid := zero
    rw [consistent.accounts.hasNode_of_holds (Or.inl header) (by simp)] at alive
    exact absurd alive (by decide)
  unfold onRemoveNodeFromDisk
  rw [Code.bind_of_ok (node_core core),
    Code.bind_of_ok (show logNode (.removed ref value.inid) fs = .ok () _ from rfl)]
  rcases deallocateFileContentBlocksLocked_cases hardware (List.ofFn value.blockMap) with fault | freed
  · exact Or.inl (Code.bind_of_fault fault _)
  have hardware' : ((fs.logged (.removed ref value.inid)).release
      ((List.ofFn value.blockMap).takeWhile (· ≠ 0))).Hardware := by
    generalize (List.ofFn value.blockMap).takeWhile (· ≠ 0) = blocks
    generalize fs.logged (.removed ref value.inid) = state at hardware
    induction blocks generalizing state with
    | nil => exact hardware
    | cons lba rest ih => exact ih _ (hardware.mark lba false)
  erw [Code.bind_of_ok freed]
  rcases deallocateBlockLocked_cases hardware' nonzero with fault | ⟨-, freed'⟩
  · exact Or.inl fault
  · right
    rw [freed', freedBlocks, release_append]
    rfl

theorem relinquishNode_unlinked (consistent : fs.Consistent strict none [])
    (core : fs.Core ref value) (unlinked : value.linkCount = 0) (last : value.useCount = 1) :
    relinquishNode ref fs = .fault ∨
      relinquishNode ref fs =
        .ok () (((fs.evict ref).logged (.removed ref value.inid)).release (freedBlocks value)) := by
  unfold relinquishNode
  rw [Code.bind_of_ok (node_core core),
    Code.bind_of_ok (show assert (decide (0 ≤ value.linkCount)) fs = .ok () fs by
      rw [unlinked]
      rfl)]
  unfold settleNode
  rw [if_pos unlinked]
  rcases onRemoveNodeFromDisk_cases consistent core with fault | removed
  · exact Or.inl (Code.bind_of_fault fault _)
  right
  rw [Code.bind_of_ok removed]
  have core' : ((fs.logged (.removed ref value.inid)).release (freedBlocks value)).Core ref value :=
    ⟨by rw [release_inodesInUse]; exact core.inUse, by rw [release_inode]; exact core.stored⟩
  rw [Code.bind_of_ok (updateNode_core core' _),
    Code.bind_of_ok (show assert (decide (0 < value.useCount)) _ = .ok () _ by
      rw [last]
      rfl),
    Code.bind_of_ok (updateNode_core (core_setNode_self core' _) _), if_pos (by omega)]
  rw [destroyNode_eq, evict_setNode, evict_setNode, evict_release]
  rfl

def SerenaFS.settled (fs : SerenaFS) (value : Inode) : SerenaFS :=
  if value.isModified then
    fs.writeBlock value.inid (encodeInode (diskOfInode value fs.clock))
  else fs

theorem settleNode_linked (consistent : fs.Consistent strict none []) (core : fs.Core ref value)
    (linked : value.linkCount ≠ 0) :
    settleNode ref value fs = .ok () (fs.settled value) := by
  have inode : fs.Holds (.inode value.inid) value.inid :=
    ⟨consistent.table.alive ref value core, rfl⟩
  have onDisk := lt_of_lt_of_le (consistent.accounts.lt_volume (Or.inl inode))
    consistent.hardware.volume
  unfold settleNode SerenaFS.settled
  rw [if_neg linked]
  by_cases modified : value.isModified = true
  · rw [if_pos modified, if_pos modified,
      Code.bind_of_ok (attempt_of_ok (show onWriteNodeToDisk ref fs = .ok () _ by
        unfold onWriteNodeToDisk
        rw [Code.bind_of_ok (node_core core), Code.bind_of_ok (Code.get_apply _),
          putBlock_quiet consistent.hardware.quiet]
        exact if_pos onDisk))]
    rfl
  · rw [if_neg modified, if_neg modified]
    rfl

theorem view_diskOfInode (value : Inode) (curTime : TimeInterval) :
    (diskOfInode value curTime).view = value.view := rfl

/-- The write-back leaves the disk node as the inode says. -/
theorem SerenaFS.Consistent.settled (consistent : fs.Consistent strict none [])
    (core : fs.Core ref value) :
    (fs.settled value).Consistent strict (some ref) [] ∧ (fs.settled value).Core ref value ∧
      (decodeInode ((fs.settled value).disk.block value.inid)).view = value.view.stored := by
  unfold SerenaFS.settled
  by_cases modified : value.isModified = true
  · rw [if_pos modified]
    refine ⟨consistent.writeInode core _, (core_writeBlock _ _ _ _).mpr core, ?_⟩
    rw [writeBlock_block, Function.update_self, view_decodeInode_encodeInode, view_diskOfInode]
  · rw [if_neg modified]
    have unmodified : value.isModified = false := by simpa using modified
    have clean := consistent.disk.clean ref value core (by simp) unmodified
    obtain ⟨hardware, table, disk, accounts⟩ := consistent
    exact ⟨⟨hardware, table, ⟨fun r found held _ => disk.clean r found held (by simp), disk.absent⟩,
      accounts⟩, core, clean⟩

def relinquished (value : Inode) : Inode :=
  { value.clearModified with useCount := value.useCount - 1 }

theorem relinquishNode_linked (consistent : fs.Consistent strict none [])
    (core : fs.Core ref value) (linked : value.linkCount ≠ 0) :
    relinquishNode ref fs = .fault ∨
      (value.linkCount = 1 ∧ relinquishNode ref fs =
        .ok () (if value.useCount = 1 then (fs.settled value).evict ref
          else (fs.settled value).setNode ref (some (relinquished value)))) := by
  have counted := consistent.table.counted ref value core
  have upper := consistent.table.linked ref value core
  obtain ⟨-, core', -⟩ := consistent.settled core
  unfold relinquishNode
  rw [Code.bind_of_ok (node_core core)]
  by_cases negative : 0 ≤ value.linkCount
  · right
    refine ⟨by omega, ?_⟩
    rw [Code.bind_of_ok (show assert (decide (0 ≤ value.linkCount)) fs = .ok () fs by
        rw [decide_eq_true negative]
        rfl),
      Code.bind_of_ok (settleNode_linked consistent core linked),
      Code.bind_of_ok (updateNode_core core' _),
      Code.bind_of_ok (show assert (decide (0 < value.useCount)) _ = .ok () _ by
        rw [decide_eq_true counted]
        rfl),
      Code.bind_of_ok (updateNode_core (core_setNode_self core' _) _)]
    by_cases last : value.useCount = 1
    · rw [if_pos (by omega), if_pos last]
      rw [destroyNode_eq, evict_setNode, evict_setNode]
    · rw [if_neg (by omega), if_neg last]
      unfold SerenaFS.setNode
      simp only [Function.update_idem]
      rfl
  · left
    rw [Code.bind_of_fault (show assert (decide (0 ≤ value.linkCount)) fs = .fault by
      rw [decide_eq_false negative]
      rfl)]

/-- A reference is given up.  An unlinked node must not be referenced by anyone
else, and for the `strict` accounts its block map must not have holes. -/
theorem relinquishNode_spec (consistent : fs.Consistent strict none []) (core : fs.Core ref value)
    (last : value.linkCount = 0 → value.useCount = 1)
    (dense : strict → value.linkCount = 0 → Dense value.blockMap) :
    (relinquishNode ref fs).Returned (fun _ after => after.Consistent strict none [])
      (fun _ _ => False) := by
  by_cases unlinked : value.linkCount = 0
  · rcases relinquishNode_unlinked consistent core unlinked (last unlinked) with fault | returned
    · rw [fault]
      trivial
    · rw [returned]
      have removed := consistent.remove core fun isStrict => dense isStrict unlinked
      exact removed.release (nodup_freedBlocks consistent.table consistent.accounts core)
  · rcases relinquishNode_linked consistent core unlinked with fault | ⟨link, returned⟩
    · rw [fault]
      trivial
    rw [returned]
    obtain ⟨settled, core', stored⟩ := consistent.settled core
    have counted := consistent.table.counted ref value core
    by_cases only : value.useCount = 1
    · rw [if_pos only]
      exact settled.evict core' link (fun other different same => different (by simpa using same.symm))
        stored
    · rw [if_neg only]
      refine settled.setNode core' rfl rfl ?_ ?_ ?_ ?_
      · change 0 < value.useCount - 1
        omega
      · exact (consistent.table.linked ref value core)
      · intro other different _ same
        exact different (by simpa using same.symm)
      · intro _ _
        exact stored

end Relinquish

/-! ## Acquiring and allocating a node -/

section Acquire
variable {fs : SerenaFS} {strict : Prop}

theorem kalloc_cases (fs : SerenaFS) :
    ∃ heap, kalloc fs = .err .ENOMEM (fs.withHeap heap) ∨ kalloc fs = .ok () (fs.withHeap heap) := by
  unfold kalloc
  split
  · exact ⟨_, Or.inl rfl⟩
  · exact ⟨_, Or.inr rfl⟩

def reacquired (value : Inode) : Inode := { value with useCount := value.useCount + 1 }

variable {ref : InodeRef} {id lba : Nat} {heap : List Bool}

theorem reacquireNode_core {value : Inode} (core : fs.Core ref value) :
    reacquireNode ref fs = .ok ref (fs.setNode ref (some (reacquired value))) := by
  unfold reacquireNode
  rw [Code.bind_of_ok (updateNode_core core _)]
  rfl

theorem SerenaFS.Consistent.reacquire {value : Inode}
    (consistent : fs.Consistent strict none []) (core : fs.Core ref value) :
    (fs.setNode ref (some (reacquired value))).Consistent strict none [] := by
  have counted := consistent.table.counted ref value core
  refine consistent.setNode core rfl rfl ?_ (consistent.table.linked ref value core)
    (fun other _ _ => by simp) ?_
  · change 0 < value.useCount + 1
    omega
  · intro clean unmodified
    exact consistent.disk.clean ref value core clean unmodified

def readInode (fs : SerenaFS) (id : Nat) : Inode :=
  reacquired (inodeOfDisk id (decodeInode (fs.disk.block id)))

/-- What a successful `Filesystem_AcquireNodeWithId` did. -/
inductive Acquired (fs : SerenaFS) (id : Nat) : InodeRef → SerenaFS → Prop
  | held {ref : InodeRef} {value : Inode} (core : fs.Core ref value) (inid : value.inid = id) :
      Acquired fs id ref (fs.setNode ref (some (reacquired value)))
  | read (heap : List Bool) (absent : fs.Absent id) :
      Acquired fs id fs.nextRef ((fs.withHeap heap).install (readInode fs id))

/-- What a failed allocation of memory leaves behind. -/
inductive OutOfMemory (fs : SerenaFS) : SerenaFS → Prop
  | heap (heap : List Bool) : OutOfMemory fs (fs.withHeap heap)
  | orphan (heap : List Bool) (value : Inode) : OutOfMemory fs ((fs.withHeap heap).orphan value)

theorem SerenaFS.Consistent.outOfMemory {after : SerenaFS}
    (consistent : fs.Consistent strict none []) (failed : OutOfMemory fs after) :
    after.Consistent strict none [] := by
  cases failed with
  | heap heap => exact consistent.withHeap heap
  | orphan heap value => exact (consistent.withHeap heap).orphan value

theorem find_hasId_some (table : fs.Table)
    (found : fs.inodesInUse.find? (fs.hasId id) = some ref) :
    ∃ value, fs.Core ref value ∧ value.inid = id := by
  have member := List.mem_of_find?_eq_some found
  obtain ⟨value, stored⟩ := table.known ref member
  have hasId := List.find?_some found
  unfold SerenaFS.hasId at hasId
  rw [stored] at hasId
  exact ⟨value, ⟨member, stored⟩, by simpa using hasId⟩

theorem find_hasId_none (none : fs.inodesInUse.find? (fs.hasId id) = none) :
    fs.Absent id := by
  intro ref value core same
  have differs := List.find?_eq_none.mp none ref core.inUse
  unfold SerenaFS.hasId at differs
  rw [core.stored] at differs
  exact differs (by simpa using same)

theorem inodeCreate_cases (fs : SerenaFS) (value : Inode) :
    ∃ heap, inodeCreate value fs = .err .ENOMEM (fs.withHeap heap) ∨
      inodeCreate value fs = .ok fs.nextRef ((fs.withHeap heap).orphan value) := by
  unfold inodeCreate
  obtain ⟨heap, failed | memory⟩ := kalloc_cases fs
  · exact ⟨heap, Or.inl (Code.bind_of_err failed _)⟩
  · exact ⟨heap, Or.inr (by rw [Code.bind_of_ok memory]; rfl)⟩

theorem addToInodesInUse_cases (fs : SerenaFS) (ref : InodeRef) :
    ∃ heap, addToInodesInUse ref fs = .err .ENOMEM (fs.withHeap heap) ∨
      addToInodesInUse ref fs =
        .ok () { fs.withHeap heap with inodesInUse := fs.inodesInUse ++ [ref] } := by
  unfold addToInodesInUse
  obtain ⟨heap, failed | memory⟩ := kalloc_cases fs
  · exact ⟨heap, Or.inl (Code.bind_of_err failed _)⟩
  · exact ⟨heap, Or.inr (by rw [Code.bind_of_ok memory]; rfl)⟩

theorem onReadNodeFromDisk_cases (hardware : fs.Hardware)
    (onDisk : id < fs.disk.blockCount) :
    ∃ heap, onReadNodeFromDisk id fs = .err .ENOMEM (fs.withHeap heap) ∨
      onReadNodeFromDisk id fs = .ok fs.nextRef ((fs.withHeap heap).orphan
        (inodeOfDisk id (decodeInode (fs.disk.block id)))) := by
  unfold onReadNodeFromDisk
  obtain ⟨heap, failed | memory⟩ := kalloc_cases fs
  · exact ⟨heap, Or.inl (Code.bind_of_err failed _)⟩
  have read : getBlock id (fs.withHeap heap) = .ok (fs.disk.block id) (fs.withHeap heap) := by
    rw [getBlock_quiet (show (fs.withHeap heap).disk.faults = [] from hardware.quiet)]
    exact if_pos onDisk
  rw [Code.bind_of_ok memory, Code.bind_of_ok read]
  obtain ⟨heap', failed | created⟩ := inodeCreate_cases (fs.withHeap heap)
    (inodeOfDisk id (decodeInode (fs.disk.block id)))
  · exact ⟨heap', Or.inl failed⟩
  · exact ⟨heap', Or.inr created⟩

theorem install_eq (heap : List Bool) (value value' : Inode) :
    SerenaFS.setNode { (fs.orphan value).withHeap heap with
      inodesInUse := (fs.orphan value).inodesInUse ++ [fs.nextRef] } fs.nextRef (some value') =
        (fs.withHeap heap).install value' := by
  unfold SerenaFS.setNode SerenaFS.install SerenaFS.orphan SerenaFS.withHeap
  simp only [Function.update_idem]

theorem install_logged_eq (heap : List Bool) (event : NodeEvent) (value value' : Inode) :
    SerenaFS.setNode { ((fs.orphan value).logged event).withHeap heap with
      inodesInUse := ((fs.orphan value).logged event).inodesInUse ++ [fs.nextRef] } fs.nextRef
        (some value') = ((fs.withHeap heap).install value').logged event := by
  unfold SerenaFS.setNode SerenaFS.install SerenaFS.orphan SerenaFS.withHeap SerenaFS.logged
  simp only [Function.update_idem]

theorem acquireNodeWithId_cases (consistent : fs.Consistent strict none [])
    (has : fs.hasNode id = true) :
    (∃ after, acquireNodeWithId id fs = .err .ENOMEM after ∧ OutOfMemory fs after) ∨
      ∃ ref after, acquireNodeWithId id fs = .ok ref after ∧ Acquired fs id ref after := by
  unfold acquireNodeWithId
  rw [Code.bind_of_ok (Code.get_apply _)]
  cases search : fs.inodesInUse.find? (fs.hasId id) with
  | some ref =>
    obtain ⟨value, core, inid⟩ := find_hasId_some consistent.table search
    exact Or.inr ⟨ref, _, reacquireNode_core core, .held core inid⟩
  | none =>
    have inode : fs.Holds (.inode id) id := ⟨has, rfl⟩
    have onDisk := lt_of_lt_of_le (consistent.accounts.lt_volume (Or.inl inode))
      consistent.hardware.volume
    simp only
    obtain ⟨heap, failed | read⟩ := onReadNodeFromDisk_cases consistent.hardware onDisk
    · exact Or.inl ⟨_, Code.bind_of_err failed _, .heap heap⟩
    rw [Code.bind_of_ok read]
    obtain ⟨heap', failed | listed⟩ := addToInodesInUse_cases ((fs.withHeap heap).orphan
      (inodeOfDisk id (decodeInode (fs.disk.block id)))) fs.nextRef
    · exact Or.inl ⟨_, Code.bind_of_err failed _, .orphan heap' _⟩
    refine Or.inr ⟨fs.nextRef, _, ?_, .read heap' (find_hasId_none search)⟩
    have core : SerenaFS.Core { ((fs.withHeap heap).orphan (inodeOfDisk id (decodeInode
        (fs.disk.block id)))).withHeap heap' with
          inodesInUse := ((fs.withHeap heap).orphan (inodeOfDisk id (decodeInode
            (fs.disk.block id)))).inodesInUse ++ [fs.nextRef] } fs.nextRef
        (inodeOfDisk id (decodeInode (fs.disk.block id))) :=
      ⟨List.mem_append_right _ List.mem_cons_self, Function.update_self _ _ _⟩
    rw [Code.bind_of_ok listed, reacquireNode_core core]
    exact congrArg (Outcome.ok fs.nextRef) (install_eq heap' _ _)

theorem SerenaFS.Consistent.acquired {id : Nat} {ref : InodeRef} {after : SerenaFS}
    (consistent : fs.Consistent strict none []) (has : fs.hasNode id = true)
    (acquired : Acquired fs id ref after) : after.Consistent strict none [] := by
  cases acquired with
  | held core inid => exact consistent.reacquire core
  | read heap absent =>
    have absent' : (fs.withHeap heap).Absent id := fun r found held =>
      absent r found ⟨held.inUse, held.stored⟩
    exact (consistent.withHeap heap).install_read has absent' Int.zero_lt_one rfl

/-- The inode that `Filesystem_AllocateNode` returns. -/
def allocatedInode (lba : Nat) (type : FileType) (uid gid : UInt32) (permissions : FilePermissions)
    (curTime : TimeInterval) : Inode :=
  { newInode lba type curTime with
    useCount := 1, uid := uid, gid := gid, permissions := permissions
    accessed := true, updated := true, statusChanged := true }

@[simp] theorem allocatedInode_inid (lba : Nat) (type : FileType) (uid gid : UInt32)
    (permissions : FilePermissions) (curTime : TimeInterval) :
    (allocatedInode lba type uid gid permissions curTime).inid = lba := rfl

/-- The volume after a node was allocated on block `lba`. -/
def SerenaFS.allocated (fs : SerenaFS) (lba : Nat) (heap : List Bool) (value : Inode) : SerenaFS :=
  (((fs.withHeap heap).mark lba true).install value).logged (.allocated lba)

theorem SerenaFS.Vacant.withHeap (vacant : (fs.withHeap heap).Vacant lba) :
    fs.Vacant lba := ⟨vacant.nonzero, vacant.volume, vacant.inside, vacant.unused⟩

theorem SerenaFS.Consistent.allocated {value : Inode}
    (consistent : fs.Consistent strict none []) (vacant : fs.Vacant lba) (inid : value.inid = lba)
    (counted : 0 < value.useCount) (linked : value.linkCount ≤ 1)
    (empty : value.blockMap = BlockMap.empty) (flagged : value.isModified = true) :
    (fs.allocated lba heap value).Consistent strict none [] := by
  subst inid
  have marked := (consistent.withHeap heap).mark_true vacant.inside vacant.volume vacant.unused
  exact marked.install_new counted linked empty flagged

theorem onAllocateNodeOnDisk_cases (hardware : fs.Hardware) (type : FileType) :
    onAllocateNodeOnDisk type fs = .fault ∨
    (∃ reason after, onAllocateNodeOnDisk type fs = .err reason after ∧
      ((∃ heap, after = fs.withHeap heap) ∨
        ∃ lba heap, fs.Vacant lba ∧
          after = (((fs.mark lba true).withHeap heap).mark lba false))) ∨
    ∃ lba heap, fs.Vacant lba ∧ onAllocateNodeOnDisk type fs =
      .ok fs.nextRef ((((fs.withHeap heap).mark lba true).orphan
        (newInode lba type fs.clock)).logged (.allocated lba)) := by
  unfold onAllocateNodeOnDisk
  obtain ⟨heap, failed | memory⟩ := kalloc_cases fs
  · exact Or.inr (Or.inl ⟨_, _, Code.bind_of_err failed _, Or.inl ⟨heap, rfl⟩⟩)
  rw [Code.bind_of_ok memory]
  have hardware₁ : (fs.withHeap heap).Hardware := hardware.of_eq rfl rfl rfl rfl rfl rfl
  rcases allocateBlockLocked_cases hardware₁ with fault | full | ⟨lba, vacant, found⟩
  · exact Or.inl (Code.bind_of_fault fault _)
  · exact Or.inr (Or.inl ⟨_, _, Code.bind_of_err full _, Or.inl ⟨heap, rfl⟩⟩)
  rw [Code.bind_of_ok found, Code.bind_of_ok (Code.get_apply _)]
  obtain ⟨heap', failed | created⟩ := inodeCreate_cases ((fs.withHeap heap).mark lba true)
    (newInode lba type fs.clock)
  · have hardware₂ : (((fs.withHeap heap).mark lba true).withHeap heap').Hardware :=
      (hardware₁.mark lba true).of_eq rfl rfl rfl rfl rfl rfl
    have failed' : inodeCreate (newInode lba type ((fs.withHeap heap).mark lba true).clock)
        ((fs.withHeap heap).mark lba true) = _ := failed
    rw [Code.bind_apply]
    unfold Code.onError
    rw [failed']
    rcases deallocateBlockLocked_cases hardware₂ vacant.nonzero with fault | ⟨-, freed⟩
    · exact Or.inl (by simp only [fault])
    · exact Or.inr (Or.inl ⟨.ENOMEM, _, by simp only [freed]; rfl,
        Or.inr ⟨lba, heap', vacant.withHeap, rfl⟩⟩)
  · refine Or.inr (Or.inr ⟨lba, heap', vacant.withHeap, ?_⟩)
    have created' : inodeCreate (newInode lba type ((fs.withHeap heap).mark lba true).clock)
        ((fs.withHeap heap).mark lba true) = _ := created
    rw [Code.bind_of_ok (show Code.onError _ _ _ = Outcome.ok _ _ by
      unfold Code.onError
      rw [created'])]
    rfl

/-- A node that nobody references cannot be given up: the call fails its
assertion after it deleted the node. -/
theorem relinquishNode_unused (hardware : fs.Hardware) {value : Inode}
    (stored : fs.inode ref = some value) (unlinked : value.linkCount = 0)
    (unused : value.useCount = 0) (empty : value.blockMap = BlockMap.empty)
    (nonzero : value.inid ≠ 0) : relinquishNode ref fs = .fault := by
  have blocks : List.ofFn value.blockMap =
      0 :: List.ofFn (fun index : Fin 113 => value.blockMap index.succ) := by
    rw [empty]
    exact List.ofFn_succ
  have emptied : deallocateFileContentBlocksLocked (List.ofFn value.blockMap)
      (fs.logged (.removed ref value.inid)) = .ok () (fs.logged (.removed ref value.inid)) := by
    rw [blocks]
    rfl
  have hardware' : (fs.logged (.removed ref value.inid)).Hardware :=
    hardware.of_eq rfl rfl rfl rfl rfl rfl
  unfold relinquishNode
  rw [Code.bind_of_ok (node_stored stored),
    Code.bind_of_ok (show assert (decide (0 ≤ value.linkCount)) fs = .ok () fs by
      rw [unlinked]
      rfl)]
  have settle : settleNode ref value fs =
      deallocateBlockLocked value.inid (fs.logged (.removed ref value.inid)) := by
    unfold settleNode onRemoveNodeFromDisk
    rw [if_pos unlinked, Code.bind_of_ok (node_stored stored),
      Code.bind_of_ok (show logNode (.removed ref value.inid) fs = .ok () _ from rfl)]
    exact Code.bind_of_ok emptied _
  rcases deallocateBlockLocked_cases hardware' nonzero with fault | ⟨-, freed⟩
  · exact Code.bind_of_fault (settle.trans fault) _
  · have stored' : ((fs.logged (.removed ref value.inid)).mark value.inid false).inode ref =
        some value := stored
    rw [Code.bind_of_ok (settle.trans freed), Code.bind_of_ok (updateNode_stored stored' _)]
    exact Code.bind_of_fault (show assert (decide (0 < value.useCount)) _ = .fault by
      rw [unused]
      rfl) _

/-- What a failed allocation of a node leaves behind. -/
inductive NotAllocated (fs : SerenaFS) : SerenaFS → Prop
  | heap (heap : List Bool) : NotAllocated fs (fs.withHeap heap)
  | returned {lba : Nat} (heap : List Bool) (vacant : fs.Vacant lba) :
      NotAllocated fs (((fs.mark lba true).withHeap heap).mark lba false)

theorem SerenaFS.Consistent.notAllocated {after : SerenaFS}
    (consistent : fs.Consistent strict none []) (failed : NotAllocated fs after) :
    after.Consistent strict none [] := by
  cases failed with
  | heap heap => exact consistent.withHeap heap
  | returned heap vacant =>
    have marked := consistent.mark_true vacant.inside vacant.volume vacant.unused
    refine (marked.withHeap heap).mark_false (by simp) ?_
    change _ < (setBlockInUse fs.allocationBitmap _ true).length
    rw [length_setBlockInUse]
    exact vacant.inside

/-- The call fails only when nothing could be allocated on the disk. -/
theorem allocateNode_returns (hardware : fs.Hardware) (type : FileType) (uid gid : UInt32)
    (permissions : FilePermissions) :
    allocateNode type uid gid permissions fs = .fault ∨
    (∃ reason after, allocateNode type uid gid permissions fs = .err reason after ∧
      NotAllocated fs after ∧ onAllocateNodeOnDisk type fs = .err reason after) ∨
    ∃ lba heap, fs.Vacant lba ∧ allocateNode type uid gid permissions fs =
      .ok fs.nextRef (fs.allocated lba heap
        (allocatedInode lba type uid gid permissions fs.clock)) := by
  unfold allocateNode
  rcases onAllocateNodeOnDisk_cases hardware type with
    fault | ⟨reason, after, failed, states⟩ | ⟨lba, heap, vacant, created⟩
  · exact Or.inl (Code.bind_of_fault fault _)
  · refine Or.inr (Or.inl ⟨reason, after, Code.bind_of_err failed _, ?_, failed⟩)
    rcases states with ⟨heap, rfl⟩ | ⟨lba, heap, vacant, rfl⟩
    · exact .heap heap
    · exact .returned heap vacant
  rw [Code.bind_of_ok created]
  have stored : ((((fs.withHeap heap).mark lba true).orphan (newInode lba type fs.clock)).logged
      (.allocated lba)).inode fs.nextRef = some (newInode lba type fs.clock) :=
    Function.update_self _ _ _
  have hardware' : ((((fs.withHeap heap).mark lba true).orphan (newInode lba type fs.clock)).logged
      (.allocated lba)).Hardware :=
    (hardware.mark lba true).of_eq rfl rfl rfl rfl rfl rfl
  generalize state : (((fs.withHeap heap).mark lba true).orphan
    (newInode lba type fs.clock)).logged (.allocated lba) = current at stored hardware' ⊢
  obtain ⟨heap', failed | listed⟩ := addToInodesInUse_cases current fs.nextRef
  · left
    refine Code.bind_of_fault ?_ _
    unfold Code.onError
    rw [failed]
    simp only
    have stored' : (current.withHeap heap').inode fs.nextRef = some (newInode lba type fs.clock) := stored
    have gone : ∀ value : Inode, value.linkCount = 0 → value.useCount = 0 →
        value.blockMap = BlockMap.empty → value.inid ≠ 0 →
          relinquishNode fs.nextRef ((current.withHeap heap').setNode fs.nextRef (some value)) =
            .fault := by
      intro value
      have hardware'' : ((current.withHeap heap').setNode fs.nextRef (some value)).Hardware :=
        hardware'.of_eq rfl rfl rfl rfl rfl rfl
      exact relinquishNode_unused hardware'' (Function.update_self _ _ _)
    rw [Code.bind_of_ok (updateNode_stored stored' _), gone _ rfl rfl rfl vacant.nonzero]
  · refine Or.inr (Or.inr ⟨lba, heap', vacant, ?_⟩)
    rw [Code.bind_of_ok (show Code.onError _ _ _ = Outcome.ok _ _ by
      unfold Code.onError
      rw [listed])]
    have stored' : SerenaFS.inode { current.withHeap heap' with
        inodesInUse := current.inodesInUse ++ [fs.nextRef] } fs.nextRef =
          some (newInode lba type fs.clock) := stored
    rw [Code.bind_of_ok (updateNode_stored stored' _)]
    subst state
    exact congrArg (Outcome.ok fs.nextRef) (install_logged_eq heap' (.allocated lba) _ _)

theorem allocateNode_cases (hardware : fs.Hardware) (type : FileType) (uid gid : UInt32)
    (permissions : FilePermissions) :
    allocateNode type uid gid permissions fs = .fault ∨
    (∃ reason after, allocateNode type uid gid permissions fs = .err reason after ∧
      NotAllocated fs after) ∨
    ∃ lba heap, fs.Vacant lba ∧ allocateNode type uid gid permissions fs =
      .ok fs.nextRef (fs.allocated lba heap
        (allocatedInode lba type uid gid permissions fs.clock)) := by
  rcases allocateNode_returns hardware type uid gid permissions with
    fault | ⟨reason, after, failed, state, -⟩ | created
  · exact Or.inl fault
  · exact Or.inr (Or.inl ⟨reason, after, failed, state⟩)
  · exact Or.inr (Or.inr created)

end Acquire

end Apollo.Serenafs
