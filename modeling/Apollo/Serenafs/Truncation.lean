import Apollo.Serenafs.BlockExclusivity
import Apollo.Serenafs.DirectoryTables

/-!
# Truncating files

`SerenaFS_xTruncateFile` computes the first block that it frees from the length the file
had.  The blocks between the new end and the old one stay in the block map, so a
truncation is exact when there are none.
-/

set_option autoImplicit false

namespace Apollo.Serenafs

open Lib

/-- The block with this index lies behind the end of a file of `length` bytes. -/
def PastEnd (length : Int) (index : Fin kSFSMaxDirectDataBlockPointers) : Prop := length ≤ kSFSBlockSize * index.val

instance (length : Int) (index : Fin kSFSMaxDirectDataBlockPointers) : Decidable (PastEnd length index) :=
  inferInstanceAs (Decidable (_ ≤ _))

/-- The file that was `before` is `now` cut to `length` bytes: its blocks behind the end are free
and the others are what they were. -/
structure TruncatesTo (fs after : SerenaFS) (before now : NodeView) (length : Int) : Prop where
  size : now.size = length
  freed : ∀ index, PastEnd length index → now.blockMap index = 0 ∧
    (before.blockMap index ≠ 0 → isBlockInUse after.allocationBitmap (before.blockMap index) = false)
  kept : ∀ index, ¬PastEnd length index → now.blockMap index = before.blockMap index ∧
    (before.blockMap index ≠ 0 →
      isBlockInUse after.allocationBitmap (before.blockMap index) = isBlockInUse fs.allocationBitmap (before.blockMap index) ∧
        after.disk.block (before.blockMap index) = fs.disk.block (before.blockMap index))

/-- The blocks of the file from index `first` on are those behind the end. -/
def CutsAtEnd (map : BlockMap) (first length : Int) : Prop :=
  ∀ index, map index ≠ 0 → (first ≤ index.val ↔ PastEnd length index)

instance (map : BlockMap) (first length : Int) : Decidable (CutsAtEnd map first length) :=
  inferInstanceAs (Decidable (∀ _, _))

/-! ## The blocks that are freed -/

section Freeing
variable {fs after : SerenaFS} {ref : InodeRef} {value : Inode} {strict : Prop}

theorem deallocateBlockLocked_frees (hardware : fs.Hardware) {lba : Nat} (nonzero : lba ≠ 0)
    (returned : deallocateBlockLocked lba fs = .ok () after) (other : Nat) :
    isBlockInUse after.allocationBitmap other = if other = lba then false else isBlockInUse fs.allocationBitmap other := by
  rcases deallocateBlockLocked_cases hardware nonzero with fault | ⟨inside, freed⟩
  · rw [fault] at returned
    cases returned
  · rw [freed] at returned
    cases returned
    exact isBlockInUse_mark inside false other

theorem xTruncateLoop_frees (first : Int) (cut : List (Fin kSFSMaxDirectDataBlockPointers)) (hardware : fs.Hardware)
    (stored : fs.inode ref = some value) (returned : xTruncateLoop ref first cut fs = .ok () after) (lba : Nat) :
    (isBlockInUse fs.allocationBitmap lba = false → isBlockInUse after.allocationBitmap lba = false) ∧
      ((∃ index ∈ cut, first ≤ index.val ∧ value.blockMap index = lba ∧ lba ≠ 0) →
        isBlockInUse after.allocationBitmap lba = false) := by
  induction cut generalizing fs value with
  | nil =>
    cases returned
    refine ⟨id, ?_⟩
    rintro ⟨index, member, -⟩
    cases member
  | cons index rest ih =>
    unfold xTruncateLoop at returned
    rw [Code.bind_of_ok (node_stored stored)] at returned
    by_cases cuts : first ≤ index.val ∧ value.blockMap index ≠ 0
    · rw [if_pos cuts] at returned
      rcases deallocateBlockLocked_cases hardware cuts.2 with fault | ⟨inside, freed⟩
      · rw [Code.bind_of_fault fault] at returned
        cases returned
      · have bit := deallocateBlockLocked_frees hardware cuts.2 freed
        have stored' : (fs.mark (value.blockMap index) false).inode ref = some value := stored
        rw [Code.bind_of_ok freed, Code.bind_of_ok (updateNode_stored stored' _)] at returned
        have cleared : ((fs.mark (value.blockMap index) false).setNode ref (some (value.withEntry index 0))).inode ref =
            some (value.withEntry index 0) := Function.update_self _ _ _
        have hardware' : ((fs.mark (value.blockMap index) false).setNode ref (some (value.withEntry index 0))).Hardware :=
          (hardware.mark (value.blockMap index) false).of_eq rfl rfl rfl rfl rfl rfl
        obtain ⟨stays, frees⟩ := ih hardware' cleared returned
        have bit' := bit lba
        refine ⟨fun free => stays ?_, ?_⟩
        · change isBlockInUse (fs.mark (value.blockMap index) false).allocationBitmap lba = false
          rw [bit', free, ite_self]
        · rintro ⟨other, member, above, same, nonzero⟩
          by_cases this : lba = value.blockMap index
          · refine stays ?_
            change isBlockInUse (fs.mark (value.blockMap index) false).allocationBitmap lba = false
            rw [bit', if_pos this]
          · rcases List.mem_cons.mp member with here | later
            · exact absurd (here ▸ same.symm) this
            · refine frees ⟨other, later, above, ?_, nonzero⟩
              have different : other ≠ index := fun equal => this (equal ▸ same.symm)
              exact (Function.update_of_ne different _ _).trans same
    · rw [if_neg cuts] at returned
      obtain ⟨stays, frees⟩ := ih hardware stored returned
      refine ⟨stays, ?_⟩
      rintro ⟨other, member, above, same, nonzero⟩
      rcases List.mem_cons.mp member with here | later
      · exact absurd ⟨here ▸ above, fun empty => nonzero (same.symm.trans (here ▸ empty))⟩ cuts
      · exact frees ⟨other, later, above, same, nonzero⟩

/-- What `SerenaFS_xTruncateFile` frees is what lies behind the new end, when the first index it
computes cuts the file there. -/
theorem xTruncateFile_exact_iff {length : Int} (consistent : fs.Consistent strict none []) (core : fs.Core ref value)
    (returned : xTruncateFile ref length fs = .ok () after) :
    after.Consistent strict none [] ∧ after.Core ref (truncated value length) ∧
      (TruncatesTo fs after value.view (truncated value length).view length ↔
        CutsAtEnd value.blockMap (firstBlockIdx value.size) length) := by
  rcases xTruncateFile_spec length (Reached.start' core consistent) core with
    fault | ⟨final, call, nonnegative, reached, core', blocks⟩
  · rw [fault] at returned
    cases returned
  rw [call] at returned
  cases returned
  have entries (index : Fin kSFSMaxDirectDataBlockPointers) : (truncated value length).blockMap index =
      if firstBlockIdx value.size ≤ index.val then 0 else value.blockMap index := by
    unfold truncated cutMap
    simp only [List.mem_finRange, true_and]
  have frees (index : Fin kSFSMaxDirectDataBlockPointers) (above : firstBlockIdx value.size ≤ index.val)
      (nonzero : value.blockMap index ≠ 0) : isBlockInUse after.allocationBitmap (value.blockMap index) = false := by
    unfold xTruncateFile at call
    rw [Code.bind_of_ok (node_core core), if_neg (not_lt.mpr nonnegative)] at call
    obtain ⟨_, middle, loop, marked⟩ := Code.bind_eq_ok.mp call
    have freed := (xTruncateLoop_frees _ _ consistent.hardware core.stored loop (value.blockMap index)).2
      ⟨index, List.mem_finRange index, above, rfl, nonzero⟩
    unfold updateNode at marked
    split at marked
    · cases marked
      exact freed
    · cases marked
  refine ⟨reached.consistent, core', fun exact_ index nonzero => ⟨fun above => ?_, fun past => ?_⟩, fun cuts => ⟨rfl, ?_, ?_⟩⟩
  · by_contra inside
    have same := (exact_.kept index inside).1
    change (truncated value length).blockMap index = value.blockMap index at same
    rw [entries, if_pos above] at same
    exact nonzero same.symm
  · have cleared := (exact_.freed index past).1
    change (truncated value length).blockMap index = 0 at cleared
    rw [entries] at cleared
    by_contra below
    rw [if_neg below] at cleared
    exact nonzero cleared
  · intro index past
    refine ⟨?_, fun nonzero => frees index ((cuts index nonzero).mpr past) nonzero⟩
    change (truncated value length).blockMap index = 0
    rw [entries]
    by_cases empty : value.blockMap index = 0
    · rw [empty, ite_self]
    · rw [if_pos ((cuts index empty).mpr past)]
  · intro index inside
    have entry : value.blockMap index ≠ 0 → (truncated value length).blockMap index = value.blockMap index := fun nonzero => by
      rw [entries, if_neg fun above => inside ((cuts index nonzero).mp above)]
    refine ⟨?_, fun nonzero => ⟨?_, ?_⟩⟩
    · by_cases empty : value.blockMap index = 0
      · change (truncated value length).blockMap index = value.blockMap index
        rw [entries, empty, ite_self]
      · exact entry empty
    · have before : fs.Holds (.content value.inid index) (value.blockMap index) := ⟨value.view, .core core, rfl, nonzero⟩
      have now : after.Holds (.content value.inid index) (value.blockMap index) :=
        ⟨(truncated value length).view, .core core', entry nonzero, nonzero⟩
      have used := consistent.accounts.sound.covered (Or.inl before)
      have used' := reached.consistent.accounts.sound.covered (Or.inl now)
      exact used'.trans used.symm
    · exact blocks _ (consistent.accounts.not_bitmap core nonzero)

end Freeing

/-! ## The calls that truncate -/

/-- The index from which on `SerenaFS_truncate` frees the blocks of a file of `size` bytes; there is no
block with index 114. -/
def truncateFirst (size length : Int) : Int := if length < size then firstBlockIdx size else kSFSMaxDirectDataBlockPointers

/-- A successful call that cuts the file `id`, which was `before`, to `length` bytes; it frees blocks from
index `first` on. -/
inductive Truncation (fs : SerenaFS) : Nat → NodeView → Int → Int → SerenaFS → Prop
  | truncate {ref : InodeRef} {value : Inode} {user : User} {length : Int} {after : SerenaFS} (core : fs.Core ref value)
      (nonnegative : 0 ≤ length) (shorter : length ≤ value.size) (returned : truncate ref user length fs = .ok () after) :
      Truncation fs value.inid value.view (truncateFirst value.size length) length after
  | openFile {ref : InodeRef} {value : Inode} {mode : UInt32} {user : User} {file : File} {after : SerenaFS}
      (core : fs.Core ref value) (truncates : mode &&& kOpenTruncate ≠ 0) (returned : openFile ref mode user fs = .ok file after) :
      Truncation fs value.inid value.view (firstBlockIdx value.size) 0 after
  | createFile {name : PathComponent} {parent ref : InodeRef} {dir : Inode} {user : User} {options : UInt32}
      {permissions : FilePermissions} {lookup : DirectoryLookup} {entry : DirectoryMatch} {before : NodeView} {after : SerenaFS}
      (core : fs.Core parent dir) (found : createFileLookup name parent user options fs = .ok lookup fs)
      (exists_ : lookup.found = some entry) (isNode : fs.IsNode entry.id before)
      (truncates : options &&& kOpenTruncate = kOpenTruncate)
      (returned : createFile name parent user options permissions fs = .ok ⟨none, some ref⟩ after) :
      Truncation fs entry.id before (firstBlockIdx before.size) 0 after

section Calls
variable {fs middle after : SerenaFS} {ref : InodeRef} {value : Inode} {strict : Prop}

theorem TruncatesTo.of_eq {before now : NodeView} {length : Int} (bitmap : middle.allocationBitmap = fs.allocationBitmap)
    (disk : middle.disk = fs.disk) : TruncatesTo middle after before now length ↔ TruncatesTo fs after before now length := by
  constructor
  · rintro ⟨size, freed, kept⟩
    rw [bitmap, disk] at kept
    exact ⟨size, freed, kept⟩
  · rintro ⟨size, freed, kept⟩
    rw [← bitmap, ← disk] at kept
    exact ⟨size, freed, kept⟩

/-- `SerenaFS_truncate` leaves a file alone that has the length already. -/
theorem truncatesTo_self_iff (view : NodeView) :
    TruncatesTo fs fs view view view.size ↔ CutsAtEnd view.blockMap kSFSMaxDirectDataBlockPointers view.size := by
  have below (index : Fin kSFSMaxDirectDataBlockPointers) : ¬(kSFSMaxDirectDataBlockPointers : Int) ≤ index.val := by
    omega
  refine ⟨fun exact_ index nonzero => iff_of_false (below index) fun past => nonzero (exact_.freed index past).1, fun cuts => ⟨rfl, ?_, ?_⟩⟩
  · intro index past
    have empty : view.blockMap index = 0 := by
      by_contra nonzero
      exact below index ((cuts index nonzero).mpr past)
    exact ⟨empty, fun nonzero => absurd empty nonzero⟩
  · exact fun index _ => ⟨rfl, fun _ => ⟨rfl, rfl⟩⟩

theorem xTruncateFile_acquired (fs : SerenaFS) {length : Int} {before : NodeView} (consistent : middle.Consistent strict none [])
    (core : middle.Core ref value) (view : value.view = before) (bitmap : middle.allocationBitmap = fs.allocationBitmap)
    (disk : middle.disk = fs.disk) (returned : xTruncateFile ref length middle = .ok () after) :
    (∃ now, after.IsNode value.inid now ∧ TruncatesTo fs after before now length) ↔
      CutsAtEnd before.blockMap (firstBlockIdx before.size) length := by
  obtain ⟨consistent', core', exact_⟩ := xTruncateFile_exact_iff consistent core returned
  have isNode := SerenaFS.IsNode.core core'
  subst view
  refine Iff.trans ?_ exact_
  rw [TruncatesTo.of_eq bitmap disk]
  refine ⟨fun ⟨now, held, truncates⟩ => ?_, fun truncates => ⟨_, isNode, truncates⟩⟩
  rw [consistent'.table.isNode_unique held isNode] at truncates
  exact truncates

theorem Acquired.view {id : Nat} {before : NodeView} (table : fs.Table) (isNode : fs.IsNode id before)
    (acquired : Acquired fs id ref middle) (core : middle.Core ref value) : value.inid = id ∧ value.view = before := by
  cases acquired with
  | @held _ found core' inid =>
    subst inid
    have held : fs.IsNode found.inid found.view := .core core'
    rw [← (core_setNode_self core' (reacquired found)).value_eq core]
    exact ⟨rfl, table.isNode_unique held isNode⟩
  | read heap absent =>
    have core' : ((fs.withHeap heap).install (readInode fs id)).Core fs.nextRef (readInode fs id) :=
      ⟨List.mem_append_right _ List.mem_cons_self, Function.update_self _ _ _⟩
    rw [← core'.value_eq core]
    cases isNode with
    | core held => exact absurd rfl (absent _ _ held)
    | disk _ _ => exact ⟨rfl, rfl⟩

theorem Acquired.bitmap_eq {id : Nat} (acquired : Acquired fs id ref middle) : middle.allocationBitmap = fs.allocationBitmap := by
  cases acquired with
  | held core inid => rfl
  | read heap absent => rfl

theorem check_ok {result : Option Errno} {checked : SerenaFS} (allowed : check result fs = .ok () checked) : fs = checked := by
  cases result with
  | none =>
    cases allowed
    rfl
  | some reason => cases allowed

/-- `SerenaFS_open` with a mode that truncates: one reference more, and then the truncation. -/
theorem openFile_truncates {mode : UInt32} {user : User} {file : File} (core : fs.Core ref value)
    (truncates : mode &&& kOpenTruncate ≠ 0) (returned : openFile ref mode user fs = .ok file after) :
    ∃ heap, xTruncateFile ref 0 ((fs.withHeap heap).setNode ref (some (reacquired value))) = .ok () after := by
  unfold openFile at returned
  rw [Code.bind_of_ok (node_core core)] at returned
  by_cases directory : value.isDirectory = true
  · rw [if_pos directory] at returned
    cases returned
  rw [if_neg directory] at returned
  by_cases closed : mode &&& kOpenReadWrite = 0
  · rw [if_pos closed] at returned
    cases returned
  rw [if_neg closed] at returned
  obtain ⟨_, checked, allowed, returned⟩ := Code.bind_eq_ok.mp returned
  obtain ⟨opened, acquired, created, returned⟩ := Code.bind_eq_ok.mp returned
  obtain ⟨_, truncated, cut, returned⟩ := Code.bind_eq_ok.mp returned
  cases returned
  obtain rfl := check_ok allowed
  obtain ⟨heap, failed | memory⟩ := kalloc_cases fs
  · unfold fileCreate at created
    rw [Code.bind_of_err failed] at created
    cases created
  · have core' : (fs.withHeap heap).Core ref value := ⟨core.inUse, core.stored⟩
    unfold fileCreate at created
    rw [Code.bind_of_ok memory, Code.bind_of_ok (reacquireNode_core core')] at created
    cases created
    have truncating : truncateIf (mode &&& kOpenTruncate ≠ 0) ref = xTruncateFile ref 0 := if_pos (decide_eq_true truncates)
    rw [truncating] at cut
    exact ⟨heap, cut⟩

theorem truncate_exact_iff {user : User} {length : Int} (consistent : fs.Consistent strict none []) (core : fs.Core ref value)
    (nonnegative : 0 ≤ length) (shorter : length ≤ value.size) (returned : truncate ref user length fs = .ok () after) :
    (∃ now, after.IsNode value.inid now ∧ TruncatesTo fs after value.view now length) ↔
      CutsAtEnd value.view.blockMap (truncateFirst value.size length) length := by
  unfold truncate at returned
  rw [Code.bind_of_ok (node_core core)] at returned
  by_cases directory : value.isDirectory = true
  · rw [if_pos directory] at returned
    cases returned
  rw [if_neg directory] at returned
  by_cases irregular : (!value.isRegularFile) = true
  · rw [if_pos irregular] at returned
    cases returned
  rw [if_neg irregular, if_neg (not_lt.mpr nonnegative)] at returned
  cases access : value.checkAccess user kFilePermissionWrite with
  | some reason =>
    rw [access, Code.bind_of_err (show check (some reason) fs = .err reason fs from rfl)] at returned
    cases returned
  | none =>
    rw [access, Code.bind_of_ok (show check none fs = .ok () fs from rfl), if_neg (not_lt.mpr shorter)] at returned
    unfold truncateFirst
    by_cases shrinks : length < value.size
    · rw [if_pos shrinks] at returned ⊢
      exact xTruncateFile_acquired fs consistent core rfl rfl rfl returned
    · rw [if_neg shrinks] at returned ⊢
      cases returned
      obtain rfl : length = value.size := by omega
      refine Iff.trans ⟨fun ⟨now, held, truncates⟩ => ?_, fun truncates => ⟨_, .core core, truncates⟩⟩ (truncatesTo_self_iff value.view)
      rw [consistent.table.isNode_unique held (.core core)] at truncates
      exact truncates

end Calls

def sparseFile : List Operation := [.acquireNodeWithId 2, .createFile [0x61] 0 ⟨0, 0⟩ 0 0x1a4, .xWrite 1 600 [1]]

/-- The file has its one block where a truncation to 520 bytes leaves it and one to 0 bytes should free it. -/
theorem sparseFile_truncates (length : Int) (exact_ : Bool) (shorter : length < 601)
    (performs : (performAll (fun fs operation => operation.orderly fs) sparseFile [] (emptyVolume 64)).map
      (fun reached => (reached.2.inodesInUse.contains 1,
        (reached.2.inode 1).map fun value => (value.size, decide (CutsAtEnd value.blockMap (firstBlockIdx 601) length)),
        (truncate 1 ⟨0, 0⟩ length reached.2).value?)) = some (true, some (601, exact_), some ())) :
    ∃ (fs : SerenaFS) (value : Inode) (after : SerenaFS), fs.Consistent False none [] ∧ value.size = 601 ∧
      fs.Core 1 value ∧ truncate 1 ⟨0, 0⟩ length fs = .ok () after ∧ truncateFirst 601 length = firstBlockIdx 601 ∧
      (CutsAtEnd value.blockMap (firstBlockIdx 601) length ↔ exact_ = true) := by
  obtain ⟨⟨calls, fs⟩, performed, state⟩ := Option.map_eq_some_iff.mp performs
  simp only [Prod.mk.injEq, List.contains_iff_mem, Option.map_eq_some_iff] at state
  obtain ⟨inUse, ⟨value, stored, size, cuts⟩, returned⟩ := state
  have consistent := runs_consistent rfl (by decide) emptyVolume_mounts (runs_performAll .nil performed)
  have shrinks : truncateFirst 601 length = firstBlockIdx 601 := if_pos shorter
  exact ⟨fs, value, _, consistent, size, ⟨inUse, stored⟩, Outcome.eq_ok returned fs, shrinks, by rw [← cuts, decide_eq_true_iff]⟩

end Apollo.Serenafs
