import Apollo.Serenafs.ContentSpecs

/-!
# What the directory operations do to a volume

The scanner does not change anything, and the entries it points to lie in the
blocks of the directory.  Removing and inserting an entry are content operations
on the directory.
-/

set_option autoImplicit false

namespace Apollo.Serenafs

open Lib

/-! ## Scanning -/

def SFSDirectoryEntryPointer.Into (pointer : SFSDirectoryEntryPointer) (map : BlockMap) : Prop :=
  pointer.lba = 0 ∨ ∃ index, map index = pointer.lba

section Scan
variable {fs : SerenaFS} {ref : InodeRef} {value : Inode} {strict : Prop}
variable {dirty : Option InodeRef}

def ScanReturns (fs : SerenaFS) (map : BlockMap) (outcome : Outcome SerenaFS Errno DirectoryLookup) :
    Prop :=
  outcome = .fault ∨ (∃ reason, outcome = .err reason fs) ∨
    ∃ lookup, outcome = .ok lookup fs ∧ lookup.empty.Into map ∧
      ∀ found, lookup.found = some found → found.pointer.Into map

theorem scanDirectory_spec (consistent : fs.Consistent strict dirty []) (core : fs.Core ref value)
    (query : SFSDirectoryQuery) (wantEmpty : Bool) (fileSize : Int) (fuel : Nat) (offset : Int)
    (empty : SFSDirectoryEntryPointer) (into : empty.Into value.blockMap) :
    ScanReturns fs value.blockMap (scanDirectory ref query wantEmpty fileSize fuel offset empty fs) := by
  induction fuel generalizing offset empty with
  | zero => exact Or.inr (Or.inr ⟨⟨empty, none⟩, rfl, into, by simp⟩)
  | succ fuel ih =>
    unfold scanDirectory
    simp only
    by_cases done : min (kSFSBlockSize : Int) (fileSize - offset) ≤ 0
    · rw [if_pos done]
      exact Or.inr (Or.inr ⟨⟨empty, none⟩, rfl, into, by simp⟩)
    rw [if_neg done]
    rcases blockIndex_cases (blockIndex offset) with outside | ⟨index, bound⟩
    · exact Or.inr (Or.inl ⟨_, Code.bind_of_err (fileBlock_outside outside .read) _⟩)
    rw [Code.bind_of_ok (fileBlock_read consistent core bound)]
    have pointer : ∀ slot, (entryPointer (value.blockMap index) offset slot).Into value.blockMap :=
      fun slot => Or.inr ⟨index, rfl⟩
    cases scan : xHasMatchingDirectoryEntry query (fs.contentBlock value.blockMap index)
        ((min (kSFSBlockSize : Int) (fileSize - offset)).toNat / sizeofSFSDirectoryEntry) 0 none with
    | none => exact Or.inl (by rfl)
    | some result =>
      simp only
      obtain ⟨next, stored, into'⟩ : ∃ next,
          (storeEmpty wantEmpty (value.blockMap index) offset result.empty empty fs = .fault ∨
            storeEmpty wantEmpty (value.blockMap index) offset result.empty empty fs =
              .ok next fs) ∧ next.Into value.blockMap := by
        cases result.empty with
        | none => exact ⟨empty, Or.inr rfl, into⟩
        | some slot =>
          refine ⟨entryPointer (value.blockMap index) offset slot, ?_, pointer slot⟩
          cases wantEmpty with
          | true => exact Or.inr rfl
          | false => exact Or.inl rfl
      rcases stored with fault | stored
      · exact Or.inl (Code.bind_of_fault fault _)
      rw [Code.bind_of_ok stored]
      cases result.found with
      | none => exact ih _ next into'
      | some slot =>
        refine Or.inr (Or.inr ⟨_, rfl, into', ?_⟩)
        rintro found same
        simp only [Option.some.injEq] at same
        subst same
        exact pointer slot

theorem getDirectoryEntry_spec (consistent : fs.Consistent strict dirty []) (core : fs.Core ref value)
    (query : SFSDirectoryQuery) (wantEmpty : Bool) :
    ScanReturns fs value.blockMap (getDirectoryEntry ref query wantEmpty fs) := by
  have null : SFSDirectoryEntryPointer.null.Into value.blockMap := Or.inl rfl
  unfold getDirectoryEntry
  rw [Code.bind_of_ok (node_core core)]
  cases query with
  | pathComponent name =>
    simp only
    by_cases empty : name.length = 0
    · rw [if_pos empty]
      exact Or.inr (Or.inr ⟨_, rfl, null, by simp⟩)
    rw [if_neg empty]
    by_cases long : kSFSMaxFilenameLength < name.length
    · rw [if_pos long]
      exact Or.inr (Or.inl ⟨_, rfl⟩)
    · rw [if_neg long]
      exact scanDirectory_spec consistent core _ _ _ _ _ _ null
  | inodeId id => exact scanDirectory_spec consistent core _ _ _ _ _ _ null

end Scan

/-! ## Removing and inserting entries -/

section Entries
variable {origin fs : SerenaFS} {ref : InodeRef} {start value : Inode} {strict : Prop}

theorem Reached.writeInto {dirty : Bool} {pending : List Nat}
    (reached : Reached origin ref start strict dirty pending fs) (core : fs.Core ref value)
    {pointer : SFSDirectoryEntryPointer} (into : pointer.Into value.blockMap) (block : Block) :
    Reached origin ref start strict dirty pending (fs.writeBlock pointer.lba block) := by
  rcases into with zero | ⟨index, entry⟩
  · have header : fs.Holds .header pointer.lba := zero
    exact reached.writeBlock (Or.inl header) (by simp) (by simp) block
  · exact reached.writeContent core entry block

theorem getBlock_cases (hardware : fs.Hardware) (lba : Nat) :
    getBlock lba fs = .err .EIOError fs ∨ getBlock lba fs = .ok (fs.disk.block lba) fs := by
  rw [getBlock_quiet hardware.quiet]
  split_ifs
  · exact Or.inr rfl
  · exact Or.inl rfl

theorem putBlock_cases (hardware : fs.Hardware) (block : Block) (lba : Nat) :
    putBlock block lba fs = .err .EIOError fs ∨ putBlock block lba fs = .ok () (fs.writeBlock lba block) := by
  rw [putBlock_quiet hardware.quiet]
  split_ifs
  · exact Or.inr rfl
  · exact Or.inl rfl

/-- The directory shrinks without being flagged; that is up to the caller. -/
theorem removeDirectoryEntry_spec (id : Nat) :
    Code.Spec (Reached origin ref start strict false []) (removeDirectoryEntry ref id)
      (fun _ => Reached origin ref start strict true [])
      (fun _ => Reached origin ref start strict false []) := by
  intro fs reached
  obtain ⟨value, core, -⟩ := reached.core
  unfold removeDirectoryEntry
  rcases getDirectoryEntry_spec reached.consistent core (.inodeId id) false with
    fault | ⟨reason, failed⟩ | ⟨lookup, returned, -, pointer⟩
  · rw [Code.bind_of_fault fault]
    trivial
  · rw [Code.bind_of_err failed]
    exact reached
  rw [Code.bind_of_ok returned]
  cases found : lookup.found with
  | none => exact reached
  | some entry =>
    have into := pointer entry found
    rcases getBlock_cases reached.consistent.hardware entry.pointer.lba with failed | read
    · simp only
      rw [Code.bind_of_err failed]
      exact reached
    simp only
    rw [Code.bind_of_ok read]
    rcases putBlock_cases reached.consistent.hardware _ entry.pointer.lba with failed | written
    · rw [Code.bind_of_err failed]
      exact reached
    rw [Code.bind_of_ok written, updateNode_core ((core_writeBlock _ _ ref value).mpr core)]
    refine (reached.writeInto core into _).setNode ((core_writeBlock _ _ ref value).mpr core) ?_ ?_ true (by simp)
    · split_ifs <;> rfl
    · split_ifs <;> rfl

theorem finishAppend_present {index : Fin kSFSMaxDirectDataBlockPointers}
    (reached : Reached origin ref start strict false [] fs) (core : fs.Core ref value)
    (block : Block) :
    (finishAppend ref index (value.blockMap index) block fs).Returned
      (fun _ => Reached origin ref start strict false [])
      (fun _ => Reached origin ref start strict false []) := by
  unfold finishAppend
  rcases putBlock_cases reached.consistent.hardware block (value.blockMap index) with failed | written
  · rw [Code.bind_of_err failed]
    exact reached
  rw [Code.bind_of_ok written, updateNode_core ((core_writeBlock _ _ ref value).mpr core)]
  refine (reached.writeContent core rfl _).setNode ((core_writeBlock _ _ ref value).mpr core) ?_ ?_ false ?_
  · rfl
  · exact Function.update_eq_self _ _
  · simp [Inode.isModified, Inode.setUpdated]

theorem finishAppend_fresh {index : Fin kSFSMaxDirectDataBlockPointers} {lba : Nat}
    (reached : Reached origin ref start strict false [lba] fs) (core : fs.Core ref value)
    (vacant : value.blockMap index = 0) (nonzero : lba ≠ 0) (block : Block) :
    (finishAppend ref index lba block fs).Returned
      (fun _ => Reached origin ref start strict false [])
      (fun _ => Reached origin ref start strict false []) := by
  have claimed : (fs.ledger [lba]).holds (.pending lba) lba := Or.inr ⟨rfl, List.mem_cons_self⟩
  have onDisk := lt_of_lt_of_le (reached.consistent.accounts.lt_volume claimed)
    reached.consistent.hardware.volume
  unfold finishAppend
  rw [Code.bind_of_ok (show putBlock block lba fs = .ok () (fs.writeBlock lba block) by
    rw [putBlock_quiet reached.consistent.hardware.quiet]
    exact if_pos onDisk), updateNode_core ((core_writeBlock _ _ ref value).mpr core)]
  refine (reached.writePending List.mem_cons_self block).enter ((core_writeBlock _ _ ref value).mpr core) ?_ vacant
    nonzero ?_ false ?_
  · rfl
  · rfl
  · simp [Inode.isModified, Inode.setUpdated]

theorem appendDirectoryEntry_spec (name : PathComponent) (id : Nat) :
    Code.Spec (Reached origin ref start strict false []) (appendDirectoryEntry ref name id)
      (fun _ => Reached origin ref start strict false [])
      (fun _ => Reached origin ref start strict false []) := by
  intro fs reached
  obtain ⟨value, core, -⟩ := reached.core
  unfold appendDirectoryEntry
  rw [Code.bind_of_ok (node_core core)]
  by_cases partial_ : 0 < blockOffset value.size
  · rw [if_pos partial_]
    by_cases bound : 0 ≤ toInt32 (toUInt32 (value.size.tdiv kSFSBlockSize)) ∧
        toInt32 (toUInt32 (value.size.tdiv kSFSBlockSize)) < kSFSMaxDirectDataBlockPointers
    · rw [dif_pos bound]
      rcases getBlock_cases reached.consistent.hardware (value.blockMap
        ⟨(toInt32 (toUInt32 (value.size.tdiv kSFSBlockSize))).toNat, by omega⟩) with failed | read
      · rw [Code.bind_of_err failed]
        exact reached
      · rw [Code.bind_of_ok read]
        exact finishAppend_present reached core _
    · rw [dif_neg bound]
      trivial
  · rw [if_neg partial_]
    cases search : (List.finRange kSFSMaxDirectDataBlockPointers).find? (value.blockMap · = 0) with
    | none => exact reached
    | some index =>
      simp only
      have vacant : value.blockMap index = 0 := by simpa using List.find?_some search
      rcases allocateBlockLocked_cases reached.consistent.hardware with
        fault | full | ⟨lba, free, found⟩
      · rw [Code.bind_of_fault fault]
        trivial
      · rw [Code.bind_of_err full]
        exact reached
      · rw [Code.bind_of_ok found]
        exact finishAppend_fresh (reached.mark_true free.inside free.volume free.unused)
          ((core_mark lba true ref value).mpr core) vacant free.nonzero _

theorem insertDirectoryEntry_spec (name : PathComponent) (id : Nat)
    (empty : Option SFSDirectoryEntryPointer)
    (reached : Reached origin ref start strict false [] fs) (core : fs.Core ref value)
    (into : ∀ pointer, empty = some pointer → pointer.Into value.blockMap) :
    (insertDirectoryEntry ref name id empty fs).Returned
      (fun _ => Reached origin ref start strict false [])
      (fun _ => Reached origin ref start strict false []) := by
  unfold insertDirectoryEntry
  by_cases long : kSFSMaxFilenameLength < name.length
  · rw [if_pos long]
    exact reached
  rw [if_neg long]
  cases reuse : empty.filter (0 < ·.lba) with
  | none => exact appendDirectoryEntry_spec name id fs reached
  | some pointer =>
    have given : empty = some pointer := (Option.filter_eq_some_iff.mp reuse).1
    simp only
    rcases getBlock_cases reached.consistent.hardware pointer.lba with failed | read
    · rw [Code.bind_of_err failed]
      exact reached
    rw [Code.bind_of_ok read]
    rcases putBlock_cases reached.consistent.hardware _ pointer.lba with failed | written
    · rw [Code.bind_of_err failed]
      exact reached
    rw [Code.bind_of_ok written, updateNode_core ((core_writeBlock _ _ ref value).mpr core)]
    refine (reached.writeInto core (into pointer given) _).setNode ((core_writeBlock _ _ ref value).mpr core) ?_ ?_
      false ?_
    · rfl
    · rfl
    · simp [Inode.isModified, Inode.setUpdated]

end Entries

end Apollo.Serenafs
