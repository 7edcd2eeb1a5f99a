import Mathlib.Data.List.Nodup
import Apollo.Serenafs.DirectoryContent

/-!
# Working on the table of a directory

What the scanner, `SerenaFS_InsertDirectoryEntry` and
`SerenaFS_RemoveDirectoryEntry` do to a directory whose blocks hold a table.
-/

set_option autoImplicit false

namespace Apollo.Serenafs

open Lib

/-! ## Scanning -/

def slotPointer (map : BlockMap) (slot : Nat) : SFSDirectoryEntryPointer :=
  if bound : slot / slotsPerBlock < kSFSMaxDirectDataBlockPointers then
    entryPointer (map ⟨slot / slotsPerBlock, bound⟩) ((kSFSBlockSize * (slot / slotsPerBlock) : Nat) : Int)
      (slot % slotsPerBlock)
  else .null

def lookupOf (map : BlockMap) (slots : List (Option DirectoryEntry)) (scan : SlotScan)
    (empty : SFSDirectoryEntryPointer) : DirectoryLookup where
  empty := (scan.empty.map (slotPointer map)).getD empty
  found := scan.found.bind fun slot => (slots.getD slot none).map fun entry =>
    ⟨slotPointer map slot, entry.id, entry.name⟩

/-- The scanner stops at a null pointer when it passes a free slot that nobody
asked for. -/
def scanOutcome (fs : SerenaFS) (map : BlockMap) (slots : List (Option DirectoryEntry))
    (wantEmpty : Bool) (scan : SlotScan) (empty : SFSDirectoryEntryPointer) :
    Outcome SerenaFS Errno DirectoryLookup :=
  if wantEmpty = false ∧ scan.empty ≠ none then .fault else .ok (lookupOf map slots scan empty) fs

theorem slotPointer_at (map : BlockMap) (index : Fin kSFSMaxDirectDataBlockPointers) {pos : Nat}
    (inside : pos < slotsPerBlock) :
    slotPointer map (slotsPerBlock * index.val + pos) =
      entryPointer (map index) ((kSFSBlockSize * index.val : Nat) : Int) pos := by
  have bound := index.isLt
  have quotient : (slotsPerBlock * index.val + pos) / slotsPerBlock = index.val := by
    simp only [slotsPerBlock] at *
    omega
  have remainder : (slotsPerBlock * index.val + pos) % slotsPerBlock = pos := by
    simp only [slotsPerBlock] at *
    omega
  unfold slotPointer
  simp only [quotient, remainder]
  rw [dif_pos bound]

theorem blockIndex_mul (index : Fin kSFSMaxDirectDataBlockPointers) :
    blockIndex ((kSFSBlockSize * index.val : Nat) : Int) = index.val := by
  have bound := index.isLt
  have quotient : ((kSFSBlockSize * index.val : Nat) : Int) / kSFSBlockSize = index.val := by
    simp only [kSFSBlockSize]
    omega
  unfold blockIndex
  simp only [kSFSMaxDirectDataBlockPointers] at bound
  rw [quotient, toInt32_toUInt32 (by omega) (by omega)]

section Scan
variable {fs : SerenaFS} {ref : InodeRef} {value : Inode} {strict : Prop} {dirty : Option InodeRef}
variable {slots : List (Option DirectoryEntry)} {query : SFSDirectoryQuery}

variable {map : BlockMap} {pos : Nat}

theorem Lists.block_holds {block : Nat → Block} {size : Int}
    (lists : Lists block size map slots) {index : Fin kSFSMaxDirectDataBlockPointers}
    (present : map index ≠ 0) (k : Nat)
    (inside : k < ((slots.drop (slotsPerBlock * index.val)).take slotsPerBlock).length) :
    HoldsSlot (block (map index)) (0 + k) ((slots.drop (slotsPerBlock * index.val)).take slotsPerBlock)[k] := by
  rw [List.length_take, List.length_drop] at inside
  have held := lists.holds index present k (by omega)
  rw [List.getD_eq_getElem _ _ (by omega)] at held
  rw [Nat.zero_add, List.getElem_take, List.getElem_drop]
  exact held

theorem blockScan_eq {block : Nat → Block} {size : Int}
    (lists : Lists block size map slots) (comparable : query.Comparable slots)
    {index : Fin kSFSMaxDirectDataBlockPointers} (present : map index ≠ 0) :
    xHasMatchingDirectoryEntry query (block (map index))
        ((slots.drop (slotsPerBlock * index.val)).take slotsPerBlock).length 0 none =
      some ⟨(Slots.scan query.wants ((slots.drop (slotsPerBlock * index.val)).take slotsPerBlock) 0
          none).empty,
        (Slots.scan query.wants ((slots.drop (slotsPerBlock * index.val)).take slotsPerBlock) 0
          none).found⟩ := by
  have part : ∀ entry, some entry ∈ (slots.drop (slotsPerBlock * index.val)).take slotsPerBlock →
      some entry ∈ slots := fun entry member => List.mem_of_mem_drop (List.mem_of_mem_take member)
  refine xHasMatchingDirectoryEntry_eq _ (comparable.mono part) 0 none ?_ (lists.block_holds present)
    fun entry member => lists.storable entry (part entry member)
  rw [List.length_take]
  simp only [slotsPerBlock]
  omega

theorem getD_block {index : Nat} {slot : Option DirectoryEntry}
    (holds : ((slots.drop (slotsPerBlock * index)).take slotsPerBlock)[pos]? = some slot) :
    pos < slotsPerBlock ∧ slots.getD (slotsPerBlock * index + pos) none = slot := by
  rw [List.getElem?_take] at holds
  split_ifs at holds with low
  rw [List.getElem?_drop] at holds
  rw [List.getD_eq_getElem?_getD, holds, Option.getD_some]
  exact ⟨low, rfl⟩

theorem mem_of_getD_eq_some {slot : Nat} {entry : DirectoryEntry}
    (holds : slots.getD slot none = some entry) : some entry ∈ slots := by
  by_cases inside : slot < slots.length
  · rw [List.getD_eq_getElem _ _ inside] at holds
    rw [← holds]
    exact List.getElem_mem inside
  · rw [List.getD_eq_default _ _ (by omega)] at holds
    simp at holds

theorem Lists.entry_at {block : Nat → Block} {size : Int}
    (lists : Lists block size map slots)
    {index : Fin kSFSMaxDirectDataBlockPointers} (present : map index ≠ 0)
    (low : pos < slotsPerBlock) {entry : DirectoryEntry}
    (same : slots.getD (slotsPerBlock * index.val + pos) none = some entry) :
    entryId (block (map index)) pos = entry.id ∧ entryFilename (block (map index)) pos = entry.name := by
  have held := lists.holds index present pos low
  rw [same] at held
  have storable := lists.storable entry (mem_of_getD_eq_some same)
  exact ⟨held.entryId_some storable.bound, held.entryFilename storable.name⟩

theorem scan_block (index : Nat) :
    Slots.scan query.wants (slots.drop (slotsPerBlock * index)) (slotsPerBlock * index) none =
      match (Slots.scan query.wants ((slots.drop (slotsPerBlock * index)).take slotsPerBlock) 0 none).found with
      | some pos =>
        ⟨(Slots.scan query.wants ((slots.drop (slotsPerBlock * index)).take slotsPerBlock) 0
            none).empty.map (slotsPerBlock * index + ·), some (slotsPerBlock * index + pos)⟩
      | none =>
        Slots.scan query.wants (slots.drop (slotsPerBlock * (index + 1))) (slotsPerBlock * (index + 1))
          ((Slots.scan query.wants ((slots.drop (slotsPerBlock * index)).take slotsPerBlock) 0
            none).empty.map (slotsPerBlock * index + ·)) := by
  have next : (slots.drop (slotsPerBlock * index)).drop slotsPerBlock =
      slots.drop (slotsPerBlock * (index + 1)) := by
    rw [List.drop_drop, Nat.mul_succ]
  have split := List.take_append_drop slotsPerBlock (slots.drop (slotsPerBlock * index))
  rw [next] at split
  generalize piece_eq : (slots.drop (slotsPerBlock * index)).take slotsPerBlock = piece at split ⊢
  have shift := Slots.scan_shift query.wants piece (slotsPerBlock * index) 0 none
  rw [Nat.add_zero, Option.map_none] at shift
  have whole : Slots.scan query.wants piece (slotsPerBlock * index) none =
      ⟨(Slots.scan query.wants piece 0 none).empty.map (slotsPerBlock * index + ·),
        (Slots.scan query.wants piece 0 none).found.map (slotsPerBlock * index + ·)⟩ := by
    rw [← shift, Slots.scan_found query.wants piece 0]
    simp only [Option.map_map, Nat.zero_add, Function.comp_def]
    rw [← Slots.scan_found]
  rw [← split, Slots.scan_append, whole]
  cases (Slots.scan query.wants piece 0 none).found with
  | some pos => rfl
  | none =>
    simp only [Option.map_none]
    -- a block that is not full is the last one
    by_cases full : piece.length = slotsPerBlock
    · rw [full, Nat.mul_succ]
    · have last : slots.drop (slotsPerBlock * (index + 1)) = [] := by
        rw [List.drop_eq_nil_iff]
        rw [← piece_eq, List.length_take, List.length_drop] at full
        rw [Nat.mul_succ]
        omega
      rw [last]
      rfl

/-- The free slot that was met before takes the place of the pointer that was
given. -/
theorem scanOutcome_remembered (map : BlockMap) (table : List (Option DirectoryEntry)) (slot free : Nat)
    (empty : SFSDirectoryEntryPointer) :
    scanOutcome fs map slots true (Slots.scan query.wants table slot (some free)) empty =
      scanOutcome fs map slots true (Slots.scan query.wants table slot none) (slotPointer map free) := by
  unfold scanOutcome lookupOf
  rw [Slots.scan_remembered, Slots.scan_found, Slots.scan_found query.wants table slot none]
  cases (Slots.scan query.wants table slot none).empty with
  | none => simp
  | some later => simp

theorem scanDirectory_end {block : Nat → Block} (lists : Lists block value.size map slots)
    (wantEmpty : Bool) (fuel : Nat) {index : Nat} (beyond : slots.length ≤ slotsPerBlock * index)
    (empty : SFSDirectoryEntryPointer) :
    scanDirectory ref query wantEmpty value.size fuel
      (min ((kSFSBlockSize * index : Nat) : Int) value.size) empty fs = .ok ⟨empty, none⟩ fs := by
  have size := lists.size
  cases fuel with
  | zero => rfl
  | succ fuel =>
    unfold scanDirectory
    rw [if_pos (by simp only [slotsPerBlock, kSFSBlockSize, sizeofSFSDirectoryEntry] at *; omega)]
    rfl

theorem scanDirectory_block (consistent : fs.Consistent strict dirty []) (core : fs.Core ref value)
    (lists : Lists fs.disk.block value.size value.blockMap slots) (wantEmpty : Bool) (fuel : Nat)
    {current : Fin kSFSMaxDirectDataBlockPointers} (inside : slotsPerBlock * current.val < slots.length)
    (empty : SFSDirectoryEntryPointer) :
    scanDirectory ref query wantEmpty value.size (fuel + 1)
        (min ((kSFSBlockSize * current.val : Nat) : Int) value.size) empty fs =
      (match xHasMatchingDirectoryEntry query (fs.disk.block (value.blockMap current))
          ((slots.drop (slotsPerBlock * current.val)).take slotsPerBlock).length 0 none with
      | none => Code.fault
      | some scan => do
          let empty ← storeEmpty wantEmpty (value.blockMap current)
            ((kSFSBlockSize * current.val : Nat) : Int) scan.empty empty
          match scan.found with
          | some slot =>
            return ⟨empty, some ⟨entryPointer (value.blockMap current)
              ((kSFSBlockSize * current.val : Nat) : Int) slot,
                entryId (fs.disk.block (value.blockMap current)) slot,
                entryFilename (fs.disk.block (value.blockMap current)) slot⟩⟩
          | none =>
            scanDirectory ref query wantEmpty value.size fuel
              (min ((kSFSBlockSize * (current.val + 1) : Nat) : Int) value.size) empty :
        FS DirectoryLookup) fs := by
  have size := lists.size
  have present : value.blockMap current ≠ 0 := (lists.blocks current).mpr inside
  have offset : min ((kSFSBlockSize * current.val : Nat) : Int) value.size =
      ((kSFSBlockSize * current.val : Nat) : Int) := by
    simp only [slotsPerBlock, kSFSBlockSize, sizeofSFSDirectoryEntry] at *
    omega
  have available : ¬ min (kSFSBlockSize : Int)
      (value.size - ((kSFSBlockSize * current.val : Nat) : Int)) ≤ 0 := by
    simp only [slotsPerBlock, kSFSBlockSize, sizeofSFSDirectoryEntry] at *
    omega
  have entries : (min (kSFSBlockSize : Int)
      (value.size - ((kSFSBlockSize * current.val : Nat) : Int))).toNat / sizeofSFSDirectoryEntry =
        ((slots.drop (slotsPerBlock * current.val)).take slotsPerBlock).length := by
    rw [List.length_take, List.length_drop]
    simp only [slotsPerBlock, kSFSBlockSize, sizeofSFSDirectoryEntry] at *
    omega
  have next : ((kSFSBlockSize * current.val : Nat) : Int) + min (kSFSBlockSize : Int)
      (value.size - ((kSFSBlockSize * current.val : Nat) : Int)) =
        min ((kSFSBlockSize * (current.val + 1) : Nat) : Int) value.size := by
    simp only [slotsPerBlock, kSFSBlockSize, sizeofSFSDirectoryEntry] at *
    omega
  have content : fs.contentBlock value.blockMap current = fs.disk.block (value.blockMap current) :=
    if_neg present
  conv_lhs => unfold scanDirectory
  rw [offset, if_neg available, Code.bind_of_ok (fileBlock_read consistent core (blockIndex_mul current)),
    content, entries, next]
  all_goals rfl

theorem scanDirectory_lists (consistent : fs.Consistent strict dirty []) (core : fs.Core ref value)
    (lists : Lists fs.disk.block value.size value.blockMap slots)
    (comparable : query.Comparable slots) (wantEmpty : Bool) (fuel index : Nat) (enough : index + fuel = 115)
    (empty : SFSDirectoryEntryPointer) :
    scanDirectory ref query wantEmpty value.size fuel
        (min ((kSFSBlockSize * index : Nat) : Int) value.size) empty fs =
      scanOutcome fs value.blockMap slots wantEmpty
        (Slots.scan query.wants (slots.drop (slotsPerBlock * index)) (slotsPerBlock * index) none) empty := by
  have room := lists.room
  simp only [slotsPerBlock, kSFSMaxDirectDataBlockPointers] at room
  have finished : ∀ {fuel index : Nat} (empty : SFSDirectoryEntryPointer),
      slots.length ≤ slotsPerBlock * index →
      scanDirectory ref query wantEmpty value.size fuel
          (min ((kSFSBlockSize * index : Nat) : Int) value.size) empty fs =
        scanOutcome fs value.blockMap slots wantEmpty
          (Slots.scan query.wants (slots.drop (slotsPerBlock * index)) (slotsPerBlock * index) none)
            empty := by
    intro fuel index empty beyond
    rw [scanDirectory_end lists wantEmpty fuel beyond, List.drop_eq_nil_of_le beyond]
    unfold scanOutcome
    rw [if_neg (by simp [Slots.scan])]
    rfl
  induction fuel generalizing index empty with
  | zero => exact finished empty (by simp only [slotsPerBlock]; omega)
  | succ fuel ih =>
    by_cases beyond : slots.length ≤ slotsPerBlock * index
    · exact finished empty beyond
    rw [Nat.not_le] at beyond
    have bound : index < kSFSMaxDirectDataBlockPointers := by
      simp only [slotsPerBlock, kSFSMaxDirectDataBlockPointers] at *
      omega
    obtain ⟨current, current_eq⟩ : ∃ current : Fin kSFSMaxDirectDataBlockPointers,
        current.val = index := ⟨⟨index, bound⟩, rfl⟩
    subst current_eq
    have present : value.blockMap current ≠ 0 := (lists.blocks current).mpr beyond
    rw [scanDirectory_block consistent core lists wantEmpty fuel beyond,
      blockScan_eq lists comparable present]
    simp only
    have pointer : ∀ {pos : Nat}, pos < slotsPerBlock →
        entryPointer (value.blockMap current) ((kSFSBlockSize * current.val : Nat) : Int) pos =
          slotPointer value.blockMap (slotsPerBlock * current.val + pos) :=
      fun low => (slotPointer_at value.blockMap current low).symm
    have inside : ∀ {pos : Nat} {slot : Option DirectoryEntry},
        ((slots.drop (slotsPerBlock * current.val)).take slotsPerBlock)[pos]? = some slot →
          pos < slotsPerBlock ∧ slots.getD (slotsPerBlock * current.val + pos) none = slot :=
      fun holds => getD_block holds
    rw [scan_block]
    generalize (slots.drop (slotsPerBlock * current.val)).take slotsPerBlock = piece at inside ⊢
    have hit : ∀ {pos : Nat} (empty' : SFSDirectoryEntryPointer) (free : Option Nat),
        (Slots.scan query.wants piece 0 none).found = some pos →
        (⟨empty', some ⟨entryPointer (value.blockMap current)
          ((kSFSBlockSize * current.val : Nat) : Int) pos,
            entryId (fs.disk.block (value.blockMap current)) pos,
            entryFilename (fs.disk.block (value.blockMap current)) pos⟩⟩ : DirectoryLookup) =
          ⟨empty', (lookupOf value.blockMap slots ⟨free, some (slotsPerBlock * current.val + pos)⟩
            empty).found⟩ := by
      intro pos empty' free found
      obtain ⟨-, entry, holds, -⟩ := Slots.scan_found_some query.wants found
      obtain ⟨low, same⟩ := inside holds
      rw [Nat.sub_zero] at low same
      obtain ⟨id, name⟩ := lists.entry_at present low same
      rw [pointer low, id, name]
      simp only [lookupOf, Option.bind_some, same, Option.map_some]
    cases free : (Slots.scan query.wants piece 0 none).empty with
    | none =>
      rw [Code.bind_of_ok (show storeEmpty wantEmpty _ _ none empty fs = .ok empty fs from rfl)]
      cases found : (Slots.scan query.wants piece 0 none).found with
      | none => exact ih (current.val + 1) (by omega) empty
      | some pos =>
        simp only [scanOutcome]
        rw [hit empty none found, if_neg (by simp)]
        rfl
    | some skipped =>
      obtain ⟨-, holds⟩ := Slots.scan_empty_some query.wants free
      obtain ⟨low, -⟩ := inside holds
      rw [Nat.sub_zero] at low
      cases wantEmpty with
      | false =>
        rw [Code.bind_of_fault (show storeEmpty false _ _ (some skipped) empty fs = .fault from rfl)]
        unfold scanOutcome
        cases (Slots.scan query.wants piece 0 none).found with
        | some pos => rw [if_pos (by simp)]
        | none =>
          rw [Slots.scan_remembered]
          simp
      | true =>
        rw [Code.bind_of_ok (show storeEmpty true (value.blockMap current) _ (some skipped) empty fs =
          .ok (slotPointer value.blockMap (slotsPerBlock * current.val + skipped)) fs by
            rw [← pointer low]; rfl)]
        cases found : (Slots.scan query.wants piece 0 none).found with
        | none =>
          simp only [Option.map_some]
          rw [scanOutcome_remembered]
          exact ih (current.val + 1) (by omega) _
        | some pos =>
          simp only [scanOutcome]
          rw [hit _ (some (slotsPerBlock * current.val + skipped)) found, if_neg (by simp)]
          rfl

theorem getDirectoryEntry_lists (consistent : fs.Consistent strict dirty []) (core : fs.Core ref value)
    (lists : Lists fs.disk.block value.size value.blockMap slots)
    (comparable : query.Comparable slots) (wantEmpty : Bool) :
    getDirectoryEntry ref query wantEmpty fs =
      scanOutcome fs value.blockMap slots wantEmpty (Slots.scan query.wants slots 0 none) .null := by
  have size := lists.size
  have whole := scanDirectory_lists consistent core lists comparable wantEmpty 115 0 rfl .null
  have start : min ((kSFSBlockSize * 0 : Nat) : Int) value.size = 0 := by
    simp only [sizeofSFSDirectoryEntry] at size
    omega
  rw [start] at whole
  unfold getDirectoryEntry
  rw [Code.bind_of_ok (node_core core)]
  cases query with
  | inodeId id => exact whole
  | pathComponent name =>
    have nonempty := comparable.1.nonempty
    have short := comparable.1.short
    simp only
    rw [if_neg (by omega), if_neg (by simp only [kSFSMaxFilenameLength]; omega)]
    exact whole

end Scan

/-! ## Changing a slot of a block -/

section Blit
variable {block : Block} {pos other : Nat} {slot : Option DirectoryEntry} {name : PathComponent} {id : Nat}

/-- A write inside one slot leaves the other slots alone. -/
theorem HoldsSlot.blit_apart (holds : HoldsSlot block other slot) (different : other ≠ pos) {start : Nat} {data : List UInt8}
    (low : sizeofSFSDirectoryEntry * pos ≤ start)
    (high : start + data.length ≤ sizeofSFSDirectoryEntry * pos + sizeofSFSDirectoryEntry) :
    HoldsSlot (block.blit start data) other slot := by
  intro j small
  rw [← holds j small]
  apply Buffer.byte_blit_apart
  simp only [sizeofSFSDirectoryEntry] at *
  omega

theorem holdsSlot_zero (pos : Nat) : HoldsSlot Buffer.zero pos none := by
  intro j _
  rw [Buffer.byte_zero, getD_slotBytes_none]

end Blit

/-! ## Changing a slot of the table -/

section Tables
variable {block block' : Nat → Block} {size size' : Int} {map map' : BlockMap}
variable {slots slots' : List (Option DirectoryEntry)}

variable {entry : DirectoryEntry} {slot : Nat}

end Tables

/-! ## Inserting entries -/

section Insert
variable {fs : SerenaFS} {ref : InodeRef} {value : Inode} {strict : Prop}
variable {slots : List (Option DirectoryEntry)} {name : PathComponent} {id : Nat}

theorem SerenaFS.Accounts.not_bitmap (accounts : fs.Accounts strict []) (core : fs.Core ref value)
    {index : Fin kSFSMaxDirectDataBlockPointers} (present : value.blockMap index ≠ 0) :
    ¬ fs.IsBitmapBlock (value.blockMap index) := by
  rintro ⟨window, bitmap⟩
  have content : fs.Holds (.content value.inid index) (value.blockMap index) :=
    ⟨value.view, .core core, rfl, present⟩
  have roles := accounts.sound.exclusive (Or.inl content) (Or.inl bitmap)
  simp at roles

end Insert

/-! ## Removing entries -/

section Remove
variable {fs : SerenaFS} {ref : InodeRef} {value : Inode} {strict : Prop}
variable {slots : List (Option DirectoryEntry)} {id slot : Nat}

end Remove

end Apollo.Serenafs
