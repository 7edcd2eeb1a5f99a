import Apollo.Serenafs.Access
import Apollo.Serenafs.DirectoryTables
import Apollo.Serenafs.Timestamps

/-!
# Stored names

A name of 28 characters fills its field, and `PathComponent_EqualsString` looks for the
NUL that should follow the name before it compares anything.  For a query of 28
characters that is the first byte behind the field.
-/

set_option autoImplicit false

namespace Apollo.Serenafs

open Lib

structure FieldName (name : PathComponent) : Prop where
  nonempty : 1 ≤ name.length
  fits : name.length ≤ kSFSMaxFilenameLength
  characters : ∀ char ∈ name, char ≠ 0
  noSlash : ∀ char ∈ name, char ≠ 0x2f

instance (name : PathComponent) : Decidable (FieldName name) :=
  decidable_of_iff (1 ≤ name.length ∧ name.length ≤ kSFSMaxFilenameLength ∧ 0 ∉ name ∧ 0x2f ∉ name)
    ⟨fun ⟨nonempty, fits, characters, noSlash⟩ => ⟨nonempty, fits, fun _ there same => characters (same ▸ there),
        fun _ there same => noSlash (same ▸ there)⟩,
      fun ⟨nonempty, fits, characters, noSlash⟩ => ⟨nonempty, fits, fun there => characters _ there rfl,
        fun there => noSlash _ there rfl⟩⟩

/-! ## What the comparison reads -/

/-- The characters of `rhs` that the loop of `PathComponent_EqualsString` reads. -/
def readsFrom (rhs : Nat → UInt8) : Nat → PathComponent → List Nat
  | index, [] => [index]
  | index, char :: rest => index :: if rhs index = 0 then [] else if rhs index ≠ char then [] else readsFrom rhs (index + 1) rest

/-- The characters of `rhs` that `PathComponent_EqualsString` reads. -/
def equalsStringReads (name : PathComponent) (rhs : Nat → UInt8) : List Nat :=
  name.length :: if rhs name.length ≠ 0 then [] else readsFrom rhs 0 name

section Comparison
variable {rhs : Nat → UInt8} {name : PathComponent}

theorem readsFrom_le (index : Nat) : ∀ read ∈ readsFrom rhs index name, read ≤ index + name.length := by
  induction name generalizing index with
  | nil =>
    intro read member
    rw [List.mem_singleton.mp member]
    exact Nat.le_refl _
  | cons char rest ih =>
    intro read member
    rw [List.length_cons]
    rcases List.mem_cons.mp member with first | later
    · omega
    · split_ifs at later
      · exact absurd later List.not_mem_nil
      · exact absurd later List.not_mem_nil
      · have bound := ih (index + 1) read later
        omega

/-- The comparison stays among the first `length` characters when the name does. -/
theorem equalsStringReads_lt_iff (name : PathComponent) (rhs : Nat → UInt8) (length : Nat) :
    (∀ read ∈ equalsStringReads name rhs, read < length) ↔ name.length < length := by
  constructor
  · exact fun inside => inside _ List.mem_cons_self
  · intro short read member
    rcases List.mem_cons.mp member with first | later
    · omega
    · split_ifs at later
      · exact absurd later List.not_mem_nil
      · have bound := readsFrom_le 0 read later
        omega

theorem equalsStringFrom_eq (field : List UInt8) (reads : ∀ index, index < field.length → rhs index = field.getD index 0) (index : Nat)
    (short : index + name.length < field.length) (characters : ∀ char ∈ name, char ≠ 0) :
    equalsStringFrom rhs index name = true ↔ name = (field.drop index).takeWhile (· ≠ 0) := by
  induction name generalizing index with
  | nil =>
    unfold equalsStringFrom
    rw [beq_iff_eq, reads index (by omega), List.drop_eq_getElem_cons (by omega), List.getD_eq_getElem _ _ (by omega), List.takeWhile_cons]
    by_cases ends : field[index] = 0
    · simp [ends]
    · simp [ends]
  | cons char rest ih =>
    rw [List.length_cons] at short
    unfold equalsStringFrom
    rw [reads index (by omega), List.drop_eq_getElem_cons (by omega), List.getD_eq_getElem _ _ (by omega), List.takeWhile_cons]
    by_cases ends : field[index] = 0
    · simp [ends]
    · rw [if_neg ends, if_pos (decide_eq_true ends)]
      by_cases same : field[index] = char
      · rw [if_neg (not_not.mpr same), ih (index + 1) (by omega) fun other member => characters other (List.mem_cons_of_mem _ member), same]
        simp
      · rw [if_pos same]
        simp only [Bool.false_eq_true, false_iff]
        exact fun equal => same (List.cons.inj equal).1.symm

theorem equalsString_field (field : List UInt8) (reads : ∀ index, index < field.length → rhs index = field.getD index 0)
    (short : name.length < field.length) (characters : ∀ char ∈ name, char ≠ 0) :
    equalsString name rhs = decide (name = field.takeWhile (· ≠ 0)) := by
  have loop := equalsStringFrom_eq field reads 0 (by omega) characters
  unfold equalsString
  by_cases same : name = field.takeWhile (· ≠ 0)
  · have ends : rhs name.length = 0 := by
      have length := congrArg List.length same
      rw [List.takeWhile_eq_take_findIdx_not, List.length_take, min_eq_left List.findIdx_le_length] at length
      have stops := List.findIdx_getElem (w := length ▸ short)
      rw [reads _ short, List.getD_eq_getElem _ _ short]
      simp only [length]
      simpa using stops
    rw [if_neg (not_not.mpr ends), loop.mpr same, decide_eq_true same]
  · have differs : equalsStringFrom rhs 0 name = false := by
      rw [Bool.eq_false_iff]
      exact fun equal => same (loop.mp equal)
    rw [differs, ite_self, decide_eq_false same]

end Comparison

/-! ## The field after an insertion -/

/-- The bytes of `filename` of the entry at index `slot`. -/
def filenameField (block : Block) (slot : Nat) : List UInt8 := block.slice (sizeofSFSDirectoryEntry * slot + 4) kSFSMaxFilenameLength

section Fields
variable {block : Block} {slot id : Nat} {name : PathComponent}

theorem stringCopyUpTo_self (characters : ∀ char ∈ name, char ≠ 0) : stringCopyUpTo name = name := by
  have copied : name.takeWhile (· ≠ 0) = name := by
    simpa using characters
  unfold stringCopyUpTo
  rw [copied]
  exact if_neg (lt_irrefl _)

theorem length_filenameField (block : Block) (slot : Nat) : (filenameField block slot).length = kSFSMaxFilenameLength := Buffer.length_slice _ _ _

theorem getD_filenameField {index : Nat} (inside : index < kSFSMaxFilenameLength) :
    (filenameField block slot).getD index 0 = entryChar block slot index := Buffer.getD_slice _ _ _ inside

theorem filenameField_blit_id (block : Block) (slot id : Nat) :
    filenameField (block.blit (sizeofSFSDirectoryEntry * slot) (beBytes 4 id)) slot = filenameField block slot := by
  refine ext_getD (by rw [length_filenameField, length_filenameField]) fun index inside => ?_
  rw [getD_filenameField inside, getD_filenameField inside]
  exact Buffer.byte_blit_of_ge _ _ _ (by rw [length_beBytes]; omega)

/-- What is stored at the start of the field replaces as much of it. -/
theorem filenameField_blit_name {data : List UInt8} (inside : slot < slotsPerBlock) (fits : data.length ≤ kSFSMaxFilenameLength) :
    filenameField (block.blit (sizeofSFSDirectoryEntry * slot + 4) data) slot = data ++ (filenameField block slot).drop data.length := by
  have size := length_filenameField block slot
  refine ext_getD (by rw [length_filenameField, List.length_append, List.length_drop, size]; omega) fun index small => ?_
  rw [getD_filenameField small]
  unfold entryChar
  by_cases named : index < data.length
  · rw [List.getD_append _ _ _ _ named, Buffer.byte_blit_inside _ _ _ named]
    simp only [sizeofSFSDirectoryEntry, slotsPerBlock, kSFSMaxFilenameLength] at *
    omega
  · rw [List.getD_append_right _ _ _ _ (by omega), Buffer.byte_blit_of_ge _ _ _ (by omega), List.getD_eq_getElem?_getD, List.getElem?_drop,
      ← List.getD_eq_getElem?_getD, Nat.add_sub_cancel' (by omega), getD_filenameField small]
    rfl

theorem filenameField_reuseEntry (valid : FieldName name) (inside : slot < slotsPerBlock) :
    filenameField (reuseEntry block (sizeofSFSDirectoryEntry * slot) name id) slot =
      name ++ List.replicate (kSFSMaxFilenameLength - name.length) 0 := by
  have fits := valid.fits
  have length : (name ++ List.replicate (kSFSMaxFilenameLength - name.length) (0 : UInt8)).length = kSFSMaxFilenameLength := by
    rw [List.length_append, List.length_replicate]
    omega
  unfold reuseEntry
  rw [stringCopyUpTo_self valid.characters]
  rw [filenameField_blit_id, filenameField_blit_name inside (le_of_eq length), length,
    List.drop_eq_nil_of_le (le_of_eq (length_filenameField block slot)), List.append_nil]

theorem filenameField_appendEntry (valid : FieldName name) (inside : slot < slotsPerBlock) :
    filenameField (appendEntry block (sizeofSFSDirectoryEntry * slot) name id) slot = name ++ (filenameField block slot).drop name.length := by
  unfold appendEntry
  rw [stringCopyUpTo_self valid.characters, filenameField_blit_id, filenameField_blit_name inside valid.fits]

theorem entryId_blit (inside : slot < slotsPerBlock) (bound : id < 4294967296) :
    entryId (block.blit (sizeofSFSDirectoryEntry * slot) (beBytes 4 id)) slot = id := by
  refine (Buffer.be32_blit_same _ ?_).trans (Nat.mod_eq_of_lt bound)
  simp only [sizeofSFSDirectoryEntry, slotsPerBlock] at *
  omega

end Fields

/-! ## Names that were inserted -/

/-- The comparison of the entry with `other` tells whether `other` is the name, reads the field only, and decides whether a
lookup stops at the entry. -/
structure ComparesAs (block : Block) (slot : Nat) (name other : PathComponent) : Prop where
  result : (SFSDirectoryQuery.pathComponent other).matchesEntry block slot = some (decide (other = name))
  field : ∀ read ∈ equalsStringReads other (entryChar block slot), read < kSFSMaxFilenameLength
  scan : ∀ nEntries empty, xHasMatchingDirectoryEntry (.pathComponent other) block (nEntries + 1) slot empty =
    if other = name then some ⟨empty, some slot⟩ else xHasMatchingDirectoryEntry (.pathComponent other) block nEntries (slot + 1) empty

structure HoldsName (block : Block) (slot : Nat) (name : PathComponent) (rest : List UInt8) : Prop where
  inside : slot < slotsPerBlock
  live : 0 < entryId block slot
  field : filenameField block slot = name ++ rest

section Compare
variable {block : Block} {slot : Nat} {name other : PathComponent} {rest : List UInt8}

theorem HoldsName.matchesEntry (holds : HoldsName block slot name rest) (valid : FieldName name) (query : FieldName other)
    (short : other.length < kSFSMaxFilenameLength) :
    (SFSDirectoryQuery.pathComponent other).matchesEntry block slot = some (decide (other = name ++ rest.takeWhile (· ≠ 0))) := by
  have inside := holds.inside
  have size := length_filenameField block slot
  have text := equalsString_field (filenameField block slot) (fun index small => (getD_filenameField (size ▸ small)).symm) (size.symm ▸ short)
    query.characters
  unfold SFSDirectoryQuery.matchesEntry
  dsimp only
  rw [if_neg (by simp only [kSFSBlockSize, sizeofSFSDirectoryEntry, slotsPerBlock, kSFSMaxFilenameLength] at *; omega), text, holds.field,
    List.takeWhile_append_of_pos (by simpa using valid.characters)]

/-- The comparison is right exactly for a query that is shorter than the field, and when nothing follows the name, or nobody asks
for the name or for the text that is there in its place. -/
theorem HoldsName.comparesAs_iff (holds : HoldsName block slot name rest) (valid : FieldName name) (query : FieldName other) :
    ComparesAs block slot name other ↔
      other.length < kSFSMaxFilenameLength ∧ (rest.takeWhile (· ≠ 0) = [] ∨ other ≠ name ∧ other ≠ name ++ rest.takeWhile (· ≠ 0)) := by
  constructor
  · intro compares
    have short := (equalsStringReads_lt_iff other _ _).mp compares.field
    refine ⟨short, ?_⟩
    have result := compares.result
    rw [holds.matchesEntry valid query short, Option.some.injEq, decide_eq_decide] at result
    by_cases nothing : rest.takeWhile (· ≠ 0) = []
    · exact Or.inl nothing
    · have longer : name ≠ name ++ rest.takeWhile (· ≠ 0) := fun same => nothing (List.self_eq_append_right.mp same)
      have unnamed : other ≠ name := fun same => longer (same ▸ result.mpr same)
      exact Or.inr ⟨unnamed, fun same => unnamed (result.mp same)⟩
  · rintro ⟨short, apart⟩
    have result : (SFSDirectoryQuery.pathComponent other).matchesEntry block slot = some (decide (other = name)) := by
      rw [holds.matchesEntry valid query short]
      rcases apart with nothing | ⟨unnamed, untexted⟩
      · rw [nothing, List.append_nil]
      · rw [decide_eq_false unnamed, decide_eq_false untexted]
    refine ⟨result, (equalsStringReads_lt_iff other _ _).mpr short, fun nEntries empty => ?_⟩
    rw [xHasMatchingDirectoryEntry, if_pos holds.live, result]
    by_cases same : other = name
    · rw [decide_eq_true same, if_pos same]
    · rw [decide_eq_false same, if_neg same]

end Compare

/-- Where `SerenaFS_InsertDirectoryEntry` puts the entry when it returns with `after`, and the bytes that follow the name there. -/
inductive Place (fs after : SerenaFS) (dir : InodeRef) (name : PathComponent) :
    Option SFSDirectoryEntryPointer → Nat → Nat → List UInt8 → Prop
  | reuse {pointer : SFSDirectoryEntryPointer} {slot : Nat} (present : 0 < pointer.lba)
      (aligned : pointer.offset = sizeofSFSDirectoryEntry * slot) (inside : slot < slotsPerBlock) :
      Place fs after dir name (some pointer) pointer.lba slot []
  | append {empty : Option SFSDirectoryEntryPointer} {value : Inode} {index : Fin kSFSMaxDirectDataBlockPointers} {slot : Nat}
      (none : empty.filter (0 < ·.lba) = none) (stored : fs.inode dir = some value)
      (size : value.size = kSFSBlockSize * index.val + sizeofSFSDirectoryEntry * slot) (first : 0 < slot) (inside : slot < slotsPerBlock) :
      Place fs after dir name empty (value.blockMap index) slot
        (((filenameField (fs.disk.block (value.blockMap index)) slot).drop name.length).takeWhile (· ≠ 0))
  | fresh {empty : Option SFSDirectoryEntryPointer} {value now : Inode} {index : Fin kSFSMaxDirectDataBlockPointers}
      (none : empty.filter (0 < ·.lba) = none) (stored : fs.inode dir = some value) (full : blockOffset value.size = 0)
      (gap : (List.finRange kSFSMaxDirectDataBlockPointers).find? (value.blockMap · = 0) = some index)
      (held : after.inode dir = some now) : Place fs after dir name empty (now.blockMap index) 0 []

section Insertion
variable {fs after : SerenaFS} {dir : InodeRef} {name other : PathComponent} {id lba slot : Nat} {leftover : List UInt8}
  {empty : Option SFSDirectoryEntryPointer}

theorem getBlock_returned {block : Block} (returned : getBlock lba fs = .ok block after) :
    block = fs.disk.block lba ∧ after = fs.transferred := by
  rcases getBlock_outcome fs lba with failed | ⟨-, read⟩
  · rw [failed] at returned
    cases returned
  · rw [read] at returned
    cases returned
    exact ⟨rfl, rfl⟩

theorem putBlock_returned {block : Block} (returned : putBlock block lba fs = .ok () after) : after = fs.transferred.writeBlock lba block := by
  rcases putBlock_outcome fs block lba with failed | ⟨garbage, -, failed⟩ | ⟨-, written⟩
  · rw [failed] at returned
    cases returned
  · rw [failed] at returned
    cases returned
  · rw [written] at returned
    cases returned
    rfl

theorem updateNode_returned {change : Inode → Inode} (returned : updateNode dir change fs = .ok () after) :
    ∃ value, fs.inode dir = some value ∧ after = fs.setNode dir (some (change value)) := by
  unfold updateNode at returned
  split at returned
  · next value stored =>
      cases returned
      exact ⟨value, stored, rfl⟩
  · cases returned

theorem insertDirectoryEntry_reused {pointer : SFSDirectoryEntryPointer} (fits : name.length ≤ kSFSMaxFilenameLength) (present : 0 < pointer.lba)
    (returned : insertDirectoryEntry dir name id (some pointer) fs = .ok () after) :
    after.disk.block pointer.lba = reuseEntry (fs.disk.block pointer.lba) pointer.offset name id := by
  unfold insertDirectoryEntry at returned
  rw [if_neg (by omega), Option.filter_some, if_pos (decide_eq_true present)] at returned
  obtain ⟨block, read, got, returned⟩ := Code.bind_eq_ok.mp returned
  obtain ⟨_, written, put, returned⟩ := Code.bind_eq_ok.mp returned
  obtain ⟨rfl, rfl⟩ := getBlock_returned got
  obtain rfl := putBlock_returned put
  obtain ⟨value, _, rfl⟩ := updateNode_returned returned
  exact Function.update_self _ _ _

theorem finishAppend_returned {index : Fin kSFSMaxDirectDataBlockPointers} {block : Block}
    (returned : finishAppend dir index lba block fs = .ok () after) :
    after.disk.block lba = block ∧ ∀ now, after.inode dir = some now → now.blockMap index = lba := by
  obtain ⟨_, written, put, returned⟩ := Code.bind_eq_ok.mp returned
  obtain rfl := putBlock_returned put
  obtain ⟨value, _, rfl⟩ := updateNode_returned returned
  refine ⟨Function.update_self _ _ _, fun now held => ?_⟩
  have stored := (Function.update_self _ _ _).symm.trans held
  rw [← Option.some.inj stored]
  exact Function.update_self _ _ _

theorem insertDirectoryEntry_appended (fits : name.length ≤ kSFSMaxFilenameLength) {value : Inode} (none : empty.filter (0 < ·.lba) = none)
    (stored : fs.inode dir = some value) {index : Fin kSFSMaxDirectDataBlockPointers} (first : 0 < slot) (inside : slot < slotsPerBlock)
    (size : value.size = kSFSBlockSize * index.val + sizeofSFSDirectoryEntry * slot)
    (returned : insertDirectoryEntry dir name id empty fs = .ok () after) :
    after.disk.block (value.blockMap index) = appendEntry (fs.disk.block (value.blockMap index)) (sizeofSFSDirectoryEntry * slot) name id := by
  have bound := index.isLt
  have remainder : blockOffset value.size = sizeofSFSDirectoryEntry * slot := by
    unfold blockOffset
    simp only [kSFSBlockSize, sizeofSFSDirectoryEntry, slotsPerBlock] at *
    omega
  have quotient : toInt32 (toUInt32 (value.size.tdiv kSFSBlockSize)) = index.val := by
    rw [size, Int.tdiv_eq_ediv_of_nonneg (by simp only [kSFSBlockSize, sizeofSFSDirectoryEntry]; omega)]
    simp only [kSFSBlockSize, sizeofSFSDirectoryEntry, slotsPerBlock, kSFSMaxDirectDataBlockPointers] at *
    rw [toInt32_toUInt32 (by omega) (by omega)]
    omega
  unfold insertDirectoryEntry at returned
  rw [if_neg (by omega), none] at returned
  dsimp only at returned
  unfold appendDirectoryEntry at returned
  rw [Code.bind_of_ok (node_stored stored)] at returned
  rw [remainder, if_pos (by simp only [sizeofSFSDirectoryEntry]; omega)] at returned
  simp only [quotient] at returned
  rw [dif_pos ⟨Int.natCast_nonneg _, Int.ofNat_lt.mpr bound⟩] at returned
  obtain ⟨block, read, got, returned⟩ := Code.bind_eq_ok.mp returned
  obtain ⟨rfl, rfl⟩ := getBlock_returned got
  exact (finishAppend_returned returned).1

theorem insertDirectoryEntry_fresh (fits : name.length ≤ kSFSMaxFilenameLength) {value now : Inode} (none : empty.filter (0 < ·.lba) = none)
    (stored : fs.inode dir = some value) {index : Fin kSFSMaxDirectDataBlockPointers} (full : blockOffset value.size = 0)
    (gap : (List.finRange kSFSMaxDirectDataBlockPointers).find? (value.blockMap · = 0) = some index) (held : after.inode dir = some now)
    (returned : insertDirectoryEntry dir name id empty fs = .ok () after) :
    after.disk.block (now.blockMap index) = appendEntry Buffer.zero (sizeofSFSDirectoryEntry * 0) name id := by
  unfold insertDirectoryEntry at returned
  rw [if_neg (by omega), none] at returned
  dsimp only at returned
  unfold appendDirectoryEntry at returned
  rw [Code.bind_of_ok (node_stored stored)] at returned
  rw [full, if_neg (lt_irrefl 0), gap] at returned
  obtain ⟨lba, middle, _, returned⟩ := Code.bind_eq_ok.mp returned
  obtain ⟨block, entered⟩ := finishAppend_returned returned
  rw [entered now held]
  exact block

theorem Place.holdsName (place : Place fs after dir name empty lba slot leftover) (valid : FieldName name) (live : 0 < id)
    (bound : id < 4294967296) (returned : insertDirectoryEntry dir name id empty fs = .ok () after) :
    ∃ rest, HoldsName (after.disk.block lba) slot name rest ∧ rest.takeWhile (· ≠ 0) = leftover := by
  have nothing (count : Nat) : (List.replicate count (0 : UInt8)).takeWhile (· ≠ 0) = [] := by
    cases count with
    | zero => rfl
    | succ count => rfl
  cases place with
  | @reuse pointer _ present aligned inside =>
    have block := insertDirectoryEntry_reused valid.fits present returned
    rw [aligned] at block
    refine ⟨List.replicate (kSFSMaxFilenameLength - name.length) 0, ⟨inside, ?_, ?_⟩, nothing _⟩
    · rw [block]
      unfold reuseEntry
      rw [entryId_blit inside bound]
      exact live
    · rw [block]
      exact filenameField_reuseEntry valid inside
  | @append _ value index _ none stored size first inside =>
    have block := insertDirectoryEntry_appended valid.fits none stored first inside size returned
    refine ⟨_, ⟨inside, ?_, ?_⟩, rfl⟩
    · rw [block]
      unfold appendEntry
      rw [entryId_blit inside bound]
      exact live
    · rw [block]
      exact filenameField_appendEntry valid inside
  | @fresh _ value now index none stored full gap held =>
    have block := insertDirectoryEntry_fresh valid.fits none stored full gap held returned
    have inside : 0 < slotsPerBlock := by decide
    refine ⟨List.replicate (kSFSMaxFilenameLength - name.length) 0, ⟨inside, ?_, ?_⟩, nothing _⟩
    · rw [block]
      unfold appendEntry
      rw [entryId_blit inside bound]
      exact live
    · rw [block, filenameField_appendEntry valid inside]
      have zero : filenameField Buffer.zero 0 = List.replicate kSFSMaxFilenameLength 0 := by decide
      rw [zero, List.drop_replicate]

end Insertion

/-- The comparison of an inserted entry with a name is right, and stays in its field, exactly when the name that is asked for has less
than 28 characters and, where bytes of an earlier entry follow the inserted name, is neither that name nor the text that is there now. -/
theorem insertedName_comparesAs_iff {fs after : SerenaFS} {dir : InodeRef} {name other : PathComponent} {id lba slot : Nat}
    {leftover : List UInt8} {empty : Option SFSDirectoryEntryPointer} (valid : FieldName name) (query : FieldName other) (live : 0 < id)
    (bound : id < 4294967296) (place : Place fs after dir name empty lba slot leftover)
    (returned : insertDirectoryEntry dir name id empty fs = .ok () after) :
    ComparesAs (after.disk.block lba) slot name other ↔
      other.length < kSFSMaxFilenameLength ∧ (leftover = [] ∨ other ≠ name ∧ other ≠ name ++ leftover) := by
  obtain ⟨rest, holds, follows⟩ := place.holdsName valid live bound returned
  rw [← follows]
  exact holds.comparesAs_iff valid query

/-- The root directory with an entry "a" behind its first two. -/
theorem shortName_comparesAs :
    ∃ (after : SerenaFS) (lba slot : Nat), Place rootAcquired after 0 [0x61] none lba slot [] ∧
      insertDirectoryEntry 0 [0x61] 5 none rootAcquired = .ok () after ∧ ComparesAs (after.disk.block lba) slot [0x61] [0x61] := by
  have returned := Outcome.eq_ok (show (insertDirectoryEntry 0 [0x61] 5 none rootAcquired).value? = some () by decide +kernel) rootAcquired
  let index : Fin kSFSMaxDirectDataBlockPointers := ⟨0, by decide⟩
  have size : acquiredRoot.size = kSFSBlockSize * index.val + sizeofSFSDirectoryEntry * (2 : Nat) := by decide +kernel
  have clear : ((filenameField (rootAcquired.disk.block (acquiredRoot.blockMap index)) 2).drop [0x61].length).takeWhile (· ≠ 0) = [] := by
    decide +kernel
  have place : Place rootAcquired (((insertDirectoryEntry 0 [0x61] 5 none rootAcquired).state?).getD rootAcquired) 0 [0x61] none
      (acquiredRoot.blockMap index) 2
      (((filenameField (rootAcquired.disk.block (acquiredRoot.blockMap index)) 2).drop [0x61].length).takeWhile (· ≠ 0)) :=
    .append rfl acquiredRoot_stored size (by decide) (by decide)
  rw [clear] at place
  exact ⟨_, _, 2, place, returned,
    (insertedName_comparesAs_iff (by decide +kernel) (by decide +kernel) (by decide +kernel) (by decide +kernel) place returned).mpr ⟨by decide, Or.inl rfl⟩⟩

def longestName : PathComponent := List.replicate 28 0x61

theorem directBlocks_pos : 0 < kSFSMaxDirectDataBlockPointers := by decide

def lastSlot : SFSDirectoryEntryPointer := ⟨acquiredRoot.blockMap ⟨0, directBlocks_pos⟩, 480, 480⟩

/-- The search for a name of 28 characters reads the byte behind the block when the name is in its last slot. -/
theorem longestName_not_comparesAs :
    ∃ after : SerenaFS, FieldName longestName ∧ Place rootAcquired after 0 longestName (some lastSlot) lastSlot.lba 15 [] ∧
      insertDirectoryEntry 0 longestName 5 (some lastSlot) rootAcquired = .ok () after ∧
        (SFSDirectoryQuery.pathComponent longestName).matchesEntry (after.disk.block lastSlot.lba) 15 = none ∧
          ¬ComparesAs (after.disk.block lastSlot.lba) 15 longestName longestName := by
  have returned := Outcome.eq_ok (show (insertDirectoryEntry 0 longestName 5 (some lastSlot) rootAcquired).value? = some () by decide +kernel)
    rootAcquired
  refine ⟨_, by decide +kernel, .reuse (by decide +kernel) rfl (by decide), returned, rfl, fun compares => ?_⟩
  have short := (equalsStringReads_lt_iff longestName _ _).mp compares.field
  exact absurd short (by decide)

end Apollo.Serenafs
