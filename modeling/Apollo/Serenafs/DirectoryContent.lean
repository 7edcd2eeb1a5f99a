import Apollo.Lib.Slots
import Apollo.Serenafs.Operations

/-!
# The content of a directory

A directory is a table of slots in the sense of `Apollo.Lib.Slots`: `Lists` says
that the blocks of a directory hold such a table.  The scanner of SerenaFS is
the scan of that table, except that it stops with a null pointer at a free slot
when its caller does not want to know about free slots.
-/

set_option autoImplicit false

namespace Apollo.Serenafs

open Lib

/-! ## Slots -/

structure DirectoryEntry where
  name : PathComponent
  id : Nat
  deriving DecidableEq

structure ValidName (name : PathComponent) : Prop where
  nonempty : 1 ≤ name.length
  short : name.length ≤ 27
  characters : ∀ char ∈ name, char ≠ 0

instance (name : PathComponent) : Decidable (ValidName name) :=
  decidable_of_iff (1 ≤ name.length ∧ name.length ≤ 27 ∧ name.all (· != 0) = true)
    ⟨fun ⟨nonempty, short, characters⟩ => ⟨nonempty, short, by simpa using characters⟩,
      fun ⟨nonempty, short, characters⟩ => ⟨nonempty, short, by simpa using characters⟩⟩

structure StorableName (name : PathComponent) : Prop where
  short : name.length ≤ kSFSMaxFilenameLength
  characters : ∀ char ∈ name, char ≠ 0

theorem ValidName.storable {name : PathComponent} (valid : ValidName name) : StorableName name :=
  ⟨Nat.le_succ_of_le valid.short, valid.characters⟩

structure DirectoryEntry.Storable (entry : DirectoryEntry) : Prop where
  name : StorableName entry.name
  positive : 0 < entry.id
  bound : entry.id < 4294967296

def slotBytes : Option DirectoryEntry → List UInt8
  | none => List.replicate sizeofSFSDirectoryEntry 0
  | some entry =>
    beBytes 4 entry.id ++
      (entry.name ++ List.replicate (kSFSMaxFilenameLength - entry.name.length) 0)

/-- Slot `pos` of the block holds `slot`. -/
def HoldsSlot (block : Block) (pos : Nat) (slot : Option DirectoryEntry) : Prop :=
  ∀ j, j < sizeofSFSDirectoryEntry →
    block.byte (sizeofSFSDirectoryEntry * pos + j) = (slotBytes slot).getD j 0

section Slots
variable {block : Block} {pos : Nat} {entry : DirectoryEntry}

theorem getD_slotBytes_none (j : Nat) : (slotBytes none).getD j 0 = 0 := getD_replicate_zero _ _

theorem getD_slotBytes_id {j : Nat} (inside : j < 4) :
    (slotBytes (some entry)).getD j 0 = beByte 4 entry.id j := by
  unfold slotBytes
  rw [List.getD_append _ _ _ _ (by exact inside), getD_beBytes 4 _ inside]

theorem getD_slotBytes_name (k : Nat) :
    (slotBytes (some entry)).getD (4 + k) 0 = entry.name.getD k 0 := by
  unfold slotBytes
  rw [List.getD_append_right _ _ _ _ (by rw [length_beBytes]; omega), length_beBytes,
    Nat.add_sub_cancel_left]
  by_cases inside : k < entry.name.length
  · rw [List.getD_append _ _ _ _ inside]
  · rw [List.getD_append_right _ _ _ _ (by omega), getD_replicate_zero,
      List.getD_eq_default _ _ (by omega)]

theorem HoldsSlot.entryId_none (holds : HoldsSlot block pos none) : entryId block pos = 0 := by
  have zero : block.be32 (sizeofSFSDirectoryEntry * pos) = 0 % 4294967296 := by
    refine Buffer.be32_of_bytes fun index inside => ?_
    rw [holds index (by simp only [sizeofSFSDirectoryEntry]; omega), getD_slotBytes_none]
    simp [beByte]
  exact zero

theorem HoldsSlot.entryId_some (holds : HoldsSlot block pos (some entry))
    (small : entry.id < 4294967296) : entryId block pos = entry.id := by
  rw [← Nat.mod_eq_of_lt small]
  refine Buffer.be32_of_bytes fun index inside => ?_
  rw [holds index (by simp only [sizeofSFSDirectoryEntry]; omega), getD_slotBytes_id inside]

theorem HoldsSlot.entryChar (holds : HoldsSlot block pos (some entry)) {k : Nat} (inside : k < 28) :
    entryChar block pos k = entry.name.getD k 0 := by
  unfold Serenafs.entryChar
  rw [Nat.add_assoc, holds (4 + k) (by simp only [sizeofSFSDirectoryEntry]; omega),
    getD_slotBytes_name]

theorem ValidName.getD_eq_zero_iff {name : PathComponent} (valid : ValidName name) (index : Nat) :
    name.getD index 0 = 0 ↔ name.length ≤ index := by
  constructor
  · intro zero
    by_contra inside
    have bound : index < name.length := by omega
    rw [List.getD_eq_getElem _ _ bound] at zero
    exact valid.characters _ (List.getElem_mem bound) zero
  · intro outside
    exact List.getD_eq_default _ _ outside

theorem equalsStringFrom_iff {stored : PathComponent} (valid : ValidName stored) {rhs : Nat → UInt8}
    (reads : ∀ k, k < 28 → rhs k = stored.getD k 0) (name : PathComponent) (index : Nat)
    (short : index + name.length ≤ 27) (characters : ∀ char ∈ name, char ≠ 0) :
    equalsStringFrom rhs index name = true ↔ name = stored.drop index := by
  induction name generalizing index with
  | nil =>
    unfold equalsStringFrom
    rw [beq_iff_eq, reads index (by omega), valid.getD_eq_zero_iff, eq_comm, List.drop_eq_nil_iff]
  | cons char rest ih =>
    rw [List.length_cons] at short
    unfold equalsStringFrom
    rw [reads index (by omega)]
    by_cases outside : stored.length ≤ index
    · rw [if_pos ((valid.getD_eq_zero_iff index).mpr outside), List.drop_eq_nil_of_le outside]
      simp
    · have bound : index < stored.length := by omega
      rw [if_neg (by rw [valid.getD_eq_zero_iff]; exact outside), List.getD_eq_getElem _ _ bound,
        List.drop_eq_getElem_cons bound]
      by_cases same : stored[index] = char
      · rw [if_neg (not_not.mpr same), ih (index + 1) (by omega)
          (fun other member => characters other (List.mem_cons_of_mem _ member)), same]
        simp
      · rw [if_pos same]
        simp only [Bool.false_eq_true, false_iff]
        exact fun equal => same (List.cons.inj equal).1.symm

theorem HoldsSlot.equalsString (holds : HoldsSlot block pos (some entry)) (valid : ValidName entry.name)
    {name : PathComponent} (query : ValidName name) :
    equalsString name (Serenafs.entryChar block pos) = decide (entry.name = name) := by
  have short := query.short
  have reads : ∀ k, k < 28 → Serenafs.entryChar block pos k = entry.name.getD k 0 :=
    fun k inside => holds.entryChar inside
  have from_zero := equalsStringFrom_iff valid reads name 0 (by omega) query.characters
  unfold Serenafs.equalsString
  by_cases same : entry.name = name
  · subst same
    have ends : Serenafs.entryChar block pos entry.name.length = 0 := by
      rw [reads _ (by omega), valid.getD_eq_zero_iff]
    rw [if_neg (not_not.mpr ends), from_zero.mpr rfl]
    simp
  · have differs : equalsStringFrom (Serenafs.entryChar block pos) 0 name = false := by
      rw [Bool.eq_false_iff]
      exact fun equal => same (from_zero.mp equal).symm
    rw [differs]
    simp [same]

theorem HoldsSlot.entryFilename (holds : HoldsSlot block pos (some entry))
    (storable : StorableName entry.name) : entryFilename block pos = entry.name := by
  have short : entry.name.length ≤ 28 := storable.short
  have bytes : block.slice (sizeofSFSDirectoryEntry * pos + 4) kSFSMaxFilenameLength =
      entry.name ++ List.replicate (kSFSMaxFilenameLength - entry.name.length) 0 := by
    apply ext_getD
    · simp only [Buffer.length_slice, List.length_append, List.length_replicate,
        kSFSMaxFilenameLength]
      omega
    intro index inside
    rw [Buffer.length_slice] at inside
    rw [Buffer.getD_slice _ _ _ inside]
    have char := holds.entryChar (k := index) inside
    unfold Serenafs.entryChar at char
    rw [char]
    by_cases named : index < entry.name.length
    · rw [List.getD_append _ _ _ _ named]
    · rw [List.getD_append_right _ _ _ _ (by omega), getD_replicate_zero,
        List.getD_eq_default _ _ (by omega)]
  unfold Serenafs.entryFilename
  rw [bytes, List.takeWhile_append_of_pos (by simpa using storable.characters)]
  simp

end Slots

/-! ## Scanning a block -/

def SFSDirectoryQuery.wants (query : SFSDirectoryQuery) (entry : DirectoryEntry) : Bool :=
  match query with
  | .pathComponent name => entry.name = name
  | .inodeId id => entry.id = id

/-- The scanner can compare the entries of the table with the query: a name that
fills its field has no end. -/
def SFSDirectoryQuery.Comparable (query : SFSDirectoryQuery) (slots : List (Option DirectoryEntry)) :
    Prop :=
  match query with
  | .pathComponent name => ValidName name ∧ ∀ entry, some entry ∈ slots → ValidName entry.name
  | .inodeId _ => True

theorem SFSDirectoryQuery.Comparable.mono {query : SFSDirectoryQuery}
    {slots slots' : List (Option DirectoryEntry)} (comparable : query.Comparable slots)
    (part : ∀ entry, some entry ∈ slots' → some entry ∈ slots) : query.Comparable slots' := by
  cases query with
  | pathComponent name => exact ⟨comparable.1, fun entry member => comparable.2 entry (part entry member)⟩
  | inodeId id => exact comparable

section Blocks
variable {block : Block} {query : SFSDirectoryQuery}

theorem matchesEntry_eq {pos : Nat} {entry : DirectoryEntry} {slots : List (Option DirectoryEntry)}
    (comparable : query.Comparable slots) (member : some entry ∈ slots)
    (holds : HoldsSlot block pos (some entry)) (storable : entry.Storable) (inside : pos < 16) :
    query.matchesEntry block pos = some (query.wants entry) := by
  cases query with
  | pathComponent name =>
    obtain ⟨proper, valid⟩ := comparable
    have short := proper.short
    unfold SFSDirectoryQuery.matchesEntry
    simp only
    rw [if_neg (by simp only [kSFSBlockSize, sizeofSFSDirectoryEntry]; omega),
      holds.equalsString (valid entry member) proper]
    rfl
  | inodeId id =>
    unfold SFSDirectoryQuery.matchesEntry
    rw [holds.entryId_some storable.bound]
    rfl

theorem xHasMatchingDirectoryEntry_eq (slots : List (Option DirectoryEntry))
    (comparable : query.Comparable slots) (pos : Nat) (empty : Option Nat)
    (fits : pos + slots.length ≤ 16)
    (holds : ∀ k (inside : k < slots.length), HoldsSlot block (pos + k) slots[k])
    (storable : ∀ entry, some entry ∈ slots → entry.Storable) :
    xHasMatchingDirectoryEntry query block slots.length pos empty =
      some ⟨(Slots.scan query.wants slots pos empty).empty,
        (Slots.scan query.wants slots pos empty).found⟩ := by
  induction slots generalizing pos empty with
  | nil => rfl
  | cons head rest ih =>
    rw [List.length_cons] at fits
    have first : HoldsSlot block pos head := holds 0 (by simp)
    have others : ∀ k (inside : k < rest.length), HoldsSlot block (pos + 1 + k) rest[k] := by
      intro k inside
      have held := holds (k + 1) (by simpa using inside)
      rw [show pos + 1 + k = pos + (k + 1) by omega]
      simpa using held
    have restStorable : ∀ entry, some entry ∈ rest → entry.Storable :=
      fun entry member => storable entry (List.mem_cons_of_mem _ member)
    have restComparable : query.Comparable rest :=
      comparable.mono fun entry member => List.mem_cons_of_mem _ member
    rw [List.length_cons, xHasMatchingDirectoryEntry]
    cases head with
    | none =>
      rw [first.entryId_none, if_neg (by omega)]
      exact ih restComparable (pos + 1) (some pos) (by omega) others restStorable
    | some entry =>
      have stored := storable entry List.mem_cons_self
      rw [first.entryId_some stored.bound, if_pos stored.positive,
        matchesEntry_eq comparable List.mem_cons_self first stored (by omega), Slots.scan]
      cases hit : query.wants entry with
      | true => rfl
      | false => exact ih restComparable (pos + 1) empty (by omega) others restStorable

end Blocks

/-! ## The table of a directory -/

def slotsPerBlock : Nat := 16

/-- The blocks in `map` hold the table `slots`: there are as many blocks as it
takes, and what is behind the table is cleared. -/
structure Lists (block : Nat → Block) (size : Int) (map : BlockMap)
    (slots : List (Option DirectoryEntry)) : Prop where
  size : size = sizeofSFSDirectoryEntry * slots.length
  room : slots.length ≤ slotsPerBlock * kSFSMaxDirectDataBlockPointers
  blocks : ∀ index, map index ≠ 0 ↔ slotsPerBlock * index.val < slots.length
  holds : ∀ index, map index ≠ 0 → ∀ pos, pos < slotsPerBlock →
    HoldsSlot (block (map index)) pos (slots.getD (slotsPerBlock * index.val + pos) none)
  storable : ∀ entry, some entry ∈ slots → entry.Storable

end Apollo.Serenafs
