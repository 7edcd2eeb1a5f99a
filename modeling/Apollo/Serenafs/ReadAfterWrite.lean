import Apollo.Serenafs.BlockExclusivity

/-!
# Reading what was written

A file is a sequence of bytes: `byteOf` reads it through the block map.  A write
changes these bytes one block after the other, and `Progress` is the invariant
of its loop.
-/

set_option autoImplicit false

namespace Apollo.Serenafs

open Lib

/-! ## The bytes of a file -/

def maxFileSize : Nat := kSFSMaxDirectDataBlockPointers * kSFSBlockSize

def entryAt (map : BlockMap) (position : Nat) : Nat :=
  if bound : position / kSFSBlockSize < kSFSMaxDirectDataBlockPointers then map ⟨position / kSFSBlockSize, bound⟩ else 0

def SerenaFS.byteOf (fs : SerenaFS) (map : BlockMap) (position : Nat) : UInt8 :=
  if bound : position / kSFSBlockSize < kSFSMaxDirectDataBlockPointers then
    (fs.contentBlock map ⟨position / kSFSBlockSize, bound⟩).byte (position % kSFSBlockSize)
  else 0

def SerenaFS.Full (fs : SerenaFS) : Prop :=
  ∀ lba, 0 < lba → lba < fs.volumeBlockCount → isBlockInUse fs.allocationBitmap lba = true

def indexAt (position : Nat) (bound : position < maxFileSize) : Fin kSFSMaxDirectDataBlockPointers :=
  ⟨position / kSFSBlockSize, Nat.div_lt_of_lt_mul (by rw [Nat.mul_comm]; exact bound)⟩

section Bytes
variable {fs after : SerenaFS} {ref : InodeRef} {value : Inode} {strict : Prop} {pending : List Nat} {position start : Nat}
  {map : BlockMap} {index : Fin kSFSMaxDirectDataBlockPointers}

theorem blockIndex_natCast (bound : position < maxFileSize) :
    blockIndex (position : Int) = (indexAt position bound).val := by
  have small : position / kSFSBlockSize < 114 := (indexAt position bound).isLt
  have quotient : (position : Int) / kSFSBlockSize = ((position / kSFSBlockSize : Nat) : Int) := rfl
  unfold blockIndex
  rw [quotient, show (indexAt position bound).val = position / kSFSBlockSize from rfl]
  generalize position / kSFSBlockSize = block at small
  exact toInt32_toUInt32 (by omega) (by omega)

theorem blockOffset_natCast (position : Nat) : blockOffset (position : Int) = position % kSFSBlockSize := rfl

theorem entryAt_of_lt (map : BlockMap) (bound : position < maxFileSize) :
    entryAt map position = map (indexAt position bound) := dif_pos (indexAt position bound).isLt

theorem byteOf_of_lt (fs : SerenaFS) (map : BlockMap) (bound : position < maxFileSize) :
    fs.byteOf map position = (fs.contentBlock map (indexAt position bound)).byte (position % kSFSBlockSize) :=
  dif_pos (indexAt position bound).isLt

theorem lt_of_entryAt (occupied : entryAt map position ≠ 0) : position < maxFileSize := by
  by_contra outside
  refine occupied (dif_neg fun inside => outside ?_)
  have bound := (Nat.div_lt_iff_lt_mul (show 0 < kSFSBlockSize by decide)).mp inside
  exact bound

theorem contentBlock_writeBlock (accounts : fs.Accounts strict pending) (core : fs.Core ref value)
    (occupied : value.blockMap index ≠ 0) (block : Block) (other : Fin kSFSMaxDirectDataBlockPointers) :
    (fs.writeBlock (value.blockMap index) block).contentBlock value.blockMap other =
      if other = index then block else fs.contentBlock value.blockMap other := by
  unfold SerenaFS.contentBlock
  by_cases same : other = index
  · subst same
    rw [if_neg occupied, if_pos rfl]
    exact Function.update_self _ _ _
  · rw [if_neg same]
    by_cases empty : value.blockMap other = 0
    · rw [if_pos empty, if_pos empty]
    · have content : fs.Holds (.content value.inid index) (value.blockMap index) := ⟨value.view, .core core, rfl, occupied⟩
      have content' : fs.Holds (.content value.inid other) (value.blockMap other) := ⟨value.view, .core core, rfl, empty⟩
      have apart : value.blockMap other ≠ value.blockMap index := by
        intro shared
        rw [shared] at content'
        have roles := accounts.sound.exclusive (Or.inl content') (Or.inl content)
        rw [Role.content.injEq] at roles
        exact same roles.2
      rw [if_neg empty, if_neg empty]
      exact Function.update_of_ne apart _ _

theorem contentBlock_mark (accounts : fs.Accounts strict pending) (hardware : fs.Hardware) (core : fs.Core ref value)
    {lba : Nat} (inside : lba / 8 < fs.allocationBitmap.length) (inUse : Bool)
    (other : Fin kSFSMaxDirectDataBlockPointers) :
    (fs.mark lba inUse).contentBlock value.blockMap other = fs.contentBlock value.blockMap other := by
  unfold SerenaFS.contentBlock
  by_cases empty : value.blockMap other = 0
  · rw [if_pos empty, if_pos empty]
  · rw [if_neg empty, if_neg empty]
    refine mark_block_of_ne hardware inside inUse ?_
    rintro ⟨index, bitmap⟩
    have content : fs.Holds (.content value.inid other) (value.blockMap other) := ⟨value.view, .core core, rfl, empty⟩
    have roles := accounts.sound.exclusive (Or.inl content) (Or.inl bitmap)
    simp at roles

theorem Located.byteOf {lba : Nat} (located : Located fs ref value index lba after) (accounts : fs.Accounts strict pending)
    (hardware : fs.Hardware) (core : fs.Core ref value) (occupied : entryAt value.blockMap position ≠ 0) :
    entryAt (value.withEntry index lba).blockMap position = entryAt value.blockMap position ∧
      after.byteOf (value.withEntry index lba).blockMap position = fs.byteOf value.blockMap position := by
  have bound := lt_of_entryAt occupied
  rw [entryAt_of_lt _ bound] at occupied
  rw [entryAt_of_lt _ bound, entryAt_of_lt _ bound, byteOf_of_lt _ _ bound, byteOf_of_lt _ _ bound]
  cases located with
  | present nonzero =>
    have unchanged : value.withEntry index (value.blockMap index) = value := by
      unfold Inode.withEntry
      rw [Function.update_eq_self]
    rw [unchanged]
    exact ⟨rfl, rfl⟩
  | fresh empty vacant =>
    have different : indexAt position bound ≠ index := by
      rintro rfl
      exact occupied empty
    have entry : (value.withEntry index lba).blockMap (indexAt position bound) = value.blockMap (indexAt position bound) :=
      Function.update_of_ne different _ _
    have content := contentBlock_mark accounts hardware core vacant.inside true (indexAt position bound)
    refine ⟨entry, ?_⟩
    rw [← content]
    unfold SerenaFS.contentBlock
    rw [entry]
    rfl

theorem byteOf_writeBlock (accounts : fs.Accounts strict pending) (core : fs.Core ref value) (bound : start < maxFileSize)
    (occupied : value.blockMap (indexAt start bound) ≠ 0) {data : List UInt8}
    (inBlock : start % kSFSBlockSize + data.length ≤ kSFSBlockSize) (position : Nat) :
    (fs.writeBlock (value.blockMap (indexAt start bound))
        ((fs.disk.block (value.blockMap (indexAt start bound))).blit (start % kSFSBlockSize) data)).byteOf
          value.blockMap position =
      if start ≤ position ∧ position < start + data.length then data.getD (position - start) 0
      else fs.byteOf value.blockMap position := by
  have parts := Nat.div_add_mod start kSFSBlockSize
  have parts' := Nat.div_add_mod position kSFSBlockSize
  by_cases inFile : position < maxFileSize
  · rw [byteOf_of_lt _ _ inFile, byteOf_of_lt _ _ inFile, contentBlock_writeBlock accounts core occupied]
    by_cases same : position / kSFSBlockSize = start / kSFSBlockSize
    · have index : indexAt position inFile = indexAt start bound := Fin.ext same
      have old : fs.contentBlock value.blockMap (indexAt start bound) =
          fs.disk.block (value.blockMap (indexAt start bound)) := if_neg occupied
      have inside : position % kSFSBlockSize < 512 := Nat.mod_lt _ (by decide)
      rw [if_pos index, index, old, Buffer.byte_blit _ _ _ inside]
      rw [same] at parts'
      congr 1
      · exact propext (by omega)
      · rw [show position % kSFSBlockSize - start % kSFSBlockSize = position - start by omega]
    · have index : indexAt position inFile ≠ indexAt start bound := fun equal => same (congrArg Fin.val equal)
      have outside : ¬(start ≤ position ∧ position < start + data.length) := by
        rintro ⟨low, high⟩
        have quotient : position / kSFSBlockSize = start / kSFSBlockSize := by
          simp only [kSFSBlockSize] at *
          omega
        exact same quotient
      rw [if_neg index, if_neg outside]
  · have outside : ¬(start ≤ position ∧ position < start + data.length) := by
      have whole : maxFileSize = 58368 := rfl
      simp only [kSFSBlockSize] at *
      omega
    have absent : ¬position / kSFSBlockSize < kSFSMaxDirectDataBlockPointers := by
      intro inside
      exact inFile ((Nat.div_lt_iff_lt_mul (by decide)).mp inside)
    rw [if_neg outside]
    unfold SerenaFS.byteOf
    rw [dif_neg absent, dif_neg absent]

end Bytes

/-! ## Writing -/

structure Progress (origin : SerenaFS) (ref : InodeRef) (start : Inode) (strict : Prop) (offset : Nat) (data : List UInt8)
    (n : Nat) (fs : SerenaFS) (value : Inode) : Prop where
  reached : Reached origin ref start strict (decide (0 < n)) [] fs
  core : fs.Core ref value
  size : value.size = start.size
  backed : ∀ position, offset ≤ position → position < offset + n → entryAt value.blockMap position ≠ 0
  written : ∀ position, offset ≤ position → position < offset + n →
    fs.byteOf value.blockMap position = data.getD (position - offset) 0
  entries : ∀ position, entryAt start.blockMap position ≠ 0 →
    entryAt value.blockMap position = entryAt start.blockMap position
  kept : ∀ position, entryAt start.blockMap position ≠ 0 → ¬(offset ≤ position ∧ position < offset + n) →
    fs.byteOf value.blockMap position = origin.byteOf start.blockMap position

section Writing
variable {origin fs after : SerenaFS} {ref : InodeRef} {start value : Inode} {strict : Prop} {offset n : Nat}
  {data : List UInt8} {dirty : Bool}

theorem findFreeBlock_full {bitmap : List UInt8} {count first : Nat} (search : findFreeBlock bitmap count first = .full)
    {lba : Nat} (low : first ≤ lba) (high : lba < first + count) : isBlockInUse bitmap lba = true := by
  induction count generalizing first with
  | zero => omega
  | succ count ih =>
    unfold findFreeBlock at search
    split_ifs at search with outside used
    rcases Nat.lt_or_eq_of_le low with later | rfl
    · exact ih search later (by omega)
    · exact used

theorem allocateBlockLocked_ENOSPC (hardware : fs.Hardware) (fails : allocateBlockLocked fs = .err .ENOSPC fs) : fs.Full := by
  cases search : findFreeBlock fs.allocationBitmap (fs.volumeBlockCount - 1) 1 with
  | full => exact fun lba positive bound => findFreeBlock_full search positive (by omega)
  | found lba =>
    rw [allocateBlockLocked_found hardware.quiet hardware.geometry search] at fails
    split_ifs at fails
  | outside =>
    unfold allocateBlockLocked at fails
    rw [Code.bind_of_ok (Code.get_apply _), search] at fails
    cases fails

theorem getLogical_ENOSPC {index : Fin kSFSMaxDirectDataBlockPointers} {fba : Int} (hardware : fs.Hardware)
    (core : fs.Core ref value) (bound : fba = index.val)
    (fails : getLogicalBlockAddressForFileBlockAddress ref fba .write fs = .err .ENOSPC fs) : fs.Full := by
  have inBounds : 0 ≤ fba ∧ fba < kSFSMaxDirectDataBlockPointers := by omega
  unfold getLogicalBlockAddressForFileBlockAddress at fails
  rw [dif_pos inBounds, Code.bind_of_ok (node_core core)] at fails
  split_ifs at fails
  · rcases allocateBlockLocked_cases hardware with fault | full | ⟨lba, vacant, found⟩
    · rw [Code.bind_of_fault fault] at fails
      cases fails
    · exact allocateBlockLocked_ENOSPC hardware full
    · rw [Code.bind_of_ok found, Code.bind_of_ok (updateNode_core ((core_mark lba true ref value).mpr core) _)] at fails
      cases fails

theorem fileBlock_ENOSPC {index : Fin kSFSMaxDirectDataBlockPointers} {fba : Int}
    (reached : Reached origin ref start strict dirty [] fs) (core : fs.Core ref value) (bound : fba = index.val)
    (fails : fileBlock ref fba .write fs = .err .ENOSPC fs) : fs.Full := by
  have hardware := reached.consistent.hardware
  unfold fileBlock at fails
  rcases getLogical_write hardware core bound with fault | full | ⟨lba, after, located, found⟩
  · rw [Code.bind_of_fault fault] at fails
    cases fails
  · exact getLogical_ENOSPC hardware core bound full
  · have quiet := (reached.located core located).1.consistent.hardware.quiet
    rw [Code.bind_of_ok found, if_neg (reached.located core located).2.1, Code.bind_apply, getBlock_quiet quiet] at fails
    split_ifs at fails
    cases fails

theorem Progress.begin (consistent : origin.Consistent strict none []) (core : origin.Core ref start) :
    Progress origin ref start strict offset data 0 origin start where
  reached := Reached.start' core consistent
  core := core
  size := rfl
  backed position low high := by omega
  written position low high := by omega
  entries _ _ := rfl
  kept _ _ _ := rfl

theorem Progress.step (progress : Progress origin ref start strict offset data n fs value) (bound : offset + n < maxFileSize)
    {lba count : Nat} (located : Located fs ref value (indexAt (offset + n) bound) lba after)
    (isCount : count = min (kSFSBlockSize - (offset + n) % kSFSBlockSize) (data.drop n).length) (some : 0 < count) :
    Progress origin ref start strict offset data (n + count)
      (after.writeBlock lba ((after.disk.block lba).blit ((offset + n) % kSFSBlockSize) ((data.drop n).take count)))
      (value.withEntry (indexAt (offset + n) bound) lba) := by
  obtain ⟨reached, nonzero, core⟩ := progress.reached.located progress.core located
  have consistent := progress.reached.consistent
  have entry : (value.withEntry (indexAt (offset + n) bound) lba).blockMap (indexAt (offset + n) bound) = lba :=
    Function.update_self _ _ _
  have length : ((data.drop n).take count).length = count := by
    rw [List.length_take]
    omega
  have bytes := byteOf_writeBlock reached.consistent.accounts core bound (by rw [entry]; exact nonzero)
    (show (offset + n) % kSFSBlockSize + ((data.drop n).take count).length ≤ kSFSBlockSize by omega)
  rw [entry, length] at bytes
  have others : ∀ position, entryAt value.blockMap position ≠ 0 → _ := fun position =>
    located.byteOf consistent.accounts consistent.hardware progress.core
  refine ⟨?_, (core_writeBlock ..).mpr core, progress.size, fun position low high => ?_, fun position low high => ?_,
    fun position occupied => ?_, fun position occupied outside => ?_⟩
  · rw [decide_eq_true (show 0 < n + count by omega)]
    exact reached.writeContent core entry _
  · by_cases before : position < offset + n
    · have occupied := progress.backed position low before
      rw [(others position occupied).1]
      exact occupied
    · have same : position / kSFSBlockSize = (offset + n) / kSFSBlockSize := by
        simp only [kSFSBlockSize] at *
        omega
      have inFile : position / kSFSBlockSize < kSFSMaxDirectDataBlockPointers := same ▸ (indexAt (offset + n) bound).isLt
      have index : (⟨position / kSFSBlockSize, inFile⟩ : Fin kSFSMaxDirectDataBlockPointers) = indexAt (offset + n) bound :=
        Fin.ext same
      unfold entryAt
      rw [dif_pos inFile, index, entry]
      exact nonzero
  · rw [bytes position]
    by_cases before : position < offset + n
    · rw [if_neg (by omega), (others position (progress.backed position low before)).2]
      exact progress.written position low before
    · rw [if_pos (by omega), List.getD_eq_getElem?_getD, List.getD_eq_getElem?_getD, List.getElem?_take_of_lt (by omega),
        List.getElem?_drop]
      congr 2
      omega
  · have same := progress.entries position occupied
    rw [(others position (same ▸ occupied)).1]
    exact same
  · have same := progress.entries position occupied
    rw [bytes position, if_neg (by omega), (others position (same ▸ occupied)).2]
    exact progress.kept position occupied (by omega)

/-- The loop ends when the data is written or when no block is left. -/
theorem xWriteLoop_progress (bound : offset + data.length ≤ maxFileSize) (fuel : Nat) (enough : data.length ≤ n + fuel)
    (inside : n ≤ data.length) (progress : Progress origin ref start strict offset data n fs value) :
    (xWriteLoop ref fuel ((offset + n : Nat) : Int) (data.drop n) n fs).Returned
      (fun result after => ∃ m value', result = (((offset + m : Nat) : Int), m) ∧ m ≤ data.length ∧
        Progress origin ref start strict offset data m after value' ∧ (m = data.length ∨ after.Full))
      (fun reason after => reason = .ENOSPC ∧ n = 0 ∧ after = fs ∧ fs.Full ∧ data.drop n ≠ []) := by
  induction fuel generalizing n fs value with
  | zero => exact ⟨n, value, rfl, inside, progress, .inl (by omega)⟩
  | succ fuel ih =>
    unfold xWriteLoop
    by_cases done : data.drop n = []
    · rw [if_pos done]
      exact ⟨n, value, rfl, inside, progress, .inl (Nat.le_antisymm inside (List.drop_eq_nil_iff.mp done))⟩
    rw [if_neg done]
    have left : 0 < (data.drop n).length := List.length_pos_iff.mpr done
    rw [List.length_drop] at left
    have inFile : offset + n < maxFileSize := by omega
    have index := blockIndex_natCast inFile
    rcases fileBlock_write progress.reached progress.core index with fault | full | ⟨lba, after, located, found⟩
    · rw [Code.bind_of_fault (attempt_of_fault fault)]
      trivial
    · have isFull := fileBlock_ENOSPC progress.reached progress.core index full
      rw [Code.bind_of_ok (attempt_of_err full)]
      split_ifs with none
      · exact ⟨rfl, none, rfl, isFull, done⟩
      · exact ⟨n, value, rfl, inside, progress, .inr isFull⟩
    · obtain ⟨reached, nonzero, core⟩ := progress.reached.located progress.core located
      have entry : (value.withEntry (indexAt (offset + n) inFile) lba).blockMap (indexAt (offset + n) inFile) = lba :=
        Function.update_self _ _ _
      have small := reached.consistent.accounts.lt_volume
        (Or.inl (show after.Holds (.content _ (indexAt (offset + n) inFile)) lba from ⟨_, .core core, entry, nonzero⟩))
      have onDisk := lt_of_lt_of_le small reached.consistent.hardware.volume
      have puts (block : Block) : putBlock block lba after = .ok () (after.writeBlock lba block) := by
        rw [putBlock_quiet reached.consistent.hardware.quiet]
        exact if_pos onDisk
      rw [Code.bind_of_ok (attempt_of_ok found)]
      dsimp only
      rw [Code.bind_of_ok (attempt_of_ok (puts _))]
      rw [blockOffset_natCast]
      generalize isCount : min (kSFSBlockSize - (offset + n) % kSFSBlockSize) (data.drop n).length = count
      have room : (offset + n) % kSFSBlockSize < kSFSBlockSize := Nat.mod_lt _ (by decide)
      have length : (data.drop n).length = data.length - n := List.length_drop
      have step := progress.step inFile located isCount.symm (by omega)
      have next : ((offset + n : Nat) : Int) + (count : Nat) = ((offset + (n + count) : Nat) : Int) := by
        push_cast
        ring
      rw [List.drop_drop, next]
      refine (ih (by omega) (by omega) step).mono (fun _ _ held => held) ?_
      omega

end Writing

/-! ## Reading -/

section Reading
variable {fs : SerenaFS} {ref : InodeRef} {value : Inode} {strict : Prop}

theorem slice_contentBlock {position count : Nat} (bound : position < maxFileSize)
    (inBlock : position % kSFSBlockSize + count ≤ kSFSBlockSize) :
    (fs.contentBlock value.blockMap (indexAt position bound)).slice (position % kSFSBlockSize) count =
      (List.range count).map fun i => fs.byteOf value.blockMap (position + i) := by
  refine List.map_congr_left fun i inside => ?_
  rw [List.mem_range] at inside
  have quotient : (position + i) / kSFSBlockSize = position / kSFSBlockSize := by
    simp only [kSFSBlockSize] at *
    omega
  have remainder : (position + i) % kSFSBlockSize = position % kSFSBlockSize + i := by
    simp only [kSFSBlockSize] at *
    omega
  have small : (position + i) / kSFSBlockSize < kSFSMaxDirectDataBlockPointers := quotient ▸ (indexAt position bound).isLt
  have index : (⟨(position + i) / kSFSBlockSize, small⟩ : Fin kSFSMaxDirectDataBlockPointers) = indexAt position bound :=
    Fin.ext quotient
  unfold SerenaFS.byteOf
  rw [dif_pos small, index, remainder]

theorem xReadLoop_bytes (fileSize : Int)
    (reads : ∀ index : Fin kSFSMaxDirectDataBlockPointers, ((kSFSBlockSize * index.val : Nat) : Int) < fileSize →
      fileBlock ref (index.val : Int) .read fs = .ok (value.blockMap index, fs.contentBlock value.blockMap index) fs) (fuel : Nat)
    {position count : Nat} (read : List UInt8) (bound : position + count ≤ maxFileSize)
    (size : ((position + count : Nat) : Int) ≤ fileSize) (enough : count ≤ fuel) :
    xReadLoop ref fileSize fuel (position : Int) count read fs =
      .ok (read ++ (List.range count).map fun i => fs.byteOf value.blockMap (position + i)) fs := by
  induction fuel generalizing position count read with
  | zero =>
    obtain rfl := Nat.le_zero.mp enough
    rw [List.range_zero, List.map_nil, List.append_nil]
    rfl
  | succ fuel ih =>
    unfold xReadLoop
    by_cases none : count = 0
    · subst none
      rw [if_neg (by omega), List.range_zero, List.map_nil, List.append_nil]
      rfl
    · have inFile : position < maxFileSize := by omega
      have starts : kSFSBlockSize * (indexAt position inFile).val ≤ position := Nat.mul_div_le _ _
      rw [if_pos (by omega), blockIndex_natCast inFile, Code.bind_of_ok (attempt_of_ok (reads _ (by omega)))]
      dsimp only
      rw [blockOffset_natCast]
      have room : position % kSFSBlockSize < kSFSBlockSize := Nat.mod_lt _ (by decide)
      generalize isPart : min (kSFSBlockSize - position % kSFSBlockSize) (min (fileSize - position).toNat count) = part
      have next : (position : Int) + (part : Nat) = ((position + part : Nat) : Int) := rfl
      have whole : count = part + (count - part) := by omega
      rw [slice_contentBlock inFile (by omega), next, ih _ (by omega) (by omega) (by omega), List.append_assoc]
      conv_rhs => rw [whole, List.range_add, List.map_append, List.map_map]
      congr 3
      refine List.map_congr_left fun i _ => ?_
      rw [Function.comp_apply, Nat.add_assoc]

theorem map_byteOf_eq_take {map : BlockMap} {offset n : Nat} {data : List UInt8} (inside : n ≤ data.length)
    (written : ∀ position, offset ≤ position → position < offset + n → fs.byteOf map position = data.getD (position - offset) 0) :
    ((List.range n).map fun i => fs.byteOf map (offset + i)) = data.take n := by
  refine List.ext_getElem (by simp [inside]) fun i here there => ?_
  rw [List.length_map, List.length_range] at here
  rw [List.getElem_map, List.getElem_range, List.getElem_take, written (offset + i) (by omega) (by omega),
    Nat.add_sub_cancel_left, List.getD_eq_getElem _ _ (by omega)]

theorem xRead_bytes (consistent : fs.Consistent strict none []) (core : fs.Core ref value) {offset n : Nat}
    (bound : offset + n ≤ maxFileSize) (size : ((offset + n : Nat) : Int) ≤ value.size) :
    ∃ final, xRead ref (offset : Int) n fs = .ok ((List.range n).map fun i => fs.byteOf value.blockMap (offset + i)) final := by
  have reads := xReadLoop_bytes value.size (fun index _ => fileBlock_read consistent core rfl) n [] bound size (Nat.le_refl n)
  unfold xRead
  rw [if_neg (by omega), Code.bind_of_ok (node_core core), Code.bind_of_ok reads]
  split_ifs
  · exact ⟨fs, rfl⟩
  · rw [Code.bind_of_ok (updateNode_core core _)]
    exact ⟨_, rfl⟩

end Reading

/-! ## Reading after writing -/

/-- The inode after `SerenaFS_xWrite` reached an offset. -/
def wroteInode (value : Inode) (reached : Int) : Inode :=
  { value with
    size := if value.size < reached then reached else value.size
    updated := true, statusChanged := true }

/-- What a write of `n` bytes of `data` at `offset` to the node `ref` leaves behind. -/
structure Wrote (fs : SerenaFS) (ref : InodeRef) (value : Inode) (offset : Nat) (data : List UInt8) (n : Nat)
    (after : SerenaFS) : Prop where
  length : n ≤ data.length
  all : n = data.length ∨ after.Full
  read : ∃ final, xRead ref (offset : Int) n after = .ok (data.take n) final
  own : ∃ value', after.Core ref value' ∧
    value'.size = (if n = 0 then value.size else max value.size ((offset + n : Nat) : Int)) ∧
    ∀ position, entryAt value.blockMap position ≠ 0 → ¬(offset ≤ position ∧ position < offset + n) →
      after.byteOf value'.blockMap position = fs.byteOf value.blockMap position
  others : ∀ id view, id ≠ value.inid → fs.IsNode id view →
    after.IsNode id view ∧ ∀ position, after.byteOf view.blockMap position = fs.byteOf view.blockMap position

section Written
variable {fs after : SerenaFS} {ref : InodeRef} {value value' : Inode} {strict : Prop} {offset n : Nat} {data : List UInt8}

theorem Reached.others {dirty : Bool} (reached : Reached fs ref value strict dirty [] after) {id : Nat} {view : NodeView}
    (different : id ≠ value.inid) (isNode : fs.IsNode id view) :
    after.IsNode id view ∧ ∀ position, after.byteOf view.blockMap position = fs.byteOf view.blockMap position := by
  refine ⟨(reached.frame.isNode_iff reached.owns different view).mpr isNode, fun position => ?_⟩
  unfold SerenaFS.byteOf SerenaFS.contentBlock
  split_ifs with inFile empty
  · rfl
  · rw [reached.frame.content id view _ different isNode empty]
  · rfl

theorem Progress.wrote_none (progress : Progress fs ref value strict offset data 0 after value')
    (all : 0 = data.length ∨ after.Full) : Wrote fs ref value offset data 0 after where
  length := Nat.zero_le _
  all := all
  read := by
    unfold xRead
    rw [if_neg (by omega), Code.bind_of_ok (node_core progress.core), List.take_zero]
    exact ⟨after, rfl⟩
  own := ⟨value', progress.core, progress.size, progress.kept⟩
  others _ _ different isNode := progress.reached.others different isNode

theorem Progress.wrote (progress : Progress fs ref value strict offset data n after value') (some : 0 < n)
    (inside : n ≤ data.length) (bound : offset + n ≤ maxFileSize) (all : n = data.length ∨ after.Full) :
    Wrote fs ref value offset data n (after.setNode ref (.some (wroteInode value' ((offset + n : Nat) : Int)))) := by
  have core := core_setNode_self progress.core (wroteInode value' ((offset + n : Nat) : Int))
  have size : (wroteInode value' ((offset + n : Nat) : Int)).size = max value.size ((offset + n : Nat) : Int) := by
    unfold wroteInode
    rw [← progress.size]
    dsimp only
    omega
  have reached := @Reached.setNode _ _ _ _ _ (wroteInode value' ((offset + n : Nat) : Int)) _ _ _ progress.reached progress.core rfl rfl
    false (by simp [wroteInode, Inode.isModified])
  refine ⟨inside, all, ?_, ⟨_, core, ?_, progress.kept⟩, fun _ _ different isNode => reached.others different isNode⟩
  · obtain ⟨final, reads⟩ := xRead_bytes reached.consistent core bound (by omega)
    have taken := @map_byteOf_eq_take after _ _ _ _ inside progress.written
    exact ⟨final, reads.trans (congrArg (fun bytes => Outcome.ok bytes final) taken)⟩
  · rw [size, if_neg (by omega)]

end Written

/-- A write that reports `n` bytes wrote the first `n` bytes of the data and nothing else, and an error means that no
block is left and nothing was written. -/
theorem xWrite_readBack {fs : SerenaFS} {ref : InodeRef} {value : Inode} {strict : Prop}
    (consistent : fs.Consistent strict none []) (core : fs.Core ref value) (offset : Nat) (data : List UInt8)
    (bound : offset + data.length ≤ maxFileSize) :
    (xWrite ref (offset : Int) data fs).Returned (fun n after => Wrote fs ref value offset data n after)
      (fun reason after => reason = .ENOSPC ∧ after = fs ∧ fs.Full ∧ data ≠ []) := by
  have loop := xWriteLoop_progress bound data.length (by omega) (Nat.zero_le _) (@Progress.begin _ _ _ _ _ data consistent core)
  refine Code.returned_bind (loop.mono (fun _ _ held => held) ?_) ?_
  · rintro reason after ⟨isFull, -, same, full, some⟩
    exact ⟨isFull, same, full, some⟩
  · rintro ⟨_, n⟩ after ⟨m, value', isResult, inside, progress, all⟩
    obtain ⟨rfl, rfl⟩ := Prod.mk.inj isResult
    dsimp only
    split_ifs with some
    · rw [Code.bind_of_ok (updateNode_core progress.core _)]
      exact progress.wrote some inside (by omega) all
    · obtain rfl : n = 0 := by omega
      exact progress.wrote_none all

def openedFile : List Operation := [.acquireNodeWithId 2, .createFile [0x61] 0 ⟨0, 0⟩ 0 0x1a4]

/-- Three bytes across the end of a block. -/
theorem openedFile_readBack :
    ∃ fs value after, fs.Core 1 value ∧ value.size = 0 ∧ xWrite 1 510 [1, 2, 3] fs = .ok 3 after ∧
      Wrote fs 1 value 510 [1, 2, 3] 3 after := by
  have performs : (performAll (fun fs operation => operation.orderly fs) openedFile [] (emptyVolume 64)).map
      (fun reached => (reached.2.inodesInUse.contains 1, (reached.2.inode 1).map Inode.size,
        (xWrite 1 510 [1, 2, 3] reached.2).value?)) = some (true, some 0, some 3) := by
    decide +kernel
  obtain ⟨⟨calls, fs⟩, performed, state⟩ := Option.map_eq_some_iff.mp performs
  simp only [Prod.mk.injEq, List.contains_iff_mem, Option.map_eq_some_iff] at state
  obtain ⟨inUse, ⟨value, stored, size⟩, returned⟩ := state
  have consistent := runs_consistent rfl (by decide) emptyVolume_mounts (runs_performAll .nil performed)
  have returned := Outcome.eq_ok returned fs
  have readBack := xWrite_readBack consistent ⟨inUse, stored⟩ 510 [1, 2, 3] (by decide)
  rw [show ((510 : Nat) : Int) = 510 from rfl, returned] at readBack
  exact ⟨fs, value, _, ⟨inUse, stored⟩, size, returned, readBack⟩

def sharedBlock : List Operation :=
  [.acquireNodeWithId 2, .createFile [0x62] 0 ⟨0, 0⟩ 0 0x1a4, .createFile [0x61] 0 ⟨0, 0⟩ 0 0x1a4, .xWrite 2 0 [1],
    .acquireNodeWithId 5, .unlink 2 0 ⟨0, 0⟩, .relinquishNode 2, .xWrite 1 0 [2], .xWrite 1 512 [3]]

/-- A write of no bytes behind the end leaves the size as it is; and where a block is shared, a write to one file changes
another one. -/
theorem writes_not_readBack :
    (∃ fs calls value, Runs OrderlyStep (emptyVolume 64) calls fs ∧ fs.Core 1 value ∧ xWrite 1 1000 [] fs = .ok 0 fs ∧
      value.size ≠ max value.size 1000) ∧
    ∃ fs calls other value after, Runs Performs (emptyVolume 64) calls fs ∧ fs.Core 1 other ∧ fs.Core 2 value ∧
      other.inid ≠ value.inid ∧ xWrite 2 0 [9] fs = .ok 1 after ∧
      after.byteOf other.blockMap 512 ≠ fs.byteOf other.blockMap 512 := by
  constructor
  · have performs : (performAll (fun fs operation => operation.orderly fs) openedFile [] (emptyVolume 64)).map
        (fun reached => (reached.2.inodesInUse.contains 1, (reached.2.inode 1).map Inode.size)) = some (true, some 0) := by
      decide +kernel
    obtain ⟨⟨calls, fs⟩, performed, state⟩ := Option.map_eq_some_iff.mp performs
    simp only [Prod.mk.injEq, List.contains_iff_mem, Option.map_eq_some_iff] at state
    obtain ⟨inUse, value, stored, size⟩ := state
    exact ⟨fs, calls, value, runs_performAll .nil performed, ⟨inUse, stored⟩, rfl, by rw [size]; decide⟩
  · have performs : ((performAll (fun _ _ => true) sharedBlock [] (emptyVolume 64)).bind fun reached =>
        (reached.2.inode 1).bind fun other => (reached.2.inode 2).bind fun value =>
          (xWrite 2 0 [9] reached.2).state?.map fun after =>
            (reached.2.inodesInUse.contains 1 && reached.2.inodesInUse.contains 2, (xWrite 2 0 [9] reached.2).value?,
              other.inid, value.inid, reached.2.byteOf other.blockMap 512, after.byteOf other.blockMap 512)) =
          some (true, some 1, 4, 5, 3, 9) := by
      rw [sharedBlock, performAll_acquired _ _ rfl]
      decide +kernel
    obtain ⟨⟨calls, fs⟩, performed, performs⟩ := Option.bind_eq_some_iff.mp performs
    obtain ⟨other, storedOther, performs⟩ := Option.bind_eq_some_iff.mp performs
    obtain ⟨value, stored, performs⟩ := Option.bind_eq_some_iff.mp performs
    obtain ⟨after, reaches, state⟩ := Option.map_eq_some_iff.mp performs
    simp only [Prod.mk.injEq, Bool.and_eq_true, List.contains_iff_mem] at state
    obtain ⟨⟨otherInUse, inUse⟩, returned, otherId, id, before, changed⟩ := state
    have returned := Outcome.eq_ok returned fs
    rw [reaches, Option.getD_some] at returned
    exact ⟨fs, calls, other, value, after, (runs_performAll .nil performed).mono fun _ _ _ step => step.2,
      ⟨otherInUse, storedOther⟩, ⟨inUse, stored⟩, by rw [otherId, id]; decide, returned, by rw [before, changed]; decide⟩

end Apollo.Serenafs
