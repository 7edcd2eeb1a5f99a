import Apollo.Serenafs.ReadAfterWrite

/-!
# Offsets behind the largest file

`File_seek` accepts every offset that is not negative, and `SerenaFS_xRead` and
`SerenaFS_xWrite` narrow the block number of the offset to an `int` before its range
is checked.  The same transfers with the block number as it is serve as the reference.
-/

set_option autoImplicit false

namespace Apollo.Serenafs

open Lib

/-! ## Channels -/

def kSeekSet : Int := 0

def kSeekCur : Int := 1

def kSeekEnd : Int := 2

/-- `File_seek`, with the old position. -/
def fileSeek (value : Inode) (file : File) (offset whence : Int) : Except Errno (Int × File) :=
  let target : Option Int :=
    if whence = kSeekSet then some offset
    else if whence = kSeekCur then some (toInt64 (toUInt64 (file.offset + offset)))
    else if whence = kSeekEnd then some (toInt64 (toUInt64 (value.size + offset)))
    else Option.none
  match target with
  | .none => .error .EINVAL
  | .some newOffset => if newOffset < 0 then .error .EINVAL else .ok (file.offset, { file with offset := newOffset })

def File.isAppendOnWrite (file : File) : Bool := file.mode &&& kOpenAppend == kOpenAppend

def File.incrementOffset (file : File) (delta : Nat) : File :=
  { file with offset := toInt64 (toUInt64 (file.offset + delta)) }

def read (file : File) (nBytesToRead : Nat) : FS (File × List UInt8) := do
  let bytes ← xRead file.inode file.offset nBytesToRead
  pure (file.incrementOffset bytes.length, bytes)

/-- Where `SerenaFS_write` starts. -/
def File.writeOffset (file : File) (value : Inode) : Int := if file.isAppendOnWrite then value.size else file.offset

def write (file : File) (data : List UInt8) : FS (File × Nat) := do
  let value ← node file.inode
  let written ← xWrite file.inode (file.writeOffset value) data
  pure (file.incrementOffset written, written)

theorem fileSeek_offset {value : Inode} {file moved : File} {offset whence old : Int}
    (seeks : fileSeek value file offset whence = .ok (old, moved)) :
    0 ≤ moved.offset ∧ old = file.offset ∧ moved.inode = file.inode ∧ moved.mode = file.mode := by
  unfold fileSeek at seeks
  dsimp only at seeks
  split at seeks
  · cases seeks
  · split at seeks
    · cases seeks
    · next newOffset _ nonnegative =>
        cases seeks
        exact ⟨not_lt.mp nonnegative, rfl, rfl, rfl⟩

/-! ## The transfers with every block number as it is -/

def trueIndex (offset : Int) : Int := offset / kSFSBlockSize

def xReadLoopAt (index : Int → Int) (ref : InodeRef) (fileSize : Int) : Nat → Int → Nat → List UInt8 → FS (List UInt8)
  | 0, _, _, read => pure read
  | fuel + 1, offset, nBytesToRead, read =>
    if 0 < nBytesToRead ∧ offset < fileSize then do
      let count := min (kSFSBlockSize - blockOffset offset) (min (fileSize - offset).toNat nBytesToRead)
      match ← Code.attempt (fileBlock ref (index offset) .read) with
      | .error reason => if read = [] then Code.throw reason else pure read
      | .ok (_, block) =>
        xReadLoopAt index ref fileSize fuel (offset + count) (nBytesToRead - count)
          (read ++ block.slice (blockOffset offset) count)
    else pure read

def xReadAt (index : Int → Int) (ref : InodeRef) (offset : Int) (nBytesToRead : Nat) : FS (List UInt8) :=
  if offset < 0 then Code.throw .EINVAL
  else do
    let value ← node ref
    let read ← xReadLoopAt index ref value.size nBytesToRead offset nBytesToRead []
    if read = [] then pure read
    else
      updateNode ref fun value => { value with accessed := true }
      pure read

def xWriteLoopAt (index : Int → Int) (ref : InodeRef) : Nat → Int → List UInt8 → Nat → FS (Int × Nat)
  | 0, offset, _, written => pure (offset, written)
  | fuel + 1, offset, data, written =>
    if data = [] then pure (offset, written)
    else do
      let count := min (kSFSBlockSize - blockOffset offset) data.length
      match ← Code.attempt (fileBlock ref (index offset) .write) with
      | .error reason => if written = 0 then Code.throw reason else pure (offset, written)
      | .ok (lba, block) =>
        match ← Code.attempt (putBlock (block.blit (blockOffset offset) (data.take count)) lba) with
        | .error reason => if written = 0 then Code.throw reason else pure (offset, written)
        | .ok _ => xWriteLoopAt index ref fuel (offset + count) (data.drop count) (written + count)

def xWriteAt (index : Int → Int) (ref : InodeRef) (offset : Int) (data : List UInt8) : FS Nat :=
  if offset < 0 then Code.throw .EINVAL
  else do
    let (reached, written) ← xWriteLoopAt index ref data.length offset data 0
    if 0 < written then
      updateNode ref fun value =>
        { value with
          size := if value.size < reached then reached else value.size
          updated := true, statusChanged := true }
      pure written
    else pure written

/-! ## Where the narrowed number is the number -/

/-- The offset is behind the largest file, but its narrowed block number is one of a file. -/
def Wraps (offset : Int) : Prop :=
  kSFSMaxDirectDataBlockPointers ≤ trueIndex offset ∧ trueIndex offset % 4294967296 < kSFSMaxDirectDataBlockPointers

instance (offset : Int) : Decidable (Wraps offset) := inferInstanceAs (Decidable (_ ∧ _))

section Narrowing
variable {offset : Int} {ref : InodeRef} {mode : SFSBlockMode}

theorem blockIndex_inRange_iff :
    (0 ≤ blockIndex offset ∧ blockIndex offset < kSFSMaxDirectDataBlockPointers) ↔
      trueIndex offset % 4294967296 < kSFSMaxDirectDataBlockPointers := by
  unfold blockIndex trueIndex toInt32 toUInt32
  simp only [kSFSBlockSize, kSFSMaxDirectDataBlockPointers]
  split_ifs <;> omega

theorem blockIndex_eq (inside : 0 ≤ blockIndex offset ∧ blockIndex offset < kSFSMaxDirectDataBlockPointers) :
    blockIndex offset = trueIndex offset % 4294967296 := by
  revert inside
  unfold blockIndex trueIndex toInt32 toUInt32
  split_ifs <;> omega

theorem trueIndex_nonneg (nonnegative : 0 ≤ offset) : 0 ≤ trueIndex offset := by
  unfold trueIndex
  simp only [kSFSBlockSize]
  omega

theorem blockIndex_straight (nonnegative : 0 ≤ offset) (straight : ¬Wraps offset)
    (inside : 0 ≤ blockIndex offset ∧ blockIndex offset < kSFSMaxDirectDataBlockPointers) :
    blockIndex offset = trueIndex offset ∧ trueIndex offset < kSFSMaxDirectDataBlockPointers := by
  have low := blockIndex_inRange_iff.mp inside
  have below : trueIndex offset < kSFSMaxDirectDataBlockPointers := lt_of_not_ge fun above => straight ⟨above, low⟩
  refine ⟨(blockIndex_eq inside).trans (Int.emod_eq_of_lt (trueIndex_nonneg nonnegative) ?_), below⟩
  simp only [kSFSMaxDirectDataBlockPointers] at below
  omega

/-- Where the number does not wrap, it is checked as if it were not narrowed. -/
theorem fileBlock_straight (nonnegative : 0 ≤ offset) (straight : ¬Wraps offset) :
    fileBlock ref (blockIndex offset) mode = fileBlock ref (trueIndex offset) mode := by
  by_cases inside : 0 ≤ blockIndex offset ∧ blockIndex offset < kSFSMaxDirectDataBlockPointers
  · rw [(blockIndex_straight nonnegative straight inside).1]
  · have outside : ¬(0 ≤ trueIndex offset ∧ trueIndex offset < kSFSMaxDirectDataBlockPointers) := fun real => by
      refine inside (blockIndex_inRange_iff.mpr ?_)
      rw [Int.emod_eq_of_lt real.1 (real.2.trans (by decide))]
      exact real.2
    funext fs
    rw [fileBlock_outside inside, fileBlock_outside outside]

theorem trueIndex_lt_of_ok {fs after : SerenaFS} {found : Nat × Block} (returned : fileBlock ref (trueIndex offset) mode fs = .ok found after) :
    trueIndex offset < kSFSMaxDirectDataBlockPointers := by
  by_contra above
  rw [fileBlock_outside fun inside => above inside.2] at returned
  cases returned

theorem next_le (nonnegative : 0 ≤ offset) (below : trueIndex offset < kSFSMaxDirectDataBlockPointers) {count : Nat}
    (block : count ≤ kSFSBlockSize - blockOffset offset) : offset + count ≤ maxFileSize := by
  revert below block
  unfold trueIndex blockOffset maxFileSize
  simp only [kSFSBlockSize, kSFSMaxDirectDataBlockPointers]
  omega

/-- No transfer comes to an offset that wraps when it did not start at one. -/
theorem straight_of_le (inside : offset ≤ maxFileSize) : ¬Wraps offset := by
  rintro ⟨above, low⟩
  revert above low inside
  unfold trueIndex maxFileSize
  simp only [kSFSBlockSize, kSFSMaxDirectDataBlockPointers]
  omega

end Narrowing

/-! ## The errors of the block layer -/

/-- The call does not find the file too large, and keeps what `inv` says about the inodes. -/
def Tolerates {α : Type} (inv : (InodeRef → Option Inode) → Prop) (code : FS α) : Prop :=
  Code.Spec (fun fs => inv fs.inode) code (fun _ fs => inv fs.inode) fun reason fs => reason ≠ .EFBIG ∧ inv fs.inode

section Tolerance
variable {inv : (InodeRef → Option Inode) → Prop} {ref : InodeRef}

theorem tolerates_bind {α β : Type} {code : FS α} {next : α → FS β} (first : Tolerates inv code)
    (rest : ∀ value, Tolerates inv (next value)) : Tolerates inv (code >>= next) := Code.spec_bind first rest

theorem tolerates_pure {α : Type} (value : α) : Tolerates inv (pure value) := fun _ kept => kept

theorem tolerates_get : Tolerates inv Code.get := fun _ kept => kept

theorem tolerates_fault {α : Type} : Tolerates inv (Code.fault : FS α) := fun _ _ => trivial

theorem tolerates_onDisk {α : Type} {transfer : Code Disk Errno α}
    (fails : ∀ disk reason after, transfer disk = .err reason after → reason = .EIOError) : Tolerates inv (onDisk transfer) := by
  intro fs kept
  unfold onDisk
  cases call : transfer fs.disk with
  | ok value disk => exact kept
  | err reason disk =>
    obtain rfl := fails _ _ _ call
    exact ⟨by decide, kept⟩
  | fault => trivial

theorem tolerates_getBlock (lba : Nat) : Tolerates inv (getBlock lba) := by
  refine tolerates_onDisk fun disk reason after failed => ?_
  unfold Disk.getBlock at failed
  split at failed
  · cases failed
    rfl
  · dsimp only at failed
    split_ifs at failed
    cases failed
    rfl

theorem tolerates_putBlock (block : Block) (lba : Nat) : Tolerates inv (putBlock block lba) := by
  refine tolerates_onDisk fun disk reason after failed => ?_
  unfold Disk.putBlock at failed
  split at failed
  · cases failed
    rfl
  · dsimp only at failed
    split_ifs at failed
    cases failed
    rfl

theorem tolerates_setBit (lba : Nat) (inUse : Bool) : Tolerates inv (setBit lba inUse) := fun _ kept => kept

theorem tolerates_writeBack (lba : Nat) : Tolerates inv (writeBackAllocationBitmapForLba lba) := by
  refine tolerates_bind tolerates_get fun fs => ?_
  dsimp only
  split_ifs
  · exact tolerates_putBlock _ _
  · exact tolerates_fault

theorem tolerates_allocateBlockLocked : Tolerates inv allocateBlockLocked := by
  refine tolerates_bind tolerates_get fun fs => ?_
  split
  · exact tolerates_fault
  · exact fun _ kept => ⟨by decide, kept⟩
  · next lba _ =>
      refine tolerates_bind (tolerates_setBit lba true) fun _ => tolerates_bind ?_ fun _ => tolerates_pure _
      -- what is passed on is the error of the transfer, not one of the clean-up
      exact Code.spec_onError (tolerates_writeBack lba) fun reason state kept => kept

theorem tolerates_node : Tolerates inv (node ref) := by
  intro fs kept
  unfold node
  cases fs.inode ref with
  | some value => exact kept
  | none => trivial

/-- Only the range check says that a file is too large. -/
theorem tolerates_fileBlock {fba : Int} {mode : SFSBlockMode} (inside : 0 ≤ fba ∧ fba < kSFSMaxDirectDataBlockPointers)
    (entered : ∀ inode value (index : Fin kSFSMaxDirectDataBlockPointers) lba, inode ref = some value → fba = index.val → inv inode →
      inv (Function.update inode ref (some { value with blockMap := Function.update value.blockMap index lba }))) :
    Tolerates inv (fileBlock ref fba mode) := by
  unfold fileBlock getLogicalBlockAddressForFileBlockAddress
  rw [dif_pos inside]
  refine tolerates_bind (tolerates_bind tolerates_node fun value => ?_) fun lba => ?_
  · split_ifs
    · refine tolerates_bind tolerates_allocateBlockLocked fun lba => tolerates_bind ?_ fun _ => tolerates_pure _
      intro fs kept
      unfold updateNode
      cases stored : fs.inode ref with
      | some value => exact entered _ _ _ _ stored (Int.toNat_of_nonneg inside.1).symm kept
      | none => trivial
    · exact tolerates_pure _
  · split_ifs
    · exact tolerates_pure _
    · exact tolerates_bind (tolerates_getBlock lba) fun block => tolerates_pure _

end Tolerance

/-! ## Transfers that start at an offset that does not wrap -/

section Straight
variable {fs : SerenaFS} {ref : InodeRef} {offset : Int}

theorem attempt_congr {α β : Type} {code : FS α} {next next' : Except Errno α → FS β}
    (ok : ∀ value after, code fs = .ok value after → next (.ok value) after = next' (.ok value) after)
    (error : ∀ reason after, next (.error reason) after = next' (.error reason) after) :
    (Code.attempt code >>= next) fs = (Code.attempt code >>= next') fs := by
  cases call : code fs with
  | ok value after =>
    rw [Code.bind_of_ok (attempt_of_ok call), Code.bind_of_ok (attempt_of_ok call)]
    exact ok value after call
  | err reason after =>
    rw [Code.bind_of_ok (attempt_of_err call), Code.bind_of_ok (attempt_of_err call)]
    exact error reason after
  | fault => rw [Code.bind_of_fault (attempt_of_fault call), Code.bind_of_fault (attempt_of_fault call)]

theorem xReadLoop_straight (fileSize : Int) (fuel nBytesToRead : Nat) (read : List UInt8) (nonnegative : 0 ≤ offset)
    (straight : ¬Wraps offset) (fs : SerenaFS) :
    xReadLoop ref fileSize fuel offset nBytesToRead read fs = xReadLoopAt trueIndex ref fileSize fuel offset nBytesToRead read fs := by
  induction fuel generalizing offset nBytesToRead read fs with
  | zero => rfl
  | succ fuel ih =>
    unfold xReadLoop xReadLoopAt
    by_cases more : 0 < nBytesToRead ∧ offset < fileSize
    · rw [if_pos more, if_pos more, fileBlock_straight nonnegative straight]
      refine attempt_congr (fun found after returned => ?_) fun _ _ => rfl
      have inside := next_le nonnegative (trueIndex_lt_of_ok returned)
        (Nat.min_le_left (kSFSBlockSize - blockOffset offset) (min (fileSize - offset).toNat nBytesToRead))
      exact ih _ _ (by omega) (straight_of_le inside) after
    · rw [if_neg more, if_neg more]

theorem xWriteLoop_straight (fuel : Nat) (data : List UInt8) (written : Nat) (nonnegative : 0 ≤ offset) (straight : ¬Wraps offset)
    (fs : SerenaFS) : xWriteLoop ref fuel offset data written fs = xWriteLoopAt trueIndex ref fuel offset data written fs := by
  induction fuel generalizing offset data written fs with
  | zero => rfl
  | succ fuel ih =>
    unfold xWriteLoop xWriteLoopAt
    by_cases done : data = []
    · rw [if_pos done, if_pos done]
    · rw [if_neg done, if_neg done, fileBlock_straight nonnegative straight]
      refine attempt_congr (fun found after returned => ?_) fun _ _ => rfl
      have inside := next_le nonnegative (trueIndex_lt_of_ok returned) (Nat.min_le_left (kSFSBlockSize - blockOffset offset) data.length)
      exact attempt_congr (fun _ final _ => ih _ _ (by omega) (straight_of_le inside) final) fun _ _ => rfl

theorem xRead_straight (nBytesToRead : Nat) (nonnegative : 0 ≤ offset) (straight : ¬Wraps offset) {value : Inode} (stored : fs.inode ref = some value) :
    xRead ref offset nBytesToRead fs = xReadAt trueIndex ref offset nBytesToRead fs := by
  unfold xRead xReadAt
  rw [if_neg (not_lt.mpr nonnegative), if_neg (not_lt.mpr nonnegative), Code.bind_of_ok (node_stored stored), Code.bind_of_ok (node_stored stored),
    Code.bind_apply, Code.bind_apply, xReadLoop_straight value.size nBytesToRead nBytesToRead [] nonnegative straight]

theorem xWrite_straight (ref : InodeRef) (data : List UInt8) (nonnegative : 0 ≤ offset) (straight : ¬Wraps offset) (fs : SerenaFS) :
    xWrite ref offset data fs = xWriteAt trueIndex ref offset data fs := by
  unfold xWrite xWriteAt
  rw [if_neg (not_lt.mpr nonnegative), if_neg (not_lt.mpr nonnegative), Code.bind_apply, Code.bind_apply,
    xWriteLoop_straight data.length data 0 nonnegative straight]

end Straight

/-! ## What the reference does -/

section Reference
variable {fs after : SerenaFS} {ref : InodeRef} {value : Inode} {offset : Int}

variable {data : List UInt8} {nBytesToRead lba : Nat}

theorem xWriteAt_above (some : data ≠ []) (nonnegative : 0 ≤ offset) (above : kSFSMaxDirectDataBlockPointers ≤ trueIndex offset) :
    xWriteAt trueIndex ref offset data fs = .err .EFBIG fs := by
  unfold xWriteAt
  rw [if_neg (not_lt.mpr nonnegative)]
  obtain ⟨first, rest, rfl⟩ := List.exists_cons_of_ne_nil some
  refine Code.bind_of_err ?_ _
  rw [List.length_cons]
  unfold xWriteLoopAt
  rw [if_neg some, Code.bind_of_ok (attempt_of_err (fileBlock_outside (fun inside => not_lt.mpr above inside.2) _))]
  rfl

theorem xReadAt_above (some : 0 < nBytesToRead) (nonnegative : 0 ≤ offset) (above : kSFSMaxDirectDataBlockPointers ≤ trueIndex offset)
    (stored : fs.inode ref = .some value) (inside : offset < value.size) : xReadAt trueIndex ref offset nBytesToRead fs = .err .EFBIG fs := by
  unfold xReadAt
  rw [if_neg (not_lt.mpr nonnegative), Code.bind_of_ok (node_stored stored)]
  obtain ⟨fuel, rfl⟩ := Nat.exists_eq_add_of_lt some
  refine Code.bind_of_err ?_ _
  rw [Nat.zero_add]
  unfold xReadLoopAt
  rw [if_pos ⟨Nat.succ_pos fuel, inside⟩, Code.bind_of_ok (attempt_of_err (fileBlock_outside (fun inside => not_lt.mpr above inside.2) _))]
  rfl

theorem xWriteLoopAt_ends (fuel : Nat) {written : Nat} {result : Int × Nat} (nonnegative : 0 ≤ offset)
    (inside : 0 < written → offset ≤ maxFileSize) (returned : xWriteLoopAt trueIndex ref fuel offset data written fs = .ok result after) :
    written ≤ result.2 ∧ result.1 = offset + (result.2 - written) ∧ (0 < result.2 → result.1 ≤ maxFileSize) ∧
      (0 < fuel → data ≠ [] → 0 < result.2) := by
  induction fuel generalizing offset data written fs with
  | zero =>
    cases returned
    exact ⟨le_refl _, by omega, inside, fun positive => absurd positive (lt_irrefl 0)⟩
  | succ fuel ih =>
    unfold xWriteLoopAt at returned
    by_cases done : data = []
    · rw [if_pos done] at returned
      cases returned
      exact ⟨le_refl _, by omega, inside, fun _ some => absurd done some⟩
    rw [if_neg done] at returned
    have stopped {reason : Errno} {state : SerenaFS}
        (ended : (if written = 0 then Code.throw reason else pure (offset, written) : FS (Int × Nat)) state = .ok result after) :
        written ≤ result.2 ∧ result.1 = offset + (result.2 - written) ∧ (0 < result.2 → result.1 ≤ maxFileSize) ∧
          (0 < fuel + 1 → data ≠ [] → 0 < result.2) := by
      by_cases none : written = 0
      · rw [if_pos none] at ended
        cases ended
      · rw [if_neg none] at ended
        cases ended
        exact ⟨le_refl _, by omega, inside, fun _ _ => Nat.pos_of_ne_zero none⟩
    obtain ⟨found, middle, attempted, returned⟩ := Code.bind_eq_ok.mp returned
    cases call : fileBlock ref (trueIndex offset) .write fs with
    | fault =>
      rw [attempt_of_fault call] at attempted
      cases attempted
    | err reason state =>
      rw [attempt_of_err call] at attempted
      cases attempted
      exact stopped returned
    | ok place state =>
      rw [attempt_of_ok call] at attempted
      cases attempted
      obtain ⟨put, final, attempted, returned⟩ := Code.bind_eq_ok.mp returned
      cases put with
      | error reason => exact stopped returned
      | ok _ =>
        have room : 0 < kSFSBlockSize - blockOffset offset := by
          unfold blockOffset
          simp only [kSFSBlockSize]
          omega
        have some : 0 < min (kSFSBlockSize - blockOffset offset) data.length := lt_min room (List.length_pos_iff.mpr done)
        have next := next_le nonnegative (trueIndex_lt_of_ok call) (Nat.min_le_left (kSFSBlockSize - blockOffset offset) data.length)
        obtain ⟨grows, reached, ends, _⟩ := ih (by omega) (fun _ => next) returned
        exact ⟨by omega, by omega, ends, fun _ _ => by omega⟩

theorem xReadLoopAt_ends (fileSize : Int) (fuel : Nat) {read bytes : List UInt8} (nonnegative : 0 ≤ offset)
    (inside : read ≠ [] → offset ≤ maxFileSize) (returned : xReadLoopAt trueIndex ref fileSize fuel offset nBytesToRead read fs = .ok bytes after) :
    read.length ≤ bytes.length ∧ (bytes ≠ [] → offset + (bytes.length - read.length) ≤ maxFileSize) := by
  induction fuel generalizing offset nBytesToRead read fs with
  | zero =>
    cases returned
    exact ⟨le_refl _, fun some => by have := inside some; omega⟩
  | succ fuel ih =>
    unfold xReadLoopAt at returned
    by_cases more : 0 < nBytesToRead ∧ offset < fileSize
    · rw [if_pos more] at returned
      obtain ⟨found, middle, attempted, returned⟩ := Code.bind_eq_ok.mp returned
      cases call : fileBlock ref (trueIndex offset) .read fs with
      | fault =>
        rw [attempt_of_fault call] at attempted
        cases attempted
      | err reason state =>
        rw [attempt_of_err call] at attempted
        cases attempted
        dsimp only at returned
        by_cases none : read = []
        · rw [if_pos none] at returned
          cases returned
        · rw [if_neg none] at returned
          cases returned
          exact ⟨le_refl _, fun some => by have := inside some; omega⟩
      | ok place state =>
        rw [attempt_of_ok call] at attempted
        cases attempted
        have next := next_le nonnegative (trueIndex_lt_of_ok call)
          (Nat.min_le_left (kSFSBlockSize - blockOffset offset) (min (fileSize - offset).toNat nBytesToRead))
        obtain ⟨grows, ends⟩ := ih (by omega) (fun _ => next) returned
        rw [List.length_append, Buffer.length_slice] at grows ends
        exact ⟨by omega, fun some => by have := ends some; omega⟩
    · rw [if_neg more] at returned
      cases returned
      exact ⟨le_refl _, fun some => by have := inside some; omega⟩

def Covers (offset : Int) (length : Nat) (index : Fin kSFSMaxDirectDataBlockPointers) : Prop :=
  ∃ position, offset ≤ position ∧ position < offset + length ∧ trueIndex position = index.val

def HasEntry (ref : InodeRef) (index : Fin kSFSMaxDirectDataBlockPointers) (lba : Nat) (inode : InodeRef → Option Inode) : Prop :=
  ∃ value, inode ref = some value ∧ value.blockMap index = lba

theorem xWriteLoopAt_keeps {index : Fin kSFSMaxDirectDataBlockPointers} (fuel : Nat) (written : Nat)
    (nonnegative : 0 ≤ offset) (other : ¬Covers offset data.length index) :
    Code.Keeps (fun fs => HasEntry ref index lba fs.inode) (xWriteLoopAt trueIndex ref fuel offset data written) := by
  induction fuel generalizing offset data written with
  | zero => exact Code.keeps_pure _
  | succ fuel ih =>
    refine Code.keeps_ite (fun _ => Code.keeps_pure _) fun done => ?_
    have stopped (reason : Errno) : Code.Keeps (fun fs : SerenaFS => HasEntry ref index lba fs.inode)
        (if written = 0 then Code.throw reason else pure (offset, written) : FS (Int × Nat)) :=
      Code.keeps_ite (fun _ => Code.keeps_throw reason) fun _ => Code.keeps_pure _
    have some := List.length_pos_iff.mpr done
    have different : trueIndex offset ≠ index.val := fun same => other ⟨offset, le_refl _, by omega, same⟩
    refine Code.keeps_bind (Code.keeps_attempt ?_) fun found => ?_
    · by_cases inside : 0 ≤ trueIndex offset ∧ trueIndex offset < kSFSMaxDirectDataBlockPointers
      · refine Code.spec_weaken (tolerates_fileBlock inside ?_) (fun _ kept => kept) (fun _ _ kept => kept) fun _ _ failed => failed.2
        rintro inode value entered block stored same ⟨held, stored', entry⟩
        rw [stored] at stored'
        cases stored'
        refine ⟨_, Function.update_self _ _ _, ?_⟩
        exact (Function.update_of_ne (fun equal => different (by rw [same, equal])) _ _).trans entry
      · intro fs kept
        rw [fileBlock_outside inside]
        exact kept
    · cases found with
      | error reason => exact stopped reason
      | ok place =>
        refine Code.keeps_bind (Code.keeps_attempt ?_) fun put => ?_
        · exact Code.spec_weaken (tolerates_putBlock _ _) (fun _ kept => kept) (fun _ _ kept => kept) fun _ _ failed => failed.2
        · cases put with
          | error reason => exact stopped reason
          | ok _ =>
            refine ih _ (by omega) fun ⟨position, above, below, same⟩ => other ⟨position, by omega, ?_, same⟩
            rw [List.length_drop] at below
            omega

theorem xWriteAt_keeps {index : Fin kSFSMaxDirectDataBlockPointers} (nonnegative : 0 ≤ offset)
    (other : ¬Covers offset data.length index) :
    Code.Keeps (fun fs => HasEntry ref index lba fs.inode) (xWriteAt trueIndex ref offset data) := by
  refine Code.keeps_ite (fun _ => Code.keeps_throw _) fun _ => Code.keeps_bind (xWriteLoopAt_keeps _ 0 nonnegative other) fun result => ?_
  refine Code.keeps_ite (fun _ => Code.keeps_bind ?_ fun _ => Code.keeps_pure _) fun _ => Code.keeps_pure _
  rintro fs ⟨held, stored, entry⟩
  rw [updateNode_stored stored]
  exact ⟨_, Function.update_self _ _ _, entry⟩

end Reference

/-! ## Transfers that start at an offset that wraps -/

section Wrapping
variable {fs after : SerenaFS} {ref : InodeRef} {value : Inode} {offset : Int}

/-- The call has an outcome that was not looked at, or an error other than the one for too large a file. -/
theorem tolerates_attempt {α β : Type} {code : FS α} {next : Except Errno α → FS β} (first : Prop)
    (tolerates : first → Tolerates (fun _ => True) code) (ok : ∀ value, Tolerates (fun _ => True) (next (.ok value)))
    (error : ∀ reason, (first → reason ≠ .EFBIG) → Tolerates (fun _ => True) (next (.error reason))) :
    Tolerates (fun _ => True) (Code.attempt code >>= next) := by
  have attempts : Code.Spec (fun _ => True) (Code.attempt code)
      (fun result _ => ∀ reason, result = .error reason → first → reason ≠ .EFBIG) fun _ _ => False := by
    refine Code.spec_attempt ?_
    intro fs _
    cases call : code fs with
    | ok value after => exact fun reason equal => by cases equal
    | err reason after =>
      intro failed equal holds
      cases equal
      have tolerated := tolerates holds fs trivial
      rw [call] at tolerated
      exact tolerated.1
    | fault => trivial
  refine Code.spec_bind (Code.spec_weaken attempts (fun _ _ => trivial) (fun _ _ failed => failed) fun _ _ failed => failed.elim) ?_
  intro result fs failed
  cases result with
  | ok value => exact ok value fs trivial
  | error reason => exact error reason (failed reason rfl) fs trivial

theorem tolerates_stop {α : Type} {first : Prop} [Decidable first] {reason : Errno} (different : first → reason ≠ .EFBIG) (result : α) :
    Tolerates (fun _ => True) (if first then Code.throw reason else pure result) := by
  split_ifs with none
  · exact fun _ _ => ⟨different none, trivial⟩
  · exact fun _ _ => trivial

theorem tolerates_xWriteLoop (fuel : Nat) (data : List UInt8) (written : Nat)
    (inside : written = 0 → 0 ≤ blockIndex offset ∧ blockIndex offset < kSFSMaxDirectDataBlockPointers) :
    Tolerates (fun _ => True) (xWriteLoop ref fuel offset data written) := by
  induction fuel generalizing offset data written with
  | zero => exact fun _ _ => trivial
  | succ fuel ih =>
    unfold xWriteLoop
    by_cases done : data = []
    · rw [if_pos done]
      exact fun _ _ => trivial
    · rw [if_neg done]
      refine tolerates_attempt (written = 0) (fun none => tolerates_fileBlock (inside none) fun _ _ _ _ _ _ _ => trivial)
        (fun place => ?_) fun reason different => tolerates_stop different _
      refine tolerates_attempt (written = 0) (fun _ => tolerates_putBlock _ _) (fun _ => ?_) fun reason different => tolerates_stop different _
      refine ih _ _ fun none => absurd none ?_
      have room : 0 < kSFSBlockSize - blockOffset offset := by
        unfold blockOffset
        simp only [kSFSBlockSize]
        omega
      have some : 0 < min (kSFSBlockSize - blockOffset offset) data.length := lt_min room (List.length_pos_iff.mpr done)
      omega

theorem tolerates_xReadLoop (fileSize : Int) (fuel nBytesToRead : Nat) (read : List UInt8)
    (inside : read = [] → 0 ≤ blockIndex offset ∧ blockIndex offset < kSFSMaxDirectDataBlockPointers) :
    Tolerates (fun _ => True) (xReadLoop ref fileSize fuel offset nBytesToRead read) := by
  induction fuel generalizing offset nBytesToRead read with
  | zero => exact fun _ _ => trivial
  | succ fuel ih =>
    unfold xReadLoop
    by_cases more : 0 < nBytesToRead ∧ offset < fileSize
    · rw [if_pos more]
      refine tolerates_attempt (read = []) (fun none => tolerates_fileBlock (inside none) fun _ _ _ _ _ _ _ => trivial)
        (fun place => ?_) fun reason different => tolerates_stop different _
      refine ih _ _ fun none => absurd (congrArg List.length none) ?_
      have room : blockOffset offset < kSFSBlockSize := by
        unfold blockOffset
        simp only [kSFSBlockSize]
        omega
      rw [List.length_append, Buffer.length_slice, List.length_nil]
      omega
    · rw [if_neg more]
      exact fun _ _ => trivial

theorem tolerates_updateNode {change : Inode → Inode} : Tolerates (fun _ => True) (updateNode ref change) := by
  intro fs _
  unfold updateNode
  cases fs.inode ref <;> trivial

theorem xWrite_wraps (data : List UInt8) (wraps : Wraps offset) : xWrite ref offset data fs ≠ .err .EFBIG after := by
  have tolerates : Tolerates (fun _ => True) (xWrite ref offset data) := by
    unfold xWrite
    split_ifs
    · exact fun _ _ => ⟨by decide, trivial⟩
    · refine tolerates_bind (tolerates_xWriteLoop _ _ 0 fun _ => blockIndex_inRange_iff.mpr wraps.2) ?_
      rintro ⟨reached, written⟩
      dsimp only
      split_ifs
      · exact tolerates_bind tolerates_updateNode fun _ _ _ => trivial
      · exact fun _ _ => trivial
  intro failed
  have tolerated := tolerates fs trivial
  rw [failed] at tolerated
  exact tolerated.1 rfl

theorem xRead_wraps (nBytesToRead : Nat) (wraps : Wraps offset) : xRead ref offset nBytesToRead fs ≠ .err .EFBIG after := by
  have tolerates : Tolerates (fun _ => True) (xRead ref offset nBytesToRead) := by
    unfold xRead
    split_ifs
    · exact fun _ _ => ⟨by decide, trivial⟩
    · refine tolerates_bind tolerates_node fun value =>
        tolerates_bind (tolerates_xReadLoop _ _ _ [] fun _ => blockIndex_inRange_iff.mpr wraps.2) fun bytes => ?_
      split_ifs
      · exact fun _ _ => trivial
      · exact tolerates_bind tolerates_updateNode fun _ _ _ => trivial
  intro failed
  have tolerated := tolerates fs trivial
  rw [failed] at tolerated
  exact tolerated.1 rfl

end Wrapping

/-! ## Transfers through a channel -/

inductive Transfer where
  | read (nBytesToRead : Nat)
  | write (data : List UInt8)

namespace Transfer

def Nonempty : Transfer → Prop
  | read nBytesToRead => 0 < nBytesToRead
  | write data => data ≠ []

def start (file : File) (value : Inode) : Transfer → Int
  | read _ => file.offset
  | write _ => file.writeOffset value

def Reaches (file : File) (value : Inode) : Transfer → Prop
  | read _ => file.offset < value.size
  | write _ => True

end Transfer

structure WritesInside (fs : SerenaFS) (file : File) (value : Inode) (data : List UInt8) : Prop where
  blocks : write file data fs =
    (xWriteAt trueIndex file.inode (file.writeOffset value) data >>= fun written => pure (file.incrementOffset written, written)) fs
  rejected : kSFSMaxDirectDataBlockPointers ≤ trueIndex (file.writeOffset value) → write file data fs = .err .EFBIG fs
  short : ∀ {moved written after}, write file data fs = .ok (moved, written) after →
    0 < written ∧ file.writeOffset value + written ≤ maxFileSize
  kept : ∀ {after} (index : Fin kSFSMaxDirectDataBlockPointers), ¬Covers (file.writeOffset value) data.length index →
    (write file data fs).state? = some after →
      ∃ now, after.inode file.inode = some now ∧ now.blockMap index = value.blockMap index

structure ReadsInside (fs : SerenaFS) (file : File) (value : Inode) (nBytesToRead : Nat) : Prop where
  blocks : read file nBytesToRead fs =
    (xReadAt trueIndex file.inode file.offset nBytesToRead >>= fun bytes => pure (file.incrementOffset bytes.length, bytes)) fs
  rejected : kSFSMaxDirectDataBlockPointers ≤ trueIndex file.offset → file.offset < value.size → read file nBytesToRead fs = .err .EFBIG fs
  short : ∀ {moved bytes after}, read file nBytesToRead fs = .ok (moved, bytes) after → bytes ≠ [] → file.offset + bytes.length ≤ maxFileSize

def Transfer.Inside (fs : SerenaFS) (file : File) (value : Inode) : Transfer → Prop
  | read nBytesToRead => ReadsInside fs file value nBytesToRead
  | write data => WritesInside fs file value data

section Channels
variable {fs : SerenaFS} {file : File} {value : Inode}

theorem write_eq (stored : fs.inode file.inode = some value) (data : List UInt8) :
    write file data fs = (xWrite file.inode (file.writeOffset value) data >>= fun written => pure (file.incrementOffset written, written)) fs :=
  Code.bind_of_ok (node_stored stored) _

variable {data : List UInt8} {nBytesToRead : Nat}

theorem write_ok (stored : fs.inode file.inode = some value) {moved : File} {written : Nat} {after : SerenaFS}
    (returned : write file data fs = .ok (moved, written) after) : xWrite file.inode (file.writeOffset value) data fs = .ok written after := by
  rw [write_eq stored] at returned
  obtain ⟨count, middle, call, returned⟩ := Code.bind_eq_ok.mp returned
  cases returned
  exact call

theorem write_state (stored : fs.inode file.inode = some value) (data : List UInt8) :
    (write file data fs).state? = (xWrite file.inode (file.writeOffset value) data fs).state? := by
  rw [write_eq stored, Code.bind_apply]
  cases xWrite file.inode (file.writeOffset value) data fs <;> rfl

/-- A negative offset is an error whatever the block numbers are. -/
theorem xWrite_negative {offset : Int} (negative : offset < 0) (ref : InodeRef) (data : List UInt8) (fs : SerenaFS) :
    xWrite ref offset data fs = .err .EINVAL fs ∧ xWriteAt trueIndex ref offset data fs = .err .EINVAL fs := by
  unfold xWrite xWriteAt
  rw [if_pos negative, if_pos negative]
  exact ⟨rfl, rfl⟩

theorem xWriteAt_ends {ref : InodeRef} {offset : Int} {written : Nat} {after : SerenaFS} (some : data ≠ [])
    (nonnegative : 0 ≤ offset) (returned : xWriteAt trueIndex ref offset data fs = .ok written after) : 0 < written ∧ offset + written ≤ maxFileSize := by
  unfold xWriteAt at returned
  rw [if_neg (not_lt.mpr nonnegative)] at returned
  obtain ⟨⟨reached, count⟩, middle, loop, returned⟩ := Code.bind_eq_ok.mp returned
  obtain ⟨_, last, ends, progress⟩ := xWriteLoopAt_ends data.length nonnegative (fun none => absurd none (lt_irrefl 0)) loop
  have wrote : 0 < count := progress (List.length_pos_iff.mpr some) some
  dsimp only at returned last ends
  rw [if_pos wrote] at returned
  obtain ⟨_, final, updated, returned⟩ := Code.bind_eq_ok.mp returned
  cases returned
  exact ⟨wrote, by omega⟩

theorem writesInside_of_straight (stored : fs.inode file.inode = .some value) (some : data ≠ [])
    (straight : ¬Wraps (file.writeOffset value)) : WritesInside fs file value data := by
  by_cases negative : file.writeOffset value < 0
  · obtain ⟨failed, failed'⟩ := xWrite_negative negative file.inode data fs
    have rejects : write file data fs = .err .EINVAL fs := (write_eq stored data).trans (Code.bind_of_err failed _)
    refine ⟨rejects.trans (Code.bind_of_err failed' _).symm, fun above => ?_, fun returned => ?_, fun index other ends => ?_⟩
    · unfold trueIndex at above
      simp only [kSFSBlockSize, kSFSMaxDirectDataBlockPointers] at above
      omega
    · rw [rejects] at returned
      cases returned
    · rw [rejects] at ends
      cases ends
      exact ⟨value, stored, rfl⟩
  · have nonnegative := not_lt.mp negative
    have same := xWrite_straight file.inode data nonnegative straight fs
    refine ⟨?_, fun above => ?_, fun returned => ?_, fun index other ends => ?_⟩
    · rw [write_eq stored, Code.bind_apply, Code.bind_apply, same]
    · exact (write_eq stored data).trans (Code.bind_of_err (same.trans (xWriteAt_above some nonnegative above)) _)
    · have call := write_ok stored returned
      exact xWriteAt_ends some nonnegative (same.symm.trans call)
    · rw [write_state stored, same] at ends
      exact (xWriteAt_keeps nonnegative other).of_state ⟨value, stored, rfl⟩ ends

theorem readsInside_of_straight (stored : fs.inode file.inode = .some value) (some : 0 < nBytesToRead)
    (nonnegative : 0 ≤ file.offset) (straight : ¬Wraps file.offset) : ReadsInside fs file value nBytesToRead := by
  have same := xRead_straight nBytesToRead nonnegative straight stored
  refine ⟨?_, fun above inside => ?_, fun returned present => ?_⟩
  · unfold read
    rw [Code.bind_apply, Code.bind_apply, same]
  · exact Code.bind_of_err (same.trans (xReadAt_above some nonnegative above stored inside)) _
  · obtain ⟨found, middle, call, ended⟩ := Code.bind_eq_ok.mp returned
    cases ended
    rw [same] at call
    unfold xReadAt at call
    rw [if_neg (not_lt.mpr nonnegative), Code.bind_of_ok (node_stored stored)] at call
    obtain ⟨found, middle, loop, ended⟩ := Code.bind_eq_ok.mp call
    obtain ⟨_, ends⟩ := xReadLoopAt_ends value.size nBytesToRead nonnegative (fun started => absurd rfl started) loop
    by_cases empty : found = []
    · rw [if_pos empty] at ended
      cases ended
      exact absurd empty present
    · rw [if_neg empty] at ended
      obtain ⟨_, final, updated, ended⟩ := Code.bind_eq_ok.mp ended
      cases ended
      have bound := ends present
      rw [List.length_nil] at bound
      omega

theorem readsInside_of_end (stored : fs.inode file.inode = some value) (nonnegative : 0 ≤ file.offset)
    (ended : value.size ≤ file.offset) : ReadsInside fs file value nBytesToRead := by
  have nothing : xRead file.inode file.offset nBytesToRead fs = .ok [] fs ∧ xReadAt trueIndex file.inode file.offset nBytesToRead fs = .ok [] fs := by
    have loop : xReadLoop file.inode value.size nBytesToRead file.offset nBytesToRead [] = pure [] ∧
        xReadLoopAt trueIndex file.inode value.size nBytesToRead file.offset nBytesToRead [] = pure [] := by
      cases nBytesToRead with
      | zero => exact ⟨rfl, rfl⟩
      | succ fuel =>
        unfold xReadLoop xReadLoopAt
        rw [if_neg fun more => not_lt.mpr ended more.2, if_neg fun more => not_lt.mpr ended more.2]
        exact ⟨rfl, rfl⟩
    unfold xRead xReadAt
    rw [if_neg (not_lt.mpr nonnegative), if_neg (not_lt.mpr nonnegative), Code.bind_of_ok (node_stored stored),
      Code.bind_of_ok (node_stored stored), loop.1, loop.2]
    exact ⟨rfl, rfl⟩
  have reads : read file nBytesToRead fs = .ok (file.incrementOffset 0, []) fs := Code.bind_of_ok nothing.1 _
  have reference : (xReadAt trueIndex file.inode file.offset nBytesToRead >>= fun bytes => pure (file.incrementOffset bytes.length, bytes)) fs =
      .ok (file.incrementOffset 0, []) fs := Code.bind_of_ok nothing.2 _
  refine ⟨reads.trans reference.symm, fun _ inside => absurd inside (not_lt.mpr ended), fun returned present => ?_⟩
  rw [reads] at returned
  cases returned
  exact absurd rfl present

end Channels

/-- A transfer after a seek keeps to the blocks of its positions exactly when it does not start at an offset whose block number
wraps; a read that starts behind the end does not come to a block. -/
theorem transfer_inside_iff {fs : SerenaFS} {channel file : File} {value : Inode} {offset whence position : Int} {transfer : Transfer}
    (stored : fs.inode channel.inode = some value) (seeks : fileSeek value channel offset whence = .ok (position, file))
    (nonempty : transfer.Nonempty) :
    transfer.Inside fs file value ↔ ¬(Wraps (transfer.start file value) ∧ transfer.Reaches file value) := by
  obtain ⟨nonnegative, _, same, _⟩ := fileSeek_offset seeks
  rw [← same] at stored
  constructor
  · rintro inside ⟨wraps, reaches⟩
    cases transfer with
    | read nBytesToRead =>
      have rejected := inside.rejected wraps.1 reaches
      unfold read at rejected
      rw [Code.bind_apply] at rejected
      cases call : xRead file.inode file.offset nBytesToRead fs with
      | ok bytes after =>
        rw [call] at rejected
        cases rejected
      | err reason after =>
        rw [call] at rejected
        cases rejected
        exact xRead_wraps nBytesToRead wraps call
      | fault =>
        rw [call] at rejected
        cases rejected
    | write data =>
      have rejected := inside.rejected wraps.1
      rw [write_eq stored, Code.bind_apply] at rejected
      cases call : xWrite file.inode (file.writeOffset value) data fs with
      | ok written after =>
        rw [call] at rejected
        cases rejected
      | err reason after =>
        rw [call] at rejected
        cases rejected
        exact xWrite_wraps data wraps call
      | fault =>
        rw [call] at rejected
        cases rejected
  · intro straight
    cases transfer with
    | read nBytesToRead =>
      by_cases ended : value.size ≤ file.offset
      · exact readsInside_of_end stored nonnegative ended
      · exact readsInside_of_straight stored nonempty nonnegative fun wraps => straight ⟨wraps, not_le.mp ended⟩
    | write data => exact writesInside_of_straight stored nonempty fun wraps => straight ⟨wraps, trivial⟩

def openedChannel : File := ⟨1, kOpenReadWrite, 0⟩

theorem openedFile_stored : ∃ fs value, fs.Consistent False none [] ∧ fs.inode 1 = some value ∧
    ((write { openedChannel with offset := 2199023255552 } [7] fs).value?.map Prod.snd,
      (write { openedChannel with offset := 2199023255552 } [7] fs).state?.map fun after => (xRead 1 0 1 after).value?) =
        (some 1, some (some [7])) := by
  have performs : (performAll (fun fs operation => operation.orderly fs) openedFile [] (emptyVolume 64)).bind
      (fun reached => (reached.2.inode 1).map fun _ => ((write { openedChannel with offset := 2199023255552 } [7] reached.2).value?.map Prod.snd,
        (write { openedChannel with offset := 2199023255552 } [7] reached.2).state?.map fun after => (xRead 1 0 1 after).value?)) =
          some (some 1, some (some [7])) := by
    decide +kernel
  obtain ⟨⟨calls, fs⟩, performed, performs⟩ := Option.bind_eq_some_iff.mp performs
  obtain ⟨value, stored, state⟩ := Option.map_eq_some_iff.mp performs
  exact ⟨fs, value, runs_consistent rfl (by decide) emptyVolume_mounts (runs_performAll .nil performed), stored, state⟩

/-- A write across the end of the first block. -/
theorem openedFile_inside : ∃ fs value file, fs.inode 1 = some value ∧ fileSeek value openedChannel 510 kSeekSet = .ok (0, file) ∧
    (Transfer.write [1, 2, 3]).Inside fs file value := by
  obtain ⟨fs, value, consistent, stored, _⟩ := openedFile_stored
  have seeks : fileSeek value openedChannel 510 kSeekSet = .ok (0, { openedChannel with offset := 510 }) := rfl
  have nonempty : (Transfer.write [1, 2, 3]).Nonempty := List.cons_ne_nil 1 [2, 3]
  exact ⟨fs, value, _, stored, seeks, (transfer_inside_iff stored seeks nonempty).mpr fun wraps => absurd wraps.1 (show ¬Wraps 510 by decide)⟩

/-- A byte that is written at the offset 2^41 is the first byte of the file. -/
theorem farWrite_not_inside : ∃ fs value file moved after, fs.Consistent False none [] ∧ fs.inode 1 = some value ∧
    fileSeek value openedChannel 2199023255552 kSeekSet = .ok (0, file) ∧ write file [7] fs = .ok (moved, 1) after ∧
      (xRead 1 0 1 after).value? = some [7] ∧ ¬(Transfer.write [7]).Inside fs file value := by
  obtain ⟨fs, value, consistent, stored, performs⟩ := openedFile_stored
  simp only [Prod.mk.injEq, Option.map_eq_some_iff] at performs
  obtain ⟨⟨⟨moved, written⟩, returned, one⟩, after, reaches, first⟩ := performs
  cases one
  have returned := Outcome.eq_ok returned fs
  rw [reaches, Option.getD_some] at returned
  have seeks : fileSeek value openedChannel 2199023255552 kSeekSet = .ok (0, { openedChannel with offset := 2199023255552 }) := rfl
  refine ⟨fs, value, _, moved, after, consistent, stored, seeks, returned, first, fun inside => ?_⟩
  have rejected := inside.rejected (show (114 : Int) ≤ trueIndex 2199023255552 by decide)
  rw [returned] at rejected
  cases rejected

end Apollo.Serenafs
