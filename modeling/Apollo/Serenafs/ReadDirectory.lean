import Apollo.Serenafs.DirectoryNames
import Apollo.Serenafs.ReadAfterWrite

/-!
# Enumerating a directory

`SerenaFS_readDirectory` copies the live entries of a directory into the buffer of
the caller, one record of 260 bytes for each of them.  `openDirectory` starts a
channel at the first slot, and a caller reads until nothing comes back.

A name is copied with a count of 28 characters, so that a name which fills its
field is not followed by a NUL.
-/

set_option autoImplicit false

namespace Apollo.Serenafs

open Lib

/-- `sizeof(DirectoryEntry)` of `System/Directory.h`. -/
def sizeofDirectoryEntry : Nat := 260

structure Directory where
  inode : InodeRef
  offset : Int
  deriving DecidableEq

/-! ## Entries and records -/

def direntId (dirent : List UInt8) : Nat := entryId (Buffer.ofList dirent) 0

def direntFilename (dirent : List UInt8) : List UInt8 := (dirent.drop 4).take kSFSMaxFilenameLength

/-- What is stored for an entry: the id in the byte order of the 68000, and the name. -/
def recordBytes (dirent : List UInt8) : List UInt8 :=
  beBytes 4 (direntId dirent) ++ stringCopyUpTo (direntFilename dirent)

/-- The store through `pEntry`. -/
def storeRecord (buffer : List UInt8) (start : Nat) (dirent : List UInt8) : List UInt8 :=
  buffer.take start ++ recordBytes dirent ++ buffer.drop (start + (recordBytes dirent).length)

/-- What the user finds in a record: `name` is a NUL-terminated string. -/
def userEntry (record : List UInt8) : DirectoryEntry :=
  ⟨(record.drop 4).takeWhile (· ≠ 0), (Buffer.ofList record : Block).be32 0⟩

/-! ## Reading -/

/-- The variables of the loop: the offset that was reached, the buffer and `nBytesRead`. -/
structure Filling where
  offset : Int
  buffer : List UInt8
  nBytesRead : Nat
  deriving DecidableEq

/-- The loop of `SerenaFS_readDirectory`.  A transfer that comes short leaves the rest of
`dirent` as it was. -/
def readDirectoryLoop (ref : InodeRef) : Nat → List UInt8 → Filling → FS Filling
  | 0, _, _ => Code.fault
  | fuel + 1, dirent, filling =>
    if 0 < filling.buffer.length - filling.nBytesRead then do
      match ← Code.attempt (xRead ref filling.offset sizeofSFSDirectoryEntry) with
      | .error reason => if filling.nBytesRead = 0 then Code.throw reason else pure filling
      | .ok bytes =>
        if bytes = [] then pure filling
        else
          let dirent := bytes ++ dirent.drop bytes.length
          if 0 < direntId dirent then
            if filling.buffer.length - filling.nBytesRead < sizeofDirectoryEntry then pure filling
            else
              readDirectoryLoop ref fuel dirent
                ⟨filling.offset + bytes.length, storeRecord filling.buffer filling.nBytesRead dirent,
                  filling.nBytesRead + sizeofDirectoryEntry⟩
          else
            readDirectoryLoop ref fuel dirent { filling with offset := filling.offset + bytes.length }
    else pure filling

/-- `SerenaFS_readDirectory`; `stack` is what its frame holds in `dirent`.  The directory
ends, or the block map does, before the rounds are used up. -/
def readDirectory (stack : List UInt8) (dir : Directory) (buffer : List UInt8) : FS (Directory × Filling) := do
  let filled ← readDirectoryLoop dir.inode (maxFileSize + 1) stack ⟨dir.offset, buffer, 0⟩
  pure (if 0 < filled.nBytesRead then { dir with offset := filled.offset } else dir, filled)

def record (buffer : List UInt8) (index : Nat) : List UInt8 :=
  (buffer.drop (sizeofDirectoryEntry * index)).take sizeofDirectoryEntry

/-- The records in the first `count` bytes of a buffer. -/
def records (buffer : List UInt8) (count : Nat) : List (List UInt8) :=
  (List.range (count / sizeofDirectoryEntry)).map (record buffer)

/-- Reads with one buffer after the other until nothing is returned; `none` after `fuel`
reads that all returned something. -/
def readAll (stack : List UInt8) (buffers : Nat → List UInt8) :
    Nat → Nat → Directory → FS (Option (List DirectoryEntry))
  | 0, _, _ => pure none
  | fuel + 1, call, dir => do
      let read ← readDirectory stack dir (buffers call)
      if read.2.nBytesRead = 0 then pure (some [])
      else
        let rest ← readAll stack buffers fuel (call + 1) read.1
        pure (rest.map fun entries => (records read.2.buffer read.2.nBytesRead).map userEntry ++ entries)

/-! ## What is on the disk -/

def SerenaFS.slotAt (fs : SerenaFS) (map : BlockMap) (slot : Nat) : List UInt8 :=
  (List.range sizeofSFSDirectoryEntry).map fun index => fs.byteOf map (sizeofSFSDirectoryEntry * slot + index)

def isLive (slot : List UInt8) : Bool := decide (0 < direntId slot)

def slotEntry (slot : List UInt8) : DirectoryEntry :=
  ⟨(direntFilename slot).takeWhile (· ≠ 0), direntId slot⟩

/-- The live slots from `first` to `count`, in slot order. -/
def SerenaFS.liveSlots (fs : SerenaFS) (map : BlockMap) (first count : Nat) : List (List UInt8) :=
  ((List.range' first (count - first)).map (fs.slotAt map)).filter isLive

/-- A directory of `count` slots whose blocks can all be read. -/
structure SerenaFS.Enumerable (fs : SerenaFS) (ref : InodeRef) (value : Inode) (count : Nat) : Prop where
  stored : fs.inode ref = some value
  size : value.size = (sizeofSFSDirectoryEntry * count : Nat)
  fits : sizeofSFSDirectoryEntry * count ≤ maxFileSize
  quiet : fs.disk.faults = []
  readable : ∀ index, ((kSFSBlockSize * index.val : Nat) : Int) < value.size →
    value.blockMap index = 0 ∨ value.blockMap index < fs.disk.blockCount

/-! ## One transfer -/

section Transfers
variable {fs state : SerenaFS} {ref : InodeRef} {value : Inode} {count slot : Nat}

theorem SerenaFS.Enumerable.fileBlock (enumerable : fs.Enumerable ref value count)
    (index : Fin kSFSMaxDirectDataBlockPointers) (inside : ((kSFSBlockSize * index.val : Nat) : Int) < value.size) :
    Serenafs.fileBlock ref (index.val : Int) .read fs =
      .ok (value.blockMap index, fs.contentBlock value.blockMap index) fs := by
  have bounds : 0 ≤ (index.val : Int) ∧ (index.val : Int) < kSFSMaxDirectDataBlockPointers := by
    omega
  have position : (⟨(index.val : Int).toNat, by omega⟩ : Fin kSFSMaxDirectDataBlockPointers) = index := rfl
  have finds : getLogicalBlockAddressForFileBlockAddress ref (index.val : Int) .read fs = .ok (value.blockMap index) fs := by
    unfold getLogicalBlockAddressForFileBlockAddress
    rw [dif_pos bounds, Code.bind_of_ok (node_stored enumerable.stored)]
    simp only [position, reduceCtorEq, and_false, if_false]
    rfl
  unfold Serenafs.fileBlock SerenaFS.contentBlock
  rw [Code.bind_of_ok finds]
  by_cases empty : value.blockMap index = 0
  · rw [if_pos empty, if_pos empty, empty]
    rfl
  · have onDisk := (enumerable.readable index inside).resolve_left empty
    rw [if_neg empty, if_neg empty,
      Code.bind_of_ok (show getBlock (value.blockMap index) fs = .ok _ fs by
        rw [getBlock_quiet enumerable.quiet]
        exact if_pos onDisk)]
    rfl

structure Browsed (fs : SerenaFS) (ref : InodeRef) (value : Inode) (count : Nat) (state : SerenaFS) (now : Inode) :
    Prop where
  enumerable : state.Enumerable ref now count
  blockMap : now.blockMap = value.blockMap
  disk : state.disk = fs.disk

theorem Browsed.slotAt {now : Inode} (browsed : Browsed fs ref value count state now) (slot : Nat) :
    state.slotAt now.blockMap slot = fs.slotAt value.blockMap slot := by
  unfold SerenaFS.slotAt SerenaFS.byteOf SerenaFS.contentBlock
  rw [browsed.blockMap, browsed.disk]

theorem Browsed.accessed {now : Inode} (browsed : Browsed fs ref value count state now) :
    Browsed fs ref value count (state.setNode ref (some { now with accessed := true })) { now with accessed := true } where
  enumerable := ⟨Function.update_self _ _ _, browsed.enumerable.size, browsed.enumerable.fits,
    browsed.enumerable.quiet, browsed.enumerable.readable⟩
  blockMap := browsed.blockMap
  disk := browsed.disk

theorem length_slotAt (fs : SerenaFS) (map : BlockMap) (slot : Nat) :
    (fs.slotAt map slot).length = sizeofSFSDirectoryEntry := by
  unfold SerenaFS.slotAt
  rw [List.length_map, List.length_range]

theorem Browsed.xRead_slot {now : Inode} (browsed : Browsed fs ref value count state now) (inside : slot < count) :
    ∃ after next, xRead ref ((sizeofSFSDirectoryEntry * slot : Nat) : Int) sizeofSFSDirectoryEntry state =
        .ok (fs.slotAt value.blockMap slot) after ∧ Browsed fs ref value count after next := by
  have size := browsed.enumerable.size
  have fits := browsed.enumerable.fits
  have small : sizeofSFSDirectoryEntry * slot + sizeofSFSDirectoryEntry ≤ sizeofSFSDirectoryEntry * count := by
    simp only [sizeofSFSDirectoryEntry]
    omega
  have reads : xReadLoop ref now.size sizeofSFSDirectoryEntry ((sizeofSFSDirectoryEntry * slot : Nat) : Int)
      sizeofSFSDirectoryEntry [] state = .ok ([] ++ state.slotAt now.blockMap slot) state :=
    xReadLoop_bytes now.size browsed.enumerable.fileBlock sizeofSFSDirectoryEntry [] (by omega) (by omega) (Nat.le_refl _)
  rw [List.nil_append, browsed.slotAt slot] at reads
  have some : fs.slotAt value.blockMap slot ≠ [] := by
    intro empty
    have length := length_slotAt fs value.blockMap slot
    rw [empty] at length
    exact absurd length (by decide)
  refine ⟨_, _, ?_, browsed.accessed⟩
  unfold xRead
  rw [if_neg (by omega), Code.bind_of_ok (node_stored browsed.enumerable.stored), Code.bind_of_ok reads, if_neg some,
    Code.bind_of_ok (updateNode_stored browsed.enumerable.stored _)]
  rfl

theorem Browsed.xRead_end {now : Inode} (browsed : Browsed fs ref value count state now) :
    xRead ref ((sizeofSFSDirectoryEntry * count : Nat) : Int) sizeofSFSDirectoryEntry state = .ok [] state := by
  have size := browsed.enumerable.size
  have stops : xReadLoop ref now.size sizeofSFSDirectoryEntry ((sizeofSFSDirectoryEntry * count : Nat) : Int)
      sizeofSFSDirectoryEntry [] state = .ok [] state := by
    exact congrFun (if_neg (by omega)) state
  unfold xRead
  rw [if_neg (by omega), Code.bind_of_ok (node_stored browsed.enumerable.stored), Code.bind_of_ok stops, if_pos rfl]
  rfl

end Transfers

/-! ## Storing a record -/

section Records
variable {buffer bytes old : List UInt8} {slot : Nat}

def overwritten (dirent old : List UInt8) : List UInt8 := recordBytes dirent ++ old.drop (recordBytes dirent).length

theorem length_stringCopyUpTo (source : List UInt8) : (stringCopyUpTo source).length ≤ source.length := by
  have shorter : (source.takeWhile (· ≠ 0)).length ≤ source.length := (List.takeWhile_sublist _).length_le
  unfold stringCopyUpTo
  dsimp only
  split_ifs
  · rw [List.length_append, List.length_singleton]
    omega
  · exact shorter

theorem length_recordBytes (dirent : List UInt8) : (recordBytes dirent).length ≤ sizeofDirectoryEntry := by
  have field : (direntFilename dirent).length ≤ kSFSMaxFilenameLength := List.length_take_le _ _
  have copied := length_stringCopyUpTo (direntFilename dirent)
  unfold recordBytes
  rw [List.length_append, length_beBytes]
  simp only [sizeofDirectoryEntry, kSFSMaxFilenameLength] at *
  omega

theorem recordBytes_append (whole : bytes.length = sizeofSFSDirectoryEntry) (rest : List UInt8) :
    recordBytes (bytes ++ rest) = recordBytes bytes ∧ direntId (bytes ++ rest) = direntId bytes := by
  have ids : direntId (bytes ++ rest) = direntId bytes := by
    refine Buffer.be32_congr fun index low high => ?_
    simp only [sizeofSFSDirectoryEntry] at whole low high
    rw [Buffer.byte_ofList _ (by omega), Buffer.byte_ofList _ (by omega), List.getD_append _ _ _ _ (by omega)]
  have names : direntFilename (bytes ++ rest) = direntFilename bytes := by
    simp only [sizeofSFSDirectoryEntry] at whole
    unfold direntFilename
    rw [List.drop_append_of_le_length (by omega), List.take_append_of_le_length]
    rw [List.length_drop, whole]
    decide
  refine ⟨?_, ids⟩
  unfold recordBytes
  rw [ids, names]

theorem record_append {front middle back : List UInt8} {k : Nat} (before : front.length = sizeofDirectoryEntry * k)
    (size : middle.length = sizeofDirectoryEntry) (index : Nat) :
    record (front ++ (middle ++ back)) index =
      if index < k then record front index else if index = k then middle else record back (index - (k + 1)) := by
  unfold record
  simp only [sizeofDirectoryEntry] at *
  by_cases early : index < k
  · rw [if_pos early, List.drop_append_of_le_length (by omega), List.take_append_of_le_length]
    rw [List.length_drop]
    omega
  · rw [if_neg early]
    by_cases here : index = k
    · rw [if_pos here, List.drop_left' (by omega), List.take_left' size]
    · obtain ⟨rest, rfl⟩ : ∃ rest, index = k + 1 + rest := ⟨index - (k + 1), by omega⟩
      have skipped : 260 * (k + 1 + rest) = (front ++ middle).length + 260 * rest := by
        rw [List.length_append]
        omega
      rw [if_neg here, ← List.append_assoc, skipped, List.drop_length_add_append, Nat.add_sub_cancel_left]

theorem storeRecord_eq {k : Nat} (room : sizeofDirectoryEntry * (k + 1) ≤ buffer.length) (dirent : List UInt8) :
    storeRecord buffer (sizeofDirectoryEntry * k) dirent =
      buffer.take (sizeofDirectoryEntry * k) ++
        (overwritten dirent (record buffer k) ++ buffer.drop (sizeofDirectoryEntry * (k + 1))) := by
  have short := length_recordBytes dirent
  have tail : buffer.drop (sizeofDirectoryEntry * k) =
      record buffer k ++ buffer.drop (sizeofDirectoryEntry * (k + 1)) := by
    unfold record
    rw [Nat.mul_succ, ← List.drop_drop, List.take_append_drop]
  have size : (record buffer k).length = sizeofDirectoryEntry := by
    unfold record
    rw [List.length_take, List.length_drop]
    simp only [sizeofDirectoryEntry] at *
    omega
  unfold storeRecord overwritten
  rw [← List.drop_drop, tail, List.drop_append_of_le_length (by omega), List.append_assoc, List.append_assoc]

theorem record_storeRecord {k : Nat} (room : sizeofDirectoryEntry * (k + 1) ≤ buffer.length) (dirent : List UInt8)
    (index : Nat) :
    record (storeRecord buffer (sizeofDirectoryEntry * k) dirent) index =
      if index = k then overwritten dirent (record buffer k) else record buffer index := by
  have short := length_recordBytes dirent
  have size : (record buffer k).length = sizeofDirectoryEntry := by
    unfold record
    rw [List.length_take, List.length_drop]
    simp only [sizeofDirectoryEntry] at *
    omega
  have split : buffer = buffer.take (sizeofDirectoryEntry * k) ++
      (record buffer k ++ buffer.drop (sizeofDirectoryEntry * (k + 1))) := by
    unfold record
    rw [Nat.mul_succ, ← List.drop_drop, List.take_append_drop, List.take_append_drop]
  have front : (buffer.take (sizeofDirectoryEntry * k)).length = sizeofDirectoryEntry * k := by
    rw [List.length_take, Nat.min_eq_left]
    exact Nat.le_trans (Nat.mul_le_mul_left _ (Nat.le_succ k)) room
  have stored : (overwritten dirent (record buffer k)).length = sizeofDirectoryEntry := by
    unfold overwritten
    rw [List.length_append, List.length_drop]
    omega
  rw [storeRecord_eq room, record_append front stored]
  have old := @record_append _ _ (buffer.drop (sizeofDirectoryEntry * (k + 1))) _ front size index
  rw [← split] at old
  by_cases here : index = k
  · rw [if_pos here, if_neg (by omega), if_pos here]
  · rw [if_neg here, old, if_neg here, if_neg here]

theorem length_storeRecord {k : Nat} (room : sizeofDirectoryEntry * (k + 1) ≤ buffer.length) (dirent : List UInt8) :
    (storeRecord buffer (sizeofDirectoryEntry * k) dirent).length = buffer.length := by
  have short := length_recordBytes dirent
  unfold storeRecord
  rw [List.length_append, List.length_append, List.length_take, List.length_drop]
  simp only [sizeofDirectoryEntry] at *
  omega

end Records

/-! ## One read -/

section Reads
variable {fs state : SerenaFS} {ref : InodeRef} {value now : Inode} {map : BlockMap} {count slot k : Nat} {buffer : List UInt8}

theorem liveSlots_step (fs : SerenaFS) (map : BlockMap) (inside : slot < count) :
    fs.liveSlots map slot count =
      if isLive (fs.slotAt map slot) then fs.slotAt map slot :: fs.liveSlots map (slot + 1) count
      else fs.liveSlots map (slot + 1) count := by
  have first : List.range' slot (count - slot) = slot :: List.range' (slot + 1) (count - (slot + 1)) := by
    rw [show count - slot = count - (slot + 1) + 1 by omega, List.range'_succ]
  unfold SerenaFS.liveSlots
  rw [first, List.map_cons, List.filter_cons]

theorem liveSlots_end (fs : SerenaFS) (map : BlockMap) (count : Nat) : fs.liveSlots map count count = [] := by
  unfold SerenaFS.liveSlots
  rw [Nat.sub_self]
  rfl

/-- What the loop does from `slot` on with a buffer that has `k` records in it: it appends
those of the live slots in `taken`, and comes to the slot `reached`. -/
structure Filled (fs : SerenaFS) (map : BlockMap) (count slot k : Nat) (buffer : List UInt8) (reached : Nat)
    (taken : List (List UInt8)) (filled : Filling) : Prop where
  offset : filled.offset = ((sizeofSFSDirectoryEntry * reached : Nat) : Int)
  nBytesRead : filled.nBytesRead = sizeofDirectoryEntry * (k + taken.length)
  inside : reached ≤ count
  room : sizeofDirectoryEntry * (k + taken.length) ≤ buffer.length
  split : fs.liveSlots map slot count = taken ++ fs.liveSlots map reached count
  progress : taken = [] → sizeofDirectoryEntry * (k + 1) ≤ buffer.length → fs.liveSlots map slot count = []
  kept : ∀ index, index < k → record filled.buffer index = record buffer index
  written : ∀ index, index < taken.length →
    record filled.buffer (k + index) = overwritten (taken.getD index []) (record buffer (k + index))

theorem Filled.stop (inside : slot ≤ count) (room : sizeofDirectoryEntry * k ≤ buffer.length)
    (progress : sizeofDirectoryEntry * (k + 1) ≤ buffer.length → fs.liveSlots map slot count = []) :
    Filled fs map count slot k buffer slot []
      ⟨((sizeofSFSDirectoryEntry * slot : Nat) : Int), buffer, sizeofDirectoryEntry * k⟩ where
  offset := rfl
  nBytesRead := rfl
  inside := inside
  room := room
  split := rfl
  progress _ := progress
  kept _ _ := rfl
  written _ none := absurd none (Nat.not_lt_zero _)

theorem Filled.skip {reached : Nat} {taken : List (List UInt8)} {filled : Filling} (inside : slot < count)
    (hole : isLive (fs.slotAt map slot) = false)
    (rest : Filled fs map count (slot + 1) k buffer reached taken filled) :
    Filled fs map count slot k buffer reached taken filled := by
  have same : fs.liveSlots map slot count = fs.liveSlots map (slot + 1) count := by
    rw [liveSlots_step fs map inside, hole]
    rfl
  exact ⟨rest.offset, rest.nBytesRead, rest.inside, rest.room, same.trans rest.split,
    fun none room => same.trans (rest.progress none room), rest.kept, rest.written⟩

theorem Filled.store {reached : Nat} {taken : List (List UInt8)} {filled : Filling} (inside : slot < count)
    (live : isLive (fs.slotAt map slot) = true) (room : sizeofDirectoryEntry * (k + 1) ≤ buffer.length)
    {dirent : List UInt8} (same : recordBytes dirent = recordBytes (fs.slotAt map slot))
    (rest : Filled fs map count (slot + 1) (k + 1) (storeRecord buffer (sizeofDirectoryEntry * k) dirent) reached taken
      filled) :
    Filled fs map count slot k buffer reached (fs.slotAt map slot :: taken) filled where
  offset := rest.offset
  nBytesRead := by
    rw [rest.nBytesRead, List.length_cons, Nat.add_assoc, Nat.add_comm 1]
  inside := rest.inside
  room := by
    have bound := rest.room
    rw [length_storeRecord room] at bound
    rw [List.length_cons, ← Nat.add_assoc, Nat.add_right_comm]
    exact bound
  split := by
    rw [liveSlots_step fs map inside, live, if_pos rfl, rest.split]
    rfl
  progress none := absurd none (List.cons_ne_nil _ _)
  kept index before := by
    rw [rest.kept index (by omega), record_storeRecord room, if_neg (by omega)]
  written index written := by
    cases index with
    | zero =>
      have stored : overwritten dirent (record buffer k) = overwritten (fs.slotAt map slot) (record buffer k) := by
        unfold overwritten
        rw [same]
      rw [Nat.add_zero, rest.kept k (by omega), record_storeRecord room, if_pos rfl, stored]
      rfl
    | succ index =>
      rw [List.length_cons] at written
      rw [← Nat.add_assoc, Nat.add_right_comm, rest.written index (by omega), record_storeRecord room,
        if_neg (by omega)]
      rfl

theorem readDirectoryLoop_fills (fuel : Nat) (browsed : Browsed fs ref value count state now) (dirent : List UInt8)
    (inside : slot ≤ count) (room : sizeofDirectoryEntry * k ≤ buffer.length) (lasts : count - slot < fuel) :
    ∃ reached taken filled after next,
      readDirectoryLoop ref fuel dirent
          ⟨((sizeofSFSDirectoryEntry * slot : Nat) : Int), buffer, sizeofDirectoryEntry * k⟩ state = .ok filled after ∧
        Browsed fs ref value count after next ∧
        Filled fs value.blockMap count slot k buffer reached taken filled := by
  induction fuel generalizing slot k buffer state now dirent with
  | zero => omega
  | succ fuel ih =>
    unfold readDirectoryLoop
    by_cases more : 0 < buffer.length - sizeofDirectoryEntry * k
    · rw [if_pos more]
      by_cases last : slot = count
      · subst last
        rw [Code.bind_of_ok (attempt_of_ok browsed.xRead_end)]
        exact ⟨slot, [], _, state, now, rfl, browsed, .stop inside room fun _ => liveSlots_end fs value.blockMap slot⟩
      · have before : slot < count := by omega
        obtain ⟨after, next, reads, browsed'⟩ := browsed.xRead_slot before
        have whole := length_slotAt fs value.blockMap slot
        have some : fs.slotAt value.blockMap slot ≠ [] := by
          intro empty
          rw [empty] at whole
          exact absurd whole (by decide)
        have moved : ((sizeofSFSDirectoryEntry * slot : Nat) : Int) + (fs.slotAt value.blockMap slot).length =
            ((sizeofSFSDirectoryEntry * (slot + 1) : Nat) : Int) := by
          rw [whole]
          simp only [sizeofSFSDirectoryEntry]
          omega
        have same := recordBytes_append whole (dirent.drop (fs.slotAt value.blockMap slot).length)
        rw [Code.bind_of_ok (attempt_of_ok reads)]
        dsimp only
        rw [if_neg some, same.2, moved]
        by_cases live : 0 < direntId (fs.slotAt value.blockMap slot)
        · have isLive : isLive (fs.slotAt value.blockMap slot) = true := decide_eq_true live
          rw [if_pos live]
          by_cases short : buffer.length - sizeofDirectoryEntry * k < sizeofDirectoryEntry
          · rw [if_pos short]
            refine ⟨slot, [], _, after, next, rfl, browsed', .stop inside room fun fits => ?_⟩
            rw [Nat.mul_succ] at fits
            omega
          · have fits : sizeofDirectoryEntry * (k + 1) ≤ buffer.length := by
              rw [Nat.mul_succ]
              omega
            rw [if_neg short, ← Nat.mul_succ]
            obtain ⟨reached, taken, filled, final, last, returns, browsed'', rest⟩ :=
              ih browsed' (fs.slotAt value.blockMap slot ++ dirent.drop (fs.slotAt value.blockMap slot).length)
                (by omega : slot + 1 ≤ count)
                (by rw [length_storeRecord fits]; exact fits :
                  sizeofDirectoryEntry * (k + 1) ≤
                    (storeRecord buffer (sizeofDirectoryEntry * k)
                      (fs.slotAt value.blockMap slot ++ dirent.drop (fs.slotAt value.blockMap slot).length)).length)
                (by omega)
            exact ⟨reached, _, filled, final, last, returns, browsed'', rest.store before isLive fits same.1⟩
        · rw [if_neg live]
          obtain ⟨reached, taken, filled, final, last, returns, browsed'', rest⟩ :=
            ih browsed' (fs.slotAt value.blockMap slot ++ dirent.drop (fs.slotAt value.blockMap slot).length)
              (by omega : slot + 1 ≤ count) room (by omega)
          exact ⟨reached, taken, filled, final, last, returns, browsed'', rest.skip before (decide_eq_false live)⟩
    · rw [if_neg more]
      refine ⟨slot, [], _, state, now, rfl, browsed, .stop inside room fun fits => ?_⟩
      simp only [sizeofDirectoryEntry] at *
      omega

theorem readDirectory_fills (browsed : Browsed fs ref value count state now) (stack buffer : List UInt8)
    (inside : slot ≤ count) :
    ∃ reached taken read after next,
      readDirectory stack ⟨ref, ((sizeofSFSDirectoryEntry * slot : Nat) : Int)⟩ buffer state = .ok read after ∧
        Browsed fs ref value count after next ∧
        Filled fs value.blockMap count slot 0 buffer reached taken read.2 ∧
        (taken ≠ [] → read.1 = ⟨ref, ((sizeofSFSDirectoryEntry * reached : Nat) : Int)⟩) := by
  have fits := browsed.enumerable.fits
  obtain ⟨reached, taken, filled, after, next, returns, browsed', rest⟩ :=
    readDirectoryLoop_fills (maxFileSize + 1) browsed stack inside
      (show sizeofDirectoryEntry * 0 ≤ buffer.length from Nat.zero_le _) (by simp only [sizeofSFSDirectoryEntry] at fits; omega)
  refine ⟨reached, taken,
    (if 0 < filled.nBytesRead then ⟨ref, filled.offset⟩ else ⟨ref, ((sizeofSFSDirectoryEntry * slot : Nat) : Int)⟩, filled),
    after, next, ?_, browsed', rest, ?_⟩
  · exact Code.bind_of_ok returns _
  · intro some
    have positive := List.length_pos_iff.mpr some
    have read := rest.nBytesRead
    simp only [sizeofDirectoryEntry] at read
    rw [if_pos (by omega), rest.offset]

end Reads

/-! ## What the user finds in a record -/

section Names
variable {slot old : List UInt8}

theorem userEntry_id (slot old : List UInt8) : (userEntry (overwritten slot old)).id = direntId slot := by
  have bound : direntId slot < 4294967296 := Buffer.be32_lt _ _
  rw [← Nat.mod_eq_of_lt bound]
  refine Buffer.be32_of_bytes fun index inside => ?_
  unfold overwritten recordBytes
  rw [Buffer.byte_ofList _ (by omega), List.append_assoc, List.getD_append _ _ _ _ (by rw [length_beBytes]; omega),
    Nat.zero_add, getD_beBytes 4 _ inside]

theorem userEntry_name (slot old : List UInt8) :
    (userEntry (overwritten slot old)).name =
      (stringCopyUpTo (direntFilename slot) ++ old.drop (recordBytes slot).length).takeWhile (· ≠ 0) := by
  unfold userEntry overwritten
  rw [show recordBytes slot = beBytes 4 (direntId slot) ++ stringCopyUpTo (direntFilename slot) from rfl,
    List.append_assoc, List.drop_left' (length_beBytes _ _)]

theorem length_slotName (slot : List UInt8) : (slotEntry slot).name.length ≤ (direntFilename slot).length :=
  (List.takeWhile_sublist _).length_le

theorem length_direntFilename (whole : slot.length = sizeofSFSDirectoryEntry) :
    (direntFilename slot).length = kSFSMaxFilenameLength := by
  unfold direntFilename
  rw [List.length_take, List.length_drop, whole]
  rfl

theorem takeWhile_text (source rest : List UInt8) :
    (source.takeWhile (· ≠ 0) ++ rest).takeWhile (· ≠ 0) = source.takeWhile (· ≠ 0) ++ rest.takeWhile (· ≠ 0) :=
  List.takeWhile_append_of_pos fun char member => by
    have kept : (source.takeWhile (· ≠ 0)).all (· ≠ 0) = true := List.all_takeWhile
    exact List.all_eq_true.mp kept char member

/-- A name that leaves room in its field is delivered with a NUL behind it. -/
theorem userEntry_short (whole : slot.length = sizeofSFSDirectoryEntry)
    (short : (slotEntry slot).name.length < kSFSMaxFilenameLength) (old : List UInt8) :
    userEntry (overwritten slot old) = slotEntry slot := by
  have name : (userEntry (overwritten slot old)).name = (slotEntry slot).name := by
    rw [userEntry_name]
    unfold stringCopyUpTo
    rw [if_pos (by rw [length_direntFilename whole]; exact short), List.append_assoc, takeWhile_text,
      List.singleton_append, List.takeWhile_cons_of_neg (by simp), List.append_nil]
    rfl
  have id : (userEntry (overwritten slot old)).id = (slotEntry slot).id := userEntry_id slot old
  cases found : userEntry (overwritten slot old) with
  | mk name' id' =>
    rw [found] at name id
    rw [show name' = (slotEntry slot).name from name, show id' = (slotEntry slot).id from id]

/-- A name that fills its field goes on with what was in the buffer. -/
theorem userEntry_long (whole : slot.length = sizeofSFSDirectoryEntry)
    (long : kSFSMaxFilenameLength ≤ (slotEntry slot).name.length) (old : List UInt8) :
    (userEntry (overwritten slot old)).name =
      (slotEntry slot).name ++ (old.drop sizeofSFSDirectoryEntry).takeWhile (· ≠ 0) := by
  have full : ¬((direntFilename slot).takeWhile (· ≠ 0)).length < (direntFilename slot).length := by
    rw [length_direntFilename whole]
    exact not_lt.mpr long
  have size : (recordBytes slot).length = sizeofSFSDirectoryEntry := by
    have fills : ((direntFilename slot).takeWhile (· ≠ 0)).length = kSFSMaxFilenameLength :=
      le_antisymm (length_direntFilename whole ▸ length_slotName slot) long
    unfold recordBytes stringCopyUpTo
    rw [if_neg full, List.length_append, length_beBytes, fills]
    rfl
  rw [userEntry_name, size]
  unfold stringCopyUpTo
  rw [if_neg full, takeWhile_text]
  rfl

end Names

/-! ## Reading to the end -/

section Enumeration
variable {fs state : SerenaFS} {ref : InodeRef} {value now : Inode} {count slot : Nat}

/-- Every live entry comes up once, in slot order, as what `seen` makes of it. -/
theorem readAll_eq (stack : List UInt8) {buffers : Nat → List UInt8} (seen : List UInt8 → DirectoryEntry)
    (room : ∀ call, sizeofDirectoryEntry ≤ (buffers call).length) (fuel call : Nat)
    (browsed : Browsed fs ref value count state now) (inside : slot ≤ count)
    (delivers : ∀ call index, sizeofDirectoryEntry * (index + 1) ≤ (buffers call).length →
      ∀ entry ∈ fs.liveSlots value.blockMap slot count,
        userEntry (overwritten entry (record (buffers call) index)) = seen entry)
    (lasts : (fs.liveSlots value.blockMap slot count).length < fuel) :
    ∃ after,
      readAll stack buffers fuel call ⟨ref, ((sizeofSFSDirectoryEntry * slot : Nat) : Int)⟩ state =
        .ok (some ((fs.liveSlots value.blockMap slot count).map seen)) after := by
  induction fuel generalizing call slot state now with
  | zero => omega
  | succ fuel ih =>
    obtain ⟨reached, taken, read, after, next, returns, browsed', filled, goesOn⟩ :=
      readDirectory_fills browsed stack (buffers call) inside
    have amount := filled.nBytesRead
    unfold readAll
    rw [Code.bind_of_ok returns]
    by_cases none : taken = []
    · have done := filled.progress none (room call)
      rw [none, List.length_nil, Nat.mul_zero] at amount
      rw [if_pos amount, done]
      exact ⟨after, rfl⟩
    · have positive := List.length_pos_iff.mpr none
      have split := filled.split
      have fewer : (fs.liveSlots value.blockMap reached count).length < fuel := by
        rw [split, List.length_append] at lasts
        omega
      obtain ⟨final, rest⟩ := ih (call + 1) browsed' filled.inside
        (fun call index fits entry member =>
          delivers call index fits entry (split ▸ List.mem_append_right _ member)) fewer
      have some : read.2.nBytesRead ≠ 0 := by
        rw [amount]
        simp only [sizeofDirectoryEntry]
        omega
      have entries : (records read.2.buffer read.2.nBytesRead).map userEntry = taken.map seen := by
        unfold records
        rw [amount, Nat.mul_div_cancel_left _ (by decide), List.map_map]
        refine List.ext_getElem (by simp) fun index here there => ?_
        rw [List.length_map] at there
        have written := filled.written index there
        have fits := filled.room
        rw [Nat.zero_add] at written fits
        rw [List.getElem_map, List.getElem_map, List.getElem_range, Function.comp_apply, written,
          List.getD_eq_getElem _ _ there]
        refine delivers call index (Nat.le_trans (Nat.mul_le_mul_left _ there) fits) _ ?_
        rw [split]
        exact List.mem_append_left _ (List.getElem_mem there)
      rw [if_neg some, goesOn none, Code.bind_of_ok rest, entries, split, List.map_append]
      exact ⟨final, rfl⟩

theorem SerenaFS.Enumerable.browsed (enumerable : fs.Enumerable ref value count) :
    Browsed fs ref value count fs value := ⟨enumerable, rfl, rfl⟩

theorem SerenaFS.Consistent.enumerable {strict : Prop} (consistent : fs.Consistent strict none []) (core : fs.Core ref value)
    (size : value.size = (sizeofSFSDirectoryEntry * count : Nat)) (fits : sizeofSFSDirectoryEntry * count ≤ maxFileSize) :
    fs.Enumerable ref value count where
  stored := core.stored
  size := size
  fits := fits
  quiet := consistent.hardware.quiet
  readable index _ := (consistent.accounts.blockMap_lt (.core core) index).imp id fun small =>
    lt_of_lt_of_le small consistent.hardware.volume

def dirtyBuffer : List UInt8 := List.replicate sizeofDirectoryEntry 1

theorem length_dirtyBuffer : dirtyBuffer.length = sizeofDirectoryEntry := List.length_replicate

theorem record_dirtyBuffer {index : Nat} (fits : sizeofDirectoryEntry * (index + 1) ≤ dirtyBuffer.length) :
    record dirtyBuffer index = dirtyBuffer := by
  have first : index = 0 := by
    rw [length_dirtyBuffer] at fits
    simp only [sizeofDirectoryEntry] at fits
    omega
  unfold record
  rw [first, Nat.mul_zero, List.drop_zero]
  exact List.take_of_length_le (le_of_eq length_dirtyBuffer)

theorem userEntry_dirty {entry : List UInt8} (whole : entry.length = sizeofSFSDirectoryEntry)
    (same : userEntry (overwritten entry dirtyBuffer) = slotEntry entry) :
    (slotEntry entry).name.length < kSFSMaxFilenameLength := by
  by_contra long
  have name := userEntry_long whole (not_lt.mp long) dirtyBuffer
  have longer := congrArg List.length name
  have ones : ((dirtyBuffer.drop sizeofSFSDirectoryEntry).takeWhile (· ≠ 0)).length = 228 := by
    unfold dirtyBuffer
    rw [List.drop_replicate, List.takeWhile_replicate]
    exact List.length_replicate
  rw [same, List.length_append, ones] at longer
  omega

theorem length_of_mem_liveSlots {entry : List UInt8} (member : entry ∈ fs.liveSlots value.blockMap slot count) :
    entry.length = sizeofSFSDirectoryEntry := by
  obtain ⟨position, _, rfl⟩ := List.mem_map.mp (List.mem_filter.mp member).1
  exact length_slotAt fs value.blockMap position

/-- Whatever the buffers hold before: the reads deliver the live entries of a directory, each
one once, in slot order and with its name, exactly when no name fills its field. -/
theorem readAll_enumerates_iff (enumerable : fs.Enumerable ref value count) :
    (∀ stack buffers, (∀ call, sizeofDirectoryEntry ≤ (buffers call).length) →
      ∀ fuel, (fs.liveSlots value.blockMap 0 count).length < fuel →
        ∃ after, readAll stack buffers fuel 0 ⟨ref, 0⟩ fs =
          .ok (some ((fs.liveSlots value.blockMap 0 count).map slotEntry)) after) ↔
      ∀ entry ∈ fs.liveSlots value.blockMap 0 count, (slotEntry entry).name.length < kSFSMaxFilenameLength := by
  constructor
  · intro delivers entry member
    obtain ⟨after, expected⟩ := delivers [] (fun _ => dirtyBuffer) (fun _ => le_of_eq length_dirtyBuffer.symm) _ (Nat.lt_succ_self _)
    obtain ⟨final, seen⟩ := @readAll_eq _ _ _ _ _ _ _ [] (fun _ => dirtyBuffer)
      (fun entry => userEntry (overwritten entry dirtyBuffer)) (fun _ => le_of_eq length_dirtyBuffer.symm) _ 0 enumerable.browsed (Nat.zero_le count)
      (fun call index fits entry _ => by rw [record_dirtyBuffer fits]) (Nat.lt_succ_self _)
    have same := expected.symm.trans seen
    have entries := Option.some.inj (Outcome.ok.inj same).1
    exact userEntry_dirty (length_of_mem_liveSlots member) (List.map_inj_left.mp entries entry member).symm
  · intro short stack buffers room fuel lasts
    exact readAll_eq stack slotEntry room fuel 0 enumerable.browsed (Nat.zero_le count)
      (fun call index _ entry member => userEntry_short (length_of_mem_liveSlots member) (short entry member) _) lasts

end Enumeration

/-- The root directory with a file "a" in it. -/
theorem openedFile_enumerates :
    ∃ fs value, fs.Enumerable 0 value 3 ∧
      ∀ stack buffers, (∀ call, sizeofDirectoryEntry ≤ (buffers call).length) →
        ∀ fuel, (fs.liveSlots value.blockMap 0 3).length < fuel →
          ∃ after, readAll stack buffers fuel 0 ⟨0, 0⟩ fs =
            .ok (some ((fs.liveSlots value.blockMap 0 3).map slotEntry)) after := by
  have performs : ((performAll (fun fs operation => operation.orderly fs) openedFile [] (emptyVolume 64)).bind
      fun reached => (reached.2.inode 0).map fun value =>
        (reached.2.inodesInUse.contains 0, value.size,
          (reached.2.liveSlots value.blockMap 0 3).all fun entry => decide ((slotEntry entry).name.length < kSFSMaxFilenameLength))) =
        some (true, 96, true) := by
    decide +kernel
  obtain ⟨⟨calls, fs⟩, performed, performs⟩ := Option.bind_eq_some_iff.mp performs
  obtain ⟨value, stored, state⟩ := Option.map_eq_some_iff.mp performs
  simp only [Prod.mk.injEq, List.contains_iff_mem, List.all_eq_true, decide_eq_true_eq] at state
  obtain ⟨inUse, size, short⟩ := state
  have consistent := runs_consistent rfl (by decide) emptyVolume_mounts (runs_performAll .nil performed)
  have enumerable : fs.Enumerable 0 value 3 := consistent.enumerable ⟨inUse, stored⟩ size (by decide)
  exact ⟨fs, value, enumerable, (readAll_enumerates_iff enumerable).mpr short⟩

def longFile : List Operation := [.acquireNodeWithId 2, .createFile longestName 0 ⟨0, 0⟩ 0 0x1a4]

/-- The name of the file goes on with the bytes of the buffer. -/
theorem longFile_not_enumerated :
    ∃ fs calls value after, Runs OrderlyStep (emptyVolume 64) calls fs ∧ fs.Enumerable 0 value 3 ∧
      (fs.liveSlots value.blockMap 0 3).map slotEntry = [⟨[0x2e], 2⟩, ⟨[0x2e, 0x2e], 2⟩, ⟨longestName, 4⟩] ∧
      readAll [] (fun _ => dirtyBuffer) 4 0 ⟨0, 0⟩ fs =
        .ok (some [⟨[0x2e], 2⟩, ⟨[0x2e, 0x2e], 2⟩, ⟨longestName ++ List.replicate 228 1, 4⟩]) after := by
  have performs : ((performAll (fun fs operation => operation.orderly fs) longFile [] (emptyVolume 64)).bind
      fun reached => (reached.2.inode 0).map fun value =>
        (reached.2.inodesInUse.contains 0, value.size, (reached.2.liveSlots value.blockMap 0 3).map slotEntry,
          (readAll [] (fun _ => dirtyBuffer) 4 0 ⟨0, 0⟩ reached.2).value?)) =
        some (true, 96, [⟨[0x2e], 2⟩, ⟨[0x2e, 0x2e], 2⟩, ⟨longestName, 4⟩],
          some (some [⟨[0x2e], 2⟩, ⟨[0x2e, 0x2e], 2⟩, ⟨longestName ++ List.replicate 228 1, 4⟩])) := by
    decide +kernel
  obtain ⟨⟨calls, fs⟩, performed, performs⟩ := Option.bind_eq_some_iff.mp performs
  obtain ⟨value, stored, state⟩ := Option.map_eq_some_iff.mp performs
  simp only [Prod.mk.injEq, List.contains_iff_mem] at state
  obtain ⟨inUse, size, entries, returned⟩ := state
  have runs := runs_performAll .nil performed
  have consistent := runs_consistent rfl (by decide) emptyVolume_mounts runs
  exact ⟨fs, calls, value, _, runs, consistent.enumerable ⟨inUse, stored⟩ size (by decide), entries,
    Outcome.eq_ok returned fs⟩

end Apollo.Serenafs
