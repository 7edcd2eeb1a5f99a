import Apollo.Libc.Stream
import Apollo.Libc.StreamMemory

/-!
# Memory streams as files

The reading, writing and positioning functions of `Stream.c` on a memory
stream, next to the file that a memory stream is meant to be: its bytes, a
position, and the size up to which it grows.
-/

set_option autoImplicit false

namespace Apollo.Libc

/-! ## The streams -/

structure MemoryStream where
  flags : FileFlags
  vars : MemoryFileVars

namespace MemoryStream

def isReadable (s : MemoryStream) : Bool := s.flags.mode &&& kStreamModeRead != 0

def isWritable (s : MemoryStream) : Bool := s.flags.mode &&& kStreamModeWrite != 0

/-- `fgetc`; `buf` is what its local variable of that name holds before the callback is called. -/
def fgetc (s : MemoryStream) (buf : UInt8) : MemoryStream × Option UInt8 :=
  if s.isReadable = false then ({ s with flags := { s.flags with hasError := true } }, none)
  else
    let result := s.vars.memRead (fun _ => buf) 1
    if result.nBytesRead = 1 then (⟨{ s.flags with hasEof := false }, result.vars⟩, some (result.buffer 0))
    else (⟨{ s.flags with hasEof := true }, result.vars⟩, none)

/-- The loop of `fread`: the bytes that it stores in the buffer of its caller.  `buf` is for the calls
of `fgetc`, by the number of bytes that are left. -/
def freadLoop (buf : Nat → UInt8) : Nat → MemoryStream → MemoryStream × List UInt8
  | 0, s => (s, [])
  | nBytesToRead + 1, s =>
    match s.fgetc (buf nBytesToRead) with
    | (s, none) => (s, [])
    | (s, some ch) =>
      let (s, bytes) := freadLoop buf nBytesToRead s
      (s, ch :: bytes)

/-- `fread`: the bytes in the buffer and the number of elements. -/
def fread (s : MemoryStream) (size count : BitVec 32) (buf : Nat → UInt8) : MemoryStream × List UInt8 × Nat :=
  if size = 0 ∨ count = 0 then (s, [], 0)
  else
    let (s, bytes) := freadLoop buf (size * count).toNat s
    (s, bytes, bytes.length / size.toNat)

/-- `fputc`; `block` is what a new store holds behind the bytes of the old one. -/
def fputc (s : MemoryStream) (ch : UInt8) (block : Nat → UInt8) : MemoryStream × Bool :=
  if s.isWritable = false then ({ s with flags := { s.flags with hasError := true } }, false)
  else
    let result := s.vars.memWrite [ch] (some block)
    match result.error with
    | none =>
      if result.nBytesWritten = 1 then (⟨{ s.flags with hasEof := false }, result.vars⟩, true)
      else (⟨{ s.flags with hasEof := true }, result.vars⟩, false)
    | some _ => (⟨{ s.flags with hasError := true }, result.vars⟩, false)

/-- The loop of `fwrite`; a byte that could not be written is counted. -/
def fwriteLoop (block : Nat → Nat → UInt8) : List UInt8 → MemoryStream → MemoryStream × Nat
  | [], s => (s, 0)
  | ch :: rest, s =>
    match s.fputc ch (block rest.length) with
    | (s, false) => (s, 1)
    | (s, true) =>
      let (s, nBytesWritten) := fwriteLoop block rest s
      (s, nBytesWritten + 1)

/-- `fwrite`; the buffer has `size * count` bytes. -/
def fwrite (s : MemoryStream) (size : BitVec 32) (buffer : List UInt8) (block : Nat → Nat → UInt8) :
    MemoryStream × Nat :=
  if size = 0 ∨ buffer = [] then (s, 0)
  else
    let (s, nBytesWritten) := fwriteLoop block buffer s
    (s, nBytesWritten / size.toNat)

/-- `fseek`; flushing does nothing. -/
def fseek (s : MemoryStream) (offset : Int) (whence : Whence) : MemoryStream :=
  { flags := if offset = 0 ∧ whence = .cur then s.flags else { s.flags with hasEof := false }
    vars := s.vars.memSeek offset whence }

/-- `ftell`; `curpos` is what its local variable of that name holds, in which the callback does not
store anything. -/
def ftell (s : MemoryStream) (curpos : Int) : MemoryStream × Int :=
  ({ s with vars := s.vars.memSeek 0 .cur },
    if curpos > 2147483647 then -1 else (BitVec.ofInt 32 curpos).toInt)

end MemoryStream

/-- `__fopen_memory_init`, when it accepts the mode. -/
def FileMemory.openStream (mem : FileMemory) (mode : List Char) : MemoryStream :=
  ⟨.opened true (some mode), mem.fopenMemoryInit⟩

/-! ## The files -/

/-- `atEof` is set when the end of the file was reported. -/
structure ByteFile where
  bytes : List UInt8
  position : Nat
  limit : Nat
  isReadable : Bool
  isWritable : Bool
  atEof : Bool

namespace ByteFile

def get (file : ByteFile) : ByteFile × Option UInt8 :=
  if file.isReadable = false then (file, none)
  else
    match file.bytes[file.position]? with
    | some byte => ({ file with position := file.position + 1, atEof := false }, some byte)
    | none => ({ file with atEof := true }, none)

def read : Nat → ByteFile → ByteFile × List UInt8
  | 0, file => (file, [])
  | count + 1, file =>
    match file.get with
    | (file, none) => (file, [])
    | (file, some byte) =>
      let (file, bytes) := read count file
      (file, byte :: bytes)

def put (file : ByteFile) (byte : UInt8) : ByteFile × Bool :=
  if file.isWritable = true ∧ file.position < file.limit then
    ({ file with
        bytes := file.bytes.take file.position ++ byte :: file.bytes.drop (file.position + 1)
        position := file.position + 1
        atEof := false },
      true)
  else (file, false)

def write : List UInt8 → ByteFile → ByteFile
  | [], file => file
  | byte :: rest, file =>
    match file.put byte with
    | (file, false) => file
    | (file, true) => write rest file

def target (file : ByteFile) (offset : Int) : Whence → Int
  | .cur => file.position + offset
  | .fromEnd => file.bytes.length + offset
  | .set => offset

def seek (file : ByteFile) (offset : Int) (whence : Whence) : ByteFile :=
  let position := (file.target offset whence).toNat
  { file with
    bytes := file.bytes ++ List.replicate (position - file.bytes.length) 0
    position := position
    atEof := if offset = 0 ∧ whence = .cur then file.atEof else false }

end ByteFile

/-! ## Sequences of calls -/

inductive FileCall
  | fgetc (buf : UInt8)
  | fread (size count : BitVec 32) (buf : Nat → UInt8)
  | fputc (ch : UInt8) (block : Nat → UInt8)
  | fwrite (size : BitVec 32) (buffer : List UInt8) (block : Nat → Nat → UInt8)
  | fseek (offset : Int) (whence : Whence)
  | ftell (curpos : Int)

inductive FileReply
  | byte (ch : Option UInt8)
  | bytes (bytes : List UInt8) (count : Nat)
  | position (offset : Int)
  | done
  deriving DecidableEq

namespace FileCall

/-- The call on a memory stream, with the reply and with what `feof` reports behind it. -/
def onStream (s : MemoryStream) : FileCall → MemoryStream × FileReply
  | fgetc buf => ((s.fgetc buf).1, .byte (s.fgetc buf).2)
  | fread size count buf => ((s.fread size count buf).1, .bytes (s.fread size count buf).2.1 (s.fread size count buf).2.2)
  | fputc ch block => ((s.fputc ch block).1, .done)
  | fwrite size buffer block => ((s.fwrite size buffer block).1, .done)
  | fseek offset whence => (s.fseek offset whence, .done)
  | ftell curpos => ((s.ftell curpos).1, .position (s.ftell curpos).2)

def onFile (file : ByteFile) : FileCall → ByteFile × FileReply
  | fgetc _ => (file.get.1, .byte file.get.2)
  | fread size count _ =>
    if size = 0 ∨ count = 0 then (file, .bytes [] 0)
    else
      let (file, bytes) := file.read (size * count).toNat
      (file, .bytes bytes (bytes.length / size.toNat))
  | fputc ch _ => ((file.put ch).1, .done)
  | fwrite size buffer _ => (if size = 0 then file else file.write buffer, .done)
  | fseek offset whence => (file.seek offset whence, .done)
  | ftell _ => (file, .position file.position)

end FileCall

namespace FileCalls

/-- The replies, each with what `feof` reports behind the call. -/
def streamReplies : List FileCall → MemoryStream → List (FileReply × Bool)
  | [], _ => []
  | call :: rest, s =>
    let (s, reply) := call.onStream s
    (reply, s.flags.hasEof) :: streamReplies rest s

def fileReplies : List FileCall → ByteFile → List (FileReply × Bool)
  | [], _ => []
  | call :: rest, file =>
    let (file, reply) := call.onFile file
    (reply, file.atEof) :: fileReplies rest file

end FileCalls

/-! ## The file of a stream -/

namespace MemoryFileVars

variable {mp : MemoryFileVars}

def content (mp : MemoryFileVars) : List UInt8 :=
  (List.range mp.eofPosition.toNat).map fun index => if index < mp.currentCapacity.toNat then mp.store index else 0

@[simp] theorem content_length (mp : MemoryFileVars) : mp.content.length = mp.eofPosition.toNat := by
  simp [content]

theorem content_getElem? (mp : MemoryFileVars) (index : Nat) :
    mp.content[index]? =
      if index < mp.eofPosition.toNat then some (if index < mp.currentCapacity.toNat then mp.store index else 0)
      else none := by
  unfold content
  rw [List.getElem?_map]
  split
  · rename_i inside
    rw [List.getElem?_range inside]
    rfl
  · rename_i outside
    rw [List.getElem?_eq_none (by simpa using outside)]
    rfl

/-- A file ends at most at the capacity or where a seek has been. -/
structure Sound (mp : MemoryFileVars) : Prop where
  placed : mp.Placed
  null : mp.storeIsNull = true → mp.currentCapacity.toNat = 0
  bounded : mp.eofPosition.toNat ≤ mp.currentCapacity.toNat ∨ mp.eofPosition.toNat < 2147483648

theorem memRead_at_end (pBuffer : Nat → UInt8) (ends : mp.currentPosition = mp.eofPosition) :
    (mp.memRead pBuffer 1).nBytesRead = 0 ∧ (mp.memRead pBuffer 1).vars = mp := by
  have placed : mp.Placed := by rw [Placed, ends]
  have none : mp.readable 1 = 0 := by rw [readable, ends, Nat.sub_self, Nat.min_zero]
  have copied : mp.copyable 1 = 0 := Nat.eq_zero_of_le_zero (none ▸ mp.copyable_le 1)
  rw [memRead_eq (by decide) placed, none, copied]
  refine ⟨rfl, ?_⟩
  have same : overwrite mp.store (mp.currentPosition.toNat + 0) (0 - 0) (fun _ => 0) = mp.store := by
    funext index
    exact if_neg (by omega)
  have position : BitVec.ofNat 32 (mp.currentPosition.toNat + 0) = mp.currentPosition := by simp
  rw [same, position]

theorem memRead_inside (pBuffer : Nat → UInt8) (inside : mp.currentPosition.toNat < mp.eofPosition.toNat)
    (stored : mp.currentPosition.toNat < mp.currentCapacity.toNat) :
    (mp.memRead pBuffer 1).nBytesRead = 1 ∧
      (mp.memRead pBuffer 1).vars = { mp with currentPosition := BitVec.ofNat 32 (mp.currentPosition.toNat + 1) } ∧
      (mp.memRead pBuffer 1).buffer 0 = mp.store mp.currentPosition.toNat := by
  have one : mp.readable 1 = 1 := by
    unfold readable
    omega
  have copied : mp.copyable 1 = 1 := by
    rw [copyable, if_pos (BitVec.le_def.mpr stored.le), one]
    omega
  have same : overwrite mp.store (mp.currentPosition.toNat + 1) (1 - 1) (fun _ => 0) = mp.store := by
    funext index
    exact if_neg (by omega)
  rw [memRead_eq (by decide) inside.le, one, copied, same]
  simp [overwrite]

end MemoryFileVars

namespace MemoryStream

variable {s : MemoryStream}

def file (s : MemoryStream) : ByteFile where
  bytes := s.vars.content
  position := s.vars.currentPosition.toNat
  limit := max s.vars.currentCapacity.toNat s.vars.maximumCapacity.toNat
  isReadable := s.isReadable
  isWritable := s.isWritable
  atEof := s.flags.hasEof

/-- `fgetc` is a read of one byte as long as it does not meet the gap behind the capacity. -/
theorem fgetc_refines (sound : s.vars.Sound) (buf : UInt8)
    (clear : s.isReadable = false ∨ s.vars.currentPosition = s.vars.eofPosition ∨
      s.vars.currentPosition.toNat < s.vars.currentCapacity.toNat) :
    ∃ after ch, s.fgetc buf = (after, ch) ∧ s.file.get = (after.file, ch) ∧ after.vars.Sound ∧
      (ch ≠ none → s.isReadable ≠ false ∧ s.vars.currentPosition ≠ s.vars.eofPosition ∧
        after.vars.currentPosition.toNat = s.vars.currentPosition.toNat + 1 ∧
        after.vars.eofPosition = s.vars.eofPosition ∧ after.vars.currentCapacity = s.vars.currentCapacity) := by
  have byte : s.file.bytes[s.file.position]? = _ := s.vars.content_getElem? s.vars.currentPosition.toNat
  by_cases closed : s.isReadable = false
  · refine ⟨{ s with flags := { s.flags with hasError := true } }, none, if_pos closed, if_pos closed, sound, ?_⟩
    exact fun some => absurd rfl some
  by_cases ends : s.vars.currentPosition = s.vars.eofPosition
  · obtain ⟨count, vars⟩ := s.vars.memRead_at_end (fun _ => buf) ends
    have none : s.file.bytes[s.file.position]? = none := by
      rw [byte, ends, if_neg (Nat.lt_irrefl _)]
    refine ⟨⟨{ s.flags with hasEof := true }, s.vars⟩, Option.none, ?_, ?_, sound, fun some => absurd rfl some⟩
    · simp only [fgetc, if_neg closed, count, vars]
      rfl
    · refine (if_neg closed).trans ?_
      rw [none]
      rfl
  · have inside : s.vars.currentPosition.toNat < s.vars.eofPosition.toNat :=
      Nat.lt_of_le_of_ne sound.placed fun same => ends (BitVec.eq_of_toNat_eq same)
    have stored := (clear.resolve_left closed).resolve_left ends
    obtain ⟨count, vars, delivered⟩ := s.vars.memRead_inside (fun _ => buf) inside stored
    have position : (BitVec.ofNat 32 (s.vars.currentPosition.toNat + 1)).toNat = s.vars.currentPosition.toNat + 1 := by
      rw [BitVec.toNat_ofNat]
      omega
    rw [if_pos inside, if_pos stored] at byte
    refine ⟨⟨{ s.flags with hasEof := false },
      { s.vars with currentPosition := BitVec.ofNat 32 (s.vars.currentPosition.toNat + 1) }⟩,
      some (s.vars.store s.vars.currentPosition.toNat), ?_, ?_, ⟨?_, sound.null, sound.bounded⟩,
      fun _ => ⟨closed, ends, position, rfl, rfl⟩⟩
    · simp only [fgetc, if_neg closed, count, vars, delivered]
      rfl
    · refine (if_neg closed).trans ?_
      rw [byte]
      simp only [file, position]
      rfl
    · rw [MemoryFileVars.Placed, position]
      exact inside

theorem freadLoop_refines (sound : s.vars.Sound) (buf : Nat → UInt8) (nBytesToRead : Nat)
    (clear : s.isReadable = false ∨ s.vars.currentPosition = s.vars.eofPosition ∨
      min (s.vars.currentPosition.toNat + nBytesToRead) s.vars.eofPosition.toNat ≤ s.vars.currentCapacity.toNat) :
    ∃ after bytes, freadLoop buf nBytesToRead s = (after, bytes) ∧ s.file.read nBytesToRead = (after.file, bytes) ∧
      after.vars.Sound := by
  induction nBytesToRead generalizing s with
  | zero => exact ⟨s, [], rfl, rfl, sound⟩
  | succ nBytesToRead ih =>
    have clear_one : s.isReadable = false ∨ s.vars.currentPosition = s.vars.eofPosition ∨
        s.vars.currentPosition.toNat < s.vars.currentCapacity.toNat := by
      have placed : s.vars.currentPosition.toNat ≤ s.vars.eofPosition.toNat := sound.placed
      rcases clear with closed | ends | clear
      · exact .inl closed
      · exact .inr (.inl ends)
      · by_cases ends : s.vars.currentPosition.toNat = s.vars.eofPosition.toNat
        · exact .inr (.inl (BitVec.eq_of_toNat_eq ends))
        · exact .inr (.inr (by omega))
    obtain ⟨after, ch, gets, file_gets, sound', moved⟩ := fgetc_refines sound (buf nBytesToRead) clear_one
    simp only [freadLoop, ByteFile.read, gets, file_gets]
    cases ch with
    | none => exact ⟨after, [], rfl, rfl, sound'⟩
    | some ch =>
      obtain ⟨isReadable, inside, position, eof, capacity⟩ := moved (by simp)
      have later : after.isReadable = false ∨ after.vars.currentPosition = after.vars.eofPosition ∨
          min (after.vars.currentPosition.toNat + nBytesToRead) after.vars.eofPosition.toNat ≤
            after.vars.currentCapacity.toNat := by
        rw [position, eof, capacity]
        have room := (clear.resolve_left isReadable).resolve_left inside
        exact .inr (.inr (by omega))
      obtain ⟨last, bytes, reads, file_reads, sound''⟩ := ih sound' later
      dsimp only
      rw [reads, file_reads]
      exact ⟨last, ch :: bytes, rfl, rfl, sound''⟩

end MemoryStream

namespace MemoryFileVars

variable {mp : MemoryFileVars}

theorem Sound.expand (sound : mp.Sound) (newCurrentPosition : BitVec 32) (realloc : Option (Nat → UInt8)) :
    (mp.expand newCurrentPosition realloc).1.Sound ∧ (mp.expand newCurrentPosition realloc).1.content = mp.content ∧
      max (mp.expand newCurrentPosition realloc).1.currentCapacity.toNat
          (mp.expand newCurrentPosition realloc).1.maximumCapacity.toNat =
        max mp.currentCapacity.toNat mp.maximumCapacity.toNat := by
  rcases mp.expand_cases newCurrentPosition realloc with ⟨same, -⟩ | ⟨block, -, needed, allowed, grown⟩
  · rw [same]
    exact ⟨sound, rfl, rfl⟩
  · have larger := newCapacity_gt needed allowed
    have cleared := toNat_nBytesToClear larger.le
    rw [grown]
    refine ⟨⟨sound.placed, fun null => absurd null Bool.false_ne_true, ?_⟩, ?_, ?_⟩
    · exact sound.bounded.imp (fun below => below.trans larger.le) id
    · refine List.ext_getElem? ?_
      intro index
      simp only [content_getElem?, withStore]
      by_cases inside : index < mp.eofPosition.toNat
      · rw [if_pos inside, if_pos inside]
        by_cases stored : index < mp.currentCapacity.toNat
        · have present : mp.storeIsNull = false := by
            rw [Bool.eq_false_iff]
            intro null
            have empty := sound.null null
            omega
          rw [if_pos (stored.trans larger), if_pos stored, overwrite, if_neg (by omega), if_pos ⟨present, stored⟩]
        · rw [if_neg stored, overwrite, cleared, if_pos (Nat.lt_of_le_of_lt (Nat.not_lt.mp stored) inside)]
          by_cases taken : index < (mp.newCapacity newCurrentPosition).toNat
          · rw [if_pos taken, if_pos (by omega)]
          · rw [if_neg taken]
      · rw [if_neg inside, if_neg inside]
    · have limited : (mp.newCapacity newCurrentPosition).toNat ≤ mp.maximumCapacity.toNat := by
        rw [newCapacity, toNat_sizeMin]
        exact Nat.min_le_right _ _
      dsimp only [withStore]
      omega

theorem expand_one (sound : mp.Sound) (block : Nat → UInt8)
    (clear : mp.currentPosition.toNat ≤ max mp.currentCapacity.toNat mp.maximumCapacity.toNat) :
    mp.currentPosition.toNat ≤ (mp.expand (mp.currentPosition + 1) (some block)).1.currentCapacity.toNat ∧
      (mp.currentPosition.toNat < (mp.expand (mp.currentPosition + 1) (some block)).1.currentCapacity.toNat ↔
        mp.currentPosition.toNat < max mp.currentCapacity.toNat mp.maximumCapacity.toNat) := by
  have placed : mp.currentPosition.toNat ≤ mp.eofPosition.toNat := sound.placed
  have bounded := sound.bounded
  have moved : (mp.currentPosition + 1).toNat = (mp.currentPosition.toNat + 1) % 4294967296 := by
    simp [BitVec.toNat_add]
  rcases mp.expand_cases (mp.currentPosition + 1) (some block) with ⟨same, enough⟩ | ⟨_, _, needed, allowed, grown⟩
  · rw [same]
    simp only [BitVec.le_def, moved, reduceCtorEq, or_false] at enough
    dsimp only
    omega
  · rw [grown]
    rw [BitVec.lt_def] at allowed
    simp only [withStore, newCapacity, toNat_sizeMin, toNat_sizeMax, moved]
    omega

theorem content_stored (mp : MemoryFileVars) (ch : UInt8) (inside : mp.currentPosition.toNat < mp.currentCapacity.toNat)
    (placed : mp.Placed) {after : MemoryFileVars}
    (store : after.store = overwrite mp.store mp.currentPosition.toNat 1 fun index => [ch].getD index 0)
    (capacity : after.currentCapacity = mp.currentCapacity)
    (eof : after.eofPosition.toNat = max mp.eofPosition.toNat (mp.currentPosition.toNat + 1)) :
    after.content =
      mp.content.take mp.currentPosition.toNat ++ ch :: mp.content.drop (mp.currentPosition.toNat + 1) := by
  refine List.ext_getElem? ?_
  intro index
  rw [content_getElem?, store, capacity, eof, List.getElem?_append, List.length_take, content_length,
    Nat.min_eq_left placed]
  rcases Nat.lt_trichotomy index mp.currentPosition.toNat with before | here | behind
  · have elsewhere : ¬ (mp.currentPosition.toNat ≤ index ∧ index < mp.currentPosition.toNat + 1) := by omega
    rw [if_pos before, List.getElem?_take_of_lt before, content_getElem?, if_pos (before.trans inside), overwrite,
      if_neg elsewhere, if_pos (Nat.lt_of_lt_of_le before placed), if_pos (before.trans inside), if_pos (by omega)]
  · subst here
    rw [if_neg (Nat.lt_irrefl _), if_pos inside, Nat.sub_self, overwrite, if_pos (by omega), Nat.sub_self,
      if_pos (by omega)]
    rfl
  · obtain ⟨offset, rfl⟩ : ∃ offset, index = mp.currentPosition.toNat + 1 + offset :=
      ⟨index - (mp.currentPosition.toNat + 1), by omega⟩
    have elsewhere : ¬ (mp.currentPosition.toNat ≤ mp.currentPosition.toNat + 1 + offset ∧
        mp.currentPosition.toNat + 1 + offset < mp.currentPosition.toNat + 1) := by omega
    have next : mp.currentPosition.toNat + 1 + offset - mp.currentPosition.toNat = offset + 1 := by omega
    have same : mp.currentPosition.toNat + 1 + offset < max mp.eofPosition.toNat (mp.currentPosition.toNat + 1) ↔
        mp.currentPosition.toNat + 1 + offset < mp.eofPosition.toNat := by omega
    rw [if_neg (Nat.not_lt.mpr behind.le), next, List.getElem?_cons_succ, List.getElem?_drop, content_getElem?,
      overwrite, if_neg elsewhere]
    simp only [same]

theorem memWrite_full (mp : MemoryFileVars) (ch : UInt8) (realloc : Option (Nat → UInt8))
    (full : mp.currentPosition.toNat = (mp.expand (mp.currentPosition + 1) realloc).1.currentCapacity.toNat) :
    (mp.memWrite [ch] realloc).error = some .ENOSPC ∧
      (mp.memWrite [ch] realloc).vars = (mp.expand (mp.currentPosition + 1) realloc).1 := by
  have none : sizeMin (BitVec.ofNat 32 [ch].length)
      ((mp.expand (mp.currentPosition + BitVec.ofNat 32 [ch].length) realloc).1.currentCapacity -
        mp.currentPosition) = 0 := by
    refine BitVec.eq_of_toNat_eq ?_
    rw [toNat_written (by simp)]
    exact (if_pos full.le).trans (by rw [full]; simp)
  simp only [memWrite, expand_currentPosition, none, if_true]
  exact ⟨trivial, rfl⟩

theorem memWrite_room (mp : MemoryFileVars) (ch : UInt8) (realloc : Option (Nat → UInt8))
    (room : mp.currentPosition.toNat < (mp.expand (mp.currentPosition + 1) realloc).1.currentCapacity.toNat) :
    (mp.memWrite [ch] realloc).error = none ∧ (mp.memWrite [ch] realloc).nBytesWritten = 1 ∧
      (mp.memWrite [ch] realloc).vars =
        { (mp.expand (mp.currentPosition + 1) realloc).1 with
          store := overwrite (mp.expand (mp.currentPosition + 1) realloc).1.store mp.currentPosition.toNat 1
            fun index => [ch].getD index 0
          currentPosition := mp.currentPosition + 1
          eofPosition := if mp.currentPosition + 1 > mp.eofPosition then mp.currentPosition + 1 else mp.eofPosition } := by
  have one : sizeMin (BitVec.ofNat 32 [ch].length)
      ((mp.expand (mp.currentPosition + BitVec.ofNat 32 [ch].length) realloc).1.currentCapacity -
        mp.currentPosition) = 1 := by
    refine BitVec.eq_of_toNat_eq ?_
    rw [toNat_written (by simp)]
    refine (if_pos room.le).trans ?_
    exact Nat.min_eq_left (Nat.sub_pos_of_lt room)
  have some : (1 : BitVec 32) ≠ 0 := by decide
  simp only [memWrite, expand_currentPosition, expand_eofPosition, one, if_neg some]
  exact ⟨trivial, trivial, rfl⟩

end MemoryFileVars

namespace MemoryStream

variable {s : MemoryStream}

/-- A write of one byte is the same on the stream and on its file, also at the limit. -/
theorem fputc_refines (sound : s.vars.Sound) (ch : UInt8) (block : Nat → UInt8)
    (clear : s.isWritable = false ∨ s.file.position ≤ s.file.limit) :
    ∃ after written, s.fputc ch block = (after, written) ∧ s.file.put ch = (after.file, written) ∧ after.vars.Sound ∧
      (written = true → after.file.position ≤ after.file.limit) := by
  by_cases closed : s.isWritable = false
  · refine ⟨{ s with flags := { s.flags with hasError := true } }, false, if_pos closed, ?_, sound, by simp⟩
    exact if_neg fun writes => by simp [file, closed] at writes
  obtain ⟨reaches, room⟩ := MemoryFileVars.expand_one sound block (clear.resolve_left closed)
  obtain ⟨sound', same, limit⟩ := sound.expand (s.vars.currentPosition + 1) (some block)
  have writable : s.file.isWritable = true := by simpa [file] using closed
  generalize expanded : (s.vars.expand (s.vars.currentPosition + 1) (some block)).1 = mp at *
  have position : mp.currentPosition = s.vars.currentPosition := by rw [← expanded, MemoryFileVars.expand_currentPosition]
  have eof : mp.eofPosition = s.vars.eofPosition := by rw [← expanded, MemoryFileVars.expand_eofPosition]
  by_cases full : s.file.position < s.file.limit
  · have inside : s.vars.currentPosition.toNat < mp.currentCapacity.toNat := room.mpr full
    obtain ⟨error, count, vars⟩ := s.vars.memWrite_room ch (some block) (by rwa [expanded])
    rw [expanded] at vars
    have moved : (s.vars.currentPosition + 1).toNat = s.vars.currentPosition.toNat + 1 := by
      exact Nat.mod_eq_of_lt (Nat.lt_of_le_of_lt inside mp.currentCapacity.isLt)
    have later : (if s.vars.currentPosition + 1 > s.vars.eofPosition then s.vars.currentPosition + 1
        else s.vars.eofPosition).toNat = max s.vars.eofPosition.toNat (s.vars.currentPosition.toNat + 1) := by
      simp only [gt_iff_lt, BitVec.lt_def, moved]
      split <;> omega
    have stored : (s.vars.memWrite [ch] (some block)).vars.content =
        mp.content.take mp.currentPosition.toNat ++ ch :: mp.content.drop (mp.currentPosition.toNat + 1) := by
      rw [vars]
      refine mp.content_stored ch (by rwa [position]) sound'.placed ?_ rfl ?_
      · rw [position]
      · rw [position, eof]
        exact later
    refine ⟨⟨{ s.flags with hasEof := false }, (s.vars.memWrite [ch] (some block)).vars⟩, true, ?_, ?_, ?_, ?_⟩
    · simp only [fputc, if_neg closed, error, count, if_true]
    · refine (if_pos ⟨writable, full⟩).trans ?_
      rw [vars] at stored
      simp only [file, vars, stored, position, same, moved, limit]
      rfl
    · rw [vars]
      refine ⟨MemoryFileVars.toNat_le_later _ _, sound'.null, ?_⟩
      have bounded := sound'.bounded
      rw [eof] at bounded
      simp only [later]
      omega
    · simp only [file, vars, moved]
      omega
  · obtain ⟨error, vars⟩ := s.vars.memWrite_full ch (some block) (by
      have := mt room.mp full
      rw [expanded]
      omega)
    rw [expanded] at vars
    refine ⟨⟨{ s.flags with hasError := true }, mp⟩, false, ?_, ?_, sound', by simp⟩
    · simp only [fputc, if_neg closed, error, vars]
    · refine (if_neg fun writes => full writes.2).trans ?_
      simp only [file, same, position, limit]
      rfl

theorem fwriteLoop_refines (sound : s.vars.Sound) (block : Nat → Nat → UInt8) (buffer : List UInt8)
    (clear : s.isWritable = false ∨ s.file.position ≤ s.file.limit) :
    (fwriteLoop block buffer s).1.vars.Sound ∧ (fwriteLoop block buffer s).1.file = s.file.write buffer := by
  induction buffer generalizing s with
  | nil => exact ⟨sound, rfl⟩
  | cons ch rest ih =>
    obtain ⟨after, written, puts, file_puts, sound', below⟩ := fputc_refines sound ch (block rest.length) clear
    simp only [fwriteLoop, ByteFile.write, puts, file_puts]
    cases written with
    | false => exact ⟨sound', rfl⟩
    | true => exact ih sound' (.inr (below rfl))

/-- A seek is the same on the stream and on its file when the store holds zeros between the end of
the file and the new position. -/
theorem fseek_refines (sound : s.vars.Sound) (offset : Int) (whence : Whence)
    (nonneg : 0 ≤ s.file.target offset whence) (small : s.file.target offset whence < 2147483648)
    (clear : ∀ index, s.vars.eofPosition.toNat ≤ index → (index : Int) < s.file.target offset whence →
      index < s.vars.currentCapacity.toNat → s.vars.store index = 0) :
    (s.fseek offset whence).vars.Sound ∧ (s.fseek offset whence).file = s.file.seek offset whence := by
  have aimed : s.vars.newPosition offset whence = BitVec.ofInt 32 (s.file.target offset whence) := by
    cases whence with
    | cur => rfl
    | fromEnd => simp [MemoryFileVars.newPosition, ByteFile.target, file]
    | set => rfl
  have position : (s.vars.newPosition offset whence).toNat = (s.file.target offset whence).toNat := by
    rw [aimed, BitVec.toNat_ofInt]
    omega
  have eof : (if s.vars.newPosition offset whence > s.vars.eofPosition then s.vars.newPosition offset whence
      else s.vars.eofPosition).toNat = max s.vars.eofPosition.toNat (s.file.target offset whence).toNat := by
    simp only [gt_iff_lt, BitVec.lt_def, position]
    split <;> omega
  constructor
  · refine ⟨MemoryFileVars.toNat_le_later _ _, sound.null, ?_⟩
    have bounded := sound.bounded
    simp only [fseek, MemoryFileVars.memSeek, eof]
    omega
  · have bytes : (s.vars.memSeek offset whence).content =
        s.vars.content ++ List.replicate ((s.file.target offset whence).toNat - s.vars.content.length) 0 := by
      refine List.ext_getElem? ?_
      intro index
      simp only [MemoryFileVars.content_getElem?, List.getElem?_append, MemoryFileVars.content_length,
        List.getElem?_replicate, MemoryFileVars.memSeek, eof]
      by_cases inside : index < s.vars.eofPosition.toNat
      · rw [if_pos inside, if_pos inside, if_pos (by omega)]
      · rw [if_neg inside]
        by_cases extended : index < (s.file.target offset whence).toNat
        · have within : index < max s.vars.eofPosition.toNat (s.file.target offset whence).toNat := by omega
          have behind : index - s.vars.eofPosition.toNat <
              (s.file.target offset whence).toNat - s.vars.eofPosition.toNat := by omega
          rw [if_pos within, if_pos behind]
          by_cases stored : index < s.vars.currentCapacity.toNat
          · rw [if_pos stored, clear index (by omega) (by omega) stored]
          · rw [if_neg stored]
        · have outside : ¬ index < max s.vars.eofPosition.toNat (s.file.target offset whence).toNat := by omega
          have beyond : ¬ index - s.vars.eofPosition.toNat <
              (s.file.target offset whence).toNat - s.vars.eofPosition.toNat := by omega
          rw [if_neg outside, if_neg beyond]
    have moved : (s.vars.memSeek offset whence).currentPosition.toNat = (s.file.target offset whence).toNat := position
    by_cases still : offset = 0 ∧ whence = .cur
    · simp only [fseek, ByteFile.seek, if_pos still]
      simp only [file, bytes, moved]
      rfl
    · simp only [fseek, ByteFile.seek, if_neg still]
      simp only [file, bytes, moved]
      rfl

end MemoryStream

/-! ## What the replies are -/

namespace FileCall

def Proper (s : MemoryStream) : FileCall → Prop
  | fseek offset whence => 0 ≤ s.file.target offset whence ∧ s.file.target offset whence < 2147483648
  | _ => True

/-- Reads stay in front of the capacity, writes start at the limit at the latest, and a seek past the
end of the file finds zeros in the store.  `ftell` returns what happens to be on the stack. -/
def Clear (s : MemoryStream) : FileCall → Prop
  | fgetc _ =>
    s.isReadable = false ∨ s.vars.currentPosition = s.vars.eofPosition ∨ s.vars.currentPosition < s.vars.currentCapacity
  | fread size count _ =>
    s.isReadable = false ∨ s.vars.currentPosition = s.vars.eofPosition ∨
      min (s.vars.currentPosition.toNat + (size * count).toNat) s.vars.eofPosition.toNat ≤ s.vars.currentCapacity.toNat
  | fputc _ _ =>
    s.isWritable = false ∨ s.vars.currentPosition ≤ s.vars.currentCapacity ∨
      s.vars.currentPosition ≤ s.vars.maximumCapacity
  | fwrite _ _ _ =>
    s.isWritable = false ∨ s.vars.currentPosition ≤ s.vars.currentCapacity ∨
      s.vars.currentPosition ≤ s.vars.maximumCapacity
  | fseek offset whence =>
    ∀ index, s.vars.eofPosition.toNat ≤ index → (index : Int) < s.file.target offset whence →
      index < s.vars.currentCapacity.toNat → s.vars.store index = 0
  | ftell _ => False

theorem limit_of_clear {s : MemoryStream}
    (clear : s.isWritable = false ∨ s.vars.currentPosition ≤ s.vars.currentCapacity ∨
      s.vars.currentPosition ≤ s.vars.maximumCapacity) :
    s.isWritable = false ∨ s.file.position ≤ s.file.limit := by
  refine clear.imp id ?_
  simp only [BitVec.le_def, MemoryStream.file]
  omega

theorem onStream_refines {s : MemoryStream} (sound : s.vars.Sound) (call : FileCall) (proper : call.Proper s)
    (clear : call.Clear s) :
    (call.onStream s).1.vars.Sound ∧ call.onFile s.file = ((call.onStream s).1.file, (call.onStream s).2) := by
  cases call with
  | fgetc buf =>
    obtain ⟨after, ch, gets, file_gets, sound', -⟩ := MemoryStream.fgetc_refines sound buf clear
    simp only [onStream, onFile, gets, file_gets]
    exact ⟨sound', trivial⟩
  | fread size count buf =>
    simp only [onStream, onFile, MemoryStream.fread]
    by_cases nothing : size = 0 ∨ count = 0
    · simp only [if_pos nothing]
      exact ⟨sound, trivial⟩
    · obtain ⟨after, bytes, reads, file_reads, sound'⟩ :=
        MemoryStream.freadLoop_refines sound buf (size * count).toNat clear
      simp only [if_neg nothing, reads, file_reads]
      exact ⟨sound', trivial⟩
  | fputc ch block =>
    obtain ⟨after, written, puts, file_puts, sound', -⟩ :=
      MemoryStream.fputc_refines sound ch block (limit_of_clear clear)
    simp only [onStream, onFile, puts, file_puts]
    exact ⟨sound', trivial⟩
  | fwrite size buffer block =>
    obtain ⟨sound', same⟩ := MemoryStream.fwriteLoop_refines sound block buffer (limit_of_clear clear)
    simp only [onStream, onFile, MemoryStream.fwrite]
    by_cases none : size = 0
    · simp only [none, true_or, if_true]
      exact ⟨sound, trivial⟩
    by_cases empty : buffer = []
    · subst empty
      simp only [or_true, if_true, ByteFile.write, ite_self]
      exact ⟨sound, trivial⟩
    · simp only [none, empty, or_self, if_false]
      exact ⟨sound', by rw [same]⟩
  | fseek offset whence =>
    obtain ⟨sound', same⟩ := MemoryStream.fseek_refines sound offset whence proper.1 proper.2 clear
    simp only [onStream, onFile]
    exact ⟨sound', by rw [same]⟩
  | ftell curpos => exact absurd clear id

end FileCall

namespace FileCalls

def Proper : List FileCall → MemoryStream → Prop
  | [], _ => True
  | call :: rest, s => call.Proper s ∧ Proper rest (call.onStream s).1

def Clear : List FileCall → MemoryStream → Prop
  | [], _ => True
  | call :: rest, s => call.Clear s ∧ Clear rest (call.onStream s).1

theorem replies_eq {s : MemoryStream} (sound : s.vars.Sound) (calls : List FileCall) (proper : Proper calls s)
    (clear : Clear calls s) : streamReplies calls s = fileReplies calls s.file := by
  induction calls generalizing s with
  | nil => rfl
  | cons call rest ih =>
    obtain ⟨sound', same⟩ := call.onStream_refines sound proper.1 clear.1
    rw [streamReplies, fileReplies, same]
    dsimp only
    rw [ih sound' proper.2 clear.2]
    rfl

end FileCalls

def FileMemory.byteFile (mem : FileMemory) (mode : List Char) : ByteFile where
  bytes := (List.range mem.initialEof.toNat).map mem.base
  position := 0
  limit := max mem.initialCapacity.toNat mem.maximumCapacity.toNat
  isReadable := (mem.openStream mode).isReadable
  isWritable := (mem.openStream mode).isWritable
  atEof := false

theorem FileMemory.openStream_file (mem : FileMemory) (mode : List Char)
    (inside : mem.initialEof ≤ mem.initialCapacity) : (mem.openStream mode).file = mem.byteFile mode := by
  have bytes : mem.fopenMemoryInit.content = (List.range mem.initialEof.toNat).map mem.base := by
    refine List.map_congr_left ?_
    intro index member
    rw [List.mem_range] at member
    exact if_pos (Nat.lt_of_lt_of_le member (BitVec.le_def.mp inside))
  simp only [MemoryStream.file, byteFile, ← bytes]
  rfl

/-- The replies are those of the file, in every sequence whose reads stay in front of the capacity,
whose writes start at the limit at the latest, whose seeks past the end of the file find zeros in the
store, and that does not ask for the position. -/
theorem memoryStream_refines (mem : FileMemory) (mode : List Char) (calls : List FileCall)
    (stored : mem.baseIsNull = true → mem.initialCapacity = 0) (inside : mem.initialEof ≤ mem.initialCapacity)
    (proper : FileCalls.Proper calls (mem.openStream mode)) (clear : FileCalls.Clear calls (mem.openStream mode)) :
    FileCalls.streamReplies calls (mem.openStream mode) = FileCalls.fileReplies calls (mem.byteFile mode) := by
  have sound : (mem.openStream mode).vars.Sound :=
    ⟨Nat.zero_le _, fun null => by rw [← BitVec.toNat_inj] at stored; exact stored null,
      .inl (BitVec.le_def.mp inside)⟩
  rw [FileCalls.replies_eq sound calls proper clear, mem.openStream_file mode inside]

def growingFile : FileMemory := ⟨true, fun _ => 0, 0, 0, 16⟩

def growingCalls : List FileCall := [.fputc 72 fun _ => 9, .fseek 0 .set, .fgetc 9, .fgetc 9]

theorem growingFile_refines :
    FileCalls.streamReplies growingCalls (growingFile.openStream ['r', 'w']) =
      [(.done, false), (.done, false), (.byte (some 72), false), (.byte none, true)] := by
  have proper : FileCalls.Proper growingCalls (growingFile.openStream ['r', 'w']) :=
    ⟨trivial, ⟨by decide, by decide⟩, trivial, trivial, trivial⟩
  have clear : FileCalls.Clear growingCalls (growingFile.openStream ['r', 'w']) := by
    refine ⟨.inr (.inl (by decide)), ?_, .inr (.inr (by decide)), .inr (.inl (by decide)), trivial⟩
    intro index behind before
    have negative : (index : Int) < 0 := before
    omega
  exact (memoryStream_refines growingFile ['r', 'w'] growingCalls (fun _ => rfl) (by decide) proper clear).trans rfl

def staleFile : FileMemory := ⟨false, fun _ => 7, 0, 1, 1⟩

/-- The file is extended by one byte; what is read there is not zero. -/
theorem staleFile_diverges :
    FileCalls.Proper [.fseek 1 .set, .fseek 0 .set, .fgetc 0] (staleFile.openStream ['r', 'w']) ∧
      FileCalls.streamReplies [.fseek 1 .set, .fseek 0 .set, .fgetc 0] (staleFile.openStream ['r', 'w']) =
        [(.done, false), (.done, false), (.byte (some 7), false)] ∧
      FileCalls.fileReplies [.fseek 1 .set, .fseek 0 .set, .fgetc 0] (staleFile.byteFile ['r', 'w']) =
        [(.done, false), (.done, false), (.byte (some 0), false)] := by
  refine ⟨⟨⟨by decide, by decide⟩, ⟨by decide, by decide⟩, trivial, trivial⟩, rfl, rfl⟩

end Apollo.Libc
