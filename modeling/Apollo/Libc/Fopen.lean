import Apollo.Libc.Stream

/-!
# Opening a file by its name

`fopen`, and what it has the kernel do.  The kernel's side is told at the files: `File_Create` is
`Process_CreateFile` and `SerenaFS_createFile`, `File_Open` is `Process_Open`, and both end with
`SerenaFS_open`.  What they answer for other reasons than what is in the files (paths, permissions,
memory) is a parameter.
-/

set_option autoImplicit false

namespace Apollo.Libc

open Klib
open Lib

/-! ## The kernel -/

structure FileChannel (Path : Type) where
  path : Path
  mode : UInt32
  offset : Int
  deriving DecidableEq

structure FileSystem (α Path : Type) where
  files : Path → Option (List UInt8)
  channels : Int → Option (FileChannel Path)
  streams : Streams α
  iocs : α → Int

structure KernelAnswers (Path : Type) where
  /-- The way to the directory of the file, and the rights there. -/
  resolve : Path → Option Errno
  /-- The node and the directory entry of a new file. -/
  allocate : Path → Option Errno
  /-- The right to open the file, and a descriptor for the channel. -/
  register : Path → UInt32 → Except Errno Int

namespace FileSystem

variable {α Path : Type} [DecidableEq α] [DecidableEq Path]

/-- The file at `path` is there and has nothing in it. -/
def emptied (path : Path) (system : FileSystem α Path) : FileSystem α Path :=
  { system with files := Function.update system.files path (some []) }

def truncateIf (condition : Prop) [Decidable condition] (path : Path) (system : FileSystem α Path) : FileSystem α Path :=
  if condition then system.emptied path else system

def addChannel (ioc : Int) (channel : FileChannel Path) (system : FileSystem α Path) : FileSystem α Path :=
  { system with channels := Function.update system.channels ioc (some channel) }

/-- `SerenaFS_open` and `Process_RegisterIOChannel_Locked`. -/
def openChannel (kernel : KernelAnswers Path) (path : Path) (mode : UInt32) : Code (FileSystem α Path) Errno Int :=
  fun system =>
    match kernel.register path mode with
    | .error error => .err error system
    | .ok ioc =>
      .ok ioc ((system.truncateIf (mode &&& kOpenTruncate ≠ 0) path).addChannel ioc
        ⟨path, mode &&& (kOpenReadWrite ||| kOpenAppend), 0⟩)

def fileCreate (kernel : KernelAnswers Path) (path : Path) (options : UInt32) : Code (FileSystem α Path) Errno Int :=
  fun system =>
    match kernel.resolve path with
    | some error => .err error system
    | none =>
      match system.files path with
      | some _ =>
        if options &&& kOpenExclusive = kOpenExclusive then .err .EEXIST system
        else openChannel kernel path options (system.truncateIf (options &&& kOpenTruncate = kOpenTruncate) path)
      | none =>
        match kernel.allocate path with
        | some error => .err error system
        | none => openChannel kernel path options (system.emptied path)

def fileOpen (kernel : KernelAnswers Path) (path : Path) (options : UInt32) : Code (FileSystem α Path) Errno Int :=
  fun system =>
    match kernel.resolve path with
    | some error => .err error system
    | none =>
      match system.files path with
      | some _ => openChannel kernel path options system
      | none => .err .ENOENT system

inductive Whence
  | seekSet
  | seekCur
  | seekEnd
  deriving DecidableEq

/-- `File_Seek` of a caller that does not ask for the old position. -/
def fileSeek (ioc : Int) (offset : Int) (whence : Whence) : Code (FileSystem α Path) Errno Unit := fun system =>
  match system.channels ioc with
  | none => .err .EBADF system
  | some channel =>
    let newOffset := match whence with
      | .seekSet => offset
      | .seekCur => channel.offset + offset
      | .seekEnd => ((system.files channel.path).getD []).length + offset
    if newOffset < 0 then .err .EINVAL system
    else .ok () (system.addChannel ioc { channel with offset := newOffset })

def closeChannel (ioc : Int) : Code (FileSystem α Path) Errno Unit :=
  Code.modify fun system => { system with channels := Function.update system.channels ioc none }

/-! ## fopen -/

def iocCallbacks : FileCallbacks := ⟨true, true, true, true⟩

/-- The options that `__fopen_filename_init` makes of the mode. -/
def fopenOptions (sm : Nat) : UInt32 :=
  (if sm &&& kStreamModeRead ≠ 0 then kOpenRead else 0) |||
    (if sm &&& kStreamModeWrite ≠ 0 then
      kOpenWrite ||| (if sm &&& kStreamModeAppend ≠ 0 then kOpenAppend else kOpenTruncate) |||
        (if sm &&& kStreamModeExclusive ≠ 0 then kOpenExclusive else 0)
    else 0)

/-- `__fopen_init`, which works on the streams. -/
def fopenInit (self : α) (mode : List Char) : Code (FileSystem α Path) Errno Unit := fun system =>
  match Streams.fopenInit self true (some iocCallbacks) (some mode) system.streams with
  | .ok _ streams => .ok () { system with streams := streams }
  | .err error streams => .err error { system with streams := streams }
  | .fault => .fault

def setIoc (self : α) (ioc : Int) : Code (FileSystem α Path) Errno Unit :=
  Code.modify fun system => { system with iocs := Function.update system.iocs self ioc }

/-- The end of `__fopen_filename_init`; nobody looks at the error of the seek. -/
def startAtEnd (sm : Nat) (ioc : Int) : Code (FileSystem α Path) Errno Unit :=
  if sm &&& kStreamModeAppend ≠ 0 then Code.attempt (fileSeek ioc 0 .seekEnd) >>= fun _ => pure () else pure ()

/-- `__fopen_filename_init` opens or creates the file. -/
def openOrCreate (kernel : KernelAnswers Path) (filename : Path) (sm : Nat) : Code (FileSystem α Path) Errno Int :=
  if sm &&& kStreamModeWrite = 0 then fileOpen kernel filename (fopenOptions sm)
  else fileCreate kernel filename (fopenOptions sm)

def fopenFilenameInit (kernel : KernelAnswers Path) (self : α) (filename : Path) (mode : List Char) :
    Code (FileSystem α Path) Errno Unit := do
  let sm := fopenParseMode mode
  if fopenOptions sm &&& kOpenReadWrite = 0 then Code.throw .EINVAL
  else
    let ioc ← openOrCreate kernel filename sm
    setIoc self ioc
    Code.onError (fopenInit self mode) (closeChannel ioc)
    startAtEnd sm ioc

/-- `fopen`; `memory` is what `malloc` returns. -/
def fopen (kernel : KernelAnswers Path) (memory : Option α) (filename : Path) (mode : List Char) :
    Code (FileSystem α Path) Errno α :=
  match memory with
  | none => Code.throw .ENOMEM
  | some self => do
      fopenFilenameInit kernel self filename mode
      pure self

end FileSystem

/-! ## Mode strings -/

inductive ModeLetter
  | r
  | w
  | a
  deriving DecidableEq

inductive ModeSign
  | plus
  | b
  | x
  deriving DecidableEq

def ModeLetter.toChar : ModeLetter → Char
  | r => 'r'
  | w => 'w'
  | a => 'a'

def ModeSign.toChar : ModeSign → Char
  | plus => '+'
  | b => 'b'
  | x => 'x'

/-- A mode.  Of the signs the language allows each once, and `x` at the end and with `w`. -/
structure OpenMode where
  letter : ModeLetter
  signs : List ModeSign
  deriving DecidableEq

namespace OpenMode

def text (mode : OpenMode) : List Char := mode.letter.toChar :: mode.signs.map ModeSign.toChar

def Exclusive (mode : OpenMode) : Prop := .x ∈ mode.signs

def PlusIsRead (mode : OpenMode) : Prop := mode.signs.head? = some .plus

/-- The letter is followed by `x` or `+x`. -/
def ExclusiveIsRead (mode : OpenMode) : Prop :=
  mode.letter = .w ∧ ([.x] <+: mode.signs ∨ [.plus, .x] <+: mode.signs)

instance (mode : OpenMode) : Decidable mode.PlusIsRead := inferInstanceAs (Decidable (_ = _))

instance (mode : OpenMode) : Decidable mode.ExclusiveIsRead := inferInstanceAs (Decidable (_ ∧ _))

/-- What `__fopen_parse_mode` finds in the mode. -/
def flags (mode : OpenMode) : Nat :=
  match mode.letter with
  | .r => if mode.PlusIsRead then 3 else 1
  | .w => (if mode.PlusIsRead then 3 else 2) + if mode.ExclusiveIsRead then 8 else 0
  | .a => if mode.PlusIsRead then 7 else 6

theorem fopenParseMode_signs (signs : List ModeSign) : fopenParseMode (signs.map ModeSign.toChar) = 0 := by
  induction signs with
  | nil => rfl
  | cons sign rest ih => cases sign <;> simpa [ModeSign.toChar, fopenParseMode] using ih

theorem fopenParseMode_text (mode : OpenMode) : fopenParseMode mode.text = mode.flags := by
  obtain ⟨letter, signs⟩ := mode
  cases letter <;>
    rcases signs with _ | ⟨_ | _ | _, _ | ⟨_ | _ | _, rest⟩⟩ <;>
    simp [text, flags, PlusIsRead, ExclusiveIsRead, ModeLetter.toChar, ModeSign.toChar, fopenParseMode,
      fopenParseMode_signs, kStreamModeRead, kStreamModeWrite, kStreamModeAppend, kStreamModeExclusive]

end OpenMode

namespace OpenMode

def OnlyReads (mode : OpenMode) : Prop := mode.letter = .r ∧ ¬mode.PlusIsRead

def Truncates (mode : OpenMode) : Prop := mode.letter = .w ∨ mode.letter = .r ∧ mode.PlusIsRead

instance (mode : OpenMode) : Decidable mode.OnlyReads := inferInstanceAs (Decidable (_ ∧ _))

instance (mode : OpenMode) : Decidable mode.Truncates := inferInstanceAs (Decidable (_ ∨ _))

def options (mode : OpenMode) : UInt32 := FileSystem.fopenOptions mode.flags

structure Described (mode : OpenMode) : Prop where
  write : mode.flags &&& kStreamModeWrite = 0 ↔ mode.OnlyReads
  append : mode.flags &&& kStreamModeAppend ≠ 0 ↔ mode.letter = .a
  readWrite : mode.options &&& kOpenReadWrite ≠ 0
  exclusive : mode.options &&& kOpenExclusive = kOpenExclusive ↔ mode.ExclusiveIsRead
  truncate : mode.options &&& kOpenTruncate = kOpenTruncate ↔ mode.Truncates
  truncate_ne : mode.options &&& kOpenTruncate ≠ 0 ↔ mode.Truncates

theorem described (mode : OpenMode) : mode.Described := by
  have onlyW : mode.ExclusiveIsRead → mode.letter = .w := And.left
  by_cases plus : mode.PlusIsRead <;> by_cases exclusive : mode.ExclusiveIsRead <;>
    rcases letter : mode.letter with _ | _ | _ <;>
    first
    | exact absurd ((onlyW exclusive).symm.trans letter) (by decide)
    | constructor <;>
        simp only [OnlyReads, Truncates, options, flags, plus, exclusive, letter, if_true, if_false] <;> decide

end OpenMode

namespace FileSystem

variable {α Path : Type} [DecidableEq α] [DecidableEq Path] {kernel : KernelAnswers Path} {path : Path}
  {before middle after : FileSystem α Path} {mode : OpenMode} {self : α} {ioc : Int} {error : Errno}

/-! ## What the calls do -/

theorem fopenInit_ok (self : α) (mode : List Char) (before : FileSystem α Path) :
    ∃ streams, fopenInit self mode before = .ok () { before with streams := streams } := by
  have accepted : fopenCheck (some iocCallbacks) (some mode) = none := by
    simp [fopenCheck, iocCallbacks, kStreamModeRead, kStreamModeWrite]
  simp only [fopenInit, Streams.fopenInit, accepted]
  cases before.streams.gOpenFiles <;> exact ⟨_, rfl⟩

theorem onError_of_ok {σ ε β : Type} {code : Code σ ε β} {state after : σ} {value : β}
    (returns : code state = .ok value after) (cleanup : Code σ ε Unit) : code.onError cleanup state = .ok value after := by
  rw [Code.onError, returns]

theorem startAtEnd_ok {sm : Nat} {channel : FileChannel Path} {content : List UInt8}
    (opened : before.channels ioc = some channel) (file : before.files channel.path = some content) :
    startAtEnd sm ioc before = .ok ()
      (if sm &&& kStreamModeAppend ≠ 0 then before.addChannel ioc { channel with offset := content.length } else before) := by
  unfold startAtEnd
  split
  case isFalse => rfl
  case isTrue =>
      have inside : ¬(content.length : Int) < 0 := by omega
      simp [Code.bind_apply, Code.attempt, fileSeek, opened, file, inside]

def start (mode : OpenMode) (content : List UInt8) : Int := if mode.letter = .a then content.length else 0

structure Opened (before after : FileSystem α Path) (stream : α) (mode : OpenMode) (path : Path) : Prop where
  files : after.files = before.files
  channel : ∀ content, before.files path = some content →
    ∃ access, after.channels (after.iocs stream) = some ⟨path, access, start mode content⟩

theorem fopenFilenameInit_text (kernel : KernelAnswers Path) (self : α) (path : Path) (mode : OpenMode) :
    fopenFilenameInit kernel self path mode.text =
      openOrCreate kernel path mode.flags >>= fun ioc => setIoc self ioc >>= fun _ =>
        Code.onError (fopenInit self mode.text) (closeChannel ioc) >>= fun _ => startAtEnd mode.flags ioc := by
  unfold fopenFilenameInit
  rw [OpenMode.fopenParseMode_text]
  exact if_neg mode.described.readWrite

theorem fopenFilenameInit_of_ok {access : UInt32} {content : List UInt8}
    (call : openOrCreate kernel path mode.flags before = .ok ioc middle)
    (channel : middle.channels ioc = some ⟨path, access, 0⟩) (file : middle.files path = some content) :
    ∃ after, fopenFilenameInit kernel self path mode.text before = .ok () after ∧ middle.Opened after self mode path := by
  obtain ⟨streams, init⟩ := fopenInit_ok self mode.text { middle with iocs := Function.update middle.iocs self ioc }
  have ends := @startAtEnd_ok _ _ _ _ { middle with iocs := Function.update middle.iocs self ioc, streams := streams }
    ioc mode.flags _ _ channel file
  rw [fopenFilenameInit_text, Code.bind_of_ok call, setIoc, Code.bind_of_ok (Code.modify_apply ..),
    Code.bind_of_ok (onError_of_ok init (closeChannel ioc)), ends]
  refine ⟨_, rfl, ?_, ?_⟩
  · split <;> rfl
  · intro other there
    cases Option.some.inj (file.symm.trans there)
    refine ⟨access, ?_⟩
    by_cases append : mode.letter = .a
    · rw [if_pos (mode.described.append.mpr append)]
      simp [addChannel, start, append]
    · rw [if_neg (append ∘ mode.described.append.mp)]
      simpa [start, append] using channel

theorem fopenFilenameInit_of_err (call : openOrCreate kernel path mode.flags before = .err error middle) :
    fopenFilenameInit kernel self path mode.text before = .err error middle := by
  rw [fopenFilenameInit_text, Code.bind_of_err call]

/-! ## What is left of the file -/

inductive Attempted (path : Path) (files : Path → Option (List UInt8)) :
    Except Errno Int → Outcome (FileSystem α Path) Errno Int → Prop
  | opened {ioc : Int} {middle : FileSystem α Path} {access : UInt32} (same : middle.files = files)
      (channel : middle.channels ioc = some ⟨path, access, 0⟩) : Attempted path files (.ok ioc) (.ok ioc middle)
  | refused {error : Errno} {middle : FileSystem α Path} (same : middle.files = files) :
      Attempted path files (.error error) (.err error middle)

def contentAfter (mode : OpenMode) (content : List UInt8) : List UInt8 := if mode.Truncates then [] else content

theorem openOrCreate_reads (reads : mode.OnlyReads) :
    (openOrCreate kernel path mode.flags : Code (FileSystem α Path) Errno Int) = fileOpen kernel path mode.options :=
  if_pos (mode.described.write.mpr reads)

theorem openOrCreate_writes (writes : ¬mode.OnlyReads) :
    (openOrCreate kernel path mode.flags : Code (FileSystem α Path) Errno Int) = fileCreate kernel path mode.options :=
  if_neg (writes ∘ mode.described.write.mp)

/-- Opening the channel changes nothing where the file has been emptied already. -/
theorem openChannel_attempted (kernel : KernelAnswers Path) (settled : mode.Truncates → before.files path = some []) :
    Attempted path before.files (kernel.register path mode.options) (openChannel kernel path mode.options before) := by
  unfold openChannel
  cases kernel.register path mode.options with
  | error error => exact .refused rfl
  | ok ioc =>
    refine .opened ?_ (Function.update_self ..)
    by_cases truncates : mode.Truncates
    · rw [truncateIf, if_pos (mode.described.truncate_ne.mpr truncates)]
      exact Function.update_eq_self_iff.mpr (settled truncates).symm
    · rw [truncateIf, if_neg (truncates ∘ mode.described.truncate_ne.mp)]
      rfl

theorem openChannel_emptied (kernel : KernelAnswers Path) (mode : OpenMode) (path : Path) (before : FileSystem α Path) :
    Attempted path (Function.update before.files path (some [])) (kernel.register path mode.options)
      (openChannel kernel path mode.options (before.emptied path)) :=
  @openChannel_attempted _ _ _ _ _ (before.emptied path) _ kernel fun _ => Function.update_self ..

theorem openOrCreate_unresolved (unresolved : kernel.resolve path = some error) :
    openOrCreate kernel path mode.flags before = .err error before := by
  by_cases reads : mode.OnlyReads
  · rw [openOrCreate_reads reads, fileOpen, unresolved]
  · rw [openOrCreate_writes reads, fileCreate, unresolved]

theorem openOrCreate_absent (resolved : kernel.resolve path = none) (absent : before.files path = none) :
    (∃ error, openOrCreate kernel path mode.flags before = .err error before) ∧ (mode.OnlyReads ∨ kernel.allocate path ≠ none) ∨
      Attempted path (Function.update before.files path (some [])) (kernel.register path mode.options)
        (openOrCreate kernel path mode.flags before) ∧ ¬mode.OnlyReads ∧ kernel.allocate path = none := by
  by_cases reads : mode.OnlyReads
  · rw [openOrCreate_reads reads, fileOpen, resolved, absent]
    exact .inl ⟨⟨_, rfl⟩, .inl reads⟩
  · rw [openOrCreate_writes reads, fileCreate, resolved, absent]
    cases allocated : kernel.allocate path with
    | some error => exact .inl ⟨⟨_, rfl⟩, .inr nofun⟩
    | none => exact .inr ⟨openChannel_emptied kernel mode path before, reads, rfl⟩

theorem openOrCreate_present {content : List UInt8} (resolved : kernel.resolve path = none)
    (present : before.files path = some content) :
    (∃ error, openOrCreate kernel path mode.flags before = .err error before) ∧ mode.ExclusiveIsRead ∨
      Attempted path (Function.update before.files path (some (contentAfter mode content)))
        (kernel.register path mode.options) (openOrCreate kernel path mode.flags before) ∧ ¬mode.ExclusiveIsRead := by
  by_cases exclusive : mode.ExclusiveIsRead
  · have writes : ¬mode.OnlyReads := fun reads => nomatch reads.1.symm.trans exclusive.1
    rw [openOrCreate_writes writes, fileCreate, resolved, present]
    exact .inl ⟨⟨_, if_pos (mode.described.exclusive.mpr exclusive)⟩, exclusive⟩
  · refine .inr ⟨?_, exclusive⟩
    by_cases truncates : mode.Truncates
    · have writes : ¬mode.OnlyReads := by
        rintro ⟨letter, plus⟩
        rcases truncates with other | ⟨-, read⟩
        · exact nomatch letter.symm.trans other
        · exact plus read
      rw [openOrCreate_writes writes, fileCreate, resolved, present]
      simp only [if_neg (exclusive ∘ mode.described.exclusive.mp), truncateIf, if_pos (mode.described.truncate.mpr truncates),
        contentAfter, if_pos truncates]
      exact openChannel_emptied kernel mode path before
    · rw [contentAfter, if_neg truncates, Function.update_eq_self_iff.mpr present.symm]
      by_cases reads : mode.OnlyReads
      · rw [openOrCreate_reads reads, fileOpen, resolved, present]
        exact openChannel_attempted kernel fun there => absurd there truncates
      · rw [openOrCreate_writes reads, fileCreate, resolved, present]
        simp only [if_neg (exclusive ∘ mode.described.exclusive.mp), truncateIf, if_neg (truncates ∘ mode.described.truncate.mp)]
        exact openChannel_attempted kernel fun there => absurd there truncates

/-! ## What opening a file changes -/

structure OpensAsSaid (mode : OpenMode) (path : Path) (before : FileSystem α Path)
    (outcome : Outcome (FileSystem α Path) Errno α) : Prop where
  returns : outcome ≠ .fault
  missing : mode.letter = .r → before.files path = none →
    ∃ error after, outcome = .err error after ∧ after.files path = none
  kept : mode.letter ≠ .w → ∀ content, before.files path = some content →
    ∀ after, outcome.state? = some after → after.files path = some content
  emptied : mode.letter = .w → before.files path ≠ none → ∀ self after, outcome = .ok self after → after.files path = some []
  exclusive : mode.Exclusive → before.files path ≠ none →
    ∃ error after, outcome = .err error after ∧ after.files path = before.files path
  atEnd : mode.letter = .a → ∀ self after, outcome = .ok self after → ∃ channel content,
    after.channels (after.iocs self) = some channel ∧ channel.path = path ∧ after.files path = some content ∧
      channel.offset = content.length
  others : ∀ after, outcome.state? = some after → ∀ other, other ≠ path → after.files other = before.files other

/-- What the file must be like for the mode to have its meaning, once the way to it has been found. -/
def Spared (kernel : KernelAnswers Path) (mode : OpenMode) (path : Path) : Option (List UInt8) → Prop
  | none => mode.letter = .r ∧ mode.PlusIsRead → kernel.allocate path ≠ none
  | some content =>
    (mode.letter = .r ∧ mode.PlusIsRead → content = []) ∧
      (mode.Exclusive ∧ ¬mode.ExclusiveIsRead →
        (∃ error, kernel.register path mode.options = .error error) ∧ (mode.letter = .w → content = []))

theorem OpensAsSaid.of_err (same : after.files = before.files) : OpensAsSaid mode path before (.err error after) where
  returns := nofun
  missing := fun _ absent => ⟨_, _, rfl, (congrFun same path).trans absent⟩
  kept := by
    rintro - content present _ ⟨⟩
    exact (congrFun same path).trans present
  emptied := nofun
  exclusive := fun _ _ => ⟨_, _, rfl, congrFun same path⟩
  atEnd := nofun
  others := by
    rintro _ ⟨⟩ other -
    exact congrFun same other

theorem fopen_of_err (call : openOrCreate kernel path mode.flags before = .err error after) :
    fopen kernel (some self) path mode.text before = .err error after := by
  rw [fopen, Code.bind_of_err (fopenFilenameInit_of_err call)]

/-- `fopen` returns what the attempt has led to. -/
inductive Finished (self : α) (mode : OpenMode) (path : Path) (files : Path → Option (List UInt8)) (content : List UInt8) :
    Except Errno Int → Outcome (FileSystem α Path) Errno α → Prop
  | opened {ioc : Int} {after : FileSystem α Path} {access : UInt32} (same : after.files = files)
      (channel : after.channels (after.iocs self) = some ⟨path, access, start mode content⟩) :
      Finished self mode path files content (.ok ioc) (.ok self after)
  | refused {error : Errno} {after : FileSystem α Path} (same : after.files = files) :
      Finished self mode path files content (.error error) (.err error after)

theorem fopen_of_attempted {files : Path → Option (List UInt8)} {content : List UInt8} {registered : Except Errno Int}
    (attempted : Attempted path files registered (openOrCreate kernel path mode.flags before))
    (present : files path = some content) :
    Finished self mode path files content registered (fopen kernel (some self) path mode.text before) := by
  generalize call : openOrCreate kernel path mode.flags before = outcome at attempted
  cases attempted with
  | refused same =>
    rw [fopen_of_err call]
    exact .refused same
  | @opened ioc middle access same channel =>
    have file := (congrFun same path).trans present
    obtain ⟨after, run, opened⟩ := @fopenFilenameInit_of_ok _ _ _ _ _ _ _ _ _ self _ _ _ call channel file
    obtain ⟨access, channel⟩ := opened.channel content file
    rw [fopen, Code.bind_of_ok run]
    exact .opened (opened.files.trans same) channel

theorem Finished.state {files : Path → Option (List UInt8)} {content : List UInt8} {registered : Except Errno Int}
    {outcome : Outcome (FileSystem α Path) Errno α}
    (finished : Finished self mode path files content registered outcome) :
    ∃ after, outcome.state? = some after ∧ after.files = files := by
  cases finished with
  | opened same channel => exact ⟨_, rfl, same⟩
  | refused same => exact ⟨_, rfl, same⟩

/-- Behind an opening that went well the channel is at the end of the file when the mode is to append. -/
theorem Finished.atEnd {files : Path → Option (List UInt8)} {content : List UInt8} {registered : Except Errno Int}
    {outcome : Outcome (FileSystem α Path) Errno α} {stream : α}
    (finished : Finished self mode path files content registered outcome) (present : files path = some content)
    (appends : mode.letter = .a) (opened : outcome = .ok stream after) :
    ∃ channel content, after.channels (after.iocs stream) = some channel ∧ channel.path = path ∧
      after.files path = some content ∧ channel.offset = content.length := by
  subst opened
  cases finished with
  | opened same channel => exact ⟨_, content, channel, rfl, (congrFun same path).trans present, if_pos appends⟩

theorem opensAsSaid_created {registered : Except Errno Int} {outcome : Outcome (FileSystem α Path) Errno α}
    (absent : before.files path = none)
    (finished : Finished self mode path (Function.update before.files path (some [])) [] registered outcome) :
    OpensAsSaid mode path before outcome ↔ mode.letter ≠ .r := by
  obtain ⟨reached, state, files⟩ := finished.state
  have file : reached.files path = some [] := (congrFun files path).trans (Function.update_self ..)
  constructor
  · intro said reads
    obtain ⟨error, after, rfl, missing⟩ := said.missing reads absent
    cases Option.some.inj state
    exact nomatch file.symm.trans missing
  · intro writes
    refine ⟨?_, fun reads => absurd reads writes, ?_, fun _ present => absurd absent present,
      fun _ present => absurd absent present, fun appends _ _ => finished.atEnd (Function.update_self ..) appends, ?_⟩
    · rintro rfl
      exact nomatch state
    · intro _ content present
      exact nomatch absent.symm.trans present
    · intro after there other ne
      cases Option.some.inj (state.symm.trans there)
      exact (congrFun files other).trans (Function.update_of_ne ne ..)

/-- A file that was there has been opened, or has been refused behind its truncation. -/
theorem opensAsSaid_existing {registered : Except Errno Int} {outcome : Outcome (FileSystem α Path) Errno α}
    {content : List UInt8} (present : before.files path = some content)
    (finished : Finished self mode path (Function.update before.files path (some (contentAfter mode content)))
      (contentAfter mode content) registered outcome) :
    OpensAsSaid mode path before outcome ↔
      (mode.letter = .r ∧ mode.PlusIsRead → content = []) ∧
        (mode.Exclusive → (∃ error, registered = .error error) ∧ (mode.letter = .w → content = [])) := by
  obtain ⟨reached, state, files⟩ := finished.state
  have file : reached.files path = some (contentAfter mode content) := (congrFun files path).trans (Function.update_self ..)
  have there : before.files path ≠ none := present ▸ nofun
  constructor
  · intro said
    constructor
    · rintro ⟨reads, plus⟩
      have kept := said.kept (reads ▸ nofun) content present reached state
      rw [file, contentAfter, if_pos (.inr ⟨reads, plus⟩)] at kept
      exact (Option.some.inj kept).symm
    · intro exclusive
      obtain ⟨error, after, rfl, kept⟩ := said.exclusive exclusive there
      cases Option.some.inj state
      cases finished with
      | refused same =>
        refine ⟨⟨error, rfl⟩, fun writes => ?_⟩
        rw [file, present, contentAfter, if_pos (.inl writes)] at kept
        exact (Option.some.inj kept).symm
  · rintro ⟨plus, exclusive⟩
    refine ⟨?_, fun _ absent => absurd absent there, ?_, ?_, ?_,
      fun appends _ _ => finished.atEnd (Function.update_self ..) appends, ?_⟩
    · rintro rfl
      exact nomatch state
    · intro keeps other same after reaches
      cases Option.some.inj (state.symm.trans reaches)
      cases Option.some.inj (present.symm.trans same)
      rw [file, contentAfter]
      split
      case isFalse => rfl
      case isTrue truncates => rw [plus (truncates.resolve_left keeps)]
    · intro writes _ stream after opened
      have reaches : outcome.state? = some after := by rw [opened]; rfl
      cases Option.some.inj (state.symm.trans reaches)
      rw [file, contentAfter, if_pos (.inl writes)]
    · intro exclusive' _
      obtain ⟨⟨error, rfl⟩, empty⟩ := exclusive exclusive'
      cases finished with
      | refused same =>
        cases Option.some.inj state
        refine ⟨_, _, rfl, ?_⟩
        rw [file, present, contentAfter]
        split
        case isFalse => rfl
        case isTrue truncates =>
            rcases truncates with writes | reads
            · rw [empty writes]
            · rw [plus reads]
    · intro after reaches other ne
      cases Option.some.inj (state.symm.trans reaches)
      exact (congrFun files other).trans (Function.update_of_ne ne ..)

/-- `fopen` changes a file only as its mode says just when `r` is not followed by a plus sign and
an `x` follows a `w` or its plus sign, or else when the file or the kernel happen to make up for it. -/
theorem fopen_asSaid (kernel : KernelAnswers Path) (memory : Option α) (mode : OpenMode) (path : Path)
    (before : FileSystem α Path) :
    OpensAsSaid mode path before (fopen kernel memory path mode.text before) ↔
      memory = none ∨ kernel.resolve path ≠ none ∨ Spared kernel mode path (before.files path) := by
  cases memory with
  | none => exact iff_of_true (.of_err rfl) (.inl rfl)
  | some self =>
    cases resolved : kernel.resolve path with
    | some error =>
      rw [fopen_of_err (openOrCreate_unresolved resolved)]
      exact iff_of_true (.of_err rfl) (.inr (.inl nofun))
    | none =>
      simp only [reduceCtorEq, ne_eq, not_true_eq_false, false_or]
      cases file : before.files path with
      | none =>
        rcases @openOrCreate_absent _ _ _ _ _ _ _ mode resolved file with ⟨⟨error, call⟩, cause⟩ | ⟨attempted, writes, allocated⟩
        · rw [fopen_of_err call]
          exact iff_of_true (.of_err rfl) fun ⟨reads, plus⟩ => cause.resolve_left fun only => only.2 plus
        · rw [opensAsSaid_created file (fopen_of_attempted attempted (Function.update_self ..)), Spared]
          have reads : mode.letter = .r → mode.PlusIsRead := fun reads => not_not.mp fun plus => writes ⟨reads, plus⟩
          simp only [allocated, ne_eq, not_true_eq_false, imp_false]
          exact ⟨fun other => fun both => other both.1, fun other same => other ⟨same, reads same⟩⟩
      | some content =>
        rcases @openOrCreate_present _ _ _ _ _ _ _ mode _ resolved file with ⟨⟨error, call⟩, read⟩ | ⟨attempted, unread⟩
        · rw [fopen_of_err call]
          refine iff_of_true (.of_err rfl) ⟨fun reads => ?_, fun other => absurd read other.2⟩
          exact nomatch reads.1.symm.trans read.1
        · rw [opensAsSaid_existing file (fopen_of_attempted attempted (Function.update_self ..)), Spared]
          simp [unread]

def obligingKernel : KernelAnswers Nat := ⟨fun _ => none, fun _ => none, fun _ _ => .ok 3⟩

def oneFile : FileSystem Nat Nat :=
  ⟨fun path => if path = 0 then some [65] else none, fun _ => none, ⟨none, fun _ => .init, fun _ => .opened false none⟩,
    fun _ => -1⟩

/-- `fopen(path, "r+")` empties an existing file, and creates one that is missing. -/
theorem updateMode_empties :
    ¬OpensAsSaid ⟨.r, [.plus]⟩ 0 oneFile (fopen obligingKernel (some 7) 0 ['r', '+'] oneFile) ∧
      ¬OpensAsSaid ⟨.r, [.plus]⟩ 1 oneFile (fopen obligingKernel (some 7) 1 ['r', '+'] oneFile) := by
  constructor
  · intro said
    exact nomatch said.kept (by decide) [65] rfl _ rfl
  · intro said
    obtain ⟨error, after, run, -⟩ := said.missing rfl rfl
    exact nomatch run

end FileSystem
end Apollo.Libc
