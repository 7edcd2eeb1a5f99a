import Apollo.Pipe.WakeUps

/-!
# The channels of a pipe

The I/O channels through which processes use one pipe.  `Process_CreatePipe`
opens one for reading and one for writing; a spawn duplicates channels of the
parent for the child; every process closes its own channels when it likes.  The
pipe itself has one state for each side.

A call keeps its channel in memory, so that another virtual processor may close
the channel while the call is going on.
-/

set_option autoImplicit false

namespace Apollo.Pipe

open Klib
open Lib

def kOpenRead : Nat := 0x0001
def kOpenWrite : Nat := 0x0002
def kOpenReadWrite : Nat := kOpenRead ||| kOpenWrite
def kOpenAppend : Nat := 0x0004

def kPipeDefaultBufferSize : BitVec 32 := 256

structure Channel where
  mode : Nat
  isOpen : Bool
  deriving DecidableEq

def Channel.create (mode : Nat) : Channel := ⟨mode &&& (kOpenReadWrite ||| kOpenAppend), true⟩

/-- `IOChannel_AbstractCreateCopy`. -/
def Channel.copy (channel : Channel) : Channel := ⟨channel.mode, true⟩

/-- The side that `Pipe_close` closes for the channel. -/
def Channel.isReadSide (channel : Channel) : Bool := channel.mode &&& kOpenReadWrite == kOpenRead

/-- The test of `IOChannel_read` or `IOChannel_write`. -/
def Channel.admits (channel : Channel) (request : Request) : Bool :=
  if request.isRead then channel.mode &&& kOpenRead == kOpenRead else channel.mode &&& kOpenWrite == kOpenWrite

structure Plumbing where
  pipe : System
  channels : List Channel
  via : List Nat

/-- `Process_CreatePipe`, when it gets its memory. -/
def createPipe (fuel : Nat) (data : Nat → UInt8) : Option Plumbing :=
  (pipeCreate fuel kPipeDefaultBufferSize data).map fun pipe =>
    ⟨pipe, [.create kOpenRead, .create kOpenWrite], []⟩

inductive Deed
  | dup (channel : Nat)
  | close (channel : Nat)
  | use (channel : Nat) (request : Request)
  | run (index : Nat)
  | interrupt (index : Nat)
  | leave (index : Nat)

namespace Plumbing

def openChannel (p : Plumbing) (channel : Nat) : Option Channel :=
  p.channels[channel]?.filter (·.isOpen)

def hasOpen (p : Plumbing) (readSide : Bool) : Prop :=
  ∃ channel ∈ p.channels, channel.isReadSide = readSide ∧ channel.isOpen = true

def sideState (p : Plumbing) (readSide : Bool) : SideState :=
  if readSide then p.pipe.readSideState else p.pipe.writeSideState

def closed (p : Plumbing) (channel : Nat) (found : Channel) : Plumbing :=
  { p with
    pipe := p.pipe.close found.isReadSide
    channels := p.channels.set channel { found with isOpen := false } }

def perform (p : Plumbing) : Deed → Option Plumbing
  | .dup channel => do
      let found ← p.openChannel channel
      some { p with channels := p.channels ++ [found.copy] }
  | .close channel => do
      let found ← p.openChannel channel
      some (p.closed channel found)
  | .use channel request => do
      let found ← p.openChannel channel
      if found.admits request then
        let pipe ← Pipe.perform p.pipe (.call request)
        some { p with pipe := pipe, via := p.via ++ [channel] }
      else some p
  | .run index => (Pipe.perform p.pipe (.run index)).map fun pipe => { p with pipe := pipe }
  | .interrupt index => (Pipe.perform p.pipe (.interrupt index)).map fun pipe => { p with pipe := pipe }
  | .leave index => (Pipe.perform p.pipe (.leave index)).map fun pipe => { p with pipe := pipe }

end Plumbing

def Deed.ClosesLast (p : Plumbing) : Deed → Prop
  | .close channel => ∀ found ∈ p.openChannel channel, ∀ other < p.channels.length, other ≠ channel →
      ∀ there ∈ p.openChannel other, there.isReadSide ≠ found.isReadSide
  | _ => True

instance (p : Plumbing) (deed : Deed) : Decidable (deed.ClosesLast p) :=
  match deed with
  | .close channel => inferInstanceAs (Decidable (∀ found ∈ p.openChannel channel, ∀ other < p.channels.length,
      other ≠ channel → ∀ there ∈ p.openChannel other, there.isReadSide ≠ found.isReadSide))
  | .dup _ | .use _ _ | .run _ | .interrupt _ | .leave _ => isTrue trivial

def Call.EndOfFile (call : Call) : Prop :=
  call.request.isRead = true ∧ 0 < call.request.size ∧ call.nBytes = 0 ∧ call.place = .returned none

/-- A side is closed when all of its channels are; whoever reads through an open channel finds the end
of the file when no writer is left and the buffer is empty, and a write fails with `EPIPE` when no
reader is left. -/
structure Plumbing.Follows (p : Plumbing) : Prop where
  sides : ∀ readSide, p.sideState readSide = .isClosed ↔ ¬ p.hasOpen readSide
  endOfFile : ∀ index channel after call, p.via[index]? = some channel → (p.openChannel channel).isSome = true →
    p.perform (.run index) = some after → after.pipe.calls[index]? = some call → call.EndOfFile →
    ¬ p.hasOpen false ∧ p.pipe.buffer.content = []
  brokenPipe : ∀ index after call, p.perform (.run index) = some after → after.pipe.calls[index]? = some call →
    call.place = .returned (some .EPIPE) → ¬ p.hasOpen true

/-! ## The pipe below the channels -/

section Sections
variable {sys after : System} {index : Nat} {call : Call}

def System.requests (sys : System) : List Request := sys.calls.map (·.request)

theorem requests_eq_progress : sys.requests = (sys.calls.map Call.progress).map Prod.fst := by
  rw [List.map_map]
  rfl

theorem runSection_sides :
    (sys.runSection index call).readSideState = sys.readSideState ∧
      (sys.runSection index call).writeSideState = sys.writeSideState := by
  unfold System.runSection
  cases call.request with
  | read nBytesToRead small => exact finishSection_sides
  | write bytes small => exact finishSection_sides

variable {mid : System} {ending : Ending} {readSideState writeSideState : SideState} {fuel : Nat}
    {buffer : RingBuffer}

theorem requests_finishSection {call' : Call} (same : mid.calls = sys.calls)
    (found : sys.calls[index]? = some call) (request : call'.request = call.request) :
    (mid.finishSection index call' ending).requests = sys.requests := by
  rw [requests_eq_progress, requests_eq_progress, progress_finishSection, List.map_set, same]
  have own : call'.progress.1 = call.progress.1 := request
  rw [own, ← List.map_set, set_progress_self found]

theorem requests_runSection (found : sys.calls[index]? = some call) :
    (sys.runSection index call).requests = sys.requests := by
  unfold System.runSection
  cases asks : call.request with
  | read nBytesToRead small => exact requests_finishSection rfl found rfl
  | write bytes small => exact requests_finishSection rfl found rfl

theorem requests_setPlace (found : sys.calls[index]? = some call) (place : Place) :
    (sys.setCall index { call with place := place }).requests = sys.requests := by
  rw [requests_eq_progress, requests_eq_progress, progress_setCall]
  have own : Call.progress { call with place := place } = call.progress := rfl
  rw [own, set_progress_self found]

theorem requests_close (readSide : Bool) : (sys.close readSide).requests = sys.requests := by
  rw [requests_eq_progress, requests_eq_progress]
  unfold System.close
  rw [progress_broadcast, progress_broadcast]
  cases readSide with
  | true => rfl
  | false => rfl

def Ending.place : Ending → Place
  | .returns error => .returned error
  | .waits => .asleep

theorem finishSection_self (inside : index < mid.calls.length) :
    (mid.finishSection index call ending).calls[index]? = some { call with place := ending.place } := by
  cases ending with
  | returns error => exact List.getElem?_set_self inside
  | waits =>
    refine List.getElem?_set_self ?_
    unfold System.broadcast
    rw [List.length_map]
    exact inside

theorem readSection_self {nBytesToRead : Nat} (inside : index < sys.calls.length) :
    (sys.readSection index call nBytesToRead).calls[index]? =
      let result := readLoop sys.readSideState sys.writeSideState (nBytesToRead - call.nBytes + 1)
        (nBytesToRead - call.nBytes) sys.buffer
      some { call with nBytes := call.nBytes + result.2.1.length, place := result.1.place } := by
  exact finishSection_self inside

theorem writeSection_self {bytes : List UInt8} (inside : index < sys.calls.length) :
    (sys.writeSection index call bytes).calls[index]? =
      let result := writeLoop sys.readSideState sys.writeSideState ((bytes.drop call.nBytes).length + 1)
        (0 < call.nBytes) (bytes.drop call.nBytes) sys.buffer
      some { call with nBytes := call.nBytes + result.2.1, place := result.1.place } := by
  exact finishSection_self inside

theorem readLoop_noError {remaining : Nat}
    {error : Option Errno} (returns : (readLoop readSideState writeSideState fuel remaining buffer).1 = .returns error) :
    error = none := by
  induction fuel generalizing remaining buffer with
  | zero => exact (Ending.returns.inj returns).symm
  | succ fuel ih =>
    unfold readLoop at returns
    dsimp only at returns
    split_ifs at returns
    · exact (Ending.returns.inj returns).symm
    · exact ih returns
    · exact (Ending.returns.inj returns).symm

/-- Only a full buffer without a reader breaks the pipe. -/
theorem writeLoop_brokenPipe {written : Bool}
    {bytes : List UInt8}
    (returns : (writeLoop readSideState writeSideState fuel written bytes buffer).1 = .returns (some .EPIPE)) :
    readSideState = .isClosed := by
  induction fuel generalizing written bytes buffer with
  | zero =>
    have never := Ending.returns.inj returns
    simp at never
  | succ fuel ih =>
    unfold writeLoop at returns
    dsimp only at returns
    split_ifs at returns with goesOn nothing closed
    · exact closed
    · exact closed
    · exact ih returns
    · have never := Ending.returns.inj returns
      simp at never

theorem run_cases (step : perform sys (.run index) = some after) :
    ∃ call, sys.calls[index]? = some call ∧ after = sys.runSection index call := by
  obtain ⟨call, found, performs⟩ := Option.bind_eq_some_iff.mp step
  split_ifs at performs
  exact ⟨call, found, (Option.some.inj performs).symm⟩

/-- With the read side open, a read without a byte has found an empty buffer and no writer. -/
theorem run_endOfFile (conserved : sys.Conserved) (opened : sys.readSideState = .isOpen)
    (step : perform sys (.run index) = some after) (found : after.calls[index]? = some call)
    (ends : call.EndOfFile) : sys.writeSideState = .isClosed ∧ sys.buffer.content = [] := by
  obtain ⟨before, found', rfl⟩ := run_cases step
  have inside := (List.getElem?_eq_some_iff.mp found').1
  obtain ⟨isRead, some, none, place⟩ := ends
  unfold System.runSection at found
  cases asks : before.request with
  | write bytes small =>
    rw [asks] at found
    have same := Option.some.inj ((writeSection_self inside).symm.trans found)
    rw [← same] at isRead
    simp [asks, Request.isRead] at isRead
  | read nBytesToRead small =>
    rw [asks] at found
    have same := Option.some.inj ((readSection_self inside).symm.trans found)
    have spec : ReadSpec sys.readSideState sys.writeSideState sys.buffer (nBytesToRead - before.nBytes)
        (readLoop sys.readSideState sys.writeSideState (nBytesToRead - before.nBytes + 1)
          (nBytesToRead - before.nBytes) sys.buffer) :=
      readLoop_spec conserved.valid (by omega) (Nat.lt_succ_self _)
    generalize readLoop sys.readSideState sys.writeSideState (nBytesToRead - before.nBytes + 1)
      (nBytesToRead - before.nBytes) sys.buffer = result at spec same
    rcases result with ⟨ending, bytes, buffer⟩
    obtain ⟨bytes', -, -, -, waits⟩ := spec
    rw [← same] at some none place
    simp only [asks, Request.size] at some none place bytes' waits
    rw [if_pos opened] at bytes'
    have empty : sys.buffer.content = [] := by
      rw [← List.length_eq_zero_iff]
      have length := congrArg List.length bytes'
      rw [List.length_take] at length
      omega
    refine ⟨?_, empty⟩
    cases writers : sys.writeSideState with
    | isClosed => rfl
    | isOpen =>
      have sleeps : ending = .waits := by
        refine waits.mpr ⟨opened, ?_, writers⟩
        rw [empty]
        change 0 < _
        omega
      rw [sleeps] at place
      simp [Ending.place] at place

theorem run_brokenPipe (step : perform sys (.run index) = some after) (found : after.calls[index]? = some call)
    (fails : call.place = .returned (some .EPIPE)) : sys.readSideState = .isClosed := by
  obtain ⟨before, found', rfl⟩ := run_cases step
  have inside := (List.getElem?_eq_some_iff.mp found').1
  have returns : ∀ ending : Ending, ending.place = .returned (some .EPIPE) → ending = .returns (some .EPIPE) := by
    intro ending place
    cases ending with
    | returns error =>
      rw [Place.returned.inj place]
    | waits => simp [Ending.place] at place
  unfold System.runSection at found
  cases asks : before.request with
  | read nBytesToRead small =>
    rw [asks] at found
    have same := Option.some.inj ((readSection_self inside).symm.trans found)
    rw [← same] at fails
    have never := readLoop_noError (returns _ fails)
    simp at never
  | write bytes small =>
    rw [asks] at found
    have same := Option.some.inj ((writeSection_self inside).symm.trans found)
    rw [← same] at fails
    exact writeLoop_brokenPipe (returns _ fails)

end Sections

/-! ## Channels and sides -/

section Sides
variable {p after : Plumbing} {readSide : Bool}

variable {channel : Nat} {found : Channel}

theorem openChannel_eq_some :
    p.openChannel channel = some found ↔ p.channels[channel]? = some found ∧ found.isOpen = true :=
  Option.filter_eq_some_iff

theorem hasOpen_iff :
    p.hasOpen readSide ↔ ∃ channel found, p.openChannel channel = some found ∧ found.isReadSide = readSide := by
  constructor
  · rintro ⟨found, member, side, isOpen⟩
    obtain ⟨channel, entry⟩ := List.mem_iff_getElem?.mp member
    exact ⟨channel, found, openChannel_eq_some.mpr ⟨entry, isOpen⟩, side⟩
  · rintro ⟨channel, found, opened, side⟩
    obtain ⟨entry, isOpen⟩ := openChannel_eq_some.mp opened
    exact ⟨found, List.mem_of_getElem? entry, side, isOpen⟩

theorem openChannel_close {other : Nat} (opened : p.openChannel channel = some found) :
    (p.closed channel found).openChannel other = if other ≠ channel then p.openChannel other else none := by
  have inside := (List.getElem?_eq_some_iff.mp (openChannel_eq_some.mp opened).1).1
  unfold Plumbing.openChannel Plumbing.closed
  by_cases same : other = channel
  · rw [if_neg (not_not.mpr same), same]
    rw [List.getElem?_set_self inside]
    rfl
  · rw [if_pos same]
    rw [List.getElem?_set_ne (Ne.symm same)]

theorem sideState_close_self :
    (p.closed channel found).sideState found.isReadSide = .isClosed := by
  unfold Plumbing.sideState Plumbing.closed
  cases found.isReadSide with
  | true => rfl
  | false => rfl

theorem sideState_close_other (other : readSide ≠ found.isReadSide) :
    (p.closed channel found).sideState readSide = p.sideState readSide := by
  unfold Plumbing.sideState Plumbing.closed
  cases side : found.isReadSide with
  | true =>
    rw [side] at other
    rw [Bool.eq_false_iff.mpr other]
    rfl
  | false =>
    rw [side] at other
    rw [Bool.eq_true_of_not_eq_false other]
    rfl

/-- What holds between the deeds: the calls know channels that admit them, and a side is closed when
all of its channels are. -/
structure Plumbing.Tended (p : Plumbing) : Prop where
  conserved : p.pipe.Conserved
  modes : ∀ channel ∈ p.channels, channel.mode = kOpenRead ∨ channel.mode = kOpenWrite
  calls : p.via.length = p.pipe.requests.length
  used : ∀ (index channel : Nat) (request : Request), p.via[index]? = some channel → p.pipe.requests[index]? = some request →
    ∃ found : Channel, p.channels[channel]? = some found ∧ found.admits request = true
  sides : ∀ readSide, p.sideState readSide = .isClosed ↔ ¬p.hasOpen readSide

theorem isReadSide_of_admits {channel : Channel} (mode : channel.mode = kOpenRead ∨ channel.mode = kOpenWrite)
    {request : Request} (admits : channel.admits request = true) (isRead : request.isRead = true) :
    channel.isReadSide = true := by
  rcases channel with ⟨channelMode, isOpen⟩
  obtain rfl | rfl := mode
  · have own : (kOpenRead &&& kOpenReadWrite == kOpenRead) = true := by decide
    exact own
  · unfold Channel.admits at admits
    rw [if_pos isRead] at admits
    have never : ¬(kOpenWrite &&& kOpenRead == kOpenRead) = true := by decide
    exact absurd admits never

namespace Plumbing.Tended

/-- What the pipe does on its own changes neither the channels nor the requests. -/
theorem pipeStep (tended : p.Tended) {action : Action} {pipe : System} (step : Step p.pipe action pipe)
    (requests : pipe.requests = p.pipe.requests)
    (sides : pipe.readSideState = p.pipe.readSideState ∧ pipe.writeSideState = p.pipe.writeSideState) :
    Plumbing.Tended { p with pipe := pipe } := by
  refine ⟨Step.conserved tended.conserved step, tended.modes, ?_, ?_, ?_⟩
  · rw [requests]
    exact tended.calls
  · rw [requests]
    exact tended.used
  · intro readSide
    change (if readSide then pipe.readSideState else pipe.writeSideState) = _ ↔ ¬p.hasOpen readSide
    rw [sides.1, sides.2]
    exact tended.sides readSide

variable {channel : Nat} {found : Channel}

theorem dup (tended : p.Tended) (opened : p.openChannel channel = some found) :
    Plumbing.Tended { p with channels := p.channels ++ [found.copy] } := by
  obtain ⟨entry, isOpen⟩ := openChannel_eq_some.mp opened
  have copied : found.copy = found := by
    rcases found with ⟨mode, isOpen'⟩
    change isOpen' = true at isOpen
    rw [isOpen]
    rfl
  rw [copied]
  have member := List.mem_of_getElem? entry
  refine ⟨tended.conserved, ?_, tended.calls, ?_, ?_⟩
  · intro channel' member'
    rcases List.mem_append.mp member' with old | new
    · exact tended.modes channel' old
    · rw [List.mem_singleton.mp new]
      exact tended.modes found member
  · intro index via request uses asks
    obtain ⟨used, there, admits⟩ := tended.used index via request uses asks
    exact ⟨used, List.getElem?_append_left (List.getElem?_eq_some_iff.mp there).1 ▸ there, admits⟩
  · intro readSide
    have same : Plumbing.hasOpen { p with channels := p.channels ++ [found] } readSide ↔ p.hasOpen readSide := by
      constructor
      · rintro ⟨other, member', side, isOpen'⟩
        rcases List.mem_append.mp member' with old | new
        · exact ⟨other, old, side, isOpen'⟩
        · rw [List.mem_singleton.mp new] at side isOpen'
          exact ⟨found, member, side, isOpen'⟩
      · rintro ⟨other, member', side, isOpen'⟩
        exact ⟨other, List.mem_append_left _ member', side, isOpen'⟩
    rw [same]
    exact tended.sides readSide

theorem close (tended : p.Tended) (opened : p.openChannel channel = some found)
    (last : ∀ other, other ≠ channel → ∀ there, p.openChannel other = some there →
      there.isReadSide ≠ found.isReadSide) :
    (p.closed channel found).Tended := by
  obtain ⟨entry, isOpen⟩ := openChannel_eq_some.mp opened
  have inside := (List.getElem?_eq_some_iff.mp entry).1
  have conserved : (p.pipe.close found.isReadSide).Conserved := by
    have step : Step p.pipe (.close found.isReadSide) (p.pipe.close found.isReadSide) := rfl
    exact Step.conserved tended.conserved step
  refine ⟨conserved, ?_, ?_, ?_, ?_⟩
  · intro channel' member'
    rcases List.mem_or_eq_of_mem_set member' with old | new
    · exact tended.modes channel' old
    · rw [new]
      exact tended.modes found (List.mem_of_getElem? entry)
  · change p.via.length = (p.pipe.close found.isReadSide).requests.length
    rw [requests_close]
    exact tended.calls
  · change ∀ (index via : Nat) (request : Request), _ → (p.pipe.close found.isReadSide).requests[index]? = some request → _
    rw [requests_close]
    intro index via request uses asks
    obtain ⟨used, there, admits⟩ := tended.used index via request uses asks
    by_cases own : via = channel
    · rw [own, entry] at there
      rw [← Option.some.inj there] at admits
      rw [own]
      exact ⟨_, List.getElem?_set_self inside, admits⟩
    · refine ⟨used, ?_, admits⟩
      change (p.channels.set channel _)[via]? = some used
      rw [List.getElem?_set_ne (Ne.symm own)]
      exact there
  · intro readSide
    rw [hasOpen_iff]
    by_cases own : readSide = found.isReadSide
    · constructor
      · intro _
        rintro ⟨other, there, opened', side⟩
        rw [openChannel_close opened] at opened'
        split_ifs at opened' with differs
        exact last other differs there opened' (side.trans own)
      · intro _
        rw [own]
        exact sideState_close_self
    · rw [sideState_close_other own, tended.sides readSide, hasOpen_iff]
      refine not_congr (exists_congr fun other => exists_congr fun there => ?_)
      rw [openChannel_close opened]
      constructor
      · rintro ⟨opened', side⟩
        have differs : other ≠ channel := by
          intro same
          rw [same, opened] at opened'
          rw [← Option.some.inj opened'] at side
          exact own side.symm
        exact ⟨(if_pos differs).trans opened', side⟩
      · rintro ⟨opened', side⟩
        split_ifs at opened'
        exact ⟨opened', side⟩

theorem use (tended : p.Tended) (opened : p.openChannel channel = some found)
    {request : Request} (admits : found.admits request = true) (place : Place) :
    Plumbing.Tended { p with
      pipe := { p.pipe with calls := p.pipe.calls ++ [⟨request, 0, place⟩] }
      via := p.via ++ [channel] } := by
  have entry := (openChannel_eq_some.mp opened).1
  have requests : System.requests { p.pipe with calls := p.pipe.calls ++ [⟨request, 0, place⟩] } =
      p.pipe.requests ++ [request] := List.map_append
  refine ⟨tended.conserved.call request place, tended.modes, ?_, ?_, tended.sides⟩
  · rw [requests, List.length_append, List.length_append, tended.calls]
    rfl
  · intro index via request' uses asks
    rw [requests] at asks
    by_cases old : index < p.via.length
    · rw [List.getElem?_append_left old] at uses
      rw [List.getElem?_append_left (tended.calls ▸ old)] at asks
      exact tended.used index via request' uses asks
    · rw [List.getElem?_append_right (Nat.le_of_not_lt old)] at uses
      rw [List.getElem?_append_right (tended.calls ▸ Nat.le_of_not_lt old), ← tended.calls] at asks
      rw [List.mem_singleton.mp (List.mem_of_getElem? uses), List.mem_singleton.mp (List.mem_of_getElem? asks)]
      exact ⟨found, entry, admits⟩

theorem perform (tended : p.Tended) {deed : Deed} (step : p.perform deed = some after) (last : deed.ClosesLast p) :
    after.Tended := by
  cases deed with
  | dup channel =>
    obtain ⟨found, opened, same⟩ := Option.bind_eq_some_iff.mp step
    rw [← Option.some.inj same]
    exact tended.dup opened
  | close channel =>
    obtain ⟨found, opened, same⟩ := Option.bind_eq_some_iff.mp step
    rw [← Option.some.inj same]
    refine tended.close opened ?_
    intro other differs there opened'
    have inside := (List.getElem?_eq_some_iff.mp (openChannel_eq_some.mp opened').1).1
    exact last found opened other inside differs there opened'
  | use channel request =>
    obtain ⟨found, opened, performs⟩ := Option.bind_eq_some_iff.mp step
    split_ifs at performs with admits
    · rw [← Option.some.inj performs]
      exact tended.use opened admits _
    · rw [← Option.some.inj performs]
      exact tended
  | run index =>
    obtain ⟨pipe, performs, same⟩ := Option.map_eq_some_iff.mp step
    obtain ⟨call, found, after'⟩ := run_cases performs
    rw [← same]
    refine tended.pipeStep performs ?_ ?_
    · rw [after']
      exact requests_runSection found
    · rw [after']
      exact runSection_sides
  | interrupt index =>
    obtain ⟨pipe, performs, same⟩ := Option.map_eq_some_iff.mp step
    obtain ⟨call, found, enabled⟩ := Option.bind_eq_some_iff.mp performs
    rw [← same]
    split_ifs at enabled
    rw [← Option.some.inj enabled] at performs ⊢
    exact tended.pipeStep performs (requests_setPlace found _) ⟨rfl, rfl⟩
  | leave index =>
    obtain ⟨pipe, performs, same⟩ := Option.map_eq_some_iff.mp step
    obtain ⟨call, found, enabled⟩ := Option.bind_eq_some_iff.mp performs
    rw [← same]
    split_ifs at enabled
    rw [← Option.some.inj enabled] at performs ⊢
    exact tended.pipeStep performs (requests_setPlace found _) ⟨rfl, rfl⟩

theorem follows (tended : p.Tended) : p.Follows := by
  refine ⟨tended.sides, ?_, ?_⟩
  · intro index channel after call uses opens step found ends
    obtain ⟨pipe, performs, same⟩ := Option.map_eq_some_iff.mp step
    rw [← same] at found
    -- the channel is an open one of the read side
    obtain ⟨before, found', after'⟩ := run_cases performs
    have requests : pipe.requests = p.pipe.requests := after' ▸ requests_runSection found'
    have asks : p.pipe.requests[index]? = some call.request := by
      rw [← requests]
      unfold System.requests
      rw [List.getElem?_map, found]
      rfl
    obtain ⟨own, entry, admits⟩ := tended.used index channel call.request uses asks
    obtain ⟨own', opened⟩ := Option.isSome_iff_exists.mp opens
    have same' : own' = own := Option.some.inj ((openChannel_eq_some.mp opened).1.symm.trans entry)
    have readers : p.hasOpen true := by
      refine hasOpen_iff.mpr ⟨channel, own', opened, ?_⟩
      rw [same']
      exact isReadSide_of_admits (tended.modes own (List.mem_of_getElem? entry)) admits ends.1
    have open' : p.pipe.readSideState = .isOpen := by
      cases state : p.pipe.readSideState with
      | isOpen => rfl
      | isClosed => exact absurd readers ((tended.sides true).mp state)
    obtain ⟨closed, empty⟩ := run_endOfFile tended.conserved open' performs found ends
    exact ⟨(tended.sides false).mp closed, empty⟩
  · intro index after call step found fails
    obtain ⟨pipe, performs, same⟩ := Option.map_eq_some_iff.mp step
    rw [← same] at found
    exact (tended.sides true).mp (run_brokenPipe performs found fails)

end Plumbing.Tended

theorem createPipe_tended {fuel : Nat} {data : Nat → UInt8} (creates : createPipe fuel data = some p) : p.Tended := by
  obtain ⟨pipe, created, rfl⟩ := Option.map_eq_some_iff.mp creates
  have conserved := pipeCreate_conserved created
  obtain ⟨buffer, _, rfl⟩ := Option.map_eq_some_iff.mp created
  have modes : ∀ channel ∈ [Channel.create kOpenRead, Channel.create kOpenWrite],
      channel.mode = kOpenRead ∨ channel.mode = kOpenWrite := by decide
  refine ⟨conserved, modes, rfl, ?_, ?_⟩
  · intro index channel request uses
    simp at uses
  · intro readSide
    cases readSide with
    | true =>
      refine ⟨fun closed => absurd closed SideState.noConfusion, fun none => absurd ?_ none⟩
      exact ⟨.create kOpenRead, List.mem_cons_self, by decide, rfl⟩
    | false =>
      refine ⟨fun closed => absurd closed SideState.noConfusion, fun none => absurd ?_ none⟩
      exact ⟨.create kOpenWrite, List.mem_cons_of_mem _ List.mem_cons_self, by decide, rfl⟩

end Sides

/-! ## Runs -/

def LastingDeed (p : Plumbing) (deed : Deed) (after : Plumbing) : Prop :=
  p.perform deed = some after ∧ deed.ClosesLast p

/-- As long as only last channels are closed, the sides of the pipe follow its channels. -/
theorem channels_follow {fuel : Nat} {data : Nat → UInt8} {start p : Plumbing} {deeds : List Deed}
    (creates : createPipe fuel data = some start) (run : Runs LastingDeed start deeds p) : p.Follows := by
  have tended : p.Tended := by
    apply run.invariant Plumbing.Tended (createPipe_tended creates)
    intro deed state after holds step
    exact holds.perform step.1 step.2
  exact tended.follows

def performLasting (p : Plumbing) (deed : Deed) : Option Plumbing :=
  if deed.ClosesLast p then p.perform deed else none

theorem oneByte_small : 1 < 2147483648 := by decide

def onlyWriter : List Deed :=
  [.use 1 (.write [7] oneByte_small), .run 0, .close 1, .use 0 (.read 1 oneByte_small), .run 1, .use 0 (.read 1 oneByte_small)]

theorem onlyWriter_follow :
    ∃ (start p : Plumbing) (deeds : List Deed), createPipe 16 (fun _ => 0) = some start ∧
      Runs LastingDeed start deeds p ∧ bytesOf p.pipe.taken = [7] ∧ p.sideState false = .isClosed ∧ p.Follows := by
  have performs : ((createPipe 16 (fun _ => 0)).bind fun start =>
      (Lib.performAll performLasting onlyWriter start).map fun p => (bytesOf p.pipe.taken, p.sideState false)) =
        some ([7], .isClosed) := by
    decide
  obtain ⟨start, creates, performs⟩ := Option.bind_eq_some_iff.mp performs
  obtain ⟨p, performed, data⟩ := Option.map_eq_some_iff.mp performs
  have taken : ∀ state deed after, performLasting state deed = some after → LastingDeed state deed after := by
    intro state deed after performs
    unfold performLasting at performs
    split_ifs at performs with last
    exact ⟨performs, last⟩
  obtain ⟨deeds, run⟩ := Runs.performAll taken .nil performed
  obtain ⟨bytes, closed⟩ := Prod.mk.inj data
  exact ⟨start, p, deeds, creates, run, bytes, closed, channels_follow creates run⟩

def inheritedWriter : List Deed :=
  [.dup 1, .close 1]

/-- The child's channel is open, but the write side is closed. -/
theorem inheritedWriter_misled :
    ∃ (start p : Plumbing) (deeds : List Deed), createPipe 16 (fun _ => 0) = some start ∧
      Runs (fun p deed after => p.perform deed = some after) start deeds p ∧
      p.openChannel 2 = some (.create kOpenWrite) ∧ p.sideState false = .isClosed ∧ ¬p.Follows := by
  have performs : ((createPipe 16 (fun _ => 0)).bind fun start =>
      (Lib.performAll Plumbing.perform inheritedWriter start).map fun p => (p.openChannel 2, p.sideState false)) =
        some (some (.create kOpenWrite), .isClosed) := by
    decide
  obtain ⟨start, creates, performs⟩ := Option.bind_eq_some_iff.mp performs
  obtain ⟨p, performed, data⟩ := Option.map_eq_some_iff.mp performs
  obtain ⟨deeds, run⟩ := Runs.performAll (fun _ _ _ performs => performs) .nil performed
  obtain ⟨opened, closed⟩ := Prod.mk.inj data
  refine ⟨start, p, deeds, creates, run, opened, closed, ?_⟩
  intro follows
  exact (follows.sides false).mp closed (hasOpen_iff.mpr ⟨2, _, opened, by decide⟩)

end Apollo.Pipe
