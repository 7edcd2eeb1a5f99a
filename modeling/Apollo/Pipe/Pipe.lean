import Apollo.Filesystem.Inode
import Apollo.Klib.RingBuffer
import Apollo.Lib.Runs

/-!
# Pipes

`Pipe.c` with any number of callers.  A step is what one caller does from one
acquisition of the pipe lock to the next: it ends when the call returns or when
the caller goes to sleep on the condition variable of its side.  A broadcast
makes every sleeper of a side runnable again; a sleeper may also be interrupted.

`taken` and `put` record what the steps moved, newest last; no code reads them.
-/

set_option autoImplicit false

namespace Apollo.Pipe

open Klib
open Lib

inductive SideState
  | isOpen
  | isClosed
  deriving DecidableEq

/-- What a caller asks for.  A `ssize_t` count is below `2^31`, and a call with a count that is
not positive moves nothing. -/
inductive Request
  | read (nBytesToRead : Nat) (small : nBytesToRead < 2147483648)
  | write (bytes : List UInt8) (small : bytes.length < 2147483648)

def Request.isRead : Request → Bool
  | .read _ _ => true
  | .write _ _ => false

def Request.size : Request → Nat
  | .read nBytesToRead _ => nBytesToRead
  | .write bytes _ => bytes.length

/-- Where a call is: in front of its first `Lock_Lock`, on the condition variable of its side,
woken up by a broadcast or by an interrupt and in front of the `Lock_Lock` behind the wait, or
back at its caller with an error code. -/
inductive Place
  | entering
  | asleep
  | signalled
  | interrupted
  | returned (error : Option Errno)
  deriving DecidableEq

/-- A call; `nBytes` is `nBytesRead` or `nBytesWritten`. -/
structure Call where
  request : Request
  nBytes : Nat
  place : Place

structure System where
  buffer : RingBuffer
  readSideState : SideState
  writeSideState : SideState
  calls : List Call
  taken : List (Nat × List UInt8)
  put : List (Nat × List UInt8)

/-- How a section that holds the lock ends. -/
inductive Ending
  | returns (error : Option Errno)
  | waits
  deriving DecidableEq

/-- The loop of `Pipe_read` up to its end or to `ConditionVariable_Wait`: the ending, the bytes
that were stored in the caller's buffer, and the ring buffer. -/
def readLoop (readSideState writeSideState : SideState) :
    Nat → Nat → RingBuffer → Ending × List UInt8 × RingBuffer
  | 0, _, buffer => (.returns none, [], buffer)
  | fuel + 1, remaining, buffer =>
    if 0 < remaining ∧ readSideState = .isOpen then
      let (nChunkSize, bytes, buffer) := buffer.getBytes (BitVec.ofNat 32 remaining)
      if nChunkSize = 0 then
        if writeSideState = .isClosed then (.returns none, bytes, buffer) else (.waits, bytes, buffer)
      else
        let (ending, more, buffer) :=
          readLoop readSideState writeSideState fuel (remaining - nChunkSize.toNat) buffer
        (ending, bytes ++ more, buffer)
    else (.returns none, [], buffer)

/-- The loop of `Pipe_write` up to its end or to `ConditionVariable_Wait`: the ending, the number
of bytes that were put, and the ring buffer.  `written` tells whether the call has put bytes before. -/
def writeLoop (readSideState writeSideState : SideState) :
    Nat → Bool → List UInt8 → RingBuffer → Ending × Nat × RingBuffer
  | 0, _, _, buffer => (.returns none, 0, buffer)
  | fuel + 1, written, bytes, buffer =>
    if bytes ≠ [] ∧ writeSideState = .isOpen then
      let (nChunkSize, buffer) := buffer.putBytes bytes
      if nChunkSize = 0 then
        if readSideState = .isClosed then
          (.returns (if written then none else some .EPIPE), 0, buffer)
        else (.waits, 0, buffer)
      else
        let (ending, more, buffer) :=
          writeLoop readSideState writeSideState fuel true (bytes.drop nChunkSize.toNat) buffer
        (ending, nChunkSize.toNat + more, buffer)
    else (.returns none, 0, buffer)

namespace System

def setCall (sys : System) (index : Nat) (call : Call) : System :=
  { sys with calls := sys.calls.set index call }

/-- `ConditionVariable_BroadcastAndUnlock` on the condition variable of the readers or of the
writers. -/
def broadcast (sys : System) (readers : Bool) : System :=
  { sys with
    calls := sys.calls.map fun call =>
      if call.request.isRead = readers ∧ call.place = .asleep then { call with place := .signalled } else call }

/-- The call at `index` has ended its section. -/
def finishSection (sys : System) (index : Nat) (call : Call) (ending : Ending) : System :=
  match ending with
  | .returns error => sys.setCall index { call with place := .returned error }
  | .waits => (sys.broadcast (!call.request.isRead)).setCall index { call with place := .asleep }

def readSection (sys : System) (index : Nat) (call : Call) (nBytesToRead : Nat) : System :=
  let remaining := nBytesToRead - call.nBytes
  let (ending, bytes, buffer) :=
    readLoop sys.readSideState sys.writeSideState (remaining + 1) remaining sys.buffer
  finishSection { sys with buffer := buffer, taken := sys.taken ++ [(index, bytes)] } index
    { call with nBytes := call.nBytes + bytes.length } ending

def writeSection (sys : System) (index : Nat) (call : Call) (bytes : List UInt8) : System :=
  let remaining := bytes.drop call.nBytes
  let (ending, count, buffer) :=
    writeLoop sys.readSideState sys.writeSideState (remaining.length + 1) (0 < call.nBytes) remaining sys.buffer
  finishSection { sys with buffer := buffer, put := sys.put ++ [(index, remaining.take count)] } index
    { call with nBytes := call.nBytes + count } ending

/-- A section of `Pipe_read` or `Pipe_write`. -/
def runSection (sys : System) (index : Nat) (call : Call) : System :=
  match call.request with
  | .read nBytesToRead _ => sys.readSection index call nBytesToRead
  | .write bytes _ => sys.writeSection index call bytes

def leave (sys : System) (index : Nat) (call : Call) : System :=
  sys.setCall index { call with place := .returned (if call.nBytes = 0 then some .EINTR else none) }

def close (sys : System) (readSide : Bool) : System :=
  let sys := if readSide then { sys with readSideState := .isClosed } else { sys with writeSideState := .isClosed }
  (sys.broadcast true).broadcast false

end System

/-! ## Steps -/

inductive Action
  | call (request : Request)
  | run (index : Nat)
  | interrupt (index : Nat)
  | leave (index : Nat)
  | close (readSide : Bool)

def perform (sys : System) : Action → Option System
  | .call request =>
    let place := if request.size = 0 then Place.returned none else Place.entering
    some { sys with calls := sys.calls ++ [⟨request, 0, place⟩] }
  | .run index => do
      let call ← sys.calls[index]?
      if call.place = .entering ∨ call.place = .signalled then some (sys.runSection index call) else none
  | .interrupt index => do
      let call ← sys.calls[index]?
      if call.place = .asleep then some (sys.setCall index { call with place := .interrupted }) else none
  | .leave index => do
      let call ← sys.calls[index]?
      if call.place = .interrupted then some (sys.leave index call) else none
  | .close readSide => some (sys.close readSide)

def Step (sys : System) (action : Action) (after : System) : Prop := perform sys action = some after

/-- `Pipe_Create`; `data` is what is in the memory that `kalloc` returns. -/
def pipeCreate (fuel : Nat) (bufferSize : BitVec 32) (data : Nat → UInt8) : Option System :=
  (RingBuffer.init fuel (if bufferSize.ult 1 then 1 else bufferSize) data).map fun buffer =>
    ⟨buffer, .isOpen, .isOpen, [], [], []⟩

def performAll (admits : System → Action → Bool) : List Action → System → Option System
  | [], sys => some sys
  | action :: rest, sys =>
    if admits sys action then (perform sys action).bind (performAll admits rest) else none

theorem runs_performAll {admits : System → Action → Bool} {actions done : List Action} {start sys after : System}
    (run : Runs (fun sys action next => Step sys action next ∧ admits sys action = true) start done sys)
    (performs : performAll admits actions sys = some after) :
    ∃ all, Runs (fun sys action next => Step sys action next ∧ admits sys action = true) start all after := by
  induction actions generalizing done sys with
  | nil =>
    rw [← Option.some.inj performs]
    exact ⟨done, run⟩
  | cons action rest ih =>
    unfold performAll at performs
    by_cases admitted : admits sys action = true
    · rw [if_pos admitted] at performs
      obtain ⟨next, step, later⟩ := Option.bind_eq_some_iff.mp performs
      exact ih (run.step ⟨step, admitted⟩) later
    · rw [if_neg admitted] at performs
      simp at performs

end Apollo.Pipe
