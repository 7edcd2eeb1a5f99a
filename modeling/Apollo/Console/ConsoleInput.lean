import Apollo.Console.KeyMap
import Apollo.Klib.RingBuffer
import Apollo.Lib.Runs

/-!
# The input side of the console

The reports queue and the reading functions of `Console.c`, for one channel.  The
lock of the console is free between the calls and while a call waits for an event.
The result is `none` where the code would leave the bounds of a buffer, fail an
assertion or loop forever.
-/

set_option autoImplicit false

namespace Apollo.Klib.RingBuffer

def getByte (buffer : RingBuffer) : Option (UInt8 × RingBuffer) :=
  if buffer.readIdx = buffer.writeIdx then none
  else some (buffer.data (maskIndex buffer.capacity buffer.readIdx), { buffer with readIdx := buffer.readIdx + 1 })

end Apollo.Klib.RingBuffer

namespace Apollo.Console

open Klib Lib

/-- `MAX_MESSAGE_LENGTH`, which is `kKeyMap_MaxByteSequenceLength`. -/
def maxMessageLength : Nat := 16

structure Report where
  text : List UInt8
  nulFree : ∀ byte ∈ text, byte ≠ 0
  short : text.length < maxMessageLength

/-! ## Reports -/

def removeReport : Nat → RingBuffer → Option RingBuffer
  | 0, _ => none
  | fuel + 1, queue => do
      let (b, queue) ← queue.getByte
      if b = 0 then some queue else removeReport fuel queue

/-- The loop of `Console_PostReport_Locked`. -/
def makeSpace (nBytesToWrite : Nat) : Nat → RingBuffer → Option RingBuffer
  | 0, _ => none
  | fuel + 1, queue =>
    if queue.writableCount.toNat < nBytesToWrite then do
      let queue ← removeReport (queue.readableCount.toNat + 1) queue
      makeSpace nBytesToWrite fuel queue
    else some queue

def postReport (queue : RingBuffer) (msg : List UInt8) : Option RingBuffer :=
  let nBytesToWrite := msg.length + 1
  if nBytesToWrite < maxMessageLength + 1 then do
    let queue ← makeSpace nBytesToWrite (queue.readableCount.toNat + 1) queue
    some (queue.putBytes (msg ++ [0])).2
  else none

/-! ## Reading -/

structure ConsoleChannel where
  rdBuffer : List UInt8
  rdCount : Nat
  rdIndex : Nat
  deriving DecidableEq

/-- The loops that copy from the buffer of the channel: the bytes, the next index and the bytes that are left. -/
def copyFrom (rdBuffer : List UInt8) : Nat → Nat → Nat → Option (List UInt8 × Nat × Nat)
  | _, i, 0 => some ([], i, 0)
  | 0, i, rdCount + 1 => some ([], i, rdCount + 1)
  | space + 1, i, rdCount + 1 => do
      let byte ← rdBuffer[i]?
      let (rest, i, rdCount) ← copyFrom rdBuffer space (i + 1) rdCount
      some (byte :: rest, i, rdCount)

def takeReport : Nat → RingBuffer → ConsoleChannel → Option (Bool × RingBuffer × ConsoleChannel)
  | 0, _, _ => none
  | fuel + 1, queue, channel =>
    match queue.getByte with
    | none => some (false, queue, channel)
    | some (b, queue) =>
      if b = 0 then some (true, queue, channel)
      else if channel.rdCount < channel.rdBuffer.length then
        takeReport fuel queue
          { channel with rdBuffer := channel.rdBuffer.set channel.rdCount b, rdCount := channel.rdCount + 1 }
      else none

def readReports : Nat → Nat → RingBuffer → ConsoleChannel → Option (List UInt8 × RingBuffer × ConsoleChannel)
  | 0, _, _, _ => none
  | fuel + 1, space, queue, channel =>
    if space = 0 then some ([], queue, channel)
    else do
      let (found, queue, channel) ← takeReport (queue.readableCount.toNat + 1) queue channel
      if found then
        let (bytes, i, rdCount) ← copyFrom channel.rdBuffer space 0 channel.rdCount
        if rdCount > 0 then some (bytes, queue, { channel with rdCount := rdCount, rdIndex := i })
        else
          let (more, queue, channel) ← readReports fuel (space - bytes.length) queue { channel with rdCount := 0 }
          some (bytes ++ more, queue, channel)
      else some ([], queue, channel)

/-- The reports that `Console_read` reads when there are any. -/
def readPending (space : Nat) (queue : RingBuffer) (channel : ConsoleChannel) : Option (List UInt8 × RingBuffer × ConsoleChannel) :=
  if queue.readIdx = queue.writeIdx then some ([], queue, channel)
  else readReports (queue.readableCount.toNat + 1) space queue channel

/-! ## Calls -/

/-- A call of `Console_read` that waits for an event. -/
structure Reading where
  nBytesToRead : Nat
  pBuffer : List UInt8
  deriving DecidableEq

structure ReadResult where
  err : Int
  bytes : List UInt8
  deriving DecidableEq

def eok : Int := 0

structure InputSystem where
  reportsQueue : RingBuffer
  keyMap : List UInt8
  channel : ConsoleChannel
  reading : Option Reading

/-- What `IOChannel_Read` returns for the channel of the event driver. -/
inductive Incoming
  | keyDown (key : KeyEvent)
  | other
  | failure (err : Int)
  deriving DecidableEq

inductive InputAction
  | postReport (report : Report)
  | read (nBytesToRead : Nat)
  | receive (incoming : Incoming)

namespace InputSystem

/-- `Console_read` up to the events; it waits for an event when there are no bytes. -/
def startRead (sys : InputSystem) (nBytesToRead : Nat) : Option (Option ReadResult × InputSystem) := do
  let (held, rdIndex, rdCount) ← copyFrom sys.channel.rdBuffer nBytesToRead sys.channel.rdIndex sys.channel.rdCount
  let channel := { sys.channel with rdIndex := rdIndex, rdCount := rdCount }
  let (reports, queue, channel) ← readPending (nBytesToRead - held.length) sys.reportsQueue channel
  let bytes := held ++ reports
  let sys := { sys with reportsQueue := queue, channel := channel }
  if bytes.length = 0 ∧ 0 < nBytesToRead then some (none, { sys with reading := some ⟨nBytesToRead, []⟩ })
  else some (some ⟨eok, bytes⟩, sys)

/-- A round of `Console_ReadEvents_Locked`. -/
def receive (sys : InputSystem) (reading : Reading) : Incoming → Option (Option ReadResult × InputSystem)
  | .failure err =>
    let err := if reading.pBuffer.length = 0 then err else eok
    some (some ⟨err, reading.pBuffer⟩, { sys with reading := none })
  | .other => some (none, sys)
  | .keyDown key => do
      let sequence ← keyMapMap sys.keyMap key maxMessageLength
      let rdBuffer := sequence ++ sys.channel.rdBuffer.drop sequence.length
      let (bytes, i, rdCount) ← copyFrom rdBuffer (reading.nBytesToRead - reading.pBuffer.length) 0 sequence.length
      let pBuffer := reading.pBuffer ++ bytes
      if rdCount > 0 then
        some (some ⟨eok, pBuffer⟩, { sys with channel := ⟨rdBuffer, rdCount, i⟩, reading := none })
      else
        let sys := { sys with channel := { sys.channel with rdBuffer := rdBuffer, rdCount := 0 } }
        if pBuffer.length < reading.nBytesToRead then
          some (none, { sys with reading := some { reading with pBuffer := pBuffer } })
        else some (some ⟨eok, pBuffer⟩, { sys with reading := none })

/-- What happens while the lock is free; there is one reader. -/
def perform (sys : InputSystem) : InputAction → Option (Option ReadResult × InputSystem)
  | .postReport report => do
      let queue ← Console.postReport sys.reportsQueue report.text
      some (none, { sys with reportsQueue := queue })
  | .read nBytesToRead => if sys.reading = none ∧ 0 < nBytesToRead then sys.startRead nBytesToRead else none
  | .receive incoming =>
    match sys.reading with
    | some reading => sys.receive reading incoming
    | none => none

end InputSystem

/-- `Console_Create` and `Console_open`; no power of two of 32 bits needs more rounds. -/
def createInput (data : Nat → UInt8) (keyMap : List UInt8) : Option InputSystem :=
  (RingBuffer.init 32 (BitVec.ofNat 32 (4 * (maxMessageLength + 1))) data).map fun queue =>
    ⟨queue, keyMap, ⟨List.replicate maxMessageLength 0, 0, 0⟩, none⟩

def InputSystem.Step (sys : InputSystem) (label : InputAction × Option ReadResult) (after : InputSystem) : Prop :=
  sys.perform label.1 = some (label.2, after)

end Apollo.Console
