import Apollo.Dispatcher.WaitQueue
import Apollo.Driver.MonotonicClock
import Apollo.Klib.DoublyLinkedList
import Apollo.Lib.Runs

/-!
# The virtual processor scheduler

The functions of `VirtualProcessorScheduler.c` and the parts of
`VirtualProcessor.c` that suspend, resume, prioritise and terminate.  They run
with interrupts off, so that each call is one step up to its context switch; a
virtual processor that was switched away from goes on when it has the CPU again.

A failed assertion, a null pointer and an index outside of the ready queue are
faults.  A loop takes `fuel`, and a loop that has none left is one that does not
end.
-/

set_option autoImplicit false

namespace Apollo.Dispatcher.VirtualProcessorScheduler

open Driver
open Klib
open Lib

inductive VirtualProcessorState
  | ready
  | running
  | waiting
  deriving DecidableEq

/-- The wait queues: those of the scheduler itself and those of locks, semaphores and condition variables. -/
inductive WaitQueueName
  | scheduler
  | sleep
  | other (id : Nat)
  deriving DecidableEq

/-- The lists that a `rewa_queue_entry` may be on.  `deadVps` is a local variable of the boot virtual processor. -/
inductive QueueName
  | ready (priority : Nat)
  | wait (queue : WaitQueueName)
  | finalizer
  | deadVps
  deriving DecidableEq

/-- `VirtualProcessor`, without its list entry.  There is a deadline while the timeout is valid, and no
wakeup reason stands for `WAKEUP_REASON_NONE`. -/
structure VirtualProcessor where
  priority : Int
  effectivePriority : Int
  state : VirtualProcessorState
  isTerminated : Bool
  isCallAsUserInProgress : Bool
  isCallAsUserAborted : Bool
  isInterruptableWait : Bool
  quantumAllowance : Int
  suspensionCount : Nat
  deadline : Option Int
  waitingOnWaitQueue : Option WaitQueueName
  waitStartTime : Int
  wakeupReason : Option WakeUpReason
  deriving DecidableEq

/-- `VirtualProcessor_CommonInit`, in memory that was cleared. -/
def commonInit (priority : Int) : VirtualProcessor where
  priority := priority
  effectivePriority := 0
  state := .ready
  isTerminated := false
  isCallAsUserInProgress := false
  isCallAsUserAborted := false
  isInterruptableWait := false
  quantumAllowance := 0
  suspensionCount := 1
  deadline := none
  waitingOnWaitQueue := none
  waitStartTime := 0
  wakeupReason := none

/-- The scheduler, the virtual processors and the clock.  A context switch is signalled while there is a
scheduled virtual processor.  `nextDeadVp` is where the boot virtual processor is in its list of dead ones. -/
structure Scheduler where
  vps : Nat → VirtualProcessor
  isAllocated : Nat → Bool
  nextVpid : Nat
  rewaQueueEntries : Heap Nat
  lists : QueueName → DList Nat
  populated : Nat → BitVec 8
  running : Option Nat
  scheduled : Option Nat
  isCooperationEnabled : Bool
  quantumsPerQuarterSecond : Int
  clock : MonotonicClock
  timeoutQueue : List Nat
  nextDeadVp : Option Nat

def bootVirtualProcessor : Nat := 0

def idleVirtualProcessor : Nat := 1

/-- The value that an `int8_t` gets. -/
def toInt8 (value : Int) : Int := value.bmod 256

def quantumAllowanceForPriority (pri : Int) : Int := ((63 - pri) >>> (3 : Nat)) + 1

def readyIndex? (pri : Int) : Option Nat := if 0 ≤ pri ∧ pri < 64 then some pri.toNat else none

namespace Scheduler

def setVp (sched : Scheduler) (vp : Nat) (change : VirtualProcessor → VirtualProcessor) : Scheduler :=
  { sched with vps := Function.update sched.vps vp (change (sched.vps vp)) }

def withList (sched : Scheduler) (name : QueueName) (result : Heap Nat × DList Nat) : Scheduler :=
  { sched with rewaQueueEntries := result.1, lists := Function.update sched.lists name result.2 }

def insertAfterLast (sched : Scheduler) (name : QueueName) (vp : Nat) : Scheduler :=
  sched.withList name ((sched.lists name).insertAfterLast sched.rewaQueueEntries vp)

def insertAfter (sched : Scheduler) (name : QueueName) (vp : Nat) (previous : Option Nat) : Scheduler :=
  sched.withList name ((sched.lists name).insertAfter sched.rewaQueueEntries vp previous)

def remove (sched : Scheduler) (name : QueueName) (vp : Nat) : Scheduler :=
  sched.withList name ((sched.lists name).remove sched.rewaQueueEntries vp)

def setPopulated (sched : Scheduler) (pri : Nat) : Scheduler :=
  let popByteIdx := pri >>> 3
  let popBitIdx := pri - (popByteIdx <<< 3)
  { sched with
    populated := Function.update sched.populated popByteIdx (sched.populated popByteIdx ||| (1#8 <<< popBitIdx)) }

def clearPopulated (sched : Scheduler) (pri : Nat) : Scheduler :=
  let popByteIdx := pri >>> 3
  let popBitIdx := pri - (popByteIdx <<< 3)
  { sched with
    populated := Function.update sched.populated popByteIdx
      (sched.populated popByteIdx &&& ~~~(1#8 <<< popBitIdx)) }

end Scheduler

/-! ## The ready queue -/

/-- A virtual processor that becomes ready at the time `now`. -/
def madeReady (effectivePriority now : Int) (self : VirtualProcessor) : VirtualProcessor :=
  { self with
    state := .ready
    effectivePriority := toInt8 effectivePriority
    quantumAllowance := quantumAllowanceForPriority (toInt8 effectivePriority)
    waitStartTime := now }

def addVirtualProcessorLocked (vp : Nat) (effectivePriority : Int) : Code Scheduler Errno Unit := fun sched =>
  if (sched.rewaQueueEntries vp).prev = none ∧ (sched.rewaQueueEntries vp).next = none ∧
      (sched.vps vp).suspensionCount = 0 then
    let sched := sched.setVp vp (madeReady effectivePriority sched.clock.currentQuantum)
    match readyIndex? (sched.vps vp).effectivePriority with
    | some pri => .ok () ((sched.insertAfterLast (.ready pri) vp).setPopulated pri)
    | none => .fault
  else .fault

def removeVirtualProcessorLocked (vp : Nat) : Code Scheduler Errno Unit := fun sched =>
  match readyIndex? (sched.vps vp).effectivePriority with
  | some pri =>
    let sched := sched.remove (.ready pri) vp
    .ok () (if (sched.lists (.ready pri)).first = none then sched.clearPopulated pri else sched)
  | none => .fault

/-- The loop of `GetHighestPriorityReady`, from the byte in front of `count` downwards. -/
def highestPriorityReady (sched : Scheduler) : Nat → Option Nat
  | 0 => none
  | popByteIdx + 1 =>
    let popByte := sched.populated popByteIdx
    if popByte ≠ 0#8 then
      if popByte &&& 0x80#8 ≠ 0#8 then (sched.lists (.ready ((popByteIdx <<< 3) + 7))).first
      else if popByte &&& 0x40#8 ≠ 0#8 then (sched.lists (.ready ((popByteIdx <<< 3) + 6))).first
      else if popByte &&& 0x20#8 ≠ 0#8 then (sched.lists (.ready ((popByteIdx <<< 3) + 5))).first
      else if popByte &&& 0x10#8 ≠ 0#8 then (sched.lists (.ready ((popByteIdx <<< 3) + 4))).first
      else if popByte &&& 0x8#8 ≠ 0#8 then (sched.lists (.ready ((popByteIdx <<< 3) + 3))).first
      else if popByte &&& 0x4#8 ≠ 0#8 then (sched.lists (.ready ((popByteIdx <<< 3) + 2))).first
      else if popByte &&& 0x2#8 ≠ 0#8 then (sched.lists (.ready ((popByteIdx <<< 3) + 1))).first
      else if popByte &&& 0x1#8 ≠ 0#8 then (sched.lists (.ready ((popByteIdx <<< 3) + 0))).first
      else highestPriorityReady sched popByteIdx
    else highestPriorityReady sched popByteIdx

def getHighestPriorityReady (sched : Scheduler) : Option Nat := highestPriorityReady sched 8

/-! ## Context switches -/

def restoreContext : Code Scheduler Errno Unit := fun sched =>
  match sched.scheduled with
  | some vp =>
    let sched := { sched with running := some vp, scheduled := none }
    .ok () (sched.setVp vp fun self => { self with state := .running })
  | none => .fault

/-- `__rtecall_VirtualProcessorScheduler_SwitchContext`.  At boot nothing is running, and only the second
half is entered. -/
def switchContext : Code Scheduler Errno Unit := fun sched =>
  match sched.running with
  | some vp =>
    restoreContext (if (sched.vps vp).state = .running then
      sched.setVp vp fun self => { self with state := .ready } else sched)
  | none => restoreContext sched

def switchTo : Option Nat → Code Scheduler Errno Unit
  | some vp => do
      removeVirtualProcessorLocked vp
      Code.modify fun sched => { sched with scheduled := some vp }
      switchContext
  | none => Code.fault

def maybeSwitchTo (vp : Nat) : Code Scheduler Errno Unit := fun sched =>
  if (sched.vps vp).state = .ready ∧ (sched.vps vp).suspensionCount = 0 ∧ sched.isCooperationEnabled then
    if getHighestPriorityReady sched = some vp then
      match sched.running with
      | some current =>
        if (sched.vps current).effectivePriority ≤ (sched.vps vp).effectivePriority then
          (do
            addVirtualProcessorLocked current (sched.vps current).priority
            switchTo (some vp) : Code Scheduler Errno Unit) sched
        else .ok () sched
      | none => .fault
    else .ok () sched
  else .ok () sched

/-! ## Waiting and waking up -/

/-- A deadline before `kTimeInterval_Infinity`, and whether `MonotonicClock_GetCurrentTime` has reached it. -/
structure Deadline where
  isPast : Bool
  time : TimeInterval
  deriving DecidableEq

/-- The place of a timeout is behind those that are not due later. -/
def insertTimeout (sched : Scheduler) (vp : Nat) (quantums : Int) : List Nat → List Nat
  | [] => [vp]
  | current :: rest =>
    if quantums < ((sched.vps current).deadline.getD 0) then vp :: current :: rest
    else current :: insertTimeout sched vp quantums rest

def armTimeout (sched : Scheduler) (vp : Nat) (deadline : TimeInterval) : Scheduler :=
  let quantums := sched.clock.armed deadline
  { sched.setVp vp fun self => { self with deadline := some quantums } with
    timeoutQueue := insertTimeout sched vp quantums sched.timeoutQueue }

def cancelTimeout (sched : Scheduler) (vp : Nat) : Scheduler :=
  if (sched.vps vp).deadline ≠ none then
    { sched.setVp vp fun self => { self with deadline := none } with timeoutQueue := sched.timeoutQueue.erase vp }
  else sched

/-- The loop of `WaitOn`: the last waiter that has at least this priority. -/
def waiterBefore (sched : Scheduler) (effectivePriority : Int) :
    Nat → Option Nat → Option Nat → Option (Option Nat)
  | 0, _, _ => none
  | _ + 1, none, previous => some previous
  | fuel + 1, some current, previous =>
    if (sched.vps current).effectivePriority < effectivePriority then some previous
    else waiterBefore sched effectivePriority fuel (sched.rewaQueueEntries current).next (some current)

/-- The second half of `WaitOn`, for a caller that has to wait. -/
def enterWaitQueue (fuel vp : Nat) (queue : WaitQueueName) (isInterruptable : Bool) :
    Code Scheduler Errno Unit := fun sched =>
  match waiterBefore sched (sched.vps vp).effectivePriority fuel (sched.lists (.wait queue)).first none with
  | some previous =>
    let sched := (sched.insertAfter (.wait queue) vp previous).setVp vp fun self => { self with
      state := .waiting
      waitingOnWaitQueue := some queue
      waitStartTime := sched.clock.currentQuantum
      wakeupReason := none
      isInterruptableWait := isInterruptable }
    switchTo (getHighestPriorityReady sched) sched
  | none => .fault

/-- `WaitOn` up to its context switch. -/
def waitOn (fuel : Nat) (queue : WaitQueueName) (deadline : Option Deadline) (isInterruptable : Bool) :
    Code Scheduler Errno Unit := fun sched =>
  match sched.running with
  | some vp =>
    if (sched.rewaQueueEntries vp).next = none ∧ (sched.rewaQueueEntries vp).prev = none ∧
        (sched.vps vp).state ≠ .waiting then
      if (sched.vps vp).isCallAsUserInProgress && (sched.vps vp).isCallAsUserAborted then .err .EINTR sched
      else
        match deadline with
        | some deadline =>
          if deadline.isPast then .err .ETIMEDOUT sched
          else enterWaitQueue fuel vp queue isInterruptable (armTimeout sched vp deadline.time)
        | none => enterWaitQueue fuel vp queue isInterruptable sched
    else .fault
  | none => .fault

/-- For how many quantums a virtual processor has been waiting. -/
def slept (sched : Scheduler) (vp : Nat) : Int :=
  TimeInterval.toLong (sched.clock.currentQuantum - (sched.vps vp).waitStartTime)

def boostedPriority (sched : Scheduler) (vp : Nat) : Int :=
  let quatersSlept := (slept sched vp).tdiv sched.quantumsPerQuarterSecond
  toInt8 (min ((sched.vps vp).effectivePriority + min quatersSlept 63) 63)

/-- `WakeUpOne` takes the virtual processor off the wait queue. -/
def finishWait (sched : Scheduler) (queue : WaitQueueName) (vp : Nat) (reason : WakeUpReason) : Scheduler :=
  (cancelTimeout (sched.remove (.wait queue) vp) vp).setVp vp fun self => { self with
    waitingOnWaitQueue := none
    wakeupReason := some reason
    isInterruptableWait := false }

def wakeUpOne (queue : WaitQueueName) (vp : Nat) (reason : WakeUpReason) (allowContextSwitch : Bool) :
    Code Scheduler Errno Unit := fun sched =>
  if (sched.vps vp).state ≠ .waiting then .ok () sched
  else if reason = .interrupted ∧ (sched.vps vp).isInterruptableWait = false then .ok () sched
  else
    let sched := finishWait sched queue vp reason
    if (sched.vps vp).suspensionCount = 0 then
      -- nobody has set the length of a quarter second before the end of boot
      if sched.quantumsPerQuarterSecond = 0 then .fault
      else
        (do
          addVirtualProcessorLocked vp (boostedPriority sched vp)
          if allowContextSwitch then maybeSwitchTo vp : Code Scheduler Errno Unit) sched
    else .ok () (sched.setVp vp fun self => { self with state := .ready })

/-- The first pass of `WakeUpSome`; the first virtual processor that can run is returned. -/
def wakeUpPass (queue : WaitQueueName) (reason : WakeUpReason) :
    Nat → Int → Option Nat → Option Nat → Code Scheduler Errno (Option Nat)
  | 0, _, _, _ => Code.fault
  | fuel + 1, count, current, candidate => fun sched =>
    match current with
    | some vp =>
      if 0 < count then
        let next := (sched.rewaQueueEntries vp).next
        (do
          wakeUpOne queue vp reason false
          let sched ← Code.get
          let candidate := if candidate = none ∧ (sched.vps vp).state = .ready ∧
            (sched.vps vp).suspensionCount = 0 then some vp else candidate
          wakeUpPass queue reason fuel (count - 1) next candidate : Code Scheduler Errno (Option Nat)) sched
      else .ok candidate sched
    | none => .ok candidate sched

def wakeUpSome (fuel : Nat) (queue : WaitQueueName) (count : Int) (reason : WakeUpReason)
    (allowContextSwitch : Bool) : Code Scheduler Errno Unit := do
  let sched ← Code.get
  let candidate ← wakeUpPass queue reason fuel count (sched.lists (.wait queue)).first none
  match candidate with
  | some vp => if allowContextSwitch then maybeSwitchTo vp
  | none => pure ()

/-- The loop of `WakeUpAllFromInterruptContext`. -/
def wakeUpAll (queue : WaitQueueName) : Nat → Option Nat → Code Scheduler Errno Unit
  | 0, _ => Code.fault
  | _ + 1, none => pure ()
  | fuel + 1, some vp => fun sched =>
    let next := (sched.rewaQueueEntries vp).next
    (do
      wakeUpOne queue vp .finished false
      wakeUpAll queue fuel next : Code Scheduler Errno Unit) sched

def wakeUpAllFromInterruptContext (fuel : Nat) (queue : WaitQueueName) : Code Scheduler Errno Unit := do
  let sched ← Code.get
  wakeUpAll queue fuel (sched.lists (.wait queue)).first

/-! ## Quantums -/

/-- The first loop of `OnEndOfQuantum`. -/
def expireTimeouts : Nat → Code Scheduler Errno Unit
  | 0 => Code.fault
  | fuel + 1 => fun sched =>
    match sched.timeoutQueue.head? with
    | some vp =>
      if sched.clock.currentQuantum < (sched.vps vp).deadline.getD 0 then .ok () sched
      else
        match (sched.vps vp).waitingOnWaitQueue with
        | some queue =>
          (do
            wakeUpOne queue vp .timeout false
            expireTimeouts fuel : Code Scheduler Errno Unit) sched
        | none => .fault
    | none => .ok () sched

def expireTimeSlice (current : Nat) : Code Scheduler Errno Unit := fun sched =>
  let sched := sched.setVp current fun self => { self with
    effectivePriority := max (self.effectivePriority - 1) 0
    quantumAllowance := quantumAllowanceForPriority (max (self.effectivePriority - 1) 0) }
  match getHighestPriorityReady sched with
  | some best =>
    if (sched.vps best).effectivePriority ≤ (sched.vps current).effectivePriority then .ok () sched
    else
      (do
        removeVirtualProcessorLocked best
        addVirtualProcessorLocked current (sched.vps current).priority
        Code.modify fun sched => { sched with scheduled := some best } : Code Scheduler Errno Unit) sched
  | none => .ok () sched

def onEndOfQuantum (fuel : Nat) : Code Scheduler Errno Unit := do
  expireTimeouts fuel
  let sched ← Code.get
  match sched.running with
  | some current =>
    let quantumAllowance := (sched.vps current).quantumAllowance - 1
    Code.modify fun sched => sched.setVp current fun self => { self with quantumAllowance := quantumAllowance }
    if 0 < quantumAllowance then pure () else expireTimeSlice current
  | none => Code.fault

/-! ## Virtual processors -/

def assertAlive (vp : Nat) : Code Scheduler Errno Unit := fun sched =>
  if (sched.vps vp).isTerminated then .fault else .ok () sched

def create : Code Scheduler Errno Unit :=
  Code.modify fun sched => { sched with
    vps := Function.update sched.vps sched.nextVpid (commonInit 42)
    isAllocated := Function.update sched.isAllocated sched.nextVpid true
    rewaQueueEntries := Function.update sched.rewaQueueEntries sched.nextVpid ListNode.init
    nextVpid := sched.nextVpid + 1 }

def setPriority (vp : Nat) (priority : Int) : Code Scheduler Errno Unit := do
  assertAlive vp
  let sched ← Code.get
  let self := sched.vps vp
  if self.priority ≠ priority then
    match self.state with
    | .ready =>
      if self.suspensionCount = 0 then removeVirtualProcessorLocked vp
      Code.modify fun sched => sched.setVp vp fun self => { self with priority := toInt8 priority }
      if self.suspensionCount = 0 then addVirtualProcessorLocked vp (toInt8 priority)
    | .waiting => Code.modify fun sched => sched.setVp vp fun self => { self with priority := toInt8 priority }
    | .running =>
      Code.modify fun sched => sched.setVp vp fun self => { self with
        priority := toInt8 priority
        effectivePriority := toInt8 priority
        quantumAllowance := quantumAllowanceForPriority (toInt8 priority) }

def suspend (vp : Nat) : Code Scheduler Errno Unit := do
  assertAlive vp
  let sched ← Code.get
  if (sched.vps vp).suspensionCount = 127 then Code.throw .EINVAL
  else
    Code.modify fun sched => sched.setVp vp fun self => { self with suspensionCount := self.suspensionCount + 1 }
    match (sched.vps vp).state with
    | .ready => removeVirtualProcessorLocked vp
    | .running => fun sched => switchTo (getHighestPriorityReady sched) sched
    | .waiting => pure ()

def resume (vp : Nat) (force : Bool) : Code Scheduler Errno Unit := do
  assertAlive vp
  let sched ← Code.get
  let self := sched.vps vp
  if 0 < self.suspensionCount then
    let suspensionCount := if force then 0 else self.suspensionCount - 1
    Code.modify fun sched => sched.setVp vp fun self => { self with suspensionCount := suspensionCount }
    if suspensionCount = 0 then
      match self.state with
      | .ready => addVirtualProcessorLocked vp self.priority
      | .running => do
          addVirtualProcessorLocked vp self.priority
          maybeSwitchTo vp
      | .waiting => pure ()

/-- The flags that `VirtualProcessor_CallAsUser` and `VirtualProcessor_AbortCallAsUser` set. -/
def setCallAsUser (vp : Nat) (isInProgress isAborted : Bool) : Code Scheduler Errno Unit :=
  Code.modify fun sched => sched.setVp vp fun self => { self with
    isCallAsUserInProgress := isInProgress
    isCallAsUserAborted := isAborted }

/-! ## Termination -/

/-- The loop of `TerminateVirtualProcessor` that counts dead virtual processors, up to a threshold. -/
def deadVpsCount (sched : Scheduler) : Nat → Option Nat → Nat
  | 0, _ => 0
  | _ + 1, none => 0
  | threshold + 1, some vp => deadVpsCount sched threshold (sched.rewaQueueEntries vp).next + 1

def finalizeNowThreshold : Nat := 4

/-- The decision of `TerminateVirtualProcessor` whether it wakes the boot virtual processor. -/
def finalizesNow (sched : Scheduler) : Bool :=
  decide (finalizeNowThreshold ≤ deadVpsCount sched finalizeNowThreshold (sched.lists .finalizer).first ∧
    (sched.lists (.wait .scheduler)).first ≠ none)

def Scheduler.retire (sched : Scheduler) (vp : Nat) : Scheduler :=
  (sched.setVp vp fun self => { self with isTerminated := true }).insertAfterLast .finalizer vp

/-- The end of `TerminateVirtualProcessor`, which is meant to switch to another virtual processor. -/
def leaveForGood : Code Scheduler Errno Unit := fun sched =>
  if finalizesNow sched then wakeUpOne .scheduler bootVirtualProcessor .interrupted true sched
  else switchTo (getHighestPriorityReady sched) sched

def terminate : Code Scheduler Errno Unit := fun sched =>
  match sched.running with
  | some vp =>
    (do
      assertAlive vp
      Code.modify fun sched => sched.retire vp
      leaveForGood : Code Scheduler Errno Unit) sched
  | none => .fault

/-- `Run` moves the finalizer queue to its own list. -/
def takeDeadVps : Code Scheduler Errno Unit :=
  Code.modify fun sched => { sched with
    lists := Function.update (Function.update sched.lists .deadVps (sched.lists .finalizer)) .finalizer DList.init
    nextDeadVp := (sched.lists .finalizer).first }

/-- `Run` destroys the next virtual processor of its list. -/
def destroyDeadVp : Code Scheduler Errno Unit := fun sched =>
  match sched.nextDeadVp with
  | some vp => .ok () { sched with
      isAllocated := Function.update sched.isAllocated vp false
      nextDeadVp := (sched.rewaQueueEntries vp).next }
  | none => .fault

/-! ## Boot -/

def bootMemory : Scheduler where
  vps := fun vp =>
    if vp = bootVirtualProcessor then { commonInit 63 with suspensionCount := 0 } else commonInit 0
  isAllocated := fun vp => decide (vp < 2)
  nextVpid := 2
  rewaQueueEntries := fun _ => ListNode.init
  lists := fun _ => DList.init
  populated := fun _ => 0#8
  running := none
  scheduled := none
  isCooperationEnabled := false
  quantumsPerQuarterSecond := 0
  clock := MonotonicClock.createForLocalCPU 0
  timeoutQueue := []
  nextDeadVp := none

def createForLocalCpu : Code Scheduler Errno Unit := do
  let sched ← Code.get
  addVirtualProcessorLocked bootVirtualProcessor (sched.vps bootVirtualProcessor).priority
  Code.modify fun sched => { sched with
    running := none
    scheduled := getHighestPriorityReady sched
    isCooperationEnabled := true }
  let sched ← Code.get
  match sched.scheduled with
  | some vp =>
    removeVirtualProcessorLocked vp
    if vp = bootVirtualProcessor then pure () else Code.fault
  | none => Code.fault

def created : Scheduler := ((createForLocalCpu bootMemory).state?).getD bootMemory

/-- The boot virtual processor creates the clock before anything but zeros has been read from it. -/
def booted (nsPerQuantum : Int) : Scheduler :=
  { created with clock := MonotonicClock.createForLocalCPU nsPerQuantum }

def finishBoot : Code Scheduler Errno Unit := do
  Code.modify fun sched => { sched with quantumsPerQuarterSecond := sched.clock.armed ⟨0, 250000000⟩ }
  resume idleVirtualProcessor false

/-! ## Runs -/

inductive Action
  | switchContext
  | onClockInterrupt
  | onEndOfQuantum
  | wakeUpAllFromInterruptContext (queue : WaitQueueName)
  | waitOn (queue : WaitQueueName) (deadline : Option Deadline) (isInterruptable : Bool)
  | wakeUpOne (queue : WaitQueueName) (vp : Nat) (reason : WakeUpReason) (allowContextSwitch : Bool)
  | wakeUpSome (queue : WaitQueueName) (count : Int) (reason : WakeUpReason) (allowContextSwitch : Bool)
  | maybeSwitchTo (vp : Nat)
  | create
  | setPriority (vp : Nat) (priority : Int)
  | suspend (vp : Nat)
  | resume (vp : Nat) (force : Bool)
  | setCallAsUser (vp : Nat) (isInProgress isAborted : Bool)
  | setCooperation (isEnabled : Bool)
  | finishBoot
  | terminate
  | takeDeadVps
  | destroyDeadVp
  deriving DecidableEq

def perform (fuel : Nat) : Action → Code Scheduler Errno Unit
  | .switchContext => switchContext
  | .onClockInterrupt => Code.modify fun sched => { sched with clock := sched.clock.onInterrupt }
  | .onEndOfQuantum => onEndOfQuantum fuel
  | .wakeUpAllFromInterruptContext queue => wakeUpAllFromInterruptContext fuel queue
  | .waitOn queue deadline isInterruptable => waitOn fuel queue deadline isInterruptable
  | .wakeUpOne queue vp reason allowContextSwitch => wakeUpOne queue vp reason allowContextSwitch
  | .wakeUpSome queue count reason allowContextSwitch => wakeUpSome fuel queue count reason allowContextSwitch
  | .maybeSwitchTo vp => maybeSwitchTo vp
  | .create => create
  | .setPriority vp priority => setPriority vp priority
  | .suspend vp => suspend vp
  | .resume vp force => resume vp force
  | .setCallAsUser vp isInProgress isAborted => setCallAsUser vp isInProgress isAborted
  | .setCooperation isEnabled => Code.modify fun sched => { sched with isCooperationEnabled := isEnabled }
  | .finishBoot => finishBoot
  | .terminate => terminate
  | .takeDeadVps => takeDeadVps
  | .destroyDeadVp => destroyDeadVp

/-- A context switch that an interrupt has asked for happens when the interrupt handler returns; other
handlers may wake up virtual processors before.  Everything else is done by the running virtual processor or
by the interrupt itself, with virtual processors that exist.  Who is woken up is on the wait queue that is given,
and the boot virtual processor alone finalizes. -/
def Action.Enabled (sched : Scheduler) : Action → Prop
  | .switchContext => sched.scheduled ≠ none
  | .onClockInterrupt => True
  | .wakeUpAllFromInterruptContext _ => True
  | .wakeUpOne queue vp _ allowContextSwitch =>
    (sched.scheduled = none ∨ allowContextSwitch = false) ∧
      ((sched.vps vp).state = .waiting → (sched.vps vp).waitingOnWaitQueue = some queue)
  | .setPriority vp _ => sched.scheduled = none ∧ sched.isAllocated vp = true
  | .suspend vp => sched.scheduled = none ∧ sched.isAllocated vp = true
  | .resume vp _ => sched.scheduled = none ∧ sched.isAllocated vp = true
  | .setCallAsUser vp _ _ => sched.scheduled = none ∧ sched.isAllocated vp = true
  | .finishBoot =>
    sched.scheduled = none ∧ sched.running = some bootVirtualProcessor ∧
      sched.isAllocated idleVirtualProcessor = true
  | .takeDeadVps =>
    sched.scheduled = none ∧ sched.running = some bootVirtualProcessor ∧ sched.nextDeadVp = none ∧
      (sched.lists .finalizer).first ≠ none
  | .destroyDeadVp =>
    sched.scheduled = none ∧ sched.running = some bootVirtualProcessor ∧ sched.nextDeadVp ≠ none
  | _ => sched.scheduled = none

instance (sched : Scheduler) : (action : Action) → Decidable (action.Enabled sched)
  | .switchContext => inferInstanceAs (Decidable (sched.scheduled ≠ none))
  | .onClockInterrupt => inferInstanceAs (Decidable True)
  | .wakeUpAllFromInterruptContext _ => inferInstanceAs (Decidable True)
  | .wakeUpOne _ _ _ _ => inferInstanceAs (Decidable ((_ ∨ _) ∧ (_ → _)))
  | .setPriority _ _ => inferInstanceAs (Decidable (_ ∧ _))
  | .suspend _ => inferInstanceAs (Decidable (_ ∧ _))
  | .resume _ _ => inferInstanceAs (Decidable (_ ∧ _))
  | .setCallAsUser _ _ _ => inferInstanceAs (Decidable (_ ∧ _))
  | .finishBoot => inferInstanceAs (Decidable (_ ∧ _ ∧ _))
  | .takeDeadVps => inferInstanceAs (Decidable (_ ∧ _ ∧ _ ∧ _))
  | .destroyDeadVp => inferInstanceAs (Decidable (_ ∧ _ ∧ _))
  | .onEndOfQuantum => inferInstanceAs (Decidable (sched.scheduled = none))
  | .waitOn _ _ _ => inferInstanceAs (Decidable (sched.scheduled = none))
  | .wakeUpSome _ _ _ _ => inferInstanceAs (Decidable (sched.scheduled = none))
  | .maybeSwitchTo _ => inferInstanceAs (Decidable (sched.scheduled = none))
  | .create => inferInstanceAs (Decidable (sched.scheduled = none))
  | .setCooperation _ => inferInstanceAs (Decidable (sched.scheduled = none))
  | .terminate => inferInstanceAs (Decidable (sched.scheduled = none))

def Step (sched : Scheduler) (action : Action) (after : Scheduler) : Prop :=
  action.Enabled sched ∧ ∃ fuel, (perform fuel action sched).state? = some after

end Apollo.Dispatcher.VirtualProcessorScheduler
