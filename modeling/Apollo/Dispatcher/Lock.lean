import Apollo.Dispatcher.WaitQueue
import Apollo.Lib.Runs

/-!
# Locks and condition variables

`Lock_asm.s`, `Lock.c` and `ConditionVariable.c` for one lock, any number of
condition variables and any number of virtual processors on one CPU.  One of
them is running; a step is one instruction of it that others can observe.  The
CPU goes to another virtual processor at a context switch in `WaitOn`, at a
voluntary one in a wake-up while cooperation is enabled, and by preemption while
the status register of the running one does not mask it.

`holds` records who has set the lock bit and not cleared it; no code reads it.
-/

set_option autoImplicit false

namespace Apollo.Dispatcher

open Lib

namespace Lock

/-- `kLockOption_FatalOwnershipViolations` and `kLockOption_InterruptibleLock`. -/
structure Options where
  fatalOwnershipViolations : Bool
  interruptibleLock : Bool

inductive Result
  | done
  | busy
  | failed (error : Errno)
  deriving DecidableEq

/-- Who has called `Lock_Lock`: other code, or `ConditionVariable_Wait` behind its wait. -/
inductive LockCaller
  | other
  | wait (sps : Bool) (error : Option Errno)
  deriving DecidableEq

/-- Who has called `Lock_Unlock`: other code, `ConditionVariable_Wait`, or
`ConditionVariable_WakeAndUnlock`. -/
inductive UnlockCaller
  | other
  | wait (condVar : Nat) (sps scs : Bool)
  | wake (condVar : Nat) (broadcast sps scs : Bool)
  deriving DecidableEq

/-- The next instruction of a virtual processor.  `d7`, `sps` and `scs` are the saved masks. -/
inductive Place
  | outside (result : Result)
  | fatalError (error : Errno)
  -- `Lock_TryLock` and `Lock_Lock`
  | tryLock
  | lock (caller : LockCaller)
  | lockMask (caller : LockCaller)
  | lockRetry (caller : LockCaller) (d7 : Bool)
  | lockWaiting (caller : LockCaller) (d7 : Bool)
  | lockWoken (caller : LockCaller) (d7 : Bool) (reason : WakeUpReason)
  | lockOwner (caller : LockCaller)
  -- `_Lock_Unlock`
  | unlock (caller : UnlockCaller)
  | unlockClear (caller : UnlockCaller)
  | unlockMask (caller : UnlockCaller)
  | unlockRelease (caller : UnlockCaller) (d7 : Bool)
  | unlockWake (caller : UnlockCaller) (d7 : Bool)
  | unlockRestore (caller : UnlockCaller) (d7 : Bool)
  -- `ConditionVariable_Wait`
  | waitMask (condVar : Nat)
  | waitCooperation (condVar : Nat) (sps : Bool)
  | waitRestore (condVar : Nat) (sps scs : Bool)
  | waitOn (condVar : Nat) (sps : Bool)
  | waiting (condVar : Nat) (sps : Bool)
  | waitWoken (condVar : Nat) (sps : Bool) (reason : WakeUpReason)
  | waitReturn (sps : Bool) (error : Option Errno)
  -- `ConditionVariable_WakeAndUnlock`
  | wakeMask (condVar : Nat) (broadcast unlocks : Bool)
  | wakeCooperation (condVar : Nat) (broadcast unlocks sps : Bool)
  | wakeRestore (condVar : Nat) (broadcast sps scs : Bool)
  | wakeSome (condVar : Nat) (broadcast sps : Bool)
  | wakeReturn (sps : Bool)
  deriving DecidableEq

/-- The calls that a virtual processor may make. -/
inductive Operation
  | lock
  | tryLock
  | unlock
  | wait (condVar : Nat)
  | wakeAndUnlock (condVar : Nat) (broadcast unlocks : Bool)

def Operation.start : Operation → Place
  | .lock => .lock .other
  | .tryLock => .tryLock
  | .unlock => .unlock .other
  | .wait condVar => .waitMask condVar
  | .wakeAndUnlock condVar broadcast unlocks => .wakeMask condVar broadcast unlocks

/-- `VP_FLAG_CAU_IN_PROGRESS` and `VP_FLAG_CAU_ABORTED`. -/
structure Flags where
  cauInProgress : Bool
  cauAborted : Bool
  deriving DecidableEq

structure System where
  options : Options
  value : Bool
  ownerVpid : Nat
  lockQueue : WaitQueue
  condQueues : Nat → WaitQueue
  isCooperationEnabled : Bool
  running : Nat
  isMasked : Nat → Bool
  flags : Nat → Flags
  places : Nat → Place
  holds : Nat → Bool

inductive Queue
  | lock
  | cond (condVar : Nat)
  deriving DecidableEq

def Place.waitingOn : Place → Option Queue
  | .lockWaiting _ _ => some .lock
  | .waiting condVar _ => some (.cond condVar)
  | _ => none

def Place.isAsleep (place : Place) : Bool := place.waitingOn.isSome

def Result.of : Option Errno → Result
  | none => .done
  | some error => .failed error

/-- Behind a call of `Lock_Lock` that has the lock. -/
def LockCaller.returned : LockCaller → Place
  | .other => .outside .done
  | .wait sps error => .waitReturn sps error

/-- Behind a call of `Lock_Lock` that has failed; `ConditionVariable_Wait` does not look at that. -/
def LockCaller.failed (error : Errno) : LockCaller → Place
  | .other => .outside (.failed error)
  | .wait sps waitError => .waitReturn sps waitError

/-- Behind a call of `Lock_Unlock`; the condition variables do not look at the result. -/
def UnlockCaller.returned (result : Result) : UnlockCaller → Place
  | .other => .outside result
  | .wait condVar sps scs => .waitRestore condVar sps scs
  | .wake condVar broadcast sps scs => .wakeRestore condVar broadcast sps scs

/-- Behind the context switch in `WaitOn`. -/
def Place.wokenUp (reason : WakeUpReason) : Place → Place
  | .lockWaiting caller d7 => .lockWoken caller d7 reason
  | .waiting condVar sps => .waitWoken condVar sps reason
  | place => place

def Place.wokenFrom (queue : Queue) (reason : WakeUpReason) (place : Place) : Place :=
  if place.waitingOn = some queue then place.wokenUp reason else place

namespace System

/-- The running virtual processor goes on at `place`. -/
def goto (sys : System) (place : Place) : System :=
  { sys with places := Function.update sys.places sys.running place }

def mask (sys : System) (masked : Bool) : System :=
  { sys with isMasked := Function.update sys.isMasked sys.running masked }

/-- `bset` of a clear bit. -/
def take (sys : System) : System :=
  { sys with value := true, holds := Function.update sys.holds sys.running true }

def release (sys : System) : System :=
  { sys with value := false, holds := Function.update sys.holds sys.running false }

/-- `WaitOn` reads the flags of the caller. -/
def entry (sys : System) (isPast : Bool) (effectivePriority : Nat) : Entry :=
  ⟨(sys.flags sys.running).cauInProgress && (sys.flags sys.running).cauAborted, isPast, effectivePriority⟩

def isReady (sys : System) (vpid : Nat) : Bool := vpid != 0 && !(sys.places vpid).isAsleep

/-- The CPU goes to `next`. -/
def switchTo (sys : System) (next : Nat) : Option System :=
  if sys.isReady next then some { sys with running := next } else none

/-- A voluntary switch to a virtual processor that was just woken up, when `next` says so. -/
def maybeSwitchTo (sys : System) (woken : List Nat) (next : Option Nat) : Option System :=
  match next with
  | none => some sys
  | some next =>
    if sys.isCooperationEnabled && woken.contains next then sys.switchTo next else none

/-- `Lock_OnWait` got an error. -/
def lockFails (sys : System) (caller : LockCaller) (d7 : Bool) (error : Errno) : System :=
  if sys.options.interruptibleLock then (sys.mask d7).goto (caller.failed error) else sys.goto (.fatalError error)

def wakeLock (sys : System) (reason : WakeUpReason) (woken : List Nat × WaitQueue) : System :=
  { sys with lockQueue := woken.2, places := wake sys.places woken.1 (Place.wokenFrom .lock reason) }

def wakeCond (sys : System) (condVar : Nat) (reason : WakeUpReason) (woken : List Nat × WaitQueue) : System :=
  { sys with
    condQueues := Function.update sys.condQueues condVar woken.2
    places := wake sys.places woken.1 (Place.wokenFrom (.cond condVar) reason) }

/-- The next instruction of the running virtual processor.  `next` is the virtual processor that the
CPU goes to at a context switch, `isPast` and `effectivePriority` are for `WaitOn`. -/
def advance (sys : System) (isPast : Bool) (effectivePriority : Nat) (next : Option Nat) : Option System :=
  match sys.places sys.running with
  | .outside _ => none
  | .fatalError _ => none
  | .tryLock =>
    if sys.value then some (sys.goto (.outside .busy)) else some (sys.take.goto (.lockOwner .other))
  | .lock caller =>
    if sys.value then some (sys.goto (.lockMask caller)) else some (sys.take.goto (.lockOwner caller))
  | .lockMask caller => some ((sys.mask true).goto (.lockRetry caller (sys.isMasked sys.running)))
  | .lockRetry caller d7 =>
    if sys.value then
      match sys.lockQueue.waitOn sys.running (sys.entry false effectivePriority) sys.options.interruptibleLock with
      | .error error => some (sys.lockFails caller d7 error)
      | .ok queue =>
        next.bind (System.switchTo ({ sys with lockQueue := queue }.goto (.lockWaiting caller d7)))
    else some ((sys.take.mask d7).goto (.lockOwner caller))
  | .lockWaiting _ _ => none
  | .lockWoken caller d7 reason =>
    match reason.error with
    | some error => some (sys.lockFails caller d7 error)
    | none => some (sys.goto (.lockRetry caller d7))
  | .lockOwner caller => some ({ sys with ownerVpid := sys.running }.goto caller.returned)
  | .unlock caller =>
    if sys.ownerVpid = sys.running then some (sys.goto (.unlockClear caller))
    else if sys.options.fatalOwnershipViolations then some (sys.goto (.fatalError .EPERM))
    else some (sys.goto (caller.returned (.failed .EPERM)))
  | .unlockClear caller => some ({ sys with ownerVpid := 0 }.goto (.unlockMask caller))
  | .unlockMask caller => some ((sys.mask true).goto (.unlockRelease caller (sys.isMasked sys.running)))
  | .unlockRelease caller d7 => some (sys.release.goto (.unlockWake caller d7))
  | .unlockWake caller d7 =>
    let woken := sys.lockQueue.wakeUpSome .finished none
    ((sys.wakeLock .finished woken).goto (.unlockRestore caller d7)).maybeSwitchTo woken.1 next
  | .unlockRestore caller d7 => some ((sys.mask d7).goto (caller.returned .done))
  | .waitMask condVar => some ((sys.mask true).goto (.waitCooperation condVar (sys.isMasked sys.running)))
  | .waitCooperation condVar sps =>
    some ({ sys with isCooperationEnabled := false }.goto (.unlock (.wait condVar sps sys.isCooperationEnabled)))
  | .waitRestore condVar sps scs => some ({ sys with isCooperationEnabled := scs }.goto (.waitOn condVar sps))
  | .waitOn condVar sps =>
    match (sys.condQueues condVar).waitOn sys.running (sys.entry isPast effectivePriority) true with
    | .error error => some (sys.goto (.lock (.wait sps (some error))))
    | .ok queue =>
      next.bind (System.switchTo ({ sys with condQueues := Function.update sys.condQueues condVar queue }.goto
        (.waiting condVar sps)))
  | .waiting _ _ => none
  | .waitWoken _ sps reason => some (sys.goto (.lock (.wait sps reason.error)))
  | .waitReturn sps error => some ((sys.mask sps).goto (.outside (.of error)))
  | .wakeMask condVar broadcast unlocks =>
    some ((sys.mask true).goto (.wakeCooperation condVar broadcast unlocks (sys.isMasked sys.running)))
  | .wakeCooperation condVar broadcast unlocks sps =>
    let silent := { sys with isCooperationEnabled := false }
    if unlocks then some (silent.goto (.unlock (.wake condVar broadcast sps sys.isCooperationEnabled)))
    else some (silent.goto (.wakeRestore condVar broadcast sps sys.isCooperationEnabled))
  | .wakeRestore condVar broadcast sps scs =>
    some ({ sys with isCooperationEnabled := scs }.goto (.wakeSome condVar broadcast sps))
  | .wakeSome condVar broadcast sps =>
    let woken := (sys.condQueues condVar).wakeUpSome .finished (if broadcast then none else some 1)
    ((sys.wakeCond condVar .finished woken).goto (.wakeReturn sps)).maybeSwitchTo woken.1 next
  | .wakeReturn sps => some ((sys.mask sps).goto (.outside .done))

/-- The wake-up of `AbortCallAsUser`: everybody on the queue that `vpid` waits on. -/
def interruptWait (sys : System) (vpid : Nat) : System :=
  match sys.places vpid with
  | .lockWaiting _ _ => sys.wakeLock .interrupted (sys.lockQueue.wakeUpSome .interrupted none)
  | .waiting condVar _ => sys.wakeCond condVar .interrupted ((sys.condQueues condVar).wakeUpSome .interrupted none)
  | _ => sys

def abortCallAsUser (sys : System) (vpid : Nat) : System :=
  if (sys.flags vpid).cauInProgress then
    interruptWait { sys with flags := Function.update sys.flags vpid ⟨true, true⟩ } vpid
  else sys

def timeout (sys : System) (vpid : Nat) : System :=
  match sys.places vpid with
  | .waiting condVar _ => sys.wakeCond condVar .timeout ((sys.condQueues condVar).wakeUpOne .timeout vpid)
  | _ => sys

def isOutside (sys : System) : Bool :=
  match sys.places sys.running with
  | .outside _ => true
  | _ => false

end System

/-- `Lock_InitWithOptions`, and condition variables without waiters. -/
def init (options : Options) (running : Nat) : System :=
  ⟨options, false, 0, [], fun _ => [], true, running, fun _ => false, fun _ => ⟨false, false⟩,
    fun _ => .outside .done, fun _ => false⟩

/-! ## Steps -/

inductive Action
  | call (operation : Operation)
  | advance (isPast : Bool) (effectivePriority : Nat) (next : Option Nat)
  | preempt (next : Nat)
  | timeout (vpid : Nat)
  | beginCallAsUser
  | endCallAsUser
  | abortCallAsUser (vpid : Nat)

def perform (sys : System) : Action → Option System
  | .call operation => if sys.isOutside then some (sys.goto operation.start) else none
  | .advance isPast effectivePriority next => sys.advance isPast effectivePriority next
  | .preempt next => if sys.isMasked sys.running then none else sys.switchTo next
  | .timeout vpid => if sys.isMasked sys.running then none else some (sys.timeout vpid)
  | .beginCallAsUser =>
    if sys.isOutside && !(sys.flags sys.running).cauInProgress then
      some { sys with
        flags := Function.update sys.flags sys.running ⟨true, (sys.flags sys.running).cauAborted⟩ }
    else none
  | .endCallAsUser =>
    if sys.isOutside then some { sys with flags := Function.update sys.flags sys.running ⟨false, false⟩ } else none
  | .abortCallAsUser vpid => if sys.isOutside then some (sys.abortCallAsUser vpid) else none

def Step (sys : System) (action : Action) (after : System) : Prop := perform sys action = some after

end Lock

end Apollo.Dispatcher
