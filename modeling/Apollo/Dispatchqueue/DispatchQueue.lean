import Apollo.Dispatchqueue.State
import Apollo.Lib.Runs

/-!
# The dispatch queue

The functions of `DispatchQueue.c`.  A loop of the source takes `fuel`, the
number of rounds it may make; a call that needs more rounds, follows a null
pointer or unlocks a lock that it does not hold does not return.

A step of the system is what one thread does from one acquisition of the queue
lock to the next.  A call that blocks on its semaphore is continued by a later
step, and `ConditionVariable_Wait` may return at any time.
-/

set_option autoImplicit false

namespace Apollo.Dispatchqueue

open Klib
open Lib

def lockLock (self : Thread) : Code System Errno Unit := fun sys =>
  match sys.lock with
  | none => .ok () { sys with lock := some self }
  | some _ => .fault

/-- `Lock_Unlock`.  The queue lock makes it a fatal error to unlock it without
holding it. -/
def lockUnlock (self : Thread) : Code System Errno Unit := fun sys =>
  if sys.lock = some self then .ok () { sys with lock := none } else .fault

/-! ## Virtual processors -/

/-- `AcquireVirtualProcessor_Locked` wants one more virtual processor. -/
def System.WantsVirtualProcessor (sys : System) : Prop :=
  sys.state = .running ∧
    (sys.availableConcurrency = 0 ∨ sys.availableConcurrency < sys.minConcurrency ∨
      (4 < sys.itemsQueuedCount ∧ sys.availableConcurrency < sys.maxConcurrency))

instance (sys : System) : Decidable sys.WantsVirtualProcessor := by
  unfold System.WantsVirtualProcessor
  infer_instance

/-- `DispatchQueue_AcquireVirtualProcessor_Locked`; `available` is the answer of the
pool. -/
def acquireVirtualProcessor (available : Bool) : Code System Errno Unit := fun sys =>
  if sys.WantsVirtualProcessor then
    match sys.lanes.findIdx? (· = .absent) with
    | none => .fault
    | some lane =>
      if available then
        .ok () { sys with
          lanes := sys.lanes.set lane .starting
          availableConcurrency := sys.availableConcurrency + 1 }
      else .err .ENOMEM sys
  else .ok () sys

def System.relinquishVirtualProcessor (sys : System) (lane : Nat) : System :=
  { sys with
    lanes := sys.lanes.set lane .absent
    availableConcurrency := sys.availableConcurrency - 1 }

/-! ## Work items -/

def System.enqueueItem (sys : System) (item : Nat) (dispatch : Dispatch) : System :=
  let sys := sys.insertAfterLast .itemQueue item
  { sys with
    itemsQueuedCount := sys.itemsQueuedCount + 1
    dispatches := Function.update sys.dispatches item (some dispatch) }

def dispatchWorkItemAsyncAndUnlock (self : Thread) (item : Nat) (dispatch : Dispatch) (available : Bool) :
    Code System Errno Unit := do
  Code.modify (·.enqueueItem item dispatch)
  acquireVirtualProcessor available
  lockUnlock self

/-- `DispatchQueue_DispatchWorkItemSyncAndUnlock_Locked` up to `Semaphore_Acquire`; the
result is the signaler to wait for. -/
def dispatchWorkItemSyncAndUnlock (self : Thread) (call item : Nat) (address : Option Nat)
    (available : Bool) : Code System Errno Nat := do
  let signaler ← acquireCompletionSignaler address
  Code.modify (·.setItem item fun value => { value with completion := some signaler })
  Code.onError (dispatchWorkItemAsyncAndUnlock self item (.sync call signaler) available)
    (Code.modify (·.relinquishCompletionSignaler signaler))
  pure signaler

/-- The loop of `RemoveWorkItem_Locked` and `RemoveTimer_Locked` over the list `name`
from the node `current` on. -/
def removeInstances (name : ListName) (before after : System → Nat → System) (node : Nat) :
    Nat → Option Nat → Option Nat → Code System Errno Unit
  | 0, _, _ => Code.fault
  | _ + 1, none, _ => pure ()
  | fuel + 1, some current, previous => fun sys =>
    if current = node then
      let next := sys.links current
      let sys := before sys current
      match (sys.lists name).remove sys.links previous current with
      | some result =>
        removeInstances name before after node fuel next previous (after (sys.withList name result) current)
      | none => .fault
    else removeInstances name before after node fuel (sys.links current) (some current) sys

def removeWorkItemLocked (fuel item : Nat) : Code System Errno Unit := fun sys =>
  removeInstances .itemQueue (·.signalCompletion · true)
    (fun sys item =>
      System.relinquishWorkItem { sys with itemsQueuedCount := sys.itemsQueuedCount - 1 } item)
    item fuel (sys.lists .itemQueue).first none sys

/-! ## Timers -/

/-- The loop of `AddTimer_Locked`: the last timer that is not due after `deadline`. -/
def timerBefore (sys : System) (deadline : Int) : Nat → Option Nat → Option Nat → Option (Option Nat)
  | 0, _, _ => none
  | _ + 1, none, previous => some previous
  | fuel + 1, some current, previous =>
    if deadline < (sys.items current).deadline then some previous
    else timerBefore sys deadline fuel (sys.links current) (some current)

def addTimer (fuel timer : Nat) : Code System Errno Unit := fun sys =>
  match timerBefore sys (sys.items timer).deadline fuel (sys.lists .timerQueue).first none with
  | some previous => .ok () (sys.insertAfter .timerQueue timer previous)
  | none => .fault

def dispatchTimerLocked (self : Thread) (fuel timer : Nat) (dispatch : Dispatch) (available : Bool) :
    Code System Errno Unit := do
  addTimer fuel timer
  Code.modify fun sys => { sys with dispatches := Function.update sys.dispatches timer (some dispatch) }
  acquireVirtualProcessor available
  lockUnlock self

def removeTimerLocked (fuel timer : Nat) : Code System Errno Unit := fun sys =>
  removeInstances .timerQueue (fun sys _ => sys) (·.relinquishTimer ·) timer fuel
    (sys.lists .timerQueue).first none sys

/-! ## Flushing -/

/-- The first loop of `DispatchQueue_Flush_Locked`. -/
def flushItems : Nat → Code System Errno Unit
  | 0 => Code.fault
  | fuel + 1 => fun sys =>
    match sys.removeFirst .itemQueue with
    | (some item, sys) =>
      flushItems fuel (((sys.record (.flushes item)).signalCompletion item true).relinquishWorkItem item)
    | (none, sys) => .ok () sys

/-- The second loop of `DispatchQueue_Flush_Locked`.  It signals the item that ended the
first loop, which is a null pointer. -/
def flushTimers : Nat → Code System Errno Unit
  | 0 => Code.fault
  | _ + 1 => fun sys =>
    match sys.removeFirst .timerQueue with
    | (some _, _) => .fault
    | (none, sys) => .ok () sys

def flushLocked (fuel : Nat) : Code System Errno Unit := do
  flushItems fuel
  flushTimers fuel

/-! ## API functions

The result of a synchronous call is where it is when the step ends. -/

def dispatchSync (call closure : Nat) (memory : Memory) (address : Option Nat) (available : Bool) :
    Code System Errno Call := do
  lockLock (.client call)
  let sys ← Code.get
  if sys.state ≠ .running then
    lockUnlock (.client call)
    pure (.returned none)
  else
    Code.onError
      (do
        let item ← acquireWorkItem closure memory
        Code.onError
          (do
            let signaler ← dispatchWorkItemSyncAndUnlock (.client call) call item address available
            pure (.waiting item signaler true))
          (Code.modify (·.relinquishWorkItem item)))
      (lockUnlock (.client call))

def dispatchAsync (self : Thread) (closure : Nat) (memory : Memory) (available : Bool) :
    Code System Errno Unit := do
  lockLock self
  let sys ← Code.get
  if sys.state ≠ .running then lockUnlock self
  else
    Code.onError
      (do
        let item ← acquireWorkItem closure memory
        Code.onError (dispatchWorkItemAsyncAndUnlock self item .async available)
          (Code.modify (·.relinquishWorkItem item)))
      (lockUnlock self)

def dispatchAsyncAfter (self : Thread) (fuel : Nat) (deadline : Int) (closure : Nat) (memory : Memory)
    (available : Bool) : Code System Errno Unit := do
  lockLock self
  let sys ← Code.get
  if sys.state ≠ .running then lockUnlock self
  else
    Code.onError
      (do
        let timer ← acquireTimer deadline 0 closure memory
        Code.onError (dispatchTimerLocked self fuel timer .async available)
          (Code.modify (·.relinquishTimer timer)))
      (lockUnlock self)

/-- `AtomicBool_Set(&is_being_dispatched, true)` in front of the calls that take an item
of the caller; the result is the old value. -/
def beginDispatch (item : Nat) : Code System Errno Bool := fun sys =>
  .ok (sys.items item).isBeingDispatched
    (sys.setItem item fun value => { value with isBeingDispatched := true })

def dispatchWorkItemSync (call item : Nat) (address : Option Nat) (available : Bool) :
    Code System Errno Call := do
  if ← beginDispatch item then Code.throw .EBUSY
  else
    lockLock (.client call)
    let sys ← Code.get
    if sys.state ≠ .running then
      lockUnlock (.client call)
      pure (.returned none)
    else
      let signaler ← Code.onError
        (dispatchWorkItemSyncAndUnlock (.client call) call item address available)
        (lockUnlock (.client call))
      pure (.waiting item signaler false)

def dispatchWorkItemAsync (self : Thread) (item : Nat) (available : Bool) : Code System Errno Unit := do
  if ← beginDispatch item then Code.throw .EBUSY
  else
    lockLock self
    let sys ← Code.get
    if sys.state ≠ .running then lockUnlock self
    else Code.onError (dispatchWorkItemAsyncAndUnlock self item .async available) (lockUnlock self)

def dispatchTimer (self : Thread) (fuel timer : Nat) (available : Bool) : Code System Errno Unit := do
  if ← beginDispatch timer then Code.throw .EBUSY
  else
    lockLock self
    let sys ← Code.get
    if sys.state ≠ .running then lockUnlock self
    else Code.onError (dispatchTimerLocked self fuel timer .async available) (lockUnlock self)

def removeWorkItem (self : Thread) (fuel item : Nat) : Code System Errno Unit := do
  lockLock self
  removeWorkItemLocked fuel item
  lockUnlock self

def removeTimer (self : Thread) (fuel timer : Nat) : Code System Errno Unit := do
  lockLock self
  removeTimerLocked fuel timer
  lockUnlock self

def flush (self : Thread) (fuel : Nat) : Code System Errno Unit := do
  lockLock self
  flushLocked fuel
  lockUnlock self

def terminate (self : Thread) (fuel : Nat) : Code System Errno Unit := do
  lockLock self
  let sys ← Code.get
  if sys.state ≠ .running then lockUnlock self
  else
    Code.modify ({ · with state := .terminating })
    flushLocked fuel
    lockUnlock self

/-! ### A synchronous call behind its wait -/

/-- `DispatchWorkItemSyncAndUnlock_Locked` behind a `Semaphore_Acquire` that succeeded. -/
def finishSync (call item signaler : Nat) (owned : Bool) : Code System Errno Call := do
  lockLock (.client call)
  let sys ← Code.get
  let wasInterrupted := sys.state ≠ .running ∨ (sys.signalers signaler).isInterrupted
  Code.modify (·.relinquishCompletionSignaler signaler)
  lockUnlock (.client call)
  if wasInterrupted then pure (.failing item owned) else pure (.returned none)

/-- Its `catch` behind a `Semaphore_Acquire` that failed. -/
def abandonSync (call item signaler : Nat) (owned : Bool) : Code System Errno Call := do
  lockLock (.client call)
  Code.modify (·.relinquishCompletionSignaler signaler)
  lockUnlock (.client call)
  pure (.failing item owned)

/-- The `catch` of `DispatchSync` and `DispatchWorkItemSync` for an error that comes from behind
the wait, when the lock is no longer held. -/
def failSync (call item : Nat) (owned : Bool) : Code System Errno Call := do
  if owned then Code.modify (·.relinquishWorkItem item) else pure ()
  lockUnlock (.client call)
  pure (.returned (some .EINTR))

/-! ## `DispatchQueue_Run` -/

def System.takeWorkItem (sys : System) : Option Nat × System :=
  match sys.removeFirst .itemQueue with
  | (some item, sys) => (some item, { sys with itemsQueuedCount := sys.itemsQueuedCount - 1 })
  | (none, sys) => (none, { sys with itemsQueuedCount := sys.itemsQueuedCount - 1 }.record .findsNothing)

def System.takeItem (sys : System) (now : Int) : Option Nat × System :=
  let due := match (sys.lists .timerQueue).first with
    | some timer => decide ((sys.items timer).deadline ≤ now)
    | none => false
  match (if due then sys.removeFirst .timerQueue else (none, sys)) with
  | (some timer, sys) => (some timer, sys)
  | (none, sys) => sys.takeWorkItem

def System.setLane (sys : System) (lane : Nat) (worker : Worker) : System :=
  { sys with lanes := sys.lanes.set lane worker }

/-- One round of the inner loop with the lock held, up to the wait, the execution of an item or
the end of the virtual processor. -/
def runRound (lane : Nat) (mayRelinquish : Bool) (now : Int) : Code System Errno Unit := do
  let sys ← Code.get
  match sys.takeItem now with
  | (some item, sys) =>
    if sys.state ≠ .running then Code.modify fun _ => sys.relinquishVirtualProcessor lane
    else Code.modify fun _ => sys.setLane lane (.executing item)
  | (none, sys) =>
    if sys.state ≠ .running ∨ mayRelinquish then
      Code.modify fun _ => sys.relinquishVirtualProcessor lane
    else Code.modify fun _ => sys.setLane lane (.waiting mayRelinquish)
  lockUnlock (.worker lane)

/-- `Lock_Lock` by a virtual processor. -/
def enter (lane : Nat) : Code System Errno Unit := do
  lockLock (.worker lane)
  Code.modify (·.setLane lane .running)

/-- The round behind the first `Lock_Lock`. -/
def runStart (lane : Nat) (now : Int) : Code System Errno Unit := do
  enter lane
  runRound lane false now

def runWake (lane : Nat) (mayRelinquish timedOut : Bool) (now : Int) : Code System Errno Unit := do
  enter lane
  let sys ← Code.get
  let idle := timedOut ∧ sys.minConcurrency < sys.availableConcurrency
  runRound lane (mayRelinquish || idle) now

def runClosure (lane item : Nat) : Code System Errno Unit := fun sys =>
  match (sys.items item).closure with
  | none => .fault
  | some _ =>
    let sys := match sys.dispatches item with
      | some (.sync call _) => { sys with ran := call :: sys.ran }
      | _ => sys
    .ok () ((sys.signalCompletion item false).setLane lane (.finished item))

/-- The loop of `DispatchQueue_RearmTimer_Locked`. -/
def rearmDeadline (interval now : Int) : Nat → Int → Option Int
  | 0, _ => none
  | fuel + 1, deadline =>
    if deadline + interval < now then rearmDeadline interval now fuel (deadline + interval)
    else some (deadline + interval)

def rearmTimer (fuel timer : Nat) (now : Int) : Code System Errno Unit := fun sys =>
  match rearmDeadline (sys.items timer).interval now fuel (sys.items timer).deadline with
  | none => .fault
  | some deadline => addTimer fuel timer (sys.setItem timer fun value => { value with deadline := deadline })

def reclaimItem (fuel item : Nat) (now : Int) : Code System Errno Unit := do
  let sys ← Code.get
  match (sys.items item).type with
  | .immediate => Code.modify (·.relinquishWorkItem item)
  | .oneShotTimer => Code.modify (·.relinquishTimer item)
  | .repeatingTimer =>
    if (sys.items item).cancelled then Code.modify (·.relinquishTimer item)
    else if sys.state = .running then rearmTimer fuel item now
    else pure ()

/-- The rest of a round behind the closure, and the first round of the next one.  `now` and
`later` are the times that the two of them read. -/
def runReclaim (lane fuel item : Nat) (now later : Int) : Code System Errno Unit := do
  enter lane
  reclaimItem fuel item now
  runRound lane false later

/-! ## Steps -/

inductive Action
  | createWorkItem (closure address : Nat) (content : WorkItem)
  | createTimer (deadline interval : Int) (closure address : Nat) (content : WorkItem)
  | setCancelled (item : Nat) (flag : Bool)
  | dispatchSync (closure : Nat) (memory : Memory) (address : Option Nat) (available : Bool)
  | dispatchAsync (closure : Nat) (memory : Memory) (available : Bool)
  | dispatchAsyncAfter (deadline : Int) (closure : Nat) (memory : Memory) (available : Bool)
  | dispatchWorkItemSync (item : Nat) (address : Option Nat) (available : Bool)
  | dispatchWorkItemAsync (item : Nat) (available : Bool)
  | dispatchTimer (timer : Nat) (available : Bool)
  | removeWorkItem (item : Nat)
  | removeTimer (timer : Nat)
  | flush
  | terminate
  | acquireSemaphore (call : Nat)
  | interruptSemaphore (call : Nat)
  | resume (call : Nat)
  | fail (call : Nat)
  | start (lane : Nat) (now : Int)
  | wake (lane : Nat) (timedOut : Bool) (now : Int)
  | execute (lane : Nat)
  | reclaim (lane : Nat) (now later : Int)

def createWorkItem (closure address : Nat) (content : WorkItem) : Code System Errno Unit :=
  Code.modify fun sys =>
    let sys := ((sys.kalloc address).setItem address fun _ => content).workItemInit address .immediate
      closure false
    { sys with clientItems := address :: sys.clientItems }

def createTimer (deadline interval : Int) (closure address : Nat) (content : WorkItem) :
    Code System Errno Unit :=
  Code.modify fun sys =>
    let sys := ((sys.kalloc address).setItem address fun _ => content).timerInit address deadline interval
      closure false
    { sys with clientItems := address :: sys.clientItems }

def startCall (code : Nat → Code System Errno Call) : Code System Errno Unit := fun sys =>
  match code sys.calls.length sys with
  | .ok call sys => .ok () { sys with calls := sys.calls ++ [call] }
  | .err error sys => .ok () { sys with calls := sys.calls ++ [.returned (some error)] }
  | .fault => .fault

def continueCall (call : Nat) (code : Code System Errno Call) : Code System Errno Unit := do
  let result ← code
  Code.modify fun sys => { sys with calls := sys.calls.set call result }

/-- Another call of an API function; its error is the caller's. -/
def performCall (code : Thread → Code System Errno Unit) : Code System Errno Unit := do
  let sys ← Code.get
  let _ ← Code.attempt (code (.client sys.calls.length))

/-- `Semaphore_Acquire` takes a permit. -/
def acquireSemaphore (call : Nat) : Code System Errno Unit := fun sys =>
  match sys.calls[call]? with
  | some (.waiting item signaler owned) =>
    .ok () { sys.setSignaler signaler fun value => { value with semaphore := value.semaphore - 1 } with
      calls := sys.calls.set call (.woken item signaler owned) }
  | _ => .fault

/-- `Semaphore_Acquire` returns `EINTR`. -/
def interruptSemaphore (call : Nat) : Code System Errno Unit := fun sys =>
  match sys.calls[call]? with
  | some (.waiting item signaler owned) =>
    .ok () { sys with calls := sys.calls.set call (.interrupted item signaler owned) }
  | _ => .fault

def resume (call : Nat) : Code System Errno Unit := fun sys =>
  match sys.calls[call]? with
  | some (.woken item signaler owned) => continueCall call (finishSync call item signaler owned) sys
  | some (.interrupted item signaler owned) => continueCall call (abandonSync call item signaler owned) sys
  | _ => .fault

def fail (call : Nat) : Code System Errno Unit := fun sys =>
  match sys.calls[call]? with
  | some (.failing item owned) => continueCall call (failSync call item owned) sys
  | _ => .fault

def start (lane : Nat) (now : Int) : Code System Errno Unit := fun sys =>
  match sys.lanes[lane]? with
  | some .starting => runStart lane now sys
  | _ => .fault

def wake (lane : Nat) (timedOut : Bool) (now : Int) : Code System Errno Unit := fun sys =>
  match sys.lanes[lane]? with
  | some (.waiting mayRelinquish) => runWake lane mayRelinquish timedOut now sys
  | _ => .fault

def execute (lane : Nat) : Code System Errno Unit := fun sys =>
  match sys.lanes[lane]? with
  | some (.executing item) => runClosure lane item sys
  | _ => .fault

def reclaim (lane fuel : Nat) (now later : Int) : Code System Errno Unit := fun sys =>
  match sys.lanes[lane]? with
  | some (.finished item) => runReclaim lane fuel item now later sys
  | _ => .fault

def perform (fuel : Nat) : Action → Code System Errno Unit
  | .createWorkItem closure address content => createWorkItem closure address content
  | .createTimer deadline interval closure address content =>
    createTimer deadline interval closure address content
  | .setCancelled item flag => Code.modify (·.setItem item fun value => { value with cancelled := flag })
  | .dispatchSync closure memory address available =>
    startCall fun call => dispatchSync call closure memory address available
  | .dispatchAsync closure memory available =>
    performCall fun self => dispatchAsync self closure memory available
  | .dispatchAsyncAfter deadline closure memory available =>
    performCall fun self => dispatchAsyncAfter self fuel deadline closure memory available
  | .dispatchWorkItemSync item address available =>
    startCall fun call => dispatchWorkItemSync call item address available
  | .dispatchWorkItemAsync item available => performCall fun self => dispatchWorkItemAsync self item available
  | .dispatchTimer timer available => performCall fun self => dispatchTimer self fuel timer available
  | .removeWorkItem item => performCall fun self => removeWorkItem self fuel item
  | .removeTimer timer => performCall fun self => removeTimer self fuel timer
  | .flush => performCall fun self => flush self fuel
  | .terminate => performCall fun self => terminate self fuel
  | .acquireSemaphore call => acquireSemaphore call
  | .interruptSemaphore call => interruptSemaphore call
  | .resume call => resume call
  | .fail call => fail call
  | .start lane now => start lane now
  | .wake lane timedOut now => wake lane timedOut now
  | .execute lane => execute lane
  | .reclaim lane now later => reclaim lane fuel now later

def System.isFree (sys : System) : Option Nat → Bool
  | some address => decide (address ∉ sys.allocated)
  | none => true

def System.isClientItem (sys : System) (item : Nat) : Bool :=
  decide (item ∈ sys.clientItems ∧ (sys.items item).type = .immediate)

def System.isClientTimer (sys : System) (timer : Nat) : Bool :=
  decide (timer ∈ sys.clientItems ∧ (sys.items timer).type ≠ .immediate)

/-- The thread of the action is in the right place, `kalloc` answers with nodes that are
free, and the items that come from clients are their own. -/
def Action.enabled (sys : System) : Action → Bool
  | .createWorkItem _ address _ => sys.isFree (some address)
  | .createTimer _ _ _ address _ => sys.isFree (some address)
  | .setCancelled item _ => decide (item ∈ sys.clientItems)
  | .dispatchSync _ memory address _ =>
    sys.isFree (memory.map (·.1)) && sys.isFree address &&
      decide (address = none ∨ address ≠ memory.map (·.1))
  | .dispatchAsync _ memory _ => sys.isFree (memory.map (·.1))
  | .dispatchAsyncAfter _ _ memory _ => sys.isFree (memory.map (·.1))
  | .dispatchWorkItemSync item address _ => sys.isClientItem item && sys.isFree address
  | .dispatchWorkItemAsync item _ => sys.isClientItem item
  | .dispatchTimer timer _ => sys.isClientTimer timer
  | .removeWorkItem item => sys.isClientItem item
  | .removeTimer timer => sys.isClientTimer timer
  | .flush => true
  | .terminate => true
  | .acquireSemaphore call =>
    match sys.calls[call]? with
    | some (.waiting _ signaler _) => decide (0 < (sys.signalers signaler).semaphore)
    | _ => false
  | .interruptSemaphore call =>
    match sys.calls[call]? with
    | some (.waiting _ _ _) => true
    | _ => false
  | .resume call =>
    match sys.calls[call]? with
    | some (.woken _ _ _) => true
    | some (.interrupted _ _ _) => true
    | _ => false
  | .fail call =>
    match sys.calls[call]? with
    | some (.failing _ _) => true
    | _ => false
  | .start lane _ => decide (sys.lanes[lane]? = some .starting)
  | .wake lane _ _ =>
    match sys.lanes[lane]? with
    | some (.waiting _) => true
    | _ => false
  | .execute lane =>
    match sys.lanes[lane]? with
    | some (.executing _) => true
    | _ => false
  | .reclaim lane _ _ =>
    match sys.lanes[lane]? with
    | some (.finished _) => true
    | _ => false

/-- One thread takes a step and comes to the next acquisition of the lock. -/
def Step (sys : System) (action : Action) (after : System) : Prop :=
  action.enabled sys = true ∧ ∃ fuel, perform fuel action sys = .ok () after

/-! ## The new queue -/

/-- The queue of `DispatchQueue_Create` in front of the loop that acquires virtual processors. -/
def emptyQueue (minConcurrency maxConcurrency : Nat) : System where
  links := fun _ => none
  items := fun _ => ⟨none, none, false, false, false, .immediate, 0, 0⟩
  signalers := fun _ => ⟨0, false⟩
  allocated := []
  lists := fun _ => SList.init
  itemsQueuedCount := 0
  cacheCount := fun _ => 0
  state := .running
  minConcurrency := minConcurrency
  maxConcurrency := maxConcurrency
  availableConcurrency := 0
  lock := none
  lanes := List.replicate maxConcurrency .absent
  calls := []
  clientItems := []
  dispatches := fun _ => none
  ran := []
  trace := []

def acquireVirtualProcessors : Nat → Code System Errno Unit
  | 0 => pure ()
  | count + 1 => do
      acquireVirtualProcessors count
      acquireVirtualProcessor true

/-- `DispatchQueue_Create`, when the pool has enough virtual processors. -/
def dispatchQueueCreate (minConcurrency maxConcurrency : Nat) : Except Errno System :=
  if maxConcurrency < 1 ∨ 127 < maxConcurrency then .error .EINVAL
  else if maxConcurrency < minConcurrency then .error .EINVAL
  else
    match acquireVirtualProcessors minConcurrency (emptyQueue minConcurrency maxConcurrency) with
    | .ok _ sys => .ok sys
    | .err error _ => .error error
    | .fault => .error .EINVAL

end Apollo.Dispatchqueue
