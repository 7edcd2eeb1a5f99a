import Apollo.Filesystem.Inode
import Apollo.Klib.List

/-!
# Work items, timers, completion signalers and the dispatch queue that links them

The memory of the nodes is one map per kind of content, and a pointer is a
number.  `allocated` lists the nodes that `kalloc` has handed out; the content
of a fresh node is whatever was in memory before.

The threads are the virtual processors of the queue, one for each concurrency
lane, and those that call API functions; `calls` has the synchronous calls.  The
last fields of the state are written and never read by the code: they record
which items the clients created, who dispatched an item, whose closure has run,
and what happened.
-/

set_option autoImplicit false

namespace Apollo.Dispatchqueue

open Klib
open Lib

inductive ItemType
  | immediate
  | oneShotTimer
  | repeatingTimer
  deriving DecidableEq

/-- A work item, and the deadline and the interval that a timer has besides.
Points in time are numbers of nanoseconds. -/
structure WorkItem where
  closure : Option Nat
  completion : Option Nat
  isOwnedByQueue : Bool
  isBeingDispatched : Bool
  cancelled : Bool
  type : ItemType
  deadline : Int
  interval : Int
  deriving DecidableEq

structure CompletionSignaler where
  semaphore : Nat
  isInterrupted : Bool
  deriving DecidableEq

inductive QueueState
  | running
  | terminating
  | terminated
  deriving DecidableEq

inductive Cache
  | items
  | timers
  | completionSignalers
  deriving DecidableEq

inductive ListName
  | itemQueue
  | timerQueue
  | cache (cache : Cache)
  deriving DecidableEq

inductive Thread
  | client (call : Nat)
  | worker (lane : Nat)
  deriving DecidableEq

/-- Where the virtual processor of a lane is in `DispatchQueue_Run`: in front of
the first `Lock_Lock`, behind a `Lock_Lock`, in `ConditionVariable_Wait`, in the
closure of an item, or behind it in front of the second `Lock_Lock`. -/
inductive Worker
  | absent
  | starting
  | running
  | waiting (mayRelinquish : Bool)
  | executing (item : Nat)
  | finished (item : Nat)
  deriving DecidableEq

/-- Where a synchronous call is: on its semaphore, in front of the `Lock_Lock`
behind it, in front of the clean-up for a call that failed, or back at its caller.
`owned` tells `DispatchSync` from `DispatchWorkItemSync`. -/
inductive Call
  | waiting (item signaler : Nat) (owned : Bool)
  | woken (item signaler : Nat) (owned : Bool)
  | interrupted (item signaler : Nat) (owned : Bool)
  | failing (item : Nat) (owned : Bool)
  | returned (error : Option Errno)
  deriving DecidableEq

/-- How an item got into the queue: by a synchronous call that waits for a signaler, or
otherwise. -/
inductive Dispatch
  | sync (call signaler : Nat)
  | async
  deriving DecidableEq

/-- A completion that was signaled, a hand-back of an item, an item that a flush removed, and
a look of a worker into the empty item queue. -/
inductive Event
  | signals (item signaler : Nat) (dispatch : Option Dispatch)
  | relinquishes (item : Nat)
  | flushes (item : Nat)
  | findsNothing
  deriving DecidableEq

structure System where
  links : Links Nat
  items : Nat → WorkItem
  signalers : Nat → CompletionSignaler
  allocated : List Nat
  lists : ListName → SList Nat
  itemsQueuedCount : Int
  cacheCount : Cache → Int
  state : QueueState
  minConcurrency : Nat
  maxConcurrency : Nat
  availableConcurrency : Nat
  lock : Option Thread
  lanes : List Worker
  calls : List Call
  clientItems : List Nat
  dispatches : Nat → Option Dispatch
  ran : List Nat
  trace : List Event

/-- `MAX_ITEM_CACHE_COUNT`, `MAX_TIMER_CACHE_COUNT` and
`MAX_COMPLETION_SIGNALER_CACHE_COUNT`. -/
def maxCacheCount : Nat := 8

namespace System

/-! ## Lists -/

def withList (sys : System) (name : ListName) (result : Links Nat × SList Nat) : System :=
  { sys with links := result.1, lists := Function.update sys.lists name result.2 }

def insertBeforeFirst (sys : System) (name : ListName) (node : Nat) : System :=
  sys.withList name ((sys.lists name).insertBeforeFirst sys.links node)

def insertAfterLast (sys : System) (name : ListName) (node : Nat) : System :=
  sys.withList name ((sys.lists name).insertAfterLast sys.links node)

def insertAfter (sys : System) (name : ListName) (node : Nat) (afterNode : Option Nat) : System :=
  sys.withList name ((sys.lists name).insertAfter sys.links node afterNode)

def removeFirst (sys : System) (name : ListName) : Option Nat × System :=
  let result := (sys.lists name).removeFirst sys.links
  (result.1, sys.withList name result.2)

/-! ## Items, timers and signalers -/

def setItem (sys : System) (item : Nat) (change : WorkItem → WorkItem) : System :=
  { sys with items := Function.update sys.items item (change (sys.items item)) }

def setSignaler (sys : System) (signaler : Nat) (change : CompletionSignaler → CompletionSignaler) :
    System :=
  { sys with signalers := Function.update sys.signalers signaler (change (sys.signalers signaler)) }

/-- `SListNode_Init` and `SListNode_Deinit`. -/
def unlink (sys : System) (node : Nat) : System :=
  { sys with links := Function.update sys.links node none }

/-- `kalloc`: the node at `address` is the caller's, with any content. -/
def kalloc (sys : System) (address : Nat) : System :=
  { sys with allocated := address :: sys.allocated }

def kfree (sys : System) (address : Nat) : System :=
  { sys with allocated := sys.allocated.erase address }

/-- `WorkItem_Init`.  It does not touch `completion`. -/
def workItemInit (sys : System) (item : Nat) (type : ItemType) (closure : Nat) (isOwnedByQueue : Bool) :
    System :=
  (sys.unlink item).setItem item fun value =>
    { value with
      closure := some closure
      isOwnedByQueue := isOwnedByQueue
      isBeingDispatched := false
      cancelled := false
      type := type }

/-- `WorkItem_Deinit`, which is also `Timer_Deinit`. -/
def workItemDeinit (sys : System) (item : Nat) : System :=
  (sys.unlink item).setItem item fun value =>
    { value with closure := none, completion := none, isBeingDispatched := false, cancelled := false }

def workItemDestroy (sys : System) (item : Nat) : System := (sys.workItemDeinit item).kfree item

def timerInit (sys : System) (timer : Nat) (deadline interval : Int) (closure : Nat)
    (isOwnedByQueue : Bool) : System :=
  let type := if 0 < interval then ItemType.repeatingTimer else ItemType.oneShotTimer
  (sys.workItemInit timer type closure isOwnedByQueue).setItem timer fun value =>
    { value with deadline := deadline, interval := interval }

/-- `CompletionSignaler_Init`.  It does not touch the semaphore. -/
def completionSignalerInit (sys : System) (signaler : Nat) : System :=
  (sys.unlink signaler).setSignaler signaler fun value => { value with isInterrupted := false }

/-- `CompletionSignaler_Create` behind its `kalloc`. -/
def completionSignalerCreate (sys : System) (signaler : Nat) : System :=
  (sys.completionSignalerInit signaler).setSignaler signaler fun value => { value with semaphore := 0 }

def completionSignalerDeinit (sys : System) (signaler : Nat) : System :=
  (sys.unlink signaler).setSignaler signaler fun value => { value with isInterrupted := false }

def completionSignalerDestroy (sys : System) (signaler : Nat) : System :=
  (sys.completionSignalerDeinit signaler).kfree signaler

def record (sys : System) (event : Event) : System := { sys with trace := event :: sys.trace }

def signalCompletion (sys : System) (item : Nat) (isInterrupted : Bool) : System :=
  match (sys.items item).completion with
  | some signaler =>
    ((sys.setSignaler signaler fun value => ⟨value.semaphore + 1, isInterrupted⟩).setItem item
      fun value => { value with completion := none }).record
        (.signals item signaler (sys.dispatches item))
  | none => sys

/-! ## The caches -/

def relinquish (sys : System) (cache : Cache) (deinit destroy : System → Nat → System) (node : Nat) :
    System :=
  if sys.cacheCount cache < maxCacheCount then
    let sys := (deinit sys node).insertBeforeFirst (.cache cache) node
    { sys with cacheCount := Function.update sys.cacheCount cache (sys.cacheCount cache + 1) }
  else destroy sys node

def relinquishWorkItem (sys : System) (item : Nat) : System :=
  let sys := sys.record (.relinquishes item)
  if !(sys.items item).isOwnedByQueue then sys
  else sys.relinquish .items workItemDeinit workItemDestroy item

def relinquishTimer (sys : System) (timer : Nat) : System :=
  let sys := sys.record (.relinquishes timer)
  if !(sys.items timer).isOwnedByQueue then sys
  else sys.relinquish .timers workItemDeinit workItemDestroy timer

def relinquishCompletionSignaler (sys : System) (signaler : Nat) : System :=
  sys.relinquish .completionSignalers completionSignalerDeinit completionSignalerDestroy signaler

end System

/-- A node taken from its cache, or else a fresh one; `address` is what `kalloc`
answers. -/
def acquire (cache : Cache) (reuse create : Nat → System → System) (address : Option Nat) :
    Code System Errno Nat := fun sys =>
  match sys.removeFirst (.cache cache) with
  | (some node, sys) =>
    let sys := reuse node sys
    .ok node { sys with cacheCount := Function.update sys.cacheCount cache (sys.cacheCount cache - 1) }
  | (none, sys) =>
    match address with
    | some node => .ok node (create node (sys.kalloc node))
    | none => .err .ENOMEM sys

/-- What `kalloc` answers to a request for an item or a timer: an address and the
bytes that are there. -/
abbrev Memory : Type := Option (Nat × WorkItem)

def Memory.fill (memory : Memory) (item : Nat) (sys : System) : System :=
  match memory with
  | some content => sys.setItem item fun _ => content.2
  | none => sys

def acquireWorkItem (closure : Nat) (memory : Memory) : Code System Errno Nat :=
  acquire .items (fun item sys => sys.workItemInit item .immediate closure true)
    (fun item sys => (memory.fill item sys).workItemInit item .immediate closure true)
    (memory.map (·.1))

def acquireTimer (deadline interval : Int) (closure : Nat) (memory : Memory) : Code System Errno Nat :=
  acquire .timers (fun timer sys => sys.timerInit timer deadline interval closure true)
    (fun timer sys => (memory.fill timer sys).timerInit timer deadline interval closure true)
    (memory.map (·.1))

def acquireCompletionSignaler (address : Option Nat) : Code System Errno Nat :=
  acquire .completionSignalers (fun signaler sys => sys.completionSignalerInit signaler)
    (fun signaler sys => sys.completionSignalerCreate signaler) address

end Apollo.Dispatchqueue
