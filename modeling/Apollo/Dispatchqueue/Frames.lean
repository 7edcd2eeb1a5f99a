import Apollo.Dispatchqueue.Steps

/-!
# What the calls of clients leave alone

A client changes the queues by its dispatches and removals and hires virtual
processors; everything else that it does happens to its items, to the signalers
and to the caches.  An invariant that is about the queues and the virtual
processors is kept by every call as soon as it is kept by these few functions.
-/

set_option autoImplicit false

namespace Apollo.Dispatchqueue

open Klib
open Lib

/-- The number of looks into the empty item queue, and of items that a flush removed. -/
def System.tally (sys : System) : Nat × Nat :=
  (sys.trace.count .findsNothing, sys.trace.countP Event.isFlush)

def System.staff (sys : System) : QueueState × Nat × Nat × Nat × List Worker :=
  (sys.state, sys.minConcurrency, sys.maxConcurrency, sys.availableConcurrency, sys.lanes)

def System.frame (sys : System) : (QueueState × Nat × Nat × Nat × List Worker) × (Nat × Nat) × SList Nat × SList Nat :=
  (sys.staff, sys.tally, sys.lists .itemQueue, sys.lists .timerQueue)

/-- The functions that change the frame keep the invariant, and the rest does not matter to it.
`granted` tells which answers the pool may give. -/
structure Respects (granted : Bool → Prop) (inv : System → Prop) : Prop where
  quiet : ∀ {sys after : System}, after.frame = sys.frame → inv sys → inv after
  dispatchItem : ∀ self item dispatch available, granted available →
    Code.Keeps inv (dispatchWorkItemAsyncAndUnlock self item dispatch available)
  dispatchTimer : ∀ self fuel timer dispatch available, granted available →
    Code.Keeps inv (dispatchTimerLocked self fuel timer dispatch available)
  removeItem : ∀ fuel item, Code.Keeps inv (removeWorkItemLocked fuel item)
  removeTimer : ∀ fuel timer, Code.Keeps inv (removeTimerLocked fuel timer)

/-! ## Functions that keep the frame -/

section FramedCode
variable {α : Type} {code : Code System Errno α}

def Framed (code : Code System Errno α) : Prop :=
  ∀ sys, (code sys).Returned (fun _ after => after.frame = sys.frame) fun _ after => after.frame = sys.frame

theorem Respects.keeps {granted : Bool → Prop} {inv : System → Prop} (respects : Respects granted inv)
    (framed : Framed code) : Code.Keeps inv code := by
  intro sys holds
  refine (framed sys).mono ?_ ?_
  · exact fun _ _ same => respects.quiet same holds
  · exact fun _ _ same => respects.quiet same holds

theorem lockLock_framed (self : Thread) : Framed (lockLock self) := by
  intro sys
  unfold lockLock
  cases sys.lock with
  | none => rfl
  | some owner => trivial

theorem lockUnlock_framed (self : Thread) : Framed (lockUnlock self) := by
  intro sys
  unfold lockUnlock
  split_ifs
  · rfl
  · trivial

theorem relinquish_frame {cache : Cache} {deinit destroy : System → Nat → System} {node : Nat} {sys : System}
    (deinits : (deinit sys node).frame = sys.frame) (destroys : (destroy sys node).frame = sys.frame) :
    (sys.relinquish cache deinit destroy node).frame = sys.frame := by
  unfold System.relinquish
  split_ifs
  · exact deinits
  · exact destroys

theorem relinquished_frame (sys : System) (item : Nat) : (sys.record (.relinquishes item)).frame = sys.frame := by
  simp [System.frame, System.staff, System.tally, System.record, Event.isFlush]

theorem relinquishWorkItem_frame (sys : System) (item : Nat) : (sys.relinquishWorkItem item).frame = sys.frame := by
  unfold System.relinquishWorkItem
  simp only
  split_ifs
  · exact relinquished_frame sys item
  · exact (relinquish_frame rfl rfl).trans (relinquished_frame sys item)

theorem relinquishTimer_frame (sys : System) (timer : Nat) : (sys.relinquishTimer timer).frame = sys.frame := by
  unfold System.relinquishTimer
  simp only
  split_ifs
  · exact relinquished_frame sys timer
  · exact (relinquish_frame rfl rfl).trans (relinquished_frame sys timer)

theorem relinquishCompletionSignaler_frame (sys : System) (signaler : Nat) :
    (sys.relinquishCompletionSignaler signaler).frame = sys.frame :=
  relinquish_frame rfl rfl

theorem signalCompletion_frame (sys : System) (item : Nat) (isInterrupted : Bool) :
    (sys.signalCompletion item isInterrupted).frame = sys.frame := by
  cases points : (sys.items item).completion with
  | none => rw [signalCompletion_none _ points]
  | some signaler =>
    rw [signalCompletion_some _ points]
    simp [System.frame, System.staff, System.tally, Event.isFlush]

theorem acquire_framed {cache : Cache} {reuse create : Nat → System → System} {address : Option Nat}
    (reuses : ∀ node sys, (reuse node sys).frame = sys.frame)
    (creates : ∀ node sys, (create node sys).frame = sys.frame) : Framed (acquire cache reuse create address) := by
  intro sys
  unfold acquire
  rcases removes : sys.removeFirst (.cache cache) with ⟨first, rest⟩
  have same : rest.frame = sys.frame := by
    rw [show rest = (sys.removeFirst (.cache cache)).2 by rw [removes]]
    rfl
  cases first with
  | some node => exact (reuses node rest).trans same
  | none =>
    cases address with
    | some node => exact (creates node (rest.kalloc node)).trans same
    | none => exact same

theorem fill_frame (memory : Memory) (item : Nat) (sys : System) : (memory.fill item sys).frame = sys.frame := by
  cases memory with
  | none => rfl
  | some content => rfl

theorem acquireWorkItem_framed (closure : Nat) (memory : Memory) : Framed (acquireWorkItem closure memory) :=
  acquire_framed (fun _ _ => rfl) fun node sys => fill_frame memory node sys

theorem acquireTimer_framed (deadline interval : Int) (closure : Nat) (memory : Memory) :
    Framed (acquireTimer deadline interval closure memory) :=
  acquire_framed (fun _ _ => rfl) fun node sys => fill_frame memory node sys

theorem acquireCompletionSignaler_framed (address : Option Nat) : Framed (acquireCompletionSignaler address) :=
  acquire_framed (fun _ _ => rfl) fun _ _ => rfl

theorem beginDispatch_framed (item : Nat) : Framed (beginDispatch item) := fun _ => rfl

theorem modify_framed {change : System → System} (same : ∀ sys, (change sys).frame = sys.frame) :
    Framed (Code.modify change) := same

end FramedCode

/-! ## Calls -/

section Calls
variable {granted : Bool → Prop} {inv : System → Prop}

theorem keeps_performCall {code : Thread → Code System Errno Unit} (keeps : ∀ self, Code.Keeps inv (code self)) :
    Code.Keeps inv (performCall code) := by
  refine Code.keeps_bind Code.keeps_get fun sys => ?_
  exact Code.keeps_bind (Code.keeps_attempt (keeps _)) fun _ => Code.keeps_pure ()

variable (respects : Respects granted inv)
include respects

theorem Respects.dispatchWorkItemSyncAndUnlock (self : Thread) (call item : Nat)
    (address : Option Nat) {available : Bool} (answer : granted available) :
    Code.Keeps inv (dispatchWorkItemSyncAndUnlock self call item address available) := by
  refine Code.keeps_bind (respects.keeps (acquireCompletionSignaler_framed address)) fun signaler => ?_
  refine Code.keeps_bind (respects.keeps (modify_framed fun _ => rfl)) fun _ => ?_
  refine Code.keeps_bind (Code.keeps_onError ?_ ?_) fun _ => Code.keeps_pure signaler
  · exact respects.dispatchItem self item _ available answer
  · exact respects.keeps (modify_framed fun sys => relinquishCompletionSignaler_frame sys signaler)

/-- The part of a call behind its `Lock_Lock`. -/
theorem Respects.ifRunning {α : Type} (self : Thread)
    {stopped running : Code System Errno α} (stops : Code.Keeps inv stopped) (runs : Code.Keeps inv running) :
    Code.Keeps inv (do
      lockLock self
      let sys ← Code.get
      if sys.state ≠ .running then stopped else running) := by
  refine Code.keeps_bind (respects.keeps (lockLock_framed self)) fun _ => ?_
  exact Code.keeps_bind Code.keeps_get fun sys => Code.keeps_ite (fun _ => stops) fun _ => runs

theorem Respects.dispatchSync (call closure : Nat) (memory : Memory)
    (address : Option Nat) {available : Bool} (answer : granted available) :
    Code.Keeps inv (dispatchSync call closure memory address available) := by
  have unlocks := respects.keeps (lockUnlock_framed (.client call))
  refine respects.ifRunning _ (Code.keeps_bind unlocks fun _ => Code.keeps_pure _) (Code.keeps_onError ?_ unlocks)
  refine Code.keeps_bind (respects.keeps (acquireWorkItem_framed closure memory)) fun item => ?_
  refine Code.keeps_onError (Code.keeps_bind ?_ fun _ => Code.keeps_pure _) ?_
  · exact respects.dispatchWorkItemSyncAndUnlock _ call item address answer
  · exact respects.keeps (modify_framed fun sys => relinquishWorkItem_frame sys item)

theorem Respects.dispatchAsync (self : Thread) (closure : Nat) (memory : Memory)
    {available : Bool} (answer : granted available) :
    Code.Keeps inv (dispatchAsync self closure memory available) := by
  have unlocks := respects.keeps (lockUnlock_framed self)
  refine respects.ifRunning _ unlocks (Code.keeps_onError ?_ unlocks)
  refine Code.keeps_bind (respects.keeps (acquireWorkItem_framed closure memory)) fun item => ?_
  refine Code.keeps_onError (respects.dispatchItem self item _ available answer) ?_
  exact respects.keeps (modify_framed fun sys => relinquishWorkItem_frame sys item)

theorem Respects.dispatchAsyncAfter (self : Thread) (fuel : Nat) (deadline : Int)
    (closure : Nat) (memory : Memory) {available : Bool} (answer : granted available) :
    Code.Keeps inv (dispatchAsyncAfter self fuel deadline closure memory available) := by
  have unlocks := respects.keeps (lockUnlock_framed self)
  refine respects.ifRunning _ unlocks (Code.keeps_onError ?_ unlocks)
  refine Code.keeps_bind (respects.keeps (acquireTimer_framed deadline 0 closure memory)) fun timer => ?_
  refine Code.keeps_onError (respects.dispatchTimer self fuel timer _ available answer) ?_
  exact respects.keeps (modify_framed fun sys => relinquishTimer_frame sys timer)

theorem Respects.ifBegun {α : Type} (item : Nat) {code : Code System Errno α} (goesOn : Code.Keeps inv code) :
    Code.Keeps inv (do if ← beginDispatch item then Code.throw .EBUSY else code) := by
  refine Code.keeps_bind (respects.keeps (beginDispatch_framed item)) fun begun => ?_
  exact Code.keeps_ite (fun _ => Code.keeps_throw _) fun _ => goesOn

theorem Respects.dispatchWorkItemSync (call item : Nat) (address : Option Nat)
    {available : Bool} (answer : granted available) :
    Code.Keeps inv (dispatchWorkItemSync call item address available) := by
  have unlocks := respects.keeps (lockUnlock_framed (.client call))
  refine respects.ifBegun item (respects.ifRunning _ (Code.keeps_bind unlocks fun _ => Code.keeps_pure _) ?_)
  refine Code.keeps_bind (Code.keeps_onError ?_ unlocks) fun _ => Code.keeps_pure _
  exact respects.dispatchWorkItemSyncAndUnlock _ call item address answer

theorem Respects.dispatchWorkItemAsync (self : Thread) (item : Nat)
    {available : Bool} (answer : granted available) : Code.Keeps inv (dispatchWorkItemAsync self item available) := by
  have unlocks := respects.keeps (lockUnlock_framed self)
  refine respects.ifBegun item (respects.ifRunning _ unlocks (Code.keeps_onError ?_ unlocks))
  exact respects.dispatchItem self item _ available answer

theorem Respects.dispatchTimerCall (self : Thread) (fuel timer : Nat)
    {available : Bool} (answer : granted available) : Code.Keeps inv (Dispatchqueue.dispatchTimer self fuel timer available) := by
  have unlocks := respects.keeps (lockUnlock_framed self)
  refine respects.ifBegun timer (respects.ifRunning _ unlocks (Code.keeps_onError ?_ unlocks))
  exact respects.dispatchTimer self fuel timer _ available answer

theorem Respects.removeWorkItem (self : Thread) (fuel item : Nat) : Code.Keeps inv (removeWorkItem self fuel item) := by
  refine Code.keeps_bind (respects.keeps (lockLock_framed self)) fun _ => ?_
  exact Code.keeps_bind (respects.removeItem fuel item) fun _ => respects.keeps (lockUnlock_framed self)

theorem Respects.removeTimerCall (self : Thread) (fuel timer : Nat) :
    Code.Keeps inv (Dispatchqueue.removeTimer self fuel timer) := by
  refine Code.keeps_bind (respects.keeps (lockLock_framed self)) fun _ => ?_
  exact Code.keeps_bind (respects.removeTimer fuel timer) fun _ => respects.keeps (lockUnlock_framed self)

theorem Respects.startCall {code : Nat → Code System Errno Call}
    (keeps : ∀ call, Code.Keeps inv (code call)) : Code.Keeps inv (startCall code) := by
  intro sys holds
  have kept := keeps sys.calls.length sys holds
  unfold Dispatchqueue.startCall
  cases result : code sys.calls.length sys with
  | ok call after =>
    rw [result] at kept
    exact @Respects.quiet granted inv respects after _ rfl kept
  | err error after =>
    rw [result] at kept
    exact @Respects.quiet granted inv respects after _ rfl kept
  | fault => trivial

theorem Respects.continueCall {call : Nat} {code : Code System Errno Call}
    (keeps : Code.Keeps inv code) : Code.Keeps inv (continueCall call code) :=
  Code.keeps_bind keeps fun _ => respects.keeps (modify_framed fun _ => rfl)

theorem Respects.finishSync (call item signaler : Nat) (owned : Bool) :
    Code.Keeps inv (finishSync call item signaler owned) := by
  refine Code.keeps_bind (respects.keeps (lockLock_framed _)) fun _ => Code.keeps_bind Code.keeps_get fun sys => ?_
  refine Code.keeps_bind ?_ fun _ => Code.keeps_bind (respects.keeps (lockUnlock_framed _)) fun _ => ?_
  · exact respects.keeps (modify_framed fun sys => relinquishCompletionSignaler_frame sys signaler)
  · exact Code.keeps_ite (fun _ => Code.keeps_pure _) fun _ => Code.keeps_pure _

theorem Respects.abandonSync (call item signaler : Nat) (owned : Bool) :
    Code.Keeps inv (abandonSync call item signaler owned) := by
  refine Code.keeps_bind (respects.keeps (lockLock_framed _)) fun _ => Code.keeps_bind ?_ fun _ => ?_
  · exact respects.keeps (modify_framed fun sys => relinquishCompletionSignaler_frame sys signaler)
  · exact Code.keeps_bind (respects.keeps (lockUnlock_framed _)) fun _ => Code.keeps_pure _

theorem Respects.failSync (call item : Nat) (owned : Bool) : Code.Keeps inv (failSync call item owned) := by
  have returns : Code.Keeps inv (do
      lockUnlock (.client call)
      pure (Call.returned (some Errno.EINTR))) :=
    Code.keeps_bind (respects.keeps (lockUnlock_framed _)) fun _ => Code.keeps_pure _
  cases owned with
  | true =>
    refine Code.keeps_bind ?_ fun _ => returns
    exact respects.keeps (modify_framed fun sys => relinquishWorkItem_frame sys item)
  | false => exact returns

def Action.Answered (granted : Bool → Prop) : Action → Prop
  | .dispatchSync _ _ _ available => granted available
  | .dispatchAsync _ _ available => granted available
  | .dispatchAsyncAfter _ _ _ available => granted available
  | .dispatchWorkItemSync _ _ available => granted available
  | .dispatchWorkItemAsync _ available => granted available
  | .dispatchTimer _ available => granted available
  | _ => True

def Action.isClient : Action → Bool
  | .flush => false
  | .terminate => false
  | .start _ _ => false
  | .wake _ _ _ => false
  | .execute _ => false
  | .reclaim _ _ _ => false
  | _ => true

theorem Respects.perform (fuel : Nat) {action : Action}
    (client : action.isClient = true) (answered : action.Answered granted) : Code.Keeps inv (perform fuel action) := by
  cases action with
  | createWorkItem closure address content => exact respects.keeps (modify_framed fun _ => rfl)
  | createTimer deadline interval closure address content => exact respects.keeps (modify_framed fun _ => rfl)
  | setCancelled item flag => exact respects.keeps (modify_framed fun _ => rfl)
  | dispatchSync closure memory address available =>
    exact respects.startCall fun call => respects.dispatchSync call closure memory address answered
  | dispatchAsync closure memory available =>
    exact keeps_performCall fun self => respects.dispatchAsync self closure memory answered
  | dispatchAsyncAfter deadline closure memory available =>
    exact keeps_performCall fun self => respects.dispatchAsyncAfter self fuel deadline closure memory answered
  | dispatchWorkItemSync item address available =>
    exact respects.startCall fun call => respects.dispatchWorkItemSync call item address answered
  | dispatchWorkItemAsync item available =>
    exact keeps_performCall fun self => respects.dispatchWorkItemAsync self item answered
  | dispatchTimer timer available =>
    exact keeps_performCall fun self => respects.dispatchTimerCall self fuel timer answered
  | removeWorkItem item => exact keeps_performCall fun self => respects.removeWorkItem self fuel item
  | removeTimer timer => exact keeps_performCall fun self => respects.removeTimerCall self fuel timer
  | acquireSemaphore call =>
    refine respects.keeps fun sys => ?_
    simp only [Dispatchqueue.perform, acquireSemaphore]
    split
    · rfl
    · trivial
  | interruptSemaphore call =>
    refine respects.keeps fun sys => ?_
    simp only [Dispatchqueue.perform, interruptSemaphore]
    split
    · rfl
    · trivial
  | resume call =>
    intro sys holds
    simp only [Dispatchqueue.perform, resume]
    split
    · exact respects.continueCall (respects.finishSync _ _ _ _) sys holds
    · exact respects.continueCall (respects.abandonSync _ _ _ _) sys holds
    · trivial
  | fail call =>
    intro sys holds
    simp only [Dispatchqueue.perform, fail]
    split
    · exact respects.continueCall (respects.failSync _ _ _) sys holds
    · trivial
  | _ => simp [Action.isClient] at client

end Calls

/-! ## Invariants of the virtual processors -/

section Staff
variable {inv : System → Prop}

theorem addTimer_staff (fuel timer : Nat) (sys : System) :
    (addTimer fuel timer sys).Returned (fun _ after => after.staff = sys.staff ∧ after.tally = sys.tally)
      fun _ after => after.staff = sys.staff ∧ after.tally = sys.tally := by
  unfold addTimer
  cases timerBefore sys (sys.items timer).deadline fuel (sys.lists .timerQueue).first none with
  | none => trivial
  | some previous => exact ⟨rfl, rfl⟩

theorem keeps_acquireVirtualProcessor
    (hire : ∀ {sys : System} {lane : Nat}, sys.WantsVirtualProcessor → sys.lanes.findIdx? (· = .absent) = some lane →
      inv sys → inv (sys.hire lane)) (available : Bool) : Code.Keeps inv (acquireVirtualProcessor available) := by
  intro sys holds
  unfold acquireVirtualProcessor
  by_cases wants : sys.WantsVirtualProcessor
  · rw [if_pos wants]
    cases search : sys.lanes.findIdx? (· = .absent) with
    | none => trivial
    | some lane =>
      cases available with
      | true => exact hire wants search holds
      | false => exact holds
  · rw [if_neg wants]
    exact holds

theorem keeps_removeInstances {name : ListName} {before after : System → Nat → System} {item : Nat}
    (first : ∀ sys, inv sys → inv (before sys item)) (list : ∀ sys result, inv sys → inv (sys.withList name result))
    (last : ∀ sys, inv sys → inv (after sys item)) (fuel : Nat) (current previous : Option Nat) :
    Code.Keeps inv (removeInstances name before after item fuel current previous) := by
  induction fuel generalizing current previous with
  | zero => exact fun _ _ => trivial
  | succ fuel ih =>
    cases current with
    | none => exact Code.keeps_pure ()
    | some node =>
      intro sys holds
      by_cases same : node = item
      · subst same
        cases removes : ((before sys node).lists name).remove (before sys node).links previous node with
        | none =>
          have stops : removeInstances name before after node (fuel + 1) (some node) previous sys = .fault := by
            refine (if_pos rfl).trans ?_
            simp only [removes]
          rw [stops]
          trivial
        | some result =>
          rw [removeInstances_hit removes]
          exact ih _ _ _ (last _ (list _ _ (first sys holds)))
      · rw [removeInstances_skip same]
        exact ih _ _ sys holds

/-- What holds of the queue without virtual processors and survives that one more is hired. -/
theorem create_keeps {minConcurrency maxConcurrency : Nat} {sys : System}
    (hire : ∀ {sys : System} {lane : Nat}, sys.WantsVirtualProcessor → sys.lanes.findIdx? (· = .absent) = some lane →
      inv sys → inv (sys.hire lane)) (initial : inv (emptyQueue minConcurrency maxConcurrency))
    (created : dispatchQueueCreate minConcurrency maxConcurrency = .ok sys) : inv sys := by
  have acquires : ∀ count, Code.Keeps inv (acquireVirtualProcessors count) := by
    intro count
    induction count with
    | zero => exact Code.keeps_pure ()
    | succ count ih => exact Code.keeps_bind ih fun _ => keeps_acquireVirtualProcessor hire true
  have kept := acquires minConcurrency _ initial
  unfold dispatchQueueCreate at created
  split_ifs at created
  cases result : acquireVirtualProcessors minConcurrency (emptyQueue minConcurrency maxConcurrency) with
  | ok value final =>
    rw [result] at created kept
    cases created
    exact kept
  | err error final => simp [result] at created
  | fault => simp [result] at created

/-- The removals change the lists and the items, and nothing that such an invariant speaks about. -/
theorem keeps_removals
    (quiet : ∀ {sys after : System}, after.staff = sys.staff → after.tally = sys.tally → inv sys → inv after)
    (fuel node : Nat) : Code.Keeps inv (removeWorkItemLocked fuel node) ∧ Code.Keeps inv (removeTimerLocked fuel node) := by
  have framed : ∀ {sys after : System}, after.frame = sys.frame → inv sys → inv after := by
    intro sys after same
    exact quiet (congrArg Prod.fst same) (congrArg (fun frame => frame.2.1) same)
  refine ⟨?_, ?_⟩
  · intro sys holds
    refine keeps_removeInstances ?_ ?_ ?_ fuel _ none sys holds
    · exact fun sys => framed (signalCompletion_frame sys node true)
    · exact fun sys result => @quiet sys _ rfl rfl
    · intro sys holds
      refine framed (relinquishWorkItem_frame _ node) ?_
      exact @quiet sys _ rfl rfl holds
  · intro sys holds
    refine keeps_removeInstances ?_ ?_ ?_ fuel _ none sys holds
    · exact fun _ => id
    · exact fun sys result => @quiet sys _ rfl rfl
    · exact fun sys => framed (relinquishTimer_frame sys node)

/-- An invariant of the virtual processors is kept when it survives that one more is hired. -/
theorem Respects.of_staff (granted : Bool → Prop)
    (quiet : ∀ {sys after : System}, after.staff = sys.staff → after.tally = sys.tally → inv sys → inv after)
    (hire : ∀ {sys : System} {lane : Nat}, sys.WantsVirtualProcessor → sys.lanes.findIdx? (· = .absent) = some lane →
      inv sys → inv (sys.hire lane)) : Respects granted inv := by
  have framed : ∀ {sys after : System}, after.frame = sys.frame → inv sys → inv after := by
    intro sys after same
    exact quiet (congrArg Prod.fst same) (congrArg (fun frame => frame.2.1) same)
  have unlocks : ∀ self, Code.Keeps inv (lockUnlock self) := by
    intro self sys holds
    exact (lockUnlock_framed self sys).mono (fun _ _ same => framed same holds) fun _ _ same => framed same holds
  refine ⟨framed, ?_, ?_, ?_, ?_⟩
  · intro self item dispatch available _
    refine Code.keeps_bind (Code.keeps_modify fun sys holds => ?_) fun _ => ?_
    · exact @quiet sys _ rfl rfl holds
    · exact Code.keeps_bind (keeps_acquireVirtualProcessor hire available) fun _ => unlocks self
  · intro self fuel timer dispatch available _
    refine Code.keeps_bind (fun sys holds => ?_) fun _ => Code.keeps_bind (Code.keeps_modify fun sys holds => ?_) fun _ => ?_
    · exact (addTimer_staff fuel timer sys).mono (fun _ _ same => quiet same.1 same.2 holds)
        fun _ _ same => quiet same.1 same.2 holds
    · exact @quiet sys _ rfl rfl holds
    · exact Code.keeps_bind (keeps_acquireVirtualProcessor hire available) fun _ => unlocks self
  · exact fun fuel item => (keeps_removals quiet fuel item).1
  · exact fun fuel timer => (keeps_removals quiet fuel timer).2

end Staff

end Apollo.Dispatchqueue
