import Apollo.Dispatcher.Lock

/-!
# Interrupted locks

An abort wakes up the interruptible waiters of a queue, so it leaves the waiters
of a kernel lock alone.  `WaitOn` itself returns at once when the call-as-user of
its caller is aborted, and does not ask whether the wait may be interrupted.
-/

set_option autoImplicit false

namespace Apollo.Dispatcher.Lock

open Lib

/-- `Lock_OnWait` has got an `EINTR`, or is going to get one from the wait that was ended. -/
def Place.isInterrupted : Place → Bool
  | .fatalError error => decide (error = .EINTR)
  | .lockWoken _ _ reason => decide (reason = .interrupted)
  | _ => false

/-- No wait of `Lock_Lock` has ended with `EINTR`. -/
def System.Uninterrupted (sys : System) : Prop := ∀ vpid, (sys.places vpid).isInterrupted = false

/-- The virtual processor that is going to wait for the lock is not in an aborted call-as-user. -/
def Action.isUnaborted (sys : System) : Action → Bool
  | .advance _ _ _ =>
    match sys.places sys.running with
    | .lockRetry _ _ =>
      !(sys.value && (sys.flags sys.running).cauInProgress && (sys.flags sys.running).cauAborted)
    | _ => true
  | _ => true

def performUnaborted (sys : System) (action : Action) : Option System :=
  if action.isUnaborted sys then perform sys action else none

def UnabortedStep (sys : System) (action : Action) (after : System) : Prop := performUnaborted sys action = some after

structure System.Steady (sys : System) : Prop where
  options : sys.options.interruptibleLock = false
  waiters : ∀ waiter ∈ sys.lockQueue, waiter.isInterruptable = false
  uninterrupted : sys.Uninterrupted

theorem wakeUpSome_interrupted {queue : WaitQueue} {count : Option Nat}
    (waiters : ∀ waiter ∈ queue, waiter.isInterruptable = false) :
    queue.wakeUpSome .interrupted count = ([], queue) := by
  induction queue generalizing count with
  | nil => rfl
  | cons first rest ih =>
    by_cases stops : count = some 0
    · rw [stops]
      rfl
    · rw [WaitQueue.wakeUpSome]
      · have later := @ih (count.map (· - 1)) fun waiter member => waiters waiter (List.mem_cons_of_mem _ member)
        rw [later]
        simp [WaitQueue.wakes, waiters first List.mem_cons_self]
      · simpa using stops

theorem mem_wakeUpSome_rest {reason : WakeUpReason} {queue : WaitQueue} {count : Option Nat} {waiter : Waiter}
    (member : waiter ∈ (queue.wakeUpSome reason count).2) : waiter ∈ queue := by
  induction queue generalizing count with
  | nil => exact member
  | cons first rest ih =>
    by_cases stops : count = some 0
    · rw [stops] at member
      exact member
    · rw [WaitQueue.wakeUpSome] at member
      · by_cases up : WaitQueue.wakes reason first = true
        · simp only [up, if_true] at member
          exact List.mem_cons_of_mem _ (ih member)
        · simp only [up, Bool.false_eq_true, if_false] at member
          rcases List.mem_cons.mp member with rfl | later
          · exact List.mem_cons_self
          · exact List.mem_cons_of_mem _ (ih later)
      · simpa using stops

section Steps
variable {sys after : System} {action : Action} {place : Place}

theorem System.Steady.move (steady : sys.Steady) (options : after.options = sys.options)
    (queue : after.lockQueue = sys.lockQueue) (places : after.places = Function.update sys.places sys.running place)
    (calm : place.isInterrupted = false) : after.Steady := by
  refine ⟨?_, ?_, ?_⟩
  · rw [options]
    exact steady.options
  · rw [queue]
    exact steady.waiters
  · intro vpid
    rw [places]
    by_cases same : vpid = sys.running
    · rw [same, Function.update_self]
      exact calm
    · rw [Function.update_of_ne same]
      exact steady.uninterrupted vpid

theorem System.Steady.moved (steady : sys.Steady) {next : System} (moves : some next = some after)
    (options : next.options = sys.options) (queue : next.lockQueue = sys.lockQueue)
    (places : next.places = Function.update sys.places sys.running place) (calm : place.isInterrupted = false) :
    after.Steady := by
  rw [← Option.some.inj moves]
  exact steady.move options queue places calm

theorem System.Steady.switchTo (steady : sys.Steady) {next : Nat} (switches : sys.switchTo next = some after) :
    after.Steady := by
  obtain ⟨-, moved⟩ := Option.ite_none_right_eq_some.mp switches
  rw [← Option.some.inj moved]
  exact ⟨steady.options, steady.waiters, steady.uninterrupted⟩

theorem System.Steady.maybeSwitchTo (steady : sys.Steady) {woken : List Nat} {next : Option Nat}
    (switches : sys.maybeSwitchTo woken next = some after) : after.Steady := by
  cases next with
  | none =>
    rw [← Option.some.inj switches]
    exact steady
  | some next =>
    obtain ⟨-, moved⟩ := Option.ite_none_right_eq_some.mp switches
    exact steady.switchTo moved

theorem isInterrupted_wokenFrom {queue : Queue} {reason : WakeUpReason}
    (harmless : queue = .lock → reason ≠ .interrupted) (calm : place.isInterrupted = false) :
    (place.wokenFrom queue reason).isInterrupted = false := by
  unfold Place.wokenFrom
  split_ifs with here
  · cases place with
    | lockWaiting caller d7 => exact decide_eq_false (harmless (Option.some.inj here).symm)
    | waiting condVar sps => rfl
    | _ => exact calm
  · exact calm

theorem System.Steady.wakeUp (steady : sys.Steady) {queue : Queue} {reason : WakeUpReason} {woken : List Nat}
    (harmless : queue = .lock → reason ≠ .interrupted) (options : after.options = sys.options)
    (lockQueue : ∀ waiter ∈ after.lockQueue, waiter ∈ sys.lockQueue)
    (places : after.places = wake sys.places woken (Place.wokenFrom queue reason)) : after.Steady := by
  refine ⟨?_, ?_, ?_⟩
  · rw [options]
    exact steady.options
  · intro waiter member
    exact steady.waiters waiter (lockQueue waiter member)
  · intro vpid
    rw [places]
    unfold wake
    split_ifs
    · exact isInterrupted_wokenFrom harmless (steady.uninterrupted vpid)
    · exact steady.uninterrupted vpid

variable {caller : LockCaller} {d7 : Bool} {effectivePriority : Nat}

theorem System.Steady.lockFails (steady : sys.Steady) {error : Errno}
    (other : error ≠ .EINTR) : (sys.lockFails caller d7 error).Steady := by
  unfold System.lockFails
  rw [if_neg (by rw [steady.options]; simp)]
  exact steady.move rfl rfl rfl (decide_eq_false other)

/-- The running virtual processor joins the queue of the lock. -/
theorem System.Steady.enterLock (steady : sys.Steady) {waiter : Waiter}
    (own : waiter.isInterruptable = sys.options.interruptibleLock) :
    (System.goto { sys with lockQueue := sys.lockQueue.enter waiter } (.lockWaiting caller d7)).Steady := by
  have entered : System.Steady { sys with lockQueue := sys.lockQueue.enter waiter } := by
    refine ⟨steady.options, ?_, steady.uninterrupted⟩
    intro other member
    rcases WaitQueue.mem_enter.mp member with rfl | before
    · rw [own]
      exact steady.options
    · exact steady.waiters other before
  exact entered.move rfl rfl rfl rfl

theorem isInterrupted_lockReturned : caller.returned.isInterrupted = false := by
  cases caller <;> rfl

theorem isInterrupted_unlockReturned {caller : UnlockCaller} {result : Result} :
    (caller.returned result).isInterrupted = false := by
  cases caller <;> rfl

theorem System.Steady.lockRetry (steady : sys.Steady)
    {next : Option Nat} {isInterruptable : Bool} (own : isInterruptable = sys.options.interruptibleLock)
    (unaborted : ((sys.flags sys.running).cauInProgress && (sys.flags sys.running).cauAborted) = false)
    (moves : (match sys.lockQueue.waitOn sys.running (sys.entry false effectivePriority) isInterruptable with
      | .error error => some (sys.lockFails caller d7 error)
      | .ok queue =>
          next.bind (System.switchTo (System.goto { sys with lockQueue := queue } (.lockWaiting caller d7)))) =
        some after) : after.Steady := by
  unfold WaitQueue.waitOn at moves
  rw [if_neg (by unfold System.entry; simp only [unaborted]; simp)] at moves
  split_ifs at moves with past
  · simp [System.entry] at past
  · obtain ⟨other, -, switches⟩ := Option.bind_eq_some_iff.mp moves
    exact (steady.enterLock own).switchTo switches

/-- The running virtual processor executes its next instruction. -/
theorem System.Steady.advance (steady : sys.Steady) {isPast : Bool} {next : Option Nat}
    (unaborted : (Action.advance isPast effectivePriority next).isUnaborted sys = true)
    (moves : sys.advance isPast effectivePriority next = some after) : after.Steady := by
  unfold Action.isUnaborted at unaborted
  unfold System.advance at moves
  have calm := steady.uninterrupted sys.running
  generalize sys.places sys.running = current at moves unaborted calm
  cases current with
  | outside result => simp at moves
  | fatalError error => simp at moves
  | tryLock =>
    dsimp only at moves
    split_ifs at moves
    · exact steady.moved moves rfl rfl rfl rfl
    · exact steady.moved moves rfl rfl rfl rfl
  | lock caller =>
    dsimp only at moves
    split_ifs at moves
    · exact steady.moved moves rfl rfl rfl rfl
    · exact steady.moved moves rfl rfl rfl rfl
  | lockRetry caller d7 =>
    dsimp only at moves unaborted
    split_ifs at moves with set
    · rw [set, Bool.true_and, Bool.not_eq_true'] at unaborted
      exact steady.lockRetry rfl unaborted moves
    · exact steady.moved moves rfl rfl rfl rfl
  | lockWaiting caller d7 => simp at moves
  | lockWoken caller d7 reason =>
    cases reason with
    | finished => exact steady.moved moves rfl rfl rfl rfl
    | interrupted => simp [Place.isInterrupted] at calm
    | timeout =>
      rw [← Option.some.inj moves]
      exact steady.lockFails (by simp)
  | lockOwner caller => exact steady.moved moves rfl rfl rfl isInterrupted_lockReturned
  | unlock caller =>
    dsimp only at moves
    split_ifs at moves
    · exact steady.moved moves rfl rfl rfl rfl
    · exact steady.moved moves rfl rfl rfl rfl
    · exact steady.moved moves rfl rfl rfl isInterrupted_unlockReturned
  | unlockWake caller d7 =>
    refine System.Steady.maybeSwitchTo ?_ moves
    have woken : (sys.wakeLock .finished (sys.lockQueue.wakeUpSome .finished none)).Steady :=
      @System.Steady.wakeUp sys _ steady .lock .finished (sys.lockQueue.wakeUpSome .finished none).1 (by simp) rfl
        (fun _ => mem_wakeUpSome_rest) rfl
    exact woken.move rfl rfl rfl rfl
  | unlockRestore caller d7 => exact steady.moved moves rfl rfl rfl isInterrupted_unlockReturned
  | waitOn condVar sps =>
    dsimp only at moves
    split at moves
    · exact steady.moved moves rfl rfl rfl rfl
    · obtain ⟨other, -, switches⟩ := Option.bind_eq_some_iff.mp moves
      refine System.Steady.switchTo ?_ switches
      exact steady.move rfl rfl rfl rfl
  | waiting condVar sps => simp at moves
  | wakeCooperation condVar broadcast unlocks sps =>
    dsimp only at moves
    split_ifs at moves
    · exact steady.moved moves rfl rfl rfl rfl
    · exact steady.moved moves rfl rfl rfl rfl
  | wakeSome condVar broadcast sps =>
    refine System.Steady.maybeSwitchTo ?_ moves
    generalize (sys.condQueues condVar).wakeUpSome .finished (if broadcast = true then none else some 1) = result
    have woken : (sys.wakeCond condVar .finished result).Steady :=
      @System.Steady.wakeUp sys _ steady (.cond condVar) .finished result.1 (by simp) rfl (fun _ => id) rfl
    exact woken.move rfl rfl rfl rfl
  -- the other instructions are about the masks, the owner, the bit and the cooperation state
  | _ => exact steady.moved moves rfl rfl rfl rfl

theorem System.Steady.abortCallAsUser (steady : sys.Steady) (vpid : Nat) : (sys.abortCallAsUser vpid).Steady := by
  unfold System.abortCallAsUser
  split_ifs
  · have flagged : System.Steady { sys with flags := Function.update sys.flags vpid ⟨true, true⟩ } :=
      ⟨steady.options, steady.waiters, steady.uninterrupted⟩
    unfold System.interruptWait
    split
    · rw [wakeUpSome_interrupted flagged.waiters]
      refine ⟨steady.options, steady.waiters, ?_⟩
      intro other
      exact steady.uninterrupted other
    next condVar _ _ =>
      exact @System.Steady.wakeUp _ _ flagged (.cond condVar) .interrupted _ (by simp) rfl (fun _ => id) rfl
    · exact flagged
  · exact steady

theorem UnabortedStep.steady (steady : sys.Steady) (step : UnabortedStep sys action after) : after.Steady := by
  obtain ⟨unaborted, performs⟩ := Option.ite_none_right_eq_some.mp step
  cases action with
  | call operation =>
    obtain ⟨-, moves⟩ := Option.ite_none_right_eq_some.mp performs
    cases operation with
    | _ => exact steady.moved moves rfl rfl rfl rfl
  | advance isPast effectivePriority next => exact steady.advance unaborted performs
  | preempt next =>
    obtain ⟨-, switches⟩ := Option.ite_none_left_eq_some.mp performs
    exact steady.switchTo switches
  | timeout vpid =>
    obtain ⟨-, moves⟩ := Option.ite_none_left_eq_some.mp performs
    rw [← Option.some.inj moves]
    unfold System.timeout
    split
    next condVar _ _ =>
      exact @System.Steady.wakeUp _ _ steady (.cond condVar) .timeout _ (by simp) rfl (fun _ => id) rfl
    · exact steady
  | beginCallAsUser =>
    obtain ⟨-, moves⟩ := Option.ite_none_right_eq_some.mp performs
    rw [← Option.some.inj moves]
    exact ⟨steady.options, steady.waiters, steady.uninterrupted⟩
  | endCallAsUser =>
    obtain ⟨-, moves⟩ := Option.ite_none_right_eq_some.mp performs
    rw [← Option.some.inj moves]
    exact ⟨steady.options, steady.waiters, steady.uninterrupted⟩
  | abortCallAsUser vpid =>
    obtain ⟨-, moves⟩ := Option.ite_none_right_eq_some.mp performs
    rw [← Option.some.inj moves]
    exact steady.abortCallAsUser vpid

/-- Aborts before, during and behind a wait for the lock are harmless, as long as nobody enters the
wait with an aborted call-as-user. -/
theorem unaborted_runs_uninterrupted {options : Options} {running : Nat} {actions : List Action}
    (kernelLock : options.interruptibleLock = false)
    (run : Runs UnabortedStep (init options running) actions sys) : sys.Uninterrupted := by
  have steady : sys.Steady := by
    apply run.invariant System.Steady
    · exact ⟨kernelLock, fun _ member => absurd member List.not_mem_nil, fun _ => rfl⟩
    · intro action state after holds step
      exact UnabortedStep.steady holds step
  exact steady.uninterrupted

end Steps

def abortedWait : List Action :=
  [Action.call .lock] ++ List.replicate 2 (Action.advance false 5 none) ++ [Action.preempt 2, Action.beginCallAsUser, Action.call .lock] ++
    List.replicate 2 (Action.advance false 5 none) ++ [Action.advance false 5 (some 1), Action.abortCallAsUser 2, Action.call .unlock] ++
    List.replicate 6 (Action.advance false 5 none) ++ [Action.preempt 2] ++ List.replicate 3 (Action.advance false 5 none)

theorem abortedWait_uninterrupted : ∃ (sys : System) (actions : List Action),
    Runs UnabortedStep (init ⟨true, false⟩ 1) actions sys ∧ sys.flags 2 = ⟨true, true⟩ ∧ sys.holds 2 = true ∧
      sys.Uninterrupted := by
  have performs : (performAll performUnaborted abortedWait (init ⟨true, false⟩ 1)).map
      (fun sys => (sys.flags 2, sys.holds 2)) = some (⟨true, true⟩, true) := by
    decide
  obtain ⟨sys, performed, data⟩ := Option.map_eq_some_iff.mp performs
  obtain ⟨actions, run⟩ := Runs.performAll (fun _ _ _ enabled => enabled) .nil performed
  obtain ⟨flags, holds⟩ := Prod.mk.inj data
  exact ⟨sys, actions, run, flags, holds, unaborted_runs_uninterrupted rfl run⟩

/-- The virtual processor 1 begins a call-as-user and is preempted; 2 takes the lock and aborts the
call-as-user; 1 goes on and asks for the lock. -/
def lateWait : List Action :=
  [Action.beginCallAsUser, Action.preempt 2, Action.call .lock] ++ List.replicate 2 (Action.advance false 5 none) ++
    [Action.abortCallAsUser 1, Action.preempt 1, Action.call .lock] ++ List.replicate 3 (Action.advance false 5 none)

theorem lateWait_fatalError : ∃ (sys : System) (actions : List Action),
    Runs Step (init ⟨true, false⟩ 1) actions sys ∧ sys.places 1 = .fatalError .EINTR ∧ ¬sys.Uninterrupted := by
  have performs : (performAll perform lateWait (init ⟨true, false⟩ 1)).map (fun sys => sys.places 1) =
      some (.fatalError .EINTR) := by
    decide
  obtain ⟨sys, performed, fatal⟩ := Option.map_eq_some_iff.mp performs
  obtain ⟨actions, run⟩ := Runs.performAll (fun _ _ _ enabled => enabled) .nil performed
  refine ⟨sys, actions, run, fatal, ?_⟩
  intro uninterrupted
  have calm := uninterrupted 1
  rw [fatal] at calm
  simp [Place.isInterrupted] at calm

end Apollo.Dispatcher.Lock
