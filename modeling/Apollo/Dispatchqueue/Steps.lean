import Apollo.Dispatchqueue.Workers

/-!
# Steps of the queue

Every step keeps the invariant when the pool delivers the virtual processor that
the dispatch of one of the queue's own items asks for.  The signals are kept by
the steps that are `Strict` besides.
-/

set_option autoImplicit false

namespace Apollo.Dispatchqueue

open Klib
open Lib

/-- The dispatch of an item that the queue owns gets the virtual processor it asks for. -/
def Action.Served (sys : System) : Action → Prop
  | .dispatchSync _ _ _ available => sys.Overloaded → available = true
  | .dispatchAsync _ _ available => sys.Overloaded → available = true
  | .dispatchAsyncAfter _ _ _ available => sys.WantsVirtualProcessor → available = true
  | _ => True

/-- A synchronous call is made to a running queue, gets the virtual processor it asks for and is not
interrupted in its wait; what is dispatched otherwise points to no signaler. -/
def Action.Strict (sys : System) : Action → Prop
  | .dispatchSync _ _ _ _ => sys.state = .running
  | .dispatchWorkItemSync _ _ available => sys.state = .running ∧ (sys.Overloaded → available = true)
  | .dispatchAsync _ memory _ => memory.Clean
  | .dispatchAsyncAfter _ _ memory _ => memory.Clean
  | .dispatchWorkItemAsync item _ => (sys.items item).completion = none
  | .dispatchTimer timer _ => (sys.items timer).completion = none
  | .interruptSemaphore _ => False
  | _ => True

/-- The action does not flush timers and does not clean up behind a call that failed in its
wait.  The time that a worker takes is its own. -/
def Action.Orderly (sys : System) : Action → Prop
  | .flush => (sys.lists .timerQueue).first = none
  | .terminate => (sys.lists .timerQueue).first = none
  | .fail _ => False
  | .reclaim _ _ _ => False
  | _ => True

section Steps
variable {strict stuck : Prop} {sys : System} {nodes : Nodes} {held : List Nat}

theorem performCall_ends {code : Thread → Code System Errno Unit} {post : System → Prop}
    (ends : (code (.client sys.calls.length) sys).Ends stuck (fun _ => post) fun _ => post) :
    (performCall code sys).Ends stuck (fun _ => post) fun _ _ => False := by
  unfold performCall
  rw [Code.bind_of_ok (Code.get_apply _)]
  exact Code.ends_bind (Code.ends_attempt ends) fun _ _ reached => reached

theorem lockUnlock_fault {self : Thread} (unlocked : sys.lock = none) : lockUnlock self sys = .fault := by
  unfold lockUnlock
  rw [unlocked]
  rfl

theorem failSync_fault (unlocked : sys.lock = none) (call item : Nat) (owned : Bool) :
    failSync call item owned sys = .fault := by
  cases owned with
  | false => exact Code.bind_of_fault (lockUnlock_fault unlocked) _
  | true =>
    have free : (sys.relinquishWorkItem item).lock = none :=
      (control_lock (relinquishWorkItem_control sys item)).trans unlocked
    exact Code.bind_of_fault (lockUnlock_fault free) _

theorem fail_fault (unlocked : sys.lock = none) (call : Nat) : fail call sys = .fault := by
  unfold fail
  cases sys.calls[call]? with
  | none => rfl
  | some state =>
    cases state with
    | failing item owned => exact Code.bind_of_fault (failSync_fault unlocked call item owned) _
    | _ => rfl

theorem createWorkItem_ends (inv : Inv strict sys nodes held) (unlocked : sys.lock = none)
    {address : Nat} (free : sys.isFree (some address) = true) (closure : Nat) (content : WorkItem) :
    (createWorkItem closure address content sys).Ends stuck (fun _ => Guarded strict none held) fun _ _ => False := by
  have unallocated : address ∉ sys.allocated := by simpa [System.isFree] using free
  have own : address ∉ sys.clientItems := fun member => unallocated (inv.placed.foreign address member).allocated
  have created := ((inv.kalloc unallocated).setHeldItem own fun _ => content).workItemInit own .immediate closure
    false
  exact ⟨unlocked, _, created.adopt (by simp [System.workItemInit, System.setItem])
    (by simp [System.workItemInit, System.setItem])⟩

theorem createTimer_ends (inv : Inv strict sys nodes held) (unlocked : sys.lock = none)
    {address : Nat} (free : sys.isFree (some address) = true) (deadline interval : Int) (closure : Nat)
    (content : WorkItem) :
    (createTimer deadline interval closure address content sys).Ends stuck (fun _ => Guarded strict none held)
      fun _ _ => False := by
  have unallocated : address ∉ sys.allocated := by simpa [System.isFree] using free
  have own : address ∉ sys.clientItems := fun member => unallocated (inv.placed.foreign address member).allocated
  have created := ((inv.kalloc unallocated).setHeldItem own fun _ => content).timerInit own deadline interval
    closure false
  exact ⟨unlocked, _, created.adopt (by simp [System.timerInit, System.workItemInit, System.setItem])
    (by simp [System.timerInit, System.workItemInit, System.setItem])⟩

theorem timers_of_first (inv : Inv strict sys nodes held) (some : nodes .timerQueue ≠ []) :
    (sys.lists .timerQueue).first ≠ none := by
  rw [(inv.placed.chained.lists .timerQueue).first]
  simpa using some

theorem perform_ends (inv : Inv strict sys nodes []) (unlocked : sys.lock = none) {action : Action}
    (enabled : action.enabled sys = true) (served : action.Served sys)
    (strictly : strict → action.Strict sys) (fuel : Nat) :
    (perform fuel action sys).Ends
      (fuel ≤ (nodes .itemQueue).length + (nodes .timerQueue).length ∨ ¬ action.Orderly sys)
      (fun _ => Guarded strict none []) fun _ _ => False := by
  cases action with
  | createWorkItem closure address content => exact createWorkItem_ends inv unlocked enabled closure content
  | createTimer deadline interval closure address content =>
    exact createTimer_ends inv unlocked enabled deadline interval closure content
  | setCancelled item flag => exact ⟨unlocked, _, inv.setItem item rfl id rfl rfl⟩
  | dispatchSync closure memory address available =>
    simp only [Action.enabled, Bool.and_eq_true, decide_eq_true_eq] at enabled
    obtain ⟨⟨free, free'⟩, apart⟩ := enabled
    rw [perform]
    refine startCall_ends ?_
    exact dispatchSync_ends inv unlocked free free' apart served strictly
  | dispatchAsync closure memory available =>
    rw [perform]
    refine performCall_ends ?_
    exact dispatchAsync_ends inv unlocked enabled served strictly _
  | dispatchAsyncAfter deadline closure memory available =>
    rw [perform]
    refine performCall_ends ?_
    refine Code.ends_weaken (dispatchAsyncAfter_ends inv unlocked enabled served strictly _
      fuel) ?_
    intro short
    exact .inl (by omega)
  | dispatchWorkItemSync item address available =>
    simp only [Action.enabled, System.isClientItem, Bool.and_eq_true, decide_eq_true_eq] at enabled
    obtain ⟨⟨client, -⟩, free⟩ := enabled
    rw [perform]
    refine startCall_ends ?_
    exact dispatchWorkItemSync_ends inv unlocked client free (fun holds => (strictly holds).2)
      fun holds => (strictly holds).1
  | dispatchWorkItemAsync item available =>
    simp only [Action.enabled, System.isClientItem, decide_eq_true_eq] at enabled
    rw [perform]
    refine performCall_ends ?_
    exact dispatchWorkItemAsync_ends inv unlocked enabled.1 strictly _ available
  | dispatchTimer timer available =>
    simp only [Action.enabled, System.isClientTimer, decide_eq_true_eq] at enabled
    rw [perform]
    refine performCall_ends ?_
    refine Code.ends_weaken (dispatchTimer_ends inv unlocked enabled.1 strictly _ fuel
      available) ?_
    intro short
    exact .inl (by omega)
  | removeWorkItem item =>
    rw [perform]
    refine performCall_ends ?_
    refine Code.ends_weaken (removeWorkItem_ends inv unlocked _ fuel item) ?_
    intro short
    exact .inl (by omega)
  | removeTimer timer =>
    rw [perform]
    refine performCall_ends ?_
    refine Code.ends_weaken (removeTimer_ends inv unlocked _ fuel timer) ?_
    intro short
    exact .inl (by omega)
  | flush =>
    rw [perform]
    refine performCall_ends ?_
    refine Code.ends_weaken (Code.ends_mono (flush_ends inv unlocked _ fuel)
      (fun _ _ drained => drained.guarded unlocked) (by simp)) ?_
    rintro (short | timers)
    · exact .inl (by omega)
    · exact .inr (timers_of_first inv timers)
  | terminate =>
    rw [perform]
    refine performCall_ends ?_
    refine Code.ends_weaken (Code.ends_mono (terminate_ends inv unlocked _ fuel)
      (fun _ _ terminated => terminated.guarded inv unlocked) (by simp)) ?_
    rintro (short | timers)
    · exact .inl (by omega)
    · exact .inr (timers_of_first inv timers)
  | acquireSemaphore call =>
    simp only [Action.enabled] at enabled
    simp only [perform, acquireSemaphore]
    split at enabled
    · next item signaler owned found =>
        exact ⟨unlocked, _, inv.acquireSemaphore found (by simpa using enabled)⟩
    · simp at enabled
  | interruptSemaphore call =>
    simp only [Action.enabled] at enabled
    simp only [perform, interruptSemaphore]
    split at enabled
    · next item signaler owned found =>
        exact ⟨unlocked, _, inv.interruptSemaphore found strictly⟩
    · simp at enabled
  | resume call =>
    simp only [Action.enabled] at enabled
    split at enabled
    · next found => exact resume_woken inv unlocked found
    · next found => exact resume_interrupted inv unlocked found
    · simp at enabled
  | fail call =>
    rw [perform, fail_fault unlocked]
    exact .inr not_false
  | start lane now =>
    simp only [Action.enabled, decide_eq_true_eq] at enabled
    exact start_ends inv unlocked enabled now
  | wake lane timedOut now =>
    simp only [Action.enabled] at enabled
    split at enabled
    · next found => exact wake_ends inv unlocked found timedOut now
    · simp at enabled
  | execute lane =>
    simp only [Action.enabled] at enabled
    split at enabled
    · next found => exact execute_ends inv unlocked found
    · simp at enabled
  | reclaim lane now later =>
    simp only [Action.enabled] at enabled
    split at enabled
    · next found =>
        exact Code.ends_weaken (reclaim_ends inv unlocked found fuel now later) fun _ => .inr not_false
    · simp at enabled

end Steps

/-! ## The new queue -/

variable {minConcurrency maxConcurrency : Nat} {strict : Prop} {sys : System}

theorem emptyQueue_inv (strict : Prop) (one : 1 ≤ maxConcurrency)
    (ordered : minConcurrency ≤ maxConcurrency) :
    Inv strict (emptyQueue minConcurrency maxConcurrency) (fun _ => []) [] := by
  have nowhere : ∀ node, (emptyQueue minConcurrency maxConcurrency).load (fun _ => []) [] node = 0 := by
    simp [System.load, Nodes.count, emptyQueue, Worker.item?]
  refine ⟨⟨⟨fun name => SList.holds_init _, ?_, ?_⟩, fun _ => rfl, fun _ => Nat.zero_le _, ?_, ?_, ?_, ?_⟩, rfl, ?_, ?_, ?_⟩
  · intro node
    rw [nowhere]
    exact Nat.zero_le _
  · intro node occupied
    rw [nowhere] at occupied
    exact absurd occupied (lt_irrefl 0)
  · exact fun item member => absurd member List.not_mem_nil
  · intro item active
    rcases active with (member | member | member) | member
    · exact absurd member List.not_mem_nil
    · exact absurd member List.not_mem_nil
    · exact absurd (List.eq_of_mem_replicate member) (by simp)
    · exact absurd (List.eq_of_mem_replicate member) (by simp)
  · exact ⟨List.length_replicate, by simp [emptyQueue, List.countP_replicate], one, ordered⟩
  · exact fun _ => ⟨rfl, rfl⟩
  · intro call item signaler owned waits
    simp [emptyQueue] at waits
  · intro _
    refine ⟨?_, ?_, ?_⟩
    · exact fun item member => absurd (List.eq_of_mem_replicate member) (by simp)
    · exact fun _ _ _ item member => absurd member List.not_mem_nil
    · exact fun signaler member => absurd member List.not_mem_nil
  · intro _
    refine ⟨?_, ?_, ?_, ?_, ?_, ?_, ?_, ?_⟩
    · rintro item signaler ⟨member | member | member, -⟩
      · exact absurd member List.not_mem_nil
      · exact absurd member List.not_mem_nil
      · exact absurd (List.eq_of_mem_replicate member) (by simp)
    all_goals simp [emptyQueue, System.given]

theorem acquireVirtualProcessors_ends {stuck : Prop} {nodes : Nodes} (inv : Inv strict sys nodes [])
    (unlocked : sys.lock = none) (count : Nat) :
    (acquireVirtualProcessors count sys).Ends stuck (fun _ => Guarded strict none []) fun _ _ => False := by
  induction count with
  | zero => exact ⟨unlocked, nodes, inv⟩
  | succ count ih =>
    refine Code.ends_bind ih ?_
    rintro - after ⟨free, nodes', inv'⟩
    refine Code.ends_mono (acquireVirtualProcessor_ends inv' true) ?_ ?_
    · rintro - final ⟨inv'', lock⟩
      exact ⟨lock.trans free, nodes', inv''⟩
    · rintro - final ⟨-, -, out⟩
      exact Bool.false_ne_true out.symm

theorem create_guarded (strict : Prop)
    (created : dispatchQueueCreate minConcurrency maxConcurrency = .ok sys) : Guarded strict none [] sys := by
  unfold dispatchQueueCreate at created
  split_ifs at created with badMaximum badMinimum
  have ends : (acquireVirtualProcessors minConcurrency (emptyQueue minConcurrency maxConcurrency)).Ends False
      (fun _ => Guarded strict none []) fun _ _ => False :=
    acquireVirtualProcessors_ends (emptyQueue_inv strict (by omega) (by omega)) rfl minConcurrency
  cases result : acquireVirtualProcessors minConcurrency (emptyQueue minConcurrency maxConcurrency) with
  | ok value final =>
    rw [result] at created ends
    cases created
    exact ends
  | err error final =>
    rw [result] at ends
    exact ends.elim
  | fault =>
    rw [result] at ends
    exact ends.elim

/-! ## Runs -/

def ServedStep (sys : System) (action : Action) (after : System) : Prop :=
  Step sys action after ∧ action.Served sys

def StrictStep (sys : System) (action : Action) (after : System) : Prop :=
  ServedStep sys action after ∧ action.Strict sys

theorem step_guarded {after : System} {action : Action} (guarded : Guarded strict none [] sys)
    (step : ServedStep sys action after) (strictly : strict → action.Strict sys) : Guarded strict none [] after := by
  obtain ⟨⟨enabled, fuel, performs⟩, served⟩ := step
  obtain ⟨unlocked, nodes, inv⟩ := guarded
  have ends := perform_ends inv unlocked enabled served strictly fuel
  rw [performs] at ends
  exact ends

section Runs
variable {minConcurrency maxConcurrency : Nat} {start sys : System} {actions : List Action}

theorem served_guarded (created : dispatchQueueCreate minConcurrency maxConcurrency = .ok start)
    (run : Runs ServedStep start actions sys) : Guarded False none [] sys := by
  refine Runs.invariant (Guarded False none []) (create_guarded False created) ?_ run
  intro action state after guarded step
  exact step_guarded guarded step False.elim

theorem strict_guarded (created : dispatchQueueCreate minConcurrency maxConcurrency = .ok start)
    (run : Runs StrictStep start actions sys) : Guarded True none [] sys := by
  refine Runs.invariant (Guarded True none []) (create_guarded True created) ?_ run
  intro action state after guarded step
  exact step_guarded guarded step.1 fun _ => step.2

end Runs

/-- The queue that `DispatchQueue_Create` returns. -/
def newQueue (minConcurrency maxConcurrency : Nat) : System :=
  match dispatchQueueCreate minConcurrency maxConcurrency with
  | .ok sys => sys
  | .error _ => emptyQueue minConcurrency maxConcurrency

def zeroItem : WorkItem := ⟨none, none, false, false, false, .immediate, 0, 0⟩

def follow (fuel : Nat) (sys : System) (action : Action) : System :=
  (perform fuel action sys).state?.getD sys

theorem step_follow {sys : System} {action : Action} (fuel : Nat) (enabled : action.enabled sys = true)
    (returns : (perform fuel action sys).value?.isSome = true) : Step sys action (follow fuel sys action) :=
  ⟨enabled, fuel, Outcome.eq_ok (Option.eq_some_of_isSome returns) sys⟩

def replays (fuel : Nat) (allowed : System → Action → Bool) : List Action → System → Bool
  | [], _ => true
  | action :: rest, sys =>
    allowed sys action && action.enabled sys && (perform fuel action sys).value?.isSome &&
      replays fuel allowed rest (follow fuel sys action)

theorem replays_runs (fuel : Nat) (allowed : System → Action → Bool) {step : System → Action → System → Prop}
    (takes : ∀ sys action after, allowed sys action = true → Step sys action after → step sys action after)
    {actions before : List Action} {start sys : System} (run : Runs step start before sys)
    (follows : replays fuel allowed actions sys = true) :
    Runs step start (actions.reverse ++ before) (actions.foldl (follow fuel) sys) := by
  induction actions generalizing sys before with
  | nil => exact run
  | cons action rest ih =>
    simp only [replays, Bool.and_eq_true] at follows
    obtain ⟨⟨⟨allows, enabled⟩, returns⟩, goesOn⟩ := follows
    have performs := Outcome.eq_ok (Option.eq_some_of_isSome returns) sys
    rw [List.reverse_cons, List.append_assoc]
    exact ih (.step run (takes _ _ _ allows ⟨enabled, fuel, performs⟩)) goesOn

end Apollo.Dispatchqueue
