import Apollo.Dispatchqueue.Rounds

/-!
# Work and workers

A dispatch to a queue without virtual processors hires one.  A worker leaves when its
wait has timed out and there is nothing for it to do at that time, and it does not ask
for the timers that will be due later.
-/

set_option autoImplicit false

namespace Apollo.Dispatchqueue

open Klib
open Lib

def System.Attended (sys : System) : Prop :=
  sys.state = .running →
    0 < sys.availableConcurrency ∨ (sys.lists .itemQueue).first = none ∧ (sys.lists .timerQueue).first = none

/-- The last worker is about to leave a timer behind: it may relinquish itself, there is no item,
and the first timer is not due. -/
def Action.Strands (sys : System) : Action → Prop
  | .wake lane timedOut now =>
    (sys.lanes[lane]? = some (.waiting true) ∨ timedOut = true ∧ sys.minConcurrency < sys.availableConcurrency) ∧
      sys.availableConcurrency = 1 ∧ (sys.lists .itemQueue).first = none ∧
        ∃ timer, (sys.lists .timerQueue).first = some timer ∧ now < (sys.items timer).deadline
  | _ => False

/-- A step of a thread in which the pool has a virtual processor for who asks. -/
def GrantedStep (sys : System) (action : Action) (after : System) : Prop :=
  Step sys action after ∧ action.Answered (· = true)

def AttendingStep (sys : System) (action : Action) (after : System) : Prop :=
  GrantedStep sys action after ∧ ¬ action.Strands sys

theorem GrantedStep.served {sys after : System} {action : Action} (step : GrantedStep sys action after) :
    ServedStep sys action after := by
  refine ⟨step.1, ?_⟩
  have answered := step.2
  cases action with
  | dispatchSync closure memory address available => exact fun _ => answered
  | dispatchAsync closure memory available => exact fun _ => answered
  | dispatchAsyncAfter deadline closure memory available => exact fun _ => answered
  | _ => trivial

/-! ## Clients -/

section Clients
variable {sys after : System}

theorem attended_of_staff (same : after.staff = sys.staff) (available : 0 < sys.availableConcurrency) : after.Attended := by
  intro _
  rw [show after.availableConcurrency = sys.availableConcurrency from congrArg (fun staff => staff.2.2.2.1) same]
  exact .inl available

/-- Behind an acquisition that succeeds a running queue has a virtual processor. -/
theorem acquireVirtualProcessor_attends (sys : System) :
    (acquireVirtualProcessor true sys).Returned
      (fun _ after => after.state = .running → 0 < after.availableConcurrency) fun _ _ => False := by
  unfold acquireVirtualProcessor
  by_cases wants : sys.WantsVirtualProcessor
  · rw [if_pos wants]
    cases sys.lanes.findIdx? (· = .absent) with
    | none => trivial
    | some lane => exact fun _ => Nat.succ_pos _
  · rw [if_neg wants]
    intro running
    by_contra absent
    exact wants ⟨running, .inl (Nat.eq_zero_of_not_pos absent)⟩

theorem acquire_unlock_attends (self : Thread) (sys : System) :
    ((do acquireVirtualProcessor true; lockUnlock self : Code System Errno Unit) sys).Returned
      (fun _ after => after.Attended) fun _ after => after.Attended := by
  have hires := acquireVirtualProcessor_attends sys
  cases result : acquireVirtualProcessor true sys with
  | fault =>
    rw [Code.bind_of_fault result]
    trivial
  | err error middle =>
    rw [result] at hires
    exact hires.elim
  | ok value middle =>
    rw [result] at hires
    rw [Code.bind_of_ok result]
    have kept := (keeps_lock middle.staff self).2 middle rfl
    have goesOn : ∀ after : System, after.staff = middle.staff → after.Attended := by
      intro after same running
      rw [show after.state = middle.state from congrArg (fun staff => staff.1) same] at running
      exact attended_of_staff same (hires running) (by
        rw [show after.state = middle.state from congrArg (fun staff => staff.1) same, running])
    exact kept.mono (fun _ => goesOn) fun _ => goesOn

theorem removal_attends {code : Code System Errno Unit} {name : ListName} (attended : sys.Attended)
    (stays : (sys.lists name).first = none → code sys = .ok () sys ∨ code sys = .fault)
    (keeps : Code.Keeps (fun after => after.staff = sys.staff) code)
    (queue : name = .itemQueue ∨ name = .timerQueue) :
    (code sys).Returned (fun _ after => after.Attended) fun _ after => after.Attended := by
  by_cases empty : (sys.lists name).first = none
  · rcases stays empty with same | stops
    · rw [same]
      exact attended
    · rw [stops]
      trivial
  · have goesOn : ∀ after : System, after.staff = sys.staff → after.Attended := by
      intro after same running
      have stood : sys.state = .running := by
        rw [← running]
        exact (congrArg (fun staff => staff.1) same).symm
      rcases attended stood with available | ⟨noItem, noTimer⟩
      · exact attended_of_staff same available running
      · rcases queue with rfl | rfl
        · exact absurd noItem empty
        · exact absurd noTimer empty
    exact (keeps sys rfl).mono (fun _ => goesOn) fun _ => goesOn

theorem removeInstances_none {name : ListName} {before after : System → Nat → System} {node : Nat} (fuel : Nat)
    (previous : Option Nat) (sys : System) :
    removeInstances name before after node fuel none previous sys = .ok () sys ∨
      removeInstances name before after node fuel none previous sys = .fault := by
  cases fuel with
  | zero => exact .inr rfl
  | succ fuel => exact .inl rfl

theorem respects_attended : Respects (· = true) System.Attended := by
  refine ⟨?_, ?_, ?_, ?_, ?_⟩
  · intro sys after same attended
    simp only [System.frame, System.staff, Prod.mk.injEq] at same
    obtain ⟨⟨state, -, -, available, -⟩, -, items, timers⟩ := same
    unfold System.Attended
    rw [state, available, items, timers]
    exact attended
  · rintro self item dispatch available rfl sys -
    exact acquire_unlock_attends self (sys.enqueueItem item dispatch)
  · rintro self fuel timer dispatch available rfl sys -
    unfold dispatchTimerLocked
    cases search : timerBefore sys (sys.items timer).deadline fuel (sys.lists .timerQueue).first none with
    | none =>
      have stops : addTimer fuel timer sys = .fault := by
        simp only [addTimer, search]
      rw [Code.bind_of_fault stops]
      trivial
    | some previous =>
      have adds : addTimer fuel timer sys = .ok () (sys.insertAfter .timerQueue timer previous) := by
        simp only [addTimer, search]
      rw [Code.bind_of_ok adds, Code.bind_of_ok (Code.modify_apply _ _)]
      exact acquire_unlock_attends self _
  · intro fuel item sys attended
    refine removal_attends attended (fun empty => ?_) (keeps_removals (fun same _ => same.trans) fuel item).1 (.inl rfl)
    unfold removeWorkItemLocked
    rw [empty]
    exact removeInstances_none fuel none sys
  · intro fuel timer sys attended
    refine removal_attends attended (fun empty => ?_) (keeps_removals (fun same _ => same.trans) fuel timer).2 (.inr rfl)
    unfold removeTimerLocked
    rw [empty]
    exact removeInstances_none fuel none sys

theorem flush_attends (attended : sys.Attended) {fuel : Nat} (performs : perform fuel .flush sys = .ok () after) :
    after.Attended := by
  have ends := performCall_state (fun self => flush self fuel) performs
  have keeps : ∀ self, Code.Keeps (fun after : System => after.staff = sys.staff) (flush self fuel) := by
    intro self
    refine Code.keeps_bind (keeps_lock sys.staff self).1 fun _ => ?_
    exact Code.keeps_bind (keeps_flushLocked sys.staff fuel) fun _ => (keeps_lock sys.staff self).2
  have same : after.staff = sys.staff := (keeps _).of_state rfl ends
  intro running
  rcases attended ((congrArg (fun staff => staff.1) same).symm.trans running) with available | ⟨noItem, noTimer⟩
  · exact attended_of_staff same available running
  · have lists : ∀ self, Code.Keeps (fun after : System => after.lists = sys.lists) (flush self fuel) := by
      intro self
      refine Code.keeps_bind (fun middle kept => ?_) fun _ => Code.keeps_bind (fun middle kept => ?_) fun _ middle kept => ?_
      · unfold lockLock
        cases middle.lock with
        | none => exact kept
        | some owner => trivial
      · rcases flushLocked_stays (by rw [kept, noItem]) (by rw [kept, noTimer]) fuel with stays | stops
        · rw [stays]
          exact kept
        · rw [stops]
          trivial
      · unfold lockUnlock
        split_ifs
        · exact kept
        · trivial
    have sameLists : after.lists = sys.lists := (lists _).of_state rfl ends
    rw [sameLists]
    exact .inr ⟨noItem, noTimer⟩

end Clients

/-! ## Workers -/

section Workers
variable {strict : Prop} {sys after : System} {nodes : Nodes} {held : List Nat} {lane : Nat}

variable {worker : Worker} {now : Int} {fuel : Nat}

theorem available_pos (inv : Inv strict sys nodes held) (found : sys.lanes[lane]? = some worker)
    (present : worker ≠ .absent) : 0 < sys.availableConcurrency := by
  rw [← inv.placed.staffed.present]
  exact List.countP_pos_iff.mpr ⟨worker, List.mem_of_getElem? found, by simpa using present⟩

theorem attended_of_lane (inv : Inv strict after nodes held)
    (found : after.lanes[lane]? = some worker) (present : worker ≠ .absent) : after.Attended :=
  fun _ => .inl (available_pos inv found present)

theorem RoundEnd.attended {mayRelinquish : Bool} (inv : Inv strict after nodes held)
    (ends : RoundEnd sys lane mayRelinquish now after) (found : sys.lanes[lane]? = some .running)
    (stays : (sys.takeItem now).1 = none → mayRelinquish = false) : after.Attended := by
  have same := ends.state
  have lanes : (sys.takeItem now).2.lanes[lane]? = some .running := by
    rw [show (sys.takeItem now).2.lanes = sys.lanes from congrArg (fun staff => staff.2.2.2.2) (takeItem_staff sys now)]
    exact found
  cases ends with
  | @executes item takes running =>
    exact attended_of_lane inv (running_setLane lanes (.executing item)) (by simp)
  | waits idle running stays =>
    exact attended_of_lane inv (running_setLane lanes (.waiting false)) (by simp)
  | leaves ends =>
    rcases ends with stopped | ⟨idle, may⟩
    · intro running
      rw [same] at running
      exact absurd running stopped
    · simp [stays idle] at may

theorem takeItem_nothing (inv : Inv strict sys nodes held) (idle : (sys.takeItem now).1 = none) :
    (sys.takeItem now).2.lists = sys.lists ∧ nodes .itemQueue = [] ∧
      ∀ timer ∈ (nodes .timerQueue).head?, now < (sys.items timer).deadline := by
  have takes := takeItem_cases inv now
  generalize sys.takeItem now = taken at takes idle ⊢
  cases takes with
  | timer split placed => simp at idle
  | item split placed => simp at idle
  | nothing empty notDue => exact ⟨rfl, empty, notDue⟩

theorem execute_attends (inv : Inv strict after nodes held)
    (performs : perform fuel (.execute lane) sys = .ok () after) : after.Attended := by
  obtain ⟨item, code, ran, found, -, -, -, rfl⟩ := execute_ended performs
  refine attended_of_lane inv (@running_setLane _ lane (.executing item) ?_ (.finished item)) (by simp)
  rw [control_lanes (signalCompletion_control { sys with ran := ran } item false)]
  exact found

/-- The last worker leaves with no timer behind, or another one stays. -/
theorem wake_attends (inv : Inv strict sys nodes held) {timedOut : Bool} {nodes' : Nodes}
    (inv' : Inv strict after nodes' held) (performs : perform fuel (.wake lane timedOut now) sys = .ok () after)
    (keeps : ¬ (Action.wake lane timedOut now).Strands sys) : after.Attended := by
  obtain ⟨mayRelinquish, found, ends⟩ := wake_ended performs
  have entered : (sys.entered lane).lanes[lane]? = some .running := running_setLane found .running
  by_cases stays : ((sys.entered lane).takeItem now).1 = none →
      (mayRelinquish || decide (timedOut = true ∧ sys.minConcurrency < sys.availableConcurrency)) = false
  · exact ends.attended inv' entered stays
  · obtain ⟨idle, may⟩ := Classical.not_imp.mp stays
    have entering : Inv strict (sys.entered lane) nodes held :=
      (inv.withLock (some (.worker lane))).setLane found (by simp) rfl (by simp) rfl
    obtain ⟨lists, noItem, notDue⟩ := takeItem_nothing entering idle
    have positive := available_pos inv found (by simp)
    have others : sys.availableConcurrency ≠ 1 ∨ (sys.lists .timerQueue).first = none := by
      by_contra last
      obtain ⟨one, timers⟩ := not_or.mp last
      obtain ⟨timer, first⟩ := Option.ne_none_iff_exists'.mp timers
      refine keeps ⟨?_, not_not.mp one, ?_, timer, first, ?_⟩
      · rw [Bool.not_eq_false, Bool.or_eq_true, decide_eq_true_eq] at may
        rcases may with may | times
        · exact .inl (may ▸ found)
        · exact .inr times
      · rw [(inv.placed.chained.lists .itemQueue).first, noItem]
        rfl
      · refine notDue timer ?_
        rw [← (inv.placed.chained.lists .timerQueue).first]
        exact first
    cases ends with
    | executes takes running => simp [idle] at takes
    | waits idle running stays => exact absurd stays may
    | leaves ends =>
      intro _
      rcases others with more | noTimer
      · refine .inl ?_
        have same : ((sys.entered lane).takeItem now).2.availableConcurrency = sys.availableConcurrency :=
          congrArg (fun staff => staff.2.2.2.1) (takeItem_staff (sys.entered lane) now)
        change 0 < ((sys.entered lane).takeItem now).2.availableConcurrency - 1
        omega
      · refine .inr ?_
        change (((sys.entered lane).takeItem now).2.lists .itemQueue).first = none ∧
          (((sys.entered lane).takeItem now).2.lists .timerQueue).first = none
        rw [lists]
        refine ⟨?_, noTimer⟩
        rw [(entering.placed.chained.lists .itemQueue).first, noItem]
        rfl

theorem attended_step {action : Action} (guarded : Guarded strict none [] sys) (after_guarded : Guarded strict none [] after)
    (attended : sys.Attended) (step : AttendingStep sys action after) : after.Attended := by
  obtain ⟨⟨⟨enabled, fuel, performs⟩, answered⟩, keeps⟩ := step
  obtain ⟨unlocked, nodes, inv⟩ := guarded
  obtain ⟨-, nodes', inv'⟩ := after_guarded
  by_cases client : action.isClient = true
  · have kept := respects_attended.perform fuel client answered sys attended
    rw [performs] at kept
    exact kept
  cases action with
  | flush => exact flush_attends attended performs
  | terminate =>
    have ended := (terminate_lanes sys (.client sys.calls.length) fuel).of_state
      (performCall_state (fun self => terminate self fuel) performs)
    exact fun running => absurd running ended.2
  | start lane now =>
    obtain ⟨found, ends⟩ := start_ended performs
    exact ends.attended inv' (running_setLane found .running) fun _ => rfl
  | wake lane timedOut now => exact wake_attends inv inv' performs keeps
  | execute lane => exact execute_attends inv' performs
  | reclaim lane now later =>
    obtain ⟨item, middle, found, reclaims, ends⟩ := reclaim_ended performs
    have entered : (sys.entered lane).lanes[lane]? = some .running := running_setLane found .running
    have same := reclaimItem_staff (sys.entered lane).staff fuel item now _ rfl
    rw [reclaims] at same
    refine ends.attended inv' ?_ fun _ => rfl
    rw [show middle.lanes = (sys.entered lane).lanes from congrArg (fun staff => staff.2.2.2.2) same]
    exact entered
  | _ => exact absurd rfl client

end Workers

/-! ## Runs -/

/-- In a queue that no worker leaves a timer behind in, pending work has a virtual processor. -/
theorem attending_runs_attended {minConcurrency maxConcurrency : Nat} {start sys : System} {actions : List Action}
    (created : dispatchQueueCreate minConcurrency maxConcurrency = .ok start)
    (run : Runs AttendingStep start actions sys) :
    sys.lock = none ∧
      ((sys.lists .itemQueue).first ≠ none ∨ (sys.lists .timerQueue).first ≠ none → 0 < sys.availableConcurrency) := by
  have holds : Guarded False none [] sys ∧ sys.Attended := by
    refine Runs.invariant (fun sys => Guarded False none [] sys ∧ sys.Attended) ?_ ?_ run
    · refine ⟨create_guarded False created, ?_⟩
      refine @create_keeps System.Attended _ _ _ ?_ (fun _ => .inr ⟨rfl, rfl⟩) created
      exact fun _ _ _ _ => .inl (Nat.succ_pos _)
    · rintro action state after ⟨guarded, attended⟩ step
      have guarded' := step_guarded guarded step.1.served False.elim
      exact ⟨guarded', attended_step guarded guarded' attended step⟩
  obtain ⟨⟨unlocked, nodes, inv⟩, attended⟩ := holds
  refine ⟨unlocked, fun pending => ?_⟩
  by_cases running : sys.state = .running
  · rcases attended running with available | ⟨noItem, noTimer⟩
    · exact available
    · exact absurd pending (by simp [noItem, noTimer])
  · -- a queue that does not run any more is empty
    obtain ⟨noItem, noTimer⟩ := inv.placed.drained running
    rw [(inv.placed.chained.lists .itemQueue).first, (inv.placed.chained.lists .timerQueue).first, noItem, noTimer] at pending
    simp at pending

def lateTimerRun : List Action :=
  [.dispatchAsync 7 (some (1, zeroItem)) true, .start 0 0, .execute 0, .reclaim 0 0 0,
    .dispatchAsyncAfter 100 8 (some (2, zeroItem)) true]

/-- The dispatches of the run get their virtual processors, and no worker wakes. -/
def isGranted (_ : System) : Action → Bool
  | .dispatchAsync _ _ available => available
  | .dispatchAsyncAfter _ _ _ available => available
  | .start _ _ => true
  | .execute _ => true
  | .reclaim _ _ _ => true
  | _ => false

theorem isGranted_attends {sys after : System} {action : Action} (grants : isGranted sys action = true)
    (step : Step sys action after) : AttendingStep sys action after := by
  cases action with
  | dispatchAsync closure memory available => exact ⟨⟨step, grants⟩, id⟩
  | dispatchAsyncAfter deadline closure memory available => exact ⟨⟨step, grants⟩, id⟩
  | start lane now => exact ⟨⟨step, trivial⟩, id⟩
  | execute lane => exact ⟨⟨step, trivial⟩, id⟩
  | reclaim lane now later => exact ⟨⟨step, trivial⟩, id⟩
  | _ => simp [isGranted] at grants

def lateTimer : System := lateTimerRun.foldl (follow 9) (newQueue 0 1)

theorem lateTimer_runs : Runs AttendingStep (newQueue 0 1) (lateTimerRun.reverse ++ []) lateTimer :=
  replays_runs 9 isGranted (fun _ _ _ => isGranted_attends) .nil (by decide)

theorem lateTimer_attended : (lateTimer.lists .timerQueue).first = some 2 ∧ 0 < lateTimer.availableConcurrency := by
  have created : dispatchQueueCreate 0 1 = .ok (newQueue 0 1) := rfl
  have timer : (lateTimer.lists .timerQueue).first = some 2 := by decide
  refine ⟨timer, (attending_runs_attended created lateTimer_runs).2 (.inr ?_)⟩
  rw [timer]
  simp

/-- The wait of the worker had timed out already: it leaves, and the timer stays without a virtual processor. -/
theorem lateTimer_stranded :
    ∃ start actions sys, dispatchQueueCreate 0 1 = .ok start ∧ Runs GrantedStep start actions sys ∧ sys.lock = none ∧
      sys.state = .running ∧ (sys.lists .timerQueue).first = some 2 ∧ sys.availableConcurrency = 0 := by
  have run : Runs GrantedStep (newQueue 0 1) (lateTimerRun.reverse ++ []) lateTimer :=
    lateTimer_runs.mono fun _ _ _ step => step.1
  have wakes : GrantedStep lateTimer (.wake 0 true 10) (follow 9 lateTimer (.wake 0 true 10)) :=
    ⟨step_follow 9 (by decide) (by decide), trivial⟩
  exact ⟨newQueue 0 1, _, _, rfl, run.step wakes, by decide, by decide, by decide,
    by decide⟩

end Apollo.Dispatchqueue
