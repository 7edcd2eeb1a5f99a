import Apollo.Dispatchqueue.Rounds

/-!
# The end of a queue

A worker takes an item with the lock held and invokes its closure without it.
`DispatchQueue_Terminate` goes through the lanes in between: `AbortCallAsUser`
suspends the virtual processor and resumes it only when a call-as-user is in
progress, so a worker that has not come to its closure never gets there.  The
exception is a worker inside `VirtualProcessor_CallAsUser` that has set its flag
and has not left the kernel.
-/

set_option autoImplicit false

namespace Apollo.Dispatchqueue

open Lib

/-- Where a worker that executes an item is: in front of the closure, in `VirtualProcessor_CallAsUser`
behind `VP_FLAG_CAU_IN_PROGRESS` and in front of the user code, or in the closure. -/
inductive Phase
  | before
  | calling
  | begun (isUser : Bool)
  deriving DecidableEq

/-- `VP_FLAG_CAU_IN_PROGRESS` is set. -/
def Phase.inCallAsUser : Phase → Bool
  | .before => false
  | .calling => true
  | .begun isUser => isUser

/-- The queue, and the phases and suspensions of the virtual processors of its lanes. -/
structure Machine where
  queue : System
  phases : Nat → Phase
  isSuspended : Nat → Bool

inductive MachineAction
  | step (action : Action)
  | terminate (caller : Option Nat)
  | callAsUser (lane : Nat)
  | begin (lane : Nat)

def Action.lane : Action → Option Nat
  | .start lane _ => some lane
  | .wake lane _ _ => some lane
  | .execute lane => some lane
  | .reclaim lane _ _ => some lane
  | _ => none

namespace Machine

def isExecuting (machine : Machine) (lane : Nat) : Bool :=
  match machine.queue.lanes[lane]? with
  | some (.executing _) => true
  | _ => false

def isAttached (machine : Machine) (lane : Nat) : Bool :=
  match machine.queue.lanes[lane]? with
  | some .absent => false
  | some _ => true
  | none => false

/-- `closure.isUser` of the item that the lane executes. -/
def isUser (closureIsUser : Nat → Bool) (machine : Machine) (lane : Nat) : Bool :=
  match machine.queue.lanes[lane]? with
  | some (.executing item) => ((machine.queue.items item).closure).any closureIsUser
  | _ => false

def isReady (machine : Machine) (lane : Nat) : Bool := machine.isExecuting lane && !machine.isSuspended lane

/-- The loop of `DispatchQueue_Terminate` over the lanes: `AbortCallAsUser` leaves those suspended that
are in no call-as-user. -/
def abortCallsAsUser (machine : Machine) (caller : Option Nat) : Machine :=
  { machine with
    isSuspended := fun lane =>
      machine.isSuspended lane ||
        (machine.isAttached lane && caller != some lane && !(machine.phases lane).inCallAsUser) }

def goTo (machine : Machine) (lane : Nat) (phase : Phase) : Machine :=
  { machine with phases := Function.update machine.phases lane phase }

/-- The machine behind `DispatchQueue_Terminate`; a queue that is terminating already is left alone. -/
def terminated (machine : Machine) (caller : Option Nat) (queue : System) : Machine :=
  { (if machine.queue.state = .running then machine.abortCallsAsUser caller else machine) with queue := queue }

/-- The queue behind a step of a thread; a worker that has executed an item is in front of the next one. -/
def advance (machine : Machine) (action : Action) (queue : System) : Machine :=
  { machine with
    queue := queue
    phases := match action with
      | .execute lane => Function.update machine.phases lane .before
      | _ => machine.phases }

end Machine

/-- A step of the queue by a virtual processor that is not suspended, a step of a worker towards its
closure, or a call of `DispatchQueue_Terminate`, maybe from the closure of a lane. -/
def MachineStep (closureIsUser : Nat → Bool) (machine : Machine) (action : MachineAction) (after : Machine) : Prop :=
  match action with
  | .step action =>
    action ≠ .terminate ∧
      (∀ lane, action.lane = some lane → machine.isSuspended lane = false ∧
        (action = .execute lane → ∃ isUser, machine.phases lane = .begun isUser)) ∧
      ∃ queue, Step machine.queue action queue ∧
        after = machine.advance action queue
  | .terminate caller =>
    (∀ lane, caller = some lane → machine.isReady lane = true ∧ ∃ isUser, machine.phases lane = .begun isUser) ∧
      ∃ queue, Step machine.queue .terminate queue ∧
        after = machine.terminated caller queue
  | .callAsUser lane =>
    machine.isReady lane = true ∧ machine.phases lane = .before ∧ machine.isUser closureIsUser lane = true ∧
      after = machine.goTo lane .calling
  | .begin lane =>
    machine.isReady lane = true ∧
      (machine.phases lane = .calling ∨
        machine.phases lane = .before ∧ machine.isUser closureIsUser lane = false) ∧
      after = machine.goTo lane (.begun (machine.phases lane).inCallAsUser)

def newMachine (queue : System) : Machine := ⟨queue, fun _ => .before, fun _ => false⟩

/-! ## Lanes -/

/-- What a step does to the lanes that execute an item; `own` is the lane of the step. -/
structure LanesKept (own : Option Nat) (sys after : System) : Prop where
  stays : ∀ (lane item : Nat), own ≠ some lane → sys.lanes[lane]? = some (Worker.executing item) →
    after.lanes[lane]? = some (Worker.executing item)
  fresh : ∀ (lane item : Nat), after.lanes[lane]? = some (Worker.executing item) →
    sys.lanes[lane]? = some (Worker.executing item) ∨ sys.state = .running
  state : after.state = sys.state

section Lanes
variable {sys after : System} {own : Option Nat} {fuel lane : Nat}

theorem LanesKept.refl (sys : System) : LanesKept own sys sys :=
  ⟨fun _ _ _ => id, fun _ _ => .inl, rfl⟩

variable {middle : System} {action : Action}

theorem LanesKept.trans (first : LanesKept own sys middle) (second : LanesKept own middle after) :
    LanesKept own sys after := by
  refine ⟨?_, ?_, second.state.trans first.state⟩
  · intro lane item different executes
    exact second.stays lane item different (first.stays lane item different executes)
  · intro lane item executes
    rcases second.fresh lane item executes with before | running
    · exact first.fresh lane item before
    · exact .inr (first.state.symm.trans running)

theorem LanesKept.of_staff (kept : LanesKept own sys middle) (same : after.staff = middle.staff) :
    LanesKept own sys after := by
  have lanes : after.lanes = middle.lanes := congrArg (fun staff => staff.2.2.2.2) same
  have state : after.state = middle.state := congrArg (fun staff => staff.1) same
  refine ⟨?_, ?_, ?_⟩
  · rw [lanes]
    exact kept.stays
  · rw [lanes]
    exact kept.fresh
  · rw [state]
    exact kept.state

/-- A new virtual processor is on a lane that had none. -/
theorem LanesKept.hire (kept : LanesKept own sys middle)
    (search : middle.lanes.findIdx? (· = .absent) = some lane) : LanesKept own sys (middle.hire lane) := by
  have absent : middle.lanes[lane]? = some .absent := by
    obtain ⟨inside, found, -⟩ := List.findIdx?_eq_some_iff_getElem.mp search
    rw [List.getElem?_eq_getElem inside]
    simpa using found
  have elsewhere : ∀ (other item : Nat), (middle.hire lane).lanes[other]? = some (Worker.executing item) ↔
      middle.lanes[other]? = some (Worker.executing item) := by
    intro other item
    unfold System.hire
    simp only [List.getElem?_set]
    by_cases same : lane = other
    · rw [← same, absent]
      simp
    · rw [if_neg same]
  refine ⟨?_, ?_, kept.state⟩
  · intro other item different executes
    exact (elsewhere other item).mpr (kept.stays other item different executes)
  · intro other item executes
    exact kept.fresh other item ((elsewhere other item).mp executes)

theorem respects_lanes (own : Option Nat) (sys : System) : Respects (fun _ => True) (LanesKept own sys) :=
  .of_staff _ (fun same _ kept => kept.of_staff same) fun _ search kept => kept.hire search

/-- A round of a worker changes its own lane, and leaves with an item only while the queue is running. -/
theorem RoundEnd.lanes {mayRelinquish : Bool} {now : Int} (ends : RoundEnd sys lane mayRelinquish now after) :
    LanesKept (some lane) sys after := by
  have taken := takeItem_staff sys now
  have sameLanes : (sys.takeItem now).2.lanes = sys.lanes := congrArg (fun staff => staff.2.2.2.2) taken
  have sameState : (sys.takeItem now).2.state = sys.state := congrArg (fun staff => staff.1) taken
  have changed : ∀ (worker : Worker), (∀ item, worker = .executing item → sys.state = .running) →
      after.state = (sys.takeItem now).2.state → after.lanes = (sys.takeItem now).2.lanes.set lane worker →
        LanesKept (some lane) sys after := by
    intro worker runs state lanes
    rw [sameLanes] at lanes
    refine ⟨?_, ?_, state.trans sameState⟩
    · intro other item different executes
      rw [lanes, List.getElem?_set_ne (fun equal => different (by rw [equal]))]
      exact executes
    · intro other item executes
      rw [lanes, List.getElem?_set] at executes
      split_ifs at executes
      · exact .inr (runs item (Option.some.inj executes))
      · exact .inl executes
  cases ends with
  | @executes item takes running => exact changed (.executing item) (fun _ _ => running) rfl rfl
  | waits idle running stays => exact changed (.waiting false) (by simp) rfl rfl
  | leaves ends => exact changed .absent (by simp) rfl rfl

theorem LanesKept.setLane (sys : System) (lane : Nat) {worker : Worker} (idle : ∀ item, worker ≠ .executing item) :
    LanesKept (some lane) sys (sys.setLane lane worker) := by
  refine ⟨?_, ?_, rfl⟩
  · intro other item different executes
    change (sys.lanes.set lane worker)[other]? = _
    rw [List.getElem?_set_ne (fun equal => different (by rw [equal]))]
    exact executes
  · intro other item executes
    change (sys.lanes.set lane worker)[other]? = _ at executes
    rw [List.getElem?_set] at executes
    split_ifs at executes
    · exact absurd (Option.some.inj executes) (idle item)
    · exact .inl executes

theorem LanesKept.entered (sys : System) (lane : Nat) : LanesKept (some lane) sys (sys.entered lane) := by
  have kept : LanesKept (some lane) sys (sys.setLane lane .running) := .setLane sys lane (by simp)
  exact kept.of_staff rfl

theorem perform_lanes (quiet : action ≠ .flush ∧ action ≠ .terminate)
    (performs : perform fuel action sys = .ok () after) : LanesKept action.lane sys after := by
  by_cases client : action.isClient = true
  · have answered : action.Answered fun _ => True := by
      cases action <;> trivial
    have kept := (respects_lanes action.lane sys).perform fuel client answered sys (.refl sys)
    rw [performs] at kept
    exact kept
  cases action with
  | flush => exact absurd rfl quiet.1
  | terminate => exact absurd rfl quiet.2
  | start lane now => exact (LanesKept.entered sys lane).trans (start_ended performs).2.lanes
  | wake lane timedOut now =>
    obtain ⟨mayRelinquish, -, ends⟩ := wake_ended performs
    exact (LanesKept.entered sys lane).trans ends.lanes
  | execute lane =>
    obtain ⟨item, code, ran, -, -, -, -, rfl⟩ := execute_ended performs
    refine LanesKept.trans ((LanesKept.refl sys).of_staff ?_) (.setLane _ lane (by simp))
    exact congrArg Prod.fst (signalCompletion_frame { sys with ran := ran } item false)
  | reclaim lane now later =>
    obtain ⟨item, middle, -, reclaims, ends⟩ := reclaim_ended performs
    have same := reclaimItem_staff (sys.entered lane).staff fuel item now _ rfl
    rw [reclaims] at same
    exact ((LanesKept.entered sys lane).of_staff same).trans ends.lanes
  | _ => exact absurd rfl client

theorem Step.lanesKept (step : Step sys action after) (goesOn : action ≠ .terminate) :
    LanesKept action.lane sys after := by
  obtain ⟨-, fuel, performs⟩ := step
  by_cases flushes : action = .flush
  · subst flushes
    have keeps : ∀ self, Code.Keeps (fun after : System => after.staff = sys.staff) (flush self fuel) := by
      intro self
      refine Code.keeps_bind (keeps_lock sys.staff self).1 fun _ => ?_
      exact Code.keeps_bind (keeps_flushLocked sys.staff fuel) fun _ => (keeps_lock sys.staff self).2
    exact (LanesKept.refl sys).of_staff ((keeps _).of_state rfl (performCall_state (fun self => flush self fuel) performs))
  · exact perform_lanes ⟨flushes, goesOn⟩ performs

theorem Step.terminated (step : Step sys .terminate after) : after.lanes = sys.lanes ∧ after.state ≠ .running := by
  obtain ⟨-, fuel, performs⟩ := step
  exact (terminate_lanes sys (.client sys.calls.length) fuel).of_state
    (performCall_state (fun self => terminate self fuel) performs)

theorem Step.executes {action : Action} {item : Nat} (step : Step sys action after) (own : action.lane = some lane)
    (executing : sys.lanes[lane]? = some (.executing item)) : action = .execute lane := by
  have enabled := step.1
  cases action with
  | start other now =>
    cases own
    simp [Action.enabled, executing] at enabled
  | wake other timedOut now =>
    cases own
    simp [Action.enabled, executing] at enabled
  | execute other =>
    cases own
    rfl
  | reclaim other now later =>
    cases own
    simp [Action.enabled, executing] at enabled
  | _ => simp [Action.lane] at own

end Lanes

/-! ## Phases -/

section Phases
variable {closureIsUser : Nat → Bool} {machine after : Machine} {lane : Nat}

theorem Machine.isExecuting_iff (machine : Machine) (lane : Nat) :
    machine.isExecuting lane = true ↔ ∃ item, machine.queue.lanes[lane]? = some (.executing item) := by
  unfold Machine.isExecuting
  constructor
  · intro executes
    split at executes
    next item found => exact ⟨item, found⟩
    next => simp at executes
  · rintro ⟨item, found⟩
    rw [found]

/-- A lane in a call-as-user goes on, and in a queue that is not running the lanes in front of their
closures do not. -/
structure Machine.Proper (machine : Machine) : Prop where
  calling : ∀ lane, machine.phases lane = .calling → machine.isReady lane = true
  stopped : machine.queue.state ≠ .running → ∀ lane, machine.phases lane = .before → machine.isReady lane = false

/-- The queue is not running, and no lane is about to enter the user code. -/
structure Machine.Ended (machine : Machine) : Prop where
  state : machine.queue.state ≠ .running
  phases : ∀ lane, machine.phases lane ≠ .calling

variable {queue : System} {action : Action}

theorem newMachine_proper (running : queue.state = .running) : (newMachine queue).Proper := by
  refine ⟨?_, ?_⟩
  · intro lane calling
    simp [newMachine] at calling
  · intro stopped
    exact absurd running stopped

theorem isExecuting_step (step : Step machine.queue action queue)
    (goesOn : action ≠ .terminate) (other : action ≠ .execute lane) (same : after.queue = queue)
    (executes : machine.isExecuting lane = true) : after.isExecuting lane = true := by
  obtain ⟨item, executing⟩ := (machine.isExecuting_iff lane).mp executes
  refine (after.isExecuting_iff lane).mpr ⟨item, ?_⟩
  rw [same]
  exact (step.lanesKept goesOn).stays lane item (fun own => other (step.executes own executing)) executing

theorem advance_own (machine : Machine) (lane : Nat) (queue : System) :
    (machine.advance (.execute lane) queue).phases lane = .before := by
  simp [Machine.advance]

theorem advance_other (machine : Machine) (queue : System) (other : action ≠ .execute lane) :
    (machine.advance action queue).phases lane = machine.phases lane := by
  cases action with
  | execute own => exact Function.update_of_ne (fun same => other (by rw [same])) _ _
  | _ => rfl

theorem ready_step (step : Step machine.queue action queue)
    (goesOn : action ≠ .terminate) (stopped : machine.queue.state ≠ .running)
    (ready : (machine.advance action queue).isReady lane = true) : machine.isReady lane = true := by
  simp only [Machine.isReady, Bool.and_eq_true] at ready ⊢
  refine ⟨?_, ready.2⟩
  obtain ⟨item, executing⟩ := (Machine.isExecuting_iff _ lane).mp ready.1
  rcases (step.lanesKept goesOn).fresh lane item executing with before | running
  · exact (machine.isExecuting_iff lane).mpr ⟨item, before⟩
  · exact absurd running stopped

theorem execute_leaves (step : Step machine.queue (.execute lane) queue) :
    (machine.advance (.execute lane) queue).isReady lane = false := by
  obtain ⟨-, fuel, performs⟩ := step
  obtain ⟨item, code, ran, -, -, -, -, rfl⟩ := execute_ended performs
  refine Bool.and_eq_false_imp.mpr fun executes => ?_
  obtain ⟨other, executing⟩ := (Machine.isExecuting_iff _ lane).mp executes
  change (List.set _ lane (Worker.finished item))[lane]? = _ at executing
  simp [List.getElem?_set] at executing

/-! ### Termination -/

section Terminated
variable {caller : Option Nat} {queue : System}

@[simp] theorem terminated_phases : (machine.terminated caller queue).phases = machine.phases := by
  unfold Machine.terminated
  split_ifs
  · rfl
  · rfl

theorem terminated_isExecuting (step : Step machine.queue .terminate queue) :
    (machine.terminated caller queue).isExecuting lane = machine.isExecuting lane := by
  unfold Machine.isExecuting
  change (match queue.lanes[lane]? with | some (.executing _) => true | _ => false) = _
  rw [step.terminated.1]

theorem terminated_calling (calling : machine.phases lane = .calling) :
    (machine.terminated caller queue).isSuspended lane = machine.isSuspended lane := by
  unfold Machine.terminated
  split_ifs
  · simp [Machine.abortCallsAsUser, calling, Phase.inCallAsUser]
  · rfl

theorem terminated_before (running : machine.queue.state = .running) (executes : machine.isExecuting lane = true)
    (other : caller ≠ some lane) (before : machine.phases lane = .before) :
    (machine.terminated caller queue).isSuspended lane = true := by
  obtain ⟨item, executing⟩ := (machine.isExecuting_iff lane).mp executes
  unfold Machine.terminated
  rw [if_pos running]
  simp [Machine.abortCallsAsUser, Machine.isAttached, executing, other, before, Phase.inCallAsUser]

theorem proper_terminated (proper : machine.Proper)
    (calls : ∀ lane, caller = some lane → machine.isReady lane = true ∧ ∃ isUser, machine.phases lane = .begun isUser)
    (step : Step machine.queue .terminate queue) : (machine.terminated caller queue).Proper := by
  refine ⟨?_, ?_⟩
  · intro lane calling
    rw [terminated_phases] at calling
    have ready := proper.calling lane calling
    simp only [Machine.isReady, terminated_isExecuting step, terminated_calling calling] at ready ⊢
    exact ready
  · intro _ lane before
    rw [terminated_phases] at before
    refine Bool.and_eq_false_imp.mpr fun executes => ?_
    rw [terminated_isExecuting step] at executes
    by_cases running : machine.queue.state = .running
    · have other : caller ≠ some lane := by
        intro own
        obtain ⟨-, isUser, begun⟩ := calls lane own
        simp [begun] at before
      rw [terminated_before running executes other before]
      rfl
    · have stands := proper.stopped running lane before
      unfold Machine.terminated
      rw [if_neg running]
      exact Bool.and_eq_false_imp.mp stands executes

end Terminated

theorem proper_goTo {phase : Phase} (proper : machine.Proper) (ready : machine.isReady lane = true)
    (goesOn : phase ≠ .before) : (machine.goTo lane phase).Proper := by
  have elsewhere : ∀ other, other ≠ lane → (machine.goTo lane phase).phases other = machine.phases other :=
    fun other different => Function.update_of_ne different _ _
  have there : (machine.goTo lane phase).phases lane = phase := Function.update_self _ _ _
  refine ⟨?_, ?_⟩
  · intro other calling
    by_cases same : other = lane
    · rw [same]
      exact ready
    · rw [elsewhere other same] at calling
      exact proper.calling other calling
  · intro stopped other waits
    by_cases same : other = lane
    · rw [same, there] at waits
      exact absurd waits goesOn
    · rw [elsewhere other same] at waits
      exact proper.stopped stopped other waits

theorem proper_step {action : MachineAction} (proper : machine.Proper)
    (step : MachineStep closureIsUser machine action after) : after.Proper := by
  cases action with
  | step action =>
    obtain ⟨goesOn, free, queue, step, rfl⟩ := step
    refine ⟨?_, ?_⟩
    · intro lane calling
      by_cases own : action = .execute lane
      · subst own
        rw [advance_own] at calling
        simp at calling
      · rw [advance_other machine queue own] at calling
        have ready := proper.calling lane calling
        simp only [Machine.isReady, Bool.and_eq_true] at ready ⊢
        exact ⟨isExecuting_step step goesOn own rfl ready.1, ready.2⟩
    · intro stopped lane before
      by_cases own : action = .execute lane
      · subst own
        exact execute_leaves step
      · rw [advance_other machine queue own] at before
        have stood : machine.queue.state ≠ .running := by
          rw [← (step.lanesKept goesOn).state]
          exact stopped
        by_contra ready
        have wasReady := ready_step step goesOn stood (Bool.not_eq_false _ ▸ ready)
        rw [proper.stopped stood lane before] at wasReady
        simp at wasReady
  | terminate caller =>
    obtain ⟨calls, queue, step, rfl⟩ := step
    exact proper_terminated proper calls step
  | callAsUser lane =>
    obtain ⟨ready, -, -, rfl⟩ := step
    exact proper_goTo proper ready (by simp)
  | begin lane =>
    obtain ⟨ready, -, rfl⟩ := step
    exact proper_goTo proper ready (by simp)

theorem ended_step {action : MachineAction} (proper : machine.Proper) (ended : machine.Ended)
    (step : MachineStep closureIsUser machine action after) : after.Ended ∧ ∀ lane, action ≠ .begin lane := by
  have asleep : ∀ lane, machine.phases lane = .before → machine.isReady lane ≠ true := by
    intro lane before ready
    rw [proper.stopped ended.state lane before] at ready
    simp at ready
  cases action with
  | step action =>
    obtain ⟨goesOn, -, queue, step, rfl⟩ := step
    refine ⟨⟨?_, ?_⟩, by simp⟩
    · change queue.state ≠ .running
      rw [(step.lanesKept goesOn).state]
      exact ended.state
    · intro lane calling
      by_cases own : action = .execute lane
      · subst own
        rw [advance_own] at calling
        simp at calling
      · rw [advance_other machine queue own] at calling
        exact ended.phases lane calling
  | terminate caller =>
    obtain ⟨-, queue, step, rfl⟩ := step
    refine ⟨⟨step.terminated.2, ?_⟩, by simp⟩
    rw [terminated_phases]
    exact ended.phases
  | callAsUser lane =>
    obtain ⟨ready, before, -⟩ := step
    exact absurd ready (asleep lane before)
  | begin lane =>
    obtain ⟨ready, calling | ⟨before, -⟩, -⟩ := step
    · exact absurd calling (ended.phases lane)
    · exact absurd ready (asleep lane before)

end Phases

/-! ## Runs -/

theorem create_running {minConcurrency maxConcurrency : Nat} {start : System}
    (created : dispatchQueueCreate minConcurrency maxConcurrency = .ok start) : start.state = .running :=
  @create_keeps (fun sys => sys.state = .running) _ _ _ (fun _ _ holds => holds) rfl created

/-- Behind a termination no closure begins if and only if no worker is between the flag of its
call-as-user and the user code when it takes place. -/
theorem terminate_endsQueue_iff (closureIsUser : Nat → Bool) {minConcurrency maxConcurrency : Nat} {start : System}
    {actions : List MachineAction} {before after : Machine} {caller : Option Nat}
    (created : dispatchQueueCreate minConcurrency maxConcurrency = .ok start)
    (run : Runs (MachineStep closureIsUser) (newMachine start) actions before)
    (terminates : MachineStep closureIsUser before (.terminate caller) after) :
    (∀ later final, Runs (MachineStep closureIsUser) after later final → ∀ lane, .begin lane ∉ later) ↔
      ∀ lane, before.phases lane ≠ .calling := by
  have proper : before.Proper := by
    refine Runs.invariant Machine.Proper (newMachine_proper (create_running created)) ?_ run
    exact fun _ _ _ => proper_step
  have properAfter := proper_step proper terminates
  obtain ⟨-, queue, step, rfl⟩ := terminates
  constructor
  · intro quiet lane calling
    have ready := properAfter.calling lane (by rw [terminated_phases, calling])
    have begins : MachineStep closureIsUser (before.terminated caller queue) (.begin lane) _ :=
      ⟨ready, .inl (by rw [terminated_phases, calling]), rfl⟩
    exact quiet [.begin lane] _ (.step .nil begins) lane (List.mem_singleton_self _)
  · intro quiet later final run
    have ended : (before.terminated caller queue).Ended := by
      refine ⟨step.terminated.2, ?_⟩
      rw [terminated_phases]
      exact quiet
    have kept : (final.Proper ∧ final.Ended) ∧ ∀ lane, .begin lane ∉ later := by
      refine Runs.history (fun later machine => (machine.Proper ∧ machine.Ended) ∧ ∀ lane, .begin lane ∉ later) ?_ ?_ run
      · exact ⟨⟨properAfter, ended⟩, fun _ => List.not_mem_nil⟩
      · rintro later action machine after - ⟨⟨proper, ended⟩, silent⟩ taken
        obtain ⟨stays, other⟩ := ended_step proper ended taken
        refine ⟨⟨proper_step proper taken, stays⟩, ?_⟩
        intro lane member
        rcases List.mem_cons.mp member with same | member
        · exact other lane same.symm
        · exact silent lane member
    exact kept.2

def itemQueue : System := follow 9 (newQueue 1 1) (.dispatchAsync 7 (some (1, zeroItem)) true)
def takenItem : System := follow 9 itemQueue (.start 0 0)
def calledItem : Machine := (newMachine takenItem).goTo 0 .calling
def endedQueue : System := follow 9 takenItem .terminate

/-- A worker takes an item with a user closure and sets the flag of the call. -/
theorem calledItem_runs :
    ∃ actions, Runs (MachineStep fun _ => true) (newMachine (newQueue 1 1)) actions calledItem := by
  have dispatches : MachineStep (fun _ => true) (newMachine (newQueue 1 1))
      (.step (.dispatchAsync 7 (some (1, zeroItem)) true)) (newMachine itemQueue) := by
    refine ⟨by simp, by simp [Action.lane], itemQueue, ?_, rfl⟩
    exact step_follow 9 (by decide) (by decide)
  have takes : MachineStep (fun _ => true) (newMachine itemQueue) (.step (.start 0 0)) (newMachine takenItem) := by
    refine ⟨by simp, by simp [Action.lane, newMachine], takenItem, ?_, rfl⟩
    exact step_follow 9 (by decide) (by decide)
  have calls : MachineStep (fun _ => true) (newMachine takenItem) (.callAsUser 0) calledItem :=
    ⟨by decide, rfl, by decide, rfl⟩
  exact ⟨_, .step (.step (.step .nil dispatches) takes) calls⟩

theorem endedQueue_step : Step takenItem .terminate endedQueue :=
  step_follow 9 (by decide) (by decide)

/-- The queue is terminated while the closure executes. -/
theorem begunItem_ends :
    ∃ actions before after, Runs (MachineStep fun _ => true) (newMachine (newQueue 1 1)) actions before ∧
      MachineStep (fun _ => true) before (.terminate none) after ∧
      ∀ later final, Runs (MachineStep fun _ => true) after later final → ∀ lane, .begin lane ∉ later := by
  obtain ⟨actions, run⟩ := calledItem_runs
  have begins : MachineStep (fun _ => true) calledItem (.begin 0) (calledItem.goTo 0 (.begun true)) :=
    ⟨by decide, .inl (by decide), rfl⟩
  have terminates : MachineStep (fun _ => true) (calledItem.goTo 0 (.begun true)) (.terminate none)
      ((calledItem.goTo 0 (.begun true)).terminated none endedQueue) :=
    ⟨by simp, endedQueue, endedQueue_step, rfl⟩
  have created : dispatchQueueCreate 1 1 = .ok (newQueue 1 1) := rfl
  refine ⟨_, _, _, .step run begins, terminates, ?_⟩
  refine (terminate_endsQueue_iff _ created (.step run begins) terminates).mpr ?_
  intro lane calling
  by_cases same : lane = 0
  · simp [Machine.goTo, same] at calling
  · simp [Machine.goTo, calledItem, newMachine, same] at calling

/-- The queue is terminated between the flag of the call and the user code, and the closure begins behind it. -/
theorem calledItem_begins :
    ∃ start actions before after final, dispatchQueueCreate 1 1 = .ok start ∧
      Runs (MachineStep fun _ => true) (newMachine start) actions before ∧
      MachineStep (fun _ => true) before (.terminate none) after ∧
      MachineStep (fun _ => true) after (.begin 0) final := by
  obtain ⟨actions, run⟩ := calledItem_runs
  have terminates : MachineStep (fun _ => true) calledItem (.terminate none) (calledItem.terminated none endedQueue) :=
    ⟨by simp, endedQueue, endedQueue_step, rfl⟩
  have begins : MachineStep (fun _ => true) (calledItem.terminated none endedQueue) (.begin 0)
      ((calledItem.terminated none endedQueue).goTo 0 (.begun true)) :=
    ⟨by decide, .inl (by decide), by
      rfl⟩
  exact ⟨newQueue 1 1, actions, _, _, _, rfl, run, terminates, begins⟩

end Apollo.Dispatchqueue
