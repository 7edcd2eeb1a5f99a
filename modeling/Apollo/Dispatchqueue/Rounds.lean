import Apollo.Dispatchqueue.Frames

/-!
# Rounds of a worker

A round starts with the acquisition of the lock and ends in one of three ways: with
an item to execute, in the wait for work, or with the end of the virtual processor.
-/

set_option autoImplicit false

namespace Apollo.Dispatchqueue

open Klib
open Lib

/-! ## Looking for an item -/

theorem takeWorkItem_staff (sys : System) : sys.takeWorkItem.2.staff = sys.staff := by
  unfold System.takeWorkItem
  rcases removes : sys.removeFirst .itemQueue with ⟨first, rest⟩
  have same : rest.staff = sys.staff := by
    rw [show rest = (sys.removeFirst .itemQueue).2 by rw [removes]]
    rfl
  cases first with
  | some item => exact same
  | none => exact same

theorem takeItem_staff (sys : System) (now : Int) : (sys.takeItem now).2.staff = sys.staff := by
  unfold System.takeItem
  dsimp only
  split
  next timer rest removes =>
    split_ifs at removes
    · rw [show rest = (sys.removeFirst .timerQueue).2 by rw [removes]]
      rfl
    · simp at removes
  next rest removes =>
    refine (takeWorkItem_staff rest).trans ?_
    split_ifs at removes
    · rw [show rest = (sys.removeFirst .timerQueue).2 by rw [removes]]
      rfl
    · rw [(Prod.mk.inj removes).2]

/-! ## The ends of a round -/

def System.unlocked (sys : System) : System := { sys with lock := none }

inductive RoundEnd (sys : System) (lane : Nat) (mayRelinquish : Bool) (now : Int) : System → Prop
  | executes {item : Nat} (takes : (sys.takeItem now).1 = some item) (running : sys.state = .running) :
      RoundEnd sys lane mayRelinquish now ((sys.takeItem now).2.setLane lane (.executing item)).unlocked
  | waits (idle : (sys.takeItem now).1 = none) (running : sys.state = .running) (stays : mayRelinquish = false) :
      RoundEnd sys lane mayRelinquish now ((sys.takeItem now).2.setLane lane (.waiting false)).unlocked
  | leaves (ends : sys.state ≠ .running ∨ (sys.takeItem now).1 = none ∧ mayRelinquish = true) :
      RoundEnd sys lane mayRelinquish now ((sys.takeItem now).2.relinquishVirtualProcessor lane).unlocked

section Rounds
variable {sys after : System} {lane fuel : Nat} {mayRelinquish timedOut : Bool} {now later : Int}

theorem lockUnlock_ended {self : Thread} (ends : lockUnlock self sys = .ok () after) :
    after = sys.unlocked := by
  unfold lockUnlock at ends
  split_ifs at ends
  exact (Outcome.ok.inj ends).2.symm

theorem runRound_ended (ends : runRound lane mayRelinquish now sys = .ok () after) :
    RoundEnd sys lane mayRelinquish now after := by
  have same : (sys.takeItem now).2.state = sys.state := congrArg (fun staff => staff.1) (takeItem_staff sys now)
  unfold runRound at ends
  rw [Code.bind_of_ok (Code.get_apply _)] at ends
  rcases takes : sys.takeItem now with ⟨found, rest⟩
  rw [takes] at ends same
  have first : (sys.takeItem now).1 = found := by rw [takes]
  have second : (sys.takeItem now).2 = rest := by rw [takes]
  cases found with
  | some item =>
    change (if rest.state ≠ .running then _ else _ : Code System Errno Unit) sys = _ at ends
    split_ifs at ends with stopped
    · rw [lockUnlock_ended ends, ← second]
      exact .leaves (.inl (same ▸ stopped))
    · rw [lockUnlock_ended ends, ← second]
      exact .executes first (same ▸ not_not.mp stopped)
  | none =>
    change (if rest.state ≠ .running ∨ mayRelinquish = true then _ else _ : Code System Errno Unit) sys = _ at ends
    split_ifs at ends with leaves
    · rw [lockUnlock_ended ends, ← second]
      refine .leaves ?_
      rcases leaves with stopped | may
      · exact .inl (same ▸ stopped)
      · exact .inr ⟨first, may⟩
    · simp only [not_or, not_not, Bool.not_eq_true] at leaves
      rw [lockUnlock_ended ends, ← second, leaves.2]
      exact .waits first (same ▸ leaves.1) rfl

theorem RoundEnd.state (ends : RoundEnd sys lane mayRelinquish now after) : after.state = sys.state := by
  have same : (sys.takeItem now).2.state = sys.state := congrArg (fun staff => staff.1) (takeItem_staff sys now)
  cases ends with
  | executes takes running => exact same
  | waits idle running stays => exact same
  | leaves ends => exact same

def System.entered (sys : System) (lane : Nat) : System :=
  System.setLane { sys with lock := some (.worker lane) } lane .running

theorem enter_ended (ends : enter lane sys = .ok () after) : after = sys.entered lane := by
  obtain ⟨_, middle, locks, goesOn⟩ := Code.bind_eq_ok.mp ends
  unfold lockLock at locks
  cases held : sys.lock with
  | some owner => simp [held] at locks
  | none =>
    simp only [held, Outcome.ok.injEq, true_and] at locks
    rw [← locks] at goesOn
    exact (Outcome.ok.inj goesOn).2.symm

theorem start_ended (ends : perform fuel (.start lane now) sys = .ok () after) :
    sys.lanes[lane]? = some .starting ∧ RoundEnd (sys.entered lane) lane false now after := by
  simp only [perform, start] at ends
  split at ends
  next found =>
    obtain ⟨_, middle, enters, round⟩ := Code.bind_eq_ok.mp ends
    rw [enter_ended enters] at round
    exact ⟨found, runRound_ended round⟩
  next => simp at ends

theorem wake_ended (ends : perform fuel (.wake lane timedOut now) sys = .ok () after) :
    ∃ mayRelinquish, sys.lanes[lane]? = some (.waiting mayRelinquish) ∧
      RoundEnd (sys.entered lane) lane
        (mayRelinquish || decide (timedOut = true ∧ sys.minConcurrency < sys.availableConcurrency)) now after := by
  simp only [perform, wake] at ends
  split at ends
  next mayRelinquish found =>
    obtain ⟨_, middle, enters, goesOn⟩ := Code.bind_eq_ok.mp ends
    rw [enter_ended enters, Code.bind_of_ok (Code.get_apply _)] at goesOn
    exact ⟨mayRelinquish, found, runRound_ended goesOn⟩
  next => simp at ends

theorem execute_ended (ends : perform fuel (.execute lane) sys = .ok () after) :
    ∃ item code ran, sys.lanes[lane]? = some (.executing item) ∧ (sys.items item).closure = some code ∧ sys.ran ⊆ ran ∧
      (∀ call signaler, sys.dispatches item = some (.sync call signaler) → call ∈ ran) ∧
      after = (System.signalCompletion { sys with ran := ran } item false).setLane lane (.finished item) := by
  simp only [perform, execute] at ends
  split at ends
  next item found =>
    simp only [runClosure] at ends
    cases closes : (sys.items item).closure with
    | none => simp [closes] at ends
    | some code =>
      simp only [closes] at ends
      have ended := (Outcome.ok.inj ends).2
      cases dispatch : sys.dispatches item with
      | none =>
        simp only [dispatch] at ended
        exact ⟨item, code, sys.ran, found, closes, List.Subset.refl _, by simp [dispatch], ended.symm⟩
      | some kind =>
        cases kind with
        | async =>
          simp only [dispatch] at ended
          exact ⟨item, code, sys.ran, found, closes, List.Subset.refl _, by simp [dispatch], ended.symm⟩
        | sync call signaler =>
          simp only [dispatch] at ended
          refine ⟨item, code, call :: sys.ran, found, closes, List.subset_cons_self _ _, ?_, ended.symm⟩
          intro call' signaler' same
          rw [dispatch] at same
          cases same
          exact List.mem_cons_self
  next => simp at ends

theorem reclaimItem_staff (staff : QueueState × Nat × Nat × Nat × List Worker) (fuel item : Nat) (now : Int) :
    Code.Keeps (fun sys => sys.staff = staff) (reclaimItem fuel item now) := by
  refine Code.keeps_bind Code.keeps_get fun sys => ?_
  cases (sys.items item).type with
  | immediate => exact Code.keeps_modify fun sys same => (congrArg Prod.fst (relinquishWorkItem_frame sys item)).trans same
  | oneShotTimer => exact Code.keeps_modify fun sys same => (congrArg Prod.fst (relinquishTimer_frame sys item)).trans same
  | repeatingTimer =>
    refine Code.keeps_ite (fun _ => ?_) fun _ => Code.keeps_ite (fun _ => ?_) fun _ => Code.keeps_pure ()
    · exact Code.keeps_modify fun sys same => (congrArg Prod.fst (relinquishTimer_frame sys item)).trans same
    · intro sys same
      unfold rearmTimer
      cases rearmDeadline (sys.items item).interval now fuel (sys.items item).deadline with
      | none => trivial
      | some deadline =>
        exact (addTimer_staff fuel item _).mono (fun _ _ kept => kept.1.trans same) fun _ _ kept => kept.1.trans same

theorem reclaim_ended (ends : perform fuel (.reclaim lane now later) sys = .ok () after) :
    ∃ item middle, sys.lanes[lane]? = some (.finished item) ∧
      reclaimItem fuel item now (sys.entered lane) = .ok () middle ∧ RoundEnd middle lane false later after := by
  simp only [perform, reclaim] at ends
  split at ends
  next item found =>
    obtain ⟨_, middle, enters, goesOn⟩ := Code.bind_eq_ok.mp ends
    rw [enter_ended enters] at goesOn
    obtain ⟨_, reclaimed, reclaims, round⟩ := Code.bind_eq_ok.mp goesOn
    exact ⟨item, reclaimed, found, reclaims, runRound_ended round⟩
  next => simp at ends

end Rounds

/-! ## Flush and termination -/

section Ends
variable {sys after : System}

theorem keeps_flushLocked (staff : QueueState × Nat × Nat × Nat × List Worker) (fuel : Nat) :
    Code.Keeps (fun sys => sys.staff = staff) (flushLocked fuel) := by
  have items : ∀ fuel, Code.Keeps (fun sys => sys.staff = staff) (flushItems fuel) := by
    intro fuel
    induction fuel with
    | zero => exact fun _ _ => trivial
    | succ fuel ih =>
      intro sys same
      unfold flushItems
      rcases removes : sys.removeFirst .itemQueue with ⟨first, rest⟩
      have rested : rest.staff = staff := by
        rw [show rest = (sys.removeFirst .itemQueue).2 by rw [removes]]
        exact same
      cases first with
      | none => exact rested
      | some item =>
        refine ih _ ?_
        have signals := fun middle : System => congrArg Prod.fst (signalCompletion_frame middle item true)
        have hands := fun middle : System => congrArg Prod.fst (relinquishWorkItem_frame middle item)
        exact ((hands _).trans (signals _)).trans rested
  refine Code.keeps_bind (items fuel) fun _ => ?_
  cases fuel with
  | zero => exact fun _ _ => trivial
  | succ fuel =>
    intro sys same
    rcases removes : sys.removeFirst .timerQueue with ⟨first, rest⟩
    cases first with
    | none =>
      have ends : flushTimers (fuel + 1) sys = .ok () rest := by
        simp only [flushTimers, removes]
      rw [ends]
      rw [show rest = (sys.removeFirst .timerQueue).2 by rw [removes]]
      exact same
    | some timer =>
      have stops : flushTimers (fuel + 1) sys = .fault := by
        simp only [flushTimers, removes]
      rw [stops]
      trivial

theorem removeFirst_none {name : ListName} (empty : (sys.lists name).first = none) :
    sys.removeFirst name = (none, sys) := by
  have stays : (sys.lists name).removeFirst sys.links = (none, sys.links, sys.lists name) := by
    unfold SList.removeFirst
    rw [empty]
  unfold System.removeFirst
  rw [stays]
  simp only [System.withList, Function.update_eq_self]

theorem flushLocked_stays (noItem : (sys.lists .itemQueue).first = none)
    (noTimer : (sys.lists .timerQueue).first = none) (fuel : Nat) :
    flushLocked fuel sys = .ok () sys ∨ flushLocked fuel sys = .fault := by
  unfold flushLocked
  cases fuel with
  | zero => exact .inr rfl
  | succ fuel =>
    have items : flushItems (fuel + 1) sys = .ok () sys := by
      simp only [flushItems, removeFirst_none noItem]
    have timers : flushTimers (fuel + 1) sys = .ok () sys := by
      simp only [flushTimers, removeFirst_none noTimer]
    rw [Code.bind_of_ok items, timers]
    exact .inl rfl

theorem keeps_lock (staff : QueueState × Nat × Nat × Nat × List Worker) (self : Thread) :
    Code.Keeps (fun sys => sys.staff = staff) (lockLock self) ∧
      Code.Keeps (fun sys => sys.staff = staff) (lockUnlock self) := by
  refine ⟨?_, ?_⟩
  · intro sys same
    exact (lockLock_framed self sys).mono (fun _ _ frame => (congrArg Prod.fst frame).trans same)
      fun _ _ frame => (congrArg Prod.fst frame).trans same
  · intro sys same
    exact (lockUnlock_framed self sys).mono (fun _ _ frame => (congrArg Prod.fst frame).trans same)
      fun _ _ frame => (congrArg Prod.fst frame).trans same

/-- A termination leaves the lanes alone, and the queue is no longer running behind it. -/
theorem terminate_lanes (sys : System) (self : Thread) (fuel : Nat) :
    (terminate self fuel sys).Returned (fun _ after => after.lanes = sys.lanes ∧ after.state ≠ .running)
      fun _ after => after.lanes = sys.lanes ∧ after.state ≠ .running := by
  have unlocks : ∀ stopped : System, stopped.lanes = sys.lanes ∧ stopped.state ≠ .running →
      (lockUnlock self stopped).Returned (fun _ after => after.lanes = sys.lanes ∧ after.state ≠ .running)
        fun _ after => after.lanes = sys.lanes ∧ after.state ≠ .running := by
    rintro stopped ⟨same, state⟩
    have kept := (keeps_lock stopped.staff self).2 stopped rfl
    have goesOn : ∀ after : System, after.staff = stopped.staff → after.lanes = sys.lanes ∧ after.state ≠ .running := by
      intro after staff
      refine ⟨(congrArg (fun staff => staff.2.2.2.2) staff).trans same, ?_⟩
      rw [show after.state = stopped.state from congrArg (fun staff => staff.1) staff]
      exact state
    exact kept.mono (fun _ => goesOn) fun _ => goesOn
  unfold terminate
  cases held : sys.lock with
  | some owner =>
    have stops : lockLock self sys = .fault := by
      simp only [lockLock, held]
    rw [Code.bind_of_fault stops]
    trivial
  | none =>
    have locks : lockLock self sys = .ok () { sys with lock := some self } := by
      simp only [lockLock, held]
    rw [Code.bind_of_ok locks, Code.bind_of_ok (Code.get_apply _)]
    by_cases stopped : sys.state ≠ .running
    · rw [if_pos stopped]
      exact unlocks _ ⟨rfl, stopped⟩
    · rw [if_neg stopped, Code.bind_of_ok (Code.modify_apply _ _)]
      have flushed := keeps_flushLocked (.terminating, sys.staff.2) fuel
        { sys with lock := some self, state := .terminating } rfl
      have goesOn : ∀ after : System, after.staff = (.terminating, sys.staff.2) →
          after.lanes = sys.lanes ∧ after.state ≠ .running := by
        intro after staff
        refine ⟨congrArg (fun staff => staff.2.2.2.2) staff, ?_⟩
        rw [show after.state = .terminating from congrArg (fun staff => staff.1) staff]
        simp
      cases flushes : flushLocked fuel { sys with lock := some self, state := .terminating } with
      | fault =>
        rw [Code.bind_of_fault flushes]
        trivial
      | err error after =>
        rw [flushes] at flushed
        rw [Code.bind_of_err flushes]
        exact goesOn after flushed
      | ok value after =>
        rw [flushes] at flushed
        rw [Code.bind_of_ok flushes]
        exact unlocks after (goesOn after flushed)

theorem performCall_state (code : Thread → Code System Errno Unit) (performs : performCall code sys = .ok () after) :
    (code (.client sys.calls.length) sys).state? = some after := by
  unfold performCall at performs
  rw [Code.bind_of_ok (Code.get_apply _)] at performs
  obtain ⟨result, middle, attempts, ends⟩ := Code.bind_eq_ok.mp performs
  cases ends
  unfold Code.attempt at attempts
  cases call : code (.client sys.calls.length) sys with
  | ok value final =>
    rw [call] at attempts
    cases attempts
    rfl
  | err error final =>
    rw [call] at attempts
    cases attempts
    rfl
  | fault => simp [call] at attempts

end Ends

end Apollo.Dispatchqueue
