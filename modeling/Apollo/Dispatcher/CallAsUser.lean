import Apollo.Dispatcher.SchedulerGuarantees
import Mathlib.Data.List.Perm.Subperm

/-!
# Aborting a call-as-user invocation

`VirtualProcessor_AbortCallAsUser` suspends the virtual processor, marks its
invocation as aborted, interrupts the wait of its system call and resumes it.  It
resumes only who is in an invocation, and it interrupts whoever waits on the same
wait queue.
-/

set_option autoImplicit false

namespace Apollo.Dispatcher.VirtualProcessorScheduler

open Klib
open Lib

def intMax : Int := 2147483647

/-- The body for a virtual processor that is in an invocation; `isKernelSpace` is bit 13 of its saved status
register.  The return addresses that are redirected are not part of the scheduler. -/
def abortInvocation (fuel vp : Nat) (isKernelSpace : Bool) : Code Scheduler Errno Unit := do
  Code.modify fun sched => sched.setVp vp fun self => { self with isCallAsUserAborted := true }
  let sched ← Code.get
  if isKernelSpace ∧ (sched.vps vp).state = .waiting then
    match (sched.vps vp).waitingOnWaitQueue with
    | some queue => wakeUpSome fuel queue intMax .interrupted false
    | none => Code.fault

def abortCallAsUser (fuel vp : Nat) (isKernelSpace : Bool) : Code Scheduler Errno Unit := do
  let sched ← Code.get
  let isCallerRunningOnVpToManipulate := decide (sched.running = some vp)
  if !isCallerRunningOnVpToManipulate then suspend vp
  let sched ← Code.get
  if (sched.vps vp).isCallAsUserInProgress then
    abortInvocation fuel vp isKernelSpace
    if !isCallerRunningOnVpToManipulate then resume vp false

def AbortStep (sched : Scheduler) (label : Action ⊕ (Nat × Bool)) (after : Scheduler) : Prop :=
  match label with
  | .inl action => SparingStep sched action after
  | .inr (vp, isKernelSpace) => sched.scheduled = none ∧ sched.isAllocated vp = true ∧
      ∃ fuel, (abortCallAsUser fuel vp isKernelSpace sched).state? = some after

/-- What a call that aborts the invocation of one virtual processor promises. -/
structure AbortsOnly (sched : Scheduler) (vp : Nat) (isKernelSpace : Bool) (after : Scheduler) : Prop where
  suspensionCount : (after.vps vp).suspensionCount = (sched.vps vp).suspensionCount
  others : ∀ other, other ≠ vp → (sched.vps other).state = .waiting → (after.vps other).state = .waiting ∧
    (after.vps other).waitingOnWaitQueue = (sched.vps other).waitingOnWaitQueue
  interrupted : (sched.vps vp).isCallAsUserInProgress = true → isKernelSpace = true →
    (sched.vps vp).CanWake .interrupted →
    (after.vps vp).state = .ready ∧ (after.vps vp).wakeupReason = some .interrupted

def WaitsInSystemCall (sched : Scheduler) (vp : Nat) (isKernelSpace : Bool) : Prop :=
  (sched.vps vp).isCallAsUserInProgress = true ∧ isKernelSpace = true ∧ (sched.vps vp).state = .waiting

/-- The calls that keep the promise.  The target is the caller or in an invocation, or it cannot be suspended once
more; and in the system call that waits, either it can be suspended and nobody else on its wait queue can be interrupted,
or it cannot be suspended and cannot be interrupted itself. -/
structure Abortable (sched : Scheduler) (vp : Nat) (isKernelSpace : Bool) : Prop where
  resumed : sched.running = some vp ∨ (sched.vps vp).isCallAsUserInProgress = true ∨ (sched.vps vp).suspensionCount = 127
  alone : WaitsInSystemCall sched vp isKernelSpace → (sched.vps vp).suspensionCount ≠ 127 →
    ∀ other, other ≠ vp → (sched.vps other).waitingOnWaitQueue = (sched.vps vp).waitingOnWaitQueue →
      ¬ (sched.vps other).CanWake .interrupted
  uninterruptable : WaitsInSystemCall sched vp isKernelSpace → (sched.vps vp).suspensionCount = 127 →
    (sched.vps vp).isInterruptableWait = false

/-! ## Interrupting a wait queue -/

section Interruption
variable {sched after : Scheduler} {nodes nodes' : Queues} {dead front back : List Nat} {vp : Nat}
  {queue : WaitQueueName}

def Interrupted (before after : VirtualProcessor) : Prop :=
  after.state = .ready ∧ after.wakeupReason = some .interrupted ∧ after.suspensionCount = before.suspensionCount

/-- Those of a list that can be interrupted were interrupted, and nobody else has changed. -/
structure Interrupts (sched : Scheduler) (waiters : List Nat) (after : Scheduler) : Prop where
  woken : ∀ vp ∈ waiters, (sched.vps vp).CanWake .interrupted → Interrupted (sched.vps vp) (after.vps vp)
  others : ∀ vp, (vp ∈ waiters → ¬ (sched.vps vp).CanWake .interrupted) → after.vps vp = sched.vps vp

theorem wakeUpPass_interrupts {fuel : Nat} {count : Int} {candidate : Option Nat} (inv : Inv sched nodes dead)
    (split : nodes (.wait queue) = front ++ back) (enough : (back.length : Int) ≤ count) :
    (wakeUpPass queue .interrupted fuel count back.head? candidate sched).Returned
      (fun _ after => Interrupts sched back after) fun _ _ => False := by
  induction fuel generalizing count candidate front back sched nodes with
  | zero => trivial
  | succ fuel ih =>
    rw [wakeUpPass]
    cases back with
    | nil => exact ⟨fun vp member => absurd member List.not_mem_nil, fun _ _ => rfl⟩
    | cons vp rest =>
      have holds := inv.held.entered.shelved.holds (.wait queue)
      have next : (sched.rewaQueueEntries vp).next = rest.head? := by
        rw [split] at holds
        rw [holds.pointers]
      have nodup := holds.nodup
      rw [split, List.perm_middle.nodup_iff, List.nodup_cons, List.mem_append, not_or] at nodup
      have member : vp ∈ nodes (.wait queue) := by simp [split]
      rw [List.length_cons] at enough
      rw [List.head?_cons]
      dsimp only
      rw [if_pos (by omega), next]
      refine Code.returned_bind (wakeUpOne_woken inv (fun _ => inv.on_of_mem member) .interrupted) ?_
      rintro - middle woken
      rw [Code.bind_of_ok (Code.get_apply middle)]
      rcases woken with ⟨cannot, same⟩ | ⟨can, nodes', inv', ended⟩
      · rw [same]
        have split' : nodes (.wait queue) = (front ++ [vp]) ++ rest := by
          rw [split, List.append_assoc, List.singleton_append]
        refine (ih inv split' (by omega)).mono ?_ fun _ _ => id
        rintro - after ⟨woken, others⟩
        refine ⟨fun other inList can => ?_, fun other spared => ?_⟩
        · rcases List.mem_cons.mp inList with rfl | later
          · exact absurd can cannot
          · exact woken other later can
        · exact others other fun later => spared (List.mem_cons_of_mem _ later)
      · have split' : nodes' (.wait queue) = front ++ rest := by
          rw [ended.waits, split, List.erase_append_right _ nodup.1.1, List.erase_cons_head]
        refine (ih inv' split' (by omega)).mono ?_ fun _ _ => id
        rintro - after ⟨woken, others⟩
        have self_eq := others vp fun later => absurd later nodup.1.2
        refine ⟨fun other inList can' => ?_, fun other spared => ?_⟩
        · by_cases same : other = vp
          · rw [same, self_eq]
            exact ⟨ended.isReady, ended.wakeupReason, ended.suspensionCount⟩
          · have later := (List.mem_cons.mp inList).resolve_left same
            have before := ended.others other same
            have result := woken other later (by rw [before]; exact can')
            rw [before] at result
            exact result
        · have different : other ≠ vp := by
            rintro rfl
            exact spared List.mem_cons_self can
          have before := ended.others other different
          rw [others other ?_, before]
          intro later
          rw [before]
          exact spared (List.mem_cons_of_mem _ later)

/-- Ids of virtual processors are of type `int`, so that no more than `INT_MAX` wait. -/
theorem Inv.waiters_le (inv : Inv sched nodes dead) (queue : WaitQueueName) :
    (nodes (.wait queue)).length ≤ sched.nextVpid := by
  have nodup := (inv.held.entered.shelved.holds (.wait queue)).nodup
  have subset : nodes (.wait queue) ⊆ List.range sched.nextVpid := by
    intro vp member
    rw [List.mem_range]
    by_contra fresh
    exact inv.held.fresh_absent (not_lt.mp fresh) (.wait queue) member
  have bound := (List.Nodup.subperm nodup subset).length_le
  rwa [List.length_range] at bound

theorem wakeUpSome_interrupts {fuel : Nat} (inv : Inv sched nodes dead) (ids : (sched.nextVpid : Int) ≤ intMax) :
    (wakeUpSome fuel queue intMax .interrupted false sched).Returned
      (fun _ after => Interrupts sched (nodes (.wait queue)) after) fun _ _ => False := by
  have few := inv.waiters_le queue
  unfold wakeUpSome
  rw [Code.bind_of_ok (Code.get_apply sched), (inv.held.entered.shelved.holds (.wait queue)).first]
  refine Code.returned_bind (wakeUpPass_interrupts inv (List.nil_append _).symm (by omega)) ?_
  rintro candidate after interrupts
  cases candidate with
  | none => exact interrupts
  | some vp => exact interrupts

end Interruption

/-! ## Suspending and resuming somebody else -/

section Target
variable {sched after : Scheduler} {nodes : Queues} {dead : List Nat} {vp : Nat}

theorem removeVirtualProcessorLocked_vps :
    (removeVirtualProcessorLocked vp sched).Returned
      (fun _ after => after.vps = sched.vps ∧ after.scheduled = sched.scheduled ∧ after.isAllocated = sched.isAllocated)
      fun _ _ => False := by
  unfold removeVirtualProcessorLocked
  split
  · dsimp only [Outcome.Returned]
    split
    · exact ⟨rfl, rfl, rfl⟩
    · exact ⟨rfl, rfl, rfl⟩
  · trivial

theorem addVirtualProcessorLocked_others (effectivePriority : Int) :
    (addVirtualProcessorLocked vp effectivePriority sched).Returned
      (fun _ after => ∀ other, other ≠ vp → after.vps other = sched.vps other) fun _ _ => False := by
  unfold addVirtualProcessorLocked
  split
  · dsimp only
    split
    · exact fun other different => setVp_of_ne different _
    · trivial
  · trivial

def suspendedOnce (self : VirtualProcessor) : VirtualProcessor :=
  { self with suspensionCount := self.suspensionCount + 1 }

theorem suspend_stopped (stopped : (sched.vps vp).state ≠ .running) :
    (suspend vp sched).Returned
      (fun _ after => (sched.vps vp).suspensionCount ≠ 127 ∧ after.vps = (sched.setVp vp suspendedOnce).vps ∧
        after.scheduled = sched.scheduled ∧ after.isAllocated = sched.isAllocated ∧
        ((sched.vps vp).state = .waiting → after = sched.setVp vp suspendedOnce))
      fun _ after => (sched.vps vp).suspensionCount = 127 ∧ after = sched := by
  unfold suspend
  refine assertAlive_bind fun _ => ?_
  rw [Code.bind_of_ok (Code.get_apply sched)]
  split
  · rename_i full
    exact ⟨full, rfl⟩
  · rename_i room
    rw [Code.bind_of_ok (Code.modify_apply _ _)]
    cases state : (sched.vps vp).state with
    | ready =>
      refine removeVirtualProcessorLocked_vps.mono ?_ fun _ _ => False.elim
      rintro - after ⟨vps, scheduled, isAllocated⟩
      exact ⟨room, vps, scheduled, isAllocated, fun impossible => by simp at impossible⟩
    | running => exact absurd state stopped
    | waiting => exact ⟨room, rfl, rfl, rfl, fun _ => rfl⟩

/-- Somebody who was suspended and does not run is resumed once; its wait goes on. -/
theorem resume_stopped (suspended : 0 < (sched.vps vp).suspensionCount) (stopped : (sched.vps vp).state ≠ .running) :
    (resume vp false sched).Returned
      (fun _ after => (∀ other, other ≠ vp → after.vps other = sched.vps other) ∧
        (after.vps vp).suspensionCount = (sched.vps vp).suspensionCount - 1 ∧
        (after.vps vp).state = (sched.vps vp).state ∧ (after.vps vp).wakeupReason = (sched.vps vp).wakeupReason)
      fun _ _ => False := by
  unfold resume
  refine assertAlive_bind fun _ => ?_
  rw [Code.bind_of_ok (Code.get_apply sched)]
  dsimp only
  rw [if_pos suspended, if_neg Bool.false_ne_true, Code.bind_of_ok (Code.modify_apply _ _)]
  have self_eq := setVp_self sched vp fun self => { self with suspensionCount := (sched.vps vp).suspensionCount - 1 }
  have others : ∀ other, other ≠ vp → (sched.setVp vp fun self =>
      { self with suspensionCount := (sched.vps vp).suspensionCount - 1 }).vps other = sched.vps other :=
    fun other different => setVp_of_ne different _
  have counted : (∀ other, other ≠ vp → (sched.setVp vp fun self =>
        { self with suspensionCount := (sched.vps vp).suspensionCount - 1 }).vps other = sched.vps other) ∧
      ((sched.setVp vp fun self => { self with suspensionCount := (sched.vps vp).suspensionCount - 1 }).vps
        vp).suspensionCount = (sched.vps vp).suspensionCount - 1 ∧
      ((sched.setVp vp fun self => { self with suspensionCount := (sched.vps vp).suspensionCount - 1 }).vps
        vp).state = (sched.vps vp).state ∧
      ((sched.setVp vp fun self => { self with suspensionCount := (sched.vps vp).suspensionCount - 1 }).vps
        vp).wakeupReason = (sched.vps vp).wakeupReason := by
    rw [self_eq]
    exact ⟨others, rfl, rfl, rfl⟩
  split
  · cases state : (sched.vps vp).state with
    | ready =>
      dsimp only
      refine ((addVirtualProcessorLocked_vps _).and (addVirtualProcessorLocked_others _)).mono ?_ fun _ _ => And.left
      rintro - after ⟨⟨added, -⟩, kept⟩
      rw [self_eq] at added
      refine ⟨fun other different => (kept other different).trans (others other different), ?_⟩
      rw [added]
      exact ⟨rfl, rfl, rfl⟩
    | running => exact absurd state stopped
    | waiting =>
      rw [state] at counted
      exact counted
  · exact counted

/-! ## The whole call -/

/-- The change of `abortInvocation`. -/
def abortedOnce (self : VirtualProcessor) : VirtualProcessor := { self with isCallAsUserAborted := true }

variable {fuel : Nat} {isKernelSpace : Bool}

/-- Nobody is interrupted outside of a system call that waits. -/
theorem abortInvocation_awake
    (awake : ¬ (isKernelSpace = true ∧ (sched.vps vp).state = .waiting)) :
    abortInvocation fuel vp isKernelSpace sched = .ok () (sched.setVp vp abortedOnce) := by
  unfold abortInvocation
  rw [Code.bind_of_ok (Code.modify_apply _ _), Code.bind_of_ok (Code.get_apply _)]
  rw [setVp_self, if_neg awake]
  rfl

theorem abortInvocation_waiting {queue : WaitQueueName} (inv : Inv sched nodes dead)
    (ids : (sched.nextVpid : Int) ≤ intMax) (isWaiting : (sched.vps vp).state = .waiting)
    (on : (sched.vps vp).waitingOnWaitQueue = some queue) :
    (abortInvocation fuel vp true sched).Returned
      (fun _ after => Interrupts (sched.setVp vp abortedOnce) (nodes (.wait queue)) after) fun _ _ => False := by
  have marked : Inv (sched.setVp vp abortedOnce) nodes dead := inv.adjust rfl rfl rfl (fun _ => rfl) fun _ => rfl
  unfold abortInvocation
  rw [Code.bind_of_ok (Code.modify_apply _ _), Code.bind_of_ok (Code.get_apply _)]
  rw [setVp_self, if_pos ⟨rfl, isWaiting⟩, on]
  exact wakeUpSome_interrupts marked ids

theorem abortCallAsUser_self (has : sched.running = some vp)
    (isRunning : (sched.vps vp).state = .running) :
    (abortCallAsUser fuel vp isKernelSpace sched).Returned
      (fun _ after => AbortsOnly sched vp isKernelSpace after ↔ Abortable sched vp isKernelSpace) fun _ _ => False := by
  have abortable : Abortable sched vp isKernelSpace := by
    refine ⟨.inl has, fun waits => ?_, fun waits => ?_⟩
    · exact absurd (isRunning.symm.trans waits.2.2) (by simp)
    · exact absurd (isRunning.symm.trans waits.2.2) (by simp)
  have kept : ∀ after : Scheduler, (after.vps vp).suspensionCount = (sched.vps vp).suspensionCount →
      (∀ other, other ≠ vp → after.vps other = sched.vps other) → AbortsOnly sched vp isKernelSpace after := by
    intro after count others
    refine ⟨count, fun other different isWaiting => ?_, fun _ _ can => ?_⟩
    · rw [others other different]
      exact ⟨isWaiting, rfl⟩
    · exact absurd (isRunning.symm.trans can.1) (by simp)
  unfold abortCallAsUser
  rw [Code.bind_of_ok (Code.get_apply sched)]
  dsimp only
  rw [decide_eq_true has, Bool.not_true, if_neg Bool.false_ne_true, Code.bind_of_ok (Code.get_apply sched)]
  by_cases inProgress : (sched.vps vp).isCallAsUserInProgress = true
  · have awake : ¬ (isKernelSpace = true ∧ (sched.vps vp).state = .waiting) := by simp [isRunning]
    rw [if_pos inProgress, Code.bind_of_ok (abortInvocation_awake awake)]
    refine iff_of_true (kept _ ?_ fun other different => setVp_of_ne different _) abortable
    rw [setVp_self]
    rfl
  · rw [if_neg inProgress]
    exact iff_of_true (kept sched rfl fun _ _ => rfl) abortable

/-- The target is suspended and then resumed, and whoever was interrupted meanwhile stays so. -/
theorem abortCallAsUser_other (inv : Inv sched nodes dead)
    (ids : (sched.nextVpid : Int) ≤ intMax) (elsewhere : sched.running ≠ some vp)
    (stopped : (sched.vps vp).state ≠ .running) :
    (abortCallAsUser fuel vp isKernelSpace sched).Returned
      (fun _ after => AbortsOnly sched vp isKernelSpace after ↔ Abortable sched vp isKernelSpace)
      fun _ after => AbortsOnly sched vp isKernelSpace after ↔ Abortable sched vp isKernelSpace := by
  unfold abortCallAsUser
  rw [Code.bind_of_ok (Code.get_apply sched)]
  dsimp only
  rw [decide_eq_false elsewhere, Bool.not_false, if_pos rfl]
  refine Code.returned_bind ((suspend_stopped stopped).mono (fun _ _ => id) ?_) ?_
  · rintro - after ⟨full, same⟩
    rw [same]
    constructor
    · intro only
      refine ⟨.inr (.inr full), fun _ room => absurd full room, fun waits _ => ?_⟩
      rw [← Bool.not_eq_true]
      intro interruptable
      have ready := (only.interrupted waits.1 waits.2.1 ⟨waits.2.2, fun _ => interruptable⟩).1
      exact absurd (ready.symm.trans waits.2.2) (by simp)
    · intro abortable
      refine ⟨rfl, fun other _ isWaiting => ⟨isWaiting, rfl⟩, fun inProgress isKernel can => ?_⟩
      have spared := abortable.uninterruptable ⟨inProgress, isKernel, can.1⟩ full
      exact absurd (can.2 rfl) (by rw [spared]; exact Bool.false_ne_true)
  · rintro - suspended ⟨room, vps, -, -, waits_eq⟩
    have self_eq : suspended.vps vp = suspendedOnce (sched.vps vp) := by
      rw [vps, setVp_self]
    have others_eq : ∀ other, other ≠ vp → suspended.vps other = sched.vps other := by
      intro other different
      rw [vps, setVp_of_ne different]
    rw [Code.bind_of_ok (Code.get_apply suspended)]
    have progress_eq : (suspended.vps vp).isCallAsUserInProgress = (sched.vps vp).isCallAsUserInProgress := by
      rw [self_eq]
      rfl
    rw [progress_eq]
    by_cases inProgress : (sched.vps vp).isCallAsUserInProgress = true
    · rw [if_pos inProgress]
      by_cases waits : isKernelSpace = true ∧ (sched.vps vp).state = .waiting
      · obtain ⟨isKernel, isWaiting⟩ := waits
        subst isKernel
        have same := waits_eq isWaiting
        subst same
        obtain ⟨queue, on, member⟩ := (inv.held.placed vp).waiting isWaiting
        have counted : Inv (sched.setVp vp suspendedOnce) nodes dead :=
          inv.adjust rfl rfl rfl (fun isReady => absurd (isReady.symm.trans isWaiting) (by simp))
            fun awake => absurd isWaiting awake
        have still : ((sched.setVp vp suspendedOnce).vps vp).state = .waiting := by
          rw [self_eq]
          exact isWaiting
        have still_on : ((sched.setVp vp suspendedOnce).vps vp).waitingOnWaitQueue = some queue := by
          rw [self_eq]
          exact on
        refine Code.returned_bind ((abortInvocation_waiting counted ids still still_on).mono (fun _ _ => id)
          fun _ _ => False.elim) ?_
        rintro - middle interrupts
        have marked_self : ((sched.setVp vp suspendedOnce).setVp vp abortedOnce).vps vp =
            abortedOnce (suspendedOnce (sched.vps vp)) := by
          rw [setVp_self, self_eq]
        have marked_others : ∀ other, other ≠ vp →
            ((sched.setVp vp suspendedOnce).setVp vp abortedOnce).vps other = sched.vps other := by
          intro other different
          rw [setVp_of_ne different, others_eq other different]
        have woken := interrupts.woken vp member
        rw [marked_self] at woken
        have spared := interrupts.others vp
        rw [marked_self] at spared
        have target : (middle.vps vp).suspensionCount = (sched.vps vp).suspensionCount + 1 ∧
            (middle.vps vp).state ≠ .running := by
          by_cases can : (sched.vps vp).CanWake .interrupted
          · obtain ⟨isReady, -, count⟩ := woken can
            exact ⟨count, by simp [isReady]⟩
          · rw [spared fun _ => can]
            exact ⟨rfl, stopped⟩
        have positive : 0 < (middle.vps vp).suspensionCount := by omega
        refine (resume_stopped positive target.2).mono ?_ fun _ _ => False.elim
        rintro - after ⟨others, count, state, reason⟩
        constructor
        · intro only
          refine ⟨.inr (.inl inProgress), fun _ _ other different shared can => ?_, fun _ full => absurd full room⟩
          have inQueue := inv.on_queue can.1 (shared.trans on)
          have ended := interrupts.woken other inQueue
          rw [marked_others other different] at ended
          have isReady := (ended can).1
          rw [← others other different] at isReady
          have isWaiting := (only.others other different can.1).1
          exact absurd (isReady.symm.trans isWaiting) (by simp)
        · intro abortable
          refine ⟨?_, fun other different isWaiting => ?_, fun _ _ can => ?_⟩
          · rw [count, target.1]
            rfl
          · have unchanged := interrupts.others other
            rw [marked_others other different] at unchanged
            rw [others other different, unchanged]
            · exact ⟨isWaiting, rfl⟩
            · intro inQueue
              have shared := inv.on_of_mem inQueue
              exact abortable.alone ⟨inProgress, rfl, ‹_›⟩ room other different (shared.trans on.symm)
          · obtain ⟨isReady, wakeupReason, -⟩ := woken can
            exact ⟨state.trans isReady, reason.trans wakeupReason⟩
      · have awake : ¬ (isKernelSpace = true ∧ (suspended.vps vp).state = .waiting) := by
          rw [self_eq]
          exact waits
        rw [Code.bind_of_ok (abortInvocation_awake awake)]
        have marked_self : (suspended.setVp vp abortedOnce).vps vp = abortedOnce (suspendedOnce (sched.vps vp)) := by
          rw [setVp_self, self_eq]
        have positive : 0 < ((suspended.setVp vp abortedOnce).vps vp).suspensionCount := by
          rw [marked_self]
          exact Nat.succ_pos _
        have target : ((suspended.setVp vp abortedOnce).vps vp).state ≠ .running := by
          rw [marked_self]
          exact stopped
        refine (resume_stopped positive target).mono ?_ fun _ _ => False.elim
        rintro - after ⟨others, count, -, -⟩
        rw [marked_self] at count
        refine iff_of_true ⟨count, fun other different isWaiting => ?_, fun _ isKernel can => ?_⟩
          ⟨.inr (.inl inProgress), fun system => ?_, fun system => ?_⟩
        · rw [others other different, setVp_of_ne different, others_eq other different]
          exact ⟨isWaiting, rfl⟩
        · exact absurd ⟨isKernel, can.1⟩ waits
        · exact absurd system.2 waits
        · exact absurd system.2 waits
    · rw [if_neg inProgress]
      refine iff_of_false (fun only => ?_) fun abortable => ?_
      · have count := only.suspensionCount
        rw [self_eq] at count
        exact absurd count (Nat.succ_ne_self _)
      · rcases abortable.resumed with has | progress | full
        · exact elsewhere has
        · exact inProgress progress
        · exact room full

/-! ## Runs -/

theorem abortInvocation_inv (inv : Inv sched nodes dead)
    (unscheduled : sched.scheduled = none) :
    (abortInvocation fuel vp isKernelSpace sched).Returned
      (fun _ after => ∃ nodes, Inv after nodes dead ∧ after.scheduled = none ∧ after.isAllocated = sched.isAllocated)
      fun _ _ => False := by
  have marked : Inv (sched.setVp vp abortedOnce) nodes dead := inv.adjust rfl rfl rfl (fun _ => rfl) fun _ => rfl
  by_cases waits : isKernelSpace = true ∧ (sched.vps vp).state = .waiting
  · obtain ⟨queue, on, -⟩ := (inv.held.placed vp).waiting waits.2
    unfold abortInvocation
    rw [Code.bind_of_ok (Code.modify_apply _ _), Code.bind_of_ok (Code.get_apply _), setVp_self, if_pos waits, on]
    refine (wakeUpSome_kept marked).mono ?_ fun _ _ => id
    rintro - after ⟨nodes', settles, scheduled, isAllocated⟩
    exact ⟨nodes', settles.inv, scheduled.trans unscheduled, isAllocated⟩
  · rw [abortInvocation_awake waits]
    exact ⟨nodes, marked, unscheduled, rfl⟩

theorem abortCallAsUser_inv (inv : Inv sched nodes dead)
    (unscheduled : sched.scheduled = none) (allocated : sched.isAllocated vp = true) :
    (abortCallAsUser fuel vp isKernelSpace sched).Returned (fun _ after => ∃ nodes, Inv after nodes dead)
      fun _ after => ∃ nodes, Inv after nodes dead := by
  have rest : ∀ (middle : Scheduler) (isOther : Bool), (∃ nodes, Inv middle nodes dead) → middle.scheduled = none →
      middle.isAllocated vp = true →
      ((if (middle.vps vp).isCallAsUserInProgress = true then do
          abortInvocation fuel vp isKernelSpace
          if isOther = true then resume vp false
        else pure () : Code Scheduler Errno Unit) middle).Returned (fun _ after => ∃ nodes, Inv after nodes dead)
        fun _ after => ∃ nodes, Inv after nodes dead := by
    rintro middle isOther ⟨nodes', inv'⟩ unscheduled' allocated'
    split
    · refine Code.returned_bind ((abortInvocation_inv inv' unscheduled').mono (fun _ _ => id) fun _ _ => False.elim) ?_
      rintro - after ⟨nodes'', inv'', unscheduled'', isAllocated⟩
      cases isOther with
      | false => exact ⟨nodes'', inv''⟩
      | true =>
        rw [if_pos rfl]
        exact (resume_inv inv'' unscheduled'' (by rw [isAllocated]; exact allocated')).mono
          (fun _ _ => Inv.Steady.inv) fun _ _ => False.elim
    · exact ⟨nodes', inv'⟩
  unfold abortCallAsUser
  rw [Code.bind_of_ok (Code.get_apply sched)]
  by_cases has : sched.running = some vp
  · rw [decide_eq_true has, Bool.not_true, if_neg Bool.false_ne_true]
    exact rest sched false ⟨nodes, inv⟩ unscheduled allocated
  · have stopped : (sched.vps vp).state ≠ .running := fun isRunning => has (inv.states vp isRunning)
    rw [decide_eq_false has, Bool.not_false, if_pos rfl]
    refine Code.returned_bind (((suspend_inv inv unscheduled allocated).and (suspend_stopped stopped)).mono
      (fun _ _ => id) ?_) ?_
    · rintro - after ⟨same, -⟩
      exact ⟨nodes, same ▸ inv⟩
    · rintro - middle ⟨steady, -, -, scheduled, isAllocated, -⟩
      exact rest middle true steady.inv (scheduled.trans unscheduled) (by rw [isAllocated]; exact allocated)

theorem abortStep_inv {label : Action ⊕ (Nat × Bool)} (inv : Inv sched nodes dead) (taken : AbortStep sched label after) :
    ∃ nodes dead', Inv after nodes dead' := by
  cases label with
  | inl action =>
    obtain ⟨nodes', dead', inv', -⟩ := sparingStep_inv inv taken
    exact ⟨nodes', dead', inv'⟩
  | inr target =>
    obtain ⟨unscheduled, allocated, fuel, ends⟩ := taken
    obtain ⟨nodes', inv'⟩ := (abortCallAsUser_inv inv unscheduled allocated).of_state ends
    exact ⟨nodes', dead, inv'⟩

end Target

/-- In every run, an abort keeps its promise exactly if the target can be aborted like this.  Ids of virtual processors
are of type `int`. -/
theorem abortCallAsUser_iff {nsPerQuantum : Int} {labels : List (Action ⊕ (Nat × Bool))}
    {sched after : Scheduler} {vp : Nat} {isKernelSpace : Bool}
    (run : Runs AbortStep (booted nsPerQuantum) labels sched)
    (aborts : AbortStep sched (.inr (vp, isKernelSpace)) after) (ids : (sched.nextVpid : Int) ≤ intMax) :
    AbortsOnly sched vp isKernelSpace after ↔ Abortable sched vp isKernelSpace := by
  have reached : ∃ nodes dead, Inv sched nodes dead := by
    refine run.invariant (fun sched => ∃ nodes dead, Inv sched nodes dead) ?_ ?_
    · obtain ⟨nodes, inv⟩ := booted_inv nsPerQuantum
      exact ⟨nodes, [], inv⟩
    · rintro label state next ⟨nodes, dead, inv⟩ taken
      exact abortStep_inv inv taken
  obtain ⟨nodes, dead, inv⟩ := reached
  obtain ⟨unscheduled, -, fuel, ends⟩ := aborts
  by_cases has : sched.running = some vp
  · have isRunning := inv.current unscheduled vp has
    exact ((abortCallAsUser_self has isRunning).mono (fun _ _ => id) fun _ _ => False.elim).of_state ends
  · have stopped : (sched.vps vp).state ≠ .running := fun isRunning => has (inv.states vp isRunning)
    exact (abortCallAsUser_other inv ids has stopped).of_state ends

def performAbort (sched : Scheduler) : Action ⊕ (Nat × Bool) → Option Scheduler
  | .inl action => performSparing sched action
  | .inr (vp, isKernelSpace) =>
    if sched.scheduled = none ∧ sched.isAllocated vp = true then (abortCallAsUser 8 vp isKernelSpace sched).state?
    else none

theorem performAbort_abortStep (sched : Scheduler) (label : Action ⊕ (Nat × Bool)) (after : Scheduler)
    (performs : performAbort sched label = some after) : AbortStep sched label after := by
  cases label with
  | inl action => exact performSparing_step sched action after performs
  | inr target =>
    unfold performAbort at performs
    dsimp only at performs
    split at performs
    · rename_i enabled
      exact ⟨enabled.1, enabled.2, 8, performs⟩
    · exact absurd performs (by simp)

/-- Two virtual processors with higher priorities wait on the same wait queue, the second one in a system call of an
invocation. -/
def sharingActions : List (Action ⊕ (Nat × Bool)) :=
  [.inl .switchContext, .inl .finishBoot, .inl .create, .inl .create, .inl (.resume 2 false),
    .inl (.resume 3 false), .inl (.setCallAsUser 3 true false), .inl (.waitOn .scheduler none false),
    .inl (.waitOn (.other 0) none true), .inl (.waitOn (.other 0) none true)]

/-- Alone on the wait queue, the system call is interrupted. -/
theorem abortCallAsUser_iff_alone :
    ∃ sched after, performAll performAbort
        [.inl .switchContext, .inl .finishBoot, .inl .create, .inl (.resume 2 false),
          .inl (.setCallAsUser 2 true false), .inl (.waitOn .scheduler none false), .inl (.waitOn (.other 0) none true)]
        (booted 16761906) = some sched ∧
      performAbort sched (.inr (2, true)) = some after ∧ (after.vps 2).wakeupReason = some .interrupted ∧
      (AbortsOnly sched 2 true after ↔ Abortable sched 2 true) := by
  have performs : ((performAll performAbort
      [.inl .switchContext, .inl .finishBoot, .inl .create, .inl (.resume 2 false),
        .inl (.setCallAsUser 2 true false), .inl (.waitOn .scheduler none false), .inl (.waitOn (.other 0) none true)]
      (booted 16761906)).bind fun sched => (performAbort sched (.inr (2, true))).map fun after =>
        ((after.vps 2).wakeupReason, decide ((sched.nextVpid : Int) ≤ intMax))) =
      some (some .interrupted, true) := by decide +kernel
  obtain ⟨sched, reaches, performs⟩ := Option.bind_eq_some_iff.mp performs
  obtain ⟨after, aborts, ends⟩ := Option.map_eq_some_iff.mp performs
  obtain ⟨reason, ids⟩ := Prod.mk.inj ends
  have run := Runs.performAll_labels performAbort_abortStep .nil reaches
  exact ⟨sched, after, reaches, aborts, reason,
    abortCallAsUser_iff run (performAbort_abortStep _ _ _ aborts) (of_decide_eq_true ids)⟩

/-- A virtual processor that is in no invocation stays suspended, and whoever shares the wait queue of one that is in an
invocation is interrupted. -/
theorem sharingActions_interrupts :
    ∃ sched idle shared, (∃ labels, Runs AbortStep (booted 16761906) labels sched) ∧
      AbortStep sched (.inr (2, true)) idle ∧ (sched.vps 2).suspensionCount = 0 ∧ (idle.vps 2).suspensionCount = 1 ∧
      ¬ AbortsOnly sched 2 true idle ∧
      AbortStep sched (.inr (3, true)) shared ∧ (sched.vps 2).state = .waiting ∧ (shared.vps 2).state = .ready ∧
      (shared.vps 2).wakeupReason = some .interrupted ∧ ¬ AbortsOnly sched 3 true shared := by
  have performs : ((performAll performAbort sharingActions (booted 16761906)).bind fun sched =>
      (performAbort sched (.inr (2, true))).bind fun idle => (performAbort sched (.inr (3, true))).map fun shared =>
        ((sched.vps 2).suspensionCount, (idle.vps 2).suspensionCount, (sched.vps 2).state, (shared.vps 2).state,
          (shared.vps 2).wakeupReason)) =
      some (0, 1, .waiting, .ready, some .interrupted) := by decide +kernel
  obtain ⟨sched, reaches, performs⟩ := Option.bind_eq_some_iff.mp performs
  obtain ⟨idle, abortsIdle, performs⟩ := Option.bind_eq_some_iff.mp performs
  obtain ⟨shared, abortsShared, ends⟩ := Option.map_eq_some_iff.mp performs
  simp only [Prod.mk.injEq] at ends
  obtain ⟨resumed, suspended, isWaiting, isReady, reason⟩ := ends
  have run := Runs.performAll performAbort_abortStep .nil reaches
  refine ⟨sched, idle, shared, run, performAbort_abortStep _ _ _ abortsIdle, resumed, suspended, fun only => ?_,
    performAbort_abortStep _ _ _ abortsShared, isWaiting, isReady, reason, fun only => ?_⟩
  · have same := only.suspensionCount
    rw [resumed, suspended] at same
    exact absurd same (by decide)
  · have still := (only.others 2 (by decide) isWaiting).1
    exact absurd (isReady.symm.trans still) (by simp)

end Apollo.Dispatcher.VirtualProcessorScheduler
