import Apollo.Dispatcher.SchedulerSteps

/-!
# Priorities

`AddVirtualProcessor_Locked` indexes the ready queue with a priority that nobody
checks.  While the priorities that are set have a list, and no wait lasts for
2 ^ 31 quantums, whoever is resumed, preempted or woken up is put on a list.
-/

set_option autoImplicit false

namespace Apollo.Dispatcher.VirtualProcessorScheduler

open Driver
open Klib
open Lib
open TimeInterval

/-- The priorities have a list, and those that wait are not woken up with a lower one. -/
structure Scheduler.Indexed (sched : Scheduler) : Prop where
  ranked : ∀ vp, (sched.vps vp).Ranked
  sleeps : ∀ vp, (sched.vps vp).state = .waiting → 0 ≤ slept sched vp
  quantums : 0 ≤ sched.quantumsPerQuarterSecond
  clock : 0 < sched.clock.nsPerQuantum

/-- A priority that is set has a list, and at an interrupt of the clock nobody has been waiting for 2 ^ 31 - 1
quantums yet. -/
def Action.isTame (sched : Scheduler) : Action → Bool
  | .setPriority _ priority => decide (0 ≤ priority ∧ priority < 64)
  | .onClockInterrupt =>
    decide (∀ vp < sched.nextVpid, (sched.vps vp).state = .waiting → slept sched vp < 2147483647)
  | _ => true

section Steps
variable {sched after : Scheduler} {nodes nodes' : Queues} {dead : List Nat} {action : Action} {vp : Nat}

theorem Scheduler.Indexed.calm (indexed : sched.Indexed) (calm : sched.Calm after) : after.Indexed := by
  refine ⟨fun vp => (calm.same vp).ranked (indexed.ranked vp), fun vp isWaiting => ?_, ?_, ?_⟩
  · have before := (calm.same vp).waiting.mp isWaiting
    unfold slept
    rw [calm.clock, (calm.same vp).since before]
    exact indexed.sleeps vp before
  · rw [calm.quantumsPerQuarterSecond]
    exact indexed.quantums
  · rw [calm.clock]
    exact indexed.clock

theorem Scheduler.Indexed.woken {reason : WakeUpReason} (indexed : sched.Indexed)
    (woken : sched.Woken nodes vp reason after nodes') : after.Indexed := by
  refine ⟨fun other => ?_, fun other isWaiting => ?_, ?_, ?_⟩
  · by_cases same : other = vp
    · rw [same]
      exact woken.ranked (indexed.ranked vp)
    · rw [woken.others other same]
      exact indexed.ranked other
  · have different : other ≠ vp := by
      rintro rfl
      exact absurd (woken.isReady.symm.trans isWaiting) (by simp)
    unfold slept
    rw [woken.others other different] at isWaiting ⊢
    rw [woken.clock]
    exact indexed.sleeps other isWaiting
  · rw [woken.quantumsPerQuarterSecond]
    exact indexed.quantums
  · rw [woken.clock]
    exact indexed.clock

theorem Scheduler.Indexed.settles (indexed : sched.Indexed) (settles : Settles dead sched nodes after nodes') :
    after.Indexed := by
  induction settles with
  | refl _ => exact indexed
  | calm _ _ same _ ih => exact ih.calm same
  | woken _ _ _ ended ih => exact ih.woken ended

theorem Scheduler.Indexed.arm (indexed : sched.Indexed) (vp : Nat) (deadline : TimeInterval) :
    (armTimeout sched vp deadline).Indexed := by
  have vps := armTimeout_vps sched vp deadline
  refine ⟨fun other => ?_, fun other isWaiting => ?_, indexed.quantums, indexed.clock⟩
  · rw [vps]
    exact ⟨(indexed.ranked other).priority, (indexed.ranked other).effective⟩
  · unfold slept
    rw [vps] at isWaiting ⊢
    exact indexed.sleeps other isWaiting

theorem Scheduler.Indexed.waited {queue : WaitQueueName} (indexed : sched.Indexed)
    (waited : sched.Waited nodes vp queue after nodes') : after.Indexed := by
  refine ⟨fun other => ?_, fun other isWaiting => ?_, ?_, ?_⟩
  · by_cases same : other = vp
    · rw [same]
      exact waited.ranked (indexed.ranked vp)
    · exact (waited.others other same).ranked (indexed.ranked other)
  · unfold slept
    rw [waited.clock]
    by_cases same : other = vp
    · rw [same, waited.since, Int.sub_self]
      decide
    · have before := (waited.others other same).waiting.mp isWaiting
      rw [(waited.others other same).since before]
      exact indexed.sleeps other before
  · rw [waited.quantumsPerQuarterSecond]
    exact indexed.quantums
  · rw [waited.clock]
    exact indexed.clock

theorem Inv.waiting_lt (inv : Inv sched nodes dead) (isWaiting : (sched.vps vp).state = .waiting) :
    vp < sched.nextVpid := by
  by_contra fresh
  obtain ⟨queue, -, member⟩ := (inv.held.placed vp).waiting isWaiting
  exact inv.held.fresh_absent (Nat.not_lt.mp fresh) _ member

theorem Scheduler.Indexed.tick (indexed : sched.Indexed)
    (short : ∀ vp, (sched.vps vp).state = .waiting → slept sched vp < 2147483647) :
    Scheduler.Indexed { sched with clock := sched.clock.onInterrupt } := by
  refine ⟨indexed.ranked, fun vp isWaiting => ?_, indexed.quantums, indexed.clock⟩
  have low := indexed.sleeps vp isWaiting
  have high := short vp isWaiting
  have next : slept { sched with clock := sched.clock.onInterrupt } vp = toLong (slept sched vp + 1) := by
    unfold slept MonotonicClock.onInterrupt
    dsimp only
    rw [Int.sub_eq_add_neg, toLong_add, toLong_add]
    congr 1
    omega
  rw [next, toLong_eq_self (by omega) (by omega)]
  omega

theorem armed_pos {clock : MonotonicClock} (positive : 0 < clock.nsPerQuantum) : 0 < clock.armed ⟨0, 250000000⟩ := by
  have canonical : (⟨0, 250000000⟩ : TimeInterval).Canonical := by decide
  have whole : (⟨0, 250000000⟩ : TimeInterval).nanos = 250000000 := by decide
  have count_le := @ceilQuantums_le_iff _ 250000000 positive
  have least : ¬ ceilQuantums clock.nsPerQuantum 250000000 ≤ 0 := by
    rw [count_le]
    omega
  have most : ceilQuantums clock.nsPerQuantum 250000000 ≤ 250000000 := by
    rw [count_le]
    omega
  have exact_count := (armed_eq_iff positive canonical).mpr (by rw [whole]; omega)
  rw [whole] at exact_count
  change 0 < (MonotonicClock.createForLocalCPU clock.nsPerQuantum).armed ⟨0, 250000000⟩
  omega

theorem step_indexed (inv : Inv sched nodes dead) (indexed : sched.Indexed) (taken : Step sched action after)
    (tame : action.isTame sched = true) (spares : action = .terminate → sched.Spares) : after.Indexed := by
  have settled : action.Settling → after.Indexed := by
    intro settling
    obtain ⟨nodes', settles⟩ := step_settles inv taken settling
    exact indexed.settles settles
  cases action with
  | onClockInterrupt =>
    rw [onClockInterrupt_step taken]
    exact indexed.tick fun vp isWaiting => of_decide_eq_true tame vp (inv.waiting_lt isWaiting) isWaiting
  | waitOn queue deadline isInterruptable =>
    rcases waitOn_step inv taken with same | ⟨vp, -, -, nodes', -, waited⟩
    · exact same ▸ indexed
    · cases deadline with
      | none => exact indexed.waited waited
      | some deadline => exact (indexed.arm vp deadline.time).waited waited
  | finishBoot =>
    obtain ⟨nodes', -, calm, -⟩ := finishBoot_step inv taken
    have timed : sched.timed.Indexed :=
      ⟨indexed.ranked, indexed.sleeps, (armed_pos indexed.clock).le, indexed.clock⟩
    exact timed.calm calm
  | terminate =>
    obtain ⟨self, owns, -⟩ := inv.owner
    have has : sched.running = some self := by
      rw [Scheduler.owner, show sched.scheduled = none from taken.1] at owns
      exact owns
    exact indexed.calm (terminate_step inv taken has (spares rfl)).1
  | takeDeadVps => exact indexed.calm (takeDeadVps_step inv taken).1
  | destroyDeadVp => exact indexed.calm (destroyDeadVp_step inv taken).1
  | setPriority vp priority =>
    have listed : 0 ≤ priority ∧ priority < 64 := of_decide_eq_true tame
    exact settled listed
  | _ => exact settled trivial

theorem bootMemory_ranked (vp : Nat) : (bootMemory.vps vp).Ranked := by
  unfold bootMemory
  dsimp only
  split
  · exact ⟨by decide, by decide⟩
  · exact ⟨by decide, by decide⟩

theorem booted_indexed {nsPerQuantum : Int} (positive : 0 < nsPerQuantum) : (booted nsPerQuantum).Indexed := by
  refine ⟨fun vp => (created_calm.same vp).ranked (bootMemory_ranked vp), fun vp isWaiting => ?_, ?_, positive⟩
  · have before := (created_calm.same vp).waiting.mp isWaiting
    rw [bootMemory_state] at before
    exact absurd before (by simp)
  · exact le_of_eq created_calm.quantumsPerQuarterSecond.symm

/-! ## Who is put on a list -/

theorem readyIndex?_of_ranked {priority : Int} (listed : 0 ≤ priority ∧ priority < 64) :
    ∃ pri, readyIndex? (toInt8 priority) = some pri := by
  rw [toInt8_eq_self listed.1 listed.2]
  unfold readyIndex?
  exact ⟨priority.toNat, if_pos listed⟩

theorem boostedPriority_listed (indexed : sched.Indexed) (isWaiting : (sched.vps vp).state = .waiting) :
    0 ≤ boostedPriority sched vp ∧ boostedPriority sched vp < 64 := by
  have quarters : 0 ≤ (slept sched vp).tdiv sched.quantumsPerQuarterSecond :=
    Int.tdiv_nonneg (indexed.sleeps vp isWaiting) indexed.quantums
  obtain ⟨low, -⟩ := (indexed.ranked vp).effective
  unfold boostedPriority
  dsimp only
  rw [toInt8_eq_self (by omega) (by omega)]
  omega

theorem addVirtualProcessorLocked_returns (unlinked : sched.rewaQueueEntries vp = ListNode.init)
    (resumed : (sched.vps vp).suspensionCount = 0) {priority : Int} (listed : 0 ≤ priority ∧ priority < 64) :
    ∃ after, addVirtualProcessorLocked vp priority sched = .ok () after := by
  obtain ⟨pri, found⟩ := readyIndex?_of_ranked listed
  unfold addVirtualProcessorLocked
  rw [unlinked, if_pos ⟨rfl, rfl, resumed⟩]
  dsimp only
  rw [setVp_self]
  simp only [madeReady, found]
  exact ⟨_, rfl⟩

theorem Inv.yields (inv : Inv sched nodes dead) (indexed : sched.Indexed) (unscheduled : sched.scheduled = none)
    (has : sched.running = some vp) :
    ∃ after, addVirtualProcessorLocked vp (sched.vps vp).priority sched = .ok () after := by
  have loose := inv.running_loose unscheduled has
  exact addVirtualProcessorLocked_returns (inv.held.entered.detached vp loose.alive loose.absent) loose.resumed
    (indexed.ranked vp).priority

theorem Inv.resumes (inv : Inv sched nodes dead) (indexed : sched.Indexed) (alive : sched.Alive vp)
    (isReady : (sched.vps vp).state = .ready) (force : Bool) : ∃ after, resume vp force sched = .ok () after := by
  have asserted : assertAlive vp sched = .ok () sched := by
    unfold assertAlive
    rw [alive.2, if_neg Bool.false_ne_true]
  unfold resume
  rw [Code.bind_of_ok asserted, Code.bind_of_ok (Code.get_apply sched)]
  dsimp only
  split
  · rename_i suspended
    generalize (if force = true then 0 else (sched.vps vp).suspensionCount - 1) = count
    rw [Code.bind_of_ok (Code.modify_apply _ _), isReady]
    split
    · rename_i last
      have absent := inv.suspended_absent alive (by omega) (by simp [isReady])
      have unlinked : (sched.setVp vp fun self => { self with suspensionCount := count }).rewaQueueEntries vp =
          ListNode.init := inv.held.entered.detached vp alive absent
      refine addVirtualProcessorLocked_returns unlinked ?_ (indexed.ranked vp).priority
      rw [setVp_self]
      exact last
    · exact ⟨_, rfl⟩
  · exact ⟨_, rfl⟩

theorem Inv.wakes (inv : Inv sched nodes dead) (indexed : sched.Indexed) {queue : WaitQueueName}
    (isWaiting : (sched.vps vp).state = .waiting) (on : (sched.vps vp).waitingOnWaitQueue = some queue)
    (timed : sched.quantumsPerQuarterSecond ≠ 0) (reason : WakeUpReason) :
    ∃ after, wakeUpOne queue vp reason false sched = .ok () after := by
  have member := inv.on_queue isWaiting on
  obtain ⟨front, back, split⟩ := List.append_of_mem member
  have touched : sched.Touched vp ((finishWait sched queue vp reason).setVp vp fun self =>
      { self with state := .ready }) := (finishWait_touched sched queue vp reason).trans (setVp_touched rfl)
  have alive := touched.alive.mpr ((inv.held.placed vp).waits queue member).1
  have unlinked : (finishWait sched queue vp reason).rewaQueueEntries vp = ListNode.init :=
    (finishWait_held inv.held split reason).entered.detached vp alive fun _ => inv.held.entered.removed_absent split
  have clock := finishWait_clock sched queue vp reason
  have boosted : boostedPriority (finishWait sched queue vp reason) vp = boostedPriority sched vp := by
    unfold boostedPriority slept
    rw [clock.1, clock.2, finishWait_vps]
    rfl
  unfold wakeUpOne
  rw [if_neg (not_not.mpr isWaiting)]
  split
  · exact ⟨_, rfl⟩
  · by_cases resumed : ((finishWait sched queue vp reason).vps vp).suspensionCount = 0
    · obtain ⟨after, returns⟩ := addVirtualProcessorLocked_returns unlinked resumed
        (boosted.symm ▸ boostedPriority_listed indexed isWaiting)
      rw [if_pos resumed, clock.2, if_neg timed, Code.bind_of_ok returns]
      exact ⟨after, rfl⟩
    · rw [if_neg resumed]
      exact ⟨_, rfl⟩

end Steps

end Apollo.Dispatcher.VirtualProcessorScheduler
