import Apollo.Dispatcher.Switching

/-!
# Waiting and waking up

`WaitOn`, the functions that wake up, and the end of a quantum keep the
invariant.  The next waiter of a loop stays on its wait queue while the current
one leaves it.
-/

set_option autoImplicit false

namespace Apollo.Dispatcher.VirtualProcessorScheduler

open Klib
open Lib

section WakeUps
variable {sched after : Scheduler} {nodes nodes' : Queues} {dead cover front back : List Nat} {vp : Nat}
  {queue : WaitQueueName} {reason : WakeUpReason}

theorem Scheduler.Touched.trans {first second third : Scheduler} (one : first.Touched vp second)
    (two : second.Touched vp third) : first.Touched vp third :=
  ⟨two.running.trans one.running, two.scheduled.trans one.scheduled, two.isAllocated.trans one.isAllocated,
    fun other different => (two.others other different).trans (one.others other different),
    two.kept.trans one.kept⟩

theorem Scheduler.Touched.alive (touched : sched.Touched vp after) {other : Nat} :
    after.Alive other ↔ sched.Alive other := by
  unfold Scheduler.Alive
  rw [touched.isAllocated]
  by_cases same : other = vp
  · rw [same, touched.kept]
  · rw [touched.others other same]

theorem setVp_touched {change : VirtualProcessor → VirtualProcessor}
    (kept : (change (sched.vps vp)).isTerminated = (sched.vps vp).isTerminated) :
    sched.Touched vp (sched.setVp vp change) := by
  refine ⟨rfl, rfl, rfl, fun other different => setVp_of_ne different change, ?_⟩
  rw [setVp_self]
  exact kept

theorem Loose.touched {other : Nat} (loose : Loose sched nodes other) (touched : sched.Touched vp after)
    (different : other ≠ vp) (members : ∀ name, other ∈ nodes' name ↔ other ∈ nodes name) :
    Loose after nodes' other := by
  refine ⟨touched.alive.mpr loose.alive, ?_, ?_, ?_⟩
  · rw [touched.others other different]
    exact loose.resumed
  · rw [touched.others other different]
    exact loose.awake
  · intro name
    rw [members]
    exact loose.absent name

/-- Nobody has given up the CPU when a virtual processor that does not have it becomes ready. -/
theorem Inv.touched (inv : Inv sched nodes dead) (held : Held after nodes' dead sched.owner.toList)
    (touched : sched.Touched vp after) (elsewhere : sched.owner ≠ some vp) (isReady : (after.vps vp).state ≠ .running)
    (stopped : sched.scheduled = none → (sched.vps vp).state ≠ .running)
    (members : ∀ name other, other ≠ vp → (other ∈ nodes' name ↔ other ∈ nodes name)) : Inv after nodes' dead := by
  have owner : after.owner = sched.owner := by
    unfold Scheduler.owner
    rw [touched.running, touched.scheduled]
  refine ⟨?_, ?_, ?_, ?_, ?_⟩
  · rw [owner]
    exact held
  · obtain ⟨self, owns, loose⟩ := inv.owner
    have different : self ≠ vp := by
      rintro rfl
      exact elsewhere owns
    exact ⟨self, owner.trans owns, loose.touched touched different fun name => members name self different⟩
  · intro other isRunning
    have different : other ≠ vp := by
      rintro rfl
      exact isReady isRunning
    rw [touched.others other different] at isRunning
    exact touched.running.trans (inv.states other isRunning)
  · intro unscheduled other has
    rw [touched.scheduled] at unscheduled
    rw [touched.running] at has
    have isRunning := inv.current unscheduled other has
    have different : other ≠ vp := by
      rintro rfl
      exact stopped unscheduled isRunning
    rw [touched.others other different]
    exact isRunning
  · intro other has
    rw [touched.running] at has
    exact touched.alive.mpr (inv.alive other has)

/-- A change that neither a list nor the CPU has to do with. -/
theorem Inv.adjust {change : VirtualProcessor → VirtualProcessor} (inv : Inv sched nodes dead)
    (kept : (change (sched.vps vp)).isTerminated = (sched.vps vp).isTerminated)
    (state : (change (sched.vps vp)).state = (sched.vps vp).state)
    (queue : (change (sched.vps vp)).waitingOnWaitQueue = (sched.vps vp).waitingOnWaitQueue)
    (priority : (sched.vps vp).state = .ready →
      (change (sched.vps vp)).effectivePriority = (sched.vps vp).effectivePriority)
    (count : (sched.vps vp).state ≠ .waiting →
      (change (sched.vps vp)).suspensionCount = (sched.vps vp).suspensionCount) :
    Inv (sched.setVp vp change) nodes dead := by
  have touched : sched.Touched vp (sched.setVp vp change) := setVp_touched kept
  have states : ∀ other, ((sched.setVp vp change).vps other).state = (sched.vps other).state := by
    intro other
    by_cases same : other = vp
    · rw [same, setVp_self, state]
    · rw [setVp_of_ne same]
  refine ⟨inv.held.adjust kept state queue priority count, ?_, ?_, ?_, ?_⟩
  · obtain ⟨self, owns, loose⟩ := inv.owner
    refine ⟨self, owns, touched.alive.mpr loose.alive, ?_, ?_, loose.absent⟩
    · by_cases same : self = vp
      · rw [same] at loose ⊢
        rw [setVp_self, count loose.awake]
        exact loose.resumed
      · rw [setVp_of_ne same]
        exact loose.resumed
    · rw [states]
      exact loose.awake
  · intro other
    rw [states]
    exact inv.states other
  · intro unscheduled other
    rw [states]
    exact inv.current unscheduled other
  · intro other has
    exact touched.alive.mpr (inv.alive other has)

def finishedWait (reason : WakeUpReason) (self : VirtualProcessor) : VirtualProcessor :=
  { self with
    deadline := none
    waitingOnWaitQueue := none
    wakeupReason := some reason
    isInterruptableWait := false }

theorem finishWait_eq (sched : Scheduler) (queue : WaitQueueName) (vp : Nat) (reason : WakeUpReason) :
    ∃ timeouts, finishWait sched queue vp reason =
      { (sched.remove (.wait queue) vp).setVp vp (finishedWait reason) with timeoutQueue := timeouts } := by
  unfold finishWait cancelTimeout
  split
  · simp [Scheduler.setVp, Function.update_idem, finishedWait]
  · rename_i valid
    rw [not_not] at valid
    simp [Scheduler.setVp, finishedWait, valid]

theorem finishWait_touched (sched : Scheduler) (queue : WaitQueueName) (vp : Nat) (reason : WakeUpReason) :
    sched.Touched vp (finishWait sched queue vp reason) := by
  obtain ⟨timeouts, same⟩ := finishWait_eq sched queue vp reason
  rw [same]
  refine ⟨rfl, rfl, rfl, fun other different => Function.update_of_ne different _ _, ?_⟩
  have self_eq := Function.update_self vp (finishedWait reason (sched.vps vp)) sched.vps
  exact (congrArg VirtualProcessor.isTerminated self_eq).trans rfl

/-- Off the wait queue and ready, a virtual processor still has to be put on the ready queue. -/
theorem finishWait_held (held : Held sched nodes dead cover) (split : nodes (.wait queue) = front ++ vp :: back)
    (reason : WakeUpReason) :
    Held ((finishWait sched queue vp reason).setVp vp fun self => { self with state := .ready })
      (Function.update nodes (.wait queue) (front ++ back)) dead (vp :: cover) := by
  obtain ⟨timeouts, same⟩ := finishWait_eq sched queue vp reason
  have left : Held ((sched.remove (.wait queue) vp).setVp vp fun self =>
      { finishedWait reason self with state := .ready }) _ dead (vp :: cover) :=
    held.leaveWait split rfl (by simp)
  refine left.congr ?_ ?_ ?_ ?_ ?_ ?_ ?_
  · rw [same]
    simp [Scheduler.setVp, Function.update_idem]
  all_goals
    rw [same]
    rfl

theorem addVirtualProcessorLocked_ready (effectivePriority : Int) :
    addVirtualProcessorLocked vp effectivePriority (sched.setVp vp fun self => { self with state := .ready }) =
      addVirtualProcessorLocked vp effectivePriority sched := by
  unfold addVirtualProcessorLocked
  simp [Scheduler.setVp, Function.update_idem, madeReady]

theorem Inv.waiting_idle (inv : Inv sched nodes dead) (isWaiting : (sched.vps vp).state = .waiting) :
    sched.owner ≠ some vp := by
  obtain ⟨self, owns, loose⟩ := inv.owner
  intro same
  rw [Option.some.inj (owns.symm.trans same)] at loose
  exact loose.awake isWaiting

theorem Inv.on_queue (inv : Inv sched nodes dead) (isWaiting : (sched.vps vp).state = .waiting)
    (on : (sched.vps vp).waitingOnWaitQueue = some queue) : vp ∈ nodes (.wait queue) := by
  obtain ⟨name, named, member⟩ := (inv.held.placed vp).waiting isWaiting
  rw [Option.some.inj (on.symm.trans named)]
  exact member

structure Scheduler.Woken (sched : Scheduler) (nodes : Queues) (vp : Nat) (reason : WakeUpReason) (after : Scheduler)
    (nodes' : Queues) : Prop extends Scheduler.Touched sched vp after where
  isReady : (after.vps vp).state = .ready
  deadline : (after.vps vp).deadline = none
  wakeupReason : (after.vps vp).wakeupReason = some reason
  suspensionCount : (after.vps vp).suspensionCount = (sched.vps vp).suspensionCount
  ranked : (sched.vps vp).Ranked → (after.vps vp).Ranked
  timeoutQueue : after.timeoutQueue =
    if (sched.vps vp).deadline = none then sched.timeoutQueue else sched.timeoutQueue.erase vp
  clock : after.clock = sched.clock
  quantumsPerQuarterSecond : after.quantumsPerQuarterSecond = sched.quantumsPerQuarterSecond
  waits : ∀ queue, nodes' (.wait queue) = (nodes (.wait queue)).erase vp

def Inv.Woken (sched : Scheduler) (nodes : Queues) (dead : List Nat) (vp : Nat) (reason : WakeUpReason)
    (after : Scheduler) : Prop :=
  ∃ nodes', Inv after nodes' dead ∧ sched.Woken nodes vp reason after nodes'

/-- Whoever waits is woken up, but by an interruption only if the wait can be interrupted. -/
def VirtualProcessor.CanWake (self : VirtualProcessor) (reason : WakeUpReason) : Prop :=
  self.state = .waiting ∧ (reason = .interrupted → self.isInterruptableWait = true)

theorem finishWait_vps (sched : Scheduler) (queue : WaitQueueName) (vp : Nat) (reason : WakeUpReason) :
    (finishWait sched queue vp reason).vps vp = finishedWait reason (sched.vps vp) := by
  obtain ⟨timeouts, same⟩ := finishWait_eq sched queue vp reason
  rw [same]
  exact setVp_self (sched.remove (.wait queue) vp) vp (finishedWait reason)

theorem finishWait_timeoutQueue (sched : Scheduler) (queue : WaitQueueName) (vp : Nat) (reason : WakeUpReason) :
    (finishWait sched queue vp reason).timeoutQueue =
      if (sched.vps vp).deadline = none then sched.timeoutQueue else sched.timeoutQueue.erase vp := by
  unfold finishWait cancelTimeout
  by_cases none : (sched.vps vp).deadline = none
  · have invalid : ¬ ((sched.remove (.wait queue) vp).vps vp).deadline ≠ .none := fun valid => valid none
    rw [if_pos none, if_neg invalid]
    rfl
  · have valid : ((sched.remove (.wait queue) vp).vps vp).deadline ≠ .none := none
    rw [if_neg none, if_pos valid]
    rfl

theorem finishWait_clock (sched : Scheduler) (queue : WaitQueueName) (vp : Nat) (reason : WakeUpReason) :
    (finishWait sched queue vp reason).clock = sched.clock ∧
      (finishWait sched queue vp reason).quantumsPerQuarterSecond = sched.quantumsPerQuarterSecond := by
  obtain ⟨timeouts, same⟩ := finishWait_eq sched queue vp reason
  rw [same]
  exact ⟨rfl, rfl⟩

theorem Entered.erase_waits (entered : Entered sched nodes) (split : nodes (.wait queue) = front ++ vp :: back)
    (other : WaitQueueName) :
    Function.update nodes (.wait queue) (front ++ back) (.wait other) = (nodes (.wait other)).erase vp := by
  by_cases same : other = queue
  · have nodup := (entered.shelved.holds (.wait queue)).nodup
    rw [split, List.perm_middle.nodup_iff, List.nodup_cons, List.mem_append, not_or] at nodup
    rw [same, Function.update_self, split, List.erase_append_right _ nodup.1.1, List.erase_cons_head]
  · have elsewhere : vp ∉ nodes (.wait other) := by
      intro member
      have here : vp ∈ nodes (.wait queue) := by simp [split]
      exact same (QueueName.wait.inj (entered.shelved.apart _ _ vp member here))
    rw [Function.update_of_ne fun equal => same (QueueName.wait.inj equal), List.erase_of_not_mem elsewhere]

/-- A suspended virtual processor becomes ready without being put on the ready queue. -/
theorem finishWait_suspended (inv : Inv sched nodes dead) (isWaiting : (sched.vps vp).state = .waiting)
    (on : (sched.vps vp).waitingOnWaitQueue = some queue) (reason : WakeUpReason)
    (suspended : ((finishWait sched queue vp reason).vps vp).suspensionCount ≠ 0) :
    Inv.Woken sched nodes dead vp reason
      ((finishWait sched queue vp reason).setVp vp fun self => { self with state := .ready }) := by
  obtain ⟨front, back, split⟩ := List.append_of_mem (inv.on_queue isWaiting on)
  have touched : sched.Touched vp ((finishWait sched queue vp reason).setVp vp fun self =>
      { self with state := .ready }) := (finishWait_touched sched queue vp reason).trans (setVp_touched rfl)
  have self_eq := setVp_self (finishWait sched queue vp reason) vp fun self => { self with state := .ready }
  have held := finishWait_held inv.held split reason
  have covered : Held ((finishWait sched queue vp reason).setVp vp fun self => { self with state := .ready })
      (Function.update nodes (.wait queue) (front ++ back)) dead sched.owner.toList := by
    refine ⟨held.entered, held.mapped, held.walk, ?_⟩
    intro other
    by_cases same : other = vp
    · rw [same]
      refine (held.placed vp).unlisted (fun _ => inv.held.entered.removed_absent split) rfl rfl rfl ?_ ?_
      · simp
      · intro _ resumed
        rw [self_eq] at resumed
        exact absurd resumed suspended
    · exact (held.placed other).congr rfl rfl rfl (fun _ => Iff.rfl) Iff.rfl
        fun member => (List.mem_cons.mp member).resolve_left same
  have reached : Inv ((finishWait sched queue vp reason).setVp vp fun self => { self with state := .ready })
      (Function.update nodes (.wait queue) (front ++ back)) dead := by
    refine inv.touched covered touched (inv.waiting_idle isWaiting) ?_ ?_ fun name other => mem_removed split
    · simp
    · rw [isWaiting]
      simp
  rw [finishWait_vps] at self_eq
  refine ⟨_, reached, touched, ?_, ?_, ?_, ?_, ?_, finishWait_timeoutQueue sched queue vp reason,
    (finishWait_clock sched queue vp reason).1, (finishWait_clock sched queue vp reason).2,
    inv.held.entered.erase_waits split⟩
  · rw [self_eq]
  · rw [self_eq]
    rfl
  · rw [self_eq]
    rfl
  · rw [self_eq]
    rfl
  · rw [self_eq]
    exact fun ranked => ⟨ranked.priority, ranked.effective⟩

theorem addVirtualProcessorLocked_vps (effectivePriority : Int) :
    (addVirtualProcessorLocked vp effectivePriority sched).Returned
      (fun _ after => after.vps vp = madeReady effectivePriority sched.clock.currentQuantum (sched.vps vp) ∧
        (0 ≤ (after.vps vp).effectivePriority ∧ (after.vps vp).effectivePriority < 64) ∧
        after.timeoutQueue = sched.timeoutQueue ∧ after.clock = sched.clock ∧
        after.quantumsPerQuarterSecond = sched.quantumsPerQuarterSecond) fun _ _ => False := by
  unfold addVirtualProcessorLocked
  split
  · have self_eq := setVp_self sched vp (madeReady effectivePriority sched.clock.currentQuantum)
    dsimp only
    split
    · rename_i pri found
      obtain ⟨effective, pri_lt⟩ := readyIndex?_eq_some found
      refine ⟨self_eq, ?_, rfl, rfl, rfl⟩
      have listed : (((sched.setVp vp (madeReady effectivePriority sched.clock.currentQuantum)).vps vp).effectivePriority) =
        pri := effective
      exact ⟨(Int.natCast_nonneg pri).trans_eq listed.symm, listed.trans_lt (by omega)⟩
    · trivial
  · trivial

theorem finishWait_added (inv : Inv sched nodes dead) (isWaiting : (sched.vps vp).state = .waiting)
    (on : (sched.vps vp).waitingOnWaitQueue = some queue) (reason : WakeUpReason) (effectivePriority : Int) :
    (addVirtualProcessorLocked vp effectivePriority (finishWait sched queue vp reason)).Returned
      (fun _ => Inv.Woken sched nodes dead vp reason) fun _ _ => False := by
  have member := inv.on_queue isWaiting on
  obtain ⟨front, back, split⟩ := List.append_of_mem member
  have touched : sched.Touched vp ((finishWait sched queue vp reason).setVp vp fun self =>
      { self with state := .ready }) := (finishWait_touched sched queue vp reason).trans (setVp_touched rfl)
  have alive := touched.alive.mpr ((inv.held.placed vp).waits queue member).1
  have added := addVirtualProcessorLocked_held (finishWait_held inv.held split reason) alive
    (fun _ => inv.held.entered.removed_absent split) effectivePriority
  rw [addVirtualProcessorLocked_ready] at added
  refine (added.and (addVirtualProcessorLocked_vps effectivePriority)).mono ?_ fun _ _ => And.left
  rintro - after ⟨⟨pri, held, queued⟩, self_eq, effective, timeoutQueue, clock, quantums⟩
  have members : ∀ name other, other ≠ vp → (other ∈ Function.update (Function.update nodes (.wait queue)
      (front ++ back)) (.ready pri) (Function.update nodes (.wait queue) (front ++ back) (.ready pri) ++ [vp]) name ↔
      other ∈ nodes name) := by
    intro name other different
    rw [mem_inserted (List.append_nil _).symm different, mem_removed split different]
  have reached : Inv after (Function.update (Function.update nodes (.wait queue) (front ++ back)) (.ready pri)
      (Function.update nodes (.wait queue) (front ++ back) (.ready pri) ++ [vp])) dead := by
    refine inv.touched held (touched.trans queued.toTouched) (inv.waiting_idle isWaiting) ?_ ?_ members
    · rw [queued.isReady]
      simp
    · rw [isWaiting]
      simp
  rw [finishWait_vps] at self_eq
  refine ⟨_, reached, touched.trans queued.toTouched, queued.isReady, ?_, ?_, ?_, fun ranked => ⟨?_, effective⟩, ?_, ?_,
    ?_, ?_⟩
  · rw [self_eq]
    rfl
  · rw [self_eq]
    rfl
  · rw [self_eq]
    rfl
  · rw [self_eq]
    exact ranked.priority
  · exact timeoutQueue.trans (finishWait_timeoutQueue sched queue vp reason)
  · exact clock.trans (finishWait_clock sched queue vp reason).1
  · exact quantums.trans (finishWait_clock sched queue vp reason).2
  · intro other
    exact (SameWaits.ready _ pri _ other).trans (inv.held.entered.erase_waits split other)

theorem wakeUpOne_woken (inv : Inv sched nodes dead)
    (on : (sched.vps vp).state = .waiting → (sched.vps vp).waitingOnWaitQueue = some queue) (reason : WakeUpReason) :
    (wakeUpOne queue vp reason false sched).Returned
      (fun _ after => (¬ (sched.vps vp).CanWake reason ∧ after = sched) ∨
        (sched.vps vp).CanWake reason ∧ Inv.Woken sched nodes dead vp reason after) fun _ _ => False := by
  unfold wakeUpOne
  split
  · rename_i awake
    exact .inl ⟨fun can => awake can.1, rfl⟩
  · rename_i isWaiting
    rw [not_not] at isWaiting
    split
    · rename_i spared
      exact .inl ⟨fun can => Bool.false_ne_true (spared.2.symm.trans (can.2 spared.1)), rfl⟩
    · rename_i wakes
      have can : (sched.vps vp).CanWake reason := by
        refine ⟨isWaiting, fun interrupted => ?_⟩
        rw [← Bool.not_eq_false]
        exact fun spared => wakes ⟨interrupted, spared⟩
      dsimp only
      split
      · split
        · trivial
        · exact Code.returned_bind (finishWait_added inv isWaiting (on isWaiting) reason _)
            fun _ _ woken => .inr ⟨can, woken⟩
      · rename_i suspended
        exact .inr ⟨can, finishWait_suspended inv isWaiting (on isWaiting) reason suspended⟩

theorem Scheduler.Woken.stay {nodes' : Queues} (woken : sched.Woken nodes vp reason after nodes')
    (queue : WaitQueueName) (other : Nat) (different : other ≠ vp) (member : other ∈ nodes (.wait queue)) :
    other ∈ nodes' (.wait queue) := by
  rw [woken.waits]
  exact (List.mem_erase_of_ne different).mpr member

/-! ## The end of waits -/

inductive Settles (dead : List Nat) : Scheduler → Queues → Scheduler → Queues → Prop
  | refl {sched : Scheduler} {nodes : Queues} (inv : Inv sched nodes dead) : Settles dead sched nodes sched nodes
  | calm {sched middle after : Scheduler} {nodes nodes' nodes'' : Queues}
      (before : Settles dead sched nodes middle nodes') (inv : Inv after nodes'' dead) (same : middle.Calm after)
      (waits : SameWaits nodes' nodes'') : Settles dead sched nodes after nodes''
  | woken {sched middle after : Scheduler} {nodes nodes' nodes'' : Queues} {vp : Nat} {reason : WakeUpReason}
      (before : Settles dead sched nodes middle nodes') (inv : Inv after nodes'' dead)
      (can : (middle.vps vp).CanWake reason) (ended : middle.Woken nodes' vp reason after nodes'') :
      Settles dead sched nodes after nodes''

theorem Settles.inv (settles : Settles dead sched nodes after nodes') : Inv after nodes' dead := by
  cases settles with
  | refl inv => exact inv
  | calm _ inv => exact inv
  | woken _ inv => exact inv

variable {middle : Scheduler} {name : QueueName} {fuel : Nat} {current : Option Nat}

theorem Settles.trans {nodes'' : Queues} (one : Settles dead sched nodes middle nodes')
    (two : Settles dead middle nodes' after nodes'') : Settles dead sched nodes after nodes'' := by
  induction two with
  | refl _ => exact one
  | calm _ inv same waits ih => exact .calm (ih one) inv same waits
  | woken _ inv can ended ih => exact .woken (ih one) inv can ended

def Inv.Settled (sched : Scheduler) (nodes : Queues) (dead : List Nat) (after : Scheduler) : Prop :=
  ∃ nodes', Settles dead sched nodes after nodes'

theorem Inv.settled (inv : Inv sched nodes dead) : Inv.Settled sched nodes dead sched := ⟨nodes, .refl inv⟩

theorem Inv.Settled.inv (settled : Inv.Settled sched nodes dead after) : ∃ nodes, Inv after nodes dead :=
  settled.imp fun _ => Settles.inv

theorem Settles.steady (settles : Settles dead sched nodes middle nodes')
    (steady : Inv.Steady middle nodes' dead after) : Inv.Settled sched nodes dead after := by
  obtain ⟨nodes'', inv, same, waits⟩ := steady
  exact ⟨nodes'', settles.calm inv same waits⟩

theorem wakeUpOne_switch_inv (inv : Inv sched nodes dead) (unscheduled : sched.scheduled = none)
    (on : (sched.vps vp).state = .waiting → (sched.vps vp).waitingOnWaitQueue = some queue) (reason : WakeUpReason) :
    (wakeUpOne queue vp reason true sched).Returned (fun _ => Inv.Settled sched nodes dead) fun _ _ => False := by
  unfold wakeUpOne
  split
  · exact inv.settled
  · rename_i isWaiting
    rw [not_not] at isWaiting
    split
    · exact inv.settled
    · rename_i wakes
      have can : (sched.vps vp).CanWake reason := by
        refine ⟨isWaiting, fun interrupted => ?_⟩
        rw [← Bool.not_eq_false]
        exact fun spared => wakes ⟨interrupted, spared⟩
      dsimp only
      split
      · split
        · trivial
        · refine Code.returned_bind (finishWait_added inv isWaiting (on isWaiting) reason _) ?_
          rintro - after ⟨nodes', inv', woken⟩
          have settles : Settles dead sched nodes after nodes' := .woken (.refl inv) inv' can woken
          exact (maybeSwitchTo_inv inv' (woken.scheduled.trans unscheduled) vp).mono
            (fun _ _ => settles.steady) fun _ _ => id
      · rename_i suspended
        obtain ⟨nodes', inv', woken⟩ := finishWait_suspended inv isWaiting (on isWaiting) reason suspended
        exact ⟨nodes', .woken (.refl inv) inv' can woken⟩

theorem wakeUpOne_settled (inv : Inv sched nodes dead)
    (on : (sched.vps vp).state = .waiting → (sched.vps vp).waitingOnWaitQueue = some queue) (reason : WakeUpReason) :
    (wakeUpOne queue vp reason false sched).Returned
      (fun _ after => ∃ nodes', Settles dead sched nodes after nodes' ∧ after.scheduled = sched.scheduled ∧
        after.isAllocated = sched.isAllocated ∧
        ∀ queue other, other ≠ vp → other ∈ nodes (.wait queue) → other ∈ nodes' (.wait queue))
      fun _ _ => False := by
  refine (wakeUpOne_woken inv on reason).mono ?_ fun _ _ => id
  rintro - after (⟨-, same⟩ | ⟨can, nodes', inv', woken⟩)
  · rw [same]
    exact ⟨nodes, .refl inv, rfl, rfl, fun _ _ _ member => member⟩
  · exact ⟨nodes', .woken (.refl inv) inv' can woken, woken.scheduled, woken.isAllocated, woken.stay⟩

/-! ## Loops over a wait queue -/

theorem Inv.first_mem (inv : Inv sched nodes dead) (first : (sched.lists name).first = some vp) :
    vp ∈ nodes name := by
  refine List.mem_of_head? ?_
  rw [← (inv.held.entered.shelved.holds name).first]
  exact first

theorem Inv.next_mem (inv : Inv sched nodes dead) {other : Nat} (member : vp ∈ nodes name)
    (next : (sched.rewaQueueEntries vp).next = some other) : other ≠ vp ∧ other ∈ nodes name := by
  obtain ⟨front, back, split⟩ := List.append_of_mem member
  have holds := inv.held.entered.shelved.holds name
  rw [split] at holds ⊢
  rw [holds.pointers] at next
  have later := List.mem_of_head? next
  refine ⟨?_, List.mem_append_right _ (List.mem_cons_of_mem _ later)⟩
  rintro rfl
  have nodup := holds.nodup
  rw [List.perm_middle.nodup_iff, List.nodup_cons] at nodup
  exact nodup.1 (List.mem_append_right _ later)

theorem Inv.on_of_mem (inv : Inv sched nodes dead) (member : vp ∈ nodes (.wait queue)) :
    (sched.vps vp).waitingOnWaitQueue = some queue := ((inv.held.placed vp).waits queue member).2.2

theorem wakeUpPass_inv {count : Int} {candidate : Option Nat} (inv : Inv sched nodes dead)
    (member : ∀ vp, current = some vp → vp ∈ nodes (.wait queue)) :
    (wakeUpPass queue reason fuel count current candidate sched).Returned
      (fun _ after => ∃ nodes', Settles dead sched nodes after nodes' ∧ after.scheduled = sched.scheduled ∧
        after.isAllocated = sched.isAllocated) fun _ _ => False := by
  induction fuel generalizing count current candidate sched nodes with
  | zero => trivial
  | succ fuel ih =>
    rw [wakeUpPass]
    cases current with
    | none => exact ⟨nodes, .refl inv, rfl, rfl⟩
    | some vp =>
      have here := member vp rfl
      dsimp only
      split
      · refine Code.returned_bind (wakeUpOne_settled inv (fun _ => inv.on_of_mem here) reason) ?_
        rintro - after ⟨nodes', settles, scheduled, isAllocated, stay⟩
        refine (ih settles.inv ?_).mono ?_ fun _ _ impossible => impossible
        · intro other next
          obtain ⟨different, later⟩ := inv.next_mem here next
          exact stay queue other different later
        · rintro _ final ⟨nodes'', rest, same, kept⟩
          exact ⟨nodes'', settles.trans rest, same.trans scheduled, kept.trans isAllocated⟩
      · exact ⟨nodes, .refl inv, rfl, rfl⟩

theorem wakeUpSome_inv {count : Int} {allowContextSwitch : Bool} (inv : Inv sched nodes dead)
    (unscheduled : sched.scheduled = none) :
    (wakeUpSome fuel queue count reason allowContextSwitch sched).Returned (fun _ => Inv.Settled sched nodes dead)
      fun _ _ => False := by
  unfold wakeUpSome
  rw [Code.bind_of_ok (Code.get_apply sched)]
  refine Code.returned_bind (wakeUpPass_inv inv fun vp first => inv.first_mem first) ?_
  rintro candidate after ⟨nodes', settles, scheduled, -⟩
  cases candidate with
  | none => exact ⟨nodes', settles⟩
  | some vp =>
    cases allowContextSwitch with
    | false => exact ⟨nodes', settles⟩
    | true =>
      exact (maybeSwitchTo_inv settles.inv (scheduled.trans unscheduled) vp).mono (fun _ _ => settles.steady)
        fun _ _ => id

theorem wakeUpSome_kept {count : Int} (inv : Inv sched nodes dead) :
    (wakeUpSome fuel queue count reason false sched).Returned
      (fun _ after => ∃ nodes', Settles dead sched nodes after nodes' ∧ after.scheduled = sched.scheduled ∧
        after.isAllocated = sched.isAllocated) fun _ _ => False := by
  unfold wakeUpSome
  rw [Code.bind_of_ok (Code.get_apply sched)]
  refine Code.returned_bind (wakeUpPass_inv inv fun vp first => inv.first_mem first) ?_
  rintro candidate after kept
  cases candidate with
  | none => exact kept
  | some vp => exact kept

theorem wakeUpAll_inv (inv : Inv sched nodes dead)
    (member : ∀ vp, current = some vp → vp ∈ nodes (.wait queue)) :
    (wakeUpAll queue fuel current sched).Returned (fun _ => Inv.Settled sched nodes dead) fun _ _ => False := by
  induction fuel generalizing current sched nodes with
  | zero => trivial
  | succ fuel ih =>
    cases current with
    | none => exact inv.settled
    | some vp =>
      have here := member vp rfl
      refine Code.returned_bind (wakeUpOne_settled inv (fun _ => inv.on_of_mem here) .finished) ?_
      rintro - after ⟨nodes', settles, -, -, stay⟩
      refine (ih settles.inv ?_).mono ?_ fun _ _ => id
      · intro other next
        obtain ⟨different, later⟩ := inv.next_mem here next
        exact stay queue other different later
      · rintro - final ⟨nodes'', rest⟩
        exact ⟨nodes'', settles.trans rest⟩

theorem wakeUpAllFromInterruptContext_inv (inv : Inv sched nodes dead) :
    (wakeUpAllFromInterruptContext fuel queue sched).Returned (fun _ => Inv.Settled sched nodes dead)
      fun _ _ => False := by
  exact wakeUpAll_inv inv fun vp first => inv.first_mem first

end WakeUps

/-! ## Entering a wait queue -/

section Waits
variable {sched : Scheduler} {nodes : Queues} {dead cover : List Nat} {vp : Nat} {queue : WaitQueueName}

variable {fuel : Nat} {isInterruptable : Bool}

/-- The loop stops between those that are not less important and the rest of the queue. -/
theorem waiterBefore_split {name : QueueName} {effectivePriority : Int} {all front back : List Nat}
    {previous : Option Nat} (holds : (sched.lists name).Holds sched.rewaQueueEntries all) (split : all = front ++ back)
    (passed : ∀ other ∈ front, effectivePriority ≤ (sched.vps other).effectivePriority)
    (found : waiterBefore sched effectivePriority fuel back.head? front.getLast? = some previous) :
    ∃ front back, all = front ++ back ∧ previous = front.getLast? ∧
      (∀ other ∈ front, effectivePriority ≤ (sched.vps other).effectivePriority) ∧
      ∀ other, back.head? = some other → (sched.vps other).effectivePriority < effectivePriority := by
  induction fuel generalizing front back with
  | zero => exact absurd found (by simp [waiterBefore])
  | succ fuel ih =>
    cases back with
    | nil =>
      exact ⟨front, [], split, (Option.some.inj found).symm, passed, by simp⟩
    | cons current rest =>
      rw [List.head?_cons, waiterBefore] at found
      split at found
      · rename_i less
        refine ⟨front, current :: rest, split, (Option.some.inj found).symm, passed, ?_⟩
        intro other first
        rw [← Option.some.inj first]
        exact less
      · rename_i least
        have next : (sched.rewaQueueEntries current).next = rest.head? := by
          rw [split] at holds
          rw [holds.pointers]
        have last : some current = (front ++ [current]).getLast? := List.getLast?_concat.symm
        rw [next, last] at found
        refine ih ?_ ?_ found
        · rw [split, List.append_assoc, List.singleton_append]
        · intro other member
          rcases List.mem_append.mp member with before | here
          · exact passed other before
          · rw [List.mem_singleton.mp here]
            exact not_lt.mp least

structure Scheduler.Waited (sched : Scheduler) (nodes : Queues) (vp : Nat) (queue : WaitQueueName) (after : Scheduler)
    (nodes' : Queues) : Prop where
  others : ∀ other, other ≠ vp → SameWait (sched.vps other) (after.vps other)
  isWaiting : (after.vps vp).state = .waiting
  priority : (after.vps vp).effectivePriority = (sched.vps vp).effectivePriority
  ranked : (sched.vps vp).Ranked → (after.vps vp).Ranked
  since : (after.vps vp).waitStartTime = sched.clock.currentQuantum
  deadline : (after.vps vp).deadline = (sched.vps vp).deadline
  timeoutQueue : after.timeoutQueue = sched.timeoutQueue
  clock : after.clock = sched.clock
  quantumsPerQuarterSecond : after.quantumsPerQuarterSecond = sched.quantumsPerQuarterSecond
  place : ∃ front back, nodes (.wait queue) = front ++ back ∧ nodes' (.wait queue) = front ++ vp :: back ∧
    (∀ other ∈ front, (sched.vps vp).effectivePriority ≤ (sched.vps other).effectivePriority) ∧
    ∀ other, back.head? = some other → (sched.vps other).effectivePriority < (sched.vps vp).effectivePriority
  elsewhere : ∀ other, other ≠ queue → nodes' (.wait other) = nodes (.wait other)

def Inv.Waited (sched : Scheduler) (nodes : Queues) (dead : List Nat) (vp : Nat) (queue : WaitQueueName)
    (after : Scheduler) : Prop :=
  ∃ nodes', Inv after nodes' dead ∧ sched.Waited nodes vp queue after nodes'

theorem enterWaitQueue_inv (held : Held sched nodes dead [vp])
    (loose : Loose sched nodes vp)
    (states : ∀ other, (sched.vps other).state = .running → sched.running = some other) :
    (enterWaitQueue fuel vp queue isInterruptable sched).Returned (fun _ => Inv.Waited sched nodes dead vp queue)
      fun _ _ => False := by
  unfold enterWaitQueue
  split
  · rename_i previous found
    rw [(held.entered.shelved.holds (.wait queue)).first] at found
    obtain ⟨front, back, split, rfl, least, less⟩ :=
      waiterBefore_split (held.entered.shelved.holds (.wait queue)) (List.nil_append _).symm
        (fun _ member => absurd member List.not_mem_nil) found
    have self_eq := setVp_self (sched.insertAfter (.wait queue) vp front.getLast?) vp fun self => { self with
      state := .waiting
      waitingOnWaitQueue := some queue
      waitStartTime := sched.clock.currentQuantum
      wakeupReason := none
      isInterruptableWait := isInterruptable }
    refine (switchToBest_inv (held.enterWait loose.alive loose.absent split rfl rfl rfl) ?_).mono ?_ fun _ _ => id
    · intro other isRunning
      have different : other ≠ vp := by
        rintro rfl
        exact absurd isRunning (by simp)
      rw [setVp_of_ne different] at isRunning
      exact states other isRunning
    · rintro - after ⟨nodes', inv, calm, waits⟩
      have same := calm.same vp
      rw [self_eq] at same
      refine ⟨nodes', inv, ?_, same.waiting.mpr rfl, same.priority rfl,
        fun ranked => same.ranked ⟨ranked.priority, ranked.effective⟩, same.since rfl, ?_, calm.timeoutQueue, calm.clock,
        calm.quantumsPerQuarterSecond, ⟨front, back, split, ?_, least, less⟩, ?_⟩
      · intro other different
        have before := calm.same other
        rw [setVp_of_ne different] at before
        exact before
      · rcases same.deadline with kept | ⟨awake, -⟩
        · exact kept
        · exact absurd rfl awake
      · rw [waits, Function.update_self]
      · intro other different
        rw [waits, Function.update_of_ne fun equal => different (QueueName.wait.inj equal)]
  · trivial

theorem armTimeout_held (held : Held sched nodes dead cover) (deadline : TimeInterval) :
    Held (armTimeout sched vp deadline) nodes dead cover := by
  have adjusted : Held (sched.setVp vp fun self => { self with deadline := some (sched.clock.armed deadline) }) nodes
      dead cover :=
    held.adjust rfl rfl rfl (fun _ => rfl) fun _ => rfl
  exact adjusted.congr rfl rfl rfl rfl rfl rfl rfl

theorem armTimeout_vps (sched : Scheduler) (vp : Nat) (deadline : TimeInterval) (other : Nat) :
    (armTimeout sched vp deadline).vps other =
      { sched.vps other with
        deadline := if other = vp then some (sched.clock.armed deadline) else (sched.vps other).deadline } := by
  by_cases same : other = vp
  · rw [if_pos same, same]
    exact setVp_self sched vp fun self => { self with deadline := some (sched.clock.armed deadline) }
  · rw [if_neg same]
    exact @setVp_of_ne sched vp other same fun self => { self with deadline := some (sched.clock.armed deadline) }

/-- The running virtual processor has begun to wait, on the timeout queue too if there is a deadline. -/
def Inv.Waits (sched : Scheduler) (nodes : Queues) (dead : List Nat) (queue : WaitQueueName)
    (deadline : Option Deadline) (after : Scheduler) : Prop :=
  ∃ vp, sched.running = some vp ∧ Loose sched nodes vp ∧
    Inv.Waited (deadline.elim sched fun deadline => armTimeout sched vp deadline.time) nodes dead vp queue after

theorem waitOn_inv {deadline : Option Deadline} (inv : Inv sched nodes dead)
    (unscheduled : sched.scheduled = none) :
    (waitOn fuel queue deadline isInterruptable sched).Returned (fun _ => Inv.Waits sched nodes dead queue deadline)
      fun _ after => after = sched := by
  unfold waitOn
  split
  · rename_i vp has
    have held := inv.held_running unscheduled has
    have loose := inv.running_loose unscheduled has
    split
    · split
      · exact rfl
      · split
        · rename_i due
          split
          · exact rfl
          · have vps := armTimeout_vps sched vp due.time
            have armed : Loose (armTimeout sched vp due.time) nodes vp := by
              refine ⟨⟨loose.alive.1, ?_⟩, ?_, ?_, loose.absent⟩
              · rw [vps]
                exact loose.alive.2
              · rw [vps]
                exact loose.resumed
              · rw [vps]
                exact loose.awake
            refine (enterWaitQueue_inv (armTimeout_held held _) armed ?_).mono
              (fun _ _ waited => ⟨vp, has, loose, waited⟩) fun _ _ impossible => impossible.elim
            intro other isRunning
            rw [vps] at isRunning
            exact inv.states other isRunning
        · exact (enterWaitQueue_inv held loose inv.states).mono
            (fun _ _ waited => ⟨vp, has, loose, waited⟩) fun _ _ impossible => impossible.elim
    · trivial
  · trivial

end Waits

/-! ## The end of a quantum -/

section Quantums
variable {sched : Scheduler} {nodes : Queues} {dead : List Nat} {current : Nat}

theorem expireTimeouts_inv {fuel : Nat} (inv : Inv sched nodes dead) :
    (expireTimeouts fuel sched).Returned
      (fun _ after => ∃ nodes', Settles dead sched nodes after nodes' ∧ after.scheduled = sched.scheduled)
      fun _ _ => False := by
  induction fuel generalizing sched nodes with
  | zero => trivial
  | succ fuel ih =>
    rw [expireTimeouts]
    dsimp only
    split
    · split
      · exact ⟨nodes, .refl inv, rfl⟩
      · split
        · rename_i queue on
          refine Code.returned_bind (wakeUpOne_settled inv (fun _ => on) .timeout) ?_
          rintro - after ⟨nodes', settles, scheduled, -⟩
          refine (ih settles.inv).mono ?_ fun _ _ impossible => impossible
          rintro _ final ⟨nodes'', rest, same⟩
          exact ⟨nodes'', settles.trans rest, same.trans scheduled⟩
        · trivial
    · exact ⟨nodes, .refl inv, rfl⟩

/-- The best ready virtual processor is taken off the ready queue for the running one. -/
theorem Inv.pulled {best : Nat} (inv : Inv sched nodes dead) (unscheduled : sched.scheduled = none)
    (has : sched.running = some current) (found : getHighestPriorityReady sched = some best) :
    ∃ removed pri front back, removeVirtualProcessorLocked best sched = .ok () removed ∧
      nodes (.ready pri) = front ++ best :: back ∧ best ≠ current ∧
      Held removed (Function.update nodes (.ready pri) (front ++ back)) dead [current, best] ∧ sched.Relisted removed ∧
      removed.Alive current ∧ ∀ name, current ∉ Function.update nodes (.ready pri) (front ++ back) name := by
  have loose := inv.running_loose unscheduled has
  obtain ⟨pri, member⟩ := getHighestPriorityReady_mem inv.held found
  obtain ⟨removed, front, back, split, returns, pulled, relisted⟩ :=
    removeVirtualProcessorLocked_held (inv.held_running unscheduled has) member
  have different : best ≠ current := by
    rintro rfl
    exact loose.absent _ member
  refine ⟨removed, pri, front, back, returns, split, different, pulled.mono (by simp), relisted, ?_, ?_⟩
  · unfold Scheduler.Alive
    rw [relisted.isAllocated, relisted.vps]
    exact loose.alive
  · intro name
    rw [mem_removed split different.symm]
    exact loose.absent name

/-- The running virtual processor goes back to the ready queue, and the best one is scheduled in its place. -/
theorem preempt_inv {best : Nat} (inv : Inv sched nodes dead) (unscheduled : sched.scheduled = none)
    (has : sched.running = some current) (found : getHighestPriorityReady sched = some best) (priority : Int) :
    ((do
      removeVirtualProcessorLocked best
      addVirtualProcessorLocked current priority
      Code.modify fun sched => { sched with scheduled := some best } : Code Scheduler Errno Unit) sched).Returned
      (fun _ => Inv.Steady sched nodes dead) fun _ _ => False := by
  have loose := inv.running_loose unscheduled has
  obtain ⟨removed, pri, front, back, returns, split, different, swapped, relisted, living, absent⟩ :=
    inv.pulled unscheduled has found
  obtain ⟨alive, -, isReady, resumed⟩ := (inv.held.placed best).ready pri (split ▸ by simp)
  have removal : sched.Calm removed := by
    have calm := @removeVirtualProcessorLocked_calm sched best
    rw [returns] at calm
    exact calm
  have awake := mt (removal.same current).waiting.mp loose.awake
  rw [Code.bind_of_ok returns]
  refine Code.returned_bind (((addVirtualProcessorLocked_held swapped living absent priority).and
    (addVirtualProcessorLocked_calm awake priority)).mono (fun _ _ => id) fun _ _ => And.left) ?_
  rintro - after ⟨⟨place, held, queued⟩, calm⟩
  have best_eq : after.vps best = sched.vps best := by
    rw [queued.others best different, relisted.vps]
  refine ⟨_, ⟨held.congr rfl rfl rfl rfl rfl rfl rfl, ⟨best, rfl, ?_, ?_, ?_, ?_⟩, ?_, ?_, ?_⟩,
    (removal.trans calm).trans (Scheduler.Calm.of_eq rfl rfl rfl rfl),
    (SameWaits.ready nodes pri _).trans (SameWaits.ready _ place _)⟩
  · refine ⟨?_, ?_⟩
    · rw [queued.isAllocated, relisted.isAllocated]
      exact alive.1
    · rw [best_eq]
      exact alive.2
  · rw [best_eq]
    exact resumed
  · rw [best_eq, isReady]
    simp
  · intro name
    rw [mem_inserted (List.append_nil _).symm different]
    exact inv.held.entered.removed_absent split
  · intro other isRunning
    have changed : other ≠ current := by
      rintro rfl
      exact absurd (queued.isReady.symm.trans isRunning) (by simp)
    rw [queued.others other changed, relisted.vps] at isRunning
    exact queued.running.trans (relisted.running.trans (inv.states other isRunning))
  · exact fun impossible => absurd impossible (by simp)
  · intro other running
    rw [queued.running, relisted.running, has] at running
    rw [← Option.some.inj running]
    exact queued.alive.mpr living

theorem VirtualProcessor.Ranked.aged {self : VirtualProcessor} (ranked : self.Ranked) : VirtualProcessor.Ranked { self with
    effectivePriority := max (self.effectivePriority - 1) 0
    quantumAllowance := quantumAllowanceForPriority (max (self.effectivePriority - 1) 0) } := by
  obtain ⟨priority, low, high⟩ := ranked
  exact ⟨priority, le_max_right _ _, max_lt (by omega) (by decide)⟩

theorem Inv.aged (inv : Inv sched nodes dead) (isRunning : (sched.vps current).state = .running) :
    Inv (sched.setVp current fun self => { self with
      effectivePriority := max (self.effectivePriority - 1) 0
      quantumAllowance := quantumAllowanceForPriority (max (self.effectivePriority - 1) 0) }) nodes dead ∧
    sched.Calm (sched.setVp current fun self => { self with
      effectivePriority := max (self.effectivePriority - 1) 0
      quantumAllowance := quantumAllowanceForPriority (max (self.effectivePriority - 1) 0) }) :=
  ⟨inv.adjust rfl rfl rfl (fun isReady => absurd (isReady.symm.trans isRunning) (by simp)) fun _ => rfl,
    setVp_calm (SameWait.of_awake (by simp [isRunning]) (by simp [isRunning]) (.inl rfl) VirtualProcessor.Ranked.aged)⟩

theorem expireTimeSlice_inv (inv : Inv sched nodes dead) (unscheduled : sched.scheduled = none)
    (has : sched.running = some current) :
    (expireTimeSlice current sched).Returned (fun _ => Inv.Steady sched nodes dead) fun _ _ => False := by
  obtain ⟨aged, calm⟩ := inv.aged (inv.current unscheduled current has)
  unfold expireTimeSlice
  dsimp only
  split
  · rename_i best found
    split
    · exact ⟨nodes, aged, calm, SameWaits.refl nodes⟩
    · refine (preempt_inv aged unscheduled has found _).mono ?_ fun _ _ => id
      rintro - after ⟨nodes', inv', same, waits⟩
      exact ⟨nodes', inv', calm.trans same, waits⟩
  · exact ⟨nodes, aged, calm, SameWaits.refl nodes⟩

theorem onEndOfQuantum_inv {fuel : Nat} (inv : Inv sched nodes dead) (unscheduled : sched.scheduled = none) :
    (onEndOfQuantum fuel sched).Returned (fun _ => Inv.Settled sched nodes dead) fun _ _ => False := by
  refine Code.returned_bind (expireTimeouts_inv inv) ?_
  rintro - after ⟨nodes', settles, scheduled⟩
  rw [Code.bind_of_ok (Code.get_apply after)]
  have free := scheduled.trans unscheduled
  cases has : after.running with
  | none => trivial
  | some current =>
    have spent : Inv (after.setVp current fun self => { self with
        quantumAllowance := (after.vps current).quantumAllowance - 1 }) nodes' dead :=
      settles.inv.adjust rfl rfl rfl (fun _ => rfl) fun _ => rfl
    have calm : Settles dead sched nodes (after.setVp current fun self => { self with
        quantumAllowance := (after.vps current).quantumAllowance - 1 }) nodes' :=
      settles.calm spent (setVp_calm (.of_rest rfl rfl rfl rfl rfl rfl)) (SameWaits.refl nodes')
    dsimp only
    split
    · exact ⟨nodes', calm⟩
    · exact (expireTimeSlice_inv spent free has).mono (fun _ _ => calm.steady) fun _ _ => id

end Quantums

end Apollo.Dispatcher.VirtualProcessorScheduler
