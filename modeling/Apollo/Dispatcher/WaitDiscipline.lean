import Apollo.Dispatcher.SchedulerGuarantees
import Apollo.Lib.StableSort

/-!
# The discipline of timeouts and wait queues

The timeout queue is sorted and holds whoever waits with a deadline.  A wait queue
is in the order of the priorities that its members had when they entered it, and
`Entries` remembers these priorities, the deadlines and the order of the entries;
no code reads them.  From this follows what the end of a quantum does with timeouts.
-/

set_option autoImplicit false

namespace Apollo.Dispatcher.VirtualProcessorScheduler

open Driver
open Klib
open Lib
open TimeInterval

structure Entries where
  count : Nat
  priority : Nat → Int
  place : Nat → Nat
  deadline : Nat → Option TimeInterval

def Entries.start : Entries := ⟨0, fun _ => 0, fun _ => 0, fun _ => none⟩

def Entries.enter (entries : Entries) (vp : Nat) (priority : Int) (deadline : Option TimeInterval) : Entries where
  count := entries.count + 1
  priority := Function.update entries.priority vp priority
  place := Function.update entries.place vp entries.count
  deadline := Function.update entries.deadline vp deadline

/-- What a step adds: the running virtual processor that goes on to wait has entered a wait queue. -/
def Entries.record (entries : Entries) (sched : Scheduler) (action : Action) (after : Scheduler) : Entries :=
  match action, sched.running with
  | .waitOn _ deadline _, some vp =>
    if (after.vps vp).state = .waiting then
      entries.enter vp (sched.vps vp).effectivePriority (deadline.map Deadline.time)
    else entries
  | _, _ => entries

/-- More important when it entered the wait queue, or as important and earlier. -/
def Entries.Before (entries : Entries) : Nat → Nat → Prop :=
  Precedes entries.priority fun vp other => entries.place vp < entries.place other

def Scheduler.due (sched : Scheduler) (vp : Nat) : Int := (sched.vps vp).deadline.getD 0

structure Disciplined (sched : Scheduler) (nodes : Queues) (entries : Entries) : Prop where
  sorted : sched.timeoutQueue.Pairwise fun vp other => sched.due vp ≤ sched.due other
  nodup : sched.timeoutQueue.Nodup
  timeouts : ∀ vp, vp ∈ sched.timeoutQueue ↔ (sched.vps vp).deadline ≠ none
  waiting : ∀ vp, (sched.vps vp).deadline ≠ none → (sched.vps vp).state = .waiting
  entered : ∀ vp, (sched.vps vp).state = .waiting →
    (sched.vps vp).effectivePriority = entries.priority vp ∧ entries.place vp < entries.count
  armed : ∀ vp, (sched.vps vp).state = .waiting →
    (sched.vps vp).deadline = (entries.deadline vp).map sched.clock.armed
  ordered : ∀ queue, (nodes (.wait queue)).Pairwise entries.Before

section Steps
variable {sched after : Scheduler} {nodes nodes' : Queues} {dead : List Nat} {entries : Entries} {vp : Nat}

theorem Disciplined.calm (disciplined : Disciplined sched nodes entries) (calm : sched.Calm after)
    (waits : SameWaits nodes nodes') : Disciplined after nodes' entries := by
  have kept : ∀ vp, (sched.vps vp).deadline ≠ none → (after.vps vp).deadline = (sched.vps vp).deadline := by
    intro vp valid
    rcases (calm.same vp).deadline with same | ⟨awake, -⟩
    · exact same
    · exact absurd (disciplined.waiting vp valid) awake
  have valid_iff : ∀ vp, (after.vps vp).deadline ≠ none ↔ (sched.vps vp).deadline ≠ none := by
    intro vp
    constructor
    · intro valid
      rcases (calm.same vp).deadline with same | ⟨-, none⟩
      · exact same ▸ valid
      · exact absurd none valid
    · intro valid
      rw [kept vp valid]
      exact valid
  refine ⟨?_, ?_, fun vp => ?_, fun vp valid => ?_, fun vp isWaiting => ?_, fun vp isWaiting => ?_, fun queue => ?_⟩
  · rw [calm.timeoutQueue]
    refine disciplined.sorted.imp_of_mem fun {vp other} member member' less => ?_
    unfold Scheduler.due
    rw [kept vp ((disciplined.timeouts vp).mp member), kept other ((disciplined.timeouts other).mp member')]
    exact less
  · rw [calm.timeoutQueue]
    exact disciplined.nodup
  · rw [calm.timeoutQueue, valid_iff]
    exact disciplined.timeouts vp
  · exact (calm.same vp).waiting.mpr (disciplined.waiting vp ((valid_iff vp).mp valid))
  · have before := (calm.same vp).waiting.mp isWaiting
    rw [(calm.same vp).priority before]
    exact disciplined.entered vp before
  · have before := (calm.same vp).waiting.mp isWaiting
    rw [calm.clock, ← disciplined.armed vp before]
    exact (calm.same vp).deadline.resolve_right fun changed => changed.1 before
  · rw [waits]
    exact disciplined.ordered queue

theorem Disciplined.woken {reason : WakeUpReason} (disciplined : Disciplined sched nodes entries)
    (woken : sched.Woken nodes vp reason after nodes') : Disciplined after nodes' entries := by
  have sublist : after.timeoutQueue.Sublist sched.timeoutQueue := by
    rw [woken.timeoutQueue]
    split
    · exact List.Sublist.refl _
    · exact List.erase_sublist
  have left : vp ∉ after.timeoutQueue := by
    rw [woken.timeoutQueue]
    split
    · rename_i none
      exact fun member => (disciplined.timeouts vp).mp member none
    · exact disciplined.nodup.not_mem_erase
  have stays : ∀ other, other ≠ vp → (other ∈ after.timeoutQueue ↔ other ∈ sched.timeoutQueue) := by
    intro other different
    rw [woken.timeoutQueue]
    split
    · exact Iff.rfl
    · exact List.mem_erase_of_ne different
  have elsewhere : ∀ other, (after.vps other).state = .waiting → other ≠ vp := by
    rintro _ isWaiting rfl
    exact absurd (woken.isReady.symm.trans isWaiting) (by simp)
  refine ⟨?_, disciplined.nodup.sublist sublist, fun other => ?_, fun other valid => ?_,
    fun other isWaiting => ?_, fun other isWaiting => ?_, fun queue => ?_⟩
  · refine (disciplined.sorted.sublist sublist).imp_of_mem fun {one other} member member' less => ?_
    unfold Scheduler.due
    rw [woken.others one (fun same => left (same ▸ member)), woken.others other fun same => left (same ▸ member')]
    exact less
  · by_cases same : other = vp
    · rw [same]
      exact iff_of_false left (not_not.mpr woken.deadline)
    · rw [stays other same, woken.others other same]
      exact disciplined.timeouts other
  · have different : other ≠ vp := by
      rintro rfl
      exact valid woken.deadline
    rw [woken.others other different] at valid ⊢
    exact disciplined.waiting other valid
  · have different := elsewhere other isWaiting
    rw [woken.others other different] at isWaiting ⊢
    exact disciplined.entered other isWaiting
  · have different := elsewhere other isWaiting
    rw [woken.others other different] at isWaiting ⊢
    rw [woken.clock]
    exact disciplined.armed other isWaiting
  · rw [woken.waits]
    exact (disciplined.ordered queue).sublist List.erase_sublist

theorem Disciplined.settles (disciplined : Disciplined sched nodes entries)
    (settles : Settles dead sched nodes after nodes') : Disciplined after nodes' entries := by
  induction settles with
  | refl _ => exact disciplined
  | calm _ _ same waits ih => exact (ih disciplined).calm same waits
  | woken _ _ _ ended ih => exact (ih disciplined).woken ended

/-! ## Entering a wait queue -/

theorem insertTimeout_split (sched : Scheduler) (vp : Nat) (quantums : Int) (timeouts : List Nat) :
    ∃ front back, timeouts = front ++ back ∧ insertTimeout sched vp quantums timeouts = front ++ vp :: back ∧
      (∀ other ∈ front, sched.due other ≤ quantums) ∧
      ∀ other, back.head? = some other → quantums < sched.due other := by
  induction timeouts with
  | nil => exact ⟨[], [], rfl, rfl, by simp, by simp⟩
  | cons current rest ih =>
    rw [insertTimeout]
    split
    · rename_i later
      refine ⟨[], current :: rest, rfl, rfl, by simp, fun other head => ?_⟩
      rw [← Option.some.inj head]
      exact later
    · rename_i due
      obtain ⟨front, back, split, inserted, least, greater⟩ := ih
      refine ⟨current :: front, back, by rw [split, List.cons_append], by rw [inserted, List.cons_append], ?_, greater⟩
      intro other member
      rcases List.mem_cons.mp member with rfl | inFront
      · exact not_lt.mp due
      · exact least other inFront

theorem Disciplined.untimed (disciplined : Disciplined sched nodes entries) (awake : (sched.vps vp).state ≠ .waiting) :
    (sched.vps vp).deadline = none ∧ vp ∉ sched.timeoutQueue := by
  have none : (sched.vps vp).deadline = none := by
    by_contra valid
    exact awake (disciplined.waiting vp valid)
  exact ⟨none, fun member => (disciplined.timeouts vp).mp member none⟩

theorem armTimeout_due (sched : Scheduler) (vp : Nat) (deadline : TimeInterval) (other : Nat) :
    (armTimeout sched vp deadline).due other = if other = vp then sched.clock.armed deadline else sched.due other := by
  unfold Scheduler.due
  rw [armTimeout_vps]
  split
  · rfl
  · rfl

/-- The running virtual processor may be on the timeout queue already, but not on a wait queue. -/
structure Armed (sched : Scheduler) (nodes : Queues) (entries : Entries) (vp : Nat) (deadline : Option TimeInterval) :
    Prop where
  sorted : sched.timeoutQueue.Pairwise fun vp other => sched.due vp ≤ sched.due other
  nodup : sched.timeoutQueue.Nodup
  timeouts : ∀ vp, vp ∈ sched.timeoutQueue ↔ (sched.vps vp).deadline ≠ none
  waiting : ∀ other, other ≠ vp → (sched.vps other).deadline ≠ none → (sched.vps other).state = .waiting
  entered : ∀ vp, (sched.vps vp).state = .waiting →
    (sched.vps vp).effectivePriority = entries.priority vp ∧ entries.place vp < entries.count
  armed : ∀ other, other ≠ vp → (sched.vps other).state = .waiting →
    (sched.vps other).deadline = (entries.deadline other).map sched.clock.armed
  timed : (sched.vps vp).deadline = deadline.map sched.clock.armed
  ordered : ∀ queue, (nodes (.wait queue)).Pairwise entries.Before

theorem Disciplined.endless (disciplined : Disciplined sched nodes entries) (awake : (sched.vps vp).state ≠ .waiting) :
    Armed sched nodes entries vp none :=
  ⟨disciplined.sorted, disciplined.nodup, disciplined.timeouts, fun other _ => disciplined.waiting other,
    disciplined.entered, fun other _ => disciplined.armed other, (disciplined.untimed awake).1, disciplined.ordered⟩

theorem Disciplined.arm (disciplined : Disciplined sched nodes entries) (awake : (sched.vps vp).state ≠ .waiting)
    (deadline : TimeInterval) : Armed (armTimeout sched vp deadline) nodes entries vp (some deadline) := by
  obtain ⟨-, absent⟩ := disciplined.untimed awake
  obtain ⟨front, back, split, inserted, least, greater⟩ := insertTimeout_split sched vp
    (sched.clock.armed deadline) sched.timeoutQueue
  have queue : (armTimeout sched vp deadline).timeoutQueue = front ++ vp :: back := inserted
  have vps := armTimeout_vps sched vp deadline
  have dues := armTimeout_due sched vp deadline
  rw [split] at absent
  have same : ∀ other ∈ front ++ back, (armTimeout sched vp deadline).due other = sched.due other := by
    intro other member
    rw [dues, if_neg]
    rintro rfl
    exact absent member
  have here : (armTimeout sched vp deadline).due vp = sched.clock.armed deadline := by
    rw [dues, if_pos rfl]
  have sorted := disciplined.sorted
  have nodup := disciplined.nodup
  have timeouts := disciplined.timeouts
  rw [split] at sorted nodup timeouts
  refine ⟨?_, ?_, fun other => ?_, fun other different valid => ?_, fun other => ?_, fun other different => ?_, ?_,
    disciplined.ordered⟩
  · rw [queue]
    have between := @pairwise_between Nat Int _ (fun other => -(armTimeout sched vp deadline).due other)
      (fun _ _ => True) vp front back ?_ ?_ ?_ fun _ _ _ => trivial
    · refine between.imp fun {one other} precedes => ?_
      have le := precedes_true_iff.mp precedes
      omega
    · refine sorted.imp_of_mem fun {one other} member member' le => precedes_true_iff.mpr ?_
      rw [same one member, same other member']
      exact Int.neg_le_neg le
    · intro other member
      rw [here, same other (List.mem_append_left _ member)]
      exact Int.neg_le_neg (least other member)
    · intro other head
      rw [here, same other (List.mem_append_right _ (List.mem_of_head? head))]
      exact Int.neg_lt_neg (greater other head)
  · rw [queue, List.perm_middle.nodup_iff, List.nodup_cons]
    exact ⟨absent, nodup⟩
  · rw [queue, List.perm_middle.mem_iff, List.mem_cons, timeouts, vps]
    split
    · rename_i equal
      simp [equal]
    · rename_i different
      exact or_iff_right different
  · rw [vps] at valid ⊢
    rw [if_neg different] at valid
    exact disciplined.waiting other valid
  · rw [vps]
    exact disciplined.entered other
  · rw [vps, if_neg different]
    exact disciplined.armed other
  · rw [vps, if_pos rfl]
    rfl

/-- The place in the wait queue is behind those that are not less important. -/
theorem Armed.waited {queue : WaitQueueName} {deadline : Option TimeInterval}
    (armed : Armed sched nodes entries vp deadline)
    (absent : ∀ name, vp ∉ nodes name) (members : ∀ queue, ∀ other ∈ nodes (.wait queue), (sched.vps other).state = .waiting)
    (waited : sched.Waited nodes vp queue after nodes') :
    Disciplined after nodes' (entries.enter vp (sched.vps vp).effectivePriority deadline) := by
  have same_due : ∀ other ∈ sched.timeoutQueue, after.due other = sched.due other := by
    intro other member
    have valid := (armed.timeouts other).mp member
    unfold Scheduler.due
    by_cases same : other = vp
    · rw [same, waited.deadline]
    · rcases (waited.others other same).deadline with kept | ⟨awake, -⟩
      · rw [kept]
      · exact absurd (armed.waiting other same valid) awake
  have valid_iff : ∀ other, (after.vps other).deadline ≠ none ↔ (sched.vps other).deadline ≠ none := by
    intro other
    by_cases same : other = vp
    · rw [same, waited.deadline]
    · rcases (waited.others other same).deadline with kept | ⟨awake, none⟩
      · rw [kept]
      · refine iff_of_false (not_not.mpr none) fun valid => awake (armed.waiting other same valid)
  refine ⟨?_, ?_, fun other => ?_, fun other valid => ?_, fun other isWaiting => ?_, fun other isWaiting => ?_,
    fun place => ?_⟩
  · rw [waited.timeoutQueue]
    refine armed.sorted.imp_of_mem fun {one other} member member' le => ?_
    rw [same_due one member, same_due other member']
    exact le
  · rw [waited.timeoutQueue]
    exact armed.nodup
  · rw [waited.timeoutQueue, valid_iff]
    exact armed.timeouts other
  · by_cases same : other = vp
    · rw [same]
      exact waited.isWaiting
    · exact (waited.others other same).waiting.mpr (armed.waiting other same ((valid_iff other).mp valid))
  · unfold Entries.enter
    dsimp only
    by_cases same : other = vp
    · rw [same, Function.update_self, Function.update_self]
      exact ⟨waited.priority, Nat.lt_succ_self _⟩
    · have before := (waited.others other same).waiting.mp isWaiting
      obtain ⟨priority, place⟩ := armed.entered other before
      rw [Function.update_of_ne same, Function.update_of_ne same, (waited.others other same).priority before]
      exact ⟨priority, Nat.lt_succ_of_lt place⟩
  · unfold Entries.enter
    dsimp only
    rw [waited.clock]
    by_cases same : other = vp
    · rw [same, Function.update_self, waited.deadline]
      exact armed.timed
    · have before := (waited.others other same).waiting.mp isWaiting
      rw [Function.update_of_ne same, ← armed.armed other same before]
      exact (waited.others other same).deadline.resolve_right fun changed => changed.1 before
  · have entered : ∀ other ∈ nodes (.wait place), (entries.enter vp (sched.vps vp).effectivePriority deadline).priority other =
        entries.priority other ∧ (entries.enter vp (sched.vps vp).effectivePriority deadline).place other = entries.place other := by
      intro other member
      have different : other ≠ vp := by
        rintro rfl
        exact absent _ member
      exact ⟨Function.update_of_ne different _ _, Function.update_of_ne different _ _⟩
    have ordered : (nodes (.wait place)).Pairwise (entries.enter vp (sched.vps vp).effectivePriority deadline).Before := by
      refine (armed.ordered place).imp_of_mem fun {one other} member member' before => ?_
      unfold Entries.Before Precedes at before ⊢
      dsimp only
      rw [(entered one member).1, (entered one member).2, (entered other member').1, (entered other member').2]
      exact before
    by_cases here : place = queue
    · subst here
      obtain ⟨front, back, split, inserted, least, less⟩ := waited.place
      rw [split] at ordered entered
      have waits : ∀ other ∈ front ++ back, (sched.vps other).effectivePriority = entries.priority other ∧
          entries.place other < entries.count := by
        intro other member
        rw [← split] at member
        exact armed.entered other (members place other member)
      have self_priority : (entries.enter vp (sched.vps vp).effectivePriority deadline).priority vp =
          (sched.vps vp).effectivePriority := Function.update_self _ _ _
      have self_place : (entries.enter vp (sched.vps vp).effectivePriority deadline).place vp = entries.count :=
        Function.update_self _ _ _
      rw [inserted]
      refine pairwise_between ordered ?_ ?_ ?_
      · intro other member
        have inQueue := List.mem_append_left back member
        rw [self_priority, (entered other inQueue).1, ← (waits other inQueue).1]
        exact least other member
      · intro other head
        have inQueue := List.mem_append_right front (List.mem_of_head? head)
        rw [self_priority, (entered other inQueue).1, ← (waits other inQueue).1]
        exact less other head
      · intro other member _
        have inQueue := List.mem_append_left back member
        rw [self_place, (entered other inQueue).2]
        exact (waits other inQueue).2
    · rw [waited.elsewhere place here]
      exact ordered

end Steps

/-! ## The end of a quantum -/

section Expiry
variable {sched after : Scheduler} {nodes nodes' : Queues} {dead : List Nat} {entries : Entries} {vp : Nat}
  {queue : WaitQueueName}

/-- The deadline in quantums has been reached. -/
def Scheduler.IsDue (sched : Scheduler) (vp : Nat) : Prop :=
  ∃ deadline, (sched.vps vp).deadline = some deadline ∧ deadline ≤ sched.clock.currentQuantum

/-- The waits that are due have ended with a timeout, and nobody else has changed. -/
structure Scheduler.TimedOut (sched after : Scheduler) : Prop where
  due : ∀ vp, sched.IsDue vp → (after.vps vp).state = .ready ∧ (after.vps vp).deadline = none ∧
    (after.vps vp).wakeupReason = some .timeout
  others : ∀ vp, ¬ sched.IsDue vp → after.vps vp = sched.vps vp

theorem expireTimeouts_timedOut {fuel : Nat} (inv : Inv sched nodes dead) (disciplined : Disciplined sched nodes entries)
    (indexed : sched.Indexed) (timed : sched.quantumsPerQuarterSecond ≠ 0) (enough : sched.timeoutQueue.length < fuel) :
    ∃ after, expireTimeouts fuel sched = .ok () after ∧ sched.TimedOut after := by
  induction fuel generalizing sched nodes with
  | zero => exact absurd enough (Nat.not_lt_zero _)
  | succ fuel ih =>
    rw [expireTimeouts]
    dsimp only
    cases timeouts : sched.timeoutQueue with
    | nil =>
      refine ⟨sched, rfl, fun vp due => ?_, fun _ _ => rfl⟩
      obtain ⟨deadline, valid, -⟩ := due
      have member := (disciplined.timeouts vp).mpr (by simp [valid])
      rw [timeouts] at member
      exact absurd member List.not_mem_nil
    | cons vp rest =>
      have sorted := disciplined.sorted
      rw [timeouts, List.pairwise_cons] at sorted
      have first : (sched.vps vp).deadline ≠ none :=
        (disciplined.timeouts vp).mp (by rw [timeouts]; exact List.mem_cons_self)
      have isWaiting := disciplined.waiting vp first
      rw [List.head?_cons]
      dsimp only
      split
      · rename_i early
        refine ⟨sched, rfl, fun other due => ?_, fun _ _ => rfl⟩
        obtain ⟨deadline, valid, reached⟩ := due
        have member := (disciplined.timeouts other).mpr (by simp [valid])
        have least : sched.due vp ≤ sched.due other := by
          rw [timeouts] at member
          rcases List.mem_cons.mp member with rfl | later
          · exact le_refl _
          · exact sorted.1 other later
        have same : sched.due other = deadline := by
          unfold Scheduler.due
          rw [valid]
          rfl
        change sched.clock.currentQuantum < sched.due vp at early
        omega
      · rename_i late
        obtain ⟨queue, on, -⟩ := (inv.held.placed vp).waiting isWaiting
        rw [on]
        dsimp only
        obtain ⟨middle, returns⟩ := inv.wakes indexed isWaiting on timed .timeout
        have woken := wakeUpOne_woken inv (fun _ => on) .timeout
        rw [returns] at woken
        have can : (sched.vps vp).CanWake .timeout := ⟨isWaiting, fun impossible => by simp at impossible⟩
        obtain ⟨nodes', inv', ended⟩ : Inv.Woken sched nodes dead vp .timeout middle := by
          rcases woken with ⟨cannot, -⟩ | ⟨-, ended⟩
          · exact absurd can cannot
          · exact ended
        have shorter : middle.timeoutQueue = rest := by
          rw [ended.timeoutQueue, if_neg first, timeouts, List.erase_cons_head]
        have fewer : middle.timeoutQueue.length < fuel := by
          rw [timeouts, List.length_cons] at enough
          rw [shorter]
          omega
        obtain ⟨after, loops, expired⟩ := ih inv' (disciplined.woken ended) (indexed.woken ended)
          (by rw [ended.quantumsPerQuarterSecond]; exact timed) fewer
        have due_iff : ∀ other, other ≠ vp → (middle.IsDue other ↔ sched.IsDue other) := by
          intro other different
          unfold Scheduler.IsDue
          rw [ended.others other different, ended.clock]
        have notDue : ¬ middle.IsDue vp := by
          rintro ⟨deadline, valid, -⟩
          rw [ended.deadline] at valid
          exact absurd valid (by simp)
        have isDue : sched.IsDue vp := by
          obtain ⟨deadline, valid⟩ := Option.ne_none_iff_exists'.mp first
          rw [valid] at late
          exact ⟨deadline, valid, not_lt.mp late⟩
        refine ⟨after, by rw [Code.bind_of_ok returns]; exact loops, fun other due => ?_, fun other undue => ?_⟩
        · by_cases same : other = vp
          · rw [same, expired.others vp notDue]
            exact ⟨ended.isReady, ended.deadline, ended.wakeupReason⟩
          · exact expired.due other ((due_iff other same).mpr due)
        · have different : other ≠ vp := by
            rintro rfl
            exact undue isDue
          rw [expired.others other (mt (due_iff other different).mp undue), ended.others other different]

/-- Nobody but the running virtual processor changes while the best one is scheduled in its place. -/
theorem preempt_returns {current best : Nat} (inv : Inv sched nodes dead) (indexed : sched.Indexed)
    (unscheduled : sched.scheduled = none) (has : sched.running = some current)
    (found : getHighestPriorityReady sched = some best) :
    ∃ after, (do
      removeVirtualProcessorLocked best
      addVirtualProcessorLocked current (sched.vps current).priority
      Code.modify fun sched => { sched with scheduled := some best } : Code Scheduler Errno Unit) sched =
        .ok () after ∧ ∀ other, other ≠ current → after.vps other = sched.vps other := by
  obtain ⟨removed, pri, front, back, returns, -, -, swapped, relisted, living, absent⟩ :=
    inv.pulled unscheduled has found
  have resumed : (removed.vps current).suspensionCount = 0 := by
    rw [relisted.vps]
    exact (inv.running_loose unscheduled has).resumed
  obtain ⟨added, adds⟩ := addVirtualProcessorLocked_returns (swapped.entered.detached current living absent) resumed
    (indexed.ranked current).priority
  have held := addVirtualProcessorLocked_held swapped living absent (sched.vps current).priority
  rw [adds] at held
  obtain ⟨-, -, queued⟩ := held
  refine ⟨_, by rw [Code.bind_of_ok returns, Code.bind_of_ok adds, Code.modify_apply], fun other elsewhere => ?_⟩
  exact (queued.others other elsewhere).trans (congrFun relisted.vps other)

theorem expireTimeSlice_returns {current : Nat} (inv : Inv sched nodes dead) (indexed : sched.Indexed)
    (unscheduled : sched.scheduled = none) (has : sched.running = some current) :
    ∃ after, expireTimeSlice current sched = .ok () after ∧
      ∀ other, other ≠ current → after.vps other = sched.vps other := by
  obtain ⟨aged, calm⟩ := inv.aged (inv.current unscheduled current has)
  unfold expireTimeSlice
  dsimp only
  split
  · rename_i best found
    split
    · exact ⟨_, rfl, fun other elsewhere => setVp_of_ne elsewhere _⟩
    · obtain ⟨after, returns, others⟩ := preempt_returns aged (indexed.calm calm) unscheduled has found
      exact ⟨after, returns, fun other elsewhere => (others other elsewhere).trans (setVp_of_ne elsewhere _)⟩
  · exact ⟨_, rfl, fun other elsewhere => setVp_of_ne elsewhere _⟩

/-- After the timeouts, the end of a quantum changes nobody but the running virtual processor, who did not wait. -/
theorem onEndOfQuantum_timedOut {fuel : Nat} (inv : Inv sched nodes dead) (disciplined : Disciplined sched nodes entries)
    (indexed : sched.Indexed) (timed : sched.quantumsPerQuarterSecond ≠ 0) (unscheduled : sched.scheduled = none)
    (enough : sched.timeoutQueue.length < fuel) :
    ∃ middle after current, onEndOfQuantum fuel sched = .ok () after ∧ sched.TimedOut middle ∧
      (middle.vps current).state = .running ∧ ∀ other, other ≠ current → after.vps other = middle.vps other := by
  obtain ⟨middle, expires, timedOut⟩ := expireTimeouts_timedOut inv disciplined indexed timed enough
  have kept := @expireTimeouts_inv sched nodes dead fuel inv
  rw [expires] at kept
  obtain ⟨nodes', settles, scheduled⟩ := kept
  have free := scheduled.trans unscheduled
  obtain ⟨current, owns, -⟩ := settles.inv.owner
  rw [Scheduler.owner, free] at owns
  have has : middle.running = some current := owns
  have isRunning := settles.inv.current free current has
  let spend : VirtualProcessor → VirtualProcessor := fun self => { self with
    quantumAllowance := (middle.vps current).quantumAllowance - 1 }
  have spent : Inv (middle.setVp current spend) nodes' dead :=
    settles.inv.adjust rfl rfl rfl (fun _ => rfl) fun _ => rfl
  have still : (middle.setVp current spend).Indexed :=
    (indexed.settles settles).calm (setVp_calm (.of_rest rfl rfl rfl rfl rfl rfl))
  obtain ⟨after, slices, others⟩ := expireTimeSlice_returns spent still free has
  unfold onEndOfQuantum
  rw [Code.bind_of_ok expires, Code.bind_of_ok (Code.get_apply middle), has]
  dsimp only
  rw [Code.bind_of_ok (Code.modify_apply _ _)]
  split
  · exact ⟨middle, _, current, rfl, timedOut, isRunning, fun other elsewhere => setVp_of_ne elsewhere spend⟩
  · exact ⟨middle, after, current, slices, timedOut, isRunning,
      fun other elsewhere => (others other elsewhere).trans (setVp_of_ne elsewhere spend)⟩

end Expiry

/-! ## Deadlines -/

section Deadlines
variable {nsPerQuantum : Int} {sched after : Scheduler} {nodes nodes' : Queues} {dead : List Nat} {entries : Entries}
  {vp : Nat}

/-- The number of quantums up to a deadline fits its variable. -/
def IsNear (nsPerQuantum : Int) (time : TimeInterval) : Prop :=
  time.Canonical ∧ ceilQuantums nsPerQuantum time.nanos < 2147483648

instance (nsPerQuantum : Int) (time : TimeInterval) : Decidable (IsNear nsPerQuantum time) :=
  inferInstanceAs (Decidable (_ ∧ _))

/-- The clock has not run over, and whoever waits has begun to since boot. -/
structure Clocked (nsPerQuantum : Int) (sched : Scheduler) (entries : Entries) : Prop where
  ticked : ∃ count : Nat, count < 2147483648 ∧
    sched.clock = (MonotonicClock.createForLocalCPU nsPerQuantum).ticked count
  since : ∀ vp, (sched.vps vp).state = .waiting →
    0 ≤ (sched.vps vp).waitStartTime ∧ (sched.vps vp).waitStartTime ≤ sched.clock.currentQuantum
  near : ∀ vp time, (sched.vps vp).state = .waiting → entries.deadline vp = some time → IsNear nsPerQuantum time

theorem ticked_quantum (positive : 0 < nsPerQuantum) (short : nsPerQuantum ≤ oneSecondInNanos) {count : Nat}
    (small : count < 2147483648) :
    ((MonotonicClock.createForLocalCPU nsPerQuantum).ticked count).currentQuantum = count := by
  have low : -2147483648 ≤ (count : Int) := by omega
  have high : (count : Int) < 2147483648 := by omega
  rw [ticked_eq positive short]
  dsimp only
  rw [toLong_eq_self low high]

variable (clocked : Clocked nsPerQuantum sched entries)
include clocked

theorem Clocked.reads (positive : 0 < nsPerQuantum) (short : nsPerQuantum ≤ oneSecondInNanos) :
    sched.clock.nsPerQuantum = nsPerQuantum ∧ 0 ≤ sched.clock.currentQuantum ∧
      sched.clock.currentTime.nanos = sched.clock.currentQuantum * nsPerQuantum := by
  obtain ⟨count, small, clock⟩ := clocked.ticked
  rw [clock]
  refine ⟨?_, ?_, ticked_agrees positive short count (.inl small)⟩
  · rw [ticked_eq positive short]
  · rw [ticked_quantum positive short small]
    exact Int.natCast_nonneg count

theorem Clocked.calm (calm : sched.Calm after) : Clocked nsPerQuantum after entries := by
  refine ⟨?_, fun vp isWaiting => ?_, fun vp time isWaiting => ?_⟩
  · rw [calm.clock]
    exact clocked.ticked
  · have before := (calm.same vp).waiting.mp isWaiting
    rw [calm.clock, (calm.same vp).since before]
    exact clocked.since vp before
  · exact clocked.near vp time ((calm.same vp).waiting.mp isWaiting)

theorem Clocked.settles (settles : Settles dead sched nodes after nodes') : Clocked nsPerQuantum after entries := by
  induction settles with
  | refl _ => exact clocked
  | calm _ _ same _ ih => exact ih.calm same
  | @woken _ _ _ _ _ vp _ _ _ _ ended ih =>
    refine ⟨?_, fun other isWaiting => ?_, fun other time isWaiting => ?_⟩
    · rw [ended.clock]
      exact ih.ticked
    all_goals
      have different : other ≠ vp := by
        rintro rfl
        exact absurd (ended.isReady.symm.trans isWaiting) (by simp)
      rw [ended.others other different] at isWaiting
    · rw [ended.others other different, ended.clock]
      exact ih.since other isWaiting
    · exact ih.near other time isWaiting

theorem Clocked.arm (vp : Nat) (deadline : TimeInterval) :
    Clocked nsPerQuantum (armTimeout sched vp deadline) entries := by
  have vps := armTimeout_vps sched vp deadline
  refine ⟨clocked.ticked, fun other isWaiting => ?_, fun other time isWaiting => ?_⟩
  · rw [vps] at isWaiting ⊢
    exact clocked.since other isWaiting
  · rw [vps] at isWaiting
    exact clocked.near other time isWaiting

theorem Clocked.waited {queue : WaitQueueName} {deadline : Option TimeInterval} {priority : Int}
    (waited : sched.Waited nodes vp queue after nodes')
    (positive : 0 < nsPerQuantum) (short : nsPerQuantum ≤ oneSecondInNanos)
    (near : ∀ time, deadline = some time → IsNear nsPerQuantum time) :
    Clocked nsPerQuantum after (entries.enter vp priority deadline) := by
  refine ⟨?_, fun other isWaiting => ?_, fun other time isWaiting entered => ?_⟩
  · rw [waited.clock]
    exact clocked.ticked
  · rw [waited.clock]
    by_cases same : other = vp
    · rw [same, waited.since]
      exact ⟨(clocked.reads positive short).2.1, le_refl _⟩
    · have before := (waited.others other same).waiting.mp isWaiting
      rw [(waited.others other same).since before]
      exact clocked.since other before
  · unfold Entries.enter at entered
    dsimp only at entered
    by_cases same : other = vp
    · rw [same, Function.update_self] at entered
      exact near time entered
    · rw [Function.update_of_ne same] at entered
      exact clocked.near other time ((waited.others other same).waiting.mp isWaiting) entered

theorem Clocked.tick (positive : 0 < nsPerQuantum)
    (short : nsPerQuantum ≤ oneSecondInNanos) (early : sched.clock.currentQuantum < 2147483647) :
    Clocked nsPerQuantum { sched with clock := sched.clock.onInterrupt } entries ∧
      ∀ vp, (sched.vps vp).state = .waiting → slept sched vp < 2147483647 := by
  have low := (clocked.reads positive short).2.1
  have next : sched.clock.onInterrupt.currentQuantum = sched.clock.currentQuantum + 1 :=
    toLong_eq_self (by omega) (by omega)
  refine ⟨⟨?_, fun vp isWaiting => ?_, clocked.near⟩, fun vp isWaiting => ?_⟩
  · obtain ⟨count, small, clock⟩ := clocked.ticked
    rw [clock, ticked_quantum positive short small] at early
    exact ⟨count + 1, by omega, by rw [clock]; rfl⟩
  · obtain ⟨start, before⟩ := clocked.since vp isWaiting
    dsimp only
    omega
  · obtain ⟨start, before⟩ := clocked.since vp isWaiting
    unfold slept
    rw [toLong_eq_self (by omega) (by omega)]
    omega

/-- The wait of a virtual processor has a deadline, and the clock has reached it. -/
def Entries.IsDue (entries : Entries) (sched : Scheduler) (vp : Nat) : Prop :=
  (sched.vps vp).state = .waiting ∧
    ∃ time, entries.deadline vp = some time ∧ time.nanos ≤ sched.clock.currentTime.nanos

theorem Clocked.isDue_iff (disciplined : Disciplined sched nodes entries) (positive : 0 < nsPerQuantum)
    (short : nsPerQuantum ≤ oneSecondInNanos) : entries.IsDue sched vp ↔ sched.IsDue vp := by
  obtain ⟨ns, -, agrees⟩ := clocked.reads positive short
  have reached : ∀ time, IsNear nsPerQuantum time →
      (sched.clock.armed time ≤ sched.clock.currentQuantum ↔ time.nanos ≤ sched.clock.currentTime.nanos) := by
    rintro time ⟨canonical, near⟩
    have armed : sched.clock.armed time = ceilQuantums nsPerQuantum time.nanos := by
      change (MonotonicClock.createForLocalCPU sched.clock.nsPerQuantum).armed time = _
      rw [ns]
      exact (armed_eq_iff positive canonical).mpr near
    rw [armed, agrees]
    exact ceilQuantums_le_iff positive _
  constructor
  · rintro ⟨isWaiting, time, entered, late⟩
    have armed := disciplined.armed vp isWaiting
    rw [entered] at armed
    exact ⟨_, armed, (reached time (clocked.near vp time isWaiting entered)).mpr late⟩
  · rintro ⟨deadline, valid, late⟩
    have isWaiting := disciplined.waiting vp (by simp [valid])
    have armed := disciplined.armed vp isWaiting
    rw [valid] at armed
    obtain ⟨time, entered, rfl⟩ := Option.map_eq_some_iff.mp armed.symm
    exact ⟨isWaiting, time, entered, (reached time (clocked.near vp time isWaiting entered)).mp late⟩

/-- The waits whose deadline has been reached have ended with a timeout, and the others go on. -/
structure Scheduler.Expired (sched : Scheduler) (entries : Entries) (after : Scheduler) : Prop where
  due : ∀ vp, entries.IsDue sched vp → (after.vps vp).state = .ready ∧ (after.vps vp).deadline = none ∧
    (after.vps vp).wakeupReason = some .timeout
  others : ∀ vp, (sched.vps vp).state = .waiting → ¬ entries.IsDue sched vp → after.vps vp = sched.vps vp

theorem onEndOfQuantum_expired {fuel : Nat} (inv : Inv sched nodes dead) (disciplined : Disciplined sched nodes entries)
    (indexed : sched.Indexed) (positive : 0 < nsPerQuantum)
    (short : nsPerQuantum ≤ oneSecondInNanos) (timed : sched.quantumsPerQuarterSecond ≠ 0)
    (unscheduled : sched.scheduled = none) (enough : sched.timeoutQueue.length < fuel) :
    ∃ after, onEndOfQuantum fuel sched = .ok () after ∧ sched.Expired entries after := by
  obtain ⟨middle, after, current, returns, timedOut, isRunning, others⟩ :=
    onEndOfQuantum_timedOut inv disciplined indexed timed unscheduled enough
  refine ⟨after, returns, fun vp due => ?_, fun vp isWaiting undue => ?_⟩
  · have ended := timedOut.due vp ((clocked.isDue_iff disciplined positive short).mp due)
    have different : vp ≠ current := by
      rintro rfl
      exact absurd (ended.1.symm.trans isRunning) (by simp)
    rw [others vp different]
    exact ended
  · have kept := timedOut.others vp (mt (clocked.isDue_iff disciplined positive short).mpr undue)
    have different : vp ≠ current := by
      rintro rfl
      rw [kept, isWaiting] at isRunning
      exact absurd isRunning (by simp)
    exact (others vp different).trans kept

end Deadlines

/-! ## Runs -/

/-- The actions after boot that do not terminate a virtual processor.  A priority that is set has a list, a deadline
is near, and the clock does not run over. -/
def Action.isLiving (sched : Scheduler) : Action → Bool
  | .onClockInterrupt => decide (sched.clock.currentQuantum < 2147483647)
  | .waitOn _ (some deadline) _ => decide (IsNear sched.clock.nsPerQuantum deadline.time)
  | .setPriority _ priority => decide (0 ≤ priority ∧ priority < 64)
  | .finishBoot | .terminate | .takeDeadVps | .destroyDeadVp => false
  | _ => true

def RecordedStep (sys : Scheduler × Entries) (action : Action) (sys' : Scheduler × Entries) : Prop :=
  Step sys.1 action sys'.1 ∧ sys'.2 = sys.2.record sys.1 action sys'.1

def WaitStep (sys : Scheduler × Entries) (action : Action) (sys' : Scheduler × Entries) : Prop :=
  RecordedStep sys action sys' ∧ action.isLiving sys.1 = true

/-- Interrupts are disabled up to here. -/
def FinishesBoot (nsPerQuantum : Int) (sched : Scheduler) : Prop :=
  ∃ first, Step (booted nsPerQuantum) .switchContext first ∧ Step first .finishBoot sched

/-- What holds of timeouts and wait queues; `nodes` are the virtual processors on each wait queue. -/
structure WaitsSound (sched : Scheduler) (entries : Entries) (nodes : WaitQueueName → List Nat) : Prop where
  sorted : sched.timeoutQueue.Pairwise fun vp other => sched.due vp ≤ sched.due other
  nodup : sched.timeoutQueue.Nodup
  timeouts : ∀ vp, vp ∈ sched.timeoutQueue ↔ ∃ deadline, (sched.vps vp).deadline = some deadline
  waiting : ∀ vp ∈ sched.timeoutQueue, (sched.vps vp).state = .waiting ∧
    (∃ time, entries.deadline vp = some time) ∧
    ∃ queue, (sched.vps vp).waitingOnWaitQueue = some queue ∧ vp ∈ nodes queue
  holds : ∀ queue, (sched.lists (.wait queue)).Holds sched.rewaQueueEntries (nodes queue)
  ordered : ∀ queue, (nodes queue).Pairwise entries.Before
  expires : sched.scheduled = none → ∀ fuel, sched.timeoutQueue.length < fuel →
    ∃ after, perform fuel .onEndOfQuantum sched = .ok () after ∧ sched.Expired entries after

/-- What every step after boot keeps. -/
structure Watched (nsPerQuantum : Int) (sys : Scheduler × Entries) (nodes : Queues) : Prop where
  inv : Inv sys.1 nodes []
  disciplined : Disciplined sys.1 nodes sys.2
  indexed : sys.1.Indexed
  clocked : Clocked nsPerQuantum sys.1 sys.2
  timed : sys.1.quantumsPerQuarterSecond ≠ 0

section Runs
variable {nsPerQuantum : Int} {sched after : Scheduler} {nodes : Queues} {entries : Entries} {action : Action}
  {sys sys' : Scheduler × Entries}

theorem Watched.sound (watched : Watched nsPerQuantum sys nodes) (positive : 0 < nsPerQuantum)
    (short : nsPerQuantum ≤ oneSecondInNanos) : WaitsSound sys.1 sys.2 fun queue => nodes (.wait queue) where
  sorted := watched.disciplined.sorted
  nodup := watched.disciplined.nodup
  timeouts vp := (watched.disciplined.timeouts vp).trans Option.ne_none_iff_exists'
  waiting vp member := by
    have valid := (watched.disciplined.timeouts vp).mp member
    have isWaiting := watched.disciplined.waiting vp valid
    obtain ⟨deadline, armed⟩ := Option.ne_none_iff_exists'.mp valid
    rw [watched.disciplined.armed vp isWaiting] at armed
    obtain ⟨time, entered, -⟩ := Option.map_eq_some_iff.mp armed
    exact ⟨isWaiting, ⟨time, entered⟩, (watched.inv.held.placed vp).waiting isWaiting⟩
  holds queue := watched.inv.held.entered.shelved.holds (.wait queue)
  ordered := watched.disciplined.ordered
  expires unscheduled _ enough := onEndOfQuantum_expired watched.clocked watched.inv watched.disciplined watched.indexed
    positive short watched.timed unscheduled enough

theorem Action.isLiving.cases (living : action.isLiving sched = true) :
    (∃ queue deadline isInterruptable, action = .waitOn queue deadline isInterruptable) ∨
      action = .onClockInterrupt ∨ action.Settling := by
  cases action with
  | waitOn queue deadline isInterruptable => exact .inl ⟨queue, deadline, isInterruptable, rfl⟩
  | onClockInterrupt => exact .inr (.inl rfl)
  | setPriority vp priority =>
    have listed : 0 ≤ priority ∧ priority < 64 := of_decide_eq_true living
    exact .inr (.inr listed)
  | finishBoot => exact absurd living Bool.false_ne_true
  | terminate => exact absurd living Bool.false_ne_true
  | takeDeadVps => exact absurd living Bool.false_ne_true
  | destroyDeadVp => exact absurd living Bool.false_ne_true
  | _ => exact .inr (.inr trivial)

theorem Settles.quantumsPerQuarterSecond {nodes' : Queues} {dead : List Nat}
    (settles : Settles dead sched nodes after nodes') :
    after.quantumsPerQuarterSecond = sched.quantumsPerQuarterSecond := by
  induction settles with
  | refl _ => rfl
  | calm _ _ same _ ih => exact same.quantumsPerQuarterSecond.trans ih
  | woken _ _ _ ended ih => exact ended.quantumsPerQuarterSecond.trans ih

theorem Watched.waits {queue : WaitQueueName} {deadline : Option Deadline} {isInterruptable : Bool}
    (watched : Watched nsPerQuantum (sched, entries) nodes) (positive : 0 < nsPerQuantum)
    (short : nsPerQuantum ≤ oneSecondInNanos)
    (near : ∀ time, deadline.map Deadline.time = some time → IsNear nsPerQuantum time)
    (waits : Inv.Waits sched nodes [] queue deadline after) :
    ∃ nodes', Watched nsPerQuantum
      (after, entries.record sched (.waitOn queue deadline isInterruptable) after) nodes' := by
  obtain ⟨vp, has, loose, nodes', inv', waited⟩ := waits
  have recorded : entries.record sched (.waitOn queue deadline isInterruptable) after =
      entries.enter vp (sched.vps vp).effectivePriority (deadline.map Deadline.time) := by
    unfold Entries.record
    rw [has]
    dsimp only
    rw [if_pos waited.isWaiting]
  have members : ∀ queue, ∀ other ∈ nodes (.wait queue), (sched.vps other).state = .waiting :=
    fun queue other member => ((watched.inv.held.placed other).waits queue member).2.1
  have timed : after.quantumsPerQuarterSecond = sched.quantumsPerQuarterSecond := by
    rw [waited.quantumsPerQuarterSecond]
    cases deadline <;> rfl
  rw [recorded]
  refine ⟨nodes', inv', ?_, ?_, ?_, fun none => watched.timed (timed.symm.trans none)⟩
  all_goals cases deadline with
    | none => ?_
    | some due => ?_
  · exact (watched.disciplined.endless loose.awake).waited loose.absent members waited
  · have ready := (watched.disciplined.arm loose.awake due.time).waited loose.absent
      (fun queue other member => by rw [armTimeout_vps]; exact members queue other member) waited
    rw [armTimeout_vps] at ready
    exact ready
  · exact watched.indexed.waited waited
  · exact (watched.indexed.arm vp due.time).waited waited
  · exact watched.clocked.waited waited positive short near
  · exact (watched.clocked.arm vp due.time).waited waited positive short near

theorem Watched.tick (watched : Watched nsPerQuantum (sched, entries) nodes) (positive : 0 < nsPerQuantum)
    (short : nsPerQuantum ≤ oneSecondInNanos) (early : sched.clock.currentQuantum < 2147483647) :
    Watched nsPerQuantum ({ sched with clock := sched.clock.onInterrupt }, entries) nodes := by
  obtain ⟨inv, disciplined, indexed, clocked, timed⟩ := watched
  obtain ⟨ticked, patient⟩ := clocked.tick positive short early
  exact ⟨inv.congr rfl rfl rfl rfl rfl rfl rfl rfl rfl, ⟨disciplined.sorted, disciplined.nodup, disciplined.timeouts,
    disciplined.waiting, disciplined.entered, disciplined.armed, disciplined.ordered⟩, indexed.tick patient, ticked,
    timed⟩

theorem waitStep_watched (watched : Watched nsPerQuantum sys nodes) (positive : 0 < nsPerQuantum)
    (short : nsPerQuantum ≤ oneSecondInNanos) (taken : WaitStep sys action sys') :
    ∃ nodes', Watched nsPerQuantum sys' nodes' := by
  obtain ⟨sched, entries⟩ := sys
  obtain ⟨after, entries'⟩ := sys'
  obtain ⟨⟨step, recorded⟩, living⟩ := taken
  dsimp only at step recorded living
  subst recorded
  rcases Action.isLiving.cases living with ⟨queue, deadline, isInterruptable, rfl⟩ | rfl | settling
  · rcases waitOn_step watched.inv step with same | waits
    · have enabled : sched.scheduled = none := step.1
      have kept : entries.record sched (.waitOn queue deadline isInterruptable) after = entries := by
        unfold Entries.record
        rw [same]
        cases has : sched.running with
        | none => rfl
        | some vp =>
          dsimp only
          rw [if_neg (watched.inv.running_loose enabled has).awake]
      rw [kept, same]
      exact ⟨nodes, watched⟩
    · refine watched.waits positive short (fun time has => ?_) waits
      obtain ⟨due, rfl, rfl⟩ := Option.map_eq_some_iff.mp has
      have near : IsNear sched.clock.nsPerQuantum due.time := of_decide_eq_true living
      rw [(watched.clocked.reads positive short).1] at near
      exact near
  · rw [onClockInterrupt_step step]
    exact ⟨nodes, watched.tick positive short (of_decide_eq_true living)⟩
  · obtain ⟨nodes', settles⟩ := step_settles watched.inv step settling
    have kept : entries.record sched action after = entries := by
      cases action with
      | waitOn queue deadline isInterruptable => exact settling.elim
      | _ => rfl
    rw [kept]
    exact ⟨nodes', settles.inv, watched.disciplined.settles settles, watched.indexed.settles settles,
      watched.clocked.settles settles, fun none => watched.timed (settles.quantumsPerQuarterSecond.symm.trans none)⟩

/-! ## Boot -/

theorem created_awake (vp : Nat) : (created.vps vp).state ≠ .waiting ∧ (created.vps vp).deadline = none := by
  constructor
  · intro isWaiting
    have before := (created_calm.same vp).waiting.mp isWaiting
    rw [bootMemory_state] at before
    exact absurd before (by simp)
  · rcases (created_calm.same vp).deadline with same | ⟨-, none⟩
    · rw [same]
      unfold bootMemory
      dsimp only
      split <;> rfl
    · exact none

theorem booted_watched (positive : 0 < nsPerQuantum) :
    ∃ nodes, Inv (booted nsPerQuantum) nodes [] ∧ Disciplined (booted nsPerQuantum) nodes Entries.start ∧
      Clocked nsPerQuantum (booted nsPerQuantum) Entries.start ∧ (booted nsPerQuantum).Indexed := by
  obtain ⟨nodes, inv⟩ := booted_inv nsPerQuantum
  have awake := fun vp => (created_awake vp).1
  have untimed := fun vp => (created_awake vp).2
  have empty : (booted nsPerQuantum).timeoutQueue = [] := created_calm.timeoutQueue
  have unlisted : ∀ queue, nodes (.wait queue) = [] := by
    intro queue
    refine List.eq_nil_iff_forall_not_mem.mpr fun vp member => ?_
    exact awake vp ((inv.held.placed vp).waits queue member).2.1
  refine ⟨nodes, inv, ⟨?_, ?_, fun vp => ?_, fun vp valid => absurd (untimed vp) valid,
    fun vp isWaiting => absurd isWaiting (awake vp), fun vp isWaiting => absurd isWaiting (awake vp), fun queue => ?_⟩,
    ⟨⟨0, by decide, rfl⟩, fun vp isWaiting => absurd isWaiting (awake vp),
      fun vp _ isWaiting => absurd isWaiting (awake vp)⟩, booted_indexed positive⟩
  · rw [empty]
    exact List.Pairwise.nil
  · rw [empty]
    exact List.nodup_nil
  · rw [empty]
    exact iff_of_false List.not_mem_nil (not_not.mpr (untimed vp))
  · rw [unlisted]
    exact List.Pairwise.nil

theorem finishesBoot_watched (positive : 0 < nsPerQuantum) (boots : FinishesBoot nsPerQuantum sched) :
    ∃ nodes, Watched nsPerQuantum (sched, Entries.start) nodes := by
  obtain ⟨first, ⟨scheduled, fuel, switches⟩, finishes⟩ := boots
  obtain ⟨nodes, inv, disciplined, clocked, indexed⟩ := booted_watched positive
  obtain ⟨nodes', inv', calm, waits⟩ : Inv.Steady (booted nsPerQuantum) nodes [] first :=
    ((switchContext_step inv scheduled).mono (fun _ _ => id) fun _ _ => False.elim).of_state switches
  obtain ⟨nodes'', inv'', same, waits'⟩ := finishBoot_step inv' finishes
  have ready := disciplined.calm calm waits
  have listed := indexed.calm calm
  have timed : Disciplined first.timed nodes' Entries.start :=
    ⟨ready.sorted, ready.nodup, ready.timeouts, ready.waiting, ready.entered, ready.armed, ready.ordered⟩
  have ticking : Clocked nsPerQuantum first.timed Entries.start :=
    ⟨(clocked.calm calm).ticked, (clocked.calm calm).since, (clocked.calm calm).near⟩
  have quarter := armed_pos listed.clock
  have boosts : first.timed.Indexed := ⟨listed.ranked, listed.sleeps, quarter.le, listed.clock⟩
  refine ⟨nodes'', inv'', timed.calm same waits', boosts.calm same, ticking.calm same, ?_⟩
  rw [same.quantumsPerQuarterSecond]
  exact quarter.ne'

end Runs

/-- In every run after boot in which nobody is terminated. -/
theorem living_runs_waitsSound {nsPerQuantum : Int} {labels : List Action} {started : Scheduler}
    {sys : Scheduler × Entries} (positive : 0 < nsPerQuantum) (short : nsPerQuantum ≤ oneSecondInNanos)
    (boots : FinishesBoot nsPerQuantum started) (run : Runs WaitStep (started, Entries.start) labels sys) :
    ∃ nodes, WaitsSound sys.1 sys.2 nodes := by
  have reached : ∃ nodes, Watched nsPerQuantum sys nodes := by
    refine run.invariant (fun sys => ∃ nodes, Watched nsPerQuantum sys nodes) (finishesBoot_watched positive boots) ?_
    rintro action state next ⟨before, watched⟩ taken
    exact waitStep_watched watched positive short taken
  obtain ⟨nodes, watched⟩ := reached
  exact ⟨_, watched.sound positive short⟩

def performRecorded (sys : Scheduler × Entries) (action : Action) : Option (Scheduler × Entries) :=
  (performStep sys.1 action).map fun after => (after, sys.2.record sys.1 action after)

theorem performRecorded_step (sys : Scheduler × Entries) (action : Action) (sys' : Scheduler × Entries)
    (performs : performRecorded sys action = some sys') : RecordedStep sys action sys' := by
  obtain ⟨after, step, rfl⟩ := Option.map_eq_some_iff.mp performs
  exact ⟨performStep_step _ _ _ step, rfl⟩

def performWait (sys : Scheduler × Entries) (action : Action) : Option (Scheduler × Entries) :=
  if action.isLiving sys.1 then performRecorded sys action else none

theorem performWait_waitStep (sys : Scheduler × Entries) (action : Action) (sys' : Scheduler × Entries)
    (performs : performWait sys action = some sys') : WaitStep sys action sys' := by
  unfold performWait at performs
  split at performs
  · rename_i living
    exact ⟨performRecorded_step _ _ _ performs, living⟩
  · exact absurd performs (by simp)

def performBoot : Option Scheduler :=
  (performStep (booted 16761906) .switchContext).bind fun first => performStep first .finishBoot

theorem performBoot_finishesBoot {started : Scheduler} (performs : performBoot = some started) :
    FinishesBoot 16761906 started := by
  obtain ⟨first, switches, finishes⟩ := Option.bind_eq_some_iff.mp performs
  exact ⟨first, performStep_step _ _ _ switches, performStep_step _ _ _ finishes⟩

def sleepingActions : List Action :=
  [.create, .resume 2 false, .waitOn .sleep (some ⟨false, ⟨0, 40000000⟩⟩) true,
    .waitOn .sleep (some ⟨false, ⟨1, 0⟩⟩) true, .onClockInterrupt]

theorem sleepingActions_waitsSound :
    ∃ started sys, performBoot = some started ∧
      performAll performWait sleepingActions (started, Entries.start) = some sys ∧
      sys.1.timeoutQueue = [0, 2] ∧ ∃ nodes, WaitsSound sys.1 sys.2 nodes := by
  have performs : (performBoot.bind fun started =>
      (performAll performWait sleepingActions (started, Entries.start)).map fun sys => sys.1.timeoutQueue) =
      some [0, 2] := by decide +kernel
  obtain ⟨started, boots, performs⟩ := Option.bind_eq_some_iff.mp performs
  obtain ⟨sys, reaches, queue⟩ := Option.map_eq_some_iff.mp performs
  have run := Runs.performAll_labels performWait_waitStep .nil reaches
  exact ⟨started, sys, boots, reaches, queue,
    living_runs_waitsSound (by decide) (by decide) (performBoot_finishesBoot boots) run⟩

def farActions : List Action :=
  [.create, .resume 2 false, .waitOn .sleep (some ⟨false, ⟨36000000, 0⟩⟩) true, .onClockInterrupt]

/-- A wait for 36 million seconds ends with the first quantum. -/
theorem farActions_expire :
    ¬ ∀ (nsPerQuantum : Int) (labels : List Action) (started : Scheduler) (sys : Scheduler × Entries),
      0 < nsPerQuantum → nsPerQuantum ≤ oneSecondInNanos → FinishesBoot nsPerQuantum started →
      Runs RecordedStep (started, Entries.start) labels sys → (∀ action ∈ labels, action ≠ .terminate) →
      ∃ nodes, WaitsSound sys.1 sys.2 nodes := by
  intro claim
  have performs : (performBoot.bind fun started =>
      (performAll performRecorded farActions (started, Entries.start)).map fun sys =>
        ((sys.1.scheduled, sys.1.timeoutQueue, sys.2.deadline 0, sys.1.clock.currentTime), (sys.1.vps 0).state,
          (perform 8 .onEndOfQuantum sys.1).state?.map fun after => (after.vps 0).state)) =
      some ((none, [0], some ⟨36000000, 0⟩, ⟨0, 16761906⟩), .waiting, some .ready) := by decide +kernel
  obtain ⟨started, boots, performs⟩ := Option.bind_eq_some_iff.mp performs
  obtain ⟨sys, reaches, ends⟩ := Option.map_eq_some_iff.mp performs
  simp only [Prod.mk.injEq] at ends
  obtain ⟨⟨unscheduled, timeouts, entered, now⟩, isWaiting, wakes⟩ := ends
  have run := Runs.performAll_labels performRecorded_step .nil reaches
  obtain ⟨nodes, sound⟩ := claim 16761906 _ started sys (by decide) (by decide) (performBoot_finishesBoot boots) run
    (by decide)
  obtain ⟨after, returns, expired⟩ := sound.expires unscheduled 8 (by rw [timeouts]; decide)
  have undue : ¬ sys.2.IsDue sys.1 0 := by
    rintro ⟨-, time, entered', late⟩
    rw [entered] at entered'
    rw [← Option.some.inj entered', now] at late
    exact absurd late (by decide)
  have still := expired.others 0 isWaiting undue
  rw [returns] at wakes
  have isReady : (after.vps 0).state = .ready := Option.some.inj wakes
  rw [still, isWaiting] at isReady
  exact absurd isReady (by simp)

end Apollo.Dispatcher.VirtualProcessorScheduler
