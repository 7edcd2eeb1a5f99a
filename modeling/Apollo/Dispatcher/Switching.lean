import Apollo.Dispatcher.ReadyQueue

/-!
# Context switches

What the functions that fill and empty the ready queue do, and what holds
between two steps of the scheduler.  `Inv` says who has the CPU: the running
virtual processor, or the one that an interrupt has scheduled in its place.
-/

set_option autoImplicit false

namespace Apollo.Dispatcher.VirtualProcessorScheduler

open Klib
open Lib

theorem readyIndex?_eq_some {pri : Int} {index : Nat} (found : readyIndex? pri = some index) :
    pri = index ∧ index < 64 := by
  unfold readyIndex? at found
  split at found
  · rw [← Option.some.inj found]
    omega
  · exact absurd found (by simp)

theorem readyIndex?_of_lt {index : Nat} (index_lt : index < 64) : readyIndex? (index : Int) = some index := by
  unfold readyIndex?
  rw [if_pos (by omega), Int.toNat_natCast]

/-- Nobody but one virtual processor has changed, and nobody has lost the CPU. -/
structure Scheduler.Touched (sched : Scheduler) (vp : Nat) (after : Scheduler) : Prop where
  running : after.running = sched.running
  scheduled : after.scheduled = sched.scheduled
  isAllocated : after.isAllocated = sched.isAllocated
  others : ∀ other, other ≠ vp → after.vps other = sched.vps other
  kept : (after.vps vp).isTerminated = (sched.vps vp).isTerminated

structure Scheduler.Queued (sched : Scheduler) (vp : Nat) (after : Scheduler) : Prop
    extends Scheduler.Touched sched vp after where
  isReady : (after.vps vp).state = .ready
  resumed : (after.vps vp).suspensionCount = 0

/-- The lists have changed, and nothing else. -/
structure Scheduler.Relisted (sched after : Scheduler) : Prop where
  running : after.running = sched.running
  scheduled : after.scheduled = sched.scheduled
  isAllocated : after.isAllocated = sched.isAllocated
  vps : after.vps = sched.vps

/-! ## Who waits -/

/-- The ready queue has a list for the priorities. -/
structure VirtualProcessor.Ranked (processor : VirtualProcessor) : Prop where
  priority : 0 ≤ processor.priority ∧ processor.priority < 64
  effective : 0 ≤ processor.effectivePriority ∧ processor.effectivePriority < 64

/-- A virtual processor has neither begun to wait nor stopped. -/
structure SameWait (before after : VirtualProcessor) : Prop where
  waiting : after.state = .waiting ↔ before.state = .waiting
  deadline : after.deadline = before.deadline ∨ before.state ≠ .waiting ∧ after.deadline = none
  queue : before.state = .waiting → after.waitingOnWaitQueue = before.waitingOnWaitQueue
  priority : before.state = .waiting → after.effectivePriority = before.effectivePriority
  since : before.state = .waiting → after.waitStartTime = before.waitStartTime
  ranked : before.Ranked → after.Ranked

theorem SameWait.refl (self : VirtualProcessor) : SameWait self self :=
  ⟨Iff.rfl, .inl rfl, fun _ => rfl, fun _ => rfl, fun _ => rfl, id⟩

theorem SameWait.trans {first second third : VirtualProcessor} (one : SameWait first second)
    (two : SameWait second third) : SameWait first third where
  waiting := two.waiting.trans one.waiting
  deadline := by
    rcases two.deadline with same | ⟨awake, none⟩
    · rcases one.deadline with before | ⟨awake, none⟩
      · exact .inl (same.trans before)
      · exact .inr ⟨awake, same.trans none⟩
    · exact .inr ⟨fun waits => awake (one.waiting.mpr waits), none⟩
  queue waits := (two.queue (one.waiting.mpr waits)).trans (one.queue waits)
  priority waits := (two.priority (one.waiting.mpr waits)).trans (one.priority waits)
  since waits := (two.since (one.waiting.mpr waits)).trans (one.since waits)
  ranked ranked := two.ranked (one.ranked ranked)

/-- What neither a wait nor the ready queue has to do with may change. -/
theorem SameWait.of_rest {before after : VirtualProcessor} (state : after.state = before.state)
    (deadline : after.deadline = before.deadline) (queue : after.waitingOnWaitQueue = before.waitingOnWaitQueue)
    (effective : after.effectivePriority = before.effectivePriority) (since : after.waitStartTime = before.waitStartTime)
    (priority : after.priority = before.priority) : SameWait before after :=
  ⟨by rw [state], .inl deadline, fun _ => queue, fun _ => effective, fun _ => since,
    fun ranked => ⟨priority.symm ▸ ranked.priority, effective.symm ▸ ranked.effective⟩⟩

/-- Who does not wait may change in any way, as long as it does not begin to. -/
theorem SameWait.of_awake {before after : VirtualProcessor} (awake : before.state ≠ .waiting)
    (still : after.state ≠ .waiting) (deadline : after.deadline = before.deadline ∨ after.deadline = none)
    (ranked : before.Ranked → after.Ranked) : SameWait before after :=
  ⟨iff_of_false still awake, deadline.imp_right fun none => ⟨awake, none⟩, fun waits => absurd waits awake,
    fun waits => absurd waits awake, fun waits => absurd waits awake, ranked⟩

/-- Nobody has begun to wait and nobody has stopped. -/
structure Scheduler.Calm (sched after : Scheduler) : Prop where
  timeoutQueue : after.timeoutQueue = sched.timeoutQueue
  quantumsPerQuarterSecond : after.quantumsPerQuarterSecond = sched.quantumsPerQuarterSecond
  clock : after.clock = sched.clock
  same : ∀ vp, SameWait (sched.vps vp) (after.vps vp)

theorem Scheduler.Calm.refl (sched : Scheduler) : sched.Calm sched := ⟨rfl, rfl, rfl, fun _ => SameWait.refl _⟩

theorem Scheduler.Calm.trans {first second third : Scheduler} (one : first.Calm second) (two : second.Calm third) :
    first.Calm third :=
  ⟨two.timeoutQueue.trans one.timeoutQueue, two.quantumsPerQuarterSecond.trans one.quantumsPerQuarterSecond,
    two.clock.trans one.clock, fun vp => (one.same vp).trans (two.same vp)⟩

theorem Scheduler.Calm.of_eq {sched after : Scheduler} (vps : after.vps = sched.vps)
    (timeoutQueue : after.timeoutQueue = sched.timeoutQueue)
    (quantums : after.quantumsPerQuarterSecond = sched.quantumsPerQuarterSecond) (clock : after.clock = sched.clock) :
    sched.Calm after :=
  ⟨timeoutQueue, quantums, clock, fun vp => by rw [vps]; exact SameWait.refl _⟩

theorem setVp_calm {sched : Scheduler} {vp : Nat} {change : VirtualProcessor → VirtualProcessor}
    (same : SameWait (sched.vps vp) (change (sched.vps vp))) : sched.Calm (sched.setVp vp change) := by
  refine ⟨rfl, rfl, rfl, fun other => ?_⟩
  by_cases here : other = vp
  · rw [here, setVp_self]
    exact same
  · rw [setVp_of_ne here]
    exact SameWait.refl _

def SameWaits (nodes nodes' : Queues) : Prop := ∀ queue, nodes' (.wait queue) = nodes (.wait queue)

theorem SameWaits.refl (nodes : Queues) : SameWaits nodes nodes := fun _ => rfl

theorem SameWaits.trans {first second third : Queues} (one : SameWaits first second) (two : SameWaits second third) :
    SameWaits first third := fun queue => (two queue).trans (one queue)

theorem SameWaits.ready (nodes : Queues) (pri : Nat) (list : List Nat) :
    SameWaits nodes (Function.update nodes (.ready pri) list) := fun _ => Function.update_of_ne (by simp) _ _

section Queue
variable {sched : Scheduler} {nodes : Queues} {dead cover : List Nat} {vp pri : Nat}

theorem Held.ready_lt (held : Held sched nodes dead cover) (member : vp ∈ nodes (.ready pri)) : pri < 64 := by
  by_contra least
  rw [held.mapped.bounded pri (by omega)] at member
  exact absurd member List.not_mem_nil

theorem addVirtualProcessorLocked_held (held : Held sched nodes dead (vp :: cover)) (alive : sched.Alive vp)
    (absent : ∀ name, vp ∉ nodes name) (effectivePriority : Int) :
    (addVirtualProcessorLocked vp effectivePriority sched).Returned
      (fun _ after => ∃ pri, Held after (Function.update nodes (.ready pri) (nodes (.ready pri) ++ [vp])) dead cover ∧
        sched.Queued vp after) fun _ _ => False := by
  unfold addVirtualProcessorLocked
  split
  · rename_i asserted
    have self_eq := setVp_self sched vp (madeReady effectivePriority sched.clock.currentQuantum)
    have changed : Held (sched.setVp vp (madeReady effectivePriority sched.clock.currentQuantum)) nodes dead
        (vp :: cover) := by
      refine held.setVp rfl (fun _ _ member => member) ?_
      refine (held.placed vp).unlisted absent ?_ rfl rfl ?_ fun _ _ => List.mem_cons_self
      · rw [self_eq]
        rfl
      · simp [madeReady]
    have living : (sched.setVp vp (madeReady effectivePriority sched.clock.currentQuantum)).Alive vp := by
      refine ⟨alive.1, ?_⟩
      rw [self_eq]
      exact alive.2
    dsimp only
    split
    · rename_i pri found
      obtain ⟨effective, pri_lt⟩ := readyIndex?_eq_some found
      have pushed := changed.push living absent pri_lt effective (by rw [self_eq]; rfl)
        (by rw [self_eq]; exact asserted.2.2)
      refine ⟨pri, pushed, ⟨rfl, rfl, rfl, ?_, ?_⟩, ?_, ?_⟩
      · intro other different
        exact setVp_of_ne different _
      · exact (congrArg VirtualProcessor.isTerminated self_eq).trans rfl
      · exact congrArg VirtualProcessor.state self_eq
      · exact (congrArg VirtualProcessor.suspensionCount self_eq).trans asserted.2.2
    · trivial
  · trivial

/-- Whoever is put on the ready queue did not wait before. -/
theorem addVirtualProcessorLocked_calm (awake : (sched.vps vp).state ≠ .waiting) (effectivePriority : Int) :
    (addVirtualProcessorLocked vp effectivePriority sched).Returned (fun _ after => sched.Calm after)
      fun _ _ => False := by
  unfold addVirtualProcessorLocked
  split
  · have self_eq := setVp_self sched vp (madeReady effectivePriority sched.clock.currentQuantum)
    dsimp only
    split
    · rename_i pri found
      obtain ⟨effective, pri_lt⟩ := readyIndex?_eq_some found
      rw [self_eq] at effective
      have calm : sched.Calm (sched.setVp vp (madeReady effectivePriority sched.clock.currentQuantum)) := by
        refine setVp_calm (SameWait.of_awake awake ?_ (.inl rfl) fun ranked => ⟨ranked.priority, ?_⟩)
        · simp [madeReady]
        · rw [effective]
          omega
      exact calm.trans (Scheduler.Calm.of_eq rfl rfl rfl rfl)
    · trivial
  · trivial

/-- The ready queue alone changes. -/
theorem removeVirtualProcessorLocked_calm :
    (removeVirtualProcessorLocked vp sched).Returned (fun _ after => sched.Calm after) fun _ _ => False := by
  unfold removeVirtualProcessorLocked
  split
  · dsimp only [Outcome.Returned]
    split
    · exact Scheduler.Calm.of_eq rfl rfl rfl rfl
    · exact Scheduler.Calm.of_eq rfl rfl rfl rfl
  · trivial

theorem removeVirtualProcessorLocked_held (held : Held sched nodes dead cover) (member : vp ∈ nodes (.ready pri)) :
    ∃ after front back, nodes (.ready pri) = front ++ vp :: back ∧
      removeVirtualProcessorLocked vp sched = .ok () after ∧
      Held after (Function.update nodes (.ready pri) (front ++ back)) dead (vp :: cover) ∧ sched.Relisted after := by
  have pri_lt := held.ready_lt member
  obtain ⟨front, back, split⟩ := List.append_of_mem member
  obtain ⟨-, effective, -, -⟩ := (held.placed vp).ready pri member
  have emptied : ((sched.remove (.ready pri) vp).lists (.ready pri)).first = none ↔ front ++ back = [] := by
    rw [(held.entered.remove split).first_none, Function.update_self]
  have pulled := held.pull split pri_lt
  unfold removeVirtualProcessorLocked
  rw [effective, readyIndex?_of_lt pri_lt]
  by_cases empty : front ++ back = []
  · simp only [if_pos (emptied.mpr empty)]
    rw [if_pos empty] at pulled
    exact ⟨_, front, back, split, rfl, pulled, rfl, rfl, rfl, rfl⟩
  · simp only [if_neg fun none => empty (emptied.mp none)]
    rw [if_neg empty] at pulled
    exact ⟨_, front, back, split, rfl, pulled, rfl, rfl, rfl, rfl⟩

/-- The removal of a virtual processor that is not on the ready queue changes nothing there. -/
theorem removeVirtualProcessorLocked_absent (held : Held sched nodes dead cover) (alive : sched.Alive vp)
    (absent : ∀ name, vp ∉ nodes name) :
    (removeVirtualProcessorLocked vp sched).Returned
      (fun _ after => Held after nodes dead cover ∧ sched.Relisted after) fun _ _ => False := by
  unfold removeVirtualProcessorLocked
  split
  · rename_i pri found
    obtain ⟨-, pri_lt⟩ := readyIndex?_eq_some found
    have mapped := held.mapped.pop pri_lt (id : nodes (.ready pri) ≠ [] → _)
    rw [Function.update_eq_self] at mapped
    rw [held.entered.remove_absent alive absent]
    dsimp only
    split
    · rename_i none
      rw [if_pos (held.entered.first_none.mp none)] at mapped
      refine ⟨⟨⟨held.entered.shelved, held.entered.detached⟩, mapped, held.walk, ?_⟩, rfl, rfl, rfl, rfl⟩
      intro other
      exact (held.placed other).congr rfl rfl rfl (fun _ => Iff.rfl) Iff.rfl id
    · exact ⟨held, rfl, rfl, rfl, rfl⟩
  · trivial

theorem getHighestPriorityReady_mem (held : Held sched nodes dead cover)
    (found : getHighestPriorityReady sched = some vp) : ∃ pri, vp ∈ nodes (.ready pri) := by
  rcases highestPriorityReady_highest sched 8 with ⟨pri, -, -, -, first⟩ | ⟨-, none⟩
  · refine ⟨pri, List.mem_of_head? ?_⟩
    rw [← (held.entered.shelved.holds (.ready pri)).first, ← first]
    exact found
  · exact absurd (none.symm.trans found) (by simp)

end Queue

/-! ## Who has the CPU -/

/-- The virtual processor that has the CPU or is about to get it. -/
def Scheduler.owner (sched : Scheduler) : Option Nat := sched.scheduled.or sched.running

/-- A virtual processor that can run and is on no list. -/
structure Loose (sched : Scheduler) (nodes : Queues) (vp : Nat) : Prop where
  alive : sched.Alive vp
  resumed : (sched.vps vp).suspensionCount = 0
  awake : (sched.vps vp).state ≠ .waiting
  absent : ∀ name, vp ∉ nodes name

structure Inv (sched : Scheduler) (nodes : Queues) (dead : List Nat) : Prop where
  held : Held sched nodes dead sched.owner.toList
  owner : ∃ vp, sched.owner = some vp ∧ Loose sched nodes vp
  states : ∀ vp, (sched.vps vp).state = .running → sched.running = some vp
  current : sched.scheduled = none → ∀ vp, sched.running = some vp → (sched.vps vp).state = .running
  alive : ∀ vp, sched.running = some vp → sched.Alive vp

/-- The invariant after a step that neither begins nor ends a wait. -/
def Inv.Steady (sched : Scheduler) (nodes : Queues) (dead : List Nat) (after : Scheduler) : Prop :=
  ∃ nodes', Inv after nodes' dead ∧ sched.Calm after ∧ SameWaits nodes nodes'

section Cpu
variable {sched : Scheduler} {nodes : Queues} {dead cover : List Nat} {vp : Nat}

theorem Inv.steady (inv : Inv sched nodes dead) : Inv.Steady sched nodes dead sched :=
  ⟨nodes, inv, Scheduler.Calm.refl sched, SameWaits.refl nodes⟩

theorem Inv.Steady.inv {after : Scheduler} (steady : Inv.Steady sched nodes dead after) : ∃ nodes, Inv after nodes dead :=
  steady.imp fun _ => And.left

theorem Held.restate (held : Held sched nodes dead cover) (unready : ∀ pri, vp ∉ nodes (.ready pri))
    (awake : (sched.vps vp).state ≠ .waiting) {state : VirtualProcessorState} (state_awake : state ≠ .waiting) :
    Held (sched.setVp vp fun self => { self with state := state }) nodes dead cover := by
  have placed := held.placed vp
  have self_eq := setVp_self sched vp fun self => { self with state := state }
  refine held.setVp rfl (fun _ _ member => member) ?_
  constructor
  · exact fun pri member => absurd member (unready pri)
  · exact fun queue member => absurd (placed.waits queue member).2.1 awake
  · rw [self_eq]
    exact fun isWaiting => absurd isWaiting state_awake
  · rw [self_eq]
    exact placed.finals
  · rw [self_eq]
    exact placed.dead_iff
  · rw [self_eq]
    exact placed.created
  · rintro ⟨allocated, living⟩ resumed -
    rw [self_eq] at living resumed
    exact placed.covered ⟨allocated, living⟩ resumed awake

theorem Held.running_unready (held : Held sched nodes dead cover) (isRunning : (sched.vps vp).state = .running)
    (pri : Nat) : vp ∉ nodes (.ready pri) := by
  intro member
  have isReady := ((held.placed vp).ready pri member).2.2.1
  exact absurd (isReady.symm.trans isRunning) (by simp)

theorem restoreContext_inv (held : Held sched nodes dead [vp]) (scheduled : sched.scheduled = some vp)
    (loose : Loose sched nodes vp) (stopped : ∀ other, (sched.vps other).state ≠ .running) :
    (restoreContext sched).Returned (fun _ after => Inv after nodes dead) fun _ _ => False := by
  unfold restoreContext
  rw [scheduled]
  let before : Scheduler := { sched with running := some vp, scheduled := none }
  have started : Held before nodes dead [vp] := held.congr rfl rfl rfl rfl rfl rfl rfl
  have self_eq := setVp_self before vp fun self => { self with state := .running }
  have living : (before.setVp vp fun self => { self with state := .running }).Alive vp := by
    refine ⟨loose.alive.1, ?_⟩
    rw [self_eq]
    exact loose.alive.2
  refine ⟨started.restate (fun pri => loose.absent _) loose.awake (by simp), ⟨vp, rfl, living, ?_, ?_, loose.absent⟩,
    ?_, ?_, ?_⟩
  · rw [self_eq]
    exact loose.resumed
  · simp
  · intro other isRunning
    by_cases same : other = vp
    · rw [same]
      rfl
    · rw [setVp_of_ne same] at isRunning
      exact absurd isRunning (stopped other)
  · intro _ other has
    rw [← Option.some.inj has, self_eq]
  · intro other has
    rw [← Option.some.inj has]
    exact living

theorem restoreContext_calm (scheduled : sched.scheduled = some vp) (awake : (sched.vps vp).state ≠ .waiting) :
    (restoreContext sched).Returned (fun _ after => sched.Calm after) fun _ _ => False := by
  unfold restoreContext
  rw [scheduled]
  let before : Scheduler := { sched with running := some vp, scheduled := none }
  have started : sched.Calm before := Scheduler.Calm.of_eq rfl rfl rfl rfl
  exact started.trans (setVp_calm (SameWait.of_awake awake (by simp) (.inl rfl)
    fun ranked => ⟨ranked.priority, ranked.effective⟩))

theorem switchContext_calm (scheduled : sched.scheduled = some vp) (awake : (sched.vps vp).state ≠ .waiting) :
    (switchContext sched).Returned (fun _ after => sched.Calm after) fun _ _ => False := by
  unfold switchContext
  split
  · rename_i old has
    split
    · rename_i isRunning
      have parked : sched.Calm (sched.setVp old fun self => { self with state := .ready }) :=
        setVp_calm (SameWait.of_awake (by simp [isRunning]) (by simp) (.inl rfl)
          fun ranked => ⟨ranked.priority, ranked.effective⟩)
      have target : (sched.setVp old fun self => { self with state := .ready }).scheduled = some vp := scheduled
      have still := mt (parked.same vp).waiting.mp awake
      exact (restoreContext_calm target still).mono (fun _ _ => parked.trans) fun _ _ => id
    · exact restoreContext_calm scheduled awake
  · exact restoreContext_calm scheduled awake

/-- A context switch leaves only the scheduled virtual processor running. -/
theorem switchContext_inv (held : Held sched nodes dead [vp]) (scheduled : sched.scheduled = some vp)
    (loose : Loose sched nodes vp) (states : ∀ other, (sched.vps other).state = .running → sched.running = some other) :
    (switchContext sched).Returned (fun _ after => Inv after nodes dead) fun _ _ => False := by
  unfold switchContext
  split
  · rename_i old has
    split
    · rename_i isRunning
      have self_eq := setVp_self sched old fun self => { self with state := .ready }
      have parked : Held (sched.setVp old fun self => { self with state := .ready }) nodes dead [vp] :=
        held.restate (held.running_unready isRunning) (by simp [isRunning]) (by simp)
      refine restoreContext_inv parked scheduled ⟨?_, ?_, ?_, loose.absent⟩ ?_
      · refine ⟨loose.alive.1, ?_⟩
        by_cases same : vp = old
        · rw [same, self_eq, ← same]
          exact loose.alive.2
        · rw [setVp_of_ne same]
          exact loose.alive.2
      · by_cases same : vp = old
        · rw [same, self_eq, ← same]
          exact loose.resumed
        · rw [setVp_of_ne same]
          exact loose.resumed
      · by_cases same : vp = old
        · rw [same, self_eq]
          simp
        · rw [setVp_of_ne same]
          exact loose.awake
      · intro other
        by_cases same : other = old
        · rw [same, self_eq]
          simp
        · rw [setVp_of_ne same]
          intro other_running
          exact same (Option.some.inj ((states other other_running).symm.trans has))
    · rename_i idle
      refine restoreContext_inv held scheduled loose ?_
      intro other other_running
      rw [has] at states
      rw [Option.some.inj (states other other_running)] at idle
      exact idle other_running
  · rename_i none
    refine restoreContext_inv held scheduled loose ?_
    intro other other_running
    rw [states other other_running] at none
    exact absurd none (by simp)

theorem switchTo_inv {pri : Nat} (held : Held sched nodes dead []) (member : vp ∈ nodes (.ready pri))
    (states : ∀ other, (sched.vps other).state = .running → sched.running = some other) :
    (switchTo (some vp) sched).Returned (fun _ => Inv.Steady sched nodes dead) fun _ _ => False := by
  obtain ⟨removed, front, back, split, returns, pulled, relisted⟩ := removeVirtualProcessorLocked_held held member
  obtain ⟨alive, -, isReady, resumed⟩ := (held.placed vp).ready pri member
  have scheduled : Held { removed with scheduled := some vp } _ dead [vp] :=
    pulled.congr rfl rfl rfl rfl rfl rfl rfl
  have loose : Loose { removed with scheduled := some vp } (Function.update nodes (.ready pri) (front ++ back)) vp := by
    refine ⟨?_, ?_, ?_, fun _ => held.entered.removed_absent split⟩
    · rw [relisted.isAllocated, relisted.vps]
      exact alive
    · rw [relisted.vps]
      exact resumed
    · rw [relisted.vps, isReady]
      simp
  have calm : sched.Calm { removed with scheduled := some vp } := by
    have removal := @removeVirtualProcessorLocked_calm sched vp
    rw [returns] at removal
    exact removal.trans (Scheduler.Calm.of_eq rfl rfl rfl rfl)
  rw [switchTo, Code.bind_of_ok returns, Code.bind_of_ok (Code.modify_apply _ _)]
  refine ((switchContext_inv scheduled rfl loose ?_).and (switchContext_calm rfl loose.awake)).mono ?_
    fun _ _ impossible => impossible.1
  case refine_2 =>
    rintro - after ⟨inv, same⟩
    exact ⟨_, inv, calm.trans same, SameWaits.ready nodes pri _⟩
  intro other isRunning
  rw [relisted.vps] at isRunning
  exact relisted.running.trans (states other isRunning)

theorem switchToBest_inv (held : Held sched nodes dead [])
    (states : ∀ other, (sched.vps other).state = .running → sched.running = some other) :
    (switchTo (getHighestPriorityReady sched) sched).Returned (fun _ => Inv.Steady sched nodes dead)
      fun _ _ => False := by
  cases found : getHighestPriorityReady sched with
  | none => trivial
  | some vp =>
    obtain ⟨pri, member⟩ := getHighestPriorityReady_mem held found
    exact switchTo_inv held member states

theorem Inv.running_loose (inv : Inv sched nodes dead) (unscheduled : sched.scheduled = none)
    (has : sched.running = some vp) : Loose sched nodes vp := by
  obtain ⟨owner, owns, loose⟩ := inv.owner
  unfold Scheduler.owner at owns
  rw [unscheduled, has] at owns
  rwa [← Option.some.inj owns] at loose

theorem Inv.held_running (inv : Inv sched nodes dead) (unscheduled : sched.scheduled = none)
    (has : sched.running = some vp) : Held sched nodes dead [vp] := by
  have held := inv.held
  unfold Scheduler.owner at held
  rwa [unscheduled, has] at held

theorem maybeSwitchTo_inv (inv : Inv sched nodes dead) (unscheduled : sched.scheduled = none) (vp : Nat) :
    (maybeSwitchTo vp sched).Returned (fun _ => Inv.Steady sched nodes dead) fun _ _ => False := by
  unfold maybeSwitchTo
  split
  · split
    · rename_i found
      split
      · rename_i current has
        split
        · have loose := inv.running_loose unscheduled has
          have added := addVirtualProcessorLocked_held (inv.held_running unscheduled has) loose.alive loose.absent
            (sched.vps current).priority
          obtain ⟨pri, member⟩ := getHighestPriorityReady_mem inv.held found
          refine Code.returned_bind ((added.and (addVirtualProcessorLocked_calm loose.awake _)).mono
            (fun _ _ => id) fun _ _ => And.left) ?_
          rintro - after ⟨⟨place, held, queued⟩, calm⟩
          have different : vp ≠ current := by
            rintro rfl
            exact loose.absent _ member
          have still := (@mem_inserted nodes current (.ready place) _ _ vp (.ready pri)
            (List.append_nil _).symm different).mpr member
          refine (switchTo_inv held still ?_).mono ?_ fun _ _ => id
          case refine_2 =>
            rintro - final ⟨nodes', inv', same, waits⟩
            exact ⟨nodes', inv', calm.trans same, (SameWaits.ready nodes place _).trans waits⟩
          intro other isRunning
          have changed : other ≠ current := by
            rintro rfl
            exact absurd (queued.isReady.symm.trans isRunning) (by simp)
          rw [queued.others other changed] at isRunning
          exact queued.running.trans (inv.states other isRunning)
        · exact inv.steady
      · trivial
    · exact inv.steady
  · exact inv.steady

end Cpu

end Apollo.Dispatcher.VirtualProcessorScheduler
