import Apollo.Dispatcher.Priorities

/-!
# What the scheduler guarantees

The ready queue holds whoever can run and does not, as long as nobody is
terminated and every priority that is set has a list.  A virtual processor that is terminated does not come back unless
its termination wakes the boot virtual processor, which may well leave it
running.
-/

set_option autoImplicit false

namespace Apollo.Dispatcher.VirtualProcessorScheduler

open Klib
open Lib

/-- What the lists and the bitmap of the ready queue say.  `nodes` are the virtual processors on each list.  Whoever
gives up the CPU, is resumed or is woken up after boot is put on a list. -/
structure ReadyQueueSound (sched : Scheduler) (nodes : Queues) : Prop where
  holds : ∀ name, (sched.lists name).Holds sched.rewaQueueEntries (nodes name)
  populated : ∀ pri < 64, (sched.IsPopulated pri ↔ nodes (.ready pri) ≠ [])
  member : ∀ pri vp, vp ∈ nodes (.ready pri) → (sched.vps vp).effectivePriority = pri ∧
    (sched.vps vp).state = .ready ∧ (sched.vps vp).suspensionCount = 0 ∧ ∀ name, vp ∈ nodes name → name = .ready pri
  runnable : ∀ vp, sched.isAllocated vp = true → (sched.vps vp).suspensionCount = 0 →
    (∀ queue, vp ∉ nodes (.wait queue)) →
    sched.running = some vp ∨ sched.scheduled = some vp ∨ ∃ pri < 64, vp ∈ nodes (.ready pri)
  highest : ∀ pri < 64, nodes (.ready pri) ≠ [] → (∀ other, pri < other → other < 64 → nodes (.ready other) = []) →
    getHighestPriorityReady sched = (nodes (.ready pri)).head?
  none_iff : getHighestPriorityReady sched = none ↔ ∀ pri < 64, nodes (.ready pri) = []
  yields : ∀ vp, sched.scheduled = none → sched.running = some vp →
    ∃ after, addVirtualProcessorLocked vp (sched.vps vp).priority sched = .ok () after
  resumes : ∀ vp force, sched.isAllocated vp = true → (sched.vps vp).state = .ready →
    ∃ after, resume vp force sched = .ok () after
  wakes : ∀ vp queue reason, sched.quantumsPerQuarterSecond ≠ 0 → (sched.vps vp).state = .waiting →
    (sched.vps vp).waitingOnWaitQueue = some queue → ∃ after, wakeUpOne queue vp reason false sched = .ok () after

section Soundness
variable {sched : Scheduler} {nodes : Queues} {dead cover : List Nat} {vp : Nat}

theorem Held.highest (held : Held sched nodes dead cover) {pri : Nat} (pri_lt : pri < 64)
    (filled : nodes (.ready pri) ≠ []) (above : ∀ other, pri < other → other < 64 → nodes (.ready other) = []) :
    getHighestPriorityReady sched = (nodes (.ready pri)).head? := by
  have set := (held.mapped.populated pri pri_lt).mpr filled
  rcases highestPriorityReady_highest sched 8 with ⟨best, best_lt, best_set, best_above, first⟩ | ⟨clear, -⟩
  · have same : best = pri := by
      rcases Nat.lt_trichotomy best pri with lower | same | higher
      · exact absurd set (best_above pri lower pri_lt)
      · exact same
      · exact absurd (above best higher best_lt) ((held.mapped.populated best best_lt).mp best_set)
    rw [same, (held.entered.shelved.holds (.ready pri)).first] at first
    exact first
  · exact absurd set (clear pri pri_lt)

theorem Held.highest_none (held : Held sched nodes dead cover) :
    getHighestPriorityReady sched = none ↔ ∀ pri < 64, nodes (.ready pri) = [] := by
  rcases highestPriorityReady_highest sched 8 with ⟨best, best_lt, best_set, -, first⟩ | ⟨clear, none⟩
  · have filled := (held.mapped.populated best best_lt).mp best_set
    refine iff_of_false ?_ fun empty => filled (empty best best_lt)
    rw [getHighestPriorityReady, first, (held.entered.shelved.holds (.ready best)).first, List.head?_eq_none_iff]
    exact filled
  · refine iff_of_true none ?_
    intro pri pri_lt
    by_contra filled
    exact clear pri pri_lt ((held.mapped.populated pri pri_lt).mpr filled)

theorem Inv.readyQueueSound (inv : Inv sched nodes []) (indexed : sched.Indexed) : ReadyQueueSound sched nodes := by
  have held := inv.held
  have living : ∀ vp, (sched.vps vp).isTerminated = false := by
    intro vp
    rw [Bool.eq_false_iff]
    exact fun terminated => absurd ((held.placed vp).dead_iff.mp terminated) List.not_mem_nil
  refine ⟨held.entered.shelved.holds, held.mapped.populated, ?_, ?_, fun _ => held.highest, held.highest_none,
    fun vp => inv.yields indexed, fun vp force allocated isReady => inv.resumes indexed ⟨allocated, living vp⟩ isReady force,
    fun vp queue reason timed isWaiting on => inv.wakes indexed isWaiting on timed reason⟩
  · intro pri vp member
    obtain ⟨-, effective, isReady, resumed⟩ := (held.placed vp).ready pri member
    exact ⟨effective, isReady, resumed, fun name other => held.entered.shelved.apart name _ vp other member⟩
  · intro vp allocated resumed unlisted
    have awake : (sched.vps vp).state ≠ .waiting := by
      intro isWaiting
      obtain ⟨queue, -, member⟩ := (held.placed vp).waiting isWaiting
      exact unlisted queue member
    rcases (held.placed vp).covered ⟨allocated, living vp⟩ resumed awake with owns | ⟨pri, member⟩
    · rw [Option.mem_toList, Scheduler.owner, Option.or_eq_some_iff] at owns
      rcases owns with scheduled | ⟨-, running⟩
      · exact .inr (.inl scheduled)
      · exact .inl running
    · exact .inr (.inr ⟨pri, held.ready_lt member, member⟩)

end Soundness

def TameStep (sched : Scheduler) (action : Action) (after : Scheduler) : Prop :=
  Step sched action after ∧ action.isTame sched = true

/-- In every run without a termination. -/
theorem unterminated_runs_readyQueueSound {nsPerQuantum : Int} {labels : List Action} {sched : Scheduler}
    (positive : 0 < nsPerQuantum) (run : Runs TameStep (booted nsPerQuantum) labels sched)
    (lives : ∀ action ∈ labels, action ≠ .terminate) : ∃ nodes, ReadyQueueSound sched nodes := by
  have reached : (∀ action ∈ labels, action ≠ .terminate) → sched.Indexed ∧ ∃ nodes, Inv sched nodes [] := by
    refine Runs.history (fun labels sched => (∀ action ∈ labels, action ≠ .terminate) →
      sched.Indexed ∧ ∃ nodes, Inv sched nodes []) (fun _ => ⟨booted_indexed positive, booted_inv nsPerQuantum⟩) ?_ run
    intro labels action state after _ ih taken lives
    obtain ⟨indexed, nodes, inv⟩ := ih fun other member => lives other (List.mem_cons_of_mem _ member)
    have living := lives action List.mem_cons_self
    exact ⟨step_indexed inv indexed taken.1 taken.2 fun terminates => absurd terminates living,
      step_inv inv taken.1 living⟩
  obtain ⟨indexed, nodes, inv⟩ := reached lives
  exact ⟨nodes, inv.readyQueueSound indexed⟩

def performStep (sched : Scheduler) (action : Action) : Option Scheduler :=
  if action.Enabled sched then (perform 8 action sched).state? else none

theorem performStep_step (sched : Scheduler) (action : Action) (after : Scheduler)
    (performs : performStep sched action = some after) : Step sched action after := by
  unfold performStep at performs
  split at performs
  · rename_i enabled
    exact ⟨enabled, 8, performs⟩
  · exact absurd performs (by simp)

def performTame (sched : Scheduler) (action : Action) : Option Scheduler :=
  if action.isTame sched then performStep sched action else none

theorem performTame_step (sched : Scheduler) (action : Action) (after : Scheduler)
    (performs : performTame sched action = some after) : TameStep sched action after := by
  unfold performTame at performs
  split at performs
  · rename_i tame
    exact ⟨performStep_step sched action after performs, tame⟩
  · exact absurd performs (by simp)

def resumingActions : List Action :=
  [.switchContext, .finishBoot, .create, .setPriority 2 50, .onClockInterrupt, .resume 2 false]

theorem resumingActions_readyQueueSound :
    ∃ sched, performAll performTame resumingActions (booted 16761906) = some sched ∧
      ∃ nodes, ReadyQueueSound sched nodes := by
  have performs : (performAll performTame resumingActions (booted 16761906)).isSome = true := by decide +kernel
  obtain ⟨sched, reaches⟩ := Option.isSome_iff_exists.mp performs
  have run := Runs.performAll_labels performTame_step .nil reaches
  refine ⟨sched, reaches, unterminated_runs_readyQueueSound (by decide) run ?_⟩
  decide

/-- A dispatch queue gives this priority to its virtual processors when it is created with the quality of service 5. -/
def highPriorityActions : List Action := [.switchContext, .finishBoot, .create, .setPriority 2 68]

/-- The virtual processor is then resumed to a list that is not there. -/
theorem highPriorityActions_lost :
    ¬ ∀ (nsPerQuantum : Int) (labels : List Action) (sched : Scheduler), 0 < nsPerQuantum →
      Runs Step (booted nsPerQuantum) labels sched → (∀ action ∈ labels, action ≠ .terminate) →
      ∃ nodes, ReadyQueueSound sched nodes := by
  intro claim
  have performs : ((performAll performStep highPriorityActions (booted 16761906)).map fun sched =>
      (sched.isAllocated 2, (sched.vps 2).state, (resume 2 false sched).state?.isSome)) =
      some (true, .ready, false) := by decide +kernel
  obtain ⟨sched, reaches, ends⟩ := Option.map_eq_some_iff.mp performs
  simp only [Prod.mk.injEq] at ends
  obtain ⟨allocated, isReady, stuck⟩ := ends
  have run := Runs.performAll_labels performStep_step .nil reaches
  obtain ⟨nodes, sound⟩ := claim 16761906 _ sched (by decide) run (by decide)
  obtain ⟨after, returns⟩ := sound.resumes 2 false allocated isReady
  rw [returns] at stuck
  exact absurd stuck (by simp [Outcome.state?])

/-! ## Terminated virtual processors -/

/-- The virtual processor neither has the CPU nor is about to get it.  A call that it has made returns only while
it has the CPU. -/
structure Scheduler.Gone (sched : Scheduler) (vp : Nat) : Prop where
  running : sched.running ≠ some vp
  scheduled : sched.scheduled ≠ some vp
  unlisted : ∀ pri nodes, (sched.lists (.ready pri)).Holds sched.rewaQueueEntries nodes → vp ∉ nodes

/-- A step that does not terminate a virtual processor while there are three dead ones already and the boot virtual
processor, or somebody else, waits on the wait queue of the scheduler. -/
def SparingStep (sched : Scheduler) (action : Action) (after : Scheduler) : Prop :=
  Step sched action after ∧ (action = .terminate → sched.Spares)

section Finality
variable {sched after : Scheduler} {nodes : Queues} {dead : List Nat} {vp : Nat}

theorem Inv.gone (inv : Inv sched nodes dead) (isDead : vp ∈ dead) : sched.Gone vp := by
  have terminated := (inv.held.placed vp).dead_iff.mpr isDead
  have lifeless : ¬ sched.Alive vp := by
    rintro ⟨-, living⟩
    exact absurd terminated (by rw [living]; exact Bool.false_ne_true)
  refine ⟨fun running => lifeless (inv.alive vp running), ?_, ?_⟩
  · intro scheduled
    obtain ⟨self, owns, loose⟩ := inv.owner
    rw [Scheduler.owner, scheduled] at owns
    rw [← Option.some.inj owns] at loose
    exact lifeless loose.alive
  · intro pri members holds member
    rw [holds.unique (inv.held.entered.shelved.holds (.ready pri))] at member
    exact lifeless ((inv.held.placed vp).ready pri member).1

theorem sparingStep_inv {action : Action} (inv : Inv sched nodes dead) (taken : SparingStep sched action after) :
    ∃ nodes dead', Inv after nodes dead' ∧ ∀ vp ∈ dead, vp ∈ dead' := by
  by_cases terminates : action = .terminate
  · rw [terminates] at taken
    obtain ⟨self, owns, -⟩ := inv.owner
    have has : sched.running = some self := by
      rw [Scheduler.owner, show sched.scheduled = none from taken.1.1] at owns
      exact owns
    obtain ⟨-, nodes', inv'⟩ := terminate_step inv taken.1 has (taken.2 rfl)
    exact ⟨nodes', self :: dead, inv', fun _ => List.mem_cons_of_mem _⟩
  · obtain ⟨nodes', inv'⟩ := step_inv inv taken.1 terminates
    exact ⟨nodes', dead, inv', fun _ => id⟩

theorem sparingRun_inv {labels : List Action} (inv : Inv sched nodes dead) (run : Runs SparingStep sched labels after) :
    ∃ nodes dead', Inv after nodes dead' ∧ ∀ vp ∈ dead, vp ∈ dead' := by
  refine run.invariant (fun state => ∃ nodes dead', Inv state nodes dead' ∧ ∀ vp ∈ dead, vp ∈ dead')
    ⟨nodes, dead, inv, fun _ => id⟩ ?_
  rintro action state next ⟨nodes', dead', inv', kept⟩ taken
  obtain ⟨nodes'', dead'', inv'', kept'⟩ := sparingStep_inv inv' taken
  exact ⟨nodes'', dead'', inv'', fun vp member => kept' vp (kept vp member)⟩

end Finality

/-- In every run whose terminations spare the boot virtual processor, who is terminated never comes back. -/
theorem sparing_runs_gone {nsPerQuantum : Int} {labels later : List Action} {before middle after : Scheduler}
    {vp : Nat} (run : Runs SparingStep (booted nsPerQuantum) labels before) (has : before.running = some vp)
    (terminates : SparingStep before .terminate middle) (rest : Runs SparingStep middle later after) :
    after.Gone vp := by
  obtain ⟨bootNodes, booting⟩ := booted_inv nsPerQuantum
  obtain ⟨nodes, dead, inv, -⟩ := sparingRun_inv booting run
  obtain ⟨-, nodes', inv'⟩ := terminate_step inv terminates.1 has (terminates.2 rfl)
  obtain ⟨nodes'', dead'', inv'', kept⟩ := sparingRun_inv inv' rest
  exact inv''.gone (kept vp List.mem_cons_self)

instance (sched : Scheduler) : Decidable sched.Spares := inferInstanceAs (Decidable (_ ∨ _))

def performSparing (sched : Scheduler) (action : Action) : Option Scheduler :=
  if action = .terminate → sched.Spares then performStep sched action else none

theorem performSparing_step (sched : Scheduler) (action : Action) (after : Scheduler)
    (performs : performSparing sched action = some after) : SparingStep sched action after := by
  unfold performSparing at performs
  split at performs
  · rename_i spares
    exact ⟨performStep_step sched action after performs, spares⟩
  · exact absurd performs (by simp)

def waitingActions : List Action := resumingActions ++ [.waitOn .scheduler none true]

theorem waitingActions_gone :
    ∃ before middle after, performAll performSparing waitingActions (booted 16761906) = some before ∧
      performSparing before .terminate = some middle ∧
      performAll performSparing [.onClockInterrupt, .onEndOfQuantum] middle = some after ∧ after.Gone 2 := by
  have performs : ((performAll performSparing waitingActions (booted 16761906)).bind fun before =>
      (performSparing before .terminate).bind fun middle =>
        (performAll performSparing [.onClockInterrupt, .onEndOfQuantum] middle).map fun _ => before.running) =
      some (some 2) := by decide +kernel
  obtain ⟨before, reaches, performs⟩ := Option.bind_eq_some_iff.mp performs
  obtain ⟨middle, terminates, performs⟩ := Option.bind_eq_some_iff.mp performs
  obtain ⟨after, follows, has⟩ := Option.map_eq_some_iff.mp performs
  have run := Runs.performAll_labels performSparing_step .nil reaches
  have rest := Runs.performAll_labels performSparing_step .nil follows
  exact ⟨before, middle, after, reaches, terminates, follows,
    sparing_runs_gone run has (performSparing_step _ _ _ terminates) rest⟩

/-- Five virtual processors run at the highest priority, and three of them have terminated while the boot virtual
processor waits for the dead. -/
def crowdedActions : List Action :=
  [.switchContext, .finishBoot, .create, .create, .create, .create, .create,
    .setPriority 2 63, .setPriority 3 63, .setPriority 4 63, .setPriority 5 63, .setPriority 6 63,
    .resume 2 false, .resume 3 false, .resume 4 false, .resume 5 false, .resume 6 false,
    .waitOn .scheduler none true, .terminate, .terminate, .terminate]

/-- The fourth one is still running after its termination: the call returns to it. -/
theorem crowdedActions_returns :
    ¬ ∀ (nsPerQuantum : Int) (labels later : List Action) (before middle after : Scheduler) (vp : Nat),
      Runs Step (booted nsPerQuantum) labels before →
      before.running = some vp → Step before .terminate middle → Runs Step middle later after → after.Gone vp := by
  intro claim
  have performs : ((performAll performStep crowdedActions (booted 16761906)).bind fun before =>
      (performStep before .terminate).map fun middle => (before.running, middle.running)) =
      some (some 5, some 5) := by decide +kernel
  obtain ⟨before, reaches, performs⟩ := Option.bind_eq_some_iff.mp performs
  obtain ⟨middle, terminates, has⟩ := Option.map_eq_some_iff.mp performs
  have run := Runs.performAll_labels performStep_step .nil reaches
  have gone := claim 16761906 _ [] before middle middle 5 run (congrArg Prod.fst has)
    (performStep_step _ _ _ terminates) .nil
  exact gone.running (congrArg Prod.snd has)

/-! ## Who has the CPU while others end -/

/-- The CPU has, or is about to get, one virtual processor that can run and is on no list; every other one that can
run is ready.  Who waits is on the wait queue that it names, nobody is on two lists, and there is a list for whoever
becomes ready next. -/
structure CpuSound (sched : Scheduler) (nodes : Queues) : Prop where
  holds : ∀ name, (sched.lists name).Holds sched.rewaQueueEntries (nodes name)
  apart : ∀ name other vp, vp ∈ nodes name → vp ∈ nodes other → name = other
  owner : ∃ vp, sched.owner = some vp ∧ Loose sched nodes vp
  running : ∀ vp, (sched.vps vp).state = .running → sched.running = some vp
  ready : ∀ vp, sched.Alive vp → (sched.vps vp).suspensionCount = 0 → (sched.vps vp).state ≠ .waiting →
    sched.owner = some vp ∨ ∃ pri < 64, vp ∈ nodes (.ready pri)
  waiting : ∀ vp queue, vp ∈ nodes (.wait queue) ↔
    (sched.vps vp).state = .waiting ∧ (sched.vps vp).waitingOnWaitQueue = some queue
  final : ∀ vp, vp ∈ nodes .finalizer ∨ vp ∈ nodes .deadVps → (sched.vps vp).isTerminated = true
  listed : ∀ vp, 0 ≤ (sched.vps vp).priority ∧ (sched.vps vp).priority < 64
  boosted : ∀ vp, (sched.vps vp).state = .waiting → 0 ≤ boostedPriority sched vp ∧ boostedPriority sched vp < 64

theorem Inv.cpuSound {sched : Scheduler} {nodes : Queues} {dead : List Nat} (inv : Inv sched nodes dead)
    (indexed : sched.Indexed) : CpuSound sched nodes := by
  have held := inv.held
  refine ⟨held.entered.shelved.holds, held.entered.shelved.apart, inv.owner, inv.states, ?_, ?_,
    fun vp => (held.placed vp).finals, fun vp => (indexed.ranked vp).priority,
    fun vp => boostedPriority_listed indexed⟩
  · intro vp alive resumed awake
    rcases (held.placed vp).covered alive resumed awake with owns | ⟨pri, member⟩
    · exact .inl (Option.mem_toList.mp owns)
    · exact .inr ⟨pri, held.ready_lt member, member⟩
  · refine fun vp queue => ⟨fun member => ((held.placed vp).waits queue member).2, ?_⟩
    rintro ⟨isWaiting, names⟩
    obtain ⟨other, named, member⟩ := (held.placed vp).waiting isWaiting
    rwa [Option.some.inj (names.symm.trans named)]

def CpuStep (sched : Scheduler) (action : Action) (after : Scheduler) : Prop :=
  SparingStep sched action after ∧ action.isTame sched = true

/-- In every run whose terminations spare the boot virtual processor. -/
theorem sparing_runs_cpuSound {nsPerQuantum : Int} {labels : List Action} {sched : Scheduler}
    (positive : 0 < nsPerQuantum) (run : Runs CpuStep (booted nsPerQuantum) labels sched) :
    ∃ nodes, CpuSound sched nodes := by
  have reached : sched.Indexed ∧ ∃ nodes dead, Inv sched nodes dead := by
    refine run.invariant (fun sched => sched.Indexed ∧ ∃ nodes dead, Inv sched nodes dead) ?_ ?_
    · obtain ⟨nodes, inv⟩ := booted_inv nsPerQuantum
      exact ⟨booted_indexed positive, nodes, [], inv⟩
    · rintro action state next ⟨indexed, nodes, dead, inv⟩ ⟨taken, tame⟩
      obtain ⟨nodes', dead', inv', -⟩ := sparingStep_inv inv taken
      exact ⟨step_indexed inv indexed taken.1 tame taken.2, nodes', dead', inv'⟩
  obtain ⟨indexed, nodes, dead, inv⟩ := reached
  exact ⟨nodes, inv.cpuSound indexed⟩

def performCpu (sched : Scheduler) (action : Action) : Option Scheduler :=
  if action.isTame sched then performSparing sched action else none

theorem performCpu_step (sched : Scheduler) (action : Action) (after : Scheduler)
    (performs : performCpu sched action = some after) : CpuStep sched action after := by
  unfold performCpu at performs
  split at performs
  · rename_i tame
    exact ⟨performSparing_step sched action after performs, tame⟩
  · exact absurd performs (by simp)

theorem waitingActions_cpuSound :
    ∃ sched, performAll performCpu (waitingActions ++ [.terminate]) (booted 16761906) = some sched ∧
      ∃ nodes, CpuSound sched nodes := by
  have performs : (performAll performCpu (waitingActions ++ [.terminate]) (booted 16761906)).isSome = true := by
    decide +kernel
  obtain ⟨sched, reaches⟩ := Option.isSome_iff_exists.mp performs
  have run := Runs.performAll_labels performCpu_step .nil reaches
  exact ⟨sched, reaches, sparing_runs_cpuSound (by decide) run⟩

end Apollo.Dispatcher.VirtualProcessorScheduler
