import Apollo.Dispatcher.Waiting

/-!
# Steps of the scheduler

Suspending, resuming, prioritising, creating, terminating and destroying virtual
processors keep the invariant, and so does every step.  A termination does so
unless it wakes the boot virtual processor.
-/

set_option autoImplicit false

namespace Apollo.Dispatcher.VirtualProcessorScheduler

open Klib
open Lib

section Virtual
variable {sched after : Scheduler} {nodes : Queues} {dead cover : List Nat} {vp : Nat}

theorem assertAlive_bind {next : Unit → Code Scheduler Errno Unit} {post : Unit → Scheduler → Prop}
    {error : Errno → Scheduler → Prop}
    (living : (sched.vps vp).isTerminated = false → (next () sched).Returned post error) :
    ((assertAlive vp >>= next) sched).Returned post error := by
  cases terminated : (sched.vps vp).isTerminated with
  | true =>
    rw [Code.bind_of_fault (by unfold assertAlive; rw [terminated, if_pos rfl])]
    trivial
  | false =>
    rw [Code.bind_of_ok (by unfold assertAlive; rw [terminated, if_neg Bool.false_ne_true])]
    exact living terminated

theorem Inv.idle (inv : Inv sched nodes dead) (unscheduled : sched.scheduled = none)
    (stopped : (sched.vps vp).state ≠ .running) : sched.owner ≠ some vp := by
  intro owns
  unfold Scheduler.owner at owns
  rw [unscheduled] at owns
  exact stopped (inv.current unscheduled vp owns)

theorem Inv.listed (inv : Inv sched nodes dead) (unscheduled : sched.scheduled = none) (alive : sched.Alive vp)
    (isReady : (sched.vps vp).state = .ready) (resumed : (sched.vps vp).suspensionCount = 0) :
    ∃ pri, vp ∈ nodes (.ready pri) := by
  rcases (inv.held.placed vp).covered alive resumed (by simp [isReady]) with member | listed
  · exact absurd (Option.mem_toList.mp member) (inv.idle unscheduled (by simp [isReady]))
  · exact listed

theorem Inv.suspended_absent (inv : Inv sched nodes dead) (alive : sched.Alive vp)
    (suspended : (sched.vps vp).suspensionCount ≠ 0) (awake : (sched.vps vp).state ≠ .waiting) :
    ∀ name, vp ∉ nodes name := by
  have placed := inv.held.placed vp
  intro name member
  cases name with
  | ready pri => exact suspended (placed.ready pri member).2.2.2
  | wait queue => exact awake (placed.waits queue member).2.1
  | finalizer => exact absurd (placed.finals (.inl member)) (by rw [alive.2]; exact Bool.false_ne_true)
  | deadVps => exact absurd (placed.finals (.inr member)) (by rw [alive.2]; exact Bool.false_ne_true)

theorem Held.suspend {change : VirtualProcessor → VirtualProcessor} (held : Held sched nodes dead (vp :: cover))
    (absent : ∀ name, vp ∉ nodes name)
    (kept : (change (sched.vps vp)).isTerminated = (sched.vps vp).isTerminated)
    (suspended : (change (sched.vps vp)).suspensionCount ≠ 0) (awake : (change (sched.vps vp)).state ≠ .waiting) :
    Held (sched.setVp vp change) nodes dead cover := by
  refine held.setVp kept (fun other different member => (List.mem_cons.mp member).resolve_left different) ?_
  refine (held.placed vp).unlisted absent ?_ rfl rfl ?_ ?_
  · rw [setVp_self]
    exact kept
  · rw [setVp_self]
    exact awake
  · intro _ resumed
    rw [setVp_self] at resumed
    exact absurd resumed suspended

theorem Scheduler.Relisted.touched (relisted : sched.Relisted after) : sched.Touched vp after :=
  ⟨relisted.running, relisted.scheduled, relisted.isAllocated, fun _ _ => by rw [relisted.vps],
    by rw [relisted.vps]⟩

theorem removeVirtualProcessorLocked_setVp {change : VirtualProcessor → VirtualProcessor}
    (effective : (change (sched.vps vp)).effectivePriority = (sched.vps vp).effectivePriority) :
    removeVirtualProcessorLocked vp (sched.setVp vp change) =
      (removeVirtualProcessorLocked vp sched).mapState fun removed => removed.setVp vp change := by
  unfold removeVirtualProcessorLocked
  rw [setVp_self, effective]
  split
  · rename_i pri found
    have lists : ((sched.setVp vp change).remove (.ready pri) vp).lists = (sched.remove (.ready pri) vp).lists := rfl
    dsimp only
    rw [lists]
    by_cases empty : ((sched.remove (.ready pri) vp).lists (.ready pri)).first = none
    · rw [if_pos empty, if_pos empty]
      rfl
    · rw [if_neg empty, if_neg empty]
      rfl
  · rfl

/-- A virtual processor that was taken off the lists is suspended. -/
theorem Inv.suspend {removed : Scheduler} {nodes' : Queues} (inv : Inv sched nodes dead)
    (unscheduled : sched.scheduled = none) (isReady : (sched.vps vp).state = .ready)
    (held : Held removed nodes' dead (vp :: sched.owner.toList)) (relisted : sched.Relisted removed)
    (absent : ∀ name, vp ∉ nodes' name)
    (members : ∀ name other, other ≠ vp → (other ∈ nodes' name ↔ other ∈ nodes name)) :
    Inv (removed.setVp vp fun self => { self with suspensionCount := self.suspensionCount + 1 }) nodes' dead := by
  have stopped : (sched.vps vp).state ≠ .running := by simp [isReady]
  have suspended : Held (removed.setVp vp fun self => { self with suspensionCount := self.suspensionCount + 1 })
      nodes' dead sched.owner.toList := by
    refine held.suspend absent rfl (by simp) ?_
    rw [relisted.vps]
    simp [isReady]
  refine inv.touched suspended (relisted.touched.trans (setVp_touched rfl)) (inv.idle unscheduled stopped) ?_
    (fun _ => stopped) members
  rw [setVp_self, relisted.vps]
  exact stopped

/-- A virtual processor that is ready leaves the ready queue when it is suspended for the first time. -/
theorem suspend_ready (inv : Inv sched nodes dead) (unscheduled : sched.scheduled = none) (alive : sched.Alive vp)
    (isReady : (sched.vps vp).state = .ready) :
    (removeVirtualProcessorLocked vp (sched.setVp vp fun self =>
      { self with suspensionCount := self.suspensionCount + 1 })).Returned
      (fun _ => Inv.Steady sched nodes dead) fun _ _ => False := by
  have counted : ∀ removed : Scheduler, sched.Calm removed → sched.Calm (removed.setVp vp fun self =>
      { self with suspensionCount := self.suspensionCount + 1 }) := fun removed calm =>
    calm.trans (setVp_calm (.of_rest rfl rfl rfl rfl rfl rfl))
  have removal := @removeVirtualProcessorLocked_calm sched vp
  rw [removeVirtualProcessorLocked_setVp rfl]
  by_cases resumed : (sched.vps vp).suspensionCount = 0
  · obtain ⟨pri, member⟩ := inv.listed unscheduled alive isReady resumed
    obtain ⟨removed, front, back, split, returns, pulled, relisted⟩ :=
      removeVirtualProcessorLocked_held inv.held member
    rw [returns] at removal ⊢
    exact ⟨_, inv.suspend unscheduled isReady pulled relisted (fun _ => inv.held.entered.removed_absent split)
      (fun _ _ => mem_removed split), counted removed removal, SameWaits.ready nodes pri _⟩
  · have absent := inv.suspended_absent alive resumed (by simp [isReady])
    have kept := removeVirtualProcessorLocked_absent inv.held alive absent
    cases call : removeVirtualProcessorLocked vp sched with
    | fault => trivial
    | err reason state =>
      rw [call] at removal
      exact removal
    | ok value removed =>
      rw [call] at removal kept
      obtain ⟨held, relisted⟩ := kept
      exact ⟨nodes, inv.suspend unscheduled isReady (held.mono fun _ => List.mem_cons_of_mem vp) relisted absent
        (fun _ _ _ => Iff.rfl), counted removed removal, SameWaits.refl nodes⟩

theorem suspend_inv (inv : Inv sched nodes dead) (unscheduled : sched.scheduled = none)
    (allocated : sched.isAllocated vp = true) :
    (suspend vp sched).Returned (fun _ => Inv.Steady sched nodes dead) fun _ after => after = sched := by
  refine assertAlive_bind fun living => ?_
  have alive : sched.Alive vp := ⟨allocated, living⟩
  rw [Code.bind_of_ok (Code.get_apply sched)]
  have counted : sched.Calm (sched.setVp vp fun self => { self with suspensionCount := self.suspensionCount + 1 }) :=
    setVp_calm (.of_rest rfl rfl rfl rfl rfl rfl)
  split
  · exact rfl
  · cases state : (sched.vps vp).state with
    | ready => exact (suspend_ready inv unscheduled alive state).mono (fun _ _ ends => ends) fun _ _ => False.elim
    | running =>
      have has := inv.states vp state
      have loose := inv.running_loose unscheduled has
      have held : Held (sched.setVp vp fun self => { self with suspensionCount := self.suspensionCount + 1 })
          nodes dead [] := (inv.held_running unscheduled has).suspend loose.absent rfl (by simp) loose.awake
      refine (switchToBest_inv held ?_).mono ?_ fun _ _ => False.elim
      · intro other isRunning
        by_cases same : other = vp
        · rw [same]
          exact has
        · rw [setVp_of_ne same] at isRunning
          exact inv.states other isRunning
      · rintro - after ⟨nodes', inv', calm, waits⟩
        exact ⟨nodes', inv', counted.trans calm, waits⟩
    | waiting =>
      exact ⟨nodes, inv.adjust rfl rfl rfl (fun isReady => absurd (isReady.symm.trans state) (by simp))
        (fun awake => absurd state awake), counted, SameWaits.refl nodes⟩

theorem Inv.requeue {removed : Scheduler} {nodes' : Queues} (inv : Inv sched nodes dead)
    (unscheduled : sched.scheduled = none) (isReady : (sched.vps vp).state = .ready) (alive : sched.Alive vp)
    (held : Held removed nodes' dead (vp :: sched.owner.toList)) (touched : sched.Touched vp removed)
    (absent : ∀ name, vp ∉ nodes' name)
    (members : ∀ name other, other ≠ vp → (other ∈ nodes' name ↔ other ∈ nodes name))
    (awake : (removed.vps vp).state ≠ .waiting) (waits : SameWaits nodes nodes') (priority : Int) :
    (addVirtualProcessorLocked vp priority removed).Returned
      (fun _ after => ∃ nodes', Inv after nodes' dead ∧ removed.Calm after ∧ SameWaits nodes nodes')
      fun _ _ => False := by
  have stopped : (sched.vps vp).state ≠ .running := by simp [isReady]
  refine ((addVirtualProcessorLocked_held held (touched.alive.mpr alive) absent priority).and
    (addVirtualProcessorLocked_calm awake priority)).mono ?_ fun _ _ => And.left
  rintro - after ⟨⟨pri, pushed, queued⟩, added⟩
  refine ⟨_, inv.touched pushed (touched.trans queued.toTouched) (inv.idle unscheduled stopped) ?_ (fun _ => stopped)
    ?_, added, waits.trans (SameWaits.ready nodes' pri _)⟩
  · rw [queued.isReady]
    simp
  · intro name other different
    rw [mem_inserted (List.append_nil _).symm different]
    exact members name other different

theorem resume_inv {force : Bool} (inv : Inv sched nodes dead) (unscheduled : sched.scheduled = none)
    (allocated : sched.isAllocated vp = true) :
    (resume vp force sched).Returned (fun _ => Inv.Steady sched nodes dead) fun _ _ => False := by
  refine assertAlive_bind fun living => ?_
  have alive : sched.Alive vp := ⟨allocated, living⟩
  rw [Code.bind_of_ok (Code.get_apply sched)]
  dsimp only
  split
  · generalize (if force = true then 0 else (sched.vps vp).suspensionCount - 1) = count
    have counted : sched.Touched vp (sched.setVp vp fun self => { self with suspensionCount := count }) :=
      setVp_touched rfl
    have calm : sched.Calm (sched.setVp vp fun self => { self with suspensionCount := count }) :=
      setVp_calm (.of_rest rfl rfl rfl rfl rfl rfl)
    cases state : (sched.vps vp).state with
    | ready =>
      have absent := inv.suspended_absent alive (by omega) (by simp [state])
      have held : Held sched nodes dead (vp :: sched.owner.toList) := inv.held.mono fun _ => List.mem_cons_of_mem vp
      split
      · have resumed : Held (sched.setVp vp fun self => { self with suspensionCount := count }) nodes dead
            (vp :: sched.owner.toList) := by
          refine held.setVp rfl (fun _ _ member => member) ?_
          refine (held.placed vp).unlisted absent (by rw [setVp_self]) rfl rfl ?_ fun _ _ => List.mem_cons_self
          simp [state]
        refine (inv.requeue unscheduled state alive resumed counted absent (fun _ _ _ => Iff.rfl)
          (by simp [state]) (SameWaits.refl nodes) _).mono ?_ fun _ _ => id
        rintro - after ⟨nodes', inv', added, waits⟩
        exact ⟨nodes', inv', calm.trans added, waits⟩
      · rename_i still
        have kept : Held (sched.setVp vp fun self => { self with suspensionCount := count }) nodes dead
            sched.owner.toList := held.suspend absent rfl still (by simp [state])
        refine ⟨nodes, inv.touched kept counted (inv.idle unscheduled (by simp [state])) ?_
          (fun _ => by simp [state]) fun _ _ _ => Iff.rfl, calm, SameWaits.refl nodes⟩
        simp [state]
    | running =>
      have loose := inv.running_loose unscheduled (inv.states vp state)
      exact absurd loose.resumed (by omega)
    | waiting =>
      have resumed : Inv (sched.setVp vp fun self => { self with suspensionCount := count }) nodes dead :=
        inv.adjust rfl rfl rfl (fun isReady => absurd (isReady.symm.trans state) (by simp))
          fun awake => absurd state awake
      split
      · exact ⟨nodes, resumed, calm, SameWaits.refl nodes⟩
      · exact ⟨nodes, resumed, calm, SameWaits.refl nodes⟩
  · exact inv.steady

theorem toInt8_eq_self {value : Int} (low : 0 ≤ value) (high : value < 64) : toInt8 value = value :=
  Int.bmod_eq_of_le (by omega) (by omega)

theorem VirtualProcessor.Ranked.prioritised {self : VirtualProcessor} (ranked : self.Ranked) {priority : Int}
    (listed : 0 ≤ priority ∧ priority < 64) : VirtualProcessor.Ranked { self with priority := toInt8 priority } := by
  refine ⟨?_, ranked.effective⟩
  rw [toInt8_eq_self listed.1 listed.2]
  exact listed

theorem setPriority_inv {priority : Int} (inv : Inv sched nodes dead) (unscheduled : sched.scheduled = none)
    (allocated : sched.isAllocated vp = true) :
    (setPriority vp priority sched).Returned (fun _ after => ∃ nodes', Inv after nodes' dead ∧
      (0 ≤ priority ∧ priority < 64 → sched.Calm after) ∧ SameWaits nodes nodes') fun _ _ => False := by
  refine assertAlive_bind fun living => ?_
  have alive : sched.Alive vp := ⟨allocated, living⟩
  have changed : Inv (sched.setVp vp fun self => { self with priority := toInt8 priority }) nodes dead :=
    inv.adjust rfl rfl rfl (fun _ => rfl) fun _ => rfl
  have calm : ∀ removed : Scheduler, sched.Calm removed → 0 ≤ priority ∧ priority < 64 →
      sched.Calm (removed.setVp vp fun self => { self with priority := toInt8 priority }) := fun removed calm listed =>
    calm.trans (setVp_calm ⟨Iff.rfl, .inl rfl, fun _ => rfl, fun _ => rfl, fun _ => rfl, fun ranked =>
      ranked.prioritised listed⟩)
  have recorded := calm sched (Scheduler.Calm.refl sched)
  rw [Code.bind_of_ok (Code.get_apply sched)]
  split
  · cases state : (sched.vps vp).state with
    | ready =>
      dsimp only
      split
      · rename_i resumed
        obtain ⟨pri, member⟩ := inv.listed unscheduled alive state resumed
        obtain ⟨removed, front, back, split, returns, pulled, relisted⟩ :=
          removeVirtualProcessorLocked_held inv.held member
        have held : Held (removed.setVp vp fun self => { self with priority := toInt8 priority })
            (Function.update nodes (.ready pri) (front ++ back)) dead (vp :: sched.owner.toList) :=
          pulled.adjust rfl rfl rfl (fun _ => rfl) fun _ => rfl
        have removal := @removeVirtualProcessorLocked_calm sched vp
        rw [returns] at removal
        rw [Code.bind_of_ok returns, Code.bind_of_ok (Code.modify_apply _ _)]
        refine (inv.requeue unscheduled state alive held (relisted.touched.trans (setVp_touched rfl))
          (fun _ => inv.held.entered.removed_absent split) (fun _ _ => mem_removed split) ?_
          (SameWaits.ready nodes pri _) _).mono ?_ fun _ _ => id
        · simp [relisted.vps, state]
        · rintro - after ⟨nodes', inv', same, waits⟩
          exact ⟨nodes', inv', fun listed => (calm removed removal listed).trans same, waits⟩
      · exact ⟨nodes, changed, recorded, SameWaits.refl nodes⟩
    | running =>
      refine ⟨nodes, inv.adjust rfl rfl rfl (fun isReady => absurd (isReady.symm.trans state) (by simp)) fun _ => rfl,
        fun listed => ?_, SameWaits.refl nodes⟩
      refine setVp_calm (SameWait.of_awake (by simp [state]) (by simp [state]) (.inl rfl) fun _ => ?_)
      rw [toInt8_eq_self listed.1 listed.2]
      exact ⟨listed, listed⟩
    | waiting => exact ⟨nodes, changed, recorded, SameWaits.refl nodes⟩
  · exact ⟨nodes, inv, fun _ => Scheduler.Calm.refl sched, SameWaits.refl nodes⟩

/-- What the invariant does not speak about may change. -/
theorem Inv.congr (inv : Inv sched nodes dead) (vps : after.vps = sched.vps)
    (isAllocated : after.isAllocated = sched.isAllocated) (nextVpid : after.nextVpid = sched.nextVpid)
    (entries : after.rewaQueueEntries = sched.rewaQueueEntries) (lists : after.lists = sched.lists)
    (populated : after.populated = sched.populated) (nextDeadVp : after.nextDeadVp = sched.nextDeadVp)
    (running : after.running = sched.running) (scheduled : after.scheduled = sched.scheduled) :
    Inv after nodes dead := by
  have owner : after.owner = sched.owner := by
    unfold Scheduler.owner
    rw [running, scheduled]
  have relisted : sched.Touched after.nextVpid after :=
    ⟨running, scheduled, isAllocated, fun _ _ => by rw [vps], by rw [vps]⟩
  refine ⟨?_, ?_, ?_, ?_, ?_⟩
  · rw [owner]
    exact inv.held.congr vps isAllocated nextVpid entries lists populated nextDeadVp
  · obtain ⟨self, owns, loose⟩ := inv.owner
    refine ⟨self, owner.trans owns, relisted.alive.mpr loose.alive, ?_, ?_, loose.absent⟩
    · rw [vps]
      exact loose.resumed
    · rw [vps]
      exact loose.awake
  · rw [vps, running]
    exact inv.states
  · rw [vps, running, scheduled]
    exact inv.current
  · intro other has
    rw [running] at has
    exact relisted.alive.mpr (inv.alive other has)

def Scheduler.timed (sched : Scheduler) : Scheduler :=
  { sched with quantumsPerQuarterSecond := sched.clock.armed ⟨0, 250000000⟩ }

theorem finishBoot_inv (inv : Inv sched nodes dead) (unscheduled : sched.scheduled = none)
    (allocated : sched.isAllocated idleVirtualProcessor = true) :
    (finishBoot sched).Returned (fun _ => Inv.Steady sched.timed nodes dead) fun _ _ => False := by
  have timed : Inv sched.timed nodes dead := inv.congr rfl rfl rfl rfl rfl rfl rfl rfl rfl
  exact resume_inv timed unscheduled allocated

/-- A number that was not given to a virtual processor yet is on no list. -/
theorem Held.fresh_absent (held : Held sched nodes dead cover) (fresh : sched.nextVpid ≤ vp) (name : QueueName) :
    vp ∉ nodes name := by
  have placed := held.placed vp
  obtain ⟨unallocated, living⟩ := placed.created fresh
  intro member
  cases name with
  | ready pri => exact absurd (placed.ready pri member).1.1 (by rw [unallocated]; exact Bool.false_ne_true)
  | wait queue => exact absurd (placed.waits queue member).1.1 (by rw [unallocated]; exact Bool.false_ne_true)
  | finalizer => exact absurd (placed.finals (.inl member)) (by rw [living]; exact Bool.false_ne_true)
  | deadVps => exact absurd (placed.finals (.inr member)) (by rw [living]; exact Bool.false_ne_true)

theorem create_held (held : Held sched nodes dead cover) :
    (create sched).Returned (fun _ after => Held after nodes dead cover) fun _ _ => False := by
  have absent := held.fresh_absent (Nat.le_refl sched.nextVpid)
  have created := (held.placed sched.nextVpid).created (Nat.le_refl _)
  refine ⟨⟨?_, ?_⟩, ⟨held.mapped.populated, held.mapped.bounded⟩, held.walk, ?_⟩
  · refine ⟨?_, held.entered.shelved.apart⟩
    intro name
    refine (held.entered.shelved.holds name).congr ?_
    intro other member
    refine Function.update_of_ne ?_ _ _
    rintro rfl
    exact absent name member
  · rintro other ⟨allocated, living⟩ unlisted
    by_cases same : other = sched.nextVpid
    · rw [same]
      exact Function.update_self _ _ _
    · dsimp only at allocated living ⊢
      rw [Function.update_of_ne same] at allocated living ⊢
      exact held.entered.detached other ⟨allocated, living⟩ unlisted
  · intro other
    by_cases same : other = sched.nextVpid
    · rw [same]
      constructor
      · exact fun pri member => absurd member (absent _)
      · exact fun queue member => absurd member (absent _)
      · exact fun isWaiting => absurd isWaiting (by simp [commonInit])
      · exact fun member => member.elim (fun member => absurd member (absent _)) fun member => absurd member (absent _)
      · dsimp only
        rw [Function.update_self, ← (held.placed sched.nextVpid).dead_iff, created.2]
        rfl
      · exact fun impossible => absurd impossible (Nat.not_succ_le_self _)
      · exact fun _ resumed => absurd resumed (by simp [commonInit])
    · exact ((held.placed other).later (Nat.le_succ _)).congr (Function.update_of_ne same _ _)
        (Function.update_of_ne same _ _) rfl (fun _ => Iff.rfl) Iff.rfl id

theorem create_inv (inv : Inv sched nodes dead) :
    (create sched).Returned (fun _ => Inv.Steady sched nodes dead) fun _ _ => False := by
  have absent := inv.held.fresh_absent (Nat.le_refl sched.nextVpid)
  have created := (inv.held.placed sched.nextVpid).created (Nat.le_refl _)
  have alive : ∀ other, sched.Alive other → other ≠ sched.nextVpid := by
    rintro _ isAlive rfl
    exact absurd isAlive.1 (by rw [created.1]; exact Bool.false_ne_true)
  have calm : sched.Calm { sched with
      vps := Function.update sched.vps sched.nextVpid (commonInit 42)
      isAllocated := Function.update sched.isAllocated sched.nextVpid true
      rewaQueueEntries := Function.update sched.rewaQueueEntries sched.nextVpid ListNode.init
      nextVpid := sched.nextVpid + 1 } := by
    refine ⟨rfl, rfl, rfl, fun other => ?_⟩
    by_cases same : other = sched.nextVpid
    · rw [same]
      dsimp only
      rw [Function.update_self]
      refine SameWait.of_awake ?_ (by simp [commonInit]) (.inr rfl) fun _ => ⟨by decide, by decide⟩
      intro isWaiting
      obtain ⟨queue, -, member⟩ := (inv.held.placed sched.nextVpid).waiting isWaiting
      exact absent _ member
    · dsimp only
      rw [Function.update_of_ne same]
      exact SameWait.refl _
  refine ⟨nodes, ⟨create_held inv.held, ?_, ?_, ?_, ?_⟩, calm, SameWaits.refl nodes⟩
  · obtain ⟨self, owns, loose⟩ := inv.owner
    have different := alive self loose.alive
    refine ⟨self, owns, ⟨?_, ?_⟩, ?_, ?_, loose.absent⟩
    · dsimp only
      rw [Function.update_of_ne different]
      exact loose.alive.1
    · dsimp only
      rw [Function.update_of_ne different]
      exact loose.alive.2
    · dsimp only
      rw [Function.update_of_ne different]
      exact loose.resumed
    · dsimp only
      rw [Function.update_of_ne different]
      exact loose.awake
  · intro other isRunning
    have different : other ≠ sched.nextVpid := by
      rintro rfl
      exact absurd isRunning (by simp [commonInit])
    dsimp only at isRunning
    rw [Function.update_of_ne different] at isRunning
    exact inv.states other isRunning
  · intro unscheduled other has
    dsimp only
    rw [Function.update_of_ne (alive other (inv.alive other has))]
    exact inv.current unscheduled other has
  · intro other has
    have different := alive other (inv.alive other has)
    refine ⟨?_, ?_⟩
    · dsimp only
      rw [Function.update_of_ne different]
      exact (inv.alive other has).1
    · dsimp only
      rw [Function.update_of_ne different]
      exact (inv.alive other has).2

end Virtual

/-! ## Termination -/

section Termination
variable {sched after : Scheduler} {nodes : Queues} {dead dead' cover cover' : List Nat} {vp : Nat}

theorem deadVpsCount_eq {name : QueueName} {all front back : List Nat} {threshold : Nat}
    (holds : (sched.lists name).Holds sched.rewaQueueEntries all) (split : all = front ++ back) :
    deadVpsCount sched threshold back.head? = min threshold back.length := by
  induction threshold generalizing front back with
  | zero => simp [deadVpsCount]
  | succ threshold ih =>
    cases back with
    | nil => simp [deadVpsCount]
    | cons current rest =>
      have next : (sched.rewaQueueEntries current).next = rest.head? := by
        rw [split] at holds
        rw [holds.pointers]
      have split' : all = (front ++ [current]) ++ rest := by
        rw [split, List.append_assoc, List.singleton_append]
      rw [List.head?_cons, deadVpsCount, next, ih split', List.length_cons]
      omega

/-- The termination does not wake the boot virtual processor: there are few dead virtual processors, or nobody
waits for them. -/
def Scheduler.Spares (sched : Scheduler) : Prop :=
  deadVpsCount sched finalizeNowThreshold (sched.lists .finalizer).first + 1 < finalizeNowThreshold ∨
    (sched.lists (.wait .scheduler)).first = none

theorem retire_finalizesNow (held : Held sched nodes dead cover)
    (retired : Held (sched.retire vp) (Function.update nodes .finalizer (nodes .finalizer ++ [vp])) dead' cover') :
    finalizesNow (sched.retire vp) = true ↔ ¬ sched.Spares := by
  have before := @deadVpsCount_eq sched .finalizer _ [] _ finalizeNowThreshold
    (held.entered.shelved.holds .finalizer) (List.nil_append _).symm
  have later := @deadVpsCount_eq (sched.retire vp) .finalizer _ [] _ finalizeNowThreshold
    (retired.entered.shelved.holds .finalizer) (List.nil_append _).symm
  have waits : (sched.retire vp).lists (.wait .scheduler) = sched.lists (.wait .scheduler) := rfl
  rw [← (held.entered.shelved.holds .finalizer).first] at before
  rw [← (retired.entered.shelved.holds .finalizer).first, Function.update_self, List.length_append,
    List.length_singleton] at later
  unfold finalizesNow Scheduler.Spares
  rw [decide_eq_true_eq, before, later, waits, not_or, not_lt]
  refine and_congr_left fun _ => ?_
  omega

theorem terminate_inv (inv : Inv sched nodes dead) (unscheduled : sched.scheduled = none)
    (has : sched.running = some vp) (spares : sched.Spares) :
    (terminate sched).Returned (fun _ after => sched.Calm after ∧ ∃ nodes, Inv after nodes (vp :: dead))
      fun _ _ => False := by
  have loose := inv.running_loose unscheduled has
  have retired : Held (sched.retire vp) (Function.update nodes .finalizer (nodes .finalizer ++ [vp])) (vp :: dead) [] :=
    (inv.held_running unscheduled has).finalize loose.alive loose.absent loose.awake
  unfold terminate
  rw [has]
  refine assertAlive_bind fun _ => ?_
  rw [Code.bind_of_ok (Code.modify_apply _ _)]
  have spared : ¬ finalizesNow (sched.retire vp) = true :=
    fun now => (retire_finalizesNow inv.held retired).mp now spares
  unfold leaveForGood
  rw [if_neg spared]
  have calm : sched.Calm (sched.retire vp) :=
    (@setVp_calm sched vp (fun self => { self with isTerminated := true })
      (.of_rest rfl rfl rfl rfl rfl rfl)).trans (.of_eq rfl rfl rfl rfl)
  refine (switchToBest_inv retired ?_).mono
    (fun _ _ ⟨nodes', inv', same, _⟩ => ⟨calm.trans same, nodes', inv'⟩) fun _ _ => id
  intro other isRunning
  by_cases same : other = vp
  · rw [same]
    exact has
  · exact inv.states other ((congrArg VirtualProcessor.state (Function.update_of_ne same _ _)).symm.trans isRunning)

def takenDeadVps {α : Type} (lists : QueueName → α) (empty : α) : QueueName → α :=
  Function.update (Function.update lists .deadVps (lists .finalizer)) .finalizer empty

theorem takeDeadVps_shelved (entered : Entered sched nodes) :
    Shelved sched.rewaQueueEntries (takenDeadVps sched.lists DList.init) (takenDeadVps nodes []) := by
  have holds := entered.shelved.holds
  have apart := entered.shelved.apart
  constructor
  · intro name
    cases name with
    | ready pri => exact holds (.ready pri)
    | wait queue => exact holds (.wait queue)
    | finalizer => exact DList.holds_empty _
    | deadVps => exact holds .finalizer
  · intro name other vp member member'
    cases name with
    | finalizer => exact absurd member List.not_mem_nil
    | deadVps =>
      cases other with
      | ready pri => exact absurd (apart _ _ vp member member') (by simp)
      | wait queue => exact absurd (apart _ _ vp member member') (by simp)
      | finalizer => exact absurd member' List.not_mem_nil
      | deadVps => rfl
    | ready pri =>
      cases other with
      | ready pri' => exact apart _ _ vp member member'
      | wait queue => exact apart _ _ vp member member'
      | finalizer => exact absurd member' List.not_mem_nil
      | deadVps => exact absurd (apart _ _ vp member member') (by simp)
    | wait queue =>
      cases other with
      | ready pri => exact apart _ _ vp member member'
      | wait queue' => exact apart _ _ vp member member'
      | finalizer => exact absurd member' List.not_mem_nil
      | deadVps => exact absurd (apart _ _ vp member member') (by simp)

theorem takeDeadVps_inv (inv : Inv sched nodes dead) :
    (takeDeadVps sched).Returned (fun _ after => sched.Calm after ∧ ∃ nodes, Inv after nodes dead)
      fun _ _ => False := by
  have placed := inv.held.placed
  -- whoever was destroyed before is not alive
  have absent : ∀ vp, sched.Alive vp → (∀ name, vp ∉ takenDeadVps nodes [] name) → ∀ name, vp ∉ nodes name := by
    intro vp alive unlisted name member
    cases name with
    | ready pri => exact unlisted (.ready pri) member
    | wait queue => exact unlisted (.wait queue) member
    | finalizer => exact unlisted .deadVps member
    | deadVps => exact absurd ((placed vp).finals (.inr member)) (by rw [alive.2]; exact Bool.false_ne_true)
  have held : Held { sched with
      lists := takenDeadVps sched.lists DList.init
      nextDeadVp := (sched.lists .finalizer).first } (takenDeadVps nodes []) dead sched.owner.toList := by
    refine ⟨⟨takeDeadVps_shelved inv.held.entered, ?_⟩, ⟨inv.held.mapped.populated, inv.held.mapped.bounded⟩, ?_, ?_⟩
    · intro vp alive unlisted
      exact inv.held.entered.detached vp alive (absent vp alive unlisted)
    · exact ⟨[], nodes .finalizer, rfl, (inv.held.entered.shelved.holds .finalizer).first⟩
    · intro vp
      refine ⟨(placed vp).ready, (placed vp).waits, (placed vp).waiting, ?_, (placed vp).dead_iff, (placed vp).created,
        (placed vp).covered⟩
      rintro (member | member)
      · exact absurd member List.not_mem_nil
      · exact (placed vp).finals (.inl member)
  obtain ⟨self, owns, loose⟩ := inv.owner
  refine ⟨Scheduler.Calm.of_eq rfl rfl rfl rfl, _, held,
    ⟨self, owns, loose.alive, loose.resumed, loose.awake, ?_⟩, inv.states, inv.current, inv.alive⟩
  intro name member
  cases name with
  | ready pri => exact loose.absent _ member
  | wait queue => exact loose.absent _ member
  | finalizer => exact absurd member List.not_mem_nil
  | deadVps => exact loose.absent _ member

theorem destroyDeadVp_inv (inv : Inv sched nodes dead) :
    (destroyDeadVp sched).Returned (fun _ after => sched.Calm after ∧ ∃ nodes, Inv after nodes dead)
      fun _ _ => False := by
  unfold destroyDeadVp
  split
  · rename_i vp next
    obtain ⟨done, rest, split, head⟩ := inv.held.walk
    rw [next] at head
    obtain ⟨later, rfl⟩ : ∃ later, rest = vp :: later := by
      cases rest with
      | nil => exact absurd head (by simp)
      | cons first later =>
        exact ⟨later, by rw [Option.some.inj head]⟩
    have member : vp ∈ nodes .deadVps := by
      rw [split]
      simp
    have terminated := (inv.held.placed vp).finals (.inr member)
    have living : ∀ other, sched.Alive other → other ≠ vp := by
      rintro _ alive rfl
      exact absurd terminated (by rw [alive.2]; exact Bool.false_ne_true)
    have alive : ∀ other, Scheduler.Alive { sched with
        isAllocated := Function.update sched.isAllocated vp false
        nextDeadVp := (sched.rewaQueueEntries vp).next } other ↔ sched.Alive other := by
      intro other
      by_cases same : other = vp
      · rw [same]
        refine iff_of_false ?_ fun isAlive => living vp isAlive rfl
        rintro ⟨-, isLiving⟩
        exact absurd terminated (by rw [show (sched.vps vp).isTerminated = false from isLiving]; exact Bool.false_ne_true)
      · unfold Scheduler.Alive
        dsimp only
        rw [Function.update_of_ne same]
    have held : Held { sched with
        isAllocated := Function.update sched.isAllocated vp false
        nextDeadVp := (sched.rewaQueueEntries vp).next } nodes dead sched.owner.toList := by
      refine ⟨⟨inv.held.entered.shelved, ?_⟩, ⟨inv.held.mapped.populated, inv.held.mapped.bounded⟩, ?_, ?_⟩
      · intro other isAlive
        exact inv.held.entered.detached other ((alive other).mp isAlive)
      · refine ⟨done ++ [vp], later, ?_, ?_⟩
        · rw [split, List.append_assoc, List.singleton_append]
        · have holds := inv.held.entered.shelved.holds .deadVps
          rw [split] at holds
          exact congrArg ListNode.next holds.pointers
      · intro other
        have placed := inv.held.placed other
        refine ⟨?_, ?_, placed.waiting, placed.finals, placed.dead_iff, ?_, ?_⟩
        · intro pri isMember
          rw [alive]
          exact placed.ready pri isMember
        · intro queue isMember
          rw [alive]
          exact placed.waits queue isMember
        · intro fresh
          obtain ⟨unallocated, isLiving⟩ := placed.created fresh
          refine ⟨?_, isLiving⟩
          dsimp only
          by_cases same : other = vp
          · rw [same, Function.update_self]
          · rw [Function.update_of_ne same]
            exact unallocated
        · rw [alive]
          exact placed.covered
    obtain ⟨self, owns, loose⟩ := inv.owner
    exact ⟨Scheduler.Calm.of_eq rfl rfl rfl rfl, nodes, held,
      ⟨self, owns, (alive self).mpr loose.alive, loose.resumed, loose.awake, loose.absent⟩, inv.states,
      inv.current, fun other has => (alive other).mpr (inv.alive other has)⟩
  · trivial

end Termination

/-! ## Boot -/

theorem bootMemory_state (vp : Nat) : (bootMemory.vps vp).state = .ready := by
  unfold bootMemory
  dsimp only
  split <;> rfl

theorem bootMemory_held : Held bootMemory (fun _ => []) [] [bootVirtualProcessor] := by
  have living : ∀ vp, (bootMemory.vps vp).isTerminated = false := by
    intro vp
    unfold bootMemory
    dsimp only
    split <;> rfl
  refine ⟨⟨⟨fun _ => DList.holds_empty _, ?_⟩, fun _ _ _ => rfl⟩, ⟨?_, fun _ _ => rfl⟩, ⟨[], [], rfl, rfl⟩, ?_⟩
  · exact fun _ _ vp member => absurd member List.not_mem_nil
  · simp [Scheduler.IsPopulated, bootMemory]
  · intro vp
    refine ⟨?_, ?_, ?_, ?_, ?_, ?_, ?_⟩
    · exact fun _ member => absurd member List.not_mem_nil
    · exact fun _ member => absurd member List.not_mem_nil
    · rw [bootMemory_state]
      exact fun impossible => absurd impossible (by simp)
    · exact fun member => member.elim (fun member => absurd member List.not_mem_nil)
        fun member => absurd member List.not_mem_nil
    · rw [living]
      simp
    · intro fresh
      exact ⟨decide_eq_false (Nat.not_lt.mpr fresh), living vp⟩
    · intro _ resumed _
      by_cases boot : vp = bootVirtualProcessor
      · exact .inl (by rw [boot]; simp)
      · unfold bootMemory at resumed
        dsimp only at resumed
        rw [if_neg boot] at resumed
        exact absurd resumed (by simp [commonInit])

theorem Inv.of_scheduled {sched : Scheduler} {nodes : Queues} {dead : List Nat} {vp : Nat}
    (held : Held sched nodes dead [vp]) (running : sched.running = none) (scheduled : sched.scheduled = some vp)
    (loose : Loose sched nodes vp) (stopped : ∀ other, (sched.vps other).state ≠ .running) : Inv sched nodes dead := by
  have owner : sched.owner = some vp := by
    unfold Scheduler.owner
    rw [scheduled]
    rfl
  refine ⟨?_, ⟨vp, owner, loose⟩, ?_, ?_, ?_⟩
  · rw [owner]
    exact held
  · exact fun other isRunning => absurd isRunning (stopped other)
  · intro unscheduled
    rw [scheduled] at unscheduled
    exact absurd unscheduled (by simp)
  · intro other has
    rw [running] at has
    exact absurd has (by simp)

theorem createForLocalCpu_inv :
    (createForLocalCpu bootMemory).Returned (fun _ after => ∃ nodes, Inv after nodes [])
      fun _ _ => False := by
  unfold createForLocalCpu
  rw [Code.bind_of_ok (Code.get_apply bootMemory)]
  have alive : bootMemory.Alive bootVirtualProcessor := ⟨rfl, rfl⟩
  refine Code.returned_bind (addVirtualProcessorLocked_held bootMemory_held alive (fun _ => List.not_mem_nil) _) ?_
  rintro - added ⟨place, pushed, queued⟩
  have stopped : ∀ other, (added.vps other).state ≠ .running := by
    intro other
    by_cases same : other = bootVirtualProcessor
    · rw [same, queued.isReady]
      simp
    · rw [queued.others other same, bootMemory_state]
      simp
  rw [Code.bind_of_ok (Code.modify_apply _ _), Code.bind_of_ok (Code.get_apply _)]
  cases found : getHighestPriorityReady added with
  | none => trivial
  | some vp =>
    obtain ⟨pri, member⟩ := getHighestPriorityReady_mem pushed found
    have scheduled : Held { added with running := none, scheduled := some vp, isCooperationEnabled := true } _ []
        [] := pushed.congr rfl rfl rfl rfl rfl rfl rfl
    obtain ⟨isAlive, -, isReady, resumed⟩ := (pushed.placed vp).ready pri member
    obtain ⟨removed, front, back, split, returns, pulled, relisted⟩ :=
      removeVirtualProcessorLocked_held scheduled member
    dsimp only
    rw [Code.bind_of_ok returns]
    split
    · have vps : removed.vps = added.vps := relisted.vps
      have living : removed.Alive vp := by
        unfold Scheduler.Alive
        rw [relisted.isAllocated, relisted.vps]
        exact isAlive
      refine ⟨_, Inv.of_scheduled pulled relisted.running relisted.scheduled
        ⟨living, ?_, ?_, fun _ => scheduled.entered.removed_absent split⟩ ?_⟩
      · rw [vps]
        exact resumed
      · rw [vps, isReady]
        simp
      · rw [vps]
        exact stopped
    · trivial

theorem createForLocalCpu_calm :
    (createForLocalCpu bootMemory).Returned (fun _ => bootMemory.Calm) fun _ _ => False := by
  unfold createForLocalCpu
  rw [Code.bind_of_ok (Code.get_apply bootMemory)]
  have awake : (bootMemory.vps bootVirtualProcessor).state ≠ .waiting := by simp [bootMemory_state]
  refine Code.returned_bind (addVirtualProcessorLocked_calm awake _) ?_
  rintro - added calm
  rw [Code.bind_of_ok (Code.modify_apply _ _), Code.bind_of_ok (Code.get_apply _)]
  cases getHighestPriorityReady added with
  | none => trivial
  | some vp =>
    refine Code.returned_bind removeVirtualProcessorLocked_calm ?_
    rintro - removed removal
    split
    · have scheduled : added.Calm { added with running := none, scheduled := some vp, isCooperationEnabled := true } :=
        Scheduler.Calm.of_eq rfl rfl rfl rfl
      exact (calm.trans scheduled).trans removal
    · trivial

theorem booted_inv (nsPerQuantum : Int) : ∃ nodes, Inv (booted nsPerQuantum) nodes [] := by
  obtain ⟨nodes, inv⟩ : ∃ nodes, Inv created nodes [] := createForLocalCpu_inv
  exact ⟨nodes, inv.congr rfl rfl rfl rfl rfl rfl rfl rfl rfl⟩

theorem created_calm : bootMemory.Calm created := createForLocalCpu_calm

/-! ## Steps -/

section Steps
variable {sched after : Scheduler} {nodes : Queues} {dead : List Nat} {action : Action} {vp : Nat}

variable {outcome : Outcome Scheduler Errno Unit}

theorem steady_reached (inv : Inv sched nodes dead)
    (returned : outcome.Returned (fun _ => Inv.Steady sched nodes dead) fun _ _ => False)
    (ends : outcome.state? = some after) : Inv.Settled sched nodes dead after := by
  have steady : Inv.Steady sched nodes dead after :=
    (returned.mono (fun _ _ steady => steady) fun _ _ => False.elim).of_state ends
  exact (Settles.refl inv).steady steady

theorem settled_reached
    (returned : outcome.Returned (fun _ => Inv.Settled sched nodes dead) fun _ _ => False)
    (ends : outcome.state? = some after) : Inv.Settled sched nodes dead after :=
  (returned.mono (fun _ _ settled => settled) fun _ _ => False.elim).of_state ends

theorem reached
    (returned : outcome.Returned (fun _ after => ∃ nodes, Inv after nodes dead) fun _ _ => False)
    (ends : outcome.state? = some after) : ∃ nodes, Inv after nodes dead :=
  (returned.mono (fun _ _ inv => inv) fun _ _ => False.elim).of_state ends

theorem switchContext_step (inv : Inv sched nodes dead) (scheduled : sched.scheduled ≠ none) :
    (switchContext sched).Returned (fun _ => Inv.Steady sched nodes dead) fun _ _ => False := by
  obtain ⟨vp, isScheduled⟩ := Option.ne_none_iff_exists'.mp scheduled
  obtain ⟨self, owns, loose⟩ := inv.owner
  have held := inv.held
  unfold Scheduler.owner at owns held
  rw [isScheduled] at owns held
  rw [← Option.some.inj owns] at loose
  refine ((switchContext_inv held isScheduled loose inv.states).and
    (switchContext_calm isScheduled loose.awake)).mono ?_ fun _ _ => And.left
  rintro - after ⟨inv', calm⟩
  exact ⟨nodes, inv', calm, SameWaits.refl nodes⟩

def Action.Settling : Action → Prop
  | .onClockInterrupt => False
  | .waitOn _ _ _ => False
  | .setPriority _ priority => 0 ≤ priority ∧ priority < 64
  | .finishBoot => False
  | .terminate => False
  | .takeDeadVps => False
  | .destroyDeadVp => False
  | _ => True

theorem step_settles (inv : Inv sched nodes dead) (taken : Step sched action after) (settling : action.Settling) :
    Inv.Settled sched nodes dead after := by
  obtain ⟨enabled, fuel, ends⟩ := taken
  cases action with
  | switchContext => exact steady_reached inv (switchContext_step inv enabled) ends
  | onClockInterrupt => exact settling.elim
  | onEndOfQuantum => exact settled_reached (onEndOfQuantum_inv inv enabled) ends
  | wakeUpAllFromInterruptContext queue => exact settled_reached (wakeUpAllFromInterruptContext_inv inv) ends
  | waitOn queue deadline isInterruptable => exact settling.elim
  | wakeUpOne queue vp reason allowContextSwitch =>
    obtain ⟨context, on⟩ := enabled
    cases allowContextSwitch with
    | false =>
      refine settled_reached ((wakeUpOne_settled inv on reason).mono ?_ fun _ _ => id) ends
      rintro - after ⟨nodes', settles, -⟩
      exact ⟨nodes', settles⟩
    | true => exact settled_reached (wakeUpOne_switch_inv inv (context.resolve_right (by simp)) on reason) ends
  | wakeUpSome queue count reason allowContextSwitch => exact settled_reached (wakeUpSome_inv inv enabled) ends
  | maybeSwitchTo vp => exact steady_reached inv (maybeSwitchTo_inv inv enabled vp) ends
  | create => exact steady_reached inv (create_inv inv) ends
  | setPriority vp priority =>
    refine steady_reached inv ((setPriority_inv inv enabled.1 enabled.2).mono ?_ fun _ _ => id) ends
    rintro - after ⟨nodes', inv', calm, waits⟩
    exact ⟨nodes', inv', calm settling, waits⟩
  | suspend vp =>
    refine ((suspend_inv inv enabled.1 enabled.2).mono (fun _ _ => (Settles.refl inv).steady) ?_).of_state ends
    rintro - after rfl
    exact inv.settled
  | resume vp force => exact steady_reached inv (resume_inv inv enabled.1 enabled.2) ends
  | setCallAsUser vp isInProgress isAborted =>
    rw [← Option.some.inj ends]
    exact ⟨nodes, .calm (.refl inv) (inv.adjust rfl rfl rfl (fun _ => rfl) fun _ => rfl)
      (setVp_calm (.of_rest rfl rfl rfl rfl rfl rfl)) (SameWaits.refl nodes)⟩
  | setCooperation isEnabled =>
    rw [← Option.some.inj ends]
    exact ⟨nodes, .calm (.refl inv) (inv.congr rfl rfl rfl rfl rfl rfl rfl rfl rfl)
      (Scheduler.Calm.of_eq rfl rfl rfl rfl) (SameWaits.refl nodes)⟩
  | finishBoot => exact settling.elim
  | terminate => exact settling.elim
  | takeDeadVps => exact settling.elim
  | destroyDeadVp => exact settling.elim

/-- The running virtual processor begins to wait, or the call returns at once. -/
theorem waitOn_step {queue : WaitQueueName} {deadline : Option Deadline} {isInterruptable : Bool}
    (inv : Inv sched nodes dead) (taken : Step sched (.waitOn queue deadline isInterruptable) after) :
    after = sched ∨ Inv.Waits sched nodes dead queue deadline after := by
  obtain ⟨enabled, fuel, ends⟩ := taken
  have returned : (waitOn fuel queue deadline isInterruptable sched).Returned
      (fun _ after => after = sched ∨ Inv.Waits sched nodes dead queue deadline after)
      fun _ after => after = sched ∨ Inv.Waits sched nodes dead queue deadline after :=
    (waitOn_inv inv enabled).mono (fun _ _ => Or.inr) fun _ _ => Or.inl
  exact returned.of_state ends

theorem onClockInterrupt_step (taken : Step sched .onClockInterrupt after) :
    after = { sched with clock := sched.clock.onInterrupt } := by
  obtain ⟨-, fuel, ends⟩ := taken
  exact (Option.some.inj ends).symm

theorem finishBoot_step (inv : Inv sched nodes dead) (taken : Step sched .finishBoot after) :
    Inv.Steady sched.timed nodes dead after := by
  obtain ⟨enabled, fuel, ends⟩ := taken
  exact ((finishBoot_inv inv enabled.1 enabled.2.2).mono (fun _ _ => id) fun _ _ => False.elim).of_state ends

theorem takeDeadVps_step (inv : Inv sched nodes dead) (taken : Step sched .takeDeadVps after) :
    sched.Calm after ∧ ∃ nodes, Inv after nodes dead := by
  obtain ⟨enabled, fuel, ends⟩ := taken
  exact ((takeDeadVps_inv inv).mono (fun _ _ => id) fun _ _ => False.elim).of_state ends

theorem destroyDeadVp_step (inv : Inv sched nodes dead) (taken : Step sched .destroyDeadVp after) :
    sched.Calm after ∧ ∃ nodes, Inv after nodes dead := by
  obtain ⟨enabled, fuel, ends⟩ := taken
  exact ((destroyDeadVp_inv inv).mono (fun _ _ => id) fun _ _ => False.elim).of_state ends

/-- Every step but a termination keeps the invariant and the dead. -/
theorem step_inv (inv : Inv sched nodes dead) (taken : Step sched action after) (lives : action ≠ .terminate) :
    ∃ nodes, Inv after nodes dead := by
  cases action with
  | onClockInterrupt =>
    rw [onClockInterrupt_step taken]
    exact ⟨nodes, inv.congr rfl rfl rfl rfl rfl rfl rfl rfl rfl⟩
  | waitOn queue deadline isInterruptable =>
    rcases waitOn_step inv taken with same | ⟨vp, -, -, nodes', inv', -⟩
    · exact ⟨nodes, same ▸ inv⟩
    · exact ⟨nodes', inv'⟩
  | setPriority vp priority =>
    obtain ⟨enabled, fuel, ends⟩ := taken
    refine reached ((setPriority_inv inv enabled.1 enabled.2).mono ?_ fun _ _ => id) ends
    rintro - after ⟨nodes', inv', -⟩
    exact ⟨nodes', inv'⟩
  | finishBoot => exact (finishBoot_step inv taken).inv
  | terminate => exact absurd rfl lives
  | takeDeadVps => exact (takeDeadVps_step inv taken).2
  | destroyDeadVp => exact (destroyDeadVp_step inv taken).2
  | _ => exact (step_settles inv taken trivial).inv

/-- A termination that does not wake the boot virtual processor adds to the dead. -/
theorem terminate_step (inv : Inv sched nodes dead) (taken : Step sched .terminate after)
    (has : sched.running = some vp) (spares : sched.Spares) :
    sched.Calm after ∧ ∃ nodes, Inv after nodes (vp :: dead) := by
  obtain ⟨enabled, fuel, ends⟩ := taken
  exact ((terminate_inv inv enabled has spares).mono (fun _ _ => id) fun _ _ => False.elim).of_state ends

end Steps

end Apollo.Dispatcher.VirtualProcessorScheduler
