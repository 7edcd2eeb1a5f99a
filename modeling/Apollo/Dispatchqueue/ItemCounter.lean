import Apollo.Dispatchqueue.Frames

/-!
# The counter of the queued items

`items_queued_count` is the length of the item queue as long as no worker looks
into the empty queue and no flush removes an item.  Every look takes one off the
counter, and a flush leaves the items that it removes in it.
-/

set_option autoImplicit false

namespace Apollo.Dispatchqueue

open Klib
open Lib

def Tallies {α : Type} (code : Code System Errno α) : Prop :=
  ∀ total, Code.Keeps (fun sys => sys.tally = total) code

section Tally
variable {α β : Type} {code : Code System Errno α}

theorem respects_tally (total : Nat × Nat) : Respects (fun _ => True) fun sys => sys.tally = total :=
  .of_staff _ (fun _ same holds => same.trans holds) fun _ _ holds => holds

theorem tallies_of_framed (framed : Framed code) : Tallies code := fun total => (respects_tally total).keeps framed

theorem tallies_of_apply (same : ∀ sys, (code sys).Returned (fun _ after => after.tally = sys.tally)
    fun _ after => after.tally = sys.tally) : Tallies code := by
  intro total sys holds
  refine (same sys).mono ?_ ?_
  · exact fun _ _ kept => kept.trans holds
  · exact fun _ _ kept => kept.trans holds

theorem Tallies.of_ok (tallies : Tallies code) {sys after : System} {value : α}
    (returns : code sys = .ok value after) : after.tally = sys.tally := by
  have kept := tallies sys.tally sys rfl
  rw [returns] at kept
  exact kept

end Tally

theorem tally_of_frame {sys after : System} (same : after.frame = sys.frame) : after.tally = sys.tally :=
  congrArg (fun frame => frame.2.1) same

theorem execute_tallies (lane : Nat) : Tallies (execute lane) := by
  refine tallies_of_apply fun sys => ?_
  unfold execute
  split
  · next item found =>
      simp only [runClosure]
      cases (sys.items item).closure with
      | none => trivial
      | some code =>
        have signals := fun sys => tally_of_frame (signalCompletion_frame sys item false)
        refine Eq.trans (signals _) ?_
        split <;> rfl
  · trivial

/-! ## The rounds of the workers -/

/-- A worker that looks for an item at this time finds a due timer or an item. -/
def System.HasWork (sys : System) (now : Int) : Prop :=
  (sys.lists .itemQueue).first ≠ none ∨
    ∃ timer, (sys.lists .timerQueue).first = some timer ∧ (sys.items timer).deadline ≤ now

/-- The repeating timer that the worker has executed goes back into the queue and is due again at
`later`. -/
def System.RearmsDue (sys : System) (lane : Nat) (now later : Int) : Prop :=
  sys.state = .running ∧ ∃ timer deadline fuel, sys.lanes[lane]? = some (.finished timer) ∧
    (sys.items timer).type = .repeatingTimer ∧ (sys.items timer).cancelled = false ∧
    rearmDeadline (sys.items timer).interval now fuel (sys.items timer).deadline = some deadline ∧
    deadline ≤ later

section Rounds
variable {strict : Prop} {sys after : System} {nodes : Nodes} {held : List Nat}

variable {now deadline : Int} {mayRelinquish : Bool} {fuel timer item : Nat} {self : Thread}

theorem hasWork_iff (inv : Inv strict sys nodes held) :
    sys.HasWork now ↔ nodes .itemQueue ≠ [] ∨
      ∃ timer ∈ (nodes .timerQueue).head?, (sys.items timer).deadline ≤ now := by
  unfold System.HasWork
  rw [(inv.placed.chained.lists .itemQueue).first, (inv.placed.chained.lists .timerQueue).first]
  simp only [ne_eq, List.head?_eq_none_iff, Option.mem_def]

theorem takeItem_tally (inv : Inv strict sys nodes held) (work : sys.HasWork now) :
    (sys.takeItem now).1 ≠ none ∧ (sys.takeItem now).2.tally = sys.tally := by
  have takes := takeItem_cases inv now
  generalize sys.takeItem now = taken at takes ⊢
  cases takes with
  | timer split placed => exact ⟨by simp, rfl⟩
  | item split placed => exact ⟨by simp, rfl⟩
  | nothing empty notDue =>
    rcases (hasWork_iff inv).mp work with some | ⟨timer, first, due⟩
    · exact absurd empty some
    · exact absurd due (not_le.mpr (notDue timer first))

theorem runRound_tally (inv : Inv strict sys nodes held) {lane : Nat}
    (work : sys.HasWork now) (ends : runRound lane mayRelinquish now sys = .ok () after) :
    after.tally = sys.tally := by
  obtain ⟨finds, tally⟩ := takeItem_tally inv work
  have kept : (runRound lane mayRelinquish now sys).Returned (fun _ after => after.tally = sys.tally)
      fun _ _ => True := by
    unfold runRound
    rw [Code.bind_of_ok (Code.get_apply _)]
    rcases takes : sys.takeItem now with ⟨found, rest⟩
    rw [takes] at finds tally
    cases found with
    | none => exact absurd rfl finds
    | some item =>
      change ((if rest.state ≠ .running then _ else _ : Code System Errno Unit) sys).Returned _ _
      split_ifs
      · have unlocks := tallies_of_framed (lockUnlock_framed (.worker lane)) sys.tally (rest.relinquishVirtualProcessor lane) tally
        exact unlocks.mono (fun _ _ kept => kept) fun _ _ _ => trivial
      · have unlocks := tallies_of_framed (lockUnlock_framed (.worker lane)) sys.tally (rest.setLane lane (.executing item)) tally
        exact unlocks.mono (fun _ _ kept => kept) fun _ _ _ => trivial
  rw [ends] at kept
  exact kept

theorem start_tally (inv : Inv strict sys nodes held) (unlocked : sys.lock = none) {lane : Nat}
    (found : sys.lanes[lane]? = some .starting) (work : sys.HasWork now)
    (ends : start lane now sys = .ok () after) : after.tally = sys.tally := by
  have entered : Inv strict (System.setLane { sys with lock := some (.worker lane) } lane .running) nodes held :=
    (inv.withLock (some (.worker lane))).setLane found (by simp) rfl (by simp) rfl
  unfold start at ends
  rw [found] at ends
  change (enter lane >>= fun _ => runRound lane false now) sys = _ at ends
  rw [Code.bind_of_ok (enter_apply unlocked lane)] at ends
  refine (runRound_tally entered ?_ ends).trans rfl
  exact work

theorem wake_tally (inv : Inv strict sys nodes held) (unlocked : sys.lock = none) {lane : Nat}
    {timedOut : Bool} (found : sys.lanes[lane]? = some (.waiting mayRelinquish))
    (work : sys.HasWork now) (ends : wake lane timedOut now sys = .ok () after) : after.tally = sys.tally := by
  have entered : Inv strict (System.setLane { sys with lock := some (.worker lane) } lane .running) nodes held :=
    (inv.withLock (some (.worker lane))).setLane found (by simp) rfl (by simp) rfl
  unfold wake at ends
  rw [found] at ends
  change (enter lane >>= fun _ => Code.get >>= fun sys => runRound lane _ now) sys = _ at ends
  rw [Code.bind_of_ok (enter_apply unlocked lane), Code.bind_of_ok (Code.get_apply _)] at ends
  refine (runRound_tally entered ?_ ends).trans rfl
  exact work

/-! ### Behind an item -/

theorem relinquish_work {cache : Cache} {deinit destroy : System → Nat → System} {node : Nat}
    (lists : (deinit sys node).lists = sys.lists ∧ (destroy sys node).lists = sys.lists)
    (items : ∀ other, ((deinit sys node).items other).deadline = (sys.items other).deadline ∧
      ((destroy sys node).items other).deadline = (sys.items other).deadline) (work : sys.HasWork now) :
    (sys.relinquish cache deinit destroy node).HasWork now := by
  unfold System.HasWork at work ⊢
  unfold System.relinquish
  split_ifs
  · simp only [System.insertBeforeFirst, System.withList, ne_eq, reduceCtorEq, not_false_eq_true,
      Function.update_of_ne, lists.1, (items _).1]
    exact work
  · simp only [lists.2, (items _).2]
    exact work

theorem deinit_deadline (sys : System) (item other : Nat) :
    ((sys.workItemDeinit item).items other).deadline = (sys.items other).deadline := by
  by_cases same : other = item
  · subst same
    simp [System.workItemDeinit, System.setItem, System.unlink]
  · simp [System.workItemDeinit, System.setItem, System.unlink, Function.update_of_ne same]

theorem relinquishWorkItem_work (item : Nat) (work : sys.HasWork now) :
    (sys.relinquishWorkItem item).HasWork now := by
  unfold System.relinquishWorkItem
  simp only
  split_ifs
  · exact work
  · exact relinquish_work ⟨rfl, rfl⟩ (fun other => ⟨deinit_deadline _ item other, deinit_deadline _ item other⟩) work

theorem relinquishTimer_work (timer : Nat) (work : sys.HasWork now) :
    (sys.relinquishTimer timer).HasWork now := by
  unfold System.relinquishTimer
  simp only
  split_ifs
  · exact work
  · exact relinquish_work ⟨rfl, rfl⟩ (fun other => ⟨deinit_deadline _ timer other, deinit_deadline _ timer other⟩) work

theorem timerBefore_some {passed : Nat} {current previous : Option Nat}
    (finds : timerBefore sys deadline fuel current (some passed) = some previous) :
    ∃ node, previous = some node := by
  induction fuel generalizing current passed with
  | zero => simp [timerBefore] at finds
  | succ fuel ih =>
    cases current with
    | none =>
      simp only [timerBefore, Option.some.injEq] at finds
      exact ⟨passed, finds.symm⟩
    | some node =>
      rw [timerBefore] at finds
      split_ifs at finds with earlier
      · exact ⟨passed, (Option.some.inj finds).symm⟩
      · exact ih finds

/-- The new timer is the first one, or it comes behind a first one that is not due after it. -/
theorem addTimer_first (adds : addTimer fuel timer sys = .ok () after) :
    after.items = sys.items ∧ after.lists .itemQueue = sys.lists .itemQueue ∧
      (((after.lists .timerQueue).first = some timer ∧
          ∀ first, (sys.lists .timerQueue).first = some first →
            (sys.items timer).deadline < (sys.items first).deadline) ∨
        ∃ first, (sys.lists .timerQueue).first = some first ∧ (after.lists .timerQueue).first = some first ∧
          (sys.items first).deadline ≤ (sys.items timer).deadline) := by
  unfold addTimer at adds
  cases finds : timerBefore sys (sys.items timer).deadline fuel (sys.lists .timerQueue).first none with
  | none => simp [finds] at adds
  | some previous =>
    simp only [finds, Outcome.ok.injEq, true_and] at adds
    subst adds
    refine ⟨rfl, by simp [System.insertAfter, System.withList], ?_⟩
    cases fuel with
    | zero => simp [timerBefore] at finds
    | succ fuel =>
      cases queue : (sys.lists .timerQueue).first with
      | none =>
        rw [queue, timerBefore] at finds
        cases finds
        simp [System.insertAfter, System.withList, SList.insertAfter, SList.insertBeforeFirst]
      | some first =>
        rw [queue, timerBefore] at finds
        split_ifs at finds with earlier
        · cases finds
          left
          refine ⟨by simp [System.insertAfter, System.withList, SList.insertAfter, SList.insertBeforeFirst], ?_⟩
          intro other same
          cases same
          exact earlier
        · obtain ⟨node, rfl⟩ := timerBefore_some finds
          right
          refine ⟨first, rfl, ?_, not_lt.mp earlier⟩
          simpa [System.insertAfter, System.withList, SList.insertAfter] using queue

theorem rearmDeadline_unique {interval first second : Int} {fuel' : Nat}
    (here : rearmDeadline interval now fuel deadline = some first)
    (there : rearmDeadline interval now fuel' deadline = some second) : first = second := by
  induction fuel generalizing fuel' deadline with
  | zero => simp [rearmDeadline] at here
  | succ fuel ih =>
    cases fuel' with
    | zero => simp [rearmDeadline] at there
    | succ fuel' =>
      rw [rearmDeadline] at here there
      split_ifs at here there with late
      · exact ih here there
      · exact Option.some.inj (here.symm.trans there)

theorem rearmTimer_work {later : Int}
    (rearms : rearmTimer fuel timer now sys = .ok () after)
    (work : sys.HasWork later ∨ ∃ deadline fuel',
      rearmDeadline (sys.items timer).interval now fuel' (sys.items timer).deadline = some deadline ∧
        deadline ≤ later)
    (elsewhere : (sys.lists .timerQueue).first ≠ some timer) : after.HasWork later := by
  unfold rearmTimer at rearms
  cases rearm : rearmDeadline (sys.items timer).interval now fuel (sys.items timer).deadline with
  | none => simp [rearm] at rearms
  | some deadline =>
    simp only [rearm] at rearms
    obtain ⟨items, itemQueue, first⟩ := addTimer_first rearms
    have new : (after.items timer).deadline = deadline := by
      rw [items]
      simp [System.setItem]
    have old : ∀ first, (sys.lists .timerQueue).first = some first →
        (after.items first).deadline = (sys.items first).deadline := by
      intro first queue
      have different : first ≠ timer := by
        rintro rfl
        exact elsewhere queue
      rw [items]
      simp [System.setItem, Function.update_of_ne different]
    rw [← items] at first
    rcases work with (some | ⟨due, queue, isDue⟩) | ⟨deadline', fuel', rearm', isDue⟩
    · left
      rw [itemQueue]
      exact some
    · right
      rcases first with ⟨head, earlier⟩ | ⟨other, queue', head, -⟩
      · refine ⟨timer, head, ?_⟩
        have before := earlier due queue
        rw [old due queue] at before
        omega
      · have same : other = due := Option.some.inj (queue'.symm.trans queue)
        subst same
        refine ⟨other, head, ?_⟩
        rw [old other queue]
        exact isDue
    · right
      have same := rearmDeadline_unique rearm rearm'
      rcases first with ⟨head, -⟩ | ⟨other, -, head, notLater⟩
      · exact ⟨timer, head, by omega⟩
      · exact ⟨other, head, by omega⟩

theorem reclaimItem_work {later : Int} (inv : Inv strict sys nodes (item :: held))
    (reclaims : reclaimItem fuel item now sys = .ok () after)
    (work : sys.HasWork later ∨ (sys.state = .running ∧ (sys.items item).type = .repeatingTimer ∧
      (sys.items item).cancelled = false ∧ ∃ deadline fuel',
        rearmDeadline (sys.items item).interval now fuel' (sys.items item).deadline = some deadline ∧
          deadline ≤ later)) : after.HasWork later := by
  have elsewhere : (sys.lists .timerQueue).first ≠ some item := by
    rw [(inv.placed.chained.lists .timerQueue).first]
    intro first
    exact inv.placed.chained.held_not_mem .timerQueue (List.mem_of_head? first)
  unfold reclaimItem at reclaims
  rw [Code.bind_of_ok (Code.get_apply _)] at reclaims
  cases type : (sys.items item).type with
  | immediate =>
    simp only [type, Code.modify_apply, Outcome.ok.injEq, true_and] at reclaims
    subst reclaims
    rcases work with work | ⟨-, repeating, -⟩
    · exact relinquishWorkItem_work item work
    · simp [type] at repeating
  | oneShotTimer =>
    simp only [type, Code.modify_apply, Outcome.ok.injEq, true_and] at reclaims
    subst reclaims
    rcases work with work | ⟨-, repeating, -⟩
    · exact relinquishTimer_work item work
    · simp [type] at repeating
  | repeatingTimer =>
    simp only [type] at reclaims
    split_ifs at reclaims with cancelled running
    · simp only [Code.modify_apply, Outcome.ok.injEq, true_and] at reclaims
      subst reclaims
      rcases work with work | ⟨-, -, not, -⟩
      · exact relinquishTimer_work item work
      · exact absurd (not.symm.trans cancelled) Bool.false_ne_true
    · refine rearmTimer_work reclaims ?_ elsewhere
      exact work.imp id fun due => due.2.2.2
    · simp only [Code.pure_apply, Outcome.ok.injEq, true_and] at reclaims
      subst reclaims
      rcases work with work | ⟨isRunning, -⟩
      · exact work
      · exact absurd isRunning running

theorem reclaimItem_tallies (fuel item : Nat) (now : Int) : Tallies (reclaimItem fuel item now) := by
  refine tallies_of_apply fun sys => ?_
  unfold reclaimItem
  rw [Code.bind_of_ok (Code.get_apply _)]
  cases (sys.items item).type with
  | immediate => exact tally_of_frame (relinquishWorkItem_frame sys item)
  | oneShotTimer => exact tally_of_frame (relinquishTimer_frame sys item)
  | repeatingTimer =>
    simp only
    split_ifs
    · exact tally_of_frame (relinquishTimer_frame sys item)
    · unfold rearmTimer
      cases rearmDeadline (sys.items item).interval now fuel (sys.items item).deadline with
      | none => trivial
      | some deadline =>
        exact (addTimer_staff fuel item _).mono (fun _ _ same => same.2) fun _ _ same => same.2
    · rfl

theorem reclaim_tally (inv : Inv strict sys nodes held) (unlocked : sys.lock = none) {lane : Nat}
    {later : Int} (found : sys.lanes[lane]? = some (.finished item))
    (work : sys.HasWork later ∨ sys.RearmsDue lane now later)
    (ends : reclaim lane fuel now later sys = .ok () after) : after.tally = sys.tally := by
  have closure := inv.placed.ready item (.inr (List.mem_of_getElem? found))
  have clean := fun holds => (inv.reset holds).finished item (List.mem_of_getElem? found)
  have entered := (inv.withLock (some (.worker lane))).setLane_finished found
  unfold reclaim at ends
  rw [found] at ends
  change (enter lane >>= fun _ => reclaimItem fuel item now >>= fun _ => runRound lane false later) sys = _ at ends
  rw [Code.bind_of_ok (enter_apply unlocked lane), Code.bind_eq_ok] at ends
  obtain ⟨_, middle, reclaims, round⟩ := ends
  have reclaimed := reclaimItem_ends entered closure clean fuel now
  rw [reclaims] at reclaimed
  obtain ⟨-, nodes', inv'⟩ := reclaimed
  have kept := (reclaimItem_tallies fuel item now).of_ok reclaims
  refine (runRound_tally inv' ?_ round).trans kept
  refine reclaimItem_work entered reclaims (work.imp id ?_)
  rintro ⟨running, timer, deadline, fuel', found', repeating, notCancelled, rearm, due⟩
  have same : item = timer := by
    rw [found] at found'
    cases found'
    rfl
  subst same
  exact ⟨running, repeating, notCancelled, deadline, fuel', rearm, due⟩

theorem flushLocked_empty (inv : Inv strict sys nodes held) (empty : nodes .itemQueue = [])
    (ends : flushLocked fuel sys = .ok () after) : after = sys := by
  unfold flushLocked at ends
  cases fuel with
  | zero => simp [flushItems, Code.bind_apply] at ends
  | succ fuel =>
    rw [Code.bind_of_ok (flushItems_none (inv.placed.chained.removeFirst_nil empty) fuel),
      flushTimers_apply inv fuel] at ends
    split_ifs at ends
    cases ends
    rfl

theorem flush_tally (inv : Inv strict sys nodes held) (unlocked : sys.lock = none)
    (empty : nodes .itemQueue = []) (ends : flush self fuel sys = .ok () after) : after.tally = sys.tally := by
  unfold flush at ends
  rw [Code.bind_of_ok (lockLock_apply unlocked self), Code.bind_eq_ok] at ends
  obtain ⟨_, middle, flushes, unlocks⟩ := ends
  have same := flushLocked_empty (inv.withLock (some self)) empty flushes
  have kept := (tallies_of_framed (lockUnlock_framed self)).of_ok unlocks
  exact kept.trans (by rw [same]; rfl)

theorem terminate_tally (inv : Inv strict sys nodes held) (unlocked : sys.lock = none)
    (empty : sys.state = .running → nodes .itemQueue = []) (ends : terminate self fuel sys = .ok () after) :
    after.tally = sys.tally := by
  unfold terminate at ends
  rw [Code.bind_of_ok (lockLock_apply unlocked self), Code.bind_of_ok (Code.get_apply _)] at ends
  split_ifs at ends with stopped
  · exact ((tallies_of_framed (lockUnlock_framed self)).of_ok ends).trans rfl
  · rw [Code.bind_of_ok (Code.modify_apply _ _), Code.bind_eq_ok] at ends
    obtain ⟨_, middle, flushes, unlocks⟩ := ends
    rw [flushLocked_withState] at flushes
    cases result : flushLocked fuel { sys with lock := some self } with
    | ok value final =>
      rw [result] at flushes
      have same := flushLocked_empty (inv.withLock (some self)) (empty (not_not.mp stopped)) result
      simp only [Outcome.mapState, Outcome.ok.injEq, true_and] at flushes
      have kept := (tallies_of_framed (lockUnlock_framed self)).of_ok unlocks
      exact kept.trans (by rw [← flushes, same]; rfl)
    | err error final => simp [result, Outcome.mapState] at flushes
    | fault => simp [result, Outcome.mapState] at flushes

end Rounds

/-! ## Runs -/

def Action.Counted (sys : System) : Action → Prop
  | .start _ now => sys.HasWork now
  | .wake _ _ now => sys.HasWork now
  | .reclaim lane now later => sys.HasWork later ∨ sys.RearmsDue lane now later
  | .flush => (sys.lists .itemQueue).first = none
  | .terminate => sys.state = .running → (sys.lists .itemQueue).first = none
  | _ => True

section Runs
variable {strict : Prop} {sys after : System} {nodes : Nodes}

theorem performCall_ok {code : Thread → Code System Errno Unit}
    (ends : (code (.client sys.calls.length) sys).Ends True (fun _ _ => True) fun _ _ => False)
    (performs : performCall code sys = .ok () after) : code (.client sys.calls.length) sys = .ok () after := by
  unfold performCall at performs
  rw [Code.bind_of_ok (Code.get_apply _)] at performs
  cases result : code (.client sys.calls.length) sys with
  | ok value middle =>
    simp only [Code.bind_apply, Code.attempt, result] at performs
    exact performs
  | err error middle =>
    rw [result] at ends
    exact ends.elim
  | fault => simp [Code.bind_apply, Code.attempt, result] at performs

theorem perform_tally (inv : Inv strict sys nodes []) (unlocked : sys.lock = none) {fuel : Nat}
    {action : Action} (enabled : action.enabled sys = true) (counted : action.Counted sys)
    (performs : perform fuel action sys = .ok () after) : after.tally = sys.tally := by
  have itemQueue := (inv.placed.chained.lists .itemQueue).first
  by_cases client : action.isClient = true
  · have answered : action.Answered fun _ => True := by
      cases action <;> trivial
    have kept := (respects_tally sys.tally).perform fuel client answered sys rfl
    rw [performs] at kept
    exact kept
  cases action with
  | flush =>
    have empty : nodes .itemQueue = [] := List.head?_eq_none_iff.mp (itemQueue.symm.trans counted)
    rw [perform] at performs
    refine flush_tally inv unlocked empty (performCall_ok ?_ performs)
    exact Code.ends_weaken (Code.ends_mono (flush_ends inv unlocked _ fuel) (fun _ _ _ => trivial)
      fun _ _ impossible => impossible) fun _ => trivial
  | terminate =>
    have empty : sys.state = .running → nodes .itemQueue = [] :=
      fun running => List.head?_eq_none_iff.mp (itemQueue.symm.trans (counted running))
    rw [perform] at performs
    refine terminate_tally inv unlocked empty (performCall_ok ?_ performs)
    exact Code.ends_weaken (Code.ends_mono (terminate_ends inv unlocked _ fuel) (fun _ _ _ => trivial)
      fun _ _ impossible => impossible) fun _ => trivial
  | start lane now =>
    simp only [Action.enabled, decide_eq_true_eq] at enabled
    exact start_tally inv unlocked enabled counted performs
  | wake lane timedOut now =>
    simp only [Action.enabled] at enabled
    split at enabled
    · next found => exact wake_tally inv unlocked found counted performs
    · simp at enabled
  | execute lane => exact (execute_tallies lane).of_ok performs
  | reclaim lane now later =>
    simp only [Action.enabled] at enabled
    split at enabled
    · next found => exact reclaim_tally inv unlocked found counted performs
    · simp at enabled
  | _ => exact absurd rfl client

end Runs

theorem create_tally {minConcurrency maxConcurrency : Nat} {sys : System}
    (created : dispatchQueueCreate minConcurrency maxConcurrency = .ok sys) : sys.tally = (0, 0) :=
  @create_keeps (fun sys => sys.tally = (0, 0)) _ _ _ (fun _ _ holds => holds) rfl created

def CountedStep (sys : System) (action : Action) (after : System) : Prop :=
  ServedStep sys action after ∧ action.Counted sys

theorem itemsQueuedCount_eq_length {minConcurrency maxConcurrency : Nat} {start sys : System}
    {actions : List Action} (created : dispatchQueueCreate minConcurrency maxConcurrency = .ok start)
    (run : Runs CountedStep start actions sys) :
    sys.lock = none ∧ ∃ items, (sys.lists .itemQueue).Holds sys.links items ∧
      sys.itemsQueuedCount = items.length := by
  have holds : Guarded False none [] sys ∧ sys.tally = (0, 0) := by
    refine Runs.invariant (fun sys => Guarded False none [] sys ∧ sys.tally = (0, 0)) ?_ ?_ run
    · exact ⟨create_guarded False created, create_tally created⟩
    · rintro action state after ⟨guarded, tally⟩ ⟨step, counted⟩
      refine ⟨step_guarded guarded step False.elim, ?_⟩
      obtain ⟨unlocked, nodes, inv⟩ := guarded
      obtain ⟨⟨enabled, fuel, performs⟩, -⟩ := step
      exact (perform_tally inv unlocked enabled counted performs).trans tally
  obtain ⟨⟨unlocked, nodes, inv⟩, tally⟩ := holds
  refine ⟨unlocked, nodes .itemQueue, inv.placed.chained.lists .itemQueue, ?_⟩
  have balance := inv.balance
  simp only [System.tally, Prod.mk.injEq] at tally
  omega

def oneItemRun : List Action := [.dispatchAsync 7 (some (1, zeroItem)) true, .start 0 0]

theorem oneItemRun_counts :
    ∃ sys items, Runs CountedStep (newQueue 1 1) oneItemRun.reverse sys ∧
      (sys.lists .itemQueue).Holds sys.links items ∧ sys.itemsQueuedCount = items.length := by
  have run : Runs CountedStep (newQueue 1 1) (oneItemRun.reverse ++ [])
      (oneItemRun.foldl (follow 9) (newQueue 1 1)) := by
    refine replays_runs 9 (fun sys action => match action with
      | .dispatchAsync _ _ available => available
      | .start _ _ => (sys.lists .itemQueue).first.isSome
      | _ => false) ?_ .nil (by decide)
    intro sys action after allows step
    cases action with
    | dispatchAsync closure memory available => exact ⟨⟨step, fun _ => allows⟩, trivial⟩
    | start lane now => exact ⟨⟨step, trivial⟩, .inl (Option.isSome_iff_ne_none.mp allows)⟩
    | _ => simp at allows
  have created : dispatchQueueCreate 1 1 = .ok (newQueue 1 1) := rfl
  obtain ⟨-, items, holds, count⟩ := itemsQueuedCount_eq_length created run
  exact ⟨_, items, run, holds, count⟩

/-- A new worker looks into the empty queue, and the counter is behind it by one. -/
theorem idleWorker_miscounts :
    ∃ start actions sys, dispatchQueueCreate 1 1 = .ok start ∧ Runs Step start actions sys ∧ sys.lock = none ∧
      (sys.lists .itemQueue).Holds sys.links [] ∧ sys.itemsQueuedCount = -1 := by
  have run : Runs Step (newQueue 1 1) ([Action.start 0 0].reverse ++ [])
      ([Action.start 0 0].foldl (follow 9) (newQueue 1 1)) :=
    replays_runs 9 (fun _ _ => true) (fun _ _ _ _ step => step) .nil (by decide)
  refine ⟨newQueue 1 1, _, _, rfl, run, by decide, ?_, by decide⟩
  exact ⟨by decide, by decide, trivial, List.nodup_nil⟩

end Apollo.Dispatchqueue
