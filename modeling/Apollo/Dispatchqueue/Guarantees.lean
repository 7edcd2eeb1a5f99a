import Apollo.Dispatchqueue.Steps

/-!
# What runs of the queue guarantee
-/

set_option autoImplicit false

namespace Apollo.Dispatchqueue

open Klib
open Lib

/-- The steps of these runs get the virtual processors that they ask for. -/
def alwaysAvailable (_ : System) : Action → Bool
  | .dispatchAsync _ _ available => available
  | .dispatchAsyncAfter _ _ _ available => available
  | .dispatchSync _ _ _ available => available
  | _ => true

theorem available_runs (start : System) (actions : List Action)
    (follows : replays 9 alwaysAvailable actions start = true) :
    Runs ServedStep start (actions.reverse ++ []) (actions.foldl (follow 9) start) := by
  refine replays_runs 9 alwaysAvailable ?_ .nil follows
  intro sys action after allows step
  cases action with
  | dispatchAsync closure memory available => exact ⟨step, fun _ => allows⟩
  | dispatchAsyncAfter deadline closure memory available => exact ⟨step, fun _ => allows⟩
  | dispatchSync closure memory address available => exact ⟨step, fun _ => allows⟩
  | _ => exact ⟨step, trivial⟩

/-! ## Every node in one place -/

/-- The queues and caches are lists without cycles, a node is in one place at most, a node that
is free is nowhere, and the counters of the caches are right and not above 8. -/
def System.OnePlace (sys : System) : Prop :=
  ∃ nodes : Nodes, (∀ name, (sys.lists name).Holds sys.links (nodes name)) ∧
    (∀ node, sys.load nodes [] node ≤ 1) ∧
    (∀ node, node ∉ sys.allocated → sys.load nodes [] node = 0) ∧
    ∀ cache, sys.cacheCount cache = (nodes (.cache cache)).length ∧ (nodes (.cache cache)).length ≤ 8

def Returns (sys : System) (action : Action) : Prop :=
  ∃ bound, ∀ fuel, bound ≤ fuel → ∃ after, perform fuel action sys = .ok () after ∧ after.lock = none

theorem Guarded.onePlace {strict : Prop} {sys : System} (guarded : Guarded strict none [] sys) : sys.OnePlace := by
  obtain ⟨-, nodes, inv⟩ := guarded
  refine ⟨nodes, inv.placed.chained.lists, inv.placed.chained.single, ?_, ?_⟩
  · intro node free
    by_contra occupied
    exact free (inv.placed.chained.live node (Nat.pos_of_ne_zero occupied))
  · exact fun cache => ⟨inv.placed.counted cache, inv.placed.bounded cache⟩

theorem Guarded.returns {sys : System} (guarded : Guarded False none [] sys) {action : Action}
    (enabled : action.enabled sys = true) (served : action.Served sys) (orderly : action.Orderly sys) :
    Returns sys action := by
  obtain ⟨unlocked, nodes, inv⟩ := guarded
  refine ⟨(nodes .itemQueue).length + (nodes .timerQueue).length + 1, ?_⟩
  intro fuel enough
  have ends := perform_ends inv unlocked enabled served False.elim fuel
  cases result : perform fuel action sys with
  | ok value after =>
    rw [result] at ends
    exact ⟨after, rfl, ends.1⟩
  | err error after =>
    rw [result] at ends
    exact ends.elim
  | fault =>
    rw [result] at ends
    rcases ends with short | disorderly
    · omega
    · exact absurd orderly disorderly

theorem served_runs_onePlace {minConcurrency maxConcurrency : Nat} {start sys : System} {actions : List Action}
    (created : dispatchQueueCreate minConcurrency maxConcurrency = .ok start)
    (run : Runs ServedStep start actions sys) :
    sys.lock = none ∧ sys.OnePlace ∧ ∀ action, action.enabled sys = true → action.Served sys →
      action.Orderly sys → Returns sys action := by
  have guarded := served_guarded created run
  exact ⟨guarded.1, guarded.onePlace, fun action enabled served orderly => guarded.returns enabled served orderly⟩

def roundTrip : List Action := [.dispatchAsync 7 (some (1, zeroItem)) true, .start 0 0, .execute 0, .reclaim 0 1 1]

theorem roundTrip_onePlace :
    ∃ sys, Runs ServedStep (newQueue 0 1) roundTrip.reverse sys ∧ sys.OnePlace ∧ Returns sys .terminate := by
  have run := available_runs (newQueue 0 1) roundTrip (by decide)
  have created : dispatchQueueCreate 0 1 = .ok (newQueue 0 1) := rfl
  have noTimers : ((roundTrip.foldl (follow 9) (newQueue 0 1)).lists .timerQueue).first = none := by
    decide
  obtain ⟨-, onePlace, returns⟩ := served_runs_onePlace created run
  exact ⟨_, run, onePlace, returns .terminate rfl trivial noTimers⟩

/-- The pool has no virtual processor for the first item: the item stays in the queue and goes into
the cache. -/
theorem refusedDispatch_twoPlaces :
    ∃ start actions sys, dispatchQueueCreate 0 1 = .ok start ∧ Runs Step start actions sys ∧ ¬ sys.OnePlace := by
  have run : Runs Step (newQueue 0 1) ([Action.dispatchAsync 7 (some (1, zeroItem)) false].reverse ++ [])
      ([Action.dispatchAsync 7 (some (1, zeroItem)) false].foldl (follow 9) (newQueue 0 1)) :=
    replays_runs 9 (fun _ _ => true) (fun _ _ _ _ step => step) .nil (by decide)
  refine ⟨newQueue 0 1, _, _, rfl, run, ?_⟩
  generalize reached : [Action.dispatchAsync 7 (some (1, zeroItem)) false].foldl (follow 9) (newQueue 0 1) = sys
  have queued : (sys.lists .itemQueue).first = some 1 := by
    rw [← reached]
    decide
  have cached : (sys.lists (.cache .items)).first = some 1 := by
    rw [← reached]
    decide
  rintro ⟨nodes, holds, single, -⟩
  have inQueue : 1 ∈ nodes .itemQueue := List.mem_of_head? ((holds .itemQueue).first.symm.trans queued)
  have inCache : 1 ∈ nodes (.cache .items) := List.mem_of_head? ((holds (.cache .items)).first.symm.trans cached)
  have both := nodes.count_le_of_ne (by simp : ListName.itemQueue ≠ .cache .items) 1
  have one := single 1
  have first := List.count_pos_iff.mpr inQueue
  have second := List.count_pos_iff.mpr inCache
  simp only [System.load] at one
  omega

/-! ## Flushing -/

/-- The code returns, and both queues are empty behind it.  Every synchronous dispatch that was
pending is interrupted and gets a permit, and what was queued is relinquished once. -/
def FlushesSafely (sys : System) (code : Nat → Code System Errno Unit) : Prop :=
  ∃ bound, ∀ fuel, bound ≤ fuel → ∃ after, code fuel sys = .ok () after ∧
    after.lists .itemQueue = SList.init ∧ after.lists .timerQueue = SList.init ∧
    ∀ items timers, (sys.lists .itemQueue).Holds sys.links items → (sys.lists .timerQueue).Holds sys.links timers →
      (∀ (call item signaler : Nat) (owned : Bool), item ∈ items →
        sys.calls[call]? = some (.waiting item signaler owned) →
        sys.dispatches item = some (.sync call signaler) →
          (after.signalers signaler).isInterrupted = true ∧
            (sys.signalers signaler).semaphore < (after.signalers signaler).semaphore) ∧
      ∀ node, after.trace.count (.relinquishes node) =
        sys.trace.count (.relinquishes node) + (items ++ timers).count node

section Flush
variable {strict : Prop} {sys after : System} {nodes : Nodes} {held : List Nat}

theorem list_eq_init {name : ListName} (inv : Inv strict sys nodes held) (empty : nodes name = []) :
    sys.lists name = SList.init := by
  have holds := inv.placed.chained.lists name
  rw [empty] at holds
  rcases list : sys.lists name with ⟨first, last⟩
  rw [list] at holds
  cases holds.first
  cases holds.last
  rfl

theorem Flushed.safe (inv : Inv strict sys nodes held) (flushed : Flushed sys (nodes .itemQueue) after)
    (noTimers : nodes .timerQueue = []) {items timers : List Nat}
    (itemQueue : (sys.lists .itemQueue).Holds sys.links items)
    (timerQueue : (sys.lists .timerQueue).Holds sys.links timers) :
    (∀ (call item signaler : Nat) (owned : Bool), item ∈ items →
      sys.calls[call]? = some (.waiting item signaler owned) →
      sys.dispatches item = some (.sync call signaler) →
        (after.signalers signaler).isInterrupted = true ∧
          (sys.signalers signaler).semaphore < (after.signalers signaler).semaphore) ∧
    ∀ node, after.trace.count (.relinquishes node) =
      sys.trace.count (.relinquishes node) + (items ++ timers).count node := by
  have sameItems := itemQueue.unique (inv.placed.chained.lists .itemQueue)
  have sameTimers := timerQueue.unique (inv.placed.chained.lists .timerQueue)
  subst sameItems sameTimers
  constructor
  · intro call item signaler owned member waits dispatched
    have points := inv.linked call item signaler owned waits member dispatched
    exact (flushed.interrupted item member signaler points).symm
  · intro node
    rw [flushed.relinquished, noTimers, List.append_nil]

theorem flush_safe (inv : Inv strict sys nodes held) (unlocked : sys.lock = none) (self : Thread)
    (noTimers : nodes .timerQueue = []) : FlushesSafely sys (flush self) := by
  refine ⟨(nodes .itemQueue).length + 1, ?_⟩
  intro fuel enough
  have ends := flush_ends inv unlocked self fuel
  cases result : flush self fuel sys with
  | ok value after =>
    rw [result] at ends
    obtain ⟨flushed, nodes', inv', items, timers⟩ := ends
    exact ⟨after, rfl, list_eq_init inv' items, list_eq_init inv' timers,
      fun _ _ itemQueue timerQueue => flushed.safe inv noTimers itemQueue timerQueue⟩
  | err error after =>
    rw [result] at ends
    exact ends.elim
  | fault =>
    rw [result] at ends
    rcases ends with short | some
    · omega
    · exact absurd noTimers some

theorem terminate_safe (inv : Inv strict sys nodes held) (unlocked : sys.lock = none) (self : Thread)
    (noTimers : nodes .timerQueue = []) : FlushesSafely sys (terminate self) := by
  refine ⟨(nodes .itemQueue).length + 1, ?_⟩
  intro fuel enough
  have ends := terminate_ends inv unlocked self fuel
  cases result : terminate self fuel sys with
  | ok value after =>
    rw [result] at ends
    rcases ends with ⟨stopped, rfl⟩ | ⟨middle, ⟨flushed, nodes', inv', items, timers⟩, rfl⟩
    · obtain ⟨items, timers⟩ := inv.placed.drained stopped
      refine ⟨after, rfl, list_eq_init inv items, list_eq_init inv timers, ?_⟩
      intro items' timers' itemQueue timerQueue
      refine Flushed.safe inv ?_ timers itemQueue timerQueue
      rw [items]
      exact .refl after
    · have emptied := list_eq_init inv' items
      have noneLeft := list_eq_init inv' timers
      exact ⟨_, rfl, emptied, noneLeft,
        fun _ _ itemQueue timerQueue => flushed.safe inv noTimers itemQueue timerQueue⟩
  | err error after =>
    rw [result] at ends
    exact ends.elim
  | fault =>
    rw [result] at ends
    rcases ends with short | some
    · omega
    · exact absurd noTimers some

theorem flush_fault (inv : Inv strict sys nodes held) (unlocked : sys.lock = none) (self : Thread)
    (timers : nodes .timerQueue ≠ []) (fuel : Nat) : flush self fuel sys = .fault := by
  unfold flush
  rw [Code.bind_of_ok (lockLock_apply unlocked self)]
  exact Code.bind_of_fault (flushLocked_fault (inv.withLock (some self)) timers fuel) _

theorem terminate_fault (inv : Inv strict sys nodes held) (unlocked : sys.lock = none) (self : Thread)
    (timers : nodes .timerQueue ≠ []) (fuel : Nat) : terminate self fuel sys = .fault := by
  have running : ¬ sys.state ≠ .running := fun stopped => timers (inv.placed.drained stopped).2
  unfold terminate
  rw [Code.bind_of_ok (lockLock_apply unlocked self), Code.bind_of_ok (Code.get_apply _), if_neg running,
    Code.bind_of_ok (Code.modify_apply _ _)]
  refine Code.bind_of_fault ?_ _
  rw [flushLocked_withState, flushLocked_fault (inv.withLock (some self)) timers fuel]
  rfl

theorem not_flushesSafely {code : Nat → Code System Errno Unit} (faults : ∀ fuel, code fuel sys = .fault) :
    ¬ FlushesSafely sys code := by
  rintro ⟨bound, safe⟩
  obtain ⟨after, returns, -⟩ := safe bound (le_refl _)
  rw [faults] at returns
  simp at returns

end Flush

theorem flushesSafely_iff {minConcurrency maxConcurrency : Nat} {start sys : System} {actions : List Action}
    (created : dispatchQueueCreate minConcurrency maxConcurrency = .ok start)
    (run : Runs ServedStep start actions sys) (self : Thread) :
    (FlushesSafely sys (flush self) ↔ (sys.lists .timerQueue).first = none) ∧
      (FlushesSafely sys (terminate self) ↔ (sys.lists .timerQueue).first = none) := by
  obtain ⟨unlocked, nodes, inv⟩ := served_guarded created run
  rw [(inv.placed.chained.lists .timerQueue).first, List.head?_eq_none_iff]
  by_cases noTimers : nodes .timerQueue = []
  · exact ⟨iff_of_true (flush_safe inv unlocked self noTimers) noTimers,
      iff_of_true (terminate_safe inv unlocked self noTimers) noTimers⟩
  · exact ⟨iff_of_false (not_flushesSafely (flush_fault inv unlocked self noTimers)) noTimers,
      iff_of_false (not_flushesSafely (terminate_fault inv unlocked self noTimers)) noTimers⟩

def twoItems : List Action :=
  [.dispatchSync 7 (some (1, zeroItem)) (some 2) true, .dispatchAsync 8 (some (3, zeroItem)) true]

theorem twoItems_flushesSafely :
    ∃ sys, Runs ServedStep (newQueue 1 1) twoItems.reverse sys ∧ FlushesSafely sys (flush (.client 1)) := by
  have run := available_runs (newQueue 1 1) twoItems (by decide)
  have created : dispatchQueueCreate 1 1 = .ok (newQueue 1 1) := rfl
  have noTimers : ((twoItems.foldl (follow 9) (newQueue 1 1)).lists .timerQueue).first = none := by
    decide
  exact ⟨_, run, (flushesSafely_iff created run (.client 1)).1.mpr noTimers⟩

/-- A queued timer makes every flush follow the null pointer. -/
theorem queuedTimer_flush_faults :
    ∃ start actions sys, dispatchQueueCreate 1 1 = .ok start ∧ Runs Step start actions sys ∧
      (∀ fuel, flush (.client 0) fuel sys = .fault) ∧ ∀ fuel, terminate (.client 0) fuel sys = .fault := by
  have run := available_runs (newQueue 1 1) [.dispatchAsyncAfter 100 7 (some (1, zeroItem)) true]
    (by decide)
  have created : dispatchQueueCreate 1 1 = .ok (newQueue 1 1) := rfl
  refine ⟨newQueue 1 1, _, _, created, run.mono fun _ _ _ step => step.1, ?_⟩
  have queued : (([.dispatchAsyncAfter 100 7 (some (1, zeroItem)) true].foldl (follow 9)
      (newQueue 1 1)).lists .timerQueue).first = some 1 := by
    decide
  obtain ⟨unlocked, nodes, inv⟩ := served_guarded created run
  have timers : nodes .timerQueue ≠ [] := by
    intro empty
    rw [(inv.placed.chained.lists .timerQueue).first, empty] at queued
    simp at queued
  exact ⟨flush_fault inv unlocked (.client 0) timers, terminate_fault inv unlocked (.client 0) timers⟩

/-! ## Completion signals -/

/-- Every signal is given to the signaler of the call that dispatched the item, a call gets at
most one, and waits for it no longer than its item is queued or executed; a call that returned
without an error has run its closure. -/
structure System.SignalsReach (sys : System) : Prop where
  own : ∀ item signaler dispatch, .signals item signaler dispatch ∈ sys.trace →
    ∃ call, dispatch = some (.sync call signaler)
  once : (sys.trace.filterMap Event.signaledCall).Nodup
  waits : ∀ (call item signaler : Nat) (owned : Bool), sys.calls[call]? = some (.waiting item signaler owned) →
    (sys.items item).completion = some signaler ∧
      ((∃ queued, (sys.lists .itemQueue).Holds sys.links queued ∧ item ∈ queued) ∨ .executing item ∈ sys.lanes) ∨
    (sys.signalers signaler).semaphore = 1
  returned : ∀ call, sys.calls[call]? = some (.returned none) → call ∈ sys.ran

theorem signaledCall_filter (trace : List Event) :
    (trace.filter Event.isSignal).filterMap Event.signaledCall = trace.filterMap Event.signaledCall := by
  rw [List.filterMap_filter]
  refine List.filterMap_congr ?_
  intro event _
  cases event <;> rfl

theorem strict_runs_signals {minConcurrency maxConcurrency : Nat} {start sys : System} {actions : List Action}
    (created : dispatchQueueCreate minConcurrency maxConcurrency = .ok start)
    (run : Runs StrictStep start actions sys) : sys.SignalsReach := by
  obtain ⟨-, nodes, inv⟩ := strict_guarded created run
  have signals := inv.signals trivial
  refine ⟨?_, ?_, fun call item signaler owned found => ?_, signals.returned⟩
  · intro item signaler dispatch member
    exact signals.own item signaler dispatch (List.mem_filter.mpr ⟨member, rfl⟩)
  · rw [← signaledCall_filter]
    exact signals.once
  · rcases signals.waiting call item signaler owned found with ⟨queued | timer | executing, points⟩ | ⟨given, -⟩
    · exact .inl ⟨points, .inl ⟨_, inv.placed.chained.lists .itemQueue, queued⟩⟩
    · have none := (inv.reset trivial).clean .timerQueue (by simp) (by simp) item timer
      exact absurd (none.symm.trans points) (by simp)
    · exact .inl ⟨points, .inr executing⟩
    · exact .inr given

def syncCall : List Action :=
  [.dispatchSync 7 (some (1, zeroItem)) (some 2) true, .start 0 0, .execute 0, .acquireSemaphore 0, .resume 0]

theorem syncCall_signals :
    ∃ sys, Runs StrictStep (newQueue 1 1) syncCall.reverse sys ∧ sys.calls = [.returned none] ∧
      sys.SignalsReach := by
  have run : Runs StrictStep (newQueue 1 1) (syncCall.reverse ++ []) (syncCall.foldl (follow 9) (newQueue 1 1)) := by
    refine replays_runs 9 (fun sys action => match action with
      | .dispatchSync _ _ _ available => available && decide (sys.state = .running)
      | .start _ _ => true
      | .execute _ => true
      | .acquireSemaphore _ => true
      | .resume _ => true
      | _ => false) ?_ .nil (by decide)
    intro sys action after allows step
    cases action with
    | dispatchSync closure memory address available =>
      simp only [Bool.and_eq_true, decide_eq_true_eq] at allows
      exact ⟨⟨step, fun _ => allows.1⟩, allows.2⟩
    | start lane now => exact ⟨⟨step, trivial⟩, trivial⟩
    | execute lane => exact ⟨⟨step, trivial⟩, trivial⟩
    | acquireSemaphore call => exact ⟨⟨step, trivial⟩, trivial⟩
    | resume call => exact ⟨⟨step, trivial⟩, trivial⟩
    | _ => simp at allows
  have created : dispatchQueueCreate 1 1 = .ok (newQueue 1 1) := rfl
  exact ⟨_, run, by decide, strict_runs_signals created run⟩

def stalePointer : List Action :=
  [.dispatchAsync 7 (some (1, { zeroItem with completion := some 5 })) true,
    .dispatchSync 8 (some (2, zeroItem)) (some 5) true, .start 0 0, .execute 0, .acquireSemaphore 0, .resume 0]

/-- The call returns without an error, and its closure has not run. -/
theorem stalePointer_wakes :
    ∃ start actions sys, dispatchQueueCreate 1 1 = .ok start ∧ Runs Step start actions sys ∧
      sys.calls[0]? = some (.returned none) ∧ 0 ∉ sys.ran ∧ ¬ sys.SignalsReach := by
  have run : Runs Step (newQueue 1 1) (stalePointer.reverse ++ []) (stalePointer.foldl (follow 9) (newQueue 1 1)) :=
    replays_runs 9 (fun _ _ => true) (fun _ _ _ _ step => step) .nil (by decide)
  have returned : (stalePointer.foldl (follow 9) (newQueue 1 1)).calls[0]? = some (.returned none) := by
    decide
  have notRun : 0 ∉ (stalePointer.foldl (follow 9) (newQueue 1 1)).ran := by decide
  exact ⟨newQueue 1 1, _, _, rfl, run, returned, notRun, fun reach => notRun (reach.returned 0 returned)⟩

end Apollo.Dispatchqueue
