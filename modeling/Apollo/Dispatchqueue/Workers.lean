import Apollo.Dispatchqueue.Transitions

/-!
# Removing, flushing and executing

The functions that take items out of the queues: the removal of one item, the
two loops of a flush, and the rounds of the workers.
-/

set_option autoImplicit false

namespace Apollo.Dispatchqueue

open Klib
open Lib

section Functions
variable {strict stuck : Prop} {sys : System} {nodes : Nodes} {held : List Nat} {self : Thread} {item : Nat}

/-! ## Removing an item -/

/-- A node goes out of one of the two queues into the hand. -/
theorem System.Placed.remove (placed : sys.Placed nodes held) {name : ListName} {front back : List Nat}
    (queue : ∀ cache, name ≠ .cache cache) (split : nodes name = front ++ item :: back) :
    ∃ result, (sys.lists name).remove sys.links front.getLast? item = some result ∧
      (sys.withList name result).Placed (Function.update nodes name (front ++ back)) (item :: held) := by
  obtain ⟨result, removes, chained, -⟩ := placed.chained.remove split
  refine ⟨result, removes, placed.moveQueued queue chained ?_ ?_ ?_⟩
  · rw [split]
    simp only [List.count_append, List.count_cons]
    omega
  · intro other member
    rw [split]
    simp only [List.mem_append, List.mem_cons] at member ⊢
    tauto
  · intro stopped
    have drained := placed.drained stopped
    rcases name with _ | _ | cache
    · rw [drained.1] at split
      simp at split
    · rw [drained.2] at split
      simp at split
    · exact absurd rfl (queue cache)

section RemoveInstances
variable {name : ListName} {before after : System → Nat → System}

theorem removeInstances_skip {current fuel : Nat} {previous : Option Nat} (different : current ≠ item) :
    removeInstances name before after item (fuel + 1) (some current) previous sys =
      removeInstances name before after item fuel (sys.links current) (some current) sys :=
  if_neg different

theorem removeInstances_hit {fuel : Nat} {previous : Option Nat} {result : Links Nat × SList Nat}
    (removes : ((before sys item).lists name).remove (before sys item).links previous item = some result) :
    removeInstances name before after item (fuel + 1) (some item) previous sys =
      removeInstances name before after item fuel (sys.links item) previous
        (after ((before sys item).withList name result) item) := by
  refine (if_pos rfl).trans ?_
  simp only [removes]

theorem removeInstances_absent {list : SList Nat} {all front back : List Nat} (holds : list.Holds sys.links all)
    (split : all = front ++ back) (absent : item ∉ back) (fuel : Nat) :
    (removeInstances name before after item fuel back.head? front.getLast? sys).Ends (fuel ≤ back.length)
      (fun _ final => final = sys) fun _ _ => False := by
  induction back generalizing front fuel with
  | nil =>
    cases fuel with
    | zero => exact Nat.zero_le _
    | succ fuel => rfl
  | cons node back ih =>
    cases fuel with
    | zero => exact Nat.zero_le _
    | succ fuel =>
      have different : node ≠ item := fun same => absent (by rw [same]; exact List.mem_cons_self)
      have ahead := ih (split.trans (List.append_cons front node back))
        (fun member => absent (List.mem_cons_of_mem _ member)) fuel
      rw [List.getLast?_append, List.getLast?_singleton, Option.some_or] at ahead
      subst split
      rw [List.head?_cons, removeInstances_skip different, holds.next, List.length_cons,
        Nat.add_le_add_iff_right]
      exact ahead

theorem removeInstances_ends {goal : System → Prop} (inv : Inv strict sys nodes held)
    {front back : List Nat} (split : nodes name = front ++ back)
    (absent : item ∉ front) (missing : goal sys)
    (found : ∀ front back, nodes name = front ++ item :: back →
      ∃ result, ((before sys item).lists name).remove (before sys item).links front.getLast? item = some result ∧
        goal (after ((before sys item).withList name result) item) ∧
        ((after ((before sys item).withList name result) item).lists name).Holds
          (after ((before sys item).withList name result) item).links (front ++ back))
    (fuel : Nat) :
    (removeInstances name before after item fuel back.head? front.getLast? sys).Ends (fuel ≤ back.length)
      (fun _ final => goal final) fun _ _ => False := by
  have holds := inv.placed.chained.lists name
  induction back generalizing front fuel with
  | nil =>
    cases fuel with
    | zero => exact Nat.zero_le _
    | succ fuel => exact missing
  | cons node back ih =>
    cases fuel with
    | zero => exact Nat.zero_le _
    | succ fuel =>
      have next : sys.links node = back.head? := by
        rw [split] at holds
        exact holds.next
      by_cases same : node = item
      · subst same
        obtain ⟨result, removes, reached, holds'⟩ := found front back split
        have rest : node ∉ back := by
          have nodup := holds.nodup
          rw [split] at nodup
          exact (List.nodup_cons.mp nodup.of_append_right).1
        rw [List.head?_cons, removeInstances_hit removes, next, List.length_cons, Nat.add_le_add_iff_right]
        refine Code.ends_mono (removeInstances_absent holds' rfl rest fuel) ?_ (by simp)
        rintro - final rfl
        exact reached
      · have ahead := ih (split.trans (List.append_cons front node back))
          (by simp [absent, Ne.symm same]) fuel
        rw [List.getLast?_append, List.getLast?_singleton, Option.some_or] at ahead
        rw [List.head?_cons, removeInstances_skip same, next, List.length_cons, Nat.add_le_add_iff_right]
        exact ahead

end RemoveInstances

theorem signalCompletion_withList (sys : System) (item : Nat) (isInterrupted : Bool) (name : ListName)
    (result : Links Nat × SList Nat) (count : Int) :
    { (sys.signalCompletion item isInterrupted).withList name result with itemsQueuedCount := count } =
      System.signalCompletion { sys.withList name result with itemsQueuedCount := count } item isInterrupted := by
  cases points : (sys.items item).completion with
  | none => simp only [System.signalCompletion, System.withList, points]
  | some signaler =>
    simp only [System.signalCompletion, System.withList, points]
    rfl

theorem signalCompletion_lists (sys : System) (item : Nat) (isInterrupted : Bool) :
    (sys.signalCompletion item isInterrupted).lists = sys.lists ∧
      (sys.signalCompletion item isInterrupted).links = sys.links := by
  cases points : (sys.items item).completion with
  | none =>
    rw [signalCompletion_none _ points]
    exact ⟨rfl, rfl⟩
  | some signaler =>
    rw [signalCompletion_some _ points]
    exact ⟨rfl, rfl⟩

theorem signalCompletion_control (sys : System) (item : Nat) (isInterrupted : Bool) :
    (sys.signalCompletion item isInterrupted).control = sys.control := by
  cases points : (sys.items item).completion with
  | none => rw [signalCompletion_none _ points]
  | some signaler =>
    rw [signalCompletion_some _ points]
    rfl

theorem removeWorkItemLocked_ends (inv : Inv strict sys nodes held) (item fuel : Nat) :
    (removeWorkItemLocked fuel item sys).Ends (fuel ≤ (nodes .itemQueue).length)
      (fun _ after => Guarded strict sys.lock held after) fun _ _ => False := by
  unfold removeWorkItemLocked
  rw [(inv.placed.chained.lists .itemQueue).first]
  refine removeInstances_ends inv (List.nil_append _).symm List.not_mem_nil ⟨rfl, nodes, inv⟩ ?_ fuel
  intro front back split
  obtain ⟨result, removes, placed⟩ := inv.placed.remove (by simp) split
  obtain ⟨lists, links⟩ := signalCompletion_lists sys item true
  refine ⟨result, by rw [lists, links]; exact removes, ?_⟩
  have balance := inv.balance
  rw [split] at balance
  have fewer : sys.itemsQueuedCount - 1 + sys.trace.count .findsNothing =
      (front ++ back).length + sys.trace.countP Event.isFlush := by
    simp only [List.length_append, List.length_cons] at balance ⊢
    omega
  have retired := inv.retire split placed fewer rfl
  have same := signalCompletion_withList sys item true .itemQueue result (sys.itemsQueuedCount - 1)
  have count : ((sys.signalCompletion item true).withList .itemQueue result).itemsQueuedCount =
      sys.itemsQueuedCount := (congrArg (·.2.2.2.2.1) (signalCompletion_control sys item true))
  simp only [count, same]
  obtain ⟨nodes', cases, inv'⟩ := retired.relinquishWorkItem
  have kept : nodes' .itemQueue = front ++ back := by
    rcases cases with rfl | rfl <;> simp [Nodes.push]
  refine ⟨⟨?_, nodes', inv'⟩, ?_⟩
  · refine (control_lock (relinquishWorkItem_control _ _)).trans ?_
    exact (control_lock (signalCompletion_control _ item true)).trans rfl
  · rw [← kept]
    exact inv'.placed.chained.lists .itemQueue

theorem removeTimerLocked_ends (inv : Inv strict sys nodes held) (timer fuel : Nat) :
    (removeTimerLocked fuel timer sys).Ends (fuel ≤ (nodes .timerQueue).length)
      (fun _ after => Guarded strict sys.lock held after) fun _ _ => False := by
  unfold removeTimerLocked
  rw [(inv.placed.chained.lists .timerQueue).first]
  refine removeInstances_ends inv (List.nil_append _).symm List.not_mem_nil ⟨rfl, nodes, inv⟩ ?_ fuel
  intro front back split
  obtain ⟨result, removes, placed⟩ := inv.placed.remove (by simp) split
  refine ⟨result, removes, ?_⟩
  have removed := inv.moveTimers placed ?_
  · obtain ⟨nodes', cases, inv'⟩ := removed.relinquishTimer
    have kept : nodes' .timerQueue = front ++ back := by
      rcases cases with rfl | rfl <;> simp [Nodes.push]
    refine ⟨⟨?_, nodes', inv'⟩, ?_⟩
    · exact control_lock (relinquishTimer_control _ _)
    · rw [← kept]
      exact inv'.placed.chained.lists .timerQueue
  · intro strictly other member
    refine (inv.reset strictly).clean .timerQueue (by simp) (by simp) other ?_
    rw [split]
    simp only [List.mem_append, List.mem_cons] at member ⊢
    tauto

theorem removeWorkItem_ends (inv : Inv strict sys nodes held) (unlocked : sys.lock = none) (self : Thread)
    (fuel item : Nat) :
    (removeWorkItem self fuel item sys).Ends (fuel ≤ (nodes .itemQueue).length)
      (fun _ => Guarded strict none held) fun _ => Guarded strict none held := by
  unfold removeWorkItem
  rw [Code.bind_of_ok (lockLock_apply unlocked self)]
  refine Code.ends_bind (Code.ends_mono (removeWorkItemLocked_ends (inv.withLock (some self)) item fuel)
    (fun _ _ ends => ends) (by simp)) fun _ _ => lockUnlock_ends

theorem removeTimer_ends (inv : Inv strict sys nodes held) (unlocked : sys.lock = none) (self : Thread)
    (fuel timer : Nat) :
    (removeTimer self fuel timer sys).Ends (fuel ≤ (nodes .timerQueue).length)
      (fun _ => Guarded strict none held) fun _ => Guarded strict none held := by
  unfold removeTimer
  rw [Code.bind_of_ok (lockLock_apply unlocked self)]
  refine Code.ends_bind (Code.ends_mono (removeTimerLocked_ends (inv.withLock (some self)) timer fuel)
    (fun _ _ ends => ends) (by simp)) fun _ _ => lockUnlock_ends

/-! ## Flushing -/

/-- What the removal of items by a flush leaves behind: every item is relinquished once, and the
signalers that they point to are interrupted and have a permit more. -/
structure Flushed (sys : System) (removed : List Nat) (after : System) : Prop where
  control : after.control = sys.control
  items : ∀ other, other ∉ removed → after.items other = sys.items other
  relinquished : ∀ item, after.trace.count (.relinquishes item) =
    sys.trace.count (.relinquishes item) + removed.count item
  signalers : ∀ signaler, (sys.signalers signaler).semaphore ≤ (after.signalers signaler).semaphore ∧
    ((sys.signalers signaler).isInterrupted = true → (after.signalers signaler).isInterrupted = true)
  interrupted : ∀ item ∈ removed, ∀ signaler, (sys.items item).completion = some signaler →
    (sys.signalers signaler).semaphore < (after.signalers signaler).semaphore ∧
      (after.signalers signaler).isInterrupted = true

theorem Flushed.refl (sys : System) : Flushed sys [] sys :=
  ⟨rfl, fun _ _ => rfl, fun _ => rfl, fun _ => ⟨le_refl _, id⟩, by simp⟩

theorem Flushed.trans {middle after : System} {rest : List Nat} (first : Flushed sys [item] middle)
    (others : Flushed middle rest after) (fresh : item ∉ rest) : Flushed sys (item :: rest) after := by
  refine ⟨others.control.trans first.control, ?_, ?_, ?_, ?_⟩
  · intro other outside
    rw [List.mem_cons, not_or] at outside
    rw [others.items other outside.2, first.items other (by simpa using outside.1)]
  · intro other
    rw [others.relinquished, first.relinquished, List.count_cons, List.count_cons, List.count_nil]
    omega
  · intro signaler
    have before := first.signalers signaler
    have behind := others.signalers signaler
    exact ⟨before.1.trans behind.1, fun interrupted => behind.2 (before.2 interrupted)⟩
  · intro other member signaler points
    rcases List.mem_cons.mp member with rfl | behind
    · obtain ⟨permit, interrupted⟩ := first.interrupted other List.mem_cons_self signaler points
      have kept := others.signalers signaler
      exact ⟨permit.trans_le kept.1, kept.2 interrupted⟩
    · have different : other ≠ item := by
        rintro rfl
        exact fresh behind
      have points' : (middle.items other).completion = some signaler := by
        rw [first.items other (by simpa using different)]
        exact points
      obtain ⟨permit, interrupted⟩ := others.interrupted other behind signaler points'
      exact ⟨(first.signalers signaler).1.trans_lt permit, interrupted⟩

theorem relinquishWorkItem_effect (sys : System) (item : Nat) :
    (sys.relinquishWorkItem item).trace = .relinquishes item :: sys.trace ∧
      (sys.relinquishWorkItem item).signalers = sys.signalers ∧
      ∀ other ≠ item, (sys.relinquishWorkItem item).items other = sys.items other := by
  unfold System.relinquishWorkItem System.relinquish
  simp only
  split_ifs
  · exact ⟨rfl, rfl, fun _ _ => rfl⟩
  · exact ⟨rfl, rfl, fun _ different => Function.update_of_ne different _ _⟩
  · exact ⟨rfl, rfl, fun _ different => Function.update_of_ne different _ _⟩

/-- The round of the first loop of a flush that removes `item`. -/
def System.flushItem (sys : System) (item : Nat) : System :=
  ((sys.record (.flushes item)).signalCompletion item true).relinquishWorkItem item

theorem flushItems_none {after : System} (removes : sys.removeFirst .itemQueue = (none, after)) (fuel : Nat) :
    flushItems (fuel + 1) sys = .ok () after := by
  simp only [flushItems, removes]

theorem flushItems_some {after : System} (removes : sys.removeFirst .itemQueue = (some item, after))
    (fuel : Nat) : flushItems (fuel + 1) sys = flushItems fuel (after.flushItem item) := by
  simp only [flushItems, removes]
  rfl

theorem signal_flushed {base : System} (control : base.control = sys.control) (items : base.items = sys.items)
    (signalers : base.signalers = sys.signalers)
    (trace : ∀ item, base.trace.count (.relinquishes item) = sys.trace.count (.relinquishes item)) :
    Flushed sys [item] ((base.signalCompletion item true).relinquishWorkItem item) := by
  obtain ⟨trace', signalers', items'⟩ := relinquishWorkItem_effect (base.signalCompletion item true) item
  have control' := (relinquishWorkItem_control (base.signalCompletion item true) item).trans
    (signalCompletion_control base item true)
  refine ⟨control'.trans control, ?_, ?_, ?_, ?_⟩
  · intro other outside
    have different : other ≠ item := by simpa using outside
    rw [items' other different, ← items]
    cases points : (base.items item).completion with
    | none => rw [signalCompletion_none _ points]
    | some signaler =>
      rw [signalCompletion_some _ points]
      exact Function.update_of_ne different _ _
  · intro other
    rw [trace', ← trace, List.count_cons, List.count_singleton]
    cases points : (base.items item).completion with
    | none =>
      rw [signalCompletion_none _ points]
      simp
    | some signaler =>
      rw [signalCompletion_some _ points]
      simp
  · intro signaler
    rw [signalers', ← signalers]
    cases points : (base.items item).completion with
    | none =>
      rw [signalCompletion_none _ points]
      exact ⟨le_refl _, id⟩
    | some signaler' =>
      rw [signalCompletion_some _ points]
      by_cases same : signaler = signaler'
      · subst same
        simp
      · simp [Function.update_of_ne same]
  · intro other member signaler points
    rw [List.mem_singleton] at member
    subst member
    rw [← items] at points
    rw [signalers', ← signalers, signalCompletion_some _ points]
    simp

theorem flushItem_ends (inv : Inv strict sys nodes held) {rest : List Nat}
    (split : nodes .itemQueue = item :: rest) :
    ∃ result nodes', sys.removeFirst .itemQueue = (some item, sys.withList .itemQueue result) ∧
      Inv strict ((sys.withList .itemQueue result).flushItem item) nodes' held ∧
      nodes' .itemQueue = rest ∧ nodes' .timerQueue = nodes .timerQueue ∧
      Flushed sys [item] ((sys.withList .itemQueue result).flushItem item) := by
  obtain ⟨result, removes, placed⟩ := inv.placed.dequeue (by simp) split
  have balance := inv.balance
  rw [split] at balance
  have balance' : sys.itemsQueuedCount + (Event.flushes item :: sys.trace).count .findsNothing =
      ([] ++ rest).length + (Event.flushes item :: sys.trace).countP Event.isFlush := by
    simp only [List.count_cons, List.countP_cons, List.length_cons, List.nil_append] at balance ⊢
    simp only [Event.isFlush, if_true, beq_iff_eq, reduceCtorEq, if_false]
    omega
  have given : (Event.flushes item :: sys.trace).filter Event.isSignal = sys.given := by
    simp [System.given, Event.isSignal]
  obtain ⟨nodes', cases, inv'⟩ := (inv.retire split placed balance' given).relinquishWorkItem
  refine ⟨result, nodes', removes, inv', ?_, ?_, ?_⟩
  · rcases cases with rfl | rfl <;> simp [Nodes.push]
  · rcases cases with rfl | rfl <;> simp [Nodes.push]
  · exact signal_flushed rfl rfl rfl fun _ => by simp [System.record, System.withList]

theorem flushItems_ends (inv : Inv strict sys nodes held) (fuel : Nat) :
    (flushItems fuel sys).Ends (fuel ≤ (nodes .itemQueue).length)
      (fun _ after => Flushed sys (nodes .itemQueue) after ∧ ∃ nodes', Inv strict after nodes' held ∧
        nodes' .itemQueue = [] ∧ nodes' .timerQueue = nodes .timerQueue)
      fun _ _ => False := by
  -- the induction is on the items that are still in the queue
  generalize queue : nodes .itemQueue = items
  induction items generalizing sys nodes fuel with
  | nil =>
    cases fuel with
    | zero => exact Nat.zero_le _
    | succ fuel =>
      rw [flushItems_none (inv.placed.chained.removeFirst_nil queue)]
      exact ⟨.refl sys, nodes, inv, queue, rfl⟩
  | cons item rest ih =>
    cases fuel with
    | zero => exact Nat.zero_le _
    | succ fuel =>
      obtain ⟨result, nodes', removes, inv', queue', timers, flushed⟩ := flushItem_ends inv queue
      have fresh : item ∉ rest := by
        have nodup := (inv.placed.chained.lists .itemQueue).nodup
        rw [queue] at nodup
        exact (List.nodup_cons.mp nodup).1
      rw [flushItems_some removes, List.length_cons, Nat.add_le_add_iff_right]
      refine Code.ends_mono (ih inv' fuel queue') ?_ (by simp)
      rintro - after ⟨flushed', nodes'', inv'', items, timers'⟩
      exact ⟨flushed.trans flushed' fresh, nodes'', inv'', items, timers'.trans timers⟩

theorem flushTimers_apply (inv : Inv strict sys nodes held) (fuel : Nat) :
    flushTimers (fuel + 1) sys = if nodes .timerQueue = [] then .ok () sys else .fault := by
  cases queue : nodes .timerQueue with
  | nil =>
    simp only [flushTimers, inv.placed.chained.removeFirst_nil queue, if_true]
  | cons timer rest =>
    obtain ⟨result, removes, -⟩ := inv.placed.dequeue (by simp) queue
    simp only [flushTimers, removes, reduceCtorEq, if_false]

structure Drained (strict : Prop) (sys : System) (nodes : Nodes) (held : List Nat) (after : System) : Prop where
  flushed : Flushed sys (nodes .itemQueue) after
  inv : ∃ nodes', Inv strict after nodes' held ∧ nodes' .itemQueue = [] ∧ nodes' .timerQueue = []

theorem flushLocked_ends (inv : Inv strict sys nodes held) (fuel : Nat) :
    (flushLocked fuel sys).Ends (fuel ≤ (nodes .itemQueue).length ∨ nodes .timerQueue ≠ [])
      (fun _ => Drained strict sys nodes held) fun _ _ => False := by
  refine Code.ends_bind (Code.ends_weaken (flushItems_ends inv fuel) .inl) ?_
  rintro - after ⟨flushed, nodes', inv', items, timers⟩
  cases fuel with
  | zero => exact .inl (Nat.zero_le _)
  | succ fuel =>
    rw [flushTimers_apply inv' fuel, timers]
    split_ifs with empty
    · exact ⟨flushed, nodes', inv', items, timers.trans empty⟩
    · exact .inr empty

/-- The second loop follows the null pointer as soon as there is a timer. -/
theorem flushLocked_fault (inv : Inv strict sys nodes held) (timers : nodes .timerQueue ≠ []) (fuel : Nat) :
    flushLocked fuel sys = .fault := by
  have ends := flushItems_ends inv fuel
  unfold flushLocked
  cases result : flushItems fuel sys with
  | fault => exact Code.bind_of_fault result _
  | err error after =>
    rw [result] at ends
    exact ends.elim
  | ok value after =>
    rw [result] at ends
    obtain ⟨-, nodes', inv', -, same⟩ := ends
    rw [Code.bind_of_ok result]
    cases fuel with
    | zero => rfl
    | succ fuel =>
      rw [flushTimers_apply inv' fuel, same, if_neg timers]

/-! ### The state of the queue and a flush do not meet -/

theorem signalCompletion_withState (sys : System) (item : Nat) (isInterrupted : Bool) (state : QueueState) :
    System.signalCompletion { sys with state := state } item isInterrupted =
      { sys.signalCompletion item isInterrupted with state := state } := by
  cases points : (sys.items item).completion with
  | none => simp only [System.signalCompletion, points]
  | some signaler =>
    simp only [System.signalCompletion, points]
    rfl

theorem relinquishWorkItem_withState (sys : System) (item : Nat) (state : QueueState) :
    System.relinquishWorkItem { sys with state := state } item =
      { sys.relinquishWorkItem item with state := state } := by
  unfold System.relinquishWorkItem
  cases owned : (sys.items item).isOwnedByQueue with
  | false => simp [System.record, owned]
  | true =>
    unfold System.relinquish
    simp only [System.record, owned]
    by_cases room : sys.cacheCount .items < maxCacheCount
    · simp only [room, if_true]
      rfl
    · simp only [room, if_false]
      rfl

theorem flushItem_withState (sys : System) (item : Nat) (state : QueueState) :
    System.flushItem { sys with state := state } item = { sys.flushItem item with state := state } := by
  unfold System.flushItem
  rw [← relinquishWorkItem_withState, ← signalCompletion_withState]
  rfl

theorem flushItems_withState (fuel : Nat) (sys : System) (state : QueueState) :
    flushItems fuel { sys with state := state } = (flushItems fuel sys).mapState ({ · with state := state }) := by
  induction fuel generalizing sys with
  | zero => rfl
  | succ fuel ih =>
    rcases removes : sys.removeFirst .itemQueue with ⟨first, after⟩
    have removes' : System.removeFirst { sys with state := state } .itemQueue =
        (first, { after with state := state }) := by
      rw [show first = (sys.removeFirst .itemQueue).1 by rw [removes],
        show after = (sys.removeFirst .itemQueue).2 by rw [removes]]
      rfl
    cases first with
    | none =>
      rw [flushItems_none removes, flushItems_none removes']
      rfl
    | some item =>
      rw [flushItems_some removes, flushItems_some removes', flushItem_withState]
      exact ih (after.flushItem item)

theorem flushLocked_withState (fuel : Nat) (sys : System) (state : QueueState) :
    flushLocked fuel { sys with state := state } = (flushLocked fuel sys).mapState ({ · with state := state }) := by
  unfold flushLocked
  rw [Code.bind_apply, Code.bind_apply, flushItems_withState]
  cases flushItems fuel sys with
  | fault => rfl
  | err error after => rfl
  | ok value after =>
    cases fuel with
    | zero => rfl
    | succ fuel =>
      simp only [Outcome.mapState, flushTimers]
      rcases removes : after.removeFirst .timerQueue with ⟨first, rest⟩
      have removes' : System.removeFirst { after with state := state } .timerQueue =
          (first, { rest with state := state }) := by
        rw [show first = (after.removeFirst .timerQueue).1 by rw [removes],
          show rest = (after.removeFirst .timerQueue).2 by rw [removes]]
        rfl
      rw [removes']
      cases first <;> rfl

/-! ### The two API functions -/

theorem Drained.withLock {after : System} (lock lock' : Option Thread)
    (drained : Drained strict { sys with lock := lock } nodes held after) (unlocked : sys.lock = lock') :
    Drained strict sys nodes held { after with lock := lock' } := by
  obtain ⟨⟨control, items, relinquished, signalers, interrupted⟩, nodes', inv, empty, none⟩ := drained
  refine ⟨⟨?_, items, relinquished, signalers, interrupted⟩, nodes', inv.withLock lock', empty, none⟩
  simp only [System.control, Prod.mk.injEq] at control ⊢
  tauto

theorem flush_ends (inv : Inv strict sys nodes held) (unlocked : sys.lock = none) (self : Thread) (fuel : Nat) :
    (flush self fuel sys).Ends (fuel ≤ (nodes .itemQueue).length ∨ nodes .timerQueue ≠ [])
      (fun _ => Drained strict sys nodes held) fun _ _ => False := by
  unfold flush
  rw [Code.bind_of_ok (lockLock_apply unlocked self)]
  refine Code.ends_bind (flushLocked_ends (inv.withLock (some self)) fuel) ?_
  intro _ after drained
  have mine : after.lock = some self := control_lock drained.flushed.control
  rw [lockUnlock_apply mine]
  exact drained.withLock (some self) none unlocked

/-- What `DispatchQueue_Terminate` leaves behind. -/
def Terminated (strict : Prop) (sys : System) (nodes : Nodes) (held : List Nat) (after : System) : Prop :=
  (sys.state ≠ .running ∧ after = sys) ∨
    ∃ middle, Drained strict sys nodes held middle ∧ after = { middle with state := .terminating }

theorem terminate_ends (inv : Inv strict sys nodes held) (unlocked : sys.lock = none) (self : Thread)
    (fuel : Nat) :
    (terminate self fuel sys).Ends (fuel ≤ (nodes .itemQueue).length ∨ nodes .timerQueue ≠ [])
      (fun _ => Terminated strict sys nodes held) fun _ _ => False := by
  unfold terminate
  rw [Code.bind_of_ok (lockLock_apply unlocked self), Code.bind_of_ok (Code.get_apply _)]
  split_ifs with stopped
  · rw [lockUnlock_apply rfl]
    refine .inl ⟨stopped, ?_⟩
    rw [← unlocked]
  · rw [Code.bind_of_ok (Code.modify_apply _ _), Code.bind_apply, flushLocked_withState]
    have ends := flushLocked_ends (inv.withLock (some self)) fuel
    cases result : flushLocked fuel { sys with lock := some self } with
    | fault =>
      rw [result] at ends
      exact ends
    | err error after =>
      rw [result] at ends
      exact ends.elim
    | ok value after =>
      rw [result] at ends
      have mine : after.lock = some self := control_lock ends.flushed.control
      change (lockUnlock self _).Ends _ _ _
      rw [lockUnlock_apply]
      · exact .inr ⟨_, ends.withLock (some self) none unlocked, rfl⟩
      · exact mine

theorem Inv.withState (inv : Inv strict sys nodes held) (items : nodes .itemQueue = [])
    (timers : nodes .timerQueue = []) (state : QueueState) :
    Inv strict { sys with state := state } nodes held := by
  have placed : System.Placed { sys with state := state } nodes held :=
    ⟨inv.placed.chained.congr rfl rfl rfl fun _ => rfl, inv.placed.counted, inv.placed.bounded,
      fun item member => by
        have foreign := inv.placed.foreign item member
        exact ⟨foreign.allocated, foreign.notOwned, foreign.closure, foreign.uncached, foreign.noSignaler,
          foreign.marked⟩,
      inv.placed.ready, inv.placed.staffed_of rfl rfl rfl rfl, fun _ => ⟨items, timers⟩⟩
  exact inv.frame placed rfl rfl rfl rfl rfl rfl rfl rfl

theorem Drained.guarded {after : System} (drained : Drained strict sys nodes held after)
    (unlocked : sys.lock = none) : Guarded strict none held after := by
  obtain ⟨flushed, nodes', inv, -, -⟩ := drained
  exact ⟨(control_lock flushed.control).trans unlocked, nodes', inv⟩

theorem Terminated.guarded {after : System} (terminated : Terminated strict sys nodes held after)
    (inv : Inv strict sys nodes held) (unlocked : sys.lock = none) : Guarded strict none held after := by
  rcases terminated with ⟨-, rfl⟩ | ⟨middle, drained, rfl⟩
  · exact ⟨unlocked, nodes, inv⟩
  · obtain ⟨flushed, nodes', inv', items, timers⟩ := drained
    exact ⟨(control_lock flushed.control).trans unlocked, nodes', inv'.withState items timers _⟩

/-! ## Synchronous calls behind their wait -/

theorem leave_ends (inv : Inv strict sys nodes held) {call signaler : Nat} {old new : Call}
    (found : sys.calls[call]? = some old) (has : old.signaler? = some signaler)
    (behind : ∀ item signaler owned, old ≠ .waiting item signaler owned) (idle : new.signaler? = none)
    (done : strict → new = .returned none → call ∈ sys.ran)
    (empty : strict → (sys.signalers signaler).semaphore = 0) (lock : Option Thread) :
    ∃ nodes', Inv strict
      { { sys with lock := lock }.relinquishCompletionSignaler signaler with
        lock := none, calls := sys.calls.set call new } nodes' held := by
  have own : signaler ∉ sys.clientItems := fun member =>
    (inv.placed.foreign signaler member).noSignaler old (List.mem_of_getElem? found) has
  obtain ⟨nodes', -, inv'⟩ := (inv.leaveCall found has behind idle done).relinquishCompletionSignaler own empty
  refine ⟨nodes', ?_⟩
  have same : { System.relinquishCompletionSignaler { sys with lock := lock } signaler with
      lock := none, calls := sys.calls.set call new } =
      { System.relinquishCompletionSignaler { sys with calls := sys.calls.set call new } signaler with
        lock := none } := by
    unfold System.relinquishCompletionSignaler System.relinquish
    by_cases room : sys.cacheCount .completionSignalers < maxCacheCount
    · simp only [room, if_true]
      rfl
    · simp only [room, if_false]
      rfl
  rw [same]
  exact inv'.withLock none

theorem resume_woken (inv : Inv strict sys nodes held) (unlocked : sys.lock = none) {call item signaler : Nat}
    {owned : Bool} (found : sys.calls[call]? = some (.woken item signaler owned)) :
    (resume call sys).Ends stuck (fun _ => Guarded strict none held) fun _ _ => False := by
  have woken := fun holds => (inv.signals holds).woken call item signaler owned found
  unfold resume
  rw [found]
  unfold continueCall finishSync
  have relinquished := relinquishCompletionSignaler_control { sys with lock := some (.client call) } signaler
  have mine := control_lock relinquished
  have calls := control_calls relinquished
  simp only [Code.bind_apply, lockLock_apply unlocked, Code.get_apply, Code.modify_apply, lockUnlock_apply mine]
  split_ifs with wasInterrupted
  · refine ⟨rfl, ?_⟩
    simp only [calls]
    exact leave_ends inv found rfl (by simp) rfl (by simp) (fun holds => (woken holds).1) _
  · refine ⟨rfl, ?_⟩
    simp only [calls]
    refine leave_ends inv found rfl (by simp) rfl ?_ (fun holds => (woken holds).1) _
    intro holds _
    rcases (woken holds).2 with interrupted | ran
    · exact absurd (.inr interrupted) wasInterrupted
    · exact ran

theorem resume_interrupted (inv : Inv strict sys nodes held) (unlocked : sys.lock = none)
    {call item signaler : Nat} {owned : Bool}
    (found : sys.calls[call]? = some (.interrupted item signaler owned)) :
    (resume call sys).Ends stuck (fun _ => Guarded strict none held) fun _ _ => False := by
  have never : ¬ strict := fun holds => (inv.signals holds).uninterrupted call item signaler owned found
  unfold resume
  rw [found]
  unfold continueCall abandonSync
  have relinquished := relinquishCompletionSignaler_control { sys with lock := some (.client call) } signaler
  have mine := control_lock relinquished
  have calls := control_calls relinquished
  simp only [Code.bind_apply, lockLock_apply unlocked, Code.modify_apply, lockUnlock_apply mine, Code.pure_apply]
  refine ⟨rfl, ?_⟩
  simp only [calls]
  exact leave_ends inv found rfl (by simp) rfl (by simp) (fun holds => absurd holds never) _

/-! ## Workers -/

inductive Taking (sys : System) (nodes : Nodes) (held : List Nat) (now : Int) : Option Nat × System → Prop
  | timer {node : Nat} {rest : List Nat} {result : Links Nat × SList Nat}
      (split : nodes .timerQueue = node :: rest)
      (placed : (sys.withList .timerQueue result).Placed (Function.update nodes .timerQueue rest) (node :: held)) :
      Taking sys nodes held now (some node, sys.withList .timerQueue result)
  | item {node : Nat} {rest : List Nat} {result : Links Nat × SList Nat}
      (split : nodes .itemQueue = node :: rest)
      (placed : (sys.withList .itemQueue result).Placed (Function.update nodes .itemQueue rest) (node :: held)) :
      Taking sys nodes held now
        (some node, { sys.withList .itemQueue result with itemsQueuedCount := sys.itemsQueuedCount - 1 })
  | nothing (empty : nodes .itemQueue = [])
      (notDue : ∀ timer ∈ (nodes .timerQueue).head?, now < (sys.items timer).deadline) :
      Taking sys nodes held now
        (none, System.record { sys with itemsQueuedCount := sys.itemsQueuedCount - 1 } .findsNothing)

theorem takeItem_cases (inv : Inv strict sys nodes held) (now : Int) :
    Taking sys nodes held now (sys.takeItem now) := by
  have idle : (∀ timer ∈ (nodes .timerQueue).head?, now < (sys.items timer).deadline) →
      Taking sys nodes held now sys.takeWorkItem := by
    intro notDue
    unfold System.takeWorkItem
    cases split : nodes .itemQueue with
    | nil =>
      rw [inv.placed.chained.removeFirst_nil split]
      exact .nothing split notDue
    | cons node rest =>
      obtain ⟨result, removes, placed⟩ := inv.placed.dequeue (by simp) split
      rw [removes]
      exact .item split placed
  unfold System.takeItem
  rw [(inv.placed.chained.lists .timerQueue).first]
  cases split : nodes .timerQueue with
  | nil =>
    rw [split] at idle
    exact idle (by simp)
  | cons timer rest =>
    rw [split] at idle
    simp only [List.head?_cons]
    by_cases due : (sys.items timer).deadline ≤ now
    · obtain ⟨result, removes, placed⟩ := inv.placed.dequeue (by simp) split
      simp only [due, decide_true, if_true, removes]
      exact .timer split placed
    · simp only [due, decide_false, Bool.false_eq_true, if_false]
      refine idle ?_
      intro other first
      cases first
      exact not_le.mp due

theorem runRound_ends (inv : Inv strict sys nodes held) {lane : Nat} (mine : sys.lock = some (.worker lane))
    (found : sys.lanes[lane]? = some .running) (mayRelinquish : Bool) (now : Int) :
    (runRound lane mayRelinquish now sys).Ends stuck (fun _ => Guarded strict none held) fun _ _ => False := by
  have balance := inv.balance
  have takes := takeItem_cases inv now
  unfold runRound
  rw [Code.bind_of_ok (Code.get_apply _)]
  generalize sys.takeItem now = taken at takes ⊢
  cases takes with
  | @timer node rest result split placed =>
    have running : ¬ sys.state ≠ .running := by
      intro stopped
      rw [(inv.placed.drained stopped).2] at split
      simp at split
    change ((if sys.state ≠ .running then _ else _ : Code System Errno Unit) sys).Ends stuck _ _
    rw [if_neg running, Code.bind_of_ok (Code.modify_apply _ _)]
    refine lockUnlock_ends ⟨mine, _, inv.execute (by simp) split placed found ?_⟩
    exact balance
  | @item node rest result split placed =>
    have running : ¬ sys.state ≠ .running := by
      intro stopped
      rw [(inv.placed.drained stopped).1] at split
      simp at split
    change ((if sys.state ≠ .running then _ else _ : Code System Errno Unit) sys).Ends stuck _ _
    rw [if_neg running, Code.bind_of_ok (Code.modify_apply _ _)]
    refine lockUnlock_ends ⟨mine, _, inv.execute (by simp) split placed found ?_⟩
    rw [Function.update_self]
    rw [split, List.length_cons] at balance
    omega
  | nothing empty notDue =>
    have nothing := inv.findsNothing
    change ((if sys.state ≠ .running ∨ mayRelinquish = true then _ else _ : Code System Errno Unit) sys).Ends
      stuck _ _
    by_cases leaves : sys.state ≠ .running ∨ mayRelinquish = true
    · rw [if_pos leaves, Code.bind_of_ok (Code.modify_apply _ _)]
      exact lockUnlock_ends ⟨mine, _, nothing.relinquishVirtualProcessor found⟩
    · rw [if_neg leaves, Code.bind_of_ok (Code.modify_apply _ _)]
      exact lockUnlock_ends ⟨mine, _, nothing.setLane found (by simp) rfl (by simp) rfl⟩

theorem enter_apply (unlocked : sys.lock = none) (lane : Nat) :
    enter lane sys = .ok () (System.setLane { sys with lock := some (.worker lane) } lane .running) := by
  unfold enter
  rw [Code.bind_of_ok (lockLock_apply unlocked _)]
  rfl

theorem running_setLane {lane : Nat} {old : Worker} (found : sys.lanes[lane]? = some old) (worker : Worker) :
    (sys.setLane lane worker).lanes[lane]? = some worker := by
  have inside := (List.getElem?_eq_some_iff.mp found).1
  simp [System.setLane, inside]

theorem start_ends (inv : Inv strict sys nodes held) (unlocked : sys.lock = none) {lane : Nat}
    (found : sys.lanes[lane]? = some .starting) (now : Int) :
    (start lane now sys).Ends stuck (fun _ => Guarded strict none held) fun _ _ => False := by
  unfold start
  rw [found]
  unfold runStart
  rw [Code.bind_of_ok (enter_apply unlocked lane)]
  have entered : Inv strict (System.setLane { sys with lock := some (.worker lane) } lane .running) nodes held :=
    (inv.withLock (some (.worker lane))).setLane found (by simp) rfl (by simp) rfl
  exact runRound_ends entered rfl (running_setLane found .running) false now

theorem wake_ends (inv : Inv strict sys nodes held) (unlocked : sys.lock = none) {lane : Nat}
    {mayRelinquish : Bool} (found : sys.lanes[lane]? = some (.waiting mayRelinquish)) (timedOut : Bool)
    (now : Int) :
    (wake lane timedOut now sys).Ends stuck (fun _ => Guarded strict none held) fun _ _ => False := by
  unfold wake
  rw [found]
  change ((enter lane >>= fun _ => Code.get >>= fun sys => runRound lane _ now) sys).Ends stuck _ _
  rw [Code.bind_of_ok (enter_apply unlocked lane), Code.bind_of_ok (Code.get_apply _)]
  have entered : Inv strict (System.setLane { sys with lock := some (.worker lane) } lane .running) nodes held :=
    (inv.withLock (some (.worker lane))).setLane found (by simp) rfl (by simp) rfl
  exact runRound_ends entered rfl (running_setLane found .running) _ now

theorem execute_ends (inv : Inv strict sys nodes held) (unlocked : sys.lock = none) {lane : Nat}
    (found : sys.lanes[lane]? = some (.executing item)) :
    (execute lane sys).Ends stuck (fun _ => Guarded strict none held) fun _ _ => False := by
  have ready := inv.placed.ready item (.inl (.inr (.inr (List.mem_of_getElem? found))))
  have lock : ∀ base : System, base.lock = none →
      ((base.signalCompletion item false).setLane lane (.finished item)).lock = none := by
    intro base free
    exact (control_lock (signalCompletion_control base item false)).trans free
  unfold execute
  rw [found]
  simp only [runClosure]
  cases closure : (sys.items item).closure with
  | none => simp [closure] at ready
  | some code =>
    cases dispatch : sys.dispatches item with
    | none => exact ⟨lock _ unlocked, _, inv.finish found (fun _ member => member) (by simp [dispatch])⟩
    | some kind =>
      cases kind with
      | async => exact ⟨lock _ unlocked, _, inv.finish found (fun _ member => member) (by simp [dispatch])⟩
      | sync call signaler =>
        refine ⟨lock _ unlocked, _, inv.finish found (List.subset_cons_self call sys.ran) ?_⟩
        intro call' signaler' same
        rw [dispatch] at same
        cases same
        exact List.mem_cons_self

theorem rearmTimer_ends (inv : Inv strict sys nodes (item :: held))
    (closure : (sys.items item).closure.isSome = true) (running : sys.state = .running)
    (clean : strict → (sys.items item).completion = none) (fuel : Nat) (now : Int) :
    (rearmTimer fuel item now sys).Ends True
      (fun _ after => after.control = sys.control ∧ ∃ nodes, Inv strict after nodes held) fun _ _ => False := by
  unfold rearmTimer
  cases rearmDeadline (sys.items item).interval now fuel (sys.items item).deadline with
  | none => trivial
  | some deadline =>
    have changed : Inv strict (sys.setItem item fun value => { value with deadline := deadline }) nodes
        (item :: held) := inv.setItem item rfl id rfl rfl
    refine Code.ends_weaken (Code.ends_mono (addTimer_ends changed ?_ running ?_ fuel) ?_ (by simp))
      fun _ => trivial
    · simpa [System.setItem] using closure
    · simpa [System.setItem] using clean
    · rintro - after ⟨same, nodes', inv', -⟩
      exact ⟨same, nodes', inv'⟩

theorem reclaimItem_ends (inv : Inv strict sys nodes (item :: held))
    (closure : (sys.items item).closure.isSome = true)
    (clean : strict → (sys.items item).completion = none) (fuel : Nat) (now : Int) :
    (reclaimItem fuel item now sys).Ends True
      (fun _ after => after.control = sys.control ∧ ∃ nodes, Inv strict after nodes held) fun _ _ => False := by
  unfold reclaimItem
  rw [Code.bind_of_ok (Code.get_apply _)]
  cases (sys.items item).type with
  | immediate =>
    obtain ⟨nodes', -, inv'⟩ := inv.relinquishWorkItem
    exact ⟨relinquishWorkItem_control _ _, nodes', inv'⟩
  | oneShotTimer =>
    obtain ⟨nodes', -, inv'⟩ := inv.relinquishTimer
    exact ⟨relinquishTimer_control _ _, nodes', inv'⟩
  | repeatingTimer =>
    split_ifs with cancelled running
    · obtain ⟨nodes', -, inv'⟩ := inv.relinquishTimer
      exact ⟨relinquishTimer_control _ _, nodes', inv'⟩
    · exact rearmTimer_ends inv closure running clean fuel now
    · exact ⟨rfl, nodes, inv.drop⟩

theorem reclaim_ends (inv : Inv strict sys nodes held) (unlocked : sys.lock = none) {lane : Nat}
    (found : sys.lanes[lane]? = some (.finished item)) (fuel : Nat) (now later : Int) :
    (reclaim lane fuel now later sys).Ends True (fun _ => Guarded strict none held) fun _ _ => False := by
  have closure := inv.placed.ready item (.inr (List.mem_of_getElem? found))
  have clean := fun holds => (inv.reset holds).finished item (List.mem_of_getElem? found)
  unfold reclaim
  rw [found]
  change ((enter lane >>= fun _ => reclaimItem fuel item now >>= fun _ => runRound lane false later) sys).Ends _ _ _
  rw [Code.bind_of_ok (enter_apply unlocked lane)]
  have entered := (inv.withLock (some (.worker lane))).setLane_finished found
  refine Code.ends_bind (reclaimItem_ends entered closure clean fuel now) ?_
  rintro - after ⟨same, nodes', inv'⟩
  refine runRound_ends inv' (control_lock same) ?_ false later
  rw [control_lanes same]
  exact running_setLane found .running

end Functions

end Apollo.Dispatchqueue
