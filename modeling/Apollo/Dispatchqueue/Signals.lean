import Apollo.Dispatchqueue.Placement

/-!
# Completion signals

A synchronous call is pending while its item is in the queue or executed and
still points to the signaler of the call.  `Signals` ties the pointers of the
items to the calls that wait for them, and both to the signals that were given;
`Reset` says that what is reused carries no pointer and no permit over.
-/

set_option autoImplicit false

namespace Apollo.Dispatchqueue

open Klib
open Lib

def Event.isFlush : Event → Bool
  | .flushes _ => true
  | _ => false

def Event.isSignal : Event → Bool
  | .signals _ _ _ => true
  | _ => false

def Event.signaledCall : Event → Option Nat
  | .signals _ _ (some (.sync call _)) => some call
  | _ => none

def System.given (sys : System) : List Event := sys.trace.filter Event.isSignal

/-- The item will signal the signaler when it has run or is taken out of the queue. -/
def System.Pends (sys : System) (nodes : Nodes) (item signaler : Nat) : Prop :=
  sys.Active nodes item ∧ (sys.items item).completion = some signaler

def System.Answered (sys : System) (call signaler : Nat) : Prop :=
  (sys.signalers signaler).isInterrupted = true ∨ call ∈ sys.ran

structure System.Signals (sys : System) (nodes : Nodes) : Prop where
  pending : ∀ item signaler, sys.Pends nodes item signaler →
    ∃ call owned, sys.calls[call]? = some (.waiting item signaler owned) ∧
      sys.dispatches item = some (.sync call signaler) ∧ (sys.signalers signaler).semaphore = 0
  waiting : ∀ (call item signaler : Nat) (owned : Bool), sys.calls[call]? = some (.waiting item signaler owned) →
    sys.Pends nodes item signaler ∨
      ((sys.signalers signaler).semaphore = 1 ∧ sys.Answered call signaler)
  woken : ∀ (call item signaler : Nat) (owned : Bool), sys.calls[call]? = some (.woken item signaler owned) →
    (sys.signalers signaler).semaphore = 0 ∧ sys.Answered call signaler
  uninterrupted : ∀ (call item signaler : Nat) (owned : Bool),
    sys.calls[call]? ≠ some (.interrupted item signaler owned)
  returned : ∀ (call : Nat), sys.calls[call]? = some (.returned none) → call ∈ sys.ran
  own : ∀ item signaler dispatch, .signals item signaler dispatch ∈ sys.given →
    ∃ call, dispatch = some (.sync call signaler)
  once : (sys.given.filterMap Event.signaledCall).Nodup
  past : ∀ call ∈ sys.given.filterMap Event.signaledCall, call < sys.calls.length ∧
    ∀ (item signaler : Nat) (owned : Bool), sys.calls[call]? = some (.waiting item signaler owned) →
      (sys.signalers signaler).semaphore = 1

structure Quiet (sys : System) (nodes : Nodes) (after : System) (nodes' : Nodes) : Prop where
  pends : ∀ item signaler, after.Pends nodes' item signaler ↔ sys.Pends nodes item signaler
  dispatches : ∀ item signaler, sys.Pends nodes item signaler → after.dispatches item = sys.dispatches item
  signalers : ∀ call ∈ sys.calls, ∀ signaler, call.signaler? = some signaler →
    after.signalers signaler = sys.signalers signaler
  calls : after.calls = sys.calls
  ran : sys.ran ⊆ after.ran
  given : after.given = sys.given

section Quiet
variable {sys after : System} {nodes nodes' : Nodes}

theorem Quiet.signals (quiet : Quiet sys nodes after nodes') (signals : sys.Signals nodes) :
    after.Signals nodes' := by
  have answered : ∀ {call signaler : Nat} {state : Call}, sys.calls[call]? = some state →
      state.signaler? = some signaler → sys.Answered call signaler → after.Answered call signaler := by
    intro call signaler state found waits answered
    rcases answered with interrupted | ran
    · left
      rw [quiet.signalers state (List.mem_of_getElem? found) signaler waits]
      exact interrupted
    · exact .inr (quiet.ran ran)
  refine ⟨?_, ?_, ?_, ?_, ?_, ?_, ?_, ?_⟩
  · intro item signaler pends
    have before := (quiet.pends item signaler).mp pends
    obtain ⟨call, owned, waits, dispatched, permits⟩ := signals.pending item signaler before
    refine ⟨call, owned, ?_, ?_, ?_⟩
    · rw [quiet.calls]
      exact waits
    · rw [quiet.dispatches item signaler before]
      exact dispatched
    · rw [quiet.signalers _ (List.mem_of_getElem? waits) signaler rfl]
      exact permits
  · intro call item signaler owned waits
    rw [quiet.calls] at waits
    rcases signals.waiting call item signaler owned waits with pends | ⟨permits, done⟩
    · exact .inl ((quiet.pends item signaler).mpr pends)
    · refine .inr ⟨?_, answered waits rfl done⟩
      rw [quiet.signalers _ (List.mem_of_getElem? waits) signaler rfl]
      exact permits
  · intro call item signaler owned woken
    rw [quiet.calls] at woken
    obtain ⟨permits, done⟩ := signals.woken call item signaler owned woken
    refine ⟨?_, answered woken rfl done⟩
    rw [quiet.signalers _ (List.mem_of_getElem? woken) signaler rfl]
    exact permits
  · intro call item signaler owned
    rw [quiet.calls]
    exact signals.uninterrupted call item signaler owned
  · intro call returned
    rw [quiet.calls] at returned
    exact quiet.ran (signals.returned call returned)
  · rw [quiet.given]
    exact signals.own
  · rw [quiet.given]
    exact signals.once
  · intro call given
    rw [quiet.given] at given
    obtain ⟨inside, permits⟩ := signals.past call given
    rw [quiet.calls]
    refine ⟨inside, ?_⟩
    intro item signaler owned waits
    rw [quiet.signalers _ (List.mem_of_getElem? waits) signaler rfl]
    exact permits item signaler owned waits

end Quiet

/-- Timers, and what waits to be used again or to be handed back, point to nothing and have no
permit. -/
structure System.Reset (sys : System) (nodes : Nodes) : Prop where
  finished : ∀ item, Worker.finished item ∈ sys.lanes → (sys.items item).completion = none
  clean : ∀ name, name ≠ .itemQueue → name ≠ .cache .completionSignalers → ∀ item ∈ nodes name,
    (sys.items item).completion = none
  idle : ∀ signaler ∈ nodes (.cache .completionSignalers), (sys.signalers signaler).semaphore = 0

def System.Linked (sys : System) (nodes : Nodes) : Prop :=
  ∀ (call item signaler : Nat) (owned : Bool), sys.calls[call]? = some (.waiting item signaler owned) →
    item ∈ nodes .itemQueue → sys.dispatches item = some (.sync call signaler) →
    (sys.items item).completion = some signaler

/-- The invariant of all runs in which every node stays in one place.  The signals are part of
it in runs that are `strict`. -/
structure Inv (strict : Prop) (sys : System) (nodes : Nodes) (held : List Nat) : Prop where
  placed : sys.Placed nodes held
  balance : sys.itemsQueuedCount + sys.trace.count .findsNothing =
    (nodes .itemQueue).length + sys.trace.countP Event.isFlush
  linked : sys.Linked nodes
  reset : strict → sys.Reset nodes
  signals : strict → sys.Signals nodes

namespace Inv

variable {strict : Prop} {sys after : System} {nodes nodes' : Nodes} {held held' : List Nat} {node : Nat}

/-- A quiet change that keeps the other parts of the invariant. -/
theorem quiet (inv : Inv strict sys nodes held) (placed : after.Placed nodes' held')
    (balance : after.itemsQueuedCount + after.trace.count .findsNothing =
      (nodes' .itemQueue).length + after.trace.countP Event.isFlush)
    (linked : after.Linked nodes') (reset : strict → after.Reset nodes')
    (quiet : strict → Quiet sys nodes after nodes') : Inv strict after nodes' held' :=
  ⟨placed, balance, linked, reset, fun holds => (quiet holds).signals (inv.signals holds)⟩

theorem withLock (inv : Inv strict sys nodes held) (lock : Option Thread) :
    Inv strict { sys with lock := lock } nodes held := by
  refine inv.quiet (inv.placed.congr rfl) inv.balance inv.linked ?_ ?_
  · intro holds
    have reset := inv.reset holds
    exact ⟨reset.finished, reset.clean, reset.idle⟩
  · exact fun _ => ⟨fun _ _ => Iff.rfl, fun _ _ _ => rfl, fun _ _ _ _ => rfl, rfl, fun _ member => member, rfl⟩

theorem frame (inv : Inv strict sys nodes held) (placed : after.Placed nodes held')
    (items : after.items = sys.items) (signalers : after.signalers = sys.signalers)
    (lanes : after.lanes = sys.lanes) (calls : after.calls = sys.calls)
    (dispatches : after.dispatches = sys.dispatches) (ran : after.ran = sys.ran)
    (trace : after.trace = sys.trace) (count : after.itemsQueuedCount = sys.itemsQueuedCount) :
    Inv strict after nodes held' := by
  have active : ∀ item, after.Active nodes item ↔ sys.Active nodes item := by
    intro item
    simp only [System.Active, lanes]
  refine inv.quiet placed ?_ ?_ ?_ ?_
  · rw [trace, count]
    exact inv.balance
  · intro call item signaler owned waits member dispatched
    rw [calls] at waits
    rw [dispatches] at dispatched
    rw [items]
    exact inv.linked call item signaler owned waits member dispatched
  · intro holds
    have reset := inv.reset holds
    refine ⟨?_, ?_, ?_⟩
    · rw [lanes, items]
      exact reset.finished
    · rw [items]
      exact reset.clean
    · rw [signalers]
      exact reset.idle
  · intro _
    refine ⟨?_, ?_, ?_, calls, ?_, ?_⟩
    · intro item signaler
      simp only [System.Pends, active, items]
    · exact fun item _ _ => congrFun dispatches item
    · exact fun _ _ signaler _ => congrFun signalers signaler
    · rw [ran]
      exact fun _ member => member
    · simp only [System.given, trace]

theorem hold (inv : Inv strict sys nodes held) (nowhere : sys.load nodes held node = 0)
    (allocated : node ∈ sys.allocated)
    (marked : node ∈ sys.clientItems → (sys.items node).isBeingDispatched = true) :
    Inv strict sys nodes (node :: held) :=
  inv.frame (inv.placed.hold nowhere allocated marked) rfl rfl rfl rfl rfl rfl rfl rfl

theorem drop (inv : Inv strict sys nodes (node :: held)) : Inv strict sys nodes held :=
  inv.frame inv.placed.drop rfl rfl rfl rfl rfl rfl rfl rfl

theorem swap {other : Nat} (inv : Inv strict sys nodes (node :: other :: held)) :
    Inv strict sys nodes (other :: node :: held) :=
  inv.frame inv.placed.swap rfl rfl rfl rfl rfl rfl rfl rfl

theorem unlink (inv : Inv strict sys nodes (node :: held)) : Inv strict (sys.unlink node) nodes (node :: held) :=
  inv.frame inv.placed.unlink rfl rfl rfl rfl rfl rfl rfl rfl

theorem kalloc (inv : Inv strict sys nodes held) (fresh : node ∉ sys.allocated) :
    Inv strict (sys.kalloc node) nodes (node :: held) :=
  inv.frame (inv.placed.kalloc fresh) rfl rfl rfl rfl rfl rfl rfl rfl

theorem kfree (inv : Inv strict sys nodes (node :: held)) (own : node ∉ sys.clientItems) :
    Inv strict (sys.kfree node) nodes held :=
  inv.frame (inv.placed.kfree own) rfl rfl rfl rfl rfl rfl rfl rfl

/-- A change of one item that leaves its pointer to a signaler alone, or is in hand. -/
theorem changeItem (inv : Inv strict sys nodes held) {change : WorkItem → WorkItem}
    (placed : (sys.setItem node change).Placed nodes held)
    (harmless : (change (sys.items node)).completion = (sys.items node).completion ∨
      (¬ sys.Active nodes node ∧ Worker.finished node ∉ sys.lanes ∧ ∀ cache, node ∉ nodes (.cache cache))) :
    Inv strict (sys.setItem node change) nodes held := by
  have same : ∀ item, (sys.Active nodes item ∨ Worker.finished item ∈ sys.lanes ∨
      ∃ cache, item ∈ nodes (.cache cache)) →
        ((sys.setItem node change).items item).completion = (sys.items item).completion := by
    intro item somewhere
    by_cases equal : item = node
    · subst equal
      rcases harmless with kept | ⟨inactive, unfinished, uncached⟩
      · simpa [System.setItem] using kept
      · rcases somewhere with active | finished | ⟨cache, cached⟩
        · exact absurd active inactive
        · exact absurd finished unfinished
        · exact absurd cached (uncached cache)
    · simp [System.setItem, Function.update_of_ne equal]
  refine inv.quiet placed inv.balance ?_ ?_ ?_
  · intro call item signaler owned waits member dispatched
    rw [same item (.inl (.inl member))]
    exact inv.linked call item signaler owned waits member dispatched
  · intro holds
    have reset := inv.reset holds
    refine ⟨?_, ?_, reset.idle⟩
    · intro item finished
      rw [same item (.inr (.inl finished))]
      exact reset.finished item finished
    · intro name notItem usual item member
      have somewhere : sys.Active nodes item ∨ Worker.finished item ∈ sys.lanes ∨
          ∃ cache, item ∈ nodes (.cache cache) := by
        rcases name with _ | _ | cache
        · exact absurd rfl notItem
        · exact .inl (.inr (.inl member))
        · exact .inr (.inr ⟨cache, member⟩)
      rw [same item somewhere]
      exact reset.clean name notItem usual item member
  · intro _
    refine ⟨?_, fun _ _ _ => rfl, fun _ _ _ _ => rfl, rfl, fun _ member => member, rfl⟩
    intro item signaler
    constructor
    · rintro ⟨active, points⟩
      refine ⟨active, ?_⟩
      rw [← same item (.inl active)]
      exact points
    · rintro ⟨active, points⟩
      refine ⟨active, ?_⟩
      rw [same item (.inl active)]
      exact points

theorem setHeldItem (inv : Inv strict sys nodes (node :: held)) (own : node ∉ sys.clientItems)
    (change : WorkItem → WorkItem) : Inv strict (sys.setItem node change) nodes (node :: held) :=
  inv.changeItem (inv.placed.setHeldItem own change)
    (.inr ⟨inv.placed.not_active, fun member => inv.placed.not_in_lanes member rfl,
      fun _ => inv.placed.chained.held_not_mem _⟩)

/-- A change of an item that leaves its owner, its closure and its pointer alone and does not
take its mark away. -/
theorem setItem (inv : Inv strict sys nodes held) (item : Nat) {change : WorkItem → WorkItem}
    (owner : (change (sys.items item)).isOwnedByQueue = (sys.items item).isOwnedByQueue)
    (mark : (sys.items item).isBeingDispatched = true → (change (sys.items item)).isBeingDispatched = true)
    (closure : (change (sys.items item)).closure = (sys.items item).closure)
    (completion : (change (sys.items item)).completion = (sys.items item).completion) :
    Inv strict (sys.setItem item change) nodes held :=
  inv.changeItem (inv.placed.setItem item owner mark closure) (.inl completion)

theorem setHeldSignaler (inv : Inv strict sys nodes (node :: held))
    (change : CompletionSignaler → CompletionSignaler) :
    Inv strict (sys.setSignaler node change) nodes (node :: held) := by
  refine inv.quiet (inv.placed.setSignaler node change) inv.balance inv.linked ?_ ?_
  · intro holds
    have reset := inv.reset holds
    refine ⟨reset.finished, reset.clean, ?_⟩
    intro signaler member
    have different : signaler ≠ node := by
      rintro rfl
      exact inv.placed.chained.held_not_mem _ member
    simp only [System.setSignaler, Function.update_of_ne different]
    exact reset.idle signaler member
  · intro _
    refine ⟨fun _ _ => Iff.rfl, fun _ _ _ => rfl, ?_, rfl, fun _ member => member, rfl⟩
    intro call member signaler waits
    have different : signaler ≠ node := by
      rintro rfl
      exact inv.placed.not_in_calls member waits
    simp only [System.setSignaler, Function.update_of_ne different]

theorem recordRelinquish (inv : Inv strict sys nodes held) (item : Nat) :
    Inv strict (sys.record (.relinquishes item)) nodes held := by
  refine inv.quiet (inv.placed.congr rfl) ?_ inv.linked ?_ ?_
  · simpa [System.record, Event.isFlush, List.count_cons] using inv.balance
  · intro holds
    have reset := inv.reset holds
    exact ⟨reset.finished, reset.clean, reset.idle⟩
  · exact fun _ => ⟨fun _ _ => Iff.rfl, fun _ _ _ => rfl, fun _ _ _ _ => rfl, rfl, fun _ member => member,
      by simp [System.given, System.record, Event.isSignal]⟩

/-! ### Caches -/

variable {cache : Cache} {result : Links Nat × SList Nat} {worker old : Worker}

theorem taken (inv : Inv strict sys nodes held)
    {rest : List Nat} (split : nodes (.cache cache) = node :: rest)
    (placed : (sys.taken cache result).Placed (Function.update nodes (.cache cache) rest) (node :: held)) :
    Inv strict (sys.taken cache result) (Function.update nodes (.cache cache) rest) (node :: held) := by
  have fewer : ∀ name item, item ∈ Function.update nodes (.cache cache) rest name → item ∈ nodes name := by
    intro name item member
    by_cases same : name = .cache cache
    · subst same
      rw [Function.update_self] at member
      rw [split]
      exact List.mem_cons_of_mem _ member
    · rw [Function.update_of_ne same] at member
      exact member
  refine inv.quiet placed inv.balance inv.linked ?_ ?_
  · intro holds
    have reset := inv.reset holds
    exact ⟨reset.finished,
      fun name notItem usual item member => reset.clean name notItem usual item (fewer _ _ member),
      fun signaler member => reset.idle signaler (fewer _ _ member)⟩
  · exact fun _ => ⟨fun _ _ => Iff.rfl, fun _ _ _ => rfl, fun _ _ _ _ => rfl, rfl, fun _ member => member, rfl⟩

theorem cached (inv : Inv strict sys nodes (node :: held)) {cache : Cache} (own : node ∉ sys.clientItems)
    (room : sys.cacheCount cache < maxCacheCount)
    (clean : cache ≠ .completionSignalers → (sys.items node).completion = none)
    (empty : strict → cache = .completionSignalers → (sys.signalers node).semaphore = 0) :
    Inv strict (sys.cached cache node) (nodes.push cache node) held := by
  have members : ∀ name item, item ∈ nodes.push cache node name →
      item ∈ nodes name ∨ (name = .cache cache ∧ item = node) := by
    intro name item member
    by_cases same : name = .cache cache
    · subst same
      rw [Nodes.push, Function.update_self] at member
      rcases List.mem_cons.mp member with rfl | member
      · exact .inr ⟨rfl, rfl⟩
      · exact .inl member
    · rw [Nodes.push, Function.update_of_ne same] at member
      exact .inl member
  refine inv.quiet (inv.placed.cached own room) inv.balance inv.linked ?_ ?_
  · intro holds
    have reset := inv.reset holds
    refine ⟨reset.finished, ?_, ?_⟩
    · intro name notItem usual item member
      rcases members name item member with member | ⟨rfl, rfl⟩
      · exact reset.clean name notItem usual item member
      · exact clean (by simpa using usual)
    · intro signaler member
      rcases members _ signaler member with member | ⟨same, rfl⟩
      · exact reset.idle signaler member
      · exact empty holds (by simpa using same.symm)
  · exact fun _ => ⟨fun _ _ => Iff.rfl, fun _ _ _ => rfl, fun _ _ _ _ => rfl, rfl, fun _ member => member, rfl⟩

/-- A work item or a timer goes back to its cache, if it is the queue's. -/
theorem relinquishItem (inv : Inv strict sys nodes (node :: held))
    (usual : cache ≠ .completionSignalers) :
    ∃ nodes', (nodes' = nodes.push cache node ∨ nodes' = nodes) ∧
      Inv strict (if !(sys.items node).isOwnedByQueue then sys
        else sys.relinquish cache System.workItemDeinit System.workItemDestroy node) nodes' held := by
  cases owned : (sys.items node).isOwnedByQueue with
  | false => exact ⟨nodes, .inr rfl, inv.drop⟩
  | true =>
    have own := inv.placed.own_of_owned owned
    have deinit : Inv strict (sys.workItemDeinit node) nodes (node :: held) :=
      inv.unlink.setHeldItem own _
    simp only [Bool.not_true, Bool.false_eq_true, if_false, System.relinquish]
    split_ifs with room
    · refine ⟨_, .inl rfl, deinit.cached own room ?_ ?_⟩
      · simp [System.workItemDeinit, System.setItem]
      · exact fun _ same => absurd same usual
    · exact ⟨nodes, .inr rfl, deinit.kfree own⟩

theorem relinquishWorkItem (inv : Inv strict sys nodes (node :: held)) :
    ∃ nodes', (nodes' = nodes.push .items node ∨ nodes' = nodes) ∧
      Inv strict (sys.relinquishWorkItem node) nodes' held :=
  (inv.recordRelinquish node).relinquishItem (by simp)

theorem relinquishTimer (inv : Inv strict sys nodes (node :: held)) :
    ∃ nodes', (nodes' = nodes.push .timers node ∨ nodes' = nodes) ∧
      Inv strict (sys.relinquishTimer node) nodes' held :=
  (inv.recordRelinquish node).relinquishItem (by simp)

theorem relinquishCompletionSignaler (inv : Inv strict sys nodes (node :: held))
    (own : node ∉ sys.clientItems) (empty : strict → (sys.signalers node).semaphore = 0) :
    ∃ nodes', (nodes' = nodes.push .completionSignalers node ∨ nodes' = nodes) ∧
      Inv strict (sys.relinquishCompletionSignaler node) nodes' held := by
  have deinit : Inv strict (sys.completionSignalerDeinit node) nodes (node :: held) :=
    inv.unlink.setHeldSignaler _
  simp only [System.relinquishCompletionSignaler, System.relinquish]
  split_ifs with room
  · refine ⟨_, .inl rfl, deinit.cached own room ?_ ?_⟩
    · exact fun usual => absurd rfl usual
    · intro holds _
      simpa [System.completionSignalerDeinit, System.setSignaler, System.unlink] using empty holds
  · exact ⟨nodes, .inr rfl, deinit.kfree own⟩

/-! ### The item queue -/

theorem mem_enqueue {item other : Nat} :
    other ∈ Function.update nodes .itemQueue (nodes .itemQueue ++ [item]) .itemQueue ↔
      other ∈ nodes .itemQueue ∨ other = item := by
  rw [Function.update_self, List.mem_append, List.mem_singleton]

theorem active_enqueue {item other : Nat} (lanes : after.lanes = sys.lanes) :
    after.Active (Function.update nodes .itemQueue (nodes .itemQueue ++ [item])) other ↔
      sys.Active nodes other ∨ other = item := by
  simp only [System.Active, mem_enqueue, lanes]
  tauto

theorem balance_enqueue (inv : Inv strict sys nodes held) (item : Nat) :
    sys.itemsQueuedCount + 1 + sys.trace.count .findsNothing =
      (Function.update nodes .itemQueue (nodes .itemQueue ++ [item]) .itemQueue).length +
        sys.trace.countP Event.isFlush := by
  have balance := inv.balance
  rw [Function.update_self, List.length_append, List.length_singleton]
  omega

theorem reset_enqueue (inv : Inv strict sys nodes held) (holds : strict) (item : Nat)
    (lanes : after.lanes = sys.lanes) (signalers : after.signalers = sys.signalers)
    (items : ∀ other, (Worker.finished other ∈ sys.lanes ∨ ∃ name, other ∈ nodes name) →
      after.items other = sys.items other) :
    after.Reset (Function.update nodes .itemQueue (nodes .itemQueue ++ [item])) := by
  have reset := inv.reset holds
  refine ⟨?_, ?_, ?_⟩
  · intro other finished
    rw [lanes] at finished
    rw [items other (.inl finished)]
    exact reset.finished other finished
  · intro name notItem usual other member
    rw [Function.update_of_ne notItem] at member
    rw [items other (.inr ⟨name, member⟩)]
    exact reset.clean name notItem usual other member
  · intro signaler member
    rw [signalers]
    exact reset.idle signaler member

theorem enqueue (inv : Inv strict sys nodes (node :: held)) {dispatch : Dispatch}
    (closure : (sys.items node).closure.isSome = true) (running : sys.state = .running)
    (clean : strict → (sys.items node).completion = none)
    (nobody : ∀ call signaler, dispatch = .sync call signaler → sys.calls[call]? = none) :
    Inv strict (sys.enqueueItem node dispatch)
      (Function.update nodes .itemQueue (nodes .itemQueue ++ [node])) held := by
  have elsewhere : ∀ {other : Nat}, other ≠ node →
      (sys.enqueueItem node dispatch).dispatches other = sys.dispatches other :=
    fun different => Function.update_of_ne different _ _
  refine inv.quiet (inv.placed.enqueueItem dispatch closure running) (inv.balance_enqueue node) ?_ ?_ ?_
  · intro call item signaler owned waits member dispatched
    rcases mem_enqueue.mp member with queued | rfl
    · have different : item ≠ node := by
        rintro rfl
        exact inv.placed.chained.held_not_mem _ queued
      rw [elsewhere different] at dispatched
      exact inv.linked call item signaler owned waits queued dispatched
    · simp only [System.enqueueItem, Function.update_self, Option.some.injEq] at dispatched
      have unknown := nobody call signaler dispatched
      change sys.calls[call]? = _ at waits
      rw [waits] at unknown
      simp at unknown
  · exact fun holds => inv.reset_enqueue holds node rfl rfl fun _ _ => rfl
  · intro holds
    have active : ∀ other, (sys.enqueueItem node dispatch).Active
        (Function.update nodes .itemQueue (nodes .itemQueue ++ [node])) other ↔
          sys.Active nodes other ∨ other = node := fun other => active_enqueue rfl
    refine ⟨?_, ?_, fun _ _ _ _ => rfl, rfl, fun _ member => member, rfl⟩
    · intro item signaler
      simp only [System.Pends, active]
      constructor
      · rintro ⟨active | rfl, points⟩
        · exact ⟨active, points⟩
        · have empty := clean holds
          change (sys.items item).completion = some signaler at points
          rw [empty] at points
          simp at points
      · rintro ⟨active, points⟩
        exact ⟨.inl active, points⟩
    · intro item signaler pends
      apply elsewhere
      rintro rfl
      exact inv.placed.not_active pends.1

theorem getElem?_concat {calls : List Call} {new found : Call} {call : Nat} :
    (calls ++ [new])[call]? = some found ↔
      calls[call]? = some found ∨ (call = calls.length ∧ found = new) := by
  rcases Nat.lt_trichotomy call calls.length with less | equal | greater
  · rw [List.getElem?_append_left less]
    constructor
    · exact .inl
    · rintro (found | ⟨rfl, -⟩)
      · exact found
      · omega
  · subst equal
    simp [eq_comm]
  · rw [List.getElem?_eq_none (by simp; omega), List.getElem?_eq_none (by omega)]
    simp
    omega

def attached (sys : System) (item signaler : Nat) (owned : Bool) : System :=
  { (sys.setItem item fun value => { value with completion := some signaler }).enqueueItem item
      (.sync sys.calls.length signaler) with
    calls := sys.calls ++ [.waiting item signaler owned] }

theorem attach {signaler : Nat} (inv : Inv strict sys nodes (node :: signaler :: held))
    (own : signaler ∉ sys.clientItems) (closure : (sys.items node).closure.isSome = true)
    (running : sys.state = .running) (empty : strict → (sys.signalers signaler).semaphore = 0)
    (owned : Bool) :
    Inv strict (attached sys node signaler owned)
      (Function.update nodes .itemQueue (nodes .itemQueue ++ [node])) held := by
  have pointing : (sys.setItem node fun value => { value with completion := some signaler }).Placed nodes
      (node :: signaler :: held) := inv.placed.setItem node rfl id rfl
  have placed : (attached sys node signaler owned).Placed
      (Function.update nodes .itemQueue (nodes .itemQueue ++ [node])) held := by
    refine System.Placed.startWaiting ?_ own rfl
    refine pointing.enqueueItem _ ?_ running
    simpa [System.setItem] using closure
  have items : ∀ {other : Nat}, other ≠ node →
      (attached sys node signaler owned).items other = sys.items other := by
    intro other different
    exact Function.update_of_ne different _ _
  have points : ((attached sys node signaler owned).items node).completion = some signaler := by
    simp [attached, System.enqueueItem, System.insertAfterLast, System.withList, System.setItem]
  have dispatched : (attached sys node signaler owned).dispatches node =
      some (.sync sys.calls.length signaler) := by
    simp [attached, System.enqueueItem]
  have elsewhere : ∀ {other : Nat}, other ≠ node →
      (attached sys node signaler owned).dispatches other = sys.dispatches other :=
    fun different => Function.update_of_ne different _ _
  have inactive : ∀ {other : Nat}, sys.Active nodes other → other ≠ node := by
    rintro other active rfl
    exact inv.placed.not_active active
  refine ⟨placed, inv.balance_enqueue node, ?_, ?_, ?_⟩
  · intro call item signaler' owned' waits member dispatched'
    rcases mem_enqueue.mp member with queued | rfl
    · have different : item ≠ node := by
        rintro rfl
        exact inv.placed.chained.held_not_mem _ queued
      rw [elsewhere different] at dispatched'
      rw [items different]
      rcases getElem?_concat.mp waits with before | ⟨-, same⟩
      · exact inv.linked call item signaler' owned' before queued dispatched'
      · cases same
        exact absurd rfl different
    · rw [dispatched] at dispatched'
      cases dispatched'
      exact points
  · intro holds
    refine inv.reset_enqueue holds node rfl rfl ?_
    rintro other (finished | ⟨cache, cached⟩)
    · apply items
      rintro rfl
      exact inv.placed.not_in_lanes finished rfl
    · apply items
      rintro rfl
      exact inv.placed.chained.held_not_mem _ cached
  · intro holds
    have signals := inv.signals holds
    have active : ∀ other, (attached sys node signaler owned).Active
        (Function.update nodes .itemQueue (nodes .itemQueue ++ [node])) other ↔
          sys.Active nodes other ∨ other = node := fun other => active_enqueue rfl
    have pends : ∀ item signaler', sys.Pends nodes item signaler' →
        (attached sys node signaler owned).Pends
          (Function.update nodes .itemQueue (nodes .itemQueue ++ [node])) item signaler' := by
      rintro item signaler' ⟨busy, points'⟩
      refine ⟨(active item).mpr (.inl busy), ?_⟩
      rw [items (inactive busy)]
      exact points'
    refine ⟨?_, ?_, ?_, ?_, ?_, signals.own, signals.once, ?_⟩
    · rintro item signaler' ⟨busy, points'⟩
      rcases (active item).mp busy with before | rfl
      · rw [items (inactive before)] at points'
        obtain ⟨call, owned', waits, dispatched', permits⟩ := signals.pending item signaler' ⟨before, points'⟩
        refine ⟨call, owned', getElem?_concat.mpr (.inl waits), ?_, permits⟩
        rw [elsewhere (inactive before)]
        exact dispatched'
      · rw [points] at points'
        cases points'
        exact ⟨sys.calls.length, owned, getElem?_concat.mpr (.inr ⟨rfl, rfl⟩), dispatched, empty holds⟩
    · intro call item signaler' owned' waits
      rcases getElem?_concat.mp waits with before | ⟨rfl, same⟩
      · rcases signals.waiting call item signaler' owned' before with pending | answered
        · exact .inl (pends item signaler' pending)
        · exact .inr answered
      · cases same
        exact .inl ⟨(active _).mpr (.inr rfl), points⟩
    · intro call item signaler' owned' woken
      rcases getElem?_concat.mp woken with before | ⟨-, same⟩
      · exact signals.woken call item signaler' owned' before
      · simp at same
    · intro call item signaler' owned' interrupted
      rcases getElem?_concat.mp interrupted with before | ⟨-, same⟩
      · exact signals.uninterrupted call item signaler' owned' before
      · simp at same
    · intro call returned
      rcases getElem?_concat.mp returned with before | ⟨-, same⟩
      · exact signals.returned call before
      · simp at same
    · intro call given
      obtain ⟨inside, permits⟩ := signals.past call given
      refine ⟨?_, ?_⟩
      · change call < (sys.calls ++ [_]).length
        rw [List.length_append]
        omega
      · intro item signaler' owned' waits
        rcases getElem?_concat.mp waits with before | ⟨rfl, -⟩
        · exact permits item signaler' owned' before
        · exact absurd inside (lt_irrefl _)

/-! ### Workers -/

theorem mem_set_iff {α : Type} {list : List α} {index : Nat} {old new other : α}
    (found : list[index]? = some old) (different : other ≠ old) :
    other ∈ list.set index new ↔ other ∈ list ∨ other = new := by
  have inside : index < list.length := by
    by_contra outside
    rw [List.getElem?_eq_none (by omega)] at found
    simp at found
  constructor
  · intro member
    exact (List.mem_or_eq_of_mem_set member).imp_right id
  · rintro (member | rfl)
    · obtain ⟨position, at_position⟩ := List.mem_iff_getElem?.mp member
      have apart : index ≠ position := by
        rintro rfl
        rw [found] at at_position
        exact different (Option.some.inj at_position).symm
      refine List.mem_iff_getElem?.mpr ⟨position, ?_⟩
      rw [List.getElem?_set_ne apart]
      exact at_position
    · exact List.mem_set inside other

theorem ne_of_idle (idle : worker.item? = none) (item : Nat) :
    Worker.executing item ≠ worker ∧ Worker.finished item ≠ worker := by
  constructor <;> rintro rfl <;> simp [Worker.item?] at idle

/-- A worker that has no item afterwards goes on; an item that it has finished goes into the hand. -/
theorem relane (inv : Inv strict sys nodes held) {lane available : Nat}
    (found : sys.lanes[lane]? = some old) (notExecuting : ∀ item, Worker.executing item ≠ old)
    (idle : worker.item? = none)
    (placed : System.Placed { sys with lanes := sys.lanes.set lane worker, availableConcurrency := available }
      nodes held') :
    Inv strict { sys with lanes := sys.lanes.set lane worker, availableConcurrency := available } nodes held' := by
  have active : ∀ item, System.Active
      { sys with lanes := sys.lanes.set lane worker, availableConcurrency := available } nodes item ↔
        sys.Active nodes item := by
    intro item
    simp only [System.Active, mem_set_iff found (notExecuting item), (ne_of_idle idle item).1, or_false]
  refine inv.quiet placed inv.balance inv.linked ?_ ?_
  · intro holds
    have reset := inv.reset holds
    refine ⟨?_, reset.clean, reset.idle⟩
    intro item finished
    rcases List.mem_or_eq_of_mem_set finished with before | same
    · exact reset.finished item before
    · exact absurd same (ne_of_idle idle item).2
  · intro _
    refine ⟨?_, fun _ _ _ => rfl, fun _ _ _ _ => rfl, rfl, fun _ member => member, rfl⟩
    intro item signaler
    simp only [System.Pends, active]

theorem hire (inv : Inv strict sys nodes held) {lane : Nat} (found : sys.lanes[lane]? = some .absent) :
    Inv strict (sys.hire lane) nodes held :=
  inv.relane found (by simp) rfl (inv.placed.hire found)

theorem relinquishVirtualProcessor (inv : Inv strict sys nodes held) {lane : Nat}
    (found : sys.lanes[lane]? = some .running) : Inv strict (sys.relinquishVirtualProcessor lane) nodes held :=
  inv.relane found (by simp) rfl (inv.placed.relinquishVirtualProcessor found (by simp) rfl)

theorem setLane (inv : Inv strict sys nodes held) {lane : Nat}
    (found : sys.lanes[lane]? = some old) (present : old ≠ .absent) (idle : old.item? = none)
    (present' : worker ≠ .absent) (idle' : worker.item? = none) :
    Inv strict (sys.setLane lane worker) nodes held :=
  inv.relane found (fun item => (ne_of_idle idle item).1) idle'
    (inv.placed.setLane_idle found present idle present' idle')

/-- The worker has the lock again, and the item that it executed in hand. -/
theorem setLane_finished (inv : Inv strict sys nodes held) {lane : Nat}
    (found : sys.lanes[lane]? = some (.finished node)) :
    Inv strict (sys.setLane lane .running) nodes (node :: held) := by
  refine inv.relane found (by simp) rfl (inv.placed.relane found ?_ ?_ ?_)
  · simp
  · rw [show Worker.running.item? = none from rfl, show (Worker.finished node).item? = some node from rfl]
    simp only [reduceCtorEq, if_false, Option.some.injEq, List.count_cons, beq_iff_eq]
    omega
  · simp [Worker.item?]

theorem execute (inv : Inv strict sys nodes held) {name : ListName} {rest : List Nat} {lane : Nat} {count : Int} (queue : ∀ cache, name ≠ .cache cache)
    (split : nodes name = node :: rest)
    (placed : (sys.withList name result).Placed (Function.update nodes name rest) (node :: held))
    (found : sys.lanes[lane]? = some .running)
    (balance : count + sys.trace.count .findsNothing =
      (Function.update nodes name rest .itemQueue).length + sys.trace.countP Event.isFlush) :
    Inv strict (System.setLane { sys.withList name result with itemsQueuedCount := count } lane
      (.executing node)) (Function.update nodes name rest) held := by
  have queued : ∀ {other : ListName} {item : Nat}, item ∈ Function.update nodes name rest other →
      item ∈ nodes other := by
    intro other item member
    by_cases same : other = name
    · subst same
      rw [Function.update_self] at member
      rw [split]
      exact List.mem_cons_of_mem _ member
    · rw [Function.update_of_ne same] at member
      exact member
  have caches : ∀ cache, Function.update nodes name rest (.cache cache) = nodes (.cache cache) :=
    fun cache => Function.update_of_ne (queue cache).symm _ _
  have here : sys.Active nodes node := by
    rcases name with _ | _ | cache
    · exact .inl (by rw [split]; exact List.mem_cons_self)
    · exact .inr (.inl (by rw [split]; exact List.mem_cons_self))
    · exact absurd rfl (queue cache)
  have kept : ∀ {other : ListName} {item : Nat}, item ∈ nodes other → item ≠ node →
      item ∈ Function.update nodes name rest other := by
    intro other item member different
    by_cases same : other = name
    · subst same
      rw [split] at member
      rw [Function.update_self]
      exact (List.mem_cons.mp member).resolve_left different
    · rw [Function.update_of_ne same]
      exact member
  have active : ∀ item, (System.setLane { sys.withList name result with itemsQueuedCount := count } lane
      (.executing node)).Active (Function.update nodes name rest) item ↔ sys.Active nodes item := by
    intro item
    have lanes : Worker.executing item ∈ sys.lanes.set lane (.executing node) ↔
        Worker.executing item ∈ sys.lanes ∨ Worker.executing item = .executing node :=
      mem_set_iff found (by simp)
    constructor
    · rintro (member | member | member)
      · exact .inl (queued member)
      · exact .inr (.inl (queued member))
      · rcases lanes.mp member with member | same
        · exact .inr (.inr member)
        · cases same
          exact here
    · intro before
      by_cases same : item = node
      · exact .inr (.inr (lanes.mpr (.inr (by rw [same]))))
      · rcases before with member | member | member
        · exact .inl (kept member same)
        · exact .inr (.inl (kept member same))
        · exact .inr (.inr (lanes.mpr (.inl member)))
  refine inv.quiet ?_ balance ?_ ?_ ?_
  · have closure := inv.placed.ready node (.inl here)
    exact System.Placed.setLane_executing (placed.congr rfl) found (by simp) rfl closure
  · intro call item signaler owned waits member dispatched
    exact inv.linked call item signaler owned waits (queued member) dispatched
  · intro holds
    have reset := inv.reset holds
    refine ⟨?_, ?_, ?_⟩
    · intro item finished
      rcases List.mem_or_eq_of_mem_set finished with before | same
      · exact reset.finished item before
      · simp at same
    · intro other notItem usual item member
      exact reset.clean other notItem usual item (queued member)
    · intro signaler member
      rw [caches] at member
      exact reset.idle signaler member
  · intro _
    refine ⟨?_, fun _ _ _ => rfl, fun _ _ _ _ => rfl, rfl, fun _ member => member, rfl⟩
    intro item signaler
    simp only [System.Pends, active]
    exact Iff.rfl

theorem findsNothing (inv : Inv strict sys nodes held) :
    Inv strict (System.record { sys with itemsQueuedCount := sys.itemsQueuedCount - 1 } .findsNothing)
      nodes held := by
  refine inv.quiet (inv.placed.congr rfl) ?_ inv.linked ?_ ?_
  · have balance := inv.balance
    simp only [System.record, List.count_cons_self, List.countP_cons, Event.isFlush]
    push_cast
    omega
  · intro holds
    have reset := inv.reset holds
    exact ⟨reset.finished, reset.clean, reset.idle⟩
  · exact fun _ => ⟨fun _ _ => Iff.rfl, fun _ _ _ => rfl, fun _ _ _ _ => rfl, rfl, fun _ member => member,
      by simp [System.given, System.record, Event.isSignal]⟩

end Inv

/-! ## Giving a signal -/

namespace System.Placed

theorem call_unique {sys : System} {nodes : Nodes} {held : List Nat} (placed : sys.Placed nodes held)
    {first second signaler : Nat} {state state' : Call} (found : sys.calls[first]? = some state)
    (found' : sys.calls[second]? = some state') (waits : state.signaler? = some signaler)
    (waits' : state'.signaler? = some signaler) : first = second := by
  by_contra different
  have count := countP_set_add (fun call : Call => decide (call.signaler? = some signaler)) found
    (.returned none)
  have single := placed.chained.single signaler
  have member : state' ∈ sys.calls.set first (.returned none) := by
    refine List.mem_iff_getElem?.mpr ⟨second, ?_⟩
    rw [List.getElem?_set_ne different]
    exact found'
  have positive : 0 < (sys.calls.set first (.returned none)).countP
      (fun call : Call => decide (call.signaler? = some signaler)) :=
    List.countP_pos_iff.mpr ⟨state', member, by simpa using waits'⟩
  rw [if_pos (by simpa using waits), if_neg (by simp [Call.signaler?])] at count
  simp only [System.load] at single
  omega

end System.Placed

theorem System.Signals.answer {sys after : System} {nodes nodes' : Nodes} {held : List Nat}
    (signals : sys.Signals nodes) (placed : sys.Placed nodes held) {item signaler : Nat}
    (pending : sys.Pends nodes item signaler) (isInterrupted : Bool)
    (pends : ∀ other signaler', after.Pends nodes' other signaler' ↔
      sys.Pends nodes other signaler' ∧ other ≠ item)
    (dispatches : after.dispatches = sys.dispatches)
    (signalers : after.signalers =
      Function.update sys.signalers signaler ⟨(sys.signalers signaler).semaphore + 1, isInterrupted⟩)
    (calls : after.calls = sys.calls) (ran : sys.ran ⊆ after.ran)
    (answered : ∀ call, sys.dispatches item = some (.sync call signaler) →
      isInterrupted = true ∨ call ∈ after.ran)
    (given : after.given = .signals item signaler (sys.dispatches item) :: sys.given) :
    after.Signals nodes' := by
  obtain ⟨call, owned, waits, dispatched, permits⟩ := signals.pending item signaler pending
  have here : after.signalers signaler = ⟨1, isInterrupted⟩ := by
    rw [signalers, Function.update_self, permits]
  have elsewhere : ∀ {other : Nat}, other ≠ signaler → after.signalers other = sys.signalers other := by
    intro other different
    rw [signalers, Function.update_of_ne different]
  -- another call that waits has another signaler
  have apart : ∀ {other other' : Nat} {state : Call}, sys.calls[other]? = some state →
      state.signaler? = some other' → other ≠ call → other' ≠ signaler := by
    rintro other other' state found waits' different rfl
    exact different (placed.call_unique found waits waits' rfl)
  have permitted : ∀ {other : Nat}, (sys.signalers other).semaphore = 1 → other ≠ signaler := by
    rintro other one rfl
    omega
  refine ⟨?_, ?_, ?_, ?_, ?_, ?_, ?_, ?_⟩
  · intro other signaler' pends'
    obtain ⟨before, different⟩ := (pends other signaler').mp pends'
    obtain ⟨call', owned', waits', dispatched', permits'⟩ := signals.pending other signaler' before
    have distinct : call' ≠ call := by
      rintro rfl
      rw [waits] at waits'
      cases waits'
      exact different rfl
    refine ⟨call', owned', ?_, ?_, ?_⟩
    · rw [calls]
      exact waits'
    · rw [dispatches]
      exact dispatched'
    · rw [elsewhere (apart waits' rfl distinct)]
      exact permits'
  · intro call' item' signaler' owned' waits'
    rw [calls] at waits'
    by_cases same : call' = call
    · subst same
      rw [waits] at waits'
      cases waits'
      refine .inr ⟨by rw [here], ?_⟩
      rcases answered call' dispatched with interrupted | done
      · left
        rw [here]
        exact interrupted
      · exact .inr done
    · have different := apart waits' rfl same
      rcases signals.waiting call' item' signaler' owned' waits' with before | ⟨one, done⟩
      · refine .inl ((pends item' signaler').mpr ⟨before, ?_⟩)
        rintro rfl
        have equal := before.2.symm.trans pending.2
        exact different (Option.some.inj equal)
      · refine .inr ⟨by rw [elsewhere different]; exact one, ?_⟩
        rcases done with interrupted | done
        · left
          rw [elsewhere different]
          exact interrupted
        · exact .inr (ran done)
  · intro call' item' signaler' owned' woken
    rw [calls] at woken
    have same : call' ≠ call := by
      rintro rfl
      rw [waits] at woken
      simp at woken
    have different := apart woken rfl same
    obtain ⟨none, done⟩ := signals.woken call' item' signaler' owned' woken
    refine ⟨by rw [elsewhere different]; exact none, ?_⟩
    rcases done with interrupted | done
    · left
      rw [elsewhere different]
      exact interrupted
    · exact .inr (ran done)
  · intro call' item' signaler' owned'
    rw [calls]
    exact signals.uninterrupted call' item' signaler' owned'
  · intro call' returned
    rw [calls] at returned
    exact ran (signals.returned call' returned)
  · intro item' signaler' dispatch member
    rw [given] at member
    rcases List.mem_cons.mp member with same | before
    · cases same
      exact ⟨call, dispatched⟩
    · exact signals.own item' signaler' dispatch before
  · rw [given, dispatched]
    refine List.nodup_cons.mpr ?_
    refine ⟨?_, signals.once⟩
    intro before
    have one := (signals.past call before).2 item signaler owned waits
    omega
  · intro call' member
    rw [given, dispatched] at member
    rw [calls]
    rcases List.mem_cons.mp member with rfl | before
    · refine ⟨(List.getElem?_eq_some_iff.mp waits).1, ?_⟩
      intro item' signaler' owned' waits'
      rw [waits] at waits'
      cases waits'
      rw [here]
    · obtain ⟨inside, one⟩ := signals.past call' before
      refine ⟨inside, ?_⟩
      intro item' signaler' owned' waits'
      have permit := one item' signaler' owned' waits'
      rw [elsewhere (permitted permit)]
      exact permit

section SignalCompletion
variable {sys : System} {item signaler : Nat} (isInterrupted : Bool)

theorem signalCompletion_none (empty : (sys.items item).completion = none) :
    sys.signalCompletion item isInterrupted = sys := by
  simp only [System.signalCompletion, empty]

theorem signalCompletion_some (points : (sys.items item).completion = some signaler) :
    sys.signalCompletion item isInterrupted =
      { sys with
        items := Function.update sys.items item { sys.items item with completion := none }
        signalers := Function.update sys.signalers signaler
          ⟨(sys.signalers signaler).semaphore + 1, isInterrupted⟩
        trace := .signals item signaler (sys.dispatches item) :: sys.trace } := by
  simp only [System.signalCompletion, points]
  rfl

end SignalCompletion

namespace Inv

variable {strict : Prop} {sys after : System} {nodes nodes' : Nodes} {held held' : List Nat} {node : Nat}

variable {result : Links Nat × SList Nat} {item signaler : Nat} {owned : Bool}

/-- An item goes out of the item queue into the hand and is signaled as interrupted. -/
theorem retire (inv : Inv strict sys nodes held) {front back : List Nat}
    {count : Int} {trace : List Event} (split : nodes .itemQueue = front ++ node :: back)
    (placed : (sys.withList .itemQueue result).Placed
      (Function.update nodes .itemQueue (front ++ back)) (node :: held))
    (balance : count + trace.count .findsNothing = (front ++ back).length + trace.countP Event.isFlush)
    (given : trace.filter Event.isSignal = sys.given) :
    Inv strict (System.signalCompletion
        { sys.withList .itemQueue result with itemsQueuedCount := count, trace := trace } node true)
      (Function.update nodes .itemQueue (front ++ back)) (node :: held) := by
  generalize base_eq : System.mk _ _ _ _ _ _ _ _ _ _ _ _ _ _ _ _ _ _ = base
  generalize nodes_eq : Function.update nodes .itemQueue (front ++ back) = nodes₁ at placed ⊢
  have queue : nodes₁ .itemQueue = front ++ back := by
    rw [← nodes_eq, Function.update_self]
  have others : ∀ name, name ≠ .itemQueue → nodes₁ name = nodes name := by
    intro name different
    rw [← nodes_eq, Function.update_of_ne different]
  have base_placed : base.Placed nodes₁ (node :: held) := by
    rw [← base_eq]
    exact placed.congr rfl
  have fields : base.items = sys.items ∧ base.signalers = sys.signalers ∧ base.lanes = sys.lanes ∧
      base.calls = sys.calls ∧ base.dispatches = sys.dispatches ∧ base.ran = sys.ran ∧
      base.given = sys.given ∧ base.itemsQueuedCount = count ∧ base.trace = trace := by
    rw [← base_eq]
    exact ⟨rfl, rfl, rfl, rfl, rfl, rfl, given, rfl, rfl⟩
  obtain ⟨items, signalers, lanes, calls, dispatches, ran, given', count', trace'⟩ := fields
  have here : sys.Active nodes node := by
    left
    rw [split]
    simp
  have inactive : ∀ {other : Nat}, base.Active nodes₁ other → other ≠ node := by
    rintro other active rfl
    exact base_placed.not_active active
  have active : ∀ other, base.Active nodes₁ other ↔ sys.Active nodes other ∧ other ≠ node := by
    intro other
    constructor
    · intro active
      refine ⟨?_, inactive active⟩
      rcases active with member | member | member
      · left
        rw [queue] at member
        rw [split]
        rcases List.mem_append.mp member with member | member
        · exact List.mem_append_left _ member
        · exact List.mem_append_right _ (List.mem_cons_of_mem _ member)
      · rw [others _ (by simp)] at member
        exact .inr (.inl member)
      · rw [lanes] at member
        exact .inr (.inr member)
    · rintro ⟨member | member | member, different⟩
      · left
        rw [split] at member
        rw [queue]
        rcases List.mem_append.mp member with member | member
        · exact List.mem_append_left _ member
        · exact List.mem_append_right _ ((List.mem_cons.mp member).resolve_left different)
      · refine .inr (.inl ?_)
        rw [others _ (by simp)]
        exact member
      · refine .inr (.inr ?_)
        rw [lanes]
        exact member
  have linked : ∀ (call item signaler : Nat) (owned : Bool),
      sys.calls[call]? = some (.waiting item signaler owned) → item ∈ nodes₁ .itemQueue →
        sys.dispatches item = some (.sync call signaler) →
          (sys.items item).completion = some signaler ∧ item ≠ node := by
    intro call item signaler owned waits member dispatched
    have different := inactive (.inl member)
    rw [queue] at member
    refine ⟨inv.linked call item signaler owned waits ?_ dispatched, different⟩
    rw [split]
    rcases List.mem_append.mp member with member | member
    · exact List.mem_append_left _ member
    · exact List.mem_append_right _ (List.mem_cons_of_mem _ member)
  have reset : strict → base.Reset nodes₁ := by
    intro holds
    have before := inv.reset holds
    refine ⟨?_, ?_, ?_⟩
    · rw [lanes, items]
      exact before.finished
    · intro name notItem usual item member
      rw [others name notItem] at member
      rw [items]
      exact before.clean name notItem usual item member
    · intro signaler member
      rw [others _ (by simp)] at member
      rw [signalers]
      exact before.idle signaler member
  cases points : (sys.items node).completion with
  | none =>
    rw [signalCompletion_none true (by rw [items]; exact points)]
    refine inv.quiet base_placed ?_ ?_ reset ?_
    · rw [count', trace', queue]
      exact balance
    · intro call item signaler owned waits member dispatched
      rw [calls] at waits
      rw [dispatches] at dispatched
      rw [items]
      exact (linked call item signaler owned waits member dispatched).1
    · intro _
      refine ⟨?_, fun item _ _ => congrFun dispatches item, fun _ _ signaler _ => congrFun signalers signaler,
        calls, by rw [ran]; exact fun _ member => member, given'⟩
      intro item signaler
      simp only [System.Pends, active, items]
      constructor
      · rintro ⟨⟨busy, -⟩, points'⟩
        exact ⟨busy, points'⟩
      · rintro ⟨busy, points'⟩
        refine ⟨⟨busy, ?_⟩, points'⟩
        rintro rfl
        rw [points] at points'
        simp at points'
  | some signaler =>
    rw [signalCompletion_some true (by rw [items]; exact points)]
    have elsewhere : ∀ {other : Nat}, other ≠ node →
        Function.update base.items node { base.items node with completion := none } other =
          sys.items other := by
      intro other different
      rw [Function.update_of_ne different, items]
    refine ⟨?_, ?_, ?_, ?_, ?_⟩
    · have cleared : (base.setItem node fun value => { value with completion := none }).Placed _ _ :=
        base_placed.setItem node rfl id rfl
      exact cleared.congr rfl
    · simp only [List.count_cons, List.countP_cons, Event.isFlush, count', trace', queue]
      simpa using balance
    · intro call item signaler' owned waits member dispatched
      obtain ⟨kept, different⟩ := linked call item signaler' owned (calls ▸ waits) member
        (dispatches ▸ dispatched)
      simp only [elsewhere different]
      exact kept
    · intro holds
      have before := reset holds
      refine ⟨?_, ?_, ?_⟩
      · intro item finished
        have different : item ≠ node := by
          rintro rfl
          exact base_placed.not_in_lanes finished rfl
        simp only [elsewhere different, ← items]
        exact before.finished item finished
      · intro name notItem usual item member
        have different : item ≠ node := by
          rintro rfl
          exact base_placed.chained.held_not_mem _ member
        simp only [elsewhere different, ← items]
        exact before.clean name notItem usual item member
      · intro other member
        have different : other ≠ signaler := by
          rintro rfl
          obtain ⟨call, owned, waits, -⟩ := (inv.signals holds).pending node other ⟨here, points⟩
          rw [← calls] at waits
          exact base_placed.signaler_not_mem (List.mem_of_getElem? waits) rfl _ member
        simp only [Function.update_of_ne different]
        exact before.idle other member
    · intro holds
      refine (inv.signals holds).answer inv.placed ⟨here, points⟩ true ?_ dispatches ?_ calls ?_ ?_ ?_
      · intro other signaler'
        constructor
        · rintro ⟨busy, points'⟩
          obtain ⟨busy', different⟩ := (active other).mp busy
          simp only [elsewhere different] at points'
          exact ⟨⟨busy', points'⟩, different⟩
        · rintro ⟨⟨busy, points'⟩, different⟩
          refine ⟨(active other).mpr ⟨busy, different⟩, ?_⟩
          simp only [elsewhere different]
          exact points'
      · simp only [signalers]
      · simp only [ran]
        exact fun _ member => member
      · exact fun _ _ => .inl rfl
      · simp only [System.given, List.filter_cons, Event.isSignal, if_true, dispatches]
        exact congrArg _ given'

/-- A worker has run the closure of its item and gives the signal. -/
theorem finish (inv : Inv strict sys nodes held) {lane : Nat} {ran : List Nat}
    (found : sys.lanes[lane]? = some (.executing node)) (more : sys.ran ⊆ ran)
    (runs : ∀ call signaler, sys.dispatches node = some (.sync call signaler) → call ∈ ran) :
    Inv strict ((System.signalCompletion { sys with ran := ran } node false).setLane lane (.finished node))
      nodes held := by
  have here : sys.Active nodes node := .inr (.inr (List.mem_of_getElem? found))
  have lanes : ∀ {other : Nat}, other ≠ node →
      (Worker.executing other ∈ sys.lanes.set lane (.finished node) ↔ Worker.executing other ∈ sys.lanes) := by
    intro other different
    rw [mem_set_iff found (by simpa using different)]
    simp
  have finished : ∀ {other : Nat}, Worker.finished other ∈ sys.lanes.set lane (.finished node) →
      Worker.finished other ∈ sys.lanes ∨ other = node := by
    intro other member
    rcases List.mem_or_eq_of_mem_set member with before | same
    · exact .inl before
    · cases same
      exact .inr rfl
  have moved : ∀ {state : System}, state.Placed nodes held → state.lanes = sys.lanes →
      (state.setLane lane (.finished node)).Placed nodes held := by
    intro state placed same
    have found' : state.lanes[lane]? = some (.executing node) := by
      rw [same]
      exact found
    refine placed.relane found' ?_ ?_ ?_
    · simp
    · exact fun _ => rfl
    · intro item has
      cases has
      exact placed.ready node (.inl (.inr (.inr (List.mem_of_getElem? found'))))
  cases points : (sys.items node).completion with
  | none =>
    have silent : System.signalCompletion { sys with ran := ran } node false = { sys with ran := ran } :=
      signalCompletion_none false points
    rw [silent]
    refine inv.quiet (moved (inv.placed.congr rfl) rfl) inv.balance inv.linked ?_ ?_
    · intro holds
      have reset := inv.reset holds
      refine ⟨?_, reset.clean, reset.idle⟩
      intro item member
      rcases finished member with before | rfl
      · exact reset.finished item before
      · exact points
    · intro _
      refine ⟨?_, fun _ _ _ => rfl, fun _ _ _ _ => rfl, rfl, more, rfl⟩
      intro item signaler
      by_cases same : item = node
      · subst same
        have no : ∀ signaler', (sys.items item).completion ≠ some signaler' := by
          rw [points]
          simp
        exact ⟨fun pends => absurd pends.2 (no _), fun pends => absurd pends.2 (no _)⟩
      · simp only [System.Pends, System.Active, System.setLane, lanes same]
  | some signaler =>
    have signaled := signalCompletion_some false (show
      (({ sys with ran := ran } : System).items node).completion = some signaler from points)
    rw [signaled]
    have elsewhere : ∀ {other : Nat}, other ≠ node →
        Function.update sys.items node { sys.items node with completion := none } other =
          sys.items other :=
      fun different => Function.update_of_ne different _ _
    refine ⟨?_, ?_, ?_, ?_, ?_⟩
    · refine moved ?_ rfl
      have cleared : (sys.setItem node fun value => { value with completion := none }).Placed nodes held :=
        inv.placed.setItem node rfl id rfl
      exact cleared.congr rfl
    · have balance := inv.balance
      simp only [System.setLane, List.count_cons, List.countP_cons, Event.isFlush]
      simpa using balance
    · intro call item signaler' owned waits member dispatched
      have different : item ≠ node := by
        rintro rfl
        have positive : 0 < sys.lanes.countP (·.item? = some item) :=
          List.countP_pos_iff.mpr ⟨_, List.mem_of_getElem? found, by simp [Worker.item?]⟩
        have positive' := List.count_pos_iff.mpr member
        have le := nodes.count_le .itemQueue item
        have single := inv.placed.chained.single item
        simp only [System.load] at single
        omega
      simp only [System.setLane, elsewhere different]
      exact inv.linked call item signaler' owned waits member dispatched
    · intro holds
      have reset := inv.reset holds
      have same : ∀ item, (sys.items item).completion = none →
          (Function.update sys.items node { sys.items node with completion := none } item).completion =
            none := by
        intro item empty
        by_cases equal : item = node
        · subst equal
          rw [Function.update_self]
        · rw [elsewhere equal]
          exact empty
      refine ⟨?_, ?_, ?_⟩
      · intro item member
        rcases finished member with before | rfl
        · exact same item (reset.finished item before)
        · simp [System.setLane]
      · intro name notItem usual item member
        exact same item (reset.clean name notItem usual item member)
      · intro other member
        have different : other ≠ signaler := by
          rintro rfl
          obtain ⟨call, owned, waits, -⟩ := (inv.signals holds).pending node other ⟨here, points⟩
          exact inv.placed.signaler_not_mem (List.mem_of_getElem? waits) rfl _ member
        simp only [System.setLane, Function.update_of_ne different]
        exact reset.idle other member
    · intro holds
      refine (inv.signals holds).answer inv.placed ⟨here, points⟩ false ?_ rfl rfl rfl more ?_ ?_
      · intro other signaler'
        by_cases same : other = node
        · subst same
          simp [System.Pends, System.setLane]
        · simp only [System.Pends, System.Active, System.setLane, lanes same, elsewhere same, ne_eq, same,
            not_false_eq_true, and_true]
      · exact fun call dispatched => .inr (runs call signaler dispatched)
      · rfl

/-! ### Timers -/

theorem moveTimers (inv : Inv strict sys nodes held) {changed : List Nat}
    (placed : (sys.withList .timerQueue result).Placed (Function.update nodes .timerQueue changed) held')
    (clean : strict → ∀ item ∈ changed, (sys.items item).completion = none) :
    Inv strict (sys.withList .timerQueue result) (Function.update nodes .timerQueue changed) held' := by
  refine inv.quiet placed ?_ ?_ ?_ ?_
  · exact inv.balance
  · intro call item signaler owned waits member dispatched
    exact inv.linked call item signaler owned waits member dispatched
  · intro holds
    have reset := inv.reset holds
    refine ⟨reset.finished, ?_, ?_⟩
    · intro name notItem usual item member
      by_cases same : name = .timerQueue
      · subst same
        exact clean holds item member
      · rw [Function.update_of_ne same] at member
        exact reset.clean name notItem usual item member
    · intro signaler member
      exact reset.idle signaler member
  · intro holds
    refine ⟨?_, fun _ _ _ => rfl, fun _ _ _ _ => rfl, rfl, fun _ member => member, rfl⟩
    intro item signaler
    have points : (sys.items item).completion = some signaler →
        item ∉ changed ∧ item ∉ nodes .timerQueue := by
      intro points
      constructor
      · intro member
        rw [clean holds item member] at points
        simp at points
      · intro member
        rw [(inv.reset holds).clean .timerQueue (by simp) (by simp) item member] at points
        simp at points
    constructor
    · rintro ⟨member | member | member, points'⟩
      · exact ⟨.inl member, points'⟩
      · exact absurd member (points points').1
      · exact ⟨.inr (.inr member), points'⟩
    · rintro ⟨member | member | member, points'⟩
      · exact ⟨.inl member, points'⟩
      · exact absurd member (points points').2
      · exact ⟨.inr (.inr member), points'⟩

theorem dispatchTimer (inv : Inv strict sys nodes held) {timer : Nat} (member : timer ∈ nodes .timerQueue) :
    Inv strict { sys with dispatches := Function.update sys.dispatches timer (some .async) } nodes held := by
  refine inv.quiet (inv.placed.congr rfl) inv.balance ?_ ?_ ?_
  · intro call item signaler owned waits queued dispatched
    have different : item ≠ timer := by
      rintro rfl
      exact inv.placed.chained.disjoint (by simp) member queued
    simp only [Function.update_of_ne different] at dispatched
    exact inv.linked call item signaler owned waits queued dispatched
  · intro holds
    have reset := inv.reset holds
    exact ⟨reset.finished, reset.clean, reset.idle⟩
  · intro holds
    refine ⟨fun _ _ => Iff.rfl, ?_, fun _ _ _ _ => rfl, rfl, fun _ member => member, rfl⟩
    intro item signaler pends
    have different : item ≠ timer := by
      rintro rfl
      have empty := (inv.reset holds).clean .timerQueue (by simp) (by simp) item member
      rw [pends.2] at empty
      simp at empty
    simp only [Function.update_of_ne different]

/-! ### Calls -/

theorem getElem?_set_eq {calls : List Call} {old new found : Call} {call other : Nat}
    (here : calls[call]? = some old) :
    (calls.set call new)[other]? = some found ↔
      (other ≠ call ∧ calls[other]? = some found) ∨ (other = call ∧ found = new) := by
  have inside := (List.getElem?_eq_some_iff.mp here).1
  by_cases same : other = call
  · subst same
    rw [List.getElem?_set_self inside]
    simp [eq_comm]
  · rw [List.getElem?_set_ne (Ne.symm same)]
    simp [same]

theorem acquireSemaphore (inv : Inv strict sys nodes held) {call : Nat}
    (waits : sys.calls[call]? = some (.waiting item signaler owned))
    (permit : 0 < (sys.signalers signaler).semaphore) :
    Inv strict { sys.setSignaler signaler fun value => { value with semaphore := value.semaphore - 1 } with
      calls := sys.calls.set call (.woken item signaler owned) } nodes held := by
  have changed : ∀ {other : Nat}, other ≠ signaler → (sys.setSignaler signaler fun value =>
      { value with semaphore := value.semaphore - 1 }).signalers other = sys.signalers other :=
    fun different => Function.update_of_ne different _ _
  have apart : ∀ {other other' : Nat} {state : Call}, sys.calls[other]? = some state →
      state.signaler? = some other' → other ≠ call → other' ≠ signaler := by
    rintro other other' state found waits' different rfl
    exact different (inv.placed.call_unique found waits waits' rfl)
  refine ⟨?_, inv.balance, ?_, ?_, ?_⟩
  · refine (inv.placed.setSignaler signaler _).continueCall waits (fun _ => rfl) ?_
    exact fun _ same => same
  · intro call' item' signaler' owned' waits' member dispatched
    rcases (getElem?_set_eq waits).mp waits' with ⟨-, before⟩ | ⟨-, same⟩
    · exact inv.linked call' item' signaler' owned' before member dispatched
    · simp at same
  · intro holds
    have reset := inv.reset holds
    refine ⟨reset.finished, reset.clean, ?_⟩
    intro other member
    have different : other ≠ signaler := by
      rintro rfl
      exact inv.placed.signaler_not_mem (List.mem_of_getElem? waits) rfl _ member
    simp only [changed different]
    exact reset.idle other member
  · intro holds
    have signals := inv.signals holds
    obtain ⟨one, answered⟩ : (sys.signalers signaler).semaphore = 1 ∧ sys.Answered call signaler := by
      rcases signals.waiting call item signaler owned waits with pends | done
      · obtain ⟨-, -, -, -, none⟩ := signals.pending item signaler pends
        omega
      · exact done
    have interrupted : ((sys.setSignaler signaler fun value =>
        { value with semaphore := value.semaphore - 1 }).signalers signaler).isInterrupted =
          (sys.signalers signaler).isInterrupted := by
      simp [System.setSignaler]
    refine ⟨?_, ?_, ?_, ?_, ?_, signals.own, signals.once, ?_⟩
    · intro item' signaler' pends
      obtain ⟨call', owned', waits', dispatched, none⟩ := signals.pending item' signaler' pends
      have other : call' ≠ call := by
        rintro rfl
        rw [waits] at waits'
        cases waits'
        omega
      refine ⟨call', owned', (getElem?_set_eq waits).mpr (.inl ⟨other, waits'⟩), dispatched, ?_⟩
      simp only [changed (apart waits' rfl other)]
      exact none
    · intro call' item' signaler' owned' waits'
      rcases (getElem?_set_eq waits).mp waits' with ⟨other, before⟩ | ⟨-, same⟩
      · have different := apart before rfl other
        rcases signals.waiting call' item' signaler' owned' before with pends | ⟨permits, done⟩
        · exact .inl pends
        · refine .inr ?_
          simp only [System.Answered, changed different]
          exact ⟨permits, done⟩
      · simp at same
    · intro call' item' signaler' owned' woken
      rcases (getElem?_set_eq waits).mp woken with ⟨other, before⟩ | ⟨rfl, same⟩
      · have different := apart before rfl other
        simp only [System.Answered, changed different]
        exact signals.woken call' item' signaler' owned' before
      · cases same
        refine ⟨?_, ?_⟩
        · simp [System.setSignaler, one]
        · simp only [System.Answered, interrupted]
          exact answered
    · intro call' item' signaler' owned' broken
      rcases (getElem?_set_eq waits).mp broken with ⟨-, before⟩ | ⟨-, same⟩
      · exact signals.uninterrupted call' item' signaler' owned' before
      · simp at same
    · intro call' returned
      rcases (getElem?_set_eq waits).mp returned with ⟨-, before⟩ | ⟨-, same⟩
      · exact signals.returned call' before
      · simp at same
    · intro call' given
      obtain ⟨inside, permits⟩ := signals.past call' given
      refine ⟨by rw [List.length_set]; exact inside, ?_⟩
      intro item' signaler' owned' waits'
      rcases (getElem?_set_eq waits).mp waits' with ⟨other, before⟩ | ⟨-, same⟩
      · simp only [changed (apart before rfl other)]
        exact permits item' signaler' owned' before
      · simp at same

theorem interruptSemaphore (inv : Inv strict sys nodes held) {call : Nat}
    (waits : sys.calls[call]? = some (.waiting item signaler owned)) (loose : ¬ strict) :
    Inv strict { sys with calls := sys.calls.set call (.interrupted item signaler owned) } nodes held := by
  refine ⟨?_, inv.balance, ?_, fun holds => absurd holds loose, fun holds => absurd holds loose⟩
  · exact inv.placed.continueCall waits (fun _ => rfl) fun _ same => same
  · intro call' item' signaler' owned' waits' member dispatched
    rcases (getElem?_set_eq waits).mp waits' with ⟨-, before⟩ | ⟨-, same⟩
    · exact inv.linked call' item' signaler' owned' before member dispatched
    · simp at same

theorem leaveCall (inv : Inv strict sys nodes held) {call : Nat} {old new : Call}
    (found : sys.calls[call]? = some old) (has : old.signaler? = some signaler)
    (behind : ∀ item signaler owned, old ≠ .waiting item signaler owned) (idle : new.signaler? = none)
    (done : strict → new = .returned none → call ∈ sys.ran) :
    Inv strict { sys with calls := sys.calls.set call new } nodes (signaler :: held) := by
  have notWaiting : ∀ {call' item signaler : Nat} {owned : Bool},
      (sys.calls.set call new)[call']? = some (.waiting item signaler owned) ↔
        sys.calls[call']? = some (.waiting item signaler owned) := by
    intro call' item signaler owned
    rw [getElem?_set_eq found]
    constructor
    · rintro (⟨-, before⟩ | ⟨-, same⟩)
      · exact before
      · rw [← same] at idle
        simp [Call.signaler?] at idle
    · intro before
      refine .inl ⟨?_, before⟩
      rintro rfl
      rw [found] at before
      exact behind _ _ _ (Option.some.inj before)
  refine ⟨?_, inv.balance, ?_, ?_, ?_⟩
  · refine inv.placed.continueCall found ?_ ?_
    · rw [idle, has]
      simp only [reduceCtorEq, if_false, Option.some.injEq, List.count_cons, beq_iff_eq]
      omega
    · intro other same
      rw [idle] at same
      simp at same
  · intro call' item' signaler' owned' waits' member dispatched
    exact inv.linked call' item' signaler' owned' (notWaiting.mp waits') member dispatched
  · intro holds
    have reset := inv.reset holds
    exact ⟨reset.finished, reset.clean, reset.idle⟩
  · intro holds
    have signals := inv.signals holds
    refine ⟨?_, ?_, ?_, ?_, ?_, signals.own, signals.once, ?_⟩
    · intro item' signaler' pends
      obtain ⟨call', owned', waits', rest⟩ := signals.pending item' signaler' pends
      exact ⟨call', owned', notWaiting.mpr waits', rest⟩
    · intro call' item' signaler' owned' waits'
      exact signals.waiting call' item' signaler' owned' (notWaiting.mp waits')
    · intro call' item' signaler' owned' woken
      rcases (getElem?_set_eq found).mp woken with ⟨-, before⟩ | ⟨-, same⟩
      · exact signals.woken call' item' signaler' owned' before
      · rw [← same] at idle
        simp [Call.signaler?] at idle
    · intro call' item' signaler' owned' broken
      rcases (getElem?_set_eq found).mp broken with ⟨-, before⟩ | ⟨-, same⟩
      · exact signals.uninterrupted call' item' signaler' owned' before
      · rw [← same] at idle
        simp [Call.signaler?] at idle
    · intro call' returned
      rcases (getElem?_set_eq found).mp returned with ⟨-, before⟩ | ⟨rfl, same⟩
      · exact signals.returned call' before
      · exact done holds same.symm
    · intro call' given
      obtain ⟨inside, permits⟩ := signals.past call' given
      refine ⟨by rw [List.length_set]; exact inside, ?_⟩
      intro item' signaler' owned' waits'
      exact permits item' signaler' owned' (notWaiting.mp waits')

theorem startCall (inv : Inv strict sys nodes held) {error : Option Errno} (fails : strict → error ≠ none) :
    Inv strict { sys with calls := sys.calls ++ [.returned error] } nodes held := by
  have same : ∀ {call : Nat} {state : Call}, (∀ error, state ≠ .returned error) →
      ((sys.calls ++ [.returned error])[call]? = some state ↔ sys.calls[call]? = some state) := by
    intro call state other
    rw [getElem?_concat]
    constructor
    · rintro (before | ⟨-, same⟩)
      · exact before
      · exact absurd same (other _)
    · exact .inl
  refine ⟨inv.placed.startCall rfl, inv.balance, ?_, ?_, ?_⟩
  · intro call item signaler owned waits member dispatched
    exact inv.linked call item signaler owned ((same (by simp)).mp waits) member dispatched
  · intro holds
    have reset := inv.reset holds
    exact ⟨reset.finished, reset.clean, reset.idle⟩
  · intro holds
    have signals := inv.signals holds
    refine ⟨?_, ?_, ?_, ?_, ?_, signals.own, signals.once, ?_⟩
    · intro item signaler pends
      obtain ⟨call, owned, waits, rest⟩ := signals.pending item signaler pends
      exact ⟨call, owned, (same (by simp)).mpr waits, rest⟩
    · intro call item signaler owned waits
      exact signals.waiting call item signaler owned ((same (by simp)).mp waits)
    · intro call item signaler owned woken
      exact signals.woken call item signaler owned ((same (by simp)).mp woken)
    · intro call item signaler owned broken
      exact signals.uninterrupted call item signaler owned ((same (by simp)).mp broken)
    · intro call returned
      rcases getElem?_concat.mp returned with before | ⟨-, equal⟩
      · exact signals.returned call before
      · cases equal
        exact absurd rfl (fails holds)
    · intro call given
      obtain ⟨inside, permits⟩ := signals.past call given
      refine ⟨by rw [List.length_append]; omega, ?_⟩
      intro item signaler owned waits
      exact permits item signaler owned ((same (by simp)).mp waits)

theorem adopt (inv : Inv strict sys nodes (node :: held))
    (notOwned : (sys.items node).isOwnedByQueue = false)
    (closure : (sys.items node).closure.isSome = true) :
    Inv strict { sys with clientItems := node :: sys.clientItems } nodes held := by
  have dropped := inv.drop
  have placed := dropped.placed
  have nowhere : sys.load nodes held node = 0 := by
    have single := inv.placed.chained.single node
    simp only [System.load, List.count_cons_self] at single ⊢
    omega
  refine dropped.frame ?_ rfl rfl rfl rfl rfl rfl rfl rfl
  refine ⟨placed.chained.congr rfl rfl rfl fun _ => rfl, placed.counted, placed.bounded, ?_, placed.ready,
    placed.staffed_of rfl rfl rfl rfl, placed.drained⟩
  intro item member
  rcases List.mem_cons.mp member with rfl | member
  · refine ⟨inv.placed.chained.live item ?_, notOwned, closure,
      fun cache => inv.placed.chained.held_not_mem _, fun call member => inv.placed.not_in_calls member, ?_⟩
    · simp only [System.load, List.count_cons_self]
      omega
    · intro occupied
      change 0 < sys.load nodes held item at occupied
      omega
  · have foreign := placed.foreign item member
    exact ⟨foreign.allocated, foreign.notOwned, foreign.closure, foreign.uncached, foreign.noSignaler,
      foreign.marked⟩

end Inv

end Apollo.Dispatchqueue
