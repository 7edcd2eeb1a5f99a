import Apollo.Dispatchqueue.DispatchQueue
import Mathlib.Data.List.Count

/-!
# Every node is in one place

The places of a node are the five lists, a worker that executes it, a call that
waits for it, and the hands of the function that runs.  `load` counts them.  As
long as no node has more than one, the pointers of the nodes hold the lists.
-/

set_option autoImplicit false

namespace Apollo.Dispatchqueue

open Klib
open Lib

abbrev Nodes : Type := ListName → List Nat

def Worker.item? : Worker → Option Nat
  | .executing item => some item
  | .finished item => some item
  | _ => none

def Call.signaler? : Call → Option Nat
  | .waiting _ signaler _ => some signaler
  | .woken _ signaler _ => some signaler
  | .interrupted _ signaler _ => some signaler
  | _ => none

def Nodes.count (nodes : Nodes) (node : Nat) : Nat :=
  (nodes .itemQueue).count node + (nodes .timerQueue).count node + (nodes (.cache .items)).count node +
    (nodes (.cache .timers)).count node + (nodes (.cache .completionSignalers)).count node

def System.load (sys : System) (nodes : Nodes) (held : List Nat) (node : Nat) : Nat :=
  nodes.count node + sys.lanes.countP (·.item? = some node) + sys.calls.countP (·.signaler? = some node) +
    held.count node

section Count
variable {nodes : Nodes} {name : ListName} {node : Nat}

theorem Nodes.count_update (nodes : Nodes) (name : ListName) (list : List Nat) (node : Nat) :
    Nodes.count (Function.update nodes name list) node + (nodes name).count node =
      nodes.count node + list.count node := by
  rcases name with _ | _ | _ | _ | _ <;> simp [Nodes.count, Function.update] <;> omega

theorem Nodes.count_le (nodes : Nodes) (name : ListName) (node : Nat) :
    (nodes name).count node ≤ nodes.count node := by
  rcases name with _ | _ | _ | _ | _ <;> simp only [Nodes.count] <;> omega

theorem Nodes.count_le_of_ne (nodes : Nodes) {name other : ListName} (different : name ≠ other)
    (node : Nat) : (nodes name).count node + (nodes other).count node ≤ nodes.count node := by
  have count := nodes.count_update name [] node
  have le := Nodes.count_le (Function.update nodes name []) other node
  rw [Function.update_of_ne different.symm] at le
  simp only [List.count_nil] at count
  omega

end Count

/-- The pointers hold the lists, and every node is in at most one place and allocated. -/
structure System.Chained (sys : System) (nodes : Nodes) (held : List Nat) : Prop where
  lists : ∀ name, (sys.lists name).Holds sys.links (nodes name)
  single : ∀ node, sys.load nodes held node ≤ 1
  live : ∀ node, 0 < sys.load nodes held node → node ∈ sys.allocated

namespace System.Chained

variable {sys after : System} {nodes nodes' : Nodes} {held held' : List Nat} {name : ListName}
  {node : Nat} {rest front back : List Nat}

theorem congr (chained : sys.Chained nodes held) (links : after.links = sys.links)
    (lists : after.lists = sys.lists) (allocated : after.allocated = sys.allocated)
    (load : ∀ node, after.load nodes held' node = sys.load nodes held node) :
    after.Chained nodes held' := by
  refine ⟨?_, ?_, ?_⟩
  · rw [links, lists]
    exact chained.lists
  · intro node
    rw [load]
    exact chained.single node
  · intro node occupied
    rw [load] at occupied
    rw [allocated]
    exact chained.live node occupied

theorem held_not_mem (chained : sys.Chained nodes (node :: held)) (name : ListName) :
    node ∉ nodes name := by
  intro member
  have single := chained.single node
  have positive := List.count_pos_iff.mpr member
  have le := nodes.count_le name node
  simp only [System.load, List.count_cons_self] at single
  omega

theorem disjoint (chained : sys.Chained nodes held) {other : ListName} (different : name ≠ other)
    (member : node ∈ nodes name) : node ∉ nodes other := by
  intro member'
  have single := chained.single node
  have positive := List.count_pos_iff.mpr member
  have positive' := List.count_pos_iff.mpr member'
  have le := nodes.count_le_of_ne different node
  simp only [System.load] at single
  omega

theorem withList (chained : sys.Chained nodes held) {links : Links Nat} {list : SList Nat}
    {changed : List Nat} (holds : list.Holds links changed)
    (others : ∀ other ≠ name, ∀ node ∈ nodes other, links node = sys.links node)
    (moves : ∀ node, changed.count node + held'.count node = (nodes name).count node + held.count node) :
    (sys.withList name (links, list)).Chained (Function.update nodes name changed) held' := by
  have load : ∀ node, (sys.withList name (links, list)).load (Function.update nodes name changed) held' node =
      sys.load nodes held node := by
    intro node
    have count := nodes.count_update name changed node
    have move := moves node
    simp only [System.load, System.withList]
    omega
  refine ⟨?_, ?_, ?_⟩
  · intro other
    by_cases same : other = name
    · subst same
      simpa [System.withList] using holds
    · simp only [System.withList, Function.update_of_ne same]
      exact (chained.lists other).congr (others other same)
  · intro node
    rw [load]
    exact chained.single node
  · intro node occupied
    rw [load] at occupied
    exact chained.live node occupied

theorem insertBeforeFirst (chained : sys.Chained nodes (node :: held)) (name : ListName) :
    (sys.insertBeforeFirst name node).Chained (Function.update nodes name (node :: nodes name)) held := by
  refine chained.withList ((chained.lists name).insertBeforeFirst (chained.held_not_mem name)) ?_ ?_
  · intro other _ node' member
    apply Function.update_of_ne
    rintro rfl
    exact chained.held_not_mem other member
  · simp only [List.count_cons]
    omega

theorem insertAfter (chained : sys.Chained nodes (node :: held)) (split : nodes name = front ++ back) :
    (sys.insertAfter name node front.getLast?).Chained
      (Function.update nodes name (front ++ node :: back)) held := by
  have holds := chained.lists name
  have fresh := chained.held_not_mem name
  rw [split] at holds fresh
  refine chained.withList (holds.insertAfter fresh) ?_ ?_
  · intro other different node' member
    apply SList.insertAfter_links
    · rintro rfl
      exact chained.held_not_mem other member
    · intro last
      refine chained.disjoint different member ?_
      rw [split]
      exact List.mem_append_left _ (List.mem_of_getLast? last)
  · rw [split]
    simp only [List.count_append, List.count_cons]
    omega

theorem removeFirst (chained : sys.Chained nodes held) (split : nodes name = node :: rest) :
    ∃ result, sys.removeFirst name = (some node, sys.withList name result) ∧
      (sys.withList name result).Chained (Function.update nodes name rest) (node :: held) := by
  have holds := chained.lists name
  rw [split] at holds
  obtain ⟨links, list, removes, holds', kept⟩ := holds.removeFirst
  refine ⟨(links, list), ?_, chained.withList holds' ?_ ?_⟩
  · simp only [System.removeFirst, removes]
  · intro other different node' member
    apply kept
    rintro rfl
    refine chained.disjoint different member ?_
    rw [split]
    exact List.mem_cons_self
  · rw [split]
    simp only [List.count_cons]
    omega

theorem removeFirst_nil (chained : sys.Chained nodes held) (empty : nodes name = []) :
    sys.removeFirst name = (none, sys) := by
  have holds := chained.lists name
  rw [empty] at holds
  simp only [System.removeFirst, holds.removeFirst_nil, System.withList, Function.update_eq_self]

theorem remove (chained : sys.Chained nodes held) (split : nodes name = front ++ node :: back) :
    ∃ result, (sys.lists name).remove sys.links front.getLast? node = some result ∧
      (sys.withList name result).Chained (Function.update nodes name (front ++ back)) (node :: held) ∧
      ∀ other, front.getLast? ≠ some other → result.1 other = sys.links other := by
  have holds := chained.lists name
  rw [split] at holds
  obtain ⟨links, list, removes, holds', kept⟩ := holds.remove
  refine ⟨(links, list), removes, chained.withList holds' ?_ ?_, kept⟩
  · intro other different node' member
    apply kept
    intro last
    refine chained.disjoint different member ?_
    rw [split]
    exact List.mem_append_left _ (List.mem_of_getLast? last)
  · rw [split]
    simp only [List.count_append, List.count_cons]
    omega

theorem unlink (chained : sys.Chained nodes (node :: held)) : (sys.unlink node).Chained nodes (node :: held) := by
  refine ⟨?_, chained.single, chained.live⟩
  intro name
  refine (chained.lists name).congr ?_
  intro other member
  apply Function.update_of_ne
  rintro rfl
  exact chained.held_not_mem name member

theorem kalloc (chained : sys.Chained nodes held) (fresh : node ∉ sys.allocated) :
    (sys.kalloc node).Chained nodes (node :: held) := by
  have nowhere : sys.load nodes held node = 0 := by
    by_contra occupied
    exact fresh (chained.live node (Nat.pos_of_ne_zero occupied))
  have load : ∀ other, (sys.kalloc node).load nodes (node :: held) other =
      sys.load nodes held other + if node = other then 1 else 0 := by
    simp only [System.load, System.kalloc, List.count_cons, beq_iff_eq]
    omega
  refine ⟨chained.lists, ?_, ?_⟩
  · intro other
    rw [load]
    by_cases same : node = other
    · rw [if_pos same, ← same, nowhere]
    · rw [if_neg same]
      exact chained.single other
  · intro other occupied
    rw [load] at occupied
    by_cases same : node = other
    · rw [same]
      exact List.mem_cons_self
    · rw [if_neg same] at occupied
      exact List.mem_cons_of_mem _ (chained.live other occupied)

theorem kfree (chained : sys.Chained nodes (node :: held)) : (sys.kfree node).Chained nodes held := by
  have load : ∀ other, sys.load nodes (node :: held) other =
      (sys.kfree node).load nodes held other + if node = other then 1 else 0 := by
    simp only [System.load, System.kfree, List.count_cons, beq_iff_eq]
    omega
  have single := chained.single
  refine ⟨chained.lists, ?_, ?_⟩
  · intro other
    have := single other
    rw [load] at this
    omega
  · intro other occupied
    have different : node ≠ other := by
      rintro rfl
      have := single node
      rw [load, if_pos rfl] at this
      omega
    have member := chained.live other (by rw [load]; omega)
    exact (List.mem_erase_of_ne different.symm).mpr member

end System.Chained

/-! ## The invariant of the queue -/

/-- What holds of an item that a client created: it is never the queue's, and it is marked
as soon as it is somewhere. -/
structure System.Foreign (sys : System) (nodes : Nodes) (held : List Nat) (item : Nat) : Prop where
  allocated : item ∈ sys.allocated
  notOwned : (sys.items item).isOwnedByQueue = false
  closure : (sys.items item).closure.isSome = true
  uncached : ∀ cache, item ∉ nodes (.cache cache)
  noSignaler : ∀ call ∈ sys.calls, call.signaler? ≠ some item
  marked : 0 < sys.load nodes held item → (sys.items item).isBeingDispatched = true

def System.Active (sys : System) (nodes : Nodes) (item : Nat) : Prop :=
  item ∈ nodes .itemQueue ∨ item ∈ nodes .timerQueue ∨ Worker.executing item ∈ sys.lanes

/-- The lanes are as many as the queue may have, and those with a virtual processor are counted. -/
structure System.Staffed (sys : System) : Prop where
  lanes : sys.lanes.length = sys.maxConcurrency
  present : sys.lanes.countP (· ≠ .absent) = sys.availableConcurrency
  atLeastOne : 1 ≤ sys.maxConcurrency
  ordered : sys.minConcurrency ≤ sys.maxConcurrency

def System.view (sys : System) : Links Nat × (Nat → WorkItem) × List Nat × (ListName → SList Nat) ×
    (Cache → Int) × QueueState × Nat × Nat × Nat × List Worker × List Call × List Nat :=
  (sys.links, sys.items, sys.allocated, sys.lists, sys.cacheCount, sys.state, sys.minConcurrency,
    sys.maxConcurrency, sys.availableConcurrency, sys.lanes, sys.calls, sys.clientItems)

structure System.Placed (sys : System) (nodes : Nodes) (held : List Nat) : Prop where
  chained : sys.Chained nodes held
  counted : ∀ cache, sys.cacheCount cache = (nodes (.cache cache)).length
  bounded : ∀ cache, (nodes (.cache cache)).length ≤ maxCacheCount
  foreign : ∀ item ∈ sys.clientItems, sys.Foreign nodes held item
  ready : ∀ item, sys.Active nodes item ∨ Worker.finished item ∈ sys.lanes →
    (sys.items item).closure.isSome = true
  staffed : sys.Staffed
  drained : sys.state ≠ .running → nodes .itemQueue = [] ∧ nodes .timerQueue = []

namespace System.Placed

variable {sys after : System} {nodes : Nodes} {held : List Nat} {name : ListName} {node : Nat}
  {rest front back : List Nat}

theorem not_in_lanes (placed : sys.Placed nodes (node :: held)) {worker : Worker}
    (member : worker ∈ sys.lanes) : worker.item? ≠ some node := by
  intro executes
  have positive : 0 < sys.lanes.countP (·.item? = some node) :=
    List.countP_pos_iff.mpr ⟨_, member, by simpa using executes⟩
  have single := placed.chained.single node
  simp only [System.load, List.count_cons_self] at single
  omega

theorem not_in_calls (placed : sys.Placed nodes (node :: held)) {call : Call}
    (member : call ∈ sys.calls) : call.signaler? ≠ some node := by
  intro waits
  have positive : 0 < sys.calls.countP (·.signaler? = some node) :=
    List.countP_pos_iff.mpr ⟨_, member, by simpa using waits⟩
  have single := placed.chained.single node
  simp only [System.load, List.count_cons_self] at single
  omega

theorem signaler_not_mem (placed : sys.Placed nodes held) {call : Call} (member : call ∈ sys.calls)
    (waits : call.signaler? = some node) (name : ListName) : node ∉ nodes name := by
  intro listed
  have positive : 0 < sys.calls.countP (·.signaler? = some node) :=
    List.countP_pos_iff.mpr ⟨_, member, by simpa using waits⟩
  have positive' := List.count_pos_iff.mpr listed
  have le := nodes.count_le name node
  have single := placed.chained.single node
  simp only [System.load] at single
  omega

theorem not_active (placed : sys.Placed nodes (node :: held)) : ¬ sys.Active nodes node := by
  rintro (member | member | member)
  · exact placed.chained.held_not_mem _ member
  · exact placed.chained.held_not_mem _ member
  · exact placed.not_in_lanes member rfl

theorem congr (placed : sys.Placed nodes held) (same : after.view = sys.view) :
    after.Placed nodes held := by
  cases sys
  obtain ⟨rfl, rfl, rfl, rfl, rfl, rfl, rfl, rfl, rfl, rfl, rfl, rfl⟩ := same
  exact ⟨placed.chained.congr rfl rfl rfl fun _ => rfl, placed.counted, placed.bounded,
    fun item member =>
      have foreign := placed.foreign item member
      ⟨foreign.allocated, foreign.notOwned, foreign.closure, foreign.uncached, foreign.noSignaler,
        foreign.marked⟩,
    placed.ready,
    ⟨placed.staffed.lanes, placed.staffed.present, placed.staffed.atLeastOne, placed.staffed.ordered⟩,
    placed.drained⟩

theorem staffed_of (placed : sys.Placed nodes held) (lanes : after.lanes = sys.lanes)
    (available : after.availableConcurrency = sys.availableConcurrency)
    (maximum : after.maxConcurrency = sys.maxConcurrency)
    (minimum : after.minConcurrency = sys.minConcurrency) : after.Staffed := by
  have staffed := placed.staffed
  refine ⟨?_, ?_, ?_, ?_⟩
  · rw [lanes, maximum]
    exact staffed.lanes
  · rw [lanes, available]
    exact staffed.present
  · rw [maximum]
    exact staffed.atLeastOne
  · rw [minimum, maximum]
    exact staffed.ordered

theorem setItem (placed : sys.Placed nodes held) (item : Nat) {change : WorkItem → WorkItem}
    (owner : (change (sys.items item)).isOwnedByQueue = (sys.items item).isOwnedByQueue)
    (mark : (sys.items item).isBeingDispatched = true → (change (sys.items item)).isBeingDispatched = true)
    (closure : (change (sys.items item)).closure = (sys.items item).closure) :
    (sys.setItem item change).Placed nodes held := by
  have fields : ∀ other, ((sys.setItem item change).items other).isOwnedByQueue =
        (sys.items other).isOwnedByQueue ∧
      ((sys.items other).isBeingDispatched = true →
        ((sys.setItem item change).items other).isBeingDispatched = true) ∧
      ((sys.setItem item change).items other).closure = (sys.items other).closure := by
    intro other
    by_cases same : other = item
    · subst same
      simpa [System.setItem] using ⟨owner, mark, closure⟩
    · simp [System.setItem, Function.update_of_ne same]
  refine ⟨placed.chained.congr rfl rfl rfl fun _ => rfl, placed.counted, placed.bounded, ?_, ?_,
    placed.staffed_of rfl rfl rfl rfl, placed.drained⟩
  · intro other member
    have foreign := placed.foreign other member
    obtain ⟨owner, mark, closure⟩ := fields other
    exact ⟨foreign.allocated, owner.trans foreign.notOwned, by rw [closure]; exact foreign.closure,
      foreign.uncached, foreign.noSignaler, fun occupied => mark (foreign.marked occupied)⟩
  · intro other active
    rw [(fields other).2.2]
    exact placed.ready other active

/-- An item in hand that is the queue's may change in any way. -/
theorem setHeldItem (placed : sys.Placed nodes (node :: held)) (own : node ∉ sys.clientItems)
    (change : WorkItem → WorkItem) : (sys.setItem node change).Placed nodes (node :: held) := by
  refine ⟨placed.chained.congr rfl rfl rfl fun _ => rfl, placed.counted, placed.bounded, ?_, ?_,
    placed.staffed_of rfl rfl rfl rfl, placed.drained⟩
  · intro other member
    have foreign := placed.foreign other member
    have different : other ≠ node := by
      rintro rfl
      exact own member
    have same : (sys.setItem node change).items other = sys.items other :=
      Function.update_of_ne different _ _
    exact ⟨foreign.allocated, by rw [same]; exact foreign.notOwned, by rw [same]; exact foreign.closure,
      foreign.uncached, foreign.noSignaler, by rw [same]; exact foreign.marked⟩
  · intro other active
    have different : other ≠ node := by
      rintro rfl
      rcases active with active | finished
      · exact placed.not_active active
      · exact placed.not_in_lanes finished rfl
    have same : (sys.setItem node change).items other = sys.items other :=
      Function.update_of_ne different _ _
    rw [same]
    exact placed.ready other active

theorem setSignaler (placed : sys.Placed nodes held) (signaler : Nat)
    (change : CompletionSignaler → CompletionSignaler) : (sys.setSignaler signaler change).Placed nodes held :=
  placed.congr rfl

theorem unlink (placed : sys.Placed nodes (node :: held)) : (sys.unlink node).Placed nodes (node :: held) :=
  ⟨placed.chained.unlink, placed.counted, placed.bounded,
    fun item member =>
      have foreign := placed.foreign item member
      ⟨foreign.allocated, foreign.notOwned, foreign.closure, foreign.uncached, foreign.noSignaler,
        foreign.marked⟩,
    placed.ready, placed.staffed_of rfl rfl rfl rfl, placed.drained⟩

theorem moveQueued (placed : sys.Placed nodes held) {result : Links Nat × SList Nat} {changed held' : List Nat}
    (queue : ∀ cache, name ≠ .cache cache)
    (chained : (sys.withList name result).Chained (Function.update nodes name changed) held')
    (moves : ∀ node, changed.count node + held'.count node = (nodes name).count node + held.count node)
    (ready : ∀ item ∈ changed, item ∈ nodes name ∨ (sys.items item).closure.isSome = true)
    (drained : sys.state ≠ .running → changed = []) :
    (sys.withList name result).Placed (Function.update nodes name changed) held' := by
  have caches : ∀ cache, Function.update nodes name changed (.cache cache) = nodes (.cache cache) :=
    fun cache => Function.update_of_ne (queue cache).symm _ _
  have load : ∀ node, (sys.withList name result).load (Function.update nodes name changed) held' node =
      sys.load nodes held node := by
    intro node
    have count := nodes.count_update name changed node
    have move := moves node
    simp only [System.load, System.withList]
    omega
  refine ⟨chained, ?_, ?_, ?_, ?_, placed.staffed_of rfl rfl rfl rfl, ?_⟩
  · intro cache
    rw [caches]
    exact placed.counted cache
  · intro cache
    rw [caches]
    exact placed.bounded cache
  · intro item member
    have foreign := placed.foreign item member
    refine ⟨foreign.allocated, foreign.notOwned, foreign.closure, ?_, foreign.noSignaler, ?_⟩
    · intro cache
      rw [caches]
      exact foreign.uncached cache
    · rw [load]
      exact foreign.marked
  · intro item active
    have queued : ∀ other, item ∈ Function.update nodes name changed other →
        (∀ cache, other ≠ .cache cache) → (sys.items item).closure.isSome = true := by
      intro other member notCache
      by_cases same : other = name
      · subst same
        rw [Function.update_self] at member
        rcases ready item member with before | closure
        · rcases other with _ | _ | cache
          · exact placed.ready item (.inl (.inl before))
          · exact placed.ready item (.inl (.inr (.inl before)))
          · exact absurd rfl (notCache cache)
        · exact closure
      · rw [Function.update_of_ne same] at member
        rcases other with _ | _ | cache
        · exact placed.ready item (.inl (.inl member))
        · exact placed.ready item (.inl (.inr (.inl member)))
        · exact absurd rfl (notCache cache)
    rcases active with (member | member | member) | finished
    · exact queued _ member (by simp)
    · exact queued _ member (by simp)
    · exact placed.ready item (.inl (.inr (.inr member)))
    · exact placed.ready item (.inr finished)
  · intro stopped
    obtain ⟨items, timers⟩ := placed.drained stopped
    have empty := drained stopped
    constructor
    · by_cases same : ListName.itemQueue = name
      · rw [← same, Function.update_self, empty]
      · rw [Function.update_of_ne same, items]
    · by_cases same : ListName.timerQueue = name
      · rw [← same, Function.update_self, empty]
      · rw [Function.update_of_ne same, timers]

theorem dequeue (placed : sys.Placed nodes held) (queue : ∀ cache, name ≠ .cache cache)
    (split : nodes name = node :: rest) :
    ∃ result, sys.removeFirst name = (some node, sys.withList name result) ∧
      (sys.withList name result).Placed (Function.update nodes name rest) (node :: held) := by
  obtain ⟨result, removes, chained⟩ := placed.chained.removeFirst split
  refine ⟨result, removes, placed.moveQueued queue chained ?_ ?_ ?_⟩
  · rw [split]
    simp only [List.count_cons]
    omega
  · intro item member
    left
    rw [split]
    exact List.mem_cons_of_mem _ member
  · intro stopped
    obtain ⟨items, timers⟩ := placed.drained stopped
    rcases name with _ | _ | cache
    · rw [items] at split
      simp at split
    · rw [timers] at split
      simp at split
    · exact absurd rfl (queue cache)

theorem enqueue (placed : sys.Placed nodes (node :: held)) (queue : ∀ cache, name ≠ .cache cache)
    (split : nodes name = front ++ back) (closure : (sys.items node).closure.isSome = true)
    (running : sys.state = .running) :
    (sys.insertAfter name node front.getLast?).Placed
      (Function.update nodes name (front ++ node :: back)) held := by
  refine placed.moveQueued queue (placed.chained.insertAfter split) ?_ ?_ ?_
  · rw [split]
    simp only [List.count_append, List.count_cons]
    omega
  · intro item member
    rw [split]
    rcases List.mem_append.mp member with member | member
    · exact .inl (List.mem_append_left _ member)
    · rcases List.mem_cons.mp member with rfl | member
      · exact .inr closure
      · exact .inl (List.mem_append_right _ member)
  · exact fun stopped => absurd running stopped

theorem enqueueItem (placed : sys.Placed nodes (node :: held)) (dispatch : Dispatch)
    (closure : (sys.items node).closure.isSome = true) (running : sys.state = .running) :
    (sys.enqueueItem node dispatch).Placed
      (Function.update nodes .itemQueue (nodes .itemQueue ++ [node])) held := by
  have inserted : (sys.insertAfter .itemQueue node (nodes .itemQueue).getLast?).Placed
      (Function.update nodes .itemQueue (nodes .itemQueue ++ [node])) held :=
    placed.enqueue (by simp) (List.append_nil _).symm closure running
  have same : sys.insertAfterLast .itemQueue node =
      sys.insertAfter .itemQueue node (nodes .itemQueue).getLast? := by
    simp only [System.insertAfterLast, System.insertAfter, (placed.chained.lists _).insertAfterLast_eq]
  refine inserted.congr ?_
  simp only [System.enqueueItem, same]
  rfl

theorem hold (placed : sys.Placed nodes held) (nowhere : sys.load nodes held node = 0)
    (allocated : node ∈ sys.allocated)
    (marked : node ∈ sys.clientItems → (sys.items node).isBeingDispatched = true) :
    sys.Placed nodes (node :: held) := by
  have load : ∀ other, sys.load nodes (node :: held) other =
      sys.load nodes held other + if node = other then 1 else 0 := by
    simp only [System.load, List.count_cons, beq_iff_eq]
    omega
  refine ⟨⟨placed.chained.lists, ?_, ?_⟩, placed.counted, placed.bounded, ?_, placed.ready,
    placed.staffed, placed.drained⟩
  · intro other
    rw [load]
    split_ifs with same
    · rw [← same, nowhere]
    · exact placed.chained.single other
  · intro other occupied
    rw [load] at occupied
    split_ifs at occupied with same
    · rw [← same]
      exact allocated
    · exact placed.chained.live other occupied
  · intro item member
    have foreign := placed.foreign item member
    refine ⟨foreign.allocated, foreign.notOwned, foreign.closure, foreign.uncached, foreign.noSignaler, ?_⟩
    rw [load]
    split_ifs with same
    · intro _
      subst same
      exact marked member
    · exact foreign.marked

theorem swap {other : Nat} (placed : sys.Placed nodes (node :: other :: held)) :
    sys.Placed nodes (other :: node :: held) := by
  have load : ∀ item, sys.load nodes (other :: node :: held) item = sys.load nodes (node :: other :: held) item := by
    simp only [System.load, List.count_cons]
    omega
  refine ⟨placed.chained.congr rfl rfl rfl load, placed.counted, placed.bounded, ?_, placed.ready,
    placed.staffed, placed.drained⟩
  intro item member
  have foreign := placed.foreign item member
  refine ⟨foreign.allocated, foreign.notOwned, foreign.closure, foreign.uncached, foreign.noSignaler, ?_⟩
  rw [load]
  exact foreign.marked

theorem drop (placed : sys.Placed nodes (node :: held)) : sys.Placed nodes held := by
  have load : ∀ other, sys.load nodes held other ≤ sys.load nodes (node :: held) other := by
    simp only [System.load, List.count_cons]
    omega
  refine ⟨⟨placed.chained.lists, ?_, ?_⟩, placed.counted, placed.bounded, ?_, placed.ready,
    placed.staffed, placed.drained⟩
  · exact fun other => (load other).trans (placed.chained.single other)
  · exact fun other occupied => placed.chained.live other (lt_of_lt_of_le occupied (load other))
  · intro item member
    have foreign := placed.foreign item member
    exact ⟨foreign.allocated, foreign.notOwned, foreign.closure, foreign.uncached, foreign.noSignaler,
      fun occupied => foreign.marked (lt_of_lt_of_le occupied (load item))⟩

theorem kalloc (placed : sys.Placed nodes held) (fresh : node ∉ sys.allocated) :
    (sys.kalloc node).Placed nodes (node :: held) := by
  refine ⟨placed.chained.kalloc fresh, placed.counted, placed.bounded, ?_, placed.ready,
    placed.staffed_of rfl rfl rfl rfl, placed.drained⟩
  intro item member
  have foreign := placed.foreign item member
  have different : node ≠ item := by
    rintro rfl
    exact fresh foreign.allocated
  refine ⟨List.mem_cons_of_mem _ foreign.allocated, foreign.notOwned, foreign.closure, foreign.uncached,
    foreign.noSignaler, fun occupied => foreign.marked ?_⟩
  simpa [System.load, System.kalloc, List.count_cons, different] using occupied

theorem kfree (placed : sys.Placed nodes (node :: held)) (own : node ∉ sys.clientItems) :
    (sys.kfree node).Placed nodes held := by
  refine ⟨placed.chained.kfree, placed.counted, placed.bounded, ?_, placed.ready,
    placed.staffed_of rfl rfl rfl rfl, placed.drained⟩
  intro item member
  have foreign := placed.drop.foreign item member
  have different : item ≠ node := by
    rintro rfl
    exact own member
  exact ⟨(List.mem_erase_of_ne different).mpr foreign.allocated, foreign.notOwned, foreign.closure,
    foreign.uncached, foreign.noSignaler, foreign.marked⟩

end System.Placed

/-! ## The caches -/

def System.taken (sys : System) (cache : Cache) (result : Links Nat × SList Nat) : System :=
  { sys.withList (.cache cache) result with
    cacheCount := Function.update sys.cacheCount cache (sys.cacheCount cache - 1) }

def System.cached (sys : System) (cache : Cache) (node : Nat) : System :=
  { sys.insertBeforeFirst (.cache cache) node with
    cacheCount := Function.update sys.cacheCount cache (sys.cacheCount cache + 1) }

def Nodes.push (nodes : Nodes) (cache : Cache) (node : Nat) : Nodes :=
  Function.update nodes (.cache cache) (node :: nodes (.cache cache))

namespace System.Placed

variable {sys after : System} {nodes : Nodes} {held : List Nat} {cache : Cache} {node : Nat}
  {rest : List Nat}

theorem moveCached (placed : sys.Placed nodes held) {result : Links Nat × SList Nat}
    {changed held' : List Nat} {count : Int}
    (chained : (sys.withList (.cache cache) result).Chained
      (Function.update nodes (.cache cache) changed) held')
    (moves : ∀ node, changed.count node + held'.count node =
      (nodes (.cache cache)).count node + held.count node)
    (counted : count = changed.length) (bounded : changed.length ≤ maxCacheCount)
    (own : ∀ item ∈ changed, item ∉ sys.clientItems) :
    System.Placed { sys.withList (.cache cache) result with
      cacheCount := Function.update sys.cacheCount cache count }
      (Function.update nodes (.cache cache) changed) held' := by
  have load : ∀ node, (sys.withList (.cache cache) result).load
      (Function.update nodes (.cache cache) changed) held' node = sys.load nodes held node := by
    intro node
    have count := nodes.count_update (.cache cache) changed node
    have move := moves node
    simp only [System.load, System.withList]
    omega
  refine ⟨chained.congr rfl rfl rfl fun _ => rfl, ?_, ?_, ?_, ?_, placed.staffed_of rfl rfl rfl rfl, ?_⟩
  · intro other
    by_cases same : other = cache
    · subst same
      simpa using counted
    · have different : ListName.cache other ≠ .cache cache := by simpa using same
      simp only [Function.update_of_ne same, Function.update_of_ne different]
      exact placed.counted other
  · intro other
    by_cases same : other = cache
    · subst same
      simpa using bounded
    · have different : ListName.cache other ≠ .cache cache := by simpa using same
      rw [Function.update_of_ne different]
      exact placed.bounded other
  · intro item member
    have foreign := placed.foreign item member
    refine ⟨foreign.allocated, foreign.notOwned, foreign.closure, ?_, foreign.noSignaler, ?_⟩
    · intro other
      by_cases same : other = cache
      · subst same
        rw [Function.update_self]
        exact fun cached => own item cached member
      · have different : ListName.cache other ≠ .cache cache := by simpa using same
        rw [Function.update_of_ne different]
        exact foreign.uncached other
    · intro occupied
      apply foreign.marked
      rw [← load]
      exact occupied
  · intro item active
    apply placed.ready
    rcases active with (member | member | member) | finished
    · exact .inl (.inl member)
    · exact .inl (.inr (.inl member))
    · exact .inl (.inr (.inr member))
    · exact .inr finished
  · exact placed.drained

theorem cached (placed : sys.Placed nodes (node :: held)) (own : node ∉ sys.clientItems)
    (room : sys.cacheCount cache < maxCacheCount) :
    (sys.cached cache node).Placed (nodes.push cache node) held := by
  have counted := placed.counted cache
  refine placed.moveCached (placed.chained.insertBeforeFirst _) ?_ ?_ ?_ ?_
  · simp only [List.count_cons]
    omega
  · simp only [List.length_cons]
    omega
  · simp only [List.length_cons]
    omega
  · intro item member
    rcases List.mem_cons.mp member with rfl | member
    · exact own
    · exact fun foreign => (placed.foreign item foreign).uncached cache member

theorem taken (placed : sys.Placed nodes held) (split : nodes (.cache cache) = node :: rest) :
    ∃ result, sys.removeFirst (.cache cache) = (some node, sys.withList (.cache cache) result) ∧
      (sys.taken cache result).Placed (Function.update nodes (.cache cache) rest) (node :: held) ∧
      node ∉ sys.clientItems := by
  obtain ⟨result, removes, chained⟩ := placed.chained.removeFirst split
  have counted := placed.counted cache
  have bounded := placed.bounded cache
  rw [split, List.length_cons] at counted bounded
  refine ⟨result, removes, placed.moveCached chained ?_ ?_ ?_ ?_, ?_⟩
  · rw [split]
    simp only [List.count_cons]
    omega
  · omega
  · omega
  · intro item member foreign
    refine (placed.foreign item foreign).uncached cache ?_
    rw [split]
    exact List.mem_cons_of_mem _ member
  · intro foreign
    refine (placed.foreign node foreign).uncached cache ?_
    rw [split]
    exact List.mem_cons_self

theorem own_of_owned (placed : sys.Placed nodes held)
    (owned : (sys.items node).isOwnedByQueue = true) : node ∉ sys.clientItems := by
  intro member
  have foreign := (placed.foreign node member).notOwned
  rw [owned] at foreign
  simp at foreign

end System.Placed

inductive Acquisition (cache : Cache) (reuse create : Nat → System → System) (address : Option Nat)
    (sys : System) (nodes : Nodes) (held : List Nat) : Outcome System Errno Nat → Prop
  | cached {node : Nat} {rest : List Nat} {result : Links Nat × SList Nat}
      (split : nodes (.cache cache) = node :: rest)
      (placed : (sys.taken cache result).Placed (Function.update nodes (.cache cache) rest) (node :: held))
      (own : node ∉ sys.clientItems) :
      Acquisition cache reuse create address sys nodes held (.ok node (reuse node (sys.taken cache result)))
  | fresh {node : Nat} (empty : nodes (.cache cache) = []) (delivered : address = some node)
      (placed : (sys.kalloc node).Placed nodes (node :: held)) (own : node ∉ sys.clientItems) :
      Acquisition cache reuse create address sys nodes held (.ok node (create node (sys.kalloc node)))
  | refused (empty : nodes (.cache cache) = []) (out : address = none) :
      Acquisition cache reuse create address sys nodes held (.err .ENOMEM sys)

section Acquire
variable {sys : System} {nodes : Nodes} {held : List Nat}

variable {address : Option Nat} {closure : Nat} {memory : Memory}

theorem acquire_cases (placed : sys.Placed nodes held) (cache : Cache) {reuse create : Nat → System → System} (free : sys.isFree address = true)
    (counts : ∀ node sys count, { reuse node sys with cacheCount := count } =
      reuse node { sys with cacheCount := count })
    (kept : ∀ node sys, (reuse node sys).cacheCount = sys.cacheCount) :
    Acquisition cache reuse create address sys nodes held (acquire cache reuse create address sys) := by
  unfold acquire
  cases split : nodes (.cache cache) with
  | nil =>
    rw [placed.chained.removeFirst_nil split]
    cases address with
    | none => exact .refused split rfl
    | some node =>
      have unallocated : node ∉ sys.allocated := by simpa [System.isFree] using free
      refine .fresh split rfl (placed.kalloc unallocated) ?_
      exact fun member => unallocated (placed.foreign node member).allocated
  | cons node rest =>
    obtain ⟨result, removes, taken, own⟩ := placed.taken split
    rw [removes]
    simp only [kept, counts]
    exact .cached split taken own

theorem acquireWorkItem_cases (placed : sys.Placed nodes held)
    (free : sys.isFree (memory.map (·.1)) = true) :
    Acquisition .items (fun item sys => sys.workItemInit item .immediate closure true)
      (fun item sys => (memory.fill item sys).workItemInit item .immediate closure true)
      (memory.map (·.1)) sys nodes held (acquireWorkItem closure memory sys) :=
  acquire_cases placed .items free (fun _ _ _ => rfl) fun _ _ => rfl

theorem acquireTimer_cases (placed : sys.Placed nodes held) {deadline interval : Int} (free : sys.isFree (memory.map (·.1)) = true) :
    Acquisition .timers (fun timer sys => sys.timerInit timer deadline interval closure true)
      (fun timer sys => (memory.fill timer sys).timerInit timer deadline interval closure true)
      (memory.map (·.1)) sys nodes held (acquireTimer deadline interval closure memory sys) :=
  acquire_cases placed .timers free (fun _ _ _ => rfl) fun _ _ => rfl

theorem acquireCompletionSignaler_cases (placed : sys.Placed nodes held)
    (free : sys.isFree address = true) :
    Acquisition .completionSignalers (fun signaler sys => sys.completionSignalerInit signaler)
      (fun signaler sys => sys.completionSignalerCreate signaler) address sys nodes held
      (acquireCompletionSignaler address sys) :=
  acquire_cases placed .completionSignalers free (fun _ _ _ => rfl) fun _ _ => rfl

end Acquire

/-! ## Workers and calls -/

theorem countP_set_add {α : Type} (test : α → Bool) {list : List α} {index : Nat} {old : α}
    (found : list[index]? = some old) (new : α) :
    (list.set index new).countP test + (if test old then 1 else 0) =
      list.countP test + (if test new then 1 else 0) := by
  induction list generalizing index with
  | nil => simp at found
  | cons head rest ih =>
    cases index with
    | zero =>
      simp only [List.getElem?_cons_zero, Option.some.injEq] at found
      subst found
      rw [List.set_cons_zero, List.countP_cons, List.countP_cons]
      omega
    | succ index =>
      have step := ih (by simpa using found)
      rw [List.set_cons_succ, List.countP_cons, List.countP_cons]
      omega

def System.hire (sys : System) (lane : Nat) : System :=
  { sys with
    lanes := sys.lanes.set lane .starting
    availableConcurrency := sys.availableConcurrency + 1 }

namespace System.Placed

variable {sys after : System} {nodes : Nodes} {held held' : List Nat} {lane node : Nat} {old worker : Worker}

/-- A worker goes on to another place, and what it executes comes from the hand or goes there. -/
theorem relane (placed : sys.Placed nodes held) (found : sys.lanes[lane]? = some old) {available : Nat}
    (staff : available + (if old ≠ .absent then 1 else 0) =
      sys.availableConcurrency + (if worker ≠ .absent then 1 else 0))
    (moves : ∀ node, (if worker.item? = some node then 1 else 0) + held'.count node =
      (if old.item? = some node then 1 else 0) + held.count node)
    (ready : ∀ item, worker.item? = some item → (sys.items item).closure.isSome = true) :
    System.Placed { sys with lanes := sys.lanes.set lane worker, availableConcurrency := available }
      nodes held' := by
  have load : ∀ node, System.load
      { sys with lanes := sys.lanes.set lane worker, availableConcurrency := available } nodes held' node =
        sys.load nodes held node := by
    intro node
    have count := countP_set_add (fun worker : Worker => decide (worker.item? = some node)) found worker
    have move := moves node
    simp only [decide_eq_true_eq] at count
    simp only [System.load]
    omega
  refine ⟨⟨placed.chained.lists, ?_, ?_⟩, placed.counted, placed.bounded, ?_, ?_, ?_, placed.drained⟩
  · intro node
    rw [load]
    exact placed.chained.single node
  · intro node occupied
    rw [load] at occupied
    exact placed.chained.live node occupied
  · intro item member
    have foreign := placed.foreign item member
    refine ⟨foreign.allocated, foreign.notOwned, foreign.closure, foreign.uncached, foreign.noSignaler, ?_⟩
    rw [load]
    exact foreign.marked
  · intro item active
    rcases active with (member | member | member) | member
    · exact placed.ready item (.inl (.inl member))
    · exact placed.ready item (.inl (.inr (.inl member)))
    · rcases List.mem_or_eq_of_mem_set member with member | same
      · exact placed.ready item (.inl (.inr (.inr member)))
      · exact ready item (by rw [← same]; rfl)
    · rcases List.mem_or_eq_of_mem_set member with member | same
      · exact placed.ready item (.inr member)
      · exact ready item (by rw [← same]; rfl)
  · have staffed := placed.staffed
    have count := countP_set_add (fun worker : Worker => decide (worker ≠ .absent)) found worker
    have present := staffed.present
    simp only [decide_eq_true_eq] at count
    refine ⟨?_, ?_, staffed.atLeastOne, staffed.ordered⟩
    · rw [List.length_set]
      exact staffed.lanes
    · simp only
      omega

theorem setLane_executing (placed : sys.Placed nodes (node :: held)) (found : sys.lanes[lane]? = some old)
    (present : old ≠ .absent) (idle : old.item? = none) (ready : (sys.items node).closure.isSome = true) :
    (sys.setLane lane (.executing node)).Placed nodes held := by
  refine placed.relane found ?_ ?_ ?_
  · simp [present]
  · rw [idle, show (Worker.executing node).item? = some node from rfl]
    simp only [Option.some.injEq, reduceCtorEq, if_false, List.count_cons, beq_iff_eq]
    omega
  · intro item same
    cases same
    exact ready

theorem setLane_idle (placed : sys.Placed nodes held) (found : sys.lanes[lane]? = some old)
    (present : old ≠ .absent) (idle : old.item? = none) (present' : worker ≠ .absent)
    (idle' : worker.item? = none) : (sys.setLane lane worker).Placed nodes held := by
  refine placed.relane found ?_ ?_ ?_
  · simp [present, present']
  · intro other
    rw [idle, idle']
  · intro item has
    rw [idle'] at has
    simp at has

theorem relinquishVirtualProcessor (placed : sys.Placed nodes held) (found : sys.lanes[lane]? = some old)
    (present : old ≠ .absent) (idle : old.item? = none) :
    (sys.relinquishVirtualProcessor lane).Placed nodes held := by
  have positive : 0 < sys.lanes.countP (· ≠ .absent) :=
    List.countP_pos_iff.mpr ⟨old, List.mem_of_getElem? found, by simpa using present⟩
  have staffed := placed.staffed.present
  refine placed.relane found ?_ ?_ ?_
  · simp only [if_pos present, ne_eq, not_true_eq_false, if_false]
    omega
  · rw [idle]
    simp [Worker.item?]
  · simp [Worker.item?]

theorem hire (placed : sys.Placed nodes held) (found : sys.lanes[lane]? = some .absent) :
    (sys.hire lane).Placed nodes held := by
  refine placed.relane found ?_ ?_ ?_
  · simp
  · simp [Worker.item?]
  · simp [Worker.item?]

end System.Placed

theorem System.Staffed.absent_of_wants {sys : System} (staffed : sys.Staffed) (wants : sys.WantsVirtualProcessor) :
    ∃ lane, sys.lanes.findIdx? (· = .absent) = some lane ∧ sys.lanes[lane]? = some .absent := by
  have fewer : sys.availableConcurrency < sys.maxConcurrency := by
    have least := staffed.atLeastOne
    have ordered := staffed.ordered
    obtain ⟨-, none | few | more⟩ := wants
    · omega
    · omega
    · exact more.2
  cases search : sys.lanes.findIdx? (· = .absent) with
  | none =>
    have all := List.findIdx?_eq_none_iff.mp search
    have count : sys.lanes.countP (· ≠ .absent) = sys.lanes.length := by
      rw [List.countP_eq_length]
      intro worker member
      simpa using all worker member
    have present := staffed.present
    have lanes := staffed.lanes
    omega
  | some lane =>
    obtain ⟨inside, hit, -⟩ := List.findIdx?_eq_some_iff_getElem.mp search
    refine ⟨lane, rfl, ?_⟩
    rw [List.getElem?_eq_getElem inside]
    simpa using hit

inductive Hiring (available : Bool) (sys : System) (nodes : Nodes) (held : List Nat) :
    Outcome System Errno Unit → Prop
  | enough (content : ¬ sys.WantsVirtualProcessor) : Hiring available sys nodes held (.ok () sys)
  | hired {lane : Nat} (found : sys.lanes[lane]? = some .absent) (placed : (sys.hire lane).Placed nodes held) :
      Hiring available sys nodes held (.ok () (sys.hire lane))
  | refused (wants : sys.WantsVirtualProcessor) (out : available = false) :
      Hiring available sys nodes held (.err .ENOMEM sys)

theorem acquireVirtualProcessor_cases {sys : System} {nodes : Nodes} {held : List Nat}
    (placed : sys.Placed nodes held) (available : Bool) :
    Hiring available sys nodes held (acquireVirtualProcessor available sys) := by
  unfold acquireVirtualProcessor
  by_cases wants : sys.WantsVirtualProcessor
  · obtain ⟨lane, search, found⟩ := placed.staffed.absent_of_wants wants
    rw [if_pos wants, search]
    cases available with
    | true => exact .hired found (placed.hire found)
    | false => exact .refused wants rfl
  · rw [if_neg wants]
    exact .enough wants

namespace System.Placed

variable {sys after : System} {nodes : Nodes} {held held' : List Nat} {call node : Nat} {old new : Call}

/-- The calls change, and what they hold comes from the hand or goes there. -/
theorem changeCalls (placed : sys.Placed nodes held) {calls : List Call}
    (moves : ∀ node, calls.countP (·.signaler? = some node) + held'.count node =
      sys.calls.countP (·.signaler? = some node) + held.count node)
    (foreign : ∀ item ∈ sys.clientItems, ∀ call ∈ calls, call.signaler? ≠ some item) :
    System.Placed { sys with calls := calls } nodes held' := by
  have load : ∀ node, System.load { sys with calls := calls } nodes held' node = sys.load nodes held node := by
    intro node
    have move := moves node
    simp only [System.load]
    omega
  refine ⟨⟨placed.chained.lists, ?_, ?_⟩, placed.counted, placed.bounded, ?_, placed.ready,
    placed.staffed_of rfl rfl rfl rfl, placed.drained⟩
  · intro node
    rw [load]
    exact placed.chained.single node
  · intro node occupied
    rw [load] at occupied
    exact placed.chained.live node occupied
  · intro item member
    have before := placed.foreign item member
    refine ⟨before.allocated, before.notOwned, before.closure, before.uncached, foreign item member, ?_⟩
    rw [load]
    exact before.marked

theorem startWaiting (placed : sys.Placed nodes (node :: held)) (own : node ∉ sys.clientItems)
    (waits : new.signaler? = some node) : System.Placed { sys with calls := sys.calls ++ [new] } nodes held := by
  refine placed.changeCalls ?_ ?_
  · intro other
    rw [List.countP_append, List.countP_singleton, waits]
    simp only [Option.some.injEq, decide_eq_true_eq, List.count_cons, beq_iff_eq]
    omega
  · intro item member call present
    rcases List.mem_append.mp present with present | present
    · exact (placed.foreign item member).noSignaler call present
    · rw [List.mem_singleton.mp present, waits]
      intro same
      cases same
      exact own member

theorem startCall (placed : sys.Placed nodes held) (idle : new.signaler? = none) :
    System.Placed { sys with calls := sys.calls ++ [new] } nodes held := by
  refine placed.changeCalls ?_ ?_
  · intro other
    rw [List.countP_append, List.countP_singleton, idle]
    simp
  · intro item member call present
    rcases List.mem_append.mp present with present | present
    · exact (placed.foreign item member).noSignaler call present
    · rw [List.mem_singleton.mp present, idle]
      simp

theorem continueCall (placed : sys.Placed nodes held) (found : sys.calls[call]? = some old)
    (moves : ∀ node, (if new.signaler? = some node then 1 else 0) + held'.count node =
      (if old.signaler? = some node then 1 else 0) + held.count node)
    (kept : ∀ signaler, new.signaler? = some signaler → old.signaler? = some signaler) :
    System.Placed { sys with calls := sys.calls.set call new } nodes held' := by
  refine placed.changeCalls ?_ ?_
  · intro other
    have count := countP_set_add (fun call : Call => decide (call.signaler? = some other)) found new
    have move := moves other
    simp only [decide_eq_true_eq] at count
    omega
  · intro item member call present
    rcases List.mem_or_eq_of_mem_set present with present | same
    · exact (placed.foreign item member).noSignaler call present
    · rw [same]
      intro waits
      exact (placed.foreign item member).noSignaler old (List.mem_of_getElem? found) (kept item waits)

end System.Placed

end Apollo.Dispatchqueue
