import Apollo.Dispatchqueue.Signals

/-!
# The functions of the queue keep the invariant

One lemma for each function, from the caches up to the API functions and the
rounds of the workers.  `Ends` also says that the function returns: it may fail
to do so only when its loops have too little fuel, or where the code is wrong.
-/

set_option autoImplicit false

namespace Apollo.Dispatchqueue

open Klib
open Lib

def System.control (sys : System) : QueueState × Nat × Nat × Nat × Int × Option Thread × List Call ×
    List Nat × List Worker :=
  (sys.state, sys.minConcurrency, sys.maxConcurrency, sys.availableConcurrency, sys.itemsQueuedCount,
    sys.lock, sys.calls, sys.clientItems, sys.lanes)

section Control
variable {sys after : System} (same : after.control = sys.control)
include same

theorem control_state : after.state = sys.state := congrArg (·.1) same

theorem control_lock : after.lock = sys.lock := congrArg (·.2.2.2.2.2.1) same

theorem control_calls : after.calls = sys.calls := congrArg (·.2.2.2.2.2.2.1) same

theorem control_clientItems : after.clientItems = sys.clientItems := congrArg (·.2.2.2.2.2.2.2.1) same

theorem control_lanes : after.lanes = sys.lanes := congrArg (·.2.2.2.2.2.2.2.2) same

end Control

/-- A fresh item has nothing in its `completion`. -/
def Memory.Clean (memory : Memory) : Prop :=
  ∀ content, memory = some content → content.2.completion = none

def System.Overloaded (sys : System) : Prop :=
  System.WantsVirtualProcessor { sys with itemsQueuedCount := sys.itemsQueuedCount + 1 }

section Functions
variable {strict stuck : Prop} {sys : System} {nodes : Nodes} {held : List Nat} {self : Thread}
  {item signaler : Nat}

/-! ## Locks -/

theorem lockLock_apply (free : sys.lock = none) (self : Thread) :
    lockLock self sys = .ok () { sys with lock := some self } := by
  unfold lockLock
  rw [free]

theorem lockUnlock_apply (mine : sys.lock = some self) :
    lockUnlock self sys = .ok () { sys with lock := none } := by
  unfold lockUnlock
  rw [if_pos mine]

def Guarded (strict : Prop) (lock : Option Thread) (held : List Nat) (sys : System) : Prop :=
  sys.lock = lock ∧ ∃ nodes, Inv strict sys nodes held

theorem lockUnlock_ends {error : Errno → System → Prop} (guarded : Guarded strict (some self) held sys) :
    (lockUnlock self sys).Ends stuck (fun _ => Guarded strict none held) error := by
  obtain ⟨mine, nodes, inv⟩ := guarded
  rw [lockUnlock_apply mine]
  exact ⟨rfl, nodes, inv.withLock none⟩

/-! ## Caches -/

theorem relinquish_control (cache : Cache) {deinit destroy : System → Nat → System} {node : Nat}
    (deinits : (deinit sys node).control = sys.control) (destroys : (destroy sys node).control = sys.control) :
    (sys.relinquish cache deinit destroy node).control = sys.control := by
  unfold System.relinquish
  split_ifs
  · exact deinits
  · exact destroys

theorem relinquishWorkItem_control (sys : System) (item : Nat) :
    (sys.relinquishWorkItem item).control = sys.control := by
  unfold System.relinquishWorkItem
  simp only
  split_ifs
  · rfl
  · exact relinquish_control .items rfl rfl

theorem relinquishTimer_control (sys : System) (timer : Nat) :
    (sys.relinquishTimer timer).control = sys.control := by
  unfold System.relinquishTimer
  simp only
  split_ifs
  · rfl
  · exact relinquish_control .timers rfl rfl

theorem relinquishCompletionSignaler_control (sys : System) (signaler : Nat) :
    (sys.relinquishCompletionSignaler signaler).control = sys.control :=
  relinquish_control .completionSignalers rfl rfl

structure Fetched (strict : Prop) (sys : System) (nodes : Nodes) (held : List Nat) (memory : Memory)
    (item : Nat) (after : System) : Prop where
  inv : ∃ nodes', Inv strict after nodes' (item :: held) ∧ nodes' .timerQueue = nodes .timerQueue
  control : after.control = sys.control
  closure : (after.items item).closure.isSome = true
  own : item ∉ after.clientItems
  clean : strict → memory.Clean → (after.items item).completion = none
  allocated : after.allocated = sys.allocated ∨
    (memory.map (·.1) = some item ∧ after.allocated = item :: sys.allocated)

variable {memory : Memory} {closure : Nat}

theorem Inv.filled (inv : Inv strict sys nodes (item :: held))
    (own : item ∉ sys.clientItems) : Inv strict (memory.fill item sys) nodes (item :: held) := by
  cases memory with
  | none => exact inv
  | some content => exact inv.setHeldItem own fun _ => content.2

theorem fill_control (memory : Memory) (item : Nat) (sys : System) :
    (memory.fill item sys).control = sys.control := by
  cases memory <;> rfl

theorem fill_allocated (memory : Memory) (item : Nat) (sys : System) :
    (memory.fill item sys).allocated = sys.allocated := by
  cases memory <;> rfl

theorem fill_clean (delivered : memory.map (·.1) = some item) (clean : memory.Clean)
    (sys : System) : ((memory.fill item sys).items item).completion = none := by
  cases memory with
  | none => simp at delivered
  | some content => simpa [Memory.fill, System.setItem] using clean content rfl

theorem Inv.workItemInit (inv : Inv strict sys nodes (item :: held)) (own : item ∉ sys.clientItems)
    (type : ItemType) (closure : Nat) (isOwnedByQueue : Bool) :
    Inv strict (sys.workItemInit item type closure isOwnedByQueue) nodes (item :: held) :=
  inv.unlink.setHeldItem own _

theorem Inv.timerInit (inv : Inv strict sys nodes (item :: held)) (own : item ∉ sys.clientItems)
    (deadline interval : Int) (closure : Nat) (isOwnedByQueue : Bool) :
    Inv strict (sys.timerInit item deadline interval closure isOwnedByQueue) nodes (item :: held) :=
  (inv.workItemInit own (if 0 < interval then .repeatingTimer else .oneShotTimer) closure
    isOwnedByQueue).setHeldItem own fun value => { value with deadline := deadline, interval := interval }

theorem workItemInit_fields (sys : System) (item : Nat) (type : ItemType) (closure : Nat) (owned : Bool) :
    ((sys.workItemInit item type closure owned).items item).closure = some closure ∧
      ((sys.workItemInit item type closure owned).items item).completion = (sys.items item).completion := by
  simp [System.workItemInit, System.setItem, System.unlink]

theorem timerInit_fields (sys : System) (item : Nat) (deadline interval : Int) (closure : Nat) (owned : Bool) :
    ((sys.timerInit item deadline interval closure owned).items item).closure = some closure ∧
      ((sys.timerInit item deadline interval closure owned).items item).completion =
        (sys.items item).completion := by
  simp [System.timerInit, System.workItemInit, System.setItem, System.unlink]

/-- The two acquisitions of an item differ in the cache and in the function that sets the item
up. -/
theorem fetch_ends (inv : Inv strict sys nodes held) {cache : Cache}
    {init : Nat → System → System} {outcome : Outcome System Errno Nat}
    (acquires : Acquisition cache init (fun item sys => init item (memory.fill item sys))
      (memory.map (·.1)) sys nodes held outcome)
    (usual : cache ≠ .completionSignalers)
    (inits : ∀ (sys : System) (nodes : Nodes) (item : Nat), Inv strict sys nodes (item :: held) →
      item ∉ sys.clientItems → Inv strict (init item sys) nodes (item :: held))
    (control : ∀ (sys : System) (item : Nat), (init item sys).control = sys.control)
    (allocated : ∀ (sys : System) (item : Nat), (init item sys).allocated = sys.allocated)
    (closure : ∀ (sys : System) (item : Nat), ((init item sys).items item).closure.isSome = true)
    (completion : ∀ (sys : System) (item : Nat),
      ((init item sys).items item).completion = (sys.items item).completion) :
    outcome.Ends stuck (Fetched strict sys nodes held memory) fun _ after => after = sys := by
  cases acquires with
  | @cached node rest result split placed own =>
    have same := control (sys.taken cache result) node
    refine ⟨⟨_, inits _ _ _ (inv.taken split placed) own, Function.update_of_ne (by simp) _ _⟩, same,
      closure _ _, ?_, ?_, .inl (allocated _ _)⟩
    · rw [control_clientItems same]
      exact own
    · intro holds _
      rw [completion]
      refine (inv.reset holds).clean (.cache cache) (by simp) (by simpa using usual) node ?_
      rw [split]
      exact List.mem_cons_self
  | @fresh node empty delivered placed own =>
    have held' : Inv strict (sys.kalloc node) nodes (node :: held) :=
      inv.frame placed rfl rfl rfl rfl rfl rfl rfl rfl
    have filled := fill_control memory node (sys.kalloc node)
    have own' : node ∉ (memory.fill node (sys.kalloc node)).clientItems := by
      rw [control_clientItems filled]
      exact own
    have same := (control (memory.fill node (sys.kalloc node)) node).trans filled
    refine ⟨⟨_, inits _ _ _ (held'.filled own) own', rfl⟩, same, closure _ _, ?_, ?_, .inr ⟨delivered, ?_⟩⟩
    · rw [control_clientItems same]
      exact own
    · intro _ clean
      rw [completion]
      exact fill_clean delivered clean _
    · rw [allocated, fill_allocated]
      rfl
  | refused => rfl

theorem acquireWorkItem_ends (inv : Inv strict sys nodes held)
    (free : sys.isFree (memory.map (·.1)) = true) :
    (acquireWorkItem closure memory sys).Ends stuck (Fetched strict sys nodes held memory)
      fun _ after => after = sys := by
  refine fetch_ends inv (acquireWorkItem_cases inv.placed free) (by simp) ?_ (fun _ _ => rfl) (fun _ _ => rfl) ?_ ?_
  · exact fun sys nodes item inv own => inv.workItemInit own .immediate closure true
  · intro sys item
    rw [(workItemInit_fields sys item .immediate closure true).1]
    rfl
  · exact fun sys item => (workItemInit_fields sys item .immediate closure true).2

theorem acquireTimer_ends (inv : Inv strict sys nodes held) {deadline interval : Int} (free : sys.isFree (memory.map (·.1)) = true) :
    (acquireTimer deadline interval closure memory sys).Ends stuck (Fetched strict sys nodes held memory)
      fun _ after => after = sys := by
  refine fetch_ends inv (acquireTimer_cases inv.placed free) (by simp) ?_ (fun _ _ => rfl) (fun _ _ => rfl) ?_ ?_
  · exact fun sys nodes item inv own => inv.timerInit own deadline interval closure true
  · intro sys item
    rw [(timerInit_fields sys item deadline interval closure true).1]
    rfl
  · exact fun sys item => (timerInit_fields sys item deadline interval closure true).2

structure Equipped (strict : Prop) (sys : System) (held : List Nat) (signaler : Nat) (after : System) : Prop where
  inv : ∃ nodes, Inv strict after nodes (signaler :: held)
  control : after.control = sys.control
  items : after.items = sys.items
  own : signaler ∉ after.clientItems
  empty : strict → (after.signalers signaler).semaphore = 0

theorem acquireCompletionSignaler_ends (inv : Inv strict sys nodes held) {address : Option Nat}
    (free : sys.isFree address = true) :
    (acquireCompletionSignaler address sys).Ends stuck (Equipped strict sys held) fun _ after => after = sys := by
  have acquires := acquireCompletionSignaler_cases inv.placed free
  generalize acquireCompletionSignaler address sys = outcome at acquires ⊢
  cases acquires with
  | @cached node rest result split placed own =>
    refine ⟨⟨_, (inv.taken split placed).unlink.setHeldSignaler _⟩, rfl, rfl, own, ?_⟩
    intro holds
    have idle : (sys.signalers node).semaphore = 0 := by
      refine (inv.reset holds).idle node ?_
      rw [split]
      exact List.mem_cons_self
    simpa [System.completionSignalerInit, System.setSignaler, System.unlink, System.taken,
      System.withList] using idle
  | @fresh node empty delivered placed own =>
    have held' : Inv strict (sys.kalloc node) nodes (node :: held) :=
      inv.frame placed rfl rfl rfl rfl rfl rfl rfl rfl
    refine ⟨⟨_, (held'.unlink.setHeldSignaler _).setHeldSignaler _⟩, rfl, rfl, own, ?_⟩
    simp [System.completionSignalerCreate, System.setSignaler]
  | refused => rfl

/-! ## Dispatching -/

theorem acquireVirtualProcessor_ends (inv : Inv strict sys nodes held) (available : Bool) :
    (acquireVirtualProcessor available sys).Ends stuck
      (fun _ after => Inv strict after nodes held ∧ after.lock = sys.lock)
      fun _ after => after = sys ∧ sys.WantsVirtualProcessor ∧ available = false := by
  have hires := acquireVirtualProcessor_cases inv.placed available
  generalize acquireVirtualProcessor available sys = outcome at hires ⊢
  cases hires with
  | enough => exact ⟨inv, rfl⟩
  | hired found => exact ⟨inv.hire found, rfl⟩
  | refused wants out => exact ⟨rfl, wants, out⟩

/-- The rest of a dispatch behind the change of a queue. -/
theorem acquire_unlock_ends (inv : Inv strict sys nodes held) (mine : sys.lock = some self) (available : Bool) :
    ((do acquireVirtualProcessor available; lockUnlock self : Code System Errno Unit) sys).Ends stuck
      (fun _ => Guarded strict none held)
      fun _ after => Guarded strict (some self) held after ∧ sys.WantsVirtualProcessor ∧ available = false := by
  refine Code.ends_bind (Code.ends_mono (acquireVirtualProcessor_ends inv available) (fun _ _ ends => ends) ?_) ?_
  · rintro - after ⟨rfl, wants, out⟩
    exact ⟨⟨mine, _, inv⟩, wants, out⟩
  · rintro - after ⟨inv', lock⟩
    exact lockUnlock_ends ⟨lock.trans mine, _, inv'⟩

theorem dispatchWorkItemAsyncAndUnlock_ends (inv : Inv strict sys nodes (item :: held))
    (mine : sys.lock = some self) (closure : (sys.items item).closure.isSome = true)
    (running : sys.state = .running) (clean : strict → (sys.items item).completion = none)
    (available : Bool) :
    (dispatchWorkItemAsyncAndUnlock self item .async available sys).Ends stuck
      (fun _ => Guarded strict none held)
      fun _ after => Guarded strict (some self) held after ∧ sys.Overloaded ∧ available = false := by
  have queued : Inv strict (sys.enqueueItem item .async) _ held :=
    inv.enqueue closure running clean (by simp)
  exact acquire_unlock_ends queued mine available

/-- What is left of a synchronous dispatch that fails: the item is in hand as before, or it is
in the queue and its signaler is given back. -/
def SyncFailed (strict : Prop) (sys : System) (self : Thread) (item : Nat) (held : List Nat)
    (available : Bool) (after : System) : Prop :=
  after.lock = some self ∧ after.calls = sys.calls ∧ ((∃ nodes, Inv strict after nodes (item :: held)) ∨
    (sys.Overloaded ∧ available = false ∧ (¬ strict → ∃ nodes, Inv strict after nodes held)))

section Control
variable {after : System} (same : after.control = sys.control)
include same

theorem wantsVirtualProcessor_of_control (wants : after.WantsVirtualProcessor) :
    sys.WantsVirtualProcessor := by
  simp only [System.control, Prod.mk.injEq] at same
  obtain ⟨state, minimum, maximum, available, count, -⟩ := same
  unfold System.WantsVirtualProcessor at wants ⊢
  rw [← state, ← minimum, ← maximum, ← available, ← count]
  exact wants

theorem overloaded_of_control (wants : after.Overloaded) : sys.Overloaded := by
  refine wantsVirtualProcessor_of_control ?_ wants
  simp only [System.control, Prod.mk.injEq] at same ⊢
  simpa using same

end Control

variable {address : Option Nat} {closure : Nat} {memory : Memory}

theorem dispatchWorkItemSyncAndUnlock_ends (inv : Inv strict sys nodes (item :: held))
    (mine : sys.lock = some self) (closure : (sys.items item).closure.isSome = true)
    (running : sys.state = .running) (free : sys.isFree address = true)
    (available owned : Bool) :
    (dispatchWorkItemSyncAndUnlock self sys.calls.length item address available sys).Ends stuck
      (fun signaler after => after.lock = none ∧ ∃ nodes, Inv strict
        { after with calls := after.calls ++ [.waiting item signaler owned] } nodes held)
      fun _ after => SyncFailed strict sys self item held available after := by
  refine Code.ends_bind (Code.ends_mono (acquireCompletionSignaler_ends inv free) (fun _ _ ends => ends) ?_) ?_
  · rintro - after rfl
    exact ⟨mine, rfl, .inl ⟨_, inv⟩⟩
  intro signaler base equipped
  obtain ⟨nodes₁, inv₁⟩ := equipped.inv
  have lock := (control_lock equipped.control).trans mine
  have calls := control_calls equipped.control
  have running' := (control_state equipped.control).trans running
  rw [Code.bind_of_ok (Code.modify_apply _ _)]
  have both := inv₁.swap
  have closure' : (base.items item).closure.isSome = true := by
    rw [equipped.items]
    exact closure
  have pointing : (base.setItem item fun value => { value with completion := some signaler }).Placed nodes₁
      (item :: signaler :: held) := both.placed.setItem item rfl id rfl
  have queued := pointing.enqueueItem (.sync sys.calls.length signaler)
    (by simpa [System.setItem] using closure') running'
  have attached := both.attach equipped.own closure' running' equipped.empty owned
  -- the call is on record behind this function, so the virtual processor is acquired in front of it
  have hires := acquireVirtualProcessor_cases queued available
  rw [show sys.calls.length = base.calls.length by rw [calls]] at hires ⊢
  have dispatched : (Code.onError (do
        Code.modify (·.enqueueItem item (.sync base.calls.length signaler))
        acquireVirtualProcessor available
        lockUnlock self) (Code.modify (·.relinquishCompletionSignaler signaler))
      (base.setItem item fun value => { value with completion := some signaler })).Ends stuck
      (fun (_ : Unit) after => after.lock = none ∧ ∃ nodes, Inv strict
        { after with calls := after.calls ++ [.waiting item signaler owned] } nodes held)
      fun (_ : Errno) after => SyncFailed strict sys self item held available after := by
    refine Code.ends_onError (fun _ after =>
      after = (base.setItem item fun value => { value with completion := some signaler }).enqueueItem item
        (.sync base.calls.length signaler) ∧ after.WantsVirtualProcessor ∧ available = false) ?_ ?_
    · rw [Code.bind_of_ok (Code.modify_apply _ _)]
      rw [Code.bind_apply]
      generalize acquireVirtualProcessor available _ = outcome at hires ⊢
      cases hires with
      | enough =>
        change (lockUnlock self _).Ends stuck _ _
        rw [lockUnlock_apply]
        · exact ⟨rfl, _, attached.withLock none⟩
        · exact lock
      | hired found =>
        change (lockUnlock self _).Ends stuck _ _
        rw [lockUnlock_apply]
        · exact ⟨rfl, _, (attached.hire found).withLock none⟩
        · exact lock
      | refused wants out => exact ⟨rfl, wants, out⟩
    · rintro - after ⟨rfl, wants, out⟩
      have same : (base.setItem item fun value => { value with completion := some signaler }).control =
          sys.control := equipped.control
      refine ⟨?_, ?_, .inr ⟨overloaded_of_control same wants, out, ?_⟩⟩
      · exact (control_lock (relinquishCompletionSignaler_control _ _)).trans lock
      · exact (control_calls (relinquishCompletionSignaler_control _ _)).trans calls
      · intro loose
        have pointing' := both.changeItem pointing (.inr ⟨both.placed.not_active,
          fun member => both.placed.not_in_lanes member rfl, fun _ => both.placed.chained.held_not_mem _⟩)
        have queued' : Inv strict ((base.setItem item fun value => { value with completion := some signaler }).enqueueItem
            item (.sync base.calls.length signaler)) _ _ :=
          pointing'.enqueue (by simpa [System.setItem] using closure') running'
            (fun holds => absurd holds loose) ?_
        · obtain ⟨nodes', -, inv'⟩ := queued'.relinquishCompletionSignaler equipped.own
            fun holds => absurd holds loose
          exact ⟨nodes', inv'⟩
        · intro call signaler' same
          cases same
          exact List.getElem?_eq_none (le_refl _)
  exact Code.ends_bind dispatched fun _ _ ends => ends

/-! ### Timers -/

/-- The scan of the timer queue comes to a place between two timers or to an end of the queue. -/
theorem timerBefore_cases {list : SList Nat} {all front back : List Nat} (holds : list.Holds sys.links all)
    (split : all = front ++ back) (deadline : Int) (fuel : Nat) :
    (fuel ≤ back.length ∧ timerBefore sys deadline fuel back.head? front.getLast? = none) ∨
      ∃ front' back', all = front' ++ back' ∧
        timerBefore sys deadline fuel back.head? front.getLast? = some front'.getLast? := by
  induction back generalizing front fuel with
  | nil =>
    cases fuel with
    | zero => exact .inl ⟨Nat.zero_le _, rfl⟩
    | succ fuel => exact .inr ⟨front, [], split, rfl⟩
  | cons timer back ih =>
    cases fuel with
    | zero => exact .inl ⟨Nat.zero_le _, rfl⟩
    | succ fuel =>
      rw [List.head?_cons, timerBefore]
      split_ifs
      · exact .inr ⟨front, timer :: back, split, rfl⟩
      · have ahead := ih (split.trans (List.append_cons front timer back)) fuel
        rw [List.getLast?_append, List.getLast?_singleton, Option.some_or] at ahead
        subst split
        rw [holds.next]
        rcases ahead with ⟨short, stops⟩ | found
        · exact .inl ⟨by simpa using short, stops⟩
        · exact .inr found

theorem addTimer_ends (inv : Inv strict sys nodes (item :: held))
    (closure : (sys.items item).closure.isSome = true) (running : sys.state = .running)
    (clean : strict → (sys.items item).completion = none) (fuel : Nat) :
    (addTimer fuel item sys).Ends (fuel ≤ (nodes .timerQueue).length)
      (fun _ after => after.control = sys.control ∧ ∃ nodes, Inv strict after nodes held ∧ item ∈ nodes .timerQueue)
      fun _ _ => False := by
  unfold addTimer
  have holds := inv.placed.chained.lists .timerQueue
  rw [holds.first]
  rcases timerBefore_cases holds (List.nil_append _).symm (sys.items item).deadline fuel with
    ⟨short, stops⟩ | ⟨front, back, split, finds⟩
  · rw [List.getLast?_nil] at stops
    rw [stops]
    exact short
  · rw [List.getLast?_nil] at finds
    rw [finds]
    refine ⟨rfl, _, inv.moveTimers (inv.placed.enqueue (by simp) split closure running) ?_, ?_⟩
    · intro strictly other member
      have cases : other ∈ nodes .timerQueue ∨ other = item := by
        rw [split]
        simp only [List.mem_append, List.mem_cons] at member ⊢
        tauto
      rcases cases with member | rfl
      · exact (inv.reset strictly).clean .timerQueue (by simp) (by simp) other member
      · exact clean strictly
    · simp

theorem dispatchTimerLocked_ends (inv : Inv strict sys nodes (item :: held))
    (mine : sys.lock = some self) (closure : (sys.items item).closure.isSome = true)
    (running : sys.state = .running) (clean : strict → (sys.items item).completion = none)
    (fuel : Nat) (available : Bool) :
    (dispatchTimerLocked self fuel item .async available sys).Ends (fuel ≤ (nodes .timerQueue).length)
      (fun _ => Guarded strict none held)
      fun _ after => Guarded strict (some self) held after ∧ sys.WantsVirtualProcessor ∧ available = false := by
  refine Code.ends_bind (Code.ends_mono (addTimer_ends inv closure running clean fuel) (fun _ _ ends => ends)
    (by simp)) ?_
  rintro - after ⟨same, nodes', inv', member⟩
  refine Code.ends_mono (acquire_unlock_ends (inv'.dispatchTimer member) ((control_lock same).trans mine)
    available) (fun _ _ ends => ends) ?_
  rintro - final ⟨guarded, wants, out⟩
  exact ⟨guarded, wantsVirtualProcessor_of_control same wants, out⟩

/-! ## API functions that dispatch -/

theorem dispatchAsync_ends (inv : Inv strict sys nodes held) (unlocked : sys.lock = none) {available : Bool} (free : sys.isFree (memory.map (·.1)) = true)
    (served : sys.Overloaded → available = true) (clean : strict → memory.Clean) (self : Thread) :
    (dispatchAsync self closure memory available sys).Ends stuck (fun _ => Guarded strict none held)
      fun _ => Guarded strict none held := by
  unfold dispatchAsync
  rw [Code.bind_of_ok (lockLock_apply unlocked self), Code.bind_of_ok (Code.get_apply _)]
  have locked := inv.withLock (some self)
  split_ifs with stopped
  · exact lockUnlock_ends ⟨rfl, _, locked⟩
  · refine Code.ends_onError (fun _ => Guarded strict (some self) held) ?_ fun _ _ => lockUnlock_ends
    refine Code.ends_bind (Code.ends_mono (acquireWorkItem_ends locked free) (fun _ _ ends => ends) ?_) ?_
    · rintro - after rfl
      exact ⟨rfl, _, locked⟩
    · intro item base fetched
      obtain ⟨nodes', inv', timers⟩ := fetched.inv
      have lock := control_lock fetched.control
      have running := (control_state fetched.control).trans (not_not.mp stopped)
      refine Code.ends_onError (fun _ _ => False) (Code.ends_mono (dispatchWorkItemAsyncAndUnlock_ends inv' lock
        fetched.closure running (fun holds => fetched.clean holds (clean holds)) available)
        (fun _ _ ends => ends) ?_) (by simp)
      rintro - after ⟨-, overloaded, out⟩
      have overloaded' := overloaded_of_control fetched.control overloaded
      exact Bool.false_ne_true (out.symm.trans (served overloaded'))

theorem dispatchAsyncAfter_ends (inv : Inv strict sys nodes held) (unlocked : sys.lock = none) {deadline : Int} {available : Bool} (free : sys.isFree (memory.map (·.1)) = true)
    (served : sys.WantsVirtualProcessor → available = true) (clean : strict → memory.Clean) (self : Thread)
    (fuel : Nat) :
    (dispatchAsyncAfter self fuel deadline closure memory available sys).Ends
      (fuel ≤ (nodes .timerQueue).length) (fun _ => Guarded strict none held)
      fun _ => Guarded strict none held := by
  unfold dispatchAsyncAfter
  rw [Code.bind_of_ok (lockLock_apply unlocked self), Code.bind_of_ok (Code.get_apply _)]
  have locked := inv.withLock (some self)
  split_ifs with stopped
  · exact lockUnlock_ends ⟨rfl, _, locked⟩
  · refine Code.ends_onError (fun _ => Guarded strict (some self) held) ?_ fun _ _ => lockUnlock_ends
    refine Code.ends_bind (Code.ends_mono (acquireTimer_ends locked free) (fun _ _ ends => ends) ?_) ?_
    · rintro - after rfl
      exact ⟨rfl, _, locked⟩
    · intro item base fetched
      obtain ⟨nodes', inv', timers⟩ := fetched.inv
      have lock := control_lock fetched.control
      have running := (control_state fetched.control).trans (not_not.mp stopped)
      rw [← timers]
      refine Code.ends_onError (fun _ _ => False) (Code.ends_mono (dispatchTimerLocked_ends inv' lock
        fetched.closure running (fun holds => fetched.clean holds (clean holds)) fuel available)
        (fun _ _ ends => ends) ?_) (by simp)
      rintro - after ⟨-, wants, out⟩
      have wants' := wantsVirtualProcessor_of_control fetched.control wants
      exact Bool.false_ne_true (out.symm.trans (served wants'))

/-- What a synchronous call leaves behind when it comes to its wait or returns. -/
def CallStarted (strict : Prop) (held : List Nat) (call : Call) (after : System) : Prop :=
  after.lock = none ∧ ∃ nodes, Inv strict { after with calls := after.calls ++ [call] } nodes held

theorem startCall_ends {code : Nat → Code System Errno Call}
    (ends : (code sys.calls.length sys).Ends stuck (CallStarted strict held) fun _ => Guarded strict none held) :
    (startCall code sys).Ends stuck (fun _ => Guarded strict none held) fun _ _ => False := by
  unfold startCall
  cases result : code sys.calls.length sys with
  | ok call after =>
    rw [result] at ends
    exact ends
  | err error after =>
    rw [result] at ends
    obtain ⟨unlocked, nodes, inv⟩ := ends
    exact ⟨unlocked, nodes, inv.startCall (by simp)⟩
  | fault =>
    rw [result] at ends
    exact ends

theorem isFree_of_fetched {after : System} (fetched : Fetched strict sys nodes held memory item after) (free : sys.isFree address = true)
    (apart : address = none ∨ address ≠ memory.map (·.1)) : after.isFree address = true := by
  cases address with
  | none => rfl
  | some address =>
    simp only [System.isFree, decide_eq_true_eq] at free ⊢
    rcases fetched.allocated with same | ⟨delivered, grown⟩
    · rw [same]
      exact free
    · rw [grown, List.mem_cons]
      rintro (rfl | member)
      · rw [delivered] at apart
        simp at apart
      · exact free member

theorem dispatchSync_ends (inv : Inv strict sys nodes held) (unlocked : sys.lock = none) {available : Bool} (free : sys.isFree (memory.map (·.1)) = true)
    (free' : sys.isFree address = true) (apart : address = none ∨ address ≠ memory.map (·.1))
    (served : sys.Overloaded → available = true) (running : strict → sys.state = .running) :
    (dispatchSync sys.calls.length closure memory address available sys).Ends stuck (CallStarted strict held)
      fun _ => Guarded strict none held := by
  unfold dispatchSync
  rw [Code.bind_of_ok (lockLock_apply unlocked _), Code.bind_of_ok (Code.get_apply _)]
  have locked := inv.withLock (some (.client sys.calls.length))
  split_ifs with stopped
  · rw [Code.bind_of_ok (lockUnlock_apply rfl)]
    refine ⟨rfl, nodes, (locked.withLock none).startCall ?_⟩
    exact fun holds => absurd (running holds) stopped
  · refine Code.ends_onError (fun _ => Guarded strict (some (.client sys.calls.length)) held) ?_
      fun _ _ => lockUnlock_ends
    refine Code.ends_bind (Code.ends_mono (acquireWorkItem_ends locked free) (fun _ _ ends => ends) ?_) ?_
    · rintro - after rfl
      exact ⟨rfl, _, locked⟩
    · intro item base fetched
      obtain ⟨nodes', inv', -⟩ := fetched.inv
      have lock := control_lock fetched.control
      have running := (control_state fetched.control).trans (not_not.mp stopped)
      have calls : sys.calls.length = base.calls.length := by rw [control_calls fetched.control]
      have dispatches : (dispatchWorkItemSyncAndUnlock (.client sys.calls.length) base.calls.length item address
          available base).Ends stuck _ _ := dispatchWorkItemSyncAndUnlock_ends inv' lock fetched.closure running
        (isFree_of_fetched fetched free' apart) available true
      rw [← calls] at dispatches
      refine Code.ends_onError (fun _ => SyncFailed strict base (.client sys.calls.length) item held available)
        (Code.ends_bind (Code.ends_mono dispatches (fun _ _ ends => ends) fun _ _ ends => ends) fun _ _ ends => ends) ?_
      rintro - after ⟨mine, -, ⟨nodes'', inv''⟩ | ⟨overloaded, out, -⟩⟩
      · obtain ⟨nodes₃, -, inv₃⟩ := inv''.relinquishWorkItem
        exact ⟨(control_lock (relinquishWorkItem_control _ _)).trans mine, _, inv₃⟩
      · have overloaded' := overloaded_of_control fetched.control overloaded
        exact absurd (out.symm.trans (served overloaded')) Bool.false_ne_true

/-! ### Items of clients -/

theorem beginDispatch_apply (sys : System) (item : Nat) :
    beginDispatch item sys = .ok (sys.items item).isBeingDispatched
      (sys.setItem item fun value => { value with isBeingDispatched := true }) := rfl

theorem Inv.mark (inv : Inv strict sys nodes held) (item : Nat) :
    Inv strict (sys.setItem item fun value => { value with isBeingDispatched := true }) nodes held :=
  inv.setItem item rfl (fun _ => rfl) rfl rfl

/-- An item that was not marked is nowhere, and comes into hand. -/
theorem Inv.begin (inv : Inv strict sys nodes held) (client : item ∈ sys.clientItems)
    (unmarked : (sys.items item).isBeingDispatched = false) :
    Inv strict (sys.setItem item fun value => { value with isBeingDispatched := true }) nodes (item :: held) := by
  have foreign := inv.placed.foreign item client
  have nowhere : sys.load nodes held item = 0 := by
    by_contra somewhere
    have marked := foreign.marked (Nat.pos_of_ne_zero somewhere)
    exact Bool.false_ne_true (unmarked.symm.trans marked)
  refine (inv.mark item).hold nowhere foreign.allocated ?_
  simp [System.setItem]

theorem dispatchWorkItemSync_ends (inv : Inv strict sys nodes held) (unlocked : sys.lock = none)
    (client : item ∈ sys.clientItems) {available : Bool}
    (free : sys.isFree address = true) (served : strict → sys.Overloaded → available = true)
    (running : strict → sys.state = .running) :
    (dispatchWorkItemSync sys.calls.length item address available sys).Ends stuck (CallStarted strict held)
      fun _ => Guarded strict none held := by
  unfold dispatchWorkItemSync
  rw [Code.bind_of_ok (beginDispatch_apply sys item)]
  cases marked : (sys.items item).isBeingDispatched with
  | true => exact ⟨unlocked, _, inv.mark item⟩
  | false =>
    have unlocked' : (sys.setItem item fun value => { value with isBeingDispatched := true }).lock = none :=
      unlocked
    simp only [Bool.false_eq_true, if_false]
    rw [Code.bind_of_ok (lockLock_apply unlocked' _), Code.bind_of_ok (Code.get_apply _)]
    have locked := (inv.begin client marked).withLock (some (.client sys.calls.length))
    split_ifs with stopped
    · rw [Code.bind_of_ok (lockUnlock_apply rfl)]
      refine ⟨rfl, nodes, (locked.drop.withLock none).startCall ?_⟩
      exact fun holds => absurd (running holds) stopped
    · have closure : (sys.items item).closure.isSome = true := (inv.placed.foreign item client).closure
      refine Code.ends_bind (Code.ends_onError
        (fun _ => SyncFailed strict _ (.client sys.calls.length) item held available)
        (dispatchWorkItemSyncAndUnlock_ends locked rfl (by simpa [System.setItem] using closure)
          (not_not.mp stopped) free available false) ?_) fun _ _ ends => ends
      rintro - after ⟨mine, -, ⟨nodes', inv'⟩ | ⟨overloaded, out, loose⟩⟩
      · exact lockUnlock_ends ⟨mine, _, inv'.drop⟩
      · have notStrict : ¬ strict := by
          intro holds
          exact Bool.false_ne_true (out.symm.trans (served holds overloaded))
        exact lockUnlock_ends ⟨mine, loose notStrict⟩

theorem dispatchWorkItemAsync_ends (inv : Inv strict sys nodes held) (unlocked : sys.lock = none)
    (client : item ∈ sys.clientItems) (clean : strict → (sys.items item).completion = none)
    (self : Thread) (available : Bool) :
    (dispatchWorkItemAsync self item available sys).Ends stuck (fun _ => Guarded strict none held)
      fun _ => Guarded strict none held := by
  unfold dispatchWorkItemAsync
  rw [Code.bind_of_ok (beginDispatch_apply sys item)]
  cases marked : (sys.items item).isBeingDispatched with
  | true => exact ⟨unlocked, _, inv.mark item⟩
  | false =>
    have unlocked' : (sys.setItem item fun value => { value with isBeingDispatched := true }).lock = none :=
      unlocked
    simp only [Bool.false_eq_true, if_false]
    rw [Code.bind_of_ok (lockLock_apply unlocked' _), Code.bind_of_ok (Code.get_apply _)]
    have locked := (inv.begin client marked).withLock (some self)
    split_ifs with stopped
    · exact lockUnlock_ends ⟨rfl, _, locked.drop⟩
    · have closure : (sys.items item).closure.isSome = true := (inv.placed.foreign item client).closure
      refine Code.ends_onError (fun _ => Guarded strict (some self) held) (Code.ends_mono
        (dispatchWorkItemAsyncAndUnlock_ends locked rfl (by simpa [System.setItem] using closure)
          (not_not.mp stopped) (by simpa [System.setItem] using clean) available)
        (fun _ _ ends => ends) fun _ _ ends => ends.1) fun _ _ => lockUnlock_ends

theorem dispatchTimer_ends (inv : Inv strict sys nodes held) (unlocked : sys.lock = none)
    (client : item ∈ sys.clientItems) (clean : strict → (sys.items item).completion = none)
    (self : Thread) (fuel : Nat) (available : Bool) :
    (dispatchTimer self fuel item available sys).Ends (fuel ≤ (nodes .timerQueue).length)
      (fun _ => Guarded strict none held) fun _ => Guarded strict none held := by
  unfold dispatchTimer
  rw [Code.bind_of_ok (beginDispatch_apply sys item)]
  cases marked : (sys.items item).isBeingDispatched with
  | true => exact ⟨unlocked, _, inv.mark item⟩
  | false =>
    have unlocked' : (sys.setItem item fun value => { value with isBeingDispatched := true }).lock = none :=
      unlocked
    simp only [Bool.false_eq_true, if_false]
    rw [Code.bind_of_ok (lockLock_apply unlocked' _), Code.bind_of_ok (Code.get_apply _)]
    have locked := (inv.begin client marked).withLock (some self)
    split_ifs with stopped
    · exact lockUnlock_ends ⟨rfl, _, locked.drop⟩
    · have closure : (sys.items item).closure.isSome = true := (inv.placed.foreign item client).closure
      refine Code.ends_onError (fun _ => Guarded strict (some self) held) (Code.ends_mono
        (dispatchTimerLocked_ends locked rfl (by simpa [System.setItem] using closure)
          (not_not.mp stopped) (by simpa [System.setItem] using clean) fuel available)
        (fun _ _ ends => ends) fun _ _ ends => ends.1) fun _ _ => lockUnlock_ends

end Functions

end Apollo.Dispatchqueue
