import Apollo.Filesystem.Inode

/-!
# Wait queues

`VirtualProcessorScheduler_WaitOn` and the wake-up functions as seen from one
wait queue.  Which virtual processor runs next is left open: whoever is not on
a queue may go on.
-/

set_option autoImplicit false

namespace Apollo.Dispatcher

inductive WakeUpReason
  | finished
  | interrupted
  | timeout
  deriving DecidableEq

/-- What `WaitOn` returns behind the context switch. -/
def WakeUpReason.error : WakeUpReason → Option Errno
  | .finished => none
  | .interrupted => some .EINTR
  | .timeout => some .ETIMEDOUT

/-- A virtual processor on a wait queue, with the priority that it had when it entered. -/
structure Waiter where
  vpid : Nat
  effectivePriority : Nat
  isInterruptable : Bool
  deriving DecidableEq

abbrev WaitQueue : Type := List Waiter

/-- What `WaitOn` finds when it is called: whether a call-as-user of the caller is in progress and
aborted, whether a finite deadline has been reached, and the caller's effective priority. -/
structure Entry where
  isAborted : Bool
  isPast : Bool
  effectivePriority : Nat

namespace WaitQueue

def enter (waiter : Waiter) : WaitQueue → WaitQueue
  | [] => [waiter]
  | first :: rest =>
    if first.effectivePriority < waiter.effectivePriority then waiter :: first :: rest
    else first :: enter waiter rest

/-- `WaitOn` up to the context switch. -/
def waitOn (queue : WaitQueue) (vpid : Nat) (entry : Entry) (isInterruptable : Bool) : Except Errno WaitQueue :=
  if entry.isAborted then .error .EINTR
  else if entry.isPast then .error .ETIMEDOUT
  else .ok (queue.enter ⟨vpid, entry.effectivePriority, isInterruptable⟩)

def wakes (reason : WakeUpReason) (waiter : Waiter) : Bool :=
  decide (reason ≠ .interrupted) || waiter.isInterruptable

/-- `WakeUpSome`: the virtual processors that are woken up and the queue.  No count stands for
`INT_MAX`, which is more than there can be virtual processors. -/
def wakeUpSome (reason : WakeUpReason) : Option Nat → WaitQueue → List Nat × WaitQueue
  | _, [] => ([], [])
  | some 0, queue => ([], queue)
  | count, first :: rest =>
    let (woken, queue) := wakeUpSome reason (count.map (· - 1)) rest
    if wakes reason first then (first.vpid :: woken, queue) else (woken, first :: queue)

/-- `WakeUpOne` for a virtual processor that may be on the queue. -/
def wakeUpOne (reason : WakeUpReason) (vpid : Nat) (queue : WaitQueue) : List Nat × WaitQueue :=
  if queue.any fun waiter => waiter.vpid == vpid && wakes reason waiter then
    ([vpid], queue.filter fun waiter => waiter.vpid != vpid)
  else ([], queue)

def Has (queue : WaitQueue) (vpid : Nat) : Prop := ∃ waiter ∈ queue, waiter.vpid = vpid

section Lemmas
variable {queue : WaitQueue} {waiter : Waiter} {vpid : Nat} {reason : WakeUpReason}

@[simp] theorem mem_enter {other : Waiter} : other ∈ queue.enter waiter ↔ other = waiter ∨ other ∈ queue := by
  induction queue with
  | nil => simp [enter]
  | cons first rest ih =>
    unfold enter
    split
    · simp
    · simp only [List.mem_cons, ih]
      tauto

@[simp] theorem has_enter : (queue.enter waiter).Has vpid ↔ vpid = waiter.vpid ∨ queue.Has vpid := by
  unfold Has
  simp only [mem_enter]
  constructor
  · intro ⟨other, member, same⟩
    rcases member with rfl | member
    · exact .inl same.symm
    · exact .inr ⟨other, member, same⟩
  · intro
    | .inl same => exact ⟨waiter, .inl rfl, same.symm⟩
    | .inr ⟨other, member, same⟩ => exact ⟨other, .inr member, same⟩

theorem mem_wakeUpSome {count : Option Nat} (member : waiter ∈ queue) :
    waiter.vpid ∈ (wakeUpSome reason count queue).1 ∨ waiter ∈ (wakeUpSome reason count queue).2 := by
  induction queue generalizing count with
  | nil => exact .inr member
  | cons first rest ih =>
    by_cases stops : count = some 0
    · rw [stops]
      exact .inr member
    · rw [wakeUpSome]
      · rcases List.mem_cons.mp member with rfl | later
        · by_cases up : wakes reason waiter = true
          · simp [up]
          · simp [up]
        · have before := @ih (count.map (· - 1)) later
          by_cases up : wakes reason first = true
          · rcases before with woken | stays
            · simp [up, woken]
            · simp [up, stays]
          · rcases before with woken | stays
            · simp [up, woken]
            · simp [up, stays]
      · simpa using stops

theorem has_wakeUpSome {count : Option Nat} (has : queue.Has vpid) :
    vpid ∈ (wakeUpSome reason count queue).1 ∨ Has (wakeUpSome reason count queue).2 vpid := by
  obtain ⟨waiter, member, rfl⟩ := has
  rcases @mem_wakeUpSome _ _ reason count member with woken | stays
  · exact .inl woken
  · exact .inr ⟨waiter, stays, rfl⟩

theorem has_wakeUpOne {other : Nat} (has : queue.Has vpid) :
    vpid ∈ (wakeUpOne reason other queue).1 ∨ Has (wakeUpOne reason other queue).2 vpid := by
  obtain ⟨waiter, member, rfl⟩ := has
  unfold wakeUpOne
  split
  · by_cases same : waiter.vpid = other
    · exact .inl (by simp [same])
    · exact .inr ⟨waiter, List.mem_filter.mpr ⟨member, by simp [same]⟩, rfl⟩
  · exact .inr ⟨waiter, member, rfl⟩

theorem wakeUpSome_all (reason_ne : reason ≠ .interrupted) : (wakeUpSome reason none queue).2 = [] := by
  induction queue with
  | nil => rfl
  | cons first rest ih => simp [wakeUpSome, wakes, reason_ne, ih]

end Lemmas

end WaitQueue

def wake {place : Type} (places : Nat → place) (woken : List Nat) (resume : place → place) : Nat → place :=
  fun vpid => if vpid ∈ woken then resume (places vpid) else places vpid

end Apollo.Dispatcher
