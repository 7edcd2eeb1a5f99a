import Apollo.Filesystem.Inode
import Apollo.Klib.RingBuffer

/-!
# The queue of input events

`HIDEventQueue.c` keeps the events of the input devices in a ring.  The indices
are free-running and have 8 bits, while their difference is taken in `int`.  The
permits of the semaphore are what `Put` gives and `Get` takes.

An event stands for its type, its data and the time that `Put` stores with it.
-/

set_option autoImplicit false

namespace Apollo.Driver

open Klib
open Lib

variable {ε : Type}

structure HIDEventQueue (ε : Type) where
  permits : BitVec 32
  capacity : BitVec 8
  capacityMask : BitVec 8
  readIdx : BitVec 8
  writeIdx : BitVec 8
  overflowCount : BitVec 32
  data : Nat → ε

namespace HIDEventQueue

/-- `HIDEventQueue_Create`; `data` is the cleared memory.  `none` is a failed assertion. -/
def create (capacity : BitVec 32) (data : Nat → ε) : Option (HIDEventQueue ε) := do
  if capacity.toInt < 2 then none
  else
    let powerOfTwoCapacity ← intNextPowerOf2 32 capacity
    if powerOfTwoCapacity.toInt > 255 / 2 then none
    else
      some
        { permits := 0
          capacity := powerOfTwoCapacity.setWidth 8
          capacityMask := (powerOfTwoCapacity - 1).setWidth 8
          readIdx := 0
          writeIdx := 0
          overflowCount := 0
          data := data }

def isEmpty (queue : HIDEventQueue ε) : Bool := queue.readIdx = queue.writeIdx

/-- `HIDEventQueue_IsFull_Locked`.  The operands are promoted to `int`. -/
def isFull (queue : HIDEventQueue ε) : Bool :=
  (queue.writeIdx.toNat - queue.readIdx.toNat : Int) = queue.capacity.toNat

def slot (queue : HIDEventQueue ε) (index : BitVec 8) : Nat := (index &&& queue.capacityMask).toNat

/-- The part of `HIDEventQueue_Put` that removes the oldest event from a full queue. -/
def makeRoom (queue : HIDEventQueue ε) : HIDEventQueue ε :=
  if queue.isFull then { queue with readIdx := queue.readIdx + 1, overflowCount := queue.overflowCount + 1 } else queue

def put (queue : HIDEventQueue ε) (event : ε) : HIDEventQueue ε :=
  let queue := queue.makeRoom
  { queue with
    data := Function.update queue.data (queue.slot queue.writeIdx) event
    writeIdx := queue.writeIdx + 1
    permits := queue.permits + 1 }

/-- The loop of `HIDEventQueue_Get`, as long as there are permits; then the wait ends with the time-out. -/
def getLoop : Nat → HIDEventQueue ε → Except Errno ε × HIDEventQueue ε
  | 0, queue => (.error .ETIMEDOUT, queue)
  | permits + 1, queue =>
    let queue := { queue with permits := queue.permits - 1 }
    if queue.isEmpty then getLoop permits queue
    else (.ok (queue.data (queue.slot queue.readIdx)), { queue with readIdx := queue.readIdx + 1 })

def get (queue : HIDEventQueue ε) : Except Errno ε × HIDEventQueue ε := getLoop queue.permits.toInt.toNat queue

end HIDEventQueue

/-! ## The newest events -/

/-- What the queue stands for: the newest events, oldest first, and how many were dropped. -/
structure NewestEvents (ε : Type) where
  capacity : Nat
  events : List ε
  overflowCount : BitVec 32

namespace NewestEvents

def empty (capacity : Nat) : NewestEvents ε := ⟨capacity, [], 0⟩

def put (newest : NewestEvents ε) (event : ε) : NewestEvents ε :=
  if newest.events.length = newest.capacity then
    { newest with events := newest.events.tail ++ [event], overflowCount := newest.overflowCount + 1 }
  else { newest with events := newest.events ++ [event] }

def get (newest : NewestEvents ε) : Except Errno ε × NewestEvents ε :=
  match newest.events with
  | [] => (.error .ETIMEDOUT, newest)
  | event :: rest => (.ok event, { newest with events := rest })

end NewestEvents

/-! ## The ring and the list -/

namespace HIDEventQueue

structure Holds (exponent : Nat) (queue : HIDEventQueue ε) (newest : NewestEvents ε) : Prop where
  small : exponent ≤ 6
  capacity : queue.capacity.toNat = 2 ^ exponent
  mask : queue.capacityMask.toNat = 2 ^ exponent - 1
  same : newest.capacity = 2 ^ exponent
  bounded : newest.events.length ≤ 2 ^ exponent
  write : queue.writeIdx = queue.readIdx + BitVec.ofNat 8 newest.events.length
  stored : ∀ offset (inside : offset < newest.events.length),
    queue.data (queue.slot (queue.readIdx + BitVec.ofNat 8 offset)) = newest.events[offset]
  overflow : queue.overflowCount = newest.overflowCount

def IsFullAndWrapped (queue : HIDEventQueue ε) : Prop :=
  queue.writeIdx - queue.readIdx = queue.capacity ∧ queue.writeIdx.toNat < queue.readIdx.toNat

instance (queue : HIDEventQueue ε) : Decidable queue.IsFullAndWrapped := inferInstanceAs (Decidable (_ ∧ _))

section Ring
variable {exponent : Nat} {queue : HIDEventQueue ε} {newest : NewestEvents ε}

variable (holds : Holds exponent queue newest)
include holds

theorem Holds.size_le : 0 < 2 ^ exponent ∧ 2 ^ exponent ≤ 64 :=
  ⟨Nat.two_pow_pos exponent, Nat.pow_le_pow_right (Nat.succ_pos 1) holds.small⟩

theorem Holds.ahead : queue.writeIdx.toNat = (queue.readIdx.toNat + newest.events.length) % 256 := by
  rw [holds.write, BitVec.toNat_add, BitVec.toNat_ofNat]
  omega

theorem Holds.isFullAndWrapped_iff :
    queue.IsFullAndWrapped ↔ newest.events.length = 2 ^ exponent ∧ queue.writeIdx.toNat < queue.readIdx.toNat := by
  have bounded := holds.bounded
  have ahead := holds.ahead
  have capacity := holds.capacity
  unfold IsFullAndWrapped
  rw [BitVec.toNat_eq, BitVec.toNat_sub]
  omega

/-- The test for a full queue is right as long as the write index has not wrapped. -/
theorem Holds.isFull_iff :
    queue.isFull = true ↔ newest.events.length = 2 ^ exponent ∧ queue.readIdx.toNat ≤ queue.writeIdx.toNat := by
  have size := holds.size_le
  have bounded := holds.bounded
  have ahead := holds.ahead
  unfold isFull
  rw [decide_eq_true_eq, holds.capacity]
  omega

theorem Holds.isEmpty_iff : queue.isEmpty = true ↔ newest.events = [] := by
  have size := holds.size_le
  have bounded := holds.bounded
  have ahead := holds.ahead
  unfold isEmpty
  rw [decide_eq_true_eq, BitVec.toNat_eq, ← List.length_eq_zero_iff]
  omega

theorem Holds.append (room : newest.events.length < 2 ^ exponent) (event : ε) (permits : BitVec 32) : Holds exponent
      { queue with
        data := Function.update queue.data (queue.slot queue.writeIdx) event
        writeIdx := queue.writeIdx + 1
        permits := permits }
      { newest with events := newest.events ++ [event] } := by
  refine ⟨holds.small, holds.capacity, holds.mask, holds.same, ?_, ?_, ?_, holds.overflow⟩
  · rw [List.length_append]
    exact room
  · rw [holds.write, List.length_append, BitVec.ofNat_add, BitVec.add_assoc]
    rfl
  · intro offset inside
    rw [List.length_append, List.length_singleton] at inside
    change Function.update queue.data (queue.slot queue.writeIdx) event (queue.slot _) = _
    by_cases last : offset = newest.events.length
    · subst last
      rw [holds.write, Function.update_self]
      simp
    · have before : offset < newest.events.length := by omega
      rw [Function.update_of_ne, holds.stored offset before, List.getElem_append_left before]
      rw [holds.write]
      intro same
      have equal := masked_inj (by have := holds.small; omega) holds.mask (by omega) room same
      exact last equal

theorem Holds.dropFirst {event : ε} {rest : List ε} (isFirst : newest.events = event :: rest)
    (permits overflowCount : BitVec 32) :
    Holds exponent { queue with readIdx := queue.readIdx + 1, permits := permits, overflowCount := overflowCount }
      { newest with events := rest, overflowCount := overflowCount } := by
  have bounded := holds.bounded
  have write := holds.write
  have stored := holds.stored
  rw [isFirst, List.length_cons] at bounded
  have shift : ∀ offset, queue.readIdx + 1 + BitVec.ofNat 8 offset = queue.readIdx + BitVec.ofNat 8 (offset + 1) := by
    intro offset
    rw [BitVec.add_assoc, Nat.add_comm offset 1, BitVec.ofNat_add]
    rfl
  refine ⟨holds.small, holds.capacity, holds.mask, holds.same, by dsimp only; omega, ?_, ?_, rfl⟩
  · rw [write, isFirst, List.length_cons, shift]
  · intro offset inside
    change queue.data (queue.slot (queue.readIdx + 1 + BitVec.ofNat 8 offset)) = rest[offset]
    rw [shift, stored (offset + 1) (by rw [isFirst, List.length_cons]; exact Nat.succ_lt_succ inside)]
    simp only [isFirst, List.getElem_cons_succ]

theorem Holds.put (straight : ¬queue.IsFullAndWrapped) (event : ε) :
    Holds exponent (queue.put event) (newest.put event) := by
  have size := holds.size_le
  rw [holds.isFullAndWrapped_iff, not_and, Nat.not_lt] at straight
  unfold HIDEventQueue.put NewestEvents.put makeRoom
  by_cases full : newest.events.length = 2 ^ exponent
  · obtain ⟨oldest, rest, isFirst⟩ : ∃ oldest rest, newest.events = oldest :: rest := by
      cases events : newest.events with
      | nil =>
        rw [events] at full
        simp at full
        omega
      | cons oldest rest => exact ⟨oldest, rest, rfl⟩
    have room := full
    rw [isFirst, List.length_cons] at room
    rw [if_pos (full.trans holds.same.symm), if_pos (holds.isFull_iff.mpr ⟨full, straight full⟩), isFirst, List.tail_cons,
      holds.overflow]
    exact (holds.dropFirst isFirst queue.permits (newest.overflowCount + 1)).append (by dsimp only; omega) event
      (queue.permits + 1)
  · rw [if_neg fun isFull => full (holds.isFull_iff.mp isFull).1, if_neg fun same => full (same.trans holds.same)]
    exact holds.append (Nat.lt_of_le_of_ne holds.bounded full) event (queue.permits + 1)

theorem Holds.put_overflowCount (wrapped : queue.IsFullAndWrapped) (event : ε) :
    (queue.put event).overflowCount ≠ (newest.put event).overflowCount := by
  have known := holds.isFullAndWrapped_iff.mp wrapped
  have notFull : ¬queue.isFull = true := by
    rw [holds.isFull_iff]
    omega
  unfold HIDEventQueue.put NewestEvents.put makeRoom
  rw [if_pos (known.1.trans holds.same.symm), if_neg notFull]
  rw [holds.overflow]
  intro same
  have wraps := congrArg BitVec.toNat same
  rw [BitVec.toNat_add] at wraps
  have one : (1 : BitVec 32).toNat = 1 := rfl
  omega

theorem Holds.withPermits (permits : BitVec 32) : Holds exponent { queue with permits := permits } newest :=
  ⟨holds.small, holds.capacity, holds.mask, holds.same, holds.bounded, holds.write, holds.stored, holds.overflow⟩

theorem Holds.getLoop_empty (empty : newest.events = []) (permits : Nat) :
    (HIDEventQueue.getLoop permits queue).1 = .error .ETIMEDOUT ∧
      Holds exponent (HIDEventQueue.getLoop permits queue).2 newest := by
  induction permits generalizing queue with
  | zero => exact ⟨rfl, holds⟩
  | succ permits ih =>
    have kept := holds.withPermits (queue.permits - 1)
    rw [HIDEventQueue.getLoop, if_pos (kept.isEmpty_iff.mpr empty)]
    exact ih kept

/-- `Get` takes the oldest event, when there is a permit for it. -/
theorem Holds.getLoop {permits : Nat} (available : 0 < permits) :
    (HIDEventQueue.getLoop permits queue).1 = newest.get.1 ∧
      Holds exponent (HIDEventQueue.getLoop permits queue).2 newest.get.2 := by
  cases events : newest.events with
  | nil =>
    have nothing : newest.get = (.error .ETIMEDOUT, newest) := by
      unfold NewestEvents.get
      rw [events]
    rw [nothing]
    exact holds.getLoop_empty events permits
  | cons event rest =>
    obtain ⟨permits, rfl⟩ := Nat.exists_eq_add_of_lt available
    have notEmpty := (holds.withPermits (queue.permits - 1)).isEmpty_iff.not.mpr (by simp [events])
    have oldest := holds.stored 0 (by rw [events]; exact Nat.succ_pos _)
    rw [BitVec.add_zero] at oldest
    have taken : newest.get = (.ok event, { newest with events := rest }) := by
      unfold NewestEvents.get
      rw [events]
    rw [taken, Nat.zero_add, HIDEventQueue.getLoop, if_neg notEmpty]
    refine ⟨?_, ?_⟩
    · change Except.ok (queue.data (queue.slot queue.readIdx)) = _
      rw [oldest]
      simp [events]
    · rw [holds.overflow]
      exact holds.dropFirst events (queue.permits - 1) newest.overflowCount

end Ring

/-! ## Runs -/

inductive Call (ε : Type)
  | put (event : ε)
  | get

/-- The queue does what the newest events do, call by call, as long as each `Get` finds a permit. -/
def Behaves : HIDEventQueue ε → NewestEvents ε → List (Call ε) → Prop
  | _, _, [] => True
  | queue, newest, .put event :: rest =>
    (queue.put event).overflowCount = (newest.put event).overflowCount ∧ Behaves (queue.put event) (newest.put event) rest
  | queue, newest, .get :: rest =>
    0 < queue.permits.toInt → queue.get.1 = newest.get.1 ∧ Behaves queue.get.2 newest.get.2 rest

/-- No `Put` of the calls finds the queue full and its write index wrapped. -/
def StaysStraight : HIDEventQueue ε → List (Call ε) → Prop
  | _, [] => True
  | queue, .put event :: rest => ¬queue.IsFullAndWrapped ∧ StaysStraight (queue.put event) rest
  | queue, .get :: rest => 0 < queue.permits.toInt → StaysStraight queue.get.2 rest

instance decidableStaysStraight : (queue : HIDEventQueue ε) → (calls : List (Call ε)) → Decidable (StaysStraight queue calls)
  | _, [] => inferInstanceAs (Decidable True)
  | queue, .put event :: rest =>
    have := decidableStaysStraight (queue.put event) rest
    inferInstanceAs (Decidable (_ ∧ _))
  | queue, .get :: rest =>
    have := decidableStaysStraight queue.get.2 rest
    inferInstanceAs (Decidable (_ → _))

theorem Holds.behaves_iff {exponent : Nat} {queue : HIDEventQueue ε} {newest : NewestEvents ε}
    (holds : Holds exponent queue newest) (calls : List (Call ε)) : Behaves queue newest calls ↔ StaysStraight queue calls := by
  induction calls generalizing queue newest with
  | nil => exact Iff.rfl
  | cons call rest ih =>
    cases call with
    | put event =>
      by_cases wrapped : queue.IsFullAndWrapped
      · constructor
        · intro behaves
          exact absurd behaves.1 (holds.put_overflowCount wrapped event)
        · intro straight
          exact absurd wrapped straight.1
      · have kept := holds.put wrapped event
        constructor
        · intro behaves
          exact ⟨wrapped, (ih kept).mp behaves.2⟩
        · intro straight
          exact ⟨kept.overflow, (ih kept).mpr straight.2⟩
    | get =>
      have step := fun available : 0 < queue.permits.toInt =>
        @Holds.getLoop ε exponent queue newest holds queue.permits.toInt.toNat (by omega)
      constructor
      · intro behaves available
        exact (ih (step available).2).mp (behaves available).2
      · intro straight available
        exact ⟨(step available).1, (ih (step available).2).mpr (straight available)⟩

theorem le_doubleUpTo {n p result : BitVec 32} {fuel : Nat} (doubles : doubleUpTo n fuel p = some result) :
    n.toInt ≤ result.toInt := by
  induction fuel generalizing p with
  | zero => cases doubles
  | succ fuel ih =>
    rw [doubleUpTo] at doubles
    split at doubles
    · exact ih doubles
    · next atLeast =>
      rw [← Option.some.inj doubles]
      simpa [BitVec.slt] using atLeast

theorem le_intNextPowerOf2 {n result : BitVec 32} {fuel : Nat} (returns : intNextPowerOf2 fuel n = some result) :
    n.toInt ≤ result.toInt := by
  unfold intNextPowerOf2 at returns
  split at returns
  · rw [← Option.some.inj returns]
  · exact le_doubleUpTo returns

theorem create_holds {capacity : BitVec 32} {data : Nat → ε} {queue : HIDEventQueue ε} (created : create capacity data = some queue) :
    ∃ exponent, Holds exponent queue (NewestEvents.empty queue.capacity.toNat) := by
  unfold create at created
  split at created
  · cases created
  · next atLeast =>
    obtain ⟨powerOfTwo, isPower, rest⟩ := Option.bind_eq_some_iff.mp created
    split at rest
    · cases rest
    · next atMost =>
      obtain ⟨exponent, -, power⟩ := RingBuffer.intNextPowerOf2_power isPower
      have notSmaller := le_intNextPowerOf2 isPower
      have unsigned : powerOfTwo.toInt = powerOfTwo.toNat := by
        have value := BitVec.toInt_eq_toNat_cond powerOfTwo
        split at value <;> omega
      have small : exponent ≤ 6 := by
        have below : 2 ^ exponent < 2 ^ 7 := by omega
        exact Nat.le_of_lt_succ ((Nat.pow_lt_pow_iff_right (by omega)).mp below)
      have one : (1 : BitVec 32).toNat = 1 := rfl
      rw [← Option.some.inj rest]
      refine ⟨exponent, small, ?_, ?_, ?_, Nat.zero_le _, rfl, ?_, rfl⟩
      · rw [BitVec.toNat_setWidth]
        omega
      · rw [BitVec.toNat_setWidth, BitVec.toNat_sub_of_le (by rw [BitVec.le_def, one]; omega), one]
        omega
      · change (powerOfTwo.setWidth 8).toNat = _
        rw [BitVec.toNat_setWidth]
        omega
      · intro offset inside
        exact absurd inside (Nat.not_lt_zero offset)

/-- The queue behaves like the list of the newest events as long as no `Put` finds it full and wrapped. -/
theorem create_behaves_iff {capacity : BitVec 32} {data : Nat → ε} {queue : HIDEventQueue ε}
    (created : create capacity data = some queue) (calls : List (Call ε)) :
    Behaves queue (NewestEvents.empty queue.capacity.toNat) calls ↔ StaysStraight queue calls := by
  obtain ⟨exponent, holds⟩ := create_holds created
  exact holds.behaves_iff calls

def smallQueue : HIDEventQueue Nat := ⟨0, 2, 1, 0, 0, 0, fun _ => 0⟩

/-- Three events into a queue for two. -/
theorem threeEvents_behave : Behaves smallQueue (NewestEvents.empty 2) [.put 1, .put 2, .put 3, .get, .get] :=
  (create_behaves_iff (rfl : create 2 (fun _ => 0) = some smallQueue) [.put 1, .put 2, .put 3, .get, .get]).mpr (by decide)

def lateEvents : List (Call Nat) :=
  (List.range 255).flatMap (fun event => [Call.put event, Call.get]) ++ [Call.put 1, Call.put 2, Call.put 3, Call.get]

theorem lateEvents_misbehave :
    create 2 (fun _ => 0) = some smallQueue ∧ ¬Behaves smallQueue (NewestEvents.empty 2) lateEvents := by
  have created : create 2 (fun _ => 0) = some smallQueue := rfl
  refine ⟨created, fun behaves => ?_⟩
  obtain ⟨exponent, holds⟩ := create_holds created
  have straight := (holds.behaves_iff lateEvents).mp behaves
  exact absurd straight (by decide +kernel)

end HIDEventQueue

end Apollo.Driver
