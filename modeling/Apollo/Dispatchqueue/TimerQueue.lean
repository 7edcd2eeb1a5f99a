import Apollo.Dispatchqueue.DispatchQueue
import Apollo.Klib.TimeInterval
import Apollo.Lib.Runs
import Apollo.Lib.StableSort
import Mathlib.Algebra.Order.Ring.Int
import Mathlib.Algebra.Ring.Divisibility.Basic
import Mathlib.Tactic.Ring

/-!
# The timer queue

The timers of a dispatch queue with their points in time as they are stored.  The
list of the timers is walked over, and a repeating timer is advanced by its interval
until it is not in the past.
-/

set_option autoImplicit false

namespace Apollo.Dispatchqueue

open Klib Lib

structure Timer where
  deadline : TimeInterval
  interval : TimeInterval
  isOwnedByQueue : Bool

structure TimerQueue where
  links : Links Nat
  timers : Nat → Timer
  timerQueue : SList Nat
  timerCacheQueue : SList Nat
  timerCacheCount : Int

/-- What is asked of a timer that is rearmed: the sums stay below the limit. -/
structure Timer.Rearmable (timer : Timer) (curTime : TimeInterval) : Prop where
  hasDeadline : timer.deadline.Canonical
  hasInterval : timer.interval.Canonical
  repeats : 0 < timer.interval.nanos
  isTime : curTime.Canonical
  small : timer.deadline.nanos + timer.interval.nanos < 2147483648 * TimeInterval.oneSecondInNanos
  limit : curTime.nanos + timer.interval.nanos < 2147483648 * TimeInterval.oneSecondInNanos

def maxTimerCacheCount : Int := 8

namespace TimerQueue

def withList (pQueue : TimerQueue) (result : Links Nat × SList Nat) : TimerQueue :=
  { pQueue with links := result.1, timerQueue := result.2 }

def setDeadline (pQueue : TimerQueue) (timer : Nat) (deadline : TimeInterval) : TimerQueue :=
  { pQueue with timers := Function.update pQueue.timers timer { pQueue.timers timer with deadline := deadline } }

/-- The loop of `DispatchQueue_AddTimer_Locked`: the last timer that is not due later. -/
def prevTimer (pQueue : TimerQueue) (deadline : TimeInterval) : Nat → Option Nat → Option Nat → Option (Option Nat)
  | _, none, pPrevTimer => some pPrevTimer
  | 0, some _, _ => none
  | fuel + 1, some pCurTimer, pPrevTimer =>
    if (pQueue.timers pCurTimer).deadline.greater deadline then some pPrevTimer
    else prevTimer pQueue deadline fuel (pQueue.links pCurTimer) (some pCurTimer)

def addTimer (fuel : Nat) (pQueue : TimerQueue) (pTimer : Nat) : Option TimerQueue := do
  let pPrevTimer ← pQueue.prevTimer (pQueue.timers pTimer).deadline fuel pQueue.timerQueue.first none
  some (pQueue.withList (pQueue.timerQueue.insertAfter pQueue.links pTimer pPrevTimer))

/-- `DispatchQueue_RelinquishTimer_Locked`.  A timer that is freed keeps nothing that points to it. -/
def relinquishTimer (pQueue : TimerQueue) (pTimer : Nat) : TimerQueue :=
  if !(pQueue.timers pTimer).isOwnedByQueue then pQueue
  else
    let links := Function.update pQueue.links pTimer none
    if pQueue.timerCacheCount < maxTimerCacheCount then
      let result := pQueue.timerCacheQueue.insertBeforeFirst links pTimer
      { pQueue with links := result.1, timerCacheQueue := result.2, timerCacheCount := pQueue.timerCacheCount + 1 }
    else { pQueue with links := links }

/-- The loop of `DispatchQueue_RemoveTimer_Locked`. -/
def removeInstances (pTimer : Nat) : Nat → Option Nat → Option Nat → TimerQueue → Option TimerQueue
  | _, none, _, pQueue => some pQueue
  | 0, some _, _, _ => none
  | fuel + 1, some pCurItem, pPrevItem, pQueue =>
    if pCurItem = pTimer then do
      let pNextItem := pQueue.links pCurItem
      let result ← pQueue.timerQueue.remove pQueue.links pPrevItem pCurItem
      removeInstances pTimer fuel pNextItem pPrevItem ((pQueue.withList result).relinquishTimer pCurItem)
    else removeInstances pTimer fuel (pQueue.links pCurItem) (some pCurItem) pQueue

def removeTimer (fuel : Nat) (pQueue : TimerQueue) (pTimer : Nat) : Option TimerQueue :=
  removeInstances pTimer fuel pQueue.timerQueue.first none pQueue

/-- How `DispatchQueue_Run` takes the first timer when it is due. -/
def takeDue (pQueue : TimerQueue) (now : TimeInterval) : Option Nat × TimerQueue :=
  match pQueue.timerQueue.first with
  | some pFirstTimer =>
    if (pQueue.timers pFirstTimer).deadline.lessEquals now then
      let result := pQueue.timerQueue.removeFirst pQueue.links
      (result.1, pQueue.withList result.2)
    else (none, pQueue)
  | none => (none, pQueue)

/-- The loop of `DispatchQueue_RearmTimer_Locked`. -/
def rearmDeadline (interval curTime : TimeInterval) : Nat → TimeInterval → Option TimeInterval
  | 0, _ => none
  | fuel + 1, deadline =>
    let deadline := deadline.add interval
    if deadline.less curTime then rearmDeadline interval curTime fuel deadline else some deadline

def rearmTimer (fuel : Nat) (pQueue : TimerQueue) (pTimer : Nat) (curTime : TimeInterval) : Option TimerQueue := do
  let deadline ← rearmDeadline (pQueue.timers pTimer).interval curTime fuel (pQueue.timers pTimer).deadline
  (pQueue.setDeadline pTimer deadline).addTimer fuel pTimer

def Holds (pQueue : TimerQueue) (queued : List Nat) : Prop := pQueue.timerQueue.Holds pQueue.links queued

def due (pQueue : TimerQueue) (timer : Nat) : Int := (pQueue.timers timer).deadline.nanos

section Searching
variable {pQueue : TimerQueue} {queued front back : List Nat} {timer : Nat} {deadline : TimeInterval}

/-- The search ends between the timers that are not due later and the first that is. -/
theorem prevTimer_spec (holds : pQueue.Holds (front ++ back)) (canonical : deadline.Canonical)
    (canonicals : ∀ timer ∈ back, (pQueue.timers timer).deadline.Canonical) :
    ∃ passed rest, back = passed ++ rest ∧
      (∀ fuel, back.length ≤ fuel →
        pQueue.prevTimer deadline fuel back.head? front.getLast? = some (front ++ passed).getLast?) ∧
      (∀ timer ∈ passed, pQueue.due timer ≤ deadline.nanos) ∧
      ∀ timer, rest.head? = some timer → deadline.nanos < pQueue.due timer := by
  induction back generalizing front with
  | nil =>
    refine ⟨[], [], rfl, fun fuel _ => ?_, fun _ member => absurd member List.not_mem_nil, fun _ head => by simp at head⟩
    cases fuel <;> simp [prevTimer]
  | cons current rest ih =>
    have order := TimeInterval.greater_iff (canonicals current List.mem_cons_self) canonical
    by_cases later : (pQueue.timers current).deadline.greater deadline = true
    · refine ⟨[], current :: rest, rfl, fun fuel enough => ?_, fun _ member => absurd member List.not_mem_nil, ?_⟩
      · cases fuel with
        | zero => simp at enough
        | succ fuel =>
          rw [List.append_nil, List.head?_cons, prevTimer]
          exact if_pos later
      · intro timer head
        rw [← Option.some.inj head]
        exact order.mp later
    · have next : pQueue.links current = rest.head? := SList.Holds.next holds
      have holds' : pQueue.Holds ((front ++ [current]) ++ rest) := by rwa [List.append_assoc]
      obtain ⟨passed, rest', parts, finds, before, behind⟩ :=
        ih holds' fun timer member => canonicals timer (List.mem_cons_of_mem _ member)
      refine ⟨current :: passed, rest', by rw [parts]; rfl, fun fuel enough => ?_, ?_, behind⟩
      · cases fuel with
        | zero => simp at enough
        | succ fuel =>
          have found := finds fuel (Nat.le_of_succ_le_succ enough)
          rw [List.getLast?_concat] at found
          rw [List.head?_cons, prevTimer, if_neg later, next, found, List.append_assoc]
          rfl
      · intro timer member
        rcases List.mem_cons.mp member with rfl | inPassed
        · exact Int.not_lt.mp fun less => later (order.mpr less)
        · exact before timer inPassed

theorem addTimer_spec (holds : pQueue.Holds queued) (fresh : timer ∉ queued)
    (canonical : (pQueue.timers timer).deadline.Canonical)
    (canonicals : ∀ timer ∈ queued, (pQueue.timers timer).deadline.Canonical) :
    ∃ front back after, queued = front ++ back ∧ (∀ fuel, queued.length ≤ fuel → addTimer fuel pQueue timer = some after) ∧
      after.Holds (front ++ timer :: back) ∧ after.timers = pQueue.timers ∧
      (∀ other ∈ front, pQueue.due other ≤ pQueue.due timer) ∧
      ∀ other, back.head? = some other → pQueue.due timer < pQueue.due other := by
  have holds₀ : pQueue.Holds ([] ++ queued) := holds
  obtain ⟨front, back, rfl, finds, before, behind⟩ := prevTimer_spec holds₀ canonical canonicals
  rw [List.nil_append, List.getLast?_nil, ← SList.Holds.first holds] at finds
  have holds' := SList.Holds.insertAfter holds fresh
  refine ⟨front, back, pQueue.withList (pQueue.timerQueue.insertAfter pQueue.links timer front.getLast?), rfl, ?_, holds', rfl,
    before, behind⟩
  intro fuel enough
  rw [addTimer, finds fuel enough]
  rfl

theorem relinquishTimer_links {other : Nat} (apart : other ≠ timer) :
    (pQueue.relinquishTimer timer).links other = pQueue.links other := by
  unfold relinquishTimer
  split_ifs
  · rfl
  · exact (Function.update_of_ne apart _ _).trans (Function.update_of_ne apart _ _)
  · exact Function.update_of_ne apart _ _

@[simp] theorem relinquishTimer_timers : (pQueue.relinquishTimer timer).timers = pQueue.timers := by
  unfold relinquishTimer
  split_ifs <;> rfl

@[simp] theorem relinquishTimer_timerQueue : (pQueue.relinquishTimer timer).timerQueue = pQueue.timerQueue := by
  unfold relinquishTimer
  split_ifs <;> rfl

/-- A timer that is given back is on no other list. -/
theorem Holds.relinquishTimer (holds : pQueue.Holds queued) (absent : timer ∉ queued) :
    (pQueue.relinquishTimer timer).Holds queued := by
  unfold TimerQueue.Holds
  rw [relinquishTimer_timerQueue]
  refine SList.Holds.congr holds fun other member => relinquishTimer_links ?_
  rintro rfl
  exact absent member

theorem removeInstances_absent {fuel : Nat} (holds : pQueue.Holds (front ++ back)) (absent : timer ∉ back)
    (enough : back.length ≤ fuel) : removeInstances timer fuel back.head? front.getLast? pQueue = some pQueue := by
  induction back generalizing front fuel with
  | nil => cases fuel <;> rfl
  | cons current rest ih =>
    cases fuel with
    | zero => simp at enough
    | succ fuel =>
      rw [List.mem_cons, not_or] at absent
      have next : pQueue.links current = rest.head? := SList.Holds.next holds
      have holds' : pQueue.Holds ((front ++ [current]) ++ rest) := by rwa [List.append_assoc]
      have skips := ih holds' absent.2 (Nat.le_of_succ_le_succ enough)
      rw [List.getLast?_concat] at skips
      rw [List.head?_cons, removeInstances, if_neg (Ne.symm absent.1), next, skips]

theorem removeInstances_spec (holds : pQueue.Holds (front ++ back)) (absent : timer ∉ front) :
    ∃ after, (∀ fuel, back.length ≤ fuel → removeInstances timer fuel back.head? front.getLast? pQueue = some after) ∧
      after.Holds (front ++ back.erase timer) ∧ after.timers = pQueue.timers := by
  induction back generalizing front with
  | nil =>
    refine ⟨pQueue, fun fuel _ => ?_, holds, rfl⟩
    cases fuel <;> rfl
  | cons current rest ih =>
    have next : pQueue.links current = rest.head? := SList.Holds.next holds
    by_cases same : current = timer
    · subst same
      obtain ⟨links, list, removes, holds', -⟩ := SList.Holds.remove holds
      have absent' : current ∉ rest := by
        have nodup := (List.nodup_append.mp (SList.Holds.nodup holds)).2.1
        exact (List.nodup_cons.mp nodup).1
      have removed : (pQueue.withList (links, list)).Holds (front ++ rest) := holds'
      have nowhere : current ∉ front ++ rest := by
        rw [List.mem_append, not_or]
        exact ⟨absent, absent'⟩
      have relinquished := removed.relinquishTimer nowhere
      refine ⟨(pQueue.withList (links, list)).relinquishTimer current, fun fuel enough => ?_, ?_, relinquishTimer_timers⟩
      · cases fuel with
        | zero => simp at enough
        | succ fuel =>
          rw [List.head?_cons, removeInstances, if_pos rfl, removes, next]
          exact removeInstances_absent relinquished absent' (Nat.le_of_succ_le_succ enough)
      · rw [List.erase_cons_head]
        exact relinquished
    · have holds' : pQueue.Holds ((front ++ [current]) ++ rest) := by rwa [List.append_assoc]
      have absent' : timer ∉ front ++ [current] := by
        rw [List.mem_append, List.mem_singleton, not_or]
        exact ⟨absent, Ne.symm same⟩
      obtain ⟨after, removes, holds'', timers⟩ := ih holds' absent'
      refine ⟨after, fun fuel enough => ?_, ?_, timers⟩
      · cases fuel with
        | zero => simp at enough
        | succ fuel =>
          have skips := removes fuel (Nat.le_of_succ_le_succ enough)
          rw [List.getLast?_concat] at skips
          rw [List.head?_cons, removeInstances, if_neg same, next, skips]
      · rw [List.erase_cons_tail (by simpa using same)]
        rwa [List.append_assoc] at holds''

/-- The timer leaves the queue, and the others keep their order. -/
theorem removeTimer_spec (holds : pQueue.Holds queued) (timer : Nat) :
    ∃ after, (∀ fuel, queued.length ≤ fuel → removeTimer fuel pQueue timer = some after) ∧ after.Holds (queued.erase timer) ∧
      after.timers = pQueue.timers := by
  have holds₀ : pQueue.Holds ([] ++ queued) := holds
  obtain ⟨after, removes, holds', timers⟩ := removeInstances_spec holds₀ (List.not_mem_nil : timer ∉ [])
  refine ⟨after, fun fuel enough => ?_, holds', timers⟩
  rw [removeTimer, SList.Holds.first holds]
  exact removes fuel enough

theorem takeDue_spec (holds : pQueue.Holds queued) (now : TimeInterval) :
    pQueue.takeDue now = (none, pQueue) ∨
      ∃ timer rest after, queued = timer :: rest ∧ pQueue.takeDue now = (some timer, after) ∧ after.Holds rest ∧
        after.timers = pQueue.timers ∧ (pQueue.timers timer).deadline.lessEquals now = true := by
  unfold takeDue
  cases queued with
  | nil =>
    left
    rw [SList.Holds.first holds]
    rfl
  | cons timer rest =>
    rw [SList.Holds.first holds, List.head?_cons]
    by_cases isDue : (pQueue.timers timer).deadline.lessEquals now = true
    · right
      obtain ⟨links, list, removes, holds', -⟩ := SList.Holds.removeFirst holds
      refine ⟨timer, rest, pQueue.withList (links, list), rfl, ?_, holds', rfl, isDue⟩
      rw [removes]
      exact if_pos isDue
    · exact .inl (if_neg isDue)

end Searching

/-! ## Rearming -/

section Rearming
variable {interval curTime : TimeInterval}

/-- The smallest point in time behind the deadline, at whole intervals from it, that is not in the past. -/
structure IsNext (deadline interval now : Int) (rounds : Nat) : Prop where
  positive : 1 ≤ rounds
  notPast : now ≤ deadline + rounds * interval
  least : ∀ earlier : Nat, 1 ≤ earlier → earlier < rounds → deadline + earlier * interval < now

theorem IsNext.succ {deadline interval now : Int} {rounds : Nat} (next : IsNext (deadline + interval) interval now rounds)
    (past : deadline + interval < now) : IsNext deadline interval now (rounds + 1) := by
  have shift : ∀ count : Nat, deadline + (count + 1 : Nat) * interval = deadline + interval + count * interval := by
    intro count
    push_cast
    ring
  refine ⟨Nat.le_add_left 1 rounds, ?_, ?_⟩
  · rw [shift]
    exact next.notPast
  · intro earlier atLeast below
    obtain ⟨count, rfl⟩ := Nat.exists_eq_add_of_le' atLeast
    rw [shift]
    by_cases first : count = 0
    · rw [first]
      simpa using past
    · exact next.least count (Nat.one_le_iff_ne_zero.mpr first) (Nat.lt_of_succ_lt_succ below)

theorem isNext_one {deadline interval now : Int} (notPast : now ≤ deadline + interval) : IsNext deadline interval now 1 :=
  ⟨Nat.le_refl 1, by rwa [Nat.cast_one, one_mul], fun earlier atLeast below => absurd below (Nat.not_lt.mpr atLeast)⟩

theorem rearmDeadline_once {deadline : TimeInterval} (notPast : ¬(deadline.add interval).less curTime = true) :
    ∀ fuel, 1 ≤ fuel → rearmDeadline interval curTime fuel deadline = some (deadline.add interval)
  | _ + 1, _ => if_neg notPast

theorem rearmDeadline_spec (interval_canonical : interval.Canonical) (positive : 0 < interval.nanos)
    (curTime_canonical : curTime.Canonical) (limit : curTime.nanos + interval.nanos < 2147483648 * TimeInterval.oneSecondInNanos)
    (distance : Nat) :
    ∀ deadline : TimeInterval, deadline.Canonical → curTime.nanos - deadline.nanos ≤ distance →
      deadline.nanos + interval.nanos < 2147483648 * TimeInterval.oneSecondInNanos →
      ∃ rounds next, IsNext deadline.nanos interval.nanos curTime.nanos rounds ∧
        (∀ fuel, rounds ≤ fuel → rearmDeadline interval curTime fuel deadline = some next) ∧ next.Canonical ∧
        next.nanos = deadline.nanos + rounds * interval.nanos := by
  induction distance with
  | zero =>
    intro deadline canonical near small
    obtain ⟨sum_canonical, sum⟩ := TimeInterval.add_spec canonical interval_canonical small
    have notPast : ¬(deadline.add interval).less curTime = true := by
      rw [TimeInterval.less_iff sum_canonical curTime_canonical, sum]
      omega
    exact ⟨1, _, isNext_one (by omega), rearmDeadline_once notPast, sum_canonical, by rw [sum, Nat.cast_one, one_mul]⟩
  | succ distance ih =>
    intro deadline canonical near small
    obtain ⟨sum_canonical, sum⟩ := TimeInterval.add_spec canonical interval_canonical small
    have order := TimeInterval.less_iff sum_canonical curTime_canonical
    by_cases past : (deadline.add interval).less curTime = true
    · have less := order.mp past
      obtain ⟨rounds, point, next, ends, point_canonical, is⟩ := ih (deadline.add interval) sum_canonical (by omega) (by omega)
      rw [sum] at next less
      refine ⟨rounds + 1, point, next.succ less, fun fuel enough => ?_, point_canonical, ?_⟩
      · cases fuel with
        | zero => simp at enough
        | succ fuel => exact (if_pos past).trans (ends fuel (Nat.le_of_succ_le_succ enough))
      · rw [is, sum]
        push_cast
        ring
    · have notPast := past
      rw [order, sum, Int.not_lt] at notPast
      exact ⟨1, _, isNext_one notPast, rearmDeadline_once past, sum_canonical, by rw [sum, Nat.cast_one, one_mul]⟩

end Rearming

theorem rearmTimer_spec {pQueue : TimerQueue} {queued : List Nat} {timer : Nat} {curTime : TimeInterval}
    (holds : pQueue.Holds queued) (fresh : timer ∉ queued)
    (canonicals : ∀ timer ∈ queued, (pQueue.timers timer).deadline.Canonical)
    (rearmable : (pQueue.timers timer).Rearmable curTime) :
    ∃ rounds front back after deadline, queued = front ++ back ∧
      IsNext (pQueue.due timer) (pQueue.timers timer).interval.nanos curTime.nanos rounds ∧
      (∀ fuel, rounds ≤ fuel → queued.length ≤ fuel → rearmTimer fuel pQueue timer curTime = some after) ∧
      after.Holds (front ++ timer :: back) ∧ after.timers = (pQueue.setDeadline timer deadline).timers ∧ deadline.Canonical ∧
      deadline.nanos = pQueue.due timer + rounds * (pQueue.timers timer).interval.nanos ∧
      (∀ other ∈ front, pQueue.due other ≤ deadline.nanos) ∧ ∀ other, back.head? = some other → deadline.nanos < pQueue.due other := by
  obtain ⟨rounds, deadline, next, ends, deadline_canonical, is⟩ := rearmDeadline_spec rearmable.hasInterval rearmable.repeats
    rearmable.isTime rearmable.limit (curTime.nanos - pQueue.due timer).toNat (pQueue.timers timer).deadline
    rearmable.hasDeadline (Int.self_le_toNat _) rearmable.small
  have rearmed : ((pQueue.setDeadline timer deadline).timers timer).deadline = deadline := by
    unfold setDeadline
    dsimp only
    rw [Function.update_self]
  have same : ∀ other ∈ queued, (pQueue.setDeadline timer deadline).timers other = pQueue.timers other := by
    intro other member
    refine Function.update_of_ne ?_ _ _
    rintro rfl
    exact fresh member
  have holds₀ : (pQueue.setDeadline timer deadline).Holds queued := holds
  obtain ⟨front, back, after, rfl, adds, holds', timers, before, behind⟩ :=
    addTimer_spec holds₀ fresh (by rwa [rearmed]) fun other member => (same other member).symm ▸ canonicals other member
  have due_rearmed : (pQueue.setDeadline timer deadline).due timer = deadline.nanos := congrArg TimeInterval.nanos rearmed
  have due_same : ∀ other ∈ front ++ back, (pQueue.setDeadline timer deadline).due other = pQueue.due other :=
    fun other member => congrArg (fun value : Timer => value.deadline.nanos) (same other member)
  refine ⟨rounds, front, back, after, deadline, rfl, next, ?_, holds', timers, deadline_canonical, is, ?_, ?_⟩
  · intro fuel enough long
    rw [rearmTimer, ends fuel enough]
    exact adds fuel long
  · intro other member
    rw [← due_same other (List.mem_append_left back member), ← due_rearmed]
    exact before other member
  · intro other head
    rw [← due_same other (List.mem_append_right front (List.mem_of_mem_head? head)), ← due_rearmed]
    exact behind other head

/-! ## The timers of the dispatch queue -/

/-- What a timer is to the dispatch queue, which counts in nanoseconds. -/
def IsItem (timer : Timer) (item : WorkItem) : Prop :=
  item.deadline = timer.deadline.nanos ∧ item.interval = timer.interval.nanos ∧ item.isOwnedByQueue = timer.isOwnedByQueue ∧
    timer.deadline.Canonical

/-- The dispatch queue has the timers of the timer queue. -/
structure Counted (sys : System) (pQueue : TimerQueue) : Prop where
  links : sys.links = pQueue.links
  timerQueue : sys.lists .timerQueue = pQueue.timerQueue
  timerCacheQueue : sys.lists (.cache .timers) = pQueue.timerCacheQueue
  timerCacheCount : sys.cacheCount .timers = pQueue.timerCacheCount
  timers : ∀ timer, IsItem (pQueue.timers timer) (sys.items timer)

section Counting
variable {sys : System} {pQueue after : TimerQueue} {fuel timer : Nat}

theorem Counted.withList (counted : Counted sys pQueue) (result : Links Nat × SList Nat) :
    Counted (sys.withList .timerQueue result) (pQueue.withList result) := by
  refine ⟨rfl, ?_, ?_, counted.timerCacheCount, counted.timers⟩
  · simp [System.withList, TimerQueue.withList]
  · simpa [System.withList, TimerQueue.withList] using counted.timerCacheQueue

theorem Counted.setItem (counted : Counted sys pQueue) {change : WorkItem → WorkItem} {value : Timer}
    (set : IsItem value (change (sys.items timer))) :
    Counted (sys.setItem timer change) { pQueue with timers := Function.update pQueue.timers timer value } := by
  refine ⟨counted.links, counted.timerQueue, counted.timerCacheQueue, counted.timerCacheCount, fun other => ?_⟩
  dsimp only [System.setItem]
  by_cases same : other = timer
  · rwa [same, Function.update_self, Function.update_self]
  · rw [Function.update_of_ne same, Function.update_of_ne same]
    exact counted.timers other

theorem Counted.timerBefore (counted : Counted sys pQueue) {deadline : TimeInterval} (canonical : deadline.Canonical)
    {current previous : Option Nat} {found : Option Nat}
    (finds : pQueue.prevTimer deadline fuel current previous = some found) :
    timerBefore sys deadline.nanos (fuel + 1) current previous = some found := by
  induction fuel generalizing current previous with
  | zero => cases current with
    | none => exact finds
    | some current => cases finds
  | succ fuel ih => cases current with
    | none => exact finds
    | some current =>
      have order := TimeInterval.greater_iff (counted.timers current).2.2.2 canonical
      rw [prevTimer] at finds
      rw [Dispatchqueue.timerBefore, (counted.timers current).1, counted.links]
      by_cases later : (pQueue.timers current).deadline.greater deadline = true
      · rw [if_pos later] at finds
        rw [if_pos (order.mp later)]
        exact finds
      · rw [if_neg later] at finds
        rw [if_neg (mt order.mpr later)]
        exact ih finds

theorem Counted.addTimer (counted : Counted sys pQueue) (adds : pQueue.addTimer fuel timer = some after) :
    ∃ sys', Dispatchqueue.addTimer (fuel + 1) timer sys = .ok () sys' ∧ Counted sys' after := by
  obtain ⟨found, finds, added⟩ := Option.bind_eq_some_iff.mp adds
  have same := counted.timerBefore (counted.timers timer).2.2.2 finds
  unfold Dispatchqueue.addTimer
  rw [(counted.timers timer).1, counted.timerQueue, same]
  refine ⟨_, rfl, ?_⟩
  rw [← Option.some.inj added, ← counted.links, ← counted.timerQueue]
  exact counted.withList _

theorem Counted.relinquishTimer (counted : Counted sys pQueue) (timer : Nat) :
    Counted (sys.relinquishTimer timer) (pQueue.relinquishTimer timer) := by
  have unlinked : Counted ((sys.record (.relinquishes timer)).unlink timer)
      { pQueue with links := Function.update pQueue.links timer none } :=
    ⟨show Function.update sys.links timer none = _ by rw [counted.links], counted.timerQueue, counted.timerCacheQueue,
      counted.timerCacheCount, counted.timers⟩
  have deinit : Counted ((sys.record (.relinquishes timer)).workItemDeinit timer) { pQueue with
      links := Function.update pQueue.links timer none
      timers := Function.update pQueue.timers timer (pQueue.timers timer) } := unlinked.setItem (counted.timers timer)
  rw [Function.update_eq_self] at deinit
  obtain ⟨links, queue, cache, count, timers⟩ := deinit
  have owned : ((sys.record (.relinquishes timer)).items timer).isOwnedByQueue = (pQueue.timers timer).isOwnedByQueue :=
    (counted.timers timer).2.2.1
  have room : (sys.record (.relinquishes timer)).cacheCount .timers = pQueue.timerCacheCount := counted.timerCacheCount
  unfold System.relinquishTimer TimerQueue.relinquishTimer System.relinquish
  dsimp only
  rw [owned, room]
  split
  · exact ⟨counted.links, counted.timerQueue, counted.timerCacheQueue, counted.timerCacheCount, counted.timers⟩
  · change Counted (if pQueue.timerCacheCount < maxTimerCacheCount then _ else _) _
    split
    · refine ⟨?_, by simpa [System.insertBeforeFirst, System.withList] using queue, ?_, ?_, timers⟩
      · exact congrArg₂ (fun list links => (SList.insertBeforeFirst links list timer).1) cache links
      · dsimp only [System.insertBeforeFirst, System.withList]
        rw [Function.update_self]
        exact congrArg₂ (fun list links => (SList.insertBeforeFirst links list timer).2) cache links
      · dsimp only
        rw [Function.update_self]
        exact congrArg (· + 1) count
    · exact ⟨links, queue, cache, count, timers⟩

theorem Counted.removeInstances (counted : Counted sys pQueue) {current previous : Option Nat}
    (removes : TimerQueue.removeInstances timer fuel current previous pQueue = some after) :
    ∃ sys', Dispatchqueue.removeInstances .timerQueue (fun sys _ => sys) (·.relinquishTimer ·) timer (fuel + 1) current
      previous sys = .ok () sys' ∧ Counted sys' after := by
  induction fuel generalizing sys pQueue current previous with
  | zero => cases current with
    | none => exact ⟨sys, rfl, Option.some.inj removes ▸ counted⟩
    | some current => cases removes
  | succ fuel ih => cases current with
    | none => exact ⟨sys, rfl, Option.some.inj removes ▸ counted⟩
    | some current =>
      rw [TimerQueue.removeInstances] at removes
      rw [Dispatchqueue.removeInstances]
      by_cases same : current = timer
      · rw [if_pos same] at removes
        obtain ⟨result, removed, rest⟩ := Option.bind_eq_some_iff.mp removes
        dsimp only
        rw [if_pos same, counted.timerQueue, counted.links, removed]
        exact ih ((counted.withList result).relinquishTimer current) rest
      · rw [if_neg same] at removes
        dsimp only
        rw [if_neg same, counted.links]
        exact ih counted removes

theorem Counted.removeTimer (counted : Counted sys pQueue) (removes : pQueue.removeTimer fuel timer = some after) :
    ∃ sys', removeTimerLocked (fuel + 1) timer sys = .ok () sys' ∧ Counted sys' after := by
  unfold removeTimerLocked
  rw [counted.timerQueue]
  exact counted.removeInstances removes

theorem rearmDeadline_nanos {interval curTime deadline next : TimeInterval} (repeats : interval.Canonical)
    (isTime : curTime.Canonical) (limit : curTime.nanos + interval.nanos < 2147483648 * TimeInterval.oneSecondInNanos)
    (canonical : deadline.Canonical) (small : deadline.nanos + interval.nanos < 2147483648 * TimeInterval.oneSecondInNanos)
    (ends : rearmDeadline interval curTime fuel deadline = some next) :
    Dispatchqueue.rearmDeadline interval.nanos curTime.nanos (fuel + 1) deadline.nanos = some next.nanos ∧ next.Canonical := by
  induction fuel generalizing deadline with
  | zero => cases ends
  | succ fuel ih =>
    obtain ⟨canonical', sum⟩ := TimeInterval.add_spec canonical repeats small
    have order := TimeInterval.less_iff canonical' isTime
    rw [rearmDeadline] at ends
    rw [Dispatchqueue.rearmDeadline, ← sum]
    by_cases past : (deadline.add interval).less curTime = true
    · have early := order.mp past
      rw [if_pos past] at ends
      rw [if_pos early]
      exact ih canonical' (by omega) ends
    · rw [if_neg past] at ends
      rw [if_neg (mt order.mpr past), ← Option.some.inj ends]
      exact ⟨rfl, canonical'⟩

theorem Counted.rearmTimer (counted : Counted sys pQueue) {curTime : TimeInterval}
    (rearmable : (pQueue.timers timer).Rearmable curTime) (rearms : pQueue.rearmTimer fuel timer curTime = some after) :
    ∃ sys', Dispatchqueue.rearmTimer (fuel + 1) timer curTime.nanos sys = .ok () sys' ∧ Counted sys' after := by
  obtain ⟨next, ends, adds⟩ := Option.bind_eq_some_iff.mp rearms
  obtain ⟨nanos, canonical⟩ := rearmDeadline_nanos rearmable.hasInterval rearmable.isTime rearmable.limit
    rearmable.hasDeadline rearmable.small ends
  obtain ⟨due, interval, owned, -⟩ := counted.timers timer
  have set : Counted (sys.setItem timer fun value => { value with deadline := next.nanos }) (pQueue.setDeadline timer next) :=
    counted.setItem ⟨rfl, interval, owned, canonical⟩
  unfold Dispatchqueue.rearmTimer
  rw [interval, due, nanos]
  exact set.addTimer adds

end Counting

end TimerQueue

/-! ## Runs -/

/-- The timer queue, when its timers were put on it, and for which points in time they fired since they were added. -/
structure TimerState where
  queue : TimerQueue
  clock : Nat
  arrivals : Nat → Nat
  firings : Nat → List Int

inductive TimerAction
  | addTimer (pTimer : Nat) (timer : Timer)
  | removeTimer (pTimer : Nat)
  | takeDue (now : TimeInterval)
  | otherLists
  | rearmTimer (pTimer : Nat) (curTime : TimeInterval)

def TimerQueue.setTimer (pQueue : TimerQueue) (pTimer : Nat) (timer : Timer) : TimerQueue :=
  { pQueue with timers := Function.update pQueue.timers pTimer timer }

/-- The calls return: with as many rounds as they need, and with more, they have the same outcome.  A timer that is added
or rearmed is not on the queue: `is_being_dispatched` and the type of the item see to that. -/
inductive TimerStep : TimerState → TimerAction → TimerState → Prop
  | added {state : TimerState} {pTimer rounds : Nat} {timer : Timer} {after : TimerQueue}
      (fresh : ∀ queued, state.queue.Holds queued → pTimer ∉ queued) (canonical : timer.deadline.Canonical)
      (does : ∀ fuel, rounds ≤ fuel → TimerQueue.addTimer fuel (state.queue.setTimer pTimer timer) pTimer = some after) :
      TimerStep state (.addTimer pTimer timer)
        ⟨after, state.clock + 1, Function.update state.arrivals pTimer state.clock, Function.update state.firings pTimer []⟩
  | removed {state : TimerState} {pTimer rounds : Nat} {after : TimerQueue}
      (does : ∀ fuel, rounds ≤ fuel → TimerQueue.removeTimer fuel state.queue pTimer = some after) :
      TimerStep state (.removeTimer pTimer) { state with queue := after }
  | took {state : TimerState} {now : TimeInterval} {pTimer : Nat} {after : TimerQueue}
      (does : state.queue.takeDue now = (some pTimer, after)) :
      TimerStep state (.takeDue now)
        { state with
          queue := after
          firings := Function.update state.firings pTimer (state.queue.due pTimer :: state.firings pTimer) }
  | waited {state : TimerState} {now : TimeInterval} {after : TimerQueue} (does : state.queue.takeDue now = (none, after)) :
      TimerStep state (.takeDue now) { state with queue := after }
  /-- Timers are given to the cache and taken from it, and work items are queued. -/
  | otherLists {state : TimerState} {links : Links Nat} {timerCacheQueue : SList Nat} {timerCacheCount : Int}
      (same : ∀ queued, state.queue.Holds queued → ∀ timer ∈ queued, links timer = state.queue.links timer) :
      TimerStep state .otherLists
        { state with
          queue := { state.queue with
            links := links
            timerCacheQueue := timerCacheQueue
            timerCacheCount := timerCacheCount } }
  | rearmed {state : TimerState} {pTimer rounds : Nat} {curTime : TimeInterval} {after : TimerQueue}
      (fresh : ∀ queued, state.queue.Holds queued → pTimer ∉ queued) (rearmable : (state.queue.timers pTimer).Rearmable curTime)
      (does : ∀ fuel, rounds ≤ fuel → TimerQueue.rearmTimer fuel state.queue pTimer curTime = some after) :
      TimerStep state (.rearmTimer pTimer curTime)
        { state with
          queue := after
          clock := state.clock + 1
          arrivals := Function.update state.arrivals pTimer state.clock }

def TimerQueue.Earlier (pQueue : TimerQueue) (arrivals : Nat → Nat) (first second : Nat) : Prop :=
  pQueue.due first < pQueue.due second ∨ pQueue.due first = pQueue.due second ∧ arrivals first < arrivals second

theorem TimerQueue.earlier_iff {pQueue : TimerQueue} {arrivals : Nat → Nat} {first second : Nat} :
    pQueue.Earlier arrivals first second ↔
      Precedes (fun timer => -pQueue.due timer) (fun first second => arrivals first < arrivals second) first second := by
  unfold TimerQueue.Earlier Precedes
  rw [neg_lt_neg_iff, neg_inj]

structure TimerState.Queued (state : TimerState) (queued : List Nat) : Prop where
  holds : state.queue.Holds queued
  canonical : ∀ timer ∈ queued, (state.queue.timers timer).deadline.Canonical
  order : queued.Pairwise (state.queue.Earlier state.arrivals)
  arrived : ∀ timer ∈ queued, state.arrivals timer < state.clock

/-- The points in time for which a timer fired, the last one first: they are apart by whole intervals, and a timer on the
queue is due later. -/
structure Timer.Fired (timer : Timer) (points : List Int) (isQueued : Prop) : Prop where
  descending : points.Pairwise (· > ·)
  phase : ∀ point ∈ points, timer.interval.nanos ∣ timer.deadline.nanos - point
  behind : ∀ point ∈ points, point ≤ timer.deadline.nanos
  ahead : isQueued → ∀ point ∈ points, point < timer.deadline.nanos

namespace Timer.Fired

variable {timer rearmed : Timer} {points : List Int} {isQueued isQueued' : Prop} {rounds : Nat}

theorem nil (timer : Timer) (isQueued : Prop) : timer.Fired [] isQueued :=
  ⟨List.Pairwise.nil, fun _ member => absurd member List.not_mem_nil, fun _ member => absurd member List.not_mem_nil,
    fun _ _ member => absurd member List.not_mem_nil⟩

theorem mono (fired : timer.Fired points isQueued) (fewer : isQueued' → isQueued) : timer.Fired points isQueued' :=
  ⟨fired.descending, fired.phase, fired.behind, fun queued => fired.ahead (fewer queued)⟩

theorem fire (fired : timer.Fired points isQueued) (queued : isQueued) :
    timer.Fired (timer.deadline.nanos :: points) False := by
  refine ⟨List.pairwise_cons.mpr ⟨fired.ahead queued, fired.descending⟩, ?_, ?_, False.elim⟩
  · intro point member
    rcases List.mem_cons.mp member with rfl | earlier
    · rw [sub_self]
      exact dvd_zero _
    · exact fired.phase point earlier
  · intro point member
    rcases List.mem_cons.mp member with rfl | earlier
    · exact le_refl _
    · exact fired.behind point earlier

theorem rearm (fired : timer.Fired points isQueued) (repeats : 0 < timer.interval.nanos) (positive : 1 ≤ rounds)
    (interval : rearmed.interval = timer.interval)
    (deadline : rearmed.deadline.nanos = timer.deadline.nanos + rounds * timer.interval.nanos) (isQueued' : Prop) :
    rearmed.Fired points isQueued' := by
  have later : timer.deadline.nanos < rearmed.deadline.nanos := by
    rw [deadline]
    exact lt_add_of_pos_right _ (mul_pos (by exact_mod_cast positive) repeats)
  refine ⟨fired.descending, ?_, ?_, ?_⟩
  · intro point member
    rw [interval, deadline, add_sub_right_comm]
    exact dvd_add (fired.phase point member) (Dvd.intro_left _ rfl)
  · exact fun point member => (fired.behind point member).trans (le_of_lt later)
  · exact fun _ point member => lt_of_le_of_lt (fired.behind point member) later

end Timer.Fired

def TimerState.Fired (state : TimerState) (queued : List Nat) : Prop :=
  ∀ timer, (state.queue.timers timer).Fired (state.firings timer) (timer ∈ queued)

section Steps
variable {state after : TimerState} {action : TimerAction} {queued front back : List Nat} {pTimer : Nat}

/-- A timer is put between those that are not due later and the first that is. -/
theorem TimerState.Queued.insert {pQueue : TimerQueue} {firings : Nat → List Int} (old : state.Queued (front ++ back))
    (fresh : pTimer ∉ front ++ back) (holds : pQueue.Holds (front ++ pTimer :: back))
    (same : ∀ other ≠ pTimer, pQueue.timers other = state.queue.timers other)
    (canonical : (pQueue.timers pTimer).deadline.Canonical) (before : ∀ other ∈ front, state.queue.due other ≤ pQueue.due pTimer)
    (behind : ∀ other, back.head? = some other → pQueue.due pTimer < state.queue.due other) :
    TimerState.Queued ⟨pQueue, state.clock + 1, Function.update state.arrivals pTimer state.clock, firings⟩
      (front ++ pTimer :: back) := by
  have apart : ∀ other ∈ front ++ back, other ≠ pTimer := by
    rintro other member rfl
    exact fresh member
  have due_same : ∀ other ∈ front ++ back, pQueue.due other = state.queue.due other := fun other member =>
    congrArg (fun value : Timer => value.deadline.nanos) (same other (apart other member))
  have arrivals_same : ∀ other ∈ front ++ back,
      Function.update state.arrivals pTimer state.clock other = state.arrivals other := fun other member =>
    Function.update_of_ne (apart other member) _ _
  have old_order : (front ++ back).Pairwise (Precedes (fun timer => -pQueue.due timer)
      fun first second => Function.update state.arrivals pTimer state.clock first <
        Function.update state.arrivals pTimer state.clock second) := by
    refine old.order.imp_of_mem fun {first second} member member' earlier => ?_
    rw [← TimerQueue.earlier_iff]
    unfold TimerQueue.Earlier at earlier ⊢
    rwa [due_same first member, due_same second member', arrivals_same first member, arrivals_same second member']
  have members : ∀ other ∈ front ++ pTimer :: back, other = pTimer ∨ other ∈ front ++ back := by
    intro other member
    simp only [List.mem_append, List.mem_cons] at member ⊢
    tauto
  refine ⟨holds, ?_, ?_, ?_⟩
  · intro other member
    rcases members other member with rfl | there
    · exact canonical
    · rw [same other (apart other there)]
      exact old.canonical other there
  · refine (pairwise_between old_order ?_ ?_ ?_).imp TimerQueue.earlier_iff.mpr
    · intro other member
      rw [neg_le_neg_iff, due_same other (List.mem_append_left back member)]
      exact before other member
    · intro other head
      rw [neg_lt_neg_iff, due_same other (List.mem_append_right front (List.mem_of_mem_head? head))]
      exact behind other head
    · intro other member _
      have there := List.mem_append_left back member
      rw [arrivals_same other there, Function.update_self]
      exact old.arrived other there
  · intro other member
    rcases members other member with rfl | there
    · dsimp only
      rw [Function.update_self]
      exact Nat.lt_succ_self _
    · dsimp only
      rw [arrivals_same other there]
      exact Nat.lt_succ_of_lt (old.arrived other there)

theorem TimerState.Queued.sublist {pQueue : TimerQueue} {firings : Nat → List Int} {queued' : List Nat} (old : state.Queued queued)
    (holds : pQueue.Holds queued') (fewer : queued'.Sublist queued) (timers : pQueue.timers = state.queue.timers) :
    TimerState.Queued ⟨pQueue, state.clock, state.arrivals, firings⟩ queued' := by
  have due_same : pQueue.due = state.queue.due := by
    funext timer
    rw [TimerQueue.due, TimerQueue.due, timers]
  refine ⟨holds, ?_, ?_, fun timer member => old.arrived timer (fewer.subset member)⟩
  · intro timer member
    rw [timers]
    exact old.canonical timer (fewer.subset member)
  · refine (old.order.sublist fewer).imp fun {first second} earlier => ?_
    unfold TimerQueue.Earlier at earlier ⊢
    rwa [due_same]

theorem mem_middle_of_ne {other : Nat} (member : other ∈ front ++ pTimer :: back) (apart : other ≠ pTimer) :
    other ∈ front ++ back := by
  simp only [List.mem_append, List.mem_cons] at member ⊢
  tauto

theorem outcome_unique {call : Nat → Option TimerQueue} {first second : TimerQueue} {rounds enough : Nat}
    (does : ∀ fuel, rounds ≤ fuel → call fuel = some first) (does' : ∀ fuel, enough ≤ fuel → call fuel = some second) :
    first = second :=
  Option.some.inj ((does _ (Nat.le_max_left rounds enough)).symm.trans (does' _ (Nat.le_max_right rounds enough)))

theorem TimerStep.kept (taken : TimerStep state action after) (ordered : state.Queued queued) (fired : state.Fired queued) :
    ∃ queued', after.Queued queued' ∧ after.Fired queued' := by
  cases taken with
  | @added pTimer rounds timer pQueue fresh canonical does =>
    have absent := fresh queued ordered.holds
    have added : (state.queue.setTimer pTimer timer).timers pTimer = timer := Function.update_self ..
    have others : ∀ other ≠ pTimer, (state.queue.setTimer pTimer timer).timers other = state.queue.timers other :=
      fun other apart => Function.update_of_ne apart _ _
    have apart : ∀ other ∈ queued, other ≠ pTimer := by
      rintro other member rfl
      exact absent member
    have holds₀ : (state.queue.setTimer pTimer timer).Holds queued := ordered.holds
    obtain ⟨front, back, pQueue', rfl, adds, holds, timers, before, behind⟩ :=
      TimerQueue.addTimer_spec holds₀ absent (by rwa [added]) fun other member => by
        rw [others other (apart other member)]
        exact ordered.canonical other member
    obtain rfl := outcome_unique adds does
    have same : ∀ other ≠ pTimer, pQueue'.timers other = state.queue.timers other := fun other apart => by
      rw [timers, others other apart]
    have due_added : pQueue'.due pTimer = (state.queue.setTimer pTimer timer).due pTimer := by
      rw [TimerQueue.due, TimerQueue.due, timers]
    have due_same : ∀ other ∈ front ++ back, state.queue.due other = (state.queue.setTimer pTimer timer).due other := by
      intro other member
      rw [TimerQueue.due, TimerQueue.due, others other (apart other member)]
    refine ⟨front ++ pTimer :: back, ordered.insert absent holds same ?_ ?_ ?_, ?_⟩
    · rwa [timers, added]
    · intro other member
      rw [due_same other (List.mem_append_left back member), due_added]
      exact before other member
    · intro other head
      rw [due_same other (List.mem_append_right front (List.mem_of_mem_head? head)), due_added]
      exact behind other head
    · intro other
      dsimp only
      by_cases isTimer : other = pTimer
      · rw [isTimer, Function.update_self]
        exact .nil _ _
      · rw [Function.update_of_ne isTimer, same other isTimer]
        exact (fired other).mono fun member => mem_middle_of_ne member isTimer
  | @removed pTimer rounds pQueue does =>
    obtain ⟨pQueue', removes, holds, timers⟩ := TimerQueue.removeTimer_spec ordered.holds pTimer
    obtain rfl := outcome_unique removes does
    refine ⟨queued.erase pTimer, ordered.sublist holds List.erase_sublist timers, fun other => ?_⟩
    rw [timers]
    exact (fired other).mono List.mem_of_mem_erase
  | @took now pTimer pQueue does =>
    rcases TimerQueue.takeDue_spec ordered.holds now with waits | ⟨first, rest, pQueue', rfl, takes, holds, timers, -⟩
    · rw [waits] at does
      simp at does
    · rw [takes] at does
      simp only [Prod.mk.injEq, Option.some.injEq] at does
      obtain ⟨rfl, rfl⟩ := does
      refine ⟨rest, ordered.sublist holds (List.sublist_cons_self first rest) timers, fun other => ?_⟩
      dsimp only
      rw [timers]
      by_cases isFirst : other = first
      · rw [isFirst, Function.update_self]
        have absent : first ∉ rest := (List.nodup_cons.mp (SList.Holds.nodup ordered.holds)).1
        exact ((fired first).fire List.mem_cons_self).mono absent
      · rw [Function.update_of_ne isFirst]
        exact (fired other).mono (List.mem_cons_of_mem first)
  | @waited now pQueue does =>
    rcases TimerQueue.takeDue_spec ordered.holds now with waits | ⟨_, _, _, _, takes, -⟩
    · rw [waits] at does
      obtain rfl := (Prod.mk.inj does).2
      exact ⟨queued, ordered, fired⟩
    · rw [takes] at does
      simp at does
  | @otherLists links timerCacheQueue timerCacheCount same =>
    exact ⟨queued, ordered.sublist (SList.Holds.congr ordered.holds (same queued ordered.holds)) (List.Sublist.refl queued) rfl,
      fired⟩
  | @rearmed pTimer rounds curTime pQueue fresh rearmable does =>
    have absent := fresh queued ordered.holds
    obtain ⟨count, front, back, pQueue', deadline, rfl, next, rearms, holds, timers, canonical, is, before, behind⟩ :=
      TimerQueue.rearmTimer_spec ordered.holds absent ordered.canonical rearmable
    have rearms' : ∀ fuel, max count (front ++ back).length ≤ fuel →
        TimerQueue.rearmTimer fuel state.queue pTimer curTime = some pQueue' :=
      fun fuel enough => rearms fuel ((Nat.le_max_left _ _).trans enough) ((Nat.le_max_right _ _).trans enough)
    obtain rfl := outcome_unique rearms' does
    have rearmed : pQueue'.timers pTimer = { state.queue.timers pTimer with deadline := deadline } := by
      rw [timers]
      exact Function.update_self ..
    have same : ∀ other ≠ pTimer, pQueue'.timers other = state.queue.timers other := by
      intro other apart
      rw [timers]
      exact Function.update_of_ne apart _ _
    have due_rearmed : pQueue'.due pTimer = deadline.nanos := by rw [TimerQueue.due, rearmed]
    refine ⟨front ++ pTimer :: back,
      ordered.insert absent holds same (by rwa [rearmed]) (by rwa [due_rearmed]) (by rwa [due_rearmed]), ?_⟩
    intro other
    by_cases isTimer : other = pTimer
    · rw [isTimer]
      exact (fired pTimer).rearm rearmable.repeats next.positive (by rw [rearmed]) (by rw [rearmed]; exact is) _
    · rw [same other isTimer]
      exact (fired other).mono fun member => mem_middle_of_ne member isTimer

end Steps

def TimerState.initial (pQueue : TimerQueue) : TimerState :=
  ⟨{ pQueue with timerQueue := SList.init }, 0, fun _ => 0, fun _ => []⟩

/-- The timer came between those that are not due later and the first that is. -/
def TimerQueue.Inserted (pTimer : Nat) (queued : List Nat) (after : TimerQueue) : Prop :=
  ∃ front back, queued = front ++ back ∧ after.Holds (front ++ pTimer :: back) ∧
    (∀ other ∈ front, after.due other ≤ after.due pTimer) ∧ ∀ other, back.head? = some other → after.due pTimer < after.due other

/-- The order of the queue and what the calls do to it: an addition returns, a removal leaves the order of the others, and a
timer that is rearmed is on the queue again, due at the smallest point in time at whole intervals that is not in the past. -/
structure TimerState.Orderly (state : TimerState) (queued : List Nat) : Prop where
  ordered : state.Queued queued
  fired : state.Fired queued
  adds : ∀ pTimer timer, pTimer ∉ queued → timer.deadline.Canonical → ∃ after,
    (∀ fuel, queued.length ≤ fuel → TimerQueue.addTimer fuel (state.queue.setTimer pTimer timer) pTimer = some after) ∧
    after.Inserted pTimer queued ∧ after.timers = (state.queue.setTimer pTimer timer).timers
  removes : ∀ pTimer, ∃ after,
    (∀ fuel, queued.length ≤ fuel → TimerQueue.removeTimer fuel state.queue pTimer = some after) ∧
    after.Holds (queued.erase pTimer) ∧ after.timers = state.queue.timers
  rearms : ∀ pTimer curTime, pTimer ∉ queued → (state.queue.timers pTimer).Rearmable curTime → ∃ after rounds,
    TimerQueue.IsNext (state.queue.due pTimer) (state.queue.timers pTimer).interval.nanos curTime.nanos rounds ∧
    (∀ fuel, rounds ≤ fuel → queued.length ≤ fuel → TimerQueue.rearmTimer fuel state.queue pTimer curTime = some after) ∧
    after.Inserted pTimer queued ∧ after.due pTimer = state.queue.due pTimer + rounds * (state.queue.timers pTimer).interval.nanos ∧
    ∀ other ≠ pTimer, after.timers other = state.queue.timers other

theorem TimerState.Queued.orderly {state : TimerState} {queued : List Nat} (ordered : state.Queued queued)
    (fired : state.Fired queued) : state.Orderly queued := by
  refine ⟨ordered, fired, ?_, fun pTimer => TimerQueue.removeTimer_spec ordered.holds pTimer, ?_⟩
  · intro pTimer timer absent canonical
    have added : (state.queue.setTimer pTimer timer).timers pTimer = timer := Function.update_self ..
    have holds₀ : (state.queue.setTimer pTimer timer).Holds queued := ordered.holds
    obtain ⟨front, back, after, parts, adds, holds, timers, before, behind⟩ :=
      TimerQueue.addTimer_spec holds₀ absent (by rwa [added]) fun other member => by
        have apart : other ≠ pTimer := by
          rintro rfl
          exact absent member
        have same : (state.queue.setTimer pTimer timer).timers other = state.queue.timers other := Function.update_of_ne apart _ _
        rw [same]
        exact ordered.canonical other member
    have due : (state.queue.setTimer pTimer timer).due = after.due := by
      funext other
      rw [TimerQueue.due, TimerQueue.due, timers]
    rw [due] at before behind
    exact ⟨after, adds, ⟨front, back, parts, holds, before, behind⟩, timers⟩
  · intro pTimer curTime absent rearmable
    obtain ⟨rounds, front, back, after, deadline, rfl, next, rearms, holds, timers, -, is, before, behind⟩ :=
      TimerQueue.rearmTimer_spec ordered.holds absent ordered.canonical rearmable
    have rearmed : after.due pTimer = deadline.nanos := by
      rw [TimerQueue.due, timers, TimerQueue.setDeadline]
      dsimp only
      rw [Function.update_self]
    have same : ∀ other ≠ pTimer, after.timers other = state.queue.timers other := by
      intro other apart
      rw [timers]
      exact Function.update_of_ne apart _ _
    have due_same : ∀ other ∈ front ++ back, after.due other = state.queue.due other := by
      intro other member
      rw [TimerQueue.due, TimerQueue.due, same other (ne_of_mem_of_not_mem member absent)]
    refine ⟨after, rounds, next, rearms, ⟨front, back, rfl, holds, ?_, ?_⟩, by rw [rearmed, is], same⟩
    · intro other member
      rw [due_same other (List.mem_append_left back member), rearmed]
      exact before other member
    · intro other head
      rw [due_same other (List.mem_append_right front (List.mem_of_mem_head? head)), rearmed]
      exact behind other head

/-- In every run the timers are in the order of their deadlines, and in the order in which they came when these are the same;
no timer fires twice for one period, and it keeps its phase. -/
theorem timers_orderly {pQueue : TimerQueue} {actions : List TimerAction} {state : TimerState}
    (run : Runs TimerStep (.initial pQueue) actions state) : ∃ queued, state.Orderly queued := by
  have kept : ∃ queued, state.Queued queued ∧ state.Fired queued := by
    refine run.invariant (fun state => ∃ queued, state.Queued queued ∧ state.Fired queued) ?_ ?_
    · have holds : (TimerState.initial pQueue).queue.Holds [] := SList.holds_init pQueue.links
      exact ⟨[], ⟨holds, fun _ member => absurd member List.not_mem_nil, List.Pairwise.nil,
        fun _ member => absurd member List.not_mem_nil⟩, fun timer => .nil _ _⟩
    · rintro action state after ⟨queued, ordered, fired⟩ taken
      exact taken.kept ordered fired
  obtain ⟨queued, ordered, fired⟩ := kept
  exact ⟨queued, ordered.orderly fired⟩

/-- A timer that is due each second from the first one on is taken after two and a half seconds, and is due again at the
third one. -/
theorem timers_orderly_second :
    ∃ state, Runs TimerStep (.initial ⟨fun _ => none, fun _ => ⟨⟨0, 0⟩, ⟨0, 0⟩, false⟩, SList.init, SList.init, 0⟩)
      [.rearmTimer 7 ⟨2, 500000000⟩, .takeDue ⟨2, 500000000⟩, .addTimer 7 ⟨⟨1, 0⟩, ⟨1, 0⟩, false⟩] state ∧
      state.queue.due 7 = 3000000000 ∧ state.firings 7 = [1000000000] ∧ ∃ queued, state.Orderly queued := by
  have empty : ∀ pQueue : TimerQueue, pQueue.timerQueue.first = none → ∀ queued, pQueue.Holds queued → 7 ∉ queued := by
    intro pQueue first queued holds
    have none : queued.head? = none := (SList.Holds.first holds).symm.trans first
    rw [List.head?_eq_none_iff.mp none]
    exact List.not_mem_nil
  have added : TimerStep (.initial ⟨fun _ => none, fun _ => ⟨⟨0, 0⟩, ⟨0, 0⟩, false⟩, SList.init, SList.init, 0⟩)
      (.addTimer 7 ⟨⟨1, 0⟩, ⟨1, 0⟩, false⟩) _ :=
    .added (empty _ rfl) (by decide) fun fuel (_ : 0 ≤ fuel) => by cases fuel <;> rfl
  have took := Runs.step (Runs.nil.step added) (@TimerStep.took _ ⟨2, 500000000⟩ 7 _ rfl)
  have run := took.step (@TimerStep.rearmed _ 7 2 ⟨2, 500000000⟩ _ (empty _ rfl)
    ⟨by decide, by decide, by decide, by decide, by decide, by decide⟩ fun fuel enough => by
      obtain ⟨more, rfl⟩ := Nat.exists_eq_add_of_le' enough
      rfl)
  exact ⟨_, run, rfl, rfl, timers_orderly run⟩

end Apollo.Dispatchqueue
