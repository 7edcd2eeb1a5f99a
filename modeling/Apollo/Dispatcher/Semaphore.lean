import Apollo.Dispatcher.WaitQueue
import Apollo.Lib.Runs
import Mathlib.Tactic.Linarith

/-!
# Semaphores

`Semaphore_asm.s` with any number of virtual processors.  A step is one section
with preemption disabled; a section of an acquire ends at the context switch
inside `WaitOn` and goes on behind it with a new step.  The label of a step has
what a call returns in it.
-/

set_option autoImplicit false

namespace Apollo.Dispatcher

open Lib

namespace Semaphore

/-- `AcquireMultiple` and `AcquireAll`, or their `Try` variants. -/
inductive Request
  | multiple (npermits : BitVec 32)
  | all

/-- Where a virtual processor is: in none of the functions, in front of the section of an acquire, on
the wait queue, or made ready again behind its wait. -/
inductive Place
  | outside
  | entering (request : Request)
  | waiting (request : Request)
  | woken (request : Request) (reason : WakeUpReason)

structure System where
  value : BitVec 32
  waitQueue : WaitQueue
  places : Nat → Place

/-- The permits that a call returns with, or its error. -/
abbrev Reply : Type := Option (Except Errno (BitVec 32))

def Request.claims (value : BitVec 32) : Request → Option (BitVec 32)
  | .multiple npermits => if npermits.sle value then some npermits else none
  | .all => if BitVec.slt 0 value then some value else none

namespace System

def returns (sys : System) (vpid : Nat) (result : Except Errno (BitVec 32)) : Reply × System :=
  (some result, { sys with places := Function.update sys.places vpid .outside })

/-- The loop of `AcquireMultiple` and `AcquireAll` up to its end or to the context switch. -/
def acquire (sys : System) (vpid : Nat) (request : Request) (entry : Entry) : Reply × System :=
  match request.claims sys.value with
  | some npermits => returns { sys with value := sys.value - npermits } vpid (.ok npermits)
  | none =>
    match sys.waitQueue.waitOn vpid entry true with
    | .ok queue => (none, { sys with waitQueue := queue, places := Function.update sys.places vpid (.waiting request) })
    | .error error => sys.returns vpid (.error error)

def tryAcquire (sys : System) (vpid : Nat) (request : Request) : Reply × System :=
  match request.claims sys.value with
  | some npermits => returns { sys with value := sys.value - npermits } vpid (.ok npermits)
  | none => sys.returns vpid (.ok 0)

def resume (reason : WakeUpReason) : Place → Place
  | .waiting request => .woken request reason
  | place => place

/-- The virtual processors in `woken` leave the wait queue. -/
def wakeUp (sys : System) (reason : WakeUpReason) (woken : List Nat × WaitQueue) : System :=
  { sys with waitQueue := woken.2, places := wake sys.places woken.1 (resume reason) }

/-- `RelinquishMultiple` and `RelinquishFromInterruptContext`: the branch looks at the sum before it
is cut to 32 bits. -/
def relinquish (sys : System) (npermits : BitVec 32) : System :=
  let raised := { sys with value := sys.value + npermits }
  if sys.value.toInt + npermits.toInt ≤ 0 then raised
  else raised.wakeUp .finished (sys.waitQueue.wakeUpSome .finished none)

end System

def init (value : BitVec 32) : System := ⟨value, [], fun _ => .outside⟩

/-! ## Steps -/

inductive Action
  | call (vpid : Nat) (request : Request)
  | run (vpid : Nat) (entry : Entry)
  | tryAcquire (vpid : Nat) (request : Request)
  | relinquishMultiple (npermits : BitVec 32)
  | relinquishFromInterruptContext
  | timeout (vpid : Nat)
  | interrupt (vpid : Nat)
  | interruptAll

def perform (sys : System) : Action → Option (Reply × System)
  | .call vpid request =>
    match sys.places vpid with
    | .outside => some (none, { sys with places := Function.update sys.places vpid (.entering request) })
    | _ => none
  | .run vpid entry =>
    match sys.places vpid with
    | .entering request => some (sys.acquire vpid request entry)
    | .woken request .finished => some (sys.acquire vpid request entry)
    | .woken _ .interrupted => some (sys.returns vpid (.error .EINTR))
    | .woken _ .timeout => some (sys.returns vpid (.error .ETIMEDOUT))
    | _ => none
  | .tryAcquire vpid request =>
    match sys.places vpid with
    | .outside => some (sys.tryAcquire vpid request)
    | _ => none
  | .relinquishMultiple npermits => some (none, sys.relinquish npermits)
  | .relinquishFromInterruptContext => some (none, sys.relinquish 1)
  | .timeout vpid => some (none, sys.wakeUp .timeout (sys.waitQueue.wakeUpOne .timeout vpid))
  | .interrupt vpid => some (none, sys.wakeUp .interrupted (sys.waitQueue.wakeUpOne .interrupted vpid))
  | .interruptAll => some (none, sys.wakeUp .interrupted (sys.waitQueue.wakeUpSome .interrupted none))

def Request.isPositive : Request → Bool
  | .multiple npermits => 1 ≤ npermits.toInt
  | .all => true

/-- Callers ask for and give at least one permit, and the permits stay below `2^31`. -/
def Action.isProper (sys : System) : Action → Bool
  | .call _ request => request.isPositive
  | .tryAcquire _ request => request.isPositive
  | .relinquishMultiple npermits => 1 ≤ npermits.toInt && sys.value.toInt + npermits.toInt < 2147483648
  | .relinquishFromInterruptContext => sys.value.toInt + 1 < 2147483648
  | _ => true

def performProper (sys : System) (action : Action) : Option (Reply × System) :=
  if action.isProper sys then perform sys action else none

def Step (sys : System) (label : Action × Reply) (after : System) : Prop := performProper sys label.1 = some (label.2, after)

/-! ## Permits -/

def Action.released : Action → Int
  | .relinquishMultiple npermits => npermits.toInt
  | .relinquishFromInterruptContext => 1
  | _ => 0

def released (labels : List (Action × Reply)) : Int := (labels.map fun label => label.1.released).sum

/-- What a virtual processor asked for in its last call that may wait. -/
def requested (vpid : Nat) : List (Action × Reply) → Option Request
  | [] => none
  | (.call other request, _) :: earlier => if other = vpid then some request else requested vpid earlier
  | _ :: earlier => requested vpid earlier

/-- A call that succeeds has got the permits it asked for, or all that it says. -/
def Request.granted : Request → Reply → Int
  | .multiple wanted, some (.ok npermits) => if npermits = 0 then 0 else wanted.toInt
  | .all, some (.ok npermits) => npermits.toInt
  | _, _ => 0

def acquiredBy (earlier : List (Action × Reply)) : Action × Reply → Int
  | (.run vpid _, reply) => (requested vpid earlier).elim 0 (·.granted reply)
  | (.tryAcquire _ request, reply) => request.granted reply
  | _ => 0

def acquired : List (Action × Reply) → Int
  | [] => 0
  | label :: earlier => acquired earlier + acquiredBy earlier label

def Place.request : Place → Option Request
  | .outside => none
  | .entering request => some request
  | .waiting request => some request
  | .woken request _ => some request

/-- The permits are accounted for, and whoever sleeps is on the queue and could not be served. -/
structure System.Sound (permits : Int) (sys : System) : Prop where
  nonneg : 0 ≤ sys.value.toInt
  balance : sys.value.toInt = permits
  asleep : ∀ vpid request, sys.places vpid = .waiting request →
    sys.waitQueue.Has vpid ∧ request.claims sys.value = none

structure System.Proper (permits : Int) (asked : Nat → Request → Prop) (sys : System) : Prop where
  sound : sys.Sound permits
  asks : ∀ vpid request, (sys.places vpid).request = some request → asked vpid request

section Claims
variable {value lower npermits : BitVec 32} {request : Request}

theorem toInt_lt_word : value.toInt < 2147483648 := @BitVec.toInt_lt 32 value

theorem toInt_sub_le (nonneg : 0 ≤ npermits.toInt) (le : npermits.toInt ≤ value.toInt) :
    (value - npermits).toInt = value.toInt - npermits.toInt := by
  have small := @toInt_lt_word value
  rw [BitVec.toInt_sub]
  apply Int.bmod_eq_of_le
  · omega
  · omega

theorem toInt_add_lt (value_nonneg : 0 ≤ value.toInt) (nonneg : 0 ≤ npermits.toInt)
    (small : value.toInt + npermits.toInt < 2147483648) :
    (value + npermits).toInt = value.toInt + npermits.toInt := by
  rw [BitVec.toInt_add]
  apply Int.bmod_eq_of_le
  · omega
  · omega

theorem claims_some (positive : request.isPositive = true) (claims : request.claims value = some npermits) :
    1 ≤ npermits.toInt ∧ npermits.toInt ≤ value.toInt := by
  cases request with
  | multiple wanted =>
    simp only [Request.claims, Option.ite_none_right_eq_some, Option.some.injEq, BitVec.sle_iff_toInt_le] at claims
    obtain ⟨enough, rfl⟩ := claims
    exact ⟨of_decide_eq_true positive, enough⟩
  | all =>
    simp only [Request.claims, Option.ite_none_right_eq_some, Option.some.injEq, BitVec.slt_iff_toInt_lt] at claims
    obtain ⟨some, rfl⟩ := claims
    change (0 : Int) < value.toInt at some
    omega

theorem granted_claims (positive : request.isPositive = true) (claims : request.claims value = some npermits) :
    request.granted (some (.ok npermits)) = npermits.toInt := by
  obtain ⟨least, -⟩ := claims_some positive claims
  cases request with
  | multiple wanted =>
    simp only [Request.claims, Option.ite_none_right_eq_some, Option.some.injEq] at claims
    obtain ⟨-, rfl⟩ := claims
    refine if_neg ?_
    rintro rfl
    exact absurd least (by decide)
  | all => rfl

theorem granted_error (request : Request) (error : Errno) : request.granted (some (.error error)) = 0 := by
  cases request <;> rfl

theorem claims_none_of_le (le : lower.toInt ≤ value.toInt) (claims : request.claims value = none) :
    request.claims lower = none := by
  cases request with
  | multiple wanted =>
    simp only [Request.claims, ite_eq_right_iff, reduceCtorEq, imp_false, BitVec.sle_iff_toInt_le] at claims ⊢
    omega
  | all =>
    simp only [Request.claims, ite_eq_right_iff, reduceCtorEq, imp_false, BitVec.slt_iff_toInt_lt] at claims ⊢
    omega

end Claims

section Steps
variable {permits : Int} {asked asked' : Nat → Request → Prop} {sys : System} {vpid : Nat} {request : Request}

theorem request_resume {reason : WakeUpReason} {place : Place} :
    (System.resume reason place).request = place.request := by
  cases place <;> rfl

section
variable (proper : sys.Proper permits asked)
include proper

/-- One virtual processor is somewhere else, and not on the queue. -/
theorem System.Proper.move {place : Place} (old : ∀ other ≠ vpid, ∀ request, asked other request → asked' other request)
    (new : ∀ request, place.request = some request → asked' vpid request)
    (awake : ∀ request, place ≠ .waiting request) :
    System.Proper permits asked' { sys with places := Function.update sys.places vpid place } := by
  refine ⟨⟨proper.sound.nonneg, proper.sound.balance, ?_⟩, ?_⟩
  · intro other wanted waits
    by_cases same : other = vpid
    · rw [same] at waits
      simp only [Function.update_self] at waits
      exact absurd waits (awake wanted)
    · simp only [Function.update_of_ne same] at waits
      exact proper.sound.asleep other wanted waits
  · intro other wanted asks
    by_cases same : other = vpid
    · rw [same] at asks
      simp only [Function.update_self] at asks
      rw [same]
      exact new wanted asks
    · simp only [Function.update_of_ne same] at asks
      exact old other same wanted (proper.asks other wanted asks)

theorem System.Proper.returns (result : Except Errno (BitVec 32)) :
    (sys.returns vpid result).2.Proper permits asked :=
  proper.move (fun _ _ _ asked => asked) (by simp [Place.request]) (by simp)

theorem System.Proper.fails (error : Errno) :
    (sys.returns vpid (.error error)).2.Proper (permits - request.granted (some (.error error))) asked := by
  rw [granted_error, Int.sub_zero]
  exact proper.returns (.error error)

/-- Permits leave the semaphore with the call that claims them. -/
theorem System.Proper.claim {npermits : BitVec 32} (positive : request.isPositive = true)
    (claims : request.claims sys.value = some npermits) :
    (System.returns { sys with value := sys.value - npermits } vpid (.ok npermits)).2.Proper
      (permits - request.granted (some (.ok npermits))) asked := by
  obtain ⟨least, enough⟩ := claims_some positive claims
  have value := toInt_sub_le (by omega) enough
  rw [granted_claims positive claims]
  have less : System.Proper (permits - npermits.toInt) asked { sys with value := sys.value - npermits } := by
    refine ⟨⟨?_, ?_, ?_⟩, proper.asks⟩
    · simp only [value]
      omega
    · have balance := proper.sound.balance
      simp only [value]
      omega
    · intro other wanted waits
      obtain ⟨queued, unserved⟩ := proper.sound.asleep other wanted waits
      exact ⟨queued, claims_none_of_le (by simp only [value]; omega) unserved⟩
  exact less.returns (.ok npermits)

theorem System.Proper.acquire (positive : request.isPositive = true) (asks : asked vpid request) (entry : Entry) :
    (sys.acquire vpid request entry).2.Proper (permits - request.granted (sys.acquire vpid request entry).1) asked := by
  unfold System.acquire
  cases claims : request.claims sys.value with
  | some npermits => exact proper.claim positive claims
  | none =>
    unfold WaitQueue.waitOn
    split_ifs
    · exact proper.fails .EINTR
    · exact proper.fails .ETIMEDOUT
    · have nothing : request.granted none = 0 := by cases request <;> rfl
      dsimp only
      rw [nothing, Int.sub_zero]
      refine ⟨⟨proper.sound.nonneg, proper.sound.balance, ?_⟩, ?_⟩
      · intro other wanted waits
        dsimp only at waits ⊢
        rw [WaitQueue.has_enter]
        by_cases same : other = vpid
        · rw [same, Function.update_self, Place.waiting.injEq] at waits
          rw [← waits]
          exact ⟨.inl same, claims⟩
        · rw [Function.update_of_ne same] at waits
          obtain ⟨queued, unserved⟩ := proper.sound.asleep other wanted waits
          exact ⟨.inr queued, unserved⟩
      · intro other wanted wants
        dsimp only at wants
        by_cases same : other = vpid
        · rw [same, Function.update_self] at wants
          rw [same, ← Option.some.inj wants]
          exact asks
        · rw [Function.update_of_ne same] at wants
          exact proper.asks other wanted wants

theorem System.Proper.tryAcquire (positive : request.isPositive = true) :
    (sys.tryAcquire vpid request).2.Proper (permits - request.granted (sys.tryAcquire vpid request).1) asked := by
  unfold System.tryAcquire
  cases claims : request.claims sys.value with
  | some npermits => exact proper.claim positive claims
  | none =>
    have nothing : request.granted (some (.ok 0)) = 0 := by cases request <;> rfl
    change System.Proper (permits - request.granted (some (.ok 0))) asked _
    rw [nothing, Int.sub_zero]
    exact proper.returns (.ok 0)

/-- A wake-up changes who sleeps, and whoever sleeps on is still on the queue. -/
theorem System.Proper.wakeUp {reason : WakeUpReason} {woken : List Nat × WaitQueue}
    (complete : ∀ vpid, sys.waitQueue.Has vpid → vpid ∈ woken.1 ∨ WaitQueue.Has woken.2 vpid) :
    (sys.wakeUp reason woken).Proper permits asked := by
  refine ⟨⟨proper.sound.nonneg, proper.sound.balance, ?_⟩, ?_⟩
  · intro other wanted waits
    change wake sys.places woken.1 (resume reason) other = .waiting wanted at waits
    unfold wake at waits
    split_ifs at waits with up
    · cases place : sys.places other <;> rw [place] at waits <;> simp [resume] at waits
    · obtain ⟨queued, unserved⟩ := proper.sound.asleep other wanted waits
      exact ⟨(complete other queued).resolve_left up, unserved⟩
  · intro other wanted asks
    change (wake sys.places woken.1 (resume reason) other).request = some wanted at asks
    unfold wake at asks
    split_ifs at asks
    · rw [request_resume] at asks
      exact proper.asks other wanted asks
    · exact proper.asks other wanted asks

/-- New permits wake everybody up. -/
theorem System.Proper.relinquish {npermits : BitVec 32} (least : 1 ≤ npermits.toInt)
    (small : sys.value.toInt + npermits.toInt < 2147483648) :
    (sys.relinquish npermits).Proper (permits + npermits.toInt) asked := by
  have nonneg := proper.sound.nonneg
  have value := toInt_add_lt nonneg (by omega) small
  have woken := @System.Proper.wakeUp permits asked sys proper .finished _ fun vpid =>
    @WaitQueue.has_wakeUpSome sys.waitQueue vpid .finished none
  unfold System.relinquish
  rw [if_neg (by omega)]
  refine ⟨⟨?_, ?_, ?_⟩, woken.asks⟩
  · simp only [System.wakeUp, value]
    omega
  · have balance := proper.sound.balance
    simp only [System.wakeUp, value]
    omega
  · intro other wanted waits
    have asleep := woken.sound.asleep other wanted waits
    change WaitQueue.Has (sys.waitQueue.wakeUpSome .finished none).2 other ∧ _ at asleep
    rw [WaitQueue.wakeUpSome_all (by simp)] at asleep
    obtain ⟨⟨waiter, member, -⟩, -⟩ := asleep
    simp at member

end

/-- What is known of the requests of the calls that have not returned. -/
def Asked (labels : List (Action × Reply)) (vpid : Nat) (request : Request) : Prop :=
  request.isPositive = true ∧ requested vpid labels = some request

theorem Step.proper {labels : List (Action × Reply)} {label : Action × Reply} {after : System}
    (proper : sys.Proper permits (Asked labels)) (step : Step sys label after) :
    after.Proper (permits + label.1.released - acquiredBy labels label) (Asked (label :: labels)) := by
  obtain ⟨action, reply⟩ := label
  obtain ⟨isProper, performs⟩ := Option.ite_none_right_eq_some.mp step
  dsimp only at isProper performs
  cases action with
  | call vpid request =>
    simp only [perform] at performs
    split at performs
    · obtain ⟨rfl, rfl⟩ := Prod.mk.inj (Option.some.inj performs)
      change System.Proper (permits + 0 - 0) _ _
      rw [Int.add_zero, Int.sub_zero]
      refine proper.move (fun other apart wanted asked => ⟨asked.1, ?_⟩) (fun wanted asks => ?_) (by simp)
      · rw [requested, if_neg (Ne.symm apart)]
        exact asked.2
      · rw [← Option.some.inj asks]
        exact ⟨isProper, if_pos rfl⟩
    · simp at performs
  | run vpid entry =>
    have asked : ∀ request, (sys.places vpid).request = some request → Asked labels vpid request := proper.asks vpid
    have unreleased : permits + (Action.run vpid entry).released = permits := Int.add_zero permits
    rw [unreleased]
    simp only [perform] at performs
    split at performs
    next request place =>
      obtain ⟨rfl, rfl⟩ := Prod.mk.inj (Option.some.inj performs)
      obtain ⟨positive, last⟩ := asked request (by rw [place]; rfl)
      rw [acquiredBy, last]
      exact proper.acquire positive ⟨positive, last⟩ entry
    next request place =>
      obtain ⟨rfl, rfl⟩ := Prod.mk.inj (Option.some.inj performs)
      obtain ⟨positive, last⟩ := asked request (by rw [place]; rfl)
      rw [acquiredBy, last]
      exact proper.acquire positive ⟨positive, last⟩ entry
    next request place =>
      obtain ⟨rfl, rfl⟩ := Prod.mk.inj (Option.some.inj performs)
      rw [acquiredBy, (asked request (by rw [place]; rfl)).2]
      exact proper.fails .EINTR
    next request place =>
      obtain ⟨rfl, rfl⟩ := Prod.mk.inj (Option.some.inj performs)
      rw [acquiredBy, (asked request (by rw [place]; rfl)).2]
      exact proper.fails .ETIMEDOUT
    next => simp at performs
  | tryAcquire vpid request =>
    simp only [perform] at performs
    split at performs
    · obtain ⟨rfl, rfl⟩ := Prod.mk.inj (Option.some.inj performs)
      change System.Proper (permits + 0 - request.granted _) _ _
      rw [Int.add_zero]
      exact proper.tryAcquire isProper
    · simp at performs
  | relinquishMultiple npermits =>
    simp only [Action.isProper, Bool.and_eq_true, decide_eq_true_eq] at isProper
    obtain ⟨rfl, rfl⟩ := Prod.mk.inj (Option.some.inj performs)
    change System.Proper (permits + npermits.toInt - 0) _ _
    rw [Int.sub_zero]
    exact proper.relinquish isProper.1 isProper.2
  | relinquishFromInterruptContext =>
    obtain ⟨rfl, rfl⟩ := Prod.mk.inj (Option.some.inj performs)
    change System.Proper (permits + 1 - 0) _ _
    rw [Int.sub_zero]
    exact @System.Proper.relinquish permits _ sys proper 1 (by decide) (of_decide_eq_true isProper)
  | timeout vpid =>
    obtain ⟨rfl, rfl⟩ := Prod.mk.inj (Option.some.inj performs)
    change System.Proper (permits + 0 - 0) _ _
    rw [Int.add_zero, Int.sub_zero]
    exact proper.wakeUp fun _ => WaitQueue.has_wakeUpOne
  | interrupt vpid =>
    obtain ⟨rfl, rfl⟩ := Prod.mk.inj (Option.some.inj performs)
    change System.Proper (permits + 0 - 0) _ _
    rw [Int.add_zero, Int.sub_zero]
    exact proper.wakeUp fun _ => WaitQueue.has_wakeUpOne
  | interruptAll =>
    obtain ⟨rfl, rfl⟩ := Prod.mk.inj (Option.some.inj performs)
    change System.Proper (permits + 0 - 0) _ _
    rw [Int.add_zero, Int.sub_zero]
    exact proper.wakeUp fun _ => WaitQueue.has_wakeUpSome

/-- The value is the permits that came in less those that went out, and nobody sleeps next to enough
permits. -/
theorem runs_sound {value : BitVec 32} {labels : List (Action × Reply)} (nonneg : 0 ≤ value.toInt)
    (run : Runs Step (init value) labels sys) : sys.Sound (value.toInt + released labels - acquired labels) := by
  have proper : sys.Proper (value.toInt + released labels - acquired labels) (Asked labels) := by
    refine run.history (fun labels sys => sys.Proper (value.toInt + released labels - acquired labels) (Asked labels)) ?_ ?_
    · refine ⟨⟨nonneg, ?_, ?_⟩, ?_⟩
      · simp [init, released, acquired]
      · intro other wanted waits
        simp [init] at waits
      · intro other wanted asks
        simp [init, Place.request] at asks
    · intro labels label state after _ holds step
      have next := Step.proper holds step
      have total : value.toInt + released labels - acquired labels + label.1.released - acquiredBy labels label =
          value.toInt + released (label :: labels) - acquired (label :: labels) := by
        rw [released, released, acquired, List.map_cons, List.sum_cons]
        omega
      rwa [total] at next
  exact proper.sound

end Steps

/-- A wait for two permits, one permit, the woken waiter that sleeps again, an interrupt, and another
virtual processor that takes the permit. -/
def onePermit : List Action :=
  [.call 1 (.multiple 2), .run 1 ⟨false, false, 5⟩, .relinquishMultiple 1, .run 1 ⟨false, false, 6⟩,
    .call 2 .all, .run 2 ⟨false, false, 5⟩, .interrupt 1, .run 1 ⟨true, false, 5⟩, .call 3 .all, .run 3 ⟨false, false, 7⟩]

theorem onePermit_sound : ∃ (sys : System) (labels : List (Action × Reply)),
    Runs Step (init 0) labels sys ∧ labels.map Prod.fst = onePermit.reverse ∧ sys.waitQueue.map Waiter.vpid = [3] ∧
      sys.value = 0 ∧ released labels = 1 ∧ acquired labels = 1 ∧
        sys.Sound ((0 : BitVec 32).toInt + released labels - acquired labels) := by
  have performs : (replyAll performProper onePermit (init 0)).map (fun sys => (sys.waitQueue.map Waiter.vpid, sys.value)) =
      some ([3], 0) := by
    decide
  obtain ⟨sys, performed, data⟩ := Option.map_eq_some_iff.mp performs
  obtain ⟨labels, run, requests⟩ := @Runs.replyAll_requests _ _ _ _ Step (fun _ _ _ _ enabled => enabled) _ _ _ _ _ Runs.nil performed
  obtain ⟨queue, value⟩ := Prod.mk.inj data
  rw [List.append_nil] at run
  have sound := runs_sound (by decide) run
  have given : released labels = 1 := by
    have actions : released labels = ((labels.map Prod.fst).map Action.released).sum := by rw [released, List.map_map]; rfl
    rw [actions, requests]
    decide
  have balance := sound.balance
  rw [value, given] at balance
  have taken : acquired labels = 1 := by
    change (0 : Int) = 0 + 1 - acquired labels at balance
    omega
  exact ⟨sys, labels, run, requests, queue, value, given, taken, sound⟩

end Semaphore

end Apollo.Dispatcher
