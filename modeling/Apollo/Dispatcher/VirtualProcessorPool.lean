import Apollo.Filesystem.Inode
import Apollo.Lib.Runs
import Mathlib.Data.List.Nodup

/-!
# The virtual processor pool

`VirtualProcessorPool.c`.  A step is a section under the lock of the pool or what
a caller does between two of them, so that any number of calls may be on their
way: `creating` counts those that found nothing to reuse, `created` has the
virtual processors that are on no list yet, and `configuring` those that are on
the in-use list and wait for their closure.

`owned` has the virtual processors that were handed out and not given back,
`parting` those that gave themselves back and run until they suspend themselves,
and `leaving` those that are about to terminate.  No code reads them.
-/

set_option autoImplicit false

namespace Apollo.Dispatcher

open Lib

structure VirtualProcessorPool where
  inuseQueue : List Nat
  reuseQueue : List Nat
  inuseCount : Int
  reuseCount : Int
  reuseCapacity : Int

namespace VirtualProcessorPool

structure System where
  pool : VirtualProcessorPool
  suspensionCount : Nat → Nat
  isAllocated : Nat → Bool
  creating : Nat
  created : List Nat
  configuring : List Nat
  owned : List Nat
  parting : List Nat
  leaving : List Nat

def create : VirtualProcessorPool := ⟨[], [], 0, 0, 16⟩

def start : System := ⟨create, fun _ => 0, fun _ => false, 0, [], [], [], [], []⟩

/-! ## `VirtualProcessorPool_AcquireVirtualProcessor` -/

def moveToInuse (pool : VirtualProcessorPool) (vp : Nat) : VirtualProcessorPool :=
  { pool with
    reuseQueue := pool.reuseQueue.erase vp
    reuseCount := pool.reuseCount - 1
    inuseQueue := vp :: pool.inuseQueue
    inuseCount := pool.inuseCount + 1 }

def reuseVirtualProcessor (sys : System) : System :=
  match sys.pool.reuseQueue.find? fun vp => 0 < sys.suspensionCount vp with
  | some vp => { sys with pool := sys.pool.moveToInuse vp, configuring := vp :: sys.configuring }
  | none => { sys with creating := sys.creating + 1 }

/-- `VirtualProcessor_Create`; `address` is what `kalloc_cleared` answers. -/
def createVirtualProcessor (address : Option Nat) (sys : System) : System :=
  match address with
  | some vp =>
    { sys with
      creating := sys.creating - 1
      created := vp :: sys.created
      isAllocated := Function.update sys.isAllocated vp true
      suspensionCount := Function.update sys.suspensionCount vp 1 }
  | none => { sys with creating := sys.creating - 1 }

def insertVirtualProcessor (vp : Nat) (sys : System) : System :=
  { sys with
    pool := { sys.pool with
      inuseQueue := vp :: sys.pool.inuseQueue
      inuseCount := sys.pool.inuseCount + 1 }
    created := sys.created.erase vp
    configuring := vp :: sys.configuring }

/-- `VirtualProcessor_SetClosure`, and the return from the call. -/
def setClosure (vp : Nat) (isSet : Bool) : Code System Errno Unit := fun sys =>
  if sys.suspensionCount vp = 0 then .fault
  else
    let sys := { sys with configuring := sys.configuring.erase vp }
    if isSet then .ok () { sys with owned := vp :: sys.owned } else .err .ENOMEM sys

/-! ## `VirtualProcessorPool_RelinquishVirtualProcessor` -/

def relinquishVirtualProcessor (vp : Nat) (sys : System) : System :=
  let sys := { sys with
    pool := { sys.pool with
      inuseQueue := sys.pool.inuseQueue.erase vp
      inuseCount := sys.pool.inuseCount - 1 }
    owned := sys.owned.erase vp }
  if sys.pool.reuseCount < sys.pool.reuseCapacity then
    { sys with
      pool := { sys.pool with
        reuseQueue := vp :: sys.pool.reuseQueue
        reuseCount := sys.pool.reuseCount + 1 }
      parting := vp :: sys.parting }
  else { sys with leaving := vp :: sys.leaving }

def suspend (vp : Nat) : Code System Errno Unit := fun sys =>
  if sys.suspensionCount vp = 127 then .err .EINVAL sys
  else .ok () { sys with suspensionCount := Function.update sys.suspensionCount vp (sys.suspensionCount vp + 1) }

def resume (vp : Nat) (force : Bool) (sys : System) : System :=
  { sys with suspensionCount :=
      Function.update sys.suspensionCount vp (if force then 0 else sys.suspensionCount vp - 1) }

/-- The virtual processor suspends itself; `try_bang` makes an error fatal. -/
def suspendParting (vp : Nat) : Code System Errno Unit := fun sys =>
  match suspend vp sys with
  | .ok _ sys => .ok () { sys with parting := sys.parting.erase vp }
  | .err _ _ => .fault
  | .fault => .fault

/-- `VirtualProcessor_Terminate`, up to the finalization. -/
def terminate (vp : Nat) (sys : System) : System :=
  { sys with
    leaving := sys.leaving.erase vp
    isAllocated := Function.update sys.isAllocated vp false }

/-! ## Steps -/

inductive Action
  | reuse
  | create (address : Option Nat)
  | insert (vp : Nat)
  | setClosure (vp : Nat) (isSet : Bool)
  | suspend (vp : Nat)
  | resume (vp : Nat) (force : Bool)
  | relinquish (vp : Nat)
  | suspendParting (vp : Nat)
  | terminate (vp : Nat)
  deriving DecidableEq

def perform : Action → Code System Errno Unit
  | .reuse => Code.modify reuseVirtualProcessor
  | .create address => Code.modify (createVirtualProcessor address)
  | .insert vp => Code.modify (insertVirtualProcessor vp)
  | .setClosure vp isSet => setClosure vp isSet
  | .suspend vp => suspend vp
  | .resume vp force => Code.modify (resume vp force)
  | .relinquish vp => Code.modify (relinquishVirtualProcessor vp)
  | .suspendParting vp => suspendParting vp
  | .terminate vp => Code.modify (terminate vp)

/-- Calls go on from where they are, the owner of a virtual processor suspends and resumes it, and one that
runs gives itself back. -/
def Action.Enabled (sys : System) : Action → Prop
  | .reuse => True
  | .create address => 0 < sys.creating ∧ ∀ vp ∈ address, sys.isAllocated vp = false
  | .insert vp => vp ∈ sys.created
  | .setClosure vp _ => vp ∈ sys.configuring
  | .suspend vp => vp ∈ sys.owned
  | .resume vp _ => vp ∈ sys.owned
  | .relinquish vp => vp ∈ sys.owned ∧ sys.suspensionCount vp = 0
  | .suspendParting vp => vp ∈ sys.parting
  | .terminate vp => vp ∈ sys.leaving

instance (sys : System) (action : Action) : Decidable (action.Enabled sys) := by
  cases action <;> unfold Action.Enabled <;> infer_instance

def Step (sys : System) (action : Action) (after : System) : Prop :=
  action.Enabled sys ∧ (perform action sys).state? = some after

def performStep (sys : System) (action : Action) : Option System :=
  if action.Enabled sys then (perform action sys).state? else none

theorem performStep_step (sys : System) (action : Action) (after : System)
    (performs : performStep sys action = some after) : Step sys action after := by
  unfold performStep at performs
  split_ifs at performs with enabled
  exact ⟨enabled, performs⟩

/-! ## Where the virtual processors are -/

def orphans (actions : List Action) : List Nat :=
  actions.filterMap fun action =>
    match action with
    | .setClosure vp false => some vp
    | _ => none

structure Inv (actions : List Action) (sys : System) : Prop where
  inuseCount : sys.pool.inuseCount = sys.pool.inuseQueue.length
  reuseCount : sys.pool.reuseCount = sys.pool.reuseQueue.length
  capacity : sys.pool.reuseCount ≤ sys.pool.reuseCapacity
  /-- A virtual processor is in one place, for as long as it exists. -/
  placed : ∀ vp, sys.pool.inuseQueue.count vp + sys.pool.reuseQueue.count vp + sys.created.count vp +
    sys.leaving.count vp = if sys.isAllocated vp then 1 else 0
  claimed : ∀ vp, sys.pool.inuseQueue.count vp =
    sys.owned.count vp + sys.configuring.count vp + (orphans actions).count vp
  parting : ∀ vp, sys.parting.count vp ≤ sys.pool.reuseQueue.count vp
  awake : ∀ vp, vp ∈ sys.parting → sys.suspensionCount vp = 0
  asleep : ∀ vp, vp ∈ sys.created ∨ vp ∈ sys.configuring → 0 < sys.suspensionCount vp

structure Sound (sys : System) : Prop where
  inuseCount : sys.pool.inuseCount = sys.pool.inuseQueue.length
  reuseCount : sys.pool.reuseCount = sys.pool.reuseQueue.length
  capacity : sys.pool.reuseCount ≤ sys.pool.reuseCapacity
  oneList : ∀ vp, sys.isAllocated vp = true → vp ∉ sys.created → vp ∉ sys.leaving →
    sys.pool.inuseQueue.count vp + sys.pool.reuseQueue.count vp = 1
  /-- Whoever is in use was handed out, or is about to be. -/
  owned : sys.pool.inuseQueue.Perm (sys.owned ++ sys.configuring)
  /-- One that can be reused has suspended itself. -/
  reusable : ∀ vp, vp ∈ sys.pool.reuseQueue → 0 < sys.suspensionCount vp → vp ∉ sys.parting
  handedOut : ∀ vp, vp ∈ sys.configuring → 0 < sys.suspensionCount vp ∧ vp ∉ sys.parting

section Pool
variable {sys after : System} {actions : List Action} {action : Action}

theorem start_inv : Inv [] start where
  inuseCount := rfl
  reuseCount := rfl
  capacity := by decide
  placed _ := rfl
  claimed _ := rfl
  parting _ := le_refl _
  awake _ member := by simp [start] at member
  asleep _ member := by simp [start] at member

/-- A list with one element more or less, at any element. -/
theorem count_cons_eq (vp other : Nat) (list : List Nat) :
    (vp :: list).count other = list.count other + if vp = other then 1 else 0 := by
  rw [List.count_cons]
  simp

variable {vp : Nat}

theorem count_erase_eq {list : List Nat} (member : vp ∈ list) (other : Nat) :
    (list.erase vp).count other + (if vp = other then 1 else 0) = list.count other := by
  have positive := List.count_pos_iff.mpr member
  rw [List.count_erase]
  by_cases same : vp = other
  · subst same
    simp
    omega
  · simp [same]

section
variable (inv : Inv actions sys)
include inv

theorem reuse_inv : Inv (.reuse :: actions) (reuseVirtualProcessor sys) := by
  unfold reuseVirtualProcessor
  cases search : sys.pool.reuseQueue.find? fun vp => 0 < sys.suspensionCount vp with
  | none => exact ⟨inv.inuseCount, inv.reuseCount, inv.capacity, inv.placed, inv.claimed, inv.parting, inv.awake, inv.asleep⟩
  | some vp =>
    have member : vp ∈ sys.pool.reuseQueue := List.mem_of_find?_eq_some search
    have suspended : 0 < sys.suspensionCount vp := by simpa using List.find?_some search
    have unparted : vp ∉ sys.parting := fun parts => by
      have running := inv.awake vp parts
      omega
    have counts := inv.reuseCount
    have capacity := inv.capacity
    have positive := List.length_pos_of_mem member
    have length := List.length_erase_of_mem member
    refine ⟨?_, ?_, ?_, fun other => ?_, fun other => ?_, fun other => ?_, inv.awake, fun other member' => ?_⟩
    · simp [moveToInuse, inv.inuseCount]
    · simp only [moveToInuse]
      omega
    · simp only [moveToInuse]
      omega
    · have placed := inv.placed other
      have erased := count_erase_eq member other
      simp only [moveToInuse, count_cons_eq]
      omega
    · have claimed := inv.claimed other
      simp only [moveToInuse, count_cons_eq]
      change _ = _ + _ + (orphans actions).count other
      omega
    · have parting := inv.parting other
      have erased := count_erase_eq member other
      simp only [moveToInuse]
      by_cases same : vp = other
      · subst same
        rw [List.count_eq_zero.mpr unparted]
        exact Nat.zero_le _
      · rw [if_neg same] at erased
        omega
    · rcases member' with new | waits
      · exact inv.asleep other (Or.inl new)
      · rcases List.mem_cons.mp waits with same | before
        · rw [same]
          exact suspended
        · exact inv.asleep other (Or.inr before)

theorem Inv.absent (free : sys.isAllocated vp = false) :
    sys.pool.inuseQueue.count vp = 0 ∧ sys.pool.reuseQueue.count vp = 0 ∧ sys.created.count vp = 0 ∧
      sys.leaving.count vp = 0 := by
  have placed := inv.placed vp
  rw [free, if_neg Bool.false_ne_true] at placed
  omega

theorem create_inv {address : Option Nat} (free : ∀ vp ∈ address, sys.isAllocated vp = false) :
    Inv (.create address :: actions) (createVirtualProcessor address sys) := by
  cases address with
  | none => exact ⟨inv.inuseCount, inv.reuseCount, inv.capacity, inv.placed, inv.claimed, inv.parting, inv.awake, inv.asleep⟩
  | some vp =>
    obtain ⟨notInuse, notReuse, notCreated, notLeaving⟩ := inv.absent (free vp rfl)
    have parting := inv.parting vp
    refine ⟨inv.inuseCount, inv.reuseCount, inv.capacity, fun other => ?_, inv.claimed, inv.parting,
      fun other member => ?_, fun other member => ?_⟩
    · have placed := inv.placed other
      simp only [createVirtualProcessor, count_cons_eq, Function.update_apply]
      by_cases same : vp = other
      · subst same
        simp
        omega
      · rw [if_neg same, if_neg (Ne.symm same)]
        exact placed
    · have different : other ≠ vp := fun same => by
        have positive := List.count_pos_iff.mpr member
        rw [same] at positive
        simp only [createVirtualProcessor] at positive
        omega
      simp only [createVirtualProcessor, Function.update_of_ne different]
      exact inv.awake other member
    · simp only [createVirtualProcessor, Function.update_apply]
      by_cases same : other = vp
      · rw [if_pos same]
        exact Nat.one_pos
      · rw [if_neg same]
        refine inv.asleep other (member.imp_left fun new => ?_)
        exact (List.mem_cons.mp new).resolve_left same

theorem insert_inv (member : vp ∈ sys.created) : Inv (.insert vp :: actions) (insertVirtualProcessor vp sys) := by
  have counts := inv.inuseCount
  refine ⟨?_, inv.reuseCount, inv.capacity, fun other => ?_, fun other => ?_, inv.parting, inv.awake,
    fun other waits => ?_⟩
  · simp [insertVirtualProcessor, counts]
  · have erased := count_erase_eq member other
    refine Eq.trans ?_ (inv.placed other)
    simp only [insertVirtualProcessor, count_cons_eq]
    omega
  · have claimed := inv.claimed other
    simp only [insertVirtualProcessor, count_cons_eq]
    change _ = _ + _ + (orphans actions).count other
    omega
  · rcases waits with new | waits
    · exact inv.asleep other (Or.inl (List.mem_of_mem_erase new))
    · rcases List.mem_cons.mp waits with same | before
      · rw [same]
        exact inv.asleep vp (Or.inl member)
      · exact inv.asleep other (Or.inr before)

/-- The call returns in both cases, and the virtual processor stays in use. -/
theorem setClosure_inv {isSet : Bool} (member : vp ∈ sys.configuring)
    (taken : (setClosure vp isSet sys).state? = some after) : Inv (.setClosure vp isSet :: actions) after := by
  have suspended := inv.asleep vp (Or.inr member)
  have claimed (other : Nat) := inv.claimed other
  have erased (other : Nat) := count_erase_eq member other
  have asleep (other : Nat) (waits : other ∈ sys.created ∨ other ∈ sys.configuring.erase vp) :
      0 < sys.suspensionCount other := inv.asleep other (waits.imp_right List.mem_of_mem_erase)
  unfold setClosure at taken
  rw [if_neg (Nat.ne_of_gt suspended)] at taken
  cases isSet with
  | true =>
    rw [← Option.some.inj taken]
    refine ⟨inv.inuseCount, inv.reuseCount, inv.capacity, inv.placed, fun other => ?_, inv.parting, inv.awake, asleep⟩
    have before := claimed other
    have fewer := erased other
    simp only [count_cons_eq]
    change _ = _ + _ + (orphans actions).count other
    omega
  | false =>
    rw [← Option.some.inj taken]
    refine ⟨inv.inuseCount, inv.reuseCount, inv.capacity, inv.placed, fun other => ?_, inv.parting, inv.awake, asleep⟩
    have before := claimed other
    have fewer := erased other
    change _ = _ + _ + (vp :: orphans actions).count other
    simp only [count_cons_eq]
    omega

/-- Who is owned is neither on its way into the pool nor on its way out of it. -/
theorem Inv.owned_apart (member : vp ∈ sys.owned) :
    sys.pool.inuseQueue.count vp = 1 ∧ vp ∉ sys.created ∧ vp ∉ sys.configuring ∧ vp ∉ sys.parting := by
  have positive := List.count_pos_iff.mpr member
  have placed := inv.placed vp
  have claimed := inv.claimed vp
  have parting := inv.parting vp
  have most : (if sys.isAllocated vp = true then 1 else 0) ≤ 1 := by split <;> decide
  refine ⟨by omega, ?_, ?_, ?_⟩
  · exact List.count_eq_zero.mp (by omega)
  · exact List.count_eq_zero.mp (by omega)
  · exact List.count_eq_zero.mp (by omega)

theorem suspension_inv {count : Nat} (member : vp ∈ sys.owned) (same : orphans (action :: actions) = orphans actions) :
    Inv (action :: actions) { sys with suspensionCount := Function.update sys.suspensionCount vp count } := by
  obtain ⟨-, notCreated, notConfiguring, notParting⟩ := inv.owned_apart member
  refine ⟨inv.inuseCount, inv.reuseCount, inv.capacity, inv.placed, ?_, inv.parting, fun other parts => ?_,
    fun other waits => ?_⟩
  · rw [same]
    exact inv.claimed
  · have different : other ≠ vp := fun equal => notParting (equal ▸ parts)
    simp only [Function.update_of_ne different]
    exact inv.awake other parts
  · have different : other ≠ vp := fun equal => by
      rw [equal] at waits
      exact waits.elim notCreated notConfiguring
    simp only [Function.update_of_ne different]
    exact inv.asleep other waits

theorem suspend_inv (member : vp ∈ sys.owned)
    (taken : (suspend vp sys).state? = some after) : Inv (.suspend vp :: actions) after := by
  unfold suspend at taken
  split_ifs at taken
  · rw [← Option.some.inj taken]
    exact ⟨inv.inuseCount, inv.reuseCount, inv.capacity, inv.placed, inv.claimed, inv.parting, inv.awake, inv.asleep⟩
  · rw [← Option.some.inj taken]
    exact suspension_inv inv member rfl

theorem relinquish_inv (member : vp ∈ sys.owned)
    (running : sys.suspensionCount vp = 0) : Inv (.relinquish vp :: actions) (relinquishVirtualProcessor vp sys) := by
  obtain ⟨once, notCreated, notConfiguring, notParting⟩ := inv.owned_apart member
  have queued : vp ∈ sys.pool.inuseQueue := List.count_pos_iff.mp (by omega)
  have counts := inv.inuseCount
  have reuse := inv.reuseCount
  have length := List.length_erase_of_mem queued
  have positive := List.length_pos_of_mem queued
  have claimed (other : Nat) : (sys.pool.inuseQueue.erase vp).count other =
      (sys.owned.erase vp).count other + sys.configuring.count other + (orphans actions).count other := by
    have before := inv.claimed other
    have fewer := count_erase_eq queued other
    have unowned := count_erase_eq member other
    omega
  unfold relinquishVirtualProcessor
  dsimp only
  split_ifs with room
  · refine ⟨?_, ?_, ?_, fun other => ?_, claimed, fun other => ?_, fun other parts => ?_, inv.asleep⟩
    · dsimp only
      omega
    · simp only [List.length_cons]
      omega
    · dsimp only
      omega
    · have placed := inv.placed other
      have fewer := count_erase_eq queued other
      simp only [count_cons_eq]
      omega
    · have parting := inv.parting other
      simp only [count_cons_eq]
      omega
    · rcases List.mem_cons.mp parts with same | before
      · rw [same]
        exact running
      · exact inv.awake other before
  · refine ⟨?_, inv.reuseCount, inv.capacity, fun other => ?_, claimed, inv.parting, inv.awake, inv.asleep⟩
    · dsimp only
      omega
    · have placed := inv.placed other
      have fewer := count_erase_eq queued other
      simp only [count_cons_eq]
      omega

theorem suspendParting_inv (member : vp ∈ sys.parting)
    (taken : (suspendParting vp sys).state? = some after) : Inv (.suspendParting vp :: actions) after := by
  have running := inv.awake vp member
  have parting := inv.parting vp
  have placed := inv.placed vp
  have most : (if sys.isAllocated vp = true then 1 else 0) ≤ 1 := by split <;> decide
  simp only [suspendParting, suspend, running] at taken
  rw [← Option.some.inj taken]
  refine ⟨inv.inuseCount, inv.reuseCount, inv.capacity, inv.placed, inv.claimed, fun other => ?_,
    fun other parts => ?_, fun other waits => ?_⟩
  · have before := inv.parting other
    have fewer := count_erase_eq member other
    dsimp only
    omega
  · have different : other ≠ vp := fun same => by
      have left : 0 < (sys.parting.erase vp).count other := List.count_pos_iff.mpr parts
      have fewer := count_erase_eq member vp
      rw [same] at left
      rw [if_pos rfl] at fewer
      omega
    simp only [Function.update_of_ne different]
    exact inv.awake other (List.mem_of_mem_erase parts)
  · have suspended := inv.asleep other waits
    have different : other ≠ vp := fun same => by
      rw [same] at suspended
      omega
    simp only [Function.update_of_ne different]
    exact suspended

theorem resume_inv {force : Bool} (member : vp ∈ sys.owned) :
    Inv (.resume vp force :: actions) (resume vp force sys) :=
  suspension_inv inv member rfl

theorem terminate_inv (member : vp ∈ sys.leaving) : Inv (.terminate vp :: actions) (terminate vp sys) := by
  refine ⟨inv.inuseCount, inv.reuseCount, inv.capacity, fun other => ?_, inv.claimed, inv.parting, inv.awake,
    inv.asleep⟩
  have placed := inv.placed other
  have fewer := count_erase_eq member other
  simp only [terminate, Function.update_apply]
  by_cases same : vp = other
  · subst same
    rw [if_pos rfl] at fewer ⊢
    rw [if_neg Bool.false_ne_true]
    have most : (if sys.isAllocated vp = true then 1 else 0) ≤ 1 := by split <;> decide
    omega
  · rw [if_neg same] at fewer
    rw [if_neg (Ne.symm same)]
    omega

theorem step_inv (step : Step sys action after) : Inv (action :: actions) after := by
  obtain ⟨enabled, taken⟩ := step
  cases action with
  | reuse => exact Option.some.inj taken ▸ reuse_inv inv
  | create address => exact Option.some.inj taken ▸ create_inv inv enabled.2
  | insert vp => exact Option.some.inj taken ▸ insert_inv inv enabled
  | setClosure vp isSet => exact setClosure_inv inv enabled taken
  | suspend vp => exact suspend_inv inv enabled taken
  | resume vp force => exact Option.some.inj taken ▸ resume_inv inv enabled
  | relinquish vp => exact Option.some.inj taken ▸ relinquish_inv inv enabled.1 enabled.2
  | suspendParting vp => exact suspendParting_inv inv enabled taken
  | terminate vp => exact Option.some.inj taken ▸ terminate_inv inv enabled

end

theorem run_inv (run : Runs Step start actions sys) : Inv actions sys :=
  run.history Inv start_inv fun _ _ _ _ _ inv step => step_inv inv step

/-! ## No virtual processor is lost -/

theorem mem_orphans : vp ∈ orphans actions ↔ Action.setClosure vp false ∈ actions := by
  unfold orphans
  rw [List.mem_filterMap]
  constructor
  · rintro ⟨action, member, lost⟩
    cases action with
    | setClosure other isSet =>
      cases isSet with
      | true => simp at lost
      | false => exact Option.some.inj lost ▸ member
    | _ => simp at lost
  · intro member
    exact ⟨_, member, rfl⟩

/-- All but the owners is promised by every run. -/
theorem Inv.sound (inv : Inv actions sys) (owned : sys.pool.inuseQueue.Perm (sys.owned ++ sys.configuring)) :
    Sound sys where
  inuseCount := inv.inuseCount
  reuseCount := inv.reuseCount
  capacity := inv.capacity
  oneList vp allocated notCreated notLeaving := by
    have placed := inv.placed vp
    rw [if_pos allocated, List.count_eq_zero.mpr notCreated, List.count_eq_zero.mpr notLeaving] at placed
    exact placed
  owned := owned
  reusable vp _ suspended parts := Nat.ne_of_gt suspended (inv.awake vp parts)
  handedOut vp waits := by
    have suspended := inv.asleep vp (Or.inr waits)
    exact ⟨suspended, fun parts => Nat.ne_of_gt suspended (inv.awake vp parts)⟩

/-- In every run of any number of calls, the pool keeps its promises until the closure of a virtual processor
cannot be set, and from then on it does not. -/
theorem sound_iff (run : Runs Step start actions sys) :
    Sound sys ↔ ∀ vp, Action.setClosure vp false ∉ actions := by
  have inv := run_inv run
  constructor
  · intro sound vp lost
    have claimed := inv.claimed vp
    have owned := sound.owned.count_eq vp
    rw [List.count_append] at owned
    have orphan := List.count_pos_iff.mpr (mem_orphans.mpr lost)
    omega
  · intro kept
    refine inv.sound (List.perm_iff_count.mpr fun vp => ?_)
    have claimed := inv.claimed vp
    have none : (orphans actions).count vp = 0 :=
      List.count_eq_zero.mpr fun lost => kept vp (mem_orphans.mp lost)
    rw [List.count_append]
    omega

/-! A virtual processor is created, put in use, configured and given back; the second acquisition reuses it. -/

def reusing : List Action :=
  [.reuse, .create (some 7), .insert 7, .setClosure 7 true, .resume 7 false, .relinquish 7, .suspendParting 7, .reuse]

def failing : List Action := reusing ++ [.setClosure 7 false]

theorem sound_iff_reusing : ∃ sys, Runs Step start reusing.reverse sys ∧ Sound sys := by
  have performs : (performAll performStep reusing start).isSome = true := by decide
  obtain ⟨sys, reaches⟩ := Option.isSome_iff_exists.mp performs
  have run := Runs.performAll_labels performStep_step .nil reaches
  exact ⟨sys, run, (sound_iff run).mpr fun vp => by simp [reusing]⟩

/-- The caller got an error and has nothing to give back, but the virtual processor stays in use. -/
theorem failing_unsound : ∃ sys, Runs Step start failing.reverse sys ∧
    sys.pool.inuseQueue = [7] ∧ sys.pool.inuseCount = 1 ∧ sys.owned = [] ∧ sys.configuring = [] ∧ ¬ Sound sys := by
  have performs : (performAll performStep failing start).map (fun sys =>
      (sys.pool.inuseQueue, sys.pool.inuseCount, sys.owned, sys.configuring)) = some ([7], 1, [], []) := by
    decide
  obtain ⟨sys, reaches, ends⟩ := Option.map_eq_some_iff.mp performs
  simp only [Prod.mk.injEq] at ends
  obtain ⟨inuse, count, owned, configuring⟩ := ends
  have run := Runs.performAll_labels performStep_step .nil reaches
  refine ⟨sys, run, inuse, count, owned, configuring, fun sound => ?_⟩
  have shared := sound.owned.length_eq
  rw [inuse, owned, configuring] at shared
  exact absurd shared (by decide)

end Pool

end VirtualProcessorPool

end Apollo.Dispatcher
