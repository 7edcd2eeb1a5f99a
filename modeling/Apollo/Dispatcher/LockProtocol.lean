import Apollo.Dispatcher.Lock

/-!
# The lock protocol

Whoever has set the bit is the only one, and only its unlock gets past the owner
check.  A wait is entered with preemption masked from the last look at the lock,
and a condition variable drops its lock and enters its queue without a context
switch in between, because cooperation is off while the lock is dropped.
-/

set_option autoImplicit false

namespace Apollo.Dispatcher.Lock

open Lib

/-! ## What a place requires -/

def Place.needsLock : Place → Bool
  | .lockOwner _ | .unlockClear _ | .unlockMask _ | .unlockRelease _ _ => true
  | _ => false

def Place.isCleared : Place → Bool
  | .unlockMask _ | .unlockRelease _ _ => true
  | _ => false

/-- The bit has been cleared, the waiters have not been woken up. -/
def Place.isWaking : Place → Bool
  | .unlockWake _ _ => true
  | _ => false

def LockCaller.isOther : LockCaller → Bool
  | .other => true
  | .wait _ _ => false

def UnlockCaller.isOther : UnlockCaller → Bool
  | .other => true
  | .wait _ _ _ => false
  | .wake _ _ _ _ => false

/-- Between `DisableCooperation` and `RestoreCooperation`. -/
def Place.isSilent : Place → Bool
  | .unlock caller | .unlockClear caller | .unlockMask caller => !caller.isOther
  | .unlockRelease caller _ | .unlockWake caller _ | .unlockRestore caller _ => !caller.isOther
  | .waitRestore _ _ _ | .wakeRestore _ _ _ _ => true
  | _ => false

/-- The CPU does not leave a virtual processor here. -/
def Place.isCritical : Place → Bool
  | .lock caller | .lockMask caller | .lockOwner caller => !caller.isOther
  | .lockRetry _ _ | .unlockRelease _ _ | .unlockWake _ _ => true
  | .unlock caller | .unlockClear caller | .unlockMask caller => !caller.isOther
  | .unlockRestore caller _ => !caller.isOther
  | .waitCooperation _ _ | .waitRestore _ _ _ | .waitOn _ _ | .waitReturn _ _ => true
  | .wakeCooperation _ _ _ _ | .wakeRestore _ _ _ _ | .wakeSome _ _ _ => true
  | _ => false

/-- Preemption is masked here; the CPU may have left at a context switch. -/
def Place.isMasked : Place → Bool
  | .lockWaiting _ _ | .lockWoken _ _ _ | .waiting _ _ | .waitWoken _ _ _ => true
  | place => place.isCritical

def Place.restoresMask : Place → Bool
  | .lockRetry caller d7 | .lockWaiting caller d7 | .lockWoken caller d7 _ => caller.isOther || d7
  | .unlockRelease caller d7 | .unlockWake caller d7 | .unlockRestore caller d7 => caller.isOther || d7
  | _ => true

structure Place.Fits (place : Place) (holds isMasked : Bool) (ownerVpid : Nat) : Prop where
  needsLock : place.needsLock = true → holds = true
  isCleared : place.isCleared = true → ownerVpid = 0
  isMasked : place.isMasked = true → isMasked = true
  restoresMask : place.restoresMask = true

def System.IsQueued (sys : System) (vpid : Nat) : Place → Prop
  | .lockWaiting _ _ => sys.lockQueue.Has vpid
  | .waiting condVar _ => (sys.condQueues condVar).Has vpid
  | _ => True

structure System.Protocol (sys : System) : Prop where
  value : ∀ vpid, sys.holds vpid = true → sys.value = true
  unique : ∀ vpid other, sys.holds vpid = true → sys.holds other = true → vpid = other
  owner : sys.ownerVpid ≠ 0 → sys.holds sys.ownerVpid = true
  fits : ∀ vpid, (sys.places vpid).Fits (sys.holds vpid) (sys.isMasked vpid) sys.ownerVpid
  switched : ∀ vpid, vpid ≠ sys.running → (sys.places vpid).isCritical = false
  silent : (sys.places sys.running).isSilent = true → sys.isCooperationEnabled = false
  running : sys.running ≠ 0
  empty : sys.value = false → (sys.places sys.running).isWaking = false → sys.lockQueue = []
  queued : ∀ vpid, sys.IsQueued vpid (sys.places vpid)

section Places
variable {place : Place}

theorem isCritical_of_isSilent (silent : place.isSilent = true) : place.isCritical = true := by
  cases place <;> first | exact silent | rfl | simp [Place.isSilent] at silent

theorem isMasked_of_isCritical (critical : place.isCritical = true) : place.isMasked = true := by
  cases place <;> first | exact critical | rfl

theorem isCritical_of_isWaking (waking : place.isWaking = true) : place.isCritical = true := by
  cases place <;> first | rfl | simp [Place.isWaking] at waking

theorem needsLock_of_isCleared (cleared : place.isCleared = true) : place.needsLock = true := by
  cases place <;> first | rfl | simp [Place.isCleared] at cleared

end Places

theorem Place.Fits.free {place : Place} {holds isMasked : Bool} {ownerVpid : Nat} (needsLock : place.needsLock = false)
    (masks : place.isMasked = true → isMasked = true) (restoresMask : place.restoresMask = true) :
    place.Fits holds isMasked ownerVpid := by
  refine ⟨?_, ?_, masks, restoresMask⟩
  · intro needs
    rw [needsLock] at needs
    simp at needs
  · intro cleared
    rw [needsLock_of_isCleared cleared] at needsLock
    simp at needsLock

section WokenUp
variable {place : Place} {reason : WakeUpReason} {queue : Queue} {holds masked : Bool} {ownerVpid : Nat}

theorem fits_wokenFrom (fits : place.Fits holds masked ownerVpid) :
    (place.wokenFrom queue reason).Fits holds masked ownerVpid := by
  unfold Place.wokenFrom
  split_ifs
  · cases place with
    | lockWaiting caller d7 => exact .free rfl (fun _ => fits.isMasked rfl) fits.restoresMask
    | waiting condVar sps => exact .free rfl (fun _ => fits.isMasked rfl) rfl
    | _ => exact fits
  · exact fits

theorem marks_wokenFrom : (place.wokenFrom queue reason).isCritical = place.isCritical ∧
    (place.wokenFrom queue reason).isSilent = place.isSilent ∧
    (place.wokenFrom queue reason).isWaking = place.isWaking := by
  unfold Place.wokenFrom
  split_ifs
  · cases place <;> exact ⟨rfl, rfl, rfl⟩
  · exact ⟨rfl, rfl, rfl⟩

end WokenUp

section Moves
variable {sys : System} {place : Place}

theorem places_goto_running : (sys.goto place).places (sys.goto place).running = place :=
  Function.update_self ..

theorem mask_self : sys.mask (sys.isMasked sys.running) = sys := by
  unfold System.mask
  rw [Function.update_eq_self]

variable (protocol : sys.Protocol)
include protocol

/-- The running virtual processor goes on at `place`; the others stay where they are. -/
theorem System.Protocol.step {after : System}
    (places : after.places = Function.update sys.places sys.running place) (running : after.running = sys.running)
    (value : ∀ vpid, after.holds vpid = true → after.value = true)
    (unique : ∀ vpid other, after.holds vpid = true → after.holds other = true → vpid = other)
    (owner : after.ownerVpid ≠ 0 → after.holds after.ownerVpid = true)
    (fits : place.Fits (after.holds sys.running) (after.isMasked sys.running) after.ownerVpid)
    (others : ∀ vpid, vpid ≠ sys.running →
      (sys.places vpid).Fits (after.holds vpid) (after.isMasked vpid) after.ownerVpid)
    (silent : place.isSilent = true → after.isCooperationEnabled = false)
    (empty : after.value = false → place.isWaking = false → after.lockQueue = [])
    (queued : after.IsQueued sys.running place)
    (queues : ∀ vpid, sys.IsQueued vpid (sys.places vpid) → after.IsQueued vpid (sys.places vpid)) :
    after.Protocol := by
  have here : after.places after.running = place := by rw [places, running, Function.update_self]
  have there : ∀ vpid, vpid ≠ sys.running → after.places vpid = sys.places vpid := by
    intro vpid other
    rw [places, Function.update_of_ne other]
  refine ⟨value, unique, owner, ?_, ?_, ?_, ?_, ?_, ?_⟩
  · intro vpid
    by_cases same : vpid = sys.running
    · rw [same, ← running, here, running]
      exact fits
    · rw [there vpid same]
      exact others vpid same
  · intro vpid other
    rw [running] at other
    rw [there vpid other]
    exact protocol.switched vpid other
  · rw [here]
    exact silent
  · rw [running]
    exact protocol.running
  · rw [here]
    exact empty
  · intro vpid
    by_cases same : vpid = sys.running
    · rw [same, ← running, here, running]
      exact queued
    · rw [there vpid same]
      exact queues vpid (protocol.queued vpid)

/-- Maybe with another mask or another cooperation state. -/
theorem System.Protocol.move {masked cooperation : Bool}
    (fits : place.Fits (sys.holds sys.running) masked sys.ownerVpid)
    (silent : place.isSilent = true → cooperation = false) (queued : sys.IsQueued sys.running place)
    (empty : sys.value = false → sys.lockQueue = []) :
    System.Protocol { sys with
      isMasked := Function.update sys.isMasked sys.running masked
      isCooperationEnabled := cooperation
      places := Function.update sys.places sys.running place } := by
  refine protocol.step rfl rfl protocol.value protocol.unique protocol.owner ?_ ?_ silent ?_ queued ?_
  · simp only [Function.update_self]
    exact fits
  · intro vpid other
    simp only [Function.update_of_ne other]
    exact protocol.fits vpid
  · intro free _
    exact empty free
  · intro vpid held
    exact held

variable {caller : LockCaller} {d7 : Bool}

/-- `bset` finds a clear bit, so nobody has the lock. -/
theorem System.Protocol.take {masked : Bool}
    (free : sys.value = false) (mask : caller.isOther = false → masked = true) :
    ((sys.take.mask masked).goto (.lockOwner caller)).Protocol := by
  have nobody : ∀ vpid, sys.holds vpid ≠ true := by
    intro vpid holds
    have set := protocol.value vpid holds
    rw [free] at set
    simp at set
  have own : ∀ vpid, Function.update sys.holds sys.running true vpid = true → vpid = sys.running := by
    intro vpid holds
    by_contra other
    rw [Function.update_of_ne other] at holds
    exact nobody vpid holds
  refine protocol.step rfl rfl (fun _ _ => rfl) ?_ ?_ ?_ ?_ (fun silent => absurd silent (by simp [Place.isSilent]))
    (fun clear => absurd clear (by simp [System.goto, System.mask, System.take])) trivial (fun _ held => held)
  · intro vpid other holds holds'
    rw [own vpid holds, own other holds']
  · intro owned
    exact absurd (protocol.owner owned) (nobody _)
  · simp only [System.goto, System.mask, System.take, Function.update_self]
    refine ⟨fun _ => rfl, by simp [Place.isCleared], ?_, rfl⟩
    intro masks
    exact mask (by simpa [Place.isMasked, Place.isCritical] using masks)
  · intro vpid other
    simp only [System.goto, System.mask, System.take, Function.update_of_ne other]
    exact protocol.fits vpid

/-- The owner changes while the running virtual processor has the lock. -/
theorem System.Protocol.others (holds : sys.holds sys.running = true) {ownerVpid vpid : Nat}
    (other : vpid ≠ sys.running) : (sys.places vpid).Fits (sys.holds vpid) (sys.isMasked vpid) ownerVpid := by
  have before := protocol.fits vpid
  refine ⟨before.needsLock, ?_, before.isMasked, before.restoresMask⟩
  intro cleared
  exact absurd (protocol.unique vpid sys.running (before.needsLock (needsLock_of_isCleared cleared)) holds) other

/-- Nothing is free while the running virtual processor has the lock. -/
theorem System.Protocol.set_of_holds (holds : sys.holds sys.running = true) : sys.value ≠ false := by
  rw [protocol.value sys.running holds]
  simp

theorem System.Protocol.own (here : sys.places sys.running = .lockOwner caller) :
    (System.goto { sys with ownerVpid := sys.running } caller.returned).Protocol := by
  have before := protocol.fits sys.running
  rw [here] at before
  have holds := before.needsLock rfl
  refine protocol.step rfl rfl protocol.value protocol.unique (fun _ => holds) ?_
    (fun _ => protocol.others holds) ?_ (fun free => absurd free (protocol.set_of_holds holds)) ?_
    (fun _ held => held)
  · cases caller with
    | other => exact ⟨by simp [LockCaller.returned, Place.needsLock], by simp [LockCaller.returned, Place.isCleared],
        by simp [LockCaller.returned, Place.isMasked, Place.isCritical], rfl⟩
    | wait sps error => exact ⟨by simp [LockCaller.returned, Place.needsLock],
        by simp [LockCaller.returned, Place.isCleared], fun _ => before.isMasked rfl, rfl⟩
  · cases caller <;> simp [LockCaller.returned, Place.isSilent]
  · cases caller <;> trivial

theorem System.Protocol.disown {caller : UnlockCaller} (here : sys.places sys.running = .unlockClear caller) :
    (System.goto { sys with ownerVpid := 0 } (.unlockMask caller)).Protocol := by
  have before := protocol.fits sys.running
  have silent := protocol.silent
  rw [here] at before silent
  have holds := before.needsLock rfl
  refine protocol.step rfl rfl protocol.value protocol.unique (fun owned => absurd rfl owned) ?_
    (fun _ => protocol.others holds) silent (fun free => absurd free (protocol.set_of_holds holds)) trivial
    (fun _ held => held)
  exact ⟨fun _ => holds, fun _ => rfl, before.isMasked, rfl⟩

theorem System.Protocol.release {caller : UnlockCaller} (here : sys.places sys.running = .unlockRelease caller d7) :
    (sys.release.goto (.unlockWake caller d7)).Protocol := by
  have before := protocol.fits sys.running
  have silent := protocol.silent
  rw [here] at before silent
  have nobody : ∀ vpid, Function.update sys.holds sys.running false vpid ≠ true := by
    intro vpid holds
    by_cases same : vpid = sys.running
    · rw [same, Function.update_self] at holds
      simp at holds
    · rw [Function.update_of_ne same] at holds
      exact same (protocol.unique vpid sys.running holds (before.needsLock rfl))
  refine protocol.step rfl rfl (fun vpid holds => absurd holds (nobody vpid))
    (fun vpid _ holds => absurd holds (nobody vpid)) (fun owned => absurd (before.isCleared rfl) owned) ?_ ?_ silent
    (fun _ waking => absurd waking (by simp [Place.isWaking])) trivial (fun _ held => held)
  · exact ⟨by simp [Place.needsLock], by simp [Place.isCleared], before.isMasked, before.restoresMask⟩
  · intro vpid other
    simp only [System.goto, System.release, Function.update_of_ne other]
    exact protocol.fits vpid

/-- The bit is set, and the running virtual processor joins the queue of the lock. -/
theorem System.Protocol.enterLock
    (here : sys.places sys.running = .lockRetry caller d7) (set : sys.value = true) (waiter : Waiter)
    (own : waiter.vpid = sys.running) :
    (System.goto { sys with lockQueue := sys.lockQueue.enter waiter } (.lockWaiting caller d7)).Protocol := by
  have before := protocol.fits sys.running
  rw [here] at before
  refine protocol.step rfl rfl protocol.value protocol.unique protocol.owner ?_ (fun vpid _ => protocol.fits vpid)
    (fun silent => absurd silent (by simp [Place.isSilent])) ?_ ?_ ?_
  · exact ⟨by simp [Place.needsLock], by simp [Place.isCleared], fun _ => before.isMasked rfl, before.restoresMask⟩
  · intro free
    exact absurd (free.symm.trans set) (by simp)
  · exact WaitQueue.has_enter.mpr (.inl own.symm)
  · intro vpid
    cases sys.places vpid with
    | lockWaiting caller' d7' => exact fun held => WaitQueue.has_enter.mpr (.inr held)
    | _ => exact id

/-- The running virtual processor joins the queue of a condition variable. -/
theorem System.Protocol.enterCond {condVar : Nat} {sps : Bool}
    (here : sys.places sys.running = .waitOn condVar sps) (waiter : Waiter) (own : waiter.vpid = sys.running) :
    (System.goto { sys with
      condQueues := Function.update sys.condQueues condVar ((sys.condQueues condVar).enter waiter) }
      (.waiting condVar sps)).Protocol := by
  have before := protocol.fits sys.running
  have empty := protocol.empty
  rw [here] at before empty
  refine protocol.step rfl rfl protocol.value protocol.unique protocol.owner ?_ (fun vpid _ => protocol.fits vpid)
    (fun silent => absurd silent (by simp [Place.isSilent])) (fun free _ => empty free rfl) ?_ ?_
  · exact ⟨by simp [Place.needsLock], by simp [Place.isCleared], fun _ => before.isMasked rfl, rfl⟩
  · change WaitQueue.Has (Function.update sys.condQueues condVar _ condVar) sys.running
    rw [Function.update_self, WaitQueue.has_enter]
    exact .inl own.symm
  · intro vpid
    cases sys.places vpid with
    | waiting other sps' =>
      intro held
      change WaitQueue.Has (Function.update sys.condQueues condVar _ other) vpid
      by_cases same : other = condVar
      · rw [same] at held ⊢
        rw [Function.update_self, WaitQueue.has_enter]
        exact .inr held
      · rw [Function.update_of_ne same]
        exact held
    | _ => exact id

theorem System.Protocol.switchTo {after : System} {next : Nat}
    (leaves : (sys.places sys.running).isCritical = false) (switches : sys.switchTo next = some after) :
    after.Protocol := by
  obtain ⟨ready, moved⟩ := Option.ite_none_right_eq_some.mp switches
  rw [← Option.some.inj moved]
  unfold System.isReady at ready
  have others : ∀ vpid, (sys.places vpid).isCritical = false := by
    intro vpid
    by_cases same : vpid = sys.running
    · rw [same]
      exact leaves
    · exact protocol.switched vpid same
  refine ⟨protocol.value, protocol.unique, protocol.owner, protocol.fits, fun vpid _ => others vpid, ?_, ?_, ?_,
    protocol.queued⟩
  · intro silent
    have critical := isCritical_of_isSilent silent
    rw [others next] at critical
    simp at critical
  · intro zero
    simp [show next = 0 from zero] at ready
  · intro free _
    apply protocol.empty free
    by_contra waking
    rw [isCritical_of_isWaking (by simpa using waking)] at leaves
    simp at leaves

theorem System.Protocol.maybeSwitchTo {after : System} {woken : List Nat}
    {next : Option Nat} (leaves : sys.isCooperationEnabled = true → (sys.places sys.running).isCritical = false)
    (switches : sys.maybeSwitchTo woken next = some after) : after.Protocol := by
  cases next with
  | none =>
    rw [← Option.some.inj switches]
    exact protocol
  | some next =>
    obtain ⟨enabled, moved⟩ := Option.ite_none_right_eq_some.mp switches
    rw [Bool.and_eq_true] at enabled
    exact protocol.switchTo (leaves enabled.1) moved

section WakeUps
variable {reason : WakeUpReason} {queue : Queue}

/-- Some virtual processors are woken up, and whoever was queued and is not woken up is queued still. -/
theorem System.Protocol.wakeUp {after : System} {woken : List Nat}
    (places : after.places = wake sys.places woken (Place.wokenFrom queue reason)) (running : after.running = sys.running)
    (value : after.value = sys.value) (holds : after.holds = sys.holds) (owner : after.ownerVpid = sys.ownerVpid)
    (masked : after.isMasked = sys.isMasked) (cooperation : after.isCooperationEnabled = sys.isCooperationEnabled)
    (empty : sys.lockQueue = [] → after.lockQueue = [])
    (queues : ∀ vpid, vpid ∉ woken ∨ (sys.places vpid).waitingOn ≠ some queue →
      sys.IsQueued vpid (sys.places vpid) → after.IsQueued vpid (sys.places vpid)) : after.Protocol := by
  have either : ∀ vpid, after.places vpid = sys.places vpid ∧ vpid ∉ woken ∨
      after.places vpid = (sys.places vpid).wokenFrom queue reason := by
    intro vpid
    rw [places]
    unfold wake
    by_cases up : vpid ∈ woken
    · rw [if_pos up]
      exact .inr rfl
    · rw [if_neg up]
      exact .inl ⟨rfl, up⟩
  refine ⟨?_, ?_, ?_, ?_, ?_, ?_, ?_, ?_, ?_⟩
  · rw [holds, value]
    exact protocol.value
  · rw [holds]
    exact protocol.unique
  · rw [owner, holds]
    exact protocol.owner
  · intro vpid
    rw [holds, masked, owner]
    rcases either vpid with ⟨same, -⟩ | up
    · rw [same]
      exact protocol.fits vpid
    · rw [up]
      exact fits_wokenFrom (protocol.fits vpid)
  · intro vpid other
    rw [running] at other
    rcases either vpid with ⟨same, -⟩ | up
    · rw [same]
      exact protocol.switched vpid other
    · rw [up, marks_wokenFrom.1]
      exact protocol.switched vpid other
  · rw [running, cooperation]
    rcases either sys.running with ⟨same, -⟩ | up
    · rw [same]
      exact protocol.silent
    · rw [up, marks_wokenFrom.2.1]
      exact protocol.silent
  · rw [running]
    exact protocol.running
  · rw [value, running]
    intro free waking
    apply empty
    apply protocol.empty free
    rcases either sys.running with ⟨same, -⟩ | up
    · rw [same] at waking
      exact waking
    · rw [up, marks_wokenFrom.2.2] at waking
      exact waking
  · intro vpid
    rcases either vpid with ⟨same, stays⟩ | up
    · rw [same]
      exact queues vpid (.inl stays) (protocol.queued vpid)
    · rw [up]
      unfold Place.wokenFrom
      split_ifs with here
      · cases sys.places vpid with
        | _ => trivial
      · exact queues vpid (.inr here) (protocol.queued vpid)

theorem System.Protocol.wakeLock {count : Option Nat} :
    (sys.wakeLock reason (sys.lockQueue.wakeUpSome reason count)).Protocol := by
  refine protocol.wakeUp rfl rfl rfl rfl rfl rfl rfl ?_ ?_
  · intro none
    rw [none]
    rfl
  · intro vpid stays
    cases place : sys.places vpid with
    | lockWaiting caller d7 =>
      rw [place] at stays
      exact fun held => (WaitQueue.has_wakeUpSome held).resolve_left (stays.resolve_right (not_not.mpr rfl))
    | _ => exact id

theorem System.Protocol.wakeCond {condVar : Nat} {woken : List Nat × WaitQueue}
    (complete : ∀ vpid, (sys.condQueues condVar).Has vpid → vpid ∈ woken.1 ∨ WaitQueue.Has woken.2 vpid) :
    (sys.wakeCond condVar reason woken).Protocol := by
  refine protocol.wakeUp rfl rfl rfl rfl rfl rfl rfl id ?_
  intro vpid stays
  cases place : sys.places vpid with
  | waiting other sps =>
    rw [place] at stays
    intro held
    change WaitQueue.Has (Function.update sys.condQueues condVar _ other) vpid
    by_cases same : other = condVar
    · rw [same] at held ⊢
      rw [Function.update_self]
      exact (complete vpid held).resolve_left (stays.resolve_right (not_not.mpr (congrArg _ (congrArg Queue.cond same))))
    · rw [Function.update_of_ne same]
      exact held
  | _ => exact id

end WakeUps

theorem System.Protocol.moveFree {masked : Bool} (needsLock : place.needsLock = false)
    (masks : place.isMasked = false) (restores : place.restoresMask = true)
    (empty : sys.value = false → sys.lockQueue = []) : ((sys.mask masked).goto place).Protocol := by
  have calm : place.isCritical = false := by
    by_contra critical
    rw [isMasked_of_isCritical (by simpa using critical)] at masks
    simp at masks
  refine protocol.move (.free needsLock ?_ restores) ?_ ?_ empty
  · intro masked
    rw [masks] at masked
    simp at masked
  · intro silent
    rw [isCritical_of_isSilent silent] at calm
    simp at calm
  · cases place with
    | lockWaiting caller d7 => simp [Place.isMasked] at masks
    | waiting condVar sps => simp [Place.isMasked] at masks
    | _ => trivial

theorem System.Protocol.moveMasked {cooperation : Bool} (needsLock : place.needsLock = false)
    (awake : place.isAsleep = false) (restores : place.restoresMask = true) (talks : place.isSilent = false)
    (empty : sys.value = false → sys.lockQueue = []) :
    System.Protocol { sys with
      isMasked := Function.update sys.isMasked sys.running true
      isCooperationEnabled := cooperation
      places := Function.update sys.places sys.running place } := by
  refine protocol.move (.free needsLock (fun _ => rfl) restores) ?_ ?_ empty
  · intro silent
    rw [talks] at silent
    simp at silent
  · cases place with
    | lockWaiting caller d7 => simp [Place.isAsleep, Place.waitingOn] at awake
    | waiting condVar sps => simp [Place.isAsleep, Place.waitingOn] at awake
    | _ => trivial

theorem System.Protocol.lockFails {caller : LockCaller} {d7 : Bool} {error : Errno}
    (restores : (caller.isOther || d7) = true) (empty : sys.value = false → sys.lockQueue = []) :
    (sys.lockFails caller d7 error).Protocol := by
  unfold System.lockFails
  split_ifs
  · cases caller with
    | other => exact protocol.moveFree rfl rfl rfl empty
    | wait sps waitError =>
      rw [show d7 = true from restores]
      exact protocol.moveMasked rfl rfl rfl rfl empty
  · rw [← @mask_self sys]
    exact protocol.moveFree rfl rfl rfl empty

/-- The places behind a call of `Lock_Unlock`. -/
theorem System.Protocol.unlockReturns {caller : UnlockCaller} {result : Result}
    {masked : Bool} (restores : (caller.isOther || masked) = true)
    (silent : (!caller.isOther) = true → sys.isCooperationEnabled = false)
    (empty : sys.value = false → sys.lockQueue = []) :
    ((sys.mask masked).goto (caller.returned result)).Protocol := by
  cases caller with
  | other => exact protocol.moveFree rfl rfl rfl empty
  | wait condVar sps scs =>
    exact protocol.move (.free rfl (fun _ => restores) rfl) (fun _ => silent rfl) trivial empty
  | wake condVar broadcast sps scs =>
    exact protocol.move (.free rfl (fun _ => restores) rfl) (fun _ => silent rfl) trivial empty

/-! ### One instruction -/

theorem System.Protocol.here (here : sys.places sys.running = place) :
    place.Fits (sys.holds sys.running) (sys.isMasked sys.running) sys.ownerVpid ∧
    (place.isSilent = true → sys.isCooperationEnabled = false) ∧
    (sys.value = false → place.isWaking = false → sys.lockQueue = []) :=
  here ▸ ⟨protocol.fits sys.running, protocol.silent, protocol.empty⟩

section Instructions
variable {after : System} {isPast : Bool} {effectivePriority : Nat} {next : Option Nat}
  (moves : sys.advance isPast effectivePriority next = some after)
include moves

theorem System.Protocol.tryLock (here : sys.places sys.running = .tryLock) : after.Protocol := by
  obtain ⟨-, -, empty⟩ := protocol.here here
  rw [System.advance, here] at moves
  dsimp only at moves
  split_ifs at moves with set
  · rw [← Option.some.inj moves, ← @mask_self sys]
    exact protocol.moveFree rfl rfl rfl fun free => empty free rfl
  · rw [← Option.some.inj moves, ← @mask_self sys.take]
    exact protocol.take (by simpa using set) (by simp [LockCaller.isOther])

theorem System.Protocol.lock {caller : LockCaller} (here : sys.places sys.running = .lock caller) : after.Protocol := by
  obtain ⟨fits, -, empty⟩ := protocol.here here
  rw [System.advance, here] at moves
  dsimp only at moves
  split_ifs at moves with set
  · rw [← Option.some.inj moves, ← @mask_self sys]
    exact protocol.move (.free rfl fits.isMasked rfl) (fun silent => absurd silent (by simp [Place.isSilent])) trivial
      fun free => empty free rfl
  · rw [← Option.some.inj moves, ← @mask_self sys.take]
    apply protocol.take (by simpa using set)
    intro waits
    exact fits.isMasked (by simp [Place.isMasked, Place.isCritical, waits])

theorem System.Protocol.lockRetry {caller : LockCaller} {d7 : Bool}
    (here : sys.places sys.running = .lockRetry caller d7) : after.Protocol := by
  obtain ⟨fits, -, empty⟩ := protocol.here here
  rw [System.advance, here] at moves
  dsimp only at moves
  split_ifs at moves with set
  · unfold WaitQueue.waitOn at moves
    split_ifs at moves
    · rw [← Option.some.inj moves]
      exact protocol.lockFails fits.restoresMask fun free => empty free rfl
    · rw [← Option.some.inj moves]
      exact protocol.lockFails fits.restoresMask fun free => empty free rfl
    · obtain ⟨other, -, switches⟩ := Option.bind_eq_some_iff.mp moves
      refine (protocol.enterLock here set _ rfl).switchTo ?_ switches
      rw [places_goto_running]
      rfl
  · rw [← Option.some.inj moves]
    apply protocol.take (by simpa using set)
    intro waits
    have restores := fits.restoresMask
    simp only [Place.restoresMask, waits, Bool.false_or] at restores
    exact restores

theorem System.Protocol.lockWoken {caller : LockCaller} {d7 : Bool} {reason : WakeUpReason}
    (here : sys.places sys.running = .lockWoken caller d7 reason) : after.Protocol := by
  obtain ⟨fits, -, empty⟩ := protocol.here here
  rw [System.advance, here] at moves
  dsimp only at moves
  split at moves
  · rw [← Option.some.inj moves]
    exact protocol.lockFails fits.restoresMask fun free => empty free rfl
  · rw [← Option.some.inj moves, ← @mask_self sys, fits.isMasked rfl]
    exact protocol.moveMasked rfl rfl fits.restoresMask rfl fun free => empty free rfl

theorem System.Protocol.unlock {caller : UnlockCaller}
    (here : sys.places sys.running = .unlock caller) : after.Protocol := by
  obtain ⟨fits, silent, empty⟩ := protocol.here here
  rw [System.advance, here] at moves
  dsimp only at moves
  split_ifs at moves with own
  · rw [← Option.some.inj moves, ← @mask_self sys]
    refine protocol.move ⟨?_, by simp [Place.isCleared], fits.isMasked, rfl⟩ silent trivial fun free => empty free rfl
    intro _
    have holds := protocol.owner (by rw [own]; exact protocol.running)
    rw [own] at holds
    exact holds
  · rw [← Option.some.inj moves, ← @mask_self sys]
    exact protocol.moveFree rfl rfl rfl fun free => empty free rfl
  · rw [← Option.some.inj moves]
    nth_rewrite 1 [← @mask_self sys]
    refine protocol.unlockReturns ?_ silent fun free => empty free rfl
    cases other : caller.isOther with
    | true => rfl
    | false => exact fits.isMasked (by simp [Place.isMasked, Place.isCritical, other])

theorem System.Protocol.unlockMask {caller : UnlockCaller}
    (here : sys.places sys.running = .unlockMask caller) : after.Protocol := by
  obtain ⟨fits, silent, empty⟩ := protocol.here here
  rw [System.advance, here] at moves
  rw [← Option.some.inj moves]
  refine protocol.move ⟨fun _ => fits.needsLock rfl, fun _ => fits.isCleared rfl, fun _ => rfl, ?_⟩ silent trivial
    fun free => empty free rfl
  cases other : caller.isOther with
  | true => simp [Place.restoresMask, other]
  | false =>
    simp only [Place.restoresMask, other, Bool.false_or]
    exact fits.isMasked (by simp [Place.isMasked, Place.isCritical, other])

theorem System.Protocol.unlockWake {caller : UnlockCaller} {d7 : Bool}
    (here : sys.places sys.running = .unlockWake caller d7) : after.Protocol := by
  obtain ⟨fits, silent, -⟩ := protocol.here here
  rw [System.advance, here] at moves
  have woken := @System.Protocol.wakeLock sys protocol .finished none
  have moved : ((sys.wakeLock .finished (sys.lockQueue.wakeUpSome .finished none)).goto
      (.unlockRestore caller d7)).Protocol := by
    rw [← @mask_self (sys.wakeLock .finished (sys.lockQueue.wakeUpSome .finished none))]
    exact woken.move (.free rfl (fun _ => fits.isMasked rfl) fits.restoresMask) silent trivial
      fun _ => WaitQueue.wakeUpSome_all (by simp)
  refine moved.maybeSwitchTo ?_ moves
  intro enabled
  rw [places_goto_running]
  change sys.isCooperationEnabled = true at enabled
  by_contra critical
  have off := silent (show (!caller.isOther) = true by simpa [Place.isCritical] using critical)
  rw [enabled] at off
  simp at off

theorem System.Protocol.waitOn {condVar : Nat} {sps : Bool}
    (here : sys.places sys.running = .waitOn condVar sps) : after.Protocol := by
  obtain ⟨fits, -, empty⟩ := protocol.here here
  rw [System.advance, here] at moves
  dsimp only at moves
  unfold WaitQueue.waitOn at moves
  split_ifs at moves
  · rw [← Option.some.inj moves, ← @mask_self sys, fits.isMasked rfl]
    exact protocol.moveMasked rfl rfl rfl rfl fun free => empty free rfl
  · rw [← Option.some.inj moves, ← @mask_self sys, fits.isMasked rfl]
    exact protocol.moveMasked rfl rfl rfl rfl fun free => empty free rfl
  · obtain ⟨other, -, switches⟩ := Option.bind_eq_some_iff.mp moves
    refine (protocol.enterCond here _ rfl).switchTo ?_ switches
    rw [places_goto_running]
    rfl

theorem System.Protocol.wakeCooperation {condVar : Nat} {broadcast unlocks sps : Bool}
    (here : sys.places sys.running = .wakeCooperation condVar broadcast unlocks sps) : after.Protocol := by
  obtain ⟨fits, -, empty⟩ := protocol.here here
  rw [System.advance, here] at moves
  dsimp only at moves
  split_ifs at moves
  · rw [← Option.some.inj moves, ← @mask_self sys]
    exact protocol.move (.free rfl (fun _ => fits.isMasked rfl) rfl) (fun _ => rfl) trivial fun free => empty free rfl
  · rw [← Option.some.inj moves, ← @mask_self sys]
    exact protocol.move (.free rfl (fun _ => fits.isMasked rfl) rfl) (fun _ => rfl) trivial fun free => empty free rfl

theorem System.Protocol.wakeSome {condVar : Nat} {broadcast sps : Bool}
    (here : sys.places sys.running = .wakeSome condVar broadcast sps) : after.Protocol := by
  obtain ⟨-, -, empty⟩ := protocol.here here
  rw [System.advance, here] at moves
  dsimp only at moves
  generalize (if broadcast = true then none else some 1) = count at moves
  have woken : (sys.wakeCond condVar .finished ((sys.condQueues condVar).wakeUpSome .finished count)).Protocol :=
    protocol.wakeCond fun _ => WaitQueue.has_wakeUpSome
  have moved : ((sys.wakeCond condVar .finished ((sys.condQueues condVar).wakeUpSome .finished count)).goto
      (.wakeReturn sps)).Protocol := by
    rw [← @mask_self (sys.wakeCond condVar .finished ((sys.condQueues condVar).wakeUpSome .finished count))]
    exact woken.moveFree rfl rfl rfl fun free => empty free rfl
  refine moved.maybeSwitchTo ?_ moves
  intro _
  rw [places_goto_running]
  rfl

end Instructions

/-- The running virtual processor executes its next instruction. -/
theorem System.Protocol.advance {after : System} {isPast : Bool} {effectivePriority : Nat}
    {next : Option Nat} (moves : sys.advance isPast effectivePriority next = some after) : after.Protocol := by
  have instruction := moves
  unfold System.advance at moves
  obtain ⟨place, here⟩ : ∃ place, sys.places sys.running = place := ⟨_, rfl⟩
  obtain ⟨fits, silent, empty⟩ := protocol.here here
  rw [here] at moves
  cases place with
  | outside result => simp at moves
  | fatalError error => simp at moves
  | tryLock => exact protocol.tryLock instruction here
  | lock caller => exact protocol.lock instruction here
  | lockMask caller =>
    rw [← Option.some.inj moves]
    refine protocol.moveMasked rfl rfl ?_ rfl fun free => empty free rfl
    cases caller with
    | other => rfl
    | wait sps error => exact fits.isMasked rfl
  | lockRetry caller d7 => exact protocol.lockRetry instruction here
  | lockWaiting caller d7 => simp at moves
  | lockWoken caller d7 reason => exact protocol.lockWoken instruction here
  | lockOwner caller =>
    rw [← Option.some.inj moves]
    exact protocol.own here
  | unlock caller => exact protocol.unlock instruction here
  | unlockClear caller =>
    rw [← Option.some.inj moves]
    exact protocol.disown here
  | unlockMask caller => exact protocol.unlockMask instruction here
  | unlockRelease caller d7 =>
    rw [← Option.some.inj moves]
    exact protocol.release here
  | unlockWake caller d7 => exact protocol.unlockWake instruction here
  | unlockRestore caller d7 =>
    rw [← Option.some.inj moves]
    exact protocol.unlockReturns fits.restoresMask silent fun free => empty free rfl
  | waitMask condVar =>
    rw [← Option.some.inj moves]
    exact protocol.moveMasked rfl rfl rfl rfl fun free => empty free rfl
  | waitCooperation condVar sps =>
    rw [← Option.some.inj moves, ← @mask_self sys]
    exact protocol.move (.free rfl (fun _ => fits.isMasked rfl) rfl) (fun _ => rfl) trivial fun free => empty free rfl
  | waitRestore condVar sps scs =>
    rw [← Option.some.inj moves, ← @mask_self sys, fits.isMasked rfl]
    exact protocol.moveMasked rfl rfl rfl rfl fun free => empty free rfl
  | waitOn condVar sps => exact protocol.waitOn instruction here
  | waiting condVar sps => simp at moves
  | waitWoken condVar sps reason =>
    rw [← Option.some.inj moves, ← @mask_self sys, fits.isMasked rfl]
    exact protocol.moveMasked rfl rfl rfl rfl fun free => empty free rfl
  | waitReturn sps error =>
    rw [← Option.some.inj moves]
    exact protocol.moveFree rfl rfl rfl fun free => empty free rfl
  | wakeMask condVar broadcast unlocks =>
    rw [← Option.some.inj moves]
    exact protocol.moveMasked rfl rfl rfl rfl fun free => empty free rfl
  | wakeCooperation condVar broadcast unlocks sps => exact protocol.wakeCooperation instruction here
  | wakeRestore condVar broadcast sps scs =>
    rw [← Option.some.inj moves, ← @mask_self sys, fits.isMasked rfl]
    exact protocol.moveMasked rfl rfl rfl rfl fun free => empty free rfl
  | wakeSome condVar broadcast sps => exact protocol.wakeSome instruction here
  | wakeReturn sps =>
    rw [← Option.some.inj moves]
    exact protocol.moveFree rfl rfl rfl fun free => empty free rfl

end Moves

/-! ## Runs -/

section Runs
variable {sys after : System} {action : Action}

theorem isOutside_place (outside : sys.isOutside = true) : ∃ result, sys.places sys.running = .outside result := by
  unfold System.isOutside at outside
  split at outside
  next result here => exact ⟨result, here⟩
  next => simp at outside

theorem System.Protocol.timeout (protocol : sys.Protocol) (vpid : Nat) : (sys.timeout vpid).Protocol := by
  unfold System.timeout
  split
  · exact protocol.wakeCond fun _ => WaitQueue.has_wakeUpOne
  · exact protocol

theorem System.Protocol.abortCallAsUser (protocol : sys.Protocol) (vpid : Nat) : (sys.abortCallAsUser vpid).Protocol := by
  unfold System.abortCallAsUser
  split_ifs
  · have flagged : System.Protocol { sys with flags := Function.update sys.flags vpid ⟨true, true⟩ } :=
      ⟨protocol.value, protocol.unique, protocol.owner, protocol.fits, protocol.switched, protocol.silent,
        protocol.running, protocol.empty, protocol.queued⟩
    unfold System.interruptWait
    split
    · exact flagged.wakeLock
    · exact flagged.wakeCond fun _ => WaitQueue.has_wakeUpSome
    · exact flagged
  · exact protocol

theorem System.Protocol.call (protocol : sys.Protocol) (outside : sys.isOutside = true) (operation : Operation) :
    (sys.goto operation.start).Protocol := by
  obtain ⟨result, here⟩ := isOutside_place outside
  have empty := protocol.empty
  rw [here] at empty
  rw [← @mask_self sys]
  cases operation with
  | _ => exact protocol.moveFree rfl rfl rfl fun free => empty free rfl

theorem Step.protocol (protocol : sys.Protocol) (step : Step sys action after) : after.Protocol := by
  cases action with
  | call operation =>
    obtain ⟨outside, moves⟩ := Option.ite_none_right_eq_some.mp step
    rw [← Option.some.inj moves]
    exact protocol.call outside operation
  | advance isPast effectivePriority next => exact protocol.advance step
  | preempt next =>
    obtain ⟨unmasked, switches⟩ := Option.ite_none_left_eq_some.mp step
    refine protocol.switchTo ?_ switches
    by_contra critical
    have masks := isMasked_of_isCritical (by simpa using critical)
    exact unmasked ((protocol.fits sys.running).isMasked masks)
  | timeout vpid =>
    obtain ⟨-, moves⟩ := Option.ite_none_left_eq_some.mp step
    rw [← Option.some.inj moves]
    exact protocol.timeout vpid
  | beginCallAsUser =>
    obtain ⟨-, moves⟩ := Option.ite_none_right_eq_some.mp step
    rw [← Option.some.inj moves]
    exact ⟨protocol.value, protocol.unique, protocol.owner, protocol.fits, protocol.switched, protocol.silent,
      protocol.running, protocol.empty, protocol.queued⟩
  | endCallAsUser =>
    obtain ⟨-, moves⟩ := Option.ite_none_right_eq_some.mp step
    rw [← Option.some.inj moves]
    exact ⟨protocol.value, protocol.unique, protocol.owner, protocol.fits, protocol.switched, protocol.silent,
      protocol.running, protocol.empty, protocol.queued⟩
  | abortCallAsUser vpid =>
    obtain ⟨-, moves⟩ := Option.ite_none_right_eq_some.mp step
    rw [← Option.some.inj moves]
    exact protocol.abortCallAsUser vpid

theorem init_protocol (options : Options) {running : Nat} (positive : running ≠ 0) : (init options running).Protocol := by
  refine ⟨?_, ?_, ?_, ?_, fun _ _ => rfl, ?_, positive, fun _ _ => rfl, fun _ => trivial⟩
  · intro vpid holds
    simp [init] at holds
  · intro vpid other holds
    simp [init] at holds
  · intro owned
    exact absurd rfl owned
  · intro vpid
    exact .free rfl (fun masks => absurd masks (by simp [init, Place.isMasked, Place.isCritical])) rfl
  · intro silent
    simp [init, Place.isSilent] at silent

/-- Inside `ConditionVariable_Wait`, behind the release of the lock and not woken up. -/
def Place.hasReleased (condVar : Nat) : Place → Prop
  | .unlockWake (.wait other _ _) _ | .unlockRestore (.wait other _ _) _ => other = condVar
  | .waitRestore other _ _ | .waitOn other _ | .waiting other _ => other = condVar
  | _ => False

structure System.Safe (sys : System) : Prop where
  /-- At most one virtual processor has the lock. -/
  exclusive : ∀ vpid other, sys.holds vpid = true → sys.holds other = true → vpid = other
  /-- An unlock without the lock ends the call and changes nothing else. -/
  foreignUnlock : ∀ caller isPast effectivePriority next after, sys.places sys.running = .unlock caller →
    sys.holds sys.running = false → sys.advance isPast effectivePriority next = some after →
      ∃ place, after = sys.goto place ∧ (place = .fatalError .EPERM ∨ place = caller.returned (.failed .EPERM))
  /-- With a clear bit and no unlock in front of its wake-up nobody sleeps on the lock. -/
  noSleeper : sys.value = false → (∀ vpid, (sys.places vpid).isWaking = false) →
    sys.lockQueue = [] ∧ ∀ vpid caller d7, sys.places vpid ≠ .lockWaiting caller d7
  /-- Whoever runs meanwhile finds a waiter that has released the lock on the queue. -/
  noLostSignal : ∀ vpid condVar, vpid ≠ sys.running → (sys.places vpid).hasReleased condVar →
    (sys.condQueues condVar).Has vpid

theorem System.Protocol.safe (protocol : sys.Protocol) : sys.Safe := by
  refine ⟨protocol.unique, ?_, ?_, ?_⟩
  · intro caller isPast effectivePriority next after here holds moves
    have foreign : sys.ownerVpid ≠ sys.running := by
      intro own
      have held := protocol.owner (by rw [own]; exact protocol.running)
      rw [own, holds] at held
      simp at held
    unfold System.advance at moves
    rw [here] at moves
    dsimp only at moves
    rw [if_neg foreign] at moves
    split_ifs at moves
    · exact ⟨_, (Option.some.inj moves).symm, .inl rfl⟩
    · exact ⟨_, (Option.some.inj moves).symm, .inr rfl⟩
  · intro free still
    have none := protocol.empty free (still sys.running)
    refine ⟨none, ?_⟩
    intro vpid caller d7 waits
    have queued := protocol.queued vpid
    rw [waits] at queued
    obtain ⟨waiter, member, -⟩ : sys.lockQueue.Has vpid := queued
    rw [none] at member
    simp at member
  · intro vpid condVar other released
    have calm := protocol.switched vpid other
    have queued := protocol.queued vpid
    cases place : sys.places vpid with
    | waiting own sps =>
      rw [place] at released queued
      rw [← show own = condVar from released]
      exact queued
    | unlockWake caller d7 =>
      rw [place] at calm
      simp [Place.isCritical] at calm
    | unlockRestore caller d7 =>
      rw [place] at calm released
      cases caller with
      | wait own sps scs => simp [Place.isCritical, UnlockCaller.isOther] at calm
      | _ => exact released.elim
    | waitRestore own sps scs =>
      rw [place] at calm
      simp [Place.isCritical] at calm
    | waitOn own sps =>
      rw [place] at calm
      simp [Place.isCritical] at calm
    | _ =>
      rw [place] at released
      exact released.elim

/-- Every interleaving keeps the guarantees. -/
theorem runs_safe {options : Options} {running : Nat} {actions : List Action} (positive : running ≠ 0)
    (run : Runs Step (init options running) actions sys) : sys.Safe := by
  have protocol : sys.Protocol := by
    apply run.invariant System.Protocol (init_protocol options positive)
    intro action state after holds step
    exact Step.protocol holds step
  exact protocol.safe

end Runs

/-- The virtual processor 1 takes the lock and waits on a condition variable; 2 takes the lock, and is
in front of the wake-up of its broadcast. -/
def signalledWait : List Action :=
  [Action.call .lock] ++ List.replicate 2 (Action.advance false 5 none) ++ [Action.call (.wait 0)] ++
    List.replicate 9 (Action.advance false 5 none) ++ [Action.advance false 5 (some 2), Action.call .lock] ++
    List.replicate 2 (Action.advance false 5 none) ++ [Action.call (.wakeAndUnlock 0 true true)] ++
    List.replicate 9 (Action.advance false 5 none)

theorem signalledWait_safe : ∃ (sys : System) (actions : List Action),
    Runs Step (init ⟨true, false⟩ 1) actions sys ∧ sys.places 2 = .wakeSome 0 true false ∧
      sys.places 1 = .waiting 0 false ∧ sys.Safe := by
  have performs : (performAll perform signalledWait (init ⟨true, false⟩ 1)).map (fun sys => (sys.places 2, sys.places 1)) =
      some (.wakeSome 0 true false, .waiting 0 false) := by
    decide +kernel
  obtain ⟨sys, performed, data⟩ := Option.map_eq_some_iff.mp performs
  obtain ⟨actions, run⟩ := Runs.performAll (fun _ _ _ enabled => enabled) .nil performed
  obtain ⟨signaller, waiter⟩ := Prod.mk.inj data
  exact ⟨sys, actions, run, signaller, waiter, runs_safe (by decide) run⟩

end Apollo.Dispatcher.Lock
