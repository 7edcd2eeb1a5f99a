import Apollo.Klib.TimeIntervalArithmetic

/-!
# The key repeater

`HIDKeyRepeater.c`: the last key pressed is posted again at each deadline.  A tick that comes
exactly at the deadline does not move it, and a delay of zero never gets past the tick.
-/

set_option autoImplicit false

namespace Apollo.TimeInterval

def greaterEquals (t0 t1 : TimeInterval) : Bool :=
  decide (t0.tvSec > t1.tvSec ∨ (t0.tvSec = t1.tvSec ∧ t0.tvNsec ≥ t1.tvNsec))

/-- A time or a delay that is not negative, the infinity included. -/
structure Forward (ti : TimeInterval) : Prop where
  secRange : 0 ≤ ti.tvSec ∧ ti.tvSec < 2147483648
  nsecRange : 0 ≤ ti.tvNsec ∧ ti.tvNsec ≤ oneSecondInNanos

theorem Canonical.forward {ti : TimeInterval} (canonical : ti.Canonical) : ti.Forward :=
  ⟨⟨canonical.sec_nonneg, canonical.sec_lt⟩, canonical.nsec_nonneg, le_of_lt canonical.nsec_lt⟩

section
variable {t0 t1 now : TimeInterval}

/-- With a summand that is not negative the sum is exact or the infinity. -/
theorem add_placed (placed : t0.Placed) (forward : t1.Forward) :
    (t0.add t1).Placed ∧ (t0.add t1 = infinity ∨ (t0.add t1).nanos = t0.nanos + t1.nanos) := by
  have saturates : ∀ sec nsec : Int, -2147483648 ≤ sec → -oneSecondInNanos < nsec → nsec ≤ oneSecondInNanos →
      sec * oneSecondInNanos + nsec = t0.nanos + t1.nanos → (saturated sec nsec).Placed ∧
        (saturated sec nsec = infinity ∨ (saturated sec nsec).nanos = t0.nanos + t1.nanos) := by
    intro sec nsec secLow nsecLow nsecHigh value
    unfold saturated
    by_cases beyond : 2147483648 ≤ sec
    · rw [if_pos beyond]
      exact ⟨infinity_ranged.placed, .inl rfl⟩
    · rw [if_neg beyond, if_neg (by omega)]
      exact ⟨⟨⟨secLow, Int.not_le.1 beyond⟩, nsecLow, nsecHigh⟩, .inr value⟩
  obtain ⟨⟨low', high'⟩, nsecLow', nsecHigh'⟩ := forward
  rw [add_saturates placed ⟨⟨by omega, high'⟩, Int.lt_of_lt_of_le (by decide) nsecLow', nsecHigh'⟩ (.inr (.inr nsecLow'))]
  obtain ⟨⟨low, high⟩, nsecLow, nsecHigh⟩ := placed
  simp only [nanos, oneSecondInNanos] at *
  split <;> exact saturates _ _ (by omega) (by omega) (by omega) (by omega)

theorem nanos_le_of_greaterEquals (canonical : now.Canonical) (placed : t0.Placed)
    (due : now.greaterEquals t0 = true) : t0.nanos ≤ now.nanos ∧ t0 ≠ infinity := by
  obtain ⟨-, secHigh, nsecLow, nsecHigh⟩ := canonical
  obtain ⟨-, -, nsecHigh'⟩ := placed
  simp only [greaterEquals, decide_eq_true_eq, oneSecondInNanos, nanos] at *
  constructor
  · omega
  · rintro rfl
    simp only [infinity, oneSecondInNanos] at due
    omega

theorem nanos_le_of_less (canonical : now.Canonical) (placed : t0.Placed) (before : t0.less now = true) :
    t0.nanos ≤ now.nanos ∧ t0 ≠ infinity := by
  refine nanos_le_of_greaterEquals canonical placed ?_
  simp only [less, greaterEquals, decide_eq_true_eq] at *
  omega

theorem Canonical.value_eq (canonical : now.Canonical) : now.value = now.nanos :=
  if_neg (Int.not_lt.2 canonical.sec_nonneg)

theorem Ranged.value_le (ranged : t0.Ranged) : t0.value ≤ t0.nanos := by
  obtain ⟨-, -, sign⟩ := ranged
  simp only [value, nanos]
  split <;> omega

theorem Canonical.ranged (canonical : now.Canonical) : now.Ranged :=
  ⟨⟨(by have := canonical.sec_nonneg; omega), canonical.sec_lt⟩,
    ⟨Int.lt_of_lt_of_le (by decide) canonical.nsec_nonneg, le_of_lt canonical.nsec_lt⟩, fun _ => canonical.nsec_nonneg⟩

end

end Apollo.TimeInterval

namespace Apollo.Driver
open TimeInterval

/-- The codes that `shouldAutoRepeatKeyCode` lists. -/
def unrepeatedKeyCodes : List UInt16 :=
  [0xe0, 0xe1, 0xe2, 0xe3, 0xe4, 0xe5, 0xe6, 0xe7, 0x39, 0x2b, 0x28, 0x58, 0x29, 0x46, 0x47, 0x53, 0x48, 0x49,
    0x66, 0x65, 0x74, 0x75, 0x76, 0x77, 0x78, 0x79, 0x7a, 0x7b, 0x7c, 0x7d, 0x7e, 0x7f, 0x87, 0x88, 0x89, 0x8a,
    0x8b, 0x90, 0x91, 0x92, 0x93, 0x94, 0xe8, 0xe9, 0xec, 0xef, 0xf0, 0xf3, 0xf4, 0xf7, 0xf8, 0xf9, 0xfa, 0xfb,
    0x00, 0x01, 0x02, 0x03]

def shouldAutoRepeatKeyCode (keyCode : UInt16) : Bool := !unrepeatedKeyCodes.contains keyCode

inductive RepeaterState
  | idle
  | initialDelaying
  | repeating
  deriving DecidableEq

structure HIDKeyRepeater where
  initialKeyRepeatDelay : TimeInterval
  keyRepeatDelay : TimeInterval
  nextEventTime : TimeInterval
  keyCode : UInt16
  state : RepeaterState
  deriving DecidableEq

namespace HIDKeyRepeater

def create : HIDKeyRepeater := ⟨⟨0, 300000000⟩, ⟨0, 100000000⟩, zero, 0, .idle⟩

def setKeyRepeatDelays (pRepeater : HIDKeyRepeater) (initialDelay repeatDelay : TimeInterval) : HIDKeyRepeater :=
  { pRepeater with initialKeyRepeatDelay := initialDelay, keyRepeatDelay := repeatDelay }

def keyDown (pRepeater : HIDKeyRepeater) (now : TimeInterval) (keyCode : UInt16) : HIDKeyRepeater :=
  if shouldAutoRepeatKeyCode keyCode then
    { pRepeater with
      state := .initialDelaying
      keyCode := keyCode
      nextEventTime := now.add pRepeater.initialKeyRepeatDelay }
  else pRepeater

def keyUp (pRepeater : HIDKeyRepeater) (keyCode : UInt16) : HIDKeyRepeater :=
  if pRepeater.state ≠ .idle ∧ pRepeater.keyCode = keyCode then { pRepeater with state := .idle } else pRepeater

/-- The loop that moves the deadline to the clock, within a number of rounds. -/
def catchUp (now keyRepeatDelay : TimeInterval) : Nat → TimeInterval → Option TimeInterval
  | 0, _ => none
  | fuel + 1, nextEventTime =>
    if nextEventTime.less now then catchUp now keyRepeatDelay fuel (nextEventTime.add keyRepeatDelay)
    else some nextEventTime

/-- The tick, with the key that it posts.  The two branches of the source differ only in that the
first one starts to repeat. -/
def tick (pRepeater : HIDKeyRepeater) (fuel : Nat) (now : TimeInterval) : Option (HIDKeyRepeater × Option UInt16) :=
  if pRepeater.state ≠ .idle ∧ now.greaterEquals pRepeater.nextEventTime then
    (catchUp now pRepeater.keyRepeatDelay fuel pRepeater.nextEventTime).map fun nextEventTime =>
      ({ pRepeater with state := .repeating, nextEventTime := nextEventTime }, some pRepeater.keyCode)
  else some (pRepeater, none)

inductive Call
  | keyDown (now : TimeInterval) (keyCode : UInt16)
  | keyUp (keyCode : UInt16)
  | tick (now : TimeInterval)
  | setKeyRepeatDelays (initialDelay repeatDelay : TimeInterval)
  deriving DecidableEq

def perform (fuel : Nat) (pRepeater : HIDKeyRepeater) : Call → Option (HIDKeyRepeater × Option UInt16)
  | .keyDown now keyCode => some (pRepeater.keyDown now keyCode, none)
  | .keyUp keyCode => some (pRepeater.keyUp keyCode, none)
  | .tick now => pRepeater.tick fuel now
  | .setKeyRepeatDelays initialDelay repeatDelay => some (pRepeater.setKeyRepeatDelays initialDelay repeatDelay, none)

/-! ## What may be posted -/

/-- The keyboard as a user sees it: the keys that are down, the last press with the delay it was
made under, and the deadline and the delay of the last event that was posted for it. -/
structure Watch where
  down : UInt16 → Bool
  last : Option UInt16
  pressed : TimeInterval
  initialDelay : TimeInterval
  posted : Option (TimeInterval × TimeInterval)

def Watch.start : Watch := ⟨fun _ => false, none, zero, zero, none⟩

def Watch.after (watch : Watch) (pRepeater : HIDKeyRepeater) : Call → Option UInt16 → Watch
  | .keyDown now keyCode, _ =>
    ⟨Function.update watch.down keyCode true, some keyCode, now, pRepeater.initialKeyRepeatDelay, none⟩
  | .keyUp keyCode, _ => { watch with down := Function.update watch.down keyCode false }
  | .tick _, some _ => { watch with posted := some (pRepeater.nextEventTime, pRepeater.keyRepeatDelay) }
  | _, _ => watch

/-- A deadline is late enough: the first one on the clock, the others in the schedule. -/
def Watch.Due (watch : Watch) (deadline now : TimeInterval) : Prop :=
  match watch.posted with
  | none => watch.pressed.value + watch.initialDelay.value ≤ now.value
  | some (before, delay) => before.nanos + delay.nanos ≤ deadline.nanos

def Timely (watch : Watch) (pRepeater : HIDKeyRepeater) (now : TimeInterval) (keyCode : UInt16) : Prop :=
  shouldAutoRepeatKeyCode keyCode = true ∧ watch.down keyCode = true ∧ watch.last = some keyCode ∧
    watch.Due pRepeater.nextEventTime now

def TimelyAt (watch : Watch) (pRepeater : HIDKeyRepeater) : Call → Option UInt16 → Prop
  | .tick now, some keyCode => Timely watch pRepeater now keyCode
  | _, posted => posted = none

def TimelyAll (fuel : Nat) : List Call → HIDKeyRepeater → Watch → Prop
  | [], _, _ => True
  | call :: calls, pRepeater, watch =>
    match perform fuel pRepeater call with
    | none => False
    | some (after, posted) => TimelyAt watch pRepeater call posted ∧
        TimelyAll fuel calls after (watch.after pRepeater call posted)

/-- A call that none of the defects is in: a key that does not repeat is pressed while no other
one repeats, and a tick that posts comes after the deadline and with a delay that is positive. -/
def Call.Sound (pRepeater : HIDKeyRepeater) : Call → Prop
  | .keyDown now keyCode =>
    now.Canonical ∧ pRepeater.initialKeyRepeatDelay.Ranged ∧
      (shouldAutoRepeatKeyCode keyCode = true ∨ pRepeater.state = .idle)
  | .keyUp _ => True
  | .tick now =>
    now.Canonical ∧ (pRepeater.state ≠ .idle → now.greaterEquals pRepeater.nextEventTime = true →
      pRepeater.nextEventTime.less now = true ∧ pRepeater.keyRepeatDelay.Forward ∧ 0 < pRepeater.keyRepeatDelay.nanos)
  | .setKeyRepeatDelays _ _ => True

def SoundAll : List Call → HIDKeyRepeater → Prop
  | [], _ => True
  | call :: calls, pRepeater =>
    call.Sound pRepeater ∧
      ∀ fuel after posted, perform fuel pRepeater call = some (after, posted) → SoundAll calls after

/-! ## The loop -/

section
variable {now delay : TimeInterval}

def Reaches (bound : Int) (deadline : TimeInterval) : Prop :=
  deadline.Placed ∧ (deadline = infinity ∨ bound ≤ deadline.nanos)

theorem Reaches.add {bound : Int} {deadline : TimeInterval} (reaches : Reaches bound deadline)
    (finite : deadline ≠ infinity) (forward : delay.Forward) : Reaches (bound + delay.nanos) (deadline.add delay) := by
  obtain ⟨placed, sum⟩ := add_placed reaches.1 forward
  have := reaches.2.resolve_left finite
  exact ⟨placed, sum.imp_right (by omega)⟩

/-- The loop ends, since each round adds to the deadline. -/
theorem catchUp_returns (canonical : now.Canonical) (forward : delay.Forward) (positive : 0 < delay.nanos)
    (bound : Int) (rounds : Nat) (next : TimeInterval) (reaches : Reaches bound next)
    (near : next ≠ infinity → now.nanos - next.nanos < rounds) :
    ∃ fuel deadline, (∀ more, catchUp now delay (fuel + more) next = some deadline) ∧ Reaches bound deadline := by
  by_cases before : next.less now = true
  · obtain ⟨passed, finite⟩ := nanos_le_of_less canonical reaches.1 before
    cases rounds with
    | zero => exact absurd (near finite) (by omega)
    | succ rounds =>
      obtain ⟨placed, far⟩ := reaches.add finite forward
      have sum := (add_placed reaches.1 forward).2
      obtain ⟨fuel, deadline, returns, reached⟩ := catchUp_returns canonical forward positive bound rounds
        (next.add delay) ⟨placed, far.imp_right (by omega)⟩ (fun finite' => by
          have := near finite
          have := sum.resolve_left finite'
          omega)
      refine ⟨fuel + 1, deadline, fun more => ?_, reached⟩
      rw [Nat.add_right_comm, catchUp, if_pos before, returns]
  · refine ⟨1, next, fun more => ?_, reaches⟩
    rw [Nat.add_comm, catchUp, if_neg before]

theorem catchUp_moves (canonical : now.Canonical) (forward : delay.Forward) (positive : 0 < delay.nanos)
    {next : TimeInterval} (placed : next.Placed) (before : next.less now = true) :
    ∃ fuel deadline, (∀ more, catchUp now delay (fuel + more) next = some deadline) ∧
      Reaches (next.nanos + delay.nanos) deadline := by
  obtain ⟨fuel, deadline, returns, reached⟩ := catchUp_returns canonical forward positive
    (next.nanos + delay.nanos) (now.nanos - (next.add delay).nanos + 1).toNat (next.add delay)
    (Reaches.add ⟨placed, .inr (le_refl _)⟩ (nanos_le_of_less canonical placed before).2 forward) (by omega)
  refine ⟨fuel + 1, deadline, fun more => ?_, reached⟩
  rw [Nat.add_right_comm, catchUp, if_pos before, returns]

end

/-! ## The runs -/

/-- The repeater against the keyboard: what it repeats is down and was pressed last, and its
deadline is late enough for what was posted. -/
structure Follows (pRepeater : HIDKeyRepeater) (watch : Watch) : Prop where
  repeats : shouldAutoRepeatKeyCode pRepeater.keyCode = true
  down : watch.down pRepeater.keyCode = true
  last : watch.last = some pRepeater.keyCode
  pressed : watch.pressed.Canonical
  ranged : watch.initialDelay.Ranged
  deadline : Reaches (match watch.posted with
    | none => watch.pressed.nanos + watch.initialDelay.nanos
    | some (before, delay) => before.nanos + delay.nanos) pRepeater.nextEventTime

def Consistent (pRepeater : HIDKeyRepeater) (watch : Watch) : Prop :=
  pRepeater.state ≠ .idle → pRepeater.Follows watch

variable {pRepeater : HIDKeyRepeater} {watch : Watch} {now : TimeInterval} {keyCode : UInt16}

theorem keyDown_consistent (sound : (Call.keyDown now keyCode).Sound pRepeater) :
    (pRepeater.keyDown now keyCode).Consistent (watch.after pRepeater (.keyDown now keyCode) none) := by
  obtain ⟨canonical, ranged, alone⟩ := sound
  intro busy
  by_cases repeats : shouldAutoRepeatKeyCode keyCode = true
  · rw [keyDown, if_pos repeats]
    refine ⟨repeats, Function.update_self .., rfl, canonical, ranged, ?_⟩
    obtain ⟨placed, sum⟩ := add_placed ranged.placed canonical.forward
    rw [add_comm _ _ ranged canonical.ranged] at placed sum
    exact ⟨placed, sum.imp_right (by simp only [Watch.after]; omega)⟩
  · rw [keyDown, if_neg repeats] at busy
    exact absurd (alone.resolve_left repeats) busy

theorem keyUp_consistent (consistent : pRepeater.Consistent watch) :
    (pRepeater.keyUp keyCode).Consistent (watch.after pRepeater (.keyUp keyCode) none) := by
  intro busy
  by_cases same : pRepeater.state ≠ .idle ∧ pRepeater.keyCode = keyCode
  · rw [keyUp, if_pos same] at busy
    exact absurd rfl busy
  · rw [keyUp, if_neg same] at busy ⊢
    obtain ⟨repeats, down, last, pressed, ranged, deadline⟩ := consistent busy
    refine ⟨repeats, ?_, last, pressed, ranged, deadline⟩
    exact (Function.update_of_ne (fun equal => same ⟨busy, equal⟩) ..).trans down

theorem Follows.due (follows : pRepeater.Follows watch) (canonical : now.Canonical)
    (due : now.greaterEquals pRepeater.nextEventTime = true) : watch.Due pRepeater.nextEventTime now := by
  obtain ⟨-, -, -, pressed, ranged, placed, deadline⟩ := follows
  obtain ⟨passed, finite⟩ := nanos_le_of_greaterEquals canonical placed due
  have late := deadline.resolve_left finite
  unfold Watch.Due
  rcases posted : watch.posted with _ | ⟨before, delay⟩ <;> rw [posted] at late
  · have := ranged.value_le
    rw [pressed.value_eq, canonical.value_eq]
    dsimp only at late ⊢
    omega
  · exact late

theorem tick_consistent (consistent : pRepeater.Consistent watch) (sound : (Call.tick now).Sound pRepeater) :
    ∃ fuel after posted, (∀ more, pRepeater.tick (fuel + more) now = some (after, posted)) ∧
      TimelyAt watch pRepeater (.tick now) posted ∧ after.Consistent (watch.after pRepeater (.tick now) posted) := by
  obtain ⟨canonical, sound⟩ := sound
  by_cases due : pRepeater.state ≠ .idle ∧ now.greaterEquals pRepeater.nextEventTime = true
  · obtain ⟨before, forward, positive⟩ := sound due.1 due.2
    have follows := consistent due.1
    obtain ⟨fuel, deadline, returns, reached⟩ := catchUp_moves canonical forward positive follows.deadline.1 before
    refine ⟨fuel, { pRepeater with state := .repeating, nextEventTime := deadline }, some pRepeater.keyCode,
      fun more => ?_, ⟨follows.repeats, follows.down, follows.last, follows.due canonical due.2⟩, fun _ => ?_⟩
    · rw [tick, if_pos due, returns]
      rfl
    · exact ⟨follows.repeats, follows.down, follows.last, follows.pressed, follows.ranged, reached⟩
  · refine ⟨0, pRepeater, none, fun more => ?_, rfl, consistent⟩
    rw [tick, if_neg due]

theorem perform_consistent {call : Call} (consistent : pRepeater.Consistent watch) (sound : call.Sound pRepeater) :
    ∃ fuel after posted, (∀ more, perform (fuel + more) pRepeater call = some (after, posted)) ∧
      TimelyAt watch pRepeater call posted ∧ after.Consistent (watch.after pRepeater call posted) := by
  cases call with
  | keyDown now keyCode =>
    exact ⟨0, pRepeater.keyDown now keyCode, none, fun _ => rfl, rfl, keyDown_consistent sound⟩
  | keyUp keyCode => exact ⟨0, pRepeater.keyUp keyCode, none, fun _ => rfl, rfl, keyUp_consistent consistent⟩
  | tick now => exact tick_consistent consistent sound
  | setKeyRepeatDelays initialDelay repeatDelay =>
    refine ⟨0, pRepeater.setKeyRepeatDelays initialDelay repeatDelay, none, fun _ => rfl, rfl, fun busy => ?_⟩
    obtain ⟨repeats, down, last, pressed, ranged, deadline⟩ := consistent busy
    exact ⟨repeats, down, last, pressed, ranged, deadline⟩

theorem timelyAll_of_consistent (calls : List Call) (consistent : pRepeater.Consistent watch)
    (sound : SoundAll calls pRepeater) : ∃ fuel, ∀ more, TimelyAll (fuel + more) calls pRepeater watch := by
  induction calls generalizing pRepeater watch with
  | nil => exact ⟨0, fun _ => trivial⟩
  | cons call calls ih =>
    obtain ⟨fuel, after, posted, returns, timely, consistent'⟩ := perform_consistent consistent sound.1
    obtain ⟨fuel', timely'⟩ := ih consistent' (sound.2 fuel after posted (returns 0))
    refine ⟨fuel + fuel', fun more => ?_⟩
    have first := returns (fuel' + more)
    have rest := timely' (fuel + more)
    rw [← Nat.add_assoc] at first
    rw [← Nat.add_assoc, Nat.add_comm fuel' fuel] at rest
    rw [TimelyAll, first]
    exact ⟨timely, rest⟩

/-- In every run of sound calls the loop ends, and what is posted repeats the last key pressed while
it is down, the first time after the initial delay and then a repeat delay apart. -/
theorem repeats_timely (calls : List Call) (sound : SoundAll calls create) :
    ∃ fuel, ∀ more, TimelyAll (fuel + more) calls create .start :=
  timelyAll_of_consistent calls (fun busy => absurd rfl busy) sound

/-- A press and a tick after its deadline. -/
theorem press_repeated :
    ∃ fuel, ∀ more, TimelyAll (fuel + more) [.keyDown ⟨5, 0⟩ 0x04, .tick ⟨5, 310000000⟩] create .start := by
  refine repeats_timely _ ⟨⟨by decide, ⟨by decide, by decide, by decide⟩, .inl (by decide)⟩, ?_⟩
  intro fuel after posted returns
  cases Option.some.inj returns
  exact ⟨⟨by decide, fun _ _ => ⟨by decide, ⟨by decide, by decide⟩, by decide⟩⟩, fun _ _ _ _ => trivial⟩

/-- The tick at the deadline posts, and so does the next one, under the same deadline. -/
theorem deadline_kept :
    ¬ ∃ fuel, ∀ more, TimelyAll (fuel + more)
      [.keyDown ⟨5, 0⟩ 0x04, .tick ⟨5, 300000000⟩, .tick ⟨5, 310000000⟩] create .start := by
  rintro ⟨fuel, timely⟩
  have moved : nanos ⟨5, 300000000⟩ + nanos ⟨0, 100000000⟩ ≤ nanos ⟨5, 300000000⟩ :=
    (timely 2).2.2.1.2.2.2
  exact absurd moved (by decide)

end HIDKeyRepeater

end Apollo.Driver
