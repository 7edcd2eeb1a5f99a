import Apollo.Pipe.Fifo

/-!
# Wake-ups of a pipe

A caller wakes the other side up only when it goes to sleep itself.  A call that
is content with what it finds moves its bytes and returns, and whoever sleeps on
the other side sleeps on.
-/

set_option autoImplicit false

namespace Apollo.Pipe

open Klib
open Lib

def System.sleeps (sys : System) (readers : Bool) : Bool :=
  sys.calls.any fun call => call.request.isRead == readers && decide (call.place = .asleep)

/-- No reader sleeps while there is something to read, and no writer while there is room. -/
structure System.Awake (sys : System) : Prop where
  readers : sys.buffer.content ≠ [] → sys.sleeps true = false
  writers : sys.buffer.content.length < sys.buffer.capacity.toNat → sys.sleeps false = false

/-- A caller of this side would find something to do. -/
def System.serves (sys : System) : Bool → Prop
  | true => sys.buffer.content ≠ []
  | false => sys.buffer.content.length < sys.buffer.capacity.toNat

theorem awake_iff {sys : System} : sys.Awake ↔ ∀ readers, sys.serves readers → sys.sleeps readers = false := by
  constructor
  · intro awake readers
    cases readers with
    | true => exact awake.readers
    | false => exact awake.writers
  · intro awake
    exact ⟨awake true, awake false⟩

def System.exhausts (sys : System) (call : Call) : Bool :=
  match call.request with
  | .read nBytesToRead _ => sys.buffer.content.length < nBytesToRead - call.nBytes
  | .write bytes _ => sys.buffer.capacity.toNat - sys.buffer.content.length < bytes.length - call.nBytes

/-- A section either asks for more than the buffer can do, or nobody sleeps on the other side. -/
def Action.rouses (sys : System) : Action → Bool
  | .run index => (sys.calls[index]?).all fun call => sys.exhausts call || !sys.sleeps (!call.request.isRead)
  | _ => true

def RousingStep (sys : System) (action : Action) (after : System) : Prop :=
  Step sys action after ∧ action.rouses sys = true

structure System.Rested (sys : System) : Prop where
  conserved : sys.Conserved
  awake : sys.Awake
  isOpen : ∀ readers, sys.sleeps readers = true → sys.readSideState = .isOpen ∧ sys.writeSideState = .isOpen

section Sleepers
variable {sys : System} {readers : Bool}

theorem sleeps_iff : sys.sleeps readers = true ↔
    ∃ (index : Nat) (call : Call), sys.calls[index]? = some call ∧ call.request.isRead = readers ∧ call.place = .asleep := by
  unfold System.sleeps
  rw [List.any_eq_true]
  constructor
  · intro ⟨call, member, sleeps⟩
    obtain ⟨index, found⟩ := List.mem_iff_getElem?.mp member
    simp only [Bool.and_eq_true, beq_iff_eq, decide_eq_true_eq] at sleeps
    exact ⟨index, call, found, sleeps⟩
  · intro ⟨index, call, found, sleeps⟩
    refine ⟨call, List.mem_of_getElem? found, ?_⟩
    simp only [Bool.and_eq_true, beq_iff_eq, decide_eq_true_eq]
    exact sleeps

theorem sleeps_mono {after : System}
    (before : ∀ (index : Nat) (call : Call), after.calls[index]? = some call → call.place = .asleep →
      ∃ old : Call, sys.calls[index]? = some old ∧ old.request.isRead = call.request.isRead ∧ old.place = .asleep)
    (sleeps : after.sleeps readers = true) : sys.sleeps readers = true := by
  obtain ⟨index, call, found, side, asleep⟩ := sleeps_iff.mp sleeps
  obtain ⟨old, found', same, asleep'⟩ := before index call found asleep
  exact sleeps_iff.mpr ⟨index, old, found', same.trans side, asleep'⟩

theorem getElem?_setCall {index other : Nat} {call found : Call} (inside : index < sys.calls.length) :
    (sys.setCall index call).calls[other]? = some found ↔
      (other = index ∧ found = call) ∨ (other ≠ index ∧ sys.calls[other]? = some found) := by
  unfold System.setCall
  rw [List.getElem?_set]
  by_cases same : index = other
  · rw [if_pos same, if_pos inside, ← same]
    simp [eq_comm]
  · rw [if_neg same]
    simp [Ne.symm same]

theorem sleeps_setCall_awake {index : Nat} {call : Call} (inside : index < sys.calls.length)
    (awake : call.place ≠ .asleep) (sleeps : (sys.setCall index call).sleeps readers = true) :
    sys.sleeps readers = true := by
  refine sleeps_mono ?_ sleeps
  intro other found entry asleep
  rcases (getElem?_setCall inside).mp entry with ⟨-, rfl⟩ | ⟨-, old⟩
  · exact absurd asleep awake
  · exact ⟨found, old, rfl, asleep⟩

theorem sleeps_setCall_asleep {index : Nat} {call : Call} (inside : index < sys.calls.length)
    (sleeps : (sys.setCall index call).sleeps readers = true) :
    call.request.isRead = readers ∨ sys.sleeps readers = true := by
  obtain ⟨other, found, entry, side, asleep⟩ := sleeps_iff.mp sleeps
  rcases (getElem?_setCall inside).mp entry with ⟨-, rfl⟩ | ⟨-, old⟩
  · exact .inl side
  · exact .inr (sleeps_iff.mpr ⟨other, found, old, side, asleep⟩)

theorem getElem?_broadcast {index : Nat} {call : Call} {side : Bool}
    (found : (sys.broadcast side).calls[index]? = some call) :
    ∃ old : Call, sys.calls[index]? = some old ∧ call.request = old.request ∧
      (call.place = old.place ∧ (old.request.isRead = side → old.place ≠ .asleep) ∨
        call.place = .signalled ∧ old.place = .asleep) := by
  unfold System.broadcast at found
  rw [List.getElem?_map] at found
  obtain ⟨old, before, same⟩ := Option.map_eq_some_iff.mp found
  refine ⟨old, before, ?_⟩
  by_cases sleeps : old.request.isRead = side ∧ old.place = .asleep
  · rw [if_pos sleeps] at same
    rw [← same]
    exact ⟨rfl, .inr ⟨rfl, sleeps.2⟩⟩
  · rw [if_neg sleeps] at same
    rw [← same]
    exact ⟨rfl, .inl ⟨rfl, fun own asleep => sleeps ⟨own, asleep⟩⟩⟩

/-- A broadcast leaves nobody of its side asleep and wakes nobody else up. -/
theorem sleeps_broadcast {side : Bool} (sleeps : (sys.broadcast side).sleeps readers = true) :
    readers ≠ side ∧ sys.sleeps readers = true := by
  obtain ⟨index, call, found, own, asleep⟩ := sleeps_iff.mp sleeps
  obtain ⟨old, before, request, ⟨place, awake⟩ | ⟨signalled, -⟩⟩ := getElem?_broadcast found
  · rw [asleep] at place
    rw [request] at own
    refine ⟨?_, sleeps_iff.mpr ⟨index, old, before, own, place.symm⟩⟩
    intro same
    exact awake (own.trans same) place.symm
  · rw [signalled] at asleep
    simp at asleep

end Sleepers

/-! ## Sections -/

section Sections
variable {sys : System} {index : Nat} {call : Call}

theorem sleeps_finish_returns {mid : System} {error : Option Errno} {readers : Bool} (same : mid.calls = sys.calls)
    (inside : index < sys.calls.length)
    (sleeps : (mid.finishSection index call (.returns error)).sleeps readers = true) : sys.sleeps readers = true := by
  have before : mid.sleeps readers = true := by
    apply sleeps_setCall_awake (by rw [same]; exact inside) _ sleeps
    simp
  unfold System.sleeps at before ⊢
  rw [same] at before
  exact before

/-- Whoever goes to sleep has woken the other side up. -/
theorem sleeps_finish_waits {mid : System} {readers : Bool} (same : mid.calls = sys.calls)
    (inside : index < sys.calls.length)
    (sleeps : (mid.finishSection index call .waits).sleeps readers = true) : readers = call.request.isRead := by
  have length : index < (mid.broadcast (!call.request.isRead)).calls.length := by
    unfold System.broadcast
    rw [List.length_map, same]
    exact inside
  rcases sleeps_setCall_asleep length sleeps with own | others
  · exact own.symm
  · have differs := (sleeps_broadcast others).1
    cases readers <;> cases side : call.request.isRead <;> simp [side] at differs ⊢

theorem finishSection_sides {mid : System} {ending : Ending} :
    (mid.finishSection index call ending).readSideState = mid.readSideState ∧
      (mid.finishSection index call ending).writeSideState = mid.writeSideState := by
  cases ending with
  | returns error => exact ⟨rfl, rfl⟩
  | waits => exact ⟨rfl, rfl⟩

/-- A section of the call at `index` has ended with `mid` in memory: it returned with nobody asleep
on the other side, or it waits with nothing left to do for its own side. -/
theorem System.Rested.finish (rested : sys.Rested) {mid : System} {ending : Ending} (sameCalls : mid.calls = sys.calls)
    (sameSides : mid.readSideState = sys.readSideState ∧ mid.writeSideState = sys.writeSideState)
    (inside : index < sys.calls.length) (conserved : (mid.finishSection index call ending).Conserved)
    (own : mid.serves call.request.isRead → sys.serves call.request.isRead)
    (returns : ending ≠ .waits → sys.sleeps (!call.request.isRead) = false)
    (waits : ending = .waits → ¬mid.serves call.request.isRead ∧
      sys.readSideState = .isOpen ∧ sys.writeSideState = .isOpen) :
    (mid.finishSection index call ending).Rested := by
  obtain ⟨keepsBuffer, -, -⟩ := @finishSection_data mid index call ending
  obtain ⟨keepsRead, keepsWrite⟩ := @finishSection_sides index call mid ending
  have serves : ∀ readers, (mid.finishSection index call ending).serves readers → mid.serves readers := by
    intro readers
    unfold System.serves
    rw [keepsBuffer]
    exact id
  rw [sameSides.1] at keepsRead
  rw [sameSides.2] at keepsWrite
  cases ending with
  | returns error =>
    have before : ∀ readers, (mid.finishSection index call (.returns error)).sleeps readers = true →
        sys.sleeps readers = true := fun readers => sleeps_finish_returns sameCalls inside
    have others := returns (by simp)
    refine ⟨conserved, awake_iff.mpr ?_, ?_⟩
    · intro readers can
      by_contra sleeps
      have sleepsBefore := before readers (by simpa using sleeps)
      by_cases side : readers = call.request.isRead
      · have none := awake_iff.mp rested.awake readers (by rw [side]; exact own (by rw [← side]; exact serves _ can))
        rw [sleepsBefore] at none
        simp at none
      · rw [Bool.eq_not_of_ne side, others] at sleepsBefore
        simp at sleepsBefore
    · intro readers sleeps
      rw [keepsRead, keepsWrite]
      exact rested.isOpen readers (before readers sleeps)
  | waits =>
    obtain ⟨stuck, bothOpen⟩ := waits rfl
    refine ⟨conserved, awake_iff.mpr ?_, ?_⟩
    · intro readers can
      by_contra sleeps
      have side := sleeps_finish_waits sameCalls inside (by simpa using sleeps)
      rw [side] at can
      exact stuck (serves _ can)
    · intro readers _
      rw [keepsRead, keepsWrite]
      exact bothOpen

/-- A section of a read that finds enough leaves no writer behind, and one that does not empties the
buffer. -/
theorem System.Rested.readSection (rested : sys.Rested) (found : sys.calls[index]? = some call)
    {nBytesToRead : Nat} {small : nBytesToRead < 2147483648} (request : call.request = .read nBytesToRead small)
    (rouses : sys.exhausts call = true ∨ sys.sleeps false = false) :
    (sys.readSection index call nBytesToRead).Rested := by
  have inside := (List.getElem?_eq_some_iff.mp found).1
  have conserved := rested.conserved.readSection found small request
  have reads : call.request.isRead = true := by rw [request]; rfl
  have exhausts : sys.exhausts call = true → sys.buffer.content.length < nBytesToRead - call.nBytes := by
    unfold System.exhausts
    rw [request]
    exact of_decide_eq_true
  revert conserved
  unfold System.readSection
  dsimp only
  have spec : ReadSpec sys.readSideState sys.writeSideState sys.buffer (nBytesToRead - call.nBytes)
      (readLoop sys.readSideState sys.writeSideState (nBytesToRead - call.nBytes + 1)
        (nBytesToRead - call.nBytes) sys.buffer) :=
    readLoop_spec rested.conserved.valid (by omega) (Nat.lt_succ_self _)
  generalize readLoop sys.readSideState sys.writeSideState (nBytesToRead - call.nBytes + 1)
    (nBytesToRead - call.nBytes) sys.buffer = result at spec ⊢
  rcases result with ⟨ending, bytes, buffer⟩
  obtain ⟨-, -, -, content, waits⟩ := spec
  intro conserved
  refine rested.finish ?_ ⟨rfl, rfl⟩ inside conserved ?_ ?_ ?_
  · rfl
  · rw [reads]
    change buffer.content ≠ [] → sys.buffer.content ≠ []
    intro some empty
    rw [content, empty] at some
    simp at some
  · intro stays
    rw [reads]
    by_contra sleeps
    have sleeps : sys.sleeps false = true := by simpa using sleeps
    obtain ⟨readOpen, writeOpen⟩ := rested.isOpen false sleeps
    rcases rouses with more | none
    · exact stays (waits.mpr ⟨readOpen, exhausts more, writeOpen⟩)
    · rw [sleeps] at none
      simp at none
  · intro sleeps
    obtain ⟨readOpen, short, writeOpen⟩ := waits.mp sleeps
    rw [reads]
    refine ⟨?_, readOpen, writeOpen⟩
    change ¬buffer.content ≠ []
    rw [content, if_pos readOpen, List.drop_eq_nil_of_le (by omega)]
    simp

/-- A section of a write that finds enough room leaves no reader behind, and one that does not fills
the buffer. -/
theorem System.Rested.writeSection (rested : sys.Rested) (found : sys.calls[index]? = some call)
    {bytes : List UInt8} {small : bytes.length < 2147483648} (request : call.request = .write bytes small)
    (rouses : sys.exhausts call = true ∨ sys.sleeps true = false) :
    (sys.writeSection index call bytes).Rested := by
  have inside := (List.getElem?_eq_some_iff.mp found).1
  have conserved := rested.conserved.writeSection found small request
  have writes : call.request.isRead = false := by rw [request]; rfl
  have length : (bytes.drop call.nBytes).length = bytes.length - call.nBytes := List.length_drop
  have exhausts : sys.exhausts call = true →
      sys.buffer.capacity.toNat - sys.buffer.content.length < (bytes.drop call.nBytes).length := by
    unfold System.exhausts
    rw [request, length]
    exact of_decide_eq_true
  revert conserved
  unfold System.writeSection
  dsimp only
  have spec : WriteSpec sys.readSideState sys.writeSideState sys.buffer (bytes.drop call.nBytes)
      (writeLoop sys.readSideState sys.writeSideState ((bytes.drop call.nBytes).length + 1)
        (decide (0 < call.nBytes)) (bytes.drop call.nBytes) sys.buffer) :=
    writeLoop_spec rested.conserved.valid (by omega) (Nat.lt_succ_self _)
  generalize writeLoop sys.readSideState sys.writeSideState ((bytes.drop call.nBytes).length + 1)
    (decide (0 < call.nBytes)) (bytes.drop call.nBytes) sys.buffer = result at spec ⊢
  rcases result with ⟨ending, count, buffer⟩
  obtain ⟨written, -, capacity, content, waits⟩ := spec
  simp only at written capacity content waits ⊢
  intro conserved
  have after : buffer.content.length = sys.buffer.content.length + min count (bytes.drop call.nBytes).length := by
    rw [content, List.length_append, List.length_take]
  refine rested.finish ?_ ⟨rfl, rfl⟩ inside conserved ?_ ?_ ?_
  · rfl
  · rw [writes]
    change buffer.content.length < buffer.capacity.toNat → sys.buffer.content.length < sys.buffer.capacity.toNat
    rw [capacity, after]
    omega
  · intro stays
    rw [writes]
    by_contra sleeps
    have sleeps : sys.sleeps true = true := by simpa using sleeps
    obtain ⟨readOpen, writeOpen⟩ := rested.isOpen true sleeps
    rcases rouses with more | none
    · exact stays (waits.mpr ⟨writeOpen, exhausts more, readOpen⟩)
    · rw [sleeps] at none
      simp at none
  · intro sleeps
    obtain ⟨writeOpen, short, readOpen⟩ := waits.mp sleeps
    rw [writes]
    refine ⟨?_, readOpen, writeOpen⟩
    change ¬buffer.content.length < buffer.capacity.toNat
    rw [if_pos writeOpen] at written
    rw [capacity, after, written]
    omega

end Sections

/-! ## Runs -/

section Runs
variable {sys : System}

theorem System.Rested.fewer (rested : sys.Rested) {after : System} (conserved : after.Conserved)
    (buffer : after.buffer = sys.buffer)
    (sides : after.readSideState = sys.readSideState ∧ after.writeSideState = sys.writeSideState)
    (before : ∀ readers, after.sleeps readers = true → sys.sleeps readers = true) : after.Rested := by
  refine ⟨conserved, awake_iff.mpr ?_, ?_⟩
  · intro readers can
    by_contra sleeps
    have none := awake_iff.mp rested.awake readers (by unfold System.serves at can ⊢; rw [← buffer]; exact can)
    rw [before readers (by simpa using sleeps)] at none
    simp at none
  · intro readers sleeps
    rw [sides.1, sides.2]
    exact rested.isOpen readers (before readers sleeps)

theorem sleeps_call {request : Request} {place : Place} {readers : Bool} (awake : place ≠ .asleep)
    (sleeps : System.sleeps { sys with calls := sys.calls ++ [⟨request, 0, place⟩] } readers = true) :
    sys.sleeps readers = true := by
  unfold System.sleeps at sleeps ⊢
  simpa [awake] using sleeps

theorem sleeps_close {readSide readers : Bool} : (sys.close readSide).sleeps readers = false := by
  apply Bool.eq_false_iff.mpr
  intro sleeps
  obtain ⟨notFalse, earlier⟩ := sleeps_broadcast sleeps
  obtain ⟨notTrue, -⟩ := sleeps_broadcast earlier
  cases readers with
  | true => exact notTrue rfl
  | false => exact notFalse rfl

theorem RousingStep.rested {action : Action} {after : System} (rested : sys.Rested)
    (step : RousingStep sys action after) : after.Rested := by
  obtain ⟨step, rouses⟩ := step
  have conserved := Step.conserved rested.conserved step
  cases action with
  | call request =>
    rw [← Option.some.inj step] at conserved ⊢
    apply rested.fewer conserved rfl ⟨rfl, rfl⟩
    intro readers sleeps
    apply sleeps_call _ sleeps
    split_ifs <;> simp
  | run index =>
    obtain ⟨call, found, performs⟩ := Option.bind_eq_some_iff.mp step
    split_ifs at performs
    rw [← Option.some.inj performs]
    simp only [Action.rouses, found, Option.all_some, Bool.or_eq_true, Bool.not_eq_true'] at rouses
    unfold System.runSection
    cases request : call.request with
    | read nBytesToRead small =>
      rw [request] at rouses
      exact rested.readSection found request rouses
    | write bytes small =>
      rw [request] at rouses
      exact rested.writeSection found request rouses
  | interrupt index =>
    obtain ⟨call, found, performs⟩ := Option.bind_eq_some_iff.mp step
    split_ifs at performs
    rw [← Option.some.inj performs] at conserved ⊢
    apply rested.fewer conserved rfl ⟨rfl, rfl⟩
    intro readers sleeps
    apply sleeps_setCall_awake (List.getElem?_eq_some_iff.mp found).1 _ sleeps
    simp
  | leave index =>
    obtain ⟨call, found, performs⟩ := Option.bind_eq_some_iff.mp step
    split_ifs at performs
    rw [← Option.some.inj performs] at conserved ⊢
    apply rested.fewer conserved rfl ⟨rfl, rfl⟩
    intro readers sleeps
    apply sleeps_setCall_awake (List.getElem?_eq_some_iff.mp found).1 _ sleeps
    simp
  | close readSide =>
    rw [← Option.some.inj step] at conserved ⊢
    refine ⟨conserved, awake_iff.mpr ?_, ?_⟩
    · intro readers _
      exact sleeps_close
    · intro readers sleeps
      rw [sleeps_close] at sleeps
      simp at sleeps

theorem pipeCreate_rested {fuel : Nat} {bufferSize : BitVec 32} {data : Nat → UInt8}
    (creates : pipeCreate fuel bufferSize data = some sys) : sys.Rested := by
  have conserved := pipeCreate_conserved creates
  obtain ⟨buffer, inits, rfl⟩ := Option.map_eq_some_iff.mp creates
  refine ⟨conserved, awake_iff.mpr ?_, ?_⟩
  · intro readers _
    rfl
  · intro readers sleeps
    simp [System.sleeps] at sleeps

/-- When no section that finds what it asks for leaves a sleeper of the other side behind, nobody
sleeps next to something to do. -/
theorem rousing_runs_awake {fuel : Nat} {bufferSize : BitVec 32} {data : Nat → UInt8} {start : System}
    {actions : List Action} (creates : pipeCreate fuel bufferSize data = some start)
    (run : Runs RousingStep start actions sys) : sys.Awake := by
  have rested : sys.Rested := by
    apply run.invariant System.Rested (pipeCreate_rested creates)
    intro action state after holds step
    exact RousingStep.rested holds step
  exact rested.awake

end Runs

/-- A read of three bytes sleeps on an empty pipe for two; a write of three bytes fills the pipe, wakes
the reader up and sleeps; the reader takes two bytes, wakes the writer up and sleeps again. -/
def fillingWrite : List Action :=
  [.call (.read 3 (Nat.le_of_ble_eq_true rfl)), .run 0, .call (.write [1, 2, 3] (Nat.le_of_ble_eq_true rfl)), .run 1, .run 0]

theorem fillingWrite_awake :
    ∃ (start sys : System) (actions : List Action), pipeCreate 2 2 (fun _ => 0) = some start ∧
      Runs RousingStep start actions sys ∧ bytesOf sys.taken = [1, 2] ∧ sys.sleeps true = true ∧ sys.Awake := by
  have performs : ((pipeCreate 2 2 (fun _ => 0)).bind fun start =>
      (performAll (fun sys action => action.rouses sys) fillingWrite start).map fun sys =>
        (bytesOf sys.taken, sys.sleeps true)) = some ([1, 2], true) := by
    decide
  obtain ⟨start, creates, performs⟩ := Option.bind_eq_some_iff.mp performs
  obtain ⟨sys, performed, data⟩ := Option.map_eq_some_iff.mp performs
  obtain ⟨actions, run⟩ := runs_performAll .nil performed
  obtain ⟨bytes, sleeps⟩ := Prod.mk.inj data
  exact ⟨start, sys, actions, creates, run, bytes, sleeps, rousing_runs_awake creates run⟩

def contentWrite : List Action :=
  [.call (.read 1 (Nat.le_of_ble_eq_true rfl)), .run 0, .call (.write [1] (Nat.le_of_ble_eq_true rfl)), .run 1]

theorem contentWrite_leavesReader :
    ∃ (start sys : System) (actions : List Action), pipeCreate 2 2 (fun _ => 0) = some start ∧
      Runs Step start actions sys ∧ sys.readSideState = .isOpen ∧ sys.writeSideState = .isOpen ∧
      sys.buffer.content = [1] ∧ sys.sleeps true = true ∧ ¬sys.Awake := by
  have performs : ((pipeCreate 2 2 (fun _ => 0)).bind fun start =>
      (performAll (fun _ _ => true) contentWrite start).map fun sys =>
        (sys.readSideState, sys.writeSideState, sys.buffer.content, sys.sleeps true)) =
          some (.isOpen, .isOpen, [1], true) := by
    decide
  obtain ⟨start, creates, performs⟩ := Option.bind_eq_some_iff.mp performs
  obtain ⟨sys, performed, data⟩ := Option.map_eq_some_iff.mp performs
  obtain ⟨actions, run⟩ := runs_performAll .nil performed
  simp only [Prod.mk.injEq] at data
  obtain ⟨readOpen, writeOpen, content, sleeps⟩ := data
  have steps : Runs Step start actions sys := run.mono fun _ _ _ step => step.1
  refine ⟨start, sys, actions, creates, steps, readOpen, writeOpen, content, sleeps, ?_⟩
  intro awake
  have none := awake.readers (by rw [content]; simp)
  rw [sleeps] at none
  simp at none

end Apollo.Pipe
