import Apollo.Pipe.Pipe

/-!
# A pipe is first-in first-out

The ring buffer stands for a sequence of bytes.  A section of a write appends to
it a part of the caller's bytes, a section of a read takes its front away, and
every other step leaves it alone.
-/

set_option autoImplicit false

namespace Apollo.Pipe

open Klib
open Lib

/-! ## The loops -/

section Loops
variable {readSideState writeSideState : SideState} {buffer : RingBuffer}

theorem getBytes_zero_iff (valid : buffer.Valid) {remaining : Nat} (small : remaining < 2147483648)
    (some : 0 < remaining) :
    (buffer.getBytes (BitVec.ofNat 32 remaining)).1 = 0 ↔ buffer.content = [] := by
  obtain ⟨count, -⟩ := RingBuffer.getBytes_spec valid small
  rw [← List.length_eq_zero_iff]
  constructor
  · intro zero
    rw [zero] at count
    change 0 = _ at count
    omega
  · intro empty
    apply BitVec.eq_of_toNat_eq
    rw [count, empty]
    exact Nat.zero_min _

theorem putBytes_zero_iff (valid : buffer.Valid) {bytes : List UInt8} (small : bytes.length < 2147483648)
    (some : bytes ≠ []) :
    (buffer.putBytes bytes).1 = 0 ↔ buffer.capacity.toNat = buffer.content.length := by
  obtain ⟨count, -⟩ := RingBuffer.putBytes_spec valid small
  have full := valid.content_le
  have positive := List.length_pos_iff.mpr some
  constructor
  · intro zero
    rw [zero] at count
    change 0 = _ at count
    omega
  · intro noRoom
    apply BitVec.eq_of_toNat_eq
    rw [count, noRoom, Nat.sub_self]
    exact Nat.zero_min _

/-- What a section of a read does: it takes what it asks for from the front, and it waits when there
is less. -/
structure ReadSpec (readSideState writeSideState : SideState) (buffer : RingBuffer) (remaining : Nat)
    (result : Ending × List UInt8 × RingBuffer) : Prop where
  bytes : result.2.1 = if readSideState = .isOpen then buffer.content.take remaining else []
  valid : result.2.2.Valid
  capacity : result.2.2.capacity = buffer.capacity
  content : result.2.2.content = if readSideState = .isOpen then buffer.content.drop remaining else buffer.content
  waits : result.1 = .waits ↔
    readSideState = .isOpen ∧ buffer.content.length < remaining ∧ writeSideState = .isOpen

theorem readLoop_spec (valid : buffer.Valid) {fuel remaining : Nat} (small : remaining < 2147483648)
    (enough : remaining < fuel) :
    ReadSpec readSideState writeSideState buffer remaining
      (readLoop readSideState writeSideState fuel remaining buffer) := by
  induction fuel generalizing buffer remaining with
  | zero => omega
  | succ fuel ih =>
    unfold readLoop
    by_cases goesOn : 0 < remaining ∧ readSideState = .isOpen
    · rw [if_pos goesOn]
      obtain ⟨positive, opened⟩ := goesOn
      obtain ⟨count, bytes, valid', capacity, content⟩ := RingBuffer.getBytes_spec valid small
      have zero := getBytes_zero_iff valid small positive
      generalize buffer.getBytes (BitVec.ofNat 32 remaining) = result at count bytes valid' capacity content zero
      rcases result with ⟨nChunkSize, chunk, rest⟩
      simp only at count bytes valid' capacity content zero ⊢
      by_cases nothing : nChunkSize = 0
      · have empty := zero.mp nothing
        have short : buffer.content.length < remaining := by
          rw [empty]
          exact positive
        rw [if_pos nothing]
        by_cases closed : writeSideState = .isClosed
        · rw [if_pos closed]
          refine ⟨by rw [if_pos opened]; exact bytes, valid', capacity, by rw [if_pos opened]; exact content, ?_⟩
          simp [closed]
        · rw [if_neg closed]
          have opened' : writeSideState = .isOpen := by
            cases writeSideState with
            | isOpen => rfl
            | isClosed => exact absurd rfl closed
          refine ⟨by rw [if_pos opened]; exact bytes, valid', capacity, by rw [if_pos opened]; exact content, ?_⟩
          simp [opened, opened', short]
      · rw [if_neg nothing]
        have some : buffer.content ≠ [] := fun empty => nothing (zero.mpr empty)
        have length := List.length_pos_iff.mpr some
        have spec := @ih rest valid' (remaining - nChunkSize.toNat) (by omega) (by omega)
        generalize readLoop readSideState writeSideState fuel (remaining - nChunkSize.toNat) rest = final at spec ⊢
        rcases final with ⟨ending, more, last⟩
        obtain ⟨bytes', valid'', capacity', content', waits⟩ := spec
        simp only [opened, if_true] at bytes' valid'' capacity' content' waits ⊢
        have restLength : rest.content.length = buffer.content.length - remaining := by
          rw [content, List.length_drop]
        refine ⟨?_, valid'', capacity'.trans capacity, ?_, ?_⟩
        · have none : more = [] := by
            rw [bytes', ← List.length_eq_zero_iff, List.length_take]
            omega
          rw [none, List.append_nil]
          exact bytes
        · rw [content', content, List.drop_drop, if_pos rfl, List.drop_eq_drop_iff]
          omega
        · rw [waits, restLength]
          constructor
          · intro ⟨_, less, opened'⟩
            exact ⟨rfl, by omega, opened'⟩
          · intro ⟨_, less, opened'⟩
            exact ⟨trivial, by omega, opened'⟩
    · rw [if_neg goesOn]
      by_cases opened : readSideState = .isOpen
      · have nothing : remaining = 0 := by
          by_contra some
          exact goesOn ⟨by omega, opened⟩
        refine ⟨?_, valid, rfl, ?_, ?_⟩
        · rw [if_pos opened, nothing]
          rfl
        · rw [if_pos opened, nothing]
          rfl
        · simp [nothing]
      · refine ⟨?_, valid, rfl, ?_, ?_⟩
        · rw [if_neg opened]
        · rw [if_neg opened]
        · simp [opened]

/-- What a section of a write does: it appends what fits, and it waits when not everything does. -/
structure WriteSpec (readSideState writeSideState : SideState) (buffer : RingBuffer) (bytes : List UInt8)
    (result : Ending × Nat × RingBuffer) : Prop where
  count : result.2.1 =
    if writeSideState = .isOpen then min (buffer.capacity.toNat - buffer.content.length) bytes.length else 0
  valid : result.2.2.Valid
  capacity : result.2.2.capacity = buffer.capacity
  content : result.2.2.content = buffer.content ++ bytes.take result.2.1
  waits : result.1 = .waits ↔ writeSideState = .isOpen ∧
    buffer.capacity.toNat - buffer.content.length < bytes.length ∧ readSideState = .isOpen

theorem writeLoop_spec (valid : buffer.Valid) {fuel : Nat} {written : Bool} {bytes : List UInt8}
    (small : bytes.length < 2147483648) (enough : bytes.length < fuel) :
    WriteSpec readSideState writeSideState buffer bytes
      (writeLoop readSideState writeSideState fuel written bytes buffer) := by
  induction fuel generalizing buffer bytes written with
  | zero => omega
  | succ fuel ih =>
    unfold writeLoop
    by_cases goesOn : bytes ≠ [] ∧ writeSideState = .isOpen
    · rw [if_pos goesOn]
      obtain ⟨some, opened⟩ := goesOn
      have positive := List.length_pos_iff.mpr some
      have full := valid.content_le
      obtain ⟨count, valid', capacity, content⟩ := RingBuffer.putBytes_spec valid small
      have zero := putBytes_zero_iff valid small some
      generalize buffer.putBytes bytes = result at count valid' capacity content zero
      rcases result with ⟨nChunkSize, rest⟩
      simp only at count valid' capacity content zero ⊢
      by_cases nothing : nChunkSize = 0
      · have noRoom := zero.mp nothing
        have unchanged : rest.content = buffer.content := by
          rw [content, noRoom, Nat.sub_self, List.take_zero, List.append_nil]
        have none : (0 : Nat) =
            if writeSideState = .isOpen then min (buffer.capacity.toNat - buffer.content.length) bytes.length
              else 0 := by
          rw [if_pos opened]
          omega
        have short : buffer.capacity.toNat - buffer.content.length < bytes.length := by omega
        rw [if_pos nothing]
        by_cases closed : readSideState = .isClosed
        · rw [if_pos closed]
          refine ⟨none, valid', capacity, ?_, ?_⟩
          · rw [unchanged, List.take_zero, List.append_nil]
          · simp [closed]
        · rw [if_neg closed]
          have opened' : readSideState = .isOpen := by
            cases readSideState with
            | isOpen => rfl
            | isClosed => exact absurd rfl closed
          refine ⟨none, valid', capacity, ?_, ?_⟩
          · rw [unchanged, List.take_zero, List.append_nil]
          · simp [opened, opened', short]
      · rw [if_neg nothing]
        have chunk : nChunkSize.toNat ≠ 0 := fun zero => nothing (BitVec.eq_of_toNat_eq zero)
        have dropped : (bytes.drop nChunkSize.toNat).length = bytes.length - nChunkSize.toNat := List.length_drop
        have spec := @ih rest valid' true (bytes.drop nChunkSize.toNat) (by omega) (by omega)
        generalize writeLoop readSideState writeSideState fuel true (bytes.drop nChunkSize.toNat) rest = final
          at spec ⊢
        rcases final with ⟨ending, more, last⟩
        obtain ⟨count', valid'', capacity', content', waits⟩ := spec
        have restLength : rest.content.length =
            buffer.content.length + min (buffer.capacity.toNat - buffer.content.length) bytes.length := by
          rw [content, List.length_append, List.length_take]
        simp only [opened, if_true, capacity, restLength, List.length_drop] at count' valid'' capacity' content' waits ⊢
        have none : more = 0 := by omega
        refine ⟨?_, valid'', capacity', ?_, ?_⟩
        · simp only [if_true]
          omega
        · change last.content = buffer.content ++ bytes.take (nChunkSize.toNat + more)
          rw [content', none, List.take_zero, List.append_nil, content, Nat.add_zero, count,
            List.append_cancel_left_eq, List.take_eq_take_iff]
          omega
        · rw [waits]
          constructor
          · intro ⟨_, less, opened'⟩
            exact ⟨rfl, by omega, opened'⟩
          · intro ⟨_, less, opened'⟩
            exact ⟨trivial, by omega, opened'⟩
    · rw [if_neg goesOn]
      by_cases opened : writeSideState = .isOpen
      · have nothing : bytes = [] := by
          by_contra some
          exact goesOn ⟨some, opened⟩
        refine ⟨?_, valid, rfl, ?_, ?_⟩
        · rw [if_pos opened, nothing]
          exact (Nat.min_zero _).symm
        · rw [List.take_zero, List.append_nil]
        · simp [nothing]
      · refine ⟨?_, valid, rfl, ?_, ?_⟩
        · rw [if_neg opened]
        · rw [List.take_zero, List.append_nil]
        · simp [opened]

end Loops

/-! ## What is recorded -/

def bytesOf (record : List (Nat × List UInt8)) : List UInt8 := record.flatMap (·.2)

/-- The bytes that the call at `index` moved. -/
def bytesOfCall (record : List (Nat × List UInt8)) (index : Nat) : List UInt8 :=
  bytesOf (record.filter (·.1 = index))

section Records
variable {record : List (Nat × List UInt8)} {index other : Nat} {bytes : List UInt8}

theorem bytesOf_append : bytesOf (record ++ [(index, bytes)]) = bytesOf record ++ bytes := by
  simp [bytesOf]

theorem bytesOfCall_append_self :
    bytesOfCall (record ++ [(index, bytes)]) index = bytesOfCall record index ++ bytes := by
  simp [bytesOfCall, bytesOf, List.filter_append]

/-- The record goes on with what the call at `index` moved. -/
def Extends (index : Nat) (record record' : List (Nat × List UInt8)) : Prop :=
  ∃ extra, record' = record ++ extra ∧ ∀ entry ∈ extra, entry.1 = index

theorem Extends.refl (index : Nat) (record : List (Nat × List UInt8)) : Extends index record record :=
  ⟨[], (List.append_nil record).symm, fun _ member => absurd member List.not_mem_nil⟩

theorem Extends.entry (record : List (Nat × List UInt8)) (bytes : List UInt8) :
    Extends index record (record ++ [(index, bytes)]) := by
  refine ⟨[(index, bytes)], rfl, ?_⟩
  intro entry member
  rw [List.mem_singleton.mp member]

theorem Extends.bytesOfCall {record' : List (Nat × List UInt8)} (extends' : Extends index record record')
    (differs : index ≠ other) : bytesOfCall record' other = bytesOfCall record other := by
  obtain ⟨extra, rfl, own⟩ := extends'
  have none : extra.filter (·.1 = other) = [] := by
    rw [List.filter_eq_nil_iff]
    intro entry member
    rw [own entry member]
    simpa using differs
  unfold Pipe.bytesOfCall
  rw [List.filter_append, none, List.append_nil]

theorem Extends.bounded {record' : List (Nat × List UInt8)} (extends' : Extends index record record') {count : Nat}
    (inside : index < count) (old : ∀ entry ∈ record, entry.1 < count) : ∀ entry ∈ record', entry.1 < count := by
  obtain ⟨extra, rfl, own⟩ := extends'
  intro entry member
  rcases List.mem_append.mp member with before | new
  · exact old entry before
  · rw [own entry new]
    exact inside

theorem bytesOfCall_fresh (fresh : ∀ entry ∈ record, entry.1 ≠ index) : bytesOfCall record index = [] := by
  have none : record.filter (·.1 = index) = [] := by
    rw [List.filter_eq_nil_iff]
    intro entry member
    simpa using fresh entry member
  unfold bytesOfCall
  rw [none]
  rfl

end Records

/-- What a call has moved: a read has taken `nBytes` bytes, a write has put the first `nBytes`
bytes of its caller. -/
def System.Moved (sys : System) (index : Nat) (nBytes : Nat) : Request → Prop
  | .read _ _ => nBytes = (bytesOfCall sys.taken index).length
  | .write bytes _ => bytesOfCall sys.put index = bytes.take nBytes ∧ nBytes ≤ bytes.length

def Call.progress (call : Call) : Request × Nat := (call.request, call.nBytes)

structure System.Conserved (sys : System) : Prop where
  valid : sys.buffer.Valid
  order : bytesOf sys.taken ++ sys.buffer.content = bytesOf sys.put
  moved : ∀ index request nBytes, (sys.calls.map Call.progress)[index]? = some (request, nBytes) →
    sys.Moved index nBytes request
  taken : ∀ entry ∈ sys.taken, entry.1 < sys.calls.length
  put : ∀ entry ∈ sys.put, entry.1 < sys.calls.length

section Steps
variable {sys : System}

/-- Calls that are woken up or return have moved what they have moved. -/
theorem System.Conserved.relabel (conserved : sys.Conserved) {after : System} (buffer : after.buffer = sys.buffer)
    (records : after.taken = sys.taken ∧ after.put = sys.put)
    (progress : after.calls.map Call.progress = sys.calls.map Call.progress) : after.Conserved := by
  have length : after.calls.length = sys.calls.length := by
    have lengths := congrArg List.length progress
    simpa using lengths
  obtain ⟨taken, put⟩ := records
  refine ⟨?_, ?_, ?_, ?_, ?_⟩
  · rw [buffer]
    exact conserved.valid
  · rw [taken, buffer, put]
    exact conserved.order
  · rw [progress]
    intro index request nBytes found
    have moved := conserved.moved index request nBytes found
    cases request with
    | read nBytesToRead small =>
      change _ = (bytesOfCall after.taken index).length
      rw [taken]
      exact moved
    | write bytes small =>
      change bytesOfCall after.put index = _ ∧ _
      rw [put]
      exact moved
  · rw [taken, length]
    exact conserved.taken
  · rw [put, length]
    exact conserved.put

theorem progress_broadcast (readers : Bool) :
    (sys.broadcast readers).calls.map Call.progress = sys.calls.map Call.progress := by
  unfold System.broadcast
  rw [List.map_map]
  apply List.map_congr_left
  intro call _
  simp only [Function.comp_apply]
  split_ifs
  · rfl
  · rfl

theorem progress_setCall (index : Nat) (call : Call) :
    (sys.setCall index call).calls.map Call.progress = (sys.calls.map Call.progress).set index call.progress := by
  exact List.map_set

theorem progress_finishSection (index : Nat) (call : Call) (ending : Ending) :
    (sys.finishSection index call ending).calls.map Call.progress =
      (sys.calls.map Call.progress).set index call.progress := by
  cases ending with
  | returns error => exact progress_setCall index _
  | waits =>
    unfold System.finishSection
    rw [progress_setCall, progress_broadcast]
    rfl

theorem finishSection_data (index : Nat) (call : Call) (ending : Ending) :
    (sys.finishSection index call ending).buffer = sys.buffer ∧
      (sys.finishSection index call ending).taken = sys.taken ∧
      (sys.finishSection index call ending).put = sys.put := by
  cases ending with
  | returns error => exact ⟨rfl, rfl, rfl⟩
  | waits => exact ⟨rfl, rfl, rfl⟩

theorem set_progress_self {index : Nat} {call : Call} (found : sys.calls[index]? = some call) :
    (sys.calls.map Call.progress).set index call.progress = sys.calls.map Call.progress := by
  have inside := (List.getElem?_eq_some_iff.mp found).1
  apply List.ext_getElem?
  intro other
  rw [List.getElem?_set]
  by_cases same : index = other
  · rw [if_pos same, ← same, if_pos (by rw [List.length_map]; exact inside), List.getElem?_map, found]
    rfl
  · rw [if_neg same]

theorem found_progress {index : Nat} {call : Call} (found : sys.calls[index]? = some call) :
    (sys.calls.map Call.progress)[index]? = some (call.request, call.nBytes) := by
  rw [List.getElem?_map, found]
  rfl

section
variable (conserved : sys.Conserved)
include conserved

theorem System.Conserved.finish {mid : System} {index : Nat} {call call' : Call}
    (found : sys.calls[index]? = some call) (calls : mid.calls = sys.calls) (ending : Ending)
    (valid : mid.buffer.Valid) (order : bytesOf mid.taken ++ mid.buffer.content = bytesOf mid.put)
    (moved : mid.Moved index call'.nBytes call'.request) (taken : Extends index sys.taken mid.taken)
    (put : Extends index sys.put mid.put) : (mid.finishSection index call' ending).Conserved := by
  have inside := (List.getElem?_eq_some_iff.mp found).1
  have progress := @progress_finishSection mid index call' ending
  obtain ⟨sameBuffer, sameTaken, samePut⟩ := @finishSection_data mid index call' ending
  generalize mid.finishSection index call' ending = after at progress sameBuffer sameTaken samePut ⊢
  rw [calls] at progress
  have length : after.calls.length = sys.calls.length := by
    have lengths := congrArg List.length progress
    simpa using lengths
  -- what a call has moved is the same in `after` and in `mid`
  have same : ∀ other nBytes request, mid.Moved other nBytes request → after.Moved other nBytes request := by
    intro other nBytes request moved
    cases request with
    | read _ _ =>
      change nBytes = (bytesOfCall after.taken other).length
      rw [sameTaken]
      exact moved
    | write _ _ =>
      change bytesOfCall after.put other = _ ∧ _
      rw [samePut]
      exact moved
  refine ⟨?_, ?_, ?_, ?_, ?_⟩
  · rw [sameBuffer]
    exact valid
  · rw [sameTaken, sameBuffer, samePut]
    exact order
  · intro other request nBytes entry
    rw [progress, List.getElem?_set] at entry
    apply same
    by_cases own : index = other
    · rw [if_pos own, if_pos (by rw [List.length_map]; omega)] at entry
      obtain ⟨rfl, rfl⟩ := Prod.mk.inj (Option.some.inj entry)
      rw [← own]
      exact moved
    · rw [if_neg own] at entry
      have before := conserved.moved other request nBytes entry
      cases request with
      | read _ _ =>
        change nBytes = (bytesOfCall mid.taken other).length
        rw [taken.bytesOfCall own]
        exact before
      | write _ _ =>
        change bytesOfCall mid.put other = _ ∧ _
        rw [put.bytesOfCall own]
        exact before
  · rw [sameTaken, length]
    exact taken.bounded inside conserved.taken
  · rw [samePut, length]
    exact put.bounded inside conserved.put

theorem System.Conserved.readSection {index : Nat} {call : Call}
    (found : sys.calls[index]? = some call) {nBytesToRead : Nat} (small : nBytesToRead < 2147483648)
    (request : call.request = .read nBytesToRead small) : (sys.readSection index call nBytesToRead).Conserved := by
  have before := conserved.moved index _ _ (found_progress found)
  rw [request] at before
  unfold System.readSection
  dsimp only
  have spec : ReadSpec sys.readSideState sys.writeSideState sys.buffer (nBytesToRead - call.nBytes)
      (readLoop sys.readSideState sys.writeSideState (nBytesToRead - call.nBytes + 1)
        (nBytesToRead - call.nBytes) sys.buffer) :=
    readLoop_spec conserved.valid (by omega) (Nat.lt_succ_self _)
  generalize readLoop sys.readSideState sys.writeSideState (nBytesToRead - call.nBytes + 1)
    (nBytesToRead - call.nBytes) sys.buffer = result at spec ⊢
  rcases result with ⟨ending, bytes, buffer⟩
  obtain ⟨read, valid, -, content, -⟩ := spec
  simp only at read valid content ⊢
  have split : bytes ++ buffer.content = sys.buffer.content := by
    rw [read, content]
    split_ifs
    · exact List.take_append_drop _ _
    · rfl
  refine conserved.finish found ?_ ending ?_ ?_ ?_ ?_ ?_
  · rfl
  · exact valid
  · rw [bytesOf_append, List.append_assoc, split]
    exact conserved.order
  · simp only [request]
    change call.nBytes + bytes.length = (bytesOfCall (sys.taken ++ [(index, bytes)]) index).length
    rw [bytesOfCall_append_self, List.length_append, ← before]
  · exact .entry sys.taken bytes
  · exact .refl index sys.put

/-- A section of a write puts the next bytes of its caller at the end of the buffer. -/
theorem System.Conserved.writeSection {index : Nat} {call : Call}
    (found : sys.calls[index]? = some call) {bytes : List UInt8} (small : bytes.length < 2147483648)
    (request : call.request = .write bytes small) : (sys.writeSection index call bytes).Conserved := by
  have before := conserved.moved index _ _ (found_progress found)
  rw [request] at before
  obtain ⟨sent, upTo⟩ : bytesOfCall sys.put index = bytes.take call.nBytes ∧ call.nBytes ≤ bytes.length := before
  have rest : (bytes.drop call.nBytes).length = bytes.length - call.nBytes := List.length_drop
  unfold System.writeSection
  dsimp only
  have spec : WriteSpec sys.readSideState sys.writeSideState sys.buffer (bytes.drop call.nBytes)
      (writeLoop sys.readSideState sys.writeSideState ((bytes.drop call.nBytes).length + 1)
        (decide (0 < call.nBytes)) (bytes.drop call.nBytes) sys.buffer) :=
    writeLoop_spec conserved.valid (by omega) (Nat.lt_succ_self _)
  generalize writeLoop sys.readSideState sys.writeSideState ((bytes.drop call.nBytes).length + 1)
    (decide (0 < call.nBytes)) (bytes.drop call.nBytes) sys.buffer = result at spec ⊢
  rcases result with ⟨ending, count, buffer⟩
  obtain ⟨written, valid, -, content, -⟩ := spec
  simp only at written valid content ⊢
  have fits : count ≤ bytes.length - call.nBytes := by
    rw [written]
    split_ifs <;> omega
  refine conserved.finish found ?_ ending ?_ ?_ ?_ ?_ ?_
  · rfl
  · exact valid
  · rw [bytesOf_append, content, ← List.append_assoc, conserved.order]
  · simp only [request]
    change bytesOfCall (sys.put ++ [(index, (bytes.drop call.nBytes).take count)]) index =
      bytes.take (call.nBytes + count) ∧ call.nBytes + count ≤ bytes.length
    rw [bytesOfCall_append_self, sent]
    exact ⟨List.take_add.symm, by omega⟩
  · exact .refl index sys.taken
  · exact .entry sys.put ((bytes.drop call.nBytes).take count)

theorem System.Conserved.runSection {index : Nat} {call : Call}
    (found : sys.calls[index]? = some call) : (sys.runSection index call).Conserved := by
  unfold System.runSection
  cases request : call.request with
  | read nBytesToRead small => exact conserved.readSection found small request
  | write bytes small => exact conserved.writeSection found small request

theorem System.Conserved.setPlace {index : Nat} {call : Call} (found : sys.calls[index]? = some call) (place : Place) :
    (sys.setCall index { call with place := place }).Conserved := by
  refine conserved.relabel rfl ⟨rfl, rfl⟩ ?_
  rw [progress_setCall]
  change (sys.calls.map Call.progress).set index call.progress = _
  exact set_progress_self found

theorem System.Conserved.broadcast (readers : Bool) : (sys.broadcast readers).Conserved :=
  conserved.relabel rfl ⟨rfl, rfl⟩ (progress_broadcast readers)

/-- A call that has just started has moved nothing. -/
theorem System.Conserved.call (request : Request) (place : Place) : System.Conserved { sys with calls := sys.calls ++ [⟨request, 0, place⟩] } := by
  have later : sys.calls.length ≤ (sys.calls ++ [(⟨request, 0, place⟩ : Call)]).length := by simp
  refine ⟨conserved.valid, conserved.order, ?_, ?_, ?_⟩
  · intro index request' nBytes entry
    simp only [List.map_append] at entry
    by_cases old : index < (sys.calls.map Call.progress).length
    · rw [List.getElem?_append_left old] at entry
      exact conserved.moved index request' nBytes entry
    · have here : index = sys.calls.length := by
        rw [List.length_map] at old
        have bound := (List.getElem?_eq_some_iff.mp entry).1
        simp at bound
        omega
      rw [List.getElem?_append_right (by omega), here] at entry
      simp only [List.length_map, Nat.sub_self, List.map_cons, List.getElem?_cons_zero, Call.progress,
        Option.some.injEq, Prod.mk.injEq] at entry
      obtain ⟨rfl, rfl⟩ := entry
      have fresh : ∀ record : List (Nat × List UInt8), (∀ entry ∈ record, entry.1 < sys.calls.length) →
          bytesOfCall record index = [] := by
        intro record bounded
        apply bytesOfCall_fresh
        intro entry member
        rw [here]
        exact Nat.ne_of_lt (bounded entry member)
      cases request with
      | read _ _ =>
        change 0 = (bytesOfCall sys.taken index).length
        rw [fresh sys.taken conserved.taken]
        rfl
      | write bytes _ =>
        change bytesOfCall sys.put index = bytes.take 0 ∧ 0 ≤ bytes.length
        rw [fresh sys.put conserved.put]
        exact ⟨rfl, Nat.zero_le _⟩
  · intro entry member
    exact lt_of_lt_of_le (conserved.taken entry member) later
  · intro entry member
    exact lt_of_lt_of_le (conserved.put entry member) later

end

theorem Step.conserved {action : Action} {after : System} (conserved : sys.Conserved)
    (step : Step sys action after) : after.Conserved := by
  cases action with
  | call request =>
    rw [← Option.some.inj step]
    exact conserved.call request _
  | run index =>
    obtain ⟨call, found, performs⟩ := Option.bind_eq_some_iff.mp step
    split_ifs at performs
    rw [← Option.some.inj performs]
    exact conserved.runSection found
  | interrupt index =>
    obtain ⟨call, found, performs⟩ := Option.bind_eq_some_iff.mp step
    split_ifs at performs
    rw [← Option.some.inj performs]
    exact conserved.setPlace found _
  | leave index =>
    obtain ⟨call, found, performs⟩ := Option.bind_eq_some_iff.mp step
    split_ifs at performs
    rw [← Option.some.inj performs]
    exact conserved.setPlace found _
  | close readSide =>
    rw [← Option.some.inj step]
    cases readSide with
    | true =>
      have closed : System.Conserved { sys with readSideState := .isClosed } :=
        conserved.relabel rfl ⟨rfl, rfl⟩ rfl
      exact (closed.broadcast true).broadcast false
    | false =>
      have closed : System.Conserved { sys with writeSideState := .isClosed } :=
        conserved.relabel rfl ⟨rfl, rfl⟩ rfl
      exact (closed.broadcast true).broadcast false

theorem pipeCreate_conserved {fuel : Nat} {bufferSize : BitVec 32} {data : Nat → UInt8}
    (creates : pipeCreate fuel bufferSize data = some sys) : sys.Conserved := by
  obtain ⟨buffer, inits, rfl⟩ := Option.map_eq_some_iff.mp creates
  obtain ⟨valid, empty⟩ := RingBuffer.init_spec inits
  refine ⟨valid, ?_, ?_, ?_, ?_⟩
  · rw [empty]
    rfl
  · intro index request nBytes entry
    simp at entry
  · exact fun entry member => absurd member List.not_mem_nil
  · exact fun entry member => absurd member List.not_mem_nil

end Steps

/-! ## Runs -/

/-- The bytes that readers got, followed by the bytes in the buffer, are those that writers put; a
read reports the number of bytes that it got, and a write has put the part of its bytes that it
reports. -/
structure System.IsFifo (sys : System) : Prop where
  order : bytesOf sys.taken ++ sys.buffer.content = bytesOf sys.put
  reads : ∀ (index nBytesToRead : Nat) (small : nBytesToRead < 2147483648) (call : Call),
    sys.calls[index]? = some call → call.request = .read nBytesToRead small →
      call.nBytes = (bytesOfCall sys.taken index).length
  writes : ∀ (index : Nat) (bytes : List UInt8) (small : bytes.length < 2147483648) (call : Call),
    sys.calls[index]? = some call → call.request = .write bytes small →
      call.nBytes = (bytesOfCall sys.put index).length ∧ bytesOfCall sys.put index = bytes.take call.nBytes

/-- A pipe of any capacity with any number of callers is first-in first-out. -/
theorem runs_isFifo {fuel : Nat} {bufferSize : BitVec 32} {data : Nat → UInt8} {start sys : System}
    {actions : List Action} (creates : pipeCreate fuel bufferSize data = some start)
    (run : Runs Step start actions sys) : sys.IsFifo := by
  have conserved : sys.Conserved := by
    refine run.invariant System.Conserved (pipeCreate_conserved creates) ?_
    intro action state after holds step
    exact Step.conserved holds step
  refine ⟨conserved.order, ?_, ?_⟩
  · intro index nBytesToRead small call found request
    have moved := conserved.moved index _ _ (found_progress found)
    rw [request] at moved
    exact moved
  · intro index bytes small call found request
    have moved := conserved.moved index _ _ (found_progress found)
    rw [request] at moved
    obtain ⟨sent, upTo⟩ : bytesOfCall sys.put index = bytes.take call.nBytes ∧ call.nBytes ≤ bytes.length := moved
    refine ⟨?_, sent⟩
    rw [sent, List.length_take]
    omega

def threeBytes : List Action :=
  [.call (.write [1, 2, 3] (by decide)), .run 0, .call (.read 4 (by decide)), .run 1, .run 0,
    .call (.read 1 (by decide)), .run 2]

theorem threeBytes_isFifo :
    ∃ (start sys : System) (actions : List Action), pipeCreate 2 2 (fun _ => 0) = some start ∧
      Runs Step start actions sys ∧ bytesOf sys.taken = [1, 2, 3] ∧ sys.IsFifo := by
  have performs : ((pipeCreate 2 2 (fun _ => 0)).bind fun start =>
      (performAll (fun _ _ => true) threeBytes start).map fun sys => bytesOf sys.taken) = some [1, 2, 3] := by
    decide
  obtain ⟨start, creates, performs⟩ := Option.bind_eq_some_iff.mp performs
  obtain ⟨sys, performed, bytes⟩ := Option.map_eq_some_iff.mp performs
  obtain ⟨actions, run⟩ := runs_performAll .nil performed
  have steps : Runs Step start actions sys := run.mono fun _ _ _ step => step.1
  exact ⟨start, sys, actions, creates, steps, bytes, runs_isFifo creates steps⟩

end Apollo.Pipe
