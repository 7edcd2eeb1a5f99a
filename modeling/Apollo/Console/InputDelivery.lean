import Apollo.Console.ConsoleInput

/-!
# Console input is delivered whole and in order

The reports queue holds whole reports, each with its NUL.  What a reader gets is a
sequence of whole units, which are reports and the byte sequences of key events; the
rest of the last one may still be in the buffer of the channel.
-/

set_option autoImplicit false

namespace Apollo.Klib.RingBuffer

variable {buffer : RingBuffer}

theorem getByte_empty (empty : buffer.content = []) : buffer.getByte = none := by
  have length := Valid.length_content buffer
  rw [empty, List.length_nil] at length
  have same : buffer.writeIdx = buffer.readIdx := by
    rw [Valid.writeIdx_eq buffer, ← length, BitVec.add_zero]
  unfold getByte
  rw [if_pos same.symm]

/-- `RingBuffer_GetByte` takes the oldest byte. -/
theorem getByte_cons {byte : UInt8} {rest : List UInt8} (content : buffer.content = byte :: rest) (valid : buffer.Valid) :
    ∃ after, buffer.getByte = some (byte, after) ∧ after.Valid ∧ after.capacity = buffer.capacity ∧ after.content = rest := by
  have length := Valid.length_content buffer
  rw [content, List.length_cons] at length
  have different : ¬buffer.readIdx = buffer.writeIdx := by
    intro same
    have zero : buffer.readableCount.toNat = 0 := by
      unfold readableCount
      rw [same, BitVec.sub_self]
      rfl
    omega
  have count : ({ buffer with readIdx := buffer.readIdx + 1 } : RingBuffer).readableCount.toNat = rest.length := by
    have one : (1 : BitVec 32).toNat = 1 := rfl
    have step : buffer.writeIdx - (buffer.readIdx + 1) = buffer.readableCount - 1 := by
      unfold readableCount
      bv_omega
    change (buffer.writeIdx - (buffer.readIdx + 1)).toNat = _
    rw [step, BitVec.toNat_sub_of_le (by rw [BitVec.le_def, one, ← length]; omega), one, ← length, Nat.add_sub_cancel]
  unfold RingBuffer.content at content
  rw [← length, copyOut, List.cons.injEq] at content
  refine ⟨{ buffer with readIdx := buffer.readIdx + 1 }, by rw [getByte, if_neg different, content.1], ⟨valid.power, ?_⟩, rfl, ?_⟩
  · rw [count]
    have := valid.bounded
    change rest.length ≤ buffer.capacity.toNat
    omega
  · unfold RingBuffer.content
    rw [count]
    exact content.2

end Apollo.Klib.RingBuffer

namespace Apollo.Console

open Klib Lib

/-! ## The reports queue -/

def encode (reports : List Report) : List UInt8 := reports.flatMap fun report => report.text ++ [0]

def reportsCapacity : Nat := 128

structure Holds (queue : RingBuffer) (reports : List Report) : Prop where
  valid : queue.Valid
  capacity : queue.capacity.toNat = reportsCapacity
  content : queue.content = encode reports

theorem encode_cons (report : Report) (reports : List Report) :
    encode (report :: reports) = report.text ++ 0 :: encode reports := by
  unfold encode
  rw [List.flatMap_cons, List.append_assoc, List.singleton_append]

theorem length_encode_cons (report : Report) (reports : List Report) :
    (encode (report :: reports)).length = report.text.length + 1 + (encode reports).length := by
  rw [encode_cons, List.length_append, List.length_cons]
  omega

theorem length_le_encode (reports : List Report) : reports.length ≤ (encode reports).length := by
  induction reports with
  | nil => exact Nat.le_refl _
  | cons report rest ih =>
    rw [length_encode_cons, List.length_cons]
    omega

section Queue
variable {queue : RingBuffer} {reports : List Report} {report : Report}

theorem Holds.readable (holds : Holds queue reports) : queue.readableCount.toNat = (encode reports).length := by
  rw [← RingBuffer.Valid.length_content, holds.content]

theorem Holds.writable (holds : Holds queue reports) :
    queue.writableCount.toNat = reportsCapacity - (encode reports).length := by
  rw [holds.valid.writableCount_toNat, holds.capacity, holds.content]

theorem removeReport_spec {text more : List UInt8} (nulFree : ∀ byte ∈ text, byte ≠ 0) {fuel : Nat} (enough : text.length < fuel)
    (valid : queue.Valid) (content : queue.content = text ++ 0 :: more) :
    ∃ after, removeReport fuel queue = some after ∧ after.Valid ∧ after.capacity = queue.capacity ∧ after.content = more := by
  induction text generalizing queue fuel with
  | nil =>
    obtain ⟨fuel, rfl⟩ := Nat.exists_eq_succ_of_ne_zero (Nat.ne_zero_of_lt enough)
    obtain ⟨after, taken, rest⟩ := RingBuffer.getByte_cons content valid
    refine ⟨after, ?_, rest⟩
    rw [removeReport, taken]
    rfl
  | cons byte text ih =>
    obtain ⟨fuel, rfl⟩ := Nat.exists_eq_succ_of_ne_zero (Nat.ne_zero_of_lt enough)
    obtain ⟨middle, taken, valid', capacity', content'⟩ := RingBuffer.getByte_cons content valid
    obtain ⟨after, removed, valid'', capacity'', rest⟩ := ih (fun other later => nulFree other (List.mem_cons_of_mem _ later))
      (Nat.lt_of_succ_lt_succ enough) valid' content'
    refine ⟨after, ?_, valid'', capacity''.trans capacity', rest⟩
    rw [removeReport, taken]
    exact (if_neg (nulFree byte List.mem_cons_self)).trans removed

theorem removeReport_holds (holds : Holds queue (report :: reports)) :
    ∃ after, removeReport (queue.readableCount.toNat + 1) queue = some after ∧ Holds after reports := by
  have content := holds.content
  have readable := holds.readable
  rw [encode_cons] at content
  rw [length_encode_cons] at readable
  have enough : report.text.length < queue.readableCount.toNat + 1 := by omega
  obtain ⟨after, removed, valid, capacity, rest⟩ := removeReport_spec report.nulFree enough holds.valid content
  exact ⟨after, removed, valid, capacity ▸ holds.capacity, rest⟩

theorem makeSpace_spec (holds : Holds queue reports) {nBytesToWrite fuel : Nat} (fits : nBytesToWrite ≤ reportsCapacity)
    (enough : reports.length < fuel) :
    ∃ dropped kept after, reports = dropped ++ kept ∧ makeSpace nBytesToWrite fuel queue = some after ∧ Holds after kept ∧
      (∀ count < dropped.length, reportsCapacity - (encode (reports.drop count)).length < nBytesToWrite) ∧
      nBytesToWrite ≤ reportsCapacity - (encode kept).length := by
  induction reports generalizing queue fuel with
  | nil =>
    obtain ⟨fuel, rfl⟩ := Nat.exists_eq_succ_of_ne_zero (Nat.ne_zero_of_lt enough)
    have space : ¬queue.writableCount.toNat < nBytesToWrite := Nat.not_lt_of_le (holds.writable ▸ fits)
    refine ⟨[], [], queue, rfl, ?_, holds, nofun, fits⟩
    rw [makeSpace, if_neg space]
  | cons report reports ih =>
    obtain ⟨fuel, rfl⟩ := Nat.exists_eq_succ_of_ne_zero (Nat.ne_zero_of_lt enough)
    by_cases space : queue.writableCount.toNat < nBytesToWrite
    · obtain ⟨middle, removed, holds'⟩ := removeReport_holds holds
      obtain ⟨dropped, kept, after, split, made, holds'', tight, room⟩ := ih holds' (Nat.lt_of_succ_lt_succ enough)
      refine ⟨report :: dropped, kept, after, by rw [split, List.cons_append], ?_, holds'', ?_, room⟩
      · rw [makeSpace, if_pos space, removed]
        exact made
      · intro count below
        cases count with
        | zero => exact holds.writable ▸ space
        | succ count => exact tight count (Nat.lt_of_succ_lt_succ below)
    · refine ⟨[], report :: reports, queue, rfl, ?_, holds, nofun, ?_⟩
      · rw [makeSpace, if_neg space]
      · rw [← holds.writable]
        exact Nat.le_of_not_lt space

/-- A report is queued, and the oldest reports are dropped as long as there is not enough space for it. -/
theorem postReport_spec (holds : Holds queue reports) (report : Report) :
    ∃ dropped kept after, reports = dropped ++ kept ∧ postReport queue report.text = some after ∧ Holds after (kept ++ [report]) ∧
      ∀ count < dropped.length, reportsCapacity - (encode (reports.drop count)).length < report.text.length + 1 := by
  have short : report.text.length < 16 := report.short
  have capacity : reportsCapacity = 128 := rfl
  have enough : reports.length < queue.readableCount.toNat + 1 := by
    rw [holds.readable]
    exact Nat.lt_succ_of_le (length_le_encode reports)
  obtain ⟨dropped, kept, middle, split, made, holds', tight, room⟩ :=
    makeSpace_spec holds (show report.text.length + 1 ≤ reportsCapacity by omega) enough
  have total : (report.text ++ [0]).length = report.text.length + 1 := List.length_append
  obtain ⟨-, valid, same, content⟩ := RingBuffer.putBytes_spec holds'.valid (show (report.text ++ [0]).length < 2147483648 by omega)
  refine ⟨dropped, kept, (middle.putBytes (report.text ++ [0])).2, split, ?_, ⟨valid, same ▸ holds'.capacity, ?_⟩, tight⟩
  · unfold postReport
    rw [if_pos (show report.text.length + 1 < maxMessageLength + 1 from Nat.succ_lt_succ short), made]
    rfl
  · rw [content, holds'.capacity, holds'.content, List.take_of_length_le (by omega)]
    unfold encode
    rw [List.flatMap_append, List.flatMap_singleton]

end Queue

/-! ## Units -/

inductive InputUnit
  | report (report : Report)
  | key (sequence : List UInt8)

def InputUnit.bytes : InputUnit → List UInt8
  | .report posted => posted.text
  | .key sequence => sequence

def bytesOf (units : List InputUnit) : List UInt8 := units.flatMap InputUnit.bytes

/-- The bytes that were sent are whole units, behind which the last one may be split: its rest is still to be sent. -/
def Delivered (units : List InputUnit) (sent rest : List UInt8) : Prop :=
  ∃ complete head, sent = bytesOf complete ++ head ∧
    ((units = complete ∧ head = [] ∧ rest = []) ∨ ∃ last, units = complete ++ [last] ∧ last.bytes = head ++ rest)

section Units
variable {units : List InputUnit} {sent rest : List UInt8}

theorem bytesOf_append (units more : List InputUnit) : bytesOf (units ++ more) = bytesOf units ++ bytesOf more :=
  List.flatMap_append

theorem bytesOf_singleton (unit : InputUnit) : bytesOf [unit] = unit.bytes := List.flatMap_singleton _ _

theorem delivered_nil : Delivered [] [] [] := ⟨[], [], rfl, .inl ⟨rfl, rfl, rfl⟩⟩

theorem Delivered.whole (delivered : Delivered units sent []) : sent = bytesOf units := by
  obtain ⟨complete, head, same, ⟨rfl, rfl, -⟩ | ⟨last, rfl, split⟩⟩ := delivered
  · rw [same, List.append_nil]
  · rw [same, bytesOf_append, bytesOf_singleton, split, List.append_nil]

theorem Delivered.start (delivered : Delivered units sent []) (unit : InputUnit) (count : Nat) :
    Delivered (units ++ [unit]) (sent ++ unit.bytes.take count) (unit.bytes.drop count) :=
  ⟨units, unit.bytes.take count, by rw [delivered.whole], .inr ⟨unit, rfl, (List.take_append_drop _ _).symm⟩⟩

theorem Delivered.more (delivered : Delivered units sent rest) (count : Nat) :
    Delivered units (sent ++ rest.take count) (rest.drop count) := by
  obtain ⟨complete, head, same, ⟨rfl, rfl, rfl⟩ | ⟨last, rfl, split⟩⟩ := delivered
  · exact ⟨units, [], by rw [same, List.take_nil, List.append_nil], .inl ⟨rfl, rfl, List.drop_nil⟩⟩
  · refine ⟨complete, head ++ rest.take count, by rw [same, List.append_assoc], .inr ⟨last, rfl, ?_⟩⟩
    rw [split, List.append_assoc, List.take_append_drop]

end Units

/-! ## The buffer of the channel -/

structure ConsoleChannel.Sound (channel : ConsoleChannel) : Prop where
  length : channel.rdBuffer.length = maxMessageLength
  inside : channel.rdIndex + channel.rdCount ≤ maxMessageLength

def ConsoleChannel.rest (channel : ConsoleChannel) : List UInt8 := (channel.rdBuffer.drop channel.rdIndex).take channel.rdCount

section Channel
variable {rdBuffer : List UInt8} {channel : ConsoleChannel} {queue : RingBuffer} {reports : List Report}

theorem copyFrom_eq {rdCount i : Nat} (space : Nat) (inside : i + rdCount ≤ rdBuffer.length) :
    copyFrom rdBuffer space i rdCount =
      some ((rdBuffer.drop i).take (min space rdCount), i + min space rdCount, rdCount - min space rdCount) := by
  induction rdCount generalizing space i with
  | zero =>
    rw [copyFrom, Nat.min_zero, List.take_zero]
    rfl
  | succ rdCount ih =>
    cases space with
    | zero =>
      rfl
    | succ space =>
      have here : i < rdBuffer.length := by omega
      rw [copyFrom, List.getElem?_eq_getElem here, ih space (by omega), Nat.succ_min_succ, List.drop_eq_getElem_cons here,
        List.take_succ_cons]
      simp only [Option.bind_eq_bind, Option.bind_some, Option.some.injEq, Prod.mk.injEq, true_and]
      omega

/-- A prefix of the bytes is copied, and the others stay. -/
theorem copyFrom_spec {rdCount i : Nat} (space : Nat) (inside : i + rdCount ≤ rdBuffer.length) :
    ∃ i' rdCount', copyFrom rdBuffer space i rdCount = some (((rdBuffer.drop i).take rdCount).take space, i', rdCount') ∧
      (rdBuffer.drop i').take rdCount' = ((rdBuffer.drop i).take rdCount).drop space ∧ i' + rdCount' = i + rdCount ∧
      rdCount' = rdCount - space := by
  refine ⟨i + min space rdCount, rdCount - min space rdCount, ?_, ?_, by omega, by omega⟩
  · rw [copyFrom_eq space inside, List.take_take]
  · rw [List.drop_take, List.drop_drop]
    by_cases short : space ≤ rdCount
    · rw [Nat.min_eq_left short]
    · have none : rdCount - space = 0 := by omega
      rw [Nat.min_eq_right (by omega), Nat.sub_self, none, List.take_zero, List.take_zero]

theorem takeReport_empty (holds : Holds queue []) (fuel : Nat) (channel : ConsoleChannel) :
    takeReport (fuel + 1) queue channel = some (false, queue, channel) := by
  rw [takeReport, RingBuffer.getByte_empty holds.content]

theorem takeReport_spec {text more : List UInt8} (nulFree : ∀ byte ∈ text, byte ≠ 0) {fuel : Nat} (enough : text.length < fuel)
    (valid : queue.Valid) (content : queue.content = text ++ 0 :: more) (room : channel.rdCount + text.length ≤ channel.rdBuffer.length) :
    ∃ after channel', takeReport fuel queue channel = some (true, after, channel') ∧ after.Valid ∧ after.capacity = queue.capacity ∧
      after.content = more ∧ channel'.rdBuffer.length = channel.rdBuffer.length ∧ channel'.rdIndex = channel.rdIndex ∧
      channel'.rdCount = channel.rdCount + text.length ∧
      channel'.rdBuffer.take channel'.rdCount = channel.rdBuffer.take channel.rdCount ++ text := by
  induction text generalizing queue fuel channel with
  | nil =>
    obtain ⟨fuel, rfl⟩ := Nat.exists_eq_succ_of_ne_zero (Nat.ne_zero_of_lt enough)
    obtain ⟨after, taken, valid, capacity, rest⟩ := RingBuffer.getByte_cons content valid
    refine ⟨after, channel, ?_, valid, capacity, rest, rfl, rfl, rfl, (List.append_nil _).symm⟩
    rw [takeReport, taken]
    rfl
  | cons byte text ih =>
    obtain ⟨fuel, rfl⟩ := Nat.exists_eq_succ_of_ne_zero (Nat.ne_zero_of_lt enough)
    rw [List.length_cons] at room
    have inside : channel.rdCount < channel.rdBuffer.length := by omega
    obtain ⟨middle, taken, valid', capacity', content'⟩ := RingBuffer.getByte_cons content valid
    have length : (channel.rdBuffer.set channel.rdCount byte).length = channel.rdBuffer.length := List.length_set
    obtain ⟨after, channel', found, valid'', capacity'', rest, length', index, count, buffer⟩ :=
      @ih { channel with rdBuffer := channel.rdBuffer.set channel.rdCount byte, rdCount := channel.rdCount + 1 } middle
        (fun other later => nulFree other (List.mem_cons_of_mem _ later)) fuel (Nat.lt_of_succ_lt_succ enough) valid' content'
        (by
          dsimp only
          omega)
    refine ⟨after, channel', ?_, valid'', capacity''.trans capacity', rest, length'.trans length, index, ?_, ?_⟩
    · rw [takeReport, taken]
      dsimp only
      rw [if_neg (nulFree byte List.mem_cons_self), if_pos inside]
      exact found
    · rw [count, List.length_cons]
      dsimp only
      omega
    · rw [buffer]
      rw [List.take_add_one, List.take_set_of_le (Nat.le_refl _), List.getElem?_set_self inside, Option.toList_some,
        List.append_assoc, List.singleton_append]

/-- Whole reports are read; what does not fit of the last one stays in the buffer of the channel. -/
theorem readReports_spec (holds : Holds queue reports) (length : channel.rdBuffer.length = maxMessageLength)
    (empty : channel.rdCount = 0) (index : channel.rdIndex ≤ maxMessageLength) {fuel : Nat} (enough : reports.length < fuel) (space : Nat) :
    ∃ bytes after channel' taken kept, readReports fuel space queue channel = some (bytes, after, channel') ∧
      reports = taken ++ kept ∧ Holds after kept ∧ channel'.Sound ∧ bytes.length ≤ space ∧
      (bytes.length < space → channel'.rdCount = 0) ∧
      ∀ units sent, Delivered units sent [] →
        Delivered (units ++ taken.map InputUnit.report) (sent ++ bytes) channel'.rest := by
  induction reports generalizing queue channel fuel space with
  | nil =>
    obtain ⟨fuel, rfl⟩ := Nat.exists_eq_succ_of_ne_zero (Nat.ne_zero_of_lt enough)
    have rest : channel.rest = [] := by
      unfold ConsoleChannel.rest
      rw [empty, List.take_zero]
    refine ⟨[], queue, channel, [], [], ?_, rfl, holds, ⟨length, by omega⟩, Nat.zero_le _, fun _ => empty, fun units sent delivered => ?_⟩
    · rw [readReports]
      by_cases full : space = 0
      · rw [if_pos full]
      · rw [if_neg full, takeReport_empty holds]
        rfl
    · rw [rest, List.map_nil, List.append_nil, List.append_nil]
      exact delivered
  | cons report reports ih =>
    obtain ⟨fuel, rfl⟩ := Nat.exists_eq_succ_of_ne_zero (Nat.ne_zero_of_lt enough)
    rw [readReports]
    by_cases full : space = 0
    · have rest : channel.rest = [] := by
        unfold ConsoleChannel.rest
        rw [empty, List.take_zero]
      refine ⟨[], queue, channel, [], report :: reports, if_pos full, rfl, holds, ⟨length, by omega⟩, Nat.zero_le _,
        fun _ => empty, fun units sent delivered => ?_⟩
      rw [rest, List.map_nil, List.append_nil, List.append_nil]
      exact delivered
    · have content := holds.content
      have readable := holds.readable
      have short : report.text.length < maxMessageLength := report.short
      rw [encode_cons] at content
      rw [length_encode_cons] at readable
      have enoughBytes : report.text.length < queue.readableCount.toNat + 1 := by omega
      obtain ⟨after, channel', found, valid, capacity, rest, length', index', count, buffer⟩ :=
        takeReport_spec report.nulFree enoughBytes holds.valid content
          (show channel.rdCount + report.text.length ≤ channel.rdBuffer.length by omega)
      rw [empty, List.take_zero, List.nil_append] at buffer
      have holds' : Holds after reports := ⟨valid, capacity ▸ holds.capacity, rest⟩
      obtain ⟨i, rdCount, copied, left, total, number⟩ :=
        copyFrom_spec space (show 0 + channel'.rdCount ≤ channel'.rdBuffer.length by omega)
      rw [List.drop_zero, buffer] at copied left
      rw [if_neg full, found]
      simp only [Option.bind_eq_bind, Option.bind_some, if_true, copied]
      have sentLength : (report.text.take space).length = min space report.text.length := List.length_take
      by_cases split : rdCount > 0
      · -- the report does not fit
        refine ⟨_, _, _, [report], reports, if_pos split, rfl, holds', ⟨length'.trans length, ?_⟩, ?_, ?_, ?_⟩
        · dsimp only
          omega
        · omega
        · omega
        · intro units sent delivered
          change Delivered _ _ ((channel'.rdBuffer.drop i).take rdCount)
          rw [left]
          exact delivered.start (.report report) space
      · have whole : report.text.take space = report.text := List.take_of_length_le (by omega)
        obtain ⟨bytes, final, channel'', taken, kept, read, parts, holds'', sound, fits, ended, sends⟩ :=
          @ih { channel' with rdCount := 0 } after holds' (length'.trans length) rfl (by dsimp only; omega) fuel
            (Nat.lt_of_succ_lt_succ enough) (space - report.text.length)
        rw [if_neg split, whole, read]
        refine ⟨_, _, _, report :: taken, kept, rfl, by rw [parts, List.cons_append], holds'', sound, ?_, ?_, ?_⟩
        · rw [List.length_append]
          dsimp only
          omega
        · intro less
          rw [List.length_append] at less
          dsimp only at less
          exact ended (by omega)
        · intro units sent delivered
          have started := delivered.start (.report report) report.text.length
          have drop : (InputUnit.report report).bytes.drop report.text.length = [] := List.drop_length
          have take : (InputUnit.report report).bytes.take report.text.length = report.text := List.take_length
          rw [drop, take] at started
          have all := sends _ _ started
          rw [List.append_assoc, List.append_assoc] at all
          exact all

end Channel

/-! ## Calls -/

structure InputSystem.Sound (sys : InputSystem) (reports : List Report) : Prop where
  holds : Holds sys.reportsQueue reports
  channel : sys.channel.Sound
  waiting : ∀ reading, sys.reading = some reading → sys.channel.rdCount = 0 ∧ reading.pBuffer.length < reading.nBytesToRead

def bytesReturned (result : Option ReadResult) : List UInt8 := result.elim [] ReadResult.bytes

theorem ConsoleChannel.rest_nil {channel : ConsoleChannel} (empty : channel.rdCount = 0) : channel.rest = [] := by
  unfold rest
  rw [empty, List.take_zero]

theorem length_copyTrapString_le {image text : List UInt8} {offset maxOutChars : Nat}
    (copied : copyTrapString image offset maxOutChars = some text) : text.length ≤ maxOutChars := by
  induction maxOutChars generalizing offset text with
  | zero =>
    obtain ⟨-, -, same⟩ := Option.bind_eq_some_iff.mp copied
    rw [← Option.some.inj same]
    exact Nat.le_refl _
  | succ maxOutChars ih =>
    obtain ⟨byte, -, later⟩ := Option.bind_eq_some_iff.mp copied
    by_cases zero : byte = 0
    · rw [if_pos zero] at later
      rw [← Option.some.inj later]
      exact Nat.zero_le _
    · rw [if_neg zero] at later
      obtain ⟨rest, found, same⟩ := Option.bind_eq_some_iff.mp later
      rw [← Option.some.inj same]
      exact Nat.succ_le_succ (ih found)

theorem length_mapType0 {image bytes : List UInt8} {range : KeyMapRange} {event : KeyEvent}
    (mapped : mapType0 image range event = some bytes) : bytes.length = 1 := by
  obtain ⟨selected, -, found⟩ := Option.bind_eq_some_iff.mp mapped
  by_cases zero : selected = 0
  · rw [if_pos zero] at found
    obtain ⟨ch, -, same⟩ := Option.bind_eq_some_iff.mp found
    rw [← Option.some.inj same]
    rfl
  · rw [if_neg zero] at found
    rw [← Option.some.inj found]
    rfl

/-- `KeyMap_Map` stores no more bytes than there is space for. -/
theorem length_keyMapMap_le {image bytes : List UInt8} {event : KeyEvent} {maxOutBytes : Nat}
    (mapped : keyMapMap image event maxOutBytes = some bytes) : bytes.length ≤ maxOutBytes := by
  have ranges (count index : Nat) (positive : 0 < maxOutBytes) (found : mapRanges image event maxOutBytes index count = some bytes) :
      bytes.length ≤ maxOutBytes := by
    induction count generalizing index with
    | zero =>
      rw [← Option.some.inj found]
      exact Nat.zero_le _
    | succ count ih =>
      obtain ⟨offset, -, found⟩ := Option.bind_eq_some_iff.mp found
      obtain ⟨range, -, found⟩ := Option.bind_eq_some_iff.mp found
      split_ifs at found with within type0 type3
      · rw [length_mapType0 found]
        exact positive
      · obtain ⟨trap, -, found⟩ := Option.bind_eq_some_iff.mp found
        exact length_copyTrapString_le found
      · rw [← Option.some.inj found]
        exact Nat.zero_le _
      · exact ih _ found
  unfold keyMapMap at mapped
  split_ifs at mapped with positive
  · obtain ⟨rangeCount, -, found⟩ := Option.bind_eq_some_iff.mp mapped
    exact ranges rangeCount 0 positive found
  · rw [← Option.some.inj mapped]
    exact Nat.zero_le _

section Calls
variable {sys : InputSystem} {reports : List Report} {queue : RingBuffer} {channel : ConsoleChannel}

theorem readPending_spec (holds : Holds queue reports) (sound : channel.Sound) {space : Nat} (ready : channel.rdCount = 0 ∨ space = 0) :
    ∃ bytes after channel' taken kept, readPending space queue channel = some (bytes, after, channel') ∧ reports = taken ++ kept ∧
      Holds after kept ∧ channel'.Sound ∧ (bytes.length < space → channel'.rdCount = 0) ∧
      ∀ units sent, Delivered units sent channel.rest →
        Delivered (units ++ taken.map InputUnit.report) (sent ++ bytes) channel'.rest := by
  have inside := sound.inside
  have unchanged (units : List InputUnit) (sent : List UInt8) (delivered : Delivered units sent channel.rest) :
      Delivered (units ++ [].map InputUnit.report) (sent ++ []) channel.rest := by
    rw [List.map_nil, List.append_nil, List.append_nil]
    exact delivered
  unfold readPending
  by_cases none : queue.readIdx = queue.writeIdx
  · refine ⟨[], queue, channel, [], reports, if_pos none, rfl, holds, sound, fun less => ?_, unchanged⟩
    rcases ready with empty | full
    · exact empty
    · omega
  · have enough : reports.length < queue.readableCount.toNat + 1 := by
      rw [holds.readable]
      exact Nat.lt_succ_of_le (length_le_encode reports)
    rw [if_neg none]
    rcases ready with empty | full
    · obtain ⟨bytes, after, channel', taken, kept, read, split, holds', sound', -, ended, sends⟩ :=
        readReports_spec holds sound.length empty (by omega) enough space
      refine ⟨bytes, after, channel', taken, kept, read, split, holds', sound', ended, fun units sent delivered => ?_⟩
      rw [ConsoleChannel.rest_nil empty] at delivered
      exact sends units sent delivered
    · -- the caller's buffer is full
      refine ⟨[], queue, channel, [], reports, ?_, rfl, holds, sound, fun less => absurd (full ▸ less) (Nat.not_lt_zero _), unchanged⟩
      rw [full, readReports, if_pos rfl]

theorem startRead_spec (sound : sys.Sound reports) (idle : sys.reading = none) {nBytesToRead : Nat} (positive : 0 < nBytesToRead) :
    ∃ result after taken kept, sys.startRead nBytesToRead = some (result, after) ∧ reports = taken ++ kept ∧ after.Sound kept ∧
      after.keyMap = sys.keyMap ∧ (after.reading = none ∨ after.reading = some ⟨nBytesToRead, []⟩ ∧ result = none) ∧
      ∀ units sent, Delivered units sent sys.channel.rest →
        Delivered (units ++ taken.map InputUnit.report) (sent ++ bytesReturned result) after.channel.rest := by
  have length := sound.channel.length
  have inside := sound.channel.inside
  obtain ⟨rdIndex, rdCount, copied, left, total, number⟩ := copyFrom_spec nBytesToRead (length.symm ▸ inside)
  change copyFrom _ _ _ _ = some (sys.channel.rest.take nBytesToRead, _, _) at copied
  have heldLength : (sys.channel.rest.take nBytesToRead).length = min nBytesToRead sys.channel.rdCount := by
    unfold ConsoleChannel.rest
    rw [List.length_take, List.length_take, List.length_drop]
    omega
  have rest : sys.channel.rest.drop nBytesToRead = (⟨sys.channel.rdBuffer, rdCount, rdIndex⟩ : ConsoleChannel).rest := left.symm
  have pendingSound : (⟨sys.channel.rdBuffer, rdCount, rdIndex⟩ : ConsoleChannel).Sound := ⟨length, by dsimp only; omega⟩
  obtain ⟨bytes, queue, channel, taken, kept, read, split, holds, channelSound, ended, sends⟩ :=
    @readPending_spec _ _ _ sound.holds pendingSound (nBytesToRead - (sys.channel.rest.take nBytesToRead).length)
      (by dsimp only; omega)
  have starts : sys.startRead nBytesToRead =
      if (sys.channel.rest.take nBytesToRead ++ bytes).length = 0 ∧ 0 < nBytesToRead then
        some (none, { sys with reportsQueue := queue, channel := channel, reading := some ⟨nBytesToRead, []⟩ })
      else some (some ⟨eok, sys.channel.rest.take nBytesToRead ++ bytes⟩, { sys with reportsQueue := queue, channel := channel }) := by
    unfold InputSystem.startRead
    rw [copied]
    simp only [Option.bind_eq_bind, Option.bind_some, read]
  have sent (units : List InputUnit) (before : List UInt8) (delivered : Delivered units before sys.channel.rest) :
      Delivered (units ++ taken.map InputUnit.report) (before ++ (sys.channel.rest.take nBytesToRead ++ bytes)) channel.rest := by
    rw [← List.append_assoc]
    exact sends _ _ (rest ▸ delivered.more nBytesToRead)
  by_cases silent : (sys.channel.rest.take nBytesToRead ++ bytes).length = 0
  · refine ⟨_, _, taken, kept, starts.trans (if_pos ⟨silent, positive⟩), split, ⟨holds, channelSound, ?_⟩, rfl, .inr ⟨rfl, rfl⟩, ?_⟩
    · intro reading same
      rw [← Option.some.inj same]
      rw [List.length_append] at silent
      exact ⟨ended (by omega), positive⟩
    · intro units before delivered
      have all := sent units before delivered
      rw [List.eq_nil_of_length_eq_zero silent] at all
      exact all
  · refine ⟨_, _, taken, kept, starts.trans (if_neg fun both => silent both.1), split, ⟨holds, channelSound, ?_⟩, rfl, .inl idle, sent⟩
    intro reading same
    rw [idle] at same
    cases same

theorem receive_spec (sound : sys.Sound reports) {reading : Reading} {key : KeyEvent}
    {sequence : List UInt8} (mapped : keyMapMap sys.keyMap key maxMessageLength = some sequence) :
    ∃ result after, sys.receive reading (.keyDown key) = some (result, after) ∧ after.Sound reports ∧ after.keyMap = sys.keyMap ∧
      ((∃ count, after.reading = none ∧ bytesReturned result = reading.pBuffer ++ sequence.take count ∧
          after.channel.rest = sequence.drop count) ∨
        (after.reading = some ⟨reading.nBytesToRead, reading.pBuffer ++ sequence⟩ ∧ result = none ∧ after.channel.rest = [])) := by
  have short := length_keyMapMap_le mapped
  have length := sound.channel.length
  have inside := sound.channel.inside
  have bufferLength : (sequence ++ sys.channel.rdBuffer.drop sequence.length).length = maxMessageLength := by
    rw [List.length_append, List.length_drop]
    omega
  obtain ⟨i, rdCount, copied, left, total, number⟩ := copyFrom_spec (reading.nBytesToRead - reading.pBuffer.length)
    (show 0 + sequence.length ≤ (sequence ++ sys.channel.rdBuffer.drop sequence.length).length by omega)
  rw [List.drop_zero, List.take_left] at copied left
  have idle {other : Reading} {sys : InputSystem} (none : sys.reading = .none) (same : sys.reading = some other) : False := by
    rw [none] at same
    cases same
  unfold InputSystem.receive
  simp only [mapped, Option.bind_eq_bind, Option.bind_some, copied]
  by_cases split : rdCount > 0
  · rw [if_pos split]
    refine ⟨_, _, rfl, ⟨sound.holds, ⟨bufferLength, ?_⟩, fun other same => (idle rfl same).elim⟩, rfl, .inl ⟨_, rfl, rfl, left⟩⟩
    dsimp only
    omega
  · have whole : sequence.take (reading.nBytesToRead - reading.pBuffer.length) = sequence := List.take_of_length_le (by omega)
    have channelSound : (⟨sequence ++ sys.channel.rdBuffer.drop sequence.length, 0, sys.channel.rdIndex⟩ : ConsoleChannel).Sound :=
      ⟨bufferLength, by dsimp only; omega⟩
    rw [if_neg split, whole]
    by_cases more : (reading.pBuffer ++ sequence).length < reading.nBytesToRead
    · rw [if_pos more]
      refine ⟨_, _, rfl, ⟨sound.holds, channelSound, fun other same => ?_⟩, rfl, .inr ⟨rfl, rfl, rfl⟩⟩
      rw [← Option.some.inj same]
      exact ⟨rfl, more⟩
    · rw [if_neg more]
      refine ⟨_, _, rfl, ⟨sound.holds, channelSound, fun other same => (idle rfl same).elim⟩, rfl,
        .inl ⟨sequence.length, rfl, ?_, ?_⟩⟩
      · rw [List.take_length]
        rfl
      · rw [List.drop_length]
        rfl

end Calls

end Apollo.Console
