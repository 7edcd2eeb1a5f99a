import Apollo.Console.InputDelivery

/-!
# The history of console input

Every report that leaves the queue was either delivered or dropped, and it was the
oldest one.  The history of a run says which; it explains all bytes that the calls
returned.
-/

set_option autoImplicit false

namespace Apollo.Console

open Klib Lib

/-- The reports that left the queue, with those that were delivered marked, those in the queue, and the units
that were delivered. -/
structure InputHistory where
  decided : List (Report × Bool)
  queued : List Report
  units : List InputUnit

/-- What an action may do: only a new report drops others, and only as long as there is no space for it. -/
inductive InputHistory.Step (keyMap : List UInt8) : InputHistory → InputAction → InputHistory → Prop
  | post {history : InputHistory} {report : Report} {dropped kept : List Report} (split : history.queued = dropped ++ kept)
      (full : ∀ count < dropped.length,
        reportsCapacity - (encode (history.queued.drop count)).length < report.text.length + 1) :
      Step keyMap history (.postReport report)
        ⟨history.decided ++ dropped.map (·, false), kept ++ [report], history.units⟩
  | read {history : InputHistory} {nBytesToRead : Nat} {taken kept : List Report} (split : history.queued = taken ++ kept) :
      Step keyMap history (.read nBytesToRead)
        ⟨history.decided ++ taken.map (·, true), kept, history.units ++ taken.map .report⟩
  | key {history : InputHistory} {key : KeyEvent} {sequence : List UInt8}
      (mapped : keyMapMap keyMap key maxMessageLength = some sequence) :
      Step keyMap history (.receive (.keyDown key)) { history with units := history.units ++ [.key sequence] }
  | other {history : InputHistory} : Step keyMap history (.receive .other) history
  | failure {history : InputHistory} {err : Int} : Step keyMap history (.receive (.failure err)) history

def InputUnit.report? : InputUnit → Option Report
  | .report posted => some posted
  | .key _ => none

def InputUnit.key? : InputUnit → Option (List UInt8)
  | .report _ => none
  | .key sequence => some sequence

def InputAction.posted? : InputAction → Option Report
  | .postReport report => some report
  | .read _ => none
  | .receive _ => none

def InputAction.sequence? (keyMap : List UInt8) : InputAction → Option (List UInt8)
  | .receive (.keyDown key) => keyMapMap keyMap key maxMessageLength
  | .receive .other => none
  | .receive (.failure _) => none
  | .postReport _ => none
  | .read _ => none

/-- The units of each kind are in the order of the actions, which are newest first, and each of them is from an
action of its own. -/
structure InputHistory.Ordered (keyMap : List UInt8) (actions : List InputAction) (history : InputHistory) : Prop where
  posted : history.decided.map Prod.fst ++ history.queued = actions.reverse.filterMap InputAction.posted?
  reports : history.units.filterMap InputUnit.report? = (history.decided.filter (·.2)).map Prod.fst
  keys : history.units.filterMap InputUnit.key? = actions.reverse.filterMap (InputAction.sequence? keyMap)

def returnedBytes (labels : List (InputAction × Option ReadResult)) : List UInt8 :=
  labels.reverse.flatMap fun label => bytesReturned label.2

/-- There is a history that ends with the reports that are in the queue, and what was read are its units. -/
def DeliversInput (keyMap : List UInt8) (labels : List (InputAction × Option ReadResult)) (sys : InputSystem) : Prop :=
  ∃ history units waiting, Runs (InputHistory.Step keyMap) ⟨[], [], []⟩ (labels.map Prod.fst) history ∧
    history.Ordered keyMap (labels.map Prod.fst) ∧ Holds sys.reportsQueue history.queued ∧
    history.units = units ++ waiting ∧ Delivered units (returnedBytes labels) sys.channel.rest ∧
    bytesOf waiting = sys.reading.elim [] Reading.pBuffer ∧ (sys.reading = none → waiting = [])

/-- No action leaves the bounds of a buffer, fails an assertion or loops forever. -/
structure InputSystem.Ready (sys : InputSystem) : Prop where
  post : ∀ report, (sys.perform (.postReport report)).isSome
  read : ∀ nBytesToRead, sys.reading = none → 0 < nBytesToRead → (sys.perform (.read nBytesToRead)).isSome
  receive : ∀ incoming, sys.reading.isSome →
    (∀ key, incoming = .keyDown key → (keyMapMap sys.keyMap key maxMessageLength).isSome) →
      (sys.perform (.receive incoming)).isSome

/-! ## Order -/

section Order
variable {keyMap : List UInt8} {history after : InputHistory} {action : InputAction} {actions : List InputAction}

theorem InputHistory.Ordered.step (ordered : history.Ordered keyMap actions) (taken : history.Step keyMap action after) :
    after.Ordered keyMap (action :: actions) := by
  obtain ⟨posted, reports, keys⟩ := ordered
  have delivered (taken : List Report) : (taken.map InputUnit.report).filterMap InputUnit.report? = taken := by
    rw [List.filterMap_map]
    exact List.filterMap_some
  have noKeys (taken : List Report) : (taken.map InputUnit.report).filterMap InputUnit.key? = [] := by
    rw [List.filterMap_map]
    exact List.filterMap_eq_nil_iff.mpr fun _ _ => rfl
  have marked (taken : List Report) (mark : Bool) : (taken.map (·, mark)).map Prod.fst = taken := by
    rw [List.map_map]
    exact List.map_id _
  have filtered (taken : List Report) (mark : Bool) :
      (taken.map (·, mark)).filter (·.2) = if mark then taken.map (·, mark) else [] := by
    cases mark with
    | true => exact List.filter_eq_self.mpr (by simp)
    | false => exact List.filter_eq_nil_iff.mpr (by simp)
  cases taken with
  | @post report dropped kept split full =>
    refine ⟨?_, ?_, ?_⟩
    · rw [List.reverse_cons, List.filterMap_append, ← posted, split, List.map_append, marked, List.append_assoc, List.append_assoc,
        List.append_assoc]
      rfl
    · rw [List.filter_append, filtered, reports]
      exact congrArg (List.map Prod.fst) (List.append_nil _).symm
    · rw [List.reverse_cons, List.filterMap_append, ← keys]
      exact (List.append_nil _).symm
  | @read nBytesToRead taken kept split =>
    refine ⟨?_, ?_, ?_⟩
    · rw [List.reverse_cons, List.filterMap_append, ← posted, split, List.map_append, marked, List.append_assoc]
      exact (List.append_nil _).symm
    · rw [List.filterMap_append, delivered, reports, List.filter_append, filtered, if_pos rfl, List.map_append, marked]
    · rw [List.filterMap_append, noKeys, List.reverse_cons, List.filterMap_append, keys]
      rfl
  | @key key sequence mapped =>
    have typed : [InputAction.receive (.keyDown key)].filterMap (InputAction.sequence? keyMap) = [sequence] := by
      have found : InputAction.sequence? keyMap (.receive (.keyDown key)) = some sequence := mapped
      rw [List.filterMap_cons_some found, List.filterMap_nil]
    refine ⟨?_, ?_, ?_⟩
    · rw [List.reverse_cons, List.filterMap_append]
      exact posted.trans (List.append_nil _).symm
    · rw [List.filterMap_append]
      exact (List.append_nil _).trans reports
    · rw [List.filterMap_append, List.reverse_cons, List.filterMap_append, typed, keys]
      rfl
  | other =>
    refine ⟨?_, reports, ?_⟩
    · rw [List.reverse_cons, List.filterMap_append]
      exact posted.trans (List.append_nil _).symm
    · rw [List.reverse_cons, List.filterMap_append]
      exact keys.trans (List.append_nil _).symm
  | failure =>
    refine ⟨?_, reports, ?_⟩
    · rw [List.reverse_cons, List.filterMap_append]
      exact posted.trans (List.append_nil _).symm
    · rw [List.reverse_cons, List.filterMap_append]
      exact keys.trans (List.append_nil _).symm

theorem InputHistory.ordered (run : Runs (InputHistory.Step keyMap) ⟨[], [], []⟩ actions history) : history.Ordered keyMap actions := by
  refine run.history (fun actions history => history.Ordered keyMap actions) ⟨rfl, rfl, rfl⟩ ?_
  intro actions action history after _ ordered taken
  exact ordered.step taken

end Order

/-! ## Runs -/

structure Explains (keyMap : List UInt8) (labels : List (InputAction × Option ReadResult)) (sys : InputSystem)
    (history : InputHistory) (units waiting : List InputUnit) : Prop where
  run : Runs (InputHistory.Step keyMap) ⟨[], [], []⟩ (labels.map Prod.fst) history
  units_eq : history.units = units ++ waiting
  sound : sys.Sound history.queued
  keyMap_eq : sys.keyMap = keyMap
  delivered : Delivered units (returnedBytes labels) sys.channel.rest
  pending : bytesOf waiting = sys.reading.elim [] Reading.pBuffer
  idle : sys.reading = none → waiting = []

theorem returnedBytes_cons (label : InputAction × Option ReadResult) (labels : List (InputAction × Option ReadResult)) :
    returnedBytes (label :: labels) = returnedBytes labels ++ bytesReturned label.2 := by
  unfold returnedBytes
  rw [List.reverse_cons, List.flatMap_append, List.flatMap_singleton]

theorem Delivered.append {units : List InputUnit} {sent : List UInt8} (delivered : Delivered units sent []) (more : List InputUnit) :
    Delivered (units ++ more) (sent ++ bytesOf more) [] :=
  ⟨units ++ more, [], by rw [delivered.whole, bytesOf_append, List.append_nil], .inl ⟨rfl, rfl, rfl⟩⟩

section Steps
variable {keyMap : List UInt8} {labels : List (InputAction × Option ReadResult)} {sys after : InputSystem} {history : InputHistory}
  {units waiting : List InputUnit}

variable {reading : Reading}

theorem perform_receive (waits : sys.reading = some reading) (incoming : Incoming) :
    sys.perform (.receive incoming) = sys.receive reading incoming := by
  unfold InputSystem.perform
  rw [waits]

section
variable (explains : Explains keyMap labels sys history units waiting)
include explains

theorem Explains.post (report : Report) : ∃ after, sys.perform (.postReport report) = some (none, after) ∧
      ∃ history', Explains keyMap ((.postReport report, none) :: labels) after history' units waiting := by
  obtain ⟨dropped, kept, queue, split, posted, holds, full⟩ := postReport_spec explains.sound.holds report
  refine ⟨{ sys with reportsQueue := queue }, ?_, _, explains.run.step (.post split full), explains.units_eq,
    ⟨holds, explains.sound.channel, explains.sound.waiting⟩, explains.keyMap_eq, ?_, explains.pending, explains.idle⟩
  · unfold InputSystem.perform
    dsimp only
    rw [posted]
    rfl
  · rw [returnedBytes_cons]
    exact (List.append_nil (returnedBytes labels)).symm ▸ explains.delivered

theorem Explains.read {nBytesToRead : Nat} (idle : sys.reading = none) (positive : 0 < nBytesToRead) :
    ∃ result after, sys.perform (.read nBytesToRead) = some (result, after) ∧
      ∃ history' units', Explains keyMap ((.read nBytesToRead, result) :: labels) after history' units' [] := by
  obtain ⟨result, after, taken, kept, starts, split, sound, same, reading, sends⟩ := startRead_spec explains.sound idle positive
  have all : history.units = units := by rw [explains.units_eq, explains.idle idle, List.append_nil]
  refine ⟨result, after, ?_, _, history.units ++ taken.map .report, explains.run.step (.read split), (List.append_nil _).symm, sound,
    same.trans explains.keyMap_eq, ?_, ?_, fun _ => rfl⟩
  · unfold InputSystem.perform
    dsimp only
    rw [if_pos ⟨idle, positive⟩, starts]
  · rw [returnedBytes_cons, all]
    exact sends _ _ explains.delivered
  · rcases reading with none | ⟨waits, -⟩
    · rw [none]
      rfl
    · rw [waits]
      rfl

theorem Explains.sent (waits : sys.reading = some reading) :
    Delivered history.units (returnedBytes labels ++ reading.pBuffer) [] := by
  have delivered := explains.delivered
  have pending := explains.pending
  rw [ConsoleChannel.rest_nil (explains.sound.waiting reading waits).1] at delivered
  rw [waits] at pending
  change bytesOf waiting = reading.pBuffer at pending
  rw [explains.units_eq, ← pending]
  exact delivered.append waiting

theorem Explains.key {reading : Reading} (waits : sys.reading = some reading) {key : KeyEvent} {sequence : List UInt8}
    (mapped : keyMapMap keyMap key maxMessageLength = some sequence) :
    ∃ result after, sys.perform (.receive (.keyDown key)) = some (result, after) ∧
      ∃ history' units' waiting', Explains keyMap ((.receive (.keyDown key), result) :: labels) after history' units' waiting' := by
  obtain ⟨result, after, receives, sound, same, ends⟩ := receive_spec explains.sound (explains.keyMap_eq.symm ▸ mapped)
  refine ⟨result, after, (perform_receive waits _).trans receives, ?_⟩
  have run := explains.run.step (.key mapped)
  rcases ends with ⟨count, none, bytes, rest⟩ | ⟨waits', none, rest⟩
  · -- the call returns
    refine ⟨_, _, [], run, (List.append_nil _).symm, sound, same.trans explains.keyMap_eq, ?_, ?_, fun _ => rfl⟩
    · rw [returnedBytes_cons, bytes, rest, ← List.append_assoc]
      exact (explains.sent waits).start (.key sequence) count
    · rw [none]
      rfl
  · refine ⟨_, units, waiting ++ [.key sequence], run, ?_, sound, same.trans explains.keyMap_eq, ?_, ?_, ?_⟩
    · rw [explains.units_eq, List.append_assoc]
    · have delivered := explains.delivered
      rw [ConsoleChannel.rest_nil (explains.sound.waiting reading waits).1] at delivered
      rw [returnedBytes_cons, none, rest]
      exact (List.append_nil (returnedBytes labels)).symm ▸ delivered
    · have pending := explains.pending
      rw [waits] at pending
      rw [waits', bytesOf_append, bytesOf_singleton, pending]
      rfl
    · intro idle
      rw [waits'] at idle
      cases idle

theorem Explains.other (waits : sys.reading = some reading) : sys.perform (.receive .other) = some (none, sys) ∧
      Explains keyMap ((.receive .other, none) :: labels) sys history units waiting := by
  refine ⟨perform_receive waits _, explains.run.step .other, explains.units_eq, explains.sound, explains.keyMap_eq, ?_, explains.pending,
    explains.idle⟩
  rw [returnedBytes_cons]
  exact (List.append_nil (returnedBytes labels)).symm ▸ explains.delivered

theorem Explains.failure (waits : sys.reading = some reading) (err : Int) :
    ∃ result after, sys.perform (.receive (.failure err)) = some (result, after) ∧
      Explains keyMap ((.receive (.failure err), result) :: labels) after history history.units [] := by
  refine ⟨_, _, perform_receive waits _, explains.run.step .failure, (List.append_nil _).symm, ⟨explains.sound.holds,
    explains.sound.channel, fun other same => ?_⟩, explains.keyMap_eq, ?_, rfl, fun _ => rfl⟩
  · cases same
  · rw [returnedBytes_cons]
    rw [ConsoleChannel.rest_nil (explains.sound.waiting reading waits).1]
    exact explains.sent waits

theorem Explains.step {label : InputAction × Option ReadResult} (taken : sys.Step label after) :
    ∃ history' units' waiting', Explains keyMap (label :: labels) after history' units' waiting' := by
  obtain ⟨action, result⟩ := label
  -- the action determines what it returns
  have same {result' : Option ReadResult} {after' : InputSystem} (performs : sys.perform action = some (result', after')) :
      result' = result ∧ after' = after := by
    have equal := Option.some.inj (performs.symm.trans taken)
    exact ⟨congrArg Prod.fst equal, congrArg Prod.snd equal⟩
  have waiting_of {incoming : Incoming} (is : action = .receive incoming) : ∃ reading, sys.reading = some reading := by
    cases found : sys.reading with
    | some reading => exact ⟨reading, rfl⟩
    | none =>
      have none : sys.perform action = none := by
        rw [is, InputSystem.perform, found]
      cases none.symm.trans taken
  cases action with
  | postReport report =>
    obtain ⟨after', performs, history', explains'⟩ := explains.post report
    obtain ⟨rfl, rfl⟩ := same performs
    exact ⟨_, _, _, explains'⟩
  | read nBytesToRead =>
    by_cases ready : sys.reading = none ∧ 0 < nBytesToRead
    · obtain ⟨result', after', performs, history', units', explains'⟩ := explains.read ready.1 ready.2
      obtain ⟨rfl, rfl⟩ := same performs
      exact ⟨_, _, _, explains'⟩
    · cases (if_neg ready).symm.trans taken
  | receive incoming =>
    obtain ⟨reading, waits⟩ := waiting_of rfl
    cases incoming with
    | keyDown key =>
      have performs := (perform_receive waits (.keyDown key)).symm.trans taken
      obtain ⟨sequence, mapped, -⟩ := Option.bind_eq_some_iff.mp performs
      obtain ⟨result', after', performs', history', units', waiting', explains'⟩ :=
        explains.key waits (explains.keyMap_eq ▸ mapped)
      obtain ⟨rfl, rfl⟩ := same performs'
      exact ⟨_, _, _, explains'⟩
    | other =>
      obtain ⟨performs, explains'⟩ := explains.other waits
      obtain ⟨rfl, rfl⟩ := same performs
      exact ⟨_, _, _, explains'⟩
    | failure err =>
      obtain ⟨result', after', performs, explains'⟩ := explains.failure waits err
      obtain ⟨rfl, rfl⟩ := same performs
      exact ⟨_, _, _, explains'⟩

theorem Explains.ready : sys.Ready where
  post report := by
    obtain ⟨after, performs, -⟩ := explains.post report
    exact performs ▸ rfl
  read nBytesToRead idle positive := by
    obtain ⟨result, after, performs, -⟩ := explains.read idle positive
    exact performs ▸ rfl
  receive incoming waits maps := by
    obtain ⟨reading, waits⟩ := Option.isSome_iff_exists.mp waits
    cases incoming with
    | keyDown key =>
      obtain ⟨sequence, mapped⟩ := Option.isSome_iff_exists.mp (maps key rfl)
      obtain ⟨result, after, performs, -⟩ := explains.key waits (explains.keyMap_eq ▸ mapped)
      exact performs ▸ rfl
    | other => exact (explains.other waits).1 ▸ rfl
    | failure err =>
      obtain ⟨result, after, performs, -⟩ := explains.failure waits err
      exact performs ▸ rfl

end

theorem createInput_explains {data : Nat → UInt8} (created : createInput data keyMap = some sys) :
    Explains keyMap [] sys ⟨[], [], []⟩ [] [] := by
  rw [← Option.some.inj created]
  have none : (⟨data, 128, 0, 0⟩ : RingBuffer).readableCount.toNat = 0 := by
    change (0 - 0 : BitVec 32).toNat = 0
    decide
  have empty : (⟨data, 128, 0, 0⟩ : RingBuffer).content = [] :=
    List.length_eq_zero_iff.mp ((RingBuffer.Valid.length_content _).trans none)
  have holds : Holds ⟨data, 128, 0, 0⟩ [] := ⟨⟨⟨7, by decide, rfl⟩, none ▸ Nat.zero_le _⟩, rfl, empty⟩
  exact ⟨.nil, rfl, ⟨holds, ⟨rfl, Nat.zero_le _⟩, nofun⟩, rfl, delivered_nil, rfl, fun _ => rfl⟩

end Steps

/-- Console input is delivered whole and in order, and no call gets stuck. -/
theorem consoleInput_delivered {data : Nat → UInt8} {keyMap : List UInt8} {start sys : InputSystem}
    {labels : List (InputAction × Option ReadResult)} (created : createInput data keyMap = some start)
    (run : Runs InputSystem.Step start labels sys) : DeliversInput keyMap labels sys ∧ sys.Ready := by
  have explained : ∃ history units waiting, Explains keyMap labels sys history units waiting := by
    refine run.history (fun labels sys => ∃ history units waiting, Explains keyMap labels sys history units waiting)
      ⟨_, _, _, createInput_explains created⟩ ?_
    intro labels label state after _ holds taken
    obtain ⟨history, units, waiting, explains⟩ := holds
    exact explains.step taken
  obtain ⟨history, units, waiting, explains⟩ := explained
  exact ⟨⟨history, units, waiting, explains.run, InputHistory.ordered explains.run, explains.sound.holds, explains.units_eq,
    explains.delivered, explains.pending, explains.idle⟩, explains.ready⟩

def smallInput : List InputAction :=
  [.postReport ⟨[0x1b, 0x5a], by decide +kernel, by decide +kernel⟩, .read 1, .read 4, .read 4, .receive (.keyDown ⟨0, 4⟩), .receive (.failure 3)]

/-- A key map with the key `0x04`, which stands for `a`. -/
def smallKeyMap : List UInt8 :=
  [0, 0, 0, 20, 0, 1, 0, 8, 0, 0, 0, 4, 0, 4, 0, 16, 0x61, 0x41, 0, 0]

theorem smallInput_delivered : ∃ start labels sys, createInput (fun _ => 0) smallKeyMap = some start ∧
    replyAll InputSystem.perform smallInput start = some sys ∧ DeliversInput smallKeyMap labels sys ∧ sys.Ready := by
  have performs : ((createInput (fun _ => 0) smallKeyMap).bind (replyAll InputSystem.perform smallInput)).isSome := by decide
  obtain ⟨sys, performed⟩ := Option.isSome_iff_exists.mp performs
  obtain ⟨start, created, replies⟩ := Option.bind_eq_some_iff.mp performed
  have taken (sys : InputSystem) (action : InputAction) (result : Option ReadResult) (after : InputSystem)
      (performs : sys.perform action = some (result, after)) : InputSystem.Step sys (action, result) after := performs
  obtain ⟨labels, run⟩ := Runs.replyAll taken .nil replies
  exact ⟨start, labels, sys, created, replies, consoleInput_delivered created run⟩

end Apollo.Console
