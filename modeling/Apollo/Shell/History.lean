import Apollo.Shell.LineReader
import Mathlib.Data.List.Dedup
import Mathlib.Data.List.DropRight
import Mathlib.Data.List.Range

/-!
# The history of the line reader

The entries of the history with the addresses of their strings, and what is freed.  After
any pushes the history has the most recent occurrences of the different lines, as many of
the newest as fit, and each string that is no longer there was freed once.
-/

set_option autoImplicit false

namespace Apollo.Shell

/-! ## The most recent lines -/

section Recent
variable {α : Type} [DecidableEq α] {history lines front back : List α} {line : α} {capacity : Nat}

def Recent (capacity : Nat) (lines history : List α) : Prop :=
  ∃ older, lines = older ++ history ∧ history.length ≤ capacity ∧ (history.length < capacity → older = [])

omit [DecidableEq α] in
theorem Recent.rtake (recent : Recent capacity lines history) : history = lines.rtake capacity := by
  obtain ⟨older, rfl, fits, whole⟩ := recent
  unfold List.rtake
  rcases Nat.lt_or_ge history.length capacity with less | more
  · rw [whole less, List.nil_append, Nat.sub_eq_zero_of_le fits, List.drop_zero]
  · have count : (older ++ history).length - capacity = older.length := by
      rw [List.length_append]
      omega
    rw [count, List.drop_left]

/-- A line that comes again is only counted where it is now. -/
theorem dedup_concat (lines : List α) (line : α) : (lines ++ [line]).dedup = lines.dedup.erase line ++ [line] := by
  induction lines with
  | nil => rfl
  | cons first rest ih =>
    rw [List.cons_append, List.dedup_cons, ih, List.dedup_cons]
    by_cases again : first ∈ rest
    · rw [if_pos again, if_pos (List.mem_append_left _ again)]
    · rw [if_neg again]
      by_cases same : first = line
      · subst same
        rw [if_pos (List.mem_append_right _ List.mem_cons_self), List.erase_cons_head,
          List.erase_of_not_mem fun member => again (List.mem_dedup.mp member)]
      · have new : first ∉ rest ++ [line] := by simp [again, same]
        rw [if_neg new, List.erase_cons_tail (by simpa using same), List.cons_append]

theorem Recent.pullUp (nodup : lines.Nodup) (recent : Recent capacity lines (front ++ line :: back)) :
    Recent capacity (lines.erase line ++ [line]) (front ++ back ++ [line]) := by
  obtain ⟨older, rfl, fits, whole⟩ := recent
  have split := List.nodup_append.mp nodup
  have notOlder : line ∉ older := fun member => split.2.2 line member line (by simp) rfl
  have notFront : line ∉ front := fun member =>
    (List.nodup_append.mp split.2.1).2.2 line member line List.mem_cons_self rfl
  have length : (front ++ back ++ [line]).length = (front ++ line :: back).length := by
    simp only [List.length_append, List.length_cons, List.length_nil]
    omega
  refine ⟨older, ?_, length ▸ fits, length ▸ whole⟩
  rw [List.erase_append_right _ notOlder, List.erase_append_right _ notFront, List.erase_cons_head, List.append_assoc]

theorem Recent.add (absent : line ∉ history) (room : 0 < capacity) (recent : Recent capacity lines history) :
    Recent capacity (lines.erase line ++ [line]) ((if history.length = capacity then history.tail else history) ++ [line]) := by
  obtain ⟨older, rfl, fits, whole⟩ := recent
  have kept : (older ++ history).erase line = older.erase line ++ history := by
    by_cases before : line ∈ older
    · exact List.erase_append_left _ before
    · rw [List.erase_append_right _ before, List.erase_of_not_mem before, List.erase_of_not_mem absent]
  rw [kept]
  split
  case isTrue full =>
    obtain ⟨oldest, rest, rfl⟩ := List.exists_cons_of_length_pos (full ▸ room)
    have length : (rest ++ [line]).length = (oldest :: rest).length := by simp
    refine ⟨older.erase line ++ [oldest], by simp, length ▸ fits, fun less => ?_⟩
    rw [List.tail_cons, length, full] at less
    exact absurd less (Nat.lt_irrefl _)
  case isFalse free =>
    have less : history.length < capacity := Nat.lt_of_le_of_ne fits free
    rw [whole less]
    refine ⟨[], by simp, ?_, fun _ => rfl⟩
    rw [List.length_append, List.length_singleton]
    exact less

end Recent

/-! ## Entries -/

/-- A string of the history, with the number of the `strdup` call that returned it. -/
structure Entry where
  address : Nat
  text : List UInt8
  deriving DecidableEq

/-- `LineReader_RemoveFromHistory`, from the entry at `idx` on: the entries, the history index and the strings that are
freed. -/
def removeEntries (pLine : List UInt8) : List Entry → Nat → Int → List Entry × Int × List Nat
  | [], _, historyIndex => ([], historyIndex, [])
  | [entry], idx, historyIndex =>
    if pLine = entry.text then ([], if idx ≤ historyIndex then historyIndex - 1 else historyIndex, [entry.address])
    else ([entry], historyIndex, [])
  | entry :: next :: rest, idx, historyIndex =>
    if pLine = entry.text then
      let (rest, historyIndex, freed) :=
        removeEntries pLine rest (idx + 1) (if idx ≤ historyIndex then historyIndex - 1 else historyIndex)
      (next :: rest, historyIndex, entry.address :: freed)
    else
      let (rest, historyIndex, freed) := removeEntries pLine (next :: rest) (idx + 1) historyIndex
      (entry :: rest, historyIndex, freed)

/-- The history of a line reader.  So many strings were duplicated, and these were freed. -/
structure History where
  entries : List Entry
  historyIndex : Int
  duplicated : Nat
  freed : List Nat
  deriving DecidableEq

namespace History

def texts (history : History) : List (List UInt8) := history.entries.map Entry.text

def addresses (history : History) : List Nat := history.entries.map Entry.address

/-- `LineReader_PushHistory`, with the strings that it frees. -/
def push (capacity : Nat) (pLine : List UInt8) (history : History) : History :=
  if capacity = 0 then history
  else if pLine.all LineReader.isSpace then history
  else
    let (entries, historyIndex, freed) := removeEntries pLine history.entries 0 history.historyIndex
    let evicted := if entries.length = capacity then entries.take 1 else []
    let entries := (if entries.length = capacity then entries.tail else entries) ++ [⟨history.duplicated, pLine⟩]
    { entries := entries
      historyIndex := if freed ≠ [] then (entries.length : Int) - 1 else historyIndex
      duplicated := history.duplicated + 1
      freed := history.freed ++ freed ++ evicted.map Entry.address }

/-- The entry that the user goes to between two calls, if he moves in the history. -/
def select (history : History) : Option Nat → History
  | some position => { history with historyIndex := (min position history.entries.length : Nat) }
  | none => history

/-- The calls of `LineReader_PushHistory`, each with a move in front of it. -/
def pushAll (capacity : Nat) : List (Option Nat × List UInt8) → History → History
  | [], history => history
  | (position, pLine) :: rest, history => pushAll capacity rest ((history.select position).push capacity pLine)

def empty : History := ⟨[], 0, 0, []⟩

end History

/-! ### The history of the reader -/

theorem removeEntries_texts (pLine : List UInt8) (entries : List Entry) (idx : Nat) (historyIndex : Int) :
    LineReader.removeFromHistory pLine (entries.map Entry.text) idx historyIndex =
      let result := removeEntries pLine entries idx historyIndex
      (result.1.map Entry.text, result.2.1, decide (result.2.2 ≠ [])) := by
  fun_induction removeEntries pLine entries idx historyIndex with
  | case1 => rfl
  | case2 idx historyIndex entry same => simp [LineReader.removeFromHistory, same]
  | case3 idx historyIndex entry other => simp [LineReader.removeFromHistory, other]
  | case4 idx historyIndex entry next rest same rest' historyIndex' freed removes ih =>
    rw [removes] at ih
    rw [List.map_cons, List.map_cons, LineReader.removeFromHistory, if_pos same, ih]
    simp
  | case5 idx historyIndex entry next rest other rest' historyIndex' freed removes ih =>
    rw [removes, List.map_cons] at ih
    rw [List.map_cons, List.map_cons, LineReader.removeFromHistory, if_neg other, ih]
    rfl

theorem History.pushHistory_eq {reader : LineReader} {history : History} (entries : reader.history = history.texts)
    (index : reader.historyIndex = history.historyIndex) (pLine : List UInt8) :
    reader.pushHistory pLine =
      { reader with
        history := (history.push reader.historyCapacity pLine).texts
        historyIndex := (history.push reader.historyCapacity pLine).historyIndex } := by
  unfold LineReader.pushHistory History.push
  split_ifs with none blank
  · rw [← entries, ← index]
  · rw [← entries, ← index]
  · rw [entries, index, texts, removeEntries_texts]
    generalize removeEntries pLine history.entries 0 history.historyIndex = result
    obtain ⟨rest, historyIndex, freed⟩ := result
    dsimp only [texts]
    split_ifs <;> simp_all [← List.map_tail]

/-! ### What a push does -/

section Push
variable {pLine : List UInt8} {entries front back : List Entry} {entry : Entry}

theorem removeEntries_absent (absent : pLine ∉ entries.map Entry.text) (idx : Nat) (historyIndex : Int) :
    removeEntries pLine entries idx historyIndex = (entries, historyIndex, []) := by
  induction entries generalizing idx with
  | nil => rfl
  | cons first rest ih =>
    obtain ⟨other, absent⟩ := List.ne_and_not_mem_of_not_mem_cons absent
    cases rest with
    | nil => exact if_neg other
    | cons next rest => rw [removeEntries, if_neg other, ih absent]

theorem removeEntries_present (before : entry.text ∉ front.map Entry.text) (behind : entry.text ∉ back.map Entry.text) (idx : Nat)
    (historyIndex : Int) :
    ∃ historyIndex', removeEntries entry.text (front ++ entry :: back) idx historyIndex =
      (front ++ back, historyIndex', [entry.address]) := by
  induction front generalizing idx with
  | nil =>
    cases back with
    | nil => exact ⟨_, if_pos rfl⟩
    | cons next rest =>
      rw [List.nil_append, removeEntries, if_pos rfl, removeEntries_absent (List.not_mem_of_not_mem_cons behind)]
      exact ⟨_, rfl⟩
  | cons first rest ih =>
    obtain ⟨other, before⟩ := List.ne_and_not_mem_of_not_mem_cons before
    obtain ⟨historyIndex', removes⟩ := ih before (idx + 1)
    cases shape : rest ++ entry :: back with
    | nil => simp at shape
    | cons next tail =>
      rw [shape] at removes
      rw [List.cons_append, shape, removeEntries, if_neg other, removes]
      exact ⟨_, rfl⟩

end Push

namespace History

variable {capacity : Nat} {lines : List (List UInt8)} {history : History}

/-- What holds of a history after pushes of these lines that are worth an entry. -/
structure Keeps (capacity : Nat) (lines : List (List UInt8)) (history : History) : Prop where
  recent : Recent capacity lines.dedup history.texts
  nonnegative : 0 ≤ history.historyIndex
  selected : history.historyIndex ≤ history.entries.length
  accounted : (history.freed ++ history.addresses).Perm (List.range history.duplicated)

theorem Keeps.nodup (keeps : Keeps capacity lines history) : history.texts.Nodup := by
  obtain ⟨older, split, -⟩ := keeps.recent
  exact (List.nodup_append.mp (split ▸ List.nodup_dedup lines)).2.1

theorem keeps_empty (capacity : Nat) : Keeps capacity [] empty :=
  ⟨⟨[], rfl, Nat.zero_le _, fun _ => rfl⟩, Int.le_refl _, Int.le_refl _, List.Perm.refl _⟩

theorem Keeps.select (keeps : Keeps capacity lines history) (position : Option Nat) :
    Keeps capacity lines (history.select position) := by
  cases position with
  | none => exact keeps
  | some position =>
    refine ⟨keeps.recent, Int.natCast_nonneg _, ?_, keeps.accounted⟩
    exact Int.ofNat_le.mpr (Nat.min_le_right _ _)

theorem Keeps.pullUp {entry : Entry} {front back : List Entry} (keeps : Keeps capacity lines history)
    (split : history.entries = front ++ entry :: back) (room : 0 < capacity)
    (useful : ¬entry.text.all LineReader.isSpace = true) :
    Keeps capacity (lines ++ [entry.text]) (history.push capacity entry.text) := by
  have nodup := keeps.nodup
  have recent := keeps.recent
  have accounted := keeps.accounted
  unfold texts at nodup recent
  unfold addresses at accounted
  rw [split, List.map_append, List.map_cons] at nodup recent accounted
  have parts := List.nodup_append.mp nodup
  have before : entry.text ∉ front.map Entry.text := fun member =>
    parts.2.2 entry.text member entry.text List.mem_cons_self rfl
  obtain ⟨historyIndex', removes⟩ :=
    removeEntries_present before (List.nodup_cons.mp parts.2.1).1 0 history.historyIndex
  have fits : (front.map Entry.text ++ entry.text :: back.map Entry.text).length ≤ capacity := by
    obtain ⟨-, -, fits, -⟩ := recent
    exact fits
  have free : front.length + back.length ≠ capacity := by
    simp only [List.length_append, List.length_cons, List.length_map] at fits
    omega
  have pushed : history.push capacity entry.text =
      ⟨front ++ back ++ [⟨history.duplicated, entry.text⟩], front.length + back.length, history.duplicated + 1,
        history.freed ++ [entry.address]⟩ := by
    unfold push
    rw [if_neg (Nat.ne_of_gt room), if_neg useful, split, removes]
    simp only [List.length_append, free, if_false, ne_eq, List.cons_ne_nil, not_false_eq_true, if_true, List.length_singleton,
      List.map_nil, List.append_nil, mk.injEq, true_and, and_true]
    omega
  rw [pushed]
  refine ⟨?_, ?_, ?_, ?_⟩
  · rw [dedup_concat]
    simpa [texts] using recent.pullUp (List.nodup_dedup lines)
  · exact Int.add_nonneg (Int.natCast_nonneg _) (Int.natCast_nonneg _)
  · simp only [List.length_append, List.length_singleton]
    omega
  · rw [List.range_succ]
    refine List.Perm.trans ?_ (accounted.append_right _)
    simp only [addresses, List.map_append, List.map_cons, List.map_nil, List.append_assoc]
    refine List.Perm.append_left _ ?_
    exact (@List.perm_middle _ entry.address (front.map Entry.address) (back.map Entry.address ++ [history.duplicated])).symm

theorem Keeps.add {pLine : List UInt8} (keeps : Keeps capacity lines history) (absent : pLine ∉ history.texts) (room : 0 < capacity)
    (useful : ¬pLine.all LineReader.isSpace = true) : Keeps capacity (lines ++ [pLine]) (history.push capacity pLine) := by
  have added := keeps.recent.add absent room
  have pushed : history.push capacity pLine =
      ⟨(if history.entries.length = capacity then history.entries.tail else history.entries) ++ [⟨history.duplicated, pLine⟩],
        history.historyIndex, history.duplicated + 1,
        history.freed ++ [] ++ (if history.entries.length = capacity then history.entries.take 1 else []).map Entry.address⟩ := by
    unfold push
    rw [if_neg (Nat.ne_of_gt room), if_neg useful, removeEntries_absent absent]
    simp
  have accounted := keeps.accounted
  have selected := keeps.selected
  rw [pushed]
  by_cases full : history.entries.length = capacity
  · obtain ⟨oldest, rest, entries⟩ := List.exists_cons_of_length_pos (full ▸ room)
    rw [if_pos full, if_pos full]
    refine ⟨?_, keeps.nonnegative, ?_, ?_⟩
    · rw [dedup_concat]
      simpa [texts, full] using added
    · rw [entries] at selected ⊢
      simpa using selected
    · rw [List.range_succ]
      refine List.Perm.trans ?_ (accounted.append_right _)
      simp [addresses, entries]
  · rw [if_neg full, if_neg full]
    refine ⟨?_, keeps.nonnegative, ?_, ?_⟩
    · rw [dedup_concat]
      simpa [texts, full] using added
    · change history.historyIndex ≤ ((history.entries ++ [_]).length : Int)
      rw [List.length_append, List.length_singleton]
      omega
    · rw [List.range_succ]
      refine List.Perm.trans ?_ (accounted.append_right _)
      simp [addresses]

def useful (lines : List (List UInt8)) : List (List UInt8) := lines.filter fun pLine => !pLine.all LineReader.isSpace

theorem Keeps.push (keeps : Keeps capacity lines history) (pLine : List UInt8) :
    Keeps capacity (lines ++ useful [pLine]) (history.push capacity pLine) := by
  unfold useful
  by_cases blank : pLine.all LineReader.isSpace = true
  · have same : history.push capacity pLine = history := by
      unfold History.push
      rw [if_pos blank, ite_self]
    rw [same, List.filter_cons_of_neg (by simpa using blank), List.filter_nil, List.append_nil]
    exact keeps
  · rw [List.filter_cons_of_pos (by simpa using blank), List.filter_nil]
    rcases Nat.eq_zero_or_pos capacity with rfl | room
    · have same : history.push 0 pLine = history := if_pos rfl
      obtain ⟨older, -, fits, -⟩ := keeps.recent
      have none : history.texts = [] := List.length_eq_zero_iff.mp (Nat.le_zero.mp fits)
      rw [same]
      refine { keeps with recent := ?_ }
      rw [none]
      exact ⟨_, (List.append_nil _).symm, Nat.le_refl _, fun less => absurd less (Nat.lt_irrefl _)⟩
    · by_cases again : pLine ∈ history.texts
      · obtain ⟨entry, member, rfl⟩ := List.mem_map.mp again
        obtain ⟨front, back, split⟩ := List.append_of_mem member
        exact keeps.pullUp split room blank
      · exact keeps.add again room blank

theorem Keeps.pushAll (keeps : Keeps capacity lines history) (pushes : List (Option Nat × List UInt8)) :
    Keeps capacity (lines ++ useful (pushes.map Prod.snd)) (history.pushAll capacity pushes) := by
  induction pushes generalizing lines history with
  | nil => simpa [useful, History.pushAll] using keeps
  | cons first rest ih =>
    obtain ⟨position, pLine⟩ := first
    have pushed := ih ((keeps.select position).push pLine)
    have filtered : useful ((position, pLine) :: rest |>.map Prod.snd) = useful [pLine] ++ useful (rest.map Prod.snd) := by
      unfold useful
      rw [← List.filter_append]
      rfl
    rw [filtered, ← List.append_assoc]
    exact pushed

/-- The history has the newest of the most recent occurrences of the lines that were pushed, its index is in range, and each
string was duplicated and freed at most once, or is there. -/
def MostRecent (capacity : Nat) (lines : List (List UInt8)) (history : History) : Prop :=
  history.texts = (useful lines).dedup.rtake capacity ∧ history.texts.Nodup ∧ history.entries.length ≤ capacity ∧
    0 ≤ history.historyIndex ∧ history.historyIndex ≤ history.entries.length ∧
    (history.freed ++ history.addresses).Perm (List.range history.duplicated)

theorem pushAll_recent (capacity : Nat) (pushes : List (Option Nat × List UInt8)) :
    (empty.pushAll capacity pushes).MostRecent capacity (pushes.map Prod.snd) := by
  have keeps := (keeps_empty capacity).pushAll pushes
  rw [List.nil_append] at keeps
  obtain ⟨-, -, fits, -⟩ := keeps.recent
  rw [texts, List.length_map] at fits
  exact ⟨keeps.recent.rtake, keeps.nodup, fits, keeps.nonnegative, keeps.selected, keeps.accounted⟩

end History

/-! ### Sessions -/

namespace LineReader

/-- The lines that so many calls of `LineReader_ReadLine` return, and the reader behind them. -/
def readLines (fuel : Nat) : Nat → LineReader → List UInt8 → Option (List (List UInt8) × LineReader)
  | 0, reader, _ => some ([], reader)
  | count + 1, reader, input => do
      let (text, reader, input) ← reader.readLine fuel input
      let (texts, reader) ← readLines fuel count reader input
      some (text :: texts, reader)

/-- What the keys leave alone. -/
def kept (reader : LineReader) : List (List UInt8) × Nat := (reader.history, reader.historyCapacity)

section Session
variable {reader after : LineReader} {input rest : List UInt8} {fuel : Nat}

theorem store_kept {idx : Nat} {ch : UInt8} (stores : reader.store idx ch = some after) : after.kept = reader.kept := by
  unfold store at stores
  split at stores <;> cases stores
  rfl

theorem setLine_kept {text : List UInt8} (sets : reader.setLine text = some after) : after.kept = reader.kept := by
  obtain ⟨-, -, same⟩ := Option.bind_eq_some_iff.1 sets
  cases same
  rfl

theorem moveHistoryUp_kept (moves : reader.moveHistoryUp = some after) : after.kept = reader.kept := by
  unfold moveHistoryUp at moves
  split at moves
  · cases moves
    rfl
  · obtain ⟨saved, saves, moves⟩ := Option.bind_eq_some_iff.1 moves
    obtain ⟨entry, -, sets⟩ := Option.bind_eq_some_iff.1 moves
    refine (setLine_kept sets).trans (show saved.kept = reader.kept from ?_)
    unfold saveLineIfDirty at saves
    split at saves
    · obtain ⟨text, -, same⟩ := Option.bind_eq_some_iff.1 saves
      cases same
      rfl
    · cases saves
      rfl

theorem moveHistoryDown_kept (moves : reader.moveHistoryDown = some after) : after.kept = reader.kept := by
  unfold moveHistoryDown at moves
  split at moves
  · cases moves
    rfl
  · dsimp only at moves
    split at moves
    · obtain ⟨entry, -, sets⟩ := Option.bind_eq_some_iff.1 moves
      exact (setLine_kept sets).trans rfl
    · obtain ⟨saved, -, moves⟩ := Option.bind_eq_some_iff.1 moves
      obtain ⟨shown, sets, same⟩ := Option.bind_eq_some_iff.1 moves
      cases same
      exact (setLine_kept sets).trans rfl

theorem acceptCharacter_kept {ch : UInt8} (accepts : reader.acceptCharacter ch = some after) : after.kept = reader.kept := by
  obtain ⟨stored, stores, same⟩ := Option.bind_eq_some_iff.1 accepts
  cases same
  rw [← store_kept stores]
  split_ifs <;> rfl

theorem accept_kept {ch : Option UInt8} (accepts : reader.accept ch input = some (after, rest)) : after.kept = reader.kept := by
  unfold accept at accepts
  split at accepts
  · cases accepts
    rfl
  · cases accepts
    rfl
  · cases accepts
    unfold backspace
    split_ifs <;> rfl
  · obtain ⟨shown, clears, same⟩ := Option.map_eq_some_iff.1 accepts
    cases same
    obtain ⟨stored, stores, clears⟩ := Option.bind_eq_some_iff.1 clears
    obtain ⟨-, -, same⟩ := Option.bind_eq_some_iff.1 clears
    cases same
    exact store_kept stores
  · obtain ⟨steered, steers, same⟩ := Option.map_eq_some_iff.1 accepts
    cases same
    split at steers
    · exact moveHistoryUp_kept steers
    · exact moveHistoryDown_kept steers
    · cases steers
      unfold moveCursorRight
      split_ifs <;> rfl
    · cases steers
      rfl
    · cases steers
      rfl
  · obtain ⟨accepted, types, same⟩ := Option.map_eq_some_iff.1 accepts
    cases same
    exact acceptCharacter_kept types
  · obtain ⟨accepted, types, same⟩ := Option.map_eq_some_iff.1 accepts
    cases same
    exact acceptCharacter_kept types

theorem readLineLoop_kept (reads : readLineLoop fuel reader input = some (after, rest)) : after.kept = reader.kept := by
  induction fuel generalizing reader input with
  | zero => cases reads
  | succ fuel ih =>
    rw [readLineLoop] at reads
    dsimp only at reads
    split at reads
    · cases reads
      rfl
    · obtain ⟨⟨accepted, input'⟩, accepts, reads⟩ := Option.bind_eq_some_iff.1 reads
      exact (ih reads).trans (accept_kept accepts)

theorem removeFromHistory_entries (pLine : List UInt8) (entries : List (List UInt8)) (idx : Nat) (index other : Int) :
    (removeFromHistory pLine entries idx index).1 = (removeFromHistory pLine entries idx other).1 := by
  fun_induction removeFromHistory pLine entries idx index generalizing other <;> grind [removeFromHistory]

theorem pushHistory_entries (text : List UInt8) (index : Int) :
    ({ reader with historyIndex := index }.pushHistory text).history = (reader.pushHistory text).history := by
  unfold pushHistory
  dsimp only
  rw [removeFromHistory_entries text reader.history 0 index reader.historyIndex]
  split_ifs <;> rfl

open History in
/-- A call pushes the line that it returns to the history that it found. -/
theorem readLine_keeps {history : History} {lines : List (List UInt8)} {text : List UInt8}
    (keeps : Keeps reader.historyCapacity lines history) (entries : reader.history = history.texts)
    (reads : reader.readLine fuel input = some (text, after, rest)) :
    ∃ history', Keeps after.historyCapacity (lines ++ useful [text]) history' ∧ after.history = history'.texts ∧
      after.historyCapacity = reader.historyCapacity := by
  obtain ⟨⟨read, left⟩, loop, reads⟩ := Option.bind_eq_some_iff.1 reads
  obtain ⟨stored, stores, reads⟩ := Option.bind_eq_some_iff.1 reads
  obtain ⟨string, -, same⟩ := Option.bind_eq_some_iff.1 reads
  cases same
  obtain ⟨texts, capacity⟩ := Prod.mk.inj (((store_kept stores).trans (readLineLoop_kept loop)).trans
    (show reader.started.kept = reader.kept from rfl))
  have pushed := pushHistory_eq
    (show { stored with historyIndex := history.historyIndex }.history = history.texts from texts.trans entries) rfl text
  have after : (stored.pushHistory text).historyCapacity = reader.historyCapacity := by
    rw [← capacity]
    unfold pushHistory
    split_ifs <;> rfl
  refine ⟨_, ?_, (pushHistory_entries text history.historyIndex).symm.trans (congrArg LineReader.history pushed), after⟩
  rw [after, show stored.historyCapacity = reader.historyCapacity from capacity]
  exact keeps.push text

open History in
theorem readLines_keeps {count : Nat} {texts lines : List (List UInt8)} {history : History}
    (keeps : Keeps reader.historyCapacity lines history) (entries : reader.history = history.texts)
    (reads : readLines fuel count reader input = some (texts, after)) :
    ∃ history', Keeps reader.historyCapacity (lines ++ useful texts) history' ∧ after.history = history'.texts := by
  induction count generalizing reader texts lines input history with
  | zero =>
    cases reads
    exact ⟨history, by simpa [useful] using keeps, entries⟩
  | succ count ih =>
    obtain ⟨⟨text, next, rest⟩, readsLine, reads⟩ := Option.bind_eq_some_iff.1 reads
    obtain ⟨⟨texts', last⟩, readsLines, same⟩ := Option.bind_eq_some_iff.1 reads
    cases same
    obtain ⟨history', keeps', entries', capacity⟩ := readLine_keeps keeps entries readsLine
    have kept := ih keeps' entries' readsLines
    have split : useful (text :: texts') = useful [text] ++ useful texts' := by
      unfold useful
      rw [← List.filter_append]
      rfl
    rw [capacity, List.append_assoc, ← split] at kept
    exact kept

/-- After any session the reader has the newest of the most recent occurrences of the lines that were returned and are not
blank, whatever keys were pressed. -/
theorem readLines_recent (maxLineLength historyCapacity fuel count : Nat) {texts : List (List UInt8)} {input : List UInt8}
    (reads : readLines fuel count (create maxLineLength historyCapacity) input = some (texts, after)) :
    after.history = (History.useful texts).dedup.rtake historyCapacity ∧ after.history.Nodup ∧
      after.history.length ≤ historyCapacity := by
  obtain ⟨history, keeps, entries⟩ := readLines_keeps (History.keeps_empty historyCapacity) rfl reads
  rw [List.nil_append] at keeps
  rw [entries]
  obtain ⟨-, -, fits, -⟩ := keeps.recent
  exact ⟨keeps.recent.rtake, keeps.nodup, fits⟩

/-- The lines `l` and `p`, and the last one of them again. -/
def threeLines : Option (List (List UInt8) × LineReader) :=
  readLines 8 3 (create 8 4) [108, 10, 112, 10, 27, 91, 65, 10]

theorem threeLines_recent : ∃ after, threeLines = some ([[108], [112], [112]], after) ∧ after.history = [[108], [112]] := by
  have reads : threeLines = some ([[108], [112], [112]], _) := rfl
  exact ⟨_, reads, (readLines_recent 8 4 8 3 reads).1⟩

end Session
end LineReader

end Apollo.Shell
