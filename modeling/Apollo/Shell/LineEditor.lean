import Apollo.Shell.LineReader

/-!
# The line editor

A line editor that overwrites, with a history, as the README describes it: the text has at most one
character for each column, and the cursor is on a character or behind the last one, but never
behind the last column.  `LineReader` follows it as long as its shortcuts do not show.
-/

set_option autoImplicit false

namespace Apollo.Shell

/-- A character that `LineReader_ReadLine` does not take for a command. -/
def Typed (ch : UInt8) : Prop := ch ∉ [0, 1, 5, 8, 10, 12, 27]

instance (ch : UInt8) : Decidable (Typed ch) := inferInstanceAs (Decidable (_ ∉ _))

inductive Key
  | typed (ch : UInt8) (typed : Typed ch)
  | backspace
  | ctrlA
  | ctrlE
  | ctrlL
  | up
  | down
  | right
  | left
  deriving DecidableEq

def Key.bytes : Key → List UInt8
  | typed ch _ => [ch]
  | backspace => [8]
  | ctrlA => [1]
  | ctrlE => [5]
  | ctrlL => [12]
  | up => [27, 91, 65]
  | down => [27, 91, 66]
  | right => [27, 91, 67]
  | left => [27, 91, 68]

/-! ## The reference editor -/

/-- The text and the cursor, the selected entry of the history (its length when none is), and the
text that was left when one was selected.  `edited` tells whether a key has worked on the text
since it was begun or brought back, and `kept` whether it had when it was left. -/
structure LineEditor where
  text : List UInt8
  cursor : Nat
  index : Nat
  draft : List UInt8
  edited : Bool
  kept : Bool
  deriving DecidableEq

namespace LineEditor

/-- The cursor goes behind the text, or to the last column when the text fills all of them. -/
def display (columns : Nat) (text : List UInt8) (editor : LineEditor) : LineEditor :=
  { editor with text := text, cursor := min text.length (columns - 1) }

def edit (history : List (List UInt8)) (editor : LineEditor) : LineEditor :=
  { editor with edited := true, index := history.length }

def put (ch : UInt8) (editor : LineEditor) : List UInt8 :=
  if editor.cursor < editor.text.length then editor.text.set editor.cursor ch else editor.text ++ [ch]

/-- The entry above is selected, and the text is left when none was. -/
def leave (history : List (List UInt8)) (editor : LineEditor) : LineEditor :=
  if editor.index = history.length then
    { editor with draft := editor.text, kept := editor.edited, edited := false, index := editor.index - 1 }
  else { editor with index := editor.index - 1 }

def press (columns : Nat) (history : List (List UInt8)) (editor : LineEditor) : Key → LineEditor
  | .typed ch _ =>
    { editor with text := editor.put ch, cursor := min (editor.cursor + 1) (columns - 1) }.edit history
  | .backspace => if editor.cursor = 0 then editor else { editor with cursor := editor.cursor - 1 }.edit history
  | .ctrlA => { editor with cursor := 0 }
  | .ctrlE => { editor with cursor := min editor.text.length (columns - 1) }
  | .ctrlL => editor
  | .left => { editor with cursor := editor.cursor - 1 }
  | .right =>
    if editor.cursor < editor.text.length then { editor with cursor := min (editor.cursor + 1) (columns - 1) }
    else editor
  | .up =>
    if editor.index = 0 then editor
    else (editor.leave history).display columns (history.getD (editor.index - 1) [])
  | .down =>
    if editor.index = history.length then editor
    else if editor.index + 1 < history.length then
      { editor with index := editor.index + 1 }.display columns (history.getD (editor.index + 1) [])
    else { editor with index := editor.index + 1, edited := false }.display columns editor.draft

def start (history : List (List UInt8)) : LineEditor := ⟨[], 0, history.length, [], false, false⟩

def run (columns : Nat) (history : List (List UInt8)) : List Key → LineEditor → LineEditor
  | [], editor => editor
  | key :: rest, editor => run columns history rest (editor.press columns history key)

end LineEditor

/-! ## Where the reader follows the editor -/

namespace LineReader

/-- The byte at `length` ends the text, or the line does. -/
def EndsAt (lineCount : Nat) (stored : List UInt8) (length : Nat) : Prop := lineCount = length ∨ stored[length]? = some 0

def Meets (columns : Nat) (history : List (List UInt8)) (reader : LineReader) (editor : LineEditor) : Key → Prop
  | .typed ch _ =>
    -- in the last column a character is not counted, and elsewhere one that overwrites is
    if reader.x < reader.maxX then
      EndsAt (min (reader.lineCount + 1) columns) reader.line (editor.put ch).length
    else reader.lineCount = columns
  | .ctrlE => reader.lineCount = editor.text.length ∧ editor.text.length < columns
  | .right => editor.cursor < editor.text.length ∨ reader.x = reader.maxX
  | .up =>
    editor.index = 0 ∨
      (reader.isDirty = true → reader.line[editor.text.length]? = some 0) ∧
        (history.getD (editor.index - 1) []).length ≤ columns
  | .down =>
    editor.index = history.length ∨
      if editor.index + 1 < history.length then (history.getD (editor.index + 1) []).length ≤ columns
      else editor.kept = true
  | _ => True

variable {columns : Nat} {reader : LineReader} {editor : LineEditor} {ch : UInt8}

theorem meets_typed {history : List (List UInt8)}
    {typed : Typed ch} : Meets columns history reader editor (.typed ch typed) ↔
      if reader.x < reader.maxX then EndsAt (min (reader.lineCount + 1) columns) reader.line (editor.put ch).length
      else reader.lineCount = columns := Iff.rfl

theorem meets_right {history : List (List UInt8)} :
    Meets columns history reader editor .right ↔ editor.cursor < editor.text.length ∨ reader.x = reader.maxX := Iff.rfl

def press (reader : LineReader) (key : Key) : Option LineReader :=
  match key with
  | .typed ch _ => reader.acceptCharacter ch
  | .backspace => some reader.backspace
  | .ctrlA => some reader.moveCursorToBeginningOfLine
  | .ctrlE => some reader.moveCursorToEndOfLine
  | .ctrlL => reader.clearScreen
  | .up => reader.moveHistoryUp
  | .down => reader.moveHistoryDown
  | .right => some reader.moveCursorRight
  | .left => some reader.moveCursorLeft

instance (columns : Nat) (history : List (List UInt8)) (reader : LineReader) (editor : LineEditor) :
    (key : Key) → Decidable (Meets columns history reader editor key)
  | .typed _ _ => by unfold Meets EndsAt; infer_instance
  | .ctrlE => inferInstanceAs (Decidable (_ ∧ _))
  | .right => inferInstanceAs (Decidable (_ ∨ _))
  | .up => inferInstanceAs (Decidable (_ ∨ _))
  | .down => by unfold Meets; infer_instance
  | .backspace | .ctrlA | .ctrlL | .left => .isTrue trivial

def MeetsAll (columns : Nat) (history : List (List UInt8)) : List Key → LineReader → LineEditor → Prop
  | [], _, _ => True
  | key :: rest, reader, editor =>
    Meets columns history reader editor key ∧
      ∀ after ∈ reader.press key, MeetsAll columns history rest after (editor.press columns history key)

/-! ## One key -/

theorem accept_typed (typed : Typed ch) (input : List UInt8) (reader : LineReader) :
    reader.accept (some ch) input = (reader.acceptCharacter ch).map fun reader => (reader, input) := by
  simp only [Typed, List.mem_cons, List.not_mem_nil, or_false, not_or] at typed
  simp [accept, typed]

theorem readLineLoop_key (fuel : Nat) (reader : LineReader) (key : Key) (rest : List UInt8) :
    readLineLoop (fuel + 1) reader (key.bytes ++ rest) =
      (reader.press key).bind fun reader => readLineLoop fuel reader rest := by
  cases key with
  | typed ch typed =>
    have other : ch ≠ 10 := fun same => typed (by simp [same])
    simp only [Key.bytes, List.singleton_append, readLineLoop, getchar, accept_typed typed, press, Option.some.injEq,
      if_neg other, Option.bind_map]
    rfl
  | backspace => rfl
  | ctrlA => rfl
  | ctrlE => rfl
  | ctrlL =>
    simp only [Key.bytes, List.singleton_append, readLineLoop, getchar, accept, press, Option.bind_map]
    rfl
  | up =>
    simp only [Key.bytes, List.cons_append, List.nil_append, readLineLoop, getchar, accept, readEscapeSequence, press,
      Option.bind_map]
    rfl
  | down =>
    simp only [Key.bytes, List.cons_append, List.nil_append, readLineLoop, getchar, accept, readEscapeSequence, press,
      Option.bind_map]
    rfl
  | right => rfl
  | left => rfl

variable {columns : Nat} {history : List (List UInt8)} {reader after : LineReader} {editor : LineEditor}

/-- The reader is at the same place of the history, and knows what was left there. -/
structure Carries (columns : Nat) (history : List (List UInt8)) (reader : LineReader) (editor : LineEditor) : Prop where
  capacity : reader.lineCapacity = columns + 1
  lastColumn : reader.maxX = columns - 1
  entries : reader.history = history
  size : reader.line.length = columns + 1
  last : reader.line[columns]? = some 0
  index : reader.historyIndex = editor.index
  indexFits : editor.index ≤ history.length
  edited : reader.isDirty = editor.edited
  editing : editor.edited = true → editor.index = history.length
  draft : editor.index < history.length → editor.kept = true →
    reader.savedLine = some editor.draft ∧ editor.draft.length ≤ columns ∧ 0 ∉ editor.draft

structure Follows (columns : Nat) (history : List (List UInt8)) (reader : LineReader) (editor : LineEditor) : Prop
    extends Carries columns history reader editor where
  text : editor.text <+: reader.line
  textFits : editor.text.length ≤ columns
  textString : 0 ∉ editor.text
  counted : editor.text.length ≤ reader.lineCount ∧ reader.lineCount ≤ columns
  ends : EndsAt reader.lineCount reader.line editor.text.length
  cursor : reader.x = editor.cursor
  cursorFits : editor.cursor ≤ editor.text.length ∧ editor.cursor ≤ columns - 1

theorem cString?_of_ends {text buffer : List UInt8} (string : 0 ∉ text) (before : text <+: buffer)
    (ends : buffer[text.length]? = some 0) : cString? buffer = some text := by
  obtain ⟨tail, rfl⟩ := before
  cases tail with
  | nil => simp at ends
  | cons head tail =>
    obtain rfl : head = 0 := by simpa using ends
    have nonzero : ∀ ch ∈ text, (decide (ch ≠ 0)) = true := by
      intro ch there
      exact decide_eq_true fun zero => string (zero ▸ there)
    rw [cString?, if_pos (by simp), List.takeWhile_append_of_pos nonzero]
    simp

theorem store_eq (idx : Nat) (ch : UInt8) (inside : idx < reader.lineCapacity) :
    reader.store idx ch = some { reader with line := reader.line.set idx ch } := if_pos inside

/-! ### Characters -/

theorem prefix_put {text line : List UInt8} {place : Nat} (ch : UInt8) (before : text <+: line) (inside : place ≤ text.length)
    (room : place < line.length) :
    (if place < text.length then text.set place ch else text ++ [ch]) <+: line.set place ch := by
  obtain ⟨tail, rfl⟩ := before
  split
  case isTrue within =>
    rw [List.set_append_left _ _ within]
    exact List.prefix_append ..
  case isFalse behind =>
    obtain rfl : place = text.length := by omega
    cases tail with
    | nil => simp at room
    | cons head tail => exact ⟨tail, by simp⟩

def countAfter (columns : Nat) (reader : LineReader) : Nat :=
  min (if reader.x < reader.maxX then reader.lineCount + 1 else reader.lineCount) columns

theorem acceptCharacter_eq (positive : 0 < columns) (follows : Follows columns history reader editor) (ch : UInt8) :
    reader.acceptCharacter ch = some
      { reader with
        line := reader.line.set reader.x ch
        x := min (reader.x + 1) (columns - 1)
        lineCount := countAfter columns reader
        isDirty := true
        historyIndex := history.length } := by
  have capacity := follows.capacity
  have lastColumn := follows.lastColumn
  have cursor := follows.cursor
  have fits := follows.cursorFits.2
  have whole : reader.maxX + 1 = columns := by omega
  rw [acceptCharacter, store_eq _ _ (by omega)]
  simp only [Option.bind_eq_bind, Option.bind_some, onUserInput, countAfter, ← follows.entries]
  by_cases before : reader.x < reader.maxX
  · have moved : min (reader.x + 1) (columns - 1) = reader.x + 1 := by omega
    simp only [before, if_true, moved, whole]
  · have stays : min (reader.x + 1) (columns - 1) = reader.x := by omega
    simp only [before, if_false, stays, whole]

theorem put_length (editor : LineEditor) (ch : UInt8) (inside : editor.cursor ≤ editor.text.length) :
    (editor.put ch).length = max editor.text.length (editor.cursor + 1) := by
  rw [LineEditor.put]
  split
  case isTrue within =>
    rw [List.length_set]
    omega
  case isFalse behind =>
    rw [List.length_append, List.length_singleton]
    omega

theorem put_string {ch : UInt8} (typed : Typed ch) (string : 0 ∉ editor.text) : 0 ∉ editor.put ch := by
  have nonzero : (0 : UInt8) ≠ ch := fun zero => typed (by simp [← zero])
  rw [LineEditor.put]
  split
  · exact fun there => (List.mem_or_eq_of_mem_set there).elim string nonzero
  · simpa [nonzero] using string

theorem Follows.typed {ch : UInt8} {typed : Typed ch} (positive : 0 < columns)
    (follows : Follows columns history reader editor) (meets : Meets columns history reader editor (.typed ch typed)) :
    ∃ after, reader.press (.typed ch typed) = some after ∧
      Follows columns history after (editor.press columns history (.typed ch typed)) := by
  obtain ⟨inside, column⟩ := follows.cursorFits
  have cursor := follows.cursor
  have size := follows.size
  have counted := follows.counted
  have lastColumn := follows.lastColumn
  have length := put_length editor ch inside
  refine ⟨_, acceptCharacter_eq positive follows ch, ?_⟩
  have count : countAfter columns reader = min (if reader.x < reader.maxX then reader.lineCount + 1 else reader.lineCount) columns := rfl
  refine
    { capacity := follows.capacity
      lastColumn := lastColumn
      entries := follows.entries
      size := (List.length_set ..).trans size
      last := ?last
      index := rfl
      indexFits := le_refl _
      edited := rfl
      editing := fun _ => rfl
      draft := fun below => absurd below (lt_irrefl _)
      text := cursor ▸ prefix_put ch follows.text inside (by omega)
      textFits := ?textFits
      textString := put_string typed follows.textString
      counted := ?counted
      ends := ?ends
      cursor := congrArg (fun place => min (place + 1) (columns - 1)) cursor
      cursorFits := ?cursorFits }
  case last =>
    have apart : reader.x ≠ columns := by omega
    simpa [List.getElem?_set_ne apart] using follows.last
  case textFits =>
    show (editor.put ch).length ≤ columns
    omega
  case counted =>
    show (editor.put ch).length ≤ countAfter columns reader ∧ countAfter columns reader ≤ columns
    rw [meets_typed] at meets
    split at meets <;> split at count <;> omega
  case ends =>
    show EndsAt (countAfter columns reader) (reader.line.set reader.x ch) (editor.put ch).length
    rw [meets_typed] at meets
    have apart : reader.x ≠ (editor.put ch).length := by omega
    rw [EndsAt, List.getElem?_set_ne apart]
    split at meets
    case isTrue before =>
      rw [count, if_pos before]
      exact meets
    case isFalse behind =>
      rw [count, if_neg behind]
      omega
  case cursorFits =>
    show min (editor.cursor + 1) (columns - 1) ≤ (editor.put ch).length ∧ min (editor.cursor + 1) (columns - 1) ≤ columns - 1
    omega

/-! ### The cursor -/

theorem Follows.move {place : Nat} (follows : Follows columns history reader editor)
    (fits : place ≤ editor.text.length ∧ place ≤ columns - 1) :
    Follows columns history { reader with x := place } { editor with cursor := place } :=
  { follows with cursor := rfl, cursorFits := fits }

theorem Follows.backspace (follows : Follows columns history reader editor) :
    Follows columns history reader.backspace (editor.press columns history .backspace) := by
  have cursor := follows.cursor
  simp only [LineReader.backspace, LineEditor.press, cursor]
  split
  case isTrue => exact follows
  case isFalse =>
    have fits := follows.cursorFits
    have moved := @Follows.move _ _ _ _ (editor.cursor - 1) follows (by omega)
    exact
      { moved with
        index := congrArg (fun entries : List (List UInt8) => (entries.length : Int)) follows.entries
        indexFits := le_refl _
        edited := rfl
        editing := fun _ => rfl
        draft := fun below => absurd below (lt_irrefl _) }

theorem Follows.right (follows : Follows columns history reader editor) (meets : Meets columns history reader editor .right) :
    Follows columns history reader.moveCursorRight (editor.press columns history .right) := by
  have cursor := follows.cursor
  have lastColumn := follows.lastColumn
  have fits := follows.cursorFits
  rw [meets_right] at meets
  by_cases before : reader.x < reader.maxX
  · have within : editor.cursor < editor.text.length := by omega
    have moved : min (editor.cursor + 1) (columns - 1) = reader.x + 1 := by omega
    simp only [moveCursorRight, LineEditor.press, if_pos before, if_pos within, moved]
    exact follows.move (by omega)
  · have stays : editor.press columns history .right = { editor with cursor := editor.cursor } := by
      simp only [LineEditor.press]
      split
      · have moved : min (editor.cursor + 1) (columns - 1) = editor.cursor := by omega
        rw [moved]
      · rfl
    rw [stays, moveCursorRight, if_neg before]
    exact follows

/-! ### The screen and the history -/

theorem Follows.terminated (follows : Follows columns history reader editor) :
    ∃ after, reader.store reader.lineCount 0 = some after ∧ Follows columns history after editor ∧
      cString? after.line = some editor.text ∧ after.history = history := by
  have counted := follows.counted
  have size := follows.size
  have capacity := follows.capacity
  have zero : ∀ place, reader.line[place]? = some 0 ∨ place = reader.lineCount →
      (reader.line.set reader.lineCount 0)[place]? = some 0 := by
    intro place ends
    by_cases same : reader.lineCount = place
    · rw [List.getElem?_set, if_pos same, if_pos (by omega)]
    · rw [List.getElem?_set_ne same]
      exact ends.resolve_right (Ne.symm same)
  have ended := zero editor.text.length (follows.ends.symm.imp id Eq.symm)
  have before : editor.text <+: reader.line.set reader.lineCount 0 := by
    obtain ⟨tail, same⟩ := follows.text
    rw [← same, List.set_append_right _ _ counted.1]
    exact List.prefix_append ..
  refine ⟨_, store_eq _ _ (by omega), ?_, cString?_of_ends follows.textString before ended, follows.entries⟩
  exact
    { follows with
      size := (List.length_set ..).trans size
      last := zero columns (.inl follows.last)
      text := before
      ends := .inr ended }

theorem Follows.clearScreen (follows : Follows columns history reader editor) :
    ∃ after, reader.clearScreen = some after ∧ Follows columns history after editor := by
  obtain ⟨after, stored, kept, string, -⟩ := follows.terminated
  refine ⟨after, ?_, kept⟩
  simp [LineReader.clearScreen, printInputLine, stored, string]

theorem strncpy_eq {stored text : List UInt8} (size : stored.length = columns + 1) (last : stored[columns]? = some 0)
    (fits : text.length ≤ columns) :
    strncpy stored text columns = text ++ List.replicate (columns + 1 - text.length) 0 := by
  have tail : stored.drop columns = [0] := by
    rw [List.drop_eq_getElem_cons (by omega), List.drop_of_length_le (by omega)]
    rw [List.getElem?_eq_getElem (by omega)] at last
    rw [Option.some.inj last]
  have count : columns + 1 - text.length = columns - text.length + 1 := by omega
  rw [strncpy, tail, List.take_of_length_le fits, count, List.replicate_succ', List.append_assoc]

theorem ended_string {text : List UInt8} (string : 0 ∉ text) (fits : text.length ≤ columns) :
    (text ++ List.replicate (columns + 1 - text.length) (0 : UInt8))[text.length]? = some 0 ∧
      cString? (text ++ List.replicate (columns + 1 - text.length) 0) = some text := by
  have behind : (text ++ List.replicate (columns + 1 - text.length) (0 : UInt8))[text.length]? = some 0 := by
    rw [List.getElem?_append_right (le_refl _), Nat.sub_self]
    exact List.getElem?_replicate_of_lt (by omega)
  exact ⟨behind, cString?_of_ends string (List.prefix_append ..) behind⟩

theorem Carries.setLine_eq {text : List UInt8} (carries : Carries columns history reader editor)
    (fits : text.length ≤ columns) (string : 0 ∉ text) :
    reader.setLine text = some
      { reader with
        line := text ++ List.replicate (columns + 1 - text.length) 0
        lineCount := text.length
        x := min text.length (columns - 1) } := by
  have within : ¬text.length ≥ columns + 1 := by omega
  simp only [LineReader.setLine, carries.capacity, carries.lastColumn, if_neg within, Nat.add_sub_cancel,
    strncpy_eq carries.size carries.last fits, (ended_string string fits).2, Option.bind_eq_bind, Option.bind_some]

theorem Carries.display {text : List UInt8} (carries : Carries columns history reader editor)
    (fits : text.length ≤ columns) (string : 0 ∉ text) :
    Follows columns history
      { reader with
        line := text ++ List.replicate (columns + 1 - text.length) 0
        lineCount := text.length
        x := min text.length (columns - 1) } (editor.display columns text) :=
  { carries with
    size := by
      rw [List.length_append, List.length_replicate]
      omega
    last := by
      rw [List.getElem?_append_right fits]
      exact List.getElem?_replicate_of_lt (by omega)
    text := List.prefix_append ..
    textFits := fits
    textString := string
    counted := ⟨le_refl _, fits⟩
    ends := .inl rfl
    cursor := rfl
    cursorFits := ⟨Nat.min_le_left .., Nat.min_le_right ..⟩ }

theorem Follows.leave (follows : Follows columns history reader editor) (selects : editor.index ≠ 0)
    (ends : reader.isDirty = true → reader.line[editor.text.length]? = some 0) :
    ∃ saved, reader.saveLineIfDirty = some saved ∧ saved.history = history ∧ saved.historyIndex = editor.index ∧
      Carries columns history { saved with historyIndex := saved.historyIndex - 1 } (editor.leave history) := by
  have index := follows.index
  have fits := follows.indexFits
  have above : ((editor.index - 1 : Nat) : Int) = reader.historyIndex - 1 := by omega
  rw [saveLineIfDirty]
  cases dirty : reader.isDirty with
  | true =>
    have string := cString?_of_ends follows.textString follows.text (ends dirty)
    have newest := follows.editing (follows.edited ▸ dirty)
    rw [if_pos rfl, string, LineEditor.leave, if_pos newest]
    refine ⟨_, rfl, follows.entries, index, ?_⟩
    exact
      { follows with
        index := above.symm
        indexFits := (Nat.sub_le ..).trans fits
        edited := rfl
        editing := nofun
        draft := fun _ _ => ⟨rfl, follows.textFits, follows.textString⟩ }
  | false =>
    have clean : editor.edited = false := follows.edited ▸ dirty
    rw [if_neg (by simp), LineEditor.leave]
    refine ⟨_, rfl, follows.entries, index, ?_⟩
    split
    case isTrue newest =>
      exact
        { follows with
          index := above.symm
          indexFits := (Nat.sub_le ..).trans fits
          edited := dirty
          editing := nofun
          draft := fun _ kept => absurd (clean.symm.trans kept) (by decide) }
    case isFalse older =>
      exact
        { follows with
          index := above.symm
          indexFits := (Nat.sub_le ..).trans fits
          editing := fun edited => absurd (clean.symm.trans edited) (by decide)
          draft := fun _ => follows.draft (by omega) }

theorem getD_string (strings : ∀ entry ∈ history, 0 ∉ entry) (idx : Nat) : 0 ∉ history.getD idx [] := by
  rw [List.getD_eq_getElem?_getD]
  cases found : history[idx]? with
  | none => simp
  | some entry => exact strings entry (List.mem_of_getElem? found)

theorem Follows.up (strings : ∀ entry ∈ history, 0 ∉ entry) (follows : Follows columns history reader editor)
    (meets : Meets columns history reader editor .up) :
    ∃ after, reader.moveHistoryUp = some after ∧ Follows columns history after (editor.press columns history .up) := by
  have index := follows.index
  have fits := follows.indexFits
  have entries := follows.entries
  by_cases oldest : editor.index = 0
  · have stays : reader.history.length = 0 ∨ reader.historyIndex < 1 := by omega
    rw [moveHistoryUp, if_pos stays]
    simp only [LineEditor.press, if_pos oldest]
    exact ⟨_, rfl, follows⟩
  · obtain ⟨ends, short⟩ := meets.resolve_left oldest
    have moves : ¬(reader.history.length = 0 ∨ reader.historyIndex < 1) := by
      rw [entries]
      omega
    obtain ⟨saved, saves, same, place, carries⟩ := follows.leave oldest ends
    have selected : (saved.historyIndex - 1).toNat = editor.index - 1 := by omega
    have entry : saved.history[(saved.historyIndex - 1).toNat]? = some (history.getD (editor.index - 1) []) := by
      rw [selected, same, List.getD_eq_getElem?_getD, List.getElem?_eq_getElem (by omega)]
      rfl
    have string := getD_string strings (editor.index - 1)
    simp only [moveHistoryUp, if_neg moves, saves, entry, LineEditor.press, if_neg oldest, Option.bind_eq_bind,
      Option.bind_some]
    exact ⟨_, carries.setLine_eq short string, carries.display short string⟩

theorem Follows.down (strings : ∀ entry ∈ history, 0 ∉ entry) (follows : Follows columns history reader editor)
    (meets : Meets columns history reader editor .down) :
    ∃ after, reader.moveHistoryDown = some after ∧ Follows columns history after (editor.press columns history .down) := by
  have index := follows.index
  have fits := follows.indexFits
  have entries := follows.entries
  by_cases newest : editor.index = history.length
  · have stays : reader.history.length = 0 ∨ reader.historyIndex = reader.history.length := by
      rw [entries]
      omega
    rw [moveHistoryDown, if_pos stays]
    simp only [LineEditor.press, if_pos newest]
    exact ⟨_, rfl, follows⟩
  · have limit := meets.resolve_left newest
    have moves : ¬(reader.history.length = 0 ∨ reader.historyIndex = reader.history.length) := by
      rw [entries]
      omega
    have clean : editor.edited ≠ true := newest ∘ follows.editing
    have below : reader.historyIndex + 1 = ((editor.index + 1 : Nat) : Int) := by omega
    by_cases inside : editor.index + 1 < history.length
    · rw [if_pos inside] at limit
      have carries : Carries columns history { reader with historyIndex := reader.historyIndex + 1 }
          { editor with index := editor.index + 1 } :=
        { follows with
          index := below
          indexFits := inside.le
          editing := fun edited => absurd edited clean
          draft := fun _ => follows.draft (by omega) }
      have string := getD_string strings (editor.index + 1)
      have selected : (reader.historyIndex + 1).toNat = editor.index + 1 := by omega
      have entry : reader.history[(reader.historyIndex + 1).toNat]? = some (history.getD (editor.index + 1) []) := by
        rw [selected, entries, List.getD_eq_getElem?_getD, List.getElem?_eq_getElem inside]
        rfl
      have stays : reader.historyIndex + 1 < reader.history.length := by
        rw [entries]
        omega
      simp only [moveHistoryDown, if_neg moves, if_pos stays, entry, LineEditor.press, if_neg newest, if_pos inside,
        Option.bind_eq_bind, Option.bind_some]
      exact ⟨_, carries.setLine_eq limit string, carries.display limit string⟩
    · rw [if_neg inside] at limit
      obtain ⟨saved, short, string⟩ := follows.draft (by omega) limit
      have carries : Carries columns history { reader with historyIndex := reader.historyIndex + 1 }
          { editor with index := editor.index + 1, edited := false } :=
        { follows with
          index := below
          indexFits := by
            show editor.index + 1 ≤ history.length
            omega
          edited := follows.edited.trans (Bool.eq_false_iff.mpr clean)
          editing := nofun
          draft := fun below => absurd below inside }
      have leaves : ¬reader.historyIndex + 1 < reader.history.length := by
        rw [entries]
        omega
      simp only [moveHistoryDown, if_neg moves, if_neg leaves, LineEditor.press, if_neg newest, if_neg inside]
      refine ⟨_, Option.bind_eq_some_iff.mpr ⟨_, saved, Option.bind_eq_some_iff.mpr ⟨_, carries.setLine_eq short string, rfl⟩⟩, ?_⟩
      exact { carries.display short string with draft := fun below => absurd below inside }

/-! ## The line -/

theorem Follows.press (positive : 0 < columns) (strings : ∀ entry ∈ history, 0 ∉ entry)
    (follows : Follows columns history reader editor) {key : Key} (meets : Meets columns history reader editor key) :
    ∃ after, reader.press key = some after ∧ Follows columns history after (editor.press columns history key) := by
  cases key with
  | typed ch typed => exact follows.typed positive meets
  | backspace => exact ⟨_, rfl, follows.backspace⟩
  | ctrlA => exact ⟨_, rfl, follows.move ⟨Nat.zero_le _, Nat.zero_le _⟩⟩
  | ctrlE =>
    obtain ⟨count, inside⟩ := meets
    have place : min editor.text.length (columns - 1) = reader.lineCount := by omega
    refine ⟨_, rfl, ?_⟩
    simp only [LineEditor.press, place]
    exact follows.move (by omega)
  | ctrlL => exact follows.clearScreen
  | up => exact follows.up strings meets
  | down => exact follows.down strings meets
  | right => exact ⟨_, rfl, follows.right meets⟩
  | left =>
    have fits := follows.cursorFits
    refine ⟨_, rfl, ?_⟩
    simp only [moveCursorLeft, follows.cursor]
    exact follows.move (by omega)

theorem Follows.run (positive : 0 < columns) (strings : ∀ entry ∈ history, 0 ∉ entry) (rest : List UInt8) (keys : List Key) :
    ∀ (reader : LineReader) (editor : LineEditor), Follows columns history reader editor →
      MeetsAll columns history keys reader editor →
        ∃ after, readLineLoop (keys.length + 1) reader (keys.flatMap Key.bytes ++ 10 :: rest) = some (after, rest) ∧
          Follows columns history after (LineEditor.run columns history keys editor) := by
  induction keys with
  | nil => exact fun reader editor follows _ => ⟨reader, rfl, follows⟩
  | cons key keys ih =>
    rintro reader editor follows ⟨meets, later⟩
    obtain ⟨next, pressed, follows⟩ := follows.press positive strings meets
    obtain ⟨after, loop, follows⟩ := ih next _ follows (later next pressed)
    refine ⟨after, ?_, follows⟩
    rw [List.flatMap_cons, List.append_assoc, List.length_cons, readLineLoop_key, pressed]
    exact loop

/-- A reader with so many columns; what earlier calls have left in its line does not matter. -/
structure WellFormed (columns : Nat) (reader : LineReader) : Prop where
  positive : 0 < columns
  capacity : reader.lineCapacity = columns + 1
  lastColumn : reader.maxX = columns - 1
  size : reader.line.length = columns + 1
  last : reader.line[columns]? = some 0
  strings : ∀ entry ∈ reader.history, 0 ∉ entry

theorem WellFormed.started (wellFormed : reader.WellFormed columns) :
    Follows columns reader.history reader.started (.start reader.history) := by
  have positive := wellFormed.positive
  have size := wellFormed.size
  exact
    { capacity := wellFormed.capacity
      lastColumn := wellFormed.lastColumn
      entries := rfl
      size := (List.length_set ..).trans size
      last := (List.getElem?_set_ne (by omega)).trans wellFormed.last
      index := rfl
      indexFits := le_refl _
      edited := rfl
      editing := nofun
      draft := fun below => absurd below (lt_irrefl _)
      text := List.nil_prefix
      textFits := Nat.zero_le _
      textString := List.not_mem_nil
      counted := ⟨le_refl _, Nat.zero_le _⟩
      ends := .inl rfl
      cursor := rfl
      cursorFits := ⟨le_refl _, Nat.zero_le _⟩ }

/-- The keys `b`, up, down and `c` at a line with one entry in the history. -/
def oneEntry : LineReader := { create 8 4 with history := [[120]] }

end LineReader
end Apollo.Shell
