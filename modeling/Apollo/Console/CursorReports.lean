import Apollo.Console.ConsoleInput
import Apollo.Console.CsiParameters
import Apollo.Klib.IntText

/-!
# Cursor reports

The report of the cursor position and the two commands that address the cursor.  `Int32_ToString`
returns the end of the number that it has copied, and the report has no numbers then.
-/

set_option autoImplicit false

namespace Apollo.Console

open Klib

/-- The text at the pointer that `Int32_ToString` returns for the radix 10.  `numbuf` has any content, and so have the digits. -/
def int32Text (val : Int) : List UInt8 :=
  match (IntText.int32 (Int32.ofInt val)).toString divide32 10 false (fun _ => 0) (some fun _ => 0) with
  | some (some (numbuf, p)) => ((List.range kDigitBufferCapacity).map fun i => numbuf (p + i)).takeWhile (· ≠ 0)
  | _ => []

/-- The parts of the console that the cursor commands use, with all reports that were posted. -/
structure Terminal where
  parser : Vt500Parser
  x : Int
  y : Int
  right : Int
  bottom : Int
  reports : List (List UInt8)

namespace Terminal

/-- `Console_MoveCursor_Locked` in the mode that clamps. -/
def moveCursor (pConsole : Terminal) (dx dy : Int) : Terminal :=
  if dx = 0 ∧ dy = 0 then pConsole
  else
    { pConsole with
      x := max (min (pConsole.x + dx) (pConsole.right - 1)) 0
      y := max (min (pConsole.y + dy) (pConsole.bottom - 1)) 0 }

def moveCursorTo (pConsole : Terminal) (x y : Int) : Terminal := pConsole.moveCursor (x - pConsole.x) (y - pConsole.y)

def postReport (pConsole : Terminal) (msg : List UInt8) : Terminal :=
  { pConsole with reports := pConsole.reports ++ [msg] }

def positionReport (pConsole : Terminal) : List UInt8 :=
  [27, 91] ++ (if pConsole.x > 0 ∨ pConsole.y > 0 then
    int32Text (pConsole.y + 1) ++ [59] ++ int32Text (pConsole.x + 1) else []) ++ [82]

def isPrivateMode (pConsole : Terminal) : Bool :=
  decide (pConsole.parser.numIntermediateChars > 0) && pConsole.parser.intermediateChars[0] == 63

/-- A round of the loop of `Console_VT100_CSI_n_Locked`. -/
def reportStatus (pConsole : Terminal) (i : Nat) : Terminal :=
  let p := (pConsole.parser.nthCsiParameter i 0).getD 0
  if pConsole.isPrivateMode then if p = 15 then pConsole.postReport [27, 91, 63, 49, 51, 110] else pConsole
  else if p = 5 then pConsole.postReport [27, 91, 48, 110]
  else if p = 6 then pConsole.postReport pConsole.positionReport
  else pConsole

def csiN (pConsole : Terminal) : Terminal := (List.range pConsole.parser.numParams).foldl reportStatus pConsole

/-- The console as a client of its parser.  `other` is what it does for all other commands. -/
def client (other : Vt500Action → UInt8 → Terminal → Terminal) : Vt500Client Terminal where
  parser := parser
  setParser parser pConsole := { pConsole with parser := parser }
  callback action ch pConsole :=
    match action, ch.toNat with
    | .csiDispatch, 102 =>
      pConsole.moveCursorTo ((pConsole.parser.nthCsiParameter 1 1).getD 1 - 1)
        ((pConsole.parser.nthCsiParameter 0 1).getD 1 - 1)
    | .csiDispatch, 110 => pConsole.csiN
    | .csiDispatch, 72 => pConsole.moveCursorTo 0 0
    | action, _ => other action ch pConsole

/-! ## What reports are for -/

/-- A report gives the position in decimal, row first; both numbers may be left out when they are 1. -/
def Reports (report : List UInt8) (x y : Int) : Prop :=
  ∃ row col : Digits, (numberOf row : Int) = y + 1 ∧ (numberOf col : Int) = x + 1 ∧
    (report = [27, 91] ++ joined [row, col] ++ [82] ∨ x = 0 ∧ y = 0 ∧ report = [27, 91, 82])

structure OnScreen (pConsole : Terminal) : Prop where
  ground : pConsole.parser.state = .ground
  columns : 0 ≤ pConsole.x ∧ pConsole.x < pConsole.right ∧ pConsole.right ≤ 999
  rows : 0 ≤ pConsole.y ∧ pConsole.y < pConsole.bottom ∧ pConsole.bottom ≤ 999

section
variable (other : Vt500Action → UInt8 → Terminal → Terminal)

def Returns (final : UInt8) (pConsole : Terminal) : Prop :=
  ∀ start : Terminal, start.OnScreen → start.right = pConsole.right → start.bottom = pConsole.bottom →
    ∀ row col : Digits, (numberOf row : Int) = pConsole.y + 1 → (numberOf col : Int) = pConsole.x + 1 →
      ∃ after, (client other).feed ([27, 91] ++ joined [row, col] ++ [final]) start = some after ∧
        after.x = pConsole.x ∧ after.y = pConsole.y

def Inverts (pConsole : Terminal) : Prop :=
  (∃ after report, (client other).feed [27, 91, 54, 110] pConsole = some after ∧
      after.reports = pConsole.reports ++ [report] ∧ Reports report pConsole.x pConsole.y ∧
      report.length < maxMessageLength) ∧
    Returns other 72 pConsole ∧ Returns other 102 pConsole

end

/-! ## The report -/

theorem int32Text_eq_nil (val : Int) : int32Text val = [] := by
  unfold int32Text
  split
  case h_1 numbuf p returns => simp [List.range_succ_eq_map, kDigitBufferCapacity, toString_end returns]
  case h_2 => rfl

theorem positionReport_eq (pConsole : Terminal) :
    pConsole.positionReport = if pConsole.x > 0 ∨ pConsole.y > 0 then [27, 91, 59, 82] else [27, 91, 82] := by
  rw [positionReport, int32Text_eq_nil, int32Text_eq_nil]
  split <;> rfl

section
variable (other : Vt500Action → UInt8 → Terminal → Terminal) {pConsole : Terminal}

theorem request_posts (ground : pConsole.parser.state = .ground) :
    ∃ after, (client other).feed [27, 91, 54, 110] pConsole = some after ∧
      after.reports = pConsole.reports ++ [pConsole.positionReport] := by
  obtain ⟨⟨state, intermediateChars, numIntermediateChars, params, numParams, ignoreFlagged⟩, x, y, right, bottom, reports⟩ :=
    pConsole
  obtain rfl : state = .ground := ground
  -- The request is collected in front of the parameters that an earlier sequence left.
  let sixth := Vt500Parser.appendDigit (params.set 0 0)[0] 54
  let parser : Vt500Parser := ⟨.csiParam, intermediateChars, 0, (params.set 0 0).set 0 sixth, 1, false⟩
  let request : Terminal := ⟨parser, x, y, right, bottom, reports⟩
  have six : parser.nthCsiParameter 0 0 = some 6 := by
    rw [Vt500Parser.nthCsiParameter, if_pos Nat.one_pos, dif_pos (Nat.succ_pos 15)]
    simp only [parser, sixth, Vector.getElem_set_self]
    rfl
  have posts : request.reportStatus 0 = request.postReport request.positionReport := by
    rw [reportStatus, six]
    rfl
  refine ⟨{ request.csiN with parser := { request.csiN.parser with state := .ground } }, rfl, ?_⟩
  exact congrArg Terminal.reports posts

theorem reports_iff (onScreen : pConsole.OnScreen) :
    Reports pConsole.positionReport pConsole.x pConsole.y ↔ pConsole.x = 0 ∧ pConsole.y = 0 := by
  obtain ⟨-, columns, rows⟩ := onScreen
  rw [positionReport_eq]
  constructor
  · rintro ⟨row, col, isRow, -, report⟩
    by_contra moved
    rw [if_pos (by omega)] at report
    rcases report with same | ⟨first, second, -⟩
    · -- A row that is written has a digit in front of the separator.
      cases row with
      | nil =>
        have none : numberOf [] = 0 := rfl
        omega
      | cons digit more =>
        have separator : (59 : UInt8) = encodeDigit digit := by
          exact (List.cons.inj (List.cons.inj (List.cons.inj same).2).2).1
        exact encodeDigit_ne digit separator.symm
    · exact moved ⟨first, second⟩
  · rintro ⟨first, second⟩
    rw [if_neg (by omega)]
    exact ⟨[1], [1], by rw [second]; rfl, by rw [first]; rfl, .inr ⟨first, second, rfl⟩⟩

/-! ## The commands -/

theorem client_lawful : (client other).Lawful fun pConsole => { pConsole with parser := Vt500Client.groundParser } :=
  ⟨fun _ _ => rfl, fun _ _ => rfl⟩

theorem command_dispatches {start : Terminal} (ground : start.parser.state = .ground) (row col : Digits)
    (isRow : 0 < numberOf row ∧ numberOf row ≤ kMaxParameter) (isCol : numberOf col ≤ kMaxParameter) {final : UInt8}
    (isFinal : 64 ≤ final.toNat ∧ final.toNat ≤ 126) :
    ∃ parser : Vt500Parser, parser.Sees [row, col] ∧
      (client other).feed ([27, 91] ++ joined [row, col] ++ [final]) start =
        (fun pConsole : Terminal => some { pConsole with parser := { pConsole.parser with state := .ground } })
          ((client other).callback .csiDispatch final { start with parser := parser }) := by
  have exits : (client other).doActionIfAny (vt500ExitAction start.parser.state) 0 start = some start := by
    rw [ground]
    rfl
  obtain ⟨next, introduces, collecting⟩ := Vt500Client.introduce_of_exits (client_lawful other) start exits
  have arrives : Arrives [row, col] := by
    cases row with
    | nil => exact absurd isRow.1 (by decide)
    | cons digit more =>
      refine ⟨Nat.le_of_ble_eq_true rfl, ?_⟩
      simp only [List.forall_mem_cons]
      exact ⟨.inl isRow.2, .inl isCol, fun _ mem => absurd mem List.not_mem_nil⟩
  obtain ⟨room, same⟩ := (stored_iff _).2 arrives
  obtain ⟨state, feeds, collecting⟩ := collecting.all (client_lawful other) _ room
  refine ⟨state.parser, (collecting.holds.sees_iff _).2 same, ?_⟩
  have view := collecting.view
  have isStart : { start with parser := state.parser } = state := by
    injection view with _ x y right bottom reports
    cases state
    simp_all
  rw [Vt500Client.feed_append, Vt500Client.feed_append, introduces, Option.bind_some, feeds, Option.bind_some,
    Vt500Client.feed, collecting.dispatch isFinal, isStart]
  rfl

theorem parameterOf_eq {params : List Digits} {index : Nat} {number : Int} {digits : Digits}
    (at' : params[index]? = some digits) (is : (numberOf digits : Int) = number) (positive : 0 < number)
    (small : number ≤ kMaxParameter) : parameterOf params index 1 = number := by
  rw [parameterOf, at', Option.getD_some, if_pos (by omega)]
  omega

theorem moveCursorTo_spec {x y : Int} (column : 0 ≤ x ∧ x < pConsole.right) (row : 0 ≤ y ∧ y < pConsole.bottom) :
    (pConsole.moveCursorTo x y).x = x ∧ (pConsole.moveCursorTo x y).y = y := by
  rw [moveCursorTo, moveCursor]
  split
  · omega
  · dsimp only
    omega

theorem command_returns {final : UInt8} (isFinal : 64 ≤ final.toNat ∧ final.toNat ≤ 126) (onScreen : pConsole.OnScreen)
    (moves : ∀ start : Terminal, start.parser.nthCsiParameter 1 1 = some (pConsole.x + 1) →
      start.parser.nthCsiParameter 0 1 = some (pConsole.y + 1) →
        (client other).callback .csiDispatch final start = start.moveCursorTo pConsole.x pConsole.y) :
    Returns other final pConsole := by
  obtain ⟨-, columns, rows⟩ := onScreen
  have largest : kMaxParameter = 32767 := rfl
  intro start startOnScreen sameRight sameBottom row col isRow isCol
  obtain ⟨parser, sees, feeds⟩ := command_dispatches other startOnScreen.ground row col
    (by omega) (by omega) isFinal
  have second := sees.values 1 (by decide) 1
  have first := sees.values 0 (by decide) 1
  rw [parameterOf_eq rfl isCol (by omega) (by omega)] at second
  rw [parameterOf_eq rfl isRow (by omega) (by omega)] at first
  rw [feeds, moves _ second first]
  exact ⟨_, rfl, @moveCursorTo_spec { start with parser := parser } _ _ (by rw [sameRight]; omega)
    (by rw [sameBottom]; omega)⟩

theorem Inverts.corner {other : Vt500Action → UInt8 → Terminal → Terminal} (inverts : Inverts other pConsole) (onScreen : pConsole.OnScreen) :
    pConsole.x = 0 ∧ pConsole.y = 0 := by
  obtain ⟨⟨after, report, feeds, posts, reports, -⟩, -, -⟩ := inverts
  obtain ⟨after', feeds', posts'⟩ := request_posts other onScreen.ground
  obtain rfl := Option.some.inj (feeds.symm.trans feeds')
  obtain rfl := List.singleton_inj.1 (List.append_cancel_left (posts.symm.trans posts'))
  exact (reports_iff onScreen).1 reports

end

/-- The console's report and its two commands undo each other at the upper left corner only. -/
theorem inverts_iff (other : Vt500Action → UInt8 → Terminal → Terminal) (pConsole : Terminal)
    (onScreen : pConsole.OnScreen) : Inverts other pConsole ↔ pConsole.x = 0 ∧ pConsole.y = 0 := by
  constructor
  · exact fun inverts => inverts.corner onScreen
  · rintro ⟨first, second⟩
    obtain ⟨after, feeds, posts⟩ := request_posts other onScreen.ground
    refine ⟨⟨after, _, feeds, posts, (reports_iff onScreen).2 ⟨first, second⟩, ?_⟩, ?_, ?_⟩
    · rw [positionReport_eq]
      split <;> decide
    · refine command_returns other (by decide) onScreen fun start _ _ => ?_
      rw [first, second]
      rfl
    · refine command_returns other (by decide) onScreen fun start isCol isRow => ?_
      show start.moveCursorTo _ _ = _
      rw [isCol, isRow, Option.getD_some, Option.getD_some, Int.add_sub_cancel, Int.add_sub_cancel]

def smallTerminal (x y : Int) : Terminal := ⟨Vt500Client.groundParser, x, y, 80, 25, []⟩

theorem corner_inverts : Inverts (fun _ _ pConsole => pConsole) (smallTerminal 0 0) :=
  (inverts_iff _ (smallTerminal 0 0) ⟨rfl, by decide, by decide⟩).2 ⟨rfl, rfl⟩

/-- In column 4 of row 2 the report has no numbers. -/
theorem report_empty : ¬ Inverts (fun _ _ pConsole => pConsole) (smallTerminal 4 2) := by
  intro inverts
  exact absurd (inverts.corner ⟨rfl, by decide, by decide⟩).1 (by decide)

end Terminal

end Apollo.Console
