import Apollo.Console.Vt500Parser
import Mathlib.Data.Fin.Basic
import Mathlib.Data.List.Induction

/-!
# The parameters of control sequences

What the handler of `ESC [ p1 ; ... ; pn F` sees of the parameters.  `seen` is the
part of `params` that is in use.
-/

set_option autoImplicit false

namespace Apollo.Console

open Lib

namespace Vt500Parser

/-- `get_nth_csi_parameter` of the console; `none` is an access outside of `params`. -/
def nthCsiParameter (parser : Vt500Parser) (idx : Nat) (defValue : Int) : Option Int :=
  if parser.numParams > idx then
    if inside : idx < vt500ParamsLength then
      let val := parser.params[idx].toInt
      some (if val > 0 then val else defValue)
    else none
  else some defValue

structure Holds (parser : Vt500Parser) (seen : List (BitVec 16)) : Prop where
  count : parser.numParams = seen.length
  bounded : seen.length ≤ vt500ParamsLength
  params : ∀ index (inside : index < seen.length) (bound : index < vt500ParamsLength), parser.params[index] = seen[index]

end Vt500Parser

/-! ## Numbers -/

abbrev Digits : Type := List (Fin 10)

def encodeDigit (digit : Fin 10) : UInt8 := UInt8.ofNat (48 + digit.val)

def numberOf (digits : Digits) : Nat := digits.foldl (fun number digit => number * 10 + digit.val) 0

def accumulate (param : BitVec 16) (digits : Digits) : BitVec 16 :=
  digits.foldl (fun param digit => Vt500Parser.appendDigit param (encodeDigit digit)) param

def joined : List Digits → List UInt8
  | [] => []
  | first :: rest => first.map encodeDigit ++ rest.flatMap fun digits => 59 :: digits.map encodeDigit

theorem toNat_encodeDigit (digit : Fin 10) : (encodeDigit digit).toNat = 48 + digit.val := by
  unfold encodeDigit
  rw [UInt8.toNat_ofNat']
  omega

theorem encodeDigit_ne (digit : Fin 10) : encodeDigit digit ≠ 59 := by
  intro same
  have value := congrArg UInt8.toNat same
  rw [toNat_encodeDigit] at value
  have nine : (59 : UInt8).toNat = 59 := rfl
  omega

/-! ## Collecting -/

namespace Vt500Parser

variable {parser : Vt500Parser} {seen front : List (BitVec 16)} {last : BitVec 16}

theorem Holds.param_separator (holds : parser.Holds seen) (room : seen.length < vt500ParamsLength) :
    ∃ after, parser.param 59 = some after ∧ after.Holds (seen ++ [0]) ∧ after.state = parser.state := by
  have inside : parser.numParams < vt500ParamsLength := holds.count ▸ room
  refine ⟨{ parser with numParams := parser.numParams + 1, params := parser.params.set parser.numParams 0 inside }, ?_, ?_, rfl⟩
  · unfold param
    rw [if_pos rfl, dif_pos inside]
  · refine ⟨?_, ?_, fun index bound small => ?_⟩
    · rw [List.length_append, ← holds.count]
      rfl
    · rw [List.length_append]
      exact room
    · rw [List.length_append, List.length_singleton] at bound
      rw [Vector.getElem_set, holds.count, List.getElem_append]
      by_cases isNew : seen.length = index
      · rw [if_pos isNew, dif_neg (by omega)]
        simp
      · rw [if_neg isNew, dif_pos (by omega)]
        exact holds.params index (by omega) small

theorem Holds.param_full (holds : parser.Holds seen) (full : vt500ParamsLength ≤ seen.length) : parser.param 59 = none := by
  have outside : ¬parser.numParams < vt500ParamsLength := by
    rw [holds.count]
    omega
  unfold param
  rw [if_pos rfl, dif_neg outside]

theorem Holds.appendDigit (holds : parser.Holds (front ++ [last])) (ch : UInt8)
    (inside : parser.numParams - 1 < vt500ParamsLength) :
    Holds
      { parser with
        params := parser.params.set (parser.numParams - 1)
          (Vt500Parser.appendDigit parser.params[parser.numParams - 1] ch) inside }
      (front ++ [Vt500Parser.appendDigit last ch]) := by
  have count := holds.count
  have bounded := holds.bounded
  rw [List.length_append, List.length_singleton] at count bounded
  have current : parser.params[parser.numParams - 1] = last := by
    have stored := holds.params front.length (by rw [List.length_append]; exact Nat.lt_succ_self _) bounded
    have same : parser.numParams - 1 = front.length := by omega
    simpa [same] using stored
  refine ⟨?_, ?_, fun index bound small => ?_⟩
  · rw [List.length_append]
    exact count
  · rw [List.length_append]
    exact bounded
  · rw [List.length_append, List.length_singleton] at bound
    rw [Vector.getElem_set, current, List.getElem_append]
    by_cases isLast : parser.numParams - 1 = index
    · rw [if_pos isLast, dif_neg (by omega)]
      simp
    · have before : index < front.length := by omega
      have stored := holds.params index (by rw [List.length_append, List.length_singleton]; omega) small
      rw [List.getElem_append_left before] at stored
      rw [if_neg isLast, dif_pos before]
      exact stored

theorem Holds.param_digit (holds : parser.Holds (front ++ [last])) (digit : Fin 10) :
    ∃ after, parser.param (encodeDigit digit) = some after ∧
      after.Holds (front ++ [Vt500Parser.appendDigit last (encodeDigit digit)]) ∧ after.state = parser.state := by
  have count := holds.count
  have bounded := holds.bounded
  rw [List.length_append, List.length_singleton] at count bounded
  have begun : parser.beginParams = parser := if_neg (by omega)
  have inside : parser.numParams - 1 < vt500ParamsLength := by omega
  refine ⟨_, ?_, holds.appendDigit (encodeDigit digit) inside, rfl⟩
  unfold param
  rw [if_neg (encodeDigit_ne digit), begun]
  exact dif_pos inside

theorem Holds.param_first (holds : parser.Holds []) (digit : Fin 10) :
    ∃ after, parser.param (encodeDigit digit) = some after ∧
      after.Holds [Vt500Parser.appendDigit 0 (encodeDigit digit)] ∧ after.state = parser.state := by
  have begun : parser.beginParams = { parser with numParams := 1, params := parser.params.set 0 0 } := if_pos holds.count
  have first : parser.beginParams.Holds ([] ++ [0]) := by
    rw [begun]
    refine ⟨rfl, by decide, fun index bound small => ?_⟩
    obtain rfl : index = 0 := Nat.lt_one_iff.mp bound
    simp
  have kept : parser.beginParams.state = parser.state := by rw [begun]
  have inside : parser.beginParams.numParams - 1 < vt500ParamsLength := by
    rw [begun]
    exact Nat.succ_pos 15
  refine ⟨_, ?_, first.appendDigit (encodeDigit digit) inside, kept⟩
  unfold param
  rw [if_neg (encodeDigit_ne digit)]
  exact dif_pos inside

end Vt500Parser

def stored : List Digits → List (BitVec 16)
  | [] => []
  | [] :: rest => rest.map (accumulate 0)
  | (digit :: more) :: rest => accumulate 0 (digit :: more) :: rest.map (accumulate 0)

namespace Vt500Client

variable {σ β : Type} {client : Vt500Client σ} {view : σ → β} {value : β} {state : σ} {seen front : List (BitVec 16)}
  {last : BitVec 16}

theorem feed_append (client : Vt500Client σ) (front back : List UInt8) (start : σ) :
    client.feed (front ++ back) start = (client.feed front start).bind (client.feed back) := by
  induction front generalizing start with
  | nil => rfl
  | cons ch rest ih =>
    rw [List.cons_append, feed, feed, Option.bind_assoc]
    congr 1
    funext after
    exact ih after

/-- What is stored in the parser is read from it; `view` is what the client has besides its parser. -/
structure Lawful (client : Vt500Client σ) (view : σ → β) : Prop where
  parser_setParser : ∀ parser state, client.parser (client.setParser parser state) = parser
  kept : ∀ parser state, view (client.setParser parser state) = view state

structure Collecting (client : Vt500Client σ) (view : σ → β) (value : β) (seen : List (BitVec 16)) (state : σ) : Prop where
  collecting : (client.parser state).state = .csiEntry ∨ (client.parser state).state = .csiParam
  holds : (client.parser state).Holds seen
  view : view state = value

def IsParam (ch : UInt8) : Prop := 48 ≤ ch.toNat ∧ ch.toNat ≤ 57 ∨ ch = 59

theorem rangeEntry_param {ch : UInt8} (isParam : IsParam ch) :
    rangeEntry (vt500StateTable .csiEntry) ch.toNat = some (some .param, some .csiParam) ∧
      rangeEntry (vt500StateTable .csiParam) ch.toNat = some (some .param, none) := by
  simp only [vt500StateTable, vt500Controls, vt500Graphics, rangeEntry, List.cons_append, List.nil_append]
  rcases isParam with digit | rfl
  · constructor
    · rw [if_neg (by omega), if_neg (by omega), if_neg (by omega), if_neg (by omega), if_neg (by omega), if_neg (by omega),
        if_neg (by omega), if_pos (by omega)]
    · rw [if_neg (by omega), if_neg (by omega), if_neg (by omega), if_neg (by omega), if_neg (by omega), if_neg (by omega),
        if_neg (by omega), if_pos (by omega)]
  · exact ⟨rfl, rfl⟩

namespace Collecting

variable (lawful : client.Lawful view)
include lawful

theorem step {ch : UInt8} (collecting : client.Collecting view value seen state) (isParam : IsParam ch)
    {after : Vt500Parser} {seen' : List (BitVec 16)}
    (goes : (client.parser state).param ch = some after ∧ after.Holds seen' ∧ after.state = (client.parser state).state) :
    ∃ next, client.doStateChange ch state = some next ∧ client.Collecting view value seen' next := by
  obtain ⟨takes, holds, same⟩ := goes
  obtain ⟨entry, param⟩ := rangeEntry_param isParam
  rcases collecting.collecting with isEntry | isCsiParam
  · rw [doStateChange_move isEntry entry]
    simp only [changeState, vt500ExitAction, vt500EntryAction, doActionIfAny_none, doActionIfAny_some, doAction, takes,
      Option.map_some, Option.bind_eq_bind, Option.bind_some]
    refine ⟨_, rfl, .inr ?_, ?_, ?_⟩
    · rw [lawful.parser_setParser]
    · rw [lawful.parser_setParser, lawful.parser_setParser]
      exact ⟨holds.count, holds.bounded, holds.params⟩
    · rw [lawful.kept, lawful.kept]
      exact collecting.view
  · rw [doStateChange_stay isCsiParam param]
    simp only [doAction, takes, Option.map_some]
    refine ⟨_, rfl, .inr ?_, ?_, ?_⟩
    · rw [lawful.parser_setParser, same, isCsiParam]
    · rw [lawful.parser_setParser]
      exact holds
    · rw [lawful.kept]
      exact collecting.view

omit lawful in
theorem step_none {ch : UInt8} (collecting : client.Collecting view value seen state) (isParam : IsParam ch)
    (faults : (client.parser state).param ch = none) : client.doStateChange ch state = none := by
  obtain ⟨entry, param⟩ := rangeEntry_param isParam
  rcases collecting.collecting with isEntry | isCsiParam
  · rw [doStateChange_move isEntry entry]
    simp [changeState, doAction, vt500ExitAction, faults]
  · rw [doStateChange_stay isCsiParam param]
    simp [doAction, faults]

omit lawful in
theorem isParam_digit (digit : Fin 10) : IsParam (encodeDigit digit) := by
  have value := toNat_encodeDigit digit
  exact .inl (by omega)

theorem digits (digits : Digits) (collecting : client.Collecting view value (front ++ [last]) state) :
    ∃ next, client.feed (digits.map encodeDigit) state = some next ∧
      client.Collecting view value (front ++ [accumulate last digits]) next := by
  induction digits generalizing state last with
  | nil => exact ⟨state, rfl, collecting⟩
  | cons digit rest ih =>
    obtain ⟨after, goes⟩ := collecting.holds.param_digit digit
    obtain ⟨next, changes, collecting⟩ := collecting.step lawful (isParam_digit digit) goes
    obtain ⟨final, feeds, collecting⟩ := ih collecting
    refine ⟨final, ?_, collecting⟩
    rw [List.map_cons, feed, changes]
    exact feeds

theorem first (digit : Fin 10) (rest : Digits) (collecting : client.Collecting view value [] state) :
    ∃ next, client.feed ((digit :: rest).map encodeDigit) state = some next ∧
      client.Collecting view value [accumulate 0 (digit :: rest)] next := by
  obtain ⟨after, goes⟩ := collecting.holds.param_first digit
  obtain ⟨next, changes, collecting⟩ := collecting.step lawful (isParam_digit digit) goes
  obtain ⟨final, feeds, collecting⟩ := @digits _ _ _ _ _ _ [] _ lawful rest collecting
  refine ⟨final, ?_, collecting⟩
  rw [List.map_cons, feed, changes]
  exact feeds

theorem others (rest : List Digits) (collecting : client.Collecting view value seen state)
    (room : seen.length + rest.length ≤ vt500ParamsLength) :
    ∃ next, client.feed (rest.flatMap fun digits => 59 :: digits.map encodeDigit) state = some next ∧
      client.Collecting view value (seen ++ rest.map (accumulate 0)) next := by
  induction rest generalizing state seen with
  | nil => exact ⟨state, rfl, by rwa [List.map_nil, List.append_nil]⟩
  | cons number rest ih =>
    rw [List.length_cons] at room
    obtain ⟨after, goes⟩ := collecting.holds.param_separator (by omega)
    obtain ⟨begun, changes, collecting⟩ := collecting.step lawful (.inr rfl) goes
    obtain ⟨next, feeds, collecting⟩ := collecting.digits lawful number
    obtain ⟨final, feeds', collecting⟩ := ih collecting (by rw [List.length_append, List.length_singleton]; omega)
    rw [List.append_assoc, List.singleton_append] at collecting
    refine ⟨final, ?_, collecting⟩
    rw [List.flatMap_cons, List.cons_append, feed, changes, Option.bind_some, feed_append, feeds]
    exact feeds'

/-- One parameter too many is stored behind `params`. -/
theorem others_none (rest : List Digits) (collecting : client.Collecting view value seen state)
    (full : vt500ParamsLength < seen.length + rest.length) :
    client.feed (rest.flatMap fun digits => 59 :: digits.map encodeDigit) state = none := by
  induction rest generalizing state seen with
  | nil =>
    have bounded := collecting.holds.bounded
    rw [List.length_nil] at full
    omega
  | cons number rest ih =>
    rw [List.length_cons] at full
    by_cases room : seen.length < vt500ParamsLength
    · obtain ⟨after, goes⟩ := collecting.holds.param_separator room
      obtain ⟨begun, changes, collecting⟩ := collecting.step lawful (.inr rfl) goes
      obtain ⟨next, feeds, collecting⟩ := collecting.digits lawful number
      rw [List.flatMap_cons, List.cons_append, feed, changes, Option.bind_some, feed_append, feeds]
      exact ih collecting (by rw [List.length_append, List.length_singleton]; omega)
    · have faults := collecting.step_none (.inr rfl) (collecting.holds.param_full (Nat.le_of_not_lt room))
      rw [List.flatMap_cons, List.cons_append, feed, faults]
      rfl

theorem all (params : List Digits) (collecting : client.Collecting view value [] state)
    (room : (stored params).length ≤ vt500ParamsLength) :
    ∃ next, client.feed (joined params) state = some next ∧ client.Collecting view value (stored params) next := by
  cases params with
  | nil => exact ⟨state, rfl, collecting⟩
  | cons number rest =>
    cases number with
    | nil =>
      rw [stored, List.length_map] at room
      exact collecting.others lawful rest (by simpa using room)
    | cons digit more =>
      rw [stored, List.length_cons, List.length_map] at room
      obtain ⟨next, feeds, collecting⟩ := collecting.first lawful digit more
      obtain ⟨final, feeds', collecting⟩ := collecting.others lawful rest (by rw [List.length_singleton]; omega)
      refine ⟨final, ?_, collecting⟩
      rw [joined, feed_append, feeds]
      exact feeds'

theorem all_none (params : List Digits) (collecting : client.Collecting view value [] state)
    (full : vt500ParamsLength < (stored params).length) : client.feed (joined params) state = none := by
  cases params with
  | nil => simp [stored] at full
  | cons number rest =>
    cases number with
    | nil =>
      rw [stored, List.length_map] at full
      exact collecting.others_none lawful rest (by simpa using full)
    | cons digit more =>
      rw [stored, List.length_cons, List.length_map] at full
      obtain ⟨next, feeds, collecting⟩ := collecting.first lawful digit more
      rw [joined, feed_append, feeds]
      exact collecting.others_none lawful rest (by rw [List.length_singleton]; omega)

end Collecting

theorem introduce_of_exits (lawful : client.Lawful view) (state : σ) {left : σ}
    (exits : client.doActionIfAny (vt500ExitAction (client.parser state).state) 0 state = some left) :
    ∃ next, client.feed [27, 91] state = some next ∧ client.Collecting view (view left) [] next := by
  have escapes : rangeEntry (vt500StateTable (client.parser state).state) (27 : UInt8).toNat = some (none, some .escape) := by
    cases (client.parser state).state <;> rfl
  have brackets : rangeEntry (vt500StateTable .escape) (91 : UInt8).toNat = some (none, some .csiEntry) := rfl
  rw [feed, doStateChange_move rfl escapes]
  simp only [changeState, exits, doActionIfAny_none, vt500EntryAction, doActionIfAny_some, doAction, Option.bind_eq_bind,
    Option.bind_some]
  rw [feed, doStateChange_move (by rw [lawful.parser_setParser]) brackets]
  simp only [changeState, vt500ExitAction, doActionIfAny_none, vt500EntryAction, doActionIfAny_some, doAction,
    Option.bind_eq_bind, Option.bind_some]
  refine ⟨_, rfl, .inl ?_, ?_, ?_⟩
  · rw [lawful.parser_setParser]
  · rw [lawful.parser_setParser, lawful.parser_setParser]
    exact ⟨rfl, Nat.zero_le _, fun index inside => absurd inside (Nat.not_lt_zero index)⟩
  · simp only [lawful.kept]

theorem introduce (lawful : client.Lawful view) (state : σ) :
    ∃ next, client.feed [27, 91] state = some next ∧ client.Collecting view (view next) [] next := by
  obtain ⟨left, exits⟩ : ∃ left, client.doActionIfAny (vt500ExitAction (client.parser state).state) 0 state = some left := by
    cases (client.parser state).state <;> exact ⟨_, rfl⟩
  obtain ⟨next, feeds, collecting⟩ := introduce_of_exits lawful state exits
  exact ⟨next, feeds, collecting.collecting, collecting.holds, rfl⟩

theorem Collecting.dispatch (collecting : client.Collecting view value seen state) {final : UInt8}
    (isFinal : 64 ≤ final.toNat ∧ final.toNat ≤ 126) :
    client.doStateChange final state =
      some (client.setParser { client.parser (client.callback .csiDispatch final state) with state := .ground }
        (client.callback .csiDispatch final state)) := by
  have entry : rangeEntry (vt500StateTable .csiEntry) final.toNat = some (some .csiDispatch, some .ground) := by
    simp only [vt500StateTable, vt500Controls, vt500Graphics, rangeEntry, List.cons_append, List.nil_append]
    rw [if_neg (by omega), if_neg (by omega), if_neg (by omega), if_neg (by omega), if_neg (by omega), if_neg (by omega),
      if_neg (by omega), if_neg (by omega), if_neg (by omega), if_neg (by omega), if_neg (by omega), if_pos (by omega)]
  have param : rangeEntry (vt500StateTable .csiParam) final.toNat = some (some .csiDispatch, some .ground) := by
    simp only [vt500StateTable, vt500Controls, vt500Graphics, rangeEntry, List.cons_append, List.nil_append]
    rw [if_neg (by omega), if_neg (by omega), if_neg (by omega), if_neg (by omega), if_neg (by omega), if_neg (by omega),
      if_neg (by omega), if_neg (by omega), if_neg (by omega), if_neg (by omega), if_neg (by omega), if_pos (by omega)]
  rcases collecting.collecting with isEntry | isParam
  · rw [doStateChange_move isEntry entry]
    rfl
  · rw [doStateChange_move isParam param]
    rfl

end Vt500Client

/-! ## What the handlers see -/

/-- The largest parameter, which is the largest `short`. -/
def kMaxParameter : Nat := 32767

/-- The value of a parameter for a handler whose default is `defValue`. -/
def parameterOf (params : List Digits) (index : Nat) (defValue : Int) : Int :=
  let number : Int := min (numberOf (params[index]?.getD [])) kMaxParameter
  if number > 0 then number else defValue

/-- The handlers see the parameters, and their loops over them stay inside of `params`. -/
structure Vt500Parser.Sees (parser : Vt500Parser) (params : List Digits) : Prop where
  values : ∀ index, index < vt500ParamsLength → ∀ defValue,
    parser.nthCsiParameter index defValue = some (parameterOf params index defValue)
  loops : ∀ index, index < parser.numParams → ∀ defValue, ∃ value, parser.nthCsiParameter index defValue = some value

def Vt500Client.traced {σ : Type} (client : Vt500Client σ) : Vt500Client (σ × List (Vt500Action × UInt8 × Vt500Parser)) where
  parser state := client.parser state.1
  setParser parser state := (client.setParser parser state.1, state.2)
  callback action ch state := (client.callback action ch state.1, state.2 ++ [(action, ch, client.parser state.1)])

/-- The sequence reaches the handler of `final`, which sees its parameters. -/
def Vt500Client.Delivers {σ : Type} (client : Vt500Client σ) (start : σ) (params : List Digits) (final : UInt8) : Prop :=
  ∃ state calls parser after,
    client.traced.feed ([27, 91] ++ joined params) (start, []) = some (state, calls) ∧
      client.traced.doStateChange final (state, calls) = some (after, calls ++ [(.csiDispatch, final, parser)]) ∧
      parser.Sees params

def positive (param : BitVec 16) : Nat := param.toInt.toNat

theorem Vt500Parser.Holds.sees_iff {parser : Vt500Parser} {seen : List (BitVec 16)} (holds : parser.Holds seen)
    (params : List Digits) :
    parser.Sees params ↔ ∀ index, index < vt500ParamsLength →
      positive (seen[index]?.getD 0) = min (numberOf (params[index]?.getD [])) kMaxParameter := by
  have read : ∀ index, index < vt500ParamsLength → ∀ defValue, parser.nthCsiParameter index defValue =
      some (if (seen[index]?.getD 0).toInt > 0 then (seen[index]?.getD 0).toInt else defValue) := by
    intro index bound defValue
    unfold nthCsiParameter
    by_cases inside : index < seen.length
    · rw [if_pos (by rw [holds.count]; exact inside), dif_pos bound, List.getElem?_eq_getElem inside, Option.getD_some,
        holds.params index inside bound]
    · rw [if_neg (by rw [holds.count]; omega), List.getElem?_eq_none (by omega), Option.getD_none]
      rfl
  constructor
  · intro sees index bound
    have value := sees.values index bound 0
    rw [read index bound 0, Option.some.injEq] at value
    unfold parameterOf at value
    unfold positive
    dsimp only at value
    split at value <;> split at value <;> omega
  · intro same
    refine ⟨fun index bound defValue => ?_, fun index inside defValue => ?_⟩
    · have value := same index bound
      rw [read index bound defValue, Option.some.injEq]
      unfold parameterOf
      unfold positive at value
      dsimp only
      split <;> split <;> omega
    · rw [holds.count] at inside
      exact ⟨_, read index (Nat.lt_of_lt_of_le inside holds.bounded) defValue⟩

/-! ## Large numbers -/

def asShort (number : Nat) : Int := (BitVec.ofNat 16 number).toInt

/-- The digits that count: those up to the first number that is at least 9999 as a `short`. -/
def Counts (digits front : Digits) : Prop :=
  ∃ back, digits = front ++ back ∧ (back = [] ∨ 9999 ≤ asShort (numberOf front)) ∧
    ∀ shorter more, front = shorter ++ more → more ≠ [] → asShort (numberOf shorter) < 9999

def Clamps (digits : Digits) : Prop :=
  numberOf digits ≤ kMaxParameter ∨ ∃ front, Counts digits front ∧ asShort (numberOf front) = kMaxParameter

section Numbers
variable {digits front other : Digits}

theorem numberOf_append (front back : Digits) : numberOf (front ++ back) = back.foldl (fun n d => n * 10 + d.val) (numberOf front) :=
  List.foldl_append

theorem numberOf_concat (digits : Digits) (digit : Fin 10) : numberOf (digits ++ [digit]) = numberOf digits * 10 + digit.val := by
  rw [numberOf_append]
  rfl

/-- More digits make a number ten times as large. -/
theorem le_numberOf_append (front back : Digits) : numberOf front ≤ numberOf (front ++ back) := by
  induction back using List.reverseRecOn with
  | nil => rw [List.append_nil]
  | append_singleton back digit ih =>
    rw [← List.append_assoc, numberOf_concat]
    omega

theorem ten_mul_le_numberOf {front back : Digits} (more : back ≠ []) : numberOf front * 10 ≤ numberOf (front ++ back) := by
  rcases List.eq_nil_or_concat back with rfl | ⟨init, digit, rfl⟩
  · exact absurd rfl more
  · have larger := le_numberOf_append front init
    rw [List.concat_eq_append, ← List.append_assoc, numberOf_concat]
    omega

theorem asShort_of_le {number : Nat} (small : number ≤ kMaxParameter) : asShort number = number := by
  unfold kMaxParameter at small
  have value : (BitVec.ofNat 16 number).toNat = number := by
    rw [BitVec.toNat_ofNat]
    omega
  unfold asShort
  rw [BitVec.toInt_eq_toNat_of_lt (by omega), value]

theorem appendDigit_ofNat {number : Nat} (small : asShort number < 9999) (digit : Fin 10) :
    Vt500Parser.appendDigit (BitVec.ofNat 16 number) (encodeDigit digit) = BitVec.ofNat 16 (number * 10 + digit.val) := by
  unfold asShort at small
  unfold Vt500Parser.appendDigit
  rw [if_pos small, toNat_encodeDigit]
  have isDigit : BitVec.ofInt 16 (((48 + digit.val : Nat) : Int) - 48) = BitVec.ofNat 16 digit.val := by
    rw [show ((48 + digit.val : Nat) : Int) - 48 = (digit.val : Int) by omega]
    exact BitVec.ofInt_natCast 16 digit.val
  rw [isDigit, BitVec.ofNat_add, BitVec.ofNat_mul]
  rfl

theorem accumulate_eq (digits : Digits) : ∃ front, Counts digits front ∧ accumulate 0 digits = BitVec.ofNat 16 (numberOf front) := by
  induction digits using List.reverseRecOn with
  | nil =>
    refine ⟨[], ⟨[], rfl, .inl rfl, fun shorter more parts some => ?_⟩, rfl⟩
    exact absurd (List.append_eq_nil_iff.mp parts.symm).2 some
  | append_singleton digits digit ih =>
    obtain ⟨front, ⟨back, rfl, ends, below⟩, is⟩ := ih
    have next : accumulate 0 (front ++ back ++ [digit]) =
        Vt500Parser.appendDigit (accumulate 0 (front ++ back)) (encodeDigit digit) := by
      unfold accumulate
      rw [List.foldl_append]
      rfl
    by_cases reached : 9999 ≤ asShort (numberOf front)
    · refine ⟨front, ⟨back ++ [digit], List.append_assoc .., .inr reached, below⟩, ?_⟩
      rw [next, is]
      exact if_neg (Int.not_lt.mpr reached)
    · obtain rfl : back = [] := ends.resolve_right reached
      rw [List.append_nil] at *
      refine ⟨front ++ [digit], ⟨[], (List.append_nil _).symm, .inl rfl, fun shorter more parts some => ?_⟩, ?_⟩
      · rcases List.eq_nil_or_concat more with rfl | ⟨init, last, rfl⟩
        · exact absurd rfl some
        · rw [List.concat_eq_append, ← List.append_assoc] at parts
          obtain ⟨same, -⟩ := List.append_inj' parts rfl
          rcases List.eq_nil_or_concat init with rfl | ⟨_, _, isConcat⟩
          · rw [List.append_nil] at same
            rw [← same]
            exact Int.lt_of_not_ge reached
          · exact below shorter init same (by rw [isConcat]; simp)
      · rw [next, is, appendDigit_ofNat (Int.lt_of_not_ge reached), numberOf_concat]

theorem Counts.unique (counts : Counts digits front) (counts' : Counts digits other) : front = other := by
  obtain ⟨back, parts, ends, below⟩ := counts
  obtain ⟨back', parts', ends', below'⟩ := counts'
  rcases List.append_eq_append_iff.mp (parts.symm.trans parts') with ⟨more, isOther, isBack⟩ | ⟨more, isFront, isBack⟩
  · by_cases some : more = []
    · rw [isOther, some, List.append_nil]
    · have less := below' front more isOther some
      rcases ends with none | reached
      · rw [none] at isBack
        exact absurd (List.append_eq_nil_iff.mp isBack.symm).1 some
      · omega
  · by_cases some : more = []
    · rw [isFront, some, List.append_nil]
    · have less := below other more isFront some
      rcases ends' with none | reached
      · rw [none] at isBack
        exact absurd (List.append_eq_nil_iff.mp isBack.symm).1 some
      · omega

theorem positive_accumulate (counts : Counts digits front) : positive (accumulate 0 digits) = (asShort (numberOf front)).toNat := by
  obtain ⟨front', counts', is⟩ := accumulate_eq digits
  rw [is, counts'.unique counts]
  rfl

theorem Counts.of_small (counts : Counts digits front) (small : numberOf digits ≤ kMaxParameter) : front = digits := by
  obtain ⟨back, rfl, ends, -⟩ := counts
  by_cases none : back = []
  · rw [none, List.append_nil]
  · have reached := ends.resolve_left none
    have larger := @ten_mul_le_numberOf front _ none
    have smaller := le_numberOf_append front back
    rw [asShort_of_le (Nat.le_trans smaller small)] at reached
    unfold kMaxParameter at small
    omega

theorem clamps_iff (digits : Digits) : positive (accumulate 0 digits) = min (numberOf digits) kMaxParameter ↔ Clamps digits := by
  obtain ⟨front, counts, -⟩ := accumulate_eq digits
  rw [positive_accumulate counts]
  by_cases small : numberOf digits ≤ kMaxParameter
  · have whole := counts.of_small small
    rw [whole, asShort_of_le small, Nat.min_eq_left small]
    exact ⟨fun _ => .inl small, fun _ => rfl⟩
  · rw [Nat.min_eq_right (Nat.le_of_not_le small)]
    have positiveMax : kMaxParameter = 32767 := rfl
    constructor
    · intro same
      exact .inr ⟨front, counts, by omega⟩
    · rintro (small' | ⟨front', counts', largest⟩)
      · exact absurd small' small
      · rw [counts.unique counts', largest]
        rfl

end Numbers

/-! ## Sequences -/

/-- The sequences whose parameters arrive: at most 16 parameters that are clamped, or an empty first parameter and only
zeros behind it.  A sequence of 17 parameters with an empty first one is stored too; it arrives when each parameter is
read as the one in front of it. -/
def Arrives : List Digits → Prop
  | [] => True
  | [] :: rest =>
    rest.length < vt500ParamsLength ∧ (∀ digits ∈ rest, numberOf digits = 0) ∨
      rest.length = vt500ParamsLength ∧ ∀ index, index < vt500ParamsLength → ∃ front,
        Counts (rest[index]?.getD []) front ∧
          (asShort (numberOf front)).toNat = min (numberOf (([] :: rest)[index]?.getD [])) kMaxParameter
  | params => params.length ≤ vt500ParamsLength ∧ ∀ digits ∈ params, Clamps digits

theorem positive_stored (rest : List Digits) (index : Nat) :
    positive ((rest.map (accumulate 0))[index]?.getD 0) = positive (accumulate 0 (rest[index]?.getD [])) := by
  rw [List.getElem?_map]
  cases rest[index]? with
  | none => rfl
  | some digits => rfl

theorem placed_iff {params : List Digits} (room : params.length ≤ vt500ParamsLength) :
    (∀ index, index < vt500ParamsLength →
        positive ((params.map (accumulate 0))[index]?.getD 0) = min (numberOf (params[index]?.getD [])) kMaxParameter) ↔
      ∀ digits ∈ params, Clamps digits := by
  constructor
  · intro same digits member
    obtain ⟨index, inside, rfl⟩ := List.getElem_of_mem member
    have here := same index (Nat.lt_of_lt_of_le inside room)
    rw [positive_stored, List.getElem?_eq_getElem inside, Option.getD_some] at here
    exact (clamps_iff _).mp here
  · intro clamps index bound
    rw [positive_stored]
    by_cases inside : index < params.length
    · rw [List.getElem?_eq_getElem inside, Option.getD_some]
      exact (clamps_iff _).mpr (clamps _ (List.getElem_mem inside))
    · rw [List.getElem?_eq_none (by omega)]
      rfl

theorem positive_zero {digits : Digits} (zero : numberOf digits = 0) : positive (accumulate 0 digits) = 0 := by
  rw [(clamps_iff digits).mpr (.inl (zero ▸ Nat.zero_le _)), zero, Nat.zero_min]

/-- Parameters that are stored each one place too early. -/
theorem shifted_iff {rest : List Digits} (room : rest.length < vt500ParamsLength) :
    (∀ index, index < vt500ParamsLength →
        positive ((rest.map (accumulate 0))[index]?.getD 0) = min (numberOf (([] :: rest)[index]?.getD [])) kMaxParameter) ↔
      ∀ digits ∈ rest, numberOf digits = 0 := by
  have zero_of_min {number : Nat} (zero : 0 = min number kMaxParameter) : number = 0 := by
    unfold kMaxParameter at zero
    omega
  constructor
  · intro same
    -- Each parameter is seen in front of its place; behind the last one nothing is seen.
    have zero : ∀ left index, index + left = rest.length → numberOf (([] :: rest)[index]?.getD []) = 0 := by
      intro left
      induction left with
      | zero =>
        rintro index rfl
        have here := same rest.length room
        rw [positive_stored, List.getElem?_eq_none (Nat.le_refl _)] at here
        exact zero_of_min here
      | succ left ih =>
        intro index inside
        have here := same index (by omega)
        have next := ih (index + 1) (by omega)
        rw [List.getElem?_cons_succ] at next
        rw [positive_stored, positive_zero next] at here
        exact zero_of_min here
    intro digits member
    obtain ⟨index, inside, rfl⟩ := List.getElem_of_mem member
    have here := zero (rest.length - (index + 1)) (index + 1) (by omega)
    rwa [List.getElem?_cons_succ, List.getElem?_eq_getElem inside, Option.getD_some] at here
  · intro zero index bound
    have zeroAt {params : List Digits} (all : ∀ digits ∈ params, numberOf digits = 0) (index : Nat) :
        numberOf (params[index]?.getD []) = 0 := by
      cases isAt : params[index]? with
      | none => rfl
      | some digits => exact all digits (List.mem_of_getElem? isAt)
    have all : ∀ digits ∈ [] :: rest, numberOf digits = 0 := List.forall_mem_cons.mpr ⟨rfl, zero⟩
    rw [positive_stored, positive_zero (zeroAt zero index), zeroAt all index, Nat.zero_min]

theorem stored_iff (params : List Digits) :
    ((stored params).length ≤ vt500ParamsLength ∧ ∀ index, index < vt500ParamsLength →
        positive ((stored params)[index]?.getD 0) = min (numberOf (params[index]?.getD [])) kMaxParameter) ↔
      Arrives params := by
  cases params with
  | nil => exact ⟨fun _ => trivial, fun _ => ⟨Nat.zero_le _, fun index _ => rfl⟩⟩
  | cons number rest =>
    cases number with
    | cons digit more =>
      have isStored : stored ((digit :: more) :: rest) = ((digit :: more) :: rest).map (accumulate 0) := rfl
      rw [isStored, List.length_map]
      exact and_congr_right placed_iff
    | nil =>
      rw [stored, List.length_map, Arrives]
      constructor
      · rintro ⟨room, same⟩
        rcases Nat.lt_or_eq_of_le room with less | full
        · exact .inl ⟨less, (shifted_iff less).mp same⟩
        · refine .inr ⟨full, fun index bound => ?_⟩
          obtain ⟨front, counts, -⟩ := accumulate_eq (rest[index]?.getD [])
          have here := same index bound
          rw [positive_stored, positive_accumulate counts] at here
          exact ⟨front, counts, here⟩
      · rintro (⟨less, zero⟩ | ⟨full, same⟩)
        · exact ⟨Nat.le_of_lt less, (shifted_iff less).mpr zero⟩
        · refine ⟨Nat.le_of_eq full, fun index bound => ?_⟩
          obtain ⟨front, counts, here⟩ := same index bound
          rw [positive_stored, positive_accumulate counts]
          exact here

/-! ## Deliveries -/

namespace Vt500Client

variable {σ : Type}

theorem Lawful.traced {client : Vt500Client σ} (law : ∀ parser state, client.parser (client.setParser parser state) = parser) :
    client.traced.Lawful Prod.snd :=
  ⟨fun _ _ => law .., fun _ _ => rfl⟩

theorem Delivers.reads {client : Vt500Client σ} {start : σ} {params : List Digits} {final : UInt8}
    (delivers : client.Delivers start params final) {index : Nat} (bound : index < vt500ParamsLength) (defValue : Int) :
    ((client.traced.feed ([27, 91] ++ joined params ++ [final]) (start, [])).bind fun reached =>
        reached.2.getLast?.bind fun call => call.2.2.nthCsiParameter index defValue) =
      some (parameterOf params index defValue) := by
  obtain ⟨state, calls, parser, after, feeds, dispatches, sees⟩ := delivers
  rw [feed_append, feeds, Option.bind_some, feed, dispatches, Option.bind_some, feed, Option.bind_some,
    List.getLast?_concat, Option.bind_some]
  exact sees.values index bound defValue

/-- The parameters arrive exactly when they fit into `params` at their own places and are small enough. -/
theorem delivers_iff (client : Vt500Client σ)
    (law : ∀ parser state, client.parser (client.setParser parser state) = parser) (start : σ) (params : List Digits)
    {final : UInt8} (isFinal : 64 ≤ final.toNat ∧ final.toNat ≤ 126) :
    client.Delivers start params final ↔ Arrives params := by
  have lawful := Lawful.traced law
  obtain ⟨next, introduces, collecting⟩ := introduce lawful (start, [])
  rw [← stored_iff]
  constructor
  · rintro ⟨state, calls, parser, after, feeds, dispatches, sees⟩
    rw [feed_append, introduces, Option.bind_some] at feeds
    have room : (stored params).length ≤ vt500ParamsLength := by
      by_contra full
      rw [collecting.all_none lawful params (Nat.lt_of_not_le full)] at feeds
      exact absurd feeds (by simp)
    obtain ⟨reached, feeds', collecting⟩ := collecting.all lawful params room
    obtain rfl := Option.some.inj (feeds'.symm.trans feeds)
    rw [collecting.dispatch isFinal] at dispatches
    have recorded := congrArg Prod.snd (Option.some.inj dispatches)
    obtain same : client.parser state = parser := by simpa [traced] using recorded
    exact ⟨room, (collecting.holds.sees_iff params).mp (same ▸ sees)⟩
  · rintro ⟨room, same⟩
    obtain ⟨⟨state, calls⟩, feeds, collecting⟩ := collecting.all lawful params room
    refine ⟨state, calls, client.parser state, _, ?_, collecting.dispatch isFinal, (collecting.holds.sees_iff params).mpr same⟩
    rw [feed_append, introduces]
    exact feeds

/-! ## A parser on its own -/

def silent : Vt500Client Vt500Parser where
  parser := id
  setParser parser _ := parser
  callback _ _ parser := parser

def groundParser : Vt500Parser := ⟨.ground, #v[0, 0, 0], 0, Vector.replicate 16 0, 0, false⟩

/-- `ESC [ 5 ; 32767 ; H`. -/
theorem cursorPosition_delivers : silent.Delivers groundParser [[5], [3, 2, 7, 6, 7], []] 72 := by
  have small : ∀ digits ∈ [[5], [3, 2, 7, 6, 7], []], numberOf digits ≤ kMaxParameter := by decide
  exact (silent.delivers_iff (fun _ _ => rfl) groundParser _ (by decide)).mpr
    ⟨by decide, fun digits member => .inl (small digits member)⟩

/-- Of `ESC [ ; 5 H` the first parameter is seen as 5, of `ESC [ 40000 H` no parameter is seen, and the last separator of
sixteen is stored behind `params`. -/
theorem sequences_misdelivered :
    ¬silent.Delivers groundParser [[], [5]] 72 ∧ ¬silent.Delivers groundParser [[4, 0, 0, 0, 0]] 72 ∧
      ¬silent.Delivers groundParser ([1] :: List.replicate 16 [1]) 109 := by
  refine ⟨fun delivers => ?_, fun delivers => ?_, fun delivers => ?_⟩
  · have reads := delivers.reads (Nat.succ_pos 15) 1
    revert reads
    decide
  · have reads := delivers.reads (Nat.succ_pos 15) 1
    revert reads
    decide
  · have reads := delivers.reads (Nat.succ_pos 15) 1
    revert reads
    decide

end Vt500Client

end Apollo.Console
