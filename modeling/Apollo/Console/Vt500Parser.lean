import Apollo.Lib.RangeTables

/-!
# The VT500 parser

`vt500parse.c`, which the console uses in its VT100 mode.  As in the VT52 parser,
the entries of the state table behind byte 159 are zero; here this means no action
and no new state, and the callback is told an error.
-/

set_option autoImplicit false

namespace Apollo.Console

open Lib

inductive Vt500State
  | csiEntry
  | csiIgnore
  | csiIntermediate
  | csiParam
  | dcsEntry
  | dcsIgnore
  | dcsIntermediate
  | dcsParam
  | dcsPassthrough
  | escape
  | escapeIntermediate
  | ground
  | oscString
  | sosPmApcString
  deriving DecidableEq

inductive Vt500Action
  | clear
  | collect
  | csiDispatch
  | escDispatch
  | execute
  | hook
  | ignore
  | oscEnd
  | oscPut
  | oscStart
  | param
  | print
  | put
  | unhook
  | error
  deriving DecidableEq

def maxIntermediateChars : Nat := 2

abbrev vt500ParamsLength : Nat := 16

/-- `vt500parse_t`.  A parameter is a `short`. -/
structure Vt500Parser where
  state : Vt500State
  intermediateChars : Vector UInt8 3
  numIntermediateChars : Nat
  params : Vector (BitVec 16) 16
  numParams : Nat
  ignoreFlagged : Bool
  deriving DecidableEq

abbrev Vt500Change : Type := Option Vt500Action × Option Vt500State

/-- What every state does with the bytes from `0x80` on. -/
def vt500Anywhere : List (Nat × Vt500Change) :=
  [(143, some .execute, some .ground), (144, none, some .dcsEntry), (151, some .execute, some .ground),
    (152, none, some .sosPmApcString), (154, some .execute, some .ground), (155, none, some .csiEntry),
    (156, none, some .ground), (157, none, some .oscString), (159, none, some .sosPmApcString)]

def vt500Controls (action : Vt500Action) : List (Nat × Vt500Change) :=
  [(23, some action, none), (24, some .execute, some .ground), (25, some action, none), (26, some .execute, some .ground),
    (27, none, some .escape), (31, some action, none)]

/-- The rest of the row of a state in `VT500_STATE_TABLE`. -/
def vt500Graphics : Vt500State → List (Nat × Vt500Change)
  | .csiEntry =>
    [(47, some .collect, some .csiIntermediate), (57, some .param, some .csiParam), (58, none, some .csiIgnore),
      (59, some .param, some .csiParam), (63, some .collect, some .csiParam), (126, some .csiDispatch, some .ground),
      (127, some .ignore, none)]
  | .csiIgnore => [(63, some .ignore, none), (126, none, some .ground), (127, some .ignore, none)]
  | .csiIntermediate =>
    [(47, some .collect, none), (63, none, some .csiIgnore), (126, some .csiDispatch, some .ground), (127, some .ignore, none)]
  | .csiParam =>
    [(47, some .collect, some .csiIntermediate), (57, some .param, none), (58, none, some .csiIgnore),
      (59, some .param, none), (63, none, some .csiIgnore), (126, some .csiDispatch, some .ground), (127, some .ignore, none)]
  | .dcsEntry =>
    [(47, some .collect, some .dcsIntermediate), (57, some .param, some .dcsParam), (58, none, some .dcsIgnore),
      (59, some .param, some .dcsParam), (63, some .collect, some .dcsParam), (126, none, some .dcsPassthrough),
      (127, some .ignore, none)]
  | .dcsIgnore => [(127, some .ignore, none)]
  | .dcsIntermediate =>
    [(47, some .collect, none), (63, none, some .dcsIgnore), (126, none, some .dcsPassthrough), (127, some .ignore, none)]
  | .dcsParam =>
    [(47, some .collect, some .dcsIntermediate), (57, some .param, none), (58, none, some .dcsIgnore),
      (59, some .param, none), (63, none, some .dcsIgnore), (126, none, some .dcsPassthrough), (127, some .ignore, none)]
  | .dcsPassthrough => [(126, some .put, none), (127, some .ignore, none)]
  | .escape =>
    [(47, some .collect, some .escapeIntermediate), (79, some .escDispatch, some .ground), (80, none, some .dcsEntry),
      (87, some .escDispatch, some .ground), (88, none, some .sosPmApcString), (90, some .escDispatch, some .ground),
      (91, none, some .csiEntry), (92, some .escDispatch, some .ground), (93, none, some .oscString),
      (95, none, some .sosPmApcString), (126, some .escDispatch, some .ground), (127, some .ignore, none)]
  | .escapeIntermediate => [(47, some .collect, none), (126, some .escDispatch, some .ground), (127, some .ignore, none)]
  | .ground => [(127, some .print, none)]
  | .oscString => [(127, some .oscPut, none)]
  | .sosPmApcString => [(127, some .ignore, none)]

def vt500ControlAction : Vt500State → Vt500Action
  | .csiEntry | .csiIgnore | .csiIntermediate | .csiParam | .escape | .escapeIntermediate | .ground => .execute
  | .dcsPassthrough => .put
  | .dcsEntry | .dcsIgnore | .dcsIntermediate | .dcsParam | .oscString | .sosPmApcString => .ignore

def vt500StateTable (state : Vt500State) : List (Nat × Vt500Change) :=
  vt500Controls (vt500ControlAction state) ++ (vt500Graphics state ++ vt500Anywhere)

def vt500EntryAction : Vt500State → Option Vt500Action
  | .csiEntry | .dcsEntry | .escape => some .clear
  | .dcsPassthrough => some .hook
  | .oscString => some .oscStart
  | _ => none

def vt500ExitAction : Vt500State → Option Vt500Action
  | .dcsPassthrough => some .unhook
  | .oscString => some .oscEnd
  | _ => none

namespace Vt500Parser

/-- `VT500PARSE_ACTION_CLEAR` in `do_action`. -/
def clear (parser : Vt500Parser) : Vt500Parser :=
  { parser with numIntermediateChars := 0, numParams := 0, ignoreFlagged := false }

/-- `VT500PARSE_ACTION_COLLECT` in `do_action`; `none` is an access outside of `intermediate_chars`. -/
def collect (parser : Vt500Parser) (ch : UInt8) : Option Vt500Parser :=
  if parser.numIntermediateChars + 1 > maxIntermediateChars then some { parser with ignoreFlagged := true }
  else if inside : parser.numIntermediateChars < 3 then
    some
      { parser with
        intermediateChars := parser.intermediateChars.set parser.numIntermediateChars ch inside
        numIntermediateChars := parser.numIntermediateChars + 1 }
  else none

/-- A digit behind a parameter, unless this has four digits already. -/
def appendDigit (param : BitVec 16) (ch : UInt8) : BitVec 16 :=
  if param.toInt < 9999 then param * 10 + BitVec.ofInt 16 (ch.toNat - 48) else param

def beginParams (parser : Vt500Parser) : Vt500Parser :=
  if parser.numParams = 0 then { parser with numParams := 1, params := parser.params.set 0 0 } else parser

/-- `VT500PARSE_ACTION_PARAM` in `do_action`; `none` is an access outside of `params`. -/
def param (parser : Vt500Parser) (ch : UInt8) : Option Vt500Parser :=
  if ch = 59 then
    if inside : parser.numParams < vt500ParamsLength then
      some { parser with numParams := parser.numParams + 1, params := parser.params.set parser.numParams 0 inside }
    else none
  else
    let parser := parser.beginParams
    let currentParam := parser.numParams - 1
    if inside : currentParam < vt500ParamsLength then
      some { parser with params := parser.params.set currentParam (appendDigit parser.params[currentParam] ch) inside }
    else none

end Vt500Parser

structure Vt500Client (σ : Type) where
  parser : σ → Vt500Parser
  setParser : Vt500Parser → σ → σ
  callback : Vt500Action → UInt8 → σ → σ

namespace Vt500Client

variable {σ : Type} (client : Vt500Client σ)

/-- `do_action`; no action and `VT500PARSE_ACTION_ERROR` are errors. -/
def doAction (action : Option Vt500Action) (ch : UInt8) (state : σ) : Option σ :=
  match action with
  | none | some .error => some (client.callback .error 0 state)
  | some .ignore => some state
  | some .collect => ((client.parser state).collect ch).map fun parser => client.setParser parser state
  | some .param => ((client.parser state).param ch).map fun parser => client.setParser parser state
  | some .clear => some (client.setParser (client.parser state).clear state)
  | some action => some (client.callback action ch state)

def doActionIfAny (action : Option Vt500Action) (ch : UInt8) (state : σ) : Option σ :=
  if action = none then some state else client.doAction action ch state

/-- The part of `vt500parse_do_state_change` for a new state: the exit action, the action and the entry action. -/
def changeState (current newState : Vt500State) (action : Option Vt500Action) (ch : UInt8) (state : σ) : Option σ := do
  let state ← client.doActionIfAny (vt500ExitAction current) 0 state
  let state ← client.doActionIfAny action ch state
  let state ← client.doActionIfAny (vt500EntryAction newState) 0 state
  some (client.setParser { client.parser state with state := newState } state)

def doStateChange (ch : UInt8) (state : σ) : Option σ :=
  let current := (client.parser state).state
  let change := (rangeEntry (vt500StateTable current) ch.toNat).getD (none, none)
  match change.2 with
  | none => client.doAction change.1 ch state
  | some newState => client.changeState current newState change.1 ch state

@[simp] theorem doActionIfAny_none (ch : UInt8) (state : σ) : client.doActionIfAny none ch state = some state := if_pos rfl

@[simp] theorem doActionIfAny_some (action : Vt500Action) (ch : UInt8) (state : σ) :
    client.doActionIfAny (some action) ch state = client.doAction (some action) ch state := if_neg (Option.some_ne_none action)

section Changes
variable {client : Vt500Client σ} {current newState : Vt500State} {action : Option Vt500Action} {ch : UInt8} {state : σ}

theorem doStateChange_stay (isCurrent : (client.parser state).state = current)
    (entry : rangeEntry (vt500StateTable current) ch.toNat = some (action, none)) :
    client.doStateChange ch state = client.doAction action ch state := by
  subst isCurrent
  simp only [doStateChange, entry, Option.getD_some]

theorem doStateChange_move (isCurrent : (client.parser state).state = current)
    (entry : rangeEntry (vt500StateTable current) ch.toNat = some (action, some newState)) :
    client.doStateChange ch state = client.changeState current newState action ch state := by
  subst isCurrent
  simp only [doStateChange, entry, Option.getD_some]

end Changes

def feed : List UInt8 → σ → Option σ
  | [], state => some state
  | ch :: rest, state => (client.doStateChange ch state).bind (feed rest)

end Vt500Client

end Apollo.Console
