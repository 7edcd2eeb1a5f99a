import Apollo.Lib.RangeTables

/-!
# The VT52 parser

`vt52parse.c`.  The parser is part of the state of its client, and the callback
may change it: `vtparser_set_mode` resets the parser while it is dispatching.

The rows of the state table have 160 initializers; the entries behind them are
zero, which is neither an action nor a state.
-/

set_option autoImplicit false

namespace Apollo.Console

open Lib

inductive Vt52State
  | ground
  | escape
  | collect
  deriving DecidableEq

inductive Vt52Action
  | escStart
  | escDispatch
  | escDelayDispatch
  | collectByte
  | execute
  | print
  | ignore
  | error
  deriving DecidableEq

/-- `vt52parse_t`.  The state is `none` when it is the zero that is not a state. -/
structure Vt52Parser where
  state : Option Vt52State
  params : Vector UInt8 2
  numParams : Nat
  escCodeSeen : UInt8
  numParamsToCollect : Nat
  isAtariExtensionsEnabled : Bool
  deriving DecidableEq

def vt52MaxParams : Nat := 2

def vt52StateTable : Vt52State → List (Nat × Vt52Action × Vt52State)
  | .ground =>
    [(0, .ignore, .ground), (26, .execute, .ground), (27, .escStart, .escape), (31, .execute, .ground),
      (127, .print, .ground), (159, .execute, .ground)]
  | .escape =>
    [(0, .ignore, .escape), (26, .execute, .ground), (27, .escStart, .escape), (31, .execute, .ground),
      (88, .escDispatch, .ground), (89, .escDelayDispatch, .collect), (97, .escDispatch, .ground),
      (99, .escDelayDispatch, .collect), (126, .escDispatch, .ground), (127, .ignore, .escape), (159, .execute, .ground)]
  | .collect =>
    [(0, .ignore, .collect), (26, .execute, .ground), (27, .escStart, .escape), (31, .execute, .ground),
      (126, .collectByte, .collect), (127, .ignore, .collect), (159, .execute, .ground)]

namespace Vt52Parser

def reset (parser : Vt52Parser) : Vt52Parser :=
  { parser with
    state := some .ground
    numParams := 0
    escCodeSeen := 0
    numParamsToCollect := 0
    isAtariExtensionsEnabled := false }

/-- What `vtparser_set_mode` does to the parser when it switches to one of its modes. -/
def setMode (parser : Vt52Parser) (isAtari : Bool) : Vt52Parser :=
  { parser.reset with isAtariExtensionsEnabled := isAtari }

/-- The parameters that the escape code `ch` has. -/
def paramsOf (parser : Vt52Parser) (ch : UInt8) : Nat :=
  if ch = 89 then 2
  else if ch = 98 ∨ ch = 99 then if parser.isAtariExtensionsEnabled then 1 else 0
  else 0

end Vt52Parser

structure Vt52Client (σ : Type) where
  parser : σ → Vt52Parser
  setParser : Vt52Parser → σ → σ
  callback : Vt52Action → UInt8 → σ → σ

namespace Vt52Client

variable {σ : Type} (client : Vt52Client σ)

def modify (change : Vt52Parser → Vt52Parser) (state : σ) : σ := client.setParser (change (client.parser state)) state

/-- The last statement of `vt52parse_do_state_change`. -/
def enter (newState : Option Vt52State) (state : σ) : σ := client.modify (fun parser => { parser with state := newState }) state

/-- `VT52PARSE_ACTION_ESC_DELAY_DISPATCH` in `vt52parse_do_state_change`. -/
def delayDispatch (ch : UInt8) (newState : Vt52State) (state : σ) : σ :=
  let count := (client.parser state).paramsOf ch
  let state := client.modify (fun parser => { parser with numParamsToCollect := count }) state
  if count > 0 then client.enter newState (client.modify (fun parser => { parser with escCodeSeen := ch }) state)
  else client.enter (some .ground) (client.callback .escDispatch ch state)

/-- `VT52PARSE_ACTION_COLLECT_BYTE` in `vt52parse_do_state_change`. -/
def collectByte (ch : UInt8) (newState : Vt52State) (state : σ) : Option σ :=
  let numParams := (client.parser state).numParams
  if inside : numParams < vt52MaxParams then
    let state := client.modify
      (fun parser => { parser with params := parser.params.set numParams ch inside, numParams := numParams + 1 }) state
    if numParams + 1 = (client.parser state).numParamsToCollect then
      some (client.enter (some .ground) (client.callback .escDispatch (client.parser state).escCodeSeen state))
    else some (client.enter newState state)
  else none

/-- `vt52parse_do_state_change`; `none` is an access outside of the state table or of `params`. -/
def doStateChange (ch : UInt8) (state : σ) : Option σ :=
  match (client.parser state).state with
  | none => none
  | some current =>
    match rangeEntry (vt52StateTable current) ch.toNat with
    | none => some (client.enter none (client.callback .error 0 state))
    | some (action, newState) =>
      match action with
      | .print | .execute | .escDispatch => some (client.enter newState (client.callback action ch state))
      | .escStart => some (client.enter newState (client.modify (fun parser => { parser with numParams := 0 }) state))
      | .escDelayDispatch => some (client.delayDispatch ch newState state)
      | .collectByte => client.collectByte ch newState state
      | .ignore | .error => some (client.enter newState (client.callback .error 0 state))

def feed : List UInt8 → σ → Option σ
  | [], state => some state
  | ch :: rest, state => (client.doStateChange ch state).bind (feed rest)

end Vt52Client

/-! ## What holds between two bytes -/

namespace Vt52Parser

/-- The parser is in one of its states, and while it collects there is room for the next parameter. -/
structure Ready (parser : Vt52Parser) : Prop where
  state : ∃ current, parser.state = some current
  collecting : parser.state = some .collect →
    parser.numParams < parser.numParamsToCollect ∧ parser.numParamsToCollect ≤ vt52MaxParams

/-- A parser that is ready, and that has counted no parameter yet when the escape code comes. -/
structure Steady (parser : Vt52Parser) : Prop extends Ready parser where
  escaping : parser.state = some .escape → parser.numParams = 0

theorem Steady.of_ground {parser : Vt52Parser} (ground : parser.state = some .ground) : parser.Steady := by
  refine ⟨⟨⟨.ground, ground⟩, fun collect => ?_⟩, fun escape => ?_⟩
  · rw [ground] at collect
    cases collect
  · rw [ground] at escape
    cases escape

theorem reset_steady (parser : Vt52Parser) : parser.reset.Steady := .of_ground rfl

theorem setMode_steady (parser : Vt52Parser) (isAtari : Bool) : (parser.setMode isAtari).Steady := .of_ground rfl

theorem paramsOf_le (parser : Vt52Parser) (ch : UInt8) : parser.paramsOf ch ≤ vt52MaxParams := by
  unfold paramsOf
  split
  · exact Nat.le_refl 2
  · split
    · split <;> decide
    · exact Nat.zero_le _

end Vt52Parser

def vt52Entries : Vt52State → List (Vt52Action × Vt52State)
  | .ground => [(.ignore, .ground), (.execute, .ground), (.escStart, .escape), (.print, .ground)]
  | .escape =>
    [(.ignore, .escape), (.execute, .ground), (.escStart, .escape), (.escDispatch, .ground), (.escDelayDispatch, .collect)]
  | .collect => [(.ignore, .collect), (.execute, .ground), (.escStart, .escape), (.collectByte, .collect)]

theorem mem_vt52Entries {current : Vt52State} {index : Nat} {entry : Vt52Action × Vt52State}
    (found : rangeEntry (vt52StateTable current) index = some entry) : entry ∈ vt52Entries current := by
  have member := mem_of_rangeEntry found
  cases current with
  | ground =>
    simp only [vt52StateTable, List.map_cons, List.map_nil] at member
    simp only [vt52Entries, List.mem_cons] at member ⊢
    tauto
  | escape =>
    simp only [vt52StateTable, List.map_cons, List.map_nil] at member
    simp only [vt52Entries, List.mem_cons] at member ⊢
    tauto
  | collect =>
    simp only [vt52StateTable, List.map_cons, List.map_nil] at member
    simp only [vt52Entries, List.mem_cons] at member ⊢
    tauto

/-- Every row ends at the same byte. -/
theorem vt52_undefined_iff (current : Vt52State) (ch : UInt8) :
    rangeEntry (vt52StateTable current) ch.toNat = none ↔ 160 ≤ ch.toNat := by
  rw [rangeEntry_eq_none]
  cases current with
  | ground => simp [vt52StateTable]; omega
  | escape => simp [vt52StateTable]; omega
  | collect => simp [vt52StateTable]; omega

namespace Vt52Client

variable {σ : Type} {client : Vt52Client σ}

/-- The callback may do anything to the parser, except when it is told an error. -/
structure Lawful (client : Vt52Client σ) : Prop where
  parser_setParser : ∀ parser state, client.parser (client.setParser parser state) = parser
  error : ∀ ch state, client.parser (client.callback .error ch state) = client.parser state

/-! ## Single bytes -/

section Bytes
variable {state : σ} {ch : UInt8}

theorem doStateChange_esc {current : Vt52State} (isCurrent : (client.parser state).state = some current) :
    client.doStateChange 27 state =
      some (client.enter (some .escape) (client.modify (fun parser => { parser with numParams := 0 }) state)) := by
  unfold doStateChange
  rw [isCurrent]
  cases current with
  | ground => rfl
  | escape => rfl
  | collect => rfl

theorem doStateChange_address (isEscape : (client.parser state).state = some .escape) :
    client.doStateChange 89 state = some (client.delayDispatch 89 .collect state) := by
  unfold doStateChange
  rw [isEscape]
  rfl

theorem doStateChange_param (isCollect : (client.parser state).state = some .collect) (isParam : 32 ≤ ch.toNat ∧ ch.toNat ≤ 126) :
    client.doStateChange ch state = client.collectByte ch .collect state := by
  have entry : rangeEntry (vt52StateTable .collect) ch.toNat = some (.collectByte, .collect) := by
    simp only [vt52StateTable, rangeEntry]
    rw [if_neg (by omega), if_neg (by omega), if_neg (by omega), if_neg (by omega), if_pos (by omega)]
  unfold doStateChange
  rw [isCollect]
  dsimp only
  rw [entry]

theorem delayDispatch_some {newState : Vt52State} (some : 0 < (client.parser state).paramsOf ch) :
    client.delayDispatch ch newState state =
      client.enter newState (client.modify (fun parser => { parser with escCodeSeen := ch })
        (client.modify (fun parser => { parser with numParamsToCollect := (client.parser state).paramsOf ch }) state)) :=
  if_pos some

def store (client : Vt52Client σ) (ch : UInt8) (state : σ) (inside : (client.parser state).numParams < vt52MaxParams) : σ :=
  client.modify
    (fun parser =>
      { parser with
        params := parser.params.set (client.parser state).numParams ch inside
        numParams := (client.parser state).numParams + 1 }) state

end Bytes

namespace Lawful

variable (lawful : client.Lawful) {state after : σ} {ch : UInt8}
include lawful

@[simp] theorem parser_modify (change : Vt52Parser → Vt52Parser) (state : σ) :
    client.parser (client.modify change state) = change (client.parser state) := lawful.parser_setParser ..

@[simp] theorem parser_enter (newState : Option Vt52State) (state : σ) :
    client.parser (client.enter newState state) = { client.parser state with state := newState } := lawful.parser_setParser ..

theorem enter_ground (state : σ) : (client.parser (client.enter (some .ground) state)).Steady := by
  rw [lawful.parser_enter]
  exact .of_ground rfl

theorem enter_same {current : Vt52State} (isCurrent : (client.parser state).state = some current) :
    client.parser (client.enter (some current) (client.callback .error 0 state)) = client.parser state := by
  rw [lawful.parser_enter, lawful.error, ← isCurrent]

theorem escStart_steady (state : σ) :
    (client.parser (client.enter (some .escape)
      (client.modify (fun parser => { parser with numParams := 0 }) state))).Steady := by
  rw [lawful.parser_enter, lawful.parser_modify]
  refine ⟨⟨⟨.escape, rfl⟩, fun collect => ?_⟩, fun _ => rfl⟩
  cases collect

/-- An escape code with parameters is kept until they are collected; another one is dispatched at once. -/
theorem delayDispatch_steady (steady : (client.parser state).Steady) (isEscape : (client.parser state).state = some .escape)
    (ch : UInt8) : (client.parser (client.delayDispatch ch .collect state)).Steady := by
  unfold delayDispatch
  dsimp only
  split
  · next some =>
    rw [lawful.parser_enter, lawful.parser_modify, lawful.parser_modify]
    refine ⟨⟨⟨.collect, rfl⟩, fun _ => ⟨?_, (client.parser state).paramsOf_le ch⟩⟩, fun escape => ?_⟩
    · rw [steady.escaping isEscape]
      exact some
    · cases escape
  · exact lawful.enter_ground _

theorem parser_store (inside : (client.parser state).numParams < vt52MaxParams) :
    client.parser (client.store ch state inside) =
      { client.parser state with
        params := (client.parser state).params.set (client.parser state).numParams ch inside
        numParams := (client.parser state).numParams + 1 } := lawful.parser_modify ..

theorem params_store (inside : (client.parser state).numParams < vt52MaxParams) {index : Nat} (bound : index < 2) :
    (client.parser (client.store ch state inside)).params[index] =
      if (client.parser state).numParams = index then ch else (client.parser state).params[index] := by
  simp only [lawful.parser_store]
  exact Vector.getElem_set inside bound

theorem collectByte_more {newState : Vt52State} (inside : (client.parser state).numParams < vt52MaxParams)
    (more : (client.parser state).numParams + 1 ≠ (client.parser state).numParamsToCollect) :
    client.collectByte ch newState state = some (client.enter newState (client.store ch state inside)) := by
  unfold collectByte
  rw [dif_pos inside]
  refine if_neg ?_
  change _ ≠ (client.parser (client.store ch state inside)).numParamsToCollect
  rw [lawful.parser_store]
  exact more

theorem collectByte_last {newState : Vt52State} (inside : (client.parser state).numParams < vt52MaxParams)
    (last : (client.parser state).numParams + 1 = (client.parser state).numParamsToCollect) :
    client.collectByte ch newState state =
      some (client.enter (some .ground)
        (client.callback .escDispatch (client.parser state).escCodeSeen (client.store ch state inside))) := by
  have seen : (client.parser (client.store ch state inside)).escCodeSeen = (client.parser state).escCodeSeen := by
    rw [lawful.parser_store]
  unfold collectByte
  rw [dif_pos inside, ← seen]
  refine if_pos ?_
  change _ = (client.parser (client.store ch state inside)).numParamsToCollect
  rw [lawful.parser_store]
  exact last

/-- The byte is inside of `params`, and the last one dispatches the escape code. -/
theorem collectByte_steady (steady : (client.parser state).Steady) (isCollect : (client.parser state).state = some .collect)
    (ch : UInt8) : ∃ after, client.collectByte ch .collect state = some after ∧ (client.parser after).Steady := by
  obtain ⟨room, most⟩ := steady.collecting isCollect
  have inside := Nat.lt_of_lt_of_le room most
  by_cases last : (client.parser state).numParams + 1 = (client.parser state).numParamsToCollect
  · exact ⟨_, lawful.collectByte_last inside last, lawful.enter_ground _⟩
  · refine ⟨_, lawful.collectByte_more inside last, ?_⟩
    rw [lawful.parser_enter, lawful.parser_store]
    refine ⟨⟨⟨.collect, rfl⟩, fun _ => ⟨?_, most⟩⟩, fun escape => ?_⟩
    · dsimp only
      omega
    · cases escape

/-- A byte with an entry in the table keeps the parser steady. -/
theorem doStateChange_steady (steady : (client.parser state).Steady) (defined : ch.toNat < 160) :
    ∃ after, client.doStateChange ch state = some after ∧ (client.parser after).Steady := by
  obtain ⟨current, isCurrent⟩ := steady.state
  unfold doStateChange
  rw [isCurrent]
  dsimp only
  cases found : rangeEntry (vt52StateTable current) ch.toNat with
  | none =>
    have undefined := (vt52_undefined_iff current ch).mp found
    omega
  | some entry =>
    have known := mem_vt52Entries found
    cases current with
    | ground =>
      simp only [vt52Entries, List.mem_cons, List.not_mem_nil, or_false] at known
      rcases known with ⟨rfl, rfl⟩ | ⟨rfl, rfl⟩ | ⟨rfl, rfl⟩ | ⟨rfl, rfl⟩
      · exact ⟨_, rfl, (lawful.enter_same isCurrent).symm ▸ steady⟩
      · exact ⟨_, rfl, lawful.enter_ground _⟩
      · exact ⟨_, rfl, lawful.escStart_steady _⟩
      · exact ⟨_, rfl, lawful.enter_ground _⟩
    | escape =>
      simp only [vt52Entries, List.mem_cons, List.not_mem_nil, or_false] at known
      rcases known with ⟨rfl, rfl⟩ | ⟨rfl, rfl⟩ | ⟨rfl, rfl⟩ | ⟨rfl, rfl⟩ | ⟨rfl, rfl⟩
      · exact ⟨_, rfl, (lawful.enter_same isCurrent).symm ▸ steady⟩
      · exact ⟨_, rfl, lawful.enter_ground _⟩
      · exact ⟨_, rfl, lawful.escStart_steady _⟩
      · exact ⟨_, rfl, lawful.enter_ground _⟩
      · exact ⟨_, rfl, lawful.delayDispatch_steady steady isCurrent ch⟩
    | collect =>
      simp only [vt52Entries, List.mem_cons, List.not_mem_nil, or_false] at known
      rcases known with ⟨rfl, rfl⟩ | ⟨rfl, rfl⟩ | ⟨rfl, rfl⟩ | ⟨rfl, rfl⟩
      · exact ⟨_, rfl, (lawful.enter_same isCurrent).symm ▸ steady⟩
      · exact ⟨_, rfl, lawful.enter_ground _⟩
      · exact ⟨_, rfl, lawful.escStart_steady _⟩
      · exact lawful.collectByte_steady steady isCurrent ch

/-- A byte without an entry leaves the parser without a state. -/
theorem doStateChange_undefined (ready : (client.parser state).Ready) (undefined : 160 ≤ ch.toNat) :
    ∃ after, client.doStateChange ch state = some after ∧ ¬(client.parser after).Ready := by
  obtain ⟨current, isCurrent⟩ := ready.state
  refine ⟨client.enter none (client.callback .error 0 state), ?_, fun ready => ?_⟩
  · unfold doStateChange
    rw [isCurrent]
    dsimp only
    rw [(vt52_undefined_iff current ch).mpr undefined]
  · obtain ⟨other, isOther⟩ := ready.state
    rw [lawful.parser_enter] at isOther
    cases isOther

/-- A direct cursor address: both bytes are collected, and then it is dispatched.  `view` is what the client has besides
its parser. -/
theorem feed_address {β : Type} {view : σ → β} (kept : ∀ parser state, view (client.setParser parser state) = view state)
    (steady : (client.parser state).Steady) {row column : UInt8} (isRow : 32 ≤ row.toNat ∧ row.toNat ≤ 126)
    (isColumn : 32 ≤ column.toNat ∧ column.toNat ≤ 126) :
    ∃ collected, client.feed [27, 89, row, column] state =
        some (client.enter (some .ground) (client.callback .escDispatch 89 collected)) ∧
      (client.parser collected).params = #v[row, column] ∧ view collected = view state := by
  have kept' : ∀ change state, view (client.modify change state) = view state := fun change state => kept _ _
  obtain ⟨current, isCurrent⟩ := steady.state
  let escaped := client.enter (some .escape) (client.modify (fun parser => { parser with numParams := 0 }) state)
  have parser₁ : client.parser escaped = { client.parser state with numParams := 0, state := some .escape } := by
    rw [lawful.parser_enter, lawful.parser_modify]
  have two : (client.parser escaped).paramsOf 89 = 2 := rfl
  let waiting := client.enter (some .collect) (client.modify (fun parser => { parser with escCodeSeen := 89 })
    (client.modify (fun parser => { parser with numParamsToCollect := (client.parser escaped).paramsOf 89 }) escaped))
  have step₂ : client.doStateChange 89 escaped = some waiting := by
    rw [doStateChange_address (by rw [parser₁]), delayDispatch_some (by omega)]
  have parser₂ : client.parser waiting =
      { client.parser escaped with numParamsToCollect := 2, escCodeSeen := 89, state := some .collect } := by
    rw [lawful.parser_enter, lawful.parser_modify, lawful.parser_modify, two]
  have count₂ : (client.parser waiting).numParams = 0 := by rw [parser₂, parser₁]
  have wanted₂ : (client.parser waiting).numParamsToCollect = 2 := by rw [parser₂]
  have inside₂ : (client.parser waiting).numParams < vt52MaxParams := by
    rw [count₂]
    decide
  let half := client.enter (some .collect) (client.store row waiting inside₂)
  have step₃ : client.doStateChange row waiting = some half := by
    rw [doStateChange_param (by rw [parser₂]) isRow]
    exact lawful.collectByte_more inside₂ (by omega)
  have parser₃ : client.parser half =
      { client.parser waiting with
        params := (client.parser waiting).params.set (client.parser waiting).numParams row inside₂
        numParams := (client.parser waiting).numParams + 1
        state := some .collect } := by
    rw [lawful.parser_enter, lawful.parser_store]
  have count₃ : (client.parser half).numParams = 1 := by
    rw [parser₃]
    exact congrArg (· + 1) count₂
  have wanted₃ : (client.parser half).numParamsToCollect = 2 := by rw [parser₃, wanted₂]
  have seen₂ : (client.parser waiting).escCodeSeen = 89 := by rw [parser₂]
  have seen₃ : (client.parser half).escCodeSeen = 89 := by
    rw [parser₃]
    exact seen₂
  have inside₃ : (client.parser half).numParams < vt52MaxParams := by
    rw [count₃]
    decide
  have step₄ : client.doStateChange column half =
      some (client.enter (some .ground) (client.callback .escDispatch 89 (client.store column half inside₃))) := by
    rw [doStateChange_param (by rw [parser₃]) isColumn, lawful.collectByte_last inside₃ (by omega), seen₃]
  refine ⟨client.store column half inside₃, ?_, ?_, ?_⟩
  · rw [feed, doStateChange_esc isCurrent, Option.bind_some, feed, step₂, Option.bind_some, feed, step₃, Option.bind_some,
      feed, step₄]
    rfl
  · refine Vector.ext fun index bound => ?_
    rw [lawful.params_store inside₃ bound, count₃]
    by_cases first : index = 0
    · subst first
      have stored : (client.parser (client.store row waiting inside₂)).params[0] = _ := lawful.params_store inside₂ bound
      rw [count₂, if_pos rfl] at stored
      simp only [parser₃]
      simpa [lawful.parser_store] using stored
    · obtain rfl : index = 1 := by omega
      rfl
  · calc view (client.store column half inside₃)
      _ = view half := kept' _ _
      _ = view waiting := (kept' _ _).trans (kept' _ _)
      _ = view escaped := (kept' _ _).trans ((kept' _ _).trans (kept' _ _))
      _ = view state := (kept' _ _).trans (kept' _ _)

end Lawful

def traced (client : Vt52Client σ) : Vt52Client (σ × List (Vt52Action × UInt8 × Vector UInt8 2)) where
  parser state := client.parser state.1
  setParser parser state := (client.setParser parser state.1, state.2)
  callback action ch state := (client.callback action ch state.1, state.2 ++ [(action, ch, (client.parser state.1).params)])

theorem Lawful.traced (lawful : client.Lawful) : client.traced.Lawful :=
  ⟨fun _ _ => lawful.parser_setParser .., fun _ _ => lawful.error ..⟩

/-- The parser is ready behind every byte of the stream, and a direct cursor address in it is dispatched once. -/
structure Parses (client : Vt52Client σ) (start : σ) (bytes : List UInt8) : Prop where
  ready : ∀ front back, bytes = front ++ back → ∃ after, client.feed front start = some after ∧ (client.parser after).Ready
  addresses : ∀ front row column back, bytes = front ++ ([27, 89, row, column] ++ back) →
    32 ≤ row.toNat ∧ row.toNat ≤ 126 → 32 ≤ column.toNat ∧ column.toNat ≤ 126 →
    ∃ state calls after, client.traced.feed front (start, []) = some (state, calls) ∧
      client.traced.feed [27, 89, row, column] (state, calls) =
        some (after, calls ++ [(.escDispatch, 89, #v[row, column])])

section Streams
variable {start state : σ} {bytes front back : List UInt8}

theorem feed_append (client : Vt52Client σ) (front back : List UInt8) (start : σ) :
    client.feed (front ++ back) start = (client.feed front start).bind (client.feed back) := by
  induction front generalizing start with
  | nil => rfl
  | cons ch rest ih =>
    rw [List.cons_append, feed, feed, Option.bind_assoc]
    congr 1
    funext after
    exact ih after

theorem Lawful.feed_steady (lawful : client.Lawful) (steady : (client.parser start).Steady)
    (defined : ∀ ch ∈ bytes, ch.toNat < 160) :
    ∃ after, client.feed bytes start = some after ∧ (client.parser after).Steady := by
  induction bytes generalizing start with
  | nil => exact ⟨start, rfl, steady⟩
  | cons ch rest ih =>
    obtain ⟨next, changes, steady⟩ := lawful.doStateChange_steady steady (defined ch List.mem_cons_self)
    obtain ⟨after, feeds, steady⟩ := ih steady fun other member => defined other (List.mem_cons_of_mem _ member)
    refine ⟨after, ?_, steady⟩
    rw [feed, changes]
    exact feeds

end Streams

/-- The parser parses exactly the streams whose bytes are below 160. -/
theorem parses_iff (client : Vt52Client σ) (lawful : client.Lawful) {start : σ} {parser : Vt52Parser}
    (isReset : client.parser start = parser.reset ∨ ∃ isAtari, client.parser start = parser.setMode isAtari)
    (bytes : List UInt8) : client.Parses start bytes ↔ ∀ ch ∈ bytes, ch.toNat < 160 := by
  have steady : (client.parser start).Steady := by
    rcases isReset with reset | ⟨isAtari, mode⟩
    · rw [reset]
      exact parser.reset_steady
    · rw [mode]
      exact parser.setMode_steady isAtari
  constructor
  · intro parses ch member
    obtain ⟨front, back, rfl⟩ := List.append_of_mem member
    obtain ⟨state, feeds, ready⟩ := parses.ready front (ch :: back) rfl
    obtain ⟨after, feeds', ready'⟩ := parses.ready (front ++ [ch]) back (by simp)
    by_contra undefined
    obtain ⟨other, changes, notReady⟩ := lawful.doStateChange_undefined ready (Nat.le_of_not_lt undefined)
    rw [feed_append, feeds, Option.bind_some, feed, changes] at feeds'
    exact notReady (Option.some.inj feeds' ▸ ready')
  · intro defined
    refine ⟨?_, ?_⟩
    · rintro front back rfl
      obtain ⟨after, feeds, steady⟩ := lawful.feed_steady steady fun ch member => defined ch (List.mem_append_left _ member)
      exact ⟨after, feeds, steady.toReady⟩
    · rintro front row column back rfl isRow isColumn
      obtain ⟨⟨state, calls⟩, feeds, steady⟩ := @Lawful.feed_steady _ client.traced (start, []) front lawful.traced steady
        fun ch member => defined ch (List.mem_append_left _ member)
      have trace : ∀ parser state, Prod.snd (client.traced.setParser parser state) = Prod.snd state := fun _ _ => rfl
      obtain ⟨collected, dispatches, params, kept⟩ := lawful.traced.feed_address trace steady isRow isColumn
      refine ⟨state, calls, _, feeds, dispatches.trans (congrArg some (Prod.ext rfl ?_))⟩
      change collected.2 ++ [(_, _, (client.parser collected.1).params)] = _
      rw [kept]
      exact congrArg (fun params => calls ++ [(Vt52Action.escDispatch, (89 : UInt8), params)]) params

/-! ## A parser on its own -/

/-- The client is the parser, and the dispatch of `ESC E` resets it. -/
def restarting : Vt52Client Vt52Parser where
  parser := id
  setParser parser _ := parser
  callback action ch parser := if action = .escDispatch ∧ ch = 69 then parser.reset else parser

theorem restarting_lawful : restarting.Lawful := ⟨fun _ _ => rfl, fun _ _ => rfl⟩

def clearParser : Vt52Parser := ⟨some .ground, #v[0, 0], 0, 0, 0, false⟩

theorem addressAndRestart_parses : restarting.Parses clearParser [27, 89, 33, 34, 27, 69, 127] :=
  (restarting.parses_iff restarting_lawful (.inl rfl : _ = clearParser.reset ∨ _) _).mpr (by decide +kernel)

/-- A non-breaking space of Latin-1. -/
theorem noBreakSpace_unparsed : ¬restarting.Parses clearParser [160] := by
  intro parses
  obtain ⟨after, feeds, ready⟩ := parses.ready [160] [] rfl
  obtain ⟨current, isCurrent⟩ := ready.state
  have lost : (restarting.feed [160] clearParser).map (·.state) = some none := by decide
  rw [feeds, Option.map_some] at lost
  exact absurd (isCurrent.symm.trans (Option.some.inj lost)) (by simp)

end Vt52Client

end Apollo.Console
