import Mathlib.Data.List.Induction
import Mathlib.Data.List.Pairwise

/-!
# Expansion boards

`zorro_auto_config` gives each board of the expansion bus an address in the space of its bus and type.  The
placement reads the sizes of the boards and nothing else of them.
-/

set_option autoImplicit false

namespace Apollo.Driver

inductive BoardBus
  | zorro2 | zorro3
  deriving DecidableEq

inductive BoardType
  | ram | io
  deriving DecidableEq

/-- What `zorro_read_config_space` finds. -/
structure BoardConfiguration where
  bus : BoardBus
  type : BoardType
  cantShutup : Bool
  physicalSize : Nat
  positive : 0 < physicalSize

def gBoardSizes : List Nat :=
  [0x800000, 0x10000, 0x20000, 0x40000, 0x80000, 0x100000, 0x200000, 0x400000]

def gExtendedBoardSizes : List Nat :=
  [0x1000000, 0x2000000, 0x4000000, 0x8000000, 0x10000000, 0x20000000, 0x40000000, 0]

/-- The registers of the board that is visible in the configuration space, `flags` after it was inverted. -/
structure BoardRegisters where
  type : Nat
  flags : Nat
  manufacturer : Nat

def readConfigSpace (board : BoardRegisters) : Option BoardConfiguration :=
  if board.type / 64 % 4 < 2 then none
  else
    let bus : BoardBus := if board.type / 64 % 4 = 2 then .zorro3 else .zorro2
    let isExtendedSize := bus = .zorro3 ∧ board.flags.testBit 5
    let sizes := if isExtendedSize then gExtendedBoardSizes else gBoardSizes
    let physicalSize := sizes.getD (board.type % 8) 0
    let logsiz := if bus = .zorro3 then board.flags % 16 else 0
    if positive : 0 < physicalSize then
      if logsiz > 13 ∨ board.manufacturer = 0 then none
      else some ⟨bus, if board.type.testBit 5 then .ram else .io, board.flags.testBit 6, physicalSize, positive⟩
    else none

structure ExpansionBoard extends BoardConfiguration where
  start : Nat

def ExpansionBoard.stop (board : ExpansionBoard) : Nat := board.start + board.physicalSize

/-- The addresses from `low` on, below `high`. -/
structure BoardSpace where
  low : Nat
  high : Nat
  deriving DecidableEq

def zorro2Memory : BoardSpace := ⟨0x00200000, 0x00a00000⟩
def zorro2Io : BoardSpace := ⟨0x00e90000, 0x00f00000⟩
def zorro2ExtraIo : BoardSpace := ⟨0x00a00000, 0x00b80000⟩
def zorro3Expansion : BoardSpace := ⟨0x10000000, 0x80000000⟩

/-- `__Ceil_Ptr_PowerOf2`; the sizes of boards are powers of two. -/
def ceilBoardSize (address size : Nat) : Nat := (address + (size - 1)) / size * size

def zorro2AlignBoardAddress (base size : Nat) (type : BoardType) : Nat :=
  let low := zorro2Memory.low
  if type = .ram ∧ size = 0x800000 then if base = low then low else zorro2Memory.high
  else if type = .ram ∧ size = 0x400000 then
    if base = low then low
    else if base ≤ low + 0x200000 then low + 0x200000
    else if base ≤ low + 0x400000 then low + 0x400000
    else zorro2Memory.high
  else ceilBoardSize base size

namespace BoardConfiguration
variable (config : BoardConfiguration)

def Competes (space : BoardSpace) (board : ExpansionBoard) : Prop :=
  board.bus = config.bus ∧ board.type = config.type ∧ space.low ≤ board.start ∧ board.start < space.high

instance (space : BoardSpace) (board : ExpansionBoard) : Decidable (config.Competes space board) :=
  inferInstanceAs (Decidable (_ ∧ _))

def highestBoard (space : BoardSpace) (boards : List ExpansionBoard) : Option ExpansionBoard :=
  boards.foldl (fun highest board =>
    if config.Competes space board ∧ highest.elim space.low ExpansionBoard.start ≤ board.start then some board else highest) none

def baseAddressInRange (boards : List ExpansionBoard) (space : BoardSpace) : Option Nat :=
  let base := match config.highestBoard space boards with
    | some highest =>
      match config.bus with
      | .zorro3 => ceilBoardSize highest.stop config.physicalSize
      | .zorro2 => zorro2AlignBoardAddress highest.stop config.physicalSize config.type
    | none => space.low
  if base + config.physicalSize ≤ space.high then some base else none

/-- The spaces that `zorro_calculate_base_address_for_board` tries, in this order. -/
def spaces (isZorro3Machine : Bool) : List BoardSpace :=
  match config.bus, config.type with
  | .zorro3, _ => [zorro3Expansion]
  | .zorro2, .ram => [zorro2Memory]
  | .zorro2, .io => zorro2Io :: if isZorro3Machine then [zorro2ExtraIo] else []

def baseAddress (isZorro3Machine : Bool) (boards : List ExpansionBoard) : Option Nat :=
  (config.spaces isZorro3Machine).findSome? (config.baseAddressInRange boards)

end BoardConfiguration

def expansionBoardsCapacity : Nat := 16

/-- The loop of `zorro_auto_config`, with the registers that are visible in each round. -/
def autoConfig (isZorro3Machine : Bool) : List BoardRegisters → List ExpansionBoard → List ExpansionBoard
  | [], boards => boards
  | visible :: rest, boards =>
    if boards.length < expansionBoardsCapacity then
      match readConfigSpace visible with
      | none => boards
      | some config =>
        match config.baseAddress isZorro3Machine boards with
        | some start => autoConfig isZorro3Machine rest (boards ++ [⟨config, start⟩])
        | none => if config.cantShutup then boards else autoConfig isZorro3Machine rest boards
    else boards

/-! ## Where the boards are -/

/-- The space of a bus and a type; there are two of them for the input and output of Zorro II. -/
def spaceAt (bus : BoardBus) (type : BoardType) (start : Nat) : BoardSpace :=
  match bus, type with
  | .zorro3, _ => zorro3Expansion
  | .zorro2, .ram => zorro2Memory
  | .zorro2, .io => if zorro2Io.low ≤ start then zorro2Io else zorro2ExtraIo

namespace ExpansionBoard
variable (board other : ExpansionBoard)

def space : BoardSpace := spaceAt board.bus board.type board.start

def Inside : Prop := board.space.low ≤ board.start ∧ board.stop ≤ board.space.high

def Apart : Prop := board.stop ≤ other.start ∨ other.stop ≤ board.start

instance : Std.Symm Apart := ⟨fun _ _ apart => apart.symm⟩

/-- The boards are looked at together when the next one of them gets its address. -/
def Alike : Prop := board.bus = other.bus ∧ board.type = other.type ∧ board.space = other.space

end ExpansionBoard

/-- The boards are in their spaces; those that are alike are in order, and the first one of Zorro III is at the start. -/
structure Placed (boards : List ExpansionBoard) : Prop where
  few : boards.length ≤ expansionBoardsCapacity
  inside : ∀ board ∈ boards, board.Inside
  ordered : boards.Pairwise fun board other => board.Alike other → board.stop ≤ other.start
  first : ∀ board ∈ boards, board.bus = .zorro3 →
    ∃ other ∈ boards, other.bus = .zorro3 ∧ other.type = board.type ∧ other.start = zorro3Expansion.low

section Step
variable {config : BoardConfiguration} {space : BoardSpace} {boards : List ExpansionBoard}

theorem le_ceilBoardSize (address : Nat) {size : Nat} (positive : 0 < size) : address ≤ ceilBoardSize address size := by
  have split := Nat.div_add_mod (address + (size - 1)) size
  have rest := Nat.mod_lt (address + (size - 1)) positive
  unfold ceilBoardSize
  rw [Nat.mul_comm]
  omega

theorem le_zorro2Align {base size : Nat} {type : BoardType} (positive : 0 < size)
    (inside : type = .ram → base ≤ zorro2Memory.high) : base ≤ zorro2AlignBoardAddress base size type := by
  unfold zorro2AlignBoardAddress
  by_cases large : type = .ram ∧ size = 0x800000
  · rw [if_pos large]
    have := inside large.1
    split_ifs <;> omega
  · rw [if_neg large]
    by_cases medium : type = .ram ∧ size = 0x400000
    · rw [if_pos medium]
      have := inside medium.1
      split_ifs <;> omega
    · rw [if_neg medium]
      exact le_ceilBoardSize base positive

theorem highestBoard_spec (ordered : boards.Pairwise fun board other =>
      config.Competes space board → config.Competes space other → board.stop ≤ other.start) :
    match config.highestBoard space boards with
    | some highest => highest ∈ boards ∧ config.Competes space highest ∧
        ∀ board ∈ boards, config.Competes space board → board.stop ≤ highest.stop
    | none => ∀ board ∈ boards, ¬config.Competes space board := by
  induction boards using List.reverseRecOn with
  | nil => exact fun board member => nomatch member
  | append_singleton boards last ih =>
    obtain ⟨before, -, behind⟩ := List.pairwise_append.1 ordered
    replace ih := ih before
    unfold BoardConfiguration.highestBoard at ih ⊢
    rw [List.foldl_append, List.foldl_cons, List.foldl_nil]
    generalize List.foldl _ _ boards = highest at ih ⊢
    by_cases competes : config.Competes space last
    · have ends : ∀ board ∈ boards, config.Competes space board → board.stop ≤ last.start :=
        fun board member rival => behind board member last List.mem_cons_self rival competes
      have above : highest.elim space.low ExpansionBoard.start ≤ last.start := by
        cases highest with
        | none => exact competes.2.2.1
        | some highest => exact Nat.le_trans (Nat.le_add_right ..) (ends highest ih.1 ih.2.1)
      rw [if_pos ⟨competes, above⟩]
      refine ⟨by simp, competes, fun board member rival => ?_⟩
      obtain earlier | same := List.mem_append.1 member
      · exact Nat.le_trans (ends board earlier rival) (Nat.le_add_right ..)
      · exact Nat.le_of_eq (congrArg _ (List.mem_singleton.1 same))
    · have others : ∀ board ∈ boards ++ [last], config.Competes space board → board ∈ boards := fun board member rival =>
        (List.mem_append.1 member).resolve_right fun same => competes (List.mem_singleton.1 same ▸ rival)
      rw [if_neg fun both => competes both.1]
      cases highest with
      | none => exact fun board member rival => ih board (others board member rival) rival
      | some highest =>
        exact ⟨List.mem_append_left _ ih.1, ih.2.1, fun board member rival =>
          ih.2.2 board (others board member rival) rival⟩

theorem spaceAt_eq {isZorro3Machine : Bool} (tried : space ∈ config.spaces isZorro3Machine) {start : Nat}
    (low : space.low ≤ start) (high : start < space.high) : spaceAt config.bus config.type start = space := by
  unfold BoardConfiguration.spaces at tried
  unfold spaceAt
  generalize config.bus = bus at tried ⊢
  generalize config.type = type at tried ⊢
  cases bus <;> cases type
  case zorro2.io =>
    obtain rfl | extra := List.mem_cons.1 tried
    · exact if_pos low
    · split_ifs at extra
      · rw [List.mem_singleton.1 extra] at high ⊢
        exact if_neg fun low => absurd (Nat.lt_of_le_of_lt low high) (by decide)
      · cases extra
  all_goals exact (List.mem_singleton.1 tried).symm

/-- A board that gets an address in a space stands there behind all that compete with it, and at its start when there
are none. -/
theorem baseAddressInRange_spec (placed : Placed boards)
    {isZorro3Machine : Bool} (tried : space ∈ config.spaces isZorro3Machine) {base : Nat} (found : config.baseAddressInRange boards space = some base) :
    space.low ≤ base ∧ base + config.physicalSize ≤ space.high ∧
      (∀ board ∈ boards, config.Competes space board → board.stop ≤ base) ∧
      ((∀ board ∈ boards, ¬config.Competes space board) → base = space.low) := by
  have own : ∀ board, config.Competes space board → board.space = space := fun board competes => by
    rw [ExpansionBoard.space, competes.1, competes.2.1, spaceAt_eq tried competes.2.2.1 competes.2.2.2]
  have spec := highestBoard_spec (placed.ordered.imp fun {board other} order competes rival =>
    order ⟨competes.1.trans rival.1.symm, competes.2.1.trans rival.2.1.symm, (own board competes).trans (own other rival).symm⟩)
  unfold BoardConfiguration.baseAddressInRange at found
  dsimp only at found
  split_ifs at found with fits
  cases found
  cases highest : config.highestBoard space boards with
  | none =>
    rw [highest] at spec fits
    exact ⟨Nat.le_refl _, fits, fun board member competes => absurd competes (spec board member), fun _ => rfl⟩
  | some top =>
    rw [highest] at spec fits
    obtain ⟨member, competes, behind⟩ := spec
    have inside := placed.inside top member
    rw [ExpansionBoard.Inside, own top competes] at inside
    have above : top.stop ≤ match config.bus with
        | .zorro3 => ceilBoardSize top.stop config.physicalSize
        | .zorro2 => zorro2AlignBoardAddress top.stop config.physicalSize config.type := by
      cases bus : config.bus with
      | zorro3 => exact le_ceilBoardSize _ config.positive
      | zorro2 =>
        refine le_zorro2Align config.positive fun ram => ?_
        rw [← spaceAt_eq tried competes.2.2.1 competes.2.2.2, bus, ram] at inside
        exact inside.2
    refine ⟨?_, fits, fun board member rival => Nat.le_trans (behind board member rival) above,
      fun none => absurd competes (none top member)⟩
    exact Nat.le_trans (Nat.le_trans inside.1 (Nat.le_add_right ..)) above

theorem ExpansionBoard.Inside.start_lt {board : ExpansionBoard} (inside : board.Inside) : board.start < board.space.high :=
  Nat.lt_of_lt_of_le (Nat.lt_add_of_pos_right board.positive) inside.2

theorem Placed.add {isZorro3Machine : Bool} (placed : Placed boards) (room : boards.length < expansionBoardsCapacity)
    {start : Nat} (found : config.baseAddress isZorro3Machine boards = some start) :
    Placed (boards ++ [⟨config, start⟩]) := by
  obtain ⟨space, tried, found⟩ := List.exists_of_findSome?_eq_some found
  obtain ⟨low, high, behind, alone⟩ := baseAddressInRange_spec placed tried found
  have own : (⟨config, start⟩ : ExpansionBoard).space = space :=
    spaceAt_eq tried low (Nat.lt_of_lt_of_le (Nat.lt_add_of_pos_right config.positive) high)
  have competes : ∀ board ∈ boards, board.Alike ⟨config, start⟩ → config.Competes space board :=
    fun board member alike => by
      have inside := placed.inside board member
      have same := alike.2.2.trans own
      exact ⟨alike.1, alike.2.1, same ▸ inside.1, same ▸ inside.start_lt⟩
  refine ⟨?_, fun board member => ?_, ?_, fun board member zorro3 => ?_⟩
  · rw [List.length_append]
    exact room
  · obtain earlier | new := List.mem_append.1 member
    · exact placed.inside board earlier
    · rw [List.mem_singleton.1 new, ExpansionBoard.Inside, own]
      exact ⟨low, high⟩
  · refine List.pairwise_append.2 ⟨placed.ordered, List.pairwise_singleton _ _, fun board earlier other new alike => ?_⟩
    obtain rfl := List.mem_singleton.1 new
    exact behind board earlier (competes board earlier alike)
  · obtain earlier | new := List.mem_append.1 member
    · obtain ⟨other, isOther, same⟩ := placed.first board earlier zorro3
      exact ⟨other, List.mem_append_left _ isOther, same⟩
    · obtain rfl := List.mem_singleton.1 new
      by_cases alike : ∃ other ∈ boards, other.bus = .zorro3 ∧ other.type = config.type
      · obtain ⟨other, isOther, bus, type⟩ := alike
        obtain ⟨first, isFirst, bus', type', atLow⟩ := placed.first other isOther bus
        exact ⟨first, List.mem_append_left _ isFirst, bus', type'.trans type, atLow⟩
      · refine ⟨_, member, zorro3, rfl, ?_⟩
        rw [show zorro3Expansion = space from (congrArg (spaceAt · config.type start) zorro3).symm.trans own]
        exact alone fun other isOther rival => alike ⟨other, isOther, rival.1.trans zorro3, rival.2.1⟩

theorem Placed.autoConfig (isZorro3Machine : Bool) (visible : List BoardRegisters) (placed : Placed boards) :
    Placed (autoConfig isZorro3Machine visible boards) := by
  induction visible generalizing boards with
  | nil => exact placed
  | cons registers rest ih =>
    rw [Driver.autoConfig]
    split
    case isFalse => exact placed
    case isTrue room =>
      cases readConfigSpace registers with
      | none => exact placed
      | some config =>
        dsimp only
        cases found : config.baseAddress isZorro3Machine boards with
        | some start => exact ih (placed.add room found)
        | none =>
          dsimp only
          split
          case isTrue => exact placed
          case isFalse => exact ih placed

end Step

/-- Boards in order are apart, but for those of Zorro III that are of two types. -/
theorem Placed.apart {board other : ExpansionBoard} (inside : board.Inside) (inside' : other.Inside)
    (ordered : board.Alike other → board.stop ≤ other.start)
    (mixed : ¬(board.bus = .zorro3 ∧ other.bus = .zorro3 ∧ board.type ≠ other.type)) : board.Apart other := by
  unfold ExpansionBoard.Inside ExpansionBoard.space at inside inside'
  unfold ExpansionBoard.Alike ExpansionBoard.space at ordered
  unfold ExpansionBoard.Apart
  cases bus : board.bus <;> cases bus' : other.bus <;> cases type : board.type <;> cases type' : other.type <;>
    simp only [bus, bus', type, type', spaceAt, zorro2Memory, zorro2Io, zorro2ExtraIo, zorro3Expansion] at * <;> grind

/-- For every chain of boards: they are inside the spaces of their buses, and they do not overlap unless there are both
memory and input and output on Zorro III, for which the space is given away twice. -/
theorem autoConfig_apart_iff (isZorro3Machine : Bool) (visible : List BoardRegisters) :
    let boards := autoConfig isZorro3Machine visible []
    boards.length ≤ expansionBoardsCapacity ∧ (∀ board ∈ boards, board.Inside) ∧
      (boards.Pairwise ExpansionBoard.Apart ↔
        ¬∃ board ∈ boards, ∃ other ∈ boards, board.bus = .zorro3 ∧ other.bus = .zorro3 ∧ board.type ≠ other.type) := by
  have placed : Placed (autoConfig isZorro3Machine visible []) :=
    Placed.autoConfig isZorro3Machine visible ⟨Nat.zero_le _, by simp, .nil, by simp⟩
  refine ⟨placed.few, placed.inside, fun apart mixed => ?_, fun alike => ?_⟩
  · obtain ⟨board, member, other, member', bus, bus', types⟩ := mixed
    obtain ⟨first, isFirst, -, type, start⟩ := placed.first board member bus
    obtain ⟨first', isFirst', -, type', start'⟩ := placed.first other member' bus'
    have different : first ≠ first' := fun same => types (type.symm.trans ((congrArg (fun board => board.type) same).trans type'))
    have overlap := apart.forall isFirst isFirst' different
    have positive := first.positive
    have positive' := first'.positive
    unfold ExpansionBoard.Apart ExpansionBoard.stop at overlap
    omega
  · refine placed.ordered.imp_of_mem fun {board other} member member' ordered => ?_
    exact Placed.apart (placed.inside board member) (placed.inside other member') ordered
      fun mixed => alike ⟨board, member, other, member', mixed⟩

example : (autoConfig true [⟨0xa1, 0, 1⟩, ⟨0x81, 0, 1⟩] []).map ExpansionBoard.start = [0x10000000, 0x10000000] := by decide

end Apollo.Driver
