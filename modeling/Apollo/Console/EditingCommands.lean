import Mathlib.Tactic.Common

/-!
# Line and screen editing

What the editing commands of the console pass on to `Console_CopyRect_Locked` and
`Console_FillRect_Locked`, when these copy and blank the cells of their rectangles.
-/

set_option autoImplicit false

namespace Apollo.Console

structure Rect where
  left : Int
  top : Int
  right : Int
  bottom : Int

abbrev Rect.Contains (r : Rect) (x y : Int) : Prop := x ≥ r.left ∧ x < r.right ∧ y ≥ r.top ∧ y < r.bottom

structure Page where
  right : Int
  bottom : Int
  x : Int
  y : Int
  column : 0 ≤ x ∧ x < right
  row : 0 ≤ y ∧ y < bottom

def Page.bounds (page : Page) : Rect := ⟨0, 0, page.right, page.bottom⟩

abbrev Content : Type := Int → Int → UInt8

def blank : UInt8 := 32

inductive Drawing
  | copyRect (srcRect : Rect) (dstX dstY : Int)
  | fillRect (rect : Rect)

def Page.draw (page : Page) (content : Content) : Drawing → Content
  | .copyRect srcRect dstX dstY => fun column row =>
    let fromColumn := column - dstX + srcRect.left
    let fromRow := row - dstY + srcRect.top
    if srcRect.Contains fromColumn fromRow ∧ page.bounds.Contains fromColumn fromRow then content fromColumn fromRow
    else content column row
  | .fillRect rect => fun column row => if rect.Contains column row then blank else content column row

/-- A command with its parameter, which is at least 1 for the first three. -/
inductive EditCommand
  | dch (nChars : { n : Int // 1 ≤ n })
  | il (nLines : { n : Int // 1 ≤ n })
  | dl (nLines : { n : Int // 1 ≤ n })
  | ed (mode : Nat)
  | el (mode : Nat)

def EditCommand.Erasing : EditCommand → Prop
  | .ed mode | .el mode => mode ≠ 1
  | _ => False

namespace Page
variable (page : Page)

def executeDCH (nChars : Int) : List Drawing :=
  [.copyRect ⟨page.x + nChars, page.y, page.right - nChars, page.y + 1⟩ page.x page.y,
    .fillRect ⟨page.right - nChars, page.y, page.right, page.y + 1⟩]

def executeIL (nLines : Int) : List Drawing :=
  if page.y < page.bottom then
    [.copyRect ⟨0, page.y + 1, page.right, page.bottom - nLines⟩ page.x (page.y + 2),
      .fillRect ⟨0, page.y + 1, page.right, page.y + 1 + nLines⟩]
  else []

def executeDL (nLines : Int) : List Drawing :=
  [.copyRect ⟨0, page.y + 1, page.right, page.bottom - nLines⟩ page.x page.y,
    .fillRect ⟨0, page.bottom - nLines, page.right, page.bottom⟩]

def clearScreen (mode : Nat) : List Drawing :=
  match mode with
  | 0 => [.fillRect ⟨page.x, page.y, page.right, page.y + 1⟩, .fillRect ⟨0, page.y + 1, page.right, page.bottom⟩]
  | 1 => [.fillRect ⟨0, page.y, page.x, page.y + 1⟩, .fillRect ⟨0, 0, page.right, page.y - 1⟩]
  | 2 | 3 => [.fillRect page.bounds]
  | _ => []

def clearLine (y : Int) (mode : Nat) : List Drawing :=
  if page.bounds.Contains 0 y then
    match mode with
    | 0 => [.fillRect ⟨page.x, y, page.right, y + 1⟩]
    | 1 => [.fillRect ⟨0, y, page.x, y + 1⟩]
    | 2 => [.fillRect ⟨0, y, page.right, y + 1⟩]
    | _ => []
  else []

def execute : EditCommand → List Drawing
  | .dch nChars => page.executeDCH nChars
  | .il nLines => page.executeIL nLines
  | .dl nLines => page.executeDL nLines
  | .ed mode => page.clearScreen mode
  | .el mode => page.clearLine page.y mode

/-! ## What the commands are for -/

/-- The cells before and behind the cursor, in the order they are read. -/
def Erases (page : Page) (mode : Nat) (column row : Int) : Prop :=
  match mode with
  | 0 => page.y < row ∨ row = page.y ∧ page.x ≤ column
  | 1 => row < page.y ∨ row = page.y ∧ column ≤ page.x
  | 2 | 3 => True
  | _ => False

instance (mode : Nat) (column row : Int) : Decidable (page.Erases mode column row) := by
  unfold Erases
  split <;> infer_instance

def edited (content : Content) (column row : Int) : EditCommand → UInt8
  | .dch nChars =>
    if row = page.y ∧ page.x ≤ column then
      if column + nChars < page.right then content (column + nChars) row else blank
    else content column row
  | .il nLines =>
    if row < page.y then content column row
    else if row < page.y + nLines then blank else content column (row - nLines)
  | .dl nLines =>
    if row < page.y then content column row
    else if row + nLines < page.bottom then content column (row + nLines) else blank
  | .ed mode => if page.Erases mode column row then blank else content column row
  | .el mode => if row = page.y ∧ mode < 3 ∧ page.Erases mode column row then blank else content column row

def Edits (command : EditCommand) : Prop :=
  ∀ (content : Content) (column row : Int), page.bounds.Contains column row →
    (page.execute command).foldl page.draw content column row = page.edited content column row command

def Drawing.rect : Drawing → Rect
  | .copyRect srcRect _ _ => srcRect
  | .fillRect rect => rect

def Extents (command : EditCommand) : Prop :=
  ∀ drawing ∈ page.execute command, (Drawing.rect drawing).left ≤ (Drawing.rect drawing).right ∧
    (Drawing.rect drawing).top ≤ (Drawing.rect drawing).bottom

/-! ## When they do it -/

theorem edits_dch_iff (n : { n : Int // 1 ≤ n }) :
    page.Edits (.dch n) ↔ n.val = page.right - page.x ∨ page.x = 0 ∧ page.right ≤ n := by
  obtain ⟨right, bottom, x, y, column, row⟩ := page
  obtain ⟨n, positive⟩ := n
  simp only [Edits, execute, executeDCH, edited, List.foldl, draw, bounds, Rect.Contains, blank]
  constructor
  · intro edits
    by_contra other
    by_cases short : n < right - x
    · -- The last cell that the others should move to keeps its character.
      have kept := edits (fun column _ => if column = right - 1 then 65 else 66) (right - n - 1) y (by omega)
      grind
    · -- A cell in front of the cursor is blanked.
      have blanked := edits (fun _ _ => 65) (x - 1) y (by omega)
      grind
  · intro fits content column row inside
    grind

theorem not_edits_il (n : { n : Int // 1 ≤ n }) : ¬ page.Edits (.il n) := by
  obtain ⟨right, bottom, x, y, column, row⟩ := page
  obtain ⟨n, positive⟩ := n
  simp only [Edits, execute, executeIL, if_pos row.2, edited, List.foldl, draw, bounds, Rect.Contains, blank]
  intro edits
  -- The line of the cursor is not blanked.
  have kept := edits (fun _ _ => 65) x y (by omega)
  grind

theorem edits_dl_iff (n : { n : Int // 1 ≤ n }) :
    page.Edits (.dl n) ↔ n.val = page.bottom - page.y ∨ page.y = 0 ∧ page.bottom ≤ n := by
  obtain ⟨right, bottom, x, y, column, row⟩ := page
  obtain ⟨n, positive⟩ := n
  simp only [Edits, execute, executeDL, edited, List.foldl, draw, bounds, Rect.Contains, blank]
  constructor
  · intro edits
    by_contra other
    by_cases short : n < bottom - y
    · -- The last line that the others should move to keeps its characters.
      have kept := edits (fun _ row => if row = bottom - 1 then 65 else 66) x (bottom - n - 1) (by omega)
      grind
    · -- A line above the cursor is blanked.
      have blanked := edits (fun _ _ => 65) x (y - 1) (by omega)
      grind
  · intro fits content column row inside
    grind

theorem edits_ed_iff (mode : Nat) : page.Edits (.ed mode) ↔ mode ≠ 1 := by
  obtain ⟨right, bottom, x, y, column, row⟩ := page
  match mode with
  | 0 =>
    refine iff_of_true (fun content column row inside => ?_) (by decide)
    simp only [execute, clearScreen, edited, Erases, List.foldl, draw, bounds, Rect.Contains] at inside ⊢
    grind
  | 1 =>
    refine iff_of_false (fun edits => ?_) (fun other => other rfl)
    -- The cell of the cursor is not blanked.
    have kept := edits (fun _ _ => 65) x y ⟨column.1, column.2, row.1, row.2⟩
    simp only [execute, clearScreen, edited, Erases, List.foldl, draw, Rect.Contains, blank] at kept
    grind
  | 2 | 3 =>
    refine iff_of_true (fun content column row inside => ?_) (by decide)
    simp only [execute, clearScreen, edited, Erases, List.foldl, draw, if_pos inside, if_true]
  | mode + 4 => exact iff_of_true (fun content column row inside => rfl) (by omega)

theorem edits_el_iff (mode : Nat) : page.Edits (.el mode) ↔ mode ≠ 1 := by
  obtain ⟨right, bottom, x, y, column, row⟩ := page
  have inside : (0 : Int) ≥ 0 ∧ 0 < right ∧ y ≥ 0 ∧ y < bottom := by omega
  match mode with
  | 0 | 2 =>
    refine iff_of_true (fun content column row onPage => ?_) (by decide)
    simp only [execute, clearLine, edited, Erases, List.foldl, draw, bounds, Rect.Contains, if_pos inside] at onPage ⊢
    grind
  | 1 =>
    refine iff_of_false (fun edits => ?_) (fun other => other rfl)
    -- The cell of the cursor is not blanked.
    have kept := edits (fun _ _ => 65) x y ⟨column.1, column.2, row.1, row.2⟩
    simp only [execute, clearLine, edited, Erases, List.foldl, draw, bounds, Rect.Contains, if_pos inside, blank] at kept
    grind
  | mode + 3 =>
    refine iff_of_true (fun content column row onPage => ?_) (by omega)
    simp only [execute, clearLine, edited, List.foldl, bounds, if_pos inside]
    rw [if_neg (by omega)]

/-- For a command of the first three the rectangle of the copy is behind the last cell that it copies. -/
theorem extents_iff (command : EditCommand) :
    page.Extents command ↔ match command with
      | .dch n => 2 * n.val ≤ page.right - page.x
      | .il n | .dl n => n.val < page.bottom - page.y
      | .ed mode => mode = 1 → page.y ≠ 0
      | .el _ => True := by
  obtain ⟨right, bottom, x, y, column, row⟩ := page
  have inside : (0 : Int) ≥ 0 ∧ 0 < right ∧ y ≥ 0 ∧ y < bottom := by omega
  cases command with
  | dch n =>
    obtain ⟨n, positive⟩ := n
    simp only [Extents, execute, executeDCH, List.forall_mem_cons, Drawing.rect, List.not_mem_nil]
    grind
  | il n =>
    obtain ⟨n, positive⟩ := n
    simp only [Extents, execute, executeIL, if_pos row.2, List.forall_mem_cons, Drawing.rect, List.not_mem_nil]
    grind
  | dl n =>
    obtain ⟨n, positive⟩ := n
    simp only [Extents, execute, executeDL, List.forall_mem_cons, Drawing.rect, List.not_mem_nil]
    grind
  | ed mode =>
    match mode with
    | 0 | 1 | 2 | 3 | mode + 4 =>
      simp only [Extents, execute, clearScreen, List.forall_mem_cons, Drawing.rect, List.not_mem_nil, bounds]
      grind
  | el mode =>
    match mode with
    | 0 | 1 | 2 | mode + 3 =>
      simp only [Extents, execute, clearLine, bounds, if_pos inside, List.forall_mem_cons, Drawing.rect,
        List.not_mem_nil]
      grind

/-- The commands that erase to the end or all are right; the others leave cells that they should move or
blank, or have a rectangle of a negative extent. -/
theorem meets_iff (page : Page) (command : EditCommand) :
    page.Edits command ∧ page.Extents command ↔ command.Erasing := by
  rw [extents_iff]
  cases command with
  | dch n =>
    rw [edits_dch_iff]
    have := n.2
    exact iff_of_false (by omega) id
  | il n => exact iff_of_false (fun meets => not_edits_il page n meets.1) id
  | dl n =>
    rw [edits_dl_iff]
    have := n.2
    exact iff_of_false (by omega) id
  | ed mode =>
    rw [edits_ed_iff]
    exact ⟨And.left, fun other => ⟨other, fun isOne => absurd isOne other⟩⟩
  | el mode =>
    rw [edits_el_iff]
    exact ⟨And.left, fun other => ⟨other, trivial⟩⟩

def smallPage : Page := ⟨80, 25, 4, 2, by decide, by decide⟩

/-- Inserting a line leaves the line of the cursor as it is, and deleting a character leaves the end of the line. -/
theorem commands_wrong : ¬ smallPage.Edits (.il ⟨1, by decide⟩) ∧ ¬ smallPage.Edits (.dch ⟨1, by decide⟩) ∧
    ¬ smallPage.Edits (.dl ⟨1, by decide⟩) ∧ ¬ smallPage.Edits (.el 1) := by
  refine ⟨not_edits_il _ _, ?_, ?_, ?_⟩
  · rw [edits_dch_iff]
    decide
  · rw [edits_dl_iff]
    decide
  · rw [edits_el_iff]
    decide

end Page

end Apollo.Console
