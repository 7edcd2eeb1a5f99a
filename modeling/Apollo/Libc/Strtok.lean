import Apollo.Lib.Regions
import Mathlib.Data.List.TakeWhile

/-!
# Scanning strings by character sets

`strtok.c`.  A pointer into a string is the rest of it.  `char` is signed, so that a byte
from 0x80 on is a negative index, which is outside of the table of a character set.
-/

set_option autoImplicit false

namespace Apollo.Libc

open Lib

/-- `char ch_set[256]`. -/
abbrev CharSet : Type := UInt8 → Bool

/-- `ch_set[ch]`. -/
def CharSet.at (chSet : CharSet) (ch : UInt8) : Option Bool := if ch < 0x80 then some (chSet ch) else none

def strmakset (src : List UInt8) : Option CharSet :=
  src.foldlM (fun (chSet : CharSet) ch => if ch < 0x80 then some (Function.update chSet ch true) else none) fun _ => false

/-- The loop of a scanner: how many characters are passed.  There is nothing to read behind the NUL. -/
def scan (goesOn : UInt8 → Option Bool) : List UInt8 → Option Nat
  | [] => none
  | ch :: rest => do
      if ← goesOn ch then
        let passed ← scan goesOn rest
        some (passed + 1)
      else some 0

def strFirstNotIn (dst : List UInt8) (chSet : CharSet) : Option Nat :=
  let chSet : CharSet := Function.update chSet 0 false
  scan chSet.at (dst ++ [0])

def strFirstIn (dst : List UInt8) (chSet : CharSet) : Option Nat :=
  let chSet : CharSet := Function.update chSet 0 true
  scan (fun ch => (chSet.at ch).map not) (dst ++ [0])

def strspn (dst src : List UInt8) : Option Nat := do
  let keepSet ← strmakset src
  strFirstNotIn dst keepSet

def strcspn (dst src : List UInt8) : Option Nat := do
  let breakSet ← strmakset src
  strFirstIn dst breakSet

/-- `strpbrk`: where the pointer that is returned points to. -/
def strpbrk (dst breakSet : List UInt8) : Option (Option Nat) := do
  let breakSetOpt ← strmakset breakSet
  let first ← strFirstIn dst breakSetOpt
  some (some first)

/-- `strtok`: the word and `prev_tok_end_p`.  There is nothing to read at `NULL`. -/
def strtok (prevTokEndP str : Option (List UInt8)) (delim : List UInt8) :
    Option (Option (List UInt8) × Option (List UInt8)) := do
  let delimSet ← strmakset delim
  match str <|> prevTokEndP with
  | none => none
  | some text =>
    let skipped ← strFirstNotIn text delimSet
    let word := text.drop skipped
    if word = [] then some (none, prevTokEndP)
    else
      let length ← strFirstIn word delimSet
      if word.drop length ≠ [] then some (some (word.take length), some (word.drop (length + 1)))
      else some (some (word.take length), none)

/-- A call of `strtok` with a string and calls with `NULL` behind it. -/
def strtokAll (prevTokEndP str : Option (List UInt8)) : List (List UInt8) → Option (List (Option (List UInt8)))
  | [] => some []
  | delim :: rest => do
      let (token, prevTokEndP) ← strtok prevTokEndP str delim
      let tokens ← strtokAll prevTokEndP none rest
      some (token :: tokens)

/-! ## What the functions are for -/

def spanIn (text set : List UInt8) : Nat := (text.takeWhile (· ∈ set)).length

def spanNotIn (text set : List UInt8) : Nat := (text.takeWhile (· ∉ set)).length

def firstMember (text set : List UInt8) : Option Nat := text.findIdx? (· ∈ set)

def segments (text : List UInt8) : List (List UInt8) → List (Option (List UInt8))
  | [] => []
  | delim :: rest =>
    match text.dropWhile (· ∈ delim) with
    | [] => none :: rest.map fun _ => none
    | first :: word =>
      some ((first :: word).takeWhile (· ∉ delim)) :: segments (((first :: word).dropWhile (· ∉ delim)).drop 1) rest

/-! ## Scanners -/

def Ascii (text : List UInt8) : Prop := ∀ ch ∈ text, ch < 0x80

instance (text : List UInt8) : Decidable (Ascii text) := inferInstanceAs (Decidable (∀ ch ∈ text, ch < 0x80))

theorem ascii_cons {ch : UInt8} {text : List UInt8} : Ascii (ch :: text) ↔ ch < 0x80 ∧ Ascii text := List.forall_mem_cons

theorem ascii_append {front back : List UInt8} : Ascii (front ++ back) ↔ Ascii front ∧ Ascii back := List.forall_mem_append

section Scanners
variable {text src delim : List UInt8}

theorem strmakset_eq (src : List UInt8) : strmakset src = if Ascii src then some fun ch => decide (ch ∈ src) else none := by
  have fold (seen rest : List UInt8) :
      rest.foldlM (fun (chSet : CharSet) ch => if ch < 0x80 then some (Function.update chSet ch true) else none)
        (fun ch => decide (ch ∈ seen)) = if Ascii rest then some fun ch => decide (ch ∈ seen ++ rest) else none := by
    induction rest generalizing seen with
    | nil =>
      rw [if_pos (by intro ch member; cases member), List.append_nil]
      rfl
    | cons ch rest ih =>
      rw [List.foldlM_cons]
      by_cases ascii : ch < 0x80
      · rw [if_pos ascii]
        have more : Function.update (fun other => decide (other ∈ seen)) ch true = fun other => decide (other ∈ seen ++ [ch]) := by
          funext other
          by_cases same : other = ch
          · rw [same, Function.update_self]
            exact (decide_eq_true (List.mem_append_right _ List.mem_cons_self)).symm
          · simp [same]
        simp only [Option.bind_eq_bind, Option.bind_some]
        rw [more, ih (seen ++ [ch]), List.append_assoc, List.singleton_append]
        exact if_congr (by rw [ascii_cons]; exact (and_iff_right ascii).symm) rfl rfl
      · rw [if_neg ascii, if_neg fun all => ascii (ascii_cons.mp all).1]
        rfl
  have none : (fun _ => false : CharSet) = fun ch => decide (ch ∈ ([] : List UInt8)) := by
    funext ch
    exact (decide_eq_false List.not_mem_nil).symm
  unfold strmakset
  rw [none, fold [] src, List.nil_append]

/-- A scanner passes the characters that it goes on with, and reads the one behind them. -/
theorem scan_eq {passes : UInt8 → Bool} {goesOn : UInt8 → Option Bool}
    (reads : ∀ ch, goesOn ch = if ch < 0x80 then some (passes ch) else none) (stops : passes 0 = false) (text : List UInt8) :
    scan goesOn (text ++ [0]) =
      if Ascii (text.takeWhile passes ++ (text.dropWhile passes).take 1) then some (text.takeWhile passes).length else none := by
  induction text with
  | nil =>
    have nothing : Ascii (([] : List UInt8).takeWhile passes ++ (([] : List UInt8).dropWhile passes).take 1) :=
      fun ch member => absurd member List.not_mem_nil
    rw [List.nil_append, scan, reads, if_pos (by decide), stops, if_pos nothing]
    rfl
  | cons ch rest ih =>
    rw [List.cons_append, scan, reads]
    by_cases ascii : ch < 0x80
    · rw [if_pos ascii]
      cases pass : passes ch with
      | true =>
        rw [List.takeWhile_cons_of_pos pass, List.dropWhile_cons_of_pos pass, ih]
        simp only [Option.bind_eq_bind, Option.bind_some, if_true, List.cons_append]
        by_cases later : Ascii (rest.takeWhile passes ++ (rest.dropWhile passes).take 1)
        · rw [if_pos later, if_pos (ascii_cons.mpr ⟨ascii, later⟩)]
          rfl
        · rw [if_neg later, if_neg fun all => later (ascii_cons.mp all).2]
          rfl
      | false =>
        rw [List.takeWhile_cons_of_neg (by rw [pass]; decide), List.dropWhile_cons_of_neg (by rw [pass]; decide),
          if_pos (by intro other member; rw [List.mem_singleton.mp member]; exact ascii)]
        rfl
    · rw [if_neg ascii, if_neg]
      · rfl
      · intro all
        cases pass : passes ch with
        | true =>
          rw [List.takeWhile_cons_of_pos pass] at all
          exact ascii (all ch List.mem_cons_self)
        | false =>
          rw [List.takeWhile_cons_of_neg (by rw [pass]; decide), List.dropWhile_cons_of_neg (by rw [pass]; decide)] at all
          exact ascii (all ch List.mem_cons_self)

theorem while_congr {passes passes' : UInt8 → Bool} (same : ∀ ch ∈ text, passes ch = passes' ch) :
    text.takeWhile passes = text.takeWhile passes' ∧ text.dropWhile passes = text.dropWhile passes' := by
  induction text with
  | nil => exact ⟨rfl, rfl⟩
  | cons ch rest ih =>
    obtain ⟨take, drop⟩ := ih fun other member => same other (List.mem_cons_of_mem ch member)
    have here := same ch List.mem_cons_self
    rw [List.takeWhile_cons, List.takeWhile_cons, List.dropWhile_cons, List.dropWhile_cons, here, take, drop]
    exact ⟨rfl, rfl⟩

theorem strFirstNotIn_eq (ends : 0 ∉ delim) (text : List UInt8) :
    strFirstNotIn text (fun ch => decide (ch ∈ delim)) =
      if Ascii (text.takeWhile (· ∈ delim) ++ (text.dropWhile (· ∈ delim)).take 1) then some (spanIn text delim) else none := by
  have same : Function.update (fun ch => decide (ch ∈ delim)) 0 false = fun ch => decide (ch ∈ delim) := by
    rw [Function.update_eq_self_iff]
    exact (decide_eq_false ends).symm
  unfold strFirstNotIn
  rw [same]
  exact scan_eq (fun _ => rfl) (decide_eq_false ends) text

theorem strFirstIn_eq (ends : 0 ∉ text) :
    strFirstIn text (fun ch => decide (ch ∈ delim)) =
      if Ascii (text.takeWhile (· ∉ delim) ++ (text.dropWhile (· ∉ delim)).take 1) then some (spanNotIn text delim) else none := by
  have reads : ∀ ch, (CharSet.at (Function.update (fun ch => decide (ch ∈ delim)) 0 true) ch).map not =
      if ch < 0x80 then some (!Function.update (fun ch => decide (ch ∈ delim)) 0 true ch) else none := by
    intro ch
    unfold CharSet.at
    split_ifs <;> rfl
  have same : ∀ ch ∈ text, (!Function.update (fun ch => decide (ch ∈ delim)) 0 true ch) = decide (ch ∉ delim) := by
    intro ch member
    have nonzero : ch ≠ 0 := fun zero => ends (zero ▸ member)
    rw [Function.update_of_ne nonzero, ← decide_not]
  obtain ⟨take, drop⟩ := while_congr same
  refine (scan_eq reads (by rfl) text).trans ?_
  rw [take, drop]
  rfl

end Scanners

section Functions
variable {dst src : List UInt8}

/-- The prefix inside the set is made of members of the set, so that only the character behind it matters. -/
theorem strspn_iff (ends : 0 ∉ src) :
    strspn dst src = some (spanIn dst src) ↔ Ascii src ∧ Ascii ((dst.dropWhile (· ∈ src)).take 1) := by
  unfold strspn
  rw [strmakset_eq]
  by_cases table : Ascii src
  · have passed : Ascii (dst.takeWhile (· ∈ src)) := fun ch member => table ch (by simpa using List.mem_takeWhile_imp member)
    rw [if_pos table]
    simp only [Option.bind_eq_bind, Option.bind_some]
    rw [strFirstNotIn_eq ends, Option.ite_none_right_eq_some, ascii_append]
    exact ⟨fun holds => ⟨table, holds.1.2⟩, fun holds => ⟨⟨passed, holds.2⟩, rfl⟩⟩
  · rw [if_neg table]
    exact iff_of_false (fun returns => nomatch returns) fun holds => table holds.1

/-- The character behind a prefix outside the set is a member of the set. -/
theorem ascii_behind (table : Ascii src) : Ascii ((dst.dropWhile (· ∉ src)).take 1) := by
  intro ch member
  cases rest : dst.dropWhile (· ∉ src) with
  | nil =>
    rw [rest] at member
    cases member
  | cons first later =>
    rw [rest] at member
    have same : ch = first := List.mem_singleton.mp member
    have stops := List.head_dropWhile_not (fun ch => decide (ch ∉ src)) (by rw [rest]; exact List.cons_ne_nil _ _)
    simp only [rest, List.head_cons] at stops
    rw [same]
    exact table first (by simpa using stops)

theorem strcspn_iff (ends : 0 ∉ dst) :
    strcspn dst src = some (spanNotIn dst src) ↔ Ascii src ∧ Ascii (dst.takeWhile (· ∉ src)) := by
  unfold strcspn
  rw [strmakset_eq]
  by_cases table : Ascii src
  · rw [if_pos table]
    simp only [Option.bind_eq_bind, Option.bind_some]
    rw [strFirstIn_eq ends, Option.ite_none_right_eq_some, ascii_append]
    exact ⟨fun holds => ⟨table, holds.1.1⟩, fun holds => ⟨⟨holds.2, ascii_behind table⟩, rfl⟩⟩
  · rw [if_neg table]
    exact iff_of_false (fun returns => nomatch returns) fun holds => table holds.1

theorem firstMember_eq (dst src : List UInt8) :
    firstMember dst src = if (∃ ch ∈ dst, ch ∈ src) then some (spanNotIn dst src) else none := by
  unfold firstMember spanNotIn
  induction dst with
  | nil => simp
  | cons ch rest ih =>
    rw [List.findIdx?_cons, ih]
    by_cases member : ch ∈ src
    · simp [member]
    · by_cases later : ∃ ch ∈ rest, ch ∈ src <;> simp [member, later]

theorem strpbrk_iff (ends : 0 ∉ dst) :
    strpbrk dst src = some (firstMember dst src) ↔ Ascii src ∧ Ascii (dst.takeWhile (· ∉ src)) ∧ ∃ ch ∈ dst, ch ∈ src := by
  have shape : strpbrk dst src = (strcspn dst src).map some := by
    unfold strpbrk strcspn
    cases strmakset src with
    | none => rfl
    | some table =>
      simp only [Option.bind_eq_bind, Option.bind_some]
      cases strFirstIn dst table <;> rfl
  rw [shape, firstMember_eq]
  by_cases found : ∃ ch ∈ dst, ch ∈ src
  · rw [if_pos found]
    refine Iff.trans ?_ ((strcspn_iff ends).trans ⟨fun holds => ⟨holds.1, holds.2, found⟩, fun holds => ⟨holds.1, holds.2.1⟩⟩)
    cases strcspn dst src <;> simp
  · rw [if_neg found]
    refine iff_of_false (fun returns => ?_) fun holds => found holds.2.2
    cases strcspn dst src <;> simp at returns

end Functions

/-! ## Words -/

section Words
variable {text delim : List UInt8} {prevTokEndP str : Option (List UInt8)}

theorem take_takeWhile (passes : UInt8 → Bool) (text : List UInt8) :
    text.take (text.takeWhile passes).length = text.takeWhile passes := by
  have parts := @List.takeWhile_append_dropWhile _ passes text
  calc text.take (text.takeWhile passes).length
      = (text.takeWhile passes ++ text.dropWhile passes).take (text.takeWhile passes).length := by rw [parts]
    _ = text.takeWhile passes := List.take_left

theorem drop_takeWhile (passes : UInt8 → Bool) (text : List UInt8) :
    text.drop (text.takeWhile passes).length = text.dropWhile passes := by
  have parts := @List.takeWhile_append_dropWhile _ passes text
  calc text.drop (text.takeWhile passes).length
      = (text.takeWhile passes ++ text.dropWhile passes).drop (text.takeWhile passes).length := by rw [parts]
    _ = text.dropWhile passes := List.drop_left

theorem strtok_eq (given : (str <|> prevTokEndP) = some text) (ends : 0 ∉ text) (ends' : 0 ∉ delim) :
    strtok prevTokEndP str delim =
      if Ascii delim then
        match text.dropWhile (· ∈ delim) with
        | [] => some (none, prevTokEndP)
        | first :: word =>
          if Ascii ((first :: word).takeWhile (· ∉ delim)) then
            some (some ((first :: word).takeWhile (· ∉ delim)),
              match (first :: word).dropWhile (· ∉ delim) with
              | [] => none
              | _ :: later => some later)
          else none
      else none := by
  unfold strtok
  rw [strmakset_eq, given]
  by_cases table : Ascii delim
  · rw [if_pos table, if_pos table]
    simp only [Option.bind_eq_bind, Option.bind_some]
    have gap : Ascii (text.takeWhile (· ∈ delim)) := fun ch member => table ch (by simpa using List.mem_takeWhile_imp member)
    rw [strFirstNotIn_eq ends']
    cases rest : text.dropWhile (· ∈ delim) with
    | nil =>
      have reads : Ascii (text.takeWhile (· ∈ delim) ++ ([] : List UInt8).take 1) := by
        rw [List.take_nil, List.append_nil]
        exact gap
      rw [if_pos reads]
      simp only [Option.bind_some]
      unfold spanIn
      rw [drop_takeWhile, rest, if_pos rfl]
    | cons first word =>
      have outside : first ∉ delim := by
        have stops := List.head_dropWhile_not (fun ch => decide (ch ∈ delim)) (by rw [rest]; exact List.cons_ne_nil first word)
        simpa [rest] using stops
      have wordEnds : 0 ∉ first :: word := by
        rw [← rest]
        exact fun member => ends ((List.dropWhile_sublist _).subset member)
      by_cases ascii : first < 0x80
      · have reads : Ascii (text.takeWhile (· ∈ delim) ++ (first :: word).take 1) := by
          rw [ascii_append]
          exact ⟨gap, fun ch member => by rw [List.mem_singleton.mp member]; exact ascii⟩
        rw [if_pos reads]
        simp only [Option.bind_some]
        unfold spanIn
        rw [drop_takeWhile, rest, if_neg (List.cons_ne_nil _ _), strFirstIn_eq wordEnds]
        by_cases all : Ascii ((first :: word).takeWhile (· ∉ delim))
        · have reads' : Ascii ((first :: word).takeWhile (· ∉ delim) ++ ((first :: word).dropWhile (· ∉ delim)).take 1) :=
            ascii_append.mpr ⟨all, ascii_behind table⟩
          rw [if_pos reads', if_pos all]
          simp only [Option.bind_some]
          unfold spanNotIn
          rw [drop_takeWhile, take_takeWhile, ← List.drop_drop, drop_takeWhile]
          cases (first :: word).dropWhile (· ∉ delim) with
          | nil => rfl
          | cons other later => rfl
        · rw [if_neg fun reads' => all (ascii_append.mp reads').1, if_neg all]
          rfl
      · have unread : ¬Ascii (text.takeWhile (· ∈ delim) ++ (first :: word).take 1) :=
          fun reads => ascii ((ascii_append.mp reads).2 first List.mem_cons_self)
        have high : ¬Ascii ((first :: word).takeWhile (· ∉ delim)) := by
          intro all
          refine ascii (all first ?_)
          rw [List.takeWhile_cons_of_pos (by simpa using outside)]
          exact List.mem_cons_self
        rw [if_neg unread]
        exact (if_neg high).symm
  · rw [if_neg table, if_neg table]
    rfl

/-- The calls behind the last word do not find another one: a pointer is left, and the text behind it has nothing but
delimiters of each of the sets. -/
def Idle (prevTokEndP : Option (List UInt8)) (delims : List (List UInt8)) : Prop :=
  ∀ delim ∈ delims, ∃ text, prevTokEndP = some text ∧ Ascii delim ∧ text ⊆ delim

/-- The characters that are read are indices of the table, and nothing is asked for behind a word at the end of the string. -/
def Regular (prevTokEndP : Option (List UInt8)) (text : List UInt8) : List (List UInt8) → Prop
  | [] => True
  | delim :: rest => Ascii delim ∧
      match text.dropWhile (· ∈ delim) with
      | [] => Idle prevTokEndP rest
      | first :: word => Ascii ((first :: word).takeWhile (· ∉ delim)) ∧
          match (first :: word).dropWhile (· ∉ delim) with
          | [] => rest = []
          | _ :: later => Regular (some later) later rest

/-- The string and the sets end with the only NUL that they have. -/
def Ended (prevTokEndP : Option (List UInt8)) (delims : List (List UInt8)) : Prop :=
  (∀ text, prevTokEndP = some text → 0 ∉ text) ∧ ∀ delim ∈ delims, 0 ∉ delim

theorem idle_iff {delims : List (List UInt8)} (ended : Ended prevTokEndP delims) :
    strtokAll prevTokEndP none delims = some (delims.map fun _ => none) ↔ Idle prevTokEndP delims := by
  induction delims with
  | nil => exact iff_of_true rfl nofun
  | cons delim rest ih =>
    have ih := ih ⟨ended.1, fun other member => ended.2 other (List.mem_cons_of_mem _ member)⟩
    unfold Idle
    rw [List.forall_mem_cons]
    unfold strtokAll
    cases prev : prevTokEndP with
    | none =>
      refine iff_of_false (fun returns => ?_) fun holds => ?_
      · unfold strtok at returns
        rw [strmakset_eq] at returns
        split_ifs at returns <;> cases returns
      · obtain ⟨⟨text, impossible, -⟩, -⟩ := holds
        cases impossible
    | some text =>
      rw [prev] at ih
      have given : ((none : Option (List UInt8)) <|> some text) = some text := rfl
      rw [strtok_eq given (ended.1 text prev) (ended.2 delim List.mem_cons_self)]
      by_cases table : Ascii delim
      · rw [if_pos table]
        cases empty : text.dropWhile (· ∈ delim) with
        | nil =>
          have inside : text ⊆ delim := fun ch member => by simpa using List.dropWhile_eq_nil_iff.mp empty ch member
          simp only [Option.bind_eq_bind, Option.bind_some]
          have both : ((strtokAll (some text) none rest).bind fun tokens => some (none :: tokens)) =
              some ((delim :: rest).map fun _ => none) ↔
              strtokAll (some text) none rest = some (rest.map fun _ => none) := by
            cases strtokAll (some text) none rest <;> simp
          rw [both, ih]
          exact (and_iff_right ⟨text, rfl, table, inside⟩).symm
        | cons first word =>
          refine iff_of_false (fun returns => ?_) fun holds => ?_
          · dsimp only at returns
            split_ifs at returns
            · simp only [Option.bind_eq_bind, Option.bind_some] at returns
              obtain ⟨tokens, -, same⟩ := Option.bind_eq_some_iff.mp returns
              cases same
            · cases returns
          · obtain ⟨⟨other, same, -, inside⟩, -⟩ := holds
            cases same
            have none : text.dropWhile (· ∈ delim) = [] :=
              List.dropWhile_eq_nil_iff.mpr fun ch member => decide_eq_true (inside member)
            rw [none] at empty
            cases empty
      · rw [if_neg table]
        refine iff_of_false (fun returns => nomatch returns) fun holds => ?_
        obtain ⟨⟨other, -, ascii, -⟩, -⟩ := holds
        exact table ascii

/-- A call with `NULL` goes on with the text that is left. -/
theorem strtokAll_null (text : List UInt8) (delims : List (List UInt8)) :
    strtokAll (some text) none delims = strtokAll (some text) (some text) delims := by
  cases delims <;> rfl

theorem strtokAll_iff {delims : List (List UInt8)} (ended : Ended prevTokEndP delims) (ends : 0 ∉ text) :
    strtokAll prevTokEndP (some text) delims = some (segments text delims) ↔ Regular prevTokEndP text delims := by
  induction delims generalizing prevTokEndP text with
  | nil => exact iff_of_true rfl trivial
  | cons delim rest ih =>
    have endedRest : Ended prevTokEndP rest := ⟨ended.1, fun other member => ended.2 other (List.mem_cons_of_mem _ member)⟩
    unfold strtokAll segments Regular
    rw [@strtok_eq text delim prevTokEndP (some text) rfl ends (ended.2 delim List.mem_cons_self)]
    by_cases table : Ascii delim
    · rw [if_pos table, and_iff_right table]
      cases rest' : text.dropWhile (· ∈ delim) with
      | nil =>
        simp only [Option.bind_eq_bind, Option.bind_some]
        rw [← idle_iff endedRest]
        cases strtokAll prevTokEndP none rest <;> simp
      | cons first word =>
        dsimp only
        by_cases ascii : Ascii ((first :: word).takeWhile (· ∉ delim))
        · rw [if_pos ascii, and_iff_right ascii]
          simp only [Option.bind_eq_bind, Option.bind_some]
          cases behind : (first :: word).dropWhile (· ∉ delim) with
          | nil =>
            cases rest with
            | nil => exact iff_of_true rfl rfl
            | cons other later =>
              refine iff_of_false (fun returns => ?_) (List.cons_ne_nil _ _)
              obtain ⟨tokens, later, -⟩ := Option.bind_eq_some_iff.mp returns
              obtain ⟨result, called, -⟩ := Option.bind_eq_some_iff.mp later
              unfold strtok at called
              rw [strmakset_eq] at called
              split_ifs at called <;> cases called
          | cons other later =>
            have laterEnds : 0 ∉ later := by
              intro member
              refine ends ((List.dropWhile_sublist _).subset (?_ : 0 ∈ text.dropWhile (· ∈ delim)))
              rw [rest']
              refine (List.dropWhile_sublist _).subset (?_ : 0 ∈ (first :: word).dropWhile (· ∉ delim))
              rw [behind]
              exact List.mem_cons_of_mem _ member
            rw [List.drop_one, List.tail_cons, strtokAll_null]
            dsimp only
            rw [← ih ⟨fun text same => Option.some.inj same ▸ laterEnds, endedRest.2⟩ laterEnds]
            cases strtokAll (some later) (some later) rest <;> simp
        · rw [if_neg ascii]
          exact iff_of_false (fun returns => nomatch returns) fun holds => ascii holds.1
    · rw [if_neg table]
      exact iff_of_false (fun returns => nomatch returns) fun holds => table holds.1

/-- When the functions find what they are for. -/
theorem strtok_scans (dst src : CString) (prev : Option CString) (text : CString) (delims : List CString) :
    (strspn dst.bytes src.bytes = some (spanIn dst.bytes src.bytes) ↔
      Ascii src.bytes ∧ Ascii ((dst.bytes.dropWhile (· ∈ src.bytes)).take 1)) ∧
    (strcspn dst.bytes src.bytes = some (spanNotIn dst.bytes src.bytes) ↔
      Ascii src.bytes ∧ Ascii (dst.bytes.takeWhile (· ∉ src.bytes))) ∧
    (strpbrk dst.bytes src.bytes = some (firstMember dst.bytes src.bytes) ↔
      Ascii src.bytes ∧ Ascii (dst.bytes.takeWhile (· ∉ src.bytes)) ∧ ∃ ch ∈ dst.bytes, ch ∈ src.bytes) ∧
    (strtokAll (prev.map CString.bytes) (some text.bytes) (delims.map CString.bytes) =
        some (segments text.bytes (delims.map CString.bytes)) ↔
      Regular (prev.map CString.bytes) text.bytes (delims.map CString.bytes)) := by
  refine ⟨strspn_iff src.nonzero, strcspn_iff dst.nonzero, strpbrk_iff dst.nonzero, strtokAll_iff ⟨?_, ?_⟩ text.nonzero⟩
  · intro bytes same
    obtain ⟨string, -, rfl⟩ := Option.map_eq_some_iff.mp same
    exact string.nonzero
  · intro bytes member
    obtain ⟨string, -, rfl⟩ := List.mem_map.mp member
    exact string.nonzero

/-- There is no `NULL` for a string without a member of the set, and none behind the last word. -/
theorem strtok_misses :
    strpbrk [0x61] [0x62] ≠ some (firstMember [0x61] [0x62]) ∧
    strspn [0xE9] [0x61] ≠ some (spanIn [0xE9] [0x61]) ∧
    strtokAll none (some [0x61]) [[0x20], [0x20]] = none := by
  decide

end Words

end Apollo.Libc
