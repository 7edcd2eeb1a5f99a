import Apollo.Klib.TimeInterval
import Mathlib

/-!
# Tab stops

`TabStops.c`.  The search for the place of a new stop ends without one when all the stops are
before it, and the new stop then goes to the front.
-/

set_option autoImplicit false

namespace Apollo.Console

/-- The stops in use are the first `count` elements of the array, which has room for `capacity`. -/
structure TabStops where
  stops : List Int
  capacity : Int

namespace TabStops

def toInt8 (value : Int) : Int := value.bmod 256

def init (nStops : Nat) (tabWidth : Int) : TabStops :=
  ⟨(List.range nStops).map fun i : Nat => toInt8 (i * tabWidth), nStops⟩

/-- The stops that `Console_ResetState_Locked` sets up. -/
def resetState (width : Nat) : TabStops := init (width / 8) 8

def insertStop (pStops : TabStops) (xLoc : Int) : TabStops :=
  let idx := (pStops.stops.findIdx? fun stop => decide (xLoc ≤ stop)).getD 0
  if pStops.stops[idx]? = some xLoc then pStops
  else
    { stops := pStops.stops.take idx ++ toInt8 xLoc :: pStops.stops.drop idx
      capacity :=
        if pStops.stops.length = pStops.capacity then
          if 0 < pStops.capacity then pStops.capacity * 2 else 8
        else pStops.capacity }

def removeStop (pStops : TabStops) (xLoc : Int) : TabStops :=
  match pStops.stops.findIdx? fun stop => decide (stop = xLoc) with
  | some idx => { pStops with stops := pStops.stops.take idx ++ pStops.stops.drop (idx + 1) }
  | none => pStops

def removeAllStops (pStops : TabStops) : TabStops := { pStops with stops := [] }

def getNextStop (pStops : TabStops) (xLoc xWidth : Int) : Int :=
  (pStops.stops.find? fun stop => decide (xLoc < stop)).getD (max (xWidth - 1) 0)

/-- The index is an `int`, and there is no stop at an index below 0. -/
def getNextNthStop (pStops : TabStops) (xLoc nth xWidth : Int) : Option Int :=
  match pStops.stops.findIdx? fun stop => decide (xLoc < stop) with
  | some i =>
    let idx := TimeInterval.toLong (i + (nth - 1))
    if idx < pStops.stops.length then if idx < 0 then none else pStops.stops[idx.toNat]?
    else some (max (xWidth - 1) 0)
  | none => some (max (xWidth - 1) 0)

def getPreviousNthStop (pStops : TabStops) (xLoc nth : Int) : Option Int :=
  match pStops.stops.reverse.findIdx? fun stop => decide (stop < xLoc) with
  | some back =>
    let i : Int := pStops.stops.length - 1 - back
    let idx := i - (max nth 1 - 1)
    if 0 ≤ idx then pStops.stops[idx.toNat]? else some 0
  | none => some 0

abbrev Nth := { nth : Int // 1 ≤ nth ∧ nth < 2147483648 }

abbrev Width := { width : Int // 1 ≤ width }

inductive Call
  | insertStop (xLoc : Fin 128)
  | removeStop (xLoc : Fin 128)
  | removeAllStops
  | getNextStop (xLoc : Int) (xWidth : Width)
  | getNextNthStop (xLoc : Int) (nth : Nth) (xWidth : Width)
  | getPreviousNthStop (xLoc : Int) (nth : Nth)

def perform (pStops : TabStops) : Call → TabStops
  | .insertStop xLoc => pStops.insertStop xLoc
  | .removeStop xLoc => pStops.removeStop xLoc
  | .removeAllStops => pStops.removeAllStops
  | _ => pStops

/-! ## The columns that the stops stand for -/

def after (columns : Finset Int) : Call → Finset Int
  | .insertStop xLoc => insert (xLoc : Int) columns
  | .removeStop xLoc => columns.erase xLoc
  | .removeAllStops => ∅
  | _ => columns

def initialColumns (width : Nat) : Finset Int := (Finset.range (width / 8)).image fun i : Nat => (i : Int) * 8

structure Holds (pStops : TabStops) (columns : Finset Int) : Prop where
  ascending : pStops.stops.Pairwise (· < ·)
  members : pStops.stops.toFinset = columns
  room : pStops.stops.length ≤ pStops.capacity
  within : columns ⊆ Finset.Icc 0 127

/-- A lookup returns the stop that it is for, counted from the column to the right or to the left. -/
def Answers (pStops : TabStops) (columns : Finset Int) : Call → Prop
  | .getNextStop xLoc xWidth =>
    pStops.getNextStop xLoc xWidth = ((columns.filter (xLoc < ·)).sort)[0]?.getD (xWidth.val - 1)
  | .getNextNthStop xLoc nth xWidth =>
    pStops.getNextNthStop xLoc nth xWidth =
      some (((columns.filter (xLoc < ·)).sort)[(nth.val - 1).toNat]?.getD (xWidth.val - 1))
  | .getPreviousNthStop xLoc nth =>
    pStops.getPreviousNthStop xLoc nth =
      some (((columns.filter (· < xLoc)).sort (· ≥ ·))[(nth.val - 1).toNat]?.getD 0)
  | _ => True

def MeetsAll : List Call → TabStops → Finset Int → Prop
  | [], pStops, columns => pStops.Holds columns
  | call :: calls, pStops, columns =>
    pStops.Holds columns ∧ pStops.Answers columns call ∧ MeetsAll calls (pStops.perform call) (after columns call)

/-- A new stop is not behind all the others, and the index of the stop that is asked for is an `int`. -/
def Call.Sound (pStops : TabStops) : Call → Prop
  | .insertStop xLoc => pStops.stops = [] ∨ ∃ stop ∈ pStops.stops, (xLoc : Int) ≤ stop
  | .getNextNthStop xLoc nth _ =>
    (∃ stop ∈ pStops.stops, xLoc < stop) →
      (pStops.stops.filter fun stop => decide (stop ≤ xLoc)).length + nth.val ≤ 2147483648
  | _ => True

def SoundAll : List Call → TabStops → Prop
  | [], _ => True
  | call :: calls, pStops => call.Sound pStops ∧ SoundAll calls (pStops.perform call)

/-! ## Searches -/

theorem findIdx?_split {p : Int → Bool} {l : List Int} {i : Nat} (found : l.findIdx? p = some i) :
    ∃ before stop behind, l = before ++ stop :: behind ∧ before.length = i ∧ p stop = true ∧
      ∀ other ∈ before, p other = false := by
  induction l generalizing i with
  | nil => cases found
  | cons head tail ih =>
    rw [List.findIdx?_cons] at found
    split at found
    case isTrue this => exact ⟨[], head, tail, rfl, Option.some.inj found, this, by simp⟩
    case isFalse other =>
      obtain ⟨j, found', rfl⟩ := Option.map_eq_some_iff.1 found
      obtain ⟨before, stop, behind, rfl, rfl, holds, none⟩ := ih found'
      refine ⟨head :: before, stop, behind, rfl, rfl, holds, ?_⟩
      simpa [other] using none

variable {pStops : TabStops} {columns : Finset Int} {xLoc : Int}

theorem toFinset_filter (l : List Int) (p : Int → Prop) [DecidablePred p] :
    l.toFinset.filter p = (l.filter p).toFinset := by
  ext stop
  simp

theorem Holds.sort_filter (holds : pStops.Holds columns) (p : Int → Prop) [DecidablePred p] :
    (columns.filter p).sort = pStops.stops.filter p := by
  rw [← holds.members, toFinset_filter]
  have ascending := holds.ascending.filter p
  exact (List.toFinset_sort _ (ascending.imp Int.ne_of_lt)).2 (ascending.imp Int.le_of_lt)

theorem Holds.sort_reverse (holds : pStops.Holds columns) (p : Int → Prop) [DecidablePred p] :
    (columns.filter p).sort (· ≥ ·) = (pStops.stops.filter p).reverse := by
  rw [← holds.members, toFinset_filter, ← List.toFinset_reverse]
  have descending := List.pairwise_reverse.2 (holds.ascending.filter p)
  exact (List.toFinset_sort _ (descending.imp fun less => Int.ne_of_gt less)).2 (descending.imp Int.le_of_lt)

theorem Holds.length_le (holds : pStops.Holds columns) : pStops.stops.length ≤ 128 := by
  rw [← List.toFinset_card_of_nodup (holds.ascending.imp Int.ne_of_lt), holds.members]
  exact Finset.card_le_card holds.within

section Split
variable {before behind : List Int} {stop : Int} {p : Int → Bool}

theorem filter_split (behindAll : ∀ other ∈ stop :: behind, p other = true) (none : ∀ other ∈ before, p other = false) :
    (before ++ stop :: behind).filter p = stop :: behind := by
  rw [List.filter_append, List.filter_eq_nil_iff.2 (by simpa using none), List.nil_append, List.filter_eq_self.2 behindAll]

theorem le_of_mem_behind (ascending : (before ++ stop :: behind).Pairwise (· < ·)) :
    ∀ other ∈ stop :: behind, stop ≤ other := by
  intro other mem
  rcases List.mem_cons.1 mem with rfl | mem
  · exact Int.le_refl _
  · exact Int.le_of_lt ((List.pairwise_cons.1 (List.pairwise_append.1 ascending).2.1).1 other mem)

end Split

theorem max_width (xWidth : Width) : max (xWidth.val - 1) 0 = xWidth.val - 1 := by
  have := xWidth.2
  omega

theorem getNextStop_spec (holds : pStops.Holds columns) (xWidth : Width) :
    pStops.Answers columns (.getNextStop xLoc xWidth) := by
  rw [Answers, getNextStop, max_width, holds.sort_filter, ← List.head?_eq_getElem?, List.head?_filter]

theorem getNextNthStop_iff (holds : pStops.Holds columns) (nth : Nth) (xWidth : Width) :
    pStops.Answers columns (.getNextNthStop xLoc nth xWidth) ↔
      (Call.getNextNthStop xLoc nth xWidth).Sound pStops := by
  obtain ⟨nth, positive, small⟩ := nth
  rw [Answers, Call.Sound, getNextNthStop, max_width, holds.sort_filter]
  rcases found : pStops.stops.findIdx? fun stop => decide (xLoc < stop) with _ | i
  · have none := List.findIdx?_eq_none_iff.1 found
    rw [List.filter_eq_nil_iff.2 (by simpa using none)]
    refine ⟨fun _ beyond => ?_, fun _ => rfl⟩
    obtain ⟨stop, mem, less⟩ := beyond
    exact absurd (none stop mem) (by simpa using less)
  · obtain ⟨before, stop, behind, split, rfl, less, none⟩ := findIdx?_split found
    have short := holds.length_le
    have ascending := holds.ascending
    rw [split] at ascending short ⊢
    have right : ∀ other ∈ stop :: behind, decide (xLoc < other) = true := fun other mem =>
      decide_eq_true (Int.lt_of_lt_of_le (of_decide_eq_true less) (le_of_mem_behind ascending other mem))
    have left : (before ++ stop :: behind).filter (fun stop => decide (stop ≤ xLoc)) = before := by
      rw [List.filter_append, List.filter_eq_self.2 (by simpa using none),
        List.filter_eq_nil_iff.2 (by simpa using right), List.append_nil]
    rw [filter_split right none, left]
    rw [List.length_append, List.length_cons] at short
    dsimp only
    constructor
    · intro answer _
      by_contra beyond
      have wrapped : TimeInterval.toLong (before.length + (nth - 1)) = before.length + (nth - 1) - 4294967296 := by
        unfold TimeInterval.toLong
        rw [Int.bmod_def]
        omega
      rw [wrapped, if_pos (by omega), if_pos (by omega)] at answer
      cases answer
    · intro sound
      have small' := sound ⟨stop, by simp, of_decide_eq_true less⟩
      rw [TimeInterval.toLong_eq_self (by omega) (by omega), List.length_append, List.length_cons]
      split
      case isTrue inside =>
        have index : (before.length + (nth - 1)).toNat = before.length + (nth - 1).toNat := by omega
        rw [if_neg (by omega), index, List.getElem?_append_right (by omega), Nat.add_sub_cancel_left]
        have bound : (nth - 1).toNat < (stop :: behind).length := by
          rw [List.length_cons]
          omega
        rw [List.getElem?_eq_getElem bound]
        rfl
      case isFalse outside =>
        rw [List.getElem?_eq_none (by rw [List.length_cons]; omega)]
        rfl

theorem getPreviousNthStop_spec (holds : pStops.Holds columns) (nth : Nth) :
    pStops.Answers columns (.getPreviousNthStop xLoc nth) := by
  obtain ⟨nth, positive, small⟩ := nth
  rw [Answers, getPreviousNthStop, holds.sort_reverse, ← List.filter_reverse]
  rcases found : pStops.stops.reverse.findIdx? fun stop => decide (stop < xLoc) with _ | back
  · have none := List.findIdx?_eq_none_iff.1 found
    rw [List.filter_eq_nil_iff.2 (by simpa using none)]
    rfl
  · obtain ⟨before, stop, behind, split, rfl, less, none⟩ := findIdx?_split found
    have descending := List.pairwise_reverse.2 holds.ascending
    have length : pStops.stops.length = before.length + (behind.length + 1) := by
      rw [← List.length_reverse, split, List.length_append, List.length_cons]
    rw [split] at descending ⊢
    have left : ∀ other ∈ stop :: behind, decide (other < xLoc) = true := by
      intro other mem
      rcases List.mem_cons.1 mem with rfl | mem
      · exact less
      · have lower := (List.pairwise_cons.1 (List.pairwise_append.1 descending).2.1).1 other mem
        exact decide_eq_true (Int.lt_trans lower (of_decide_eq_true less))
    rw [filter_split left none, Int.max_eq_left positive, length]
    dsimp only
    split
    case isTrue inside =>
      have bound : (nth - 1).toNat < (stop :: behind).length := by
        rw [List.length_cons]
        omega
      have stops : pStops.stops = (stop :: behind).reverse ++ before.reverse := by
        rw [← List.reverse_append, ← split, List.reverse_reverse]
      rw [stops, List.getElem?_append_left (by simp; omega), List.getElem?_reverse (by simp; omega),
        List.getElem?_eq_getElem bound, Option.getD_some, List.length_cons, ← List.getElem?_eq_getElem]
      congr 1
      omega
    case isFalse outside =>
      rw [List.getElem?_eq_none (by rw [List.length_cons]; omega)]
      rfl

/-! ## Stops that come and go -/

theorem toInt8_eq_self {value : Int} (low : -128 ≤ value) (high : value < 128) : toInt8 value = value :=
  Int.bmod_eq_of_le_mul_two (by omega) (by omega)

theorem room_insertStop (room : pStops.stops.length ≤ pStops.capacity) :
    (pStops.stops.length + 1 : Int) ≤ if pStops.stops.length = pStops.capacity then
      if 0 < pStops.capacity then pStops.capacity * 2 else 8 else pStops.capacity := by
  split
  · split <;> omega
  · omega

theorem Holds.insert_within (holds : pStops.Holds columns) (xLoc : Fin 128) :
    insert (xLoc : Int) columns ⊆ Finset.Icc 0 127 :=
  Finset.insert_subset (Finset.mem_Icc.2 (by omega)) holds.within

theorem insertStop_holds (holds : pStops.Holds columns) {xLoc : Fin 128}
    (sound : (Call.insertStop xLoc).Sound pStops) : (pStops.insertStop xLoc).Holds (insert (xLoc : Int) columns) := by
  have same : toInt8 (xLoc : Int) = xLoc := toInt8_eq_self (by omega) (by omega)
  have room := room_insertStop holds.room
  unfold insertStop
  rcases found : pStops.stops.findIdx? fun stop => decide ((xLoc : Int) ≤ stop) with _ | i
  · have none := List.findIdx?_eq_none_iff.1 found
    have empty : pStops.stops = [] := sound.resolve_right fun ⟨stop, mem, le⟩ =>
      absurd (none stop mem) (by simpa using le)
    have columnsEmpty : columns = ∅ := by rw [← holds.members, empty]; rfl
    simp only [empty] at room ⊢
    exact ⟨List.pairwise_singleton .., by rw [columnsEmpty, same]; rfl, room, holds.insert_within xLoc⟩
  · obtain ⟨before, stop, behind, split, rfl, le, none⟩ := findIdx?_split found
    have ascending := holds.ascending
    have members := holds.members
    rw [split] at ascending members
    dsimp only
    rw [Option.getD_some, split, List.getElem?_append_right (Nat.le_refl _), Nat.sub_self, List.getElem?_cons_zero]
    by_cases equal : stop = xLoc
    · rw [if_pos (by rw [equal])]
      have present : (xLoc : Int) ∈ columns := by rw [← members, ← equal]; simp
      rwa [Finset.insert_eq_of_mem present]
    · rw [if_neg (by simpa using equal), List.take_left' rfl, List.drop_left' rfl, same]
      refine ⟨?_, ?_, ?_, holds.insert_within xLoc⟩
      · have low := List.pairwise_append.1 ascending
        refine List.pairwise_append.2 ⟨low.1, List.pairwise_cons.2 ⟨fun other mem => ?_, low.2.1⟩, ?_⟩
        · have := le_of_mem_behind ascending other mem
          have := of_decide_eq_true le
          omega
        · intro first mem other mem'
          rcases List.mem_cons.1 mem' with rfl | mem'
          · simpa using none first mem
          · exact low.2.2 first mem other mem'
      · ext other
        rw [← members]
        simp only [List.mem_toFinset, List.mem_append, List.mem_cons, Finset.mem_insert]
        grind
      · rw [split] at room
        simp only [List.length_append, List.length_cons] at room ⊢
        exact room

theorem insertStop_sound {xLoc : Fin 128} {columns' : Finset Int}
    (holds' : (pStops.insertStop xLoc).Holds columns') : (Call.insertStop xLoc).Sound pStops := by
  rcases found : pStops.stops.findIdx? fun stop => decide ((xLoc : Int) ≤ stop) with _ | i
  · have none := List.findIdx?_eq_none_iff.1 found
    cases stops : pStops.stops with
    | nil => exact .inl stops
    | cons head tail =>
      have less : head < xLoc := by simpa using none head (by simp [stops])
      have ascending := holds'.ascending
      rw [insertStop, found, Option.getD_none, stops, List.getElem?_cons_zero,
        if_neg (by rw [Option.some.injEq]; omega), toInt8_eq_self (by omega) (by omega)] at ascending
      exact absurd ((List.pairwise_cons.1 ascending).1 head (by simp)) (by omega)
  · obtain ⟨before, stop, behind, split, -, le, -⟩ := findIdx?_split found
    exact .inr ⟨stop, by simp [split], of_decide_eq_true le⟩

theorem removeStop_holds (holds : pStops.Holds columns) (xLoc : Int) :
    (pStops.removeStop xLoc).Holds (columns.erase xLoc) := by
  have within := (Finset.erase_subset xLoc columns).trans holds.within
  unfold removeStop
  rcases found : pStops.stops.findIdx? fun stop => decide (stop = xLoc) with _ | i
  · have none := List.findIdx?_eq_none_iff.1 found
    have absent : xLoc ∉ columns := by
      rw [← holds.members, List.mem_toFinset]
      exact fun mem => by simpa using none xLoc mem
    rwa [Finset.erase_eq_of_notMem absent]
  · obtain ⟨before, stop, behind, split, rfl, equal, none⟩ := findIdx?_split found
    obtain rfl := of_decide_eq_true equal
    have ascending := holds.ascending
    have room := holds.room
    have members := holds.members
    rw [split] at ascending room members
    have left : (before ++ stop :: behind).drop (before.length + 1) = behind := by
      rw [List.drop_append, List.drop_eq_nil_of_le (by omega), Nat.add_sub_cancel_left]
      rfl
    simp only [split, List.take_left' rfl, left]
    have sublist : (before ++ behind).Sublist (before ++ stop :: behind) :=
      (List.Sublist.refl _).append (List.sublist_cons_self ..)
    refine ⟨ascending.sublist sublist, ?_, ?_, within⟩
    · have distinct := List.nodup_middle.1 (ascending.imp Int.ne_of_lt)
      ext other
      rw [← members]
      simp only [List.mem_toFinset, List.mem_append, List.mem_cons, Finset.mem_erase]
      have := (List.nodup_cons.1 distinct).1
      grind
    · rw [List.length_append, List.length_cons] at room
      simp only [List.length_append]
      omega

/-! ## Runs -/

theorem perform_iff (holds : pStops.Holds columns) (call : Call) :
    (pStops.Answers columns call ∧ (pStops.perform call).Holds (after columns call)) ↔ call.Sound pStops := by
  cases call with
  | insertStop xLoc => exact ⟨fun meets => insertStop_sound meets.2, fun sound => ⟨trivial, insertStop_holds holds sound⟩⟩
  | removeStop xLoc => exact iff_of_true ⟨trivial, removeStop_holds holds _⟩ trivial
  | removeAllStops =>
    refine iff_of_true ⟨trivial, List.Pairwise.nil, rfl, ?_, Finset.empty_subset _⟩ trivial
    exact Int.le_trans (Int.natCast_nonneg _) holds.room
  | getNextStop xLoc xWidth => exact iff_of_true ⟨getNextStop_spec holds xWidth, holds⟩ trivial
  | getNextNthStop xLoc nth xWidth =>
    exact ⟨fun meets => (getNextNthStop_iff holds nth xWidth).1 meets.1,
      fun sound => ⟨(getNextNthStop_iff holds nth xWidth).2 sound, holds⟩⟩
  | getPreviousNthStop xLoc nth => exact iff_of_true ⟨getPreviousNthStop_spec holds nth, holds⟩ trivial

theorem MeetsAll.holds {calls : List Call} (meets : MeetsAll calls pStops columns) : pStops.Holds columns := by
  cases calls with
  | nil => exact meets
  | cons call calls => exact meets.1

theorem run_iff (holds : pStops.Holds columns) (calls : List Call) :
    MeetsAll calls pStops columns ↔ SoundAll calls pStops := by
  induction calls generalizing pStops columns with
  | nil => exact iff_of_true holds trivial
  | cons call calls ih =>
    rw [MeetsAll, SoundAll, ← perform_iff holds call]
    constructor
    · rintro ⟨-, answers, rest⟩
      exact ⟨⟨answers, rest.holds⟩, (ih rest.holds).1 rest⟩
    · rintro ⟨⟨answers, holds'⟩, rest⟩
      exact ⟨holds, answers, (ih holds').2 rest⟩

theorem resetState_holds_iff (width : Nat) : (resetState width).Holds (initialColumns width) ↔ width < 136 := by
  constructor
  · intro holds
    by_contra wide
    have ascending := List.pairwise_iff_getElem.1 holds.ascending 15 16 (by simp [resetState, init]; omega)
      (by simp [resetState, init]; omega) (by omega)
    simp [resetState, init, toInt8] at ascending
  · intro narrow
    have exact' : (List.range (width / 8)).map (fun i : Nat => toInt8 (i * 8)) =
        (List.range (width / 8)).map fun i : Nat => (i : Int) * 8 := by
      refine List.map_congr_left fun i mem => toInt8_eq_self (by omega) ?_
      have := List.mem_range.1 mem
      omega
    refine ⟨?_, ?_, ?_, ?_⟩
    · rw [resetState, init, exact', List.pairwise_map]
      exact List.pairwise_lt_range.imp fun {i j} less => by omega
    · rw [resetState, init, exact']
      ext column
      simp [initialColumns]
    · simp [resetState, init]
    · intro column mem
      simp only [initialColumns, Finset.mem_image, Finset.mem_range] at mem
      obtain ⟨i, less, rfl⟩ := mem
      exact Finset.mem_Icc.2 (by omega)

/-- The stops are the sorted set of the columns, and the lookups find their neighbours, as long as
no stop is put behind the others and no index leaves its type. -/
theorem stops_sorted_iff (width : Nat) (calls : List Call) :
    MeetsAll calls (resetState width) (initialColumns width) ↔
      width < 136 ∧ SoundAll calls (resetState width) := by
  constructor
  · intro meets
    exact ⟨(resetState_holds_iff width).1 meets.holds, (run_iff meets.holds calls).1 meets⟩
  · rintro ⟨narrow, sound⟩
    exact (run_iff ((resetState_holds_iff width).2 narrow) calls).2 sound

/-- A stop in column 75 of 80 is put before the one in column 0. -/
theorem lastStop_first : ¬ MeetsAll [.insertStop 75] (resetState 80) (initialColumns 80) := by
  intro meets
  exact absurd meets.2.2.ascending (by decide)

end TabStops

end Apollo.Console
