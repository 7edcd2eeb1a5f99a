import Apollo.Driver.FloppyTracks

/-!
# The bounds of the track buffer

Which words of the memory `FloppyDisk_ReadTrack` and the functions behind it touch, for any
words that the DMA delivers.
-/

set_option autoImplicit false

namespace Apollo.Driver

/-- The words at which the loop that builds the sector table decodes a header; `none` when the
rounds do not suffice. -/
def headerPositions (words : Words) : Nat → Nat → Option (List Nat)
  | 0, _ => none
  | fuel + 1, i =>
    if i < floppyTrackBufferCapacity then
      let i := skipWords (· != mfmSyncWord) words (floppyTrackBufferCapacity - i) i
      let i := skipWords (· == mfmSyncWord) words (floppyTrackBufferCapacity - i) i
      if i = floppyTrackBufferCapacity then some [] else (headerPositions words fuel (i + 1)).map (i :: ·)
    else some []

/-- The words that `mfm_decode_sector` and `mfm_encode_sector` touch are in the track buffer. -/
def CodesInside (input dataSize : Nat) : Prop := input + 4 * dataSize ≤ floppyTrackBufferCapacity

section Coding
variable {words words' : Words} {input dataSize count i : Nat}

theorem mfmDecodeLoop_congr (agree : ∀ i < input + 2 * count + 2 * dataSize, words i = words' i) :
    mfmDecodeLoop words dataSize input count = mfmDecodeLoop words' dataSize input count := by
  induction count generalizing input with
  | zero => rfl
  | succ count ih =>
    have odd : longAt words input = longAt words' input := by
      unfold longAt
      rw [agree _ (by omega), agree _ (by omega)]
    have even : longAt words (input + 2 * dataSize) = longAt words' (input + 2 * dataSize) := by
      unfold longAt
      rw [agree _ (by omega), agree _ (by omega)]
    unfold mfmDecodeLoop
    rw [odd, even, ih fun i inside => agree i (by omega)]

/-- The last round decodes the last word. -/
theorem mfmDecodeLoop_last (some : 0 < dataSize) :
    mfmDecodeLoop (fun _ => 0) dataSize input (count + 1) ≠
      mfmDecodeLoop (Function.update (fun _ => 0) (input + 2 * count + 2 * dataSize + 1) 1) dataSize input (count + 1) := by
  induction count generalizing input with
  | zero =>
    intro same
    have head := (List.cons.inj same).1
    simp only [longAt] at head
    rw [show input + 2 * 0 + 2 * dataSize + 1 = input + 2 * dataSize + 1 by omega, Function.update_of_ne (by omega),
      Function.update_self, Function.update_of_ne (by omega), Function.update_of_ne (by omega)] at head
    exact absurd head (by decide)
  | succ count ih =>
    intro same
    have tail := (List.cons.inj same).2
    rw [show input + 2 * (count + 1) + 2 * dataSize + 1 = input + 2 + 2 * count + 2 * dataSize + 1 by omega] at tail
    exact ih tail

/-- What is decoded depends on the track buffer only. -/
theorem codesInside_iff_decodes (some : 0 < dataSize) :
    CodesInside input dataSize ↔ ∀ words words' : Words, (∀ i < floppyTrackBufferCapacity, words i = words' i) →
      mfmDecodeSector words input dataSize = mfmDecodeSector words' input dataSize := by
  constructor
  · intro inside words words' agree
    unfold CodesInside at inside
    exact mfmDecodeLoop_congr fun i before => agree i (by omega)
  · intro decodes
    by_contra outside
    unfold CodesInside at outside
    obtain ⟨count, rfl⟩ := Nat.exists_eq_succ_of_ne_zero (Nat.ne_of_gt some)
    refine @mfmDecodeLoop_last input (count + 1) count some (decodes _ _ fun i inside => ?_)
    rw [Function.update_of_ne (by omega)]

theorem mfmEncodeLoop_outside (data : List UInt32) (behind : input + 2 * data.length + 2 * dataSize ≤ i) :
    mfmEncodeLoop words dataSize input data i = words i := by
  induction data generalizing input words with
  | nil => rfl
  | cons first rest ih =>
    rw [List.length_cons] at behind
    unfold mfmEncodeLoop
    dsimp only
    rw [ih (by omega)]
    unfold storeLong
    rw [Function.update_of_ne (by omega), Function.update_of_ne (by omega), Function.update_of_ne (by omega),
      Function.update_of_ne (by omega)]

/-- Encoding writes to the track buffer only. -/
theorem CodesInside.encodes {data : List UInt32} (inside : CodesInside input data.length)
    (behind : floppyTrackBufferCapacity ≤ i) : mfmEncodeSector data words input i = words i := by
  unfold CodesInside at inside
  exact mfmEncodeLoop_outside data (by omega)

end Coding

def floppySectorsCapacity : Nat := 22

def sectorTableOf (words : Words) (cylinder : Int) : Nat → Nat :=
  buildSectorTable words cylinder floppyTrackBufferCapacity 0 fun _ => 0

structure Cached (sys : FloppySystem) (words : Words) (head : Nat) (cylinder : Int) : Prop where
  isValid : sys.disk.bufferValid = true
  onCylinder : sys.disk.cylinder = cylinder
  onHead : sys.disk.head = head
  table : sys.disk.trackSectors = sectorTableOf words cylinder

/-- The scan ends, and neither it nor what later uses its table leaves the track buffer or the table. -/
structure ScansInside (words : Words) (cylinder : Int) : Prop where
  headers : ∃ positions, headerPositions words (floppyTrackBufferCapacity + 1) 0 = some positions ∧
    ∀ i ∈ positions, CodesInside i 1
  recorded : ∀ sector, sectorTableOf words cylinder sector ≠ 0 → sector < floppySectorsCapacity
  sectors : ∀ sys head, Cached sys words head cylinder → ∀ sector < floppySectorsCapacity,
    (∀ spin writeSpin buffer, (sys.readSector spin head cylinder sector).1 = none ∧
      (sys.writeSector spin writeSpin head cylinder sector buffer).1 = false) ∨
    CodesInside (sys.disk.trackSectors sector + 28) adfSectorLongs

def Names (words : Words) (cylinder : Int) (sector i : Nat) : Prop :=
  (sectorHeader words i).format = adfFormatV1 ∧ ((sectorHeader words i).track.toNat : Int) = cylinder ∧
    (sectorHeader words i).sector.toNat = sector ∧ sector < adfDDSecsPerTrack

instance (words : Words) (cylinder : Int) (sector i : Nat) : Decidable (Names words cylinder sector i) :=
  inferInstanceAs (Decidable (_ ∧ _))

/-- The sync words leave room for the header behind them, and the first header of a sector for its data. -/
structure LeavesRoom (words : Words) (cylinder : Int) : Prop where
  header : ∀ m, Mark words m → m + 1 < floppyTrackBufferCapacity → m + 5 ≤ floppyTrackBufferCapacity
  data : ∀ sector m, Mark words m → m + 1 < floppyTrackBufferCapacity → Names words cylinder sector (m + 1) →
    (∀ other < m, Mark words other → ¬Names words cylinder sector (other + 1)) → m + 541 ≤ floppyTrackBufferCapacity

variable {words : Words} {cylinder : Int}

/-- The headers are decoded behind the marks, from the first one to the last one. -/
theorem headerPositions_spec {fuel i : Nat} (enough : floppyTrackBufferCapacity < fuel + i)
    (bounded : i ≤ floppyTrackBufferCapacity) :
    ∃ positions, headerPositions words fuel i = some positions ∧ positions.Pairwise (· < ·) ∧
      (∀ k, k ∈ positions ↔ ∃ m, k = m + 1 ∧ i ≤ m ∧ m + 1 < floppyTrackBufferCapacity ∧ Mark words m) ∧
      ∀ fuel' table, floppyTrackBufferCapacity ≤ fuel' + i → buildSectorTable words cylinder fuel' i table =
        positions.foldl (fun table i => recordSector cylinder (sectorHeader words i) i table) table := by
  induction fuel generalizing i with
  | zero => omega
  | succ fuel ih =>
    by_cases inside : i < floppyTrackBufferCapacity
    · have rounds (fuel' : Nat) (table : Nat → Nat) := @buildSectorTable_succ words cylinder fuel' i table _ _ inside rfl rfl
      obtain ⟨none, found⟩ := @skipWords_mark words i _ _ inside rfl rfl
      rw [headerPositions, if_pos inside]
      dsimp only
      generalize skipWords (· == mfmSyncWord) words _ _ = k at rounds none found ⊢
      by_cases final : k = floppyTrackBufferCapacity
      · rw [if_pos final]
        refine ⟨[], rfl, List.Pairwise.nil, fun k' => ⟨fun mem => absurd mem List.not_mem_nil, ?_⟩, fun fuel' table enough' => ?_⟩
        · rintro ⟨m, -, lower, upper, mark⟩
          exact absurd mark (none m lower (by omega))
        · obtain ⟨less, rfl⟩ := Nat.exists_eq_succ_of_ne_zero (by omega : fuel' ≠ 0)
          rw [rounds, if_pos final, List.foldl_nil]
      · obtain ⟨m, rfl, lower, upper, mark⟩ := found final
        obtain ⟨positions, scans, ascending, members, builds⟩ := @ih (m + 2) (by omega) (by omega)
        rw [if_neg final, scans]
        refine ⟨(m + 1) :: positions, rfl, ?_, fun k => ?_, fun fuel' table enough' => ?_⟩
        · refine List.pairwise_cons.2 ⟨fun k mem => ?_, ascending⟩
          obtain ⟨other, rfl, later, -⟩ := (members k).1 mem
          omega
        · rw [List.mem_cons, members]
          constructor
          · rintro (rfl | ⟨other, rfl, later, upper', mark'⟩)
            · exact ⟨m, rfl, lower, upper, mark⟩
            · exact ⟨other, rfl, by omega, upper', mark'⟩
          · rintro ⟨other, rfl, lower', upper', mark'⟩
            by_cases first : other = m
            · exact .inl (by rw [first])
            · refine .inr ⟨other, rfl, ?_, upper', mark'⟩
              by_contra early
              by_cases next : other = m + 1
              · exact mark.2 (next ▸ mark'.1)
              · exact none other lower' (by omega) mark'
        · obtain ⟨less, rfl⟩ := Nat.exists_eq_succ_of_ne_zero (by omega : fuel' ≠ 0)
          rw [rounds, if_neg final, builds _ _ (by omega), List.foldl_cons]
    · rw [headerPositions, if_neg inside]
      refine ⟨[], rfl, List.Pairwise.nil, fun k => ⟨fun mem => absurd mem List.not_mem_nil, ?_⟩, fun fuel' table _ => ?_⟩
      · rintro ⟨m, -, lower, upper, -⟩
        omega
      · cases fuel' with
        | zero => rfl
        | succ fuel' => rw [buildSectorTable, if_neg inside, List.foldl_nil]

variable {sector i head : Nat} {sys : FloppySystem}

theorem recordSector_named {table : Nat → Nat} (names : Names words cylinder sector i)
    (empty : table sector = 0) : recordSector cylinder (sectorHeader words i) i table sector = i := by
  obtain ⟨format, track, rfl, valid⟩ := names
  exact recordSector_new format track valid empty

theorem recordSector_unnamed {table : Nat → Nat} (other : ¬Names words cylinder sector i) :
    recordSector cylinder (sectorHeader words i) i table sector = table sector := by
  by_cases named : (sectorHeader words i).sector.toNat = sector
  · unfold recordSector
    split
    · rfl
    · rename_i valid
      exact absurd ⟨not_not.1 fun no => valid (.inl no), not_not.1 fun no => valid (.inr (.inl no)), named,
        named ▸ Nat.lt_of_not_le fun no => valid (.inr (.inr no))⟩ other
  · exact recordSector_other named

theorem foldl_recordSector (positions : List Nat) (table : Nat → Nat) (sector : Nat) (above : ∀ i ∈ positions, i ≠ 0) :
    positions.foldl (fun table i => recordSector cylinder (sectorHeader words i) i table) table sector =
      if table sector ≠ 0 then table sector
      else (positions.find? fun i => decide (Names words cylinder sector i)).getD 0 := by
  induction positions generalizing table with
  | nil =>
    rw [List.foldl_nil]
    split
    · rfl
    · exact not_not.1 ‹_›
  | cons i rest ih =>
    rw [List.foldl_cons, ih _ fun j mem => above j (List.mem_cons_of_mem i mem)]
    by_cases empty : table sector = 0
    · by_cases names : Names words cylinder sector i
      · rw [recordSector_named names empty, if_pos (above i List.mem_cons_self), if_neg (not_not.2 empty),
          List.find?_cons, decide_eq_true names]
        rfl
      · rw [recordSector_unnamed names, List.find?_cons, decide_eq_false names]
    · rw [recordSector_kept empty, if_pos empty, if_pos empty]

theorem sectorTableOf_first (filled : sectorTableOf words cylinder sector ≠ 0) :
    ∃ m, sectorTableOf words cylinder sector = m + 1 ∧ Mark words m ∧ m + 1 < floppyTrackBufferCapacity ∧
      Names words cylinder sector (m + 1) ∧ ∀ other < m, Mark words other → ¬Names words cylinder sector (other + 1) := by
  obtain ⟨positions, -, ascending, members, builds⟩ :=
    @headerPositions_spec words cylinder (floppyTrackBufferCapacity + 1) 0 (Nat.lt_succ_self _) (Nat.zero_le _)
  have table := (congrFun (builds floppyTrackBufferCapacity (fun _ => 0) (Nat.le_refl _)) sector).trans
    (foldl_recordSector positions _ sector fun i mem => by obtain ⟨m, rfl, -⟩ := (members i).1 mem; exact Nat.succ_ne_zero m)
  rw [if_neg (not_not.2 rfl)] at table
  unfold sectorTableOf at filled ⊢
  rw [table] at filled ⊢
  cases found : positions.find? fun i => decide (Names words cylinder sector i) with
  | none => exact absurd (by rw [found]; rfl) filled
  | some k =>
    obtain ⟨names, front, back, rfl, others⟩ := List.find?_eq_some_iff_append.1 found
    obtain ⟨m, rfl, -, inside, mark⟩ := (members k).1 (by simp)
    refine ⟨m, rfl, mark, inside, of_decide_eq_true names, fun other before mark' => ?_⟩
    have mem := (members (other + 1)).2 ⟨other, rfl, Nat.zero_le _, by omega, mark'⟩
    rcases List.mem_append.1 mem with earlier | later
    · simpa using others _ earlier
    · rcases List.mem_cons.1 later with same | later
      · omega
      · have := (List.pairwise_cons.1 (List.pairwise_append.1 ascending).2.1).1 _ later
        omega

theorem sectorTableOf_ne_zero {m : Nat} (mark : Mark words m) (inside : m + 1 < floppyTrackBufferCapacity)
    (names : Names words cylinder sector (m + 1)) : sectorTableOf words cylinder sector ≠ 0 := by
  obtain ⟨positions, -, ascending, members, builds⟩ :=
    @headerPositions_spec words cylinder (floppyTrackBufferCapacity + 1) 0 (Nat.lt_succ_self _) (Nat.zero_le _)
  have above : ∀ i ∈ positions, i ≠ 0 := fun i mem => by obtain ⟨m, rfl, -⟩ := (members i).1 mem; exact Nat.succ_ne_zero m
  have table := (congrFun (builds floppyTrackBufferCapacity (fun _ => 0) (Nat.le_refl _)) sector).trans
    (foldl_recordSector positions _ sector above)
  rw [if_neg (not_not.2 rfl)] at table
  unfold sectorTableOf
  rw [table]
  cases found : positions.find? fun i => decide (Names words cylinder sector i) with
  | none =>
    have none := List.find?_eq_none.1 found (m + 1) ((members _).2 ⟨m, rfl, Nat.zero_le _, inside, mark⟩)
    exact absurd (decide_eq_true names) none
  | some k => exact above k (List.mem_of_find?_eq_some found)

theorem Cached.readTrack (cached : Cached sys words head cylinder) (spin : FloppySpin) :
    sys.readTrack spin head cylinder = sys := by
  have stays : ¬(sys.disk.cylinder ≠ cylinder ∨ sys.disk.head ≠ head) := by
    rw [cached.onCylinder, cached.onHead]
    simp
  unfold FloppySystem.readTrack
  simp only [if_neg stays, cached.isValid, if_true]

/-- The sector calls return `EIO` for a sector that the table does not have. -/
theorem Cached.sector_missing (cached : Cached sys words head cylinder) (spin writeSpin : FloppySpin)
    (sector : Nat) (buffer : List UInt32) :
    ((sys.readSector spin head cylinder sector).1 = none ∧
      (sys.writeSector spin writeSpin head cylinder sector buffer).1 = false) ↔ sys.disk.trackSectors sector = 0 := by
  rw [FloppySystem.readSector, FloppySystem.writeSector, cached.readTrack]
  dsimp only
  split <;> simp [*]

theorem LeavesRoom.scansInside (room : LeavesRoom words cylinder) : ScansInside words cylinder := by
  obtain ⟨positions, scans, -, members, -⟩ :=
    @headerPositions_spec words cylinder (floppyTrackBufferCapacity + 1) 0 (Nat.lt_succ_self _) (Nat.zero_le _)
  refine ⟨⟨positions, scans, fun i mem => ?_⟩, fun sector filled => ?_, fun sys head cached sector _ => ?_⟩
  · obtain ⟨m, rfl, -, inside, mark⟩ := (members i).1 mem
    have := room.header m mark inside
    unfold CodesInside
    omega
  · obtain ⟨m, -, -, -, names, -⟩ := sectorTableOf_first filled
    exact Nat.lt_trans names.2.2.2 (by decide)
  · by_cases empty : sys.disk.trackSectors sector = 0
    · exact .inl fun spin writeSpin buffer => (cached.sector_missing spin writeSpin sector buffer).2 empty
    · rw [cached.table] at empty ⊢
      obtain ⟨m, table, mark, inside, names, first⟩ := sectorTableOf_first empty
      have := room.data sector m mark inside names first
      rw [table]
      unfold CodesInside adfSectorLongs
      exact .inr (by omega)

theorem ScansInside.leavesRoom (inside : ScansInside words cylinder) : LeavesRoom words cylinder := by
  obtain ⟨positions, scans, -, members, -⟩ :=
    @headerPositions_spec words cylinder (floppyTrackBufferCapacity + 1) 0 (Nat.lt_succ_self _) (Nat.zero_le _)
  refine ⟨fun m mark before => ?_, fun sector m mark before names first => ?_⟩
  · obtain ⟨positions', scans', headers⟩ := inside.headers
    obtain rfl := Option.some.inj (scans.symm.trans scans')
    have := headers (m + 1) ((members _).2 ⟨m, rfl, Nat.zero_le _, before, mark⟩)
    unfold CodesInside at this
    omega
  · have filled := sectorTableOf_ne_zero mark before names
    obtain ⟨m', table, mark', -, names', first'⟩ := sectorTableOf_first filled
    obtain rfl : m = m' := by
      rcases Nat.lt_trichotomy m m' with less | same | less
      · exact absurd names (first' m less mark)
      · exact same
      · exact absurd names' (first m' less mark')
    have cached : Cached ⟨⟨words, sectorTableOf words cylinder, 0, cylinder, true⟩, ⟨fun _ _ => ⟨0, words⟩, cylinder, 0⟩⟩
        words 0 cylinder := ⟨rfl, rfl, rfl, rfl⟩
    rcases inside.sectors _ 0 cached sector (Nat.lt_trans names.2.2.2 (by decide)) with missing | codes
    · have empty := (cached.sector_missing (fun _ => 0) (fun _ => 0) sector []).1 (missing (fun _ => 0) (fun _ => 0) [])
      exact absurd empty filled
    · dsimp only at codes
      rw [table] at codes
      unfold CodesInside adfSectorLongs at codes
      omega

/-- Decoding and encoding stay inside the track buffer exactly when there is room behind the marks. -/
theorem scansInside_iff (words : Words) (cylinder : Int) : ScansInside words cylinder ↔ LeavesRoom words cylinder :=
  ⟨ScansInside.leavesRoom, LeavesRoom.scansInside⟩

def lateSync : Words := fun i => if i = 6398 then mfmSyncWord else 0

theorem lateSync_outside : ¬ScansInside lateSync 0 := by
  intro inside
  exact absurd (inside.leavesRoom.header 6398 ⟨rfl, by decide⟩ (by decide)) (by decide)

end Apollo.Driver
