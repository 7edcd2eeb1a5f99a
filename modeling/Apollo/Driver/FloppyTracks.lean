import Apollo.Driver.FloppyDisk
import Mathlib.Order.Basic

/-!
# Scanning a track

The scan for the sector table goes from sync mark to sync mark, and a sector is recorded
where it is found first.
-/

set_option autoImplicit false

namespace Apollo.Driver

def Mark (words : Words) (i : Nat) : Prop := words i = mfmSyncWord ∧ words (i + 1) ≠ mfmSyncWord

theorem skipWords_spec (skip : UInt16 → Bool) (words : Words) (count i : Nat) :
    i ≤ skipWords skip words count i ∧ skipWords skip words count i ≤ i + count ∧
      (∀ x, i ≤ x → x < skipWords skip words count i → skip (words x) = true) ∧
      (skipWords skip words count i < i + count → skip (words (skipWords skip words count i)) = false) := by
  induction count generalizing i with
  | zero => exact ⟨Nat.le_refl _, Nat.le_refl _, fun x above below => absurd above (Nat.not_le_of_lt below), fun below => absurd below (Nat.lt_irrefl _)⟩
  | succ count ih =>
    rw [skipWords]
    by_cases goes : skip (words i) = true
    · obtain ⟨above, below, skipped, stops⟩ := ih (i + 1)
      rw [if_pos goes]
      refine ⟨Nat.le_of_succ_le above, by omega, fun x lower upper => ?_, fun inside => stops (by omega)⟩
      by_cases first : x = i
      · rw [first]
        exact goes
      · exact skipped x (by omega) upper
    · rw [if_neg goes]
      exact ⟨Nat.le_refl _, by omega, fun x above below => absurd above (Nat.not_le_of_lt below),
        fun _ => Bool.eq_false_iff.mpr goes⟩

theorem buildSectorTable_succ {words : Words} {cylinder : Int} {fuel i : Nat} {table : Nat → Nat} {j k : Nat}
    (inside : i < floppyTrackBufferCapacity)
    (first : skipWords (· != mfmSyncWord) words (floppyTrackBufferCapacity - i) i = j)
    (last : skipWords (· == mfmSyncWord) words (floppyTrackBufferCapacity - j) j = k) :
    buildSectorTable words cylinder (fuel + 1) i table =
      if k = floppyTrackBufferCapacity then table
      else buildSectorTable words cylinder fuel (k + 1) (recordSector cylinder (sectorHeader words k) k table) := by
  subst first last
  rw [buildSectorTable, if_pos inside]

/-- A round of the scan ends behind the next mark, or at the end of the buffer when there is none. -/
theorem skipWords_mark {words : Words} {i j k : Nat} (inside : i < floppyTrackBufferCapacity)
    (first : skipWords (· != mfmSyncWord) words (floppyTrackBufferCapacity - i) i = j)
    (last : skipWords (· == mfmSyncWord) words (floppyTrackBufferCapacity - j) j = k) :
    (∀ x, i ≤ x → x + 1 < k → ¬Mark words x) ∧
      (k ≠ floppyTrackBufferCapacity → ∃ m, k = m + 1 ∧ i ≤ m ∧ m + 1 < floppyTrackBufferCapacity ∧ Mark words m) := by
  obtain ⟨above, below, noSync, stops⟩ := skipWords_spec (· != mfmSyncWord) words (floppyTrackBufferCapacity - i) i
  rw [first] at above below noSync stops
  obtain ⟨above', below', allSync, stops'⟩ := skipWords_spec (· == mfmSyncWord) words (floppyTrackBufferCapacity - j) j
  rw [last] at above' below' allSync stops'
  refine ⟨fun x lower upper mark => ?_, fun final => ?_⟩
  · -- there is no mark in front of the last sync word of the group
    by_cases early : x < j
    · have other := noSync x lower early
      rw [mark.1, bne_self_eq_false] at other
      exact Bool.false_ne_true other
    · exact mark.2 (beq_iff_eq.mp (allSync (x + 1) (by omega) upper))
  · have synced : words j = mfmSyncWord := by
      have found := stops (by omega)
      rw [bne_eq_false_iff_eq] at found
      exact found
    have ended : words k ≠ mfmSyncWord := by
      have found := stops' (by omega)
      exact fun same => by rw [same, beq_self_eq_true] at found; exact Bool.false_ne_true found.symm
    have later : j < k := by
      rcases Nat.lt_or_eq_of_le above' with less | same
      · exact less
      · exact absurd (same ▸ synced) ended
    obtain ⟨m, rfl⟩ := Nat.exists_eq_succ_of_ne_zero (Nat.ne_zero_of_lt later)
    refine ⟨m, rfl, by omega, by omega, ?_, ended⟩
    rcases Nat.lt_or_eq_of_le (Nat.le_of_lt_succ later) with less | same
    · exact beq_iff_eq.mp (allSync m (Nat.le_of_lt less) (Nat.lt_succ_self m))
    · exact same ▸ synced

/-! ## The sector table -/

variable {cylinder : Int} {header : ADFSectorHeader} {i sector : Nat}

theorem recordSector_kept {table : Nat → Nat}
    (kept : table sector ≠ 0) : recordSector cylinder header i table sector = table sector := by
  unfold recordSector
  split
  · rfl
  · split
    · rename_i empty
      exact Function.update_of_ne (fun named => kept (by rw [named]; exact empty)) _ _
    · rfl

theorem recordSector_other {table : Nat → Nat}
    (other : header.sector.toNat ≠ sector) : recordSector cylinder header i table sector = table sector := by
  unfold recordSector
  split
  · rfl
  · split
    · rw [Function.update_of_ne other.symm]
    · rfl

theorem recordSector_new {table : Nat → Nat}
    (format : header.format = adfFormatV1) (track : (header.track.toNat : Int) = cylinder)
    (valid : header.sector.toNat < adfDDSecsPerTrack) (empty : table header.sector.toNat = 0) :
    recordSector cylinder header i table header.sector.toNat = i := by
  unfold recordSector
  rw [if_neg, if_pos empty, Function.update_self]
  rintro (wrong | wrong | wrong)
  · exact wrong format
  · exact wrong track
  · exact Nat.not_le_of_lt valid wrong

end Apollo.Driver
