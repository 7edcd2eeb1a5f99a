import Apollo.Serenafs.Format

/-!
# Coherence of the allocation bitmap

The allocation bitmap lives twice: cached in memory, and in the bitmap blocks
of the disk.  The write-back after a changed bit copies everything from the
window of that bit to the end of the bitmap into the 512-byte scratch block, so
it is right for the last window of the bitmap and overruns for every other one.
-/

set_option autoImplicit false

namespace Apollo.Serenafs

open Lib

/-! ## Coherence -/

def SerenaFS.Coherent (fs : SerenaFS) : Prop :=
  readBitmapBlocks fs.allocationBitmapLba fs.allocationBitmapBlockCount
    fs.allocationBitmapByteSize fs.disk = .ok fs.allocationBitmap fs.disk

variable {fs : SerenaFS}

theorem SerenaFS.Geometry.size_le (geometry : fs.Geometry) :
    fs.allocationBitmapByteSize ≤ fs.allocationBitmapBlockCount * kSFSBlockSize := by
  have blocks := geometry.blocks
  simp only [kSFSBlockSize] at *
  omega

theorem SerenaFS.Geometry.coherent_iff (geometry : fs.Geometry)
    (quiet : fs.disk.faults = []) :
    fs.Coherent ↔
      storedBitmap fs.disk.block fs.allocationBitmapLba fs.allocationBitmapByteSize =
        fs.allocationBitmap := by
  unfold SerenaFS.Coherent
  rw [readBitmapBlocks_eq quiet geometry.size_le, if_pos (Or.inr geometry.onDisk)]
  simp

theorem SerenaFS.Coherent.mark (coherent : fs.Coherent)
    (quiet : fs.disk.faults = []) (geometry : fs.Geometry) (lba : Nat) (inUse : Bool) :
    (fs.mark lba inUse).Coherent := by
  rw [geometry.coherent_iff quiet] at coherent
  rw [(geometry.mark lba inUse).coherent_iff quiet]
  have length : (setBlockInUse fs.allocationBitmap lba inUse).length =
      fs.allocationBitmapByteSize := by
    rw [length_setBlockInUse, geometry.bytes]
  apply ext_getD
  · rw [length_storedBitmap]
    exact length.symm
  intro index inside
  rw [length_storedBitmap] at inside
  rw [getD_storedBitmap _ _ inside]
  change (Function.update fs.disk.block (fs.allocationBitmapLba + windowOf lba)
      (bitmapWindow (setBlockInUse fs.allocationBitmap lba inUse) (windowOf lba))
        (fs.allocationBitmapLba + index / kSFSBlockSize)).byte _ =
    (setBlockInUse fs.allocationBitmap lba inUse).getD index 0
  by_cases window : index / kSFSBlockSize = windowOf lba
  · have position : windowOf lba * kSFSBlockSize + index % kSFSBlockSize = index := by
      rw [← window, Nat.mul_comm]
      exact Nat.div_add_mod index kSFSBlockSize
    rw [window, Function.update_self]
    have bound : index % kSFSBlockSize < 512 := Nat.mod_lt _ (by decide)
    unfold bitmapWindow
    rw [Buffer.byte_ofList _ bound, List.getD_eq_getElem?_getD, List.getElem?_drop, position,
      List.getD_eq_getElem?_getD]
  · have otherByte : lba / 8 ≠ index := by
      intro same
      exact window (by rw [← same]; rfl)
    rw [Function.update_of_ne (by omega), getD_setBlockInUse_of_ne _ _ _ otherByte, ← coherent]
    exact (getD_storedBitmap _ _ inside).symm

theorem onMount_coherent {driver : Disk} {before : SerenaFS} (quiet : driver.faults = [])
    (mounted : onMount driver before = .ok () fs) :
    fs.disk.faults = [] ∧ fs.Geometry ∧ fs.Coherent := by
  obtain ⟨header, heap, -, onDisk, rfl⟩ := onMount_ok quiet mounted
  have geometry : (header.mounted driver before heap).Geometry :=
    ⟨length_storedBitmap _ _ _, rfl, onDisk⟩
  exact ⟨quiet, geometry, (geometry.coherent_iff quiet).mpr rfl⟩

/-! ## Runs of the block allocator -/

inductive BlockCall where
  | allocate
  | deallocate (lba : Nat)
  deriving DecidableEq, Repr

def BlockCall.exec : BlockCall → FS Unit
  | .allocate => do
      let _ ← allocateBlockLocked
      pure ()
  | .deallocate lba => deallocateBlockLocked lba

def BlockCall.target (fs : SerenaFS) : BlockCall → Option Nat
  | .allocate =>
    match findFreeBlock fs.allocationBitmap (fs.volumeBlockCount - 1) 1 with
    | .found lba => some lba
    | _ => none
  | .deallocate lba => if lba = 0 then none else some lba

/-- Every call returns, its copy stays inside the scratch block and inside the
cached bitmap, and the disk agrees with the cached bitmap after it. -/
def StaysCoherent (fs : SerenaFS) : List BlockCall → Prop
  | [] => True
  | call :: rest =>
    (∀ lba, call.target fs = some lba → copyFits fs (windowOf lba)) ∧
    ∃ after, (call.exec fs).state? = some after ∧ after.Coherent ∧ StaysCoherent after rest

def BlockSearch.InLastWindow (fs : SerenaFS) : BlockSearch → Prop
  | .found lba => windowOf lba + 1 = fs.allocationBitmapBlockCount
  | .full => True
  | .outside => False

def BlockCall.InLastWindow (fs : SerenaFS) : BlockCall → Prop
  | .allocate => (findFreeBlock fs.allocationBitmap (fs.volumeBlockCount - 1) 1).InLastWindow fs
  | .deallocate lba =>
    lba = 0 ∨ (lba / 8 < fs.allocationBitmapByteSize ∧
      windowOf lba + 1 = fs.allocationBitmapBlockCount)

instance (fs : SerenaFS) : (search : BlockSearch) → Decidable (search.InLastWindow fs)
  | .found _ => inferInstanceAs (Decidable (_ = _))
  | .full => inferInstanceAs (Decidable True)
  | .outside => inferInstanceAs (Decidable False)

instance (fs : SerenaFS) : (call : BlockCall) → Decidable (call.InLastWindow fs)
  | .allocate => inferInstanceAs (Decidable (BlockSearch.InLastWindow fs _))
  | .deallocate _ => inferInstanceAs (Decidable (_ ∨ _))

def AllInLastWindow (fs : SerenaFS) : List BlockCall → Prop
  | [] => True
  | call :: rest =>
    call.InLastWindow fs ∧
    ∀ after, (call.exec fs).state? = some after → AllInLastWindow after rest

theorem copyFits_iff (geometry : fs.Geometry) {lba : Nat}
    (inside : lba / 8 < fs.allocationBitmapByteSize) :
    copyFits fs (windowOf lba) ↔ windowOf lba + 1 = fs.allocationBitmapBlockCount := by
  rw [geometry.blocks]
  unfold copyFits writeBackLength windowOf
  simp only [kSFSBlockSize]
  omega

theorem BlockCall.exec_cases (quiet : fs.disk.faults = [])
    (geometry : fs.Geometry) (call : BlockCall) :
    (call.InLastWindow fs ∧ (∀ lba, call.target fs = some lba → copyFits fs (windowOf lba)) ∧
      ((call.exec fs).state? = some fs ∨
        ∃ lba inUse, (call.exec fs).state? = some (fs.mark lba inUse))) ∨
    (¬ call.InLastWindow fs ∧ (call.exec fs).state? = none) := by
  cases call with
  | allocate =>
    cases search : findFreeBlock fs.allocationBitmap (fs.volumeBlockCount - 1) 1 with
    | found lba =>
      have inside : lba / 8 < fs.allocationBitmapByteSize :=
        geometry.bytes ▸ (findFreeBlock_found search).2.2.1
      have returned := allocateBlockLocked_found quiet geometry search
      simp only [InLastWindow, BlockSearch.InLastWindow, target, exec, search, Option.some.injEq, forall_eq']
      rw [← copyFits_iff geometry inside, Code.bind_apply, returned]
      by_cases fits : copyFits fs (windowOf lba)
      · exact Or.inl ⟨fits, fits, Or.inr ⟨lba, true, by rw [if_pos fits]; rfl⟩⟩
      · exact Or.inr ⟨fits, by rw [if_neg fits]; rfl⟩
    | full =>
      have returned := allocateBlockLocked_full search
      simp only [InLastWindow, BlockSearch.InLastWindow, target, exec, search]
      rw [Code.bind_apply, returned]
      exact Or.inl ⟨trivial, by simp, Or.inl rfl⟩
    | outside =>
      refine Or.inr ⟨by simp [InLastWindow, BlockSearch.InLastWindow, search], ?_⟩
      simp only [exec, allocateBlockLocked, Code.bind_apply, Code.get_apply, search,
        Code.fault_apply, Outcome.state?]
  | deallocate lba =>
    by_cases zero : lba = 0
    · subst zero
      exact Or.inl ⟨Or.inl rfl, by simp [target], Or.inl rfl⟩
    by_cases inside : lba / 8 < fs.allocationBitmapByteSize
    · have returned := deallocateBlockLocked_eq quiet geometry zero (geometry.bytes ▸ inside)
      simp only [InLastWindow, target, exec, zero, inside, if_false, false_or, true_and,
        Option.some.injEq, forall_eq']
      rw [← copyFits_iff geometry inside, returned]
      by_cases fits : copyFits fs (windowOf lba)
      · exact Or.inl ⟨fits, fits, Or.inr ⟨lba, false, by rw [if_pos fits]; rfl⟩⟩
      · exact Or.inr ⟨fits, by rw [if_neg fits]; rfl⟩
    · refine Or.inr ⟨by simp [InLastWindow, zero, inside], ?_⟩
      have outside : fs.allocationBitmap.length ≤ lba / 8 := by
        rw [geometry.bytes]
        omega
      simp only [exec, deallocateBlockLocked, zero, if_false, Code.bind_apply, Code.get_apply,
        outside, if_true, Code.fault_apply, Outcome.state?]

theorem staysCoherent_iff (quiet : fs.disk.faults = []) (geometry : fs.Geometry)
    (coherent : fs.Coherent) (calls : List BlockCall) :
    StaysCoherent fs calls ↔ AllInLastWindow fs calls := by
  induction calls generalizing fs with
  | nil => exact Iff.rfl
  | cons call rest ih =>
    unfold StaysCoherent AllInLastWindow
    rcases BlockCall.exec_cases quiet geometry call with
      ⟨last, fits, same | ⟨lba, inUse, marked⟩⟩ | ⟨elsewhere, stops⟩
    · simp only [last, same, Option.some.injEq, exists_eq_left', forall_eq', true_and]
      rw [ih quiet geometry coherent]
      exact ⟨fun stays => stays.2.2, fun rest => ⟨fits, coherent, rest⟩⟩
    · simp only [last, marked, Option.some.injEq, exists_eq_left', forall_eq', true_and]
      have after := coherent.mark quiet geometry lba inUse
      have quietAfter : (fs.mark lba inUse).disk.faults = [] := quiet
      rw [ih quietAfter (geometry.mark lba inUse) after]
      exact ⟨fun stays => stays.2.2, fun rest => ⟨fits, after, rest⟩⟩
    · simp [stops, elsewhere]

/-- A run of the block allocator on a mounted volume keeps the two bitmaps equal
and its copies in bounds exactly when every bit that it changes lies in the last
window of the bitmap. -/
theorem runBlockCalls_coherent_iff {driver : Disk} {before fs : SerenaFS}
    (quiet : driver.faults = []) (mounts : onMount driver before = .ok () fs)
    (calls : List BlockCall) :
    fs.Coherent ∧ (StaysCoherent fs calls ↔ AllInLastWindow fs calls) := by
  obtain ⟨quietAfter, geometry, coherent⟩ := onMount_coherent quiet mounts
  exact ⟨coherent, staysCoherent_iff quietAfter geometry coherent calls⟩

def smallDisk : Disk :=
  ((formatDrive ⟨0, 0⟩ 0x1ed ⟨0, 0⟩ true (emptyDisk 32)).state?).getD (emptyDisk 32)

theorem smallVolume_coherent :
    StaysCoherent (((onMount smallDisk (created ⟨0, 0⟩ [])).state?).getD (created ⟨0, 0⟩ []))
      [.allocate] := by
  have quiet : smallDisk.faults = [] := by decide
  have mounts := Outcome.eq_ok
    (show (onMount smallDisk (created ⟨0, 0⟩ [])).value? = some () by decide)
    (created ⟨0, 0⟩ [])
  refine ((runBlockCalls_coherent_iff quiet mounts [.allocate]).2).mpr ⟨?_, fun _ _ => trivial⟩
  decide +kernel

/-- On a volume of 5000 blocks the first allocation copies 625 bytes into the
scratch block. -/
theorem largeVolume_overruns :
    (formatAndMount ⟨0, 0⟩ 0x1ed ⟨0, 0⟩ [] (emptyDisk 5000)).isSome = true ∧
      ¬ copyFits (emptyVolume 5000) 0 ∧ ¬ StaysCoherent (emptyVolume 5000) [.allocate] := by
  refine ⟨by decide +kernel, by decide +kernel, ?_⟩
  rintro ⟨-, after, returned, -⟩
  have stops : ((BlockCall.allocate.exec (emptyVolume 5000)).state?).isNone = true := by
    decide +kernel
  rw [returned] at stops
  simp at stops

end Apollo.Serenafs
