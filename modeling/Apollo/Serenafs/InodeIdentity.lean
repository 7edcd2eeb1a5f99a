import Apollo.Serenafs.BlockExclusivity

/-!
# In-core inodes and their users

Inode ids are block addresses and blocks are used again.  In a run where
unlinked nodes are given up by their last user only, no two inodes in use have
the same id, the use count of an inode is the number of times it was acquired
less the number of times it was relinquished, and an unlinked node is deleted
once, when its last user gives it up.
-/

set_option autoImplicit false

namespace Apollo.Serenafs

open Lib

/-! ## What a call did to the table -/

inductive CallEffect (fs : SerenaFS) (call : Call) (after : SerenaFS) : Prop
  | neutral (same : SameCounts fs after) (acquired : call.acquired = none)
      (relinquished : call.relinquished = none) (unlinked : call.unlinked = none)
  | entered (acquired : call.acquired = some fs.nextRef) (relinquished : call.relinquished = none)
      (unlinked : call.unlinked = none) (recounts : Recounts fs.nextRef (some (1, 1)) 0 fs after)
      (next : fs.nextRef < after.nextRef)
  | reacquired {ref : InodeRef} {use link : Int} (acquired : call.acquired = some ref)
      (relinquished : call.relinquished = none) (unlinked : call.unlinked = none)
      (before : fs.counts ref = some (use, link))
      (recounts : Recounts ref (some (use + 1, link)) 0 fs after)
  | gaveUp {ref : InodeRef} {use link : Int} (acquired : call.acquired = none)
      (relinquished : call.relinquished = some ref) (unlinked : call.unlinked = none)
      (before : fs.counts ref = some (use, link)) (last : link = 0 → use = 1)
      (linked : link = 0 ∨ link = 1)
      (recounts : Recounts ref (if use = 1 then none else some (use - 1, link))
        (if link = 0 then 1 else 0) fs after)
  | unlinked {ref : InodeRef} {use link : Int} (acquired : call.acquired = none)
      (relinquished : call.relinquished = none) (unlinked : call.unlinked = some ref)
      (before : fs.counts ref = some (use, link))
      (recounts : Recounts ref (some (use, link - 1)) 0 fs after)

section Effects
variable {fs after : SerenaFS} {strict : Prop} {call : Call}

variable {ref : InodeRef} {α β : Type}

theorem CallEffect.of_acquired {id : Nat} (consistent : fs.Consistent strict none [])
    (has : fs.hasNode id = true) {middle : SerenaFS} (state : Acquired fs id ref middle)
    (same : SameCounts middle after) (acquired : call.acquired = some ref)
    (relinquished : call.relinquished = none) (unlinked : call.unlinked = none) :
    CallEffect fs call after := by
  rcases state.recounts consistent has with ⟨use, link, before, recounts⟩ | ⟨rfl, next, recounts⟩
  · exact .reacquired acquired relinquished unlinked before (recounts.trans_same same)
  · exact .entered acquired relinquished unlinked (recounts.trans_same same)
      (Nat.lt_of_lt_of_le next same.nextRef)

theorem CallEffect.of_allocated (consistent : fs.Consistent strict none []) {lba : Nat}
    {heap : List Bool} {value : Inode} (vacant : fs.Vacant lba)
    (counts : value.useCount = 1 ∧ value.linkCount = 1)
    (same : SameCounts (fs.allocated lba heap value) after)
    (acquired : call.acquired = some fs.nextRef) (relinquished : call.relinquished = none)
    (unlinked : call.unlinked = none) : CallEffect fs call after := by
  have recounts := recounts_allocated consistent vacant heap value
  rw [counts.1, counts.2] at recounts
  exact .entered acquired relinquished unlinked (recounts.trans_same same)
    (Nat.lt_of_lt_of_le (Nat.lt_succ_self fs.nextRef) same.nextRef)

theorem returned_ok {code : FS α} {f : α → β} {value : α}
    (returns : code fs = .ok value after) :
    ((do let result ← code; pure (f result) : FS β) fs).returned? = some (.ok (f value), after) := by
  rw [Code.bind_of_ok returns]
  rfl

theorem returned_err {code : FS α} {f : α → β} {reason : Errno}
    (fails : code fs = .err reason after) :
    ((do let result ← code; pure (f result) : FS β) fs).returned? = some (.error reason, after) := by
  rw [Code.bind_of_err fails]
  rfl

theorem returned_fault {code : FS α} {f : α → β} (stops : code fs = .fault) :
    ((do let result ← code; pure (f result) : FS β) fs).returned? = none := by
  rw [Code.bind_of_fault stops]
  rfl

theorem CallEffect.of_content {code : FS α} {value : Inode}
    (spec : Code.Spec (Reached fs ref value strict false []) code
      (fun _ => Reached fs ref value strict false []) (fun _ => Reached fs ref value strict false []))
    (consistent : fs.Consistent strict none []) (core : fs.Core ref value)
    (returns : ((do let _ ← code; pure none : FS (Option InodeRef)) fs).returned? =
      some (call.result, after))
    (relinquished : call.relinquished = none) (unlinked : call.unlinked = none) :
    CallEffect fs call after := by
  have reached := spec fs (Reached.start' core consistent)
  cases outcome : code fs with
  | fault =>
    rw [returned_fault outcome] at returns
    simp at returns
  | err reason final =>
    rw [outcome] at reached
    rw [returned_err outcome, Option.some.injEq, Prod.mk.injEq] at returns
    rw [← returns.2]
    exact .neutral (SameCounts.of_frame reached.frame) (by rw [Call.acquired, ← returns.1])
      relinquished unlinked
  | ok result final =>
    rw [outcome] at reached
    rw [returned_ok outcome, Option.some.injEq, Prod.mk.injEq] at returns
    rw [← returns.2]
    exact .neutral (SameCounts.of_frame reached.frame) (by rw [Call.acquired, ← returns.1])
      relinquished unlinked

theorem OrderlyStep.effect (consistent : fs.Consistent strict none [])
    (step : OrderlyStep fs call after) : CallEffect fs call after := by
  obtain ⟨operation, result⟩ := call
  obtain ⟨orderly, inUse, returns⟩ := step
  have held : ∀ ref ∈ operation.references, ∃ value, fs.Core ref value := by
    intro ref member
    obtain ⟨value, stored⟩ := consistent.table.known ref (inUse ref member)
    exact ⟨value, inUse ref member, stored⟩
  cases operation with
  | createFile name parent user options permissions =>
    obtain ⟨dir, core⟩ := held parent (by simp [Operation.references])
    rcases createFile_cases consistent core name user options permissions orderly with
      fault | ⟨created, final, returned, creates⟩
    · rw [execute, returned_fault fault] at returns
      simp at returns
    rw [execute, returned_ok returned, Option.some.injEq, Prod.mk.injEq] at returns
    obtain ⟨rfl, rfl⟩ := returns
    cases creates with
    | refused reason => exact .neutral (SameCounts.refl fs) rfl rfl rfl
    | notAcquired reason failed => exact .neutral (failed.sameCounts consistent) rfl rfl rfl
    | acquired _ _ has acquired _ reached =>
      exact .of_acquired consistent has acquired (SameCounts.of_frame reached.frame) rfl rfl rfl
    | notAllocated reason failed => exact .neutral failed.sameCounts rfl rfl rfl
    | allocated _ _ _ vacant _ reached =>
      exact .of_allocated consistent vacant ⟨rfl, rfl⟩ (SameCounts.of_frame reached.frame) rfl rfl rfl
  | createDirectory name parent user permissions =>
    obtain ⟨dir, core⟩ := held parent (by simp [Operation.references])
    have spec := createDirectory_spec consistent core name user permissions
    cases outcome : createDirectory name parent user permissions fs with
    | fault =>
      rw [execute, returned_fault outcome] at returns
      simp at returns
    | err reason final =>
      rw [outcome] at spec
      rw [execute, returned_err outcome, Option.some.injEq, Prod.mk.injEq] at returns
      obtain ⟨rfl, rfl⟩ := returns
      exact .neutral spec.2 rfl rfl rfl
    | ok done final =>
      rw [outcome] at spec
      rw [execute, returned_ok outcome, Option.some.injEq, Prod.mk.injEq] at returns
      obtain ⟨rfl, rfl⟩ := returns
      exact .neutral spec.2 rfl rfl rfl
  | allocateNode type uid gid permissions =>
    rcases allocateNode_cases consistent.hardware type uid gid permissions with
      fault | ⟨reason, final, failed, state⟩ | ⟨lba, heap, vacant, created⟩
    · rw [execute, returned_fault fault] at returns
      simp at returns
    · rw [execute, returned_err failed, Option.some.injEq, Prod.mk.injEq] at returns
      obtain ⟨rfl, rfl⟩ := returns
      exact .neutral state.sameCounts rfl rfl rfl
    · rw [execute, returned_ok created, Option.some.injEq, Prod.mk.injEq] at returns
      obtain ⟨rfl, rfl⟩ := returns
      exact .of_allocated consistent vacant ⟨rfl, rfl⟩ (SameCounts.refl _) rfl rfl rfl
  | acquireNodeWithId id =>
    rcases acquireNodeWithId_cases consistent orderly with
      ⟨final, failed, state⟩ | ⟨ref, final, acquired, state⟩
    · rw [execute, returned_err failed, Option.some.injEq, Prod.mk.injEq] at returns
      obtain ⟨rfl, rfl⟩ := returns
      exact .neutral (state.sameCounts consistent) rfl rfl rfl
    · rw [execute, returned_ok acquired, Option.some.injEq, Prod.mk.injEq] at returns
      obtain ⟨rfl, rfl⟩ := returns
      exact .of_acquired consistent orderly state (SameCounts.refl _) rfl rfl rfl
  | reacquireNode ref =>
    obtain ⟨value, core⟩ := held ref (by simp [Operation.references])
    rw [execute, returned_ok (reacquireNode_core core), Option.some.injEq, Prod.mk.injEq] at returns
    obtain ⟨rfl, rfl⟩ := returns
    exact .reacquired rfl rfl rfl core.counts (recounts_setNode core (reacquired value))
  | relinquishNode ref =>
    obtain ⟨value, core⟩ := held ref (by simp [Operation.references])
    simp only [Operation.orderly, core.stored, Option.all_some, ne_eq, Bool.or_eq_true,
      decide_eq_true_eq] at orderly
    have last : value.linkCount = 0 → value.useCount = 1 :=
      fun unlinked => orderly.resolve_left (not_not.mpr unlinked)
    cases outcome : relinquishNode ref fs with
    | fault =>
      rw [execute, returned_fault outcome] at returns
      simp at returns
    | err reason final =>
      have spec := relinquishNode_spec (consistent.loosen False.elim) core last False.elim
      rw [outcome] at spec
      exact spec.elim
    | ok done final =>
      rw [execute, returned_ok outcome, Option.some.injEq, Prod.mk.injEq] at returns
      obtain ⟨rfl, rfl⟩ := returns
      obtain ⟨linked, recounts⟩ := recounts_relinquish consistent core last outcome
      exact .gaveUp rfl rfl rfl core.counts last linked recounts
  | xRead ref offset nBytesToRead =>
    obtain ⟨value, core⟩ := held ref (by simp [Operation.references])
    exact .of_content (xRead_spec offset nBytesToRead) consistent core returns rfl rfl
  | xWrite ref offset data =>
    obtain ⟨value, core⟩ := held ref (by simp [Operation.references])
    exact .of_content (xWrite_spec offset data) consistent core returns rfl rfl
  | truncate ref user length =>
    obtain ⟨value, core⟩ := held ref (by simp [Operation.references])
    exact .of_content (truncate_spec user length) consistent core returns rfl rfl
  | unlink nodeToUnlink parent user =>
    obtain ⟨value, core⟩ := held nodeToUnlink (by simp [Operation.references])
    obtain ⟨dir, directory⟩ := held parent (by simp [Operation.references])
    have unlinks := unlink_cases consistent core directory user
    generalize outcome_eq : unlink nodeToUnlink parent user fs = outcome at unlinks
    cases unlinks with
    | fault =>
      rw [execute, returned_fault outcome_eq] at returns
      simp at returns
    | refused reason =>
      rw [execute, returned_err outcome_eq, Option.some.injEq, Prod.mk.injEq] at returns
      obtain ⟨rfl, rfl⟩ := returns
      exact .neutral (SameCounts.refl fs) rfl rfl rfl
    | notRemoved reason _ reached =>
      rw [execute, returned_err outcome_eq, Option.some.injEq, Prod.mk.injEq] at returns
      obtain ⟨rfl, rfl⟩ := returns
      exact .neutral (SameCounts.of_frame reached.frame) rfl rfl rfl
    | @unlinked _ _ _ value' _ _ _ _ _ reached core' =>
      rw [execute, returned_ok outcome_eq, Option.some.injEq, Prod.mk.injEq] at returns
      obtain ⟨rfl, rfl⟩ := returns
      have same := SameCounts.of_frame reached.frame
      have before := core'.counts
      rw [same.counts] at before
      exact .unlinked rfl rfl rfl before
        (same.trans_recounts (recounts_setNode core' (unlinked value')))
  | tick now =>
    obtain ⟨rfl, rfl⟩ := returns
    exact .neutral (SameCounts.of_eq rfl rfl rfl rfl) rfl rfl rfl

end Effects

/-! ## The tally of a run -/

theorem countP_cons_eq (read : Call → Option InodeRef) (ref : InodeRef) (call : Call)
    (calls : List Call) :
    (call :: calls).countP (read · = some ref) =
      calls.countP (read · = some ref) + if read call = some ref then 1 else 0 := by
  rw [List.countP_cons]
  simp

structure Tallied (calls : List Call) (fs : SerenaFS) : Prop where
  fresh : ∀ ref, fs.nextRef ≤ ref →
    acquisitions ref calls = 0 ∧ relinquishments ref calls = 0 ∧ unlinks ref calls = 0
  used : ∀ ref use link, fs.counts ref = some (use, link) →
    use = acquisitions ref calls - relinquishments ref calls ∧ link = 1 - unlinks ref calls ∧
      fs.removals ref = 0
  gone : ∀ ref, fs.counts ref = none →
    fs.removals ref = if 0 < unlinks ref calls then 1 else 0

section Tally
variable {fs after : SerenaFS} {call : Call} {calls : List Call}

theorem tally_cons (call : Call) (calls : List Call) (ref : InodeRef) :
    acquisitions ref (call :: calls) =
        acquisitions ref calls + (if call.acquired = some ref then 1 else 0) ∧
      relinquishments ref (call :: calls) =
        relinquishments ref calls + (if call.relinquished = some ref then 1 else 0) ∧
      unlinks ref (call :: calls) =
        unlinks ref calls + (if call.unlinked = some ref then 1 else 0) :=
  ⟨countP_cons_eq Call.acquired ref call calls, countP_cons_eq Call.relinquished ref call calls,
    countP_cons_eq Call.unlinked ref call calls⟩

def Call.Spares (call : Call) (ref : InodeRef) : Prop :=
  call.acquired ≠ some ref ∧ call.relinquished ≠ some ref ∧ call.unlinked ≠ some ref

theorem tally_spared (calls : List Call) {ref : InodeRef} (spares : call.Spares ref) :
    acquisitions ref (call :: calls) = acquisitions ref calls ∧
      relinquishments ref (call :: calls) = relinquishments ref calls ∧
      unlinks ref (call :: calls) = unlinks ref calls := by
  obtain ⟨acquired, relinquished, unlinked⟩ := tally_cons call calls ref
  rw [acquired, relinquished, unlinked, if_neg spares.1, if_neg spares.2.1, if_neg spares.2.2]
  exact ⟨rfl, rfl, rfl⟩

theorem Tallied.neutral (tallied : Tallied calls fs) (same : SameCounts fs after)
    (spares : ∀ ref, call.Spares ref) : Tallied (call :: calls) after where
  fresh ref new := by
    obtain ⟨acquired, relinquished, unlinked⟩ := tally_spared calls (spares ref)
    rw [acquired, relinquished, unlinked]
    exact tallied.fresh ref (Nat.le_trans same.nextRef new)
  used ref use link counted := by
    obtain ⟨acquired, relinquished, unlinked⟩ := tally_spared calls (spares ref)
    rw [same.counts] at counted
    rw [acquired, relinquished, unlinked, same.removals]
    exact tallied.used ref use link counted
  gone ref counted := by
    obtain ⟨-, -, unlinked⟩ := tally_spared calls (spares ref)
    rw [same.counts] at counted
    rw [unlinked, same.removals]
    exact tallied.gone ref counted

theorem Tallied.recount {ref : InodeRef} {entry : Option (Int × Int)} {removed : Nat}
    (tallied : Tallied calls fs) (recounts : Recounts ref entry removed fs after)
    (spares : ∀ r, r ≠ ref → call.Spares r) (known : ref < after.nextRef)
    (used : ∀ use link, entry = some (use, link) →
      use = acquisitions ref (call :: calls) - relinquishments ref (call :: calls) ∧
        link = 1 - unlinks ref (call :: calls) ∧ fs.removals ref + removed = 0)
    (gone : entry = none →
      fs.removals ref + removed = if 0 < unlinks ref (call :: calls) then 1 else 0) :
    Tallied (call :: calls) after where
  fresh r new := by
    have different : r ≠ ref := by
      rintro rfl
      exact absurd known (Nat.not_lt.mpr new)
    obtain ⟨acquired, relinquished, unlinked⟩ := tally_spared calls (spares r different)
    rw [acquired, relinquished, unlinked]
    exact tallied.fresh r (Nat.le_trans recounts.nextRef new)
  used r use link counted := by
    by_cases same : r = ref
    · subst same
      rw [recounts.deleted]
      exact used use link (recounts.self.symm.trans counted)
    · obtain ⟨acquired, relinquished, unlinked⟩ := tally_spared calls (spares r same)
      rw [recounts.counts r same] at counted
      rw [acquired, relinquished, unlinked, recounts.removals r same]
      exact tallied.used r use link counted
  gone r counted := by
    by_cases same : r = ref
    · subst same
      rw [recounts.deleted]
      exact gone (recounts.self.symm.trans counted)
    · obtain ⟨-, -, unlinked⟩ := tally_spared calls (spares r same)
      rw [recounts.counts r same] at counted
      rw [unlinked, recounts.removals r same]
      exact tallied.gone r counted

theorem SerenaFS.Table.lt_nextRef (table : fs.Table) {ref : InodeRef} {entry : Int × Int}
    (counted : fs.counts ref = some entry) : ref < fs.nextRef := by
  obtain ⟨value, core, -, -⟩ := counts_eq_some counted
  by_contra new
  have unstored := table.fresh ref (Nat.not_lt.mp new)
  rw [core.stored] at unstored
  simp at unstored

theorem Tallied.step (tallied : Tallied calls fs) (table : fs.Table)
    (effect : CallEffect fs call after) : Tallied (call :: calls) after := by
  cases effect with
  | neutral same acquired relinquished unlinked =>
    refine tallied.neutral same fun ref => ?_
    simp [Call.Spares, acquired, relinquished, unlinked]
  | entered acquired relinquished unlinked recounts next =>
    have spares : ∀ r, r ≠ fs.nextRef → call.Spares r := by
      intro r different
      simp [Call.Spares, acquired, relinquished, unlinked, different.symm]
    obtain ⟨a, r, u⟩ := tally_cons call calls fs.nextRef
    simp only [acquired, relinquished, unlinked, if_true, reduceCtorEq, if_false] at a r u
    obtain ⟨noneA, noneR, noneU⟩ := tallied.fresh fs.nextRef (Nat.le_refl _)
    have removals := tallied.gone fs.nextRef (table.counts_none.mpr table.nextRef_notMem)
    rw [noneU, if_neg (Nat.lt_irrefl 0)] at removals
    refine tallied.recount recounts spares next ?_ (by simp)
    intro use link entry
    simp only [Option.some.injEq, Prod.mk.injEq] at entry
    exact ⟨by omega, by omega, by omega⟩
  | @reacquired ref use link acquired relinquished unlinked before recounts =>
    have spares : ∀ r, r ≠ ref → call.Spares r := by
      intro r different
      simp [Call.Spares, acquired, relinquished, unlinked, different.symm]
    obtain ⟨a, r, u⟩ := tally_cons call calls ref
    simp only [acquired, relinquished, unlinked, if_true, reduceCtorEq, if_false] at a r u
    obtain ⟨useEq, linkEq, removals⟩ := tallied.used ref use link before
    refine tallied.recount recounts spares
      (Nat.lt_of_lt_of_le (table.lt_nextRef before) recounts.nextRef) ?_ (by simp)
    intro use' link' entry
    simp only [Option.some.injEq, Prod.mk.injEq] at entry
    exact ⟨by omega, by omega, by omega⟩
  | @gaveUp ref use link acquired relinquished unlinked before last linked recounts =>
    have spares : ∀ r, r ≠ ref → call.Spares r := by
      intro r different
      simp [Call.Spares, acquired, relinquished, unlinked, different.symm]
    obtain ⟨a, r, u⟩ := tally_cons call calls ref
    simp only [acquired, relinquished, unlinked, if_true, reduceCtorEq, if_false] at a r u
    obtain ⟨useEq, linkEq, removals⟩ := tallied.used ref use link before
    refine tallied.recount recounts spares
      (Nat.lt_of_lt_of_le (table.lt_nextRef before) recounts.nextRef) ?_ ?_
    · intro use' link' entry
      split_ifs at entry with only
      simp only [Option.some.injEq, Prod.mk.injEq] at entry
      rw [if_neg fun zero => only (last zero)]
      exact ⟨by omega, by omega, by omega⟩
    · intro _
      rw [u, removals]
      rcases linked with zero | one
      · rw [if_pos zero, if_pos (by omega)]
      · rw [if_neg (by omega), if_neg (by omega)]
  | @unlinked ref use link acquired relinquished unlinked before recounts =>
    have spares : ∀ r, r ≠ ref → call.Spares r := by
      intro r different
      simp [Call.Spares, acquired, relinquished, unlinked, different.symm]
    obtain ⟨a, r, u⟩ := tally_cons call calls ref
    simp only [acquired, relinquished, unlinked, if_true, reduceCtorEq, if_false] at a r u
    obtain ⟨useEq, linkEq, removals⟩ := tallied.used ref use link before
    refine tallied.recount recounts spares
      (Nat.lt_of_lt_of_le (table.lt_nextRef before) recounts.nextRef) ?_ (by simp)
    intro use' link' entry
    simp only [Option.some.injEq, Prod.mk.injEq] at entry
    exact ⟨by omega, by omega, by omega⟩

end Tally

/-! ## Runs from a new volume -/

/-- What the table of inodes in use looks like after the calls of a run. -/
structure InodeIdentity (calls : List Call) (fs : SerenaFS) : Prop where
  nodup : fs.inodesInUse.Nodup
  distinct : ∀ ref ref' value value', fs.Core ref value → fs.Core ref' value' →
    value.inid = value'.inid → ref = ref'
  counted : ∀ ref value, fs.Core ref value →
    value.useCount = acquisitions ref calls - relinquishments ref calls ∧ 0 < value.useCount
  /-- An unlinked node is deleted when its last user gave it up, and then once. -/
  deleted : ∀ ref, 0 < unlinks ref calls →
    fs.removals ref = if ref ∈ fs.inodesInUse then 0 else 1
  /-- Nothing else is deleted. -/
  kept : ∀ ref, unlinks ref calls = 0 → fs.removals ref = 0

theorem Tallied.inodeIdentity {fs : SerenaFS} {calls : List Call} {strict : Prop}
    (tallied : Tallied calls fs) (consistent : fs.Consistent strict none []) :
    InodeIdentity calls fs where
  nodup := consistent.table.nodup
  distinct := consistent.table.unique
  counted ref value core :=
    ⟨(tallied.used ref _ _ core.counts).1, consistent.table.counted ref value core⟩
  deleted ref unlinked := by
    by_cases inUse : ref ∈ fs.inodesInUse
    · obtain ⟨value, stored⟩ := consistent.table.known ref inUse
      have core : fs.Core ref value := ⟨inUse, stored⟩
      rw [if_pos inUse]
      exact (tallied.used ref _ _ core.counts).2.2
    · rw [if_neg inUse, tallied.gone ref (consistent.table.counts_none.mpr inUse), if_pos unlinked]
  kept ref linked := by
    by_cases inUse : ref ∈ fs.inodesInUse
    · obtain ⟨value, stored⟩ := consistent.table.known ref inUse
      have core : fs.Core ref value := ⟨inUse, stored⟩
      exact (tallied.used ref _ _ core.counts).2.2
    · rw [tallied.gone ref (consistent.table.counts_none.mpr inUse), linked,
        if_neg (Nat.lt_irrefl 0)]

theorem Fresh.tallied {user : User} {permissions : FilePermissions} {blockCount : Nat} {fs : SerenaFS}
    (fresh : Fresh user permissions blockCount fs) : Tallied [] fs where
  fresh _ _ := ⟨rfl, rfl, rfl⟩
  used ref use link counted := by
    obtain ⟨value, core, -, -⟩ := counts_eq_some counted
    exact (fresh.not_core core).elim
  gone ref _ := by
    unfold SerenaFS.removals
    rw [fresh.unlogged]
    rfl

end Apollo.Serenafs
