import Apollo.Serenafs.ReadAfterWrite
import Apollo.Serenafs.Timestamps

/-!
# Setting the file info

`Inode_SetFileInfo` stores a time-stamp and sets the flag that says that the time-stamp
is to be replaced by the current time.  So the time that was set is neither what
`Inode_GetFileInfo` returns nor what is written back.
-/

set_option autoImplicit false

namespace Apollo.Serenafs

open Lib

def getFileInfo (ref : InodeRef) (fsid : Nat) : FS FileInfo := do
  let value ← node ref
  let fs ← Code.get
  pure (value.getFileInfo fsid fs.clock)

def setFileInfo (ref : InodeRef) (user : User) (info : MutableFileInfo) : FS Unit := do
  let fs ← Code.get
  if fs.isReadOnly then Code.throw .EROFS
  else
    let value ← node ref
    match value.setFileInfo user info with
    | .error reason => Code.throw reason
    | .ok changed => updateNode ref fun _ => changed

/-- The record that `SerenaFS_getFileInfo` returns when the clock shows `now`. -/
def SerenaFS.infoAt (fs : SerenaFS) (ref : InodeRef) (fsid : Nat) (now : TimeInterval) : Option FileInfo :=
  (getFileInfo ref fsid (fs.withClock now)).value?

def MaySet (value : Inode) (user : User) : Prop := user.uid = value.uid ∨ user.uid = kRootUserId

/-- The record shows what was set, and otherwise what it showed before; the time of the status change aside. -/
structure Sticks (old now : FileInfo) (info : MutableFileInfo) : Prop where
  accessTime : now.accessTime = if info.selects kModifyFileInfoAccessTime then info.accessTime else old.accessTime
  modificationTime : now.modificationTime = if info.selects kModifyFileInfoModificationTime then info.modificationTime else old.modificationTime
  uid : now.uid = if info.selects kModifyFileInfoUserId then info.uid else old.uid
  gid : now.gid = if info.selects kModifyFileInfoGroupId then info.gid else old.gid
  permissions : now.permissions = if info.selects kModifyFileInfoPermissions then info.masked old.permissions else old.permissions
  size : now.size = old.size
  type : now.type = old.type
  linkCount : now.linkCount = old.linkCount
  filesystemId : now.filesystemId = old.filesystemId
  inodeId : now.inodeId = old.inodeId

/-- The two records agree in the fields that can be set. -/
structure Untouched (old now : FileInfo) : Prop where
  accessTime : now.accessTime = old.accessTime
  modificationTime : now.modificationTime = old.modificationTime
  uid : now.uid = old.uid
  gid : now.gid = old.gid
  permissions : now.permissions = old.permissions

structure SetAndReopened (fs : SerenaFS) (ref : InodeRef) (value : Inode) (user : User) (info : MutableFileInfo) (closing : TimeInterval)
    (set closed : SerenaFS) (ref' : InodeRef) (again : SerenaFS) : Prop where
  lastUser : value.useCount = 1
  linked : value.linkCount ≠ 0
  sets : setFileInfo ref user info fs = .ok () set
  closes : relinquishNode ref (set.withClock closing) = .ok () closed
  reopens : acquireNodeWithId value.inid closed = .ok ref' again

/-- A clock that shows `now` does not betray that the time-stamps with a flag are not the ones in the inode: the time that was set
is the current one, and a time-stamp with a flag shows what it did before. -/
structure Unnoticed (value : Inode) (info : MutableFileInfo) (before now : TimeInterval) : Prop where
  access : if info.selects kModifyFileInfoAccessTime then now = info.accessTime else value.accessed = true → now = before
  modification : if info.selects kModifyFileInfoModificationTime then now = info.modificationTime else value.updated = true → now = before

def Guarded (value : Inode) (info : MutableFileInfo) : Prop :=
  info.modify &&& (kModifyFileInfoUserId ||| kModifyFileInfoGroupId) ≠ 0 ∨
    (info.selects kModifyFileInfoAccessTime = true → value.accessed = true) ∧
      (info.selects kModifyFileInfoModificationTime = true → value.updated = true) ∧
        (info.selects kModifyFileInfoPermissions = true → info.masked value.permissions = value.permissions)

/-! ## The record in core -/

section Core
variable {fs set : SerenaFS} {ref : InodeRef} {value : Inode} {user : User} {info : MutableFileInfo} {fsid : Nat} {before now : TimeInterval}

theorem infoAt_stored (stored : fs.inode ref = some value) : fs.infoAt ref fsid now = some (value.getFileInfo fsid now) := by
  have stored' : (fs.withClock now).inode ref = some value := stored
  unfold SerenaFS.infoAt getFileInfo
  rw [Code.bind_of_ok (node_stored stored'), Code.bind_of_ok (Code.get_apply _)]
  rfl

theorem setFileInfo_stored (writable : fs.isReadOnly = false) (stored : fs.inode ref = some value) :
    setFileInfo ref user info fs =
      match value.setFileInfo user info with
      | .error reason => .err reason fs
      | .ok changed => .ok () (fs.setNode ref (some changed)) := by
  unfold setFileInfo
  rw [Code.bind_of_ok (Code.get_apply _), writable, if_neg Bool.false_ne_true, Code.bind_of_ok (node_stored stored)]
  cases value.setFileInfo user info with
  | error reason => rfl
  | ok changed => exact updateNode_stored stored _

theorem setNode_stored (fs : SerenaFS) (ref : InodeRef) (value : Inode) : (fs.setNode ref (some value)).inode ref = some value :=
  Function.update_self _ _ _

theorem setFileInfo_returned (stored : fs.inode ref = some value) (returned : setFileInfo ref user info fs = .ok () set) :
    set = fs.setNode ref (some (value.withFileInfo info)) := by
  cases writable : fs.isReadOnly with
  | true =>
    unfold setFileInfo at returned
    rw [Code.bind_of_ok (Code.get_apply _), writable, if_pos rfl] at returned
    cases returned
  | false =>
    rw [setFileInfo_stored writable stored] at returned
    unfold Inode.setFileInfo at returned
    split_ifs at returned
    cases returned
    rfl

theorem sticks_getFileInfo_iff (fsid : Nat) :
    Sticks (value.getFileInfo fsid before) ((value.withFileInfo info).getFileInfo fsid now) info ↔ Unnoticed value info before now := by
  have access : ((if (value.accessed || info.selects kModifyFileInfoAccessTime) = true then now
        else if info.selects kModifyFileInfoAccessTime = true then info.accessTime else value.accessTime) =
      if info.selects kModifyFileInfoAccessTime = true then info.accessTime else if value.accessed = true then before else value.accessTime) ↔
        if info.selects kModifyFileInfoAccessTime = true then now = info.accessTime else value.accessed = true → now = before := by
    cases info.selects kModifyFileInfoAccessTime <;> cases value.accessed <;> simp
  have modification : ((if (value.updated || info.selects kModifyFileInfoModificationTime) = true then now
        else if info.selects kModifyFileInfoModificationTime = true then info.modificationTime else value.modificationTime) =
      if info.selects kModifyFileInfoModificationTime = true then info.modificationTime else if value.updated = true then before else value.modificationTime) ↔
        if info.selects kModifyFileInfoModificationTime = true then now = info.modificationTime else value.updated = true → now = before := by
    cases info.selects kModifyFileInfoModificationTime <;> cases value.updated <;> simp
  constructor
  · intro sticks
    exact ⟨access.mp sticks.accessTime, modification.mp sticks.modificationTime⟩
  · intro unnoticed
    exact ⟨access.mpr unnoticed.access, modification.mpr unnoticed.modification, rfl, rfl, rfl, rfl, rfl, rfl, rfl, rfl⟩

end Core

/-! ## The record after the node was read back -/

section Reopened
variable {fs set closed again : SerenaFS} {ref ref' : InodeRef} {value : Inode} {user : User} {info : MutableFileInfo} {fsid : Nat}
  {closing now : TimeInterval} {strict : Prop}

/-- The numbers of the inode and of the request fit the fields they are stored in. -/
structure InfoFits (value : Inode) (info : MutableFileInfo) : Prop where
  size : toInt64 (toUInt64 value.size) = value.size
  times : ∀ stamp, (value.time stamp).Storable
  accessTime : info.accessTime.Storable
  modificationTime : info.modificationTime.Storable

theorem InfoFits.shown (fits : InfoFits value info) (closing_ : closing.Storable) (stamp : Stamp) :
    ((value.withFileInfo info).shown closing stamp).Storable := by
  have time : ((value.withFileInfo info).time stamp).Storable := by
    cases stamp with
    | access =>
      change (if info.selects kModifyFileInfoAccessTime = true then info.accessTime else value.accessTime).Storable
      split_ifs
      · exact fits.accessTime
      · exact fits.times .access
    | modification =>
      change (if info.selects kModifyFileInfoModificationTime = true then info.modificationTime else value.modificationTime).Storable
      split_ifs
      · exact fits.modificationTime
      · exact fits.times .modification
    | statusChange => exact fits.times .statusChange
  unfold Inode.shown
  split_ifs
  · exact closing_
  · exact time

theorem SerenaFS.Consistent.withFileInfo (info : MutableFileInfo) (consistent : fs.Consistent strict none []) (core : fs.Core ref value) :
    (fs.setNode ref (some (value.withFileInfo info))).Consistent strict none [] := by
  refine consistent.setNode core rfl rfl (consistent.table.counted ref value core) (consistent.table.linked ref value core)
    (fun _ _ _ => by simp) ?_
  intro _ unmodified
  simp [Inode.isModified, Inode.withFileInfo] at unmodified

/-- What is read back is what was written when the node was given up. -/
theorem SetAndReopened.reads (consistent : fs.Consistent strict none []) (core : fs.Core ref value)
    (reopened : SetAndReopened fs ref value user info closing set closed ref' again) :
    value.linkCount = 1 ∧ again.inode ref' =
      some (reacquired (inodeOfDisk value.inid (decodeInode (encodeInode (diskOfInode (value.withFileInfo info) closing))))) := by
  obtain ⟨lastUser, linked, sets, closes, reopens⟩ := reopened
  obtain rfl := setFileInfo_returned core.stored sets
  have changed := (consistent.withFileInfo info core).withClock closing
  have core' : ((fs.setNode ref (some (value.withFileInfo info))).withClock closing).Core ref (value.withFileInfo info) :=
    ⟨core.inUse, Function.update_self _ _ _⟩
  rcases relinquishNode_linked changed core' linked with fault | ⟨one, returned⟩
  · rw [fault] at closes
    cases closes
  have spec := relinquishNode_spec changed core' (fun unlinked => absurd unlinked linked) fun _ unlinked => absurd unlinked linked
  rw [closes] at spec
  rw [returned, if_pos (show (value.withFileInfo info).useCount = 1 from lastUser)] at closes
  obtain ⟨settled, settledCore, -⟩ := changed.settled core'
  have modified : (value.withFileInfo info).isModified = true := by simp [Inode.isModified, Inode.withFileInfo]
  have written : ((((fs.setNode ref (some (value.withFileInfo info))).withClock closing).settled (value.withFileInfo info)).evict ref).disk.block value.inid =
      encodeInode (diskOfInode (value.withFileInfo info) closing) := by
    unfold SerenaFS.settled
    rw [if_pos modified]
    exact Function.update_self _ _ _
  have state := (Outcome.ok.inj closes).2
  have has : closed.hasNode value.inid = true := by
    rw [← state]
    unfold SerenaFS.settled
    rw [if_pos modified]
    exact consistent.table.alive ref value core
  have absent : closed.Absent value.inid := by
    rw [← state]
    intro r found held same
    obtain ⟨held, different⟩ := (core_evict settled.table r found).mp held
    exact different (settled.table.unique _ _ _ _ held settledCore same)
  rw [state] at written
  rcases acquireNodeWithId_cases spec has with ⟨after, failed, -⟩ | ⟨found, after, acquired, how⟩
  · rw [failed] at reopens
    cases reopens
  rw [acquired] at reopens
  cases reopens
  refine ⟨one, ?_⟩
  cases how with
  | held held inid => exact absurd inid (absent _ _ held)
  | read heap _ =>
    rw [← written]
    exact Function.update_self _ _ _

/-- The record of a node that was read back is the one that was shown when it was written, whatever the time is now. -/
theorem getFileInfo_reread (fsid : Nat) (now : TimeInterval) (fits : InfoFits value info) (storable : closing.Storable) (link : value.linkCount = 1) :
    (reacquired (inodeOfDisk value.inid (decodeInode (encodeInode (diskOfInode (value.withFileInfo info) closing))))).getFileInfo fsid now =
      (value.withFileInfo info).getFileInfo fsid closing := by
  have view := view_decodeInode_encodeInode (diskOfInode (value.withFileInfo info) closing)
  have time (stamp : Stamp) : (decodeInode (encodeInode (diskOfInode (value.withFileInfo info) closing))).time stamp =
      (value.withFileInfo info).shown closing stamp := by
    rw [decodeInode_encodeInode_time, time_diskOfInode]
    rw [time_diskOfInode]
    exact fits.shown storable stamp
  generalize decodeInode (encodeInode (diskOfInode (value.withFileInfo info) closing)) = stored at view time
  have size : stored.size = value.size := (congrArg NodeView.size view).trans fits.size
  have links : stored.linkCount = value.linkCount := (congrArg NodeView.linkCount view).trans (by
    change toInt32 (toUInt32 value.linkCount) = value.linkCount
    rw [link]
    decide)
  have uid : stored.uid = (value.withFileInfo info).uid := congrArg NodeView.uid view
  have gid : stored.gid = (value.withFileInfo info).gid := congrArg NodeView.gid view
  have permissions : stored.permissions = (value.withFileInfo info).permissions := congrArg NodeView.permissions view
  have type : stored.type = value.type := congrArg NodeView.type view
  rw [FileInfo.mk.injEq]
  exact ⟨time .access, time .modification, time .statusChange, size, uid, gid, permissions, type, links, rfl, rfl⟩

end Reopened

/-! ## Users who may not set the info -/

section Others
variable {value : Inode} {user : User} {info : MutableFileInfo} {fsid : Nat}

theorem exists_other_time (time : TimeInterval) : ∃ now : TimeInterval, now ≠ time := by
  refine ⟨⟨time.tvSec + 1, 0⟩, fun same => ?_⟩
  have sec := congrArg TimeInterval.tvSec same
  dsimp only at sec
  omega

theorem unselected_of_unchecked (unchecked : info.modify &&& (kModifyFileInfoUserId ||| kModifyFileInfoGroupId) = 0) :
    info.selects kModifyFileInfoUserId = false ∧ info.selects kModifyFileInfoGroupId = false := by
  have clear (bit : UInt32) (member : (kModifyFileInfoUserId ||| kModifyFileInfoGroupId) &&& bit = bit) (nonzero : bit ≠ 0) :
      info.selects bit = false := by
    have both := congrArg (· &&& bit) unchecked
    rw [UInt32.and_assoc, member, UInt32.zero_and] at both
    unfold MutableFileInfo.selects
    rw [both, beq_eq_false_iff_ne]
    exact nonzero.symm
  exact ⟨clear _ (by decide) (by decide), clear _ (by decide) (by decide)⟩

theorem untouched_withFileInfo_iff (value : Inode) (fsid : Nat) (unchecked : info.modify &&& (kModifyFileInfoUserId ||| kModifyFileInfoGroupId) = 0) :
    (∀ now, Untouched (value.getFileInfo fsid now) ((value.withFileInfo info).getFileInfo fsid now)) ↔
      (info.selects kModifyFileInfoAccessTime = true → value.accessed = true) ∧
        (info.selects kModifyFileInfoModificationTime = true → value.updated = true) ∧
          (info.selects kModifyFileInfoPermissions = true → info.masked value.permissions = value.permissions) := by
  obtain ⟨owner, group⟩ := unselected_of_unchecked unchecked
  constructor
  · intro untouched
    refine ⟨fun selected => ?_, fun selected => ?_, fun selected => ?_⟩
    · by_contra clear
      obtain ⟨now, other⟩ := exists_other_time value.accessTime
      have same := (untouched now).accessTime
      change (if (value.accessed || info.selects kModifyFileInfoAccessTime) = true then now else _) = if value.accessed = true then now else value.accessTime at same
      rw [selected, Bool.or_true, if_pos rfl, if_neg clear] at same
      exact other same
    · by_contra clear
      obtain ⟨now, other⟩ := exists_other_time value.modificationTime
      have same := (untouched now).modificationTime
      change (if (value.updated || info.selects kModifyFileInfoModificationTime) = true then now else _) = if value.updated = true then now else value.modificationTime at same
      rw [selected, Bool.or_true, if_pos rfl, if_neg clear] at same
      exact other same
    · have same := (untouched value.accessTime).permissions
      change (if info.selects kModifyFileInfoPermissions = true then info.masked value.permissions else value.permissions) = value.permissions at same
      rwa [if_pos selected] at same
  · rintro ⟨access, modification, permissions⟩ now
    refine ⟨?_, ?_, ?_, ?_, ?_⟩
    · change (if (value.accessed || info.selects kModifyFileInfoAccessTime) = true then now else if info.selects kModifyFileInfoAccessTime = true then _ else _) =
        if value.accessed = true then now else value.accessTime
      cases selected : info.selects kModifyFileInfoAccessTime with
      | true => rw [access selected]; rfl
      | false => rw [Bool.or_false]; rfl
    · change (if (value.updated || info.selects kModifyFileInfoModificationTime) = true then now else if info.selects kModifyFileInfoModificationTime = true then _ else _) =
        if value.updated = true then now else value.modificationTime
      cases selected : info.selects kModifyFileInfoModificationTime with
      | true => rw [modification selected]; rfl
      | false => rw [Bool.or_false]; rfl
    · change (if info.selects kModifyFileInfoUserId = true then info.uid else value.uid) = value.uid
      rw [owner]
      rfl
    · change (if info.selects kModifyFileInfoGroupId = true then info.gid else value.gid) = value.gid
      rw [group]
      rfl
    · change (if info.selects kModifyFileInfoPermissions = true then info.masked value.permissions else value.permissions) = value.permissions
      split_ifs with selected
      · exact permissions selected
      · rfl

end Others

/-- The info that was set is what the record shows, at once and after the node was read back, exactly when the clock cannot be told
from the times that were to be kept.  A user who may not set the info leaves it alone exactly when the volume is read-only, when the
owner or the group is among what is to be set, or when nothing that the record shows would change. -/
theorem setFileInfo_sticks_iff {fs : SerenaFS} {strict : Prop} {ref : InodeRef} {value : Inode} {user : User} {info : MutableFileInfo}
    (fsid : Nat) (consistent : fs.Consistent strict none []) (core : fs.Core ref value) (fits : InfoFits value info) :
    (∀ (now closing later : TimeInterval) {set closed again : SerenaFS} {ref' : InodeRef}, closing.Storable →
      SetAndReopened fs ref value user info closing set closed ref' again →
        ((∃ old shown reread, fs.infoAt ref fsid fs.clock = some old ∧ set.infoAt ref fsid now = some shown ∧
            again.infoAt ref' fsid later = some reread ∧ Sticks old shown info ∧ Sticks old reread info) ↔
          Unnoticed value info fs.clock now ∧ Unnoticed value info fs.clock closing)) ∧
    (∀ {result : Except Errno Unit} {after : SerenaFS}, ¬MaySet value user → (setFileInfo ref user info fs).returned? = some (result, after) →
      ((∀ now, ∃ old shown, fs.infoAt ref fsid now = some old ∧ after.infoAt ref fsid now = some shown ∧ Untouched old shown) ↔
        fs.isReadOnly = true ∨ Guarded value info)) := by
  constructor
  · intro now closing later set closed again ref' storable reopened
    obtain ⟨link, reread⟩ := reopened.reads consistent core
    have sets := setFileInfo_returned core.stored reopened.sets
    have stored : set.inode ref = some (value.withFileInfo info) := by
      rw [sets]
      exact setNode_stored _ _ _
    rw [infoAt_stored core.stored, infoAt_stored stored, infoAt_stored reread, getFileInfo_reread fsid later fits storable link,
      ← sticks_getFileInfo_iff fsid, ← sticks_getFileInfo_iff fsid]
    constructor
    · rintro ⟨old, shown, again, same, same', same'', sticks, sticks'⟩
      cases same
      cases same'
      cases same''
      exact ⟨sticks, sticks'⟩
    · rintro ⟨sticks, sticks'⟩
      exact ⟨_, _, _, rfl, rfl, rfl, sticks, sticks'⟩
  · intro result after other returned
    have untouched (unchanged : after = fs) : ∀ now, ∃ old shown, fs.infoAt ref fsid now = some old ∧ after.infoAt ref fsid now = some shown ∧
        Untouched old shown := by
      intro now
      rw [unchanged, infoAt_stored core.stored]
      exact ⟨_, _, rfl, rfl, ⟨rfl, rfl, rfl, rfl, rfl⟩⟩
    cases writable : fs.isReadOnly with
    | true =>
      have refused : setFileInfo ref user info fs = .err .EROFS fs := by
        unfold setFileInfo
        rw [Code.bind_of_ok (Code.get_apply _), writable, if_pos rfl]
        rfl
      rw [refused] at returned
      cases returned
      exact iff_of_true (untouched rfl) (Or.inl rfl)
    | false =>
      rw [setFileInfo_stored writable core.stored] at returned
      unfold Inode.setFileInfo at returned
      by_cases checked : info.modify &&& (kModifyFileInfoUserId ||| kModifyFileInfoGroupId) = 0
      · rw [if_neg fun refused => refused.1 checked] at returned
        cases returned
        have stored := setNode_stored fs ref (value.withFileInfo info)
        have kept := untouched_withFileInfo_iff value fsid checked
        unfold Guarded
        simp only [infoAt_stored core.stored, infoAt_stored stored, Bool.false_eq_true, false_or, checked, ne_eq, not_true_eq_false, ← kept]
        constructor
        · intro each now
          obtain ⟨old, shown, same, same', untouched⟩ := each now
          cases same
          cases same'
          exact untouched
        · exact fun each now => ⟨_, _, rfl, rfl, each now⟩
      · rw [if_pos ⟨checked, fun owner => other (Or.inl owner), fun root => other (Or.inr root)⟩] at returned
        cases returned
        exact iff_of_true (untouched rfl) (Or.inr (Or.inl checked))

/-! ## A new file -/

def setsNewFile (info : MutableFileInfo) : Bool :=
  (performAll (fun fs operation => operation.orderly fs) openedFile [] (emptyVolume 64)).any fun reached =>
    (reached.2.inode 1).any fun value => (setFileInfo 1 ⟨0, 0⟩ info reached.2).state?.any fun set =>
      (relinquishNode 1 (set.withClock ⟨0, 0⟩)).state?.any fun closed =>
        decide (1 ∈ reached.2.inodesInUse ∧ reached.2.clock = ⟨0, 0⟩ ∧ reached.2.isReadOnly = false) &&
          decide (value.size = 0 ∧ value.useCount = 1 ∧ value.linkCount = 1 ∧ value.inid = 4 ∧ value.uid = 0 ∧ value.permissions = 0x1a4) &&
          decide ((∀ stamp ∈ [Stamp.access, .modification, .statusChange], value.time stamp = ⟨0, 0⟩) ∧ value.accessed = true ∧ value.updated = true) &&
          decide ((setFileInfo 1 ⟨0, 0⟩ info reached.2).value? = some () ∧ (relinquishNode 1 (set.withClock ⟨0, 0⟩)).value? = some () ∧
            (acquireNodeWithId 4 closed).value? = some 2)

structure NewFileSet (info : MutableFileInfo) (fs : SerenaFS) (value : Inode) (set closed again : SerenaFS) : Prop where
  consistent : fs.Consistent False none []
  core : fs.Core 1 value
  fits : InfoFits value info
  uid : value.uid = 0
  permissions : value.permissions = 0x1a4
  flags : value.accessed = true ∧ value.updated = true
  clock : fs.clock = ⟨0, 0⟩
  writable : fs.isReadOnly = false
  reopened : SetAndReopened fs 1 value ⟨0, 0⟩ info ⟨0, 0⟩ set closed 2 again

theorem newFileSet (info : MutableFileInfo) (accessTime : info.accessTime.Storable) (modificationTime : info.modificationTime.Storable)
    (sets : setsNewFile info = true) : ∃ fs value set closed again, NewFileSet info fs value set closed again := by
  obtain ⟨⟨calls, fs⟩, performed, sets⟩ := (Option.any_eq_true _ _).mp sets
  obtain ⟨value, stored, sets⟩ := (Option.any_eq_true _ _).mp sets
  obtain ⟨set, setState, sets⟩ := (Option.any_eq_true _ _).mp sets
  obtain ⟨closed, closedState, state⟩ := (Option.any_eq_true _ _).mp sets
  simp only [Bool.and_eq_true, decide_eq_true_eq] at state
  obtain ⟨⟨⟨⟨inUse, clock, writable⟩, size, used, links, inid, uid, permissions⟩, times, accessed, updated⟩, setReturns, closeReturns, acquireReturns⟩ := state
  have consistent := runs_consistent rfl (by decide) emptyVolume_mounts (runs_performAll .nil performed)
  have sets := Outcome.eq_ok setReturns fs
  have closes := Outcome.eq_ok closeReturns fs
  have reopens := Outcome.eq_ok acquireReturns closed
  rw [setState, Option.getD_some] at sets
  rw [closedState, Option.getD_some] at closes
  rw [← inid] at reopens
  refine ⟨fs, value, set, closed, _, consistent, ⟨inUse, stored⟩, ⟨?_, ?_, accessTime, modificationTime⟩, uid, permissions, ⟨accessed, updated⟩,
    clock, writable, ⟨used, ?_, sets, closes, reopens⟩⟩
  · rw [size]
    decide
  · intro stamp
    rw [times stamp (by cases stamp <;> decide)]
    decide
  · rw [links]
    decide

def ownerOnly : MutableFileInfo := ⟨kModifyFileInfoPermissions, ⟨0, 0⟩, ⟨0, 0⟩, 0, 0, 0, 0x3f⟩

def modifiedLater : MutableFileInfo := ⟨kModifyFileInfoModificationTime, ⟨0, 0⟩, ⟨5, 0⟩, 0, 0, 0, 0⟩

theorem setsNewFile_returns : setsNewFile ownerOnly = true ∧ setsNewFile modifiedLater = true := by
  decide +kernel

/-- The owner closes the file to others, and nobody else can take it over. -/
theorem ownerOnly_sticks :
    (∃ fs value set closed again old shown reread, SetAndReopened fs 1 value ⟨0, 0⟩ ownerOnly ⟨0, 0⟩ set closed 2 again ∧
      fs.infoAt 1 0 fs.clock = some old ∧ set.infoAt 1 0 ⟨0, 0⟩ = some shown ∧ again.infoAt 2 0 ⟨9, 0⟩ = some reread ∧
        Sticks old shown ownerOnly ∧ Sticks old reread ownerOnly) ∧
    ∃ fs after result, (setFileInfo 1 ⟨1000, 1000⟩ { ownerOnly with modify := kModifyFileInfoUserId } fs).returned? = some (result, after) ∧
      ∀ now, ∃ old shown, fs.infoAt 1 0 now = some old ∧ after.infoAt 1 0 now = some shown ∧ Untouched old shown := by
  have storable : (⟨0, 0⟩ : TimeInterval).Storable := by decide
  obtain ⟨fs, value, set, closed, again, new⟩ := newFileSet ownerOnly storable storable setsNewFile_returns.1
  constructor
  · have unnoticed : Unnoticed value ownerOnly fs.clock ⟨0, 0⟩ := by
      rw [new.clock]
      exact ⟨fun _ => rfl, fun _ => rfl⟩
    obtain ⟨old, shown, reread, records⟩ := ((setFileInfo_sticks_iff 0 new.consistent new.core new.fits).1 ⟨0, 0⟩ ⟨0, 0⟩ ⟨9, 0⟩ storable new.reopened).mpr
      ⟨unnoticed, unnoticed⟩
    exact ⟨fs, value, set, closed, again, old, shown, reread, new.reopened, records⟩
  · have refused : setFileInfo 1 ⟨1000, 1000⟩ { ownerOnly with modify := kModifyFileInfoUserId } fs = .err .EPERM fs := by
      rw [setFileInfo_stored new.writable new.core.stored]
      unfold Inode.setFileInfo
      rw [new.uid]
      rfl
    have returned : (setFileInfo 1 ⟨1000, 1000⟩ { ownerOnly with modify := kModifyFileInfoUserId } fs).returned? = some (.error .EPERM, fs) := by
      rw [refused]
      rfl
    have other : ¬MaySet value ⟨1000, 1000⟩ := by
      unfold MaySet
      rw [new.uid]
      decide
    have fits : InfoFits value { ownerOnly with modify := kModifyFileInfoUserId } := ⟨new.fits.size, new.fits.times, storable, storable⟩
    exact ⟨fs, fs, _, returned, ((setFileInfo_sticks_iff 0 new.consistent new.core fits).2 other returned).mpr (Or.inr (Or.inl (by decide)))⟩

/-- The record of the file that was modified later shows the current time; and another user closes the file to its owner. -/
theorem modifiedLater_not_sticks :
    (∃ fs value set closed again old shown reread, MaySet value ⟨0, 0⟩ ∧ SetAndReopened fs 1 value ⟨0, 0⟩ modifiedLater ⟨0, 0⟩ set closed 2 again ∧
      fs.infoAt 1 0 fs.clock = some old ∧ set.infoAt 1 0 ⟨0, 0⟩ = some shown ∧ again.infoAt 2 0 ⟨9, 0⟩ = some reread ∧
        shown.modificationTime = ⟨0, 0⟩ ∧ reread.modificationTime = ⟨0, 0⟩ ∧ ¬Sticks old shown modifiedLater ∧ ¬Sticks old reread modifiedLater) ∧
    ∃ fs value after old shown, fs.Core 1 value ∧ ¬MaySet value ⟨1000, 1000⟩ ∧ setFileInfo 1 ⟨1000, 1000⟩ ownerOnly fs = .ok () after ∧
      fs.infoAt 1 0 ⟨0, 0⟩ = some old ∧ after.infoAt 1 0 ⟨0, 0⟩ = some shown ∧ ¬Untouched old shown := by
  have storable : (⟨0, 0⟩ : TimeInterval).Storable := by decide
  constructor
  · obtain ⟨fs, value, set, closed, again, new⟩ := newFileSet modifiedLater storable (by decide) setsNewFile_returns.2
    obtain ⟨link, reread⟩ := new.reopened.reads new.consistent new.core
    have stored : set.inode 1 = some (value.withFileInfo modifiedLater) := by
      rw [setFileInfo_returned new.core.stored new.reopened.sets]
      exact setNode_stored _ _ _
    have noticed : ¬Sticks (value.getFileInfo 0 fs.clock) ((value.withFileInfo modifiedLater).getFileInfo 0 ⟨0, 0⟩) modifiedLater := by
      intro sticks
      have time := ((sticks_getFileInfo_iff 0).mp sticks).modification
      cases time
    have shows : ((value.withFileInfo modifiedLater).getFileInfo 0 ⟨0, 0⟩).modificationTime = ⟨0, 0⟩ := by
      change (if (value.updated || modifiedLater.selects kModifyFileInfoModificationTime) = true then _ else _) = _
      rw [new.flags.2]
      rfl
    refine ⟨fs, value, set, closed, again, _, _, _, Or.inr rfl, new.reopened, infoAt_stored new.core.stored, infoAt_stored stored,
      infoAt_stored reread, shows, ?_, noticed, ?_⟩
    · rw [getFileInfo_reread 0 _ new.fits storable link]
      exact shows
    · rw [getFileInfo_reread 0 _ new.fits storable link]
      exact noticed
  · obtain ⟨fs, value, set, closed, again, new⟩ := newFileSet ownerOnly storable storable setsNewFile_returns.1
    have returned : setFileInfo 1 ⟨1000, 1000⟩ ownerOnly fs = .ok () (fs.setNode 1 (some (value.withFileInfo ownerOnly))) := by
      rw [setFileInfo_stored new.writable new.core.stored]
      rfl
    refine ⟨fs, value, _, _, _, new.core, ?_, returned, infoAt_stored new.core.stored,
      infoAt_stored (setNode_stored fs 1 (value.withFileInfo ownerOnly)), fun untouched => ?_⟩
    · unfold MaySet
      rw [new.uid]
      decide
    · have same := untouched.permissions
      change ownerOnly.masked value.permissions = value.permissions at same
      rw [new.permissions] at same
      exact absurd same (by decide)

end Apollo.Serenafs
