import Apollo.Filesystem.FileInfo
import Apollo.Lib.StampCache
import Apollo.Serenafs.BlockExclusivity

/-!
# Time-stamps of a node

A time-stamp lives in three places: in the inode block on the disk, in the inode
in core and, as a flag that stands for the current time, in the flags of the
inode.  The write-back stores the current time for a set flag and then clears all
flags, but it does not change the time in core.  A node that stays in core shows
its old time again, and the next write-back stores it.
-/

set_option autoImplicit false

namespace Apollo.Serenafs

open Lib

def SFSInode.time (node : SFSInode) : Stamp → TimeInterval
  | .access => node.accessTime
  | .modification => node.modificationTime
  | .statusChange => node.statusChangeTime

def SerenaFS.storedTime (fs : SerenaFS) (id : Nat) (stamp : Stamp) : TimeInterval :=
  (decodeInode (fs.disk.block id)).time stamp

/-- The node is in core and `Inode_GetFileInfo` returns `info`; `fsid` is the id of the
file system. -/
def SerenaFS.HasInfo (fs : SerenaFS) (fsid id : Nat) (info : FileInfo) : Prop :=
  ∃ ref value, fs.Core ref value ∧ value.inid = id ∧ value.getFileInfo fsid fs.clock = info

/-! ## Encoded times -/

section Encoding
variable (block : Block) (node : SFSInode)

theorem decodeTime_storable (start : Nat) : (decodeTime block start).Storable := by
  have sec := block.be32_lt start
  have nsec := block.be32_lt (start + 4)
  refine ⟨?_, ?_⟩
  · change -2147483648 ≤ toInt32 _ ∧ toInt32 _ < 2147483648
    unfold toInt32
    split_ifs <;> omega
  · change -2147483648 ≤ toInt32 _ ∧ toInt32 _ < 2147483648
    unfold toInt32
    split_ifs <;> omega

theorem decodeInode_storable (stamp : Stamp) : ((decodeInode block).time stamp).Storable := by
  cases stamp <;> exact decodeTime_storable block _

/-- The fields behind the time-stamps leave them alone. -/
theorem decodeTime_encodeFields {start : Nat} (early : start ≤ 16) :
    decodeTime (encodeFields block node) start = decodeTime block start := by
  have same (index : Nat) (before : index + 4 ≤ 24) : (encodeFields block node).be32 index = block.be32 index := by
    unfold encodeFields
    rw [Buffer.be32_blit_apart _ (.inl (by omega)), Buffer.be32_blit_apart _ (.inl (by omega)),
      Buffer.be32_blit_apart _ (.inl (by omega)), Buffer.be32_blit_apart _ (.inl (by omega)),
      Buffer.be32_blit_apart _ (.inl (by omega)), Buffer.be32_blit_apart _ (.inl (by omega)),
      Buffer.be32_blit_apart _ (.inl (by omega))]
  unfold decodeTime
  rw [same start (by omega), same (start + 4) (by omega)]

theorem decodeTime_encodeTime_apart {start other : Nat} (time : TimeInterval)
    (apart : start + 8 ≤ other ∨ other + 8 ≤ start) :
    decodeTime (encodeTime block other time) start = decodeTime block start := by
  unfold decodeTime encodeTime
  rw [Buffer.be32_blit_apart _ (by simp; omega), Buffer.be32_blit_apart _ (by simp; omega),
    Buffer.be32_blit_apart _ (by simp; omega), Buffer.be32_blit_apart _ (by simp; omega)]

theorem decodeTime_encodeTime_same {start : Nat} {time : TimeInterval} (fits : start + 8 ≤ 512)
    (storable : time.Storable) : decodeTime (encodeTime block start time) start = time := by
  have sec : toInt32 (toUInt32 time.tvSec) = time.tvSec :=
    toInt32_toUInt32 storable.sec.1 storable.sec.2
  have nsec : toInt32 (toUInt32 time.tvNsec) = time.tvNsec :=
    toInt32_toUInt32 storable.nsec.1 storable.nsec.2
  unfold decodeTime encodeTime
  rw [Buffer.be32_blit_apart _ (by simp), Buffer.be32_blit_same _ (by omega), Buffer.be32_blit_same _ (by omega),
    Nat.mod_eq_of_lt (toUInt32_lt _), Nat.mod_eq_of_lt (toUInt32_lt _), sec, nsec]

theorem decodeInode_encodeInode_time {stamp : Stamp} (storable : (node.time stamp).Storable) :
    (decodeInode (encodeInode node)).time stamp = node.time stamp := by
  cases stamp with
  | access =>
    change decodeTime (encodeFields _ _) 0 = node.accessTime
    rw [decodeTime_encodeFields _ _ (by omega), decodeTime_encodeTime_apart _ _ (by omega),
      decodeTime_encodeTime_apart _ _ (by omega)]
    exact decodeTime_encodeTime_same _ (by omega) storable
  | modification =>
    change decodeTime (encodeFields _ _) 8 = node.modificationTime
    rw [decodeTime_encodeFields _ _ (by omega), decodeTime_encodeTime_apart _ _ (by omega)]
    exact decodeTime_encodeTime_same _ (by omega) storable
  | statusChange =>
    change decodeTime (encodeFields _ _) 16 = node.statusChangeTime
    rw [decodeTime_encodeFields _ _ (by omega)]
    exact decodeTime_encodeTime_same _ (by omega) storable

end Encoding

theorem time_diskOfInode (value : Inode) (curTime : TimeInterval) (stamp : Stamp) :
    (diskOfInode value curTime).time stamp = value.shown curTime stamp := by
  cases stamp <;> rfl

/-! ## Reading, writing and truncating set flags and no times -/

/-- The times of `new` are those of `old`, and no flag was cleared. -/
structure Flagged (old new : Inode) : Prop where
  time : ∀ stamp, new.time stamp = old.time stamp
  flag : ∀ stamp, old.flag stamp = true → new.flag stamp = true

theorem Flagged.trans {first second third : Inode} (early : Flagged first second) (late : Flagged second third) :
    Flagged first third where
  time stamp := (late.time stamp).trans (early.time stamp)
  flag stamp set := late.flag stamp (early.flag stamp set)

/-- No call since `origin` changed the clock or a time in core. -/
structure Stamped (origin fs : SerenaFS) : Prop where
  clock : fs.clock = origin.clock
  inode : ∀ ref value, fs.inode ref = some value → ∃ old, origin.inode ref = some old ∧ Flagged old value

section Stamped
variable {origin : SerenaFS}

theorem Stamped.refl (fs : SerenaFS) : Stamped fs fs :=
  ⟨rfl, fun _ value stored => ⟨value, stored, ⟨fun _ => rfl, fun _ set => set⟩⟩⟩

theorem Stamped.of_eq {fs other : SerenaFS} (stamped : Stamped origin fs) (clock : other.clock = fs.clock)
    (inode : other.inode = fs.inode) : Stamped origin other := by
  refine ⟨clock.trans stamped.clock, ?_⟩
  rw [inode]
  exact stamped.inode

theorem keeps_onDisk_stamped {α : Type} (transfer : Code Disk Errno α) :
    Code.Keeps (Stamped origin) (onDisk transfer) := by
  intro fs stamped
  unfold onDisk
  cases transfer fs.disk with
  | ok value disk => exact stamped.of_eq rfl rfl
  | err reason disk => exact stamped.of_eq rfl rfl
  | fault => trivial

theorem keeps_node_stamped (ref : InodeRef) : Code.Keeps (Stamped origin) (node ref) := by
  intro fs stamped
  unfold node
  cases fs.inode ref with
  | some value => exact stamped
  | none => trivial

theorem keeps_updateNode_stamped (ref : InodeRef) {change : Inode → Inode}
    (flagged : ∀ value, Flagged value (change value)) :
    Code.Keeps (Stamped origin) (updateNode ref change) := by
  intro fs stamped
  unfold updateNode
  cases stored : fs.inode ref with
  | none => trivial
  | some value =>
    refine ⟨stamped.clock, ?_⟩
    intro other found inode
    change Function.update fs.inode ref (some (change value)) other = some found at inode
    by_cases same : other = ref
    · rw [same] at inode ⊢
      rw [Function.update_self] at inode
      obtain ⟨old, before, early⟩ := stamped.inode ref value stored
      rw [← Option.some.inj inode]
      exact ⟨old, before, early.trans (flagged value)⟩
    · rw [Function.update_of_ne same] at inode
      exact stamped.inode other found inode

theorem keeps_setBit_stamped (lba : Nat) (inUse : Bool) : Code.Keeps (Stamped origin) (setBit lba inUse) :=
  Code.keeps_modify fun _ stamped => stamped.of_eq rfl rfl

theorem keeps_writeBack_stamped (lba : Nat) :
    Code.Keeps (Stamped origin) (writeBackAllocationBitmapForLba lba) := by
  refine Code.keeps_bind Code.keeps_get ?_
  intro fs
  exact Code.keeps_ite (fun _ => keeps_onDisk_stamped _) fun _ => Code.keeps_fault

theorem keeps_allocateBlock_stamped : Code.Keeps (Stamped origin) allocateBlockLocked := by
  refine Code.keeps_bind Code.keeps_get ?_
  intro fs
  split
  · exact Code.keeps_fault
  · exact Code.keeps_throw _
  · refine Code.keeps_bind (keeps_setBit_stamped _ _) fun _ => ?_
    refine Code.keeps_bind ?_ fun _ => Code.keeps_pure _
    exact Code.keeps_onError (keeps_writeBack_stamped _) (keeps_setBit_stamped _ _)

theorem keeps_deallocateBlock_stamped (lba : Nat) :
    Code.Keeps (Stamped origin) (deallocateBlockLocked lba) := by
  unfold deallocateBlockLocked
  split_ifs
  · exact Code.keeps_pure _
  · refine Code.keeps_bind Code.keeps_get fun fs => ?_
    split_ifs
    · exact Code.keeps_fault
    · refine Code.keeps_bind (keeps_setBit_stamped _ _) fun _ => ?_
      exact Code.keeps_bind (Code.keeps_attempt (keeps_writeBack_stamped _)) fun _ => Code.keeps_pure _

theorem keeps_getLogical_stamped (ref : InodeRef) (fba : Int) (mode : SFSBlockMode) :
    Code.Keeps (Stamped origin) (getLogicalBlockAddressForFileBlockAddress ref fba mode) := by
  unfold getLogicalBlockAddressForFileBlockAddress
  split_ifs
  · refine Code.keeps_bind (keeps_node_stamped ref) fun value => ?_
    split_ifs
    · refine Code.keeps_bind keeps_allocateBlock_stamped fun lba => ?_
      refine Code.keeps_bind (keeps_updateNode_stamped ref ?_) fun _ => Code.keeps_pure _
      intro value
      exact ⟨fun stamp => by cases stamp <;> rfl, fun stamp set => by cases stamp <;> exact set⟩
    · exact Code.keeps_pure _
  · exact Code.keeps_throw _

theorem keeps_fileBlock_stamped (ref : InodeRef) (fba : Int) (mode : SFSBlockMode) :
    Code.Keeps (Stamped origin) (fileBlock ref fba mode) := by
  refine Code.keeps_bind (keeps_getLogical_stamped ref fba mode) fun lba => ?_
  split_ifs
  · exact Code.keeps_pure _
  · exact Code.keeps_bind (keeps_onDisk_stamped _) fun _ => Code.keeps_pure _

theorem keeps_xReadLoop_stamped (ref : InodeRef) (fileSize : Int) (fuel : Nat) (offset : Int) (count : Nat)
    (read : List UInt8) : Code.Keeps (Stamped origin) (xReadLoop ref fileSize fuel offset count read) := by
  induction fuel generalizing offset count read with
  | zero => exact Code.keeps_pure _
  | succ fuel ih =>
    refine Code.keeps_ite (fun _ => ?_) fun _ => Code.keeps_pure _
    refine Code.keeps_bind (Code.keeps_attempt (keeps_fileBlock_stamped _ _ _)) fun result => ?_
    cases result with
    | error reason => exact Code.keeps_ite (fun _ => Code.keeps_throw _) fun _ => Code.keeps_pure _
    | ok found => exact ih _ _ _

theorem keeps_xRead_stamped (ref : InodeRef) (offset : Int) (count : Nat) :
    Code.Keeps (Stamped origin) (xRead ref offset count) := by
  unfold xRead
  split_ifs
  · exact Code.keeps_throw _
  · refine Code.keeps_bind (keeps_node_stamped ref) fun value => ?_
    refine Code.keeps_bind (keeps_xReadLoop_stamped _ _ _ _ _ _) fun read => ?_
    split_ifs
    · exact Code.keeps_pure _
    · refine Code.keeps_bind (keeps_updateNode_stamped ref ?_) fun _ => Code.keeps_pure _
      intro value
      refine ⟨fun stamp => by cases stamp <;> rfl, fun stamp set => ?_⟩
      cases stamp with
      | access => rfl
      | modification => exact set
      | statusChange => exact set

theorem keeps_xWriteLoop_stamped (ref : InodeRef) (fuel : Nat) (offset : Int) (data : List UInt8)
    (written : Nat) : Code.Keeps (Stamped origin) (xWriteLoop ref fuel offset data written) := by
  induction fuel generalizing offset data written with
  | zero => exact Code.keeps_pure _
  | succ fuel ih =>
    have stop (reason : Errno) : Code.Keeps (Stamped origin)
        (if written = 0 then Code.throw reason else pure (offset, written) : FS (Int × Nat)) :=
      Code.keeps_ite (fun _ => Code.keeps_throw _) fun _ => Code.keeps_pure _
    refine Code.keeps_ite (fun _ => Code.keeps_pure _) fun _ => ?_
    refine Code.keeps_bind (Code.keeps_attempt (keeps_fileBlock_stamped _ _ _)) fun result => ?_
    cases result with
    | error reason => exact stop reason
    | ok found =>
      refine Code.keeps_bind (Code.keeps_attempt (keeps_onDisk_stamped _)) fun result => ?_
      cases result with
      | error reason => exact stop reason
      | ok found => exact ih _ _ _

theorem flagged_setUpdated (value : Inode) (size : Int) : Flagged value { value.setUpdated with size := size } := by
  refine ⟨fun stamp => by cases stamp <;> rfl, fun stamp set => ?_⟩
  cases stamp with
  | access => exact set
  | modification => rfl
  | statusChange => rfl

theorem keeps_xWrite_stamped (ref : InodeRef) (offset : Int) (data : List UInt8) :
    Code.Keeps (Stamped origin) (xWrite ref offset data) := by
  unfold xWrite
  split_ifs
  · exact Code.keeps_throw _
  · refine Code.keeps_bind (keeps_xWriteLoop_stamped _ _ _ _ _) fun result => ?_
    refine Code.keeps_ite (fun _ => ?_) fun _ => Code.keeps_pure _
    refine Code.keeps_bind (keeps_updateNode_stamped ref ?_) fun _ => Code.keeps_pure _
    intro value
    exact flagged_setUpdated value _

theorem keeps_xTruncateLoop_stamped (ref : InodeRef) (first : Int)
    (indices : List (Fin kSFSMaxDirectDataBlockPointers)) :
    Code.Keeps (Stamped origin) (xTruncateLoop ref first indices) := by
  induction indices with
  | nil => exact Code.keeps_pure _
  | cons index rest ih =>
    refine Code.keeps_bind (keeps_node_stamped ref) fun value => ?_
    split_ifs
    · refine Code.keeps_bind (keeps_deallocateBlock_stamped _) fun _ => ?_
      refine Code.keeps_bind (keeps_updateNode_stamped ref ?_) fun _ => ih
      intro value
      exact ⟨fun stamp => by cases stamp <;> rfl, fun stamp set => by cases stamp <;> exact set⟩
    · exact ih

theorem keeps_truncate_stamped (ref : InodeRef) (user : User) (length : Int) :
    Code.Keeps (Stamped origin) (truncate ref user length) := by
  refine Code.keeps_bind (keeps_node_stamped ref) fun value => ?_
  refine Code.keeps_ite (fun _ => Code.keeps_throw _) fun _ => ?_
  refine Code.keeps_ite (fun _ => Code.keeps_throw _) fun _ => ?_
  refine Code.keeps_ite (fun _ => Code.keeps_throw _) fun _ => ?_
  have access : Code.Keeps (Stamped origin) (check (value.checkAccess user kFilePermissionWrite)) := by
    unfold check
    split
    · exact Code.keeps_pure _
    · exact Code.keeps_throw _
  refine Code.keeps_bind access fun _ => ?_
  refine Code.keeps_ite (fun _ => keeps_updateNode_stamped ref fun value => flagged_setUpdated value length) fun _ => ?_
  refine Code.keeps_ite (fun _ => ?_) fun _ => Code.keeps_pure _
  refine Code.keeps_bind (keeps_node_stamped ref) fun value => ?_
  refine Code.keeps_ite (fun _ => Code.keeps_fault) fun _ => ?_
  refine Code.keeps_bind (keeps_xTruncateLoop_stamped _ _ _) fun _ => ?_
  exact keeps_updateNode_stamped ref fun value => flagged_setUpdated value length

end Stamped

/-! ## The time-stamps of one node as a cached record -/

def cachedTimes (value : Inode) : Cached Stamp TimeInterval := ⟨value.time, value.flag⟩

theorem modified_cachedTimes {value : Inode} : (cachedTimes value).Modified ↔ value.isModified = true :=
  Inode.isModified_iff.symm

def SerenaFS.record (fs : SerenaFS) (id : Nat) : StampCache Stamp TimeInterval where
  now := fs.clock
  stored := fs.storedTime id
  cached := ((fs.inodesInUse.find? (fs.hasId id)).bind fs.inode).map cachedTimes

structure SerenaFS.Linked (fs : SerenaFS) (id : Nat) : Prop where
  has : fs.hasNode id = true
  link : ∀ ref value, fs.Core ref value → value.inid = id → value.linkCount ≠ 0

/-- The times in memory fit their fields. -/
structure SerenaFS.InRange (fs : SerenaFS) (id : Nat) : Prop where
  clock : fs.clock.Storable
  core : ∀ ref value, fs.Core ref value → value.inid = id → ∀ stamp, (value.time stamp).Storable

section Record
variable {fs : SerenaFS} {id : Nat} {ref : InodeRef} {value : Inode}

theorem SerenaFS.Table.find_core (table : fs.Table) (core : fs.Core ref value) (inid : value.inid = id) :
    fs.inodesInUse.find? (fs.hasId id) = some ref := by
  cases search : fs.inodesInUse.find? (fs.hasId id) with
  | none => exact absurd inid (find_hasId_none search ref value core)
  | some found =>
    obtain ⟨value', core', inid'⟩ := find_hasId_some table search
    rw [table.unique found ref value' value core' core (inid'.trans inid.symm)]

theorem record_core (table : fs.Table) (core : fs.Core ref value) (inid : value.inid = id) :
    fs.record id = ⟨fs.clock, fs.storedTime id, some (cachedTimes value)⟩ := by
  unfold SerenaFS.record
  rw [table.find_core core inid, Option.bind_some, core.stored]
  rfl

theorem record_absent (table : fs.Table) (absent : fs.Absent id) :
    fs.record id = ⟨fs.clock, fs.storedTime id, none⟩ := by
  unfold SerenaFS.record
  cases search : fs.inodesInUse.find? (fs.hasId id) with
  | none => rfl
  | some found =>
    obtain ⟨value, core, inid⟩ := find_hasId_some table search
    exact absurd inid (absent found value core)

/-- `Inode_GetFileInfo` shows what the record shows. -/
theorem SerenaFS.HasInfo.time_eq {fsid : Nat} {info : FileInfo} (hasInfo : fs.HasInfo fsid id info)
    (table : fs.Table) (stamp : Stamp) : info.time stamp = (fs.record id).shown stamp := by
  obtain ⟨ref, value, core, inid, rfl⟩ := hasInfo
  rw [record_core table core inid, Inode.time_getFileInfo]
  rfl

end Record

/-! ## Operations on one node -/

/-- The operation is one on the node `id`, or time passes. -/
def Operation.concerns (id : Nat) (fs : SerenaFS) : Operation → Bool
  | .xRead ref _ _ => fs.hasId id ref
  | .xWrite ref _ _ => fs.hasId id ref
  | .truncate ref _ _ => fs.hasId id ref
  | .acquireNodeWithId other => other = id
  | .reacquireNode ref => fs.hasId id ref
  | .relinquishNode ref => fs.hasId id ref
  | .tick now => fs.clock ≤ now ∧ now.Storable
  | _ => false

def punctualAt (value : Inode) (clock : TimeInterval) (stamp : Stamp) : Bool :=
  !value.flag stamp || value.time stamp = clock

/-- A node that stays in core is given up with its flags clear, or at the very time that
the inode holds. -/
def Operation.punctual (fs : SerenaFS) : Operation → Bool
  | .relinquishNode ref => (fs.inode ref).all fun value =>
    value.useCount = 1 || [Stamp.access, .modification, .statusChange].all (punctualAt value fs.clock)
  | _ => true

def NodeStep (id : Nat) (fs : SerenaFS) (call : Call) (after : SerenaFS) : Prop :=
  call.operation.concerns id fs = true ∧ Performs fs call after

def PunctualStep (id : Nat) (fs : SerenaFS) (call : Call) (after : SerenaFS) : Prop :=
  NodeStep id fs call after ∧ call.operation.punctual fs = true

/-- What a run of punctual operations on the node keeps. -/
structure Timely (id : Nat) (fs : SerenaFS) : Prop where
  consistent : fs.Consistent False none []
  linked : fs.Linked id
  range : fs.InRange id
  inStep : (fs.record id).InStep

section Steps
variable {fs after : SerenaFS} {id : Nat} {ref : InodeRef} {value : Inode}

/-- What holds however the call returns holds behind the step. -/
theorem Performs.returned {call : Call} {post : SerenaFS → Prop} (performs : Performs fs call after)
    (returned : (execute call.operation fs).Returned (fun _ => post) fun _ => post) : post after := by
  rcases performs.cases with ⟨result, -, returns⟩ | ⟨reason, -, returns⟩
  · rw [returns] at returned
    exact returned
  · rw [returns] at returned
    exact returned

structure Moves (id : Nat) (fs after : SerenaFS) : Prop where
  linked : after.Linked id
  range : after.InRange id
  move : (fs.record id).Move (after.record id)

theorem moves_content (timely : Timely id fs) (core : fs.Core ref value) (inid : value.inid = id)
    (reached : Reached fs ref value False false [] after) (stamped : Stamped fs after) : Moves id fs after := by
  have table := timely.consistent.table
  have table' := reached.consistent.table
  obtain ⟨value', core', identity⟩ := reached.core
  have inid' : value'.inid = id := (Frame.inid_eq identity).trans inid
  have own : ∀ r found, after.Core r found → found.inid = id → found = value' := by
    intro r found held same
    have equal := table'.unique r ref found value' held core' (same.trans inid'.symm)
    rw [equal] at held
    exact held.value_eq core'
  obtain ⟨old, before, flagged⟩ := stamped.inode ref value' core'.stored
  have same : old = value := Option.some.inj (before.symm.trans core.stored)
  rw [same] at flagged
  have times : value'.time = value.time := funext flagged.time
  refine ⟨⟨?_, ?_⟩, ⟨?_, ?_⟩, ?_⟩
  · rw [reached.frame.hasNode]
    exact timely.linked.has
  · intro r found held same
    rw [own r found held same]
    have link : value'.linkCount = value.linkCount := congrArg (·.2.2.1) identity
    rw [link]
    exact timely.linked.link ref value core inid
  · rw [stamped.clock]
    exact timely.range.clock
  · intro r found held same
    rw [own r found held same, times]
    exact timely.range.core ref value core inid
  · have stored : after.storedTime id = fs.storedTime id := by
      unfold SerenaFS.storedTime
      rw [reached.frame.inodeBlock id timely.linked.has]
    rw [record_core table core inid, record_core table' core' inid', stamped.clock, stored]
    unfold cachedTimes
    rw [times]
    exact @StampCache.Move.flag _ _ _ ⟨_, _, some ⟨value.time, value.flag⟩⟩ _ value'.flag rfl flagged.flag

theorem SerenaFS.Core.inid_eq_of_hasId (core : fs.Core ref value) (hasId : fs.hasId id ref = true) :
    value.inid = id := by
  unfold SerenaFS.hasId at hasId
  rw [core.stored] at hasId
  exact eq_of_beq hasId

theorem moves_setNode (timely : Timely id fs) (core : fs.Core ref value) (inid : value.inid = id)
    {value' : Inode} (inid' : value'.inid = value.inid) (link : value'.linkCount = value.linkCount)
    (times : value'.time = value.time) (flags : value'.flag = value.flag)
    (consistent : (fs.setNode ref (some value')).Consistent False none []) :
    Moves id fs (fs.setNode ref (some value')) := by
  have core' := core_setNode_self core value'
  have own : ∀ r found, (fs.setNode ref (some value')).Core r found → found.inid = id → found = value' := by
    intro r found held same
    have equal := consistent.table.unique r ref found value' held core' (same.trans (inid'.trans inid).symm)
    rw [equal] at held
    exact held.value_eq core'
  refine ⟨⟨timely.linked.has, ?_⟩, ⟨timely.range.clock, ?_⟩, ?_⟩
  · intro r found held same
    rw [own r found held same, link]
    exact timely.linked.link ref value core inid
  · intro r found held same
    rw [own r found held same, times]
    exact timely.range.core ref value core inid
  · rw [record_core timely.consistent.table core inid, record_core consistent.table core' (inid'.trans inid)]
    unfold cachedTimes
    rw [times, flags]
    exact .tick (le_refl _)

theorem moves_reacquire (timely : Timely id fs) (core : fs.Core ref value) (inid : value.inid = id) :
    Moves id fs (fs.setNode ref (some (reacquired value))) := by
  refine moves_setNode timely core inid rfl rfl ?_ ?_ (timely.consistent.reacquire core)
  · funext stamp
    cases stamp <;> rfl
  · funext stamp
    cases stamp <;> rfl

theorem moves_read (timely : Timely id fs) (heap : List Bool) (absent : fs.Absent id) :
    Moves id fs ((fs.withHeap heap).install (readInode fs id)) := by
  have table := timely.consistent.table
  have tableHeap := (timely.consistent.withHeap heap).table
  have consistent := timely.consistent.acquired timely.linked.has (.read heap absent)
  have own : ∀ r found, ((fs.withHeap heap).install (readInode fs id)).Core r found → found.inid = id →
      found = readInode fs id := by
    intro r found held same
    rcases (core_install tableHeap r found).mp held with old | ⟨-, new⟩
    · exact absurd same (absent r found ⟨old.inUse, old.stored⟩)
    · exact new
  have core' : ((fs.withHeap heap).install (readInode fs id)).Core fs.nextRef (readInode fs id) :=
    (core_install tableHeap _ _).mpr (.inr ⟨rfl, rfl⟩)
  have times : (readInode fs id).time = fs.storedTime id := by
    funext stamp
    cases stamp <;> rfl
  refine ⟨⟨timely.linked.has, ?_⟩, ⟨timely.range.clock, ?_⟩, ?_⟩
  · intro r found held same
    rw [own r found held same]
    change (decodeInode (fs.disk.block id)).linkCount ≠ 0
    rw [timely.consistent.disk.absent id timely.linked.has absent]
    exact one_ne_zero
  · intro r found held same stamp
    rw [own r found held same, times]
    exact decodeInode_storable _ stamp
  · have inid : (readInode fs id).inid = id := rfl
    rw [record_absent table absent, record_core consistent.table core' inid]
    have flags : (readInode fs id).flag = fun _ => false := by
      funext stamp
      cases stamp <;> rfl
    unfold cachedTimes
    rw [times, flags]
    exact .load rfl

theorem moves_outOfMemory (timely : Timely id fs) (failed : OutOfMemory fs after) : Moves id fs after := by
  have consistent := timely.consistent.outOfMemory failed
  have same : ∀ r found, after.Core r found ↔ fs.Core r found := by
    intro r found
    cases failed with
    | heap heap => exact ⟨fun held => ⟨held.inUse, held.stored⟩, fun held => ⟨held.inUse, held.stored⟩⟩
    | orphan heap value =>
      refine (core_orphan (timely.consistent.withHeap heap).table r found).trans ?_
      exact ⟨fun held => ⟨held.inUse, held.stored⟩, fun held => ⟨held.inUse, held.stored⟩⟩
  have clock : after.clock = fs.clock := by cases failed <;> rfl
  have disk : after.disk = fs.disk := by cases failed <;> rfl
  have has : after.hasNode id = fs.hasNode id := by cases failed <;> rfl
  have stored : after.storedTime id = fs.storedTime id := by
    unfold SerenaFS.storedTime
    rw [disk]
  refine ⟨⟨has.trans timely.linked.has, ?_⟩, ⟨clock ▸ timely.range.clock, ?_⟩, ?_⟩
  · intro r found held
    exact timely.linked.link r found ((same r found).mp held)
  · intro r found held
    exact timely.range.core r found ((same r found).mp held)
  · by_cases absent : fs.Absent id
    · have absent' : after.Absent id := fun r found held => absent r found ((same r found).mp held)
      rw [record_absent timely.consistent.table absent, record_absent consistent.table absent', clock, stored]
      exact .tick (le_refl _)
    · unfold SerenaFS.Absent at absent
      push Not at absent
      obtain ⟨r, found, held, inid⟩ := absent
      rw [record_core timely.consistent.table held inid,
        record_core consistent.table ((same r found).mpr held) inid, clock, stored]
      exact .tick (le_refl _)

/-- The time-stamps behind the write-back. -/
theorem storedTime_settled (timely : Timely id fs) (core : fs.Core ref value) (inid : value.inid = id) :
    (value.isModified = true → (fs.settled value).storedTime id = (cachedTimes value).shown fs.clock) ∧
      (¬ value.isModified = true → (fs.settled value).storedTime id = fs.storedTime id) := by
  unfold SerenaFS.settled
  constructor
  · intro modified
    rw [if_pos modified]
    funext stamp
    have storable : ((diskOfInode value fs.clock).time stamp).Storable := by
      rw [time_diskOfInode]
      unfold Inode.shown
      split_ifs
      · exact timely.range.clock
      · exact timely.range.core ref value core inid stamp
    unfold SerenaFS.storedTime
    rw [writeBlock_block, inid, Function.update_self, decodeInode_encodeInode_time _ storable, time_diskOfInode]
    rfl
  · intro unmodified
    rw [if_neg unmodified]

theorem moves_relinquish (timely : Timely id fs) (core : fs.Core ref value) (inid : value.inid = id)
    (punctual : value.useCount ≠ 1 → ∀ stamp, value.flag stamp = true → value.time stamp = fs.clock)
    (consistent : after.Consistent False none [])
    (relinquished : after = if value.useCount = 1 then (fs.settled value).evict ref
      else (fs.settled value).setNode ref (some (relinquished value))) : Moves id fs after := by
  have table := timely.consistent.table
  obtain ⟨settled, core', -⟩ := timely.consistent.settled core
  have others : ∀ r found, (fs.settled value).Core r found → found.inid = id → r = ref := by
    intro r found held same
    exact settled.table.unique r ref found value held core' (same.trans inid.symm)
  have clock : (fs.settled value).clock = fs.clock := by
    unfold SerenaFS.settled
    split_ifs <;> rfl
  have has : (fs.settled value).hasNode id = true := by
    rw [← timely.linked.has]
    unfold SerenaFS.settled
    split_ifs <;> rfl
  obtain ⟨written, unwritten⟩ := storedTime_settled timely core inid
  have move (stays : Bool) (late : stays = true → value.useCount ≠ 1) :
      StampCache.Move (fs.record id) ⟨fs.clock, (fs.settled value).storedTime id,
        if stays then some (cachedTimes value).clear else none⟩ := by
    rw [record_core table core inid]
    refine .writeBack stays rfl (fun modified => written (modified_cachedTimes.mp modified))
      (fun unmodified => unwritten fun modified => unmodified (modified_cachedTimes.mpr modified)) ?_
    intro stayed
    exact punctual (late stayed)
  by_cases last : value.useCount = 1
  · rw [if_pos last] at relinquished
    rw [relinquished] at consistent ⊢
    have absent : ((fs.settled value).evict ref).Absent id := by
      intro r found held same
      obtain ⟨before, different⟩ := (core_evict settled.table r found).mp held
      exact different (others r found before same)
    refine ⟨⟨has, ?_⟩, ⟨clock ▸ timely.range.clock, ?_⟩, ?_⟩
    · intro r found held same
      exact absurd same (absent r found held)
    · intro r found held same
      exact absurd same (absent r found held)
    · rw [record_absent consistent.table absent]
      change StampCache.Move _ ⟨(fs.settled value).clock, (fs.settled value).storedTime id, none⟩
      rw [clock]
      exact move false fun stays => absurd stays Bool.false_ne_true
  · rw [if_neg last] at relinquished
    rw [relinquished] at consistent ⊢
    have core'' := core_setNode_self core' (Serenafs.relinquished value)
    have own : ∀ r found, ((fs.settled value).setNode ref (some (Serenafs.relinquished value))).Core r found →
        found.inid = id → found = Serenafs.relinquished value := by
      intro r found held same
      rcases (core_setNode core' r found).mp held with ⟨-, new⟩ | ⟨different, before⟩
      · exact new
      · exact absurd (others r found before same) different
    have times : (Serenafs.relinquished value).time = value.time := by
      funext stamp
      cases stamp <;> rfl
    refine ⟨⟨has, ?_⟩, ⟨clock ▸ timely.range.clock, ?_⟩, ?_⟩
    · intro r found held same
      rw [own r found held same]
      exact timely.linked.link ref value core inid
    · intro r found held same
      rw [own r found held same, times]
      exact timely.range.core ref value core inid
    · have cleared : cachedTimes (Serenafs.relinquished value) = (cachedTimes value).clear := by
        unfold cachedTimes Cached.clear
        congr
        funext stamp
        cases stamp <;> rfl
      rw [record_core consistent.table core'' inid, cleared]
      change StampCache.Move _ ⟨(fs.settled value).clock, (fs.settled value).storedTime id, _⟩
      rw [clock]
      exact move true fun _ => last

theorem moves_tick (timely : Timely id fs) {now : TimeInterval} (later : fs.clock ≤ now) (storable : now.Storable) :
    Moves id fs (fs.withClock now) := by
  refine ⟨⟨timely.linked.has, ?_⟩, ⟨storable, ?_⟩, ?_⟩
  · intro r found held
    exact timely.linked.link r found ⟨held.inUse, held.stored⟩
  · intro r found held
    exact timely.range.core r found ⟨held.inUse, held.stored⟩
  · exact .tick later

theorem punctual_of_relinquish (stored : fs.inode ref = some value)
    (punctual : (Operation.relinquishNode ref).punctual fs = true) (stays : value.useCount ≠ 1) (stamp : Stamp)
    (set : value.flag stamp = true) : value.time stamp = fs.clock := by
  simp only [Operation.punctual, stored, Option.all_some, Bool.or_eq_true, decide_eq_true_eq] at punctual
  have all := List.all_eq_true.mp (punctual.resolve_left stays) stamp (by cases stamp <;> simp)
  simpa [punctualAt, set] using all

theorem PunctualStep.orderly {call : Call} (timely : Timely id fs) (step : PunctualStep id fs call after) :
    call.operation.orderly fs = true := by
  obtain ⟨⟨concerns, performs⟩, -⟩ := step
  cases operation : call.operation with
  | acquireNodeWithId other =>
    rw [operation] at concerns
    rw [of_decide_eq_true concerns]
    exact timely.linked.has
  | relinquishNode ref =>
    rw [operation] at concerns
    obtain ⟨value, stored⟩ := timely.consistent.table.known ref
      (performs.inUse ref (by rw [operation]; exact List.mem_singleton_self _))
    have core : fs.Core ref value := ⟨performs.inUse ref (by rw [operation]; exact List.mem_singleton_self _), stored⟩
    have link := timely.linked.link ref value core (core.inid_eq_of_hasId concerns)
    simp [Operation.orderly, stored, link]
  | createFile => simp [operation, Operation.concerns] at concerns
  | createDirectory => simp [operation, Operation.concerns] at concerns
  | allocateNode => simp [operation, Operation.concerns] at concerns
  | unlink => simp [operation, Operation.concerns] at concerns
  | reacquireNode => rfl
  | xRead => rfl
  | xWrite => rfl
  | truncate => rfl
  | tick => rfl

theorem PunctualStep.moves {call : Call} (timely : Timely id fs) (step : PunctualStep id fs call after)
    (consistent : after.Consistent False none []) : Moves id fs after := by
  obtain ⟨⟨concerns, performs⟩, punctual⟩ := step
  rcases call with ⟨operation, result⟩
  have held : ∀ ref ∈ operation.references, ∃ value, fs.Core ref value := by
    intro ref member
    obtain ⟨value, stored⟩ := timely.consistent.table.known ref (performs.inUse ref member)
    exact ⟨value, performs.inUse ref member, stored⟩
  -- reading, writing and truncating run through states of the same node
  have content {α : Type} {code : FS α} {ref : InodeRef} {value : Inode} (core : fs.Core ref value)
      (inid : value.inid = id)
      (spec : Code.Spec (Reached fs ref value False false []) code
        (fun _ => Reached fs ref value False false []) fun _ => Reached fs ref value False false [])
      (keeps : Code.Keeps (Stamped fs) code)
      (executes : execute operation = do let _ ← code; pure none) : Moves id fs after := by
    have reached : Reached fs ref value False false [] after := by
      refine performs.returned ?_
      rw [executes]
      exact returned_then _ (spec fs (Reached.start' core timely.consistent))
    have stamped : Stamped fs after := by
      refine performs.returned ?_
      rw [executes]
      exact returned_then _ (keeps fs (Stamped.refl fs))
    exact moves_content timely core inid reached stamped
  cases operation with
  | createFile => simp [Operation.concerns] at concerns
  | createDirectory => simp [Operation.concerns] at concerns
  | allocateNode => simp [Operation.concerns] at concerns
  | unlink => simp [Operation.concerns] at concerns
  | xRead ref offset count =>
    obtain ⟨value, core⟩ := held ref (List.mem_singleton_self _)
    exact content core (core.inid_eq_of_hasId concerns) (xRead_spec offset count)
      (keeps_xRead_stamped ref offset count) rfl
  | xWrite ref offset data =>
    obtain ⟨value, core⟩ := held ref (List.mem_singleton_self _)
    exact content core (core.inid_eq_of_hasId concerns) (xWrite_spec offset data)
      (keeps_xWrite_stamped ref offset data) rfl
  | truncate ref user length =>
    obtain ⟨value, core⟩ := held ref (List.mem_singleton_self _)
    exact content core (core.inid_eq_of_hasId concerns) (truncate_spec user length)
      (keeps_truncate_stamped ref user length) rfl
  | reacquireNode ref =>
    obtain ⟨value, core⟩ := held ref (List.mem_singleton_self _)
    refine performs.returned (returned_then _ ?_)
    rw [reacquireNode_core core]
    exact moves_reacquire timely core (core.inid_eq_of_hasId concerns)
  | acquireNodeWithId other =>
    have same : other = id := of_decide_eq_true concerns
    rw [same] at performs
    refine performs.returned (returned_then _ ?_)
    rcases acquireNodeWithId_cases timely.consistent timely.linked.has with
      ⟨final, failed, state⟩ | ⟨ref, final, returns, acquired⟩
    · rw [failed]
      exact moves_outOfMemory timely state
    · rw [returns]
      cases acquired with
      | held core inid => exact moves_reacquire timely core inid
      | read heap absent => exact moves_read timely heap absent
  | relinquishNode ref =>
    obtain ⟨value, core⟩ := held ref (List.mem_singleton_self _)
    have inid := core.inid_eq_of_hasId concerns
    refine moves_relinquish timely core inid (punctual_of_relinquish core.stored punctual) consistent ?_
    refine @Performs.returned _ _ _ (fun final => final = _) performs (returned_then _ ?_)
    rcases relinquishNode_linked timely.consistent core (timely.linked.link ref value core inid) with
      fault | ⟨-, returns⟩
    · rw [fault]
      trivial
    · rw [returns]
      rfl
  | tick now =>
    obtain ⟨later, storable⟩ : fs.clock ≤ now ∧ now.Storable := of_decide_eq_true concerns
    refine performs.returned ?_
    exact moves_tick timely later storable

/-- A punctual step keeps the node in step, and none of its time-stamps goes back. -/
theorem PunctualStep.timely {call : Call} (timely : Timely id fs) (step : PunctualStep id fs call after) :
    Timely id after ∧ (fs.record id).Advances (after.record id) := by
  have orderly : OrderlyStep fs call after := ⟨step.orderly timely, step.1.2⟩
  have consistent := orderly.consistent timely.consistent False.elim
  have moves := step.moves timely consistent
  exact ⟨⟨consistent, moves.linked, moves.range, moves.move.inStep timely.inStep⟩,
    moves.move.advances timely.inStep⟩

theorem runs_timely {calls : List Call} (timely : Timely id fs) (run : Runs (PunctualStep id) fs calls after) :
    Timely id after ∧ (fs.record id).Advances (after.record id) := by
  refine run.invariant (fun state => Timely id state ∧ (fs.record id).Advances (state.record id))
    ⟨timely, .refl _⟩ ?_
  intro call state next inv step
  obtain ⟨now, advances⟩ := step.timely inv.1
  exact ⟨now, inv.2.trans advances⟩

end Steps

/-! ## Runs -/

/-- Neither the stored time-stamps of the node nor those in its file info record are
earlier than before. -/
structure TimesAdvance (fsid id : Nat) (fs after : SerenaFS) : Prop where
  stored : ∀ stamp, fs.storedTime id stamp ≤ after.storedTime id stamp
  info : ∀ before later, fs.HasInfo fsid id before → after.HasInfo fsid id later →
    ∀ stamp, before.time stamp ≤ later.time stamp

section Start
variable {fs : SerenaFS} {id : Nat}

theorem absent_of_all (none : (fs.inodesInUse.all fun ref => !fs.hasId id ref) = true) : fs.Absent id := by
  intro ref value core same
  have differs := List.all_eq_true.mp none ref core.inUse
  simp [SerenaFS.hasId, core.stored, same] at differs

theorem linked_of_absent (has : fs.hasNode id = true) (absent : fs.Absent id) : fs.Linked id :=
  ⟨has, fun ref value core same => absurd same (absent ref value core)⟩

theorem inRange_of_absent (clock : fs.clock.Storable) (absent : fs.Absent id) : fs.InRange id :=
  ⟨clock, fun ref value core same => absurd same (absent ref value core)⟩

theorem inStep_of_none (none : (fs.record id).cached = none)
    (early : ∀ stamp, fs.storedTime id stamp ≤ fs.clock) : (fs.record id).InStep := by
  refine ⟨?_, ?_, fun _ => early⟩
  · intro copy cached
    rw [none] at cached
    simp at cached
  · intro copy cached
    rw [none] at cached
    simp at cached

end Start

def newFile : List Operation :=
  [.acquireNodeWithId 2, .createFile [0x61] 0 ⟨0, 0⟩ 0 0x1a4, .xWrite 1 0 [1, 2, 3], .relinquishNode 1]

def fileVolume : SerenaFS :=
  ((performAll (fun fs operation => operation.orderly fs) newFile [] (emptyVolume 64)).map Prod.snd).getD
    (emptyVolume 64)

theorem fileVolume_runs : ∃ calls, Runs OrderlyStep (emptyVolume 64) calls fileVolume := by
  have performs : (performAll (fun fs operation => operation.orderly fs) newFile [] (emptyVolume 64)).isSome = true := by
    decide +kernel
  obtain ⟨⟨calls, fs⟩, performed⟩ := Option.isSome_iff_exists.mp performs
  have same : fileVolume = fs := by
    unfold fileVolume
    rw [performed]
    rfl
  rw [same]
  exact ⟨calls, runs_performAll .nil performed⟩

theorem fileVolume_closed :
    (fileVolume.inodesInUse.all fun ref => !fileVolume.hasId 4 ref) = true ∧ fileVolume.hasNode 4 = true ∧
      fileVolume.clock.Storable ∧ (fileVolume.record 4).cached = none ∧
      ∀ stamp ∈ [Stamp.access, .modification, .statusChange], fileVolume.storedTime 4 stamp ≤ fileVolume.clock := by
  decide +kernel

theorem fileVolume_absent : fileVolume.Absent 4 := absent_of_all fileVolume_closed.1

theorem fileVolume_linked : fileVolume.Linked 4 := linked_of_absent fileVolume_closed.2.1 fileVolume_absent

theorem fileVolume_inRange : fileVolume.InRange 4 := inRange_of_absent fileVolume_closed.2.2.1 fileVolume_absent

theorem fileVolume_inStep : (fileVolume.record 4).InStep := by
  refine inStep_of_none fileVolume_closed.2.2.2.1 fun stamp => fileVolume_closed.2.2.2.2 stamp ?_
  cases stamp <;> decide

end Apollo.Serenafs
