import Apollo.Filesystem.Inode

/-!
# Time-stamps and file info records

The order of `TimeInterval.h` and the record that `Inode_GetFileInfo` fills.  A
time-stamp whose flag is set is not the one in the inode: the record shows the
current time instead.
-/

set_option autoImplicit false

namespace Apollo

def TimeInterval.lessEquals (t0 t1 : TimeInterval) : Bool :=
  t0.tvSec < t1.tvSec || (t0.tvSec == t1.tvSec && t0.tvNsec ≤ t1.tvNsec)

instance : LE TimeInterval := ⟨fun t0 t1 => t0.lessEquals t1 = true⟩

instance (t0 t1 : TimeInterval) : Decidable (t0 ≤ t1) := inferInstanceAs (Decidable (_ = true))

theorem TimeInterval.le_iff {t0 t1 : TimeInterval} :
    t0 ≤ t1 ↔ t0.tvSec < t1.tvSec ∨ t0.tvSec = t1.tvSec ∧ t0.tvNsec ≤ t1.tvNsec := by
  change t0.lessEquals t1 = true ↔ _
  simp [TimeInterval.lessEquals]

instance : Preorder TimeInterval where
  le_refl time := by
    rw [TimeInterval.le_iff]
    exact .inr ⟨rfl, le_refl _⟩
  le_trans first second third early late := by
    rw [TimeInterval.le_iff] at early late ⊢
    omega

/-- The fields are `long` values. -/
structure TimeInterval.Storable (time : TimeInterval) : Prop where
  sec : -2147483648 ≤ time.tvSec ∧ time.tvSec < 2147483648
  nsec : -2147483648 ≤ time.tvNsec ∧ time.tvNsec < 2147483648

instance (time : TimeInterval) : Decidable time.Storable :=
  decidable_of_iff ((-2147483648 ≤ time.tvSec ∧ time.tvSec < 2147483648) ∧
      (-2147483648 ≤ time.tvNsec ∧ time.tvNsec < 2147483648))
    ⟨fun bounds => ⟨bounds.1, bounds.2⟩, fun storable => ⟨storable.sec, storable.nsec⟩⟩

inductive Stamp where
  | access
  | modification
  | statusChange
  deriving DecidableEq, Repr

def Inode.time (self : Inode) : Stamp → TimeInterval
  | .access => self.accessTime
  | .modification => self.modificationTime
  | .statusChange => self.statusChangeTime

/-- `Inode_IsAccessed`, `Inode_IsUpdated` and `Inode_IsStatusChanged`. -/
def Inode.flag (self : Inode) : Stamp → Bool
  | .access => self.accessed
  | .modification => self.updated
  | .statusChange => self.statusChanged

theorem Inode.isModified_iff {self : Inode} : self.isModified = true ↔ ∃ stamp, self.flag stamp = true := by
  unfold Inode.isModified
  constructor
  · intro modified
    rw [Bool.or_eq_true, Bool.or_eq_true] at modified
    rcases modified with (accessed | updated) | changed
    · exact ⟨.access, accessed⟩
    · exact ⟨.modification, updated⟩
    · exact ⟨.statusChange, changed⟩
  · rintro ⟨stamp, set⟩
    cases stamp <;> simp_all [Inode.flag]

structure FileInfo where
  accessTime : TimeInterval
  modificationTime : TimeInterval
  statusChangeTime : TimeInterval
  size : Int
  uid : UInt32
  gid : UInt32
  permissions : FilePermissions
  type : FileType
  linkCount : Int
  filesystemId : Nat
  inodeId : Nat

def FileInfo.time (info : FileInfo) : Stamp → TimeInterval
  | .access => info.accessTime
  | .modification => info.modificationTime
  | .statusChange => info.statusChangeTime

/-- `Inode_GetFileInfo` for an inode of the file system `fsid`. -/
def Inode.getFileInfo (self : Inode) (fsid : Nat) (curTime : TimeInterval) : FileInfo where
  accessTime := if self.accessed then curTime else self.accessTime
  modificationTime := if self.updated then curTime else self.modificationTime
  statusChangeTime := if self.statusChanged then curTime else self.statusChangeTime
  size := self.size
  uid := self.uid
  gid := self.gid
  permissions := self.permissions
  type := self.type
  linkCount := self.linkCount
  filesystemId := fsid
  inodeId := self.inid

def Inode.shown (self : Inode) (curTime : TimeInterval) (stamp : Stamp) : TimeInterval :=
  if self.flag stamp then curTime else self.time stamp

theorem Inode.time_getFileInfo (self : Inode) (fsid : Nat) (curTime : TimeInterval) (stamp : Stamp) :
    (self.getFileInfo fsid curTime).time stamp = self.shown curTime stamp := by
  cases stamp <;> rfl

/-! ## Changing the record -/

def kRootUserId : UInt32 := 0

def kModifyFileInfoAccessTime : UInt32 := 1
def kModifyFileInfoModificationTime : UInt32 := 2
def kModifyFileInfoUserId : UInt32 := 4
def kModifyFileInfoGroupId : UInt32 := 8
def kModifyFileInfoPermissions : UInt32 := 16

structure MutableFileInfo where
  modify : UInt32
  accessTime : TimeInterval
  modificationTime : TimeInterval
  uid : UInt32
  gid : UInt32
  permissions : FilePermissions
  permissionsModifyMask : UInt16

/-- The bit of `modify` is set. -/
def MutableFileInfo.selects (info : MutableFileInfo) (bit : UInt32) : Bool := info.modify &&& bit == bit

def MutableFileInfo.masked (info : MutableFileInfo) (permissions : FilePermissions) : FilePermissions :=
  (permissions &&& ~~~info.permissionsModifyMask) ||| (info.permissions &&& info.permissionsModifyMask)

/-- The inode after the checks of `Inode_SetFileInfo`. -/
def Inode.withFileInfo (self : Inode) (info : MutableFileInfo) : Inode :=
  { self with
    uid := if info.selects kModifyFileInfoUserId then info.uid else self.uid
    gid := if info.selects kModifyFileInfoGroupId then info.gid else self.gid
    permissions := if info.selects kModifyFileInfoPermissions then info.masked self.permissions else self.permissions
    accessTime := if info.selects kModifyFileInfoAccessTime then info.accessTime else self.accessTime
    accessed := self.accessed || info.selects kModifyFileInfoAccessTime
    modificationTime := if info.selects kModifyFileInfoModificationTime then info.modificationTime else self.modificationTime
    updated := self.updated || info.selects kModifyFileInfoModificationTime
    statusChanged := true }

/-- `Inode_SetFileInfo`: only a change of the owner or the group is checked. -/
def Inode.setFileInfo (self : Inode) (user : User) (info : MutableFileInfo) : Except Errno Inode :=
  if info.modify &&& (kModifyFileInfoUserId ||| kModifyFileInfoGroupId) ≠ 0 ∧ user.uid ≠ self.uid ∧ user.uid ≠ kRootUserId then .error .EPERM
  else .ok (self.withFileInfo info)

end Apollo
