import Apollo.Serenafs.Format

/-!
# Directory permissions

`SerenaFS_CheckAccess_Locked` translates the requested permission into a
three-scope permission set before it calls `Inode_CheckAccess`, which keeps the
low three bits of what it is given only.  Nothing is left of the request, so
the check never denies anything (`checkAccessLocked_eq`).
-/

set_option autoImplicit false

namespace Apollo.Serenafs

open Lib

/-- No bit of an owner-scope permission survives the masking of `Inode.c`. -/
theorem checkAccess_make (value : Inode) (user : User) (permission : Permission) :
    value.checkAccess user (FilePermissions.make permission.bit 0 0) = none := by
  have masked : FilePermissions.make (FilePermissions.make permission.bit 0 0) 0 0 = 0 ∧
      FilePermissions.make 0 (FilePermissions.make permission.bit 0 0) 0 = 0 ∧
      FilePermissions.make 0 0 (FilePermissions.make permission.bit 0 0) = 0 := by
    cases permission <;> decide
  obtain ⟨owner, group, other⟩ := masked
  unfold Inode.checkAccess
  rw [owner, group, other]
  simp

theorem checkAccess_zero (value : Inode) (user : User) : value.checkAccess user 0 = none := by
  have masked : FilePermissions.make 0 0 0 = 0 := by decide
  unfold Inode.checkAccess
  rw [masked]
  simp

theorem checkAccessLocked_eq (fs : SerenaFS) (value : Inode) (user : User) (mode : UInt32) :
    checkAccessLocked fs value user mode =
      if mode = kFilePermissionWrite.toUInt32 ∧ fs.isReadOnly then some .EROFS else none := by
  unfold checkAccessLocked
  split_ifs
  · rfl
  · exact checkAccess_make value user .read
  · exact checkAccess_make value user .write
  · exact checkAccess_make value user .execute
  · exact checkAccess_zero value user

theorem requireAccess_eq {fs : SerenaFS} {ref : InodeRef} {value : Inode}
    (stored : fs.inode ref = some value) (user : User) (mode : FilePermissions) :
    requireAccess ref user mode fs =
      if mode.toUInt32 = kFilePermissionWrite.toUInt32 ∧ fs.isReadOnly then .err .EROFS fs
      else .ok () fs := by
  have found : node ref fs = .ok value fs := by simp [node, stored]
  unfold requireAccess
  rw [Code.bind_of_ok found, Code.bind_of_ok (Code.get_apply fs), checkAccessLocked_eq]
  split_ifs <;> rfl

/-! ## Enforcement -/

/-- The call is refused with `EACCESS`. -/
def Denied {α : Type} (outcome : Outcome SerenaFS Errno α) : Prop :=
  ∃ after, outcome = .err .EACCESS after

/-- Every operation that needs `permission` on the directory `parent` is refused. -/
def OperationsDenied (fs : SerenaFS) (parent : InodeRef) (user : User) : Permission → Prop
  | .write =>
    (∀ name options permissions, ∃ after,
      createFile name parent user options permissions fs = .ok ⟨some .EACCESS, none⟩ after) ∧
    (∀ name permissions, Denied (createDirectory name parent user permissions fs)) ∧
    ∀ nodeToUnlink, Denied (unlink nodeToUnlink parent user fs)
  | .execute => ∀ name, Denied (acquireNodeForName parent name user fs)
  | .read => True

/-- `permission` is enforced on the directory `parent`, whose inode is `value`:
what needs it is refused to a user whose permission class lacks it, and the
check of SerenaFS agrees with the one of the inode. -/
def Enforced (fs : SerenaFS) (parent : InodeRef) (value : Inode) (user : User)
    (permission : Permission) : Prop :=
  (¬ value.grants user permission.bit → OperationsDenied fs parent user permission) ∧
  (checkAccessLocked fs value user permission.bit.toUInt32 = none ↔
    value.checkAccess user permission.bit = none)

theorem createDirectory_readOnly {fs : SerenaFS} {parent : InodeRef} {value : Inode}
    (stored : fs.inode parent = some value) (directory : value.isDirectory = true)
    (readOnly : fs.isReadOnly = true) (name : PathComponent) (user : User)
    (permissions : FilePermissions) :
    createDirectory name parent user permissions fs = .err .EROFS fs := by
  have found : node parent fs = .ok value fs := by simp [node, stored]
  have refused : requireAccess parent user kFilePermissionWrite fs = .err .EROFS fs := by
    rw [requireAccess_eq stored, if_pos ⟨rfl, readOnly⟩]
  unfold createDirectory
  rw [Code.bind_of_ok found, if_neg (by simp [directory]), Code.bind_of_err refused]

/-- A permission is enforced exactly for the users who have it: nobody is ever
refused for a permission that is missing. -/
theorem enforced_iff {fs : SerenaFS} {parent : InodeRef} {value : Inode}
    (stored : fs.inode parent = some value) (directory : value.isDirectory = true)
    (user : User) (permission : Permission) :
    Enforced fs parent value user permission ↔
      value.grants user permission.bit ∧ ¬ (permission = .write ∧ fs.isReadOnly = true) := by
  have isWrite : permission.bit.toUInt32 = kFilePermissionWrite.toUInt32 ↔ permission = .write := by
    cases permission <;> decide
  unfold Enforced
  simp only [checkAccessLocked_eq, isWrite, Inode.checkAccess_eq_none_iff]
  by_cases readOnly : permission = .write ∧ fs.isReadOnly = true
  · obtain ⟨rfl, flag⟩ := readOnly
    simp only [flag, and_self, if_true, reduceCtorEq, false_iff, not_true_eq_false, and_false,
      iff_false, not_and, not_not]
    intro denied
    by_contra lacks
    obtain ⟨_, refused, _⟩ := denied lacks
    obtain ⟨after, outcome⟩ := refused [] 0
    rw [createDirectory_readOnly stored directory flag] at outcome
    simp at outcome
  · simp only [readOnly, if_false, true_iff, not_false_eq_true, and_true]
    constructor
    · exact fun enforced => enforced.2
    · exact fun granted => ⟨fun lacks => absurd granted lacks, granted⟩

def rootAcquired : SerenaFS := ((acquireRootNode (emptyVolume 32)).state?).getD (emptyVolume 32)

def acquiredRoot : Inode := (rootAcquired.inode 0).get (by decide +kernel)

theorem acquiredRoot_stored : rootAcquired.inode 0 = some acquiredRoot := by
  simp [acquiredRoot]

theorem enforced_for_owner :
    acquiredRoot.isDirectory = true ∧ Enforced rootAcquired 0 acquiredRoot ⟨0, 0⟩ .write := by
  have directory : acquiredRoot.isDirectory = true := by decide +kernel
  exact ⟨directory, (enforced_iff acquiredRoot_stored directory ⟨0, 0⟩ .write).mpr
    (by decide +kernel)⟩

/-- A user without write permission on the root directory creates a file in it. -/
theorem createFile_without_write_permission :
    ¬ acquiredRoot.grants ⟨1000, 1000⟩ kFilePermissionWrite ∧
      (createFile [0x61] 0 ⟨1000, 1000⟩ kOpenWrite 0x1a4 rootAcquired).value? =
        some ⟨none, some 1⟩ ∧
      ¬ Enforced rootAcquired 0 acquiredRoot ⟨1000, 1000⟩ .write := by
  refine ⟨by decide +kernel, by decide +kernel, ?_⟩
  intro enforced
  have agree := enforced.2.mp (by decide +kernel)
  revert agree
  decide +kernel

end Apollo.Serenafs
