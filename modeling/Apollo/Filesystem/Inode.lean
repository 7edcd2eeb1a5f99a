import Apollo.Lib.Code
import Mathlib.Data.Fin.Basic

/-!
# Inodes, users and permissions

The in-core inode of `Inode.h` with the block map that SerenaFS keeps behind
its `refcon` pointer, and the permission check of `Inode.c`.  The three
time-stamp flags and the mountpoint flag are separate Booleans here; in the
source they are the bits of one byte.
-/

set_option autoImplicit false

namespace Apollo

/-- The error codes of `System/_errno.h`; `EOK` is a call that returns.  `EIOError` is
`EIO`. -/
inductive Errno where
  | ENOMEM | ENOMEDIUM | EDISKCHANGE | ETIMEDOUT | ENODEV | ERANGE | EINTR | EAGAIN
  | EWOULDBLOCK | EPIPE | EBUSY | ENOSYS | EINVAL | EIOError | EPERM | EDEADLK | EDOM
  | ENOEXEC | E2BIG | ENOENT | ENOTBLK | EBADF | ECHILD | ESRCH | ESPIPE | ENOTDIR
  | ENAMETOOLONG | EACCESS | EROFS | ENOSPC | EEXIST | EOVERFLOW | EFBIG | EISDIR
  | ENOTIOCTLCMD | EILSEQ
  deriving DecidableEq, Repr

structure User where
  uid : UInt32
  gid : UInt32
  deriving DecidableEq, Repr

structure TimeInterval where
  tvSec : Int
  tvNsec : Int
  deriving DecidableEq, Repr

/-- The type byte of a node.  The kernel knows two values; a disk may hold any. -/
inductive FileType where
  | regularFile
  | directory
  | unknown (code : Fin 254)
  deriving DecidableEq, Repr

/-! ## File permissions -/

abbrev FilePermissions : Type := UInt16

def kFilePermissionRead : FilePermissions := 0x04
def kFilePermissionWrite : FilePermissions := 0x02
def kFilePermissionExecute : FilePermissions := 0x01

def FilePermissions.make (user group other : FilePermissions) : FilePermissions :=
  ((user &&& 0x07) <<< 6) ||| ((group &&& 0x07) <<< 3) ||| ((other &&& 0x07) <<< 0)

/-- `FilePermissions_Has`: every bit of `permission` is set in the scope that
starts at bit `scope`. -/
def FilePermissions.has (permissions : FilePermissions) (scope permission : UInt16) : Bool :=
  ((permissions >>> scope) &&& 0x07) &&& permission == permission

def kAccessReadable : UInt32 := 1
def kAccessWritable : UInt32 := 2
def kAccessExecutable : UInt32 := 4

def kOpenRead : UInt32 := 0x0001
def kOpenWrite : UInt32 := 0x0002
def kOpenReadWrite : UInt32 := kOpenRead ||| kOpenWrite
def kOpenAppend : UInt32 := 0x0004
def kOpenExclusive : UInt32 := 0x0008
def kOpenTruncate : UInt32 := 0x0010

/-! ## The in-core inode -/

def kSFSMaxDirectDataBlockPointers : Nat := 114

/-- `SFSBlockMap`: the blocks of a file in file order; 0 where there is none. -/
abbrev BlockMap : Type := Fin kSFSMaxDirectDataBlockPointers → Nat

def BlockMap.empty : BlockMap := fun _ => 0

structure Inode where
  accessTime : TimeInterval
  modificationTime : TimeInterval
  statusChangeTime : TimeInterval
  size : Int
  inid : Nat
  useCount : Int
  linkCount : Int
  type : FileType
  isMountpoint : Bool
  accessed : Bool
  updated : Bool
  statusChanged : Bool
  permissions : FilePermissions
  uid : UInt32
  gid : UInt32
  blockMap : BlockMap

namespace Inode

def isModified (node : Inode) : Bool := node.accessed || node.updated || node.statusChanged

def clearModified (node : Inode) : Inode :=
  { node with accessed := false, updated := false, statusChanged := false }

/-- `Inode_SetModified(node, kInodeFlag_Updated | kInodeFlag_StatusChanged)`. -/
def setUpdated (node : Inode) : Inode := { node with updated := true, statusChanged := true }

def isDirectory (node : Inode) : Bool := node.type == .directory

def isRegularFile (node : Inode) : Bool := node.type == .regularFile

/-- `Inode_CheckAccess`: `none` is `EOK`. -/
def checkAccess (node : Inode) (user : User) (permission : FilePermissions) : Option Errno :=
  let reqPerms :=
    if node.uid = user.uid then FilePermissions.make permission 0 0
    else if node.gid = user.gid then FilePermissions.make 0 permission 0
    else FilePermissions.make 0 0 permission
  if node.permissions &&& reqPerms = reqPerms then none else some .EACCESS

/-- The scope of the permission class that applies to the user: owner, else
group, else other. -/
def scopeFor (node : Inode) (user : User) : UInt16 :=
  if node.uid = user.uid then 6 else if node.gid = user.gid then 3 else 0

/-- The permission class that applies to the user grants `permission`. -/
def grants (node : Inode) (user : User) (permission : FilePermissions) : Prop :=
  node.permissions.has (node.scopeFor user) permission = true

instance (node : Inode) (user : User) (permission : FilePermissions) :
    Decidable (node.grants user permission) :=
  inferInstanceAs (Decidable (_ = true))

end Inode

/-! ## What the check decides -/

inductive Permission where
  | read
  | write
  | execute
  deriving DecidableEq, Repr

def Permission.bit : Permission → FilePermissions
  | .read => kFilePermissionRead
  | .write => kFilePermissionWrite
  | .execute => kFilePermissionExecute

def Permission.index : Permission → Nat
  | .read => 2
  | .write => 1
  | .execute => 0

theorem and_eq_mask_iff (word mask : UInt16) (index : Nat) (bound : index < 16)
    (isBit : mask.toBitVec = BitVec.twoPow 16 index) :
    word &&& mask = mask ↔ word.toBitVec.getLsbD index = true := by
  rw [← UInt16.toBitVec_inj, UInt16.toBitVec_and, isBit, BitVec.and_twoPow]
  cases set : word.toBitVec.getLsbD index with
  | true => simp
  | false =>
    have different : (0#16) ≠ BitVec.twoPow 16 index := by
      intro same
      have bits := congrArg (fun bits : BitVec 16 => bits.getLsbD index) same
      simp [bound] at bits
    simpa using different

theorem FilePermissions.has_bit_iff (permissions scope : UInt16) (permission : Permission)
    (bound : scope.toNat < 13) :
    FilePermissions.has permissions scope permission.bit = true ↔
      permissions.toBitVec.getLsbD (scope.toNat + permission.index) = true := by
  have isBit : permission.bit.toBitVec = BitVec.twoPow 16 permission.index := by
    cases permission <;> rfl
  have small : permission.index < 3 := by cases permission <;> decide
  have inMask : (UInt16.toBitVec 7).getLsbD permission.index = true := by
    cases permission <;> rfl
  have shift : (scope.toBitVec % 16).toNat = scope.toNat := by
    exact Nat.mod_eq_of_lt (by show scope.toNat < 16; omega)
  unfold FilePermissions.has
  rw [beq_iff_eq, and_eq_mask_iff _ _ permission.index (by omega) isBit, UInt16.toBitVec_and,
    BitVec.getLsbD_and, inMask, Bool.and_true, UInt16.toBitVec_shiftRight,
    BitVec.ushiftRight_eq', BitVec.getLsbD_ushiftRight, shift]

/-- On a permission of a single scope the check of `Inode.c` is exactly the
test of the class that applies to the user. -/
theorem Inode.checkAccess_eq_none_iff (node : Inode) (user : User) (permission : Permission) :
    node.checkAccess user permission.bit = none ↔ node.grants user permission.bit := by
  have scopeBound : (node.scopeFor user).toNat < 13 := by
    unfold Inode.scopeFor
    split_ifs <;> decide
  unfold Inode.grants
  rw [FilePermissions.has_bit_iff _ _ _ scopeBound]
  unfold Inode.checkAccess Inode.scopeFor
  simp only [ite_eq_left_iff, reduceCtorEq, imp_false, not_not]
  split_ifs with owner group
  · exact and_eq_mask_iff _ _ _ (by cases permission <;> decide) (by cases permission <;> rfl)
  · exact and_eq_mask_iff _ _ _ (by cases permission <;> decide) (by cases permission <;> rfl)
  · exact and_eq_mask_iff _ _ _ (by cases permission <;> decide) (by cases permission <;> rfl)

end Apollo
