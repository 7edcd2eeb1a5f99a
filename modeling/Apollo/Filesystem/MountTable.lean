import Apollo.Filesystem.FilesystemManager

/-!
# Consistency of the mount table

The root filesystem is mounted first and has no mounting inode, and the search
for the entry of an inode starts with the first entry of the table.  It follows
the null pointer of the root entry for every inode that it is called with.  It is
called for the inodes with a set mountpoint flag, so nothing can be looked up or
unmounted once a filesystem has been mounted at a directory.
-/

set_option autoImplicit false

namespace Apollo.Filesystem

open Lib

inductive MountCall where
  | mount (filesystem dirNode : Nat) (answers : MountAnswers)
  | unmount (filesystem dirNode : Nat) (onUnmount : Option Errno)
  deriving DecidableEq

def MountCall.code : MountCall → Code FilesystemManager Errno Unit
  | .mount filesystem dirNode answers => mountLocked filesystem (some dirNode) answers
  | .unmount filesystem dirNode onUnmount => unmountLocked filesystem dirNode onUnmount

def MountStep (manager : FilesystemManager) (call : MountCall) (after : FilesystemManager) : Prop :=
  (call.code manager).state? = some after

namespace FilesystemManager

def MountedAt (manager : FilesystemManager) (ref : Nat) (entry : Mountpoint) : Prop :=
  entry ∈ manager.mountpoints ∧ entry.mountingInode = some ref

/-- The flags and the registry agree with the table, and the search finds the entry of
every inode with a set flag. -/
structure Consistent (manager : FilesystemManager) : Prop where
  flags : ∀ ref self, manager.inode ref = some self →
    (self.isMountpoint = true ↔ ∃ entry, manager.MountedAt ref entry)
  found : ∀ ref self, manager.inode ref = some self → self.isMountpoint = true →
    ∃ entry, manager.MountedAt ref entry ∧
      copyFilesystemMountedAtNode ref manager = .ok (some entry.mountedFilesystem) manager
  registered : ∀ fsid, (manager.copyFilesystemForId fsid).isSome ↔
    ∃ entry ∈ manager.mountpoints, manager.fsid entry.mountedFilesystem = fsid

def Restores (manager : FilesystemManager) (filesystem dirNode : Nat) (answers : MountAnswers) : Prop :=
  ∀ mounted, mountLocked filesystem (some dirNode) answers manager = .ok () mounted →
    ∀ onUnmount, ∃ after, (unmountLocked filesystem dirNode onUnmount mounted).state? = some after ∧
      after.mountpoints = manager.mountpoints ∧ after.filesystems = manager.filesystems ∧
      ∀ ref, (after.inode ref).map (·.isMountpoint) = (manager.inode ref).map (·.isMountpoint)

/-- The filesystem owns the directory or is mounted already, the filesystem of the
directory is not mounted, the entry gets no memory, or `onMount` fails. -/
def Refuses (manager : FilesystemManager) (filesystem dirNode : Nat) (answers : MountAnswers) : Prop :=
  ∀ directory, manager.inode dirNode = some directory →
    directory.fsid = manager.fsid filesystem ∨
    (manager.getMountpointForFilesystemId (manager.fsid filesystem)).isSome ∨
    manager.getMountpointForFilesystemId directory.fsid = none ∨
    answers.entry = false ∨ answers.onMount.isSome

def Rooted (manager : FilesystemManager) : Prop :=
  ∃ root rest, manager.mountpoints = root :: rest ∧ root.mountingInode = none

def Flagged (manager : FilesystemManager) : Prop :=
  ∃ ref self, manager.inode ref = some self ∧ self.isMountpoint = true

def entered (manager : FilesystemManager) (filesystem dirNode : Nat) (directory : InCoreNode) (owner : Mountpoint) :
    FilesystemManager :=
  let entry : Mountpoint := ⟨filesystem, some owner.mountedFilesystem, some dirNode⟩
  { manager.setNode dirNode (some { directory with useCount := directory.useCount + 1 }) with
    rootMountpoint := if manager.mountpoints = [] then some entry else manager.rootMountpoint
    mountpoints := manager.mountpoints ++ [entry] }

def mounted (manager : FilesystemManager) (filesystem dirNode : Nat) (directory : InCoreNode)
    (owner : Mountpoint) (growth : Bool) : FilesystemManager :=
  ((manager.entered filesystem dirNode directory owner).registerFilesystem filesystem growth).setNode dirNode
    (some { directory with useCount := directory.useCount + 1, isMountpoint := true })

variable {manager : FilesystemManager} {filesystem dirNode : Nat} {answers : MountAnswers}

@[simp] theorem registerFilesystem_inode (growth : Bool) :
    (manager.registerFilesystem filesystem growth).inode = manager.inode := by
  unfold registerFilesystem
  split_ifs <;> rfl

@[simp] theorem registerFilesystem_mountpoints (growth : Bool) :
    (manager.registerFilesystem filesystem growth).mountpoints = manager.mountpoints := by
  unfold registerFilesystem
  split_ifs <;> rfl

@[simp] theorem setNode_mountpoints (ref : Nat) (value : Option InCoreNode) :
    (manager.setNode ref value).mountpoints = manager.mountpoints := rfl

@[simp] theorem entered_mountpoints (directory : InCoreNode) (owner : Mountpoint) :
    (manager.entered filesystem dirNode directory owner).mountpoints =
      manager.mountpoints ++ [⟨filesystem, some owner.mountedFilesystem, some dirNode⟩] := rfl

end FilesystemManager

variable {manager : FilesystemManager} {ref : Nat} {found : InCoreNode}

theorem node_apply
    (inCore : manager.inode ref = some found) : node ref manager = .ok found manager := by
  unfold node
  rw [inCore]

theorem setMountpoint_apply (flag : Bool)
    (inCore : manager.inode ref = some found) :
    setMountpoint ref flag manager = .ok () (manager.setNode ref (some { found with isMountpoint := flag })) :=
  Code.bind_of_ok (node_apply inCore) _

/-! ## A mount -/

section Mount
variable {manager : FilesystemManager} {filesystem dirNode : Nat} {answers : MountAnswers}
  {directory : InCoreNode}

theorem checkMount_some (filesystem : Nat) (inCore : manager.inode dirNode = some directory) :
    checkMount filesystem (some dirNode) manager =
      (if directory.fsid = manager.fsid filesystem then (Code.throw .EINVAL : Code FilesystemManager Errno _)
      else if (manager.getMountpointForFilesystemId (manager.fsid filesystem)).isSome then Code.throw .EINVAL
      else (manager.getMountpointForFilesystemId directory.fsid).elim (Code.throw .EINVAL) (pure ∘ some))
        manager := by
  change (node dirNode >>= _) manager = _
  rw [Code.bind_of_ok (node_apply inCore), Code.bind_of_ok (Code.get_apply manager)]
  cases manager.getMountpointForFilesystemId directory.fsid <;> rfl

theorem mountLocked_fault (absent : manager.inode dirNode = none) :
    mountLocked filesystem (some dirNode) answers manager = .fault := by
  refine Code.bind_of_fault (Code.bind_of_fault ?_ _) _
  unfold node
  rw [absent]

theorem mountLocked_refused (inCore : manager.inode dirNode = some directory)
    (refused : manager.Refuses filesystem dirNode answers) :
    ∃ error, mountLocked filesystem (some dirNode) answers manager = .err error manager := by
  have checked := checkMount_some filesystem inCore
  by_cases own : directory.fsid = manager.fsid filesystem
  · rw [if_pos own] at checked
    exact ⟨.EINVAL, Code.bind_of_err checked _⟩
  rw [if_neg own] at checked
  by_cases already : (manager.getMountpointForFilesystemId (manager.fsid filesystem)).isSome
  · rw [if_pos already] at checked
    exact ⟨.EINVAL, Code.bind_of_err checked _⟩
  rw [if_neg already] at checked
  cases owner : manager.getMountpointForFilesystemId directory.fsid with
  | none =>
    rw [owner] at checked
    exact ⟨.EINVAL, Code.bind_of_err checked _⟩
  | some entry =>
    rw [owner] at checked
    have passed : checkMount filesystem (some dirNode) manager = .ok (some entry) manager := checked
    unfold mountLocked
    rw [Code.bind_of_ok passed]
    rcases refused directory inCore with same | mounted | absent | noEntry | failed
    · exact absurd same own
    · exact absurd mounted already
    · rw [owner] at absent
      simp at absent
    · simp [noEntry]
    · obtain ⟨error, fails⟩ := Option.isSome_iff_exists.mp failed
      by_cases noEntry : answers.entry = false
      · simp [noEntry]
      · simp [fails, noEntry]

theorem mountLocked_accepted (inCore : manager.inode dirNode = some directory)
    (accepted : ¬ manager.Refuses filesystem dirNode answers) :
    ∃ owner, mountLocked filesystem (some dirNode) answers manager =
      .ok () (manager.mounted filesystem dirNode directory owner answers.growth) := by
  have passed : ¬ (directory.fsid = manager.fsid filesystem ∨
      (manager.getMountpointForFilesystemId (manager.fsid filesystem)).isSome ∨
      manager.getMountpointForFilesystemId directory.fsid = none ∨
      answers.entry = false ∨ answers.onMount.isSome) := by
    intro refused
    refine accepted ?_
    intro other found
    rw [inCore] at found
    rw [← Option.some.inj found]
    exact refused
  simp only [not_or, Bool.not_eq_false, Option.not_isSome_iff_eq_none] at passed
  obtain ⟨own, already, present, entry, onMount⟩ := passed
  obtain ⟨owner, found⟩ := Option.ne_none_iff_exists'.mp present
  refine ⟨owner, ?_⟩
  have checked : checkMount filesystem (some dirNode) manager = .ok (some owner) manager := by
    rw [checkMount_some filesystem inCore, if_neg own, if_neg (by simp [already]), found]
    rfl
  have reacquired : reacquireUnlockedNode dirNode manager = .ok ()
      (manager.setNode dirNode (some { directory with useCount := directory.useCount + 1 })) :=
    Code.bind_of_ok (node_apply inCore) _
  unfold mountLocked
  rw [Code.bind_of_ok checked]
  simp only [entry, onMount, Bool.not_true, Bool.false_eq_true, if_false]
  rw [Code.bind_of_ok reacquired, Code.bind_of_ok (Code.modify_apply _ _), Code.bind_of_ok (Code.modify_apply _ _)]
  have inTable : ((manager.entered filesystem dirNode directory owner).registerFilesystem filesystem
      answers.growth).inode dirNode = some { directory with useCount := directory.useCount + 1 } := by
    rw [FilesystemManager.registerFilesystem_inode]
    exact Function.update_self _ _ _
  exact setMountpoint_apply true inTable

end Mount

/-! ## Lookups in a table with a root entry -/

section Rooted
variable {manager : FilesystemManager} {ref : Nat} {self : InCoreNode}

theorem getMountpointForInode_fault (rooted : manager.Rooted) (inCore : manager.inode ref = some self) :
    getMountpointForInode ref manager = .fault := by
  obtain ⟨root, rest, table, noInode⟩ := rooted
  unfold getMountpointForInode
  rw [Code.bind_of_ok (node_apply inCore), Code.bind_of_ok (Code.get_apply manager), table, findMountpoint,
    noInode]
  rfl

theorem copyFilesystemMountedAtNode_fault (rooted : manager.Rooted) (inCore : manager.inode ref = some self)
    (flag : self.isMountpoint = true) : copyFilesystemMountedAtNode ref manager = .fault := by
  unfold copyFilesystemMountedAtNode
  rw [Code.bind_of_ok (node_apply inCore), if_pos flag]
  exact Code.bind_of_fault (getMountpointForInode_fault rooted inCore) _

theorem unmountLocked_fault (rooted : manager.Rooted) (inCore : manager.inode ref = some self)
    (flag : self.isMountpoint = true) (filesystem : Nat) (onUnmount : Option Errno) :
    unmountLocked filesystem ref onUnmount manager = .fault := by
  unfold unmountLocked
  rw [Code.bind_of_ok (node_apply inCore), if_pos flag]
  exact Code.bind_of_fault (getMountpointForInode_fault rooted inCore) _

theorem unmountLocked_unflagged (inCore : manager.inode ref = some self) (flag : self.isMountpoint = false)
    (filesystem : Nat) (onUnmount : Option Errno) :
    unmountLocked filesystem ref onUnmount manager = .err .EINVAL manager := by
  unfold unmountLocked
  rw [Code.bind_of_ok (node_apply inCore), flag]
  rfl

theorem not_consistent_of_flagged (rooted : manager.Rooted) (flagged : manager.Flagged) :
    ¬ manager.Consistent := by
  intro consistent
  obtain ⟨ref, self, inCore, flag⟩ := flagged
  obtain ⟨entry, -, found⟩ := consistent.found ref self inCore flag
  rw [copyFilesystemMountedAtNode_fault rooted inCore flag] at found
  simp at found

end Rooted

/-! ## What a step does -/

section Step
variable {manager after : FilesystemManager} {call : MountCall}

def MountCall.Refused (manager : FilesystemManager) : MountCall → Prop
  | .mount filesystem dirNode answers => manager.Refuses filesystem dirNode answers
  | .unmount _ _ _ => True

def RefusedStep (manager : FilesystemManager) (call : MountCall) (after : FilesystemManager) : Prop :=
  MountStep manager call after ∧ call.Refused manager

variable {filesystem dirNode : Nat} {directory : InCoreNode} {growth : Bool}

theorem mounted_flagged {owner : Mountpoint} :
    (manager.mounted filesystem dirNode directory owner growth).inode dirNode =
      some { directory with useCount := directory.useCount + 1, isMountpoint := true } :=
  Function.update_self _ _ _

theorem FilesystemManager.Rooted.mounted (rooted : manager.Rooted)
    {owner : Mountpoint} :
    (manager.mounted filesystem dirNode directory owner growth).Rooted := by
  obtain ⟨root, rest, table, noInode⟩ := rooted
  refine ⟨root, rest ++ [⟨filesystem, some owner.mountedFilesystem, some dirNode⟩], ?_, noInode⟩
  unfold FilesystemManager.mounted
  rw [FilesystemManager.setNode_mountpoints, FilesystemManager.registerFilesystem_mountpoints,
    FilesystemManager.entered_mountpoints, table]
  rfl

theorem mountStep_cases (rooted : manager.Rooted) (step : MountStep manager call after) :
    (after = manager ∧ call.Refused manager) ∨ (¬ call.Refused manager ∧ after.Rooted ∧ after.Flagged) := by
  cases call with
  | mount filesystem dirNode answers =>
    change (mountLocked filesystem (some dirNode) answers manager).state? = some after at step
    cases inCore : manager.inode dirNode with
    | none =>
      rw [mountLocked_fault inCore] at step
      simp [Outcome.state?] at step
    | some directory =>
      by_cases refused : manager.Refuses filesystem dirNode answers
      · obtain ⟨error, returns⟩ := mountLocked_refused inCore refused
        rw [returns] at step
        exact .inl ⟨(Option.some.inj step).symm, refused⟩
      · obtain ⟨owner, returns⟩ := mountLocked_accepted inCore refused
        rw [returns] at step
        rw [← Option.some.inj step]
        exact .inr ⟨refused, rooted.mounted, dirNode, _, mounted_flagged, rfl⟩
  | unmount filesystem dirNode onUnmount =>
    change (unmountLocked filesystem dirNode onUnmount manager).state? = some after at step
    cases inCore : manager.inode dirNode with
    | none =>
      have stops : unmountLocked filesystem dirNode onUnmount manager = .fault := by
        refine Code.bind_of_fault ?_ _
        unfold node
        rw [inCore]
      rw [stops] at step
      simp [Outcome.state?] at step
    | some directory =>
      cases flag : directory.isMountpoint with
      | true =>
        rw [unmountLocked_fault rooted inCore flag] at step
        simp [Outcome.state?] at step
      | false =>
        rw [unmountLocked_unflagged inCore flag] at step
        exact .inl ⟨(Option.some.inj step).symm, trivial⟩

end Step

/-! ## Runs -/

section Runs
variable {rootFilesystem : Nat} {fsid : Nat → Nat} {inode : Nat → Option InCoreNode} {initial : Bool}
  {answers : MountAnswers} {start sys : FilesystemManager} {calls : List MountCall}

theorem create_start (created : create rootFilesystem fsid inode initial answers = .ok () start) :
    start.mountpoints = [⟨rootFilesystem, none, none⟩] ∧ start.inode = inode ∧ start.fsid = fsid ∧
      start.filesystems = if initial || answers.growth then [rootFilesystem] else [] := by
  have checked (manager : FilesystemManager) : checkMount rootFilesystem none manager = .ok none manager := rfl
  unfold create mountLocked at created
  rw [Code.bind_of_ok (checked _)] at created
  cases entry : answers.entry with
  | false => simp [entry] at created
  | true =>
    cases onMount : answers.onMount with
    | some error => simp [entry, onMount] at created
    | none =>
      simp only [entry, onMount, Bool.not_true, Bool.false_eq_true, if_false] at created
      rw [Code.bind_of_ok (Code.modify_apply _ _), Code.bind_of_ok (Code.modify_apply _ _)] at created
      simp only [Code.pure_apply, Outcome.ok.injEq, true_and] at created
      rw [← created]
      cases initial <;> cases answers.growth <;> simp [FilesystemManager.registerFilesystem]

theorem create_rooted (created : create rootFilesystem fsid inode initial answers = .ok () start) :
    start.Rooted :=
  ⟨_, [], (create_start created).1, rfl⟩

theorem refused_runs_unchanged (rooted : start.Rooted) (run : Runs RefusedStep start calls sys) : sys = start := by
  refine run.invariant (fun manager => manager = start) rfl ?_
  intro call manager after same step
  rw [same] at step
  rcases mountStep_cases rooted step.1 with ⟨unchanged, -⟩ | ⟨accepted, -⟩
  · exact unchanged
  · exact absurd step.2 accepted

/-- A run with a mount that is not refused leaves an inode with a set flag behind. -/
theorem runs_cases (rooted : start.Rooted) (run : Runs MountStep start calls sys) :
    sys.Rooted ∧ (Runs RefusedStep start calls sys ∨ sys.Flagged) := by
  induction run with
  | nil => exact ⟨rooted, .inl .nil⟩
  | step run taken ih =>
    obtain ⟨before, cases⟩ := ih
    rcases mountStep_cases before taken with ⟨unchanged, refused⟩ | ⟨-, after, flagged⟩
    · rw [unchanged] at taken ⊢
      refine ⟨before, ?_⟩
      rcases cases with refusedRun | flagged
      · exact .inl (.step refusedRun ⟨taken, refused⟩)
      · exact .inr flagged
    · exact ⟨after, .inr flagged⟩

theorem start_consistent (created : create rootFilesystem fsid inode initial answers = .ok () start)
    (clear : ∀ ref self, inode ref = some self → self.isMountpoint = false)
    (memory : (initial || answers.growth) = true) : start.Consistent := by
  obtain ⟨table, inodes, -, registry⟩ := create_start created
  rw [if_pos memory] at registry
  have unflagged : ∀ ref self, start.inode ref = some self → self.isMountpoint = false := by
    rw [inodes]
    exact clear
  refine ⟨?_, ?_, ?_⟩
  · intro ref self inCore
    rw [unflagged ref self inCore]
    refine iff_of_false Bool.false_ne_true ?_
    rintro ⟨entry, member, mounting⟩
    rw [table, List.mem_singleton] at member
    rw [member] at mounting
    simp at mounting
  · intro ref self inCore flag
    rw [unflagged ref self inCore] at flag
    exact absurd flag Bool.false_ne_true
  · unfold FilesystemManager.copyFilesystemForId FilesystemManager.getFilesystemForId
    rw [registry, table]
    simp

theorem mounted_not_restored {filesystem dirNode : Nat} {next : MountAnswers} (rooted : sys.Rooted)
    (accepted : ¬ sys.Refuses filesystem dirNode next) : ¬ sys.Restores filesystem dirNode next := by
  intro restores
  cases inCore : sys.inode dirNode with
  | none =>
    refine accepted ?_
    intro directory found
    rw [inCore] at found
    simp at found
  | some directory =>
    obtain ⟨owner, returns⟩ := mountLocked_accepted inCore accepted
    obtain ⟨after, unmounts, -⟩ := restores _ returns none
    rw [unmountLocked_fault rooted.mounted mounted_flagged rfl] at unmounts
    simp [Outcome.state?] at unmounts

theorem refused_restores {filesystem dirNode : Nat} {next : MountAnswers}
    (refused : sys.Refuses filesystem dirNode next) : sys.Restores filesystem dirNode next := by
  intro mounted returns
  cases inCore : sys.inode dirNode with
  | none =>
    rw [mountLocked_fault inCore] at returns
    simp at returns
  | some directory =>
    obtain ⟨error, fails⟩ := mountLocked_refused inCore refused
    rw [fails] at returns
    simp at returns

/-- The table is consistent behind a run, and the next mount can be undone, exactly when
no mount of the run got through and the next one does not get through either; the array
of filesystems must also have got memory for the root filesystem. -/
theorem mountTable_consistent_iff (created : create rootFilesystem fsid inode initial answers = .ok () start)
    (clear : ∀ ref self, inode ref = some self → self.isMountpoint = false)
    (run : Runs MountStep start calls sys) (filesystem dirNode : Nat) (next : MountAnswers) :
    (sys.Consistent ∧ sys.Restores filesystem dirNode next) ↔
      (initial || answers.growth) = true ∧ Runs RefusedStep start calls sys ∧
        sys.Refuses filesystem dirNode next := by
  have startRooted := create_rooted created
  obtain ⟨rooted, cases⟩ := runs_cases startRooted run
  constructor
  · rintro ⟨consistent, restores⟩
    have refusedRun : Runs RefusedStep start calls sys := by
      rcases cases with refusedRun | flagged
      · exact refusedRun
      · exact absurd consistent (not_consistent_of_flagged rooted flagged)
    refine ⟨?_, refusedRun, ?_⟩
    · by_contra noMemory
      obtain ⟨table, -, -, registry⟩ := create_start created
      rw [if_neg noMemory] at registry
      rw [refused_runs_unchanged startRooted refusedRun] at consistent
      have rootEntry : ⟨rootFilesystem, none, none⟩ ∈ start.mountpoints := by
        rw [table]
        exact List.mem_singleton_self _
      have found := (consistent.registered (start.fsid rootFilesystem)).mpr ⟨_, rootEntry, rfl⟩
      unfold FilesystemManager.copyFilesystemForId FilesystemManager.getFilesystemForId at found
      rw [registry] at found
      simp at found
    · by_contra accepted
      exact mounted_not_restored rooted accepted restores
  · rintro ⟨memory, refusedRun, refused⟩
    refine ⟨?_, refused_restores refused⟩
    rw [refused_runs_unchanged startRooted refusedRun]
    exact start_consistent created clear memory

end Runs

def oneDirectory : Nat → Option InCoreNode
  | 0 => some ⟨1, 2, 1, 1, false, false⟩
  | _ => none

def available : MountAnswers := ⟨true, none, true⟩

def booted : FilesystemManager := ⟨[1], 4, [⟨1, none, none⟩], some ⟨1, none, none⟩, id, oneDirectory⟩

theorem oneDirectory_clear : ∀ ref self, oneDirectory ref = some self → self.isMountpoint = false := by
  intro ref self inCore
  cases ref with
  | zero =>
    rw [← Option.some.inj inCore]
  | succ ref => simp [oneDirectory] at inCore

/-- Two filesystems are refused: the root filesystem itself and one without memory for
its bitmap. -/
theorem refusedMounts_consistent :
    ∃ start, create 1 id oneDirectory true available = .ok () start ∧
      start.Consistent ∧ start.Restores 2 0 ⟨true, some .ENOMEM, true⟩ := by
  have created : create 1 id oneDirectory true available = .ok () booted := rfl
  have step : RefusedStep booted (.mount 1 0 available) booted := by
    refine ⟨rfl, ?_⟩
    intro directory inCore
    rw [← Option.some.inj inCore]
    exact .inl rfl
  have run : Runs RefusedStep booted [.mount 1 0 available] booted := .step .nil step
  have refused : booted.Refuses 2 0 ⟨true, some .ENOMEM, true⟩ := by
    intro directory inCore
    exact .inr (.inr (.inr (.inr rfl)))
  refine ⟨booted, created, ?_⟩
  exact (mountTable_consistent_iff created oneDirectory_clear (run.mono fun _ _ _ step => step.1) 2 0 _).mpr
    ⟨rfl, run, refused⟩

/-- The mount succeeds, and neither the lookup nor the unmount of the filesystem returns. -/
theorem mountedDirectory_faults :
    ∃ start sys, create 1 id oneDirectory true available = .ok () start ∧
      (∀ ref self, oneDirectory ref = some self → self.isMountpoint = false) ∧
      mountLocked 2 (some 0) available start = .ok () sys ∧
      copyFilesystemMountedAtNode 0 sys = .fault ∧ unmountLocked 2 0 none sys = .fault ∧
      ¬ sys.Consistent ∧ ¬ start.Restores 2 0 available := by
  have created : create 1 id oneDirectory true available = .ok () booted := rfl
  have rooted := create_rooted created
  have accepted : ¬ booted.Refuses 2 0 available := by
    intro refused
    have cases := refused ⟨1, 2, 1, 1, false, false⟩ rfl
    revert cases
    decide
  have inCore : booted.inode 0 = some ⟨1, 2, 1, 1, false, false⟩ := rfl
  obtain ⟨owner, mounts⟩ := mountLocked_accepted inCore accepted
  refine ⟨booted, _, created, oneDirectory_clear, mounts, ?_, ?_, ?_, mounted_not_restored rooted accepted⟩
  · exact copyFilesystemMountedAtNode_fault rooted.mounted mounted_flagged rfl
  · exact unmountLocked_fault rooted.mounted mounted_flagged rfl 2 none
  · exact not_consistent_of_flagged rooted.mounted ⟨0, _, mounted_flagged, rfl⟩

end Apollo.Filesystem
