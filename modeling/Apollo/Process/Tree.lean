import Apollo.Filesystem.Inode
import Apollo.Lib.Runs

/-!
# The tree of processes

How processes are spawned, how they terminate and how their parents learn about
it: `Process_Spawn.c`, `Process_Terminate.c` and the list of `ProcessManager.c`.
A step is what one virtual processor does between two moments at which another
one could see a difference: a gate that is passed, a section under the lock of a
process, a look into the list of the process manager.  The steps of different
processes may come in any order.

A spawn holds the lock of the parent until the child is registered; `spawning`
has the child while it does.  The memory for tombstones, tables and closures is
taken to be there.  `calls` lists the calls of `Process_Terminate` and `record`
the tombstones with those who got them, newest last; no code reads them.
-/

set_option autoImplicit false

namespace Apollo.Process

open Lib

/-- `AtomicInt_Increment` makes the process identifiers from 1 on, less than 2 ^ 31 of them. -/
abbrev Pid : Type := Nat

def rootPid : Pid := 1

structure Status where
  pid : Pid
  status : Int
  deriving DecidableEq

/-- Where a caller of `Process_WaitForTerminationOfChild` is: in front of its `Lock_Lock`, on the
condition variable, or woken up and in front of the lock again. -/
inductive Place
  | entering
  | asleep
  | signalled
  deriving DecidableEq

inductive Stage
  /-- It has been adopted, but its executable does not run yet. -/
  | embryo
  | alive
  /-- A call of `Process_Terminate` has passed the gate with this exit code. -/
  | marked (exitCode : Int)
  /-- `_Process_DoTerminate` has been dispatched. -/
  | scheduled
  /-- Its main dispatch queue, the only one here, is terminated; it looks for a child. -/
  | collecting
  | killing (child : Pid)
  | awaiting (child : Pid) (place : Place)
  /-- It has no children left. -/
  | reporting
  /-- The receiver has not refused its tombstone. -/
  | depositing (receiver : Pid)
  | reported
  /-- `_Process_DoTerminate` has returned. -/
  | gone
  /-- It has used a process that the process manager did not find. -/
  | faulted
  deriving DecidableEq

namespace Stage

def isTerminating : Stage → Bool
  | .embryo | .alive => false
  | _ => true

def runs : Stage → Bool
  | .alive | .marked _ | .scheduled => true
  | _ => false

/-- The tombstone is with its receiver, or nobody wanted it. -/
def isReported : Stage → Bool
  | .reported | .gone => true
  | _ => false

def wake : Stage → Stage
  | .awaiting child .asleep => .awaiting child .signalled
  | stage => stage

def exitCode? : Stage → Option Int
  | .marked exitCode => some exitCode
  | _ => none

def victim? : Stage → Option Pid
  | .killing child => some child
  | _ => none

def awaited? : Stage → Option Pid
  | .awaiting child .entering | .awaiting child .signalled => some child
  | _ => none

def receiver? : Stage → Option Pid
  | .depositing receiver => some receiver
  | _ => none

end Stage

structure Proc where
  ppid : Pid
  stage : Stage
  exitCode : Int
  isRegistered : Bool
  childPids : List Pid
  tombstones : List Status
  spawning : Option Pid
  deriving DecidableEq

inductive WaitState
  | waiting (place : Place)
  | collected (status : Status)
  | refused (err : Errno)
  deriving DecidableEq

def WaitState.isWaiting : WaitState → Bool
  | .waiting _ => true
  | .collected _ | .refused _ => false

/-- A call of `Process_WaitForTerminationOfChild` by a virtual processor of the process. -/
structure WaitCall where
  process : Pid
  pid : Int
  state : WaitState
  deriving DecidableEq

def WaitCall.wake (pid : Pid) (call : WaitCall) : WaitCall :=
  if call.process = pid ∧ call.state = .waiting .asleep then { call with state := .waiting .signalled } else call

structure Tree where
  procs : Pid → Option Proc
  nextPid : Pid
  waits : List WaitCall
  calls : List (Pid × Int)
  record : List (Pid × Status)

/-- What `_Process_DoTerminate` does with the result of `Process_GetAnyChildPid`. -/
def Proc.anyChild (proc : Proc) : Stage :=
  match proc.childPids.head? with
  | some child => .killing child
  | none => .reporting

/-! ## Looking for a tombstone -/

/-- The tombstone that a wait for `pid` takes. -/
def Proc.tombstoneFor (proc : Proc) (pid : Int) : Option Status :=
  if pid = -1 then proc.tombstones.head? else proc.tombstones.find? fun status => (status.pid : Int) = pid

/-- A section of `Process_WaitForTerminationOfChild`; the state of the call behind it. -/
def Proc.look (proc : Proc) (pid : Int) (entering : Bool) : WaitState :=
  if entering ∧ pid = -1 ∧ proc.tombstones = [] then .refused .ECHILD
  else
    match proc.tombstoneFor pid with
    | some status => .collected status
    | none =>
      if pid ≠ -1 ∧ ¬(∃ child ∈ proc.childPids, (child : Int) = pid) then .refused .ECHILD
      else .waiting .asleep

/-- `List_Remove` of the tombstone that was found. -/
def Proc.without (proc : Proc) : WaitState → Proc
  | .collected status => { proc with tombstones := proc.tombstones.erase status }
  | .waiting _ | .refused _ => proc

namespace Tree

def setProc (tree : Tree) (pid : Pid) (proc : Proc) : Tree :=
  { tree with procs := Function.update tree.procs pid (some proc) }

def copyProcessForPid (tree : Tree) (pid : Pid) : Option Proc := (tree.procs pid).filter (·.isRegistered)

/-- `Process_Create` of a child and `Process_AdoptChild_Locked`. -/
def adopt (tree : Tree) (pid : Pid) (proc : Proc) : Tree :=
  let childPid := tree.nextPid
  let tree := tree.setProc pid { proc with childPids := proc.childPids ++ [childPid], spawning := some childPid }
  let tree := tree.setProc childPid ⟨pid, .embryo, 0, false, [], [], none⟩
  { tree with nextPid := childPid + 1 }

def abandon (tree : Tree) (pid : Pid) (proc : Proc) (childPid : Pid) : Tree :=
  let tree := tree.setProc pid { proc with childPids := proc.childPids.erase childPid, spawning := none }
  { tree with procs := Function.update tree.procs childPid none }

/-- `Process_Terminate` up to its gate; whoever passes it goes on with `commit`. -/
def terminate (tree : Tree) (pid : Pid) (proc : Proc) (exitCode : Int) : Tree :=
  let tree := { tree with calls := tree.calls ++ [(pid, exitCode)] }
  if proc.stage.isTerminating then tree else tree.setProc pid { proc with stage := .marked exitCode }

/-- `Process_OnChildDidTerminate` behind its check. -/
def onChildDidTerminate (tree : Tree) (receiver : Pid) (proc : Proc) (status : Status) : Tree :=
  let tree := tree.setProc receiver { proc with
    childPids := proc.childPids.erase status.pid
    tombstones := proc.tombstones ++ [status]
    stage := proc.stage.wake }
  { tree with waits := tree.waits.map (·.wake receiver), record := tree.record ++ [(receiver, status)] }

end Tree

/-! ## Steps -/

inductive Action
  /-- `Process_SpawnChildProcess` of the process up to `Process_AdoptChild_Locked`. -/
  | spawn (pid : Pid)
  /-- `Process_Exec_Locked` has succeeded: the child runs. -/
  | exec (pid : Pid)
  /-- The child is registered, and the spawn returns. -/
  | register (pid : Pid)
  /-- The spawn returns with an error. -/
  | fail (pid : Pid)
  /-- `Process_Terminate` of the process. -/
  | terminate (pid : Pid) (exitCode : Int)
  | commit (pid : Pid)
  /-- The dispatch queues of the process are terminated. -/
  | drain (pid : Pid)
  /-- `Process_GetAnyChildPid`. -/
  | pick (pid : Pid)
  | kill (pid : Pid)
  /-- A section of the wait in `_Process_DoTerminate`. -/
  | await (pid : Pid)
  /-- The look for the parent and the check of `Process_OnChildDidTerminate`. -/
  | report (pid : Pid)
  | deposit (pid : Pid)
  | unregister (pid : Pid)
  | wait (pid : Pid) (target : Int)
  | runWait (index : Nat)
  | interruptWait (index : Nat)
  deriving DecidableEq

def Tree.perform (tree : Tree) : Action → Option Tree
  | .spawn pid => do
      let proc ← tree.procs pid
      if proc.stage.runs = true ∧ proc.spawning = none then
        some (tree.adopt pid proc)
      else none
  | .exec pid => do
      let proc ← tree.procs pid
      let childPid ← proc.spawning
      let child ← tree.procs childPid
      if child.stage = .embryo then some (tree.setProc childPid { child with stage := .alive }) else none
  | .register pid => do
      let proc ← tree.procs pid
      let childPid ← proc.spawning
      let child ← tree.procs childPid
      if child.stage ≠ .embryo then
        some ((tree.setProc pid { proc with spawning := none }).setProc childPid { child with isRegistered := true })
      else none
  | .fail pid => do
      let proc ← tree.procs pid
      let childPid ← proc.spawning
      let child ← tree.procs childPid
      if child.stage = .embryo then some (tree.abandon pid proc childPid) else none
  | .terminate pid exitCode => do
      let proc ← tree.procs pid
      if pid ≠ rootPid ∧ proc.stage ≠ .embryo then some (tree.terminate pid proc exitCode) else none
  | .commit pid => do
      let proc ← tree.procs pid
      let exitCode ← proc.stage.exitCode?
      some (tree.setProc pid { proc with exitCode := exitCode, stage := .scheduled })
  | .drain pid => do
      let proc ← tree.procs pid
      if proc.stage = .scheduled ∧ proc.spawning = none ∧
          ∀ call ∈ tree.waits, call.process = pid → call.state.isWaiting = false then
        some (tree.setProc pid { proc with stage := .collecting })
      else none
  | .pick pid => do
      let proc ← tree.procs pid
      if proc.stage = .collecting then some (tree.setProc pid { proc with stage := proc.anyChild }) else none
  | .kill pid => do
      let proc ← tree.procs pid
      let childPid ← proc.stage.victim?
      match tree.copyProcessForPid childPid with
      | some child => some ((tree.terminate childPid child 0).setProc pid { proc with stage := .awaiting childPid .entering })
      | none => some (tree.setProc pid { proc with stage := .faulted })
  | .await pid => do
      let proc ← tree.procs pid
      let childPid ← proc.stage.awaited?
      let state := proc.look childPid false
      let stage := if state = .waiting .asleep then .awaiting childPid .asleep else .collecting
      some (tree.setProc pid { proc.without state with stage := stage })
  | .report pid => do
      let proc ← tree.procs pid
      if proc.stage = .reporting then
        match tree.copyProcessForPid proc.ppid with
        | some parent =>
          let receiver := if parent.stage.isTerminating then rootPid else proc.ppid
          some (tree.setProc pid { proc with stage := .depositing receiver })
        | none => some (tree.setProc pid { proc with stage := .reported })
      else none
  | .deposit pid => do
      let proc ← tree.procs pid
      let receiver ← proc.stage.receiver?
      let other ← tree.procs receiver
      if other.spawning = none ∧ receiver ≠ pid then
        some ((tree.onChildDidTerminate receiver other ⟨pid, proc.exitCode⟩).setProc pid { proc with stage := .reported })
      else none
  | .unregister pid => do
      let proc ← tree.procs pid
      if proc.stage = .reported then some (tree.setProc pid { proc with stage := .gone, isRegistered := false }) else none
  | .wait pid target => do
      let proc ← tree.procs pid
      if proc.stage.runs = true then some { tree with waits := tree.waits ++ [⟨pid, target, .waiting .entering⟩] } else none
  | .runWait index => do
      let call ← tree.waits[index]?
      let proc ← tree.procs call.process
      if proc.spawning = none ∧ (call.state = .waiting .entering ∨ call.state = .waiting .signalled) then
        let state := proc.look call.pid (call.state = .waiting .entering)
        some { tree.setProc call.process (proc.without state) with waits := tree.waits.set index { call with state := state } }
      else none
  | .interruptWait index => do
      let call ← tree.waits[index]?
      let proc ← tree.procs call.process
      if proc.stage.isTerminating = true ∧ call.state = .waiting .asleep then
        some { tree with waits := tree.waits.set index { call with state := .refused .EINTR } }
      else none

def Tree.init : Tree :=
  ⟨fun pid => if pid = rootPid then some ⟨rootPid, .alive, 0, true, [], [], none⟩ else none, rootPid + 1, [], [], []⟩

end Apollo.Process
