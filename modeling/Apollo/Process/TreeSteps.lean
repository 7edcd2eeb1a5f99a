import Apollo.Process.Tree

/-!
# Steps of the tree of processes

What an enabled step is, with the processes it is about, and what holds between
the steps: who is listed with whom as a child, which exit code a process has, and
where the tombstones are.

A child that ends while its parent terminates, or before its parent is registered,
is lost to its parent.  `strict` tells which runs are meant: those in which every
report finds a parent that is registered and does not terminate, or those in which
it finds one that is registered.
-/

set_option autoImplicit false

namespace Apollo.Process

open Lib

/-! ## The steps one by one -/

inductive Effect (tree : Tree) : Action → Tree → Prop
  | spawn {pid : Pid} {proc : Proc} (found : tree.procs pid = some proc) (runs : proc.stage.runs = true)
      (free : proc.spawning = none) : Effect tree (.spawn pid) (tree.adopt pid proc)
  | exec {pid childPid : Pid} {proc child : Proc} (found : tree.procs pid = some proc)
      (spawning : proc.spawning = some childPid) (foundChild : tree.procs childPid = some child)
      (embryo : child.stage = .embryo) :
      Effect tree (.exec pid) (tree.setProc childPid { child with stage := .alive })
  | register {pid childPid : Pid} {proc child : Proc} (found : tree.procs pid = some proc)
      (spawning : proc.spawning = some childPid) (foundChild : tree.procs childPid = some child) :
      Effect tree (.register pid)
        ((tree.setProc pid { proc with spawning := none }).setProc childPid { child with isRegistered := true })
  | fail {pid childPid : Pid} {proc child : Proc} (found : tree.procs pid = some proc)
      (spawning : proc.spawning = some childPid) (foundChild : tree.procs childPid = some child)
      (embryo : child.stage = .embryo) : Effect tree (.fail pid) (tree.abandon pid proc childPid)
  | terminate {pid : Pid} {exitCode : Int} {proc : Proc} (found : tree.procs pid = some proc)
      (born : proc.stage ≠ .embryo) : Effect tree (.terminate pid exitCode) (tree.terminate pid proc exitCode)
  | commit {pid : Pid} {exitCode : Int} {proc : Proc} (found : tree.procs pid = some proc)
      (marked : proc.stage = .marked exitCode) :
      Effect tree (.commit pid) (tree.setProc pid { proc with exitCode := exitCode, stage := .scheduled })
  | drain {pid : Pid} {proc : Proc} (found : tree.procs pid = some proc) (scheduled : proc.stage = .scheduled)
      (free : proc.spawning = none) : Effect tree (.drain pid) (tree.setProc pid { proc with stage := .collecting })
  | pick {pid : Pid} {proc : Proc} (found : tree.procs pid = some proc) (collecting : proc.stage = .collecting) :
      Effect tree (.pick pid) (tree.setProc pid { proc with stage := proc.anyChild })
  | kill {pid childPid : Pid} {proc child : Proc} (found : tree.procs pid = some proc)
      (killing : proc.stage = .killing childPid) (foundChild : tree.procs childPid = some child) :
      Effect tree (.kill pid)
        ((tree.terminate childPid child 0).setProc pid { proc with stage := .awaiting childPid .entering })
  | killNone {pid childPid : Pid} {proc : Proc} (found : tree.procs pid = some proc)
      (killing : proc.stage = .killing childPid) :
      Effect tree (.kill pid) (tree.setProc pid { proc with stage := .faulted })
  | await {pid childPid : Pid} {place : Place} {proc : Proc} (found : tree.procs pid = some proc)
      (awaiting : proc.stage = .awaiting childPid place) :
      Effect tree (.await pid) (tree.setProc pid { proc.without (proc.look childPid false) with
        stage := if proc.look childPid false = .waiting .asleep then .awaiting childPid .asleep else .collecting })
  | report {pid : Pid} {proc parent : Proc} (found : tree.procs pid = some proc) (reporting : proc.stage = .reporting)
      (foundParent : tree.procs proc.ppid = some parent) :
      Effect tree (.report pid) (tree.setProc pid { proc with
        stage := .depositing (if parent.stage.isTerminating then rootPid else proc.ppid) })
  | reportNone {pid : Pid} {proc : Proc} (found : tree.procs pid = some proc) (reporting : proc.stage = .reporting)
      (unregistered : tree.copyProcessForPid proc.ppid = none) :
      Effect tree (.report pid) (tree.setProc pid { proc with stage := .reported })
  | deposit {pid receiver : Pid} {proc other : Proc} (found : tree.procs pid = some proc)
      (depositing : proc.stage = .depositing receiver) (foundOther : tree.procs receiver = some other)
      (free : other.spawning = none) (differs : receiver ≠ pid) :
      Effect tree (.deposit pid)
        ((tree.onChildDidTerminate receiver other ⟨pid, proc.exitCode⟩).setProc pid { proc with stage := .reported })
  | unregister {pid : Pid} {proc : Proc} (found : tree.procs pid = some proc) (reported : proc.stage = .reported) :
      Effect tree (.unregister pid) (tree.setProc pid { proc with stage := .gone, isRegistered := false })
  | wait {pid : Pid} {target : Int} {proc : Proc} (found : tree.procs pid = some proc) :
      Effect tree (.wait pid target) { tree with waits := tree.waits ++ [⟨pid, target, .waiting .entering⟩] }
  | runWait {index : Nat} {call : WaitCall} {proc : Proc} {entering : Bool} (foundCall : tree.waits[index]? = some call)
      (found : tree.procs call.process = some proc) (waits : call.state.isWaiting = true) :
      Effect tree (.runWait index) { tree.setProc call.process (proc.without (proc.look call.pid entering)) with
        waits := tree.waits.set index { call with state := proc.look call.pid entering } }
  | interruptWait {index : Nat} {call : WaitCall} (foundCall : tree.waits[index]? = some call)
      (waits : call.state.isWaiting = true) :
      Effect tree (.interruptWait index) { tree with waits := tree.waits.set index { call with state := .refused .EINTR } }

section Effects
variable {tree after : Tree}

variable {stage : Stage} {child : Pid}

theorem Stage.exitCode?_eq {exitCode : Int} (marked : stage.exitCode? = some exitCode) :
    stage = .marked exitCode := by
  cases stage <;> simp_all [Stage.exitCode?]

theorem Stage.victim?_eq (killing : stage.victim? = some child) :
    stage = .killing child := by
  cases stage <;> simp_all [Stage.victim?]

theorem Stage.receiver?_eq {receiver : Pid} (depositing : stage.receiver? = some receiver) :
    stage = .depositing receiver := by
  cases stage <;> simp_all [Stage.receiver?]

theorem Stage.awaited?_eq (awaited : stage.awaited? = some child) :
    ∃ place, stage = .awaiting child place := by
  cases stage with
  | awaiting other place =>
    cases place with
    | entering => exact ⟨.entering, by rw [Option.some.inj awaited]⟩
    | signalled => exact ⟨.signalled, by rw [Option.some.inj awaited]⟩
    | asleep => simp [Stage.awaited?] at awaited
  | _ => simp [Stage.awaited?] at awaited

theorem copyProcessForPid_eq {pid : Pid} {proc : Proc} (found : tree.copyProcessForPid pid = some proc) :
    tree.procs pid = some proc :=
  (Option.filter_eq_some_iff.mp found).1

theorem effect_of_perform {action : Action} (performs : tree.perform action = some after) :
    Effect tree action after := by
  cases action with
  | spawn pid =>
    obtain ⟨proc, found, performs⟩ := Option.bind_eq_some_iff.mp performs
    split at performs
    next enabled =>
      rw [← Option.some.inj performs]
      exact .spawn found enabled.1 enabled.2
    next => simp at performs
  | exec pid =>
    obtain ⟨proc, found, performs⟩ := Option.bind_eq_some_iff.mp performs
    obtain ⟨childPid, spawning, performs⟩ := Option.bind_eq_some_iff.mp performs
    obtain ⟨child, foundChild, performs⟩ := Option.bind_eq_some_iff.mp performs
    split at performs
    next embryo =>
      rw [← Option.some.inj performs]
      exact .exec found spawning foundChild embryo
    next => simp at performs
  | register pid =>
    obtain ⟨proc, found, performs⟩ := Option.bind_eq_some_iff.mp performs
    obtain ⟨childPid, spawning, performs⟩ := Option.bind_eq_some_iff.mp performs
    obtain ⟨child, foundChild, performs⟩ := Option.bind_eq_some_iff.mp performs
    split at performs
    next =>
      rw [← Option.some.inj performs]
      exact .register found spawning foundChild
    next => simp at performs
  | fail pid =>
    obtain ⟨proc, found, performs⟩ := Option.bind_eq_some_iff.mp performs
    obtain ⟨childPid, spawning, performs⟩ := Option.bind_eq_some_iff.mp performs
    obtain ⟨child, foundChild, performs⟩ := Option.bind_eq_some_iff.mp performs
    split at performs
    next embryo =>
      rw [← Option.some.inj performs]
      exact .fail found spawning foundChild embryo
    next => simp at performs
  | terminate pid exitCode =>
    obtain ⟨proc, found, performs⟩ := Option.bind_eq_some_iff.mp performs
    split at performs
    next enabled =>
      rw [← Option.some.inj performs]
      exact .terminate found enabled.2
    next => simp at performs
  | commit pid =>
    obtain ⟨proc, found, performs⟩ := Option.bind_eq_some_iff.mp performs
    obtain ⟨exitCode, marked, performs⟩ := Option.bind_eq_some_iff.mp performs
    rw [← Option.some.inj performs]
    exact .commit found (Stage.exitCode?_eq marked)
  | drain pid =>
    obtain ⟨proc, found, performs⟩ := Option.bind_eq_some_iff.mp performs
    split at performs
    next enabled =>
      rw [← Option.some.inj performs]
      exact .drain found enabled.1 enabled.2.1
    next => simp at performs
  | pick pid =>
    obtain ⟨proc, found, performs⟩ := Option.bind_eq_some_iff.mp performs
    split at performs
    next collecting =>
      rw [← Option.some.inj performs]
      exact .pick found collecting
    next => simp at performs
  | kill pid =>
    obtain ⟨proc, found, performs⟩ := Option.bind_eq_some_iff.mp performs
    obtain ⟨childPid, killing, performs⟩ := Option.bind_eq_some_iff.mp performs
    cases copies : tree.copyProcessForPid childPid with
    | none =>
      rw [copies] at performs
      rw [← Option.some.inj performs]
      exact .killNone found (Stage.victim?_eq killing)
    | some child =>
      rw [copies] at performs
      rw [← Option.some.inj performs]
      exact .kill found (Stage.victim?_eq killing) (copyProcessForPid_eq copies)
  | await pid =>
    obtain ⟨proc, found, performs⟩ := Option.bind_eq_some_iff.mp performs
    obtain ⟨childPid, awaited, performs⟩ := Option.bind_eq_some_iff.mp performs
    obtain ⟨place, awaiting⟩ := Stage.awaited?_eq awaited
    rw [← Option.some.inj performs]
    exact .await found awaiting
  | report pid =>
    obtain ⟨proc, found, performs⟩ := Option.bind_eq_some_iff.mp performs
    split at performs
    next reporting =>
      cases copies : tree.copyProcessForPid proc.ppid with
      | none =>
        rw [copies] at performs
        rw [← Option.some.inj performs]
        exact .reportNone found reporting copies
      | some parent =>
        rw [copies] at performs
        rw [← Option.some.inj performs]
        exact .report found reporting (copyProcessForPid_eq copies)
    next => simp at performs
  | deposit pid =>
    obtain ⟨proc, found, performs⟩ := Option.bind_eq_some_iff.mp performs
    obtain ⟨receiver, depositing, performs⟩ := Option.bind_eq_some_iff.mp performs
    obtain ⟨other, foundOther, performs⟩ := Option.bind_eq_some_iff.mp performs
    split at performs
    next enabled =>
      rw [← Option.some.inj performs]
      exact .deposit found (Stage.receiver?_eq depositing) foundOther enabled.1 enabled.2
    next => simp at performs
  | unregister pid =>
    obtain ⟨proc, found, performs⟩ := Option.bind_eq_some_iff.mp performs
    split at performs
    next reported =>
      rw [← Option.some.inj performs]
      exact .unregister found reported
    next => simp at performs
  | wait pid target =>
    obtain ⟨proc, found, performs⟩ := Option.bind_eq_some_iff.mp performs
    split at performs
    next =>
      rw [← Option.some.inj performs]
      exact .wait found
    next => simp at performs
  | runWait index =>
    obtain ⟨call, foundCall, performs⟩ := Option.bind_eq_some_iff.mp performs
    obtain ⟨proc, found, performs⟩ := Option.bind_eq_some_iff.mp performs
    split at performs
    next enabled =>
      rw [← Option.some.inj performs]
      refine .runWait foundCall found ?_
      obtain entering | signalled := enabled.2
      · rw [entering]
        rfl
      · rw [signalled]
        rfl
    next => simp at performs
  | interruptWait index =>
    obtain ⟨call, foundCall, performs⟩ := Option.bind_eq_some_iff.mp performs
    obtain ⟨proc, found, performs⟩ := Option.bind_eq_some_iff.mp performs
    split at performs
    next enabled =>
      rw [← Option.some.inj performs]
      refine .interruptWait foundCall ?_
      rw [enabled.2]
      rfl
    next => simp at performs

end Effects

/-! ## Who is listed with whom -/

/-- The tombstone of the process still comes to `parent`. -/
def Stage.owes (parent : Pid) : Stage → Bool
  | .depositing receiver => receiver = parent
  | .reported | .gone => false
  | _ => true

def Stage.isPast : Stage → Bool
  | .reporting | .depositing _ | .reported | .gone => true
  | _ => false

def Tree.recordOf (tree : Tree) (pid : Pid) : List (Pid × Status) := tree.record.filter fun entry => entry.2.pid = pid

structure Tree.Links (strict : Bool) (tree : Tree) : Prop where
  fresh : ∀ pid, tree.nextPid ≤ pid → tree.procs pid = none
  rooted : rootPid < tree.nextPid
  parent : ∀ pid proc, tree.procs pid = some proc →
    ∃ parent, tree.procs proc.ppid = some parent ∧ parent.stage ≠ .embryo
  listed : ∀ pid proc, tree.procs pid = some proc → ∀ childPid ∈ proc.childPids, childPid ≠ rootPid ∧
    ∃ child, tree.procs childPid = some child ∧ child.ppid = pid ∧
      (strict = true ∨ proc.stage.isTerminating = false → child.stage.owes pid = true)
  unlisted : ∀ pid proc parent, tree.procs pid = some proc → pid ≠ rootPid → tree.procs proc.ppid = some parent →
    proc.stage.isReported = false → pid ∈ parent.childPids
  nodup : ∀ pid proc, tree.procs pid = some proc → proc.childPids.Nodup
  childless : ∀ pid proc, tree.procs pid = some proc → proc.stage.isPast = true → proc.childPids = []
  asleep : ∀ pid proc childPid, tree.procs pid = some proc → proc.stage = .awaiting childPid .asleep →
    childPid ∈ proc.childPids
  spawning : ∀ pid proc childPid, tree.procs pid = some proc → proc.spawning = some childPid →
    proc.stage.runs = true ∧ childPid ∈ proc.childPids
  unrecorded : ∀ pid proc, tree.procs pid = some proc → proc.stage.isReported = false → tree.recordOf pid = []
  recorded : ∀ pid proc parent, tree.procs pid = some proc → pid ≠ rootPid → tree.procs proc.ppid = some parent →
    (strict = true ∨ parent.stage.isTerminating = false) → proc.stage.isReported = true →
      tree.recordOf pid = [(proc.ppid, ⟨pid, proc.exitCode⟩)]
  recordFresh : ∀ entry ∈ tree.record, entry.2.pid < tree.nextPid
  older : ∀ pid proc, tree.procs pid = some proc → pid ≠ rootPid → proc.ppid < pid

/-- What a step of a process may change without a word about its parent. -/
structure Proc.Next (old new : Proc) : Prop where
  ppid : new.ppid = old.ppid
  childPids : new.childPids = old.childPids
  embryo : old.stage ≠ .embryo → new.stage ≠ .embryo
  terminating : old.stage.isTerminating = true → new.stage.isTerminating = true
  reported : new.stage.isReported = old.stage.isReported
  exitCode : old.stage.isReported = true → new.exitCode = old.exitCode
  childless : new.stage.isPast = true → old.stage.isPast = true ∨ old.childPids = []
  asleep : ∀ childPid, new.stage = .awaiting childPid .asleep →
    old.stage = .awaiting childPid .asleep ∨ childPid ∈ old.childPids
  spawning : new.spawning = none ∨ new.spawning = old.spawning ∧ (old.stage.runs = true → new.stage.runs = true)

theorem Proc.Next.of_terminating {old new : Proc} (ppid : new.ppid = old.ppid) (childPids : new.childPids = old.childPids)
    (terminates : new.stage.isTerminating = true) (reported : new.stage.isReported = old.stage.isReported)
    (exitCode : old.stage.isReported = true → new.exitCode = old.exitCode)
    (childless : new.stage.isPast = true → old.stage.isPast = true ∨ old.childPids = [])
    (asleep : ∀ childPid, new.stage = .awaiting childPid .asleep → childPid ∈ old.childPids)
    (spawning : new.spawning = none ∨ new.spawning = old.spawning ∧ (old.stage.runs = true → new.stage.runs = true)) :
    old.Next new := by
  refine ⟨ppid, childPids, ?_, fun _ => terminates, reported, exitCode, childless, fun childPid sleeps => .inr (asleep childPid sleeps), spawning⟩
  intro _ embryo
  rw [embryo] at terminates
  simp [Stage.isTerminating] at terminates

theorem Proc.Next.refl (proc : Proc) : proc.Next proc :=
  ⟨rfl, rfl, id, id, rfl, fun _ => rfl, .inl, fun _ => .inl, .inr ⟨rfl, id⟩⟩

section Links
variable {strict : Bool} {tree : Tree} {pid : Pid} {old new : Proc}

theorem Tree.Links.known (links : tree.Links strict) (found : tree.procs pid = some old) : pid < tree.nextPid := by
  by_contra late
  rw [links.fresh pid (Nat.le_of_not_lt late)] at found
  simp at found

theorem procs_setProc (other : Pid) :
    (tree.setProc pid new).procs other = if other = pid then some new else tree.procs other :=
  Function.update_apply tree.procs pid (some new) other

variable {proc : Proc} {childPid receiver : Pid}

theorem procs_setProc_cases (found : tree.procs pid = some old) (next : old.Next new) {other : Pid}
    (there : (tree.setProc pid new).procs other = some proc) :
    ∃ before, tree.procs other = some before ∧ before.Next proc ∧
      (other = pid ∧ before = old ∧ proc = new ∨ other ≠ pid ∧ proc = before) := by
  rw [procs_setProc] at there
  by_cases own : other = pid
  · rw [if_pos own] at there
    obtain rfl : new = proc := Option.some.inj there
    exact ⟨old, own ▸ found, next, .inl ⟨own, rfl, rfl⟩⟩
  · rw [if_neg own] at there
    exact ⟨proc, there, .refl proc, .inr ⟨own, rfl⟩⟩

theorem procs_setProc_exists (found : tree.procs pid = some old) (next : old.Next new) {other : Pid} {before : Proc}
    (there : tree.procs other = some before) :
    ∃ proc, (tree.setProc pid new).procs other = some proc ∧ before.Next proc := by
  rw [procs_setProc]
  by_cases own : other = pid
  · rw [own, found] at there
    rw [if_pos own, ← Option.some.inj there]
    exact ⟨new, rfl, next⟩
  · rw [if_neg own]
    exact ⟨before, there, .refl before⟩

theorem Tree.Links.setProc (links : tree.Links strict) (found : tree.procs pid = some old) (next : old.Next new)
    (owes : ∀ parent, tree.procs old.ppid = some parent → (strict = true ∨ parent.stage.isTerminating = false) →
      old.stage.owes old.ppid = true → new.stage.owes old.ppid = true) : (tree.setProc pid new).Links strict := by
  -- a parent that does not terminate did not before
  have covered : ∀ {before proc : Proc}, before.Next proc → strict = true ∨ proc.stage.isTerminating = false →
      strict = true ∨ before.stage.isTerminating = false := by
    intro before proc step now
    obtain always | calm := now
    · exact .inl always
    · refine .inr (Bool.eq_false_iff.mpr fun was => ?_)
      rw [step.terminating was] at calm
      simp at calm
  refine ⟨?_, links.rooted, ?_, ?_, ?_, ?_, ?_, ?_, ?_, ?_, ?_, links.recordFresh, ?_⟩
  · intro other late
    rw [procs_setProc]
    have none := links.fresh other late
    rw [if_neg]
    · exact none
    · rintro rfl
      rw [found] at none
      simp at none
  · intro other proc there
    obtain ⟨before, was, step, -⟩ := procs_setProc_cases found next there
    obtain ⟨parent, foundParent, born⟩ := links.parent other before was
    obtain ⟨parent', foundParent', step'⟩ := procs_setProc_exists found next foundParent
    exact ⟨parent', step.ppid ▸ foundParent', step'.embryo born⟩
  · intro other proc there childPid member
    obtain ⟨before, was, step, -⟩ := procs_setProc_cases found next there
    rw [step.childPids] at member
    obtain ⟨some, child, foundChild, ppid, debt⟩ := links.listed other before was childPid member
    refine ⟨some, ?_⟩
    rw [procs_setProc]
    by_cases own : childPid = pid
    · rw [own, found] at foundChild
      obtain rfl : old = child := Option.some.inj foundChild
      rw [if_pos own]
      refine ⟨new, rfl, next.ppid.trans ppid, fun now => ?_⟩
      have before' := covered step now
      rw [← ppid] at was debt ⊢
      exact owes before was before' (debt before')
    · rw [if_neg own]
      exact ⟨child, foundChild, ppid, fun now => debt (covered step now)⟩
  · intro other proc parent there notRoot foundParent unreported
    obtain ⟨before, was, step, -⟩ := procs_setProc_cases found next there
    rw [step.ppid] at foundParent
    obtain ⟨parent', wasParent, step', -⟩ := procs_setProc_cases found next foundParent
    rw [step'.childPids]
    exact links.unlisted other before parent' was notRoot wasParent (step.reported ▸ unreported)
  · intro other proc there
    obtain ⟨before, was, step, -⟩ := procs_setProc_cases found next there
    rw [step.childPids]
    exact links.nodup other before was
  · intro other proc there past
    obtain ⟨before, was, step, -⟩ := procs_setProc_cases found next there
    rw [step.childPids]
    obtain before' | empty := step.childless past
    · exact links.childless other before was before'
    · exact empty
  · intro other proc childPid there sleeps
    obtain ⟨before, was, step, -⟩ := procs_setProc_cases found next there
    rw [step.childPids]
    obtain before' | member := step.asleep childPid sleeps
    · exact links.asleep other before childPid was before'
    · exact member
  · intro other proc childPid there spawns
    obtain ⟨before, was, step, -⟩ := procs_setProc_cases found next there
    rw [step.childPids]
    obtain none | ⟨same, runs⟩ := step.spawning
    · rw [none] at spawns
      simp at spawns
    · rw [same] at spawns
      obtain ⟨ran, member⟩ := links.spawning other before childPid was spawns
      exact ⟨runs ran, member⟩
  · intro other proc there unreported
    obtain ⟨before, was, step, -⟩ := procs_setProc_cases found next there
    exact links.unrecorded other before was (step.reported ▸ unreported)
  · intro other proc parent there notRoot foundParent now reported
    obtain ⟨before, was, step, -⟩ := procs_setProc_cases found next there
    rw [step.ppid] at foundParent ⊢
    obtain ⟨parent', wasParent, step', -⟩ := procs_setProc_cases found next foundParent
    rw [step.reported] at reported
    rw [step.exitCode reported]
    exact links.recorded other before parent' was notRoot wasParent (covered step' now) reported
  · intro other proc there notRoot
    obtain ⟨before, was, step, -⟩ := procs_setProc_cases found next there
    rw [step.ppid]
    exact links.older other before was notRoot

theorem Tree.Links.setProc_owes (links : tree.Links strict) (found : tree.procs pid = some old) (next : old.Next new)
    (owes : ∀ parent, old.stage.owes parent = true → new.stage.owes parent = true) :
    (tree.setProc pid new).Links strict :=
  links.setProc found next fun _ _ _ => owes _

/-- Only the calls and the waits are others. -/
theorem Tree.Links.same (links : tree.Links strict) {after : Tree} (procs : after.procs = tree.procs)
    (nextPid : after.nextPid = tree.nextPid) (record : after.record = tree.record) : after.Links strict := by
  obtain ⟨procs', nextPid', waits, calls, record'⟩ := after
  subst procs nextPid record
  exact ⟨links.fresh, links.rooted, links.parent, links.listed, links.unlisted, links.nodup, links.childless, links.asleep,
    links.spawning, links.unrecorded, links.recorded, links.recordFresh, links.older⟩

theorem Tree.Links.terminate (links : tree.Links strict) (found : tree.procs pid = some old) (exitCode : Int) :
    (tree.terminate pid old exitCode).Links strict := by
  unfold Tree.terminate
  have noted : Tree.Links strict { tree with calls := tree.calls ++ [(pid, exitCode)] } := links.same rfl rfl rfl
  by_cases terminates : old.stage.isTerminating = true
  · simp only [terminates, if_true]
    exact noted
  · simp only [terminates, Bool.false_eq_true, if_false]
    have unreported : old.stage.isReported = false := by
      cases stage : old.stage <;> simp_all [Stage.isTerminating, Stage.isReported]
    refine noted.setProc_owes found ?_ (fun _ _ => rfl)
    refine ⟨rfl, rfl, fun _ => by simp, fun _ => rfl, ?_, fun _ => rfl, ?_, ?_, ?_⟩
    · rw [unreported]
      rfl
    · intro past
      simp [Stage.isPast] at past
    · intro childPid sleeps
      simp at sleeps
    · exact .inr ⟨rfl, fun _ => rfl⟩

theorem terminate_procs (found : tree.procs pid = some old) (exitCode : Int) {other : Pid}
    (there : tree.procs other = some proc) (terminates : proc.stage.isTerminating = true) :
    (tree.terminate pid old exitCode).procs other = some proc := by
  unfold Tree.terminate
  by_cases same : other = pid
  · rw [same, found] at there
    rw [Option.some.inj there, if_pos terminates]
    rw [same, found, Option.some.inj there]
  · split
    · exact there
    · rw [procs_setProc, if_neg same]
      exact there

theorem adopt_procs (other : Pid) :
    (tree.adopt pid old).procs other =
      if other = tree.nextPid then some ⟨pid, .embryo, 0, false, [], [], none⟩
      else if other = pid then some { old with childPids := old.childPids ++ [tree.nextPid], spawning := some tree.nextPid }
      else tree.procs other := by
  unfold Tree.adopt
  simp only [procs_setProc]

theorem Tree.Links.adopt (links : tree.Links strict) (found : tree.procs pid = some old)
    (runs : old.stage.runs = true) : (tree.adopt pid old).Links strict := by
  have older : ∀ {other proc}, tree.procs other = some proc → other < tree.nextPid := links.known
  have born : old.stage ≠ .embryo := by
    intro embryo
    rw [embryo] at runs
    simp [Stage.runs] at runs
  have busy : old.stage.isPast = false := by
    cases stage : old.stage <;> simp_all [Stage.runs, Stage.isPast]
  -- what an old process is now, and the other way round
  have now : ∀ {other before}, tree.procs other = some before → ∃ proc, (tree.adopt pid old).procs other = some proc ∧
      proc.ppid = before.ppid ∧ proc.stage = before.stage ∧ proc.exitCode = before.exitCode ∧
      (∀ childPid ∈ before.childPids, childPid ∈ proc.childPids) := by
    intro other before there
    rw [adopt_procs, if_neg (Nat.ne_of_lt (older there))]
    by_cases own : other = pid
    · rw [own, found] at there
      rw [if_pos own, ← Option.some.inj there]
      exact ⟨_, rfl, rfl, rfl, rfl, fun _ member => List.mem_append_left _ member⟩
    · rw [if_neg own]
      exact ⟨before, there, rfl, rfl, rfl, fun _ member => member⟩
  have was : ∀ {other proc}, (tree.adopt pid old).procs other = some proc → other ≠ tree.nextPid →
      ∃ before, tree.procs other = some before ∧ proc.ppid = before.ppid ∧ proc.stage = before.stage ∧
        proc.exitCode = before.exitCode ∧
        (other = pid ∧ proc.childPids = before.childPids ++ [tree.nextPid] ∧ proc.spawning = some tree.nextPid ∨
          other ≠ pid ∧ proc = before) := by
    intro other proc there differs
    rw [adopt_procs, if_neg differs] at there
    by_cases own : other = pid
    · rw [if_pos own] at there
      rw [← Option.some.inj there]
      exact ⟨old, own ▸ found, rfl, rfl, rfl, .inl ⟨own, rfl, rfl⟩⟩
    · rw [if_neg own] at there
      exact ⟨proc, there, rfl, rfl, rfl, .inr ⟨own, rfl⟩⟩
  have newborn : (tree.adopt pid old).procs tree.nextPid = some ⟨pid, .embryo, 0, false, [], [], none⟩ := by
    rw [adopt_procs, if_pos rfl]
  have isNewborn : ∀ {other proc}, (tree.adopt pid old).procs other = some proc → other = tree.nextPid →
      proc = ⟨pid, .embryo, 0, false, [], [], none⟩ := by
    intro other proc there same
    rw [same, newborn] at there
    exact (Option.some.inj there).symm
  have notRoot : tree.nextPid ≠ rootPid := Nat.ne_of_gt links.rooted
  refine ⟨?_, Nat.lt_succ_of_lt links.rooted, ?_, ?_, ?_, ?_, ?_, ?_, ?_, ?_, ?_, ?_, ?_⟩
  · intro other late
    rw [adopt_procs, if_neg (Nat.ne_of_gt late), if_neg]
    · exact links.fresh other (Nat.le_of_succ_le late)
    · rintro rfl
      exact Nat.not_lt_of_gt (older found) late
  · intro other proc there
    by_cases fresh : other = tree.nextPid
    · rw [isNewborn there fresh]
      obtain ⟨proc', there', -, stage, -⟩ := now found
      exact ⟨proc', there', stage ▸ born⟩
    · obtain ⟨before, there', ppid, -⟩ := was there fresh
      obtain ⟨parent, foundParent, born'⟩ := links.parent other before there'
      obtain ⟨parent', foundParent', -, stage, -⟩ := now foundParent
      exact ⟨parent', ppid ▸ foundParent', stage ▸ born'⟩
  · intro other proc there childPid member
    by_cases fresh : other = tree.nextPid
    · rw [isNewborn there fresh] at member
      simp at member
    · obtain ⟨before, there', -, stage, -, change⟩ := was there fresh
      have oldMember : childPid ∈ before.childPids → _ := links.listed other before there' childPid
      have listed : childPid ∈ before.childPids → childPid ≠ rootPid ∧ ∃ child,
          (tree.adopt pid old).procs childPid = some child ∧ child.ppid = other ∧
          (strict = true ∨ proc.stage.isTerminating = false → child.stage.owes other = true) := by
        intro member
        obtain ⟨some, child, foundChild, ppid, debt⟩ := oldMember member
        obtain ⟨child', foundChild', ppid', stage', -⟩ := now foundChild
        exact ⟨some, child', foundChild', ppid'.trans ppid, fun covered => stage' ▸ debt (stage ▸ covered)⟩
      obtain ⟨own, children, -⟩ | ⟨-, same⟩ := change
      · rw [children] at member
        rcases List.mem_append.mp member with earlier | added
        · exact listed earlier
        · rw [List.mem_singleton.mp added]
          exact ⟨notRoot, _, newborn, own.symm, fun _ => rfl⟩
      · exact listed (same ▸ member)
  · intro other proc parent there some foundParent unreported
    by_cases fresh : other = tree.nextPid
    · rw [isNewborn there fresh] at foundParent
      rw [adopt_procs, if_neg (Nat.ne_of_lt (older found)), if_pos rfl] at foundParent
      rw [← Option.some.inj foundParent, fresh]
      exact List.mem_append_right _ (List.mem_singleton.mpr rfl)
    · obtain ⟨before, there', ppid, stage, -⟩ := was there fresh
      obtain ⟨parent', wasParent, -⟩ := links.parent other before there'
      obtain ⟨parent'', nowParent, -, -, -, grows⟩ := now wasParent
      rw [ppid, nowParent] at foundParent
      rw [← Option.some.inj foundParent]
      exact grows other (links.unlisted other before parent' there' some wasParent (stage ▸ unreported))
  · intro other proc there
    by_cases fresh : other = tree.nextPid
    · rw [isNewborn there fresh]
      exact List.nodup_nil
    · obtain ⟨before, there', -, -, -, ⟨-, children, -⟩ | ⟨-, same⟩⟩ := was there fresh
      · rw [children]
        refine List.nodup_append.mpr ⟨links.nodup other before there', List.pairwise_singleton _ _, ?_⟩
        intro childPid member added isNew
        rw [List.mem_singleton.mp isNew]
        obtain ⟨-, child, foundChild, -⟩ := links.listed other before there' childPid member
        exact Nat.ne_of_lt (older foundChild)
      · rw [same]
        exact links.nodup other before there'
  · intro other proc there past
    by_cases fresh : other = tree.nextPid
    · rw [isNewborn there fresh] at past
      simp [Stage.isPast] at past
    · obtain ⟨before, there', -, stage, -, ⟨own, -, -⟩ | ⟨-, same⟩⟩ := was there fresh
      · rw [own, found] at there'
        rw [stage, ← Option.some.inj there', busy] at past
        simp at past
      · rw [same] at past ⊢
        exact links.childless other before there' past
  · intro other proc childPid there sleeps
    by_cases fresh : other = tree.nextPid
    · rw [isNewborn there fresh] at sleeps
      simp at sleeps
    · obtain ⟨before, there', -, stage, -, change⟩ := was there fresh
      have member := links.asleep other before childPid there' (stage ▸ sleeps)
      obtain ⟨-, children, -⟩ | ⟨-, same⟩ := change
      · rw [children]
        exact List.mem_append_left _ member
      · exact same ▸ member
  · intro other proc childPid there spawns
    by_cases fresh : other = tree.nextPid
    · rw [isNewborn there fresh] at spawns
      simp at spawns
    · obtain ⟨before, there', -, stage, -, ⟨own, children, some⟩ | ⟨-, same⟩⟩ := was there fresh
      · rw [own, found] at there'
        rw [some] at spawns
        rw [stage, ← Option.some.inj there', children, ← Option.some.inj spawns]
        exact ⟨runs, List.mem_append_right _ (List.mem_singleton.mpr rfl)⟩
      · rw [same] at spawns ⊢
        exact links.spawning other before childPid there' spawns
  · intro other proc there unreported
    by_cases fresh : other = tree.nextPid
    · refine List.filter_eq_nil_iff.mpr fun entry member => ?_
      have early := links.recordFresh entry member
      rw [fresh]
      simp only [decide_eq_true_eq]
      exact Nat.ne_of_lt early
    · obtain ⟨before, there', -, stage, -⟩ := was there fresh
      exact links.unrecorded other before there' (stage ▸ unreported)
  · intro other proc parent there some foundParent covered reported
    by_cases fresh : other = tree.nextPid
    · rw [isNewborn there fresh] at reported
      simp [Stage.isReported] at reported
    · obtain ⟨before, there', ppid, stage, code, -⟩ := was there fresh
      obtain ⟨parent', wasParent, -⟩ := links.parent other before there'
      obtain ⟨parent'', nowParent, -, stage', -⟩ := now wasParent
      rw [ppid, nowParent] at foundParent
      rw [← Option.some.inj foundParent, stage'] at covered
      rw [ppid, code]
      exact links.recorded other before parent' there' some wasParent covered (stage ▸ reported)
  · intro entry member
    exact Nat.lt_succ_of_lt (links.recordFresh entry member)
  · intro other proc there some
    by_cases fresh : other = tree.nextPid
    · rw [isNewborn there fresh, fresh]
      exact older found
    · obtain ⟨before, there', ppid, -⟩ := was there fresh
      rw [ppid]
      exact links.older other before there' some

theorem abandon_procs (other : Pid) :
    (tree.abandon pid old childPid).procs other =
      if other = childPid then none
      else if other = pid then some { old with childPids := old.childPids.erase childPid, spawning := none }
      else tree.procs other := by
  unfold Tree.abandon
  simp only [Function.update_apply, procs_setProc]

theorem Tree.Links.abandon (links : tree.Links strict) (found : tree.procs pid = some old)
    {child : Proc} (spawning : old.spawning = some childPid) (foundChild : tree.procs childPid = some child)
    (embryo : child.stage = .embryo) : (tree.abandon pid old childPid).Links strict := by
  obtain ⟨runs, member⟩ := links.spawning pid old childPid found spawning
  obtain ⟨-, child', found', ppid, -⟩ := links.listed pid old found childPid member
  rw [foundChild] at found'
  obtain rfl : child = child' := Option.some.inj found'
  -- nobody else is or has a parent here
  have notParent : ∀ {other proc}, tree.procs other = some proc → proc.ppid ≠ childPid := by
    intro other proc there same
    obtain ⟨parent, foundParent, born⟩ := links.parent other proc there
    rw [same, foundChild] at foundParent
    rw [← Option.some.inj foundParent] at born
    exact born embryo
  have notListed : ∀ {other proc}, tree.procs other = some proc → other ≠ pid → childPid ∉ proc.childPids := by
    intro other proc there differs listed
    obtain ⟨-, child', found', ppid', -⟩ := links.listed other proc there childPid listed
    rw [foundChild] at found'
    rw [← Option.some.inj found'] at ppid'
    exact differs (ppid'.symm.trans ppid)
  have now : ∀ {other before}, tree.procs other = some before → other ≠ childPid →
      ∃ proc, (tree.abandon pid old childPid).procs other = some proc ∧ proc.ppid = before.ppid ∧
        proc.stage = before.stage ∧ proc.exitCode = before.exitCode ∧
        proc.childPids = before.childPids.erase childPid := by
    intro other before there differs
    rw [abandon_procs, if_neg differs]
    by_cases own : other = pid
    · rw [own, found] at there
      rw [if_pos own, ← Option.some.inj there]
      exact ⟨_, rfl, rfl, rfl, rfl, rfl⟩
    · rw [if_neg own]
      exact ⟨before, there, rfl, rfl, rfl, (List.erase_of_not_mem (notListed there own)).symm⟩
  have was : ∀ {other proc}, (tree.abandon pid old childPid).procs other = some proc →
      other ≠ childPid ∧ ∃ before, tree.procs other = some before ∧ proc.ppid = before.ppid ∧
        proc.stage = before.stage ∧ proc.exitCode = before.exitCode ∧
        proc.childPids = before.childPids.erase childPid ∧
        (other = pid ∧ proc.spawning = none ∨ proc = before) := by
    intro other proc there
    rw [abandon_procs] at there
    by_cases gone : other = childPid
    · rw [if_pos gone] at there
      simp at there
    · rw [if_neg gone] at there
      refine ⟨gone, ?_⟩
      by_cases own : other = pid
      · rw [if_pos own] at there
        rw [← Option.some.inj there]
        exact ⟨old, own ▸ found, rfl, rfl, rfl, rfl, .inl ⟨own, rfl⟩⟩
      · rw [if_neg own] at there
        exact ⟨proc, there, rfl, rfl, rfl, (List.erase_of_not_mem (notListed there own)).symm, .inr rfl⟩
  refine ⟨?_, links.rooted, ?_, ?_, ?_, ?_, ?_, ?_, ?_, ?_, ?_, links.recordFresh, ?_⟩
  · intro other late
    have none := links.fresh other late
    rw [abandon_procs]
    split
    · rfl
    · rw [if_neg]
      · exact none
      · rintro rfl
        rw [found] at none
        simp at none
  · intro other proc there
    obtain ⟨-, before, there', ppid', -⟩ := was there
    obtain ⟨parent, foundParent, born⟩ := links.parent other before there'
    obtain ⟨parent', nowParent, -, stage, -⟩ := now foundParent (notParent there')
    exact ⟨parent', ppid' ▸ nowParent, stage ▸ born⟩
  · intro other proc there kid listed
    obtain ⟨-, before, there', -, stage, -, children, -⟩ := was there
    rw [children] at listed
    have differs : kid ≠ childPid := by
      rintro rfl
      exact (links.nodup other before there').not_mem_erase listed
    obtain ⟨some, proc', foundKid, ppid', debt⟩ :=
      links.listed other before there' kid (List.mem_of_mem_erase listed)
    obtain ⟨proc'', nowKid, ppid'', stage', -⟩ := now foundKid differs
    exact ⟨some, proc'', nowKid, ppid''.trans ppid', fun covered => stage' ▸ debt (stage ▸ covered)⟩
  · intro other proc parent there some foundParent unreported
    obtain ⟨differs, before, there', ppid', stage, -⟩ := was there
    obtain ⟨parent', wasParent, -⟩ := links.parent other before there'
    obtain ⟨parent'', nowParent, -, -, -, children⟩ := now wasParent (notParent there')
    rw [ppid', nowParent] at foundParent
    rw [← Option.some.inj foundParent, children]
    exact (List.mem_erase_of_ne differs).mpr
      (links.unlisted other before parent' there' some wasParent (stage ▸ unreported))
  · intro other proc there
    obtain ⟨-, before, there', -, -, -, children, -⟩ := was there
    rw [children]
    exact (links.nodup other before there').erase _
  · intro other proc there past
    obtain ⟨-, before, there', -, stage, -, children, -⟩ := was there
    rw [children, links.childless other before there' (stage ▸ past)]
    rfl
  · intro other proc kid there sleeps
    obtain ⟨-, before, there', -, stage, -, children, own | same⟩ := was there
    · rw [own.1, found] at there'
      rw [stage, ← Option.some.inj there'] at sleeps
      rw [sleeps] at runs
      simp [Stage.runs] at runs
    · rw [same] at sleeps ⊢
      exact links.asleep other before kid there' sleeps
  · intro other proc kid there spawns
    obtain ⟨-, before, there', -, -, -, -, own | same⟩ := was there
    · rw [own.2] at spawns
      simp at spawns
    · rw [same] at spawns ⊢
      exact links.spawning other before kid there' spawns
  · intro other proc there unreported
    obtain ⟨-, before, there', -, stage, -⟩ := was there
    exact links.unrecorded other before there' (stage ▸ unreported)
  · intro other proc parent there some foundParent covered reported
    obtain ⟨-, before, there', ppid', stage, code, -⟩ := was there
    obtain ⟨parent', wasParent, -⟩ := links.parent other before there'
    obtain ⟨parent'', nowParent, -, stage', -⟩ := now wasParent (notParent there')
    rw [ppid', nowParent] at foundParent
    rw [← Option.some.inj foundParent, stage'] at covered
    rw [ppid', code]
    exact links.recorded other before parent' there' some wasParent covered (stage ▸ reported)
  · intro other proc there some
    obtain ⟨-, before, there', ppid', -⟩ := was there
    rw [ppid']
    exact links.older other before there' some

/-- The tree behind `Process_OnChildDidTerminate` of the receiver. -/
def Tree.deposited (tree : Tree) (pid : Pid) (proc : Proc) (receiver : Pid) (other : Proc) : Tree :=
  (tree.onChildDidTerminate receiver other ⟨pid, proc.exitCode⟩).setProc pid { proc with stage := .reported }

theorem deposited_procs (other : Pid) :
    (tree.deposited pid old receiver proc).procs other =
      if other = pid then some { old with stage := .reported }
      else if other = receiver then some { proc with
        childPids := proc.childPids.erase pid
        tombstones := proc.tombstones ++ [⟨pid, old.exitCode⟩]
        stage := proc.stage.wake }
      else tree.procs other := by
  unfold Tree.deposited Tree.onChildDidTerminate
  simp only [procs_setProc]

theorem Stage.wake_facts (stage : Stage) :
    (stage.wake = .embryo ↔ stage = .embryo) ∧ stage.wake.isTerminating = stage.isTerminating ∧
      stage.wake.isReported = stage.isReported ∧ stage.wake.isPast = stage.isPast ∧
      stage.wake.runs = stage.runs ∧ (∀ parent, stage.wake.owes parent = stage.owes parent) ∧
      ∀ childPid, stage.wake ≠ .awaiting childPid .asleep := by
  cases stage with
  | awaiting child place => cases place <;> simp [Stage.wake, isTerminating, isReported, isPast, runs, owes]
  | _ => simp [Stage.wake]

structure Deposited (pid receiver other : Pid) (before proc : Proc) : Prop where
  ppid : proc.ppid = before.ppid
  exitCode : proc.exitCode = before.exitCode
  embryo : proc.stage = .embryo ↔ before.stage = .embryo
  terminating : proc.stage.isTerminating = before.stage.isTerminating
  past : proc.stage.isPast = before.stage.isPast
  runs : proc.stage.runs = before.stage.runs
  spawning : proc.spawning = before.spawning
  childPids : proc.childPids = if other = receiver then before.childPids.erase pid else before.childPids
  asleep : ∀ childPid, proc.stage = .awaiting childPid .asleep →
    before.stage = .awaiting childPid .asleep ∧ other ≠ receiver
  reported : proc.stage.isReported = if other = pid then true else before.stage.isReported
  owes : other ≠ pid → ∀ parent, proc.stage.owes parent = before.stage.owes parent

theorem deposited_cases (found : tree.procs pid = some old)
    (depositing : old.stage = .depositing receiver) (foundOther : tree.procs receiver = some proc)
    (differs : receiver ≠ pid) {other : Pid} {after : Proc}
    (there : (tree.deposited pid old receiver proc).procs other = some after) :
    ∃ before, tree.procs other = some before ∧ Deposited pid receiver other before after := by
  rw [deposited_procs] at there
  by_cases own : other = pid
  · rw [if_pos own] at there
    rw [← Option.some.inj there]
    refine ⟨old, own ▸ found, rfl, rfl, ?_, ?_, ?_, ?_, rfl, ?_, ?_, ?_, ?_⟩
    · simp [depositing]
    · rw [depositing]
      rfl
    · rw [depositing]
      rfl
    · rw [depositing]
      rfl
    · rw [if_neg (own ▸ differs.symm)]
    · simp
    · rw [if_pos own]
      rfl
    · exact fun other => absurd own other
  · rw [if_neg own] at there
    by_cases receives : other = receiver
    · rw [if_pos receives] at there
      rw [← Option.some.inj there]
      obtain ⟨embryo, terminating, reported, past, runs, owes, asleep⟩ := proc.stage.wake_facts
      refine ⟨proc, receives ▸ foundOther, rfl, rfl, embryo, terminating, past, runs, rfl, ?_, ?_, ?_, fun _ => owes⟩
      · rw [if_pos receives]
      · exact fun childPid sleeps => absurd sleeps (asleep childPid)
      · rw [if_neg own]
        exact reported
    · rw [if_neg receives] at there
      refine ⟨after, there, rfl, rfl, Iff.rfl, rfl, rfl, rfl, rfl, ?_, ?_, ?_, fun _ _ => rfl⟩
      · rw [if_neg receives]
      · exact fun childPid sleeps => ⟨sleeps, receives⟩
      · rw [if_neg own]

theorem deposited_exists (found : tree.procs pid = some old)
    (depositing : old.stage = .depositing receiver) (foundOther : tree.procs receiver = some proc)
    (differs : receiver ≠ pid) {other : Pid} {before : Proc} (there : tree.procs other = some before) :
    ∃ after, (tree.deposited pid old receiver proc).procs other = some after ∧
      Deposited pid receiver other before after := by
  have present : ∃ after, (tree.deposited pid old receiver proc).procs other = some after := by
    rw [deposited_procs]
    split
    · exact ⟨_, rfl⟩
    · split
      · exact ⟨_, rfl⟩
      · exact ⟨before, there⟩
  obtain ⟨after, now⟩ := present
  obtain ⟨before', was, change⟩ := deposited_cases found depositing foundOther differs now
  rw [there] at was
  exact ⟨after, now, Option.some.inj was ▸ change⟩

theorem recordOf_deposited (other : Pid) :
    (tree.deposited pid old receiver proc).recordOf other =
      tree.recordOf other ++ if pid = other then [(receiver, ⟨pid, old.exitCode⟩)] else [] := by
  change (tree.record ++ [(receiver, Status.mk pid old.exitCode)]).filter _ = _
  by_cases own : pid = other
  · simp [own, Tree.recordOf]
  · simp [own, Tree.recordOf]

theorem Tree.Links.deposited (links : tree.Links strict)
    (found : tree.procs pid = some old) (depositing : old.stage = .depositing receiver)
    (foundOther : tree.procs receiver = some proc) (free : proc.spawning = none) (differs : receiver ≠ pid) :
    (tree.deposited pid old receiver proc).Links strict := by
  have was : ∀ {other after}, (tree.deposited pid old receiver proc).procs other = some after →
      ∃ before, tree.procs other = some before ∧ Deposited pid receiver other before after :=
    deposited_cases found depositing foundOther differs
  have now : ∀ {other before}, tree.procs other = some before →
      ∃ after, (tree.deposited pid old receiver proc).procs other = some after ∧
        Deposited pid receiver other before after :=
    deposited_exists found depositing foundOther differs
  have unreported : old.stage.isReported = false := by
    rw [depositing]
    rfl
  -- the parent is the receiver, when its children are accounted for
  have receives : ∀ {other before}, tree.procs other = some before → pid ∈ before.childPids →
      strict = true ∨ before.stage.isTerminating = false → receiver = other := by
    intro other before there member covered
    obtain ⟨-, child, foundChild, -, debt⟩ := links.listed other before there pid member
    rw [found] at foundChild
    have owed := debt covered
    rw [← Option.some.inj foundChild, depositing] at owed
    exact of_decide_eq_true owed
  refine ⟨?_, links.rooted, ?_, ?_, ?_, ?_, ?_, ?_, ?_, ?_, ?_, ?_, ?_⟩
  · intro other late
    cases there : (tree.deposited pid old receiver proc).procs other with
    | none => rfl
    | some after =>
      obtain ⟨before, there', -⟩ := was there
      rw [links.fresh other late] at there'
      simp at there'
  · intro other after there
    obtain ⟨before, there', change⟩ := was there
    obtain ⟨parent, foundParent, born⟩ := links.parent other before there'
    obtain ⟨parent', nowParent, change'⟩ := now foundParent
    exact ⟨parent', change.ppid ▸ nowParent, fun embryo => born (change'.embryo.mp embryo)⟩
  · intro other after there kid listed
    obtain ⟨before, there', change⟩ := was there
    have member : kid ∈ before.childPids := by
      rw [change.childPids] at listed
      split at listed
      · exact List.mem_of_mem_erase listed
      · exact listed
    obtain ⟨some, child, foundKid, ppid, debt⟩ := links.listed other before there' kid member
    obtain ⟨child', nowKid, change'⟩ := now foundKid
    refine ⟨some, child', nowKid, change'.ppid.trans ppid, fun covered => ?_⟩
    rw [change.terminating] at covered
    have other' : kid ≠ pid := by
      rintro rfl
      have same := receives there' member covered
      rw [change.childPids, if_pos same.symm] at listed
      exact (links.nodup other before there').not_mem_erase listed
    rw [change'.owes other']
    exact debt covered
  · intro other after parent there some foundParent waits
    obtain ⟨before, there', change⟩ := was there
    rw [change.reported] at waits
    have other' : other ≠ pid := by
      intro own
      rw [if_pos own] at waits
      simp at waits
    rw [if_neg other'] at waits
    rw [change.ppid] at foundParent
    obtain ⟨parent', wasParent, change'⟩ := was foundParent
    have member := links.unlisted other before parent' there' some wasParent waits
    rw [change'.childPids]
    split
    · exact (List.mem_erase_of_ne other').mpr member
    · exact member
  · intro other after there
    obtain ⟨before, there', change⟩ := was there
    have nodup := links.nodup other before there'
    rw [change.childPids]
    split
    · exact nodup.erase _
    · exact nodup
  · intro other after there past
    obtain ⟨before, there', change⟩ := was there
    rw [change.past] at past
    rw [change.childPids, links.childless other before there' past]
    split
    · rfl
    · rfl
  · intro other after kid there sleeps
    obtain ⟨before, there', change⟩ := was there
    obtain ⟨slept, elsewhere⟩ := change.asleep kid sleeps
    rw [change.childPids, if_neg elsewhere]
    exact links.asleep other before kid there' slept
  · intro other after kid there spawns
    obtain ⟨before, there', change⟩ := was there
    rw [change.spawning] at spawns
    obtain ⟨ran, member⟩ := links.spawning other before kid there' spawns
    refine ⟨change.runs.trans ran, ?_⟩
    rw [change.childPids]
    split
    next receives' =>
      -- the lock of the receiver is free, so that it is not in the middle of a spawn
      rw [receives', foundOther] at there'
      rw [← Option.some.inj there', free] at spawns
      simp at spawns
    next => exact member
  · intro other after there waits
    obtain ⟨before, there', change⟩ := was there
    rw [change.reported] at waits
    have other' : other ≠ pid := by
      intro own
      rw [if_pos own] at waits
      simp at waits
    rw [if_neg other'] at waits
    rw [recordOf_deposited, if_neg (Ne.symm other'), List.append_nil]
    exact links.unrecorded other before there' waits
  · intro other after parent there some foundParent covered reported
    obtain ⟨before, there', change⟩ := was there
    rw [change.ppid] at foundParent
    obtain ⟨parent', wasParent, change'⟩ := was foundParent
    rw [change'.terminating] at covered
    rw [recordOf_deposited, change.ppid, change.exitCode]
    by_cases own : other = pid
    · rw [own, found] at there'
      obtain rfl : old = before := Option.some.inj there'
      rw [own] at some ⊢
      have member := links.unlisted pid old parent' found some wasParent unreported
      rw [if_pos rfl, links.unrecorded pid old found unreported, receives wasParent member covered]
      rfl
    · rw [if_neg (Ne.symm own), List.append_nil]
      rw [change.reported, if_neg own] at reported
      exact links.recorded other before parent' there' some wasParent covered reported
  · intro entry member
    rcases List.mem_append.mp member with earlier | added
    · exact links.recordFresh entry earlier
    · rw [List.mem_singleton.mp added]
      exact links.known found
  · intro other after there some
    obtain ⟨before, there', change⟩ := was there
    rw [change.ppid]
    exact links.older other before there' some

/-! ## The condition -/

/-- A process that tells its parent about its end finds it registered, and, when the run is strict, not
terminating. -/
def Action.Heard (strict : Bool) (tree : Tree) : Action → Prop
  | .report pid => ∀ proc ∈ tree.procs pid, ∃ parent ∈ tree.copyProcessForPid proc.ppid,
      strict = true → parent.stage.isTerminating = false
  | _ => True

def HeardStep (strict : Bool) (tree : Tree) (action : Action) (after : Tree) : Prop :=
  tree.perform action = some after ∧ action.Heard strict tree

theorem Proc.anyChild_cases (proc : Proc) :
    proc.anyChild = .reporting ∧ proc.childPids = [] ∨ ∃ child, proc.anyChild = .killing child := by
  unfold Proc.anyChild
  cases children : proc.childPids with
  | nil => exact .inl ⟨rfl, rfl⟩
  | cons child rest => exact .inr ⟨child, rfl⟩

theorem look_asleep {entering : Bool}
    (sleeps : proc.look childPid entering = .waiting .asleep) : childPid ∈ proc.childPids := by
  unfold Proc.look at sleeps
  split at sleeps
  · simp at sleeps
  · split at sleeps
    · simp at sleeps
    · split at sleeps
      · simp at sleeps
      · rename_i listed
        by_contra absent
        refine listed ⟨?_, ?_⟩
        · intro isAny
          exact absurd (Int.natCast_nonneg childPid) (by rw [isAny]; decide)
        · rintro ⟨child, member, same⟩
          exact absent (Int.natCast_inj.mp same ▸ member)

theorem without_facts (proc : Proc) (state : WaitState) :
    (proc.without state).ppid = proc.ppid ∧ (proc.without state).stage = proc.stage ∧
      (proc.without state).exitCode = proc.exitCode ∧ (proc.without state).childPids = proc.childPids ∧
      (proc.without state).spawning = proc.spawning := by
  cases state with
  | collected status => exact ⟨rfl, rfl, rfl, rfl, rfl⟩
  | waiting place => exact ⟨rfl, rfl, rfl, rfl, rfl⟩
  | refused err => exact ⟨rfl, rfl, rfl, rfl, rfl⟩

theorem Tree.Links.step (links : tree.Links strict) {action : Action} {after : Tree}
    (step : HeardStep strict tree action after) : after.Links strict := by
  obtain ⟨performs, heard⟩ := step
  cases effect_of_perform performs with
  | spawn found runs free => exact links.adopt found runs
  | @exec _ childPid _ child found spawning foundChild embryo =>
    refine links.setProc_owes foundChild ?_ fun _ _ => rfl
    have free : child.spawning = none := by
      cases spawns : child.spawning with
      | none => rfl
      | some kid =>
        have runs := (links.spawning childPid child kid foundChild spawns).1
        rw [embryo] at runs
        simp [Stage.runs] at runs
    refine ⟨rfl, rfl, fun _ => by simp, ?_, ?_, fun _ => rfl, ?_, fun _ => by simp, .inl free⟩
    · rw [embryo]
      exact id
    · rw [embryo]
      rfl
    · intro past
      simp [Stage.isPast] at past
  | @register pid childPid proc child found spawning foundChild =>
    have first : (tree.setProc pid { proc with spawning := none }).Links strict :=
      links.setProc_owes found ⟨rfl, rfl, id, id, rfl, fun _ => rfl, .inl, fun _ => .inl, .inl rfl⟩ fun _ => id
    have differs : childPid ≠ pid := by
      obtain ⟨-, member⟩ := links.spawning pid proc childPid found spawning
      obtain ⟨some, child', found', ppid, -⟩ := links.listed pid proc found childPid member
      have older := links.older childPid child' found' some
      rw [ppid] at older
      exact Nat.ne_of_gt older
    have foundChild' : (tree.setProc pid { proc with spawning := none }).procs childPid = some child := by
      rw [procs_setProc, if_neg differs]
      exact foundChild
    exact first.setProc_owes foundChild'
      ⟨rfl, rfl, id, id, rfl, fun _ => rfl, .inl, fun _ => .inl, .inr ⟨rfl, id⟩⟩ fun _ => id
  | fail found spawning foundChild embryo => exact links.abandon found spawning foundChild embryo
  | terminate found born => exact links.terminate found _
  | commit found marked =>
    refine links.setProc_owes found ?_ fun _ _ => rfl
    refine .of_terminating rfl rfl rfl (by rw [marked]; rfl) ?_ ?_ (by simp) (.inr ⟨rfl, fun _ => rfl⟩)
    · intro reported
      rw [marked] at reported
      simp [Stage.isReported] at reported
    · intro past
      simp [Stage.isPast] at past
  | drain found scheduled free =>
    refine links.setProc_owes found ?_ fun _ _ => rfl
    refine .of_terminating rfl rfl rfl (by rw [scheduled]; rfl) (fun _ => rfl) ?_ (by simp) (.inl free)
    intro past
    simp [Stage.isPast] at past
  | @pick _ proc found collecting =>
    have notRuns : proc.stage.runs = true → proc.anyChild.runs = true := by
      rw [collecting]
      simp [Stage.runs]
    obtain ⟨ends, empty⟩ | ⟨child, goes⟩ := proc.anyChild_cases
    · refine links.setProc_owes found ?_ fun _ _ => by rw [ends]; rfl
      refine .of_terminating rfl rfl (by rw [ends]; rfl) (by rw [ends, collecting]; rfl) (fun _ => rfl)
        (fun _ => .inr empty) ?_ (.inr ⟨rfl, notRuns⟩)
      intro kid sleeps
      rw [ends] at sleeps
      simp at sleeps
    · refine links.setProc_owes found ?_ fun _ _ => by rw [goes]; rfl
      refine .of_terminating rfl rfl (by rw [goes]; rfl) (by rw [goes, collecting]; rfl) (fun _ => rfl) ?_ ?_
        (.inr ⟨rfl, notRuns⟩)
      · intro past
        rw [goes] at past
        simp [Stage.isPast] at past
      · intro kid sleeps
        rw [goes] at sleeps
        simp at sleeps
  | @kill pid childPid proc child found killing foundChild =>
    have first := links.terminate foundChild 0
    have found' := terminate_procs foundChild 0 found (by rw [killing]; rfl)
    refine first.setProc_owes found' ?_ fun _ _ => rfl
    refine .of_terminating rfl rfl rfl (by rw [killing]; rfl) (fun _ => rfl) ?_ (by simp) (.inr ⟨rfl, ?_⟩)
    · intro past
      simp [Stage.isPast] at past
    · rw [killing]
      simp [Stage.runs]
  | killNone found killing =>
    refine links.setProc_owes found ?_ fun _ _ => rfl
    refine .of_terminating rfl rfl rfl (by rw [killing]; rfl) (fun _ => rfl) ?_ (by simp) (.inr ⟨rfl, ?_⟩)
    · intro past
      simp [Stage.isPast] at past
    · rw [killing]
      simp [Stage.runs]
  | @await _ childPid _ proc found awaiting =>
    obtain ⟨ppid, -, exitCode, childPids, spawning⟩ := without_facts proc (proc.look childPid false)
    by_cases sleeps : proc.look childPid false = .waiting .asleep
    · rw [if_pos sleeps]
      refine links.setProc_owes found ?_ fun _ _ => rfl
      refine .of_terminating ppid childPids rfl (by rw [awaiting]; rfl) (fun _ => exitCode) ?_ ?_ (.inr ⟨spawning, ?_⟩)
      · intro past
        simp [Stage.isPast] at past
      · intro kid same
        obtain rfl : childPid = kid := (Stage.awaiting.inj same).1
        exact look_asleep sleeps
      · rw [awaiting]
        simp [Stage.runs]
    · rw [if_neg sleeps]
      refine links.setProc_owes found ?_ fun _ _ => rfl
      refine .of_terminating ppid childPids rfl (by rw [awaiting]; rfl) (fun _ => exitCode) ?_ (by simp)
        (.inr ⟨spawning, ?_⟩)
      · intro past
        simp [Stage.isPast] at past
      · rw [awaiting]
        simp [Stage.runs]
  | @report pid proc parent found reporting foundParent =>
    refine links.setProc found ?_ ?_
    · refine .of_terminating rfl rfl rfl (by rw [reporting]; rfl) (fun _ => rfl) ?_ (by simp) (.inr ⟨rfl, ?_⟩)
      · intro _
        rw [reporting]
        exact .inl rfl
      · rw [reporting]
        simp [Stage.runs]
    · intro parent' foundParent' covered _
      rw [foundParent] at foundParent'
      obtain rfl : parent = parent' := Option.some.inj foundParent'
      have calm : parent.stage.isTerminating = false := by
        obtain always | calm := covered
        · obtain ⟨parent', copies, calm⟩ := heard proc found
          have same := copyProcessForPid_eq copies
          rw [foundParent] at same
          rw [Option.some.inj same]
          exact calm always
        · exact calm
      rw [calm]
      exact decide_eq_true rfl
  | @reportNone pid proc found reporting unregistered =>
    obtain ⟨parent, copies, -⟩ := heard proc found
    rw [unregistered] at copies
    simp at copies
  | deposit found depositing foundOther free differs => exact links.deposited found depositing foundOther free differs
  | unregister found reported =>
    refine links.setProc_owes found ?_ ?_
    · refine .of_terminating rfl rfl rfl (by rw [reported]; rfl) (fun _ => rfl) ?_ (by simp) (.inr ⟨rfl, ?_⟩)
      · intro _
        rw [reported]
        exact .inl rfl
      · rw [reported]
        simp [Stage.runs]
    · intro parent owes
      rw [reported] at owes
      simp [Stage.owes] at owes
  | wait found => exact links.same rfl rfl rfl
  | @runWait _ call proc entering foundCall found waits =>
    obtain ⟨ppid, stage, exitCode, childPids, spawning⟩ := without_facts proc (proc.look call.pid entering)
    have next : proc.Next (proc.without (proc.look call.pid entering)) := by
      refine ⟨ppid, childPids, ?_, ?_, ?_, fun _ => exitCode, ?_, ?_, .inr ⟨spawning, ?_⟩⟩
      all_goals rw [stage]
      · exact id
      · exact id
      · exact .inl
      · exact fun _ => .inl
      · exact id
    have collected := links.setProc_owes found next fun _ => by rw [stage]; exact id
    exact collected.same rfl rfl rfl
  | interruptWait foundCall waits => exact links.same rfl rfl rfl

end Links

end Apollo.Process
