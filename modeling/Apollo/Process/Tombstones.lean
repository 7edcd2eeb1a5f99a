import Apollo.Process.TreeSteps

/-!
# Tombstones

Every terminated child has the exit code of the first call of `Process_Terminate`
on it, and a parent that does not terminate gets each of its tombstones once and
hands each of them out once.
-/

set_option autoImplicit false

namespace Apollo.Process

open Lib

/-- The exit code of the first call of `Process_Terminate` on the process. -/
def firstCode (calls : List (Pid × Int)) (pid : Pid) : Option Int := (calls.find? fun call => call.1 = pid).map (·.2)

def collectedBy (waits : List WaitCall) (pid : Pid) (status : Status) : Nat :=
  waits.countP fun call => call.process = pid ∧ call.state = .collected status

def Proc.code (proc : Proc) : Option Int :=
  match proc.stage with
  | .embryo | .alive => none
  | .marked exitCode => some exitCode
  | _ => some proc.exitCode

def Tree.All (holds : Pid → Proc → Prop) (tree : Tree) : Prop :=
  ∀ pid proc, tree.procs pid = some proc → holds pid proc

namespace Tree.All

variable {holds : Pid → Proc → Prop} {tree : Tree} {pid : Pid} {old new : Proc}

theorem setProc (all : tree.All holds) (now : holds pid new) : (tree.setProc pid new).All holds := by
  intro other proc there
  rw [procs_setProc] at there
  by_cases own : other = pid
  · rw [if_pos own] at there
    rw [own, ← Option.some.inj there]
    exact now
  · rw [if_neg own] at there
    exact all other proc there

theorem adopt (all : tree.All holds)
    (parent : holds pid { old with childPids := old.childPids ++ [tree.nextPid], spawning := some tree.nextPid })
    (newborn : holds tree.nextPid ⟨pid, .embryo, 0, false, [], [], none⟩) : (tree.adopt pid old).All holds :=
  (all.setProc parent).setProc newborn

theorem abandon {childPid : Pid} (all : tree.All holds)
    (parent : holds pid { old with childPids := old.childPids.erase childPid, spawning := none }) :
    (tree.abandon pid old childPid).All holds := by
  intro other proc there
  change Function.update (tree.setProc pid _).procs childPid none other = some proc at there
  rw [Function.update_apply] at there
  split at there
  · simp at there
  · exact all.setProc parent other proc there

end Tree.All

/-! ## The exit code -/

structure Tree.Coded (tree : Tree) : Prop where
  fresh : ∀ call ∈ tree.calls, call.1 < tree.nextPid
  coded : tree.All fun pid proc => proc.code = firstCode tree.calls pid

section Coded
variable {tree after : Tree} {pid : Pid} {old new : Proc}

theorem firstCode_append (calls : List (Pid × Int)) (call : Pid × Int) (other : Pid) :
    firstCode (calls ++ [call]) other =
      (firstCode calls other).or (if call.1 = other then some call.2 else none) := by
  unfold firstCode
  rw [List.find?_append, List.find?_singleton]
  cases calls.find? fun call => decide (call.1 = other) with
  | some first => rfl
  | none => by_cases same : call.1 = other <;> simp [same]

theorem firstCode_eq_none {calls : List (Pid × Int)} {bound : Pid} (fresh : ∀ call ∈ calls, call.1 < bound) :
    firstCode calls bound = none := by
  unfold firstCode
  rw [Option.map_eq_none_iff, List.find?_eq_none]
  intro call member same
  exact Nat.ne_of_lt (fresh call member) (of_decide_eq_true same)

theorem Tree.Coded.setProc (coded : tree.Coded) (found : tree.procs pid = some old) (same : new.code = old.code) :
    (tree.setProc pid new).Coded :=
  ⟨coded.fresh, coded.coded.setProc (same.trans (coded.coded pid old found))⟩

/-- The first call of `Process_Terminate` sets the exit code, and the later ones do not change it. -/
theorem Tree.Coded.terminate (coded : tree.Coded) (found : tree.procs pid = some old) (exitCode : Int)
    (known : pid < tree.nextPid) : (tree.terminate pid old exitCode).Coded := by
  have now := coded.coded pid old found
  have others : ∀ other, other ≠ pid → firstCode (tree.calls ++ [(pid, exitCode)]) other = firstCode tree.calls other := by
    intro other differs
    rw [firstCode_append, if_neg (Ne.symm differs), Option.or_none]
  have fresh : ∀ call ∈ tree.calls ++ [(pid, exitCode)], call.1 < tree.nextPid := by
    intro call member
    rcases List.mem_append.mp member with earlier | added
    · exact coded.fresh call earlier
    · rw [List.mem_singleton.mp added]
      exact known
  have own : (if old.stage.isTerminating then old else { old with stage := .marked exitCode }).code =
      firstCode (tree.calls ++ [(pid, exitCode)]) pid := by
    rw [firstCode_append, if_pos rfl, ← now]
    unfold Proc.code
    cases stage : old.stage <;> simp [Stage.isTerminating, stage]
  refine ⟨?_, ?_⟩
  · unfold Tree.terminate
    split <;> exact fresh
  · have calls : (tree.terminate pid old exitCode).calls = tree.calls ++ [(pid, exitCode)] := by
      unfold Tree.terminate
      split <;> rfl
    rw [calls]
    intro other proc there
    unfold Tree.terminate at there
    by_cases same : other = pid
    · have is : proc = if old.stage.isTerminating then old else { old with stage := .marked exitCode } := by
        split at there
        next terminates =>
          rw [same, found] at there
          rw [if_pos terminates, Option.some.inj there]
        next calm =>
          rw [procs_setProc, if_pos same] at there
          rw [if_neg calm, Option.some.inj there]
      rw [is, same]
      exact own
    · have there' : tree.procs other = some proc := by
        split at there
        · exact there
        · rw [procs_setProc, if_neg same] at there
          exact there
      rw [others other same]
      exact coded.coded other proc there'

theorem Tree.Coded.step (coded : tree.Coded) {strict : Bool} (links : tree.Links strict) {action : Action}
    (performs : tree.perform action = some after) : after.Coded := by
  cases effect_of_perform performs with
  | @spawn pid proc found runs free =>
    refine ⟨fun call member => Nat.lt_succ_of_lt (coded.fresh call member), ?_⟩
    exact coded.coded.adopt (coded.coded pid proc found) (firstCode_eq_none coded.fresh).symm
  | exec found spawning foundChild embryo =>
    refine coded.setProc foundChild ?_
    unfold Proc.code
    rw [embryo]
  | @register pid childPid proc child found spawning foundChild =>
    refine ⟨coded.fresh, ?_⟩
    have parent : Proc.code { proc with spawning := none } = firstCode tree.calls pid := coded.coded pid proc found
    exact (coded.coded.setProc parent).setProc (coded.coded childPid child foundChild)
  | @fail pid _ proc _ found spawning foundChild embryo =>
    exact ⟨coded.fresh, coded.coded.abandon (coded.coded pid proc found)⟩
  | terminate found born => exact coded.terminate found _ (links.known found)
  | commit found marked =>
    refine coded.setProc found ?_
    unfold Proc.code
    rw [marked]
  | drain found scheduled free =>
    refine coded.setProc found ?_
    unfold Proc.code
    rw [scheduled]
  | @pick _ proc found collecting =>
    refine coded.setProc found ?_
    unfold Proc.code
    rw [collecting]
    obtain ⟨ends, -⟩ | ⟨child, goes⟩ := proc.anyChild_cases
    · simp only [ends]
    · simp only [goes]
  | kill found killing foundChild =>
    have first := coded.terminate foundChild 0 (links.known foundChild)
    refine first.setProc (terminate_procs foundChild 0 found (by rw [killing]; rfl)) ?_
    unfold Proc.code
    rw [killing]
  | killNone found killing =>
    refine coded.setProc found ?_
    unfold Proc.code
    rw [killing]
  | @await _ childPid _ proc found awaiting =>
    refine coded.setProc found ?_
    have exitCode := (without_facts proc (proc.look childPid false)).2.2.1
    unfold Proc.code
    rw [awaiting, exitCode]
    by_cases sleeps : proc.look childPid false = .waiting .asleep
    · simp only [if_pos sleeps]
    · simp only [if_neg sleeps]
  | report found reporting foundParent =>
    refine coded.setProc found ?_
    unfold Proc.code
    rw [reporting]
  | reportNone found reporting unregistered =>
    refine coded.setProc found ?_
    unfold Proc.code
    rw [reporting]
  | @deposit pid receiver proc other found depositing foundOther free differs =>
    refine ⟨coded.fresh, ?_⟩
    have woken : ({ other with
        childPids := other.childPids.erase pid
        tombstones := other.tombstones ++ [⟨pid, proc.exitCode⟩]
        stage := other.stage.wake } : Proc).code = firstCode tree.calls receiver := by
      rw [← coded.coded receiver other foundOther]
      unfold Proc.code
      cases stage : other.stage with
      | awaiting child place => cases place <;> rfl
      | _ => rfl
    have reporter : Proc.code { proc with stage := .reported } = firstCode tree.calls pid := by
      rw [← coded.coded pid proc found]
      unfold Proc.code
      rw [depositing]
    exact (coded.coded.setProc woken).setProc reporter
  | unregister found reported =>
    refine coded.setProc found ?_
    unfold Proc.code
    rw [reported]
  | wait found => exact ⟨coded.fresh, coded.coded⟩
  | @runWait _ call proc entering foundCall found waits =>
    obtain ⟨-, stage, exitCode, -⟩ := without_facts proc (proc.look call.pid entering)
    refine ⟨coded.fresh, coded.coded.setProc ?_⟩
    rw [← coded.coded call.process proc found]
    unfold Proc.code
    rw [stage, exitCode]
  | interruptWait foundCall waits => exact ⟨coded.fresh, coded.coded⟩

end Coded

/-! ## Handing out -/

/-- While the process does not terminate, a tombstone that it got is either on its list or with one of its
waits, and a wait that sleeps has nothing to take. -/
structure Proc.Served (waits : List WaitCall) (record : List (Pid × Status)) (pid : Pid) (proc : Proc) : Prop where
  balanced : proc.stage.isTerminating = false → ∀ status,
    record.count (pid, status) = proc.tombstones.count status + collectedBy waits pid status
  patient : ∀ call ∈ waits, call.process = pid → call.state = .waiting .asleep → proc.tombstoneFor call.pid = none

structure Tree.Fair (tree : Tree) : Prop where
  waitsFresh : ∀ call ∈ tree.waits, call.process < tree.nextPid
  recordFresh : ∀ entry ∈ tree.record, entry.1 < tree.nextPid
  served : tree.All (Proc.Served tree.waits tree.record)

section Fair
variable {tree after : Tree} {waits : List WaitCall} {record : List (Pid × Status)} {pid : Pid} {old new proc : Proc}

theorem Proc.Served.next (served : old.Served waits record pid) (tombstones : new.tombstones = old.tombstones)
    (calm : new.stage.isTerminating = false → old.stage.isTerminating = false) : new.Served waits record pid := by
  refine ⟨?_, ?_⟩
  · intro now status
    rw [tombstones]
    exact served.balanced (calm now) status
  · intro call member own sleeps
    unfold Proc.tombstoneFor
    rw [tombstones]
    exact served.patient call member own sleeps

theorem Tree.Fair.setProc (fair : tree.Fair) (found : tree.procs pid = some old)
    (tombstones : new.tombstones = old.tombstones)
    (calm : new.stage.isTerminating = false → old.stage.isTerminating = false) : (tree.setProc pid new).Fair :=
  ⟨fair.waitsFresh, fair.recordFresh, fair.served.setProc ((fair.served pid old found).next tombstones calm)⟩

theorem Tree.Fair.terminate (fair : tree.Fair) (found : tree.procs pid = some old) (exitCode : Int) :
    (tree.terminate pid old exitCode).Fair := by
  unfold Tree.terminate
  have noted : Tree.Fair { tree with calls := tree.calls ++ [(pid, exitCode)] } :=
    ⟨fair.waitsFresh, fair.recordFresh, fair.served⟩
  split
  · exact noted
  · refine noted.setProc found rfl ?_
    intro calm
    simp [Stage.isTerminating] at calm

/-! ### Taking a tombstone -/

variable {status : Status} {entering : Bool} {receiver : Pid}

theorem tombstoneFor_mem {target : Int} (found : proc.tombstoneFor target = some status) :
    status ∈ proc.tombstones := by
  unfold Proc.tombstoneFor at found
  split at found
  · exact List.mem_of_mem_head? found
  · exact List.mem_of_find?_eq_some found

theorem look_collected {target : Int}
    (collects : proc.look target entering = .collected status) : status ∈ proc.tombstones := by
  unfold Proc.look at collects
  split at collects
  · simp at collects
  · split at collects
    next found =>
      rw [← WaitState.collected.inj collects]
      exact tombstoneFor_mem found
    next =>
      split at collects
      · simp at collects
      · simp at collects

theorem look_waiting {target : Int} {place : Place}
    (waits : proc.look target entering = .waiting place) : proc.tombstoneFor target = none := by
  unfold Proc.look at waits
  split at waits
  · simp at waits
  · split at waits
    next => simp at waits
    next none => exact none

/-- Where there is nothing to take, there is nothing to take after another wait has taken something. -/
theorem without_tombstoneFor {target : Int} (state : WaitState) (nothing : proc.tombstoneFor target = none) :
    (proc.without state).tombstoneFor target = none := by
  cases state with
  | waiting place => exact nothing
  | refused err => exact nothing
  | collected status =>
    unfold Proc.tombstoneFor at nothing ⊢
    split at nothing
    next any =>
      rw [if_pos any]
      change (proc.tombstones.erase status).head? = _
      rw [List.head?_eq_none_iff.mp nothing]
      rfl
    next given =>
      rw [if_neg given]
      rw [List.find?_eq_none] at nothing ⊢
      intro other member
      exact nothing other (List.mem_of_mem_erase member)

/-! ### The list of the waits -/

theorem collectedBy_append (call : WaitCall) (waiting : call.state.isWaiting = true) (status : Status) :
    collectedBy (waits ++ [call]) pid status = collectedBy waits pid status := by
  unfold collectedBy
  rw [List.countP_append, List.countP_singleton, if_neg, Nat.add_zero]
  intro collected
  rw [(of_decide_eq_true collected).2] at waiting
  simp [WaitState.isWaiting] at waiting

theorem collectedBy_set {index : Nat} {call : WaitCall} (foundCall : waits[index]? = some call)
    (waiting : call.state.isWaiting = true) (state : WaitState) (status : Status) :
    collectedBy (waits.set index { call with state := state }) pid status =
      collectedBy waits pid status + if call.process = pid ∧ state = .collected status then 1 else 0 := by
  obtain ⟨inside, is⟩ := List.getElem?_eq_some_iff.mp foundCall
  have uncollected : ¬(call.process = pid ∧ call.state = .collected status) := by
    rintro ⟨-, collected⟩
    rw [collected] at waiting
    simp [WaitState.isWaiting] at waiting
  unfold collectedBy
  rw [List.countP_set inside, is]
  simp [uncollected]

theorem collectedBy_wake (receiver : Pid) (status : Status) :
    collectedBy (waits.map (·.wake receiver)) pid status = collectedBy waits pid status := by
  unfold collectedBy
  rw [List.countP_map]
  congr 1
  funext call
  unfold WaitCall.wake
  simp only [Function.comp_apply]
  split
  next woken => simp [woken.2]
  next => rfl

theorem wake_asleep {call : WaitCall} (sleeps : (call.wake receiver).state = .waiting .asleep) :
    call.wake receiver = call ∧ call.process ≠ receiver := by
  unfold WaitCall.wake at sleeps ⊢
  split at sleeps
  · simp at sleeps
  next other =>
    rw [if_neg other]
    exact ⟨rfl, fun same => other ⟨same, sleeps⟩⟩

/-! ### Steps -/

theorem Tree.Fair.runWait (fair : tree.Fair) {index : Nat} {call : WaitCall} {entering : Bool}
    (foundCall : tree.waits[index]? = some call) (found : tree.procs call.process = some proc)
    (waiting : call.state.isWaiting = true) :
    Tree.Fair { tree.setProc call.process (proc.without (proc.look call.pid entering)) with
      waits := tree.waits.set index { call with state := proc.look call.pid entering } } := by
  have stage := (without_facts proc (proc.look call.pid entering)).2.1
  have own := fair.served call.process proc found
  refine ⟨?_, fair.recordFresh, ?_⟩
  · intro other member
    rcases List.mem_or_eq_of_mem_set member with earlier | rfl
    · exact fair.waitsFresh other earlier
    · exact fair.waitsFresh call (List.mem_of_getElem? foundCall)
  · intro other after there
    rw [procs_setProc] at there
    by_cases same : other = call.process
    · rw [if_pos same] at there
      rw [same, ← Option.some.inj there]
      refine ⟨?_, ?_⟩
      · intro calm status
        rw [stage] at calm
        change tree.record.count _ = _
        rw [collectedBy_set foundCall waiting, own.balanced calm status]
        -- the wait takes what leaves the list
        cases looks : proc.look call.pid entering with
        | waiting place => simp [Proc.without]
        | refused err => simp [Proc.without]
        | collected taken =>
          change _ = (proc.tombstones.erase taken).count status + _
          by_cases is : taken = status
          · rw [is, List.count_erase_self, if_pos ⟨rfl, rfl⟩]
            have some : 0 < proc.tombstones.count status := List.count_pos_iff.mpr (is ▸ look_collected looks)
            omega
          · rw [List.count_erase_of_ne (Ne.symm is), if_neg]
            · rfl
            · rintro ⟨-, same⟩
              exact is (WaitState.collected.inj same)
      · intro caller member isOwn sleeps
        rcases List.mem_or_eq_of_mem_set member with earlier | rfl
        · exact without_tombstoneFor _ (own.patient caller earlier isOwn sleeps)
        · exact without_tombstoneFor _ (look_waiting sleeps)
    · rw [if_neg same] at there
      have served := fair.served other after there
      refine ⟨?_, ?_⟩
      · intro calm status
        rw [collectedBy_set foundCall waiting, if_neg fun both => same both.1.symm]
        exact served.balanced calm status
      · intro caller member isOwn sleeps
        rcases List.mem_or_eq_of_mem_set member with earlier | rfl
        · exact served.patient caller earlier isOwn sleeps
        · exact absurd isOwn.symm same

theorem Tree.Fair.onChildDidTerminate (fair : tree.Fair)
    (found : tree.procs receiver = some proc) (known : receiver < tree.nextPid) :
    (tree.onChildDidTerminate receiver proc status).Fair := by
  refine ⟨?_, ?_, ?_⟩
  · intro call member
    obtain ⟨before, earlier, rfl⟩ := List.mem_map.mp member
    have process : (before.wake receiver).process = before.process := by
      unfold WaitCall.wake
      split <;> rfl
    rw [process]
    exact fair.waitsFresh before earlier
  · intro entry member
    rcases List.mem_append.mp member with earlier | added
    · exact fair.recordFresh entry earlier
    · rw [List.mem_singleton.mp added]
      exact known
  · intro other after there
    change (tree.setProc receiver _).procs other = some after at there
    rw [procs_setProc] at there
    by_cases same : other = receiver
    · rw [if_pos same] at there
      rw [same, ← Option.some.inj there]
      refine ⟨?_, ?_⟩
      · intro calm kept
        have calm' : proc.stage.isTerminating = false := by
          cases stage : proc.stage with
          | embryo => rfl
          | alive => rfl
          | awaiting child place => cases place <;> simp [stage, Stage.wake, Stage.isTerminating] at calm
          | _ => simp [stage, Stage.wake, Stage.isTerminating] at calm
        change (tree.record ++ [(receiver, status)]).count (receiver, kept) =
          (proc.tombstones ++ [status]).count kept + collectedBy (tree.waits.map (·.wake receiver)) receiver kept
        rw [collectedBy_wake, List.count_append, List.count_append,
          (fair.served receiver proc found).balanced calm' kept]
        have once : [(receiver, status)].count (receiver, kept) = [status].count kept := by
          simp [List.count_singleton]
        omega
      · intro call member isOwn sleeps
        -- everybody who slept for the receiver has been woken up
        obtain ⟨before, earlier, rfl⟩ := List.mem_map.mp member
        obtain ⟨same, elsewhere⟩ := wake_asleep sleeps
        rw [same] at isOwn
        exact absurd isOwn elsewhere
    · rw [if_neg same] at there
      have served := fair.served other after there
      refine ⟨?_, ?_⟩
      · intro calm kept
        change (tree.record ++ [(receiver, status)]).count (other, kept) =
          after.tombstones.count kept + collectedBy (tree.waits.map (·.wake receiver)) other kept
        have none : [(receiver, status)].count (other, kept) = 0 := by
          simp [Ne.symm same]
        rw [collectedBy_wake, List.count_append, none]
        exact served.balanced calm kept
      · intro call member isOwn sleeps
        obtain ⟨before, earlier, rfl⟩ := List.mem_map.mp member
        have still := (wake_asleep sleeps).1
        rw [still] at isOwn sleeps ⊢
        exact served.patient before earlier isOwn sleeps

theorem Proc.served_newborn (fair : tree.Fair) (parent : Pid) :
    Proc.Served tree.waits tree.record tree.nextPid ⟨parent, .embryo, 0, false, [], [], none⟩ := by
  refine ⟨?_, ?_⟩
  · intro _ status
    have unrecorded : tree.record.count (tree.nextPid, status) = 0 :=
      List.count_eq_zero.mpr fun member => Nat.lt_irrefl _ (fair.recordFresh _ member)
    have uncollected : collectedBy tree.waits tree.nextPid status = 0 := by
      refine List.countP_eq_zero.mpr fun call member collected => ?_
      exact Nat.ne_of_lt (fair.waitsFresh call member) (of_decide_eq_true collected).1
    rw [unrecorded, uncollected]
    rfl
  · intro call _ _ _
    unfold Proc.tombstoneFor
    split <;> rfl

theorem Tree.Fair.step (fair : tree.Fair) {strict : Bool} (links : tree.Links strict) {action : Action}
    (performs : tree.perform action = some after) : after.Fair := by
  cases effect_of_perform performs with
  | @spawn pid proc found runs free =>
    refine ⟨fun call member => Nat.lt_succ_of_lt (fair.waitsFresh call member),
      fun entry member => Nat.lt_succ_of_lt (fair.recordFresh entry member), ?_⟩
    exact fair.served.adopt ((fair.served pid proc found).next rfl id) (Proc.served_newborn fair pid)
  | exec found spawning foundChild embryo =>
    refine fair.setProc foundChild rfl ?_
    intro _
    rw [embryo]
    rfl
  | @register pid childPid proc child found spawning foundChild =>
    refine ⟨fair.waitsFresh, fair.recordFresh, ?_⟩
    have parent : Proc.Served tree.waits tree.record pid { proc with spawning := none } :=
      (fair.served pid proc found).next rfl id
    have registered : Proc.Served tree.waits tree.record childPid { child with isRegistered := true } :=
      (fair.served childPid child foundChild).next rfl id
    exact (fair.served.setProc parent).setProc registered
  | @fail pid _ proc _ found spawning foundChild embryo =>
    exact ⟨fair.waitsFresh, fair.recordFresh, fair.served.abandon ((fair.served pid proc found).next rfl id)⟩
  | terminate found born => exact fair.terminate found _
  | commit found marked => exact fair.setProc found rfl fun calm => by simp [Stage.isTerminating] at calm
  | drain found scheduled free => exact fair.setProc found rfl fun calm => by simp [Stage.isTerminating] at calm
  | @pick _ proc found collecting =>
    refine fair.setProc found rfl ?_
    intro calm
    obtain ⟨ends, -⟩ | ⟨child, goes⟩ := proc.anyChild_cases
    · simp [ends, Stage.isTerminating] at calm
    · simp [goes, Stage.isTerminating] at calm
  | kill found killing foundChild =>
    have found' := terminate_procs foundChild 0 found (by rw [killing]; rfl)
    exact (fair.terminate foundChild 0).setProc found' rfl fun calm => by simp [Stage.isTerminating] at calm
  | killNone found killing => exact fair.setProc found rfl fun calm => by simp [Stage.isTerminating] at calm
  | @await pid childPid _ proc found awaiting =>
    refine ⟨fair.waitsFresh, fair.recordFresh, fair.served.setProc ⟨?_, ?_⟩⟩
    · intro calm
      by_cases sleeps : proc.look childPid false = .waiting .asleep
      · simp [sleeps, Stage.isTerminating] at calm
      · simp [sleeps, Stage.isTerminating] at calm
    · intro call member own sleeps
      exact without_tombstoneFor _ ((fair.served pid proc found).patient call member own sleeps)
  | report found reporting foundParent => exact fair.setProc found rfl fun calm => by simp [Stage.isTerminating] at calm
  | reportNone found reporting unregistered =>
    exact fair.setProc found rfl fun calm => by simp [Stage.isTerminating] at calm
  | @deposit pid receiver proc other found depositing foundOther free differs =>
    have delivered : (tree.onChildDidTerminate receiver other ⟨pid, proc.exitCode⟩).Fair :=
      fair.onChildDidTerminate foundOther (links.known foundOther)
    have found' : (tree.onChildDidTerminate receiver other ⟨pid, proc.exitCode⟩).procs pid = some proc := by
      change (tree.setProc receiver _).procs pid = some proc
      rw [procs_setProc, if_neg (Ne.symm differs)]
      exact found
    exact delivered.setProc found' rfl fun calm => by simp [Stage.isTerminating] at calm
  | unregister found reported => exact fair.setProc found rfl fun calm => by simp [Stage.isTerminating] at calm
  | @wait pid target proc found =>
    refine ⟨?_, fair.recordFresh, ?_⟩
    · intro call member
      rcases List.mem_append.mp member with earlier | added
      · exact fair.waitsFresh call earlier
      · rw [List.mem_singleton.mp added]
        exact links.known found
    · intro other proc there
      have served := fair.served other proc there
      refine ⟨?_, ?_⟩
      · intro calm status
        rw [collectedBy_append _ rfl]
        exact served.balanced calm status
      · intro call member own sleeps
        rcases List.mem_append.mp member with earlier | added
        · exact served.patient call earlier own sleeps
        · rw [List.mem_singleton.mp added] at sleeps
          simp at sleeps
  | runWait foundCall found waits => exact fair.runWait foundCall found waits
  | @interruptWait _ call foundCall waits =>
    refine ⟨?_, fair.recordFresh, ?_⟩
    · intro other member
      rcases List.mem_or_eq_of_mem_set member with earlier | rfl
      · exact fair.waitsFresh other earlier
      · exact fair.waitsFresh call (List.mem_of_getElem? foundCall)
    · intro other proc there
      have served := fair.served other proc there
      refine ⟨?_, ?_⟩
      · intro calm status
        rw [collectedBy_set foundCall waits, if_neg (by simp), Nat.add_zero]
        exact served.balanced calm status
      · intro caller member own sleeps
        rcases List.mem_or_eq_of_mem_set member with earlier | rfl
        · exact served.patient caller earlier own sleeps
        · simp at sleeps

end Fair

/-! ## Runs -/

theorem Tree.init_procs {pid : Pid} {proc : Proc} (found : Tree.init.procs pid = some proc) :
    pid = rootPid ∧ proc = ⟨rootPid, .alive, 0, true, [], [], none⟩ := by
  change (if pid = rootPid then _ else none) = some proc at found
  by_cases root : pid = rootPid
  · rw [if_pos root] at found
    exact ⟨root, (Option.some.inj found).symm⟩
  · rw [if_neg root] at found
    simp at found

theorem Tree.Links.init (strict : Bool) : Tree.init.Links strict := by
  refine ⟨?_, by decide, ?_, ?_, ?_, ?_, ?_, ?_, ?_, ?_, ?_, ?_, ?_⟩
  · intro pid late
    exact if_neg (Nat.ne_of_gt late)
  · intro pid proc found
    rw [(init_procs found).2]
    exact ⟨_, rfl, by simp⟩
  · intro pid proc found child member
    rw [(init_procs found).2] at member
    simp at member
  · intro pid proc parent found some
    exact absurd (init_procs found).1 some
  · intro pid proc found
    rw [(init_procs found).2]
    exact List.nodup_nil
  · intro pid proc found _
    rw [(init_procs found).2]
  · intro pid proc child found sleeps
    rw [(init_procs found).2] at sleeps
    simp at sleeps
  · intro pid proc child found spawns
    rw [(init_procs found).2] at spawns
    simp at spawns
  · intro pid proc found _
    rfl
  · intro pid proc parent found some
    exact absurd (init_procs found).1 some
  · intro entry member
    simp [Tree.init] at member
  · intro pid proc found some
    exact absurd (init_procs found).1 some

theorem Tree.Coded.init : Tree.init.Coded := by
  refine ⟨?_, ?_⟩
  · intro call member
    simp [Tree.init] at member
  · intro pid proc found
    rw [(init_procs found).2]
    rfl

theorem Tree.Fair.init : Tree.init.Fair := by
  refine ⟨?_, ?_, ?_⟩
  · intro call member
    simp [Tree.init] at member
  · intro entry member
    simp [Tree.init] at member
  · intro pid proc found
    rw [(init_procs found).2]
    refine ⟨fun _ _ => rfl, ?_⟩
    intro call member
    simp [Tree.init] at member

section Heard
variable {strict : Bool} {tree : Tree} {actions : List Action}

theorem links_of_heard (run : Runs (HeardStep strict) Tree.init actions tree) : tree.Links strict :=
  run.invariant (Tree.Links strict) (.init strict) fun _ _ _ links step => links.step step

theorem accounts_of_heard (run : Runs (HeardStep strict) Tree.init actions tree) :
    tree.Links strict ∧ tree.Coded ∧ tree.Fair := by
  refine run.invariant (fun tree => tree.Links strict ∧ tree.Coded ∧ tree.Fair)
    ⟨.init strict, .init, .init⟩ ?_
  rintro action tree after ⟨links, coded, fair⟩ step
  exact ⟨links.step step, coded.step links step.1, fair.step links step.1⟩

end Heard

/-! ## Waiting for the dead -/

/-- Nobody who terminates sleeps until a child has ended whose termination is over already, and no list of
children has a child that is gone. -/
structure Tree.Mourned (tree : Tree) : Prop where
  waiting : ∀ pid proc childPid child, tree.procs pid = some proc → proc.stage = .awaiting childPid .asleep →
    tree.procs childPid = some child → child.stage ≠ .gone
  removed : ∀ childPid child parent, tree.procs childPid = some child → childPid ≠ rootPid → child.stage = .gone →
    tree.procs child.ppid = some parent → childPid ∉ parent.childPids

theorem heard_mourned {actions : List Action} {tree : Tree} (run : Runs (HeardStep true) Tree.init actions tree) :
    tree.Mourned := by
  have links := links_of_heard run
  -- who is listed still owes its tombstone
  have listed : ∀ {pid proc childPid child}, tree.procs pid = some proc → childPid ∈ proc.childPids →
      tree.procs childPid = some child → child.stage ≠ .gone := by
    intro pid proc childPid child found member foundChild gone
    obtain ⟨-, child', foundChild', -, owes⟩ := links.listed pid proc found childPid member
    rw [foundChild] at foundChild'
    obtain rfl : child = child' := Option.some.inj foundChild'
    have debt := owes (.inl rfl)
    rw [gone] at debt
    simp [Stage.owes] at debt
  refine ⟨?_, ?_⟩
  · intro pid proc childPid child found sleeps foundChild
    exact listed found (links.asleep pid proc childPid found sleeps) foundChild
  · intro childPid child parent foundChild _ gone foundParent member
    exact listed foundParent member foundChild gone

instance (strict : Bool) (tree : Tree) (action : Action) : Decidable (action.Heard strict tree) :=
  match action with
  | .report pid => inferInstanceAs (Decidable (∀ proc ∈ tree.procs pid, ∃ parent ∈ tree.copyProcessForPid proc.ppid,
      strict = true → parent.stage.isTerminating = false))
  | .spawn _ | .exec _ | .register _ | .fail _ | .terminate _ _ | .commit _ | .drain _ | .pick _ | .kill _ | .await _
  | .deposit _ | .unregister _ | .wait _ _ | .runWait _ | .interruptWait _ => isTrue trivial

def Tree.performHeard (strict : Bool) (tree : Tree) (action : Action) : Option Tree :=
  if action.Heard strict tree then tree.perform action else none

theorem heardStep_of_performHeard {strict : Bool} (tree : Tree) (action : Action) (after : Tree)
    (performs : tree.performHeard strict action = some after) : HeardStep strict tree action after := by
  unfold Tree.performHeard at performs
  split at performs
  next heard => exact ⟨performs, heard⟩
  next => simp at performs

def TreeStep (tree : Tree) (action : Action) (after : Tree) : Prop := tree.perform action = some after

theorem treeStep_of_perform (tree : Tree) (action : Action) (after : Tree) (performs : tree.perform action = some after) :
    TreeStep tree action after :=
  performs

def spawnChild (pid : Pid) : List Action := [.spawn pid, .exec pid, .register pid]

/-- `_Process_DoTerminate` of a process without children. -/
def endAlone (pid : Pid) : List Action := [.drain pid, .pick pid, .report pid, .deposit pid, .unregister pid]

/-- A child of the root process ends, and another one with a child of its own begins to. -/
def calmEnds : List Action :=
  spawnChild 1 ++ spawnChild 1 ++ spawnChild 3 ++ [Action.terminate 2 7, Action.commit 2] ++ endAlone 2 ++
    [Action.terminate 3 9, Action.commit 3, Action.drain 3, Action.pick 3, Action.kill 3, Action.await 3]

theorem calmEnds_mourned :
    ∃ (tree : Tree) (actions : List Action), Runs (HeardStep true) Tree.init actions tree ∧
      (tree.procs 2).map (·.stage) = some .gone ∧ (tree.procs 3).map (·.stage) = some (.awaiting 4 .asleep) ∧
      tree.Mourned := by
  have performs : (performAll (Tree.performHeard true) calmEnds Tree.init).map (fun tree =>
      ((tree.procs 2).map (·.stage), (tree.procs 3).map (·.stage))) =
        some (some .gone, some (.awaiting 4 .asleep)) := by
    decide
  obtain ⟨tree, performed, data⟩ := Option.map_eq_some_iff.mp performs
  obtain ⟨actions, run⟩ := Runs.performAll heardStep_of_performHeard .nil performed
  obtain ⟨gone, sleeps⟩ := Prod.mk.inj data
  exact ⟨tree, actions, run, gone, sleeps, heard_mourned run⟩

def childFirst : List Action :=
  spawnChild 1 ++ spawnChild 2 ++ [.terminate 3 7, .commit 3, .terminate 2 0, .commit 2] ++ endAlone 3

def parentFirst : List Action :=
  spawnChild 1 ++ spawnChild 2 ++ [Action.terminate 2 0, Action.commit 2, Action.drain 2, Action.pick 2, Action.kill 2, Action.await 2, Action.commit 3] ++ endAlone 3

/-- The root process gets the tombstone, and the parent keeps the child: in its list, and, when it waits for
the child, forever. -/
theorem terminatingParent_unmourned :
    (∃ (tree : Tree) (actions : List Action), Runs TreeStep Tree.init actions tree ∧
      (tree.procs 3).map (·.stage) = some .gone ∧ (tree.procs 2).map (·.childPids) = some [3] ∧ ¬tree.Mourned) ∧
    ∃ (tree : Tree) (actions : List Action), Runs TreeStep Tree.init actions tree ∧
      (tree.procs 3).map (·.stage) = some .gone ∧ (tree.procs 2).map (·.stage) = some (.awaiting 3 .asleep) ∧
      ¬tree.Mourned := by
  refine ⟨?_, ?_⟩
  · have performs : (performAll Tree.perform childFirst Tree.init).map (fun tree =>
        ((tree.procs 3).map fun proc => (proc.ppid, proc.stage), (tree.procs 2).map (·.childPids))) =
          some (some (2, .gone), some [3]) := by
      decide
    obtain ⟨tree, performed, data⟩ := Option.map_eq_some_iff.mp performs
    obtain ⟨actions, run⟩ := Runs.performAll treeStep_of_perform .nil performed
    obtain ⟨child, parent⟩ := Prod.mk.inj data
    obtain ⟨three, foundThree, three'⟩ := Option.map_eq_some_iff.mp child
    obtain ⟨two, foundTwo, children⟩ := Option.map_eq_some_iff.mp parent
    obtain ⟨ppid, gone⟩ := Prod.mk.inj three'
    refine ⟨tree, actions, run, by rw [foundThree]; exact congrArg some gone, by rw [foundTwo]; exact congrArg some children, ?_⟩
    intro mourned
    refine mourned.removed 3 three two foundThree (by decide) gone (ppid ▸ foundTwo) ?_
    rw [children]
    exact List.mem_singleton_self 3
  · have performs : (performAll Tree.perform parentFirst Tree.init).map (fun tree =>
        ((tree.procs 3).map (·.stage), (tree.procs 2).map (·.stage))) =
          some (some .gone, some (.awaiting 3 .asleep)) := by
      decide
    obtain ⟨tree, performed, data⟩ := Option.map_eq_some_iff.mp performs
    obtain ⟨actions, run⟩ := Runs.performAll treeStep_of_perform .nil performed
    obtain ⟨child, parent⟩ := Prod.mk.inj data
    obtain ⟨three, foundThree, gone⟩ := Option.map_eq_some_iff.mp child
    obtain ⟨two, foundTwo, sleeps⟩ := Option.map_eq_some_iff.mp parent
    refine ⟨tree, actions, run, child, parent, ?_⟩
    intro mourned
    exact mourned.waiting 2 two 3 three foundTwo sleeps foundThree gone

/-! ## Exactly once -/

/-- What a parent that does not terminate can rely on. -/
structure Tree.Delivers (tree : Tree) (pid : Pid) (proc : Proc) : Prop where
  early : ∀ childPid child, tree.procs childPid = some child → childPid ≠ rootPid → child.ppid = pid →
    child.stage.isReported = false → tree.recordOf childPid = []
  once : ∀ childPid child, tree.procs childPid = some child → childPid ≠ rootPid → child.ppid = pid →
    child.stage.isReported = true → ∃ exitCode, firstCode tree.calls childPid = some exitCode ∧
      tree.recordOf childPid = [(pid, ⟨childPid, exitCode⟩)] ∧
      proc.tombstones.count ⟨childPid, exitCode⟩ + collectedBy tree.waits pid ⟨childPid, exitCode⟩ = 1
  balanced : ∀ status, proc.tombstones.count status + collectedBy tree.waits pid status = tree.record.count (pid, status)
  patient : ∀ call ∈ tree.waits, call.process = pid → call.state = .waiting .asleep → proc.tombstoneFor call.pid = none
  refuses : ∀ index call after (childPid : Pid) child, tree.waits[index]? = some call → call.process = pid →
    call.pid = (childPid : Int) → tree.procs childPid = some child → childPid ≠ rootPid → child.ppid = pid →
    tree.perform (.runWait index) = some after → (after.waits[index]?).map (·.state) = some (.refused .ECHILD) →
      ∃ exitCode, collectedBy tree.waits pid ⟨childPid, exitCode⟩ = 1

theorem count_record {tree : Tree} {pid receiver : Pid} {exitCode : Int}
    (records : tree.recordOf pid = [(receiver, ⟨pid, exitCode⟩)]) :
    tree.record.count (receiver, ⟨pid, exitCode⟩) = 1 := by
  have filtered : (tree.recordOf pid).count (receiver, ⟨pid, exitCode⟩) = tree.record.count (receiver, ⟨pid, exitCode⟩) :=
    List.count_filter (decide_eq_true rfl)
  rw [← filtered, records, List.count_singleton_self]

theorem look_refused {proc : Proc} {childPid : Pid} {entering : Bool}
    (refuses : proc.look childPid entering = .refused .ECHILD) :
    (∀ exitCode, ⟨childPid, exitCode⟩ ∉ proc.tombstones) ∧ childPid ∉ proc.childPids := by
  have specific : (childPid : Int) ≠ -1 := by
    intro any
    exact absurd (Int.natCast_nonneg childPid) (by rw [any]; decide)
  unfold Proc.look at refuses
  rw [if_neg fun both => specific both.2.1] at refuses
  split at refuses
  next => simp at refuses
  next nothing =>
    refine ⟨?_, ?_⟩
    · intro exitCode member
      unfold Proc.tombstoneFor at nothing
      rw [if_neg specific, List.find?_eq_none] at nothing
      exact nothing _ member (decide_eq_true rfl)
    · intro member
      rw [if_neg fun both => both.2 ⟨childPid, member, rfl⟩] at refuses
      simp at refuses

theorem runWait_refused {tree after : Tree} {index : Nat} {call : WaitCall} {proc : Proc}
    (foundCall : tree.waits[index]? = some call) (found : tree.procs call.process = some proc)
    (performs : tree.perform (.runWait index) = some after)
    (refused : (after.waits[index]?).map (·.state) = some (.refused .ECHILD)) :
    ∃ entering, proc.look call.pid entering = .refused .ECHILD := by
  cases effect_of_perform performs with
  | @runWait _ call' proc' entering foundCall' found' waits =>
    rw [foundCall] at foundCall'
    obtain rfl : call = call' := Option.some.inj foundCall'
    rw [found] at found'
    obtain rfl : proc = proc' := Option.some.inj found'
    have inside := (List.getElem?_eq_some_iff.mp foundCall).1
    rw [List.getElem?_set_self inside] at refused
    exact ⟨entering, Option.some.inj refused⟩

def rivalWaits : List Action :=
  spawnChild 1 ++ [.wait 1 2, .wait 1 2, .runWait 0, .terminate 2 7, .terminate 2 9, .commit 2] ++ endAlone 2 ++
    [.runWait 0, .runWait 1]

/-- A child of the root process spawns a process that ends at once, while its own spawn has not got to
`ProcessManager_Register` yet. -/
def unregisteredParent : List Action :=
  [.spawn 1, .exec 1] ++ spawnChild 2 ++ [.terminate 3 7, .commit 3, .drain 3, .pick 3, .report 3, .unregister 3]

end Apollo.Process
