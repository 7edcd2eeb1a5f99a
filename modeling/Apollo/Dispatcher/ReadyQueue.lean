import Apollo.Dispatcher.VirtualProcessorScheduler

/-!
# The ready queue

Where the list entries of the virtual processors are.  `Placed` says what it means
to be on a list, and `Held` that nobody who can run is missing.
-/

set_option autoImplicit false

namespace Apollo.Dispatcher.VirtualProcessorScheduler

open Klib
open Lib

/-! ## The bitmap -/

def Scheduler.IsPopulated (sched : Scheduler) (pri : Nat) : Prop :=
  (sched.populated (pri / 8)).getLsbD (pri % 8) = true

section Bitmap
variable {sched : Scheduler} {pri other : Nat}

theorem getLsbD_one_shiftLeft {bit index : Nat} (bit_lt : bit < 8) (index_lt : index < 8) :
    (1#8 <<< bit).getLsbD index = decide (index = bit) := by
  have all : ∀ bit < 8, ∀ index < 8, (1#8 <<< bit).getLsbD index = decide (index = bit) := by decide
  exact all bit bit_lt index index_lt

theorem popByteIdx_eq (pri : Nat) : pri >>> 3 = pri / 8 := Nat.shiftRight_eq_div_pow pri 3

theorem popBitIdx_eq (pri : Nat) : pri - ((pri / 8) <<< 3) = pri % 8 := by
  omega

theorem setPopulated_isPopulated : (sched.setPopulated pri).IsPopulated other ↔ other = pri ∨ sched.IsPopulated other := by
  unfold Scheduler.IsPopulated Scheduler.setPopulated
  simp only [popBitIdx_eq, popByteIdx_eq]
  by_cases byte : other / 8 = pri / 8
  · rw [byte, Function.update_self, BitVec.getLsbD_or,
      getLsbD_one_shiftLeft (Nat.mod_lt _ (by decide)) (Nat.mod_lt _ (by decide)), Bool.or_eq_true, decide_eq_true_eq]
    constructor
    · rintro (set | bit)
      · exact .inr set
      · exact .inl (by omega)
    · rintro (same | set)
      · exact .inr (by rw [same])
      · exact .inl set
  · rw [Function.update_of_ne byte]
    refine ⟨.inr, ?_⟩
    rintro (same | set)
    · exact absurd (by rw [same]) byte
    · exact set

theorem clearPopulated_isPopulated :
    (sched.clearPopulated pri).IsPopulated other ↔ other ≠ pri ∧ sched.IsPopulated other := by
  unfold Scheduler.IsPopulated Scheduler.clearPopulated
  simp only [popBitIdx_eq, popByteIdx_eq]
  by_cases byte : other / 8 = pri / 8
  · rw [byte, Function.update_self, BitVec.getLsbD_and, BitVec.getLsbD_not,
      getLsbD_one_shiftLeft (Nat.mod_lt _ (by decide)) (Nat.mod_lt _ (by decide))]
    simp only [Bool.and_eq_true, Bool.not_eq_true', decide_eq_false_iff_not, decide_eq_true_eq]
    constructor
    · rintro ⟨set, -, bit⟩
      exact ⟨fun same => bit (by rw [same]), set⟩
    · rintro ⟨different, set⟩
      exact ⟨set, Nat.mod_lt _ (by decide), fun bit => different (by omega)⟩
  · rw [Function.update_of_ne byte]
    refine ⟨fun set => ⟨?_, set⟩, And.right⟩
    rintro rfl
    exact byte rfl

theorem and_mask_ne_zero {byte : BitVec 8} {bit : Nat} (bit_lt : bit < 8) :
    byte &&& (1#8 <<< bit) ≠ 0#8 ↔ byte.getLsbD bit = true := by
  constructor
  · intro set
    by_contra clear
    refine set (BitVec.eq_of_getLsbD_eq ?_)
    intro index index_lt
    rw [BitVec.getLsbD_and, getLsbD_one_shiftLeft bit_lt index_lt, BitVec.getLsbD_zero]
    by_cases same : index = bit
    · rw [same, Bool.eq_false_iff.mpr clear, Bool.false_and]
    · rw [decide_eq_false same, Bool.and_false]
  · intro set zero
    have bits := congrArg (fun value => BitVec.getLsbD value bit) zero
    simp only [BitVec.getLsbD_and, getLsbD_one_shiftLeft bit_lt bit_lt, BitVec.getLsbD_zero, set] at bits
    simp at bits

/-- What was found is the head of the highest list that the bitmap shows among the first `count`. -/
def Scheduler.Highest (sched : Scheduler) (count : Nat) (found : Option Nat) : Prop :=
  (∃ pri < count, sched.IsPopulated pri ∧ (∀ other, pri < other → other < count → ¬ sched.IsPopulated other) ∧
    found = (sched.lists (.ready pri)).first) ∨
  ((∀ pri < count, ¬ sched.IsPopulated pri) ∧ found = none)

theorem isPopulated_bit {byte bit : Nat} (bit_lt : bit < 8) :
    sched.IsPopulated (8 * byte + bit) ↔ (sched.populated byte).getLsbD bit = true := by
  unfold Scheduler.IsPopulated
  rw [show (8 * byte + bit) / 8 = byte by omega, show (8 * byte + bit) % 8 = bit by omega]

theorem Scheduler.Highest.pick {byte bit : Nat} (bit_lt : bit < 8)
    (set : (sched.populated byte).getLsbD bit = true)
    (above : ∀ other < 8, bit < other → ¬ (sched.populated byte).getLsbD other = true) :
    sched.Highest (8 * (byte + 1)) (sched.lists (.ready ((byte <<< 3) + bit))).first := by
  have index : (byte <<< 3) + bit = 8 * byte + bit := by
    omega
  rw [index]
  refine .inl ⟨8 * byte + bit, by omega, (isPopulated_bit bit_lt).mpr set, ?_, rfl⟩
  intro other greater other_lt
  obtain ⟨distance, rfl⟩ := Nat.exists_eq_add_of_lt greater
  have place : 8 * byte + bit + distance + 1 = 8 * byte + (bit + distance + 1) := by omega
  rw [place, isPopulated_bit (by omega)]
  exact above _ (by omega) (by omega)

theorem Scheduler.Highest.descend {byte : Nat} {found : Option Nat} (highest : sched.Highest (8 * byte) found)
    (clear : ∀ bit < 8, ¬ (sched.populated byte).getLsbD bit = true) : sched.Highest (8 * (byte + 1)) found := by
  have upper : ∀ other, 8 * byte ≤ other → other < 8 * (byte + 1) → ¬ sched.IsPopulated other := by
    intro other least other_lt
    obtain ⟨bit, rfl⟩ := Nat.exists_eq_add_of_le least
    rw [isPopulated_bit (by omega)]
    exact clear _ (by omega)
  rcases highest with ⟨pri, pri_lt, set, highest, same⟩ | ⟨none_set, same⟩
  · refine .inl ⟨pri, by omega, set, ?_, same⟩
    intro other greater other_lt
    rcases Nat.lt_or_ge other (8 * byte) with lower | least
    · exact highest other greater lower
    · exact upper other least other_lt
  · refine .inr ⟨?_, same⟩
    intro other other_lt
    rcases Nat.lt_or_ge other (8 * byte) with lower | least
    · exact none_set other lower
    · exact upper other least other_lt

/-- One test of the search.  When it fails, its bit is one more that is known to be clear. -/
theorem Scheduler.Highest.test {byte bit : Nat} {rest : Option Nat} (bit_lt : bit < 8)
    (above : ∀ other < 8, bit < other → ¬ (sched.populated byte).getLsbD other = true)
    (otherwise : (∀ other < 8, bit ≤ other → ¬ (sched.populated byte).getLsbD other = true) →
      sched.Highest (8 * (byte + 1)) rest) :
    sched.Highest (8 * (byte + 1))
      (if sched.populated byte &&& (1#8 <<< bit) ≠ 0#8 then (sched.lists (.ready ((byte <<< 3) + bit))).first
        else rest) := by
  split
  · rename_i set
    exact .pick bit_lt ((and_mask_ne_zero bit_lt).mp set) above
  · rename_i clear
    refine otherwise ?_
    intro other other_lt least
    rcases Nat.eq_or_lt_of_le least with rfl | greater
    · exact fun set => clear ((and_mask_ne_zero bit_lt).mpr set)
    · exact above other other_lt greater

theorem highestPriorityReady_highest (sched : Scheduler) (count : Nat) :
    sched.Highest (8 * count) (highestPriorityReady sched count) := by
  induction count with
  | zero => exact .inr ⟨fun pri impossible => absurd impossible (Nat.not_lt_zero _), rfl⟩
  | succ byte ih =>
    rw [highestPriorityReady]
    split
    · refine .test (by decide : 7 < 8) (fun other other_lt greater => absurd other_lt (by omega)) ?_
      intro above
      refine .test (by decide : 6 < 8) above ?_
      intro above
      refine .test (by decide : 5 < 8) above ?_
      intro above
      refine .test (by decide : 4 < 8) above ?_
      intro above
      refine .test (by decide : 3 < 8) above ?_
      intro above
      refine .test (by decide : 2 < 8) above ?_
      intro above
      refine .test (by decide : 1 < 8) above ?_
      intro above
      refine .test (by decide : 0 < 8) above ?_
      intro above
      exact ih.descend fun bit bit_lt => above bit bit_lt (Nat.zero_le _)
    · rename_i zero
      rw [not_not] at zero
      refine ih.descend ?_
      intro bit _
      rw [zero, BitVec.getLsbD_zero]
      exact Bool.false_ne_true

end Bitmap

/-! ## The lists -/

abbrev Queues : Type := QueueName → List Nat

def Scheduler.Alive (sched : Scheduler) (vp : Nat) : Prop :=
  sched.isAllocated vp = true ∧ (sched.vps vp).isTerminated = false

structure Entered (sched : Scheduler) (nodes : Queues) : Prop where
  shelved : Shelved sched.rewaQueueEntries sched.lists nodes
  detached : ∀ vp, sched.Alive vp → (∀ name, vp ∉ nodes name) → sched.rewaQueueEntries vp = ListNode.init

/-- The bitmap shows the lists that are not empty. -/
structure Mapped (sched : Scheduler) (nodes : Queues) : Prop where
  populated : ∀ pri < 64, (sched.IsPopulated pri ↔ nodes (.ready pri) ≠ [])
  bounded : ∀ pri, 64 ≤ pri → nodes (.ready pri) = []

section Lists
variable {sched : Scheduler} {nodes : Queues} {name : QueueName} {vp pri : Nat}

theorem Entered.insertAfter (entered : Entered sched nodes) {front back : List Nat}
    (split : nodes name = front ++ back) (fresh : ∀ name, vp ∉ nodes name) :
    Entered (sched.insertAfter name vp front.getLast?) (Function.update nodes name (front ++ vp :: back)) := by
  refine ⟨entered.shelved.insertAfter split fresh, ?_⟩
  intro other alive absent
  have here := absent name
  rw [Function.update_self] at here
  have different : other ≠ vp := by
    rintro rfl
    exact here (by simp)
  have before : ∀ place, other ∉ nodes place := by
    intro place
    by_cases same : place = name
    · rw [same, split]
      intro member
      rcases List.mem_append.mp member with member | member
      · exact here (List.mem_append_left _ member)
      · exact here (List.mem_append_right _ (List.mem_cons_of_mem _ member))
    · have elsewhere := absent place
      rwa [Function.update_of_ne same] at elsewhere
  have holds := entered.shelved.holds name
  have absent_here := before name
  rw [split] at holds absent_here
  exact (DList.insertAfter_heap holds different absent_here).trans (entered.detached other alive before)

theorem Entered.insertAfterLast (entered : Entered sched nodes) (fresh : ∀ name, vp ∉ nodes name) :
    Entered (sched.insertAfterLast name vp) (Function.update nodes name (nodes name ++ [vp])) := by
  have inserted := @Entered.insertAfter _ _ name vp entered _ _ (List.append_nil (nodes name)).symm fresh
  unfold Scheduler.insertAfterLast
  rw [(entered.shelved.holds name).insertAfterLast_eq (fresh name)]
  exact inserted

theorem Entered.remove (entered : Entered sched nodes) {front back : List Nat}
    (split : nodes name = front ++ vp :: back) :
    Entered (sched.remove name vp) (Function.update nodes name (front ++ back)) := by
  refine ⟨entered.shelved.remove split, ?_⟩
  intro other alive absent
  by_cases same : other = vp
  · rw [same]
    exact DList.remove_node _ _ _
  have before : ∀ place, other ∉ nodes place := by
    intro place
    have elsewhere := absent place
    by_cases here : place = name
    · rw [here, Function.update_self] at elsewhere
      rw [here, split]
      intro member
      rcases List.mem_append.mp member with member | member
      · exact elsewhere (List.mem_append_left _ member)
      · rcases List.mem_cons.mp member with equal | member
        · exact same equal
        · exact elsewhere (List.mem_append_right _ member)
    · rwa [Function.update_of_ne here] at elsewhere
  have holds := entered.shelved.holds name
  have absent_here := before name
  rw [split] at holds absent_here
  exact (DList.remove_heap holds absent_here).trans (entered.detached other alive before)

/-- A virtual processor that is on no list can be removed from any. -/
theorem Entered.remove_absent (entered : Entered sched nodes) (alive : sched.Alive vp)
    (absent : ∀ name, vp ∉ nodes name) : sched.remove name vp = sched := by
  unfold Scheduler.remove Scheduler.withList
  rw [DList.remove_detached (entered.shelved.holds name) (absent name) (entered.detached vp alive absent),
    Function.update_eq_self]

theorem Entered.first_none (entered : Entered sched nodes) : (sched.lists name).first = none ↔ nodes name = [] := by
  rw [(entered.shelved.holds name).first, List.head?_eq_none_iff]

theorem Mapped.push (mapped : Mapped sched nodes) (pri_lt : pri < 64) {after : List Nat} (filled : after ≠ []) :
    Mapped (sched.setPopulated pri) (Function.update nodes (.ready pri) after) := by
  constructor
  · intro other other_lt
    rw [setPopulated_isPopulated]
    by_cases same : other = pri
    · rw [same, Function.update_self]
      exact iff_of_true (.inl rfl) filled
    · rw [Function.update_of_ne (fun equal => same (QueueName.ready.inj equal)), ← mapped.populated other other_lt]
      exact or_iff_right same
  · intro other least
    rw [Function.update_of_ne (fun equal => absurd (QueueName.ready.inj equal) (by omega))]
    exact mapped.bounded other least

theorem Mapped.pop (mapped : Mapped sched nodes) (pri_lt : pri < 64) {after : List Nat}
    (filled : after ≠ [] → nodes (.ready pri) ≠ []) :
    Mapped (if after = [] then sched.clearPopulated pri else sched) (Function.update nodes (.ready pri) after) := by
  constructor
  · intro other other_lt
    by_cases same : other = pri
    · rw [same, Function.update_self]
      by_cases empty : after = []
      · rw [if_pos empty, clearPopulated_isPopulated]
        exact iff_of_false (fun set => set.1 rfl) (fun some => some empty)
      · rw [if_neg empty, mapped.populated pri pri_lt]
        exact iff_of_true (filled empty) empty
    · rw [Function.update_of_ne (fun equal => same (QueueName.ready.inj equal)), ← mapped.populated other other_lt]
      by_cases empty : after = []
      · rw [if_pos empty, clearPopulated_isPopulated]
        exact and_iff_right same
      · rw [if_neg empty]
  · intro other least
    rw [Function.update_of_ne (fun equal => absurd (QueueName.ready.inj equal) (by omega))]
    exact mapped.bounded other least

theorem Mapped.elsewhere {after : Scheduler} (mapped : Mapped sched nodes) (same : after.populated = sched.populated)
    (elsewhere : ∀ pri, name ≠ .ready pri) (list : List Nat) : Mapped after (Function.update nodes name list) := by
  constructor
  · intro pri pri_lt
    rw [Function.update_of_ne (elsewhere pri).symm, Scheduler.IsPopulated, same]
    exact mapped.populated pri pri_lt
  · intro pri least
    rw [Function.update_of_ne (elsewhere pri).symm]
    exact mapped.bounded pri least

end Lists

/-! ## Who is on which list -/

/-- What holds of a virtual processor: the lists that it is on say what it does, whoever can run is on the ready
queue or one of `cover`, and `dead` are those that were terminated. -/
structure Placed (sched : Scheduler) (nodes : Queues) (dead cover : List Nat) (vp : Nat) : Prop where
  ready : ∀ pri, vp ∈ nodes (.ready pri) → sched.Alive vp ∧ (sched.vps vp).effectivePriority = pri ∧
    (sched.vps vp).state = .ready ∧ (sched.vps vp).suspensionCount = 0
  waits : ∀ queue, vp ∈ nodes (.wait queue) → sched.Alive vp ∧ (sched.vps vp).state = .waiting ∧
    (sched.vps vp).waitingOnWaitQueue = some queue
  waiting : (sched.vps vp).state = .waiting →
    ∃ queue, (sched.vps vp).waitingOnWaitQueue = some queue ∧ vp ∈ nodes (.wait queue)
  finals : vp ∈ nodes .finalizer ∨ vp ∈ nodes .deadVps → (sched.vps vp).isTerminated = true
  dead_iff : (sched.vps vp).isTerminated = true ↔ vp ∈ dead
  created : sched.nextVpid ≤ vp → sched.isAllocated vp = false ∧ (sched.vps vp).isTerminated = false
  covered : sched.Alive vp → (sched.vps vp).suspensionCount = 0 → (sched.vps vp).state ≠ .waiting →
    vp ∈ cover ∨ ∃ pri, vp ∈ nodes (.ready pri)

/-- The boot virtual processor walks along the list of the dead ones that it has taken over. -/
structure Held (sched : Scheduler) (nodes : Queues) (dead cover : List Nat) : Prop where
  entered : Entered sched nodes
  mapped : Mapped sched nodes
  walk : ∃ done rest, nodes .deadVps = done ++ rest ∧ sched.nextDeadVp = rest.head?
  placed : ∀ vp, Placed sched nodes dead cover vp

section Members
variable {sched after : Scheduler} {nodes nodes' : Queues} {dead dead' cover cover' : List Nat} {vp : Nat}

theorem Placed.congr (placed : Placed sched nodes dead cover vp) (vps : after.vps vp = sched.vps vp)
    (isAllocated : after.isAllocated vp = sched.isAllocated vp) (nextVpid : after.nextVpid = sched.nextVpid)
    (members : ∀ name, vp ∈ nodes' name ↔ vp ∈ nodes name) (dead_same : vp ∈ dead' ↔ vp ∈ dead)
    (cover_mono : vp ∈ cover → vp ∈ cover') : Placed after nodes' dead' cover' vp := by
  have alive : after.Alive vp ↔ sched.Alive vp := by
    unfold Scheduler.Alive
    rw [vps, isAllocated]
  constructor
  · intro pri
    rw [members, alive, vps]
    exact placed.ready pri
  · intro queue
    rw [members, alive, vps]
    exact placed.waits queue
  · rw [vps]
    intro isWaiting
    obtain ⟨queue, name, member⟩ := placed.waiting isWaiting
    exact ⟨queue, name, (members _).mpr member⟩
  · rw [members, members, vps]
    exact placed.finals
  · rw [vps, dead_same]
    exact placed.dead_iff
  · rw [nextVpid, isAllocated, vps]
    exact placed.created
  · rw [alive, vps]
    intro isAlive resumed awake
    rcases placed.covered isAlive resumed awake with member | ⟨pri, member⟩
    · exact .inl (cover_mono member)
    · exact .inr ⟨pri, (members _).mpr member⟩

theorem Placed.later {next : Nat} (placed : Placed sched nodes dead cover vp) (least : sched.nextVpid ≤ next) :
    Placed { sched with nextVpid := next } nodes dead cover vp :=
  ⟨placed.ready, placed.waits, placed.waiting, placed.finals, placed.dead_iff,
    fun fresh => placed.created (Nat.le_trans least fresh), placed.covered⟩

/-- One virtual processor moves, and the others stay where they are. -/
theorem Held.move (held : Held sched nodes dead cover) (vp : Nat) (entered : Entered after nodes')
    (mapped : Mapped after nodes')
    (vps : ∀ other, other ≠ vp → after.vps other = sched.vps other)
    (isAllocated : after.isAllocated = sched.isAllocated) (nextVpid : after.nextVpid = sched.nextVpid)
    (nextDeadVp : after.nextDeadVp = sched.nextDeadVp) (deadVps : nodes' .deadVps = nodes .deadVps)
    (members : ∀ name other, other ≠ vp → (other ∈ nodes' name ↔ other ∈ nodes name))
    (dead_same : ∀ other, other ≠ vp → (other ∈ dead' ↔ other ∈ dead))
    (cover_mono : ∀ other, other ≠ vp → other ∈ cover → other ∈ cover')
    (placed : Placed after nodes' dead' cover' vp) : Held after nodes' dead' cover' := by
  refine ⟨entered, mapped, ?_, ?_⟩
  · rw [deadVps, nextDeadVp]
    exact held.walk
  · intro other
    by_cases same : other = vp
    · rw [same]
      exact placed
    · exact (held.placed other).congr (vps other same) (by rw [isAllocated]) nextVpid
        (fun name => members name other same) (dead_same other same) (cover_mono other same)

/-- The invariant does not speak about the CPU, the clock and the timeouts. -/
theorem Held.congr (held : Held sched nodes dead cover) (vps : after.vps = sched.vps)
    (isAllocated : after.isAllocated = sched.isAllocated) (nextVpid : after.nextVpid = sched.nextVpid)
    (entries : after.rewaQueueEntries = sched.rewaQueueEntries) (lists : after.lists = sched.lists)
    (populated : after.populated = sched.populated) (nextDeadVp : after.nextDeadVp = sched.nextDeadVp) :
    Held after nodes dead cover := by
  refine ⟨⟨?_, ?_⟩, ⟨?_, held.mapped.bounded⟩, ?_, ?_⟩
  · rw [entries, lists]
    exact held.entered.shelved
  · unfold Scheduler.Alive
    rw [entries, vps, isAllocated]
    exact held.entered.detached
  · unfold Scheduler.IsPopulated
    rw [populated]
    exact held.mapped.populated
  · rw [nextDeadVp]
    exact held.walk
  · intro vp
    exact (held.placed vp).congr (by rw [vps]) (by rw [isAllocated]) nextVpid (fun _ => Iff.rfl) Iff.rfl id

theorem Held.mono (held : Held sched nodes dead cover) (subset : ∀ vp ∈ cover, vp ∈ cover') :
    Held sched nodes dead cover' :=
  ⟨held.entered, held.mapped, held.walk,
    fun vp => (held.placed vp).congr rfl rfl rfl (fun _ => Iff.rfl) Iff.rfl (subset vp)⟩

@[simp] theorem setVp_self (sched : Scheduler) (vp : Nat) (change : VirtualProcessor → VirtualProcessor) :
    (sched.setVp vp change).vps vp = change (sched.vps vp) := Function.update_self _ _ _

theorem setVp_of_ne {other : Nat} (different : other ≠ vp) (change : VirtualProcessor → VirtualProcessor) :
    (sched.setVp vp change).vps other = sched.vps other := Function.update_of_ne different _ _

theorem Entered.setVp {change : VirtualProcessor → VirtualProcessor} (entered : Entered sched nodes)
    (kept : (sched.vps vp).isTerminated = true → (change (sched.vps vp)).isTerminated = true) :
    Entered (sched.setVp vp change) nodes := by
  refine ⟨entered.shelved, ?_⟩
  intro other alive absent
  refine entered.detached other ⟨alive.1, ?_⟩ absent
  by_cases same : other = vp
  · have living := alive.2
    rw [same, setVp_self] at living
    rw [same, Bool.eq_false_iff]
    exact fun terminated => absurd (kept terminated) (by rw [living]; exact Bool.false_ne_true)
  · have living := alive.2
    rwa [setVp_of_ne same] at living

theorem Held.setVp {change : VirtualProcessor → VirtualProcessor} (held : Held sched nodes dead cover)
    (kept : (change (sched.vps vp)).isTerminated = (sched.vps vp).isTerminated)
    (cover_mono : ∀ other, other ≠ vp → other ∈ cover → other ∈ cover')
    (placed : Placed (sched.setVp vp change) nodes dead cover' vp) :
    Held (sched.setVp vp change) nodes dead cover' := by
  refine held.move vp (held.entered.setVp ?_) ⟨held.mapped.populated, held.mapped.bounded⟩
    (fun other different => setVp_of_ne different change) rfl rfl rfl rfl (fun _ _ _ => Iff.rfl) (fun _ _ => Iff.rfl)
    cover_mono placed
  rw [kept]
  exact id

theorem Held.adjust {change : VirtualProcessor → VirtualProcessor} (held : Held sched nodes dead cover)
    (kept : (change (sched.vps vp)).isTerminated = (sched.vps vp).isTerminated)
    (state : (change (sched.vps vp)).state = (sched.vps vp).state)
    (queue : (change (sched.vps vp)).waitingOnWaitQueue = (sched.vps vp).waitingOnWaitQueue)
    (priority : (sched.vps vp).state = .ready →
      (change (sched.vps vp)).effectivePriority = (sched.vps vp).effectivePriority)
    (count : (sched.vps vp).state ≠ .waiting →
      (change (sched.vps vp)).suspensionCount = (sched.vps vp).suspensionCount) :
    Held (sched.setVp vp change) nodes dead cover := by
  have placed := held.placed vp
  have alive : (sched.setVp vp change).Alive vp ↔ sched.Alive vp := by
    unfold Scheduler.Alive
    rw [setVp_self, kept]
    rfl
  refine held.setVp kept (fun _ _ member => member) ?_
  constructor
  · intro pri member
    obtain ⟨isAlive, effective, isReady, resumed⟩ := placed.ready pri member
    rw [alive, setVp_self, priority isReady, state, count (by simp [isReady])]
    exact ⟨isAlive, effective, isReady, resumed⟩
  · intro name
    rw [alive, setVp_self, state, queue]
    exact placed.waits name
  · rw [setVp_self, state, queue]
    exact placed.waiting
  · rw [setVp_self, kept]
    exact placed.finals
  · rw [setVp_self, kept]
    exact placed.dead_iff
  · rw [setVp_self, kept]
    exact placed.created
  · rw [alive, setVp_self, state]
    intro isAlive resumed awake
    rw [count awake] at resumed
    exact placed.covered isAlive resumed awake

/-! ## Moves between the lists -/

section Moves
variable {name : QueueName} {front back : List Nat} {other : Nat} {place : QueueName}

theorem mem_inserted (split : nodes name = front ++ back) (different : other ≠ vp) :
    other ∈ Function.update nodes name (front ++ vp :: back) place ↔ other ∈ nodes place := by
  by_cases same : place = name
  · rw [same, Function.update_self, split]
    simp [different]
  · rw [Function.update_of_ne same]

theorem inserted_mem (absent : ∀ name, vp ∉ nodes name) :
    vp ∈ Function.update nodes name (front ++ vp :: back) place ↔ place = name := by
  by_cases same : place = name
  · rw [same, Function.update_self]
    simp
  · rw [Function.update_of_ne same]
    exact iff_of_false (absent place) same

theorem mem_removed (split : nodes name = front ++ vp :: back) (different : other ≠ vp) :
    other ∈ Function.update nodes name (front ++ back) place ↔ other ∈ nodes place := by
  by_cases same : place = name
  · rw [same, Function.update_self, split]
    simp [different]
  · rw [Function.update_of_ne same]

theorem Entered.removed_absent (entered : Entered sched nodes) (split : nodes name = front ++ vp :: back) :
    vp ∉ Function.update nodes name (front ++ back) place := by
  have nodup := (entered.shelved.holds name).nodup
  rw [split, List.perm_middle.nodup_iff, List.nodup_cons] at nodup
  by_cases same : place = name
  · rw [same, Function.update_self]
    exact nodup.1
  · rw [Function.update_of_ne same]
    intro member
    refine same (entered.shelved.apart place name vp member ?_)
    rw [split]
    simp

end Moves

theorem Placed.unlisted (placed : Placed sched nodes dead cover vp) (absent : ∀ name, vp ∉ nodes' name)
    (kept : (after.vps vp).isTerminated = (sched.vps vp).isTerminated)
    (isAllocated : after.isAllocated vp = sched.isAllocated vp) (nextVpid : after.nextVpid = sched.nextVpid)
    (awake : (after.vps vp).state ≠ .waiting)
    (covered : sched.Alive vp → (after.vps vp).suspensionCount = 0 → vp ∈ cover') :
    Placed after nodes' dead cover' vp := by
  constructor
  · exact fun pri member => absurd member (absent _)
  · exact fun queue member => absurd member (absent _)
  · exact fun isWaiting => absurd isWaiting awake
  · exact fun member => member.elim (fun member => absurd member (absent _)) fun member => absurd member (absent _)
  · rw [kept]
    exact placed.dead_iff
  · rw [nextVpid, isAllocated, kept]
    exact placed.created
  · rintro ⟨allocated, living⟩ resumed -
    rw [isAllocated] at allocated
    rw [kept] at living
    exact .inl (covered ⟨allocated, living⟩ resumed)

variable {pri : Nat} {front back : List Nat} {queue : WaitQueueName}

/-- A virtual processor that is on no list enters the ready queue. -/
theorem Held.push (held : Held sched nodes dead (vp :: cover)) (alive : sched.Alive vp)
    (absent : ∀ name, vp ∉ nodes name) (pri_lt : pri < 64) (effective : (sched.vps vp).effectivePriority = pri)
    (isReady : (sched.vps vp).state = .ready) (resumed : (sched.vps vp).suspensionCount = 0) :
    Held ((sched.insertAfterLast (.ready pri) vp).setPopulated pri)
      (Function.update nodes (.ready pri) (nodes (.ready pri) ++ [vp])) dead cover := by
  have entered := @Entered.insertAfterLast _ _ (.ready pri) _ held.entered absent
  have unchanged : Mapped (sched.insertAfterLast (.ready pri) vp) nodes :=
    ⟨held.mapped.populated, held.mapped.bounded⟩
  have here := fun place => @inserted_mem nodes vp (.ready pri) (nodes (.ready pri)) [] place absent
  refine held.move vp ⟨entered.shelved, entered.detached⟩ (unchanged.push pri_lt (by simp)) (fun _ _ => rfl) rfl rfl rfl
    (Function.update_of_ne (by simp) _ _) ?_ (fun _ _ => Iff.rfl) ?_ ?_
  · intro name other different
    exact mem_inserted (List.append_nil _).symm different
  · intro other different member
    exact (List.mem_cons.mp member).resolve_left different
  · constructor
    · intro place member
      rw [here] at member
      rw [QueueName.ready.inj member]
      exact ⟨alive, effective, isReady, resumed⟩
    · intro queue member
      rw [here] at member
      exact absurd member (by simp)
    · intro isWaiting
      exact absurd (isReady.symm.trans isWaiting) (by simp)
    · intro member
      rw [here, here] at member
      exact absurd member (by simp)
    · exact (held.placed vp).dead_iff
    · exact (held.placed vp).created
    · intro _ _ _
      exact .inr ⟨pri, (here _).mpr rfl⟩

/-- A virtual processor leaves a list without doing anything else. -/
theorem Held.leave {name : QueueName} (held : Held sched nodes dead cover)
    (split : nodes name = front ++ vp :: back) (entered : Entered after (Function.update nodes name (front ++ back)))
    (mapped : Mapped after (Function.update nodes name (front ++ back)))
    (vps : ∀ other, other ≠ vp → after.vps other = sched.vps other)
    (isAllocated : after.isAllocated = sched.isAllocated) (nextVpid : after.nextVpid = sched.nextVpid)
    (nextDeadVp : after.nextDeadVp = sched.nextDeadVp) (kept_name : name ≠ .deadVps)
    (kept : (after.vps vp).isTerminated = (sched.vps vp).isTerminated) (awake : (after.vps vp).state ≠ .waiting) :
    Held after (Function.update nodes name (front ++ back)) dead (vp :: cover) := by
  refine held.move vp entered mapped vps isAllocated nextVpid nextDeadVp (Function.update_of_ne kept_name.symm _ _)
    (fun _ _ => mem_removed split) (fun _ _ => Iff.rfl) (fun _ _ => List.mem_cons_of_mem _) ?_
  exact (held.placed vp).unlisted (fun _ => held.entered.removed_absent split) kept (by rw [isAllocated]) nextVpid
    awake fun _ _ => List.mem_cons_self

theorem Held.pull (held : Held sched nodes dead cover)
    (split : nodes (.ready pri) = front ++ vp :: back) (pri_lt : pri < 64) :
    Held (if front ++ back = [] then (sched.remove (.ready pri) vp).clearPopulated pri
        else sched.remove (.ready pri) vp)
      (Function.update nodes (.ready pri) (front ++ back)) dead (vp :: cover) := by
  have entered := held.entered.remove split
  have unchanged : Mapped (sched.remove (.ready pri) vp) nodes := ⟨held.mapped.populated, held.mapped.bounded⟩
  have filled : front ++ back ≠ [] → nodes (.ready pri) ≠ [] := by
    rw [split]
    simp
  have mapped := unchanged.pop pri_lt filled
  have member : vp ∈ nodes (.ready pri) := by
    rw [split]
    simp
  have awake : (sched.vps vp).state ≠ .waiting := by
    rw [((held.placed vp).ready pri member).2.2.1]
    simp
  split
  · rename_i empty
    rw [if_pos empty] at mapped
    exact held.leave split ⟨entered.shelved, entered.detached⟩ mapped (fun _ _ => rfl) rfl rfl rfl (by simp) rfl awake
  · rename_i some
    rw [if_neg some] at mapped
    exact held.leave split entered mapped (fun _ _ => rfl) rfl rfl rfl (by simp) rfl awake

theorem Held.enterWait {change : VirtualProcessor → VirtualProcessor}
    (held : Held sched nodes dead (vp :: cover)) (alive : sched.Alive vp) (absent : ∀ name, vp ∉ nodes name)
    (split : nodes (.wait queue) = front ++ back)
    (kept : (change (sched.vps vp)).isTerminated = (sched.vps vp).isTerminated)
    (isWaiting : (change (sched.vps vp)).state = .waiting)
    (on : (change (sched.vps vp)).waitingOnWaitQueue = some queue) :
    Held ((sched.insertAfter (.wait queue) vp front.getLast?).setVp vp change)
      (Function.update nodes (.wait queue) (front ++ vp :: back)) dead cover := by
  have entered : Entered ((sched.insertAfter (.wait queue) vp front.getLast?).setVp vp change) _ :=
    (held.entered.insertAfter split absent).setVp fun terminated => kept.trans terminated
  have mapped := @Mapped.elsewhere sched nodes (.wait queue)
    ((sched.insertAfter (.wait queue) vp front.getLast?).setVp vp change) held.mapped rfl (by simp)
    (front ++ vp :: back)
  have here := fun place => @inserted_mem nodes vp (.wait queue) front back place absent
  refine held.move vp entered mapped (fun other different => setVp_of_ne different change) rfl rfl rfl
    (Function.update_of_ne (by simp) _ _) (fun _ _ => mem_inserted split) (fun _ _ => Iff.rfl)
    (fun other different member => (List.mem_cons.mp member).resolve_left different) ?_
  constructor
  · intro pri member
    rw [here] at member
    exact absurd member (by simp)
  · intro name member
    rw [here] at member
    rw [QueueName.wait.inj member, setVp_self]
    exact ⟨⟨alive.1, by rw [setVp_self]; exact kept.trans alive.2⟩, isWaiting, on⟩
  · intro _
    rw [setVp_self]
    exact ⟨queue, on, (here _).mpr rfl⟩
  · intro member
    rw [here, here] at member
    exact absurd member (by simp)
  · rw [setVp_self, show (change ((sched.insertAfter _ vp _).vps vp)).isTerminated = _ from kept]
    exact (held.placed vp).dead_iff
  · rw [setVp_self, show (change ((sched.insertAfter _ vp _).vps vp)).isTerminated = _ from kept]
    exact (held.placed vp).created
  · intro _ _ awake
    rw [setVp_self] at awake
    exact absurd isWaiting awake

theorem Held.leaveWait {change : VirtualProcessor → VirtualProcessor}
    (held : Held sched nodes dead cover) (split : nodes (.wait queue) = front ++ vp :: back)
    (kept : (change (sched.vps vp)).isTerminated = (sched.vps vp).isTerminated)
    (awake : (change (sched.vps vp)).state ≠ .waiting) :
    Held ((sched.remove (.wait queue) vp).setVp vp change) (Function.update nodes (.wait queue) (front ++ back)) dead
      (vp :: cover) := by
  have entered : Entered ((sched.remove (.wait queue) vp).setVp vp change) _ :=
    (held.entered.remove split).setVp fun terminated => kept.trans terminated
  have mapped := @Mapped.elsewhere sched nodes (.wait queue) ((sched.remove (.wait queue) vp).setVp vp change)
    held.mapped rfl (by simp) (front ++ back)
  refine held.leave split entered mapped (fun other different => setVp_of_ne different change) rfl rfl rfl (by simp)
    ?_ ?_
  · rw [setVp_self]
    exact kept
  · rw [setVp_self]
    exact awake

theorem Held.finalize (held : Held sched nodes dead (vp :: cover)) (alive : sched.Alive vp)
    (absent : ∀ name, vp ∉ nodes name) (awake : (sched.vps vp).state ≠ .waiting) :
    Held ((sched.setVp vp fun self => { self with isTerminated := true }).insertAfterLast .finalizer vp)
      (Function.update nodes .finalizer (nodes .finalizer ++ [vp])) (vp :: dead) cover := by
  have terminated : Entered (sched.setVp vp fun self => { self with isTerminated := true }) nodes :=
    held.entered.setVp fun _ => rfl
  have entered := @Entered.insertAfterLast _ _ .finalizer _ terminated absent
  have mapped := @Mapped.elsewhere sched nodes .finalizer
    ((sched.setVp vp fun self => { self with isTerminated := true }).insertAfterLast .finalizer vp) held.mapped rfl
    (by simp) (nodes .finalizer ++ [vp])
  have here := fun place => @inserted_mem nodes vp .finalizer (nodes .finalizer) [] place absent
  have self_eq : ((sched.setVp vp fun self => { self with isTerminated := true }).insertAfterLast .finalizer vp).vps vp =
      { sched.vps vp with isTerminated := true } :=
    setVp_self sched vp fun self => { self with isTerminated := true }
  refine held.move vp entered mapped (fun other different => Function.update_of_ne different _ _) rfl rfl rfl
    (Function.update_of_ne (by simp) _ _) (fun _ _ => mem_inserted (List.append_nil _).symm) ?_
    (fun other different member => (List.mem_cons.mp member).resolve_left different) ?_
  · intro other different
    rw [List.mem_cons]
    exact or_iff_right different
  · constructor
    · intro pri member
      rw [here] at member
      exact absurd member (by simp)
    · intro name member
      rw [here] at member
      exact absurd member (by simp)
    · rw [self_eq]
      exact fun isWaiting => absurd isWaiting awake
    · intro _
      rw [self_eq]
    · rw [self_eq]
      exact iff_of_true rfl List.mem_cons_self
    · intro fresh
      exact absurd alive.1 (by rw [((held.placed vp).created fresh).1]; exact Bool.false_ne_true)
    · rintro ⟨-, living⟩
      rw [self_eq] at living
      exact absurd living (by simp)

end Members

end Apollo.Dispatcher.VirtualProcessorScheduler
