import Apollo.Driver.InterruptController
import Apollo.Lib.Runs
import Mathlib.Data.List.Nodup

/-!
# The tables of the interrupt controller

The handlers that the calls asked for, in the order of their registration, are the abstract
state; `Holds` says how the arrays represent them, and `Awaits` what a call in progress
still has to do.
-/

set_option autoImplicit false

namespace Apollo.Driver

open Lib InterruptController

/-! ## Handlers -/

section Handlers
variable (handler : InterruptHandler)

/-- The enabled handlers are invoked, once each, in the order of the array. -/
theorem onInterrupt_eq (handlers : List InterruptHandler) :
    onInterrupt handlers = (handlers.filter (·.isEnabled)).map fun handler => (handler.closure, handler.context) := by
  induction handlers with
  | nil => rfl
  | cons handler rest ih =>
    unfold onInterrupt
    by_cases enabled : handler.isEnabled = true
    · rw [if_pos enabled, List.filter_cons_of_pos enabled, List.map_cons, ih]
    · rw [if_neg enabled, List.filter_cons_of_neg enabled, ih]

end Handlers

/-! ## Searching -/

section Search
variable {controller : InterruptController} {interruptId : InterruptID} {handlerId : Int}

def InterruptController.Has (controller : InterruptController) (interruptId : InterruptID) (handlerId : Int) : Prop :=
  ∃ handler ∈ controller.handlers interruptId, handler.identity = handlerId

theorem any_identity : (controller.handlers interruptId).any (·.identity == handlerId) = true ↔ controller.Has interruptId handlerId := by
  simp [InterruptController.Has]

theorem foldl_last {ι : Type} (test : ι → Bool) (all : List ι) (found : Option ι) (last : ι)
    (isLast : all.foldl (fun found index => if test index then some index else found) found = some last) :
    test last = true ∨ found = some last := by
  induction all generalizing found with
  | nil => exact .inr isLast
  | cons index rest ih =>
    rcases ih _ isLast with holds | kept
    · exact .inl holds
    · dsimp only at kept
      split_ifs at kept with holds
      · exact .inl (Option.some.inj kept ▸ holds)
      · exact .inr kept

theorem foldl_last_none {ι : Type} (test : ι → Bool) (all : List ι) (found : Option ι)
    (isNone : all.foldl (fun found index => if test index then some index else found) found = none) :
    found = none ∧ ∀ index ∈ all, test index = false := by
  induction all generalizing found with
  | nil => exact ⟨isNone, fun _ member => absurd member List.not_mem_nil⟩
  | cons index rest ih =>
    obtain ⟨kept, others⟩ := ih _ isNone
    dsimp only at kept
    split_ifs at kept with holds
    exact ⟨kept, List.forall_mem_cons.mpr ⟨Bool.eq_false_iff.mpr holds, others⟩⟩

theorem interruptOf_none (missing : controller.interruptOf handlerId = none) (interruptId : InterruptID) :
    ¬controller.Has interruptId handlerId := by
  have none := (foldl_last_none _ _ none missing).2 interruptId (List.mem_finRange interruptId)
  rw [← any_identity, none]
  decide

theorem interruptOf_some (found : controller.interruptOf handlerId = some interruptId) : controller.Has interruptId handlerId :=
  any_identity.mp ((foldl_last _ _ none interruptId found).resolve_right (by simp))

theorem arrayOf_some (found : controller.arrayOf handlerId = some interruptId) : controller.Has interruptId handlerId :=
  any_identity.mp (List.find?_some (p := fun index => (controller.handlers index).any (·.identity == handlerId)) found)

theorem changeFirst_eq (change : InterruptHandler → InterruptHandler) (handlerId : Int) {handlers : List InterruptHandler}
    (distinct : handlers.Pairwise fun first second => first.identity ≠ second.identity) :
    changeFirst change handlerId handlers =
      handlers.map fun handler => if handler.identity = handlerId then change handler else handler := by
  induction handlers with
  | nil => rfl
  | cons handler rest ih =>
    obtain ⟨others, distinct⟩ := List.pairwise_cons.mp distinct
    unfold changeFirst
    rw [List.map_cons]
    split_ifs with isIt
    · congr 1
      refine (List.map_id rest).symm.trans (List.map_congr_left fun other member => (if_neg ?_).symm)
      exact fun same => others other member (isIt.trans same.symm)
    · rw [ih distinct]

end Search

/-! ## The invariant -/

abbrev Ordered (first second : InterruptHandler) : Prop :=
  Precedes InterruptHandler.priority (fun first second => first.identity < second.identity) first second

structure Holds (controller : InterruptController) (entries : List Entry) : Prop where
  ascending : entries.Pairwise fun first second => first.2.identity < second.2.identity
  issued : ∀ entry ∈ entries, 0 < entry.2.identity ∧ entry.2.identity < controller.nextAvailableId
  arrays : ∀ interruptId, (controller.handlers interruptId).Perm (entriesOf interruptId entries)
  ordered : ∀ interruptId, (controller.handlers interruptId).Pairwise Ordered

/-- The source of an interrupt with handlers is unmasked; the external and the port interrupts are so also with others. -/
structure SourceMatches (chipset : Chipset) (interruptId : InterruptID) (handlers : List InterruptHandler) : Prop where
  unmasked : handlers ≠ [] → chipset.isUnmasked interruptId = true
  master : handlers ≠ [] → chipset.isMasterEnabled = true
  masked : chipset.isUnmasked interruptId = true →
    handlers ≠ [] ∨ interruptId = kInterruptIDExtern ∨ interruptId = kInterruptIDPorts

def InterruptController.Matches (controller : InterruptController) (interruptId : InterruptID) : Prop :=
  SourceMatches controller.chipset interruptId (controller.handlers interruptId)

/-- What a call in progress still has to do until the registrations are those in `target`; the source of the interrupt it is
for may not match its array yet. -/
inductive Awaits (controller : InterruptController) (entries : List Entry) : List Entry → Option PendingCall → Prop
  | idle (sources : ∀ interruptId, controller.Matches interruptId) : Awaits controller entries entries none
  | adding {interruptId : InterruptID} {handler : InterruptHandler} (sources : ∀ other, controller.Matches other)
      (issued : 0 < handler.identity ∧ handler.identity < controller.nextAvailableId)
      (later : ∀ entry ∈ entries, entry.2.identity < handler.identity) :
      Awaits controller entries (entries ++ [(interruptId, handler)])
        (some (.adding interruptId (controller.arrayWith interruptId handler) handler))
  | enabling {interruptId : InterruptID} {handlerId : Int} (sources : ∀ other, other ≠ interruptId → controller.Matches other)
      (used : controller.handlers interruptId ≠ []) : Awaits controller entries entries (some (.enabling interruptId handlerId))
  | removing {interruptId : InterruptID} {handlerId : Int} (sources : ∀ other, controller.Matches other)
      (has : controller.Has interruptId handlerId) :
      Awaits controller entries (entries.filter (·.2.identity != handlerId))
        (some (.removing interruptId (controller.arrayWithout interruptId handlerId) handlerId))
  | installing {interruptId : InterruptID} {handlerId : Int} (sources : ∀ other, other ≠ interruptId → controller.Matches other)
      (has : controller.Has interruptId handlerId)
      (source : SourceMatches controller.chipset interruptId (controller.arrayWithout interruptId handlerId)) :
      Awaits controller entries (entries.filter (·.2.identity != handlerId))
        (some (.installing interruptId (controller.arrayWithout interruptId handlerId) handlerId))

section Entries
variable {controller : InterruptController} {entries : List Entry} {interruptId other : InterruptID} {handlerId : Int}
  {handler : InterruptHandler}

theorem mem_entriesOf : handler ∈ entriesOf interruptId entries ↔ (interruptId, handler) ∈ entries := by
  unfold entriesOf
  rw [List.mem_map]
  constructor
  · rintro ⟨⟨found, _⟩, member, rfl⟩
    obtain ⟨inEntries, same⟩ := List.mem_filter.mp member
    obtain rfl : found = interruptId := eq_of_beq same
    exact inEntries
  · intro member
    exact ⟨(interruptId, handler), List.mem_filter.mpr ⟨member, beq_self_eq_true interruptId⟩, rfl⟩

theorem entriesOf_filter (test : InterruptHandler → Bool) :
    entriesOf interruptId (entries.filter fun entry => test entry.2) = (entriesOf interruptId entries).filter test := by
  unfold entriesOf
  rw [List.filter_map, List.filter_filter, List.filter_filter]
  congr 2
  funext entry
  exact Bool.and_comm ..

theorem entriesOf_map (change : InterruptHandler → InterruptHandler) :
    entriesOf interruptId (entries.map fun entry => (entry.1, change entry.2)) = (entriesOf interruptId entries).map change := by
  unfold entriesOf
  rw [List.filter_map, List.map_map, List.map_map]
  rfl

theorem Holds.mem_iff (holds : Holds controller entries) :
    handler ∈ controller.handlers interruptId ↔ (interruptId, handler) ∈ entries :=
  (holds.arrays interruptId).mem_iff.trans mem_entriesOf

theorem Holds.eq_of_identity (holds : Holds controller entries) {first second : Entry} (member : first ∈ entries)
    (member' : second ∈ entries) (same : first.2.identity = second.2.identity) : first = second := by
  have nodup : (entries.map fun entry => entry.2.identity).Nodup :=
    List.pairwise_map.mpr (holds.ascending.imp fun less => ne_of_lt less)
  exact List.inj_on_of_nodup_map nodup member member' same

theorem Holds.unique (holds : Holds controller entries) (has : controller.Has interruptId handlerId)
    (has' : controller.Has other handlerId) : other = interruptId := by
  obtain ⟨handler, member, rfl⟩ := has
  obtain ⟨handler', member', same⟩ := has'
  exact congrArg Prod.fst (holds.eq_of_identity (holds.mem_iff.mp member') (holds.mem_iff.mp member) same)

theorem Holds.distinct (holds : Holds controller entries) (interruptId : InterruptID) :
    (controller.handlers interruptId).Pairwise fun first second => first.identity ≠ second.identity := by
  refine ((holds.arrays interruptId).pairwise_iff fun differs => differs.symm).mpr ?_
  refine List.pairwise_map.mpr ((holds.ascending.filter _).imp fun less => ne_of_lt less)

end Entries

/-! ## Steps -/

section Steps
variable {controller : InterruptController} {entries : List Entry} {interruptId other : InterruptID} {handlerId : Int}
  {handler : InterruptHandler}

variable {chipset : Chipset} {handlers : List InterruptHandler}

theorem SourceMatches.enable
    (source : other ≠ interruptId → SourceMatches chipset other handlers) (used : other = interruptId → handlers ≠ []) :
    SourceMatches (chipset.enableInterrupt interruptId) other handlers := by
  by_cases same : other = interruptId
  · exact ⟨fun _ => by rw [chipset.isUnmasked_enableInterrupt, same]; simp,
      fun _ => chipset.isMasterEnabled_enableInterrupt interruptId, fun _ => .inl (used same)⟩
  · obtain ⟨unmasked, -, masked⟩ := source same
    refine ⟨fun some => ?_, fun _ => chipset.isMasterEnabled_enableInterrupt interruptId, fun on => ?_⟩
    · rw [chipset.isUnmasked_enableInterrupt, unmasked some, Bool.true_or]
    · rw [chipset.isUnmasked_enableInterrupt, Bool.or_eq_true, Bool.or_eq_true, Bool.or_eq_true, beq_iff_eq, beq_iff_eq,
        beq_iff_eq] at on
      rcases on with on | is | fixed
      · exact masked on
      · exact absurd is same
      · exact .inr fixed

theorem SourceMatches.disable
    (source : SourceMatches chipset other handlers) (different : other ≠ interruptId) :
    SourceMatches (chipset.disableInterrupt interruptId) other handlers := by
  have same : (chipset.disableInterrupt interruptId).isUnmasked other = chipset.isUnmasked other := by
    rw [chipset.isUnmasked_disableInterrupt, beq_eq_false_iff_ne.mpr different, Bool.not_false, Bool.and_true]
  have master := chipset.isMasterEnabled_disableInterrupt interruptId
  exact ⟨fun some => same ▸ source.unmasked some, fun some => master ▸ source.master some, fun on => source.masked (same ▸ on)⟩

theorem SourceMatches.disabled_none (chipset : Chipset) (interruptId : InterruptID) :
    SourceMatches (chipset.disableInterrupt interruptId) interruptId [] := by
  have off : (chipset.disableInterrupt interruptId).isUnmasked interruptId = false := by
    rw [chipset.isUnmasked_disableInterrupt, beq_self_eq_true, Bool.not_true, Bool.and_false]
  exact ⟨fun some => absurd rfl some, fun some => absurd rfl some, fun on => absurd (off.symm.trans on) (by decide)⟩

/-- A source of a CIA with handlers is enabled if the source is that carries its interrupts. -/
theorem SourceMatches.enabled (source : SourceMatches chipset interruptId handlers) (some : handlers ≠ [])
    (carried : ∀ carrier ∈ Chipset.carrier interruptId, chipset.isEnabled carrier = true) :
    chipset.isEnabled interruptId = true := by
  unfold Chipset.isEnabled
  rw [source.unmasked some, source.master some, Bool.and_self, Bool.true_and, Option.all_eq_true]
  exact fun carrier isCarrier => Chipset.isUnmasked_of_isEnabled (carried carrier isCarrier)

theorem handlers_install (controller : InterruptController) (newHandlers : List InterruptHandler) (other : InterruptID) :
    (controller.install interruptId newHandlers).handlers other =
      if other = interruptId then newHandlers else controller.handlers other := by
  exact Function.update_apply ..

theorem Holds.add (holds : Holds controller entries)
    (issued : 0 < handler.identity ∧ handler.identity < controller.nextAvailableId)
    (later : ∀ entry ∈ entries, entry.2.identity < handler.identity) :
    Holds (controller.install interruptId (controller.arrayWith interruptId handler)) (entries ++ [(interruptId, handler)]) := by
  refine ⟨?_, fun entry member => ?_, fun other => ?_, fun other => ?_⟩
  · refine List.pairwise_append.mpr ⟨holds.ascending, List.pairwise_singleton _ _, fun entry member last isLast => ?_⟩
    rw [List.mem_singleton.mp isLast]
    exact later entry member
  · rcases List.mem_append.mp member with old | new
    · exact holds.issued entry old
    · rw [List.mem_singleton.mp new]
      exact issued
  · have parts : entriesOf other (entries ++ [(interruptId, handler)]) =
        entriesOf other entries ++ if other = interruptId then [handler] else [] := by
      unfold entriesOf
      by_cases same : other = interruptId
      · simp [same]
      · simp [same, Ne.symm same]
    rw [parts, handlers_install]
    split_ifs with same
    · subst same
      exact (sortDescending_perm _).trans ((holds.arrays other).append_right _)
    · rw [List.append_nil]
      exact holds.arrays other
  · rw [handlers_install]
    split_ifs with same
    · refine pairwise_sortDescending (List.pairwise_append.mpr ⟨?_, List.pairwise_singleton _ _, ?_⟩)
      · refine (holds.ordered interruptId).imp fun {first second} precedes samePriority => ?_
        rcases precedes with less | ⟨-, before⟩
        · exact absurd samePriority.symm (ne_of_lt less)
        · exact before
      · intro old member last isLast _
        rw [List.mem_singleton.mp isLast]
        exact later _ (holds.mem_iff.mp member)
    · exact holds.ordered other

theorem Holds.remove (holds : Holds controller entries) (has : controller.Has interruptId handlerId) :
    Holds (controller.install interruptId (controller.arrayWithout interruptId handlerId))
      (entries.filter (·.2.identity != handlerId)) := by
  have arrays (other : InterruptID) : (controller.install interruptId (controller.arrayWithout interruptId handlerId)).handlers other =
      (controller.handlers other).filter (·.identity != handlerId) := by
    rw [handlers_install]
    split_ifs with same
    · rw [same]
      rfl
    · refine (List.filter_eq_self.mpr fun found member => bne_iff_ne.mpr fun isIt => same ?_).symm
      exact holds.unique has ⟨found, member, isIt⟩
  refine ⟨holds.ascending.filter _, fun entry member => holds.issued entry (List.mem_filter.mp member).1, fun other => ?_,
    fun other => ?_⟩
  · rw [arrays, entriesOf_filter fun handler => handler.identity != handlerId]
    exact (holds.arrays other).filter _
  · rw [arrays]
    exact (holds.ordered other).filter _

theorem identity_setEnabledIf (enabled : Bool) : (handler.setEnabledIf handlerId enabled).identity = handler.identity := by
  unfold InterruptHandler.setEnabledIf
  split_ifs <;> rfl

theorem priority_setEnabledIf (enabled : Bool) : (handler.setEnabledIf handlerId enabled).priority = handler.priority := by
  unfold InterruptHandler.setEnabledIf
  split_ifs <;> rfl

theorem Holds.change (holds : Holds controller entries) (has : controller.Has interruptId handlerId) (enabled : Bool) :
    Holds (controller.install interruptId (changeFirst (·.setEnabled enabled) handlerId (controller.handlers interruptId)))
      (entries.map fun entry => (entry.1, entry.2.setEnabledIf handlerId enabled)) := by
  have arrays (other : InterruptID) :
      (controller.install interruptId (changeFirst (·.setEnabled enabled) handlerId (controller.handlers interruptId))).handlers other =
        (controller.handlers other).map (·.setEnabledIf handlerId enabled) := by
    rw [handlers_install]
    split_ifs with same
    · rw [same]
      exact changeFirst_eq _ handlerId (holds.distinct interruptId)
    · refine (List.map_id _).symm.trans (List.map_congr_left fun found member => (if_neg fun isIt => same ?_).symm)
      exact holds.unique has ⟨found, member, isIt⟩
  refine ⟨List.pairwise_map.mpr (holds.ascending.imp fun {first second} less => ?_), fun entry member => ?_, fun other => ?_,
    fun other => ?_⟩
  · rw [identity_setEnabledIf, identity_setEnabledIf]
    exact less
  · obtain ⟨old, inEntries, rfl⟩ := List.mem_map.mp member
    rw [identity_setEnabledIf]
    exact holds.issued old inEntries
  · rw [arrays, entriesOf_map fun handler => handler.setEnabledIf handlerId enabled]
    exact (holds.arrays other).map _
  · rw [arrays]
    refine List.pairwise_map.mpr ((holds.ordered other).imp fun {first second} precedes => ?_)
    simp only [Ordered, Precedes, priority_setEnabledIf, identity_setEnabledIf]
    exact precedes

/-! ## Labels -/

section Labels
variable {labels : List (InterruptRequest × InterruptReply)} {request : InterruptRequest} {reply : InterruptReply}
  {entry : Entry}

theorem toInt8_eq_self {value : Int} (low : -128 ≤ value) (high : value ≤ 127) : toInt8 value = value := by
  unfold toInt8
  rw [BitVec.toInt_ofInt]
  exact Int.bmod_eq_of_le (by omega) (by omega)

/-- The handler that `InterruptController_AddDirectInterruptHandler` makes is the one that was asked for. -/
theorem registers_addDirect (handlerId priority : Int) (closure context : Nat) (memory : Bool) :
    (InterruptRequest.addDirect interruptId priority closure context memory).registers handlerId =
      some (interruptId, { InterruptHandler.makeDirect priority closure context with identity := handlerId }) := by
  unfold InterruptRequest.registers InterruptHandler.makeDirect kInterruptHandlerPriorityHighest kInterruptHandlerPriorityLowest
  dsimp only
  rw [toInt8_eq_self (by omega) (by omega)]

theorem requested_failed : requested ((request, .failed) :: labels) = requested labels := if_pos rfl

theorem adds_failed : adds ((request, .failed) :: labels) = adds labels := if_neg fun ⟨accepted, _⟩ => accepted rfl

theorem adds_none (none : request.registers 0 = none) : adds ((request, reply) :: labels) = adds labels :=
  if_neg fun ⟨_, isSome⟩ => absurd (none ▸ isSome) (by decide)

theorem requested_applied (accepted : reply ≠ .failed) :
    requested ((request, reply) :: labels) = request.applied (adds labels + 1) (requested labels) := if_neg accepted

theorem requested_resume : requested ((.resume, reply) :: labels) = requested labels := by
  by_cases failed : reply = .failed
  · exact if_pos failed
  · exact (requested_applied failed).trans (List.append_nil _)

theorem requested_interrupt : requested ((.interrupt interruptId, reply) :: labels) = requested labels := by
  by_cases failed : reply = .failed
  · exact if_pos failed
  · exact (requested_applied failed).trans (List.append_nil _)

theorem applied_registers (registers : ∀ handlerId, ∃ entry, request.registers handlerId = some entry) (handlerId : Int) :
    request.applied handlerId entries = entries ++ (request.registers handlerId).toList := by
  obtain ⟨entry, registers⟩ := registers handlerId
  cases request <;> first | rfl | cases registers

theorem beforeCall_registers (registers : request.registers 0 = some entry) : beforeCall ((request, reply) :: labels) = labels := by
  cases request <;> first | rfl | cases registers

theorem le_of_mem_numbers {count : Nat} {handlerId : Int} (member : handlerId ∈ numbers count) : handlerId ≤ count := by
  induction count with
  | zero => exact absurd member List.not_mem_nil
  | succ count ih =>
    rcases List.mem_cons.mp member with rfl | later
    · exact le_refl _
    · exact (ih later).trans (by omega)

theorem nodup_numbers (count : Nat) : (numbers count).Nodup := by
  induction count with
  | zero => exact .nil
  | succ count ih => exact List.nodup_cons.mpr ⟨fun member => absurd (le_of_mem_numbers member) (by omega), ih⟩

end Labels

end Steps

/-! ## Runs -/

/-- The id of a call in progress that adds a handler. -/
def issuing : Option PendingCall → List Int
  | some (.adding _ _ handler) => [handler.identity]
  | some (.enabling _ handlerId) => [handlerId]
  | _ => []

namespace InterruptSystem

structure Tables (labels : List (InterruptRequest × InterruptReply)) (system : InterruptSystem) (entries : List Entry) : Prop where
  holds : Holds system.controller entries
  awaits : Awaits system.controller entries (requested labels) system.pending
  shown : entries = requested labels ∨ system.pending ≠ none ∧ entries = requested (beforeCall labels)
  next : system.controller.nextAvailableId = adds labels + 1
  ids : issuing system.pending ++ issuedIds labels = numbers (adds labels)

section Kept
variable {labels : List (InterruptRequest × InterruptReply)} {system after : InterruptSystem} {request : InterruptRequest}
  {reply : InterruptReply} {entries : List Entry}

theorem Tables.begin : Tables [] start [] where
  holds :=
    { ascending := .nil
      issued := fun _ member => absurd member List.not_mem_nil
      arrays := fun _ => .nil
      ordered := fun _ => .nil }
  awaits := .idle fun interruptId =>
    ⟨fun some => absurd rfl some, fun some => absurd rfl some,
      fun on => absurd ((Chipset.isUnmasked_reset interruptId).symm.trans on) (by decide)⟩
  shown := .inl rfl
  next := rfl
  ids := rfl

variable {interruptId : InterruptID} {handler : InterruptHandler} {memory : Bool} {handlerId : Int}

theorem changeFirst_eq_nil (change : InterruptHandler → InterruptHandler) (handlerId : Int) (handlers : List InterruptHandler) :
    changeFirst change handlerId handlers = [] ↔ handlers = [] := by
  cases handlers with
  | nil => exact Iff.rfl
  | cons handler rest =>
    unfold changeFirst
    split_ifs <;> simp

section
variable (tables : Tables labels system entries)
include tables

theorem Tables.settled (free : system.pending = none) : entries = requested labels :=
  tables.shown.resolve_right fun ⟨busy, _⟩ => busy free

theorem Tables.matches_all (free : system.pending = none) (interruptId : InterruptID) :
    system.controller.Matches interruptId := by
  have awaits := tables.awaits
  rw [free] at awaits
  generalize requested labels = target at awaits
  cases awaits with
  | idle sources => exact sources interruptId

/-- A label that says nothing about the registrations. -/
theorem Tables.quiet (same : requested ((request, reply) :: labels) = requested labels)
    (count : adds ((request, reply) :: labels) = adds labels) (ids : issuedIds ((request, reply) :: labels) = issuedIds labels)
    (before : system.pending = none ∨ beforeCall ((request, reply) :: labels) = beforeCall labels) :
    Tables ((request, reply) :: labels) system entries := by
  refine ⟨tables.holds, same ▸ tables.awaits, ?_, count ▸ tables.next, by rw [ids, count]; exact tables.ids⟩
  rw [same]
  rcases before with free | before
  · exact .inl (tables.settled free)
  · rw [before]
    exact tables.shown

theorem Tables.addInterruptHandler (free : system.pending = none)
    (registers : ∀ handlerId, request.registers handlerId = some (interruptId, { handler with identity := handlerId }))
    (added : system.addInterruptHandler interruptId handler memory = some (reply, after)) :
    Tables ((request, reply) :: labels) after entries := by
  unfold InterruptSystem.addInterruptHandler at added
  split_ifs at added with delivered fits
  · obtain ⟨rfl, rfl⟩ := Prod.mk.inj (Option.some.inj added)
    obtain rfl := tables.settled free
    have sources := tables.matches_all free
    have ids := tables.ids
    rw [free] at ids
    have asked : requested ((request, .proceeds) :: labels) =
        requested labels ++ [(interruptId, { handler with identity := system.controller.nextAvailableId })] := by
      rw [requested_applied (by decide), applied_registers (fun handlerId => ⟨_, registers handlerId⟩), registers, tables.next]
      rfl
    have count : adds ((request, .proceeds) :: labels) = adds labels + 1 := if_pos ⟨by decide, by rw [registers]; rfl⟩
    refine ⟨⟨tables.holds.ascending, fun entry member => ?_, tables.holds.arrays, tables.holds.ordered⟩, ?_, .inr ⟨nofun, ?_⟩,
      ?_, ?_⟩
    · obtain ⟨low, high⟩ := tables.holds.issued entry member
      exact ⟨low, Int.lt_add_one_of_le (le_of_lt high)⟩
    · rw [asked]
      refine .adding sources ⟨?_, Int.lt_add_one_iff.mpr (le_refl _)⟩ fun entry member => (tables.holds.issued entry member).2
      change 0 < system.controller.nextAvailableId
      rw [tables.next]
      omega
    · rw [beforeCall_registers (registers 0)]
    · rw [count, tables.next]
      rfl
    · rw [count]
      change system.controller.nextAvailableId :: issuedIds labels = (adds labels + 1 : Int) :: numbers (adds labels)
      rw [tables.next, ← ids]
      rfl
  · obtain ⟨rfl, rfl⟩ := Prod.mk.inj (Option.some.inj added)
    exact tables.quiet requested_failed adds_failed rfl (.inl free)

theorem Tables.removeInterruptHandler (free : system.pending = none)
    (removed : system.removeInterruptHandler handlerId memory = some (reply, after)) :
    Tables ((.remove handlerId memory, reply) :: labels) after entries := by
  have count : ∀ reply, adds ((.remove handlerId memory, reply) :: labels) = adds labels := fun _ => adds_none rfl
  have absent (others : ∀ entry ∈ entries, entry.2.identity ≠ handlerId) :
      Tables ((.remove handlerId memory, .returned) :: labels) system entries := by
    refine tables.quiet ?_ (count _) rfl (.inl free)
    rw [requested_applied (by decide)]
    exact List.filter_eq_self.mpr fun entry member => bne_iff_ne.mpr (others entry (tables.settled free ▸ member))
  unfold InterruptSystem.removeInterruptHandler at removed
  by_cases zero : handlerId = 0
  · rw [if_pos zero] at removed
    obtain ⟨rfl, rfl⟩ := Prod.mk.inj (Option.some.inj removed)
    refine absent fun entry member => ?_
    rw [zero]
    exact ne_of_gt (tables.holds.issued entry member).1
  rw [if_neg zero] at removed
  cases found : system.controller.interruptOf handlerId with
  | none =>
    rw [found] at removed
    obtain ⟨rfl, rfl⟩ := Prod.mk.inj (Option.some.inj removed)
    exact absent fun entry member isIt => interruptOf_none found entry.1 ⟨entry.2, tables.holds.mem_iff.mpr member, isIt⟩
  | some interruptId =>
    rw [found] at removed
    dsimp only at removed
    split_ifs at removed
    · obtain ⟨rfl, rfl⟩ := Prod.mk.inj (Option.some.inj removed)
      obtain rfl := tables.settled free
      have ids := tables.ids
      rw [free] at ids
      refine ⟨tables.holds, ?_, .inr ⟨nofun, rfl⟩, by rw [count]; exact tables.next, by rw [count]; exact ids⟩
      rw [requested_applied (by decide)]
      exact .removing (tables.matches_all free) (interruptOf_some found)
    · obtain ⟨rfl, rfl⟩ := Prod.mk.inj (Option.some.inj removed)
      exact tables.quiet requested_failed adds_failed rfl (.inl free)

theorem Tables.setInterruptHandlerEnabled (free : system.pending = none)
    {enabled : Bool} (changed : system.setInterruptHandlerEnabled handlerId enabled = some (reply, after)) :
    ∃ entries, Tables ((.setEnabled handlerId enabled, reply) :: labels) after entries := by
  unfold InterruptSystem.setInterruptHandlerEnabled at changed
  cases found : system.controller.arrayOf handlerId with
  | none =>
    rw [found] at changed
    cases changed
  | some interruptId =>
    rw [found] at changed
    obtain ⟨rfl, rfl⟩ := Prod.mk.inj (Option.some.inj changed)
    obtain rfl := tables.settled free
    have has := arrayOf_some found
    have asked : requested ((.setEnabled handlerId enabled, .returned) :: labels) =
        (requested labels).map fun entry => (entry.1, entry.2.setEnabledIf handlerId enabled) := requested_applied (by decide)
    have count : adds ((.setEnabled handlerId enabled, .returned) :: labels) = adds labels := adds_none rfl
    refine ⟨_, asked ▸ tables.holds.change has enabled, ?_, .inl rfl, by rw [count]; exact tables.next,
      by rw [count]; exact tables.ids⟩
    dsimp only
    rw [free]
    refine .idle fun other => ?_
    obtain ⟨unmasked, master, masked⟩ := tables.matches_all free other
    unfold InterruptController.Matches
    rw [handlers_install]
    split_ifs with same
    · subst same
      have used := not_congr (changeFirst_eq_nil (·.setEnabled enabled) handlerId (system.controller.handlers other))
      exact ⟨fun some => unmasked (used.mp some), fun some => master (used.mp some), fun on => (masked on).imp_left used.mpr⟩
    · exact ⟨unmasked, master, masked⟩

theorem Tables.resume {pending : PendingCall} (isPending : system.pending = some pending)
    (resumed : InterruptSystem.resume system.controller pending = (reply, after)) :
    ∃ entries, Tables ((.resume, reply) :: labels) after entries := by
  obtain ⟨holds, awaits, shown, next, ids⟩ := tables
  have count : adds ((.resume, reply) :: labels) = adds labels := adds_none rfl
  have before : beforeCall ((.resume, reply) :: labels) = beforeCall labels := rfl
  rw [isPending] at awaits ids
  have same : requested ((.resume, reply) :: labels) = requested labels := requested_resume
  rw [← same] at awaits shown
  generalize target : requested ((.resume, reply) :: labels) = entries' at awaits shown
  cases awaits with
  | @adding interruptId handler sources issued later =>
    obtain ⟨rfl, rfl⟩ := Prod.mk.inj resumed
    refine ⟨_, holds.add issued later, ?_, .inl target.symm, by rw [count]; exact next, by rw [count]; exact ids⟩
    rw [target]
    refine .enabling (fun other different => ?_) ?_
    · unfold InterruptController.Matches
      rw [handlers_install, if_neg different]
      exact sources other
    · rw [handlers_install, if_pos rfl]
      intro none
      have perm := @sortDescending_perm _ _ _ InterruptHandler.priority (system.controller.handlers interruptId ++ [handler])
      rw [show sortDescending InterruptHandler.priority _ = [] from none] at perm
      exact absurd perm.nil_eq (by simp)
  | @enabling interruptId handlerId sources used =>
    obtain ⟨rfl, rfl⟩ := Prod.mk.inj resumed
    refine ⟨entries, ⟨holds.ascending, holds.issued, holds.arrays, holds.ordered⟩, ?_, .inl target.symm,
      by rw [count]; exact next, by rw [count]; exact ids⟩
    rw [target]
    refine .idle fun other => .enable (sources other) fun same => ?_
    rw [same]
    exact used
  | @removing interruptId handlerId sources has =>
    obtain ⟨rfl, rfl⟩ := Prod.mk.inj resumed
    have left : entries = entries.filter (·.2.identity != handlerId) ∨ entries = requested (beforeCall labels) :=
      shown.imp_right And.right
    by_cases none : system.controller.arrayWithout interruptId handlerId = []
    · have off := SourceMatches.disabled_none system.controller.chipset interruptId
      rw [if_pos none]
      refine ⟨entries, ⟨holds.ascending, holds.issued, holds.arrays, holds.ordered⟩, ?_, ?_, by rw [count]; exact next,
        by rw [count]; exact ids⟩
      · rw [target]
        exact .installing (fun other different => (sources other).disable different) has (none ▸ off)
      · rw [target]
        exact left.imp_right fun same => ⟨nofun, same⟩
    · rw [if_neg none]
      refine ⟨entries, holds, ?_, ?_, by rw [count]; exact next, by rw [count]; exact ids⟩
      · have some : system.controller.handlers interruptId ≠ [] := fun empty => none (by
          unfold InterruptController.arrayWithout
          rw [empty]
          rfl)
        rw [target]
        exact .installing (fun other _ => sources other) has
          ⟨fun _ => (sources interruptId).unmasked some, fun _ => (sources interruptId).master some, fun _ => .inl none⟩
      · rw [target]
        exact left.imp_right fun same => ⟨nofun, same⟩
  | @installing interruptId handlerId sources has source =>
    obtain ⟨rfl, rfl⟩ := Prod.mk.inj resumed
    refine ⟨_, holds.remove has, ?_, .inl target.symm, by rw [count]; exact next, by rw [count]; exact ids⟩
    rw [target]
    refine .idle fun other => ?_
    unfold InterruptController.Matches
    rw [handlers_install]
    split_ifs with same
    · exact same ▸ source
    · exact sources other same

theorem Tables.step (step : Step system (request, reply) after) :
    ∃ entries, Tables ((request, reply) :: labels) after entries := by
  cases request with
  | interrupt interruptId =>
    obtain ⟨rfl, rfl⟩ := Prod.mk.inj (Option.some.inj step)
    exact ⟨entries, tables.quiet requested_interrupt (adds_none rfl) rfl (.inr rfl)⟩
  | resume =>
    obtain ⟨pending, isPending, resumed⟩ := Option.map_eq_some_iff.mp step
    exact tables.resume isPending resumed
  | addDirect interruptId priority closure context memory =>
    obtain ⟨free, step⟩ := Option.ite_none_right_eq_some.mp step
    exact ⟨entries, tables.addInterruptHandler free (fun _ => registers_addDirect ..) step⟩
  | addSemaphore interruptId priority semaphore memory =>
    obtain ⟨free, step⟩ := Option.ite_none_right_eq_some.mp step
    exact ⟨entries, tables.addInterruptHandler free (fun _ => rfl) step⟩
  | remove handlerId memory =>
    obtain ⟨free, step⟩ := Option.ite_none_right_eq_some.mp step
    exact ⟨entries, tables.removeInterruptHandler free step⟩
  | setEnabled handlerId enabled =>
    obtain ⟨free, step⟩ := Option.ite_none_right_eq_some.mp step
    exact tables.setInterruptHandlerEnabled free step

end

theorem addInterruptHandler_failed
    (failed : system.addInterruptHandler interruptId handler memory = some (.failed, after)) : after = system ∧ memory = false := by
  unfold InterruptSystem.addInterruptHandler at failed
  cases memory with
  | false => exact ⟨(congrArg Prod.snd (Option.some.inj failed)).symm, rfl⟩
  | true =>
    rw [if_pos rfl] at failed
    split at failed
    · exact absurd (congrArg Prod.fst (Option.some.inj failed)) (by simp)
    · cases failed

theorem removeInterruptHandler_failed
    (failed : system.removeInterruptHandler handlerId memory = some (.failed, after)) : after = system ∧ memory = false := by
  unfold InterruptSystem.removeInterruptHandler at failed
  split at failed
  · exact absurd (congrArg Prod.fst (Option.some.inj failed)) (by simp)
  split at failed
  · exact absurd (congrArg Prod.fst (Option.some.inj failed)) (by simp)
  cases memory with
  | false => exact ⟨(congrArg Prod.snd (Option.some.inj failed)).symm, rfl⟩
  | true =>
    rw [if_pos rfl] at failed
    dsimp only at failed
    split at failed
    · exact absurd (congrArg Prod.fst (Option.some.inj failed)) (by simp)
    · cases failed

theorem step_failed (step : Step system (request, .failed) after) : after = system ∧ request.hasMemory = false := by
  cases request with
  | interrupt interruptId => cases step
  | resume =>
    obtain ⟨pending, -, resumed⟩ := Option.map_eq_some_iff.mp step
    cases pending <;> cases resumed
  | addDirect interruptId priority closure context memory =>
    exact addInterruptHandler_failed (Option.ite_none_right_eq_some.mp step).2
  | addSemaphore interruptId priority semaphore memory =>
    exact addInterruptHandler_failed (Option.ite_none_right_eq_some.mp step).2
  | remove handlerId memory => exact removeInterruptHandler_failed (Option.ite_none_right_eq_some.mp step).2
  | setEnabled handlerId enabled =>
    have changed := (Option.ite_none_right_eq_some.mp step).2
    unfold InterruptSystem.call InterruptSystem.setInterruptHandlerEnabled at changed
    dsimp only at changed
    split at changed
    · cases changed
    · exact absurd (congrArg Prod.fst (Option.some.inj changed)) (by simp)

end Kept

/-- Each handler is in the array of its interrupt, and there only, once, in the order of the priorities and registrations. -/
structure Represents (controller : InterruptController) (entries : List Entry) : Prop where
  once : ∀ entry ∈ entries, ∀ interruptId,
    ((controller.handlers interruptId).map (·.identity)).count entry.2.identity = if interruptId = entry.1 then 1 else 0
  registered : ∀ interruptId handler, handler ∈ controller.handlers interruptId ↔ (interruptId, handler) ∈ entries
  ascending : entries.Pairwise fun first second => first.2.identity < second.2.identity
  ordered : ∀ interruptId, (controller.handlers interruptId).Pairwise fun first second =>
    second.priority < first.priority ∨ first.priority = second.priority ∧ first.identity < second.identity

/-- The tables are what the calls asked for, those in front of it while a call is in progress, and interrupts go by the
tables.  The ids that were returned are the numbers of the registrations, and only a lack of memory makes a call fail. -/
structure Faithful (labels : List (InterruptRequest × InterruptReply)) (system : InterruptSystem) : Prop where
  tables : ∃ entries, Represents system.controller entries ∧
    (entries = requested labels ∨ system.pending ≠ none ∧ entries = requested (beforeCall labels))
  neverReused : (issuedIds labels).Nodup
  returned : system.pending = none → issuedIds labels = numbers (adds labels)
  enabled : system.pending = none → ∀ interruptId, system.controller.handlers interruptId ≠ [] →
    (∀ carrier ∈ Chipset.carrier interruptId, system.controller.chipset.isEnabled carrier = true) →
      system.controller.chipset.isEnabled interruptId = true
  disabled : system.pending = none → ∀ interruptId, system.controller.chipset.isEnabled interruptId = true →
    system.controller.handlers interruptId ≠ [] ∨ interruptId = kInterruptIDExtern ∨ interruptId = kInterruptIDPorts
  interrupts : ∀ interruptId reply after, Step system (.interrupt interruptId, reply) after →
    after = system ∧ reply = .invoked
      (((system.controller.handlers interruptId).filter (·.isEnabled)).map fun handler => (handler.closure, handler.context))
  failures : ∀ request after, Step system (request, .failed) after → after = system ∧ request.hasMemory = false

theorem Holds.represents {controller : InterruptController} {entries : List Entry} (holds : Holds controller entries) :
    Represents controller entries where
  once entry member interruptId := by
    have nodup : ((controller.handlers interruptId).map (·.identity)).Nodup := List.pairwise_map.mpr (holds.distinct interruptId)
    have has : controller.Has entry.1 entry.2.identity := ⟨entry.2, holds.mem_iff.mpr member, rfl⟩
    split_ifs with same
    · exact List.count_eq_one_of_mem nodup (List.mem_map.mpr ⟨entry.2, holds.mem_iff.mpr (same ▸ member), rfl⟩)
    · refine List.count_eq_zero.mpr fun inArray => same ?_
      obtain ⟨handler, inHandlers, isIt⟩ := List.mem_map.mp inArray
      exact holds.unique has ⟨handler, inHandlers, isIt⟩
  registered _ _ := holds.mem_iff
  ascending := holds.ascending
  ordered := holds.ordered

theorem Tables.faithful {labels : List (InterruptRequest × InterruptReply)} {system : InterruptSystem} {entries : List Entry}
    (tables : Tables labels system entries) : Faithful labels system where
  tables := ⟨entries, Holds.represents tables.holds, tables.shown⟩
  neverReused := by
    have nodup := nodup_numbers (adds labels)
    rw [← tables.ids] at nodup
    exact nodup.of_append_right
  returned free := by
    have ids := tables.ids
    rw [free] at ids
    exact ids
  enabled free interruptId some carried := (tables.matches_all free interruptId).enabled some carried
  disabled free interruptId on := (tables.matches_all free interruptId).masked (Chipset.isUnmasked_of_isEnabled on)
  interrupts interruptId reply after step := by
    obtain ⟨rfl, rfl⟩ := Prod.mk.inj (Option.some.inj step)
    exact ⟨rfl, congrArg _ (onInterrupt_eq _)⟩
  failures _ _ := step_failed

/-- In every state of a run, also between the sections of a call, the tables are faithful. -/
theorem runs_faithful {labels : List (InterruptRequest × InterruptReply)} {system : InterruptSystem}
    (run : Runs Step start labels system) : Faithful labels system := by
  have kept : ∃ entries, Tables labels system entries := by
    refine run.history (fun labels system => ∃ entries, Tables labels system entries) ⟨[], Tables.begin⟩ ?_
    rintro labels ⟨request, reply⟩ state after - ⟨entries, tables⟩ step
    exact tables.step step
  obtain ⟨entries, tables⟩ := kept
  exact tables.faithful

def someRequests : List InterruptRequest :=
  let interruptId : InterruptID := ⟨5, by decide⟩
  [.addDirect interruptId 0 100 1 true, .resume, .resume, .setEnabled 1 true, .addDirect interruptId 300 200 2 true, .resume,
    .interrupt interruptId, .resume, .setEnabled 2 true, .addDirect interruptId 0 300 3 false, .remove 1 true, .resume,
    .interrupt interruptId, .resume]

theorem someRequests_faithful :
    ∃ labels system, Runs Step start labels system ∧ Faithful labels system ∧
      (system.controller.handlers 5).map (·.identity) = [2] := by
  have performs : (replyAll perform someRequests start).map (fun system => (system.controller.handlers 5).map (·.identity)) =
      some [2] := by
    decide
  obtain ⟨system, performed, handlers⟩ := Option.map_eq_some_iff.mp performs
  obtain ⟨labels, run⟩ := @Runs.replyAll _ _ _ _ Step (fun _ _ _ _ taken => taken) _ _ _ _ _ Runs.nil performed
  exact ⟨labels, system, run, runs_faithful run, handlers⟩

/-- With the vertical blank interrupt the external interrupts are enabled too, for which there is no handler; and a semaphore
of priority 200 comes behind a closure of priority 0. -/
theorem requests_not_followed :
    (∃ system, replyAll perform [.addDirect 5 0 100 1 true, .resume, .resume] start = some system ∧ system.pending = none ∧
      system.controller.handlers kInterruptIDExtern = [] ∧ system.controller.chipset.isEnabled kInterruptIDExtern = true) ∧
    ∃ system, replyAll perform [.addDirect 5 0 100 1 true, .resume, .resume, .addSemaphore 5 200 2 true, .resume, .resume]
        start = some system ∧ (system.controller.handlers 5).map (·.context) = [1, 2] := by
  constructor
  · have performs : (replyAll perform [.addDirect 5 0 100 1 true, .resume, .resume] start).map
        (fun system => (system.pending, system.controller.handlers kInterruptIDExtern,
          system.controller.chipset.isEnabled kInterruptIDExtern)) = some (none, [], true) := by
      decide
    obtain ⟨system, performed, state⟩ := Option.map_eq_some_iff.mp performs
    simp only [Prod.mk.injEq] at state
    exact ⟨system, performed, state⟩
  · have performs : (replyAll perform [.addDirect 5 0 100 1 true, .resume, .resume, .addSemaphore 5 200 2 true, .resume, .resume]
        start).map (fun system => (system.controller.handlers 5).map (·.context)) = some [1, 2] := by
      decide
    exact Option.map_eq_some_iff.mp performs

end InterruptSystem

end Apollo.Driver
