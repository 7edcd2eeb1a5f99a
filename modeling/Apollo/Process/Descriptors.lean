import Apollo.Filesystem.Inode
import Apollo.Lib.Runs
import Mathlib.Data.List.Count

/-!
# Descriptor tables

The two descriptor tables of a process, `Process_Descriptors.c` with the object
arrays of `Array.c`.  A slot holds a reference to a resource or nothing.  Every
function runs under the lock of the process, so that a call is one step.

`held` counts the references that others have: whoever has created a resource,
has looked it up or has unregistered it.  `disposed` lists what the tables have
released, newest last.  What the deinit method of a resource does is not part of
the model.
-/

set_option autoImplicit false

namespace Apollo.Process

open Lib

/-- The number of references is `count`. -/
structure ObjectArray (α : Type) where
  elements : List (Option α)
  capacity : Nat

inductive Table
  | ioChannels
  | privateResources
  deriving DecidableEq

structure World (α : Type) where
  table : Table → ObjectArray α
  isDestroyed : Bool
  retainCount : α → Int
  held : α → Nat
  closed : List α
  disposed : List α

section Tables
variable {α : Type} [DecidableEq α]

/-- The element at `desc`, when there is one. -/
def ObjectArray.at (array : ObjectArray α) (desc : Int) : Option α :=
  if 0 ≤ desc ∧ desc < array.elements.length then (array.elements[desc.toNat]?).join else none

namespace World

def withElements (w : World α) (table : Table) (elements : List (Option α)) : World α :=
  { w with table := Function.update w.table table { w.table table with elements := elements } }

def objectRetain (w : World α) (object : α) : World α :=
  { w with retainCount := Function.update w.retainCount object (w.retainCount object + 1) }

/-- `Object_Release` of a reference of a table. -/
def objectRelease (w : World α) : Option α → World α
  | none => w
  | some object =>
    { w with
      retainCount := Function.update w.retainCount object (w.retainCount object - 1)
      disposed := w.disposed ++ [object] }

def replaceAt (w : World α) (table : Table) (element : α) (idx : Nat) : World α :=
  let old := ((w.table table).elements[idx]?).join
  if old ≠ some element then
    ((w.objectRelease old).objectRetain element).withElements table ((w.table table).elements.set idx (some element))
  else w

/-- `ObjectArray_Add`; `grows` tells whether a larger array could be allocated. -/
def add (w : World α) (table : Table) (element : α) (grows : Bool) : Except Errno (World α) :=
  let array := w.table table
  if array.elements.length = array.capacity then
    if grows then
      let capacity := if 0 < array.capacity then array.capacity * 2 else 8
      let grown := { w with table := Function.update w.table table { array with capacity := capacity } }
      .ok ((grown.objectRetain element).withElements table (array.elements ++ [some element]))
    else .error .ENOMEM
  else .ok ((w.objectRetain element).withElements table (array.elements ++ [some element]))

def registerResource (w : World α) (table : Table) (resource : α) (grows : Bool) : Except Errno Nat × World α :=
  match (w.table table).elements.findIdx? Option.isNone with
  | some desc => (.ok desc, w.replaceAt table resource desc)
  | none =>
    match w.add table resource grows with
    | .ok after => (.ok (w.table table).elements.length, after)
    | .error err => (.error err, w)

/-- `Process_UnregisterResource`; the caller takes the reference over. -/
def unregisterResource (w : World α) (table : Table) (desc : Int) : Except Errno α × World α :=
  match (w.table table).at desc with
  | some resource =>
    (.ok resource, { w.withElements table ((w.table table).elements.set desc.toNat none) with
      held := Function.update w.held resource (w.held resource + 1) })
  | none => (.error .EBADF, w)

def copyResourceForDescriptor (w : World α) (table : Table) (desc : Int) : Except Errno α × World α :=
  match (w.table table).at desc with
  | some resource =>
    (.ok resource, { w.objectRetain resource with
      held := Function.update w.held resource (w.held resource + 1) })
  | none => (.error .EBADF, w)

/-- `Object_Release` of every element of the table. -/
def releaseAll (w : World α) (table : Table) : World α :=
  (w.table table).elements.foldl objectRelease w

def arrayDeinit (w : World α) (table : Table) : World α :=
  (w.releaseAll table).withElements table []

def closeAllIOChannels (w : World α) : World α :=
  { w with closed := w.closed ++ (w.table .ioChannels).elements.filterMap id }

def disposeAllPrivateResources (w : World α) : World α := w.releaseAll .privateResources

/-- The part of `Process_deinit` that is about the tables. -/
def deinit (w : World α) : World α :=
  let w := (w.closeAllIOChannels).arrayDeinit .ioChannels
  let w := (w.disposeAllPrivateResources).arrayDeinit .privateResources
  { w with isDestroyed := true }

end World

/-! ## Steps -/

inductive Request (α : Type)
  | create (resource : α)
  | register (table : Table) (resource : α) (grows : Bool)
  | lookUp (table : Table) (desc : Int)
  | unregister (table : Table) (desc : Int)
  | release (resource : α)
  | deinit

inductive Reply (α : Type)
  | done
  | descriptor (desc : Except Errno Nat)
  | resource (found : Except Errno α)

/-- What the request replies and the world behind it, when it is enabled: only those who hold a
reference register or release a resource, and nobody uses a process that has been destroyed. -/
def perform (w : World α) : Request α → Option (Reply α × World α)
  | .create resource =>
    if w.retainCount resource = 0 then
      some (.done, { w with
        retainCount := Function.update w.retainCount resource 1
        held := Function.update w.held resource 1 })
    else none
  | .register table resource grows =>
    if w.isDestroyed = false ∧ 0 < w.held resource then
      let (desc, after) := w.registerResource table resource grows
      some (.descriptor desc, after)
    else none
  | .lookUp table desc =>
    if w.isDestroyed = false then
      let (found, after) := w.copyResourceForDescriptor table desc
      some (.resource found, after)
    else none
  | .unregister table desc =>
    if w.isDestroyed = false then
      let (found, after) := w.unregisterResource table desc
      some (.resource found, after)
    else none
  | .release resource =>
    if 0 < w.held resource then
      some (.done, { w with
        retainCount := Function.update w.retainCount resource (w.retainCount resource - 1)
        held := Function.update w.held resource (w.held resource - 1) })
    else none
  | .deinit => if w.isDestroyed = false then some (.done, w.deinit) else none

/-- The tables behind `ObjectArray_Init` in `Process_Create`. -/
def World.init : World α :=
  ⟨fun table => ⟨[], if table = .ioChannels then 64 else 8⟩, false, fun _ => 0, fun _ => 0, [], []⟩

/-! ## What the history says -/

def change : Request α × Reply α → Option (Table × Int × Option α)
  | (.register table resource _, .descriptor (.ok desc)) => some (table, desc, some resource)
  | (.unregister table desc, .resource (.ok _)) => some (table, desc, none)
  | _ => none

/-- The resource that was registered last under the descriptor and has not been unregistered; the
newest step comes first. -/
def registered (table : Table) (desc : Int) : List (Request α × Reply α) → Option α
  | [] => none
  | step :: rest =>
    match change step with
    | some (table', desc', resource) =>
      if table' = table ∧ desc' = desc then resource else registered table desc rest
    | none => registered table desc rest

def registers : Request α × Reply α → Option α
  | (.register _ resource _, .descriptor (.ok _)) => some resource
  | _ => none

def handsOver : Request α × Reply α → Option α
  | (.unregister _ _, .resource (.ok resource)) => some resource
  | _ => none

def World.slots (w : World α) (resource : α) : Nat :=
  (w.table .ioChannels).elements.count (some resource) + (w.table .privateResources).elements.count (some resource)

/-- Registration takes the lowest free descriptor; a look-up finds what is registered; every slot has
one retain; and a process that is gone has given every registration back once. -/
structure World.Owns (w : World α) (history : List (Request α × Reply α)) : Prop where
  lowest : w.isDestroyed = false → ∀ table resource grows (desc : Nat),
    (w.registerResource table resource grows).1 = .ok desc →
      registered table desc history = none ∧ ∀ lower < desc, registered table (lower : Nat) history ≠ none
  refused : ∀ table resource grows err, (w.registerResource table resource grows).1 = .error err →
    err = .ENOMEM ∧ grows = false
  found : w.isDestroyed = false → ∀ table desc resource,
    (w.copyResourceForDescriptor table desc).1 = .ok resource ↔ registered table desc history = some resource
  missing : w.isDestroyed = false → ∀ table desc,
    (w.copyResourceForDescriptor table desc).1 = .error .EBADF ↔ registered table desc history = none
  retains : ∀ resource, w.retainCount resource = w.held resource + w.slots resource
  given : w.isDestroyed = true → ∀ resource,
    w.slots resource = 0 ∧ (history.map registers).count (some resource) =
      (history.map handsOver).count (some resource) + w.disposed.count resource

/-! ## Slots -/

omit [DecidableEq α] in
@[simp]
theorem at_natCast (array : ObjectArray α) (desc : Nat) : array.at desc = (array.elements[desc]?).join := by
  unfold ObjectArray.at
  by_cases inside : desc < array.elements.length
  · rw [if_pos ⟨Int.natCast_nonneg desc, Int.ofNat_lt.mpr inside⟩]
    rfl
  · rw [if_neg fun range => inside (Int.ofNat_lt.mp range.2), List.getElem?_eq_none (Nat.le_of_not_lt inside)]
    rfl

omit [DecidableEq α] in
theorem at_negSucc (array : ObjectArray α) (n : Nat) : array.at (Int.negSucc n) = none :=
  if_neg fun range => absurd range.1 (Int.not_le.mpr (Int.negSucc_lt_zero n))

omit [DecidableEq α] in
theorem withElements_self (w : World α) (table : Table) (elements : List (Option α)) :
    ((w.withElements table elements).table table).elements = elements := by
  unfold World.withElements
  simp only [Function.update_self]

omit [DecidableEq α] in
theorem withElements_other (w : World α) {table table' : Table} (other : table' ≠ table) (elements : List (Option α)) :
    (w.withElements table elements).table table' = w.table table' :=
  Function.update_of_ne other _ _

structure SlotChanged (w after : World α) (table : Table) (desc : Nat) (content : Option α) : Prop where
  now : ∀ table' desc', (after.table table').at desc' =
    if table = table' ∧ (desc : Int) = desc' then content else (w.table table').at desc'
  slots : ∀ resource, after.slots resource + (if (w.table table).at desc = some resource then 1 else 0) =
    w.slots resource + if content = some resource then 1 else 0

theorem slots_withElements (w : World α) (table : Table) (elements : List (Option α)) (resource : α) :
    (w.withElements table elements).slots resource + (w.table table).elements.count (some resource) =
      w.slots resource + elements.count (some resource) := by
  unfold World.slots
  cases table with
  | ioChannels =>
    rw [withElements_self, withElements_other w (by decide)]
    omega
  | privateResources =>
    rw [withElements_self, withElements_other w (by decide)]
    omega

theorem SlotChanged.of_elements {w after : World α} {table : Table} {desc : Nat} {content : Option α}
    {elements : List (Option α)} (same : ∀ table', (after.table table').elements =
      ((w.withElements table elements).table table').elements)
    (entries : ∀ desc' : Nat, (elements[desc']?).join =
      if desc = desc' then content else ((w.table table).elements[desc']?).join)
    (counts : ∀ resource, elements.count (some resource) + (if (w.table table).at desc = some resource then 1 else 0) =
      (w.table table).elements.count (some resource) + if content = some resource then 1 else 0) :
    SlotChanged w after table desc content := by
  have slots : ∀ resource, after.slots resource = (w.withElements table elements).slots resource := by
    intro resource
    unfold World.slots
    rw [same, same]
  refine ⟨?_, ?_⟩
  · intro table' desc'
    cases desc' with
    | negSucc n =>
      rw [at_negSucc, at_negSucc, if_neg]
      rintro ⟨-, never⟩
      exact absurd never (Int.noConfusion)
    | ofNat desc' =>
      rw [Int.ofNat_eq_natCast, at_natCast, at_natCast, same]
      by_cases own : table = table'
      · rw [← own, withElements_self, entries]
        by_cases here : desc = desc'
        · rw [if_pos here, if_pos ⟨rfl, congrArg Nat.cast here⟩]
        · rw [if_neg here, if_neg fun both => here (Int.ofNat_inj.mp both.2)]
      · rw [if_neg fun both => own both.1, withElements_other w (Ne.symm own)]
  · intro resource
    have total := slots_withElements w table elements resource
    have count := counts resource
    rw [slots]
    omega

theorem SlotChanged.set {w after : World α} {table : Table} {desc : Nat} {content : Option α}
    (inside : desc < (w.table table).elements.length)
    (same : ∀ table', (after.table table').elements =
      ((w.withElements table ((w.table table).elements.set desc content)).table table').elements) :
    SlotChanged w after table desc content := by
  have old : (w.table table).at desc = (w.table table).elements[desc] := by
    rw [at_natCast, List.getElem?_eq_getElem inside]
    rfl
  refine SlotChanged.of_elements same ?_ ?_
  · intro desc'
    rw [List.getElem?_set]
    by_cases here : desc = desc'
    · rw [if_pos here, if_pos here, if_pos inside]
      rfl
    · rw [if_neg here, if_neg here]
  · intro resource
    have total := List.count_set (a := content) (b := some resource) inside
    have present : (w.table table).elements[desc] = some resource →
        0 < (w.table table).elements.count (some resource) := by
      intro own
      rw [← own]
      exact List.count_pos_iff.mpr (List.getElem_mem inside)
    simp only [beq_iff_eq] at total
    rw [total, old]
    split_ifs with own now
    · have positive := present own
      omega
    · have positive := present own
      omega
    · omega
    · omega

theorem SlotChanged.append {w after : World α} {table : Table} {element : α}
    (same : ∀ table', (after.table table').elements =
      ((w.withElements table ((w.table table).elements ++ [some element])).table table').elements) :
    SlotChanged w after table (w.table table).elements.length (some element) := by
  refine SlotChanged.of_elements same ?_ ?_
  · intro desc'
    by_cases here : (w.table table).elements.length = desc'
    · rw [if_pos here, ← here, List.getElem?_concat_length]
      rfl
    · rw [if_neg here]
      by_cases inside : desc' < (w.table table).elements.length
      · rw [List.getElem?_append_left inside]
      · have behind : (w.table table).elements.length ≤ desc' := Nat.le_of_not_lt inside
        rw [List.getElem?_eq_none behind, List.getElem?_eq_none]
        rw [List.length_append, List.length_singleton]
        omega
  · intro resource
    rw [at_natCast, List.getElem?_eq_none (Nat.le_refl _), List.count_append, List.count_singleton]
    simp

/-- `Process_RegisterResource_Locked` fills the lowest free slot. -/
structure Registered (w after : World α) (table : Table) (resource : α) (desc : Nat) : Prop where
  free : (w.table table).at desc = none
  lower : ∀ lower < desc, (w.table table).at (lower : Nat) ≠ none
  slot : SlotChanged w after table desc (some resource)
  retainCount : after.retainCount = Function.update w.retainCount resource (w.retainCount resource + 1)
  held : after.held = w.held
  disposed : after.disposed = w.disposed
  isDestroyed : after.isDestroyed = w.isDestroyed

theorem registerResource_spec (w : World α) (table : Table) (resource : α) (grows : Bool) :
    w.registerResource table resource grows = (.error .ENOMEM, w) ∧ grows = false ∨
      ∃ desc after, w.registerResource table resource grows = (.ok desc, after) ∧
        Registered w after table resource desc := by
  unfold World.registerResource
  cases finds : (w.table table).elements.findIdx? Option.isNone with
  | some desc =>
    obtain ⟨inside, free, lower⟩ := List.findIdx?_eq_some_iff_getElem.mp finds
    have old : (w.table table).elements[desc]? = some none := by
      rw [List.getElem?_eq_getElem inside, Option.isNone_iff_eq_none.mp free]
    refine .inr ⟨desc, _, rfl, ?_⟩
    unfold World.replaceAt
    rw [old]
    refine ⟨?_, ?_, SlotChanged.set inside fun _ => ?_, rfl, rfl, rfl, rfl⟩
    · rw [at_natCast, old]
      rfl
    · intro desc' below
      have occupied := lower desc' below
      rw [at_natCast, List.getElem?_eq_getElem (Nat.lt_trans below inside)]
      intro empty
      change (w.table table).elements[desc'] = none at empty
      rw [empty] at occupied
      exact occupied rfl
    · rfl
  | none =>
    have lower : ∀ lower < (w.table table).elements.length, (w.table table).at (lower : Nat) ≠ none := by
      intro desc' below
      have occupied := List.findIdx?_eq_none_iff.mp finds _ (List.getElem_mem below)
      rw [at_natCast, List.getElem?_eq_getElem below]
      intro empty
      change (w.table table).elements[desc'] = none at empty
      rw [empty] at occupied
      simp at occupied
    have free : (w.table table).at ((w.table table).elements.length : Nat) = none := by
      rw [at_natCast, List.getElem?_eq_none (Nat.le_refl _)]
      rfl
    unfold World.add
    by_cases full : (w.table table).elements.length = (w.table table).capacity
    · rw [if_pos full]
      cases grows with
      | false => exact .inl ⟨rfl, rfl⟩
      | true =>
        refine .inr ⟨_, _, rfl, free, lower, SlotChanged.append ?_, rfl, rfl, rfl, rfl⟩
        intro table'
        by_cases own : table' = table
        · rw [own, withElements_self, withElements_self]
        · rw [withElements_other _ own, withElements_other _ own]
          exact congrArg ObjectArray.elements (Function.update_of_ne own _ _)
    · rw [if_neg full]
      refine .inr ⟨_, _, rfl, free, lower, SlotChanged.append fun _ => rfl, rfl, rfl, rfl, rfl⟩

theorem unregisterResource_spec (w : World α) (table : Table) (desc : Int) :
    w.unregisterResource table desc = (.error .EBADF, w) ∧ (w.table table).at desc = none ∨
      ∃ (slot : Nat) (resource : α) (after : World α), desc = slot ∧
        w.unregisterResource table desc = (.ok resource, after) ∧ (w.table table).at desc = some resource ∧
        SlotChanged w after table slot none ∧ after.retainCount = w.retainCount ∧
        after.held = Function.update w.held resource (w.held resource + 1) ∧
        after.disposed = w.disposed ∧ after.isDestroyed = w.isDestroyed := by
  unfold World.unregisterResource
  cases found : (w.table table).at desc with
  | none => exact .inl ⟨rfl, rfl⟩
  | some resource =>
    cases desc with
    | negSucc n =>
      rw [at_negSucc] at found
      simp at found
    | ofNat slot =>
      rw [Int.ofNat_eq_natCast, at_natCast] at found
      have inside : slot < (w.table table).elements.length := by
        by_contra outside
        rw [List.getElem?_eq_none (Nat.le_of_not_lt outside)] at found
        simp at found
      exact .inr ⟨slot, resource, _, rfl, rfl, rfl, SlotChanged.set inside fun _ => rfl, rfl, rfl, rfl, rfl⟩

/-! ## Destruction -/

structure Released (w after : World α) (elements : List (Option α)) : Prop where
  table : after.table = w.table
  held : after.held = w.held
  retainCount : ∀ resource, after.retainCount resource = w.retainCount resource - elements.count (some resource)
  disposed : ∀ resource, after.disposed.count resource = w.disposed.count resource + elements.count (some resource)

theorem foldl_objectRelease (w : World α) (elements : List (Option α)) :
    Released w (elements.foldl World.objectRelease w) elements := by
  induction elements generalizing w with
  | nil => exact ⟨rfl, rfl, fun _ => by simp, fun _ => by simp⟩
  | cons element rest ih =>
    rw [List.foldl_cons]
    obtain ⟨table, held, retainCount, disposed⟩ := ih (w.objectRelease element)
    cases element with
    | none =>
      refine ⟨table, held, ?_, ?_⟩
      · intro resource
        rw [retainCount, List.count_cons_of_ne (by simp)]
        rfl
      · intro resource
        rw [disposed, List.count_cons_of_ne (by simp)]
        rfl
    | some object =>
      refine ⟨table, held, ?_, ?_⟩
      · intro resource
        rw [retainCount, List.count_cons]
        change Function.update w.retainCount object _ resource - _ = _
        by_cases own : object = resource
        · rw [own, Function.update_self]
          simp only [beq_self_eq_true, if_true]
          omega
        · rw [Function.update_of_ne (Ne.symm own)]
          simp [own]
      · intro resource
        rw [disposed, List.count_cons]
        change (w.disposed ++ [object]).count resource + _ = _
        rw [List.count_append, List.count_singleton]
        by_cases own : object = resource
        · rw [own]
          simp only [beq_self_eq_true, if_true]
          omega
        · simp [own]

/-- `Process_deinit` releases every channel once and every private resource twice. -/
theorem deinit_spec (w : World α) :
    (∀ table, (w.deinit.table table).elements = []) ∧ w.deinit.held = w.held ∧
      ∀ resource,
        w.deinit.retainCount resource = w.retainCount resource -
          ((w.table .ioChannels).elements.count (some resource) +
            2 * (w.table .privateResources).elements.count (some resource) : Nat) ∧
        w.deinit.disposed.count resource = w.disposed.count resource +
          ((w.table .ioChannels).elements.count (some resource) +
            2 * (w.table .privateResources).elements.count (some resource)) := by
  -- the four worlds on the way
  obtain ⟨table₁, held₁, retain₁, disposed₁⟩ := foldl_objectRelease w.closeAllIOChannels (w.table .ioChannels).elements
  have channels : w.closeAllIOChannels.arrayDeinit .ioChannels =
      ((w.table .ioChannels).elements.foldl World.objectRelease w.closeAllIOChannels).withElements .ioChannels [] := rfl
  generalize (w.table .ioChannels).elements.foldl World.objectRelease w.closeAllIOChannels = w₁ at *
  have privates : ((w₁.withElements .ioChannels []).table .privateResources).elements =
      (w.table .privateResources).elements := by
    rw [withElements_other w₁ (by decide), table₁]
    rfl
  obtain ⟨table₂, held₂, retain₂, disposed₂⟩ :=
    foldl_objectRelease (w₁.withElements .ioChannels []) (w.table .privateResources).elements
  have once : (w₁.withElements .ioChannels []).disposeAllPrivateResources =
      (w.table .privateResources).elements.foldl World.objectRelease (w₁.withElements .ioChannels []) := by
    unfold World.disposeAllPrivateResources World.releaseAll
    rw [privates]
  generalize (w.table .privateResources).elements.foldl World.objectRelease (w₁.withElements .ioChannels []) = w₂ at *
  have privates₂ : (w₂.table .privateResources).elements = (w.table .privateResources).elements := by
    rw [table₂, privates]
  obtain ⟨table₃, held₃, retain₃, disposed₃⟩ := foldl_objectRelease w₂ (w.table .privateResources).elements
  have twice : w₂.arrayDeinit .privateResources =
      ((w.table .privateResources).elements.foldl World.objectRelease w₂).withElements .privateResources [] := by
    unfold World.arrayDeinit World.releaseAll
    rw [privates₂]
  generalize (w.table .privateResources).elements.foldl World.objectRelease w₂ = w₃ at *
  have result : w.deinit = { w₃.withElements .privateResources [] with isDestroyed := true } := by
    unfold World.deinit
    simp only [channels, once, twice]
  rw [result]
  refine ⟨?_, ?_, ?_⟩
  · intro table
    cases table with
    | privateResources => exact withElements_self w₃ _ _
    | ioChannels =>
      rw [withElements_other w₃ (by decide), table₃, table₂]
      exact withElements_self w₁ _ _
  · change w₃.held = w.held
    rw [held₃, held₂]
    exact held₁
  · intro resource
    have retained₁ : w₁.retainCount resource = w.retainCount resource - _ := retain₁ resource
    have retained₂ : w₂.retainCount resource = w₁.retainCount resource - _ := retain₂ resource
    have retained₃ : w₃.retainCount resource = w₂.retainCount resource - _ := retain₃ resource
    have counted₁ : w₁.disposed.count resource = w.disposed.count resource + _ := disposed₁ resource
    have counted₂ : w₂.disposed.count resource = w₁.disposed.count resource + _ := disposed₂ resource
    have counted₃ : w₃.disposed.count resource = w₂.disposed.count resource + _ := disposed₃ resource
    constructor
    · change w₃.retainCount resource = _
      omega
    · change w₃.disposed.count resource = _
      omega

/-! ## Runs -/

def Request.LeavesNone (w : World α) : Request α → Prop
  | .deinit => ∀ element ∈ (w.table .privateResources).elements, element = none
  | _ => True

instance (w : World α) (request : Request α) : Decidable (request.LeavesNone w) :=
  match request with
  | .deinit => inferInstanceAs (Decidable (∀ element ∈ (w.table .privateResources).elements, element = none))
  | .create _ | .register _ _ _ | .lookUp _ _ | .unregister _ _ | .release _ => isTrue trivial

def Step (w : World α) (label : Request α × Reply α) (after : World α) : Prop :=
  perform w label.1 = some (label.2, after)

def LeavingStep (w : World α) (label : Request α × Reply α) (after : World α) : Prop :=
  Step w label after ∧ label.1.LeavesNone w

/-- What holds between the steps: the slots are those of the history, and every reference of a table
has been taken by a registration. -/
structure World.Kept (w : World α) (history : List (Request α × Reply α)) : Prop where
  entries : w.isDestroyed = false → ∀ table desc, registered table desc history = (w.table table).at desc
  empty : w.isDestroyed = true → ∀ table, (w.table table).elements = []
  retains : ∀ resource, w.retainCount resource = w.held resource + w.slots resource
  balance : ∀ resource, (history.map registers).count (some resource) =
    (history.map handsOver).count (some resource) + w.slots resource + w.disposed.count resource

namespace World.Kept

variable {w after : World α} {history : List (Request α × Reply α)}

theorem quiet (kept : w.Kept history) {step : Request α × Reply α} (unchanged : change step = none)
    (neither : registers step = none ∧ handsOver step = none) (table : after.table = w.table)
    (isDestroyed : after.isDestroyed = w.isDestroyed) (disposed : after.disposed = w.disposed)
    (retains : ∀ resource, after.retainCount resource - after.held resource =
      w.retainCount resource - w.held resource) : after.Kept (step :: history) := by
  have slots : ∀ resource, after.slots resource = w.slots resource := by
    intro resource
    unfold World.slots
    rw [table]
  refine ⟨?_, ?_, ?_, ?_⟩
  · intro alive table' desc
    unfold registered
    rw [unchanged, table]
    exact kept.entries (isDestroyed ▸ alive) table' desc
  · intro destroyed
    rw [table]
    exact kept.empty (isDestroyed ▸ destroyed)
  · intro resource
    have before := kept.retains resource
    have same := retains resource
    rw [slots]
    omega
  · intro resource
    rw [slots, disposed, List.map_cons, List.map_cons, neither.1, neither.2,
      List.count_cons_of_ne (by simp), List.count_cons_of_ne (by simp)]
    exact kept.balance resource

theorem registered_change {step : Request α × Reply α} {table table' : Table} {desc : Nat} {content : Option α}
    {desc' : Int} (changes : change step = some (table, (desc : Int), content)) (slot : SlotChanged w after table desc content)
    (before : registered table' desc' history = (w.table table').at desc') :
    registered table' desc' (step :: history) = (after.table table').at desc' := by
  unfold registered
  rw [changes, slot.now, before]

theorem register (kept : w.Kept history) (alive : w.isDestroyed = false) {table : Table} {resource : α} {grows : Bool}
    {desc : Nat} (done : Registered w after table resource desc) :
    after.Kept ((.register table resource grows, .descriptor (.ok desc)) :: history) := by
  have slots : ∀ other, after.slots other = w.slots other + if resource = other then 1 else 0 := by
    intro other
    have changed := done.slot.slots other
    rw [done.free] at changed
    simpa using changed
  refine ⟨?_, ?_, ?_, ?_⟩
  · intro _ table' desc'
    exact registered_change rfl done.slot (kept.entries alive table' desc')
  · intro destroyed
    rw [done.isDestroyed, alive] at destroyed
    simp at destroyed
  · intro other
    have before := kept.retains other
    rw [done.retainCount, done.held, slots]
    by_cases own : resource = other
    · rw [own, Function.update_self, if_pos rfl]
      omega
    · rw [Function.update_of_ne (Ne.symm own), if_neg own]
      omega
  · intro other
    have before := kept.balance other
    rw [slots, done.disposed, List.map_cons, List.map_cons, List.count_cons, List.count_cons]
    by_cases own : resource = other
    · simp [registers, handsOver, own]
      omega
    · simp [registers, handsOver, own]
      omega

theorem unregister (kept : w.Kept history) (alive : w.isDestroyed = false) {table : Table} {slot : Nat} {resource : α}
    (found : (w.table table).at slot = some resource) (changed : SlotChanged w after table slot none)
    (retainCount : after.retainCount = w.retainCount)
    (held : after.held = Function.update w.held resource (w.held resource + 1))
    (disposed : after.disposed = w.disposed) (isDestroyed : after.isDestroyed = w.isDestroyed) :
    after.Kept ((.unregister table slot, .resource (.ok resource)) :: history) := by
  have slots : ∀ other, after.slots other + (if resource = other then 1 else 0) = w.slots other := by
    intro other
    have total := changed.slots other
    rw [found] at total
    simpa using total
  refine ⟨?_, ?_, ?_, ?_⟩
  · intro _ table' desc'
    exact registered_change rfl changed (kept.entries alive table' desc')
  · intro destroyed
    rw [isDestroyed, alive] at destroyed
    simp at destroyed
  · intro other
    have before := kept.retains other
    have total := slots other
    rw [retainCount, held]
    by_cases own : resource = other
    · rw [own, Function.update_self]
      rw [if_pos own] at total
      omega
    · rw [Function.update_of_ne (Ne.symm own)]
      rw [if_neg own] at total
      omega
  · intro other
    have before := kept.balance other
    have total := slots other
    rw [disposed, List.map_cons, List.map_cons, List.count_cons, List.count_cons]
    by_cases own : resource = other
    · rw [if_pos own] at total
      simp [registers, handsOver, own]
      omega
    · rw [if_neg own] at total
      simp [registers, handsOver, own]
      omega

/-- A process without private resources gives every reference back once. -/
theorem deinit (kept : w.Kept history) (none : ∀ element ∈ (w.table .privateResources).elements, element = none) :
    w.deinit.Kept ((.deinit, .done) :: history) := by
  obtain ⟨empty, held, counts⟩ := deinit_spec w
  have privates : ∀ resource, (w.table .privateResources).elements.count (some resource) = 0 := by
    intro resource
    rw [List.count_eq_zero]
    intro member
    exact absurd (none _ member) (Option.some_ne_none resource)
  have slots : ∀ resource, w.deinit.slots resource = 0 := by
    intro resource
    unfold World.slots
    rw [empty, empty]
    rfl
  have before : ∀ resource, w.slots resource = (w.table .ioChannels).elements.count (some resource) := by
    intro resource
    unfold World.slots
    rw [privates]
    rfl
  refine ⟨fun alive => absurd alive (by simp [World.deinit]), fun _ => empty, ?_, ?_⟩
  · intro resource
    have total := (counts resource).1
    rw [privates] at total
    rw [total, slots, held, kept.retains, before]
    omega
  · intro resource
    have total := (counts resource).2
    have balance := kept.balance resource
    rw [privates] at total
    rw [before] at balance
    rw [total, slots, List.map_cons, List.map_cons, List.count_cons_of_ne (by simp [registers]),
      List.count_cons_of_ne (by simp [handsOver])]
    omega

theorem step (kept : w.Kept history) {label : Request α × Reply α} (step : LeavingStep w label after) :
    after.Kept (label :: history) := by
  obtain ⟨performs, leaves⟩ := step
  obtain ⟨request, reply⟩ := label
  unfold Step at performs
  cases request with
  | create resource =>
    simp only [perform] at performs
    split_ifs at performs with fresh
    obtain ⟨rfl, rfl⟩ := Prod.mk.inj (Option.some.inj performs)
    refine kept.quiet rfl ⟨rfl, rfl⟩ rfl rfl rfl ?_
    intro other
    have before := kept.retains other
    by_cases own : other = resource
    · rw [own] at before ⊢
      simp only [Function.update_self]
      omega
    · simp only [Function.update_of_ne own]
  | register table resource grows =>
    simp only [perform] at performs
    split_ifs at performs with enabled
    obtain ⟨rfl, rfl⟩ := Prod.mk.inj (Option.some.inj performs)
    obtain ⟨refused, -⟩ | ⟨desc, after, accepted, done⟩ := registerResource_spec w table resource grows
    · rw [refused]
      exact kept.quiet rfl ⟨rfl, rfl⟩ rfl rfl rfl fun _ => rfl
    · rw [accepted]
      exact kept.register enabled.1 done
  | lookUp table desc =>
    simp only [perform] at performs
    split_ifs at performs with alive
    obtain ⟨rfl, rfl⟩ := Prod.mk.inj (Option.some.inj performs)
    unfold World.copyResourceForDescriptor
    cases (w.table table).at desc with
    | none => exact kept.quiet rfl ⟨rfl, rfl⟩ rfl rfl rfl fun _ => rfl
    | some resource =>
      refine kept.quiet rfl ⟨rfl, rfl⟩ rfl rfl rfl ?_
      intro other
      simp only [World.objectRetain]
      by_cases own : other = resource
      · rw [own]
        simp only [Function.update_self]
        omega
      · simp only [Function.update_of_ne own]
  | unregister table desc =>
    simp only [perform] at performs
    split_ifs at performs with alive
    obtain ⟨rfl, rfl⟩ := Prod.mk.inj (Option.some.inj performs)
    obtain ⟨refused, -⟩ | ⟨slot, resource, after, rfl, accepted, found, changed, retainCount, held, disposed, same⟩ :=
      unregisterResource_spec w table desc
    · rw [refused]
      exact kept.quiet rfl ⟨rfl, rfl⟩ rfl rfl rfl fun _ => rfl
    · rw [accepted]
      exact kept.unregister alive found changed retainCount held disposed same
  | release resource =>
    simp only [perform] at performs
    split_ifs at performs with holds
    obtain ⟨rfl, rfl⟩ := Prod.mk.inj (Option.some.inj performs)
    refine kept.quiet rfl ⟨rfl, rfl⟩ rfl rfl rfl ?_
    intro other
    by_cases own : other = resource
    · rw [own]
      simp only [Function.update_self]
      omega
    · simp only [Function.update_of_ne own]
  | deinit =>
    simp only [perform] at performs
    split_ifs at performs with alive
    obtain ⟨rfl, rfl⟩ := Prod.mk.inj (Option.some.inj performs)
    exact kept.deinit leaves

theorem init : (World.init : World α).Kept [] := by
  refine ⟨?_, ?_, fun _ => rfl, fun _ => rfl⟩
  · intro _ table desc
    cases desc with
    | ofNat n =>
      rfl
    | negSucc n =>
      rfl
  · exact fun _ _ => rfl

theorem owns (kept : w.Kept history) : w.Owns history := by
  refine ⟨?_, ?_, ?_, ?_, kept.retains, ?_⟩
  · intro alive table resource grows desc registers
    obtain ⟨refused, -⟩ | ⟨desc', after, accepted, done⟩ := registerResource_spec w table resource grows
    · rw [refused] at registers
      simp at registers
    · rw [accepted] at registers
      obtain rfl : desc' = desc := Except.ok.inj registers
      rw [kept.entries alive]
      refine ⟨done.free, ?_⟩
      intro lower below
      rw [kept.entries alive]
      exact done.lower lower below
  · intro table resource grows err refuses
    obtain ⟨refused, fails⟩ | ⟨desc', after, accepted, -⟩ := registerResource_spec w table resource grows
    · rw [refused] at refuses
      exact ⟨(Except.error.inj refuses).symm, fails⟩
    · rw [accepted] at refuses
      simp at refuses
  · intro alive table desc resource
    rw [kept.entries alive]
    unfold World.copyResourceForDescriptor
    cases (w.table table).at desc with
    | none => simp
    | some found => simp
  · intro alive table desc
    rw [kept.entries alive]
    unfold World.copyResourceForDescriptor
    cases (w.table table).at desc with
    | none => simp
    | some found => simp
  · intro destroyed resource
    have slots : w.slots resource = 0 := by
      unfold World.slots
      rw [kept.empty destroyed, kept.empty destroyed]
      rfl
    have balance := kept.balance resource
    rw [slots] at balance
    exact ⟨slots, balance⟩

end World.Kept

/-- As long as no private resource is left behind, the tables own what the history says. -/
theorem tables_own {w : World α} {history : List (Request α × Reply α)}
    (run : Runs LeavingStep World.init history w) : w.Owns history := by
  have kept : w.Kept history := by
    apply run.history (fun history w => w.Kept history) World.Kept.init
    intro labels label state after _ holds step
    exact holds.step step
  exact kept.owns

def performLeaving (w : World α) (request : Request α) : Option (Reply α × World α) :=
  if request.LeavesNone w then perform w request else none

end Tables

def tidyProcess : List (Request Nat) :=
  [.create 1, .register .ioChannels 1 true, .release 1, .lookUp .ioChannels 0,
    .create 2, .register .privateResources 2 true, .release 2, .unregister .privateResources 0, .release 2, .deinit]

theorem tidyProcess_owns :
    ∃ (w : World Nat) (history : List (Request Nat × Reply Nat)), Runs LeavingStep World.init history w ∧
      w.isDestroyed = true ∧ w.disposed = [1] ∧ w.retainCount 1 = 1 ∧ w.retainCount 2 = 0 ∧ w.Owns history := by
  have performs : (replyAll performLeaving tidyProcess World.init).map (fun w =>
      (w.isDestroyed, w.disposed, w.retainCount 1, w.retainCount 2)) = some (true, [1], 1, 0) := by
    decide
  obtain ⟨w, performed, data⟩ := Option.map_eq_some_iff.mp performs
  have taken : ∀ (state : World Nat) request reply after, performLeaving state request = some (reply, after) →
      LeavingStep state (request, reply) after := by
    intro state request reply after performs
    unfold performLeaving at performs
    split_ifs at performs with leaves
    exact ⟨performs, leaves⟩
  obtain ⟨history, run⟩ := Runs.replyAll taken .nil performed
  simp only [Prod.mk.injEq] at data
  obtain ⟨destroyed, disposed, first, second⟩ := data
  exact ⟨w, history, run, destroyed, disposed, first, second, tables_own run⟩

/-- `Process_Create` registers the main dispatch queue; the process goes away. -/
def plainProcess : List (Request Nat) :=
  [.create 1, .register .privateResources 1 true, .release 1, .deinit]

/-- The main dispatch queue is released twice. -/
theorem plainProcess_disposesTwice :
    ∃ (w : World Nat) (history : List (Request Nat × Reply Nat)), Runs Step World.init history w ∧
      w.isDestroyed = true ∧ w.disposed = [1, 1] ∧ w.retainCount 1 = -1 ∧ ¬w.Owns history := by
  have performs : (replyAll perform plainProcess World.init).map (fun w =>
      (w.isDestroyed, w.disposed, w.retainCount 1)) = some (true, [1, 1], -1) := by
    decide
  obtain ⟨w, performed, data⟩ := Option.map_eq_some_iff.mp performs
  have taken : ∀ (state : World Nat) request reply after, perform state request = some (reply, after) →
      Step state (request, reply) after := fun _ _ _ _ performs => performs
  obtain ⟨history, run⟩ := Runs.replyAll taken .nil performed
  simp only [Prod.mk.injEq] at data
  obtain ⟨destroyed, disposed, count⟩ := data
  refine ⟨w, history, run, destroyed, disposed, count, ?_⟩
  intro owns
  have retains := owns.retains 1
  omega

end Apollo.Process
