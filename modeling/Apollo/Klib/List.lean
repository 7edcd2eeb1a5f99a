import Mathlib.Data.List.Nodup

/-!
# Singly linked lists

`List.c` links nodes through a pointer that is part of the node, so a node can
be in one list at a time, and an operation on one list is visible in every
other list that shares a node with it.  The pointers of all nodes are one map
here, and a list is the pair of its ends.
-/

set_option autoImplicit false

namespace Apollo.Klib

variable {α : Type} [DecidableEq α]

/-- The `next` pointer of every node. -/
abbrev Links (α : Type) : Type := α → Option α

structure SList (α : Type) where
  first : Option α
  last : Option α
  deriving DecidableEq

namespace SList

def init : SList α := ⟨none, none⟩

def insertBeforeFirst (links : Links α) (list : SList α) (node : α) : Links α × SList α :=
  (Function.update links node list.first,
    ⟨some node, if list.last = none then some node else list.last⟩)

def insertAfterLast (links : Links α) (list : SList α) (node : α) : Links α × SList α :=
  let links := Function.update links node none
  let links := match list.last with
    | some last => Function.update links last (some node)
    | none => links
  (links, ⟨if list.first = none then some node else list.first, some node⟩)

def insertAfter (links : Links α) (list : SList α) (node : α) : Option α → Links α × SList α
  | some afterNode =>
    let links := Function.update links node (links afterNode)
    (Function.update links afterNode (some node),
      ⟨list.first, if list.last = some afterNode then some node else list.last⟩)
  | none => insertBeforeFirst links list node

def removeFirst (links : Links α) (list : SList α) : Option α × Links α × SList α :=
  match list.first with
  | some first =>
    if list.last ≠ some first then
      (some first, Function.update links first none, ⟨links first, list.last⟩)
    else (some first, links, ⟨none, none⟩)
  | none => (none, links, list)

/-- `SList_Remove`.  It follows a null pointer when a node in the middle comes
without its predecessor. -/
def remove (links : Links α) (list : SList α) (prevNode : Option α) (node : α) :
    Option (Links α × SList α) :=
  if list.first = some node ∧ list.last = some node then some (links, ⟨none, none⟩)
  else if list.first = some node then some (links, ⟨links node, list.last⟩)
  else if list.last = some node then
    match prevNode with
    | some prev => some (Function.update links prev none, ⟨list.first, prevNode⟩)
    | none => some (links, ⟨list.first, none⟩)
  else
    match prevNode with
    | some prev => some (Function.update links prev (links node), list)
    | none => none

end SList

/-! ## The nodes of a list -/

/-- The nodes are linked in this order, and the last one points to `tail`. -/
def Segment (links : Links α) : List α → Option α → Prop
  | [], _ => True
  | node :: rest, tail => links node = rest.head?.or tail ∧ Segment links rest tail

namespace Segment

variable {links links' : Links α} {nodes front back : List α} {tail : Option α}

omit [DecidableEq α] in
theorem congr (segment : Segment links nodes tail) (same : ∀ node ∈ nodes, links' node = links node) :
    Segment links' nodes tail := by
  induction nodes with
  | nil => trivial
  | cons node rest ih =>
    refine ⟨?_, ih segment.2 fun other member => same other (List.mem_cons_of_mem _ member)⟩
    rw [same node List.mem_cons_self]
    exact segment.1

theorem update (segment : Segment links nodes tail) {node : α} (absent : node ∉ nodes)
    (value : Option α) : Segment (Function.update links node value) nodes tail := by
  refine segment.congr ?_
  intro other member
  apply Function.update_of_ne
  rintro rfl
  exact absent member

omit [DecidableEq α] in
theorem append :
    Segment links (front ++ back) tail ↔
      Segment links front (back.head?.or tail) ∧ Segment links back tail := by
  induction front with
  | nil => simp [Segment]
  | cons node rest ih =>
    rw [List.cons_append, Segment, Segment, ih, List.head?_append, Option.or_assoc, and_assoc]

omit [DecidableEq α] in
theorem last (segment : Segment links (front ++ back) tail) {node : α} (isLast : front.getLast? = some node) :
    links node = back.head?.or tail := by
  obtain ⟨before, rfl⟩ := List.getLast?_eq_some_iff.mp isLast
  exact (append.mp (append.mp segment).1).2.1

omit [DecidableEq α] in
theorem retarget (segment : Segment links nodes tail) {tail' : Option α}
    (same : ∀ node ∈ nodes.dropLast, links' node = links node)
    (last : ∀ node, nodes.getLast? = some node → links' node = tail') : Segment links' nodes tail' := by
  rcases List.eq_nil_or_concat nodes with rfl | ⟨before, node, rfl⟩
  · trivial
  · rw [List.concat_eq_append] at *
    rw [List.dropLast_concat] at same
    refine append.mpr ⟨(append.mp segment).1.congr same, ?_, trivial⟩
    exact last node List.getLast?_concat

omit [DecidableEq α] in
theorem relink {middle center : List α} (segment : Segment links (front ++ (middle ++ back)) tail)
    (kept : ∀ node ∈ front.dropLast, links' node = links node)
    (last : ∀ node, front.getLast? = some node → links' node = (center ++ back).head?.or tail)
    (inner : Segment links' center (back.head?.or tail)) (kept' : ∀ node ∈ back, links' node = links node) :
    Segment links' (front ++ (center ++ back)) tail := by
  obtain ⟨before, behind⟩ := append.mp segment
  exact append.mpr ⟨before.retarget kept last, append.mpr ⟨inner, (append.mp behind).2.congr kept'⟩⟩

end Segment

structure SList.Holds (links : Links α) (list : SList α) (nodes : List α) : Prop where
  first : list.first = nodes.head?
  last : list.last = nodes.getLast?
  segment : Segment links nodes none
  nodup : nodes.Nodup

namespace SList

variable {links links' : Links α} {list : SList α} {nodes front back : List α} {node : α}

omit [DecidableEq α] in
theorem holds_init (links : Links α) : (SList.init : SList α).Holds links [] :=
  ⟨rfl, rfl, trivial, List.nodup_nil⟩

/-- An insertion changes the pointers of the new node and its predecessor. -/
theorem insertAfter_links {afterNode : Option α} {other : α} (different : other ≠ node)
    (elsewhere : afterNode ≠ some other) :
    (list.insertAfter links node afterNode).1 other = links other := by
  cases afterNode with
  | none => exact Function.update_of_ne different _ _
  | some previous =>
    have apart : other ≠ previous := fun same => elsewhere (by rw [same])
    simp only [SList.insertAfter]
    rw [Function.update_of_ne apart, Function.update_of_ne different]

namespace Holds

omit [DecidableEq α] in
theorem congr (holds : list.Holds links nodes) (same : ∀ node ∈ nodes, links' node = links node) :
    list.Holds links' nodes :=
  ⟨holds.first, holds.last, holds.segment.congr same, holds.nodup⟩

omit [DecidableEq α] in
theorem unique {nodes' : List α} (holds : list.Holds links nodes) (holds' : list.Holds links nodes') :
    nodes = nodes' := by
  have first : nodes.head? = nodes'.head? := holds.first.symm.trans holds'.first
  have segment := holds.segment
  have segment' := holds'.segment
  clear holds holds'
  induction nodes generalizing nodes' with
  | nil =>
    rw [List.head?_nil] at first
    exact (List.head?_eq_none_iff.mp first.symm).symm
  | cons node rest ih =>
    cases nodes' with
    | nil => simp at first
    | cons node' rest' =>
      simp only [List.head?_cons, Option.some.injEq] at first
      subst first
      have next := segment.1.symm.trans segment'.1
      rw [Option.or_none, Option.or_none] at next
      rw [ih next segment.2 segment'.2]

omit [DecidableEq α] in
theorem next (holds : list.Holds links (front ++ node :: back)) : links node = back.head? := by
  have points := (Segment.append.mp holds.segment).2.1
  rwa [Option.or_none] at points

theorem insertBeforeFirst (holds : list.Holds links nodes) (fresh : node ∉ nodes) :
    (list.insertBeforeFirst links node).2.Holds (list.insertBeforeFirst links node).1 (node :: nodes) := by
  refine ⟨rfl, ?_, ⟨?_, holds.segment.update fresh _⟩, List.nodup_cons.mpr ⟨fresh, holds.nodup⟩⟩
  · simp only [SList.insertBeforeFirst, holds.last]
    cases nodes with
    | nil => rfl
    | cons head rest =>
      rw [if_neg (by simp), List.getLast?_cons_cons]
  · simp only [SList.insertBeforeFirst, Function.update_self, holds.first, Option.or_none]

theorem insertAfter (holds : list.Holds links (front ++ back)) (fresh : node ∉ front ++ back) :
    (list.insertAfter links node front.getLast?).2.Holds (list.insertAfter links node front.getLast?).1
      (front ++ node :: back) := by
  rcases List.eq_nil_or_concat front with rfl | ⟨init, last, rfl⟩
  · exact holds.insertBeforeFirst fresh
  rw [List.concat_eq_append] at *
  have nodup := holds.nodup
  have segment := holds.segment
  simp only [List.append_assoc, List.singleton_append] at nodup segment fresh ⊢
  obtain ⟨segment₁, next, segment₂⟩ := Segment.append.mp segment
  rw [Option.or_none] at next
  have init_last : last ∉ init := by
    intro member
    exact List.nodup_append.mp nodup |>.2.2 last member last List.mem_cons_self rfl
  have back_last : last ∉ back := by
    have := (List.nodup_append.mp nodup).2.1
    exact (List.nodup_cons.mp this).1
  have different : node ≠ last := by
    rintro rfl
    exact fresh (List.mem_append_right _ List.mem_cons_self)
  rw [List.getLast?_concat]
  refine ⟨?_, ?_, Segment.append.mpr ⟨?_, ?_, ?_, ?_⟩, ?_⟩
  · simp only [SList.insertAfter, holds.first]
    cases init <;> rfl
  · simp only [SList.insertAfter, holds.last]
    cases back with
    | nil => simp
    | cons head rest =>
      have other : (init ++ [last] ++ head :: rest).getLast? ≠ some last := by
        intro same
        rw [List.getLast?_append_of_ne_nil _ (List.cons_ne_nil _ _)] at same
        exact back_last (List.mem_of_getLast? same)
      rw [if_neg other]
      simp [List.getLast?_append]
  · refine ((segment₁.update ?_ _).update init_last _)
    exact fun member => fresh (List.mem_append_left _ member)
  · simp [SList.insertAfter]
  · simp only [SList.insertAfter, Option.or_none]
    rw [Function.update_of_ne different, Function.update_self, next]
  · refine (segment₂.update ?_ _).update back_last _
    exact fun member => fresh (List.mem_append_right _ (List.mem_cons_of_mem _ member))
  · rw [List.append_cons, List.perm_middle.nodup_iff, List.nodup_cons]
    simp only [List.append_assoc, List.singleton_append]
    exact ⟨fresh, nodup⟩

theorem insertAfterLast_eq (holds : list.Holds links nodes) (node : α) :
    list.insertAfterLast links node = list.insertAfter links node nodes.getLast? := by
  have first := holds.first
  have last := holds.last
  rcases List.eq_nil_or_concat nodes with rfl | ⟨init, final, rfl⟩
  · simp [SList.insertAfterLast, SList.insertAfter, SList.insertBeforeFirst, first, last]
  · rw [List.concat_eq_append] at *
    obtain ⟨-, next, -⟩ := Segment.append.mp holds.segment
    rw [List.getLast?_concat] at last ⊢
    have some_first : list.first ≠ none := by
      rw [first]
      simp
    simp only [SList.insertAfterLast, SList.insertAfter, last, next, if_neg some_first, if_true,
      List.head?_nil, Option.or_none]

theorem removeFirst (holds : list.Holds links (node :: nodes)) :
    ∃ links' list', list.removeFirst links = (some node, links', list') ∧ list'.Holds links' nodes ∧
      ∀ other ≠ node, links' other = links other := by
  obtain ⟨fresh, nodup⟩ := List.nodup_cons.mp holds.nodup
  have first := holds.first
  have last := holds.last
  obtain ⟨next, segment⟩ := holds.segment
  rw [List.head?_cons] at first
  unfold SList.removeFirst
  rw [first]
  cases nodes with
  | nil =>
    rw [List.getLast?_singleton] at last
    simp only [last, ne_eq, not_true_eq_false, if_false]
    exact ⟨links, ⟨none, none⟩, rfl, holds_init links, fun _ _ => rfl⟩
  | cons head rest =>
    have other : list.last ≠ some node := by
      rw [last]
      exact fun same => fresh (List.mem_of_getLast? same)
    simp only [if_pos other]
    refine ⟨_, _, rfl, ⟨next, last, segment.update fresh none, nodup⟩, ?_⟩
    intro other different
    exact Function.update_of_ne different _ _

theorem removeFirst_nil (holds : list.Holds links []) : list.removeFirst links = (none, links, list) := by
  unfold SList.removeFirst
  rw [holds.first]
  rfl

theorem remove (holds : list.Holds links (front ++ node :: back)) :
    ∃ links' list', list.remove links front.getLast? node = some (links', list') ∧
      list'.Holds links' (front ++ back) ∧ ∀ other, front.getLast? ≠ some other → links' other = links other := by
  obtain ⟨absent, nodup⟩ := List.nodup_cons.mp (List.perm_middle.nodup_iff.mp holds.nodup)
  obtain ⟨segment₁, next, segment₂⟩ := Segment.append.mp holds.segment
  rw [Option.or_none] at next
  have last_iff : list.last = some node ↔ back = [] := by
    rw [holds.last, List.getLast?_append_of_ne_nil _ (List.cons_ne_nil _ _)]
    cases back with
    | nil => simp
    | cons head rest =>
      rw [List.getLast?_cons_cons]
      refine ⟨fun same => ?_, fun empty => absurd empty (List.cons_ne_nil _ _)⟩
      exact absurd (List.mem_append_right _ (List.mem_of_getLast? same)) absent
  have first_iff : list.first = some node ↔ front = [] := by
    rw [holds.first]
    cases front with
    | nil => simp
    | cons head rest =>
      rw [List.cons_append, List.head?_cons, Option.some.injEq]
      refine ⟨?_, fun empty => absurd empty (List.cons_ne_nil _ _)⟩
      rintro rfl
      exact absurd (List.mem_append_left _ List.mem_cons_self) absent
  unfold SList.remove
  by_cases only : front = []
  · subst only
    rw [List.nil_append] at *
    by_cases single : back = []
    · rw [if_pos ⟨first_iff.mpr rfl, last_iff.mpr single⟩, single]
      exact ⟨links, ⟨none, none⟩, rfl, holds_init links, fun _ _ => rfl⟩
    · rw [if_neg fun both => single (last_iff.mp both.2), if_pos (first_iff.mpr rfl)]
      refine ⟨_, _, rfl, ⟨next, ?_, segment₂, nodup⟩, fun _ _ => rfl⟩
      obtain ⟨head, rest, rfl⟩ := List.exists_cons_of_ne_nil single
      rw [holds.last, List.getLast?_cons_cons]
  · obtain ⟨init, prev, rfl⟩ := (List.eq_nil_or_concat front).resolve_left only
    rw [List.concat_eq_append] at *
    have later : list.first ≠ some node := fun same => only (first_iff.mp same)
    rw [if_neg fun both => later both.1, if_neg later, List.getLast?_concat]
    obtain ⟨segment₀, -⟩ := Segment.append.mp segment₁
    have split := List.nodup_append.mp nodup
    have init_prev : prev ∉ init := by
      have := (List.nodup_append.mp split.1).2.2
      exact fun member => this prev member prev (List.mem_singleton_self _) rfl
    have back_prev : prev ∉ back := by
      intro member
      exact split.2.2 prev (List.mem_append_right _ (List.mem_singleton_self _)) prev member rfl
    have kept : ∀ (value : Option α) (other : α), some prev ≠ some other →
        Function.update links prev value other = links other := by
      intro value other different
      exact Function.update_of_ne (fun same => different (by rw [same])) _ _
    have segments : Segment (Function.update links prev back.head?) (init ++ [prev] ++ back) none := by
      refine Segment.append.mpr ⟨Segment.append.mpr ⟨segment₀.update init_prev _, ?_, trivial⟩,
        segment₂.update back_prev _⟩
      simp
    have first : list.first = (init ++ [prev] ++ back).head? := by
      rw [holds.first]
      cases init <;> rfl
    by_cases final : back = []
    · rw [if_pos (last_iff.mpr final)]
      rw [final] at segments first nodup ⊢
      refine ⟨_, _, rfl, ⟨first, ?_, segments, nodup⟩, kept none⟩
      simp
    · rw [if_neg fun same => final (last_iff.mp same)]
      rw [next]
      refine ⟨_, _, rfl, ⟨first, ?_, segments, nodup⟩, kept _⟩
      obtain ⟨head, rest, rfl⟩ := List.exists_cons_of_ne_nil final
      rw [holds.last]
      simp [List.getLast?_append]

end Holds

end SList

end Apollo.Klib
