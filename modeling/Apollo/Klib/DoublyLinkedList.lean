import Mathlib.Data.List.Nodup

/-!
# Doubly linked lists

The doubly linked lists of `List.c`.  Their nodes are parts of larger records
and live in one heap; a list is a pair of pointers into it.  `DList.Holds` says
which nodes a list has, and `Shelved` speaks about several lists that share the
nodes of one heap.
-/

set_option autoImplicit false

namespace Apollo.Klib

structure ListNode (α : Type) where
  next : Option α
  prev : Option α
  deriving DecidableEq

def ListNode.init {α : Type} : ListNode α := ⟨none, none⟩

abbrev Heap (α : Type) : Type := α → ListNode α

structure DList (α : Type) where
  first : Option α
  last : Option α
  deriving DecidableEq

variable {α : Type} [DecidableEq α]

def Heap.setNext (heap : Heap α) (node value : Option α) : Heap α :=
  match node with
  | some node => Function.update heap node { heap node with next := value }
  | none => heap

def Heap.setPrev (heap : Heap α) (node value : Option α) : Heap α :=
  match node with
  | some node => Function.update heap node { heap node with prev := value }
  | none => heap

namespace DList

def init : DList α := ⟨none, none⟩

def insertBeforeFirst (heap : Heap α) (list : DList α) (node : α) : Heap α × DList α :=
  let heap : Heap α := Function.update heap node ⟨list.first, none⟩
  (heap.setPrev list.first (some node), ⟨some node, if list.last = none then some node else list.last⟩)

def insertAfterLast (heap : Heap α) (list : DList α) (node : α) : Heap α × DList α :=
  let heap : Heap α := Function.update heap node ⟨none, list.last⟩
  (heap.setNext list.last (some node), ⟨if list.first = none then some node else list.first, some node⟩)

def insertAfter (heap : Heap α) (list : DList α) (node : α) : Option α → Heap α × DList α
  | some afterNode =>
    let heap : Heap α := Function.update heap node ⟨(heap afterNode).next, some afterNode⟩
    let heap := heap.setPrev (heap afterNode).next (some node)
    (heap.setNext (some afterNode) (some node),
      ⟨list.first, if list.last = some afterNode then some node else list.last⟩)
  | none => insertBeforeFirst heap list node

def remove (heap : Heap α) (list : DList α) (node : α) : Heap α × DList α :=
  if list.first ≠ some node ∨ list.last ≠ some node then
    let heap := heap.setPrev (heap node).next (heap node).prev
    let heap := heap.setNext (heap node).prev (heap node).next
    (Function.update heap node ListNode.init,
      ⟨if list.first = some node then (heap node).next else list.first,
        if list.last = some node then (heap node).prev else list.last⟩)
  else (Function.update heap node ListNode.init, ⟨none, none⟩)

end DList

/-! ## The nodes of a list -/

namespace Heap

variable {heap : Heap α} {node value : Option α} {other : α}

theorem setNext_of_ne (different : node ≠ some other) : heap.setNext node value other = heap other := by
  cases node with
  | none => rfl
  | some node => exact Function.update_of_ne (fun same => different (by rw [same])) _ _

theorem setPrev_of_ne (different : node ≠ some other) : heap.setPrev node value other = heap other := by
  cases node with
  | none => rfl
  | some node => exact Function.update_of_ne (fun same => different (by rw [same])) _ _

end Heap

/-- The nodes are linked in this order, behind `before` and in front of `after`. -/
def Linked (heap : Heap α) : Option α → List α → Option α → Prop
  | _, [], _ => True
  | before, node :: rest, after => heap node = ⟨rest.head?.or after, before⟩ ∧ Linked heap (some node) rest after

namespace Linked

variable {heap heap' : Heap α} {nodes front back : List α} {before after : Option α}

omit [DecidableEq α] in
theorem congr (linked : Linked heap before nodes after) (same : ∀ node ∈ nodes, heap' node = heap node) :
    Linked heap' before nodes after := by
  induction nodes generalizing before with
  | nil => trivial
  | cons node rest ih =>
    refine ⟨?_, ih linked.2 fun other member => same other (List.mem_cons_of_mem _ member)⟩
    rw [same node List.mem_cons_self]
    exact linked.1

theorem update (linked : Linked heap before nodes after) {node : α} (absent : node ∉ nodes)
    (value : ListNode α) : Linked (Function.update heap node value) before nodes after := by
  refine linked.congr ?_
  intro other member
  apply Function.update_of_ne
  rintro rfl
  exact absent member

omit [DecidableEq α] in
theorem append :
    Linked heap before (front ++ back) after ↔
      Linked heap before front (back.head?.or after) ∧ Linked heap (front.getLast?.or before) back after := by
  induction front generalizing before with
  | nil => simp [Linked]
  | cons node rest ih =>
    rw [List.cons_append, Linked, Linked, ih, List.head?_append, Option.or_assoc, and_assoc]
    cases rest with
    | nil => rfl
    | cons head tail => simp [List.getLast?_cons]

omit [DecidableEq α] in
theorem unique {nodes' : List α} {before' : Option α} (linked : Linked heap before nodes none)
    (linked' : Linked heap before' nodes' none) (first : nodes.head? = nodes'.head?) : nodes = nodes' := by
  induction nodes generalizing nodes' before before' with
  | nil =>
    rw [List.head?_nil] at first
    exact (List.head?_eq_none_iff.mp first.symm).symm
  | cons node rest ih =>
    cases nodes' with
    | nil => simp at first
    | cons node' rest' =>
      simp only [List.head?_cons, Option.some.injEq] at first
      subst first
      have next := congrArg ListNode.next (linked.1.symm.trans linked'.1)
      simp only [Option.or_none] at next
      rw [ih linked.2 linked'.2 next]

theorem setNext (linked : Linked heap before nodes after) (nodup : nodes.Nodup) (next : Option α) :
    Linked (heap.setNext nodes.getLast? next) before nodes next := by
  induction nodes generalizing before with
  | nil => trivial
  | cons node rest ih =>
    obtain ⟨absent, nodup⟩ := List.nodup_cons.mp nodup
    cases rest with
    | nil =>
      refine ⟨?_, trivial⟩
      simp [Heap.setNext, linked.1]
    | cons head tail =>
      rw [List.getLast?_cons_cons]
      refine ⟨?_, ih linked.2 nodup⟩
      rw [Heap.setNext_of_ne fun same => absent (List.mem_of_getLast? same)]
      exact linked.1

/-- The first node gets another predecessor. -/
theorem setPrev (linked : Linked heap before nodes after) (nodup : nodes.Nodup) (prev : Option α) :
    Linked (heap.setPrev nodes.head? prev) prev nodes after := by
  cases nodes with
  | nil => trivial
  | cons node rest =>
    refine ⟨?_, linked.2.update (List.nodup_cons.mp nodup).1 _⟩
    simp [Heap.setPrev, linked.1]

end Linked

structure DList.Holds (heap : Heap α) (list : DList α) (nodes : List α) : Prop where
  first : list.first = nodes.head?
  last : list.last = nodes.getLast?
  linked : Linked heap none nodes none
  nodup : nodes.Nodup

namespace DList

variable {heap heap' : Heap α} {list : DList α} {nodes front back : List α} {node other : α}

omit [DecidableEq α] in
theorem holds_empty (heap : Heap α) : (DList.init : DList α).Holds heap [] :=
  ⟨rfl, rfl, trivial, List.nodup_nil⟩

namespace Holds

omit [DecidableEq α] in
theorem congr (holds : list.Holds heap nodes) (same : ∀ node ∈ nodes, heap' node = heap node) :
    list.Holds heap' nodes :=
  ⟨holds.first, holds.last, holds.linked.congr same, holds.nodup⟩

omit [DecidableEq α] in
theorem unique {nodes' : List α} (holds : list.Holds heap nodes) (holds' : list.Holds heap nodes') :
    nodes = nodes' :=
  holds.linked.unique holds'.linked (holds.first.symm.trans holds'.first)

omit [DecidableEq α] in
theorem pointers (holds : list.Holds heap (front ++ node :: back)) :
    heap node = ⟨back.head?, front.getLast?⟩ := by
  have here := (Linked.append.mp holds.linked).2.1
  rwa [Option.or_none, Option.or_none] at here

theorem insertBeforeFirst (holds : list.Holds heap nodes) (fresh : node ∉ nodes) :
    (list.insertBeforeFirst heap node).2.Holds (list.insertBeforeFirst heap node).1 (node :: nodes) := by
  refine ⟨rfl, ?_, ⟨?_, ?_⟩, List.nodup_cons.mpr ⟨fresh, holds.nodup⟩⟩
  · simp only [DList.insertBeforeFirst, holds.last]
    cases nodes with
    | nil => rfl
    | cons head rest => rw [if_neg (by simp), List.getLast?_cons_cons]
  · simp only [DList.insertBeforeFirst, holds.first, Option.or_none]
    rw [Heap.setPrev_of_ne fun same => fresh (List.mem_of_head? same), Function.update_self]
  · simp only [DList.insertBeforeFirst, holds.first]
    exact (holds.linked.update fresh _).setPrev holds.nodup _

theorem insertAfter (holds : list.Holds heap (front ++ back)) (fresh : node ∉ front ++ back) :
    (list.insertAfter heap node front.getLast?).2.Holds (list.insertAfter heap node front.getLast?).1
      (front ++ node :: back) := by
  rcases List.eq_nil_or_concat front with rfl | ⟨init, last, rfl⟩
  · exact holds.insertBeforeFirst fresh
  rw [List.concat_eq_append] at *
  have nodup : (init ++ [last] ++ node :: back).Nodup :=
    List.perm_middle.nodup_iff.mpr (List.nodup_cons.mpr ⟨fresh, holds.nodup⟩)
  obtain ⟨linked₁, linked₂⟩ := Linked.append.mp holds.linked
  obtain ⟨nodup₁, nodup₂, apart⟩ := List.nodup_append.mp holds.nodup
  have back_last : last ∉ back := fun member => apart last (by simp) last member rfl
  have different : last ≠ node := by
    rintro rfl
    exact fresh (by simp)
  have next : (heap last).next = back.head? := by
    rw [((Linked.append.mp linked₁).2).1]
    simp
  have head_front : ∀ other ∈ init ++ [last], back.head? ≠ some other :=
    fun other member same => apart other member other (List.mem_of_head? same) rfl
  rw [List.getLast?_concat]
  simp only [DList.insertAfter, Function.update_of_ne different, next]
  refine ⟨?_, ?_, Linked.append.mpr ⟨?_, ?_, ?_⟩, nodup⟩
  · rw [holds.first]
    cases init <;> rfl
  · rw [holds.last]
    cases back with
    | nil => simp
    | cons head rest =>
      rw [List.getLast?_append_of_ne_nil _ (List.cons_ne_nil _ _),
        if_neg fun same => back_last (List.mem_of_getLast? same),
        List.getLast?_append_of_ne_nil _ (List.cons_ne_nil _ _), List.getLast?_cons_cons]
  · have kept : Linked (Heap.setPrev (Function.update heap node ⟨back.head?, some last⟩) back.head? (some node))
        none (init ++ [last]) (back.head?.or none) := by
      refine (linked₁.update (fun member => fresh (List.mem_append_left _ member)) ⟨back.head?, some last⟩).congr ?_
      intro other member
      exact Heap.setPrev_of_ne (head_front other member)
    have relinked := kept.setNext nodup₁ (some node)
    rwa [List.getLast?_concat] at relinked
  · rw [Heap.setNext_of_ne (by simpa using different),
      Heap.setPrev_of_ne fun same => fresh (List.mem_append_right _ (List.mem_of_head? same)),
      Function.update_self]
    simp
  · have updated := linked₂.update (fun member => fresh (List.mem_append_right _ member))
      ⟨back.head?, some last⟩
    refine (updated.setPrev nodup₂ (some node)).congr ?_
    intro other member
    refine Heap.setNext_of_ne ?_
    rintro ⟨⟩
    exact back_last member

theorem insertAfterLast_eq (holds : list.Holds heap nodes) (fresh : node ∉ nodes) :
    list.insertAfterLast heap node = list.insertAfter heap node nodes.getLast? := by
  have first := holds.first
  have last := holds.last
  rcases List.eq_nil_or_concat nodes with rfl | ⟨init, final, rfl⟩
  · simp [DList.insertAfterLast, DList.insertAfter, DList.insertBeforeFirst, first, last, Heap.setNext,
      Heap.setPrev]
  · rw [List.concat_eq_append] at *
    have pointers : heap final = ⟨none, init.getLast?⟩ := holds.pointers
    have different : final ≠ node := by
      rintro rfl
      exact fresh (by simp)
    rw [List.getLast?_concat] at last ⊢
    have some_first : list.first ≠ none := by
      rw [first]
      simp
    simp only [DList.insertAfterLast, DList.insertAfter, last, pointers, if_neg some_first, if_true,
      Function.update_of_ne different, Heap.setPrev]

omit [DecidableEq α] in
theorem first_iff (holds : list.Holds heap (front ++ node :: back)) : list.first = some node ↔ front = [] := by
  have nodup := (List.nodup_cons.mp (List.perm_middle.nodup_iff.mp holds.nodup)).1
  rw [holds.first]
  cases front with
  | nil => simp
  | cons head rest =>
    rw [List.cons_append, List.head?_cons, Option.some.injEq]
    refine ⟨?_, fun empty => absurd empty (List.cons_ne_nil _ _)⟩
    rintro rfl
    exact absurd (List.mem_append_left _ List.mem_cons_self) nodup

omit [DecidableEq α] in
theorem last_iff (holds : list.Holds heap (front ++ node :: back)) : list.last = some node ↔ back = [] := by
  have nodup := (List.nodup_cons.mp (List.perm_middle.nodup_iff.mp holds.nodup)).1
  rw [holds.last, List.getLast?_append_of_ne_nil _ (List.cons_ne_nil _ _)]
  cases back with
  | nil => simp
  | cons head rest =>
    rw [List.getLast?_cons_cons]
    refine ⟨fun same => ?_, fun empty => absurd empty (List.cons_ne_nil _ _)⟩
    exact absurd (List.mem_append_right _ (List.mem_of_getLast? same)) nodup

theorem remove (holds : list.Holds heap (front ++ node :: back)) :
    (list.remove heap node).2.Holds (list.remove heap node).1 (front ++ back) := by
  obtain ⟨absent, nodup⟩ := List.nodup_cons.mp (List.perm_middle.nodup_iff.mp holds.nodup)
  obtain ⟨nodup₁, nodup₂, apart⟩ := List.nodup_append.mp nodup
  obtain ⟨linked₁, -, linked₂⟩ := Linked.append.mp holds.linked
  have head_ne : back.head? ≠ some node :=
    fun same => absent (List.mem_append_right _ (List.mem_of_head? same))
  have last_ne : front.getLast? ≠ some node :=
    fun same => absent (List.mem_append_left _ (List.mem_of_getLast? same))
  unfold DList.remove
  split
  · simp only [holds.pointers, Heap.setPrev_of_ne head_ne, Heap.setNext_of_ne last_ne]
    refine ⟨?_, ?_, Linked.append.mpr ⟨Linked.update ?_ ?_ _, Linked.update ?_ ?_ _⟩, nodup⟩
    · by_cases only : front = []
      · rw [if_pos (holds.first_iff.mpr only), only, List.nil_append]
      · rw [if_neg fun same => only (holds.first_iff.mp same), holds.first]
        obtain ⟨head, rest, rfl⟩ := List.exists_cons_of_ne_nil only
        rfl
    · by_cases only : back = []
      · rw [if_pos (holds.last_iff.mpr only), only, List.append_nil]
      · rw [if_neg fun same => only (holds.last_iff.mp same), holds.last,
          List.getLast?_append_of_ne_nil _ (List.cons_ne_nil _ _), List.getLast?_append_of_ne_nil _ only]
        obtain ⟨head, rest, rfl⟩ := List.exists_cons_of_ne_nil only
        rw [List.getLast?_cons_cons]
    · rw [Option.or_none]
      refine Linked.setNext (linked₁.congr ?_) nodup₁ back.head?
      intro other member
      exact Heap.setPrev_of_ne fun same => apart other member other (List.mem_of_head? same) rfl
    · exact fun member => absent (List.mem_append_left _ member)
    · rw [Option.or_none]
      refine (linked₂.setPrev nodup₂ front.getLast?).congr ?_
      intro other member
      exact Heap.setNext_of_ne fun same => apart other (List.mem_of_getLast? same) other member rfl
    · exact fun member => absent (List.mem_append_right _ member)
  · rename_i single
    simp only [ne_eq, not_or, not_not] at single
    have no_front := holds.first_iff.mp single.1
    have no_back := holds.last_iff.mp single.2
    rw [no_front, no_back]
    exact holds_empty _

end Holds

theorem remove_detached (holds : list.Holds heap nodes) (absent : node ∉ nodes)
    (detached : heap node = ListNode.init) : list.remove heap node = (heap, list) := by
  have first : list.first ≠ some node := by
    rw [holds.first]
    exact fun same => absent (List.mem_of_head? same)
  have last : list.last ≠ some node := by
    rw [holds.last]
    exact fun same => absent (List.mem_of_getLast? same)
  unfold DList.remove
  rw [if_pos (.inl first)]
  simp only [detached, ListNode.init, Heap.setPrev, Heap.setNext, if_neg first, if_neg last]
  rw [← ListNode.init, ← detached, Function.update_eq_self]

theorem insertAfter_heap (holds : list.Holds heap (front ++ back)) (different : other ≠ node)
    (elsewhere : other ∉ front ++ back) :
    (list.insertAfter heap node front.getLast?).1 other = heap other := by
  rcases List.eq_nil_or_concat front with rfl | ⟨init, last, rfl⟩
  · have head : list.first ≠ some other := by
      rw [holds.first]
      exact fun same => elsewhere (List.mem_of_head? same)
    simp only [List.getLast?_nil, insertAfter, insertBeforeFirst]
    rw [Heap.setPrev_of_ne head, Function.update_of_ne different]
  · rw [List.concat_eq_append] at *
    rw [List.append_assoc, List.singleton_append] at holds elsewhere
    have pointers := holds.pointers
    have last_ne : some last ≠ some other := by
      rintro ⟨⟩
      exact elsewhere (by simp)
    rw [List.getLast?_concat]
    simp only [insertAfter]
    rw [Heap.setNext_of_ne last_ne, Heap.setPrev_of_ne, Function.update_of_ne different]
    by_cases same : last = node
    · rw [same, Function.update_self, ← same, pointers]
      exact fun head => elsewhere (List.mem_append_right _ (List.mem_cons_of_mem _ (List.mem_of_head? head)))
    · rw [Function.update_of_ne same, pointers]
      exact fun head => elsewhere (List.mem_append_right _ (List.mem_cons_of_mem _ (List.mem_of_head? head)))

theorem remove_heap (holds : list.Holds heap (front ++ node :: back)) (elsewhere : other ∉ front ++ node :: back) :
    (list.remove heap node).1 other = heap other := by
  have different : other ≠ node := by
    rintro rfl
    exact elsewhere (by simp)
  have head : back.head? ≠ some other :=
    fun same => elsewhere (List.mem_append_right _ (List.mem_cons_of_mem _ (List.mem_of_head? same)))
  have last : front.getLast? ≠ some other :=
    fun same => elsewhere (List.mem_append_left _ (List.mem_of_getLast? same))
  have nodup := (List.nodup_cons.mp (List.perm_middle.nodup_iff.mp holds.nodup)).1
  have head_node : back.head? ≠ some node :=
    fun same => nodup (List.mem_append_right _ (List.mem_of_head? same))
  unfold remove
  split
  · simp only [holds.pointers, Heap.setPrev_of_ne head_node]
    rw [Function.update_of_ne different, Heap.setNext_of_ne last, Heap.setPrev_of_ne head]
  · exact Function.update_of_ne different _ _

theorem remove_node (heap : Heap α) (list : DList α) (node : α) :
    (list.remove heap node).1 node = ListNode.init := by
  unfold remove
  split <;> exact Function.update_self _ _ _

end DList

/-! ## Several lists over the nodes of one heap -/

structure Shelved {ι : Type} (heap : Heap α) (lists : ι → DList α) (nodes : ι → List α) : Prop where
  holds : ∀ shelf, (lists shelf).Holds heap (nodes shelf)
  apart : ∀ shelf other node, node ∈ nodes shelf → node ∈ nodes other → shelf = other

namespace Shelved

variable {ι : Type} [DecidableEq ι] {heap heap' : Heap α} {lists : ι → DList α} {nodes : ι → List α}
  {shelf : ι} {node : α}

omit [DecidableEq α] in
theorem change (shelved : Shelved heap lists nodes) (node : α) {list : DList α} {after : List α}
    (holds : list.Holds heap' after) (subset : ∀ other ∈ after, other = node ∨ other ∈ nodes shelf)
    (here : ∀ other, node ∈ nodes other → other = shelf)
    (same : ∀ other, other ≠ node → other ∉ nodes shelf → heap' other = heap other) :
    Shelved heap' (Function.update lists shelf list) (Function.update nodes shelf after) := by
  have only : ∀ place other, place ≠ shelf → other ∈ nodes place → other ∉ after := by
    intro place other different member later
    rcases subset other later with rfl | before
    · exact different (here place member)
    · exact different (shelved.apart place shelf other member before)
  constructor
  · intro place
    by_cases this : place = shelf
    · subst this
      rw [Function.update_self, Function.update_self]
      exact holds
    · rw [Function.update_of_ne this, Function.update_of_ne this]
      refine (shelved.holds place).congr ?_
      intro other member
      refine same other ?_ ?_
      · rintro rfl
        exact this (here place member)
      · exact fun before => this (shelved.apart place shelf other member before)
  · intro place place' other member member'
    by_cases this : place = shelf
    · by_cases that : place' = shelf
      · rw [this, that]
      · rw [this, Function.update_self] at member
        rw [Function.update_of_ne that] at member'
        exact absurd member (only place' other that member')
    · rw [Function.update_of_ne this] at member
      by_cases that : place' = shelf
      · rw [that, Function.update_self] at member'
        exact absurd member' (only place other this member)
      · rw [Function.update_of_ne that] at member'
        exact shelved.apart place place' other member member'

theorem insertAfter (shelved : Shelved heap lists nodes) {front back : List α}
    (split : nodes shelf = front ++ back) (fresh : ∀ shelf, node ∉ nodes shelf) :
    Shelved ((lists shelf).insertAfter heap node front.getLast?).1
      (Function.update lists shelf ((lists shelf).insertAfter heap node front.getLast?).2)
      (Function.update nodes shelf (front ++ node :: back)) := by
  have holds := shelved.holds shelf
  have absent := fresh shelf
  rw [split] at holds absent
  refine shelved.change node (holds.insertAfter absent) ?_ ?_ ?_
  · intro other member
    rw [split]
    rcases List.mem_append.mp member with member | member
    · exact .inr (List.mem_append_left _ member)
    · rcases List.mem_cons.mp member with same | member
      · exact .inl same
      · exact .inr (List.mem_append_right _ member)
  · exact fun other member => absurd member (fresh other)
  · intro other different elsewhere
    rw [split] at elsewhere
    exact DList.insertAfter_heap holds different elsewhere

theorem remove (shelved : Shelved heap lists nodes) {front back : List α}
    (split : nodes shelf = front ++ node :: back) :
    Shelved ((lists shelf).remove heap node).1 (Function.update lists shelf ((lists shelf).remove heap node).2)
      (Function.update nodes shelf (front ++ back)) := by
  have holds := shelved.holds shelf
  have member : node ∈ nodes shelf := by
    rw [split]
    simp
  rw [split] at holds
  refine shelved.change node holds.remove ?_ ?_ ?_
  · intro other later
    rw [split]
    rcases List.mem_append.mp later with later | later
    · exact .inr (List.mem_append_left _ later)
    · exact .inr (List.mem_append_right _ (List.mem_cons_of_mem _ later))
  · exact fun other there => shelved.apart other shelf node there member
  · intro other _ elsewhere
    rw [split] at elsewhere
    exact DList.remove_heap holds elsewhere

end Shelved

end Apollo.Klib
