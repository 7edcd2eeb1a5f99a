import Apollo.Klib.DoublyLinkedList
import Apollo.Klib.List

/-!
# Lists are sequences

Every operation of `List.c` on a list that represents a sequence of nodes leaves a list
that represents the changed sequence, and it leaves alone the nodes of other lists.
`List_Split` is the exception: without a first node of the tail it empties both of its
lists, although its comment promises all nodes to the head.
-/

set_option autoImplicit false

namespace Apollo.Klib

variable {α ι : Type} [DecidableEq α] [DecidableEq ι]

namespace DList

/-- `List_RemoveFirst`.  It follows a null pointer when the first node of several has no successor. -/
def removeFirst (heap : Heap α) (list : DList α) : Option (Option α × Heap α × DList α) :=
  match list.first with
  | some first =>
    if list.last ≠ some first then
      match (heap first).next with
      | some newFirst =>
        some (some first, Function.update (heap.setPrev (some newFirst) none) first ListNode.init,
          ⟨some newFirst, list.last⟩)
      | none => none
    else some (some first, heap, ⟨none, none⟩)
  | none => some (none, heap, list)

/-- `List_Split`.  The three lists are given by their addresses, and two of them may be the same. -/
def split (heap : Heap α) (lists : ι → DList α) (pList : ι) (firstNodeOfTail : Option α) (pHeadList pTailList : ι) :
    Heap α × (ι → DList α) :=
  let origList := lists pList
  let lastNodeOfHead := firstNodeOfTail.bind fun node => (heap node).prev
  let head : DList α := if lastNodeOfHead.isSome then ⟨origList.first, lastNodeOfHead⟩ else init
  let heap := heap.setNext lastNodeOfHead none
  let lists := Function.update lists pHeadList head
  let tail : DList α := if firstNodeOfTail.isSome then ⟨firstNodeOfTail, origList.last⟩ else init
  let heap := heap.setPrev firstNodeOfTail none
  let lists := Function.update lists pTailList tail
  (heap, if pList ≠ pHeadList ∧ pList ≠ pTailList then Function.update lists pList init else lists)

end DList

/-! ## Sequences -/

def insertedAfter (node : α) : Option α → List α → List α
  | none, nodes => node :: nodes
  | some _, [] => []
  | some afterNode, first :: rest =>
    if first = afterNode then first :: node :: rest else first :: insertedAfter node (some afterNode) rest

def parted (nodes : List α) : Option α → List α × List α
  | none => (nodes, [])
  | some firstNodeOfTail => (nodes.takeWhile (· ≠ firstNodeOfTail), nodes.dropWhile (· ≠ firstNodeOfTail))

section Sequences
variable {node : α} {front back : List α}

theorem insertedAfter_none (inserted : α) (nodes : List α) : insertedAfter inserted none nodes = inserted :: nodes := by
  rw [insertedAfter]

theorem insertedAfter_append (absent : node ∉ front) (inserted : α) :
    insertedAfter inserted (some node) (front ++ node :: back) = front ++ node :: inserted :: back := by
  induction front with
  | nil => exact if_pos rfl
  | cons first rest ih =>
    obtain ⟨different, absent⟩ := List.ne_and_not_mem_of_not_mem_cons absent
    rw [List.cons_append, insertedAfter, if_neg different.symm, ih absent, List.cons_append]

theorem parted_append (absent : node ∉ front) : parted (front ++ node :: back) (some node) = (front, node :: back) := by
  induction front with
  | nil => simp [parted]
  | cons first rest ih =>
    obtain ⟨different, absent⟩ := List.ne_and_not_mem_of_not_mem_cons absent
    obtain ⟨front, tail⟩ := Prod.mk.inj (ih absent)
    rw [parted, List.cons_append, List.takeWhile_cons_of_pos (by simpa using different.symm),
      List.dropWhile_cons_of_pos (by simpa using different.symm), front, tail]

omit [DecidableEq α] in
theorem exists_between {nodes : List α} (nodup : nodes.Nodup) (member : node ∈ nodes) :
    ∃ front back, nodes = front ++ node :: back ∧ node ∉ front := by
  obtain ⟨front, back, rfl⟩ := List.append_of_mem member
  exact ⟨front, back, rfl, fun before => (List.nodup_append.mp nodup).2.2 node before node List.mem_cons_self rfl⟩

end Sequences

/-! ## Doubly linked lists -/

namespace DList

variable {heap : Heap α} {list : DList α} {lists : ι → DList α} {pList : ι} {nodes front back : List α} {node : α}

theorem Holds.removeFirst_eq (holds : list.Holds heap (node :: back)) :
    list.removeFirst heap = some (some node, list.remove heap node) := by
  have first : list.first = some node := holds.first
  have alone : list.Holds heap ([] ++ node :: back) := holds
  have pointers : heap node = ⟨back.head?, none⟩ := alone.pointers
  unfold DList.removeFirst DList.remove
  rw [first]
  dsimp only
  cases back with
  | nil =>
    have last : list.last = some node := holds.last
    rw [if_neg (not_not.mpr last), if_neg (fun other => other.elim (fun apart => apart rfl) fun apart => apart last)]
    have unlinked : heap node = ListNode.init := pointers
    rw [← unlinked, Function.update_eq_self]
  | cons second rest =>
    have other : list.last ≠ some node := fun same => absurd (alone.last_iff.mp same) (List.cons_ne_nil _ _)
    have different : second ≠ node := by
      rintro rfl
      exact (List.nodup_cons.mp holds.nodup).1 List.mem_cons_self
    have kept : heap.setPrev (some second) none node = heap node :=
      Heap.setPrev_of_ne fun same => different (Option.some.inj same)
    rw [if_pos other, if_pos (.inr other), pointers]
    simp only [List.head?_cons, Heap.setNext, kept, pointers, if_true, if_neg other]

theorem removeFirst_nil (holds : list.Holds heap []) : list.removeFirst heap = some (none, heap, list) := by
  have first : list.first = none := holds.first
  unfold DList.removeFirst
  rw [first]

/-- The nodes in front of the split lose their last link, and those behind it their first one. -/
theorem Holds.split_heap (holds : list.Holds heap (front ++ node :: back)) :
    let heap' := (heap.setNext front.getLast? none).setPrev (some node) none
    Linked heap' none front none ∧ Linked heap' none (node :: back) none ∧
      ∀ other ∉ front ++ node :: back, heap' other = heap other := by
  obtain ⟨nodup₁, nodup₂, apart⟩ := List.nodup_append.mp holds.nodup
  obtain ⟨linked₁, linked₂⟩ := Linked.append.mp holds.linked
  refine ⟨?_, ?_, ?_⟩
  · refine (linked₁.setNext nodup₁ none).congr fun other member => Heap.setPrev_of_ne ?_
    exact fun same => apart other member node List.mem_cons_self (Option.some.inj same).symm
  · refine Linked.setPrev (linked₂.congr fun other member => Heap.setNext_of_ne ?_) nodup₂ none
    exact fun same => apart other (List.mem_of_getLast? same) other member rfl
  · intro other outside
    rw [Heap.setPrev_of_ne, Heap.setNext_of_ne]
    · exact fun same => outside (List.mem_append_left _ (List.mem_of_getLast? same))
    · rintro ⟨⟩
      exact outside (List.mem_append_right _ List.mem_cons_self)

theorem Holds.split_lists (holds : (lists pList).Holds heap (front ++ node :: back)) (pHeadList pTailList : ι) :
    split heap lists pList (some node) pHeadList pTailList =
      ((heap.setNext front.getLast? none).setPrev (some node) none,
        let after := Function.update
          (Function.update lists pHeadList (if front = [] then init else ⟨(lists pList).first, front.getLast?⟩))
          pTailList ⟨some node, (lists pList).last⟩
        if pList ≠ pHeadList ∧ pList ≠ pTailList then Function.update after pList init else after) := by
  have pointers := holds.pointers
  unfold split
  dsimp only [Option.bind_some]
  rw [pointers]
  cases front with
  | nil => rfl
  | cons first rest =>
    have some : (first :: rest).getLast?.isSome = true := by simp
    rw [if_pos some, if_neg (List.cons_ne_nil _ _)]
    rfl

end DList

/-! ## The operations -/

inductive ListCall (α ι : Type)
  | insertBeforeFirst (node : α)
  | insertAfterLast (node : α)
  | insertAfter (node : α) (afterNode : Option α)
  | remove (node : α)
  | removeFirst
  | split (firstNodeOfTail : Option α) (pHeadList pTailList : ι)

def ListCall.Allowed (nodes : List α) : ListCall α ι → Prop
  | insertBeforeFirst node => node ∉ nodes
  | insertAfterLast node => node ∉ nodes
  | insertAfter node afterNode => node ∉ nodes ∧ ∀ previous ∈ afterNode, previous ∈ nodes
  | remove node => node ∈ nodes
  | removeFirst => True
  | split firstNodeOfTail pHeadList pTailList => (∀ node ∈ firstNodeOfTail, node ∈ nodes) ∧ pHeadList ≠ pTailList

/-- The result has these nodes, and no node but the given ones was written. -/
def Leaves (heap : Heap α) (touched : List α) (result : Heap α × DList α) (nodes : List α) : Prop :=
  result.2.Holds result.1 nodes ∧ ∀ other ∉ touched, result.1 other = heap other

def ListCall.Refines (heap : Heap α) (lists : ι → DList α) (pList : ι) (nodes : List α) : ListCall α ι → Prop
  | insertBeforeFirst node => Leaves heap (node :: nodes) ((lists pList).insertBeforeFirst heap node) (node :: nodes)
  | insertAfterLast node => Leaves heap (node :: nodes) ((lists pList).insertAfterLast heap node) (nodes ++ [node])
  | insertAfter node afterNode =>
    Leaves heap (node :: nodes) ((lists pList).insertAfter heap node afterNode) (insertedAfter node afterNode nodes)
  | remove node =>
    Leaves heap nodes ((lists pList).remove heap node) (nodes.erase node) ∧
      ((lists pList).remove heap node).1 node = ListNode.init
  | removeFirst =>
    ∃ result, (lists pList).removeFirst heap = some (nodes.head?, result) ∧ Leaves heap nodes result nodes.tail
  | split firstNodeOfTail pHeadList pTailList =>
    let result := DList.split heap lists pList firstNodeOfTail pHeadList pTailList
    Leaves heap nodes (result.1, result.2 pHeadList) (parted nodes firstNodeOfTail).1 ∧
      Leaves heap nodes (result.1, result.2 pTailList) (parted nodes firstNodeOfTail).2 ∧
      (pList ≠ pHeadList → pList ≠ pTailList → result.2 pList = DList.init) ∧
      ∀ other, other ≠ pList → other ≠ pHeadList → other ≠ pTailList → result.2 other = lists other

section Calls
variable {heap : Heap α} {lists : ι → DList α} {pList : ι} {list : DList α} {nodes : List α} {node : α}

theorem leaves_insertAfter {front back : List α} (holds : list.Holds heap (front ++ back)) (fresh : node ∉ front ++ back) :
    Leaves heap (node :: (front ++ back)) (list.insertAfter heap node front.getLast?) (front ++ node :: back) := by
  refine ⟨holds.insertAfter fresh, fun other outside => ?_⟩
  obtain ⟨different, elsewhere⟩ := List.ne_and_not_mem_of_not_mem_cons outside
  exact DList.insertAfter_heap holds different elsewhere

theorem leaves_insertBeforeFirst (holds : list.Holds heap nodes) (fresh : node ∉ nodes) :
    Leaves heap (node :: nodes) (list.insertBeforeFirst heap node) (node :: nodes) :=
  @leaves_insertAfter _ _ _ _ _ [] nodes holds fresh

theorem leaves_remove (holds : list.Holds heap nodes) (member : node ∈ nodes) :
    Leaves heap nodes (list.remove heap node) (nodes.erase node) := by
  obtain ⟨front, back, rfl, absent⟩ := exists_between holds.nodup member
  rw [List.erase_append_right _ absent, List.erase_cons_head]
  exact ⟨holds.remove, fun other outside => DList.remove_heap holds outside⟩

theorem refines_insertAfter (holds : (lists pList).Holds heap nodes) (afterNode : Option α)
    (allowed : (ListCall.insertAfter node afterNode : ListCall α ι).Allowed nodes) :
    (ListCall.insertAfter node afterNode).Refines heap lists pList nodes := by
  obtain ⟨fresh, there⟩ := allowed
  cases afterNode with
  | none =>
    change Leaves _ _ _ (insertedAfter node none nodes)
    rw [insertedAfter_none]
    exact leaves_insertBeforeFirst holds fresh
  | some previous =>
    obtain ⟨front, back, rfl, absent⟩ := exists_between holds.nodup (there previous rfl)
    change Leaves _ _ _ (insertedAfter node (some previous) (front ++ previous :: back))
    rw [insertedAfter_append absent]
    rw [List.append_cons] at holds fresh
    have behind := leaves_insertAfter holds fresh
    rw [List.getLast?_concat, ← List.append_cons, ← List.append_cons] at behind
    exact behind

theorem refines_removeFirst (holds : (lists pList).Holds heap nodes) :
    (ListCall.removeFirst : ListCall α ι).Refines heap lists pList nodes := by
  cases nodes with
  | nil => exact ⟨_, DList.removeFirst_nil holds, holds, fun _ _ => rfl⟩
  | cons first rest =>
    have removed := leaves_remove holds (List.mem_cons_self : first ∈ first :: rest)
    rw [List.erase_cons_head] at removed
    exact ⟨_, holds.removeFirst_eq, removed⟩

theorem refines_split (holds : (lists pList).Holds heap nodes) (member : node ∈ nodes) {pHeadList pTailList : ι}
    (apart : pHeadList ≠ pTailList) : (ListCall.split (some node) pHeadList pTailList).Refines heap lists pList nodes := by
  obtain ⟨front, back, rfl, absent⟩ := exists_between holds.nodup member
  obtain ⟨nodup₁, nodup₂, -⟩ := List.nodup_append.mp holds.nodup
  obtain ⟨linked₁, linked₂, kept⟩ := holds.split_heap
  have tail : (⟨some node, (lists pList).last⟩ : DList α).Holds ((heap.setNext front.getLast? none).setPrev (some node) none)
      (node :: back) := by
    refine ⟨rfl, ?_, linked₂, nodup₂⟩
    exact holds.last.trans (List.getLast?_append_of_ne_nil _ (List.cons_ne_nil _ _))
  have head : (if front = [] then DList.init else ⟨(lists pList).first, front.getLast?⟩ : DList α).Holds
      ((heap.setNext front.getLast? none).setPrev (some node) none) front := by
    by_cases empty : front = []
    · rw [if_pos empty, empty]
      exact DList.holds_empty _
    · rw [if_neg empty]
      refine ⟨?_, rfl, linked₁, nodup₁⟩
      rw [holds.first, List.head?_append_of_ne_nil _ empty]
  unfold ListCall.Refines
  dsimp only
  rw [parted_append absent, holds.split_lists]
  dsimp only
  refine ⟨⟨?_, kept⟩, ⟨?_, kept⟩, ?_, ?_⟩
  · dsimp only
    split
    case isTrue both => rwa [Function.update_of_ne both.1.symm, Function.update_of_ne apart, Function.update_self]
    case isFalse => rwa [Function.update_of_ne apart, Function.update_self]
  · dsimp only
    split
    case isTrue both => rwa [Function.update_of_ne both.2.symm, Function.update_self]
    case isFalse => rwa [Function.update_self]
  · intro notHead notTail
    rw [if_pos ⟨notHead, notTail⟩, Function.update_self]
  · intro other notList notHead notTail
    split
    · rw [Function.update_of_ne notList, Function.update_of_ne notTail, Function.update_of_ne notHead]
    · rw [Function.update_of_ne notTail, Function.update_of_ne notHead]

/-- Without a first node of the tail both lists are empty. -/
theorem refines_split_none (holds : (lists pList).Holds heap nodes) {pHeadList pTailList : ι} (apart : pHeadList ≠ pTailList) :
    (ListCall.split none pHeadList pTailList).Refines heap lists pList nodes ↔ nodes = [] := by
  have head : (DList.split heap lists pList none pHeadList pTailList).2 pHeadList = DList.init := by
    unfold DList.split
    dsimp only
    split
    case isTrue both => rw [Function.update_of_ne both.1.symm, Function.update_of_ne apart, Function.update_self]; rfl
    case isFalse => rw [Function.update_of_ne apart, Function.update_self]; rfl
  have tail : (DList.split heap lists pList none pHeadList pTailList).2 pTailList = DList.init := by
    unfold DList.split
    dsimp only
    split
    case isTrue both => rw [Function.update_of_ne both.2.symm, Function.update_self]; rfl
    case isFalse => rw [Function.update_self]; rfl
  constructor
  · intro refines
    have first : (DList.split heap lists pList none pHeadList pTailList).2 pHeadList |>.Holds _ nodes := refines.1.1
    rw [head] at first
    exact List.head?_eq_none_iff.mp first.first.symm
  · rintro rfl
    refine ⟨⟨?_, fun _ _ => rfl⟩, ⟨?_, fun _ _ => rfl⟩, ?_, ?_⟩
    · dsimp only
      rw [head]
      exact DList.holds_empty _
    · dsimp only
      rw [tail]
      exact DList.holds_empty _
    · intro notHead notTail
      unfold DList.split
      dsimp only
      rw [if_pos ⟨notHead, notTail⟩, Function.update_self]
    · intro other notList notHead notTail
      unfold DList.split
      dsimp only
      split
      · rw [Function.update_of_ne notList, Function.update_of_ne notTail, Function.update_of_ne notHead]
      · rw [Function.update_of_ne notTail, Function.update_of_ne notHead]

theorem ListCall.refines_iff (holds : (lists pList).Holds heap nodes) (call : ListCall α ι) (allowed : call.Allowed nodes) :
    call.Refines heap lists pList nodes ↔ ∀ pHeadList pTailList, call = .split none pHeadList pTailList → nodes = [] := by
  cases call with
  | insertBeforeFirst node => exact iff_of_true (leaves_insertBeforeFirst holds allowed) nofun
  | insertAfterLast node =>
    refine iff_of_true ?_ nofun
    have fresh : node ∉ nodes ++ [] := by rwa [List.append_nil]
    have behind := leaves_insertAfter (by rwa [List.append_nil]) fresh
    rw [List.append_nil, ← DList.Holds.insertAfterLast_eq holds allowed] at behind
    exact behind
  | insertAfter node afterNode => exact iff_of_true (refines_insertAfter holds afterNode allowed) nofun
  | remove node => exact iff_of_true ⟨leaves_remove holds allowed, DList.remove_node _ _ _⟩ nofun
  | removeFirst => exact iff_of_true (refines_removeFirst holds) nofun
  | split firstNodeOfTail pHeadList pTailList =>
    cases firstNodeOfTail with
    | none =>
      rw [refines_split_none holds allowed.2]
      exact ⟨fun empty _ _ _ => empty, fun only => only _ _ rfl⟩
    | some node => exact iff_of_true (refines_split holds (allowed.1 node rfl) allowed.2) nofun

end Calls

/-! ## Singly linked lists -/

inductive SListCall (α : Type)
  | insertBeforeFirst (node : α)
  | insertAfterLast (node : α)
  | insertAfter (node : α) (afterNode : Option α)
  | remove (prevNode : Option α) (node : α)
  | removeFirst

/-- The predecessor of a node that is removed is given, and it is `NULL` for the first one. -/
def SListCall.Allowed (nodes : List α) : SListCall α → Prop
  | insertBeforeFirst node => node ∉ nodes
  | insertAfterLast node => node ∉ nodes
  | insertAfter node afterNode => node ∉ nodes ∧ ∀ previous ∈ afterNode, previous ∈ nodes
  | remove prevNode node => ∃ front back, nodes = front ++ node :: back ∧ prevNode = front.getLast?
  | removeFirst => True

def SLeaves (links : Links α) (touched : List α) (result : Links α × SList α) (nodes : List α) : Prop :=
  result.2.Holds result.1 nodes ∧ ∀ other ∉ touched, result.1 other = links other

def SListCall.Refines (links : Links α) (list : SList α) (nodes : List α) : SListCall α → Prop
  | insertBeforeFirst node => SLeaves links (node :: nodes) (list.insertBeforeFirst links node) (node :: nodes)
  | insertAfterLast node => SLeaves links (node :: nodes) (list.insertAfterLast links node) (nodes ++ [node])
  | insertAfter node afterNode =>
    SLeaves links (node :: nodes) (list.insertAfter links node afterNode) (insertedAfter node afterNode nodes)
  | remove prevNode node =>
    ∃ result, list.remove links prevNode node = some result ∧ SLeaves links nodes result (nodes.erase node)
  | removeFirst => ∃ result, list.removeFirst links = (nodes.head?, result) ∧ SLeaves links nodes result nodes.tail

section SCalls
variable {links : Links α} {list : SList α} {nodes : List α} {node : α}

theorem sleaves_insertAfter {front back : List α} (holds : list.Holds links (front ++ back)) (fresh : node ∉ front ++ back) :
    SLeaves links (node :: (front ++ back)) (list.insertAfter links node front.getLast?) (front ++ node :: back) := by
  refine ⟨holds.insertAfter fresh, fun other outside => ?_⟩
  obtain ⟨different, elsewhere⟩ := List.ne_and_not_mem_of_not_mem_cons outside
  refine SList.insertAfter_links different fun same => elsewhere ?_
  exact List.mem_append_left _ (List.mem_of_getLast? same)

theorem sleaves_insertBeforeFirst (holds : list.Holds links nodes) (fresh : node ∉ nodes) :
    SLeaves links (node :: nodes) (list.insertBeforeFirst links node) (node :: nodes) :=
  @sleaves_insertAfter _ _ _ _ _ [] nodes holds fresh

theorem SListCall.refines (holds : list.Holds links nodes) (call : SListCall α) (allowed : call.Allowed nodes) :
    call.Refines links list nodes := by
  cases call with
  | insertBeforeFirst node => exact sleaves_insertBeforeFirst holds allowed
  | insertAfterLast node =>
    have fresh : node ∉ nodes ++ [] := by rwa [List.append_nil]
    have behind := sleaves_insertAfter (by rwa [List.append_nil]) fresh
    rw [List.append_nil, ← SList.Holds.insertAfterLast_eq holds node] at behind
    exact behind
  | insertAfter node afterNode =>
    obtain ⟨fresh, there⟩ := allowed
    cases afterNode with
    | none =>
      change SLeaves _ _ _ (insertedAfter node none nodes)
      rw [insertedAfter_none]
      exact sleaves_insertBeforeFirst holds fresh
    | some previous =>
      obtain ⟨front, back, rfl, absent⟩ := exists_between holds.nodup (there previous rfl)
      change SLeaves _ _ _ (insertedAfter node (some previous) (front ++ previous :: back))
      rw [insertedAfter_append absent]
      rw [List.append_cons] at holds fresh
      have behind := sleaves_insertAfter holds fresh
      rw [List.getLast?_concat, ← List.append_cons, ← List.append_cons] at behind
      exact behind
  | remove prevNode node =>
    obtain ⟨front, back, rfl, rfl⟩ := allowed
    have absent : node ∉ front := fun before =>
      (List.nodup_append.mp holds.nodup).2.2 node before node List.mem_cons_self rfl
    obtain ⟨links', list', does, holds', kept⟩ := holds.remove
    refine ⟨_, does, ?_, fun other outside => kept other fun same => outside ?_⟩
    · rwa [List.erase_append_right _ absent, List.erase_cons_head]
    · exact List.mem_append_left _ (List.mem_of_getLast? same)
  | removeFirst =>
    cases nodes with
    | nil => exact ⟨_, SList.Holds.removeFirst_nil holds, holds, fun _ _ => rfl⟩
    | cons first rest =>
      obtain ⟨links', list', does, holds', kept⟩ := holds.removeFirst
      exact ⟨_, does, holds', fun other outside => kept other (List.ne_of_not_mem_cons outside)⟩

end SCalls

/-! ## Lists of both kinds -/

/-- The operations do to the sequences what they are for, unless a list with nodes is split at `NULL`. -/
theorem lists_refine_sequences {heap : Heap α} {lists : ι → DList α} {pList : ι} {nodes snodes : List α} {links : Links α}
    {slist : SList α} (holds : (lists pList).Holds heap nodes) (call : ListCall α ι) (allowed : call.Allowed nodes)
    (sholds : slist.Holds links snodes) (scall : SListCall α) (sallowed : scall.Allowed snodes) :
    call.Refines heap lists pList nodes ∧ scall.Refines links slist snodes ↔
      ∀ pHeadList pTailList, call = .split none pHeadList pTailList → nodes = [] := by
  rw [call.refines_iff holds allowed]
  exact and_iff_left (scall.refines sholds sallowed)

/-- The nodes from 7 to 10, one behind the other. -/
def fourNodes : Heap Nat := fun node =>
  if 7 ≤ node ∧ node ≤ 10 then ⟨if node < 10 then some (node + 1) else none, if 7 < node then some (node - 1) else none⟩
  else ListNode.init

def fourLists : Nat → DList Nat := Function.update (fun _ => DList.init) 0 ⟨some 7, some 10⟩

theorem fourLists_hold : (fourLists 0).Holds fourNodes [7, 8, 9, 10] :=
  ⟨rfl, rfl, by simp only [Linked]; decide, by decide⟩

/-- A list of the first three of them. -/
def threeLinks : Links Nat := fun node => if node = 7 ∨ node = 8 then some (node + 1) else none

theorem threeLinks_hold : (⟨some 7, some 9⟩ : SList Nat).Holds threeLinks [7, 8, 9] :=
  ⟨rfl, rfl, by simp only [Segment]; decide, by decide⟩

/-- The list of four is split in its middle, and the list of three loses its first node. -/
theorem fourNodes_parted :
    (ListCall.split (some 9) 1 2).Refines fourNodes fourLists 0 [7, 8, 9, 10] ∧
      (SListCall.removeFirst : SListCall Nat).Refines threeLinks ⟨some 7, some 9⟩ [7, 8, 9] :=
  (lists_refine_sequences fourLists_hold (.split (some 9) 1 2) ⟨by decide, by decide⟩ threeLinks_hold .removeFirst trivial).mpr
    nofun

def oneNode : Nat → DList Nat := Function.update (fun _ => DList.init) 0 ⟨some 7, some 7⟩

theorem oneNode_holds : (oneNode 0).Holds (fun _ => ListNode.init) [7] := ⟨rfl, rfl, ⟨rfl, trivial⟩, by decide⟩

/-- The node is in neither list behind a split at `NULL`. -/
theorem oneNode_lost : (oneNode 0).Holds (fun _ => ListNode.init) [7] ∧
    (DList.split (fun _ => ListNode.init) oneNode 0 none 1 2).2 1 = DList.init ∧
    (DList.split (fun _ => ListNode.init) oneNode 0 none 1 2).2 2 = DList.init ∧
    ¬(ListCall.split none 1 2).Refines (fun _ => ListNode.init) oneNode 0 [7] := by
  refine ⟨oneNode_holds, by decide, by decide, fun refines => ?_⟩
  exact List.cons_ne_nil _ _ ((refines_split_none oneNode_holds (by decide)).mp refines)

end Apollo.Klib
