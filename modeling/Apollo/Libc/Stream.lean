import Apollo.Filesystem.Inode
import Apollo.Klib.DoublyLinkedList

/-!
# Streams

The list of open streams of `Stream.c`.  A stream is known by the address of
its `FILE` record, which may be on the heap or, for the `printf` family, on the
stack of the caller.
-/

set_option autoImplicit false

namespace Apollo.Libc

open Klib
open Lib

def kStreamModeRead : Nat := 0x01
def kStreamModeWrite : Nat := 0x02
def kStreamModeAppend : Nat := 0x04
def kStreamModeExclusive : Nat := 0x08

/-- `__fopen_parse_mode`; the string comes without its terminating zero. -/
def fopenParseMode : List Char → Nat
  | 'r' :: '+' :: mode => kStreamModeRead ||| kStreamModeWrite ||| fopenParseMode mode
  | 'r' :: mode => kStreamModeRead ||| fopenParseMode mode
  | 'w' :: '+' :: 'x' :: mode => kStreamModeWrite ||| kStreamModeRead ||| kStreamModeExclusive ||| fopenParseMode mode
  | 'w' :: '+' :: mode => kStreamModeWrite ||| kStreamModeRead ||| fopenParseMode mode
  | 'w' :: 'x' :: mode => kStreamModeWrite ||| kStreamModeExclusive ||| fopenParseMode mode
  | 'w' :: mode => kStreamModeWrite ||| fopenParseMode mode
  | 'a' :: '+' :: mode => kStreamModeAppend ||| kStreamModeWrite ||| kStreamModeRead ||| fopenParseMode mode
  | 'a' :: mode => kStreamModeAppend ||| kStreamModeWrite ||| fopenParseMode mode
  | _ :: mode => fopenParseMode mode
  | [] => 0

structure FileCallbacks where
  read : Bool
  write : Bool
  seek : Bool
  close : Bool
  deriving DecidableEq

inductive StreamDirection
  | none
  | read
  | write
  deriving DecidableEq

structure FileFlags where
  mode : Nat
  mostRecentDirection : StreamDirection
  hasError : Bool
  hasEof : Bool
  shouldFreeOnClose : Bool
  deriving DecidableEq

/-- The error that `__fopen_init` finds in its arguments.  C reads the second test as
`sm & ((__kStreamMode_Read|__kStreamMode_Write) == 0)`. -/
def fopenCheck (callbacks : Option FileCallbacks) (mode : Option (List Char)) : Option Errno :=
  match callbacks, mode with
  | some callbacks, some mode =>
    let sm := fopenParseMode mode
    if sm &&& (if kStreamModeRead ||| kStreamModeWrite = 0 then 1 else 0) ≠ 0 then some .EINVAL
    else if sm &&& kStreamModeRead ≠ 0 ∧ callbacks.read = false then some .EINVAL
    else if sm &&& kStreamModeWrite ≠ 0 ∧ callbacks.write = false then some .EINVAL
    else none
  | _, _ => some .EINVAL

def FileFlags.opened (bFreeOnClose : Bool) (mode : Option (List Char)) : FileFlags where
  mode := fopenParseMode (mode.getD []) % 8
  mostRecentDirection := .none
  hasError := false
  hasEof := false
  shouldFreeOnClose := bFreeOnClose

structure Streams (α : Type) where
  gOpenFiles : Option α
  links : Heap α
  flags : α → FileFlags

namespace Streams

variable {α : Type} [DecidableEq α]

def fopenInit (self : α) (bFreeOnClose : Bool) (callbacks : Option FileCallbacks) (mode : Option (List Char)) :
    Code (Streams α) Errno Unit := fun streams =>
  match fopenCheck callbacks mode with
  | some error => .err error streams
  | none =>
    let flags := Function.update streams.flags self (.opened bFreeOnClose mode)
    let links := Function.update streams.links self ListNode.init
    match streams.gOpenFiles with
    | some first =>
      let links := Function.update links self { links self with next := some first }
      let links := Heap.setPrev links (some first) (some self)
      .ok () ⟨some self, links, flags⟩
    | none => .ok () ⟨some self, links, flags⟩

/-- The end of `__fclose`, which takes the stream out of the list.  It follows `s->next` and
`s->prev` and faults where they are null. -/
def unlink (streams : Streams α) (s : α) : Option (Streams α) :=
  if streams.gOpenFiles = some s then do
    let next ← (streams.links s).next
    let links := streams.links.setPrev (some next) none
    some ⟨(links s).next, Function.update links s ListNode.init, streams.flags⟩
  else do
    let next ← (streams.links s).next
    let links := streams.links.setPrev (some next) (streams.links s).prev
    let prev ← (links s).prev
    let links := links.setNext (some prev) (links s).next
    some ⟨streams.gOpenFiles, Function.update links s ListNode.init, streams.flags⟩

/-- `__fclose`; `closeError` is what the close callback returns. -/
def fclose (s : α) (closeError : Option Errno) : Code (Streams α) Errno Unit := fun streams =>
  match streams.unlink s with
  | none => .fault
  | some streams =>
    match closeError with
    | none => .ok () streams
    | some error => .err error streams

end Streams

/-! ## Sequences of opens and closes -/

inductive StreamCall (α : Type)
  | fopenInit (self : α) (bFreeOnClose : Bool) (callbacks : Option FileCallbacks) (mode : Option (List Char))
  | fclose (s : α) (closeError : Option Errno)

namespace StreamCall

variable {α : Type} [DecidableEq α]

def code : StreamCall α → Code (Streams α) Errno Unit
  | fopenInit self bFreeOnClose callbacks mode => Streams.fopenInit self bFreeOnClose callbacks mode
  | fclose s closeError => Streams.fclose s closeError

def openStreams (streams : List α) : StreamCall α → List α
  | fopenInit self _ callbacks mode => if fopenCheck callbacks mode = none then self :: streams else streams
  | fclose s _ => streams.erase s

/-- A `FILE` record is not opened twice, and only open streams are closed. -/
def Proper (streams : List α) : StreamCall α → Prop
  | fopenInit self _ _ _ => self ∉ streams
  | fclose s _ => s ∈ streams

/-- A stream that is closed is not the one that has been open for the longest time. -/
def KeepsOldest (streams : List α) : StreamCall α → Prop
  | fopenInit _ _ _ _ => True
  | fclose s _ => streams.getLast? ≠ some s

instance (streams : List α) : (call : StreamCall α) → Decidable (call.Proper streams)
  | fopenInit self _ _ _ => inferInstanceAs (Decidable (self ∉ streams))
  | fclose s _ => inferInstanceAs (Decidable (s ∈ streams))

instance (streams : List α) : (call : StreamCall α) → Decidable (call.KeepsOldest streams)
  | fopenInit _ _ _ _ => .isTrue trivial
  | fclose s _ => inferInstanceAs (Decidable (streams.getLast? ≠ some s))

end StreamCall

namespace StreamCalls

variable {α : Type} [DecidableEq α]

/-- The calls one after the other; `none` when one of them follows a null pointer. -/
def execute : List (StreamCall α) → Streams α → Option (Streams α)
  | [], streams => some streams
  | call :: rest, streams => (call.code streams).state?.bind (execute rest)

def openStreams : List (StreamCall α) → List α → List α
  | [], streams => streams
  | call :: rest, streams => openStreams rest (call.openStreams streams)

def Proper : List (StreamCall α) → List α → Prop
  | [], _ => True
  | call :: rest, streams => call.Proper streams ∧ Proper rest (call.openStreams streams)

def KeepOldest : List (StreamCall α) → List α → Prop
  | [], _ => True
  | call :: rest, streams => call.KeepsOldest streams ∧ KeepOldest rest (call.openStreams streams)

instance decidableProper : (calls : List (StreamCall α)) → (streams : List α) → Decidable (Proper calls streams)
  | [], _ => .isTrue trivial
  | call :: rest, streams =>
    have := decidableProper rest (call.openStreams streams)
    inferInstanceAs (Decidable (_ ∧ _))

instance decidableKeepOldest : (calls : List (StreamCall α)) → (streams : List α) →
    Decidable (KeepOldest calls streams)
  | [], _ => .isTrue trivial
  | call :: rest, streams =>
    have := decidableKeepOldest rest (call.openStreams streams)
    inferInstanceAs (Decidable (_ ∧ _))

end StreamCalls

/-! ## The list -/

namespace Streams

variable {α : Type} {streams : Streams α} {nodes front back : List α} {self s : α}

/-- A list that is linked in both directions and ends in null, with these streams, each once. -/
structure Holds (streams : Streams α) (nodes : List α) : Prop where
  first : streams.gOpenFiles = nodes.head?
  linked : Linked streams.links none nodes none
  nodup : nodes.Nodup

/-- The list has a pointer to its first node only; this is the list with both pointers. -/
def Holds.ends (nodes : List α) : DList α := ⟨nodes.head?, nodes.getLast?⟩

theorem Holds.list (holds : streams.Holds nodes) : (Holds.ends nodes).Holds streams.links nodes :=
  ⟨rfl, rfl, holds.linked, holds.nodup⟩

theorem Holds.of_list {list : DList α} (holds : list.Holds streams.links nodes)
    (first : streams.gOpenFiles = list.first) : streams.Holds nodes :=
  ⟨first.trans holds.first, holds.linked, holds.nodup⟩

variable [DecidableEq α]

theorem Holds.fopenInit (holds : streams.Holds nodes) (fresh : self ∉ nodes) (bFreeOnClose : Bool)
    {callbacks : Option FileCallbacks} {mode : Option (List Char)} (accepted : fopenCheck callbacks mode = none) :
    ∃ after, Streams.fopenInit self bFreeOnClose callbacks mode streams = .ok () after ∧
      after.Holds (self :: nodes) := by
  have inserted := holds.list.insertBeforeFirst fresh
  simp only [DList.insertBeforeFirst, Holds.ends, ← holds.first] at inserted
  unfold Streams.fopenInit
  rw [accepted]
  cases first : streams.gOpenFiles with
  | none =>
    rw [first] at inserted
    exact ⟨_, rfl, Holds.of_list inserted rfl⟩
  | some head =>
    rw [first] at inserted
    simp only [Function.update_self, Function.update_idem]
    exact ⟨_, rfl, Holds.of_list inserted rfl⟩

/-- A stream that is not the last one of the list is taken out of it. -/
theorem Holds.unlink (holds : streams.Holds (front ++ s :: back)) (inner : back ≠ []) :
    ∃ after, streams.unlink s = some after ∧ after.Holds (front ++ back) := by
  have pointers := holds.list.pointers
  have removed := holds.list.remove
  have not_last : (Holds.ends (front ++ s :: back)).last ≠ some s :=
    fun same => inner (holds.list.last_iff.mp same)
  have absent := (List.nodup_cons.mp (List.perm_middle.nodup_iff.mp holds.nodup)).1
  have head_ne : back.head? ≠ some s := fun same => absent (List.mem_append_right _ (List.mem_of_head? same))
  obtain ⟨next, rest, rfl⟩ := List.exists_cons_of_ne_nil inner
  rw [List.head?_cons] at head_ne pointers
  rw [DList.remove, if_pos (.inr not_last)] at removed
  simp only [pointers, Heap.setPrev_of_ne head_ne] at removed
  unfold Streams.unlink
  by_cases first : streams.gOpenFiles = some s
  · have none_before : front = [] := holds.list.first_iff.mp (holds.first.symm.trans first)
    subst none_before
    rw [if_pos first]
    simp only [pointers, Option.bind_eq_bind, Option.bind_some, Heap.setPrev_of_ne head_ne]
    refine ⟨_, rfl, Holds.of_list removed ?_⟩
    rw [if_pos (holds.list.first_iff.mpr rfl)]
    simp [Heap.setNext, Heap.setPrev_of_ne head_ne, pointers]
  · have some_before : front ≠ [] := fun empty => first (holds.first.trans (holds.list.first_iff.mpr empty))
    have first' : (Holds.ends (front ++ s :: next :: rest)).first ≠ some s :=
      fun same => some_before (holds.list.first_iff.mp same)
    obtain ⟨prev, there⟩ := Option.ne_none_iff_exists'.mp (mt List.getLast?_eq_none_iff.mp some_before)
    rw [there] at removed pointers
    rw [if_neg first]
    simp only [pointers, Option.bind_eq_bind, Option.bind_some, Heap.setPrev_of_ne head_ne]
    refine ⟨_, rfl, Holds.of_list removed ?_⟩
    rw [if_neg first']
    exact holds.first

/-- Taking out the last stream follows its null pointer. -/
theorem Holds.unlink_last (holds : streams.Holds (front ++ [s])) : streams.unlink s = none := by
  have pointers := holds.list.pointers
  unfold Streams.unlink
  split <;> simp [pointers]

end Streams

/-! ## What a sequence of calls does -/

section Calls
variable {α : Type} [DecidableEq α] {streams : Streams α} {nodes : List α}

theorem StreamCall.runs (holds : streams.Holds nodes) (call : StreamCall α) (proper : call.Proper nodes)
    (keeps : call.KeepsOldest nodes) :
    ∃ after, (call.code streams).state? = some after ∧ after.Holds (call.openStreams nodes) := by
  cases call with
  | fopenInit self bFreeOnClose callbacks mode =>
    simp only [code, openStreams]
    cases check : fopenCheck callbacks mode with
    | some error =>
      refine ⟨streams, ?_, by rwa [if_neg (by simp)]⟩
      rw [Streams.fopenInit, check]
      rfl
    | none =>
      obtain ⟨after, runs, holds⟩ := holds.fopenInit proper bFreeOnClose check
      refine ⟨after, ?_, by rwa [if_pos rfl]⟩
      rw [runs]
      rfl
  | fclose s closeError =>
    obtain ⟨front, back, -, split, erased⟩ := List.exists_erase_eq proper
    subst split
    have inner : back ≠ [] := fun empty => keeps (holds.list.last_iff.mpr empty)
    obtain ⟨after, unlinked, kept⟩ := holds.unlink inner
    refine ⟨after, ?_, by rwa [openStreams, erased]⟩
    rw [code, Streams.fclose, unlinked]
    cases closeError <;> rfl

theorem StreamCall.faults (holds : streams.Holds nodes) (call : StreamCall α)
    (closes : ¬ call.KeepsOldest nodes) : (call.code streams).state? = none := by
  cases call with
  | fopenInit self bFreeOnClose callbacks mode => exact absurd trivial closes
  | fclose s closeError =>
    obtain ⟨front, rfl⟩ := List.getLast?_eq_some_iff.mp (not_not.mp closes)
    rw [code, Streams.fclose, holds.unlink_last]
    rfl

theorem StreamCalls.runs_iff (holds : streams.Holds nodes) (calls : List (StreamCall α)) (proper : Proper calls nodes) :
    (∃ after, execute calls streams = some after ∧ after.Holds (openStreams calls nodes)) ↔ KeepOldest calls nodes := by
  induction calls generalizing streams nodes with
  | nil => exact iff_of_true ⟨streams, rfl, holds⟩ trivial
  | cons call rest ih =>
    by_cases keeps : call.KeepsOldest nodes
    · obtain ⟨middle, runs, kept⟩ := call.runs holds proper.1 keeps
      rw [execute, runs, KeepOldest, and_iff_right keeps]
      exact ih kept proper.2
    · refine iff_of_false ?_ fun keep => keeps keep.1
      rintro ⟨after, executes, -⟩
      rw [execute, call.faults holds keeps] at executes
      exact absurd executes (by simp)

theorem StreamCalls.KeepOldest.of_append {calls later : List (StreamCall α)} (keep : KeepOldest (calls ++ later) nodes) :
    KeepOldest calls nodes := by
  induction calls generalizing nodes with
  | nil => trivial
  | cons call rest ih => exact ⟨keep.1, ih keep.2⟩

theorem StreamCalls.Proper.of_append {calls later : List (StreamCall α)} (proper : Proper (calls ++ later) nodes) :
    Proper calls nodes := by
  induction calls generalizing nodes with
  | nil => trivial
  | cons call rest ih => exact ⟨proper.1, ih proper.2⟩

end Calls

/-- No stream is open.  The records hold whatever is in their memory. -/
def Streams.empty {α : Type} (links : Heap α) (flags : α → FileFlags) : Streams α := ⟨none, links, flags⟩

/-- Behind every call the list holds the open streams, and no call follows a null pointer, exactly
when the stream that is closed is never the one that has been open for the longest time. -/
theorem openFiles_sound_iff {α : Type} [DecidableEq α] (links : Heap α) (flags : α → FileFlags)
    (calls : List (StreamCall α)) (proper : StreamCalls.Proper calls []) :
    (∀ past, past <+: calls → ∃ streams, StreamCalls.execute past (Streams.empty links flags) = some streams ∧
        streams.Holds (StreamCalls.openStreams past [])) ↔
      StreamCalls.KeepOldest calls [] := by
  have holds : (Streams.empty links flags).Holds [] := ⟨rfl, trivial, List.nodup_nil⟩
  constructor
  · intro sound
    exact (StreamCalls.runs_iff holds calls proper).mp (sound calls List.prefix_rfl)
  · rintro keep past ⟨later, rfl⟩
    exact (StreamCalls.runs_iff holds past proper.of_append).mpr keep.of_append

def Streams.cleared : Streams Nat := Streams.empty (fun _ => ListNode.init) fun _ => ⟨0, .none, false, false, false⟩

def closingCalls : List (StreamCall Nat) :=
  [.fopenInit 1 false (some ⟨true, true, true, true⟩) (some ['r']),
    .fopenInit 2 true (some ⟨true, true, true, true⟩) (some ['r', '+']),
    .fopenInit 3 true (some ⟨true, true, false, false⟩) (some ['w']), .fclose 2 none, .fclose 3 (some .EIOError)]

theorem closingCalls_sound : StreamCalls.Proper closingCalls [] ∧
    ∃ streams, StreamCalls.execute closingCalls Streams.cleared = some streams ∧ streams.Holds [1] := by
  have proper : StreamCalls.Proper closingCalls [] := by decide
  exact ⟨proper, (openFiles_sound_iff _ _ closingCalls proper).mpr (by decide) closingCalls List.prefix_rfl⟩

def lonelyCalls : List (StreamCall Nat) :=
  [.fopenInit 1 true (some ⟨true, true, true, true⟩) (some ['r']), .fclose 1 none]

/-- Its `next` pointer is null. -/
theorem lonelyCalls_fault :
    StreamCalls.Proper lonelyCalls [] ∧ StreamCalls.execute lonelyCalls Streams.cleared = none := by
  refine ⟨by decide, rfl⟩

end Apollo.Libc
