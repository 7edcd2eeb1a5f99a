import Apollo.Shell.StackAllocator
import Mathlib.Algebra.Order.BigOperators.Group.List
import Mathlib.Algebra.Order.Group.Nat

/-!
# The pages of the stack allocator

The pages of the stack and the cached ones are different pages that `malloc` has delivered.
None is lost as long as a stack has no more than two pages.
-/

set_option autoImplicit false

namespace Apollo.Shell

open Lib

/-- The largest size of a page whose block does not wrap around. -/
def kMaxPageSize : Nat := kAddressSpaceSize - 2 * kHeapAlignment

theorem ceilHeapAlignment_spec {size : Nat} (small : size ≤ kMaxPageSize) :
    size ≤ ceilHeapAlignment size ∧ ceilHeapAlignment size ≤ kMaxPageSize ∧ kHeapAlignment ∣ ceilHeapAlignment size := by
  unfold kMaxPageSize kHeapAlignment kAddressSpaceSize at *
  unfold ceilHeapAlignment kAddressSpaceSize
  exact ⟨by omega, by omega, Nat.dvd_mul_left 8 _⟩

theorem ceilHeapAlignment_pos {size : Nat} (positive : 0 < size) (small : size ≤ kMaxPageSize) : 0 < ceilHeapAlignment size :=
  Nat.lt_of_lt_of_le positive (ceilHeapAlignment_spec small).1

/-! ## Chains -/

def capacities (pages : List StackPage) : Nat := (pages.map StackPage.pageCapacity).sum

theorem capacities_perm {pages pages' : List StackPage} (perm : pages.Perm pages') : capacities pages = capacities pages' :=
  (perm.map StackPage.pageCapacity).sum_nat

theorem capacities_cons (page : StackPage) (pages : List StackPage) :
    capacities (page :: pages) = page.pageCapacity + capacities pages := List.sum_cons

theorem capacities_append (pages pages' : List StackPage) : capacities (pages ++ pages') = capacities pages + capacities pages' := by
  unfold capacities
  rw [List.map_append, List.sum_append]

theorem takeCached_some {nbytes : Nat} {cache rest : List StackPage} {page : StackPage}
    (taken : takeCached nbytes cache = some (page, rest)) : cache.Perm (page :: rest) ∧ nbytes ≤ page.pageCapacity := by
  induction cache generalizing rest with
  | nil => cases taken
  | cons first later ih =>
    unfold takeCached at taken
    split_ifs at taken with large
    · cases taken
      exact ⟨.refl _, large⟩
    · obtain ⟨⟨found, others⟩, found_eq, same⟩ := Option.map_eq_some_iff.mp taken
      cases same
      obtain ⟨perm, fits⟩ := ih found_eq
      exact ⟨(perm.cons first).trans (.swap _ _ _), fits⟩

namespace StackAllocator

theorem retireAll_frame (pages : List StackPage) (self : StackAllocator) :
    (retireAll pages self).1 =
      { self with cache := (retireAll pages self).1.cache, pageCacheBytesCount := (retireAll pages self).1.pageCacheBytesCount } := by
  induction pages generalizing self with
  | nil => rfl
  | cons page rest ih =>
    unfold retireAll
    split_ifs
    · exact ih _
    · exact ih _

theorem retireAll_perm (pages : List StackPage) (self : StackAllocator) :
    ((retireAll pages self).2 ++ (retireAll pages self).1.cache).Perm (pages ++ self.cache) := by
  induction pages generalizing self with
  | nil => exact .refl _
  | cons page rest ih =>
    unfold retireAll
    split_ifs
    · exact (ih _).trans List.perm_middle
    · exact (ih self).cons page

structure Counts (allocator : StackAllocator) : Prop where
  count : allocator.pageCacheBytesCount = capacities allocator.cache
  below : allocator.cache = [] ∨ allocator.pageCacheBytesCount < allocator.pageCacheBytesCapacity

theorem Counts.retireAll {pages : List StackPage} {self : StackAllocator} (counts : self.Counts)
    (small : capacities (pages ++ self.cache) < kAddressSpaceSize) : (retireAll pages self).1.Counts := by
  induction pages generalizing self with
  | nil => exact counts
  | cons page rest ih =>
    have total : capacities (page :: rest ++ self.cache) = page.pageCapacity + capacities (rest ++ self.cache) := capacities_cons ..
    have parts : capacities (rest ++ self.cache) = capacities rest + capacities self.cache := capacities_append ..
    unfold StackAllocator.retireAll
    split_ifs with fits
    · apply ih
      · refine ⟨?_, .inr fits⟩
        have wraps : (self.pageCacheBytesCount + page.pageCapacity) % kAddressSpaceSize =
            self.pageCacheBytesCount + page.pageCapacity := by
          have := counts.count
          exact Nat.mod_eq_of_lt (by omega)
        rw [wraps, counts.count, capacities_cons, Nat.add_comm]
      · rw [capacities_perm (List.perm_middle : (rest ++ page :: self.cache).Perm _)]
        exact small
    · exact ih counts (by omega)

def TosIsBos (self : StackAllocator) : Prop := self.tos = self.bos.head?.map StackPage.address

theorem push_bos {self : StackAllocator} (top : self.TosIsBos) (page : StackPage) :
    (self.push page).bos = self.bos.take 1 ++ [page] := by
  unfold push
  rw [top]
  cases self.bos with
  | nil => rfl
  | cons first rest =>
    change linkBehind first.address page (first :: rest) = _
    rw [linkBehind, if_pos rfl]
    rfl

theorem push_top {self : StackAllocator} (top : self.TosIsBos) (page : StackPage) : (self.push page).TosIsBos := by
  unfold TosIsBos
  rw [push_bos top]
  unfold push
  rw [top]
  cases self.bos with
  | nil => rfl
  | cons first rest => rfl

theorem retireAll_nothing (pages : List StackPage) {self : StackAllocator} (none : self.pageCacheBytesCapacity = 0) :
    retireAll pages self = (self, pages) := by
  induction pages with
  | nil => rfl
  | cons page rest ih =>
    unfold retireAll
    rw [none, if_neg (Nat.not_lt_zero _), ih]

theorem destroy_eq (self : StackAllocator) : self.destroy = self.bos ++ self.cache := by
  unfold destroy deallocAll
  rw [retireAll_nothing _ rfl]

end StackAllocator

/-! ## What an allocation does to the pages -/

inductive Served (self : StackAllocator) (malloc : Nat → Option Nat) (nbytes : Nat) : Nat × StackAllocator × Option StackPage → Prop
  | empty (none : nbytes = 0) : Served self malloc nbytes (kAddressSpaceSize - 1, self, .none)
  | here (positive : nbytes ≠ 0) (fits : ¬self.NeedsPage nbytes) :
      Served self malloc nbytes ((self.advance nbytes).1, (self.advance nbytes).2, .none)
  | cached (positive : nbytes ≠ 0) (full : self.NeedsPage nbytes) {page : StackPage} {rest : List StackPage}
      (taken : takeCached nbytes self.cache = some (page, rest)) {next : StackAllocator}
      (pushed : next = StackAllocator.push
        { self with
          cache := rest
          pageCacheBytesCount := (self.pageCacheBytesCount + kAddressSpaceSize - page.pageCapacity) % kAddressSpaceSize } page) :
      Served self malloc nbytes ((next.advance nbytes).1, (next.advance nbytes).2, .none)
  | new (positive : nbytes ≠ 0) (full : self.NeedsPage nbytes) (none : takeCached nbytes self.cache = .none) {address : Nat}
      (delivered : malloc (self.pageBlockSize nbytes) = some address) {page : StackPage}
      (made : page = ⟨address, self.alignedPageSize nbytes⟩) :
      Served self malloc nbytes (((self.push page).advance nbytes).1, ((self.push page).advance nbytes).2, some page)
  | refused (positive : nbytes ≠ 0) (full : self.NeedsPage nbytes) (none : takeCached nbytes self.cache = .none)
      (empty : malloc (self.pageBlockSize nbytes) = .none) : Served self malloc nbytes (0, self, .none)

theorem alloc_served (self : StackAllocator) (malloc : Nat → Option Nat) (nbytes : Nat) :
    Served self malloc nbytes (self.alloc malloc nbytes) := by
  unfold StackAllocator.alloc
  split_ifs with zero full
  · exact .empty zero
  · unfold StackAllocator.allocateBackingStore
    cases taken : takeCached nbytes self.cache with
    | some result => exact .cached zero full taken rfl
    | none =>
      cases delivered : malloc (self.pageBlockSize nbytes) with
      | some address => exact .new zero full taken delivered rfl
      | none => exact .refused zero full taken delivered
  · exact .here zero full

/-! ## The pages that are in use -/

/-- The pages that `malloc` has delivered are apart from each other, and the pages of the allocator are some of them. -/
structure Stocked (allocator : StackAllocator) (live : List StackPage) : Prop where
  pageSize : allocator.pageSize ≤ kMaxPageSize
  top : allocator.TosIsBos
  aligned : ∀ page ∈ live, kHeapAlignment ∣ page.address ∧ kHeapAlignment ∣ page.pageCapacity
  large : ∀ page ∈ live, allocator.pageSize ≤ page.pageCapacity
  inside : ∀ page ∈ live, 0 < page.address ∧ page.region.stop < kAddressSpaceSize
  apart : (live.map StackPage.region).Pairwise Interval.Apart
  chained : (allocator.bos ++ allocator.cache).Subperm live

def StackRequest.Modest (request : StackRequest) : Prop := ∀ nbytes, request.call = .alloc nbytes → nbytes ≤ kMaxPageSize

namespace Stocked

variable {self : StackAllocator} {live : List StackPage} {malloc : Nat → Option Nat} {nbytes : Nat}
variable {page : StackPage} {session : StackSession}

theorem create {pageSize : Nat} (pageCacheCapacity : Nat) (small : pageSize ≤ kMaxPageSize) :
    Stocked (.create pageSize pageCacheCapacity) [] := by
  refine ⟨?_, rfl, nofun, nofun, nofun, .nil, .refl _⟩
  unfold StackAllocator.create
  dsimp only
  split_ifs
  · decide
  · exact small

section
variable (stocked : Stocked self live)
include stocked

theorem advance (nbytes : Nat) : Stocked (self.advance nbytes).2 live :=
  ⟨stocked.pageSize, stocked.top, stocked.aligned, stocked.large, stocked.inside, stocked.apart, stocked.chained⟩

theorem push (more : (page :: (self.bos ++ self.cache)).Subperm live) : Stocked (self.push page) live := by
  refine ⟨stocked.pageSize, StackAllocator.push_top stocked.top page, stocked.aligned, stocked.large, stocked.inside, stocked.apart, ?_⟩
  rw [StackAllocator.push_bos stocked.top]
  have shorter : (self.bos.take 1 ++ self.cache).Subperm (self.bos ++ self.cache) :=
    ((List.take_sublist 1 self.bos).append_right self.cache).subperm
  have order : (self.bos.take 1 ++ [page] ++ self.cache).Perm (page :: (self.bos.take 1 ++ self.cache)) := by
    rw [List.append_assoc]
    exact List.perm_middle
  exact order.subperm.trans ((List.subperm_cons page).mpr shorter |>.trans more)

theorem capacities_lt {pages : List StackPage} (some : pages.Subperm live) : capacities pages < kAddressSpaceSize := by
  have bound : ((live.map StackPage.region).map Interval.size).sum ≤ kAddressSpaceSize - 1 := by
    refine Interval.sum_size_le stocked.apart fun interval member => ?_
    obtain ⟨page, inside, rfl⟩ := List.mem_map.mp member
    exact Nat.le_sub_one_of_lt (stocked.inside page inside).2
  have parts : capacities live ≤ ((live.map StackPage.region).map Interval.size).sum := by
    rw [List.map_map]
    exact List.sum_le_sum fun page _ => Nat.le_add_left page.pageCapacity kHeapAlignment
  obtain ⟨order, perm, sublist⟩ := some
  have fewer : capacities order ≤ capacities live := (sublist.map _).sum_le_sum fun _ _ => Nat.zero_le _
  rw [← capacities_perm perm]
  unfold kAddressSpaceSize at *
  omega

theorem new (small : nbytes ≤ kMaxPageSize) {page : StackPage}
    (made : page = ⟨page.address, self.alignedPageSize nbytes⟩) (aligned : kHeapAlignment ∣ page.address) (positive : 0 < page.address)
    (inside : page.address + self.pageBlockSize nbytes < kAddressSpaceSize)
    (apart : ∀ other ∈ live, other.region.Apart ⟨page.address, self.pageBlockSize nbytes⟩) : Stocked self (page :: live) := by
  have capacity : page.pageCapacity = self.alignedPageSize nbytes := by rw [made]
  have raw : (if nbytes > self.pageSize then nbytes else self.pageSize) ≤ kMaxPageSize := by
    split_ifs
    · exact small
    · exact stocked.pageSize
  obtain ⟨covers, bounded, divides⟩ := ceilHeapAlignment_spec raw
  have size : self.pageBlockSize nbytes = page.pageCapacity + kHeapAlignment := by
    unfold StackAllocator.pageBlockSize
    unfold StackAllocator.alignedPageSize kMaxPageSize kHeapAlignment kAddressSpaceSize at *
    omega
  rw [size] at inside apart
  have region : page.region = ⟨page.address, page.pageCapacity + kHeapAlignment⟩ := by
    unfold StackPage.region
    rw [Nat.add_comm]
  refine ⟨stocked.pageSize, stocked.top, ?_, ?_, ?_, ?_, stocked.chained.trans (List.sublist_cons_self _ _).subperm⟩
  · intro other member
    rcases List.mem_cons.mp member with rfl | later
    · exact ⟨aligned, capacity ▸ divides⟩
    · exact stocked.aligned other later
  · intro other member
    rcases List.mem_cons.mp member with rfl | later
    · rw [capacity]
      refine Nat.le_trans ?_ covers
      split_ifs with larger
      · exact Nat.le_of_lt larger
      · exact Nat.le_refl _
    · exact stocked.large other later
  · intro other member
    rcases List.mem_cons.mp member with rfl | later
    · rw [region]
      exact ⟨positive, inside⟩
    · exact stocked.inside other later
  · rw [List.map_cons, List.pairwise_cons]
    refine ⟨fun interval member => ?_, stocked.apart⟩
    obtain ⟨other, later, rfl⟩ := List.mem_map.mp member
    rw [region]
    exact (apart other later).symm

theorem cached {page : StackPage} {rest : List StackPage}
    (taken : takeCached nbytes self.cache = some (page, rest)) {next : StackAllocator}
    (pushed : next = StackAllocator.push
      { self with
        cache := rest
        pageCacheBytesCount := (self.pageCacheBytesCount + kAddressSpaceSize - page.pageCapacity) % kAddressSpaceSize } page) :
    Stocked next live := by
  obtain ⟨perm, -⟩ := takeCached_some taken
  have chained : (page :: (self.bos ++ rest)).Subperm live :=
    (List.perm_middle.symm.trans (perm.symm.append_left self.bos)).subperm.trans stocked.chained
  have fewer : Stocked { self with
      cache := rest
      pageCacheBytesCount := (self.pageCacheBytesCount + kAddressSpaceSize - page.pageCapacity) % kAddressSpaceSize } live :=
    ⟨stocked.pageSize, stocked.top, stocked.aligned, stocked.large, stocked.inside, stocked.apart,
      (List.sublist_cons_self page _).subperm.trans chained⟩
  rw [pushed]
  exact fewer.push chained

theorem delivered (same : session.live = live) (mallocs : session.Mallocs malloc)
    (small : nbytes ≤ kMaxPageSize) {address : Nat} (delivers : malloc (self.pageBlockSize nbytes) = some address)
    (made : page = ⟨address, self.alignedPageSize nbytes⟩) : Stocked (self.push page) (page :: live) := by
  subst same
  have more : Stocked self (page :: session.live) := by
    refine stocked.new small (by rw [made]) ?_ ?_ ?_ ?_ <;> rw [made]
    · exact mallocs.aligned _ _ delivers
    · exact mallocs.positive _ _ delivers
    · exact mallocs.inside _ _ delivers
    · exact mallocs.apart _ _ delivers
  exact more.push ((List.subperm_cons page).mpr stocked.chained)

theorem alloc (same : session.live = live) (mallocs : session.Mallocs malloc)
    (small : nbytes ≤ kMaxPageSize) {result : Nat × StackAllocator × Option StackPage} (served : Served self malloc nbytes result) :
    Stocked result.2.1 (result.2.2.toList ++ live) := by
  cases served with
  | empty none => exact stocked
  | here positive fits => exact stocked.advance nbytes
  | cached positive full taken pushed => exact (stocked.cached taken pushed).advance nbytes
  | new positive full none delivers made => exact (stocked.delivered same mallocs small delivers made).advance nbytes
  | refused positive full none empty => exact stocked

theorem deallocAll : Stocked self.deallocAll.1 (live.diff self.deallocAll.2) := by
  unfold StackAllocator.deallocAll
  have perm := StackAllocator.retireAll_perm self.bos { self with bos := [], tos := none, tosPtr := 0, tosPageEndPtr := 0 }
  have frame := StackAllocator.retireAll_frame self.bos { self with bos := [], tos := none, tosPtr := 0, tosPageEndPtr := 0 }
  generalize StackAllocator.retireAll self.bos { self with bos := [], tos := none, tosPtr := 0, tosPageEndPtr := 0 } = result at perm frame
  obtain ⟨after, freed⟩ := result
  dsimp only at perm frame ⊢
  have sublist : (live.diff freed).Sublist live := List.diff_sublist live freed
  have bos : after.bos = [] := by rw [frame]
  have pageSize : after.pageSize = self.pageSize := by rw [frame]
  refine ⟨?_, ?_, ?_, ?_, ?_, stocked.apart.sublist (sublist.map _), ?_⟩
  · rw [pageSize]
    exact stocked.pageSize
  · rw [frame]
    rfl
  · exact fun page member => stocked.aligned page (sublist.subset member)
  · intro page member
    rw [pageSize]
    exact stocked.large page (sublist.subset member)
  · exact fun page member => stocked.inside page (sublist.subset member)
  · have all : (freed ++ after.cache).Subperm live := perm.subperm.trans stocked.chained
    rw [bos, List.nil_append, List.subperm_ext_iff]
    intro page _
    have counts := all.count_le page
    rw [List.count_append] at counts
    rw [List.count_diff]
    omega

end

theorem perform {request : StackRequest} (stocked : Stocked session.self session.live)
    (mallocs : session.Mallocs request.malloc) (modest : request.Modest) :
    Stocked (session.perform request).self (session.perform request).live := by
  unfold StackSession.perform
  cases call : request.call with
  | alloc nbytes => exact stocked.alloc rfl mallocs (modest nbytes call) (alloc_served ..)
  | deallocAll => exact stocked.deallocAll

end Stocked

/-! ## Conservation -/

/-- Every page that `malloc` has delivered was freed once, or is once on the stack or in the cache. -/
structure StackSession.Conserves (session : StackSession) : Prop where
  pages : session.obtained.Perm (session.freed ++ (session.self.bos ++ session.self.cache))
  counts : session.self.Counts
  destroyed : session.obtained.Perm (session.freed ++ session.self.destroy)

def StackSession.KeepsPages (session : StackSession) (request : StackRequest) : Prop :=
  ∀ nbytes, request.call = .alloc nbytes → nbytes ≤ kMaxPageSize ∧
    (nbytes ≠ 0 → session.self.NeedsPage nbytes → (session.self.allocateBackingStore request.malloc nbytes).isSome = true →
      session.self.bos.length ≤ 1)

namespace StackSession.Conserves

variable {session : StackSession} {request : StackRequest}

theorem of_pages (pages : session.obtained.Perm (session.freed ++ (session.self.bos ++ session.self.cache)))
    (counts : session.self.Counts) : session.Conserves :=
  ⟨pages, counts, by rw [StackAllocator.destroy_eq]; exact pages⟩

theorem counts_taken {self : StackAllocator} (counts : self.Counts) {page : StackPage} {rest : List StackPage}
    (perm : self.cache.Perm (page :: rest)) (small : capacities self.cache < kAddressSpaceSize) :
    StackAllocator.Counts { self with
      cache := rest
      pageCacheBytesCount := (self.pageCacheBytesCount + kAddressSpaceSize - page.pageCapacity) % kAddressSpaceSize } := by
  have total : capacities self.cache = page.pageCapacity + capacities rest := by
    rw [capacities_perm perm, capacities_cons]
  have count := counts.count
  have less : (self.pageCacheBytesCount + kAddressSpaceSize - page.pageCapacity) % kAddressSpaceSize = capacities rest := by
    have wraps : self.pageCacheBytesCount + kAddressSpaceSize - page.pageCapacity = capacities rest + kAddressSpaceSize := by omega
    rw [wraps, Nat.add_mod_right, Nat.mod_eq_of_lt (by omega)]
  refine ⟨less, ?_⟩
  rcases counts.below with empty | below
  · rw [empty] at perm
    exact absurd perm (List.nil_perm.not.mpr (List.cons_ne_nil _ _))
  · right
    change (self.pageCacheBytesCount + kAddressSpaceSize - page.pageCapacity) % kAddressSpaceSize < self.pageCacheBytesCapacity
    omega

theorem alloc (conserves : session.Conserves) (stocked : Stocked session.self session.live) {nbytes : Nat}
    (call : request.call = .alloc nbytes) (keeps : session.KeepsPages request) : (session.perform request).Conserves := by
  obtain ⟨-, third⟩ := keeps nbytes call
  have top := stocked.top
  have small : capacities session.self.cache < kAddressSpaceSize :=
    stocked.capacities_lt ((List.sublist_append_right _ _).subperm.trans stocked.chained)
  have short (two : session.self.bos.length ≤ 1) : session.self.bos.take 1 = session.self.bos := List.take_of_length_le two
  unfold StackSession.perform
  rw [call]
  dsimp only
  have served := alloc_served session.self request.malloc nbytes
  generalize session.self.alloc request.malloc nbytes = result at served
  cases served with
  | empty none => exact of_pages conserves.pages conserves.counts
  | here positive fits => exact of_pages conserves.pages ⟨conserves.counts.count, conserves.counts.below⟩
  | @cached positive full page rest taken next pushed =>
    obtain ⟨perm, -⟩ := takeCached_some taken
    have two := third positive full (by unfold StackAllocator.allocateBackingStore; rw [taken]; rfl)
    have fewer := counts_taken conserves.counts perm small
    have bos : next.bos = session.self.bos ++ [page] := by
      rw [pushed]
      refine (@StackAllocator.push_bos { session.self with cache := rest, pageCacheBytesCount := _ } top page).trans ?_
      rw [short two]
    have cache : next.cache = rest := by rw [pushed]; rfl
    refine of_pages ?_ ?_
    · change session.obtained.Perm (session.freed ++ (next.bos ++ next.cache))
      rw [bos, cache, List.append_assoc, List.singleton_append]
      exact conserves.pages.trans ((perm.append_left _).append_left _)
    · rw [pushed]
      exact ⟨fewer.count, fewer.below⟩
  | @new positive full none address delivered page made =>
    have two := third positive full (by unfold StackAllocator.allocateBackingStore; rw [none, delivered]; rfl)
    refine of_pages ?_ ⟨conserves.counts.count, conserves.counts.below⟩
    change (page :: session.obtained).Perm (session.freed ++ ((session.self.push page).bos ++ session.self.cache))
    rw [StackAllocator.push_bos top, short two, List.append_assoc, List.singleton_append, ← List.append_assoc]
    refine (conserves.pages.cons page).trans ?_
    rw [← List.append_assoc]
    exact List.perm_middle.symm
  | refused positive full none empty => exact of_pages conserves.pages conserves.counts

theorem deallocAll (conserves : session.Conserves) (stocked : Stocked session.self session.live)
    (call : request.call = .deallocAll) : (session.perform request).Conserves := by
  have small := stocked.capacities_lt stocked.chained
  have perm := StackAllocator.retireAll_perm session.self.bos { session.self with bos := [], tos := none, tosPtr := 0, tosPageEndPtr := 0 }
  have frame := StackAllocator.retireAll_frame session.self.bos { session.self with bos := [], tos := none, tosPtr := 0, tosPageEndPtr := 0 }
  have counts := @StackAllocator.Counts.retireAll session.self.bos
    { session.self with bos := [], tos := none, tosPtr := 0, tosPageEndPtr := 0 } ⟨conserves.counts.count, conserves.counts.below⟩ small
  unfold StackSession.perform
  rw [call]
  unfold StackAllocator.deallocAll
  generalize StackAllocator.retireAll session.self.bos { session.self with bos := [], tos := none, tosPtr := 0, tosPageEndPtr := 0 } = result
    at perm frame counts
  obtain ⟨after, freed⟩ := result
  dsimp only at perm frame counts ⊢
  have bos : after.bos = [] := by rw [frame]
  refine of_pages ?_ counts
  rw [bos, List.nil_append]
  have order : (freed ++ session.freed ++ after.cache).Perm (session.freed ++ (freed ++ after.cache)) := by
    rw [← List.append_assoc]
    exact List.perm_append_comm.append_right _
  exact (conserves.pages.trans (perm.symm.append_left _)).trans order.symm

theorem perform (conserves : session.Conserves) (stocked : Stocked session.self session.live)
    (keeps : session.KeepsPages request) : (session.perform request).Conserves := by
  cases call : request.call with
  | alloc nbytes => exact conserves.alloc stocked call keeps
  | deallocAll => exact conserves.deallocAll stocked call

end StackSession.Conserves

/-- No page is lost, counted twice or freed twice as long as no stack has more than two pages. -/
theorem stackAllocator_conserves {pageSize pageCacheCapacity : Nat} (small : pageSize ≤ kMaxPageSize)
    {requests : List StackRequest} {session : StackSession}
    (run : Runs (fun session request after => session.KeepsPages request ∧ session.Step request after)
      (.create pageSize pageCacheCapacity) requests session) : session.Conserves := by
  refine (run.invariant (fun session => Stocked session.self session.live ∧ session.Conserves) ?_ ?_).2
  · exact ⟨.create pageCacheCapacity small, .of_pages (.refl _) ⟨rfl, .inl rfl⟩⟩
  · rintro request session after ⟨stocked, conserves⟩ ⟨keeps, mallocs, rfl⟩
    exact ⟨stocked.perform mallocs fun nbytes call => (keeps nbytes call).1, conserves.perform stocked keeps⟩

/-! ### Small pages -/

/-- A `malloc` that has one page of 32 bytes. -/
def smallMalloc (address size : Nat) : Option Nat := if size = 40 then some address else none

theorem smallMalloc_mallocs {session : StackSession} {address : Nat} (aligned : kHeapAlignment ∣ address)
    (placed : 0 < address ∧ address + 40 < kAddressSpaceSize)
    (apart : ∀ page ∈ session.live, page.region.Apart ⟨address, 40⟩) : session.Mallocs (smallMalloc address) := by
  have delivered {size other : Nat} (delivers : smallMalloc address size = some other) : size = 40 ∧ other = address := by
    unfold smallMalloc at delivers
    split_ifs at delivers with fits
    exact ⟨fits, (Option.some.inj delivers).symm⟩
  constructor <;> intro size other delivers <;> obtain ⟨rfl, rfl⟩ := delivered delivers
  · exact aligned
  · exact placed.1
  · exact placed.2
  · exact apart

def pageRequest (address : Nat) : StackRequest := ⟨.alloc 32, smallMalloc address⟩

theorem pageRequest_keeps {session : StackSession} {address : Nat} (short : session.self.bos.length ≤ 1) :
    session.KeepsPages (pageRequest address) := by
  rintro nbytes call
  cases call
  exact ⟨by decide, fun _ _ _ => short⟩

theorem twoPages_conserved :
    ((((StackSession.create 32 100).perform (pageRequest 64)).perform (pageRequest 128)).perform
      ⟨.deallocAll, smallMalloc 192⟩).Conserves := by
  have run : Runs (fun session request after => session.KeepsPages request ∧ session.Step request after) (.create 32 100)
      [⟨.deallocAll, smallMalloc 192⟩, pageRequest 128, pageRequest 64]
      ((((StackSession.create 32 100).perform (pageRequest 64)).perform (pageRequest 128)).perform ⟨.deallocAll, smallMalloc 192⟩) := by
    refine ((Runs.nil.step ⟨pageRequest_keeps (by decide), ?_, rfl⟩).step ⟨pageRequest_keeps (by decide), ?_, rfl⟩).step
      ⟨fun nbytes call => StackCall.noConfusion call, ?_, rfl⟩
    · exact smallMalloc_mallocs (by decide) (by decide) (by decide)
    · exact smallMalloc_mallocs (by decide) (by decide) (by decide)
    · exact smallMalloc_mallocs (by decide) (by decide) (by decide)
  exact stackAllocator_conserves (by decide) run

/-- The second of three pages is neither on the stack nor in the cache. -/
theorem thirdPage_loses : ¬∀ (pageSize pageCacheCapacity : Nat) (requests : List StackRequest) (session : StackSession),
    Runs StackSession.Step (.create pageSize pageCacheCapacity) requests session → session.Conserves := by
  intro all
  have run : Runs StackSession.Step (.create 32 100) [pageRequest 192, pageRequest 128, pageRequest 64]
      ((((StackSession.create 32 100).perform (pageRequest 64)).perform (pageRequest 128)).perform (pageRequest 192)) := by
    refine ((Runs.nil.step ⟨?_, rfl⟩).step ⟨?_, rfl⟩).step ⟨?_, rfl⟩
    · exact smallMalloc_mallocs (by decide) (by decide) (by decide)
    · exact smallMalloc_mallocs (by decide) (by decide) (by decide)
    · exact smallMalloc_mallocs (by decide) (by decide) (by decide)
  exact absurd (all 32 100 _ _ run).pages.length_eq (by decide)

end Apollo.Shell
