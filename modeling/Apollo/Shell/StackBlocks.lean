import Apollo.Shell.StackPages

/-!
# The blocks of the stack allocator

A block is what lies between the top of the stack and the next multiple of the alignment.
The usable end of a page is its configured size, which is never behind its real end.
-/

set_option autoImplicit false

namespace Apollo.Shell

open Lib

/-- The request is not empty, and neither its size nor the top of the stack wraps around when it is served. -/
def StackSession.Fits (session : StackSession) (request : StackRequest) : Prop :=
  ∀ nbytes, request.call = .alloc nbytes → 0 < nbytes ∧ nbytes ≤ kMaxPageSize ∧
    (session.self.tosPtr + ceilHeapAlignment nbytes < kAddressSpaceSize ∨ session.self.NeedsPage nbytes)

theorem StackSession.Fits.modest {session : StackSession} {request : StackRequest} (fits : session.Fits request) : request.Modest :=
  fun nbytes call => (fits nbytes call).2.1

theorem ceilHeapAlignment_le {size bound : Nat} (le : size ≤ bound) (divides : kHeapAlignment ∣ bound) (small : size ≤ kMaxPageSize) :
    ceilHeapAlignment size ≤ bound := by
  unfold kMaxPageSize kHeapAlignment kAddressSpaceSize at *
  unfold ceilHeapAlignment kAddressSpaceSize
  omega

namespace Stocked

variable {self : StackAllocator} {live : List StackPage} {page other : StackPage}

theorem apart_of_ne (stocked : Stocked self live) (member : page ∈ live) (member' : other ∈ live) (different : page ≠ other) :
    page.region.Apart other.region := by
  have symmetric : Std.Symm fun page other : StackPage => page.region.Apart other.region := ⟨fun _ _ apart => apart.symm⟩
  exact (List.pairwise_map.mp stocked.apart).forall member member' different

theorem nodup (stocked : Stocked self live) : live.Nodup := by
  refine (List.pairwise_map.mp stocked.apart).imp fun {page other} apart same => ?_
  subst same
  have size : page.region.stop = page.address + (8 + page.pageCapacity) := rfl
  have start : page.region.start = page.address := rfl
  rcases apart with before | before <;> omega

theorem cache_subset (stocked : Stocked self live) : self.cache ⊆ live :=
  fun _ member => stocked.chained.subset (List.mem_append_right _ member)

theorem bos_apart (stocked : Stocked self live) : (self.bos ++ self.cache).Nodup := by
  obtain ⟨order, perm, sublist⟩ := stocked.chained
  exact perm.nodup_iff.mp (stocked.nodup.sublist sublist)

end Stocked

theorem body_within (page : StackPage) : page.body.Within page.region := by
  constructor
  · exact Nat.le_add_right _ _
  · change page.address + kHeapAlignment + page.pageCapacity ≤ page.address + (kHeapAlignment + page.pageCapacity)
    omega

structure TopIn (allocator : StackAllocator) (blocks : List Interval) (page : StackPage) : Prop where
  stop : allocator.tosPageEndPtr = page.address + allocator.pageSize
  lower : page.address + kHeapAlignment ≤ allocator.tosPtr
  upper : allocator.tosPtr ≤ page.body.stop
  aligned : kHeapAlignment ∣ allocator.tosPtr
  behind : ∀ block ∈ blocks, block.Within page.body → block.stop ≤ allocator.tosPtr

structure Placed (session : StackSession) : Prop where
  sound : session.Sound
  positive : ∀ block ∈ session.blocks, 0 < block.size
  uncached : ∀ block ∈ session.blocks, ∃ page ∈ session.live, page ∉ session.self.cache ∧ block.Within page.body
  top : (session.self.tosPtr = 0 ∧ session.self.tosPageEndPtr = 0) ∨
    ∃ page ∈ session.live, page ∉ session.self.cache ∧ TopIn session.self session.blocks page

section Blocks
variable {session : StackSession} {request : StackRequest} {nbytes : Nat} {page : StackPage}

variable {self : StackAllocator} {live : List StackPage} {blocks : List Interval}

theorem Stocked.page_unique {block : Interval} {other : StackPage}
    (stocked : Stocked self live) (member : page ∈ live) (member' : other ∈ live) (positive : 0 < block.size)
    (within : block.Within page.body) (within' : block.Within other.body) : page = other := by
  by_contra different
  have apart := stocked.apart_of_ne member member' different
  have first := within.trans (body_within page)
  have second := within'.trans (body_within other)
  have size : block.stop = block.start + block.size := rfl
  obtain ⟨first, first'⟩ := first
  obtain ⟨second, second'⟩ := second
  rcases apart with before | before <;> omega

theorem StackSession.Sound.take {obtained freed obtained' freed' : List StackPage}
    {before : StackAllocator} (sound : (⟨before, obtained', freed', live, blocks⟩ : StackSession).Sound) (stocked : Stocked self live)
    (positives : ∀ block ∈ blocks, 0 < block.size)
    (uncached : ∀ block ∈ blocks, ∃ page ∈ live, page ∉ self.cache ∧ block.Within page.body)
    (member : page ∈ live) (free : page ∉ self.cache) (top : TopIn self blocks page) (positive : 0 < nbytes) (small : nbytes ≤ kMaxPageSize)
    (room : self.tosPtr + ceilHeapAlignment nbytes ≤ page.body.stop) :
    Placed ⟨(self.advance nbytes).2, obtained, freed, live,
      if (self.advance nbytes).1 = 0 then blocks else ⟨(self.advance nbytes).1, nbytes⟩ :: blocks⟩ := by
  obtain ⟨covers, -, divides⟩ := ceilHeapAlignment_spec small
  have inside := (stocked.inside page member).2
  have region : page.region.stop = page.address + (kHeapAlignment + page.pageCapacity) := rfl
  have body : page.body.stop = page.address + kHeapAlignment + page.pageCapacity := rfl
  have lower := top.lower
  have next : (self.advance nbytes).2.tosPtr = self.tosPtr + ceilHeapAlignment nbytes := Nat.mod_eq_of_lt (by omega)
  have here : ¬(self.advance nbytes).1 = 0 := by
    change self.tosPtr ≠ 0
    unfold kHeapAlignment at lower
    omega
  rw [if_neg here]
  have within : (⟨self.tosPtr, nbytes⟩ : Interval).Within page.body := by
    refine ⟨lower, ?_⟩
    change self.tosPtr + nbytes ≤ _
    omega
  refine ⟨⟨?_, ?_, ?_⟩, ?_, ?_, .inr ⟨page, member, free, top.stop, ?_, ?_, ?_, ?_⟩⟩
  · intro block
    rw [List.mem_cons]
    rintro (rfl | old)
    · exact top.aligned
    · exact sound.aligned block old
  · intro block
    rw [List.mem_cons]
    rintro (rfl | old)
    · exact ⟨page, member, within⟩
    · exact sound.inside block old
  · rw [List.pairwise_cons]
    refine ⟨fun block old => ?_, sound.apart⟩
    obtain ⟨other, member', -, within'⟩ := uncached block old
    by_cases same : other = page
    · exact .inr (top.behind block old (same ▸ within'))
    · exact ((stocked.apart_of_ne member' member same).of_within (within'.trans (body_within other))
        (within.trans (body_within page))).symm
  · intro block
    rw [List.mem_cons]
    rintro (rfl | old)
    · exact positive
    · exact positives block old
  · intro block
    rw [List.mem_cons]
    rintro (rfl | old)
    · exact ⟨page, member, free, within⟩
    · exact uncached block old
  · rw [next]
    omega
  · rw [next]
    exact room
  · rw [next]
    exact (Nat.dvd_add_right top.aligned).mpr divides
  · intro block
    rw [List.mem_cons, next]
    rintro (rfl | old) inPage
    · change self.tosPtr + nbytes ≤ _
      omega
    · exact Nat.le_trans (top.behind block old inPage) (Nat.le_add_right _ _)

theorem TopIn.pushed (stocked : Stocked (self.push page) live)
    (member : page ∈ live) (behind : ∀ block ∈ blocks, ¬block.Within page.body) : TopIn (self.push page) blocks page := by
  have inside := (stocked.inside page member).2
  have large := stocked.large page member
  have region : page.region.stop = page.address + (kHeapAlignment + page.pageCapacity) := rfl
  have body : page.body.stop = page.address + kHeapAlignment + page.pageCapacity := rfl
  have size : (self.push page).pageSize = self.pageSize := rfl
  have ptr : (self.push page).tosPtr = page.address + kHeapAlignment := Nat.mod_eq_of_lt (by omega)
  have stop : (self.push page).tosPageEndPtr = page.address + (self.push page).pageSize := Nat.mod_eq_of_lt (by omega)
  refine ⟨stop, ?_, ?_, ?_, fun block old within => absurd within (behind block old)⟩
  · rw [ptr]
  · omega
  · rw [ptr]
    exact (Nat.dvd_add_right (stocked.aligned page member).1).mpr (Nat.dvd_refl _)

theorem Placed.alloc (placed : Placed session) (stocked : Stocked session.self session.live) (mallocs : session.Mallocs request.malloc)
    (call : request.call = .alloc nbytes) (fits : session.Fits request) : Placed (session.perform request) := by
  obtain ⟨positive, small, advances⟩ := fits nbytes call
  unfold StackSession.perform
  rw [call]
  dsimp only
  have served := alloc_served session.self request.malloc nbytes
  generalize session.self.alloc request.malloc nbytes = result at served
  cases served with
  | empty none => exact absurd none (Nat.ne_of_gt positive)
  | here nonzero fitting =>
    have advanced := advances.resolve_right fitting
    have enough : session.self.tosPtr + ceilHeapAlignment nbytes ≤ session.self.tosPageEndPtr := by
      unfold StackAllocator.NeedsPage at fitting
      rw [Nat.mod_eq_of_lt advanced] at fitting
      exact Nat.le_of_not_gt fitting
    rcases placed.top with ⟨ptr, stop⟩ | ⟨page, member, free, top⟩
    · have := ceilHeapAlignment_pos positive small
      omega
    · have large := stocked.large page member
      have stop := top.stop
      have body : page.body.stop = page.address + kHeapAlignment + page.pageCapacity := rfl
      exact placed.sound.take stocked placed.positive placed.uncached member free top positive small (by omega)
  | @cached nonzero full page rest taken next pushed =>
    obtain ⟨perm, capacity⟩ := takeCached_some taken
    have stocked' := stocked.cached taken pushed
    have inCache : page ∈ session.self.cache := perm.mem_iff.mpr List.mem_cons_self
    have member := stocked.cache_subset inCache
    have cache : next.cache = rest := by rw [pushed]; rfl
    have nodup : (page :: rest).Nodup := perm.nodup_iff.mp (List.nodup_append.mp stocked.bos_apart).2.1
    have free : page ∉ next.cache := by
      rw [cache]
      exact (List.nodup_cons.mp nodup).1
    have behind : ∀ block ∈ session.blocks, ¬block.Within page.body := by
      intro block old within
      obtain ⟨other, member', uncached, within'⟩ := placed.uncached block old
      exact uncached (stocked.page_unique member member' (placed.positive block old) within within' ▸ inCache)
    have uncached : ∀ block ∈ session.blocks, ∃ page ∈ session.live, page ∉ next.cache ∧ block.Within page.body := by
      intro block old
      obtain ⟨other, member', uncached, within'⟩ := placed.uncached block old
      refine ⟨other, member', fun inRest => uncached ?_, within'⟩
      rw [cache] at inRest
      exact perm.mem_iff.mpr (List.mem_cons_of_mem page inRest)
    have top : TopIn next session.blocks page := by
      rw [pushed] at stocked' ⊢
      exact TopIn.pushed stocked' member behind
    have room : next.tosPtr + ceilHeapAlignment nbytes ≤ page.body.stop := by
      have ptr : next.tosPtr = (page.address + kHeapAlignment) % kAddressSpaceSize := by rw [pushed]; rfl
      have below := Nat.mod_le (page.address + kHeapAlignment) kAddressSpaceSize
      have := ceilHeapAlignment_le capacity (stocked.aligned page member).2 small
      change _ ≤ page.address + kHeapAlignment + page.pageCapacity
      omega
    exact placed.sound.take stocked' placed.positive uncached member free top positive small room
  | @new nonzero full none address delivers page made =>
    have stocked' := stocked.delivered rfl mallocs small delivers made
    have fresh : page ∉ session.live := (List.nodup_cons.mp stocked'.nodup).1
    have more : (⟨session.self.push page, page :: session.obtained, session.freed, page :: session.live, session.blocks⟩ :
        StackSession).Sound :=
      ⟨placed.sound.aligned, fun block old => (placed.sound.inside block old).imp fun other holds =>
        ⟨List.mem_cons_of_mem page holds.1, holds.2⟩, placed.sound.apart⟩
    have behind : ∀ block ∈ session.blocks, ¬block.Within page.body := by
      intro block old within
      obtain ⟨other, member', within'⟩ := placed.sound.inside block old
      have same := stocked'.page_unique List.mem_cons_self (List.mem_cons_of_mem page member') (placed.positive block old) within within'
      exact fresh (same ▸ member')
    have capacity : nbytes ≤ page.pageCapacity := by
      rw [made]
      refine Nat.le_trans ?_ (ceilHeapAlignment_spec ?_).1
      · split_ifs with larger
        · exact Nat.le_refl _
        · exact Nat.le_of_not_gt larger
      · split_ifs
        · exact small
        · exact stocked.pageSize
    have room : (session.self.push page).tosPtr + ceilHeapAlignment nbytes ≤ page.body.stop := by
      have below := Nat.mod_le (page.address + kHeapAlignment) kAddressSpaceSize
      have := ceilHeapAlignment_le capacity (stocked'.aligned page List.mem_cons_self).2 small
      change (page.address + kHeapAlignment) % kAddressSpaceSize + _ ≤ page.address + kHeapAlignment + page.pageCapacity
      omega
    refine more.take stocked' placed.positive ?_ List.mem_cons_self (fun cached => fresh (stocked.cache_subset cached))
      (TopIn.pushed stocked' List.mem_cons_self behind) positive small room
    intro block old
    obtain ⟨other, member', uncached, within'⟩ := placed.uncached block old
    exact ⟨other, List.mem_cons_of_mem page member', uncached, within'⟩
  | refused nonzero full none empty => exact ⟨placed.sound, placed.positive, placed.uncached, placed.top⟩

theorem Placed.perform (placed : Placed session) (stocked : Stocked session.self session.live) (mallocs : session.Mallocs request.malloc)
    (fits : session.Fits request) : Placed (session.perform request) := by
  cases call : request.call with
  | alloc nbytes => exact placed.alloc stocked mallocs call fits
  | deallocAll =>
    have frame := StackAllocator.retireAll_frame session.self.bos { session.self with bos := [], tos := none, tosPtr := 0, tosPageEndPtr := 0 }
    unfold StackSession.perform
    rw [call]
    refine ⟨⟨nofun, nofun, .nil⟩, nofun, nofun, .inl ?_⟩
    change (StackAllocator.retireAll _ _).1.tosPtr = 0 ∧ (StackAllocator.retireAll _ _).1.tosPageEndPtr = 0
    rw [frame]
    exact ⟨rfl, rfl⟩

end Blocks

/-- The blocks of a session are aligned, inside pages and apart from each other as long as nothing wraps around. -/
theorem stackAllocator_blocks {pageSize pageCacheCapacity : Nat} (small : pageSize ≤ kMaxPageSize)
    {requests : List StackRequest} {session : StackSession}
    (run : Runs (fun session request after => session.Fits request ∧ session.Step request after)
      (.create pageSize pageCacheCapacity) requests session) : session.Sound := by
  refine (run.invariant (fun session => Stocked session.self session.live ∧ Placed session) ?_ ?_).2.sound
  · exact ⟨.create pageCacheCapacity small, ⟨nofun, nofun, .nil⟩, nofun, nofun, .inl ⟨rfl, rfl⟩⟩
  · rintro request session after ⟨stocked, placed⟩ ⟨fits, mallocs, rfl⟩
    exact ⟨stocked.perform mallocs fits.modest, placed.perform stocked mallocs fits⟩

/-! ### A block that wraps around -/

theorem pageRequest_fits {session : StackSession} {address : Nat} (low : session.self.tosPtr + 32 < kAddressSpaceSize) :
    session.Fits (pageRequest address) := by
  rintro nbytes call
  cases call
  exact ⟨by decide, by decide, .inl low⟩

theorem twoPages_sound : (((StackSession.create 32 100).perform (pageRequest 64)).perform (pageRequest 128)).Sound := by
  have run : Runs (fun session request after => session.Fits request ∧ session.Step request after) (.create 32 100)
      [pageRequest 128, pageRequest 64] (((StackSession.create 32 100).perform (pageRequest 64)).perform (pageRequest 128)) := by
    refine (Runs.nil.step ⟨pageRequest_fits (by decide), ?_, rfl⟩).step ⟨pageRequest_fits (by decide), ?_, rfl⟩
    · exact smallMalloc_mallocs (by decide) (by decide) (by decide)
    · exact smallMalloc_mallocs (by decide) (by decide) (by decide)
  exact stackAllocator_blocks (by decide) run

/-- A size that is rounded up to zero gets a block of no bytes at the top of the stack. -/
theorem hugeBlock_outside : ¬∀ (pageSize pageCacheCapacity : Nat) (requests : List StackRequest) (session : StackSession),
    Runs StackSession.Step (.create pageSize pageCacheCapacity) requests session → session.Sound := by
  intro all
  have run : Runs StackSession.Step (.create 64 100) [⟨.alloc 4294967295, fun _ => none⟩, ⟨.alloc 8, fun size => if size = 72 then some 64 else none⟩]
      ((((StackSession.create 64 100).perform ⟨.alloc 8, fun size => if size = 72 then some 64 else none⟩).perform
        ⟨.alloc 4294967295, fun _ => none⟩)) := by
    refine (Runs.nil.step ⟨⟨?_, ?_, ?_, nofun⟩, rfl⟩).step ⟨⟨nofun, nofun, nofun, nofun⟩, rfl⟩ <;> intro size address delivers <;>
      dsimp only at delivers <;> split_ifs at delivers with fits <;> cases delivers <;> subst fits <;> decide
  obtain ⟨page, member, within⟩ := (all 64 100 _ _ run).inside ⟨80, 4294967295⟩ List.mem_cons_self
  have only : page = ⟨64, 64⟩ := List.mem_singleton.mp member
  rw [only] at within
  exact absurd within (by decide)

end Apollo.Shell
