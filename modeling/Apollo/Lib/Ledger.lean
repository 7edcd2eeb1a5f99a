import Mathlib.Logic.Basic

/-!
# Exclusive ownership

A ledger says which block each role holds and which blocks are marked as used.
It is sound when every held block is marked and no block has two roles, and
tight when nothing else is marked.  Granting a free block, moving a block from
one role to another and revoking roles keep both.
-/

set_option autoImplicit false

namespace Apollo.Lib

structure Ledger (R B : Type) where
  holds : R → B → Prop
  used : B → Prop

namespace Ledger

variable {R B : Type} {ledger other : Ledger R B}

structure Sound (ledger : Ledger R B) : Prop where
  covered : ∀ {role block}, ledger.holds role block → ledger.used block
  exclusive : ∀ {role role' block}, ledger.holds role block → ledger.holds role' block → role = role'

def Tight (ledger : Ledger R B) : Prop := ∀ block, ledger.used block → ∃ role, ledger.holds role block

def Free (ledger : Ledger R B) (block : B) : Prop := ∀ role, ¬ ledger.holds role block

theorem Sound.free_of_not_used (sound : ledger.Sound) {block : B} (unused : ¬ ledger.used block) :
    ledger.Free block := fun _ holds => unused (sound.covered holds)

theorem Sound.shrink (sound : ledger.Sound)
    (old : ∀ {role block}, other.holds role block → ledger.holds role block)
    (marked : ∀ {role block}, other.holds role block → other.used block) : other.Sound :=
  ⟨marked, fun first second => sound.exclusive (old first) (old second)⟩

/-- A free block is given to `role`. -/
structure Grants (ledger other : Ledger R B) (role : R) (block : B) : Prop where
  holds : ∀ r b, other.holds r b ↔ ledger.holds r b ∨ (r = role ∧ b = block)
  used : ∀ b, other.used b ↔ ledger.used b ∨ b = block

section Grant
variable {role : R} {block : B} (grants : Grants ledger other role block)

include grants

theorem Grants.sound (sound : ledger.Sound) (free : ledger.Free block) : other.Sound where
  covered := by
    intro r b holds
    rw [grants.used]
    rcases (grants.holds r b).mp holds with old | ⟨-, new⟩
    · exact Or.inl (sound.covered old)
    · exact Or.inr new
  exclusive := by
    intro r r' b first second
    rcases (grants.holds r b).mp first with old | ⟨rfl, rfl⟩
    · rcases (grants.holds r' b).mp second with old' | ⟨rfl, rfl⟩
      · exact sound.exclusive old old'
      · exact absurd old (free r)
    · rcases (grants.holds r' b).mp second with old' | ⟨rfl, -⟩
      · exact absurd old' (free r')
      · rfl

theorem Grants.tight (tight : ledger.Tight) : other.Tight := by
  intro b marked
  rcases (grants.used b).mp marked with old | rfl
  · obtain ⟨r, holds⟩ := tight b old
    exact ⟨r, (grants.holds r b).mpr (Or.inl holds)⟩
  · exact ⟨role, (grants.holds role b).mpr (Or.inr ⟨rfl, rfl⟩)⟩

end Grant

structure Moves (ledger other : Ledger R B) (source target : R) : Prop where
  holds : ∀ r b, other.holds r b ↔
    (ledger.holds r b ∧ r ≠ source) ∨ (r = target ∧ ledger.holds source b)
  used : ∀ b, other.used b ↔ ledger.used b

section Move
variable {source target : R} (moves : Moves ledger other source target)

include moves

theorem Moves.sound (sound : ledger.Sound) : other.Sound where
  covered := by
    intro r b holds
    rw [moves.used]
    rcases (moves.holds r b).mp holds with ⟨old, -⟩ | ⟨-, old⟩
    · exact sound.covered old
    · exact sound.covered old
  exclusive := by
    intro r r' b first second
    rcases (moves.holds r b).mp first with ⟨old, different⟩ | ⟨rfl, old⟩
    · rcases (moves.holds r' b).mp second with ⟨old', -⟩ | ⟨rfl, old'⟩
      · exact sound.exclusive old old'
      · exact absurd (sound.exclusive old old') different
    · rcases (moves.holds r' b).mp second with ⟨old', different⟩ | ⟨rfl, -⟩
      · exact absurd (sound.exclusive old' old) different
      · rfl

theorem Moves.tight (tight : ledger.Tight) : other.Tight := by
  intro b marked
  obtain ⟨r, holds⟩ := tight b ((moves.used b).mp marked)
  by_cases same : r = source
  · subst same
    exact ⟨target, (moves.holds target b).mpr (Or.inr ⟨rfl, holds⟩)⟩
  · exact ⟨r, (moves.holds r b).mpr (Or.inl ⟨holds, same⟩)⟩

end Move

/-- The roles in `lost` lose their blocks, which become unused. -/
structure Revokes (ledger other : Ledger R B) (lost : R → Prop) : Prop where
  holds : ∀ r b, other.holds r b ↔ ledger.holds r b ∧ ¬ lost r
  used : ∀ b, other.used b ↔ ledger.used b ∧ ∀ r, lost r → ¬ ledger.holds r b

section Revoke
variable {lost : R → Prop} (revokes : Revokes ledger other lost)

include revokes

theorem Revokes.sound (sound : ledger.Sound) : other.Sound where
  covered := by
    intro r b holds
    obtain ⟨old, kept⟩ := (revokes.holds r b).mp holds
    rw [revokes.used]
    refine ⟨sound.covered old, fun r' gone holds' => ?_⟩
    rw [sound.exclusive holds' old] at gone
    exact kept gone
  exclusive := by
    intro r r' b first second
    exact sound.exclusive ((revokes.holds r b).mp first).1 ((revokes.holds r' b).mp second).1

theorem Revokes.tight (tight : ledger.Tight) : other.Tight := by
  intro b marked
  obtain ⟨old, kept⟩ := (revokes.used b).mp marked
  obtain ⟨r, holds⟩ := tight b old
  exact ⟨r, (revokes.holds r b).mpr ⟨holds, fun gone => kept r gone holds⟩⟩

end Revoke

theorem Sound.pullback {R' : Type} {view : Ledger R' B} (sound : ledger.Sound) (role : R' → R)
    (holds : ∀ {r b}, view.holds r b → ledger.holds (role r) b)
    (used : ∀ {b}, ledger.used b → view.used b)
    (injective : ∀ {r r' b}, view.holds r b → view.holds r' b → role r = role r' → r = r') :
    view.Sound :=
  ⟨fun held => used (sound.covered (holds held)),
    fun first second => injective first second (sound.exclusive (holds first) (holds second))⟩

end Ledger

end Apollo.Lib
