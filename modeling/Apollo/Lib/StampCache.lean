import Mathlib.Order.Basic

/-!
# A cached record with time-stamps

A record has time-stamps in a store and, while it is cached, a copy of them with
one flag for each.  A set flag stands for the current time: it is what a reader
sees, and what a write-back stores.  A write-back clears the flags and leaves the
copy as it is; the record then stays in the cache or is dropped from it.

A record that stays must have been copied at this very moment wherever a flag is
set.  Then neither the stored nor the shown time-stamps ever go back.
-/

set_option autoImplicit false

namespace Apollo.Lib

variable {ι τ : Type}

structure Cached (ι τ : Type) where
  time : ι → τ
  flag : ι → Bool

structure StampCache (ι τ : Type) where
  now : τ
  stored : ι → τ
  cached : Option (Cached ι τ)

def Cached.shown (copy : Cached ι τ) (now : τ) (stamp : ι) : τ := if copy.flag stamp then now else copy.time stamp

def Cached.clear (copy : Cached ι τ) : Cached ι τ := { copy with flag := fun _ => false }

def Cached.Modified (copy : Cached ι τ) : Prop := ∃ stamp, copy.flag stamp = true

namespace StampCache

def shown (record : StampCache ι τ) (stamp : ι) : τ :=
  record.cached.elim (record.stored stamp) (·.shown record.now stamp)

inductive Move [LE τ] (record : StampCache ι τ) : StampCache ι τ → Prop
  | tick {now : τ} (later : record.now ≤ now) : Move record { record with now := now }
  | flag {copy : Cached ι τ} {flags : ι → Bool} (cached : record.cached = some copy)
      (kept : ∀ stamp, copy.flag stamp = true → flags stamp = true) :
      Move record { record with cached := some { copy with flag := flags } }
  | load (absent : record.cached = none) :
      Move record { record with cached := some ⟨record.stored, fun _ => false⟩ }
  | writeBack {copy : Cached ι τ} {stored : ι → τ} (stays : Bool) (cached : record.cached = some copy)
      (written : copy.Modified → stored = copy.shown record.now) (unwritten : ¬ copy.Modified → stored = record.stored)
      (punctual : stays = true → ∀ stamp, copy.flag stamp = true → copy.time stamp = record.now) :
      Move record { record with stored := stored, cached := if stays then some copy.clear else none }

/-- No time-stamp lies behind one that was shown before: the stored ones are not ahead of the copy,
the copy is not ahead of the clock, and an unmodified copy is the stored record. -/
structure InStep [LE τ] (record : StampCache ι τ) : Prop where
  copied : ∀ copy, record.cached = some copy → ∀ stamp,
    record.stored stamp ≤ copy.time stamp ∧ copy.time stamp ≤ record.now
  clean : ∀ copy, record.cached = some copy → ¬ copy.Modified → copy.time = record.stored
  absent : record.cached = none → ∀ stamp, record.stored stamp ≤ record.now

/-- Neither the stored nor the shown time-stamps of `after` are earlier. -/
structure Advances [LE τ] (record after : StampCache ι τ) : Prop where
  stored : ∀ stamp, record.stored stamp ≤ after.stored stamp
  shown : ∀ stamp, record.shown stamp ≤ after.shown stamp

section Shown
variable {record : StampCache ι τ} {copy : Cached ι τ}

theorem shown_cached (cached : record.cached = some copy) (stamp : ι) :
    record.shown stamp = copy.shown record.now stamp := by
  unfold shown
  rw [cached]
  rfl

theorem shown_absent (absent : record.cached = none) (stamp : ι) : record.shown stamp = record.stored stamp := by
  unfold shown
  rw [absent]
  rfl

theorem shown_clean {now : τ} (clean : ¬ copy.Modified) (stamp : ι) : copy.shown now stamp = copy.time stamp := by
  unfold Cached.shown
  rw [if_neg]
  intro set
  exact clean ⟨stamp, set⟩

theorem not_modified_clear : ¬ copy.clear.Modified := by
  rintro ⟨stamp, set⟩
  exact absurd set Bool.false_ne_true

/-- A copy that was made at this moment shows the times that the write-back leaves in it. -/
theorem shown_punctual {now : τ} (punctual : ∀ stamp, copy.flag stamp = true → copy.time stamp = now) (stamp : ι) :
    copy.shown now stamp = copy.time stamp := by
  unfold Cached.shown
  split_ifs with set
  · exact (punctual stamp set).symm
  · rfl

end Shown

section Order
variable [Preorder τ] {record middle after : StampCache ι τ} {copy : Cached ι τ}

theorem Advances.refl (record : StampCache ι τ) : Advances record record :=
  ⟨fun _ => le_refl _, fun _ => le_refl _⟩

theorem Advances.trans (first : Advances record middle) (second : Advances middle after) :
    Advances record after :=
  ⟨fun stamp => (first.stored stamp).trans (second.stored stamp),
    fun stamp => (first.shown stamp).trans (second.shown stamp)⟩

theorem shown_le {now : τ} (copied : ∀ stamp, copy.time stamp ≤ now) (stamp : ι) : copy.shown now stamp ≤ now := by
  unfold Cached.shown
  split_ifs
  · exact le_refl _
  · exact copied stamp

theorem le_shown {now : τ} {time : ι → τ} (stored : ∀ stamp, time stamp ≤ copy.time stamp)
    (copied : ∀ stamp, copy.time stamp ≤ now) (stamp : ι) : time stamp ≤ copy.shown now stamp := by
  unfold Cached.shown
  split_ifs
  · exact (stored stamp).trans (copied stamp)
  · exact stored stamp

theorem InStep.written {stored : ι → τ} (inStep : record.InStep) (cached : record.cached = some copy)
    (written : copy.Modified → stored = copy.shown record.now) (unwritten : ¬ copy.Modified → stored = record.stored) :
    stored = copy.shown record.now := by
  by_cases modified : copy.Modified
  · exact written modified
  · rw [unwritten modified, ← inStep.clean copy cached modified]
    funext stamp
    exact (shown_clean modified stamp).symm

theorem Move.inStep (move : record.Move after) (inStep : record.InStep) : after.InStep := by
  cases move with
  | tick later =>
    refine ⟨?_, inStep.clean, ?_⟩
    · intro copy cached stamp
      obtain ⟨stored, copied⟩ := inStep.copied copy cached stamp
      exact ⟨stored, copied.trans later⟩
    · intro absent stamp
      exact (inStep.absent absent stamp).trans later
  | @flag old flags cached kept =>
    refine ⟨?_, ?_, ?_⟩
    · intro copy new
      rw [← Option.some.inj new]
      exact inStep.copied old cached
    · intro copy new clean
      rw [← Option.some.inj new] at clean ⊢
      refine inStep.clean old cached ?_
      rintro ⟨stamp, set⟩
      exact clean ⟨stamp, kept stamp set⟩
    · intro absent
      simp at absent
  | load absent =>
    refine ⟨?_, ?_, ?_⟩
    · intro copy new stamp
      rw [← Option.some.inj new]
      exact ⟨le_refl _, inStep.absent absent stamp⟩
    · intro copy new _
      rw [← Option.some.inj new]
    · intro absent
      simp at absent
  | @writeBack old stored stays cached written unwritten punctual =>
    have shown := inStep.written cached written unwritten
    cases stays with
    | false =>
      refine ⟨fun copy new => by simp at new, fun copy new => by simp at new, ?_⟩
      intro _ stamp
      rw [shown]
      exact shown_le (fun stamp => (inStep.copied old cached stamp).2) stamp
    | true =>
      have same : stored = old.time := by
        rw [shown]
        funext stamp
        exact shown_punctual (punctual rfl) stamp
      refine ⟨?_, ?_, fun absent => by simp at absent⟩
      · intro copy new stamp
        rw [← Option.some.inj new]
        rw [same]
        exact ⟨le_refl _, (inStep.copied old cached stamp).2⟩
      · intro copy new _
        rw [← Option.some.inj new]
        exact same.symm

theorem Move.advances (move : record.Move after) (inStep : record.InStep) : Advances record after := by
  cases move with
  | @tick now later =>
    refine ⟨fun _ => le_refl _, ?_⟩
    intro stamp
    unfold shown
    cases record.cached with
    | none => exact le_refl _
    | some copy =>
      change copy.shown record.now stamp ≤ copy.shown now stamp
      unfold Cached.shown
      split_ifs
      · exact later
      · exact le_refl _
  | @flag old flags cached kept =>
    refine ⟨fun _ => le_refl _, ?_⟩
    intro stamp
    rw [shown_cached cached, shown_cached rfl]
    unfold Cached.shown
    by_cases set : old.flag stamp = true
    · rw [if_pos set, if_pos (kept stamp set)]
    · split_ifs
      · exact (inStep.copied old cached stamp).2
      · exact le_refl _
  | load absent =>
    refine ⟨fun _ => le_refl _, ?_⟩
    intro stamp
    rw [shown_absent absent, shown_cached rfl]
    exact le_refl _
  | @writeBack old stored stays cached written unwritten punctual =>
    have shown := inStep.written cached written unwritten
    refine ⟨?_, ?_⟩
    · intro stamp
      rw [shown]
      exact le_shown (fun stamp => (inStep.copied old cached stamp).1)
        (fun stamp => (inStep.copied old cached stamp).2) stamp
    · intro stamp
      rw [shown_cached cached]
      cases stays with
      | false =>
        rw [shown_absent rfl]
        rw [shown]
      | true =>
        rw [shown_cached rfl, shown_punctual (punctual rfl),
          shown_clean not_modified_clear]
        exact le_refl _

end Order

end StampCache

end Apollo.Lib
