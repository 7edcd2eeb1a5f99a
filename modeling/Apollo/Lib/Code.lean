import Mathlib.Logic.Basic

/-!
# Sequential code over an explicit state

A call that runs to its end returns a value or an error, and in both cases the
state it leaves behind is the one the caller goes on with: an error does not
roll anything back.  `fault` is a call that does not return, because it
followed a null pointer, left the bounds of a buffer or failed an assertion.

`Spec pre code post error` speaks about the calls that return.  `Safe` says
that none of them faults.
-/

set_option autoImplicit false

namespace Apollo.Lib

inductive Outcome (σ ε α : Type) where
  | ok (value : α) (state : σ)
  | err (error : ε) (state : σ)
  | fault
  deriving DecidableEq

/-- The state that the caller of a call goes on with. -/
def Outcome.state? {σ ε α : Type} : Outcome σ ε α → Option σ
  | .ok _ state => some state
  | .err _ state => some state
  | .fault => none

def Outcome.value? {σ ε α : Type} : Outcome σ ε α → Option α
  | .ok value _ => some value
  | .err _ _ => none
  | .fault => none

def Outcome.returned? {σ ε α : Type} : Outcome σ ε α → Option (Except ε α × σ)
  | .ok value state => some (.ok value, state)
  | .err error state => some (.error error, state)
  | .fault => none

/-- The same call, whose caller goes on with another state. -/
def Outcome.mapState {σ ε α : Type} (change : σ → σ) : Outcome σ ε α → Outcome σ ε α
  | .ok value state => .ok value (change state)
  | .err error state => .err error (change state)
  | .fault => .fault

theorem Outcome.eq_ok {σ ε α : Type} {outcome : Outcome σ ε α} {value : α}
    (returned : outcome.value? = some value) (default : σ) :
    outcome = .ok value (outcome.state?.getD default) := by
  cases outcome with
  | ok result state =>
    simp only [value?, Option.some.injEq] at returned
    rw [returned]
    rfl
  | err error state => simp [value?] at returned
  | fault => simp [value?] at returned

def Code (σ ε α : Type) : Type := σ → Outcome σ ε α

namespace Code

variable {σ ε α β : Type}

instance : Monad (Code σ ε) where
  pure value := fun state => .ok value state
  bind code next := fun state =>
    match code state with
    | .ok value state => next value state
    | .err error state => .err error state
    | .fault => .fault

def throw (error : ε) : Code σ ε α := fun state => .err error state

def fault : Code σ ε α := fun _ => .fault

def get : Code σ ε σ := fun state => .ok state state

def modify (change : σ → σ) : Code σ ε Unit := fun state => .ok () (change state)

/-- The error of `code` as a value, for callers that look at it themselves. -/
def attempt (code : Code σ ε α) : Code σ ε (Except ε α) := fun state =>
  match code state with
  | .ok value state => .ok (.ok value) state
  | .err error state => .ok (.error error) state
  | .fault => .fault

/-- `code` with a clean-up that runs before its error is passed on. -/
def onError (code : Code σ ε α) (cleanup : Code σ ε Unit) : Code σ ε α := fun state =>
  match code state with
  | .ok value state => .ok value state
  | .err error state =>
    match cleanup state with
    | .ok _ state => .err error state
    | .err _ state => .err error state
    | .fault => .fault
  | .fault => .fault

@[simp] theorem pure_apply (value : α) (state : σ) :
    (pure value : Code σ ε α) state = .ok value state := rfl

@[simp] theorem throw_apply (error : ε) (state : σ) :
    (throw error : Code σ ε α) state = .err error state := rfl

@[simp] theorem fault_apply (state : σ) : (fault : Code σ ε α) state = .fault := rfl

@[simp] theorem get_apply (state : σ) : (get : Code σ ε σ) state = .ok state state := rfl

@[simp] theorem modify_apply (change : σ → σ) (state : σ) :
    (modify change : Code σ ε Unit) state = .ok () (change state) := rfl

theorem bind_apply (code : Code σ ε α) (next : α → Code σ ε β) (state : σ) :
    (code >>= next) state =
      match code state with
      | .ok value state => next value state
      | .err error state => .err error state
      | .fault => .fault := rfl

theorem bind_of_ok {code : Code σ ε α} {state after : σ} {value : α}
    (returns : code state = .ok value after) (next : α → Code σ ε β) :
    (code >>= next) state = next value after := by
  rw [bind_apply, returns]

theorem bind_of_err {code : Code σ ε α} {state after : σ} {error : ε}
    (fails : code state = .err error after) (next : α → Code σ ε β) :
    (code >>= next) state = .err error after := by
  rw [bind_apply, fails]

theorem bind_of_fault {code : Code σ ε α} {state : σ}
    (stops : code state = .fault) (next : α → Code σ ε β) :
    (code >>= next) state = .fault := by
  rw [bind_apply, stops]

theorem bind_eq_ok {code : Code σ ε α} {next : α → Code σ ε β} {state final : σ}
    {result : β} :
    (code >>= next) state = .ok result final ↔
      ∃ value middle, code state = .ok value middle ∧ next value middle = .ok result final := by
  rw [bind_apply]
  constructor
  · intro returns
    cases call : code state with
    | ok value middle =>
      rw [call] at returns
      exact ⟨value, middle, rfl, returns⟩
    | err error after => simp [call] at returns
    | fault => simp [call] at returns
  · rintro ⟨value, middle, first, rest⟩
    rw [first]
    exact rest

theorem bind_assoc {γ : Type} (code : Code σ ε α) (next : α → Code σ ε β) (last : β → Code σ ε γ) :
    code >>= next >>= last = code >>= fun value => next value >>= last := by
  funext state
  simp only [bind_apply]
  cases code state <;> rfl

end Code

/-! ## Pre- and postconditions -/

def Outcome.Returned {σ ε α : Type} (post : α → σ → Prop) (error : ε → σ → Prop) :
    Outcome σ ε α → Prop
  | .ok value state => post value state
  | .err reason state => error reason state
  | .fault => True

theorem Outcome.Returned.mono {σ ε α : Type} {post post' : α → σ → Prop} {error error' : ε → σ → Prop}
    {outcome : Outcome σ ε α} (after : ∀ value state, post value state → post' value state)
    (failed : ∀ reason state, error reason state → error' reason state)
    (returned : outcome.Returned post error) : outcome.Returned post' error' := by
  cases outcome with
  | ok value state => exact after value state returned
  | err reason state => exact failed reason state returned
  | fault => trivial

/-- What holds however the code returns holds in the state it leaves. -/
theorem Outcome.Returned.of_state {σ ε α : Type} {post : σ → Prop} {outcome : Outcome σ ε α} {after : σ}
    (returned : outcome.Returned (fun _ => post) fun _ => post) (ends : outcome.state? = some after) :
    post after := by
  cases outcome with
  | fault => simp [Outcome.state?] at ends
  | ok value state =>
    rw [← Option.some.inj ends]
    exact returned
  | err reason state =>
    rw [← Option.some.inj ends]
    exact returned

theorem Outcome.Returned.and {σ ε α : Type} {post post' : α → σ → Prop} {error error' : ε → σ → Prop}
    {outcome : Outcome σ ε α} (first : outcome.Returned post error) (second : outcome.Returned post' error') :
    outcome.Returned (fun value state => post value state ∧ post' value state)
      fun reason state => error reason state ∧ error' reason state := by
  cases outcome with
  | ok value state => exact ⟨first, second⟩
  | err reason state => exact ⟨first, second⟩
  | fault => trivial

namespace Code

variable {σ ε α β : Type}

def Spec (pre : σ → Prop) (code : Code σ ε α) (post : α → σ → Prop)
    (error : ε → σ → Prop) : Prop :=
  ∀ state, pre state → (code state).Returned post error

variable {pre : σ → Prop} {middle : α → σ → Prop}

theorem spec_pure {value : α} {post : α → σ → Prop} {error : ε → σ → Prop}
    (entails : ∀ state, pre state → post value state) :
    Spec pre (pure value : Code σ ε α) post error := entails

theorem returned_bind {code : Code σ ε α} {next : α → Code σ ε β} {state : σ}
    {post : β → σ → Prop} {error : ε → σ → Prop} (first : (code state).Returned middle error)
    (rest : ∀ value after, middle value after → (next value after).Returned post error) :
    ((code >>= next) state).Returned post error := by
  rw [bind_apply]
  cases call : code state with
  | ok value after =>
    rw [call] at first
    exact rest value after first
  | err reason after =>
    rw [call] at first
    exact first
  | fault => trivial

theorem spec_bind {code : Code σ ε α} {next : α → Code σ ε β} {post : β → σ → Prop} {error : ε → σ → Prop}
    (first : Spec pre code middle error)
    (rest : ∀ value, Spec (middle value) (next value) post error) :
    Spec pre (code >>= next) post error := by
  intro state holds
  exact returned_bind (first state holds) rest

theorem spec_weaken {pre' : σ → Prop} {code : Code σ ε α} {post post' : α → σ → Prop}
    {error error' : ε → σ → Prop} (spec : Spec pre' code post' error')
    (before : ∀ state, pre state → pre' state)
    (after : ∀ value state, post' value state → post value state)
    (failed : ∀ reason state, error' reason state → error reason state) :
    Spec pre code post error := by
  intro state holds
  exact (spec state (before state holds)).mono after failed

theorem spec_attempt {code : Code σ ε α} {post : Except ε α → σ → Prop}
    {error : ε → σ → Prop}
    (spec : Spec pre code (fun value => post (.ok value)) (fun reason => post (.error reason))) :
    Spec pre (attempt code) post error := by
  intro state holds
  have returned := spec state holds
  unfold attempt
  cases call : code state with
  | ok value after =>
    rw [call] at returned
    exact returned
  | err reason after =>
    rw [call] at returned
    exact returned
  | fault => trivial

theorem spec_onError {code : Code σ ε α} {cleanup : Code σ ε Unit}
    {post : α → σ → Prop} {middle error : ε → σ → Prop}
    (spec : Spec pre code post middle)
    (cleans : ∀ reason, Spec (middle reason) cleanup
      (fun _ => error reason) (fun _ => error reason)) :
    Spec pre (onError code cleanup) post error := by
  intro state holds
  have returned := spec state holds
  unfold onError
  cases call : code state with
  | ok value after =>
    rw [call] at returned
    exact returned
  | err reason after =>
    rw [call] at returned
    have cleaned := cleans reason after returned
    simp only
    cases clean : cleanup after with
    | ok value final =>
      rw [clean] at cleaned
      exact cleaned
    | err other final =>
      rw [clean] at cleaned
      exact cleaned
    | fault => trivial
  | fault => trivial

/-! ## What a call keeps -/

/-- The call keeps `inv`, whether it succeeds or fails. -/
def Keeps (inv : σ → Prop) (code : Code σ ε α) : Prop :=
  Spec inv code (fun _ => inv) (fun _ => inv)

section Keeps
variable {inv : σ → Prop} {code : Code σ ε α}

theorem Keeps.of_state (keeps : Keeps inv code) {state after : σ} (holds : inv state)
    (goesOn : (code state).state? = some after) : inv after :=
  (keeps state holds).of_state goesOn

theorem keeps_pure (value : α) : Keeps inv (pure value : Code σ ε α) := fun _ holds => holds

theorem keeps_throw (error : ε) : Keeps inv (throw error : Code σ ε α) := fun _ holds => holds

theorem keeps_fault : Keeps inv (fault : Code σ ε α) := fun _ _ => trivial

theorem keeps_get : Keeps inv (get : Code σ ε σ) := fun _ holds => holds

theorem keeps_modify {change : σ → σ} (kept : ∀ state, inv state → inv (change state)) :
    Keeps inv (modify change : Code σ ε Unit) := kept

theorem keeps_bind {next : α → Code σ ε β} (first : Keeps inv code)
    (rest : ∀ value, Keeps inv (next value)) : Keeps inv (code >>= next) := spec_bind first rest

theorem keeps_ite {condition : Prop} [Decidable condition] {other : Code σ ε α}
    (holds : condition → Keeps inv code) (fails : ¬ condition → Keeps inv other) :
    Keeps inv (if condition then code else other) := by
  by_cases decided : condition
  · rw [if_pos decided]
    exact holds decided
  · rw [if_neg decided]
    exact fails decided

theorem keeps_attempt (keeps : Keeps inv code) : Keeps inv (attempt code) := spec_attempt keeps

theorem keeps_onError {cleanup : Code σ ε Unit} (keeps : Keeps inv code)
    (cleans : Keeps inv cleanup) : Keeps inv (onError code cleanup) :=
  spec_onError keeps fun _ => cleans

end Keeps

end Code

/-! ## Calls that return -/

/-- The call returns as described; it fails to return only where `stuck` allows. -/
def Outcome.Ends {σ ε α : Type} (stuck : Prop) (post : α → σ → Prop) (error : ε → σ → Prop) :
    Outcome σ ε α → Prop
  | .ok value state => post value state
  | .err reason state => error reason state
  | .fault => stuck

namespace Code

variable {σ ε α β : Type} {stuck : Prop} {code : Code σ ε α} {state : σ}

theorem ends_mono {post post' : α → σ → Prop} {error error' : ε → σ → Prop} {outcome : Outcome σ ε α}
    (ends : outcome.Ends stuck post error) (after : ∀ value state, post value state → post' value state)
    (failed : ∀ reason state, error reason state → error' reason state) :
    outcome.Ends stuck post' error' := by
  cases outcome with
  | ok value state => exact after value state ends
  | err reason state => exact failed reason state ends
  | fault => exact ends

theorem ends_weaken {stuck' : Prop} {post : α → σ → Prop} {error : ε → σ → Prop} {outcome : Outcome σ ε α}
    (ends : outcome.Ends stuck post error) (weaker : stuck → stuck') : outcome.Ends stuck' post error := by
  cases outcome with
  | ok value state => exact ends
  | err reason state => exact ends
  | fault => exact weaker ends

theorem ends_bind {next : α → Code σ ε β} {middle : α → σ → Prop} {post : β → σ → Prop}
    {error : ε → σ → Prop} (first : (code state).Ends stuck middle error)
    (rest : ∀ value after, middle value after → (next value after).Ends stuck post error) :
    ((code >>= next) state).Ends stuck post error := by
  rw [bind_apply]
  cases call : code state with
  | ok value after =>
    rw [call] at first
    exact rest value after first
  | err reason after =>
    rw [call] at first
    exact first
  | fault =>
    rw [call] at first
    exact first

theorem ends_attempt {post : Except ε α → σ → Prop} {error : ε → σ → Prop}
    (ends : (code state).Ends stuck (fun value => post (.ok value)) fun reason => post (.error reason)) :
    (attempt code state).Ends stuck post error := by
  unfold attempt
  cases call : code state with
  | ok value after =>
    rw [call] at ends
    exact ends
  | err reason after =>
    rw [call] at ends
    exact ends
  | fault =>
    rw [call] at ends
    exact ends

theorem ends_onError {cleanup : Code σ ε Unit} {post : α → σ → Prop} {error : ε → σ → Prop}
    (middle : ε → σ → Prop) (ends : (code state).Ends stuck post middle)
    (cleans : ∀ reason after, middle reason after →
      (cleanup after).Ends stuck (fun _ => error reason) fun _ => error reason) :
    (onError code cleanup state).Ends stuck post error := by
  unfold onError
  cases call : code state with
  | ok value after =>
    rw [call] at ends
    exact ends
  | err reason after =>
    rw [call] at ends
    have cleaned := cleans reason after ends
    simp only
    cases clean : cleanup after with
    | ok value final =>
      rw [clean] at cleaned
      exact cleaned
    | err other final =>
      rw [clean] at cleaned
      exact cleaned
    | fault =>
      rw [clean] at cleaned
      exact cleaned
  | fault =>
    rw [call] at ends
    exact ends

end Code

end Apollo.Lib
