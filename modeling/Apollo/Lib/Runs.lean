import Mathlib.Logic.Basic

/-!
# Runs of a labelled transition system

A run is a sequence of steps from a start state.  Its labels are kept newest
first, and every label of a run is available to an invariant that speaks about
the history.
-/

set_option autoImplicit false

namespace Apollo.Lib

variable {σ ι : Type}

inductive Runs (step : σ → ι → σ → Prop) (start : σ) : List ι → σ → Prop
  | nil : Runs step start [] start
  | step {labels : List ι} {label : ι} {state after : σ} (run : Runs step start labels state)
      (taken : step state label after) : Runs step start (label :: labels) after

namespace Runs

variable {step step' : σ → ι → σ → Prop} {start state : σ} {labels : List ι}

/-- What holds at the start and is kept by every step holds in every state that
is reached; it may speak about the labels so far. -/
theorem history (inv : List ι → σ → Prop) (initial : inv [] start)
    (kept : ∀ labels label state after, Runs step start labels state → inv labels state →
      step state label after → inv (label :: labels) after)
    (run : Runs step start labels state) : inv labels state := by
  induction run with
  | nil => exact initial
  | step run taken ih => exact kept _ _ _ _ run ih taken

theorem invariant (inv : σ → Prop) (initial : inv start)
    (kept : ∀ label state after, inv state → step state label after → inv after)
    (run : Runs step start labels state) : inv state := by
  refine history (fun _ => inv) initial ?_ run
  intro labels label state after _ holds taken
  exact kept label state after holds taken

theorem mono (weaker : ∀ label state after, step state label after → step' state label after)
    (run : Runs step start labels state) : Runs step' start labels state := by
  induction run with
  | nil => exact .nil
  | step run taken ih => exact .step ih (weaker _ _ _ taken)

end Runs

def performAll (perform : σ → ι → Option σ) : List ι → σ → Option σ
  | [], state => some state
  | label :: rest, state => (perform state label).bind (performAll perform rest)

theorem Runs.performAll_labels {perform : σ → ι → Option σ} {step : σ → ι → σ → Prop}
    (taken : ∀ state label after, perform state label = some after → step state label after)
    {labels done : List ι} {start state last : σ} (run : Runs step start done state)
    (performs : Lib.performAll perform labels state = some last) : Runs step start (labels.reverse ++ done) last := by
  induction labels generalizing done state with
  | nil =>
    rw [← Option.some.inj performs]
    exact run
  | cons label rest ih =>
    obtain ⟨next, enabled, later⟩ := Option.bind_eq_some_iff.mp performs
    rw [List.reverse_cons, List.append_assoc, List.singleton_append]
    exact ih (run.step (taken _ _ _ enabled)) later

theorem Runs.performAll {perform : σ → ι → Option σ} {step : σ → ι → σ → Prop}
    (taken : ∀ state label after, perform state label = some after → step state label after)
    {labels done : List ι} {start state last : σ} (run : Runs step start done state)
    (performs : Lib.performAll perform labels state = some last) : ∃ all, Runs step start all last :=
  ⟨_, run.performAll_labels taken performs⟩

section Replies
variable {ρ β : Type}

def replyAll (perform : σ → ρ → Option (β × σ)) : List ρ → σ → Option σ
  | [], state => some state
  | request :: rest, state => (perform state request).bind fun result => replyAll perform rest result.2

/-- Requests that can be performed extend a run whose labels have the replies. -/
theorem Runs.replyAll_requests {perform : σ → ρ → Option (β × σ)} {step : σ → ρ × β → σ → Prop}
    (taken : ∀ state request reply after, perform state request = some (reply, after) →
      step state (request, reply) after)
    {requests : List ρ} {done : List (ρ × β)} {start state last : σ} (run : Runs step start done state)
    (performs : Lib.replyAll perform requests state = some last) :
    ∃ new, Runs step start (new ++ done) last ∧ new.map Prod.fst = requests.reverse := by
  induction requests generalizing done state with
  | nil =>
    rw [← Option.some.inj performs]
    exact ⟨[], run, rfl⟩
  | cons request rest ih =>
    obtain ⟨⟨reply, next⟩, enabled, later⟩ := Option.bind_eq_some_iff.mp performs
    obtain ⟨new, run, requests⟩ := ih (run.step (taken _ _ _ _ enabled)) later
    refine ⟨new ++ [(request, reply)], by rwa [List.append_assoc, List.singleton_append], ?_⟩
    rw [List.map_append, requests, List.reverse_cons]
    rfl

theorem Runs.replyAll {perform : σ → ρ → Option (β × σ)} {step : σ → ρ × β → σ → Prop}
    (taken : ∀ state request reply after, perform state request = some (reply, after) →
      step state (request, reply) after)
    {requests : List ρ} {done : List (ρ × β)} {start state last : σ} (run : Runs step start done state)
    (performs : Lib.replyAll perform requests state = some last) : ∃ all, Runs step start all last :=
  have ⟨new, run, _⟩ := run.replyAll_requests taken performs
  ⟨new ++ done, run⟩

end Replies

end Apollo.Lib
