import NpuDriver.Library.Runs

/-! Machines that answer every action, and one that is observed to behave as another. -/

namespace NpuDriver.Library

variable {State Model Action Answer : Type}

/-- The answers to a series of actions. -/
def answers (step : State → Action → Answer × State) : State → List Action → List Answer
  | _, [] => []
  | state, action :: rest => (step state action).1 :: answers step (step state action).2 rest

/-- The state behind a series of actions. -/
def final (step : State → Action → Answer × State) (start : State) (actions : List Action) : State :=
  runFrom (fun state action => (step state action).2) start actions

variable {step : State → Action → Answer × State} {spec : Model → Action → Answer × Model}
variable {guard : State → Action → Prop} {related : State → Model → Prop}

/-- Related states answer a permitted action alike, and stay related. -/
def Simulates (step : State → Action → Answer × State) (spec : Model → Action → Answer × Model)
    (guard : State → Action → Prop) (related : State → Model → Prop) : Prop :=
  ∀ state model action, related state model → guard state action →
    (step state action).1 = (spec model action).1 ∧ related (step state action).2 (spec model action).2

/-- Nobody who only sees the answers can tell the two machines apart. -/
theorem Simulates.answers_eq (simulates : Simulates step spec guard related) {start : State} {model : Model}
    (initial : related start model) {actions : List Action}
    (guarded : Guarded (fun state action => (step state action).2) guard start actions) :
    answers step start actions = answers spec model actions := by
  induction actions generalizing start model with
  | nil => rfl
  | cons action rest ih =>
    obtain ⟨allowed, others⟩ := guarded
    obtain ⟨same, next⟩ := simulates start model action initial allowed
    rw [answers, answers, same, ih next others]

theorem Simulates.related_final (simulates : Simulates step spec guard related) {start : State} {model : Model}
    (initial : related start model) {actions : List Action}
    (guarded : Guarded (fun state action => (step state action).2) guard start actions) :
    related (final step start actions) (final spec model actions) := by
  induction actions generalizing start model with
  | nil => exact initial
  | cons action rest ih =>
    obtain ⟨allowed, others⟩ := guarded
    exact ih (simulates start model action initial allowed).2 others

/-- Without a guard every run is permitted. -/
theorem guarded_true {move : State → Action → State} (start : State) (actions : List Action) :
    Guarded move (fun _ _ => True) start actions := by
  induction actions generalizing start with
  | nil => trivial
  | cons action rest ih => exact ⟨trivial, ih _⟩

end NpuDriver.Library
