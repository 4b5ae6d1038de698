import Mathlib.Data.List.Basic

/-! Runs of a system that is driven by a series of actions, each subject to a guard on the
state it meets. -/

namespace NpuDriver.Library

variable {State Action : Type}

/-- The state that a series of actions leads to. -/
def runFrom (step : State → Action → State) (start : State) (actions : List Action) : State :=
  actions.foldl step start

/-- Every action of the series satisfies the guard in the state in which it is taken. -/
def Guarded (step : State → Action → State) (guard : State → Action → Prop) :
    State → List Action → Prop
  | _, [] => True
  | state, action :: rest => guard state action ∧ Guarded step guard (step state action) rest

instance instDecidableGuarded (step : State → Action → State) (guard : State → Action → Prop)
    [allowed : ∀ state action, Decidable (guard state action)] :
    (start : State) → (actions : List Action) → Decidable (Guarded step guard start actions)
  | _, [] => instDecidableTrue
  | start, action :: rest =>
    have := instDecidableGuarded step guard (step start action) rest
    inferInstanceAs (Decidable (guard start action ∧ Guarded step guard (step start action) rest))

variable {step : State → Action → State} {guard : State → Action → Prop} {start : State}

@[simp] theorem runFrom_nil : runFrom step start [] = start := rfl

theorem runFrom_append (first second : List Action) :
    runFrom step start (first ++ second) = runFrom step (runFrom step start first) second := by
  simp [runFrom]

theorem guarded_append {first second : List Action} :
    Guarded step guard start (first ++ second) ↔
      Guarded step guard start first ∧ Guarded step guard (runFrom step start first) second := by
  induction first generalizing start with
  | nil => simp [Guarded]
  | cons action rest ih =>
    have tail : Guarded step guard (step start action) (rest ++ second) ↔
        Guarded step guard (step start action) rest ∧
          Guarded step guard (runFrom step (step start action) rest) second := ih
    change guard start action ∧ Guarded step guard (step start action) (rest ++ second) ↔ _
    rw [tail, ← and_assoc]
    rfl

/-- Two guards are kept together when each is. -/
theorem guarded_and {first second : State → Action → Prop} {actions : List Action} :
    Guarded step (fun state action => first state action ∧ second state action) start actions ↔
      Guarded step first start actions ∧ Guarded step second start actions := by
  induction actions generalizing start with
  | nil => simp [Guarded]
  | cons action rest ih =>
    rw [Guarded, Guarded, Guarded, ih]
    constructor
    · rintro ⟨⟨left, right⟩, lefts, rights⟩
      exact ⟨⟨left, lefts⟩, right, rights⟩
    · rintro ⟨⟨left, lefts⟩, right, rights⟩
      exact ⟨⟨left, right⟩, lefts, rights⟩

/-- A property that every guarded action keeps holds at the end of every guarded run. -/
theorem guarded_invariant {Invariant : State → Prop}
    (keeps : ∀ state action, Invariant state → guard state action → Invariant (step state action))
    (initial : Invariant start) {actions : List Action} (guarded : Guarded step guard start actions) :
    Invariant (runFrom step start actions) := by
  induction actions generalizing start with
  | nil => exact initial
  | cons action rest ih =>
    obtain ⟨allowed, others⟩ := guarded
    exact ih (keeps start action initial allowed) others

/-- A property that every action keeps holds at the end of every run. -/
theorem run_invariant {Invariant : State → Prop}
    (keeps : ∀ state action, Invariant state → Invariant (step state action))
    (initial : Invariant start) (actions : List Action) : Invariant (runFrom step start actions) := by
  induction actions generalizing start with
  | nil => exact initial
  | cons action rest ih => exact ih (keeps start action initial)

/-- What the invariant and the guard promise of one action holds of the last action of every
guarded run. -/
theorem guarded_last {Invariant : State → Prop} {Promise : State → Action → Prop}
    (keeps : ∀ state action, Invariant state → guard state action → Invariant (step state action))
    (promises : ∀ state action, Invariant state → guard state action → Promise state action)
    (initial : Invariant start) {actions : List Action} {action : Action}
    (guarded : Guarded step guard start (actions ++ [action])) :
    Promise (runFrom step start actions) action := by
  obtain ⟨before, last, -⟩ := guarded_append.mp guarded
  exact promises _ _ (guarded_invariant keeps initial before) last

end NpuDriver.Library
