import NpuDriver.Library.Runs
import Mathlib.Algebra.BigOperators.Group.List.Basic
import Mathlib.Data.List.Nodup

/-! Counters of what is alive, and how far they drift from it. -/

namespace NpuDriver.Library

variable {State Action Weight Object Name : Type} [AddCommGroup Weight]
variable {step : State → Action → State} {slip : State → Action → Weight}

/-- What the actions of a run add to a difference. -/
def drift (step : State → Action → State) (slip : State → Action → Weight) : State → List Action → Weight
  | _, [] => 0
  | state, action :: rest => slip state action + drift step slip (step state action) rest

/-- A difference that each action moves by its slip has moved by the drift of the run. -/
theorem gap_runFrom (gap : State → Weight) {Invariant : State → Prop}
    (keeps : ∀ state action, Invariant state → Invariant (step state action))
    (moves : ∀ state action, Invariant state → gap (step state action) = gap state + slip state action)
    {start : State} (initial : Invariant start) (actions : List Action) :
    gap (runFrom step start actions) = gap start + drift step slip start actions := by
  induction actions generalizing start with
  | nil => exact (add_zero _).symm
  | cons action rest ih =>
    have behind := ih (keeps start action initial)
    rw [moves start action initial, add_assoc] at behind
    exact behind

/-- The object of a name takes its weight along. -/
theorem sum_without [DecidableEq Name] (name : Object → Name) (weight : Object → Weight) {objects : List Object}
    {object : Object} (distinct : (objects.map name).Nodup) (member : object ∈ objects) :
    (objects.map weight).sum =
      weight object + ((objects.filter fun other => name other ≠ name object).map weight).sum := by
  induction objects with
  | nil => cases member
  | cons first rest ih =>
    obtain ⟨fresh, others⟩ := List.nodup_cons.mp distinct
    rw [List.map_cons, List.sum_cons]
    rcases List.mem_cons.mp member with rfl | behind
    · have all : (rest.filter fun other => name other ≠ name object) = rest := by
        rw [List.filter_eq_self]
        intro other inside
        have apart : name other ≠ name object := fun same => fresh (same ▸ List.mem_map_of_mem inside)
        simpa using apart
      rw [List.filter_cons_of_neg (by simp), all]
    · have apart : name first ≠ name object := fun same => fresh (same ▸ List.mem_map_of_mem behind)
      rw [List.filter_cons_of_pos (by simpa using apart), List.map_cons, List.sum_cons, ih others behind, add_left_comm]

end NpuDriver.Library
