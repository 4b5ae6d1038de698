import Mathlib.Order.MinMax

/-! The largest value of a sequence, beside the last one. -/

namespace NpuDriver.Library

variable {Value : Type} [LinearOrder Value] {start bound value : Value} {values : List Value}

/-- The largest of a start and the values after it. -/
def highWater (start : Value) (values : List Value) : Value := values.foldl max start

@[simp] theorem highWater_append (start : Value) (values : List Value) (value : Value) :
    highWater start (values ++ [value]) = max (highWater start values) value := by
  rw [highWater, List.foldl_append, highWater]
  rfl

theorem le_highWater : bound ≤ highWater start values ↔ bound ≤ start ∨ ∃ value ∈ values, bound ≤ value := by
  induction values generalizing start with
  | nil => simp [highWater]
  | cons value rest ih =>
    have next : highWater start (value :: rest) = highWater (max start value) rest := rfl
    rw [next, ih, le_max_iff, or_assoc]
    simp only [List.mem_cons, exists_eq_or_imp]

end NpuDriver.Library
