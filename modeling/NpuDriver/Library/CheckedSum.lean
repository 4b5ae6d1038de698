import Mathlib.Order.Lattice
import Mathlib.Algebra.Order.Group.Int

/-! Additions of integers that fail where the sum leaves a range, and such that stay at its upper end. -/

namespace NpuDriver.Library

variable {lower upper left right sum : Int}

/-- The exact sum, or `none` where it is outside of the range. -/
def checkedAdd (lower upper left right : Int) : Option Int :=
  if lower ≤ left + right ∧ left + right ≤ upper then some (left + right) else none

theorem checkedAdd_eq_some :
    checkedAdd lower upper left right = some sum ↔ left + right = sum ∧ lower ≤ sum ∧ sum ≤ upper := by
  rw [checkedAdd]
  constructor
  · intro added
    split at added
    · rename_i inside
      cases added
      exact ⟨rfl, inside⟩
    · cases added
  · intro ⟨exactly, inside⟩
    rw [exactly, if_pos inside]

theorem checkedAdd_eq_none (above : lower ≤ left + right) :
    checkedAdd lower upper left right = none ↔ upper < left + right := by
  rw [checkedAdd, ite_eq_right_iff]
  constructor
  · intro outside
    by_contra inside
    cases outside ⟨above, Int.not_lt.mp inside⟩
  · intro beyond inside
    exact absurd inside.2 (Int.not_le.mpr beyond)

theorem checkedAdd_comm : checkedAdd lower upper left right = checkedAdd lower upper right left := by
  rw [checkedAdd, checkedAdd, Int.add_comm]

/-- The sum, or the upper end of the range where it would be larger. -/
def saturatingAdd (upper left right : Int) : Int := min upper (left + right)

theorem saturatingAdd_of_le (fits : left + right ≤ upper) : saturatingAdd upper left right = left + right :=
  min_eq_right fits

theorem saturatingAdd_of_ge (large : upper ≤ left + right) : saturatingAdd upper left right = upper :=
  min_eq_left large

theorem saturatingAdd_mono (shorter : right ≤ longer) :
    saturatingAdd upper left right ≤ saturatingAdd upper left longer :=
  min_le_min_left upper (Int.add_le_add_left shorter left)

/-- Nothing below the upper end moves down. -/
theorem le_saturatingAdd (inside : left ≤ upper) (later : 0 ≤ right) : left ≤ saturatingAdd upper left right :=
  le_min inside (Int.le_add_of_nonneg_right later)

end NpuDriver.Library
