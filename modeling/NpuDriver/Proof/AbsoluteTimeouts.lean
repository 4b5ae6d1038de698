import NpuDriver.Device.Timer

/-! When the deadline of a wait is the time from now on that was asked for. -/

namespace NpuDriver

open Library

variable {now : Int} {userTimeout : Nat}

/-- The deadline that a timeout asks for: the end of the clock where it lies beyond. It is not before now, and
no shorter timeout has a later one. -/
structure IsDeadline (now : Int) (userTimeout : Nat) (deadline : Int) : Prop where
  saturated : deadline = saturatingAdd INT64_MAX now userTimeout
  nonnegative : 0 ≤ deadline
  notEarlier : now ≤ deadline
  monotone : ∀ shorter ≤ userTimeout, ∀ earlier,
    getAbsoluteTimeoutNanoseconds now shorter = some earlier → earlier ≤ deadline

/-- A timeout from the end of the clock on is never added to the time. -/
theorem getAbsoluteTimeoutNanoseconds_of_ge (infinite : INT64_MAX ≤ userTimeout) :
    getAbsoluteTimeoutNanoseconds now userTimeout = some (INT64_MAX : Int) := by
  have clipped : (INT64_MAX : Int) ≤ if userTimeout > INT64_MAX then (INT64_MAX : Int) else userTimeout := by
    split
    · exact Int.le_refl _
    · exact Int.ofNat_le.mpr infinite
  exact if_pos clipped

/-- Below it, the guard adds first. -/
theorem getAbsoluteTimeoutNanoseconds_of_lt (finite : userTimeout < INT64_MAX) :
    getAbsoluteTimeoutNanoseconds now userTimeout =
      (addInt64 userTimeout now).bind fun timeoutAbs =>
        if timeoutAbs ≥ INT64_MAX then some (INT64_MAX : Int) else addInt64 now userTimeout := by
  have small : ¬ ((userTimeout : Int) ≥ INT64_MAX) := Int.not_le.mpr (Int.ofNat_lt.mpr finite)
  simp only [getAbsoluteTimeoutNanoseconds, if_neg (Nat.lt_asymm finite), if_neg small]

/-- The deadline is saturated where the guard's sum fits, and the process is aborted where it does not. -/
theorem getAbsoluteTimeoutNanoseconds_eq (started : 0 ≤ now) :
    getAbsoluteTimeoutNanoseconds now userTimeout =
      if INT64_MAX ≤ userTimeout ∨ now + userTimeout ≤ INT64_MAX then
        some (saturatingAdd INT64_MAX now userTimeout)
      else none := by
  by_cases infinite : INT64_MAX ≤ userTimeout
  · have beyond : (INT64_MAX : Int) ≤ now + userTimeout := by
      have wide : (INT64_MAX : Int) ≤ userTimeout := Int.ofNat_le.mpr infinite
      omega
    rw [getAbsoluteTimeoutNanoseconds_of_ge infinite, if_pos (.inl infinite), saturatingAdd_of_ge beyond]
  · rw [getAbsoluteTimeoutNanoseconds_of_lt (Nat.lt_of_not_le infinite)]
    have above : (-2 ^ 63 : Int) ≤ now + userTimeout := by omega
    by_cases fits : now + userTimeout ≤ INT64_MAX
    · have added : addInt64 now userTimeout = some (now + userTimeout) := checkedAdd_eq_some.mpr ⟨rfl, above, fits⟩
      have guard : addInt64 userTimeout now = some (now + userTimeout) := by
        rw [addInt64, checkedAdd_comm]
        exact added
      rw [guard, if_pos (.inr fits), saturatingAdd_of_le fits, Option.bind_some]
      split
      · rename_i reached
        rw [Int.le_antisymm fits reached]
      · exact added
    · have guard : addInt64 userTimeout now = none := by
        rw [addInt64, checkedAdd_comm]
        exact (checkedAdd_eq_none above).mpr (Int.not_le.mp fits)
      rw [guard, if_neg (not_or.mpr ⟨infinite, fits⟩), Option.bind_none]

theorem getAbsoluteTimeoutNanoseconds_saturated (started : 0 ≤ now) {deadline : Int}
    (returned : getAbsoluteTimeoutNanoseconds now userTimeout = some deadline) :
    deadline = saturatingAdd INT64_MAX now userTimeout := by
  rw [getAbsoluteTimeoutNanoseconds_eq started] at returned
  split at returned
  · exact (Option.some.inj returned).symm
  · cases returned

theorem isDeadline_saturatingAdd (started : 0 ≤ now) (inClock : now ≤ INT64_MAX) :
    IsDeadline now userTimeout (saturatingAdd INT64_MAX now userTimeout) where
  saturated := rfl
  nonnegative := Int.le_trans started (le_saturatingAdd inClock (Int.natCast_nonneg userTimeout))
  notEarlier := le_saturatingAdd inClock (Int.natCast_nonneg userTimeout)
  monotone := by
    intro shorter least earlier returned
    rw [getAbsoluteTimeoutNanoseconds_saturated started returned]
    exact saturatingAdd_mono (Int.ofNat_le.mpr least)

/-- The deadline that was asked for is returned when the timeout means to wait for ever, or ends on the clock. -/
theorem absolute_timeout_saturates (started : 0 ≤ now) (inClock : now ≤ INT64_MAX) (userTimeout : Nat) :
    (∃ deadline, getAbsoluteTimeoutNanoseconds now userTimeout = some deadline ∧
        IsDeadline now userTimeout deadline) ↔
      INT64_MAX ≤ userTimeout ∨ now + userTimeout ≤ INT64_MAX := by
  rw [getAbsoluteTimeoutNanoseconds_eq started]
  constructor
  · intro asked
    obtain ⟨deadline, returned, -⟩ := asked
    by_contra overflows
    rw [if_neg overflows] at returned
    cases returned
  · intro fits
    rw [if_pos fits]
    exact ⟨_, rfl, isDeadline_saturatingAdd started inClock⟩

/-- A second from a minute on. -/
theorem timeout_of_a_second :
    (∃ deadline, getAbsoluteTimeoutNanoseconds (60 * 10 ^ 9) (10 ^ 9) = some deadline ∧
        IsDeadline (60 * 10 ^ 9) (10 ^ 9) deadline) ↔
      INT64_MAX ≤ 10 ^ 9 ∨ (60 * 10 ^ 9 : Int) + (10 ^ 9 : Nat) ≤ INT64_MAX :=
  absolute_timeout_saturates (by decide) (by decide) (10 ^ 9)

/-- A timeout just below the largest one aborts the process two nanoseconds after the clock has started. -/
theorem long_timeout_aborts :
    ¬ ∃ deadline, getAbsoluteTimeoutNanoseconds 2 (2 ^ 63 - 2) = some deadline ∧
      IsDeadline 2 (2 ^ 63 - 2) deadline := by
  intro asked
  obtain ⟨deadline, returned, -⟩ := asked
  have aborted : getAbsoluteTimeoutNanoseconds 2 (2 ^ 63 - 2) = none := by decide
  rw [aborted] at returned
  cases returned

end NpuDriver
