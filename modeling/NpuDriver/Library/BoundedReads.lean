import Mathlib.Data.List.Basic

/-! Reads of a buffer that fail where they would leave it. -/

namespace NpuDriver.Library

/-- A record that takes so many elements at a position. -/
def readWithin (fault : ε) (buffer : List α) (position size : Nat) (record : β) : Except ε β :=
  if position + size ≤ buffer.length then .ok record else .error fault

/-- The elements at a position in front of the next terminator. -/
def readTerminated [DecidableEq α] (fault : ε) (terminator : α) (buffer : List α) (position : Nat) :
    Except ε (List α) :=
  if terminator ∈ buffer.drop position then .ok ((buffer.drop position).takeWhile (· ≠ terminator))
  else .error fault

variable {fault : ε}

theorem readWithin_eq_ok {buffer : List α} {position size : Nat} {record result : β} :
    readWithin fault buffer position size record = .ok result ↔
      position + size ≤ buffer.length ∧ record = result := by
  unfold readWithin
  split <;> simp [*]

theorem readTerminated_eq_ok [DecidableEq α] {terminator : α} {buffer result : List α} {position : Nat} :
    readTerminated fault terminator buffer position = .ok result ↔
      terminator ∈ buffer.drop position ∧ (buffer.drop position).takeWhile (· ≠ terminator) = result := by
  unfold readTerminated
  split <;> simp [*]

/-- A sequence of reads succeeds when all of them do. -/
theorem bind_eq_ok {first : Except ε α} {next : α → Except ε β} {result : β} :
    (first >>= next) = .ok result ↔ ∃ value, first = .ok value ∧ next value = .ok result := by
  cases first <;> simp [bind, Except.bind]

end NpuDriver.Library
