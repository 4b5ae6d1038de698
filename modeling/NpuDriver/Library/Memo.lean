import Mathlib.Data.Set.Basic

/-! Stores of computed results, each under a key of its input. -/

namespace NpuDriver.Library

variable {Input Key Value : Type} {key : Input → Option Key} {value : Input → Option Value} {inputs : Set Input}
variable {holds later : Key → Value → Prop}

/-- Inputs with one key have one value. -/
def KeyDetermines (key : Input → Option Key) (value : Input → Option Value) (inputs : Set Input) : Prop :=
  ∀ first ∈ inputs, ∀ second ∈ inputs, ∀ name, key first = some name → key second = some name →
    value first = value second

/-- What the store holds under the key of an input is the value of that input. -/
def Memoizes (key : Input → Option Key) (value : Input → Option Value) (inputs : Set Input)
    (holds : Key → Value → Prop) : Prop :=
  ∀ input ∈ inputs, ∀ name, key input = some name → ∀ entry, holds name entry → value input = some entry

theorem Memoizes.mono (memoizes : Memoizes key value inputs holds)
    (fewer : ∀ name entry, later name entry → holds name entry) : Memoizes key value inputs later :=
  fun input member name named entry held => memoizes input member name named entry (fewer name entry held)

/-- The value of one input may be stored under its key. -/
theorem Memoizes.store (memoizes : Memoizes key value inputs holds) (determines : KeyDetermines key value inputs)
    {stored : Input} {place : Key} {result : Value} (member : stored ∈ inputs) (named : key stored = some place)
    (computed : value stored = some result)
    (more : ∀ name entry, later name entry → holds name entry ∨ name = place ∧ entry = result) :
    Memoizes key value inputs later := by
  intro input other name sameName entry held
  rcases more name entry held with before | ⟨rfl, rfl⟩
  · exact memoizes input other name sameName entry before
  · rw [determines input other stored member name sameName named, computed]

end NpuDriver.Library
