import Mathlib.Data.List.Basic

/-! Ranges that follow one another without a gap. -/

namespace NpuDriver.Library

/-- Ranges that are not empty, each given by its start and its size, and that cover in order what
lies between two bounds. -/
inductive Tiles : Nat → Nat → List (Nat × Nat) → Prop where
  | nil (start : Nat) : Tiles start start []
  | cons (positive : 0 < size) (later : Tiles (start + size) finish rest) :
    Tiles start finish ((start, size) :: rest)

namespace Tiles

/-- The sizes alone say where the ranges of a tiling lie. -/
theorem eq_of_sizes (first : Tiles start finish pieces) (second : Tiles start finish' pieces')
    (sizes : pieces.map Prod.snd = pieces'.map Prod.snd) : pieces = pieces' := by
  induction first generalizing pieces' with
  | nil start =>
    cases second with
    | nil => rfl
    | cons => cases sizes
  | cons positive later ih =>
    cases second with
    | nil => cases sizes
    | cons positive' later' =>
      simp only [List.map_cons, List.cons.injEq] at sizes
      obtain ⟨rfl, rest⟩ := sizes
      rw [ih later' rest]

theorem shift (base : Nat) (tiles : Tiles start finish pieces) :
    Tiles (base + start) (base + finish) (pieces.map fun piece => (base + piece.1, piece.2)) := by
  induction tiles with
  | nil start => exact nil (base + start)
  | cons positive later ih =>
    rw [← Nat.add_assoc] at ih
    exact cons positive ih

end Tiles

end NpuDriver.Library
