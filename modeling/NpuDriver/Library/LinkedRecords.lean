import Mathlib.Data.List.Basic

/-! Records that say how far behind them the next one is. -/

namespace NpuDriver.Library

/-- The positions of so many records from a first one on. -/
def linked (link : Nat → Nat) : Nat → Nat → List Nat
  | 0, _ => []
  | count + 1, start => start :: linked link count (start + link start)

/-- All records but the last one lead on. -/
def Unbroken (link : Nat → Nat) (count start : Nat) : Prop :=
  ∀ position ∈ (linked link count start).dropLast, link position ≠ 0

/-- The first record that does not lead on is so many records further. -/
inductive EndsAfter (link : Nat → Nat) : Nat → Nat → Prop where
  | here (last : link start = 0) : EndsAfter link 0 start
  | further (leads : link start ≠ 0) (later : EndsAfter link count (start + link start)) :
    EndsAfter link (count + 1) start

variable {link : Nat → Nat}

@[simp] theorem linked_zero (start : Nat) : linked link 0 start = [] := rfl

@[simp] theorem linked_succ (count start : Nat) :
    linked link (count + 1) start = start :: linked link count (start + link start) := rfl

@[simp] theorem linked_length (count start : Nat) : (linked link count start).length = count := by
  induction count generalizing start with
  | zero => rfl
  | succ count ih => simp [ih]

theorem le_of_mem_linked {count start position : Nat} (member : position ∈ linked link count start) :
    start ≤ position := by
  induction count generalizing start with
  | zero => simp at member
  | succ count ih =>
    rcases List.mem_cons.mp member with rfl | later
    · exact Nat.le_refl _
    · exact Nat.le_trans (Nat.le_add_right _ _) (ih later)

@[simp] theorem unbroken_one (start : Nat) : Unbroken link 1 start := by
  simp [Unbroken]

theorem unbroken_succ {count start : Nat} :
    Unbroken link (count + 2) start ↔ link start ≠ 0 ∧ Unbroken link (count + 1) (start + link start) := by
  simp [Unbroken]

/-- The records of a chain are different ones as long as each leads on to the next. -/
theorem linked_nodup_iff {count start : Nat} : (linked link count start).Nodup ↔ Unbroken link count start := by
  induction count generalizing start with
  | zero => simp [Unbroken]
  | succ count ih =>
    cases count with
    | zero => simp
    | succ count =>
      rw [unbroken_succ, linked_succ, List.nodup_cons, ih]
      constructor
      · rintro ⟨fresh, later⟩
        refine ⟨?_, later⟩
        intro stays
        simp [stays] at fresh
      · rintro ⟨leads, later⟩
        refine ⟨?_, later⟩
        intro again
        have behind := le_of_mem_linked again
        omega

theorem EndsAfter.unbroken {count start : Nat} (ends : EndsAfter link count start) :
    Unbroken link (count + 1) start := by
  induction ends with
  | here => simp
  | further leads later ih => exact unbroken_succ.mpr ⟨leads, ih⟩

end NpuDriver.Library
