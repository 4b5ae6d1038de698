import Mathlib.Data.List.Forall2
import Mathlib.Data.Nat.Digits.Defs
import Mathlib.Tactic.Ring

/-! Numbers that are written from the left into a field which is filled up with zeros. -/

namespace NpuDriver.Library

variable {Symbol : Type}

/-- The number that digits stand for. -/
def readNumber (base : Nat) (value : Symbol → Nat) (digits : List Symbol) : Nat :=
  digits.foldl (fun number digit => base * number + value digit) 0

def leftAligned (base width : Nat) (render : Char → Symbol) (number : Nat) : List Symbol :=
  (Nat.toDigits base number).map render ++
    List.replicate (width - (Nat.toDigits base number).length) (render '0')

/-- One of the numbers is the other one, multiplied by a power of the base. -/
def Shifted (base first second : Nat) : Prop :=
  ∃ power, first = second * base ^ power ∨ second = first * base ^ power

variable {base : Nat} {render : Char → Symbol} {value : Symbol → Nat}

theorem readNumber_append (front back : List Symbol) :
    readNumber base value (front ++ back) =
      back.foldl (fun number digit => base * number + value digit) (readNumber base value front) := by
  simp [readNumber]

theorem readNumber_toDigits (large : 1 < base)
    (reads : ∀ digit < base, value (render (Nat.digitChar digit)) = digit) (number : Nat) :
    readNumber base value ((Nat.toDigits base number).map render) = number := by
  induction number using Nat.strongRecOn with
  | ind number ih =>
    by_cases small : number < base
    · simp [Nat.toDigits_of_lt_base small, readNumber, reads number small]
    · have enough : base ≤ number := Nat.not_lt.mp small
      have inside : number % base < base := Nat.mod_lt number (by omega)
      have less : number / base < number := Nat.div_lt_self (by omega) large
      rw [Nat.toDigits_of_base_le large enough, List.map_append, readNumber_append, ih _ less]
      simp [reads _ inside, Nat.div_add_mod]

/-- Zeros behind a number multiply it by powers of the base. -/
theorem readNumber_zeros (zero : value (render '0') = 0) (digits : List Symbol) (count : Nat) :
    readNumber base value (digits ++ List.replicate count (render '0')) =
      readNumber base value digits * base ^ count := by
  induction count with
  | zero => simp
  | succ count ih =>
    rw [List.replicate_succ', ← List.append_assoc, readNumber_append, ih]
    simp [zero]
    ring

theorem toDigits_shift (large : 1 < base) {number : Nat} (positive : 0 < number) (power : Nat) :
    Nat.toDigits base (number * base ^ power) = Nat.toDigits base number ++ List.replicate power '0' := by
  induction power with
  | zero => simp
  | succ power ih =>
    have shifted : number * base ^ (power + 1) = base * (number * base ^ power) + 0 := by ring
    have more : 0 < number * base ^ power := Nat.mul_pos positive (Nat.pow_pos (by omega))
    rw [shifted, ← Nat.toDigits_append_toDigits large more (by omega), ih, List.append_assoc,
      List.replicate_succ']
    simp

theorem leftAligned_shift (large : 1 < base) {width number : Nat} (power : Nat)
    (fits : (Nat.toDigits base (number * base ^ power)).length ≤ width) :
    leftAligned base width render (number * base ^ power) = leftAligned base width render number := by
  by_cases zero : number = 0
  · simp [zero]
  · rw [toDigits_shift large (Nat.pos_of_ne_zero zero), List.length_append, List.length_replicate] at fits
    have room : width - (Nat.toDigits base number).length =
        power + (width - ((Nat.toDigits base number).length + power)) := by omega
    rw [leftAligned, toDigits_shift large (Nat.pos_of_ne_zero zero), leftAligned, room]
    simp

/-- Two numbers look the same exactly when one is the other, multiplied by a power of the base. -/
theorem leftAligned_eq_iff (large : 1 < base)
    (reads : ∀ digit < base, value (render (Nat.digitChar digit)) = digit) {width first second : Nat}
    (fits : (Nat.toDigits base first).length ≤ width) (other : (Nat.toDigits base second).length ≤ width) :
    leftAligned base width render first = leftAligned base width render second ↔ Shifted base first second := by
  constructor
  · intro same
    have zero : value (render '0') = 0 := reads 0 (by omega)
    have numbers := congrArg (readNumber base value) same
    simp only [leftAligned, readNumber_zeros zero, readNumber_toDigits large reads] at numbers
    generalize width - (Nat.toDigits base first).length = left at numbers
    generalize width - (Nat.toDigits base second).length = right at numbers
    rcases Nat.le_total left right with less | more
    · obtain ⟨power, rfl⟩ := Nat.exists_eq_add_of_le less
      refine ⟨power, .inl ?_⟩
      have positive : 0 < base ^ left := Nat.pow_pos (by omega)
      apply Nat.eq_of_mul_eq_mul_right positive
      rw [numbers]
      ring
    · obtain ⟨power, rfl⟩ := Nat.exists_eq_add_of_le more
      refine ⟨power, .inr ?_⟩
      have positive : 0 < base ^ right := Nat.pow_pos (by omega)
      apply Nat.eq_of_mul_eq_mul_right positive
      rw [← numbers]
      ring
  · rintro ⟨power, rfl | rfl⟩
    · exact leftAligned_shift large power fits
    · exact (leftAligned_shift large power other).symm

/-- Fields of one width that stand side by side are the same exactly when each of them is. -/
theorem flatMap_eq_iff {Item : Type} {field : Item → List Symbol} {width : Nat}
    (sized : ∀ item, (field item).length = width) {left right : List Item} (length : left.length = right.length) :
    left.flatMap field = right.flatMap field ↔
      List.Forall₂ (fun item other => field item = field other) left right := by
  induction left generalizing right with
  | nil => simp [List.length_eq_zero_iff.mp length.symm]
  | cons item rest ih =>
    cases right with
    | nil => cases length
    | cons other others =>
      have same : (field item).length = (field other).length := by simp [sized]
      rw [List.flatMap_cons, List.flatMap_cons, List.forall₂_cons, ← ih (Nat.succ.inj length)]
      constructor
      · intro equal
        exact List.append_inj equal same
      · rintro ⟨here, behind⟩
        rw [here, behind]

end NpuDriver.Library
