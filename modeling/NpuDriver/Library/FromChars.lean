import Mathlib.Data.List.Induction
import NpuDriver.Library.LeftAligned

/-! Numbers at the front of a text. -/

namespace NpuDriver.Library

variable {Symbol : Type}

/-- The errors of `std::from_chars`. -/
inductive CharsError where
  | invalidArgument | resultOutOfRange
deriving DecidableEq, Repr

/-- The digits that a text begins with. -/
def leadingDigits (base : Nat) (value : Symbol → Nat) (text : List Symbol) : List Symbol :=
  text.takeWhile fun symbol => value symbol < base

/-- `std::from_chars` of an unsigned type with `2 ^ width` values; what is no digit has a value beyond the base. -/
def fromChars (base width : Nat) (value : Symbol → Nat) (text : List Symbol) : Except CharsError Nat :=
  let digits := leadingDigits base value text
  if digits.isEmpty then .error .invalidArgument
  else if 2 ^ width ≤ readNumber base value digits then .error .resultOutOfRange
  else .ok (readNumber base value digits)

/-- A number with zeros in front of it, as many as the width asks for. -/
def zeroPadded (base width : Nat) (render : Char → Symbol) (number : Nat) : List Symbol :=
  List.replicate (width - (Nat.toDigits base number).length) (render '0') ++ (Nat.toDigits base number).map render

variable {base width number : Nat} {render : Char → Symbol} {value : Symbol → Nat} {digits rest : List Symbol}

theorem leadingDigits_append (inside : ∀ symbol ∈ digits, value symbol < base)
    (stops : leadingDigits base value rest = []) : leadingDigits base value (digits ++ rest) = digits := by
  unfold leadingDigits at stops ⊢
  rw [List.takeWhile_append_of_pos, stops, List.append_nil]
  intro symbol member
  exact decide_eq_true (inside symbol member)

theorem foldl_digits (number : Nat) (digits : List Symbol) :
    digits.foldl (fun number digit => base * number + value digit) number =
      number * base ^ digits.length + readNumber base value digits := by
  induction digits using List.reverseRecOn with
  | nil => simp [readNumber]
  | append_singleton front last ih =>
    rw [readNumber_append, List.foldl_append, ih, List.length_append, List.length_singleton, Nat.pow_succ]
    simp only [List.foldl_cons, List.foldl_nil]
    ring

theorem readNumber_split (front back : List Symbol) :
    readNumber base value (front ++ back) =
      readNumber base value front * base ^ back.length + readNumber base value back := by
  rw [readNumber_append, foldl_digits]

theorem readNumber_lt (inside : ∀ symbol ∈ digits, value symbol < base) :
    readNumber base value digits < base ^ digits.length := by
  induction digits using List.reverseRecOn with
  | nil => simp [readNumber]
  | append_singleton front last ih =>
    have before := ih fun symbol member => inside symbol (List.mem_append_left _ member)
    have here := inside last (List.mem_append_right _ List.mem_cons_self)
    rw [readNumber_append, List.length_append, List.length_singleton, Nat.pow_succ]
    simp only [List.foldl_cons, List.foldl_nil]
    calc base * readNumber base value front + value last
        < base * (readNumber base value front + 1) := by rw [Nat.mul_add_one]; omega
      _ ≤ base * base ^ front.length := Nat.mul_le_mul_left base before
      _ = base ^ front.length * base := Nat.mul_comm _ _

/-- The last digits of a number are its remainder. -/
theorem readNumber_drop (inside : ∀ symbol ∈ digits, value symbol < base) {count : Nat} (few : count ≤ digits.length) :
    readNumber base value (digits.drop (digits.length - count)) = readNumber base value digits % base ^ count := by
  have length : (digits.drop (digits.length - count)).length = count := by
    rw [List.length_drop]
    omega
  have below : readNumber base value (digits.drop (digits.length - count)) <
      base ^ (digits.drop (digits.length - count)).length :=
    readNumber_lt fun symbol member => inside symbol (List.mem_of_mem_drop member)
  have split : readNumber base value (digits.take (digits.length - count) ++ digits.drop (digits.length - count)) = _ :=
    readNumber_split (digits.take (digits.length - count)) (digits.drop (digits.length - count))
  rw [List.take_append_drop, length] at split
  rw [length] at below
  rw [split, Nat.mul_comm, Nat.mul_add_mod, Nat.mod_eq_of_lt below]

theorem toDigits_inside (large : 1 < base) (reads : ∀ digit < base, value (render (Nat.digitChar digit)) = digit)
    (number : Nat) : ∀ symbol ∈ (Nat.toDigits base number).map render, value symbol < base := by
  induction number using Nat.strongRecOn with
  | ind number ih =>
    by_cases small : number < base
    · rw [Nat.toDigits_of_lt_base small, List.map_singleton]
      intro symbol member
      rw [List.mem_singleton.mp member, reads number small]
      exact small
    · have enough : base ≤ number := Nat.not_lt.mp small
      have inside : number % base < base := Nat.mod_lt number (by omega)
      rw [Nat.toDigits_of_base_le large enough, List.map_append]
      intro symbol member
      rcases List.mem_append.mp member with front | last
      · exact ih _ (Nat.div_lt_self (by omega) large) symbol front
      · rw [List.map_singleton, List.mem_singleton] at last
        rw [last, reads _ inside]
        exact inside

theorem le_zeroPadded_length (width number : Nat) : width ≤ (zeroPadded base width render number).length := by
  rw [zeroPadded, List.length_append, List.length_replicate, List.length_map]
  omega

theorem zeroPadded_length (positive : 0 < width) (fits : number < base ^ width) :
    (zeroPadded base width render number).length = width := by
  have short := Nat.toDigits_length base number width positive fits
  rw [zeroPadded, List.length_append, List.length_replicate, List.length_map]
  omega

section Padded

variable (large : 1 < base) (reads : ∀ digit < base, value (render (Nat.digitChar digit)) = digit)

include large reads

theorem zeroPadded_inside (width number : Nat) :
    ∀ symbol ∈ zeroPadded base width render number, value symbol < base := by
  intro symbol member
  rcases List.mem_append.mp member with zero | digit
  · rw [List.eq_of_mem_replicate zero, show value (render '0') = 0 from reads 0 (by omega)]
    omega
  · exact toDigits_inside large reads number symbol digit

theorem readNumber_zeroPadded (width number : Nat) :
    readNumber base value (zeroPadded base width render number) = number := by
  have zeros : ∀ count, readNumber base value (List.replicate count (render '0')) = 0 := by
    intro count
    induction count with
    | zero => rfl
    | succ count ih =>
      rw [List.replicate_succ', readNumber_append, ih]
      simp [show value (render '0') = 0 from reads 0 (by omega)]
  rw [zeroPadded, readNumber_split, zeros, readNumber_toDigits large reads, Nat.zero_mul, Nat.zero_add]

/-- A number is read back, however many zeros stand in front of it. -/
theorem fromChars_zeroPadded (padding : Nat) (fits : number < 2 ^ width)
    (stops : leadingDigits base value rest = []) :
    fromChars base width value (zeroPadded base padding render number ++ rest) = .ok number := by
  have written : zeroPadded base padding render number ≠ [] := by
    simp [zeroPadded, Nat.toDigits_ne_nil]
  rw [fromChars, leadingDigits_append (zeroPadded_inside large reads padding number) stops,
    readNumber_zeroPadded large reads]
  simp [written, Nat.not_le.mpr fits]

/-- Of a number that is cut off on the left the remainder is read. -/
theorem fromChars_cut {count padding : Nat} (positive : 0 < count) (fits : base ^ count ≤ 2 ^ width)
    (few : count ≤ (zeroPadded base padding render number).length) :
    fromChars base width value
        ((zeroPadded base padding render number).drop ((zeroPadded base padding render number).length - count)) =
      .ok (number % base ^ count) := by
  have inside := zeroPadded_inside large reads padding number
  have read := readNumber_drop inside few
  rw [readNumber_zeroPadded large reads] at read
  generalize zeroPadded base padding render number = digits at inside few read
  have kept : ∀ symbol ∈ digits.drop (digits.length - count), value symbol < base :=
    fun symbol member => inside symbol (List.mem_of_mem_drop member)
  have some : digits.drop (digits.length - count) ≠ [] := by
    rw [ne_eq, List.drop_eq_nil_iff]
    omega
  have small : number % base ^ count < 2 ^ width :=
    Nat.lt_of_lt_of_le (Nat.mod_lt number (Nat.pow_pos (by omega))) fits
  have leading : leadingDigits base value (digits.drop (digits.length - count) ++ []) =
      digits.drop (digits.length - count) := leadingDigits_append kept rfl
  rw [List.append_nil] at leading
  rw [fromChars, leading, read]
  simp [some, Nat.not_le.mpr small]

end Padded

end NpuDriver.Library
