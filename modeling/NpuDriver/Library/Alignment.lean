import Mathlib.Data.Nat.Bits
import Mathlib.Tactic.Ring

/-! Numbers rounded to the multiples of an alignment, and the aligned ranges that cover a range. -/

namespace NpuDriver.Library

variable {alignment value limit offset start length : Nat}

def roundDown (value alignment : Nat) : Nat := value / alignment * alignment

def roundUp (value alignment : Nat) : Nat := (value + (alignment - 1)) / alignment * alignment

theorem dvd_roundDown (value alignment : Nat) : alignment ∣ roundDown value alignment := Nat.dvd_mul_left ..

theorem dvd_roundUp (value alignment : Nat) : alignment ∣ roundUp value alignment := Nat.dvd_mul_left ..

theorem roundDown_le (value alignment : Nat) : roundDown value alignment ≤ value := Nat.div_mul_le_self ..

theorem roundDown_add_mod (value alignment : Nat) : roundDown value alignment + value % alignment = value :=
  Nat.div_add_mod' value alignment

/-- No multiple of the alignment lies between a number and the one it is rounded down to. -/
theorem le_roundDown_of_dvd (aligned : alignment ∣ limit) (below : limit ≤ value) :
    limit ≤ roundDown value alignment := by
  obtain ⟨count, rfl⟩ := aligned
  rcases Nat.eq_zero_or_pos alignment with rfl | positive
  · rw [Nat.zero_mul]
    exact Nat.zero_le _
  · rw [Nat.mul_comm] at below ⊢
    exact Nat.mul_le_mul_right alignment ((Nat.le_div_iff_mul_le positive).mpr below)

theorem roundUp_eq_roundDown (value alignment : Nat) :
    roundUp value alignment = roundDown (value + (alignment - 1)) alignment := rfl

theorem roundUp_lt_add (positive : 0 < alignment) (value : Nat) : roundUp value alignment < value + alignment := by
  have below := roundDown_le (value + (alignment - 1)) alignment
  rw [roundUp_eq_roundDown]
  omega

theorem le_roundUp (positive : 0 < alignment) (value : Nat) : value ≤ roundUp value alignment := by
  have whole := roundDown_add_mod (value + (alignment - 1)) alignment
  have rest := Nat.mod_lt (value + (alignment - 1)) positive
  rw [roundUp_eq_roundDown]
  omega

/-- Multiples of an alignment that are less than it apart are the same. -/
theorem eq_of_dvd_of_lt_add {first second : Nat} (left : alignment ∣ first) (right : alignment ∣ second)
    (near : first < second + alignment) (far : second < first + alignment) : first = second := by
  obtain ⟨count, rfl⟩ := left
  obtain ⟨other, rfl⟩ := right
  rw [← Nat.mul_succ] at near far
  have upper := Nat.lt_of_mul_lt_mul_left near
  have lower := Nat.lt_of_mul_lt_mul_left far
  rw [Nat.le_antisymm (Nat.le_of_lt_succ upper) (Nat.le_of_lt_succ lower)]

/-- The number that a number is rounded up to is known by its distance. -/
theorem eq_roundUp (aligned : alignment ∣ limit) (above : value ≤ limit) (near : limit < value + alignment) :
    limit = roundUp value alignment := by
  have positive : 0 < alignment := by omega
  have below := roundUp_lt_add positive value
  have upper := le_roundUp positive value
  exact eq_of_dvd_of_lt_add aligned (dvd_roundUp value alignment) (by omega) (by omega)

theorem roundUp_le_of_dvd (aligned : alignment ∣ limit) (above : value ≤ limit) :
    roundUp value alignment ≤ limit := by
  rcases Nat.eq_zero_or_pos alignment with rfl | positive
  · simp [roundUp]
  · obtain ⟨count, rfl⟩ := aligned
    have near := roundUp_lt_add positive value
    obtain ⟨rounded, exactly⟩ := dvd_roundUp value alignment
    rw [exactly] at near ⊢
    have fewer : alignment * rounded < alignment * (count + 1) := by
      rw [Nat.mul_succ]
      omega
    exact Nat.mul_le_mul_left alignment (Nat.le_of_lt_succ (Nat.lt_of_mul_lt_mul_left fewer))

theorem roundUp_eq_self_iff (positive : 0 < alignment) : roundUp value alignment = value ↔ alignment ∣ value := by
  constructor
  · intro same
    exact same ▸ dvd_roundUp value alignment
  · intro aligned
    exact (eq_roundUp aligned (Nat.le_refl value) (by omega)).symm

theorem roundDown_eq_self (aligned : alignment ∣ value) : roundDown value alignment = value :=
  Nat.div_mul_cancel aligned

/-- What is not aligned is rounded down to where its predecessor is. -/
theorem roundDown_pred (unaligned : ¬ alignment ∣ value) :
    roundDown (value - 1) alignment = roundDown value alignment := by
  rcases Nat.eq_zero_or_pos alignment with rfl | positive
  · simp [roundDown]
  · have whole := roundDown_add_mod value alignment
    have rest : value % alignment ≠ 0 := fun zero => unaligned (Nat.dvd_of_mod_eq_zero zero)
    have fewer := roundDown_le (value - 1) alignment
    have least := le_roundDown_of_dvd (dvd_roundDown value alignment)
      (show roundDown value alignment ≤ value - 1 by omega)
    have most := le_roundDown_of_dvd (dvd_roundDown (value - 1) alignment)
      (show roundDown (value - 1) alignment ≤ value by omega)
    exact Nat.le_antisymm most least

/-- A range that starts inside of an aligned block ends in the block that its length alone comes to, or in the
one behind it. -/
theorem roundUp_add (inside : offset < alignment) (length : Nat) :
    roundUp (length + offset) alignment =
      if roundUp length alignment < length + offset then roundUp length alignment + alignment
      else roundUp length alignment := by
  have near := roundUp_lt_add (Nat.zero_lt_of_lt inside) length
  have above := le_roundUp (Nat.zero_lt_of_lt inside) length
  split
  · rename_i short
    exact (eq_roundUp (Nat.dvd_add (dvd_roundUp length alignment) (Nat.dvd_refl alignment)) (by omega) (by omega)).symm
  · rename_i enough
    exact (eq_roundUp (dvd_roundUp length alignment) (Nat.le_of_not_lt enough) (by omega)).symm

theorem roundUp_add_of_dvd (aligned : alignment ∣ start) (positive : 0 < alignment) (length : Nat) :
    roundUp (start + length) alignment = start + roundUp length alignment := by
  have near := roundUp_lt_add positive length
  have above := le_roundUp positive length
  exact (eq_roundUp (Nat.dvd_add aligned (dvd_roundUp length alignment)) (by omega) (by omega)).symm

/-- An aligned range covers another one. -/
structure Covers (alignment start length base stop : Nat) : Prop where
  baseAligned : alignment ∣ base
  stopAligned : alignment ∣ stop
  lower : base ≤ start
  upper : start + length ≤ stop

theorem rounded_covers (positive : 0 < alignment) (start length : Nat) :
    Covers alignment start length (roundDown start alignment) (roundUp (start + length) alignment) where
  baseAligned := dvd_roundDown ..
  stopAligned := dvd_roundUp ..
  lower := roundDown_le ..
  upper := le_roundUp positive _

/-- Every aligned range around a range covers the one that its ends are rounded to. -/
theorem Covers.contains_rounded {base stop : Nat} (covers : Covers alignment start length base stop) :
    base ≤ roundDown start alignment ∧ roundUp (start + length) alignment ≤ stop :=
  ⟨le_roundDown_of_dvd covers.baseAligned covers.lower, roundUp_le_of_dvd covers.stopAligned covers.upper⟩

/-- Clearing the bits below a power of two rounds down to it. -/
theorem toNat_and_not_mask {width : Nat} (word : BitVec width) (exponent : Nat) :
    (word &&& ~~~(BitVec.ofNat width (2 ^ exponent - 1))).toNat = roundDown word.toNat (2 ^ exponent) := by
  have shifted : roundDown word.toNat (2 ^ exponent) = word.toNat >>> exponent <<< exponent := by
    rw [roundDown, Nat.shiftRight_eq_div_pow, Nat.shiftLeft_eq]
  rw [shifted]
  apply Nat.eq_of_testBit_eq
  intro index
  rw [Nat.testBit_shiftLeft, Nat.testBit_shiftRight, BitVec.testBit_toNat, BitVec.testBit_toNat, BitVec.getLsbD_and,
    BitVec.getLsbD_not, BitVec.getLsbD_ofNat, Nat.testBit_two_pow_sub_one]
  by_cases inside : index < width
  · by_cases low : index < exponent
    · simp [inside, low]
    · have high : exponent ≤ index := Nat.le_of_not_lt low
      simp [inside, high, Nat.add_sub_cancel' high]
  · have outside : word.getLsbD index = false := BitVec.getLsbD_of_ge word index (Nat.le_of_not_lt inside)
    by_cases high : exponent ≤ index
    · simp [outside, Nat.add_sub_cancel' high]
    · simp [outside, high]

end NpuDriver.Library
