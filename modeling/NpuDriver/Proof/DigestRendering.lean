import NpuDriver.Cache.HashCity
import NpuDriver.Library.LeftAligned

/-! Which hash tables have the same digest. -/

namespace NpuDriver.HashCity

open Library

def charByte (letter : Char) : UInt8 := UInt8.ofNat letter.toNat

/-- The value of a hexadecimal digit. -/
def hexValue (byte : UInt8) : Nat := if byte.toNat < 58 then byte.toNat - 48 else byte.toNat - 87

theorem hexValue_digitChar : ∀ digit < 16, hexValue (charByte (Nat.digitChar digit)) = digit := by decide

theorem toChars_leftAligned (value : UInt64) : toChars value = leftAligned 16 16 charByte value.toNat := by
  simp [toChars, leftAligned, charByte]

/-- Two words are printed alike when one of them is the other one with zeros behind its digits. -/
def SameDigits (word other : UInt64) : Prop := Shifted 16 word.toNat other.toNat

theorem toChars_eq_iff (word other : UInt64) : toChars word = toChars other ↔ SameDigits word other := by
  have fits : ∀ value : UInt64, (Nat.toDigits 16 value.toNat).length ≤ 16 := fun value =>
    (Nat.length_toDigits_le_iff (by decide) (by decide)).mpr value.toNat_lt
  rw [toChars_leftAligned, toChars_leftAligned]
  exact leftAligned_eq_iff (by decide) hexValue_digitChar (fits word) (fits other)

theorem toHexString_length (table : HashTable) : (toHexString table).length = DigestLength :=
  getDigest_length (fun _ => table) []

theorem toHexString_eq_iff (first second : HashTable) :
    toHexString first = toHexString second ↔ List.Forall₂ SameDigits first.words second.words := by
  have length : first.words.length = second.words.length := first.sized.trans second.sized.symm
  rw [toHexString, toHexString, flatMap_eq_iff toChars_length length]
  simp only [toChars_eq_iff]

/-- Digests have one length, and tell two tables apart exactly when the tables differ in a word by more than
a power of sixteen. -/
theorem digest_tells_apart (first second : HashTable) :
    (toHexString first).length = DigestLength ∧ (toHexString second).length = DigestLength ∧
      ((first ≠ second → toHexString first ≠ toHexString second) ↔
        (first ≠ second → ¬ List.Forall₂ SameDigits first.words second.words)) := by
  refine ⟨toHexString_length first, toHexString_length second, ?_⟩
  rw [Ne, Ne, toHexString_eq_iff]

/-- One and sixteen are printed alike. -/
theorem shifted_words_collide :
    let first : HashTable := ⟨[1, 0, 0, 0, 0], rfl⟩
    let second : HashTable := ⟨[16, 0, 0, 0, 0], rfl⟩
    first ≠ second ∧ toHexString first = toHexString second := by
  intro first second
  constructor
  · decide
  · decide +kernel

end NpuDriver.HashCity
