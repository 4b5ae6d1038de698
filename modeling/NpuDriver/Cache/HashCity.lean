import Mathlib.Data.List.Basic

/-! The hash of the disk cache and its hexadecimal digest. -/

namespace NpuDriver

/-- `HashCity::HashTable`: the four words of `CityHashCrc256`, then the configuration hash. -/
structure HashTable where
  words : List UInt64
  sized : words.length = 5
deriving DecidableEq

/-- The functions of the hash library. -/
structure CityHash where
  cityHash64WithSeed : List UInt8 → UInt64 → UInt64
  cityHashCrc256 : List UInt8 → UInt64 × UInt64 × UInt64 × UInt64

/-- A table whose configuration word is given. -/
def CityHash.tableOf (city : CityHash) (configHash : UInt64) (data : List UInt8) : HashTable :=
  match city.cityHashCrc256 data with
  | (word0, word1, word2, word3) => ⟨[word0, word1, word2, word3, configHash], rfl⟩

namespace HashCity

/-- `HashCity::DigestLength`. -/
def DigestLength : Nat := 8 * 8 + 8 * 2

/-- `std::to_chars` in base 16 into sixteen characters that are preset to zero. -/
def toChars (value : UInt64) : List UInt8 :=
  let digits := (Nat.toDigits 16 value.toNat).map fun digit => UInt8.ofNat digit.toNat
  digits ++ List.replicate (16 - digits.length) (UInt8.ofNat '0'.toNat)

def toHexString (table : HashTable) : List UInt8 := table.words.flatMap toChars

/-- `HashCity::getDigest` over an arbitrary hash table of the data. -/
def getDigest (hash : List UInt8 → HashTable) (data : List UInt8) : List UInt8 :=
  toHexString (hash data)

theorem toChars_length (value : UInt64) : (toChars value).length = 16 := by
  have small : (Nat.toDigits 16 value.toNat).length ≤ 16 :=
    (Nat.length_toDigits_le_iff (by decide) (by decide)).mpr value.toNat_lt
  simp only [toChars, List.length_append, List.length_map, List.length_replicate]
  omega

@[simp] theorem getDigest_length (hash : List UInt8 → HashTable) (data : List UInt8) :
    (getDigest hash data).length = DigestLength := by
  have fields : ∀ words : List UInt64, (words.flatMap toChars).length = 16 * words.length := by
    intro words
    induction words with
    | nil => rfl
    | cons word rest ih =>
      rw [List.flatMap_cons, List.length_append, toChars_length, ih, List.length_cons]
      omega
  rw [getDigest, toHexString, fields, (hash data).sized]
  rfl

end HashCity

end NpuDriver
