import NpuDriver.Library.ByteImage

/-! Regions of a memory: which of them are apart, which lie within another, and slots of one size. -/

namespace NpuDriver.Library

/-- The bytes from a start on. -/
structure Region where
  start : Nat
  length : Nat
deriving DecidableEq, Repr

namespace Region

variable {region inner outer first second : Region}

def stop (region : Region) : Nat := region.start + region.length

/-- One ends before the other begins. -/
def Apart (first second : Region) : Prop := first.stop ≤ second.start ∨ second.stop ≤ first.start

def Within (inner outer : Region) : Prop := outer.start ≤ inner.start ∧ inner.stop ≤ outer.stop

instance : Decidable (Apart first second) := inferInstanceAs (Decidable (_ ∨ _))

instance : Decidable (Within inner outer) := inferInstanceAs (Decidable (_ ∧ _))

theorem Apart.symm (apart : Apart first second) : Apart second first := Or.symm apart

theorem Within.trans (within : Within region inner) (wider : Within inner outer) : Within region outer :=
  ⟨Nat.le_trans wider.1 within.1, Nat.le_trans within.2 wider.2⟩

/-- Parts of regions that are apart are apart. -/
theorem Apart.within {others : Region} (apart : Apart outer others) (left : Within first outer)
    (right : Within second others) : Apart first second := by
  rcases apart with before | behind
  · exact .inl (Nat.le_trans left.2 (Nat.le_trans before right.1))
  · exact .inr (Nat.le_trans right.2 (Nat.le_trans behind left.1))

/-- The region of an index where all have the same length. -/
def slot (base stride index : Nat) : Region := ⟨base + index * stride, stride⟩

theorem slot_stop_le (base stride : Nat) {index limit : Nat} (below : index < limit) :
    (slot base stride index).stop ≤ base + limit * stride := by
  have next : (index + 1) * stride ≤ limit * stride := Nat.mul_le_mul_right stride below
  rw [Nat.succ_mul] at next
  simp only [slot, stop]
  omega

theorem slot_apart (base stride : Nat) {index other : Nat} (different : index ≠ other) :
    Apart (slot base stride index) (slot base stride other) := by
  rcases Nat.lt_or_gt_of_ne different with below | above
  · exact .inl (slot_stop_le base stride below)
  · exact .inr (slot_stop_le base stride above)

theorem slot_within (base stride : Nat) {index count : Nat} (below : index < count) :
    Within (slot base stride index) ⟨base, count * stride⟩ :=
  ⟨Nat.le_add_right .., slot_stop_le base stride below⟩

end Region

def Image.readRegion (image : Image) (region : Region) : List UInt8 := image.read region.start region.length

/-- What is written to one region is not read from another one that is apart from it. -/
theorem Image.readRegion_write {target region : Region} (image : Image) (data : List UInt8)
    (length : data.length = target.length) (apart : Region.Apart target region) :
    (image.write target.start data).readRegion region = image.readRegion region := by
  apply Image.read_write_disjoint
  rw [length]
  exact apart.symm

end NpuDriver.Library
