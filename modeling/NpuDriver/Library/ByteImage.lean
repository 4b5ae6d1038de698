import Mathlib.Data.List.Basic
import Mathlib.Tactic.Ring

/-! Byte-addressed memory regions written by block copies, and the little-endian
encoding of the integers stored in them. -/

namespace NpuDriver.Library

/-- `value` as `width` bytes, least significant first. -/
def littleEndian : Nat → Nat → List UInt8
  | 0, _ => []
  | width + 1, value => UInt8.ofNat value :: littleEndian width (value / 256)

def fromLittleEndian : List UInt8 → Nat
  | [] => 0
  | byte :: rest => byte.toNat + 256 * fromLittleEndian rest

@[simp] theorem littleEndian_length (width value : Nat) :
    (littleEndian width value).length = width := by
  induction width generalizing value with
  | zero => rfl
  | succ width ih => simp [littleEndian, ih]

theorem fromLittleEndian_littleEndian (width value : Nat) :
    fromLittleEndian (littleEndian width value) = value % 256 ^ width := by
  induction width generalizing value with
  | zero => simp [littleEndian, fromLittleEndian, Nat.mod_one]
  | succ width ih =>
    simp only [littleEndian, fromLittleEndian, ih]
    have low : (UInt8.ofNat value).toNat = value % 256 := by simp
    rw [low, Nat.pow_succ, Nat.mul_comm (256 ^ width) 256, Nat.mod_mul]

/-- Encoding loses nothing of a value that fits the width. -/
theorem fromLittleEndian_of_lt (fits : value < 256 ^ width) :
    fromLittleEndian (littleEndian width value) = value := by
  rw [fromLittleEndian_littleEndian, Nat.mod_eq_of_lt fits]

/-- The contents of a memory region, by offset from its base. -/
abbrev Image := Nat → UInt8

/-- Copy a block of bytes to an offset; every other byte keeps its value. -/
def Image.write (image : Image) (offset : Nat) (data : List UInt8) : Image := fun address =>
  if offset ≤ address then (data[address - offset]?).getD (image address) else image address

def Image.read (image : Image) (offset length : Nat) : List UInt8 :=
  (List.range length).map fun index => image (offset + index)

@[simp] theorem Image.read_length (image : Image) (offset length : Nat) :
    (image.read offset length).length = length := by
  simp [Image.read]

@[simp] theorem Image.read_zero (image : Image) (offset : Nat) : image.read offset 0 = [] := rfl

theorem Image.read_add (image : Image) (offset first second : Nat) :
    image.read offset (first + second) =
      image.read offset first ++ image.read (offset + first) second := by
  simp [Image.read, List.range_add, List.map_append, Nat.add_assoc]

theorem Image.write_at (image : Image) (data : List UInt8) (inside : index < data.length) :
    image.write offset data (offset + index) = data[index] := by
  simp [Image.write, List.getElem?_eq_getElem inside]

theorem Image.write_outside (image : Image) (data : List UInt8)
    (outside : address < offset ∨ offset + data.length ≤ address) :
    image.write offset data address = image address := by
  unfold Image.write
  split
  · rename_i below
    have beyond : data[address - offset]? = none := by
      apply List.getElem?_eq_none
      omega
    simp [beyond]
  · rfl

@[simp] theorem Image.write_nil (image : Image) (offset : Nat) : image.write offset [] = image := by
  funext address
  simp [Image.write]

/-- Regions that agree byte by byte read alike. -/
theorem Image.read_congr {image other : Image}
    (same : ∀ address, start ≤ address → address < start + length → image address = other address) :
    image.read start length = other.read start length := by
  apply List.map_congr_left
  intro index member
  have bound : index < length := List.mem_range.mp member
  exact same (start + index) (by omega) (by omega)

/-- A block that was just written reads back unchanged. -/
theorem Image.read_write_same (image : Image) (offset : Nat) (data : List UInt8) :
    (image.write offset data).read offset data.length = data := by
  apply List.ext_getElem
  · simp
  · intro index _ inside
    simp [Image.read, image.write_at data inside]

/-- A write leaves every block that it does not touch as it was. -/
theorem Image.read_write_disjoint (image : Image) (data : List UInt8)
    (disjoint : start + length ≤ offset ∨ offset + data.length ≤ start) :
    (image.write offset data).read start length = image.read start length := by
  apply Image.read_congr
  intro address lower upper
  apply image.write_outside data
  omega

/-- Equal blocks agree on every block inside them. -/
theorem Image.read_sub {image other : Image} (same : image.read offset length = other.read offset length)
    (lower : offset ≤ start) (upper : start + size ≤ offset + length) :
    image.read start size = other.read start size := by
  apply List.map_congr_left
  intro index member
  have bound : index < size := List.mem_range.mp member
  have at_index := congrArg (fun bytes => bytes[start - offset + index]?) same
  have inside : start - offset + index < length := by omega
  simpa [Image.read, inside, show offset + (start - offset + index) = start + index by omega]
    using at_index

/-- Regions laid out one after another: each item occupies its first component and advances
the position by its second. -/
def tile : Nat → List (Nat × Nat) → List (Nat × Nat)
  | _, [] => []
  | start, (length, stride) :: rest => (start, length) :: tile (start + stride) rest

theorem tile_bounds {items : List (Nat × Nat)} (fit : ∀ item ∈ items, item.1 ≤ item.2)
    (member : region ∈ tile start items) :
    start ≤ region.1 ∧ region.1 + region.2 ≤ start + (items.map Prod.snd).sum := by
  induction items generalizing start with
  | nil => simp [tile] at member
  | cons item rest ih =>
    have first := fit item (List.mem_cons_self ..)
    simp only [List.map_cons, List.sum_cons]
    rcases List.mem_cons.mp member with rfl | later
    · simp only
      omega
    · have bounds := ih (fun other present => fit other (List.mem_cons_of_mem item present)) later
      omega

theorem tile_ordered {items : List (Nat × Nat)} (fit : ∀ item ∈ items, item.1 ≤ item.2) :
    (tile start items).Pairwise fun earlier later => earlier.1 + earlier.2 ≤ later.1 := by
  induction items generalizing start with
  | nil => exact List.Pairwise.nil
  | cons item rest ih =>
    have others : ∀ other ∈ rest, other.1 ≤ other.2 := fun other present =>
      fit other (List.mem_cons_of_mem item present)
    refine List.Pairwise.cons ?_ (ih others)
    intro region later
    have first := fit item (List.mem_cons_self ..)
    have bounds := tile_bounds others later
    simp only
    omega

end NpuDriver.Library
