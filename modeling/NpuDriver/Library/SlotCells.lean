import NpuDriver.Library.Regions
import Mathlib.Logic.Function.Basic

/-! Cells of one width, at a stride, in a memory: each is written and read as if it were a memory of its own. -/

namespace NpuDriver.Library

structure CellArray where
  base : Nat
  stride : Nat
  width : Nat
  narrow : width ≤ stride

namespace CellArray

variable {array : CellArray} {image : Image} {count index other offset : Nat} {cells : Nat → Image} {data : List UInt8}

def address (array : CellArray) (index : Nat) : Nat := array.base + index * array.stride

def cell (array : CellArray) (index : Nat) : Region := ⟨array.address index, array.width⟩

theorem cell_apart (array : CellArray) (different : index ≠ other) : (array.cell index).Apart (array.cell other) := by
  have slots := Region.slot_apart array.base array.stride different
  have narrow := array.narrow
  apply slots.within
  · exact ⟨Nat.le_refl _, Nat.add_le_add_left narrow _⟩
  · exact ⟨Nat.le_refl _, Nat.add_le_add_left narrow _⟩

theorem cell_within (array : CellArray) (below : index < count) :
    (array.cell index).Within ⟨array.base, count * array.stride⟩ := by
  have slot := Region.slot_within array.base array.stride below
  exact ⟨slot.1, Nat.le_trans (Nat.add_le_add_left array.narrow _) slot.2⟩

/-- The cells below a count have the given contents. -/
def Stores (array : CellArray) (image : Image) (count : Nat) (cells : Nat → Image) : Prop :=
  ∀ index < count, ∀ offset < array.width, image (array.address index + offset) = cells index offset

/-- What is read inside a cell is read from its contents. -/
theorem Stores.read (stores : array.Stores image count cells) (below : index < count)
    (inside : offset + length ≤ array.width) :
    image.read (array.address index + offset) length = (cells index).read offset length := by
  apply List.map_congr_left
  intro position member
  have bound : position < length := List.mem_range.mp member
  rw [Nat.add_assoc]
  exact stores index below (offset + position) (by omega)

/-- A write inside a cell changes the contents of this cell alone. -/
theorem Stores.write (stores : array.Stores image count cells) (inside : offset + data.length ≤ array.width) :
    array.Stores (image.write (array.address index + offset) data) count
      (Function.update cells index ((cells index).write offset data)) := by
  intro place below position within
  by_cases same : place = index
  · subst same
    rw [Function.update_self]
    by_cases written : offset ≤ position ∧ position < offset + data.length
    · obtain ⟨skipped, rfl⟩ := Nat.exists_eq_add_of_le written.1
      have bound : skipped < data.length := by omega
      rw [← Nat.add_assoc, image.write_at data bound, (cells place).write_at data bound]
    · rw [image.write_outside data (by omega), (cells place).write_outside data (by omega)]
      exact stores place below position within
  · rw [Function.update_of_ne same]
    have apart := array.cell_apart same
    have kept : array.address place + position < array.address index + offset ∨
        array.address index + offset + data.length ≤ array.address place + position := by
      rcases apart with before | behind
      · left
        simp only [cell, Region.stop] at before
        omega
      · right
        simp only [cell, Region.stop] at behind
        omega
    rw [image.write_outside data kept]
    exact stores place below position within

/-- A cell that is overwritten as a whole holds what was written, every other one what it held. -/
theorem readCell_write (array : CellArray) (image : Image) (index other : Nat) (length : data.length = array.width) :
    (image.write (array.address index) data).readRegion (array.cell other) =
      if other = index then data else image.readRegion (array.cell other) := by
  split
  · rename_i same
    subst same
    have written := image.read_write_same (array.address other) data
    rwa [length] at written
  · rename_i different
    exact image.readRegion_write data length (array.cell_apart (Ne.symm different))

/-- Where all bytes of a region are equal, the cells inside it hold that byte only. -/
theorem Stores.constant {byte : UInt8} (within : count * array.stride ≤ length)
    (filled : ∀ position < length, image (array.base + position) = byte) :
    array.Stores image count fun _ _ => byte := by
  intro index below offset inside
  have slot := (array.cell_within below).2
  simp only [cell, Region.stop, address] at slot
  have place := filled (index * array.stride + offset) (by omega)
  rwa [← Nat.add_assoc] at place

end CellArray

end NpuDriver.Library
