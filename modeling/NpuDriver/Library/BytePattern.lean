import NpuDriver.Library.ByteImage

/-! Memory filled with a repeated pattern, and blocks that are copied piece by piece. -/

namespace NpuDriver.Library

/-- Byte `index` of the endless repetition of a pattern. -/
def cycle (pattern : List UInt8) (index : Nat) : UInt8 := pattern.getD (index % pattern.length) 0

theorem cycle_congr (pattern : List UInt8) (same : index % pattern.length = other % pattern.length) :
    cycle pattern index = cycle pattern other := by
  rw [cycle, same, cycle]

/-- Copies of a pattern in a row. -/
theorem flatten_replicate_cycle (pattern : List UInt8) (count : Nat) :
    (List.replicate count pattern).flatten = (List.range (pattern.length * count)).map (cycle pattern) := by
  induction count with
  | zero => simp
  | succ count ih =>
    rw [List.replicate_succ', List.flatten_append, ih, Nat.mul_succ, List.range_add, List.map_append,
      List.map_map, List.flatten_singleton]
    congr 1
    apply List.ext_getElem
    · simp
    · intro index inside _
      simp [cycle, Nat.mod_eq_of_lt inside, List.getElem?_eq_getElem inside]

/-- Copies of a pattern in a row repeat like the pattern itself. -/
theorem cycle_flatten_replicate {pattern : List UInt8} (nonempty : 0 < pattern.length) (positive : 0 < count)
    (index : Nat) : cycle (List.replicate count pattern).flatten index = cycle pattern index := by
  have inside : index % (pattern.length * count) < pattern.length * count :=
    Nat.mod_lt _ (Nat.mul_pos nonempty positive)
  rw [flatten_replicate_cycle, cycle, List.length_map, List.length_range]
  simp only [List.getD_eq_getElem?_getD, List.getElem?_map, List.getElem?_range inside, Option.map_some,
    Option.getD_some]
  apply cycle_congr
  exact Nat.mod_mod_of_dvd index (Nat.dvd_mul_right _ _)

/-- An encoding in two parts. -/
theorem littleEndian_add (first second value : Nat) :
    littleEndian (first + second) value = littleEndian first value ++ littleEndian second (value / 256 ^ first) := by
  induction first generalizing value with
  | zero => simp [littleEndian]
  | succ first ih =>
    rw [Nat.succ_add, littleEndian, littleEndian, ih, Nat.div_div_eq_div_mul, Nat.pow_succ, Nat.mul_comm 256,
      List.cons_append]

theorem UInt8_ofNat_congr {first second : Nat} (same : first % 256 = second % 256) :
    UInt8.ofNat first = UInt8.ofNat second := by
  apply UInt8.toNat_inj.mp
  simpa using same

/-- Numbers that agree in the encoded bytes are encoded alike. -/
theorem littleEndian_congr {width first second : Nat} (same : first % 256 ^ width = second % 256 ^ width) :
    littleEndian width first = littleEndian width second := by
  induction width generalizing first second with
  | zero => rfl
  | succ width ih =>
    rw [Nat.pow_succ, Nat.mul_comm] at same
    have low : first % 256 = second % 256 := by
      rw [← Nat.mod_mul_right_mod first 256 (256 ^ width), same, Nat.mod_mul_right_mod]
    have high : first / 256 % 256 ^ width = second / 256 % 256 ^ width := by
      rw [← Nat.mod_mul_right_div_self, same, Nat.mod_mul_right_div_self]
    rw [littleEndian, littleEndian, UInt8_ofNat_congr low, ih high]

/-- A block whose bytes are computed from their positions. -/
theorem Image.write_map_range (image : Image) (offset count : Nat) (byte : Nat → UInt8) (address : Nat) :
    image.write offset ((List.range count).map byte) address =
      if offset ≤ address ∧ address < offset + count then byte (address - offset) else image address := by
  split
  · rename_i inside
    have bound : address - offset < ((List.range count).map byte).length := by
      rw [List.length_map, List.length_range]
      omega
    have written := @Image.write_at _ offset image _ bound
    rw [Nat.add_sub_cancel' inside.1] at written
    rw [written, List.getElem_map, List.getElem_range]
  · rename_i outside
    apply image.write_outside
    rw [List.length_map, List.length_range]
    omega

/-- Copy a block inside the memory. -/
def Image.copy (image : Image) (src dst count : Nat) : Image := image.write dst (image.read src count)

theorem Image.copy_apply (image : Image) (src dst count address : Nat) :
    image.copy src dst count address =
      if dst ≤ address ∧ address < dst + count then image (src + (address - dst)) else image address :=
  image.write_map_range dst count (fun index => image (src + index)) address

/-- Copy the pieces of a block, given by offset and size, one after another. -/
def Image.copyPieces (image : Image) (src dst : Nat) (pieces : List (Nat × Nat)) : Image :=
  pieces.foldl (fun image piece => image.copy (src + piece.1) (dst + piece.1) piece.2) image

/-- When the two blocks are apart, the copied bytes are those that the source had in the beginning. -/
theorem Image.copyPieces_apply {src dst total : Nat} (apart : src + total ≤ dst ∨ dst + total ≤ src)
    {pieces : List (Nat × Nat)} (inside : ∀ piece ∈ pieces, piece.1 + piece.2 ≤ total) (image : Image) :
    (∀ offset, (∃ piece ∈ pieces, piece.1 ≤ offset ∧ offset < piece.1 + piece.2) →
      image.copyPieces src dst pieces (dst + offset) = image (src + offset)) ∧
    ∀ address, (∀ piece ∈ pieces, address < dst + piece.1 ∨ dst + piece.1 + piece.2 ≤ address) →
      image.copyPieces src dst pieces address = image address := by
  induction pieces generalizing image with
  | nil => exact ⟨fun _ ⟨_, member, _⟩ => absurd member List.not_mem_nil, fun _ _ => rfl⟩
  | cons piece rest ih =>
    obtain ⟨first, others⟩ := List.forall_mem_cons.mp inside
    obtain ⟨copied, kept⟩ := ih others (image.copy (src + piece.1) (dst + piece.1) piece.2)
    have source : ∀ offset, offset < total →
        image.copy (src + piece.1) (dst + piece.1) piece.2 (src + offset) = image (src + offset) := by
      intro offset bound
      rw [Image.copy_apply, if_neg]
      omega
    constructor
    · intro offset covered
      by_cases later : ∃ piece ∈ rest, piece.1 ≤ offset ∧ offset < piece.1 + piece.2
      · have step := copied offset later
        obtain ⟨other, member, -, below⟩ := later
        exact step.trans (source offset (Nat.lt_of_lt_of_le below (others other member)))
      · obtain ⟨covering, member, above, below⟩ := covered
        rcases List.mem_cons.mp member with rfl | member
        · have untouched : image.copyPieces src dst (covering :: rest) (dst + offset) =
              image.copy (src + covering.1) (dst + covering.1) covering.2 (dst + offset) := by
            apply kept
            intro other listed
            by_contra touched
            exact later ⟨other, listed, by omega, by omega⟩
          rw [untouched, Image.copy_apply, if_pos (by omega)]
          congr 1
          omega
        · exact absurd ⟨covering, member, above, below⟩ later
    · intro address outside
      obtain ⟨away, elsewhere⟩ := List.forall_mem_cons.mp outside
      have step := kept address elsewhere
      rw [Image.copy_apply, if_neg (by omega)] at step
      exact step

end NpuDriver.Library
