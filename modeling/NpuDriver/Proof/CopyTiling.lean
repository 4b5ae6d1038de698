import Mathlib.Algebra.Order.Floor.Div
import NpuDriver.Library.Tiling
import NpuDriver.Proof.DataCommands

/-! The descriptors of a copy command as a tiling of the copied range. -/

namespace NpuDriver

open Library

/-- `VPU_CMD_COPY_DESC_COUNT_MAX`. -/
def VPU_CMD_COPY_DESC_COUNT_MAX : Nat := 4096

/-- What the descriptors of a copy command are to be. -/
structure VPUCommand.TilesCopy (cmd : VPUCommand) (layout : CopyDescriptorLayout) (srcAddr dstAddr size : Nat) :
    Prop where
  source : Tiles srcAddr (srcAddr + size) ((cmd.copyRanges layout).map fun range => (range.srcAddr, range.size))
  destination : Tiles dstAddr (dstAddr + size) ((cmd.copyRanges layout).map fun range => (range.dstAddr, range.size))
  offsets : ∀ range ∈ cmd.copyRanges layout, range.srcAddr - srcAddr = range.dstAddr - dstAddr
  limited : ∀ range ∈ cmd.copyRanges layout, 0 < range.size ∧ range.size ≤ COPY_SIZE_LIMIT
  count : (cmd.copyRanges layout).length = size ⌈/⌉ COPY_SIZE_LIMIT
  stored : ∃ descStartOffset, cmd.command = .copyBuffer descStartOffset (size ⌈/⌉ COPY_SIZE_LIMIT)
  supported : size ⌈/⌉ COPY_SIZE_LIMIT ≤ VPU_CMD_COPY_DESC_COUNT_MAX
  unwrapped : size + COPY_SIZE_LIMIT - 1 < 2 ^ 64

/-- The last descriptor of a range that starts at an address is still inside 64 bits. -/
def LastDescriptorFits (addr size : Nat) : Prop :=
  size = 0 ∨ addr + (size - 1) / COPY_SIZE_LIMIT * COPY_SIZE_LIMIT < 2 ^ 64

instance (addr size : Nat) : Decidable (LastDescriptorFits addr size) :=
  inferInstanceAs (Decidable (_ ∨ _))

/-- As many chunks as are needed tile the copied range. -/
theorem chunks_tile (enough : sizeLeft ≤ count * COPY_SIZE_LIMIT)
    (needed : count * COPY_SIZE_LIMIT < sizeLeft + COPY_SIZE_LIMIT) :
    Tiles offset (offset + sizeLeft) (chunks count offset sizeLeft) := by
  induction count generalizing offset sizeLeft with
  | zero =>
    have none : sizeLeft = 0 := by omega
    subst none
    exact Tiles.nil offset
  | succ count ih =>
    rw [Nat.succ_mul] at enough needed
    rw [chunks]
    split
    · rename_i short
      have last : count = 0 := by
        by_contra more
        have := Nat.le_mul_of_pos_left COPY_SIZE_LIMIT (Nat.pos_of_ne_zero more)
        omega
      subst last
      exact Tiles.cons (by omega) (Tiles.nil (offset + sizeLeft))
    · rename_i long
      have later := @ih (sizeLeft - COPY_SIZE_LIMIT) (offset + COPY_SIZE_LIMIT) (by omega) (by omega)
      rw [show offset + COPY_SIZE_LIMIT + (sizeLeft - COPY_SIZE_LIMIT) = offset + sizeLeft by omega] at later
      exact Tiles.cons copySizeLimit_pos later

theorem chunks_length (count offset sizeLeft : Nat) : (chunks count offset sizeLeft).length = count := by
  induction count generalizing offset sizeLeft with
  | zero => rfl
  | succ count ih =>
    rw [chunks]
    split <;> simp [ih]

/-- The chunks start at the multiples of the limit. -/
theorem chunks_starts (count offset sizeLeft : Nat) :
    (chunks count offset sizeLeft).map Prod.fst =
      (List.range count).map fun index => offset + index * COPY_SIZE_LIMIT := by
  induction count generalizing offset sizeLeft with
  | zero => rfl
  | succ count ih =>
    have later : (List.range count).map (fun index => offset + COPY_SIZE_LIMIT + index * COPY_SIZE_LIMIT) =
        (List.range count).map fun index => offset + (index + 1) * COPY_SIZE_LIMIT := by
      apply List.map_congr_left
      intro index _
      rw [Nat.succ_mul]
      omega
    rw [chunks, List.range_succ_eq_map, List.map_cons, Nat.zero_mul, Nat.add_zero, List.map_map]
    split <;>
    · rw [List.map_cons, ih, later]
      rfl

/-- No chunk starts behind the 64-bit addresses exactly when the last one does not. -/
theorem starts_fit_iff {addr size count : Nat} (enough : size ≤ count * COPY_SIZE_LIMIT)
    (needed : count * COPY_SIZE_LIMIT < size + COPY_SIZE_LIMIT) :
    (∀ chunk ∈ chunks count 0 size, addr + chunk.1 < 2 ^ 64) ↔ LastDescriptorFits addr size := by
  have starts : (∀ chunk ∈ chunks count 0 size, addr + chunk.1 < 2 ^ 64) ↔
      ∀ start ∈ (chunks count 0 size).map Prod.fst, addr + start < 2 ^ 64 := by simp
  rw [starts, chunks_starts]
  simp only [Nat.zero_add, List.forall_mem_map, List.mem_range]
  constructor
  · intro fit
    rcases Nat.eq_zero_or_pos size with zero | positive
    · exact .inl zero
    · refine .inr (fit _ ?_)
      rw [Nat.div_lt_iff_lt_mul copySizeLimit_pos]
      omega
  · intro last index inside
    have within := Nat.mul_le_mul_right COPY_SIZE_LIMIT inside
    rw [Nat.succ_mul] at within
    rcases last with zero | last
    · have := copySizeLimit_pos
      omega
    · have before : index ≤ (size - 1) / COPY_SIZE_LIMIT := by
        rw [Nat.le_div_iff_mul_le copySizeLimit_pos]
        omega
      have := Nat.mul_le_mul_right COPY_SIZE_LIMIT before
      omega

/-- One side of a copy: the descriptors tile the range exactly when the last one is still inside 64
bits. -/
theorem side_tiles_iff {addr size count : Nat} (enough : size ≤ count * COPY_SIZE_LIMIT)
    (needed : count * COPY_SIZE_LIMIT < size + COPY_SIZE_LIMIT) :
    Tiles addr (addr + size) ((chunks count 0 size).map fun chunk => ((addr + chunk.1) % 2 ^ 64, chunk.2)) ↔
      LastDescriptorFits addr size := by
  have exact := (@chunks_tile _ _ 0 enough needed).shift addr
  rw [Nat.zero_add, Nat.add_zero] at exact
  rw [← starts_fit_iff enough needed]
  constructor
  · intro tiles chunk member
    have same := List.map_inj_left.mp (tiles.eq_of_sizes exact (by simp [Function.comp_def])) chunk member
    simp only [Prod.mk.injEq, and_true] at same
    rw [← same]
    exact Nat.mod_lt _ (by decide)
  · intro fit
    have same : (chunks count 0 size).map (fun chunk => ((addr + chunk.1) % 2 ^ 64, chunk.2)) =
        (chunks count 0 size).map fun chunk => (addr + chunk.1, chunk.2) := by
      apply List.map_congr_left
      intro chunk member
      rw [Nat.mod_eq_of_lt (fit chunk member)]
    rw [same]
    exact exact

/-- As many descriptors as the limit allows for a range. -/
theorem supported_iff (size : Nat) :
    size ⌈/⌉ COPY_SIZE_LIMIT ≤ VPU_CMD_COPY_DESC_COUNT_MAX ↔
      size ≤ VPU_CMD_COPY_DESC_COUNT_MAX * COPY_SIZE_LIMIT := by
  rw [ceilDiv_le_iff_le_mul copySizeLimit_pos, Nat.mul_comm]

/-- Where the computation of their number does not wrap, the descriptors tile the range unless there
are too many of them or the last one lies behind the 64-bit addresses. -/
theorem tilesCopy_iff_of_unwrapped {layout : CopyDescriptorLayout} {srcAddr dstAddr size : Nat}
    {descriptor : VPUDescriptor} {cmd : VPUCommand}
    (filled : fillDescriptor layout srcAddr dstAddr size = .ok descriptor)
    (carried : cmd.descriptor = some descriptor)
    (command : cmd.command = .copyBuffer 0 descriptor.numDescriptors)
    (unwrapped : size + COPY_SIZE_LIMIT - 1 < 2 ^ 64) :
    cmd.TilesCopy layout srcAddr dstAddr size ↔
      size ≤ VPU_CMD_COPY_DESC_COUNT_MAX * COPY_SIZE_LIMIT ∧
        LastDescriptorFits srcAddr size ∧ LastDescriptorFits dstAddr size := by
  have ranges := copyRanges_chunks filled carried
  obtain ⟨number, -⟩ := fillDescriptor_ok filled
  rw [Nat.mod_eq_of_lt unwrapped, ← Nat.ceilDiv_eq_add_pred_div] at number
  have positive := copySizeLimit_pos
  have enough : size ≤ descriptor.numDescriptors * COPY_SIZE_LIMIT := by
    rw [number, Nat.mul_comm]
    exact le_smul_ceilDiv positive
  have needed : descriptor.numDescriptors * COPY_SIZE_LIMIT < size + COPY_SIZE_LIMIT := by
    have := Nat.div_mul_le_self (size + COPY_SIZE_LIMIT - 1) COPY_SIZE_LIMIT
    rw [number, Nat.ceilDiv_eq_add_pred_div]
    omega
  have narrow : ∀ chunk ∈ chunks descriptor.numDescriptors 0 size, chunk.2 % 2 ^ 32 = chunk.2 := by
    intro chunk member
    have small := chunks_size_le member
    apply Nat.mod_eq_of_lt
    exact Nat.lt_of_le_of_lt small (by decide)
  have exact : cmd.copyRanges layout = (chunks descriptor.numDescriptors 0 size).map fun chunk =>
      ⟨(srcAddr + chunk.1) % 2 ^ 64, (dstAddr + chunk.1) % 2 ^ 64, chunk.2⟩ := by
    rw [ranges]
    apply List.map_congr_left
    intro chunk member
    rw [narrow chunk member]
  constructor
  · intro tiled
    refine ⟨(supported_iff size).mp tiled.supported, ?_, ?_⟩
    · have source := tiled.source
      simp only [exact, List.map_map, Function.comp_def] at source
      exact (side_tiles_iff enough needed).mp source
    · have destination := tiled.destination
      simp only [exact, List.map_map, Function.comp_def] at destination
      exact (side_tiles_iff enough needed).mp destination
  · rintro ⟨supported, srcFits, dstFits⟩
    constructor
    case source =>
      simp only [exact, List.map_map, Function.comp_def]
      exact (side_tiles_iff enough needed).mpr srcFits
    case destination =>
      simp only [exact, List.map_map, Function.comp_def]
      exact (side_tiles_iff enough needed).mpr dstFits
    case offsets =>
      simp only [exact, List.forall_mem_map]
      intro chunk member
      rw [Nat.mod_eq_of_lt ((starts_fit_iff enough needed).mpr srcFits chunk member),
        Nat.mod_eq_of_lt ((starts_fit_iff enough needed).mpr dstFits chunk member)]
      simp
    case limited =>
      simp only [exact, List.forall_mem_map]
      intro chunk member
      exact ⟨(chunks_bounds enough needed member).2.2, chunks_size_le member⟩
    case count => rw [exact, List.length_map, chunks_length, number]
    case stored => exact ⟨0, by rw [command, number]⟩
    case supported => exact (supported_iff size).mpr supported
    case unwrapped => exact unwrapped

/-- The descriptors of a created copy command are as the firmware expects them exactly when the copy
needs no more than the firmware supports and none of them lies behind the 64-bit addresses. -/
theorem copy_tiled_iff {ctx : VPUDeviceContext} {srcPtr dstPtr size : Nat} {srcBo dstBo : VPUBufferObject}
    {cmd : VPUCommand}
    (created : VPUCopyCommand.create ctx srcPtr (some srcBo) dstPtr (some dstBo) size = .ok cmd) :
    (∃ layout, ctx.hwInfo.getCopyCommand = some layout ∧
        cmd.TilesCopy layout (srcBo.getVPUAddr srcPtr) (dstBo.getVPUAddr dstPtr) size) ↔
      size ≤ VPU_CMD_COPY_DESC_COUNT_MAX * COPY_SIZE_LIMIT ∧
        LastDescriptorFits (srcBo.getVPUAddr srcPtr) size ∧ LastDescriptorFits (dstBo.getVPUAddr dstPtr) size := by
  obtain ⟨src, dst, layout, descriptor, srcSame, dstSame, -, -, writer, filled, command, carried, -⟩ :=
    VPUCopyCommand.create_ok created
  obtain rfl := Option.some.inj srcSame
  obtain rfl := Option.some.inj dstSame
  constructor
  · rintro ⟨_, known, tiled⟩
    obtain rfl := Option.some.inj (writer.symm.trans known)
    exact (tilesCopy_iff_of_unwrapped filled carried command tiled.unwrapped).mp tiled
  · rintro ⟨supported, fits⟩
    have unwrapped : size + COPY_SIZE_LIMIT - 1 < 2 ^ 64 := by
      have : VPU_CMD_COPY_DESC_COUNT_MAX * COPY_SIZE_LIMIT + COPY_SIZE_LIMIT - 1 < 2 ^ 64 := by decide
      omega
    exact ⟨layout, writer, (tilesCopy_iff_of_unwrapped filled carried command unwrapped).mpr ⟨supported, fits⟩⟩

/-- A buffer of 64 GiB. -/
def largeBuffer : VPUBufferObject := ⟨700, 701, 2 ^ 40, 2 ^ 36, 2 ^ 33⟩

def copyBetweenHalves (size : Nat) : Created :=
  VPUCopyCommand.create (grantingContext [largeBuffer]) largeBuffer.basePtr (some largeBuffer)
    (largeBuffer.basePtr + 2 ^ 35) (some largeBuffer) size

/-- Three descriptors for a copy of 20 MB. -/
theorem copy_tiled_three :
    ∃ cmd layout, copyBetweenHalves (20 * 2 ^ 20) = .ok cmd ∧
      cmd.TilesCopy layout (2 ^ 33) (2 ^ 33 + 2 ^ 35) (20 * 2 ^ 20) := by
  have created : ∃ cmd, copyBetweenHalves (20 * 2 ^ 20) = .ok cmd := ⟨_, rfl⟩
  obtain ⟨cmd, created⟩ := created
  obtain ⟨layout, -, tiled⟩ := (copy_tiled_iff created).mpr (by decide +kernel)
  exact ⟨cmd, layout, created, tiled⟩

/-- One byte more than 32 GiB gets a descriptor more than the firmware supports. -/
theorem copy_exceeds_descriptors :
    ∃ cmd, copyBetweenHalves (2 ^ 35 + 1) = .ok cmd ∧
      ¬ ∃ layout, cmd.TilesCopy layout (2 ^ 33) (2 ^ 33 + 2 ^ 35) (2 ^ 35 + 1) := by
  refine ⟨_, rfl, ?_⟩
  rintro ⟨layout, tiled⟩
  exact absurd ((supported_iff _).mp tiled.supported) (by decide)

end NpuDriver
