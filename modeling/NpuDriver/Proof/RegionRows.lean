import NpuDriver.Proof.DeviceRanges
import NpuDriver.Proof.ReferencedHandles

/-! The rows that a region copy moves, against the rows that its arguments describe. -/

namespace NpuDriver

open Library ZeResult
open CommandList (CopyRegion RegionSide checkRegions)

/-- The offset of row `y` over the integers. -/
def CommandList.RegionSide.rowOffset (side : RegionSide) (y : Nat) : Nat :=
  side.region.originX + (side.region.originY + y) * side.pitch

/-- The copies of the described rows. -/
def describedRows (ctx : VPUDeviceContext) (dst src : RegionSide) : List Transfer :=
  (List.range dst.region.height).map fun y =>
    .copy ctx (src.ptr + src.rowOffset y) (ctx.findBufferObject (src.ptr + src.rowOffset y))
      (dst.ptr + dst.rowOffset y) (ctx.findBufferObject (dst.ptr + dst.rowOffset y)) dst.region.width

/-- The data commands that a call adds are the copies of the described rows, the rows of the
destination do not overlap, and no row of the source runs into the next one. -/
structure RegionCopied (list next : CommandList) (dst src : RegionSide) : Prop where
  copies : ∃ added, next.vpuJob.commands = list.vpuJob.commands ++ added ∧
    (added.filter fun cmd => cmd.isData).map Except.ok = (describedRows list.ctx dst src).map Transfer.create
  destination : ∀ y later, y < later → later < dst.region.height →
    dst.ptr + dst.rowOffset y + dst.region.width ≤ dst.ptr + dst.rowOffset later
  source : ∀ y, y + 1 < src.region.height →
    src.ptr + src.rowOffset y + src.region.width ≤ src.ptr + src.rowOffset (y + 1)

/-- The offset of the last row fits into 32 bits. -/
def CommandList.RegionSide.LastRowFits (side : RegionSide) : Prop :=
  side.region.height = 0 ∨ side.rowOffset (side.region.height - 1) < 2 ^ 32

/-- The rows are at least as far apart as they are wide. -/
def CommandList.RegionSide.Spaced (side : RegionSide) : Prop :=
  side.region.height ≤ 1 ∨ side.region.width ≤ side.pitch

instance (side : RegionSide) : Decidable side.LastRowFits := inferInstanceAs (Decidable (_ ∨ _))

instance (side : RegionSide) : Decidable side.Spaced := inferInstanceAs (Decidable (_ ∨ _))

namespace CommandList.RegionSide

variable {side : RegionSide}

theorem rowOffset_succ (side : RegionSide) (y : Nat) :
    side.rowOffset (y + 1) = side.rowOffset y + side.pitch := by
  simp only [rowOffset, ← Nat.add_assoc, Nat.succ_mul]

theorem rowOffset_mono (side : RegionSide) (before : y ≤ later) : side.rowOffset y ≤ side.rowOffset later := by
  induction before with
  | refl => exact Nat.le_refl _
  | step _ ih =>
    rw [rowOffset_succ]
    exact Nat.le_add_right_of_le ih

theorem rowAddress_eq_iff (side : RegionSide) (y : Nat) :
    side.rowAddress y = side.ptr + side.rowOffset y ↔ side.rowOffset y < 2 ^ 32 := by
  have wraps := Nat.mod_lt (side.rowOffset y) (show 2 ^ 32 > 0 by decide)
  simp only [rowAddress, rowOffset] at wraps ⊢
  constructor
  · intro same
    omega
  · intro small
    rw [Nat.mod_eq_of_lt small]

theorem rows_fit (last : side.LastRowFits) (inside : y < side.region.height) : side.rowOffset y < 2 ^ 32 := by
  rcases last with none | last
  · omega
  · exact Nat.lt_of_le_of_lt (side.rowOffset_mono (by omega)) last

/-- Rows that are spaced do not overlap. -/
theorem rows_disjoint (wide : side.region.width ≤ side.pitch) (before : y < later) :
    side.rowOffset y + side.region.width ≤ side.rowOffset later := by
  have next := side.rowOffset_mono before
  rw [rowOffset_succ] at next
  omega

theorem spaced_iff :
    side.Spaced ↔ ∀ y, y + 1 < side.region.height →
      side.ptr + side.rowOffset y + side.region.width ≤ side.ptr + side.rowOffset (y + 1) := by
  constructor
  · rintro (few | wide) y inside
    · omega
    · have := rows_disjoint wide (Nat.lt_add_one y)
      omega
  · intro apart
    by_cases few : side.region.height ≤ 1
    · exact .inl few
    · have first := apart 0 (by omega)
      rw [rowOffset_succ] at first
      exact .inr (by omega)

end CommandList.RegionSide

/-- What the checks of a region copy establish. -/
theorem checkRegions_success {dst src : RegionSide} (success : checkRegions dst src = ZE_RESULT_SUCCESS) :
    dst.region.height = src.region.height ∧ 0 < dst.region.width ∧ dst.region.width ≤ dst.pitch := by
  unfold checkRegions at success
  by_cases differ : dst.region.width ≠ src.region.width ∨ dst.region.height ≠ src.region.height ∨
      dst.region.depth ≠ src.region.depth
  · simp only [if_pos differ] at success
    cases success
  · by_cases empty : dst.region.width = 0
    · simp only [if_neg differ, if_pos empty] at success
      cases success
    · by_cases narrow : dst.pitch < dst.region.width
      · simp only [if_neg differ, if_neg empty, if_pos narrow] at success
        cases success
      · omega

theorem appendAssociateBufferObjects_pair (src dst : VPUBufferObject) :
    appendAssociateBufferObjects [] [src, dst] = if src.id = dst.id then [src] else [src, dst] := by
  simp only [appendAssociateBufferObjects, List.foldl_cons, List.foldl_nil, appendAssociateBufferObject]
  by_cases same : src.id = dst.id <;> simp [same]

/-- The buffer objects of a copy command say which two buffers it was created from. -/
theorem pair_unique {src dst otherSrc otherDst : VPUBufferObject}
    (same : appendAssociateBufferObjects [] [src, dst] = appendAssociateBufferObjects [] [otherSrc, otherDst]) :
    src = otherSrc ∧ dst.id = otherDst.id := by
  simp only [appendAssociateBufferObjects_pair] at same
  by_cases one : src.id = dst.id
  · by_cases other : otherSrc.id = otherDst.id
    · simp only [if_pos one, if_pos other, List.cons.injEq, and_true] at same
      subst same
      exact ⟨rfl, one.symm.trans other⟩
    · simp [one, other] at same
  · by_cases other : otherSrc.id = otherDst.id
    · simp [one, other] at same
    · simp only [if_neg one, if_neg other, List.cons.injEq, and_true] at same
      exact ⟨same.1, congrArg VPUBufferObject.id same.2⟩

/-- A device address belongs to one pointer into a buffer. -/
theorem VPUBufferObject.Placed.pointer_unique {bo : VPUBufferObject} (placed : bo.Placed)
    (inside : bo.isInRange ptr = true) (otherInside : bo.isInRange other = true)
    (same : bo.getVPUAddr ptr % 2 ^ 64 = bo.getVPUAddr other % 2 ^ 64) : ptr = other := by
  have device := placed.device
  rw [getVPUAddr_of_inRange inside, getVPUAddr_of_inRange otherInside] at same
  rw [isInRange_iff] at inside otherInside
  omega

/-- Two copies that yield the same command start at the same pointers. -/
theorem copy_pointers_unique {ctx : VPUDeviceContext} {srcPtr dstPtr otherSrc otherDst size : Nat}
    {cmd : VPUCommand} (placed : ctx.Placed) (identified : Identified ctx.trackedBuffers) (positive : 0 < size)
    (narrow : size < 2 ^ 32)
    (first : VPUCopyCommand.create ctx srcPtr (ctx.findBufferObject srcPtr) dstPtr (ctx.findBufferObject dstPtr)
      size = .ok cmd)
    (second : VPUCopyCommand.create ctx otherSrc (ctx.findBufferObject otherSrc) otherDst
      (ctx.findBufferObject otherDst) size = .ok cmd) :
    srcPtr = otherSrc ∧ dstPtr = otherDst := by
  obtain ⟨src, dst, layout, descriptor, srcFound, dstFound, srcInside, dstInside, writer, filled, -, carried,
    buffers⟩ := VPUCopyCommand.create_ok first
  obtain ⟨src', dst', layout', descriptor', srcFound', dstFound', srcInside', dstInside', writer', filled', -,
    carried', buffers'⟩ := VPUCopyCommand.create_ok second
  obtain rfl := Option.some.inj (writer.symm.trans writer')
  obtain rfl := Option.some.inj (carried.symm.trans carried')
  obtain ⟨rfl, sameId⟩ := pair_unique (buffers.symm.trans buffers')
  obtain rfl := identified dst (VPUDeviceContext.findBufferObject_mem dstFound) dst' (VPUDeviceContext.findBufferObject_mem dstFound') sameId
  -- both descriptions of the first descriptor hold of the same bytes
  have ranges := (copyRanges_chunks filled carried).symm.trans (copyRanges_chunks filled' carried)
  obtain ⟨count, -⟩ := fillDescriptor_ok filled
  obtain ⟨chunk, member, atFront, -⟩ : ∃ chunk ∈ chunks descriptor.numDescriptors 0 size,
      chunk.1 ≤ 0 + 0 ∧ 0 + 0 < chunk.1 + chunk.2 := by
    apply chunks_cover _ positive
    rcases descriptorCount_cases (show size < 2 ^ 64 by omega) with ⟨none, -⟩ | ⟨-, -, enough, -⟩
    · simp only [COPY_SIZE_LIMIT] at none
      omega
    · rw [count]
      exact enough
  have same := List.map_inj_left.mp ranges chunk member
  simp only [CopyRange.mk.injEq, and_true, Nat.le_zero.mp atFront, Nat.add_zero] at same
  exact ⟨(placed.found src srcFound).pointer_unique srcInside srcInside' same.1,
    (placed.found dst dstFound).pointer_unique dstInside dstInside' same.2⟩

/-- The rows that are copied are the described ones while their offsets fit into 32 bits. -/
theorem rowTransfers_described {ctx : VPUDeviceContext} {dst src : RegionSide}
    (heights : dst.region.height = src.region.height) (dstFits : dst.LastRowFits) (srcFits : src.LastRowFits) :
    rowTransfers ctx dst src = describedRows ctx dst src := by
  apply List.map_congr_left
  intro y member
  have inside := List.mem_range.mp member
  rw [(dst.rowAddress_eq_iff y).mpr (RegionSide.rows_fit dstFits inside),
    (src.rowAddress_eq_iff y).mpr (RegionSide.rows_fit srcFits (heights ▸ inside))]

/-- A last row that is copied from and to where it is described has offsets of 32 bits. -/
theorem described_rows_fit {ctx : VPUDeviceContext} {dst src : RegionSide} {commands : List VPUCommand}
    (placed : ctx.Placed) (identified : Identified ctx.trackedBuffers)
    (heights : dst.region.height = src.region.height) (positive : 0 < dst.region.width)
    (narrow : dst.region.width < 2 ^ 32)
    (copied : commands.map Except.ok = (rowTransfers ctx dst src).map Transfer.create)
    (described : commands.map Except.ok = (describedRows ctx dst src).map Transfer.create) :
    dst.LastRowFits ∧ src.LastRowFits := by
  by_cases none : dst.region.height = 0
  · exact ⟨.inl none, .inl (heights ▸ none)⟩
  · have last : dst.region.height - 1 ∈ List.range dst.region.height := List.mem_range.mpr (by omega)
    have same := copied.symm.trans described
    simp only [rowTransfers, describedRows, List.map_map] at same
    have equal := List.map_inj_left.mp same _ last
    obtain ⟨cmd, -, created⟩ : ∃ cmd ∈ commands, Except.ok cmd = Transfer.create (.copy ctx
        (src.rowAddress (dst.region.height - 1)) (ctx.findBufferObject (src.rowAddress (dst.region.height - 1)))
        (dst.rowAddress (dst.region.height - 1)) (ctx.findBufferObject (dst.rowAddress (dst.region.height - 1)))
        dst.region.width) := by
      apply List.mem_map.mp
      rw [copied]
      exact List.mem_map_of_mem (List.mem_map_of_mem last)
    obtain ⟨srcSame, dstSame⟩ := copy_pointers_unique placed identified positive narrow created.symm
      (equal.symm.trans created.symm)
    have srcLast := (src.rowAddress_eq_iff _).mp srcSame
    rw [heights] at srcLast
    exact ⟨.inr ((dst.rowAddress_eq_iff _).mp dstSame), .inr srcLast⟩

/-- A successful region copy moves the described rows exactly when the offsets of the last rows fit
into 32 bits and the source's rows do not overlap. -/
theorem region_copied_iff {dstptr dstPitch dstSlicePitch srcptr srcPitch srcSlicePitch : Nat}
    {dstRegion srcRegion : CopyRegion} {hSignalEvent : Option Event} {waitEvents : WaitEvents}
    {list next : CommandList} (placed : list.ctx.Placed) (identified : Identified list.ctx.trackedBuffers)
    (narrow : dstRegion.width < 2 ^ 32)
    (success : CommandList.appendMemoryCopyRegion dstptr (some dstRegion) dstPitch dstSlicePitch srcptr
      (some srcRegion) srcPitch srcSlicePitch hSignalEvent waitEvents list = (ZE_RESULT_SUCCESS, next)) :
    RegionCopied list next ⟨dstptr, dstRegion, dstPitch, dstSlicePitch⟩
        ⟨srcptr, srcRegion, srcPitch, srcSlicePitch⟩ ↔
      RegionSide.LastRowFits ⟨dstptr, dstRegion, dstPitch, dstSlicePitch⟩ ∧
        RegionSide.LastRowFits ⟨srcptr, srcRegion, srcPitch, srcSlicePitch⟩ ∧
        RegionSide.Spaced ⟨srcptr, srcRegion, srcPitch, srcSlicePitch⟩ := by
  obtain ⟨added, commands, copied⟩ := @AppendOperation.added_transfers
    (.memoryCopyRegion dstptr (some dstRegion) dstPitch dstSlicePitch srcptr (some srcRegion) srcPitch
      srcSlicePitch hSignalEvent waitEvents) list next rfl success
  have checked : checkRegions ⟨dstptr, dstRegion, dstPitch, dstSlicePitch⟩
      ⟨srcptr, srcRegion, srcPitch, srcSlicePitch⟩ = ZE_RESULT_SUCCESS := by
    by_contra refused
    rw [CommandList.appendMemoryCopyRegion] at success
    split at success
    · cases success
    · simp only [Append.andThen] at success
      exact refused (Prod.mk.inj success).1
  obtain ⟨heights, positive, wide⟩ := checkRegions_success checked
  rw [RegionSide.spaced_iff]
  constructor
  · intro correct
    obtain ⟨others, again, described⟩ := correct.copies
    obtain rfl := List.append_cancel_left (commands.symm.trans again)
    obtain ⟨dstFits, srcFits⟩ := described_rows_fit placed identified heights positive narrow copied described
    exact ⟨dstFits, srcFits, correct.source⟩
  · rintro ⟨dstFits, srcFits, apart⟩
    refine ⟨⟨added, commands, ?_⟩, ?_, apart⟩
    · rw [copied, ← rowTransfers_described heights dstFits srcFits]
      rfl
    · intro y later before _
      rw [Nat.add_assoc]
      exact Nat.add_le_add_left (RegionSide.rows_disjoint wide before) _

/-- A copy of 64-byte rows to the front of the user buffer from a region of it. -/
def copyRegionOf (srcRegion : CopyRegion) : Append :=
  CommandList.appendMemoryCopyRegion userBuffer.basePtr (some ⟨0, 0, 0, 64, srcRegion.height, 1⟩) 64 0
    userBuffer.basePtr (some srcRegion) 128 0 none .none

theorem copyRegionOf_success (accepted : (copyRegionOf srcRegion dataCommandList).1 = ZE_RESULT_SUCCESS) :
    copyRegionOf srcRegion dataCommandList = (ZE_RESULT_SUCCESS, (copyRegionOf srcRegion dataCommandList).2) :=
  Prod.ext accepted rfl

/-- Three rows from the second one on. -/
theorem region_copied_three :
    RegionCopied dataCommandList (copyRegionOf ⟨64, 1, 0, 64, 3, 1⟩ dataCommandList).2
      ⟨userBuffer.basePtr, ⟨0, 0, 0, 64, 3, 1⟩, 64, 0⟩ ⟨userBuffer.basePtr, ⟨64, 1, 0, 64, 3, 1⟩, 128, 0⟩ :=
  (region_copied_iff dataCommandList_placed (by decide) (by decide) (copyRegionOf_success (by decide +kernel))).mpr
    (by decide)

/-- The last row of the region starts four gigabytes behind the pointer. -/
def farRegion : CopyRegion := ⟨2 ^ 32 - 128, 1, 0, 64, 1, 1⟩

/-- It is taken from the pointer itself. -/
theorem region_offset_wraps :
    (copyRegionOf farRegion dataCommandList).1 = ZE_RESULT_SUCCESS ∧
      ¬ RegionCopied dataCommandList (copyRegionOf farRegion dataCommandList).2
        ⟨userBuffer.basePtr, ⟨0, 0, 0, 64, 1, 1⟩, 64, 0⟩ ⟨userBuffer.basePtr, farRegion, 128, 0⟩ := by
  have accepted : (copyRegionOf farRegion dataCommandList).1 = ZE_RESULT_SUCCESS := by decide +kernel
  refine ⟨accepted, ?_⟩
  intro correct
  obtain ⟨added, commands, described⟩ := correct.copies
  have moved := @AppendOperation.added_transfers
    (.memoryCopyRegion userBuffer.basePtr (some ⟨0, 0, 0, 64, farRegion.height, 1⟩) 64 0 userBuffer.basePtr
      (some farRegion) 128 0 none .none) dataCommandList
    (copyRegionOf farRegion dataCommandList).2 rfl (copyRegionOf_success accepted)
  obtain ⟨others, again, copied⟩ := moved
  have same := List.append_cancel_left (commands.symm.trans again)
  subst same
  have fits := (@described_rows_fit _ ⟨userBuffer.basePtr, ⟨0, 0, 0, 64, 1, 1⟩, 64, 0⟩
    ⟨userBuffer.basePtr, farRegion, 128, 0⟩ _ dataCommandList_placed (by decide) rfl
    (by decide) (by decide) copied described).2
  exact absurd fits (by decide)

end NpuDriver
