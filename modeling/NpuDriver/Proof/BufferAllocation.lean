import NpuDriver.Proof.StreamReading

/-! Allocation of a command buffer: where each stream and each descriptor block ends up. -/

namespace NpuDriver

open Library

namespace VPUCommandBuffer

/-- Placing commands changes none of these. -/
structure SameFrame (cb next : VPUCommandBuffer) : Prop where
  buffer : next.buffer = cb.buffer
  commandsBegin : next.commandsBegin = cb.commandsBegin
  commandsEnd : next.commandsEnd = cb.commandsEnd
  preemptionBuffer : next.preemptionBuffer = cb.preemptionBuffer
  preemptionBufferIndex : next.preemptionBufferIndex = cb.preemptionBufferIndex
  inferenceScratchBuffer : next.inferenceScratchBuffer = cb.inferenceScratchBuffer
  waitBoGuard : next.waitBoGuard = cb.waitBoGuard

theorem SameFrame.refl (cb : VPUCommandBuffer) : cb.SameFrame cb := ⟨rfl, rfl, rfl, rfl, rfl, rfl, rfl⟩

theorem SameFrame.trans {first second third : VPUCommandBuffer} (left : first.SameFrame second)
    (right : second.SameFrame third) : first.SameFrame third where
  buffer := right.buffer.trans left.buffer
  commandsBegin := right.commandsBegin.trans left.commandsBegin
  commandsEnd := right.commandsEnd.trans left.commandsEnd
  preemptionBuffer := right.preemptionBuffer.trans left.preemptionBuffer
  preemptionBufferIndex := right.preemptionBufferIndex.trans left.preemptionBufferIndex
  inferenceScratchBuffer := right.inferenceScratchBuffer.trans left.inferenceScratchBuffer
  waitBoGuard := right.waitBoGuard.trans left.waitBoGuard

theorem addStream_success {cb : VPUCommandBuffer} {cmd : VPUCommand}
    (success : (cb.addStream cmd offset descriptors).success = true) :
    offset + cmd.getCommitSize ≤ cb.buffer.allocSize ∧ 0 < cmd.getCommitSize ∧
      ∃ next, cb.addStream cmd offset descriptors =
          ⟨true, next, cmd, offset + cmd.getCommitSize, descriptors⟩ ∧ cb.SameFrame next ∧
        next.image = cb.image.write offset cmd.getCommitStream ∧
        next.bufferHandles = cb.bufferHandles := by
  unfold addStream at success ⊢
  cases copied : cb.buffer.copyToBuffer cb.image cmd.getCommitStream offset with
  | none => simp [copied] at success
  | some image =>
    obtain ⟨fits, nonempty, rfl⟩ := VPUBufferObject.copyToBuffer_some copied
    rw [VPUCommand.getCommitStream_length] at fits
    refine ⟨fits, ?_, _, rfl, ⟨rfl, rfl, rfl, rfl, rfl, rfl, rfl⟩, rfl, rfl⟩
    rw [← VPUCommand.getCommitStream_length]
    exact List.length_pos_iff.mpr nonempty

/-- The result of placing a command behind the commands and descriptors placed so far. -/
theorem addCommand_success {cb : VPUCommandBuffer} {cmd : VPUCommand} (area : descriptors ≠ 0)
    (success : (cb.addCommand cmd offset descriptors).success = true) :
    offset + cmd.getCommitSize ≤ cb.buffer.allocSize ∧ 0 < cmd.getCommitSize ∧
      ∃ next, cb.addCommand cmd offset descriptors =
          ⟨true, next, cmd.patchedAt cb.buffer.vpuAddr descriptors, offset + cmd.getCommitSize,
            descriptors + getFwDataCacheAlign cmd.getDescriptorSize⟩ ∧ cb.SameFrame next ∧
        next.image = (cb.image.write descriptors cmd.getDescriptorData).write offset
          (cmd.patchedAt cb.buffer.vpuAddr descriptors).getCommitStream ∧
        next.bufferHandles =
          addAllUnique cb.bufferHandles (cmd.bufferObjects.map VPUBufferObject.handle) := by
  unfold addCommand at success ⊢
  split at success
  · cases success
  · rename_i below
    simp only [if_neg below]
    by_cases carries : 0 < cmd.getDescriptorSize
    · simp only [ne_eq, area, not_false_eq_true, gt_iff_lt, carries, and_self, ↓reduceIte] at success ⊢
      cases copied : (cb.addHandles cmd.getAssociateBufferObjects).buffer.copyToBuffer
          (cb.addHandles cmd.getAssociateBufferObjects).image cmd.getDescriptorData descriptors with
      | none => simp [copied] at success
      | some image =>
        obtain ⟨-, -, rfl⟩ := VPUBufferObject.copyToBuffer_some copied
        simp only [copied] at success ⊢
        obtain ⟨fits, nonempty, next, result, frame, written, handles⟩ := addStream_success success
        simp only [VPUCommand.patchDescriptorAddress_getCommitSize] at fits nonempty result
        refine ⟨fits, nonempty, next, ?_, ⟨frame.1, frame.2, frame.3, frame.4, frame.5, frame.6, frame.7⟩,
          ?_, handles⟩
        · rw [result]
          simp [VPUCommand.patchedAt, carries, addHandles]
        · rw [written]
          simp [VPUCommand.patchedAt, carries, addHandles]
    · have empty : cmd.getDescriptorData = [] := by
        simpa [VPUCommand.getDescriptorSize, List.length_pos_iff] using carries
      have size : cmd.getDescriptorSize = 0 := by simp [VPUCommand.getDescriptorSize, empty]
      simp only [ne_eq, area, not_false_eq_true, gt_iff_lt, carries, and_false, ↓reduceIte] at success ⊢
      obtain ⟨fits, nonempty, next, result, frame, written, handles⟩ := addStream_success success
      refine ⟨fits, nonempty, next, ?_, ⟨frame.1, frame.2, frame.3, frame.4, frame.5, frame.6, frame.7⟩,
        ?_, handles⟩
      · rw [result]
        simp [VPUCommand.patchedAt, size, getFwDataCacheAlign, ALIGN]
      · rw [written]
        simp [VPUCommand.patchedAt, size, empty, addHandles]

/-- What `addCommands` leaves in the buffer: the streams from `offset` on, the descriptor
blocks from `descriptors` on, and nothing anywhere else. -/
structure Filled (cb filled : VPUCommandBuffer) (cmds : List VPUCommand) (offset descriptors : Nat) :
    Prop where
  frame : cb.SameFrame filled
  handles : filled.bufferHandles =
    addAllUnique cb.bufferHandles (cmds.flatMap fun cmd => cmd.bufferObjects.map VPUBufferObject.handle)
  positive : ∀ cmd ∈ cmds, 0 < cmd.getCommitSize
  streams : filled.image.read offset (commitSizes cmds) =
    (patchAddresses cb.buffer.vpuAddr descriptors cmds).flatMap VPUCommand.getCommitStream
  blocks : ∀ block ∈ descriptorBlocks descriptors cmds,
    filled.image.read block.1 block.2.length = block.2
  outside : ∀ address, address < offset ∨
    (offset + commitSizes cmds ≤ address ∧ address < descriptors) ∨
    descriptors + descriptorSizes cmds ≤ address → filled.image address = cb.image address

theorem descriptorBlocks_tile (descriptors : Nat) (cmds : List VPUCommand) :
    (descriptorBlocks descriptors cmds).map (fun block => (block.1, block.2.length)) =
      tile descriptors (cmds.map fun cmd =>
        (cmd.getDescriptorSize, getFwDataCacheAlign cmd.getDescriptorSize)) := by
  induction cmds generalizing descriptors with
  | nil => rfl
  | cons cmd rest ih => simp [descriptorBlocks, tile, ih, VPUCommand.getDescriptorSize]

theorem descriptorBlocks_bounds (member : block ∈ descriptorBlocks descriptors cmds) :
    descriptors ≤ block.1 ∧ block.1 + block.2.length ≤ descriptors + descriptorSizes cmds := by
  have region : (block.1, block.2.length) ∈ tile descriptors (cmds.map fun cmd =>
      (cmd.getDescriptorSize, getFwDataCacheAlign cmd.getDescriptorSize)) := by
    rw [← descriptorBlocks_tile]
    exact List.mem_map.mpr ⟨block, member, rfl⟩
  have fit : ∀ item ∈ cmds.map fun cmd =>
      (cmd.getDescriptorSize, getFwDataCacheAlign cmd.getDescriptorSize), item.1 ≤ item.2 := by
    intro item present
    obtain ⟨cmd, -, rfl⟩ := List.mem_map.mp present
    exact le_getFwDataCacheAlign _
  simpa [descriptorSizes, Function.comp_def] using tile_bounds fit region

theorem setSyncFenceAddr_some {cb fenced : VPUCommandBuffer} {cmd : VPUCommand}
    (success : cb.setSyncFenceAddr cmd = some fenced) :
    cb.SameFrame fenced ∧ fenced.image = cb.image ∧ fenced.bufferHandles = cb.bufferHandles := by
  unfold setSyncFenceAddr at success
  split at success
  · cases success
  · split at success
    · cases success
    · split at success
      · cases success
        exact ⟨⟨rfl, rfl, rfl, rfl, rfl, rfl, rfl⟩, rfl, rfl⟩
      · cases success

/-- One command placed in front of a filled rest. -/
theorem Filled.cons {cb next filled : VPUCommandBuffer} {cmd : VPUCommand} {rest : List VPUCommand}
    (frame : cb.SameFrame next) (area : offset + cmd.getCommitSize + commitSizes rest ≤ descriptors)
    (nonempty : 0 < cmd.getCommitSize)
    (written : next.image = (cb.image.write descriptors cmd.getDescriptorData).write offset
      (cmd.patchedAt cb.buffer.vpuAddr descriptors).getCommitStream)
    (handles : next.bufferHandles =
      addAllUnique cb.bufferHandles (cmd.bufferObjects.map VPUBufferObject.handle))
    (tail : next.Filled filled rest (offset + cmd.getCommitSize)
      (descriptors + getFwDataCacheAlign cmd.getDescriptorSize)) :
    cb.Filled filled (cmd :: rest) offset descriptors := by
  have size : commitSizes (cmd :: rest) = cmd.getCommitSize + commitSizes rest := by
    simp [commitSizes]
  have descriptorSize : descriptorSizes (cmd :: rest) =
      getFwDataCacheAlign cmd.getDescriptorSize + descriptorSizes rest := by
    simp [descriptorSizes]
  have aligned : cmd.getDescriptorData.length ≤ getFwDataCacheAlign cmd.getDescriptorSize :=
    le_getFwDataCacheAlign cmd.getDescriptorSize
  have streamLength : (cmd.patchedAt cb.buffer.vpuAddr descriptors).getCommitStream.length =
      cmd.getCommitSize := by
    simp
  refine ⟨frame.trans tail.frame, ?_, ?_, ?_, ?_, ?_⟩
  · rw [tail.handles, handles, List.flatMap_cons, addAllUnique_append]
  · intro other member
    rcases List.mem_cons.mp member with rfl | later
    · exact nonempty
    · exact tail.positive other later
  · have first : filled.image.read offset cmd.getCommitSize =
        (cmd.patchedAt cb.buffer.vpuAddr descriptors).getCommitStream := by
      have kept : filled.image.read offset cmd.getCommitSize = next.image.read offset cmd.getCommitSize := by
        apply Image.read_congr
        intro address lower upper
        exact tail.outside address (.inl upper)
      rw [kept, written, ← streamLength]
      exact Image.read_write_same _ offset _
    rw [size, Image.read_add, first, tail.streams, frame.buffer]
    rfl
  · intro block member
    rcases List.mem_cons.mp member with rfl | later
    · have kept : filled.image.read descriptors cmd.getDescriptorData.length =
          next.image.read descriptors cmd.getDescriptorData.length := by
        apply Image.read_congr
        intro address lower upper
        exact tail.outside address (.inr (.inl ⟨by omega, by omega⟩))
      simp only
      rw [kept, written, Image.read_write_disjoint _ _ (.inr (by rw [streamLength]; omega))]
      exact Image.read_write_same _ descriptors _
    · exact tail.blocks block later
  · intro address outside
    rw [size, descriptorSize] at outside
    rw [tail.outside address (by omega), written, Image.write_outside _ _ (by rw [streamLength]; omega),
      Image.write_outside _ _ (by omega)]

theorem addCommands_success {cb filled : VPUCommandBuffer} {cmds patched : List VPUCommand}
    (area : offset + commitSizes cmds ≤ descriptors) (positive : 0 < descriptors)
    (success : cb.addCommands cmds offset descriptors = (some (filled, offset', descriptors'), patched)) :
    cb.Filled filled cmds offset descriptors ∧
      offset' = offset + commitSizes cmds ∧ descriptors' = descriptors + descriptorSizes cmds ∧
      patched = patchAddresses cb.buffer.vpuAddr descriptors cmds := by
  induction cmds generalizing cb offset descriptors patched with
  | nil =>
    simp only [addCommands, Prod.mk.injEq, Option.some.injEq] at success
    obtain ⟨⟨rfl, rfl, rfl⟩, rfl⟩ := success
    exact ⟨⟨SameFrame.refl cb, rfl, by simp, rfl, by simp [descriptorBlocks], fun _ _ => rfl⟩, rfl, rfl, rfl⟩
  | cons cmd rest ih =>
    have size : commitSizes (cmd :: rest) = cmd.getCommitSize + commitSizes rest := by
      simp [commitSizes]
    have descriptorSize : descriptorSizes (cmd :: rest) =
        getFwDataCacheAlign cmd.getDescriptorSize + descriptorSizes rest := by
      simp [descriptorSizes]
    rw [size] at area
    unfold addCommands at success
    cases fence : (if cmd.isSynchronizeCommand then cb.setSyncFenceAddr cmd else some cb) with
    | none => simp [fence] at success
    | some fenced =>
      obtain ⟨fencedFrame, fencedImage, fencedHandles⟩ : cb.SameFrame fenced ∧
          fenced.image = cb.image ∧ fenced.bufferHandles = cb.bufferHandles := by
        split at fence
        · exact setSyncFenceAddr_some fence
        · cases fence
          exact ⟨SameFrame.refl _, rfl, rfl⟩
      simp only [fence] at success
      split at success
      · cases success
      · rename_i added
        obtain ⟨-, nonempty, next, result, frame, written, handles⟩ :=
          addCommand_success (Nat.pos_iff_ne_zero.mp positive) (by simpa using added)
        rw [result] at success
        simp only [Prod.mk.injEq] at success
        obtain ⟨others, rfl⟩ := success
        obtain ⟨tail, offset_eq, descriptors_eq, patched_eq⟩ :=
          ih (by omega) (by omega) (Prod.ext others rfl)
        have whole := fencedFrame.trans frame
        rw [fencedFrame.buffer] at written
        rw [fencedImage] at written
        rw [fencedHandles] at handles
        refine ⟨Filled.cons whole (by omega) nonempty written handles tail, by omega, by omega, ?_⟩
        rw [whole.buffer] at patched_eq
        rw [fencedFrame.buffer]
        exact congrArg (cmd.patchedAt cb.buffer.vpuAddr descriptors :: ·) patched_eq

/-- The header after `initHeader`: the size and the entry of the command list. -/
theorem initHeader_some {cb initial : VPUCommandBuffer} (success : cb.initHeader cmdSize = some initial) :
    cb.SameFrame initial ∧ initial.bufferHandles = cb.bufferHandles ∧
      initial.cmdBufferSize = commandListOffset - headerOffset + cmdSize ∧
      initial.cmdOffset = commandListOffset - headerOffset ∧
      ∀ address, commandListOffset ≤ address → initial.image address = 0 := by
  unfold initHeader at success
  split at success
  · cases success
  · rename_i size cast
    have bound : size < 256 ^ 4 ∧ size = commandListOffset - headerOffset + cmdSize := by
      unfold safeCastU32 at cast
      split at cast
      · cases cast
      · simp only [UINT32_MAX, Option.some.injEq] at *
        omega
    cases success
    refine ⟨⟨rfl, rfl, rfl, rfl, rfl, rfl, rfl⟩, rfl, ?_, ?_, ?_⟩
    · unfold cmdBufferSize
      simp only
      rw [Image.read_write_disjoint _ _ (.inl (by decide)), Image.read_write_disjoint _ _ (.inl (by decide))]
      have stored := Image.read_write_same (Image.write (fun _ => 0) cmdOffsetOffset
        (littleEndian 4 (commandListOffset - headerOffset))) cmdBufferSizeOffset (littleEndian 4 size)
      rw [littleEndian_length] at stored
      rw [stored, fromLittleEndian_of_lt bound.1, bound.2]
    · unfold cmdOffset
      simp only
      rw [Image.read_write_disjoint _ _ (.inl (by decide)), Image.read_write_disjoint _ _ (.inl (by decide)),
        Image.read_write_disjoint _ _ (.inr (by simp [cmdBufferSizeOffset, cmdOffsetOffset]))]
      have stored := Image.read_write_same (fun _ => 0) cmdOffsetOffset
        (littleEndian 4 (commandListOffset - headerOffset))
      rw [littleEndian_length] at stored
      rw [stored, fromLittleEndian_of_lt (by decide)]
    · intro address beyond
      simp only [commandListOffset] at beyond
      simp only
      have outside : ∀ (image : Image) (offset width value : Nat), offset + width ≤ 224 →
          image.write offset (littleEndian width value) address = image address := by
        intro image offset width value inside
        exact image.write_outside _ (.inr (by rw [littleEndian_length]; omega))
      rw [outside _ _ _ _ (by decide), outside _ _ _ _ (by decide), outside _ _ _ _ (by decide),
        outside _ _ _ _ (by decide)]

/-- The commands in front of the user commands. -/
def headCommands (ctx : VPUDeviceContext) : Option (VPUBufferObject × Bool) → List VPUCommand
  | none => []
  | some (bo, resetFence) => [waitCommand bo, secondCommand ctx bo resetFence]

/-- The command in the closing slot. -/
def closingCommand (ctx : VPUDeviceContext) (bo : VPUBufferObject) (signalled : Bool) : VPUCommand :=
  if signalled then signalCommand bo else nopCommand ctx

@[simp] theorem closingCommand_getCommitSize :
    (closingCommand ctx bo signalled).getCommitSize = fenceSize := by
  cases signalled <;> rfl

/-- The layout of a command buffer: `head` is the wait at its head, if there is one. -/
structure Layout (ctx : VPUDeviceContext) (cb : VPUCommandBuffer) (cmds : List VPUCommand)
    (head : Option (VPUBufferObject × Bool)) (signalled : Bool) : Prop where
  mapped : cb.buffer.basePtr ≠ 0
  allocSize : cb.buffer.allocSize =
    descriptorStart cmds + descriptorSizes cmds + ctx.hwInfo.extraDmaDescriptorSize
  positive : ∀ cmd ∈ cmds, 0 < cmd.getCommitSize
  size : cb.cmdBufferSize = commandListOffset - headerOffset + (commitSizes cmds + fenceSize)
  entry : cb.cmdOffset = if head.isSome then internalSyncOffset - headerOffset
    else commandListOffset - headerOffset
  sync : ∀ bo resetFence, head = some (bo, resetFence) →
    cb.image.read internalSyncOffset fenceSize = (waitCommand bo).getCommitStream ∧
      cb.image.read (internalSyncOffset + fenceSize) fenceSize =
        (secondCommand ctx bo resetFence).getCommitStream
  streams : cb.image.read commandListOffset (commitSizes cmds) =
    (patchAddresses cb.buffer.vpuAddr (descriptorStart cmds) cmds).flatMap VPUCommand.getCommitStream
  closing : cb.image.read (commandListOffset + commitSizes cmds) fenceSize =
    (closingCommand ctx cb.buffer signalled).getCommitStream
  blocks : ∀ block ∈ descriptorBlocks (descriptorStart cmds) cmds,
    cb.image.read block.1 block.2.length = block.2
  unused : ∀ address, descriptorStart cmds + descriptorSizes cmds ≤ address → cb.image address = 0

theorem descriptorStart_le (cmds : List VPUCommand) :
    commandListOffset + commitSizes cmds + fenceSize ≤ descriptorStart cmds := by
  have aligned := le_getFwDataCacheAlign (commandListOffset + (commitSizes cmds + fenceSize))
  unfold descriptorStart
  omega

theorem finish_some {cb final : VPUCommandBuffer} (area : descriptors ≠ 0)
    (success : cb.finish ctx cmdSize descriptorSize offset descriptors = some final) :
    cb.SameFrame final ∧ final.bufferHandles = cb.bufferHandles ∧
      final.image = cb.image.write offset (nopCommand ctx).getCommitStream := by
  unfold finish at success
  rw [nopCommand_create] at success
  simp only at success
  split at success
  · cases success
  · rename_i added
    split at success
    · cases success
    · split at success
      · cases success
      · obtain ⟨-, -, next, result, frame, written, handles⟩ :=
          addCommand_success area (by simpa using added)
        cases success
        rw [result]
        refine ⟨frame, ?_, ?_⟩
        · rw [handles]
          rfl
        · rw [written]
          simp [nopCommand, VPUCommand.getDescriptorData, VPUCommand.getDescriptorSize,
            VPUCommand.patchedAt]

/-- A new command buffer: its layout, and the fields that later edits start from. -/
theorem allocateCommandBuffer_some {cb : VPUCommandBuffer} {cmds patched : List VPUCommand}
    (success : allocateCommandBuffer ctx begin cmds = (some cb, patched, next)) :
    patched = patchAddresses cb.buffer.vpuAddr (descriptorStart cmds) cmds ∧
      Layout ctx cb cmds none false ∧ cb.buffer.id = ctx.created ∧
      next = { ctx with created := ctx.created + 1 } ∧
      (new cb.buffer begin (begin + cmds.length)).SameFrame cb ∧
      cb.bufferHandles = addAllUnique [cb.buffer.handle]
        (cmds.flatMap fun cmd => cmd.bufferObjects.map VPUBufferObject.handle) := by
  unfold allocateCommandBuffer at success
  split at success
  · cases success
  · simp only at success
    split at success
    · cases success
    · rename_i buffer created answered
      obtain ⟨fresh, allocated, mapped, rfl⟩ := VPUDeviceContext.createUntrackedBufferObject_some answered
      split at success
      · cases success
      · rename_i initial header
        obtain ⟨headerFrame, headerHandles, size, entry, cleared⟩ := initHeader_some header
        split at success
        · cases success
        · rename_i filled offset descEnd commands added
          simp only [Prod.mk.injEq] at success
          obtain ⟨finished, rfl, rfl⟩ := success
          have start := descriptorStart_le cmds
          have startPositive : 0 < descriptorStart cmds := by
            simp only [commandListOffset] at start
            omega
          obtain ⟨fill, rfl, rfl, rfl⟩ :
              initial.Filled filled cmds commandListOffset (descriptorStart cmds) ∧ _ :=
            addCommands_success (by omega) startPositive added
          obtain ⟨finishFrame, finishHandles, finishImage⟩ := finish_some (by omega) finished
          have whole := (headerFrame.trans fill.frame).trans finishFrame
          have same : cb.buffer = buffer := whole.buffer
          have initialBuffer : initial.buffer = buffer := headerFrame.buffer
          have nopLength : (nopCommand ctx).getCommitStream.length = fenceSize := by simp
          have kept : ∀ position length,
              (position + length ≤ commandListOffset + commitSizes cmds ∨
                commandListOffset + commitSizes cmds + fenceSize ≤ position) →
              cb.image.read position length = filled.image.read position length := by
            intro position length apart
            rw [finishImage]
            exact Image.read_write_disjoint _ _ (by rw [nopLength]; exact apart)
          have low : ∀ position length, position + length ≤ commandListOffset →
              cb.image.read position length = initial.image.read position length := by
            intro position length below
            rw [kept position length (.inl (by omega))]
            apply Image.read_congr
            intro address lower upper
            exact fill.outside address (.inl (by omega))
          refine ⟨by rw [same, initialBuffer], ?_, by rw [same]; exact fresh, rfl, ?_, ?_⟩
          · refine ⟨?_, ?_, fill.positive, ?_, ?_, by simp, ?_, ?_, ?_, ?_⟩
            · rw [same]
              exact mapped rfl
            · rw [same]
              exact allocated
            · rw [← size]
              unfold cmdBufferSize
              rw [low _ _ (by decide)]
            · simp only [Option.isSome_none, Bool.false_eq_true, ↓reduceIte]
              rw [← entry]
              unfold cmdOffset
              rw [low _ _ (by decide)]
            · rw [kept _ _ (.inl (Nat.le_refl _)), fill.streams, same, initialBuffer]
            · rw [finishImage]
              have stored := Image.read_write_same filled.image (commandListOffset + commitSizes cmds)
                (nopCommand ctx).getCommitStream
              rw [nopLength] at stored
              exact stored
            · intro block member
              have bounds := descriptorBlocks_bounds member
              rw [kept _ _ (.inr (by omega))]
              exact fill.blocks block member
            · intro address beyond
              rw [finishImage, Image.write_outside _ _ (.inr (by rw [nopLength]; omega)),
                fill.outside address (.inr (.inr beyond))]
              exact cleared address (by omega)
          · rw [same]
            exact whole
          · rw [finishHandles, fill.handles, headerHandles, same]
            rfl

end VPUCommandBuffer

end NpuDriver
