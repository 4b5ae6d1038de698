import NpuDriver.Proof.BufferAllocation

/-! The layout of a command buffer under patches, and what the firmware reads from it. -/

namespace NpuDriver

open Library

namespace VPUCommandBuffer

theorem applyPatches_extends (ctx : VPUDeviceContext) (cb : VPUCommandBuffer) (patches : List Patch) :
    cb.Extends (applyPatches ctx cb patches) := by
  induction patches generalizing cb with
  | nil => exact Extends.refl cb
  | cons patch rest ih =>
    refine Extends.trans ?_ (ih (patch.apply ctx cb))
    cases patch with
    | addWaitAtHead waitBo resetFence => exact addWaitAtHead_extends cb ctx waitBo resetFence
    | addSelfSignalAtTail => exact addSelfSignalAtTail_extends cb
    | useBusyWait => exact useBusyWait_extends cb

/-- A patch below the command list that leaves the size alone concerns the head only. -/
theorem Layout.patchHead {cb patched : VPUCommandBuffer} (layout : Layout ctx cb cmds head signalled)
    (buffer : patched.buffer = cb.buffer)
    (same : ∀ address, commandListOffset ≤ address ∨
      (cmdBufferSizeOffset ≤ address ∧ address < cmdOffsetOffset) → patched.image address = cb.image address)
    (entry : patched.cmdOffset = if head'.isSome then internalSyncOffset - headerOffset
      else commandListOffset - headerOffset)
    (sync : ∀ bo resetFence, head' = some (bo, resetFence) →
      patched.image.read internalSyncOffset fenceSize = (waitCommand bo).getCommitStream ∧
        patched.image.read (internalSyncOffset + fenceSize) fenceSize =
          (secondCommand ctx bo resetFence).getCommitStream) :
    Layout ctx patched cmds head' signalled := by
  have start := descriptorStart_le cmds
  have above : ∀ position length, commandListOffset ≤ position →
      patched.image.read position length = cb.image.read position length := by
    intro position length lower
    apply Image.read_congr
    intro address inside _
    exact same address (.inl (by omega))
  have size : patched.cmdBufferSize = cb.cmdBufferSize := by
    unfold cmdBufferSize
    rw [Image.read_congr fun address lower upper => same address (.inr ⟨lower, upper⟩)]
  refine ⟨?_, ?_, layout.positive, ?_, entry, sync, ?_, ?_, ?_, ?_⟩
  · rw [buffer]
    exact layout.mapped
  · rw [buffer]
    exact layout.allocSize
  · rw [size]
    exact layout.size
  · rw [above _ _ (Nat.le_refl _), buffer]
    exact layout.streams
  · rw [above _ _ (by omega), buffer]
    exact layout.closing
  · intro block member
    have bounds := descriptorBlocks_bounds member
    rw [above _ _ (by omega)]
    exact layout.blocks block member
  · intro address beyond
    rw [same address (.inl (by omega))]
    exact layout.unused address beyond

theorem setCmdOffset_cmdOffset (cb : VPUCommandBuffer) (bound : offset < 256 ^ 4) :
    (cb.setCmdOffset offset).cmdOffset = offset := by
  unfold setCmdOffset cmdOffset
  have stored := Image.read_write_same cb.image cmdOffsetOffset (littleEndian 4 offset)
  rw [littleEndian_length] at stored
  simp only
  rw [stored, fromLittleEndian_of_lt bound]

/-- A wait at the head replaces the earlier one, unless its buffer is refused. -/
theorem Layout.addWaitAtHead {cb : VPUCommandBuffer} (layout : Layout ctx cb cmds head signalled)
    (waitBo : Option VPUBufferObject) (resetFence : Bool) :
    Layout ctx (cb.addWaitAtHead ctx waitBo resetFence).2 cmds
      (if (cb.addWaitAtHead ctx waitBo resetFence).1 then waitBo.map (·, resetFence) else head)
      signalled := by
  cases waitBo with
  | none =>
    rw [addWaitAtHead_none]
    refine layout.patchHead rfl ?_ ?_ (by simp)
    · intro address inside
      refine Image.write_outside _ _ ?_
      simp only [littleEndian_length, cmdOffsetOffset, cmdBufferSizeOffset, commandListOffset,
        headerOffset] at *
      omega
    · rw [if_neg (by simp)]
      exact setCmdOffset_cmdOffset cb (by decide)
  | some bo =>
    by_cases room : fenceValueOffset < bo.allocSize
    · have start := descriptorStart_le cmds
      have fits : commandListOffset ≤ cb.buffer.allocSize := by
        rw [layout.allocSize]
        omega
      rw [addWaitAtHead_some ctx resetFence layout.mapped fits room]
      have waitLength : (waitCommand bo).getCommitStream.length = fenceSize := by simp [waitCommand]
      have secondLength : (secondCommand ctx bo resetFence).getCommitStream.length = fenceSize := by simp
      refine layout.patchHead rfl ?_ ?_ ?_
      · intro address inside
        simp only [setCmdOffset, placed]
        have outside : ∀ (image : Image) (offset : Nat) (data : List UInt8),
            cmdOffsetOffset ≤ offset → offset + data.length ≤ commandListOffset →
            image.write offset data address = image address := by
          intro image offset data lower upper
          refine image.write_outside data ?_
          simp only [cmdOffsetOffset, cmdBufferSizeOffset, commandListOffset, headerOffset] at *
          omega
        rw [outside _ _ _ (by decide) (by decide), outside _ _ _ (by decide) (by rw [secondLength]; decide),
          outside _ _ _ (by decide) (by rw [waitLength]; decide)]
      · simpa using setCmdOffset_cmdOffset _ (by decide)
      · intro other otherReset same
        simp only [↓reduceIte, Option.map_some, Option.some.injEq, Prod.mk.injEq] at same
        obtain ⟨rfl, rfl⟩ := same
        simp only [setCmdOffset, placed]
        have firstStored := Image.read_write_same cb.image internalSyncOffset (waitCommand bo).getCommitStream
        have secondStored := Image.read_write_same
          (cb.image.write internalSyncOffset (waitCommand bo).getCommitStream)
          (internalSyncOffset + fenceSize) (secondCommand ctx bo resetFence).getCommitStream
        rw [waitLength] at firstStored
        rw [secondLength] at secondStored
        refine ⟨?_, ?_⟩
        · rw [Image.read_write_disjoint _ _ (.inr (by decide)),
            Image.read_write_disjoint _ _ (.inl (by decide)), firstStored]
        · rw [Image.read_write_disjoint _ _ (.inr (by decide)), secondStored]
    · rw [addWaitAtHead_refused ctx resetFence (Nat.not_lt.mp room)]
      simpa using layout

/-- The self-signal replaces the closing command. -/
theorem Layout.addSelfSignalAtTail {cb : VPUCommandBuffer} (layout : Layout ctx cb cmds head signalled) :
    cb.addSelfSignalAtTail.1 = true ∧ Layout ctx cb.addSelfSignalAtTail.2 cmds head true := by
  have start := descriptorStart_le cmds
  have position : headerOffset + cb.cmdBufferSize - fenceSize = commandListOffset + commitSizes cmds := by
    rw [layout.size]
    simp only [headerOffset, commandListOffset, fenceSize]
    omega
  have size := layout.size
  have allocSize := layout.allocSize
  simp only [headerOffset, commandListOffset, fenceSize] at start size
  rw [addSelfSignalAtTail_eq layout.mapped (by simp only [fenceValueOffset]; omega)
    (by simp only [headerOffset]; omega) (by simp only [fenceSize]; omega), position]
  have length : (signalCommand cb.buffer).getCommitStream.length = fenceSize := by simp [signalCommand]
  have kept : ∀ offset count, (offset + count ≤ commandListOffset + commitSizes cmds ∨
      commandListOffset + commitSizes cmds + fenceSize ≤ offset) →
      (cb.placed (signalCommand cb.buffer) (commandListOffset + commitSizes cmds)).image.read offset count =
        cb.image.read offset count := by
    intro offset count apart
    exact Image.read_write_disjoint _ _ (by rw [length]; exact apart)
  refine ⟨rfl, ?_⟩
  refine ⟨layout.mapped, layout.allocSize, layout.positive, ?_, ?_, ?_, ?_, ?_, ?_, ?_⟩
  · rw [← layout.size]
    unfold cmdBufferSize
    rw [kept _ _ (.inl (by simp only [cmdBufferSizeOffset, headerOffset, commandListOffset]; omega))]
  · rw [← layout.entry]
    unfold cmdOffset
    rw [kept _ _ (.inl (by simp only [cmdOffsetOffset, headerOffset, commandListOffset]; omega))]
  · intro bo resetFence waits
    rw [kept _ _ (.inl (by simp only [internalSyncOffset, fenceSize, commandListOffset]; omega)),
      kept _ _ (.inl (by simp only [internalSyncOffset, fenceSize, commandListOffset]; omega))]
    exact layout.sync bo resetFence waits
  · rw [kept _ _ (.inl (Nat.le_refl _))]
    exact layout.streams
  · have stored := Image.read_write_same cb.image (commandListOffset + commitSizes cmds)
      (signalCommand cb.buffer).getCommitStream
    rw [length] at stored
    exact stored
  · intro block member
    have bounds := descriptorBlocks_bounds member
    rw [kept _ _ (.inr (by simp only [commandListOffset, fenceSize]; omega))]
    exact layout.blocks block member
  · intro address beyond
    have outside : (cb.placed (signalCommand cb.buffer) (commandListOffset + commitSizes cmds)).image address =
        cb.image address :=
      Image.write_outside _ _ (.inr (by rw [length]; simp only [commandListOffset, fenceSize]; omega))
    exact outside.trans (layout.unused address beyond)

/-- The fence word is not part of what the firmware walks over. -/
theorem Layout.writeFence {cb patched : VPUCommandBuffer} (layout : Layout ctx cb cmds head signalled)
    (buffer : patched.buffer = cb.buffer)
    (image : patched.image = cb.image.write fenceValueOffset (littleEndian 8 value)) :
    Layout ctx patched cmds head signalled := by
  have kept : ∀ offset count, headerOffset ≤ offset →
      patched.image.read offset count = cb.image.read offset count := by
    intro offset count above
    rw [image]
    refine Image.read_write_disjoint _ _ (.inr ?_)
    simp only [littleEndian_length, fenceValueOffset, headerOffset] at *
    omega
  refine layout.patchHead buffer ?_ ?_ ?_
  · intro address inside
    rw [image]
    refine Image.write_outside _ _ (.inr ?_)
    simp only [littleEndian_length, fenceValueOffset, cmdBufferSizeOffset, commandListOffset,
      headerOffset] at *
    omega
  · rw [← layout.entry]
    exact congrArg fromLittleEndian (kept _ _ (by decide))
  · intro bo resetFence waits
    obtain ⟨first, second⟩ := layout.sync bo resetFence waits
    exact ⟨(kept _ _ (by decide)).trans first, (kept _ _ (by decide)).trans second⟩

theorem Layout.useBusyWait {cb : VPUCommandBuffer} (layout : Layout ctx cb cmds head signalled) :
    Layout ctx cb.useBusyWait cmds head true := by
  obtain ⟨success, signalled⟩ := layout.addSelfSignalAtTail
  have result : cb.addSelfSignalAtTail = (true, cb.addSelfSignalAtTail.2) := Prod.ext success rfl
  unfold VPUCommandBuffer.useBusyWait
  rw [result]
  exact signalled.writeFence rfl rfl

theorem Layout.applyPatches {cb : VPUCommandBuffer} (layout : Layout ctx cb cmds head signalled)
    (patches : List Patch) :
    Layout ctx (applyPatches ctx cb patches) cmds (lastWait ctx cb head patches)
      (signalled || patches.any Patch.signals) := by
  induction patches generalizing cb head signalled with
  | nil => simpa [NpuDriver.applyPatches, lastWait] using layout
  | cons patch rest ih =>
    cases patch with
    | addWaitAtHead waitBo resetFence =>
      simpa [NpuDriver.applyPatches, lastWait, Patch.apply, Patch.signals] using
        ih (layout.addWaitAtHead waitBo resetFence)
    | addSelfSignalAtTail =>
      simpa [NpuDriver.applyPatches, lastWait, Patch.apply, Patch.signals] using
        ih layout.addSelfSignalAtTail.2
    | useBusyWait =>
      simpa [NpuDriver.applyPatches, lastWait, Patch.apply, Patch.signals] using ih layout.useBusyWait

theorem patchAddresses_commitSizes (vpuAddr descriptors : Nat) (cmds : List VPUCommand) :
    commitSizes (patchAddresses vpuAddr descriptors cmds) = commitSizes cmds := by
  induction cmds generalizing descriptors with
  | nil => rfl
  | cons cmd rest ih => simpa [patchAddresses, commitSizes] using ih _

theorem patchAddresses_positive {cmds : List VPUCommand} (positive : ∀ cmd ∈ cmds, 0 < cmd.getCommitSize) :
    ∀ cmd ∈ patchAddresses vpuAddr descriptors cmds, 0 < cmd.getCommitSize := by
  induction cmds generalizing descriptors with
  | nil => simp [patchAddresses]
  | cons cmd rest ih =>
    intro patched member
    rcases List.mem_cons.mp member with rfl | later
    · simpa using positive cmd (List.mem_cons_self ..)
    · exact ih (fun other present => positive other (List.mem_cons_of_mem cmd present)) patched later

theorem commitSizes_append (first second : List VPUCommand) :
    commitSizes (first ++ second) = commitSizes first + commitSizes second := by
  simp [commitSizes]

/-- The walk of the firmware over a laid out command buffer. -/
theorem Layout.readCommands {cb : VPUCommandBuffer} (layout : Layout ctx cb cmds head signalled) :
    cb.readCommands = some ((headCommands ctx head ++
      patchAddresses cb.buffer.vpuAddr (descriptorStart cmds) cmds ++
      [closingCommand ctx cb.buffer signalled]).map VPUCommand.getCommitStream) := by
  have listed : commitSizes (patchAddresses cb.buffer.vpuAddr (descriptorStart cmds) cmds ++
      [closingCommand ctx cb.buffer signalled]) = commitSizes cmds + fenceSize := by
    rw [commitSizes_append, patchAddresses_commitSizes]
    simp [commitSizes]
  have body : cb.image.read commandListOffset (commitSizes cmds + fenceSize) =
      (patchAddresses cb.buffer.vpuAddr (descriptorStart cmds) cmds ++
        [closingCommand ctx cb.buffer signalled]).flatMap VPUCommand.getCommitStream := by
    rw [Image.read_add, layout.streams, layout.closing, List.flatMap_append]
    simp
  have bodyPositive : ∀ cmd ∈ patchAddresses cb.buffer.vpuAddr (descriptorStart cmds) cmds ++
      [closingCommand ctx cb.buffer signalled], 0 < cmd.getCommitSize := by
    intro cmd member
    rcases List.mem_append.mp member with user | closing
    · exact patchAddresses_positive layout.positive cmd user
    · rw [List.mem_singleton.mp closing, closingCommand_getCommitSize]
      decide
  unfold VPUCommandBuffer.readCommands
  rw [layout.entry, layout.size, List.append_assoc]
  cases head with
  | none =>
    have walk : readStream cb.image (commandListOffset - headerOffset + (commitSizes cmds + fenceSize))
        (commandListOffset - headerOffset) _ = _ :=
      readStream_commands bodyPositive (by rw [listed]; exact body) _ (by rw [listed]; omega)
    rw [listed] at walk
    exact walk
  | some wait =>
    obtain ⟨bo, resetFence⟩ := wait
    obtain ⟨first, second⟩ := layout.sync bo resetFence rfl
    have sizes : commitSizes (headCommands ctx (some (bo, resetFence)) ++
        (patchAddresses cb.buffer.vpuAddr (descriptorStart cmds) cmds ++
          [closingCommand ctx cb.buffer signalled])) =
        fenceSize + fenceSize + (commitSizes cmds + fenceSize) := by
      rw [commitSizes_append, listed]
      simp [headCommands, commitSizes, waitCommand]
    have stored : cb.image.read internalSyncOffset (fenceSize + fenceSize + (commitSizes cmds + fenceSize)) =
        (headCommands ctx (some (bo, resetFence)) ++
          (patchAddresses cb.buffer.vpuAddr (descriptorStart cmds) cmds ++
            [closingCommand ctx cb.buffer signalled])).flatMap VPUCommand.getCommitStream := by
      rw [Image.read_add, Image.read_add, first, second, List.flatMap_append]
      have next : internalSyncOffset + (fenceSize + fenceSize) = commandListOffset := rfl
      rw [next, body]
      simp [headCommands]
    have positive : ∀ cmd ∈ headCommands ctx (some (bo, resetFence)) ++
        (patchAddresses cb.buffer.vpuAddr (descriptorStart cmds) cmds ++
          [closingCommand ctx cb.buffer signalled]), 0 < cmd.getCommitSize := by
      intro cmd member
      rcases List.mem_append.mp member with sync | other
      · rcases List.mem_cons.mp sync with rfl | rest
        · rw [waitCommand, fenceCommand_getCommitSize]
          decide
        · rw [List.mem_singleton.mp rest, secondCommand_getCommitSize]
          decide
      · exact bodyPositive cmd other
    have walk : readStream cb.image (commandListOffset - headerOffset + (commitSizes cmds + fenceSize))
        (internalSyncOffset - headerOffset) _ = _ :=
      readStream_commands positive (by rw [sizes]; exact stored) _
        (by rw [sizes]; simp only [commandListOffset, headerOffset, fenceSize]; omega)
    have finish : internalSyncOffset - headerOffset + (fenceSize + fenceSize + (commitSizes cmds + fenceSize)) =
        commandListOffset - headerOffset + (commitSizes cmds + fenceSize) := by
      simp only [commandListOffset, internalSyncOffset, headerOffset, fenceSize]
      omega
    rw [sizes, finish] at walk
    exact walk

theorem commandSlots_fit (cmds : List VPUCommand) :
    ∀ item ∈ cmds.map fun cmd => (cmd.getCommitSize, cmd.getCommitSize), item.1 ≤ item.2 := by
  intro item member
  obtain ⟨cmd, -, rfl⟩ := List.mem_map.mp member
  exact Nat.le_refl _

theorem descriptorBlocks_fit (cmds : List VPUCommand) :
    ∀ item ∈ cmds.map fun cmd => (cmd.getDescriptorSize, getFwDataCacheAlign cmd.getDescriptorSize),
      item.1 ≤ item.2 := by
  intro item member
  obtain ⟨cmd, -, rfl⟩ := List.mem_map.mp member
  exact le_getFwDataCacheAlign _

theorem commandSlots_bounds (member : slot ∈ commandSlots offset cmds) :
    offset ≤ slot.1 ∧ slot.1 + slot.2 ≤ offset + commitSizes cmds := by
  have bounds := tile_bounds (commandSlots_fit cmds) member
  simpa [commitSizes, Function.comp_def] using bounds

/-- Every slot and every descriptor block lies below the unused bytes at the end. -/
theorem bufferRegions_bounds (member : region ∈ bufferRegions cmds) :
    internalSyncOffset ≤ region.1 ∧
      region.1 + region.2 ≤ descriptorStart cmds + descriptorSizes cmds := by
  have start := descriptorStart_le cmds
  simp only [bufferRegions, List.cons_append, List.mem_cons, List.mem_append, List.mem_map,
    List.not_mem_nil, or_false] at member
  rcases member with rfl | rfl | (slot | rfl) | ⟨block, present, rfl⟩
  · simp only [internalSyncOffset, fenceSize, commandListOffset] at *
    omega
  · simp only [internalSyncOffset, fenceSize, commandListOffset] at *
    omega
  · have bounds := commandSlots_bounds slot
    simp only [internalSyncOffset, commandListOffset] at *
    omega
  · simp only [internalSyncOffset, fenceSize, commandListOffset] at *
    omega
  · have bounds := descriptorBlocks_bounds present
    simp only [internalSyncOffset, commandListOffset] at *
    omega

/-- The slots and blocks follow one another without overlap. -/
theorem bufferRegions_ordered (cmds : List VPUCommand) :
    (bufferRegions cmds).Pairwise fun earlier later => earlier.1 + earlier.2 ≤ later.1 := by
  have start := descriptorStart_le cmds
  have slots : (commandSlots commandListOffset cmds).Pairwise _ := tile_ordered (commandSlots_fit cmds)
  have blocks : ((descriptorBlocks (descriptorStart cmds) cmds).map
      fun block => (block.1, block.2.length)).Pairwise
        fun earlier later => earlier.1 + earlier.2 ≤ later.1 := by
    rw [descriptorBlocks_tile]
    exact tile_ordered (descriptorBlocks_fit cmds)
  have blockStart : ∀ region ∈ (descriptorBlocks (descriptorStart cmds) cmds).map
      (fun block => (block.1, block.2.length)), descriptorStart cmds ≤ region.1 := by
    intro region member
    obtain ⟨block, present, rfl⟩ := List.mem_map.mp member
    exact (descriptorBlocks_bounds present).1
  simp only [commandListOffset, fenceSize] at start
  unfold bufferRegions
  refine List.pairwise_append.mpr ⟨?_, blocks, ?_⟩
  · refine List.pairwise_append.mpr ⟨?_, List.pairwise_singleton _ _, ?_⟩
    · refine List.Pairwise.cons ?_ (List.Pairwise.cons ?_ slots)
      · intro region member
        rcases List.mem_cons.mp member with rfl | later
        · exact Nat.le_refl _
        · have bounds := commandSlots_bounds later
          simp only [internalSyncOffset, fenceSize, commandListOffset] at *
          omega
      · intro region member
        have bounds := commandSlots_bounds member
        simp only [internalSyncOffset, fenceSize, commandListOffset] at *
        omega
    · intro earlier member closing present
      rw [List.mem_singleton.mp present]
      simp only [List.mem_cons] at member
      rcases member with rfl | rfl | slot
      · simp only [internalSyncOffset, fenceSize, commandListOffset]
        omega
      · simp only [internalSyncOffset, fenceSize, commandListOffset]
        omega
      · exact (commandSlots_bounds slot).2
  · intro earlier member block present
    have lower := blockStart block present
    simp only [List.cons_append, List.mem_cons, List.mem_append, List.not_mem_nil, or_false] at member
    rcases member with rfl | rfl | slot | rfl
    · simp only [internalSyncOffset, fenceSize]
      omega
    · simp only [internalSyncOffset, fenceSize]
      omega
    · have bounds := commandSlots_bounds slot
      simp only [commandListOffset] at bounds
      omega
    · simp only [commandListOffset, fenceSize]
      omega

theorem descriptorBlocks_aligned (start : descriptors % 64 = 0) :
    ∀ block ∈ descriptorBlocks descriptors cmds, block.1 % 64 = 0 := by
  induction cmds generalizing descriptors with
  | nil => simp [descriptorBlocks]
  | cons cmd rest ih =>
    intro block member
    have aligned := getFwDataCacheAlign_mod cmd.getDescriptorSize
    rcases List.mem_cons.mp member with rfl | later
    · exact start
    · exact ih (by omega) block later

/-- A command as the firmware finds it is the command as it was given, except for the eight
bytes of the address of its descriptor block. -/
def SameButAddress (cmd patched : VPUCommand) : Prop :=
  patched.getCommitStream = cmd.getCommitStream ∨
    0 < cmd.getDescriptorSize ∧ patched.getCommitSize = cmd.getCommitSize ∧
      patched.getCommitStream.take 8 = cmd.getCommitStream.take 8 ∧
      patched.getCommitStream.drop 16 = cmd.getCommitStream.drop 16

/-- The address in a command with a descriptor block is that of its own block. -/
def PointsTo (vpuAddr : Nat) (patched : VPUCommand) (block : Nat × List UInt8) : Prop :=
  patched.getDescriptorData = block.2 ∧
    (0 < patched.getDescriptorSize → ∀ descStart descCount,
      patched.command = .copyBuffer descStart descCount → descStart = vpuAddr + block.1)

theorem patchedAt_sameButAddress (cmd : VPUCommand) (vpuAddr offset : Nat) :
    SameButAddress cmd (cmd.patchedAt vpuAddr offset) := by
  by_cases carries : 0 < cmd.getDescriptorSize
  · rcases cmd.patchedAt_stream vpuAddr offset with same | ⟨descStart, descCount, kind, stream⟩
    · exact .inl same
    · have length : cmd.getCommitStream.length = 24 := by
        simp [VPUCommand.getCommitSize, kind, CommandStruct.getHeader]
      refine .inr ⟨carries, by simp, ?_, ?_⟩
      · rw [stream, List.append_assoc, List.take_append_of_le_length (by rw [List.length_take]; omega),
          List.take_take, Nat.min_self]
      · have front : (cmd.getCommitStream.take 8 ++ littleEndian 8 (vpuAddr + offset)).length = 16 := by
          rw [List.length_append, List.length_take, littleEndian_length]
          omega
        rw [stream, ← front, List.drop_left]
  · left
    simp [VPUCommand.patchedAt, carries]

theorem patchAddresses_sameButAddress (vpuAddr descriptors : Nat) (cmds : List VPUCommand) :
    List.Forall₂ SameButAddress cmds (patchAddresses vpuAddr descriptors cmds) := by
  induction cmds generalizing descriptors with
  | nil => exact List.Forall₂.nil
  | cons cmd rest ih => exact List.Forall₂.cons (patchedAt_sameButAddress cmd vpuAddr descriptors) (ih _)

theorem patchAddresses_pointsTo (vpuAddr descriptors : Nat) (cmds : List VPUCommand) :
    List.Forall₂ (PointsTo vpuAddr) (patchAddresses vpuAddr descriptors cmds)
      (descriptorBlocks descriptors cmds) := by
  induction cmds generalizing descriptors with
  | nil => exact List.Forall₂.nil
  | cons cmd rest ih =>
    refine List.Forall₂.cons ⟨?_, ?_⟩ (ih _)
    · unfold VPUCommand.patchedAt
      split <;> simp
    · intro carries descStart descCount kind
      have original : 0 < cmd.getDescriptorSize := by
        unfold VPUCommand.patchedAt at carries
        split at carries
        · assumption
        · assumption
      rw [VPUCommand.patchedAt, if_pos original] at kind
      unfold VPUCommand.patchDescriptorAddress at kind
      split at kind
      · cases kind
        rfl
      · rename_i other
        exact (other _ _ kind).elim

end VPUCommandBuffer

end NpuDriver
