import NpuDriver.Device.CommandQueue

/-! What placing one command does to a command buffer, and what the fence patches write. -/

namespace NpuDriver

open Library

/-- What the patches of a built command buffer leave alone: its identity and resources; the
handles are only appended to. -/
structure VPUCommandBuffer.Extends (cb patched : VPUCommandBuffer) : Prop where
  buffer : patched.buffer = cb.buffer
  commandsBegin : patched.commandsBegin = cb.commandsBegin
  commandsEnd : patched.commandsEnd = cb.commandsEnd
  inferenceScratchSize : patched.inferenceScratchSize = cb.inferenceScratchSize
  inferenceScratchBuffer : patched.inferenceScratchBuffer = cb.inferenceScratchBuffer
  preemptionBuffer : patched.preemptionBuffer = cb.preemptionBuffer
  preemptionBufferIndex : patched.preemptionBufferIndex = cb.preemptionBufferIndex
  handles : cb.bufferHandles <+: patched.bufferHandles
  nodup : cb.bufferHandles.Nodup → patched.bufferHandles.Nodup

/-- The fence command on the fence word of a command buffer's memory. -/
def fenceCommand (sType : ScheduleType) (cmdType : Nat) (bo : VPUBufferObject) (value : Nat) :
    VPUCommand where
  command := .fence cmdType (bo.vpuAddr + fenceValueOffset) value
  sType := sType
  bufferObjects := [bo]
  descriptor := none
  cmdNeedsUpdate := false
  sized := trivial

def waitCommand (bo : VPUBufferObject) : VPUCommand :=
  fenceCommand .Generic VPU_CMD_FENCE_WAIT bo STATE_WAIT

def resetFenceCommand (bo : VPUBufferObject) : VPUCommand :=
  fenceCommand .Generic VPU_CMD_FENCE_SIGNAL bo STATE_DEVICE_RESET

def signalCommand (bo : VPUBufferObject) : VPUCommand :=
  fenceCommand .Synchronize VPU_CMD_FENCE_SIGNAL bo STATE_DEVICE_SIGNAL

/-- The NOP that fills one fence slot. -/
def nopCommand (ctx : VPUDeviceContext) : VPUCommand where
  command := .nop (nopType ctx.hwInfo) fenceSize ((List.range 16).map ctx.nopSlack)
  sType := .Generic
  bufferObjects := []
  descriptor := none
  cmdNeedsUpdate := false
  sized := ⟨by simp [fenceSize], by simp [fenceSize, UINT16_MAX]⟩

/-- The second command of a wait at the head. -/
def secondCommand (ctx : VPUDeviceContext) (bo : VPUBufferObject) (resetFence : Bool) : VPUCommand :=
  if resetFence then resetFenceCommand bo else nopCommand ctx

@[simp] theorem secondCommand_getCommitSize : (secondCommand ctx bo resetFence).getCommitSize = fenceSize := by
  cases resetFence <;> rfl

theorem secondCommand_isInference : (secondCommand ctx bo resetFence).isInference = none := by
  cases resetFence <;> rfl

@[simp] theorem fenceCommand_getCommitSize : (fenceCommand sType cmdType bo value).getCommitSize = fenceSize := rfl

@[simp] theorem nopCommand_getCommitSize : (nopCommand ctx).getCommitSize = fenceSize := rfl

/-- The fence word of a buffer that is too small is refused, any other one is accepted. -/
theorem eventCommand_create (sType : ScheduleType) (cmdType value : Nat) (bo : VPUBufferObject) :
    VPUEventCommand.create sType cmdType (bo.basePtr + fenceValueOffset) (some bo) value =
      if fenceValueOffset < bo.allocSize then .ok (fenceCommand sType cmdType bo value)
      else .error .nullptr := by
  have position : bo.basePtr + fenceValueOffset ≠ 0 := by simp [fenceValueOffset]
  by_cases inside : fenceValueOffset < bo.allocSize
  · have inRange : bo.isInRange (bo.basePtr + fenceValueOffset) = true := by
      simp [VPUBufferObject.isInRange, inside]
    simp only [VPUEventCommand.create, position, inRange, inside, ↓reduceIte, Bool.not_true,
      Bool.false_eq_true]
    simp [fenceCommand, VPUBufferObject.getVPUAddr_of_inRange inRange]
  · have outside : bo.isInRange (bo.basePtr + fenceValueOffset) = false := by
      simp only [VPUBufferObject.isInRange, Bool.and_eq_false_imp, decide_eq_true_eq,
        decide_eq_false_iff_not]
      omega
    simp [VPUEventCommand.create, outside, inside]

theorem nopCommand_create (ctx : VPUDeviceContext) :
    VPUNopCommand.create ctx fenceSize = .ok (nopCommand ctx) := by
  simp [VPUNopCommand.create, nopCommand, fenceSize, UINT16_MAX]

theorem resetCommand_create (ctx : VPUDeviceContext) (bo : VPUBufferObject) (resetFence : Bool)
    (inside : fenceValueOffset < bo.allocSize) :
    VPUCommandBuffer.resetCommand ctx bo resetFence = .ok (secondCommand ctx bo resetFence) := by
  unfold VPUCommandBuffer.resetCommand secondCommand
  split
  · rw [VPUEventResetCommand.create, eventCommand_create, if_pos inside]
    rfl
  · exact nopCommand_create ctx

namespace VPUCommandBuffer

theorem Extends.refl (cb : VPUCommandBuffer) : cb.Extends cb :=
  ⟨rfl, rfl, rfl, rfl, rfl, rfl, rfl, List.prefix_refl _, id⟩

theorem Extends.trans {first second third : VPUCommandBuffer} (left : first.Extends second)
    (right : second.Extends third) : first.Extends third where
  buffer := right.buffer.trans left.buffer
  commandsBegin := right.commandsBegin.trans left.commandsBegin
  commandsEnd := right.commandsEnd.trans left.commandsEnd
  inferenceScratchSize := right.inferenceScratchSize.trans left.inferenceScratchSize
  inferenceScratchBuffer := right.inferenceScratchBuffer.trans left.inferenceScratchBuffer
  preemptionBuffer := right.preemptionBuffer.trans left.preemptionBuffer
  preemptionBufferIndex := right.preemptionBufferIndex.trans left.preemptionBufferIndex
  handles := left.handles.trans right.handles
  nodup := fun nodup => right.nodup (left.nodup nodup)

theorem addHandles_extends (cb : VPUCommandBuffer) (bos : List VPUBufferObject) :
    cb.Extends (cb.addHandles bos) :=
  ⟨rfl, rfl, rfl, rfl, rfl, rfl, rfl, prefix_addAllUnique _ _, fun nodup => addAllUnique_nodup nodup _⟩

theorem addStream_extends (cb : VPUCommandBuffer) (cmd : VPUCommand) (kind : cmd.isInference = none) :
    cb.Extends (cb.addStream cmd offset descriptors).cmdBuffer := by
  unfold addStream
  split
  · exact Extends.refl cb
  · simp only [kind]
    exact ⟨rfl, rfl, rfl, rfl, rfl, rfl, rfl, List.prefix_refl _, id⟩

/-- A command patched into a fixed slot needs no descriptor area. -/
theorem addCommand_fixed (cb : VPUCommandBuffer) (cmd : VPUCommand) (offset : Nat) :
    cb.addCommand cmd offset 0 = (cb.addHandles cmd.bufferObjects).addStream cmd offset 0 := by
  simp [addCommand, VPUCommand.getAssociateBufferObjects]

theorem addCommand_fixed_extends (cb : VPUCommandBuffer) (cmd : VPUCommand) (offset : Nat)
    (kind : cmd.isInference = none) : cb.Extends (cb.addCommand cmd offset 0).cmdBuffer := by
  rw [addCommand_fixed]
  exact (addHandles_extends cb _).trans (addStream_extends _ cmd kind)

theorem addStream_descOffset (cb : VPUCommandBuffer) (cmd : VPUCommand) :
    (cb.addStream cmd offset descriptors).descOffset = descriptors := by
  unfold addStream
  split <;> rfl

theorem addStream_of_fits {cb : VPUCommandBuffer} {cmd : VPUCommand} (mapped : cb.buffer.basePtr ≠ 0)
    (fits : offset + cmd.getCommitSize ≤ cb.buffer.allocSize) (nonempty : 0 < cmd.getCommitSize)
    (kind : cmd.isInference = none) :
    cb.addStream cmd offset descriptors =
      ⟨true, { cb with image := cb.image.write offset cmd.getCommitStream }, cmd,
        offset + cmd.getCommitSize, descriptors⟩ := by
  have stream : cmd.getCommitStream ≠ [] := by
    intro empty
    have length := cmd.getCommitStream_length
    rw [empty] at length
    simp at length
    omega
  have copied : cb.buffer.copyToBuffer cb.image cmd.getCommitStream offset =
      some (cb.image.write offset cmd.getCommitStream) :=
    VPUBufferObject.copyToBuffer_of_fits mapped (by rw [VPUCommand.getCommitStream_length]; exact fits)
      stream
  simp only [addStream, copied, kind]

theorem resetFenceValue_extends (cb : VPUCommandBuffer) : cb.Extends cb.resetFenceValue :=
  ⟨rfl, rfl, rfl, rfl, rfl, rfl, rfl, List.prefix_refl _, id⟩

theorem addWaitAtHead_extends (cb : VPUCommandBuffer) (ctx : VPUDeviceContext)
    (waitBo : Option VPUBufferObject) (resetFence : Bool) :
    cb.Extends (cb.addWaitAtHead ctx waitBo resetFence).2 := by
  cases waitBo with
  | none => exact ⟨rfl, rfl, rfl, rfl, rfl, rfl, rfl, List.prefix_refl _, id⟩
  | some bo =>
    simp only [addWaitAtHead, VPUEventWaitCommand.create, eventCommand_create]
    by_cases inside : fenceValueOffset < bo.allocSize
    · have first := addCommand_fixed_extends cb (waitCommand bo) internalSyncOffset rfl
      have unchanged : (cb.addCommand (waitCommand bo) internalSyncOffset 0).descOffset = 0 := by
        rw [addCommand_fixed, addStream_descOffset]
      have second := addCommand_fixed_extends
        (cb.addCommand (waitCommand bo) internalSyncOffset 0).cmdBuffer
        (secondCommand ctx bo resetFence)
        (cb.addCommand (waitCommand bo) internalSyncOffset 0).cmdOffset secondCommand_isInference
      have wait : fenceCommand .Generic VPU_CMD_FENCE_WAIT bo STATE_WAIT = waitCommand bo := rfl
      simp only [if_pos inside, resetCommand_create ctx bo resetFence inside, wait, unchanged]
      split
      · exact first
      · split
        · exact first.trans second
        · exact (first.trans second).trans ⟨rfl, rfl, rfl, rfl, rfl, rfl, rfl, List.prefix_refl _, id⟩
    · simp only [if_neg inside]
      exact Extends.refl cb

theorem addSelfSignalAtTail_extends (cb : VPUCommandBuffer) : cb.Extends cb.addSelfSignalAtTail.2 := by
  simp only [addSelfSignalAtTail, VPUEventSignalCommand.create, eventCommand_create]
  by_cases inside : fenceValueOffset < cb.buffer.allocSize
  · simp only [if_pos inside]
    exact addCommand_fixed_extends cb (signalCommand cb.buffer) _ rfl
  · simp only [if_neg inside]
    exact Extends.refl cb

theorem useBusyWait_extends (cb : VPUCommandBuffer) : cb.Extends cb.useBusyWait := by
  have signalled := addSelfSignalAtTail_extends cb
  unfold useBusyWait
  cases result : cb.addSelfSignalAtTail with
  | mk success patched =>
    rw [result] at signalled
    cases success with
    | false => exact signalled
    | true =>
      exact signalled.trans ⟨rfl, rfl, rfl, rfl, rfl, rfl, rfl, List.prefix_refl _, id⟩

/-- The command buffer after a command has been written to a fixed slot. -/
def placed (cb : VPUCommandBuffer) (cmd : VPUCommand) (offset : Nat) : VPUCommandBuffer :=
  { cb.addHandles cmd.bufferObjects with image := cb.image.write offset cmd.getCommitStream }

/-- A fence command fits every slot of a mapped command buffer. -/
theorem addCommand_slot {cb : VPUCommandBuffer} {cmd : VPUCommand} (mapped : cb.buffer.basePtr ≠ 0)
    (size : cmd.getCommitSize = fenceSize) (fits : offset + fenceSize ≤ cb.buffer.allocSize)
    (kind : cmd.isInference = none) :
    cb.addCommand cmd offset 0 = ⟨true, cb.placed cmd offset, cmd, offset + fenceSize, 0⟩ := by
  have stream : (cb.addHandles cmd.bufferObjects).addStream cmd offset 0 = _ :=
    addStream_of_fits mapped (by rw [size]; exact fits) (by rw [size]; decide) kind
  rw [addCommand_fixed, stream, size]
  rfl

theorem addWaitAtHead_none (cb : VPUCommandBuffer) (ctx : VPUDeviceContext) (resetFence : Bool) :
    cb.addWaitAtHead ctx none resetFence =
      (true, { cb.setCmdOffset (commandListOffset - headerOffset) with waitBoGuard := none }) := rfl

/-- What a fence wait at the head writes, when the awaited buffer has room for a fence word. -/
theorem addWaitAtHead_some {cb : VPUCommandBuffer} {bo : VPUBufferObject} (ctx : VPUDeviceContext)
    (resetFence : Bool) (mapped : cb.buffer.basePtr ≠ 0) (room : commandListOffset ≤ cb.buffer.allocSize)
    (inside : fenceValueOffset < bo.allocSize) :
    cb.addWaitAtHead ctx (some bo) resetFence =
      (true, { (cb.placed (waitCommand bo) internalSyncOffset).placed (secondCommand ctx bo resetFence)
          (internalSyncOffset + fenceSize) with waitBoGuard := some bo }.setCmdOffset
        (internalSyncOffset - headerOffset)) := by
  have fits : internalSyncOffset + fenceSize + fenceSize ≤ cb.buffer.allocSize := room
  have first : cb.addCommand (waitCommand bo) internalSyncOffset 0 = _ :=
    addCommand_slot mapped rfl (by omega) rfl
  have second : (cb.placed (waitCommand bo) internalSyncOffset).addCommand
      (secondCommand ctx bo resetFence) (internalSyncOffset + fenceSize) 0 = _ :=
    addCommand_slot mapped secondCommand_getCommitSize fits secondCommand_isInference
  have waitCreated : VPUEventWaitCommand.create (bo.basePtr + fenceValueOffset) (some bo) =
      .ok (waitCommand bo) := by
    rw [VPUEventWaitCommand.create, eventCommand_create, if_pos inside]
    rfl
  simp only [addWaitAtHead, waitCreated, resetCommand_create ctx bo resetFence inside, first, second,
    Bool.not_true, Bool.false_eq_true, ↓reduceIte]

/-- A buffer without room for a fence word is refused before anything is written. -/
theorem addWaitAtHead_refused {cb : VPUCommandBuffer} {bo : VPUBufferObject} (ctx : VPUDeviceContext)
    (resetFence : Bool) (small : bo.allocSize ≤ fenceValueOffset) :
    cb.addWaitAtHead ctx (some bo) resetFence = (false, cb) := by
  simp [addWaitAtHead, VPUEventWaitCommand.create, eventCommand_create, Nat.not_lt.mpr small]

/-- What the self-signal at the tail writes. -/
theorem addSelfSignalAtTail_eq {cb : VPUCommandBuffer} (mapped : cb.buffer.basePtr ≠ 0)
    (room : fenceValueOffset < cb.buffer.allocSize)
    (fits : headerOffset + cb.cmdBufferSize ≤ cb.buffer.allocSize) (closing : fenceSize ≤ cb.cmdBufferSize) :
    cb.addSelfSignalAtTail =
      (true, cb.placed (signalCommand cb.buffer) (headerOffset + cb.cmdBufferSize - fenceSize)) := by
  have created : VPUEventSignalCommand.create (cb.buffer.basePtr + fenceValueOffset) (some cb.buffer) =
      .ok (signalCommand cb.buffer) := by
    rw [VPUEventSignalCommand.create, eventCommand_create, if_pos room]
    rfl
  have slot : cb.addCommand (signalCommand cb.buffer) (headerOffset + cb.cmdBufferSize - fenceSize) 0 = _ :=
    addCommand_slot mapped rfl (by omega) rfl
  simp only [addSelfSignalAtTail, created, slot]

/-- The patches of a built command buffer: the buffer that its head waits on is the former one, or
its handle is listed. -/
structure Patched (cb patched : VPUCommandBuffer) : Prop extends cb.Extends patched where
  waitBoGuard : patched.waitBoGuard = cb.waitBoGuard ∨
    ∀ bo, patched.waitBoGuard = some bo → bo.handle ∈ patched.bufferHandles

theorem Patched.refl (cb : VPUCommandBuffer) : cb.Patched cb := ⟨Extends.refl cb, .inl rfl⟩

theorem Patched.trans {first second third : VPUCommandBuffer} (left : first.Patched second)
    (right : second.Patched third) : first.Patched third := by
  refine ⟨left.toExtends.trans right.toExtends, ?_⟩
  rcases right.waitBoGuard with same | listed
  · rcases left.waitBoGuard with unchanged | listed
    · exact .inl (same.trans unchanged)
    · refine .inr fun bo guarded => right.handles.subset ?_
      rw [same] at guarded
      exact listed bo guarded
  · exact .inr listed

/-- A command in a fixed slot leaves the guard alone. -/
theorem addCommand_fixed_waitBoGuard (cb : VPUCommandBuffer) (cmd : VPUCommand) (offset : Nat) :
    (cb.addCommand cmd offset 0).cmdBuffer.waitBoGuard = cb.waitBoGuard := by
  rw [addCommand_fixed]
  unfold addStream
  split <;> rfl

theorem addCommand_fixed_patched (cb : VPUCommandBuffer) (cmd : VPUCommand) (offset : Nat)
    (kind : cmd.isInference = none) : cb.Patched (cb.addCommand cmd offset 0).cmdBuffer :=
  ⟨addCommand_fixed_extends cb cmd offset kind, .inl (addCommand_fixed_waitBoGuard cb cmd offset)⟩

theorem addCommand_fixed_handles (cb : VPUCommandBuffer) (cmd : VPUCommand) (offset : Nat)
    (kind : cmd.isInference = none) (bo : VPUBufferObject) (member : bo ∈ cmd.bufferObjects) :
    bo.handle ∈ (cb.addCommand cmd offset 0).cmdBuffer.bufferHandles := by
  rw [addCommand_fixed]
  refine (addStream_extends _ cmd kind).handles.subset ?_
  exact mem_addAllUnique.mpr (.inr (List.mem_map.mpr ⟨bo, member, rfl⟩))

theorem addWaitAtHead_patched (cb : VPUCommandBuffer) (ctx : VPUDeviceContext)
    (waitBo : Option VPUBufferObject) (resetFence : Bool) :
    cb.Patched (cb.addWaitAtHead ctx waitBo resetFence).2 := by
  refine ⟨addWaitAtHead_extends cb ctx waitBo resetFence, ?_⟩
  cases waitBo with
  | none => exact .inr nofun
  | some bo =>
    simp only [addWaitAtHead, VPUEventWaitCommand.create, eventCommand_create]
    by_cases inside : fenceValueOffset < bo.allocSize
    · have kept := addCommand_fixed_waitBoGuard cb (waitCommand bo) internalSyncOffset
      have listed := addCommand_fixed_handles cb (waitCommand bo) internalSyncOffset rfl bo
        (List.mem_singleton_self bo)
      have unchanged : (cb.addCommand (waitCommand bo) internalSyncOffset 0).descOffset = 0 := by
        rw [addCommand_fixed, addStream_descOffset]
      have second := addCommand_fixed_patched
        (cb.addCommand (waitCommand bo) internalSyncOffset 0).cmdBuffer (secondCommand ctx bo resetFence)
        (cb.addCommand (waitCommand bo) internalSyncOffset 0).cmdOffset secondCommand_isInference
      have secondKept := addCommand_fixed_waitBoGuard
        (cb.addCommand (waitCommand bo) internalSyncOffset 0).cmdBuffer (secondCommand ctx bo resetFence)
        (cb.addCommand (waitCommand bo) internalSyncOffset 0).cmdOffset
      have wait : fenceCommand .Generic VPU_CMD_FENCE_WAIT bo STATE_WAIT = waitCommand bo := rfl
      simp only [if_pos inside, resetCommand_create ctx bo resetFence inside, wait, unchanged]
      split
      · exact .inl kept
      · split
        · exact .inl (secondKept.trans kept)
        · refine .inr fun other guarded => ?_
          cases guarded
          exact second.handles.subset listed
    · simp [inside]

/-- A wait that was taken guards the awaited buffer. -/
theorem addWaitAtHead_guards {cb : VPUCommandBuffer} {ctx : VPUDeviceContext}
    {waitBo : Option VPUBufferObject} {resetFence : Bool}
    (success : (cb.addWaitAtHead ctx waitBo resetFence).1 = true) :
    (cb.addWaitAtHead ctx waitBo resetFence).2.waitBoGuard = waitBo := by
  cases waitBo with
  | none => rfl
  | some bo =>
    simp only [addWaitAtHead, VPUEventWaitCommand.create, eventCommand_create] at success ⊢
    by_cases inside : fenceValueOffset < bo.allocSize
    · simp only [if_pos inside, resetCommand_create ctx bo resetFence inside] at success ⊢
      split
      · simp_all
      · split
        · simp_all
        · rfl
    · simp [inside] at success

theorem addSelfSignalAtTail_waitBoGuard (cb : VPUCommandBuffer) :
    cb.addSelfSignalAtTail.2.waitBoGuard = cb.waitBoGuard := by
  simp only [addSelfSignalAtTail, VPUEventSignalCommand.create, eventCommand_create]
  by_cases inside : fenceValueOffset < cb.buffer.allocSize
  · simp only [if_pos inside]
    exact addCommand_fixed_waitBoGuard cb (signalCommand cb.buffer) _
  · simp [inside]

theorem addSelfSignalAtTail_patched (cb : VPUCommandBuffer) : cb.Patched cb.addSelfSignalAtTail.2 :=
  ⟨cb.addSelfSignalAtTail_extends, .inl cb.addSelfSignalAtTail_waitBoGuard⟩

theorem resetFenceValue_patched (cb : VPUCommandBuffer) : cb.Patched cb.resetFenceValue :=
  ⟨cb.resetFenceValue_extends, .inl rfl⟩

theorem useBusyWait_patched (cb : VPUCommandBuffer) : cb.Patched cb.useBusyWait := by
  refine ⟨cb.useBusyWait_extends, .inl ?_⟩
  have kept := cb.addSelfSignalAtTail_waitBoGuard
  unfold useBusyWait
  cases result : cb.addSelfSignalAtTail with
  | mk success patched =>
    rw [result] at kept
    cases success <;> exact kept

end VPUCommandBuffer

end NpuDriver
