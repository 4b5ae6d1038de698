import NpuDriver.Device.FencedJob
import NpuDriver.Proof.JobClosing

/-! The fence words of command buffers: what the patches leave in them, and what the device reads of the commands
that wait for them and signal them. -/

namespace NpuDriver

open Library

theorem commandType_stream {cmd : VPUCommand} (header : cmd.command.getHeader = some (type, size)) :
    fromLittleEndian (cmd.getCommitStream.take 2) = type % 256 ^ 2 := by
  rw [VPUCommand.getCommitStream, header]
  have front : (encodeHeader type size ++ cmd.command.body).take 2 = littleEndian 2 type := by
    rw [encodeHeader, List.append_assoc]
    exact List.take_left' (littleEndian_length 2 type)
  rw [front, fromLittleEndian_littleEndian]

theorem decodeFence_other {cmd : VPUCommand} (header : cmd.command.getHeader = some (type, size))
    (wait : type % 256 ^ 2 ≠ VPU_CMD_FENCE_WAIT) (signal : type % 256 ^ 2 ≠ VPU_CMD_FENCE_SIGNAL) :
    decodeFence cmd.getCommitStream = none := by
  rw [decodeFence, commandType_stream header]
  exact if_neg (not_or.mpr ⟨wait, signal⟩)

/-- A fence command reads back, its address and its value in 64 bits. -/
theorem decodeFence_fence {cmd : VPUCommand} (kind : cmd.command = .fence type address value)
    (fence : type = VPU_CMD_FENCE_WAIT ∨ type = VPU_CMD_FENCE_SIGNAL) :
    decodeFence cmd.getCommitStream = some ⟨type, address % 2 ^ 64, value % 2 ^ 64⟩ := by
  have header : cmd.command.getHeader = some (type, fenceSize) := by rw [kind]; rfl
  have small : type % 256 ^ 2 = type := by rcases fence with rfl | rfl <;> rfl
  have stream : cmd.getCommitStream =
      (encodeHeader type fenceSize ++ littleEndian 4 0) ++ (littleEndian 8 address ++ littleEndian 8 value) := by
    rw [VPUCommand.getCommitStream, header, kind]
    simp [CommandStruct.body]
  have front : (encodeHeader type fenceSize ++ littleEndian 4 0).length = 8 := by simp [encodeHeader]
  have addressBytes : (cmd.getCommitStream.drop 8).take 8 = littleEndian 8 address := by
    rw [stream, List.drop_left' front]
    exact List.take_left' (littleEndian_length 8 address)
  have valueBytes : (cmd.getCommitStream.drop 16).take 8 = littleEndian 8 value := by
    rw [show 16 = 8 + 8 from rfl, ← List.drop_drop, stream, List.drop_left' front,
      List.drop_left' (littleEndian_length 8 address)]
    exact List.take_of_length_le (littleEndian_length 8 value).le
  rw [decodeFence, commandType_stream header, small, addressBytes, valueBytes, fromLittleEndian_littleEndian,
    fromLittleEndian_littleEndian]
  exact if_pos fence

theorem decodeFence_nop (ctx : VPUDeviceContext) : decodeFence (nopCommand ctx).getCommitStream = none := by
  have kind : nopType ctx.hwInfo = VPU_CMD_NOP ∨ nopType ctx.hwInfo = VPU_CMD_BARRIER := by
    rw [nopType]
    split
    · exact .inl rfl
    · exact .inr rfl
  apply @decodeFence_other _ fenceSize (nopCommand ctx) rfl
  · rcases kind with nop | barrier
    · rw [nop]
      decide
    · rw [barrier]
      decide
  · rcases kind with nop | barrier
    · rw [nop]
      decide
    · rw [barrier]
      decide

/-- The address of a descriptor block is no part of a fence command. -/
theorem Readdressed.decodeFence {cmd patched : VPUCommand} (same : Readdressed cmd patched) :
    decodeFence patched.getCommitStream = decodeFence cmd.getCommitStream := by
  rcases same with rfl | ⟨address, rfl⟩
  · rfl
  · cases kind : cmd.command with
    | copyBuffer descStart descCount =>
      have header : (cmd.patchDescriptorAddress address).command.getHeader = some (VPU_CMD_COPY, 24) := by
        rw [VPUCommand.patchDescriptorAddress, kind]
        rfl
      have original : cmd.command.getHeader = some (VPU_CMD_COPY, 24) := by rw [kind]; rfl
      rw [decodeFence_other header (by decide) (by decide), decodeFence_other original (by decide) (by decide)]
    | _ =>
      have kept : cmd.patchDescriptorAddress address = cmd := by
        rw [VPUCommand.patchDescriptorAddress]
        split
        · rename_i copy
          rw [kind] at copy
          cases copy
        · rfl
      rw [kept]

namespace VPUCommandBuffer

@[simp] theorem setFenceValue_fenceAddress (cb : VPUCommandBuffer) (value : Nat) :
    (cb.setFenceValue value).fenceAddress = cb.fenceAddress := rfl

@[simp] theorem setFenceValue_userCount (cb : VPUCommandBuffer) (value : Nat) :
    (cb.setFenceValue value).userCount = cb.userCount := rfl

theorem setFenceValue_fenceValue (cb : VPUCommandBuffer) (bound : value < 2 ^ 64) :
    (cb.setFenceValue value).fenceValue = value := by
  have stored := Image.read_write_same cb.image fenceValueOffset (littleEndian 8 value)
  rw [littleEndian_length] at stored
  rw [fenceValue, setFenceValue, stored, fromLittleEndian_of_lt bound]

/-- Writes behind the fence word leave it alone. -/
theorem fenceValue_congr {cb patched : VPUCommandBuffer}
    (same : ∀ address, address < headerOffset → patched.image address = cb.image address) :
    patched.fenceValue = cb.fenceValue := by
  unfold fenceValue
  rw [Image.read_congr fun address _ upper => same address (by simp only [fenceValueOffset, headerOffset] at *; omega)]

theorem placed_below (cb : VPUCommandBuffer) (cmd : VPUCommand) (behind : headerOffset ≤ offset)
    (below : address < headerOffset) : (cb.placed cmd offset).image address = cb.image address :=
  Image.write_outside _ _ (.inl (by omega))

theorem Layout.addWaitAtHead_fenceValue {cb : VPUCommandBuffer} (layout : Layout ctx cb cmds head signalled)
    (waitBo : Option VPUBufferObject) (resetFence : Bool) :
    (cb.addWaitAtHead ctx waitBo resetFence).2.fenceValue = cb.fenceValue := by
  have start := descriptorStart_le cmds
  cases waitBo with
  | none =>
    rw [addWaitAtHead_none]
    exact fenceValue_congr fun address below =>
      Image.write_outside _ _ (.inl (by simp only [cmdOffsetOffset]; omega))
  | some bo =>
    by_cases room : fenceValueOffset < bo.allocSize
    · have fits : commandListOffset ≤ cb.buffer.allocSize := by
        rw [layout.allocSize]
        omega
      rw [addWaitAtHead_some ctx resetFence layout.mapped fits room]
      refine fenceValue_congr fun address below => ?_
      have entry : (setCmdOffset { (cb.placed (waitCommand bo) internalSyncOffset).placed
          (secondCommand ctx bo resetFence) (internalSyncOffset + fenceSize) with waitBoGuard := some bo }
          (internalSyncOffset - headerOffset)).image address =
          ((cb.placed (waitCommand bo) internalSyncOffset).placed (secondCommand ctx bo resetFence)
            (internalSyncOffset + fenceSize)).image address :=
        Image.write_outside _ _ (.inl (by simp only [cmdOffsetOffset]; omega))
      rw [entry, placed_below _ _ (by decide) below, placed_below _ _ (by decide) below]
    · rw [addWaitAtHead_refused ctx resetFence (Nat.not_lt.mp room)]

theorem Layout.addSelfSignalAtTail_fenceValue {cb : VPUCommandBuffer} (layout : Layout ctx cb cmds head signalled) :
    cb.addSelfSignalAtTail.2.fenceValue = cb.fenceValue := by
  have start := descriptorStart_le cmds
  have size := layout.size
  have allocSize := layout.allocSize
  simp only [headerOffset, commandListOffset, fenceSize] at start size
  rw [addSelfSignalAtTail_eq layout.mapped (by simp only [fenceValueOffset]; omega)
    (by simp only [headerOffset]; omega) (by simp only [fenceSize]; omega)]
  exact fenceValue_congr fun address below =>
    placed_below _ _ (by simp only [headerOffset, fenceSize]; omega) below

theorem Layout.useBusyWait_fenceValue {cb : VPUCommandBuffer} (layout : Layout ctx cb cmds head signalled) :
    cb.useBusyWait.fenceValue = STATE_HOST_RESET := by
  have result : cb.addSelfSignalAtTail = (true, cb.addSelfSignalAtTail.2) :=
    Prod.ext layout.addSelfSignalAtTail.1 rfl
  rw [VPUCommandBuffer.useBusyWait, result]
  exact cb.addSelfSignalAtTail.2.setFenceValue_fenceValue (by decide)

theorem Layout.setFenceValue {cb : VPUCommandBuffer} (layout : Layout ctx cb cmds head signalled) (value : Nat) :
    Layout ctx (cb.setFenceValue value) cmds head signalled := layout.writeFence rfl rfl

end VPUCommandBuffer

end NpuDriver
