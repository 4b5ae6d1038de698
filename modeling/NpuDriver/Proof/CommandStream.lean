import NpuDriver.Proof.StreamLayout

/-! What the firmware reads from a command buffer over its whole life. -/

namespace NpuDriver

open Library VPUCommandBuffer

/-- After allocation and any series of patches the firmware reads the pair of synchronization
commands of the last wait that was taken, the user commands with the addresses of their
descriptor blocks, and one closing command; slots and blocks are ordered, aligned and inside
the buffer, and the extra descriptor bytes at its end were never written. -/
theorem commandBuffer_stream {ctx next : VPUDeviceContext} {cmds patched : List VPUCommand}
    {cb : VPUCommandBuffer} {begin : Nat}
    (allocated : allocateCommandBuffer ctx begin cmds = (some cb, patched, next)) (patches : List Patch) :
    let final := applyPatches ctx cb patches
    final.readCommands = some ((headCommands ctx (lastWait ctx cb none patches) ++ patched ++
        [closingCommand ctx cb.buffer (patches.any Patch.signals)]).map VPUCommand.getCommitStream) ∧
      List.Forall₂ SameButAddress cmds patched ∧
      (bufferRegions cmds).Pairwise (fun earlier later => earlier.1 + earlier.2 ≤ later.1) ∧
      (∀ region ∈ bufferRegions cmds,
        region.1 + region.2 + ctx.hwInfo.extraDmaDescriptorSize ≤ cb.buffer.allocSize) ∧
      List.Forall₂ (PointsTo cb.buffer.vpuAddr) patched (descriptorBlocks (descriptorStart cmds) cmds) ∧
      (∀ block ∈ descriptorBlocks (descriptorStart cmds) cmds,
        block.1 % 64 = 0 ∧ final.image.read block.1 block.2.length = block.2) ∧
      ∀ address, cb.buffer.allocSize ≤ address + ctx.hwInfo.extraDmaDescriptorSize →
        final.image address = 0 := by
  obtain ⟨rfl, initial, -, -, -, -⟩ := allocateCommandBuffer_some allocated
  have layout := initial.applyPatches patches
  have same : (applyPatches ctx cb patches).buffer = cb.buffer := (applyPatches_extends ctx cb patches).buffer
  have allocSize := initial.allocSize
  refine ⟨?_, patchAddresses_sameButAddress _ _ cmds, bufferRegions_ordered cmds, ?_,
    patchAddresses_pointsTo _ _ cmds, ?_, ?_⟩
  · have walk := layout.readCommands
    rw [same, Bool.false_or] at walk
    exact walk
  · intro region member
    have bounds := bufferRegions_bounds member
    omega
  · intro block member
    exact ⟨descriptorBlocks_aligned (getFwDataCacheAlign_mod _) block member, layout.blocks block member⟩
  · intro address beyond
    exact layout.unused address (by omega)

/-- A user buffer and the copy of 64 bytes inside it. -/
def sampleBuffer : VPUBufferObject := ⟨100, 101, 2 ^ 30, 4096, 2 ^ 30⟩

def sampleCopy : VPUCommand where
  command := .copyBuffer 0 1
  sType := .Generic
  bufferObjects := [sampleBuffer]
  descriptor := some ⟨fillDescriptors .vpu_cmd_copy_descriptor_40xx 1 (2 ^ 30) (2 ^ 30 + 1024) 64, 1⟩
  cmdNeedsUpdate := false
  sized := trivial

theorem sampleCopy_allocated : ∃ cb patched next,
    allocateCommandBuffer (grantingContext []) 0 [sampleCopy] = (some cb, patched, next) := by
  have success : (allocateCommandBuffer (grantingContext []) 0 [sampleCopy]).1.isSome = true := by
    decide +kernel
  obtain ⟨cb, found⟩ := Option.isSome_iff_exists.mp success
  generalize allocateCommandBuffer (grantingContext []) 0 [sampleCopy] = result at found
  obtain ⟨first, patched, next⟩ := result
  exact ⟨cb, patched, next, by rw [← found]⟩

theorem commandBuffer_stream_copy : ∃ cb patched next,
    allocateCommandBuffer (grantingContext []) 0 [sampleCopy] = (some cb, patched, next) ∧
      (applyPatches (grantingContext []) cb
          [.addWaitAtHead (some sampleBuffer) true, .addSelfSignalAtTail]).readCommands =
        some ((headCommands (grantingContext [])
            (lastWait (grantingContext []) cb none
              [.addWaitAtHead (some sampleBuffer) true, .addSelfSignalAtTail]) ++ patched ++
          [closingCommand (grantingContext []) cb.buffer true]).map VPUCommand.getCommitStream) := by
  obtain ⟨cb, patched, next, allocated⟩ := sampleCopy_allocated
  exact ⟨cb, patched, next, allocated, (commandBuffer_stream allocated _).1⟩

/-- A buffer without room for a fence word: a wait on it is refused. -/
def smallBuffer : VPUBufferObject := ⟨200, 201, 2 ^ 31, 64, 2 ^ 31⟩

/-- The last wait at the head was given a buffer, and yet no pair of synchronization commands
precedes the user command. -/
theorem refused_wait_reads_no_pair : ∃ cb patched next,
    allocateCommandBuffer (grantingContext []) 0 [sampleCopy] = (some cb, patched, next) ∧
      (applyPatches (grantingContext []) cb [.addWaitAtHead (some smallBuffer) true]).readCommands =
        some (patched.map VPUCommand.getCommitStream ++ [(nopCommand (grantingContext [])).getCommitStream]) := by
  obtain ⟨cb, patched, next, allocated⟩ := sampleCopy_allocated
  obtain ⟨patched_eq, layout, -, -, -, -⟩ := allocateCommandBuffer_some allocated
  refine ⟨cb, patched, next, allocated, ?_⟩
  have refused : cb.addWaitAtHead (grantingContext []) (some smallBuffer) true = (false, cb) :=
    addWaitAtHead_refused _ true (by decide)
  have unchanged : applyPatches (grantingContext []) cb [.addWaitAtHead (some smallBuffer) true] = cb := by
    simp [applyPatches, Patch.apply, refused]
  rw [unchanged, layout.readCommands, patched_eq]
  simp [headCommands, closingCommand]

end NpuDriver
