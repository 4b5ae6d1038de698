import NpuDriver.Proof.TrackedJobs

/-! The part of a device context that no operation on jobs changes: the hardware, the kernel and the tracked
buffers. -/

namespace NpuDriver

open ZeResult

namespace VPUDeviceContext

/-- The context without its counters, caches and records. -/
def fixed (ctx : VPUDeviceContext) : VPUDeviceContext :=
  { ctx with
    created := 0, scans := 0, applied := 0, errno := 0, calls := [], scratchBuffers := [], preemptionBuffers := [] }

/-- What is read of the fixed part only is the same. -/
theorem fixed_congr {α : Sort _} {ctx next : VPUDeviceContext} (same : next.fixed = ctx.fixed)
    (read : VPUDeviceContext → α) (stays : ∀ other, read other = read other.fixed) : read next = read ctx := by
  rw [stays next, same, ← stays ctx]

theorem findBufferObject_fixed {ctx next : VPUDeviceContext} (same : next.fixed = ctx.fixed) (ptr : Nat) :
    next.findBufferObject ptr = ctx.findBufferObject ptr :=
  fixed_congr same (fun other => other.findBufferObject ptr) fun _ => rfl

theorem hwInfo_fixed {ctx next : VPUDeviceContext} (same : next.fixed = ctx.fixed) : next.hwInfo = ctx.hwInfo :=
  fixed_congr same VPUDeviceContext.hwInfo fun _ => rfl

theorem createUntrackedBufferObject_fixed (ctx : VPUDeviceContext) (size : Nat) (mappable : Bool) :
    (ctx.createUntrackedBufferObject size mappable).2.fixed = ctx.fixed := by
  obtain ⟨created, -, frame⟩ := ctx.createUntrackedBufferObject_frame size mappable
  rw [frame]
  rfl

theorem scratchCacheAcquire_fixed (ctx : VPUDeviceContext) (size : Nat) :
    (ctx.scratchCacheAcquire size).2.fixed = ctx.fixed := by
  rw [scratchCacheAcquire]
  split
  · rfl
  · have frame := createUntrackedBufferObject_fixed { ctx with scans := ctx.scans + 1 } size false
    simp only
    split
    · rfl
    · generalize VPUDeviceContext.createUntrackedBufferObject _ size false = answer at frame
      rcases answer with ⟨_ | bo, next⟩
      · exact frame
      · exact frame

theorem preemptionCacheAcquire_fixed (ctx : VPUDeviceContext) : ctx.preemptionCacheAcquire.2.fixed = ctx.fixed := by
  rw [preemptionCacheAcquire]
  split
  · rfl
  · have frame := createUntrackedBufferObject_fixed { ctx with scans := ctx.scans + 1 } ctx.hwInfo.fwPreemptBufSize
      false
    simp only
    split
    · rfl
    · generalize VPUDeviceContext.createUntrackedBufferObject _ ctx.hwInfo.fwPreemptBufSize false = answer at frame
      rcases answer with ⟨_ | bo, next⟩
      · exact frame
      · exact frame

end VPUDeviceContext

open VPUDeviceContext

theorem applyInputOutputs_fixed (ctx : VPUDeviceContext) (hpi : HostParsedInference) (inputs outputs : List Nat)
    (profilingQuery : Option GraphProfilingQuery) :
    (applyInputOutputs ctx hpi inputs outputs profilingQuery).2.fixed = ctx.fixed := by
  rw [applyInputOutputs]
  split
  · rfl
  · simp only
    split <;> rfl

theorem VPUCommand.update_fixed (cmd : VPUCommand) (cb : VPUCommandBuffer) (ctx : VPUDeviceContext) :
    (cmd.update cb ctx).2.2.2.fixed = ctx.fixed := by
  rw [update]
  split
  · rename_i inference _
    have frame := applyInputOutputs_fixed ctx inference.hpi inference.inputs inference.outputs
      inference.profilingQuery
    generalize applyInputOutputs ctx inference.hpi inference.inputs inference.outputs inference.profilingQuery = answer
      at frame
    split
    · rfl
    · rcases answer with ⟨_ | userArgs, next⟩
      · exact frame
      · exact frame
  · rfl

namespace VPUCommandBuffer

theorem updateEach_fixed (scratchBuffer : Option VPUBufferObject) (cb : VPUCommandBuffer) (cmds : List VPUCommand)
    (ctx : VPUDeviceContext) : (updateEach scratchBuffer cb cmds ctx).2.2.2.fixed = ctx.fixed := by
  induction cmds generalizing cb ctx with
  | nil => rfl
  | cons cmd rest ih =>
    have frame := (cmd.updateScratchBuffer cb scratchBuffer).1.update_fixed
      (cmd.updateScratchBuffer cb scratchBuffer).2 ctx
    rw [updateEach]
    simp only
    generalize (cmd.updateScratchBuffer cb scratchBuffer).1.update (cmd.updateScratchBuffer cb scratchBuffer).2 ctx =
      answer at frame
    obtain ⟨success, updated, next, later⟩ := answer
    cases success with
    | false => exact frame
    | true => exact (ih next later).trans frame

theorem updateCommands_fixed (cb : VPUCommandBuffer) (cmds : List VPUCommand) (ctx : VPUDeviceContext) :
    (cb.updateCommands cmds ctx).2.2.2.fixed = ctx.fixed := by
  rw [updateCommands]
  split
  · exact updateEach_fixed _ _ cmds ctx
  · have frame := ctx.scratchCacheAcquire_fixed cb.inferenceScratchSize
    generalize ctx.scratchCacheAcquire cb.inferenceScratchSize = answer at frame
    rcases answer with ⟨_ | bo, next⟩
    · exact frame
    · exact (updateEach_fixed _ _ cmds next).trans frame

theorem allocateCommandBuffer_fixed (ctx : VPUDeviceContext) (position : Nat) (cmds : List VPUCommand) :
    (allocateCommandBuffer ctx position cmds).2.2.fixed = ctx.fixed := by
  rw [allocateCommandBuffer]
  split
  · rfl
  · have frame := ctx.createUntrackedBufferObject_fixed
      (getFwDataCacheAlign (commandListOffset + (commitSizes cmds + fenceSize)) + descriptorSizes cmds +
        ctx.hwInfo.extraDmaDescriptorSize) true
    simp only
    generalize ctx.createUntrackedBufferObject _ true = answer at frame
    rcases answer with ⟨_ | buffer, next⟩
    · exact frame
    · simp only
      split
      · exact frame
      · split <;> exact frame

theorem waitForCompletion_fixed (cb : VPUCommandBuffer) (ctx : VPUDeviceContext) :
    (cb.waitForCompletion ctx).2.2.fixed = ctx.fixed := by
  rw [waitForCompletion, wait]
  cases ctx.drvApi.wait ctx.calls.length cb.buffer.handle <;> rfl

end VPUCommandBuffer

namespace VPUJob

theorem updateBuffers_fixed (commands : List VPUCommand) (ctx : VPUDeviceContext)
    (cmdBuffers : List VPUCommandBuffer) : (updateBuffers commands ctx cmdBuffers).2.2.2.fixed = ctx.fixed := by
  induction cmdBuffers generalizing commands ctx with
  | nil => rfl
  | cons cmdBuffer rest ih =>
    have frame := cmdBuffer.updateCommands_fixed (cmdBuffer.commandsOf commands) ctx
    rw [updateBuffers]
    generalize cmdBuffer.updateCommands (cmdBuffer.commandsOf commands) ctx = answer at frame
    obtain ⟨success, updated, cmds, next⟩ := answer
    cases success with
    | false => exact frame
    | true => exact (ih _ next).trans frame

theorem createCommandBuffers_fixed (ctx : VPUDeviceContext) (position : Nat) (shares : List (List VPUCommand))
    (event : Option VPUBufferObject) : (createCommandBuffers ctx position shares event).2.2.2.fixed = ctx.fixed := by
  induction shares generalizing ctx position event with
  | nil => rfl
  | cons share others ih =>
    have frame := VPUCommandBuffer.allocateCommandBuffer_fixed ctx position share
    rw [createCommandBuffers]
    generalize VPUCommandBuffer.allocateCommandBuffer ctx position share = answer at frame
    obtain ⟨result, patched, next⟩ := answer
    cases result with
    | none => exact frame
    | some cb => exact (ih next _ _).trans frame

theorem closeCommands_fixed (job : VPUJob) (ctx : VPUDeviceContext) :
    (job.closeCommands ctx).2.2.fixed = ctx.fixed := by
  rw [closeCommands]
  split
  · rfl
  · split
    · rfl
    · exact createCommandBuffers_fixed ctx 0 _ none

theorem stripInOrder_fixed (job : VPUJob) (ctx : VPUDeviceContext) :
    (job.stripInOrder ctx).2.2.fixed = ctx.fixed := by
  rw [stripInOrder]
  split
  · rfl
  · exact closeCommands_fixed _ ctx

theorem makeInOrder_fixed (job : VPUJob) (waitFor : Option VPUBufferObject) (ctx : VPUDeviceContext) :
    (job.makeInOrder waitFor ctx).ctx.fixed = ctx.fixed := by
  rw [makeInOrder]
  split
  · rfl
  · rename_i front rest _
    split
    · have frame := front.waitForCompletion_fixed ctx
      generalize front.waitForCompletion ctx = answer at frame
      obtain ⟨success, waited, next⟩ := answer
      cases success with
      | false => exact frame
      | true =>
        simp only [chain_ctx]
        exact frame
    · rw [chain_ctx]

end VPUJob

namespace VPUDeviceQueueManaged

theorem prepare_fixed (queue : VPUDeviceQueueManaged) (job : VPUJob) (ctx : VPUDeviceContext) :
    (queue.prepare job ctx).ctx.fixed = ctx.fixed := by
  rw [prepare]
  split
  · exact job.makeInOrder_fixed queue.lastWaitBo ctx
  · split
    · exact job.stripInOrder_fixed ctx
    · rfl

theorem submitBusy_fixed (queue : VPUDeviceQueueManaged) (attempts : Nat) (cmdBuf : VPUCommandBuffer)
    (ctx : VPUDeviceContext) : (queue.submitBusy attempts cmdBuf ctx).2.fixed = ctx.fixed := by
  induction attempts generalizing cmdBuf ctx with
  | zero => rfl
  | succ attempts ih => exact ih _ _

theorem submitUntilReply_fixed (queue : VPUDeviceQueueManaged) (cmdBuf : VPUCommandBuffer) (ctx : VPUDeviceContext) :
    (queue.submitUntilReply cmdBuf ctx).2.2.fixed = ctx.fixed := by
  have busy := queue.submitBusy_fixed (ctx.drvApi.commandQueueSubmit ctx.calls.length).busyReplies cmdBuf ctx
  rw [submitUntilReply]
  simp only
  split <;> exact busy

theorem submitEach_fixed (queue : VPUDeviceQueueManaged) (ctx : VPUDeviceContext) (cmdBufs : List VPUCommandBuffer) :
    (queue.submitEach ctx cmdBufs).2.2.fixed = ctx.fixed := by
  induction cmdBufs generalizing ctx with
  | nil => rfl
  | cons cmdBuf rest ih =>
    have frame := queue.submitUntilReply_fixed cmdBuf ctx
    rw [submitEach]
    generalize queue.submitUntilReply cmdBuf ctx = answer at frame
    obtain ⟨success, submitted, next⟩ := answer
    cases success with
    | false => exact frame
    | true => exact (ih next).trans frame

theorem submit_fixed (queue : VPUDeviceQueueManaged) (job : VPUJob) (ctx : VPUDeviceContext) :
    (queue.submit job ctx).ctx.fixed = ctx.fixed := by
  have prepared := queue.prepare_fixed job ctx
  rw [submit]
  simp only
  split
  · exact prepared
  · rw [submitWithWait]
    split
    · exact prepared
    · exact ((queue.prepare job ctx).queue.submitEach_fixed _ _).trans prepared

end VPUDeviceQueueManaged

theorem executeJob_fixed (queue : VPUDeviceQueueManaged) (preemptionBuffer : Option VPUBufferObject) (job : VPUJob)
    (ctx : VPUDeviceContext) : (executeJob queue preemptionBuffer job ctx).ctx.fixed = ctx.fixed := by
  have updated : (job.updateOnSubmit ctx).2.2.fixed = ctx.fixed :=
    VPUJob.updateBuffers_fixed job.commands ctx job.cmdBuffers
  rw [executeJob]
  generalize job.updateOnSubmit ctx = answer at updated
  obtain ⟨success, revised, next⟩ := answer
  cases success with
  | false => exact updated
  | true => exact (queue.submit_fixed _ next).trans updated

end NpuDriver
