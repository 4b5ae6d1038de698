import NpuDriver.Command.InferenceExecute
import NpuDriver.Library.UniqueList

/-! Command buffers: allocation, the patches made for fences, and the edits of the list of
buffer handles that is passed to the kernel. -/

namespace NpuDriver

open Library

/-- `offsetof` the fields of `VPUCommandBuffer::CommandHeader`; `contextSaveArea` is its
first field. -/
def fenceValueOffset : Nat := 64
def headerOffset : Nat := 128
def internalSyncOffset : Nat := 176
def commandListOffset : Nat := 224

/-- Fields of `vpu_cmd_buffer_header_t`, by offset from the start of the buffer. -/
def cmdBufferSizeOffset : Nat := headerOffset
def cmdOffsetOffset : Nat := headerOffset + 4
def apiVersionOffset : Nat := headerOffset + 8
def contextSaveAreaAddressOffset : Nat := headerOffset + 40

def VPU_JSM_JOB_CMD_API_VER_MAJOR : Nat := 4
def VPU_JSM_JOB_CMD_API_VER_MINOR : Nat := 15

/-- `image` is the contents of the buffer's memory. The commands are those of the job
between the two positions. -/
structure VPUCommandBuffer where
  buffer : VPUBufferObject
  image : Image
  waitBoGuard : Option VPUBufferObject
  jobStatus : Nat
  commandsBegin : Nat
  commandsEnd : Nat
  syncFenceVpuAddr : Nat
  bufferHandles : List Nat
  inferenceScratchSize : Nat
  inferenceScratchBuffer : Option VPUBufferObject
  preemptionBuffer : Option VPUBufferObject
  preemptionBufferIndex : Option Nat
  useBusyWaitFlag : Bool

/-- What `addCommand` leaves behind; its references are updated also when it fails. -/
structure Added where
  success : Bool
  cmdBuffer : VPUCommandBuffer
  cmd : VPUCommand
  cmdOffset : Nat
  descOffset : Nat

namespace VPUCommandBuffer

/-- The constructor. -/
def new (buffer : VPUBufferObject) (commandsBegin commandsEnd : Nat) : VPUCommandBuffer where
  buffer := buffer
  image := fun _ => 0
  waitBoGuard := none
  jobStatus := UINT32_MAX
  commandsBegin := commandsBegin
  commandsEnd := commandsEnd
  syncFenceVpuAddr := 0
  bufferHandles := [buffer.handle]
  inferenceScratchSize := 0
  inferenceScratchBuffer := none
  preemptionBuffer := none
  preemptionBufferIndex := none
  useBusyWaitFlag := false

/-- The commands of the buffer within those of its job. -/
def commandsOf (cb : VPUCommandBuffer) (commands : List VPUCommand) : List VPUCommand :=
  (commands.drop cb.commandsBegin).take (cb.commandsEnd - cb.commandsBegin)

/-- `header.cmd_buffer_size` and `header.cmd_offset` as they stand in memory. -/
def cmdBufferSize (cb : VPUCommandBuffer) : Nat :=
  fromLittleEndian (cb.image.read cmdBufferSizeOffset 4)

def cmdOffset (cb : VPUCommandBuffer) : Nat :=
  fromLittleEndian (cb.image.read cmdOffsetOffset 4)

def fenceValue (cb : VPUCommandBuffer) : Nat :=
  fromLittleEndian (cb.image.read fenceValueOffset 8)

/-- `none` where `safe_cast` throws. -/
def initHeader (cb : VPUCommandBuffer) (cmdSize : Nat) : Option VPUCommandBuffer :=
  match safeCastU32 (commandListOffset - headerOffset + cmdSize) with
  | none => none
  | some size =>
    let cleared : Image := fun _ => 0
    let offset := cleared.write cmdOffsetOffset (littleEndian 4 (commandListOffset - headerOffset))
    let sized := offset.write cmdBufferSizeOffset (littleEndian 4 size)
    let area := sized.write contextSaveAreaAddressOffset (littleEndian 8 cb.buffer.vpuAddr)
    let version := VPU_JSM_JOB_CMD_API_VER_MAJOR * 2 ^ 16 + VPU_JSM_JOB_CMD_API_VER_MINOR
    some { cb with image := area.write apiVersionOffset (littleEndian 4 version) }

def addUniqueBoHandle (cb : VPUCommandBuffer) (handle : Nat) : VPUCommandBuffer :=
  { cb with bufferHandles := addUnique cb.bufferHandles handle }

/-- The handles of all buffers that the command is associated with. -/
def addHandles (cb : VPUCommandBuffer) (bos : List VPUBufferObject) : VPUCommandBuffer :=
  { cb with bufferHandles := addAllUnique cb.bufferHandles (bos.map VPUBufferObject.handle) }

/-- The copy of the command's stream, after its descriptor has been placed. -/
def addStream (cb : VPUCommandBuffer) (cmd : VPUCommand) (cmdOffset descOffset : Nat) : Added :=
  match cb.buffer.copyToBuffer cb.image cmd.getCommitStream cmdOffset with
  | none => ⟨false, cb, cmd, cmdOffset, descOffset⟩
  | some image =>
    let scratchSize :=
      match cmd.isInference with
      | some inference => max cb.inferenceScratchSize inference.sharedScratchSize
      | none => cb.inferenceScratchSize
    ⟨true, { cb with image := image, inferenceScratchSize := scratchSize }, cmd,
      cmdOffset + cmd.getCommitSize, descOffset⟩

theorem addStream_cmd (cb : VPUCommandBuffer) (cmd : VPUCommand) (cmdOffset descOffset : Nat) :
    (cb.addStream cmd cmdOffset descOffset).cmd = cmd := by
  rw [addStream]
  split <;> rfl

/-- `addCommand`; a null command is refused by the callers below. -/
def addCommand (cb : VPUCommandBuffer) (cmd : VPUCommand) (cmdOffset descOffset : Nat) : Added :=
  if descOffset ≠ 0 ∧ cmdOffset ≥ descOffset then ⟨false, cb, cmd, cmdOffset, descOffset⟩
  else
    let named := cb.addHandles cmd.getAssociateBufferObjects
    if descOffset ≠ 0 ∧ cmd.getDescriptorSize > 0 then
      match named.buffer.copyToBuffer named.image cmd.getDescriptorData descOffset with
      | none => ⟨false, named, cmd, cmdOffset, descOffset⟩
      | some image =>
        addStream { named with image := image }
          (cmd.patchDescriptorAddress (named.buffer.vpuAddr + descOffset)) cmdOffset
          (descOffset + getFwDataCacheAlign cmd.getDescriptorSize)
    else addStream named cmd cmdOffset descOffset

/-- Write `header.cmd_offset`. -/
def setCmdOffset (cb : VPUCommandBuffer) (offset : Nat) : VPUCommandBuffer :=
  { cb with image := cb.image.write cmdOffsetOffset (littleEndian 4 offset) }

/-- The second internal synchronization command: the reset of the fence, or a NOP. -/
def resetCommand (ctx : VPUDeviceContext) (waitBo : VPUBufferObject) (resetFence : Bool) : Created :=
  if resetFence then
    VPUEventResetCommand.create (waitBo.basePtr + fenceValueOffset) (some waitBo)
  else VPUNopCommand.create ctx fenceSize

def addWaitAtHead (cb : VPUCommandBuffer) (ctx : VPUDeviceContext) (waitBo : Option VPUBufferObject)
    (resetFence : Bool) : Bool × VPUCommandBuffer :=
  match waitBo with
  | none =>
    (true, { cb.setCmdOffset (commandListOffset - headerOffset) with waitBoGuard := none })
  | some bo =>
    match VPUEventWaitCommand.create (bo.basePtr + fenceValueOffset) (some bo) with
    | .error _ => (false, cb)
    | .ok waitCmd =>
      let waiting := cb.addCommand waitCmd internalSyncOffset 0
      if !waiting.success then (false, waiting.cmdBuffer)
      else
        match resetCommand ctx bo resetFence with
        | .error _ => (false, waiting.cmdBuffer)
        | .ok secondCmd =>
          let added := waiting.cmdBuffer.addCommand secondCmd waiting.cmdOffset waiting.descOffset
          if !added.success then (false, added.cmdBuffer)
          else
            (true, { added.cmdBuffer with waitBoGuard := some bo }.setCmdOffset
              (internalSyncOffset - headerOffset))

def addSelfSignalAtTail (cb : VPUCommandBuffer) : Bool × VPUCommandBuffer :=
  match VPUEventSignalCommand.create (cb.buffer.basePtr + fenceValueOffset) (some cb.buffer) with
  | .error _ => (false, cb)
  | .ok signalCmd =>
    let added := cb.addCommand signalCmd (headerOffset + cb.cmdBufferSize - fenceSize) 0
    (added.success, added.cmdBuffer)

/-- The fence that names a command buffer ending in a signal, `none` on failure. -/
def setSyncFenceAddr (cb : VPUCommandBuffer) (cmd : VPUCommand) : Option VPUCommandBuffer :=
  if cb.syncFenceVpuAddr ≠ 0 then none
  else if cmd.getCommandType ≠ VPU_CMD_FENCE_SIGNAL then none
  else
    match cmd.command with
    | .fence _ offset _ => some { cb with syncFenceVpuAddr := offset }
    | _ => none

/-- The loop of `allocateCommandBuffer` over the commands; the commands are patched in place,
so the second component lists all of them also when one fails. -/
def addCommands (cb : VPUCommandBuffer) :
    List VPUCommand → Nat → Nat → Option (VPUCommandBuffer × Nat × Nat) × List VPUCommand
  | [], cmdOffset, descOffset => (some (cb, cmdOffset, descOffset), [])
  | cmd :: rest, cmdOffset, descOffset =>
    match (if cmd.isSynchronizeCommand then cb.setSyncFenceAddr cmd else some cb) with
    | none => (none, cmd :: rest)
    | some fenced =>
      let added := fenced.addCommand cmd cmdOffset descOffset
      if !added.success then (none, added.cmd :: rest)
      else
        let result := addCommands added.cmdBuffer rest added.cmdOffset added.descOffset
        (result.1, added.cmd :: result.2)

/-- Sizes of the two parts of a command buffer, before the closing slot is counted. -/
def commitSizes (cmds : List VPUCommand) : Nat := (cmds.map VPUCommand.getCommitSize).sum

def descriptorSizes (cmds : List VPUCommand) : Nat :=
  (cmds.map fun cmd => getFwDataCacheAlign cmd.getDescriptorSize).sum

/-- The closing slot and the checks at the end of `allocateCommandBuffer`. -/
def finish (cb : VPUCommandBuffer) (ctx : VPUDeviceContext) (cmdSize descriptorSize : Nat)
    (cmdOffset descOffset : Nat) : Option VPUCommandBuffer :=
  match VPUNopCommand.create ctx fenceSize with
  | .error _ => none
  | .ok nopCmd =>
    let added := cb.addCommand nopCmd cmdOffset descOffset
    if !added.success then none
    else if added.cmdOffset ≠ commandListOffset + cmdSize then none
    else if added.descOffset ≠ getFwDataCacheAlign (commandListOffset + cmdSize) + descriptorSize then none
    else some added.cmdBuffer

/-- `allocateCommandBuffer` for the commands between two positions of the job. A thrown
exception of `safe_cast` is a failed allocation as well. -/
def allocateCommandBuffer (ctx : VPUDeviceContext) (commandsBegin : Nat) (cmds : List VPUCommand) :
    Option VPUCommandBuffer × List VPUCommand × VPUDeviceContext :=
  if cmds = [] then (none, cmds, ctx)
  else
    let cmdSize := commitSizes cmds + fenceSize
    let descriptorSize := descriptorSizes cmds
    let descOffset := getFwDataCacheAlign (commandListOffset + cmdSize)
    match ctx.createUntrackedBufferObject
        (descOffset + descriptorSize + ctx.hwInfo.extraDmaDescriptorSize) true with
    | (none, next) => (none, cmds, next)
    | (some buffer, next) =>
      match (new buffer commandsBegin (commandsBegin + cmds.length)).initHeader cmdSize with
      | none => (none, cmds, next)
      | some cb =>
        match cb.addCommands cmds commandListOffset descOffset with
        | (none, patched) => (none, patched, next)
        | (some (filled, cmdOffset, descEnd), patched) =>
          (filled.finish ctx cmdSize descriptorSize cmdOffset descEnd, patched, next)

/-- `STATE_HOST_RESET` into the fence word; command buffers are always mapped. -/
def resetFenceValue (cb : VPUCommandBuffer) : VPUCommandBuffer :=
  { cb with image := cb.image.write fenceValueOffset (littleEndian 8 STATE_HOST_RESET) }

def useBusyWait (cb : VPUCommandBuffer) : VPUCommandBuffer :=
  match cb.addSelfSignalAtTail with
  | (false, kept) => kept
  | (true, signalled) => { signalled.resetFenceValue with useBusyWaitFlag := true }

/-- `wait`: the buffer's own memory has to become inactive. -/
def wait (cb : VPUCommandBuffer) (ctx : VPUDeviceContext) :
    Bool × VPUCommandBuffer × VPUDeviceContext :=
  match ctx.drvApi.wait ctx.calls.length cb.buffer.handle with
  | none => (false, cb, { ctx with calls := ctx.calls ++ [.wait cb.buffer false] })
  | some status =>
    (true, { cb with jobStatus := status }, { ctx with calls := ctx.calls ++ [.wait cb.buffer true] })

/-- What a successful wait releases. -/
def release (cb : VPUCommandBuffer) : VPUCommandBuffer :=
  let idle := { cb with useBusyWaitFlag := false, inferenceScratchBuffer := none }
  match cb.preemptionBuffer, cb.preemptionBufferIndex with
  | some _, some index =>
    { idle with
      bufferHandles := cb.bufferHandles.eraseIdx index
      preemptionBufferIndex := none, preemptionBuffer := none }
  | _, _ => idle

/-- `waitForCompletion`; busy waiting before the wait only delays it. -/
def waitForCompletion (cb : VPUCommandBuffer) (ctx : VPUDeviceContext) :
    Bool × VPUCommandBuffer × VPUDeviceContext :=
  match cb.wait ctx with
  | (false, waited, next) => (false, waited, next)
  | (true, waited, next) => (true, waited.release, next)

/-- `replaceBufferHandles`: lists of different lengths are refused. -/
def replaceBufferHandles (cb : VPUCommandBuffer) (oldHandles newHandles : List Nat) :
    Bool × VPUCommandBuffer :=
  if oldHandles.length ≠ newHandles.length then (false, cb)
  else (true, { cb with bufferHandles := Edit.apply ⟨oldHandles, newHandles⟩ cb.bufferHandles })

end VPUCommandBuffer

/-- `VPUInferenceExecute::updateScratchBuffer`; the buffer is never null where the shared
scratch size is positive. -/
def VPUCommand.updateScratchBuffer (cmd : VPUCommand) (cb : VPUCommandBuffer)
    (scratchBuffer : Option VPUBufferObject) : VPUCommand × VPUCommandBuffer :=
  match cmd.command with
  | .inferenceExecute inference =>
    if inference.sharedScratchSize = 0 then (cmd, cb)
    else
      match scratchBuffer with
      | none => (cmd, cb)
      | some bo =>
        ({ cmd with
           command := .inferenceExecute { inference with lastScratchBoHandle := bo.handle }
           sized := trivial },
          (cb.replaceBufferHandles [inference.lastScratchBoHandle] [bo.handle]).2)
  | _ => (cmd, cb)

/-- `update`: only inference commands override it, and only pending updates do anything. -/
def VPUCommand.update (cmd : VPUCommand) (cb : VPUCommandBuffer) (ctx : VPUDeviceContext) :
    Bool × VPUCommand × VPUCommandBuffer × VPUDeviceContext :=
  match cmd.command with
  | .inferenceExecute inference =>
    if !cmd.cmdNeedsUpdate then (true, cmd, cb, ctx)
    else
      match applyInputOutputs ctx inference.hpi inference.inputs inference.outputs
          inference.profilingQuery with
      | (none, next) => (false, { cmd with cmdNeedsUpdate := false }, cb, next)
      | (some userArgs, next) =>
        let newHandles := userArgs.map VPUBufferObject.handle
        (true,
          { cmd with
            command := .inferenceExecute { inference with userArgHandles := newHandles }
            bufferObjects :=
              appendAssociateBufferObjects (cmd.bufferObjects.take inference.userArgIndex) userArgs
            cmdNeedsUpdate := false, sized := trivial },
          (cb.replaceBufferHandles inference.userArgHandles newHandles).2, next)
  | _ => (true, cmd, cb, ctx)

namespace VPUCommandBuffer

/-- The loop of `updateCommands`, which stops at the first command that fails. -/
def updateEach (scratchBuffer : Option VPUBufferObject) :
    VPUCommandBuffer → List VPUCommand → VPUDeviceContext →
      Bool × VPUCommandBuffer × List VPUCommand × VPUDeviceContext
  | cb, [], ctx => (true, cb, [], ctx)
  | cb, cmd :: rest, ctx =>
    let scratched := cmd.updateScratchBuffer cb scratchBuffer
    match scratched.1.update scratched.2 ctx with
    | (false, updated, next, ctx) => (false, next, updated :: rest, ctx)
    | (true, updated, next, ctx) =>
      match updateEach scratchBuffer next rest ctx with
      | (success, final, others, ctx) => (success, final, updated :: others, ctx)

def updateCommands (cb : VPUCommandBuffer) (cmds : List VPUCommand) (ctx : VPUDeviceContext) :
    Bool × VPUCommandBuffer × List VPUCommand × VPUDeviceContext :=
  if cb.inferenceScratchSize = 0 then updateEach cb.inferenceScratchBuffer cb cmds ctx
  else
    match ctx.scratchCacheAcquire cb.inferenceScratchSize with
    | (none, next) => (false, { cb with inferenceScratchBuffer := none }, cmds, next)
    | (some bo, next) => updateEach (some bo) { cb with inferenceScratchBuffer := some bo } cmds next

def addPreemptionBuffer (cb : VPUCommandBuffer) (bo : Option VPUBufferObject) : VPUCommandBuffer :=
  match cb.preemptionBuffer, bo with
  | none, some preemption =>
    { cb with
      preemptionBuffer := some preemption
      preemptionBufferIndex := some cb.bufferHandles.length
      bufferHandles := cb.bufferHandles ++ [preemption.handle] }
  | _, _ => cb

/-- Index zero asks the kernel for a preemption buffer of its own. -/
def getPreemptionBufferIndex (cb : VPUCommandBuffer) : Nat := cb.preemptionBufferIndex.getD 0

end VPUCommandBuffer

end NpuDriver
