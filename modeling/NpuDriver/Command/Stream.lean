import NpuDriver.Command.CommandBuffer

/-! The command stream as the firmware reads it, and the patches that a built command
buffer undergoes between submissions. -/

namespace NpuDriver

open Library

/-- The size field of the command header at a position. -/
def sizeAt (image : Image) (position : Nat) : Nat :=
  fromLittleEndian (image.read (position + 2) 2)

/-- Read one command after another until `finish`; `none` when a command has no size or
passes the end. Offsets count from the buffer header. -/
def readStream (image : Image) : Nat → Nat → Nat → Option (List (List UInt8))
  | 0, offset, finish => if offset = finish then some [] else none
  | fuel + 1, offset, finish =>
    if offset = finish then some []
    else if finish < offset then none
    else
      let size := sizeAt image (headerOffset + offset)
      if size = 0 then none
      else
        (readStream image fuel (offset + size) finish).map
          (image.read (headerOffset + offset) size :: ·)

/-- The commands of a buffer, from `header.cmd_offset` to `header.cmd_buffer_size`. -/
def VPUCommandBuffer.readCommands (cb : VPUCommandBuffer) : Option (List (List UInt8)) :=
  readStream cb.image cb.cmdBufferSize cb.cmdOffset cb.cmdBufferSize

/-- The patches of a built command buffer. -/
inductive Patch where
  | addWaitAtHead (waitBo : Option VPUBufferObject) (resetFence : Bool)
  | addSelfSignalAtTail
  | useBusyWait

def Patch.apply (ctx : VPUDeviceContext) (cb : VPUCommandBuffer) : Patch → VPUCommandBuffer
  | addWaitAtHead waitBo resetFence => (cb.addWaitAtHead ctx waitBo resetFence).2
  | addSelfSignalAtTail => cb.addSelfSignalAtTail.2
  | useBusyWait => cb.useBusyWait

def applyPatches (ctx : VPUDeviceContext) (cb : VPUCommandBuffer) (patches : List Patch) :
    VPUCommandBuffer :=
  patches.foldl (Patch.apply ctx) cb

/-- The argument of the last `addWaitAtHead` that returned true, with its reset flag. -/
def lastWait (ctx : VPUDeviceContext) :
    VPUCommandBuffer → Option (VPUBufferObject × Bool) → List Patch → Option (VPUBufferObject × Bool)
  | _, head, [] => head
  | cb, head, patch :: rest =>
    let next :=
      match patch with
      | .addWaitAtHead waitBo resetFence =>
        if (cb.addWaitAtHead ctx waitBo resetFence).1 then waitBo.map (·, resetFence) else head
      | _ => head
    lastWait ctx (patch.apply ctx cb) next rest

def Patch.signals : Patch → Bool
  | addWaitAtHead _ _ => false
  | addSelfSignalAtTail => true
  | useBusyWait => true

/-- The address that a command's descriptor block is placed at goes into the command. -/
def VPUCommand.patchedAt (cmd : VPUCommand) (vpuAddr offset : Nat) : VPUCommand :=
  if cmd.getDescriptorSize > 0 then cmd.patchDescriptorAddress (vpuAddr + offset) else cmd

/-- The commands of a buffer with the addresses of their descriptor blocks. -/
def patchAddresses (vpuAddr : Nat) : Nat → List VPUCommand → List VPUCommand
  | _, [] => []
  | offset, cmd :: rest =>
    cmd.patchedAt vpuAddr offset ::
      patchAddresses vpuAddr (offset + getFwDataCacheAlign cmd.getDescriptorSize) rest

/-- The descriptor blocks with their offsets. -/
def descriptorBlocks : Nat → List VPUCommand → List (Nat × List UInt8)
  | _, [] => []
  | offset, cmd :: rest =>
    (offset, cmd.getDescriptorData) ::
      descriptorBlocks (offset + getFwDataCacheAlign cmd.getDescriptorSize) rest

/-- Offset and length of each command from a position on. -/
def commandSlots (offset : Nat) (cmds : List VPUCommand) : List (Nat × Nat) :=
  tile offset (cmds.map fun cmd => (cmd.getCommitSize, cmd.getCommitSize))

/-- Start of the descriptor area. -/
def descriptorStart (cmds : List VPUCommand) : Nat :=
  getFwDataCacheAlign (commandListOffset + (VPUCommandBuffer.commitSizes cmds + fenceSize))

/-- All slots and descriptor blocks of a command buffer in address order: the two internal
synchronization commands, the user commands, the closing slot, the descriptor blocks. -/
def bufferRegions (cmds : List VPUCommand) : List (Nat × Nat) :=
  (internalSyncOffset, fenceSize) :: (internalSyncOffset + fenceSize, fenceSize) ::
    commandSlots commandListOffset cmds ++
    [(commandListOffset + VPUCommandBuffer.commitSizes cmds, fenceSize)] ++
    (descriptorBlocks (descriptorStart cmds) cmds).map fun block => (block.1, block.2.length)

end NpuDriver
