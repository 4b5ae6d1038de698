import NpuDriver.Library.BytePattern
import NpuDriver.Proof.DataCommands
import NpuDriver.LevelZero.CommandList

/-! The device's memory under a fill: what the host writes while it appends, and what the device writes when it
runs the commands. -/

namespace NpuDriver

open Library ZeResult

/-- `fillBuffer`, with the value that the pattern pointer holds. The host writes whole elements; its copy of the
buffer is the device's memory from `vpuAddr` on. -/
def VPUBufferObject.fillBuffer (bo : VPUBufferObject) (memory : Image) (pattern patternSize : Nat) : Option Image :=
  if bo.basePtr = 0 then none
  else if patternSize = 4 then
    some (memory.write bo.vpuAddr (List.replicate (bo.allocSize / 4) (littleEndian 4 pattern)).flatten)
  else if patternSize = 2 then
    some (memory.write bo.vpuAddr (List.replicate (bo.allocSize / 2) (littleEndian 2 pattern)).flatten)
  else if patternSize = 1 then
    some (memory.write bo.vpuAddr (List.replicate bo.allocSize (littleEndian 1 pattern)).flatten)
  else none

namespace CommandList

/-- `appendMemoryFillAsCopyCmd` with the memory of its internal buffer. -/
def fillAsCopyWithMemory (ptr pattern patternSize size : Nat) (hSignalEvent : Option Event) (waitEvents : WaitEvents)
    (list : CommandList) (memory : Image) : ZeResult × CommandList × Image :=
  match checkCommandAppendCondition list with
  | (ZE_RESULT_SUCCESS, list) =>
    match list.ctx.createUntrackedBufferObject ((size + patternSize) % 2 ^ 64) true with
    | (none, ctx) => (ZE_RESULT_ERROR_OUT_OF_DEVICE_MEMORY, { list with ctx := ctx }, memory)
    | (some patternBo, ctx) =>
      match patternBo.fillBuffer memory pattern patternSize with
      | none => (ZE_RESULT_ERROR_INVALID_SIZE, { list with ctx := ctx }, memory)
      | some filled =>
        match appendCommandWithEvents hSignalEvent waitEvents
            (VPUCopyCommand.create ctx patternBo.basePtr (some patternBo) ptr (ctx.findBufferObject ptr) size)
            { list with ctx := ctx } with
        | (result, next) => (result, next, filled)
  | (error, list) => (error, list, memory)

/-- `appendMemoryFill` with the device's memory. -/
def fillWithMemory (ptr : Nat) (pattern : Option Nat) (patternSize size : Nat) (hSignalEvent : Option Event)
    (waitEvents : WaitEvents) (list : CommandList) (memory : Image) : ZeResult × CommandList × Image :=
  if ptr = 0 then (ZE_RESULT_ERROR_INVALID_NULL_POINTER, list, memory)
  else
    match pattern with
    | none => (ZE_RESULT_ERROR_INVALID_NULL_POINTER, list, memory)
    | some value =>
      if patternSize ≠ 1 ∧ patternSize ≠ 2 ∧ patternSize ≠ 4 then (ZE_RESULT_ERROR_INVALID_SIZE, list, memory)
      else if NpuArch.NPU40XX.generation ≤ list.ctx.hwInfo.npuArch.generation then
        match appendMemoryFillCmd ptr value patternSize size hSignalEvent waitEvents list with
        | (result, next) => (result, next, memory)
      else fillAsCopyWithMemory ptr value patternSize size hSignalEvent waitEvents list memory

end CommandList

/-- The commands of a fill on the device: the firmware repeats the 32-bit pattern from the start address on, a DMA
descriptor copies its bytes, a signal writes its fence word. -/
def VPUCommand.runOn (layout : CopyDescriptorLayout) (cmd : VPUCommand) (memory : Image) : Image :=
  match cmd.command with
  | .memoryFill startAddress size fillPattern =>
    memory.write startAddress ((List.range size).map (cycle (littleEndian 4 fillPattern)))
  | .copyBuffer _ _ =>
    (cmd.copyRanges layout).foldl (fun memory range => memory.copy range.srcAddr range.dstAddr range.size) memory
  | .fence type offset value =>
    if type = VPU_CMD_FENCE_SIGNAL then memory.write offset (littleEndian 8 value) else memory
  | _ => memory

def runCommands (layout : CopyDescriptorLayout) (cmds : List VPUCommand) (memory : Image) : Image :=
  cmds.foldl (fun memory cmd => cmd.runOn layout memory) memory

theorem runCommands_append (layout : CopyDescriptorLayout) (first second : List VPUCommand) (memory : Image) :
    runCommands layout (first ++ second) memory = runCommands layout second (runCommands layout first memory) :=
  List.foldl_append

end NpuDriver
