import NpuDriver.Device.DeviceContext

/-! Commands of a job: the structures the firmware reads, the buffers they refer to and the
descriptor blocks they own. -/

namespace NpuDriver

open Library

/-- `vpu_cmd_type`. -/
def VPU_CMD_UNKNOWN : Nat := 0x0000
def VPU_CMD_NOP : Nat := 0x0001
def VPU_CMD_TIMESTAMP : Nat := 0x0100
def VPU_CMD_FENCE_WAIT : Nat := 0x0101
def VPU_CMD_FENCE_SIGNAL : Nat := 0x0102
def VPU_CMD_BARRIER : Nat := 0x0103
def VPU_CMD_METRIC_QUERY_BEGIN : Nat := 0x0104
def VPU_CMD_METRIC_QUERY_END : Nat := 0x0105
def VPU_CMD_MEMORY_FILL : Nat := 0x0202
def VPU_CMD_COPY : Nat := 0x0302
def VPU_CMD_INFERENCE_EXECUTE : Nat := 0x0306

/-- `VPUEventCommand::State`. -/
def STATE_EVENT_INITIAL : Nat := 0
def STATE_DEVICE_RESET : Nat := 1
def STATE_HOST_RESET : Nat := 2
def STATE_WAIT : Nat := 3
def STATE_DEVICE_SIGNAL : Nat := 4
def STATE_HOST_SIGNAL : Nat := 5

/-- `sizeof(vpu_cmd_fence_t)`. -/
def fenceSize : Nat := 24

/-- Strides of one graph argument. -/
abbrev ArgumentStrides := List Nat

/-- The profiling query of a graph execution. -/
structure GraphProfilingQuery where
  bo : Option VPUBufferObject
  queryPtr : Nat
  size : Nat
deriving DecidableEq, Repr

/-- The loader's state for one inference: the sizes it expects for its arguments. -/
structure HostParsedInference where
  id : Nat
  inputSizes : List Nat
  outputSizes : List Nat
deriving DecidableEq, Repr

/-- The fields of `VPUInferenceExecute` beside those of its base class. `inputStrides` and
`outputStrides` are maps from argument positions; `sharedScratchSize` is the parser's. -/
structure VPUInferenceExecute where
  inferenceId : Nat
  inferenceAddress : Nat
  inferenceWidth : Nat
  hpi : HostParsedInference
  sharedScratchSize : Nat
  inputs : List Nat
  outputs : List Nat
  inputStrides : Nat → Option ArgumentStrides
  outputStrides : Nat → Option ArgumentStrides
  profilingQuery : Option GraphProfilingQuery
  userArgIndex : Nat
  userArgHandles : List Nat
  lastScratchBoHandle : Nat

/-- The firmware structure of a command; `base` is the base class, whose header is null. -/
inductive CommandStruct where
  | base
  | nop (type size : Nat) (slack : List UInt8)
  | fence (type offset value : Nat)
  | timestamp (type timestampAddress : Nat)
  | barrier
  | metricQuery (type metricGroupType metricDataAddress : Nat)
  | memoryFill (startAddress size fillPattern : Nat)
  | copyBuffer (descStartOffset descCount : Nat)
  | inferenceExecute (inference : VPUInferenceExecute)

/-- `vpu_cmd_header_t`. -/
def encodeHeader (type size : Nat) : List UInt8 :=
  littleEndian 2 type ++ littleEndian 2 size

namespace CommandStruct

/-- Type and size of the header, `none` where `getHeader` returns null. -/
def getHeader : CommandStruct → Option (Nat × Nat)
  | base => none
  | nop type size _ => some (type, size)
  | fence type _ _ => some (type, fenceSize)
  | timestamp _ _ => some (VPU_CMD_TIMESTAMP, 16)
  | barrier => some (VPU_CMD_BARRIER, 8)
  | metricQuery type _ _ => some (type, 16)
  | memoryFill _ _ _ => some (VPU_CMD_MEMORY_FILL, 32)
  | copyBuffer _ _ => some (VPU_CMD_COPY, 24)
  | inferenceExecute _ => some (VPU_CMD_INFERENCE_EXECUTE, 32)

/-- The bytes behind the header. A NOP may be larger than its structure; what is copied
then is whatever follows it in memory. -/
def body : CommandStruct → List UInt8
  | base => []
  | nop _ _ slack => littleEndian 4 0 ++ slack
  | fence _ offset value => littleEndian 4 0 ++ littleEndian 8 offset ++ littleEndian 8 value
  | timestamp type timestampAddress => littleEndian 4 type ++ littleEndian 8 timestampAddress
  | barrier => littleEndian 4 0
  | metricQuery _ metricGroupType metricDataAddress =>
    littleEndian 4 metricGroupType ++ littleEndian 8 metricDataAddress
  | memoryFill startAddress size fillPattern =>
    littleEndian 4 0 ++ littleEndian 8 startAddress ++ littleEndian 8 size ++
      littleEndian 4 fillPattern ++ littleEndian 4 0
  | copyBuffer descStartOffset descCount =>
    littleEndian 4 0 ++ littleEndian 8 descStartOffset ++ littleEndian 4 descCount ++
      littleEndian 4 0
  | inferenceExecute inference =>
    littleEndian 4 0 ++ littleEndian 8 inference.inferenceId ++
      littleEndian 8 inference.inferenceAddress ++ littleEndian 4 inference.inferenceWidth ++
      littleEndian 4 0

/-- The header's size field counts the bytes of the structure. -/
def Sized (command : CommandStruct) : Prop :=
  match command with
  | nop _ size slack => size = 8 + slack.length ∧ size ≤ UINT16_MAX
  | _ => True

instance (command : CommandStruct) : Decidable command.Sized := by
  unfold Sized
  cases command <;> infer_instance

end CommandStruct

/-- A block of copy descriptors. -/
structure VPUDescriptor where
  data : List UInt8
  numDescriptors : Nat
deriving DecidableEq, Repr

/-- `VPUCommand::ScheduleType`: a synchronize command ends its command buffer. -/
inductive ScheduleType where
  | Generic | Synchronize
deriving DecidableEq, Repr

structure VPUCommand where
  command : CommandStruct
  sType : ScheduleType
  bufferObjects : List VPUBufferObject
  descriptor : Option VPUDescriptor
  cmdNeedsUpdate : Bool
  sized : command.Sized

namespace VPUCommand

def getCommitSize (cmd : VPUCommand) : Nat :=
  match cmd.command.getHeader with
  | none => 0
  | some (_, size) => size

def getCommandType (cmd : VPUCommand) : Nat :=
  match cmd.command.getHeader with
  | none => VPU_CMD_UNKNOWN
  | some (type, _) => type

/-- The bytes from the header on that `getCommitSize` covers. -/
def getCommitStream (cmd : VPUCommand) : List UInt8 :=
  match cmd.command.getHeader with
  | none => []
  | some (type, size) => encodeHeader type size ++ cmd.command.body

def getDescriptorData (cmd : VPUCommand) : List UInt8 :=
  match cmd.descriptor with
  | none => []
  | some descriptor => descriptor.data

def getDescriptorSize (cmd : VPUCommand) : Nat := cmd.getDescriptorData.length

def isSynchronizeCommand (cmd : VPUCommand) : Bool := cmd.sType == .Synchronize

def getAssociateBufferObjects (cmd : VPUCommand) : List VPUBufferObject := cmd.bufferObjects

/-- Only the copy command overrides it; the others log an error. -/
def patchDescriptorAddress (cmd : VPUCommand) (vpuAddr : Nat) : VPUCommand :=
  match cmd.command with
  | .copyBuffer _ descCount => { cmd with command := .copyBuffer vpuAddr descCount, sized := trivial }
  | _ => cmd

def isInference (cmd : VPUCommand) : Option VPUInferenceExecute :=
  match cmd.command with
  | .inferenceExecute inference => some inference
  | _ => none

@[simp] theorem getCommitStream_length (cmd : VPUCommand) :
    cmd.getCommitStream.length = cmd.getCommitSize := by
  have sized := cmd.sized
  unfold getCommitStream getCommitSize
  cases kind : cmd.command with
  | nop type size slack =>
    rw [kind] at sized
    obtain ⟨size_eq, -⟩ := sized
    simp [CommandStruct.getHeader, CommandStruct.body, encodeHeader]
    omega
  | _ => simp [CommandStruct.getHeader, CommandStruct.body, encodeHeader, fenceSize]

theorem getCommitSize_le (cmd : VPUCommand) : cmd.getCommitSize ≤ UINT16_MAX := by
  have sized := cmd.sized
  unfold getCommitSize
  cases kind : cmd.command with
  | nop type size slack =>
    rw [kind] at sized
    exact sized.2
  | _ => simp [CommandStruct.getHeader, fenceSize, UINT16_MAX]

/-- Every command that has a structure at all is at least eight bytes long. -/
theorem getCommitSize_cases (cmd : VPUCommand) :
    cmd.command = .base ∧ cmd.getCommitSize = 0 ∨ 8 ≤ cmd.getCommitSize := by
  have sized := cmd.sized
  unfold getCommitSize
  cases kind : cmd.command with
  | base => exact .inl ⟨rfl, rfl⟩
  | nop type size slack =>
    rw [kind] at sized
    obtain ⟨size_eq, -⟩ := sized
    refine .inr ?_
    simp only [CommandStruct.getHeader]
    omega
  | _ => simp [CommandStruct.getHeader, fenceSize]

end VPUCommand

/-- `appendAssociateBufferObject`: a buffer object is kept once. -/
def appendAssociateBufferObject (bufferObjects : List VPUBufferObject) (bo : VPUBufferObject) :
    List VPUBufferObject :=
  if bufferObjects.any (fun known => known.id == bo.id) then bufferObjects else bufferObjects ++ [bo]

def appendAssociateBufferObjects (bufferObjects bos : List VPUBufferObject) : List VPUBufferObject :=
  bos.foldl appendAssociateBufferObject bufferObjects

/-- Why `create` yields no command: a null pointer, or an exception. -/
inductive CreateError where
  | nullptr | thrown
deriving DecidableEq, Repr

abbrev Created := Except CreateError VPUCommand

/-- `VPUEventCommand::create`. -/
def VPUEventCommand.create (sType : ScheduleType) (cmdType eventHeapPtr : Nat)
    (eventHeapBo : Option VPUBufferObject) (eventState : Nat) : Created :=
  match eventHeapBo with
  | none => .error .nullptr
  | some bo =>
    if eventHeapPtr = 0 then .error .nullptr
    else if !bo.isInRange eventHeapPtr then .error .nullptr
    else
      .ok { command := .fence cmdType (bo.getVPUAddr eventHeapPtr) eventState
            sType := sType, bufferObjects := [bo], descriptor := none
            cmdNeedsUpdate := false, sized := trivial }

def VPUEventResetCommand.create (eventHeapPtr : Nat) (eventHeapBo : Option VPUBufferObject) : Created :=
  VPUEventCommand.create .Generic VPU_CMD_FENCE_SIGNAL eventHeapPtr eventHeapBo STATE_DEVICE_RESET

def VPUEventSignalCommand.create (eventHeapPtr : Nat) (eventHeapBo : Option VPUBufferObject) : Created :=
  VPUEventCommand.create .Synchronize VPU_CMD_FENCE_SIGNAL eventHeapPtr eventHeapBo STATE_DEVICE_SIGNAL

def VPUEventWaitCommand.create (eventHeapPtr : Nat) (eventHeapBo : Option VPUBufferObject) : Created :=
  VPUEventCommand.create .Generic VPU_CMD_FENCE_WAIT eventHeapPtr eventHeapBo STATE_WAIT

def VPUBarrierCommand.create : Created :=
  .ok { command := .barrier, sType := .Generic, bufferObjects := [], descriptor := none
        cmdNeedsUpdate := false, sized := trivial }

/-- The NOP type exists from firmware interface 4.10 on; before it a BARRIER is used. -/
def nopType (hwInfo : VPUHwInfo) : Nat :=
  if isJsmCmdApiGreaterThan hwInfo 4 9 then VPU_CMD_NOP else VPU_CMD_BARRIER

def VPUNopCommand.create (ctx : VPUDeviceContext) (size : Nat) : Created :=
  if bounds : 8 ≤ size ∧ size ≤ UINT16_MAX then
    .ok { command := .nop (nopType ctx.hwInfo) size ((List.range (size - 8)).map ctx.nopSlack)
          sType := .Generic, bufferObjects := [], descriptor := none, cmdNeedsUpdate := false
          sized := by
            refine ⟨?_, bounds.2⟩
            simp
            omega }
  else .error .nullptr

def VPUTimeStampCommand.create (dstPtr : Nat) (dstBo : Option VPUBufferObject) (type : Nat) : Created :=
  match dstBo with
  | none => .error .nullptr
  | some bo =>
    if !bo.isInRange dstPtr then .error .nullptr
    else
      .ok { command := .timestamp type (bo.getVPUAddr dstPtr), sType := .Generic
            bufferObjects := [bo], descriptor := none, cmdNeedsUpdate := false, sized := trivial }

/-- The pointer arithmetic of the range check is that of 64-bit addresses. -/
def VPUFillCommand.create (dstPtr : Nat) (dstBo : VPUBufferObject) (size fillPattern : Nat) : Created :=
  if !dstBo.isInRange dstPtr then .error .nullptr
  else if !dstBo.isInRange ((dstPtr + size + UINT64_MAX) % 2 ^ 64) then .error .nullptr
  else
    .ok { command := .memoryFill (dstBo.getVPUAddr dstPtr) size fillPattern, sType := .Generic
          bufferObjects := [dstBo], descriptor := none, cmdNeedsUpdate := false, sized := trivial }

/-- `VPUQueryBeginCommand::create` and `VPUQueryEndCommand::create` differ in the type. -/
def VPUQueryCommand.create (cmdType groupMask dataAddress : Nat) (dataBo : Option VPUBufferObject) :
    Created :=
  match dataBo with
  | none => .error .nullptr
  | some bo =>
    if dataAddress = 0 then .error .nullptr
    else if bo.getVPUAddr dataAddress = 0 then .error .nullptr
    else
      .ok { command := .metricQuery cmdType groupMask (bo.getVPUAddr dataAddress), sType := .Generic
            bufferObjects := [bo], descriptor := none, cmdNeedsUpdate := false, sized := trivial }

def VPUQueryBeginCommand.create (groupMask dataAddress : Nat) (dataBo : Option VPUBufferObject) :
    Created :=
  VPUQueryCommand.create VPU_CMD_METRIC_QUERY_BEGIN groupMask dataAddress dataBo

def VPUQueryEndCommand.create (groupMask dataAddress : Nat) (dataBo : Option VPUBufferObject) :
    Created :=
  VPUQueryCommand.create VPU_CMD_METRIC_QUERY_END groupMask dataAddress dataBo

/-- `COPY_SIZE_LIMIT`. -/
def COPY_SIZE_LIMIT : Nat := 8 * 2 ^ 20

/-- One copy descriptor in the layout of the hardware generation. -/
def CopyDescriptorLayout.encode (layout : CopyDescriptorLayout) (srcAddr dstAddr size : Nat) :
    List UInt8 :=
  match layout with
  | .vpu_cmd_copy_descriptor_37xx =>
    littleEndian 16 0 ++ littleEndian 8 srcAddr ++ littleEndian 8 dstAddr ++ littleEndian 4 size ++
      littleEndian 28 0
  | .vpu_cmd_copy_descriptor_40xx =>
    littleEndian 24 0 ++ littleEndian 4 size ++ littleEndian 4 0 ++ littleEndian 8 0 ++
      littleEndian 8 srcAddr ++ littleEndian 8 dstAddr ++ littleEndian 136 0

/-- The loop of `fillDescriptor` over the descriptors that are left. -/
def fillDescriptors (layout : CopyDescriptorLayout) : Nat → Nat → Nat → Nat → List UInt8
  | 0, _, _, _ => []
  | count + 1, srcAddr, dstAddr, sizeLeft =>
    if sizeLeft < COPY_SIZE_LIMIT then
      layout.encode srcAddr dstAddr sizeLeft ++
        fillDescriptors layout count (srcAddr + COPY_SIZE_LIMIT) (dstAddr + COPY_SIZE_LIMIT) sizeLeft
    else
      layout.encode srcAddr dstAddr COPY_SIZE_LIMIT ++
        fillDescriptors layout count (srcAddr + COPY_SIZE_LIMIT) (dstAddr + COPY_SIZE_LIMIT)
          (sizeLeft - COPY_SIZE_LIMIT)

def fillDescriptor (layout : CopyDescriptorLayout) (srcAddr dstAddr size : Nat) :
    Except CreateError VPUDescriptor :=
  if srcAddr = 0 ∨ dstAddr = 0 then .error .nullptr
  else
    match safeCastU32 ((size + COPY_SIZE_LIMIT - 1) % 2 ^ 64 / COPY_SIZE_LIMIT) with
    | none => .error .thrown
    | some numDescriptors =>
      .ok { data := fillDescriptors layout numDescriptors srcAddr dstAddr size
            numDescriptors := numDescriptors }

/-- `VPUCopyCommand::create`; the descriptor writer is the one of the hardware. -/
def VPUCopyCommand.create (ctx : VPUDeviceContext) (srcPtr : Nat) (srcBo : Option VPUBufferObject)
    (dstPtr : Nat) (dstBo : Option VPUBufferObject) (size : Nat) : Created :=
  match srcBo, dstBo with
  | some src, some dst =>
    if srcPtr = 0 ∨ dstPtr = 0 then .error .nullptr
    else if !dst.isInRange dstPtr then .error .nullptr
    else if !src.isInRange srcPtr then .error .nullptr
    else
      match ctx.hwInfo.getCopyCommand with
      | none => .error .nullptr
      | some layout =>
        match fillDescriptor layout (src.getVPUAddr srcPtr) (dst.getVPUAddr dstPtr) size with
        | .error error => .error error
        | .ok descriptor =>
          .ok { command := .copyBuffer 0 descriptor.numDescriptors, sType := .Generic
                bufferObjects := appendAssociateBufferObjects [] [src, dst]
                descriptor := some descriptor, cmdNeedsUpdate := false, sized := trivial }
  | _, _ => .error .nullptr

end NpuDriver
