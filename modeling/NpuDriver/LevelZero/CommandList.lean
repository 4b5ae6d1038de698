import NpuDriver.Command.Job
import NpuDriver.Library.EntryList

/-! Command lists: the append operations, which expand into waits, data commands and a signal,
and the updates of mutable commands. -/

namespace NpuDriver

open Library

/-- The results that the modelled functions return. -/
inductive ZeResult where
  | ZE_RESULT_SUCCESS
  | ZE_RESULT_NOT_READY
  | ZE_RESULT_ERROR_DEVICE_LOST
  | ZE_RESULT_ERROR_OUT_OF_DEVICE_MEMORY
  | ZE_RESULT_ERROR_UNINITIALIZED
  | ZE_RESULT_ERROR_UNSUPPORTED_FEATURE
  | ZE_RESULT_ERROR_INVALID_ARGUMENT
  | ZE_RESULT_ERROR_INVALID_NULL_HANDLE
  | ZE_RESULT_ERROR_INVALID_NULL_POINTER
  | ZE_RESULT_ERROR_INVALID_SIZE
  | ZE_RESULT_ERROR_INVALID_SYNCHRONIZATION_OBJECT
  | ZE_RESULT_ERROR_DEPENDENCY_UNAVAILABLE
  | ZE_RESULT_ERROR_NOT_AVAILABLE
  | ZE_RESULT_ERROR_UNKNOWN
  | ZE_RESULT_ERROR_OUT_OF_HOST_MEMORY
  | ZE_RESULT_ERROR_HANDLE_OBJECT_IN_USE
  | ZE_RESULT_ERROR_INVALID_ENUMERATION
  | ZE_RESULT_ERROR_INVALID_NATIVE_BINARY
deriving DecidableEq, Repr

open ZeResult

/-- An event; a null sync pointer is zero. -/
structure Event where
  syncPointer : Nat
  associatedBo : Option VPUBufferObject
deriving DecidableEq, Repr

/-- The wait events of one append: their number and the array, read by index. -/
structure WaitEvents where
  numWaitEvents : Nat
  phWaitEvents : Option (Nat → Option Event)

def WaitEvents.none : WaitEvents := ⟨0, .none⟩

structure MetricQuery where
  isGroupActivated : Bool
  metricGroupMask : Nat
  metricAddrPtr : Nat
  bo : Option VPUBufferObject
deriving DecidableEq, Repr

/-- What `createInferenceExecuteCommand` obtains before it creates the command: an inference
id, a parsed inference of its own and the buffers behind it. -/
structure ParsedInference where
  inferenceId : Nat
  hpi : HostParsedInference
  bos : List VPUBufferObject

/-- A graph. `initialized` and `acquired` are the answers of the loader to the current call. -/
structure Graph where
  parser : ElfParser
  inputArgs : List Nat
  outputArgs : List Nat
  inputStrides : Nat → Option ArgumentStrides
  outputStrides : Nat → Option ArgumentStrides
  profilingOutputSize : Nat
  initialized : Except CreateError Unit
  acquired : Except CreateError ParsedInference

/-- `commandIdMap` translates the ids of commands that are preceded by their wait events. -/
structure CommandList where
  isMutable : Bool
  ctx : VPUDeviceContext
  vpuJob : VPUJob
  commandIdMap : Nat → Option Nat

/-- The empty command that a graph without initialization returns. -/
def emptyCommand : VPUCommand where
  command := .base
  sType := .Generic
  bufferObjects := []
  descriptor := none
  cmdNeedsUpdate := false
  sized := trivial

/-- An operation on a command list with its result. -/
abbrev Append := CommandList → ZeResult × CommandList

namespace Append

def success : Append := fun list => (ZE_RESULT_SUCCESS, list)

def fail (error : ZeResult) : Append := fun list => (error, list)

/-- The second operation runs when the first one succeeds; otherwise its error is returned. -/
def andThen (first second : Append) : Append := fun list =>
  match first list with
  | (ZE_RESULT_SUCCESS, next) => second next
  | (error, next) => (error, next)

end Append

namespace CommandList

def isCmdListClosed (list : CommandList) : Bool := list.vpuJob.closed

def getNumCommands (list : CommandList) : Nat := list.vpuJob.getNumCommands

def close (list : CommandList) : ZeResult × CommandList :=
  if list.isCmdListClosed && !list.isMutable then (ZE_RESULT_SUCCESS, list)
  else
    match list.vpuJob.closeCommands list.ctx with
    | (false, job, ctx) => (ZE_RESULT_ERROR_UNKNOWN, { list with vpuJob := job, ctx := ctx })
    | (true, job, ctx) => (ZE_RESULT_SUCCESS, { list with vpuJob := job, ctx := ctx })

def reset (list : CommandList) : ZeResult × CommandList :=
  (ZE_RESULT_SUCCESS, { list with vpuJob := .empty })

def checkCommandAppendCondition : Append := fun list =>
  if list.isCmdListClosed then (ZE_RESULT_ERROR_NOT_AVAILABLE, list) else (ZE_RESULT_SUCCESS, list)

/-- `vpuJob->appendCommand` with the result of its callers. -/
def pushCommand (cmd : VPUCommand) : Append := fun list =>
  match list.vpuJob.appendCommand cmd with
  | (false, job) => (ZE_RESULT_ERROR_UNKNOWN, { list with vpuJob := job })
  | (true, job) => (ZE_RESULT_SUCCESS, { list with vpuJob := job })

/-- An exception is turned into an error by the caller of the command list. -/
def appendCommand (created : Created) : Append :=
  match created with
  | .error .nullptr => .fail ZE_RESULT_ERROR_UNINITIALIZED
  | .error .thrown => .fail ZE_RESULT_ERROR_UNKNOWN
  | .ok cmd => pushCommand cmd

/-- The part that `appendSignalEvent`, the loop of `appendWaitOnEvents` and
`appendEventReset` have in common: the checks of the handle and of its pointer. -/
def appendEventCommand (create : Nat → Option VPUBufferObject → Created) (hEvent : Option Event) :
    Append :=
  match hEvent with
  | none => .fail ZE_RESULT_ERROR_INVALID_NULL_HANDLE
  | some event =>
    if event.syncPointer = 0 then .fail ZE_RESULT_ERROR_INVALID_NULL_HANDLE
    else appendCommand (create event.syncPointer event.associatedBo)

def appendSignalEvent (hEvent : Option Event) : Append :=
  checkCommandAppendCondition.andThen (appendEventCommand VPUEventSignalCommand.create hEvent)

def appendEventReset (hEvent : Option Event) : Append :=
  checkCommandAppendCondition.andThen (appendEventCommand VPUEventResetCommand.create hEvent)

/-- The loop of `appendWaitOnEvents` over the events from an index on. -/
def appendWaits (phEvent : Nat → Option Event) : Nat → Nat → Append
  | _, 0 => .success
  | index, left + 1 =>
    (appendEventCommand VPUEventWaitCommand.create (phEvent index)).andThen
      (appendWaits phEvent (index + 1) left)

def appendWaitOnEvents (numEvents : Nat) (phEvent : Option (Nat → Option Event)) : Append :=
  match phEvent with
  | none => .fail ZE_RESULT_ERROR_INVALID_NULL_POINTER
  | some events =>
    if numEvents = 0 then .fail ZE_RESULT_ERROR_INVALID_SIZE
    else checkCommandAppendCondition.andThen (appendWaits events 0 numEvents)

/-- The wait events in front of a command. -/
def appendWaitEvents (waitEvents : WaitEvents) : Append :=
  if waitEvents.numWaitEvents = 0 then .success
  else
    match waitEvents.phWaitEvents with
    | none => .fail ZE_RESULT_ERROR_INVALID_SIZE
    | some _ => appendWaitOnEvents waitEvents.numWaitEvents waitEvents.phWaitEvents

/-- The signal event behind a command; a null handle asks for none. -/
def appendSignal (hSignalEvent : Option Event) : Append :=
  match hSignalEvent with
  | none => .success
  | some _ => appendSignalEvent hSignalEvent

def appendCommandWithEvents (hSignalEvent : Option Event) (waitEvents : WaitEvents) (created : Created) :
    Append :=
  checkCommandAppendCondition.andThen
    ((appendWaitEvents waitEvents).andThen
      ((appendCommand created).andThen (appendSignal hSignalEvent)))

def appendBarrier (hSignalEvent : Option Event) (waitEvents : WaitEvents) : Append :=
  appendCommandWithEvents hSignalEvent waitEvents VPUBarrierCommand.create

def appendMemoryCopy (dstptr srcptr size : Nat) (hSignalEvent : Option Event)
    (waitEvents : WaitEvents) : Append := fun list =>
  if dstptr = 0 ∨ srcptr = 0 then (ZE_RESULT_ERROR_INVALID_NULL_POINTER, list)
  else
    appendCommandWithEvents hSignalEvent waitEvents
      (VPUCopyCommand.create list.ctx srcptr (list.ctx.findBufferObject srcptr) dstptr
        (list.ctx.findBufferObject dstptr) size) list

/-- `FILL_SIZE_LIMIT`. -/
def FILL_SIZE_LIMIT : Nat := 8 * 2 ^ 20

/-- The loop of `appendMemoryFillCmd`: only the first piece waits, only the last one signals. -/
def appendFills (ptrBo : VPUBufferObject) (fillPattern : Nat) (hSignalEvent : Option Event)
    (ptr sizeLeft : Nat) (waitEvents : WaitEvents) : Append :=
  if sizeLeft = 0 then .success
  else
    let fillSize := min sizeLeft FILL_SIZE_LIMIT
    (appendCommandWithEvents (if sizeLeft ≤ FILL_SIZE_LIMIT then hSignalEvent else none) waitEvents
        (VPUFillCommand.create ptr ptrBo fillSize fillPattern)).andThen
      (appendFills ptrBo fillPattern hSignalEvent (ptr + fillSize) (sizeLeft - fillSize) .none)
termination_by sizeLeft
decreasing_by simp only [FILL_SIZE_LIMIT]; omega

/-- `fill_pattern` from the value that the pattern pointer holds. -/
def expandPattern (pattern patternSize : Nat) : Nat :=
  if patternSize = 4 then pattern % 2 ^ 32
  else if patternSize = 2 then pattern % 2 ^ 16 * (2 ^ 16 + 1)
  else pattern % 2 ^ 8 * 0x01010101

def appendMemoryFillCmd (ptr pattern patternSize size : Nat) (hSignalEvent : Option Event)
    (waitEvents : WaitEvents) : Append := fun list =>
  if patternSize ≠ 4 ∧ patternSize ≠ 2 ∧ patternSize ≠ 1 then (ZE_RESULT_ERROR_INVALID_SIZE, list)
  else
    match list.ctx.findBufferObject ptr with
    | none => (ZE_RESULT_ERROR_OUT_OF_DEVICE_MEMORY, list)
    | some ptrBo =>
      appendFills ptrBo (expandPattern pattern patternSize) hSignalEvent ptr size waitEvents list

/-- The fill as a copy from an internal buffer that holds the pattern; the bytes of that
buffer are not modelled. -/
def appendMemoryFillAsCopyCmd (ptr patternSize size : Nat) (hSignalEvent : Option Event)
    (waitEvents : WaitEvents) : Append :=
  checkCommandAppendCondition.andThen fun list =>
    match list.ctx.createUntrackedBufferObject ((size + patternSize) % 2 ^ 64) true with
    | (none, ctx) => (ZE_RESULT_ERROR_OUT_OF_DEVICE_MEMORY, { list with ctx := ctx })
    | (some patternBo, ctx) =>
      if patternBo.basePtr = 0 then (ZE_RESULT_ERROR_INVALID_SIZE, { list with ctx := ctx })
      else
        appendCommandWithEvents hSignalEvent waitEvents
          (VPUCopyCommand.create ctx patternBo.basePtr (some patternBo) ptr (ctx.findBufferObject ptr)
            size) { list with ctx := ctx }

/-- `pattern` is the value behind the pattern pointer, `none` where that is null. -/
def appendMemoryFill (ptr : Nat) (pattern : Option Nat) (patternSize size : Nat)
    (hSignalEvent : Option Event) (waitEvents : WaitEvents) : Append := fun list =>
  if ptr = 0 then (ZE_RESULT_ERROR_INVALID_NULL_POINTER, list)
  else
    match pattern with
    | none => (ZE_RESULT_ERROR_INVALID_NULL_POINTER, list)
    | some value =>
      if patternSize ≠ 1 ∧ patternSize ≠ 2 ∧ patternSize ≠ 4 then (ZE_RESULT_ERROR_INVALID_SIZE, list)
      else if NpuArch.NPU40XX.generation ≤ list.ctx.hwInfo.npuArch.generation then
        appendMemoryFillCmd ptr value patternSize size hSignalEvent waitEvents list
      else appendMemoryFillAsCopyCmd ptr patternSize size hSignalEvent waitEvents list

/-- `ze_copy_region_t`. -/
structure CopyRegion where
  originX : Nat
  originY : Nat
  originZ : Nat
  width : Nat
  height : Nat
  depth : Nat
deriving DecidableEq, Repr

/-- One side of a region copy; a null region pointer is `none`. -/
structure RegionSide where
  ptr : Nat
  region : CopyRegion
  pitch : Nat
  slicePitch : Nat
deriving DecidableEq, Repr

/-- The address of row `y`; the offset is computed in 32 bits. -/
def RegionSide.rowAddress (side : RegionSide) (y : Nat) : Nat :=
  side.ptr + (side.region.originX + (side.region.originY + y) * side.pitch) % 2 ^ 32

/-- The loop of `appendMemoryCopyRegion` over the rows from `y` on. -/
def appendRows (dst src : RegionSide) (hSignalEvent : Option Event) (waitEvents : WaitEvents) :
    Nat → Nat → Append
  | _, 0 => .success
  | y, left + 1 =>
    Append.andThen
      (fun list =>
        appendCommandWithEvents hSignalEvent waitEvents
          (VPUCopyCommand.create list.ctx (src.rowAddress y)
            (list.ctx.findBufferObject (src.rowAddress y)) (dst.rowAddress y)
            (list.ctx.findBufferObject (dst.rowAddress y)) dst.region.width) list)
      (appendRows dst src hSignalEvent waitEvents (y + 1) left)

/-- The argument checks of `appendMemoryCopyRegion` in their order. -/
def checkRegions (dst src : RegionSide) : ZeResult :=
  if dst.region.width ≠ src.region.width ∨ dst.region.height ≠ src.region.height ∨
      dst.region.depth ≠ src.region.depth then ZE_RESULT_ERROR_INVALID_SIZE
  else if dst.region.width = 0 then ZE_RESULT_ERROR_INVALID_SIZE
  else if dst.pitch < dst.region.width then ZE_RESULT_ERROR_INVALID_SIZE
  else if dst.slicePitch ≠ 0 ∨ src.slicePitch ≠ 0 then ZE_RESULT_ERROR_UNSUPPORTED_FEATURE
  else if dst.region.depth ≠ 1 ∨ src.region.depth ≠ 1 then ZE_RESULT_ERROR_UNSUPPORTED_FEATURE
  else if dst.region.originZ ≠ 0 ∨ src.region.originZ ≠ 0 then ZE_RESULT_ERROR_UNSUPPORTED_FEATURE
  else ZE_RESULT_SUCCESS

def appendMemoryCopyRegion (dstptr : Nat) (dstRegion : Option CopyRegion) (dstPitch dstSlicePitch : Nat)
    (srcptr : Nat) (srcRegion : Option CopyRegion) (srcPitch srcSlicePitch : Nat)
    (hSignalEvent : Option Event) (waitEvents : WaitEvents) : Append :=
  if dstptr = 0 ∨ srcptr = 0 then .fail ZE_RESULT_ERROR_INVALID_NULL_POINTER
  else
    match dstRegion, srcRegion with
    | some dstRegion, some srcRegion =>
      let dst : RegionSide := ⟨dstptr, dstRegion, dstPitch, dstSlicePitch⟩
      let src : RegionSide := ⟨srcptr, srcRegion, srcPitch, srcSlicePitch⟩
      Append.andThen (fun list => (checkRegions dst src, list))
        (appendRows dst src hSignalEvent waitEvents 0 dst.region.height)
    | _, _ => .fail ZE_RESULT_ERROR_INVALID_NULL_POINTER

/-- The overload for an internal timestamp buffer. -/
def appendWriteGlobalTimestampTo (timestampBo : VPUBufferObject) (hSignalEvent : Option Event)
    (waitEvents : WaitEvents) : Append := fun list =>
  appendCommandWithEvents hSignalEvent waitEvents
    (VPUTimeStampCommand.create timestampBo.basePtr (some timestampBo) list.ctx.hwInfo.fwTimestampType)
    list

/-- The timestamp is written to an aligned internal buffer and copied from there. -/
def appendWriteGlobalTimestamp (dstptr : Nat) (hSignalEvent : Option Event) (waitEvents : WaitEvents) :
    Append := fun list =>
  if dstptr = 0 then (ZE_RESULT_ERROR_INVALID_NULL_POINTER, list)
  else
    match list.ctx.findBufferObject dstptr with
    | none => (ZE_RESULT_ERROR_OUT_OF_DEVICE_MEMORY, list)
    | some dstBo =>
      checkCommandAppendCondition.andThen (fun list =>
        match list.ctx.createUntrackedBufferObject 8 true with
        | (none, ctx) => (ZE_RESULT_ERROR_INVALID_NULL_POINTER, { list with ctx := ctx })
        | (some alignedBo, ctx) =>
          (appendWaitEvents waitEvents).andThen
            ((appendCommand (VPUTimeStampCommand.create alignedBo.basePtr (some alignedBo)
                ctx.hwInfo.fwTimestampType)).andThen
              ((appendCommand (VPUCopyCommand.create ctx alignedBo.basePtr (some alignedBo) dstptr
                  (some dstBo) 8)).andThen
                (appendSignal hSignalEvent))) { list with ctx := ctx }) list

/-- `allocateGraphInitCommand` only initializes the parser. -/
def allocateGraphInitCommand (graph : Graph) : Created :=
  match graph.initialized with
  | .error error => .error error
  | .ok _ => .ok emptyCommand

def appendGraphInitialize (hGraph : Option Graph) (hSignalEvent : Option Event)
    (waitEvents : WaitEvents) : Append :=
  checkCommandAppendCondition.andThen
    ((appendWaitEvents waitEvents).andThen
      (match hGraph with
       | none => .fail ZE_RESULT_ERROR_UNINITIALIZED
       | some graph =>
         (appendCommand (allocateGraphInitCommand graph)).andThen (appendSignal hSignalEvent)))

def allocateGraphExecuteCommand (graph : Graph) (profilingQuery : Option GraphProfilingQuery)
    (ctx : VPUDeviceContext) : Created × VPUDeviceContext :=
  match graph.acquired with
  | .error error => (.error error, ctx)
  | .ok parsed =>
    VPUInferenceExecute.create ctx graph.parser parsed.hpi graph.inputArgs graph.outputArgs
      graph.inputStrides graph.outputStrides profilingQuery parsed.inferenceId parsed.bos

/-- The entry of a mutable list for a command behind wait events; `emplace` keeps an entry that
is already there. -/
def noteCommandId (newCommandId : Nat) : Append := fun list =>
  if list.isMutable && newCommandId < list.getNumCommands && (list.commandIdMap newCommandId).isNone then
    (ZE_RESULT_SUCCESS,
      { list with commandIdMap := Function.update list.commandIdMap newCommandId (some list.getNumCommands) })
  else (ZE_RESULT_SUCCESS, list)

/-- The profiling query of a graph, which is only asked for when the graph has profiling output. -/
def profilingQueryOf (graph : Graph) (hProfilingQuery : Option GraphProfilingQuery) :
    Option (Option GraphProfilingQuery) :=
  if graph.profilingOutputSize = 0 then some none
  else
    match hProfilingQuery with
    | none => none
    | some query => some (some query)

/-- The graph command of `appendGraphExecute`, after its wait events. -/
def appendInference (hGraph : Option Graph) (hProfilingQuery : Option GraphProfilingQuery) : Append :=
  fun list =>
    match hGraph with
    | none => (ZE_RESULT_ERROR_INVALID_NULL_HANDLE, list)
    | some graph =>
      match profilingQueryOf graph hProfilingQuery with
      | none => (ZE_RESULT_ERROR_INVALID_NULL_HANDLE, list)
      | some profilingQuery =>
        match allocateGraphExecuteCommand graph profilingQuery list.ctx with
        | (created, ctx) => appendCommand created { list with ctx := ctx }

def appendGraphExecute (hGraph : Option Graph) (hProfilingQuery : Option GraphProfilingQuery)
    (hSignalEvent : Option Event) (waitEvents : WaitEvents) : Append :=
  checkCommandAppendCondition.andThen fun list =>
    (appendWaitEvents waitEvents).andThen
      ((noteCommandId list.getNumCommands).andThen
        ((appendInference hGraph hProfilingQuery).andThen (appendSignal hSignalEvent))) list

def appendMetricQueryBegin (hMetricQuery : Option MetricQuery) : Append :=
  match hMetricQuery with
  | none => .fail ZE_RESULT_ERROR_INVALID_NULL_HANDLE
  | some query =>
    checkCommandAppendCondition.andThen
      (if !query.isGroupActivated then .fail ZE_RESULT_ERROR_DEPENDENCY_UNAVAILABLE
       else
         appendCommand (VPUQueryBeginCommand.create query.metricGroupMask query.metricAddrPtr query.bo))

def appendMetricQueryEnd (hMetricQuery : Option MetricQuery) (hSignalEvent : Option Event)
    (waitEvents : WaitEvents) : Append :=
  match hMetricQuery with
  | none => .fail ZE_RESULT_ERROR_INVALID_NULL_HANDLE
  | some query =>
    if !query.isGroupActivated then .fail ZE_RESULT_ERROR_DEPENDENCY_UNAVAILABLE
    else
      appendCommandWithEvents hSignalEvent waitEvents
        (VPUQueryEndCommand.create query.metricGroupMask query.metricAddrPtr query.bo)

/-- `graphArguments` tells whether the flags are one of the two supported values. -/
def getNextCommandId (list : CommandList) (graphArguments : Bool) : Except ZeResult Nat :=
  if !list.isMutable then .error ZE_RESULT_ERROR_INVALID_ARGUMENT
  else if list.isCmdListClosed then .error ZE_RESULT_ERROR_INVALID_ARGUMENT
  else if !graphArguments then .error ZE_RESULT_ERROR_INVALID_ARGUMENT
  else .ok list.getNumCommands

end CommandList

/-- One structure of the chain behind `ze_mutable_commands_exp_desc_t::pNext`. -/
inductive MutableDesc where
  | graphArgument (commandId argIndex pArgValue : Nat)
  | strides (userStrides : ArgumentStrides)
  | unsupported
deriving DecidableEq, Repr

/-- `CommandUpdatesMap`, by insertion. -/
abbrev CommandUpdatesMap := List (Nat × ArgumentUpdatesMap)

/-- `updatesMap[commandId][argIndex]`. -/
def updateEntry (updatesMap : CommandUpdatesMap) (commandId argIndex : Nat)
    (change : ArgumentUpdates → ArgumentUpdates) : CommandUpdatesMap :=
  modifyEntry commandId [] (modifyEntry argIndex ⟨none, none⟩ change) updatesMap

/-- The order in which an unordered map is iterated. -/
structure MapOrder (α : Type) where
  order : List α → List α
  perm : ∀ entries, (order entries).Perm entries

namespace CommandList

/-- The command that an id stands for. -/
def resolve (commandIdMap : Nat → Option Nat) (commandId : Nat) : Nat :=
  (commandIdMap commandId).getD commandId

/-- `NESTED_STRUCTS_LIMIT`. -/
def NESTED_STRUCTS_LIMIT : Nat := 20

/-- `handleNestedStructs` with `getCommandUpdates`; `prev` holds the command and argument of the
previous structure. A value that `safe_cast` refuses is thrown. -/
def getCommandUpdates (commandIdMap : Nat → Option Nat) :
    Nat → List MutableDesc → CommandUpdatesMap → Option (Nat × Nat) → Except ZeResult CommandUpdatesMap
  | _, [], updatesMap, _ => .ok updatesMap
  | 0, _ :: _, _, _ => .error ZE_RESULT_ERROR_INVALID_ARGUMENT
  | count + 1, .graphArgument commandId argIndex pArgValue :: rest, updatesMap, _ =>
    let target := resolve commandIdMap commandId
    let updated := updateEntry updatesMap target argIndex fun update => { update with ptr := some pArgValue }
    if target ≥ 2 ^ 63 ∨ argIndex ≥ 2 ^ 31 then .error ZE_RESULT_ERROR_UNKNOWN
    else getCommandUpdates commandIdMap count rest updated (some (target, argIndex))
  | _ + 1, .strides _ :: _, _, none => .error ZE_RESULT_ERROR_INVALID_ARGUMENT
  | count + 1, .strides userStrides :: rest, updatesMap, some (commandId, argIndex) =>
    getCommandUpdates commandIdMap count rest
      (updateEntry updatesMap commandId argIndex fun update => { update with strides := some userStrides })
      none
  | _ + 1, .unsupported :: _, _, _ => .error ZE_RESULT_ERROR_INVALID_ARGUMENT

def gatherCommandUpdates (list : CommandList) (pNext : List MutableDesc) :
    Except ZeResult CommandUpdatesMap :=
  getCommandUpdates list.commandIdMap NESTED_STRUCTS_LIMIT pNext [] none

/-- The loop of `updateMutableCommands`; the updates before a failure stay applied. -/
def setCommandUpdates (argumentOrder : MapOrder (Nat × ArgumentUpdates)) :
    CommandUpdatesMap → List VPUCommand → ZeResult × List VPUCommand
  | [], commands => (ZE_RESULT_SUCCESS, commands)
  | (commandId, update) :: rest, commands =>
    match commands[commandId]? with
    | none => (ZE_RESULT_ERROR_INVALID_ARGUMENT, commands)
    | some command =>
      match command.setUpdates (argumentOrder.order update) with
      | (false, updated) => (ZE_RESULT_ERROR_INVALID_ARGUMENT, commands.set commandId updated)
      | (true, updated) => setCommandUpdates argumentOrder rest (commands.set commandId updated)

def updateMutableCommands (commandOrder : MapOrder (Nat × ArgumentUpdatesMap))
    (argumentOrder : MapOrder (Nat × ArgumentUpdates)) (flags : Nat) (pNext : List MutableDesc) :
    Append := fun list =>
  if !list.isMutable then (ZE_RESULT_ERROR_INVALID_ARGUMENT, list)
  else if flags ≠ 0 then (ZE_RESULT_ERROR_INVALID_ARGUMENT, list)
  else
    match list.gatherCommandUpdates pNext with
    | .error error => (error, list)
    | .ok updatesMap =>
      if updatesMap = [] then (ZE_RESULT_ERROR_INVALID_ARGUMENT, list)
      else
        match setCommandUpdates argumentOrder (commandOrder.order updatesMap) list.vpuJob.commands with
        | (result, commands) => (result, { list with vpuJob := { list.vpuJob with commands := commands } })

end CommandList

end NpuDriver
