import NpuDriver.LevelZero.CommandQueue

/-! Immediate command lists: an append waits for the queue first, and closes and submits its commands at its end. -/

namespace NpuDriver

open ZeResult

/-- The calls inside an append on an immediate list that may fail. -/
inductive ImmediateCall where
  | synchronize | close | execute
deriving DecidableEq, Repr

/-- An immediate command list with the driver it runs on. `vpuJob` names its job in the driver's store, `nextJob` is
the name of the next one; `answers` notes the calls so far and whether they succeeded. -/
structure ImmediateCommandList where
  driver : Driver
  pCommandQueue : Nat
  vpuJob : Nat
  nextJob : Nat
  answers : List (ImmediateCall × Bool)

/-- An operation on an immediate command list with its result. -/
abbrev ImmediateAppend := ImmediateCommandList → ZeResult × ImmediateCommandList

namespace ImmediateAppend

def success : ImmediateAppend := fun list => (ZE_RESULT_SUCCESS, list)

def fail (error : ZeResult) : ImmediateAppend := fun list => (error, list)

/-- The second operation runs when the first one succeeds; otherwise its error is returned. -/
def andThen (first second : ImmediateAppend) : ImmediateAppend := fun list =>
  match first list with
  | (ZE_RESULT_SUCCESS, next) => second next
  | (error, next) => (error, next)

end ImmediateAppend

namespace ImmediateCommandList

/-- The constructor, for the queue that the list has just created. -/
def new (driver : Driver) (pCommandQueue vpuJob : Nat) : ImmediateCommandList where
  driver := driver.setJob vpuJob .empty
  pCommandQueue := pCommandQueue
  vpuJob := vpuJob
  nextJob := vpuJob + 1
  answers := []

def ctx (list : ImmediateCommandList) : VPUDeviceContext := list.driver.ctx

def job (list : ImmediateCommandList) : VPUJob := list.driver.jobs list.vpuJob

/-- The list as the functions that it inherits see it. -/
def inherited (list : ImmediateCommandList) : CommandList :=
  ⟨false, list.ctx, list.job, fun _ => none⟩

/-- An inherited function runs on the list. -/
def lift (append : Append) : ImmediateAppend := fun list =>
  match append list.inherited with
  | (result, next) =>
    (result, { list with driver := { list.driver.setJob list.vpuJob next.vpuJob with ctx := next.ctx } })

/-- The list with a new job. -/
def reset (list : ImmediateCommandList) : ImmediateCommandList :=
  { list with
    driver := list.driver.setJob list.nextJob .empty
    vpuJob := list.nextJob
    nextJob := list.nextJob + 1 }

def noted (list : ImmediateCommandList) (call : ImmediateCall) (success : Bool) : ImmediateCommandList :=
  { list with answers := list.answers ++ [(call, success)] }

/-- `pCommandQueue->synchronize`. -/
def synchronize : ImmediateAppend := fun list =>
  match list.driver.synchronize list.pCommandQueue with
  | (result, driver) => (result, { list with driver := driver }.noted .synchronize (result = ZE_RESULT_SUCCESS))

def checkCommandAppendCondition : ImmediateAppend := fun list =>
  match list.synchronize with
  | (result, waited) => (result, if waited.job.closed then waited.reset else waited)

def hostSynchronize : ImmediateAppend := fun list =>
  match list.synchronize with
  | (result, waited) => (result, if result = ZE_RESULT_SUCCESS then waited.reset else waited)

/-- `vpuJob->closeCommands` with the result of its caller. -/
def closeCommands : ImmediateAppend := fun list =>
  match list.job.closeCommands list.ctx with
  | (success, job, ctx) =>
    (if success then ZE_RESULT_SUCCESS else ZE_RESULT_ERROR_INVALID_SYNCHRONIZATION_OBJECT,
      { list with driver := { list.driver.setJob list.vpuJob job with ctx := ctx } }.noted .close success)

/-- `pCommandQueue->executeCommandLists` for the list itself. -/
def executeCommandLists : ImmediateAppend := fun list =>
  match list.driver.executeCommandLists list.pCommandQueue (some [some list.vpuJob]) none with
  | (result, driver) => (result, { list with driver := driver }.noted .execute (result = ZE_RESULT_SUCCESS))

def postAppend : ImmediateAppend :=
  closeCommands.andThen (executeCommandLists.andThen fun list => (ZE_RESULT_SUCCESS, list.reset))

def appendCommand (created : Created) : ImmediateAppend := lift (CommandList.appendCommand created)

/-- An event with the buffer that the context finds behind its pointer. -/
def lookedUp (ctx : VPUDeviceContext) (event : Event) : Event :=
  { event with associatedBo := ctx.findBufferObject event.syncPointer }

/-- The part that the event appends have in common: the buffer of the event is looked up in the context. -/
def appendEventCommand (create : Nat → Option VPUBufferObject → Created) (hEvent : Option Event) :
    ImmediateAppend := fun list =>
  lift (CommandList.appendEventCommand create (hEvent.map (lookedUp list.ctx))) list

def appendSignalEvent (hEvent : Option Event) : ImmediateAppend :=
  appendEventCommand VPUEventSignalCommand.create hEvent

/-- The loop of `appendWaitOnEvents` over the events from an index on. -/
def appendWaits (phEvent : Nat → Option Event) : Nat → Nat → ImmediateAppend
  | _, 0 => .success
  | index, left + 1 =>
    (appendEventCommand VPUEventWaitCommand.create (phEvent index)).andThen (appendWaits phEvent (index + 1) left)

def appendWaitOnEvents (numEvents : Nat) (phEvent : Option (Nat → Option Event)) : ImmediateAppend :=
  match phEvent with
  | none => .fail ZE_RESULT_ERROR_INVALID_NULL_POINTER
  | some events =>
    if numEvents = 0 then .fail ZE_RESULT_ERROR_INVALID_SIZE else appendWaits events 0 numEvents

/-! The functions of the base class, with the overridden ones in place of its own. -/

def appendWaitEvents (waitEvents : WaitEvents) : ImmediateAppend :=
  if waitEvents.numWaitEvents = 0 then .success
  else
    match waitEvents.phWaitEvents with
    | none => .fail ZE_RESULT_ERROR_INVALID_SIZE
    | some _ => appendWaitOnEvents waitEvents.numWaitEvents waitEvents.phWaitEvents

def appendSignal (hSignalEvent : Option Event) : ImmediateAppend :=
  match hSignalEvent with
  | none => .success
  | some _ => appendSignalEvent hSignalEvent

def appendCommandWithEvents (hSignalEvent : Option Event) (waitEvents : WaitEvents) (created : Created) :
    ImmediateAppend :=
  checkCommandAppendCondition.andThen
    ((appendWaitEvents waitEvents).andThen
      ((appendCommand created).andThen ((appendSignal hSignalEvent).andThen postAppend)))

def appendBarrier (hSignalEvent : Option Event) (waitEvents : WaitEvents) : ImmediateAppend :=
  appendCommandWithEvents hSignalEvent waitEvents VPUBarrierCommand.create

/-- The copy command of `appendMemoryCopy` and of a row of `appendMemoryCopyRegion`. -/
def copyBetween (ctx : VPUDeviceContext) (dstptr srcptr size : Nat) : Created :=
  VPUCopyCommand.create ctx srcptr (ctx.findBufferObject srcptr) dstptr (ctx.findBufferObject dstptr) size

def appendMemoryCopy (dstptr srcptr size : Nat) (hSignalEvent : Option Event) (waitEvents : WaitEvents) :
    ImmediateAppend := fun list =>
  if dstptr = 0 ∨ srcptr = 0 then (ZE_RESULT_ERROR_INVALID_NULL_POINTER, list)
  else appendCommandWithEvents hSignalEvent waitEvents (copyBetween list.ctx dstptr srcptr size) list

/-- The loop of `appendMemoryFillCmd`. -/
def appendFills (ptrBo : VPUBufferObject) (fillPattern : Nat) (hSignalEvent : Option Event) (ptr sizeLeft : Nat)
    (waitEvents : WaitEvents) : ImmediateAppend :=
  if sizeLeft = 0 then .success
  else
    let fillSize := min sizeLeft CommandList.FILL_SIZE_LIMIT
    (appendCommandWithEvents (if sizeLeft ≤ CommandList.FILL_SIZE_LIMIT then hSignalEvent else none) waitEvents
        (VPUFillCommand.create ptr ptrBo fillSize fillPattern)).andThen
      (appendFills ptrBo fillPattern hSignalEvent (ptr + fillSize) (sizeLeft - fillSize) .none)
termination_by sizeLeft
decreasing_by simp only [CommandList.FILL_SIZE_LIMIT]; omega

def appendMemoryFillCmd (ptr pattern patternSize size : Nat) (hSignalEvent : Option Event)
    (waitEvents : WaitEvents) : ImmediateAppend := fun list =>
  if patternSize ≠ 4 ∧ patternSize ≠ 2 ∧ patternSize ≠ 1 then (ZE_RESULT_ERROR_INVALID_SIZE, list)
  else
    match list.ctx.findBufferObject ptr with
    | none => (ZE_RESULT_ERROR_OUT_OF_DEVICE_MEMORY, list)
    | some ptrBo =>
      appendFills ptrBo (CommandList.expandPattern pattern patternSize) hSignalEvent ptr size waitEvents list

/-- An internal buffer is created, with the context that this leaves behind. -/
def createInternal (size : Nat) (list : ImmediateCommandList) : Option VPUBufferObject × ImmediateCommandList :=
  match list.ctx.createUntrackedBufferObject size true with
  | (bo, ctx) => (bo, { list with driver := { list.driver with ctx := ctx } })

def appendMemoryFillAsCopyCmd (ptr patternSize size : Nat) (hSignalEvent : Option Event) (waitEvents : WaitEvents) :
    ImmediateAppend :=
  checkCommandAppendCondition.andThen fun list =>
    match list.createInternal ((size + patternSize) % 2 ^ 64) with
    | (none, next) => (ZE_RESULT_ERROR_OUT_OF_DEVICE_MEMORY, next)
    | (some patternBo, next) =>
      if patternBo.basePtr = 0 then (ZE_RESULT_ERROR_INVALID_SIZE, next)
      else
        appendCommandWithEvents hSignalEvent waitEvents
          (VPUCopyCommand.create next.ctx patternBo.basePtr (some patternBo) ptr (next.ctx.findBufferObject ptr) size)
          next

def appendMemoryFill (ptr : Nat) (pattern : Option Nat) (patternSize size : Nat) (hSignalEvent : Option Event)
    (waitEvents : WaitEvents) : ImmediateAppend := fun list =>
  if ptr = 0 then (ZE_RESULT_ERROR_INVALID_NULL_POINTER, list)
  else
    match pattern with
    | none => (ZE_RESULT_ERROR_INVALID_NULL_POINTER, list)
    | some value =>
      if patternSize ≠ 1 ∧ patternSize ≠ 2 ∧ patternSize ≠ 4 then (ZE_RESULT_ERROR_INVALID_SIZE, list)
      else if NpuArch.NPU40XX.generation ≤ list.ctx.hwInfo.npuArch.generation then
        appendMemoryFillCmd ptr value patternSize size hSignalEvent waitEvents list
      else appendMemoryFillAsCopyCmd ptr patternSize size hSignalEvent waitEvents list

/-- The loop of `appendMemoryCopyRegion` over the rows from `y` on. -/
def appendRows (dst src : CommandList.RegionSide) (hSignalEvent : Option Event) (waitEvents : WaitEvents) :
    Nat → Nat → ImmediateAppend
  | _, 0 => .success
  | y, left + 1 =>
    ImmediateAppend.andThen
      (fun list =>
        appendCommandWithEvents hSignalEvent waitEvents
          (copyBetween list.ctx (dst.rowAddress y) (src.rowAddress y) dst.region.width) list)
      (appendRows dst src hSignalEvent waitEvents (y + 1) left)

def appendMemoryCopyRegion (dstptr : Nat) (dstRegion : Option CommandList.CopyRegion) (dstPitch dstSlicePitch : Nat)
    (srcptr : Nat) (srcRegion : Option CommandList.CopyRegion) (srcPitch srcSlicePitch : Nat)
    (hSignalEvent : Option Event) (waitEvents : WaitEvents) : ImmediateAppend :=
  if dstptr = 0 ∨ srcptr = 0 then .fail ZE_RESULT_ERROR_INVALID_NULL_POINTER
  else
    match dstRegion, srcRegion with
    | some dstRegion, some srcRegion =>
      let dst : CommandList.RegionSide := ⟨dstptr, dstRegion, dstPitch, dstSlicePitch⟩
      let src : CommandList.RegionSide := ⟨srcptr, srcRegion, srcPitch, srcSlicePitch⟩
      ImmediateAppend.andThen (fun list => (CommandList.checkRegions dst src, list))
        (appendRows dst src hSignalEvent waitEvents 0 dst.region.height)
    | _, _ => .fail ZE_RESULT_ERROR_INVALID_NULL_POINTER

def appendWriteGlobalTimestampTo (timestampBo : VPUBufferObject) (hSignalEvent : Option Event)
    (waitEvents : WaitEvents) : ImmediateAppend := fun list =>
  appendCommandWithEvents hSignalEvent waitEvents
    (VPUTimeStampCommand.create timestampBo.basePtr (some timestampBo) list.ctx.hwInfo.fwTimestampType) list

def appendWriteGlobalTimestamp (dstptr : Nat) (hSignalEvent : Option Event) (waitEvents : WaitEvents) :
    ImmediateAppend := fun list =>
  if dstptr = 0 then (ZE_RESULT_ERROR_INVALID_NULL_POINTER, list)
  else
    match list.ctx.findBufferObject dstptr with
    | none => (ZE_RESULT_ERROR_OUT_OF_DEVICE_MEMORY, list)
    | some dstBo =>
      checkCommandAppendCondition.andThen (fun list =>
        match list.createInternal 8 with
        | (none, next) => (ZE_RESULT_ERROR_INVALID_NULL_POINTER, next)
        | (some alignedBo, next) =>
          let timestamp := VPUTimeStampCommand.create alignedBo.basePtr (some alignedBo)
            next.ctx.hwInfo.fwTimestampType
          let copy := VPUCopyCommand.create next.ctx alignedBo.basePtr (some alignedBo) dstptr (some dstBo) 8
          (appendWaitEvents waitEvents).andThen
            ((lift ((CommandList.appendCommand timestamp).andThen (CommandList.appendCommand copy))).andThen
              ((appendSignal hSignalEvent).andThen postAppend)) next) list

def appendGraphInitialize (hGraph : Option Graph) (hSignalEvent : Option Event) (waitEvents : WaitEvents) :
    ImmediateAppend :=
  checkCommandAppendCondition.andThen
    ((appendWaitEvents waitEvents).andThen
      (match hGraph with
       | none => .fail ZE_RESULT_ERROR_UNINITIALIZED
       | some graph =>
         (appendCommand (CommandList.allocateGraphInitCommand graph)).andThen
           ((appendSignal hSignalEvent).andThen postAppend)))

/-- An immediate list is not mutable, so that no command id is noted. -/
def appendGraphExecute (hGraph : Option Graph) (hProfilingQuery : Option GraphProfilingQuery)
    (hSignalEvent : Option Event) (waitEvents : WaitEvents) : ImmediateAppend :=
  checkCommandAppendCondition.andThen
    ((appendWaitEvents waitEvents).andThen
      ((lift (CommandList.appendInference hGraph hProfilingQuery)).andThen
        ((appendSignal hSignalEvent).andThen postAppend)))

/-- Not overridden: the buffer is the event's own. -/
def appendEventReset (hEvent : Option Event) : ImmediateAppend :=
  checkCommandAppendCondition.andThen
    ((lift (CommandList.appendEventCommand VPUEventResetCommand.create hEvent)).andThen postAppend)

def appendMetricQueryBegin (hMetricQuery : Option MetricQuery) : ImmediateAppend :=
  match hMetricQuery with
  | none => .fail ZE_RESULT_ERROR_INVALID_NULL_HANDLE
  | some query =>
    checkCommandAppendCondition.andThen
      (if !query.isGroupActivated then .fail ZE_RESULT_ERROR_DEPENDENCY_UNAVAILABLE
       else
         (appendCommand (VPUQueryBeginCommand.create query.metricGroupMask query.metricAddrPtr query.bo)).andThen
           postAppend)

def appendMetricQueryEnd (hMetricQuery : Option MetricQuery) (hSignalEvent : Option Event)
    (waitEvents : WaitEvents) : ImmediateAppend :=
  match hMetricQuery with
  | none => .fail ZE_RESULT_ERROR_INVALID_NULL_HANDLE
  | some query =>
    if !query.isGroupActivated then .fail ZE_RESULT_ERROR_DEPENDENCY_UNAVAILABLE
    else
      appendCommandWithEvents hSignalEvent waitEvents
        (VPUQueryEndCommand.create query.metricGroupMask query.metricAddrPtr query.bo)

end ImmediateCommandList

end NpuDriver
