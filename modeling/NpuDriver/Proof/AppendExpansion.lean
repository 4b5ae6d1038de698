import NpuDriver.LevelZero.CommandList

/-! Every append operation is a series of small effects that is cut off at the first failure,
and nothing is taken back then. -/

namespace NpuDriver

open ZeResult

/-- One step of an append operation. -/
inductive Effect where
  | check
  | fail (error : ZeResult) (failed : error ≠ ZE_RESULT_SUCCESS := by decide)
  | command (created : Created)
  | note (newCommandId : Nat)
  | context (ctx : VPUDeviceContext)

namespace Effect

def run : Effect → Append
  | check => CommandList.checkCommandAppendCondition
  | fail error _ => .fail error
  | command created => CommandList.appendCommand created
  | note newCommandId => CommandList.noteCommandId newCommandId
  | context ctx => fun list => (ZE_RESULT_SUCCESS, { list with ctx := ctx })

/-- The command that an effect adds when it succeeds; an empty one is skipped. -/
def added : Effect → List VPUCommand
  | command (.ok cmd) => if cmd.getCommitSize = 0 then [] else [cmd]
  | _ => []

/-- Run effects until one fails. -/
def perform : List Effect → Append
  | [] => .success
  | effect :: rest => effect.run.andThen (perform rest)

end Effect

namespace Append

@[simp] theorem success_andThen (second : Append) : success.andThen second = second := rfl

@[simp] theorem andThen_success (first : Append) : first.andThen success = first := by
  funext list
  simp only [andThen]
  rcases first list with ⟨result, next⟩
  cases result <;> rfl

theorem andThen_assoc (first second third : Append) :
    (first.andThen second).andThen third = first.andThen (second.andThen third) := by
  funext list
  simp only [andThen]
  rcases first list with ⟨result, next⟩
  cases result <;> rfl

end Append

namespace Effect

theorem perform_append (first second : List Effect) :
    perform (first ++ second) = (perform first).andThen (perform second) := by
  induction first with
  | nil => rfl
  | cons effect rest ih =>
    rw [List.cons_append, perform, perform, ih, Append.andThen_assoc]

@[simp] theorem perform_singleton (effect : Effect) : perform [effect] = effect.run := by
  simp [perform]

/-- What an effect does when it succeeds. -/
def apply : Effect → CommandList → CommandList
  | check, list => list
  | fail _ _, list => list
  | command created, list =>
    { list with vpuJob := { list.vpuJob with commands := list.vpuJob.commands ++ (command created).added } }
  | note newCommandId, list => (CommandList.noteCommandId newCommandId list).2
  | context ctx, list => { list with ctx := ctx }

def applyAll (effects : List Effect) (list : CommandList) : CommandList :=
  effects.foldl (fun current effect => effect.apply current) list

/-- An effect succeeds, or it fails and leaves the list alone. -/
theorem run_cases (effect : Effect) (list : CommandList) :
    effect.run list = (ZE_RESULT_SUCCESS, effect.apply list) ∨
      ∃ error, error ≠ ZE_RESULT_SUCCESS ∧ effect.run list = (error, list) := by
  cases effect with
  | check =>
    simp only [run, CommandList.checkCommandAppendCondition, apply]
    split
    · exact .inr ⟨_, by decide, rfl⟩
    · exact .inl rfl
  | fail error failed => exact .inr ⟨error, failed, rfl⟩
  | command created =>
    match created with
    | .error .nullptr => exact .inr ⟨ZE_RESULT_ERROR_UNINITIALIZED, by decide, rfl⟩
    | .error .thrown => exact .inr ⟨ZE_RESULT_ERROR_UNKNOWN, by decide, rfl⟩
    | .ok cmd =>
      simp only [run, CommandList.appendCommand, CommandList.pushCommand, VPUJob.appendCommand, apply, added]
      by_cases closed : list.vpuJob.closed = true
      · exact .inr ⟨ZE_RESULT_ERROR_UNKNOWN, by decide, by simp [closed]⟩
      · by_cases dirty : list.vpuJob.cmdBuffers = []
        · left
          rw [if_neg closed, if_neg (by simpa using dirty)]
          by_cases empty : cmd.getCommitSize = 0
          · simp [empty]
          · simp [empty]
        · exact .inr ⟨ZE_RESULT_ERROR_UNKNOWN, by decide, by simp [closed, dirty]⟩
  | note newCommandId =>
    refine .inl ?_
    simp only [run, apply, CommandList.noteCommandId]
    split <;> rfl
  | context ctx => exact .inl rfl

@[simp] theorem applyAll_nil (list : CommandList) : applyAll [] list = list := rfl

theorem applyAll_cons (effect : Effect) (rest : List Effect) (list : CommandList) :
    applyAll (effect :: rest) list = applyAll rest (effect.apply list) := rfl

theorem applyAll_append (first second : List Effect) (list : CommandList) :
    applyAll (first ++ second) list = applyAll second (applyAll first list) := by
  simp [applyAll]

/-- An effect that succeeds on some list. -/
def Succeeds (effect : Effect) : Prop := ∃ list, effect.run list = (ZE_RESULT_SUCCESS, effect.apply list)

/-- A series of effects is carried out up to the first one that fails; nothing is undone. -/
theorem perform_cases (effects : List Effect) (list : CommandList) :
    perform effects list = (ZE_RESULT_SUCCESS, applyAll effects list) ∨
      ∃ done failing rest error, effects = done ++ failing :: rest ∧
        (∀ effect ∈ done, effect.Succeeds) ∧ error ≠ ZE_RESULT_SUCCESS ∧
        failing.run (applyAll done list) = (error, applyAll done list) ∧
        perform effects list = (error, applyAll done list) := by
  induction effects generalizing list with
  | nil => exact .inl rfl
  | cons effect rest ih =>
    rcases effect.run_cases list with success | ⟨error, failed, stopped⟩
    · have continued : perform (effect :: rest) list = perform rest (effect.apply list) := by
        simp [perform, Append.andThen, success]
      rw [continued, applyAll_cons]
      rcases ih (effect.apply list) with
        finished | ⟨done, failing, others, error, split, succeed, failed, stops, result⟩
      · exact .inl finished
      · have all := List.forall_mem_cons.mpr ⟨⟨list, success⟩, succeed⟩
        exact .inr ⟨effect :: done, failing, others, error, by rw [split]; rfl, all, failed, stops, result⟩
    · refine .inr ⟨[], effect, rest, error, rfl, nofun, failed, stopped, ?_⟩
      simp only [perform, Append.andThen, stopped, applyAll_nil]

/-- The effects that leave the context alone. -/
def Local (effect : Effect) : Prop := ∀ list, (effect.apply list).ctx = list.ctx

/-- The effects that concern the job only. -/
def Core : Effect → Prop
  | note _ => False
  | context _ => False
  | _ => True

theorem Core.local {effect : Effect} (core : effect.Core) : effect.Local := by
  cases effect with
  | note newCommandId => exact core.elim
  | context ctx => exact core.elim
  | _ => exact fun _ => rfl

theorem applyAll_ctx {effects : List Effect} (stays : ∀ effect ∈ effects, effect.Local)
    (list : CommandList) : (applyAll effects list).ctx = list.ctx := by
  induction effects generalizing list with
  | nil => rfl
  | cons effect rest ih =>
    rw [applyAll_cons, ih fun other member => stays other (List.mem_cons_of_mem effect member)]
    exact stays effect (List.mem_cons_self ..) list

theorem perform_ctx {effects : List Effect} (stays : ∀ effect ∈ effects, effect.Local)
    (list : CommandList) : (perform effects list).2.ctx = list.ctx := by
  rcases perform_cases effects list with result | ⟨done, failing, rest, error, rfl, -, -, -, result⟩
  · rw [result]
    exact applyAll_ctx stays list
  · rw [result]
    exact applyAll_ctx (fun effect member => stays effect (List.mem_append_left _ member)) list

/-- The commands that a series of effects adds. -/
def commandsOf (effects : List Effect) : List VPUCommand := effects.flatMap added

theorem apply_vpuJob (effect : Effect) (list : CommandList) :
    (effect.apply list).vpuJob =
      { list.vpuJob with commands := list.vpuJob.commands ++ effect.added } := by
  cases effect with
  | command created => rfl
  | note newCommandId =>
    simp only [apply, CommandList.noteCommandId, added, List.append_nil]
    split <;> rfl
  | _ => simp [apply, added]

theorem applyAll_vpuJob (effects : List Effect) (list : CommandList) :
    (applyAll effects list).vpuJob =
      { list.vpuJob with commands := list.vpuJob.commands ++ commandsOf effects } := by
  induction effects generalizing list with
  | nil => simp [commandsOf]
  | cons effect rest ih =>
    rw [applyAll_cons, ih, apply_vpuJob]
    simp [commandsOf]

theorem perform_success {effects : List Effect} {list after : CommandList}
    (success : perform effects list = (ZE_RESULT_SUCCESS, after)) :
    after = applyAll effects list ∧ ∀ effect ∈ effects, effect.Succeeds := by
  induction effects generalizing list with
  | nil =>
    simp only [perform, Append.success, Prod.mk.injEq, true_and] at success
    exact ⟨success.symm, by simp⟩
  | cons effect rest ih =>
    rcases effect.run_cases list with ran | ⟨error, failed, stopped⟩
    · simp only [perform, Append.andThen, ran] at success
      obtain ⟨same, others⟩ := ih success
      exact ⟨same, List.forall_mem_cons.mpr ⟨⟨list, ran⟩, others⟩⟩
    · simp only [perform, Append.andThen, stopped, Prod.mk.injEq] at success
      exact absurd success.1 failed

theorem Succeeds.not_fail (succeeds : (fail error failed).Succeeds) : False := by
  obtain ⟨list, ran⟩ := succeeds
  simp only [run, Append.fail, Prod.mk.injEq] at ran
  exact failed ran.1

theorem Succeeds.created {created : Created} (succeeds : (command created).Succeeds) :
    ∃ cmd, created = .ok cmd := by
  obtain ⟨list, ran⟩ := succeeds
  match created with
  | .ok cmd => exact ⟨cmd, rfl⟩
  | .error .nullptr => simp [run, CommandList.appendCommand, Append.fail] at ran
  | .error .thrown => simp [run, CommandList.appendCommand, Append.fail] at ran

theorem commandsOf_append (first second : List Effect) :
    commandsOf (first ++ second) = commandsOf first ++ commandsOf second := by
  simp [commandsOf]

end Effect

open Effect (perform)

theorem eventCommand_size {sType : ScheduleType} {cmdType pointer value : Nat}
    {bo : Option VPUBufferObject} (created : VPUEventCommand.create sType cmdType pointer bo value = .ok cmd) :
    cmd.getCommitSize = fenceSize := by
  unfold VPUEventCommand.create at created
  split at created
  · cases created
  · split at created
    · cases created
    · split at created
      · cases created
      · cases created
        rfl

/-- The effect of one event command, with the checks of its handle. -/
def eventEffect (create : Nat → Option VPUBufferObject → Created) (hEvent : Option Event) : Effect :=
  match hEvent with
  | none => .fail ZE_RESULT_ERROR_INVALID_NULL_HANDLE
  | some event =>
    if event.syncPointer = 0 then .fail ZE_RESULT_ERROR_INVALID_NULL_HANDLE
    else .command (create event.syncPointer event.associatedBo)

def waitEffects (phEvent : Nat → Option Event) (count : Nat) : List Effect :=
  (List.range' 0 count).map fun index => eventEffect VPUEventWaitCommand.create (phEvent index)

/-- The waits in front of a command. -/
def waitEventEffects (waitEvents : WaitEvents) : List Effect :=
  if waitEvents.numWaitEvents = 0 then []
  else
    match waitEvents.phWaitEvents with
    | none => [.fail ZE_RESULT_ERROR_INVALID_SIZE]
    | some events => .check :: waitEffects events waitEvents.numWaitEvents

/-- The signal behind a command. -/
def signalEffects (hSignalEvent : Option Event) : List Effect :=
  match hSignalEvent with
  | none => []
  | some event => [.check, eventEffect VPUEventSignalCommand.create (some event)]

def commandEffects (hSignalEvent : Option Event) (waitEvents : WaitEvents) (created : Created) :
    List Effect :=
  .check :: waitEventEffects waitEvents ++ .command created :: signalEffects hSignalEvent

/-- The pieces of a fill. -/
def fillEffects (ptrBo : VPUBufferObject) (fillPattern : Nat) (hSignalEvent : Option Event)
    (ptr sizeLeft : Nat) (waitEvents : WaitEvents) : List Effect :=
  if sizeLeft = 0 then []
  else
    let fillSize := min sizeLeft CommandList.FILL_SIZE_LIMIT
    commandEffects (if sizeLeft ≤ CommandList.FILL_SIZE_LIMIT then hSignalEvent else none) waitEvents
        (VPUFillCommand.create ptr ptrBo fillSize fillPattern) ++
      fillEffects ptrBo fillPattern hSignalEvent (ptr + fillSize) (sizeLeft - fillSize) .none
termination_by sizeLeft
decreasing_by simp only [CommandList.FILL_SIZE_LIMIT]; omega

/-- The rows of a region copy. -/
def rowEffects (ctx : VPUDeviceContext) (dst src : CommandList.RegionSide) (hSignalEvent : Option Event)
    (waitEvents : WaitEvents) (height : Nat) : List Effect :=
  (List.range' 0 height).flatMap fun y =>
    commandEffects hSignalEvent waitEvents
      (VPUCopyCommand.create ctx (src.rowAddress y) (ctx.findBufferObject (src.rowAddress y))
        (dst.rowAddress y) (ctx.findBufferObject (dst.rowAddress y)) dst.region.width)

/-- The append operations of a command list with their arguments. -/
inductive AppendOperation where
  | barrier (hSignalEvent : Option Event) (waitEvents : WaitEvents)
  | memoryCopy (dstptr srcptr size : Nat) (hSignalEvent : Option Event) (waitEvents : WaitEvents)
  | memoryFill (ptr : Nat) (pattern : Option Nat) (patternSize size : Nat) (hSignalEvent : Option Event)
      (waitEvents : WaitEvents)
  | memoryCopyRegion (dstptr : Nat) (dstRegion : Option CommandList.CopyRegion)
      (dstPitch dstSlicePitch : Nat) (srcptr : Nat) (srcRegion : Option CommandList.CopyRegion)
      (srcPitch srcSlicePitch : Nat) (hSignalEvent : Option Event) (waitEvents : WaitEvents)
  | writeGlobalTimestamp (dstptr : Nat) (hSignalEvent : Option Event) (waitEvents : WaitEvents)
  | writeGlobalTimestampTo (timestampBo : VPUBufferObject) (hSignalEvent : Option Event)
      (waitEvents : WaitEvents)
  | graphInitialize (hGraph : Option Graph) (hSignalEvent : Option Event) (waitEvents : WaitEvents)
  | graphExecute (hGraph : Option Graph) (hProfilingQuery : Option GraphProfilingQuery)
      (hSignalEvent : Option Event) (waitEvents : WaitEvents)
  | signalEvent (hEvent : Option Event)
  | waitOnEvents (numEvents : Nat) (phEvent : Option (Nat → Option Event))
  | eventReset (hEvent : Option Event)
  | metricQueryBegin (hMetricQuery : Option MetricQuery)
  | metricQueryEnd (hMetricQuery : Option MetricQuery) (hSignalEvent : Option Event)
      (waitEvents : WaitEvents)

namespace AppendOperation

def append : AppendOperation → Append
  | barrier hSignalEvent waitEvents => CommandList.appendBarrier hSignalEvent waitEvents
  | memoryCopy dstptr srcptr size hSignalEvent waitEvents =>
    CommandList.appendMemoryCopy dstptr srcptr size hSignalEvent waitEvents
  | memoryFill ptr pattern patternSize size hSignalEvent waitEvents =>
    CommandList.appendMemoryFill ptr pattern patternSize size hSignalEvent waitEvents
  | memoryCopyRegion dstptr dstRegion dstPitch dstSlicePitch srcptr srcRegion srcPitch srcSlicePitch
      hSignalEvent waitEvents =>
    CommandList.appendMemoryCopyRegion dstptr dstRegion dstPitch dstSlicePitch srcptr srcRegion srcPitch
      srcSlicePitch hSignalEvent waitEvents
  | writeGlobalTimestamp dstptr hSignalEvent waitEvents =>
    CommandList.appendWriteGlobalTimestamp dstptr hSignalEvent waitEvents
  | writeGlobalTimestampTo timestampBo hSignalEvent waitEvents =>
    CommandList.appendWriteGlobalTimestampTo timestampBo hSignalEvent waitEvents
  | graphInitialize hGraph hSignalEvent waitEvents =>
    CommandList.appendGraphInitialize hGraph hSignalEvent waitEvents
  | graphExecute hGraph hProfilingQuery hSignalEvent waitEvents =>
    CommandList.appendGraphExecute hGraph hProfilingQuery hSignalEvent waitEvents
  | signalEvent hEvent => CommandList.appendSignalEvent hEvent
  | waitOnEvents numEvents phEvent => CommandList.appendWaitOnEvents numEvents phEvent
  | eventReset hEvent => CommandList.appendEventReset hEvent
  | metricQueryBegin hMetricQuery => CommandList.appendMetricQueryBegin hMetricQuery
  | metricQueryEnd hMetricQuery hSignalEvent waitEvents =>
    CommandList.appendMetricQueryEnd hMetricQuery hSignalEvent waitEvents

/-- The effects of a fill; the path is chosen by the hardware generation. -/
def memoryFillExpansion (ctx : VPUDeviceContext) (ptr patternSize size value : Nat)
    (hSignalEvent : Option Event) (waitEvents : WaitEvents) : List Effect :=
  if patternSize ≠ 1 ∧ patternSize ≠ 2 ∧ patternSize ≠ 4 then [.fail ZE_RESULT_ERROR_INVALID_SIZE]
  else if NpuArch.NPU40XX.generation ≤ ctx.hwInfo.npuArch.generation then
    match ctx.findBufferObject ptr with
    | none => [.fail ZE_RESULT_ERROR_OUT_OF_DEVICE_MEMORY]
    | some ptrBo =>
      fillEffects ptrBo (CommandList.expandPattern value patternSize) hSignalEvent ptr size waitEvents
  else
    .check ::
      match ctx.createUntrackedBufferObject ((size + patternSize) % 2 ^ 64) true with
      | (none, next) => [.context next, .fail ZE_RESULT_ERROR_OUT_OF_DEVICE_MEMORY]
      | (some patternBo, next) =>
        .context next ::
          if patternBo.basePtr = 0 then [.fail ZE_RESULT_ERROR_INVALID_SIZE]
          else
            commandEffects hSignalEvent waitEvents
              (VPUCopyCommand.create next patternBo.basePtr (some patternBo) ptr
                (next.findBufferObject ptr) size)

def regionExpansion (ctx : VPUDeviceContext) (dst src : CommandList.RegionSide)
    (hSignalEvent : Option Event) (waitEvents : WaitEvents) : List Effect :=
  if refused : CommandList.checkRegions dst src ≠ ZE_RESULT_SUCCESS then
    [.fail (CommandList.checkRegions dst src) refused]
  else rowEffects ctx dst src hSignalEvent waitEvents dst.region.height

def timestampExpansion (ctx : VPUDeviceContext) (dstptr : Nat) (hSignalEvent : Option Event)
    (waitEvents : WaitEvents) : List Effect :=
  match ctx.findBufferObject dstptr with
  | none => [.fail ZE_RESULT_ERROR_OUT_OF_DEVICE_MEMORY]
  | some dstBo =>
    .check ::
      match ctx.createUntrackedBufferObject 8 true with
      | (none, next) => [.context next, .fail ZE_RESULT_ERROR_INVALID_NULL_POINTER]
      | (some alignedBo, next) =>
        .context next :: waitEventEffects waitEvents ++
          .command (VPUTimeStampCommand.create alignedBo.basePtr (some alignedBo)
            next.hwInfo.fwTimestampType) ::
          .command (VPUCopyCommand.create next alignedBo.basePtr (some alignedBo) dstptr (some dstBo) 8) ::
          signalEffects hSignalEvent

def inferenceExpansion (ctx : VPUDeviceContext) (hGraph : Option Graph)
    (hProfilingQuery : Option GraphProfilingQuery) : List Effect :=
  match hGraph with
  | none => [.fail ZE_RESULT_ERROR_INVALID_NULL_HANDLE]
  | some graph =>
    match CommandList.profilingQueryOf graph hProfilingQuery with
    | none => [.fail ZE_RESULT_ERROR_INVALID_NULL_HANDLE]
    | some profilingQuery =>
      match CommandList.allocateGraphExecuteCommand graph profilingQuery ctx with
      | (created, next) => [.context next, .command created]

/-- What an operation consists of: checks, waits, data commands and a signal, in order. -/
def expansion (list : CommandList) : AppendOperation → List Effect
  | barrier hSignalEvent waitEvents => commandEffects hSignalEvent waitEvents VPUBarrierCommand.create
  | memoryCopy dstptr srcptr size hSignalEvent waitEvents =>
    if dstptr = 0 ∨ srcptr = 0 then [.fail ZE_RESULT_ERROR_INVALID_NULL_POINTER]
    else
      commandEffects hSignalEvent waitEvents
        (VPUCopyCommand.create list.ctx srcptr (list.ctx.findBufferObject srcptr) dstptr
          (list.ctx.findBufferObject dstptr) size)
  | memoryFill ptr pattern patternSize size hSignalEvent waitEvents =>
    if ptr = 0 then [.fail ZE_RESULT_ERROR_INVALID_NULL_POINTER]
    else
      match pattern with
      | none => [.fail ZE_RESULT_ERROR_INVALID_NULL_POINTER]
      | some value => memoryFillExpansion list.ctx ptr patternSize size value hSignalEvent waitEvents
  | memoryCopyRegion dstptr dstRegion dstPitch dstSlicePitch srcptr srcRegion srcPitch srcSlicePitch
      hSignalEvent waitEvents =>
    if dstptr = 0 ∨ srcptr = 0 then [.fail ZE_RESULT_ERROR_INVALID_NULL_POINTER]
    else
      match dstRegion, srcRegion with
      | some dstRegion, some srcRegion =>
        regionExpansion list.ctx ⟨dstptr, dstRegion, dstPitch, dstSlicePitch⟩
          ⟨srcptr, srcRegion, srcPitch, srcSlicePitch⟩ hSignalEvent waitEvents
      | _, _ => [.fail ZE_RESULT_ERROR_INVALID_NULL_POINTER]
  | writeGlobalTimestamp dstptr hSignalEvent waitEvents =>
    if dstptr = 0 then [.fail ZE_RESULT_ERROR_INVALID_NULL_POINTER]
    else timestampExpansion list.ctx dstptr hSignalEvent waitEvents
  | writeGlobalTimestampTo timestampBo hSignalEvent waitEvents =>
    commandEffects hSignalEvent waitEvents
      (VPUTimeStampCommand.create timestampBo.basePtr (some timestampBo) list.ctx.hwInfo.fwTimestampType)
  | graphInitialize hGraph hSignalEvent waitEvents =>
    .check :: waitEventEffects waitEvents ++
      match hGraph with
      | none => [.fail ZE_RESULT_ERROR_UNINITIALIZED]
      | some graph => .command (CommandList.allocateGraphInitCommand graph) :: signalEffects hSignalEvent
  | graphExecute hGraph hProfilingQuery hSignalEvent waitEvents =>
    .check :: waitEventEffects waitEvents ++
      .note list.getNumCommands ::
        (inferenceExpansion list.ctx hGraph hProfilingQuery ++ signalEffects hSignalEvent)
  | signalEvent hEvent => [.check, eventEffect VPUEventSignalCommand.create hEvent]
  | waitOnEvents numEvents phEvent =>
    match phEvent with
    | none => [.fail ZE_RESULT_ERROR_INVALID_NULL_POINTER]
    | some events =>
      if numEvents = 0 then [.fail ZE_RESULT_ERROR_INVALID_SIZE]
      else .check :: waitEffects events numEvents
  | eventReset hEvent => [.check, eventEffect VPUEventResetCommand.create hEvent]
  | metricQueryBegin hMetricQuery =>
    match hMetricQuery with
    | none => [.fail ZE_RESULT_ERROR_INVALID_NULL_HANDLE]
    | some query =>
      [.check,
        if query.isGroupActivated then
          .command (VPUQueryBeginCommand.create query.metricGroupMask query.metricAddrPtr query.bo)
        else .fail ZE_RESULT_ERROR_DEPENDENCY_UNAVAILABLE]
  | metricQueryEnd hMetricQuery hSignalEvent waitEvents =>
    match hMetricQuery with
    | none => [.fail ZE_RESULT_ERROR_INVALID_NULL_HANDLE]
    | some query =>
      if query.isGroupActivated then
        commandEffects hSignalEvent waitEvents
          (VPUQueryEndCommand.create query.metricGroupMask query.metricAddrPtr query.bo)
      else [.fail ZE_RESULT_ERROR_DEPENDENCY_UNAVAILABLE]

end AppendOperation

namespace CommandList

theorem appendEventCommand_perform (create : Nat → Option VPUBufferObject → Created)
    (hEvent : Option Event) : appendEventCommand create hEvent = (eventEffect create hEvent).run := by
  cases hEvent with
  | none => rfl
  | some event =>
    simp only [appendEventCommand, eventEffect]
    split <;> rfl

theorem appendWaits_perform (phEvent : Nat → Option Event) (index left : Nat) :
    appendWaits phEvent index left =
      perform ((List.range' index left).map fun index =>
        eventEffect VPUEventWaitCommand.create (phEvent index)) := by
  induction left generalizing index with
  | zero => rfl
  | succ left ih =>
    rw [appendWaits, ih, List.range'_succ, List.map_cons, perform, appendEventCommand_perform]

theorem appendWaitEvents_perform (waitEvents : WaitEvents) :
    appendWaitEvents waitEvents = perform (waitEventEffects waitEvents) := by
  unfold appendWaitEvents waitEventEffects
  split
  · rfl
  · rename_i nonzero
    cases present : waitEvents.phWaitEvents with
    | none => rfl
    | some events =>
      simp only [appendWaitOnEvents, if_neg nonzero]
      rw [perform, appendWaits_perform]
      rfl

theorem appendSignalEvent_perform (hEvent : Option Event) :
    appendSignalEvent hEvent = perform [.check, eventEffect VPUEventSignalCommand.create hEvent] := by
  rw [appendSignalEvent, perform, Effect.perform_singleton, appendEventCommand_perform]
  rfl

theorem appendSignal_perform (hSignalEvent : Option Event) :
    appendSignal hSignalEvent = perform (signalEffects hSignalEvent) := by
  cases hSignalEvent with
  | none => rfl
  | some event => exact appendSignalEvent_perform (some event)

theorem appendCommandWithEvents_perform (hSignalEvent : Option Event) (waitEvents : WaitEvents)
    (created : Created) :
    appendCommandWithEvents hSignalEvent waitEvents created =
      perform (commandEffects hSignalEvent waitEvents created) := by
  rw [appendCommandWithEvents, commandEffects, appendWaitEvents_perform, appendSignal_perform,
    List.cons_append, perform, Effect.perform_append, perform]
  rfl

theorem appendFills_perform (ptrBo : VPUBufferObject) (fillPattern : Nat) (hSignalEvent : Option Event)
    (ptr sizeLeft : Nat) (waitEvents : WaitEvents) :
    appendFills ptrBo fillPattern hSignalEvent ptr sizeLeft waitEvents =
      perform (fillEffects ptrBo fillPattern hSignalEvent ptr sizeLeft waitEvents) := by
  induction sizeLeft using Nat.strong_induction_on generalizing ptr waitEvents with
  | _ sizeLeft ih =>
    rw [appendFills, fillEffects]
    split
    · rfl
    · rename_i nonzero
      have smaller : sizeLeft - min sizeLeft FILL_SIZE_LIMIT < sizeLeft := by
        simp only [FILL_SIZE_LIMIT]
        omega
      simp only [Effect.perform_append, appendCommandWithEvents_perform, ih _ smaller]

theorem eventEffect_core (create : Nat → Option VPUBufferObject → Created) (hEvent : Option Event) :
    (eventEffect create hEvent).Core := by
  cases hEvent with
  | none => trivial
  | some event =>
    simp only [eventEffect]
    split <;> trivial

theorem waitEventEffects_core (waitEvents : WaitEvents) :
    ∀ effect ∈ waitEventEffects waitEvents, effect.Core := by
  intro effect member
  unfold waitEventEffects at member
  split at member
  · simp at member
  · split at member
    · rw [List.mem_singleton.mp member]
      trivial
    · rcases List.mem_cons.mp member with rfl | wait
      · trivial
      · obtain ⟨index, -, rfl⟩ := List.mem_map.mp wait
        exact eventEffect_core _ _

theorem signalEffects_core (hSignalEvent : Option Event) :
    ∀ effect ∈ signalEffects hSignalEvent, effect.Core := by
  intro effect member
  cases hSignalEvent with
  | none => simp [signalEffects] at member
  | some event =>
    rcases List.mem_cons.mp member with rfl | signal
    · trivial
    · rw [List.mem_singleton.mp signal]
      exact eventEffect_core _ _

theorem commandEffects_core (hSignalEvent : Option Event) (waitEvents : WaitEvents) (created : Created) :
    ∀ effect ∈ commandEffects hSignalEvent waitEvents created, effect.Core := by
  intro effect member
  simp only [commandEffects, List.cons_append, List.mem_cons, List.mem_append] at member
  rcases member with rfl | wait | rfl | signal
  · trivial
  · exact waitEventEffects_core waitEvents effect wait
  · trivial
  · exact signalEffects_core hSignalEvent effect signal

theorem appendRows_perform (dst src : RegionSide) (hSignalEvent : Option Event)
    (waitEvents : WaitEvents) (y left : Nat) (list : CommandList) :
    appendRows dst src hSignalEvent waitEvents y left list =
      perform ((List.range' y left).flatMap fun y =>
        commandEffects hSignalEvent waitEvents
          (VPUCopyCommand.create list.ctx (src.rowAddress y) (list.ctx.findBufferObject (src.rowAddress y))
            (dst.rowAddress y) (list.ctx.findBufferObject (dst.rowAddress y)) dst.region.width)) list := by
  induction left generalizing y list with
  | zero => rfl
  | succ left ih =>
    rw [appendRows, List.range'_succ, List.flatMap_cons, Effect.perform_append]
    simp only [Append.andThen, appendCommandWithEvents_perform]
    have same : ∀ created, (perform (commandEffects hSignalEvent waitEvents created) list).2.ctx = list.ctx :=
      fun created => Effect.perform_ctx
        (fun effect member => (commandEffects_core hSignalEvent waitEvents created effect member).local) list
    split
    · rename_i next result
      rw [ih]
      have ctx := same (VPUCopyCommand.create list.ctx (src.rowAddress y)
        (list.ctx.findBufferObject (src.rowAddress y)) (dst.rowAddress y)
        (list.ctx.findBufferObject (dst.rowAddress y)) dst.region.width)
      rw [result] at ctx
      simp only at ctx
      rw [ctx]
    · rfl

theorem appendMemoryFillCmd_perform (ptr pattern patternSize size : Nat) (hSignalEvent : Option Event)
    (waitEvents : WaitEvents) (list : CommandList)
    (supported : ¬ (patternSize ≠ 4 ∧ patternSize ≠ 2 ∧ patternSize ≠ 1)) :
    appendMemoryFillCmd ptr pattern patternSize size hSignalEvent waitEvents list =
      perform (match list.ctx.findBufferObject ptr with
        | none => [.fail ZE_RESULT_ERROR_OUT_OF_DEVICE_MEMORY]
        | some ptrBo =>
          fillEffects ptrBo (expandPattern pattern patternSize) hSignalEvent ptr size waitEvents) list := by
  rw [appendMemoryFillCmd, if_neg supported]
  cases list.ctx.findBufferObject ptr with
  | none => simp [Effect.run, Append.fail]
  | some ptrBo => simp only [appendFills_perform]

/-- The two operations that allocate an internal buffer check the list first. -/
theorem checked_perform (rest : Append) (effects : List Effect) (list : CommandList)
    (same : list.isCmdListClosed = false → rest list = perform effects list) :
    checkCommandAppendCondition.andThen rest list = perform (.check :: effects) list := by
  simp only [perform, Append.andThen, Effect.run, checkCommandAppendCondition]
  by_cases closed : list.isCmdListClosed = true
  · simp [closed]
  · simp only [closed, Bool.false_eq_true, ↓reduceIte]
    exact same (by simpa using closed)

theorem appendMemoryFillAsCopyCmd_perform (ptr patternSize size : Nat) (hSignalEvent : Option Event)
    (waitEvents : WaitEvents) (list : CommandList) :
    appendMemoryFillAsCopyCmd ptr patternSize size hSignalEvent waitEvents list =
      perform (.check ::
        match list.ctx.createUntrackedBufferObject ((size + patternSize) % 2 ^ 64) true with
        | (none, next) => [.context next, .fail ZE_RESULT_ERROR_OUT_OF_DEVICE_MEMORY]
        | (some patternBo, next) =>
          .context next ::
            if patternBo.basePtr = 0 then [.fail ZE_RESULT_ERROR_INVALID_SIZE]
            else
              commandEffects hSignalEvent waitEvents
                (VPUCopyCommand.create next patternBo.basePtr (some patternBo) ptr
                  (next.findBufferObject ptr) size)) list := by
  refine checked_perform _ _ list fun _ => ?_
  rcases list.ctx.createUntrackedBufferObject ((size + patternSize) % 2 ^ 64) true with ⟨_ | patternBo, next⟩
  · rfl
  · simp only [appendCommandWithEvents_perform]
    split <;> rfl

theorem appendWriteGlobalTimestamp_perform (dstptr : Nat) (hSignalEvent : Option Event)
    (waitEvents : WaitEvents) (list : CommandList) (nonzero : dstptr ≠ 0) :
    appendWriteGlobalTimestamp dstptr hSignalEvent waitEvents list =
      perform (AppendOperation.timestampExpansion list.ctx dstptr hSignalEvent waitEvents) list := by
  unfold appendWriteGlobalTimestamp AppendOperation.timestampExpansion
  rw [if_neg nonzero]
  cases list.ctx.findBufferObject dstptr with
  | none => simp [Effect.run, Append.fail]
  | some dstBo =>
    refine checked_perform _ _ list fun _ => ?_
    rcases list.ctx.createUntrackedBufferObject 8 true with ⟨_ | alignedBo, next⟩
    · rfl
    · simp only [appendWaitEvents_perform, appendSignal_perform, List.cons_append]
      rw [perform, Effect.perform_append]
      rfl

theorem appendGraphInitialize_perform (hGraph : Option Graph) (hSignalEvent : Option Event)
    (waitEvents : WaitEvents) :
    appendGraphInitialize hGraph hSignalEvent waitEvents =
      perform (.check :: waitEventEffects waitEvents ++
        match hGraph with
        | none => [.fail ZE_RESULT_ERROR_UNINITIALIZED]
        | some graph => .command (allocateGraphInitCommand graph) :: signalEffects hSignalEvent) := by
  unfold appendGraphInitialize
  rw [List.cons_append, perform, Effect.perform_append, appendWaitEvents_perform]
  cases hGraph with
  | none => simp [Effect.run]
  | some graph =>
    rw [perform, appendSignal_perform]
    rfl

theorem appendInference_perform (hGraph : Option Graph) (hProfilingQuery : Option GraphProfilingQuery)
    (list : CommandList) :
    appendInference hGraph hProfilingQuery list =
      perform (AppendOperation.inferenceExpansion list.ctx hGraph hProfilingQuery) list := by
  cases hGraph with
  | none => simp [appendInference, AppendOperation.inferenceExpansion, Effect.run, Append.fail]
  | some graph =>
    simp only [appendInference, AppendOperation.inferenceExpansion]
    cases profilingQueryOf graph hProfilingQuery with
    | none => simp [Effect.run, Append.fail]
    | some profilingQuery =>
      rcases allocateGraphExecuteCommand graph profilingQuery list.ctx with ⟨created, next⟩
      rw [perform, Effect.perform_singleton]
      rfl

/-- What runs after effects that leave the context alone may be expanded against the list as it
was before them. -/
theorem andThen_perform {first : List Effect} (stays : ∀ effect ∈ first, effect.Local) (second : Append)
    (effects : VPUDeviceContext → List Effect) (list : CommandList)
    (same : ∀ next : CommandList, second next = perform (effects next.ctx) next) :
    (perform first).andThen second list = perform (first ++ effects list.ctx) list := by
  rw [Effect.perform_append]
  simp only [Append.andThen]
  have ctx := Effect.perform_ctx stays list
  split
  · rename_i next result
    rw [result] at ctx
    rw [same, ctx]
  · rfl

theorem appendGraphExecute_perform (hGraph : Option Graph) (hProfilingQuery : Option GraphProfilingQuery)
    (hSignalEvent : Option Event) (waitEvents : WaitEvents) (list : CommandList) :
    appendGraphExecute hGraph hProfilingQuery hSignalEvent waitEvents list =
      perform (.check :: waitEventEffects waitEvents ++
        .note list.getNumCommands ::
          (AppendOperation.inferenceExpansion list.ctx hGraph hProfilingQuery ++
            signalEffects hSignalEvent)) list := by
  refine checked_perform _ _ list fun _ => ?_
  have stays : ∀ effect ∈ waitEventEffects waitEvents ++ [.note list.getNumCommands], effect.Local := by
    intro effect member
    rcases List.mem_append.mp member with wait | note
    · exact (waitEventEffects_core waitEvents effect wait).local
    · rw [List.mem_singleton.mp note]
      intro other
      simp only [Effect.apply, noteCommandId]
      split <;> rfl
  have grouped := andThen_perform stays ((appendInference hGraph hProfilingQuery).andThen
    (appendSignal hSignalEvent)) (fun ctx => AppendOperation.inferenceExpansion ctx hGraph hProfilingQuery ++
      signalEffects hSignalEvent) list (by
    intro next
    rw [Effect.perform_append, appendSignal_perform]
    simp only [Append.andThen, appendInference_perform])
  rw [List.append_assoc, Effect.perform_append, Append.andThen_assoc, Effect.perform_singleton] at grouped
  rw [appendWaitEvents_perform]
  exact grouped

theorem appendMemoryCopyRegion_perform (dst src : RegionSide) (hSignalEvent : Option Event)
    (waitEvents : WaitEvents) (list : CommandList) :
    Append.andThen (fun list => (checkRegions dst src, list))
        (appendRows dst src hSignalEvent waitEvents 0 dst.region.height) list =
      perform (AppendOperation.regionExpansion list.ctx dst src hSignalEvent waitEvents) list := by
  unfold AppendOperation.regionExpansion
  split
  · rename_i refused
    simp only [Append.andThen, Effect.perform_singleton, Effect.run, Append.fail]
  · rename_i accepted
    simp only [Append.andThen, Decidable.not_not.mp accepted]
    exact appendRows_perform dst src hSignalEvent waitEvents 0 dst.region.height list

end CommandList

/-- Every append operation performs its expansion. -/
theorem AppendOperation.append_perform (operation : AppendOperation) (list : CommandList) :
    operation.append list = perform (operation.expansion list) list := by
  cases operation with
  | barrier hSignalEvent waitEvents =>
    simp only [append, expansion, CommandList.appendBarrier, CommandList.appendCommandWithEvents_perform]
  | memoryCopy dstptr srcptr size hSignalEvent waitEvents =>
    simp only [append, expansion, CommandList.appendMemoryCopy, CommandList.appendCommandWithEvents_perform]
    split <;> simp [Effect.run, Append.fail]
  | memoryFill ptr pattern patternSize size hSignalEvent waitEvents =>
    simp only [append, expansion, CommandList.appendMemoryFill]
    split
    · simp [Effect.run, Append.fail]
    · cases pattern with
      | none => simp [Effect.run, Append.fail]
      | some value =>
        simp only [memoryFillExpansion]
        split
        · simp [Effect.run, Append.fail]
        · rename_i supported
          split
          · exact CommandList.appendMemoryFillCmd_perform ptr value patternSize size hSignalEvent waitEvents
              list (by tauto)
          · exact CommandList.appendMemoryFillAsCopyCmd_perform ptr patternSize size hSignalEvent waitEvents
              list
  | memoryCopyRegion dstptr dstRegion dstPitch dstSlicePitch srcptr srcRegion srcPitch srcSlicePitch
      hSignalEvent waitEvents =>
    simp only [append, expansion, CommandList.appendMemoryCopyRegion]
    split
    · simp [Effect.run]
    · cases dstRegion with
      | none => simp [Effect.run]
      | some dstRegion =>
        cases srcRegion with
        | none => simp [Effect.run]
        | some srcRegion => exact CommandList.appendMemoryCopyRegion_perform _ _ hSignalEvent waitEvents list
  | writeGlobalTimestamp dstptr hSignalEvent waitEvents =>
    simp only [append, expansion]
    split
    · rename_i null
      simp [CommandList.appendWriteGlobalTimestamp, null, Effect.run, Append.fail]
    · rename_i nonzero
      exact CommandList.appendWriteGlobalTimestamp_perform dstptr hSignalEvent waitEvents list nonzero
  | writeGlobalTimestampTo timestampBo hSignalEvent waitEvents =>
    simp only [append, expansion, CommandList.appendWriteGlobalTimestampTo,
      CommandList.appendCommandWithEvents_perform]
  | graphInitialize hGraph hSignalEvent waitEvents =>
    exact congrFun (CommandList.appendGraphInitialize_perform hGraph hSignalEvent waitEvents) list
  | graphExecute hGraph hProfilingQuery hSignalEvent waitEvents =>
    exact CommandList.appendGraphExecute_perform hGraph hProfilingQuery hSignalEvent waitEvents list
  | signalEvent hEvent => exact congrFun (CommandList.appendSignalEvent_perform hEvent) list
  | waitOnEvents numEvents phEvent =>
    simp only [append, expansion, CommandList.appendWaitOnEvents]
    cases phEvent with
    | none => simp [Effect.run]
    | some events =>
      simp only [CommandList.appendWaits_perform]
      split
      · simp [Effect.run]
      · rfl
  | eventReset hEvent =>
    simp only [append, expansion, CommandList.appendEventReset, CommandList.appendEventCommand_perform]
    rw [perform, Effect.perform_singleton]
    rfl
  | metricQueryBegin hMetricQuery =>
    simp only [append, expansion, CommandList.appendMetricQueryBegin]
    cases hMetricQuery with
    | none => simp [Effect.run]
    | some query =>
      cases activated : query.isGroupActivated <;>
        simp [perform, activated, Effect.run]
  | metricQueryEnd hMetricQuery hSignalEvent waitEvents =>
    simp only [append, expansion, CommandList.appendMetricQueryEnd,
      CommandList.appendCommandWithEvents_perform]
    cases hMetricQuery with
    | none => simp [Effect.run]
    | some query =>
      simp only [Bool.not_eq_eq_eq_not, Bool.not_true]
      by_cases activated : query.isGroupActivated = true
      · simp [activated]
      · simp [activated, Effect.run]

/-- What an operation leaves behind, also when it fails, is the work of a front of its expansion. -/
theorem AppendOperation.append_front (operation : AppendOperation) (list : CommandList) :
    ∃ done left, operation.expansion list = done ++ left ∧
      (operation.append list).2 = Effect.applyAll done list := by
  rw [operation.append_perform list]
  rcases Effect.perform_cases (operation.expansion list) list with
    finished | ⟨done, failing, rest, error, split, -, -, -, result⟩
  · exact ⟨operation.expansion list, [], (List.append_nil _).symm, by rw [finished]⟩
  · exact ⟨done, failing :: rest, split, by rw [result]⟩

end NpuDriver
