import NpuDriver.Proof.AppendExpansion
import NpuDriver.Proof.DataCommands

/-! The order of an append operation: rounds of waits, data commands and a signal. -/

namespace NpuDriver

open ZeResult
open Effect (commandsOf)

namespace Effect

/-- The commands that a series of effects creates, the failed creations included. -/
def creations (effects : List Effect) : List Created :=
  effects.filterMap fun
    | command created => some created
    | _ => none

theorem creations_append (first second : List Effect) :
    creations (first ++ second) = creations first ++ creations second :=
  List.filterMap_append ..

/-- Effects that succeed add what they create, without the empty commands. -/
theorem commandsOf_creations {effects : List Effect} (succeed : ∀ effect ∈ effects, effect.Succeeds) :
    ∃ created : List VPUCommand, created.map Except.ok = creations effects ∧
      commandsOf effects = created.filter fun cmd => cmd.getCommitSize ≠ 0 := by
  induction effects with
  | nil => exact ⟨[], rfl, rfl⟩
  | cons effect rest ih =>
    obtain ⟨head, others⟩ := List.forall_mem_cons.mp succeed
    obtain ⟨created, same, stored⟩ := ih others
    cases effect with
    | command creation =>
      obtain ⟨cmd, rfl⟩ := head.created
      refine ⟨cmd :: created, ?_, ?_⟩
      · rw [List.map_cons, same]
        rfl
      · rw [commandsOf, List.flatMap_cons, ← commandsOf, stored, List.filter_cons]
        by_cases empty : cmd.getCommitSize = 0
        · simp [added, empty]
        · simp [added, empty]
    | fail error failed => exact head.not_fail.elim
    | check | note | context => exact ⟨created, same, stored⟩

/-- While the effects succeed they create the given commands one after the other, and in the end all of them. -/
structure Creates (effects : List Effect) (commands : List Created) : Prop where
  front : ∀ done left, effects = done ++ left → (∀ effect ∈ done, effect.Succeeds) → creations done <+: commands
  whole : (∀ effect ∈ effects, effect.Succeeds) → creations effects = commands

namespace Creates

theorem single (effect : Effect) : Creates [effect] (creations [effect]) where
  front := by
    intro done left split _
    rcases List.append_eq_cons_iff.mp split.symm with ⟨rfl, -⟩ | ⟨tail, rfl, rest⟩
    · exact List.nil_prefix
    · obtain ⟨rfl, -⟩ := List.append_eq_nil_iff.mp rest.symm
      exact List.prefix_refl _
  whole := fun _ => rfl

theorem nil : Creates [] [] where
  front := by
    intro done left split _
    obtain ⟨rfl, -⟩ := List.append_eq_nil_iff.mp split.symm
    exact List.prefix_refl _
  whole := fun _ => rfl

theorem append (before : Creates first commands) (behind : Creates second others) :
    Creates (first ++ second) (commands ++ others) where
  front := by
    intro done left split succeed
    rcases List.append_eq_append_iff.mp split with ⟨inner, rfl, rest⟩ | ⟨inner, rfl, -⟩
    · obtain ⟨all, more⟩ := List.forall_mem_append.mp succeed
      rw [creations_append, before.whole all]
      exact List.prefix_append_right_inj _ |>.mpr (behind.front inner left rest more)
    · exact (before.front done inner rfl succeed).trans (List.prefix_append ..)
  whole := by
    intro succeed
    obtain ⟨all, more⟩ := List.forall_mem_append.mp succeed
    rw [creations_append, before.whole all, behind.whole more]

/-- Nothing is created behind a refusal. -/
theorem refused (error : ZeResult) (failed : error ≠ ZE_RESULT_SUCCESS) (rest : List Effect) (commands : List Created) :
    Creates (fail error failed :: rest) commands where
  front := by
    intro done left split succeed
    rcases List.append_eq_cons_iff.mp split.symm with ⟨rfl, -⟩ | ⟨tail, rfl, -⟩
    · exact List.nil_prefix
    · exact (List.forall_mem_cons.mp succeed).1.not_fail.elim
  whole := fun succeed => (List.forall_mem_cons.mp succeed).1.not_fail.elim

/-- An effect that creates no command may stand in front. -/
theorem quiet (none : creations [effect] = []) (rest : Creates effects commands) :
    Creates (effect :: effects) commands := by
  have both := (single effect).append rest
  rw [none] at both
  exact both

theorem command (created : Created) (rest : Creates effects commands) :
    Creates (.command created :: effects) (created :: commands) :=
  (single (.command created)).append rest

end Creates

end Effect

open Effect (Creates)

/-- The fence command for the event behind a handle. -/
def eventCommand (create : Nat → Option VPUBufferObject → Created) (hEvent : Option Event) : Created :=
  match hEvent with
  | none => .error .nullptr
  | some event => create event.syncPointer event.associatedBo

/-- One fence wait for each wait event, in the order of the array. -/
def waitCommands (waitEvents : WaitEvents) : List Created :=
  (List.range waitEvents.numWaitEvents).map fun index =>
    eventCommand VPUEventWaitCommand.create (waitEvents.phWaitEvents.bind fun events => events index)

/-- One signal of the signal event, none when it is null. -/
def signalCommands (hSignalEvent : Option Event) : List Created :=
  match hSignalEvent with
  | none => []
  | some _ => [eventCommand VPUEventSignalCommand.create hSignalEvent]

/-- Groups of data commands, each between the waits and the signal. -/
def wrapEach (hSignalEvent : Option Event) (waitEvents : WaitEvents) (groups : List (List Created)) :
    List Created :=
  groups.flatMap fun group => waitCommands waitEvents ++ group ++ signalCommands hSignalEvent

theorem wrapEach_singleton (hSignalEvent : Option Event) (waitEvents : WaitEvents) (group : List Created) :
    wrapEach hSignalEvent waitEvents [group] =
      waitCommands waitEvents ++ group ++ signalCommands hSignalEvent :=
  List.flatMap_singleton ..

/-- The pieces that a fill is split into. -/
def fillTransfers (ptrBo : VPUBufferObject) (fillPattern ptr sizeLeft : Nat) : List Transfer :=
  if sizeLeft = 0 then []
  else
    let fillSize := min sizeLeft CommandList.FILL_SIZE_LIMIT
    .fill ptr ptrBo fillSize fillPattern ::
      fillTransfers ptrBo fillPattern (ptr + fillSize) (sizeLeft - fillSize)
termination_by sizeLeft
decreasing_by simp only [CommandList.FILL_SIZE_LIMIT]; omega

theorem fillTransfers_zero (ptrBo : VPUBufferObject) (fillPattern ptr : Nat) :
    fillTransfers ptrBo fillPattern ptr 0 = [] := by
  rw [fillTransfers, if_pos rfl]

/-- One copy for each row. -/
def rowTransfers (ctx : VPUDeviceContext) (dst src : CommandList.RegionSide) : List Transfer :=
  (List.range dst.region.height).map fun y =>
    .copy ctx (src.rowAddress y) (ctx.findBufferObject (src.rowAddress y)) (dst.rowAddress y)
      (ctx.findBufferObject (dst.rowAddress y)) dst.region.width

namespace AppendOperation

def memoryFillTransfers (ctx : VPUDeviceContext) (ptr patternSize size value : Nat) : List Transfer :=
  if NpuArch.NPU40XX.generation ≤ ctx.hwInfo.npuArch.generation then
    match ctx.findBufferObject ptr with
    | none => []
    | some ptrBo => fillTransfers ptrBo (CommandList.expandPattern value patternSize) ptr size
  else
    match ctx.createUntrackedBufferObject ((size + patternSize) % 2 ^ 64) true with
    | (none, _) => []
    | (some patternBo, next) =>
      [.copy next patternBo.basePtr (some patternBo) ptr (next.findBufferObject ptr) size]

def timestampTransfers (ctx : VPUDeviceContext) (dstptr : Nat) : List Transfer :=
  match ctx.findBufferObject dstptr with
  | none => []
  | some dstBo =>
    match ctx.createUntrackedBufferObject 8 true with
    | (none, _) => []
    | (some alignedBo, next) => [.copy next alignedBo.basePtr (some alignedBo) dstptr (some dstBo) 8]

/-- The copies and fills that an operation consists of. -/
def transfers (ctx : VPUDeviceContext) : AppendOperation → List Transfer
  | memoryCopy dstptr srcptr size _ _ =>
    [.copy ctx srcptr (ctx.findBufferObject srcptr) dstptr (ctx.findBufferObject dstptr) size]
  | memoryFill ptr (some value) patternSize size _ _ => memoryFillTransfers ctx ptr patternSize size value
  | memoryCopyRegion dstptr (some dstRegion) dstPitch dstSlicePitch srcptr (some srcRegion) srcPitch
      srcSlicePitch _ _ =>
    rowTransfers ctx ⟨dstptr, dstRegion, dstPitch, dstSlicePitch⟩
      ⟨srcptr, srcRegion, srcPitch, srcSlicePitch⟩
  | writeGlobalTimestamp dstptr _ _ => timestampTransfers ctx dstptr
  | _ => []

/-- The commands that move the data of an operation. -/
def dataCommands (ctx : VPUDeviceContext) (operation : AppendOperation) : List Created :=
  (operation.transfers ctx).map Transfer.create

/-- The internal buffer of a timestamp is written before it is copied. -/
def timestampStamps (ctx : VPUDeviceContext) (dstptr : Nat) : List Created :=
  match ctx.findBufferObject dstptr with
  | none => []
  | some _ =>
    match ctx.createUntrackedBufferObject 8 true with
    | (none, _) => []
    | (some alignedBo, next) =>
      [VPUTimeStampCommand.create alignedBo.basePtr (some alignedBo) next.hwInfo.fwTimestampType]

/-- The command of a graph execution, when its handles are there. -/
def inferenceCommands (ctx : VPUDeviceContext) (hGraph : Option Graph)
    (hProfilingQuery : Option GraphProfilingQuery) : List Created :=
  match hGraph with
  | none => []
  | some graph =>
    match CommandList.profilingQueryOf graph hProfilingQuery with
    | none => []
    | some profilingQuery => [(CommandList.allocateGraphExecuteCommand graph profilingQuery ctx).1]

/-- The signal event and the wait events of an operation. -/
def events : AppendOperation → Option Event × WaitEvents
  | barrier hSignalEvent waitEvents => (hSignalEvent, waitEvents)
  | memoryCopy _ _ _ hSignalEvent waitEvents => (hSignalEvent, waitEvents)
  | memoryFill _ _ _ _ hSignalEvent waitEvents => (hSignalEvent, waitEvents)
  | memoryCopyRegion _ _ _ _ _ _ _ _ hSignalEvent waitEvents => (hSignalEvent, waitEvents)
  | writeGlobalTimestamp _ hSignalEvent waitEvents => (hSignalEvent, waitEvents)
  | writeGlobalTimestampTo _ hSignalEvent waitEvents => (hSignalEvent, waitEvents)
  | graphInitialize _ hSignalEvent waitEvents => (hSignalEvent, waitEvents)
  | graphExecute _ _ hSignalEvent waitEvents => (hSignalEvent, waitEvents)
  | signalEvent _ => (none, .none)
  | waitOnEvents numEvents phEvent => (none, ⟨numEvents, phEvent⟩)
  | eventReset _ => (none, .none)
  | metricQueryBegin _ => (none, .none)
  | metricQueryEnd _ hSignalEvent waitEvents => (hSignalEvent, waitEvents)

/-- The data commands in their rounds: every row of a region is a round of its own, the pieces of a fill are one
together, and a fill of no bytes by fill commands has none. -/
def rounds (ctx : VPUDeviceContext) : AppendOperation → List (List Created)
  | barrier _ _ => [[VPUBarrierCommand.create]]
  | memoryCopy dstptr srcptr size hSignalEvent waitEvents =>
    [dataCommands ctx (memoryCopy dstptr srcptr size hSignalEvent waitEvents)]
  | memoryFill ptr pattern patternSize size hSignalEvent waitEvents =>
    if NpuArch.NPU40XX.generation ≤ ctx.hwInfo.npuArch.generation ∧ size = 0 then []
    else [dataCommands ctx (memoryFill ptr pattern patternSize size hSignalEvent waitEvents)]
  | memoryCopyRegion dstptr dstRegion dstPitch dstSlicePitch srcptr srcRegion srcPitch srcSlicePitch
      hSignalEvent waitEvents =>
    (dataCommands ctx (memoryCopyRegion dstptr dstRegion dstPitch dstSlicePitch srcptr srcRegion srcPitch
      srcSlicePitch hSignalEvent waitEvents)).map fun created => [created]
  | writeGlobalTimestamp dstptr hSignalEvent waitEvents =>
    [timestampStamps ctx dstptr ++ dataCommands ctx (writeGlobalTimestamp dstptr hSignalEvent waitEvents)]
  | writeGlobalTimestampTo timestampBo _ _ =>
    [[VPUTimeStampCommand.create timestampBo.basePtr (some timestampBo) ctx.hwInfo.fwTimestampType]]
  | graphInitialize hGraph _ _ => [hGraph.toList.map CommandList.allocateGraphInitCommand]
  | graphExecute hGraph hProfilingQuery _ _ => [inferenceCommands ctx hGraph hProfilingQuery]
  | signalEvent hEvent => [[eventCommand VPUEventSignalCommand.create hEvent]]
  | waitOnEvents _ _ => [[]]
  | eventReset hEvent => [[eventCommand VPUEventResetCommand.create hEvent]]
  | metricQueryBegin hMetricQuery =>
    [hMetricQuery.toList.map fun query =>
      VPUQueryBeginCommand.create query.metricGroupMask query.metricAddrPtr query.bo]
  | metricQueryEnd hMetricQuery _ _ =>
    [hMetricQuery.toList.map fun query =>
      VPUQueryEndCommand.create query.metricGroupMask query.metricAddrPtr query.bo]

/-- The commands of an operation in their order: in each round the waits, the data commands and the signal. -/
def series (ctx : VPUDeviceContext) (operation : AppendOperation) : List Created :=
  wrapEach operation.events.1 operation.events.2 (operation.rounds ctx)

end AppendOperation

section Order

theorem eventEffect_creates (create : Nat → Option VPUBufferObject → Created) (hEvent : Option Event) :
    Creates [eventEffect create hEvent] [eventCommand create hEvent] := by
  cases hEvent with
  | none => exact .refused ..
  | some event =>
    by_cases null : event.syncPointer = 0
    · rw [eventEffect, if_pos null]
      exact .refused ..
    · rw [eventEffect, if_neg null]
      exact .command _ .nil

theorem waitEffects_creates (events : Nat → Option Event) (count : Nat) :
    Creates (waitEffects events count) (waitCommands ⟨count, some events⟩) := by
  simp only [waitEffects, waitCommands, Option.bind_some, ← List.range_eq_range']
  induction List.range count with
  | nil => exact .nil
  | cons index rest ih => exact (eventEffect_creates _ (events index)).append ih

theorem waitEventEffects_creates (waitEvents : WaitEvents) :
    Creates (waitEventEffects waitEvents) (waitCommands waitEvents) := by
  obtain ⟨numWaitEvents, phWaitEvents⟩ := waitEvents
  by_cases none : numWaitEvents = 0
  · simp only [waitEventEffects, waitCommands, none, ↓reduceIte]
    exact .nil
  · cases phWaitEvents with
    | none =>
      simp only [waitEventEffects, if_neg none]
      exact .refused ..
    | some events =>
      simp only [waitEventEffects, if_neg none]
      exact .quiet rfl (waitEffects_creates events numWaitEvents)

theorem signalEffects_creates (hSignalEvent : Option Event) :
    Creates (signalEffects hSignalEvent) (signalCommands hSignalEvent) := by
  cases hSignalEvent with
  | none => exact .nil
  | some event => exact .quiet rfl (eventEffect_creates _ (some event))

/-- A group of data effects between the waits and the signal. -/
theorem round_creates (hSignalEvent : Option Event) (waitEvents : WaitEvents) {effects : List Effect}
    {group : List Created} (data : Creates effects group) :
    Creates (waitEventEffects waitEvents ++ effects ++ signalEffects hSignalEvent)
      (wrapEach hSignalEvent waitEvents [group]) := by
  rw [wrapEach_singleton]
  exact ((waitEventEffects_creates waitEvents).append data).append (signalEffects_creates hSignalEvent)

theorem commandEffects_creates (hSignalEvent : Option Event) (waitEvents : WaitEvents) (created : Created) :
    Creates (commandEffects hSignalEvent waitEvents created) (wrapEach hSignalEvent waitEvents [[created]]) := by
  have whole := round_creates hSignalEvent waitEvents (.command created .nil)
  rw [List.append_assoc] at whole
  exact .quiet rfl whole

theorem fillEffects_zero (ptrBo : VPUBufferObject) (fillPattern ptr : Nat) (hSignalEvent : Option Event)
    (waitEvents : WaitEvents) : fillEffects ptrBo fillPattern hSignalEvent ptr 0 waitEvents = [] := by
  rw [fillEffects, if_pos rfl]

/-- Only the first piece of a fill waits and only the last one signals. -/
theorem fillEffects_creates (ptrBo : VPUBufferObject) (fillPattern ptr sizeLeft : Nat) (hSignalEvent : Option Event)
    (waitEvents : WaitEvents) (nonempty : sizeLeft ≠ 0) :
    Creates (fillEffects ptrBo fillPattern hSignalEvent ptr sizeLeft waitEvents)
      (wrapEach hSignalEvent waitEvents [(fillTransfers ptrBo fillPattern ptr sizeLeft).map Transfer.create]) := by
  induction sizeLeft using Nat.strong_induction_on generalizing ptr waitEvents with
  | _ sizeLeft ih =>
    rw [fillEffects, if_neg nonempty, fillTransfers, if_neg nonempty]
    by_cases last : sizeLeft ≤ CommandList.FILL_SIZE_LIMIT
    · -- the whole rest fits into one piece, nothing is left behind it
      have nothing : sizeLeft - min sizeLeft CommandList.FILL_SIZE_LIMIT = 0 := by omega
      simp only [nothing, if_pos last, fillEffects_zero, fillTransfers_zero, List.append_nil]
      exact commandEffects_creates ..
    · have smaller : sizeLeft - min sizeLeft CommandList.FILL_SIZE_LIMIT < sizeLeft := by
        simp only [CommandList.FILL_SIZE_LIMIT] at last ⊢
        omega
      have remaining : sizeLeft - min sizeLeft CommandList.FILL_SIZE_LIMIT ≠ 0 := by omega
      simp only [if_neg last]
      have pieces := (commandEffects_creates none waitEvents
        (VPUFillCommand.create ptr ptrBo (min sizeLeft CommandList.FILL_SIZE_LIMIT) fillPattern)).append
        (ih _ smaller (ptr + min sizeLeft CommandList.FILL_SIZE_LIMIT) .none remaining)
      simpa [wrapEach_singleton, signalCommands, waitCommands, WaitEvents.none, Transfer.create] using pieces

theorem rows_creates (hSignalEvent : Option Event) (waitEvents : WaitEvents) (rows : List Created) :
    Creates (rows.flatMap (commandEffects hSignalEvent waitEvents))
      (wrapEach hSignalEvent waitEvents (rows.map fun created => [created])) := by
  induction rows with
  | nil => exact .nil
  | cons created rest ih =>
    have first := (commandEffects_creates hSignalEvent waitEvents created).append ih
    rwa [wrapEach_singleton] at first

namespace AppendOperation

theorem memoryFillExpansion_creates (ctx : VPUDeviceContext) (ptr patternSize size value : Nat)
    (hSignalEvent : Option Event) (waitEvents : WaitEvents) :
    Creates (memoryFillExpansion ctx ptr patternSize size value hSignalEvent waitEvents)
      (series ctx (memoryFill ptr (some value) patternSize size hSignalEvent waitEvents)) := by
  rw [memoryFillExpansion]
  split
  · exact .refused ..
  · simp only [series, events, rounds, dataCommands, transfers, memoryFillTransfers]
    by_cases hardware : NpuArch.NPU40XX.generation ≤ ctx.hwInfo.npuArch.generation
    · simp only [hardware, if_true, true_and]
      cases ctx.findBufferObject ptr with
      | none => exact .refused ..
      | some ptrBo =>
        by_cases empty : size = 0
        · simp only [empty, if_true, fillEffects_zero]
          exact .nil
        · rw [if_neg empty]
          exact fillEffects_creates ptrBo _ ptr size hSignalEvent waitEvents empty
    · simp only [hardware, if_false, false_and]
      refine .quiet rfl ?_
      generalize ctx.createUntrackedBufferObject ((size + patternSize) % 2 ^ 64) true = answer
      obtain ⟨_ | patternBo, next⟩ := answer
      · exact .quiet rfl (.refused ..)
      · refine .quiet rfl ?_
        split
        · exact .refused ..
        · exact commandEffects_creates ..

theorem regionExpansion_creates (ctx : VPUDeviceContext) (dst src : CommandList.RegionSide)
    (hSignalEvent : Option Event) (waitEvents : WaitEvents) :
    Creates (regionExpansion ctx dst src hSignalEvent waitEvents)
      (wrapEach hSignalEvent waitEvents (((rowTransfers ctx dst src).map Transfer.create).map fun created =>
        [created])) := by
  rw [regionExpansion]
  split
  · exact .refused ..
  · have rows : rowEffects ctx dst src hSignalEvent waitEvents dst.region.height =
        ((rowTransfers ctx dst src).map Transfer.create).flatMap (commandEffects hSignalEvent waitEvents) := by
      rw [rowEffects, rowTransfers, List.map_map, List.flatMap_map, List.range_eq_range']
      rfl
    rw [rows]
    exact rows_creates ..

theorem timestampExpansion_creates (ctx : VPUDeviceContext) (dstptr : Nat) (hSignalEvent : Option Event)
    (waitEvents : WaitEvents) :
    Creates (timestampExpansion ctx dstptr hSignalEvent waitEvents)
      (series ctx (writeGlobalTimestamp dstptr hSignalEvent waitEvents)) := by
  simp only [timestampExpansion, series, events, rounds, timestampStamps, dataCommands, transfers,
    timestampTransfers]
  cases ctx.findBufferObject dstptr with
  | none => exact .refused ..
  | some dstBo =>
    refine .quiet rfl ?_
    generalize ctx.createUntrackedBufferObject 8 true = answer
    obtain ⟨_ | alignedBo, next⟩ := answer
    · exact .quiet rfl (.refused ..)
    · have copied := round_creates hSignalEvent waitEvents (.command
        (VPUTimeStampCommand.create alignedBo.basePtr (some alignedBo) next.hwInfo.fwTimestampType) (.command
        (VPUCopyCommand.create next alignedBo.basePtr (some alignedBo) dstptr (some dstBo) 8) .nil))
      rw [List.append_assoc] at copied
      exact .quiet rfl copied

theorem inferenceExpansion_creates (ctx : VPUDeviceContext) (hGraph : Option Graph)
    (hProfilingQuery : Option GraphProfilingQuery) :
    Creates (inferenceExpansion ctx hGraph hProfilingQuery) (inferenceCommands ctx hGraph hProfilingQuery) := by
  cases hGraph with
  | none => exact .refused ..
  | some graph =>
    simp only [inferenceExpansion, inferenceCommands]
    cases CommandList.profilingQueryOf graph hProfilingQuery with
    | none => exact .refused ..
    | some profilingQuery => exact .quiet rfl (.command _ .nil)

/-- Every operation creates its series in order. -/
theorem expansion_creates (operation : AppendOperation) (list : CommandList) :
    Creates (operation.expansion list) (operation.series list.ctx) := by
  cases operation with
  | barrier hSignalEvent waitEvents => exact commandEffects_creates ..
  | memoryCopy dstptr srcptr size hSignalEvent waitEvents =>
    rw [expansion]
    split
    · exact .refused ..
    · exact commandEffects_creates ..
  | memoryFill ptr pattern patternSize size hSignalEvent waitEvents =>
    simp only [expansion]
    split
    · exact .refused ..
    · cases pattern with
      | none => exact .refused ..
      | some value => exact memoryFillExpansion_creates ..
  | memoryCopyRegion dstptr dstRegion dstPitch dstSlicePitch srcptr srcRegion srcPitch srcSlicePitch
      hSignalEvent waitEvents =>
    simp only [expansion]
    split
    · exact .refused ..
    · cases dstRegion with
      | none => exact .refused ..
      | some dstRegion =>
        cases srcRegion with
        | none => exact .refused ..
        | some srcRegion => exact regionExpansion_creates ..
  | writeGlobalTimestamp dstptr hSignalEvent waitEvents =>
    rw [expansion]
    split
    · exact .refused ..
    · exact timestampExpansion_creates ..
  | writeGlobalTimestampTo timestampBo hSignalEvent waitEvents => exact commandEffects_creates ..
  | graphInitialize hGraph hSignalEvent waitEvents =>
    refine .quiet rfl ?_
    cases hGraph with
    | none =>
      simp only [series, events, rounds, wrapEach_singleton, Option.toList_none, List.map_nil, List.append_assoc]
      exact (waitEventEffects_creates waitEvents).append (.refused ..)
    | some graph =>
      have whole := round_creates hSignalEvent waitEvents
        (.command (CommandList.allocateGraphInitCommand graph) .nil)
      rwa [List.append_assoc] at whole
  | graphExecute hGraph hProfilingQuery hSignalEvent waitEvents =>
    have noted : Effect.creations [.note list.getNumCommands] = [] := rfl
    have whole := round_creates hSignalEvent waitEvents
      (.quiet noted (inferenceExpansion_creates list.ctx hGraph hProfilingQuery))
    rw [List.append_assoc] at whole
    exact .quiet rfl whole
  | signalEvent hEvent => exact .quiet rfl (eventEffect_creates _ hEvent)
  | waitOnEvents numEvents phEvent =>
    have waits : series list.ctx (waitOnEvents numEvents phEvent) = waitCommands ⟨numEvents, phEvent⟩ := by
      rw [series, rounds, wrapEach_singleton, List.append_nil, events, signalCommands, List.append_nil]
    rw [waits]
    cases phEvent with
    | none => exact .refused ..
    | some events =>
      rw [expansion]
      split
      · exact .refused ..
      · exact .quiet rfl (waitEffects_creates events numEvents)
  | eventReset hEvent => exact .quiet rfl (eventEffect_creates _ hEvent)
  | metricQueryBegin hMetricQuery =>
    cases hMetricQuery with
    | none => exact .refused ..
    | some query =>
      refine .quiet rfl ?_
      split
      · exact .command _ .nil
      · exact .refused ..
  | metricQueryEnd hMetricQuery hSignalEvent waitEvents =>
    cases hMetricQuery with
    | none => exact .refused ..
    | some query =>
      rw [expansion]
      split
      · exact commandEffects_creates ..
      · exact .refused ..

/-- What an operation that succeeds adds: the commands of its series, without the empty ones. -/
theorem added_series {operation : AppendOperation} {list next : CommandList}
    (success : operation.append list = (ZE_RESULT_SUCCESS, next)) :
    ∃ created : List VPUCommand, created.map Except.ok = operation.series list.ctx ∧
      next.vpuJob.commands =
        list.vpuJob.commands ++ created.filter (fun cmd => cmd.getCommitSize ≠ 0) ∧
      ∀ effect ∈ operation.expansion list, effect.Succeeds := by
  rw [operation.append_perform list] at success
  obtain ⟨rfl, succeed⟩ := Effect.perform_success success
  obtain ⟨created, same, stored⟩ := Effect.commandsOf_creations succeed
  refine ⟨created, same.trans ((operation.expansion_creates list).whole succeed), ?_, succeed⟩
  rw [Effect.applyAll_vpuJob, stored]

end AppendOperation

end Order

end NpuDriver
