import NpuDriver.Proof.ArgumentValues

/-! Mutating a recorded graph beside recording it again: the same arguments reach the loader. -/

namespace NpuDriver

open Library ZeResult CommandList

/-- The calls on a mutable list that has been closed. -/
inductive MutableCall where
  | updateMutableCommands (commandOrder : MapOrder (Nat × ArgumentUpdatesMap))
      (argumentOrder : MapOrder (Nat × ArgumentUpdates)) (flags : Nat) (pNext : List MutableDesc)
  | executeCommandLists (queue : VPUDeviceQueueManaged) (preemptionBuffer : Option VPUBufferObject)
      (ctx : VPUDeviceContext)
  | waitForCompletion (ctx : VPUDeviceContext)

/-- The updates that are gathered, command by command. -/
def updateCalls (argumentOrder : MapOrder (Nat × ArgumentUpdates)) (updatesMap : CommandUpdatesMap) :
    List JobCall :=
  updatesMap.map fun entry => .setUpdates entry.1 (argumentOrder.order entry.2)

/-- A list with the records of its commands, beside the graph of one of them as the accepted calls of
`setArgumentValue2` would have left it, none where one is rejected. -/
structure Mutated where
  list : CommandList
  records : List Record
  graph : Option ArgumentGraph

namespace Mutated

def jobCall (state : Mutated) (call : JobCall) : Mutated :=
  let next := RecordedJob.run ⟨state.list.vpuJob, state.records⟩ call
  { state with list := { state.list with vpuJob := next.job }, records := next.records }

/-- The command whose arguments are set anew stands at a position of the list. -/
def run (position : Nat) (state : Mutated) : MutableCall → Mutated
  | .updateMutableCommands commandOrder argumentOrder flags pNext =>
    let result := updateMutableCommands commandOrder argumentOrder flags pNext state.list
    match result.1, state.list.gatherCommandUpdates pNext with
    | ZE_RESULT_SUCCESS, .ok updatesMap =>
      { list := result.2
        records := (runFrom RecordedJob.run ⟨state.list.vpuJob, state.records⟩
          (updateCalls argumentOrder (commandOrder.order updatesMap))).records
        graph := state.graph.bind (·.rerecord (requested state.list.commandIdMap position pNext)) }
    | _, _ => { state with list := result.2 }
  | .executeCommandLists queue preemptionBuffer ctx =>
    state.jobCall (.executeCommandLists queue preemptionBuffer ctx)
  | .waitForCompletion ctx => state.jobCall (.waitForCompletion ctx)

/-- A refused call brings nothing new before what it is refused for; an accepted one has strides only for
arguments that support them, and for no argument strides that a later pointer comes without. -/
def Faithful (graph : ArgumentGraph) (position : Nat) (state : Mutated) : MutableCall → Prop
  | .updateMutableCommands commandOrder argumentOrder flags pNext =>
    state.list.isMutable = true → flags = 0 →
      ∀ updatesMap, state.list.gatherCommandUpdates pNext = .ok updatesMap →
        NothingBeforeRefusal argumentOrder state.list.vpuJob.commands (commandOrder.order updatesMap) ∧
          ((∀ entry ∈ updatesMap, AcceptsUpdates state.list.vpuJob.commands entry) →
            ArgumentRequest.StridesLast (requested state.list.commandIdMap position pNext) ∧
              ∀ request ∈ requested state.list.commandIdMap position pNext,
                request.userStrides ≠ none → graph.supportsDynamicStrides request.argIndex = true)
  | .executeCommandLists queue preemptionBuffer ctx =>
    (JobCall.executeCommandLists queue preemptionBuffer ctx).SparesHandles state.list.vpuJob
  | .waitForCompletion ctx => (JobCall.waitForCompletion ctx).SparesHandles state.list.vpuJob

end Mutated

/-- The arguments of a command are those that its record has. -/
theorem argumentAt_wanted {commands : List VPUCommand} {records : List Record}
    (tracked : List.Forall₂ VPUCommand.Tracked commands records) {position : Nat} {record : Record}
    (recorded : records[position]? = some record) (index : Nat) :
    argumentAt commands position index = record.wanted.map (·.at index) := by
  obtain ⟨cmd, present, known⟩ := pointwise_getElem? tracked recorded
  rw [argumentAt, present, ← known.wanted, Option.bind_some, VPUCommand.argument]
  cases cmd.isInference <;> rfl

/-- As many arguments, each of them the same. -/
def Arguments.Agree (first second : Arguments) : Prop :=
  first.inputs.length = second.inputs.length ∧ ∀ index, first.at index = second.at index

theorem Arguments.Agree.alike {first second : Arguments} (agree : first.Agree second) : first.Alike second :=
  alike_of_at agree.1 agree.2

theorem Arguments.Agree.count {first second : Arguments} (agree : first.Agree second) :
    first.count = second.count := by
  obtain ⟨inputs, outputs, -⟩ := agree.alike
  rw [Arguments.count, inputs, outputs, Arguments.count]

/-- The number of arguments that `setUpdates` counts is at most the number there is. -/
theorem VPUCommand.numArgs_count {cmd : VPUCommand} {inference : VPUInferenceExecute}
    (is : cmd.isInference = some inference) {count : Nat} (counted : cmd.numArgs = some count) :
    (safeCastU32 inference.inputs.length).isSome ∧ count ≤ inference.arguments.count := by
  rw [numArgs, is, Option.bind_some] at counted
  obtain ⟨numInputArgs, inputs, rest⟩ := Option.bind_eq_some_iff.mp counted
  obtain ⟨numOutputArgs, outputs, total⟩ := Option.map_eq_some_iff.mp rest
  refine ⟨Option.isSome_of_eq_some inputs, ?_⟩
  rw [safeCastU32_eq inputs, safeCastU32_eq outputs] at total
  rw [← total]
  exact Nat.mod_le _ _

namespace RecordedJob

theorem requests_lengths (updatesMap : ArgumentUpdatesMap) (arguments : Arguments) :
    (updatesMap.foldl Arguments.update arguments).inputs.length = arguments.inputs.length := by
  induction updatesMap generalizing arguments with
  | nil => rfl
  | cons entry rest ih => exact (ih _).trans (arguments.update_lengths entry).1

/-- The command at a position is an inference with so many inputs. -/
def HasInputs (state : RecordedJob) (position inputs : Nat) : Prop :=
  ∃ record arguments, state.records[position]? = some record ∧ record.wanted = some arguments ∧
    arguments.inputs.length = inputs

/-- Updates do not change how many inputs an inference has. -/
theorem HasInputs.setUpdates {state : RecordedJob} {position inputs : Nat} (has : state.HasInputs position inputs)
    (target : Nat) (updatesMap : ArgumentUpdatesMap) :
    (state.run (.setUpdates target updatesMap)).HasInputs position inputs := by
  obtain ⟨record, arguments, recorded, wanted, length⟩ := has
  unfold HasInputs
  simp only [run]
  cases state.job.commands[target]? with
  | none => exact ⟨record, arguments, recorded, wanted, length⟩
  | some cmd =>
    by_cases accepted : (cmd.setUpdates updatesMap).1 = true
    · simp only [accepted, ↓reduceIte]
      by_cases here : target = position
      · subst here
        refine ⟨record.requested updatesMap, updatesMap.foldl Arguments.update arguments, ?_, ?_,
          (requests_lengths updatesMap arguments).trans length⟩
        · rw [List.getElem?_modify_eq, recorded]
          rfl
        · rw [Record.requested, wanted]
          rfl
      · refine ⟨record, arguments, ?_, wanted, length⟩
        rw [List.getElem?_modify_ne _ _ here]
        exact recorded
    · simp only [accepted, Bool.false_eq_true, ↓reduceIte]
      exact ⟨record, arguments, recorded, wanted, length⟩

/-- The loop of `updateMutableCommands`, when it accepts everything, is the run of its updates. -/
theorem run_updateCalls {argumentOrder : MapOrder (Nat × ArgumentUpdates)} {updatesMap : CommandUpdatesMap}
    (distinct : ∀ entry ∈ updatesMap, DistinctKeys entry.2) {state : RecordedJob} (valid : state.Valid)
    {updated : List VPUCommand}
    (loop : setCommandUpdates argumentOrder updatesMap state.job.commands = (ZE_RESULT_SUCCESS, updated)) :
    let final := runFrom run state (updateCalls argumentOrder updatesMap)
    final.job = { state.job with commands := updated } ∧ final.Valid ∧
      ∀ position inputs, state.HasInputs position inputs → final.HasInputs position inputs := by
  induction updatesMap generalizing state with
  | nil =>
    cases loop
    exact ⟨rfl, valid, fun _ _ has => has⟩
  | cons entry rest ih =>
    obtain ⟨target, updates⟩ := entry
    obtain ⟨here, later⟩ := List.forall_mem_cons.mp distinct
    rw [setCommandUpdates] at loop
    cases present : state.job.commands[target]? with
    | none =>
      rw [present] at loop
      cases loop
    | some cmd =>
      rw [present] at loop
      simp only at loop
      have arranged := MapOrder_distinct argumentOrder here
      cases accepted : (cmd.setUpdates (argumentOrder.order updates)).1 with
      | false =>
        generalize cmd.setUpdates (argumentOrder.order updates) = outcome at loop accepted
        obtain ⟨success, changed⟩ := outcome
        obtain rfl : success = false := accepted
        cases loop
      | true =>
        have faithful : state.Faithful (.setUpdates target (argumentOrder.order updates)) := by
          refine ⟨trivial, ?_⟩
          intro position updatesMap same
          cases same
          refine ⟨arranged, ?_⟩
          intro other found count counted
          obtain rfl := Option.some.inj (present.symm.trans found)
          exact .inl ((VPUCommand.setUpdates_accepted counted arranged).accepts.mp accepted)
        have step := valid.run faithful
        have moved : (state.run (.setUpdates target (argumentOrder.order updates))).job =
            { state.job with
              commands := state.job.commands.set target (cmd.setUpdates (argumentOrder.order updates)).2 } := by
          simp only [run, JobCall.run, present]
        have loop_rest : setCommandUpdates argumentOrder rest
            (state.run (.setUpdates target (argumentOrder.order updates))).job.commands =
              (ZE_RESULT_SUCCESS, updated) := by
          rw [moved]
          generalize cmd.setUpdates (argumentOrder.order updates) = outcome at loop accepted
          obtain ⟨success, changed⟩ := outcome
          obtain rfl : success = true := accepted
          exact loop
        obtain ⟨job, finalValid, kept⟩ := ih later step loop_rest
        refine ⟨?_, finalValid, ?_⟩
        · refine job.trans ?_
          rw [moved]
        · intro position inputs has
          exact kept position inputs (has.setUpdates target (argumentOrder.order updates))

/-- Submissions and waits ask for no other arguments. -/
theorem run_wanted {state : RecordedJob} (valid : state.Valid) {call : JobCall}
    (other : ∀ position updatesMap, call ≠ .setUpdates position updatesMap) {position : Nat} {record : Record}
    (recorded : state.records[position]? = some record) :
    ∃ after, (state.run call).records[position]? = some after ∧ after.wanted = record.wanted := by
  cases call with
  | setUpdates target updatesMap => exact absurd rfl (other target updatesMap)
  | executeCommandLists queue preemptionBuffer ctx =>
    simp only [run]
    by_cases closed : state.job.closed = true
    · rw [if_pos closed]
      have fits := (executeJob_attempts (valid.listed closed).divided valid.tracked queue preemptionBuffer ctx).1.fits
      obtain ⟨attempt, attempted, -⟩ := pointwise_getElem? fits.flip recorded
      refine ⟨record.attempted attempt, ?_, ?_⟩
      · exact List.getElem?_zipWith_eq_some.mpr ⟨record, attempt, recorded, attempted, rfl⟩
      · cases attempt <;> rfl
    · rw [if_neg closed]
      exact ⟨record, recorded, rfl⟩
  | waitForCompletion ctx => exact ⟨record, recorded, rfl⟩

end RecordedJob

/-- The arguments after an accepted call: those that the chain names have the last pointer and the last strides
it has for them. -/
theorem updated_at {list : CommandList} {pNext : List MutableDesc} {updated : List VPUCommand}
    (tookEffect : TookEffect list.commandIdMap pNext updated)
    (kept : ∀ position index, ¬ Names list.commandIdMap position index pNext →
      argumentAt updated position index = argumentAt list.vpuJob.commands position index)
    {position : Nat} {arguments changed : Arguments}
    (before : ∀ index, argumentAt list.vpuJob.commands position index = some (arguments.at index))
    (after : ∀ index, argumentAt updated position index = some (changed.at index))
    (ordered : ArgumentRequest.StridesLast (requested list.commandIdMap position pNext)) (index : Nat) :
    changed.at index =
      ((ArgumentRequest.lastFor index (requested list.commandIdMap position pNext)).map fun request =>
        (some request.pTensor, request.userStrides)).getD (arguments.at index) := by
  have pointers := assigned_requested list.commandIdMap position index pNext none
  have strides := assignedStrides_requested list.commandIdMap position index pNext none none
  by_cases named : Names list.commandIdMap position index pNext
  · obtain ⟨cmd, present, -, pointer, given, argument⟩ := tookEffect position index named
    have found := after index
    rw [argumentAt, present, Option.bind_some, argument] at found
    rw [given, Option.or_none] at pointers
    obtain ⟨request, last, pointer_eq⟩ := Option.map_eq_some_iff.mp pointers.symm
    rw [← Option.some.inj found, last, strides, ordered.lastStrides last, ← pointer_eq]
    simp
  · have nothing : ArgumentRequest.lastFor index (requested list.commandIdMap position pNext) = none := by
      by_contra some_request
      obtain ⟨request, last⟩ := Option.ne_none_iff_exists'.mp some_request
      obtain ⟨member, here⟩ := ArgumentRequest.lastFor_some last
      apply named
      rw [← here]
      exact requested_names request member
    rw [nothing]
    have same := kept position index named
    rw [before, after] at same
    exact Option.some.inj same

/-- The re-recorded graph takes what an accepted call requests. -/
theorem requests_accepted {list : CommandList} {pNext : List MutableDesc} {updatesMap : CommandUpdatesMap}
    (gather : list.gatherCommandUpdates pNext = .ok updatesMap)
    (accepted : ∀ entry ∈ updatesMap, AcceptsUpdates list.vpuJob.commands entry) {position : Nat}
    {cmd : VPUCommand} (present : list.vpuJob.commands[position]? = some cmd) {inference : VPUInferenceExecute}
    (is : cmd.isInference = some inference) {rerecorded : ArgumentGraph}
    (agree : inference.arguments.Agree rerecorded.arguments)
    (supported : ∀ request ∈ requested list.commandIdMap position pNext,
      request.userStrides ≠ none → rerecorded.supportsDynamicStrides request.argIndex = true) :
    ∀ request ∈ requested list.commandIdMap position pNext, rerecorded.Accepts request := by
  intro request member
  obtain ⟨updates, update, -, listed, inner, -⟩ := gathered_named gather (requested_names request member)
  obtain ⟨other, count, found, counted, within⟩ := accepted _ listed
  obtain rfl := Option.some.inj (present.symm.trans found)
  obtain ⟨inputs, total⟩ := VPUCommand.numArgs_count is counted
  constructor
  · rw [rerecorded.counted]
    have same : rerecorded.arguments.count = inference.arguments.count := agree.count.symm
    exact Nat.lt_of_lt_of_le (within _ inner) (total.trans (Nat.le_of_eq same.symm))
  · have length : rerecorded.inputArgs.length = inference.inputs.length := agree.1.symm
    rw [length]
    exact inputs
  · exact supported request member

namespace Mutated

/-- The graph has the arguments that were asked for last, as it would be recorded again. -/
structure Mirrors (graph : ArgumentGraph) (position : Nat) (state : Mutated) : Prop where
  valid : RecordedJob.Valid ⟨state.list.vpuJob, state.records⟩
  mirrored : ∃ record arguments rerecorded, state.records[position]? = some record ∧
    record.wanted = some arguments ∧ state.graph = some rerecorded ∧
    ArgumentGraph.SameGraph graph rerecorded ∧ arguments.Agree rerecorded.arguments

theorem Mirrors.jobCall {graph : ArgumentGraph} {position : Nat} {state : Mutated}
    (mirrors : state.Mirrors graph position) {call : JobCall}
    (other : ∀ target updatesMap, call ≠ .setUpdates target updatesMap)
    (spares : call.SparesHandles state.list.vpuJob) : (state.jobCall call).Mirrors graph position := by
  obtain ⟨valid, record, arguments, rerecorded, recorded, wanted, mirrored, same, agree⟩ := mirrors
  constructor
  · exact valid.run ⟨spares, fun target updatesMap equal => absurd equal (other target updatesMap)⟩
  · obtain ⟨after, found, asked⟩ := RecordedJob.run_wanted valid other recorded
    exact ⟨after, arguments, rerecorded, found, asked.trans wanted, mirrored, same, agree⟩

theorem Mirrors.update {graph : ArgumentGraph} {position : Nat} {state : Mutated}
    (mirrors : state.Mirrors graph position) {commandOrder : MapOrder (Nat × ArgumentUpdatesMap)}
    {argumentOrder : MapOrder (Nat × ArgumentUpdates)} {flags : Nat} {pNext : List MutableDesc}
    (faithful : state.Faithful graph position (.updateMutableCommands commandOrder argumentOrder flags pNext)) :
    (state.run position (.updateMutableCommands commandOrder argumentOrder flags pNext)).Mirrors graph
      position := by
  obtain ⟨valid, record, arguments, rerecorded, recorded, wanted, mirrored, same, agree⟩ := mirrors
  by_cases success : (updateMutableCommands commandOrder argumentOrder flags pNext state.list).1 = ZE_RESULT_SUCCESS
  · obtain ⟨updatesMap, updated, ⟨mutable, zero⟩, gather, maps, accepted, loop, result, tookEffect⟩ :=
      updateMutableCommands_accepted success
    have perm := commandOrder.perm updatesMap
    have all : ∀ entry ∈ updatesMap, AcceptsUpdates state.list.vpuJob.commands entry := fun entry member =>
      accepted entry (perm.mem_iff.mpr member)
    obtain ⟨ordered, supported⟩ := (faithful mutable zero updatesMap gather).2 all
    obtain ⟨-, kept, -⟩ := updateMutableCommands_argument commandOrder argumentOrder flags pNext state.list
    obtain ⟨job, finalValid, inputs⟩ := @RecordedJob.run_updateCalls argumentOrder (commandOrder.order updatesMap)
      (fun entry member => maps.arguments entry (perm.mem_iff.mp member)) ⟨state.list.vpuJob, state.records⟩
      valid updated loop
    obtain ⟨after, changed, found, asked, length⟩ :=
      inputs position arguments.inputs.length ⟨record, arguments, recorded, wanted, rfl⟩
    have next : state.run position (.updateMutableCommands commandOrder argumentOrder flags pNext) =
        { list := { state.list with vpuJob := { state.list.vpuJob with commands := updated } }
          records := (runFrom RecordedJob.run ⟨state.list.vpuJob, state.records⟩
            (updateCalls argumentOrder (commandOrder.order updatesMap))).records
          graph := state.graph.bind (·.rerecord (requested state.list.commandIdMap position pNext)) } := by
      simp only [run, success, gather, result]
    have valid_next : RecordedJob.Valid ⟨{ state.list.vpuJob with commands := updated },
        (runFrom RecordedJob.run ⟨state.list.vpuJob, state.records⟩
          (updateCalls argumentOrder (commandOrder.order updatesMap))).records⟩ := by
      rw [← job]
      exact finalValid
    have before : ∀ index, argumentAt state.list.vpuJob.commands position index = some (arguments.at index) := by
      intro index
      rw [argumentAt_wanted valid.tracked recorded, wanted]
      rfl
    have now : ∀ index, argumentAt updated position index = some (changed.at index) := by
      intro index
      rw [argumentAt_wanted valid_next.tracked found, asked]
      rfl
    rw [result] at kept
    have changes := updated_at tookEffect kept before now ordered
    obtain ⟨cmd, present, known⟩ := pointwise_getElem? valid.tracked recorded
    obtain ⟨inference, is, arguments_eq⟩ := Option.map_eq_some_iff.mp (known.wanted.trans wanted)
    have takes := @requests_accepted state.list pNext updatesMap gather all position cmd present inference is
      rerecorded (arguments_eq ▸ agree) fun request member given =>
        (same.supports request.argIndex).trans (supported request member given)
    obtain ⟨final, again, sameFinal, final_arguments⟩ := ArgumentGraph.rerecord_accepted takes
    rw [next]
    refine ⟨valid_next, after, changed, final, found, asked, ?_, same.trans sameFinal, ?_⟩
    · rw [mirrored]
      exact again
    · have inside : ∀ request ∈ requested state.list.commandIdMap position pNext,
          request.argIndex < rerecorded.arguments.count := by
        intro request member
        have bound := (takes request member).inside
        rw [rerecorded.counted] at bound
        exact bound
      rw [final_arguments]
      constructor
      · rw [RecordedJob.requests_lengths]
        exact length.trans agree.1
      · intro index
        rw [changes index, Arguments.requests_at inside, agree.2 index]
  · have unchanged := updateMutableCommands_refused
      (fun mutable zero updatesMap gather => (faithful mutable zero updatesMap gather).1) success
    have stays : state.run position (.updateMutableCommands commandOrder argumentOrder flags pNext) = state := by
      simp only [run]
      split
      · rename_i accepted _
        exact absurd accepted success
      · rw [unchanged]
    rw [stays]
    exact ⟨valid, record, arguments, rerecorded, recorded, wanted, mirrored, same, agree⟩

theorem Mirrors.run {graph : ArgumentGraph} {position : Nat} {state : Mutated} {call : MutableCall}
    (mirrors : state.Mirrors graph position) (faithful : state.Faithful graph position call) :
    (state.run position call).Mirrors graph position := by
  cases call with
  | updateMutableCommands commandOrder argumentOrder flags pNext => exact mirrors.update faithful
  | executeCommandLists queue preemptionBuffer ctx => exact mirrors.jobCall nofun faithful
  | waitForCompletion ctx => exact mirrors.jobCall nofun faithful

end Mutated

/-- Where the arguments lie depends on the sizes that the loader has for them only. -/
theorem findArgumentBuffers_sizes {first second : HostParsedInference}
    (inputs : second.inputSizes = first.inputSizes) (outputs : second.outputSizes = first.outputSizes)
    (ctx : VPUDeviceContext) (inputPtrs outputPtrs : List Nat) (profilingQuery : Option GraphProfilingQuery) :
    findArgumentBuffers ctx second inputPtrs outputPtrs profilingQuery =
      findArgumentBuffers ctx first inputPtrs outputPtrs profilingQuery := by
  unfold findArgumentBuffers
  rw [inputs, outputs]

/-- The loader parses the graph of an inference once more: the arguments have the same sizes, and the parsed
inference has a buffer whose size a command can hold. -/
structure Reparses (hpi : HostParsedInference) (parsed : ParsedInference) : Prop where
  inputSizes : parsed.hpi.inputSizes = hpi.inputSizes
  outputSizes : parsed.hpi.outputSizes = hpi.outputSizes
  sized : ∃ hpiBo internal, parsed.bos = hpiBo :: internal ∧ (safeCastU32 hpiBo.allocSize).isSome

/-- An inference is created when the buffers of its arguments are found and the loader accepts them. -/
theorem VPUInferenceExecute.create_succeeds {ctx : VPUDeviceContext} {hpi : HostParsedInference}
    {parsed : ParsedInference} (reparses : Reparses hpi parsed) {inputs outputs : List Nat}
    {profilingQuery : Option GraphProfilingQuery} {userBos : List VPUBufferObject}
    (found : findArgumentBuffers ctx hpi inputs outputs profilingQuery = some userBos)
    (loads : ctx.loader ctx.applied = true) (parser : ElfParser)
    (inputStrides outputStrides : Nat → Option ArgumentStrides) :
    ∃ cmd, (create ctx parser parsed.hpi inputs outputs inputStrides outputStrides profilingQuery
      parsed.inferenceId parsed.bos).1 = .ok cmd := by
  obtain ⟨sameInputs, sameOutputs, hpiBo, internal, bos, sized⟩ := reparses
  obtain ⟨width, cast⟩ := Option.isSome_iff_exists.mp sized
  unfold create applyInputOutputs
  rw [findArgumentBuffers_sizes sameInputs sameOutputs, found, bos]
  simp only [loads, ↓reduceIte, cast]
  exact ⟨_, rfl⟩

namespace CommandList

/-- A list that nothing has been appended to. -/
def freshList (ctx : VPUDeviceContext) : CommandList := ⟨true, ctx, .empty, fun _ => none⟩

/-- Recording a graph into a fresh list leaves its command alone there. -/
theorem appendGraphExecute_fresh {graph : Graph} {hProfilingQuery : Option GraphProfilingQuery}
    {profilingQuery : Option GraphProfilingQuery} (query : profilingQueryOf graph hProfilingQuery = some profilingQuery)
    {ctx : VPUDeviceContext} {cmd : VPUCommand}
    (created : (allocateGraphExecuteCommand graph profilingQuery ctx).1 = .ok cmd)
    {inference : VPUInferenceExecute} (is : cmd.isInference = some inference) :
    (appendGraphExecute (some graph) hProfilingQuery none .none (freshList ctx)).1 = ZE_RESULT_SUCCESS ∧
      (appendGraphExecute (some graph) hProfilingQuery none .none (freshList ctx)).2.vpuJob.commands = [cmd] := by
  have nonempty : cmd.getCommitSize ≠ 0 := by
    rcases cmd.getCommitSize_cases with ⟨base, -⟩ | large
    · simp [VPUCommand.isInference, base] at is
    · intro zero
      rw [zero] at large
      cases large
  generalize answer : allocateGraphExecuteCommand graph profilingQuery ctx = result at created
  obtain ⟨outcome, next⟩ := result
  obtain rfl : outcome = .ok cmd := created
  simp [appendGraphExecute, checkCommandAppendCondition, isCmdListClosed, freshList, VPUJob.empty, Append.andThen,
    appendWaitEvents, WaitEvents.none, Append.success, noteCommandId, getNumCommands, VPUJob.getNumCommands,
    appendInference, query, answer, appendCommand, pushCommand, VPUJob.appendCommand, nonempty, appendSignal]

/-- Recording a graph into a fresh list succeeds and gives an inference with the arguments of the graph, whose
buffers are the given ones. -/
def RecordsAfresh (graph : Graph) (hProfilingQuery : Option GraphProfilingQuery) (ctx : VPUDeviceContext)
    (bos : List VPUBufferObject) : Prop :=
  let recorded := appendGraphExecute (some graph) hProfilingQuery none .none (freshList ctx)
  ∃ cmd inference, recorded.1 = ZE_RESULT_SUCCESS ∧ recorded.2.vpuJob.commands = [cmd] ∧
    cmd.isInference = some inference ∧
    inference.arguments = ⟨graph.inputArgs, graph.outputArgs, graph.inputStrides, graph.outputStrides⟩ ∧
    cmd.bufferObjects =
      appendAssociateBufferObjects (cmd.bufferObjects.take inference.userArgIndex) bos ∧
    inference.userArgHandles = bos.map VPUBufferObject.handle

/-- A graph is recorded afresh where its arguments have once been found and accepted. -/
theorem recordsAfresh {graph : Graph} {hpi : HostParsedInference} {parsed : ParsedInference}
    (reparses : Reparses hpi parsed) {hProfilingQuery profilingQuery : Option GraphProfilingQuery}
    (query : profilingQueryOf graph hProfilingQuery = some profilingQuery) {ctx : VPUDeviceContext}
    {bos : List VPUBufferObject}
    (found : findArgumentBuffers ctx hpi graph.inputArgs graph.outputArgs profilingQuery = some bos)
    (loads : ctx.loader ctx.applied = true) :
    RecordsAfresh { graph with acquired := .ok parsed } hProfilingQuery ctx bos := by
  obtain ⟨cmd, created⟩ := VPUInferenceExecute.create_succeeds reparses found loads graph.parser
    graph.inputStrides graph.outputStrides
  obtain ⟨inference, userBos, is, same, -, -, -, arguments, -, objects, handles⟩ :=
    VPUInferenceExecute.create_arguments created
  rw [findArgumentBuffers_sizes reparses.inputSizes reparses.outputSizes, found] at same
  obtain rfl := Option.some.inj same
  obtain ⟨success, commands⟩ := @appendGraphExecute_fresh { graph with acquired := .ok parsed } hProfilingQuery
    profilingQuery query ctx cmd created inference is
  exact ⟨cmd, inference, success, commands, is, arguments, objects, handles⟩

end CommandList

/-- In every run of a list whose refused calls bring nothing new and whose accepted ones have strides only for
arguments that support them and for none strides that a later pointer comes without, the graph, taken with its
arguments as it was recorded, accepts the values of all the accepted calls by `setArgumentValue2`; and a
submission that succeeds runs the inference, unless an update of it has failed since, with the arguments that
the graph then has and in the buffers that it is recorded afresh with. -/
theorem mutated_runs_as_rerecorded {commands : List VPUCommand} {records : List Record} {ctx : VPUDeviceContext}
    (created : List.Forall₂ VPUCommand.CreatedAs commands records)
    (closes : (VPUJob.closeCommands ⟨commands, [], false, false⟩ ctx).1 = true) {list : CommandList}
    (closed : list.vpuJob = (VPUJob.closeCommands ⟨commands, [], false, false⟩ ctx).2.1)
    {position : Nat} {record : Record} (recorded : records[position]? = some record) {graph : ArgumentGraph}
    (own : record.wanted = some graph.arguments) {calls : List MutableCall} {queue : VPUDeviceQueueManaged}
    {preemptionBuffer : Option VPUBufferObject} {final : VPUDeviceContext}
    (faithful : Guarded (Mutated.run position) (Mutated.Faithful graph position) ⟨list, records, some graph⟩
      (calls ++ [.executeCommandLists queue preemptionBuffer final])) :
    let state := runFrom (Mutated.run position) ⟨list, records, some graph⟩ calls
    let executed := executeJob queue preemptionBuffer state.list.vpuJob final
    let submitted := state.run position (.executeCommandLists queue preemptionBuffer final)
    state.list.vpuJob.closed = true → executed.result = .ZE_RESULT_SUCCESS →
      submitted.list.vpuJob = executed.job ∧
      (∃ rerecorded latest noted cmd inference, state.graph = some rerecorded ∧
        state.records[position]? = some latest ∧ submitted.records[position]? = some noted ∧
        executed.job.commands[position]? = some cmd ∧ cmd.isInference = some inference ∧
        (latest.failed = false → ∃ patch, noted.patched = some patch ∧
          inference.arguments = patch.arguments ∧ patch.arguments.Alike rerecorded.arguments ∧
          cmd.bufferObjects =
            appendAssociateBufferObjects (cmd.bufferObjects.take inference.userArgIndex) patch.bos ∧
          inference.userArgHandles = patch.bos.map VPUBufferObject.handle ∧
          ∀ parsed hProfilingQuery, Reparses inference.hpi parsed →
            profilingQueryOf graph.toGraph hProfilingQuery = some inference.profilingQuery →
              RecordsAfresh { rerecorded.toGraph with acquired := .ok parsed } hProfilingQuery patch.ctx
                patch.bos)) ∧
      ∃ added, executed.ctx.calls = final.calls ++ added ∧
        ∀ buffer handles index id accepted, .submit buffer handles index id accepted ∈ added →
          ∃ share ∈ (handedJob queue preemptionBuffer state.list.vpuJob final).job.shares,
            share.cmdBuffer.buffer = buffer ∧ Complete share.cmdBuffer share.commands handles := by
  intro state executed submitted ready success
  have initial : Mutated.Mirrors graph position ⟨list, records, some graph⟩ := by
    refine ⟨?_, record, graph.arguments, graph, recorded, own, rfl, ⟨rfl, rfl, rfl⟩, rfl, fun _ => rfl⟩
    rw [closed]
    exact RecordedJob.Valid.closed created closes
  obtain ⟨before, spares, -⟩ := guarded_append.mp faithful
  have mirrors : state.Mirrors graph position :=
    guarded_invariant (fun _ _ => Mutated.Mirrors.run) initial before
  obtain ⟨valid, latest, arguments, rerecorded, found, wanted, mirrored, sameGraph, agree⟩ := mirrors
  have listed := valid.listed ready
  obtain ⟨goes, updates⟩ := executeJob_attempts listed.divided valid.tracked queue preemptionBuffer final
  rw [updates success] at goes
  have same : submitted.list.vpuJob = executed.job := if_pos ready
  have noted_eq : submitted.records = List.zipWith Record.attempted state.records
      (state.list.vpuJob.attempts final) := if_pos ready
  refine ⟨same, ?_, listed.submits ready spares⟩
  obtain ⟨cmd, present⟩ := goes.command_at found
  obtain ⟨other, noted, foundOther, foundNoted, tracked, settled, kept, whole, -⟩ := goes.at present
  obtain rfl := Option.some.inj (found.symm.trans foundOther)
  obtain ⟨inference, is, arguments_eq⟩ := Option.map_eq_some_iff.mp (tracked.wanted.trans (kept.trans wanted))
  refine ⟨rerecorded, latest, noted, cmd, inference, mirrored, found, ?_, present, is, ?_⟩
  · rw [noted_eq]
    exact foundNoted
  · intro fresh
    obtain ⟨patch, patched, asked, loads, buffers, objects, handles⟩ :=
      tracked.settled inference is (settled inference is) (whole fresh)
    have patch_eq : patch.arguments = arguments := Option.some.inj (asked.symm.trans (kept.trans wanted))
    have alike : patch.arguments.Alike rerecorded.arguments := by
      rw [patch_eq]
      exact agree.alike
    refine ⟨patch, patched, arguments_eq.trans patch_eq.symm, alike, objects, handles, ?_⟩
    intro parsed hProfilingQuery reparses query
    rw [alike.inputs, alike.outputs] at buffers
    unfold profilingQueryOf at query
    rw [← sameGraph.profilingOutputSize] at query
    exact recordsAfresh reparses query buffers loads

/-- The graph of the inference on the first user buffer; its input has fixed strides. -/
def argumentGraph : ArgumentGraph where
  parser := ⟨0⟩
  inputArgs := [firstArgument.basePtr]
  outputArgs := []
  inputStrides := fun _ => none
  outputStrides := fun _ => none
  profilingOutputSize := 0
  initialized := .ok ()
  acquired := .ok ⟨7, ⟨1, [64], []⟩, [inferenceBuffer]⟩
  argumentProperties := [⟨false⟩]
  counted := rfl

/-- The input of the inference moves to the second user buffer. -/
def moveInput : MutableCall :=
  .updateMutableCommands insertionOrder insertionOrder 0 [.graphArgument 0 0 secondArgument.basePtr]

def mutatedInference : Mutated := ⟨inferenceList, [argumentRecord], some argumentGraph⟩

theorem moveInput_faithful : mutatedInference.Faithful argumentGraph 0 moveInput := by
  intro _ _ updatesMap gather
  have only : updatesMap = [(0, [(0, ⟨some secondArgument.basePtr, none⟩)])] :=
    (Except.ok.inj gather).symm
  subst only
  have numArgs : (closedJob [argumentInference]).commands[0]?.bind VPUCommand.numArgs = some 1 := by decide +kernel
  obtain ⟨cmd, present, counted⟩ := Option.bind_eq_some_iff.mp numArgs
  constructor
  · intro front refused back split _ first
    cases front with
    | nil =>
      cases split
      exact absurd ⟨cmd, 1, present, counted, by simp⟩ first
    | cons entry rest =>
      cases rest with
      | nil => cases split
      | cons _ _ => cases split
  · intro _
    have request_eq : requested mutatedInference.list.commandIdMap 0 [.graphArgument 0 0 secondArgument.basePtr] =
        [⟨0, secondArgument.basePtr, none⟩] := rfl
    rw [request_eq]
    constructor
    · intro _ _ _ _ other member _
      rw [List.mem_singleton.mp member]
    · intro request member given
      rw [List.mem_singleton.mp member] at given
      exact absurd rfl given

theorem mutated_runs_as_rerecorded_moved :
    let state := runFrom (Mutated.run 0) mutatedInference [moveInput]
    let executed := executeJob defaultQueue none state.list.vpuJob argumentContext
    executed.result = .ZE_RESULT_SUCCESS ∧
      ∃ (rerecorded : ArgumentGraph) (patch : LoaderPatch),
        state.graph = some rerecorded ∧ rerecorded.inputArgs = [secondArgument.basePtr] ∧
        patch.arguments.Alike rerecorded.arguments ∧
        RecordsAfresh { rerecorded.toGraph with acquired := .ok ⟨8, ⟨2, [64], []⟩, [inferenceBuffer]⟩ } none
          patch.ctx patch.bos := by
  intro state executed
  have success : executed.result = .ZE_RESULT_SUCCESS := by decide +kernel
  refine ⟨success, ?_⟩
  have spares : (JobCall.executeCommandLists defaultQueue none argumentContext).SparesHandles
      (mutatedInference.run 0 moveInput).list.vpuJob := by decide +kernel
  obtain ⟨-, ⟨rerecorded, latest, noted, cmd, inference, mirrored, found, -, present, is, fresh⟩, -⟩ :=
    @mutated_runs_as_rerecorded [argumentInference] [argumentRecord] argumentContext argumentRecord_created
      (by decide +kernel) inferenceList rfl 0 argumentRecord rfl argumentGraph rfl [moveInput] defaultQueue none
      argumentContext ⟨moveInput_faithful, spares, trivial⟩ (by decide +kernel) success
  have whole : state.records[0]?.map Record.failed = some false := by decide +kernel
  have moved : state.graph.map (fun graph => graph.inputArgs) = some [secondArgument.basePtr] := by decide +kernel
  have parsed : (executed.job.commands[0]?.bind VPUCommand.isInference).map
      (fun inference => (inference.hpi, inference.profilingQuery)) = some (⟨1, [64], []⟩, none) := by decide +kernel
  change state.records[0]? = some latest at found
  change state.graph = some rerecorded at mirrored
  change executed.job.commands[0]? = some cmd at present
  rw [found] at whole
  rw [mirrored] at moved
  rw [present, Option.bind_some, is] at parsed
  obtain ⟨hpi, query⟩ := Prod.mk.inj (Option.some.inj parsed)
  obtain ⟨patch, -, -, alike, -, -, records⟩ := fresh (Option.some.inj whole)
  refine ⟨rerecorded, patch, mirrored, Option.some.inj moved, alike, ?_⟩
  apply records
  · rw [hpi]
    exact ⟨rfl, rfl, inferenceBuffer, [], rfl, rfl⟩
  · rw [query]
    rfl

/-- The input moves to a buffer that is not tracked when the list is submitted. A second submission succeeds
with the buffer tracked, and runs the inference with the input that it had before, while the graph is recorded
afresh with the new one. Strides for an input with fixed ones are taken by an update call and handed to the
loader by the submission, while `setArgumentValue2` rejects them. -/
theorem mutated_runs_otherwise :
    (let state := runFrom (Mutated.run 0) mutatedInference
        [moveInput, .executeCommandLists defaultQueue none (grantingContext [firstArgument])]
      let submitted := state.run 0 (.executeCommandLists defaultQueue none argumentContext)
      (executeJob defaultQueue none state.list.vpuJob argumentContext).result = .ZE_RESULT_SUCCESS ∧
        submitted.records.map (fun record => record.patched.map fun patch => patch.arguments.inputs) =
          [some [firstArgument.basePtr]] ∧
        state.graph.map (fun graph => graph.inputArgs) = some [secondArgument.basePtr] ∧
        state.graph.map (fun graph =>
          (appendGraphExecute (some graph.toGraph) none none .none (freshList argumentContext)).1) =
            some ZE_RESULT_SUCCESS) ∧
      let call := .updateMutableCommands insertionOrder insertionOrder 0
        [.graphArgument 0 0 secondArgument.basePtr, .strides [2, 1]]
      let state := mutatedInference.run 0 call
      let submitted := state.run 0 (.executeCommandLists defaultQueue none argumentContext)
      (executeJob defaultQueue none state.list.vpuJob argumentContext).result = .ZE_RESULT_SUCCESS ∧
        submitted.records.map (fun record => record.patched.map fun patch => patch.arguments.inputStrides 0) =
          [some (some [2, 1])] ∧
        (argumentGraph.setArgumentValue2 0 [.tensor secondArgument.basePtr, .strides [2, 1]]).1 =
          ZE_RESULT_ERROR_INVALID_ARGUMENT := by
  constructor
  · intro state submitted
    refine ⟨by decide +kernel, by decide +kernel, by decide +kernel, ?_⟩
    decide +kernel
  · intro call state submitted
    refine ⟨by decide +kernel, by decide +kernel, ?_⟩
    decide +kernel

end NpuDriver
