import NpuDriver.Proof.PatchedInferences

/-! When a submission runs every inference with the arguments of its latest update. -/

namespace NpuDriver

open Library VPUCommandBuffer

theorem VPUInferenceExecute.updateArgument_arguments (inference : VPUInferenceExecute) (index : Nat)
    (update : ArgumentUpdates) :
    (inference.updateArgument inference.inputs.length index update).arguments =
      inference.arguments.update (index, update) := by
  unfold updateArgument Arguments.update
  split
  · rename_i input
    exact (if_pos input).symm
  · rename_i output
    exact (if_neg output).symm

/-- Updates that are accepted are carried out one by one. -/
theorem VPUInferenceExecute.updateArguments_arguments {inference : VPUInferenceExecute} {numInputArgs : Nat}
    (inputs : numInputArgs = inference.inputs.length) {numArgs : Nat} {updates : ArgumentUpdatesMap}
    (accepted : (inference.updateArguments numInputArgs numArgs updates).1 = true) :
    (inference.updateArguments numInputArgs numArgs updates).2.arguments =
        updates.foldl Arguments.update inference.arguments ∧
      (inference.updateArguments numInputArgs numArgs updates).2.userArgIndex = inference.userArgIndex := by
  induction updates generalizing inference with
  | nil => exact ⟨rfl, rfl⟩
  | cons entry rest ih =>
    obtain ⟨index, update⟩ := entry
    rw [updateArguments] at accepted ⊢
    split at accepted
    · cases accepted
    · rename_i inside
      subst inputs
      have same := inference.updateArgument_same index update
      obtain ⟨arguments, position⟩ := ih same.inputs.symm accepted
      rw [if_neg inside, List.foldl_cons, ← inference.updateArgument_arguments]
      refine ⟨arguments, position.trans ?_⟩
      unfold updateArgument
      split
      · rfl
      · rfl

namespace VPUCommand

/-- An accepted update leaves the arguments that it asks for pending. -/
theorem setUpdates_pending {cmd : VPUCommand} {updates : ArgumentUpdatesMap}
    (accepted : (cmd.setUpdates updates).1 = true) :
    ∃ inference updated, cmd.isInference = some inference ∧
      (cmd.setUpdates updates).2.isInference = some updated ∧
      updated.arguments = updates.foldl Arguments.update inference.arguments ∧
      updated.userArgIndex = inference.userArgIndex ∧
      (cmd.setUpdates updates).2.bufferObjects = cmd.bufferObjects ∧
      (cmd.setUpdates updates).2.cmdNeedsUpdate = true := by
  unfold setUpdates at accepted ⊢
  cases kind : cmd.command with
  | inferenceExecute inference =>
    have is : cmd.isInference = some inference := by simp [isInference, kind]
    rw [kind] at accepted
    cases inputs : safeCastU32 inference.inputs.length with
    | none => simp [inputs] at accepted
    | some numInputArgs =>
      cases outputs : safeCastU32 inference.outputs.length with
      | none => simp [inputs, outputs] at accepted
      | some numOutputArgs =>
        have asked := @VPUInferenceExecute.updateArguments_arguments inference numInputArgs
          (safeCastU32_eq inputs) ((numInputArgs + numOutputArgs) % 2 ^ 32) updates
        simp only [inputs, outputs] at accepted ⊢
        generalize inference.updateArguments numInputArgs ((numInputArgs + numOutputArgs) % 2 ^ 32) updates =
          result at accepted asked
        obtain ⟨success, updated⟩ := result
        cases success with
        | false => cases accepted
        | true =>
          obtain ⟨arguments, index⟩ := asked rfl
          exact ⟨inference, updated, is, rfl, arguments, index, rfl, rfl⟩
  | _ =>
    rw [kind] at accepted
    cases accepted

/-- A refused update brings nothing new before the index that it is refused for. -/
def RefusesCleanly (cmd : VPUCommand) (updates : ArgumentUpdatesMap) : Prop :=
  ∀ count, cmd.numArgs = some count → (∀ update ∈ updates, update.1 < count) ∨
    ∀ update ∈ updates.takeWhile (fun update => update.1 < count), cmd.RepeatsUpdate update

theorem RefusesCleanly.unchanged {cmd : VPUCommand} {updates : ArgumentUpdatesMap}
    (clean : cmd.RefusesCleanly updates) (distinct : DistinctKeys updates)
    (refused : (cmd.setUpdates updates).1 ≠ true) : (cmd.setUpdates updates).2 = cmd := by
  cases counted : cmd.numArgs with
  | none => rw [setUpdates_refused counted]
  | some count =>
    have spec := setUpdates_accepted counted distinct
    rcases clean count counted with all | repeats
    · exact absurd (spec.accepts.mpr all) refused
    · refine spec.unchanged.mpr ⟨repeats, ?_⟩
      intro all
      exact absurd (spec.accepts.mpr all) refused

theorem Tracked.requested {cmd : VPUCommand} {record : Record} (tracked : cmd.Tracked record)
    {updates : ArgumentUpdatesMap} (accepted : (cmd.setUpdates updates).1 = true) :
    (cmd.setUpdates updates).2.Tracked (record.requested updates) := by
  obtain ⟨inference, updated, was, is, arguments, index, objects, pending⟩ := setUpdates_pending accepted
  constructor
  · intro later same
    obtain rfl := Option.some.inj (is.symm.trans same)
    rw [index, objects]
    exact tracked.fixed inference was
  · have wanted := tracked.wanted
    rw [was] at wanted
    rw [is, Record.requested, ← wanted]
    exact congrArg some arguments
  · intro failed
    cases failed
  · intro _ _ settled
    cases settled.symm.trans pending

end VPUCommand

/-- The shares of the command buffers are the commands behind the first position. -/
theorem Divided.whole {commands : List VPUCommand} (divided : Divided position cmdBuffers commands.length) :
    (sharesOf commands cmdBuffers).flatMap Share.commands = commands.drop position := by
  induction cmdBuffers generalizing position with
  | nil =>
    have whole : position = commands.length := divided
    rw [whole, List.drop_length]
    rfl
  | cons cmdBuffer rest ih =>
    obtain ⟨rfl, grows, others⟩ := divided
    have parts : (sharesOf commands (cmdBuffer :: rest)).flatMap Share.commands =
        cmdBuffer.commandsOf commands ++ (sharesOf commands rest).flatMap Share.commands := rfl
    have behind : commands.drop cmdBuffer.commandsEnd = (commands.drop cmdBuffer.commandsBegin).drop
        (cmdBuffer.commandsEnd - cmdBuffer.commandsBegin) := by
      rw [List.drop_drop, Nat.add_sub_cancel' grows]
    rw [parts, ih others, behind]
    exact List.take_append_drop _ _

namespace VPUJob

def attempts (job : VPUJob) (ctx : VPUDeviceContext) : List Attempt := Share.attemptsAll ctx job.shares

/-- `updateOnSubmit` goes as the attempts tell. -/
theorem updateOnSubmit_attempts {job : VPUJob} (divided : Divided 0 job.cmdBuffers job.commands.length)
    {records : List Record} (tracked : List.Forall₂ VPUCommand.Tracked job.commands records)
    (ctx : VPUDeviceContext) :
    Goes records (job.attempts ctx) (job.updateOnSubmit ctx).1 (job.updateOnSubmit ctx).2.1.commands := by
  obtain ⟨success, updated, next, result, shares, parts, -⟩ := job.updateOnSubmit_shares ctx divided
  have before : job.shares.flatMap Share.commands = job.commands := divided.whole
  have after : updated.shares.flatMap Share.commands = updated.commands := parts.whole
  rw [← before] at tracked
  have goes := Share.updateAll_attempts tracked ctx
  rw [shares, after] at goes
  rw [result]
  exact goes

theorem closeCommands_readdressed (job : VPUJob) (ctx : VPUDeviceContext) :
    List.Forall₂ Readdressed job.commands (job.closeCommands ctx).2.1.commands := by
  have same : List.Forall₂ Readdressed job.commands job.commands := pointwise_refl Readdressed.refl _
  unfold closeCommands
  split
  · exact same
  · split
    · exact same
    · have readdressed := createCommandBuffers_readdressed ctx 0 (scheduleAll job.commands) none
      rw [scheduleAll_flatten] at readdressed
      exact readdressed

/-- Putting a job into the chain of an in-order queue leaves its commands alone. -/
theorem makeInOrder_commands (job : VPUJob) (waitFor : Option VPUBufferObject) (ctx : VPUDeviceContext) :
    (job.makeInOrder waitFor ctx).job.commands = job.commands := by
  rcases job.makeInOrder_cases waitFor ctx with
    ⟨-, result⟩ | ⟨front, rest, -, ⟨-, next, result, -⟩ | ⟨-, status, next, result, -⟩ | ⟨-, result⟩⟩
  · rw [result]
  · rw [result]
  · obtain ⟨_, _, chained, -⟩ := chain_spec job (release { front with jobStatus := status }).resetFenceValue
      rest none next
    rw [result, chained]
  · obtain ⟨_, _, chained, -⟩ := chain_spec job front rest waitFor ctx
    rw [result, chained]

end VPUJob

/-- Getting a job ready for its queue leaves the commands alone, but for their descriptor blocks. -/
theorem VPUDeviceQueueManaged.prepare_readdressed (queue : VPUDeviceQueueManaged) (job : VPUJob)
    (ctx : VPUDeviceContext) : List.Forall₂ Readdressed job.commands (queue.prepare job ctx).job.commands := by
  have same : List.Forall₂ Readdressed job.commands job.commands := pointwise_refl Readdressed.refl _
  unfold prepare
  split
  · simp only [VPUJob.makeInOrder_commands]
    exact same
  · split
    · have stripped : List.Forall₂ Readdressed job.commands (job.stripInOrder ctx).2.1.commands := by
        unfold VPUJob.stripInOrder
        split
        · exact same
        · exact VPUJob.closeCommands_readdressed
            { job with cmdBuffers := [], hasInOrderWorkload := false, closed := false } ctx
      generalize job.stripInOrder ctx = answer at stripped
      exact stripped
    · exact same

/-- The descriptor blocks of the commands do not matter. -/
theorem Goes.readdressed {records : List Record} {attempts : List Attempt} {success : Bool}
    {before after : List VPUCommand} (goes : Goes records attempts success before)
    (same : List.Forall₂ Readdressed before after) : Goes records attempts success after := by
  constructor
  · refine pointwise_through ?_ same goes.tracked
    intro _ _ _ readdressed tracked
    exact readdressed.tracked tracked
  · exact goes.fits
  · intro finished cmd member
    obtain ⟨former, present, readdressed⟩ := exists_partner same cmd member
    intro inference is
    obtain ⟨was, pending⟩ := readdressed.inference is
    exact pending.trans (goes.settled finished former present inference was)
  · exact goes.succeeded

/-- A submission goes as the attempts tell. -/
theorem executeJob_attempts {job : VPUJob} (divided : Divided 0 job.cmdBuffers job.commands.length)
    {records : List Record} (tracked : List.Forall₂ VPUCommand.Tracked job.commands records)
    (queue : VPUDeviceQueueManaged) (preemptionBuffer : Option VPUBufferObject) (ctx : VPUDeviceContext) :
    Goes records (job.attempts ctx) (job.updateOnSubmit ctx).1
        (executeJob queue preemptionBuffer job ctx).job.commands ∧
      ((executeJob queue preemptionBuffer job ctx).result = .ZE_RESULT_SUCCESS →
        (job.updateOnSubmit ctx).1 = true) := by
  have goes := VPUJob.updateOnSubmit_attempts divided tracked ctx
  have carried : Goes records (job.attempts ctx) (job.updateOnSubmit ctx).1
      (handedJob queue preemptionBuffer job ctx).job.commands :=
    goes.readdressed
      (queue.prepare_readdressed (updatedJob preemptionBuffer job ctx) (job.updateOnSubmit ctx).2.2)
  rcases executeJob_spec queue preemptionBuffer job ctx with
    ⟨-, failed, -, result, -⟩ | ⟨success, -, -, -, result, -⟩ | ⟨success, -, -, cmdBuffers, added, result, -⟩
  · refine ⟨?_, fun succeeded => absurd succeeded failed⟩
    rw [result]
    exact goes
  · refine ⟨?_, fun _ => success⟩
    rw [result]
    exact carried
  · refine ⟨?_, fun _ => success⟩
    rw [result]
    exact carried

/-- A job beside the records of its commands. -/
structure RecordedJob where
  job : VPUJob
  records : List Record

namespace RecordedJob

def run (state : RecordedJob) (call : JobCall) : RecordedJob where
  job := call.run state.job
  records :=
    match call with
    | .setUpdates position updatesMap =>
      match state.job.commands[position]? with
      | none => state.records
      | some cmd =>
        if (cmd.setUpdates updatesMap).1 then state.records.modify position (·.requested updatesMap)
        else state.records
    | .executeCommandLists _ _ ctx =>
      if state.job.closed then List.zipWith Record.attempted state.records (state.job.attempts ctx)
      else state.records
    | .waitForCompletion _ => state.records

/-- Refused updates bring nothing new, and the edits of the handles spare those in use. -/
def Faithful (state : RecordedJob) (call : JobCall) : Prop :=
  call.SparesHandles state.job ∧ ∀ position updatesMap, call = .setUpdates position updatesMap →
    DistinctKeys updatesMap ∧ ∀ cmd, state.job.commands[position]? = some cmd → cmd.RefusesCleanly updatesMap

/-- The records tell what is known of the commands of a job that lists its handles. -/
structure Valid (state : RecordedJob) : Prop where
  listed : state.job.closed = true → state.job.Listed
  tracked : List.Forall₂ VPUCommand.Tracked state.job.commands state.records

theorem Valid.run {state : RecordedJob} {call : JobCall} (valid : state.Valid) (faithful : state.Faithful call) :
    (state.run call).Valid := by
  obtain ⟨listed, tracked⟩ := valid
  obtain ⟨spares, requests⟩ := faithful
  constructor
  · exact call.keeps_listed state.job listed fun _ => spares
  · cases call with
    | setUpdates position updatesMap =>
      obtain ⟨distinct, clean⟩ := requests position updatesMap rfl
      simp only [RecordedJob.run, JobCall.run]
      cases present : state.job.commands[position]? with
      | none => exact tracked
      | some cmd =>
        by_cases accepted : (cmd.setUpdates updatesMap).1 = true
        · simp only [accepted, ↓reduceIte]
          apply pointwise_modify tracked present
          intro record known
          exact known.requested accepted
        · obtain ⟨inside, here⟩ := List.getElem?_eq_some_iff.mp present
          simp only [accepted, Bool.false_eq_true, ↓reduceIte, (clean cmd present).unchanged distinct accepted]
          rw [← here, List.set_getElem_self inside]
          exact tracked
    | executeCommandLists queue preemptionBuffer ctx =>
      simp only [RecordedJob.run, JobCall.run]
      by_cases closed : state.job.closed = true
      · rw [if_pos closed, if_pos closed]
        exact (executeJob_attempts (listed closed).divided tracked queue preemptionBuffer ctx).1.tracked
      · rw [if_neg closed, if_neg closed]
        exact tracked
    | waitForCompletion ctx => exact tracked

end RecordedJob

/-- The record of a command as it is created: the loader was patched with the given arguments. -/
structure VPUCommand.CreatedAs (cmd : VPUCommand) (record : Record) : Prop where
  failed : record.failed = false
  wanted : cmd.isInference = none → record.wanted = none
  created : ∀ inference, cmd.isInference = some inference →
    ∃ ctx parser hpi inputs outputs inputStrides outputStrides profilingQuery inferenceId bos userBos,
      (VPUInferenceExecute.create ctx parser hpi inputs outputs inputStrides outputStrides profilingQuery
          inferenceId bos).1 = .ok cmd ∧
        findArgumentBuffers ctx hpi inputs outputs profilingQuery = some userBos ∧
        record.wanted = some ⟨inputs, outputs, inputStrides, outputStrides⟩ ∧
        record.patched = some ⟨⟨inputs, outputs, inputStrides, outputStrides⟩, userBos, ctx⟩

/-- A new inference runs with the arguments that it was created from. -/
theorem VPUInferenceExecute.create_arguments {ctx : VPUDeviceContext} {parser : ElfParser}
    {hpi : HostParsedInference} {inputs outputs : List Nat}
    {inputStrides outputStrides : Nat → Option ArgumentStrides} {profilingQuery : Option GraphProfilingQuery}
    {inferenceId : Nat} {bos : List VPUBufferObject} {cmd : VPUCommand}
    (created : (create ctx parser hpi inputs outputs inputStrides outputStrides profilingQuery inferenceId
      bos).1 = .ok cmd) :
    ∃ inference userBos, cmd.isInference = some inference ∧
      findArgumentBuffers ctx hpi inputs outputs profilingQuery = some userBos ∧
      ctx.loader ctx.applied = true ∧ inference.hpi = hpi ∧ inference.profilingQuery = profilingQuery ∧
      inference.arguments = ⟨inputs, outputs, inputStrides, outputStrides⟩ ∧
      inference.userArgIndex ≤ cmd.bufferObjects.length ∧
      cmd.bufferObjects = appendAssociateBufferObjects (cmd.bufferObjects.take inference.userArgIndex) userBos ∧
      inference.userArgHandles = userBos.map VPUBufferObject.handle := by
  unfold create applyInputOutputs at created
  cases found : findArgumentBuffers ctx hpi inputs outputs profilingQuery with
  | none =>
    rw [found] at created
    cases created
  | some userBos =>
    rw [found] at created
    by_cases loads : ctx.loader ctx.applied = true
    · simp only [loads, ↓reduceIte] at created
      split at created
      · cases created
      · rename_i hpiBo internal
        split at created
        · cases created
        · cases created
          have whole := VPUCommand.take_appendAssociateBufferObjects
            (Nat.le_refl (appendAssociateBufferObjects [] (hpiBo :: internal)).length) userBos
          rw [List.take_length] at whole
          refine ⟨_, userBos, rfl, rfl, loads, rfl, rfl, rfl, whole.1, ?_, rfl⟩
          exact congrArg (appendAssociateBufferObjects · userBos) whole.2.symm
    · simp only [loads, Bool.false_eq_true, ↓reduceIte] at created
      cases created

theorem VPUCommand.CreatedAs.tracked {cmd : VPUCommand} {record : Record} (created : cmd.CreatedAs record) :
    cmd.Tracked record := by
  obtain ⟨whole, other, made⟩ := created
  cases is : cmd.isInference with
  | none =>
    constructor
    · exact fun inference same => nomatch is.symm.trans same
    · rw [is, other is]
      rfl
    · intro failed
      cases whole.symm.trans failed
    · exact fun inference same => nomatch is.symm.trans same
  | some inference =>
    obtain ⟨ctx, parser, hpi, inputs, outputs, inputStrides, outputStrides, profilingQuery, inferenceId, bos,
      userBos, success, found, wanted, patched⟩ := made inference is
    obtain ⟨own, userArgs, isOwn, same, loads, ownHpi, ownQuery, arguments, longer, objects, handles⟩ :=
      VPUInferenceExecute.create_arguments success
    obtain rfl := Option.some.inj (isOwn.symm.trans is)
    obtain rfl := Option.some.inj (same.symm.trans found)
    constructor
    · intro later same
      obtain rfl := Option.some.inj (isOwn.symm.trans same)
      exact longer
    · rw [is, wanted, ← arguments]
      rfl
    · intro failed
      cases whole.symm.trans failed
    · intro later same _ _
      obtain rfl := Option.some.inj (isOwn.symm.trans same)
      refine ⟨_, patched, wanted, loads, ?_, objects, handles⟩
      rw [ownHpi, ownQuery]
      exact found

/-- The records of new commands tell what is known of them once they are closed. -/
theorem RecordedJob.Valid.closed {commands : List VPUCommand} {records : List Record}
    (created : List.Forall₂ VPUCommand.CreatedAs commands records) {ctx : VPUDeviceContext}
    (closes : (VPUJob.closeCommands ⟨commands, [], false, false⟩ ctx).1 = true) :
    Valid ⟨(VPUJob.closeCommands ⟨commands, [], false, false⟩ ctx).2.1, records⟩ := by
  constructor
  · intro _
    refine VPUJob.closeCommands_listed ?_ closes
    intro cmd member inference is
    obtain ⟨record, _, -, -, made⟩ := exists_image created cmd member
    obtain ⟨_, _, _, _, _, _, _, _, _, _, _, success, -⟩ := made inference is
    exact ⟨_, _, _, _, _, _, _, _, _, _, success⟩
  · refine pointwise_through ?_ (VPUJob.closeCommands_readdressed ⟨commands, [], false, false⟩ ctx)
      (created.imp fun _ _ => VPUCommand.CreatedAs.tracked)
    intro _ _ _ readdressed tracked
    exact readdressed.tracked tracked

theorem Goes.command_at {records : List Record} {attempts : List Attempt} {success : Bool}
    {after : List VPUCommand} (goes : Goes records attempts success after) {position : Nat} {record : Record}
    (recorded : records[position]? = some record) : ∃ cmd, after[position]? = some cmd := by
  obtain ⟨attempt, attempted, -⟩ := pointwise_getElem? goes.fits.flip recorded
  obtain ⟨cmd, present, -⟩ := pointwise_getElem? goes.tracked
    (List.getElem?_zipWith_eq_some.mpr ⟨record, attempt, recorded, attempted, rfl⟩)
  exact ⟨cmd, present⟩

/-- What holds of the command at a position after a successful update. -/
theorem Goes.at {records : List Record} {attempts : List Attempt} {after : List VPUCommand}
    (goes : Goes records attempts true after) {position : Nat} {cmd : VPUCommand}
    (present : after[position]? = some cmd) :
    ∃ record noted, records[position]? = some record ∧
      (List.zipWith Record.attempted records attempts)[position]? = some noted ∧ cmd.Tracked noted ∧
      cmd.Settled ∧ noted.wanted = record.wanted ∧ (record.failed = false → noted.failed = false) ∧
      (record.failed = true → noted = record) := by
  obtain ⟨noted, found, tracked⟩ := pointwise_getElem? goes.tracked.flip present
  obtain ⟨record, attempt, recorded, attempted, rfl⟩ := List.getElem?_zipWith_eq_some.mp found
  obtain ⟨known, same, fits⟩ := pointwise_getElem? goes.fits attempted
  obtain rfl := Option.some.inj (recorded.symm.trans same)
  refine ⟨record, _, recorded, found, tracked, goes.settled rfl cmd (List.mem_of_getElem? present), ?_, ?_, ?_⟩
  · cases attempt <;> rfl
  · intro whole
    have succeeded := goes.succeeded rfl attempt (List.mem_of_getElem? attempted)
    cases attempt with
    | untouched => exact whole
    | refused => cases succeeded
    | thrown => cases succeeded
    | patched patch => rfl
  · intro failed
    rw [fits failed]
    rfl

/-- In every run of a job whose refused updates bring nothing new and whose edits of handles spare those in
use, a submission that succeeds runs every inference with the arguments of its latest accepted update,
unless an update of it has failed since: the loader has patched the inference with them, the associated
buffer objects and the remembered handles are those of the buffers they lie in, and the lists of handles
that are passed to the kernel are complete for the associated buffer objects. An inference with a failed
update stays as it was patched before. -/
theorem latest_updates_run {commands : List VPUCommand} {records : List Record} {ctx : VPUDeviceContext}
    (created : List.Forall₂ VPUCommand.CreatedAs commands records)
    (closes : (VPUJob.closeCommands ⟨commands, [], false, false⟩ ctx).1 = true) {calls : List JobCall}
    {queue : VPUDeviceQueueManaged} {preemptionBuffer : Option VPUBufferObject} {final : VPUDeviceContext}
    (faithful : Guarded RecordedJob.run RecordedJob.Faithful
      ⟨(VPUJob.closeCommands ⟨commands, [], false, false⟩ ctx).2.1, records⟩
      (calls ++ [.executeCommandLists queue preemptionBuffer final])) :
    let state := runFrom RecordedJob.run
      ⟨(VPUJob.closeCommands ⟨commands, [], false, false⟩ ctx).2.1, records⟩ calls
    let executed := executeJob queue preemptionBuffer state.job final
    let submitted := state.run (.executeCommandLists queue preemptionBuffer final)
    state.job.closed = true → executed.result = .ZE_RESULT_SUCCESS →
      submitted.job = executed.job ∧
      (∀ (position : Nat) (cmd : VPUCommand) (inference : VPUInferenceExecute),
        executed.job.commands[position]? = some cmd → cmd.isInference = some inference →
          ∃ record noted : Record, state.records[position]? = some record ∧
            submitted.records[position]? = some noted ∧
            (record.failed = false → noted.wanted = record.wanted ∧
              record.wanted = some inference.arguments ∧ cmd.RunsWanted inference noted) ∧
            (record.failed = true → noted = record)) ∧
      ∃ added, executed.ctx.calls = final.calls ++ added ∧
        ∀ buffer handles index id accepted, .submit buffer handles index id accepted ∈ added →
          ∃ share ∈ (handedJob queue preemptionBuffer state.job final).job.shares,
            share.cmdBuffer.buffer = buffer ∧ Complete share.cmdBuffer share.commands handles := by
  intro state executed submitted closed success
  obtain ⟨before, ⟨spares, -⟩, -⟩ := guarded_append.mp faithful
  have valid : state.Valid :=
    guarded_invariant (fun _ _ => RecordedJob.Valid.run) (RecordedJob.Valid.closed created closes) before
  have listed := valid.listed closed
  obtain ⟨goes, updates⟩ := executeJob_attempts listed.divided valid.tracked queue preemptionBuffer final
  rw [updates success] at goes
  have same : submitted.job = executed.job := if_pos closed
  have noted_eq : submitted.records = List.zipWith Record.attempted state.records (state.job.attempts final) :=
    if_pos closed
  refine ⟨same, ?_, listed.submits closed spares⟩
  intro position cmd inference present is
  obtain ⟨record, noted, recorded, found, tracked, settled, wanted, whole, stays⟩ := goes.at present
  refine ⟨record, noted, recorded, by rw [noted_eq]; exact found, ?_, stays⟩
  intro fresh
  refine ⟨wanted, ?_, tracked.settled inference is (settled inference is) (whole fresh)⟩
  rw [← wanted, ← tracked.wanted, is]
  rfl

/-- The record of the inference on the first user buffer. -/
def argumentRecord : Record where
  wanted := some ⟨[firstArgument.basePtr], [], fun _ => none, fun _ => none⟩
  patched := some ⟨⟨[firstArgument.basePtr], [], fun _ => none, fun _ => none⟩, [firstArgument], argumentContext⟩
  failed := false

theorem argumentRecord_created : List.Forall₂ VPUCommand.CreatedAs [argumentInference] [argumentRecord] := by
  refine .cons ⟨rfl, nofun, ?_⟩ .nil
  intro inference _
  exact ⟨_, _, _, _, _, _, _, _, _, _, _, argumentInference_created, rfl, rfl, rfl⟩

theorem latest_updates_run_moved :
    let state := runFrom RecordedJob.run ⟨closedJob [argumentInference], [argumentRecord]⟩ [moveArgument 0]
    let executed := executeJob defaultQueue none state.job argumentContext
    let submitted := state.run (.executeCommandLists defaultQueue none argumentContext)
    executed.result = .ZE_RESULT_SUCCESS ∧
      ∀ cmd inference, executed.job.commands[0]? = some cmd → cmd.isInference = some inference →
        ∃ noted ∈ submitted.records, cmd.RunsWanted inference noted ∧
          inference.inputs = [secondArgument.basePtr] := by
  intro state executed submitted
  have success : executed.result = .ZE_RESULT_SUCCESS := by decide +kernel
  refine ⟨success, ?_⟩
  intro cmd inference present is
  have faithful : Guarded RecordedJob.run RecordedJob.Faithful ⟨closedJob [argumentInference], [argumentRecord]⟩
      [moveArgument 0, .executeCommandLists defaultQueue none argumentContext] := by
    refine ⟨⟨by decide +kernel, ?_⟩, ⟨by decide +kernel, nofun⟩, trivial⟩
    intro position updatesMap same
    cases same
    refine ⟨List.nodup_singleton 0, ?_⟩
    intro first found count counted
    have only : (closedJob [argumentInference]).commands[0]?.bind VPUCommand.numArgs = some 1 := by decide +kernel
    rw [found, Option.bind_some, counted] at only
    obtain rfl := Option.some.inj only
    left
    decide
  obtain ⟨-, runs, -⟩ := @latest_updates_run [argumentInference] [argumentRecord] argumentContext
    argumentRecord_created (by decide +kernel) [moveArgument 0] defaultQueue none argumentContext faithful
    (by decide +kernel) success
  obtain ⟨record, noted, recorded, found, fresh, -⟩ := runs 0 cmd inference present is
  change state.records[0]? = some record at recorded
  have first : state.records[0]?.map Record.failed = some false := by decide +kernel
  have pointers : state.records[0]?.bind (fun record => record.wanted.map Arguments.inputs) =
      some [secondArgument.basePtr] := by decide +kernel
  rw [recorded] at first pointers
  obtain ⟨-, arguments, runsWanted⟩ := fresh (Option.some.inj first)
  rw [Option.bind_some, arguments] at pointers
  exact ⟨noted, List.mem_of_getElem? found, runsWanted, Option.some.inj pointers⟩

/-- The input of an inference moves to another buffer, which the context does not track when the job is
submitted: the submission fails. A second one succeeds without an update in between, when the buffer is
tracked, and runs the inference with the input that it had before. -/
theorem failed_update_runs_stale :
    let state := runFrom RecordedJob.run ⟨closedJob [argumentInference], [argumentRecord]⟩
      [moveArgument 0, .executeCommandLists defaultQueue none (grantingContext [firstArgument])]
    let executed := executeJob defaultQueue none state.job argumentContext
    let submitted := state.run (.executeCommandLists defaultQueue none argumentContext)
    (((moveArgument 0).run (closedJob [argumentInference])).updateOnSubmit (grantingContext [firstArgument])).1 =
        false ∧
      executed.result = .ZE_RESULT_SUCCESS ∧
      submitted.records.map (fun record => record.wanted.map Arguments.inputs) =
        [some [secondArgument.basePtr]] ∧
      submitted.records.map (fun record => record.patched.map fun patch => patch.arguments.inputs) =
        [some [firstArgument.basePtr]] ∧
      executed.job.commands.map VPUCommand.bufferObjects = [[inferenceBuffer, firstArgument]] ∧
      secondArgument.handle ∉ executed.job.cmdBuffers.flatMap VPUCommandBuffer.bufferHandles := by
  intro state executed submitted
  refine ⟨by decide +kernel, by decide +kernel, by decide +kernel, by decide +kernel, by decide +kernel, ?_⟩
  decide +kernel

end NpuDriver
