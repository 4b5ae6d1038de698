import NpuDriver.Proof.JobExecution
import NpuDriver.Proof.ListedHandles
import NpuDriver.Proof.PreemptionIndex

/-! The lists of buffer handles that are passed to the kernel, over the whole life of a job. -/

namespace NpuDriver

open Library VPUCommandBuffer

/-- A job whose command buffers list what they need between submissions. -/
structure VPUJob.Listed (job : VPUJob) : Prop where
  divided : Divided 0 job.cmdBuffers job.commands.length
  each : job.Each NpuDriver.Listed

/-- A job whose command buffers list what they need for a submission. -/
structure VPUJob.Ready (job : VPUJob) : Prop where
  divided : Divided 0 job.cmdBuffers job.commands.length
  each : job.Each NpuDriver.Ready

theorem VPUJob.Ready.listed {job : VPUJob} (ready : job.Ready) : job.Listed :=
  ⟨ready.divided, fun cmdBuffer member => (ready.each cmdBuffer member).toListed⟩

/-- Before a submission the first command buffer may be waited for, which then releases none of the
handles that it needs; command buffers are built anew only for commands without scratch. -/
def VPUDeviceQueueManaged.PrepareSpares (queue : VPUDeviceQueueManaged) (job : VPUJob) : Prop :=
  if queue.isInOrder then
    match job.cmdBuffers with
    | [] => True
    | front :: _ =>
      queue.lastWaitBo.map VPUBufferObject.id = some front.buffer.id →
        front.ReleaseSpares (keptHandles front (front.commandsOf job.commands) ++
          scratchHandles (front.commandsOf job.commands))
  else job.hasInOrderWorkload = true → scratchHandles job.commands = []

instance (queue : VPUDeviceQueueManaged) (job : VPUJob) : Decidable (queue.PrepareSpares job) := by
  unfold VPUDeviceQueueManaged.PrepareSpares
  split
  · split <;> infer_instance
  · infer_instance

/-- The edits of the lists of handles that one operation makes spare the handles in use: the
replacements of an update, the addition and the release of a preemption buffer, and the building of
new command buffers. -/
def JobCall.SparesHandles (job : VPUJob) : JobCall → Prop
  | setUpdates _ _ => True
  | executeCommandLists queue preemptionBuffer ctx =>
    Share.EachUpdate Share.UpdateSpares ctx job.shares ∧
      ((job.updateOnSubmit ctx).1 = true →
        (∀ cmdBuffer ∈ (job.updateOnSubmit ctx).2.1.cmdBuffers, cmdBuffer.AddsFresh preemptionBuffer) ∧
        queue.PrepareSpares (updatedJob preemptionBuffer job ctx))
  | waitForCompletion _ =>
    ∀ cmdBuffer ∈ job.cmdBuffers,
      cmdBuffer.ReleaseSpares (keptHandles cmdBuffer (cmdBuffer.commandsOf job.commands))

instance (job : VPUJob) (call : JobCall) : Decidable (call.SparesHandles job) := by
  cases call <;> unfold JobCall.SparesHandles <;> infer_instance

theorem VPUJob.Listed.setUpdates {job : VPUJob} (listed : job.Listed) (present : job.commands[position]? = some cmd)
    (updatesMap : ArgumentUpdatesMap) :
    VPUJob.Listed { job with commands := job.commands.set position (cmd.setUpdates updatesMap).2 } := by
  have same : List.Forall₂ VPUCommand.Associates job.commands
      (job.commands.set position (cmd.setUpdates updatesMap).2) :=
    pointwise_set VPUCommand.Associates.refl present (cmd.setUpdates_associates updatesMap)
  refine ⟨by simpa using listed.divided, ?_⟩
  intro cmdBuffer member
  exact (listed.each cmdBuffer member).associates (List.forall₂_take _ (List.forall₂_drop _ same))

/-- The patches of command buffers keep the handles listed. -/
theorem VPUJob.Ready.patched {job : VPUJob} (ready : job.Ready) {cmdBuffers : List VPUCommandBuffer}
    {next : VPUJob} (commands : next.commands = job.commands) (revised : next.cmdBuffers = cmdBuffers)
    (patched : List.Forall₂ Patched job.cmdBuffers cmdBuffers) : next.Ready := by
  have revision : List.Forall₂ (Revised Patched) job.cmdBuffers next.cmdBuffers := by
    rw [revised]
    exact patched.imp fun _ _ patch => ⟨patch.commandsBegin, patch.commandsEnd, patch⟩
  refine ⟨?_, ready.each.revised commands revision fun _ _ _ patch listed => listed.patched patch⟩
  rw [commands]
  exact ready.divided.revised revision

/-- The successful wait of `makeInOrder` for the first command buffer. -/
theorem VPUJob.Ready.frontWaited {job : VPUJob} (ready : job.Ready)
    (split : job.cmdBuffers = front :: rest) (status : Nat)
    (spares : front.ReleaseSpares (keptHandles front (front.commandsOf job.commands) ++
      scratchHandles (front.commandsOf job.commands))) :
    VPUJob.Ready { job with
      cmdBuffers := { front with jobStatus := status }.release.resetFenceValue :: rest } := by
  obtain ⟨-, begins, ends, -⟩ := release_frame { front with jobStatus := status }
  have divided := ready.divided
  have each := ready.each
  unfold VPUJob.Each at each
  rw [split] at divided each
  refine ⟨?_, ?_⟩
  · obtain ⟨first, grows, others⟩ := divided
    exact ⟨begins.trans first, grows.trans (Nat.le_of_eq ends.symm), by simpa [resetFenceValue, ends] using others⟩
  · intro cmdBuffer member
    rcases List.mem_cons.mp member with rfl | later
    · have noted : NpuDriver.Ready { front with jobStatus := status } (front.commandsOf job.commands) := by
        have head := each front (List.mem_cons_self ..)
        exact ⟨head.toListed.status status, head.scratch⟩
      have released := (noted.release spares).patched (resetFenceValue_patched _)
      have same : (release { front with jobStatus := status }).resetFenceValue.commandsOf job.commands =
          front.commandsOf job.commands := by
        simp only [commandsOf, resetFenceValue, begins, ends]
      rw [same]
      exact released
    · exact each cmdBuffer (List.mem_cons_of_mem front later)

theorem VPUJob.Listed.balanced {job : VPUJob} (listed : job.Listed) : ∀ cmd ∈ job.commands, cmd.Balanced := by
  intro cmd member
  obtain ⟨cmdBuffer, present, owned⟩ := listed.divided.owner member
  exact (listed.each cmdBuffer present).balanced cmd owned

/-- The command buffers of a job that is closed anew. -/
theorem VPUJob.closeCommands_ready {job : VPUJob} {ctx : VPUDeviceContext} (opened : job.closed = false)
    (balanced : ∀ cmd ∈ job.commands, cmd.Balanced) (success : (job.closeCommands ctx).1 = true) :
    (job.closeCommands ctx).2.1.Listed ∧
      (scratchHandles job.commands = [] → (job.closeCommands ctx).2.1.Ready) := by
  have inside : ∀ share ∈ VPUJob.scheduleAll job.commands, ∀ cmd ∈ share, cmd ∈ job.commands := by
    intro share member cmd present
    rw [← scheduleAll_flatten job.commands]
    exact List.mem_flatten.mpr ⟨share, member, present⟩
  have listed : ∀ share ∈ VPUJob.scheduleAll job.commands, ∀ ctx position cb patched next final,
      allocateCommandBuffer ctx position share = (some cb, patched, next) → VPUJob.Linked ctx cb final →
        NpuDriver.Listed final patched :=
    fun share member _ _ _ _ _ _ allocated linked =>
      .allocated allocated linked.patched fun cmd present => balanced cmd (inside share member cmd present)
  obtain ⟨divided, each, -⟩ := closeCommands_each opened listed success
  refine ⟨⟨divided, each⟩, fun unused => ?_⟩
  have ready : ∀ share ∈ VPUJob.scheduleAll job.commands, ∀ ctx position cb patched next final,
      allocateCommandBuffer ctx position share = (some cb, patched, next) → VPUJob.Linked ctx cb final →
        NpuDriver.Ready final patched := by
    intro share member ctx position cb patched next final allocated linked
    refine ⟨listed share member ctx position cb patched next final allocated linked, ?_⟩
    intro handle scratch
    obtain ⟨cmd, present, inference, is, used, -⟩ := mem_scratchHandles.mp scratch
    obtain ⟨rfl, -⟩ := allocateCommandBuffer_some allocated
    obtain ⟨source, original, -, same⟩ := exists_partner (patchAddresses_associated _ _ share) cmd present
    have needed : inference.lastScratchBoHandle ∈ scratchHandles job.commands :=
      mem_scratchHandles.mpr ⟨source, inside share member source original, inference, same ▸ is, used, rfl⟩
    rw [unused] at needed
    exact absurd needed List.not_mem_nil
  exact ⟨divided, (closeCommands_each opened ready success).2.1⟩

/-- A job that was prepared for a submission is ready for it; in any case it keeps its handles
listed unless it was left unclosed. -/
theorem VPUJob.Ready.prepare {job : VPUJob} (ready : job.Ready) (closed : job.closed = true)
    {queue : VPUDeviceQueueManaged} (spares : queue.PrepareSpares job) (ctx : VPUDeviceContext) :
    ((queue.prepare job ctx).job.closed = true → (queue.prepare job ctx).job.Listed) ∧
      ((queue.prepare job ctx).success = true → (queue.prepare job ctx).job.Ready) := by
  have weaken : ∀ {result : VPUDeviceQueueManaged.Submitted}, result.job.Ready →
      (result.job.closed = true → result.job.Listed) ∧ (result.success = true → result.job.Ready) :=
    fun isReady => ⟨fun _ => isReady.listed, fun _ => isReady⟩
  unfold VPUDeviceQueueManaged.PrepareSpares at spares
  unfold VPUDeviceQueueManaged.prepare
  split
  · rename_i inOrder
    rw [if_pos inOrder] at spares
    apply weaken
    change (job.makeInOrder queue.lastWaitBo ctx).job.Ready
    rcases job.makeInOrder_cases queue.lastWaitBo ctx with
      ⟨-, result⟩ | ⟨front, rest, split, ⟨-, next, result, -⟩ | ⟨back, status, next, result, -⟩ | ⟨-, result⟩⟩
    · rw [result]
      exact ready
    · rw [result]
      exact ready
    · rw [split] at spares
      have waited := ready.frontWaited split status (spares back)
      obtain ⟨cmdBuffers, inOrder, chained, patched, -⟩ :=
        chain_spec job (release { front with jobStatus := status }).resetFenceValue rest none next
      rw [result, chained]
      exact waited.patched rfl rfl patched
    · obtain ⟨cmdBuffers, inOrder, chained, patched, -⟩ := chain_spec job front rest queue.lastWaitBo ctx
      rw [← split] at patched
      rw [result, chained]
      exact ready.patched rfl rfl patched
  · rename_i plain
    rw [if_neg plain] at spares
    split
    · rename_i workload
      have unused := spares workload
      simp only [stripInOrder, closed, Bool.not_true, Bool.false_eq_true, ↓reduceIte]
      have rebuilt : (VPUJob.closeCommands { job with cmdBuffers := [], hasInOrderWorkload := false, closed := false }
          ctx).1 = true → _ :=
        VPUJob.closeCommands_ready rfl ready.listed.balanced
      have success_closed : (VPUJob.closeCommands
          { job with cmdBuffers := [], hasInOrderWorkload := false, closed := false } ctx).2.1.closed =
          (VPUJob.closeCommands
            { job with cmdBuffers := [], hasInOrderWorkload := false, closed := false } ctx).1 := by
        simp [closeCommands]
      generalize VPUJob.closeCommands
        { job with cmdBuffers := [], hasInOrderWorkload := false, closed := false } ctx = result
        at rebuilt success_closed
      exact ⟨fun isClosed => (rebuilt (success_closed ▸ isClosed)).1, fun success => (rebuilt success).2 unused⟩
    · exact weaken ready

/-- The update of a job, and the addition of the preemption buffer behind a successful one. -/
theorem VPUJob.Listed.updated {job : VPUJob} (listed : job.Listed) {ctx : VPUDeviceContext}
    (spares : Share.EachUpdate Share.UpdateSpares ctx job.shares) {preemptionBuffer : Option VPUBufferObject}
    (fresh : (job.updateOnSubmit ctx).1 = true →
      ∀ cmdBuffer ∈ (job.updateOnSubmit ctx).2.1.cmdBuffers, cmdBuffer.AddsFresh preemptionBuffer) :
    (job.updateOnSubmit ctx).2.1.Listed ∧ (job.updateOnSubmit ctx).2.1.closed = job.closed ∧
      ((job.updateOnSubmit ctx).1 = true → (updatedJob preemptionBuffer job ctx).Ready) := by
  obtain ⟨success, updated, next, result, shares, divided, closed, -⟩ := job.updateOnSubmit_shares ctx listed.divided
  have both : (∀ share ∈ (Share.updateAll ctx job.shares).2.1, NpuDriver.Listed share.cmdBuffer share.commands) ∧
      ((Share.updateAll ctx job.shares).1 = true →
        ∀ share ∈ (Share.updateAll ctx job.shares).2.1, NpuDriver.Ready share.cmdBuffer share.commands) :=
    Share.updateAll_each (fun _ _ => Listed.update) (VPUJob.each_shares.mp listed.each) spares
  obtain ⟨kept, reached⟩ := both
  unfold updatedJob
  rw [shares] at kept reached
  rw [result] at fresh ⊢
  refine ⟨⟨divided, VPUJob.each_shares.mpr kept⟩, closed, fun succeeded => ?_⟩
  have ready : updated.Each NpuDriver.Ready := VPUJob.each_shares.mpr (reached succeeded)
  have free := fresh succeeded
  have revision : List.Forall₂ (Revised fun before after =>
      before.AddsFresh preemptionBuffer ∧ after = before.addPreemptionBuffer preemptionBuffer)
      updated.cmdBuffers (updated.addPreemptionBuffer preemptionBuffer).cmdBuffers := by
    refine List.forall₂_map_right_iff.mpr (List.forall₂_same.mpr fun cmdBuffer member => ?_)
    obtain ⟨begins, ends, same⟩ := cmdBuffer.addPreemptionBuffer_revised preemptionBuffer
    exact ⟨begins, ends, free cmdBuffer member, same⟩
  refine ⟨divided.revised revision, ready.revised rfl revision ?_⟩
  rintro before after cmds ⟨absent, rfl⟩ isReady
  exact isReady.addPreemptionBuffer absent

/-- A submission keeps the handles of a job listed; the job that it hands to the kernel is ready. -/
theorem VPUJob.Listed.execute {job : VPUJob} (listed : job.Listed) (closed : job.closed = true)
    {queue : VPUDeviceQueueManaged} {preemptionBuffer : Option VPUBufferObject} {ctx : VPUDeviceContext}
    (spares : (JobCall.executeCommandLists queue preemptionBuffer ctx).SparesHandles job) :
    ((executeJob queue preemptionBuffer job ctx).job.closed = true →
        (executeJob queue preemptionBuffer job ctx).job.Listed) ∧
      ((job.updateOnSubmit ctx).1 = true → (handedJob queue preemptionBuffer job ctx).success = true →
        (handedJob queue preemptionBuffer job ctx).job.Ready) := by
  obtain ⟨updateSpares, later⟩ := spares
  obtain ⟨afterUpdate, stillClosed, ready⟩ := listed.updated updateSpares fun success => (later success).1
  have prepared : (job.updateOnSubmit ctx).1 = true → _ := fun success =>
    (ready success).prepare (stillClosed.trans closed) (later success).2 (job.updateOnSubmit ctx).2.2
  rcases executeJob_spec queue preemptionBuffer job ctx with
    ⟨failed, -, -, result, -⟩ | ⟨success, failed, -, -, result, -⟩ | ⟨success, handed, -, cmdBuffers, added, result, patched, -⟩
  · rw [result]
    refine ⟨fun _ => afterUpdate, fun success => ?_⟩
    rw [failed] at success
    cases success
  · rw [result]
    exact ⟨(prepared success).1, fun _ => (prepared success).2⟩
  · refine ⟨fun _ => ?_, fun _ => (prepared success).2⟩
    rw [result]
    have isReady : (handedJob queue preemptionBuffer job ctx).job.Ready := (prepared success).2 handed
    have final : VPUJob.Ready { (handedJob queue preemptionBuffer job ctx).job with cmdBuffers := cmdBuffers } :=
      isReady.patched rfl rfl patched
    exact final.listed

theorem VPUJob.Listed.wait {job : VPUJob} (listed : job.Listed) {ctx : VPUDeviceContext}
    (spares : (JobCall.waitForCompletion ctx).SparesHandles job) : (job.waitForCompletion ctx).2.1.Listed := by
  obtain ⟨_, -, -, waited, -⟩ := waitBuffers_spec ctx job.cmdBuffers
  have each : job.Each fun cmdBuffer cmds =>
      NpuDriver.Listed cmdBuffer cmds ∧ cmdBuffer.ReleaseSpares (keptHandles cmdBuffer cmds) :=
    fun cmdBuffer member => ⟨listed.each cmdBuffer member, spares cmdBuffer member⟩
  have revision : List.Forall₂ (Revised fun before after =>
      after = before ∨ ∃ status, after = release { before with jobStatus := status })
      job.cmdBuffers (job.waitForCompletion ctx).2.1.cmdBuffers := by
    refine waited.imp ?_
    rintro before after (rfl | ⟨-, status, rfl⟩)
    · exact ⟨rfl, rfl, .inl rfl⟩
    · obtain ⟨-, begins, ends, -⟩ := release_frame { before with jobStatus := status }
      exact ⟨begins, ends, .inr ⟨status, rfl⟩⟩
  refine ⟨listed.divided.revised revision, each.revised rfl revision ?_⟩
  rintro before after cmds (rfl | ⟨status, rfl⟩) ⟨isListed, releases⟩
  · exact isListed
  · have spared : before.ReleaseSpares (keptHandles before cmds ++ []) := by
      rw [List.append_nil]
      exact releases
    exact (isListed.status status).release spared

theorem JobCall.keeps_listed (job : VPUJob) (call : JobCall) (listed : job.closed = true → job.Listed)
    (spares : job.closed = true → call.SparesHandles job) : (call.run job).closed = true → (call.run job).Listed := by
  cases call with
  | setUpdates position updatesMap =>
    simp only [JobCall.run]
    split
    · exact listed
    · rename_i cmd present
      exact fun closed => (listed closed).setUpdates present updatesMap
  | executeCommandLists queue preemptionBuffer ctx =>
    simp only [JobCall.run]
    split
    · rename_i closed
      exact ((listed closed).execute closed (spares closed)).1
    · exact listed
  | waitForCompletion ctx => exact fun closed => (listed closed).wait (spares closed)

/-- A submission of a job that lists its handles passes complete lists to the kernel. -/
theorem VPUJob.Listed.submits {job : VPUJob} (listed : job.Listed) (closed : job.closed = true)
    {queue : VPUDeviceQueueManaged} {preemptionBuffer : Option VPUBufferObject} {ctx : VPUDeviceContext}
    (spares : (JobCall.executeCommandLists queue preemptionBuffer ctx).SparesHandles job) :
    ∃ added, (executeJob queue preemptionBuffer job ctx).ctx.calls = ctx.calls ++ added ∧
      ∀ buffer handles index id accepted, .submit buffer handles index id accepted ∈ added →
        ∃ share ∈ (handedJob queue preemptionBuffer job ctx).job.shares,
          share.cmdBuffer.buffer = buffer ∧ Complete share.cmdBuffer share.commands handles := by
  have updates := job.updateOnSubmit_calls ctx
  rcases executeJob_spec queue preemptionBuffer job ctx with
    ⟨-, -, -, -, same⟩ | ⟨-, -, -, -, -, same⟩ | ⟨success, handed, -, cmdBuffers, added, -, -, requested, requests, -⟩
  · exact ⟨[], by rw [same, updates, List.append_nil], nofun⟩
  · obtain ⟨added, waits, -, only⟩ := queue.prepare_calls (updatedJob preemptionBuffer job ctx)
      (job.updateOnSubmit ctx).2.2
    refine ⟨added, by rw [same, ← updates]; exact waits, ?_⟩
    intro buffer handles index id accepted member
    obtain ⟨_, _, wait⟩ := only _ member
    cases wait
  · have ready := (listed.execute closed spares).2 success handed
    obtain ⟨waited, waits, -, only⟩ := queue.prepare_calls (updatedJob preemptionBuffer job ctx)
      (job.updateOnSubmit ctx).2.2
    have calls_eq : (executeJob queue preemptionBuffer job ctx).ctx.calls = ctx.calls ++ (waited ++ added) := by
      rw [requested, ← updates, ← List.append_assoc]
      exact congrArg (· ++ added) waits
    refine ⟨waited ++ added, calls_eq, ?_⟩
    intro buffer handles index id accepted member
    rcases List.mem_append.mp member with early | late
    · obtain ⟨_, _, wait⟩ := only _ early
      cases wait
    · obtain ⟨cmdBuf, present, tried, _, patched, request⟩ := requests _ late
      cases request
      have listed := (ready.each cmdBuf present).patched patched
      refine ⟨⟨cmdBuf, cmdBuf.commandsOf (handedJob queue preemptionBuffer job ctx).job.commands⟩,
        List.mem_map.mpr ⟨cmdBuf, present, rfl⟩, rfl, ?_⟩
      have front := patched.handles
      have former := ready.each cmdBuf present
      refine ⟨head?_of_front front former.own, ?_, fun handle scratch => listed.scratch handle scratch, ?_,
        listed.nodup⟩
      · intro cmd owned bo associated
        exact listed.kept _ (mem_keptHandles.mpr (.inr (.inl
          (mem_objectHandles.mpr ⟨cmd, owned, bo, associated, rfl⟩))))
      · intro bo guarded
        exact front.subset (former.kept _ (mem_keptHandles.mpr (.inr (.inr ⟨bo, guarded, rfl⟩))))

/-- A closed job of inferences as they are created lists its handles. -/
theorem VPUJob.closeCommands_listed {commands : List VPUCommand} {ctx : VPUDeviceContext}
    (created : ∀ cmd ∈ commands, ∀ inference, cmd.isInference = some inference →
      ∃ ctx parser hpi inputs outputs inputStrides outputStrides profilingQuery inferenceId bos,
        (VPUInferenceExecute.create ctx parser hpi inputs outputs inputStrides outputStrides profilingQuery
          inferenceId bos).1 = .ok cmd)
    (closes : (VPUJob.closeCommands ⟨commands, [], false, false⟩ ctx).1 = true) :
    (VPUJob.closeCommands ⟨commands, [], false, false⟩ ctx).2.1.Listed := by
  refine (VPUJob.closeCommands_ready rfl ?_ closes).1
  intro cmd member inference is
  obtain ⟨_, _, _, _, _, _, _, _, _, _, made⟩ := created cmd member inference is
  exact VPUInferenceExecute.create_balanced made inference is

/-- In every run of a job whose edits spare the handles in use, every list of handles that a
submission passes to the kernel is complete for the command buffer that it comes with: it starts with
the own handle, it has the handles of all buffers of the commands, of the scratch buffer that the
inferences were patched with and of the buffer that is waited for, and none of them twice. -/
theorem submitted_handles_complete {commands : List VPUCommand} {ctx : VPUDeviceContext}
    (created : ∀ cmd ∈ commands, ∀ inference, cmd.isInference = some inference →
      ∃ ctx parser hpi inputs outputs inputStrides outputStrides profilingQuery inferenceId bos,
        (VPUInferenceExecute.create ctx parser hpi inputs outputs inputStrides outputStrides profilingQuery
          inferenceId bos).1 = .ok cmd)
    (closes : (VPUJob.closeCommands ⟨commands, [], false, false⟩ ctx).1 = true) {calls : List JobCall}
    {queue : VPUDeviceQueueManaged} {preemptionBuffer : Option VPUBufferObject} {final : VPUDeviceContext}
    (guarded : Guarded JobCall.run JobCall.SparesHandles
      (VPUJob.closeCommands ⟨commands, [], false, false⟩ ctx).2.1
      (calls ++ [.executeCommandLists queue preemptionBuffer final])) :
    let job := runFrom JobCall.run (VPUJob.closeCommands ⟨commands, [], false, false⟩ ctx).2.1 calls
    job.closed = true → ∃ added, (executeJob queue preemptionBuffer job final).ctx.calls = final.calls ++ added ∧
      ∀ buffer handles index id accepted, .submit buffer handles index id accepted ∈ added →
        ∃ share ∈ (handedJob queue preemptionBuffer job final).job.shares,
          share.cmdBuffer.buffer = buffer ∧ Complete share.cmdBuffer share.commands handles := by
  intro job closed
  have initial := VPUJob.closeCommands_listed created closes
  obtain ⟨before, last, -⟩ := guarded_append.mp guarded
  have listed : job.Listed := guarded_invariant (fun state action valid spares =>
    JobCall.keeps_listed state action valid fun _ => spares) (fun _ => initial) before closed
  exact listed.submits closed last

/-- Two user buffers, and a context that tracks them. -/
def firstArgument : VPUBufferObject := ⟨600, 601, 2 ^ 31, 4096, 2 ^ 31⟩

def secondArgument : VPUBufferObject := ⟨601, 602, 2 ^ 32, 4096, 2 ^ 32⟩

def argumentContext : VPUDeviceContext := grantingContext [secondArgument, firstArgument]

/-- An inference whose only input lies in the first user buffer. -/
def argumentInference : VPUCommand where
  command := .inferenceExecute
    { inferenceId := 7, inferenceAddress := inferenceBuffer.vpuAddr, inferenceWidth := 4096
      hpi := ⟨1, [64], []⟩, sharedScratchSize := 0, inputs := [firstArgument.basePtr], outputs := []
      inputStrides := fun _ => none, outputStrides := fun _ => none, profilingQuery := none
      userArgIndex := 1, userArgHandles := [firstArgument.handle], lastScratchBoHandle := UINT32_MAX }
  sType := .Generic
  bufferObjects := [inferenceBuffer, firstArgument]
  descriptor := none
  cmdNeedsUpdate := false
  sized := trivial

theorem argumentInference_created :
    (VPUInferenceExecute.create argumentContext ⟨0⟩ ⟨1, [64], []⟩ [firstArgument.basePtr] [] (fun _ => none)
      (fun _ => none) none 7 [inferenceBuffer]).1 = .ok argumentInference := rfl

/-- A closed job with these commands. -/
def closedJob (commands : List VPUCommand) : VPUJob :=
  (VPUJob.closeCommands ⟨commands, [], false, false⟩ argumentContext).2.1

/-- The input of the inference at a position moves to the second user buffer. -/
def moveArgument (position : Nat) : JobCall :=
  .setUpdates position [(0, ⟨some secondArgument.basePtr, none⟩)]

theorem submitted_handles_complete_moved :
    let job := runFrom JobCall.run (closedJob [argumentInference]) [moveArgument 0]
    ∃ added, (executeJob defaultQueue none job argumentContext).ctx.calls = argumentContext.calls ++ added ∧
      ∀ buffer handles index id accepted, .submit buffer handles index id accepted ∈ added →
        ∃ share ∈ (handedJob defaultQueue none job argumentContext).job.shares,
          share.cmdBuffer.buffer = buffer ∧ Complete share.cmdBuffer share.commands handles := by
  intro job
  refine submitted_handles_complete ?_ (by decide +kernel) ?_ ?_
  · intro cmd member inference is
    rw [List.mem_singleton.mp member]
    exact ⟨_, _, _, _, _, _, _, _, _, _, argumentInference_created⟩
  · change Guarded _ _ (closedJob [argumentInference]) _
    decide +kernel
  · decide +kernel

/-- Two inferences of one command buffer read from the same user buffer. When the input of the first
one moves to another buffer, the handle of the shared one is taken from the list, although the second
inference still reads from it. -/
theorem shared_argument_loses_handle :
    let job := (moveArgument 0).run (closedJob [argumentInference, argumentInference])
    let executed := executeJob defaultQueue none job argumentContext
    executed.result = .ZE_RESULT_SUCCESS ∧
      executed.ctx.calls = executed.job.cmdBuffers.map (fun cmdBuffer =>
        .submit cmdBuffer.buffer [1, 401, 602] 0 1 true) ∧
      executed.job.cmdBuffers.length = 1 ∧
      ∃ cmd ∈ executed.job.commands, firstArgument ∈ cmd.bufferObjects ∧ firstArgument.handle ∉ [1, 401, 602] := by
  intro job executed
  have second : executed.job.commands[1]?.map VPUCommand.bufferObjects = some [inferenceBuffer, firstArgument] := by
    decide +kernel
  obtain ⟨cmd, present, objects⟩ := Option.map_eq_some_iff.mp second
  refine ⟨by decide +kernel, by decide +kernel, by decide +kernel, cmd, List.mem_of_getElem? present, ?_, by decide⟩
  rw [objects]
  decide

end NpuDriver
