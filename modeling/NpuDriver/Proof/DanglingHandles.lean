import NpuDriver.Proof.HandleCompleteness
import NpuDriver.Proof.HeldHandles

/-! The handles that are passed to the kernel over the whole life of a job are those of buffers that
the job refers to. -/

namespace NpuDriver

open Library VPUCommandBuffer

/-- A job whose command buffers list accounted handles between submissions. -/
structure VPUJob.Sourced (job : VPUJob) : Prop where
  divided : Divided 0 job.cmdBuffers job.commands.length
  each : job.Each NpuDriver.Sourced

/-- A job whose command buffers list handles of referenced buffers only. -/
structure VPUJob.Referenced (job : VPUJob) : Prop where
  divided : Divided 0 job.cmdBuffers job.commands.length
  each : job.Each NpuDriver.Referenced

theorem VPUJob.Referenced.sourced {job : VPUJob} (referenced : job.Referenced) : job.Sourced :=
  ⟨referenced.divided, fun cmdBuffer member => (referenced.each cmdBuffer member).toSourced⟩

/-- Before a submission the first command buffer gives up its guard, and may be waited for, which then
drops its scratch and preemption buffers. -/
def VPUDeviceQueueManaged.PrepareKeeps (queue : VPUDeviceQueueManaged) (job : VPUJob) : Prop :=
  queue.isInOrder = true → ∀ front ∈ job.cmdBuffers.head?,
    if queue.lastWaitBo.map VPUBufferObject.id = some front.buffer.id then
      front.ReleaseTakes (front.commandsOf job.commands) ∧ front.SparesScratch (front.commandsOf job.commands) ∧
        front.SparesGuard (front.commandsOf job.commands) none
    else front.SparesGuard (front.commandsOf job.commands) queue.lastWaitBo

instance (queue : VPUDeviceQueueManaged) (job : VPUJob) : Decidable (queue.PrepareKeeps job) :=
  inferInstanceAs (Decidable (queue.isInOrder = true → ∀ front ∈ job.cmdBuffers.head?, _))

/-- What one operation stops to hold, it also stops to list: the guard that a wait at the head replaces,
and what a successful wait releases. Updates deal with identified buffer objects. -/
def JobCall.KeepsReferences (job : VPUJob) : JobCall → Prop
  | setUpdates _ _ => True
  | executeCommandLists queue preemptionBuffer ctx =>
    Share.EachUpdate Share.Identifies ctx job.shares ∧
      ((job.updateOnSubmit ctx).1 = true → queue.PrepareKeeps (updatedJob preemptionBuffer job ctx))
  | waitForCompletion _ => ∀ cmdBuffer ∈ job.cmdBuffers, cmdBuffer.ReleaseTakes (cmdBuffer.commandsOf job.commands)

instance (job : VPUJob) : (call : JobCall) → Decidable (call.KeepsReferences job)
  | .setUpdates _ _ => instDecidableTrue
  | .executeCommandLists queue preemptionBuffer ctx =>
    inferInstanceAs (Decidable (Share.EachUpdate Share.Identifies ctx job.shares ∧
      ((job.updateOnSubmit ctx).1 = true → queue.PrepareKeeps (updatedJob preemptionBuffer job ctx))))
  | .waitForCompletion _ => inferInstanceAs (Decidable (∀ cmdBuffer ∈ job.cmdBuffers, _))

namespace VPUJob

theorem Sourced.setUpdates {job : VPUJob} (sourced : job.Sourced) (present : job.commands[position]? = some cmd)
    (updatesMap : ArgumentUpdatesMap) :
    VPUJob.Sourced { job with commands := job.commands.set position (cmd.setUpdates updatesMap).2 } := by
  have same : List.Forall₂ VPUCommand.Updates job.commands
      (job.commands.set position (cmd.setUpdates updatesMap).2) :=
    pointwise_set VPUCommand.Updates.refl present (cmd.setUpdates_updates updatesMap)
  refine ⟨by simpa using sourced.divided, ?_⟩
  intro cmdBuffer member
  exact (sourced.each cmdBuffer member).updates (List.forall₂_take _ (List.forall₂_drop _ same))

theorem revised_of_marked {cmdBuffers marked : List VPUCommandBuffer} (related : List.Forall₂ Marked cmdBuffers marked) :
    List.Forall₂ (Revised Marked) cmdBuffers marked :=
  related.imp fun _ _ mark => ⟨mark.commandsBegin, mark.commandsEnd, mark⟩

/-- Marks of command buffers keep their lists referenced. -/
theorem Referenced.marked {job next : VPUJob} (referenced : job.Referenced) (commands : next.commands = job.commands)
    (marked : List.Forall₂ Marked job.cmdBuffers next.cmdBuffers) : next.Referenced := by
  have revision := revised_of_marked marked
  exact ⟨by rw [commands]; exact referenced.divided.revised revision,
    referenced.each.revised commands revision fun _ _ _ mark isReferenced => isReferenced.marked mark⟩

theorem Sourced.wait {job : VPUJob} (sourced : job.Sourced) {ctx : VPUDeviceContext}
    (takes : (JobCall.waitForCompletion ctx).KeepsReferences job) : (job.waitForCompletion ctx).2.1.Sourced := by
  obtain ⟨_, -, -, waited, -⟩ := waitBuffers_spec ctx job.cmdBuffers
  have each : job.Each fun cmdBuffer cmds => NpuDriver.Sourced cmdBuffer cmds ∧ cmdBuffer.ReleaseTakes cmds :=
    fun cmdBuffer member => ⟨sourced.each cmdBuffer member, takes cmdBuffer member⟩
  have revision : List.Forall₂ (Revised fun before after =>
      after = before ∨ ∃ status, after = release { before with jobStatus := status })
      job.cmdBuffers (job.waitForCompletion ctx).2.1.cmdBuffers := by
    refine waited.imp ?_
    rintro before after (rfl | ⟨-, status, rfl⟩)
    · exact ⟨rfl, rfl, .inl rfl⟩
    · obtain ⟨-, begins, ends, -⟩ := release_frame { before with jobStatus := status }
      exact ⟨begins, ends, .inr ⟨status, rfl⟩⟩
  refine ⟨sourced.divided.revised revision, each.revised rfl revision ?_⟩
  rintro before after cmds (rfl | ⟨status, rfl⟩) ⟨isSourced, taken⟩
  · exact isSourced
  · exact isSourced.release taken status

/-- The command buffers of a job that is closed anew. -/
theorem closeCommands_referenced {job : VPUJob} {ctx : VPUDeviceContext} (opened : job.closed = false)
    (balanced : ∀ cmd ∈ job.commands, cmd.Balanced) (remembers : ∀ cmd ∈ job.commands, cmd.Remembers)
    (success : (job.closeCommands ctx).1 = true) : (job.closeCommands ctx).2.1.Referenced := by
  have inside : ∀ share ∈ VPUJob.scheduleAll job.commands, ∀ cmd ∈ share, cmd ∈ job.commands := by
    intro share member cmd present
    rw [← scheduleAll_flatten job.commands]
    exact List.mem_flatten.mpr ⟨share, member, present⟩
  have built : ∀ share ∈ VPUJob.scheduleAll job.commands, ∀ ctx position cb patched next final,
      allocateCommandBuffer ctx position share = (some cb, patched, next) → Linked ctx cb final →
        NpuDriver.Referenced final patched :=
    fun share member _ _ _ _ _ _ allocated linked =>
      .allocated allocated linked (fun cmd present => balanced cmd (inside share member cmd present))
        fun cmd present => remembers cmd (inside share member cmd present)
  obtain ⟨divided, each, -⟩ := closeCommands_each opened built success
  exact ⟨divided, each⟩

theorem Sourced.commands {job : VPUJob} (sourced : job.Sourced) :
    (∀ cmd ∈ job.commands, cmd.Balanced) ∧ ∀ cmd ∈ job.commands, cmd.Remembers := by
  refine ⟨?_, ?_⟩ <;> intro cmd member <;> obtain ⟨cmdBuffer, present, owned⟩ := sourced.divided.owner member
  · exact (sourced.each cmdBuffer present).balanced cmd owned
  · exact (sourced.each cmdBuffer present).remembers cmd owned

/-- The patches of `makeInOrder`: a wait at the head of the first command buffer, and marks. -/
theorem chain_marked (job : VPUJob) (front : VPUCommandBuffer) (rest : List VPUCommandBuffer)
    (waitFor : Option VPUBufferObject) (ctx : VPUDeviceContext) :
    ∃ cmdBuffers inOrder, (chain job front rest waitFor ctx).job =
        { job with cmdBuffers := cmdBuffers, hasInOrderWorkload := inOrder } ∧
      List.Forall₂ Marked ((front.addWaitAtHead ctx waitFor true).2 :: rest) cmdBuffers := by
  unfold chain
  generalize front.addWaitAtHead ctx waitFor true = answer
  obtain ⟨success, waiting⟩ := answer
  cases success with
  | false => exact ⟨waiting :: rest, job.hasInOrderWorkload, rfl, pointwise_refl Marked.refl _⟩
  | true =>
    simp only
    have tail := addSelfSignalAtTail_marked ((waiting :: rest).getLast (List.cons_ne_nil waiting rest))
    generalize ((waiting :: rest).getLast (List.cons_ne_nil waiting rest)).addSelfSignalAtTail = signal at tail
    obtain ⟨signalled, signalling⟩ := signal
    have marked := pointwise_last Marked.refl _ tail
    cases signalled with
    | false => exact ⟨_, job.hasInOrderWorkload, rfl, marked⟩
    | true => exact ⟨_, true, rfl, marked⟩

/-- A chain keeps the lists referenced when the former guard of the first command buffer is spared. -/
theorem chain_referenced {job : VPUJob} {front : VPUCommandBuffer} {rest : List VPUCommandBuffer}
    (divided : Divided 0 (front :: rest) job.commands.length)
    (each : ∀ cmdBuffer ∈ front :: rest, NpuDriver.Referenced cmdBuffer (cmdBuffer.commandsOf job.commands))
    {waitFor : Option VPUBufferObject} (spares : front.SparesGuard (front.commandsOf job.commands) waitFor)
    (ctx : VPUDeviceContext) : (chain job front rest waitFor ctx).job.Referenced := by
  obtain ⟨cmdBuffers, inOrder, result, marked⟩ := chain_marked job front rest waitFor ctx
  rw [result]
  have frame := front.addWaitAtHead_extends ctx waitFor true
  have head := each front List.mem_cons_self
  have waiting : VPUJob.Referenced { job with cmdBuffers := (front.addWaitAtHead ctx waitFor true).2 :: rest } := by
    constructor
    · obtain ⟨begins, grows, others⟩ := divided
      exact ⟨frame.commandsBegin.trans begins, by rw [frame.commandsEnd]; exact grows,
        by rw [frame.commandsEnd]; exact others⟩
    · intro cmdBuffer member
      rcases List.mem_cons.mp member with rfl | later
      · have same : (front.addWaitAtHead ctx waitFor true).2.commandsOf job.commands =
            front.commandsOf job.commands := by
          rw [commandsOf, commandsOf, frame.commandsBegin, frame.commandsEnd]
        rw [same]
        exact head.keeps (addWaitAtHead_keeps head.mapped head.room ctx spares true) frame.inferenceScratchBuffer
      · exact each cmdBuffer (List.mem_cons_of_mem front later)
  exact waiting.marked rfl marked

/-- The successful wait of `makeInOrder` for the first command buffer, and the chain without a wait. -/
theorem Referenced.frontWaited {job : VPUJob} (referenced : job.Referenced) {front : VPUCommandBuffer}
    {rest : List VPUCommandBuffer} (split : job.cmdBuffers = front :: rest)
    (takes : front.ReleaseTakes (front.commandsOf job.commands))
    (spares : front.SparesScratch (front.commandsOf job.commands))
    (sparesGuard : front.SparesGuard (front.commandsOf job.commands) none) (status : Nat) (ctx : VPUDeviceContext) :
    (chain job (release { front with jobStatus := status }).resetFenceValue rest none ctx).job.Referenced := by
  obtain ⟨buffer, begins, ends, guard, -⟩ := release_frame { front with jobStatus := status }
  have divided := referenced.divided
  have each := referenced.each
  unfold VPUJob.Each at each
  rw [split] at divided each
  have same : (release { front with jobStatus := status }).resetFenceValue.commandsOf job.commands =
      front.commandsOf job.commands := by
    simp only [commandsOf, resetFenceValue, begins, ends]
  refine chain_referenced ?_ ?_ ?_ ctx
  · obtain ⟨first, grows, others⟩ := divided
    exact ⟨begins.trans first, grows.trans (Nat.le_of_eq ends.symm), by simpa [resetFenceValue, ends] using others⟩
  · intro cmdBuffer member
    rcases List.mem_cons.mp member with rfl | later
    · rw [same]
      exact ((each front List.mem_cons_self).release takes spares status).marked (resetFenceValue_marked _)
    · exact each cmdBuffer (List.mem_cons_of_mem front later)
  · rw [same]
    intro bo guarded
    have former : bo ∈ front.waitBoGuard := guard ▸ guarded
    have own : (release { front with jobStatus := status }).resetFenceValue.buffer = front.buffer := buffer
    rw [own]
    exact sparesGuard bo former

/-- A job that was prepared for a submission lists handles of referenced buffers only; in any case its
handles stay accounted for unless it was left unclosed. -/
theorem Referenced.prepare {job : VPUJob} (referenced : job.Referenced) (closed : job.closed = true)
    {queue : VPUDeviceQueueManaged} (keeps : queue.PrepareKeeps job) (ctx : VPUDeviceContext) :
    ((queue.prepare job ctx).job.closed = true → (queue.prepare job ctx).job.Sourced) ∧
      ((queue.prepare job ctx).success = true → (queue.prepare job ctx).job.Referenced) := by
  have weaken : ∀ {result : VPUDeviceQueueManaged.Submitted}, result.job.Referenced →
      (result.job.closed = true → result.job.Sourced) ∧ (result.success = true → result.job.Referenced) :=
    fun isReferenced => ⟨fun _ => isReferenced.sourced, fun _ => isReferenced⟩
  unfold VPUDeviceQueueManaged.prepare
  split
  · rename_i inOrder
    apply weaken
    change (job.makeInOrder queue.lastWaitBo ctx).job.Referenced
    rcases job.makeInOrder_cases queue.lastWaitBo ctx with
      ⟨-, result⟩ | ⟨front, rest, split, ⟨-, next, result, -⟩ | ⟨back, status, next, result, -⟩ | ⟨back, result⟩⟩
    · rw [result]
      exact referenced
    · rw [result]
      exact referenced
    · have kept := keeps inOrder front (by rw [split]; rfl)
      rw [if_pos back] at kept
      obtain ⟨takes, spares, sparesGuard⟩ := kept
      rw [result]
      exact referenced.frontWaited split takes spares sparesGuard status next
    · have kept := keeps inOrder front (by rw [split]; rfl)
      rw [if_neg back] at kept
      have divided := referenced.divided
      have each := referenced.each
      unfold VPUJob.Each at each
      rw [split] at divided each
      rw [result]
      exact chain_referenced divided each kept ctx
  · split
    · simp only [stripInOrder, closed, Bool.not_true, Bool.false_eq_true, ↓reduceIte]
      obtain ⟨balanced, remembers⟩ := referenced.sourced.commands
      have rebuilt := @closeCommands_referenced { job with cmdBuffers := [], hasInOrderWorkload := false, closed := false }
        ctx rfl balanced remembers
      have success_closed : (VPUJob.closeCommands
          { job with cmdBuffers := [], hasInOrderWorkload := false, closed := false } ctx).2.1.closed =
          (VPUJob.closeCommands
            { job with cmdBuffers := [], hasInOrderWorkload := false, closed := false } ctx).1 := by
        simp [closeCommands]
      exact ⟨fun isClosed => (rebuilt (success_closed ▸ isClosed)).sourced, rebuilt⟩
    · exact weaken referenced

/-- The update of a job, and the addition of the preemption buffer behind a successful one. -/
theorem Sourced.updated {job : VPUJob} (sourced : job.Sourced) {ctx : VPUDeviceContext}
    (identifies : Share.EachUpdate Share.Identifies ctx job.shares) (preemptionBuffer : Option VPUBufferObject) :
    (job.updateOnSubmit ctx).2.1.Sourced ∧ (job.updateOnSubmit ctx).2.1.closed = job.closed ∧
      ((job.updateOnSubmit ctx).1 = true → (updatedJob preemptionBuffer job ctx).Referenced) := by
  obtain ⟨success, updated, next, result, shares, divided, closed, -⟩ := job.updateOnSubmit_shares ctx sourced.divided
  have both : (∀ share ∈ (Share.updateAll ctx job.shares).2.1, NpuDriver.Sourced share.cmdBuffer share.commands) ∧
      ((Share.updateAll ctx job.shares).1 = true →
        ∀ share ∈ (Share.updateAll ctx job.shares).2.1, NpuDriver.Referenced share.cmdBuffer share.commands) :=
    Share.updateAll_each (fun _ _ => Sourced.update) (VPUJob.each_shares.mp sourced.each) identifies
  obtain ⟨kept, reached⟩ := both
  unfold updatedJob
  rw [shares] at kept reached
  rw [result]
  refine ⟨⟨divided, VPUJob.each_shares.mpr kept⟩, closed, fun succeeded => ?_⟩
  have referenced : updated.Each NpuDriver.Referenced := VPUJob.each_shares.mpr (reached succeeded)
  have revision : List.Forall₂ (Revised fun before after => after = before.addPreemptionBuffer preemptionBuffer)
      updated.cmdBuffers (updated.addPreemptionBuffer preemptionBuffer).cmdBuffers :=
    List.forall₂_map_right_iff.mpr (List.forall₂_same.mpr fun cmdBuffer _ =>
      cmdBuffer.addPreemptionBuffer_revised preemptionBuffer)
  refine ⟨divided.revised revision, referenced.revised rfl revision ?_⟩
  rintro before after cmds rfl isReferenced
  exact isReferenced.addPreemptionBuffer preemptionBuffer

/-- A submission keeps the handles of a job accounted for; the job that it hands to the kernel lists
those of referenced buffers only. -/
theorem Sourced.execute {job : VPUJob} (sourced : job.Sourced) (closed : job.closed = true)
    {queue : VPUDeviceQueueManaged} {preemptionBuffer : Option VPUBufferObject} {ctx : VPUDeviceContext}
    (keeps : (JobCall.executeCommandLists queue preemptionBuffer ctx).KeepsReferences job) :
    ((executeJob queue preemptionBuffer job ctx).job.closed = true →
        (executeJob queue preemptionBuffer job ctx).job.Sourced) ∧
      ((job.updateOnSubmit ctx).1 = true → (handedJob queue preemptionBuffer job ctx).success = true →
        (handedJob queue preemptionBuffer job ctx).job.Referenced) := by
  obtain ⟨identifies, later⟩ := keeps
  obtain ⟨afterUpdate, stillClosed, referenced⟩ := sourced.updated identifies preemptionBuffer
  have prepared : (job.updateOnSubmit ctx).1 = true → _ := fun success =>
    (referenced success).prepare (stillClosed.trans closed) (later success) (job.updateOnSubmit ctx).2.2
  refine ⟨?_, fun success => (prepared success).2⟩
  rcases executeJob_spec queue preemptionBuffer job ctx with
    ⟨-, -, -, result, -⟩ | ⟨success, -, -, -, result, -⟩ | ⟨success, handed, -⟩
  · rw [result]
    exact fun _ => afterUpdate
  · rw [result]
    exact (prepared success).1
  · obtain ⟨cmdBuffers, added, result, marked, -⟩ := executeJob_tries Marked.refl (fun _ _ _ => Marked.trans)
      useBusyWait_marked success handed
    rw [result]
    have isReferenced : (handedJob queue preemptionBuffer job ctx).job.Referenced := (prepared success).2 handed
    have final : VPUJob.Referenced { (handedJob queue preemptionBuffer job ctx).job with cmdBuffers := cmdBuffers } :=
      isReferenced.marked rfl marked
    exact fun _ => final.sourced

end VPUJob

theorem JobCall.keeps_sourced (job : VPUJob) (call : JobCall) (sourced : job.closed = true → job.Sourced)
    (keeps : job.closed = true → call.KeepsReferences job) : (call.run job).closed = true → (call.run job).Sourced := by
  cases call with
  | setUpdates position updatesMap =>
    simp only [JobCall.run]
    split
    · exact sourced
    · rename_i cmd present
      exact fun closed => (sourced closed).setUpdates present updatesMap
  | executeCommandLists queue preemptionBuffer ctx =>
    simp only [JobCall.run]
    split
    · rename_i closed
      exact ((sourced closed).execute closed (keeps closed)).1
    · exact sourced
  | waitForCompletion ctx => exact fun closed => (sourced closed).wait (keeps closed)

/-- In every run of a job in which what is no longer held is no longer listed, every handle that a
submission passes to the kernel is the one of a buffer that the command buffer or one of its commands
refers to. -/
theorem submitted_handles_referenced {commands : List VPUCommand} {ctx : VPUDeviceContext}
    (created : ∀ cmd ∈ commands, ∀ inference, cmd.isInference = some inference →
      ∃ ctx parser hpi inputs outputs inputStrides outputStrides profilingQuery inferenceId bos,
        (VPUInferenceExecute.create ctx parser hpi inputs outputs inputStrides outputStrides profilingQuery
          inferenceId bos).1 = .ok cmd)
    (closes : (VPUJob.closeCommands ⟨commands, [], false, false⟩ ctx).1 = true) {calls : List JobCall}
    {queue : VPUDeviceQueueManaged} {preemptionBuffer : Option VPUBufferObject} {final : VPUDeviceContext}
    (guarded : Guarded JobCall.run JobCall.KeepsReferences
      (VPUJob.closeCommands ⟨commands, [], false, false⟩ ctx).2.1
      (calls ++ [.executeCommandLists queue preemptionBuffer final])) :
    let job := runFrom JobCall.run (VPUJob.closeCommands ⟨commands, [], false, false⟩ ctx).2.1 calls
    job.closed = true → ∃ added, (executeJob queue preemptionBuffer job final).ctx.calls = final.calls ++ added ∧
      ∀ buffer handles index id accepted, .submit buffer handles index id accepted ∈ added →
        ∃ share ∈ (handedJob queue preemptionBuffer job final).job.shares, share.cmdBuffer.buffer = buffer ∧
          ∀ handle ∈ handles, handle ∈ referencedHandles share.cmdBuffer share.commands := by
  intro job closed
  have initial : (VPUJob.closeCommands ⟨commands, [], false, false⟩ ctx).2.1.Sourced := by
    refine (VPUJob.closeCommands_referenced rfl ?_ ?_ closes).sourced
    · intro cmd member inference is
      obtain ⟨_, _, _, _, _, _, _, _, _, _, made⟩ := created cmd member inference is
      exact VPUInferenceExecute.create_balanced made inference is
    · intro cmd member inference is
      obtain ⟨_, _, _, _, _, _, _, _, _, _, made⟩ := created cmd member inference is
      exact VPUInferenceExecute.create_remembers made inference is
  obtain ⟨before, last, -⟩ := guarded_append.mp guarded
  have sourced : job.Sourced := guarded_invariant (fun state action valid keeps =>
    JobCall.keeps_sourced state action valid fun _ => keeps) (fun _ => initial) before closed
  have updates := job.updateOnSubmit_calls final
  have prepares := queue.prepare_calls (updatedJob preemptionBuffer job final) (job.updateOnSubmit final).2.2
  have onlyWaits : ∀ {added : List DriverCall},
      (∀ call ∈ added, ∃ buffer completed, call = DriverCall.wait buffer completed) →
      ∀ buffer handles index id accepted, DriverCall.submit buffer handles index id accepted ∉ added := by
    intro added only buffer handles index id accepted member
    obtain ⟨_, _, wait⟩ := only _ member
    cases wait
  obtain ⟨waited, waits, -, only⟩ := prepares
  rcases executeJob_spec queue preemptionBuffer job final with
    ⟨-, -, -, -, same⟩ | ⟨-, -, -, -, -, same⟩ | ⟨success, handed, -⟩
  · exact ⟨[], by rw [same, updates, List.append_nil], nofun⟩
  · refine ⟨waited, by rw [same, ← updates]; exact waits, ?_⟩
    intro buffer handles index id accepted member
    exact (onlyWaits only buffer handles index id accepted member).elim
  · have referenced := (sourced.execute closed last).2 success handed
    obtain ⟨cmdBuffers, added, -, -, requested, tries⟩ := executeJob_tries Marked.refl (fun _ _ _ => Marked.trans)
      useBusyWait_marked success handed
    have calls_eq : (executeJob queue preemptionBuffer job final).ctx.calls = final.calls ++ (waited ++ added) := by
      rw [requested, ← updates, ← List.append_assoc]
      exact congrArg (· ++ added) waits
    refine ⟨waited ++ added, calls_eq, ?_⟩
    intro buffer handles index id accepted member
    rcases List.mem_append.mp member with early | late
    · exact (onlyWaits only buffer handles index id accepted early).elim
    · obtain ⟨cmdBuf, present, tried, _, _, _, marked, request⟩ := tries _ late
      cases request
      have isReferenced := referenced.each cmdBuf present
      refine ⟨⟨cmdBuf, cmdBuf.commandsOf (handedJob queue preemptionBuffer job final).job.commands⟩,
        List.mem_map.mpr ⟨cmdBuf, present, rfl⟩, marked.buffer.symm, ?_⟩
      intro handle listed
      rcases marked.only handle listed with former | own
      · exact (isReferenced.referenced handle former).elim (List.mem_append_left _) (List.mem_append_right _)
      · exact List.mem_append_left _ (mem_heldHandles.mpr (.inl own))

/-- The last command buffers of two other jobs, and an in-order queue whose latest job ends in a buffer. -/
def awaitedBuffer : VPUBufferObject := ⟨700, 701, 2 ^ 33, 4096, 2 ^ 33⟩

def laterBuffer : VPUBufferObject := ⟨701, 702, 2 ^ 34, 4096, 2 ^ 34⟩

def inOrderAfter (lastWaitBo : Option VPUBufferObject) : VPUDeviceQueueManaged := ⟨1, 1, 2, true, false, lastWaitBo⟩

/-- A job is submitted behind another one, waited for, its argument moves, and it is submitted to a queue
without order, for which it is built anew. -/
theorem submitted_handles_referenced_moved :
    let job := runFrom JobCall.run (closedJob [argumentInference])
      [.executeCommandLists (inOrderAfter (some awaitedBuffer)) (some preemptionBuffer) argumentContext,
        .waitForCompletion argumentContext, moveArgument 0]
    job.closed = true ∧
      ∃ added, (executeJob defaultQueue none job argumentContext).ctx.calls = argumentContext.calls ++ added ∧
        ∀ buffer handles index id accepted, .submit buffer handles index id accepted ∈ added →
          ∃ share ∈ (handedJob defaultQueue none job argumentContext).job.shares,
            share.cmdBuffer.buffer = buffer ∧
              ∀ handle ∈ handles, handle ∈ referencedHandles share.cmdBuffer share.commands := by
  intro job
  have closed : job.closed = true := by decide +kernel
  refine ⟨closed, submitted_handles_referenced ?_ (by decide +kernel) ?_ closed⟩
  · intro cmd member inference is
    rw [List.mem_singleton.mp member]
    exact ⟨_, _, _, _, _, _, _, _, _, _, argumentInference_created⟩
  · change Guarded _ _ (closedJob [argumentInference]) _
    decide +kernel

/-- A job that is submitted behind one job and then behind another one still lists the buffer of the
first, which it no longer refers to. -/
theorem replaced_guard_stays_listed :
    let job := runFrom JobCall.run (closedJob [argumentInference])
      [.executeCommandLists (inOrderAfter (some awaitedBuffer)) none argumentContext]
    let executed := executeJob (inOrderAfter (some laterBuffer)) none job argumentContext
    executed.result = .ZE_RESULT_SUCCESS ∧
      executed.ctx.calls = executed.job.cmdBuffers.map (fun cmdBuffer =>
        .submit cmdBuffer.buffer [1, 401, 601, awaitedBuffer.handle, laterBuffer.handle] 0 1 true) ∧
      executed.job.cmdBuffers.length = 1 ∧
      ∀ share ∈ (handedJob (inOrderAfter (some laterBuffer)) none job argumentContext).job.shares,
        awaitedBuffer.handle ∉ referencedHandles share.cmdBuffer share.commands := by
  refine ⟨by decide +kernel, by decide +kernel, by decide +kernel, by decide +kernel⟩

end NpuDriver
