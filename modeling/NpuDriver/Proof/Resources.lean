import NpuDriver.Proof.JobExecution
import NpuDriver.Proof.ListedHandles
import NpuDriver.Proof.PreemptionIndex

/-! The scratch and preemption buffers of a submission, from its update to its wait. -/

namespace NpuDriver

open Library VPUCommandBuffer

/-- A submission that was accepted and not waited for: its command buffer, the scratch buffer chosen for
it and the preemption buffer passed with it. -/
structure Outstanding where
  buffer : VPUBufferObject
  scratch : Option VPUBufferObject
  preemption : Option VPUBufferObject
deriving DecidableEq

/-- A job with its outstanding submissions. -/
structure SubmittedJob where
  job : VPUJob
  outstanding : List Outstanding

/-- The scratch buffer that an update chose for the command buffer at a position. -/
def chosenScratch (updated : VPUJob) (position : Nat) : Option VPUBufferObject :=
  updated.cmdBuffers[position]?.bind VPUCommandBuffer.inferenceScratchBuffer

/-- The submissions of a job that was accepted. -/
def submissions (updated : VPUJob) (preemptionBuffer : Option VPUBufferObject)
    (cmdBuffers : List VPUCommandBuffer) : List Outstanding :=
  cmdBuffers.mapIdx fun position cmdBuffer =>
    ⟨cmdBuffer.buffer,
      if cmdBuffer.inferenceScratchSize = 0 then none else chosenScratch updated position, preemptionBuffer⟩

/-- The submissions that are left after the waits among the requests from `before` to `after`. -/
def leftOutstanding (outstanding : List Outstanding) (before after : VPUDeviceContext) : List Outstanding :=
  outstanding.filter fun submission =>
    submission.buffer ∉ completedBuffers (after.calls.drop before.calls.length)

def SubmittedJob.run (state : SubmittedJob) : JobCall → SubmittedJob
  | .setUpdates position updatesMap =>
    { state with job := JobCall.run state.job (.setUpdates position updatesMap) }
  | .executeCommandLists queue preemptionBuffer ctx =>
    if state.job.closed then
      let executed := executeJob queue preemptionBuffer state.job ctx
      let left := leftOutstanding state.outstanding ctx executed.ctx
      if executed.result = .ZE_RESULT_SUCCESS then
        ⟨executed.job, left ++
          submissions (state.job.updateOnSubmit ctx).2.1 preemptionBuffer executed.job.cmdBuffers⟩
      else ⟨executed.job, left⟩
    else state
  | .waitForCompletion ctx =>
    let waited := state.job.waitForCompletion ctx
    ⟨waited.2.1, leftOutstanding state.outstanding ctx waited.2.2⟩

/-- Some command buffer of the job still holds what the submission was given. -/
def Outstanding.HeldBy (submission : Outstanding) (cmdBuffers : List VPUCommandBuffer) : Prop :=
  (∀ bo, submission.scratch = some bo → ∃ cmdBuffer ∈ cmdBuffers,
      cmdBuffer.buffer = submission.buffer ∧ cmdBuffer.inferenceScratchBuffer = some bo) ∧
    ∀ bo, submission.preemption = some bo → ∃ cmdBuffer ∈ cmdBuffers,
      cmdBuffer.buffer = submission.buffer ∧ cmdBuffer.preemptionBuffer = some bo

/-- A command buffer has what its submission is to be given, and lists the handles of it. -/
def VPUCommandBuffer.Supplied (cb : VPUCommandBuffer) (scratch preemption : Option VPUBufferObject)
    (handles : List Nat) : Prop :=
  (cb.inferenceScratchSize ≠ 0 → ∃ bo, scratch = some bo ∧ cb.inferenceScratchBuffer = some bo ∧
      bo.handle ∈ handles) ∧
    ∀ bo, preemption = some bo → cb.preemptionBuffer = some bo ∧ bo.handle ∈ handles

/-- An update gives up neither the handle of the scratch buffer that it acquires nor that of a
preemption buffer that is held. -/
def Share.SuppliesKept (share : Share) (ctx : VPUDeviceContext) : Prop :=
  ∀ bo ∈ (share.cmdBuffer.plannedScratch ctx).1.join.toList ++ share.cmdBuffer.preemptionBuffer.toList,
    ¬ Edit.GivesUp (share.cmdBuffer.plannedEdits share.commands ctx) bo.handle

instance (share : Share) (ctx : VPUDeviceContext) : Decidable (share.SuppliesKept ctx) :=
  inferInstanceAs (Decidable (∀ bo ∈ _, _))

/-- No inference of the commands uses scratch. -/
def NoScratch (cmds : List VPUCommand) : Prop :=
  ∀ cmd ∈ cmds, ∀ inference ∈ cmd.isInference, inference.sharedScratchSize = 0

instance (cmds : List VPUCommand) : Decidable (NoScratch cmds) :=
  inferInstanceAs (Decidable (∀ cmd ∈ cmds, _))

/-- The submission of a job drops nothing that it was or is to be given: (1) a command buffer with
scratch has no submission outstanding that holds scratch; (2) it holds no preemption buffer other
than the one passed; (3) an in-order queue need not wait for the first command buffer, unless that
one is given nothing; (4) command buffers are only built anew when neither they nor outstanding
submissions are given anything; (5) the updates of the lists of handles keep the handles given. -/
structure SubmittedJob.DropsNothing (state : SubmittedJob) (queue : VPUDeviceQueueManaged)
    (preemptionBuffer : Option VPUBufferObject) (ctx : VPUDeviceContext) : Prop where
  scratch : ∀ cmdBuffer ∈ state.job.cmdBuffers, cmdBuffer.inferenceScratchSize ≠ 0 →
    ∀ submission ∈ state.outstanding, submission.buffer = cmdBuffer.buffer → submission.scratch = none
  preemption : ∀ bo ∈ preemptionBuffer, ∀ cmdBuffer ∈ state.job.cmdBuffers,
    cmdBuffer.preemptionBuffer = none ∨ cmdBuffer.preemptionBuffer = some bo
  front : queue.isInOrder = true → ∀ front ∈ state.job.cmdBuffers.head?,
    queue.lastWaitBo.map VPUBufferObject.id = some front.buffer.id →
      front.inferenceScratchSize = 0 ∧ preemptionBuffer = none
  strip : queue.isInOrder = false → state.job.hasInOrderWorkload = true →
    preemptionBuffer = none ∧ NoScratch state.job.commands ∧
      ∀ submission ∈ state.outstanding, submission.scratch = none ∧ submission.preemption = none
  handles : Share.EachUpdate Share.SuppliesKept ctx state.job.shares

/-- Only submissions can drop what an earlier or the present submission holds. -/
def SubmittedJob.KeepsResources (state : SubmittedJob) : JobCall → Prop
  | .executeCommandLists queue preemptionBuffer ctx => state.DropsNothing queue preemptionBuffer ctx
  | _ => True

instance (state : SubmittedJob) (queue : VPUDeviceQueueManaged) (preemptionBuffer : Option VPUBufferObject)
    (ctx : VPUDeviceContext) : Decidable (state.DropsNothing queue preemptionBuffer ctx) :=
  decidable_of_iff
    ((∀ cmdBuffer ∈ state.job.cmdBuffers, cmdBuffer.inferenceScratchSize ≠ 0 →
        ∀ submission ∈ state.outstanding, submission.buffer = cmdBuffer.buffer → submission.scratch = none) ∧
      (∀ bo ∈ preemptionBuffer, ∀ cmdBuffer ∈ state.job.cmdBuffers,
        cmdBuffer.preemptionBuffer = none ∨ cmdBuffer.preemptionBuffer = some bo) ∧
      (queue.isInOrder = true → ∀ front ∈ state.job.cmdBuffers.head?,
        queue.lastWaitBo.map VPUBufferObject.id = some front.buffer.id →
          front.inferenceScratchSize = 0 ∧ preemptionBuffer = none) ∧
      (queue.isInOrder = false → state.job.hasInOrderWorkload = true →
        preemptionBuffer = none ∧ NoScratch state.job.commands ∧
          ∀ submission ∈ state.outstanding, submission.scratch = none ∧ submission.preemption = none) ∧
      Share.EachUpdate Share.SuppliesKept ctx state.job.shares)
    ⟨fun ⟨scratch, preemption, front, strip, handles⟩ => ⟨scratch, preemption, front, strip, handles⟩,
      fun drops => ⟨drops.scratch, drops.preemption, drops.front, drops.strip, drops.handles⟩⟩

instance (state : SubmittedJob) (call : JobCall) : Decidable (state.KeepsResources call) :=
  match call with
  | .setUpdates _ _ => inferInstanceAs (Decidable True)
  | .executeCommandLists queue preemptionBuffer ctx =>
    inferInstanceAs (Decidable (state.DropsNothing queue preemptionBuffer ctx))
  | .waitForCompletion _ => inferInstanceAs (Decidable True)

/-- What holds of a command buffer and its commands between submissions. -/
structure Provided (cb : VPUCommandBuffer) (cmds : List VPUCommand) : Prop where
  scratchUser : cb.inferenceScratchSize ≠ 0 → ¬ NoScratch cmds
  preemptionHandle : ∀ bo, cb.preemptionBuffer = some bo → bo.handle ∈ cb.bufferHandles

theorem Provided.patched {before after : VPUCommandBuffer} {cmds : List VPUCommand}
    (provided : Provided before cmds) (patched : before.Patched after) : Provided after cmds := by
  refine ⟨?_, ?_⟩
  · rw [patched.inferenceScratchSize]
    exact provided.scratchUser
  · intro bo held
    rw [patched.preemptionBuffer] at held
    exact patched.handles.subset (provided.preemptionHandle bo held)

theorem VPUCommandBuffer.Supplied.patched {before after : VPUCommandBuffer}
    (supplied : before.Supplied scratch preemption before.bufferHandles) (patched : before.Patched after) :
    after.Supplied scratch preemption after.bufferHandles := by
  refine ⟨?_, ?_⟩
  · rw [patched.inferenceScratchSize, patched.inferenceScratchBuffer]
    intro used
    obtain ⟨bo, chosen, held, listed⟩ := supplied.1 used
    exact ⟨bo, chosen, held, patched.handles.subset listed⟩
  · rw [patched.preemptionBuffer]
    intro bo passed
    obtain ⟨held, listed⟩ := supplied.2 bo passed
    exact ⟨held, patched.handles.subset listed⟩

/-- A change of the command buffers that keeps what they hold keeps it for every submission. -/
theorem Outstanding.HeldBy.mono {submission : Outstanding} {before after : List VPUCommandBuffer}
    (held : submission.HeldBy before)
    (scratch : ∀ cmdBuffer ∈ before, cmdBuffer.buffer = submission.buffer → ∀ bo, submission.scratch = some bo →
      cmdBuffer.inferenceScratchBuffer = some bo →
      ∃ other ∈ after, other.buffer = submission.buffer ∧ other.inferenceScratchBuffer = some bo)
    (preemption : ∀ cmdBuffer ∈ before, cmdBuffer.buffer = submission.buffer →
      ∀ bo, submission.preemption = some bo → cmdBuffer.preemptionBuffer = some bo →
      ∃ other ∈ after, other.buffer = submission.buffer ∧ other.preemptionBuffer = some bo) :
    submission.HeldBy after := by
  refine ⟨?_, ?_⟩
  · intro bo given
    obtain ⟨cmdBuffer, member, same, holds⟩ := held.1 bo given
    exact scratch cmdBuffer member same bo given holds
  · intro bo given
    obtain ⟨cmdBuffer, member, same, holds⟩ := held.2 bo given
    exact preemption cmdBuffer member same bo given holds

theorem Outstanding.HeldBy.patched {submission : Outstanding} {before after : List VPUCommandBuffer}
    (held : submission.HeldBy before) (patched : List.Forall₂ Patched before after) : submission.HeldBy after := by
  refine held.mono ?_ ?_ <;> intro cmdBuffer member same bo _ holds <;>
  · obtain ⟨other, present, patch⟩ := exists_image patched cmdBuffer member
    refine ⟨other, present, patch.buffer.trans same, ?_⟩
    first
    | rw [patch.inferenceScratchBuffer]; exact holds
    | rw [patch.preemptionBuffer]; exact holds

/-- The update of one share: what is held stays, and after a successful update the buffer has its
scratch buffer with the handle listed. -/
theorem Provided.update {share : Share} {ctx : VPUDeviceContext}
    (provided : Provided share.cmdBuffer share.commands) (kept : share.SuppliesKept ctx) :
    Provided (share.update ctx).2.1.cmdBuffer (share.update ctx).2.1.commands ∧
      ((share.update ctx).1 = true → Provided (share.update ctx).2.1.cmdBuffer (share.update ctx).2.1.commands ∧
        (share.update ctx).2.1.cmdBuffer.Supplied (share.update ctx).2.1.cmdBuffer.inferenceScratchBuffer none
          (share.update ctx).2.1.cmdBuffer.bufferHandles) := by
  obtain ⟨cb, cmds⟩ := share
  obtain ⟨success, scratchBuffer, updated, next, step, -, refreshed, reached, -, acquired⟩ :=
    cb.updateCommands_plan cmds ctx
  have result : Share.update ⟨cb, cmds⟩ ctx = (success, ⟨(cb.withScratchBuffer scratchBuffer).withHandles
      (Edit.applyAll (cb.plannedEdits cmds ctx) cb.bufferHandles), updated⟩, next) := by
    simp only [Share.update, step]
  rw [result]
  have after : Provided ((cb.withScratchBuffer scratchBuffer).withHandles
      (Edit.applyAll (cb.plannedEdits cmds ctx) cb.bufferHandles)) updated := by
    refine ⟨?_, ?_⟩
    · intro used unused
      refine provided.scratchUser used ?_
      intro cmd present inference is
      obtain ⟨other, updatedPresent, changed⟩ := exists_image refreshed cmd present
      obtain ⟨final, isFinal, same⟩ := changed.2 inference is
      rw [← same.sharedScratchSize]
      exact unused other updatedPresent final isFinal
    · intro bo held
      refine Edit.mem_applyAll.mpr ⟨.inl (provided.preemptionHandle bo held), ?_⟩
      have same : cb.preemptionBuffer = some bo := held
      exact kept bo (List.mem_append_right _ (by simp [same]))
  refine ⟨after, fun succeeded => ⟨after, ?_, fun bo passed => absurd passed.symm (Option.some_ne_none bo)⟩⟩
  simp only at succeeded
  subst succeeded
  intro used
  obtain ⟨bo, rfl⟩ := acquired rfl used
  have planned := (reached rfl).1
  refine ⟨bo, rfl, rfl, ?_⟩
  have user := provided.scratchUser used
  simp only [NoScratch, not_forall] at user
  obtain ⟨cmd, present, inference, is, needed⟩ := user
  refine Edit.mem_applyAll.mpr ⟨.inr (updateCommands_scratch (by rw [step]) planned present is needed), ?_⟩
  exact kept bo (List.mem_append_left _ (by simp [planned]))

/-- The update of a command buffer leaves its identity and its preemption buffer alone, and its scratch
buffer unless it needs one. -/
structure Renewed (before after : VPUCommandBuffer) : Prop where
  buffer : after.buffer = before.buffer
  inferenceScratchSize : after.inferenceScratchSize = before.inferenceScratchSize
  preemptionBuffer : after.preemptionBuffer = before.preemptionBuffer
  unused : before.inferenceScratchSize = 0 → after.inferenceScratchBuffer = before.inferenceScratchBuffer

theorem Share.update_renewed (share : Share) (ctx : VPUDeviceContext) :
    Renewed share.cmdBuffer (share.update ctx).2.1.cmdBuffer ∧
      (NoScratch share.commands → NoScratch (share.update ctx).2.1.commands) := by
  obtain ⟨success, scratchBuffer, cmds, next, step, -, refreshed, -, same, -⟩ :=
    share.cmdBuffer.updateCommands_plan share.commands ctx
  simp only [Share.update, step]
  refine ⟨⟨rfl, rfl, rfl, same⟩, ?_⟩
  intro unused cmd present inference is
  obtain ⟨before, original, changed⟩ := exists_partner refreshed cmd present
  cases former : before.isInference with
  | none =>
    rw [changed.1 former] at is
    cases is
  | some old =>
    obtain ⟨final, isFinal, unchanged⟩ := changed.2 old former
    rw [isFinal] at is
    cases is
    rw [unchanged.sharedScratchSize]
    exact unused before original old former

theorem updateOnSubmit_renewed {job : VPUJob} (ctx : VPUDeviceContext)
    (divided : Divided 0 job.cmdBuffers job.commands.length) :
    List.Forall₂ Renewed job.cmdBuffers (job.updateOnSubmit ctx).2.1.cmdBuffers ∧
      (NoScratch job.commands → NoScratch (job.updateOnSubmit ctx).2.1.commands) := by
  obtain ⟨success, updated, next, result, shares, parts, -⟩ := job.updateOnSubmit_shares ctx divided
  have pointwise : List.Forall₂ (fun before after : Share => Renewed before.cmdBuffer after.cmdBuffer ∧
      (NoScratch before.commands → NoScratch after.commands)) job.shares (Share.updateAll ctx job.shares).2.1 :=
    Share.updateAll_pointwise (fun _ => ⟨⟨rfl, rfl, rfl, fun _ => rfl⟩, id⟩) Share.update_renewed ctx job.shares
  rw [shares] at pointwise
  rw [result]
  refine ⟨?_, ?_⟩
  · have buffers := pointwise.imp fun _ _ both => both.1
    simpa [VPUJob.shares, sharesOf] using buffers
  · intro unused cmd member
    obtain ⟨cmdBuffer, present, owned⟩ := parts.owner member
    have share : ⟨cmdBuffer, cmdBuffer.commandsOf updated.commands⟩ ∈ updated.shares :=
      List.mem_map.mpr ⟨cmdBuffer, present, rfl⟩
    obtain ⟨before, original, -, keeps⟩ := exists_partner pointwise _ share
    refine keeps ?_ cmd owned
    obtain ⟨old, -, rfl⟩ := List.mem_map.mp original
    exact fun other inside => unused other (List.mem_of_mem_drop (List.mem_of_mem_take inside))

/-- Every command buffer has what its submission is to be given. -/
def AllSupplied (chosen : Nat → Option VPUBufferObject) (preemption : Option VPUBufferObject)
    (cmdBuffers : List VPUCommandBuffer) : Prop :=
  ∀ (position : Nat) (cmdBuffer : VPUCommandBuffer), cmdBuffers[position]? = some cmdBuffer →
    cmdBuffer.Supplied (chosen position) preemption cmdBuffer.bufferHandles

theorem AllSupplied.patched {before after : List VPUCommandBuffer} (supplied : AllSupplied chosen preemption before)
    (patched : List.Forall₂ Patched before after) : AllSupplied chosen preemption after := by
  intro position cmdBuffer found
  obtain ⟨former, original, patch⟩ := pointwise_getElem? patched found
  exact (supplied position former original).patched patch

/-- A job whose command buffers keep what they are given. -/
structure VPUJob.Provided (job : VPUJob) : Prop where
  divided : Divided 0 job.cmdBuffers job.commands.length
  each : job.Each NpuDriver.Provided

theorem VPUJob.Provided.patched {job next : VPUJob} (provided : job.Provided)
    (commands : next.commands = job.commands) (patched : List.Forall₂ Patched job.cmdBuffers next.cmdBuffers) :
    next.Provided := by
  have revision : List.Forall₂ (Revised Patched) job.cmdBuffers next.cmdBuffers :=
    patched.imp fun _ _ patch => ⟨patch.commandsBegin, patch.commandsEnd, patch⟩
  refine ⟨?_, provided.each.revised commands revision fun _ _ _ patch before => before.patched patch⟩
  rw [commands]
  exact provided.divided.revised revision

theorem Provided.released {cb : VPUCommandBuffer} {cmds : List VPUCommand} (provided : Provided cb cmds) :
    Provided cb.release cmds := by
  obtain ⟨-, -, -, -, size⟩ := cb.release_frame
  refine ⟨by rw [size]; exact provided.scratchUser, ?_⟩
  intro bo held
  unfold release at held ⊢
  split
  · rename_i preemption index holds stored
    simp [holds, stored] at held
  · rename_i apart
    split at held
    · rename_i preemption index holds stored
      exact (apart preemption index holds stored).elim
    · exact provided.preemptionHandle bo held

/-- New command buffers for commands without scratch are given none. -/
theorem VPUJob.closeCommands_provided {job : VPUJob} {ctx : VPUDeviceContext} (opened : job.closed = false)
    (success : (job.closeCommands ctx).1 = true) :
    (job.closeCommands ctx).2.1.Provided ∧ (NoScratch job.commands →
      ∀ cmdBuffer ∈ (job.closeCommands ctx).2.1.cmdBuffers, cmdBuffer.inferenceScratchSize = 0) := by
  have built : ∀ share ∈ scheduleAll job.commands, ∀ ctx position cb patched next final,
      allocateCommandBuffer ctx position share = (some cb, patched, next) → VPUJob.Linked ctx cb final →
        NpuDriver.Provided final patched ∧ (NoScratch job.commands → final.inferenceScratchSize = 0) := by
    intro share member ctx position cb patched next final allocated linked
    have revised := linked.patched
    obtain ⟨rfl, -, -, -, frame, -⟩ := allocateCommandBuffer_some allocated
    obtain ⟨-, origin⟩ := allocateCommandBuffer_scratchSize allocated
    refine ⟨NpuDriver.Provided.patched ⟨?_, ?_⟩ revised, ?_⟩
    · intro used unused
      obtain ⟨cmd, present, inference, is, needed⟩ := origin used
      obtain ⟨other, patchedPresent, -, same⟩ :=
        exists_image (patchAddresses_associated cb.buffer.vpuAddr (descriptorStart share) share) cmd present
      exact needed (unused other patchedPresent inference (same.trans is))
    · intro bo held
      rw [frame.preemptionBuffer] at held
      cases held
    · intro unused
      rw [revised.inferenceScratchSize]
      by_contra used
      obtain ⟨cmd, present, inference, is, needed⟩ := origin used
      refine needed (unused cmd ?_ inference is)
      rw [← scheduleAll_flatten job.commands]
      exact List.mem_flatten.mpr ⟨share, member, present⟩
  obtain ⟨divided, each, -⟩ := closeCommands_each opened built success
  exact ⟨⟨divided, fun cmdBuffer member => (each cmdBuffer member).1⟩,
    fun unused cmdBuffer member => (each cmdBuffer member).2 unused⟩

/-- The wait for the first command buffer releases what that one holds. -/
theorem VPUJob.Provided.frontWaited {job : VPUJob} {first : VPUCommandBuffer} {rest : List VPUCommandBuffer}
    (provided : job.Provided) (split : job.cmdBuffers = first :: rest) (status : Nat) :
    VPUJob.Provided { job with
      cmdBuffers := (release { first with jobStatus := status }).resetFenceValue :: rest } := by
  obtain ⟨divided, each⟩ := provided
  obtain ⟨-, begins, ends, -, -⟩ := release_frame { first with jobStatus := status }
  unfold VPUJob.Each at each
  rw [split] at divided each
  constructor
  · obtain ⟨start, grows, others⟩ := divided
    exact ⟨begins.trans start, grows.trans (Nat.le_of_eq ends.symm), by simpa [resetFenceValue, ends] using others⟩
  · intro cmdBuffer member
    rcases List.mem_cons.mp member with rfl | later
    · have former := each first (List.mem_cons_self ..)
      have noted : NpuDriver.Provided { first with jobStatus := status } (first.commandsOf job.commands) :=
        ⟨former.1, former.2⟩
      have same : (release { first with jobStatus := status }).resetFenceValue.commandsOf job.commands =
          first.commandsOf job.commands := by
        simp only [commandsOf, resetFenceValue, begins, ends]
      rw [same]
      exact noted.released.patched (resetFenceValue_patched _)
    · exact each cmdBuffer (List.mem_cons_of_mem first later)

/-- That is of no account where it is given nothing. -/
theorem AllSupplied.frontWaited {chosen : Nat → Option VPUBufferObject} {first : VPUCommandBuffer}
    {rest : List VPUCommandBuffer} (supplied : AllSupplied chosen none (first :: rest))
    (unused : first.inferenceScratchSize = 0) (status : Nat) :
    AllSupplied chosen none ((release { first with jobStatus := status }).resetFenceValue :: rest) := by
  obtain ⟨-, -, -, -, size⟩ := release_frame { first with jobStatus := status }
  intro position cmdBuffer found
  cases position with
  | zero =>
    cases found
    exact ⟨fun used => absurd (size.trans unused) used, nofun⟩
  | succ position => exact supplied (position + 1) cmdBuffer found

/-- Command buffers that are built anew for a job without scratch are given nothing. -/
theorem stripInOrder_provided {job : VPUJob} (closed : job.closed = true) (ctx : VPUDeviceContext) :
    ((job.stripInOrder ctx).2.1.closed = true → (job.stripInOrder ctx).2.1.Provided) ∧
      ((job.stripInOrder ctx).1 = true → NoScratch job.commands → ∀ chosen,
        AllSupplied chosen none (job.stripInOrder ctx).2.1.cmdBuffers) := by
  simp only [VPUJob.stripInOrder, closed, Bool.not_true, Bool.false_eq_true, ↓reduceIte]
  have rebuilt : (VPUJob.closeCommands { job with cmdBuffers := [], hasInOrderWorkload := false, closed := false }
      ctx).1 = true → _ := VPUJob.closeCommands_provided rfl
  have success_closed : (VPUJob.closeCommands
      { job with cmdBuffers := [], hasInOrderWorkload := false, closed := false } ctx).2.1.closed =
      (VPUJob.closeCommands
        { job with cmdBuffers := [], hasInOrderWorkload := false, closed := false } ctx).1 := by
    simp [VPUJob.closeCommands]
  generalize VPUJob.closeCommands
    { job with cmdBuffers := [], hasInOrderWorkload := false, closed := false } ctx = result
    at rebuilt success_closed
  constructor
  · exact fun isClosed => (rebuilt (success_closed ▸ isClosed)).1
  · intro success unused chosen position cmdBuffer found
    have none := (rebuilt success).2 unused cmdBuffer (List.mem_of_getElem? found)
    exact ⟨fun used => absurd none used, nofun⟩

/-- Putting a job into the chain of a queue, or taking it out of one, drops nothing: what the job was
given for the present submission, and what outstanding submissions hold of those that were not
waited for in between. -/
theorem prepare_keeps {job : VPUJob} (provided : job.Provided) (closed : job.closed = true)
    {queue : VPUDeviceQueueManaged} {chosen : Nat → Option VPUBufferObject}
    {preemption : Option VPUBufferObject} (supplied : AllSupplied chosen preemption job.cmdBuffers)
    (front : queue.isInOrder = true → ∀ front ∈ job.cmdBuffers.head?,
      queue.lastWaitBo.map VPUBufferObject.id = some front.buffer.id →
        front.inferenceScratchSize = 0 ∧ preemption = none)
    (strip : queue.isInOrder = false → job.hasInOrderWorkload = true →
      preemption = none ∧ NoScratch job.commands) (ctx : VPUDeviceContext) :
    ((queue.prepare job ctx).job.closed = true → (queue.prepare job ctx).job.Provided) ∧
      ((queue.prepare job ctx).success = true →
        AllSupplied chosen preemption (queue.prepare job ctx).job.cmdBuffers) ∧
      ∀ submission : Outstanding, submission.HeldBy job.cmdBuffers →
        (queue.isInOrder = false → job.hasInOrderWorkload = true →
          submission.scratch = none ∧ submission.preemption = none) →
        submission.buffer ∉ completedBuffers ((queue.prepare job ctx).ctx.calls.drop ctx.calls.length) →
        submission.HeldBy (queue.prepare job ctx).job.cmdBuffers := by
  unfold VPUDeviceQueueManaged.prepare
  split
  · rename_i inOrder
    simp only
    rcases job.makeInOrder_cases queue.lastWaitBo ctx with
      ⟨-, result⟩ | ⟨first, rest, split, ⟨-, next, result, -⟩ | ⟨back, status, next, result, calls⟩ | ⟨-, result⟩⟩
    · rw [result]
      exact ⟨fun _ => provided, fun _ => supplied, fun _ held _ _ => held⟩
    · rw [result]
      exact ⟨fun _ => provided, fun _ => supplied, fun _ held _ _ => held⟩
    · obtain ⟨unused, rfl⟩ := front inOrder first (by rw [split]; rfl) back
      obtain ⟨cmdBuffers, inOrder, chained, patched, -⟩ :=
        VPUJob.chain_spec job (release { first with jobStatus := status }).resetFenceValue rest none next
      rw [split] at supplied
      rw [result, chained, VPUJob.chain_ctx]
      refine ⟨fun _ => (provided.frontWaited split status).patched rfl patched,
        fun _ => (supplied.frontWaited unused status).patched patched, ?_⟩
      intro submission held _ apart
      rw [calls, List.drop_left] at apart
      have other : submission.buffer ≠ first.buffer := fun same => apart (List.mem_singleton.mpr same)
      rw [split] at held
      refine Outstanding.HeldBy.patched (held.mono ?_ ?_) patched <;>
      · intro cmdBuffer member same bo _ holds
        rcases List.mem_cons.mp member with rfl | later
        · exact absurd same.symm other
        · exact ⟨cmdBuffer, List.mem_cons_of_mem _ later, same, holds⟩
    · obtain ⟨cmdBuffers, inOrder, chained, patched, -⟩ := VPUJob.chain_spec job first rest queue.lastWaitBo ctx
      rw [← split] at patched
      rw [result, chained]
      exact ⟨fun _ => provided.patched rfl patched, fun _ => supplied.patched patched,
        fun _ held _ _ => held.patched patched⟩
  · rename_i plain
    have plain : queue.isInOrder = false := by simpa using plain
    split
    · rename_i workload
      obtain ⟨rfl, unused⟩ := strip plain workload
      obtain ⟨rebuilt, given⟩ := stripInOrder_provided closed ctx
      refine ⟨rebuilt, fun success => given success unused chosen, ?_⟩
      intro submission _ empty _
      obtain ⟨scratch, preemption⟩ := empty plain workload
      constructor
      · rw [scratch]
        exact nofun
      · rw [preemption]
        exact nofun
    · exact ⟨fun _ => provided, fun _ => supplied, fun _ held _ _ => held⟩

/-- The addition of a preemption buffer changes nothing but the preemption buffer of a command buffer and its
list of handles. -/
structure PreemptionAdded (preemptionBuffer : Option VPUBufferObject) (before after : VPUCommandBuffer) : Prop where
  buffer : after.buffer = before.buffer
  commandsBegin : after.commandsBegin = before.commandsBegin
  commandsEnd : after.commandsEnd = before.commandsEnd
  inferenceScratchSize : after.inferenceScratchSize = before.inferenceScratchSize
  inferenceScratchBuffer : after.inferenceScratchBuffer = before.inferenceScratchBuffer
  handles : before.bufferHandles <+: after.bufferHandles
  stays : ∀ bo, before.preemptionBuffer = some bo → after.preemptionBuffer = some bo
  origin : ∀ bo, after.preemptionBuffer = some bo →
    before.preemptionBuffer = some bo ∨ bo.handle ∈ after.bufferHandles
  added : ∀ bo, preemptionBuffer = some bo → before.preemptionBuffer = none → after.preemptionBuffer = some bo

theorem VPUCommandBuffer.addPreemptionBuffer_added (cmdBuffer : VPUCommandBuffer)
    (preemptionBuffer : Option VPUBufferObject) :
    PreemptionAdded preemptionBuffer cmdBuffer (cmdBuffer.addPreemptionBuffer preemptionBuffer) := by
  unfold VPUCommandBuffer.addPreemptionBuffer
  split
  · rename_i bo none
    refine ⟨rfl, rfl, rfl, rfl, rfl, List.prefix_append .., ?_, ?_, fun _ passed _ => passed⟩
    · simp [none]
    · intro other same
      cases same
      exact .inr (by simp)
  · rename_i apart
    refine ⟨rfl, rfl, rfl, rfl, rfl, List.prefix_refl _, fun _ holds => holds, fun _ holds => .inl holds, ?_⟩
    intro bo passed none
    exact (apart bo none passed).elim

theorem Provided.preemptionAdded {before after : VPUCommandBuffer} {cmds : List VPUCommand}
    {preemptionBuffer : Option VPUBufferObject} (provided : Provided before cmds)
    (added : PreemptionAdded preemptionBuffer before after) : Provided after cmds := by
  constructor
  · rw [added.inferenceScratchSize]
    exact provided.scratchUser
  · intro bo holds
    rcases added.origin bo holds with earlier | listed
    · exact added.handles.subset (provided.preemptionHandle bo earlier)
    · exact listed

/-- With the preemption buffer that it holds or is given, a command buffer has all it is to be given. -/
theorem VPUCommandBuffer.Supplied.preemptionAdded {before after : VPUCommandBuffer} {cmds : List VPUCommand}
    {scratch preemptionBuffer : Option VPUBufferObject} (supplied : before.Supplied scratch none before.bufferHandles)
    (provided : Provided before cmds) (added : PreemptionAdded preemptionBuffer before after)
    (free : ∀ bo, preemptionBuffer = some bo → before.preemptionBuffer = none ∨ before.preemptionBuffer = some bo) :
    after.Supplied scratch preemptionBuffer after.bufferHandles := by
  constructor
  · rw [added.inferenceScratchSize, added.inferenceScratchBuffer]
    intro used
    obtain ⟨bo, same, holds, listed⟩ := supplied.1 used
    exact ⟨bo, same, holds, added.handles.subset listed⟩
  · intro bo passed
    have holds : after.preemptionBuffer = some bo := by
      rcases free bo passed with none | same
      · exact added.added bo passed none
      · exact added.stays bo same
    exact ⟨holds, (provided.preemptionAdded added).preemptionHandle bo holds⟩

theorem VPUJob.Provided.addPreemptionBuffer {job : VPUJob} (provided : job.Provided)
    (preemptionBuffer : Option VPUBufferObject) : VPUJob.Provided (job.addPreemptionBuffer preemptionBuffer) := by
  have revision : List.Forall₂ (Revised (PreemptionAdded preemptionBuffer)) job.cmdBuffers
      (job.addPreemptionBuffer preemptionBuffer).cmdBuffers := by
    apply List.forall₂_map_right_iff.mpr
    apply List.forall₂_same.mpr
    intro cmdBuffer _
    have added := cmdBuffer.addPreemptionBuffer_added preemptionBuffer
    exact ⟨added.commandsBegin, added.commandsEnd, added⟩
  constructor
  · exact provided.divided.revised revision
  · exact provided.each.revised rfl revision fun _ _ _ added former => former.preemptionAdded added

theorem Outstanding.HeldBy.addPreemptionBuffer {submission : Outstanding} {job : VPUJob}
    (held : submission.HeldBy job.cmdBuffers) (preemptionBuffer : Option VPUBufferObject) :
    submission.HeldBy (job.addPreemptionBuffer preemptionBuffer).cmdBuffers := by
  have given : ∀ cmdBuffer ∈ job.cmdBuffers, ∃ other ∈ (job.addPreemptionBuffer preemptionBuffer).cmdBuffers,
      PreemptionAdded preemptionBuffer cmdBuffer other := fun cmdBuffer present =>
    ⟨_, List.mem_map.mpr ⟨cmdBuffer, present, rfl⟩, cmdBuffer.addPreemptionBuffer_added preemptionBuffer⟩
  apply held.mono
  · intro cmdBuffer present same bo _ holds
    obtain ⟨other, listed, added⟩ := given cmdBuffer present
    exact ⟨other, listed, added.buffer.trans same, added.inferenceScratchBuffer.trans holds⟩
  · intro cmdBuffer present same bo _ holds
    obtain ⟨other, listed, added⟩ := given cmdBuffer present
    exact ⟨other, listed, added.buffer.trans same, added.stays bo holds⟩

/-- The update keeps what is held, as scratch buffers are only replaced where none is outstanding. -/
theorem SubmittedJob.DropsNothing.renewed {state : SubmittedJob} {queue : VPUDeviceQueueManaged}
    {preemptionBuffer : Option VPUBufferObject} {ctx : VPUDeviceContext}
    (drops : state.DropsNothing queue preemptionBuffer ctx) {after : List VPUCommandBuffer}
    (renewed : List.Forall₂ Renewed state.job.cmdBuffers after)
    (held : ∀ submission ∈ state.outstanding, submission.HeldBy state.job.cmdBuffers) :
    ∀ submission ∈ state.outstanding, submission.HeldBy after := by
  intro submission member
  apply (held submission member).mono
  · intro cmdBuffer present same bo given holds
    obtain ⟨other, renewedPresent, renewal⟩ := exists_image renewed cmdBuffer present
    refine ⟨other, renewedPresent, renewal.buffer.trans same, ?_⟩
    by_cases unused : cmdBuffer.inferenceScratchSize = 0
    · rw [renewal.unused unused]
      exact holds
    · rw [drops.scratch cmdBuffer present unused submission member same.symm] at given
      cases given
  · intro cmdBuffer present same bo _ holds
    obtain ⟨other, renewedPresent, renewal⟩ := exists_image renewed cmdBuffer present
    exact ⟨other, renewedPresent, renewal.buffer.trans same, renewal.preemptionBuffer.trans holds⟩

/-- The handed job of a submission that drops nothing has what it is to be given, and still holds what
earlier submissions were given. -/
theorem SubmittedJob.DropsNothing.handed {state : SubmittedJob} {queue : VPUDeviceQueueManaged}
    {preemptionBuffer : Option VPUBufferObject} {ctx : VPUDeviceContext}
    (drops : state.DropsNothing queue preemptionBuffer ctx) (closed : state.job.closed = true)
    (provided : state.job.Provided) (held : ∀ submission ∈ state.outstanding, submission.HeldBy state.job.cmdBuffers) :
    (state.job.updateOnSubmit ctx).2.1.Provided ∧
      (∀ submission ∈ state.outstanding, submission.HeldBy (state.job.updateOnSubmit ctx).2.1.cmdBuffers) ∧
      ((state.job.updateOnSubmit ctx).1 = true →
        ((handedJob queue preemptionBuffer state.job ctx).job.closed = true →
          (handedJob queue preemptionBuffer state.job ctx).job.Provided) ∧
        ((handedJob queue preemptionBuffer state.job ctx).success = true →
          AllSupplied (chosenScratch (state.job.updateOnSubmit ctx).2.1) preemptionBuffer
            (handedJob queue preemptionBuffer state.job ctx).job.cmdBuffers) ∧
        ∀ submission ∈ state.outstanding, submission.buffer ∉ completedBuffers
            ((handedJob queue preemptionBuffer state.job ctx).ctx.calls.drop ctx.calls.length) →
          submission.HeldBy (handedJob queue preemptionBuffer state.job ctx).job.cmdBuffers) := by
  obtain ⟨renewed, unusedAfter⟩ := updateOnSubmit_renewed ctx provided.divided
  have updates := state.job.updateOnSubmit_calls ctx
  obtain ⟨success, updated, next, result, shares, divided, stillClosed, workload⟩ :=
    state.job.updateOnSubmit_shares ctx provided.divided
  have each : (∀ share ∈ (Share.updateAll ctx state.job.shares).2.1,
        NpuDriver.Provided share.cmdBuffer share.commands) ∧
      ((Share.updateAll ctx state.job.shares).1 = true →
        ∀ share ∈ (Share.updateAll ctx state.job.shares).2.1,
          NpuDriver.Provided share.cmdBuffer share.commands ∧
            share.cmdBuffer.Supplied share.cmdBuffer.inferenceScratchBuffer none share.cmdBuffer.bufferHandles) :=
    Share.updateAll_each (fun _ _ => Provided.update) (VPUJob.each_shares.mp provided.each) drops.handles
  obtain ⟨kept, reached⟩ := each
  unfold handedJob updatedJob
  rw [shares] at kept reached
  rw [result] at renewed unusedAfter updates ⊢
  simp only at renewed unusedAfter updates ⊢
  have stays := drops.renewed renewed held
  have updatedProvided : updated.Provided := ⟨divided, VPUJob.each_shares.mpr kept⟩
  refine ⟨updatedProvided, stays, fun succeeded => ?_⟩
  have supplied : AllSupplied (chosenScratch updated) preemptionBuffer
      (updated.addPreemptionBuffer preemptionBuffer).cmdBuffers := by
    intro position cmdBuffer found
    simp only [VPUJob.addPreemptionBuffer, List.getElem?_map, Option.map_eq_some_iff] at found
    obtain ⟨former, original, rfl⟩ := found
    obtain ⟨-, own⟩ := reached succeeded ⟨former, former.commandsOf updated.commands⟩
      (List.mem_map.mpr ⟨former, List.mem_of_getElem? original, rfl⟩)
    have chosen : chosenScratch updated position = former.inferenceScratchBuffer := by
      simp [chosenScratch, original]
    obtain ⟨before, first, renewal⟩ := pointwise_getElem? renewed original
    rw [chosen]
    apply own.preemptionAdded (updatedProvided.each former (List.mem_of_getElem? original))
      (former.addPreemptionBuffer_added preemptionBuffer)
    intro bo passed
    rw [renewal.preemptionBuffer]
    exact drops.preemption bo passed before (List.mem_of_getElem? first)
  have headSame : queue.isInOrder = true →
      ∀ front ∈ (updated.addPreemptionBuffer preemptionBuffer).cmdBuffers.head?,
        queue.lastWaitBo.map VPUBufferObject.id = some front.buffer.id →
          front.inferenceScratchSize = 0 ∧ preemptionBuffer = none := by
    intro inOrder front first back
    have found : (updated.addPreemptionBuffer preemptionBuffer).cmdBuffers[0]? = some front := by
      rw [← List.head?_eq_getElem?]
      exact first
    simp only [VPUJob.addPreemptionBuffer, List.getElem?_map, Option.map_eq_some_iff] at found
    obtain ⟨former, original, rfl⟩ := found
    obtain ⟨before, start, renewal⟩ := pointwise_getElem? renewed original
    have added := former.addPreemptionBuffer_added preemptionBuffer
    rw [added.buffer, renewal.buffer] at back
    obtain ⟨unused, none⟩ := drops.front inOrder before (by rw [List.head?_eq_getElem?]; exact start) back
    exact ⟨added.inferenceScratchSize.trans (renewal.inferenceScratchSize.trans unused), none⟩
  obtain ⟨prepared, given, left⟩ := prepare_keeps (updatedProvided.addPreemptionBuffer preemptionBuffer)
    (stillClosed.trans closed) supplied headSame
    (fun plain rebuilds => by
      obtain ⟨none, unused, -⟩ := drops.strip plain (workload ▸ rebuilds)
      exact ⟨none, unusedAfter unused⟩) next
  refine ⟨prepared, given, fun submission member apart =>
    left submission ((stays submission member).addPreemptionBuffer preemptionBuffer) ?_ ?_⟩
  · intro plain rebuilds
    exact (drops.strip plain (workload ▸ rebuilds)).2.2 submission member
  · rw [updates]
    exact apart

/-- A change of a command after which an inference needs as much scratch as before. -/
def SameScratch (before after : VPUCommand) : Prop :=
  ∀ inference, before.isInference = some inference → ∃ updated, after.isInference = some updated ∧
    updated.sharedScratchSize = inference.sharedScratchSize

/-- A job whose outstanding submissions hold what they were given. -/
structure SubmittedJob.Valid (state : SubmittedJob) : Prop where
  provided : state.job.closed = true → state.job.Provided
  held : ∀ submission ∈ state.outstanding, submission.HeldBy state.job.cmdBuffers

/-- The submission of a closed job: what outstanding submissions hold stays, and an accepted one is
given its buffers. -/
theorem SubmittedJob.Valid.execute {state : SubmittedJob} (valid : state.Valid)
    (closed : state.job.closed = true) {queue : VPUDeviceQueueManaged}
    {preemptionBuffer : Option VPUBufferObject} {ctx : VPUDeviceContext}
    (drops : state.DropsNothing queue preemptionBuffer ctx) :
    ((executeJob queue preemptionBuffer state.job ctx).job.closed = true →
        (executeJob queue preemptionBuffer state.job ctx).job.Provided) ∧
      (∀ submission ∈ leftOutstanding state.outstanding ctx (executeJob queue preemptionBuffer state.job ctx).ctx,
        submission.HeldBy (executeJob queue preemptionBuffer state.job ctx).job.cmdBuffers) ∧
      ((executeJob queue preemptionBuffer state.job ctx).result = .ZE_RESULT_SUCCESS →
        AllSupplied (chosenScratch (state.job.updateOnSubmit ctx).2.1) preemptionBuffer
          (executeJob queue preemptionBuffer state.job ctx).job.cmdBuffers) := by
  obtain ⟨updated, updatedHeld, handed⟩ := drops.handed closed (valid.provided closed) valid.held
  have updates := state.job.updateOnSubmit_calls ctx
  obtain ⟨waited, waits, -⟩ := queue.prepare_calls (updatedJob preemptionBuffer state.job ctx)
    (state.job.updateOnSubmit ctx).2.2
  rw [updates] at waits
  have handedCalls : (handedJob queue preemptionBuffer state.job ctx).ctx.calls = ctx.calls ++ waited := waits
  rcases executeJob_spec queue preemptionBuffer state.job ctx with
    ⟨-, failed, -, job, -⟩ | ⟨success, -, failed, -, job, same⟩ |
      ⟨success, prepared, -, cmdBuffers, added, job, patched, calls, -, nothing, -, -⟩
  · rw [job]
    refine ⟨fun _ => updated, ?_, fun succeeded => absurd succeeded failed⟩
    exact fun submission member => updatedHeld submission (List.mem_of_mem_filter member)
  · rw [job, same]
    obtain ⟨kept, -, left⟩ := handed success
    refine ⟨kept, ?_, fun succeeded => absurd succeeded failed⟩
    intro submission member
    obtain ⟨present, apart⟩ := List.mem_filter.mp member
    exact left submission present (by simpa using apart)
  · obtain ⟨kept, given, left⟩ := handed success
    rw [job]
    refine ⟨?_, ?_, fun _ => (given prepared).patched patched⟩
    · intro stillClosed
      have former : (handedJob queue preemptionBuffer state.job ctx).job.Provided := kept stillClosed
      exact former.patched rfl patched
    · intro submission member
      obtain ⟨present, apart⟩ := List.mem_filter.mp member
      refine (left submission present ?_).patched patched
      rw [calls, handedCalls, List.append_assoc, List.drop_left] at apart
      rw [handedCalls, List.drop_left]
      simpa [completedBuffers_append, nothing] using apart

/-- Updates of arguments change neither the command buffers nor what the inferences need. -/
theorem SubmittedJob.Valid.setUpdates {state : SubmittedJob} (valid : state.Valid) (position : Nat)
    (updatesMap : ArgumentUpdatesMap) : (state.run (.setUpdates position updatesMap)).Valid := by
  simp only [SubmittedJob.run, JobCall.run]
  split
  · exact valid
  · rename_i cmd present
    refine ⟨fun closed => ?_, valid.held⟩
    obtain ⟨divided, each⟩ := valid.provided closed
    have same : List.Forall₂ SameScratch state.job.commands
        (state.job.commands.set position (cmd.setUpdates updatesMap).2) :=
      pointwise_set (fun _ inference is => ⟨inference, is, rfl⟩) present
        (fun _ is => VPUCommand.setUpdates_scratch is updatesMap)
    refine ⟨by simpa using divided, ?_⟩
    intro cmdBuffer member
    have former := each cmdBuffer member
    refine ⟨fun used unused => former.scratchUser used ?_, former.preemptionHandle⟩
    intro other owned inference is
    obtain ⟨changed, present, scratch⟩ :=
      exists_image (List.forall₂_take (cmdBuffer.commandsEnd - cmdBuffer.commandsBegin)
        (List.forall₂_drop cmdBuffer.commandsBegin same)) other owned
    obtain ⟨updated, isUpdated, size⟩ := scratch inference is
    rw [← size]
    exact unused changed present updated isUpdated

/-- A job that was accepted holds what its submissions were given. -/
theorem heldBy_submissions {updated : VPUJob} {preemptionBuffer : Option VPUBufferObject}
    {cmdBuffers : List VPUCommandBuffer} (given : AllSupplied (chosenScratch updated) preemptionBuffer cmdBuffers) :
    ∀ submission ∈ submissions updated preemptionBuffer cmdBuffers, submission.HeldBy cmdBuffers := by
  intro submission new
  obtain ⟨position, inside, rfl⟩ := List.mem_mapIdx.mp new
  obtain ⟨scratch, preemption⟩ := given position _ (List.getElem?_eq_getElem inside)
  constructor
  · intro bo chosen
    simp only at chosen
    split at chosen
    · cases chosen
    · rename_i used
      obtain ⟨other, same, holds, -⟩ := scratch used
      rw [chosen] at same
      cases same
      exact ⟨_, List.getElem_mem inside, rfl, holds⟩
  · intro bo passed
    exact ⟨_, List.getElem_mem inside, rfl, (preemption bo passed).1⟩

/-- A wait releases only what the command buffers hold that have completed. -/
theorem SubmittedJob.Valid.waitForCompletion {state : SubmittedJob} (valid : state.Valid) (ctx : VPUDeviceContext) :
    (state.run (.waitForCompletion ctx)).Valid := by
  obtain ⟨added, calls, -, waited, -⟩ := VPUJob.waitBuffers_spec ctx state.job.cmdBuffers
  simp only [SubmittedJob.run]
  have revision : List.Forall₂ (Revised fun before after => after = before ∨
      before.buffer ∈ completedBuffers added ∧ ∃ status, after = release { before with jobStatus := status })
      state.job.cmdBuffers (state.job.waitForCompletion ctx).2.1.cmdBuffers := by
    refine waited.imp ?_
    rintro before after (rfl | ⟨done, status, rfl⟩)
    · exact ⟨rfl, rfl, .inl rfl⟩
    · obtain ⟨-, begins, ends, -⟩ := release_frame { before with jobStatus := status }
      exact ⟨begins, ends, .inr ⟨done, status, rfl⟩⟩
  refine ⟨fun closed => ?_, ?_⟩
  · obtain ⟨divided, each⟩ := valid.provided closed
    refine ⟨divided.revised revision, each.revised rfl revision ?_⟩
    rintro before after cmds (rfl | ⟨-, status, rfl⟩) former
    · exact former
    · have noted : Provided { before with jobStatus := status } cmds := ⟨former.1, former.2⟩
      exact noted.released
  · intro submission member
    obtain ⟨present, apart⟩ := List.mem_filter.mp member
    have waits : (state.job.waitForCompletion ctx).2.2.calls = ctx.calls ++ added := calls
    rw [waits, List.drop_left] at apart
    refine (valid.held submission present).mono ?_ ?_ <;>
    · intro cmdBuffer inside same bo _ holds
      obtain ⟨other, left, -, -, unchanged | ⟨done, -⟩⟩ := exists_image revision cmdBuffer inside
      · exact ⟨other, left, by rw [unchanged]; exact same, by rw [unchanged]; exact holds⟩
      · rw [same] at done
        simp [done] at apart

theorem SubmittedJob.keeps_valid (state : SubmittedJob) (call : JobCall) (valid : state.Valid)
    (keeps : state.KeepsResources call) : (state.run call).Valid := by
  cases call with
  | setUpdates position updatesMap => exact valid.setUpdates position updatesMap
  | executeCommandLists queue preemptionBuffer ctx =>
    simp only [SubmittedJob.run]
    split
    · rename_i closed
      obtain ⟨provided, left, given⟩ := valid.execute closed keeps
      split
      · rename_i success
        refine ⟨provided, ?_⟩
        intro submission member
        rcases List.mem_append.mp member with earlier | new
        · exact left submission earlier
        · exact heldBy_submissions (given success) submission new
      · exact ⟨provided, left⟩
    · exact valid
  | waitForCompletion ctx => exact valid.waitForCompletion ctx

/-- What an accepted submission passes to the kernel: each list of handles names the scratch buffer that
the update chose for the command buffer and the preemption buffer, and the command buffer holds both. -/
theorem SubmittedJob.Valid.submitted {state : SubmittedJob} (valid : state.Valid)
    (closed : state.job.closed = true) {queue : VPUDeviceQueueManaged}
    {preemptionBuffer : Option VPUBufferObject} {ctx : VPUDeviceContext}
    (drops : state.DropsNothing queue preemptionBuffer ctx)
    (success : (executeJob queue preemptionBuffer state.job ctx).result = .ZE_RESULT_SUCCESS) :
    ∃ added, (executeJob queue preemptionBuffer state.job ctx).ctx.calls = ctx.calls ++ added ∧
      acceptedBuffers added =
        (executeJob queue preemptionBuffer state.job ctx).job.cmdBuffers.map VPUCommandBuffer.buffer ∧
      ∀ buffer handles index id accepted, .submit buffer handles index id accepted ∈ added →
        ∃ (position : Nat) (cmdBuffer : VPUCommandBuffer),
          (executeJob queue preemptionBuffer state.job ctx).job.cmdBuffers[position]? = some cmdBuffer ∧
          cmdBuffer.buffer = buffer ∧
          cmdBuffer.Supplied (chosenScratch (state.job.updateOnSubmit ctx).2.1 position) preemptionBuffer handles := by
  obtain ⟨-, -, handed⟩ := drops.handed closed (valid.provided closed) valid.held
  have updates := state.job.updateOnSubmit_calls ctx
  obtain ⟨waited, waits, unasked, only⟩ := queue.prepare_calls (updatedJob preemptionBuffer state.job ctx)
    (state.job.updateOnSubmit ctx).2.2
  rw [updates] at waits
  rcases executeJob_spec queue preemptionBuffer state.job ctx with
    ⟨-, failed, -⟩ | ⟨-, -, failed, -⟩ |
      ⟨updated, prepared, -, cmdBuffers, added, job, patched, calls, requests, -, -, all⟩
  · exact absurd success failed
  · exact absurd success failed
  · have given := (handed updated).2.1 prepared
    refine ⟨waited ++ added, ?_, ?_, ?_⟩
    · rw [calls, ← List.append_assoc]
      exact congrArg (· ++ added) waits
    · rw [acceptedBuffers_append, unasked, (all success).2, job, List.nil_append]
      exact pointwise_map_eq (fun _ _ patch => patch.buffer.symm) patched
    · intro buffer handles index id accepted member
      rcases List.mem_append.mp member with early | late
      · obtain ⟨_, _, wait⟩ := only _ early
        cases wait
      · obtain ⟨cmdBuf, present, tried, _, extended, request⟩ := requests _ late
        cases request
        obtain ⟨position, inside, found⟩ := List.mem_iff_getElem.mp present
        have original := List.getElem?_eq_getElem inside
        rw [found] at original
        obtain ⟨final, last, patch⟩ := pointwise_getElem? patched.flip original
        refine ⟨position, final, by rw [job]; exact last, patch.buffer, ?_⟩
        obtain ⟨scratch, preemption⟩ := given position cmdBuf original
        refine ⟨?_, ?_⟩
        · rw [patch.inferenceScratchSize, patch.inferenceScratchBuffer]
          intro used
          obtain ⟨bo, chosen, holds, listed⟩ := scratch used
          exact ⟨bo, chosen, holds, extended.handles.subset listed⟩
        · rw [patch.preemptionBuffer]
          intro bo passed
          exact ⟨(preemption bo passed).1, extended.handles.subset (preemption bo passed).2⟩

/-- In every run of a job whose submissions drop nothing, every submission that was accepted and not
waited for still holds the scratch buffer chosen for it and the preemption buffer passed with it; and
a further such submission hands the kernel only command buffers that hold theirs and name them. -/
theorem submission_resources_survive {commands : List VPUCommand} {ctx : VPUDeviceContext}
    (closes : (VPUJob.closeCommands ⟨commands, [], false, false⟩ ctx).1 = true) {calls : List JobCall}
    (guarded : Guarded SubmittedJob.run SubmittedJob.KeepsResources
      ⟨(VPUJob.closeCommands ⟨commands, [], false, false⟩ ctx).2.1, []⟩ calls) :
    let state := runFrom SubmittedJob.run ⟨(VPUJob.closeCommands ⟨commands, [], false, false⟩ ctx).2.1, []⟩ calls
    (∀ submission ∈ state.outstanding, submission.HeldBy state.job.cmdBuffers) ∧
      ∀ queue preemptionBuffer ctx, state.job.closed = true → state.DropsNothing queue preemptionBuffer ctx →
        let executed := executeJob queue preemptionBuffer state.job ctx
        executed.result = .ZE_RESULT_SUCCESS →
          ∃ added, executed.ctx.calls = ctx.calls ++ added ∧
            acceptedBuffers added = executed.job.cmdBuffers.map VPUCommandBuffer.buffer ∧
            ∀ buffer handles index id accepted, .submit buffer handles index id accepted ∈ added →
              ∃ (position : Nat) (cmdBuffer : VPUCommandBuffer),
                executed.job.cmdBuffers[position]? = some cmdBuffer ∧ cmdBuffer.buffer = buffer ∧
                cmdBuffer.Supplied (chosenScratch (state.job.updateOnSubmit ctx).2.1 position) preemptionBuffer
                  handles := by
  intro state
  have initial : SubmittedJob.Valid ⟨(VPUJob.closeCommands ⟨commands, [], false, false⟩ ctx).2.1, []⟩ :=
    ⟨fun _ => (VPUJob.closeCommands_provided rfl closes).1, nofun⟩
  have valid : state.Valid := guarded_invariant SubmittedJob.keeps_valid initial guarded
  exact ⟨valid.held, fun queue preemptionBuffer ctx closed drops success => valid.submitted closed drops success⟩

/-- An in-order queue without submissions. -/
def inOrderQueue : VPUDeviceQueueManaged := ⟨3, 3, 4, true, false, none⟩

/-- A job with one inference that needs scratch. -/
def scratchJob : VPUJob := (VPUJob.closeCommands ⟨[scratchInference], [], false, false⟩ busyContext).2.1

theorem submission_resources_survive_twice :
    let calls := [.executeCommandLists defaultQueue (some preemptionBuffer) busyContext,
      .waitForCompletion busyContext, .executeCommandLists defaultQueue (some preemptionBuffer) busyContext]
    let state := runFrom SubmittedJob.run ⟨scratchJob, []⟩ calls
    state.outstanding.length = 1 ∧ ∀ submission ∈ state.outstanding, submission.HeldBy state.job.cmdBuffers := by
  intro calls state
  have guarded : Guarded SubmittedJob.run SubmittedJob.KeepsResources ⟨scratchJob, []⟩ calls := by
    decide +kernel
  have closes : (VPUJob.closeCommands ⟨[scratchInference], [], false, false⟩ busyContext).1 = true := by
    decide +kernel
  exact ⟨by decide +kernel, (submission_resources_survive closes guarded).1⟩

/-- A job that was submitted to an in-order queue and waited for gets new command buffers when it is
submitted to another queue, after the buffers of that submission were acquired: what is handed to the
kernel has neither the scratch buffer that the inference was patched with nor the preemption buffer. -/
theorem stripped_job_loses_buffers :
    let first := executeJob inOrderQueue none scratchJob busyContext
    let waited := first.job.waitForCompletion first.ctx
    let second := executeJob defaultQueue (some preemptionBuffer) waited.2.1 waited.2.2
    second.result = .ZE_RESULT_SUCCESS ∧
      (chosenScratch (waited.2.1.updateOnSubmit waited.2.2).2.1 0).isSome = true ∧
      second.job.cmdBuffers.map (fun cmdBuffer => (cmdBuffer.inferenceScratchSize,
        cmdBuffer.inferenceScratchBuffer, cmdBuffer.preemptionBuffer)) = [(8192, none, none)] ∧
      second.ctx.calls.drop waited.2.2.calls.length = second.job.cmdBuffers.map (fun cmdBuffer =>
        .submit cmdBuffer.buffer [cmdBuffer.buffer.handle, 401] 0 1 true) := by
  refine ⟨by decide +kernel, by decide +kernel, by decide +kernel, by decide +kernel⟩

end NpuDriver
