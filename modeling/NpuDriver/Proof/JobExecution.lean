import NpuDriver.Library.Runs
import NpuDriver.LevelZero.CommandQueue
import NpuDriver.Proof.JobShares

/-! One submission of a job: what each of its phases does to the command buffers. -/

namespace NpuDriver

open Library VPUCommandBuffer

/-- The operations on a job. `executeCommandLists` is the round of the submission loop for this job,
which is refused for a job that is not closed; every call comes with the context that it meets. -/
inductive JobCall where
  | setUpdates (position : Nat) (updatesMap : ArgumentUpdatesMap)
  | executeCommandLists (queue : VPUDeviceQueueManaged) (preemptionBuffer : Option VPUBufferObject)
      (ctx : VPUDeviceContext)
  | waitForCompletion (ctx : VPUDeviceContext)

def JobCall.run (job : VPUJob) : JobCall → VPUJob
  | setUpdates position updatesMap =>
    match job.commands[position]? with
    | none => job
    | some cmd => { job with commands := job.commands.set position (cmd.setUpdates updatesMap).2 }
  | executeCommandLists queue preemptionBuffer ctx =>
    if job.closed then (executeJob queue preemptionBuffer job ctx).job else job
  | waitForCompletion ctx => (job.waitForCompletion ctx).2.1

/-- The job after its update, with the preemption buffer of the queue. -/
def updatedJob (preemptionBuffer : Option VPUBufferObject) (job : VPUJob) (ctx : VPUDeviceContext) : VPUJob :=
  (job.updateOnSubmit ctx).2.1.addPreemptionBuffer preemptionBuffer

/-- The job as it is handed to the kernel. -/
def handedJob (queue : VPUDeviceQueueManaged) (preemptionBuffer : Option VPUBufferObject) (job : VPUJob)
    (ctx : VPUDeviceContext) : VPUDeviceQueueManaged.Submitted :=
  queue.prepare (updatedJob preemptionBuffer job ctx) (job.updateOnSubmit ctx).2.2

/-- The buffers of a job after the submission loop. -/
theorem VPUDeviceQueueManaged.submitWithWait_spec (queue : VPUDeviceQueueManaged) (job : VPUJob)
    (ctx : VPUDeviceContext) :
    ∃ success cmdBuffers next added, queue.submitWithWait job ctx =
        (success, { job with cmdBuffers := cmdBuffers }, next) ∧
      List.Forall₂ VPUCommandBuffer.Patched job.cmdBuffers cmdBuffers ∧ next.calls = ctx.calls ++ added ∧
      (∀ call ∈ added, ∃ cmdBuf ∈ job.cmdBuffers, queue.Requests cmdBuf call) ∧
      completedBuffers added = [] ∧
      acceptedBuffers added <+: job.cmdBuffers.map VPUCommandBuffer.buffer ∧
      (success = true → job.cmdBuffers ≠ [] ∧
        acceptedBuffers added = job.cmdBuffers.map VPUCommandBuffer.buffer) := by
  unfold submitWithWait
  split
  · rename_i empty
    refine ⟨false, job.cmdBuffers, ctx, [], rfl, ?_, (List.append_nil _).symm, nofun, rfl, List.nil_prefix, nofun⟩
    exact pointwise_refl VPUCommandBuffer.Patched.refl _
  · rename_i nonempty
    obtain ⟨patched, added, calls, requests, nothing, front, all⟩ := queue.submitEach_spec ctx job.cmdBuffers
    generalize queue.submitEach ctx job.cmdBuffers = result at patched calls all
    obtain ⟨success, cmdBuffers, next⟩ := result
    exact ⟨success, cmdBuffers, next, added, rfl, patched, calls, requests, nothing, front,
      fun success => ⟨nonempty, all success⟩⟩

/-- A submission of a job: the update fails, the preparation fails, or the job as it is handed over
goes to the kernel. -/
theorem executeJob_spec (queue : VPUDeviceQueueManaged) (preemptionBuffer : Option VPUBufferObject)
    (job : VPUJob) (ctx : VPUDeviceContext) :
    let handed := handedJob queue preemptionBuffer job ctx
    let executed := executeJob queue preemptionBuffer job ctx
    ((job.updateOnSubmit ctx).1 = false ∧ executed.result ≠ .ZE_RESULT_SUCCESS ∧
        executed.queue = queue ∧ executed.job = (job.updateOnSubmit ctx).2.1 ∧
        executed.ctx = (job.updateOnSubmit ctx).2.2) ∨
      ((job.updateOnSubmit ctx).1 = true ∧ handed.success = false ∧ executed.result ≠ .ZE_RESULT_SUCCESS ∧
        executed.queue = handed.queue ∧ executed.job = handed.job ∧ executed.ctx = handed.ctx) ∨
      ((job.updateOnSubmit ctx).1 = true ∧ handed.success = true ∧ executed.queue = handed.queue ∧
        ∃ cmdBuffers added, executed.job = { handed.job with cmdBuffers := cmdBuffers } ∧
          List.Forall₂ Patched handed.job.cmdBuffers cmdBuffers ∧
          executed.ctx.calls = handed.ctx.calls ++ added ∧
          (∀ call ∈ added, ∃ cmdBuf ∈ handed.job.cmdBuffers, handed.queue.Requests cmdBuf call) ∧
          completedBuffers added = [] ∧
          acceptedBuffers added <+: handed.job.cmdBuffers.map VPUCommandBuffer.buffer ∧
          (executed.result = .ZE_RESULT_SUCCESS → handed.job.cmdBuffers ≠ [] ∧
            acceptedBuffers added = handed.job.cmdBuffers.map VPUCommandBuffer.buffer)) := by
  unfold executeJob handedJob updatedJob
  generalize job.updateOnSubmit ctx = answer
  obtain ⟨updated, revised, next⟩ := answer
  cases updated with
  | false => exact .inl ⟨rfl, by simp, rfl, rfl, rfl⟩
  | true =>
    refine .inr ?_
    unfold VPUDeviceQueueManaged.submit
    simp only
    generalize queue.prepare (revised.addPreemptionBuffer preemptionBuffer) next = prepared
    cases prepared_success : prepared.success with
    | false =>
      refine .inl ⟨trivial, rfl, ?_, rfl, rfl, rfl⟩
      simp only [Bool.not_false, ↓reduceIte, prepared_success, Bool.false_eq_true]
      split <;> simp
    | true =>
      refine .inr ⟨trivial, rfl, rfl, ?_⟩
      simp only [Bool.not_true, Bool.false_eq_true, ↓reduceIte]
      obtain ⟨success, cmdBuffers, final, added, result, patched, calls, requests, nothing, front, all⟩ :=
        prepared.queue.submitWithWait_spec prepared.job prepared.ctx
      rw [result]
      refine ⟨cmdBuffers, added, rfl, patched, calls, requests, nothing, front, ?_⟩
      cases success with
      | false =>
        simp only [Bool.false_eq_true, ↓reduceIte]
        split <;> simp
      | true => exact fun _ => all rfl

/-- The requests of a job that is handed to the kernel, for a relation that busy waiting respects. -/
theorem executeJob_tries {R : VPUCommandBuffer → VPUCommandBuffer → Prop} (refl : ∀ cmdBuf, R cmdBuf cmdBuf)
    (trans : ∀ first second third, R first second → R second third → R first third)
    (waits : ∀ cmdBuf, R cmdBuf cmdBuf.useBusyWait) {queue : VPUDeviceQueueManaged}
    {preemptionBuffer : Option VPUBufferObject} {job : VPUJob} {ctx : VPUDeviceContext}
    (updated : (job.updateOnSubmit ctx).1 = true) (handed : (handedJob queue preemptionBuffer job ctx).success = true) :
    ∃ cmdBuffers added, (executeJob queue preemptionBuffer job ctx).job =
        { (handedJob queue preemptionBuffer job ctx).job with cmdBuffers := cmdBuffers } ∧
      List.Forall₂ R (handedJob queue preemptionBuffer job ctx).job.cmdBuffers cmdBuffers ∧
      (executeJob queue preemptionBuffer job ctx).ctx.calls =
        (handedJob queue preemptionBuffer job ctx).ctx.calls ++ added ∧
      ∀ call ∈ added, ∃ cmdBuf ∈ (handedJob queue preemptionBuffer job ctx).job.cmdBuffers,
        VPUDeviceQueueManaged.Tries R cmdBuf call := by
  unfold handedJob updatedJob at handed ⊢
  unfold executeJob
  generalize job.updateOnSubmit ctx = answer at updated handed
  obtain ⟨success, revised, next⟩ := answer
  subst updated
  simp only [VPUDeviceQueueManaged.submit]
  generalize queue.prepare (revised.addPreemptionBuffer preemptionBuffer) next = prepared at handed
  simp only [handed, Bool.not_true, Bool.false_eq_true, ↓reduceIte, VPUDeviceQueueManaged.submitWithWait]
  split
  · exact ⟨prepared.job.cmdBuffers, [], rfl, pointwise_refl refl _, (List.append_nil _).symm, nofun⟩
  · obtain ⟨related, added, calls, tries⟩ :=
      prepared.queue.submitEach_tries refl trans waits prepared.ctx prepared.job.cmdBuffers
    generalize prepared.queue.submitEach prepared.ctx prepared.job.cmdBuffers = result at related calls
    obtain ⟨success, cmdBuffers, final⟩ := result
    exact ⟨cmdBuffers, added, rfl, related, calls, tries⟩

/-- The commands of a command buffer stay its own when it is given a preemption buffer. -/
theorem VPUCommandBuffer.addPreemptionBuffer_revised (cb : VPUCommandBuffer) (bo : Option VPUBufferObject) :
    Revised (fun before after => after = before.addPreemptionBuffer bo) cb (cb.addPreemptionBuffer bo) := by
  have frame : (cb.addPreemptionBuffer bo).commandsBegin = cb.commandsBegin ∧
      (cb.addPreemptionBuffer bo).commandsEnd = cb.commandsEnd := by
    unfold addPreemptionBuffer
    split <;> exact ⟨rfl, rfl⟩
  exact ⟨frame.1, frame.2, rfl⟩

namespace VPUJob

/-- The patches of `makeInOrder`; only the order in the chain and the fences change. -/
theorem chain_spec (job : VPUJob) (front : VPUCommandBuffer) (rest : List VPUCommandBuffer)
    (waitFor : Option VPUBufferObject) (ctx : VPUDeviceContext) :
    ∃ cmdBuffers inOrder, (chain job front rest waitFor ctx).job =
        { job with cmdBuffers := cmdBuffers, hasInOrderWorkload := inOrder } ∧
      List.Forall₂ Patched (front :: rest) cmdBuffers ∧
      ((chain job front rest waitFor ctx).success = true → inOrder = true) ∧
      ((chain job front rest waitFor ctx).success = false → inOrder = job.hasInOrderWorkload) := by
  unfold chain
  have head := front.addWaitAtHead_patched ctx waitFor true
  generalize front.addWaitAtHead ctx waitFor true = answer at head
  obtain ⟨success, patched⟩ := answer
  have first : List.Forall₂ Patched (front :: rest) (patched :: rest) :=
    .cons head (pointwise_refl Patched.refl rest)
  cases success with
  | false => exact ⟨patched :: rest, job.hasInOrderWorkload, rfl, first, by simp, by simp⟩
  | true =>
    simp only
    have tail := addSelfSignalAtTail_patched ((patched :: rest).getLast (List.cons_ne_nil patched rest))
    generalize ((patched :: rest).getLast (List.cons_ne_nil patched rest)).addSelfSignalAtTail = signal at tail
    obtain ⟨signalled, signalling⟩ := signal
    have both : List.Forall₂ Patched (front :: rest) ((patched :: rest).dropLast ++ [signalling]) := by
      refine pointwise_trans ?_ first (pointwise_last Patched.refl _ tail)
      exact fun _ _ _ left right => left.trans right
    cases signalled with
    | false => exact ⟨_, job.hasInOrderWorkload, rfl, both, by simp, by simp⟩
    | true => exact ⟨_, true, rfl, both, by simp, by simp⟩

/-- The cases of `makeInOrder`: a job without command buffers, a wait for the first command buffer that
fails or succeeds, and a buffer that need not be waited for. -/
theorem makeInOrder_cases (job : VPUJob) (waitFor : Option VPUBufferObject) (ctx : VPUDeviceContext) :
    (job.cmdBuffers = [] ∧ job.makeInOrder waitFor ctx = ⟨false, job, waitFor, ctx⟩) ∨
      ∃ front rest, job.cmdBuffers = front :: rest ∧
        ((waitFor.map VPUBufferObject.id = some front.buffer.id ∧ ∃ next,
            job.makeInOrder waitFor ctx = ⟨false, job, waitFor, next⟩ ∧
              next.calls = ctx.calls ++ [.wait front.buffer false]) ∨
          (waitFor.map VPUBufferObject.id = some front.buffer.id ∧ ∃ status next,
            job.makeInOrder waitFor ctx =
                chain job (release { front with jobStatus := status }).resetFenceValue rest none next ∧
              next.calls = ctx.calls ++ [.wait front.buffer true]) ∨
          (waitFor.map VPUBufferObject.id ≠ some front.buffer.id ∧
            job.makeInOrder waitFor ctx = chain job front rest waitFor ctx)) := by
  unfold makeInOrder
  cases split : job.cmdBuffers with
  | nil => exact .inl ⟨rfl, rfl⟩
  | cons front rest =>
    refine .inr ⟨front, rest, rfl, ?_⟩
    simp only
    by_cases back : waitFor.map VPUBufferObject.id = some front.buffer.id
    · rw [if_pos back]
      rcases front.waitForCompletion_spec ctx with ⟨next, failed, calls⟩ | ⟨status, next, succeeded, calls⟩
      · rw [failed]
        simp only [← split]
        exact .inl ⟨back, next, rfl, calls⟩
      · rw [succeeded]
        exact .inr (.inl ⟨back, status, next, rfl, calls⟩)
    · rw [if_neg back]
      exact .inr (.inr ⟨back, rfl⟩)

/-- The loop of `waitForCompletion` waits for the command buffers up to the first failure. -/
theorem waitBuffers_spec (ctx : VPUDeviceContext) (cmdBuffers : List VPUCommandBuffer) :
    ∃ added, (waitBuffers ctx cmdBuffers).2.2.calls = ctx.calls ++ added ∧ acceptedBuffers added = [] ∧
      List.Forall₂ (fun before after => after = before ∨
          before.buffer ∈ completedBuffers added ∧ ∃ status, after = release { before with jobStatus := status })
        cmdBuffers (waitBuffers ctx cmdBuffers).2.1 ∧
        ((waitBuffers ctx cmdBuffers).1 = true →
          completedBuffers added = cmdBuffers.map VPUCommandBuffer.buffer) := by
  induction cmdBuffers generalizing ctx with
  | nil => exact ⟨[], (List.append_nil _).symm, rfl, .nil, fun _ => rfl⟩
  | cons cmdBuffer rest ih =>
    unfold waitBuffers
    rcases cmdBuffer.waitForCompletion_spec ctx with ⟨next, failed, calls⟩ | ⟨status, next, succeeded, calls⟩
    · rw [failed]
      exact ⟨_, calls, rfl, .cons (.inl rfl) (pointwise_refl (fun _ => .inl rfl) rest), nofun⟩
    · rw [succeeded]
      obtain ⟨added, later, nothing, others, all⟩ := ih next
      have completed : completedBuffers (.wait cmdBuffer.buffer true :: added) =
          cmdBuffer.buffer :: completedBuffers added := rfl
      refine ⟨.wait cmdBuffer.buffer true :: added, ?_, nothing, ?_, ?_⟩
      · have both := congrArg (· ++ added) calls
        rw [List.append_assoc] at both
        exact later.trans both
      · rw [completed]
        refine .cons (.inr ⟨List.mem_cons_self .., status, rfl⟩) (others.imp ?_)
        rintro before after (same | ⟨waited, released⟩)
        · exact .inl same
        · exact .inr ⟨List.mem_cons_of_mem _ waited, released⟩
      · intro success
        rw [completed]
        exact congrArg (cmdBuffer.buffer :: ·) (all success)

end VPUJob

end NpuDriver
