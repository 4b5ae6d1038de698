import NpuDriver.Proof.DanglingHandles

/-! The in-order chain when submissions fail: what the queue lets the next job wait for. -/

namespace NpuDriver

open Library

/-- The kernel's answers from a request on accept this many command buffers, each after the `EBUSY`
replies to it. -/
def AcceptsEach (answers : Nat → SubmitAnswer) : Nat → Nat → Prop
  | _, 0 => True
  | count, buffers + 1 =>
    (answers count).outcome = .accepted ∧ AcceptsEach answers (count + (answers count).busyReplies + 1) buffers

instance instDecidableAcceptsEach (answers : Nat → SubmitAnswer) :
    (count buffers : Nat) → Decidable (AcceptsEach answers count buffers)
  | _, 0 => instDecidableTrue
  | count, buffers + 1 =>
    have := instDecidableAcceptsEach answers (count + (answers count).busyReplies + 1) buffers
    inferInstanceAs (Decidable ((answers count).outcome = .accepted ∧ _))

namespace VPUDeviceQueueManaged

theorem submitBusy_requests (queue : VPUDeviceQueueManaged) (attempts : Nat) (cmdBuf : VPUCommandBuffer)
    (ctx : VPUDeviceContext) :
    (queue.submitBusy attempts cmdBuf ctx).2.drvApi = ctx.drvApi ∧
      (queue.submitBusy attempts cmdBuf ctx).2.calls.length = ctx.calls.length + attempts := by
  induction attempts generalizing cmdBuf ctx with
  | zero => exact ⟨rfl, rfl⟩
  | succ attempts ih =>
    obtain ⟨kernel, count⟩ := ih (queue.submitCommandBuffer cmdBuf ctx false).1
      (queue.submitCommandBuffer cmdBuf ctx false).2
    refine ⟨kernel, count.trans ?_⟩
    rw [(queue.submitCommandBuffer_spec cmdBuf ctx false).2, List.length_append]
    simp only [List.length_singleton]
    omega

/-- A command buffer is accepted when the kernel's final reply says so. -/
theorem submitUntilReply_requests (queue : VPUDeviceQueueManaged) (cmdBuf : VPUCommandBuffer)
    (ctx : VPUDeviceContext) :
    let answer := ctx.drvApi.commandQueueSubmit ctx.calls.length
    ((queue.submitUntilReply cmdBuf ctx).1 = true ↔ answer.outcome = .accepted) ∧
      (queue.submitUntilReply cmdBuf ctx).2.2.drvApi = ctx.drvApi ∧
      (queue.submitUntilReply cmdBuf ctx).2.2.calls.length = ctx.calls.length + answer.busyReplies + 1 := by
  intro answer
  obtain ⟨kernel, count⟩ := queue.submitBusy_requests answer.busyReplies cmdBuf ctx
  have last : ∀ accepted, (queue.submitCommandBuffer (queue.submitBusy answer.busyReplies cmdBuf ctx).1
      (queue.submitBusy answer.busyReplies cmdBuf ctx).2 accepted).2.calls.length =
        ctx.calls.length + answer.busyReplies + 1 := by
    intro accepted
    rw [(submitCommandBuffer_spec queue _ _ accepted).2, List.length_append, count]
    rfl
  rw [submitUntilReply]
  simp only
  cases reply : answer.outcome with
  | accepted => exact ⟨by simp, kernel, last true⟩
  | failed errno => exact ⟨by simp, kernel, last false⟩
  | timedOut errno => exact ⟨by simp, kernel, last false⟩

theorem submitEach_success_iff (queue : VPUDeviceQueueManaged) (ctx : VPUDeviceContext)
    (cmdBufs : List VPUCommandBuffer) :
    (queue.submitEach ctx cmdBufs).1 = true ↔
      AcceptsEach ctx.drvApi.commandQueueSubmit ctx.calls.length cmdBufs.length := by
  induction cmdBufs generalizing ctx with
  | nil => simp [submitEach, AcceptsEach]
  | cons cmdBuf rest ih =>
    obtain ⟨final, kernel, count⟩ := queue.submitUntilReply_requests cmdBuf ctx
    rw [submitEach, List.length_cons, AcceptsEach, ← final, ← count, ← kernel]
    generalize queue.submitUntilReply cmdBuf ctx = answer
    obtain ⟨accepted, submitted, next⟩ := answer
    cases accepted with
    | false => simp
    | true => simpa using ih next

/-- When the first command buffer is refused, nothing is accepted. -/
theorem submitEach_refused (queue : VPUDeviceQueueManaged) (ctx : VPUDeviceContext) (cmdBufs : List VPUCommandBuffer)
    (refused : ¬ AcceptsEach ctx.drvApi.commandQueueSubmit ctx.calls.length 1) :
    ∃ added, (queue.submitEach ctx cmdBufs).2.2.calls = ctx.calls ++ added ∧ acceptedBuffers added = [] := by
  cases cmdBufs with
  | nil => exact ⟨[], (List.append_nil _).symm, rfl⟩
  | cons cmdBuf rest =>
    obtain ⟨-, added, calls, -, -, accepted⟩ := queue.submitUntilReply_spec cmdBuf ctx
    have final : (queue.submitUntilReply cmdBuf ctx).1 = false := by
      rw [← Bool.not_eq_true, (queue.submitUntilReply_requests cmdBuf ctx).1]
      simpa [AcceptsEach] using refused
    rw [final] at accepted
    rw [submitEach]
    generalize queue.submitUntilReply cmdBuf ctx = answer at calls final
    obtain ⟨success, submitted, next⟩ := answer
    cases final
    exact ⟨added, calls, accepted⟩

end VPUDeviceQueueManaged

namespace VPUJob

/-- The job is in the chain: its first command buffer waits for the given buffer or for none, and the
buffer of its last one is what the next job has to wait for. -/
structure Ordered.Chained (ordered : Ordered) (waitFor : Option VPUBufferObject) : Prop where
  last : ordered.waitFor = (ordered.job.cmdBuffers.map VPUCommandBuffer.buffer).getLast?
  front : ∃ guard, ordered.job.cmdBuffers.head?.map VPUCommandBuffer.waitBoGuard = some guard ∧
    (guard = none ∨ guard = waitFor)

/-- A job that was put into the chain waits for the former last buffer, and its own last one takes its
place; a failed patch leaves the place alone. -/
theorem chain_waitFor (job : VPUJob) (front : VPUCommandBuffer) (rest : List VPUCommandBuffer)
    (waitFor : Option VPUBufferObject) (ctx : VPUDeviceContext) :
    ((chain job front rest waitFor ctx).success = false → (chain job front rest waitFor ctx).waitFor = waitFor) ∧
      ((chain job front rest waitFor ctx).success = true → (chain job front rest waitFor ctx).Chained waitFor) := by
  rw [chain]
  have guards := fun success => @VPUCommandBuffer.addWaitAtHead_guards front ctx waitFor true success
  generalize front.addWaitAtHead ctx waitFor true = answer at guards
  obtain ⟨waiting, patched⟩ := answer
  cases waiting with
  | false => exact ⟨fun _ => rfl, nofun⟩
  | true =>
    have guard : patched.waitBoGuard = waitFor := guards rfl
    have last := VPUCommandBuffer.addSelfSignalAtTail_patched
      ((patched :: rest).getLast (List.cons_ne_nil patched rest))
    have same := VPUCommandBuffer.addSelfSignalAtTail_waitBoGuard
      ((patched :: rest).getLast (List.cons_ne_nil patched rest))
    simp only
    generalize ((patched :: rest).getLast (List.cons_ne_nil patched rest)).addSelfSignalAtTail = signal at last same
    obtain ⟨signalled, signalling⟩ := signal
    cases signalled with
    | false => exact ⟨fun _ => rfl, nofun⟩
    | true =>
      refine ⟨nofun, fun _ => ⟨?_, waitFor, ?_, .inr rfl⟩⟩
      · simpa using last.buffer.symm
      · cases rest with
        | nil => simpa using (same : signalling.waitBoGuard = patched.waitBoGuard).trans guard
        | cons second others => simpa using guard

/-- What `makeInOrder` makes of the buffer that the next job has to wait for. -/
theorem makeInOrder_waitFor (job : VPUJob) (waitFor : Option VPUBufferObject) (ctx : VPUDeviceContext) :
    ((job.makeInOrder waitFor ctx).success = false →
        (job.makeInOrder waitFor ctx).waitFor = none ∨ (job.makeInOrder waitFor ctx).waitFor = waitFor) ∧
      ((job.makeInOrder waitFor ctx).success = true → (job.makeInOrder waitFor ctx).Chained waitFor) := by
  rcases job.makeInOrder_cases waitFor ctx with ⟨-, refused⟩ | ⟨front, rest, -, waited⟩
  · rw [refused]
    exact ⟨fun _ => .inr rfl, nofun⟩
  · rcases waited with ⟨-, next, failed, -⟩ | ⟨-, status, next, own, -⟩ | ⟨-, other⟩
    · rw [failed]
      exact ⟨fun _ => .inr rfl, nofun⟩
    · rw [own]
      obtain ⟨kept, chained⟩ := chain_waitFor job
        (VPUCommandBuffer.release { front with jobStatus := status }).resetFenceValue rest none next
      refine ⟨fun failed => .inl (kept failed), fun success => ⟨(chained success).last, ?_⟩⟩
      obtain ⟨guard, first, nothing⟩ := (chained success).front
      exact ⟨guard, first, .inl (nothing.elim id id)⟩
    · rw [other]
      obtain ⟨kept, chained⟩ := chain_waitFor job front rest waitFor ctx
      exact ⟨fun failed => .inr (kept failed), chained⟩

end VPUJob

/-- A call of `submit`: the job, and the context that it meets. -/
structure InOrderSubmit where
  job : VPUJob
  ctx : VPUDeviceContext

/-- An in-order queue with the last command buffers of the jobs that the kernel accepted as a whole, the
latest one last. -/
structure InOrderChain where
  queue : VPUDeviceQueueManaged
  accepted : List VPUBufferObject

namespace InOrderChain

def submit (chain : InOrderChain) (call : InOrderSubmit) : InOrderChain :=
  let submitted := chain.queue.submit call.job call.ctx
  let buffers := submitted.job.cmdBuffers.map VPUCommandBuffer.buffer
  { queue := submitted.queue
    accepted :=
      if acceptedBuffers (submitted.ctx.calls.drop call.ctx.calls.length) = buffers then
        chain.accepted ++ buffers.getLast?.toList
      else chain.accepted }

/-- A job that `makeInOrder` does not refuse is accepted by the kernel as a whole. -/
def Accepts (chain : InOrderChain) (call : InOrderSubmit) : Prop :=
  let ordered := call.job.makeInOrder chain.queue.lastWaitBo call.ctx
  ordered.success = true →
    AcceptsEach ordered.ctx.drvApi.commandQueueSubmit ordered.ctx.calls.length ordered.job.cmdBuffers.length

instance (chain : InOrderChain) (call : InOrderSubmit) : Decidable (chain.Accepts call) :=
  inferInstanceAs (Decidable (_ → _))

/-- The next job waits for no buffer, or for the last one of the latest job that was accepted. -/
structure Sound (chain : InOrderChain) : Prop where
  inOrder : chain.queue.isInOrder = true
  last : chain.queue.lastWaitBo = none ∨ chain.queue.lastWaitBo = chain.accepted.getLast?

/-- What a submission makes of the chain: a refused job leaves no mark but may end the chain, any other
one is the next to be waited for, whatever the kernel answers. -/
theorem submit_cases (chain : InOrderChain) (call : InOrderSubmit) (inOrder : chain.queue.isInOrder = true) :
    let ordered := call.job.makeInOrder chain.queue.lastWaitBo call.ctx
    let buffers := ordered.job.cmdBuffers.map VPUCommandBuffer.buffer
    (ordered.success = false ∧ (chain.submit call).queue.isInOrder = true ∧
        ((chain.submit call).queue.lastWaitBo = none ∨
          (chain.submit call).queue.lastWaitBo = chain.queue.lastWaitBo) ∧
        (chain.submit call).accepted = chain.accepted) ∨
      (ordered.success = true ∧ (chain.submit call).queue.isInOrder = true ∧
        (chain.submit call).queue.lastWaitBo = buffers.getLast? ∧
        (chain.Accepts call → (chain.submit call).accepted = chain.accepted ++ buffers.getLast?.toList)) := by
  intro ordered buffers
  obtain ⟨refused, chained⟩ := call.job.makeInOrder_waitFor chain.queue.lastWaitBo call.ctx
  obtain ⟨asked, requests, nothing, -⟩ := call.job.makeInOrder_calls chain.queue.lastWaitBo call.ctx
  have prepared : chain.queue.prepare call.job call.ctx =
      ⟨ordered.success, { chain.queue with lastWaitBo := ordered.waitFor }, ordered.job, ordered.ctx⟩ := by
    rw [VPUDeviceQueueManaged.prepare, if_pos inOrder]
  cases success : ordered.success with
  | false =>
    have submitted : chain.queue.submit call.job call.ctx =
        ⟨false, { chain.queue with lastWaitBo := ordered.waitFor }, ordered.job, ordered.ctx⟩ := by
      simp [VPUDeviceQueueManaged.submit, prepared, success]
    refine .inl ⟨rfl, ?_, ?_, ?_⟩
    · simpa only [InOrderChain.submit, submitted] using inOrder
    · simpa only [InOrderChain.submit, submitted] using refused success
    · have added : acceptedBuffers (ordered.ctx.calls.drop call.ctx.calls.length) = [] := by
        rw [requests, List.drop_left, nothing]
      simp only [InOrderChain.submit, submitted, added]
      by_cases empty : ordered.job.cmdBuffers = []
      · simp [empty]
      · rw [if_neg]
        simpa using Ne.symm empty
  | true =>
    obtain ⟨last, guard, front, -⟩ := chained success
    have nonempty : ordered.job.cmdBuffers ≠ [] := by
      intro empty
      simp [ordered, empty] at front
    let queue : VPUDeviceQueueManaged := { chain.queue with lastWaitBo := ordered.waitFor }
    obtain ⟨patched, added, calls, -, -, -, all⟩ := queue.submitEach_spec ordered.ctx ordered.job.cmdBuffers
    have same : (queue.submitEach ordered.ctx ordered.job.cmdBuffers).2.1.map VPUCommandBuffer.buffer = buffers :=
      (pointwise_map_eq (fun _ _ kept => kept.buffer.symm) patched).symm
    have submitted : chain.queue.submit call.job call.ctx =
        ⟨(queue.submitEach ordered.ctx ordered.job.cmdBuffers).1, queue,
          { ordered.job with cmdBuffers := (queue.submitEach ordered.ctx ordered.job.cmdBuffers).2.1 },
          (queue.submitEach ordered.ctx ordered.job.cmdBuffers).2.2⟩ := by
      simp only [VPUDeviceQueueManaged.submit, prepared, success, Bool.not_true, Bool.false_eq_true, ↓reduceIte,
        VPUDeviceQueueManaged.submitWithWait, if_neg nonempty]
      rfl
    refine .inr ⟨rfl, ?_, ?_, fun accepts => ?_⟩
    · simpa only [InOrderChain.submit, submitted] using inOrder
    · simpa only [InOrderChain.submit, submitted] using last
    · have accepted := all ((queue.submitEach_success_iff ordered.ctx ordered.job.cmdBuffers).mpr (accepts success))
      have whole : acceptedBuffers ((queue.submitEach ordered.ctx ordered.job.cmdBuffers).2.2.calls.drop
          call.ctx.calls.length) = buffers := by
        rw [calls, requests, List.append_assoc, List.drop_left, acceptedBuffers_append, nothing]
        exact accepted
      simp only [InOrderChain.submit, submitted, same, whole, ↓reduceIte]

theorem submit_sound {chain : InOrderChain} {call : InOrderSubmit} (sound : chain.Sound)
    (accepts : chain.Accepts call) : (chain.submit call).Sound := by
  rcases chain.submit_cases call sound.inOrder with ⟨-, inOrder, kept, same⟩ | ⟨-, inOrder, last, more⟩
  · refine ⟨inOrder, kept.elim .inl fun unchanged => ?_⟩
    rw [unchanged, same]
    exact sound.last
  · refine ⟨inOrder, ?_⟩
    rw [last, more accepts]
    cases (List.map VPUCommandBuffer.buffer
        (call.job.makeInOrder chain.queue.lastWaitBo call.ctx).job.cmdBuffers).getLast? with
    | none => exact .inl rfl
    | some back => exact .inr (by simp)

/-- A job that is handed to the kernel waits for no buffer or for one that the kernel accepted. -/
def WaitsOnAccepted (chain : InOrderChain) : Prop :=
  ∀ job ctx, (chain.queue.prepare job ctx).success = true →
    ∃ guard, (chain.queue.prepare job ctx).job.cmdBuffers.head?.map VPUCommandBuffer.waitBoGuard = some guard ∧
      ∀ bo, guard = some bo → bo ∈ chain.accepted

theorem Sound.waitsOnAccepted {chain : InOrderChain} (sound : chain.Sound) : chain.WaitsOnAccepted := by
  intro job ctx success
  rw [VPUDeviceQueueManaged.prepare, if_pos sound.inOrder] at success ⊢
  obtain ⟨guard, front, waits⟩ := ((job.makeInOrder_waitFor chain.queue.lastWaitBo ctx).2 success).front
  refine ⟨guard, front, ?_⟩
  rintro bo rfl
  have next := waits.resolve_left (by simp)
  exact List.mem_of_getLast? (sound.last.elim (fun none => absurd (next.trans none) (by simp)) next.trans).symm

end InOrderChain

/-- In every run of submissions on an in-order queue in which the kernel accepts each job that
`makeInOrder` does not refuse, the next job waits for no buffer or for the last one of a job that was
accepted as a whole. -/
theorem lastWaitBo_accepted {queue : VPUDeviceQueueManaged} {calls : List InOrderSubmit}
    (inOrder : queue.isInOrder = true) (fresh : queue.lastWaitBo = none)
    (guarded : Guarded InOrderChain.submit InOrderChain.Accepts ⟨queue, []⟩ calls) :
    let chain := runFrom InOrderChain.submit ⟨queue, []⟩ calls
    (∀ bo, chain.queue.lastWaitBo = some bo → chain.accepted.getLast? = some bo) ∧ chain.WaitsOnAccepted := by
  intro chain
  have keeps : ∀ state call, InOrderChain.Sound state → state.Accepts call → (state.submit call).Sound :=
    fun _ _ => InOrderChain.submit_sound
  have sound : chain.Sound := guarded_invariant keeps ⟨inOrder, .inl fresh⟩ guarded
  refine ⟨fun bo next => ?_, sound.waitsOnAccepted⟩
  rcases sound.last with none | last
  · rw [next] at none
    cases none
  · rw [← last, next]

/-- A job whose command buffers are created later than those of the other one, on a kernel that grants
everything. -/
def laterSubmit : InOrderSubmit :=
  ⟨(VPUJob.closeCommands ⟨[argumentInference], [], false, false⟩ { argumentContext with created := 7 }).2.1,
    argumentContext⟩

def firstSubmit : InOrderSubmit := ⟨closedJob [argumentInference], argumentContext⟩

/-- The same call on a kernel that answers the submission with an I/O error. -/
def failedSubmit : InOrderSubmit :=
  ⟨closedJob [argumentInference],
    { argumentContext with
      drvApi := { grantingKernel with commandQueueSubmit := fun _ => ⟨0, .failed 5⟩ } }⟩

theorem lastWaitBo_accepted_later :
    let chain := runFrom InOrderChain.submit ⟨inOrderAfter none, []⟩ [firstSubmit, laterSubmit]
    ((∀ bo, chain.queue.lastWaitBo = some bo → chain.accepted.getLast? = some bo) ∧ chain.WaitsOnAccepted) ∧
      chain.queue.lastWaitBo.map VPUBufferObject.id = some 7 ∧ chain.accepted.map VPUBufferObject.id = [0, 7] :=
  ⟨lastWaitBo_accepted rfl rfl (by decide +kernel), by decide +kernel, by decide +kernel⟩

/-- After a failed submission the next job is accepted and waits for the command buffer that the kernel
refused. -/
theorem failed_job_awaited :
    let chain := runFrom InOrderChain.submit ⟨inOrderAfter none, []⟩ [failedSubmit]
    let later := chain.submit laterSubmit
    chain.queue.lastWaitBo.map VPUBufferObject.id = some 0 ∧ chain.accepted = [] ∧
      later.accepted.map VPUBufferObject.id = [7] ∧
      (chain.queue.prepare laterSubmit.job laterSubmit.ctx).job.cmdBuffers.map VPUCommandBuffer.waitBoGuard =
        [chain.queue.lastWaitBo] := by
  decide +kernel

end NpuDriver
