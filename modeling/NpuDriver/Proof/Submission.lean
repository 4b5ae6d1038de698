import NpuDriver.Proof.Placement

/-! What one submission and one wait ask of the kernel, and what they leave of the command
buffers. -/

namespace NpuDriver

/-- The command buffers that the kernel accepted, in the order of their submission. -/
def acceptedBuffers (calls : List DriverCall) : List VPUBufferObject :=
  calls.filterMap fun call =>
    match call with
    | .submit buffer _ _ _ true => some buffer
    | _ => none

/-- The command buffers that the kernel reported as inactive. -/
def completedBuffers (calls : List DriverCall) : List VPUBufferObject :=
  calls.filterMap fun call =>
    match call with
    | .wait buffer true => some buffer
    | _ => none

theorem acceptedBuffers_append (first second : List DriverCall) :
    acceptedBuffers (first ++ second) = acceptedBuffers first ++ acceptedBuffers second := by
  simp [acceptedBuffers]

theorem completedBuffers_append (first second : List DriverCall) :
    completedBuffers (first ++ second) = completedBuffers first ++ completedBuffers second := by
  simp [completedBuffers]

namespace VPUDeviceQueueManaged

/-- A request to run a command buffer: its arguments are those of the buffer, whose handles may
only have been extended in the meantime. -/
def Requests (queue : VPUDeviceQueueManaged) (cmdBuf : VPUCommandBuffer) (call : DriverCall) : Prop :=
  ∃ tried accepted, cmdBuf.Patched tried ∧
    call = .submit cmdBuf.buffer tried.bufferHandles cmdBuf.getPreemptionBufferIndex queue.currentId accepted

theorem Requests.of_extends {queue : VPUDeviceQueueManaged} {cmdBuf later : VPUCommandBuffer}
    {call : DriverCall} (extends_ : cmdBuf.Patched later) (requests : queue.Requests later call) :
    queue.Requests cmdBuf call := by
  obtain ⟨tried, accepted, extended, rfl⟩ := requests
  refine ⟨tried, accepted, extends_.trans extended, ?_⟩
  rw [extends_.buffer, VPUCommandBuffer.getPreemptionBufferIndex, extends_.preemptionBufferIndex]
  rfl

theorem submitCommandBuffer_spec (queue : VPUDeviceQueueManaged) (cmdBuf : VPUCommandBuffer)
    (ctx : VPUDeviceContext) (accepted : Bool) :
    cmdBuf.Patched (queue.submitCommandBuffer cmdBuf ctx accepted).1 ∧
      (queue.submitCommandBuffer cmdBuf ctx accepted).2.calls = ctx.calls ++
        [.submit cmdBuf.buffer cmdBuf.bufferHandles cmdBuf.getPreemptionBufferIndex queue.currentId accepted] := by
  refine ⟨?_, rfl⟩
  simp only [submitCommandBuffer]
  split
  · exact cmdBuf.useBusyWait_patched
  · exact VPUCommandBuffer.Patched.refl cmdBuf

theorem submitBusy_spec (queue : VPUDeviceQueueManaged) (attempts : Nat) (cmdBuf : VPUCommandBuffer)
    (ctx : VPUDeviceContext) :
    cmdBuf.Patched (queue.submitBusy attempts cmdBuf ctx).1 ∧
      ∃ added, (queue.submitBusy attempts cmdBuf ctx).2.calls = ctx.calls ++ added ∧
        (∀ call ∈ added, queue.Requests cmdBuf call) ∧ acceptedBuffers added = [] ∧
        completedBuffers added = [] := by
  induction attempts generalizing cmdBuf ctx with
  | zero =>
    exact ⟨VPUCommandBuffer.Patched.refl cmdBuf, [], (List.append_nil _).symm, by simp, rfl, rfl⟩
  | succ attempts ih =>
    obtain ⟨extended, calls⟩ := queue.submitCommandBuffer_spec cmdBuf ctx false
    obtain ⟨rest, added, later, requests, none, nothing⟩ :=
      ih (queue.submitCommandBuffer cmdBuf ctx false).1 (queue.submitCommandBuffer cmdBuf ctx false).2
    refine ⟨extended.trans rest, _ :: added, by rw [submitBusy, later, calls, List.append_assoc]; rfl, ?_, ?_, ?_⟩
    · intro call member
      rcases List.mem_cons.mp member with rfl | repeated
      · exact ⟨cmdBuf, false, VPUCommandBuffer.Patched.refl cmdBuf, rfl⟩
      · exact (requests call repeated).of_extends extended
    · simpa [acceptedBuffers] using none
    · simpa [completedBuffers] using nothing

/-- One command buffer is submitted until the kernel gives a final reply. -/
theorem submitUntilReply_spec (queue : VPUDeviceQueueManaged) (cmdBuf : VPUCommandBuffer)
    (ctx : VPUDeviceContext) :
    cmdBuf.Patched (queue.submitUntilReply cmdBuf ctx).2.1 ∧
      ∃ added, (queue.submitUntilReply cmdBuf ctx).2.2.calls = ctx.calls ++ added ∧
        (∀ call ∈ added, queue.Requests cmdBuf call) ∧ completedBuffers added = [] ∧
        acceptedBuffers added =
          if (queue.submitUntilReply cmdBuf ctx).1 then [cmdBuf.buffer] else [] := by
  obtain ⟨tried, added, calls, requests, none, nothing⟩ :=
    queue.submitBusy_spec (ctx.drvApi.commandQueueSubmit ctx.calls.length).busyReplies cmdBuf ctx
  have last : ∀ accepted, cmdBuf.Patched (queue.submitCommandBuffer
        (queue.submitBusy (ctx.drvApi.commandQueueSubmit ctx.calls.length).busyReplies cmdBuf ctx).1
        (queue.submitBusy (ctx.drvApi.commandQueueSubmit ctx.calls.length).busyReplies cmdBuf ctx).2 accepted).1 ∧
      ∃ requested, (queue.submitCommandBuffer
        (queue.submitBusy (ctx.drvApi.commandQueueSubmit ctx.calls.length).busyReplies cmdBuf ctx).1
        (queue.submitBusy (ctx.drvApi.commandQueueSubmit ctx.calls.length).busyReplies cmdBuf ctx).2
          accepted).2.calls = ctx.calls ++ requested ∧
        (∀ call ∈ requested, queue.Requests cmdBuf call) ∧ completedBuffers requested = [] ∧
        acceptedBuffers requested = if accepted then [cmdBuf.buffer] else [] := by
    intro accepted
    obtain ⟨extended, more⟩ := queue.submitCommandBuffer_spec
      (queue.submitBusy (ctx.drvApi.commandQueueSubmit ctx.calls.length).busyReplies cmdBuf ctx).1
      (queue.submitBusy (ctx.drvApi.commandQueueSubmit ctx.calls.length).busyReplies cmdBuf ctx).2 accepted
    refine ⟨tried.trans extended, added ++ _, by rw [more, calls, List.append_assoc], ?_, ?_, ?_⟩
    · intro call member
      rcases List.mem_append.mp member with busy | final
      · exact requests call busy
      · rw [List.mem_singleton.mp final]
        exact Requests.of_extends tried ⟨_, accepted, VPUCommandBuffer.Patched.refl _, rfl⟩
    · rw [completedBuffers_append, nothing]
      rfl
    · rw [acceptedBuffers_append, none, List.nil_append, tried.buffer]
      cases accepted <;> rfl
  unfold submitUntilReply
  cases reply : (ctx.drvApi.commandQueueSubmit ctx.calls.length).outcome with
  | accepted => simpa only [reply] using last true
  | failed errno => simpa only [reply] using last false
  | timedOut errno => simpa only [reply] using last false

/-- The buffers of a job are submitted one after another up to the first one that the kernel
refuses. -/
theorem submitEach_spec (queue : VPUDeviceQueueManaged) (ctx : VPUDeviceContext)
    (cmdBufs : List VPUCommandBuffer) :
    List.Forall₂ VPUCommandBuffer.Patched cmdBufs (queue.submitEach ctx cmdBufs).2.1 ∧
      ∃ added, (queue.submitEach ctx cmdBufs).2.2.calls = ctx.calls ++ added ∧
        (∀ call ∈ added, ∃ cmdBuf ∈ cmdBufs, queue.Requests cmdBuf call) ∧ completedBuffers added = [] ∧
        acceptedBuffers added <+: cmdBufs.map VPUCommandBuffer.buffer ∧
        ((queue.submitEach ctx cmdBufs).1 = true →
          acceptedBuffers added = cmdBufs.map VPUCommandBuffer.buffer) := by
  induction cmdBufs generalizing ctx with
  | nil => exact ⟨.nil, [], (List.append_nil _).symm, by simp, rfl, List.prefix_refl _, fun _ => rfl⟩
  | cons cmdBuf rest ih =>
    obtain ⟨extended, added, calls, requests, nothing, accepted⟩ := queue.submitUntilReply_spec cmdBuf ctx
    unfold submitEach
    generalize reply : queue.submitUntilReply cmdBuf ctx = result at extended calls accepted
    obtain ⟨success, submitted, next⟩ := result
    have here : ∀ call ∈ added, ∃ other ∈ cmdBuf :: rest, queue.Requests other call := fun call member =>
      ⟨cmdBuf, List.mem_cons_self .., requests call member⟩
    cases success with
    | false =>
      refine ⟨.cons extended (List.forall₂_same.mpr fun other _ => VPUCommandBuffer.Patched.refl other), added,
        calls, here, nothing, ?_, nofun⟩
      simp only [Bool.false_eq_true, ↓reduceIte] at accepted
      rw [accepted]
      exact List.nil_prefix
    | true =>
      obtain ⟨others, more, laterCalls, laterRequests, laterNothing, front, all⟩ := ih next
      simp only [↓reduceIte] at accepted
      refine ⟨.cons extended others, added ++ more, ?_, ?_, ?_, ?_, ?_⟩
      · have later : (queue.submitEach next rest).2.2.calls = ctx.calls ++ added ++ more := by
          rw [laterCalls]
          exact congrArg (· ++ more) calls
        exact later.trans (List.append_assoc ..)
      · intro call member
        rcases List.mem_append.mp member with first | later
        · exact here call first
        · obtain ⟨other, present, requested⟩ := laterRequests call later
          exact ⟨other, List.mem_cons_of_mem cmdBuf present, requested⟩
      · rw [completedBuffers_append, nothing, laterNothing]
        rfl
      · rw [acceptedBuffers_append, accepted, List.map_cons]
        exact List.cons_prefix_cons.mpr ⟨rfl, front⟩
      · intro success
        rw [acceptedBuffers_append, accepted, all success]
        rfl

/-! Each request of a submission reads a command buffer that busy waiting may have changed. -/

section Tries

/-- The arguments of a request are those of a related command buffer. -/
def Tries (R : VPUCommandBuffer → VPUCommandBuffer → Prop) (cmdBuf : VPUCommandBuffer) (call : DriverCall) : Prop :=
  ∃ tried index id accepted, R cmdBuf tried ∧ call = .submit tried.buffer tried.bufferHandles index id accepted

variable {R : VPUCommandBuffer → VPUCommandBuffer → Prop} (refl : ∀ cmdBuf, R cmdBuf cmdBuf)
  (trans : ∀ first second third, R first second → R second third → R first third)
  (waits : ∀ cmdBuf, R cmdBuf cmdBuf.useBusyWait)

include waits refl in
theorem submitCommandBuffer_tries (queue : VPUDeviceQueueManaged) (cmdBuf : VPUCommandBuffer)
    (ctx : VPUDeviceContext) (accepted : Bool) : R cmdBuf (queue.submitCommandBuffer cmdBuf ctx accepted).1 := by
  rw [submitCommandBuffer]
  simp only
  split
  · exact waits cmdBuf
  · exact refl cmdBuf

include trans waits refl in
theorem submitBusy_tries (queue : VPUDeviceQueueManaged) (attempts : Nat) (cmdBuf : VPUCommandBuffer)
    (ctx : VPUDeviceContext) :
    R cmdBuf (queue.submitBusy attempts cmdBuf ctx).1 ∧
      ∃ added, (queue.submitBusy attempts cmdBuf ctx).2.calls = ctx.calls ++ added ∧
        ∀ call ∈ added, Tries R cmdBuf call := by
  induction attempts generalizing cmdBuf ctx with
  | zero => exact ⟨refl cmdBuf, [], (List.append_nil _).symm, nofun⟩
  | succ attempts ih =>
    have first := queue.submitCommandBuffer_tries refl waits cmdBuf ctx false
    obtain ⟨rest, added, later, tries⟩ :=
      ih (queue.submitCommandBuffer cmdBuf ctx false).1 (queue.submitCommandBuffer cmdBuf ctx false).2
    refine ⟨trans _ _ _ first rest, _ :: added, by rw [submitBusy, later]; exact List.append_assoc .., ?_⟩
    intro call member
    rcases List.mem_cons.mp member with rfl | repeated
    · exact ⟨cmdBuf, _, _, _, refl cmdBuf, rfl⟩
    · obtain ⟨tried, index, id, accepted, related, rfl⟩ := tries call repeated
      exact ⟨tried, index, id, accepted, trans _ _ _ first related, rfl⟩

include trans waits refl in
theorem submitUntilReply_tries (queue : VPUDeviceQueueManaged) (cmdBuf : VPUCommandBuffer) (ctx : VPUDeviceContext) :
    R cmdBuf (queue.submitUntilReply cmdBuf ctx).2.1 ∧
      ∃ added, (queue.submitUntilReply cmdBuf ctx).2.2.calls = ctx.calls ++ added ∧
        ∀ call ∈ added, Tries R cmdBuf call := by
  obtain ⟨busy, added, calls, tries⟩ := queue.submitBusy_tries refl trans waits
    (ctx.drvApi.commandQueueSubmit ctx.calls.length).busyReplies cmdBuf ctx
  have last := queue.submitCommandBuffer_tries refl waits
    (queue.submitBusy (ctx.drvApi.commandQueueSubmit ctx.calls.length).busyReplies cmdBuf ctx).1
    (queue.submitBusy (ctx.drvApi.commandQueueSubmit ctx.calls.length).busyReplies cmdBuf ctx).2
  rw [submitUntilReply]
  simp only
  generalize queue.submitBusy (ctx.drvApi.commandQueueSubmit ctx.calls.length).busyReplies cmdBuf ctx = tried
    at busy calls last
  have requested : ∀ accepted, ∃ requested,
      (queue.submitCommandBuffer tried.1 tried.2 accepted).2.calls = ctx.calls ++ requested ∧
        ∀ call ∈ requested, Tries R cmdBuf call := by
    intro accepted
    refine ⟨added ++ [_], by rw [← List.append_assoc, ← calls]; rfl, ?_⟩
    intro call member
    rcases List.mem_append.mp member with before | final
    · exact tries call before
    · exact ⟨tried.1, _, _, _, busy, List.mem_singleton.mp final⟩
  split
  · exact ⟨trans _ _ _ busy (last true), requested true⟩
  · exact ⟨trans _ _ _ busy (last false), requested false⟩
  · exact ⟨trans _ _ _ busy (last false), requested false⟩

include trans waits refl in
theorem submitEach_tries (queue : VPUDeviceQueueManaged) (ctx : VPUDeviceContext) (cmdBufs : List VPUCommandBuffer) :
    List.Forall₂ R cmdBufs (queue.submitEach ctx cmdBufs).2.1 ∧
      ∃ added, (queue.submitEach ctx cmdBufs).2.2.calls = ctx.calls ++ added ∧
        ∀ call ∈ added, ∃ cmdBuf ∈ cmdBufs, Tries R cmdBuf call := by
  induction cmdBufs generalizing ctx with
  | nil => exact ⟨.nil, [], (List.append_nil _).symm, nofun⟩
  | cons cmdBuf rest ih =>
    obtain ⟨head, added, calls, tries⟩ := queue.submitUntilReply_tries refl trans waits cmdBuf ctx
    rw [submitEach]
    generalize queue.submitUntilReply cmdBuf ctx = answer at head calls
    obtain ⟨success, submitted, next⟩ := answer
    have here : ∀ call ∈ added, ∃ other ∈ cmdBuf :: rest, Tries R other call := fun call member =>
      ⟨cmdBuf, List.mem_cons_self, tries call member⟩
    cases success with
    | false => exact ⟨.cons head (List.forall₂_same.mpr fun other _ => refl other), added, calls, here⟩
    | true =>
      obtain ⟨others, more, later, triesLater⟩ := ih next
      refine ⟨.cons head others, added ++ more, ?_, ?_⟩
      · have both := congrArg (· ++ more) calls
        exact later.trans (both.trans (List.append_assoc ..))
      · intro call member
        rcases List.mem_append.mp member with first | behind
        · exact here call first
        · obtain ⟨other, present, tried⟩ := triesLater call behind
          exact ⟨other, List.mem_cons_of_mem cmdBuf present, tried⟩

end Tries

end VPUDeviceQueueManaged

namespace VPUCommandBuffer

/-- What a wait does to a command buffer: nothing, or it notes the status and releases the
resources of the submission. -/
theorem waitForCompletion_spec (cb : VPUCommandBuffer) (ctx : VPUDeviceContext) :
    (∃ ctx', cb.waitForCompletion ctx = (false, cb, ctx') ∧ ctx'.calls = ctx.calls ++ [.wait cb.buffer false]) ∨
      ∃ status ctx', cb.waitForCompletion ctx = (true, { cb with jobStatus := status }.release, ctx') ∧
        ctx'.calls = ctx.calls ++ [.wait cb.buffer true] := by
  unfold waitForCompletion wait
  cases ctx.drvApi.wait ctx.calls.length cb.buffer.handle with
  | none => exact .inl ⟨_, rfl, rfl⟩
  | some status => exact .inr ⟨status, _, rfl, rfl⟩

end VPUCommandBuffer

theorem VPUCommandBuffer.release_frame (cb : VPUCommandBuffer) : cb.release.buffer = cb.buffer ∧
    cb.release.commandsBegin = cb.commandsBegin ∧ cb.release.commandsEnd = cb.commandsEnd ∧
    cb.release.waitBoGuard = cb.waitBoGuard ∧ cb.release.inferenceScratchSize = cb.inferenceScratchSize := by
  unfold release
  split <;> exact ⟨rfl, rfl, rfl, rfl, rfl⟩

/-! Updates and the building of command buffers make no requests that are logged. -/

namespace VPUDeviceContext

theorem createUntrackedBufferObject_calls (ctx : VPUDeviceContext) (size : Nat) (mappable : Bool) :
    (ctx.createUntrackedBufferObject size mappable).2.calls = ctx.calls := by
  obtain ⟨created, -, frame⟩ := ctx.createUntrackedBufferObject_frame size mappable
  rw [frame]

theorem scratchCacheAcquire_calls (ctx : VPUDeviceContext) (size : Nat) :
    (ctx.scratchCacheAcquire size).2.calls = ctx.calls := by
  unfold scratchCacheAcquire
  split
  · rfl
  · simp only
    split
    · rfl
    · split
      · rename_i next failed
        have frame := createUntrackedBufferObject_calls { ctx with scans := ctx.scans + 1 } size false
        rw [failed] at frame
        exact frame
      · rename_i bo next created
        have frame := createUntrackedBufferObject_calls { ctx with scans := ctx.scans + 1 } size false
        rw [created] at frame
        exact frame

end VPUDeviceContext

theorem applyInputOutputs_calls (ctx : VPUDeviceContext) (hpi : HostParsedInference)
    (inputs outputs : List Nat) (profilingQuery : Option GraphProfilingQuery) :
    (applyInputOutputs ctx hpi inputs outputs profilingQuery).2.calls = ctx.calls := by
  unfold applyInputOutputs
  split
  · rfl
  · simp only
    split <;> rfl

theorem VPUCommand.update_calls (cmd : VPUCommand) (cb : VPUCommandBuffer) (ctx : VPUDeviceContext) :
    (cmd.update cb ctx).2.2.2.calls = ctx.calls := by
  unfold update
  split
  · rename_i inference _
    have frame := applyInputOutputs_calls ctx inference.hpi inference.inputs inference.outputs
      inference.profilingQuery
    split
    · rfl
    · split
      · rename_i next failed
        rw [failed] at frame
        exact frame
      · rename_i userArgs next applied
        rw [applied] at frame
        exact frame
  · rfl

namespace VPUCommandBuffer

theorem updateEach_calls (scratchBuffer : Option VPUBufferObject) (cb : VPUCommandBuffer)
    (cmds : List VPUCommand) (ctx : VPUDeviceContext) :
    (updateEach scratchBuffer cb cmds ctx).2.2.2.calls = ctx.calls := by
  induction cmds generalizing cb ctx with
  | nil => rfl
  | cons cmd rest ih =>
    have frame := (cmd.updateScratchBuffer cb scratchBuffer).1.update_calls
      (cmd.updateScratchBuffer cb scratchBuffer).2 ctx
    unfold updateEach
    simp only
    generalize (cmd.updateScratchBuffer cb scratchBuffer).1.update
      (cmd.updateScratchBuffer cb scratchBuffer).2 ctx = answer at frame
    obtain ⟨success, updated, next, later⟩ := answer
    cases success with
    | false => exact frame
    | true => exact (ih next later).trans frame

theorem updateCommands_calls (cb : VPUCommandBuffer) (cmds : List VPUCommand) (ctx : VPUDeviceContext) :
    (cb.updateCommands cmds ctx).2.2.2.calls = ctx.calls := by
  unfold updateCommands
  split
  · exact updateEach_calls _ _ cmds ctx
  · have frame := ctx.scratchCacheAcquire_calls cb.inferenceScratchSize
    split
    · rename_i next failed
      rw [failed] at frame
      exact frame
    · rename_i bo next acquired
      rw [acquired] at frame
      exact (updateEach_calls _ _ cmds next).trans frame

theorem allocateCommandBuffer_calls (ctx : VPUDeviceContext) (position : Nat) (cmds : List VPUCommand) :
    (allocateCommandBuffer ctx position cmds).2.2.calls = ctx.calls := by
  unfold allocateCommandBuffer
  split
  · rfl
  · simp only
    have frame := ctx.createUntrackedBufferObject_calls
      (getFwDataCacheAlign (commandListOffset + (commitSizes cmds + fenceSize)) + descriptorSizes cmds +
        ctx.hwInfo.extraDmaDescriptorSize) true
    split
    · rename_i next failed
      rw [failed] at frame
      exact frame
    · rename_i buffer next created
      rw [created] at frame
      split
      · exact frame
      · split <;> exact frame

end VPUCommandBuffer

namespace VPUJob

theorem updateBuffers_calls (commands : List VPUCommand) (ctx : VPUDeviceContext)
    (cmdBuffers : List VPUCommandBuffer) : (updateBuffers commands ctx cmdBuffers).2.2.2.calls = ctx.calls := by
  induction cmdBuffers generalizing commands ctx with
  | nil => rfl
  | cons cmdBuffer rest ih =>
    have frame := cmdBuffer.updateCommands_calls (cmdBuffer.commandsOf commands) ctx
    unfold updateBuffers
    generalize cmdBuffer.updateCommands (cmdBuffer.commandsOf commands) ctx = answer at frame
    obtain ⟨success, updated, cmds, next⟩ := answer
    cases success with
    | false => exact frame
    | true => exact (ih _ next).trans frame

theorem updateOnSubmit_calls (job : VPUJob) (ctx : VPUDeviceContext) :
    (job.updateOnSubmit ctx).2.2.calls = ctx.calls :=
  updateBuffers_calls job.commands ctx job.cmdBuffers

theorem createCommandBuffers_calls (ctx : VPUDeviceContext) (position : Nat)
    (shares : List (List VPUCommand)) (event : Option VPUBufferObject) :
    (createCommandBuffers ctx position shares event).2.2.2.calls = ctx.calls := by
  induction shares generalizing ctx position event with
  | nil => rfl
  | cons share others ih =>
    have frame := VPUCommandBuffer.allocateCommandBuffer_calls ctx position share
    unfold createCommandBuffers
    generalize VPUCommandBuffer.allocateCommandBuffer ctx position share = answer at frame
    obtain ⟨result, patched, next⟩ := answer
    cases result with
    | none => exact frame
    | some cb => exact (ih next _ _).trans frame

theorem closeCommands_calls (job : VPUJob) (ctx : VPUDeviceContext) :
    (job.closeCommands ctx).2.2.calls = ctx.calls := by
  unfold closeCommands
  split
  · rfl
  · split
    · rfl
    · exact createCommandBuffers_calls ctx 0 _ none

theorem stripInOrder_calls (job : VPUJob) (ctx : VPUDeviceContext) :
    (job.stripInOrder ctx).2.2.calls = ctx.calls := by
  unfold stripInOrder
  split
  · rfl
  · exact closeCommands_calls _ ctx

/-- The patches of `makeInOrder` keep the context. -/
theorem chain_ctx (job : VPUJob) (front : VPUCommandBuffer) (rest : List VPUCommandBuffer)
    (waitFor : Option VPUBufferObject) (ctx : VPUDeviceContext) : (chain job front rest waitFor ctx).ctx = ctx := by
  unfold chain
  split
  · rfl
  · simp only
    split <;> rfl

/-- The only request of `makeInOrder` is a wait for the first command buffer. -/
theorem makeInOrder_calls (job : VPUJob) (waitFor : Option VPUBufferObject) (ctx : VPUDeviceContext) :
    ∃ added, (job.makeInOrder waitFor ctx).ctx.calls = ctx.calls ++ added ∧ acceptedBuffers added = [] ∧
      ∀ call ∈ added, ∃ buffer completed, call = .wait buffer completed := by
  unfold makeInOrder
  split
  · exact ⟨[], (List.append_nil _).symm, rfl, nofun⟩
  · rename_i front rest _
    split
    · rcases front.waitForCompletion_spec ctx with ⟨next, failed, calls⟩ | ⟨status, next, succeeded, calls⟩
      · rw [failed]
        exact ⟨_, calls, rfl, fun call member => ⟨_, _, List.mem_singleton.mp member⟩⟩
      · rw [succeeded]
        simp only [chain_ctx]
        exact ⟨_, calls, rfl, fun call member => ⟨_, _, List.mem_singleton.mp member⟩⟩
    · exact ⟨[], by rw [chain_ctx, List.append_nil], rfl, nofun⟩

end VPUJob

namespace VPUDeviceQueueManaged

/-- Before the kernel is called for a submission it is at most asked for one wait. -/
theorem prepare_calls (queue : VPUDeviceQueueManaged) (job : VPUJob) (ctx : VPUDeviceContext) :
    ∃ added, (queue.prepare job ctx).ctx.calls = ctx.calls ++ added ∧ acceptedBuffers added = [] ∧
      ∀ call ∈ added, ∃ buffer completed, call = .wait buffer completed := by
  unfold prepare
  split
  · exact job.makeInOrder_calls queue.lastWaitBo ctx
  · split
    · exact ⟨[], by rw [List.append_nil]; exact job.stripInOrder_calls ctx, rfl, nofun⟩
    · exact ⟨[], (List.append_nil _).symm, rfl, nofun⟩

end VPUDeviceQueueManaged

end NpuDriver
