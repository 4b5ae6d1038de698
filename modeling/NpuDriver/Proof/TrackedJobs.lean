import NpuDriver.Proof.JobExecution

/-! The command buffers of a job through updates, submissions and waits, and what a wait of a queue or a
fence does to the jobs that are tracked. -/

namespace NpuDriver

open Library ZeResult

/-- The buffers that the kernel is handed for a job. -/
def VPUJob.buffers (job : VPUJob) : List VPUBufferObject := job.cmdBuffers.map VPUCommandBuffer.buffer

theorem VPUCommandBuffer.updateCommands_buffer (cb : VPUCommandBuffer) (cmds : List VPUCommand)
    (ctx : VPUDeviceContext) : (cb.updateCommands cmds ctx).2.1.buffer = cb.buffer := by
  obtain ⟨success, scratchBuffer, updated, next, result, -⟩ := cb.updateCommands_plan cmds ctx
  rw [result]
  rfl

theorem VPUCommandBuffer.addPreemptionBuffer_buffer (cb : VPUCommandBuffer) (bo : Option VPUBufferObject) :
    (cb.addPreemptionBuffer bo).buffer = cb.buffer := by
  unfold addPreemptionBuffer
  split <;> rfl

namespace VPUJob

theorem updateBuffers_buffers (commands : List VPUCommand) (ctx : VPUDeviceContext)
    (cmdBuffers : List VPUCommandBuffer) :
    (updateBuffers commands ctx cmdBuffers).2.1.map VPUCommandBuffer.buffer =
      cmdBuffers.map VPUCommandBuffer.buffer := by
  induction cmdBuffers generalizing commands ctx with
  | nil => rfl
  | cons cmdBuffer rest ih =>
    have own := cmdBuffer.updateCommands_buffer (cmdBuffer.commandsOf commands) ctx
    rw [updateBuffers]
    generalize cmdBuffer.updateCommands (cmdBuffer.commandsOf commands) ctx = answer at own
    obtain ⟨success, updated, cmds, next⟩ := answer
    cases success with
    | false => exact congrArg (· :: _) own
    | true =>
      exact congrArg₂ List.cons own (ih (replaceFrom commands cmdBuffer.commandsBegin cmds) next)

theorem updatedJob_buffers (preemptionBuffer : Option VPUBufferObject) (job : VPUJob) (ctx : VPUDeviceContext) :
    (updatedJob preemptionBuffer job ctx).buffers = job.buffers := by
  have given : ∀ cmdBuffers : List VPUCommandBuffer,
      (cmdBuffers.map (·.addPreemptionBuffer preemptionBuffer)).map VPUCommandBuffer.buffer =
        cmdBuffers.map VPUCommandBuffer.buffer := by
    intro cmdBuffers
    rw [List.map_map]
    exact List.map_congr_left fun cmdBuffer _ => cmdBuffer.addPreemptionBuffer_buffer preemptionBuffer
  exact (given _).trans (updateBuffers_buffers job.commands ctx job.cmdBuffers)

theorem makeInOrder_buffers (job : VPUJob) (waitFor : Option VPUBufferObject) (ctx : VPUDeviceContext) :
    (job.makeInOrder waitFor ctx).job.buffers = job.buffers := by
  have patched : ∀ front rest awaited next, (chain job front rest awaited next).job.buffers =
      (front :: rest).map VPUCommandBuffer.buffer := by
    intro front rest awaited next
    obtain ⟨cmdBuffers, inOrder, result, extended, -⟩ := chain_spec job front rest awaited next
    rw [result]
    exact (pointwise_map_eq (fun _ _ patch => patch.buffer.symm) extended).symm
  rcases job.makeInOrder_cases waitFor ctx with ⟨-, refused⟩ | ⟨front, rest, split, waited⟩
  · rw [refused]
  · rcases waited with ⟨-, next, failed, -⟩ | ⟨-, status, next, own, -⟩ | ⟨-, other⟩
    · rw [failed]
    · rw [own, patched, buffers, split, List.map_cons, List.map_cons]
      exact congrArg (· :: _) (VPUCommandBuffer.release_frame { front with jobStatus := status }).1
    · rw [other, patched, buffers, split]

/-- A wait keeps the command buffers, and a successful one waits for all of them. -/
theorem waitForCompletion_spec (job : VPUJob) (ctx : VPUDeviceContext) :
    (job.waitForCompletion ctx).2.1.buffers = job.buffers ∧
      ∃ added, (job.waitForCompletion ctx).2.2.calls = ctx.calls ++ added ∧ acceptedBuffers added = [] ∧
        ((job.waitForCompletion ctx).1 = true → completedBuffers added = job.buffers) := by
  obtain ⟨added, calls, nothing, waited, all⟩ := waitBuffers_spec ctx job.cmdBuffers
  refine ⟨?_, added, calls, nothing, all⟩
  refine (pointwise_map_eq ?_ waited).symm
  rintro before after (rfl | ⟨-, status, rfl⟩)
  · rfl
  · exact (VPUCommandBuffer.release_frame { before with jobStatus := status }).1.symm

end VPUJob

namespace VPUDeviceQueueManaged

/-- Only a job that is taken out of an in-order chain gets new command buffers. -/
theorem prepare_buffers (queue : VPUDeviceQueueManaged) (job : VPUJob) (ctx : VPUDeviceContext)
    (kept : queue.isInOrder = true ∨ job.hasInOrderWorkload = false) :
    (queue.prepare job ctx).job.buffers = job.buffers := by
  rw [prepare]
  split
  · exact job.makeInOrder_buffers queue.lastWaitBo ctx
  · rename_i unordered
    rw [if_neg (by simpa using kept.resolve_left unordered)]

end VPUDeviceQueueManaged

/-- A submission keeps the command buffers of a job that is not taken out of an in-order chain. -/
theorem executeJob_buffers (queue : VPUDeviceQueueManaged) (preemptionBuffer : Option VPUBufferObject)
    (job : VPUJob) (ctx : VPUDeviceContext)
    (kept : (job.updateOnSubmit ctx).1 = true → queue.isInOrder = true ∨ job.hasInOrderWorkload = false) :
    (executeJob queue preemptionBuffer job ctx).job.buffers = job.buffers := by
  have updates := VPUJob.updatedJob_buffers preemptionBuffer job ctx
  have workload : (updatedJob preemptionBuffer job ctx).hasInOrderWorkload = job.hasInOrderWorkload := rfl
  have handed := fun updated => (queue.prepare_buffers (updatedJob preemptionBuffer job ctx)
    (job.updateOnSubmit ctx).2.2 (workload ▸ kept updated)).trans updates
  rcases executeJob_spec queue preemptionBuffer job ctx with
    ⟨-, -, -, failed, -⟩ | ⟨updated, -, -, -, failed, -⟩ | ⟨updated, -, -, cmdBuffers, added, result, patched, -⟩
  · rw [failed]
    exact VPUJob.updateBuffers_buffers job.commands ctx job.cmdBuffers
  · rw [failed]
    exact handed updated
  · rw [result]
    exact (pointwise_map_eq (fun _ _ patch => patch.buffer.symm) patched).symm.trans (handed updated)

/-- A submission is accepted for the first command buffers of the job, and for all of them when it
succeeds. -/
theorem executeJob_requests (queue : VPUDeviceQueueManaged) (preemptionBuffer : Option VPUBufferObject)
    (job : VPUJob) (ctx : VPUDeviceContext) :
    let executed := executeJob queue preemptionBuffer job ctx
    ∃ added, executed.ctx.calls = ctx.calls ++ added ∧ acceptedBuffers added <+: executed.job.buffers ∧
      (executed.result = ZE_RESULT_SUCCESS → acceptedBuffers added = executed.job.buffers) := by
  intro executed
  have updates := job.updateOnSubmit_calls ctx
  obtain ⟨waited, waits, unasked, -⟩ := queue.prepare_calls (updatedJob preemptionBuffer job ctx)
    (job.updateOnSubmit ctx).2.2
  rw [updates] at waits
  rcases executeJob_spec queue preemptionBuffer job ctx with
    ⟨-, failed, -, -, same⟩ | ⟨-, -, failed, -, -, same⟩ |
      ⟨-, -, -, cmdBuffers, added, result, patched, calls, -, -, front, all⟩
  · refine ⟨[], ?_, List.nil_prefix, fun success => absurd success failed⟩
    rw [List.append_nil]
    exact (congrArg VPUDeviceContext.calls same).trans updates
  · refine ⟨waited, (congrArg VPUDeviceContext.calls same).trans waits, ?_, fun success => absurd success failed⟩
    rw [unasked]
    exact List.nil_prefix
  · have own : executed.job.buffers =
        (handedJob queue preemptionBuffer job ctx).job.cmdBuffers.map VPUCommandBuffer.buffer := by
      rw [show executed.job = _ from result]
      exact (pointwise_map_eq (fun _ _ patch => patch.buffer.symm) patched).symm
    refine ⟨waited ++ added, ?_, ?_, fun success => ?_⟩
    · rw [← List.append_assoc, ← waits]
      exact calls
    · rw [acceptedBuffers_append, unasked, own]
      exact front
    · rw [acceptedBuffers_append, unasked, own]
      exact (all success).2

/-- The jobs tracked by the queue itself, or by one of its fences. -/
def CommandQueue.tracked (queue : CommandQueue) : Option Nat → List Nat
  | none => queue.trackedJobs
  | some key => ((queue.fences.lookup key).map Fence.trackedJobs).getD []

namespace Driver

def trackedJobs (driver : Driver) (handle : Nat) (fence : Option Nat) : List Nat :=
  (driver.queues handle).tracked fence

theorem setQueue_queues (driver : Driver) (handle : Nat) (queue : CommandQueue) (other : Nat) :
    (driver.setQueue handle queue).queues other = if other = handle then queue else driver.queues other :=
  Function.update_apply ..

/-- What waits do to the driver: nothing is submitted, and a job that is no longer tracked has been waited
for. -/
structure Waits (before after : Driver) (added : List DriverCall) : Prop where
  calls : after.ctx.calls = before.ctx.calls ++ added
  accepted : acceptedBuffers added = []
  buffers : ∀ name, (after.jobs name).buffers = (before.jobs name).buffers
  tracked : ∀ handle fence, ∀ name ∈ before.trackedJobs handle fence,
    name ∈ after.trackedJobs handle fence ∨ ∀ bo ∈ (before.jobs name).buffers, bo ∈ completedBuffers added
  distinct : ∀ handle, DistinctKeys (before.queues handle).fences → DistinctKeys (after.queues handle).fences

theorem Waits.refl (driver : Driver) : driver.Waits driver [] :=
  ⟨(List.append_nil _).symm, rfl, fun _ => rfl, fun _ _ _ member => .inl member, fun _ distinct => distinct⟩

theorem Waits.trans {first second third : Driver} {added more : List DriverCall} (left : first.Waits second added)
    (right : second.Waits third more) : first.Waits third (added ++ more) where
  calls := by rw [right.calls, left.calls, List.append_assoc]
  accepted := by rw [acceptedBuffers_append, left.accepted, right.accepted]; rfl
  buffers := fun name => (right.buffers name).trans (left.buffers name)
  distinct := fun handle distinct => right.distinct handle (left.distinct handle distinct)
  tracked := by
    intro handle fence name member
    rw [completedBuffers_append]
    rcases left.tracked handle fence name member with still | waited
    · rcases right.tracked handle fence name still with last | later
      · exact .inl last
      · rw [left.buffers name] at later
        exact .inr fun bo own => List.mem_append_right _ (later bo own)
    · exact .inr fun bo own => List.mem_append_left _ (waited bo own)

/-- All jobs have been waited for. -/
def AllWaited (driver : Driver) (names : List Nat) (added : List DriverCall) : Prop :=
  ∀ name ∈ names, ∀ bo ∈ (driver.jobs name).buffers, bo ∈ completedBuffers added

/-- One job of the store is replaced by one with the same buffers. -/
theorem setJob_buffers (driver : Driver) {name : Nat} {job : VPUJob} (same : job.buffers = (driver.jobs name).buffers)
    (other : Nat) : ((driver.setJob name job).jobs other).buffers = (driver.jobs other).buffers := by
  by_cases own : other = name
  · rw [own]
    have stored : (driver.setJob name job).jobs name = job := Function.update_self ..
    rw [stored, same]
  · have kept : (driver.setJob name job).jobs other = driver.jobs other := Function.update_of_ne own ..
    rw [kept]

theorem waitEach_waits (driver : Driver) (names : List Nat) :
    (driver.waitEach names).2.queues = driver.queues ∧
      ∃ added, driver.Waits (driver.waitEach names).2 added ∧
        ((driver.waitEach names).1 = true → driver.AllWaited names added) := by
  induction names generalizing driver with
  | nil => exact ⟨rfl, [], Waits.refl driver, fun _ _ member => absurd member List.not_mem_nil⟩
  | cons name rest ih =>
    obtain ⟨kept, added, calls, nothing, all⟩ := (driver.jobs name).waitForCompletion_spec driver.ctx
    rw [waitEach]
    generalize (driver.jobs name).waitForCompletion driver.ctx = answer at kept calls all
    obtain ⟨success, job, ctx⟩ := answer
    have first : driver.Waits { driver.setJob name job with ctx := ctx } added :=
      ⟨calls, nothing, driver.setJob_buffers kept, fun _ _ _ member => .inl member, fun _ distinct => distinct⟩
    cases success with
    | false => exact ⟨rfl, added, first, nofun⟩
    | true =>
      obtain ⟨queues, more, waits, waited⟩ := ih { driver.setJob name job with ctx := ctx }
      refine ⟨queues, added ++ more, first.trans waits, fun success => ?_⟩
      intro other member bo own
      rw [completedBuffers_append]
      rcases List.mem_cons.mp member with rfl | later
      · exact List.mem_append_left _ (by rw [all rfl]; exact own)
      · refine List.mem_append_right _ (waited success other later bo ?_)
        rwa [first.buffers other]

/-- The queues track the same jobs with the same fences. -/
def SameTracking (before after : Driver) : Prop :=
  ∀ handle, (after.queues handle).trackedJobs = (before.queues handle).trackedJobs ∧
    (after.queues handle).fences = (before.queues handle).fences

theorem SameTracking.trackedJobs {before after : Driver} (same : before.SameTracking after) (handle : Nat)
    (fence : Option Nat) : after.trackedJobs handle fence = before.trackedJobs handle fence := by
  rw [Driver.trackedJobs, Driver.trackedJobs]
  cases fence with
  | none => exact (same handle).1
  | some key => rw [CommandQueue.tracked, CommandQueue.tracked, (same handle).2]

theorem SameTracking.setQueue {driver : Driver} {queue : CommandQueue} {handle : Nat}
    (jobs : queue.trackedJobs = (driver.queues handle).trackedJobs)
    (fences : queue.fences = (driver.queues handle).fences) : driver.SameTracking (driver.setQueue handle queue) := by
  intro other
  rw [setQueue_queues]
  split
  · rename_i own
    rw [own]
    exact ⟨jobs, fences⟩
  · exact ⟨rfl, rfl⟩

theorem putBackPreemptionBuffer_spec (driver : Driver) (handle : Nat) :
    (driver.putBackPreemptionBuffer handle).ctx.calls = driver.ctx.calls ∧
      (driver.putBackPreemptionBuffer handle).jobs = driver.jobs ∧
      driver.SameTracking (driver.putBackPreemptionBuffer handle) := by
  rw [putBackPreemptionBuffer]
  simp only
  split
  · exact ⟨rfl, rfl, fun _ => ⟨rfl, rfl⟩⟩
  · split
    · exact ⟨rfl, rfl, fun _ => ⟨rfl, rfl⟩⟩
    · split
      · refine ⟨rfl, rfl, ?_⟩
        have kept : driver.SameTracking (driver.setQueue handle
            { driver.queues handle with preemptionBuffer := none }) := SameTracking.setQueue rfl rfl
        exact kept
      · exact ⟨rfl, rfl, fun _ => ⟨rfl, rfl⟩⟩

theorem waitForJobs_waits (driver : Driver) (handle : Nat) (names : List Nat) :
    driver.SameTracking (driver.waitForJobs handle names).2 ∧
      ∃ added, driver.Waits (driver.waitForJobs handle names).2 added ∧
        ((driver.waitForJobs handle names).1 = ZE_RESULT_SUCCESS → driver.AllWaited names added) := by
  obtain ⟨queues, added, waits, waited⟩ := driver.waitEach_waits names
  rw [waitForJobs]
  generalize driver.waitEach names = answer at queues waits waited
  obtain ⟨success, next⟩ := answer
  have tracking : driver.SameTracking next := fun other => by rw [show next.queues = driver.queues from queues]; exact ⟨rfl, rfl⟩
  cases success with
  | false => exact ⟨tracking, added, waits, nofun⟩
  | true =>
    obtain ⟨calls, jobs, same⟩ := next.putBackPreemptionBuffer_spec handle
    have both : driver.SameTracking (next.putBackPreemptionBuffer handle) := fun other =>
      ⟨(same other).1.trans (tracking other).1, (same other).2.trans (tracking other).2⟩
    refine ⟨both, added, ⟨calls.trans waits.calls, waits.accepted, ?_, ?_, ?_⟩, fun _ => waited rfl⟩
    · intro name
      simp only [jobs]
      exact waits.buffers name
    · intro other fence name member
      exact .inl (by rw [both.trackedJobs]; exact member)
    · intro other distinct
      simp only [(both other).2]
      exact distinct

/-- What a wait makes of one fence: nothing, or its jobs have been waited for. -/
def FenceWaited (driver : Driver) (added : List DriverCall) (before after : Fence) : Prop :=
  after = before ∨ after.trackedJobs = [] ∧ driver.AllWaited before.trackedJobs added

theorem fenceWaitForJobs_waits (driver : Driver) (handle : Nat) (fence : Fence) :
    driver.SameTracking (driver.fenceWaitForJobs handle fence).2.2 ∧
      ∃ added, driver.Waits (driver.fenceWaitForJobs handle fence).2.2 added ∧
        driver.FenceWaited added fence (driver.fenceWaitForJobs handle fence).2.1 ∧
        ((driver.fenceWaitForJobs handle fence).1 = ZE_RESULT_SUCCESS →
          (driver.fenceWaitForJobs handle fence).2.1.trackedJobs = []) := by
  rw [fenceWaitForJobs]
  split
  · rename_i empty
    exact ⟨fun _ => ⟨rfl, rfl⟩, [], Waits.refl driver, .inl rfl, fun _ => empty⟩
  · obtain ⟨same, added, waits, waited⟩ := driver.waitForJobs_waits handle fence.trackedJobs
    generalize driver.waitForJobs handle fence.trackedJobs = answer at same waits waited
    split
    · exact ⟨same, added, waits, .inr ⟨rfl, waited rfl⟩, fun _ => rfl⟩
    · rename_i error next failed
      exact ⟨same, added, waits, .inl rfl, fun success => absurd success failed⟩

theorem SameTracking.trans {first second third : Driver} (left : first.SameTracking second)
    (right : second.SameTracking third) : first.SameTracking third :=
  fun handle => ⟨(right handle).1.trans (left handle).1, (right handle).2.trans (left handle).2⟩

/-- The loop over the fences: each fence is left alone or its jobs have been waited for. -/
theorem waitFences_waits (driver : Driver) (handle : Nat) (fences : List (Nat × Fence)) :
    driver.SameTracking (driver.waitFences handle fences).2.2 ∧
      ∃ added, driver.Waits (driver.waitFences handle fences).2.2 added ∧
        List.Forall₂ (RelatedEntries (driver.FenceWaited added)) fences (driver.waitFences handle fences).2.1 ∧
        ((driver.waitFences handle fences).1 = ZE_RESULT_SUCCESS →
          ∀ entry ∈ (driver.waitFences handle fences).2.1, entry.2.trackedJobs = []) := by
  induction fences generalizing driver with
  | nil => exact ⟨fun _ => ⟨rfl, rfl⟩, [], Waits.refl driver, .nil, fun _ => nofun⟩
  | cons entry rest ih =>
    obtain ⟨key, fence⟩ := entry
    obtain ⟨same, added, waits, waited, empty⟩ := driver.fenceWaitForJobs_waits handle fence
    rw [waitFences]
    generalize driver.fenceWaitForJobs handle fence = answer at same waits waited empty
    split
    · rename_i changed next
      obtain ⟨later, more, waitsLater, related, cleared⟩ := ih next
      refine ⟨same.trans later, added ++ more, waits.trans waitsLater, .cons ⟨rfl, ?_⟩ (related.imp ?_), ?_⟩
      · refine waited.imp id fun ⟨emptied, all⟩ => ⟨emptied, fun name member bo own => ?_⟩
        rw [completedBuffers_append]
        exact List.mem_append_left _ (all name member bo own)
      · rintro before after ⟨known, kept⟩
        refine ⟨known, kept.imp id fun ⟨emptied, all⟩ => ⟨emptied, fun name member bo own => ?_⟩⟩
        rw [completedBuffers_append]
        rw [← waits.buffers name] at own
        exact List.mem_append_right _ (all name member bo own)
      · intro success other member
        rcases List.mem_cons.mp member with rfl | behind
        · exact empty rfl
        · exact cleared success other behind
    · rename_i error changed next failed
      exact ⟨same, added, waits, .cons ⟨rfl, waited⟩ (pointwise_refl (fun _ => ⟨rfl, .inl rfl⟩) rest),
        fun success => absurd success failed⟩

/-- A queue is replaced after waits: what it no longer tracks has been waited for. -/
theorem Waits.setQueue {driver next : Driver} {added : List DriverCall} (waits : driver.Waits next added)
    (same : driver.SameTracking next) {handle : Nat} {queue : CommandQueue}
    (tracked : ∀ fence, ∀ name ∈ driver.trackedJobs handle fence, name ∈ queue.tracked fence ∨
      ∀ bo ∈ (driver.jobs name).buffers, bo ∈ completedBuffers added)
    (distinct : DistinctKeys (driver.queues handle).fences → DistinctKeys queue.fences) :
    driver.Waits (next.setQueue handle queue) added where
  calls := waits.calls
  accepted := waits.accepted
  buffers := waits.buffers
  tracked := by
    intro other fence name member
    rw [Driver.trackedJobs, setQueue_queues]
    split
    · rename_i own
      exact tracked fence name (own ▸ member)
    · rw [← same.trackedJobs] at member
      exact .inl member
  distinct := by
    intro other before
    rw [setQueue_queues]
    split
    · rename_i own
      exact distinct (own ▸ before)
    · rw [(same other).2]
      exact before

/-- The fences of a queue are replaced by what a wait made of them. -/
theorem Waits.setFence {driver next : Driver} {added : List DriverCall} (waits : driver.Waits next added)
    (same : driver.SameTracking next) {handle : Nat} {fences : List (Nat × Fence)}
    (related : List.Forall₂ (RelatedEntries (driver.FenceWaited added)) (driver.queues handle).fences fences) :
    driver.Waits (next.setFence handle fences) added := by
  refine waits.setQueue same (fun fence name member => ?_) fun distinct => distinct.related related
  cases fence with
  | none =>
    rw [← same.trackedJobs] at member
    exact .inl member
  | some key =>
    rw [trackedJobs, CommandQueue.tracked] at member
    cases found : (driver.queues handle).fences.lookup key with
    | none => simp [found] at member
    | some fence =>
      obtain ⟨after, changed, waited⟩ := lookup_related related found
      simp only [found, Option.map_some, Option.getD_some] at member
      rcases waited with rfl | ⟨-, all⟩
      · exact .inl (by simpa [CommandQueue.tracked, changed] using member)
      · exact .inr (all name member)

/-- The queue forgets its jobs after all of them have been waited for. -/
theorem Waits.forget {driver next : Driver} {added : List DriverCall} (waits : driver.Waits next added)
    (same : driver.SameTracking next) {handle : Nat}
    (all : driver.AllWaited (driver.queues handle).trackedJobs added) :
    driver.Waits (next.setQueue handle { next.queues handle with trackedJobs := [] }) added := by
  refine waits.setQueue same (fun fence name member => ?_) fun distinct => (same handle).2.symm ▸ distinct
  cases fence with
  | none => exact .inr (all name member)
  | some key => exact .inl (by rwa [← same.trackedJobs] at member)

/-- `synchronize` only waits; when it succeeds, neither the queue nor a fence of it tracks a job. -/
theorem synchronize_waits (driver : Driver) (handle : Nat) :
    ∃ added, driver.Waits (driver.synchronize handle).2 added ∧
      ((driver.synchronize handle).1 = ZE_RESULT_SUCCESS →
        ∀ fence, (driver.synchronize handle).2.trackedJobs handle fence = []) := by
  rw [synchronize]
  simp only
  split
  · rename_i empty
    refine ⟨[], Waits.refl driver, fun _ fence => ?_⟩
    cases fence <;> simp [trackedJobs, CommandQueue.tracked, empty]
  · obtain ⟨same, added, waits, related, cleared⟩ := driver.waitFences_waits handle (driver.queues handle).fences
    generalize driver.waitFences handle (driver.queues handle).fences = answer at same waits related cleared
    split
    · rename_i fences next
      have fenced : driver.Waits (next.setFence handle fences) added := waits.setFence same related
      obtain ⟨later, more, waitsLater, all⟩ := (next.setFence handle fences).waitForJobs_waits handle
        ((next.setFence handle fences).queues handle).trackedJobs
      generalize (next.setFence handle fences).waitForJobs handle
        ((next.setFence handle fences).queues handle).trackedJobs = last at later waitsLater all
      split
      · rename_i waited
        refine ⟨added ++ more, fenced.trans (waitsLater.forget later (all rfl)), fun _ fence => ?_⟩
        rw [trackedJobs, setQueue_queues, if_pos rfl]
        cases fence with
        | none => rfl
        | some key =>
          have kept : (waited.queues handle).fences = fences := by
            rw [(later handle).2, setFence, setQueue_queues, if_pos rfl]
          simp only [CommandQueue.tracked, kept]
          cases found : fences.lookup key with
          | none => rfl
          | some fence =>
            obtain ⟨front, back, split, -⟩ := List.lookup_eq_some_iff.mp found
            exact cleared rfl (key, fence) (by simp [split])
      · rename_i error waited failed
        exact ⟨added ++ more, fenced.trans waitsLater, fun success => absurd success failed⟩
    · rename_i error fences next failed
      exact ⟨added, waits.setFence same related, fun success => absurd success failed⟩

theorem fenceSynchronize_waits (driver : Driver) (handle key : Nat) :
    ∃ added, driver.Waits (driver.fenceSynchronize handle key).2 added := by
  rw [fenceSynchronize]
  cases found : (driver.queues handle).fences.lookup key with
  | none => exact ⟨[], Waits.refl driver⟩
  | some fence =>
    simp only
    split
    · exact ⟨[], Waits.refl driver⟩
    · split
      · exact ⟨[], Waits.refl driver⟩
      · obtain ⟨same, added, waits, waited, -⟩ := driver.fenceWaitForJobs_waits handle fence
        generalize driver.fenceWaitForJobs handle fence = answer at same waits waited
        obtain ⟨result, changed, next⟩ := answer
        refine ⟨added, waits.setFence same ?_⟩
        rw [show (next.queues handle).fences = _ from (same handle).2]
        exact modifyEntry_related (fun _ => .inl rfl) found waited

end Driver

end NpuDriver
