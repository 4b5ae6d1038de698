import NpuDriver.Proof.DeviceFrame
import NpuDriver.Proof.FillPaths
import NpuDriver.Proof.SubmissionTracking
import NpuDriver.Proof.JobClosing
import NpuDriver.LevelZero.ImmediateCommandList

/-! One append on an immediate list: the wait in front of its commands, and their submission as a job of their own. -/

namespace NpuDriver

open ZeResult VPUDeviceContext

theorem VPUJob.waitBuffers_ctx (ctx : VPUDeviceContext) (cmdBuffers : List VPUCommandBuffer) :
    ∃ calls, (waitBuffers ctx cmdBuffers).2.2 = { ctx with calls := calls } := by
  induction cmdBuffers generalizing ctx with
  | nil => exact ⟨ctx.calls, rfl⟩
  | cons cmdBuffer rest ih =>
    have waited : ∃ calls, (cmdBuffer.waitForCompletion ctx).2.2 = { ctx with calls := calls } := by
      rw [VPUCommandBuffer.waitForCompletion, VPUCommandBuffer.wait]
      cases ctx.drvApi.wait ctx.calls.length cmdBuffer.buffer.handle
      · exact ⟨_, rfl⟩
      · exact ⟨_, rfl⟩
    rw [waitBuffers]
    generalize cmdBuffer.waitForCompletion ctx = answer at waited
    obtain ⟨success, released, next⟩ := answer
    obtain ⟨calls, rfl⟩ := waited
    cases success with
    | false => exact ⟨calls, rfl⟩
    | true =>
      obtain ⟨more, later⟩ := ih { ctx with calls := calls }
      exact ⟨more, later⟩

namespace Driver

/-- What waits can do: requests are made, and the command buffers of jobs are released. -/
structure Settles (before after : Driver) : Prop where
  ctx : ∃ calls scans, after.ctx = { before.ctx with calls := calls, scans := scans }
  jobs : ∀ name, ∃ cmdBuffers, after.jobs name = { before.jobs name with cmdBuffers := cmdBuffers }

theorem Settles.refl (driver : Driver) : driver.Settles driver :=
  ⟨⟨_, _, rfl⟩, fun _ => ⟨_, rfl⟩⟩

theorem Settles.trans {first second third : Driver} (left : first.Settles second) (right : second.Settles third) :
    first.Settles third := by
  constructor
  · obtain ⟨calls, scans, same⟩ := left.ctx
    obtain ⟨more, others, later⟩ := right.ctx
    exact ⟨more, others, by rw [later, same]⟩
  · intro name
    obtain ⟨cmdBuffers, same⟩ := left.jobs name
    obtain ⟨others, later⟩ := right.jobs name
    exact ⟨others, by rw [later, same]⟩

theorem waitEach_settles (driver : Driver) (names : List Nat) : driver.Settles (driver.waitEach names).2 := by
  induction names generalizing driver with
  | nil => exact Settles.refl driver
  | cons name rest ih =>
    obtain ⟨calls, waited⟩ := VPUJob.waitBuffers_ctx driver.ctx (driver.jobs name).cmdBuffers
    have one : driver.Settles
        { driver.setJob name ((driver.jobs name).waitForCompletion driver.ctx).2.1 with
          ctx := ((driver.jobs name).waitForCompletion driver.ctx).2.2 } := by
      constructor
      · exact ⟨calls, driver.ctx.scans, waited⟩
      · intro other
        by_cases own : other = name
        · rw [own]
          exact ⟨_, Function.update_self ..⟩
        · exact ⟨_, Function.update_of_ne own ..⟩
    rw [waitEach]
    generalize (driver.jobs name).waitForCompletion driver.ctx = answer at one
    obtain ⟨success, job, ctx⟩ := answer
    cases success with
    | false => exact one
    | true => exact one.trans (ih _)

theorem putBackPreemptionBuffer_settles (driver : Driver) (handle : Nat) :
    driver.Settles (driver.putBackPreemptionBuffer handle) := by
  have counted : ∀ queues scans, driver.Settles ⟨{ driver.ctx with scans := scans }, driver.jobs, queues⟩ :=
    fun _ _ => ⟨⟨_, _, rfl⟩, fun _ => ⟨_, rfl⟩⟩
  rw [putBackPreemptionBuffer]
  simp only
  split
  · exact Settles.refl driver
  · split
    · exact Settles.refl driver
    · split
      · exact counted _ _
      · exact counted _ _

theorem waitForJobs_settles (driver : Driver) (handle : Nat) (names : List Nat) :
    driver.Settles (driver.waitForJobs handle names).2 := by
  have waited := driver.waitEach_settles names
  rw [waitForJobs]
  generalize driver.waitEach names = answer at waited
  obtain ⟨success, next⟩ := answer
  cases success with
  | false => exact waited
  | true => exact waited.trans (next.putBackPreemptionBuffer_settles handle)

theorem fenceWaitForJobs_settles (driver : Driver) (handle : Nat) (fence : Fence) :
    driver.Settles (driver.fenceWaitForJobs handle fence).2.2 := by
  rw [fenceWaitForJobs]
  split
  · exact Settles.refl driver
  · have waited := driver.waitForJobs_settles handle fence.trackedJobs
    generalize driver.waitForJobs handle fence.trackedJobs = answer at waited
    split
    · exact waited
    · exact waited

theorem waitFences_settles (driver : Driver) (handle : Nat) (fences : List (Nat × Fence)) :
    driver.Settles (driver.waitFences handle fences).2.2 := by
  induction fences generalizing driver with
  | nil => exact Settles.refl driver
  | cons entry rest ih =>
    have waited := driver.fenceWaitForJobs_settles handle entry.2
    rw [waitFences]
    generalize driver.fenceWaitForJobs handle entry.2 = answer at waited
    split
    · exact waited.trans (ih _)
    · exact waited

theorem Settles.setQueue {before after : Driver} (settles : before.Settles after) (handle : Nat)
    (queue : CommandQueue) : before.Settles (after.setQueue handle queue) :=
  ⟨settles.ctx, settles.jobs⟩

theorem synchronize_settles (driver : Driver) (handle : Nat) : driver.Settles (driver.synchronize handle).2 := by
  rw [synchronize]
  simp only
  split
  · exact Settles.refl driver
  · have fenced := driver.waitFences_settles handle (driver.queues handle).fences
    generalize driver.waitFences handle (driver.queues handle).fences = answer at fenced
    split
    · rename_i fences next
      have waited := (fenced.setQueue handle { next.queues handle with fences := fences }).trans
        ((next.setFence handle fences).waitForJobs_settles handle ((next.setFence handle fences).queues handle).trackedJobs)
      generalize (next.setFence handle fences).waitForJobs handle
        ((next.setFence handle fences).queues handle).trackedJobs = last at waited
      split
      · exact waited.setQueue ..
      · exact waited
    · exact fenced.setQueue ..

end Driver

/-! The submission of one closed job that is in no in-order chain. -/

theorem VPUJob.makeInOrder_closed (job : VPUJob) (waitFor : Option VPUBufferObject) (ctx : VPUDeviceContext) :
    (job.makeInOrder waitFor ctx).job.closed = job.closed := by
  have chained : ∀ front rest awaited next, (chain job front rest awaited next).job.closed = job.closed := by
    intro front rest awaited next
    obtain ⟨cmdBuffers, inOrder, result, -⟩ := chain_spec job front rest awaited next
    rw [result]
  rcases job.makeInOrder_cases waitFor ctx with ⟨-, refused⟩ | ⟨front, rest, -, waited⟩
  · rw [refused]
  · rcases waited with ⟨-, next, failed, -⟩ | ⟨-, status, next, own, -⟩ | ⟨-, other⟩
    · rw [failed]
    · rw [own]
      exact chained ..
    · rw [other]
      exact chained ..

theorem executeJob_closed (queue : VPUDeviceQueueManaged) (preemptionBuffer : Option VPUBufferObject) {job : VPUJob}
    (ctx : VPUDeviceContext) (unchained : job.hasInOrderWorkload = false) :
    (executeJob queue preemptionBuffer job ctx).job.closed = job.closed := by
  have handed : (handedJob queue preemptionBuffer job ctx).job.closed = job.closed := by
    rw [handedJob, VPUDeviceQueueManaged.prepare]
    split
    · exact VPUJob.makeInOrder_closed ..
    · have still : (updatedJob preemptionBuffer job ctx).hasInOrderWorkload = false := unchained
      rw [still, if_neg Bool.false_ne_true]
      rfl
  rcases executeJob_spec queue preemptionBuffer job ctx with
    ⟨-, -, -, failed, -⟩ | ⟨-, -, -, -, failed, -⟩ | ⟨-, -, -, cmdBuffers, added, result, -⟩
  · rw [failed]
    rfl
  · rw [failed]
    exact handed
  · rw [result]
    exact handed

namespace Driver

theorem acquirePreemptionBuffer_fixed (driver : Driver) (handle : Nat) :
    (driver.acquirePreemptionBuffer handle).ctx.fixed = driver.ctx.fixed := by
  rw [acquirePreemptionBuffer]
  simp only
  split
  · split
    · rfl
    · exact driver.ctx.preemptionCacheAcquire_fixed
  · rfl

theorem Settles.fixed {before after : Driver} (settles : before.Settles after) :
    after.ctx.fixed = before.ctx.fixed := by
  obtain ⟨calls, scans, same⟩ := settles.ctx
  rw [same]
  rfl

theorem submitLists_fixed (driver : Driver) (handle : Nat) (lists : List (Option Nat)) :
    (driver.submitLists handle lists).2.2.ctx.fixed = driver.ctx.fixed := by
  induction lists generalizing driver with
  | nil => rfl
  | cons list rest ih =>
    cases list with
    | none => rfl
    | some name =>
      have round : (driver.submitRound handle name).2.ctx.fixed = driver.ctx.fixed :=
        executeJob_fixed (driver.queues handle).vpuQueue (driver.queues handle).preemptionBuffer (driver.jobs name)
          driver.ctx
      rw [submitLists_cons]
      split
      · exact ih driver
      · split
        · exact (ih _).trans round
        · exact round

theorem executeCommandLists_fixed (driver : Driver) (handle : Nat) (lists : Option (List (Option Nat))) :
    (driver.executeCommandLists handle lists none).2.ctx.fixed = driver.ctx.fixed := by
  cases lists with
  | none => rfl
  | some lists =>
    have submitted := ((driver.acquirePreemptionBuffer handle).submitLists_fixed handle lists).trans
      (driver.acquirePreemptionBuffer_fixed handle)
    rw [executeCommandLists]
    split
    · rfl
    · split
      · rfl
      · generalize (driver.acquirePreemptionBuffer handle).submitLists handle lists = answer at submitted
        split
        · simp only [trackJobs]
          split
          · exact (synchronize_settles _ handle).fixed.trans submitted
          · exact submitted
        · exact submitted

/-- What the submission of one closed job leaves behind. -/
structure SubmittedOwn (before : Driver) (name : Nat) (outcome : ZeResult × Driver) : Prop where
  closed : (outcome.2.jobs name).closed = true
  accepted : outcome.1 = ZE_RESULT_SUCCESS → ∃ added,
    outcome.2.ctx.calls = before.ctx.calls ++ added ∧ acceptedBuffers added = (before.jobs name).buffers

/-- Waits afterwards change nothing of it, as long as they succeed when the submission has. -/
theorem SubmittedOwn.settled {before next : Driver} {name : Nat} {result answer : ZeResult} {last : Driver}
    {waits : List DriverCall} (submitted : before.SubmittedOwn name (result, next)) (settles : next.Settles last)
    (waited : next.Waits last waits) (kept : answer = ZE_RESULT_SUCCESS → result = ZE_RESULT_SUCCESS) :
    before.SubmittedOwn name (answer, last) := by
  constructor
  · obtain ⟨cmdBuffers, same⟩ := settles.jobs name
    rw [show last.jobs name = _ from same]
    exact submitted.closed
  · intro success
    obtain ⟨added, calls, accepted⟩ := submitted.accepted (kept success)
    refine ⟨added ++ waits, ?_, ?_⟩
    · rw [← List.append_assoc, ← calls]
      exact waited.calls
    · rw [acceptedBuffers_append, waited.accepted, List.append_nil, accepted]

theorem submitLists_own (driver : Driver) (handle : Nat) {name : Nat} (closed : (driver.jobs name).closed = true)
    (unchained : (driver.jobs name).hasInOrderWorkload = false)
    (whole : (driver.jobs name).commands = [] → (driver.jobs name).cmdBuffers = []) :
    driver.SubmittedOwn name
      ((driver.submitLists handle [some name]).1, (driver.submitLists handle [some name]).2.2) := by
  rw [submitLists_cons]
  split
  · rename_i empty
    refine ⟨closed, fun _ => ⟨[], (List.append_nil _).symm, ?_⟩⟩
    rw [VPUJob.buffers, whole (List.eq_nil_of_length_eq_zero empty)]
    rfl
  · let queue := driver.queues handle
    let executed := executeJob queue.vpuQueue queue.preemptionBuffer (driver.jobs name) driver.ctx
    have round : driver.SubmittedOwn name (driver.submitRound handle name) := by
      obtain ⟨added, calls, -, all⟩ := executeJob_requests queue.vpuQueue queue.preemptionBuffer (driver.jobs name)
        driver.ctx
      have own : (driver.submitRound handle name).2.jobs name = executed.job := Function.update_self ..
      constructor
      · rw [own]
        exact (executeJob_closed queue.vpuQueue queue.preemptionBuffer driver.ctx unchained).trans closed
      · intro success
        refine ⟨added, calls, (all success).trans ?_⟩
        exact executeJob_buffers queue.vpuQueue queue.preemptionBuffer (driver.jobs name) driver.ctx
          fun _ => .inr unchained
    split
    · rename_i success
      exact ⟨round.closed, fun _ => round.accepted success⟩
    · exact round

/-- A closed job is submitted as a whole, or the submission fails; it stays closed. -/
theorem executeCommandLists_own (driver : Driver) (handle : Nat) {name : Nat}
    (closed : (driver.jobs name).closed = true) (unchained : (driver.jobs name).hasInOrderWorkload = false)
    (whole : (driver.jobs name).commands = [] → (driver.jobs name).cmdBuffers = []) :
    driver.SubmittedOwn name (driver.executeCommandLists handle (some [some name]) none) := by
  obtain ⟨calls, jobs, -⟩ := driver.acquirePreemptionBuffer_spec handle
  have round := (driver.acquirePreemptionBuffer handle).submitLists_own handle (jobs.symm ▸ closed)
    (jobs.symm ▸ unchained) (jobs.symm ▸ whole)
  have checked : driver.checkLists [some name] = ZE_RESULT_SUCCESS := by
    rw [checkLists, closed]
    rfl
  have submitted : driver.SubmittedOwn name
      (((driver.acquirePreemptionBuffer handle).submitLists handle [some name]).1,
        ((driver.acquirePreemptionBuffer handle).submitLists handle [some name]).2.2) := by
    constructor
    · exact round.closed
    · rw [← calls, ← jobs]
      exact round.accepted
  rw [executeCommandLists, if_neg (List.cons_ne_nil _ _), checked, if_neg (not_not.mpr rfl)]
  generalize (driver.acquirePreemptionBuffer handle).submitLists handle [some name] = answer at submitted
  split
  · rename_i names next
    have tracked : driver.SubmittedOwn name (ZE_RESULT_SUCCESS,
        next.setQueue handle { next.queues handle with trackedJobs := (next.queues handle).trackedJobs ++ names }) :=
      ⟨submitted.closed, submitted.accepted⟩
    simp only [trackJobs]
    split
    · obtain ⟨waits, waited, -⟩ := synchronize_waits (next.setQueue handle
        { next.queues handle with trackedJobs := (next.queues handle).trackedJobs ++ names }) handle
      exact tracked.settled (synchronize_settles _ handle) waited fun _ => rfl
    · exact tracked
  · exact submitted

end Driver

/-- A job that is closed for the first time is in no in-order chain, and without commands it has no command buffer. -/
theorem VPUJob.closeCommands_new (commands : List VPUCommand) (ctx : VPUDeviceContext) :
    let closing := VPUJob.closeCommands { VPUJob.empty with commands := commands } ctx
    closing.2.1.hasInOrderWorkload = false ∧ (closing.2.1.commands = [] → closing.2.1.cmdBuffers = []) := by
  intro closing
  have result : closing = _ := @closeCommands_clean { VPUJob.empty with commands := commands } rfl rfl ctx
  have readdressed := createCommandBuffers_readdressed ctx 0 (scheduleAll commands) none
  rw [scheduleAll_flatten] at readdressed
  refine ⟨by rw [result]; rfl, fun none => ?_⟩
  have nothing : commands = [] := by
    rw [result] at none
    simp only at none
    rw [none] at readdressed
    exact List.forall₂_nil_right_iff.mp readdressed
  rw [result, nothing]
  rfl

namespace ImmediateCommandList

/-- A job that was closed over commands. -/
structure Submission where
  ctx : VPUDeviceContext
  commands : List VPUCommand
  job : VPUJob
  closedOver : VPUJob.ClosedOver ctx commands job

/-- From one state to the other exactly these commands were submitted, once and in this order. -/
def Submits (before after : ImmediateCommandList) (commands : List VPUCommand) : Prop :=
  ∃ submissions : List Submission, ∃ added, submissions.flatMap Submission.commands = commands ∧
    after.ctx.calls = before.ctx.calls ++ added ∧
    acceptedBuffers added = submissions.flatMap fun submission => submission.job.buffers

theorem Submits.nothing {before after : ImmediateCommandList} {added : List DriverCall}
    (calls : after.ctx.calls = before.ctx.calls ++ added) (unasked : acceptedBuffers added = []) :
    before.Submits after [] :=
  ⟨[], added, rfl, calls, unasked⟩

theorem Submits.trans {first second third : ImmediateCommandList} {front back : List VPUCommand}
    (one : first.Submits second front) (two : second.Submits third back) : first.Submits third (front ++ back) := by
  obtain ⟨submissions, added, commands, calls, accepted⟩ := one
  obtain ⟨others, more, rest, later, acceptedLater⟩ := two
  refine ⟨submissions ++ others, added ++ more, ?_, ?_, ?_⟩
  · rw [List.flatMap_append, commands, rest]
  · rw [later, calls, List.append_assoc]
  · rw [acceptedBuffers_append, accepted, acceptedLater, List.flatMap_append]

/-- Nothing is left that a later append would submit, and the next check finds or makes an open job. -/
def Idle (list : ImmediateCommandList) : Prop := list.job.closed = true ∨ list.job = .empty

/-- No wait for the queue and no close has failed. -/
def Harmless (answers : List (ImmediateCall × Bool)) : Prop :=
  ∀ answer ∈ answers, answer.2 = false → answer.1 = .execute

instance (answers : List (ImmediateCall × Bool)) : Decidable (Harmless answers) :=
  inferInstanceAs (Decidable (∀ answer ∈ answers, answer.2 = false → answer.1 = .execute))

/-- An outcome against the effects of a regular append, for a list that was ready for it. -/
structure Refinement (ready : Prop) (effects : List Effect) (before : ImmediateCommandList)
    (answers : List (ImmediateCall × Bool)) (outcome : ZeResult × ImmediateCommandList) : Prop where
  asked : outcome.2.answers = before.answers ++ answers
  fixed : outcome.2.ctx.fixed = before.ctx.fixed
  idle : ready → Harmless answers → outcome.2.Idle
  submitted : ready → Harmless answers → outcome.1 = ZE_RESULT_SUCCESS →
    (∀ effect ∈ effects, effect.Passes) ∧ before.Submits outcome.2 (Effect.commandsOf effects)
  accepted : ready → Harmless answers → (∀ effect ∈ effects, effect.Passes) → outcome.1 ≠ ZE_RESULT_SUCCESS →
    (.execute, false) ∈ answers

def Refines (ready : Prop) (effects : List Effect) (before : ImmediateCommandList)
    (outcome : ZeResult × ImmediateCommandList) : Prop :=
  ∃ answers, Refinement ready effects before answers outcome

/-- Two operations after each other, when the first one makes the list ready for the second. -/
theorem Refinement.andThen {ready : Prop} {following : ImmediateCommandList → Prop} {first second : ImmediateAppend}
    {front back : List Effect} {before : ImmediateCommandList} {answers : List (ImmediateCall × Bool)}
    (one : Refinement ready front before answers (first before))
    (leads : ready → Harmless answers → ∀ next, first before = (ZE_RESULT_SUCCESS, next) → following next)
    (two : ∀ next, first before = (ZE_RESULT_SUCCESS, next) → Refines (following next) back next (second next)) :
    Refines ready (front ++ back) before (first.andThen second before) := by
  cases result : first before with
  | mk answer next =>
    rw [result] at one
    by_cases success : answer = ZE_RESULT_SUCCESS
    · subst success
      have goes_on : first.andThen second before = second next := by rw [ImmediateAppend.andThen, result]
      rw [goes_on]
      obtain ⟨more, later⟩ := two next result
      have split : Harmless (answers ++ more) → Harmless answers ∧ Harmless more := fun harmless =>
        ⟨fun answer member => harmless answer (List.mem_append_left _ member),
          fun answer member => harmless answer (List.mem_append_right _ member)⟩
      refine ⟨answers ++ more, ?_, ?_, ?_, ?_, ?_⟩
      · rw [later.asked, show next.answers = _ from one.asked, List.append_assoc]
      · exact later.fixed.trans one.fixed
      · intro prepared harmless
        exact later.idle (leads prepared (split harmless).1 next result) (split harmless).2
      · intro prepared harmless finished
        obtain ⟨passes, submits⟩ := one.submitted prepared (split harmless).1 rfl
        obtain ⟨others, more_submits⟩ :=
          later.submitted (leads prepared (split harmless).1 next result) (split harmless).2 finished
        constructor
        · intro effect member
          exact (List.mem_append.mp member).elim (passes effect) (others effect)
        · rw [Effect.commandsOf_append]
          exact submits.trans more_submits
      · intro prepared harmless passes failed
        apply List.mem_append_right
        apply later.accepted (leads prepared (split harmless).1 next result) (split harmless).2 _ failed
        exact fun effect member => passes effect (List.mem_append_right _ member)
    · have stopped : first.andThen second before = (answer, next) := by
        rw [ImmediateAppend.andThen, result]
        split
        · rename_i same
          exact absurd (congrArg Prod.fst same) success
        · rename_i same
          exact same.symm
      rw [stopped]
      refine ⟨answers, one.asked, one.fixed, one.idle, ?_, ?_⟩
      · intro _ _ finished
        exact absurd finished success
      · intro prepared harmless passes failed
        exact one.accepted prepared harmless (fun effect member => passes effect (List.mem_append_left _ member)) failed

/-- Effects that record the same and succeed together. -/
structure Alike (effects others : List Effect) : Prop where
  commands : Effect.commandsOf effects = Effect.commandsOf others
  passes : (∀ effect ∈ effects, effect.Passes) ↔ ∀ effect ∈ others, effect.Passes

theorem Refines.alike {ready : Prop} {effects others : List Effect} {before : ImmediateCommandList}
    {outcome : ZeResult × ImmediateCommandList} (refines : Refines ready effects before outcome)
    (alike : Alike effects others) : Refines ready others before outcome := by
  obtain ⟨answers, refines⟩ := refines
  refine ⟨answers, refines.asked, refines.fixed, refines.idle, ?_, ?_⟩
  · rw [← alike.commands, ← alike.passes]
    exact refines.submitted
  · rw [← alike.passes]
    exact refines.accepted

/-- What a refinement says about the state before it. -/
structure Stands (before next : ImmediateCommandList) : Prop where
  answers : next.answers = before.answers
  calls : next.ctx.calls = before.ctx.calls
  fixed : next.ctx.fixed = before.ctx.fixed
  job : next.job = before.job

theorem Refines.from {ready : Prop} {effects : List Effect} {before next : ImmediateCommandList}
    {outcome : ZeResult × ImmediateCommandList} (stands : before.Stands next)
    (refines : Refines ready effects next outcome) : Refines ready effects before outcome := by
  obtain ⟨answers, refines⟩ := refines
  refine ⟨answers, ?_, refines.fixed.trans stands.fixed, refines.idle, ?_, refines.accepted⟩
  · rw [refines.asked, stands.answers]
  · intro prepared harmless finished
    rw [Submits, ← stands.calls]
    exact refines.submitted prepared harmless finished

/-- An operation that is refused as the regular one is. -/
theorem refines_fail {ready : Prop} {effects : List Effect} {before next : ImmediateCommandList} {error : ZeResult}
    (stands : before.Stands next) (idle : ready → before.Idle) (failed : error ≠ ZE_RESULT_SUCCESS)
    (refused : ¬ ∀ effect ∈ effects, effect.Passes) : Refines ready effects before (error, next) := by
  refine ⟨[], ?_, stands.fixed, ?_, ?_, ?_⟩
  · rw [List.append_nil]
    exact stands.answers
  · intro prepared _
    rw [Idle, show (error, next).2.job = _ from stands.job]
    exact idle prepared
  · exact fun _ _ finished => absurd finished failed
  · exact fun _ _ passes => absurd passes refused

theorem Stands.refl (list : ImmediateCommandList) : list.Stands list := ⟨rfl, rfl, rfl, rfl⟩

/-- A wait keeps an idle list idle. -/
theorem synchronize_idle (list : ImmediateCommandList) (idle : list.Idle) : list.synchronize.2.Idle := by
  obtain ⟨added, waits, -⟩ := list.driver.synchronize_waits list.pCommandQueue
  obtain ⟨cmdBuffers, kept⟩ := (list.driver.synchronize_settles list.pCommandQueue).jobs list.vpuJob
  have buffers := waits.buffers list.vpuJob
  rcases idle with closed | empty
  · exact .inl ((congrArg VPUJob.closed kept).trans closed)
  · rw [show list.driver.jobs list.vpuJob = .empty from empty] at kept buffers
    have none : cmdBuffers = [] := by
      rw [kept] at buffers
      exact List.map_eq_nil_iff.mp buffers
    rw [none] at kept
    exact .inr kept

/-- The wait in front of an append makes the list ready for one. -/
theorem check_refines (list : ImmediateCommandList) :
    let checked := list.checkCommandAppendCondition
    Refinement list.Idle [.check] list [(.synchronize, checked.1 = ZE_RESULT_SUCCESS)] checked ∧
      (∃ calls scans, checked.2.ctx = { list.ctx with calls := calls, scans := scans }) ∧
      (list.Idle → checked.2.job = .empty) := by
  intro checked
  obtain ⟨added, waits, -⟩ := list.driver.synchronize_waits list.pCommandQueue
  have settles := list.driver.synchronize_settles list.pCommandQueue
  obtain ⟨calls, scans, moved⟩ := settles.ctx
  let waited := list.synchronize.2
  have either : waited.job.closed = true ∧ checked.2 = waited.reset ∨
      waited.job.closed ≠ true ∧ checked.2 = waited := by
    by_cases closed : waited.job.closed = true
    · exact .inl ⟨closed, if_pos closed⟩
    · exact .inr ⟨closed, if_neg closed⟩
  have driver : checked.2.ctx = (list.driver.synchronize list.pCommandQueue).2.ctx := by
    rcases either with ⟨-, same⟩ | ⟨-, same⟩ <;> rw [same] <;> rfl
  have ready : list.Idle → checked.2.job = .empty := by
    intro idle
    rcases either with ⟨-, same⟩ | ⟨opened, same⟩
    · rw [same]
      exact Function.update_self ..
    · rw [same]
      exact (list.synchronize_idle idle).resolve_left opened
  refine ⟨⟨?_, ?_, fun idle _ => .inr (ready idle), ?_, ?_⟩, ⟨calls, scans, driver.trans moved⟩, ready⟩
  · rcases either with ⟨-, same⟩ | ⟨-, same⟩ <;> rw [same] <;> rfl
  · rw [driver, moved]
    rfl
  · intro _ _ _
    refine ⟨fun effect member => ?_, ?_⟩
    · rw [List.mem_singleton.mp member]
      trivial
    · exact Submits.nothing ((congrArg VPUDeviceContext.calls driver).trans waits.calls) waits.accepted
  · intro _ harmless _ failed
    have wrong := harmless _ List.mem_cons_self (decide_eq_false failed)
    cases wrong

/-- The end of an append: the commands are closed over and submitted. -/
theorem postAppend_refines (list : ImmediateCommandList) (commands : List VPUCommand) :
    ∃ answers, (postAppend list).2.answers = list.answers ++ answers ∧
      (postAppend list).2.ctx.fixed = list.ctx.fixed ∧
      (list.job = { VPUJob.empty with commands := commands } → Harmless answers → (postAppend list).2.Idle ∧
        ((postAppend list).1 = ZE_RESULT_SUCCESS → list.Submits (postAppend list).2 commands) ∧
        ((postAppend list).1 ≠ ZE_RESULT_SUCCESS → (.execute, false) ∈ answers)) := by
  let closing := list.job.closeCommands list.ctx
  let closed : ImmediateCommandList :=
    { list with driver := { list.driver.setJob list.vpuJob closing.2.1 with ctx := closing.2.2 } }.noted .close closing.1
  have closed_fixed : closed.ctx.fixed = list.ctx.fixed := list.job.closeCommands_fixed list.ctx
  cases success : closing.1 with
  | false =>
    have stopped : postAppend list = (ZE_RESULT_ERROR_INVALID_SYNCHRONIZATION_OBJECT, closed) := by
      have failed : closeCommands list = (ZE_RESULT_ERROR_INVALID_SYNCHRONIZATION_OBJECT, closed) :=
        Prod.ext (if_neg fun closed => by cases success.symm.trans closed) rfl
      rw [postAppend, ImmediateAppend.andThen, failed]
    rw [stopped]
    refine ⟨[(.close, false)], ?_, closed_fixed, fun _ harmless => ?_⟩
    · rw [← success]
      rfl
    · cases harmless _ List.mem_cons_self rfl
  | true =>
    let executing := closed.driver.executeCommandLists list.pCommandQueue (some [some list.vpuJob]) none
    let executed : ImmediateCommandList :=
      { closed with driver := executing.2 }.noted .execute (executing.1 = ZE_RESULT_SUCCESS)
    have goes_on : postAppend list =
        if executing.1 = ZE_RESULT_SUCCESS then (ZE_RESULT_SUCCESS, executed.reset) else (executing.1, executed) := by
      have finished : closeCommands list = (ZE_RESULT_SUCCESS, closed) := Prod.ext (if_pos success) rfl
      have answer : executeCommandLists closed = (executing.1, executed) := rfl
      rw [postAppend, ImmediateAppend.andThen, finished]
      simp only [ImmediateAppend.andThen, answer]
      cases executing.1 <;> rfl
    have fixed : executed.ctx.fixed = list.ctx.fixed :=
      (closed.driver.executeCommandLists_fixed list.pCommandQueue _).trans closed_fixed
    have answers : executed.answers =
        list.answers ++ [(.close, true), (.execute, decide (executing.1 = ZE_RESULT_SUCCESS))] := by
      rw [← success]
      exact List.append_assoc ..
    refine ⟨[(.close, true), (.execute, decide (executing.1 = ZE_RESULT_SUCCESS))], ?_, ?_, ?_⟩
    · rw [goes_on]
      split
      · exact answers
      · exact answers
    · rw [goes_on]
      split
      · exact fixed
      · exact fixed
    · intro opened harmless
      have own : closed.driver.jobs list.vpuJob = closing.2.1 := Function.update_self ..
      have shape : closing = VPUJob.closeCommands { VPUJob.empty with commands := commands } list.ctx := by
        rw [← opened]
      have divided : VPUJob.ClosedOver list.ctx commands closing.2.1 := by
        rw [shape] at success ⊢
        exact VPUJob.closeCommands_closedOver rfl rfl success
      obtain ⟨unchained, whole⟩ := VPUJob.closeCommands_new commands list.ctx
      rw [← shape] at unchained whole
      have submitted := closed.driver.executeCommandLists_own list.pCommandQueue (own ▸ divided.closed) (own ▸ unchained)
        (own ▸ whole)
      rw [goes_on]
      by_cases success : executing.1 = ZE_RESULT_SUCCESS
      · rw [if_pos success]
        refine ⟨.inr (Function.update_self ..), fun _ => ?_, fun failed => absurd rfl failed⟩
        obtain ⟨added, calls, accepted⟩ := submitted.accepted success
        refine ⟨[⟨list.ctx, commands, closing.2.1, divided⟩], added, List.append_nil _, ?_, ?_⟩
        · exact calls.trans (congrArg (· ++ added) (list.job.closeCommands_calls list.ctx))
        · rw [accepted, own]
          exact (List.append_nil _).symm
      · rw [if_neg success]
        refine ⟨.inl submitted.closed, fun finished => absurd finished success, fun _ => ?_⟩
        rw [decide_eq_false success]
        exact List.mem_cons_of_mem _ List.mem_cons_self

end ImmediateCommandList

end NpuDriver
