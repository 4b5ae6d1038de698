import NpuDriver.Proof.InOrderFailures
import NpuDriver.Proof.TrackedJobs

/-! Command buffers that the kernel accepted and the lists of tracked jobs: every run of a driver in
which no job is accepted and then given up keeps each of them in the list that a wait goes through. -/

namespace NpuDriver

open Library ZeResult

/-- A command buffer that was accepted in a call of `executeCommandLists` and that no wait has reported as
inactive since: the queue and the fence of the call, and the job. -/
structure PendingBuffer where
  handle : Nat
  fence : Option Nat
  job : Nat
  buffer : VPUBufferObject
deriving DecidableEq

/-- What is still pending after some waits. -/
def complete (pending : List PendingBuffer) (calls : List DriverCall) : List PendingBuffer :=
  pending.filter fun entry => entry.buffer ∉ completedBuffers calls

/-- What is pending after the submission of a job, whose only wait comes before it is accepted. -/
def settle (handle : Nat) (fence : Option Nat) (job : Nat) (pending : List PendingBuffer)
    (calls : List DriverCall) : List PendingBuffer :=
  complete pending calls ++ (acceptedBuffers calls).map (PendingBuffer.mk handle fence job)

theorem mem_complete {pending : List PendingBuffer} {calls : List DriverCall} {entry : PendingBuffer} :
    entry ∈ complete pending calls ↔ entry ∈ pending ∧ entry.buffer ∉ completedBuffers calls := by
  simp [complete]

theorem VPUDeviceContext.preemptionCacheAcquire_calls (ctx : VPUDeviceContext) :
    ctx.preemptionCacheAcquire.2.calls = ctx.calls := by
  rw [preemptionCacheAcquire]
  split
  · rfl
  · simp only
    split
    · rfl
    · have frame := createUntrackedBufferObject_calls { ctx with scans := ctx.scans + 1 }
        ctx.hwInfo.fwPreemptBufSize false
      split <;> simp_all

/-- A job is submitted as a whole when its update and its fence patches succeed and the kernel accepts
each of its command buffers. -/
theorem executeJob_success_iff (queue : VPUDeviceQueueManaged) (preemptionBuffer : Option VPUBufferObject)
    (job : VPUJob) (ctx : VPUDeviceContext) :
    let handed := handedJob queue preemptionBuffer job ctx
    (executeJob queue preemptionBuffer job ctx).result = ZE_RESULT_SUCCESS ↔
      ((job.updateOnSubmit ctx).1 = true ∧ handed.success = true ∧ handed.job.cmdBuffers ≠ []) ∧
        AcceptsEach handed.ctx.drvApi.commandQueueSubmit handed.ctx.calls.length handed.job.cmdBuffers.length := by
  rw [executeJob, handedJob, updatedJob]
  generalize job.updateOnSubmit ctx = answer
  obtain ⟨updated, revised, next⟩ := answer
  cases updated with
  | false => simp
  | true =>
    simp only [VPUDeviceQueueManaged.submit]
    generalize queue.prepare (revised.addPreemptionBuffer preemptionBuffer) next = prepared
    have failed : ∀ errno : Int,
        (if errno = -EBADFD then ZE_RESULT_ERROR_DEVICE_LOST else ZE_RESULT_ERROR_UNKNOWN) ≠ ZE_RESULT_SUCCESS := by
      intro errno
      split <;> simp
    cases success : prepared.success with
    | false => simpa [success] using failed _
    | true =>
      by_cases empty : prepared.job.cmdBuffers = []
      · simpa [VPUDeviceQueueManaged.submitWithWait, empty] using failed _
      · have whole := prepared.queue.submitEach_success_iff prepared.ctx prepared.job.cmdBuffers
        simp only [Bool.not_true, Bool.false_eq_true, ↓reduceIte, VPUDeviceQueueManaged.submitWithWait, ne_eq,
          not_false_eq_true, empty, and_self, true_and, ← whole]
        generalize prepared.queue.submitEach prepared.ctx prepared.job.cmdBuffers = result
        obtain ⟨accepted, cmdBuffers, final⟩ := result
        cases accepted with
        | false => simpa using failed _
        | true => simp

/-- Of a job whose first command buffer is refused nothing is accepted. -/
theorem executeJob_refused (queue : VPUDeviceQueueManaged) (preemptionBuffer : Option VPUBufferObject)
    (job : VPUJob) (ctx : VPUDeviceContext) :
    let handed := handedJob queue preemptionBuffer job ctx
    ¬ (((job.updateOnSubmit ctx).1 = true ∧ handed.success = true ∧ handed.job.cmdBuffers ≠ []) ∧
        AcceptsEach handed.ctx.drvApi.commandQueueSubmit handed.ctx.calls.length 1) →
      ∃ added, (executeJob queue preemptionBuffer job ctx).ctx.calls = ctx.calls ++ added ∧
        acceptedBuffers added = [] := by
  rw [executeJob, handedJob, updatedJob]
  have updates := job.updateOnSubmit_calls ctx
  generalize job.updateOnSubmit ctx = answer at updates
  obtain ⟨updated, revised, next⟩ := answer
  intro handed refused
  cases updated with
  | false => exact ⟨[], by rw [List.append_nil]; exact updates, rfl⟩
  | true =>
    obtain ⟨waited, waits, unasked, -⟩ := queue.prepare_calls (revised.addPreemptionBuffer preemptionBuffer) next
    rw [show next.calls = ctx.calls from updates] at waits
    simp only [VPUDeviceQueueManaged.submit]
    generalize prepares : queue.prepare (revised.addPreemptionBuffer preemptionBuffer) next = prepared at waits
    cases success : prepared.success with
    | false => exact ⟨waited, waits, unasked⟩
    | true =>
      simp only [Bool.not_true, Bool.false_eq_true, ↓reduceIte, VPUDeviceQueueManaged.submitWithWait]
      by_cases empty : prepared.job.cmdBuffers = []
      · rw [if_pos empty]
        exact ⟨waited, waits, unasked⟩
      · have first : ¬ AcceptsEach prepared.ctx.drvApi.commandQueueSubmit prepared.ctx.calls.length 1 := by
          intro accepts
          exact refused ⟨⟨rfl, by simpa [handed, prepares] using success, by simpa [handed, prepares] using empty⟩,
            by simpa [handed, prepares] using accepts⟩
        obtain ⟨added, calls, nothing⟩ := prepared.queue.submitEach_refused prepared.ctx prepared.job.cmdBuffers first
        rw [if_neg empty]
        generalize prepared.queue.submitEach prepared.ctx prepared.job.cmdBuffers = result at calls
        obtain ⟨accepted, cmdBuffers, final⟩ := result
        refine ⟨waited ++ added, ?_, by rw [acceptedBuffers_append, unasked, nothing]; rfl⟩
        rw [← List.append_assoc, ← waits]
        exact calls

namespace Driver

/-- One round of the submission loop. -/
def submitRound (driver : Driver) (handle name : Nat) : ZeResult × Driver :=
  let queue := driver.queues handle
  let executed := executeJob queue.vpuQueue queue.preemptionBuffer (driver.jobs name) driver.ctx
  (executed.result, { (driver.setJob name executed.job).setQueue handle
    { queue with vpuQueue := executed.queue } with ctx := executed.ctx })

/-- What is pending after the submission loop. -/
def settleLists (handle : Nat) (fence : Option Nat) :
    List (Option Nat) → Driver → List PendingBuffer → List PendingBuffer
  | [], _, pending => pending
  | none :: _, _, pending => pending
  | some name :: rest, driver, pending =>
    if (driver.jobs name).getNumCommands = 0 then settleLists handle fence rest driver pending
    else
      let round := driver.submitRound handle name
      let settled := settle handle fence name pending (round.2.ctx.calls.drop driver.ctx.calls.length)
      if round.1 = ZE_RESULT_SUCCESS then settleLists handle fence rest round.2 settled else settled

theorem submitLists_cons (driver : Driver) (handle name : Nat) (rest : List (Option Nat)) :
    driver.submitLists handle (some name :: rest) =
      if (driver.jobs name).getNumCommands = 0 then driver.submitLists handle rest
      else if (driver.submitRound handle name).1 = ZE_RESULT_SUCCESS then
        let others := (driver.submitRound handle name).2.submitLists handle rest
        (others.1, name :: others.2.1, others.2.2)
      else ((driver.submitRound handle name).1, [], (driver.submitRound handle name).2) := by
  rfl

/-- The update and the fence patches of the job succeed, and it has a command buffer. -/
def Hands (driver : Driver) (handle name : Nat) : Prop :=
  let queue := driver.queues handle
  let handed := handedJob queue.vpuQueue queue.preemptionBuffer (driver.jobs name) driver.ctx
  ((driver.jobs name).updateOnSubmit driver.ctx).1 = true ∧ handed.success = true ∧ handed.job.cmdBuffers ≠ []

/-- The kernel accepts this many of the job's command buffers. -/
def Accepts (driver : Driver) (handle name buffers : Nat) : Prop :=
  let queue := driver.queues handle
  let handed := handedJob queue.vpuQueue queue.preemptionBuffer (driver.jobs name) driver.ctx
  AcceptsEach handed.ctx.drvApi.commandQueueSubmit handed.ctx.calls.length buffers

/-- The job is submitted as a whole. -/
def Submits (driver : Driver) (handle name : Nat) : Prop :=
  let queue := driver.queues handle
  let handed := handedJob queue.vpuQueue queue.preemptionBuffer (driver.jobs name) driver.ctx
  driver.Hands handle name ∧ driver.Accepts handle name handed.job.cmdBuffers.length

/-- The job gets new command buffers. -/
def Strips (driver : Driver) (handle name : Nat) : Prop :=
  ((driver.jobs name).updateOnSubmit driver.ctx).1 = true ∧
    (driver.queues handle).vpuQueue.isInOrder = false ∧ (driver.jobs name).hasInOrderWorkload = true

instance (driver : Driver) (handle name : Nat) : Decidable (driver.Hands handle name) :=
  inferInstanceAs (Decidable (_ ∧ _ ∧ _))

instance (driver : Driver) (handle name buffers : Nat) : Decidable (driver.Accepts handle name buffers) :=
  instDecidableAcceptsEach ..

instance (driver : Driver) (handle name : Nat) : Decidable (driver.Submits handle name) :=
  inferInstanceAs (Decidable (_ ∧ _))

instance (driver : Driver) (handle name : Nat) : Decidable (driver.Strips handle name) :=
  inferInstanceAs (Decidable (_ ∧ _ ∧ _))

theorem submitRound_success_iff (driver : Driver) (handle name : Nat) :
    (driver.submitRound handle name).1 = ZE_RESULT_SUCCESS ↔ driver.Submits handle name :=
  executeJob_success_iff (driver.queues handle).vpuQueue (driver.queues handle).preemptionBuffer (driver.jobs name)
    driver.ctx

/-- Of a job whose first command buffer is refused nothing is accepted. -/
theorem submitRound_refused (driver : Driver) (handle name : Nat)
    (refused : ¬ (driver.Hands handle name ∧ driver.Accepts handle name 1)) :
    acceptedBuffers ((driver.submitRound handle name).2.ctx.calls.drop driver.ctx.calls.length) = [] := by
  obtain ⟨added, calls, nothing⟩ := executeJob_refused (driver.queues handle).vpuQueue
    (driver.queues handle).preemptionBuffer (driver.jobs name) driver.ctx refused
  rw [show (driver.submitRound handle name).2.ctx.calls = _ from calls, List.drop_left, nothing]

theorem acquirePreemptionBuffer_spec (driver : Driver) (handle : Nat) :
    (driver.acquirePreemptionBuffer handle).ctx.calls = driver.ctx.calls ∧
      (driver.acquirePreemptionBuffer handle).jobs = driver.jobs ∧
      driver.SameTracking (driver.acquirePreemptionBuffer handle) := by
  have unchanged : driver.ctx.calls = driver.ctx.calls ∧ driver.jobs = driver.jobs ∧ driver.SameTracking driver :=
    ⟨rfl, rfl, fun _ => ⟨rfl, rfl⟩⟩
  rw [acquirePreemptionBuffer]
  simp only
  split
  · split
    · exact unchanged
    · refine ⟨driver.ctx.preemptionCacheAcquire_calls, rfl, ?_⟩
      have kept : driver.SameTracking (driver.setQueue handle
          { driver.queues handle with preemptionBuffer := driver.ctx.preemptionCacheAcquire.1 }) :=
        SameTracking.setQueue rfl rfl
      exact kept
  · exact unchanged

/-- The fence is one of the queue's, or there is none. -/
def Owns (driver : Driver) (handle : Nat) : Option Nat → Prop
  | none => True
  | some key => ((driver.queues handle).fences.lookup key).isSome

instance (driver : Driver) (handle : Nat) : (fence : Option Nat) → Decidable (driver.Owns handle fence)
  | none => instDecidableTrue
  | some key => inferInstanceAs (Decidable (((driver.queues handle).fences.lookup key).isSome = true))

theorem SameTracking.owns {before after : Driver} (same : before.SameTracking after) {handle : Nat}
    {fence : Option Nat} (owned : after.Owns handle fence) : before.Owns handle fence := by
  cases fence with
  | none => trivial
  | some key => rwa [Owns, (same handle).2] at owned

/-- The submission loop gives up no job that was accepted: none gets new command buffers while former ones
are pending, and at an error, or with a fence of another queue, the jobs accepted so far in this call are
tracked already. -/
def KeepsTrack (handle : Nat) (fence : Option Nat) :
    List (Option Nat) → Driver → List PendingBuffer → List Nat → Prop
  | [], driver, _, names => driver.Owns handle fence ∨ names ⊆ driver.trackedJobs handle fence
  | none :: _, driver, _, names => names ⊆ driver.trackedJobs handle fence
  | some name :: rest, driver, pending, names =>
    if (driver.jobs name).getNumCommands = 0 then KeepsTrack handle fence rest driver pending names
    else
      let next := (driver.submitRound handle name).2
      (driver.Strips handle name → ∀ entry ∈ pending, entry.job ≠ name) ∧
        (driver.Submits handle name → KeepsTrack handle fence rest next
          (settle handle fence name pending (next.ctx.calls.drop driver.ctx.calls.length)) (names ++ [name])) ∧
        (¬ driver.Submits handle name → names ⊆ driver.trackedJobs handle fence ∧
          (driver.Hands handle name ∧ driver.Accepts handle name 1 → name ∈ driver.trackedJobs handle fence))

instance instDecidableKeepsTrack (handle : Nat) (fence : Option Nat) :
    (lists : List (Option Nat)) → (driver : Driver) → (pending : List PendingBuffer) → (names : List Nat) →
      Decidable (KeepsTrack handle fence lists driver pending names)
  | [], driver, _, names =>
    inferInstanceAs (Decidable (driver.Owns handle fence ∨ ∀ name ∈ names, name ∈ driver.trackedJobs handle fence))
  | none :: _, driver, _, names =>
    inferInstanceAs (Decidable (∀ name ∈ names, name ∈ driver.trackedJobs handle fence))
  | some name :: rest, driver, pending, names =>
    have := instDecidableKeepsTrack handle fence rest driver pending names
    let next := (driver.submitRound handle name).2
    have := instDecidableKeepsTrack handle fence rest next
      (settle handle fence name pending (next.ctx.calls.drop driver.ctx.calls.length)) (names ++ [name])
    inferInstanceAs (Decidable (if (driver.jobs name).getNumCommands = 0 then _ else
      (_ → ∀ entry ∈ pending, entry.job ≠ name) ∧ (_ → _) ∧
        (_ → (∀ name ∈ names, name ∈ driver.trackedJobs handle fence) ∧ (_ → _))))

end Driver

/-- The driver and what is pending. -/
structure Tracking where
  driver : Driver
  pending : List PendingBuffer

/-- The calls of the application. A job of the store is built or changed by calls on its command list;
`createFence` puts a new fence anywhere into the map. -/
inductive QueueCall where
  | executeCommandLists (handle : Nat) (phCommandLists : Option (List (Option Nat))) (hFence : Option Nat)
  | synchronize (handle : Nat)
  | fenceSynchronize (handle key : Nat)
  | fenceReset (handle key : Nat)
  | createFence (handle key : Nat) (signaled : Bool) (fences : List (Nat × Fence))
  | destroyFence (handle key : Nat)
  | setJob (name : Nat) (job : VPUJob)

namespace Tracking

/-- After waits only. -/
def waited (state : Tracking) (next : Driver) : Tracking :=
  ⟨next, complete state.pending (next.ctx.calls.drop state.driver.ctx.calls.length)⟩

def executeCommandLists (state : Tracking) (handle : Nat) (phCommandLists : Option (List (Option Nat)))
    (hFence : Option Nat) : Tracking :=
  let final := (state.driver.executeCommandLists handle phCommandLists hFence).2
  match phCommandLists with
  | none => state.waited final
  | some lists =>
    if lists = [] ∨ state.driver.checkLists lists ≠ ZE_RESULT_SUCCESS then state.waited final
    else
      let acquired := state.driver.acquirePreemptionBuffer handle
      let submitted : Tracking :=
        ⟨(acquired.submitLists handle lists).2.2, Driver.settleLists handle hFence lists acquired state.pending⟩
      submitted.waited final

def step (state : Tracking) : QueueCall → Tracking
  | .executeCommandLists handle phCommandLists hFence => state.executeCommandLists handle phCommandLists hFence
  | .synchronize handle => state.waited (state.driver.synchronize handle).2
  | .fenceSynchronize handle key => state.waited (state.driver.fenceSynchronize handle key).2
  | .fenceReset handle key => { state with driver := state.driver.fenceReset handle key }
  | .createFence handle _ _ fences => { state with driver := state.driver.createFence handle fences }
  | .destroyFence handle key => { state with driver := state.driver.destroyFence handle key }
  | .setJob name job => { state with driver := state.driver.setJob name job }

/-- A fence is passed or destroyed only when it tracks no jobs, and a job that is pending keeps its command
buffers; executions give up nothing that was accepted. -/
def KeepsTrack (state : Tracking) : QueueCall → Prop
  | .executeCommandLists handle phCommandLists hFence =>
    (hFence.isSome → state.driver.trackedJobs handle hFence = []) ∧
      ∀ lists ∈ phCommandLists, state.driver.checkLists lists = ZE_RESULT_SUCCESS →
        Driver.KeepsTrack handle hFence lists (state.driver.acquirePreemptionBuffer handle) state.pending []
  | .createFence handle key signaled fences =>
    key ∉ (state.driver.queues handle).fences.map Prod.fst ∧
      fences.Perm ((key, ⟨signaled, []⟩) :: (state.driver.queues handle).fences)
  | .destroyFence handle key => state.driver.trackedJobs handle (some key) = []
  | .setJob name job =>
    job.buffers = (state.driver.jobs name).buffers ∨ ∀ entry ∈ state.pending, entry.job ≠ name
  | _ => True

/-- Every pending command buffer belongs to a job that its queue or its fence tracks. -/
structure Sound (state : Tracking) : Prop where
  tracked : ∀ entry ∈ state.pending, entry.job ∈ state.driver.trackedJobs entry.handle entry.fence
  buffers : ∀ entry ∈ state.pending, entry.buffer ∈ (state.driver.jobs entry.job).buffers
  distinct : ∀ handle, DistinctKeys (state.driver.queues handle).fences

theorem Sound.waited {state : Tracking} (sound : state.Sound) {next : Driver} {added : List DriverCall}
    (waits : state.driver.Waits next added) : (state.waited next).Sound := by
  have left : ∀ entry ∈ (state.waited next).pending, entry ∈ state.pending ∧ entry.buffer ∉ completedBuffers added := by
    intro entry member
    have listed := mem_complete.mp member
    rwa [waits.calls, List.drop_left] at listed
  refine ⟨fun entry member => ?_, fun entry member => ?_, fun handle => waits.distinct handle (sound.distinct handle)⟩
  · obtain ⟨present, missing⟩ := left entry member
    rcases waits.tracked _ _ _ (sound.tracked entry present) with still | all
    · exact still
    · exact absurd (all _ (sound.buffers entry present)) missing
  · have own := sound.buffers entry (left entry member).1
    rwa [← waits.buffers entry.job] at own

/-- Within a call the jobs that were submitted so far are not tracked yet. -/
structure Collecting (handle : Nat) (fence : Option Nat) (names : List Nat) (state : Tracking) : Prop where
  tracked : ∀ entry ∈ state.pending, entry.job ∈ state.driver.trackedJobs entry.handle entry.fence ∨
    entry.handle = handle ∧ entry.fence = fence ∧ entry.job ∈ names
  buffers : ∀ entry ∈ state.pending, entry.buffer ∈ (state.driver.jobs entry.job).buffers
  distinct : ∀ handle, DistinctKeys (state.driver.queues handle).fences

theorem Collecting.sound {handle : Nat} {fence : Option Nat} {names : List Nat} {state : Tracking}
    (collecting : state.Collecting handle fence names) (known : names ⊆ state.driver.trackedJobs handle fence) :
    state.Sound := by
  refine ⟨fun entry member => ?_, collecting.buffers, collecting.distinct⟩
  rcases collecting.tracked entry member with tracked | ⟨same, passed, listed⟩
  · exact tracked
  · rw [same, passed]
    exact known listed

theorem Collecting.more {handle : Nat} {fence : Option Nat} {names others : List Nat} {state : Tracking}
    (collecting : state.Collecting handle fence names) (subset : names ⊆ others) :
    state.Collecting handle fence others :=
  ⟨fun entry member => (collecting.tracked entry member).imp id fun ⟨same, passed, listed⟩ =>
    ⟨same, passed, subset listed⟩, collecting.buffers, collecting.distinct⟩

/-- One round of the loop: its job is collected when a command buffer of it may have been accepted. -/
theorem Collecting.round {handle name : Nat} {fence : Option Nat} {names : List Nat} {state : Tracking}
    (collecting : state.Collecting handle fence names)
    (kept : state.driver.Strips handle name → ∀ entry ∈ state.pending, entry.job ≠ name) :
    let next := (state.driver.submitRound handle name).2
    let settled : Tracking :=
      ⟨next, settle handle fence name state.pending (next.ctx.calls.drop state.driver.ctx.calls.length)⟩
    state.driver.SameTracking next ∧ settled.Collecting handle fence (names ++ [name]) ∧
      (¬ (state.driver.Hands handle name ∧ state.driver.Accepts handle name 1) →
        settled.Collecting handle fence names) := by
  intro next settled
  have same : state.driver.SameTracking next := by
    have kept : state.driver.SameTracking (state.driver.setQueue handle
        { state.driver.queues handle with
          vpuQueue := (executeJob (state.driver.queues handle).vpuQueue (state.driver.queues handle).preemptionBuffer
            (state.driver.jobs name) state.driver.ctx).queue }) := Driver.SameTracking.setQueue rfl rfl
    exact kept
  have distinct : ∀ other, DistinctKeys (next.queues other).fences := by
    intro other
    rw [(same other).2]
    exact collecting.distinct other
  obtain ⟨added, calls, front, -⟩ := executeJob_requests (state.driver.queues handle).vpuQueue
    (state.driver.queues handle).preemptionBuffer (state.driver.jobs name) state.driver.ctx
  have own : (next.jobs name).buffers = (executeJob (state.driver.queues handle).vpuQueue
      (state.driver.queues handle).preemptionBuffer (state.driver.jobs name) state.driver.ctx).job.buffers :=
    congrArg VPUJob.buffers (Function.update_self ..)
  have others : ∀ entry ∈ state.pending, (next.jobs entry.job).buffers = (state.driver.jobs entry.job).buffers := by
    intro entry member
    by_cases job : entry.job = name
    · rw [job, own]
      refine executeJob_buffers _ _ _ _ fun updated => ?_
      by_contra strips
      simp only [not_or, Bool.not_eq_true, Bool.not_eq_false] at strips
      exact kept ⟨updated, strips⟩ entry member job
    · exact congrArg VPUJob.buffers (Function.update_of_ne job ..)
  have asked : next.ctx.calls.drop state.driver.ctx.calls.length = added := by
    rw [show next.ctx.calls = _ from calls, List.drop_left]
  have pending : ∀ entry ∈ settled.pending, entry ∈ state.pending ∨
      ∃ bo ∈ acceptedBuffers added, entry = ⟨handle, fence, name, bo⟩ := by
    intro entry member
    rcases List.mem_append.mp member with before | new
    · exact .inl (mem_complete.mp before).1
    · rw [asked] at new
      obtain ⟨bo, accepted, rfl⟩ := List.mem_map.mp new
      exact .inr ⟨bo, accepted, rfl⟩
  have buffers : ∀ entry ∈ settled.pending, entry.buffer ∈ (next.jobs entry.job).buffers := by
    intro entry member
    rcases pending entry member with before | ⟨bo, accepted, rfl⟩
    · rw [others entry before]
      exact collecting.buffers entry before
    · exact own ▸ front.subset accepted
  have tracked : ∀ entry ∈ state.pending, entry.job ∈ next.trackedJobs entry.handle entry.fence ∨
      entry.handle = handle ∧ entry.fence = fence ∧ entry.job ∈ names := by
    intro entry member
    rw [same.trackedJobs]
    exact collecting.tracked entry member
  refine ⟨same, ⟨fun entry member => ?_, buffers, distinct⟩, fun refused => ⟨fun entry member => ?_, buffers, distinct⟩⟩
  · rcases pending entry member with before | ⟨bo, accepted, rfl⟩
    · exact (tracked entry before).imp id fun ⟨queue, passed, listed⟩ =>
        ⟨queue, passed, List.mem_append_left _ listed⟩
    · exact .inr ⟨rfl, rfl, List.mem_append_right _ (List.mem_singleton_self name)⟩
  · rcases pending entry member with before | ⟨bo, accepted, rfl⟩
    · exact tracked entry before
    · have nothing := state.driver.submitRound_refused handle name refused
      rw [show List.drop _ _ = added from asked] at nothing
      rw [nothing] at accepted
      cases accepted

/-- The whole loop: when it succeeds, the jobs that it returns are collected; otherwise everything that
is pending is tracked already. -/
theorem Collecting.submitLists {handle : Nat} {fence : Option Nat} (lists : List (Option Nat)) {state : Tracking}
    {names : List Nat} (collecting : state.Collecting handle fence names)
    (keeps : Driver.KeepsTrack handle fence lists state.driver state.pending names) :
    let submitted := state.driver.submitLists handle lists
    let settled : Tracking := ⟨submitted.2.2, Driver.settleLists handle fence lists state.driver state.pending⟩
    state.driver.SameTracking settled.driver ∧
      (submitted.1 = ZE_RESULT_SUCCESS → settled.Collecting handle fence (names ++ submitted.2.1) ∧
        (state.driver.Owns handle fence ∨ names ++ submitted.2.1 ⊆ state.driver.trackedJobs handle fence)) ∧
      (submitted.1 ≠ ZE_RESULT_SUCCESS → settled.Sound) := by
  induction lists generalizing state names with
  | nil =>
    refine ⟨fun _ => ⟨rfl, rfl⟩, fun _ => ⟨?_, ?_⟩, fun failed => absurd rfl failed⟩
    · exact (List.append_nil names).symm ▸ collecting
    · exact (List.append_nil names).symm ▸ keeps
  | cons list rest ih =>
    cases list with
    | none => exact ⟨fun _ => ⟨rfl, rfl⟩, nofun, fun _ => collecting.sound keeps⟩
    | some name =>
      rw [Driver.KeepsTrack] at keeps
      rw [Driver.submitLists_cons, Driver.settleLists]
      by_cases empty : (state.driver.jobs name).getNumCommands = 0
      · rw [if_pos empty] at keeps
        simp only [if_pos empty]
        exact ih collecting keeps
      · rw [if_neg empty] at keeps
        obtain ⟨kept, goes, stops⟩ := keeps
        obtain ⟨same, collected, refused⟩ := collecting.round kept
        simp only [if_neg empty]
        by_cases success : (state.driver.submitRound handle name).1 = ZE_RESULT_SUCCESS
        · simp only [if_pos success]
          obtain ⟨later, whole, failed⟩ := ih collected (goes ((state.driver.submitRound_success_iff handle name).mp success))
          refine ⟨same.trans later, fun final => ?_, failed⟩
          obtain ⟨gathered, owned⟩ := whole final
          rw [List.append_assoc] at gathered owned
          rw [same.trackedJobs] at owned
          exact ⟨gathered, owned.imp same.owns id⟩
        · simp only [if_neg success]
          refine ⟨same, fun final => absurd final success, fun _ => ?_⟩
          obtain ⟨known, own⟩ := stops fun submits => success ((state.driver.submitRound_success_iff handle name).mpr submits)
          rw [← same.trackedJobs] at known own
          by_cases first : state.driver.Hands handle name ∧ state.driver.Accepts handle name 1
          · refine collected.sound (List.append_subset.mpr ⟨known, ?_⟩)
            exact fun other member => List.mem_singleton.mp member ▸ own first
          · exact (refused first).sound known

/-- Passing the collected jobs on makes them tracked; a fence of another queue is refused. -/
theorem Collecting.trackJobs {handle : Nat} {fence : Option Nat} {names : List Nat} {state : Tracking}
    (collecting : state.Collecting handle fence names)
    (owned : state.driver.Owns handle fence ∨ names ⊆ state.driver.trackedJobs handle fence)
    (free : fence.isSome → state.driver.trackedJobs handle fence = []) :
    let tracking := (state.driver.trackJobs handle fence names).2
    tracking.ctx = state.driver.ctx ∧ Sound ⟨tracking, state.pending⟩ := by
  intro tracking
  -- The queue with its new lists: each pending command buffer is in one of them.
  have replaced : ∀ queue : CommandQueue, DistinctKeys queue.fences →
      (∀ entry ∈ state.pending, entry.handle = handle → entry.job ∈ queue.tracked entry.fence) →
        Sound ⟨state.driver.setQueue handle queue, state.pending⟩ := by
    intro queue distinct tracked
    refine ⟨fun entry member => ?_, collecting.buffers, fun other => ?_⟩
    · rw [Driver.trackedJobs, Driver.setQueue_queues]
      split
      · rename_i own
        exact tracked entry member own
      · rename_i other
        exact (collecting.tracked entry member).resolve_right fun moved => other moved.1
    · simp only [Driver.setQueue_queues]
      split
      · exact distinct
      · exact collecting.distinct other
  have former : ∀ entry ∈ state.pending, entry.handle = handle →
      entry.job ∈ (state.driver.queues handle).tracked entry.fence ∨ entry.fence = fence ∧ entry.job ∈ names := by
    intro entry member own
    rcases collecting.tracked entry member with tracked | ⟨-, listed⟩
    · rw [own] at tracked
      exact .inl tracked
    · exact .inr listed
  cases fence with
  | none =>
    refine ⟨rfl, replaced _ (collecting.distinct handle) fun entry member own => ?_⟩
    rcases former entry member own with before | ⟨passed, listed⟩
    · cases passed : entry.fence with
      | none =>
        rw [passed] at before
        exact List.mem_append_left _ before
      | some key =>
        rw [passed] at before
        exact before
    · rw [passed]
      exact List.mem_append_right _ listed
  | some key =>
    cases found : (state.driver.queues handle).fences.lookup key with
    | none =>
      have foreign : ¬ state.driver.Owns handle (some key) := by simp [Driver.Owns, found]
      have same : tracking = state.driver := by simp [tracking, Driver.trackJobs, found]
      rw [same]
      exact ⟨rfl, collecting.sound (owned.resolve_left foreign)⟩
    | some fence =>
      have changed : tracking = state.driver.setFence handle (modifyEntry key
          ⟨fence.signaled || names.isEmpty, names⟩ (fun _ => ⟨fence.signaled || names.isEmpty, names⟩)
          (state.driver.queues handle).fences) := by
        simp [tracking, Driver.trackJobs, found]
      rw [changed]
      refine ⟨rfl, replaced _ (modifyEntry_distinct (collecting.distinct handle)) fun entry member own => ?_⟩
      have none := free rfl
      rcases former entry member own with before | ⟨passed, listed⟩
      · cases passed : entry.fence with
        | none =>
          rw [passed] at before
          exact before
        | some other =>
          rw [passed] at before
          by_cases same : other = key
          · rw [same, show CommandQueue.tracked _ _ = [] from none] at before
            cases before
          · rw [CommandQueue.tracked, lookup_modifyEntry, if_neg same]
            exact before
      · rw [passed, CommandQueue.tracked, lookup_modifyEntry, if_pos rfl]
        exact listed

theorem Sound.driver {state : Tracking} (sound : state.Sound) {next : Driver}
    (jobs : ∀ entry ∈ state.pending, (next.jobs entry.job).buffers = (state.driver.jobs entry.job).buffers)
    (same : state.driver.SameTracking next) : Sound ⟨next, state.pending⟩ := by
  refine ⟨fun entry member => ?_, fun entry member => ?_, fun handle => ?_⟩
  · rw [same.trackedJobs]
    exact sound.tracked entry member
  · exact jobs entry member ▸ sound.buffers entry member
  · rw [(same handle).2]
    exact sound.distinct handle

theorem Sound.executeCommandLists {state : Tracking} (sound : state.Sound) {handle : Nat}
    {phCommandLists : Option (List (Option Nat))} {hFence : Option Nat}
    (keeps : state.KeepsTrack (.executeCommandLists handle phCommandLists hFence)) :
    (state.executeCommandLists handle phCommandLists hFence).Sound := by
  obtain ⟨free, keeps⟩ := keeps
  have unchanged : (state.waited state.driver).Sound := sound.waited (Driver.Waits.refl state.driver)
  cases phCommandLists with
  | none => exact unchanged
  | some lists =>
    rw [Tracking.executeCommandLists]
    split
    · rename_i refused
      have same : (state.driver.executeCommandLists handle (some lists) hFence).2 = state.driver := by
        rw [Driver.executeCommandLists]
        rcases refused with empty | unchecked
        · simp [empty]
        · by_cases empty : lists = []
          · simp [empty]
          · simp [empty, unchecked]
      rw [same]
      exact unchanged
    · rename_i passed
      obtain ⟨nonempty, checked⟩ := not_or.mp passed
      have success := not_not.mp checked
      obtain ⟨calls, jobs, same⟩ := state.driver.acquirePreemptionBuffer_spec handle
      have acquired : Sound ⟨state.driver.acquirePreemptionBuffer handle, state.pending⟩ :=
        sound.driver (fun entry _ => by rw [jobs]) same
      have collecting : Collecting handle hFence [] ⟨state.driver.acquirePreemptionBuffer handle, state.pending⟩ :=
        ⟨fun entry member => .inl (acquired.tracked entry member), acquired.buffers, acquired.distinct⟩
      obtain ⟨later, whole, failed⟩ := collecting.submitLists lists (keeps lists rfl success)
      rw [Driver.executeCommandLists]
      simp only [if_neg nonempty, success, ne_eq, not_true_eq_false, ↓reduceIte]
      generalize (state.driver.acquirePreemptionBuffer handle).submitLists handle lists = submitted at later whole failed
      generalize Driver.settleLists handle hFence lists _ state.pending = pending at whole failed
      split
      · rename_i names next
        obtain ⟨collected, owned⟩ := whole rfl
        rw [← same.trackedJobs, ← later.trackedJobs] at free
        have owned : next.Owns handle hFence ∨ names ⊆ next.trackedJobs handle hFence := by
          rw [← later.trackedJobs] at owned
          exact owned.imp (fun owns => by
            cases hFence with
            | none => trivial
            | some key => rwa [Driver.Owns, ← (later handle).2] at owns) id
        obtain ⟨requests, tracking⟩ := collected.trackJobs owned free
        -- Whatever follows only waits.
        have waits : ∀ final added, (next.trackJobs handle hFence names).2.Waits final added →
            (Tracking.waited ⟨next, pending⟩ final).Sound := by
          intro final added waits
          have sound := tracking.waited waits
          rwa [Tracking.waited, requests] at sound
        split
        · rename_i tracked kept
          rw [kept] at waits
          split
          · obtain ⟨added, synchronized, -⟩ := tracked.synchronize_waits handle
            exact waits _ added synchronized
          · exact waits _ [] (Driver.Waits.refl tracked)
        · rename_i error tracked refused kept
          rw [kept] at waits
          exact waits _ [] (Driver.Waits.refl tracked)
      · rename_i error names next refused
        exact (failed refused).waited (Driver.Waits.refl next)

/-- A queue is replaced by one that tracks at least the same jobs. -/
theorem Sound.setQueue {state : Tracking} (sound : state.Sound) {handle : Nat} {queue : CommandQueue}
    (distinct : DistinctKeys queue.fences)
    (tracked : ∀ fence, ∀ name ∈ state.driver.trackedJobs handle fence, name ∈ queue.tracked fence) :
    Sound ⟨state.driver.setQueue handle queue, state.pending⟩ := by
  refine ⟨fun entry member => ?_, sound.buffers, fun other => ?_⟩
  · have former := sound.tracked entry member
    rw [Driver.trackedJobs, Driver.setQueue_queues]
    split
    · rename_i own
      rw [own] at former
      exact tracked entry.fence entry.job former
    · exact former
  · simp only [Driver.setQueue_queues]
    split
    · exact distinct
    · exact sound.distinct other

/-- Every fence that tracks jobs is still found in the new map, with the same jobs. -/
theorem Sound.setFence {state : Tracking} (sound : state.Sound) {handle : Nat} {fences : List (Nat × Fence)}
    (distinct : DistinctKeys fences)
    (found : ∀ key fence, (state.driver.queues handle).fences.lookup key = some fence → fence.trackedJobs ≠ [] →
      ∃ other, fences.lookup key = some other ∧ other.trackedJobs = fence.trackedJobs) :
    Sound ⟨state.driver.setFence handle fences, state.pending⟩ := by
  refine sound.setQueue distinct fun fence name member => ?_
  cases fence with
  | none => exact member
  | some key =>
    rw [Driver.trackedJobs, CommandQueue.tracked] at member
    cases present : (state.driver.queues handle).fences.lookup key with
    | none => simp [present] at member
    | some fence =>
      simp only [present, Option.map_some, Option.getD_some] at member
      obtain ⟨other, listed, same⟩ := found key fence present (List.ne_nil_of_mem member)
      rw [CommandQueue.tracked, listed, Option.map_some, Option.getD_some, same]
      exact member

theorem step_sound (state : Tracking) (call : QueueCall) (sound : state.Sound) (keeps : state.KeepsTrack call) :
    (state.step call).Sound := by
  cases call with
  | executeCommandLists handle phCommandLists hFence => exact sound.executeCommandLists keeps
  | synchronize handle =>
    obtain ⟨added, waits, -⟩ := state.driver.synchronize_waits handle
    exact sound.waited waits
  | fenceSynchronize handle key =>
    obtain ⟨added, waits⟩ := state.driver.fenceSynchronize_waits handle key
    exact sound.waited waits
  | fenceReset handle key =>
    rw [step, Driver.fenceReset]
    cases present : (state.driver.queues handle).fences.lookup key with
    | none => exact sound
    | some fence =>
      refine sound.setFence (modifyEntry_distinct (sound.distinct handle)) fun other tracking listed _ => ?_
      rw [lookup_modifyEntry]
      by_cases same : other = key
      · rw [same, present] at listed
        cases listed
        exact ⟨_, if_pos same, rfl⟩
      · exact ⟨tracking, by rw [if_neg same]; exact listed, rfl⟩
  | createFence handle key signaled fences =>
    obtain ⟨fresh, arranged⟩ := keeps
    have added : DistinctKeys ((key, (⟨signaled, []⟩ : Fence)) :: (state.driver.queues handle).fences) :=
      List.nodup_cons.mpr ⟨fresh, sound.distinct handle⟩
    have distinct : DistinctKeys fences := added.perm arranged
    refine sound.setFence distinct fun other tracking listed _ => ⟨tracking, ?_, rfl⟩
    have member := (mem_iff_lookup (sound.distinct handle)).mpr listed
    exact (mem_iff_lookup distinct).mp (arranged.mem_iff.mpr (List.mem_cons_of_mem _ member))
  | destroyFence handle key =>
    have distinct : DistinctKeys ((state.driver.queues handle).fences.filter fun entry => entry.1 ≠ key) :=
      (sound.distinct handle).sublist (List.filter_sublist.map Prod.fst)
    refine sound.setFence distinct fun other tracking listed nonempty => ⟨tracking, ?_, rfl⟩
    have member := (mem_iff_lookup (sound.distinct handle)).mpr listed
    refine (mem_iff_lookup distinct).mp (List.mem_filter.mpr ⟨member, ?_⟩)
    have free : state.driver.trackedJobs handle (some key) = [] := keeps
    have different : other ≠ key := by
      rintro rfl
      exact nonempty (by simpa [Driver.trackedJobs, CommandQueue.tracked, listed] using free)
    simpa using different
  | setJob name job =>
    refine sound.driver (fun entry member => ?_) fun _ => ⟨rfl, rfl⟩
    rcases keeps with same | other
    · exact state.driver.setJob_buffers same entry.job
    · exact congrArg VPUJob.buffers (Function.update_of_ne (other entry member) ..)

end Tracking

/-- In every run that gives up nothing that was accepted, each command buffer that is pending belongs to
a job that the queue or the fence of its submission tracks; so a `synchronize` that succeeds leaves nothing
of its queue pending. -/
theorem accepted_jobs_tracked {driver : Driver} {calls : List QueueCall}
    (distinct : ∀ handle, DistinctKeys (driver.queues handle).fences)
    (guarded : Guarded Tracking.step Tracking.KeepsTrack ⟨driver, []⟩ calls) :
    let state := runFrom Tracking.step ⟨driver, []⟩ calls
    (∀ entry ∈ state.pending, entry.job ∈ state.driver.trackedJobs entry.handle entry.fence) ∧
      ∀ handle, (state.driver.synchronize handle).1 = ZE_RESULT_SUCCESS →
        ∀ entry ∈ (state.step (.synchronize handle)).pending, entry.handle ≠ handle := by
  intro state
  have initial : Tracking.Sound ⟨driver, []⟩ := by
    refine ⟨?_, ?_, distinct⟩ <;> simp
  have sound : state.Sound := guarded_invariant Tracking.step_sound initial guarded
  refine ⟨sound.tracked, fun handle success entry member own => ?_⟩
  obtain ⟨added, waits, cleared⟩ := state.driver.synchronize_waits handle
  have tracked : entry.job ∈ (state.driver.synchronize handle).2.trackedJobs entry.handle entry.fence :=
    (sound.waited waits).tracked entry member
  rw [own, cleared success entry.fence] at tracked
  cases tracked

/-- A driver with two closed jobs of one inference each and one queue, on a kernel with these answers. -/
def trackingDriver (commandQueueSubmit : Nat → SubmitAnswer) : Driver where
  ctx := { argumentContext with drvApi := { grantingKernel with commandQueueSubmit := commandQueueSubmit } }
  jobs := fun name => if name = 0 then firstSubmit.job else laterSubmit.job
  queues := fun _ => ⟨defaultQueue, false, none, [], []⟩

theorem accepted_jobs_tracked_twice :
    let calls := [.executeCommandLists 1 (some [some 0, some 1]) none]
    let state := runFrom Tracking.step ⟨trackingDriver fun _ => ⟨0, .accepted⟩, []⟩ calls
    ((∀ entry ∈ state.pending, entry.job ∈ state.driver.trackedJobs entry.handle entry.fence) ∧
      ∀ handle, (state.driver.synchronize handle).1 = ZE_RESULT_SUCCESS →
        ∀ entry ∈ (state.step (.synchronize handle)).pending, entry.handle ≠ handle) ∧
      state.pending.map PendingBuffer.job = [0, 1] := by
  intro calls state
  have keeps : Driver.KeepsTrack 1 none [some 0, some 1]
      ((trackingDriver fun _ => ⟨0, .accepted⟩).acquirePreemptionBuffer 1) [] [] := by
    decide +kernel
  refine ⟨accepted_jobs_tracked (fun _ => List.nodup_nil) ⟨⟨nofun, ?_⟩, trivial⟩, by decide +kernel⟩
  intro lists given _
  cases given
  exact keeps

/-- The kernel refuses the second job: the call fails, the first one is not tracked although the kernel
runs it, and `synchronize` succeeds without having waited. -/
theorem accepted_job_untracked :
    let driver := trackingDriver fun count => ⟨0, if count = 0 then .accepted else .failed 5⟩
    let state := Tracking.step ⟨driver, []⟩ (.executeCommandLists 1 (some [some 0, some 1]) none)
    (driver.executeCommandLists 1 (some [some 0, some 1]) none).1 = ZE_RESULT_ERROR_UNKNOWN ∧
      state.pending.map PendingBuffer.job = [0] ∧ state.driver.trackedJobs 1 none = [] ∧
      (state.driver.synchronize 1).1 = ZE_RESULT_SUCCESS ∧
      (state.step (.synchronize 1)).pending = state.pending := by
  decide +kernel

end NpuDriver
