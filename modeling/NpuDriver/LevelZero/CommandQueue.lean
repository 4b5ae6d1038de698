import NpuDriver.Device.CommandQueue
import NpuDriver.LevelZero.CommandList

/-! Command queues and fences: the submission of command lists and the tracking of their jobs
until they have been waited for. -/

namespace NpuDriver

open ZeResult

/-- `EBADFD`. -/
def EBADFD : Int := 77

/-- What one round of the submission loop leaves behind. -/
structure Executed where
  result : ZeResult
  queue : VPUDeviceQueueManaged
  job : VPUJob
  ctx : VPUDeviceContext

/-- The body of the submission loop of `executeCommandLists` for one job; a null preemption buffer
is not added. -/
def executeJob (queue : VPUDeviceQueueManaged) (preemptionBuffer : Option VPUBufferObject)
    (job : VPUJob) (ctx : VPUDeviceContext) : Executed :=
  match job.updateOnSubmit ctx with
  | (false, updated, next) => ⟨ZE_RESULT_ERROR_UNKNOWN, queue, updated, next⟩
  | (true, updated, next) =>
    let submitted := queue.submit (updated.addPreemptionBuffer preemptionBuffer) next
    let result :=
      if submitted.success then ZE_RESULT_SUCCESS
      else if submitted.ctx.errno = -EBADFD then ZE_RESULT_ERROR_DEVICE_LOST
      else ZE_RESULT_ERROR_UNKNOWN
    ⟨result, submitted.queue, submitted.job, submitted.ctx⟩

/-- A fence. The jobs are named as in the driver's store. -/
structure Fence where
  signaled : Bool
  trackedJobs : List Nat
deriving DecidableEq, Repr

/-- A command queue with the fences that were created from it, in the order in which the
unordered map is iterated. -/
structure CommandQueue where
  vpuQueue : VPUDeviceQueueManaged
  synchronous : Bool
  preemptionBuffer : Option VPUBufferObject
  trackedJobs : List Nat
  fences : List (Nat × Fence)

/-- The driver: its context, the jobs that are alive and the command queues. -/
structure Driver where
  ctx : VPUDeviceContext
  jobs : Nat → VPUJob
  queues : Nat → CommandQueue

/-- `DRM_IVPU_JOB_STATUS_ABORTED`. -/
def DRM_IVPU_JOB_STATUS_ABORTED : Nat := 256

/-- `Device::jobStatusToResult`. -/
def jobStatusToResult (jobs : Nat → VPUJob) : List Nat → ZeResult
  | [] => ZE_RESULT_SUCCESS
  | job :: rest =>
    if (jobs job).getStatus = VPUJob.DRM_IVPU_JOB_STATUS_SUCCESS then jobStatusToResult jobs rest
    else if (jobs job).getStatus = DRM_IVPU_JOB_STATUS_ABORTED then ZE_RESULT_ERROR_DEVICE_LOST
    else ZE_RESULT_ERROR_UNKNOWN

namespace Driver

def setQueue (driver : Driver) (handle : Nat) (queue : CommandQueue) : Driver :=
  { driver with queues := Function.update driver.queues handle queue }

def setJob (driver : Driver) (name : Nat) (job : VPUJob) : Driver :=
  { driver with jobs := Function.update driver.jobs name job }

/-- The loop of `CommandQueue::waitForJobs`, which stops at the first job that is not ready. -/
def waitEach (driver : Driver) : List Nat → Bool × Driver
  | [] => (true, driver)
  | name :: rest =>
    match (driver.jobs name).waitForCompletion driver.ctx with
    | (false, job, ctx) => (false, { driver.setJob name job with ctx := ctx })
    | (true, job, ctx) => waitEach { driver.setJob name job with ctx := ctx } rest

/-- The preemption buffer goes back to its cache when the cache and the queue are its only
holders. -/
def putBackPreemptionBuffer (driver : Driver) (handle : Nat) : Driver :=
  let queue := driver.queues handle
  if !driver.ctx.isPreemptionBufferSupported then driver
  else
    match queue.preemptionBuffer with
    | none => driver
    | some bo =>
      let counted := { driver with ctx := { driver.ctx with scans := driver.ctx.scans + 1 } }
      if driver.ctx.useCount driver.ctx.scans bo = 2 then
        counted.setQueue handle { queue with preemptionBuffer := none }
      else counted

/-- `CommandQueue::waitForJobs`. -/
def waitForJobs (driver : Driver) (handle : Nat) (names : List Nat) : ZeResult × Driver :=
  match driver.waitEach names with
  | (false, waited) => (ZE_RESULT_NOT_READY, waited)
  | (true, waited) =>
    (jobStatusToResult waited.jobs names, waited.putBackPreemptionBuffer handle)

/-- Replace the fence at a position of the queue's map. -/
def setFence (driver : Driver) (handle : Nat) (fences : List (Nat × Fence)) : Driver :=
  driver.setQueue handle { driver.queues handle with fences := fences }

/-- `Fence::waitForJobs` for one entry of the queue's map. -/
def fenceWaitForJobs (driver : Driver) (handle : Nat) (fence : Fence) : ZeResult × Fence × Driver :=
  if fence.trackedJobs = [] then (ZE_RESULT_SUCCESS, fence, driver)
  else
    match driver.waitForJobs handle fence.trackedJobs with
    | (ZE_RESULT_SUCCESS, waited) => (ZE_RESULT_SUCCESS, ⟨true, []⟩, waited)
    | (error, waited) => (error, fence, waited)

/-- The loop of `synchronize` over the fences: those before an error are done. -/
def waitFences (driver : Driver) (handle : Nat) :
    List (Nat × Fence) → ZeResult × List (Nat × Fence) × Driver
  | [] => (ZE_RESULT_SUCCESS, [], driver)
  | (key, fence) :: rest =>
    match driver.fenceWaitForJobs handle fence with
    | (ZE_RESULT_SUCCESS, waited, next) =>
      match waitFences next handle rest with
      | (result, others, final) => (result, (key, waited) :: others, final)
    | (error, waited, next) => (error, (key, waited) :: rest, next)

/-- `CommandQueue::synchronize`. -/
def synchronize (driver : Driver) (handle : Nat) : ZeResult × Driver :=
  let queue := driver.queues handle
  if queue.trackedJobs = [] ∧ queue.fences = [] then (ZE_RESULT_SUCCESS, driver)
  else
    match driver.waitFences handle queue.fences with
    | (ZE_RESULT_SUCCESS, fences, next) =>
      let fenced := next.setFence handle fences
      match fenced.waitForJobs handle (fenced.queues handle).trackedJobs with
      | (ZE_RESULT_SUCCESS, waited) =>
        (ZE_RESULT_SUCCESS, waited.setQueue handle { waited.queues handle with trackedJobs := [] })
      | (error, waited) => (error, waited)
    | (error, fences, next) => (error, next.setFence handle fences)

/-- `Fence::synchronize` of a fence of the queue. -/
def fenceSynchronize (driver : Driver) (handle key : Nat) : ZeResult × Driver :=
  match (driver.queues handle).fences.lookup key with
  | none => (ZE_RESULT_ERROR_INVALID_NULL_HANDLE, driver)
  | some fence =>
    if fence.signaled then (ZE_RESULT_SUCCESS, driver)
    else if fence.trackedJobs = [] then (ZE_RESULT_NOT_READY, driver)
    else
      match driver.fenceWaitForJobs handle fence with
      | (result, waited, next) =>
        (result, next.setFence handle
          (Library.modifyEntry key waited (fun _ => waited) (next.queues handle).fences))

/-- `CommandQueue::createFence`; the map may be iterated in any order afterwards. -/
def createFence (driver : Driver) (handle : Nat) (fences : List (Nat × Fence)) : Driver :=
  driver.setFence handle fences

/-- `CommandQueue::destroyFence`. -/
def destroyFence (driver : Driver) (handle key : Nat) : Driver :=
  driver.setFence handle ((driver.queues handle).fences.filter fun entry => entry.1 ≠ key)

/-- `Fence::reset` of a fence of the queue. -/
def fenceReset (driver : Driver) (handle key : Nat) : Driver :=
  match (driver.queues handle).fences.lookup key with
  | none => driver
  | some fence =>
    let unsignaled : Fence := { fence with signaled := false }
    driver.setFence handle
      (Library.modifyEntry key unsignaled (fun _ => unsignaled) (driver.queues handle).fences)

/-- The submission loop: the results of the jobs before an error are given up. `none` names a null
command list. -/
def submitLists (driver : Driver) (handle : Nat) : List (Option Nat) → ZeResult × List Nat × Driver
  | [] => (ZE_RESULT_SUCCESS, [], driver)
  | none :: _ => (ZE_RESULT_ERROR_INVALID_NULL_POINTER, [], driver)
  | some name :: rest =>
    if (driver.jobs name).getNumCommands = 0 then submitLists driver handle rest
    else
      let queue := driver.queues handle
      let executed := executeJob queue.vpuQueue queue.preemptionBuffer (driver.jobs name) driver.ctx
      let next := { (driver.setJob name executed.job).setQueue handle
        { queue with vpuQueue := executed.queue } with ctx := executed.ctx }
      if executed.result = ZE_RESULT_SUCCESS then
        match submitLists next handle rest with
        | (result, names, final) => (result, name :: names, final)
      else (executed.result, [], next)

/-- The checks of all command lists before anything is submitted. -/
def checkLists (driver : Driver) : List (Option Nat) → ZeResult
  | [] => ZE_RESULT_SUCCESS
  | none :: _ => ZE_RESULT_ERROR_INVALID_NULL_POINTER
  | some name :: rest =>
    if !(driver.jobs name).closed then ZE_RESULT_ERROR_UNINITIALIZED else checkLists driver rest

/-- The preemption buffer of the queue, acquired with the first submission. -/
def acquirePreemptionBuffer (driver : Driver) (handle : Nat) : Driver :=
  let queue := driver.queues handle
  if driver.ctx.isPreemptionBufferSupported then
    match queue.preemptionBuffer with
    | some _ => driver
    | none =>
      match driver.ctx.preemptionCacheAcquire with
      | (bo, ctx) => { driver.setQueue handle { queue with preemptionBuffer := bo } with ctx := ctx }
  else driver

/-- The jobs that were submitted go to the fence, or to the queue when there is none. -/
def trackJobs (driver : Driver) (handle : Nat) (hFence : Option Nat) (names : List Nat) :
    ZeResult × Driver :=
  let queue := driver.queues handle
  match hFence with
  | none =>
    (ZE_RESULT_SUCCESS, driver.setQueue handle { queue with trackedJobs := queue.trackedJobs ++ names })
  | some key =>
    match queue.fences.lookup key with
    | none => (ZE_RESULT_ERROR_INVALID_SYNCHRONIZATION_OBJECT, driver)
    | some fence =>
      let tracking : Fence := ⟨fence.signaled || names.isEmpty, names⟩
      (ZE_RESULT_SUCCESS,
        driver.setFence handle (Library.modifyEntry key tracking (fun _ => tracking) queue.fences))

/-- `CommandQueue::executeCommandLists`; the array holds the jobs of the command lists. -/
def executeCommandLists (driver : Driver) (handle : Nat) (phCommandLists : Option (List (Option Nat)))
    (hFence : Option Nat) : ZeResult × Driver :=
  match phCommandLists with
  | none => (ZE_RESULT_ERROR_INVALID_NULL_POINTER, driver)
  | some lists =>
    if lists = [] then (ZE_RESULT_ERROR_INVALID_SIZE, driver)
    else if driver.checkLists lists ≠ ZE_RESULT_SUCCESS then (driver.checkLists lists, driver)
    else
      match (driver.acquirePreemptionBuffer handle).submitLists handle lists with
      | (ZE_RESULT_SUCCESS, names, next) =>
        match next.trackJobs handle hFence names with
        | (ZE_RESULT_SUCCESS, tracking) =>
          if (tracking.queues handle).synchronous then tracking.synchronize handle
          else (ZE_RESULT_SUCCESS, tracking)
        | (error, tracking) => (error, tracking)
      | (error, _, next) => (error, next)

end Driver

end NpuDriver
