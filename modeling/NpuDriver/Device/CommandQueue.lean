import NpuDriver.Command.Job

/-! The managed device queue: submission of a job's command buffers to the kernel. -/

namespace NpuDriver

/-- The managed queue. `IN_ORDER` and `TURBO` are the mode flags it was created with. -/
structure VPUDeviceQueueManaged where
  currentId : Nat
  defaultId : Nat
  backgroundId : Nat
  isInOrder : Bool
  isTurbo : Bool
  lastWaitBo : Option VPUBufferObject

namespace VPUDeviceQueueManaged

/-- One `submitCommandBuffer`: the arguments are read before the buffer is prepared for busy
waiting, which can only append to the list of handles, so that the kernel reads the old one. -/
def submitCommandBuffer (queue : VPUDeviceQueueManaged) (cmdBuf : VPUCommandBuffer)
    (ctx : VPUDeviceContext) (accepted : Bool) : VPUCommandBuffer × VPUDeviceContext :=
  let index := cmdBuf.getPreemptionBufferIndex
  let prepared := if queue.isTurbo then cmdBuf.useBusyWait else cmdBuf
  (prepared,
    { ctx with
      calls := ctx.calls ++
        [.submit cmdBuf.buffer cmdBuf.bufferHandles index queue.currentId accepted] })

/-- The attempts that the kernel answers with `EBUSY` and that are repeated. -/
def submitBusy (queue : VPUDeviceQueueManaged) :
    Nat → VPUCommandBuffer → VPUDeviceContext → VPUCommandBuffer × VPUDeviceContext
  | 0, cmdBuf, ctx => (cmdBuf, ctx)
  | attempts + 1, cmdBuf, ctx =>
    let tried := queue.submitCommandBuffer cmdBuf ctx false
    submitBusy queue attempts tried.1 tried.2

/-- The inner loop of `submitWithWait`. -/
def submitUntilReply (queue : VPUDeviceQueueManaged) (cmdBuf : VPUCommandBuffer)
    (ctx : VPUDeviceContext) : Bool × VPUCommandBuffer × VPUDeviceContext :=
  let answer := ctx.drvApi.commandQueueSubmit ctx.calls.length
  let tried := queue.submitBusy answer.busyReplies cmdBuf ctx
  match answer.outcome with
  | .accepted => (true, queue.submitCommandBuffer tried.1 tried.2 true)
  | .failed errno | .timedOut errno =>
    let last := queue.submitCommandBuffer tried.1 tried.2 false
    (false, last.1, { last.2 with errno := errno })

/-- The outer loop of `submitWithWait`. -/
def submitEach (queue : VPUDeviceQueueManaged) (ctx : VPUDeviceContext) :
    List VPUCommandBuffer → Bool × List VPUCommandBuffer × VPUDeviceContext
  | [] => (true, [], ctx)
  | cmdBuf :: rest =>
    match queue.submitUntilReply cmdBuf ctx with
    | (false, submitted, next) => (false, submitted :: rest, next)
    | (true, submitted, next) =>
      match submitEach queue next rest with
      | (success, others, final) => (success, submitted :: others, final)

def submitWithWait (queue : VPUDeviceQueueManaged) (job : VPUJob) (ctx : VPUDeviceContext) :
    Bool × VPUJob × VPUDeviceContext :=
  if job.cmdBuffers = [] then (false, job, ctx)
  else
    match queue.submitEach ctx job.cmdBuffers with
    | (success, cmdBuffers, next) => (success, { job with cmdBuffers := cmdBuffers }, next)

/-- What a submission leaves behind. -/
structure Submitted where
  success : Bool
  queue : VPUDeviceQueueManaged
  job : VPUJob
  ctx : VPUDeviceContext

/-- The part of `submit` before the kernel is called: the job is put into the in-order chain,
or taken out of one. -/
def prepare (queue : VPUDeviceQueueManaged) (job : VPUJob) (ctx : VPUDeviceContext) : Submitted :=
  if queue.isInOrder then
    let ordered := job.makeInOrder queue.lastWaitBo ctx
    ⟨ordered.success, { queue with lastWaitBo := ordered.waitFor }, ordered.job, ordered.ctx⟩
  else if job.hasInOrderWorkload then
    match job.stripInOrder ctx with
    | (success, stripped, next) => ⟨success, queue, stripped, next⟩
  else ⟨true, queue, job, ctx⟩

def submit (queue : VPUDeviceQueueManaged) (job : VPUJob) (ctx : VPUDeviceContext) : Submitted :=
  let prepared := queue.prepare job ctx
  if !prepared.success then prepared
  else
    match prepared.queue.submitWithWait prepared.job prepared.ctx with
    | (success, submitted, next) => ⟨success, prepared.queue, submitted, next⟩

end VPUDeviceQueueManaged

end NpuDriver
