import NpuDriver.Library.Runs
import NpuDriver.Device.Timer
import NpuDriver.LevelZero.CommandList

/-! The host's wait for an event, step by step beside other threads and the device. -/

namespace NpuDriver

open Library ZeResult

/-- Where `hostSynchronize` stands: in the loop over the associated jobs, in the one over the command buffers
of a job, in the wait for one of them, at the start of `queryStatus`, in the loop of `trackMetricData` (at its
check, at the query for the data, in its sleep), at the switch, or behind its return. It never comes there
when the process is aborted. -/
inductive WaitPoint where
  | idle
  | jobs (deadline : Nat) (left : List Nat)
  | buffers (deadline : Nat) (fences : List Nat) (left : List Nat)
  | waiting (deadline : Nat) (fences : List Nat) (left : List Nat)
  | query (deadline : Nat)
  | checking (deadline : Nat)
  | asking (deadline : Nat)
  | sleeping (deadline : Nat)
  | reading (deadline : Nat)
  | returned (deadline word time : Nat) (result : ZeResult)
  | aborted
deriving DecidableEq, Repr

/-- An event with the jobs that are alive, the word that signals it and the time. -/
structure EventWait where
  eventVpuAddr : Nat
  msExpectedDataSize : Nat
  msGroupMask : Nat
  associatedJobs : List Nat
  jobs : Nat → Option VPUJob
  word : Nat
  now : Nat
  point : WaitPoint

/-- The actions of other threads, the device and the clock, and those of the waiting call. The kernel's answer
to a wait is only logged. -/
inductive WaitAction where
  | hostSignal
  | hostReset
  | deviceSignal
  | deviceReset
  | elapse (time : Nat)
  | associateJob (job : Nat)
  | destroyJob (job : Nat)
  | hostSynchronize (timeout : Nat)
  | proceed
  | waitReturns (completed : Bool)
  | metricData (size : Option Nat)

/-- The switch of `queryStatus`. -/
def eventStatus (word : Nat) : ZeResult :=
  if word = STATE_EVENT_INITIAL ∨ word = STATE_HOST_RESET ∨ word = STATE_DEVICE_RESET then ZE_RESULT_NOT_READY
  else if word = STATE_HOST_SIGNAL ∨ word = STATE_DEVICE_SIGNAL then ZE_RESULT_SUCCESS
  else ZE_RESULT_ERROR_UNINITIALIZED

namespace EventWait

/-- `getFenceAddr` of the command buffers of a job. -/
def fenceAddrs (job : VPUJob) : List Nat := job.cmdBuffers.map VPUCommandBuffer.syncFenceVpuAddr

def isCalled (event : EventWait) : Bool :=
  match event.point with
  | .idle | .returned .. => false
  | _ => true

/-- The deadline, and the removal of the dangling weak pointers. -/
def hostSynchronize (event : EventWait) (timeout : Nat) : EventWait :=
  match getAbsoluteTimeoutNanoseconds event.now timeout with
  | none => { event with point := .aborted }
  | some deadline =>
    let live := event.associatedJobs.filter fun job => (event.jobs job).isSome
    { event with
      associatedJobs := live
      point := .jobs deadline.toNat live }

/-- The next step of the call that is not an answer of the kernel. -/
def proceed (event : EventWait) : EventWait :=
  match event.point with
  | .jobs deadline [] => { event with point := .query deadline }
  | .jobs deadline (name :: left) =>
    match event.jobs name with
    | none => { event with point := .jobs deadline left }
    | some job => { event with point := .buffers deadline (fenceAddrs job) left }
  | .buffers deadline [] left => { event with point := .jobs deadline left }
  | .buffers deadline (fence :: fences) left =>
    if fence = event.eventVpuAddr then { event with point := .waiting deadline fences left }
    else { event with point := .buffers deadline fences left }
  | .query deadline =>
    if event.msExpectedDataSize ≠ 0 ∧ event.word < STATE_DEVICE_SIGNAL then
      -- the first check of `trackMetricData`
      if event.msGroupMask = 0 then { event with point := .reading deadline }
      else { event with point := .checking deadline }
    else { event with point := .reading deadline }
  | .checking deadline =>
    if STATE_HOST_SIGNAL ≤ event.word then { event with point := .reading deadline }
    else { event with point := .asking deadline }
  | .sleeping deadline =>
    if event.now < deadline then { event with point := .checking deadline }
    else { event with point := .reading deadline }
  | .reading deadline =>
    { event with point := .returned deadline event.word event.now (eventStatus event.word) }
  | _ => event

/-- The answer to the query for the metric data, `none` where it failed. -/
def metricData (event : EventWait) (size : Option Nat) : EventWait :=
  match event.point, size with
  | .asking deadline, none => { event with point := .reading deadline }
  | .asking deadline, some size =>
    if event.msExpectedDataSize ≤ size then
      { event with word := STATE_HOST_SIGNAL, point := .reading deadline }
    else { event with point := .sleeping deadline }
  | _, _ => event

/-- Jobs are associated between the calls; an append beside a call would race with it. -/
def step (event : EventWait) : WaitAction → EventWait
  | .hostSignal => { event with word := STATE_HOST_SIGNAL }
  | .hostReset => { event with word := STATE_HOST_RESET }
  | .deviceSignal => { event with word := STATE_DEVICE_SIGNAL }
  | .deviceReset => { event with word := STATE_DEVICE_RESET }
  | .elapse time => { event with now := event.now + time }
  | .associateJob job =>
    if event.isCalled then event else { event with associatedJobs := event.associatedJobs ++ [job] }
  | .destroyJob job => { event with jobs := Function.update event.jobs job none }
  | .hostSynchronize timeout => if event.isCalled then event else event.hostSynchronize timeout
  | .proceed => event.proceed
  | .waitReturns _ =>
    match event.point with
    | .waiting deadline fences left => { event with point := .buffers deadline fences left }
    | _ => event
  | .metricData size => event.metricData size

end EventWait

end NpuDriver
