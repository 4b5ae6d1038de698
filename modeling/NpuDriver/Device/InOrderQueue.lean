import NpuDriver.Device.FencedJob

/-! An in-order queue: submissions of several closed jobs, step by step, and the device that starts their command
buffers in the order of submission and then runs them concurrently, except where fences order them. -/

namespace NpuDriver

open Library

/-- Where a command buffer stands among those of all jobs. -/
structure Slot where
  job : Nat
  index : Nat
deriving DecidableEq, Repr

/-- A command buffer of one of the jobs that the kernel has accepted. -/
structure QueueRun extends BufferRun where
  job : Nat
deriving DecidableEq, Repr

namespace QueueRun

def slot (run : QueueRun) : Slot := ⟨run.job, run.index⟩

def accepted (submission : Nat) (slot : Slot) : QueueRun := ⟨.accepted submission slot.index, slot.job⟩

end QueueRun

/-- `submitted` lists the job of each submission, the last of them is under way while steps are pending. -/
structure InOrderQueue where
  ctx : VPUDeviceContext
  queue : VPUDeviceQueueManaged
  jobs : List VPUJob
  submitted : List Nat
  pending : List HostStep
  runs : List QueueRun

/-- `hostBusy` is an `EBUSY` reply. -/
inductive QueueAction where
  | submit (job : Nat)
  | hostStep
  | hostBusy
  | start (run : Nat)
  | execute (run : Nat)
deriving DecidableEq, Repr

/-- The jobs are closed one after the other. -/
def closeJobs (ctx : VPUDeviceContext) : List VPUJob → List VPUJob × VPUDeviceContext
  | [] => ([], ctx)
  | job :: rest =>
    match job.closeCommands ctx with
    | (_, closed, next) =>
      match closeJobs next rest with
      | (others, final) => (closed :: others, final)

namespace InOrderQueue

def opened (queue : VPUDeviceQueueManaged) (jobs : List VPUJob) (ctx : VPUDeviceContext) : InOrderQueue where
  ctx := (closeJobs ctx jobs).2
  queue := queue
  jobs := (closeJobs ctx jobs).1
  submitted := []
  pending := []
  runs := []

def bufferAt (state : InOrderQueue) (slot : Slot) : Option VPUCommandBuffer :=
  state.jobs[slot.job]?.bind fun job => job.cmdBuffers[slot.index]?

/-- The number of the command buffers of a job. -/
def count (state : InOrderQueue) (job : Nat) : Nat := (state.jobs[job]?.map fun job => job.cmdBuffers.length).getD 0

def modifyJob (state : InOrderQueue) (job : Nat) (change : VPUJob → VPUJob) : InOrderQueue :=
  { state with jobs := state.jobs.modify job change }

def setBuffer (state : InOrderQueue) (slot : Slot) (cb : VPUCommandBuffer) : InOrderQueue :=
  state.modifyJob slot.job fun job => { job with cmdBuffers := job.cmdBuffers.set slot.index cb }

def mapBuffers (state : InOrderQueue) (change : VPUCommandBuffer → VPUCommandBuffer) : InOrderQueue :=
  { state with jobs := state.jobs.map fun job => { job with cmdBuffers := job.cmdBuffers.map change } }

def currentJob (state : InOrderQueue) : Nat := state.submitted.getLast?.getD 0

/-- The first and the last command buffer of the job under way. -/
def front (state : InOrderQueue) : Slot := ⟨state.currentJob, 0⟩

def back (state : InOrderQueue) : Slot := ⟨state.currentJob, state.count state.currentJob - 1⟩

/-- `submit` of a closed job, when the one before it has returned. -/
def submit (state : InOrderQueue) (job : Nat) : InOrderQueue :=
  if !state.pending.isEmpty then state
  else
    match state.jobs[job]? with
    | none => state
    | some closed =>
      if !closed.closed || closed.cmdBuffers.isEmpty then state
      else { state with submitted := state.submitted ++ [job], pending := submitSteps state.queue closed }

def patch (state : InOrderQueue) (slot : Slot) (change : VPUCommandBuffer → Bool × VPUCommandBuffer)
    (rest : List HostStep) : InOrderQueue :=
  match state.bufferAt slot with
  | none => { state with pending := [] }
  | some cb =>
    match change cb with
    | (false, patched) => { state.setBuffer slot patched with pending := [] }
    | (true, patched) => { state.setBuffer slot patched with pending := rest }

def setLastWaitBo (state : InOrderQueue) (waitFor : Option VPUBufferObject) : InOrderQueue :=
  { state with queue := { state.queue with lastWaitBo := waitFor } }

/-- The next step of the submission. The host stays in `waitForCompletion` until the kernel sees no run of the first
command buffer. -/
def hostStep (state : InOrderQueue) : InOrderQueue :=
  match state.pending with
  | [] => state
  | .waitForCompletion :: rest =>
    if state.runs.all fun run => run.slot ≠ state.front || run.finished then
      (state.setLastWaitBo none).patch state.front (fun front => (true, front.release.resetFenceValue)) rest
    else state
  | .addWaitAtHead waitFor :: rest => state.patch state.front (·.addWaitAtHead state.ctx waitFor true) rest
  | .addSelfSignalAtTail :: rest => state.patch state.back VPUCommandBuffer.addSelfSignalAtTail rest
  | .setInOrder :: rest =>
    { (state.modifyJob state.currentJob fun job => { job with hasInOrderWorkload := true }).setLastWaitBo
        ((state.bufferAt state.back).map VPUCommandBuffer.buffer) with pending := rest }
  | .useBusyWait index :: rest => state.patch ⟨state.currentJob, index⟩ (fun cb => (true, cb.useBusyWait)) rest
  | .commandQueueSubmit index _ :: rest =>
    { state with
      pending := rest
      runs := state.runs ++ [.accepted (state.submitted.length - 1) ⟨state.currentJob, index⟩] }

/-- A request that is repeated is prepared again. -/
def hostBusy (state : InOrderQueue) : InOrderQueue :=
  match state.pending with
  | .commandQueueSubmit index isTurbo :: rest => { state with pending := requestSteps isTurbo index ++ rest }
  | _ => state

def setRun (state : InOrderQueue) (position : Nat) (run : QueueRun) : InOrderQueue :=
  { state with runs := state.runs.set position run }

/-- The device reads the commands of the next run in the order of submission. -/
def start (state : InOrderQueue) (position : Nat) : InOrderQueue :=
  match state.runs[position]? with
  | none => state
  | some run =>
    match run.commands, state.bufferAt run.slot with
    | none, some cb =>
      if (state.runs.take position).all fun earlier => earlier.commands.isSome then
        state.setRun position { run with commands := cb.readCommands }
      else state
    | _, _ => state

/-- A fence word outside the command buffers may have any value. -/
def waitPasses (state : InOrderQueue) (fence : FenceCommand) : Bool :=
  state.jobs.all fun job => job.cmdBuffers.all fun cb =>
    cb.fenceAddress ≠ fence.address || fence.value ≤ cb.fenceValue

def storeFence (state : InOrderQueue) (fence : FenceCommand) : InOrderQueue :=
  state.mapBuffers fun cb => if cb.fenceAddress = fence.address then cb.setFenceValue fence.value else cb

/-- The device runs the next command. What a command other than a fence writes is not part of the fences. -/
def execute (state : InOrderQueue) (position : Nat) : InOrderQueue :=
  match state.runs[position]? with
  | none => state
  | some run =>
    match (run.commands.getD [])[run.executed]? with
    | none => state
    | some bytes =>
      let advanced := state.setRun position { run with executed := run.executed + 1 }
      match decodeFence bytes with
      | none => advanced
      | some fence =>
        if fence.type = VPU_CMD_FENCE_WAIT then if state.waitPasses fence then advanced else state
        else advanced.storeFence fence

def step (state : InOrderQueue) : QueueAction → InOrderQueue
  | .submit job => state.submit job
  | .hostStep => state.hostStep
  | .hostBusy => state.hostBusy
  | .start position => state.start position
  | .execute position => state.execute position

end InOrderQueue

end NpuDriver
