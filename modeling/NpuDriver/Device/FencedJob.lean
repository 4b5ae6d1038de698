import NpuDriver.Command.Stream
import NpuDriver.Device.CommandQueue

/-! Submissions of a closed job, step by step, and the device that runs its command buffers concurrently, except
where fences order them. -/

namespace NpuDriver

open Library

structure FenceCommand where
  type : Nat
  address : Nat
  value : Nat
deriving DecidableEq, Repr

/-- The fields of `vpu_cmd_fence_t`, `none` for a command of another type. -/
def decodeFence (bytes : List UInt8) : Option FenceCommand :=
  let type := fromLittleEndian (bytes.take 2)
  if type = VPU_CMD_FENCE_WAIT ∨ type = VPU_CMD_FENCE_SIGNAL then
    some ⟨type, fromLittleEndian ((bytes.drop 8).take 8), fromLittleEndian ((bytes.drop 16).take 8)⟩
  else none

namespace VPUCommandBuffer

/-- The address of the fence word, in the 64 bits that a command has for it. -/
def fenceAddress (cb : VPUCommandBuffer) : Nat := (cb.buffer.vpuAddr + fenceValueOffset) % 2 ^ 64

def setFenceValue (cb : VPUCommandBuffer) (value : Nat) : VPUCommandBuffer :=
  { cb with image := cb.image.write fenceValueOffset (littleEndian 8 value) }

/-- The number of the user commands. -/
def userCount (cb : VPUCommandBuffer) : Nat := cb.commandsEnd - cb.commandsBegin

end VPUCommandBuffer

/-- A submission of a command buffer that the kernel has accepted; `commands` is what the device has read of it
when it started, `executed` how many of these have been run. -/
structure BufferRun where
  submission : Nat
  index : Nat
  commands : Option (List (List UInt8))
  executed : Nat
deriving DecidableEq, Repr

/-- A run that has not started. -/
def BufferRun.accepted (submission index : Nat) : BufferRun := ⟨submission, index, none, 0⟩

def BufferRun.finished (run : BufferRun) : Bool :=
  match run.commands with
  | none => false
  | some commands => commands.length ≤ run.executed

/-- The commands that have been run. -/
def BufferRun.done (run : BufferRun) : List (List UInt8) := (run.commands.getD []).take run.executed

/-- One step of a submission: those of `makeInOrder`, the patch for busy waiting, and the request. -/
inductive HostStep where
  | waitForCompletion
  | addWaitAtHead (waitFor : Option VPUBufferObject)
  | addSelfSignalAtTail
  | setInOrder
  | useBusyWait (index : Nat)
  | commandQueueSubmit (index : Nat) (isTurbo : Bool)
deriving DecidableEq, Repr

/-- `makeInOrder`. -/
def orderSteps (job : VPUJob) (waitFor : Option VPUBufferObject) : List HostStep :=
  match job.cmdBuffers with
  | [] => []
  | front :: _ =>
    if waitFor.map VPUBufferObject.id = some front.buffer.id then
      [.waitForCompletion, .addWaitAtHead none, .addSelfSignalAtTail, .setInOrder]
    else [.addWaitAtHead waitFor, .addSelfSignalAtTail, .setInOrder]

/-- `submitCommandBuffer`. -/
def requestSteps (isTurbo : Bool) (index : Nat) : List HostStep :=
  (if isTurbo then [.useBusyWait index] else []) ++ [.commandQueueSubmit index isTurbo]

/-- `VPUDeviceQueueManaged::submit` of a job that need not be taken out of an in-order chain. -/
def submitSteps (queue : VPUDeviceQueueManaged) (job : VPUJob) : List HostStep :=
  (if queue.isInOrder then orderSteps job queue.lastWaitBo else []) ++
    (List.range job.cmdBuffers.length).flatMap (requestSteps queue.isTurbo)

/-- The command buffers that `closeCommands` has made of a job, with the submission that is under way and the runs
of the ones before it. -/
structure FencedJob where
  ctx : VPUDeviceContext
  job : VPUJob
  submissions : Nat
  pending : List HostStep
  runs : List BufferRun

/-- `hostBusy` is an `EBUSY` reply and `hostStop` any failure of the host's next step. A fence word behind the job's
last command buffer is also written by others. -/
inductive FencedAction where
  | hostStep
  | hostBusy
  | hostStop
  | start (run : Nat)
  | execute (run : Nat)
  | storeLast (value : Nat)
deriving DecidableEq, Repr

namespace FencedJob

def closed (job : VPUJob) (ctx : VPUDeviceContext) : FencedJob := ⟨ctx, job, 0, [], []⟩

def submit (fenced : FencedJob) (queue : VPUDeviceQueueManaged) : FencedJob :=
  { fenced with submissions := fenced.submissions + 1, pending := submitSteps queue fenced.job }

def setBuffers (fenced : FencedJob) (cmdBuffers : List VPUCommandBuffer) : FencedJob :=
  { fenced with job := { fenced.job with cmdBuffers := cmdBuffers } }

/-- A patch that fails ends the submission. -/
def patch (fenced : FencedJob) (index : Nat) (change : VPUCommandBuffer → Bool × VPUCommandBuffer)
    (rest : List HostStep) : FencedJob :=
  match fenced.job.cmdBuffers[index]? with
  | none => { fenced with pending := [] }
  | some cb =>
    match change cb with
    | (false, patched) =>
      { fenced.setBuffers (fenced.job.cmdBuffers.set index patched) with pending := [] }
    | (true, patched) =>
      { fenced.setBuffers (fenced.job.cmdBuffers.set index patched) with pending := rest }

/-- The next step of the submission, when it succeeds. The host stays in `waitForCompletion` until the kernel sees
no run of the first command buffer. -/
def hostStep (fenced : FencedJob) : FencedJob :=
  match fenced.pending with
  | [] => fenced
  | .waitForCompletion :: rest =>
    if fenced.runs.all fun run => run.index ≠ 0 || run.finished then
      fenced.patch 0 (fun front => (true, front.release.resetFenceValue)) rest
    else fenced
  | .addWaitAtHead waitFor :: rest =>
    fenced.patch 0 (fun front => front.addWaitAtHead fenced.ctx waitFor true) rest
  | .addSelfSignalAtTail :: rest =>
    fenced.patch (fenced.job.cmdBuffers.length - 1) VPUCommandBuffer.addSelfSignalAtTail rest
  | .setInOrder :: rest =>
    { fenced with job := { fenced.job with hasInOrderWorkload := true }, pending := rest }
  | .useBusyWait index :: rest => fenced.patch index (fun cb => (true, cb.useBusyWait)) rest
  | .commandQueueSubmit index _ :: rest =>
    { fenced with pending := rest, runs := fenced.runs ++ [.accepted fenced.submissions index] }

/-- A request that is repeated is prepared again. -/
def hostBusy (fenced : FencedJob) : FencedJob :=
  match fenced.pending with
  | .commandQueueSubmit index isTurbo :: rest => { fenced with pending := requestSteps isTurbo index ++ rest }
  | _ => fenced

/-- The device reads the commands of a run that has not started. -/
def start (fenced : FencedJob) (position : Nat) : FencedJob :=
  match fenced.runs[position]? with
  | none => fenced
  | some run =>
    match run.commands, fenced.job.cmdBuffers[run.index]? with
    | none, some cb =>
      { fenced with runs := fenced.runs.set position { run with commands := cb.readCommands } }
    | _, _ => fenced

/-- A fence word outside the job's command buffers may have any value. -/
def waitPasses (fenced : FencedJob) (fence : FenceCommand) : Bool :=
  fenced.job.cmdBuffers.all fun cb => cb.fenceAddress ≠ fence.address || fence.value ≤ cb.fenceValue

def storeFence (fenced : FencedJob) (fence : FenceCommand) : FencedJob :=
  fenced.setBuffers (fenced.job.cmdBuffers.map fun cb =>
    if cb.fenceAddress = fence.address then cb.setFenceValue fence.value else cb)

/-- The device runs the next command. What a command other than a fence writes is not part of the job's fences. -/
def execute (fenced : FencedJob) (position : Nat) : FencedJob :=
  match fenced.runs[position]? with
  | none => fenced
  | some run =>
    match (run.commands.getD [])[run.executed]? with
    | none => fenced
    | some bytes =>
      let advanced := { fenced with
        runs := fenced.runs.set position { run with executed := run.executed + 1 } }
      match decodeFence bytes with
      | none => advanced
      | some fence =>
        if fence.type = VPU_CMD_FENCE_WAIT then if fenced.waitPasses fence then advanced else fenced
        else advanced.storeFence fence

def step (fenced : FencedJob) : FencedAction → FencedJob
  | .hostStep => fenced.hostStep
  | .hostBusy => fenced.hostBusy
  | .hostStop => { fenced with pending := [] }
  | .start position => fenced.start position
  | .execute position => fenced.execute position
  | .storeLast value =>
    fenced.setBuffers (fenced.job.cmdBuffers.modify (fenced.job.cmdBuffers.length - 1) (·.setFenceValue value))

end FencedJob

/-- A job with the command buffers it has, and with those it had before `stripInOrder`: their runs go on. -/
structure JobHistory where
  earlier : List FencedJob
  current : FencedJob

inductive JobAction where
  | submit (queue : VPUDeviceQueueManaged)
  | act (action : FencedAction)
  | actEarlier (position : Nat) (action : FencedAction)

namespace JobHistory

/-- The next submission begins when the one before it has ended. The queue is as the jobs before this one have
left it. -/
def submit (history : JobHistory) (queue : VPUDeviceQueueManaged) : JobHistory :=
  if !history.current.pending.isEmpty then history
  else if queue.isInOrder || !history.current.job.hasInOrderWorkload then
    { history with current := history.current.submit queue }
  else if !history.current.job.closed then history
  else
    match history.current.job.stripInOrder history.current.ctx with
    | (success, stripped, next) =>
      { earlier := history.earlier ++ [history.current]
        current := if success then (FencedJob.closed stripped next).submit queue else .closed stripped next }

def step (history : JobHistory) : JobAction → JobHistory
  | .submit queue => history.submit queue
  | .act action => { history with current := history.current.step action }
  | .actEarlier position action => { history with earlier := history.earlier.modify position (·.step action) }

def closed (job : VPUJob) (ctx : VPUDeviceContext) : JobHistory :=
  ⟨[], .closed (job.closeCommands ctx).2.1 (job.closeCommands ctx).2.2⟩

end JobHistory

end NpuDriver
