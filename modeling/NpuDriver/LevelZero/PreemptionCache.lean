import NpuDriver.Device.DeviceContext
import NpuDriver.Library.SharedPool

/-! The cache of preemption buffers with the command queues and command buffers that hold them. -/

namespace NpuDriver

open Library

/-- A command queue as far as it concerns preemption; it is not `live` behind its destructor. -/
structure PreemptionQueue where
  preemptionBuffer : Option VPUBufferObject
  live : Bool
deriving DecidableEq, Repr

/-- A command buffer as far as it concerns preemption: `submitted` lists its submissions that have not
been waited for, with the queue and the preemption buffer that the kernel was given. -/
structure PreemptionUser where
  job : Nat
  preemptionBuffer : Option VPUBufferObject
  submitted : List (Nat × Option VPUBufferObject)
deriving DecidableEq, Repr

/-- `VPUCommandBuffer::addPreemptionBuffer` of a non-null buffer. -/
def PreemptionUser.addPreemptionBuffer (user : PreemptionUser) (bo : VPUBufferObject) : PreemptionUser :=
  match user.preemptionBuffer with
  | some _ => user
  | none => { user with preemptionBuffer := some bo }

/-- What a wait or the destructor leaves behind. -/
def PreemptionUser.released (user : PreemptionUser) : PreemptionUser :=
  { user with preemptionBuffer := none, submitted := [] }

/-- `numQueues` and the buffers in `ctx` are those of `PreemptionCacheFactory`. -/
structure PreemptionState where
  ctx : VPUDeviceContext
  numQueues : Nat
  queues : List PreemptionQueue
  users : List PreemptionUser

/-- `destroyQueue` is the destructor behind its `synchronize`, whose waits are calls of their own, as are
those of `waitForJobs`, which ends in `putBackPreemptionBuffer`. The idle cleaner calls `releaseMemory`. -/
inductive PreemptionCall where
  | createQueue
  | destroyQueue (queue : Nat)
  | closeCommands (job count : Nat)
  | acquirePreemptionBuffer (queue : Nat)
  | addPreemptionBuffer (queue job : Nat)
  | submit (queue user : Nat) (accepted : Bool)
  | waitForCompletion (user : Nat) (granted : Bool)
  | putBackPreemptionBuffer (queue : Nat)
  | destroyCommands (job : Nat)
  | releaseMemory
deriving DecidableEq, Repr

namespace PreemptionState

def queueReferences (state : PreemptionState) : List (Option VPUBufferObject) :=
  state.queues.map PreemptionQueue.preemptionBuffer

def userReferences (state : PreemptionState) : List (Option VPUBufferObject) :=
  state.users.map PreemptionUser.preemptionBuffer

def references (state : PreemptionState) : List (Option VPUBufferObject) :=
  state.queueReferences ++ state.userReferences

def uses (state : PreemptionState) (bo : VPUBufferObject) : Nat :=
  useCount state.ctx.preemptionBuffers state.references bo

/-- The context with the reference counts of this state. -/
def counted (state : PreemptionState) : VPUDeviceContext := { state.ctx with useCount := fun _ => state.uses }

def liveQueues (state : PreemptionState) : Nat := (state.queues.filter PreemptionQueue.live).length

/-- `PreemptionCacheFactory::prune`. -/
def prune (state : PreemptionState) : PreemptionState :=
  let numQueues := if state.numQueues > 0 then state.numQueues - 1 else state.numQueues
  let size := state.ctx.preemptionBuffers.length
  let numQueuesToRemove := if size > numQueues then size - numQueues else size
  { state with
    numQueues := numQueues
    ctx := { state.ctx with
      preemptionBuffers :=
        dropIdle (fun bo => state.uses bo == 1) numQueuesToRemove state.ctx.preemptionBuffers } }

def setQueue (state : PreemptionState) (index : Nat) (queue : PreemptionQueue) : PreemptionState :=
  { state with queues := state.queues.set index queue }

/-- A step on a queue that is live. -/
def withQueue (state : PreemptionState) (index : Nat) (change : PreemptionQueue → PreemptionState) :
    PreemptionState :=
  match state.queues[index]? with
  | none => state
  | some queue => if queue.live then change queue else state

def withUser (state : PreemptionState) (index : Nat) (change : PreemptionUser → PreemptionState) :
    PreemptionState :=
  match state.users[index]? with
  | none => state
  | some user => change user

def createQueue (state : PreemptionState) : PreemptionState :=
  { state with numQueues := state.numQueues + 1, queues := state.queues ++ [⟨none, true⟩] }

def destroyQueue (state : PreemptionState) (index : Nat) : PreemptionState :=
  (state.setQueue index ⟨none, false⟩).prune

/-- The beginning of `executeCommandLists`. -/
def acquirePreemptionBuffer (state : PreemptionState) (index : Nat) (queue : PreemptionQueue) :
    PreemptionState :=
  if state.ctx.isPreemptionBufferSupported then
    match queue.preemptionBuffer with
    | some _ => state
    | none =>
      match state.counted.preemptionCacheAcquire with
      | (bo, ctx) => { state with ctx := ctx }.setQueue index { queue with preemptionBuffer := bo }
  else state

/-- `VPUJob::addPreemptionBuffer`, unless the queue has no preemption buffer. -/
def addPreemptionBuffer (state : PreemptionState) (queue : PreemptionQueue) (job : Nat) : PreemptionState :=
  match queue.preemptionBuffer with
  | none => state
  | some bo =>
    { state with
      users := state.users.map fun user => if user.job = job then user.addPreemptionBuffer bo else user }

def submit (state : PreemptionState) (index user : Nat) (held : PreemptionUser) (accepted : Bool) :
    PreemptionState :=
  if accepted then
    { state with
      users := state.users.set user { held with submitted := (index, held.preemptionBuffer) :: held.submitted } }
  else state

def waitForCompletion (state : PreemptionState) (index : Nat) (user : PreemptionUser) (granted : Bool) :
    PreemptionState :=
  if granted then { state with users := state.users.set index user.released } else state

def putBackPreemptionBuffer (state : PreemptionState) (index : Nat) (queue : PreemptionQueue) :
    PreemptionState :=
  match queue.preemptionBuffer with
  | none => state
  | some bo =>
    if state.ctx.isPreemptionBufferSupported ∧ state.uses bo = 2 then
      state.setQueue index { queue with preemptionBuffer := none }
    else state

/-- The destructors of a job's command buffers. -/
def destroyCommands (state : PreemptionState) (job : Nat) : PreemptionState :=
  { state with users := state.users.map fun user => if user.job = job then user.released else user }

def closeCommands (state : PreemptionState) (job count : Nat) : PreemptionState :=
  { state with users := state.users ++ List.replicate count ⟨job, none, []⟩ }

def step (state : PreemptionState) : PreemptionCall → PreemptionState
  | .createQueue => state.createQueue
  | .destroyQueue queue => state.withQueue queue fun _ => state.destroyQueue queue
  | .closeCommands job count => state.closeCommands job count
  | .acquirePreemptionBuffer queue => state.withQueue queue (state.acquirePreemptionBuffer queue)
  | .addPreemptionBuffer queue job => state.withQueue queue fun held => state.addPreemptionBuffer held job
  | .submit queue user accepted =>
    state.withQueue queue fun _ => state.withUser user fun held => state.submit queue user held accepted
  | .waitForCompletion user granted => state.withUser user fun held => state.waitForCompletion user held granted
  | .putBackPreemptionBuffer queue => state.withQueue queue (state.putBackPreemptionBuffer queue)
  | .destroyCommands job => state.destroyCommands job
  | .releaseMemory => state.prune

def initial (ctx : VPUDeviceContext) : PreemptionState :=
  { ctx := { ctx with preemptionBuffers := [] }, numQueues := 0, queues := [], users := [] }

end PreemptionState

end NpuDriver
