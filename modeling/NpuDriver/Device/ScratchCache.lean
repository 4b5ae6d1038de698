import NpuDriver.Device.DeviceContext
import NpuDriver.Library.SharedPool

/-! The cache of scratch buffers with the command buffers that use it. -/

namespace NpuDriver

open Library

/-- A command buffer as far as it concerns scratch memory: its job, `inferenceScratchSize`,
`inferenceScratchBuffer`, and the buffer that its commands were last patched with. It is not `alive`
behind its destructor. -/
structure ScratchUser where
  job : Nat
  inferenceScratchSize : Nat
  inferenceScratchBuffer : Option VPUBufferObject
  patched : Option VPUBufferObject
  alive : Bool
deriving DecidableEq, Repr

def ScratchUser.new (job size : Nat) : ScratchUser := ⟨job, size, none, none, true⟩

def ScratchUser.destroyed (user : ScratchUser) : ScratchUser :=
  { user with inferenceScratchBuffer := none, alive := false }

/-- `running` lists the submissions that the device has not completed: the command buffer, and the
scratch buffer that it was patched with. -/
structure ScratchState where
  ctx : VPUDeviceContext
  users : List ScratchUser
  running : List (Nat × VPUBufferObject)

/-- `granted` and `accepted` are the kernel's answers. -/
inductive ScratchCall where
  | acquire (size : Nat)
  | preload (size : Nat)
  | prune (size : Nat)
  | closeCommands (job : Nat) (sizes : List Nat)
  | updateCommands (user : Nat)
  | submit (user : Nat) (accepted : Bool)
  | complete (submission : Nat)
  | waitForCompletion (user : Nat) (granted : Bool)
  | stripInOrder (job : Nat)
  | destroy (job : Nat)
deriving DecidableEq, Repr

namespace ScratchState

def references (state : ScratchState) : List (Option VPUBufferObject) :=
  state.users.map ScratchUser.inferenceScratchBuffer

/-- The context with the reference counts of this state. -/
def counted (state : ScratchState) : VPUDeviceContext :=
  { state.ctx with useCount := fun _ => useCount state.ctx.scratchBuffers state.references }

def acquire (state : ScratchState) (size : Nat) : Option VPUBufferObject × ScratchState :=
  match state.counted.scratchCacheAcquire size with
  | (acquired, ctx) => (acquired, { state with ctx := ctx })

/-- `ScratchCacheFactory::prune`. -/
def prune (state : ScratchState) (size : Nat) : ScratchState :=
  if size = 0 then state
  else
    { state with
      ctx := { state.ctx with
        scratchBuffers := state.ctx.scratchBuffers.filter fun bo =>
          ¬ (useCount state.ctx.scratchBuffers state.references bo = 1 ∧ bo.allocSize ≤ size) } }

/-- `scratchCachePreload`. -/
def preload (state : ScratchState) (size : Nat) : ScratchState :=
  if size = 0 then state else ((state.prune (size - 1)).acquire size).2

/-- `VPUCommandBuffer::updateCommands`; the old buffer is held while the new one is acquired. -/
def updateCommands (state : ScratchState) (index : Nat) (user : ScratchUser) : ScratchState :=
  if user.inferenceScratchSize = 0 then state
  else
    match state.acquire user.inferenceScratchSize with
    | (none, next) =>
      { next with users := next.users.set index { user with inferenceScratchBuffer := none } }
    | (some bo, next) =>
      { next with
        users := next.users.set index { user with inferenceScratchBuffer := some bo, patched := some bo } }

/-- The kernel reads the patched commands. -/
def submit (state : ScratchState) (index : Nat) (user : ScratchUser) (accepted : Bool) : ScratchState :=
  if accepted then { state with running := state.running ++ (user.patched.map fun bo => (index, bo)).toList }
  else state

/-- A wait succeeds only when the device has completed the command buffer. -/
def waitForCompletion (state : ScratchState) (index : Nat) (user : ScratchUser) (granted : Bool) :
    ScratchState :=
  if granted ∧ index ∉ state.running.map Prod.fst then
    { state with users := state.users.set index { user with inferenceScratchBuffer := none } }
  else state

/-- The destructors of a job's command buffers. -/
def destroy (state : ScratchState) (job : Nat) : ScratchState :=
  { state with users := state.users.map fun user => if user.job = job then user.destroyed else user }

/-- The command buffers of a closed job. -/
def closeCommands (state : ScratchState) (job : Nat) (sizes : List Nat) : ScratchState :=
  { state with users := state.users ++ sizes.map (ScratchUser.new job) }

/-- The sizes of a job's command buffers, which depend on its commands only. -/
def sizesOf (state : ScratchState) (job : Nat) : List Nat :=
  (state.users.filter fun user => user.job = job ∧ user.alive).map ScratchUser.inferenceScratchSize

/-- A step on a command buffer that is alive. -/
def withUser (state : ScratchState) (index : Nat) (change : ScratchUser → ScratchState) : ScratchState :=
  match state.users[index]? with
  | none => state
  | some user => if user.alive then change user else state

def step (state : ScratchState) : ScratchCall → ScratchState
  | .acquire size => (state.acquire size).2
  | .preload size => state.preload size
  | .prune size => state.prune size
  | .closeCommands job sizes => state.closeCommands job sizes
  | .updateCommands user => state.withUser user (state.updateCommands user)
  | .submit user accepted => state.withUser user fun held => state.submit user held accepted
  | .complete submission => { state with running := state.running.eraseIdx submission }
  | .waitForCompletion user granted => state.withUser user fun held => state.waitForCompletion user held granted
  | .stripInOrder job => (state.destroy job).closeCommands job (state.sizesOf job)
  | .destroy job => state.destroy job

def initial (ctx : VPUDeviceContext) : ScratchState := ⟨{ ctx with scratchBuffers := [] }, [], []⟩

end ScratchState

end NpuDriver
