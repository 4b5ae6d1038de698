import NpuDriver.Device.ScratchCache
import NpuDriver.LevelZero.BlobAccess
import Mathlib.Logic.Function.Basic

/-! The scratch memory of graphs, from the requests of their loaders to the buffers of their inferences. -/

namespace NpuDriver

open Library

/-- The buffer manager of a parser, with the sizes of all shared scratch buffers that its loader has asked for. -/
structure ScratchParser where
  manager : DriverBufferManager
  requested : List Nat

/-- An inference in a command buffer: its parser, and the size that the loader had asked for last when it was
added. -/
structure AddedInference where
  parser : Nat
  lastRequested : Nat
deriving DecidableEq, Repr

/-- The scratch buffer that an update has bound to an inference, with what its loader had asked for by then. -/
structure ScratchBinding where
  requested : List Nat
  scratchBuffer : Option VPUBufferObject
deriving DecidableEq, Repr

/-- The parsers, their inference commands, and the command buffers that these are added to. A command buffer is
named by its position among the users of scratch memory. -/
structure GraphScratch where
  scratch : ScratchState
  parsers : Nat → ScratchParser
  inferences : List Nat
  added : Nat → List AddedInference
  bindings : List ScratchBinding

/-- `parsedInference` and `allocated` are what the loader returns of `getParsedInference` and
`getAllocatedBuffers`; `reached` counts the inferences that the loop of `updateCommands` comes to before one
fails to update. -/
inductive GraphScratchCall where
  | allocate (parser : Nat) (buffSpecs : BufferSpecs)
  | createInferenceExecuteCommand (parser : Nat) (parsedInference : DeviceBuffer) (allocated : List DeviceBuffer)
      (constructed : Bool)
  | createCommandBuffer (job : Nat)
  | addCommand (cmdBuffer inference : Nat)
  | updateCommands (cmdBuffer reached : Nat)
  | submit (cmdBuffer : Nat) (accepted : Bool)
  | complete (submission : Nat)
  | waitForCompletion (cmdBuffer : Nat) (granted : Bool)
  | destroyJob (job : Nat)
  | destroyParser (parser : Nat)
deriving DecidableEq, Repr

/-- A sharable buffer, which is not allocated but bound on submission. -/
def DriverBufferManager.sharesScratch (elf : ElfLibrary) (buffSpecs : BufferSpecs) : Bool :=
  buffSpecs.size ≠ 0 && buffSpecs.sharable && getBufferType elf buffSpecs.procFlags = .WriteCombineDma

/-- The loop over the allocated buffers in `createInferenceExecuteCommand`, which finds all but the empty ones
and the shared scratch buffer. -/
def DriverBufferManager.findsBuffers (manager : DriverBufferManager) (allocated : List DeviceBuffer) : Bool :=
  allocated.all fun buffer =>
    buffer.size = 0 || (buffer.cpuAddr = 0 && buffer.size = manager.sharedScratchSize) ||
      (manager.findBuffer buffer.cpuAddr).isSome

namespace GraphScratch

/-- The parsers share the context of the cache. -/
def allocate (elf : ElfLibrary) (state : GraphScratch) (parser : Nat) (buffSpecs : BufferSpecs) : GraphScratch :=
  let held := state.parsers parser
  match DriverBufferManager.allocate elf { held.manager with ctx := state.scratch.ctx } buffSpecs with
  | .error _ => state
  | .ok (_, manager) =>
    let scratch := { state.scratch with ctx := manager.ctx }
    if DriverBufferManager.sharesScratch elf buffSpecs then
      { state with
        scratch := scratch.preload buffSpecs.size
        parsers := Function.update state.parsers parser ⟨manager, held.requested ++ [buffSpecs.size]⟩ }
    else
      { state with
        scratch := scratch
        parsers := Function.update state.parsers parser ⟨manager, held.requested⟩ }

def createInferenceExecuteCommand (state : GraphScratch) (parser : Nat) (parsedInference : DeviceBuffer)
    (allocated : List DeviceBuffer) (constructed : Bool) : GraphScratch :=
  let manager := (state.parsers parser).manager
  if (manager.findBuffer parsedInference.cpuAddr).isSome && manager.findsBuffers allocated && constructed then
    { state with inferences := state.inferences ++ [parser] }
  else state

def addCommand (state : GraphScratch) (cmdBuffer : Nat) (user : ScratchUser) (parser : Nat) : GraphScratch :=
  let held := state.parsers parser
  let scratchSize := max user.inferenceScratchSize held.manager.sharedScratchSize
  { state with
    scratch := { state.scratch with
      users := state.scratch.users.set cmdBuffer { user with inferenceScratchSize := scratchSize } }
    added := Function.update state.added cmdBuffer
      (state.added cmdBuffer ++ [⟨parser, held.requested.getLast?.getD 0⟩]) }

/-- `updateScratchBuffer`, which does nothing for a parser without shared scratch. -/
def bind (state : GraphScratch) (scratchBuffer : Option VPUBufferObject) (inference : AddedInference) :
    Option ScratchBinding :=
  let held := state.parsers inference.parser
  if held.manager.sharedScratchSize = 0 then none else some ⟨held.requested, scratchBuffer⟩

def updateCommands (state : GraphScratch) (cmdBuffer reached : Nat) (user : ScratchUser) : GraphScratch :=
  let scratch := state.scratch.updateCommands cmdBuffer user
  let scratchBuffer := scratch.users[cmdBuffer]?.bind ScratchUser.inferenceScratchBuffer
  if user.inferenceScratchSize ≠ 0 ∧ scratchBuffer = none then { state with scratch := scratch }
  else
    { state with
      scratch := scratch
      bindings := state.bindings ++ ((state.added cmdBuffer).take reached).filterMap (state.bind scratchBuffer) }

/-- A step on a command buffer that is alive. -/
def withUser (state : GraphScratch) (cmdBuffer : Nat) (change : ScratchUser → GraphScratch) : GraphScratch :=
  match state.scratch.users[cmdBuffer]? with
  | none => state
  | some user => if user.alive then change user else state

def step (elf : ElfLibrary) (state : GraphScratch) : GraphScratchCall → GraphScratch
  | .allocate parser buffSpecs => state.allocate elf parser buffSpecs
  | .createInferenceExecuteCommand parser parsedInference allocated constructed =>
    state.createInferenceExecuteCommand parser parsedInference allocated constructed
  | .createCommandBuffer job => { state with scratch := state.scratch.closeCommands job [0] }
  | .addCommand cmdBuffer inference =>
    match state.inferences[inference]? with
    | none => state
    | some parser => state.withUser cmdBuffer fun user => state.addCommand cmdBuffer user parser
  | .updateCommands cmdBuffer reached => state.withUser cmdBuffer (state.updateCommands cmdBuffer reached)
  | .submit cmdBuffer accepted => { state with scratch := state.scratch.step (.submit cmdBuffer accepted) }
  | .complete submission => { state with scratch := state.scratch.step (.complete submission) }
  | .waitForCompletion cmdBuffer granted =>
    { state with scratch := state.scratch.step (.waitForCompletion cmdBuffer granted) }
  | .destroyJob job => { state with scratch := state.scratch.step (.destroy job) }
  | .destroyParser parser =>
    { state with scratch := state.scratch.prune (state.parsers parser).manager.sharedScratchSize }

/-- New parsers, and no command buffers. -/
def initial (ctx : VPUDeviceContext) : GraphScratch where
  scratch := ScratchState.initial ctx
  parsers := fun _ => ⟨⟨ctx, [], DriverBufferManager.nil_ascending, 0⟩, []⟩
  inferences := []
  added := fun _ => []
  bindings := []

end GraphScratch

end NpuDriver
