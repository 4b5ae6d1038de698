import NpuDriver.Command.CommandBuffer

/-! Jobs: the commands of a command list, their split into command buffers, and the
patches that put a job into an in-order chain. -/

namespace NpuDriver

/-- The command buffers hold positions of `commands`, as the iterators of the source do. -/
structure VPUJob where
  commands : List VPUCommand
  cmdBuffers : List VPUCommandBuffer
  closed : Bool
  hasInOrderWorkload : Bool

/-- Replace the elements from a position on. -/
def replaceFrom (commands : List VPUCommand) (position : Nat) (updated : List VPUCommand) :
    List VPUCommand :=
  commands.take position ++ updated ++ commands.drop (position + updated.length)

namespace VPUJob

def empty : VPUJob := ⟨[], [], false, false⟩

/-- `scheduleCommands`: the commands up to and including the first synchronize command, and
the ones after it. -/
def scheduleCommands : List VPUCommand → List VPUCommand × List VPUCommand
  | [] => ([], [])
  | cmd :: rest =>
    if cmd.isSynchronizeCommand then ([cmd], rest)
    else (cmd :: (scheduleCommands rest).1, (scheduleCommands rest).2)

/-- The command buffers' shares of the commands, as repeated `scheduleCommands` yields them. -/
def scheduleAll : List VPUCommand → List (List VPUCommand)
  | [] => []
  | cmd :: rest =>
    if cmd.isSynchronizeCommand then [cmd] :: scheduleAll rest
    else
      match scheduleAll rest with
      | [] => [[cmd]]
      | share :: others => (cmd :: share) :: others

/-- The loop of `closeCommands` with `createCommandBuffer` as its body. The results of the
two patches are ignored there; the commands come back with their descriptors patched. -/
def createCommandBuffers (ctx : VPUDeviceContext) (position : Nat) :
    List (List VPUCommand) → Option VPUBufferObject →
      Bool × List VPUCommandBuffer × List VPUCommand × VPUDeviceContext
  | [], _ => (true, [], [], ctx)
  | share :: others, lastEventBo =>
    match VPUCommandBuffer.allocateCommandBuffer ctx position share with
    | (none, patched, next) => (false, [], patched ++ others.flatten, next)
    | (some cmdBuffer, patched, next) =>
      let waiting :=
        match lastEventBo with
        | none => cmdBuffer
        | some bo => (cmdBuffer.addWaitAtHead ctx (some bo) false).2
      let signalling := if others = [] then waiting else waiting.addSelfSignalAtTail.2
      let event := if others = [] then lastEventBo else some cmdBuffer.buffer
      match createCommandBuffers next (position + share.length) others event with
      | (success, cmdBuffers, commands, final) =>
        (success, signalling :: cmdBuffers, patched ++ commands, final)

def closeCommands (job : VPUJob) (ctx : VPUDeviceContext) : Bool × VPUJob × VPUDeviceContext :=
  if job.closed then (true, job, ctx)
  else if job.cmdBuffers ≠ [] then (false, job, ctx)
  else
    match createCommandBuffers ctx 0 (scheduleAll job.commands) none with
    | (success, cmdBuffers, commands, next) =>
      (success, { job with commands := commands, cmdBuffers := cmdBuffers, closed := success }, next)

/-- The loop of `updateOnSubmit`. -/
def updateBuffers (commands : List VPUCommand) (ctx : VPUDeviceContext) :
    List VPUCommandBuffer → Bool × List VPUCommandBuffer × List VPUCommand × VPUDeviceContext
  | [] => (true, [], commands, ctx)
  | cmdBuffer :: rest =>
    match cmdBuffer.updateCommands (cmdBuffer.commandsOf commands) ctx with
    | (false, updated, cmds, next) =>
      (false, updated :: rest, replaceFrom commands cmdBuffer.commandsBegin cmds, next)
    | (true, updated, cmds, next) =>
      match updateBuffers (replaceFrom commands cmdBuffer.commandsBegin cmds) next rest with
      | (success, others, final, last) => (success, updated :: others, final, last)

def updateOnSubmit (job : VPUJob) (ctx : VPUDeviceContext) : Bool × VPUJob × VPUDeviceContext :=
  match updateBuffers job.commands ctx job.cmdBuffers with
  | (success, cmdBuffers, commands, next) =>
    (success, { job with commands := commands, cmdBuffers := cmdBuffers }, next)

def addPreemptionBuffer (job : VPUJob) (preemptionBuffer : Option VPUBufferObject) : VPUJob :=
  { job with cmdBuffers := job.cmdBuffers.map (·.addPreemptionBuffer preemptionBuffer) }

/-- The loop of `waitForCompletion`, which stops at the first failed wait. -/
def waitBuffers (ctx : VPUDeviceContext) :
    List VPUCommandBuffer → Bool × List VPUCommandBuffer × VPUDeviceContext
  | [] => (true, [], ctx)
  | cmdBuffer :: rest =>
    match cmdBuffer.waitForCompletion ctx with
    | (false, waited, next) => (false, waited :: rest, next)
    | (true, waited, next) =>
      match waitBuffers next rest with
      | (success, others, final) => (success, waited :: others, final)

def waitForCompletion (job : VPUJob) (ctx : VPUDeviceContext) : Bool × VPUJob × VPUDeviceContext :=
  match waitBuffers ctx job.cmdBuffers with
  | (success, cmdBuffers, next) => (success, { job with cmdBuffers := cmdBuffers }, next)

/-- `DRM_IVPU_JOB_STATUS_SUCCESS`. -/
def DRM_IVPU_JOB_STATUS_SUCCESS : Nat := 0

/-- The status of the first command buffer that was not successful. -/
def getStatus (job : VPUJob) : Nat :=
  match job.cmdBuffers.find? (fun cmdBuffer => cmdBuffer.jobStatus ≠ DRM_IVPU_JOB_STATUS_SUCCESS) with
  | none => DRM_IVPU_JOB_STATUS_SUCCESS
  | some cmdBuffer => cmdBuffer.jobStatus

/-- The result of `makeInOrder`: `waitFor` is passed by reference. -/
structure Ordered where
  success : Bool
  job : VPUJob
  waitFor : Option VPUBufferObject
  ctx : VPUDeviceContext

/-- The patches of `makeInOrder` once the first command buffer need not be waited for. -/
def chain (job : VPUJob) (front : VPUCommandBuffer) (rest : List VPUCommandBuffer)
    (waitFor : Option VPUBufferObject) (ctx : VPUDeviceContext) : Ordered :=
  match front.addWaitAtHead ctx waitFor true with
  | (false, patched) => ⟨false, { job with cmdBuffers := patched :: rest }, waitFor, ctx⟩
  | (true, patched) =>
    let back := (patched :: rest).getLast (List.cons_ne_nil patched rest)
    match back.addSelfSignalAtTail with
    | (false, signalling) =>
      ⟨false, { job with cmdBuffers := (patched :: rest).dropLast ++ [signalling] }, waitFor, ctx⟩
    | (true, signalling) =>
      ⟨true, { job with cmdBuffers := (patched :: rest).dropLast ++ [signalling]
                        hasInOrderWorkload := true }, some back.buffer, ctx⟩

def makeInOrder (job : VPUJob) (waitFor : Option VPUBufferObject) (ctx : VPUDeviceContext) : Ordered :=
  match job.cmdBuffers with
  | [] => ⟨false, job, waitFor, ctx⟩
  | front :: rest =>
    if waitFor.map VPUBufferObject.id = some front.buffer.id then
      match front.waitForCompletion ctx with
      | (false, waited, next) => ⟨false, { job with cmdBuffers := waited :: rest }, waitFor, next⟩
      | (true, waited, next) => chain job waited.resetFenceValue rest none next
    else chain job front rest waitFor ctx

def stripInOrder (job : VPUJob) (ctx : VPUDeviceContext) : Bool × VPUJob × VPUDeviceContext :=
  if !job.closed then (false, job, ctx)
  else closeCommands { job with cmdBuffers := [], hasInOrderWorkload := false, closed := false } ctx

/-- An empty command is skipped with success. -/
def appendCommand (job : VPUJob) (cmd : VPUCommand) : Bool × VPUJob :=
  if job.closed then (false, job)
  else if job.cmdBuffers ≠ [] then (false, job)
  else if cmd.getCommitSize = 0 then (true, job)
  else (true, { job with commands := job.commands ++ [cmd] })

def getNumCommands (job : VPUJob) : Nat := job.commands.length

theorem scheduleAll_cons (cmd : VPUCommand) (rest : List VPUCommand) :
    scheduleAll (cmd :: rest) =
      (scheduleCommands (cmd :: rest)).1 :: scheduleAll (scheduleCommands (cmd :: rest)).2 := by
  induction rest generalizing cmd with
  | nil => by_cases synchronize : cmd.isSynchronizeCommand <;> simp [scheduleAll, scheduleCommands, synchronize]
  | cons second others ih =>
    by_cases synchronize : cmd.isSynchronizeCommand
    · simp [scheduleAll, scheduleCommands, synchronize]
    · have tail := ih second
      rw [scheduleAll, tail]
      simp [scheduleCommands, synchronize]

theorem scheduleAll_flatten (commands : List VPUCommand) : (scheduleAll commands).flatten = commands := by
  induction commands with
  | nil => rfl
  | cons cmd rest ih =>
    unfold scheduleAll
    split
    · simp [ih]
    · split
      · rename_i empty
        simpa [empty] using ih
      · rename_i share others split
        simpa [split] using ih

end VPUJob

end NpuDriver
