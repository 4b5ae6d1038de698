import NpuDriver.LevelZero.CommandQueue

/-! The submission of a job down to the single system call: the loop around the ioctl, the wait for a full
queue and the loop over the command buffers. -/

namespace NpuDriver

open ZeResult

/-- Values of `errno`. -/
def EINTR : Nat := 4
def EAGAIN : Nat := 11
def EBUSY : Nat := 16

/-- A reply of the kernel to the ioctl, which returns 0, or -1 with a positive `errno`. -/
inductive IoctlReply where
  | accepted
  | failed (errno : Nat)
deriving DecidableEq, Repr

/-- A system call for a command buffer; `since` is the time at which the submission of the buffer began. -/
structure SubmitCall where
  cmdBuf : Nat
  since : Nat
  reply : IoctlReply
deriving DecidableEq, Repr

/-- The world around a submission: the replies that are still to come, the steady clock with the number of
times it was read, and the calls so far. -/
structure SubmitWorld where
  replies : List IoctlReply
  clock : Nat → Nat
  readings : Nat
  calls : List SubmitCall
  errno : Nat

namespace SubmitWorld

/-- `std::chrono::steady_clock::now()`. -/
def now (world : SubmitWorld) : Nat × SubmitWorld :=
  (world.clock world.readings, { world with readings := world.readings + 1 })

/-- `osiIoctl` for a command buffer, `none` while the kernel has not replied. -/
def osiIoctl (world : SubmitWorld) (cmdBuf since : Nat) : Option IoctlReply × SubmitWorld :=
  match world.replies with
  | [] => (none, world)
  | .accepted :: rest =>
    (some .accepted,
      { world with replies := rest, calls := world.calls ++ [⟨cmdBuf, since, .accepted⟩] })
  | .failed errno :: rest =>
    (some (.failed errno),
      { world with
        replies := rest, calls := world.calls ++ [⟨cmdBuf, since, .failed errno⟩], errno := errno })

/-- The condition of the loop in `doIoctl`. -/
def retries (world : SubmitWorld) (reply : IoctlReply) : Bool :=
  reply != .accepted && ((world.errno : Int) == -EAGAIN || (world.errno : Int) == -EINTR)

/-- The loop compares with negative numbers, which `errno` never is. -/
@[simp] theorem retries_false (world : SubmitWorld) (reply : IoctlReply) : world.retries reply = false := by
  simp only [retries, EAGAIN, EINTR, Bool.and_eq_false_imp, Bool.or_eq_false_iff, beq_eq_false_iff_ne]
  intro
  constructor <;> omega

theorem osiIoctl_replies {world next : SubmitWorld} {cmdBuf since : Nat} {reply : IoctlReply}
    (answered : world.osiIoctl cmdBuf since = (some reply, next)) :
    next.replies.length < world.replies.length := by
  unfold osiIoctl at answered
  split at answered
  · cases answered
  all_goals
    rename_i replies
    cases answered
    simp [replies]

/-- `doIoctl` on an open device. -/
def doIoctl (world : SubmitWorld) (cmdBuf since : Nat) : Option IoctlReply × SubmitWorld :=
  match _answered : world.osiIoctl cmdBuf since with
  | (none, next) => (none, next)
  | (some reply, next) => if next.retries reply then next.doIoctl cmdBuf since else (some reply, next)
termination_by world.replies.length
decreasing_by exact osiIoctl_replies _answered

/-- So the loop never repeats the call. -/
theorem doIoctl_eq (world : SubmitWorld) (cmdBuf since : Nat) :
    world.doIoctl cmdBuf since = world.osiIoctl cmdBuf since := by
  rw [doIoctl]
  split
  · rename_i waiting
    exact waiting.symm
  · rename_i answered
    simp [answered]

/-- The time for which a full queue is polled, two seconds in nanoseconds. -/
def pollTime : Nat := 2 * 10 ^ 9

/-- The loop of `submitWithWait` for one command buffer: whether it was accepted, `none` while the kernel
has not replied. -/
def submitUntilReply (world : SubmitWorld) (cmdBuf since : Nat) : Option Bool × SubmitWorld :=
  match _answered : world.doIoctl cmdBuf since with
  | (none, next) => (none, next)
  | (some .accepted, next) => (some true, next)
  | (some (.failed _), next) =>
    if next.errno ≠ EBUSY then (some false, next)
    else
      let polled := next.now
      if polled.1 > since + pollTime then (some false, polled.2)
      else polled.2.submitUntilReply cmdBuf since
termination_by world.replies.length
decreasing_by
  rw [doIoctl_eq] at _answered
  have shorter := osiIoctl_replies _answered
  exact shorter

/-- The loop of `submitWithWait` over the command buffers from an index on. -/
def submitEach (world : SubmitWorld) (cmdBuf : Nat) : Nat → Option Bool × SubmitWorld
  | 0 => (some true, world)
  | left + 1 =>
    let began := world.now
    match began.2.submitUntilReply cmdBuf began.1 with
    | (some true, next) => next.submitEach (cmdBuf + 1) left
    | other => other

/-- `submitWithWait` for a job with a number of command buffers. -/
def submitWithWait (world : SubmitWorld) (cmdBuffers : Nat) : Option Bool × SubmitWorld :=
  if cmdBuffers = 0 then (some false, world) else world.submitEach 0 cmdBuffers

end SubmitWorld

/-- What `executeCommandLists` makes of a submission. -/
def submissionResult (success : Bool) (errno : Int) : ZeResult :=
  if success then ZE_RESULT_SUCCESS
  else if errno = -EBADFD then ZE_RESULT_ERROR_DEVICE_LOST
  else ZE_RESULT_ERROR_UNKNOWN

theorem executeJob_result {queue : VPUDeviceQueueManaged} {preemptionBuffer : Option VPUBufferObject}
    {job updated : VPUJob} {ctx next : VPUDeviceContext} (ready : job.updateOnSubmit ctx = (true, updated, next)) :
    (executeJob queue preemptionBuffer job ctx).result =
      submissionResult (queue.submit (updated.addPreemptionBuffer preemptionBuffer) next).success
        (queue.submit (updated.addPreemptionBuffer preemptionBuffer) next).ctx.errno := by
  simp only [executeJob, ready]
  rfl

end NpuDriver
