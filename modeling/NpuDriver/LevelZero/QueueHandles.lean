import NpuDriver.Library.HandleTable
import NpuDriver.Library.Observation
import NpuDriver.Device.CommandQueue
import NpuDriver.LevelZero.CommandList

/-! Command queue handles, their priorities, and the queues that the kernel keeps for them. -/

namespace NpuDriver

open Library ZeResult

/-- `VPUDeviceQueue::Priority`. -/
inductive QueuePriority where
  | IDLE | NORMAL | FOCUS | REALTIME
deriving DecidableEq, Repr

/-- `ze_command_queue_priority_t`; `other` is a value without an enumerator. -/
inductive ZeCommandQueuePriority where
  | NORMAL | PRIORITY_LOW | PRIORITY_HIGH | FORCE_UINT32 | other
deriving DecidableEq, Repr

def toVPUDevicePriority : ZeCommandQueuePriority → QueuePriority
  | .PRIORITY_LOW => .IDLE
  | .PRIORITY_HIGH => .REALTIME
  | .NORMAL | .FORCE_UINT32 | .other => .NORMAL

/-- `ze_command_queue_workload_type_t`. -/
inductive ZeWorkloadType where
  | DEFAULT | BACKGROUND | other
deriving DecidableEq, Repr

/-- The structures behind a descriptor, with the options as far as they are read. -/
inductive QueueDescNext where
  | npuExt (turbo : Bool)
  | npuExt2 (deviceSync turbo : Bool)
  | other
deriving DecidableEq, Repr

structure CommandQueueDesc where
  ordinal : Nat
  synchronous : Bool
  priority : ZeCommandQueuePriority
  pNext : Option QueueDescNext
deriving DecidableEq, Repr

/-- `Device::getCommandQeueueGroupFlags` has flags for the first group alone. -/
def hasGroupFlags (ordinal : Nat) : Bool := ordinal == 0

/-- The requests for queues that the kernel answered; `kept` is a queue that it did not destroy. -/
inductive KernelQueueEvent where
  | created (id : Nat) (priority : QueuePriority) (turbo : Bool)
  | destroyed (id : Nat)
  | kept (id : Nat)
deriving DecidableEq, Repr

/-- The queue that the kernel has under a number. The newest request is the first of the list. -/
def kernelQueue : List KernelQueueEvent → Nat → Option (QueuePriority × Bool)
  | [], _ => none
  | .created other priority turbo :: earlier, id => if id = other then some (priority, turbo) else kernelQueue earlier id
  | .destroyed other :: earlier, id => if id = other then none else kernelQueue earlier id
  | .kept _ :: earlier, id => kernelQueue earlier id

/-- `VPUDriverApi::commandQueueCreate`. The reply is the number that the kernel has for the queue, if any. -/
def commandQueueCreate (events : List KernelQueueEvent) (reply : Option Nat) (priority : QueuePriority) (turbo : Bool) :
    Option Nat × List KernelQueueEvent :=
  match reply with
  | none => (none, events)
  | some id => (some id, .created id priority turbo :: events)

def commandQueueDestroy (events : List KernelQueueEvent) (accepted : Bool) (id : Nat) : List KernelQueueEvent :=
  if accepted then .destroyed id :: events else .kept id :: events

inductive VPUDeviceQueue where
  | legacy (priority defaultPriority : QueuePriority)
  | managed (queue : VPUDeviceQueueManaged)

namespace VPUDeviceQueue

/-- `VPUDeviceQueue::create` on an existing context. -/
def create (cmdQueueCreationCapability : Bool) (events : List KernelQueueEvent) (reply : Option Nat)
    (queuePriority : QueuePriority) (turbo inOrder : Bool) : Option VPUDeviceQueue × List KernelQueueEvent :=
  if cmdQueueCreationCapability then
    match commandQueueCreate events reply queuePriority turbo with
    | (none, next) => (none, next)
    | (some defaultQueue, next) => (some (.managed ⟨defaultQueue, defaultQueue, defaultQueue, inOrder, turbo, none⟩), next)
  else if inOrder then (none, events)
  else (some (.legacy queuePriority queuePriority), events)

/-- A failure is `none`. -/
def toBackgroundPriority (events : List KernelQueueEvent) (reply : Option Nat) :
    VPUDeviceQueue → Option VPUDeviceQueue × List KernelQueueEvent
  | .legacy _ defaultPriority => (some (.legacy .IDLE defaultPriority), events)
  | .managed queue =>
    if queue.backgroundId = queue.defaultId then
      match commandQueueCreate events reply .IDLE queue.isTurbo with
      | (none, next) => (none, next)
      | (some backgroundId, next) =>
        (some (.managed { queue with backgroundId := backgroundId, currentId := backgroundId }), next)
    else (some (.managed { queue with currentId := queue.backgroundId }), events)

def toDefaultPriority : VPUDeviceQueue → VPUDeviceQueue
  | .legacy _ defaultPriority => .legacy defaultPriority defaultPriority
  | .managed queue => .managed { queue with currentId := queue.defaultId }

/-- The destructor, with the kernel's answers for the two queues. -/
def release (events : List KernelQueueEvent) (acceptsBackground acceptsDefault : Bool) :
    VPUDeviceQueue → List KernelQueueEvent
  | .legacy _ _ => events
  | .managed queue =>
    let next :=
      if queue.backgroundId ≠ queue.defaultId then commandQueueDestroy events acceptsBackground queue.backgroundId
      else events
    commandQueueDestroy next acceptsDefault queue.defaultId

/-- What the kernel runs a submitted command buffer with: a priority, the turbo mode and, in the buffer itself, the
busy wait. It is `none` where it knows no such queue. -/
def submitted (events : List KernelQueueEvent) : VPUDeviceQueue → Option (QueuePriority × Bool × Bool)
  | .legacy priority _ => some (priority, false, false)
  | .managed queue => (kernelQueue events queue.currentId).map fun (priority, turbo) => (priority, turbo, queue.isTurbo)

/-- `isInOrder`. -/
def inOrder : VPUDeviceQueue → Bool
  | .legacy _ _ => false
  | .managed queue => queue.isInOrder

end VPUDeviceQueue

/-- A command queue with its mode. -/
structure QueueHandle where
  vpuQueue : VPUDeviceQueue
  synchronous : Bool

/-- The queues of a context by their order of creation, those that were destroyed as `none`. -/
structure QueueSystem where
  cmdQueueCreationCapability : Bool
  events : List KernelQueueEvent
  queues : List (Option QueueHandle)

/-- The calls with what the kernel answers when it is asked. -/
inductive QueueHandleCall where
  | create (hContext hDevice : Bool) (desc : Option CommandQueueDesc) (phCommandQueue : Bool) (reply : Option Nat)
  | setWorkloadType (queue : Nat) (workloadType : ZeWorkloadType) (reply : Option Nat)
  | submit (queue : Nat)
  | destroy (queue : Nat) (acceptsBackground acceptsDefault : Bool)
deriving DecidableEq, Repr

/-- A result, or what a submitted command buffer runs with. -/
inductive QueueHandleAnswer where
  | nothing
  | result (result : ZeResult)
  | runs (settings : Option (QueuePriority × Bool × Bool)) (inOrder synchronous : Bool)
deriving DecidableEq, Repr

/-- The mode of the kernel queue that a descriptor asks for: turbo and in order. On a queue in order there is no
turbo, since both use the same fence. -/
def CommandQueueDesc.creationMode (desc : CommandQueueDesc) : Except ZeResult (Bool × Bool) :=
  match desc.pNext with
  | some (.npuExt turbo) => .ok (turbo, false)
  | some (.npuExt2 deviceSync turbo) =>
    if desc.synchronous ∧ deviceSync then .error ZE_RESULT_ERROR_INVALID_ENUMERATION
    else .ok (!deviceSync && turbo, deviceSync)
  | some .other | none => .ok (false, false)

/-- The checks of `CommandQueue::create` before the device queue. A null pointer is `false` or `none`. -/
def checkQueueDesc (hContext hDevice : Bool) (desc : Option CommandQueueDesc) (phCommandQueue : Bool) :
    Except ZeResult (CommandQueueDesc × Bool × Bool) :=
  if !hContext then .error ZE_RESULT_ERROR_INVALID_NULL_HANDLE
  else if !hDevice then .error ZE_RESULT_ERROR_INVALID_NULL_HANDLE
  else
    match desc with
    | none => .error ZE_RESULT_ERROR_INVALID_NULL_POINTER
    | some desc =>
      if !phCommandQueue then .error ZE_RESULT_ERROR_INVALID_NULL_POINTER
      else if !hasGroupFlags desc.ordinal then .error ZE_RESULT_ERROR_INVALID_ARGUMENT
      else desc.creationMode.map fun mode => (desc, mode)

namespace QueueSystem

/-- `CommandQueue::create` behind its checks. -/
def add (system : QueueSystem) (desc : CommandQueueDesc) (turbo inOrder : Bool) (reply : Option Nat) :
    ZeResult × QueueSystem :=
  match VPUDeviceQueue.create system.cmdQueueCreationCapability system.events reply
      (toVPUDevicePriority desc.priority) turbo inOrder with
  | (none, events) => (ZE_RESULT_ERROR_UNINITIALIZED, { system with events := events })
  | (some vpuQueue, events) =>
    (ZE_RESULT_SUCCESS,
      { system with events := events, queues := system.queues ++ [some ⟨vpuQueue, desc.synchronous⟩] })

def create (system : QueueSystem) (hContext hDevice : Bool) (desc : Option CommandQueueDesc) (phCommandQueue : Bool)
    (reply : Option Nat) : ZeResult × QueueSystem :=
  match checkQueueDesc hContext hDevice desc phCommandQueue with
  | .error result => (result, system)
  | .ok (desc, turbo, inOrder) => system.add desc turbo inOrder reply

/-- `CommandQueue::setWorkloadType`. -/
def setWorkloadType (system : QueueSystem) (queue : Nat) (handle : QueueHandle) (reply : Option Nat) :
    ZeWorkloadType → ZeResult × QueueSystem
  | .DEFAULT =>
    (ZE_RESULT_SUCCESS,
      { system with queues := system.queues.set queue (some { handle with vpuQueue := handle.vpuQueue.toDefaultPriority }) })
  | .BACKGROUND =>
    match handle.vpuQueue.toBackgroundPriority system.events reply with
    | (none, events) => (ZE_RESULT_ERROR_UNKNOWN, { system with events := events })
    | (some vpuQueue, events) =>
      (ZE_RESULT_SUCCESS,
        { system with
          events := events
          queues := system.queues.set queue (some { handle with vpuQueue := vpuQueue }) })
  | .other => (ZE_RESULT_ERROR_INVALID_ENUMERATION, system)

def step (system : QueueSystem) : QueueHandleCall → QueueHandleAnswer × QueueSystem
  | .create hContext hDevice desc phCommandQueue reply =>
    match system.create hContext hDevice desc phCommandQueue reply with
    | (result, next) => (.result result, next)
  | .setWorkloadType queue workloadType reply =>
    withLive system.queues queue (.nothing, system) fun handle =>
      match system.setWorkloadType queue handle reply workloadType with
      | (result, next) => (.result result, next)
  | .submit queue =>
    withLive system.queues queue (.nothing, system) fun handle =>
      (.runs (handle.vpuQueue.submitted system.events) handle.vpuQueue.inOrder handle.synchronous, system)
  | .destroy queue acceptsBackground acceptsDefault =>
    withLive system.queues queue (.nothing, system) fun handle =>
      (.result ZE_RESULT_SUCCESS,
        { system with
          events := handle.vpuQueue.release system.events acceptsBackground acceptsDefault
          queues := system.queues.set queue none })

/-- A context without queues. -/
def new (cmdQueueCreationCapability : Bool) : QueueSystem := ⟨cmdQueueCreationCapability, [], []⟩

end QueueSystem

end NpuDriver
