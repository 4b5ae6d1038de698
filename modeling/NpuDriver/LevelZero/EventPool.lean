import NpuDriver.Library.Observation
import NpuDriver.Library.SlotCells
import NpuDriver.LevelZero.EventWait

/-! Event pools: one buffer object with a word for every event, which the host and the device write. -/

namespace NpuDriver

open Library ZeResult

/-- `sizeof(VPUEventCommand::JsmEventData)`: the word, and seven that are reserved. -/
def jsmEventDataSize : Nat := 64

/-- `memory` is that of the host, in which the buffer object is mapped. -/
structure EventPool where
  pEventPool : VPUBufferObject
  memory : Image
  events : List (Option Event)

/-- `ze_event_pool_desc_t` as far as it is read. -/
structure EventPoolDesc where
  count : Nat
deriving DecidableEq, Repr

namespace EventPool

/-- The constructor. -/
def new (ctx : VPUDeviceContext) (memory : Image) (count : Nat) : Except ZeResult EventPool :=
  match ctx.createUntrackedBufferObject (jsmEventDataSize * count) true with
  | (none, _) => .error ZE_RESULT_ERROR_OUT_OF_HOST_MEMORY
  | (some bo, _) => .ok ⟨bo, memory, List.replicate count none⟩

/-- `EventPool::create`. A null context, descriptor or place for the handle is `false` or `none`; the devices
are only counted. -/
def create (ctx : VPUDeviceContext) (memory : Image) (hContext : Bool) (desc : Option EventPoolDesc) (numDevices : Nat)
    (phDevices phEventPool : Bool) : Except ZeResult EventPool :=
  if !hContext then .error ZE_RESULT_ERROR_INVALID_NULL_POINTER
  else
    match desc with
    | none => .error ZE_RESULT_ERROR_INVALID_NULL_POINTER
    | some desc =>
      if 0 < numDevices ∧ phDevices = false then .error ZE_RESULT_ERROR_INVALID_SIZE
      else if !phEventPool then .error ZE_RESULT_ERROR_INVALID_NULL_POINTER
      else if desc.count = 0 then .error ZE_RESULT_ERROR_INVALID_SIZE
      else new ctx memory desc.count

def getEventCpuAddress (pool : EventPool) (index : Nat) : Nat := pool.pEventPool.basePtr + index * jsmEventDataSize

/-- The word an event points to. -/
def word (pool : EventPool) (eventState : Nat) : Nat := fromLittleEndian (pool.memory.read eventState 8)

/-- `Event::setEventState`. -/
def setEventState (pool : EventPool) (eventState state : Nat) : EventPool :=
  { pool with memory := pool.memory.write eventState (littleEndian 8 state) }

/-- `EventPool::createEvent` with the constructor of the event; `desc` is the index, `none` a null pointer. -/
def createEvent (pool : EventPool) (desc : Option Nat) (phEvent : Bool) : ZeResult × EventPool :=
  match desc with
  | none => (ZE_RESULT_ERROR_INVALID_NULL_POINTER, pool)
  | some index =>
    if !phEvent then (ZE_RESULT_ERROR_INVALID_NULL_POINTER, pool)
    else
      match pool.events[index]? with
      | none => (ZE_RESULT_ERROR_INVALID_ARGUMENT, pool)
      | some (some _) => (ZE_RESULT_ERROR_INVALID_ARGUMENT, pool)
      | some none =>
        let eventPtr := pool.getEventCpuAddress index
        if pool.pEventPool.getVPUAddr eventPtr = 0 then (ZE_RESULT_ERROR_UNKNOWN, pool)
        else
          (ZE_RESULT_SUCCESS,
            { pool with events := pool.events.set index (some ⟨eventPtr, some pool.pEventPool⟩) }.setEventState eventPtr
              STATE_EVENT_INITIAL)

/-- `Event::destroy`. -/
def destroy (pool : EventPool) (index : Nat) : EventPool := { pool with events := pool.events.set index none }

/-- The device's write of a signal command: the buffer object is mapped at its address on the device, too. -/
def deviceSignal (pool : EventPool) (offset value : Nat) : EventPool :=
  { pool with
    memory := pool.memory.write (pool.pEventPool.basePtr + (offset - pool.pEventPool.vpuAddr)) (littleEndian 8 value) }

/-- The word that a wait command compares. -/
def deviceWord (pool : EventPool) (offset : Nat) : Nat :=
  pool.word (pool.pEventPool.basePtr + (offset - pool.pEventPool.vpuAddr))

end EventPool

/-- The commands that are recorded for an event. -/
inductive EventCommandKind where
  | signal | reset | wait
deriving DecidableEq, Repr

def EventCommandKind.create (kind : EventCommandKind) (event : Event) : Created :=
  match kind with
  | .signal => VPUEventSignalCommand.create event.syncPointer event.associatedBo
  | .reset => VPUEventResetCommand.create event.syncPointer event.associatedBo
  | .wait => VPUEventWaitCommand.create event.syncPointer event.associatedBo

/-- A pool with the commands that were recorded for its events. -/
structure EventSystem where
  pool : EventPool
  commands : List VPUCommand

/-- The calls on a pool and its events, and the device's executions of recorded commands, in any order and as
often as their lists are submitted. -/
inductive EventCall where
  | createEvent (desc : Option Nat) (phEvent : Bool)
  | destroy (index : Nat)
  | hostSignal (index : Nat)
  | reset (index : Nat)
  | queryStatus (index : Nat)
  | append (kind : EventCommandKind) (index : Nat)
  | execute (command : Nat)
deriving DecidableEq, Repr

/-- What a caller or the device learns: a result, or whether the device passes a wait. -/
inductive EventAnswer where
  | nothing
  | result (result : ZeResult)
  | passes (signalled : Bool)
deriving DecidableEq, Repr

namespace EventSystem

/-- A call through the handle of an event; without one there is no handle. -/
def withEvent (system : EventSystem) (index : Nat) (call : Event → EventAnswer × EventSystem) :
    EventAnswer × EventSystem :=
  match system.pool.events[index]? with
  | some (some event) => call event
  | _ => (.nothing, system)

/-- The device's execution of a fence command. -/
def execute (system : EventSystem) (command : Nat) : EventAnswer × EventSystem :=
  match (system.commands[command]?).map VPUCommand.command with
  | some (.fence type offset value) =>
    if type = VPU_CMD_FENCE_SIGNAL then (.nothing, { system with pool := system.pool.deviceSignal offset value })
    else (.passes (decide (value ≤ system.pool.deviceWord offset)), system)
  | _ => (.nothing, system)

def step (system : EventSystem) : EventCall → EventAnswer × EventSystem
  | .createEvent desc phEvent =>
    let created := system.pool.createEvent desc phEvent
    (.result created.1, { system with pool := created.2 })
  | .destroy index =>
    system.withEvent index fun _ =>
      (.result ZE_RESULT_SUCCESS, { system with pool := system.pool.destroy index })
  | .hostSignal index =>
    system.withEvent index fun event =>
      (.result ZE_RESULT_SUCCESS,
        { system with pool := system.pool.setEventState event.syncPointer STATE_HOST_SIGNAL })
  | .reset index =>
    system.withEvent index fun event =>
      (.result ZE_RESULT_SUCCESS,
        { system with pool := system.pool.setEventState event.syncPointer STATE_HOST_RESET })
  | .queryStatus index =>
    system.withEvent index fun event => (.result (eventStatus (system.pool.word event.syncPointer)), system)
  | .append kind index =>
    system.withEvent index fun event =>
      match kind.create event with
      | .error _ => (.nothing, system)
      | .ok command => (.nothing, { system with commands := system.commands ++ [command] })
  | .execute command => system.execute command

end EventSystem

end NpuDriver
