import NpuDriver.Device.DeviceFiles
import NpuDriver.LevelZero.CommandList
import NpuDriver.Library.HandleTable
import NpuDriver.Library.Observation

/-! The driver: its initialisation, the devices that it finds, and the contexts on them. -/

namespace NpuDriver

open Library ZeResult

/-- `devices` are there once the driver was initialised, and each context has the descriptor of its
`VPUDriverApi`. -/
structure DevicesState where
  files : DeviceFiles
  devices : Option (List VPUDevice)
  contexts : List (Option Nat)

/-- The calls with the answers of the kernel. `elsewhereOpen` and `elsewhereClose` are those of the rest of the
process, which closes no device file. -/
inductive DevicesCall where
  | init (flags : Nat) (metrics : Bool) (replies : Nat → DeviceReplies)
  | createContext (desc phContext : Bool) (file : FileReply)
  | destroyContext (context : Nat)
  | contextGetStatus (context : Nat) (replies : DeviceReplies)
  | deviceGetStatus (device : Nat) (replies : DeviceReplies)
  | getGlobalTimestamps (device : Nat) (file : FileReply) (job : ZeResult)
  | getPciProperties (device : Nat) (file : FileReply) (stated : Bool) (link : Option (List UInt8))
  | engineGetActivity (device : Nat) (pStats : Bool) (file : FileReply) (content : Option (List UInt8))
  | elsewhereOpen
  | elsewhereClose (fd : Nat)

/-- `faulted` is an access outside of a buffer, behind which a run of the process has no more calls. -/
inductive DevicesAnswer where
  | result (result : ZeResult)
  | pciAddress (address : VPUDevice.PciAddress)
  | activeTime (activeTimeUs : Nat)
  | faulted
  | nothing
deriving DecidableEq, Repr

/-- `ZE_INIT_FLAG_VPU_ONLY`. -/
def ZE_INIT_FLAG_VPU_ONLY : Nat := 2

/-- The minors that `createDevices` tries. -/
def minors : List Nat := List.range 64

/-- `initStatus` behind an initialisation that found these devices. -/
def initStatus (devices : List VPUDevice) : ZeResult :=
  if devices.isEmpty then ZE_RESULT_ERROR_UNINITIALIZED else ZE_RESULT_SUCCESS

/-- Exceptions are caught at the border of the driver. -/
def faultAnswer : MetricGroup.Fault → DevicesAnswer
  | .thrown => .result ZE_RESULT_ERROR_UNKNOWN
  | .outOfBounds | .divisionByZero => .faulted

def connection (connected : Bool) : DevicesAnswer :=
  .result (if connected then ZE_RESULT_SUCCESS else ZE_RESULT_ERROR_DEVICE_LOST)

namespace DevicesState

/-- The devices behind the driver handle. -/
def found (state : DevicesState) : List VPUDevice := state.devices.getD []

/-- `init`. An exception leaves `call_once` as if there had been no call. -/
def init (state : DevicesState) (flags : Nat) (metrics : Bool) (replies : Nat → DeviceReplies) :
    DevicesAnswer × DevicesState :=
  if flags ≠ 0 ∧ flags &&& ZE_INIT_FLAG_VPU_ONLY = 0 then (.result ZE_RESULT_ERROR_UNINITIALIZED, state)
  else
    match state.devices with
    | some devices => (.result (initStatus devices), state)
    | none =>
      match createDevices replies metrics minors state.files with
      | (.error fault, files) => (faultAnswer fault, { state with files := files })
      | (.ok devices, files) => (.result (initStatus devices), { state with files := files, devices := some devices })

def createContext (state : DevicesState) (desc phContext : Bool) (file : FileReply) : DevicesAnswer × DevicesState :=
  if !desc || !phContext then (.result ZE_RESULT_ERROR_INVALID_NULL_POINTER, state)
  else
    match state.files.openDriverApi file with
    | (none, files) => (.result ZE_RESULT_ERROR_OUT_OF_DEVICE_MEMORY, { state with files := files })
    | (some vpuFd, files) =>
      (.result ZE_RESULT_SUCCESS, { state with files := files, contexts := state.contexts ++ [some vpuFd] })

/-- A call that opens the driver API for its own duration. -/
def transient {α : Type} (state : DevicesState) (call : DeviceFiles → α × DeviceFiles) (answer : α → DevicesAnswer) :
    DevicesAnswer × DevicesState :=
  (answer (call state.files).1, { state with files := (call state.files).2 })

/-- A call through a device handle, of which there is none before the initialisation. -/
def withDevice (state : DevicesState) (device : Nat) (call : DevicesAnswer × DevicesState) : DevicesAnswer × DevicesState :=
  if device < state.found.length then call else (.nothing, state)

def step (state : DevicesState) : DevicesCall → DevicesAnswer × DevicesState
  | .init flags metrics replies => state.init flags metrics replies
  | .createContext desc phContext file => state.withDevice 0 (state.createContext desc phContext file)
  | .destroyContext context =>
    withLive state.contexts context (.nothing, state) fun vpuFd =>
      (.result ZE_RESULT_SUCCESS,
        { state with files := state.files.destruct vpuFd, contexts := state.contexts.set context none })
  | .contextGetStatus context replies =>
    withLive state.contexts context (.nothing, state) fun _ =>
      state.transient (VPUDevice.isConnected replies) connection
  | .deviceGetStatus device replies =>
    state.withDevice device (state.transient (VPUDevice.isConnected replies) connection)
  -- the context of the job is one on the primary device
  | .getGlobalTimestamps device file job =>
    state.withDevice device
      (state.transient (fun files => files.withDriverApi file ZE_RESULT_ERROR_OUT_OF_DEVICE_MEMORY job) .result)
  | .getPciProperties device file stated link =>
    state.withDevice device
      (state.transient (VPUDevice.getBDF file stated link) fun
        | none => .result ZE_RESULT_ERROR_DEVICE_LOST
        | some address => .pciAddress address)
  | .engineGetActivity device pStats file content =>
    state.withDevice device
      (if !pStats then (.result ZE_RESULT_ERROR_INVALID_NULL_POINTER, state)
      else
        state.transient (VPUDevice.getActiveTime file content) fun
          | none => .result ZE_RESULT_ERROR_UNINITIALIZED
          | some activeTimeUs => .activeTime activeTimeUs)
  | .elsewhereOpen =>
    (.nothing,
      { state with
        files :=
          { state.files with
            opened := state.files.opened + 1
            others := state.files.numbers.next state.files.opened (state.files.others ++ state.files.files) ::
              state.files.others } })
  | .elsewhereClose fd =>
    (.nothing, { state with files := { state.files with others := state.files.others.filter (· ≠ fd) } })

/-- Before the first call. -/
def new (numbers : HandleNumbers) (others : List Nat) : DevicesState := ⟨⟨numbers, 0, others, [], []⟩, none, []⟩

end DevicesState

end NpuDriver
