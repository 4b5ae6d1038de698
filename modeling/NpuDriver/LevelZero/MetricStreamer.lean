import NpuDriver.Library.HandleTable
import NpuDriver.LevelZero.CommandList
import Mathlib.Logic.Function.Basic

/-! Metric streamers: sessions of the kernel that collect reports, and the reads of their data. -/

namespace NpuDriver

open Library ZeResult

/-- The kernel's answer to a start: the size of a sample, or an error, which may be `ENOMEM`. -/
inductive StartReply where
  | started (sampleSize : Nat)
  | failed (noMemory : Bool)
deriving DecidableEq, Repr

/-- The calls of `VPUDriverApi` on the kernel's sessions, whose code is not here, and what happens to the sessions
between two calls. A stop answers whether it succeeded, a read with a size and the bytes that it copied. -/
structure MetricIoctls (κ ε : Type) where
  metricStreamerStart (kernel : κ) (mask : BitVec 64) (samplingPeriod readPeriodSamples : Nat) : StartReply × κ
  metricStreamerStop (kernel : κ) (mask : BitVec 64) : Bool × κ
  metricStreamerGetData (kernel : κ) (mask : BitVec 64) (bufferSize : Nat) : Option (Nat × List UInt8) × κ
  elapse (kernel : κ) (event : ε) : κ

/-- The mask of `metricStreamerStart`: a shift of an `int`, which is then widened. -/
def startMask (groupIndex : Nat) : BitVec 64 := (1#32 <<< groupIndex).signExtend 64

/-- The mask of all other calls. -/
def groupMask (groupIndex : Nat) : BitVec 64 := 1#64 <<< groupIndex

/-- `MIN_SAMPLING_RATE_NS` and `MIN_STREAMER_NOTIFY_FREQUENCY`. -/
def minSamplingRateNs : Nat := 1000000
def minStreamerNotifyFrequency : Nat := 1024

structure MetricStreamer where
  groupIndex : Nat
  sampleSize : Nat
  actualBufferSize : Nat
deriving DecidableEq, Repr

/-- `zet_metric_streamer_desc_t`. -/
structure MetricStreamerDesc where
  samplingPeriod : Nat
  notifyEveryNReports : Nat
deriving DecidableEq, Repr

/-- The streamers of a context by their order of creation, and by the number of an event the mask and the size that
`setMetricTrackData` left there. -/
structure StreamerSystem (κ : Type) where
  kernel : κ
  streamers : List (Option MetricStreamer)
  tracked : Nat → Option (BitVec 64 × Nat)

/-- The calls, and what happens to the kernel's sessions in between. A group comes with what is read of it and of its
device. -/
inductive StreamerCall (ε : Type) where
  | metricStreamerOpen (hDevice hMetricGroup : Bool) (desc : Option MetricStreamerDesc) (phMetricStreamer : Bool)
      (metricsLoaded isActivated : Bool) (groupIndex : Nat) (hNotificationEvent : Option Nat)
  | close (streamer : Nat)
  | readData (streamer maxReportCount : Nat) (pRawDataSize : Option Nat) (pRawData : Bool)
  | trackMetricData (event : Nat)
  | elapse (event : ε)
deriving DecidableEq, Repr

/-- A result; a new streamer with the size of its samples; the result of a read with the size that it leaves and the
bytes that it wrote; whether the event is signalled. -/
inductive StreamerAnswer where
  | nothing
  | result (result : ZeResult)
  | opened (sampleSize : Nat)
  | data (result : ZeResult) (size : Nat) (written : List UInt8)
  | signals (signalled : Bool)
deriving DecidableEq, Repr

/-- The checks of `Context::metricStreamerOpen`. -/
def checkStreamerDesc (hDevice hMetricGroup : Bool) (desc : Option MetricStreamerDesc) (phMetricStreamer : Bool)
    (metricsLoaded isActivated : Bool) : Except ZeResult MetricStreamerDesc :=
  if !hDevice then .error ZE_RESULT_ERROR_INVALID_NULL_HANDLE
  else if !hMetricGroup then .error ZE_RESULT_ERROR_INVALID_NULL_HANDLE
  else
    match desc with
    | none => .error ZE_RESULT_ERROR_INVALID_NULL_POINTER
    | some desc =>
      if !phMetricStreamer then .error ZE_RESULT_ERROR_INVALID_NULL_POINTER
      else if !metricsLoaded then .error ZE_RESULT_ERROR_UNINITIALIZED
      else if !isActivated then .error ZE_RESULT_NOT_READY
      else if desc.samplingPeriod < minSamplingRateNs then .error ZE_RESULT_ERROR_INVALID_ARGUMENT
      else .ok desc

/-- The error of a start. -/
def startError (noMemory : Bool) : ZeResult :=
  if noMemory then ZE_RESULT_ERROR_OUT_OF_DEVICE_MEMORY else ZE_RESULT_ERROR_UNKNOWN

/-- What `readData` passes to the kernel for a size that is not zero. -/
def readSize (maxReportCount sampleSize actualBufferSize size : Nat) : Nat :=
  min (if size > actualBufferSize then actualBufferSize else size) (maxReportCount * sampleSize)

/-- What the constructor of a streamer leaves with its event, if that is to be notified. -/
def trackedWith {α : Type} (tracked : Nat → Option α) (hNotificationEvent : Option Nat) (notifyEveryNReports : Nat)
    (data : α) : Nat → Option α :=
  match hNotificationEvent with
  | some event => if notifyEveryNReports = 0 then tracked else Function.update tracked event (some data)
  | none => tracked

namespace StreamerSystem

variable {κ ε : Type} (ioctls : MetricIoctls κ ε)

/-- The constructor of a streamer. -/
def addStreamer (system : StreamerSystem κ) (desc : MetricStreamerDesc) (groupIndex : Nat)
    (hNotificationEvent : Option Nat) : StreamerAnswer × StreamerSystem κ :=
  match ioctls.metricStreamerStart system.kernel (startMask groupIndex) desc.samplingPeriod
      (max desc.notifyEveryNReports minStreamerNotifyFrequency) with
  | (.failed noMemory, kernel) => (.result (startError noMemory), { system with kernel := kernel })
  | (.started sampleSize, kernel) =>
    (.opened sampleSize,
      { kernel := kernel
        streamers := system.streamers ++ [some ⟨groupIndex, sampleSize, 0⟩]
        tracked :=
          trackedWith system.tracked hNotificationEvent desc.notifyEveryNReports
            (groupMask groupIndex, sampleSize * desc.notifyEveryNReports) })

def metricStreamerOpen (system : StreamerSystem κ) (checked : Except ZeResult MetricStreamerDesc) (groupIndex : Nat)
    (hNotificationEvent : Option Nat) : StreamerAnswer × StreamerSystem κ :=
  match checked with
  | .error result => (.result result, system)
  | .ok desc => system.addStreamer ioctls desc groupIndex hNotificationEvent

/-- The destructor of a streamer, which only warns when the stop fails. -/
def close (system : StreamerSystem κ) (streamer : Nat) (object : MetricStreamer) : StreamerAnswer × StreamerSystem κ :=
  match ioctls.metricStreamerStop system.kernel (groupMask object.groupIndex) with
  | (_, kernel) =>
    (.result ZE_RESULT_SUCCESS, { system with kernel := kernel, streamers := system.streamers.set streamer none })

/-- `MetricStreamer::getData`. -/
def getData (system : StreamerSystem κ) (mask : BitVec 64) (rawDataSize : Nat) :
    Except ZeResult (Nat × List UInt8) × StreamerSystem κ :=
  match ioctls.metricStreamerGetData system.kernel mask rawDataSize with
  | (none, kernel) => (.error ZE_RESULT_ERROR_UNKNOWN, { system with kernel := kernel })
  | (some data, kernel) => (.ok data, { system with kernel := kernel })

/-- `readData` for a size of zero. -/
def readSizeOnly (system : StreamerSystem κ) (streamer : Nat) (object : MetricStreamer) :
    StreamerAnswer × StreamerSystem κ :=
  match system.getData ioctls (groupMask object.groupIndex) 0 with
  | (.error _, next) => (.data ZE_RESULT_ERROR_UNKNOWN 0 [], next)
  | (.ok (dataSize, _), next) =>
    (.data ZE_RESULT_SUCCESS dataSize [],
      { next with streamers := next.streamers.set streamer (some { object with actualBufferSize := dataSize }) })

/-- A failed `getData` leaves the size as it is. -/
def readUpTo (system : StreamerSystem κ) (object : MetricStreamer) (requested : Nat) (pRawData : Bool) :
    StreamerAnswer × StreamerSystem κ :=
  if !pRawData then (.data ZE_RESULT_SUCCESS requested [], system)
  else
    match system.getData ioctls (groupMask object.groupIndex) requested with
    | (.error result, next) => (.data result requested [], next)
    | (.ok (dataSize, written), next) => (.data ZE_RESULT_SUCCESS dataSize written, next)

def readData (system : StreamerSystem κ) (streamer : Nat) (object : MetricStreamer) (maxReportCount : Nat)
    (pRawDataSize : Option Nat) (pRawData : Bool) : StreamerAnswer × StreamerSystem κ :=
  match pRawDataSize with
  | none => (.data ZE_RESULT_ERROR_INVALID_NULL_POINTER 0 [], system)
  | some size =>
    if size = 0 then system.readSizeOnly ioctls streamer object
    else
      system.readUpTo ioctls object (readSize maxReportCount object.sampleSize object.actualBufferSize size) pRawData

/-- One turn of the loop of `Event::trackMetricData`, for an event that is not yet signalled. -/
def trackMetricData (system : StreamerSystem κ) (event : Nat) : Bool × StreamerSystem κ :=
  match system.tracked event with
  | none => (false, system)
  | some (mask, expected) =>
    if expected = 0 ∨ mask = 0 then (false, system)
    else
      match system.getData ioctls mask 0 with
      | (.error _, next) => (false, next)
      | (.ok (dataSize, _), next) => (expected ≤ dataSize, next)

def step (system : StreamerSystem κ) : StreamerCall ε → StreamerAnswer × StreamerSystem κ
  | .metricStreamerOpen hDevice hMetricGroup desc phMetricStreamer metricsLoaded isActivated groupIndex event =>
    system.metricStreamerOpen ioctls
      (checkStreamerDesc hDevice hMetricGroup desc phMetricStreamer metricsLoaded isActivated) groupIndex event
  | .close streamer =>
    withLive system.streamers streamer (.nothing, system) fun object => system.close ioctls streamer object
  | .readData streamer maxReportCount pRawDataSize pRawData =>
    withLive system.streamers streamer (.nothing, system) fun object =>
      system.readData ioctls streamer object maxReportCount pRawDataSize pRawData
  | .trackMetricData event =>
    match system.trackMetricData ioctls event with
    | (signalled, next) => (.signals signalled, next)
  | .elapse event => (.nothing, { system with kernel := ioctls.elapse system.kernel event })

/-- A context without streamers. -/
def new (kernel : κ) : StreamerSystem κ := ⟨kernel, [], fun _ => none⟩

end StreamerSystem

end NpuDriver
