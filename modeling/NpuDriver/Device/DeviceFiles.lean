import NpuDriver.Device.MetricDescriptors
import NpuDriver.LevelZero.Graph
import NpuDriver.Library.FromChars
import NpuDriver.Memory.GemHandles

/-! The device files: their descriptors, and what makes one of them a device. -/

namespace NpuDriver

open Library

/-- What `open` and the checks of `osiOpen` find behind a path. -/
structure FileReply where
  granted : Bool
  stated : Bool
  character : Bool
  links : Nat
deriving DecidableEq, Repr

/-- The replies to the requests on an open device file; `none` is a request that fails. `version` is the major
version with `name_len`, and `name` what the kernel writes when it is asked again. -/
structure DeviceReplies where
  file : FileReply
  version : Option (Int × Nat)
  name : Option (List UInt8)
  getParam : (param index : Nat) → Option UInt64
  primeCapability : Option UInt64
  metrics : MetricInfoReplies

/-- The descriptors of the device files, and those that the rest of the process has. -/
structure DeviceFiles where
  numbers : HandleNumbers
  opened : Nat
  others : List Nat
  files : List Nat
  log : List (ResourceEvent Nat)

namespace DeviceFiles

def openFile (state : DeviceFiles) : Nat × DeviceFiles :=
  let fd := state.numbers.next state.opened (state.others ++ state.files)
  (fd,
    { state with
      opened := state.opened + 1
      files := fd :: state.files
      log := .obtained fd :: state.log })

def closeFile (state : DeviceFiles) (fd : Nat) : DeviceFiles :=
  { state with
    files := state.files.filter (· ≠ fd)
    log := .released fd :: state.log }

/-- `osiOpen`, which closes a file that it does not take. -/
def osiOpen (state : DeviceFiles) (reply : FileReply) : Option Nat × DeviceFiles :=
  if !reply.granted then (none, state)
  else
    let (fd, next) := state.openFile
    if !reply.stated || !reply.character || reply.links > 1 then (none, next.closeFile fd)
    else (some fd, next)

/-- `VPUDriverApi::~VPUDriverApi`. -/
def destruct (state : DeviceFiles) (vpuFd : Nat) : DeviceFiles :=
  if vpuFd > 0 then state.closeFile vpuFd else state

/-- `VPUDriverApi::openDriverApi`, of which the descriptor is left. -/
def openDriverApi (state : DeviceFiles) (reply : FileReply) : Option Nat × DeviceFiles := state.osiOpen reply

/-- A function that opens the driver API, works with it and destroys it. -/
def withDriverApi {α : Type} (state : DeviceFiles) (reply : FileReply) (refused answer : α) : α × DeviceFiles :=
  match state.openDriverApi reply with
  | (none, next) => (refused, next)
  | (some vpuFd, next) => (answer, next.destruct vpuFd)

end DeviceFiles

/-- `umdIoctlVersionMajor`. -/
def umdIoctlVersionMajor : Int := 1

namespace DeviceReplies

/-- `isVpuDevice`. The name is as long as the first reply says. -/
def isVpuDevice (replies : DeviceReplies) : Bool :=
  match replies.version with
  | none => false
  | some (versionMajor, nameLen) =>
    if umdIoctlVersionMajor ≠ versionMajor then false
    else
      match replies.name with
      | none => false
      | some name =>
        let kmdVersion := name.takeD nameLen 0
        kmdVersion = ascii "intel_vpu" || kmdVersion = ascii "intel_npu"

/-- `getDeviceParam` of a type with a largest value; `none` is the exception. -/
def getDeviceParam (replies : DeviceReplies) (largest param index : Nat) : Option Nat :=
  match replies.getParam param index with
  | none => none
  | some value => if value.toNat > largest then none else some value.toNat

/-- `DRM_IVPU_PARAM_CAPABILITIES`. -/
def checkDeviceCapability (replies : DeviceReplies) (index : Nat) : Bool :=
  match replies.getParam 13 index with
  | none => false
  | some value => value ≠ 0

/-- The capability needs both of `DRM_PRIME_CAP_IMPORT` and `DRM_PRIME_CAP_EXPORT`. -/
def checkPrimeBuffersCapability (replies : DeviceReplies) : Bool :=
  match replies.primeCapability with
  | none => false
  | some value => value &&& 3 = 3

end DeviceReplies

/-- `VPU::VPUHwInfo` with the parameters that the driver asks for. -/
structure DeviceHwInfo extends VPUHwInfo, HwInfo where
  tileFuseMask : UInt32
  maxHardwareContexts : Nat
  coreClockRate : Nat
  platformType : Nat
  fwMappedInferenceVersion : Nat
  fwJsmApiVersion : Nat
  metricStreamerCapability : Bool
  dmaMemoryRangeCapability : Bool
  primeBuffersCapability : Bool
  userPtrCapability : Bool

/-- What `getHwInfo37xx`, `getHwInfo40xx` and `getHwInfo50xx` have in common. -/
def hwInfoOf (npuArch : NpuArch) (extraDmaDescriptorSize fwTimestampType : Nat) (layout : CopyDescriptorLayout)
    (tileFuseMask : UInt32) : DeviceHwInfo where
  npuArch := npuArch
  extraDmaDescriptorSize := extraDmaDescriptorSize
  fwJsmCmdApiVersion := 0
  fwTimestampType := fwTimestampType
  fwPreemptBufSize := 0
  cmdQueueCreationCapability := false
  getCopyCommand := some layout
  deviceId := 0
  deviceRevision := 0xffff
  tileConfig := 0
  tileFuseMask := tileFuseMask
  maxHardwareContexts := 1
  coreClockRate := 0
  platformType := 0
  fwMappedInferenceVersion := 0
  fwJsmApiVersion := 0
  metricStreamerCapability := false
  dmaMemoryRangeCapability := false
  primeBuffersCapability := false
  userPtrCapability := false

def getHwInfo37xx : DeviceHwInfo := hwInfoOf .NPU37XX 16 0 .vpu_cmd_copy_descriptor_37xx 0x3

def getHwInfo40xx : DeviceHwInfo := hwInfoOf .NPU40XX 0 1 .vpu_cmd_copy_descriptor_40xx 0x3f

def getHwInfo50xx (deviceId : Nat) : DeviceHwInfo :=
  hwInfoOf .NPU50XX 0 1 .vpu_cmd_copy_descriptor_40xx
    (if deviceId = 0xb03e then 0x7 else if deviceId = 0xfd3e then 0x1 else 0)

/-- The identifiers of MTL and ARL, LNL, PTL_P and WCL; `none` is the exception for another one. -/
def getHwInfoByDeviceId (deviceId : Nat) : Option DeviceHwInfo :=
  if deviceId = 0x7d1d ∨ deviceId = 0xad1d then some getHwInfo37xx
  else if deviceId = 0x643e then some getHwInfo40xx
  else if deviceId = 0xb03e ∨ deviceId = 0xfd3e then some (getHwInfo50xx deviceId)
  else none

structure VPUDevice where
  minor : Nat
  hwInfo : DeviceHwInfo
  groupsInfo : List GroupInfo

namespace VPUDevice

/-- `initializeCaps`; `none` where an exception is caught. Versions of the firmware stand under the numbers 7, 3
and 4. -/
def initializeCaps (replies : DeviceReplies) : Option DeviceHwInfo := do
  let deviceId ← replies.getDeviceParam UINT32_MAX 0 0
  let hwInfo ← getHwInfoByDeviceId deviceId
  let deviceRevision ← replies.getDeviceParam UINT16_MAX 1 0
  let maxHardwareContexts ← replies.getDeviceParam UINT32_MAX 4 0
  let coreClockRate ← replies.getDeviceParam UINT32_MAX 3 0
  let platformType ← replies.getDeviceParam UINT32_MAX 2 0
  let fwMappedInferenceVersion ← replies.getDeviceParam UINT64_MAX 8 7
  let fwJsmCmdApiVersion ← replies.getDeviceParam UINT64_MAX 8 3
  let fwJsmApiVersion ← replies.getDeviceParam UINT64_MAX 8 4
  let tileConfigParam ← replies.getDeviceParam UINT32_MAX 11 0
  -- no error where the kernel does not know the size of a preemption buffer
  let fwPreemptBufSize := (replies.getDeviceParam UINT64_MAX 14 0).getD 0
  some
    { hwInfo with
      deviceId := UInt32.ofNat deviceId
      deviceRevision := UInt16.ofNat deviceRevision
      maxHardwareContexts := maxHardwareContexts
      coreClockRate := coreClockRate
      platformType := platformType
      fwMappedInferenceVersion := fwMappedInferenceVersion
      fwJsmCmdApiVersion := fwJsmCmdApiVersion
      fwJsmApiVersion := fwJsmApiVersion
      tileConfig := ~~~(UInt32.ofNat tileConfigParam) &&& hwInfo.tileFuseMask
      fwPreemptBufSize := fwPreemptBufSize
      primeBuffersCapability := replies.checkPrimeBuffersCapability
      metricStreamerCapability := replies.checkDeviceCapability 1
      dmaMemoryRangeCapability := replies.checkDeviceCapability 2
      cmdQueueCreationCapability := replies.checkDeviceCapability 3
      userPtrCapability := NpuArch.NPU37XX.generation < hwInfo.npuArch.generation && replies.checkDeviceCapability 4 }

/-- What `init` does with an open file. -/
def examine (minor : Nat) (replies : DeviceReplies) (enableMetrics : Bool) : Except MetricGroup.Fault (Option VPUDevice) :=
  if !replies.isVpuDevice then .ok none
  else
    match initializeCaps replies with
    | none => .ok none
    | some hwInfo =>
      if enableMetrics && hwInfo.metricStreamerCapability then
        match initializeMetricGroups replies.metrics [] with
        | .error fault => .error fault
        | .ok (false, _) => .ok none
        | .ok (true, groupsInfo) => .ok (some ⟨minor, hwInfo, groupsInfo⟩)
      else .ok (some ⟨minor, hwInfo, []⟩)

def init (minor : Nat) (replies : DeviceReplies) (enableMetrics : Bool) (state : DeviceFiles) :
    Except MetricGroup.Fault (Option VPUDevice) × DeviceFiles :=
  state.withDriverApi replies.file (.ok none) (examine minor replies enableMetrics)

/-- An NPU that answers `DRM_IVPU_PARAM_ENGINE_HEARTBEAT`. -/
def beats (replies : DeviceReplies) : Bool :=
  replies.isVpuDevice && (replies.getDeviceParam UINT32_MAX 9 0).isSome

def isConnected (replies : DeviceReplies) (state : DeviceFiles) : Bool × DeviceFiles :=
  state.withDriverApi replies.file false (beats replies)

/-- The digits of `std::from_chars`, in both cases of letters; 255 is none of a digit. -/
def charValue (symbol : UInt8) : Nat :=
  if 48 ≤ symbol ∧ symbol ≤ 57 then symbol.toNat - 48
  else if 97 ≤ symbol ∧ symbol ≤ 122 then symbol.toNat - 87
  else if 65 ≤ symbol ∧ symbol ≤ 90 then symbol.toNat - 55
  else 255

structure PciAddress where
  domain : Nat
  bus : Nat
  device : Nat
  function : Nat
deriving DecidableEq, Repr

/-- `getDeviceLink`, whose buffer ends with a zero; `link` is what `readlink` finds, and `stated` the answer of
`fstat`. -/
def getDeviceLink (stated : Bool) (link : Option (List UInt8)) : List UInt8 :=
  if !stated then []
  else
    match link with
    | none => []
    | some target => (target.take 255).takeWhile (· ≠ 0)

/-- The number between two positions in front of another one; a part that is none leaves the variable zero. -/
def addressPart (devLink : List UInt8) (pos first last : Nat) : Nat :=
  ((fromChars 16 32 charValue ((devLink.drop (pos - first)).take (first - last))).toOption).getD 0

/-- What `getBDF` finds in the link. -/
def linkAddress (devLink : List UInt8) : Option PciAddress :=
  if devLink = [] then none
  else
    match findText (ascii "accel") devLink with
    | none => none
    | some pos =>
      if pos < 13 then none
      else
        some ⟨addressPart devLink pos 13 9, addressPart devLink pos 8 6, addressPart devLink pos 5 3,
          addressPart devLink pos 2 1⟩

def getBDF (file : FileReply) (stated : Bool) (link : Option (List UInt8)) (state : DeviceFiles) :
    Option PciAddress × DeviceFiles :=
  state.withDriverApi file none (linkAddress (getDeviceLink stated link))

/-- `osiReadFile`: at most 255 bytes, and zeros behind them. -/
def osiReadFile (content : Option (List UInt8)) : List UInt8 :=
  match content with
  | none => []
  | some bytes => bytes.take 255 ++ List.replicate (256 - (bytes.take 255).length) 0

/-- What `getActiveTime` makes of the content of `npu_busy_time_us`. -/
def activeTimeOf (activeTime : List UInt8) : Option Nat :=
  if activeTime = [] then none else (fromChars 10 64 charValue activeTime).toOption

def getActiveTime (file : FileReply) (content : Option (List UInt8)) (state : DeviceFiles) :
    Option Nat × DeviceFiles :=
  state.withDriverApi file none (activeTimeOf (osiReadFile content))

end VPUDevice

/-- `DeviceFactory::createDevices` from some minor on. -/
def createDevices (replies : Nat → DeviceReplies) (enableMetrics : Bool) :
    List Nat → DeviceFiles → Except MetricGroup.Fault (List VPUDevice) × DeviceFiles
  | [], state => (.ok [], state)
  | minor :: rest, state =>
    match VPUDevice.init minor (replies minor) enableMetrics state with
    | (.error fault, next) => (.error fault, next)
    | (.ok found, next) =>
      match createDevices replies enableMetrics rest next with
      | (.error fault, last) => (.error fault, last)
      | (.ok devices, last) => (.ok (found.toList ++ devices), last)

end NpuDriver
