import NpuDriver.Cache.DiskCache
import NpuDriver.LevelZero.CommandList
import NpuDriver.Library.SeededChain

/-! Graph creation: the build flags, what the compiler is given, and the key of the disk cache. -/

namespace NpuDriver

open Library

/-- The constants of the graph extension's header. -/
structure GraphExtension where
  formatNgraphLite : UInt32
  flagEnableProfiling : UInt32
  flagDisableCaching : UInt32

/-- `vcl_compiler_properties_t`; strings are given without their terminating zero. -/
structure CompilerProperties where
  id : List UInt8
  versionMajor : UInt16
  versionMinor : UInt16
  supportedOpsets : UInt32
deriving DecidableEq, Repr

/-- The compiler library: whether its symbols are loaded, and what it reported when it was
initialized. -/
structure Compiler where
  loaded : Bool
  apiMajor : UInt16
  properties : CompilerProperties
deriving DecidableEq, Repr

structure HwInfo where
  deviceId : UInt32
  deviceRevision : UInt16
  tileConfig : UInt32
deriving DecidableEq, Repr

/-- `ze_graph_desc_2_t`; `inputHash` is a `ze_graph_input_hash_t` in front of its `pNext` chain. -/
structure GraphDesc where
  format : UInt32
  input : List UInt8
  buildFlags : Option (List UInt8)
  flags : UInt32
  inputHash : Option UInt64
deriving DecidableEq, Repr

/-- A call of `Graph::create`: the driver's build, its compiler, device and environment, and the
caller's descriptor. -/
structure GraphCreation where
  driverVersion : UInt32
  flagsOverride : Bool
  compiler : Compiler
  hwInfo : HwInfo
  environment : Option (List UInt8)
  order : MapOrder (List UInt8 × List UInt8)
  desc : GraphDesc

def ascii (text : String) : List UInt8 := text.toList.map fun letter => UInt8.ofNat letter.toNat

/-- `std::string::find`. -/
def findText (pattern : List UInt8) : List UInt8 → Option Nat
  | [] => if pattern = [] then some 0 else none
  | byte :: rest => if pattern <+: byte :: rest then some 0 else (findText pattern rest).map (· + 1)

def configOption : List UInt8 := ascii "--config"

def addOptionToBuildFlags (key value buildFlags : List UInt8) : List UInt8 :=
  let extended := if findText configOption buildFlags = none then buildFlags ++ ascii " --config" else buildFlags
  extended ++ ascii " " ++ key ++ ascii "=\"" ++ value ++ ascii "\""

def equalsSign : UInt8 := 61

def quoteSign : UInt8 := 34

def withoutSpaces (text : List UInt8) : List UInt8 := text.filter fun byte => byte ≠ 32

/-- The key in front of the next equals sign, and the options behind it. -/
def getKey (options : List UInt8) : List UInt8 × List UInt8 :=
  match options.findIdx? (· == equalsSign) with
  | none => ([], options)
  | some keyEnd => (withoutSpaces (options.take keyEnd), options.drop (keyEnd + 1))

/-- The next quoted value, and the options behind it. -/
def getValue (options : List UInt8) : List UInt8 × List UInt8 :=
  match options.findIdx? (· == quoteSign) with
  | none => ([], options)
  | some valueStart =>
    match (options.drop (valueStart + 1)).findIdx? (· == quoteSign) with
    | none => ([], options)
    | some size =>
      (withoutSpaces ((options.drop (valueStart + 1)).take size), options.drop (valueStart + size + 2))

theorem getKey_shorter {options : List UInt8} (named : (getKey options).1 ≠ []) :
    (getKey options).2.length < options.length := by
  rw [getKey] at named ⊢
  split at named
  · exact (named rfl).elim
  · rename_i keyEnd found
    have inside : 0 < options.length := by
      cases options with
      | nil => cases found
      | cons => exact Nat.succ_pos _
    simp only [List.length_drop]
    omega

theorem getValue_length (options : List UInt8) : (getValue options).2.length ≤ options.length := by
  rw [getValue]
  split
  · exact Nat.le_refl _
  · split
    · exact Nat.le_refl _
    · simp

/-- The pairs of keys and values of an option string, up to the first empty key. -/
def readOptions (options : List UInt8) : List (List UInt8 × List UInt8) :=
  if _named : (getKey options).1 = [] then []
  else
    ((getKey options).1, (getValue (getKey options).2).1) :: readOptions (getValue (getKey options).2).2
termination_by options.length
decreasing_by exact Nat.lt_of_le_of_lt (getValue_length _) (getKey_shorter _named)

/-- `std::string::substr` to the end, `none` where it throws. -/
def substr (text : List UInt8) (start : Nat) : Option (List UInt8) :=
  if start ≤ text.length then some (text.drop start) else none

/-- The caller's options, overridden by those of the environment; of several values of a key the
caller's first one and the environment's last one count. -/
def overrideOptions (configString env : List UInt8) : List (List UInt8 × List UInt8) :=
  let options := (readOptions configString).foldl
    (fun map option => modifyEntry option.1 option.2 id map) []
  (readOptions env).foldl (fun map option => modifyEntry option.1 option.2 (fun _ => option.2) map) options

/-- `none` where `substr` throws, behind a `--config` at the very end. -/
def setUpFlagsFromEnvVariable (creation : GraphCreation) (graphBuildFlags : List UInt8) :
    Option (List UInt8) :=
  if creation.flagsOverride = false then some graphBuildFlags
  else
    match creation.environment with
    | none => some graphBuildFlags
    | some env =>
      let configStart := findText configOption graphBuildFlags
      let flagsString := (configStart.map graphBuildFlags.take).getD graphBuildFlags
      let configString :=
        match configStart with
        | none => some []
        | some start => substr graphBuildFlags (start + (configOption.length + 1))
      configString.map fun config =>
        flagsString ++ ascii " --config " ++
          (creation.order.order (overrideOptions config env)).flatMap fun option =>
            option.1 ++ ascii "=\"" ++ option.2 ++ ascii "\" "

def addDeviceConfigToBuildFlags (extension : GraphExtension) (creation : GraphCreation) :
    Option (List UInt8) :=
  let buildFlags := creation.desc.buildFlags.getD []
  setUpFlagsFromEnvVariable creation
    (if creation.desc.flags &&& extension.flagEnableProfiling ≠ 0 then
      addOptionToBuildFlags (ascii "PERF_COUNT") (ascii "YES") buildFlags
    else buildFlags)

/-- The descriptor as `getBlobContainerNGraphLite` hands it on. -/
def GraphCreation.handedOn (extension : GraphExtension) (creation : GraphCreation) : GraphDesc :=
  { creation.desc with buildFlags := addDeviceConfigToBuildFlags extension creation }

/-- The fields of `updateConfigurationHash`, in order. -/
def configurationFields (driverVersion : UInt32) (compiler : Compiler) (desc : GraphDesc) :
    List (List UInt8) :=
  [littleEndian 4 driverVersion.toNat] ++
    (if compiler.loaded then
      [compiler.properties.id,
        littleEndian 2 compiler.properties.versionMajor.toNat ++
          littleEndian 2 compiler.properties.versionMinor.toNat,
        littleEndian 4 compiler.properties.supportedOpsets.toNat]
    else []) ++
    [littleEndian 4 desc.format.toNat] ++ desc.buildFlags.toList ++ [littleEndian 4 desc.flags.toNat]

/-- What `final` hashes. -/
def hashedInput (desc : GraphDesc) : List UInt8 :=
  match desc.inputHash with
  | some hash => littleEndian 8 hash.toNat
  | none => desc.input

/-- `computeKey` up to the hexadecimal form of its table. -/
def computeKey (cache : DiskCache) (city : CityHash) (driverVersion : UInt32) (compiler : Compiler)
    (desc : GraphDesc) : Option HashTable :=
  if cache.enabled = false then none
  else
    some (city.tableOf (chain city.cityHash64WithSeed 0 (configurationFields driverVersion compiler desc))
      (hashedInput desc))

/-- The table from which the key of a creation is made, `none` where the cache is not used. -/
def GraphCreation.keyTable (extension : GraphExtension) (cache : DiskCache) (city : CityHash)
    (creation : GraphCreation) : Option HashTable :=
  if creation.desc.format = extension.formatNgraphLite ∧
      creation.desc.flags &&& extension.flagDisableCaching = 0 ∧
      (addDeviceConfigToBuildFlags extension creation).isSome then
    computeKey cache city creation.driverVersion creation.compiler (creation.handedOn extension)
  else none

/-- `vcl_device_desc_t` without its size. -/
structure DeviceDesc where
  deviceID : UInt32
  revision : UInt16
  tileCount : Nat
deriving DecidableEq, Repr

/-- What the blob depends on: the compiler, the device that `compilerCreate` describes to it, and the
options and the model of its executable descriptor. -/
structure CompilerInputs where
  id : List UInt8
  versionMajor : UInt16
  versionMinor : UInt16
  device : DeviceDesc
  options : List UInt8
  modelIR : List UInt8
deriving DecidableEq, Repr

/-- `std::bitset<32>::count`. -/
def bitCount (word : UInt32) : Nat := ((List.range 32).filter fun bit => word.toNat.testBit bit).length

def compilerDevice (hwInfo : HwInfo) : DeviceDesc :=
  ⟨hwInfo.deviceId, hwInfo.deviceRevision, bitCount hwInfo.tileConfig⟩

/-- `VCL_COMPILER_VERSION_MAJOR`. -/
def compilerVersionMajor : UInt16 := 7

/-- What `getCompiledBlob` passes to the compiler; nothing where the compiler is missing or its
interface is incompatible. -/
def getCompiledBlob (compiler : Compiler) (hwInfo : HwInfo) (desc : GraphDesc) : Option CompilerInputs :=
  if compiler.loaded = false ∨ compiler.apiMajor ≠ compilerVersionMajor then none
  else
    some ⟨compiler.properties.id, compiler.properties.versionMajor, compiler.properties.versionMinor,
      compilerDevice hwInfo, desc.buildFlags.getD [], desc.input⟩

def GraphCreation.compilerInputs (extension : GraphExtension) (creation : GraphCreation) :
    Option CompilerInputs :=
  if (addDeviceConfigToBuildFlags extension creation).isSome then
    getCompiledBlob creation.compiler creation.hwInfo (creation.handedOn extension)
  else none

end NpuDriver
