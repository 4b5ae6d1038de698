import NpuDriver.LevelZero.Graph

/-! What the key of the disk cache tells about the blob. -/

namespace NpuDriver

open Library

variable {extension : GraphExtension} {cache : DiskCache} {city : CityHash} {first second : GraphCreation}

/-- The fields that the configuration hash of a creation is made of. -/
def GraphCreation.fields (extension : GraphExtension) (creation : GraphCreation) : List (List UInt8) :=
  configurationFields creation.driverVersion creation.compiler (creation.handedOn extension)

def GraphCreation.configurationCalls (extension : GraphExtension) (city : CityHash)
    (creation : GraphCreation) : List (List UInt8 × UInt64) :=
  chainCalls city.cityHash64WithSeed 0 (creation.fields extension)

/-- The hash functions tell apart what they are given by the two creations. -/
structure HashesInjective (extension : GraphExtension) (city : CityHash) (first second : GraphCreation) :
    Prop where
  configuration : InjectiveOn (fun call : List UInt8 × UInt64 => city.cityHash64WithSeed call.1 call.2)
    (first.configurationCalls extension city ++ second.configurationCalls extension city)
  input : InjectiveOn city.cityHashCrc256 [hashedInput first.desc, hashedInput second.desc]

/-- A hash that the caller supplies determines the model. -/
def HashDeterminesModel (first second : GraphCreation) : Prop :=
  ∀ hash, first.desc.inputHash = some hash → second.desc.inputHash = some hash →
    first.desc.input = second.desc.input

/-- The two creations agree in everything that goes into the key. -/
structure SameHashed (extension : GraphExtension) (first second : GraphCreation) : Prop where
  driverVersion : first.driverVersion = second.driverVersion
  compiler : first.compiler.properties = second.compiler.properties
  format : first.desc.format = second.desc.format
  flags : first.desc.flags = second.desc.flags
  buildFlags : addDeviceConfigToBuildFlags extension first = addDeviceConfigToBuildFlags extension second
  input : hashedInput first.desc = hashedInput second.desc

/-- Creations that the key cannot tell apart are for the same device, and for the same model also where
only one of them supplies a hash of it. -/
def KeyCoversInputs (extension : GraphExtension) (first second : GraphCreation) : Prop :=
  SameHashed extension first second →
    compilerDevice first.hwInfo = compilerDevice second.hwInfo ∧
      (first.desc.inputHash.isSome ≠ second.desc.inputHash.isSome → first.desc.input = second.desc.input)

theorem littleEndian_injective (left right : Nat) (leftFits : left < 256 ^ width)
    (rightFits : right < 256 ^ width) (same : littleEndian width left = littleEndian width right) :
    left = right := by
  rw [← fromLittleEndian_of_lt leftFits, same, fromLittleEndian_of_lt rightFits]

theorem littleEndian_uint32 {left right : UInt32}
    (same : littleEndian 4 left.toNat = littleEndian 4 right.toNat) : left = right :=
  UInt32.toNat.inj (littleEndian_injective left.toNat right.toNat left.toNat_lt right.toNat_lt same)

theorem littleEndian_uint16 {left right : UInt16}
    (same : littleEndian 2 left.toNat = littleEndian 2 right.toNat) : left = right :=
  UInt16.toNat.inj (littleEndian_injective left.toNat right.toNat left.toNat_lt right.toNat_lt same)

theorem littleEndian_uint64 {left right : UInt64}
    (same : littleEndian 8 left.toNat = littleEndian 8 right.toNat) : left = right :=
  UInt64.toNat.inj (littleEndian_injective left.toNat right.toNat left.toNat_lt right.toNat_lt same)

/-- What is known of a creation that reaches both the cache and the compiler. -/
structure Reaches (extension : GraphExtension) (city : CityHash)
    (creation : GraphCreation) (table : HashTable) (inputs : CompilerInputs) (options : List UInt8) :
    Prop where
  loaded : creation.compiler.loaded = true
  flags : addDeviceConfigToBuildFlags extension creation = some options
  table : table = city.tableOf (chain city.cityHash64WithSeed 0 (creation.fields extension))
    (hashedInput creation.desc)
  inputs : inputs = ⟨creation.compiler.properties.id, creation.compiler.properties.versionMajor,
    creation.compiler.properties.versionMinor, compilerDevice creation.hwInfo, options, creation.desc.input⟩

theorem reaches {creation : GraphCreation} {table : HashTable} {inputs : CompilerInputs}
    (keyed : creation.keyTable extension cache city = some table)
    (compiled : creation.compilerInputs extension = some inputs) :
    ∃ flags, Reaches extension city creation table inputs flags := by
  rw [GraphCreation.keyTable] at keyed
  rw [GraphCreation.compilerInputs] at compiled
  split at keyed
  · rename_i used
    obtain ⟨flags, effective⟩ := Option.isSome_iff_exists.mp used.2.2
    rw [if_pos used.2.2, getCompiledBlob] at compiled
    rw [computeKey] at keyed
    split at keyed
    · cases keyed
    · split at compiled
      · cases compiled
      · rename_i usable
        cases keyed
        cases compiled
        refine ⟨flags, Bool.of_not_eq_false fun missing => usable (.inl missing), effective, rfl, ?_⟩
        simp [GraphCreation.handedOn, effective]
  · cases keyed

/-- Tables are equal exactly when their words are. -/
theorem tableOf_injective {left right : UInt64} {data other : List UInt8}
    (same : city.tableOf left data = city.tableOf right other) :
    city.cityHashCrc256 data = city.cityHashCrc256 other ∧ left = right := by
  have words := congrArg HashTable.words same
  simp only [CityHash.tableOf] at words
  simp only [List.cons.injEq, and_true] at words
  obtain ⟨word0, word1, word2, word3, config⟩ := words
  exact ⟨Prod.ext word0 (Prod.ext word1 (Prod.ext word2 word3)), config⟩

theorem fields_eq {creation : GraphCreation} (loaded : creation.compiler.loaded = true)
    (effective : addDeviceConfigToBuildFlags extension creation = some flags) :
    creation.fields extension =
      [littleEndian 4 creation.driverVersion.toNat, creation.compiler.properties.id,
        littleEndian 2 creation.compiler.properties.versionMajor.toNat ++
          littleEndian 2 creation.compiler.properties.versionMinor.toNat,
        littleEndian 4 creation.compiler.properties.supportedOpsets.toNat,
        littleEndian 4 creation.desc.format.toNat, flags, littleEndian 4 creation.desc.flags.toNat] := by
  simp [GraphCreation.fields, configurationFields, GraphCreation.handedOn, loaded, effective]

/-- Equal fields come from equal configurations. -/
theorem sameHashed_of_fields (firstReaches : first.compiler.loaded = true)
    (secondReaches : second.compiler.loaded = true)
    (firstFlags : addDeviceConfigToBuildFlags extension first = some flags)
    (secondFlags : addDeviceConfigToBuildFlags extension second = some others)
    (same : first.fields extension = second.fields extension)
    (input : hashedInput first.desc = hashedInput second.desc) : SameHashed extension first second := by
  rw [fields_eq firstReaches firstFlags, fields_eq secondReaches secondFlags] at same
  simp only [List.cons.injEq, and_true] at same
  obtain ⟨driver, id, version, opsets, format, effective, flags⟩ := same
  obtain ⟨major, minor⟩ := List.append_inj version (by simp)
  exact {
    driverVersion := littleEndian_uint32 driver
    compiler := by
      rw [CompilerProperties.mk.injEq]
      exact ⟨id, littleEndian_uint16 major, littleEndian_uint16 minor, littleEndian_uint32 opsets⟩
    format := littleEndian_uint32 format
    flags := littleEndian_uint32 flags
    buildFlags := by rw [firstFlags, secondFlags, effective]
    input := input }

/-- Where both creations supply a hash or both do not, what is hashed tells the models apart. -/
theorem model_of_hashedInput (determines : HashDeterminesModel first second)
    (alike : first.desc.inputHash.isSome = second.desc.inputHash.isSome)
    (same : hashedInput first.desc = hashedInput second.desc) : first.desc.input = second.desc.input := by
  rw [hashedInput, hashedInput] at same
  cases left : first.desc.inputHash with
  | none =>
    cases right : second.desc.inputHash with
    | none =>
      rw [left, right] at same
      exact same
    | some hash =>
      rw [left, right] at alike
      cases alike
  | some hash =>
    cases right : second.desc.inputHash with
    | none =>
      rw [left, right] at alike
      cases alike
    | some other =>
      rw [left, right] at same
      cases littleEndian_uint64 same
      exact determines hash left right

/-- Different compiler inputs give different keys exactly when the device and, for a model that only
one of the creations supplies a hash of, the model follow from what the key covers. -/
theorem cache_key_sound {firstTable secondTable : HashTable} {firstInputs secondInputs : CompilerInputs}
    (firstKeyed : first.keyTable extension cache city = some firstTable)
    (secondKeyed : second.keyTable extension cache city = some secondTable)
    (firstCompiled : first.compilerInputs extension = some firstInputs)
    (secondCompiled : second.compilerInputs extension = some secondInputs)
    (injective : HashesInjective extension city first second)
    (determines : HashDeterminesModel first second) :
    (firstInputs ≠ secondInputs → firstTable ≠ secondTable) ↔ KeyCoversInputs extension first second := by
  obtain ⟨firstFlags, firstReaches⟩ := reaches firstKeyed firstCompiled
  obtain ⟨secondFlags, secondReaches⟩ := reaches secondKeyed secondCompiled
  have fields := fields_eq firstReaches.loaded firstReaches.flags
  have others := fields_eq secondReaches.loaded secondReaches.flags
  constructor
  · intro sound same
    have tables : firstTable = secondTable := by
      have effective := same.buildFlags
      rw [firstReaches.flags, secondReaches.flags] at effective
      cases effective
      rw [firstReaches.table, secondReaches.table, fields, others, same.driverVersion, same.compiler,
        same.format, same.flags, same.input]
    have inputs : firstInputs = secondInputs := by
      by_contra different
      exact sound different tables
    rw [firstReaches.inputs, secondReaches.inputs, CompilerInputs.mk.injEq] at inputs
    obtain ⟨-, -, -, device, -, model⟩ := inputs
    exact ⟨device, fun _ => model⟩
  · intro covers different tables
    rw [firstReaches.table, secondReaches.table] at tables
    obtain ⟨words, config⟩ := tableOf_injective tables
    have input := injective.input _ List.mem_cons_self _ (List.mem_cons_of_mem _ List.mem_cons_self) words
    have length : (first.fields extension).length = (second.fields extension).length := by
      rw [fields, others]
      rfl
    obtain ⟨-, sameFields⟩ := chain_injective length injective.configuration config
    have same := sameHashed_of_fields firstReaches.loaded secondReaches.loaded firstReaches.flags
      secondReaches.flags sameFields input
    obtain ⟨device, mixed⟩ := covers same
    have model : first.desc.input = second.desc.input := by
      by_cases alike : first.desc.inputHash.isSome = second.desc.inputHash.isSome
      · exact model_of_hashedInput determines alike input
      · exact mixed alike
    refine different ?_
    have effective := same.buildFlags
    rw [firstReaches.flags, secondReaches.flags] at effective
    cases effective
    rw [firstReaches.inputs, secondReaches.inputs, same.compiler, device, model]

/-- Polynomial hashes. -/
def sampleCity : CityHash where
  cityHash64WithSeed data seed :=
    data.foldl (fun hash byte => hash * 1000003 + byte.toUInt64 + 1) (seed * 31 + 7)
  cityHashCrc256 data := (data.foldl (fun hash byte => hash * 257 + byte.toUInt64 + 1) 0, 0, 0, 0)

def sampleExtension : GraphExtension := ⟨2, 1, 2⟩

/-- A creation with the given device and build flags. -/
def sampleCreation (hwInfo : HwInfo) (buildFlags : List UInt8) : GraphCreation where
  driverVersion := 100
  flagsOverride := true
  compiler := ⟨true, 7, ⟨[66, 67], 7, 6, 11⟩⟩
  hwInfo := hwInfo
  environment := none
  order := ⟨id, fun entries => .refl entries⟩
  desc := ⟨2, [1, 2, 3], some buildFlags, 0, none⟩

def firstDevice : HwInfo := ⟨0x7d1d, 1, 15⟩

def secondDevice : HwInfo := ⟨0x643e, 4, 63⟩

def keyCache : DiskCache := ⟨true, 1000, fun _ => ⟨[0, 0, 0, 0, 0], rfl⟩⟩

/-- The table of a creation, which does not depend on its device. -/
def sampleTable (buildFlags : List UInt8) : HashTable :=
  sampleCity.tableOf (chain sampleCity.cityHash64WithSeed 0
    ((sampleCreation firstDevice buildFlags).fields sampleExtension)) [1, 2, 3]

def sampleInputs (hwInfo : HwInfo) (buildFlags : List UInt8) : CompilerInputs :=
  ⟨[66, 67], 7, 6, compilerDevice hwInfo, buildFlags, [1, 2, 3]⟩

/-- Different build flags give different keys. -/
theorem flags_change_key : sampleTable [45] ≠ sampleTable [46] :=
  have injective : HashesInjective sampleExtension sampleCity (sampleCreation firstDevice [45])
      (sampleCreation firstDevice [46]) := ⟨by decide +kernel, by decide +kernel⟩
  have firstKeyed : (sampleCreation firstDevice [45]).keyTable sampleExtension keyCache sampleCity =
      some (sampleTable [45]) := rfl
  have secondKeyed : (sampleCreation firstDevice [46]).keyTable sampleExtension keyCache sampleCity =
      some (sampleTable [46]) := rfl
  have differ : sampleInputs firstDevice [45] ≠ sampleInputs firstDevice [46] := by decide +kernel
  (cache_key_sound firstKeyed secondKeyed rfl rfl injective nofun).mpr
    (fun _ => ⟨rfl, fun different => (different rfl).elim⟩) differ

/-- Two devices share the key of one model. -/
theorem devices_share_key : ¬ ∀ (extension : GraphExtension) (cache : DiskCache) (city : CityHash)
    (first second : GraphCreation) (firstTable secondTable : HashTable)
    (firstInputs secondInputs : CompilerInputs),
    first.keyTable extension cache city = some firstTable →
    second.keyTable extension cache city = some secondTable →
    first.compilerInputs extension = some firstInputs →
    second.compilerInputs extension = some secondInputs →
    HashesInjective extension city first second → HashDeterminesModel first second →
    firstInputs ≠ secondInputs → firstTable ≠ secondTable := by
  intro sound
  have injective : HashesInjective sampleExtension sampleCity (sampleCreation firstDevice [45])
      (sampleCreation secondDevice [45]) := ⟨by decide +kernel, by decide +kernel⟩
  exact sound sampleExtension keyCache sampleCity
    (sampleCreation firstDevice [45]) (sampleCreation secondDevice [45]) (sampleTable [45]) (sampleTable [45])
    (sampleInputs firstDevice [45]) (sampleInputs secondDevice [45]) rfl rfl rfl rfl injective nofun
    (by decide +kernel) rfl

end NpuDriver
