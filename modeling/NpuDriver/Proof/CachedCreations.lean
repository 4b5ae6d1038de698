import NpuDriver.Library.Memo
import NpuDriver.LevelZero.CachedGraphs
import NpuDriver.Proof.CacheEviction
import NpuDriver.Proof.CacheIntegrity
import NpuDriver.Proof.CacheKey
import NpuDriver.Proof.DigestRendering

/-! A graph from the cache is the one that the compiler would make. -/

namespace NpuDriver

open Library DiskCache
open HashCity (getDigest)

/-- A directory with no file that another one does not have. -/
def CacheDirectory.Within (later dir : CacheDirectory) : Prop := ∀ file ∈ later.files, file ∈ dir.files

namespace CacheDirectory

variable {dir later : CacheDirectory} {cache : DiskCache} {key : String} {file : CacheFile}

theorem Within.trans {middle : CacheDirectory} (first : later.Within middle) (second : middle.Within dir) :
    later.Within dir :=
  fun file member => second file (first file member)

theorem within_refl (dir : CacheDirectory) : dir.Within dir := fun _ member => member

theorem erase_within (dir : CacheDirectory) (name : String) : (dir.erase name).Within dir :=
  fun _ member => List.mem_of_mem_filter member

theorem osiFileRemove_within (dir : CacheDirectory) (name : String) : (dir.osiFileRemove name).2.Within dir := by
  unfold osiFileRemove
  split
  · exact dir.within_refl
  · split
    · exact dir.erase_within name
    · exact dir.within_refl

theorem getBlob_within (cache : DiskCache) (maps : Bool) (dir : CacheDirectory) (key : String) :
    (cache.getBlob maps dir key).2.Within dir := by
  unfold getBlob
  split
  · exact dir.within_refl
  · split
    · exact dir.within_refl
    · split
      · exact dir.within_refl
      · split
        · exact dir.osiFileRemove_within key
        · exact dir.within_refl

theorem removeFiles_within (expSize : Nat) (entries : List (Int × String)) (eviction : Eviction) :
    (removeFiles expSize entries eviction).dir.Within eviction.dir := by
  induction entries generalizing eviction with
  | nil => exact within_refl _
  | cons entry rest ih =>
    unfold removeFiles
    split
    · exact ih eviction
    · split
      · exact ih eviction
      · rename_i removed
        have fewer := eviction.dir.osiFileRemove_within entry.2
        rw [removed] at fewer
        dsimp only
        split
        · exact fewer
        · exact (ih _).trans fewer

theorem removeLeastUsedFiles_within (dir : CacheDirectory) (expSize : Nat) :
    (removeLeastUsedFiles dir expSize).dir.Within dir :=
  removeFiles_within expSize (sortedFiles dir) ⟨0, [], dir⟩

theorem mem_create {written : CacheDirectory} (created : dir.create file = some written) {other : CacheFile} :
    other ∈ written.files ↔ other ∈ dir.files ∨ other = file := by
  unfold create at created
  split at created
  · cases created
  · cases created
    simp

/-- The files that hold something, under their names. -/
def Holds (dir : CacheDirectory) (name : String) (content : List UInt8) : Prop :=
  ∃ file ∈ dir.files, file.name = name ∧ file.content = content ∧ content ≠ []

theorem Within.holds (within : later.Within dir) {name : String} {content : List UInt8} (held : later.Holds name content) :
    dir.Holds name content := by
  obtain ⟨file, member, rest⟩ := held
  exact ⟨file, within file member, rest⟩

theorem touch_holds {name other : String} {accessTime : Int} {opens removes : Bool} {lockedBy : Option FileLock}
    {content : List UInt8} (held : (dir.touch name accessTime opens removes lockedBy).Holds other content) :
    dir.Holds other content := by
  obtain ⟨file, member, named, rest⟩ := held
  obtain ⟨before, inside, rfl⟩ := List.mem_map.mp member
  refine ⟨before, inside, ?_⟩
  split at named
  · rename_i same
    rw [if_pos same] at rest
    exact ⟨named, rest⟩
  · rename_i different
    rw [if_neg different] at rest
    exact ⟨named, rest⟩

end CacheDirectory

theorem fileName_inj {table other : HashTable} (same : fileName table = fileName other) :
    HashCity.toHexString table = HashCity.toHexString other := by
  apply List.map_injective_iff.mpr _ (String.ofList_injective same)
  intro byte another equal
  have code : ∀ number : Fin 256, (Char.ofNat number).toNat = number := by decide +kernel
  have codes := congrArg Char.toNat equal
  rw [code ⟨byte.toNat, byte.toNat_lt⟩, code ⟨another.toNat, another.toNat_lt⟩] at codes
  exact UInt8.toNat.inj codes

/-- Nothing is missing from the keys of two creations. -/
structure ToldApart (builder : GraphBuilder) (first second : GraphCreation) : Prop where
  hashes : HashesInjective builder.extension builder.city first second
  models : HashDeterminesModel first second
  covered : KeyCoversInputs builder.extension first second
  rendered : ∀ table other, first.keyTable builder.extension builder.cache builder.city = some table →
    second.keyTable builder.extension builder.cache builder.city = some other →
      List.Forall₂ HashCity.SameDigits table.words other.words → table = other

/-- Creations from models that all reach the compiler. -/
structure Distinguished (builder : GraphBuilder) (creations : Set GraphCreation) : Prop where
  format : ∀ creation ∈ creations, creation.desc.format = builder.extension.formatNgraphLite
  reach : ∀ creation ∈ creations, (builder.keyName creation).isSome →
    (creation.compilerInputs builder.extension).isSome
  apart : ∀ first ∈ creations, ∀ second ∈ creations, ToldApart builder first second

namespace GraphBuilder

variable {builder : GraphBuilder} {creations : Set GraphCreation} {creation first second : GraphCreation}
variable {dir : CacheDirectory} {writes : WriteAnswers} {key : String}

/-- Equal tables come from equal inputs of the compiler. -/
theorem inputs_eq {table : HashTable} {inputs others : CompilerInputs} (apart : ToldApart builder first second)
    (firstKeyed : first.keyTable builder.extension builder.cache builder.city = some table)
    (secondKeyed : second.keyTable builder.extension builder.cache builder.city = some table)
    (firstInputs : first.compilerInputs builder.extension = some inputs)
    (secondInputs : second.compilerInputs builder.extension = some others) : inputs = others := by
  obtain ⟨flags, firstReaches⟩ := reaches firstKeyed firstInputs
  obtain ⟨otherFlags, secondReaches⟩ := reaches secondKeyed secondInputs
  have fields := fields_eq firstReaches.loaded firstReaches.flags
  have otherFields := fields_eq secondReaches.loaded secondReaches.flags
  obtain ⟨words, configuration⟩ := tableOf_injective (firstReaches.table.symm.trans secondReaches.table)
  have input := apart.hashes.input _ List.mem_cons_self _ (List.mem_cons_of_mem _ List.mem_cons_self) words
  have length : (first.fields builder.extension).length = (second.fields builder.extension).length := by
    rw [fields, otherFields]
    rfl
  obtain ⟨-, sameFields⟩ := chain_injective length apart.hashes.configuration configuration
  have same := sameHashed_of_fields firstReaches.loaded secondReaches.loaded firstReaches.flags secondReaches.flags
    sameFields input
  obtain ⟨device, mixed⟩ := apart.covered same
  have model : first.desc.input = second.desc.input := by
    by_cases alike : first.desc.inputHash.isSome = second.desc.inputHash.isSome
    · exact model_of_hashedInput apart.models alike input
    · exact mixed alike
  obtain rfl : flags = otherFlags := by
    have effective := same.buildFlags
    rw [firstReaches.flags, secondReaches.flags] at effective
    exact Option.some.inj effective
  rw [firstReaches.inputs, secondReaches.inputs, same.compiler, device, model]

/-- The bytes of a cache file. -/
def fileOf (builder : GraphBuilder) (blob : List UInt8) : List UInt8 := blob ++ getDigest builder.cache.hash blob

/-- What the file of a creation should hold. -/
def expected (builder : GraphBuilder) (creation : GraphCreation) : Option (List UInt8) :=
  (builder.compiled creation).map builder.fileOf

theorem keyDetermines (distinguished : Distinguished builder creations) :
    KeyDetermines builder.keyName builder.expected creations := by
  intro first firstIn second secondIn name firstNamed secondNamed
  have apart := distinguished.apart first firstIn second secondIn
  obtain ⟨inputs, firstInputs⟩ :=
    Option.isSome_iff_exists.mp (distinguished.reach first firstIn (by rw [firstNamed]; rfl))
  obtain ⟨others, secondInputs⟩ :=
    Option.isSome_iff_exists.mp (distinguished.reach second secondIn (by rw [secondNamed]; rfl))
  obtain ⟨table, firstKeyed, named⟩ := Option.map_eq_some_iff.mp firstNamed
  obtain ⟨other, secondKeyed, otherNamed⟩ := Option.map_eq_some_iff.mp secondNamed
  have digits := (HashCity.toHexString_eq_iff table other).mp (fileName_inj (named.trans otherNamed.symm))
  obtain rfl := apart.rendered table other firstKeyed secondKeyed digits
  have same := inputs_eq apart firstKeyed secondKeyed firstInputs secondInputs
  rw [expected, expected, compiled, compiled, firstInputs, secondInputs, same]

/-- Each file that a creation may find holds what its compiler would make. -/
def Sound (builder : GraphBuilder) (creations : Set GraphCreation) (dir : CacheDirectory) : Prop :=
  Memoizes builder.keyName builder.expected creations dir.Holds

theorem Sound.within (sound : builder.Sound creations dir) {later : CacheDirectory} (within : later.Within dir) :
    builder.Sound creations later :=
  sound.mono fun _ _ held => within.holds held

/-- What a lookup finds that is not a miss. -/
theorem Sound.content (sound : builder.Sound creations dir) (member : creation ∈ creations)
    (named : builder.keyName creation = some key) {file : CacheFile} (opened : dir.openWithSharedLock key = some file)
    (full : file.size ≠ 0) : ∃ blob, builder.compiled creation = some blob ∧ file.content = builder.fileOf blob := by
  obtain ⟨inside, name⟩ := CacheDirectory.mem_of_find (openWithSharedLock_find opened)
  have nonempty : file.content ≠ [] := fun empty => full (by rw [CacheFile.size, empty]; rfl)
  obtain ⟨blob, compiled, same⟩ := Option.map_eq_some_iff.mp
    (sound creation member key named file.content ⟨file, inside, name, rfl, nonempty⟩)
  exact ⟨blob, compiled, same.symm⟩

/-- A lookup misses, or finds the blob of the compiler. -/
theorem Sound.getBlob (sound : builder.Sound creations dir) (member : creation ∈ creations)
    (named : builder.keyName creation = some key) (maps : Bool) :
    (builder.cache.getBlob maps dir key).1 = .missed ∨
      ∃ blob, builder.compiled creation = some blob ∧ (builder.cache.getBlob maps dir key).1 = .found blob := by
  rcases getBlob_cases builder.cache maps dir key with missed | ⟨file, -, -, opened, full, same⟩
  · exact .inl missed
  · obtain ⟨blob, compiled, content⟩ := sound.content member named opened full
    refine .inr ⟨blob, compiled, ?_⟩
    rw [same, content]
    exact checkBlob_framed builder.cache.hash blob

/-- A write that stores a part of the file only is undone. -/
def Undone (builder : GraphBuilder) (writes : WriteAnswers) (blob : List UInt8) : Prop :=
  (builder.cache.writeBlob writes blob).1 = true ∨ (builder.cache.writeBlob writes blob).2 = [] ∨
    writes.removes = true

theorem Sound.storeBlob (sound : builder.Sound creations dir) (distinguished : Distinguished builder creations)
    (member : creation ∈ creations) (named : builder.keyName creation = some key) {blob : List UInt8}
    (compiled : builder.compiled creation = some blob) (undone : builder.Undone writes blob)
    (enabled : builder.cache.enabled = true) :
    (builder.cache.storeBlob writes dir key blob).returned = some blob ∧
      builder.Sound creations (builder.cache.storeBlob writes dir key blob).dir := by
  unfold DiskCache.storeBlob
  split
  · exact ⟨rfl, sound⟩
  · rcases wrote : builder.cache.writeBlob writes blob with ⟨completed, content⟩
    dsimp only
    cases created : dir.create ⟨key, content, writes.accessTime, true, writes.removes, none⟩ with
    | none => exact ⟨rfl, sound⟩
    | some written =>
      cases completed with
      | true =>
        obtain ⟨-, framed⟩ := writeBlob_completed wrote
        have expects : builder.expected creation = some (builder.fileOf blob) := by
          rw [expected, compiled]
          rfl
        have stored : builder.Sound creations written := by
          apply sound.store (keyDetermines distinguished) member named expects
          rintro name entry ⟨file, inside, held⟩
          rcases (CacheDirectory.mem_create created).mp inside with before | rfl
          · exact .inl ⟨file, before, held⟩
          · exact .inr ⟨held.1.symm, held.2.1.symm.trans framed⟩
        have opened : written.openWithSharedLock key =
            some ⟨key, content, writes.accessTime, true, writes.removes, none⟩ := by
          have found := create_find created
          simp only [CacheDirectory.openWithSharedLock, found]
          rfl
        cases maps : writes.maps with
        | true =>
          simp only [getBlob_framed enabled opened framed]
          exact ⟨rfl, stored⟩
        | false =>
          have missed : builder.cache.getBlob false written key = (.missed, written) := by
            simp [DiskCache.getBlob, enabled, opened]
          simp only [missed]
          exact ⟨rfl, stored⟩
      | false =>
        refine ⟨rfl, sound.mono ?_⟩
        rintro name entry ⟨file, inside, held⟩
        have before : file ∈ written.files := written.osiFileRemove_within key file inside
        rcases (CacheDirectory.mem_create created).mp before with old | rfl
        · exact ⟨file, old, held⟩
        · -- the new file is still there, so that nothing was stored in it
          unfold Undone at undone
          rw [wrote] at undone
          rcases undone with absurd | nothing | removes
          · cases absurd
          · exact absurd (held.2.1.symm.trans nothing) held.2.2
          · simp [CacheDirectory.osiFileRemove, create_find created, removes, CacheDirectory.erase] at inside

theorem Sound.setBlob (sound : builder.Sound creations dir) (distinguished : Distinguished builder creations)
    (member : creation ∈ creations) (named : builder.keyName creation = some key) {blob : List UInt8}
    (compiled : builder.compiled creation = some blob) (undone : builder.Undone writes blob) :
    (builder.cache.setBlob writes dir key (some blob)).returned = some blob ∧
      builder.Sound creations (builder.cache.setBlob writes dir key (some blob)).dir := by
  unfold DiskCache.setBlob
  dsimp only
  split
  · exact ⟨rfl, sound⟩
  · rename_i enabled
    rw [Bool.not_eq_true, Bool.not_eq_false'] at enabled
    split
    · exact ⟨rfl, sound⟩
    · split
      · apply Sound.storeBlob _ distinguished member named compiled undone enabled
        exact sound.within (dir.removeLeastUsedFiles_within _)
      · exact sound.storeBlob distinguished member named compiled undone enabled

/-- A creation is one of those that are told apart, and its failed writes are undone. -/
def Permitted (builder : GraphBuilder) (creations : Set GraphCreation) (_ : CacheDirectory) : CacheDirectoryCall → Prop
  | .create creation _ writes =>
    creation ∈ creations ∧ ∀ blob, builder.compiled creation = some blob → builder.Undone writes blob
  | .touch .. | .remove _ => True

theorem step_simulates (distinguished : Distinguished builder creations) :
    Simulates builder.step builder.plainStep (builder.Permitted creations) fun dir _ => builder.Sound creations dir := by
  intro dir _ call sound permitted
  cases call with
  | create creation maps writes =>
    obtain ⟨member, undone⟩ := permitted
    simp only [step, plainStep, getBlobContainerNGraphLite]
    cases named : builder.keyName creation with
    | none => exact ⟨rfl, sound⟩
    | some key =>
      have fewer := sound.within (dir.getBlob_within builder.cache maps key)
      rcases lookup : builder.cache.getBlob maps dir key with ⟨found, next⟩
      rw [lookup] at fewer
      have hit := sound.getBlob member named maps
      rw [lookup] at hit
      rcases hit with rfl | ⟨blob, compiled, rfl⟩
      · simp only [lookup, compileAndStore, compileGraph]
        cases compiled : builder.compiled creation with
        | none => exact ⟨rfl, fewer⟩
        | some blob =>
          obtain ⟨returned, after⟩ := fewer.setBlob distinguished member named compiled (undone blob compiled)
          simp only [returned]
          exact ⟨rfl, after⟩
      · simp only [lookup, compileGraph, compiled]
        exact ⟨trivial, fewer⟩
  | touch name accessTime opens removes lockedBy =>
    exact ⟨rfl, sound.mono fun _ _ held => CacheDirectory.touch_holds held⟩
  | remove name => exact ⟨rfl, sound.within (dir.erase_within name)⟩

/-- With the cache each graph is made from what the compiler would make of its model now, as without it, whichever
creations, evictions, misses, failed writes and removals came before. -/
theorem graphs_as_compiled (distinguished : Distinguished builder creations)
    (foreign : ∀ creation ∈ creations, ∀ file ∈ dir.files, builder.keyName creation ≠ some file.name)
    {calls : List CacheDirectoryCall}
    (permitted : Guarded (fun dir call => (builder.step dir call).2) (builder.Permitted creations) dir calls) :
    answers builder.step dir calls = answers builder.plainStep () calls := by
  apply (step_simulates distinguished).answers_eq _ permitted
  rintro creation member name named entry ⟨file, inside, rfl, -⟩
  exact absurd named (foreign creation member file inside)

/-- A compiler that puts the options in front of the model. -/
def sampleBuilder : GraphBuilder :=
  ⟨sampleExtension, keyCache, sampleCity, fun inputs => some (inputs.options ++ inputs.modelIR)⟩

/-- Two creations that differ in their build flags. -/
def sampleCreations : Set GraphCreation :=
  fun creation => ∃ flags ∈ [[45], [46]], creation = sampleCreation firstDevice flags

theorem sampleCreation_keyed : ∀ flags ∈ [[45], [46]],
    (sampleCreation firstDevice flags).keyTable sampleExtension keyCache sampleCity = some (sampleTable flags) := by
  decide +kernel

theorem sampleCreations_distinguished : Distinguished sampleBuilder sampleCreations := by
  refine ⟨?_, ?_, ?_⟩
  · rintro creation ⟨flags, -, rfl⟩
    rfl
  · rintro creation ⟨flags, -, rfl⟩ -
    rfl
  · rintro first ⟨flags, member, rfl⟩ second ⟨others, among, rfl⟩
    refine ⟨⟨?_, ?_⟩, ?_, ?_, ?_⟩
    · exact (by decide +kernel : ∀ flags ∈ [[45], [46]], ∀ others ∈ [[45], [46]],
        InjectiveOn (fun call : List UInt8 × UInt64 => sampleCity.cityHash64WithSeed call.1 call.2)
          ((sampleCreation firstDevice flags).configurationCalls sampleExtension sampleCity ++
            (sampleCreation firstDevice others).configurationCalls sampleExtension sampleCity)) flags member others among
    · exact (by decide +kernel : InjectiveOn sampleCity.cityHashCrc256 [[1, 2, 3], [1, 2, 3]])
    · intro hash supplied
      cases supplied
    · exact fun _ => ⟨rfl, fun different => (different rfl).elim⟩
    · intro table other keyed otherKeyed digits
      obtain rfl := Option.some.inj ((sampleCreation_keyed flags member).symm.trans keyed)
      obtain rfl := Option.some.inj ((sampleCreation_keyed others among).symm.trans otherKeyed)
      exact (by decide +kernel : ∀ flags ∈ [[45], [46]], ∀ others ∈ [[45], [46]],
        HashCity.toHexString (sampleTable flags) = HashCity.toHexString (sampleTable others) →
          sampleTable flags = sampleTable others) flags member others among
        ((HashCity.toHexString_eq_iff _ _).mpr digits)

def sampleWrites (removes : Bool) : WriteAnswers := ⟨true, fun _ => some 7, fun _ => some 99, removes, 5, true⟩

/-- Two creations and the first one again, which now is a hit. -/
theorem graphs_as_compiled_hit :
    answers sampleBuilder.step ⟨[], List.nodup_nil⟩
        [.create (sampleCreation firstDevice [45]) true (sampleWrites true),
          .create (sampleCreation firstDevice [46]) true (sampleWrites true),
          .create (sampleCreation firstDevice [45]) true (sampleWrites true)] =
      answers sampleBuilder.plainStep ()
        [.create (sampleCreation firstDevice [45]) true (sampleWrites true),
          .create (sampleCreation firstDevice [46]) true (sampleWrites true),
          .create (sampleCreation firstDevice [45]) true (sampleWrites true)] :=
  graphs_as_compiled sampleCreations_distinguished (fun _ _ _ inside => by cases inside)
    ⟨⟨⟨[45], by decide, rfl⟩, fun _ _ => .inr (.inr rfl)⟩,
      ⟨⟨[46], by decide, rfl⟩, fun _ _ => .inr (.inr rfl)⟩,
      ⟨⟨[45], by decide, rfl⟩, fun _ _ => .inr (.inr rfl)⟩, trivial⟩

example :
    let first := sampleBuilder.getBlobContainerNGraphLite (sampleCreation firstDevice [45]) true (sampleWrites true)
      ⟨[], List.nodup_nil⟩
    let second := sampleBuilder.getBlobContainerNGraphLite (sampleCreation firstDevice [45]) true (sampleWrites true)
      first.2.2
    first.2.1 = .COMPILED ∧ second.2.1 = .LOADED_FROM_CACHE ∧ second.1 = .made [45, 1, 2, 3] := by decide +kernel

end GraphBuilder

end NpuDriver
