import NpuDriver.Library.Observation
import NpuDriver.LevelZero.Graph

/-! Graph creations one after the other over one cache directory. -/

namespace NpuDriver

open Library

/-- What a graph is parsed from. `thrown` is an exception, `outside` a read beyond the end of a cache file. -/
inductive GraphBlob where
  | thrown
  | outside
  | made (blob : List UInt8)
deriving DecidableEq, Repr

/-- `ze_graph_properties_flags_t` as far as they tell where the blob comes from. -/
inductive BlobOrigin where
  | COMPILED | LOADED_FROM_CACHE
deriving DecidableEq, Repr

/-- What the creations share: the constants of the extension's header, the cache and its hash library, and the
compiler, whose answer depends on what it is passed. -/
structure GraphBuilder where
  extension : GraphExtension
  cache : DiskCache
  city : CityHash
  compile : CompilerInputs → Option (List UInt8)

/-- The key as the name of a file. -/
def fileName (table : HashTable) : String :=
  String.ofList ((HashCity.toHexString table).map fun byte => Char.ofNat byte.toNat)

/-- A creation with the kernel's answers, or what happens to a file meanwhile. -/
inductive CacheDirectoryCall where
  | create (creation : GraphCreation) (maps : Bool) (answers : WriteAnswers)
  | touch (name : String) (accessTime : Int) (opens removes : Bool) (lockedBy : Option FileLock)
  | remove (name : String)

namespace CacheDirectory

/-- Another process uses a file, or locks or protects it. -/
def touch (dir : CacheDirectory) (name : String) (accessTime : Int) (opens removes : Bool)
    (lockedBy : Option FileLock) : CacheDirectory where
  files :=
    dir.files.map fun file =>
      if file.name = name then
        { file with accessTime := accessTime, opens := opens, removes := removes, lockedBy := lockedBy }
      else file
  distinct := by
    have same : (CacheFile.name ∘ fun file : CacheFile =>
        if file.name = name then
          { file with accessTime := accessTime, opens := opens, removes := removes, lockedBy := lockedBy }
        else file) = CacheFile.name := by
      funext file
      simp only [Function.comp_apply]
      split
      · rfl
      · rfl
    rw [List.map_map, same]
    exact dir.distinct

end CacheDirectory

namespace GraphBuilder

def keyName (builder : GraphBuilder) (creation : GraphCreation) : Option String :=
  (creation.keyTable builder.extension builder.cache builder.city).map fileName

/-- The compiler's blob for a creation. -/
def compiled (builder : GraphBuilder) (creation : GraphCreation) : Option (List UInt8) :=
  (creation.compilerInputs builder.extension).bind builder.compile

/-- `getBlobContainerNGraphLite` without a cache. -/
def compileGraph (builder : GraphBuilder) (creation : GraphCreation) : GraphBlob :=
  match builder.compiled creation with
  | none => .thrown
  | some blob => .made blob

/-- The part of `getBlobContainerNGraphLite` behind a miss. -/
def compileAndStore (builder : GraphBuilder) (creation : GraphCreation) (answers : WriteAnswers) (key : String)
    (dir : CacheDirectory) : GraphBlob × CacheDirectory :=
  match builder.compiled creation with
  | none => (.thrown, dir)
  | some blob =>
    let outcome := builder.cache.setBlob answers dir key (some blob)
    ((outcome.returned.map GraphBlob.made).getD .thrown, outcome.dir)

/-- A creation whose caching is disabled has no key. -/
def getBlobContainerNGraphLite (builder : GraphBuilder) (creation : GraphCreation) (maps : Bool)
    (answers : WriteAnswers) (dir : CacheDirectory) : GraphBlob × BlobOrigin × CacheDirectory :=
  match builder.keyName creation with
  | none => (builder.compileGraph creation, .COMPILED, dir)
  | some key =>
    match builder.cache.getBlob maps dir key with
    | (.found blob, next) => (.made blob, .LOADED_FROM_CACHE, next)
    | (.outside, next) => (.outside, .COMPILED, next)
    | (_, next) =>
      match builder.compileAndStore creation answers key next with
      | (blob, last) => (blob, .COMPILED, last)

/-- The answer of a creation is what its graph is parsed from. -/
def step (builder : GraphBuilder) (dir : CacheDirectory) : CacheDirectoryCall → Option GraphBlob × CacheDirectory
  | .create creation maps answers =>
    match builder.getBlobContainerNGraphLite creation maps answers dir with
    | (blob, _, next) => (some blob, next)
  | .touch name accessTime opens removes lockedBy => (none, dir.touch name accessTime opens removes lockedBy)
  | .remove name => (none, dir.erase name)

/-- The same creations when each of them asks the compiler. -/
def plainStep (builder : GraphBuilder) (_ : Unit) : CacheDirectoryCall → Option GraphBlob × Unit
  | .create creation _ _ => (some (builder.compileGraph creation), ())
  | .touch .. | .remove _ => (none, ())

end GraphBuilder

end NpuDriver
