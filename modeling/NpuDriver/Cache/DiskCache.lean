import NpuDriver.Cache.OsFile
import NpuDriver.Library.OrderedMap
import Mathlib.Algebra.Order.Ring.Int

/-! The disk cache of compiled blobs, as one process runs it. -/

namespace NpuDriver

open Library
open HashCity (DigestLength)

/-- What reading a cache file yields: `outside` is a read beyond the mapping, `invalid` a wrong
checksum. -/
inductive CacheLookup where
  | missed
  | found (blob : List UInt8)
  | invalid
  | outside
deriving DecidableEq, Repr

/-- The kernel's answers to the calls of one `setBlob` on its new file. -/
structure WriteAnswers where
  creates : Bool
  writeBlob : Nat → Option Nat
  writeSum : Nat → Option Nat
  removes : Bool
  accessTime : Int
  maps : Bool

/-- `cachePath` is empty where the cache is disabled. -/
structure DiskCache where
  enabled : Bool
  maxSize : Nat
  hash : List UInt8 → HashTable

/-- One removal of `removeLeastUsedFiles`, as it is logged. -/
structure RemovedFile where
  filename : String
  lastAccess : Int
  size : Nat
deriving DecidableEq, Repr

structure Eviction where
  removedSize : Nat
  removed : List RemovedFile
  dir : CacheDirectory

/-- What `setBlob` leaves behind: the blob it returns, the directory at the time when the file is
created, the directory at the end, and whether both writes succeeded. -/
structure SetOutcome where
  returned : Option (List UInt8)
  createdIn : Option CacheDirectory
  dir : CacheDirectory
  completed : Bool

namespace DiskCache

/-- The sum of `st_size` over the scanned files. -/
def getCacheSize (dir : CacheDirectory) : Nat := (dir.files.map CacheFile.size).sum % 2 ^ 64

/-- The checksum test of `getBlob` on a mapped file that is not empty. -/
def checkBlob (hash : List UInt8 → HashTable) (mapped : List UInt8) : CacheLookup :=
  let offsetSum := sizeDifference mapped.length DigestLength
  (readMapped mapped 0 offsetSum).elim .outside fun data =>
    (readMapped mapped offsetSum DigestLength).elim .outside fun fileSum =>
      if HashCity.getDigest hash data = fileSum then .found data else .invalid

/-- A file with a wrong checksum is removed by its path. -/
def getBlob (cache : DiskCache) (maps : Bool) (dir : CacheDirectory) (key : String) :
    CacheLookup × CacheDirectory :=
  if !cache.enabled then (.missed, dir)
  else
    match dir.openWithSharedLock key with
    | none => (.missed, dir)
    | some file =>
      if file.size = 0 || !maps then (.missed, dir)
      else
        match checkBlob cache.hash file.content with
        | .invalid => (.invalid, (dir.osiFileRemove key).2)
        | lookup => (lookup, dir)

/-- The map from access times to names; of several files of the same second, the one scanned first
is kept. -/
def sortedFiles (dir : CacheDirectory) : List (Int × String) :=
  emplaceAll (dir.files.map fun file => (file.accessTime, file.name))

/-- The loop of `removeLeastUsedFiles`. -/
def removeFiles (expSize : Nat) : List (Int × String) → Eviction → Eviction
  | [], eviction => eviction
  | (timestamp, filename) :: rest, eviction =>
    match eviction.dir.openWithExclusiveLock filename with
    | none => removeFiles expSize rest eviction
    | some file =>
      match eviction.dir.osiFileRemove filename with
      | (false, _) => removeFiles expSize rest eviction
      | (true, dir) =>
        let next : Eviction :=
          { removedSize := (eviction.removedSize + file.size) % 2 ^ 64
            removed := eviction.removed ++ [⟨filename, timestamp, file.size⟩], dir := dir }
        if next.removedSize ≥ expSize then next else removeFiles expSize rest next

def removeLeastUsedFiles (dir : CacheDirectory) (expSize : Nat) : Eviction :=
  removeFiles expSize (sortedFiles dir) ⟨0, [], dir⟩

/-- The two writes into a new file: success, and the bytes that they stored. -/
def writeBlob (cache : DiskCache) (answers : WriteAnswers) (blob : List UInt8) : Bool × List UInt8 :=
  match OsFile.write answers.writeBlob blob with
  | (false, stored) => (false, stored)
  | (true, stored) =>
    match OsFile.write answers.writeSum (HashCity.getDigest cache.hash blob) with
    | (success, sum) => (success, stored ++ sum)

/-- `setBlob` from the creation of the file on. -/
def storeBlob (cache : DiskCache) (answers : WriteAnswers) (dir : CacheDirectory) (key : String)
    (blob : List UInt8) : SetOutcome :=
  if !answers.creates then ⟨some blob, none, dir, false⟩
  else
    match cache.writeBlob answers blob with
    | (completed, content) =>
      match dir.create ⟨key, content, answers.accessTime, true, answers.removes, none⟩ with
      | none => ⟨some blob, none, dir, false⟩
      | some written =>
        if !completed then ⟨some blob, some dir, (written.osiFileRemove key).2, false⟩
        else
          match cache.getBlob answers.maps written key with
          | (.found newBlob, final) => ⟨some newBlob, some dir, final, true⟩
          | (_, final) => ⟨some blob, some dir, final, true⟩

def setBlob (cache : DiskCache) (answers : WriteAnswers) (dir : CacheDirectory) (key : String)
    (blob : Option (List UInt8)) : SetOutcome :=
  match blob with
  | none => ⟨none, none, dir, false⟩
  | some blob =>
    if !cache.enabled then ⟨some blob, none, dir, false⟩
    else
      let cachedBlobSize := (blob.length + DigestLength) % 2 ^ 64
      let cacheSize := getCacheSize dir
      if cachedBlobSize > cache.maxSize then ⟨some blob, none, dir, false⟩
      else if (cacheSize + cachedBlobSize) % 2 ^ 64 > cache.maxSize then
        cache.storeBlob answers
          (removeLeastUsedFiles dir ((cacheSize + cachedBlobSize) % 2 ^ 64 - cache.maxSize)).dir key blob
      else cache.storeBlob answers dir key blob

end DiskCache

end NpuDriver
