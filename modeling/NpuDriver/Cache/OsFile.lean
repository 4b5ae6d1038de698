import NpuDriver.Cache.HashCity
import Mathlib.Algebra.Ring.Nat

/-! The cache directory: files with their access times, and what other processes hold of them. -/

namespace NpuDriver

/-- The lock that another process holds. -/
inductive FileLock where
  | shared | exclusive
deriving DecidableEq, Repr

/-- A regular file of the cache directory. `accessTime` is `st_atim.tv_sec`; `opens` tells whether
opening and `fstat` accept it, `removes` whether it can be removed by its path. -/
structure CacheFile where
  name : String
  content : List UInt8
  accessTime : Int
  opens : Bool
  removes : Bool
  lockedBy : Option FileLock
deriving DecidableEq

def CacheFile.size (file : CacheFile) : Nat := file.content.length

/-- The files in the order in which the directory is scanned. -/
structure CacheDirectory where
  files : List CacheFile
  distinct : (files.map CacheFile.name).Nodup

namespace CacheDirectory

def find (dir : CacheDirectory) (name : String) : Option CacheFile :=
  dir.files.find? fun file => file.name = name

/-- `osiOpenWithSharedLock` for reading. -/
def openWithSharedLock (dir : CacheDirectory) (name : String) : Option CacheFile :=
  match dir.find name with
  | none => none
  | some file => if file.opens && file.lockedBy ≠ some .exclusive then some file else none

/-- `osiOpenWithExclusiveLock` for reading. -/
def openWithExclusiveLock (dir : CacheDirectory) (name : String) : Option CacheFile :=
  match dir.find name with
  | none => none
  | some file => if file.opens && file.lockedBy = none then some file else none

def erase (dir : CacheDirectory) (name : String) : CacheDirectory where
  files := dir.files.filter fun file => file.name ≠ name
  distinct := (List.filter_sublist.map _).nodup dir.distinct

/-- `osiFileRemove`. -/
def osiFileRemove (dir : CacheDirectory) (name : String) : Bool × CacheDirectory :=
  match dir.find name with
  | none => (false, dir)
  | some file => if file.removes then (true, dir.erase name) else (false, dir)

/-- A new file; the path must be free, `O_EXCL`. -/
def create (dir : CacheDirectory) (file : CacheFile) : Option CacheDirectory :=
  if free : file.name ∈ dir.files.map CacheFile.name then none
  else
    some { files := dir.files ++ [file]
           distinct := by
             rw [List.map_append, List.nodup_append]
             refine ⟨dir.distinct, by simp, ?_⟩
             rintro name member _ last rfl
             rw [List.map_singleton, List.mem_singleton] at last
             exact free (last ▸ member) }

end CacheDirectory

/-- The difference of two values of type `size_t`. -/
def sizeDifference (left right : Nat) : Nat :=
  if right ≤ left then left - right else left + 2 ^ 64 - right

theorem sizeDifference_of_le (ordered : right ≤ left) : sizeDifference left right = left - right :=
  if_pos ordered

theorem sizeDifference_of_lt (less : left < right) : sizeDifference left right = left + 2 ^ 64 - right :=
  if_neg (Nat.not_le_of_lt less)

/-- The part of a mapping that a read covers, `none` when it leaves the mapping. -/
def readMapped (mapped : List UInt8) (offset length : Nat) : Option (List UInt8) :=
  if offset + length ≤ mapped.length then some ((mapped.drop offset).take length) else none

/-- `OsFileImp::write`: the `::write` calls store one byte or more each, or fail. `reply` answers
them with the number of bytes beyond the first; `left` bytes are still stored by the latest call. The
stored part of the data is returned. -/
def writeLoop (reply : Nat → Option Nat) : Nat → Nat → List UInt8 → Bool × List UInt8
  | _, _, [] => (true, [])
  | call, left + 1, byte :: rest =>
    match writeLoop reply call left rest with
    | (success, stored) => (success, byte :: stored)
  | call, 0, byte :: rest =>
    match reply call with
    | none => (false, [])
    | some more =>
      match writeLoop reply (call + 1) more rest with
      | (success, stored) => (success, byte :: stored)

def OsFile.write (reply : Nat → Option Nat) (data : List UInt8) : Bool × List UInt8 :=
  if data = [] then (false, []) else writeLoop reply 0 0 data

/-- What a write stores is a front part of the data, all of it on success. -/
theorem writeLoop_stored (reply : Nat → Option Nat) (call left : Nat) (data : List UInt8) :
    (writeLoop reply call left data).2 <+: data ∧
      ((writeLoop reply call left data).1 = true → (writeLoop reply call left data).2 = data) := by
  induction data generalizing call left with
  | nil => simp [writeLoop]
  | cons byte rest ih =>
    cases left with
    | succ left =>
      obtain ⟨front, whole⟩ := ih call left
      exact ⟨List.cons_prefix_cons.mpr ⟨rfl, front⟩, fun success => congrArg _ (whole success)⟩
    | zero =>
      rw [writeLoop]
      cases reply call with
      | none => exact ⟨List.nil_prefix, nofun⟩
      | some more =>
        obtain ⟨front, whole⟩ := ih (call + 1) more
        exact ⟨List.cons_prefix_cons.mpr ⟨rfl, front⟩, fun success => congrArg _ (whole success)⟩

theorem OsFile.write_stored (reply : Nat → Option Nat) (data : List UInt8) :
    (OsFile.write reply data).2 <+: data ∧
      ((OsFile.write reply data).1 = true → data ≠ [] ∧ (OsFile.write reply data).2 = data) := by
  by_cases empty : data = []
  · simp [OsFile.write, empty]
  · rw [OsFile.write, if_neg empty]
    obtain ⟨front, whole⟩ := writeLoop_stored reply 0 0 data
    exact ⟨front, fun success => ⟨empty, whole success⟩⟩

end NpuDriver
