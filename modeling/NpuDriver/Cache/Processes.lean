import NpuDriver.Cache.DiskCache
import Mathlib.Logic.Function.Basic

/-! Calls of `getBlob` and `setBlob` on one key, file-system step by file-system step.

An inode keeps its number; the path of the key refers to one inode or to none. The calls may belong to
any processes: advisory locks are held by open files, and every call opens its own. -/

namespace NpuDriver

open HashCity (DigestLength getDigest)

/-- Where a `getBlob` stands. The inode is open, `size` is what `fstat` reported. -/
inductive GetStage where
  | called
  | opened (inode : Nat)
  | sized (inode size : Nat)
  | locked (inode size : Nat)
  | mapped (inode size : Nat)
  | invalid (inode : Nat)
  | outside (inode : Nat)
  | closing (inode : Nat)
deriving DecidableEq, Repr

/-- Where a `setBlob` stands; `evict...` are the steps of `removeLeastUsedFiles` on the key's file. -/
inductive SetStage where
  | called
  | evicting
  | evictOpened (inode : Nat)
  | evictSized (inode : Nat)
  | evictLocked (inode : Nat)
  | evictClosing (inode : Nat)
  | evicted
  | created (inode : Nat)
  | sized (inode : Nat)
  | writing (inode stored : Nat)
  | failed (inode : Nat)
  | closing (inode : Nat)
deriving DecidableEq, Repr

/-- `holding` is a returned blob: the first `length` bytes of a mapping that keeps its file open. -/
inductive Call where
  | idle
  | get (stage : GetStage)
  | set (stage : SetStage) (blob : List UInt8)
  | holding (inode length : Nat)
deriving DecidableEq, Repr

/-- What a caller asks for, or its next file-system step with the kernel's answer: whether the step is
granted, and for a write how many bytes it stores at most. -/
inductive CacheEvent where
  | getBlob
  | setBlob (blob : List UInt8)
  | evict
  | next (granted : Bool) (amount : Nat)
  | release
deriving DecidableEq, Repr

/-- The advisory lock that a call holds until it closes its file. -/
def Call.lock : Call → Option (Nat × FileLock)
  | .get (.locked inode _) | .get (.mapped inode _) | .get (.invalid inode) | .get (.outside inode)
  | .get (.closing inode) | .holding inode _ => some (inode, .shared)
  | .set (.evictLocked inode) _ | .set (.evictClosing inode) _ | .set (.writing inode _) _
  | .set (.failed inode) _ | .set (.closing inode) _ => some (inode, .exclusive)
  | _ => none

/-- The key's path, the contents of the inodes below `nextInode`, the calls, and the blobs that were
ever passed to `setBlob`. -/
structure KeyState (count : Nat) where
  entry : Option Nat
  content : Nat → List UInt8
  nextInode : Nat
  calls : Fin count → Call
  passed : List (List UInt8)

variable {count : Nat} {process other : Fin count}

/-- The empty cache. -/
def KeyState.initial (count : Nat) : KeyState count := ⟨none, fun _ => [], 0, fun _ => .idle, []⟩

namespace KeyState

def put (state : KeyState count) (process : Fin count) (call : Call) : KeyState count :=
  { state with calls := Function.update state.calls process call }

@[simp] theorem put_self (state : KeyState count) (process : Fin count) (call : Call) :
    (state.put process call).calls process = call := Function.update_self ..

theorem put_other (state : KeyState count) (call : Call) (different : other ≠ process) :
    (state.put process call).calls other = state.calls other := Function.update_of_ne different ..

/-- `flock` grants a shared lock: no other open file has an exclusive one. -/
def Sharable (state : KeyState count) (process : Fin count) (inode : Nat) : Prop :=
  ∀ other ≠ process, (state.calls other).lock ≠ some (inode, .exclusive)

/-- `flock` grants an exclusive lock: no other open file has a lock. -/
def Lockable (state : KeyState count) (process : Fin count) (inode : Nat) : Prop :=
  ∀ other ≠ process, (state.calls other).lock.map Prod.fst ≠ some inode

instance (state : KeyState count) (process : Fin count) (inode : Nat) :
    Decidable (state.Sharable process inode) :=
  inferInstanceAs (Decidable (∀ other, other ≠ process → _))

instance (state : KeyState count) (process : Fin count) (inode : Nat) :
    Decidable (state.Lockable process inode) :=
  inferInstanceAs (Decidable (∀ other, other ≠ process → _))

/-- `osiFileRemove` of the key's path. -/
def removePath (state : KeyState count) (granted : Bool) : KeyState count :=
  if granted then { state with entry := none } else state

/-- `open` with `O_CREAT | O_EXCL` on a free path. -/
def createFile (state : KeyState count) : KeyState count :=
  { state with entry := some state.nextInode, nextInode := state.nextInode + 1,
               content := Function.update state.content state.nextInode [] }

/-- `::write` at the end of a file. -/
def append (state : KeyState count) (inode : Nat) (bytes : List UInt8) : KeyState count :=
  { state with content := Function.update state.content inode (state.content inode ++ bytes) }

/-- One file-system step of `getBlob`. -/
def getNext (cache : DiskCache) (state : KeyState count) (process : Fin count) (granted : Bool) :
    GetStage → KeyState count
  | .called =>
    match state.entry with
    | none => state.put process .idle
    | some inode => state.put process (if granted then .get (.opened inode) else .idle)
  | .opened inode =>
    state.put process (if granted then .get (.sized inode (state.content inode).length) else .idle)
  | .sized inode size =>
    state.put process (if granted ∧ state.Sharable process inode then .get (.locked inode size) else .idle)
  | .locked inode size =>
    state.put process (.get (if size = 0 ∨ granted = false then .closing inode else .mapped inode size))
  | .mapped inode size =>
    state.put process
      (match DiskCache.checkBlob cache.hash ((state.content inode).take size) with
      | .found blob => .holding inode blob.length
      | .invalid => .get (.invalid inode)
      | _ => .get (.outside inode))
  | .invalid inode => (state.removePath granted).put process (.get (.closing inode))
  | .outside _ => state
  | .closing _ => state.put process .idle

/-- The bytes of a cache file. -/
def fileBytes (cache : DiskCache) (blob : List UInt8) : List UInt8 := blob ++ getDigest cache.hash blob

/-- One `::write` of the blob and then of its digest; `OsFileImp::write` refuses to write nothing, and
after the last byte the file is closed and read back. -/
def writeNext (cache : DiskCache) (state : KeyState count) (process : Fin count) (granted : Bool)
    (amount inode stored : Nat) (blob : List UInt8) : KeyState count :=
  if blob = [] then state.put process (.set (.failed inode) blob)
  else if stored = (fileBytes cache blob).length then state.put process (.get .called)
  else if granted = false then state.put process (.set (.failed inode) blob)
  else
    let remaining := if stored < blob.length then blob.length else blob.length + DigestLength
    let written := min amount (remaining - stored)
    (state.append inode (((fileBytes cache blob).drop stored).take written)).put process
      (.set (.writing inode (stored + written)) blob)

/-- One file-system step of `setBlob`. -/
def setNext (cache : DiskCache) (state : KeyState count) (process : Fin count) (granted : Bool)
    (amount : Nat) (blob : List UInt8) : SetStage → KeyState count
  | .called | .evicted =>
    if state.entry = none ∧ granted then
      state.createFile.put process (.set (.created state.nextInode) blob)
    else state.put process .idle
  | .evicting =>
    match state.entry with
    | none => state.put process (.set .evicted blob)
    | some inode => state.put process (.set (if granted then .evictOpened inode else .evicted) blob)
  | .evictOpened inode => state.put process (.set (if granted then .evictSized inode else .evicted) blob)
  | .evictSized inode =>
    state.put process
      (.set (if granted ∧ state.Lockable process inode then .evictLocked inode else .evicted) blob)
  | .evictLocked inode => (state.removePath granted).put process (.set (.evictClosing inode) blob)
  | .evictClosing _ => state.put process (.set .evicted blob)
  | .created inode => state.put process (if granted then .set (.sized inode) blob else .idle)
  | .sized inode =>
    state.put process
      (if granted ∧ state.Lockable process inode then .set (.writing inode 0) blob else .idle)
  | .writing inode stored => writeNext cache state process granted amount inode stored blob
  | .failed inode => (state.removePath granted).put process (.set (.closing inode) blob)
  | .closing _ => state.put process .idle

/-- One step of one call. `setBlob` returns at once where the blob can never fit. -/
def step (cache : DiskCache) (state : KeyState count) (action : Fin count × CacheEvent) :
    KeyState count :=
  match state.calls action.1, action.2 with
  | .idle, .getBlob => if cache.enabled then state.put action.1 (.get .called) else state
  | .idle, .setBlob blob =>
    let asked := { state with passed := blob :: state.passed }
    if cache.enabled = false ∨ cache.maxSize < (blob.length + DigestLength) % 2 ^ 64 then asked
    else asked.put action.1 (.set .called blob)
  | .set .called blob, .evict => state.put action.1 (.set .evicting blob)
  | .get stage, .next granted _ => getNext cache state action.1 granted stage
  | .set stage blob, .next granted amount => setNext cache state action.1 granted amount blob stage
  | .holding _ _, .release => state.put action.1 .idle
  | _, _ => state

end KeyState

end NpuDriver
