import NpuDriver.Memory.GemHandles
import Mathlib.Data.BitVec
import Mathlib.Logic.Function.Basic

/-! The statistics of allocated memory, and what the buffer objects report to them. -/

namespace NpuDriver

/-- The counters of `MemoryStatistics`. -/
inductive AllocCounter where
  | internalAllocSize | sharedAllocSize | deviceAllocSize | hostAllocSize
deriving DecidableEq, Repr

/-- The counter of a location; user pointers have none. -/
def Location.counter : Location → Option AllocCounter
  | Internal => some .internalAllocSize
  | Host | ExternalHost => some .hostAllocSize
  | Device | ExternalDevice => some .deviceAllocSize
  | Shared | ExternalShared => some .sharedAllocSize
  | UserPtr => none

structure MemoryStatistics where
  enabled : Bool
  allocSize : AllocCounter → BitVec 64

namespace MemoryStatistics

def inc (statistics : MemoryStatistics) (loc : Location) (size : BitVec 64) : MemoryStatistics :=
  if !statistics.enabled then statistics
  else
    match loc.counter with
    | none => statistics
    | some counter =>
      { statistics with
        allocSize := Function.update statistics.allocSize counter (statistics.allocSize counter + size) }

def dec (statistics : MemoryStatistics) (loc : Location) (size : BitVec 64) : MemoryStatistics :=
  if !statistics.enabled then statistics
  else
    match loc.counter with
    | none => statistics
    | some counter =>
      { statistics with
        allocSize := Function.update statistics.allocSize counter (statistics.allocSize counter - size) }

/-- What the destructor of a buffer object reports. An external one returns before. -/
def destroyed (statistics : MemoryStatistics) (location : Location) (size : BitVec 64) : MemoryStatistics :=
  if location.isExternal then statistics else statistics.dec location size

end MemoryStatistics

/-- `ALIGN(size, pageSize)`. -/
def pageAligned (pageSize size : Nat) : BitVec 64 :=
  BitVec.ofNat 64 ((size + (pageSize - 1)) % 2 ^ 64 / pageSize * pageSize)

/-- The object with an id, where a call destroys it. -/
def GemState.destructed (before after : GemState) (id : Nat) : Option TrackedBuffer :=
  if (after.objects.any fun bo => bo.object.id = id) then none else before.objects.find? fun bo => bo.object.id = id

/-- A device file with the statistics of its process; `imported` are the ids of the objects whose type is
`ImportedMemory`. -/
structure MeasuredMemory where
  pageSize : Nat
  gem : GemState
  imported : List Nat
  statistics : MemoryStatistics

namespace MeasuredMemory

/-- `create` counts a buffer before it is tracked. -/
def countCreated (memory : MeasuredMemory) (size : Nat) (mappable : Bool) (location : Location) (reply : BufferReply) :
    MemoryStatistics :=
  match memory.gem.create mappable reply with
  | (none, _) => memory.statistics
  | (some answer, next) =>
    let counted := memory.statistics.inc location (pageAligned memory.pageSize size)
    if (next.tracker.createBufferObject size mappable location (some answer)).1.isSome then counted
    else counted.destroyed location (pageAligned memory.pageSize size)

def countUntracked (memory : MeasuredMemory) (size : Nat) (mappable : Bool) (reply : BufferReply) : MemoryStatistics :=
  if size = 0 then memory.statistics
  else
    match memory.gem.create mappable reply with
    | (none, _) => memory.statistics
    | (some _, _) => memory.statistics.inc .Internal (pageAligned memory.pageSize size)

/-- The destructor that a call may run for the object with an id. -/
def countDestructed (memory : MeasuredMemory) (after : GemState) (id : Nat) (location : Location → Location) :
    MemoryStatistics :=
  match memory.gem.destructed after id with
  | none => memory.statistics
  | some bo => memory.statistics.destroyed (location bo.location) (pageAligned memory.pageSize bo.object.allocSize)

/-- The statistics behind a call. Neither an import nor a user pointer is counted when it is made. -/
def count (memory : MeasuredMemory) : GemCall → MemoryStatistics
  | .createBufferObject size mappable location reply => memory.countCreated size mappable location reply
  | .createUntrackedBufferObject size mappable reply => memory.countUntracked size mappable reply
  | .freeMemAlloc ptr =>
    match memory.gem.freed ptr with
    | none => memory.statistics
    | some bo => memory.countDestructed (memory.gem.freeMemAlloc ptr) bo.object.id Location.allowDeleteExternalHandle
  | .release id => memory.countDestructed (memory.gem.release id) id fun location => location
  | .importUserPtr .. | .createUntrackedBufferObjectFromUserPtr .. | .importMemory .. | .exportMemory .. | .receive _
  | .lookUp _ | .share _ => memory.statistics

/-- The id of the object that an import makes. -/
def importedId (memory : MeasuredMemory) : GemCall → List Nat
  | .importMemory kind fd reply =>
    match memory.gem.importFromFd fd reply with
    | (none, _) => []
    | (some answer, next) =>
      ((next.tracker.importBufferObject kind.external (some (answer, reply.size))).1.map VPUBufferObject.id).toList
  | _ => []

def step (memory : MeasuredMemory) (call : GemCall) : MeasuredMemory :=
  { memory with
    gem := memory.gem.step call
    imported := memory.importedId call ++ memory.imported
    statistics := memory.count call }

/-- A process that enables its statistics and opens a device file. -/
def initial (numbers : HandleNumbers) (pageSize : Nat) (userPtrCapability : Bool) : MeasuredMemory where
  pageSize := pageSize
  gem := .initial numbers pageSize userPtrCapability
  imported := []
  statistics := ⟨true, fun _ => 0⟩

end MeasuredMemory

end NpuDriver
