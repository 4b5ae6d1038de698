import NpuDriver.Device.DeviceContext
import NpuDriver.Library.OrderedMap
import Mathlib.Order.Basic

/-! The map of tracked buffers: allocations, imports, user pointers and frees. -/

namespace NpuDriver

open Library
open OrderDual (toDual ofDual)

/-- The bases of tracked buffers are compared by the equality that their order decides. -/
instance base_lawfulBEq : LawfulBEq Natᵒᵈ := inferInstance

/-- `VPUBufferObject::Location`. -/
inductive Location where
  | Internal | Host | Device | Shared | ExternalHost | ExternalDevice | ExternalShared | UserPtr
deriving DecidableEq, Repr

structure TrackedBuffer where
  object : VPUBufferObject
  location : Location
deriving DecidableEq, Repr

/-- The device context as far as it tracks buffers. The map is ordered by `std::greater`; `created` counts
the buffer objects made so far. -/
structure BufferTracker where
  pageSize : Nat
  userPtrCapability : Bool
  trackedBuffers : List (Natᵒᵈ × TrackedBuffer)
  created : Nat

/-- A request with the kernel's answer; `none` is a failed one. A user pointer keeps its address and is
given a handle and an address of the device only. -/
inductive TrackerCall where
  | createBufferObject (size : Nat) (mappable : Bool) (location : Location) (answer : Option BufferAnswer)
  | importBufferObject (location : Location) (answer : Option (BufferAnswer × Nat))
  | importUserPtr (userPtr size : Nat) (answer : Option (Nat × Nat))
  | freeMemAlloc (ptr : Nat)
deriving DecidableEq, Repr

/-- Addresses from a base on. -/
structure AddressRange where
  base : Nat
  size : Nat
deriving DecidableEq, Repr

def AddressRange.stop (range : AddressRange) : Nat := range.base + range.size

def VPUBufferObject.range (bo : VPUBufferObject) : AddressRange := ⟨bo.basePtr, bo.allocSize⟩

namespace BufferTracker

def findBufferObject (tracker : BufferTracker) (ptr : Nat) : Option TrackedBuffer :=
  if ptr = 0 then none
  else
    match tracker.trackedBuffers.find? (fun entry => ofDual entry.1 ≤ ptr) with
    | none => none
    | some (_, bo) => if bo.object.isInRange ptr then some bo else none

/-- `trackedBuffers.emplace`; a buffer object whose base is taken is dropped again. -/
def track (tracker : BufferTracker) (object : VPUBufferObject) (location : Location) :
    Option VPUBufferObject × BufferTracker :=
  if toDual object.basePtr ∈ tracker.trackedBuffers.map Prod.fst then
    (none, { tracker with created := tracker.created + 1 })
  else
    (some object,
      { tracker with
        created := tracker.created + 1
        trackedBuffers := emplace (toDual object.basePtr) ⟨object, location⟩ tracker.trackedBuffers })

/-- A mappable buffer must be mapped into the host, any other one has a null base pointer. -/
def createBufferObject (tracker : BufferTracker) (size : Nat) (mappable : Bool) (location : Location)
    (answer : Option BufferAnswer) : Option VPUBufferObject × BufferTracker :=
  match answer with
  | none => (none, tracker)
  | some answer =>
    if mappable && answer.basePtr == 0 then (none, tracker)
    else
      tracker.track { id := tracker.created, handle := answer.handle,
                      basePtr := if mappable then answer.basePtr else 0,
                      allocSize := size, vpuAddr := answer.vpuAddr } location

def importBufferObject (tracker : BufferTracker) (location : Location)
    (answer : Option (BufferAnswer × Nat)) : Option VPUBufferObject × BufferTracker :=
  match answer with
  | none => (none, tracker)
  | some (answer, size) =>
    if answer.basePtr = 0 then (none, tracker)
    else
      tracker.track { id := tracker.created, handle := answer.handle, basePtr := answer.basePtr,
                      allocSize := size, vpuAddr := answer.vpuAddr } location

/-- `ALIGN` to the page size in 64 bits. -/
def getPageAlignedSize (tracker : BufferTracker) (value : Nat) : Nat :=
  (value + (tracker.pageSize - 1)) % 2 ^ 64 / tracker.pageSize * tracker.pageSize

/-- The pages that `createBufferObjectFromUserPtr` takes a user range to. -/
def pageRange (tracker : BufferTracker) (userPtr size : Nat) : AddressRange :=
  let alignSize := tracker.getPageAlignedSize size
  if tracker.getPageAlignedSize userPtr = userPtr then ⟨userPtr, alignSize⟩
  else
    let alignPtr := tracker.getPageAlignedSize ((userPtr + 2 ^ 64 - tracker.pageSize) % 2 ^ 64)
    if alignSize < (size + (userPtr - alignPtr)) % 2 ^ 64 then
      ⟨alignPtr, (alignSize + tracker.pageSize) % 2 ^ 64⟩
    else ⟨alignPtr, alignSize⟩

/-- The range that the kernel is asked to pin, and the buffer object that its answer, a handle and an address of
the device, leads to. -/
def createBufferObjectFromUserPtr (tracker : BufferTracker) (userPtr size : Nat)
    (kernel : AddressRange → Option (Nat × Nat)) : Option AddressRange × Option VPUBufferObject :=
  if userPtr = 0 then (none, none)
  else if size = 0 then (none, none)
  else if tracker.userPtrCapability = false then (none, none)
  else
    let range := tracker.pageRange userPtr size
    (some range, (kernel range).map fun answer =>
      { id := tracker.created, handle := answer.1, basePtr := range.base, allocSize := range.size,
        vpuAddr := answer.2 })

/-- `Context::importUserPtr`. The kernel pins no range that leaves the address space. -/
def importUserPtr (tracker : BufferTracker) (userPtr size : Nat) (answer : Option (Nat × Nat)) :
    Option VPUBufferObject × BufferTracker :=
  if userPtr = 0 ∨ size = 0 ∨ tracker.userPtrCapability = false then (none, tracker)
  else if (tracker.findBufferObject userPtr).isSome then (none, tracker)
  else
    let range := tracker.pageRange userPtr size
    match answer with
    | none => (none, tracker)
    | some (handle, vpuAddr) =>
      if 2 ^ 64 < range.stop then (none, tracker)
      else
        tracker.track { id := tracker.created, handle := handle, basePtr := range.base,
                        allocSize := range.size, vpuAddr := vpuAddr } .UserPtr

/-- Any pointer into a user range frees it, of the other buffers only their base. -/
def freeMemAlloc (tracker : BufferTracker) (ptr : Nat) : Bool × BufferTracker :=
  match tracker.findBufferObject ptr with
  | none => (false, tracker)
  | some bo =>
    if bo.object.basePtr ≠ ptr ∧ bo.location ≠ .UserPtr then (false, tracker)
    else
      (true, { tracker with trackedBuffers := eraseKey (toDual bo.object.basePtr) tracker.trackedBuffers })

def step (tracker : BufferTracker) : TrackerCall → BufferTracker
  | .createBufferObject size mappable location answer =>
    (tracker.createBufferObject size mappable location answer).2
  | .importBufferObject location answer => (tracker.importBufferObject location answer).2
  | .importUserPtr userPtr size answer => (tracker.importUserPtr userPtr size answer).2
  | .freeMemAlloc ptr => (tracker.freeMemAlloc ptr).2

/-- A context without tracked buffers. -/
def empty (pageSize : Nat) (userPtrCapability : Bool) : BufferTracker := ⟨pageSize, userPtrCapability, [], 0⟩

end BufferTracker

end NpuDriver
