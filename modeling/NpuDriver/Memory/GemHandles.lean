import NpuDriver.Device.TrackedBuffers
import NpuDriver.Library.ResourceLog

/-! The kernel's handles of buffers, and the buffer objects that carry them. -/

namespace NpuDriver

open Library

namespace Location

/-- The enumerators of `VPUBufferObject::Location`. -/
def value : Location → Nat
  | Internal => 0x1
  | Host => 0x2
  | Device => 0x4
  | Shared => 0x8
  | ExternalHost => 0x8002
  | ExternalDevice => 0x8004
  | ExternalShared => 0x8008
  | UserPtr => 0x10000

def externalMemMask : Nat := 0x8000

def isExternal (location : Location) : Bool := location.value &&& externalMemMask != 0

def allowDeleteExternalHandle : Location → Location
  | ExternalHost => Host
  | ExternalDevice => Device
  | ExternalShared => Shared
  | other => other

end Location

def TrackedBuffer.allowDeleteExternalHandle (bo : TrackedBuffer) : TrackedBuffer :=
  { bo with location := bo.location.allowDeleteExternalHandle }

/-- The three kinds of memory of the allocation calls. -/
inductive MemoryKind where
  | Host | Device | Shared
deriving DecidableEq, Repr

/-- The location of an exportable or imported buffer. -/
def MemoryKind.external : MemoryKind → Location
  | Host => .ExternalHost
  | Device => .ExternalDevice
  | Shared => .ExternalShared

/-- How the kernel numbers new handles: `count` handles were opened before, and the number is none of
those that are taken. -/
structure HandleNumbers where
  next : (count : Nat) → (taken : List Nat) → Nat
  unused : ∀ count taken, next count taken ∉ taken

/-- What a handle or a descriptor stands for: memory of this device file, or memory that another file exported. -/
inductive GemMemory where
  | own (allocation : Nat)
  | foreign (source : Nat)
deriving DecidableEq, Repr

/-- The kernel's replies to the requests that make one buffer object; `basePtr` is what `mmap` returns, and
`size` is the one that `getExtBufferInfo` reports. -/
structure BufferReply where
  granted : Bool
  informed : Bool
  basePtr : Nat
  vpuAddr : Nat
  size : Nat
deriving DecidableEq, Repr

/-- `handles` are open on the device file, `objects` are the live buffer objects and `references` the ids of those
that somebody besides the map of tracked buffers holds. `orphaned` collects the live objects whose handle
was closed by another one. -/
structure GemState where
  numbers : HandleNumbers
  opened : Nat
  handles : List (Nat × GemMemory)
  descriptors : List GemMemory
  tracker : BufferTracker
  objects : List TrackedBuffer
  references : List Nat
  log : List (ResourceEvent Nat)
  orphaned : List Nat

/-- `lookUp` and `share` make references to buffers, and `receive` is a descriptor from another device file. -/
inductive GemCall where
  | createBufferObject (size : Nat) (mappable : Bool) (location : Location) (reply : BufferReply)
  | createUntrackedBufferObject (size : Nat) (mappable : Bool) (reply : BufferReply)
  | importUserPtr (userPtr size : Nat) (reply : BufferReply)
  | createUntrackedBufferObjectFromUserPtr (userPtr size : Nat) (reply : BufferReply)
  | importMemory (kind : MemoryKind) (fd : Nat) (reply : BufferReply)
  | exportMemory (ptr : Nat) (granted : Bool)
  | receive (source : Nat)
  | freeMemAlloc (ptr : Nat)
  | lookUp (ptr : Nat)
  | share (id : Nat)
  | release (id : Nat)
deriving DecidableEq, Repr

namespace GemState

def trackedIds (state : GemState) : List Nat := state.tracker.trackedBuffers.map fun entry => entry.2.object.id

/-- The kernel opens a new handle. -/
def openHandle (state : GemState) (memory : GemMemory) : Nat × GemState :=
  let handle := state.numbers.next state.opened (state.handles.map Prod.fst)
  (handle,
    { state with
      opened := state.opened + 1
      handles := (handle, memory) :: state.handles
      log := .obtained handle :: state.log })

/-- The kernel does not count imports: memory that is open on the file keeps its handle. -/
def importBuffer (state : GemState) (memory : GemMemory) : Nat × GemState :=
  match state.handles.find? (fun entry => entry.2 = memory) with
  | some (handle, _) => (handle, { state with log := .obtained handle :: state.log })
  | none => state.openHandle memory

/-- The live objects that carry a handle. -/
def carriers (state : GemState) (handle : Nat) : List TrackedBuffer :=
  state.objects.filter fun bo => bo.object.handle = handle

def closeBuffer (state : GemState) (handle : Nat) : GemState :=
  { state with
    handles := state.handles.filter fun entry => entry.1 ≠ handle
    log := .released handle :: state.log
    orphaned := (state.carriers handle).map (fun bo => bo.object.id) ++ state.orphaned }

/-- The end of the destructor, for an object that is no longer among the live ones. -/
def destroyed (state : GemState) (location : Location) (handle : Nat) : GemState :=
  if location.isExternal then state else state.closeBuffer handle

/-- `VPUBufferObject::create` up to the construction of the object. -/
def create (state : GemState) (mappable : Bool) (reply : BufferReply) : Option BufferAnswer × GemState :=
  if !reply.granted then (none, state)
  else
    let created := state.openHandle (.own state.opened)
    if !reply.informed || (mappable && reply.basePtr == 0) then (none, created.2.closeBuffer created.1)
    else (some ⟨created.1, reply.basePtr, reply.vpuAddr⟩, created.2)

/-- `VPUBufferObject::importFromFd` up to the construction of the object; a failed one keeps the handle. -/
def importFromFd (state : GemState) (fd : Nat) (reply : BufferReply) : Option BufferAnswer × GemState :=
  match state.descriptors[fd]? with
  | none => (none, state)
  | some memory =>
    if !reply.granted then (none, state)
    else
      let imported := state.importBuffer memory
      if !reply.informed || reply.basePtr == 0 then (none, imported.2)
      else (some ⟨imported.1, reply.basePtr, reply.vpuAddr⟩, imported.2)

/-- An object has been constructed; it is destroyed at once when it cannot be tracked. -/
def adopt (state : GemState) (location : Location) (handle : Nat)
    (tracked : Option VPUBufferObject × BufferTracker) : GemState :=
  match tracked with
  | (some object, tracker) =>
    { state with tracker := tracker, objects := ⟨object, location⟩ :: state.objects }
  | (none, tracker) => { state with tracker := tracker }.destroyed location handle

/-- An object has been constructed that its creator holds. -/
def adoptUntracked (state : GemState) (location : Location) (handle basePtr size vpuAddr : Nat) : GemState :=
  let object : VPUBufferObject :=
    { id := state.tracker.created, handle := handle, basePtr := basePtr, allocSize := size, vpuAddr := vpuAddr }
  { state with
    tracker := { state.tracker with created := state.tracker.created + 1 }
    objects := ⟨object, location⟩ :: state.objects
    references := object.id :: state.references }

def createBufferObject (state : GemState) (size : Nat) (mappable : Bool) (location : Location)
    (reply : BufferReply) : GemState :=
  match state.create mappable reply with
  | (none, next) => next
  | (some answer, next) =>
    next.adopt location answer.handle (next.tracker.createBufferObject size mappable location (some answer))

def createUntrackedBufferObject (state : GemState) (size : Nat) (mappable : Bool) (reply : BufferReply) :
    GemState :=
  if size = 0 then state
  else
    match state.create mappable reply with
    | (none, next) => next
    | (some answer, next) =>
      next.adoptUntracked .Internal answer.handle (if mappable then answer.basePtr else 0) size answer.vpuAddr

/-- A user pointer that is refused before the kernel is asked, or by the kernel, makes no object. -/
def importUserPtr (state : GemState) (userPtr size : Nat) (reply : BufferReply) : GemState :=
  let created := state.openHandle (.own state.opened)
  let tracked := state.tracker.importUserPtr userPtr size (some (created.1, reply.vpuAddr))
  if !reply.granted || tracked.2.created == state.tracker.created then state
  else created.2.adopt .UserPtr created.1 tracked

def createUntrackedBufferObjectFromUserPtr (state : GemState) (userPtr size : Nat) (reply : BufferReply) :
    GemState :=
  if userPtr = 0 ∨ size = 0 ∨ state.tracker.userPtrCapability = false then state
  else if (state.tracker.findBufferObject userPtr).isSome || !reply.granted then state
  else
    let range := state.tracker.pageRange userPtr size
    let created := state.openHandle (.own state.opened)
    created.2.adoptUntracked .UserPtr created.1 range.base range.size reply.vpuAddr

def importMemory (state : GemState) (kind : MemoryKind) (fd : Nat) (reply : BufferReply) : GemState :=
  match state.importFromFd fd reply with
  | (none, next) => next
  | (some answer, next) =>
    next.adopt kind.external answer.handle
      (next.tracker.importBufferObject kind.external (some (answer, reply.size)))

/-- `exportToFd` of the buffer that a pointer lies in. -/
def exportMemory (state : GemState) (ptr : Nat) (granted : Bool) : GemState :=
  match state.tracker.findBufferObject ptr with
  | none => state
  | some bo =>
    if bo.location.value &&& Location.externalMemMask ≠ Location.externalMemMask || !granted then state
    else
      { state with
        descriptors := state.descriptors ++
          ((state.handles.find? fun entry => entry.1 = bo.object.handle).map Prod.snd).toList }

/-- An object without holders is destroyed. -/
def collect (state : GemState) (id : Nat) : GemState :=
  if id ∈ state.references ∨ id ∈ state.trackedIds then state
  else
    match state.objects.find? (fun bo => bo.object.id = id) with
    | none => state
    | some bo =>
      { state with objects := state.objects.filter fun other => other.object.id ≠ id }.destroyed
        bo.location bo.object.handle

/-- The buffer that `freeMemAlloc` takes out of the map. -/
def freed (state : GemState) (ptr : Nat) : Option TrackedBuffer :=
  if (state.tracker.freeMemAlloc ptr).1 then state.tracker.findBufferObject ptr else none

def freeMemAlloc (state : GemState) (ptr : Nat) : GemState :=
  match state.freed ptr with
  | none => state
  | some bo =>
    { state with
      tracker := (state.tracker.freeMemAlloc ptr).2
      objects := state.objects.map fun (other : TrackedBuffer) =>
        if other.object.id = bo.object.id then other.allowDeleteExternalHandle else other }.collect bo.object.id

def lookUp (state : GemState) (ptr : Nat) : GemState :=
  match state.tracker.findBufferObject ptr with
  | none => state
  | some bo => { state with references := bo.object.id :: state.references }

def share (state : GemState) (id : Nat) : GemState :=
  if id ∈ state.references then { state with references := id :: state.references } else state

def release (state : GemState) (id : Nat) : GemState :=
  if id ∈ state.references then { state with references := state.references.erase id }.collect id else state

def step (state : GemState) : GemCall → GemState
  | .createBufferObject size mappable location reply => state.createBufferObject size mappable location reply
  | .createUntrackedBufferObject size mappable reply => state.createUntrackedBufferObject size mappable reply
  | .importUserPtr userPtr size reply => state.importUserPtr userPtr size reply
  | .createUntrackedBufferObjectFromUserPtr userPtr size reply =>
    state.createUntrackedBufferObjectFromUserPtr userPtr size reply
  | .importMemory kind fd reply => state.importMemory kind fd reply
  | .exportMemory ptr granted => state.exportMemory ptr granted
  | .receive source => { state with descriptors := state.descriptors ++ [.foreign source] }
  | .freeMemAlloc ptr => state.freeMemAlloc ptr
  | .lookUp ptr => state.lookUp ptr
  | .share id => state.share id
  | .release id => state.release id

/-- A device file that has just been opened. -/
def initial (numbers : HandleNumbers) (pageSize : Nat) (userPtrCapability : Bool) : GemState where
  numbers := numbers
  opened := 0
  handles := []
  descriptors := []
  tracker := .empty pageSize userPtrCapability
  objects := []
  references := []
  log := []
  orphaned := []

end GemState

end NpuDriver
