import NpuDriver.Memory.GemHandles

/-! What a device context tells about the memory that is allocated in it. -/

namespace NpuDriver

/-- The buffers of a context. `untrackedBuffers` are weak pointers, by the ids of their objects, and `freed` are the
ids of the objects that `freeMemAlloc` took out of the map so far. -/
structure ContextMemory where
  gem : GemState
  untrackedBuffers : List Nat
  freed : List Nat

inductive ContextMemoryCall where
  | gem (call : GemCall)
  | removeExpiredInternalBuffers
deriving DecidableEq, Repr

namespace ContextMemory

/-- The object that a weak pointer points to; none when it has expired. -/
def lock (memory : ContextMemory) (id : Nat) : Option TrackedBuffer :=
  memory.gem.objects.find? fun bo => bo.object.id = id

/-- The weak pointer that a call appends when it makes an object. -/
def emplaced (memory : ContextMemory) : GemCall → List Nat
  | .createUntrackedBufferObject size mappable reply =>
    if (memory.gem.createUntrackedBufferObject size mappable reply).tracker.created = memory.gem.tracker.created then []
    else [memory.gem.tracker.created]
  | .createUntrackedBufferObjectFromUserPtr userPtr size reply =>
    if (memory.gem.createUntrackedBufferObjectFromUserPtr userPtr size reply).tracker.created =
        memory.gem.tracker.created then []
    else [memory.gem.tracker.created]
  | _ => []

def newlyFreed (memory : ContextMemory) : GemCall → List Nat
  | .freeMemAlloc ptr => ((memory.gem.freed ptr).map fun bo => bo.object.id).toList
  | _ => []

def step (memory : ContextMemory) : ContextMemoryCall → ContextMemory
  | .gem call =>
    { gem := memory.gem.step call
      untrackedBuffers := memory.untrackedBuffers ++ memory.emplaced call
      freed := memory.newlyFreed call ++ memory.freed }
  | .removeExpiredInternalBuffers =>
    { memory with untrackedBuffers := memory.untrackedBuffers.filter fun id => (memory.lock id).isSome }

/-- `getAllocatedSize`: the untracked buffers that have not expired, then the tracked ones. -/
def getAllocatedSize (memory : ContextMemory) : Nat :=
  (((memory.untrackedBuffers.filterMap memory.lock).map fun bo => bo.object.allocSize).sum +
    (memory.gem.tracker.trackedBuffers.map fun entry => entry.2.object.allocSize).sum) % 2 ^ 64

def getBuffersCount (memory : ContextMemory) : Nat :=
  memory.gem.tracker.trackedBuffers.length + (memory.untrackedBuffers.filterMap memory.lock).length

/-- A context without buffers. -/
def initial (numbers : HandleNumbers) (pageSize : Nat) (userPtrCapability : Bool) : ContextMemory :=
  ⟨.initial numbers pageSize userPtrCapability, [], []⟩

end ContextMemory

end NpuDriver
