import NpuDriver.Device.TrackedBuffers

/-! Access to the sections of a model blob: where the blob lies, the buffers that the loader gets
and the reads behind them. -/

namespace NpuDriver

open Library
open OrderDual (toDual ofDual)

/-- `elf::BufferSpecs`; `sharable` is the answer of `isSharable`. -/
structure BufferSpecs where
  size : Nat
  procFlags : BitVec 64
  sharable : Bool
deriving DecidableEq, Repr

/-- `elf::DeviceBuffer`; the default one is empty. -/
structure DeviceBuffer where
  cpuAddr : Nat
  vpuAddr : Nat
  size : Nat
deriving DecidableEq, Repr

def DeviceBuffer.empty : DeviceBuffer := ⟨0, 0, 0⟩

/-- A buffer with its specs; the contents are by offset from the buffer's host address. -/
structure ManagedBuffer where
  specs : BufferSpecs
  buffer : DeviceBuffer
  contents : Image

/-- What is used of the ELF library: its section flags and the buffers behind `StaticBuffer` and
`DynamicBuffer`, the second one `none` where it cannot be allocated. -/
structure ElfLibrary where
  SHF_ALLOC : BitVec 64
  SHF_EXECINSTR : BitVec 64
  VPU_SHF_PROC_DMA : BitVec 64
  VPU_SHF_PROC_SHAVE : BitVec 64
  staticBuffer : Nat → BufferSpecs → DeviceBuffer
  dynamicBuffer : BufferSpecs → Option DeviceBuffer

/-- A static buffer wraps a raw pointer, a dynamic one a vector; both are as large as their specs say. -/
structure ElfLibrary.Wraps (elf : ElfLibrary) : Prop where
  static : ∀ start specs, (elf.staticBuffer start specs).size = specs.size
  dynamic : ∀ specs buffer, elf.dynamicBuffer specs = some buffer → buffer.size = specs.size

inductive ElfError where
  | AccessError | AllocError | bad_alloc
deriving DecidableEq, Repr

/-- The types that `getBufferType` chooses among; all of them are mappable. -/
inductive BufferType where
  | WriteCombineFw | WriteCombineShave | WriteCombineDma
deriving DecidableEq, Repr

/-- The buffers that the loader was given, ordered by `std::greater` of their base pointers. -/
structure DriverBufferManager where
  ctx : VPUDeviceContext
  tracedElfParserBuffers : List (Natᵒᵈ × VPUBufferObject)
  sorted : Ascending tracedElfParserBuffers
  sharedScratchSize : Nat

namespace DriverBufferManager

theorem nil_ascending : Ascending ([] : List (Natᵒᵈ × VPUBufferObject)) := List.Pairwise.nil

def getBufferType (elf : ElfLibrary) (flag : BitVec 64) : BufferType :=
  if flag &&& elf.SHF_EXECINSTR ≠ 0 then .WriteCombineFw
  else if flag &&& elf.VPU_SHF_PROC_SHAVE ≠ 0 then .WriteCombineShave
  else .WriteCombineDma

/-- `tracedElfParserBuffers.emplace`, which fails when the base pointer is taken. -/
def trace (manager : DriverBufferManager) (bo : VPUBufferObject) : Except ElfError DriverBufferManager :=
  if toDual bo.basePtr ∈ manager.tracedElfParserBuffers.map Prod.fst then .error .AllocError
  else
    .ok { manager with
          tracedElfParserBuffers := emplace (toDual bo.basePtr) bo manager.tracedElfParserBuffers
          sorted := emplace_ascending manager.sorted _ bo }

/-- The scratch cache that a shared buffer preloads is no part of the manager. -/
def allocate (elf : ElfLibrary) (manager : DriverBufferManager) (buffSpecs : BufferSpecs) :
    Except ElfError (DeviceBuffer × DriverBufferManager) :=
  if buffSpecs.size = 0 then
    match manager.ctx.createUntrackedBufferObject 1 false with
    | (none, _) => .error .AllocError
    | (some bo, ctx) => .ok (⟨0, bo.vpuAddr, buffSpecs.size⟩, { manager with ctx := ctx })
  else if buffSpecs.sharable ∧ getBufferType elf buffSpecs.procFlags = .WriteCombineDma then
    .ok (.empty, { manager with sharedScratchSize := buffSpecs.size })
  else
    match manager.ctx.createUntrackedBufferObject buffSpecs.size true with
    | (none, _) => .error .AllocError
    | (some bo, ctx) => do
      let next ← trace { manager with ctx := ctx } bo
      return (⟨bo.basePtr, bo.vpuAddr, buffSpecs.size⟩, next)

def findBuffer (manager : DriverBufferManager) (ptr : Nat) : Option VPUBufferObject :=
  match manager.tracedElfParserBuffers.find? (fun entry => ofDual entry.1 ≤ ptr) with
  | none => none
  | some (_, bo) => if bo.isInRange ptr then some bo else none

/-- The contents of the buffer behind a device buffer after the copy; a copy that fails is only logged. -/
def copy (manager : DriverBufferManager) (device : DeviceBuffer) (contents : Image) (data : List UInt8) : Image :=
  if data.length = 0 then contents
  else
    match manager.findBuffer device.cpuAddr with
    | none => contents
    | some bo => (bo.copyToBuffer contents data 0).getD contents

def append (manager : DriverBufferManager) (bo : VPUBufferObject) : Except ElfError DriverBufferManager :=
  match manager.findBuffer bo.basePtr with
  | some _ => .ok manager
  | none => manager.trace bo

end DriverBufferManager

/-- What keeps the memory of a blob beside a buffer object. -/
inductive BackingStore where
  | monostate | file | heap
deriving DecidableEq, Repr

structure BlobContainer where
  ptr : Nat
  size : Nat
  backingStore : BackingStore
  bo : Option VPUBufferObject
deriving DecidableEq, Repr

def BlobContainer.hasBackingStore (blob : BlobContainer) : Bool :=
  blob.backingStore != .monostate || blob.bo.isSome

/-- `createUntrackedBufferObjectFromUserPtr` with the kernel's answer. The kernel pins no range that
leaves the address space. -/
def BufferTracker.createUntrackedBufferObjectFromUserPtr (tracker : BufferTracker) (userPtr size : Nat)
    (answer : Option (Nat × Nat)) : Option VPUBufferObject :=
  if (tracker.findBufferObject userPtr).isSome then none
  else if userPtr = 0 ∨ size = 0 ∨ tracker.userPtrCapability = false then none
  else
    match answer with
    | none => none
    | some (handle, vpuAddr) =>
      if 2 ^ 64 < (tracker.pageRange userPtr size).stop then none
      else
        some { id := tracker.created, handle := handle, basePtr := (tracker.pageRange userPtr size).base,
               allocSize := (tracker.pageRange userPtr size).size, vpuAddr := vpuAddr }

/-- `getBlobContainerNative` of a graph description, `persistent` when its input is
(`ZE_GRAPH_FLAG_INPUT_GRAPH_PERSISTENT`). -/
def getBlobContainerNative (tracker : BufferTracker) (persistent : Bool) (pInput inputSize : Nat)
    (answer : Option (Nat × Nat)) : BlobContainer :=
  if persistent then
    match tracker.findBufferObject pInput with
    | some bo => ⟨pInput, inputSize, .monostate, some bo.object⟩
    | none =>
      ⟨pInput, inputSize, .monostate, tracker.createUntrackedBufferObjectFromUserPtr pInput inputSize answer⟩
  else ⟨pInput, inputSize, .monostate, none⟩

/-- What a call leaves behind: the buffer, the host memory that was copied or is handed out, and the
imported buffer object whose device address was handed out. -/
structure Access where
  buffer : ManagedBuffer
  reads : AddressRange
  imported : Option VPUBufferObject
  manager : DriverBufferManager

/-- `DriverAccessManager`; `memory` is the host's memory, `fresh` the contents of a new allocation. -/
structure DriverAccessManager where
  elf : ElfLibrary
  bufferManager : DriverBufferManager
  blobContainer : BlobContainer
  memory : Image
  fresh : Image

namespace DriverAccessManager

def getSize (access : DriverAccessManager) : Nat := access.blobContainer.size

def hasNPUAccess (elf : ElfLibrary) (flags : BitVec 64) : Bool :=
  flags &&& (elf.SHF_EXECINSTR ||| elf.VPU_SHF_PROC_DMA ||| elf.VPU_SHF_PROC_SHAVE ||| elf.SHF_ALLOC) ≠ 0

/-- The buffer object that a section is handed out from without a copy. -/
def importedBuffer (access : DriverAccessManager) (specs : BufferSpecs) : Option VPUBufferObject :=
  if access.blobContainer.hasBackingStore &&
      specs.procFlags == (access.elf.VPU_SHF_PROC_DMA ||| access.elf.SHF_ALLOC) then
    access.blobContainer.bo
  else none

/-- The bytes of the memory from an offset of it on. -/
def view (access : DriverAccessManager) (start : Nat) : Image := fun index => access.memory (start + index)

/-- Pointers and sizes have 64 bits. -/
def readInternal (access : DriverAccessManager) (offset : Nat) (specs : BufferSpecs) : Except ElfError Access :=
  if (offset + specs.size) % 2 ^ 64 > access.getSize then .error .AccessError
  else
    let start := (access.blobContainer.ptr + offset) % 2 ^ 64
    match access.importedBuffer specs with
    | some bo => do
      let manager ← access.bufferManager.append bo
      return ⟨⟨specs, ⟨start, bo.getVPUAddr start, specs.size⟩, access.view start⟩, ⟨start, specs.size⟩, some bo,
        manager⟩
    | none =>
      if hasNPUAccess access.elf specs.procFlags then do
        let (devBuffer, manager) ← DriverBufferManager.allocate access.elf access.bufferManager specs
        let data := access.memory.read start devBuffer.size
        return ⟨⟨specs, devBuffer, manager.copy devBuffer access.fresh data⟩, ⟨start, devBuffer.size⟩, none, manager⟩
      else if access.blobContainer.hasBackingStore then
        let statBuffer := access.elf.staticBuffer start specs
        .ok ⟨⟨specs, statBuffer, access.view start⟩, ⟨start, statBuffer.size⟩, none, access.bufferManager⟩
      else
        match access.elf.dynamicBuffer specs with
        | none => .error .bad_alloc
        | some devBuffer =>
          .ok ⟨⟨specs, devBuffer, access.fresh.write 0 (access.memory.read start devBuffer.size)⟩,
            ⟨start, devBuffer.size⟩, none, access.bufferManager⟩

def readExternal (access : DriverAccessManager) (offset : Nat) (buffer : ManagedBuffer) : Except ElfError Access :=
  if (offset + buffer.specs.size) % 2 ^ 64 > access.getSize then .error .AccessError
  else
    let start := (access.blobContainer.ptr + offset) % 2 ^ 64
    .ok ⟨{ buffer with contents := buffer.contents.write 0 (access.memory.read start buffer.buffer.size) },
      ⟨start, buffer.buffer.size⟩, none, access.bufferManager⟩

end DriverAccessManager

end NpuDriver
