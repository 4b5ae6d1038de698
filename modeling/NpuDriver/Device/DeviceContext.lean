import NpuDriver.Memory.BufferObject

/-! The device context: the kernel's answers, the tracked buffers and the caches of
internal buffers. -/

namespace NpuDriver

/-- Hardware generations, oldest first. -/
inductive NpuArch where
  | NPU37XX | NPU40XX | NPU50XX
deriving DecidableEq, Repr

def NpuArch.generation : NpuArch → Nat
  | NPU37XX => 37
  | NPU40XX => 40
  | NPU50XX => 50

/-- The two copy-descriptor structures of the firmware interface. -/
inductive CopyDescriptorLayout where
  | vpu_cmd_copy_descriptor_37xx | vpu_cmd_copy_descriptor_40xx
deriving DecidableEq, Repr

/-- The hardware information that command building and submission read. `getCopyCommand`
is the descriptor writer, `none` where the function pointer is null. -/
structure VPUHwInfo where
  npuArch : NpuArch
  extraDmaDescriptorSize : Nat
  fwJsmCmdApiVersion : Nat
  fwTimestampType : Nat
  fwPreemptBufSize : Nat
  cmdQueueCreationCapability : Bool
  getCopyCommand : Option CopyDescriptorLayout

def isJsmCmdApiGreaterThan (hwInfo : VPUHwInfo) (major minor : Nat) : Bool :=
  hwInfo.fwJsmCmdApiVersion > major * 2 ^ 16 + minor % 2 ^ 16

/-- The kernel's answer to one buffer-object creation. -/
structure BufferAnswer where
  handle : Nat
  basePtr : Nat
  vpuAddr : Nat
deriving DecidableEq, Repr

/-- The last reply to the submission of one command buffer: `timedOut` is an `EBUSY` that
came after the two seconds of polling. -/
inductive SubmitOutcome where
  | accepted
  | failed (errno : Int)
  | timedOut (errno : Int)
deriving DecidableEq, Repr

/-- The replies to the submission of one command buffer: `busyReplies` times `EBUSY` within
the polling time, then the outcome. -/
structure SubmitAnswer where
  busyReplies : Nat
  outcome : SubmitOutcome
deriving DecidableEq, Repr

/-- The kernel driver. Its answers are indexed by the number of earlier requests, so that no
assumption is made about them; `none` is a failed request. -/
structure VPUDriverApi where
  createBuffer : Nat → Nat → Option BufferAnswer
  wait : Nat → Nat → Option Nat
  commandQueueSubmit : Nat → SubmitAnswer

/-- The requests that concern command buffers, with the arguments that reached the kernel. -/
inductive DriverCall where
  | submit (buffer : VPUBufferObject) (bufferHandles : List Nat) (preemptBufferIndex cmdqId : Nat)
      (accepted : Bool)
  | wait (buffer : VPUBufferObject) (completed : Bool)
deriving DecidableEq, Repr

/-- The device context. `trackedBuffers` is the map ordered by descending base pointer;
`useCount` and `loader` answer the reads of `use_count()` by the buffer caches and the calls
of `elf::HostParsedInference::applyInputOutput`; `nopSlack` is the memory that follows a
`vpu_cmd_nop_t` inside its command object; `calls` lists the requests made so far, the
latest one last. -/
structure VPUDeviceContext where
  hwInfo : VPUHwInfo
  drvApi : VPUDriverApi
  useCount : Nat → VPUBufferObject → Nat
  loader : Nat → Bool
  nopSlack : Nat → UInt8
  created : Nat
  scans : Nat
  applied : Nat
  errno : Int
  calls : List DriverCall
  trackedBuffers : List VPUBufferObject
  scratchBuffers : List VPUBufferObject
  preemptionBuffers : List VPUBufferObject

namespace VPUDeviceContext

/-- `mappable` is the `DRM_IVPU_BO_MAPPABLE` flag of the requested type: such a buffer must
be mapped into the host, any other one has a null base pointer. -/
def createUntrackedBufferObject (ctx : VPUDeviceContext) (size : Nat) (mappable : Bool) :
    Option VPUBufferObject × VPUDeviceContext :=
  if size = 0 then (none, ctx)
  else
    let next := { ctx with created := ctx.created + 1 }
    match ctx.drvApi.createBuffer ctx.created size with
    | none => (none, next)
    | some answer =>
      if mappable && answer.basePtr == 0 then (none, next)
      else
        (some { id := ctx.created, handle := answer.handle,
                basePtr := if mappable then answer.basePtr else 0,
                allocSize := size, vpuAddr := answer.vpuAddr }, next)

/-- The first tracked buffer that does not start above the pointer, when it contains it. -/
def findBufferObject (ctx : VPUDeviceContext) (ptr : Nat) : Option VPUBufferObject :=
  if ptr = 0 then none
  else
    match ctx.trackedBuffers.find? (fun bo => bo.basePtr ≤ ptr) with
    | none => none
    | some bo => if bo.isInRange ptr then some bo else none

/-- The cached buffer that `ScratchCacheFactory::acquire` settles on: one of exactly the
requested size ends the scan, otherwise the smallest larger one wins, a later one on a tie. -/
def scratchHit (size : Nat) (idle : VPUBufferObject → Bool) :
    Option VPUBufferObject → List VPUBufferObject → Option VPUBufferObject
  | hit, [] => hit
  | hit, bo :: rest =>
    if !idle bo then scratchHit size idle hit rest
    else if bo.allocSize = size then some bo
    else if bo.allocSize > size then
      match hit with
      | some best =>
        if best.allocSize < bo.allocSize then scratchHit size idle hit rest
        else scratchHit size idle (some bo) rest
      | none => scratchHit size idle (some bo) rest
    else scratchHit size idle hit rest

def scratchCacheAcquire (ctx : VPUDeviceContext) (size : Nat) :
    Option VPUBufferObject × VPUDeviceContext :=
  if size = 0 then (none, ctx)
  else
    let scanned := { ctx with scans := ctx.scans + 1 }
    match scratchHit size (fun bo => ctx.useCount ctx.scans bo == 1) none ctx.scratchBuffers with
    | some hit => (some hit, scanned)
    | none =>
      match scanned.createUntrackedBufferObject size false with
      | (none, next) => (none, next)
      | (some bo, next) => (some bo, { next with scratchBuffers := next.scratchBuffers ++ [bo] })

def isPreemptionBufferSupported (ctx : VPUDeviceContext) : Bool :=
  ctx.hwInfo.fwPreemptBufSize > 0 && ctx.hwInfo.cmdQueueCreationCapability

def preemptionCacheAcquire (ctx : VPUDeviceContext) : Option VPUBufferObject × VPUDeviceContext :=
  if ctx.hwInfo.fwPreemptBufSize = 0 then (none, ctx)
  else
    let scanned := { ctx with scans := ctx.scans + 1 }
    match ctx.preemptionBuffers.find? (fun bo => ctx.useCount ctx.scans bo == 1) with
    | some hit => (some hit, scanned)
    | none =>
      match scanned.createUntrackedBufferObject ctx.hwInfo.fwPreemptBufSize false with
      | (none, next) => (none, next)
      | (some bo, next) =>
        (some bo, { next with preemptionBuffers := next.preemptionBuffers ++ [bo] })

/-- What a successful creation returns: a fresh identity and exactly the requested size. -/
theorem createUntrackedBufferObject_some {ctx next : VPUDeviceContext} {bo : VPUBufferObject}
    (success : ctx.createUntrackedBufferObject size mappable = (some bo, next)) :
    bo.id = ctx.created ∧ bo.allocSize = size ∧ (mappable = true → bo.basePtr ≠ 0) ∧
      next = { ctx with created := ctx.created + 1 } := by
  unfold createUntrackedBufferObject at success
  split at success
  · cases success
  · cases answered : ctx.drvApi.createBuffer ctx.created size with
    | none => simp [answered] at success
    | some answer =>
      simp only [answered] at success
      split at success
      · cases success
      · rename_i mapped
        simp only [Prod.mk.injEq, Option.some.injEq] at success
        obtain ⟨rfl, rfl⟩ := success
        refine ⟨rfl, rfl, ?_, rfl⟩
        intro isMappable
        simpa [isMappable] using mapped

/-- A buffer that is not mapped into the host is missing only when the kernel refuses it. -/
theorem createUntrackedBufferObject_unmapped_none {ctx : VPUDeviceContext} (nonempty : size ≠ 0)
    (missing : (ctx.createUntrackedBufferObject size false).1 = none) :
    ctx.drvApi.createBuffer ctx.created size = none := by
  rw [createUntrackedBufferObject, if_neg nonempty] at missing
  cases answered : ctx.drvApi.createBuffer ctx.created size with
  | none => rfl
  | some answer => simp [answered] at missing

/-- Creation changes nothing of the context but the number of requests. -/
theorem createUntrackedBufferObject_frame (ctx : VPUDeviceContext) (size : Nat) (mappable : Bool) :
    ∃ created, ctx.created ≤ created ∧
      (ctx.createUntrackedBufferObject size mappable).2 = { ctx with created := created } := by
  unfold createUntrackedBufferObject
  split
  · exact ⟨ctx.created, Nat.le_refl _, rfl⟩
  · cases ctx.drvApi.createBuffer ctx.created size with
    | none => exact ⟨ctx.created + 1, Nat.le_succ _, rfl⟩
    | some answer =>
      simp only
      split <;> exact ⟨ctx.created + 1, Nat.le_succ _, rfl⟩

/-- What the lookup finds is tracked, and contains the pointer. -/
theorem findBufferObject_some {ctx : VPUDeviceContext} {bo : VPUBufferObject}
    (found : ctx.findBufferObject ptr = some bo) : bo ∈ ctx.trackedBuffers ∧ bo.isInRange ptr = true := by
  unfold findBufferObject at found
  split at found
  · cases found
  · split at found
    · cases found
    · rename_i hit located
      split at found
      · rename_i inside
        cases found
        exact ⟨List.mem_of_find?_eq_some located, inside⟩
      · cases found

theorem findBufferObject_mem {ctx : VPUDeviceContext} {bo : VPUBufferObject}
    (found : ctx.findBufferObject ptr = some bo) : bo ∈ ctx.trackedBuffers :=
  (findBufferObject_some found).1

end VPUDeviceContext

/-- A kernel that grants every request: the `n`-th buffer gets handle `n + 1` and one
megabyte of address space. -/
def grantingKernel : VPUDriverApi where
  createBuffer := fun count _ => some ⟨count + 1, (count + 1) * 2 ^ 20, (count + 1) * 2 ^ 20⟩
  wait := fun _ _ => some 0
  commandQueueSubmit := fun _ => ⟨0, .accepted⟩

/-- Hardware of the 40xx generation without preemption buffers. -/
def hwInfo40xx : VPUHwInfo where
  npuArch := .NPU40XX
  extraDmaDescriptorSize := 192
  fwJsmCmdApiVersion := 4 * 2 ^ 16 + 15
  fwTimestampType := 0
  fwPreemptBufSize := 0
  cmdQueueCreationCapability := true
  getCopyCommand := some .vpu_cmd_copy_descriptor_40xx

/-- A new context on a granting kernel, with the given user buffers. -/
def grantingContext (trackedBuffers : List VPUBufferObject) : VPUDeviceContext where
  hwInfo := hwInfo40xx
  drvApi := grantingKernel
  useCount := fun _ _ => 1
  loader := fun _ => true
  nopSlack := fun _ => 0
  created := 0
  scans := 0
  applied := 0
  errno := 0
  calls := []
  trackedBuffers := trackedBuffers
  scratchBuffers := []
  preemptionBuffers := []

end NpuDriver
