import NpuDriver.LevelZero.BlobAccess

/-! Reads of a blob's sections stay inside the blob, unless their end wraps around. -/

namespace NpuDriver

open Library
open OrderDual (toDual ofDual)

/-- The two calls of the loader for a section. -/
inductive ReadRequest where
  | internal (specs : BufferSpecs)
  | external (buffer : ManagedBuffer)

def ReadRequest.specs : ReadRequest → BufferSpecs
  | internal specs => specs
  | external buffer => buffer.specs

def ReadRequest.perform (access : DriverAccessManager) (offset : Nat) : ReadRequest → Except ElfError Access
  | internal specs => access.readInternal offset specs
  | external buffer => access.readExternal offset buffer

/-- Addresses that lie inside other ones. -/
def AddressRange.Within (inner outer : AddressRange) : Prop :=
  outer.base ≤ inner.base ∧ inner.stop ≤ outer.stop

instance (inner outer : AddressRange) : Decidable (inner.Within outer) := inferInstanceAs (Decidable (_ ∧ _))

namespace DriverAccessManager

/-- Where a section of the blob lies, over the integers. -/
def sectionRange (access : DriverAccessManager) (offset : Nat) (specs : BufferSpecs) : AddressRange :=
  ⟨access.blobContainer.ptr + offset, specs.size⟩

/-- The section lies inside the blob, nothing else was read, its bytes are what the buffer holds, and a
device address handed out is the one of a section that lies in the buffer object. -/
structure ReadsSection (access : DriverAccessManager) (offset : Nat) (specs : BufferSpecs) (done : Access) :
    Prop where
  inside : offset + specs.size ≤ access.getSize
  confined : done.reads.Within (access.sectionRange offset specs)
  exact : done.buffer.contents.read 0 done.buffer.buffer.size =
    access.memory.read (access.blobContainer.ptr + offset) specs.size
  stored : ∀ bo, done.imported = some bo → (access.sectionRange offset specs).Within bo.range
  addressed : ∀ bo, done.imported = some bo → 0 < specs.size →
    done.buffer.buffer.vpuAddr = bo.vpuAddr + (access.blobContainer.ptr + offset - bo.basePtr)

/-- Such specs ask for the scratch buffer that all inferences share. -/
def AsksForSharedScratch (elf : ElfLibrary) (specs : BufferSpecs) : Prop :=
  hasNPUAccess elf specs.procFlags = true ∧ specs.sharable = true ∧
    DriverBufferManager.getBufferType elf specs.procFlags = .WriteCombineDma ∧ specs.size ≠ 0

/-- The end of the section is no larger than 64 bits, and the buffer can hold the section: an imported
buffer object contains it, and what is allocated or given is of its size. -/
def Admits (access : DriverAccessManager) (offset : Nat) : ReadRequest → Prop
  | .internal specs =>
    offset + specs.size < 2 ^ 64 ∧
      match access.importedBuffer specs with
      | some bo => (access.sectionRange offset specs).Within bo.range
      | none => ¬ AsksForSharedScratch access.elf specs
  | .external buffer => offset + buffer.specs.size < 2 ^ 64 ∧ buffer.buffer.size = buffer.specs.size

end DriverAccessManager

namespace DriverBufferManager

theorem trace_findBuffer {manager next : DriverBufferManager} {bo : VPUBufferObject}
    (traced : manager.trace bo = .ok next) (positive : 0 < bo.allocSize) :
    next.findBuffer bo.basePtr = some bo := by
  rw [trace] at traced
  split at traced
  · cases traced
  · rename_i absent
    cases traced
    have found : (emplace (toDual bo.basePtr) bo manager.tracedElfParserBuffers).find?
        (fun entry => ofDual entry.1 ≤ bo.basePtr) = some (toDual bo.basePtr, bo) := by
      apply find_emplace absent
      · simp
      · intro entry _ above
        exact decide_eq_false (not_le_of_gt above)
    simp only [findBuffer, found]
    apply if_pos
    simp [VPUBufferObject.isInRange, positive]

/-- The three kinds of buffers that an allocation yields. -/
theorem allocate_cases {elf : ElfLibrary} {manager next : DriverBufferManager} {buffSpecs : BufferSpecs}
    {buffer : DeviceBuffer} (allocated : manager.allocate elf buffSpecs = .ok (buffer, next)) :
    (buffSpecs.size = 0 ∧ buffer.size = 0) ∨
    (buffSpecs.size ≠ 0 ∧ (buffSpecs.sharable = true ∧ getBufferType elf buffSpecs.procFlags = .WriteCombineDma) ∧
      buffer.size = 0) ∨
    (buffSpecs.size ≠ 0 ∧
      ¬ (buffSpecs.sharable = true ∧ getBufferType elf buffSpecs.procFlags = .WriteCombineDma) ∧
      buffer.size = buffSpecs.size ∧
      ∃ bo, next.findBuffer buffer.cpuAddr = some bo ∧ bo.basePtr ≠ 0 ∧ bo.allocSize = buffSpecs.size) := by
  rw [allocate] at allocated
  by_cases none : buffSpecs.size = 0
  · rw [if_pos none] at allocated
    split at allocated
    · cases allocated
    · cases allocated
      exact .inl ⟨none, none⟩
  · rw [if_neg none] at allocated
    by_cases shared : buffSpecs.sharable = true ∧ getBufferType elf buffSpecs.procFlags = .WriteCombineDma
    · rw [if_pos shared] at allocated
      cases allocated
      exact .inr (.inl ⟨none, shared, rfl⟩)
    · rw [if_neg shared] at allocated
      split at allocated
      · cases allocated
      · rename_i bo ctx created
        obtain ⟨-, size, mapped, -⟩ := VPUDeviceContext.createUntrackedBufferObject_some created
        generalize traced : trace { manager with ctx := ctx } bo = outcome at allocated
        cases outcome with
        | error => cases allocated
        | ok kept =>
          cases allocated
          refine .inr (.inr ⟨none, shared, rfl, bo, ?_, mapped rfl, size⟩)
          exact trace_findBuffer traced (by omega)

/-- A buffer that was allocated holds the copied bytes. -/
theorem copy_allocated {manager : DriverBufferManager} {buffer : DeviceBuffer} {bo : VPUBufferObject}
    {data : List UInt8} (found : manager.findBuffer buffer.cpuAddr = some bo) (mapped : bo.basePtr ≠ 0)
    (size : bo.allocSize = data.length) (contents : Image) :
    (manager.copy buffer contents data).read 0 data.length = data := by
  rw [copy]
  by_cases empty : data.length = 0
  · rw [if_pos empty, empty, List.eq_nil_of_length_eq_zero empty]
    rfl
  · have nonempty : data ≠ [] := fun none => empty (by rw [none]; rfl)
    have copied : bo.copyToBuffer contents data 0 = some (contents.write 0 data) :=
      VPUBufferObject.copyToBuffer_of_fits mapped (by omega) nonempty
    simp only [if_neg empty, found, copied, Option.getD_some]
    exact Image.read_write_same contents 0 data

end DriverBufferManager

namespace DriverAccessManager

variable {access : DriverAccessManager} {offset : Nat} {done : Access}

theorem view_read (access : DriverAccessManager) (start length : Nat) :
    (access.view start).read 0 length = access.memory.read start length := by
  simp [Image.read, view]

/-- What a section gets that is not handed out from an imported buffer object. -/
structure Copied (access : DriverAccessManager) (start : Nat) (specs : BufferSpecs) (done : Access) : Prop where
  reads : done.reads = ⟨start, done.buffer.buffer.size⟩
  imported : done.imported = none
  shared : AsksForSharedScratch access.elf specs → done.buffer.buffer.size = 0
  sized : ¬ AsksForSharedScratch access.elf specs → done.buffer.buffer.size = specs.size
  contents : done.buffer.contents.read 0 done.buffer.buffer.size =
    access.memory.read start done.buffer.buffer.size

/-- A new allocation for a section. -/
theorem Copied.allocated {start : Nat} {specs : BufferSpecs} {buffer : DeviceBuffer} {manager : DriverBufferManager}
    (npu : hasNPUAccess access.elf specs.procFlags = true)
    (allocated : access.bufferManager.allocate access.elf specs = .ok (buffer, manager)) :
    Copied access start specs ⟨⟨specs, buffer, manager.copy buffer access.fresh (access.memory.read start buffer.size)⟩,
      ⟨start, buffer.size⟩, none, manager⟩ := by
  rcases DriverBufferManager.allocate_cases allocated with
    ⟨none, empty⟩ | ⟨positive, shared, empty⟩ | ⟨positive, own, size, bo, found, mapped, capacity⟩
  · refine ⟨rfl, rfl, fun _ => empty, fun _ => empty.trans none.symm, ?_⟩
    simp [empty]
  · refine ⟨rfl, rfl, fun _ => empty, fun other => (other ⟨npu, shared.1, shared.2, positive⟩).elim, ?_⟩
    simp [empty]
  · refine ⟨rfl, rfl, fun asks => (own ⟨asks.2.1, asks.2.2.1⟩).elim, fun _ => size, ?_⟩
    have copied := @DriverBufferManager.copy_allocated manager buffer bo (access.memory.read start buffer.size) found
      mapped (by simp [capacity, size]) access.fresh
    rw [Image.read_length] at copied
    exact copied

/-- A call that returns either hands out the section itself from an imported buffer object or a copy or
view of it. -/
theorem readInternal_ok {specs : BufferSpecs} (wraps : access.elf.Wraps)
    (returned : access.readInternal offset specs = .ok done) :
    (offset + specs.size) % 2 ^ 64 ≤ access.getSize ∧
      match access.importedBuffer specs with
      | some bo => ∃ manager, done =
          ⟨⟨specs, ⟨(access.blobContainer.ptr + offset) % 2 ^ 64,
              bo.getVPUAddr ((access.blobContainer.ptr + offset) % 2 ^ 64), specs.size⟩,
            access.view ((access.blobContainer.ptr + offset) % 2 ^ 64)⟩,
            ⟨(access.blobContainer.ptr + offset) % 2 ^ 64, specs.size⟩, some bo, manager⟩
      | none => Copied access ((access.blobContainer.ptr + offset) % 2 ^ 64) specs done := by
  unfold readInternal at returned
  split at returned
  · cases returned
  · rename_i within
    refine ⟨Nat.le_of_not_gt within, ?_⟩
    simp only at returned
    generalize (access.blobContainer.ptr + offset) % 2 ^ 64 = start at returned ⊢
    cases stored : access.importedBuffer specs with
    | some bo =>
      simp only [stored] at returned ⊢
      generalize access.bufferManager.append bo = appended at returned
      cases appended with
      | error => cases returned
      | ok manager =>
        cases returned
        exact ⟨manager, rfl⟩
    | none =>
      simp only [stored] at returned ⊢
      by_cases npu : hasNPUAccess access.elf specs.procFlags = true
      · rw [if_pos npu] at returned
        generalize allocated : access.bufferManager.allocate access.elf specs = outcome at returned
        cases outcome with
        | error => cases returned
        | ok pair =>
          cases returned
          exact Copied.allocated npu allocated
      · rw [if_neg npu] at returned
        have own : ¬ AsksForSharedScratch access.elf specs := fun asks => npu asks.1
        by_cases backed : access.blobContainer.hasBackingStore = true
        · rw [if_pos backed] at returned
          cases returned
          exact ⟨rfl, rfl, fun asks => (own asks).elim, fun _ => wraps.static start specs,
            view_read access start _⟩
        · rw [if_neg backed] at returned
          split at returned
          · cases returned
          · rename_i buffer allocated
            cases returned
            refine ⟨rfl, rfl, fun asks => (own asks).elim, fun _ => wraps.dynamic specs buffer allocated, ?_⟩
            have written := Image.read_write_same access.fresh 0 (access.memory.read start buffer.size)
            rw [Image.read_length] at written
            exact written

/-- A section inside a blob starts where the integers say. -/
theorem start_eq (placed : access.blobContainer.ptr + access.getSize < 2 ^ 64) {size : Nat}
    (inside : offset + size ≤ access.getSize) :
    (access.blobContainer.ptr + offset) % 2 ^ 64 = access.blobContainer.ptr + offset :=
  Nat.mod_eq_of_lt (by omega)

theorem readInternal_iff {specs : BufferSpecs} (wraps : access.elf.Wraps)
    (placed : access.blobContainer.ptr + access.getSize < 2 ^ 64)
    (returned : access.readInternal offset specs = .ok done) :
    ReadsSection access offset specs done ↔ access.Admits offset (.internal specs) := by
  obtain ⟨checked, outcome⟩ := readInternal_ok wraps returned
  simp only [Admits]
  constructor
  · intro right
    have inside := right.inside
    refine ⟨by omega, ?_⟩
    cases stored : access.importedBuffer specs with
    | some bo =>
      simp only [stored] at outcome ⊢
      obtain ⟨manager, rfl⟩ := outcome
      exact right.stored bo rfl
    | none =>
      simp only [stored] at outcome ⊢
      intro asks
      have same := congrArg List.length right.exact
      rw [outcome.shared asks, Image.read_length, Image.read_length] at same
      exact asks.2.2.2 same.symm
  · rintro ⟨exact, holds⟩
    rw [Nat.mod_eq_of_lt exact] at checked
    rw [start_eq placed checked] at outcome
    cases stored : access.importedBuffer specs with
    | some bo =>
      simp only [stored] at outcome holds
      obtain ⟨manager, rfl⟩ := outcome
      have within := holds
      simp only [AddressRange.Within, AddressRange.stop, sectionRange, VPUBufferObject.range] at within
      constructor
      case inside => exact checked
      case confined => exact ⟨Nat.le_refl _, Nat.le_refl _⟩
      case exact => exact view_read access _ _
      case stored =>
        rintro other ⟨⟩
        exact holds
      case addressed =>
        rintro other ⟨⟩ positive
        apply VPUBufferObject.getVPUAddr_of_inRange
        simp only [VPUBufferObject.isInRange, Bool.and_eq_true, decide_eq_true_eq]
        omega
    | none =>
      simp only [stored] at outcome holds
      have size := outcome.sized holds
      constructor
      case inside => exact checked
      case confined =>
        rw [outcome.reads, size]
        exact ⟨Nat.le_refl _, Nat.le_refl _⟩
      case exact => rw [outcome.contents, size]
      case stored => simp [outcome.imported]
      case addressed => simp [outcome.imported]

theorem readExternal_iff {buffer : ManagedBuffer} (placed : access.blobContainer.ptr + access.getSize < 2 ^ 64)
    (returned : access.readExternal offset buffer = .ok done) :
    ReadsSection access offset buffer.specs done ↔ access.Admits offset (.external buffer) := by
  unfold readExternal at returned
  split at returned
  · cases returned
  · rename_i within
    simp only [Except.ok.injEq] at returned
    subst returned
    simp only [Admits]
    constructor
    · intro right
      have inside := right.inside
      have same := congrArg List.length right.exact
      simp only [Image.read_length] at same
      exact ⟨by omega, same⟩
    · rintro ⟨exact, size⟩
      rw [Nat.mod_eq_of_lt exact] at within
      have checked := Nat.le_of_not_gt within
      have written := Image.read_write_same buffer.contents 0
        (access.memory.read (access.blobContainer.ptr + offset) buffer.buffer.size)
      rw [Image.read_length] at written
      simp only [start_eq placed checked]
      constructor
      case inside => exact checked
      case confined =>
        rw [size]
        exact ⟨Nat.le_refl _, Nat.le_refl _⟩
      case exact => exact written.trans (by rw [size])
      case stored => exact nofun
      case addressed => exact nofun

end DriverAccessManager

/-- A call of the loader that returns has read the requested section exactly when its end does not wrap
around and the buffer can hold it. -/
theorem sections_read_within {access : DriverAccessManager} {offset : Nat} {request : ReadRequest} {done : Access}
    (wraps : access.elf.Wraps) (placed : access.blobContainer.ptr + access.getSize < 2 ^ 64)
    (returned : request.perform access offset = .ok done) :
    DriverAccessManager.ReadsSection access offset request.specs done ↔ access.Admits offset request := by
  cases request with
  | internal specs => exact DriverAccessManager.readInternal_iff wraps placed returned
  | external buffer => exact DriverAccessManager.readExternal_iff placed returned

/-- A blob that the user keeps in a buffer object starts inside that buffer object. -/
theorem native_starts_inside {tracker : BufferTracker} {pInput inputSize : Nat} {bo : TrackedBuffer}
    (found : tracker.findBufferObject pInput = some bo) (answer : Option (Nat × Nat)) :
    getBlobContainerNative tracker true pInput inputSize answer =
        ⟨pInput, inputSize, .monostate, some bo.object⟩ ∧ bo.object.isInRange pInput = true := by
  refine ⟨by simp [getBlobContainerNative, found], ?_⟩
  rw [BufferTracker.findBufferObject] at found
  split at found
  · cases found
  · split at found
    · cases found
    · split at found
      · rename_i inside
        cases found
        exact inside
      · cases found

/-- So its sections are in the buffer object as far as they end in it. -/
theorem native_section_within {tracker : BufferTracker} {access : DriverAccessManager} {pInput inputSize : Nat}
    {bo : TrackedBuffer} {answer : Option (Nat × Nat)} (found : tracker.findBufferObject pInput = some bo)
    (native : access.blobContainer = getBlobContainerNative tracker true pInput inputSize answer) (offset : Nat)
    (specs : BufferSpecs) :
    (access.sectionRange offset specs).Within bo.object.range ↔
      pInput + offset + specs.size ≤ bo.object.basePtr + bo.object.allocSize := by
  obtain ⟨same, inside⟩ := @native_starts_inside tracker pInput inputSize bo found answer
  simp only [VPUBufferObject.isInRange, Bool.and_eq_true, decide_eq_true_eq] at inside
  simp only [AddressRange.Within, AddressRange.stop, DriverAccessManager.sectionRange, VPUBufferObject.range,
    native, same]
  constructor
  · exact And.right
  · intro ends
    exact ⟨by omega, ends⟩

/-- Sections of a vector's size, unless the vector is too large, and raw pointers. -/
def elfLibrary : ElfLibrary where
  SHF_ALLOC := 0x2
  SHF_EXECINSTR := 0x4
  VPU_SHF_PROC_DMA := 0x10000000
  VPU_SHF_PROC_SHAVE := 0x20000000
  staticBuffer := fun start specs => ⟨start, 0, specs.size⟩
  dynamicBuffer := fun specs => if specs.size < 2 ^ 63 then some ⟨2 ^ 45, 0, specs.size⟩ else none

/-- A page of the user's, of which the blob takes the second half and more. -/
def blobTracker : BufferTracker where
  pageSize := 4096
  userPtrCapability := true
  trackedBuffers := [(toDual (2 ^ 30), ⟨⟨1, 2, 2 ^ 30, 4096, 2 ^ 31⟩, .Host⟩)]
  created := 2

def blobAccess (persistent : Bool) : DriverAccessManager where
  elf := elfLibrary
  bufferManager := ⟨grantingContext [], [], List.Pairwise.nil, 0⟩
  blobContainer := getBlobContainerNative blobTracker persistent (2 ^ 30 + 2048) 8192 none
  memory := fun address => UInt8.ofNat address
  fresh := fun _ => 0

def dmaSection (size : Nat) : BufferSpecs := ⟨size, 0x10000002, false⟩

theorem elfLibrary_wraps : elfLibrary.Wraps := by
  constructor
  · exact fun _ _ => rfl
  · intro specs buffer allocated
    simp only [elfLibrary] at allocated
    split at allocated
    · cases allocated
      rfl
    · cases allocated

/-- A section in the half of the page. -/
theorem section_read_in_page :
    ∃ done, (ReadRequest.internal (dmaSection 512)).perform (blobAccess true) 1024 = .ok done ∧
      DriverAccessManager.ReadsSection (blobAccess true) 1024 (dmaSection 512) done := by
  refine ⟨_, rfl, ?_⟩
  have stored : (blobAccess true).importedBuffer (dmaSection 512) = some ⟨1, 2, 2 ^ 30, 4096, 2 ^ 31⟩ := rfl
  apply (@sections_read_within (blobAccess true) 1024 (.internal (dmaSection 512)) _ elfLibrary_wraps (by decide)
    rfl).mpr
  simp only [DriverAccessManager.Admits, stored]
  decide

/-- Sixteen bytes in front of a blob in the caller's memory are read, and a section behind the end of the
page gets a device address. -/
theorem section_read_outside :
    (∃ done, (ReadRequest.internal ⟨32, 0, false⟩).perform (blobAccess false) (2 ^ 64 - 16) = .ok done ∧
      ¬ DriverAccessManager.ReadsSection (blobAccess false) (2 ^ 64 - 16) ⟨32, 0, false⟩ done) ∧
    ∃ done, (ReadRequest.internal (dmaSection 512)).perform (blobAccess true) 4096 = .ok done ∧
      ¬ DriverAccessManager.ReadsSection (blobAccess true) 4096 (dmaSection 512) done := by
  constructor
  · refine ⟨_, rfl, ?_⟩
    intro right
    exact absurd right.inside (by decide)
  · refine ⟨_, rfl, ?_⟩
    intro right
    exact absurd (right.stored _ rfl) (by decide)

end NpuDriver
