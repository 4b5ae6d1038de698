import NpuDriver.Command.Command

/-! The commands that move data: what their creation checks and which device ranges they name. -/

namespace NpuDriver

open Library

namespace CopyDescriptorLayout

/-- Size of one descriptor and the positions of its fields. -/
def size : CopyDescriptorLayout → Nat
  | vpu_cmd_copy_descriptor_37xx => 64
  | vpu_cmd_copy_descriptor_40xx => 192

def srcOffset : CopyDescriptorLayout → Nat
  | vpu_cmd_copy_descriptor_37xx => 16
  | vpu_cmd_copy_descriptor_40xx => 40

def dstOffset : CopyDescriptorLayout → Nat
  | vpu_cmd_copy_descriptor_37xx => 24
  | vpu_cmd_copy_descriptor_40xx => 48

def sizeOffset : CopyDescriptorLayout → Nat
  | vpu_cmd_copy_descriptor_37xx => 32
  | vpu_cmd_copy_descriptor_40xx => 24

end CopyDescriptorLayout

/-- The ranges that one copy descriptor names. -/
structure CopyRange where
  srcAddr : Nat
  dstAddr : Nat
  size : Nat
deriving DecidableEq, Repr

def readField (data : List UInt8) (offset width : Nat) : Nat :=
  fromLittleEndian ((data.drop offset).take width)

/-- What the device reads from the descriptor at the front of the data. -/
def CopyDescriptorLayout.decode (layout : CopyDescriptorLayout) (data : List UInt8) : CopyRange where
  srcAddr := readField data layout.srcOffset 8
  dstAddr := readField data layout.dstOffset 8
  size := readField data layout.sizeOffset 4

def CopyDescriptorLayout.decodeAll (layout : CopyDescriptorLayout) : Nat → List UInt8 → List CopyRange
  | 0, _ => []
  | count + 1, data => layout.decode data :: layout.decodeAll count (data.drop layout.size)

/-- The ranges that the descriptors of a command name. -/
def VPUCommand.copyRanges (cmd : VPUCommand) (layout : CopyDescriptorLayout) : List CopyRange :=
  match cmd.descriptor with
  | none => []
  | some descriptor => layout.decodeAll descriptor.numDescriptors descriptor.data

theorem readField_middle (front rest : List UInt8) (width value : Nat) :
    readField (front ++ (littleEndian width value ++ rest)) front.length width = value % 256 ^ width := by
  rw [readField, List.drop_left, List.take_left' (littleEndian_length width value),
    fromLittleEndian_littleEndian]

theorem CopyDescriptorLayout.encode_length (layout : CopyDescriptorLayout) (srcAddr dstAddr size : Nat) :
    (layout.encode srcAddr dstAddr size).length = layout.size := by
  cases layout <;> simp [encode, CopyDescriptorLayout.size]

/-- The device reads the low 64 bits of the addresses and the low 32 bits of the size. -/
theorem CopyDescriptorLayout.decode_encode (layout : CopyDescriptorLayout) (srcAddr dstAddr size : Nat)
    (rest : List UInt8) :
    layout.decode (layout.encode srcAddr dstAddr size ++ rest) =
      ⟨srcAddr % 2 ^ 64, dstAddr % 2 ^ 64, size % 2 ^ 32⟩ := by
  cases layout with
  | vpu_cmd_copy_descriptor_37xx =>
    have src := readField_middle (littleEndian 16 0)
      (littleEndian 8 dstAddr ++ (littleEndian 4 size ++ (littleEndian 28 0 ++ rest))) 8 srcAddr
    have dst := readField_middle (littleEndian 16 0 ++ littleEndian 8 srcAddr)
      (littleEndian 4 size ++ (littleEndian 28 0 ++ rest)) 8 dstAddr
    have len := readField_middle (littleEndian 16 0 ++ littleEndian 8 srcAddr ++ littleEndian 8 dstAddr)
      (littleEndian 28 0 ++ rest) 4 size
    simp only [List.append_assoc, List.length_append, littleEndian_length] at src dst len
    simp only [decode, encode, srcOffset, dstOffset, sizeOffset, List.append_assoc, src, dst, len]
    rfl
  | vpu_cmd_copy_descriptor_40xx =>
    have len := readField_middle (littleEndian 24 0) (littleEndian 4 0 ++ (littleEndian 8 0 ++
      (littleEndian 8 srcAddr ++ (littleEndian 8 dstAddr ++ (littleEndian 136 0 ++ rest))))) 4 size
    have src := readField_middle (littleEndian 24 0 ++ littleEndian 4 size ++ littleEndian 4 0 ++
      littleEndian 8 0) (littleEndian 8 dstAddr ++ (littleEndian 136 0 ++ rest)) 8 srcAddr
    have dst := readField_middle (littleEndian 24 0 ++ littleEndian 4 size ++ littleEndian 4 0 ++
      littleEndian 8 0 ++ littleEndian 8 srcAddr) (littleEndian 136 0 ++ rest) 8 dstAddr
    simp only [List.append_assoc, List.length_append, littleEndian_length] at src dst len
    simp only [decode, encode, srcOffset, dstOffset, sizeOffset, List.append_assoc, src, dst, len]
    rfl

/-- The pieces that the descriptors of a copy cover: offset and size. -/
def chunks : Nat → Nat → Nat → List (Nat × Nat)
  | 0, _, _ => []
  | count + 1, offset, sizeLeft =>
    if sizeLeft < COPY_SIZE_LIMIT then (offset, sizeLeft) :: chunks count (offset + COPY_SIZE_LIMIT) sizeLeft
    else (offset, COPY_SIZE_LIMIT) :: chunks count (offset + COPY_SIZE_LIMIT) (sizeLeft - COPY_SIZE_LIMIT)

theorem copySizeLimit_pos : 0 < COPY_SIZE_LIMIT := by decide

theorem chunks_size_le (member : chunk ∈ chunks count offset sizeLeft) : chunk.2 ≤ COPY_SIZE_LIMIT := by
  induction count generalizing offset sizeLeft with
  | zero => cases member
  | succ count ih =>
    rw [chunks] at member
    split at member
    · rename_i short
      rcases List.mem_cons.mp member with rfl | later
      · exact Nat.le_of_lt short
      · exact ih later
    · rcases List.mem_cons.mp member with rfl | later
      · exact Nat.le_refl _
      · exact ih later

theorem decodeAll_fillDescriptors (layout : CopyDescriptorLayout) (count srcAddr dstAddr offset sizeLeft : Nat) :
    layout.decodeAll count (fillDescriptors layout count (srcAddr + offset) (dstAddr + offset) sizeLeft) =
      (chunks count offset sizeLeft).map fun chunk =>
        ⟨(srcAddr + chunk.1) % 2 ^ 64, (dstAddr + chunk.1) % 2 ^ 64, chunk.2 % 2 ^ 32⟩ := by
  induction count generalizing offset sizeLeft with
  | zero => rfl
  | succ count ih =>
    have later := ih (offset + COPY_SIZE_LIMIT)
    simp only [← Nat.add_assoc] at later
    rw [fillDescriptors, chunks]
    split <;>
      rw [CopyDescriptorLayout.decodeAll, CopyDescriptorLayout.decode_encode,
        List.drop_left' (CopyDescriptorLayout.encode_length ..), later] <;> rfl

/-- As many chunks as are needed stay inside the copied range and are not empty. -/
theorem chunks_bounds (enough : sizeLeft ≤ count * COPY_SIZE_LIMIT)
    (needed : count * COPY_SIZE_LIMIT < sizeLeft + COPY_SIZE_LIMIT)
    (member : chunk ∈ chunks count offset sizeLeft) :
    offset ≤ chunk.1 ∧ chunk.1 + chunk.2 ≤ offset + sizeLeft ∧ 0 < chunk.2 := by
  induction count generalizing offset sizeLeft with
  | zero => cases member
  | succ count ih =>
    rw [Nat.succ_mul] at enough needed
    rw [chunks] at member
    split at member
    · rename_i short
      have last : count = 0 := by
        by_contra more
        have := Nat.le_mul_of_pos_left COPY_SIZE_LIMIT (Nat.pos_of_ne_zero more)
        omega
      subst last
      rcases List.mem_cons.mp member with rfl | later
      · exact ⟨Nat.le_refl _, Nat.le_refl _, by simpa using needed⟩
      · cases later
    · rename_i long
      rcases List.mem_cons.mp member with rfl | later
      · exact ⟨Nat.le_refl _, Nat.add_le_add_left (Nat.le_of_not_lt long) offset, copySizeLimit_pos⟩
      · have inside := ih (by omega) (by omega) later
        omega

/-- As many chunks as are needed leave no byte of the copied range out. -/
theorem chunks_cover (enough : sizeLeft ≤ count * COPY_SIZE_LIMIT) (inside : position < sizeLeft) :
    ∃ chunk ∈ chunks count offset sizeLeft,
      chunk.1 ≤ offset + position ∧ offset + position < chunk.1 + chunk.2 := by
  induction count generalizing offset position sizeLeft with
  | zero => omega
  | succ count ih =>
    rw [Nat.succ_mul] at enough
    rw [chunks]
    split
    · exact ⟨_, List.mem_cons_self .., Nat.le_add_right .., Nat.add_lt_add_left inside offset⟩
    · by_cases first : position < COPY_SIZE_LIMIT
      · exact ⟨_, List.mem_cons_self .., Nat.le_add_right .., Nat.add_lt_add_left first offset⟩
      · have later : position - COPY_SIZE_LIMIT < sizeLeft - COPY_SIZE_LIMIT := by omega
        obtain ⟨chunk, member, starts, ends⟩ : ∃ chunk ∈
            chunks count (offset + COPY_SIZE_LIMIT) (sizeLeft - COPY_SIZE_LIMIT),
            chunk.1 ≤ offset + COPY_SIZE_LIMIT + (position - COPY_SIZE_LIMIT) ∧
              offset + COPY_SIZE_LIMIT + (position - COPY_SIZE_LIMIT) < chunk.1 + chunk.2 :=
          ih (by omega) later
        exact ⟨chunk, List.mem_cons_of_mem _ member, by omega, by omega⟩

/-- What a successful creation of a fill command has checked. -/
theorem VPUFillCommand.create_ok {ptr size fillPattern : Nat} {bo : VPUBufferObject} {cmd : VPUCommand}
    (created : VPUFillCommand.create ptr bo size fillPattern = .ok cmd) :
    bo.isInRange ptr = true ∧ bo.isInRange ((ptr + size + UINT64_MAX) % 2 ^ 64) = true ∧
      cmd.command = .memoryFill (bo.getVPUAddr ptr) size fillPattern ∧ cmd.bufferObjects = [bo] ∧
      cmd.descriptor = none := by
  rw [create] at created
  by_cases first : bo.isInRange ptr = true
  · by_cases last : bo.isInRange ((ptr + size + UINT64_MAX) % 2 ^ 64) = true
    · simp only [first, last, Bool.not_true, Bool.false_eq_true, ↓reduceIte, Except.ok.injEq] at created
      subst created
      exact ⟨first, last, rfl, rfl, rfl⟩
    · simp only [first, last, Bool.not_true, Bool.false_eq_true, ↓reduceIte] at created
      cases created
  · simp [first] at created

/-- What a successful creation of a copy command has checked. -/
theorem VPUCopyCommand.create_ok {ctx : VPUDeviceContext} {srcPtr dstPtr size : Nat}
    {srcBo dstBo : Option VPUBufferObject} {cmd : VPUCommand}
    (created : VPUCopyCommand.create ctx srcPtr srcBo dstPtr dstBo size = .ok cmd) :
    ∃ src dst layout descriptor, srcBo = some src ∧ dstBo = some dst ∧ src.isInRange srcPtr = true ∧
      dst.isInRange dstPtr = true ∧ ctx.hwInfo.getCopyCommand = some layout ∧
      fillDescriptor layout (src.getVPUAddr srcPtr) (dst.getVPUAddr dstPtr) size = .ok descriptor ∧
      cmd.command = .copyBuffer 0 descriptor.numDescriptors ∧ cmd.descriptor = some descriptor ∧
      cmd.bufferObjects = appendAssociateBufferObjects [] [src, dst] := by
  cases srcBo with
  | none => cases created
  | some src =>
    cases dstBo with
    | none => cases created
    | some dst =>
      rw [create] at created
      by_cases null : srcPtr = 0 ∨ dstPtr = 0
      · simp [null] at created
      · by_cases inDst : dst.isInRange dstPtr = true
        · by_cases inSrc : src.isInRange srcPtr = true
          · simp only [null, inDst, inSrc, Bool.not_true, Bool.false_eq_true, ↓reduceIte] at created
            split at created
            · cases created
            · rename_i layout writer
              split at created
              · cases created
              · rename_i descriptor filled
                cases created
                exact ⟨src, dst, layout, descriptor, rfl, rfl, inSrc, inDst, writer, filled, rfl, rfl, rfl⟩
          · simp [null, inDst, inSrc] at created
        · simp [null, inDst] at created

/-- What one data command is created from: a copy from a pointer into a buffer to another one, or a
fill. -/
inductive Transfer where
  | copy (ctx : VPUDeviceContext) (srcPtr : Nat) (srcBo : Option VPUBufferObject) (dstPtr : Nat)
      (dstBo : Option VPUBufferObject) (size : Nat)
  | fill (ptr : Nat) (bo : VPUBufferObject) (size fillPattern : Nat)

def Transfer.create : Transfer → Created
  | copy ctx srcPtr srcBo dstPtr dstBo size => VPUCopyCommand.create ctx srcPtr srcBo dstPtr dstBo size
  | fill ptr bo size fillPattern => VPUFillCommand.create ptr bo size fillPattern

/-- The device range of a buffer object contains a range. -/
def VPUBufferObject.Covers (bo : VPUBufferObject) (addr size : Nat) : Prop :=
  bo.vpuAddr ≤ addr ∧ addr + size ≤ bo.vpuAddr + bo.allocSize

/-- A buffer object is associated with a command, which keeps each one once. -/
def VPUCommand.IsAssociated (cmd : VPUCommand) (bo : VPUBufferObject) : Prop :=
  ∃ known ∈ cmd.bufferObjects, known.id = bo.id

/-- Every range that the command of a transfer names lies inside the buffer object that the
command is associated with for it. -/
def Transfer.Inside (transfer : Transfer) (cmd : VPUCommand) : Prop :=
  match transfer with
  | copy ctx _ srcBo _ dstBo _ =>
    ∃ src dst layout, srcBo = some src ∧ dstBo = some dst ∧ ctx.hwInfo.getCopyCommand = some layout ∧
      cmd.IsAssociated src ∧ cmd.IsAssociated dst ∧
      ∀ range ∈ cmd.copyRanges layout, src.Covers range.srcAddr range.size ∧ dst.Covers range.dstAddr range.size
  | fill _ bo _ _ =>
    cmd.IsAssociated bo ∧
      ∃ startAddress size fillPattern, cmd.command = .memoryFill startAddress size fillPattern ∧
        bo.Covers startAddress size

/-- The bytes from a pointer on lie inside a buffer object. -/
def VPUBufferObject.Fits (bo : VPUBufferObject) (ptr size : Nat) : Prop :=
  ptr + size ≤ bo.basePtr + bo.allocSize

/-- What the creation of a copy does not check: both sides are long enough, unless there is nothing
to copy or the number of descriptors wraps to none. -/
def Transfer.Fits : Transfer → Prop
  | copy _ srcPtr srcBo dstPtr dstBo size =>
    size = 0 ∨ 2 ^ 64 < size + COPY_SIZE_LIMIT ∨
      ((∀ src ∈ srcBo, src.Fits srcPtr size) ∧ ∀ dst ∈ dstBo, dst.Fits dstPtr size)
  | fill _ _ _ _ => True

instance (bo : VPUBufferObject) (ptr size : Nat) : Decidable (bo.Fits ptr size) :=
  inferInstanceAs (Decidable (_ ≤ _))

instance : (transfer : Transfer) → Decidable transfer.Fits
  | .copy _ _ _ _ _ _ => inferInstanceAs (Decidable (_ ∨ _ ∨ _ ∧ _))
  | .fill _ _ _ _ => inferInstanceAs (Decidable True)

/-- Where a buffer object can lie: its device addresses fit into 64 bits, and its host addresses are
those of a user process. -/
structure VPUBufferObject.Placed (bo : VPUBufferObject) : Prop where
  device : bo.vpuAddr + bo.allocSize < 2 ^ 64
  host : bo.basePtr + bo.allocSize ≤ 2 ^ 63

/-- The arguments of a transfer have the widths of their types. -/
def Transfer.Sized : Transfer → Prop
  | copy _ _ srcBo _ dstBo size =>
    size < 2 ^ 64 ∧ (∀ src ∈ srcBo, src.Placed) ∧ ∀ dst ∈ dstBo, dst.Placed
  | fill _ bo size _ => size ≤ 2 ^ 63 ∧ bo.Placed

theorem isInRange_iff {bo : VPUBufferObject} :
    bo.isInRange ptr = true ↔ bo.basePtr ≤ ptr ∧ ptr < bo.basePtr + bo.allocSize := by
  simp [VPUBufferObject.isInRange]

/-- The fill command checks its first and its last byte. -/
theorem Transfer.fill_inside {ptr size fillPattern : Nat} {bo : VPUBufferObject} {cmd : VPUCommand}
    (small : size ≤ 2 ^ 63) (placed : bo.Placed)
    (created : VPUFillCommand.create ptr bo size fillPattern = .ok cmd) :
    (Transfer.fill ptr bo size fillPattern).Inside cmd := by
  obtain ⟨first, last, command, associated, -⟩ := VPUFillCommand.create_ok created
  have host := placed.host
  refine ⟨⟨bo, by rw [associated]; exact List.mem_singleton.mpr rfl, rfl⟩, _, _, _, command, ?_⟩
  rw [VPUBufferObject.getVPUAddr_of_inRange first]
  rw [isInRange_iff] at first last
  simp only [UINT64_MAX] at last
  constructor <;> omega

/-- One side of a copy: the chunks stay inside the buffer exactly when the whole range does. -/
theorem covers_chunks_iff {bo : VPUBufferObject} {ptr size count : Nat} (placed : bo.Placed)
    (inside : bo.isInRange ptr = true) (enough : size ≤ count * COPY_SIZE_LIMIT)
    (needed : count * COPY_SIZE_LIMIT < size + COPY_SIZE_LIMIT) :
    (∀ chunk ∈ chunks count 0 size,
        bo.Covers ((bo.getVPUAddr ptr + chunk.1) % 2 ^ 64) (chunk.2 % 2 ^ 32)) ↔ bo.Fits ptr size := by
  have device := placed.device
  rw [VPUBufferObject.getVPUAddr_of_inRange inside]
  rw [isInRange_iff] at inside
  have whole : ∀ chunk ∈ chunks count 0 size, chunk.2 % 2 ^ 32 = chunk.2 := by
    intro chunk member
    have small := chunks_size_le member
    simp only [COPY_SIZE_LIMIT] at small
    omega
  constructor
  · intro covered
    by_contra crosses
    -- the chunk with the first byte behind the buffer
    have position : bo.basePtr + bo.allocSize - ptr < size := by
      simp only [VPUBufferObject.Fits] at crosses
      omega
    obtain ⟨chunk, member, starts, ends⟩ := @chunks_cover _ _ _ 0 enough position
    obtain ⟨-, upper⟩ := covered chunk member
    rw [whole chunk member] at upper
    omega
  · intro fits chunk member
    obtain ⟨-, upper, -⟩ := chunks_bounds enough needed member
    simp only [VPUBufferObject.Fits] at fits
    rw [whole chunk member]
    constructor <;> omega

theorem fillDescriptor_ok {layout : CopyDescriptorLayout} {srcAddr dstAddr size : Nat}
    {descriptor : VPUDescriptor} (filled : fillDescriptor layout srcAddr dstAddr size = .ok descriptor) :
    descriptor.numDescriptors = (size + COPY_SIZE_LIMIT - 1) % 2 ^ 64 / COPY_SIZE_LIMIT ∧
      descriptor.data = fillDescriptors layout descriptor.numDescriptors srcAddr dstAddr size := by
  rw [fillDescriptor] at filled
  by_cases unmapped : srcAddr = 0 ∨ dstAddr = 0
  · simp [unmapped] at filled
  · rw [if_neg unmapped, safeCastU32] at filled
    by_cases wide : (size + COPY_SIZE_LIMIT - 1) % 2 ^ 64 / COPY_SIZE_LIMIT > UINT32_MAX
    · rw [if_pos wide] at filled
      cases filled
    · rw [if_neg wide] at filled
      cases filled
      exact ⟨rfl, rfl⟩

/-- How many descriptors a copy gets. -/
theorem descriptorCount_cases (narrow : size < 2 ^ 64) :
    ((size = 0 ∨ 2 ^ 64 < size + COPY_SIZE_LIMIT) ∧ (size + COPY_SIZE_LIMIT - 1) % 2 ^ 64 / COPY_SIZE_LIMIT = 0) ∨
      (0 < size ∧ size + COPY_SIZE_LIMIT ≤ 2 ^ 64 ∧
        size ≤ (size + COPY_SIZE_LIMIT - 1) % 2 ^ 64 / COPY_SIZE_LIMIT * COPY_SIZE_LIMIT ∧
        (size + COPY_SIZE_LIMIT - 1) % 2 ^ 64 / COPY_SIZE_LIMIT * COPY_SIZE_LIMIT < size + COPY_SIZE_LIMIT) := by
  simp only [COPY_SIZE_LIMIT]
  omega

/-- The ranges that the device reads from the descriptors of a copy command. -/
theorem copyRanges_chunks {layout : CopyDescriptorLayout} {srcAddr dstAddr size : Nat} {descriptor : VPUDescriptor}
    {cmd : VPUCommand} (filled : fillDescriptor layout srcAddr dstAddr size = .ok descriptor)
    (carried : cmd.descriptor = some descriptor) :
    cmd.copyRanges layout = (chunks descriptor.numDescriptors 0 size).map fun chunk =>
      ⟨(srcAddr + chunk.1) % 2 ^ 64, (dstAddr + chunk.1) % 2 ^ 64, chunk.2 % 2 ^ 32⟩ := by
  obtain ⟨-, data⟩ := fillDescriptor_ok filled
  rw [← decodeAll_fillDescriptors]
  simp only [VPUCommand.copyRanges, carried]
  rw [data]
  rfl

/-- The copy command checks its first bytes only. -/
theorem Transfer.copy_inside_iff {ctx : VPUDeviceContext} {srcPtr dstPtr size : Nat}
    {srcBo dstBo : Option VPUBufferObject} {cmd : VPUCommand}
    (sized : (Transfer.copy ctx srcPtr srcBo dstPtr dstBo size).Sized)
    (created : VPUCopyCommand.create ctx srcPtr srcBo dstPtr dstBo size = .ok cmd) :
    (Transfer.copy ctx srcPtr srcBo dstPtr dstBo size).Inside cmd ↔
      (Transfer.copy ctx srcPtr srcBo dstPtr dstBo size).Fits := by
  obtain ⟨src, dst, layout, descriptor, rfl, rfl, inSrc, inDst, writer, filled, -, carried, associated⟩ :=
    VPUCopyCommand.create_ok created
  obtain ⟨narrow, srcPlaced, dstPlaced⟩ := sized
  obtain ⟨count, -⟩ := fillDescriptor_ok filled
  have ranges := copyRanges_chunks filled carried
  have both : cmd.IsAssociated src ∧ cmd.IsAssociated dst := by
    simp only [VPUCommand.IsAssociated, associated, appendAssociateBufferObjects, List.foldl_cons,
      List.foldl_nil, appendAssociateBufferObject]
    by_cases same : src.id = dst.id
    · simp [same]
    · simp [same]
  have reduced : (Transfer.copy ctx srcPtr (some src) dstPtr (some dst) size).Inside cmd ↔
      (∀ chunk ∈ chunks descriptor.numDescriptors 0 size,
        src.Covers ((src.getVPUAddr srcPtr + chunk.1) % 2 ^ 64) (chunk.2 % 2 ^ 32)) ∧
      ∀ chunk ∈ chunks descriptor.numDescriptors 0 size,
        dst.Covers ((dst.getVPUAddr dstPtr + chunk.1) % 2 ^ 64) (chunk.2 % 2 ^ 32) := by
    constructor
    · rintro ⟨_, _, _, srcSame, dstSame, known, -, -, covered⟩
      obtain rfl := Option.some.inj srcSame
      obtain rfl := Option.some.inj dstSame
      obtain rfl := Option.some.inj (writer.symm.trans known)
      rw [ranges] at covered
      simp only [List.forall_mem_map] at covered
      exact ⟨fun chunk member => (covered chunk member).1, fun chunk member => (covered chunk member).2⟩
    · rintro ⟨srcCovered, dstCovered⟩
      refine ⟨src, dst, layout, rfl, rfl, writer, both.1, both.2, ?_⟩
      rw [ranges]
      simp only [List.forall_mem_map]
      exact fun chunk member => ⟨srcCovered chunk member, dstCovered chunk member⟩
  rw [reduced]
  simp only [Fits, Option.mem_def, Option.some.injEq, forall_eq'] at srcPlaced dstPlaced ⊢
  rcases descriptorCount_cases narrow with ⟨empty, none⟩ | ⟨nonempty, unwrapped, enough, needed⟩
  · rw [count, none]
    constructor
    · intro
      rcases empty with zero | wraps
      · exact .inl zero
      · exact .inr (.inl wraps)
    · intro
      constructor <;> exact nofun
  · rw [← count] at enough needed
    rw [covers_chunks_iff srcPlaced inSrc enough needed,
      covers_chunks_iff dstPlaced inDst enough needed]
    constructor
    · exact fun fits => .inr (.inr fits)
    · rintro (zero | wraps | fits)
      · omega
      · omega
      · exact fits

/-- The command of a transfer stays inside its buffer objects exactly when the transfer fits. -/
theorem Transfer.inside_iff {transfer : Transfer} {cmd : VPUCommand} (sized : transfer.Sized)
    (created : transfer.create = .ok cmd) : transfer.Inside cmd ↔ transfer.Fits := by
  cases transfer with
  | copy => exact copy_inside_iff sized created
  | fill => exact iff_of_true (fill_inside sized.1 sized.2 created) trivial

end NpuDriver
