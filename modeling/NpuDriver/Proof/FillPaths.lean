import NpuDriver.LevelZero.FillMemory
import NpuDriver.Proof.EventOrdering

/-! The two ways to fill memory leave the same bytes. -/

namespace NpuDriver

open Library ZeResult
open Effect (perform applyAll commandsOf commandsOf_append)

/-- Commands can be appended: the list is not closed, and no attempt to close it has left command buffers. -/
structure CommandList.Open (list : CommandList) : Prop where
  closed : list.vpuJob.closed = false
  cmdBuffers : list.vpuJob.cmdBuffers = []

/-- The effects that an open list lets through. -/
def Effect.Passes : Effect → Prop
  | fail _ _ => False
  | command created => ∃ cmd, created = .ok cmd
  | _ => True

theorem Effect.run_passes {effect : Effect} {list : CommandList} (opened : list.Open) (passes : effect.Passes) :
    effect.run list = (ZE_RESULT_SUCCESS, effect.apply list) := by
  rcases effect.run_cases list with success | ⟨error, failed, stopped⟩
  · exact success
  · exfalso
    apply failed
    cases effect with
    | check =>
      rw [run, CommandList.checkCommandAppendCondition, CommandList.isCmdListClosed, opened.closed] at stopped
      exact (congrArg Prod.fst stopped).symm
    | fail => exact passes.elim
    | command created =>
      obtain ⟨cmd, rfl⟩ := passes
      simp only [run, CommandList.appendCommand, CommandList.pushCommand, VPUJob.appendCommand, opened.closed,
        opened.cmdBuffers, Bool.false_eq_true, ↓reduceIte, ne_eq, not_true_eq_false] at stopped
      split at stopped
      · rename_i refused
        split at refused <;> cases refused
      · exact (congrArg Prod.fst stopped).symm
    | note newCommandId =>
      rw [run, CommandList.noteCommandId] at stopped
      split at stopped <;> exact (congrArg Prod.fst stopped).symm
    | context ctx => exact (congrArg Prod.fst stopped).symm

theorem Effect.perform_passes {effects : List Effect} {list : CommandList} (opened : list.Open)
    (passes : ∀ effect ∈ effects, effect.Passes) : perform effects list = (ZE_RESULT_SUCCESS, applyAll effects list) := by
  induction effects generalizing list with
  | nil => rfl
  | cons effect rest ih =>
    obtain ⟨first, others⟩ := List.forall_mem_cons.mp passes
    have still : (effect.apply list).Open := by
      constructor
      · rw [effect.apply_vpuJob]
        exact opened.closed
      · rw [effect.apply_vpuJob]
        exact opened.cmdBuffers
    rw [perform, Append.andThen, run_passes opened first, applyAll_cons]
    exact ih still others

/-- The event's fence word lies in its pool. -/
structure Event.Usable (event : Event) (pool : VPUBufferObject) : Prop where
  pointer : event.syncPointer ≠ 0
  associated : event.associatedBo = some pool
  inRange : pool.isInRange event.syncPointer = true

def WaitEvents.Usable (waitEvents : WaitEvents) : Prop :=
  waitEvents.numWaitEvents = 0 ∨ ∃ events, waitEvents.phWaitEvents = some events ∧
    ∀ index < waitEvents.numWaitEvents, ∃ event pool, events index = some event ∧ event.Usable pool

/-- A signal event that can be used, and whose fence word is not in the buffer. -/
def SignalUsable (hSignalEvent : Option Event) (bo : VPUBufferObject) : Prop :=
  ∀ event ∈ hSignalEvent, ∃ pool, event.Usable pool ∧
    (pool.getVPUAddr event.syncPointer + 8 ≤ bo.vpuAddr ∨
      bo.vpuAddr + bo.allocSize ≤ pool.getVPUAddr event.syncPointer)

theorem Event.Usable.effect {event : Event} {pool : VPUBufferObject} (usable : event.Usable pool)
    (sType : ScheduleType) (cmdType value : Nat) :
    ∃ cmd, eventEffect (fun pointer bo => VPUEventCommand.create sType cmdType pointer bo value) (some event) =
        .command (.ok cmd) ∧ cmd.command = .fence cmdType (pool.getVPUAddr event.syncPointer) value := by
  let cmd : VPUCommand :=
    { command := .fence cmdType (pool.getVPUAddr event.syncPointer) value, sType := sType
      bufferObjects := [pool], descriptor := none, cmdNeedsUpdate := false, sized := trivial }
  have created : VPUEventCommand.create sType cmdType event.syncPointer event.associatedBo value = .ok cmd := by
    rw [usable.associated]
    simp only [VPUEventCommand.create, if_neg usable.pointer, usable.inRange, Bool.not_true, Bool.false_eq_true,
      ↓reduceIte, cmd]
  refine ⟨cmd, ?_, rfl⟩
  rw [← created, eventEffect]
  exact if_neg usable.pointer

section Events

variable {layout : CopyDescriptorLayout} {waitEvents : WaitEvents} {hSignalEvent : Option Event}

theorem WaitEvents.Usable.passes (usable : waitEvents.Usable) :
    ∀ effect ∈ waitEventEffects waitEvents, effect.Passes := by
  intro effect member
  rw [waitEventEffects] at member
  rcases usable with none | ⟨events, present, each⟩
  · rw [if_pos none] at member
    cases member
  · split at member
    · cases member
    · rw [present] at member
      rcases List.mem_cons.mp member with rfl | wait
      · trivial
      · obtain ⟨index, listed, rfl⟩ := List.mem_map.mp wait
        obtain ⟨event, pool, known, ready⟩ := each index (by simpa using List.mem_range'.mp listed)
        obtain ⟨cmd, made, -⟩ := ready.effect .Generic VPU_CMD_FENCE_WAIT STATE_WAIT
        rw [known]
        exact made ▸ ⟨cmd, rfl⟩

/-- Waiting writes nothing. -/
theorem WaitEvents.Usable.run (usable : waitEvents.Usable) (memory : Image) :
    runCommands layout (commandsOf (waitEventEffects waitEvents)) memory = memory := by
  rw [waitEventEffects]
  rcases usable with none | ⟨events, present, each⟩
  · rw [if_pos none]
    rfl
  · split
    · rfl
    · rw [present]
      simp only
      have waits : ∀ cmd ∈ commandsOf (.check :: waitEffects events waitEvents.numWaitEvents),
          cmd.runOn layout memory = memory := by
        intro cmd member
        obtain ⟨effect, listed, added⟩ := List.mem_flatMap.mp member
        rcases List.mem_cons.mp listed with rfl | wait
        · cases added
        · obtain ⟨index, inside, rfl⟩ := List.mem_map.mp wait
          obtain ⟨event, pool, known, ready⟩ := each index (by simpa using List.mem_range'.mp inside)
          obtain ⟨fence, made, command⟩ := ready.effect .Generic VPU_CMD_FENCE_WAIT STATE_WAIT
          rw [known] at added
          have single : cmd = fence := by
            have listed : cmd ∈ Effect.added (.command (.ok fence)) := made ▸ added
            rw [Effect.added] at listed
            split at listed
            · cases listed
            · exact List.mem_singleton.mp listed
          rw [single, VPUCommand.runOn, command]
          rfl
      generalize commandsOf (.check :: waitEffects events waitEvents.numWaitEvents) = cmds at waits
      induction cmds with
      | nil => rfl
      | cons cmd rest ih =>
        obtain ⟨first, others⟩ := List.forall_mem_cons.mp waits
        rw [runCommands, List.foldl_cons, first]
        exact ih others

theorem SignalUsable.passes {bo : VPUBufferObject} (usable : SignalUsable hSignalEvent bo) :
    ∀ effect ∈ signalEffects hSignalEvent, effect.Passes := by
  cases hSignalEvent with
  | none => exact nofun
  | some event =>
    obtain ⟨pool, ready, -⟩ := usable event rfl
    obtain ⟨cmd, made, -⟩ := ready.effect .Synchronize VPU_CMD_FENCE_SIGNAL STATE_DEVICE_SIGNAL
    intro effect member
    rcases List.mem_cons.mp member with rfl | last
    · trivial
    · rw [List.mem_singleton.mp last]
      exact made ▸ ⟨cmd, rfl⟩

/-- A signal writes outside the buffer. -/
theorem SignalUsable.run {bo : VPUBufferObject} (usable : SignalUsable hSignalEvent bo) (memory : Image)
    {offset : Nat} (inside : offset < bo.allocSize) :
    runCommands layout (commandsOf (signalEffects hSignalEvent)) memory (bo.vpuAddr + offset) =
      memory (bo.vpuAddr + offset) := by
  cases hSignalEvent with
  | none => rfl
  | some event =>
    obtain ⟨pool, ready, apart⟩ := usable event rfl
    obtain ⟨cmd, made, command⟩ := ready.effect .Synchronize VPU_CMD_FENCE_SIGNAL STATE_DEVICE_SIGNAL
    have effects : signalEffects (some event) = [.check, .command (.ok cmd)] := 
      congrArg (fun effect => [Effect.check, effect]) made
    rw [effects]
    have size : cmd.getCommitSize ≠ 0 := by
      rw [VPUCommand.getCommitSize, command]
      exact (by decide : fenceSize ≠ 0)
    have added : commandsOf [.check, .command (.ok cmd)] = [cmd] := by
      simp [commandsOf, Effect.added, size]
    rw [added, runCommands, List.foldl_cons, List.foldl_nil, VPUCommand.runOn, command]
    simp only [↓reduceIte]
    apply memory.write_outside
    rw [littleEndian_length]
    omega

theorem commandEffects_passes {bo : VPUBufferObject} (waits : waitEvents.Usable)
    (signal : SignalUsable hSignalEvent bo) (cmd : VPUCommand) :
    ∀ effect ∈ commandEffects hSignalEvent waitEvents (.ok cmd), effect.Passes := by
  intro effect member
  rcases List.mem_append.mp member with front | back
  · rcases List.mem_cons.mp front with rfl | wait
    · trivial
    · exact waits.passes effect wait
  · rcases List.mem_cons.mp back with rfl | last
    · exact ⟨cmd, rfl⟩
    · exact signal.passes effect last

/-- In the buffer only the command itself writes. -/
theorem run_commandEffects {bo : VPUBufferObject} (waits : waitEvents.Usable)
    (signal : SignalUsable hSignalEvent bo) {cmd : VPUCommand} (full : cmd.getCommitSize ≠ 0) (memory : Image)
    {offset : Nat} (inside : offset < bo.allocSize) :
    runCommands layout (commandsOf (commandEffects hSignalEvent waitEvents (.ok cmd))) memory
        (bo.vpuAddr + offset) = cmd.runOn layout memory (bo.vpuAddr + offset) := by
  have effects : commandEffects hSignalEvent waitEvents (.ok cmd) =
      [.check] ++ (waitEventEffects waitEvents ++ ([.command (.ok cmd)] ++ signalEffects hSignalEvent)) := rfl
  have own : commandsOf [.command (.ok cmd)] = [cmd] := by
    simp [commandsOf, Effect.added, full]
  rw [effects, commandsOf_append, commandsOf_append, commandsOf_append, own, runCommands_append, runCommands_append,
    runCommands_append, signal.run _ inside, waits.run]
  rfl

end Events

/-- Where the kernel puts a buffer: somewhere in both address spaces, below 2^47 for a user process. -/
structure VPUBufferObject.Mapped (bo : VPUBufferObject) : Prop where
  host : bo.basePtr ≠ 0
  user : bo.basePtr + bo.allocSize ≤ 2 ^ 47
  device : bo.vpuAddr ≠ 0
  placed : bo.vpuAddr + bo.allocSize < 2 ^ 64

/-- The bytes from a pointer on that lie in a buffer. -/
structure VPUBufferObject.Holds (bo : VPUBufferObject) (ptr size : Nat) : Prop where
  start : bo.basePtr ≤ ptr
  stop : ptr + size ≤ bo.basePtr + bo.allocSize

/-- The buffer after a block was filled with a repeated pattern. -/
def FilledIn (bo : VPUBufferObject) (ptr size : Nat) (byte : Nat → UInt8) (before after : Image) : Prop :=
  ∀ offset < bo.allocSize, after (bo.vpuAddr + offset) =
    if ptr - bo.basePtr ≤ offset ∧ offset < ptr - bo.basePtr + size then byte (offset - (ptr - bo.basePtr))
    else before (bo.vpuAddr + offset)

/-- The buffer holds the same bytes in both memories. -/
def SameIn (bo : VPUBufferObject) (before after : Image) : Prop :=
  ∀ offset < bo.allocSize, after (bo.vpuAddr + offset) = before (bo.vpuAddr + offset)

section Fills

variable {bo : VPUBufferObject} {layout : CopyDescriptorLayout} {hSignalEvent : Option Event}

theorem VPUBufferObject.Holds.inRange {ptr size : Nat} (holds : bo.Holds ptr size) (nonempty : 0 < size) :
    bo.isInRange ptr = true := by
  have stop := holds.stop
  rw [isInRange_iff]
  exact ⟨holds.start, by omega⟩

theorem VPUBufferObject.Holds.fillCommand {ptr size : Nat} (holds : bo.Holds ptr size) (mapped : bo.Mapped)
    (nonempty : 0 < size) (fillPattern : Nat) :
    ∃ cmd, VPUFillCommand.create ptr bo size fillPattern = .ok cmd ∧
      cmd.command = .memoryFill (bo.vpuAddr + (ptr - bo.basePtr)) size fillPattern := by
  have first := holds.inRange nonempty
  have last : bo.isInRange ((ptr + size + UINT64_MAX) % 2 ^ 64) = true := by
    have start := holds.start
    have stop := holds.stop
    have user := mapped.user
    rw [isInRange_iff, UINT64_MAX]
    omega
  simp only [VPUFillCommand.create, first, last, Bool.not_true, Bool.false_eq_true, ↓reduceIte]
  refine ⟨_, rfl, ?_⟩
  rw [VPUBufferObject.getVPUAddr_of_inRange first]

theorem fillSizeLimit_pos : 0 < CommandList.FILL_SIZE_LIMIT := by decide

/-- The pieces of a fill are accepted one by one. -/
theorem fillEffects_passes (mapped : bo.Mapped) (signal : SignalUsable hSignalEvent bo) (fillPattern : Nat)
    {ptr sizeLeft : Nat} (holds : bo.Holds ptr sizeLeft) {waitEvents : WaitEvents} (waits : waitEvents.Usable) :
    ∀ effect ∈ fillEffects bo fillPattern hSignalEvent ptr sizeLeft waitEvents, effect.Passes := by
  induction sizeLeft using Nat.strong_induction_on generalizing ptr waitEvents with
  | _ sizeLeft ih =>
    intro effect member
    rw [fillEffects] at member
    split at member
    · cases member
    · rename_i nonempty
      have start := holds.start
      have stop := holds.stop
      have limit := fillSizeLimit_pos
      have piece : bo.Holds ptr (min sizeLeft CommandList.FILL_SIZE_LIMIT) := ⟨start, by omega⟩
      obtain ⟨cmd, created, -⟩ := piece.fillCommand mapped (by omega) fillPattern
      have pieceSignal : SignalUsable (if sizeLeft ≤ CommandList.FILL_SIZE_LIMIT then hSignalEvent else none) bo := by
        split
        · exact signal
        · intro event given
          cases given
      rcases List.mem_append.mp member with first | later
      · rw [created] at first
        exact commandEffects_passes waits pieceSignal cmd effect first
      · exact ih _ (by omega) ⟨by omega, by omega⟩ (.inl rfl) effect later

/-- The pieces of a fill together fill the block; each of them starts the pattern anew. -/
theorem run_fillEffects (mapped : bo.Mapped) (signal : SignalUsable hSignalEvent bo) (fillPattern : Nat)
    {ptr sizeLeft : Nat} (holds : bo.Holds ptr sizeLeft) {waitEvents : WaitEvents} (waits : waitEvents.Usable)
    (memory : Image) :
    FilledIn bo ptr sizeLeft (cycle (littleEndian 4 fillPattern)) memory
      (runCommands layout (commandsOf (fillEffects bo fillPattern hSignalEvent ptr sizeLeft waitEvents)) memory) := by
  induction sizeLeft using Nat.strong_induction_on generalizing ptr waitEvents memory with
  | _ sizeLeft ih =>
    intro offset inside
    rw [fillEffects]
    split
    · rename_i empty
      rw [if_neg (by omega)]
      rfl
    · rename_i nonempty
      have start := holds.start
      have stop := holds.stop
      have limit := fillSizeLimit_pos
      have piece : bo.Holds ptr (min sizeLeft CommandList.FILL_SIZE_LIMIT) := ⟨start, by omega⟩
      obtain ⟨cmd, created, command⟩ := piece.fillCommand mapped (by omega) fillPattern
      have pieceSignal : SignalUsable (if sizeLeft ≤ CommandList.FILL_SIZE_LIMIT then hSignalEvent else none) bo := by
        split
        · exact signal
        · intro event given
          cases given
      have full : cmd.getCommitSize ≠ 0 := VPUFillCommand.full created
      simp only [commandsOf_append, runCommands_append]
      rw [ih _ (by omega) ⟨by omega, by omega⟩ (.inl rfl) _ offset inside, created,
        run_commandEffects waits pieceSignal full memory inside, VPUCommand.runOn, command]
      simp only [Image.write_map_range]
      by_cases later : ptr + min sizeLeft CommandList.FILL_SIZE_LIMIT - bo.basePtr ≤ offset ∧
          offset < ptr + min sizeLeft CommandList.FILL_SIZE_LIMIT - bo.basePtr +
            (sizeLeft - min sizeLeft CommandList.FILL_SIZE_LIMIT)
      · rw [if_pos later, if_pos (by omega)]
        apply cycle_congr
        -- the piece in front has the length of the limit, a multiple of the pattern's
        rw [littleEndian_length]
        simp only [CommandList.FILL_SIZE_LIMIT] at later ⊢
        omega
      · rw [if_neg later]
        by_cases here : ptr - bo.basePtr ≤ offset ∧ offset < ptr - bo.basePtr + sizeLeft
        · rw [if_pos here, if_pos (by omega)]
          congr 1
          omega
        · rw [if_neg here, if_neg (by omega)]

end Fills

section Copies

variable {src dst : VPUBufferObject} {layout : CopyDescriptorLayout}

/-- A copy from the start of one buffer into another one is created, and its descriptors cover the block. -/
theorem VPUBufferObject.Holds.copyCommand {ctx : VPUDeviceContext} {ptr size : Nat} (holds : dst.Holds ptr size)
    (writer : ctx.hwInfo.getCopyCommand = some layout) (mapped : dst.Mapped) (nonempty : 0 < size)
    (host : src.basePtr ≠ 0) (device : src.vpuAddr ≠ 0) (placed : src.vpuAddr + src.allocSize < 2 ^ 64)
    (enough : size ≤ src.allocSize) :
    ∃ cmd count, VPUCopyCommand.create ctx src.basePtr (some src) ptr (some dst) size = .ok cmd ∧
      cmd.command = .copyBuffer 0 count ∧
      size ≤ count * COPY_SIZE_LIMIT ∧ count * COPY_SIZE_LIMIT < size + COPY_SIZE_LIMIT ∧
      cmd.copyRanges layout = (chunks count 0 size).map fun chunk =>
        ⟨src.vpuAddr + chunk.1, dst.vpuAddr + (ptr - dst.basePtr) + chunk.1, chunk.2⟩ := by
  have start := holds.start
  have stop := holds.stop
  have user := mapped.user
  have below := mapped.placed
  have inDst := holds.inRange nonempty
  have inSrc : src.isInRange src.basePtr = true := isInRange_iff.mpr ⟨Nat.le_refl _, by omega⟩
  have srcAddr : src.getVPUAddr src.basePtr = src.vpuAddr := by
    rw [getVPUAddr_of_inRange inSrc, Nat.sub_self, Nat.add_zero]
  have dstAddr := getVPUAddr_of_inRange inDst
  have address := mapped.device
  have base := mapped.host
  have nonzero : ¬ (src.vpuAddr = 0 ∨ dst.vpuAddr + (ptr - dst.basePtr) = 0) := by omega
  have pointers : ¬ (src.basePtr = 0 ∨ ptr = 0) := by omega
  have count : ¬ (size + COPY_SIZE_LIMIT - 1) % 2 ^ 64 / COPY_SIZE_LIMIT > UINT32_MAX := by
    simp only [COPY_SIZE_LIMIT, UINT32_MAX]
    omega
  obtain ⟨descriptor, filled⟩ : ∃ descriptor,
      fillDescriptor layout src.vpuAddr (dst.vpuAddr + (ptr - dst.basePtr)) size = .ok descriptor := by
    rw [fillDescriptor, if_neg nonzero, safeCastU32, if_neg count]
    exact ⟨_, rfl⟩
  obtain ⟨number, -⟩ := fillDescriptor_ok filled
  have narrow : size < 2 ^ 64 := by omega
  obtain ⟨enough, needed⟩ : size ≤ descriptor.numDescriptors * COPY_SIZE_LIMIT ∧
      descriptor.numDescriptors * COPY_SIZE_LIMIT < size + COPY_SIZE_LIMIT := by
    rw [number]
    rcases descriptorCount_cases narrow with ⟨empty, -⟩ | ⟨-, -, bounds⟩
    · simp only [COPY_SIZE_LIMIT] at empty
      omega
    · exact bounds
  have created : VPUCopyCommand.create ctx src.basePtr (some src) ptr (some dst) size = .ok
      { command := .copyBuffer 0 descriptor.numDescriptors, sType := .Generic
        bufferObjects := appendAssociateBufferObjects [] [src, dst]
        descriptor := some descriptor, cmdNeedsUpdate := false, sized := trivial } := by
    simp only [VPUCopyCommand.create, if_neg pointers, inDst, inSrc, Bool.not_true, Bool.false_eq_true, ↓reduceIte,
      writer, srcAddr, dstAddr, filled]
  refine ⟨_, descriptor.numDescriptors, created, rfl, enough, needed, ?_⟩
  rw [copyRanges_chunks filled rfl]
  apply List.map_congr_left
  intro chunk member
  obtain ⟨-, stops, -⟩ := chunks_bounds enough needed member
  have limited := chunks_size_le member
  simp only [COPY_SIZE_LIMIT] at limited
  rw [Nat.mod_eq_of_lt (by omega), Nat.mod_eq_of_lt (by omega), Nat.mod_eq_of_lt (by omega)]

/-- Running the copy moves the block as a whole. -/
theorem run_copyCommand {cmd : VPUCommand} {count ptr size : Nat} (holds : dst.Holds ptr size)
    (command : cmd.command = .copyBuffer 0 count) (enough : size ≤ count * COPY_SIZE_LIMIT)
    (needed : count * COPY_SIZE_LIMIT < size + COPY_SIZE_LIMIT)
    (ranges : cmd.copyRanges layout = (chunks count 0 size).map fun chunk =>
      ⟨src.vpuAddr + chunk.1, dst.vpuAddr + (ptr - dst.basePtr) + chunk.1, chunk.2⟩)
    (long : size ≤ src.allocSize)
    (apart : src.vpuAddr + src.allocSize ≤ dst.vpuAddr ∨ dst.vpuAddr + dst.allocSize ≤ src.vpuAddr) (memory : Image) :
    FilledIn dst ptr size (fun index => memory (src.vpuAddr + index)) memory (cmd.runOn layout memory) := by
  have start := holds.start
  have stop := holds.stop
  have pieces : cmd.runOn layout memory =
      memory.copyPieces src.vpuAddr (dst.vpuAddr + (ptr - dst.basePtr)) (chunks count 0 size) := by
    rw [VPUCommand.runOn, command]
    simp only [ranges]
    rw [List.foldl_map]
    rfl
  have inside : ∀ chunk ∈ chunks count 0 size, chunk.1 + chunk.2 ≤ size := by
    intro chunk member
    obtain ⟨-, stops, -⟩ := chunks_bounds enough needed member
    omega
  have blocks : src.vpuAddr + size ≤ dst.vpuAddr + (ptr - dst.basePtr) ∨
      dst.vpuAddr + (ptr - dst.basePtr) + size ≤ src.vpuAddr := by omega
  obtain ⟨copied, kept⟩ := Image.copyPieces_apply blocks inside memory
  intro offset bound
  rw [pieces]
  split
  · rename_i within
    obtain ⟨chunk, member, above, below⟩ := @chunks_cover size count (offset - (ptr - dst.basePtr)) 0 enough (by omega)
    rw [Nat.zero_add] at above below
    have moved := copied (offset - (ptr - dst.basePtr)) ⟨chunk, member, above, below⟩
    rw [show dst.vpuAddr + (ptr - dst.basePtr) + (offset - (ptr - dst.basePtr)) = dst.vpuAddr + offset by omega] at moved
    exact moved
  · rename_i outside
    apply kept
    intro chunk member
    have stops := inside chunk member
    omega

end Copies

/-- The three sizes of a pattern. -/
def PatternSize (patternSize : Nat) : Prop := patternSize = 1 ∨ patternSize = 2 ∨ patternSize = 4

/-- The bytes of the widened pattern are copies of the pattern. -/
theorem expandPattern_bytes {patternSize : Nat} (size : PatternSize patternSize) (value : Nat) :
    littleEndian 4 (CommandList.expandPattern value patternSize) =
      (List.replicate (4 / patternSize) (littleEndian patternSize value)).flatten := by
  rcases size with rfl | rfl | rfl
  · have widened : CommandList.expandPattern value 1 = value % 256 * 0x01010101 := rfl
    have narrow : value % 256 < 256 := Nat.mod_lt _ (by decide)
    have same : littleEndian 1 value = littleEndian 1 (value % 256) := littleEndian_congr (by omega)
    rw [widened, same]
    generalize value % 256 = byte at narrow
    rw [littleEndian_add 1 3, littleEndian_add 1 2, littleEndian_add 1 1]
    have shift : ∀ rest, (byte + 256 * rest) / 256 ^ 1 = rest := by
      intro rest
      omega
    have second : byte * 0x01010101 / 256 ^ 1 = byte * 0x010101 := by
      rw [show byte * 0x01010101 = byte + 256 * (byte * 0x010101) by ring, shift]
    have third : byte * 0x010101 / 256 ^ 1 = byte * 0x0101 := by
      rw [show byte * 0x010101 = byte + 256 * (byte * 0x0101) by ring, shift]
    have fourth : byte * 0x0101 / 256 ^ 1 = byte := by
      rw [show byte * 0x0101 = byte + 256 * byte by ring, shift]
    rw [second, third, fourth, @littleEndian_congr 1 (byte * 0x01010101) byte (by omega),
      @littleEndian_congr 1 (byte * 0x010101) byte (by omega), @littleEndian_congr 1 (byte * 0x0101) byte (by omega)]
    rfl
  · have widened : CommandList.expandPattern value 2 = value % 65536 * 0x00010001 := rfl
    have narrow : value % 65536 < 65536 := Nat.mod_lt _ (by decide)
    have same : littleEndian 2 value = littleEndian 2 (value % 65536) := littleEndian_congr (by omega)
    rw [widened, same]
    generalize value % 65536 = half at narrow
    have second : half * 0x00010001 / 256 ^ 2 = half := by omega
    rw [littleEndian_add 2 2, second, @littleEndian_congr 2 (half * 0x00010001) half (by omega)]
    rfl
  · have same : CommandList.expandPattern value 4 = value % 256 ^ 4 := rfl
    rw [same, @littleEndian_congr 4 (value % 256 ^ 4) value (Nat.mod_mod _ _)]
    rfl

theorem expandPattern_cycle {patternSize : Nat} (size : PatternSize patternSize) (value index : Nat) :
    cycle (littleEndian 4 (CommandList.expandPattern value patternSize)) index =
      cycle (littleEndian patternSize value) index := by
  rw [expandPattern_bytes size]
  apply cycle_flatten_replicate
  · rw [littleEndian_length]
    rcases size with rfl | rfl | rfl <;> decide
  · rcases size with rfl | rfl | rfl <;> decide

/-- The host fills all whole elements of a buffer, and nothing else. -/
theorem VPUBufferObject.fillBuffer_some {bo : VPUBufferObject} (host : bo.basePtr ≠ 0) {patternSize : Nat}
    (size : PatternSize patternSize) (memory : Image) (pattern : Nat) :
    ∃ filled, bo.fillBuffer memory pattern patternSize = some filled ∧
      ∀ address, filled address =
        if bo.vpuAddr ≤ address ∧ address < bo.vpuAddr + patternSize * (bo.allocSize / patternSize) then
          cycle (littleEndian patternSize pattern) (address - bo.vpuAddr)
        else memory address := by
  have written : bo.fillBuffer memory pattern patternSize = some (memory.write bo.vpuAddr
      (List.replicate (bo.allocSize / patternSize) (littleEndian patternSize pattern)).flatten) := by
    rw [fillBuffer, if_neg host]
    rcases size with rfl | rfl | rfl
    · simp
    · simp
    · simp
  refine ⟨_, written, fun address => ?_⟩
  rw [flatten_replicate_cycle, Image.write_map_range, littleEndian_length]

namespace CommandList

/-- The memory is beside the model of the list. -/
theorem fillWithMemory_list (ptr : Nat) (pattern : Option Nat) (patternSize size : Nat) (hSignalEvent : Option Event)
    (waitEvents : WaitEvents) (list : CommandList) (memory : Image) :
    let filled := fillWithMemory ptr pattern patternSize size hSignalEvent waitEvents list memory
    (filled.1, filled.2.1) = appendMemoryFill ptr pattern patternSize size hSignalEvent waitEvents list := by
  simp only [fillWithMemory, appendMemoryFill]
  split
  · rfl
  · cases pattern with
    | none => rfl
    | some value =>
      simp only
      split
      · rfl
      · rename_i supported
        split
        · rfl
        · rw [fillAsCopyWithMemory, appendMemoryFillAsCopyCmd, Append.andThen]
          rcases checkCommandAppendCondition list with ⟨result, checked⟩
          cases result with
          | ZE_RESULT_SUCCESS =>
            simp only
            rcases checked.ctx.createUntrackedBufferObject ((size + patternSize) % 2 ^ 64) true with ⟨_ | patternBo, ctx⟩
            · rfl
            · simp only
              by_cases unmapped : patternBo.basePtr = 0
              · have refused : patternBo.fillBuffer memory value patternSize = none := if_pos unmapped
                rw [refused, if_pos unmapped]
              · have sizes : PatternSize patternSize := by
                  unfold PatternSize
                  omega
                obtain ⟨filled, written, -⟩ := VPUBufferObject.fillBuffer_some unmapped sizes memory value
                rw [written, if_neg unmapped]
          | _ => rfl

end CommandList

/-- The tracked buffers do not overlap; the map has the highest base first. -/
def VPUDeviceContext.TrackedApart (ctx : VPUDeviceContext) : Prop :=
  ctx.trackedBuffers.Pairwise fun above below =>
    below.basePtr < above.basePtr ∧ below.basePtr + below.allocSize ≤ above.basePtr

theorem VPUDeviceContext.TrackedApart.findBufferObject {ctx : VPUDeviceContext} (apart : ctx.TrackedApart)
    {bo : VPUBufferObject} (tracked : bo ∈ ctx.trackedBuffers) {ptr : Nat} (inside : bo.isInRange ptr = true)
    (nonnull : ptr ≠ 0) : ctx.findBufferObject ptr = some bo := by
  have range := isInRange_iff.mp inside
  have first : ctx.trackedBuffers.find? (fun other => other.basePtr ≤ ptr) = some bo := by
    unfold TrackedApart at apart
    generalize ctx.trackedBuffers = buffers at apart tracked
    induction buffers with
    | nil => cases tracked
    | cons buffer rest ih =>
      obtain ⟨below, others⟩ := List.pairwise_cons.mp apart
      rcases List.mem_cons.mp tracked with rfl | later
      · exact List.find?_cons_of_pos (by simpa using range.1)
      · have above := (below bo later).2
        rw [List.find?_cons_of_neg (by simp; omega)]
        exact ih others later
  rw [VPUDeviceContext.findBufferObject, if_neg nonnull, first]
  simp only [inside, ↓reduceIte]

/-- The kernel has memory left for an internal buffer, apart from another one on the device. -/
def VPUDeviceContext.Grants (ctx : VPUDeviceContext) (size : Nat) (other : VPUBufferObject) : Prop :=
  ∃ answer, ctx.drvApi.createBuffer ctx.created size = some answer ∧ answer.basePtr ≠ 0 ∧ answer.vpuAddr ≠ 0 ∧
    answer.vpuAddr + size < 2 ^ 64 ∧
    (answer.vpuAddr + size ≤ other.vpuAddr ∨ other.vpuAddr + other.allocSize ≤ answer.vpuAddr)

theorem VPUDeviceContext.Grants.created {ctx : VPUDeviceContext} {size : Nat} {other : VPUBufferObject}
    (grants : ctx.Grants size other) (nonempty : 0 < size) :
    ∃ bo, ctx.createUntrackedBufferObject size true = (some bo, { ctx with created := ctx.created + 1 }) ∧
      bo.basePtr ≠ 0 ∧ bo.vpuAddr ≠ 0 ∧ bo.allocSize = size ∧ bo.vpuAddr + bo.allocSize < 2 ^ 64 ∧
      (bo.vpuAddr + bo.allocSize ≤ other.vpuAddr ∨ other.vpuAddr + other.allocSize ≤ bo.vpuAddr) := by
  obtain ⟨answer, granted, host, device, placed, apart⟩ := grants
  refine ⟨⟨ctx.created, answer.handle, answer.basePtr, size, answer.vpuAddr⟩, ?_, host, device, rfl, placed, apart⟩
  rw [createUntrackedBufferObject, if_neg (Nat.ne_of_gt nonempty), granted]
  simp [host]

section Paths

variable {list : CommandList} {bo : VPUBufferObject} {layout : CopyDescriptorLayout} {ptr size patternSize : Nat}
  {hSignalEvent : Option Event} {waitEvents : WaitEvents}

/-- The fill commands. -/
theorem fillCmd_filled (opened : list.Open) (found : list.ctx.findBufferObject ptr = some bo) (mapped : bo.Mapped)
    (holds : bo.Holds ptr size) (pattern : PatternSize patternSize) (waits : waitEvents.Usable)
    (signal : SignalUsable hSignalEvent bo) (value : Nat) (memory : Image) :
    ∃ next added, CommandList.appendMemoryFillCmd ptr value patternSize size hSignalEvent waitEvents list =
        (ZE_RESULT_SUCCESS, next) ∧
      next.vpuJob.commands = list.vpuJob.commands ++ added ∧
      FilledIn bo ptr size (cycle (littleEndian patternSize value)) memory (runCommands layout added memory) := by
  have supported : ¬ (patternSize ≠ 4 ∧ patternSize ≠ 2 ∧ patternSize ≠ 1) := by
    rcases pattern with rfl | rfl | rfl <;> decide
  let effects := fillEffects bo (CommandList.expandPattern value patternSize) hSignalEvent ptr size waitEvents
  have passes := fillEffects_passes mapped signal (CommandList.expandPattern value patternSize) holds waits
  refine ⟨applyAll effects list, commandsOf effects, ?_, ?_, ?_⟩
  · rw [CommandList.appendMemoryFillCmd_perform _ _ _ _ _ _ _ supported, found]
    exact Effect.perform_passes opened passes
  · rw [Effect.applyAll_vpuJob]
  · intro offset inside
    have filled := @run_fillEffects bo layout hSignalEvent mapped signal
      (CommandList.expandPattern value patternSize) ptr size holds waitEvents waits memory offset inside
    rw [expandPattern_cycle pattern] at filled
    exact filled

/-- The copy from a buffer that the host has filled. -/
theorem fillAsCopy_filled (opened : list.Open) (found : list.ctx.findBufferObject ptr = some bo) (mapped : bo.Mapped)
    (holds : bo.Holds ptr size) (nonempty : 0 < size) (pattern : PatternSize patternSize)
    (writer : list.ctx.hwInfo.getCopyCommand = some layout) (grants : list.ctx.Grants (size + patternSize) bo)
    (waits : waitEvents.Usable) (signal : SignalUsable hSignalEvent bo) (value : Nat) (memory : Image) :
    ∃ next filled added, CommandList.fillAsCopyWithMemory ptr value patternSize size hSignalEvent waitEvents list
        memory = (ZE_RESULT_SUCCESS, next, filled) ∧
      SameIn bo memory filled ∧ next.vpuJob.commands = list.vpuJob.commands ++ added ∧
      FilledIn bo ptr size (cycle (littleEndian patternSize value)) memory (runCommands layout added filled) := by
  obtain ⟨patternBo, created, host, device, allocSize, placed, apart⟩ := grants.created (by omega)
  obtain ⟨filled, written, bytes⟩ := VPUBufferObject.fillBuffer_some host pattern memory value
  have stop := holds.stop
  have user := mapped.user
  have unwrapped : (size + patternSize) % 2 ^ 64 = size + patternSize := by
    apply Nat.mod_eq_of_lt
    omega
  let ready : CommandList := { list with ctx := { list.ctx with created := list.ctx.created + 1 } }
  have nextWriter : ready.ctx.hwInfo.getCopyCommand = some layout := writer
  have lookup : ready.ctx.findBufferObject ptr = some bo := found
  have stillOpen : ready.Open := ⟨opened.closed, opened.cmdBuffers⟩
  obtain ⟨cmd, count, made, command, enough, needed, ranges⟩ :=
    holds.copyCommand nextWriter mapped nonempty host device placed (by omega)
  have passes := commandEffects_passes waits signal cmd
  have check : CommandList.checkCommandAppendCondition list = (ZE_RESULT_SUCCESS, list) := by
    rw [CommandList.checkCommandAppendCondition, CommandList.isCmdListClosed, opened.closed]
    rfl
  let effects := commandEffects hSignalEvent waitEvents (.ok cmd)
  refine ⟨applyAll effects ready, filled, commandsOf effects, ?_, ?_, ?_, ?_⟩
  · rw [CommandList.fillAsCopyWithMemory, check]
    have done := Effect.perform_passes stillOpen passes
    simp only [ready] at done lookup made
    simp only [unwrapped, created, written, lookup, made, CommandList.appendCommandWithEvents_perform, done]
    rfl
  · intro offset inside
    have within := Nat.mul_div_le patternBo.allocSize patternSize
    rw [bytes, if_neg (by omega)]
  · rw [Effect.applyAll_vpuJob]
  · intro offset inside
    rw [run_commandEffects waits signal (VPUCopyCommand.full made) filled inside,
      run_copyCommand holds command enough needed ranges (by omega) apart filled offset inside]
    have whole : size ≤ patternSize * (patternBo.allocSize / patternSize) := by
      rw [allocSize]
      rcases pattern with rfl | rfl | rfl <;> omega
    have within := Nat.mul_div_le patternBo.allocSize patternSize
    split
    · rename_i block
      beta_reduce
      rw [bytes, if_pos (by omega), Nat.add_sub_cancel_left]
    · rw [bytes, if_neg (by omega)]

/-- A fill succeeds on every hardware generation and leaves the buffer alone while it is appended; its commands
leave the pattern in the block and every other byte of the buffer as it was. -/
theorem fill_paths_agree (opened : list.Open) (apart : list.ctx.TrackedApart) (tracked : bo ∈ list.ctx.trackedBuffers)
    (mapped : bo.Mapped) (holds : bo.Holds ptr size) (nonempty : 0 < size) (pattern : PatternSize patternSize)
    (writer : list.ctx.hwInfo.getCopyCommand = some layout) (grants : list.ctx.Grants (size + patternSize) bo)
    (waits : waitEvents.Usable) (signal : SignalUsable hSignalEvent bo) (value : Nat) (memory : Image) :
    ∃ next filled added, CommandList.fillWithMemory ptr (some value) patternSize size hSignalEvent waitEvents list
        memory = (ZE_RESULT_SUCCESS, next, filled) ∧
      SameIn bo memory filled ∧ next.vpuJob.commands = list.vpuJob.commands ++ added ∧
      FilledIn bo ptr size (cycle (littleEndian patternSize value)) memory (runCommands layout added filled) := by
  have nonnull : ptr ≠ 0 := by
    have start := holds.start
    have host := mapped.host
    omega
  have supported : ¬ (patternSize ≠ 1 ∧ patternSize ≠ 2 ∧ patternSize ≠ 4) := by
    rcases pattern with rfl | rfl | rfl <;> decide
  have found := apart.findBufferObject tracked (holds.inRange nonempty) nonnull
  simp only [CommandList.fillWithMemory, if_neg nonnull, if_neg supported]
  split
  · obtain ⟨next, added, success, commands, filled⟩ :=
      @fillCmd_filled list bo layout ptr size patternSize hSignalEvent waitEvents opened found mapped holds pattern waits
        signal value memory
    refine ⟨next, memory, added, ?_, fun _ _ => rfl, commands, filled⟩
    rw [success]
  · exact fillAsCopy_filled opened found mapped holds nonempty pattern writer grants waits signal value memory

end Paths

/-- The list of the data commands on hardware without fill commands. -/
def olderList : CommandList :=
  { dataCommandList with
    ctx := { dataCommandList.ctx with
             hwInfo := { hwInfo40xx with npuArch := .NPU37XX
                                         getCopyCommand := some .vpu_cmd_copy_descriptor_37xx } } }

theorem firstEvent_usable : firstEvent.Usable eventPool := ⟨by decide, rfl, by decide⟩

theorem userBuffer_mapped : userBuffer.Mapped := ⟨by decide, by decide, by decide, by decide⟩

theorem olderList_apart : olderList.ctx.TrackedApart := by
  refine List.pairwise_cons.mpr ⟨?_, List.pairwise_singleton ..⟩
  intro below member
  rw [List.mem_singleton.mp member]
  decide

/-- An odd number of bytes behind the first page, filled with a pattern of two bytes. -/
theorem fill_paths_agree_older : ∃ next filled added,
    CommandList.fillWithMemory (userBuffer.basePtr + 4097) (some 0xABCD) 2 1001 (some firstEvent)
        ⟨1, some fun _ => some firstEvent⟩ olderList (fun _ => 0) = (ZE_RESULT_SUCCESS, next, filled) ∧
      SameIn userBuffer (fun _ => 0) filled ∧ next.vpuJob.commands = olderList.vpuJob.commands ++ added ∧
      FilledIn userBuffer (userBuffer.basePtr + 4097) 1001 (cycle (littleEndian 2 0xABCD)) (fun _ => 0)
        (runCommands .vpu_cmd_copy_descriptor_37xx added filled) := by
  have waits : WaitEvents.Usable ⟨1, some fun _ => some firstEvent⟩ :=
    .inr ⟨_, rfl, fun _ _ => ⟨firstEvent, eventPool, rfl, firstEvent_usable⟩⟩
  have signal : SignalUsable (some firstEvent) userBuffer := by
    intro event known
    obtain rfl := Option.some.inj known
    exact ⟨eventPool, firstEvent_usable, .inl (by decide)⟩
  have grants : olderList.ctx.Grants (1001 + 2) userBuffer :=
    ⟨_, rfl, by decide, by decide, by decide, .inr (by decide)⟩
  exact fill_paths_agree ⟨rfl, rfl⟩ olderList_apart (List.mem_cons_self ..) userBuffer_mapped
    ⟨by decide, by decide⟩ (by decide) (.inr (.inl rfl)) rfl grants waits signal 0xABCD (fun _ => 0)

end NpuDriver
