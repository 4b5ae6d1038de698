import NpuDriver.Library.Pointwise
import NpuDriver.Proof.EventOrdering

/-! The device ranges that the data commands of a command list name. -/

namespace NpuDriver

open Library ZeResult

/-- Copy and fill commands. -/
def VPUCommand.isData (cmd : VPUCommand) : Bool :=
  match cmd.command with
  | .memoryFill _ _ _ => true
  | .copyBuffer _ _ => true
  | _ => false

def isDataCreated : Created → Bool
  | .ok cmd => cmd.isData
  | .error _ => false

/-- The operations that write device addresses of user memory into data commands. -/
def AppendOperation.isDataOperation : AppendOperation → Bool
  | memoryCopy _ _ _ _ _ => true
  | memoryFill _ _ _ _ _ _ => true
  | memoryCopyRegion _ _ _ _ _ _ _ _ _ _ => true
  | writeGlobalTimestamp _ _ _ => true
  | _ => false

/-- The data commands added between two states of a list are those of the given transfers, in their
order, and each one names ranges inside its buffer objects only. -/
def DataRangesInside (list next : CommandList) (transfers : List Transfer) : Prop :=
  ∃ added, next.vpuJob.commands = list.vpuJob.commands ++ added ∧
    List.Forall₂ (fun transfer cmd => transfer.create = .ok cmd ∧ transfer.Inside cmd) transfers
      (added.filter fun cmd => cmd.isData)

section Kinds

theorem eventCommand_not_data {create : Nat → Option VPUBufferObject → Created} {hEvent : Option Event}
    (fence : ∀ pointer bo, isDataCreated (create pointer bo) = false) :
    isDataCreated (eventCommand create hEvent) = false := by
  cases hEvent with
  | none => rfl
  | some event => exact fence event.syncPointer event.associatedBo

theorem fence_not_data (sType : ScheduleType) (cmdType pointer value : Nat) (bo : Option VPUBufferObject) :
    isDataCreated (VPUEventCommand.create sType cmdType pointer bo value) = false := by
  cases bo with
  | none => rfl
  | some bo =>
    by_cases null : pointer = 0
    · simp [VPUEventCommand.create, null, isDataCreated]
    · by_cases inside : bo.isInRange pointer = true
      · simp [VPUEventCommand.create, null, inside, isDataCreated, VPUCommand.isData]
      · simp [VPUEventCommand.create, null, inside, isDataCreated]

theorem waitCommands_not_data (waitEvents : WaitEvents) : (waitCommands waitEvents).filter isDataCreated = [] := by
  rw [List.filter_eq_nil_iff]
  intro created member
  obtain ⟨index, -, rfl⟩ := List.mem_map.mp member
  have fence : isDataCreated (eventCommand VPUEventWaitCommand.create
      (waitEvents.phWaitEvents.bind fun events => events index)) = false :=
    eventCommand_not_data fun pointer bo => fence_not_data _ _ pointer _ bo
  rw [fence]
  exact Bool.false_ne_true

theorem signalCommands_not_data (hSignalEvent : Option Event) :
    (signalCommands hSignalEvent).filter isDataCreated = [] := by
  rw [List.filter_eq_nil_iff]
  intro created member
  cases hSignalEvent with
  | none => cases member
  | some event =>
    have fence : isDataCreated (eventCommand VPUEventSignalCommand.create (some event)) = false :=
      eventCommand_not_data fun pointer bo => fence_not_data _ _ pointer _ bo
    rw [List.mem_singleton.mp member, fence]
    exact Bool.false_ne_true

theorem timestamp_not_data (pointer type : Nat) (bo : Option VPUBufferObject) :
    isDataCreated (VPUTimeStampCommand.create pointer bo type) = false := by
  cases bo with
  | none => rfl
  | some bo =>
    by_cases inside : bo.isInRange pointer = true
    · simp [VPUTimeStampCommand.create, inside, isDataCreated, VPUCommand.isData]
    · simp [VPUTimeStampCommand.create, inside, isDataCreated]

theorem VPUCommand.isData_full (cmd : VPUCommand) (data : cmd.isData = true) : cmd.getCommitSize ≠ 0 := by
  rw [isData] at data
  split at data
  · rename_i fill
    simp [getCommitSize, fill, CommandStruct.getHeader]
  · rename_i copy
    simp [getCommitSize, copy, CommandStruct.getHeader]
  · cases data

theorem Transfer.isData {transfer : Transfer} {cmd : VPUCommand} (created : transfer.create = .ok cmd) :
    cmd.isData = true := by
  cases transfer with
  | copy =>
    obtain ⟨_, _, _, _, _, _, _, _, _, _, command, -⟩ := VPUCopyCommand.create_ok created
    simp [VPUCommand.isData, command]
  | fill =>
    obtain ⟨-, -, command, -⟩ := VPUFillCommand.create_ok created
    simp [VPUCommand.isData, command]

/-- Transfers whose commands were all created. -/
theorem filter_transfers {transfers : List Transfer}
    (created : ∀ transfer ∈ transfers, ∃ cmd, transfer.create = .ok cmd) :
    (transfers.map Transfer.create).filter isDataCreated = transfers.map Transfer.create := by
  rw [List.filter_eq_self]
  intro created' member
  obtain ⟨transfer, present, rfl⟩ := List.mem_map.mp member
  obtain ⟨cmd, success⟩ := created transfer present
  rw [success]
  exact transfer.isData success

theorem filter_wrapEach (hSignalEvent : Option Event) (waitEvents : WaitEvents)
    (groups : List (List Created)) :
    (wrapEach hSignalEvent waitEvents groups).filter isDataCreated = groups.flatten.filter isDataCreated := by
  induction groups with
  | nil => simp [wrapEach]
  | cons group rest ih =>
    simp only [wrapEach, List.flatMap_cons, List.filter_append, waitCommands_not_data,
      signalCommands_not_data, List.nil_append, List.append_nil, List.flatten_cons] at ih ⊢
    rw [ih]

end Kinds

/-- The rounds of an operation hold the commands of its transfers, behind a timestamp at most. -/
theorem AppendOperation.rounds_transfers {operation : AppendOperation} {list : CommandList}
    (moves : operation.isDataOperation = true) (succeed : ∀ effect ∈ operation.expansion list, effect.Succeeds) :
    ∃ stamps : List Created, stamps.filter isDataCreated = [] ∧
      (operation.rounds list.ctx).flatten = stamps ++ operation.dataCommands list.ctx := by
  cases operation with
  | memoryCopy => exact ⟨[], rfl, (rounds_data rfl succeed).2.2⟩
  | memoryFill => exact ⟨[], rfl, (rounds_data rfl succeed).2.2⟩
  | memoryCopyRegion => exact ⟨[], rfl, (rounds_data rfl succeed).2.2⟩
  | writeGlobalTimestamp dstptr =>
    refine ⟨timestampStamps list.ctx dstptr, ?_, List.flatten_singleton ..⟩
    rw [List.filter_eq_nil_iff]
    intro stamp member
    rw [timestampStamps] at member
    split at member
    · cases member
    · split at member
      · cases member
      · rw [List.mem_singleton.mp member, timestamp_not_data]
        exact Bool.false_ne_true
  | _ => cases moves

/-- The data commands among what was added are those of the transfers, when these are all that was
created beside fences and timestamps. -/
theorem filter_added {added : List VPUCommand} {created : List Created} {transfers : List Transfer}
    (same : added.map Except.ok = created)
    (data : created.filter isDataCreated = (transfers.map Transfer.create).filter isDataCreated)
    (present : ∀ transfer ∈ transfers, transfer.create ∈ created) :
    (added.filter fun cmd => cmd.isData).map Except.ok = transfers.map Transfer.create := by
  have all : ∀ transfer ∈ transfers, ∃ cmd, transfer.create = .ok cmd := by
    intro transfer member
    have inside := present transfer member
    rw [← same] at inside
    obtain ⟨cmd, -, success⟩ := List.mem_map.mp inside
    exact ⟨cmd, success.symm⟩
  rw [← filter_transfers all, ← data, ← same, List.filter_map]
  rfl

/-- The data commands that a successful operation adds. -/
theorem AppendOperation.added_transfers {operation : AppendOperation} {list next : CommandList}
    (moves : operation.isDataOperation = true)
    (success : operation.append list = (ZE_RESULT_SUCCESS, next)) :
    ∃ added, next.vpuJob.commands = list.vpuJob.commands ++ added ∧
      (added.filter fun cmd => cmd.isData).map Except.ok = (operation.transfers list.ctx).map Transfer.create := by
  obtain ⟨created, same, commands, succeed⟩ := added_series success
  obtain ⟨stamps, notData, flatten⟩ := rounds_transfers moves succeed
  refine ⟨_, commands, ?_⟩
  have stored : (created.filter fun cmd => cmd.getCommitSize ≠ 0).filter (fun cmd => cmd.isData) =
      created.filter fun cmd => cmd.isData := by
    rw [List.filter_filter]
    refine List.filter_congr fun cmd _ => ?_
    by_cases data : cmd.isData = true
    · simp [data, cmd.isData_full data]
    · simp [data]
  rw [stored]
  refine filter_added same ?_ fun transfer member => ?_
  · rw [series, filter_wrapEach, flatten, List.filter_append, notData, dataCommands, List.nil_append]
  · have owned : transfer.create ∈ (operation.rounds list.ctx).flatten := by
      rw [flatten]
      exact List.mem_append_right _ (List.mem_map_of_mem member)
    obtain ⟨group, present, inside⟩ := List.mem_flatten.mp owned
    exact List.mem_flatMap.mpr ⟨group, present,
      List.mem_append_left _ (List.mem_append_right _ inside)⟩

/-- The kernel places buffer objects where they can lie, the tracked ones and those to come. -/
structure VPUDeviceContext.Placed (ctx : VPUDeviceContext) : Prop where
  tracked : ∀ bo ∈ ctx.trackedBuffers, bo.Placed
  created : ∀ count size answer, ctx.drvApi.createBuffer count size = some answer →
    answer.vpuAddr + size < 2 ^ 64 ∧ answer.basePtr + size ≤ 2 ^ 63

/-- The sizes among the arguments are those of their types, `size_t` and `uint32_t`. -/
def AppendOperation.Sized : AppendOperation → Prop
  | memoryCopy _ _ size _ _ => size < 2 ^ 64
  | memoryFill _ _ _ size _ _ => size < 2 ^ 64
  | memoryCopyRegion _ dstRegion _ _ _ _ _ _ _ _ => ∀ region ∈ dstRegion, region.width < 2 ^ 32
  | _ => True

theorem VPUDeviceContext.Placed.found {ctx : VPUDeviceContext} (placed : ctx.Placed) :
    ∀ bo ∈ ctx.findBufferObject ptr, bo.Placed := by
  intro bo found
  exact placed.tracked bo (findBufferObject_mem found)

theorem VPUDeviceContext.Placed.allocated {ctx next : VPUDeviceContext} {bo : VPUBufferObject}
    (placed : ctx.Placed) (success : ctx.createUntrackedBufferObject size mappable = (some bo, next)) :
    bo.Placed ∧ next.Placed := by
  rw [createUntrackedBufferObject] at success
  split at success
  · cases success
  · cases answered : ctx.drvApi.createBuffer ctx.created size with
    | none => simp [answered] at success
    | some answer =>
      obtain ⟨device, host⟩ := placed.created _ _ _ answered
      simp only [answered] at success
      split at success
      · cases success
      · cases success
        refine ⟨⟨device, ?_⟩, placed.tracked, placed.created⟩
        cases mappable with
        | true => exact host
        | false =>
          simp only [Bool.false_eq_true, ↓reduceIte]
          omega

theorem fillTransfers_sized {ptrBo : VPUBufferObject} (placed : ptrBo.Placed) (fillPattern ptr sizeLeft : Nat) :
    ∀ transfer ∈ fillTransfers ptrBo fillPattern ptr sizeLeft, transfer.Sized := by
  induction sizeLeft using Nat.strong_induction_on generalizing ptr with
  | _ sizeLeft ih =>
    intro transfer member
    by_cases nothing : sizeLeft = 0
    · rw [nothing, fillTransfers_zero] at member
      cases member
    · rw [fillTransfers, if_neg nothing] at member
      rcases List.mem_cons.mp member with rfl | later
      · refine ⟨?_, placed⟩
        simp only [CommandList.FILL_SIZE_LIMIT]
        omega
      · refine ih _ ?_ _ transfer later
        simp only [CommandList.FILL_SIZE_LIMIT]
        omega

theorem AppendOperation.transfers_sized {operation : AppendOperation} {ctx : VPUDeviceContext}
    (placed : ctx.Placed) (sized : operation.Sized) :
    ∀ transfer ∈ operation.transfers ctx, transfer.Sized := by
  intro transfer member
  cases operation with
  | memoryCopy =>
    rw [List.mem_singleton.mp member]
    exact ⟨sized, placed.found, placed.found⟩
  | memoryFill ptr pattern patternSize size =>
    cases pattern with
    | none => cases member
    | some value =>
      simp only [transfers, memoryFillTransfers] at member
      split at member
      · split at member
        · cases member
        · rename_i ptrBo found
          exact fillTransfers_sized (placed.found ptrBo found) _ _ _ transfer member
      · split at member
        · cases member
        · rename_i patternBo next allocated
          obtain ⟨inner, others⟩ := placed.allocated allocated
          rw [List.mem_singleton.mp member]
          refine ⟨sized, ?_, others.found⟩
          rintro _ ⟨⟩
          exact inner
  | memoryCopyRegion dstptr dstRegion dstPitch dstSlicePitch srcptr srcRegion =>
    cases dstRegion with
    | none => cases member
    | some dstRegion =>
      cases srcRegion with
      | none => cases member
      | some srcRegion =>
        obtain ⟨y, -, rfl⟩ := List.mem_map.mp member
        have width : dstRegion.width < 2 ^ 32 := sized dstRegion rfl
        refine ⟨?_, placed.found, placed.found⟩
        simp only
        omega
  | writeGlobalTimestamp dstptr =>
    simp only [transfers, timestampTransfers] at member
    split at member
    · cases member
    · rename_i dstBo found
      split at member
      · cases member
      · rename_i alignedBo next allocated
        rw [List.mem_singleton.mp member]
        refine ⟨by decide, ?_, ?_⟩
        · rintro _ ⟨⟩
          exact (placed.allocated allocated).1
        · rintro _ ⟨⟩
          exact placed.found dstBo found
  | _ => cases member

/-- The data commands of a successful copy, fill, region copy or timestamp stay inside their buffer
objects exactly when every one of its copies fits into its two buffer objects. -/
theorem data_ranges_inside {operation : AppendOperation} {list next : CommandList}
    (placed : list.ctx.Placed) (sized : operation.Sized) (moves : operation.isDataOperation = true)
    (success : operation.append list = (ZE_RESULT_SUCCESS, next)) :
    DataRangesInside list next (operation.transfers list.ctx) ↔
      ∀ transfer ∈ operation.transfers list.ctx, transfer.Fits := by
  have widths := AppendOperation.transfers_sized placed sized
  obtain ⟨added, commands, same⟩ := AppendOperation.added_transfers moves success
  constructor
  · rintro ⟨others, again, inside⟩ transfer member
    obtain ⟨cmd, -, created, within⟩ := exists_image inside transfer member
    exact (transfer.inside_iff (widths transfer member) created).mp within
  · intro fits
    have paired := pointwise_of_map_eq same.symm
    refine ⟨added, commands, ?_⟩
    have ready := (List.forall₂_and_left _ _).mpr
      ⟨fun transfer member => And.intro (widths transfer member) (fits transfer member), paired⟩
    refine ready.imp ?_
    rintro transfer cmd ⟨⟨width, fit⟩, created⟩
    exact ⟨created, (transfer.inside_iff width created).mpr fit⟩

theorem dataCommandList_placed : dataCommandList.ctx.Placed := by
  constructor
  · intro bo member
    have known : bo = userBuffer ∨ bo = eventPool := by
      simpa [dataCommandList, grantingContext] using member
    rcases known with rfl | rfl <;> exact ⟨by decide, by decide⟩
  · intro count size answer granted
    simp only [dataCommandList, smallKernel] at granted
    split at granted
    · cases granted
      simp only
      omega
    · cases granted

/-- A row that lies inside both buffers. -/
theorem data_ranges_inside_row :
    DataRangesInside dataCommandList ((copyRows 1).append dataCommandList).2
      ((copyRows 1).transfers dataCommandList.ctx) := by
  have width : (copyRows 1).Sized := by
    rintro region ⟨⟩
    decide
  exact (data_ranges_inside dataCommandList_placed width rfl (Prod.ext (by decide +kernel) rfl)).mpr
    (by decide +kernel)

/-- A copy of 8192 bytes to the last page of the user buffer. -/
def copyAcrossEnd : AppendOperation :=
  .memoryCopy (userBuffer.basePtr + 2 ^ 20 - 4096) userBuffer.basePtr 8192 none .none

/-- It is accepted, and its descriptor names bytes behind the buffer. -/
theorem copy_crosses_end :
    (copyAcrossEnd.append dataCommandList).1 = ZE_RESULT_SUCCESS ∧
      ¬ DataRangesInside dataCommandList (copyAcrossEnd.append dataCommandList).2
        (copyAcrossEnd.transfers dataCommandList.ctx) := by
  refine ⟨by decide +kernel, ?_⟩
  rintro ⟨added, -, inside⟩
  obtain ⟨cmd, -, created, within⟩ := exists_image inside _ (List.mem_singleton.mpr rfl)
  have width : 8192 < 2 ^ 64 := by decide
  have sized := @AppendOperation.transfers_sized copyAcrossEnd _ dataCommandList_placed width _
    (List.mem_singleton.mpr rfl)
  exact absurd ((Transfer.inside_iff sized created).mp within) (by decide +kernel)

end NpuDriver
