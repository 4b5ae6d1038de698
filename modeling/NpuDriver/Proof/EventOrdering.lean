import NpuDriver.Proof.AppendAtomicity

/-! Copies and fills between their wait events and their signal event. -/

namespace NpuDriver

open ZeResult

namespace AppendOperation

/-- The events of the operations that move data. -/
def dataEvents : AppendOperation → Option (Option Event × WaitEvents)
  | memoryCopy _ _ _ hSignalEvent waitEvents => some (hSignalEvent, waitEvents)
  | memoryFill _ _ _ _ hSignalEvent waitEvents => some (hSignalEvent, waitEvents)
  | memoryCopyRegion _ _ _ _ _ _ _ _ hSignalEvent waitEvents => some (hSignalEvent, waitEvents)
  | _ => none

/-- How often the events of an operation are added: once for each row of a region, and not at
all for a fill of no bytes by fill commands. -/
def eventRounds (ctx : VPUDeviceContext) : AppendOperation → Nat
  | memoryFill _ _ _ size _ _ =>
    if NpuArch.NPU40XX.generation ≤ ctx.hwInfo.npuArch.generation ∧ size = 0 then 0 else 1
  | memoryCopyRegion _ (some dstRegion) _ _ _ _ _ _ _ _ => dstRegion.height
  | _ => 1

end AppendOperation

/-- The commands added between two states of a list are the waits, the data commands and the
signal, in this order. -/
def EventsAround (list next : CommandList) (hSignalEvent : Option Event) (waitEvents : WaitEvents)
    (dataCommands : List Created) : Prop :=
  ∃ waits data signals,
    next.vpuJob.commands = list.vpuJob.commands ++ (waits ++ data ++ signals) ∧
      waits.map Except.ok = waitCommands waitEvents ∧ data.map Except.ok = dataCommands ∧
      signals.map Except.ok = signalCommands hSignalEvent

section Sizes

variable {cmd : VPUCommand}

theorem fence_full {sType : ScheduleType} {cmdType pointer value : Nat} {bo : Option VPUBufferObject}
    (created : VPUEventCommand.create sType cmdType pointer bo value = .ok cmd) : cmd.getCommitSize ≠ 0 := by
  rw [eventCommand_size created]
  decide

theorem waitCommands_full {waitEvents : WaitEvents} (member : .ok cmd ∈ waitCommands waitEvents) :
    cmd.getCommitSize ≠ 0 := by
  obtain ⟨index, -, created⟩ := List.mem_map.mp member
  cases found : waitEvents.phWaitEvents.bind fun events => events index with
  | none =>
    rw [found] at created
    cases created
  | some event =>
    rw [found] at created
    exact fence_full created

theorem signalCommands_full {hSignalEvent : Option Event} (member : .ok cmd ∈ signalCommands hSignalEvent) :
    cmd.getCommitSize ≠ 0 := by
  cases hSignalEvent with
  | none => cases member
  | some event => exact fence_full (List.mem_singleton.mp member).symm

theorem VPUFillCommand.full {ptr size fillPattern : Nat} {bo : VPUBufferObject}
    (created : VPUFillCommand.create ptr bo size fillPattern = .ok cmd) : cmd.getCommitSize ≠ 0 := by
  obtain ⟨-, -, command, -⟩ := VPUFillCommand.create_ok created
  simp [VPUCommand.getCommitSize, command, CommandStruct.getHeader]

theorem VPUCopyCommand.full {ctx : VPUDeviceContext} {srcPtr dstPtr size : Nat}
    {srcBo dstBo : Option VPUBufferObject}
    (created : VPUCopyCommand.create ctx srcPtr srcBo dstPtr dstBo size = .ok cmd) :
    cmd.getCommitSize ≠ 0 := by
  obtain ⟨_, _, _, _, _, _, _, _, _, _, command, -⟩ := VPUCopyCommand.create_ok created
  simp [VPUCommand.getCommitSize, command, CommandStruct.getHeader]

/-- No data command is empty. -/
theorem Transfer.full {transfer : Transfer} (created : transfer.create = .ok cmd) : cmd.getCommitSize ≠ 0 := by
  cases transfer with
  | copy => exact VPUCopyCommand.full created
  | fill => exact VPUFillCommand.full created

theorem wrapEach_full {operation : AppendOperation} {ctx : VPUDeviceContext}
    {groups : List (List Created)} (flatten : groups.flatten = operation.dataCommands ctx)
    (member : .ok cmd ∈ wrapEach hSignalEvent waitEvents groups) : cmd.getCommitSize ≠ 0 := by
  obtain ⟨group, present, inside⟩ := List.mem_flatMap.mp member
  rcases List.mem_append.mp inside with front | signal
  · rcases List.mem_append.mp front with wait | data
    · exact waitCommands_full wait
    · have owned := List.mem_flatten.mpr ⟨group, present, data⟩
      rw [flatten] at owned
      obtain ⟨transfer, -, created⟩ := List.mem_map.mp owned
      exact transfer.full created
  · exact signalCommands_full signal

end Sizes

theorem wrapEach_length (hSignalEvent : Option Event) (waitEvents : WaitEvents)
    (groups : List (List Created)) :
    (wrapEach hSignalEvent waitEvents groups).length =
      groups.length * ((waitCommands waitEvents).length + (signalCommands hSignalEvent).length) +
        groups.flatten.length := by
  induction groups with
  | nil => simp [wrapEach]
  | cons group rest ih =>
    simp only [wrapEach, List.flatMap_cons, List.length_append, List.flatten_cons, List.length_cons] at ih ⊢
    rw [ih, Nat.succ_mul]
    omega

/-- Wrapping every group is wrapping their sequence when there is one group or nothing to wrap. -/
theorem wrapEach_once (groups : List (List Created)) :
    wrapEach hSignalEvent waitEvents groups =
        waitCommands waitEvents ++ groups.flatten ++ signalCommands hSignalEvent ↔
      groups.length = 1 ∨ (waitEvents.numWaitEvents = 0 ∧ hSignalEvent = none) := by
  have waits : (waitCommands waitEvents).length = waitEvents.numWaitEvents := by simp [waitCommands]
  constructor
  · intro same
    have lengths := congrArg List.length same
    rw [wrapEach_length, waits] at lengths
    simp only [List.length_append, waits] at lengths
    have rounds : groups.length * (waitEvents.numWaitEvents + (signalCommands hSignalEvent).length) =
        1 * (waitEvents.numWaitEvents + (signalCommands hSignalEvent).length) := by omega
    by_cases quiet : waitEvents.numWaitEvents + (signalCommands hSignalEvent).length = 0
    · right
      constructor
      · omega
      · cases hSignalEvent with
        | none => rfl
        | some event => simp [signalCommands] at quiet
    · left
      exact Nat.eq_of_mul_eq_mul_right (Nat.pos_of_ne_zero quiet) rounds
  · rintro (one | ⟨none, rfl⟩)
    · obtain ⟨group, rfl⟩ := List.length_eq_one_iff.mp one
      rw [wrapEach_singleton, List.flatten_singleton]
    · have nothing : waitCommands waitEvents = [] := List.length_eq_zero_iff.mp (waits.trans none)
      simp [wrapEach, nothing, signalCommands, List.flatMap_id']

namespace AppendOperation

/-- The rounds of a successful operation that moves data: there are as many as its events are added, and they hold
its data commands. -/
theorem rounds_data {operation : AppendOperation} {list : CommandList}
    (moves : operation.dataEvents = some (hSignalEvent, waitEvents))
    (succeed : ∀ effect ∈ operation.expansion list, effect.Succeeds) :
    operation.events = (hSignalEvent, waitEvents) ∧
      (operation.rounds list.ctx).length = operation.eventRounds list.ctx ∧
      (operation.rounds list.ctx).flatten = operation.dataCommands list.ctx := by
  cases operation with
  | memoryCopy dstptr srcptr size =>
    cases moves
    exact ⟨rfl, rfl, List.flatten_singleton ..⟩
  | memoryFill ptr pattern patternSize size =>
    cases moves
    refine ⟨rfl, ?_⟩
    rw [rounds, eventRounds]
    split
    · rename_i empty
      refine ⟨rfl, ?_⟩
      cases pattern with
      | none => rfl
      | some value =>
        rw [dataCommands, transfers, memoryFillTransfers, if_pos empty.1, empty.2]
        cases list.ctx.findBufferObject ptr with
        | none => rfl
        | some ptrBo =>
          simp only [fillTransfers_zero]
          rfl
    · exact ⟨rfl, List.flatten_singleton ..⟩
  | memoryCopyRegion dstptr dstRegion dstPitch dstSlicePitch srcptr srcRegion srcPitch srcSlicePitch =>
    cases moves
    refine ⟨rfl, ?_, List.flatMap_singleton' _⟩
    cases dstRegion with
    | none =>
      simp only [expansion, ite_self] at succeed
      exact (succeed _ (List.mem_singleton.mpr rfl)).not_fail.elim
    | some dstRegion =>
      cases srcRegion with
      | none =>
        simp only [expansion, ite_self] at succeed
        exact (succeed _ (List.mem_singleton.mpr rfl)).not_fail.elim
      | some srcRegion => simp [rounds, dataCommands, transfers, rowTransfers, eventRounds]
  | _ => cases moves

/-- What a successful operation adds to the list. -/
theorem added_creations {operation : AppendOperation} {list next : CommandList}
    (moves : operation.dataEvents = some (hSignalEvent, waitEvents))
    (success : operation.append list = (ZE_RESULT_SUCCESS, next)) :
    ∃ groups : List (List Created), ∃ added, groups.length = operation.eventRounds list.ctx ∧
      groups.flatten = operation.dataCommands list.ctx ∧
      next.vpuJob.commands = list.vpuJob.commands ++ added ∧
      added.map Except.ok = wrapEach hSignalEvent waitEvents groups := by
  obtain ⟨added, created, commands, succeed⟩ := added_series success
  obtain ⟨known, rounds, flatten⟩ := rounds_data moves succeed
  rw [series, known] at created
  refine ⟨operation.rounds list.ctx, added, rounds, flatten, ?_, created⟩
  rw [commands, List.filter_eq_self.mpr fun cmd member => ?_]
  have full := wrapEach_full flatten (created ▸ List.mem_map_of_mem member)
  exact decide_eq_true full

end AppendOperation

/-- A successful copy, fill or region copy adds its waits, its data commands and its signal in this
order exactly when its events are added once or there are none. -/
theorem events_around_data {operation : AppendOperation} {list next : CommandList}
    {hSignalEvent : Option Event} {waitEvents : WaitEvents}
    (moves : operation.dataEvents = some (hSignalEvent, waitEvents))
    (success : operation.append list = (ZE_RESULT_SUCCESS, next)) :
    EventsAround list next hSignalEvent waitEvents (operation.dataCommands list.ctx) ↔
      operation.eventRounds list.ctx = 1 ∨ (waitEvents.numWaitEvents = 0 ∧ hSignalEvent = none) := by
  obtain ⟨groups, added, rounds, flatten, commands, created⟩ :=
    AppendOperation.added_creations moves success
  rw [← rounds, ← wrapEach_once, flatten, ← created]
  constructor
  · rintro ⟨waits, data, signals, same, waited, moved, signalled⟩
    rw [commands] at same
    obtain rfl := List.append_cancel_left same
    rw [List.map_append, List.map_append, waited, moved, signalled]
  · intro whole
    obtain ⟨front, signals, rfl, split, signalled⟩ := List.map_eq_append_iff.mp whole
    obtain ⟨waits, data, rfl, waited, moved⟩ := List.map_eq_append_iff.mp split
    exact ⟨waits, data, signals, commands, waited, moved, signalled⟩

/-- A user buffer of one mebibyte. -/
def userBuffer : VPUBufferObject := ⟨600, 601, 2 ^ 31, 2 ^ 20, 2 ^ 31⟩

/-- A kernel that grants buffers up to a mebibyte. -/
def smallKernel : VPUDriverApi :=
  { grantingKernel with
    createBuffer := fun _ size => if size ≤ 2 ^ 20 then some ⟨1, 2 ^ 32, 2 ^ 32⟩ else none }

/-- A list whose context tracks a user buffer and an event pool. -/
def dataCommandList : CommandList :=
  { newCommandList false with
    ctx := { grantingContext [userBuffer, eventPool] with drvApi := smallKernel } }

/-- A copy of 64-byte rows inside the user buffer, behind one wait event and with a signal event. -/
def copyRows (height : Nat) : AppendOperation :=
  .memoryCopyRegion userBuffer.basePtr (some ⟨0, 0, 0, 64, height, 1⟩) 64 0
    (userBuffer.basePtr + 4096) (some ⟨0, 0, 0, 64, height, 1⟩) 64 0 (some firstEvent)
    ⟨1, some fun _ => some firstEvent⟩

theorem events_around_data_row :
    EventsAround dataCommandList ((copyRows 1).append dataCommandList).2 (some firstEvent)
      ⟨1, some fun _ => some firstEvent⟩ ((copyRows 1).dataCommands dataCommandList.ctx) :=
  (events_around_data rfl (Prod.ext (by decide +kernel) rfl)).mpr (.inl rfl)

/-- Two rows: the event is waited for and signalled at each of them. -/
theorem events_around_each_row :
    ((copyRows 2).append dataCommandList).1 = ZE_RESULT_SUCCESS ∧
      ¬ EventsAround dataCommandList ((copyRows 2).append dataCommandList).2 (some firstEvent)
        ⟨1, some fun _ => some firstEvent⟩ ((copyRows 2).dataCommands dataCommandList.ctx) := by
  refine ⟨by decide +kernel, ?_⟩
  rintro ⟨waits, data, signals, same, waited, moved, signalled⟩
  have total : ((copyRows 2).append dataCommandList).2.vpuJob.commands.length = 6 := by decide +kernel
  have before : dataCommandList.vpuJob.commands = [] := rfl
  have waitCount : waits.length = 1 := (List.length_map _).symm.trans (congrArg List.length waited)
  have dataCount : data.length = 2 := (List.length_map _).symm.trans (congrArg List.length moved)
  have signalCount : signals.length = 1 := (List.length_map _).symm.trans (congrArg List.length signalled)
  rw [same, before] at total
  simp only [List.nil_append, List.length_append] at total
  omega

end NpuDriver
