import NpuDriver.Library.Runs
import NpuDriver.Proof.AppendAtomicity
import NpuDriver.Proof.ArgumentUpdates

/-! Ids of mutable commands: which command an id stands for over a series of calls. -/

namespace NpuDriver

open Library ZeResult

theorem SameCommands.append {first second before after : List VPUCommand}
    (left : SameCommands first before) (right : SameCommands second after) :
    SameCommands (first ++ second) (before ++ after) := by
  induction left with
  | nil => exact right
  | cons head _ ih => exact List.Forall₂.cons head ih

theorem VPUCommand.patchDescriptorAddress_same (cmd : VPUCommand) (vpuAddr : Nat) :
    Same cmd (cmd.patchDescriptorAddress vpuAddr) := by
  unfold patchDescriptorAddress
  split
  · rename_i kind
    exact ⟨by simp [getCommandType, kind, CommandStruct.getHeader], by simp [isInference, kind]⟩
  · exact Same.refl cmd

namespace VPUCommandBuffer

theorem addCommand_same (cb : VPUCommandBuffer) (cmd : VPUCommand) (offset descriptors : Nat) :
    VPUCommand.Same cmd (cb.addCommand cmd offset descriptors).cmd := by
  unfold addCommand
  split
  · exact VPUCommand.Same.refl cmd
  · simp only
    split
    · split
      · exact VPUCommand.Same.refl cmd
      · rw [addStream_cmd]
        exact cmd.patchDescriptorAddress_same _
    · rw [addStream_cmd]
      exact VPUCommand.Same.refl cmd

theorem addCommands_same (cb : VPUCommandBuffer) (cmds : List VPUCommand) (offset descriptors : Nat) :
    SameCommands cmds (cb.addCommands cmds offset descriptors).2 := by
  induction cmds generalizing cb offset descriptors with
  | nil => exact List.Forall₂.nil
  | cons cmd rest ih =>
    simp only [addCommands]
    split
    · exact SameCommands.refl _
    · rename_i fenced _
      split
      · exact List.Forall₂.cons (addCommand_same fenced cmd _ _) (SameCommands.refl rest)
      · exact List.Forall₂.cons (addCommand_same fenced cmd _ _) (ih _ _ _)

theorem allocateCommandBuffer_same (ctx : VPUDeviceContext) (position : Nat) (cmds : List VPUCommand) :
    SameCommands cmds (allocateCommandBuffer ctx position cmds).2.1 := by
  unfold allocateCommandBuffer
  split
  · exact SameCommands.refl cmds
  · simp only
    split
    · exact SameCommands.refl cmds
    · split
      · exact SameCommands.refl cmds
      · rename_i cb _
        have same := cb.addCommands_same cmds commandListOffset
          (getFwDataCacheAlign (commandListOffset + (commitSizes cmds + fenceSize)))
        split
        · rename_i patched added
          rw [added] at same
          exact same
        · rename_i patched added
          rw [added] at same
          exact same

end VPUCommandBuffer

namespace VPUJob

theorem createCommandBuffers_same (ctx : VPUDeviceContext) (position : Nat)
    (shares : List (List VPUCommand)) (lastEventBo : Option VPUBufferObject) :
    SameCommands shares.flatten (createCommandBuffers ctx position shares lastEventBo).2.2.1 := by
  induction shares generalizing ctx position lastEventBo with
  | nil => exact List.Forall₂.nil
  | cons share others ih =>
    have same := VPUCommandBuffer.allocateCommandBuffer_same ctx position share
    simp only [createCommandBuffers, List.flatten_cons]
    split
    · rename_i patched next allocated
      rw [allocated] at same
      exact same.append (SameCommands.refl others.flatten)
    · rename_i cmdBuffer patched next allocated
      rw [allocated] at same
      exact same.append (ih _ _ _)

theorem closeCommands_same (job : VPUJob) (ctx : VPUDeviceContext) :
    SameCommands job.commands (job.closeCommands ctx).2.1.commands := by
  unfold closeCommands
  split
  · exact SameCommands.refl _
  · split
    · exact SameCommands.refl _
    · have same := createCommandBuffers_same ctx 0 (scheduleAll job.commands) none
      rw [scheduleAll_flatten] at same
      exact same

end VPUJob

/-- The calls on a mutable command list. `context` stands for what the rest of the program does
to the device context in between. -/
inductive ListCall where
  | getNextCommandId (graphArguments : Bool)
  | append (operation : AppendOperation)
  | reset
  | close
  | updateMutableCommands (commandOrder : MapOrder (Nat × ArgumentUpdatesMap))
      (argumentOrder : MapOrder (Nat × ArgumentUpdates)) (flags : Nat) (pNext : List MutableDesc)
  | context (ctx : VPUDeviceContext)

namespace ListCall

def run (list : CommandList) : ListCall → CommandList
  | getNextCommandId _ => list
  | append operation => (operation.append list).2
  | reset => list.reset.2
  | close => list.close.2
  | updateMutableCommands commandOrder argumentOrder flags pNext =>
    (CommandList.updateMutableCommands commandOrder argumentOrder flags pNext list).2
  | context ctx => { list with ctx := ctx }

def isReset : ListCall → Bool
  | reset => true
  | _ => false

end ListCall

/-- What calls other than reset leave of a command list: the entries that exist, the ids below
`bound` that have no entry, and the commands at their positions. -/
structure CommandList.Continues (bound : Nat) (before after : CommandList) : Prop where
  isMutable : after.isMutable = before.isMutable
  entries : ∀ id position, before.commandIdMap id = some position → after.commandIdMap id = some position
  known : ∀ id, id < bound → before.commandIdMap id = none → after.commandIdMap id = none
  commands : ∃ kept added, after.vpuJob.commands = kept ++ added ∧ SameCommands before.vpuJob.commands kept

theorem SameCommands.front {first rest after : List VPUCommand} (same : SameCommands (first ++ rest) after) :
    ∃ kept others, after = kept ++ others ∧ SameCommands first kept := by
  induction first generalizing after with
  | nil => exact ⟨[], after, rfl, List.Forall₂.nil⟩
  | cons cmd others ih =>
    cases same with
    | cons head tail =>
      obtain ⟨kept, added, rfl, sameTail⟩ := ih tail
      exact ⟨_ :: kept, added, rfl, List.Forall₂.cons head sameTail⟩

theorem SameCommands.at {before after : List VPUCommand} {position : Nat} {cmd : VPUCommand}
    (same : SameCommands before after)
    (present : before[position]? = some cmd) :
    ∃ later, after[position]? = some later ∧ VPUCommand.Same cmd later := by
  induction same generalizing position with
  | nil => simp at present
  | cons head _ ih =>
    cases position with
    | zero =>
      simp only [List.getElem?_cons_zero, Option.some.injEq] at present
      subst present
      exact ⟨_, rfl, head⟩
    | succ position => exact ih present

namespace CommandList

theorem Continues.count {before after : CommandList} (continues : Continues bound before after) :
    before.getNumCommands ≤ after.getNumCommands := by
  obtain ⟨kept, added, commands, same⟩ := continues.commands
  have length := same.length_eq
  simp only [getNumCommands, VPUJob.getNumCommands, commands, List.length_append]
  omega

theorem Continues.at {before after : CommandList} {position : Nat} {cmd : VPUCommand}
    (continues : Continues bound before after)
    (present : before.vpuJob.commands[position]? = some cmd) :
    ∃ later, after.vpuJob.commands[position]? = some later ∧ VPUCommand.Same cmd later := by
  obtain ⟨kept, added, commands, same⟩ := continues.commands
  obtain ⟨later, found, sameCommand⟩ := same.at present
  have inside : position < kept.length := (List.getElem?_eq_some_iff.mp found).1
  exact ⟨later, by rw [commands, List.getElem?_append_left inside, found], sameCommand⟩

theorem Continues.of_commands {before after : CommandList} (isMutable : after.isMutable = before.isMutable)
    (entries : after.commandIdMap = before.commandIdMap)
    (same : SameCommands before.vpuJob.commands after.vpuJob.commands) : Continues bound before after where
  isMutable := isMutable
  entries := fun id position entry => by rw [entries, entry]
  known := fun id _ entry => by rw [entries, entry]
  commands := ⟨_, [], (List.append_nil _).symm, same⟩

theorem Continues.refl (list : CommandList) : Continues bound list list :=
  of_commands rfl rfl (SameCommands.refl _)

theorem Continues.trans {first second third : CommandList} (left : Continues bound first second)
    (right : Continues bound second third) : Continues bound first third where
  isMutable := right.isMutable.trans left.isMutable
  entries := fun id position entry => right.entries id position (left.entries id position entry)
  known := fun id below entry => right.known id below (left.known id below entry)
  commands := by
    obtain ⟨kept, added, commands, same⟩ := left.commands
    obtain ⟨keptLater, addedLater, commandsLater, sameLater⟩ := right.commands
    rw [commands] at sameLater
    obtain ⟨front, back, rfl, sameFront⟩ := sameLater.front
    exact ⟨front, back ++ addedLater, by rw [commandsLater, List.append_assoc], same.trans sameFront⟩

end CommandList

/-- The ids that an expansion notes are those of the list that the operation starts on. -/
def Effect.NotesFrom (count : Nat) (effect : Effect) : Prop :=
  ∀ newCommandId, effect = note newCommandId → newCommandId = count

theorem Effect.Core.notesFrom {effect : Effect} (core : effect.Core) : effect.NotesFrom count := by
  rintro newCommandId rfl
  exact core.elim

theorem fillEffects_core (ptrBo : VPUBufferObject) (fillPattern : Nat) (hSignalEvent : Option Event)
    (ptr sizeLeft : Nat) (waitEvents : WaitEvents) :
    ∀ effect ∈ fillEffects ptrBo fillPattern hSignalEvent ptr sizeLeft waitEvents, effect.Core := by
  induction sizeLeft using Nat.strong_induction_on generalizing ptr waitEvents with
  | _ sizeLeft ih =>
    intro effect member
    rw [fillEffects] at member
    split at member
    · simp at member
    · rename_i nonzero
      rcases List.mem_append.mp member with piece | rest
      · exact CommandList.commandEffects_core _ _ _ effect piece
      · exact ih _ (by simp only [CommandList.FILL_SIZE_LIMIT]; omega) _ _ effect rest

theorem Effect.check_notesFrom : check.NotesFrom count := fun _ same => nomatch same

theorem Effect.context_notesFrom (ctx : VPUDeviceContext) : (context ctx).NotesFrom count :=
  fun _ same => nomatch same

/-- A series whose effects concern the job, behind a change of the context. -/
theorem Effect.notesFrom_context {effects : List Effect} (ctx : VPUDeviceContext)
    (core : ∀ effect ∈ effects, effect.Core) :
    ∀ effect ∈ .context ctx :: effects, effect.NotesFrom count :=
  List.forall_mem_cons.mpr ⟨context_notesFrom ctx, fun effect member => (core effect member).notesFrom⟩

theorem Effect.core_fail (error : ZeResult) (failed : error ≠ ZE_RESULT_SUCCESS) :
    ∀ effect ∈ [fail error failed], effect.Core := by
  intro effect member
  rw [List.mem_singleton.mp member]
  trivial

theorem rowEffects_core (ctx : VPUDeviceContext) (dst src : CommandList.RegionSide)
    (hSignalEvent : Option Event) (waitEvents : WaitEvents) (height : Nat) :
    ∀ effect ∈ rowEffects ctx dst src hSignalEvent waitEvents height, effect.Core := by
  intro effect member
  obtain ⟨y, -, row⟩ := List.mem_flatMap.mp member
  exact CommandList.commandEffects_core _ _ _ effect row

namespace AppendOperation

theorem memoryFillExpansion_notesFrom (ctx : VPUDeviceContext) (ptr patternSize size value : Nat)
    (hSignalEvent : Option Event) (waitEvents : WaitEvents) :
    ∀ effect ∈ memoryFillExpansion ctx ptr patternSize size value hSignalEvent waitEvents,
      effect.NotesFrom count := by
  have cores : ∀ effects : List Effect, (∀ effect ∈ effects, effect.Core) →
      ∀ effect ∈ effects, effect.NotesFrom count :=
    fun effects core effect member => (core effect member).notesFrom
  unfold memoryFillExpansion
  split
  · exact cores _ (Effect.core_fail _ _)
  · split
    · split
      · exact cores _ (Effect.core_fail _ _)
      · exact cores _ (fillEffects_core _ _ _ _ _ _)
    · refine List.forall_mem_cons.mpr ⟨Effect.check_notesFrom, ?_⟩
      split
      · exact Effect.notesFrom_context _ (Effect.core_fail _ _)
      · refine Effect.notesFrom_context _ ?_
        split
        · exact Effect.core_fail _ _
        · exact CommandList.commandEffects_core _ _ _

theorem timestampExpansion_notesFrom (ctx : VPUDeviceContext) (dstptr : Nat)
    (hSignalEvent : Option Event) (waitEvents : WaitEvents) :
    ∀ effect ∈ timestampExpansion ctx dstptr hSignalEvent waitEvents, effect.NotesFrom count := by
  unfold timestampExpansion
  split
  · exact fun effect member => (Effect.core_fail _ _ effect member).notesFrom
  · refine List.forall_mem_cons.mpr ⟨Effect.check_notesFrom, ?_⟩
    split
    · exact Effect.notesFrom_context _ (Effect.core_fail _ _)
    · rw [List.cons_append]
      refine Effect.notesFrom_context _ (List.forall_mem_append.mpr ⟨?_, ?_⟩)
      · exact CommandList.waitEventEffects_core waitEvents
      · refine List.forall_mem_cons.mpr ⟨trivial, List.forall_mem_cons.mpr ⟨trivial, ?_⟩⟩
        exact CommandList.signalEffects_core hSignalEvent

theorem inferenceExpansion_notesFrom (ctx : VPUDeviceContext) (hGraph : Option Graph)
    (hProfilingQuery : Option GraphProfilingQuery) :
    ∀ effect ∈ inferenceExpansion ctx hGraph hProfilingQuery, effect.NotesFrom count := by
  unfold inferenceExpansion
  split
  · exact fun effect member => (Effect.core_fail _ _ effect member).notesFrom
  · split
    · exact fun effect member => (Effect.core_fail _ _ effect member).notesFrom
    · exact Effect.notesFrom_context _ fun effect member => by
        rw [List.mem_singleton.mp member]
        trivial

/-- An operation notes no other id than the number of commands that it starts on. -/
theorem expansion_notesFrom (operation : AppendOperation) (list : CommandList) :
    ∀ effect ∈ operation.expansion list, effect.NotesFrom list.getNumCommands := by
  have cores : ∀ effects : List Effect, (∀ effect ∈ effects, effect.Core) →
      ∀ effect ∈ effects, effect.NotesFrom list.getNumCommands :=
    fun effects core effect member => (core effect member).notesFrom
  have fails := fun error failed => cores _ (Effect.core_fail error failed)
  have commands := fun hSignalEvent waitEvents created =>
    cores _ (CommandList.commandEffects_core hSignalEvent waitEvents created)
  have events : ∀ create hEvent, ∀ effect ∈ [Effect.check, eventEffect create hEvent],
      effect.NotesFrom list.getNumCommands := fun create hEvent =>
    List.forall_mem_cons.mpr ⟨Effect.check_notesFrom,
      List.forall_mem_singleton.mpr (CommandList.eventEffect_core create hEvent).notesFrom⟩
  cases operation with
  | barrier hSignalEvent waitEvents => exact commands _ _ _
  | memoryCopy dstptr srcptr size hSignalEvent waitEvents =>
    simp only [expansion]
    split
    · exact fails _ _
    · exact commands _ _ _
  | memoryFill ptr pattern patternSize size hSignalEvent waitEvents =>
    simp only [expansion]
    split
    · exact fails _ _
    · split
      · exact fails _ _
      · exact memoryFillExpansion_notesFrom _ _ _ _ _ _ _
  | memoryCopyRegion dstptr dstRegion dstPitch dstSlicePitch srcptr srcRegion srcPitch srcSlicePitch
      hSignalEvent waitEvents =>
    simp only [expansion]
    split
    · exact fails _ _
    · split
      · unfold regionExpansion
        split
        · exact fails _ _
        · exact cores _ (rowEffects_core _ _ _ _ _ _)
      · exact fails _ _
  | writeGlobalTimestamp dstptr hSignalEvent waitEvents =>
    simp only [expansion]
    split
    · exact fails _ _
    · exact timestampExpansion_notesFrom _ _ _ _
  | writeGlobalTimestampTo timestampBo hSignalEvent waitEvents => exact commands _ _ _
  | graphInitialize hGraph hSignalEvent waitEvents =>
    refine cores _ (List.forall_mem_append.mpr ⟨List.forall_mem_cons.mpr ⟨trivial, ?_⟩, ?_⟩)
    · exact CommandList.waitEventEffects_core waitEvents
    · cases hGraph with
      | none => exact Effect.core_fail _ _
      | some graph =>
        exact List.forall_mem_cons.mpr ⟨trivial, CommandList.signalEffects_core hSignalEvent⟩
  | graphExecute hGraph hProfilingQuery hSignalEvent waitEvents =>
    have waits := cores _ (CommandList.waitEventEffects_core waitEvents)
    have signals := cores _ (CommandList.signalEffects_core hSignalEvent)
    refine List.forall_mem_append.mpr ⟨List.forall_mem_cons.mpr ⟨Effect.check_notesFrom, waits⟩, ?_⟩
    refine List.forall_mem_cons.mpr ⟨?_, List.forall_mem_append.mpr
      ⟨inferenceExpansion_notesFrom _ _ _, signals⟩⟩
    intro newCommandId same
    cases same
    rfl
  | signalEvent hEvent => exact events _ _
  | waitOnEvents numEvents phEvent =>
    cases phEvent with
    | none => exact fails _ _
    | some phEvent =>
      simp only [expansion]
      split
      · exact fails _ _
      · refine List.forall_mem_cons.mpr ⟨Effect.check_notesFrom, fun effect member => ?_⟩
        obtain ⟨index, -, rfl⟩ := List.mem_map.mp member
        exact (CommandList.eventEffect_core _ _).notesFrom
  | eventReset hEvent => exact events _ _
  | metricQueryBegin hMetricQuery =>
    cases hMetricQuery with
    | none => exact fails _ _
    | some query =>
      refine List.forall_mem_cons.mpr ⟨Effect.check_notesFrom, List.forall_mem_singleton.mpr ?_⟩
      split
      · intro _ same
        cases same
      · intro _ same
        cases same
  | metricQueryEnd hMetricQuery hSignalEvent waitEvents =>
    cases hMetricQuery with
    | none => exact fails _ _
    | some query =>
      simp only [expansion]
      split
      · exact commands _ _ _
      · exact fails _ _

end AppendOperation

namespace CommandList

theorem apply_continues {effect : Effect} (notes : effect.NotesFrom count) (below : bound ≤ count)
    (list : CommandList) : Continues bound list (effect.apply list) := by
  cases effect with
  | note newCommandId =>
    have key := notes newCommandId rfl
    simp only [Effect.apply, noteCommandId]
    split
    · rename_i fresh
      simp only [Bool.and_eq_true, Option.isNone_iff_eq_none] at fresh
      refine ⟨rfl, ?_, ?_, ⟨_, [], (List.append_nil _).symm, SameCommands.refl _⟩⟩
      · intro id position entry
        by_cases same : id = newCommandId
        · rw [same, fresh.2] at entry
          cases entry
        · simpa [Function.update_of_ne same] using entry
      · intro id low entry
        have different : id ≠ newCommandId := by omega
        simpa [Function.update_of_ne different] using entry
    · exact Continues.refl list
  | command created =>
    exact ⟨rfl, fun _ _ entry => entry, fun _ _ entry => entry, ⟨_, _, rfl, SameCommands.refl _⟩⟩
  | context ctx => exact Continues.of_commands rfl rfl (SameCommands.refl _)
  | _ => exact Continues.refl list

theorem applyAll_continues {effects : List Effect} (notes : ∀ effect ∈ effects, effect.NotesFrom count)
    (below : bound ≤ count) (list : CommandList) : Continues bound list (Effect.applyAll effects list) := by
  induction effects generalizing list with
  | nil => exact Continues.refl list
  | cons effect rest ih =>
    have head := apply_continues (notes effect (List.mem_cons_self ..)) below list
    exact head.trans (ih (fun other member => notes other (List.mem_cons_of_mem effect member)) _)

theorem append_continues (operation : AppendOperation) {list : CommandList}
    (below : bound ≤ list.getNumCommands) : Continues bound list (operation.append list).2 := by
  obtain ⟨done, left, split, after⟩ := operation.append_front list
  rw [after]
  refine applyAll_continues (fun effect member => ?_) below list
  exact operation.expansion_notesFrom list effect (by rw [split]; exact List.mem_append_left _ member)

theorem close_continues (list : CommandList) : Continues bound list list.close.2 := by
  have same := list.vpuJob.closeCommands_same list.ctx
  unfold close
  split
  · exact Continues.refl list
  · split
    · rename_i job ctx closed
      rw [closed] at same
      exact Continues.of_commands rfl rfl same
    · rename_i job ctx closed
      rw [closed] at same
      exact Continues.of_commands rfl rfl same

theorem updateMutableCommands_frame (commandOrder : MapOrder (Nat × ArgumentUpdatesMap))
    (argumentOrder : MapOrder (Nat × ArgumentUpdates)) (flags : Nat) (pNext : List MutableDesc)
    (list : CommandList) :
    let after := (updateMutableCommands commandOrder argumentOrder flags pNext list).2
    after.isMutable = list.isMutable ∧ after.commandIdMap = list.commandIdMap := by
  unfold updateMutableCommands
  split
  · exact ⟨rfl, rfl⟩
  · split
    · exact ⟨rfl, rfl⟩
    · split
      · exact ⟨rfl, rfl⟩
      · split <;> exact ⟨rfl, rfl⟩

/-- One call other than reset. -/
theorem call_continues (call : ListCall) {list : CommandList} (kept : call.isReset = false)
    (below : bound ≤ list.getNumCommands) : Continues bound list (call.run list) := by
  cases call with
  | getNextCommandId graphArguments => exact Continues.refl list
  | append operation => exact append_continues operation below
  | reset => cases kept
  | close => exact close_continues list
  | updateMutableCommands commandOrder argumentOrder flags pNext =>
    obtain ⟨isMutable, entries⟩ := updateMutableCommands_frame commandOrder argumentOrder flags pNext list
    exact Continues.of_commands isMutable entries
      (updateMutableCommands_argument commandOrder argumentOrder flags pNext list).1
  | context ctx => exact Continues.of_commands rfl rfl (SameCommands.refl _)

/-- Any series of calls without a reset. -/
theorem run_continues {calls : List ListCall} (kept : ∀ call ∈ calls, call.isReset = false)
    {list : CommandList} (below : bound ≤ list.getNumCommands) :
    Continues bound list (runFrom ListCall.run list calls) := by
  induction calls generalizing list with
  | nil => exact Continues.refl list
  | cons call rest ih =>
    have head := call_continues call (kept call (List.mem_cons_self ..)) below
    exact head.trans (ih (fun other member => kept other (List.mem_cons_of_mem call member))
      (Nat.le_trans below head.count))

end CommandList

/-- A successful wait is one command. -/
theorem waitEffect_added {hEvent : Option Event}
    (succeeds : (eventEffect VPUEventWaitCommand.create hEvent).Succeeds) :
    (eventEffect VPUEventWaitCommand.create hEvent).added.length = 1 := by
  unfold eventEffect at succeeds ⊢
  split at succeeds
  · exact succeeds.not_fail.elim
  · rename_i event
    split at succeeds
    · exact succeeds.not_fail.elim
    · rename_i nonzero
      obtain ⟨cmd, created⟩ := succeeds.created
      have size : cmd.getCommitSize = fenceSize := eventCommand_size created
      simp [Effect.added, nonzero, created, size, fenceSize]

theorem waitEventEffects_added {waitEvents : WaitEvents}
    (succeed : ∀ effect ∈ waitEventEffects waitEvents, effect.Succeeds) :
    (Effect.commandsOf (waitEventEffects waitEvents)).length = waitEvents.numWaitEvents := by
  unfold waitEventEffects at succeed ⊢
  split
  · rename_i none
    simp [Effect.commandsOf, none]
  · rename_i some
    rw [if_neg some] at succeed
    split
    · rename_i missing
      rw [missing] at succeed
      exact (succeed _ (List.mem_singleton.mpr rfl)).not_fail.elim
    · rename_i events present
      rw [present] at succeed
      have each : ∀ effect ∈ waitEffects events waitEvents.numWaitEvents, effect.added.length = 1 := by
        intro effect member
        obtain ⟨index, -, rfl⟩ := List.mem_map.mp member
        exact waitEffect_added (succeed _ (List.mem_cons_of_mem _ member))
      have total : ∀ effects : List Effect, (∀ effect ∈ effects, effect.added.length = 1) →
          (Effect.commandsOf effects).length = effects.length := by
        intro effects ones
        induction effects with
        | nil => rfl
        | cons effect rest ih =>
          have tail := ih fun other member => ones other (List.mem_cons_of_mem effect member)
          simp only [Effect.commandsOf, List.flatMap_cons, List.length_append, List.length_cons] at tail ⊢
          rw [ones effect (List.mem_cons_self ..), tail]
          omega
      have added := total _ each
      simp only [Effect.commandsOf, List.flatMap_cons, Effect.added, List.nil_append] at added ⊢
      rw [added]
      simp [waitEffects]

/-- A successful graph command carries the inference that was acquired for it. -/
theorem inferenceExpansion_created {ctx : VPUDeviceContext} {hGraph : Option Graph}
    {hProfilingQuery : Option GraphProfilingQuery}
    (succeed : ∀ effect ∈ AppendOperation.inferenceExpansion ctx hGraph hProfilingQuery, effect.Succeeds) :
    ∃ graph parsed next cmd inference, hGraph = some graph ∧ graph.acquired = .ok parsed ∧
      AppendOperation.inferenceExpansion ctx hGraph hProfilingQuery = [.context next, .command (.ok cmd)] ∧
      cmd.command = .inferenceExecute inference ∧ inference.inferenceId = parsed.inferenceId := by
  unfold AppendOperation.inferenceExpansion at succeed ⊢
  split at succeed
  · exact (succeed _ (List.mem_singleton.mpr rfl)).not_fail.elim
  · rename_i graph
    split at succeed
    · exact (succeed _ (List.mem_singleton.mpr rfl)).not_fail.elim
    · rename_i profilingQuery asked
      generalize answer : CommandList.allocateGraphExecuteCommand graph profilingQuery ctx = result at succeed ⊢
      obtain ⟨first, next⟩ := result
      obtain ⟨cmd, rfl⟩ := (succeed (.command first) (by simp)).created
      unfold CommandList.allocateGraphExecuteCommand at answer
      split at answer
      · cases answer
      · rename_i parsed acquired
        unfold VPUInferenceExecute.create at answer
        split at answer
        · cases answer
        · split at answer
          · cases answer
          · split at answer
            · cases answer
            · simp only [Prod.mk.injEq, Except.ok.injEq] at answer
              obtain ⟨rfl, rfl⟩ := answer
              exact ⟨graph, parsed, _, _, _, rfl, acquired, rfl, rfl, rfl⟩

/-- The effects that leave the translation of ids alone. -/
def Effect.Quiet (effect : Effect) : Prop := ∀ newCommandId, effect ≠ note newCommandId

theorem Effect.Core.quiet {effect : Effect} (core : effect.Core) : effect.Quiet := by
  rintro newCommandId rfl
  exact core

theorem Effect.applyAll_commandIdMap {effects : List Effect} (quiet : ∀ effect ∈ effects, effect.Quiet)
    (list : CommandList) : (applyAll effects list).commandIdMap = list.commandIdMap := by
  induction effects generalizing list with
  | nil => rfl
  | cons effect rest ih =>
    rw [applyAll_cons, ih fun other member => quiet other (List.mem_cons_of_mem effect member)]
    cases effect with
    | note newCommandId => exact absurd rfl (quiet _ (List.mem_cons_self ..) newCommandId)
    | _ => rfl

/-- What a successful `appendGraphExecute` does: the graph command stands behind the waits, and
the number of commands before them is translated unless it has an entry. -/
theorem appendGraphExecute_success {hGraph : Option Graph} {hProfilingQuery : Option GraphProfilingQuery}
    {hSignalEvent : Option Event} {waitEvents : WaitEvents} {list after : CommandList}
    (appended : CommandList.appendGraphExecute hGraph hProfilingQuery hSignalEvent waitEvents list =
      (ZE_RESULT_SUCCESS, after)) :
    ∃ graph parsed cmd, hGraph = some graph ∧ graph.acquired = .ok parsed ∧
      after.vpuJob.commands[list.getNumCommands + waitEvents.numWaitEvents]? = some cmd ∧
      cmd.isInference.map VPUInferenceExecute.inferenceId = some parsed.inferenceId ∧
      after.isMutable = list.isMutable ∧
      after.commandIdMap =
        if list.isMutable = true ∧ 0 < waitEvents.numWaitEvents ∧
            list.commandIdMap list.getNumCommands = none then
          Function.update list.commandIdMap list.getNumCommands
            (some (list.getNumCommands + waitEvents.numWaitEvents))
        else list.commandIdMap := by
  rw [CommandList.appendGraphExecute_perform] at appended
  obtain ⟨rfl, succeed⟩ := Effect.perform_success appended
  have waits : ∀ effect ∈ waitEventEffects waitEvents, effect.Succeeds := fun effect member =>
    succeed effect (List.mem_append_left _ (List.mem_cons_of_mem _ member))
  have data : ∀ effect ∈ AppendOperation.inferenceExpansion list.ctx hGraph hProfilingQuery,
      effect.Succeeds := fun effect member =>
    succeed effect (List.mem_append_right _ (List.mem_cons_of_mem _ (List.mem_append_left _ member)))
  obtain ⟨graph, parsed, next, cmd, inference, isGraph, acquired, expanded, kind, inferenceId⟩ :=
    inferenceExpansion_created data
  have waitCount := waitEventEffects_added waits
  have identified : cmd.isInference.map VPUInferenceExecute.inferenceId = some parsed.inferenceId := by
    simp [VPUCommand.isInference, kind, inferenceId]
  have nonempty : cmd.getCommitSize ≠ 0 := by
    simp [VPUCommand.getCommitSize, kind, CommandStruct.getHeader]
  have whole : CommandList.Continues 0 list _ := CommandList.applyAll_continues
    ((AppendOperation.graphExecute hGraph hProfilingQuery hSignalEvent waitEvents).expansion_notesFrom list)
    (Nat.zero_le _) list
  have front : ∀ effect ∈ Effect.check :: waitEventEffects waitEvents, effect.Core :=
    List.forall_mem_cons.mpr ⟨trivial, CommandList.waitEventEffects_core waitEvents⟩
  have frontJob := Effect.applyAll_vpuJob (.check :: waitEventEffects waitEvents) list
  have frontMap := Effect.applyAll_commandIdMap (fun effect member => (front effect member).quiet) list
  have frontNotes : ∀ effect ∈ Effect.check :: waitEventEffects waitEvents, effect.NotesFrom 0 :=
    fun effect member => (front effect member).notesFrom
  have frontMutable := (CommandList.applyAll_continues frontNotes (Nat.le_refl 0) list).isMutable
  have frontCommands : Effect.commandsOf (.check :: waitEventEffects waitEvents) =
      Effect.commandsOf (waitEventEffects waitEvents) := rfl
  have frontCount : (Effect.applyAll (.check :: waitEventEffects waitEvents) list).getNumCommands =
      list.getNumCommands + waitEvents.numWaitEvents := by
    simp only [CommandList.getNumCommands, VPUJob.getNumCommands, frontJob, List.length_append, frontCommands,
      waitCount]
  refine ⟨graph, parsed, cmd, isGraph, acquired, ?_, identified, whole.isMutable, ?_⟩
  · have position : (list.vpuJob.commands ++ Effect.commandsOf (waitEventEffects waitEvents)).length =
        list.getNumCommands + waitEvents.numWaitEvents := by
      rw [List.length_append, waitCount]
      rfl
    have added : Effect.commandsOf (.check :: waitEventEffects waitEvents ++
        .note list.getNumCommands :: (AppendOperation.inferenceExpansion list.ctx hGraph hProfilingQuery ++
          signalEffects hSignalEvent)) =
        Effect.commandsOf (waitEventEffects waitEvents) ++
          cmd :: Effect.commandsOf (signalEffects hSignalEvent) := by
      rw [expanded, Effect.commandsOf_append, frontCommands]
      simp [Effect.commandsOf, Effect.added, nonempty]
    rw [Effect.applyAll_vpuJob, added, ← position, ← List.append_assoc]
    simp
  · rw [Effect.applyAll_append, Effect.applyAll_cons, Effect.applyAll_commandIdMap]
    · generalize Effect.applyAll (.check :: waitEventEffects waitEvents) list = middle at *
      simp only [Effect.apply, CommandList.noteCommandId, frontCount, frontMutable, frontMap]
      by_cases mapped : list.isMutable = true ∧ 0 < waitEvents.numWaitEvents ∧
          list.commandIdMap list.getNumCommands = none
      · rw [if_pos mapped, if_pos]
        simp [mapped.1, mapped.2.1, mapped.2.2]
      · rw [if_neg mapped, if_neg]
        · exact frontMap
        · intro condition
          simp only [Bool.and_eq_true, decide_eq_true_eq, Option.isNone_iff_eq_none] at condition
          exact mapped ⟨condition.1.1, by omega, condition.2⟩
    · rw [expanded]
      refine List.forall_mem_append.mpr ⟨?_, ?_⟩
      · intro effect member newCommandId
        rcases List.mem_cons.mp member with rfl | command
        · intro same
          cases same
        · rw [List.mem_singleton.mp command]
          intro same
          cases same
      · exact fun effect member => (CommandList.signalEffects_core hSignalEvent effect member).quiet

/-- The number that an id is translated to, before and after a successful `appendGraphExecute`. -/
theorem resolve_after {commandIdMap : Nat → Option Nat} {count waits : Nat} (id : Nat) :
    CommandList.resolve
        (if 0 < waits ∧ commandIdMap count = none then
          Function.update commandIdMap count (some (count + waits))
        else commandIdMap) id = count + waits ↔
      commandIdMap id = some (count + waits) ∨
        commandIdMap id = none ∧ (id = count ∨ id = count + waits) := by
  unfold CommandList.resolve
  split
  · rename_i mapped
    by_cases same : id = count
    · subst same
      simp [mapped.2]
    · rw [Function.update_of_ne same]
      cases entry : commandIdMap id with
      | none => simp [same]
      | some position => simp
  · rename_i unmapped
    cases entry : commandIdMap id with
    | none =>
      simp only [Option.getD_none, true_and, reduceCtorEq, false_or]
      constructor
      · exact .inr
      · rintro (rfl | same)
        · have none : waits = 0 := by
            by_contra some
            exact unmapped ⟨Nat.pos_of_ne_zero some, entry⟩
          omega
        · exact same
    | some position => simp

namespace CommandList

/-- An id stands for the graph command at a position: it resolves to it, and an update through it
reaches the named argument of that command and no other argument. -/
structure Addresses (list : CommandList) (id position inferenceId : Nat) : Prop where
  resolves : resolve list.commandIdMap id = position
  command : ∃ cmd, list.vpuJob.commands[position]? = some cmd ∧
    cmd.isInference.map VPUInferenceExecute.inferenceId = some inferenceId
  updates : ∀ commandOrder argumentOrder flags front tail index pointer next,
    updateMutableCommands commandOrder argumentOrder flags
        (front ++ .graphArgument id index pointer :: tail) list = (ZE_RESULT_SUCCESS, next) →
      ¬ Names list.commandIdMap position index tail →
      ∃ strides, argumentAt next.vpuJob.commands position index = some (some pointer, strides)
  only : ∀ commandOrder argumentOrder flags pNext result next,
    updateMutableCommands commandOrder argumentOrder flags pNext list = (result, next) →
      ∀ other index, ¬ Names list.commandIdMap other index pNext →
        argumentAt next.vpuJob.commands other index = argumentAt list.vpuJob.commands other index

theorem assigned_unnamed {commandIdMap : Nat → Option Nat} {position index : Nat} {pNext : List MutableDesc}
    (unnamed : ¬ Names commandIdMap position index pNext) (current : Option Nat) :
    assigned commandIdMap position index pNext current = current := by
  induction pNext generalizing current with
  | nil => rfl
  | cons desc rest ih =>
    have later : ¬ Names commandIdMap position index rest := by
      rintro ⟨commandId, pArgValue, member, target⟩
      exact unnamed ⟨commandId, pArgValue, List.mem_cons_of_mem desc member, target⟩
    cases desc with
    | graphArgument commandId argIndex pArgValue =>
      have different : ¬ (resolve commandIdMap commandId = position ∧ argIndex = index) := by
        rintro ⟨target, rfl⟩
        exact unnamed ⟨commandId, pArgValue, List.mem_cons_self .., target⟩
      rw [assigned, if_neg different]
      exact ih later current
    | strides userStrides => exact ih later current
    | unsupported => exact ih later current

/-- The last structure for an argument decides. -/
theorem assigned_last {commandIdMap : Nat → Option Nat} {id position index pointer : Nat}
    (front : List MutableDesc) {tail : List MutableDesc}
    (resolves : resolve commandIdMap id = position) (unnamed : ¬ Names commandIdMap position index tail)
    (current : Option Nat) :
    assigned commandIdMap position index (front ++ .graphArgument id index pointer :: tail) current =
      some pointer := by
  induction front generalizing current with
  | nil =>
    rw [List.nil_append, assigned, if_pos ⟨resolves, rfl⟩]
    exact assigned_unnamed unnamed _
  | cons desc rest ih =>
    cases desc with
    | graphArgument commandId argIndex pArgValue => exact ih _
    | strides userStrides => exact ih _
    | unsupported => exact ih _

/-- An id that resolves to the graph command addresses it. -/
theorem addresses_of_resolves {list : CommandList} {id position inferenceId : Nat}
    (resolves : resolve list.commandIdMap id = position)
    (command : ∃ cmd, list.vpuJob.commands[position]? = some cmd ∧
      cmd.isInference.map VPUInferenceExecute.inferenceId = some inferenceId) :
    list.Addresses id position inferenceId where
  resolves := resolves
  command := command
  updates := by
    intro commandOrder argumentOrder flags front tail index pointer next success unnamed
    obtain ⟨-, -, applied⟩ := updateMutableCommands_argument commandOrder argumentOrder flags
      (front ++ .graphArgument id index pointer :: tail) list
    rw [success] at applied
    exact applied rfl position index pointer (assigned_last front resolves unnamed none)
  only := by
    intro commandOrder argumentOrder flags pNext result next returned other index unnamed
    obtain ⟨-, kept, -⟩ := updateMutableCommands_argument commandOrder argumentOrder flags pNext list
    rw [returned] at kept
    exact kept other index unnamed

end CommandList

/-- After a successful `appendGraphExecute` an id addresses the new graph command until the next
reset exactly when no other translation of it is left over and the id is the number of commands
that the list had before, or when it leads to the position of the command anyway. -/
theorem commandId_addresses_iff {hGraph : Option Graph} {hProfilingQuery : Option GraphProfilingQuery}
    {hSignalEvent : Option Event} {waitEvents : WaitEvents} {list after : CommandList}
    (isMutable : list.isMutable = true)
    (appended : CommandList.appendGraphExecute hGraph hProfilingQuery hSignalEvent waitEvents list =
      (ZE_RESULT_SUCCESS, after)) (id : Nat) :
    ∃ graph parsed, hGraph = some graph ∧ graph.acquired = .ok parsed ∧
      ((∀ later : List ListCall, (∀ call ∈ later, call.isReset = false) →
          (runFrom ListCall.run after later).Addresses id
            (list.getNumCommands + waitEvents.numWaitEvents) parsed.inferenceId) ↔
        list.commandIdMap id = some (list.getNumCommands + waitEvents.numWaitEvents) ∨
          list.commandIdMap id = none ∧
            (id = list.getNumCommands ∨ id = list.getNumCommands + waitEvents.numWaitEvents)) := by
  obtain ⟨graph, parsed, cmd, isGraph, acquired, present, identified, -, entries⟩ :=
    appendGraphExecute_success appended
  refine ⟨graph, parsed, isGraph, acquired, ?_⟩
  simp only [isMutable, true_and] at entries
  rw [← resolve_after id, ← entries]
  constructor
  · intro addresses
    exact (addresses [] (by simp)).resolves
  · intro resolves later kept
    have continues := CommandList.run_continues kept (Nat.le_refl after.getNumCommands)
    have inside : list.getNumCommands + waitEvents.numWaitEvents < after.getNumCommands :=
      (List.getElem?_eq_some_iff.mp present).1
    refine CommandList.addresses_of_resolves ?_ ?_
    · unfold CommandList.resolve at resolves ⊢
      cases entry : after.commandIdMap id with
      | some position =>
        rw [entry] at resolves
        rw [continues.entries id position entry]
        exact resolves
      | none =>
        rw [entry] at resolves
        have same : id = list.getNumCommands + waitEvents.numWaitEvents := resolves
        rw [continues.known id (by omega) entry]
        exact resolves
    · obtain ⟨laterCmd, found, same⟩ := continues.at present
      exact ⟨laterCmd, found, same.isInference.trans identified⟩

namespace CommandList

/-- Every id that is translated lies below the number of commands. -/
def MappedBelow (list : CommandList) : Prop :=
  ∀ id position, list.commandIdMap id = some position → id < list.getNumCommands

theorem MappedBelow.of_same {list after : CommandList} (below : list.MappedBelow)
    (entries : after.commandIdMap = list.commandIdMap)
    (same : SameCommands list.vpuJob.commands after.vpuJob.commands) : after.MappedBelow := by
  intro id position entry
  rw [entries] at entry
  have bound := below id position entry
  simp only [getNumCommands, VPUJob.getNumCommands, same.length_eq] at bound ⊢
  exact bound

theorem MappedBelow.apply {list : CommandList} (below : list.MappedBelow) (effect : Effect) :
    (effect.apply list).MappedBelow := by
  cases effect with
  | note newCommandId =>
    simp only [Effect.apply, noteCommandId]
    split
    · rename_i noted
      simp only [Bool.and_eq_true, decide_eq_true_eq] at noted
      intro id position entry
      by_cases same : id = newCommandId
      · rw [same]
        exact noted.1.2
      · exact below id position (by simpa [Function.update_of_ne same] using entry)
    · exact below
  | command created =>
    intro id position entry
    have bound := below id position entry
    simp only [Effect.apply, getNumCommands, VPUJob.getNumCommands, List.length_append] at bound ⊢
    omega
  | _ => exact below

theorem MappedBelow.applyAll {list : CommandList} (below : list.MappedBelow) (effects : List Effect) :
    (Effect.applyAll effects list).MappedBelow := by
  induction effects generalizing list with
  | nil => exact below
  | cons effect rest ih => exact ih (below.apply effect)

theorem MappedBelow.call {list : CommandList} (below : list.MappedBelow) (call : ListCall)
    (kept : call.isReset = false) : (call.run list).MappedBelow := by
  cases call with
  | getNextCommandId graphArguments => exact below
  | append operation =>
    obtain ⟨done, left, -, after⟩ := operation.append_front list
    simp only [ListCall.run, after]
    exact below.applyAll done
  | reset => cases kept
  | close =>
    have same := list.vpuJob.closeCommands_same list.ctx
    simp only [ListCall.run, close]
    split
    · exact below
    · split
      · rename_i closed
        rw [closed] at same
        exact below.of_same rfl same
      · rename_i closed
        rw [closed] at same
        exact below.of_same rfl same
  | updateMutableCommands commandOrder argumentOrder flags pNext =>
    obtain ⟨-, entries⟩ := updateMutableCommands_frame commandOrder argumentOrder flags pNext list
    exact below.of_same entries (updateMutableCommands_argument commandOrder argumentOrder flags pNext list).1
  | context ctx => exact below

end CommandList

/-- In a list that was never reset an id that is taken right before the append has no entry. -/
theorem commandId_unmapped (ctx : VPUDeviceContext) {calls : List ListCall}
    (kept : ∀ call ∈ calls, call.isReset = false) :
    let list := runFrom ListCall.run ⟨true, ctx, .empty, fun _ => none⟩ calls
    list.commandIdMap list.getNumCommands = none := by
  have below : (runFrom ListCall.run ⟨true, ctx, .empty, fun _ => none⟩ calls).MappedBelow := by
    have initial : CommandList.MappedBelow ⟨true, ctx, .empty, fun _ => none⟩ := nofun
    generalize (⟨true, ctx, .empty, fun _ => none⟩ : CommandList) = list at initial ⊢
    induction calls generalizing list with
    | nil => exact initial
    | cons call rest ih =>
      have head := initial.call call (kept call (List.mem_cons_self ..))
      exact ih (fun other member => kept other (List.mem_cons_of_mem call member)) _ head
  intro list
  cases entry : list.commandIdMap list.getNumCommands with
  | none => rfl
  | some position => exact absurd (below _ position entry) (Nat.lt_irrefl _)

/-- A graph without arguments whose inference can be prepared. -/
def sampleGraph : Graph where
  parser := ⟨0⟩
  inputArgs := []
  outputArgs := []
  inputStrides := fun _ => none
  outputStrides := fun _ => none
  profilingOutputSize := 0
  initialized := .ok ()
  acquired := .ok ⟨7, ⟨1, [], []⟩, [eventPool]⟩

def appendSample (waits : Nat) (list : CommandList) : ZeResult × CommandList :=
  CommandList.appendGraphExecute (some sampleGraph) none none ⟨waits, some fun _ => some firstEvent⟩ list

theorem appendSample_success (waits : Nat) (list : CommandList)
    (success : (appendSample waits list).1 = ZE_RESULT_SUCCESS) :
    appendSample waits list = (ZE_RESULT_SUCCESS, (appendSample waits list).2) := Prod.ext success rfl

theorem commandId_addresses_iff_sample : ∃ graph parsed, some sampleGraph = some graph ∧
    graph.acquired = .ok parsed ∧
      ((∀ later : List ListCall, (∀ call ∈ later, call.isReset = false) →
          (runFrom ListCall.run (appendSample 1 (newCommandList true)).2 later).Addresses 0 1
            parsed.inferenceId) ↔
        (newCommandList true).commandIdMap 0 = some 1 ∨
          (newCommandList true).commandIdMap 0 = none ∧ (0 = 0 ∨ 0 = 1)) :=
  commandId_addresses_iff rfl
    (appendSample_success 1 (newCommandList true) (by decide +kernel)) 0

/-- The list after one graph execution behind a wait and a reset. -/
def resetCommandList : CommandList := (appendSample 1 (newCommandList true)).2.reset.2

/-- Iteration in the order of insertion. -/
def insertionOrder {α : Type} : MapOrder α := ⟨fun entries => entries, fun entries => .refl entries⟩

/-- After the reset the id zero is handed out again, but it keeps its old translation: the new
graph command behind two waits stands at position two, the id leads to the second wait, and the
update through it fails. -/
theorem stale_commandId : resetCommandList.getNextCommandId true = .ok 0 ∧
    (appendSample 2 resetCommandList).1 = ZE_RESULT_SUCCESS ∧
    ((appendSample 2 resetCommandList).2.vpuJob.commands[2]?.bind VPUCommand.isInference).isSome = true ∧
    CommandList.resolve (appendSample 2 resetCommandList).2.commandIdMap 0 = 1 ∧
    (CommandList.updateMutableCommands insertionOrder insertionOrder 0 [.graphArgument 0 0 4096]
      (appendSample 2 resetCommandList).2).1 = ZE_RESULT_ERROR_INVALID_ARGUMENT :=
  ⟨rfl, by decide +kernel, by decide +kernel, by decide +kernel, by decide +kernel⟩

end NpuDriver
