import NpuDriver.Proof.JobShares

/-! Which handles the list of a command buffer has to have, and which operations keep them in it. -/

namespace NpuDriver

open Library

/-- Handles of the buffer objects that commands are associated with. -/
def objectHandles (cmds : List VPUCommand) : List Nat :=
  cmds.flatMap fun cmd => cmd.bufferObjects.map VPUBufferObject.handle

/-- Handles of the scratch buffers that inferences were patched with. -/
def scratchHandles (cmds : List VPUCommand) : List Nat :=
  cmds.filterMap fun cmd => cmd.isInference.bind fun inference =>
    if inference.sharedScratchSize = 0 then none else some inference.lastScratchBoHandle

theorem mem_scratchHandles {cmds : List VPUCommand} : handle ∈ scratchHandles cmds ↔
    ∃ cmd ∈ cmds, ∃ inference, cmd.isInference = some inference ∧ inference.sharedScratchSize ≠ 0 ∧
      inference.lastScratchBoHandle = handle := by
  simp only [scratchHandles, List.mem_filterMap, Option.bind_eq_some_iff]
  refine exists_congr fun cmd => and_congr_right fun _ => exists_congr fun inference => and_congr_right fun _ => ?_
  split <;> simp [*]

theorem mem_objectHandles {cmds : List VPUCommand} : handle ∈ objectHandles cmds ↔
    ∃ cmd ∈ cmds, ∃ bo ∈ cmd.bufferObjects, bo.handle = handle := by
  simp [objectHandles]

/-- The number of argument buffers of an inference. -/
def VPUInferenceExecute.argumentCount (inference : VPUInferenceExecute) : Nat :=
  inference.hpi.inputSizes.length + inference.hpi.outputSizes.length +
    inference.profilingQuery.toList.length

/-- An inference remembers one handle for each of its arguments. -/
def VPUCommand.Balanced (cmd : VPUCommand) : Prop :=
  ∀ inference, cmd.isInference = some inference → inference.userArgHandles.length = inference.argumentCount

theorem getDeviceBuffers_length {ctx : VPUDeviceContext} {ptrs sizes : List Nat}
    {bos : List VPUBufferObject} (found : getDeviceBuffers ctx ptrs sizes = some bos) :
    bos.length = sizes.length := by
  induction ptrs generalizing sizes bos with
  | nil =>
    cases sizes with
    | nil =>
      cases found
      rfl
    | cons size rest => cases found
  | cons ptr others ih =>
    cases sizes with
    | nil => cases found
    | cons size rest =>
      unfold getDeviceBuffers at found
      split at found
      · cases found
      · split at found
        · cases found
        · obtain ⟨tail, located, rfl⟩ := Option.map_eq_some_iff.mp found
          simp [ih located]

/-- The lookups of the arguments yield one buffer for each of them. -/
theorem applyInputOutputs_length {ctx next : VPUDeviceContext} {hpi : HostParsedInference}
    {inputs outputs : List Nat} {profilingQuery : Option GraphProfilingQuery} {bos : List VPUBufferObject}
    (applied : applyInputOutputs ctx hpi inputs outputs profilingQuery = (some bos, next)) :
    bos.length = hpi.inputSizes.length + hpi.outputSizes.length + profilingQuery.toList.length := by
  unfold applyInputOutputs at applied
  split at applied
  · cases applied
  · rename_i found lookups
    simp only at applied
    split at applied
    · cases applied
      unfold findArgumentBuffers at lookups
      split at lookups
      · cases lookups
      · rename_i inputBos inputsFound
        split at lookups
        · cases lookups
        · rename_i outputBos outputsFound
          obtain ⟨profiling, profilingFound, rfl⟩ := Option.map_eq_some_iff.mp lookups
          have count : profiling.length = profilingQuery.toList.length := by
            cases profilingQuery with
            | none =>
              cases profilingFound
              rfl
            | some query =>
              simp only [getProfilingBuffers] at profilingFound
              split at profilingFound
              · cases profilingFound
              · split at profilingFound
                · cases profilingFound
                · cases profilingFound
                  rfl
          simp [getDeviceBuffers_length inputsFound, getDeviceBuffers_length outputsFound, count,
            Nat.add_assoc]
    · cases applied

theorem VPUCommand.Balanced.refreshed {before after : VPUCommand} (balanced : before.Balanced)
    (refreshed : VPUCommand.Refreshed scratchBuffer before after) : after.Balanced := by
  intro inference is
  cases former : before.isInference with
  | none =>
    rw [refreshed.1 former] at is
    cases is
  | some old =>
    obtain ⟨updated, isUpdated, changed⟩ := refreshed.2 old former
    rw [isUpdated] at is
    cases is
    have count : inference.argumentCount = old.argumentCount := by
      simp [VPUInferenceExecute.argumentCount, changed.hpi, changed.profilingQuery]
    rcases changed.handles with same | ⟨ctx, userArgs, next, applied, handles⟩
    · rw [same, count]
      exact balanced old former
    · rw [handles, count, List.length_map]
      exact applyInputOutputs_length applied

/-- A created inference command remembers one handle for each of its arguments. -/
theorem VPUInferenceExecute.create_balanced {ctx : VPUDeviceContext} {parser : ElfParser}
    {cmdHpi : HostParsedInference} {inputs outputs : List Nat}
    {inputStrides outputStrides : Nat → Option ArgumentStrides}
    {profilingQuery : Option GraphProfilingQuery} {inferenceId : Nat} {bos : List VPUBufferObject}
    {cmd : VPUCommand}
    (created : (VPUInferenceExecute.create ctx parser cmdHpi inputs outputs inputStrides outputStrides
      profilingQuery inferenceId bos).1 = .ok cmd) : cmd.Balanced := by
  unfold VPUInferenceExecute.create at created
  split at created
  · cases created
  · rename_i userBos next applied
    split at created
    · cases created
    · split at created
      · cases created
      · cases created
        intro inference is
        cases is
        rw [List.length_map]
        exact applyInputOutputs_length applied

theorem mem_appendAssociateBufferObjects {bos added : List VPUBufferObject}
    (member : bo ∈ appendAssociateBufferObjects bos added) : bo ∈ bos ∨ bo ∈ added := by
  induction added generalizing bos with
  | nil => exact .inl member
  | cons first rest ih =>
    rcases ih member with known | later
    · unfold appendAssociateBufferObject at known
      split at known
      · exact .inl known
      · rcases List.mem_append.mp known with known | same
        · exact .inl known
        · exact .inr (List.mem_cons.mpr (.inl (List.mem_singleton.mp same)))
    · exact .inr (List.mem_cons_of_mem first later)

/-- Every buffer that a command is associated with after its update was known before or has its handle
brought in by the update. -/
theorem updatePlan_known {cmd : VPUCommand} (balanced : cmd.Balanced)
    (scratchBuffer : Option VPUBufferObject) (ctx : VPUDeviceContext) :
    ∀ bo ∈ (cmd.updatePlan scratchBuffer ctx).objects, bo ∈ cmd.bufferObjects ∨
      ∃ edit ∈ (cmd.updatePlan scratchBuffer ctx).edits, bo.handle ∈ edit.added := by
  intro bo member
  unfold VPUCommand.updatePlan at member ⊢
  split at member
  · exact .inl member
  · rename_i inference is
    split at member
    · exact .inl member
    · rename_i needed
      rw [if_neg needed]
      split at member
      · exact .inl member
      · rename_i userArgs next applied
        simp only
        rcases mem_appendAssociateBufferObjects member with fixed | argument
        · exact .inl (List.mem_of_mem_take fixed)
        · have same : inference.userArgHandles.length = (userArgs.map VPUBufferObject.handle).length := by
            rw [balanced inference is, List.length_map, applyInputOutputs_length applied]
            rfl
          refine .inr ⟨⟨inference.userArgHandles, userArgs.map VPUBufferObject.handle⟩,
            List.mem_append_right _ ?_, List.mem_map.mpr ⟨bo, argument, rfl⟩⟩
          simp [VPUInferenceExecute.argumentEdits, same]

theorem updatedObjects_known (scratchBuffer : Option VPUBufferObject) {cmds : List VPUCommand}
    (balanced : ∀ cmd ∈ cmds, cmd.Balanced) (ctx : VPUDeviceContext) :
    ∀ objects ∈ updatedObjects scratchBuffer cmds ctx, ∀ bo ∈ objects, bo.handle ∈ objectHandles cmds ∨
      ∃ edit ∈ updateEdits scratchBuffer cmds ctx, bo.handle ∈ edit.added := by
  induction cmds generalizing ctx with
  | nil => simp [updatedObjects]
  | cons cmd rest ih =>
    have others : ∀ other ∈ rest, other.Balanced := fun other member =>
      balanced other (List.mem_cons_of_mem cmd member)
    have tail : ∀ handle ∈ objectHandles rest, handle ∈ objectHandles (cmd :: rest) := by
      intro handle member
      simp only [objectHandles, List.flatMap_cons, List.mem_append] at member ⊢
      exact .inr member
    intro objects listed bo member
    unfold updatedObjects at listed
    rcases List.mem_cons.mp listed with rfl | later
    · rcases updatePlan_known (balanced cmd (List.mem_cons_self ..)) scratchBuffer ctx bo member with
        known | ⟨edit, planned, added⟩
      · exact .inl (mem_objectHandles.mpr ⟨cmd, List.mem_cons_self .., bo, known, rfl⟩)
      · exact .inr ⟨edit, List.mem_append_left _ planned, added⟩
    · split at later
      · rename_i success
        rcases ih others _ objects later bo member with known | ⟨edit, planned, added⟩
        · exact .inl (tail _ known)
        · refine .inr ⟨edit, ?_, added⟩
          simp only [updateEdits, success, ↓reduceIte]
          exact List.mem_append_right _ planned
      · obtain ⟨other, present, rfl⟩ := List.mem_map.mp later
        exact .inl (mem_objectHandles.mpr ⟨other, List.mem_cons_of_mem cmd present, bo, member, rfl⟩)

theorem VPUCommandBuffer.plannedObjects_known (cb : VPUCommandBuffer) {cmds : List VPUCommand}
    (balanced : ∀ cmd ∈ cmds, cmd.Balanced) (ctx : VPUDeviceContext) :
    ∀ objects ∈ cb.plannedObjects cmds ctx, ∀ bo ∈ objects, bo.handle ∈ objectHandles cmds ∨
      ∃ edit ∈ cb.plannedEdits cmds ctx, bo.handle ∈ edit.added := by
  unfold plannedObjects plannedEdits
  split
  · intro objects listed bo member
    obtain ⟨cmd, present, rfl⟩ := List.mem_map.mp listed
    exact .inl (mem_objectHandles.mpr ⟨cmd, present, bo, member, rfl⟩)
  · exact updatedObjects_known _ balanced _

namespace VPUCommandBuffer

theorem addStream_scratchSize {cb : VPUCommandBuffer} {cmd : VPUCommand}
    (success : (cb.addStream cmd offset descriptors).success = true) :
    (cb.addStream cmd offset descriptors).cmdBuffer.inferenceScratchSize =
      (cmd.isInference.elim cb.inferenceScratchSize fun inference =>
        max cb.inferenceScratchSize inference.sharedScratchSize) := by
  unfold addStream at success ⊢
  split
  · rename_i refused
    simp [refused] at success
  · cases cmd.isInference <;> rfl

theorem addCommand_scratchSize {cb : VPUCommandBuffer} {cmd : VPUCommand}
    (success : (cb.addCommand cmd offset descriptors).success = true) :
    (cb.addCommand cmd offset descriptors).cmdBuffer.inferenceScratchSize =
      (cmd.isInference.elim cb.inferenceScratchSize fun inference =>
        max cb.inferenceScratchSize inference.sharedScratchSize) := by
  have patched : ∀ vpuAddr, (cmd.patchDescriptorAddress vpuAddr).isInference = cmd.isInference := by
    intro vpuAddr
    unfold VPUCommand.patchDescriptorAddress
    cases kind : cmd.command <;> simp [VPUCommand.isInference, kind]
  unfold addCommand at success ⊢
  by_cases overlapping : descriptors ≠ 0 ∧ offset ≥ descriptors
  · simp [overlapping] at success
  · simp only [if_neg overlapping] at success ⊢
    by_cases carries : descriptors ≠ 0 ∧ cmd.getDescriptorSize > 0
    · simp only [if_pos carries] at success ⊢
      split
      · rename_i refused
        simp [refused] at success
      · rename_i image copied
        simp only [copied] at success
        rw [addStream_scratchSize success, patched]
        rfl
    · simp only [if_neg carries] at success ⊢
      rw [addStream_scratchSize success]
      rfl

/-- The scratch size of a command buffer is large enough for each of its inferences, and no larger
than one of them needs. -/
theorem addCommands_scratchSize {cb filled : VPUCommandBuffer} {cmds patched : List VPUCommand}
    (success : cb.addCommands cmds offset descriptors = (some (filled, offset', descriptors'), patched)) :
    cb.inferenceScratchSize ≤ filled.inferenceScratchSize ∧
      (∀ cmd ∈ cmds, ∀ inference, cmd.isInference = some inference →
        inference.sharedScratchSize ≤ filled.inferenceScratchSize) ∧
      (filled.inferenceScratchSize = cb.inferenceScratchSize ∨ ∃ cmd ∈ cmds, ∃ inference,
        cmd.isInference = some inference ∧ inference.sharedScratchSize = filled.inferenceScratchSize) := by
  induction cmds generalizing cb offset descriptors patched with
  | nil =>
    cases success
    exact ⟨Nat.le_refl _, nofun, .inl rfl⟩
  | cons cmd rest ih =>
    unfold addCommands at success
    split at success
    · cases success
    · rename_i fenced fencing
      have same : fenced.inferenceScratchSize = cb.inferenceScratchSize := by
        split at fencing
        · unfold setSyncFenceAddr at fencing
          split at fencing
          · cases fencing
          · split at fencing
            · cases fencing
            · split at fencing
              · cases fencing
                rfl
              · cases fencing
        · cases fencing
          rfl
      simp only at success
      split at success
      · cases success
      · rename_i added
        have placed := addCommand_scratchSize (by simpa using added)
        simp only [Prod.mk.injEq] at success
        obtain ⟨grown, others, origin⟩ := ih (Prod.ext success.1 rfl)
        rw [placed, same] at grown origin
        have later : (∃ cmd ∈ rest, ∃ inference, cmd.isInference = some inference ∧
              inference.sharedScratchSize = filled.inferenceScratchSize) →
            ∃ other ∈ cmd :: rest, ∃ inference, other.isInference = some inference ∧
              inference.sharedScratchSize = filled.inferenceScratchSize := by
          rintro ⟨other, member, needed⟩
          exact ⟨other, List.mem_cons_of_mem cmd member, needed⟩
        cases kind : cmd.isInference with
        | none =>
          simp only [kind, Option.elim_none] at grown origin
          refine ⟨grown, ?_, origin.imp_right later⟩
          intro other member inference is
          rcases List.mem_cons.mp member with rfl | behind
          · rw [kind] at is
            cases is
          · exact others other behind inference is
        | some inference =>
          simp only [kind, Option.elim_some] at grown origin
          refine ⟨(Nat.le_max_left ..).trans grown, ?_, ?_⟩
          · intro other member needed is
            rcases List.mem_cons.mp member with rfl | behind
            · rw [kind] at is
              cases is
              exact (Nat.le_max_right ..).trans grown
            · exact others other behind needed is
          · rcases origin with unchanged | needed
            · rcases Nat.le_total cb.inferenceScratchSize inference.sharedScratchSize with small | large
              · rw [Nat.max_eq_right small] at unchanged
                exact .inr ⟨cmd, List.mem_cons_self .., inference, kind, unchanged.symm⟩
              · rw [Nat.max_eq_left large] at unchanged
                exact .inl unchanged
            · exact .inr (later needed)

theorem allocateCommandBuffer_scratchSize {cb : VPUCommandBuffer} {cmds patched : List VPUCommand}
    (success : allocateCommandBuffer ctx position cmds = (some cb, patched, next)) :
    (∀ cmd ∈ cmds, ∀ inference, cmd.isInference = some inference →
      inference.sharedScratchSize ≤ cb.inferenceScratchSize) ∧
      (cb.inferenceScratchSize ≠ 0 → ∃ cmd ∈ cmds, ∃ inference, cmd.isInference = some inference ∧
        inference.sharedScratchSize ≠ 0) := by
  unfold allocateCommandBuffer at success
  split at success
  · cases success
  · simp only at success
    split at success
    · cases success
    · rename_i buffer next' _
      split at success
      · cases success
      · rename_i initial header
        have fresh : initial.inferenceScratchSize = 0 := by
          unfold initHeader at header
          split at header
          · cases header
          · cases header
            rfl
        split at success
        · cases success
        · rename_i filled offset descEnd commands added
          simp only [Prod.mk.injEq] at success
          obtain ⟨finished, -, -⟩ := success
          obtain ⟨-, large, origin⟩ := addCommands_scratchSize added
          have filled_size : (∀ cmd ∈ cmds, ∀ inference, cmd.isInference = some inference →
              inference.sharedScratchSize ≤ filled.inferenceScratchSize) ∧
              (filled.inferenceScratchSize ≠ 0 → ∃ cmd ∈ cmds, ∃ inference,
                cmd.isInference = some inference ∧ inference.sharedScratchSize ≠ 0) := by
            refine ⟨large, fun used => ?_⟩
            rcases origin with unchanged | ⟨cmd, member, inference, is, same⟩
            · exact absurd (unchanged.trans fresh) used
            · exact ⟨cmd, member, inference, is, same ▸ used⟩
          unfold finish at finished
          rw [nopCommand_create] at finished
          simp only at finished
          split at finished
          · cases finished
          · rename_i closing
            split at finished
            · cases finished
            · split at finished
              · cases finished
              · cases finished
                rw [addCommand_scratchSize (by simpa using closing)]
                exact filled_size

end VPUCommandBuffer

end NpuDriver
