import NpuDriver.Proof.HandleListing

/-! The handles that a command buffer lists between and during submissions, and the operations that
keep them listed. -/

namespace NpuDriver

open Library

def VPUCommandBuffer.guardHandles (cb : VPUCommandBuffer) : List Nat :=
  cb.waitBoGuard.toList.map VPUBufferObject.handle

/-- The handles that the list of a command buffer has to have between submissions. -/
def keptHandles (cb : VPUCommandBuffer) (cmds : List VPUCommand) : List Nat :=
  cb.buffer.handle :: objectHandles cmds ++ cb.guardHandles

/-- The list of handles of a command buffer between submissions. -/
structure Listed (cb : VPUCommandBuffer) (cmds : List VPUCommand) : Prop where
  own : cb.bufferHandles.head? = some cb.buffer.handle
  nodup : cb.bufferHandles.Nodup
  kept : ∀ handle ∈ keptHandles cb cmds, handle ∈ cb.bufferHandles
  balanced : ∀ cmd ∈ cmds, cmd.Balanced
  scratchSize : ∀ cmd ∈ cmds, ∀ inference, cmd.isInference = some inference →
    inference.sharedScratchSize ≠ 0 → cb.inferenceScratchSize ≠ 0

/-- The list of handles of a command buffer that has been updated for a submission. -/
structure Ready (cb : VPUCommandBuffer) (cmds : List VPUCommand) : Prop extends Listed cb cmds where
  scratch : ∀ handle ∈ scratchHandles cmds, handle ∈ cb.bufferHandles

/-- What a list of handles that is passed to the kernel with a command buffer has to contain. -/
structure Complete (cb : VPUCommandBuffer) (cmds : List VPUCommand) (handles : List Nat) : Prop where
  own : handles.head? = some cb.buffer.handle
  objects : ∀ cmd ∈ cmds, ∀ bo ∈ cmd.bufferObjects, bo.handle ∈ handles
  scratch : ∀ handle ∈ scratchHandles cmds, handle ∈ handles
  waited : ∀ bo, cb.waitBoGuard = some bo → bo.handle ∈ handles
  nodup : handles.Nodup

theorem mem_keptHandles {cb : VPUCommandBuffer} {cmds : List VPUCommand} : handle ∈ keptHandles cb cmds ↔
    handle = cb.buffer.handle ∨ handle ∈ objectHandles cmds ∨
      ∃ bo, cb.waitBoGuard = some bo ∧ bo.handle = handle := by
  simp [keptHandles, VPUCommandBuffer.guardHandles]

theorem head?_of_front {xs ys : List Nat} (front : xs <+: ys) (head : xs.head? = some x) :
    ys.head? = some x := by
  obtain ⟨rest, rfl⟩ := front
  cases xs with
  | nil => cases head
  | cons first others => exact head

/-- What is left of a list still starts with its first element, if that is left at all. -/
theorem head?_of_sublist {xs ys : List Nat} (sublist : xs.Sublist ys) (head : ys.head? = some x)
    (nodup : ys.Nodup) (present : x ∈ xs) : xs.head? = some x := by
  cases sublist with
  | slnil => exact absurd present List.not_mem_nil
  | cons first shorter =>
    cases head
    exact absurd (shorter.subset present) (List.nodup_cons.mp nodup).1
  | cons_cons first shorter => exact head

/-- A longer list without repetitions is as good, as long as a new guard is in it. -/
theorem Listed.of_front {before after : VPUCommandBuffer} {cmds : List VPUCommand}
    (listed : Listed before cmds) (buffer : after.buffer = before.buffer)
    (size : after.inferenceScratchSize = before.inferenceScratchSize)
    (front : before.bufferHandles <+: after.bufferHandles) (nodup : after.bufferHandles.Nodup)
    (guarded : ∀ bo, after.waitBoGuard = some bo → bo.handle ∈ after.bufferHandles) : Listed after cmds where
  own := by
    rw [buffer]
    exact head?_of_front front listed.own
  nodup := nodup
  kept := by
    intro handle member
    rcases mem_keptHandles.mp member with rfl | object | ⟨bo, guard, rfl⟩
    · rw [buffer]
      exact front.subset (listed.kept _ (mem_keptHandles.mpr (.inl rfl)))
    · exact front.subset (listed.kept _ (mem_keptHandles.mpr (.inr (.inl object))))
    · exact guarded bo guard
  balanced := listed.balanced
  scratchSize := by
    rw [size]
    exact listed.scratchSize

theorem Listed.patched {before after : VPUCommandBuffer} {cmds : List VPUCommand}
    (listed : Listed before cmds) (patched : before.Patched after) : Listed after cmds := by
  refine listed.of_front patched.buffer patched.inferenceScratchSize patched.handles
    (patched.nodup listed.nodup) ?_
  intro bo guarded
  rcases patched.waitBoGuard with same | present
  · rw [same] at guarded
    exact patched.handles.subset (listed.kept _ (mem_keptHandles.mpr (.inr (.inr ⟨bo, guarded, rfl⟩))))
  · exact present bo guarded

theorem Ready.patched {before after : VPUCommandBuffer} {cmds : List VPUCommand}
    (ready : Ready before cmds) (patched : before.Patched after) : Ready after cmds :=
  ⟨ready.toListed.patched patched, fun handle member => patched.handles.subset (ready.scratch handle member)⟩

/-- A new command buffer lists the buffers of its commands. -/
theorem Listed.allocated {cb final : VPUCommandBuffer} {cmds patched : List VPUCommand}
    (allocated : VPUCommandBuffer.allocateCommandBuffer ctx position cmds = (some cb, patched, next))
    (revised : cb.Patched final) (balanced : ∀ cmd ∈ cmds, cmd.Balanced) : Listed final patched := by
  have size := (VPUCommandBuffer.allocateCommandBuffer_scratchSize allocated).1
  obtain ⟨patched_eq, -, -, -, frame, handles⟩ := VPUCommandBuffer.allocateCommandBuffer_some allocated
  have associated : List.Forall₂ (fun cmd patched => patched.bufferObjects = cmd.bufferObjects ∧
      patched.isInference = cmd.isInference) cmds patched := by
    rw [patched_eq]
    exact patchAddresses_associated _ _ cmds
  have objects : ∀ handle ∈ objectHandles patched, handle ∈ objectHandles cmds := by
    intro handle member
    obtain ⟨cmd, present, bo, associatedBo, rfl⟩ := mem_objectHandles.mp member
    obtain ⟨source, original, same, -⟩ := exists_partner associated cmd present
    exact mem_objectHandles.mpr ⟨source, original, bo, same ▸ associatedBo, rfl⟩
  have built : Listed cb patched := by
    refine ⟨?_, ?_, ?_, ?_, ?_⟩
    · rw [handles]
      exact head?_of_front (prefix_addAllUnique [cb.buffer.handle] _) rfl
    · rw [handles]
      exact addAllUnique_nodup (List.nodup_singleton _) _
    · intro handle member
      rw [handles, mem_addAllUnique]
      rcases mem_keptHandles.mp member with rfl | object | ⟨bo, guarded, rfl⟩
      · exact .inl (List.mem_singleton_self _)
      · exact .inr (objects handle object)
      · rw [frame.waitBoGuard] at guarded
        cases guarded
    · intro cmd present inference is
      obtain ⟨source, original, -, same⟩ := exists_partner associated cmd present
      exact balanced source original inference (same ▸ is)
    · intro cmd present inference is
      obtain ⟨source, original, -, same⟩ := exists_partner associated cmd present
      have large := size source original inference (same ▸ is)
      intro used
      omega
  exact built.patched revised

/-- The handles that an update must not give up: those of the buffers that are in use after it. -/
def Share.usedHandles (share : Share) (ctx : VPUDeviceContext) : List Nat :=
  (share.cmdBuffer.plannedObjects share.commands ctx).flatten.map VPUBufferObject.handle ++
    share.cmdBuffer.guardHandles ++ (share.cmdBuffer.plannedScratch ctx).1.join.toList.map VPUBufferObject.handle

/-- The replacements of an update leave the own handle where it is, and give up no handle that is in
use after it. -/
def Share.UpdateSpares (share : Share) (ctx : VPUDeviceContext) : Prop :=
  (∀ edit ∈ share.cmdBuffer.plannedEdits share.commands ctx, share.cmdBuffer.buffer.handle ∉ edit.removed) ∧
    ∀ handle ∈ share.usedHandles ctx, ¬ Edit.GivesUp (share.cmdBuffer.plannedEdits share.commands ctx) handle

instance (share : Share) (ctx : VPUDeviceContext) : Decidable (share.UpdateSpares ctx) :=
  inferInstanceAs (Decidable (_ ∧ _))

theorem Listed.update {share : Share} {ctx : VPUDeviceContext} (listed : Listed share.cmdBuffer share.commands)
    (spares : share.UpdateSpares ctx) :
    Listed (share.update ctx).2.1.cmdBuffer (share.update ctx).2.1.commands ∧
      ((share.update ctx).1 = true →
        Ready (share.update ctx).2.1.cmdBuffer (share.update ctx).2.1.commands) := by
  obtain ⟨cb, cmds⟩ := share
  obtain ⟨ownStays, usedStay⟩ := spares
  obtain ⟨success, scratchBuffer, updated, next, step, objects, refreshed, reached, -, acquired⟩ :=
    cb.updateCommands_plan cmds ctx
  have result : Share.update ⟨cb, cmds⟩ ctx = (success, ⟨(cb.withScratchBuffer scratchBuffer).withHandles
      (Edit.applyAll (cb.plannedEdits cmds ctx) cb.bufferHandles), updated⟩, next) := by
    simp only [Share.update, step]
  rw [result]
  have known : ∀ handle, (handle ∈ cb.bufferHandles ∨ ∃ edit ∈ cb.plannedEdits cmds ctx, handle ∈ edit.added) →
      handle ∈ Share.usedHandles ⟨cb, cmds⟩ ctx →
      handle ∈ Edit.applyAll (cb.plannedEdits cmds ctx) cb.bufferHandles :=
    fun handle present used => Edit.mem_applyAll.mpr ⟨present, usedStay handle used⟩
  have objectPresent : ∀ handle ∈ objectHandles cmds, handle ∈ cb.bufferHandles := fun handle member =>
    listed.kept handle (mem_keptHandles.mpr (.inr (.inl member)))
  have after : Listed ((cb.withScratchBuffer scratchBuffer).withHandles
      (Edit.applyAll (cb.plannedEdits cmds ctx) cb.bufferHandles)) updated := by
    have front : [cb.buffer.handle] <+: cb.bufferHandles := by
      cases handles : cb.bufferHandles with
      | nil =>
        have own := listed.own
        rw [handles] at own
        cases own
      | cons first rest =>
        have own := listed.own
        rw [handles] at own
        cases own
        exact List.prefix_append [_] rest
    have stays : [cb.buffer.handle] <+: Edit.applyAll (cb.plannedEdits cmds ctx) cb.bufferHandles :=
      Edit.prefix_applyAll front (by simpa using ownStays)
    refine ⟨head?_of_front stays rfl, Edit.applyAll_nodup _ listed.nodup, ?_, ?_, ?_⟩
    · intro handle member
      rcases mem_keptHandles.mp member with rfl | object | ⟨bo, guarded, rfl⟩
      · exact stays.subset (List.mem_singleton_self _)
      · obtain ⟨cmd, present, bo, associated, rfl⟩ := mem_objectHandles.mp object
        have planned : cmd.bufferObjects ∈ cb.plannedObjects cmds ctx := by
          rw [← objects]
          exact List.mem_map.mpr ⟨cmd, present, rfl⟩
        refine known bo.handle ?_ ?_
        · exact (cb.plannedObjects_known listed.balanced ctx _ planned bo associated).imp_left
            (objectPresent bo.handle)
        · exact List.mem_append_left _ (List.mem_append_left _
            (List.mem_map.mpr ⟨bo, List.mem_flatten.mpr ⟨_, planned, associated⟩, rfl⟩))
      · refine known bo.handle (.inl (listed.kept _ (mem_keptHandles.mpr (.inr (.inr ⟨bo, guarded, rfl⟩))))) ?_
        refine List.mem_append_left _ (List.mem_append_right _ ?_)
        have same : cb.waitBoGuard = some bo := guarded
        simp [VPUCommandBuffer.guardHandles, same]
    · intro cmd present
      obtain ⟨before, original, changed⟩ := exists_partner refreshed cmd present
      exact (listed.balanced before original).refreshed changed
    · intro cmd present inference is used
      obtain ⟨before, original, changed⟩ := exists_partner refreshed cmd present
      cases former : before.isInference with
      | none =>
        rw [changed.1 former] at is
        cases is
      | some old =>
        obtain ⟨final, isFinal, same⟩ := changed.2 old former
        rw [isFinal] at is
        cases is
        exact listed.scratchSize before original old former (same.sharedScratchSize ▸ used)
  refine ⟨after, fun succeeded => ⟨after, ?_⟩⟩
  simp only at succeeded
  subst succeeded
  obtain ⟨planned, scratched⟩ := reached rfl
  intro handle member
  obtain ⟨cmd, present, inference, is, used, rfl⟩ := mem_scratchHandles.mp member
  obtain ⟨before, original, changed⟩ := exists_partner scratched cmd present
  cases former : before.isInference with
  | none =>
    rw [changed.1 former] at is
    cases is
  | some old =>
    obtain ⟨final, isFinal, same⟩ := changed.2 old former
    rw [isFinal] at is
    cases is
    have usedBefore : old.sharedScratchSize ≠ 0 := same.sharedScratchSize ▸ used
    obtain ⟨bo, rfl⟩ := acquired rfl (listed.scratchSize before original old former usedBefore)
    rw [same.scratch usedBefore bo rfl]
    refine known bo.handle (.inr (VPUCommandBuffer.updateCommands_scratch (by rw [step]) planned original former
      usedBefore)) ?_
    exact List.mem_append_right _ (by simp [planned])

/-- A preemption buffer that would be added is not listed yet. -/
def VPUCommandBuffer.AddsFresh (cb : VPUCommandBuffer) (bo : Option VPUBufferObject) : Prop :=
  cb.preemptionBuffer = none → ∀ preemption ∈ bo, preemption.handle ∉ cb.bufferHandles

instance (cb : VPUCommandBuffer) (bo : Option VPUBufferObject) : Decidable (cb.AddsFresh bo) :=
  inferInstanceAs (Decidable (_ → _))

theorem Ready.addPreemptionBuffer {cb : VPUCommandBuffer} {cmds : List VPUCommand} (ready : Ready cb cmds)
    {bo : Option VPUBufferObject} (fresh : cb.AddsFresh bo) : Ready (cb.addPreemptionBuffer bo) cmds := by
  unfold VPUCommandBuffer.addPreemptionBuffer
  split
  · rename_i preemption none
    have absent := fresh none preemption rfl
    have front : cb.bufferHandles <+: cb.bufferHandles ++ [preemption.handle] := List.prefix_append ..
    refine ⟨ready.toListed.of_front rfl rfl front ?_ ?_, fun handle member => front.subset (ready.scratch handle member)⟩
    · simpa [List.concat_eq_append] using ready.nodup.concat absent
    · intro bo guarded
      exact front.subset (ready.kept _ (mem_keptHandles.mpr (.inr (.inr ⟨bo, guarded, rfl⟩))))
  · exact ready

/-- The handle that a successful wait takes out of the list is none of those that are needed. -/
def VPUCommandBuffer.ReleaseSpares (cb : VPUCommandBuffer) (needed : List Nat) : Prop :=
  match cb.preemptionBuffer, cb.preemptionBufferIndex with
  | some _, some index =>
    match cb.bufferHandles[index]? with
    | none => False
    | some handle => handle ∉ needed
  | _, _ => True

instance (cb : VPUCommandBuffer) (needed : List Nat) : Decidable (cb.ReleaseSpares needed) := by
  unfold VPUCommandBuffer.ReleaseSpares
  split
  · split <;> infer_instance
  · infer_instance

/-- What a successful wait does to the list of handles. -/
theorem VPUCommandBuffer.ReleaseSpares.handles {cb : VPUCommandBuffer} {needed : List Nat}
    (spares : cb.ReleaseSpares needed) :
    cb.release.bufferHandles.Sublist cb.bufferHandles ∧
      ∀ handle ∈ needed, handle ∈ cb.bufferHandles → handle ∈ cb.release.bufferHandles := by
  unfold VPUCommandBuffer.ReleaseSpares at spares
  unfold VPUCommandBuffer.release
  cases held : cb.preemptionBuffer with
  | none => exact ⟨List.Sublist.refl _, fun _ _ present => present⟩
  | some preemption =>
    cases stored : cb.preemptionBufferIndex with
    | none => exact ⟨List.Sublist.refl _, fun _ _ present => present⟩
    | some index =>
      simp only [held, stored] at spares
      split at spares
      · exact spares.elim
      · rename_i released found
        refine ⟨List.eraseIdx_sublist .., ?_⟩
        intro handle need present
        obtain ⟨position, inside, same⟩ := List.mem_iff_getElem.mp present
        refine List.mem_eraseIdx_iff_getElem?.mpr ⟨position, ?_, by rw [List.getElem?_eq_getElem inside, same]⟩
        rintro rfl
        rw [List.getElem?_eq_getElem inside, same] at found
        cases found
        exact spares need

theorem Listed.release {cb : VPUCommandBuffer} {cmds : List VPUCommand} {needed : List Nat}
    (listed : Listed cb cmds) (spares : cb.ReleaseSpares (keptHandles cb cmds ++ needed)) :
    Listed cb.release cmds := by
  obtain ⟨buffer, -, -, guard, size⟩ := cb.release_frame
  obtain ⟨sublist, stays⟩ := spares.handles
  have kept : keptHandles cb.release cmds = keptHandles cb cmds := by
    simp [keptHandles, VPUCommandBuffer.guardHandles, buffer, guard]
  have need : ∀ handle ∈ keptHandles cb cmds, handle ∈ cb.release.bufferHandles := fun handle member =>
    stays handle (List.mem_append_left _ member) (listed.kept handle member)
  refine ⟨?_, sublist.nodup listed.nodup, by rw [kept]; exact need, listed.balanced, ?_⟩
  · rw [buffer]
    exact head?_of_sublist sublist listed.own listed.nodup (need _ (mem_keptHandles.mpr (.inl rfl)))
  · rw [size]
    exact listed.scratchSize

theorem Ready.release {cb : VPUCommandBuffer} {cmds : List VPUCommand} (ready : Ready cb cmds)
    (spares : cb.ReleaseSpares (keptHandles cb cmds ++ scratchHandles cmds)) : Ready cb.release cmds :=
  ⟨ready.toListed.release spares, fun handle member =>
    spares.handles.2 handle (List.mem_append_right _ member) (ready.scratch handle member)⟩

theorem Listed.status {cb : VPUCommandBuffer} {cmds : List VPUCommand} (listed : Listed cb cmds)
    (status : Nat) : Listed { cb with jobStatus := status } cmds := ⟨listed.1, listed.2, listed.3, listed.4, listed.5⟩

/-- A change of a command that leaves the buffers it is associated with alone. -/
structure VPUCommand.Associates (before after : VPUCommand) : Prop where
  bufferObjects : after.bufferObjects = before.bufferObjects
  inference : ∀ inference, after.isInference = some inference → ∃ former, before.isInference = some former ∧
    inference.userArgHandles = former.userArgHandles ∧ inference.hpi = former.hpi ∧
    inference.profilingQuery = former.profilingQuery ∧
    inference.sharedScratchSize = former.sharedScratchSize ∧
    inference.lastScratchBoHandle = former.lastScratchBoHandle

theorem VPUCommand.Associates.refl (cmd : VPUCommand) : Associates cmd cmd :=
  ⟨rfl, fun inference is => ⟨inference, is, rfl, rfl, rfl, rfl, rfl⟩⟩

theorem Listed.associates {cb : VPUCommandBuffer} {before after : List VPUCommand} (listed : Listed cb before)
    (same : List.Forall₂ VPUCommand.Associates before after) : Listed cb after := by
  refine ⟨listed.own, listed.nodup, ?_, ?_, ?_⟩
  · intro handle member
    rcases mem_keptHandles.mp member with rfl | object | guarded
    · exact listed.kept _ (mem_keptHandles.mpr (.inl rfl))
    · obtain ⟨cmd, present, bo, associated, rfl⟩ := mem_objectHandles.mp object
      obtain ⟨source, original, unchanged⟩ := exists_partner same cmd present
      rw [unchanged.bufferObjects] at associated
      exact listed.kept _ (mem_keptHandles.mpr (.inr (.inl
        (mem_objectHandles.mpr ⟨source, original, bo, associated, rfl⟩))))
    · exact listed.kept _ (mem_keptHandles.mpr (.inr (.inr guarded)))
  · intro cmd present inference is
    obtain ⟨source, original, unchanged⟩ := exists_partner same cmd present
    obtain ⟨former, isFormer, handles, hpi, profilingQuery, -⟩ := unchanged.inference inference is
    rw [handles, VPUInferenceExecute.argumentCount, hpi, profilingQuery]
    exact listed.balanced source original former isFormer
  · intro cmd present inference is used
    obtain ⟨source, original, unchanged⟩ := exists_partner same cmd present
    obtain ⟨former, isFormer, -, -, -, size, -⟩ := unchanged.inference inference is
    exact listed.scratchSize source original former isFormer (size ▸ used)

theorem updateArguments_associates (numInputArgs numArgs : Nat) (inference : VPUInferenceExecute)
    (updates : ArgumentUpdatesMap) :
    let updated := (inference.updateArguments numInputArgs numArgs updates).2
    updated.userArgHandles = inference.userArgHandles ∧ updated.hpi = inference.hpi ∧
      updated.profilingQuery = inference.profilingQuery ∧
      updated.sharedScratchSize = inference.sharedScratchSize ∧
      updated.lastScratchBoHandle = inference.lastScratchBoHandle := by
  induction updates generalizing inference with
  | nil => exact ⟨rfl, rfl, rfl, rfl, rfl⟩
  | cons entry rest ih =>
    obtain ⟨index, update⟩ := entry
    simp only [VPUInferenceExecute.updateArguments]
    split
    · exact ⟨rfl, rfl, rfl, rfl, rfl⟩
    · obtain ⟨handles, hpi, profilingQuery, size, scratch⟩ := ih (inference.updateArgument numInputArgs index update)
      have same : ∀ {α : Type} (field : VPUInferenceExecute → α),
          (∀ inputs outputs inputStrides outputStrides, field { inference with
            inputs := inputs, outputs := outputs, inputStrides := inputStrides, outputStrides := outputStrides } =
              field inference) → field (inference.updateArgument numInputArgs index update) = field inference := by
        intro α field kept
        unfold VPUInferenceExecute.updateArgument
        split <;> exact kept _ _ _ _
      exact ⟨handles.trans (same (·.userArgHandles) fun _ _ _ _ => rfl), hpi.trans (same (·.hpi) fun _ _ _ _ => rfl),
        profilingQuery.trans (same (·.profilingQuery) fun _ _ _ _ => rfl),
        size.trans (same (·.sharedScratchSize) fun _ _ _ _ => rfl),
        scratch.trans (same (·.lastScratchBoHandle) fun _ _ _ _ => rfl)⟩

theorem VPUCommand.setUpdates_associates (cmd : VPUCommand) (updates : ArgumentUpdatesMap) :
    cmd.Associates (cmd.setUpdates updates).2 := by
  unfold setUpdates
  split
  · rename_i inference kind
    split
    · rename_i numInputArgs numOutputArgs _ _
      have same := updateArguments_associates numInputArgs ((numInputArgs + numOutputArgs) % 2 ^ 32) inference
        updates
      have former : cmd.isInference = some inference := by simp [isInference, kind]
      simp only
      generalize inference.updateArguments numInputArgs ((numInputArgs + numOutputArgs) % 2 ^ 32) updates =
        result at same
      obtain ⟨success, updated⟩ := result
      cases success <;>
      · refine ⟨rfl, fun other is => ⟨inference, former, ?_⟩⟩
        cases is
        exact same
    · exact .refl cmd
  · exact .refl cmd

/-- The updates of arguments do not change how much scratch an inference needs. -/
theorem VPUCommand.setUpdates_scratch {cmd : VPUCommand} {inference : VPUInferenceExecute}
    (is : cmd.isInference = some inference) (updates : ArgumentUpdatesMap) :
    ∃ updated, (cmd.setUpdates updates).2.isInference = some updated ∧
      updated.sharedScratchSize = inference.sharedScratchSize := by
  unfold setUpdates
  split
  · rename_i former kind
    have same : former = inference := by simpa [isInference, kind] using is
    subst same
    split
    · rename_i numInputArgs numOutputArgs _ _
      have kept := updateArguments_associates numInputArgs ((numInputArgs + numOutputArgs) % 2 ^ 32) former updates
      simp only
      generalize former.updateArguments numInputArgs ((numInputArgs + numOutputArgs) % 2 ^ 32) updates =
        result at kept
      obtain ⟨success, updated⟩ := result
      cases success <;> exact ⟨updated, rfl, kept.2.2.2.1⟩
    · exact ⟨former, is, rfl⟩
  · exact ⟨inference, is, rfl⟩

end NpuDriver
