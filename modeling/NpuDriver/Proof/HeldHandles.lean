import NpuDriver.Proof.ReferencedHandles

/-! The patches of a command buffer, its submission and its wait hold what they leave listed. -/

namespace NpuDriver

open Library

/-- A change of a command buffer that lists only what is held afterwards, and stops to hold nothing that
is still listed. -/
structure Keeps (cmds : List VPUCommand) (before after : VPUCommandBuffer) : Prop where
  buffer : after.buffer = before.buffer
  scratchSize : after.inferenceScratchSize = before.inferenceScratchSize
  only : ∀ handle ∈ after.bufferHandles, handle ∈ before.bufferHandles ∨ handle ∈ heldHandles after cmds
  held : ∀ handle ∈ after.bufferHandles, handle ∈ heldHandles before cmds → handle ∈ heldHandles after cmds

variable {before after : VPUCommandBuffer} {cmds : List VPUCommand}

theorem Keeps.refl (cb : VPUCommandBuffer) : Keeps cmds cb cb :=
  ⟨rfl, rfl, fun _ => .inl, fun _ _ => id⟩

theorem Keeps.listsOnly {further : List Nat} (keeps : Keeps cmds before after) (listed : ListsOnly before cmds further) :
    ListsOnly after cmds further := by
  intro handle member
  rcases keeps.only handle member with former | held
  · exact (listed handle former).imp_left (keeps.held handle member)
  · exact .inl held

theorem Sourced.keeps (sourced : Sourced before cmds) (keeps : Keeps cmds before after) : Sourced after cmds where
  listed := keeps.listsOnly sourced.listed
  mapped := keeps.buffer ▸ sourced.mapped
  room := keeps.buffer ▸ sourced.room
  balanced := sourced.balanced
  remembers := sourced.remembers
  scratchSize := keeps.scratchSize ▸ sourced.scratchSize

theorem Referenced.keeps (referenced : Referenced before cmds) (keeps : Keeps cmds before after)
    (same : after.inferenceScratchBuffer = before.inferenceScratchBuffer) : Referenced after cmds := by
  refine ⟨referenced.toSourced.keeps keeps, ?_⟩
  have listed := keeps.listsOnly referenced.referenced
  rw [VPUCommandBuffer.scratchBufferHandles] at listed ⊢
  rw [same]
  exact listed

/-- A patch that lists the own handle at most. -/
structure Marked (before after : VPUCommandBuffer) : Prop extends before.Extends after where
  waitBoGuard : after.waitBoGuard = before.waitBoGuard
  only : ∀ handle ∈ after.bufferHandles, handle ∈ before.bufferHandles ∨ handle = before.buffer.handle

theorem Marked.refl (cb : VPUCommandBuffer) : Marked cb cb := ⟨.refl cb, rfl, fun _ => .inl⟩

theorem Marked.trans {first second third : VPUCommandBuffer} (left : Marked first second)
    (right : Marked second third) : Marked first third := by
  refine ⟨left.toExtends.trans right.toExtends, right.waitBoGuard.trans left.waitBoGuard, ?_⟩
  intro handle member
  rcases right.only handle member with former | own
  · exact left.only handle former
  · exact .inr (own.trans (congrArg VPUBufferObject.handle left.buffer))

theorem Marked.held (marked : Marked before after) : heldHandles after cmds = heldHandles before cmds := by
  simp only [heldHandles, keptHandles, VPUCommandBuffer.guardHandles, VPUCommandBuffer.preemptionHandles,
    marked.buffer, marked.waitBoGuard, marked.preemptionBuffer]

theorem Marked.keeps (marked : Marked before after) : Keeps cmds before after where
  buffer := marked.buffer
  scratchSize := marked.inferenceScratchSize
  only := fun handle member => (marked.only handle member).imp_right fun own => by
    rw [marked.held]
    exact mem_heldHandles.mpr (.inl own)
  held := fun handle _ held => by rwa [marked.held]

theorem Sourced.marked (sourced : Sourced before cmds) (marked : Marked before after) : Sourced after cmds :=
  sourced.keeps marked.keeps

theorem Referenced.marked (referenced : Referenced before cmds) (marked : Marked before after) :
    Referenced after cmds := referenced.keeps marked.keeps marked.inferenceScratchBuffer

namespace VPUCommandBuffer

theorem resetFenceValue_marked (cb : VPUCommandBuffer) : Marked cb cb.resetFenceValue :=
  ⟨cb.resetFenceValue_extends, rfl, fun _ => .inl⟩

theorem addSelfSignalAtTail_marked (cb : VPUCommandBuffer) : Marked cb cb.addSelfSignalAtTail.2 := by
  refine ⟨cb.addSelfSignalAtTail_extends, cb.addSelfSignalAtTail_waitBoGuard, ?_⟩
  simp only [addSelfSignalAtTail, VPUEventSignalCommand.create, eventCommand_create]
  by_cases inside : fenceValueOffset < cb.buffer.allocSize
  · simp only [if_pos inside, addCommand_fixed, addStream]
    intro handle member
    have listed : handle ∈ addAllUnique cb.bufferHandles [cb.buffer.handle] := by
      split at member <;> exact member
    exact (mem_addAllUnique.mp listed).imp_right List.mem_singleton.mp
  · simp only [if_neg inside]
    exact fun _ => .inl

theorem useBusyWait_marked (cb : VPUCommandBuffer) : Marked cb cb.useBusyWait := by
  have signalled := cb.addSelfSignalAtTail_marked
  unfold useBusyWait
  cases result : cb.addSelfSignalAtTail with
  | mk success patched =>
    rw [result] at signalled
    cases success with
    | false => exact signalled
    | true =>
      have reset : Marked patched { patched.resetFenceValue with useBusyWaitFlag := true } :=
        ⟨⟨rfl, rfl, rfl, rfl, rfl, rfl, rfl, List.prefix_refl _, id⟩, rfl, fun _ => .inl⟩
      exact signalled.trans reset

/-- The handle of a guard that is given up is the one of the next guard or held otherwise. -/
def SparesGuard (cb : VPUCommandBuffer) (cmds : List VPUCommand) (waitFor : Option VPUBufferObject) : Prop :=
  ∀ bo ∈ cb.waitBoGuard, bo.handle ∈ waitFor.map VPUBufferObject.handle ∨
    bo.handle ∈ cb.buffer.handle :: objectHandles cmds

instance (cb : VPUCommandBuffer) (cmds : List VPUCommand) (waitFor : Option VPUBufferObject) :
    Decidable (cb.SparesGuard cmds waitFor) :=
  inferInstanceAs (Decidable (∀ bo ∈ cb.waitBoGuard, _))

/-- A wait at the head lists and holds the buffer that it waits for. -/
theorem addWaitAtHead_keeps {cb : VPUCommandBuffer} (mapped : cb.buffer.basePtr ≠ 0)
    (room : commandListOffset ≤ cb.buffer.allocSize) (ctx : VPUDeviceContext) {waitFor : Option VPUBufferObject}
    (spares : cb.SparesGuard cmds waitFor) (resetFence : Bool) :
    Keeps cmds cb (cb.addWaitAtHead ctx waitFor resetFence).2 := by
  have frame := cb.addWaitAtHead_extends ctx waitFor resetFence
  have guarded : ∀ after : VPUCommandBuffer, cb.Extends after → after.waitBoGuard = waitFor →
      ∀ handle ∈ heldHandles cb cmds, handle ∈ heldHandles after cmds := by
    intro after extended guard handle held
    rw [mem_heldHandles, extended.buffer, preemptionHandles, extended.preemptionBuffer, guardHandles, guard]
    rcases mem_heldHandles.mp held with own | object | former | preemption
    · exact .inl own
    · exact .inr (.inl object)
    · obtain ⟨bo, member, rfl⟩ := List.mem_map.mp former
      rcases spares bo (Option.mem_toList.mp member) with next | other
      · obtain ⟨target, awaited, same⟩ := Option.map_eq_some_iff.mp next
        exact .inr (.inr (.inl (List.mem_map.mpr ⟨target, Option.mem_toList.mpr awaited, same⟩)))
      · rcases List.mem_cons.mp other with own | object
        · exact .inl own
        · exact .inr (.inl object)
    · exact .inr (.inr (.inr preemption))
  cases waitFor with
  | none => exact ⟨frame.buffer, frame.inferenceScratchSize, fun _ => .inl, fun handle _ => guarded _ frame rfl handle⟩
  | some bo =>
    by_cases inside : fenceValueOffset < bo.allocSize
    · have result := addWaitAtHead_some ctx resetFence mapped room inside
      refine ⟨frame.buffer, frame.inferenceScratchSize, ?_, fun handle _ => guarded _ frame ?_ handle⟩
      · intro handle member
        have guard : bo.handle ∈ (cb.addWaitAtHead ctx (some bo) resetFence).2.guardHandles := by
          rw [result]
          exact List.mem_singleton_self _
        have waits : handle = bo.handle → handle ∈ heldHandles (cb.addWaitAtHead ctx (some bo) resetFence).2 cmds :=
          fun same => mem_heldHandles.mpr (.inr (.inr (.inl (same ▸ guard))))
        rw [result] at member
        rcases mem_addAllUnique.mp member with first | second
        · exact (mem_addAllUnique.mp first).imp_right fun listed => waits (List.mem_singleton.mp listed)
        · refine .inr (waits ?_)
          cases resetFence with
          | false => cases second
          | true => exact List.mem_singleton.mp second
      · rw [result]
        rfl
    · rw [addWaitAtHead_refused ctx resetFence (Nat.le_of_not_lt inside)]
      exact .refl cb

end VPUCommandBuffer

/-- A new command buffer lists its own handle and those of the buffers of its commands. -/
theorem Referenced.allocated {cb final : VPUCommandBuffer} {patched : List VPUCommand} {ctx : VPUDeviceContext}
    (allocated : VPUCommandBuffer.allocateCommandBuffer ctx position cmds = (some cb, patched, next))
    (linked : VPUJob.Linked ctx cb final) (balanced : ∀ cmd ∈ cmds, cmd.Balanced)
    (remembers : ∀ cmd ∈ cmds, cmd.Remembers) : Referenced final patched := by
  have size := (VPUCommandBuffer.allocateCommandBuffer_scratchSize allocated).1
  obtain ⟨patched_eq, layout, -, -, frame, handles⟩ := VPUCommandBuffer.allocateCommandBuffer_some allocated
  have associated : List.Forall₂ (fun cmd patched => patched.bufferObjects = cmd.bufferObjects ∧
      patched.isInference = cmd.isInference) cmds patched := by
    rw [patched_eq]
    exact patchAddresses_associated _ _ cmds
  have listed : ∀ further, ListsOnly cb patched further := by
    intro further handle member
    rw [handles] at member
    refine .inl (mem_heldHandles.mpr ?_)
    rcases mem_addAllUnique.mp member with own | object
    · exact .inl (List.mem_singleton.mp own)
    · obtain ⟨cmd, present, bo, known, rfl⟩ := mem_objectHandles.mp object
      obtain ⟨image, inside, same, -⟩ := exists_image associated cmd present
      exact .inr (.inl (mem_objectHandles.mpr ⟨image, inside, bo, same ▸ known, rfl⟩))
  have room : commandListOffset ≤ cb.buffer.allocSize := by
    have start := VPUCommandBuffer.descriptorStart_le cmds
    have allocSize := layout.allocSize
    omega
  have built : Referenced cb patched := by
    refine ⟨⟨listed _, layout.mapped, room, ?_, ?_, ?_⟩, listed _⟩
    · intro cmd present inference is
      obtain ⟨source, original, -, same⟩ := exists_partner associated cmd present
      exact balanced source original inference (same ▸ is)
    · intro cmd present inference is
      obtain ⟨source, original, objects, same⟩ := exists_partner associated cmd present
      rw [objects]
      exact remembers source original inference (same ▸ is)
    · intro cmd present inference is
      obtain ⟨source, original, -, same⟩ := exists_partner associated cmd present
      have large := size source original inference (same ▸ is)
      intro used
      omega
  obtain ⟨waiting, head, tail⟩ := linked
  have waits : Referenced waiting patched := by
    rcases head with rfl | ⟨bo, rfl⟩
    · exact built
    · have unguarded : cb.SparesGuard patched (some bo) := by
        intro former guarded
        rw [frame.waitBoGuard] at guarded
        cases guarded
      exact built.keeps (VPUCommandBuffer.addWaitAtHead_keeps layout.mapped room ctx unguarded false)
        (cb.addWaitAtHead_extends ctx (some bo) false).inferenceScratchBuffer
  rcases tail with rfl | rfl
  · exact waits
  · exact waits.marked waiting.addSelfSignalAtTail_marked

theorem Referenced.addPreemptionBuffer {cb : VPUCommandBuffer} (referenced : Referenced cb cmds)
    (bo : Option VPUBufferObject) : Referenced (cb.addPreemptionBuffer bo) cmds := by
  unfold VPUCommandBuffer.addPreemptionBuffer
  split
  · rename_i preemption none
    refine referenced.keeps ⟨rfl, rfl, ?_, ?_⟩ rfl
    · intro handle member
      refine (List.mem_append.mp member).imp_right fun new => mem_heldHandles.mpr (.inr (.inr (.inr ?_)))
      exact new
    · intro handle _ held
      rcases mem_heldHandles.mp held with own | object | guard | preemption
      · exact mem_heldHandles.mpr (.inl own)
      · exact mem_heldHandles.mpr (.inr (.inl object))
      · exact mem_heldHandles.mpr (.inr (.inr (.inl guard)))
      · rw [VPUCommandBuffer.preemptionHandles, none] at preemption
        cases preemption
  · exact referenced

/-- The position that a successful wait takes out of the list is the only one with the handle of the
preemption buffer, unless that handle is held otherwise. -/
def VPUCommandBuffer.ReleaseTakes (cb : VPUCommandBuffer) (cmds : List VPUCommand) : Prop :=
  match cb.preemptionBuffer, cb.preemptionBufferIndex with
  | some bo, some index => bo.handle ∉ cb.bufferHandles.eraseIdx index ∨ bo.handle ∈ keptHandles cb cmds
  | _, _ => True

theorem VPUCommandBuffer.releaseTakes_iff {cb : VPUCommandBuffer} {cmds : List VPUCommand} :
    (∀ bo ∈ cb.preemptionBuffer, ∀ index ∈ cb.preemptionBufferIndex,
      bo.handle ∉ cb.bufferHandles.eraseIdx index ∨ bo.handle ∈ keptHandles cb cmds) ↔ cb.ReleaseTakes cmds := by
  unfold ReleaseTakes
  cases cb.preemptionBuffer with
  | none => simp
  | some bo => cases cb.preemptionBufferIndex <;> simp

instance (cb : VPUCommandBuffer) (cmds : List VPUCommand) : Decidable (cb.ReleaseTakes cmds) :=
  decidable_of_iff _ VPUCommandBuffer.releaseTakes_iff

theorem VPUCommandBuffer.release_keeps {cb : VPUCommandBuffer} (takes : cb.ReleaseTakes cmds) :
    Keeps cmds cb cb.release := by
  unfold ReleaseTakes at takes
  unfold release
  cases held : cb.preemptionBuffer with
  | none => exact ⟨rfl, rfl, fun _ => .inl, fun handle _ before => by
      simpa [heldHandles, keptHandles, guardHandles, preemptionHandles, held] using before⟩
  | some bo =>
    cases stored : cb.preemptionBufferIndex with
    | none => exact ⟨rfl, rfl, fun _ => .inl, fun handle _ before => by
        simpa [heldHandles, keptHandles, guardHandles, preemptionHandles, held] using before⟩
    | some index =>
      simp only [held, stored] at takes
      refine ⟨rfl, rfl, fun handle member => .inl (List.mem_of_mem_eraseIdx member), ?_⟩
      intro handle member before
      rcases List.mem_append.mp before with kept | preemption
      · exact List.mem_append_left _ kept
      · rw [preemptionHandles, held] at preemption
        have same : handle = bo.handle := List.mem_singleton.mp preemption
        rcases takes with gone | kept
        · exact (gone (same ▸ member)).elim
        · exact List.mem_append_left _ (same ▸ kept)

/-- The handles of the scratch buffer that a successful wait drops are held otherwise. -/
def VPUCommandBuffer.SparesScratch (cb : VPUCommandBuffer) (cmds : List VPUCommand) : Prop :=
  ∀ bo ∈ cb.inferenceScratchBuffer, bo.handle ∈ keptHandles cb cmds

instance (cb : VPUCommandBuffer) (cmds : List VPUCommand) : Decidable (cb.SparesScratch cmds) :=
  inferInstanceAs (Decidable (∀ bo ∈ cb.inferenceScratchBuffer, _))

theorem Sourced.release {cb : VPUCommandBuffer} (sourced : Sourced cb cmds) (takes : cb.ReleaseTakes cmds)
    (status : Nat) : Sourced { cb with jobStatus := status }.release cmds := by
  have noted : Sourced { cb with jobStatus := status } cmds :=
    ⟨sourced.1, sourced.2, sourced.3, sourced.4, sourced.5, sourced.6⟩
  exact noted.keeps (VPUCommandBuffer.release_keeps takes)

theorem Referenced.release {cb : VPUCommandBuffer} (referenced : Referenced cb cmds) (takes : cb.ReleaseTakes cmds)
    (spares : cb.SparesScratch cmds) (status : Nat) : Referenced { cb with jobStatus := status }.release cmds := by
  refine ⟨referenced.toSourced.release takes status, ?_⟩
  have noted : ListsOnly { cb with jobStatus := status } cmds cb.scratchBufferHandles := referenced.referenced
  have keeps : Keeps cmds { cb with jobStatus := status } { cb with jobStatus := status }.release :=
    VPUCommandBuffer.release_keeps takes
  obtain ⟨buffer, -, -, guard, -⟩ := VPUCommandBuffer.release_frame { cb with jobStatus := status }
  intro handle member
  rcases keeps.listsOnly noted handle member with held | scratch
  · exact .inl held
  · obtain ⟨bo, acquired, rfl⟩ := List.mem_map.mp scratch
    have kept := spares bo (Option.mem_toList.mp acquired)
    refine .inl (List.mem_append_left _ ?_)
    rw [keptHandles, VPUCommandBuffer.guardHandles, buffer, guard]
    exact kept

theorem VPUInferenceExecute.updateArguments_userArgIndex (numInputArgs numArgs : Nat)
    (inference : VPUInferenceExecute) (updates : ArgumentUpdatesMap) :
    (inference.updateArguments numInputArgs numArgs updates).2.userArgIndex = inference.userArgIndex := by
  induction updates generalizing inference with
  | nil => rfl
  | cons entry rest ih =>
    obtain ⟨index, update⟩ := entry
    rw [updateArguments]
    split
    · rfl
    · refine (ih (inference.updateArgument numInputArgs index update)).trans ?_
      rw [updateArgument]
      split <;> rfl

theorem VPUCommand.setUpdates_remembers {cmd : VPUCommand} (remembers : cmd.Remembers)
    (updates : ArgumentUpdatesMap) : (cmd.setUpdates updates).2.Remembers := by
  unfold setUpdates
  split
  · rename_i inference kind
    split
    · rename_i numInputArgs numOutputArgs _ _
      have is : cmd.isInference = some inference := by simp [isInference, kind]
      have position := inference.updateArguments_userArgIndex numInputArgs ((numInputArgs + numOutputArgs) % 2 ^ 32)
        updates
      obtain ⟨handles, -⟩ := updateArguments_associates numInputArgs ((numInputArgs + numOutputArgs) % 2 ^ 32)
        inference updates
      simp only at handles ⊢
      generalize inference.updateArguments numInputArgs ((numInputArgs + numOutputArgs) % 2 ^ 32) updates = result
        at position handles
      obtain ⟨success, updated⟩ := result
      cases success <;>
      · rintro other ⟨⟩ bo member
        rw [handles]
        rw [position] at member
        exact remembers inference is bo member
    · exact remembers
  · exact remembers

/-- A change of a command that leaves its buffers and their handles alone. -/
structure VPUCommand.Updates (before after : VPUCommand) : Prop extends VPUCommand.Associates before after where
  remembers : before.Remembers → after.Remembers
  remains : ∀ inference, before.isInference = some inference → ∃ updated, after.isInference = some updated

theorem VPUCommand.Updates.refl (cmd : VPUCommand) : Updates cmd cmd :=
  ⟨.refl cmd, id, fun inference is => ⟨inference, is⟩⟩

theorem VPUCommand.setUpdates_updates (cmd : VPUCommand) (updates : ArgumentUpdatesMap) :
    cmd.Updates (cmd.setUpdates updates).2 := by
  refine ⟨cmd.setUpdates_associates updates, fun remembers => setUpdates_remembers remembers updates, ?_⟩
  intro inference is
  obtain ⟨updated, isUpdated, -⟩ := setUpdates_scratch is updates
  exact ⟨updated, isUpdated⟩

/-- The updates of arguments change nothing that the list of handles depends on. -/
theorem Sourced.updates {cb : VPUCommandBuffer} {before after : List VPUCommand} (sourced : Sourced cb before)
    (same : List.Forall₂ VPUCommand.Updates before after) : Sourced cb after := by
  refine ⟨?_, sourced.mapped, sourced.room, ?_, ?_, ?_⟩
  · intro handle member
    rcases sourced.listed handle member with held | scratch
    · refine .inl (mem_heldHandles.mpr ?_)
      rcases mem_heldHandles.mp held with own | object | others
      · exact .inl own
      · obtain ⟨cmd, present, bo, known, rfl⟩ := mem_objectHandles.mp object
        obtain ⟨image, inside, unchanged⟩ := exists_image same cmd present
        exact .inr (.inl (mem_objectHandles.mpr ⟨image, inside, bo, unchanged.bufferObjects ▸ known, rfl⟩))
      · exact .inr (.inr others)
    · obtain ⟨cmd, present, inference, is, used, rfl⟩ := mem_scratchHandles.mp scratch
      obtain ⟨image, inside, unchanged⟩ := exists_image same cmd present
      obtain ⟨updated, isUpdated⟩ := unchanged.remains inference is
      obtain ⟨former, isFormer, -, -, -, size, last⟩ := unchanged.inference updated isUpdated
      rw [is] at isFormer
      cases isFormer
      exact .inr (mem_scratchHandles.mpr ⟨image, inside, updated, isUpdated, size ▸ used, last⟩)
  · intro cmd present inference is
    obtain ⟨source, original, unchanged⟩ := exists_partner same cmd present
    obtain ⟨former, isFormer, handles, hpi, profilingQuery, -⟩ := unchanged.inference inference is
    rw [handles, VPUInferenceExecute.argumentCount, hpi, profilingQuery]
    exact sourced.balanced source original former isFormer
  · intro cmd present
    obtain ⟨source, original, unchanged⟩ := exists_partner same cmd present
    exact unchanged.remembers (sourced.remembers source original)
  · intro cmd present inference is used
    obtain ⟨source, original, unchanged⟩ := exists_partner same cmd present
    obtain ⟨former, isFormer, -, -, -, size, -⟩ := unchanged.inference inference is
    exact sourced.scratchSize source original former isFormer (size ▸ used)

/-- A created inference command remembers the handles of its arguments. -/
theorem VPUInferenceExecute.create_remembers {ctx : VPUDeviceContext} {parser : ElfParser}
    {cmdHpi : HostParsedInference} {inputs outputs : List Nat}
    {inputStrides outputStrides : Nat → Option ArgumentStrides}
    {profilingQuery : Option GraphProfilingQuery} {inferenceId : Nat} {bos : List VPUBufferObject}
    {cmd : VPUCommand}
    (created : (VPUInferenceExecute.create ctx parser cmdHpi inputs outputs inputStrides outputStrides
      profilingQuery inferenceId bos).1 = .ok cmd) : cmd.Remembers := by
  unfold VPUInferenceExecute.create at created
  split at created
  · cases created
  · split at created
    · cases created
    · split at created
      · cases created
      · cases created
        rintro inference ⟨⟩ bo member
        exact List.mem_map_of_mem (mem_drop_appendAssociateBufferObjects (Nat.le_refl _) member)

end NpuDriver
