import NpuDriver.Library.Runs
import NpuDriver.Proof.BufferAllocation
import NpuDriver.Proof.HandleEdits
import NpuDriver.Proof.Submission

/-! The stored position of the preemption buffer among the handles of a command buffer. -/

namespace NpuDriver

open Library VPUCommandBuffer

/-- The operations on one command buffer, each with the arguments of its call. -/
inductive BufferCall where
  | updateCommands (cmds : List VPUCommand) (ctx : VPUDeviceContext)
  | addPreemptionBuffer (bo : Option VPUBufferObject)
  | addWaitAtHead (ctx : VPUDeviceContext) (waitBo : Option VPUBufferObject) (resetFence : Bool)
  | addSelfSignalAtTail
  | resetFenceValue
  | submit (queue : VPUDeviceQueueManaged) (ctx : VPUDeviceContext)
  | waitForCompletion (ctx : VPUDeviceContext)

def BufferCall.run (cb : VPUCommandBuffer) : BufferCall → VPUCommandBuffer
  | updateCommands cmds ctx => (cb.updateCommands cmds ctx).2.1
  | addPreemptionBuffer bo => cb.addPreemptionBuffer bo
  | addWaitAtHead ctx waitBo resetFence => (cb.addWaitAtHead ctx waitBo resetFence).2
  | addSelfSignalAtTail => cb.addSelfSignalAtTail.2
  | resetFenceValue => cb.resetFenceValue
  | submit queue ctx => (queue.submitUntilReply cb ctx).2.1
  | waitForCompletion ctx => (cb.waitForCompletion ctx).2.1

/-- The handles up to and including the one of the preemption buffer. -/
def VPUCommandBuffer.frontHandles (cb : VPUCommandBuffer) : List Nat :=
  cb.bufferHandles.take (cb.preemptionBufferIndex.elim 0 (· + 1))

/-- An update replaces no handle at or before the stored position. -/
def BufferCall.KeepsFront (cb : VPUCommandBuffer) : BufferCall → Prop
  | updateCommands cmds ctx =>
    ∀ edit ∈ cb.plannedEdits cmds ctx, ∀ handle ∈ cb.frontHandles, handle ∉ edit.removed
  | _ => True

instance (cb : VPUCommandBuffer) (call : BufferCall) : Decidable (call.KeepsFront cb) := by
  cases call <;> unfold BufferCall.KeepsFront <;> infer_instance

namespace VPUCommandBuffer

/-- The stored position lies behind the own handle and names the preemption buffer. -/
def IndexNames (cb : VPUCommandBuffer) : Prop :=
  ∀ index, cb.preemptionBufferIndex = some index →
    0 < index ∧ index < cb.bufferHandles.length ∧
      ∃ bo, cb.preemptionBuffer = some bo ∧ cb.bufferHandles[index]? = some bo.handle

/-- The list of handles is never empty, and a held preemption buffer has a valid position. -/
structure IndexInvariant (cb : VPUCommandBuffer) : Prop where
  nonempty : cb.bufferHandles ≠ []
  names : cb.IndexNames
  held : cb.preemptionBufferIndex = none → cb.preemptionBuffer = none

/-- The position holds of a longer list, too. -/
theorem getElem?_of_front {xs ys : List Nat} {index x : Nat} (front : xs <+: ys)
    (found : xs[index]? = some x) :
    ys[index]? = some x := by
  obtain ⟨rest, rfl⟩ := front
  obtain ⟨inside, -⟩ := List.getElem?_eq_some_iff.mp found
  rw [List.getElem?_append_left inside]
  exact found

theorem IndexInvariant.of_front {cb next : VPUCommandBuffer} (valid : cb.IndexInvariant)
    (preemptionBuffer : next.preemptionBuffer = cb.preemptionBuffer)
    (preemptionBufferIndex : next.preemptionBufferIndex = cb.preemptionBufferIndex)
    (nonempty : next.bufferHandles ≠ []) (front : cb.frontHandles <+: next.bufferHandles) :
    next.IndexInvariant := by
  refine ⟨nonempty, ?_, ?_⟩
  · intro index stored
    rw [preemptionBufferIndex] at stored
    obtain ⟨positive, inside, bo, held, found⟩ := valid.names index stored
    have kept : cb.frontHandles[index]? = some bo.handle := by
      rw [frontHandles, stored, List.getElem?_take_of_lt (by simp)]
      exact found
    have found := getElem?_of_front front kept
    exact ⟨positive, (List.getElem?_eq_some_iff.mp found).1, bo, preemptionBuffer.trans held, found⟩
  · rw [preemptionBuffer, preemptionBufferIndex]
    exact valid.held

theorem IndexInvariant.extends {cb next : VPUCommandBuffer} (valid : cb.IndexInvariant)
    (extended : cb.Extends next) : next.IndexInvariant := by
  refine valid.of_front extended.preemptionBuffer extended.preemptionBufferIndex ?_ ?_
  · intro empty
    have front := extended.handles
    rw [empty] at front
    exact valid.nonempty (List.prefix_nil.mp front)
  · exact (List.take_prefix ..).trans extended.handles

theorem IndexInvariant.allocated {cb : VPUCommandBuffer} {cmds patched : List VPUCommand}
    (success : allocateCommandBuffer ctx begin cmds = (some cb, patched, next)) : cb.IndexInvariant := by
  obtain ⟨-, -, -, -, frame, handles⟩ := allocateCommandBuffer_some success
  refine ⟨?_, ?_, fun _ => frame.preemptionBuffer⟩
  · intro empty
    have own : cb.buffer.handle ∈ cb.bufferHandles := by
      rw [handles]
      exact mem_addAllUnique.mpr (.inl (List.mem_singleton_self _))
    rw [empty] at own
    exact absurd own List.not_mem_nil
  · intro index stored
    rw [frame.preemptionBufferIndex] at stored
    cases stored

/-- Every replacement of an update brings as many handles as it takes. -/
theorem updateEdits_balanced (scratchBuffer : Option VPUBufferObject) (cmds : List VPUCommand)
    (ctx : VPUDeviceContext) : ∀ edit ∈ updateEdits scratchBuffer cmds ctx,
      edit.removed.length = edit.added.length := by
  induction cmds generalizing ctx with
  | nil => simp [updateEdits]
  | cons cmd rest ih =>
    have scratch : ∀ inference : VPUInferenceExecute, ∀ edit ∈ inference.scratchEdits scratchBuffer,
        edit.removed.length = edit.added.length := by
      intro inference edit member
      unfold VPUInferenceExecute.scratchEdits at member
      split at member
      · simp at member
      · split at member
        · simp at member
        · rw [List.mem_singleton.mp member]
          rfl
    have arguments : ∀ (inference : VPUInferenceExecute) (userArgs : List VPUBufferObject),
        ∀ edit ∈ inference.argumentEdits userArgs, edit.removed.length = edit.added.length := by
      intro inference userArgs edit member
      unfold VPUInferenceExecute.argumentEdits at member
      split at member
      · simp at member
      · rename_i same
        rw [List.mem_singleton.mp member]
        exact not_not.mp same
    have first : ∀ edit ∈ (cmd.updatePlan scratchBuffer ctx).edits,
        edit.removed.length = edit.added.length := by
      intro edit member
      unfold VPUCommand.updatePlan at member
      split at member
      · simp at member
      · rename_i inference _
        split at member
        · exact scratch inference edit member
        · split at member
          · exact scratch inference edit member
          · rcases List.mem_append.mp member with replaced | replaced
            · exact scratch inference edit replaced
            · exact arguments inference _ edit replaced
    intro edit member
    rcases List.mem_append.mp member with here | later
    · exact first edit here
    · split at later
      · exact ih _ edit later
      · simp at later

theorem plannedEdits_balanced (cb : VPUCommandBuffer) (cmds : List VPUCommand) (ctx : VPUDeviceContext) :
    ∀ edit ∈ cb.plannedEdits cmds ctx, edit.removed.length = edit.added.length := by
  unfold plannedEdits
  split
  · simp
  · exact updateEdits_balanced _ cmds _

/-- Balanced replacements leave something in a list that had something. -/
theorem applyAll_nonempty {edits : List (Edit Nat)} {xs : List Nat}
    (balanced : ∀ edit ∈ edits, edit.removed.length = edit.added.length) (nonempty : xs ≠ []) :
    Edit.applyAll edits xs ≠ [] := by
  induction edits generalizing xs with
  | nil => exact nonempty
  | cons edit rest ih =>
    refine ih (fun later member => balanced later (List.mem_cons_of_mem edit member)) ?_
    have same := balanced edit (List.mem_cons_self ..)
    cases removed : edit.removed with
    | nil =>
      obtain ⟨x, member⟩ := List.exists_mem_of_ne_nil xs nonempty
      exact List.ne_nil_of_mem (Edit.mem_apply.mpr (.inl ⟨member, by simp [removed]⟩))
    | cons old others =>
      rw [removed] at same
      obtain ⟨x, member⟩ := List.exists_mem_of_length_pos (l := edit.added) (by simp [← same])
      exact List.ne_nil_of_mem (Edit.mem_apply.mpr (.inr member))

theorem IndexInvariant.updateCommands {cb : VPUCommandBuffer} (valid : cb.IndexInvariant)
    (cmds : List VPUCommand) (ctx : VPUDeviceContext)
    (keeps : ∀ edit ∈ cb.plannedEdits cmds ctx, ∀ handle ∈ cb.frontHandles, handle ∉ edit.removed) :
    (cb.updateCommands cmds ctx).2.1.IndexInvariant := by
  obtain ⟨success, scratchBuffer, updated, next, result, -⟩ := cb.updateCommands_plan cmds ctx
  rw [result]
  exact valid.of_front rfl rfl (applyAll_nonempty (cb.plannedEdits_balanced cmds ctx) valid.nonempty)
    (Edit.prefix_applyAll (List.take_prefix ..) keeps)

theorem IndexInvariant.addPreemptionBuffer {cb : VPUCommandBuffer} (valid : cb.IndexInvariant)
    (bo : Option VPUBufferObject) : (cb.addPreemptionBuffer bo).IndexInvariant := by
  unfold VPUCommandBuffer.addPreemptionBuffer
  split
  · rename_i preemption _
    refine ⟨by simp, ?_, by simp⟩
    intro index stored
    cases stored
    exact ⟨List.length_pos_iff.mpr valid.nonempty, by simp, preemption, rfl, by simp⟩
  · exact valid

/-- A successful wait takes the handle at the stored position out of the list. -/
theorem release_handles (cb : VPUCommandBuffer) (names : cb.IndexNames) :
    cb.release.bufferHandles = cb.preemptionBufferIndex.elim cb.bufferHandles cb.bufferHandles.eraseIdx := by
  unfold release
  cases stored : cb.preemptionBufferIndex with
  | none => cases cb.preemptionBuffer <;> rfl
  | some index =>
    obtain ⟨-, -, bo, held, -⟩ := names index stored
    simp [held]

theorem IndexInvariant.release {cb : VPUCommandBuffer} (valid : cb.IndexInvariant) :
    cb.release.IndexInvariant := by
  have handles := cb.release_handles valid.names
  cases stored : cb.preemptionBufferIndex with
  | none =>
    rw [stored] at handles
    have unheld := valid.held stored
    refine ⟨by rw [handles]; exact valid.nonempty, ?_, ?_⟩
    · intro index later
      simp [VPUCommandBuffer.release, unheld, stored] at later
    · intro _
      simp [VPUCommandBuffer.release, unheld]
  | some index =>
    obtain ⟨positive, inside, bo, held, -⟩ := valid.names index stored
    rw [stored] at handles
    refine ⟨?_, ?_, ?_⟩
    · rw [handles]
      apply List.ne_nil_of_length_pos
      have length := List.length_eraseIdx_of_lt inside
      simp only [Option.elim_some, length]
      omega
    · intro other later
      simp [VPUCommandBuffer.release, held, stored] at later
    · intro _
      simp [VPUCommandBuffer.release, held, stored]

theorem IndexInvariant.waitForCompletion {cb : VPUCommandBuffer} (valid : cb.IndexInvariant)
    (ctx : VPUDeviceContext) : (cb.waitForCompletion ctx).2.1.IndexInvariant := by
  rcases cb.waitForCompletion_spec ctx with ⟨next, failed, -⟩ | ⟨status, next, succeeded, -⟩
  · rw [failed]
    exact valid
  · rw [succeeded]
    have noted : VPUCommandBuffer.IndexInvariant { cb with jobStatus := status } := ⟨valid.1, valid.2, valid.3⟩
    exact noted.release

end VPUCommandBuffer

theorem BufferCall.keeps_index (cb : VPUCommandBuffer) (call : BufferCall) (valid : cb.IndexInvariant)
    (keeps : call.KeepsFront cb) : (call.run cb).IndexInvariant := by
  cases call with
  | updateCommands cmds ctx => exact valid.updateCommands cmds ctx keeps
  | addPreemptionBuffer bo => exact valid.addPreemptionBuffer bo
  | addWaitAtHead ctx waitBo resetFence => exact valid.extends (cb.addWaitAtHead_extends ctx waitBo resetFence)
  | addSelfSignalAtTail => exact valid.extends cb.addSelfSignalAtTail_extends
  | resetFenceValue => exact valid.extends cb.resetFenceValue_extends
  | submit queue ctx => exact valid.extends (queue.submitUntilReply_spec cb ctx).1.toExtends
  | waitForCompletion ctx => exact valid.waitForCompletion ctx

/-- In every run in which no update replaces a handle at or before the stored position, that
position names the preemption buffer; it is what every submission passes to the kernel, in a list
that it names the buffer of; a successful wait takes out that one handle. -/
theorem preemptionIndex_valid {ctx next : VPUDeviceContext} {cmds patched : List VPUCommand}
    {start : VPUCommandBuffer} {begin : Nat} {calls : List BufferCall}
    (allocated : allocateCommandBuffer ctx begin cmds = (some start, patched, next))
    (guarded : Guarded BufferCall.run BufferCall.KeepsFront start calls) :
    let cb := runFrom BufferCall.run start calls
    cb.IndexNames ∧
      (∀ (queue : VPUDeviceQueueManaged) (ctx : VPUDeviceContext), ∃ added,
        (queue.submitUntilReply cb ctx).2.2.calls = ctx.calls ++ added ∧
        ∀ call ∈ added, ∃ handles accepted,
          call = .submit cb.buffer handles (cb.preemptionBufferIndex.getD 0) queue.currentId accepted ∧
          ∀ bo, cb.preemptionBuffer = some bo →
            handles[cb.preemptionBufferIndex.getD 0]? = some bo.handle) ∧
      ∀ ctx : VPUDeviceContext, (cb.waitForCompletion ctx).1 = true →
        ∃ front back, cb.bufferHandles = front ++ cb.preemptionBuffer.toList.map VPUBufferObject.handle ++ back ∧
          (cb.waitForCompletion ctx).2.1.bufferHandles = front ++ back := by
  intro cb
  have valid : cb.IndexInvariant := guarded_invariant BufferCall.keeps_index (.allocated allocated) guarded
  refine ⟨valid.names, ?_, ?_⟩
  · intro queue ctx
    obtain ⟨-, added, calls, requests, -⟩ := queue.submitUntilReply_spec cb ctx
    refine ⟨added, calls, ?_⟩
    intro call member
    obtain ⟨tried, accepted, extended, rfl⟩ := requests call member
    refine ⟨tried.bufferHandles, accepted, rfl, ?_⟩
    intro bo held
    cases stored : cb.preemptionBufferIndex with
    | none => simp [valid.held stored] at held
    | some index =>
      obtain ⟨-, -, other, same, found⟩ := valid.names index stored
      rw [held] at same
      cases same
      exact getElem?_of_front extended.handles found
  · intro ctx success
    rcases cb.waitForCompletion_spec ctx with ⟨next, failed, -⟩ | ⟨status, next, succeeded, -⟩
    · rw [failed] at success
      cases success
    · have handles := VPUCommandBuffer.release_handles { cb with jobStatus := status } valid.names
      rw [succeeded]
      simp only [handles]
      cases stored : cb.preemptionBufferIndex with
      | none => exact ⟨cb.bufferHandles, [], by simp [valid.held stored], by simp⟩
      | some index =>
        obtain ⟨-, inside, bo, held, found⟩ := valid.names index stored
        refine ⟨cb.bufferHandles.take index, cb.bufferHandles.drop (index + 1), ?_, ?_⟩
        · have split := List.take_append_drop index cb.bufferHandles
          rw [List.drop_eq_getElem_cons inside] at split
          rw [List.getElem?_eq_getElem inside] at found
          rw [Option.some.inj found] at split
          simpa [held] using split.symm
        · exact List.eraseIdx_eq_take_drop_succ ..

/-- The buffer of a parsed inference, and an inference without arguments that needs scratch. -/
def inferenceBuffer : VPUBufferObject := ⟨400, 401, 2 ^ 30, 4096, 2 ^ 30⟩

def scratchInference : VPUCommand where
  command := .inferenceExecute
    { inferenceId := 7, inferenceAddress := inferenceBuffer.vpuAddr, inferenceWidth := 4096
      hpi := ⟨1, [], []⟩, sharedScratchSize := 8192, inputs := [], outputs := []
      inputStrides := fun _ => none, outputStrides := fun _ => none, profilingQuery := none
      userArgIndex := 1, userArgHandles := [], lastScratchBoHandle := UINT32_MAX }
  sType := .Generic
  bufferObjects := [inferenceBuffer]
  descriptor := none
  cmdNeedsUpdate := false
  sized := trivial

example : (VPUInferenceExecute.create (grantingContext []) ⟨8192⟩ ⟨1, [], []⟩ [] [] (fun _ => none)
    (fun _ => none) none 7 [inferenceBuffer]).1 = .ok scratchInference := rfl

/-- A preemption buffer, and contexts whose cached scratch buffers are in use. -/
def preemptionBuffer : VPUBufferObject := ⟨500, 501, 0, 4096, 2 ^ 31⟩

def busyContext : VPUDeviceContext := { grantingContext [] with useCount := fun _ _ => 2 }

/-- A command buffer with one inference, after its first update. -/
def scratchAllocation : Option VPUCommandBuffer × List VPUCommand × VPUDeviceContext :=
  allocateCommandBuffer busyContext 0 [scratchInference]

def scratchBufferOfOne : VPUCommandBuffer := scratchAllocation.1.getD (.new inferenceBuffer 0 0)

theorem scratchAllocation_some : scratchAllocation =
    (some scratchBufferOfOne, scratchAllocation.2.1, scratchAllocation.2.2) := by
  have success : scratchAllocation.1.isSome = true := by decide +kernel
  obtain ⟨cb, found⟩ := Option.isSome_iff_exists.mp success
  unfold scratchBufferOfOne
  rw [found]
  exact Prod.ext found rfl

def defaultQueue : VPUDeviceQueueManaged := ⟨1, 1, 2, false, false, none⟩

theorem preemptionIndex_valid_once :
    let calls := [.updateCommands [scratchInference] busyContext, .addPreemptionBuffer (some preemptionBuffer),
      .submit defaultQueue busyContext, .waitForCompletion busyContext,
      .updateCommands [scratchInference] busyContext, .addPreemptionBuffer (some preemptionBuffer)]
    Guarded BufferCall.run BufferCall.KeepsFront scratchBufferOfOne calls ∧
      (runFrom BufferCall.run scratchBufferOfOne calls).IndexNames := by
  intro calls
  have guarded : Guarded BufferCall.run BufferCall.KeepsFront scratchBufferOfOne calls := by
    decide +kernel
  exact ⟨guarded, (preemptionIndex_valid scratchAllocation_some guarded).1⟩

/-- The second update of a command buffer that is submitted twice without a wait in between takes
the first scratch handle from before the preemption buffer. The stored position then names the new
scratch buffer; the kernel is given it as the preemption buffer, and the wait takes it away. -/
theorem resubmission_moves_preemption_buffer :
    let first := scratchBufferOfOne.updateCommands [scratchInference] scratchAllocation.2.2
    let submitted := [.addPreemptionBuffer (some preemptionBuffer), .submit defaultQueue first.2.2.2].foldl
      BufferCall.run first.2.1
    let second := submitted.updateCommands first.2.2.1 first.2.2.2
    second.1 = true ∧ second.2.1.preemptionBuffer = some preemptionBuffer ∧
      second.2.1.bufferHandles = [1, 401, 501, 3] ∧ second.2.1.preemptionBufferIndex = some 3 ∧
      ¬ second.2.1.IndexNames ∧
      (defaultQueue.submitUntilReply second.2.1 second.2.2.2).2.2.calls =
        [.submit second.2.1.buffer [1, 401, 501, 3] 3 1 true] ∧
      (second.2.1.waitForCompletion second.2.2.2).2.1.bufferHandles = [1, 401, 501] := by
  intro first submitted second
  have handles : second.2.1.bufferHandles = [1, 401, 501, 3] := by decide +kernel
  have index : second.2.1.preemptionBufferIndex = some 3 := by decide +kernel
  have held : second.2.1.preemptionBuffer = some preemptionBuffer := by decide +kernel
  refine ⟨by decide +kernel, held, handles, index, ?_, by decide +kernel, by decide +kernel⟩
  intro names
  obtain ⟨-, -, bo, same, found⟩ := names 3 index
  rw [held] at same
  cases same
  rw [handles] at found
  exact absurd found (by decide)

end NpuDriver
