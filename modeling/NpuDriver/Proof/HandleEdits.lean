import NpuDriver.Proof.Placement

/-! The replacements of buffer handles that one `updateCommands` makes, read off the commands
before it runs. -/

namespace NpuDriver

open Library

/-- What the update of one command will do: whether its arguments can be applied, the replacements
of handles it makes, the buffer objects it is associated with afterwards. -/
structure UpdatePlan where
  success : Bool
  edits : List (Edit Nat)
  objects : List VPUBufferObject
  ctx : VPUDeviceContext

/-- The replacement of the scratch handle. -/
def VPUInferenceExecute.scratchEdits (inference : VPUInferenceExecute)
    (scratchBuffer : Option VPUBufferObject) : List (Edit Nat) :=
  match scratchBuffer with
  | none => []
  | some bo =>
    if inference.sharedScratchSize = 0 then [] else [⟨[inference.lastScratchBoHandle], [bo.handle]⟩]

/-- The replacement of the argument handles, which is refused for lists of different lengths. -/
def VPUInferenceExecute.argumentEdits (inference : VPUInferenceExecute) (userArgs : List VPUBufferObject) :
    List (Edit Nat) :=
  if inference.userArgHandles.length ≠ (userArgs.map VPUBufferObject.handle).length then []
  else [⟨inference.userArgHandles, userArgs.map VPUBufferObject.handle⟩]

def VPUCommand.updatePlan (cmd : VPUCommand) (scratchBuffer : Option VPUBufferObject)
    (ctx : VPUDeviceContext) : UpdatePlan :=
  match cmd.isInference with
  | none => ⟨true, [], cmd.bufferObjects, ctx⟩
  | some inference =>
    if !cmd.cmdNeedsUpdate then ⟨true, inference.scratchEdits scratchBuffer, cmd.bufferObjects, ctx⟩
    else
      match applyInputOutputs ctx inference.hpi inference.inputs inference.outputs
          inference.profilingQuery with
      | (none, next) => ⟨false, inference.scratchEdits scratchBuffer, cmd.bufferObjects, next⟩
      | (some userArgs, next) =>
        ⟨true, inference.scratchEdits scratchBuffer ++ inference.argumentEdits userArgs,
          appendAssociateBufferObjects (cmd.bufferObjects.take inference.userArgIndex) userArgs, next⟩

/-- All replacements in their order; the first command that fails is the last one looked at. -/
def updateEdits (scratchBuffer : Option VPUBufferObject) :
    List VPUCommand → VPUDeviceContext → List (Edit Nat)
  | [], _ => []
  | cmd :: rest, ctx =>
    let plan := cmd.updatePlan scratchBuffer ctx
    plan.edits ++ if plan.success then updateEdits scratchBuffer rest plan.ctx else []

/-- The buffer objects that each command is associated with afterwards. -/
def updatedObjects (scratchBuffer : Option VPUBufferObject) :
    List VPUCommand → VPUDeviceContext → List (List VPUBufferObject)
  | [], _ => []
  | cmd :: rest, ctx =>
    let plan := cmd.updatePlan scratchBuffer ctx
    plan.objects ::
      if plan.success then updatedObjects scratchBuffer rest plan.ctx
      else rest.map VPUCommand.bufferObjects

/-- A command buffer with another list of handles. -/
def VPUCommandBuffer.withHandles (cb : VPUCommandBuffer) (handles : List Nat) : VPUCommandBuffer :=
  { cb with bufferHandles := handles }

@[simp] theorem VPUCommandBuffer.withHandles_bufferHandles (cb : VPUCommandBuffer) (handles : List Nat) :
    (cb.withHandles handles).bufferHandles = handles := rfl

theorem VPUCommandBuffer.withHandles_withHandles (cb : VPUCommandBuffer) (first second : List Nat) :
    (cb.withHandles first).withHandles second = cb.withHandles second := rfl

/-- An inference with another handle of its last scratch buffer. -/
def VPUInferenceExecute.withScratch (inference : VPUInferenceExecute) (handle : Nat) : VPUInferenceExecute :=
  { inference with lastScratchBoHandle := handle }

/-- The arguments of an inference do not depend on its scratch buffer. -/
theorem VPUInferenceExecute.applyInputOutputs_withScratch (inference : VPUInferenceExecute) (handle : Nat)
    (ctx : VPUDeviceContext) :
    applyInputOutputs ctx (inference.withScratch handle).hpi (inference.withScratch handle).inputs
        (inference.withScratch handle).outputs (inference.withScratch handle).profilingQuery =
      applyInputOutputs ctx inference.hpi inference.inputs inference.outputs inference.profilingQuery := rfl

/-- How an update changes an inference: the handles of its arguments, whose number stays, and the
handle of the scratch buffer it was patched with. -/
structure VPUInferenceExecute.Refreshed (scratchBuffer : Option VPUBufferObject)
    (before after : VPUInferenceExecute) : Prop where
  sharedScratchSize : after.sharedScratchSize = before.sharedScratchSize
  hpi : after.hpi = before.hpi
  inputs : after.inputs = before.inputs
  outputs : after.outputs = before.outputs
  profilingQuery : after.profilingQuery = before.profilingQuery
  scratch : before.sharedScratchSize ≠ 0 → ∀ bo, scratchBuffer = some bo →
    after.lastScratchBoHandle = bo.handle
  handles : after.userArgHandles = before.userArgHandles ∨
    ∃ ctx userArgs next, applyInputOutputs ctx before.hpi before.inputs before.outputs
      before.profilingQuery = (some userArgs, next) ∧
      after.userArgHandles = userArgs.map VPUBufferObject.handle

namespace VPUCommand

/-- The scratch update of an inference replaces the handle in the buffer and remembers it. -/
theorem updateScratchBuffer_inference {cmd : VPUCommand} {inference : VPUInferenceExecute}
    (kind : cmd.command = .inferenceExecute inference) (cb : VPUCommandBuffer)
    (scratchBuffer : Option VPUBufferObject) :
    ∃ scratched handle, cmd.updateScratchBuffer cb scratchBuffer =
        (scratched, cb.withHandles (Edit.applyAll (inference.scratchEdits scratchBuffer) cb.bufferHandles)) ∧
      scratched.command = .inferenceExecute (inference.withScratch handle) ∧
      scratched.cmdNeedsUpdate = cmd.cmdNeedsUpdate ∧ scratched.bufferObjects = cmd.bufferObjects ∧
      (inference.sharedScratchSize ≠ 0 → ∀ bo, scratchBuffer = some bo → handle = bo.handle) := by
  unfold updateScratchBuffer VPUInferenceExecute.scratchEdits
  rw [kind]
  by_cases unused : inference.sharedScratchSize = 0
  · refine ⟨cmd, inference.lastScratchBoHandle, ?_, kind, rfl, rfl, fun used => absurd unused used⟩
    cases scratchBuffer <;> simp [unused, Edit.applyAll] <;> rfl
  · cases scratchBuffer with
    | none =>
      refine ⟨cmd, inference.lastScratchBoHandle, ?_, kind, rfl, rfl, fun _ bo given => absurd given.symm (Option.some_ne_none bo)⟩
      simp [unused, Edit.applyAll]
      rfl
    | some bo =>
      simp only [unused, ↓reduceIte]
      exact ⟨_, bo.handle, rfl, rfl, rfl, rfl, fun _ other same => by cases same; rfl⟩

theorem replaceArguments (cb : VPUCommandBuffer) (inference : VPUInferenceExecute)
    (userArgs : List VPUBufferObject) :
    (cb.replaceBufferHandles inference.userArgHandles (userArgs.map VPUBufferObject.handle)).2 =
      cb.withHandles (Edit.applyAll (inference.argumentEdits userArgs) cb.bufferHandles) := by
  unfold VPUCommandBuffer.replaceBufferHandles VPUInferenceExecute.argumentEdits
  split <;> rfl

/-- The step of `updateCommands` for one command carries out its plan. -/
theorem update_plan (cmd : VPUCommand) (cb : VPUCommandBuffer) (scratchBuffer : Option VPUBufferObject)
    (ctx : VPUDeviceContext) :
    let scratched := cmd.updateScratchBuffer cb scratchBuffer
    let plan := cmd.updatePlan scratchBuffer ctx
    ∃ updated, scratched.1.update scratched.2 ctx =
        (plan.success, updated, cb.withHandles (Edit.applyAll plan.edits cb.bufferHandles), plan.ctx) ∧
      updated.bufferObjects = plan.objects ∧
      (cmd.isInference = none → updated.isInference = none) ∧
      ∀ inference, cmd.isInference = some inference →
        ∃ after, updated.isInference = some after ∧ inference.Refreshed scratchBuffer after := by
  cases kind : cmd.command with
  | inferenceExecute inference =>
    have is : cmd.isInference = some inference := by simp [isInference, kind]
    obtain ⟨scratched, handle, first, scratchedKind, pending, objects, remembered⟩ :=
      updateScratchBuffer_inference kind cb scratchBuffer
    have isScratched : scratched.isInference = some (inference.withScratch handle) := by
      simp [isInference, scratchedKind]
    have keepsHandles : inference.Refreshed scratchBuffer (inference.withScratch handle) :=
      ⟨rfl, rfl, rfl, rfl, rfl, remembered, .inl rfl⟩
    simp only [first, update, scratchedKind, updatePlan, is, pending]
    by_cases needed : cmd.cmdNeedsUpdate = true
    · simp only [needed, Bool.not_true, Bool.false_eq_true, ↓reduceIte]
      rw [inference.applyInputOutputs_withScratch handle ctx]
      cases found : applyInputOutputs ctx inference.hpi inference.inputs inference.outputs
          inference.profilingQuery with
      | mk answer next =>
        cases answer with
        | none =>
          refine ⟨_, rfl, objects, nofun, ?_⟩
          intro other same
          cases same
          exact ⟨inference.withScratch handle, rfl, keepsHandles⟩
        | some userArgs =>
          simp only
          refine ⟨_, congrArg (fun edited => (true, _, edited, next)) ?_, by rw [objects]; rfl,
            nofun, ?_⟩
          · rw [Edit.applyAll_append]
            exact replaceArguments _ _ userArgs
          · intro other same
            cases same
            exact ⟨_, rfl, rfl, rfl, rfl, rfl, rfl, remembered, .inr ⟨ctx, userArgs, next, found, rfl⟩⟩
    · simp only [needed, Bool.not_false, ↓reduceIte]
      refine ⟨scratched, rfl, objects, nofun, ?_⟩
      intro other same
      cases same
      exact ⟨inference.withScratch handle, isScratched, keepsHandles⟩
  | _ =>
    have is : cmd.isInference = none := by simp [isInference, kind]
    refine ⟨cmd, ?_, ?_, fun _ => is, ?_⟩
    · simp [updateScratchBuffer, update, updatePlan, kind, is, Edit.applyAll]
      rfl
    · simp [updatePlan, is]
    · intro inference same
      rw [is] at same
      cases same

/-- How an update changes a command. -/
def Refreshed (scratchBuffer : Option VPUBufferObject) (before after : VPUCommand) : Prop :=
  (before.isInference = none → after.isInference = none) ∧
    ∀ inference, before.isInference = some inference →
      ∃ updated, after.isInference = some updated ∧ inference.Refreshed scratchBuffer updated

theorem Refreshed.weaken {before after : VPUCommand} (refreshed : Refreshed scratchBuffer before after) :
    Refreshed none before after := by
  refine ⟨refreshed.1, fun inference is => ?_⟩
  obtain ⟨updated, isUpdated, changed⟩ := refreshed.2 inference is
  exact ⟨updated, isUpdated, changed.sharedScratchSize, changed.hpi, changed.inputs, changed.outputs,
    changed.profilingQuery, nofun, changed.handles⟩

theorem Refreshed.refl (cmd : VPUCommand) : Refreshed none cmd cmd :=
  ⟨id, fun inference is => ⟨inference, is, rfl, rfl, rfl, rfl, rfl, nofun, .inl rfl⟩⟩

end VPUCommand

namespace VPUCommandBuffer

/-- The loop of `updateCommands` edits the handles as planned and leaves the rest of the buffer
alone; when it succeeds, every command was brought up to date. -/
theorem updateEach_plan (scratchBuffer : Option VPUBufferObject) (cb : VPUCommandBuffer)
    (cmds : List VPUCommand) (ctx : VPUDeviceContext) :
    ∃ success updated next, updateEach scratchBuffer cb cmds ctx =
        (success, cb.withHandles (Edit.applyAll (updateEdits scratchBuffer cmds ctx) cb.bufferHandles),
          updated, next) ∧
      updated.map VPUCommand.bufferObjects = updatedObjects scratchBuffer cmds ctx ∧
      List.Forall₂ (VPUCommand.Refreshed none) cmds updated ∧
      (success = true → List.Forall₂ (VPUCommand.Refreshed scratchBuffer) cmds updated) := by
  induction cmds generalizing cb ctx with
  | nil => exact ⟨true, [], ctx, rfl, rfl, .nil, fun _ => .nil⟩
  | cons cmd rest ih =>
    obtain ⟨updated, step, objects, other, inference⟩ := cmd.update_plan cb scratchBuffer ctx
    have refreshed : VPUCommand.Refreshed scratchBuffer cmd updated := ⟨other, inference⟩
    generalize plan_eq : cmd.updatePlan scratchBuffer ctx = plan at step objects
    obtain ⟨success, edits, planned, next⟩ := plan
    cases success with
    | false =>
      refine ⟨false, updated :: rest, next, ?_, ?_, ?_, by simp⟩
      · simp [updateEach, step, updateEdits, plan_eq]
      · simp [updatedObjects, plan_eq, objects]
      · exact .cons refreshed.weaken (List.forall₂_same.mpr fun later _ => VPUCommand.Refreshed.refl later)
    | true =>
      obtain ⟨finished, others, final, loop, rest_objects, kept, all⟩ :=
        ih (cb.withHandles (Edit.applyAll edits cb.bufferHandles)) next
      refine ⟨finished, updated :: others, final, ?_, ?_, .cons refreshed.weaken kept,
        fun success => .cons refreshed (all success)⟩
      · simp only [updateEach, step, loop, updateEdits, plan_eq, ↓reduceIte, Edit.applyAll_append,
          withHandles_withHandles, withHandles_bufferHandles]
      · simp [updatedObjects, plan_eq, objects, rest_objects]

/-- The scratch buffer of one `updateCommands`, `none` where it cannot be acquired. -/
def plannedScratch (cb : VPUCommandBuffer) (ctx : VPUDeviceContext) :
    Option (Option VPUBufferObject) × VPUDeviceContext :=
  if cb.inferenceScratchSize = 0 then (some cb.inferenceScratchBuffer, ctx)
  else
    match ctx.scratchCacheAcquire cb.inferenceScratchSize with
    | (none, next) => (none, next)
    | (some bo, next) => (some (some bo), next)

/-- The replacements of one `updateCommands`. -/
def plannedEdits (cb : VPUCommandBuffer) (cmds : List VPUCommand) (ctx : VPUDeviceContext) :
    List (Edit Nat) :=
  match cb.plannedScratch ctx with
  | (none, _) => []
  | (some scratchBuffer, next) => updateEdits scratchBuffer cmds next

/-- The associated buffer objects after one `updateCommands`. -/
def plannedObjects (cb : VPUCommandBuffer) (cmds : List VPUCommand) (ctx : VPUDeviceContext) :
    List (List VPUBufferObject) :=
  match cb.plannedScratch ctx with
  | (none, _) => cmds.map VPUCommand.bufferObjects
  | (some scratchBuffer, next) => updatedObjects scratchBuffer cmds next

def withScratchBuffer (cb : VPUCommandBuffer) (scratchBuffer : Option VPUBufferObject) : VPUCommandBuffer :=
  { cb with inferenceScratchBuffer := scratchBuffer }

/-- `updateCommands` edits the handles as planned, and the scratch buffer is the planned one. -/
theorem updateCommands_plan (cb : VPUCommandBuffer) (cmds : List VPUCommand) (ctx : VPUDeviceContext) :
    ∃ success scratchBuffer updated next, cb.updateCommands cmds ctx =
        (success, (cb.withScratchBuffer scratchBuffer).withHandles
          (Edit.applyAll (cb.plannedEdits cmds ctx) cb.bufferHandles), updated, next) ∧
      updated.map VPUCommand.bufferObjects = cb.plannedObjects cmds ctx ∧
      List.Forall₂ (VPUCommand.Refreshed none) cmds updated ∧
      (success = true → (cb.plannedScratch ctx).1 = some scratchBuffer ∧
        List.Forall₂ (VPUCommand.Refreshed scratchBuffer) cmds updated) ∧
      (cb.inferenceScratchSize = 0 → scratchBuffer = cb.inferenceScratchBuffer) ∧
      (success = true → cb.inferenceScratchSize ≠ 0 → ∃ bo, scratchBuffer = some bo) := by
  unfold updateCommands plannedEdits plannedObjects plannedScratch
  by_cases unused : cb.inferenceScratchSize = 0
  · obtain ⟨success, updated, next, loop, objects, kept, all⟩ :=
      updateEach_plan cb.inferenceScratchBuffer cb cmds ctx
    simp only [unused, ↓reduceIte]
    exact ⟨success, cb.inferenceScratchBuffer, updated, next, loop, objects, kept,
      fun success => ⟨rfl, all success⟩, fun _ => rfl, fun _ used => absurd rfl used⟩
  · simp only [unused, ↓reduceIte]
    cases ctx.scratchCacheAcquire cb.inferenceScratchSize with
    | mk answer next =>
      cases answer with
      | none =>
        exact ⟨false, none, cmds, next, rfl, rfl,
          List.forall₂_same.mpr fun cmd _ => VPUCommand.Refreshed.refl cmd, by simp, by simp, by simp⟩
      | some bo =>
        obtain ⟨success, updated, final, loop, objects, kept, all⟩ :=
          updateEach_plan (some bo) (cb.withScratchBuffer (some bo)) cmds next
        exact ⟨success, some bo, updated, final, loop, objects, kept,
          fun success => ⟨rfl, all success⟩, by simp, fun _ _ => ⟨bo, rfl⟩⟩

/-- A successful update makes every planned scratch replacement. -/
theorem updateEach_scratch (scratchBuffer : Option VPUBufferObject) (cb : VPUCommandBuffer)
    (cmds : List VPUCommand) (ctx : VPUDeviceContext)
    (success : (updateEach scratchBuffer cb cmds ctx).1 = true) :
    ∀ cmd ∈ cmds, ∀ inference, cmd.isInference = some inference →
      ∀ edit ∈ inference.scratchEdits scratchBuffer, edit ∈ updateEdits scratchBuffer cmds ctx := by
  induction cmds generalizing cb ctx with
  | nil => simp
  | cons cmd rest ih =>
    obtain ⟨updated, step, -⟩ := cmd.update_plan cb scratchBuffer ctx
    have planned : ∀ inference, cmd.isInference = some inference →
        ∀ edit ∈ inference.scratchEdits scratchBuffer, edit ∈ (cmd.updatePlan scratchBuffer ctx).edits := by
      intro inference is edit member
      simp only [VPUCommand.updatePlan, is]
      split
      · exact member
      · split
        · exact member
        · exact List.mem_append_left _ member
    simp only [updateEach, step] at success
    intro other member inference is edit replaced
    cases plan_success : (cmd.updatePlan scratchBuffer ctx).success with
    | false => simp [plan_success] at success
    | true =>
      simp only [plan_success] at success
      simp only [updateEdits, plan_success, ↓reduceIte]
      rcases List.mem_cons.mp member with rfl | later
      · exact List.mem_append_left _ (planned inference is edit replaced)
      · exact List.mem_append_right _ (ih _ _ success other later inference is edit replaced)

/-- After a successful update every inference with scratch was patched with one buffer, whose handle
was brought into the list. -/
theorem updateCommands_scratch {cb : VPUCommandBuffer} {cmds : List VPUCommand} {ctx : VPUDeviceContext}
    (success : (cb.updateCommands cmds ctx).1 = true) {bo : VPUBufferObject}
    (planned : (cb.plannedScratch ctx).1 = some (some bo)) {cmd : VPUCommand} (member : cmd ∈ cmds)
    {inference : VPUInferenceExecute} (is : cmd.isInference = some inference)
    (used : inference.sharedScratchSize ≠ 0) : ∃ edit ∈ cb.plannedEdits cmds ctx, bo.handle ∈ edit.added := by
  have replaced : ⟨[inference.lastScratchBoHandle], [bo.handle]⟩ ∈ inference.scratchEdits (some bo) := by
    simp [VPUInferenceExecute.scratchEdits, used]
  refine ⟨⟨[inference.lastScratchBoHandle], [bo.handle]⟩, ?_, List.mem_singleton_self _⟩
  unfold updateCommands at success
  unfold plannedScratch at planned
  unfold plannedEdits plannedScratch
  by_cases unused : cb.inferenceScratchSize = 0
  · simp only [unused, ↓reduceIte, Option.some.injEq] at success planned ⊢
    rw [planned] at success ⊢
    exact updateEach_scratch _ cb cmds ctx success cmd member inference is _ replaced
  · simp only [unused, ↓reduceIte] at success planned ⊢
    generalize ctx.scratchCacheAcquire cb.inferenceScratchSize = answer at success planned
    obtain ⟨acquired, next⟩ := answer
    cases acquired with
    | none => cases success
    | some other =>
      cases planned
      exact updateEach_scratch _ _ cmds next success cmd member inference is _ replaced

end VPUCommandBuffer

end NpuDriver
