import NpuDriver.Proof.JobClosing
import NpuDriver.Proof.ReferencedHandles
import NpuDriver.Proof.UpdateAtomicity

/-! What the loader holds for the inferences of a job: the arguments that each of them was patched
with, beside those that were asked for. -/

namespace NpuDriver

open Library VPUCommandBuffer

/-- The arguments of an inference: the pointers and the strides of its inputs and outputs. -/
structure Arguments where
  inputs : List Nat
  outputs : List Nat
  inputStrides : Nat → Option ArgumentStrides
  outputStrides : Nat → Option ArgumentStrides

/-- Arguments that the loader has patched an inference with, the buffers they lie in, and the context
that these were found in. -/
structure LoaderPatch where
  arguments : Arguments
  bos : List VPUBufferObject
  ctx : VPUDeviceContext

def VPUInferenceExecute.arguments (inference : VPUInferenceExecute) : Arguments :=
  ⟨inference.inputs, inference.outputs, inference.inputStrides, inference.outputStrides⟩

/-- One argument moves to another pointer if there is one, and to the strides that come with it. -/
def Arguments.update (arguments : Arguments) (entry : Nat × ArgumentUpdates) : Arguments :=
  if entry.1 < arguments.inputs.length then
    { arguments with
      inputs := setPointer arguments.inputs entry.1 entry.2.ptr
      inputStrides := Function.update arguments.inputStrides entry.1 entry.2.strides }
  else
    { arguments with
      outputs := setPointer arguments.outputs (entry.1 - arguments.inputs.length) entry.2.ptr
      outputStrides :=
        Function.update arguments.outputStrides (entry.1 - arguments.inputs.length) entry.2.strides }

/-- How the turn of a command in an update ends for its arguments: there is nothing to do or the turn
never comes, the buffers are not found, the loader throws, or the inference is patched. -/
inductive Attempt where
  | untouched
  | refused
  | thrown
  | patched (patch : LoaderPatch)

def Attempt.succeeded : Attempt → Bool
  | untouched => true
  | refused => false
  | thrown => false
  | patched _ => true

/-- The loader counts its calls. -/
def Attempt.next (ctx : VPUDeviceContext) : Attempt → VPUDeviceContext
  | untouched => ctx
  | refused => ctx
  | thrown => { ctx with applied := ctx.applied + 1 }
  | patched _ => { ctx with applied := ctx.applied + 1 }

def VPUCommand.attempt (cmd : VPUCommand) (ctx : VPUDeviceContext) : Attempt :=
  match cmd.isInference with
  | none => .untouched
  | some inference =>
    if !cmd.cmdNeedsUpdate then .untouched
    else
      match findArgumentBuffers ctx inference.hpi inference.inputs inference.outputs
          inference.profilingQuery with
      | none => .refused
      | some bos => if ctx.loader ctx.applied then .patched ⟨inference.arguments, bos, ctx⟩ else .thrown

/-- The turns of the commands of one command buffer; none comes behind a failure. -/
def attempts : List VPUCommand → VPUDeviceContext → List Attempt
  | [], _ => []
  | cmd :: rest, ctx =>
    let attempt := cmd.attempt ctx
    attempt ::
      if attempt.succeeded then attempts rest (attempt.next ctx) else rest.map fun _ => .untouched

namespace Share

def attempts (share : Share) (ctx : VPUDeviceContext) : List Attempt :=
  match share.cmdBuffer.plannedScratch ctx with
  | (none, _) => share.commands.map fun _ => .untouched
  | (some _, next) => NpuDriver.attempts share.commands next

def attemptsAll (ctx : VPUDeviceContext) : List Share → List Attempt
  | [] => []
  | share :: rest =>
    share.attempts ctx ++
      if (share.update ctx).1 then attemptsAll (share.update ctx).2.2 rest
      else (rest.flatMap Share.commands).map fun _ => .untouched

end Share

/-- What is known of a command: for an inference the arguments of the latest update that was accepted, what
the loader has patched it with (none where it threw), and whether an update has failed since. -/
structure Record where
  wanted : Option Arguments
  patched : Option LoaderPatch
  failed : Bool

namespace Record

def attempted (record : Record) : Attempt → Record
  | .untouched => record
  | .refused => { record with failed := true }
  | .thrown => { record with patched := none, failed := true }
  | .patched patch => { record with patched := some patch, failed := false }

def requested (record : Record) (updatesMap : ArgumentUpdatesMap) : Record :=
  { record with wanted := record.wanted.map (updatesMap.foldl Arguments.update), failed := false }

end Record

/-- The loader, the associated buffers and the remembered handles agree on the arguments that were
asked for. -/
def VPUCommand.RunsWanted (cmd : VPUCommand) (inference : VPUInferenceExecute) (record : Record) : Prop :=
  ∃ patch, record.patched = some patch ∧ record.wanted = some patch.arguments ∧
    patch.ctx.loader patch.ctx.applied = true ∧
    findArgumentBuffers patch.ctx inference.hpi patch.arguments.inputs patch.arguments.outputs
      inference.profilingQuery = some patch.bos ∧
    cmd.bufferObjects =
      appendAssociateBufferObjects (cmd.bufferObjects.take inference.userArgIndex) patch.bos ∧
    inference.userArgHandles = patch.bos.map VPUBufferObject.handle

/-- The record of a command tells what is known of it. -/
structure VPUCommand.Tracked (cmd : VPUCommand) (record : Record) : Prop where
  fixed : ∀ inference, cmd.isInference = some inference → inference.userArgIndex ≤ cmd.bufferObjects.length
  wanted : cmd.isInference.map VPUInferenceExecute.arguments = record.wanted
  failed : record.failed = true → cmd.cmdNeedsUpdate = false
  settled : ∀ inference, cmd.isInference = some inference → cmd.cmdNeedsUpdate = false →
    record.failed = false → cmd.RunsWanted inference record

/-- No update of the command is pending. -/
def VPUCommand.Settled (cmd : VPUCommand) : Prop :=
  ∀ inference, cmd.isInference = some inference → cmd.cmdNeedsUpdate = false

namespace VPUCommand

/-- What a command is tracked by does not depend on the rest of it. -/
theorem Tracked.congr {before after : VPUCommand} {record : Record} (tracked : before.Tracked record)
    (arguments : after.isInference.map VPUInferenceExecute.arguments =
      before.isInference.map VPUInferenceExecute.arguments)
    (inference : ∀ later, after.isInference = some later → ∃ former, before.isInference = some former ∧
      later.hpi = former.hpi ∧ later.profilingQuery = former.profilingQuery ∧
      later.userArgIndex = former.userArgIndex ∧ later.userArgHandles = former.userArgHandles)
    (objects : after.bufferObjects = before.bufferObjects)
    (pending : after.cmdNeedsUpdate = before.cmdNeedsUpdate) : after.Tracked record := by
  constructor
  · intro later is
    obtain ⟨former, was, -, -, index, -⟩ := inference later is
    rw [index, objects]
    exact tracked.fixed former was
  · exact arguments.trans tracked.wanted
  · intro failed
    exact pending.trans (tracked.failed failed)
  · intro later is settled whole
    obtain ⟨former, was, hpi, profilingQuery, index, handles⟩ := inference later is
    obtain ⟨patch, patched, wanted, loads, found, associated, remembered⟩ :=
      tracked.settled former was (pending.symm.trans settled) whole
    refine ⟨patch, patched, wanted, loads, ?_, ?_, handles.trans remembered⟩
    · rw [hpi, profilingQuery]
      exact found
    · rw [objects, index]
      exact associated

/-- The scratch buffer of an inference has nothing to do with its arguments. -/
theorem Tracked.scratched {cmd : VPUCommand} {record : Record} (tracked : cmd.Tracked record)
    (cb : VPUCommandBuffer) (scratchBuffer : Option VPUBufferObject) (ctx : VPUDeviceContext) :
    (cmd.updateScratchBuffer cb scratchBuffer).1.Tracked record ∧
      (cmd.updateScratchBuffer cb scratchBuffer).1.attempt ctx = cmd.attempt ctx := by
  cases kind : cmd.command with
  | inferenceExecute inference =>
    have is : cmd.isInference = some inference := by simp [isInference, kind]
    obtain ⟨scratched, handle, first, scratchedKind, pending, objects, -⟩ :=
      updateScratchBuffer_inference kind cb scratchBuffer
    have isScratched : scratched.isInference = some (inference.withScratch handle) := by
      simp [isInference, scratchedKind]
    rw [first]
    constructor
    · refine tracked.congr ?_ ?_ objects pending
      · rw [isScratched, is]
        rfl
      · intro later same
        obtain rfl := Option.some.inj (isScratched.symm.trans same)
        exact ⟨inference, is, rfl, rfl, rfl, rfl⟩
    · simp only [attempt, isScratched, is, pending]
      rfl
  | _ =>
    have kept : (cmd.updateScratchBuffer cb scratchBuffer).1 = cmd := by
      simp [updateScratchBuffer, kind]
    rw [kept]
    exact ⟨tracked, rfl⟩

/-- Behind the buffer objects of the inference itself stand those of its arguments. -/
theorem take_appendAssociateBufferObjects {objects : List VPUBufferObject} {count : Nat}
    (inside : count ≤ objects.length) (bos : List VPUBufferObject) :
    count ≤ (appendAssociateBufferObjects (objects.take count) bos).length ∧
      (appendAssociateBufferObjects (objects.take count) bos).take count = objects.take count := by
  obtain ⟨extra, whole, -⟩ := appendAssociateBufferObjects_append (objects.take count) bos
  rw [whole]
  constructor
  · rw [List.length_append, List.length_take_of_le inside]
    exact Nat.le_add_right count extra.length
  · exact List.take_left' (List.length_take_of_le inside)

/-- After a failure the arguments are no longer pending. -/
theorem Tracked.failing {cmd after : VPUCommand} {record noted : Record} (tracked : cmd.Tracked record)
    (inference : after.isInference = cmd.isInference) (objects : after.bufferObjects = cmd.bufferObjects)
    (settled : after.cmdNeedsUpdate = false) (wanted : noted.wanted = record.wanted)
    (failed : noted.failed = true) : after.Tracked noted := by
  constructor
  · rw [inference, objects]
    exact tracked.fixed
  · rw [inference, wanted]
    exact tracked.wanted
  · intro _
    exact settled
  · intro _ _ _ whole
    cases failed.symm.trans whole

/-- An update goes as its attempt tells, and the record notes it. -/
theorem Tracked.update {cmd : VPUCommand} {record : Record} (tracked : cmd.Tracked record)
    (cb : VPUCommandBuffer) (ctx : VPUDeviceContext) :
    ∃ updated edited, cmd.update cb ctx =
        ((cmd.attempt ctx).succeeded, updated, edited, (cmd.attempt ctx).next ctx) ∧
      updated.Tracked (record.attempted (cmd.attempt ctx)) ∧ updated.Settled := by
  cases kind : cmd.command with
  | inferenceExecute inference =>
    have is : cmd.isInference = some inference := by simp [isInference, kind]
    by_cases needed : cmd.cmdNeedsUpdate = true
    · have asked : record.wanted = some inference.arguments := by
        rw [← tracked.wanted, is]
        rfl
      simp only [VPUCommand.update, attempt, kind, is, needed, applyInputOutputs, Bool.not_true,
        Bool.false_eq_true, ↓reduceIte]
      cases found : findArgumentBuffers ctx inference.hpi inference.inputs inference.outputs
          inference.profilingQuery with
      | none => exact ⟨_, cb, rfl, tracked.failing is.symm rfl rfl rfl rfl, fun _ _ => rfl⟩
      | some bos =>
        by_cases loads : ctx.loader ctx.applied = true
        · simp only [loads, ↓reduceIte]
          refine ⟨_, _, rfl, ?_, fun _ _ => rfl⟩
          have inside := tracked.fixed inference is
          obtain ⟨longer, front⟩ := take_appendAssociateBufferObjects inside bos
          constructor
          · intro later same
            cases same
            exact longer
          · exact asked.symm
          · intro failed
            cases failed
          · intro later same _ _
            cases same
            refine ⟨⟨inference.arguments, bos, ctx⟩, rfl, asked, loads, found, ?_, rfl⟩
            · exact congrArg (appendAssociateBufferObjects · bos) front.symm
        · simp only [loads, Bool.false_eq_true, ↓reduceIte]
          exact ⟨_, cb, rfl, tracked.failing is.symm rfl rfl rfl rfl, fun _ _ => rfl⟩
    · simp only [VPUCommand.update, attempt, kind, is, needed, Bool.not_false, ↓reduceIte]
      refine ⟨cmd, cb, rfl, tracked, ?_⟩
      intro _ _
      exact Bool.eq_false_of_not_eq_true needed
  | _ =>
    have is : cmd.isInference = none := by simp [isInference, kind]
    refine ⟨cmd, cb, ?_, ?_, ?_⟩
    · simp [VPUCommand.update, attempt, kind, is, Attempt.succeeded, Attempt.next]
    · simp only [attempt, is]
      exact tracked
    · intro inference same
      cases is.symm.trans same

end VPUCommand

theorem Readdressed.inference {cmd patched : VPUCommand} (same : Readdressed cmd patched)
    {inference : VPUInferenceExecute} (is : patched.isInference = some inference) :
    cmd.isInference = some inference ∧ patched.cmdNeedsUpdate = cmd.cmdNeedsUpdate := by
  rcases same with rfl | ⟨address, rfl⟩
  · exact ⟨is, rfl⟩
  · unfold VPUCommand.patchDescriptorAddress at is ⊢
    split at is
    · cases is
    · exact ⟨is, rfl⟩

/-- The address of a descriptor block has nothing to do with the arguments of inferences. -/
theorem Readdressed.tracked {cmd patched : VPUCommand} (same : Readdressed cmd patched) {record : Record}
    (tracked : cmd.Tracked record) : patched.Tracked record := by
  rcases same with rfl | ⟨address, rfl⟩
  · exact tracked
  · unfold VPUCommand.patchDescriptorAddress
    split
    · rename_i kind
      refine tracked.congr ?_ ?_ rfl rfl
      · simp [VPUCommand.isInference, kind]
      · intro later is
        cases is
    · exact tracked

/-- How an update goes: the records note the attempts, nothing is attempted where an update has failed, and
no attempt of a successful update fails or leaves arguments pending. -/
structure Goes (records : List Record) (attempts : List Attempt) (success : Bool) (after : List VPUCommand) :
    Prop where
  tracked : List.Forall₂ VPUCommand.Tracked after (List.zipWith Record.attempted records attempts)
  fits : List.Forall₂ (fun record attempt => record.failed = true → attempt = .untouched) records attempts
  settled : success = true → ∀ cmd ∈ after, cmd.Settled
  succeeded : success = true → ∀ attempt ∈ attempts, attempt.succeeded = true

/-- Commands whose turn never comes keep their records. -/
theorem Goes.untouched {cmds : List VPUCommand} {records : List Record}
    (tracked : List.Forall₂ VPUCommand.Tracked cmds records) :
    Goes records (cmds.map fun _ => .untouched) false cmds := by
  have fits : List.Forall₂ (fun record attempt => record.failed = true → attempt = Attempt.untouched) records
      (cmds.map fun _ => .untouched) := by
    rw [List.forall₂_map_right_iff]
    exact tracked.flip.imp fun _ _ _ _ => rfl
  have kept : List.zipWith Record.attempted records (cmds.map fun _ => .untouched) = records := by
    induction tracked with
    | nil => rfl
    | cons _ _ ih =>
      cases fits with
      | cons _ others => exact congrArg _ (ih others)
  refine ⟨?_, fits, nofun, nofun⟩
  rw [kept]
  exact tracked

/-- Updates one behind the other, the second one after a success of the first one at most. -/
theorem Goes.append {front back : List Record} {early late : List Attempt} {first second : Bool}
    {before after : List VPUCommand} (left : Goes front early first before)
    (right : Goes back late second after) (follows : second = true → first = true) :
    Goes (front ++ back) (early ++ late) second (before ++ after) := by
  constructor
  · rw [List.zipWith_append left.fits.length_eq]
    exact List.rel_append left.tracked right.tracked
  · exact List.rel_append left.fits right.fits
  · intro success cmd member
    rcases List.mem_append.mp member with here | behind
    · exact left.settled (follows success) cmd here
    · exact right.settled success cmd behind
  · intro success attempt member
    rcases List.mem_append.mp member with here | behind
    · exact left.succeeded (follows success) attempt here
    · exact right.succeeded success attempt behind

theorem VPUCommand.Tracked.attempt_fits {cmd : VPUCommand} {record : Record} (tracked : cmd.Tracked record)
    (ctx : VPUDeviceContext) : record.failed = true → cmd.attempt ctx = .untouched := by
  intro failed
  unfold attempt
  split
  · rfl
  · rw [tracked.failed failed]
    rfl

/-- One turn of the loop of `updateCommands`. -/
theorem VPUCommand.Tracked.turn {cmd : VPUCommand} {record : Record} (tracked : cmd.Tracked record)
    (cb : VPUCommandBuffer) (scratchBuffer : Option VPUBufferObject) (ctx : VPUDeviceContext) :
    let scratched := cmd.updateScratchBuffer cb scratchBuffer
    ∃ updated edited, scratched.1.update scratched.2 ctx =
        ((cmd.attempt ctx).succeeded, updated, edited, (cmd.attempt ctx).next ctx) ∧
      Goes [record] [cmd.attempt ctx] (cmd.attempt ctx).succeeded [updated] := by
  obtain ⟨scratched, attempt_eq⟩ := tracked.scratched cb scratchBuffer ctx
  obtain ⟨updated, edited, step, noted, settled⟩ :=
    scratched.update (cmd.updateScratchBuffer cb scratchBuffer).2 ctx
  rw [attempt_eq] at step noted
  refine ⟨updated, edited, step, ?_⟩
  constructor
  · exact .cons noted .nil
  · exact .cons (tracked.attempt_fits ctx) .nil
  · intro _ cmd member
    rw [List.mem_singleton.mp member]
    exact settled
  · intro success attempt member
    rw [List.mem_singleton.mp member]
    exact success

/-- The loop of `updateCommands` goes as the attempts tell. -/
theorem VPUCommandBuffer.updateEach_attempts (scratchBuffer : Option VPUBufferObject) (cb : VPUCommandBuffer)
    {cmds : List VPUCommand} {records : List Record} (tracked : List.Forall₂ VPUCommand.Tracked cmds records)
    (ctx : VPUDeviceContext) :
    Goes records (attempts cmds ctx) (updateEach scratchBuffer cb cmds ctx).1
      (updateEach scratchBuffer cb cmds ctx).2.2.1 := by
  induction tracked generalizing cb ctx with
  | nil => exact ⟨.nil, .nil, fun _ => List.forall_mem_nil _, fun _ => List.forall_mem_nil _⟩
  | @cons cmd record rest records head tail ih =>
    obtain ⟨updated, edited, step, goes⟩ := head.turn cb scratchBuffer ctx
    simp only [updateEach, attempts, step]
    cases success : (cmd.attempt ctx).succeeded with
    | false =>
      rw [if_neg Bool.false_ne_true]
      exact goes.append (.untouched tail) fun succeeded => absurd succeeded Bool.false_ne_true
    | true =>
      rw [if_pos rfl]
      exact goes.append (ih edited ((cmd.attempt ctx).next ctx)) fun _ => success

namespace Share

theorem update_attempts {share : Share} {records : List Record}
    (tracked : List.Forall₂ VPUCommand.Tracked share.commands records) (ctx : VPUDeviceContext) :
    Goes records (share.attempts ctx) (share.update ctx).1 (share.update ctx).2.1.commands := by
  unfold update attempts plannedScratch updateCommands
  by_cases unused : share.cmdBuffer.inferenceScratchSize = 0
  · simp only [unused, ↓reduceIte]
    exact updateEach_attempts _ _ tracked ctx
  · simp only [unused, ↓reduceIte]
    generalize ctx.scratchCacheAcquire share.cmdBuffer.inferenceScratchSize = answer
    obtain ⟨acquired, next⟩ := answer
    cases acquired with
    | none => exact .untouched tracked
    | some bo => exact updateEach_attempts _ _ tracked next

/-- The update of all shares goes as the attempts tell. -/
theorem updateAll_attempts {shares : List Share} {records : List Record}
    (tracked : List.Forall₂ VPUCommand.Tracked (shares.flatMap Share.commands) records)
    (ctx : VPUDeviceContext) :
    Goes records (attemptsAll ctx shares) (updateAll ctx shares).1
      ((updateAll ctx shares).2.1.flatMap Share.commands) := by
  induction shares generalizing records ctx with
  | nil =>
    cases tracked
    exact ⟨.nil, .nil, fun _ => List.forall_mem_nil _, fun _ => List.forall_mem_nil _⟩
  | cons share rest ih =>
    rw [List.flatMap_cons] at tracked
    obtain ⟨front, back, rfl, own, others⟩ := pointwise_append tracked
    have goes := update_attempts own ctx
    rw [attemptsAll, updateAll]
    generalize share.update ctx = answer at goes
    obtain ⟨success, updated, next⟩ := answer
    cases success with
    | false =>
      rw [if_neg Bool.false_ne_true]
      exact goes.append (.untouched others) fun succeeded => absurd succeeded Bool.false_ne_true
    | true => exact goes.append (ih others next) fun _ => rfl

end Share

end NpuDriver
