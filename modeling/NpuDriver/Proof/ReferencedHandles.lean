import NpuDriver.Proof.ListedHandles

/-! The handles that a command buffer lists are those of buffers that it or one of its commands refers
to, and updates keep it so. -/

namespace NpuDriver

open Library

def VPUCommandBuffer.preemptionHandles (cb : VPUCommandBuffer) : List Nat :=
  cb.preemptionBuffer.toList.map VPUBufferObject.handle

def VPUCommandBuffer.scratchBufferHandles (cb : VPUCommandBuffer) : List Nat :=
  cb.inferenceScratchBuffer.toList.map VPUBufferObject.handle

/-- The handles of the buffers that stay with a command buffer between submissions. -/
def heldHandles (cb : VPUCommandBuffer) (cmds : List VPUCommand) : List Nat :=
  keptHandles cb cmds ++ cb.preemptionHandles

/-- The handles of all buffers that a command buffer and its commands refer to. -/
def referencedHandles (cb : VPUCommandBuffer) (cmds : List VPUCommand) : List Nat :=
  heldHandles cb cmds ++ cb.scratchBufferHandles

/-- The argument buffers of an inference are those whose handles it remembers. -/
def VPUCommand.Remembers (cmd : VPUCommand) : Prop :=
  ∀ inference, cmd.isInference = some inference →
    ∀ bo ∈ cmd.bufferObjects.drop inference.userArgIndex, bo.handle ∈ inference.userArgHandles

/-- Nothing but held and some further handles is listed. -/
def ListsOnly (cb : VPUCommandBuffer) (cmds : List VPUCommand) (further : List Nat) : Prop :=
  ∀ handle ∈ cb.bufferHandles, handle ∈ heldHandles cb cmds ∨ handle ∈ further

/-- The list of handles of a command buffer between submissions: a handle of a scratch buffer is one
that the next update replaces. -/
structure Sourced (cb : VPUCommandBuffer) (cmds : List VPUCommand) : Prop where
  listed : ListsOnly cb cmds (scratchHandles cmds)
  mapped : cb.buffer.basePtr ≠ 0
  room : commandListOffset ≤ cb.buffer.allocSize
  balanced : ∀ cmd ∈ cmds, cmd.Balanced
  remembers : ∀ cmd ∈ cmds, cmd.Remembers
  scratchSize : ∀ cmd ∈ cmds, ∀ inference, cmd.isInference = some inference →
    inference.sharedScratchSize ≠ 0 → cb.inferenceScratchSize ≠ 0

/-- The list of handles of a command buffer that can be submitted. -/
structure Referenced (cb : VPUCommandBuffer) (cmds : List VPUCommand) : Prop extends Sourced cb cmds where
  referenced : ListsOnly cb cmds cb.scratchBufferHandles

theorem mem_heldHandles {cb : VPUCommandBuffer} {cmds : List VPUCommand} : handle ∈ heldHandles cb cmds ↔
    handle = cb.buffer.handle ∨ handle ∈ objectHandles cmds ∨ handle ∈ cb.guardHandles ∨
      handle ∈ cb.preemptionHandles := by
  simp [heldHandles, keptHandles]

theorem objectHandles_cons (cmd : VPUCommand) (rest : List VPUCommand) :
    objectHandles (cmd :: rest) = cmd.bufferObjects.map VPUBufferObject.handle ++ objectHandles rest := rfl

theorem getDeviceBuffers_mem {ctx : VPUDeviceContext} {ptrs sizes : List Nat} {bos : List VPUBufferObject}
    (found : getDeviceBuffers ctx ptrs sizes = some bos) : ∀ bo ∈ bos, bo ∈ ctx.trackedBuffers := by
  induction ptrs generalizing sizes bos with
  | nil =>
    cases sizes with
    | nil =>
      cases found
      exact nofun
    | cons size rest => cases found
  | cons ptr others ih =>
    cases sizes with
    | nil => cases found
    | cons size rest =>
      unfold getDeviceBuffers at found
      split at found
      · cases found
      · rename_i hit located
        split at found
        · cases found
        · obtain ⟨tail, later, rfl⟩ := Option.map_eq_some_iff.mp found
          intro bo member
          rcases List.mem_cons.mp member with rfl | behind
          · exact ctx.findBufferObject_mem located
          · exact ih later bo behind

/-- The buffers that the arguments of an inference can lie in. -/
def VPUInferenceExecute.argumentBuffers (inference : VPUInferenceExecute) (ctx : VPUDeviceContext) :
    List VPUBufferObject :=
  ctx.trackedBuffers ++ (inference.profilingQuery.bind GraphProfilingQuery.bo).toList

/-- The lookups of the arguments yield tracked buffers and the one of the profiling query. -/
theorem applyInputOutputs_mem {ctx next : VPUDeviceContext} {inference : VPUInferenceExecute}
    {bos : List VPUBufferObject}
    (applied : applyInputOutputs ctx inference.hpi inference.inputs inference.outputs
      inference.profilingQuery = (some bos, next)) : ∀ bo ∈ bos, bo ∈ inference.argumentBuffers ctx := by
  unfold applyInputOutputs at applied
  split at applied
  · cases applied
  · rename_i found lookups
    simp only at applied
    split at applied
    · cases applied
      unfold findArgumentBuffers at lookups
      split at lookups
      · cases lookups
      · rename_i inputBos inputsFound
        split at lookups
        · cases lookups
        · rename_i outputBos outputsFound
          obtain ⟨profiling, profilingFound, rfl⟩ := Option.map_eq_some_iff.mp lookups
          intro bo member
          rcases List.mem_append.mp member with tracked | query
          · rcases List.mem_append.mp tracked with input | output
            · exact List.mem_append_left _ (getDeviceBuffers_mem inputsFound bo input)
            · exact List.mem_append_left _ (getDeviceBuffers_mem outputsFound bo output)
          · refine List.mem_append_right _ ?_
            cases asked : inference.profilingQuery with
            | none =>
              rw [asked] at profilingFound
              cases profilingFound
              cases query
            | some request =>
              rw [asked] at profilingFound
              simp only [getProfilingBuffers] at profilingFound
              split at profilingFound
              · cases profilingFound
              · rename_i profiled bo_eq
                split at profilingFound
                · cases profilingFound
                · cases profilingFound
                  rw [List.mem_singleton.mp query, Option.bind_some, bo_eq]
                  exact List.mem_singleton_self _
    · cases applied

theorem applyInputOutputs_trackedBuffers (ctx : VPUDeviceContext) (hpi : HostParsedInference)
    (inputs outputs : List Nat) (profilingQuery : Option GraphProfilingQuery) :
    (applyInputOutputs ctx hpi inputs outputs profilingQuery).2.trackedBuffers = ctx.trackedBuffers := by
  unfold applyInputOutputs
  split
  · rfl
  · simp only
    split <;> rfl

/-- An identity belongs to one buffer object. -/
def Identified (bos : List VPUBufferObject) : Prop := ∀ bo ∈ bos, ∀ other ∈ bos, bo.id = other.id → bo = other

instance (bos : List VPUBufferObject) : Decidable (Identified bos) :=
  inferInstanceAs (Decidable (∀ bo ∈ bos, ∀ other ∈ bos, bo.id = other.id → bo = other))

theorem Identified.subset {bos fewer : List VPUBufferObject} (identified : Identified bos) (subset : fewer ⊆ bos) :
    Identified fewer := fun bo member other present => identified bo (subset member) other (subset present)

/-- Among identified buffer objects every added one is there afterwards. -/
theorem subset_appendAssociateBufferObjects {bos added : List VPUBufferObject} (identified : Identified (bos ++ added)) :
    bos ++ added ⊆ appendAssociateBufferObjects bos added := by
  induction added generalizing bos with
  | nil => simp [appendAssociateBufferObjects]
  | cons first rest ih =>
    have append : bos ++ first :: rest = bos ++ [first] ++ rest := (List.append_cons bos first rest)
    have step : appendAssociateBufferObjects bos (first :: rest) =
        appendAssociateBufferObjects (appendAssociateBufferObject bos first) rest := rfl
    rw [step, appendAssociateBufferObject]
    split
    · rename_i known
      obtain ⟨same, member, id⟩ := List.any_eq_true.mp known
      have equal : same = first := identified same (List.mem_append_left _ member) first
        (List.mem_append_right _ List.mem_cons_self) (beq_iff_eq.mp id)
      subst equal
      have fewer : bos ++ rest ⊆ bos ++ same :: rest := fun bo present =>
        (List.mem_append.mp present).elim (List.mem_append_left _)
          fun behind => List.mem_append_right _ (List.mem_cons_of_mem same behind)
      refine List.Subset.trans ?_ (ih (identified.subset fewer))
      intro bo present
      rcases List.mem_append.mp present with before | later
      · exact List.mem_append_left _ before
      · rcases List.mem_cons.mp later with rfl | behind
        · exact List.mem_append_left _ member
        · exact List.mem_append_right _ behind
    · rw [append]
      exact ih (append ▸ identified)

theorem appendAssociateBufferObjects_append (bos added : List VPUBufferObject) :
    ∃ extra, appendAssociateBufferObjects bos added = bos ++ extra ∧ extra ⊆ added := by
  induction added generalizing bos with
  | nil => exact ⟨[], (List.append_nil bos).symm, List.Subset.refl _⟩
  | cons first rest ih =>
    have step : appendAssociateBufferObjects bos (first :: rest) =
        appendAssociateBufferObjects (appendAssociateBufferObject bos first) rest := rfl
    rw [step, appendAssociateBufferObject]
    split
    · obtain ⟨extra, whole, inside⟩ := ih bos
      exact ⟨extra, whole, fun bo member => List.mem_cons_of_mem first (inside member)⟩
    · obtain ⟨extra, whole, inside⟩ := ih (bos ++ [first])
      refine ⟨first :: extra, whole.trans (List.append_assoc ..), ?_⟩
      exact List.cons_subset_cons first inside

/-- Behind the buffer objects that were there before stand added ones only. -/
theorem mem_drop_appendAssociateBufferObjects {bos added : List VPUBufferObject} (front : bos.length ≤ count)
    (member : bo ∈ (appendAssociateBufferObjects bos added).drop count) : bo ∈ added := by
  obtain ⟨extra, whole, inside⟩ := appendAssociateBufferObjects_append bos added
  rw [whole, List.drop_append, List.drop_eq_nil_of_le front, List.nil_append] at member
  exact inside (List.mem_of_mem_drop member)

/-- The buffer objects that one update of a command deals with are identified. -/
def VPUCommand.Identifies (cmd : VPUCommand) (ctx : VPUDeviceContext) : Prop :=
  match cmd.isInference with
  | none => True
  | some inference => Identified (cmd.bufferObjects ++ inference.argumentBuffers ctx)

instance (cmd : VPUCommand) (ctx : VPUDeviceContext) : Decidable (cmd.Identifies ctx) :=
  match is : cmd.isInference with
  | none => .isTrue (by rw [VPUCommand.Identifies, is]; trivial)
  | some inference =>
    decidable_of_iff (Identified (cmd.bufferObjects ++ inference.argumentBuffers ctx))
      (by rw [VPUCommand.Identifies, is])

/-- A list of handles whose entries come from a command or from outside of it. -/
def FromCommand (outside : List Nat) (cmd : VPUCommand) (handles : List Nat) : Prop :=
  ∀ handle ∈ handles, handle ∈ outside ∨ handle ∈ cmd.bufferObjects.map VPUBufferObject.handle ∨
    handle ∈ scratchHandles [cmd]

namespace VPUCommand

/-- Only the last scratch handle of a command has changed. -/
structure Scratched (before after : VPUCommand) : Prop where
  bufferObjects : after.bufferObjects = before.bufferObjects
  inference : ∀ inference, after.isInference = some inference →
    ∃ former handle, before.isInference = some former ∧ inference = former.withScratch handle
  other : after.isInference = none → before.isInference = none

theorem updateScratchBuffer_listed {cmd : VPUCommand} {cb : VPUCommandBuffer} {outside : List Nat}
    (listed : FromCommand outside cmd cb.bufferHandles) (scratchBuffer : Option VPUBufferObject) :
    Scratched cmd (cmd.updateScratchBuffer cb scratchBuffer).1 ∧
      FromCommand outside (cmd.updateScratchBuffer cb scratchBuffer).1
        (cmd.updateScratchBuffer cb scratchBuffer).2.bufferHandles := by
  have same : Scratched cmd cmd :=
    ⟨rfl, fun inference is => ⟨inference, inference.lastScratchBoHandle, is, rfl⟩, id⟩
  unfold updateScratchBuffer
  split
  · rename_i inference kind
    have is : cmd.isInference = some inference := by simp [isInference, kind]
    split
    · exact ⟨same, listed⟩
    · rename_i used
      split
      · exact ⟨same, listed⟩
      · rename_i bo
        refine ⟨⟨rfl, ?_, fun other => absurd other (Option.some_ne_none _)⟩, ?_⟩
        · rintro _ ⟨⟩
          exact ⟨inference, bo.handle, is, rfl⟩
        · intro handle member
          have replaced : handle ∈ Edit.apply ⟨[inference.lastScratchBoHandle], [bo.handle]⟩ cb.bufferHandles :=
            member
          rcases Edit.mem_apply.mp replaced with ⟨present, different⟩ | new
          · rcases listed handle present with out | object | scratch
            · exact .inl out
            · exact .inr (.inl object)
            · obtain ⟨other, first, former, isFormer, -, rfl⟩ := mem_scratchHandles.mp scratch
              rw [List.mem_singleton.mp first, is] at isFormer
              cases isFormer
              exact (different (List.mem_singleton_self _)).elim
          · refine .inr (.inr (mem_scratchHandles.mpr ⟨_, List.mem_singleton_self _, _, rfl, used, ?_⟩))
            exact (List.mem_singleton.mp new).symm
  · exact ⟨same, listed⟩

theorem Scratched.balanced {before after : VPUCommand} (scratched : Scratched before after)
    (balanced : before.Balanced) : after.Balanced := by
  intro inference is
  obtain ⟨former, handle, isFormer, rfl⟩ := scratched.inference inference is
  exact balanced former isFormer

theorem Scratched.remembers {before after : VPUCommand} (scratched : Scratched before after)
    (remembers : before.Remembers) : after.Remembers := by
  intro inference is
  obtain ⟨former, handle, isFormer, rfl⟩ := scratched.inference inference is
  rw [scratched.bufferObjects]
  exact remembers former isFormer

theorem Scratched.identifies {before after : VPUCommand} (scratched : Scratched before after)
    (identifies : before.Identifies ctx) : after.Identifies ctx := by
  unfold Identifies at identifies ⊢
  cases is : after.isInference with
  | none => trivial
  | some inference =>
    obtain ⟨former, handle, isFormer, rfl⟩ := scratched.inference inference is
    rw [isFormer] at identifies
    rw [scratched.bufferObjects]
    exact identifies

/-- An update of the arguments takes the handles of the former ones out of the list. -/
theorem update_listed {cmd : VPUCommand} {cb : VPUCommandBuffer} {ctx : VPUDeviceContext} {outside : List Nat}
    (listed : FromCommand outside cmd cb.bufferHandles) (balanced : cmd.Balanced) (remembers : cmd.Remembers)
    (identifies : cmd.Identifies ctx) :
    FromCommand outside (cmd.update cb ctx).2.1 (cmd.update cb ctx).2.2.1.bufferHandles ∧
      (cmd.update cb ctx).2.1.Remembers ∧ (cmd.update cb ctx).2.2.2.trackedBuffers = ctx.trackedBuffers := by
  unfold update
  split
  · rename_i inference kind
    have is : cmd.isInference = some inference := by simp [isInference, kind]
    split
    · exact ⟨listed, remembers, rfl⟩
    · cases applied : applyInputOutputs ctx inference.hpi inference.inputs inference.outputs
          inference.profilingQuery with
      | mk answer next =>
        have tracked := applyInputOutputs_trackedBuffers ctx inference.hpi inference.inputs inference.outputs
          inference.profilingQuery
        rw [applied] at tracked
        cases answer with
        | none =>
          refine ⟨listed, ?_, tracked⟩
          intro other is'
          exact remembers other is'
        | some userArgs =>
          have length : inference.userArgHandles.length = (userArgs.map VPUBufferObject.handle).length := by
            rw [balanced inference is, List.length_map, applyInputOutputs_length applied]
            rfl
          have arguments := applyInputOutputs_mem applied
          rw [Identifies, is] at identifies
          have fixed : cmd.bufferObjects.take inference.userArgIndex ++ userArgs ⊆
              cmd.bufferObjects ++ inference.argumentBuffers ctx := by
            intro bo member
            rcases List.mem_append.mp member with kept | argument
            · exact List.mem_append_left _ (List.mem_of_mem_take kept)
            · exact List.mem_append_right _ (arguments bo argument)
          have associated := subset_appendAssociateBufferObjects (identifies.subset fixed)
          refine ⟨?_, ?_, tracked⟩
          · intro handle member
            simp only [VPUCommandBuffer.replaceBufferHandles, if_neg (not_not.mpr length)] at member
            rcases Edit.mem_apply.mp member with ⟨present, kept⟩ | new
            · rcases listed handle present with out | object | scratch
              · exact .inl out
              · obtain ⟨bo, former, rfl⟩ := List.mem_map.mp object
                rw [← List.take_append_drop inference.userArgIndex cmd.bufferObjects] at former
                rcases List.mem_append.mp former with front | argument
                · exact .inr (.inl (List.mem_map_of_mem (associated (List.mem_append_left _ front))))
                · exact (kept (remembers inference is bo argument)).elim
              · refine .inr (.inr ?_)
                obtain ⟨other, first, former, isFormer, used, rfl⟩ := mem_scratchHandles.mp scratch
                rw [List.mem_singleton.mp first, is] at isFormer
                cases isFormer
                exact mem_scratchHandles.mpr ⟨_, List.mem_singleton_self _, _, rfl, used, rfl⟩
            · obtain ⟨bo, argument, rfl⟩ := List.mem_map.mp new
              exact .inr (.inl (List.mem_map_of_mem (associated (List.mem_append_right _ argument))))
          · rintro other ⟨⟩ bo member
            exact List.mem_map_of_mem (mem_drop_appendAssociateBufferObjects (List.length_take_le ..) member)
  · exact ⟨listed, remembers, rfl⟩

end VPUCommand

/-- A list of handles whose entries come from commands or from outside of them. -/
def FromCommands (outside : List Nat) (cmds : List VPUCommand) (handles : List Nat) : Prop :=
  ∀ handle ∈ handles, handle ∈ outside ∨ handle ∈ objectHandles cmds ∨ handle ∈ scratchHandles cmds

theorem scratchHandles_cons (cmd : VPUCommand) (rest : List VPUCommand) :
    scratchHandles (cmd :: rest) = scratchHandles [cmd] ++ scratchHandles rest :=
  List.filterMap_append (l := [cmd])

/-- An updated inference was one before. -/
theorem refreshed_source {scratchBuffer : Option VPUBufferObject} {cmds updated : List VPUCommand}
    {cmd : VPUCommand} {inference : VPUInferenceExecute}
    (refreshed : List.Forall₂ (VPUCommand.Refreshed scratchBuffer) cmds updated) (present : cmd ∈ updated)
    (is : cmd.isInference = some inference) :
    ∃ before former, before ∈ cmds ∧ before.isInference = some former ∧
      former.Refreshed scratchBuffer inference := by
  obtain ⟨before, original, changed⟩ := exists_partner refreshed cmd present
  cases isFormer : before.isInference with
  | none =>
    rw [changed.1 isFormer] at is
    cases is
  | some former =>
    obtain ⟨final, isFinal, same⟩ := changed.2 former isFormer
    rw [isFinal] at is
    cases is
    exact ⟨before, former, original, isFormer, same⟩

/-- The first command may be looked at with the others outside, or they with it outside. -/
theorem fromCommands_cons {outside handles : List Nat} {cmd : VPUCommand} {rest : List VPUCommand} :
    (FromCommands outside (cmd :: rest) handles ↔
        FromCommand (outside ++ (objectHandles rest ++ scratchHandles rest)) cmd handles) ∧
      (FromCommands outside (cmd :: rest) handles ↔
        FromCommands (outside ++ (cmd.bufferObjects.map VPUBufferObject.handle ++ scratchHandles [cmd])) rest
          handles) := by
  refine ⟨forall₂_congr fun handle _ => ?_, forall₂_congr fun handle _ => ?_⟩ <;>
  · rw [objectHandles_cons, scratchHandles_cons]
    simp only [List.mem_append]
    tauto

theorem VPUCommand.Identifies.tracked {cmd : VPUCommand} {ctx next : VPUDeviceContext}
    (identifies : cmd.Identifies ctx) (tracked : next.trackedBuffers = ctx.trackedBuffers) :
    cmd.Identifies next := by
  unfold Identifies VPUInferenceExecute.argumentBuffers at identifies ⊢
  rw [tracked]
  exact identifies

theorem VPUDeviceContext.scratchCacheAcquire_trackedBuffers (ctx : VPUDeviceContext) (size : Nat) :
    (ctx.scratchCacheAcquire size).2.trackedBuffers = ctx.trackedBuffers := by
  unfold scratchCacheAcquire
  split
  · rfl
  · simp only
    split
    · rfl
    · obtain ⟨count, -, frame⟩ := createUntrackedBufferObject_frame { ctx with scans := ctx.scans + 1 } size false
      have tracked : (VPUDeviceContext.createUntrackedBufferObject { ctx with scans := ctx.scans + 1 } size
          false).2.trackedBuffers = ctx.trackedBuffers := by rw [frame]
      split <;>
      · rename_i created
        rw [created] at tracked
        exact tracked

namespace VPUCommandBuffer

/-- Each command takes its former handles out of the list, and brings its new ones in. -/
theorem updateEach_listed (scratchBuffer : Option VPUBufferObject) {cb : VPUCommandBuffer} {cmds : List VPUCommand}
    {ctx : VPUDeviceContext} {outside : List Nat} (listed : FromCommands outside cmds cb.bufferHandles)
    (balanced : ∀ cmd ∈ cmds, cmd.Balanced) (remembers : ∀ cmd ∈ cmds, cmd.Remembers)
    (identifies : ∀ cmd ∈ cmds, cmd.Identifies ctx) :
    FromCommands outside (updateEach scratchBuffer cb cmds ctx).2.2.1
        (updateEach scratchBuffer cb cmds ctx).2.1.bufferHandles ∧
      ∀ cmd ∈ (updateEach scratchBuffer cb cmds ctx).2.2.1, cmd.Remembers := by
  induction cmds generalizing cb ctx outside with
  | nil => exact ⟨listed, remembers⟩
  | cons cmd rest ih =>
    have head := List.mem_cons_self (a := cmd) (l := rest)
    obtain ⟨scratched, first⟩ := cmd.updateScratchBuffer_listed (fromCommands_cons.1.mp listed) scratchBuffer
    have step := VPUCommand.update_listed first (scratched.balanced (balanced cmd head))
      (scratched.remembers (remembers cmd head)) (scratched.identifies (identifies cmd head))
    rw [updateEach]
    simp only
    generalize (cmd.updateScratchBuffer cb scratchBuffer).1.update (cmd.updateScratchBuffer cb scratchBuffer).2 ctx =
      answer at step
    obtain ⟨success, updated, next, later⟩ := answer
    obtain ⟨second, remembered, tracked⟩ := step
    have others : ∀ other ∈ rest, other.Remembers := fun other member =>
      remembers other (List.mem_cons_of_mem cmd member)
    cases success with
    | false =>
      refine ⟨fromCommands_cons.1.mpr second, fun other member => ?_⟩
      rcases List.mem_cons.mp member with rfl | behind
      · exact remembered
      · exact others other behind
    | true =>
      obtain ⟨third, all⟩ := ih (fromCommands_cons.2.mp (fromCommands_cons.1.mpr second))
        (fun other member => balanced other (List.mem_cons_of_mem cmd member)) others
        fun other member => (identifies other (List.mem_cons_of_mem cmd member)).tracked tracked
      refine ⟨fromCommands_cons.2.mpr third, fun other member => ?_⟩
      rcases List.mem_cons.mp member with rfl | behind
      · exact remembered
      · exact all other behind

theorem updateCommands_listed {cb : VPUCommandBuffer} {cmds : List VPUCommand} {ctx : VPUDeviceContext}
    {outside : List Nat} (listed : FromCommands outside cmds cb.bufferHandles)
    (balanced : ∀ cmd ∈ cmds, cmd.Balanced) (remembers : ∀ cmd ∈ cmds, cmd.Remembers)
    (identifies : ∀ cmd ∈ cmds, cmd.Identifies ctx) :
    FromCommands outside (cb.updateCommands cmds ctx).2.2.1 (cb.updateCommands cmds ctx).2.1.bufferHandles ∧
      ∀ cmd ∈ (cb.updateCommands cmds ctx).2.2.1, cmd.Remembers := by
  unfold updateCommands
  split
  · exact updateEach_listed _ listed balanced remembers identifies
  · have tracked := ctx.scratchCacheAcquire_trackedBuffers cb.inferenceScratchSize
    generalize ctx.scratchCacheAcquire cb.inferenceScratchSize = answer at tracked
    obtain ⟨acquired, next⟩ := answer
    cases acquired with
    | none => exact ⟨listed, remembers⟩
    | some bo =>
      have identified : ∀ cmd ∈ cmds, cmd.Identifies next := fun cmd member => (identifies cmd member).tracked tracked
      exact @updateEach_listed (some bo) (cb.withScratchBuffer (some bo)) cmds next outside listed balanced remembers
        identified

end VPUCommandBuffer

/-- The buffer objects that the update of a share deals with are identified. -/
def Share.Identifies (share : Share) (ctx : VPUDeviceContext) : Prop := ∀ cmd ∈ share.commands, cmd.Identifies ctx

instance (share : Share) (ctx : VPUDeviceContext) : Decidable (share.Identifies ctx) :=
  inferInstanceAs (Decidable (∀ cmd ∈ share.commands, cmd.Identifies ctx))

/-- The handles that a command buffer holds itself. -/
def VPUCommandBuffer.ownHandles (cb : VPUCommandBuffer) : List Nat :=
  cb.buffer.handle :: (cb.guardHandles ++ cb.preemptionHandles)

theorem listsOnly_scratch {cb : VPUCommandBuffer} {cmds : List VPUCommand} :
    ListsOnly cb cmds (scratchHandles cmds) ↔ FromCommands cb.ownHandles cmds cb.bufferHandles := by
  refine forall₂_congr fun handle _ => ?_
  rw [mem_heldHandles, VPUCommandBuffer.ownHandles, List.mem_cons, List.mem_append]
  tauto

/-- An update keeps every listed handle accounted for; a successful one replaces the handles of former
scratch buffers. -/
theorem Sourced.update {share : Share} {ctx : VPUDeviceContext} (sourced : Sourced share.cmdBuffer share.commands)
    (identifies : share.Identifies ctx) :
    Sourced (share.update ctx).2.1.cmdBuffer (share.update ctx).2.1.commands ∧
      ((share.update ctx).1 = true →
        Referenced (share.update ctx).2.1.cmdBuffer (share.update ctx).2.1.commands) := by
  obtain ⟨cb, cmds⟩ := share
  have kept := VPUCommandBuffer.updateCommands_listed (listsOnly_scratch.mp sourced.listed) sourced.balanced
    sourced.remembers identifies
  obtain ⟨success, scratchBuffer, updated, next, step, -, refreshed, reached, -, acquired⟩ :=
    cb.updateCommands_plan cmds ctx
  have result : Share.update ⟨cb, cmds⟩ ctx = (success, ⟨(cb.withScratchBuffer scratchBuffer).withHandles
      (Edit.applyAll (cb.plannedEdits cmds ctx) cb.bufferHandles), updated⟩, next) := by
    simp only [Share.update, step]
  rw [result]
  simp only at kept
  rw [step] at kept
  obtain ⟨listed, remembers⟩ := kept
  have after : Sourced ((cb.withScratchBuffer scratchBuffer).withHandles
      (Edit.applyAll (cb.plannedEdits cmds ctx) cb.bufferHandles)) updated := by
    refine ⟨listsOnly_scratch.mpr listed, sourced.mapped, sourced.room, ?_, remembers, ?_⟩
    · intro cmd present
      obtain ⟨before, original, changed⟩ := exists_partner refreshed cmd present
      exact (sourced.balanced before original).refreshed changed
    · intro cmd present inference is used
      obtain ⟨before, former, original, isFormer, same⟩ := refreshed_source refreshed present is
      exact sourced.scratchSize before original former isFormer (same.sharedScratchSize ▸ used)
  refine ⟨after, fun succeeded => ⟨after, fun handle member => ?_⟩⟩
  simp only at succeeded
  subst succeeded
  obtain ⟨-, scratched⟩ := reached rfl
  rcases after.listed handle member with held | scratch
  · exact .inl held
  · obtain ⟨cmd, present, inference, is, used, rfl⟩ := mem_scratchHandles.mp scratch
    obtain ⟨before, former, original, isFormer, same⟩ := refreshed_source scratched present is
    have usedBefore : former.sharedScratchSize ≠ 0 := same.sharedScratchSize ▸ used
    obtain ⟨bo, rfl⟩ := acquired rfl (sourced.scratchSize before original former isFormer usedBefore)
    rw [same.scratch usedBefore bo rfl]
    exact .inr (List.mem_singleton_self _)

end NpuDriver
