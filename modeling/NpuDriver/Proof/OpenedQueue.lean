import NpuDriver.Proof.ChainedSubmissions
import NpuDriver.Proof.FencedSubmissions

/-! The command buffers of jobs that are closed one after the other, before anything is submitted. -/

namespace NpuDriver

open Library VPUCommandBuffer

/-- The objects of the command buffers have been created one after the other. -/
structure CreatedBetween (low high : Nat) (cmdBuffers : List VPUCommandBuffer) : Prop where
  le : low ≤ high
  within : ∀ cb ∈ cmdBuffers, low ≤ cb.buffer.id ∧ cb.buffer.id < high
  ascending : cmdBuffers.Pairwise fun first second => first.buffer.id < second.buffer.id

namespace CreatedBetween

variable {low mid high : Nat} {first second : List VPUCommandBuffer} {cb : VPUCommandBuffer}

theorem nothing (le : low ≤ high) : CreatedBetween low high [] :=
  ⟨le, fun _ member => absurd member List.not_mem_nil, .nil⟩

theorem single (new : cb.buffer.id = low) : CreatedBetween low (low + 1) [cb] := by
  refine ⟨Nat.le_succ low, fun other member => ?_, List.pairwise_singleton _ cb⟩
  rw [List.mem_singleton.mp member, new]
  exact ⟨Nat.le_refl low, Nat.lt_succ_self low⟩

theorem append (front : CreatedBetween low mid first) (back : CreatedBetween mid high second) :
    CreatedBetween low high (first ++ second) := by
  refine ⟨Nat.le_trans front.le back.le, fun cb member => ?_, ?_⟩
  · rcases List.mem_append.mp member with before | after
    · obtain ⟨above, below⟩ := front.within cb before
      exact ⟨above, Nat.lt_of_lt_of_le below back.le⟩
    · obtain ⟨above, below⟩ := back.within cb after
      exact ⟨Nat.le_trans front.le above, below⟩
  · refine List.pairwise_append.mpr ⟨front.ascending, back.ascending, fun earlier before later after => ?_⟩
    exact Nat.lt_of_lt_of_le (front.within earlier before).2 (back.within later after).1

end CreatedBetween

theorem VPUCommandBuffer.allocateCommandBuffer_created (ctx : VPUDeviceContext) (position : Nat)
    (cmds : List VPUCommand) : ctx.created ≤ (allocateCommandBuffer ctx position cmds).2.2.created := by
  rw [allocateCommandBuffer]
  split
  · exact Nat.le_refl _
  · obtain ⟨created, more, frame⟩ := ctx.createUntrackedBufferObject_frame
      (getFwDataCacheAlign (commandListOffset + (commitSizes cmds + fenceSize)) + descriptorSizes cmds +
        ctx.hwInfo.extraDmaDescriptorSize) true
    simp only
    generalize ctx.createUntrackedBufferObject _ true = answer at frame
    rcases answer with ⟨_ | buffer, next⟩
    · exact frame ▸ more
    · simp only
      split
      · exact frame ▸ more
      · split <;> exact frame ▸ more

namespace VPUJob

theorem createCommandBuffers_between (ctx : VPUDeviceContext) (position : Nat) (shares : List (List VPUCommand))
    (event : Option VPUBufferObject) :
    CreatedBetween ctx.created (createCommandBuffers ctx position shares event).2.2.2.created
      (createCommandBuffers ctx position shares event).2.1 := by
  induction shares generalizing ctx position event with
  | nil => exact .nothing (Nat.le_refl _)
  | cons share others ih =>
    rcases answer : allocateCommandBuffer ctx position share with ⟨none | created, patched, next⟩
    · rw [createCommandBuffers_failed others event (by rw [answer])]
      exact .nothing (allocateCommandBuffer_created ctx position share)
    · rw [createCommandBuffers_round others answer event]
      obtain ⟨-, -, new, next_eq, -⟩ := allocateCommandBuffer_some answer
      have rest := ih next (position + share.length) (if others = [] then event else some created.buffer)
      have counted : next.created = ctx.created + 1 := by rw [next_eq]
      rw [counted] at rest
      have linked : (created.linked ctx event (decide (others = []))).buffer.id = ctx.created :=
        (congrArg VPUBufferObject.id (created.linked_patched ctx event _).buffer).trans new
      exact (CreatedBetween.single linked).append rest

theorem closeCommands_between {job : VPUJob} (opened : job.closed = false) (clean : job.cmdBuffers = [])
    (ctx : VPUDeviceContext) :
    CreatedBetween ctx.created (job.closeCommands ctx).2.2.created (job.closeCommands ctx).2.1.cmdBuffers := by
  rw [closeCommands_clean opened clean]
  exact createCommandBuffers_between ctx 0 (scheduleAll job.commands) none

/-- A job to which commands can be appended. -/
structure Fresh (job : VPUJob) : Prop where
  opened : job.closed = false
  clean : job.cmdBuffers = []

end VPUJob

theorem closeJobs_fixed (ctx : VPUDeviceContext) (jobs : List VPUJob) : (closeJobs ctx jobs).2.fixed = ctx.fixed := by
  induction jobs generalizing ctx with
  | nil => rfl
  | cons job rest ih => exact (ih (job.closeCommands ctx).2.2).trans (job.closeCommands_fixed ctx)

theorem closeJobs_between {jobs : List VPUJob} (fresh : ∀ job ∈ jobs, job.Fresh) (ctx : VPUDeviceContext) :
    CreatedBetween ctx.created (closeJobs ctx jobs).2.created ((closeJobs ctx jobs).1.flatMap VPUJob.cmdBuffers) := by
  induction jobs generalizing ctx with
  | nil => exact .nothing (Nat.le_refl _)
  | cons job rest ih =>
    obtain ⟨opened, clean⟩ := fresh job List.mem_cons_self
    have first := VPUJob.closeCommands_between opened clean ctx
    exact first.append (ih (fun other member => fresh other (List.mem_cons_of_mem job member)) _)

theorem closeJobs_found {jobs : List VPUJob} {ctx : VPUDeviceContext} {closed : VPUJob}
    (member : closed ∈ (closeJobs ctx jobs).1) :
    ∃ job ∈ jobs, ∃ start : VPUDeviceContext, start.fixed = ctx.fixed ∧ closed = (job.closeCommands start).2.1 := by
  induction jobs generalizing ctx with
  | nil => exact absurd member List.not_mem_nil
  | cons job rest ih =>
    have either : closed = (job.closeCommands ctx).2.1 ∨ closed ∈ (closeJobs (job.closeCommands ctx).2.2 rest).1 :=
      List.mem_cons.mp member
    rcases either with here | later
    · exact ⟨job, List.mem_cons_self, ctx, rfl, here⟩
    · obtain ⟨other, listed, start, same, closes⟩ := ih later
      exact ⟨other, List.mem_cons_of_mem job listed, start, same.trans (job.closeCommands_fixed ctx), closes⟩

theorem pairwise_apart {α : Type} {R : α → α → Prop} {xs : List α} (apart : xs.Pairwise R) {first second : Nat} {x y : α}
    (found : xs[first]? = some x) (there : xs[second]? = some y) (never : ¬R x y) (nor : ¬R y x) : first = second := by
  obtain ⟨inside, rfl⟩ := List.getElem?_eq_some_iff.mp found
  obtain ⟨within, rfl⟩ := List.getElem?_eq_some_iff.mp there
  rcases Nat.lt_trichotomy first second with before | same | after
  · exact absurd (List.pairwise_iff_getElem.mp apart first second inside within before) never
  · exact same
  · exact absurd (List.pairwise_iff_getElem.mp apart second first within inside after) nor

namespace InOrderQueue

/-- The fence words of the command buffers lie apart, and no command of the jobs names one. -/
def Placed (state : InOrderQueue) : Prop :=
  ((state.jobs.flatMap VPUJob.cmdBuffers).map fenceAddress).Nodup ∧
    ∀ job ∈ state.jobs, ∀ cmd ∈ job.commands, ∀ fence ∈ decodeFence cmd.getCommitStream,
      ∀ cb ∈ state.jobs.flatMap VPUJob.cmdBuffers, cb.fenceAddress ≠ fence.address

def places (state : InOrderQueue) (slot : Slot) : Option Place := (state.bufferAt slot).map VPUCommandBuffer.place

variable {state : InOrderQueue} {slot other : Slot} {cb second : VPUCommandBuffer}

theorem bufferAt_mem (found : state.bufferAt slot = some cb) : cb ∈ state.jobs.flatMap VPUJob.cmdBuffers := by
  obtain ⟨job, held, inside⟩ := Option.bind_eq_some_iff.mp found
  exact List.mem_flatMap.mpr ⟨job, List.mem_of_getElem? held, List.mem_of_getElem? inside⟩

theorem same_slot {R : VPUCommandBuffer → VPUCommandBuffer → Prop}
    (apart : (state.jobs.flatMap VPUJob.cmdBuffers).Pairwise R) (found : state.bufferAt slot = some cb)
    (there : state.bufferAt other = some second) (never : ¬R cb second) (nor : ¬R second cb) : slot = other := by
  obtain ⟨within, across⟩ := List.pairwise_flatMap.mp apart
  obtain ⟨job, held, inside⟩ := Option.bind_eq_some_iff.mp found
  obtain ⟨job', held', inside'⟩ := Option.bind_eq_some_iff.mp there
  have jobs : slot.job = other.job := by
    refine pairwise_apart across held held' (fun all => never ?_) (fun all => nor ?_)
    · exact all cb (List.mem_of_getElem? inside) second (List.mem_of_getElem? inside')
    · exact all second (List.mem_of_getElem? inside') cb (List.mem_of_getElem? inside)
  rw [← jobs, held] at held'
  obtain rfl := Option.some.inj held'
  have indexes := pairwise_apart (within job (List.mem_of_getElem? held)) inside inside' never nor
  cases slot
  cases other
  exact congr (congrArg Slot.mk jobs) indexes

end InOrderQueue

/-- The command buffer in front of one in the same job. -/
def Slot.former : Slot → Option Slot
  | ⟨_, 0⟩ => none
  | ⟨job, index + 1⟩ => some ⟨job, index⟩

namespace InOrderQueue

variable {queue : VPUDeviceQueueManaged} {jobs : List VPUJob} {ctx : VPUDeviceContext} {slot : Slot}
  {cb : VPUCommandBuffer}

/-- Each command buffer is laid out behind the former one of its job. -/
theorem opened_inPlace (fresh : ∀ job ∈ jobs, job.Fresh) (placed : (opened queue jobs ctx).Placed)
    (found : (opened queue jobs ctx).bufferAt slot = some cb) :
    ∃ signalled, InPlace (opened queue jobs ctx).ctx (opened queue jobs ctx).places slot.former signalled cb ∧
      (slot.index + 1 < (opened queue jobs ctx).count slot.job → signalled = true) := by
  obtain ⟨closed, held, inside⟩ := Option.bind_eq_some_iff.mp found
  have member : closed ∈ (closeJobs ctx jobs).1 := List.mem_of_getElem? held
  obtain ⟨job, listed, start, same, rfl⟩ := closeJobs_found member
  obtain ⟨isOpen, clean⟩ := fresh job listed
  obtain ⟨cmds, head, signalled, buffer⟩ := VPUJob.closeCommands_buffers isOpen clean inside
  have fixed : (opened queue jobs ctx).ctx.fixed = start.fixed := (closeJobs_fixed ctx jobs).trans same.symm
  have count : (opened queue jobs ctx).count slot.job = (job.closeCommands start).2.1.cmdBuffers.length := by
    rw [InOrderQueue.count, held]
    rfl
  have behind : head = (slot.former.bind (opened queue jobs ctx).places).map (fun place => (place.buffer, false)) ∧
      ∀ target, slot.former = some target → ∃ place, (opened queue jobs ctx).places target = some place := by
    obtain ⟨position, index⟩ := slot
    cases index with
    | zero =>
      refine ⟨buffer.first rfl, fun target absent => ?_⟩
      cases absent
    | succ before =>
      obtain ⟨previous, there, heads⟩ := buffer.behind before rfl
      have former : (opened queue jobs ctx).places ⟨position, before⟩ = some previous.place := by
        rw [places, bufferAt, held, Option.bind_some, there]
        rfl
      refine ⟨?_, fun target same => ?_⟩
      · rw [Slot.former, Option.bind_some, former]
        exact heads
      · rw [← Option.some.inj same]
        exact ⟨previous.place, former⟩
  refine ⟨signalled, ⟨cmds, false, ?_, buffer.count, ?_, behind.2⟩, fun follows => buffer.signals (count ▸ follows)⟩
  · rw [← behind.1]
    exact buffer.layout.of_fixed fixed
  · intro cmd present fence decoded target place there
    obtain ⟨patched, among, same'⟩ := buffer.listed cmd present
    obtain ⟨named, at_, rfl⟩ := Option.map_eq_some_iff.mp there
    exact placed.2 _ member patched among fence (same'.trans decoded) named (bufferAt_mem at_)

/-- The invariant before anything is submitted. -/
theorem opened_inChain (fresh : ∀ job ∈ jobs, job.Fresh) (inOrder : queue.isInOrder = true)
    (unused : queue.lastWaitBo = none) (placed : (opened queue jobs ctx).Placed) :
    ∃ patches, InChain (opened queue jobs ctx).places patches (opened queue jobs ctx) := by
  have each : ∀ slot, ∃ signalled, ∀ cb, (opened queue jobs ctx).bufferAt slot = some cb →
      InPlace (opened queue jobs ctx).ctx (opened queue jobs ctx).places slot.former signalled cb ∧
        (slot.index + 1 < (opened queue jobs ctx).count slot.job → signalled = true) := by
    intro slot
    cases found : (opened queue jobs ctx).bufferAt slot with
    | none => exact ⟨false, fun cb absent => by cases absent⟩
    | some cb =>
      obtain ⟨signalled, laidOut⟩ := opened_inPlace fresh placed found
      exact ⟨signalled, fun other same => Option.some.inj same ▸ laidOut⟩
  choose signals laidOut using each
  have held : ∀ slot place, (opened queue jobs ctx).places slot = some place →
      ∃ cb, (opened queue jobs ctx).bufferAt slot = some cb ∧ cb.place = place :=
    fun slot place there => Option.map_eq_some_iff.mp there
  have nothing : ∀ {position : Nat} {run : QueueRun}, (opened queue jobs ctx).runs[position]? ≠ some run := by
    intro position run present
    cases present
  refine ⟨⟨Slot.former, signals⟩, ?_, ?_, ?_, inOrder, ?_, .idle rfl (.nothing rfl unused)⟩
  · refine ⟨fun slot => rfl, ?_, fun slot cb found => (laidOut slot cb found).1, ?_, ?_, ?_, ?_, ?_⟩
    · intro slot other place second there also same
      obtain ⟨cb, found, rfl⟩ := held slot place there
      obtain ⟨cb', found', rfl⟩ := held other second also
      have apart := List.pairwise_map.mp placed.1
      exact same_slot apart found found' (fun differ => differ same) (fun differ => differ same.symm)
    · exact fun run member => absurd member List.not_mem_nil
    · exact fun position run present => absurd present nothing
    · exact fun run member => absurd member List.not_mem_nil
    · exact fun earlier later first second _ present => absurd present nothing
    · exact fun position prev next present => absurd present nothing
  · intro slot other place second there also same
    obtain ⟨cb, found, rfl⟩ := held slot place there
    obtain ⟨cb', found', rfl⟩ := held other second also
    exact same_slot (closeJobs_between fresh ctx).ascending found found' (Nat.not_lt.mpr (Nat.le_of_eq same.symm))
      (Nat.not_lt.mpr (Nat.le_of_eq same))
  · intro job index place there
    obtain ⟨cb, found, rfl⟩ := held _ place there
    have inside : index + 1 < (opened queue jobs ctx).count job :=
      bufferAt_isSome.mp (Option.isSome_iff_exists.mpr ⟨cb, found⟩)
    have former : ∃ front, (opened queue jobs ctx).bufferAt ⟨job, index⟩ = some front :=
      InChain.bufferAt_inside (Nat.lt_of_succ_lt inside)
    obtain ⟨front, there⟩ := former
    exact ⟨rfl, (laidOut ⟨job, index⟩ front there).2 inside⟩
  · refine ⟨fun more => absurd rfl more, fun label member => absurd member List.not_mem_nil, .nil, ?_⟩
    intro submission job found
    cases found

end InOrderQueue

end NpuDriver
