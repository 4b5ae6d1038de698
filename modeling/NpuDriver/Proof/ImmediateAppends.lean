import NpuDriver.Proof.ImmediateSubmissions
import NpuDriver.Proof.AppendAtomicity
import NpuDriver.Library.Runs

/-! Every append on an immediate list without events does what the same append does on a new regular list, as long as
its waits and its closing succeed. -/

namespace NpuDriver

open ZeResult VPUDeviceContext Library

namespace Effect

/-- A change of the context keeps its fixed part and makes no requests. -/
def Tame (ctx : VPUDeviceContext) : Effect → Prop
  | context next => next.calls = ctx.calls ∧ next.fixed = ctx.fixed
  | _ => True

/-- An effect that is refused has no command in front of it. -/
def Atomic (effects : List Effect) : Prop :=
  ∀ done failing rest, effects = done ++ failing :: rest → ¬ failing.Passes → commandsOf done = []

theorem apply_tame {effect : Effect} {ctx : VPUDeviceContext} (tame : effect.Tame ctx) {list : CommandList}
    (same : list.ctx.calls = ctx.calls ∧ list.ctx.fixed = ctx.fixed) :
    (effect.apply list).ctx.calls = ctx.calls ∧ (effect.apply list).ctx.fixed = ctx.fixed := by
  cases effect with
  | note newCommandId =>
    simp only [apply, CommandList.noteCommandId]
    split
    · exact same
    · exact same
  | context next => exact tame
  | _ => exact same

theorem applyAll_tame {effects : List Effect} {ctx : VPUDeviceContext} (tame : ∀ effect ∈ effects, effect.Tame ctx)
    {list : CommandList} (same : list.ctx.calls = ctx.calls ∧ list.ctx.fixed = ctx.fixed) :
    (applyAll effects list).ctx.calls = ctx.calls ∧ (applyAll effects list).ctx.fixed = ctx.fixed := by
  induction effects generalizing list with
  | nil => exact same
  | cons effect rest ih =>
    obtain ⟨first, others⟩ := List.forall_mem_cons.mp tame
    exact ih others (apply_tame first same)

theorem applyAll_open {list : CommandList} (opened : list.Open) (effects : List Effect) :
    (applyAll effects list).Open := by
  constructor
  · rw [applyAll_vpuJob]
    exact opened.closed
  · rw [applyAll_vpuJob]
    exact opened.cmdBuffers

theorem Succeeds.passes {effect : Effect} (succeeds : effect.Succeeds) : effect.Passes := by
  cases effect with
  | fail error failed => exact succeeds.not_fail
  | command created => exact succeeds.created
  | _ => trivial

/-- The last effect alone may be refused when nothing is recorded in front of it. -/
theorem atomic_last {front : List Effect} (empty : commandsOf front = []) (last : Effect) : Atomic (front ++ [last]) := by
  intro done failing rest split _
  have before : done <+: front := by
    rcases List.append_eq_append_iff.mp split with ⟨tail, rfl, same⟩ | ⟨tail, rfl, -⟩
    · rcases List.cons_eq_append_iff.mp same with ⟨rfl, -⟩ | ⟨others, rfl, nothing⟩
      · exact ⟨[], by simp⟩
      · cases (List.append_eq_nil_iff.mp nothing.symm).2
    · exact List.prefix_append ..
  obtain ⟨others, rfl⟩ := before
  rw [commandsOf_append] at empty
  exact (List.append_eq_nil_iff.mp empty).1

end Effect

namespace ImmediateCommandList

open Effect (perform applyAll commandsOf)

/-- Effects on an open job, closed and submitted behind them. -/
theorem submit_refines (list : ImmediateCommandList) {effects : List Effect}
    (tame : ∀ effect ∈ effects, effect.Tame list.ctx) (atomic : Effect.Atomic effects) :
    Refines (list.job = .empty) effects list ((lift (perform effects)).andThen postAppend list) := by
  have opened : list.job = .empty → list.inherited.Open := by
    intro empty
    constructor
    · exact congrArg VPUJob.closed empty
    · exact congrArg VPUJob.cmdBuffers empty
  have context : ∀ done, done <+: effects → (applyAll done list.inherited).ctx.calls = list.ctx.calls ∧
      (applyAll done list.inherited).ctx.fixed = list.ctx.fixed := by
    rintro done ⟨rest, rfl⟩
    exact Effect.applyAll_tame (fun effect member => tame effect (List.mem_append_left rest member)) ⟨rfl, rfl⟩
  have job : ∀ done, list.job = .empty →
      (applyAll done list.inherited).vpuJob = { VPUJob.empty with commands := commandsOf done } := by
    intro done empty
    rw [Effect.applyAll_vpuJob, show list.inherited.vpuJob = .empty from empty]
    rfl
  rcases Effect.perform_cases effects list.inherited with
    finished | ⟨done, failing, rest, error, split, -, failed, stops, result⟩
  · let recorded := (lift (perform effects) list).2
    have lifted : lift (perform effects) list = (ZE_RESULT_SUCCESS, recorded) :=
      Prod.ext (by simp only [lift, finished]) rfl
    have stored : recorded.job = (applyAll effects list.inherited).vpuJob := by
      simp only [recorded, lift, finished]
      exact Function.update_self ..
    have ctx : recorded.ctx = (applyAll effects list.inherited).ctx := by
      simp only [recorded, lift, finished]
      rfl
    obtain ⟨calls, fixed⟩ := context effects (List.prefix_refl _)
    obtain ⟨answers, asked, kept, outcome⟩ := recorded.postAppend_refines (commandsOf effects)
    have goes_on : (lift (perform effects)).andThen postAppend list = postAppend recorded := by
      rw [ImmediateAppend.andThen, lifted]
    rw [goes_on]
    refine ⟨answers, asked, ?_, ?_, ?_, ?_⟩
    · rw [kept, ctx, fixed]
    · intro empty harmless
      exact (outcome (stored.trans (job effects empty)) harmless).1
    · intro empty harmless success
      obtain ⟨submissions, added, commands, later, accepted⟩ :=
        (outcome (stored.trans (job effects empty)) harmless).2.1 success
      rw [ctx, calls] at later
      exact ⟨fun effect member => ((Effect.perform_success finished).2 effect member).passes,
        submissions, added, commands, later, accepted⟩
    · intro empty harmless _ failed
      exact (outcome (stored.trans (job effects empty)) harmless).2.2 failed
  · let left := (lift (perform effects) list).2
    have lifted : lift (perform effects) list = (error, left) := Prod.ext (by simp only [lift, result]) rfl
    have stored : left.job = (applyAll done list.inherited).vpuJob := by
      simp only [left, lift, result]
      exact Function.update_self ..
    have ctx : left.ctx = (applyAll done list.inherited).ctx := by
      simp only [left, lift, result]
      rfl
    have stopped : (lift (perform effects)).andThen postAppend list = (error, left) := by
      rw [ImmediateAppend.andThen, lifted]
      split
      · rename_i same
        exact absurd (congrArg Prod.fst same) failed
      · rename_i same
        exact same.symm
    have refused : list.job = .empty → ¬ failing.Passes := by
      intro empty passes
      have ran := Effect.run_passes (Effect.applyAll_open (opened empty) done) passes
      rw [stops] at ran
      exact failed (congrArg Prod.fst ran)
    rw [stopped]
    refine ⟨[], (List.append_nil _).symm, ?_, ?_, ?_, ?_⟩
    · rw [ctx]
      exact (context done (split ▸ List.prefix_append ..)).2
    · intro empty _
      right
      rw [stored, job done empty, atomic done failing rest split (refused empty)]
      rfl
    · exact fun _ _ success => absurd success failed
    · intro empty _ passes _
      have member : failing ∈ effects := split ▸ List.mem_append_right _ List.mem_cons_self
      exact absurd (passes failing member) (refused empty)

/-! The pieces that operations consist of. -/

theorem refines_nothing (list : ImmediateCommandList) : Refines list.Idle [] list (ZE_RESULT_SUCCESS, list) := by
  refine ⟨[], (List.append_nil _).symm, rfl, fun idle _ => idle, fun _ _ _ => ⟨nofun, ?_⟩, ?_⟩
  · exact Submits.nothing (List.append_nil _).symm rfl
  · exact fun _ _ _ failed => absurd rfl failed

theorem refines_refused (list : ImmediateCommandList) (error : ZeResult) (failed : error ≠ ZE_RESULT_SUCCESS) :
    Refines list.Idle [.fail error failed] list (error, list) :=
  refines_fail (Stands.refl list) id failed fun passes => passes _ List.mem_cons_self

/-- An operation behind the check of the list. -/
theorem checked_refines (list : ImmediateCommandList) {effects : List Effect} {rest : ImmediateAppend}
    (refines : ∀ next : ImmediateCommandList,
      (∃ calls scans, next.ctx = { list.ctx with calls := calls, scans := scans }) →
        Refines (next.job = .empty) effects next (rest next)) :
    Refines list.Idle (.check :: effects) list (checkCommandAppendCondition.andThen rest list) := by
  obtain ⟨one, moved, ready⟩ := list.check_refines
  apply one.andThen (fun idle _ next result => _) (fun next result => refines next _)
  · intro idle _ next result
    rw [result] at ready
    exact ready idle
  · intro next result
    rw [result] at moved
    exact moved

/-- The append names no event. -/
def Eventless (hSignalEvent : Option Event) (waitEvents : WaitEvents) : Prop :=
  hSignalEvent = none ∧ waitEvents.numWaitEvents = 0

instance (hSignalEvent : Option Event) (waitEvents : WaitEvents) : Decidable (Eventless hSignalEvent waitEvents) :=
  inferInstanceAs (Decidable (_ ∧ _))

theorem Eventless.waits {hSignalEvent : Option Event} {waitEvents : WaitEvents}
    (eventless : Eventless hSignalEvent waitEvents) :
    appendWaitEvents waitEvents = .success ∧ waitEventEffects waitEvents = [] := by
  rw [appendWaitEvents, waitEventEffects, if_pos eventless.2, if_pos eventless.2]
  exact ⟨rfl, rfl⟩

theorem Eventless.signals {hSignalEvent : Option Event} {waitEvents : WaitEvents}
    (eventless : Eventless hSignalEvent waitEvents) :
    appendSignal hSignalEvent = .success ∧ signalEffects hSignalEvent = [] := by
  rw [eventless.1]
  exact ⟨rfl, rfl⟩

theorem Eventless.effects {hSignalEvent : Option Event} {waitEvents : WaitEvents}
    (eventless : Eventless hSignalEvent waitEvents) (created : Created) :
    commandEffects hSignalEvent waitEvents created = [.check, .command created] := by
  rw [commandEffects, eventless.waits.2, eventless.signals.2]
  rfl

theorem success_andThen (second : ImmediateAppend) : ImmediateAppend.success.andThen second = second := rfl

theorem appendCommand_lift (created : Created) : appendCommand created = lift (perform [.command created]) := by
  rw [Effect.perform_singleton]
  rfl

/-- One command on an open job. -/
theorem submit_command_refines (list : ImmediateCommandList) (created : Created) :
    Refines (list.job = .empty) [.command created] list ((appendCommand created).andThen postAppend list) := by
  rw [appendCommand_lift]
  apply list.submit_refines
  · intro effect member
    rw [List.mem_singleton.mp member]
    trivial
  · exact @Effect.atomic_last [] rfl (.command created)

/-- `appendCommandWithEvents` without events. -/
theorem command_refines (list : ImmediateCommandList) {hSignalEvent : Option Event} {waitEvents : WaitEvents}
    (eventless : Eventless hSignalEvent waitEvents) (created : Created) :
    Refines list.Idle (commandEffects hSignalEvent waitEvents created) list
      (appendCommandWithEvents hSignalEvent waitEvents created list) := by
  rw [eventless.effects, appendCommandWithEvents, eventless.waits.1, eventless.signals.1]
  apply list.checked_refines
  intro next _
  exact next.submit_command_refines created

theorem fills_refine (list : ImmediateCommandList) (ptrBo : VPUBufferObject) (fillPattern : Nat)
    {hSignalEvent : Option Event} (ptr sizeLeft : Nat) {waitEvents : WaitEvents}
    (eventless : Eventless hSignalEvent waitEvents) :
    Refines list.Idle (fillEffects ptrBo fillPattern hSignalEvent ptr sizeLeft waitEvents) list
      (appendFills ptrBo fillPattern hSignalEvent ptr sizeLeft waitEvents list) := by
  induction sizeLeft using Nat.strong_induction_on generalizing list ptr waitEvents with
  | _ sizeLeft ih =>
    rw [fillEffects, appendFills]
    split
    · exact list.refines_nothing
    · rename_i nonempty
      have smaller : sizeLeft - min sizeLeft CommandList.FILL_SIZE_LIMIT < sizeLeft := by
        simp only [CommandList.FILL_SIZE_LIMIT]
        omega
      have piece : Eventless (if sizeLeft ≤ CommandList.FILL_SIZE_LIMIT then hSignalEvent else none) waitEvents := by
        rw [eventless.1, ite_self]
        exact ⟨rfl, eventless.2⟩
      obtain ⟨answers, one⟩ := list.command_refines piece
        (VPUFillCommand.create ptr ptrBo (min sizeLeft CommandList.FILL_SIZE_LIMIT) fillPattern)
      apply one.andThen
      · intro idle harmless next result
        have still := one.idle idle harmless
        rw [result] at still
        exact still
      · intro next _
        exact ih _ smaller next _ ⟨eventless.1, rfl⟩

theorem copyBetween_fixed {ctx next : VPUDeviceContext} (same : next.fixed = ctx.fixed) (dstptr srcptr size : Nat) :
    copyBetween next dstptr srcptr size = copyBetween ctx dstptr srcptr size := by
  rw [copyBetween, copyBetween, findBufferObject_fixed same, findBufferObject_fixed same]
  simp only [VPUCopyCommand.create, hwInfo_fixed same]

theorem rows_refine (list : ImmediateCommandList) (dst src : CommandList.RegionSide) {hSignalEvent : Option Event}
    {waitEvents : WaitEvents} (eventless : Eventless hSignalEvent waitEvents) (y left : Nat) :
    Refines list.Idle
      ((List.range' y left).flatMap fun y => commandEffects hSignalEvent waitEvents
        (copyBetween list.ctx (dst.rowAddress y) (src.rowAddress y) dst.region.width)) list
      (appendRows dst src hSignalEvent waitEvents y left list) := by
  induction left generalizing list y with
  | zero => exact list.refines_nothing
  | succ left ih =>
    obtain ⟨answers, one⟩ := list.command_refines eventless
      (copyBetween list.ctx (dst.rowAddress y) (src.rowAddress y) dst.region.width)
    rw [List.range'_succ, List.flatMap_cons, appendRows]
    apply one.andThen
    · intro idle harmless next result
      have still := one.idle idle harmless
      rw [result] at still
      exact still
    · intro next result
      have fixed := one.fixed
      rw [result] at fixed
      have rest := ih next (y + 1)
      simp only [copyBetween_fixed fixed] at rest
      exact rest

/-- The list after an internal buffer was created, or refused. -/
theorem createInternal_stands (list : ImmediateCommandList) (size : Nat) :
    list.Stands (list.createInternal size).2 := by
  have calls := list.ctx.createUntrackedBufferObject_calls size true
  have fixed := list.ctx.createUntrackedBufferObject_fixed size true
  exact ⟨rfl, calls, fixed, rfl⟩

end ImmediateCommandList
theorem Effect.Core.tame {effect : Effect} (core : effect.Core) {ctx : VPUDeviceContext} : effect.Tame ctx := by
  cases effect with
  | note newCommandId => exact core.elim
  | context next => exact core.elim
  | _ => trivial

namespace VPUDeviceContext

theorem createUntrackedBufferObject_waits (ctx : VPUDeviceContext) (size : Nat) (mappable : Bool)
    (calls : List DriverCall) (scans : Nat) :
    (VPUDeviceContext.createUntrackedBufferObject { ctx with calls := calls, scans := scans } size mappable).1 =
      (ctx.createUntrackedBufferObject size mappable).1 := by
  rw [createUntrackedBufferObject, createUntrackedBufferObject]
  split
  · rfl
  · cases ctx.drvApi.createBuffer ctx.created size with
    | none => rfl
    | some answer =>
      simp only
      split <;> rfl

end VPUDeviceContext

theorem getDeviceBuffers_fixed {ctx next : VPUDeviceContext} (same : next.fixed = ctx.fixed) (ptrs sizes : List Nat) :
    getDeviceBuffers next ptrs sizes = getDeviceBuffers ctx ptrs sizes := by
  induction ptrs generalizing sizes with
  | nil => cases sizes <;> rfl
  | cons ptr ptrs ih =>
    cases sizes with
    | nil => rfl
    | cons size sizes =>
      rw [getDeviceBuffers, getDeviceBuffers, findBufferObject_fixed same]
      simp only [ih]

theorem applyInputOutputs_waits (ctx : VPUDeviceContext) (hpi : HostParsedInference) (inputs outputs : List Nat)
    (profilingQuery : Option GraphProfilingQuery) (calls : List DriverCall) (scans : Nat) :
    (applyInputOutputs { ctx with calls := calls, scans := scans } hpi inputs outputs profilingQuery).1 =
      (applyInputOutputs ctx hpi inputs outputs profilingQuery).1 := by
  have found : findArgumentBuffers { ctx with calls := calls, scans := scans } hpi inputs outputs profilingQuery =
      findArgumentBuffers ctx hpi inputs outputs profilingQuery := by
    have same : fixed { ctx with calls := calls, scans := scans } = ctx.fixed := rfl
    rw [findArgumentBuffers, findArgumentBuffers, getDeviceBuffers_fixed same, getDeviceBuffers_fixed same]
  rw [applyInputOutputs, applyInputOutputs, found]
  cases findArgumentBuffers ctx hpi inputs outputs profilingQuery with
  | none => rfl
  | some bos =>
    simp only
    split <;> rfl

/-- The parts of an inference creation that depend on the context. -/
theorem inferenceCreate_spec (ctx : VPUDeviceContext) (parser : ElfParser) (cmdHpi : HostParsedInference)
    (inputs outputs : List Nat) (inputStrides outputStrides : Nat → Option ArgumentStrides)
    (profilingQuery : Option GraphProfilingQuery) (inferenceId : Nat) (bos : List VPUBufferObject) :
    let create := fun ctx => VPUInferenceExecute.create ctx parser cmdHpi inputs outputs inputStrides outputStrides
      profilingQuery inferenceId bos
    (create ctx).2.fixed = ctx.fixed ∧ (create ctx).2.calls = ctx.calls ∧
      ∀ calls scans, (create { ctx with calls := calls, scans := scans }).1 = (create ctx).1 := by
  intro create
  have fixed := applyInputOutputs_fixed ctx cmdHpi inputs outputs profilingQuery
  have calls := applyInputOutputs_calls ctx cmdHpi inputs outputs profilingQuery
  have applied := applyInputOutputs_waits ctx cmdHpi inputs outputs profilingQuery
  have context : ∀ ctx, (create ctx).2 = (applyInputOutputs ctx cmdHpi inputs outputs profilingQuery).2 := by
    intro ctx
    simp only [create, VPUInferenceExecute.create]
    rcases applyInputOutputs ctx cmdHpi inputs outputs profilingQuery with ⟨_ | userBos, next⟩
    · rfl
    · cases bos with
      | nil => rfl
      | cons hpiBo rest =>
        simp only
        split <;> rfl
  refine ⟨by rw [context, fixed], by rw [context, calls], fun calls scans => ?_⟩
  have same := applied calls scans
  simp only [create, VPUInferenceExecute.create]
  generalize applyInputOutputs { ctx with calls := calls, scans := scans } cmdHpi inputs outputs profilingQuery = left
    at same
  generalize applyInputOutputs ctx cmdHpi inputs outputs profilingQuery = right at same
  obtain ⟨found, leftContext⟩ := left
  obtain ⟨found', rightContext⟩ := right
  obtain rfl : found = found' := same
  rcases found with _ | userBos
  · rfl
  · cases bos with
    | nil => rfl
    | cons hpiBo rest =>
      simp only
      split <;> rfl

theorem allocateGraphExecuteCommand_spec (graph : Graph) (profilingQuery : Option GraphProfilingQuery)
    (ctx : VPUDeviceContext) :
    (CommandList.allocateGraphExecuteCommand graph profilingQuery ctx).2.fixed = ctx.fixed ∧
      (CommandList.allocateGraphExecuteCommand graph profilingQuery ctx).2.calls = ctx.calls ∧
      ∀ calls scans,
        (CommandList.allocateGraphExecuteCommand graph profilingQuery { ctx with calls := calls, scans := scans }).1 =
          (CommandList.allocateGraphExecuteCommand graph profilingQuery ctx).1 := by
  simp only [CommandList.allocateGraphExecuteCommand]
  cases graph.acquired with
  | error error => exact ⟨rfl, rfl, fun _ _ => rfl⟩
  | ok parsed => exact inferenceCreate_spec ..

namespace ImmediateCommandList

open Effect (perform)

theorem Refines.weaken {ready stronger : Prop} {effects : List Effect} {before : ImmediateCommandList}
    {outcome : ZeResult × ImmediateCommandList} (refines : Refines ready effects before outcome)
    (implies : stronger → ready) : Refines stronger effects before outcome := by
  obtain ⟨answers, refines⟩ := refines
  exact ⟨answers, refines.asked, refines.fixed, fun prepared => refines.idle (implies prepared),
    fun prepared => refines.submitted (implies prepared), fun prepared => refines.accepted (implies prepared)⟩

theorem alike_context (ctx : VPUDeviceContext) (effects : List Effect) : Alike effects (.context ctx :: effects) :=
  ⟨rfl, fun passes => List.forall_mem_cons.mpr ⟨trivial, passes⟩, fun passes => (List.forall_mem_cons.mp passes).2⟩

theorem copy_hwInfo {ctx next : VPUDeviceContext} (same : next.hwInfo = ctx.hwInfo) (srcPtr : Nat)
    (srcBo : Option VPUBufferObject) (dstPtr : Nat) (dstBo : Option VPUBufferObject) (size : Nat) :
    VPUCopyCommand.create next srcPtr srcBo dstPtr dstBo size = VPUCopyCommand.create ctx srcPtr srcBo dstPtr dstBo size := by
  simp only [VPUCopyCommand.create, same]

/-- The fill as a copy: the buffer of the pattern is created between the two checks. -/
theorem fillAsCopy_refines (list : ImmediateCommandList) (ptr patternSize size : Nat) {hSignalEvent : Option Event}
    {waitEvents : WaitEvents} (eventless : Eventless hSignalEvent waitEvents) :
    Refines list.Idle
      (.check ::
        match list.ctx.createUntrackedBufferObject ((size + patternSize) % 2 ^ 64) true with
        | (none, next) => [.context next, .fail ZE_RESULT_ERROR_OUT_OF_DEVICE_MEMORY]
        | (some patternBo, next) =>
          .context next ::
            if patternBo.basePtr = 0 then [.fail ZE_RESULT_ERROR_INVALID_SIZE]
            else commandEffects hSignalEvent waitEvents (VPUCopyCommand.create next patternBo.basePtr (some patternBo) ptr
              (next.findBufferObject ptr) size)) list
      (appendMemoryFillAsCopyCmd ptr patternSize size hSignalEvent waitEvents list) := by
  apply list.checked_refines
  rintro next ⟨calls, scans, moved⟩
  have same := list.ctx.createUntrackedBufferObject_waits ((size + patternSize) % 2 ^ 64) true calls scans
  rw [← moved] at same
  have kept := list.ctx.createUntrackedBufferObject_fixed ((size + patternSize) % 2 ^ 64) true
  have stands := next.createInternal_stands ((size + patternSize) % 2 ^ 64)
  have waited : next.ctx.fixed = list.ctx.fixed := by rw [moved]; rfl
  have bo : (next.createInternal ((size + patternSize) % 2 ^ 64)).1 =
      (list.ctx.createUntrackedBufferObject ((size + patternSize) % 2 ^ 64) true).1 := same
  generalize list.ctx.createUntrackedBufferObject ((size + patternSize) % 2 ^ 64) true = regular at bo kept
  generalize next.createInternal ((size + patternSize) % 2 ^ 64) = internal at stands bo
  obtain ⟨made, ctx⟩ := regular
  obtain ⟨found, last⟩ := internal
  obtain rfl : found = made := bo
  cases found with
  | none =>
    apply refines_fail stands .inr (by decide)
    exact fun passes => passes _ (List.mem_cons_of_mem _ List.mem_cons_self)
  | some patternBo =>
    simp only
    by_cases null : patternBo.basePtr = 0
    · rw [if_pos null, if_pos null]
      apply refines_fail stands .inr (by decide)
      exact fun passes => passes _ (List.mem_cons_of_mem _ List.mem_cons_self)
    · rw [if_neg null, if_neg null]
      have fixed : last.ctx.fixed = ctx.fixed := (stands.fixed.trans waited).trans kept.symm
      rw [← findBufferObject_fixed fixed, ← copy_hwInfo (hwInfo_fixed fixed)]
      have one := last.command_refines eventless (VPUCopyCommand.create last.ctx patternBo.basePtr (some patternBo) ptr
        (last.ctx.findBufferObject ptr) size)
      apply Refines.from stands
      apply (one.weaken _).alike (alike_context ctx _)
      exact fun empty => .inr (stands.job.trans empty)

/-- Of two effects the first alone may be refused. -/
theorem atomic_pair {first second : Effect} (passes : second.Passes) : Effect.Atomic [first, second] := by
  intro done failing rest split refused
  rcases List.cons_eq_append_iff.mp split with ⟨rfl, -⟩ | ⟨others, rfl, later⟩
  · rfl
  · rcases List.cons_eq_append_iff.mp later with ⟨rfl, same⟩ | ⟨more, rfl, nothing⟩
    · obtain ⟨rfl, -⟩ := List.cons.inj same
      exact absurd passes refused
    · cases (List.append_eq_nil_iff.mp nothing.symm).2

/-- The condition under which the copy of a timestamp can be recorded. -/
def CopiesTimestamp (ctx : VPUDeviceContext) (dstptr : Nat) : Prop :=
  ∀ dstBo alignedBo, ctx.findBufferObject dstptr = some dstBo →
    (ctx.createUntrackedBufferObject 8 true).1 = some alignedBo →
      ∃ cmd, VPUCopyCommand.create ctx alignedBo.basePtr (some alignedBo) dstptr (some dstBo) 8 = .ok cmd

/-- The timestamp is the only operation with two commands in one submission. -/
theorem timestamp_refines (list : ImmediateCommandList) {dstptr : Nat} {hSignalEvent : Option Event}
    {waitEvents : WaitEvents} (nonzero : dstptr ≠ 0) (eventless : Eventless hSignalEvent waitEvents)
    (copies : CopiesTimestamp list.ctx dstptr) :
    Refines list.Idle (AppendOperation.timestampExpansion list.ctx dstptr hSignalEvent waitEvents) list
      (appendWriteGlobalTimestamp dstptr hSignalEvent waitEvents list) := by
  rw [AppendOperation.timestampExpansion, appendWriteGlobalTimestamp, if_neg nonzero]
  cases place : list.ctx.findBufferObject dstptr with
  | none => exact list.refines_refused _ (by decide)
  | some dstBo =>
    simp only [eventless.waits, eventless.signals, success_andThen]
    apply list.checked_refines
    rintro next ⟨calls, scans, moved⟩
    have same := list.ctx.createUntrackedBufferObject_waits 8 true calls scans
    rw [← moved] at same
    have kept := list.ctx.createUntrackedBufferObject_fixed 8 true
    have stands := next.createInternal_stands 8
    have waited : next.ctx.fixed = list.ctx.fixed := by rw [moved]; rfl
    have bo : (next.createInternal 8).1 = (list.ctx.createUntrackedBufferObject 8 true).1 := same
    have recorded := fun alignedBo => copies dstBo alignedBo place
    generalize list.ctx.createUntrackedBufferObject 8 true = regular at bo kept recorded
    generalize next.createInternal 8 = internal at stands bo
    obtain ⟨made, ctx⟩ := regular
    obtain ⟨found, last⟩ := internal
    obtain rfl : found = made := bo
    cases found with
    | none =>
      apply refines_fail stands .inr (by decide)
      exact fun passes => passes _ (List.mem_cons_of_mem _ List.mem_cons_self)
    | some alignedBo =>
      obtain ⟨copy, copied⟩ := recorded alignedBo rfl
      have fixed : last.ctx.fixed = ctx.fixed := (stands.fixed.trans waited).trans kept.symm
      have before : VPUCopyCommand.create ctx alignedBo.basePtr (some alignedBo) dstptr (some dstBo) 8 = .ok copy :=
        (copy_hwInfo (hwInfo_fixed kept) ..).trans copied
      have after : VPUCopyCommand.create last.ctx alignedBo.basePtr (some alignedBo) dstptr (some dstBo) 8 =
          .ok copy := (copy_hwInfo (hwInfo_fixed fixed) ..).trans before
      simp only [before, after, hwInfo_fixed fixed]
      generalize VPUTimeStampCommand.create alignedBo.basePtr (some alignedBo) ctx.hwInfo.fwTimestampType = timestamp
      have one : Refines (last.job = .empty) [.command timestamp, .command (.ok copy)] last
          ((lift (perform [.command timestamp, .command (.ok copy)])).andThen postAppend last) := by
        apply last.submit_refines
        · intro effect member
          rcases List.mem_cons.mp member with rfl | second
          · trivial
          · rw [List.mem_singleton.mp second]
            trivial
        · exact atomic_pair ⟨copy, rfl⟩
      have both : (CommandList.appendCommand timestamp).andThen (CommandList.appendCommand (.ok copy)) =
          perform [.command timestamp, .command (.ok copy)] := by
        rw [perform, Effect.perform_singleton]
        rfl
      rw [both]
      apply Refines.from stands
      apply (one.weaken _).alike (alike_context ctx _)
      exact fun empty => stands.job.trans empty

theorem graphInitialize_refines (list : ImmediateCommandList) (hGraph : Option Graph) {hSignalEvent : Option Event}
    {waitEvents : WaitEvents} (eventless : Eventless hSignalEvent waitEvents) :
    Refines list.Idle
      (.check :: waitEventEffects waitEvents ++
        match hGraph with
        | none => [.fail ZE_RESULT_ERROR_UNINITIALIZED]
        | some graph => .command (CommandList.allocateGraphInitCommand graph) :: signalEffects hSignalEvent) list
      (appendGraphInitialize hGraph hSignalEvent waitEvents list) := by
  rw [eventless.waits.2]
  apply list.checked_refines
  rintro next -
  rw [eventless.waits.1]
  cases hGraph with
  | none => exact refines_fail (Stands.refl next) .inr (by decide) fun passes => passes _ List.mem_cons_self
  | some graph =>
    simp only [eventless.signals]
    exact next.submit_command_refines (CommandList.allocateGraphInitCommand graph)

/-- The effects of a graph execution leave the device alone, and its command comes last. -/
theorem inferenceExpansion_atomic (ctx : VPUDeviceContext) (hGraph : Option Graph)
    (hProfilingQuery : Option GraphProfilingQuery) :
    (∀ effect ∈ AppendOperation.inferenceExpansion ctx hGraph hProfilingQuery, effect.Tame ctx) ∧
      Effect.Atomic (AppendOperation.inferenceExpansion ctx hGraph hProfilingQuery) := by
  have refused : ∀ error failed, (∀ effect ∈ [Effect.fail error failed], effect.Tame ctx) ∧
      Effect.Atomic [Effect.fail error failed] := by
    intro error failed
    constructor
    · intro effect member
      rw [List.mem_singleton.mp member]
      trivial
    · exact @Effect.atomic_last [] rfl _
  cases hGraph with
  | none => exact refused _ _
  | some graph =>
    rw [AppendOperation.inferenceExpansion]
    cases CommandList.profilingQueryOf graph hProfilingQuery with
    | none => exact refused _ _
    | some profilingQuery =>
      obtain ⟨fixed, calls, -⟩ := allocateGraphExecuteCommand_spec graph profilingQuery ctx
      constructor
      · intro effect member
        rcases List.mem_cons.mp member with rfl | command
        · exact ⟨calls, fixed⟩
        · rw [List.mem_singleton.mp command]
          trivial
      · exact @Effect.atomic_last [.context _] rfl _

/-- A wait for the queue does not change what a graph execution records. -/
theorem inferenceExpansion_waits (ctx : VPUDeviceContext) (hGraph : Option Graph)
    (hProfilingQuery : Option GraphProfilingQuery) (calls : List DriverCall) (scans number : Nat) :
    Alike (AppendOperation.inferenceExpansion { ctx with calls := calls, scans := scans } hGraph hProfilingQuery)
      (.note number :: AppendOperation.inferenceExpansion ctx hGraph hProfilingQuery) := by
  have noted : ∀ effects, Alike effects (.note number :: effects) := fun effects =>
    ⟨rfl, fun passes => List.forall_mem_cons.mpr ⟨trivial, passes⟩, fun passes => (List.forall_mem_cons.mp passes).2⟩
  cases hGraph with
  | none => exact noted _
  | some graph =>
    rw [AppendOperation.inferenceExpansion, AppendOperation.inferenceExpansion]
    cases CommandList.profilingQueryOf graph hProfilingQuery with
    | none => exact noted _
    | some profilingQuery =>
      obtain ⟨-, -, waits⟩ := allocateGraphExecuteCommand_spec graph profilingQuery ctx
      have same := waits calls scans
      simp only
      rw [same]
      exact ⟨rfl, by simp [Effect.Passes]⟩

theorem graphExecute_refines (list : ImmediateCommandList) (number : Nat) (hGraph : Option Graph)
    (hProfilingQuery : Option GraphProfilingQuery) {hSignalEvent : Option Event} {waitEvents : WaitEvents}
    (eventless : Eventless hSignalEvent waitEvents) :
    Refines list.Idle
      (.check :: waitEventEffects waitEvents ++
        .note number :: (AppendOperation.inferenceExpansion list.ctx hGraph hProfilingQuery ++
          signalEffects hSignalEvent)) list
      (appendGraphExecute hGraph hProfilingQuery hSignalEvent waitEvents list) := by
  rw [appendGraphExecute, eventless.waits.1, eventless.waits.2, eventless.signals.1, eventless.signals.2,
    List.append_nil]
  apply list.checked_refines
  rintro next ⟨calls, scans, moved⟩
  have lifted : lift (CommandList.appendInference hGraph hProfilingQuery) next =
      lift (perform (AppendOperation.inferenceExpansion next.ctx hGraph hProfilingQuery)) next := by
    simp only [lift, CommandList.appendInference_perform]
    rfl
  have refines : Refines (next.job = .empty) (AppendOperation.inferenceExpansion next.ctx hGraph hProfilingQuery) next
      ((lift (perform (AppendOperation.inferenceExpansion next.ctx hGraph hProfilingQuery))).andThen postAppend
        next) := by
    obtain ⟨tame, atomic⟩ := inferenceExpansion_atomic next.ctx hGraph hProfilingQuery
    exact next.submit_refines tame atomic
  have goes_on : (lift (CommandList.appendInference hGraph hProfilingQuery)).andThen postAppend next =
      (lift (perform (AppendOperation.inferenceExpansion next.ctx hGraph hProfilingQuery))).andThen postAppend next := by
    rw [ImmediateAppend.andThen, lifted, ImmediateAppend.andThen]
  simp only [success_andThen, goes_on]
  apply refines.alike
  rw [moved]
  exact inferenceExpansion_waits list.ctx hGraph hProfilingQuery calls scans number

theorem eventReset_refines (list : ImmediateCommandList) (hEvent : Option Event) :
    Refines list.Idle [.check, eventEffect VPUEventResetCommand.create hEvent] list (appendEventReset hEvent list) := by
  apply list.checked_refines
  rintro next -
  rw [CommandList.appendEventCommand_perform, ← Effect.perform_singleton]
  apply next.submit_refines
  · intro effect member
    rw [List.mem_singleton.mp member]
    exact (CommandList.eventEffect_core _ _).tame
  · exact @Effect.atomic_last [] rfl _

theorem metricQueryBegin_refines (list : ImmediateCommandList) (query : MetricQuery) :
    Refines list.Idle
      [.check, if query.isGroupActivated then
          .command (VPUQueryBeginCommand.create query.metricGroupMask query.metricAddrPtr query.bo)
        else .fail ZE_RESULT_ERROR_DEPENDENCY_UNAVAILABLE] list (appendMetricQueryBegin (some query) list) := by
  apply list.checked_refines
  rintro next -
  cases query.isGroupActivated with
  | false => exact refines_fail (Stands.refl next) .inr (by decide) fun passes => passes _ List.mem_cons_self
  | true => exact next.submit_command_refines _

theorem region_refines (list : ImmediateCommandList) (dst src : CommandList.RegionSide) {hSignalEvent : Option Event}
    {waitEvents : WaitEvents} (eventless : Eventless hSignalEvent waitEvents) :
    Refines list.Idle (AppendOperation.regionExpansion list.ctx dst src hSignalEvent waitEvents) list
      (ImmediateAppend.andThen (fun list => (CommandList.checkRegions dst src, list))
        (appendRows dst src hSignalEvent waitEvents 0 dst.region.height) list) := by
  rw [AppendOperation.regionExpansion, ImmediateAppend.andThen]
  split
  · rename_i refused
    split
    · rename_i same
      exact absurd (congrArg Prod.fst same) refused
    · rename_i error next _ same
      obtain ⟨rfl, rfl⟩ := Prod.mk.inj same
      exact list.refines_refused _ refused
  · rename_i accepted
    rw [Decidable.not_not.mp accepted]
    exact list.rows_refine dst src eventless 0 dst.region.height

/-! The operations, and runs of them. -/

/-- The append operations of an immediate list. -/
def append : AppendOperation → ImmediateAppend
  | .barrier hSignalEvent waitEvents => appendBarrier hSignalEvent waitEvents
  | .memoryCopy dstptr srcptr size hSignalEvent waitEvents =>
    appendMemoryCopy dstptr srcptr size hSignalEvent waitEvents
  | .memoryFill ptr pattern patternSize size hSignalEvent waitEvents =>
    appendMemoryFill ptr pattern patternSize size hSignalEvent waitEvents
  | .memoryCopyRegion dstptr dstRegion dstPitch dstSlicePitch srcptr srcRegion srcPitch srcSlicePitch hSignalEvent
      waitEvents =>
    appendMemoryCopyRegion dstptr dstRegion dstPitch dstSlicePitch srcptr srcRegion srcPitch srcSlicePitch hSignalEvent
      waitEvents
  | .writeGlobalTimestamp dstptr hSignalEvent waitEvents => appendWriteGlobalTimestamp dstptr hSignalEvent waitEvents
  | .writeGlobalTimestampTo timestampBo hSignalEvent waitEvents =>
    appendWriteGlobalTimestampTo timestampBo hSignalEvent waitEvents
  | .graphInitialize hGraph hSignalEvent waitEvents => appendGraphInitialize hGraph hSignalEvent waitEvents
  | .graphExecute hGraph hProfilingQuery hSignalEvent waitEvents =>
    appendGraphExecute hGraph hProfilingQuery hSignalEvent waitEvents
  | .signalEvent hEvent => appendSignalEvent hEvent
  | .waitOnEvents numEvents phEvent => appendWaitOnEvents numEvents phEvent
  | .eventReset hEvent => appendEventReset hEvent
  | .metricQueryBegin hMetricQuery => appendMetricQueryBegin hMetricQuery
  | .metricQueryEnd hMetricQuery hSignalEvent waitEvents =>
    appendMetricQueryEnd hMetricQuery hSignalEvent waitEvents

/-- The operation names no event to wait for or to signal, and a timestamp can be copied to its destination. -/
def Plain (ctx : VPUDeviceContext) : AppendOperation → Prop
  | .barrier hSignalEvent waitEvents => Eventless hSignalEvent waitEvents
  | .memoryCopy _ _ _ hSignalEvent waitEvents => Eventless hSignalEvent waitEvents
  | .memoryFill _ _ _ _ hSignalEvent waitEvents => Eventless hSignalEvent waitEvents
  | .memoryCopyRegion _ _ _ _ _ _ _ _ hSignalEvent waitEvents => Eventless hSignalEvent waitEvents
  | .writeGlobalTimestamp dstptr hSignalEvent waitEvents =>
    Eventless hSignalEvent waitEvents ∧ CopiesTimestamp ctx dstptr
  | .writeGlobalTimestampTo _ hSignalEvent waitEvents => Eventless hSignalEvent waitEvents
  | .graphInitialize _ hSignalEvent waitEvents => Eventless hSignalEvent waitEvents
  | .graphExecute _ _ hSignalEvent waitEvents => Eventless hSignalEvent waitEvents
  | .signalEvent _ => False
  | .waitOnEvents _ _ => False
  | .eventReset _ => True
  | .metricQueryBegin _ => True
  | .metricQueryEnd _ hSignalEvent waitEvents => Eventless hSignalEvent waitEvents

/-- A new regular list on the same device. -/
def regular (list : ImmediateCommandList) : CommandList := ⟨false, list.ctx, .empty, fun _ => none⟩

theorem regular_ctx (list : ImmediateCommandList) : list.regular.ctx = list.ctx := rfl

theorem append_refines (list : ImmediateCommandList) {operation : AppendOperation} (plain : Plain list.ctx operation) :
    Refines list.Idle (operation.expansion list.regular) list (append operation list) := by
  cases operation with
  | barrier hSignalEvent waitEvents => exact list.command_refines plain VPUBarrierCommand.create
  | memoryCopy dstptr srcptr size hSignalEvent waitEvents =>
    rw [append, appendMemoryCopy, AppendOperation.expansion]
    split
    · exact list.refines_refused _ (by decide)
    · exact list.command_refines plain (copyBetween list.ctx dstptr srcptr size)
  | memoryFill ptr pattern patternSize size hSignalEvent waitEvents =>
    simp only [append, appendMemoryFill, AppendOperation.expansion, regular_ctx]
    split
    · exact list.refines_refused _ (by decide)
    · cases pattern with
      | none => exact list.refines_refused _ (by decide)
      | some value =>
        simp only [AppendOperation.memoryFillExpansion]
        split
        · exact list.refines_refused _ (by decide)
        · rename_i supported
          split
          · rw [appendMemoryFillCmd, if_neg (by tauto)]
            cases list.ctx.findBufferObject ptr with
            | none => exact list.refines_refused _ (by decide)
            | some ptrBo => exact list.fills_refine ptrBo _ ptr size plain
          · exact list.fillAsCopy_refines ptr patternSize size plain
  | memoryCopyRegion dstptr dstRegion dstPitch dstSlicePitch srcptr srcRegion srcPitch srcSlicePitch hSignalEvent
      waitEvents =>
    simp only [append, appendMemoryCopyRegion, AppendOperation.expansion]
    split
    · exact list.refines_refused _ (by decide)
    · cases dstRegion with
      | none => exact list.refines_refused _ (by decide)
      | some dstRegion =>
        cases srcRegion with
        | none => exact list.refines_refused _ (by decide)
        | some srcRegion => exact list.region_refines ⟨dstptr, dstRegion, _, _⟩ ⟨srcptr, srcRegion, _, _⟩ plain
  | writeGlobalTimestamp dstptr hSignalEvent waitEvents =>
    rw [append, AppendOperation.expansion]
    split
    · rename_i null
      rw [appendWriteGlobalTimestamp, if_pos null]
      exact list.refines_refused _ (by decide)
    · rename_i nonzero
      exact list.timestamp_refines nonzero plain.1 plain.2
  | writeGlobalTimestampTo timestampBo hSignalEvent waitEvents => exact list.command_refines plain _
  | graphInitialize hGraph hSignalEvent waitEvents => exact list.graphInitialize_refines hGraph plain
  | graphExecute hGraph hProfilingQuery hSignalEvent waitEvents =>
    exact list.graphExecute_refines _ hGraph hProfilingQuery plain
  | signalEvent hEvent => exact plain.elim
  | waitOnEvents numEvents phEvent => exact plain.elim
  | eventReset hEvent => exact list.eventReset_refines hEvent
  | metricQueryBegin hMetricQuery =>
    cases hMetricQuery with
    | none => exact list.refines_refused _ (by decide)
    | some query => exact list.metricQueryBegin_refines query
  | metricQueryEnd hMetricQuery hSignalEvent waitEvents =>
    cases hMetricQuery with
    | none => exact list.refines_refused _ (by decide)
    | some query =>
      rw [append, appendMetricQueryEnd, AppendOperation.expansion]
      cases activated : query.isGroupActivated with
      | false => exact list.refines_refused _ (by decide)
      | true => exact list.command_refines plain _

/-- A close or a submission has failed between two states. -/
def FailedBetween (before after : ImmediateCommandList) : Prop :=
  ∃ answers, after.answers = before.answers ++ answers ∧ ((.close, false) ∈ answers ∨ (.execute, false) ∈ answers)

/-- The append does what the same append does on a new regular list. A failure leaves nothing to submit, and the next
append starts from an empty, open job. -/
structure RefinesRegular (list : ImmediateCommandList) (operation : AppendOperation) : Prop where
  submitted : (append operation list).1 = ZE_RESULT_SUCCESS → (operation.append list.regular).1 = ZE_RESULT_SUCCESS ∧
    list.Submits (append operation list).2 (operation.append list.regular).2.vpuJob.commands
  accepted : (operation.append list.regular).1 = ZE_RESULT_SUCCESS → (append operation list).1 ≠ ZE_RESULT_SUCCESS →
    list.FailedBetween (append operation list).2
  released : (append operation list).1 ≠ ZE_RESULT_SUCCESS →
    (append operation list).2.checkCommandAppendCondition.2.job = .empty

/-- The regular append succeeds when all its effects do, and then it has recorded their commands. -/
theorem regular_append (list : ImmediateCommandList) (operation : AppendOperation) :
    ((operation.append list.regular).1 = ZE_RESULT_SUCCESS ↔
        ∀ effect ∈ operation.expansion list.regular, effect.Passes) ∧
      ((operation.append list.regular).1 = ZE_RESULT_SUCCESS →
        (operation.append list.regular).2.vpuJob.commands = Effect.commandsOf (operation.expansion list.regular)) := by
  rw [operation.append_perform]
  constructor
  · constructor
    · intro success effect member
      exact ((Effect.perform_success (Prod.ext success rfl)).2 effect member).passes
    · intro passes
      rw [Effect.perform_passes ⟨rfl, rfl⟩ passes]
  · intro success
    have finished := (Effect.perform_success (Prod.ext success rfl)).1
    have job := Effect.applyAll_vpuJob (operation.expansion list.regular) list.regular
    rw [← finished] at job
    exact congrArg VPUJob.commands job

/-- What happens to an immediate list: its user appends or waits, the rest of the process changes the context. -/
inductive Step where
  | append (operation : AppendOperation)
  | hostSynchronize
  | others (ctx : VPUDeviceContext)

def step (list : ImmediateCommandList) : Step → ImmediateCommandList
  | .append operation => (append operation list).2
  | .hostSynchronize => list.hostSynchronize.2
  | .others ctx => { list with driver := { list.driver with ctx := ctx } }

/-- An append is plain, and neither the queue's wait nor the closing of the job fails in it. -/
def Allowed (list : ImmediateCommandList) : Step → Prop
  | .append operation =>
    Plain list.ctx operation ∧ Harmless ((append operation list).2.answers.drop list.answers.length)
  | _ => True

theorem Refines.harmless {ready : Prop} {effects : List Effect} {before : ImmediateCommandList}
    {outcome : ZeResult × ImmediateCommandList} (refines : Refines ready effects before outcome)
    (harmless : Harmless (outcome.2.answers.drop before.answers.length)) :
    ∃ answers, Refinement ready effects before answers outcome ∧ Harmless answers := by
  obtain ⟨answers, refines⟩ := refines
  rw [refines.asked, List.drop_left] at harmless
  exact ⟨answers, refines, harmless⟩

theorem step_idle (list : ImmediateCommandList) (taken : Step) (idle : list.Idle) (allowed : Allowed list taken) :
    (step list taken).Idle := by
  cases taken with
  | append operation =>
    obtain ⟨answers, refines, harmless⟩ := (list.append_refines allowed.1).harmless allowed.2
    exact refines.idle idle harmless
  | hostSynchronize =>
    rw [step, hostSynchronize]
    simp only
    split
    · exact .inr (Function.update_self ..)
    · exact list.synchronize_idle idle
  | others ctx => exact idle

theorem refinesRegular_of_idle (list : ImmediateCommandList) {operation : AppendOperation} (idle : list.Idle)
    (allowed : Allowed list (.append operation)) : list.RefinesRegular operation := by
  obtain ⟨answers, refines, harmless⟩ := (list.append_refines allowed.1).harmless allowed.2
  obtain ⟨accepts, records⟩ := list.regular_append operation
  refine ⟨fun success => ?_, fun regular failed => ?_, fun _ => ?_⟩
  · obtain ⟨passes, submits⟩ := refines.submitted idle harmless success
    have regular := accepts.mpr passes
    exact ⟨regular, records regular ▸ submits⟩
  · exact ⟨answers, refines.asked, .inr (refines.accepted idle harmless (accepts.mp regular) failed)⟩
  · exact (check_refines _).2.2 (refines.idle idle harmless)

/-- In every run of a new immediate list whose appends name no events and in which neither waits nor closing fail,
every append refines the regular one. -/
theorem immediate_refines_regular {driver : Driver} {pCommandQueue vpuJob : Nat} {steps : List Step}
    {operation : AppendOperation}
    (allowed : Guarded step Allowed (new driver pCommandQueue vpuJob) (steps ++ [.append operation])) :
    (runFrom step (new driver pCommandQueue vpuJob) steps).RefinesRegular operation := by
  have initial : (new driver pCommandQueue vpuJob).Idle := .inr (Function.update_self ..)
  obtain ⟨before, last, -⟩ := guarded_append.mp allowed
  exact refinesRegular_of_idle _ (guarded_invariant step_idle initial before) last

/-- A driver with one queue on a kernel that grants everything. -/
def immediateDriver : Driver where
  ctx := grantingContext []
  jobs := fun _ => .empty
  queues := fun _ => ⟨defaultQueue, false, none, [], []⟩

/-- Two barriers after each other. -/
theorem immediate_refines_regular_barriers :
    let barrier := AppendOperation.barrier none .none
    (runFrom step (new immediateDriver 0 0) [.append barrier]).RefinesRegular barrier := by
  apply @immediate_refines_regular immediateDriver 0 0 [.append (.barrier none .none)] (.barrier none .none)
  exact ⟨⟨⟨rfl, rfl⟩, by decide +kernel⟩, ⟨⟨rfl, rfl⟩, by decide +kernel⟩, trivial⟩

/-- The buffer of an event pool is not tracked: a regular list accepts a barrier with an event of it, the immediate
list refuses it although nothing was closed or submitted, and keeps the barrier, which the next append submits too. -/
theorem signalled_barrier_left_behind :
    let list := new immediateDriver 0 0
    let operation := AppendOperation.barrier (some firstEvent) .none
    let refused := append operation list
    let next := append (.barrier none .none) refused.2
    (operation.append list.regular).1 = ZE_RESULT_SUCCESS ∧ refused.1 = ZE_RESULT_ERROR_UNINITIALIZED ∧
      refused.2.answers = [(.synchronize, true)] ∧ refused.2.checkCommandAppendCondition.2.job.commands.length = 1 ∧
      next.1 = ZE_RESULT_SUCCESS ∧ (next.2.driver.jobs 0).commands.length = 2 ∧
      ((AppendOperation.barrier none .none).append list.regular).2.vpuJob.commands.length = 1 := by
  decide +kernel

end ImmediateCommandList

end NpuDriver
