import NpuDriver.Proof.AppendOrder

/-! What a failed append operation leaves in the command list. -/

namespace NpuDriver

open ZeResult

/-- The operations that consist of a single command. -/
def AppendOperation.single : AppendOperation → Bool
  | signalEvent _ => true
  | eventReset _ => true
  | metricQueryBegin _ => true
  | _ => false

theorem AppendOperation.single_expansion {operation : AppendOperation} (list : CommandList)
    (single : operation.single = true) :
    (∃ error failed, operation.expansion list = [.fail error failed]) ∨
      ∃ last, operation.expansion list = [.check, last] := by
  cases operation with
  | signalEvent hEvent => exact .inr ⟨_, rfl⟩
  | eventReset hEvent => exact .inr ⟨_, rfl⟩
  | metricQueryBegin hMetricQuery =>
    cases hMetricQuery with
    | none => exact .inl ⟨_, _, rfl⟩
    | some query => exact .inr ⟨_, rfl⟩
  | _ => cases single

/-- A part of a single-command operation that something follows adds no command. -/
theorem AppendOperation.single_front {operation : AppendOperation} {list : CommandList}
    {done left : List Effect} (single : operation.single = true)
    (split : operation.expansion list = done ++ left) (unfinished : left ≠ []) :
    Effect.commandsOf done = [] := by
  rcases single_expansion list single with ⟨error, failed, only⟩ | ⟨last, both⟩
  · rw [only] at split
    rcases List.append_eq_cons_iff.mp split.symm with ⟨rfl, -⟩ | ⟨tail, rfl, rest⟩
    · rfl
    · obtain ⟨rfl, rfl⟩ := List.append_eq_nil_iff.mp rest.symm
      exact absurd rfl unfinished
  · rw [both] at split
    rcases List.append_eq_cons_iff.mp split.symm with ⟨rfl, -⟩ | ⟨tail, rfl, rest⟩
    · rfl
    · rcases List.append_eq_cons_iff.mp rest.symm with ⟨rfl, -⟩ | ⟨others, rfl, nothing⟩
      · rfl
      · obtain ⟨rfl, rfl⟩ := List.append_eq_nil_iff.mp nothing.symm
        exact absurd rfl unfinished

/-- An operation was carried out up to some point of its expansion: what was `done` has created a front of its
series and stays, and what is `left` begins with the effect that failed. -/
structure CarriedOut (operation : AppendOperation) (list : CommandList) (done left : List Effect)
    (created : List VPUCommand) : Prop where
  split : operation.expansion list = done ++ left
  state : (operation.append list).2 = Effect.applyAll done list
  ordered : created.map Except.ok <+: operation.series list.ctx
  stored : (operation.append list).2.vpuJob =
    { list.vpuJob with
      commands := list.vpuJob.commands ++ created.filter fun cmd => cmd.getCommitSize ≠ 0 }
  success : (operation.append list).1 = ZE_RESULT_SUCCESS ↔ left = []
  whole : left = [] → created.map Except.ok = operation.series list.ctx
  stopped : ∀ failing rest, left = failing :: rest →
    failing.run (Effect.applyAll done list) = ((operation.append list).1, Effect.applyAll done list)
  single : operation.single = true → (operation.append list).1 ≠ ZE_RESULT_SUCCESS →
    (operation.append list).2.vpuJob = list.vpuJob

/-- An append operation adds the commands of its series in order, up to the first effect that fails; the commands
added before it stay. Single commands are added entirely or not at all. -/
theorem append_prefix (operation : AppendOperation) (list : CommandList) :
    ∃ done left created, CarriedOut operation list done left created := by
  have order := operation.expansion_creates list
  have performed := operation.append_perform list
  rcases Effect.perform_cases (operation.expansion list) list with
    finished | ⟨done, failing, rest, error, split, succeed, failed, stops, result⟩
  · rw [finished] at performed
    obtain ⟨-, succeed⟩ := Effect.perform_success finished
    obtain ⟨created, same, stored⟩ := Effect.commandsOf_creations succeed
    have whole : created.map Except.ok = operation.series list.ctx := same.trans (order.whole succeed)
    refine ⟨operation.expansion list, [], created, ?_⟩
    exact {
      split := (List.append_nil _).symm
      state := congrArg Prod.snd performed
      ordered := whole ▸ List.prefix_refl _
      stored := by rw [performed, Effect.applyAll_vpuJob, stored]
      success := by simp [performed]
      whole := fun _ => whole
      stopped := nofun
      single := fun _ refused => absurd (congrArg Prod.fst performed) refused }
  · rw [result] at performed
    obtain ⟨created, same, stored⟩ := Effect.commandsOf_creations succeed
    refine ⟨done, failing :: rest, created, ?_⟩
    exact {
      split := split
      state := congrArg Prod.snd performed
      ordered := same ▸ order.front done _ split succeed
      stored := by rw [performed, Effect.applyAll_vpuJob, stored]
      success := by simp [performed, failed]
      whole := nofun
      stopped := by
        intro first others same
        obtain ⟨rfl, rfl⟩ := List.cons.inj same
        rw [stops, performed]
      single := by
        intro single _
        have nothing := AppendOperation.single_front single split (List.cons_ne_nil failing rest)
        rw [performed, Effect.applyAll_vpuJob, nothing, List.append_nil] }

/-- An event pool and the event at its start. -/
def eventPool : VPUBufferObject := ⟨300, 301, 2 ^ 30, 4096, 2 ^ 30⟩

def firstEvent : Event := ⟨eventPool.basePtr, some eventPool⟩

/-- A new command list. -/
def newCommandList (isMutable : Bool) : CommandList where
  isMutable := isMutable
  ctx := grantingContext [eventPool]
  vpuJob := .empty
  commandIdMap := fun _ => none

/-- A barrier whose second wait event is null fails and leaves its first wait behind. -/
theorem failed_barrier_keeps_wait :
    let waitEvents : WaitEvents := ⟨2, some fun index => if index = 0 then some firstEvent else none⟩
    let appended := (AppendOperation.barrier none waitEvents).append (newCommandList false)
    appended.1 = ZE_RESULT_ERROR_INVALID_NULL_HANDLE ∧
      appended.2.vpuJob.commands ≠ (newCommandList false).vpuJob.commands := by
  intro waitEvents appended
  have left : appended.2.vpuJob.commands.length = 1 := by decide +kernel
  refine ⟨by decide +kernel, ?_⟩
  intro same
  rw [same] at left
  exact absurd left (by decide)

end NpuDriver
