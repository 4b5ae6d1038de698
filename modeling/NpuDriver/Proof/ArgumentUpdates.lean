import NpuDriver.LevelZero.CommandList

/-! What the updates of mutable commands change: the arguments that are named, nothing else. -/

namespace NpuDriver

open Library ZeResult

/-- Pointer and strides of one argument; outputs are counted behind the inputs. -/
def VPUInferenceExecute.argument (inference : VPUInferenceExecute) (index : Nat) :
    Option Nat × Option ArgumentStrides :=
  if index < inference.inputs.length then (inference.inputs[index]?, inference.inputStrides index)
  else
    (inference.outputs[index - inference.inputs.length]?,
      inference.outputStrides (index - inference.inputs.length))

/-- A pointer that is not updated stays, strides that are not updated are erased. -/
def ArgumentUpdates.applyTo (update : ArgumentUpdates)
    (argument : Option Nat × Option ArgumentStrides) : Option Nat × Option ArgumentStrides :=
  (update.ptr.or argument.1, update.strides)

/-- Two states of one inference between which only arguments were updated. -/
structure SameInference (before after : VPUInferenceExecute) : Prop where
  inferenceId : after.inferenceId = before.inferenceId
  inputs : after.inputs.length = before.inputs.length
  outputs : after.outputs.length = before.outputs.length

theorem SameInference.refl (inference : VPUInferenceExecute) : SameInference inference inference :=
  ⟨rfl, rfl, rfl⟩

theorem SameInference.trans {first second third : VPUInferenceExecute} (left : SameInference first second)
    (right : SameInference second third) : SameInference first third where
  inferenceId := right.inferenceId.trans left.inferenceId
  inputs := right.inputs.trans left.inputs
  outputs := right.outputs.trans left.outputs

@[simp] theorem setPointer_length (pointers : List Nat) (index : Nat) (ptr : Option Nat) :
    (setPointer pointers index ptr).length = pointers.length := by
  cases ptr <;> simp [setPointer]

theorem setPointer_same {pointers : List Nat} (inside : index < pointers.length) (ptr : Option Nat) :
    (setPointer pointers index ptr)[index]? = ptr.or pointers[index]? := by
  cases ptr <;> simp [setPointer, inside]

theorem setPointer_other {pointers : List Nat} (different : index ≠ other) (ptr : Option Nat) :
    (setPointer pointers index ptr)[other]? = pointers[other]? := by
  cases ptr <;> simp [setPointer, different]

namespace VPUInferenceExecute

theorem updateArgument_same (inference : VPUInferenceExecute) (index : Nat) (update : ArgumentUpdates) :
    SameInference inference (inference.updateArgument inference.inputs.length index update) := by
  unfold updateArgument
  split
  · exact ⟨rfl, by simp, rfl⟩
  · exact ⟨rfl, rfl, by simp⟩

theorem updateArgument_argument {inference : VPUInferenceExecute} {index : Nat} (update : ArgumentUpdates)
    (inside : index < inference.inputs.length + inference.outputs.length) (other : Nat) :
    (inference.updateArgument inference.inputs.length index update).argument other =
      if other = index then update.applyTo (inference.argument other) else inference.argument other := by
  have same := inference.updateArgument_same index update
  unfold argument
  rw [same.inputs]
  by_cases input : index < inference.inputs.length
  · by_cases equal : other = index
    · subst equal
      simp only [updateArgument, if_pos input, setPointer_same input, ArgumentUpdates.applyTo,
        Function.update_self, ↓reduceIte]
    · by_cases otherInput : other < inference.inputs.length
      · have apart : index ≠ other := fun same => equal same.symm
        simp only [updateArgument, if_pos input, if_pos otherInput, if_neg equal, setPointer_other apart,
          Function.update_of_ne equal]
      · simp [updateArgument, input, otherInput, equal]
  · by_cases equal : other = index
    · subst equal
      have output : other - inference.inputs.length < inference.outputs.length := by omega
      simp [updateArgument, input, setPointer_same output, ArgumentUpdates.applyTo]
    · by_cases otherInput : other < inference.inputs.length
      · simp [updateArgument, input, otherInput, equal]
      · have apart : index - inference.inputs.length ≠ other - inference.inputs.length := by omega
        simp [updateArgument, input, otherInput, equal, setPointer_other apart, apart.symm]

/-- The loop over the updates of one command changes the named arguments only, and all of them
when it succeeds. -/
theorem updateArguments_argument {inference : VPUInferenceExecute} {updates : ArgumentUpdatesMap}
    (distinct : DistinctKeys updates) {numInputArgs numArgs : Nat}
    (inputs : numInputArgs = inference.inputs.length)
    (bound : numArgs ≤ inference.inputs.length + inference.outputs.length) :
    let result := inference.updateArguments numInputArgs numArgs updates
    SameInference inference result.2 ∧
      (∀ index, index ∉ updates.map Prod.fst → result.2.argument index = inference.argument index) ∧
      (result.1 = true → ∀ index update, (index, update) ∈ updates →
        result.2.argument index = update.applyTo (inference.argument index)) := by
  induction updates generalizing inference with
  | nil => exact ⟨SameInference.refl inference, fun _ _ => rfl, by simp⟩
  | cons entry rest ih =>
    obtain ⟨index, update⟩ := entry
    obtain ⟨fresh, others⟩ := List.nodup_cons.mp distinct
    simp only [updateArguments]
    split
    · refine ⟨SameInference.refl inference, fun _ _ => rfl, ?_⟩
      intro success
      cases success
    · rename_i inRange
      subst inputs
      have inside : index < inference.inputs.length + inference.outputs.length := by omega
      have first := inference.updateArgument_same index update
      obtain ⟨same, kept, applied⟩ := ih others first.inputs.symm (by rw [first.inputs, first.outputs]; exact bound)
      refine ⟨first.trans same, ?_, ?_⟩
      · intro other absent
        rw [List.map_cons, List.mem_cons, not_or] at absent
        rw [kept other absent.2, updateArgument_argument update inside, if_neg absent.1]
      · intro success other change member
        rcases List.mem_cons.mp member with equal | later
        · obtain ⟨rfl, rfl⟩ := Prod.mk.inj equal
          rw [kept other fresh, updateArgument_argument change inside, if_pos rfl]
        · have different : other ≠ index := by
            rintro rfl
            exact fresh (List.mem_map.mpr ⟨(other, change), later, rfl⟩)
          rw [applied success other change later, updateArgument_argument update inside, if_neg different]

end VPUInferenceExecute

namespace VPUCommand

/-- What identifies a command while it stays in its job. -/
structure Same (before after : VPUCommand) : Prop where
  getCommandType : after.getCommandType = before.getCommandType
  isInference : after.isInference.map VPUInferenceExecute.inferenceId =
    before.isInference.map VPUInferenceExecute.inferenceId

theorem Same.refl (cmd : VPUCommand) : Same cmd cmd := ⟨rfl, rfl⟩

theorem Same.trans {first second third : VPUCommand} (left : Same first second)
    (right : Same second third) : Same first third where
  getCommandType := right.getCommandType.trans left.getCommandType
  isInference := right.isInference.trans left.isInference

/-- An argument of a command, none when the command is no inference. -/
def argument (cmd : VPUCommand) (index : Nat) : Option (Option Nat × Option ArgumentStrides) :=
  cmd.isInference.map fun inference => inference.argument index

/-- The updates of one command. -/
theorem setUpdates_argument (cmd : VPUCommand) {updates : ArgumentUpdatesMap}
    (distinct : DistinctKeys updates) :
    let result := cmd.setUpdates updates
    Same cmd result.2 ∧
      (∀ index, index ∉ updates.map Prod.fst → result.2.argument index = cmd.argument index) ∧
      (result.1 = true → ∀ index update, (index, update) ∈ updates →
        ∃ old, cmd.argument index = some old ∧ result.2.argument index = some (update.applyTo old)) := by
  cases kind : cmd.command with
  | inferenceExecute inference =>
    cases inputs : safeCastU32 inference.inputs.length with
    | none => simp [setUpdates, kind, inputs, Same.refl]
    | some numInputArgs =>
      cases outputs : safeCastU32 inference.outputs.length with
      | none => simp [setUpdates, kind, inputs, outputs, Same.refl]
      | some numOutputArgs =>
        have inputCount : numInputArgs = inference.inputs.length := by
          unfold safeCastU32 at inputs
          split at inputs
          · cases inputs
          · exact (Option.some.inj inputs).symm
        have outputCount : numOutputArgs = inference.outputs.length := by
          unfold safeCastU32 at outputs
          split at outputs
          · cases outputs
          · exact (Option.some.inj outputs).symm
        have bound : (numInputArgs + numOutputArgs) % 2 ^ 32 ≤
            inference.inputs.length + inference.outputs.length := by
          rw [inputCount, outputCount]
          exact Nat.mod_le _ _
        obtain ⟨same, kept, applied⟩ :=
          VPUInferenceExecute.updateArguments_argument distinct inputCount bound
        have before : cmd.isInference = some inference := by simp [isInference, kind]
        have type : cmd.getCommandType = VPU_CMD_INFERENCE_EXECUTE := by
          simp [getCommandType, kind, CommandStruct.getHeader]
        simp only [setUpdates, kind, inputs, outputs]
        generalize inference.updateArguments numInputArgs ((numInputArgs + numOutputArgs) % 2 ^ 32)
          updates = result at same kept applied
        obtain ⟨success, updated⟩ := result
        cases success with
        | false =>
          refine ⟨⟨type.symm, ?_⟩, ?_, ?_⟩
          · rw [before]
            simpa [isInference] using same.inferenceId
          · intro index absent
            simp only [argument, before]
            simp [isInference, kept index absent]
          · intro success
            cases success
        | true =>
          refine ⟨⟨type.symm, ?_⟩, ?_, ?_⟩
          · rw [before]
            simpa [isInference] using same.inferenceId
          · intro index absent
            simp only [argument, before]
            simp [isInference, kept index absent]
          · intro _ index update member
            refine ⟨inference.argument index, by simp [argument, before], ?_⟩
            simp [argument, isInference, applied rfl index update member]
  | _ => simp [setUpdates, kind, Same.refl]

end VPUCommand

/-- An argument of the command at a position. -/
def argumentAt (commands : List VPUCommand) (position index : Nat) :
    Option (Option Nat × Option ArgumentStrides) :=
  commands[position]?.bind fun cmd => cmd.argument index

/-- Lists of commands of which only arguments, states and addresses differ. -/
def SameCommands (before after : List VPUCommand) : Prop := List.Forall₂ VPUCommand.Same before after

theorem SameCommands.refl (commands : List VPUCommand) : SameCommands commands commands :=
  List.forall₂_same.mpr fun cmd _ => VPUCommand.Same.refl cmd

theorem SameCommands.trans {first second third : List VPUCommand} (left : SameCommands first second)
    (right : SameCommands second third) : SameCommands first third := by
  induction left generalizing third with
  | nil => exact right
  | cons head _ ih =>
    cases right with
    | cons next rest => exact List.Forall₂.cons (head.trans next) (ih rest)

theorem SameCommands.set {commands : List VPUCommand} {cmd updated : VPUCommand}
    (present : commands[position]? = some cmd) (same : VPUCommand.Same cmd updated) :
    SameCommands commands (commands.set position updated) := by
  induction commands generalizing position with
  | nil => exact List.Forall₂.nil
  | cons first rest ih =>
    cases position with
    | zero =>
      simp only [List.getElem?_cons_zero, Option.some.injEq] at present
      subst present
      exact List.Forall₂.cons same (SameCommands.refl rest)
    | succ position =>
      simp only [List.getElem?_cons_succ] at present
      exact List.Forall₂.cons (VPUCommand.Same.refl first) (ih present)

namespace CommandList

/-- The loop over the commands that are to be updated. -/
theorem setCommandUpdates_argument (argumentOrder : MapOrder (Nat × ArgumentUpdates))
    {updatesMap : CommandUpdatesMap} (distinct : DistinctKeys updatesMap)
    (inner : ∀ entry ∈ updatesMap, DistinctKeys entry.2) (commands : List VPUCommand) :
    let result := setCommandUpdates argumentOrder updatesMap commands
    SameCommands commands result.2 ∧
      (∀ position index, (∀ updates, (position, updates) ∈ updatesMap → index ∉ updates.map Prod.fst) →
        argumentAt result.2 position index = argumentAt commands position index) ∧
      (result.1 = ZE_RESULT_SUCCESS → ∀ position updates index update,
        (position, updates) ∈ updatesMap → (index, update) ∈ updates →
        ∃ old, argumentAt commands position index = some old ∧
          argumentAt result.2 position index = some (update.applyTo old)) := by
  induction updatesMap generalizing commands with
  | nil => exact ⟨SameCommands.refl commands, fun _ _ _ => rfl, by simp⟩
  | cons entry rest ih =>
    obtain ⟨target, updates⟩ := entry
    obtain ⟨fresh, others⟩ := List.nodup_cons.mp distinct
    have innerRest : ∀ entry ∈ rest, DistinctKeys entry.2 := fun entry member =>
      inner entry (List.mem_cons_of_mem _ member)
    have arranged : DistinctKeys (argumentOrder.order updates) :=
      (inner _ (List.mem_cons_self ..)).perm (argumentOrder.perm updates)
    have listed : ∀ entry, entry ∈ argumentOrder.order updates ↔ entry ∈ updates := fun entry =>
      (argumentOrder.perm updates).mem_iff
    have keys : ∀ index, index ∈ (argumentOrder.order updates).map Prod.fst ↔ index ∈ updates.map Prod.fst :=
      fun index => ((argumentOrder.perm updates).map Prod.fst).mem_iff
    simp only [setCommandUpdates]
    cases present : commands[target]? with
    | none =>
      refine ⟨SameCommands.refl commands, fun _ _ _ => rfl, ?_⟩
      intro success
      cases success
    | some command =>
      simp only
      have within : target < commands.length := (List.getElem?_eq_some_iff.mp present).1
      obtain ⟨same, kept, applied⟩ := command.setUpdates_argument arranged
      have elsewhere : ∀ (updated : VPUCommand) position index, position ≠ target →
          argumentAt (commands.set target updated) position index = argumentAt commands position index := by
        intro updated position index different
        simp [argumentAt, List.getElem?_set_ne (fun equal => different equal.symm)]
      have here : ∀ (updated : VPUCommand) index,
          argumentAt (commands.set target updated) target index = updated.argument index := by
        intro updated index
        simp [argumentAt, List.getElem?_set_self within]
      have previous : ∀ index, argumentAt commands target index = command.argument index := by
        intro index
        simp [argumentAt, present]
      generalize command.setUpdates (argumentOrder.order updates) = result at same kept applied
      obtain ⟨success, updated⟩ := result
      have keptHere : ∀ position index,
          (∀ updates', (position, updates') ∈ (target, updates) :: rest → index ∉ updates'.map Prod.fst) →
          argumentAt (commands.set target updated) position index = argumentAt commands position index := by
        intro position index absent
        by_cases equal : position = target
        · subst equal
          have missing := absent updates (List.mem_cons_self ..)
          rw [here, previous, kept index (by rw [keys]; exact missing)]
        · exact elsewhere updated position index equal
      cases success with
      | false =>
        refine ⟨SameCommands.set present same, keptHere, ?_⟩
        intro success
        cases success
      | true =>
        obtain ⟨sameRest, keptRest, appliedRest⟩ := ih others innerRest (commands.set target updated)
        refine ⟨(SameCommands.set present same).trans sameRest, ?_, ?_⟩
        · intro position index absent
          rw [keptRest position index fun updates' member => absent updates' (List.mem_cons_of_mem _ member)]
          exact keptHere position index absent
        · intro finished position updates' index update member named
          rcases List.mem_cons.mp member with equal | later
          · obtain ⟨rfl, rfl⟩ := Prod.mk.inj equal
            have untouched := keptRest position index fun others listed =>
              absurd (List.mem_map.mpr ⟨(position, others), listed, rfl⟩) fresh
            obtain ⟨old, before, after⟩ := applied rfl index update ((listed _).mpr named)
            exact ⟨old, by rw [previous, before], by rw [untouched, here, after]⟩
          · have different : position ≠ target := by
              rintro rfl
              exact fresh (List.mem_map.mpr ⟨(position, updates'), later, rfl⟩)
            obtain ⟨old, before, after⟩ := appliedRest finished position updates' index update later named
            exact ⟨old, by rw [← before, elsewhere updated position index different], after⟩

/-- The update that is gathered for an argument of a command. -/
def entryAt (updatesMap : CommandUpdatesMap) (position index : Nat) : Option ArgumentUpdates :=
  (updatesMap.lookup position).bind fun updates => updates.lookup index

/-- The gathered updates are maps. -/
structure Gathered (updatesMap : CommandUpdatesMap) : Prop where
  commands : DistinctKeys updatesMap
  arguments : ∀ entry ∈ updatesMap, DistinctKeys entry.2

theorem entryAt_updateEntry (updatesMap : CommandUpdatesMap) (target named : Nat)
    (change : ArgumentUpdates → ArgumentUpdates) (position index : Nat) :
    entryAt (updateEntry updatesMap target named change) position index =
      if position = target ∧ index = named then
        some (change ((entryAt updatesMap target named).getD ⟨none, none⟩))
      else entryAt updatesMap position index := by
  unfold entryAt updateEntry
  rw [lookup_modifyEntry]
  by_cases command : position = target
  · subst command
    rw [if_pos rfl, Option.bind_some, lookup_modifyEntry]
    cases found : updatesMap.lookup position <;> simp
  · simp [command]

theorem gathered_nil : Gathered [] := ⟨by simp [DistinctKeys], by simp⟩

theorem Gathered.perm {updatesMap order : CommandUpdatesMap} (gathered : Gathered updatesMap)
    (perm : order.Perm updatesMap) : Gathered order where
  commands := gathered.commands.perm perm
  arguments := fun entry member => gathered.arguments entry (perm.mem_iff.mp member)

theorem Gathered.updateEntry {updatesMap : CommandUpdatesMap} (gathered : Gathered updatesMap)
    (target named : Nat) (change : ArgumentUpdates → ArgumentUpdates) :
    Gathered (updateEntry updatesMap target named change) where
  commands := modifyEntry_distinct gathered.commands
  arguments := forall_modifyEntry DistinctKeys gathered.arguments
    (modifyEntry_distinct List.nodup_nil) fun _ distinct => modifyEntry_distinct distinct

/-- The pointer that a chain of structures ends up giving to an argument. -/
def assigned (commandIdMap : Nat → Option Nat) (position index : Nat) :
    List MutableDesc → Option Nat → Option Nat
  | [], current => current
  | .graphArgument commandId argIndex pArgValue :: rest, current =>
    assigned commandIdMap position index rest
      (if resolve commandIdMap commandId = position ∧ argIndex = index then some pArgValue else current)
  | .strides _ :: rest, current => assigned commandIdMap position index rest current
  | .unsupported :: rest, current => assigned commandIdMap position index rest current

/-- The chain has a structure for the argument. -/
def Names (commandIdMap : Nat → Option Nat) (position index : Nat) (pNext : List MutableDesc) : Prop :=
  ∃ commandId pArgValue, .graphArgument commandId index pArgValue ∈ pNext ∧
    resolve commandIdMap commandId = position

/-- What gathering yields: maps, whose entries stem from the chain. -/
theorem getCommandUpdates_entries {commandIdMap : Nat → Option Nat} {pNext : List MutableDesc}
    {updatesMap gatheredMap : CommandUpdatesMap} {prev : Option (Nat × Nat)} {count : Nat}
    (gathered : Gathered updatesMap)
    (known : ∀ position index, prev = some (position, index) → (entryAt updatesMap position index).isSome)
    (success : getCommandUpdates commandIdMap count pNext updatesMap prev = .ok gatheredMap) :
    Gathered gatheredMap ∧
      (∀ position index, (entryAt gatheredMap position index).isSome →
        (entryAt updatesMap position index).isSome ∨ Names commandIdMap position index pNext) ∧
      (∀ position index, (entryAt gatheredMap position index).bind ArgumentUpdates.ptr =
        assigned commandIdMap position index pNext
          ((entryAt updatesMap position index).bind ArgumentUpdates.ptr)) := by
  induction pNext generalizing updatesMap prev count with
  | nil =>
    cases count <;>
    · simp only [getCommandUpdates, Except.ok.injEq] at success
      subst success
      exact ⟨gathered, fun _ _ present => .inl present, fun _ _ => rfl⟩
  | cons desc rest ih =>
    have later : ∀ position index, Names commandIdMap position index rest →
        Names commandIdMap position index (desc :: rest) := by
      rintro position index ⟨commandId, pArgValue, member, target⟩
      exact ⟨commandId, pArgValue, List.mem_cons_of_mem desc member, target⟩
    cases count with
    | zero => cases success
    | succ count =>
      cases desc with
      | graphArgument commandId argIndex pArgValue =>
        simp only [getCommandUpdates] at success
        split at success
        · cases success
        · obtain ⟨maps, named, pointers⟩ := ih (gathered.updateEntry _ _ _) (by
            intro position index same
            simp only [Option.some.injEq, Prod.mk.injEq] at same
            obtain ⟨rfl, rfl⟩ := same
            simp [entryAt_updateEntry]) success
          refine ⟨maps, ?_, ?_⟩
          · intro position index present
            rcases named position index present with updated | rest
            · rw [entryAt_updateEntry] at updated
              split at updated
              · rename_i same
                obtain ⟨rfl, rfl⟩ := same
                exact .inr ⟨commandId, pArgValue, List.mem_cons_self .., rfl⟩
              · exact .inl updated
            · exact .inr (later position index rest)
          · intro position index
            rw [pointers, entryAt_updateEntry, assigned]
            by_cases same : resolve commandIdMap commandId = position ∧ argIndex = index
            · rw [if_pos same, if_pos ⟨same.1.symm, same.2.symm⟩]
              simp
            · rw [if_neg same, if_neg fun equal => same ⟨equal.1.symm, equal.2.symm⟩]
      | strides userStrides =>
        cases prev with
        | none => cases success
        | some previous =>
          obtain ⟨target, named⟩ := previous
          simp only [getCommandUpdates] at success
          have present := known target named rfl
          obtain ⟨maps, names, pointers⟩ := ih (gathered.updateEntry _ _ _) (by simp) success
          refine ⟨maps, ?_, ?_⟩
          · intro position index found
            rcases names position index found with updated | rest
            · rw [entryAt_updateEntry] at updated
              split at updated
              · rename_i same
                obtain ⟨rfl, rfl⟩ := same
                exact .inl present
              · exact .inl updated
            · exact .inr (later position index rest)
          · intro position index
            rw [pointers, entryAt_updateEntry, assigned]
            split
            · rename_i same
              obtain ⟨rfl, rfl⟩ := same
              obtain ⟨update, found⟩ := Option.isSome_iff_exists.mp present
              simp [found]
            · rfl
      | unsupported => cases success

theorem gatherCommandUpdates_gathered {list : CommandList} {pNext : List MutableDesc} {updatesMap : CommandUpdatesMap}
    (gather : list.gatherCommandUpdates pNext = .ok updatesMap) : Gathered updatesMap :=
  (getCommandUpdates_entries gathered_nil (by simp) gather).1

theorem getCommandUpdates_error {commandIdMap : Nat → Option Nat} {pNext : List MutableDesc}
    {updatesMap : CommandUpdatesMap} {prev : Option (Nat × Nat)} {count : Nat} {error : ZeResult}
    (failed : getCommandUpdates commandIdMap count pNext updatesMap prev = .error error) :
    error ≠ ZE_RESULT_SUCCESS := by
  induction count, pNext, updatesMap, prev using getCommandUpdates.induct commandIdMap with
  | case1 count updatesMap prev => simp [getCommandUpdates] at failed
  | case2 updatesMap prev desc rest =>
    simp only [getCommandUpdates, Except.error.injEq] at failed
    rw [← failed]
    decide
  | case3 count commandId argIndex pArgValue rest updatesMap prev target outside =>
    rw [getCommandUpdates, if_pos outside, Except.error.injEq] at failed
    rw [← failed]
    decide
  | case4 count commandId argIndex pArgValue rest updatesMap prev target updated inside ih =>
    simp only [getCommandUpdates, target, inside, ↓reduceIte] at failed
    exact ih failed
  | case5 count userStrides rest updatesMap =>
    simp only [getCommandUpdates, Except.error.injEq] at failed
    rw [← failed]
    decide
  | case6 count userStrides rest updatesMap commandId argIndex ih =>
    simp only [getCommandUpdates] at failed
    exact ih failed
  | case7 count rest updatesMap prev =>
    simp only [getCommandUpdates, Except.error.injEq] at failed
    rw [← failed]
    decide

/-- An update call changes no argument that its chain does not name; when it succeeds, every
argument that is given a pointer has that pointer. -/
theorem updateMutableCommands_argument (commandOrder : MapOrder (Nat × ArgumentUpdatesMap))
    (argumentOrder : MapOrder (Nat × ArgumentUpdates)) (flags : Nat) (pNext : List MutableDesc)
    (list : CommandList) :
    let result := updateMutableCommands commandOrder argumentOrder flags pNext list
    SameCommands list.vpuJob.commands result.2.vpuJob.commands ∧
      (∀ position index, ¬ Names list.commandIdMap position index pNext →
        argumentAt result.2.vpuJob.commands position index =
          argumentAt list.vpuJob.commands position index) ∧
      (result.1 = ZE_RESULT_SUCCESS → ∀ position index pointer,
        assigned list.commandIdMap position index pNext none = some pointer →
        ∃ strides, argumentAt result.2.vpuJob.commands position index = some (some pointer, strides)) := by
  have unchanged : ∀ error : ZeResult, error ≠ ZE_RESULT_SUCCESS →
      SameCommands list.vpuJob.commands list.vpuJob.commands ∧
        (∀ position index, ¬ Names list.commandIdMap position index pNext →
          argumentAt list.vpuJob.commands position index = argumentAt list.vpuJob.commands position index) ∧
        (error = ZE_RESULT_SUCCESS → ∀ position index pointer,
          assigned list.commandIdMap position index pNext none = some pointer →
          ∃ strides, argumentAt list.vpuJob.commands position index = some (some pointer, strides)) :=
    fun error failed => ⟨SameCommands.refl _, fun _ _ _ => rfl, fun success => absurd success failed⟩
  unfold updateMutableCommands
  split
  · exact unchanged _ (by simp)
  · split
    · exact unchanged _ (by simp)
    · cases gather : list.gatherCommandUpdates pNext with
      | error error =>
        exact unchanged error (getCommandUpdates_error gather)
      | ok updatesMap =>
        simp only
        split
        · exact unchanged _ (by simp)
        · obtain ⟨maps, names, pointers⟩ := getCommandUpdates_entries gathered_nil (by simp) gather
          have listed : ∀ entry, entry ∈ commandOrder.order updatesMap ↔ entry ∈ updatesMap := fun entry =>
            (commandOrder.perm updatesMap).mem_iff
          obtain ⟨same, kept, applied⟩ := setCommandUpdates_argument argumentOrder
            (maps.commands.perm (commandOrder.perm updatesMap))
            (fun entry member => maps.arguments entry ((listed entry).mp member)) list.vpuJob.commands
          refine ⟨same, ?_, ?_⟩
          · intro position index unnamed
            refine kept position index fun updates member named => ?_
            have found := (mem_iff_lookup maps.commands).mp ((listed _).mp member)
            obtain ⟨update, inner⟩ := (mem_keys_iff_lookup
              (maps.arguments _ ((listed _).mp member))).mp named
            rcases names position index (by simp [entryAt, found, inner]) with initial | present
            · simp [entryAt] at initial
            · exact unnamed present
          · intro success position index pointer given
            have pointed := pointers position index
            rw [show (entryAt [] position index).bind ArgumentUpdates.ptr = none from rfl, given] at pointed
            obtain ⟨update, entry, ptr⟩ := Option.bind_eq_some_iff.mp pointed
            obtain ⟨updates, found, inner⟩ := Option.bind_eq_some_iff.mp entry
            have member := (mem_iff_lookup maps.commands).mpr found
            have named := (mem_iff_lookup (maps.arguments _ member)).mpr inner
            obtain ⟨old, -, after⟩ := applied success position updates index update ((listed _).mpr member) named
            exact ⟨update.strides, by rw [after, ArgumentUpdates.applyTo, ptr, Option.some_or]⟩

end CommandList

end NpuDriver
