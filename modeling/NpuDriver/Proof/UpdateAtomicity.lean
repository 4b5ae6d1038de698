import NpuDriver.Proof.CommandId
import NpuDriver.Proof.HandleCompleteness
import Mathlib.Data.List.TakeWhile

/-! When a call of `updateMutableCommands` takes effect as a whole or not at all. -/

namespace NpuDriver

open Library ZeResult

/-- The update brings nothing new to the argument. -/
def ArgumentUpdates.Repeats (update : ArgumentUpdates) (argument : Option Nat × Option ArgumentStrides) : Prop :=
  update.applyTo argument = argument

theorem setPointer_repeats {pointers : List Nat} {ptr : Option Nat}
    (repeated : ptr.or pointers[index]? = pointers[index]?) : setPointer pointers index ptr = pointers := by
  cases ptr with
  | none => rfl
  | some value =>
    apply List.ext_getElem?
    intro position
    by_cases same : index = position
    · subst same
      rw [setPointer, List.getElem?_set_self']
      cases present : pointers[index]? with
      | none => rfl
      | some recorded =>
        rw [present] at repeated
        exact repeated
    · rw [setPointer, List.getElem?_set_ne same]

namespace VPUInferenceExecute

theorem updateArgument_repeats {inference : VPUInferenceExecute} {index : Nat} {update : ArgumentUpdates}
    (repeated : update.Repeats (inference.argument index)) :
    inference.updateArgument inference.inputs.length index update = inference := by
  unfold ArgumentUpdates.Repeats ArgumentUpdates.applyTo argument at repeated
  unfold updateArgument
  split
  · rename_i input
    rw [if_pos input] at repeated
    obtain ⟨pointer, strides⟩ := Prod.mk.inj repeated
    rw [setPointer_repeats pointer, strides, Function.update_eq_self]
  · rename_i output
    rw [if_neg output] at repeated
    obtain ⟨pointer, strides⟩ := Prod.mk.inj repeated
    rw [setPointer_repeats pointer, strides, Function.update_eq_self]

/-- The loop accepts the updates whose indices are in range. -/
theorem updateArguments_accepts (inference : VPUInferenceExecute) (numInputArgs numArgs : Nat)
    (updates : ArgumentUpdatesMap) :
    (inference.updateArguments numInputArgs numArgs updates).1 = true ↔
      ∀ entry ∈ updates, entry.1 < numArgs := by
  induction updates generalizing inference with
  | nil => simp [updateArguments]
  | cons entry rest ih =>
    obtain ⟨index, update⟩ := entry
    rw [updateArguments, List.forall_mem_cons]
    split
    · rename_i outside
      constructor
      · intro accepted
        cases accepted
      · intro within
        exact absurd within.1 (Nat.not_lt.mpr outside)
    · rename_i inside
      rw [ih]
      exact (and_iff_right (Nat.lt_of_not_ge inside)).symm

/-- The inference is as before exactly when everything in front of the first bad index repeats its argument. -/
theorem updateArguments_unchanged {inference : VPUInferenceExecute} {updates : ArgumentUpdatesMap}
    (distinct : DistinctKeys updates) {numArgs : Nat}
    (bound : numArgs ≤ inference.inputs.length + inference.outputs.length) :
    (inference.updateArguments inference.inputs.length numArgs updates).2 = inference ↔
      ∀ entry ∈ updates.takeWhile (fun entry => entry.1 < numArgs),
        entry.2.Repeats (inference.argument entry.1) := by
  induction updates with
  | nil => simp [updateArguments]
  | cons entry rest ih =>
    obtain ⟨index, update⟩ := entry
    obtain ⟨fresh, others⟩ := List.nodup_cons.mp distinct
    rw [updateArguments]
    split
    · rename_i outside
      have first : ¬ index < numArgs := Nat.not_lt.mpr outside
      simp [first]
    · rename_i outside
      have first : index < numArgs := Nat.lt_of_not_ge outside
      have inside : index < inference.inputs.length + inference.outputs.length := Nat.lt_of_lt_of_le first bound
      rw [List.takeWhile_cons_of_pos (by simpa using first), List.forall_mem_cons]
      have same := inference.updateArgument_same index update
      have boundLater : numArgs ≤ (inference.updateArgument inference.inputs.length index update).inputs.length +
          (inference.updateArgument inference.inputs.length index update).outputs.length := by
        rw [same.inputs, same.outputs]
        exact bound
      obtain ⟨-, kept, -⟩ := updateArguments_argument others same.inputs.symm boundLater
      have here := kept index fresh
      rw [updateArgument_argument update inside, if_pos rfl] at here
      constructor
      · intro unchanged
        rw [unchanged] at here
        have repeated : update.Repeats (inference.argument index) := here.symm
        rw [updateArgument_repeats repeated] at unchanged
        exact ⟨repeated, (ih others).mp unchanged⟩
      · rintro ⟨repeated, later⟩
        rw [updateArgument_repeats repeated]
        exact (ih others).mpr later

end VPUInferenceExecute

namespace VPUCommand

/-- `numArgs` of `setUpdates`; none for the commands that refuse every update. -/
def numArgs (cmd : VPUCommand) : Option Nat :=
  cmd.isInference.bind fun inference =>
    (safeCastU32 inference.inputs.length).bind fun numInputArgs =>
      (safeCastU32 inference.outputs.length).map fun numOutputArgs => (numInputArgs + numOutputArgs) % 2 ^ 32

/-- The update repeats what the command has recorded. -/
def RepeatsUpdate (cmd : VPUCommand) (entry : Nat × ArgumentUpdates) : Prop :=
  ∃ recorded, cmd.argument entry.1 = some recorded ∧ entry.2.Repeats recorded

theorem setUpdates_refused {cmd : VPUCommand} (refused : cmd.numArgs = none) (updates : ArgumentUpdatesMap) :
    cmd.setUpdates updates = (false, cmd) := by
  cases kind : cmd.command with
  | inferenceExecute inference =>
    have own : cmd.isInference = some inference := by simp [isInference, kind]
    rw [numArgs, own, Option.bind_some] at refused
    cases inputs : safeCastU32 inference.inputs.length with
    | none => simp [setUpdates, kind, inputs]
    | some numInputArgs =>
      cases outputs : safeCastU32 inference.outputs.length with
      | none => simp [setUpdates, kind, inputs, outputs]
      | some numOutputArgs => simp [inputs, outputs] at refused
  | _ => simp [setUpdates, kind]

/-- What `setUpdates` comes to for a command that has arguments. -/
structure SetUpdates (cmd : VPUCommand) (numArgs : Nat) (updates : ArgumentUpdatesMap) : Prop where
  accepts : (cmd.setUpdates updates).1 = true ↔ ∀ entry ∈ updates, entry.1 < numArgs
  pending : (cmd.setUpdates updates).1 = true → (cmd.setUpdates updates).2.cmdNeedsUpdate = true
  unchanged : (cmd.setUpdates updates).2 = cmd ↔
    (∀ entry ∈ updates.takeWhile (fun entry => entry.1 < numArgs), cmd.RepeatsUpdate entry) ∧
      ((∀ entry ∈ updates, entry.1 < numArgs) → cmd.cmdNeedsUpdate = true)

theorem setUpdates_accepted {cmd : VPUCommand} {count : Nat} (counted : cmd.numArgs = some count)
    {updates : ArgumentUpdatesMap} (distinct : DistinctKeys updates) : cmd.SetUpdates count updates := by
  obtain ⟨inference, own, counts⟩ := Option.bind_eq_some_iff.mp counted
  obtain ⟨numInputArgs, inputs, rest⟩ := Option.bind_eq_some_iff.mp counts
  obtain ⟨numOutputArgs, outputs, total⟩ := Option.map_eq_some_iff.mp rest
  obtain rfl := safeCastU32_eq inputs
  obtain rfl := safeCastU32_eq outputs
  have kind : cmd.command = .inferenceExecute inference := by
    unfold isInference at own
    split at own
    · rename_i found kind
      rw [kind, Option.some.inj own]
    · cases own
  have bound : count ≤ inference.inputs.length + inference.outputs.length := by
    rw [← total]
    exact Nat.mod_le _ _
  have accepts := inference.updateArguments_accepts inference.inputs.length count updates
  have unchanged := VPUInferenceExecute.updateArguments_unchanged distinct bound
  have repeats : ∀ entry, cmd.RepeatsUpdate entry ↔ entry.2.Repeats (inference.argument entry.1) := by
    intro entry
    simp [RepeatsUpdate, argument, own]
  obtain ⟨command, sType, bufferObjects, descriptor, cmdNeedsUpdate, sized⟩ := cmd
  subst kind
  generalize result : inference.updateArguments inference.inputs.length count updates = outcome at accepts unchanged
  obtain ⟨accepted, updated⟩ := outcome
  have value : setUpdates ⟨.inferenceExecute inference, sType, bufferObjects, descriptor, cmdNeedsUpdate, sized⟩
      updates = (accepted, ⟨.inferenceExecute updated, sType, bufferObjects, descriptor,
        accepted || cmdNeedsUpdate, trivial⟩) := by
    simp only [setUpdates, inputs, outputs, total, result]
    cases accepted <;> rfl
  constructor
  · rw [value]
    exact accepts
  · intro success
    rw [value] at success ⊢
    obtain rfl : accepted = true := success
    rfl
  · simp only [repeats]
    rw [value, ← unchanged, ← accepts]
    constructor
    · intro same
      injection same with command _ _ _ pending
      refine ⟨CommandStruct.inferenceExecute.inj command, fun success => ?_⟩
      obtain rfl : accepted = true := success
      exact pending.symm
    · rintro ⟨same, pending⟩
      subst same
      cases accepted with
      | false => rfl
      | true =>
        rw [pending rfl]
        rfl

end VPUCommand

namespace CommandList

/-- Every update of the command is for one of its arguments. -/
def AcceptsUpdates (commands : List VPUCommand) (entry : Nat × ArgumentUpdatesMap) : Prop :=
  ∃ cmd count, commands[entry.1]? = some cmd ∧ cmd.numArgs = some count ∧ ∀ update ∈ entry.2, update.1 < count

/-- The updates of the command are pending as they are. -/
def PendingAlready (commands : List VPUCommand) (entry : Nat × ArgumentUpdatesMap) : Prop :=
  ∀ cmd, commands[entry.1]? = some cmd → cmd.cmdNeedsUpdate = true ∧ ∀ update ∈ entry.2, cmd.RepeatsUpdate update

/-- The updates in front of the first index out of range repeat what is recorded. -/
def RepeatsFront (argumentOrder : MapOrder (Nat × ArgumentUpdates)) (commands : List VPUCommand)
    (entry : Nat × ArgumentUpdatesMap) : Prop :=
  ∀ cmd count, commands[entry.1]? = some cmd → cmd.numArgs = some count →
    ∀ update ∈ (argumentOrder.order entry.2).takeWhile (fun update => update.1 < count), cmd.RepeatsUpdate update

/-- What comes before the first refused update is nothing new. -/
def NothingBeforeRefusal (argumentOrder : MapOrder (Nat × ArgumentUpdates)) (commands : List VPUCommand)
    (updatesMap : CommandUpdatesMap) : Prop :=
  ∀ front refused back, updatesMap = front ++ refused :: back →
    (∀ entry ∈ front, AcceptsUpdates commands entry) → ¬ AcceptsUpdates commands refused →
      (∀ entry ∈ front, PendingAlready commands entry) ∧ RepeatsFront argumentOrder commands refused

/-- The commands after updates that are all accepted. -/
structure Updated (argumentOrder : MapOrder (Nat × ArgumentUpdates)) (front : CommandUpdatesMap)
    (commands updated : List VPUCommand) : Prop where
  kept : ∀ position, position ∉ front.map Prod.fst → updated[position]? = commands[position]?
  applied : ∀ entry ∈ front, ∀ cmd, commands[entry.1]? = some cmd →
    updated[entry.1]? = some (cmd.setUpdates (argumentOrder.order entry.2)).2

theorem MapOrder_distinct (argumentOrder : MapOrder (Nat × ArgumentUpdates)) {updates : ArgumentUpdatesMap}
    (distinct : DistinctKeys updates) : DistinctKeys (argumentOrder.order updates) :=
  distinct.perm (argumentOrder.perm updates)

theorem AcceptsUpdates.congr {commands others : List VPUCommand} {entry : Nat × ArgumentUpdatesMap}
    (same : others[entry.1]? = commands[entry.1]?) :
    AcceptsUpdates others entry ↔ AcceptsUpdates commands entry := by
  unfold AcceptsUpdates
  rw [same]

/-- The loop goes through the entries that it accepts. -/
theorem setCommandUpdates_accepted (argumentOrder : MapOrder (Nat × ArgumentUpdates))
    {front rest : CommandUpdatesMap} (distinct : DistinctKeys front)
    (inner : ∀ entry ∈ front, DistinctKeys entry.2) {commands : List VPUCommand}
    (accepted : ∀ entry ∈ front, AcceptsUpdates commands entry) :
    ∃ updated, setCommandUpdates argumentOrder (front ++ rest) commands =
        setCommandUpdates argumentOrder rest updated ∧ Updated argumentOrder front commands updated := by
  induction front generalizing commands with
  | nil => exact ⟨commands, rfl, fun _ _ => rfl, nofun⟩
  | cons entry front ih =>
    obtain ⟨target, updates⟩ := entry
    obtain ⟨fresh, others⟩ := List.nodup_cons.mp distinct
    obtain ⟨arranged, innerFront⟩ := List.forall_mem_cons.mp inner
    obtain ⟨⟨cmd, count, present, counted, within⟩, later⟩ := List.forall_mem_cons.mp accepted
    have spec := VPUCommand.setUpdates_accepted counted (MapOrder_distinct argumentOrder arranged)
    have success : (cmd.setUpdates (argumentOrder.order updates)).1 = true := by
      rw [spec.accepts]
      intro update member
      exact within update ((argumentOrder.perm updates).mem_iff.mp member)
    have inside : target < commands.length := (List.getElem?_eq_some_iff.mp present).1
    generalize result : cmd.setUpdates (argumentOrder.order updates) = outcome at success
    obtain ⟨done, changed⟩ := outcome
    obtain rfl : done = true := success
    have elsewhere : ∀ position, position ≠ target →
        (commands.set target changed)[position]? = commands[position]? := by
      intro position different
      exact List.getElem?_set_ne fun equal => different equal.symm
    have apart : ∀ entry ∈ front, entry.1 ≠ target := by
      intro entry member equal
      exact fresh (List.mem_map.mpr ⟨entry, member, equal⟩)
    have stillAccepted : ∀ entry ∈ front, AcceptsUpdates (commands.set target changed) entry := by
      intro entry member
      rw [AcceptsUpdates.congr (elsewhere entry.1 (apart entry member))]
      exact later entry member
    obtain ⟨updated, loop, kept, applied⟩ := ih others innerFront stillAccepted
    refine ⟨updated, ?_, ?_, ?_⟩
    · rw [List.cons_append, setCommandUpdates, present]
      simp only [result]
      exact loop
    · intro position absent
      rw [List.map_cons, List.mem_cons, not_or] at absent
      rw [kept position absent.2, elsewhere position absent.1]
    · intro listed member own found
      rcases List.mem_cons.mp member with rfl | member
      · obtain rfl : cmd = own := Option.some.inj (present.symm.trans found)
        rw [kept target fresh, result, List.getElem?_set_self inside]
      · apply applied listed member
        rw [elsewhere listed.1 (apart listed member)]
        exact found

/-- The loop ends at an entry that it does not accept; it has changed that command at most. -/
theorem setCommandUpdates_refused (argumentOrder : MapOrder (Nat × ArgumentUpdates))
    {refused : Nat × ArgumentUpdatesMap} (inner : DistinctKeys refused.2) {commands : List VPUCommand}
    (notAccepted : ¬ AcceptsUpdates commands refused) (back : CommandUpdatesMap) :
    ∃ after, setCommandUpdates argumentOrder (refused :: back) commands =
        (ZE_RESULT_ERROR_INVALID_ARGUMENT, after) ∧ (after = commands ↔ RepeatsFront argumentOrder commands refused) ∧
      ∀ position, position ≠ refused.1 → after[position]? = commands[position]? := by
  obtain ⟨target, updates⟩ := refused
  rw [setCommandUpdates]
  cases present : commands[target]? with
  | none =>
    refine ⟨commands, rfl, iff_of_true rfl ?_, fun _ _ => rfl⟩
    intro cmd count found
    cases present.symm.trans found
  | some cmd =>
    have inside : target < commands.length := (List.getElem?_eq_some_iff.mp present).1
    have own : commands.set target cmd = commands := by
      rw [← (List.getElem?_eq_some_iff.mp present).2]
      exact List.set_getElem_self inside
    cases counted : cmd.numArgs with
    | none =>
      simp only [VPUCommand.setUpdates_refused counted]
      refine ⟨_, rfl, iff_of_true own ?_, fun position _ => by rw [own]⟩
      intro other count found counts
      obtain rfl : cmd = other := Option.some.inj (present.symm.trans found)
      cases counted.symm.trans counts
    | some count =>
      have spec := VPUCommand.setUpdates_accepted counted (MapOrder_distinct argumentOrder inner)
      have outside : ¬ ∀ update ∈ argumentOrder.order updates, update.1 < count := by
        intro within
        apply notAccepted
        refine ⟨cmd, count, present, counted, fun update member => ?_⟩
        exact within update ((argumentOrder.perm updates).mem_iff.mpr member)
      have unchanged := spec.unchanged
      have failed : (cmd.setUpdates (argumentOrder.order updates)).1 = false :=
        Bool.eq_false_iff.mpr fun success => outside (spec.accepts.mp success)
      simp only
      generalize cmd.setUpdates (argumentOrder.order updates) = outcome at unchanged failed
      obtain ⟨done, changed⟩ := outcome
      obtain rfl : done = false := failed
      refine ⟨_, rfl, ?_, fun position different => List.getElem?_set_ne fun equal => different equal.symm⟩
      constructor
      · intro same
        have equal : changed = cmd := by
          have here := List.getElem?_set_self (a := changed) inside
          rw [same, present] at here
          exact (Option.some.inj here).symm
        intro other number found counts
        obtain rfl : cmd = other := Option.some.inj (present.symm.trans found)
        obtain rfl : count = number := Option.some.inj (counted.symm.trans counts)
        exact (unchanged.mp equal).1
      · intro repeats
        have equal : changed = cmd :=
          unchanged.mpr ⟨repeats cmd count present counted, fun within => absurd within outside⟩
        rw [equal, own]

/-- Updates that are all accepted leave the commands as they are when they are pending already. -/
theorem Updated.unchanged {argumentOrder : MapOrder (Nat × ArgumentUpdates)} {front : CommandUpdatesMap}
    (inner : ∀ entry ∈ front, DistinctKeys entry.2) {commands updated : List VPUCommand}
    (accepted : ∀ entry ∈ front, AcceptsUpdates commands entry)
    (done : Updated argumentOrder front commands updated) :
    (∀ entry ∈ front, updated[entry.1]? = commands[entry.1]?) ↔ ∀ entry ∈ front, PendingAlready commands entry := by
  apply forall₂_congr
  intro entry member
  obtain ⟨cmd, count, present, counted, within⟩ := accepted entry member
  have spec := VPUCommand.setUpdates_accepted counted (MapOrder_distinct argumentOrder (inner entry member))
  have listed : ∀ update, update ∈ argumentOrder.order entry.2 ↔ update ∈ entry.2 := fun update =>
    (argumentOrder.perm entry.2).mem_iff
  have all : (argumentOrder.order entry.2).takeWhile (fun update => update.1 < count) =
      argumentOrder.order entry.2 := by
    apply List.takeWhile_eq_self_iff.mpr
    intro update member
    exact decide_eq_true (within update ((listed update).mp member))
  rw [done.applied entry member cmd present, present, Option.some.injEq, spec.unchanged, all]
  constructor
  · intro ⟨repeats, pending⟩ other found
    obtain rfl : cmd = other := Option.some.inj (present.symm.trans found)
    refine ⟨pending fun update member => within update ((listed update).mp member), fun update member => ?_⟩
    exact repeats update ((listed update).mpr member)
  · intro already
    obtain ⟨pending, repeats⟩ := already cmd present
    exact ⟨fun update member => repeats update ((listed update).mp member), fun _ => pending⟩

/-- The loop fails exactly at a first refused entry, and what it leaves behind then. -/
theorem setCommandUpdates_split (argumentOrder : MapOrder (Nat × ArgumentUpdates))
    {front back : CommandUpdatesMap} {refused : Nat × ArgumentUpdatesMap}
    (distinct : DistinctKeys (front ++ refused :: back))
    (inner : ∀ entry ∈ front ++ refused :: back, DistinctKeys entry.2) {commands : List VPUCommand}
    (accepted : ∀ entry ∈ front, AcceptsUpdates commands entry) (notAccepted : ¬ AcceptsUpdates commands refused) :
    let result := setCommandUpdates argumentOrder (front ++ refused :: back) commands
    result.1 = ZE_RESULT_ERROR_INVALID_ARGUMENT ∧
      (result.2 = commands ↔
        (∀ entry ∈ front, PendingAlready commands entry) ∧ RepeatsFront argumentOrder commands refused) := by
  have innerFront : ∀ entry ∈ front, DistinctKeys entry.2 := fun entry member =>
    inner entry (List.mem_append_left _ member)
  have innerRefused := inner refused (List.mem_append_right _ (List.mem_cons_self ..))
  unfold DistinctKeys at distinct
  rw [List.map_append, List.map_cons, List.nodup_append] at distinct
  obtain ⟨frontDistinct, -, apart⟩ := distinct
  obtain ⟨updated, loop, done⟩ :=
    @setCommandUpdates_accepted argumentOrder front (refused :: back) frontDistinct innerFront commands accepted
  have absent : refused.1 ∉ front.map Prod.fst := fun member =>
    apart refused.1 member refused.1 (List.mem_cons_self ..) rfl
  have same := done.kept refused.1 absent
  obtain ⟨after, failure, repeats, kept⟩ := setCommandUpdates_refused argumentOrder innerRefused
    (fun accepts => notAccepted ((AcceptsUpdates.congr same).mp accepts)) back
  have atRefusal : RepeatsFront argumentOrder updated refused ↔ RepeatsFront argumentOrder commands refused := by
    unfold RepeatsFront
    rw [same]
  intro result
  have value : result = (ZE_RESULT_ERROR_INVALID_ARGUMENT, after) := loop.trans failure
  rw [value]
  refine ⟨rfl, ?_⟩
  change after = commands ↔ _
  rw [← done.unchanged innerFront accepted, ← atRefusal, ← repeats]
  constructor
  · intro equal
    have before : ∀ position : Nat, updated[position]? = commands[position]? := by
      intro position
      by_cases here : position = refused.1
      · rw [here, same]
      · rw [← kept position here, equal]
    exact ⟨fun entry _ => before entry.1, equal.trans (List.ext_getElem? before).symm⟩
  · intro ⟨unchanged, equal⟩
    apply equal.trans
    apply List.ext_getElem?
    intro position
    by_cases named : position ∈ front.map Prod.fst
    · obtain ⟨entry, member, rfl⟩ := List.mem_map.mp named
      exact unchanged entry member
    · exact done.kept position named

/-- The strides that a chain of structures ends up giving to an argument; `prev` is the argument that the
previous structure named. -/
def assignedStrides (commandIdMap : Nat → Option Nat) (position index : Nat) :
    List MutableDesc → Option (Nat × Nat) → Option ArgumentStrides → Option ArgumentStrides
  | [], _, current => current
  | .graphArgument commandId argIndex _ :: rest, _, current =>
    assignedStrides commandIdMap position index rest (some (resolve commandIdMap commandId, argIndex)) current
  | .strides userStrides :: rest, prev, current =>
    assignedStrides commandIdMap position index rest none
      (if prev = some (position, index) then some userStrides else current)
  | .unsupported :: rest, prev, current => assignedStrides commandIdMap position index rest prev current

theorem getCommandUpdates_strides {commandIdMap : Nat → Option Nat} {pNext : List MutableDesc}
    {updatesMap gatheredMap : CommandUpdatesMap} {prev : Option (Nat × Nat)} {count : Nat}
    (success : getCommandUpdates commandIdMap count pNext updatesMap prev = .ok gatheredMap) (position index : Nat) :
    (entryAt gatheredMap position index).bind ArgumentUpdates.strides =
      assignedStrides commandIdMap position index pNext prev
        ((entryAt updatesMap position index).bind ArgumentUpdates.strides) := by
  induction count, pNext, updatesMap, prev using getCommandUpdates.induct commandIdMap with
  | case1 count updatesMap prev =>
    rw [getCommandUpdates, Except.ok.injEq] at success
    rw [success, assignedStrides]
  | case2 updatesMap prev desc rest => cases success
  | case3 count commandId argIndex pArgValue rest updatesMap prev target outside =>
    rw [getCommandUpdates, if_pos outside] at success
    cases success
  | case4 count commandId argIndex pArgValue rest updatesMap prev target updated inside ih =>
    rw [getCommandUpdates, if_neg inside] at success
    have kept : (entryAt updated position index).bind ArgumentUpdates.strides =
        (entryAt updatesMap position index).bind ArgumentUpdates.strides := by
      rw [entryAt_updateEntry]
      split
      · rename_i same
        rw [same.1, same.2]
        cases entryAt updatesMap target argIndex <;> rfl
      · rfl
    rw [ih success, kept, assignedStrides]
  | case5 count userStrides rest updatesMap => cases success
  | case6 count userStrides rest updatesMap commandId argIndex ih =>
    rw [getCommandUpdates] at success
    rw [ih success, assignedStrides, entryAt_updateEntry]
    by_cases same : position = commandId ∧ index = argIndex
    · obtain ⟨rfl, rfl⟩ := same
      simp
    · have different : ¬ (some (commandId, argIndex) = some (position, index)) := by
        intro equal
        obtain ⟨rfl, rfl⟩ := Prod.mk.inj (Option.some.inj equal)
        exact same ⟨rfl, rfl⟩
      rw [if_neg same, if_neg different]
  | case7 count rest updatesMap prev => cases success

theorem assigned_isSome {commandIdMap : Nat → Option Nat} {position index : Nat} {pNext : List MutableDesc}
    {current : Option Nat} (named : current.isSome ∨ Names commandIdMap position index pNext) :
    (assigned commandIdMap position index pNext current).isSome := by
  induction pNext generalizing current with
  | nil =>
    rcases named with present | ⟨_, _, member, _⟩
    · exact present
    · cases member
  | cons desc rest ih =>
    cases desc with
    | graphArgument commandId argIndex pArgValue =>
      rw [assigned]
      apply ih
      split
      · exact .inl rfl
      · rename_i different
        apply named.imp_right
        rintro ⟨other, pointer, member, target⟩
        rcases List.mem_cons.mp member with equal | later
        · cases equal
          exact absurd ⟨target, rfl⟩ different
        · exact ⟨other, pointer, later, target⟩
    | strides userStrides =>
      rw [assigned]
      apply ih
      apply named.imp_right
      rintro ⟨other, pointer, member, target⟩
      exact ⟨other, pointer, by simpa using member, target⟩
    | unsupported =>
      rw [assigned]
      apply ih
      apply named.imp_right
      rintro ⟨other, pointer, member, target⟩
      exact ⟨other, pointer, by simpa using member, target⟩

/-- Every argument that the chain names has the last pointer and the last strides that the chain has for it, and
its command will be updated. -/
def TookEffect (commandIdMap : Nat → Option Nat) (pNext : List MutableDesc) (commands : List VPUCommand) : Prop :=
  ∀ position index, Names commandIdMap position index pNext → ∃ cmd, commands[position]? = some cmd ∧
    cmd.cmdNeedsUpdate = true ∧ ∃ pointer, assigned commandIdMap position index pNext none = some pointer ∧
      cmd.argument index = some (some pointer, assignedStrides commandIdMap position index pNext none none)

/-- A call fails without a trace or takes effect as a whole. -/
def AllOrNothing (commandOrder : MapOrder (Nat × ArgumentUpdatesMap))
    (argumentOrder : MapOrder (Nat × ArgumentUpdates)) (flags : Nat) (pNext : List MutableDesc)
    (list : CommandList) : Prop :=
  let result := updateMutableCommands commandOrder argumentOrder flags pNext list
  (result.1 ≠ ZE_RESULT_SUCCESS → result.2.vpuJob.commands = list.vpuJob.commands) ∧
    (result.1 = ZE_RESULT_SUCCESS → TookEffect list.commandIdMap pNext result.2.vpuJob.commands)

/-- What is gathered for an argument that the chain names. -/
theorem gathered_named {list : CommandList} {pNext : List MutableDesc} {updatesMap : CommandUpdatesMap}
    (gather : list.gatherCommandUpdates pNext = .ok updatesMap) {position index : Nat}
    (named : Names list.commandIdMap position index pNext) :
    ∃ updates update pointer, (position, updates) ∈ updatesMap ∧ (index, update) ∈ updates ∧
      assigned list.commandIdMap position index pNext none = some pointer ∧ update.ptr = some pointer ∧
      update.strides = assignedStrides list.commandIdMap position index pNext none none := by
  obtain ⟨maps, -, pointers⟩ := getCommandUpdates_entries gathered_nil (by simp) gather
  obtain ⟨pointer, given⟩ := Option.isSome_iff_exists.mp (@assigned_isSome _ _ _ _ none (.inr named))
  have pointed := (pointers position index).trans given
  obtain ⟨update, entry, ptr⟩ := Option.bind_eq_some_iff.mp pointed
  have strided := getCommandUpdates_strides gather position index
  rw [entry, Option.bind_some] at strided
  obtain ⟨updates, found, inner⟩ := Option.bind_eq_some_iff.mp entry
  have member := (mem_iff_lookup maps.commands).mpr found
  exact ⟨updates, update, pointer, member, (mem_iff_lookup (maps.arguments _ member)).mpr inner, given, ptr,
    strided⟩

/-- Accepted updates take effect. -/
theorem Updated.tookEffect {argumentOrder : MapOrder (Nat × ArgumentUpdates)} {list : CommandList}
    {pNext : List MutableDesc} {updatesMap order : CommandUpdatesMap} {updated : List VPUCommand}
    (gather : list.gatherCommandUpdates pNext = .ok updatesMap) (perm : order.Perm updatesMap)
    (accepted : ∀ entry ∈ order, AcceptsUpdates list.vpuJob.commands entry)
    (done : Updated argumentOrder order list.vpuJob.commands updated) :
    TookEffect list.commandIdMap pNext updated := by
  have maps := gatherCommandUpdates_gathered gather
  intro position index named
  obtain ⟨updates, update, pointer, member, inner, given, ptr, strided⟩ := gathered_named gather named
  have listed := perm.mem_iff.mpr member
  have distinct := MapOrder_distinct argumentOrder (maps.arguments _ member)
  obtain ⟨cmd, count, present, counted, within⟩ := accepted _ listed
  have spec := VPUCommand.setUpdates_accepted counted distinct
  have success : (cmd.setUpdates (argumentOrder.order updates)).1 = true := by
    rw [spec.accepts]
    intro update member
    exact within update ((argumentOrder.perm updates).mem_iff.mp member)
  obtain ⟨-, -, applied⟩ := cmd.setUpdates_argument distinct
  obtain ⟨old, -, after⟩ := applied success index update ((argumentOrder.perm updates).mem_iff.mpr inner)
  refine ⟨_, done.applied _ listed cmd present, spec.pending success, pointer, given, ?_⟩
  rw [after, ArgumentUpdates.applyTo, ptr, Option.some_or, strided]

/-- Whatever an accepted call gathers is accepted, and takes effect. -/
theorem updateMutableCommands_accepted {commandOrder : MapOrder (Nat × ArgumentUpdatesMap)}
    {argumentOrder : MapOrder (Nat × ArgumentUpdates)} {flags : Nat} {pNext : List MutableDesc} {list : CommandList}
    (success : (updateMutableCommands commandOrder argumentOrder flags pNext list).1 = ZE_RESULT_SUCCESS) :
    ∃ updatesMap updated, (list.isMutable = true ∧ flags = 0) ∧
      list.gatherCommandUpdates pNext = .ok updatesMap ∧ Gathered updatesMap ∧
      (∀ entry ∈ commandOrder.order updatesMap, AcceptsUpdates list.vpuJob.commands entry) ∧
      setCommandUpdates argumentOrder (commandOrder.order updatesMap) list.vpuJob.commands =
        (ZE_RESULT_SUCCESS, updated) ∧
      (updateMutableCommands commandOrder argumentOrder flags pNext list).2 =
        { list with vpuJob := { list.vpuJob with commands := updated } } ∧
      TookEffect list.commandIdMap pNext updated := by
  unfold updateMutableCommands at success ⊢
  cases mutable : list.isMutable with
  | false => simp [mutable] at success
  | true =>
    by_cases zero : flags = 0
    · subst zero
      simp only [mutable, Bool.not_true, Bool.false_eq_true, ↓reduceIte, ne_eq, not_true_eq_false] at success ⊢
      cases gather : list.gatherCommandUpdates pNext with
      | error error =>
        rw [gather] at success
        exact absurd success (getCommandUpdates_error gather)
      | ok updatesMap =>
        have maps := gatherCommandUpdates_gathered gather
        have perm := commandOrder.perm updatesMap
        obtain ⟨distinct, inner⟩ := maps.perm perm
        rw [gather] at success
        simp only at success ⊢
        split at success
        · cases success
        · rename_i some_updates
          rcases first_refused (AcceptsUpdates list.vpuJob.commands) (commandOrder.order updatesMap) with
            all | ⟨front, refused, back, split, before, first⟩
          · obtain ⟨updated, loop, done⟩ :=
              @setCommandUpdates_accepted argumentOrder (commandOrder.order updatesMap) [] distinct inner
                list.vpuJob.commands all
            rw [List.append_nil, setCommandUpdates] at loop
            refine ⟨updatesMap, updated, ⟨trivial, trivial⟩, rfl, maps, all, loop, ?_, done.tookEffect gather perm all⟩
            rw [if_neg some_updates, loop]
          · rw [split] at distinct inner success
            obtain ⟨failed, -⟩ := setCommandUpdates_split argumentOrder distinct inner before first
            cases failed.symm.trans success
    · simp [mutable, zero] at success

/-- A refused call changes nothing when nothing new comes before what it is refused for. -/
theorem updateMutableCommands_refused {commandOrder : MapOrder (Nat × ArgumentUpdatesMap)}
    {argumentOrder : MapOrder (Nat × ArgumentUpdates)} {flags : Nat} {pNext : List MutableDesc} {list : CommandList}
    (quiet : list.isMutable = true → flags = 0 → ∀ updatesMap, list.gatherCommandUpdates pNext = .ok updatesMap →
      NothingBeforeRefusal argumentOrder list.vpuJob.commands (commandOrder.order updatesMap))
    (refused : (updateMutableCommands commandOrder argumentOrder flags pNext list).1 ≠ ZE_RESULT_SUCCESS) :
    (updateMutableCommands commandOrder argumentOrder flags pNext list).2 = list := by
  unfold updateMutableCommands at refused ⊢
  cases mutable : list.isMutable with
  | false => simp
  | true =>
    by_cases zero : flags = 0
    · subst zero
      simp only [mutable, Bool.not_true, Bool.false_eq_true, ↓reduceIte, ne_eq, not_true_eq_false] at refused ⊢
      cases gather : list.gatherCommandUpdates pNext with
      | error error => rfl
      | ok updatesMap =>
        have maps := gatherCommandUpdates_gathered gather
        have perm := commandOrder.perm updatesMap
        obtain ⟨distinct, inner⟩ := maps.perm perm
        have nothing := quiet mutable rfl updatesMap gather
        rw [gather] at refused
        simp only at refused ⊢
        by_cases unnamed : updatesMap = []
        · rw [if_pos unnamed]
        · rw [if_neg unnamed] at refused ⊢
          rcases first_refused (AcceptsUpdates list.vpuJob.commands) (commandOrder.order updatesMap) with
            all | ⟨front, rejected, back, split, before, first⟩
          · obtain ⟨updated, loop, -⟩ :=
              @setCommandUpdates_accepted argumentOrder (commandOrder.order updatesMap) [] distinct inner
                list.vpuJob.commands all
            rw [List.append_nil, setCommandUpdates] at loop
            rw [loop] at refused
            exact absurd rfl refused
          · have undisturbed := nothing front rejected back split before first
            rw [split] at distinct inner ⊢
            obtain ⟨-, same⟩ := setCommandUpdates_split argumentOrder distinct inner before first
            simp only [same.mpr undisturbed]
            rw [← mutable]
    · simp [zero]

/-- A call is all or nothing exactly when nothing new comes before the first update that is refused. -/
theorem updates_all_or_nothing (commandOrder : MapOrder (Nat × ArgumentUpdatesMap))
    (argumentOrder : MapOrder (Nat × ArgumentUpdates)) (flags : Nat) (pNext : List MutableDesc)
    (list : CommandList) :
    AllOrNothing commandOrder argumentOrder flags pNext list ↔
      (list.isMutable = true → flags = 0 → ∀ updatesMap, list.gatherCommandUpdates pNext = .ok updatesMap →
        NothingBeforeRefusal argumentOrder list.vpuJob.commands (commandOrder.order updatesMap)) := by
  constructor
  · intro whole mutable zero updatesMap gather front refused back split before first
    subst zero
    have maps := gatherCommandUpdates_gathered gather
    have perm := commandOrder.perm updatesMap
    obtain ⟨distinct, inner⟩ := maps.perm perm
    have some_updates : updatesMap ≠ [] := by
      rintro rfl
      rw [List.perm_nil.mp perm] at split
      cases front <;> cases split
    have unchanged := whole.1
    unfold updateMutableCommands at unchanged
    simp only [mutable, gather, Bool.not_true, Bool.false_eq_true, ↓reduceIte, ne_eq, not_true_eq_false,
      if_neg some_updates] at unchanged
    rw [split] at distinct inner unchanged
    obtain ⟨failed, same⟩ := setCommandUpdates_split argumentOrder distinct inner before first
    apply same.mp
    apply unchanged
    simp [failed]
  · intro quiet
    constructor
    · intro refused
      rw [updateMutableCommands_refused quiet refused]
    · intro success
      obtain ⟨_, _, -, -, -, -, -, result, tookEffect⟩ := updateMutableCommands_accepted success
      rw [result]
      exact tookEffect

end CommandList

/-- A closed mutable list with one inference. -/
def inferenceList : CommandList := ⟨true, argumentContext, closedJob [argumentInference], fun _ => none⟩

/-- The map is iterated from the entry inserted last, as a hash table does that links each new node in front. -/
def newestFirst {α : Type} : MapOrder α := ⟨List.reverse, List.reverse_perm⟩

/-- The first structure names a command that does not exist. The command of the second one is updated before that
is found out, and its input has moved by then. -/
theorem refused_update_moves_input :
    ¬ CommandList.AllOrNothing newestFirst newestFirst 0
      [.graphArgument 7 0 secondArgument.basePtr, .graphArgument 0 0 secondArgument.basePtr] inferenceList := by
  intro whole
  have same := whole.1 (by decide +kernel)
  have moved := congrArg (fun commands => (argumentAt commands 0 0).map Prod.fst) same
  exact absurd moved (by decide +kernel)

end NpuDriver
