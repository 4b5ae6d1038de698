import NpuDriver.LevelZero.GraphArguments
import NpuDriver.Proof.AppliedUpdates

/-! The two ways in which the arguments of a recorded graph are given: values set on the graph before it is
recorded, and the structures of an update call. -/

namespace NpuDriver

open Library ZeResult CommandList

/-- The pointer and the strides of an argument. -/
def Arguments.at (arguments : Arguments) (index : Nat) : Option Nat × Option ArgumentStrides :=
  if index < arguments.inputs.length then (arguments.inputs[index]?, arguments.inputStrides index)
  else
    (arguments.outputs[index - arguments.inputs.length]?,
      arguments.outputStrides (index - arguments.inputs.length))

def Arguments.count (arguments : Arguments) : Nat := arguments.inputs.length + arguments.outputs.length

/-- The same pointers and strides for every input and output. -/
structure Arguments.Alike (first second : Arguments) : Prop where
  inputs : first.inputs = second.inputs
  outputs : first.outputs = second.outputs
  inputStrides : ∀ index < first.inputs.length, first.inputStrides index = second.inputStrides index
  outputStrides : ∀ index < first.outputs.length, first.outputStrides index = second.outputStrides index

namespace Arguments

theorem Alike.refl (arguments : Arguments) : Alike arguments arguments :=
  ⟨rfl, rfl, fun _ _ => rfl, fun _ _ => rfl⟩

/-- Arguments of the same number are alike when each of them is the same. -/
theorem alike_of_at {first second : Arguments} (inputs : first.inputs.length = second.inputs.length)
    (same : ∀ index, first.at index = second.at index) : first.Alike second := by
  have input : ∀ index < first.inputs.length,
      (first.inputs[index]?, first.inputStrides index) = (second.inputs[index]?, second.inputStrides index) := by
    intro index inside
    have here := same index
    unfold Arguments.at at here
    rw [if_pos inside, if_pos (inputs ▸ inside)] at here
    exact here
  have output : ∀ index, (first.outputs[index]?, first.outputStrides index) =
      (second.outputs[index]?, second.outputStrides index) := by
    intro index
    have here := same (first.inputs.length + index)
    unfold Arguments.at at here
    rw [← inputs, if_neg (Nat.not_lt.mpr (Nat.le_add_right _ _)), Nat.add_sub_cancel_left,
      if_neg (Nat.not_lt.mpr (Nat.le_add_right _ _))] at here
    exact here
  constructor
  · apply List.ext_getElem?
    intro index
    by_cases inside : index < first.inputs.length
    · exact congrArg Prod.fst (input index inside)
    · rw [List.getElem?_eq_none (Nat.not_lt.mp inside), List.getElem?_eq_none (inputs ▸ Nat.not_lt.mp inside)]
  · apply List.ext_getElem?
    intro index
    exact congrArg Prod.fst (output index)
  · intro index inside
    exact congrArg Prod.snd (input index inside)
  · intro index _
    exact congrArg Prod.snd (output index)

theorem update_lengths (arguments : Arguments) (entry : Nat × ArgumentUpdates) :
    (arguments.update entry).inputs.length = arguments.inputs.length ∧
      (arguments.update entry).outputs.length = arguments.outputs.length := by
  unfold update
  split
  · exact ⟨setPointer_length .., rfl⟩
  · exact ⟨rfl, setPointer_length ..⟩

/-- Arguments are those of some inference. -/
theorem exists_inference (arguments : Arguments) : ∃ inference : VPUInferenceExecute, inference.arguments = arguments :=
  ⟨{ inferenceId := 0, inferenceAddress := 0, inferenceWidth := 0, hpi := ⟨0, [], []⟩, sharedScratchSize := 0
     inputs := arguments.inputs, outputs := arguments.outputs
     inputStrides := arguments.inputStrides, outputStrides := arguments.outputStrides
     profilingQuery := none, userArgIndex := 0, userArgHandles := [], lastScratchBoHandle := 0 }, rfl⟩

/-- An update concerns one argument. -/
theorem update_at {arguments : Arguments} {named : Nat} (inside : named < arguments.count)
    (update : ArgumentUpdates) (index : Nat) :
    (arguments.update (named, update)).at index =
      if index = named then update.applyTo (arguments.at index) else arguments.at index := by
  obtain ⟨inference, rfl⟩ := exists_inference arguments
  rw [← inference.updateArgument_arguments]
  exact inference.updateArgument_argument update inside index

theorem update_count (arguments : Arguments) (entry : Nat × ArgumentUpdates) :
    (arguments.update entry).count = arguments.count := by
  obtain ⟨inputs, outputs⟩ := arguments.update_lengths entry
  rw [count, inputs, outputs, count]

end Arguments

/-- One call of `setArgumentValue2`: a pointer, and perhaps strides behind it. -/
structure ArgumentRequest where
  argIndex : Nat
  pTensor : Nat
  userStrides : Option ArgumentStrides
deriving DecidableEq, Repr

namespace ArgumentRequest

def values (request : ArgumentRequest) : List ArgumentValue :=
  .tensor request.pTensor :: request.userStrides.toList.map .strides

def update (request : ArgumentRequest) : Nat × ArgumentUpdates :=
  (request.argIndex, ⟨some request.pTensor, request.userStrides⟩)

/-- The last request for an argument. -/
def lastFor (index : Nat) : List ArgumentRequest → Option ArgumentRequest
  | [] => none
  | request :: rest => (lastFor index rest).or (if request.argIndex = index then some request else none)

/-- The last strides that are requested for an argument. -/
def lastStrides (index : Nat) : List ArgumentRequest → Option ArgumentStrides
  | [] => none
  | request :: rest =>
    (lastStrides index rest).or (if request.argIndex = index then request.userStrides else none)

theorem lastFor_some {index : Nat} {requests : List ArgumentRequest} {request : ArgumentRequest}
    (last : lastFor index requests = some request) : request ∈ requests ∧ request.argIndex = index := by
  induction requests with
  | nil => cases last
  | cons first rest ih =>
    rw [lastFor, Option.or_eq_some_iff] at last
    rcases last with later | ⟨-, here⟩
    · obtain ⟨member, named⟩ := ih later
      exact ⟨List.mem_cons_of_mem first member, named⟩
    · split at here
      · rename_i named
        cases here
        exact ⟨List.mem_cons_self .., named⟩
      · cases here

theorem lastFor_none {index : Nat} {requests : List ArgumentRequest} (nothing : lastFor index requests = none) :
    ∀ request ∈ requests, request.argIndex ≠ index := by
  induction requests with
  | nil => simp
  | cons first rest ih =>
    rw [lastFor, Option.or_eq_none_iff] at nothing
    obtain ⟨later, here⟩ := nothing
    intro request member
    rcases List.mem_cons.mp member with rfl | behind
    · intro named
      rw [if_pos named] at here
      cases here
    · exact ih later request behind

/-- Strides are requested last with the last request for the argument, or with none of them. -/
def StridesLast (requests : List ArgumentRequest) : Prop :=
  ∀ index request, lastFor index requests = some request → request.userStrides = none →
    ∀ other ∈ requests, other.argIndex = index → other.userStrides = none

theorem lastStrides_none {index : Nat} {requests : List ArgumentRequest}
    (without : ∀ other ∈ requests, other.argIndex = index → other.userStrides = none) :
    lastStrides index requests = none := by
  induction requests with
  | nil => rfl
  | cons first rest ih =>
    rw [lastStrides, ih fun other member => without other (List.mem_cons_of_mem first member)]
    split
    · rename_i named
      exact without first (List.mem_cons_self ..) named
    · rfl

theorem lastStrides_lastFor {index : Nat} {requests : List ArgumentRequest} {request : ArgumentRequest}
    (last : lastFor index requests = some request) {userStrides : ArgumentStrides}
    (given : request.userStrides = some userStrides) : lastStrides index requests = some userStrides := by
  induction requests with
  | nil => cases last
  | cons first rest ih =>
    rw [lastFor, Option.or_eq_some_iff] at last
    rw [lastStrides]
    rcases last with later | ⟨nothing, here⟩
    · rw [ih later]
      rfl
    · have none_later : lastStrides index rest = none := by
        apply lastStrides_none
        intro other member named
        exact absurd named (lastFor_none nothing other member)
      rw [none_later]
      split at here
      · rename_i named
        cases here
        rw [if_pos named]
        exact given
      · cases here

/-- The last strides are those of the last request. -/
theorem StridesLast.lastStrides {requests : List ArgumentRequest} (ordered : StridesLast requests) {index : Nat}
    {request : ArgumentRequest} (last : lastFor index requests = some request) :
    lastStrides index requests = request.userStrides := by
  cases given : request.userStrides with
  | none => exact lastStrides_none (ordered index request last given)
  | some userStrides => exact lastStrides_lastFor last given

end ArgumentRequest

/-- Requests that are carried out one by one leave every argument as the last request for it has it. -/
theorem Arguments.requests_at {arguments : Arguments} {requests : List ArgumentRequest}
    (inside : ∀ request ∈ requests, request.argIndex < arguments.count) (index : Nat) :
    ((requests.map ArgumentRequest.update).foldl Arguments.update arguments).at index =
      ((ArgumentRequest.lastFor index requests).map fun request =>
        (some request.pTensor, request.userStrides)).getD (arguments.at index) := by
  induction requests generalizing arguments with
  | nil => rfl
  | cons request rest ih =>
    obtain ⟨here, later⟩ := List.forall_mem_cons.mp inside
    have counted : ∀ other ∈ rest, other.argIndex < (arguments.update request.update).count := by
      intro other member
      rw [Arguments.update_count]
      exact later other member
    have changed := Arguments.update_at here ⟨some request.pTensor, request.userStrides⟩ index
    rw [List.map_cons, List.foldl_cons, ih counted, ArgumentRequest.lastFor]
    cases last : ArgumentRequest.lastFor index rest with
    | some found => rfl
    | none =>
      refine changed.trans ?_
      by_cases named : request.argIndex = index
      · rw [if_pos named, if_pos named.symm]
        rfl
      · rw [if_neg named, if_neg fun same => named same.symm]
        rfl

namespace ArgumentGraph

def arguments (graph : ArgumentGraph) : Arguments :=
  ⟨graph.inputArgs, graph.outputArgs, graph.inputStrides, graph.outputStrides⟩

/-- The same graph but for the values of its arguments. -/
structure SameGraph (before after : ArgumentGraph) : Prop where
  argumentProperties : after.argumentProperties = before.argumentProperties
  parser : after.parser = before.parser
  profilingOutputSize : after.profilingOutputSize = before.profilingOutputSize

theorem SameGraph.trans {first second third : ArgumentGraph} (left : SameGraph first second)
    (right : SameGraph second third) : SameGraph first third where
  argumentProperties := right.argumentProperties.trans left.argumentProperties
  parser := right.parser.trans left.parser
  profilingOutputSize := right.profilingOutputSize.trans left.profilingOutputSize

theorem setTensor_same (graph : ArgumentGraph) (argIndex pTensor : Nat) :
    SameGraph graph (graph.setTensor argIndex pTensor) := by
  unfold setTensor
  split
  · exact ⟨rfl, rfl, rfl⟩
  · exact ⟨rfl, rfl, rfl⟩

theorem setStrides_same (graph : ArgumentGraph) (argIndex : Nat) (userStrides : Option ArgumentStrides) :
    SameGraph graph (graph.setStrides argIndex userStrides) := by
  unfold setStrides
  split
  · exact ⟨rfl, rfl, rfl⟩
  · exact ⟨rfl, rfl, rfl⟩

theorem SameGraph.supports {before after : ArgumentGraph} (same : SameGraph before after) (argIndex : Nat) :
    after.supportsDynamicStrides argIndex = before.supportsDynamicStrides argIndex := by
  rw [supportsDynamicStrides, same.argumentProperties, supportsDynamicStrides]

/-- The graph after a request that is accepted. -/
def carry (graph : ArgumentGraph) (request : ArgumentRequest) : ArgumentGraph :=
  match request.userStrides with
  | none => (graph.setStrides request.argIndex none).setTensor request.argIndex request.pTensor
  | some userStrides =>
    ((graph.setStrides request.argIndex none).setTensor request.argIndex request.pTensor).setStrides
      request.argIndex (some userStrides)

theorem carry_same (graph : ArgumentGraph) (request : ArgumentRequest) : SameGraph graph (graph.carry request) := by
  have placed := (graph.setStrides_same request.argIndex none).trans
    (setTensor_same _ request.argIndex request.pTensor)
  unfold carry
  split
  · exact placed
  · exact placed.trans (setStrides_same ..)

theorem carry_arguments (graph : ArgumentGraph) (request : ArgumentRequest) :
    (graph.carry request).arguments = graph.arguments.update request.update := by
  obtain ⟨argIndex, pTensor, userStrides⟩ := request
  by_cases input : argIndex < graph.inputArgs.length
  · have updated : graph.arguments.update (ArgumentRequest.update ⟨argIndex, pTensor, userStrides⟩) =
        { graph.arguments with
          inputs := graph.inputArgs.set argIndex pTensor
          inputStrides := Function.update graph.inputStrides argIndex userStrides } := if_pos input
    rw [updated]
    cases userStrides with
    | none => simp [carry, setStrides, setTensor, input, arguments]
    | some strides => simp [carry, setStrides, setTensor, input, arguments]
  · have updated : graph.arguments.update (ArgumentRequest.update ⟨argIndex, pTensor, userStrides⟩) =
        { graph.arguments with
          outputs := graph.outputArgs.set (argIndex - graph.inputArgs.length) pTensor
          outputStrides := Function.update graph.outputStrides (argIndex - graph.inputArgs.length)
            userStrides } := if_neg input
    rw [updated]
    cases userStrides with
    | none => simp [carry, setStrides, setTensor, input, arguments]
    | some strides => simp [carry, setStrides, setTensor, input, arguments]

/-- What `setArgumentValue2` checks for a request. -/
structure Accepts (graph : ArgumentGraph) (request : ArgumentRequest) : Prop where
  inside : request.argIndex < graph.argumentProperties.length
  inputs : (safeCastU32 graph.inputArgs.length).isSome
  strides : request.userStrides ≠ none → graph.supportsDynamicStrides request.argIndex = true

theorem placed_supports (graph : ArgumentGraph) (argIndex pTensor : Nat) :
    ((graph.setStrides argIndex none).setTensor argIndex pTensor).supportsDynamicStrides argIndex =
      graph.supportsDynamicStrides argIndex :=
  ((graph.setStrides_same argIndex none).trans (setTensor_same _ argIndex pTensor)).supports argIndex

/-- A request that passes the checks is carried out. -/
theorem setArgumentValue2_accepted {graph : ArgumentGraph} {request : ArgumentRequest}
    (accepted : graph.Accepts request) :
    graph.setArgumentValue2 request.argIndex request.values = (ZE_RESULT_SUCCESS, graph.carry request) := by
  obtain ⟨argIndex, pTensor, userStrides⟩ := request
  obtain ⟨inside, cast, strides⟩ := accepted
  obtain ⟨numInputs, inputs⟩ := Option.isSome_iff_exists.mp cast
  cases userStrides with
  | none =>
    simp [setArgumentValue2, ArgumentRequest.values, Nat.not_le.mpr inside, inputs, gatherEach,
      NESTED_STRUCTS_LIMIT, gatherArgumentValues, carry]
  | some given =>
    have supported := strides (Option.some_ne_none given)
    simp [setArgumentValue2, ArgumentRequest.values, Nat.not_le.mpr inside, inputs, gatherEach,
      NESTED_STRUCTS_LIMIT, gatherArgumentValues, placed_supports, supported, carry]

/-- A request that succeeds has passed the checks. -/
theorem setArgumentValue2_success {graph : ArgumentGraph} {request : ArgumentRequest}
    (success : (graph.setArgumentValue2 request.argIndex request.values).1 = ZE_RESULT_SUCCESS) :
    graph.Accepts request := by
  obtain ⟨argIndex, pTensor, userStrides⟩ := request
  unfold setArgumentValue2 at success
  split at success
  · cases success
  · split at success
    · cases success
    · rename_i inside
      cases inputs : safeCastU32 graph.inputArgs.length with
      | none =>
        rw [inputs] at success
        cases success
      | some numInputs =>
        refine ⟨Nat.not_le.mp inside, Option.isSome_of_eq_some inputs, ?_⟩
        intro given
        obtain ⟨strides, rfl⟩ := Option.ne_none_iff_exists'.mp given
        by_contra refused
        have unsupported : graph.supportsDynamicStrides argIndex = false := Bool.eq_false_of_not_eq_true refused
        simp [inputs, ArgumentRequest.values, gatherEach, NESTED_STRUCTS_LIMIT, gatherArgumentValues,
          placed_supports, unsupported] at success

/-- A value that is set without a chain is a request without strides. -/
theorem setArgumentValue_arguments {graph : ArgumentGraph} {argIndex pArgValue : Nat}
    (success : (graph.setArgumentValue argIndex pArgValue).1 = ZE_RESULT_SUCCESS) :
    (graph.setArgumentValue argIndex pArgValue).2.arguments =
      graph.arguments.update (ArgumentRequest.update ⟨argIndex, pArgValue, none⟩) := by
  unfold setArgumentValue at success ⊢
  split at success
  · cases success
  · rename_i nonnull
    split at success
    · cases success
    · rename_i inside
      rw [if_neg nonnull, if_neg inside, ← graph.carry_arguments]
      by_cases input : argIndex < graph.inputArgs.length
      · simp [carry, setStrides, setTensor, input, arguments]
      · simp [carry, setStrides, setTensor, input, arguments]

/-- The graph after a series of requests, none where one of them is rejected. -/
def rerecord (graph : ArgumentGraph) : List ArgumentRequest → Option ArgumentGraph
  | [] => some graph
  | request :: rest =>
    match graph.setArgumentValue2 request.argIndex request.values with
    | (ZE_RESULT_SUCCESS, next) => next.rerecord rest
    | _ => none

/-- Requests that are all accepted are carried out one by one. -/
theorem rerecord_accepted {graph : ArgumentGraph} {requests : List ArgumentRequest}
    (accepted : ∀ request ∈ requests, graph.Accepts request) :
    ∃ rerecorded, graph.rerecord requests = some rerecorded ∧ SameGraph graph rerecorded ∧
      rerecorded.arguments = (requests.map ArgumentRequest.update).foldl Arguments.update graph.arguments := by
  induction requests generalizing graph with
  | nil => exact ⟨graph, rfl, ⟨rfl, rfl, rfl⟩, rfl⟩
  | cons request rest ih =>
    obtain ⟨here, later⟩ := List.forall_mem_cons.mp accepted
    have step := setArgumentValue2_accepted here
    have same := graph.carry_same request
    have lengths : (graph.carry request).inputArgs.length = graph.inputArgs.length := by
      have carried := congrArg (fun arguments => arguments.inputs.length) (graph.carry_arguments request)
      exact carried.trans (graph.arguments.update_lengths request.update).1
    have acceptedLater : ∀ other ∈ rest, (graph.carry request).Accepts other := by
      intro other member
      obtain ⟨inside, inputs, strides⟩ := later other member
      constructor
      · rw [same.argumentProperties]
        exact inside
      · rw [lengths]
        exact inputs
      · rw [same.supports]
        exact strides
    obtain ⟨rerecorded, loop, sameRest, arguments⟩ := ih acceptedLater
    refine ⟨rerecorded, ?_, same.trans sameRest, ?_⟩
    · rw [rerecord, step]
      exact loop
    · rw [arguments, graph.carry_arguments]
      rfl

end ArgumentGraph

namespace CommandList

/-- The strides that stand right behind a structure for an argument; unsupported structures, which no
update call accepts, are passed over. -/
def nextStrides : List MutableDesc → Option ArgumentStrides
  | [] => none
  | .graphArgument _ _ _ :: _ => none
  | .strides userStrides :: _ => some userStrides
  | .unsupported :: rest => nextStrides rest

/-- The values that a chain has for the arguments of the command at a position, in their order. -/
def requested (commandIdMap : Nat → Option Nat) (position : Nat) : List MutableDesc → List ArgumentRequest
  | [] => []
  | .graphArgument commandId argIndex pArgValue :: rest =>
    if resolve commandIdMap commandId = position then
      ⟨argIndex, pArgValue, nextStrides rest⟩ :: requested commandIdMap position rest
    else requested commandIdMap position rest
  | .strides _ :: rest => requested commandIdMap position rest
  | .unsupported :: rest => requested commandIdMap position rest

theorem requested_names {commandIdMap : Nat → Option Nat} {position : Nat} {pNext : List MutableDesc} :
    ∀ request ∈ requested commandIdMap position pNext, Names commandIdMap position request.argIndex pNext := by
  induction pNext with
  | nil =>
    intro request member
    cases member
  | cons desc rest ih =>
    have later : ∀ request ∈ requested commandIdMap position rest,
        Names commandIdMap position request.argIndex (desc :: rest) := by
      intro request member
      obtain ⟨commandId, pArgValue, present, target⟩ := ih request member
      exact ⟨commandId, pArgValue, List.mem_cons_of_mem desc present, target⟩
    cases desc with
    | graphArgument commandId argIndex pArgValue =>
      intro request member
      rw [requested] at member
      split at member
      · rename_i target
        rcases List.mem_cons.mp member with rfl | behind
        · exact ⟨commandId, pArgValue, List.mem_cons_self .., target⟩
        · exact later request behind
      · exact later request member
    | strides userStrides => exact later
    | unsupported => exact later

/-- The pointer that a chain ends up giving to an argument is that of the last request for it. -/
theorem assigned_requested (commandIdMap : Nat → Option Nat) (position index : Nat) (pNext : List MutableDesc)
    (current : Option Nat) :
    assigned commandIdMap position index pNext current =
      ((ArgumentRequest.lastFor index (requested commandIdMap position pNext)).map
        ArgumentRequest.pTensor).or current := by
  induction pNext generalizing current with
  | nil => rfl
  | cons desc rest ih =>
    cases desc with
    | graphArgument commandId argIndex pArgValue =>
      rw [assigned, requested, ih]
      by_cases target : resolve commandIdMap commandId = position
      · rw [if_pos target, ArgumentRequest.lastFor]
        cases ArgumentRequest.lastFor index (requested commandIdMap position rest) with
        | some later => rfl
        | none =>
          by_cases named : argIndex = index
          · simp [target, named]
          · simp [named]
      · rw [if_neg target, if_neg fun both => target both.1]
    | strides userStrides => exact ih current
    | unsupported => exact ih current

/-- The strides that a chain ends up giving to an argument are the last ones that are requested for it. -/
theorem assignedStrides_requested (commandIdMap : Nat → Option Nat) (position index : Nat)
    (pNext : List MutableDesc) (prev : Option (Nat × Nat)) (current : Option ArgumentStrides) :
    assignedStrides commandIdMap position index pNext prev current =
      (ArgumentRequest.lastStrides index (requested commandIdMap position pNext)).or
        (if prev = some (position, index) then (nextStrides pNext).or current else current) := by
  induction pNext generalizing prev current with
  | nil => simp [assignedStrides, requested, ArgumentRequest.lastStrides, nextStrides]
  | cons desc rest ih =>
    cases desc with
    | graphArgument commandId argIndex pArgValue =>
      rw [assignedStrides, requested, ih]
      by_cases target : resolve commandIdMap commandId = position
      · rw [if_pos target, ArgumentRequest.lastStrides]
        cases ArgumentRequest.lastStrides index (requested commandIdMap position rest) with
        | some later => rfl
        | none =>
          by_cases named : argIndex = index
          · simp [target, named, nextStrides]
          · simp [named, nextStrides]
      · simp [target, nextStrides]
    | strides userStrides =>
      rw [assignedStrides, requested, ih]
      by_cases here : prev = some (position, index)
      · simp [here, nextStrides]
      · simp [here]
    | unsupported =>
      rw [assignedStrides, requested, ih]
      rfl

end CommandList

end NpuDriver
