import NpuDriver.Proof.ArgumentValues

/-! What a call leaves of the arguments of a graph when it fails, and what a series of calls leaves. -/

namespace NpuDriver

open Library ZeResult CommandList

namespace ArgumentValue

/-- A structure that is taken for an argument, with or without support for dynamic strides. -/
def taken (supported : Bool) : ArgumentValue → Bool
  | .tensor _ => true
  | .strides _ => supported
  | .unsupported => false

/-- The last pointer in a chain. -/
def lastTensor : List ArgumentValue → Option Nat
  | [] => none
  | .tensor pTensor :: rest => (lastTensor rest).or (some pTensor)
  | .strides _ :: rest => lastTensor rest
  | .unsupported :: rest => lastTensor rest

def lastStrides : List ArgumentValue → Option ArgumentStrides
  | [] => none
  | .tensor _ :: rest => lastStrides rest
  | .strides userStrides :: rest => (lastStrides rest).or (some userStrides)
  | .unsupported :: rest => lastStrides rest

end ArgumentValue

namespace ArgumentGraph

open ArgumentValue

theorem setTensor_at {graph : ArgumentGraph} {argIndex : Nat} (inside : argIndex < graph.argumentProperties.length)
    (pTensor index : Nat) :
    (graph.setTensor argIndex pTensor).arguments.at index =
      if index = argIndex then (some pTensor, (graph.arguments.at index).2) else graph.arguments.at index := by
  have counted := graph.counted
  unfold setTensor
  by_cases input : argIndex < graph.inputArgs.length
  · rw [if_pos input]
    by_cases same : index = argIndex
    · subst same
      simp [arguments, Arguments.at, input]
    · simp only [arguments, Arguments.at, List.length_set, if_neg same, List.getElem?_set_ne (Ne.symm same)]
      rfl
  · rw [if_neg input]
    by_cases same : index = argIndex
    · subst same
      have output : index - graph.inputArgs.length < graph.outputArgs.length := by omega
      simp [arguments, Arguments.at, input, output]
    · by_cases other : index < graph.inputArgs.length
      · simp [arguments, Arguments.at, other, same]
      · have apart : argIndex - graph.inputArgs.length ≠ index - graph.inputArgs.length := by omega
        simp [arguments, Arguments.at, other, same, List.getElem?_set_ne apart]

theorem setStrides_at (graph : ArgumentGraph) (argIndex : Nat) (userStrides : Option ArgumentStrides) (index : Nat) :
    (graph.setStrides argIndex userStrides).arguments.at index =
      if index = argIndex then ((graph.arguments.at index).1, userStrides) else graph.arguments.at index := by
  unfold setStrides
  by_cases input : argIndex < graph.inputArgs.length
  · rw [if_pos input]
    by_cases same : index = argIndex
    · subst same
      simp [arguments, Arguments.at, input]
    · simp [arguments, Arguments.at, same]
      rfl
  · rw [if_neg input]
    by_cases same : index = argIndex
    · subst same
      simp [arguments, Arguments.at, input]
    · by_cases other : index < graph.inputArgs.length
      · simp [arguments, Arguments.at, other, same]
      · have apart : index - graph.inputArgs.length ≠ argIndex - graph.inputArgs.length := by omega
        simp [arguments, Arguments.at, other, same, Function.update_of_ne apart]

/-- The structures in front of the first one that is refused, or of the limit of the chain. -/
def takenValues (supported : Bool) (limit : Nat) (chain : List ArgumentValue) : List ArgumentValue :=
  (chain.take limit).takeWhile (taken supported)

/-- What structures leave of the pointer and the strides of an argument. -/
def leave (values : List ArgumentValue) (before : Option Nat × Option ArgumentStrides) :
    Option Nat × Option ArgumentStrides :=
  ((lastTensor values).or before.1, (lastStrides values).or before.2)

theorem gatherArgumentValues_taken {graph : ArgumentGraph} {argIndex : Nat}
    (inside : argIndex < graph.argumentProperties.length) {value : ArgumentValue}
    (accepted : taken (graph.supportsDynamicStrides argIndex) value = true) :
    ∃ next, gatherArgumentValues argIndex graph value = some next ∧ SameGraph graph next ∧
      ∀ index, next.arguments.at index =
        if index = argIndex then leave [value] (graph.arguments.at index) else graph.arguments.at index := by
  cases value with
  | tensor pTensor => exact ⟨_, rfl, graph.setTensor_same .., fun index => setTensor_at inside pTensor index⟩
  | strides userStrides =>
    have supported : graph.supportsDynamicStrides argIndex = true := accepted
    refine ⟨graph.setStrides argIndex (some userStrides), ?_, graph.setStrides_same .., fun index =>
      graph.setStrides_at argIndex _ index⟩
    simp [gatherArgumentValues, supported]
  | unsupported => cases accepted

theorem gatherArgumentValues_refused {graph : ArgumentGraph} {argIndex : Nat} {value : ArgumentValue}
    (refused : taken (graph.supportsDynamicStrides argIndex) value = false) :
    gatherArgumentValues argIndex graph value = none := by
  cases value with
  | tensor pTensor => cases refused
  | strides userStrides =>
    have unsupported : graph.supportsDynamicStrides argIndex = false := refused
    simp [gatherArgumentValues, unsupported]
  | unsupported => rfl

theorem leave_leave (value : ArgumentValue) (rest : List ArgumentValue)
    (before : Option Nat × Option ArgumentStrides) :
    leave rest (leave [value] before) = leave (value :: rest) before := by
  cases value <;> simp [leave, lastTensor, lastStrides]

/-- The walk of a chain carries out the structures that are taken, and succeeds when these are all. -/
theorem gatherEach_taken {graph : ArgumentGraph} {argIndex : Nat}
    (inside : argIndex < graph.argumentProperties.length) (limit : Nat) (chain : List ArgumentValue) :
    ∃ next, gatherEach argIndex limit chain graph =
        (decide (takenValues (graph.supportsDynamicStrides argIndex) limit chain = chain), next) ∧
      SameGraph graph next ∧ ∀ index, next.arguments.at index =
        if index = argIndex then
          leave (takenValues (graph.supportsDynamicStrides argIndex) limit chain) (graph.arguments.at index)
        else graph.arguments.at index := by
  induction chain generalizing graph limit with
  | nil =>
    refine ⟨graph, by simp [gatherEach, takenValues], ⟨rfl, rfl, rfl⟩, ?_⟩
    simp [takenValues, leave, lastTensor, lastStrides]
  | cons value rest ih =>
    cases limit with
    | zero =>
      refine ⟨graph, by simp [gatherEach, takenValues], ⟨rfl, rfl, rfl⟩, ?_⟩
      simp [takenValues, leave, lastTensor, lastStrides]
    | succ limit =>
      cases accepted : taken (graph.supportsDynamicStrides argIndex) value with
      | false =>
        have nothing : takenValues (graph.supportsDynamicStrides argIndex) (limit + 1) (value :: rest) = [] := by
          simp [takenValues, accepted]
        rw [gatherEach, gatherArgumentValues_refused accepted, nothing]
        refine ⟨graph, by simp, ⟨rfl, rfl, rfl⟩, ?_⟩
        simp [leave, lastTensor, lastStrides]
      | true =>
        obtain ⟨next, step, same, here⟩ := gatherArgumentValues_taken inside accepted
        have front : takenValues (graph.supportsDynamicStrides argIndex) (limit + 1) (value :: rest) =
            value :: takenValues (graph.supportsDynamicStrides argIndex) limit rest := by
          simp [takenValues, accepted]
        have insideNext : argIndex < next.argumentProperties.length := by
          rw [same.argumentProperties]
          exact inside
        obtain ⟨last, loop, sameRest, behind⟩ := @ih next insideNext limit
        rw [same.supports] at loop behind
        refine ⟨last, ?_, same.trans sameRest, ?_⟩
        · rw [gatherEach, step, front]
          simp [loop]
        · intro index
          rw [behind, here, front]
          by_cases own : index = argIndex
          · rw [if_pos own, if_pos own, if_pos own, leave_leave]
          · rw [if_neg own, if_neg own, if_neg own]

/-- A call that gets as far as its chain. -/
structure Examined (graph : ArgumentGraph) (argIndex : Nat) (chain : List ArgumentValue) : Prop where
  nonempty : chain ≠ []
  inside : argIndex < graph.argumentProperties.length
  inputs : (safeCastU32 graph.inputArgs.length).isSome

/-- The structures of a chain that are carried out. -/
def carriedOut (graph : ArgumentGraph) (argIndex : Nat) (chain : List ArgumentValue) : List ArgumentValue :=
  takenValues (graph.supportsDynamicStrides argIndex) NESTED_STRUCTS_LIMIT chain

theorem setArgumentValue2_unexamined {graph : ArgumentGraph} {argIndex : Nat} {chain : List ArgumentValue}
    (refused : ¬ graph.Examined argIndex chain) :
    (graph.setArgumentValue2 argIndex chain).1 ≠ ZE_RESULT_SUCCESS ∧
      (graph.setArgumentValue2 argIndex chain).2 = graph := by
  unfold setArgumentValue2
  by_cases empty : chain = []
  · simp [empty]
  · by_cases inside : argIndex < graph.argumentProperties.length
    · cases inputs : safeCastU32 graph.inputArgs.length with
      | none => simp [empty, Nat.not_le.mpr inside]
      | some numInputs => exact absurd ⟨empty, inside, Option.isSome_of_eq_some inputs⟩ refused
    · simp [empty, Nat.not_lt.mp inside]

/-- The strides are erased, then the structures are carried out up to the first one that is refused. -/
theorem setArgumentValue2_examined {graph : ArgumentGraph} {argIndex : Nat} {chain : List ArgumentValue}
    (examined : graph.Examined argIndex chain) :
    ∃ next, graph.setArgumentValue2 argIndex chain =
        (if graph.carriedOut argIndex chain = chain then ZE_RESULT_SUCCESS else ZE_RESULT_ERROR_INVALID_ARGUMENT, next) ∧
      SameGraph graph next ∧ ∀ index, next.arguments.at index =
        if index = argIndex then leave (graph.carriedOut argIndex chain) ((graph.arguments.at index).1, none)
        else graph.arguments.at index := by
  obtain ⟨nonempty, inside, cast⟩ := examined
  obtain ⟨numInputs, inputs⟩ := Option.isSome_iff_exists.mp cast
  have cleared := graph.setStrides_same argIndex none
  have insideCleared : argIndex < (graph.setStrides argIndex none).argumentProperties.length := by
    rw [cleared.argumentProperties]
    exact inside
  obtain ⟨next, walk, same, left⟩ := gatherEach_taken insideCleared NESTED_STRUCTS_LIMIT chain
  rw [cleared.supports] at walk left
  refine ⟨next, ?_, cleared.trans same, ?_⟩
  · by_cases all : graph.carriedOut argIndex chain = chain
    · have whole : takenValues (graph.supportsDynamicStrides argIndex) NESTED_STRUCTS_LIMIT chain = chain := all
      rw [decide_eq_true whole] at walk
      simp [setArgumentValue2, nonempty, Nat.not_le.mpr inside, inputs, walk, all]
    · have part : takenValues (graph.supportsDynamicStrides argIndex) NESTED_STRUCTS_LIMIT chain ≠ chain := all
      rw [decide_eq_false part] at walk
      simp [setArgumentValue2, nonempty, Nat.not_le.mpr inside, inputs, walk, all]
  · intro index
    rw [left, setStrides_at]
    by_cases own : index = argIndex
    · rw [if_pos own, if_pos own, if_pos own]
      rfl
    · rw [if_neg own, if_neg own, if_neg own]

/-- A failed call leaves all arguments as they were, a successful one changes its own argument only. -/
def AtomicAndConfined (graph : ArgumentGraph) (argIndex : Nat) (chain : List ArgumentValue) : Prop :=
  let result := graph.setArgumentValue2 argIndex chain
  (result.1 ≠ ZE_RESULT_SUCCESS → ∀ index, result.2.arguments.at index = graph.arguments.at index) ∧
    (result.1 = ZE_RESULT_SUCCESS → ∀ index, result.2.arguments.at index =
      if index = argIndex then leave chain ((graph.arguments.at index).1, none) else graph.arguments.at index)

/-- The structures in front of a refused one leave the pointer and the strides that were there before. -/
def Restores (graph : ArgumentGraph) (argIndex : Nat) (chain : List ArgumentValue) : Prop :=
  graph.Examined argIndex chain → graph.carriedOut argIndex chain ≠ chain →
    leave (graph.carriedOut argIndex chain) ((graph.arguments.at argIndex).1, none) = graph.arguments.at argIndex

theorem atomicAndConfined_iff (graph : ArgumentGraph) (argIndex : Nat) (chain : List ArgumentValue) :
    graph.AtomicAndConfined argIndex chain ↔ graph.Restores argIndex chain := by
  unfold AtomicAndConfined Restores
  by_cases examined : graph.Examined argIndex chain
  · obtain ⟨next, result, -, left⟩ := setArgumentValue2_examined examined
    rw [result]
    by_cases all : graph.carriedOut argIndex chain = chain
    · rw [all] at left
      simp [all, left]
    · simp only [if_neg all]
      constructor
      · rintro ⟨unchanged, -⟩ _ _
        have same := unchanged (by simp) argIndex
        rw [left, if_pos rfl] at same
        exact same
      · intro restored
        refine ⟨?_, by simp⟩
        intro _ index
        rw [left]
        by_cases own : index = argIndex
        · rw [if_pos own, own]
          exact restored examined all
        · rw [if_neg own]
  · obtain ⟨failed, same⟩ := setArgumentValue2_unexamined examined
    simp [failed, same, examined]

end ArgumentGraph

/-- A call that sets an argument of a graph. -/
inductive SetCall where
  | setArgumentValue (argIndex pArgValue : Nat)
  | setArgumentValue2 (argIndex : Nat) (pArgValue : List ArgumentValue)

/-- A graph beside what the successful calls have set for each argument. -/
structure SetArguments where
  graph : ArgumentGraph
  given : Nat → Option Nat × Option ArgumentStrides

namespace SetArguments

open ArgumentGraph

def run (state : SetArguments) : SetCall → SetArguments
  | .setArgumentValue argIndex pArgValue =>
    let result := state.graph.setArgumentValue argIndex pArgValue
    { graph := result.2
      given := if result.1 = ZE_RESULT_SUCCESS then Function.update state.given argIndex (some pArgValue, none)
        else state.given }
  | .setArgumentValue2 argIndex pArgValue =>
    let result := state.graph.setArgumentValue2 argIndex pArgValue
    { graph := result.2
      given := if result.1 = ZE_RESULT_SUCCESS then
          Function.update state.given argIndex (leave pArgValue ((state.given argIndex).1, none))
        else state.given }

def Restores (state : SetArguments) : SetCall → Prop
  | .setArgumentValue _ _ => True
  | .setArgumentValue2 argIndex pArgValue => state.graph.Restores argIndex pArgValue

/-- The graph has what the successful calls have set. -/
def Current (state : SetArguments) : Prop := ∀ index, state.graph.arguments.at index = state.given index

theorem Current.run {state : SetArguments} {call : SetCall} (current : state.Current)
    (restores : state.Restores call) : (state.run call).Current := by
  cases call with
  | setArgumentValue argIndex pArgValue =>
    intro index
    simp only [SetArguments.run]
    by_cases null : pArgValue = 0
    · have refused : state.graph.setArgumentValue argIndex pArgValue =
          (ZE_RESULT_ERROR_INVALID_NULL_POINTER, state.graph) := if_pos null
      simp [refused, current index]
    · by_cases inside : argIndex < state.graph.argumentProperties.length
      · have accepted : state.graph.setArgumentValue argIndex pArgValue =
            (ZE_RESULT_SUCCESS, (state.graph.setTensor argIndex pArgValue).setStrides argIndex none) := by
          simp [ArgumentGraph.setArgumentValue, null, Nat.not_le.mpr inside]
        simp only [accepted, ↓reduceIte, setStrides_at, setTensor_at inside]
        by_cases own : index = argIndex
        · simp [own]
        · simp [own, current index]
      · have refused : state.graph.setArgumentValue argIndex pArgValue =
            (ZE_RESULT_ERROR_INVALID_ARGUMENT, state.graph) := by
          simp [ArgumentGraph.setArgumentValue, null, Nat.not_lt.mp inside]
        simp [refused, current index]
  | setArgumentValue2 argIndex pArgValue =>
    obtain ⟨failed, succeeded⟩ := (atomicAndConfined_iff ..).mpr restores
    intro index
    simp only [SetArguments.run]
    by_cases success : (state.graph.setArgumentValue2 argIndex pArgValue).1 = ZE_RESULT_SUCCESS
    · rw [if_pos success, succeeded success]
      by_cases own : index = argIndex
      · subst own
        rw [if_pos rfl, Function.update_self, current]
      · rw [if_neg own, Function.update_of_ne own, current]
    · rw [if_neg success, failed success, current]

end SetArguments

/-- A call of `setArgumentValue2` is atomic and confined to its argument exactly when the structures in front of a
refused one leave what was there before. In every run of calls that do so, an inference that is then created from
the graph has for each argument what the last successful call for it has set. -/
theorem argument_calls_atomic (graph : ArgumentGraph) :
    (∀ argIndex chain, graph.AtomicAndConfined argIndex chain ↔ graph.Restores argIndex chain) ∧
      ∀ calls, Guarded SetArguments.run SetArguments.Restores ⟨graph, graph.arguments.at⟩ calls →
        let state := runFrom SetArguments.run ⟨graph, graph.arguments.at⟩ calls
        ∀ profilingQuery ctx cmd,
          (allocateGraphExecuteCommand state.graph.toGraph profilingQuery ctx).1 = .ok cmd →
            ∃ inference, cmd.isInference = some inference ∧
              ∀ index, inference.arguments.at index = state.given index := by
  constructor
  · exact graph.atomicAndConfined_iff
  · intro calls guarded state profilingQuery ctx cmd created
    have current : state.Current :=
      guarded_invariant (fun _ _ => SetArguments.Current.run) (fun _ => rfl) guarded
    unfold allocateGraphExecuteCommand at created
    cases acquired : state.graph.acquired with
    | error error =>
      rw [acquired] at created
      cases created
    | ok parsed =>
      rw [acquired] at created
      obtain ⟨inference, _, is, -, -, -, -, arguments, -⟩ := VPUInferenceExecute.create_arguments created
      refine ⟨inference, is, ?_⟩
      intro index
      rw [arguments]
      exact current index

/-- A graph whose input has strides. -/
def stridedGraph : ArgumentGraph where
  parser := ⟨0⟩
  inputArgs := [4096]
  outputArgs := []
  inputStrides := fun _ => some [2, 1]
  outputStrides := fun _ => none
  profilingOutputSize := 0
  initialized := .ok ()
  acquired := .error .thrown
  argumentProperties := [⟨true⟩]
  counted := rfl

/-- The call is refused for its second structure: the input has moved and lost its strides by then. -/
theorem refused_call_moves_argument :
    (stridedGraph.setArgumentValue2 0 [.tensor 8192, .unsupported]).1 = ZE_RESULT_ERROR_INVALID_ARGUMENT ∧
      (stridedGraph.setArgumentValue2 0 [.tensor 8192, .unsupported]).2.arguments.at 0 = (some 8192, none) ∧
      ¬ stridedGraph.AtomicAndConfined 0 [.tensor 8192, .unsupported] := by
  have refused : (stridedGraph.setArgumentValue2 0 [.tensor 8192, .unsupported]).1 =
      ZE_RESULT_ERROR_INVALID_ARGUMENT := rfl
  refine ⟨refused, rfl, ?_⟩
  rintro ⟨unchanged, -⟩
  have same := unchanged (by simp [refused]) 0
  cases same

end NpuDriver
