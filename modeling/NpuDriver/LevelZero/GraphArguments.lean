import NpuDriver.LevelZero.CommandList

/-! The argument values of a graph, which are set before the graph is recorded into a command list. -/

namespace NpuDriver

open ZeResult

/-- The field of `GraphArgumentProperties` that decides which values are taken. -/
structure GraphArgumentProperties where
  supportsDynamicStrides : Bool
deriving DecidableEq, Repr

/-- A graph with the properties of its arguments; `initialize` makes room for one value for each of them. -/
structure ArgumentGraph extends Graph where
  argumentProperties : List GraphArgumentProperties
  counted : argumentProperties.length = inputArgs.length + outputArgs.length

/-- One structure of the chain behind `pArgValue`. -/
inductive ArgumentValue where
  | tensor (pTensor : Nat)
  | strides (userStrides : ArgumentStrides)
  | unsupported
deriving DecidableEq, Repr

namespace ArgumentGraph

/-- The value of an input or, behind the inputs, of an output. -/
def setTensor (graph : ArgumentGraph) (argIndex pTensor : Nat) : ArgumentGraph :=
  if argIndex < graph.inputArgs.length then
    { graph with
      inputArgs := graph.inputArgs.set argIndex pTensor
      counted := by
        rw [List.length_set]
        exact graph.counted }
  else
    { graph with
      outputArgs := graph.outputArgs.set (argIndex - graph.inputArgs.length) pTensor
      counted := by
        rw [List.length_set]
        exact graph.counted }

/-- The strides of an input or output, which are erased without a value. -/
def setStrides (graph : ArgumentGraph) (argIndex : Nat) (userStrides : Option ArgumentStrides) : ArgumentGraph :=
  if argIndex < graph.inputArgs.length then
    { graph with inputStrides := Function.update graph.inputStrides argIndex userStrides }
  else
    { graph with
      outputStrides := Function.update graph.outputStrides (argIndex - graph.inputArgs.length) userStrides }

def supportsDynamicStrides (graph : ArgumentGraph) (argIndex : Nat) : Bool :=
  graph.argumentProperties[argIndex]?.any GraphArgumentProperties.supportsDynamicStrides

def gatherArgumentValues (argIndex : Nat) (graph : ArgumentGraph) : ArgumentValue → Option ArgumentGraph
  | .tensor pTensor => some (graph.setTensor argIndex pTensor)
  | .strides userStrides =>
    if !graph.supportsDynamicStrides argIndex then none
    else some (graph.setStrides argIndex (some userStrides))
  | .unsupported => none

/-- `handleNestedStructs` with `gatherArgumentValues`; the values in front of a refused one stay set. -/
def gatherEach (argIndex : Nat) : Nat → List ArgumentValue → ArgumentGraph → Bool × ArgumentGraph
  | _, [], graph => (true, graph)
  | 0, _ :: _, graph => (false, graph)
  | count + 1, value :: rest, graph =>
    match gatherArgumentValues argIndex graph value with
    | none => (false, graph)
    | some next => gatherEach argIndex count rest next

/-- `setArgumentValue`. -/
def setArgumentValue (graph : ArgumentGraph) (argIndex pArgValue : Nat) : ZeResult × ArgumentGraph :=
  if pArgValue = 0 then (ZE_RESULT_ERROR_INVALID_NULL_POINTER, graph)
  else if argIndex ≥ graph.argumentProperties.length then (ZE_RESULT_ERROR_INVALID_ARGUMENT, graph)
  else (ZE_RESULT_SUCCESS, (graph.setTensor argIndex pArgValue).setStrides argIndex none)

/-- `setArgumentValue2`; the chain of a null pointer is empty. A failed `safe_cast` is turned into an error
by the caller. -/
def setArgumentValue2 (graph : ArgumentGraph) (argIndex : Nat) (pArgValue : List ArgumentValue) :
    ZeResult × ArgumentGraph :=
  if pArgValue = [] then (ZE_RESULT_ERROR_INVALID_NULL_POINTER, graph)
  else if argIndex ≥ graph.argumentProperties.length then (ZE_RESULT_ERROR_INVALID_ARGUMENT, graph)
  else
    match safeCastU32 graph.inputArgs.length with
    | none => (ZE_RESULT_ERROR_UNKNOWN, graph)
    | some _ =>
      match gatherEach argIndex CommandList.NESTED_STRUCTS_LIMIT pArgValue (graph.setStrides argIndex none) with
      | (false, next) => (ZE_RESULT_ERROR_INVALID_ARGUMENT, next)
      | (true, next) => (ZE_RESULT_SUCCESS, next)

end ArgumentGraph

end NpuDriver
