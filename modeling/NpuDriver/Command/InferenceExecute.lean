import NpuDriver.Command.Command

/-! Inference commands: their creation from the graph arguments and the updates of these
arguments between submissions. -/

namespace NpuDriver

/-- The part of `L0::ElfParser` that commands are created with. -/
structure ElfParser where
  sharedScratchSize : Nat
deriving DecidableEq, Repr

/-- The buffers behind argument pointers: none when a pointer is not tracked or its buffer
ends before the expected size of the argument. -/
def getDeviceBuffers (ctx : VPUDeviceContext) : List Nat → List Nat → Option (List VPUBufferObject)
  | [], [] => some []
  | ptr :: ptrs, size :: sizes =>
    match ctx.findBufferObject ptr with
    | none => none
    | some bo =>
      if bo.allocSize - (ptr - bo.basePtr) < size then none
      else (getDeviceBuffers ctx ptrs sizes).map (bo :: ·)
  | _, _ => none

/-- The buffer of the profiling output, when there is one. -/
def getProfilingBuffers : Option GraphProfilingQuery → Option (List VPUBufferObject)
  | none => some []
  | some query =>
    match query.bo with
    | none => none
    | some bo => if query.queryPtr = 0 then none else some [bo]

/-- The lookups of `ElfParser::applyInputOutputs`: the buffers of inputs, outputs and
profiling output in this order. -/
def findArgumentBuffers (ctx : VPUDeviceContext) (hpi : HostParsedInference) (inputs outputs : List Nat)
    (profilingQuery : Option GraphProfilingQuery) : Option (List VPUBufferObject) :=
  match getDeviceBuffers ctx inputs hpi.inputSizes with
  | none => none
  | some inputBos =>
    match getDeviceBuffers ctx outputs hpi.outputSizes with
    | none => none
    | some outputBos => (getProfilingBuffers profilingQuery).map (inputBos ++ outputBos ++ ·)

/-- `ElfParser::applyInputOutputs`: the lookups, then the loader patches the inference. -/
def applyInputOutputs (ctx : VPUDeviceContext) (hpi : HostParsedInference) (inputs outputs : List Nat)
    (profilingQuery : Option GraphProfilingQuery) :
    Option (List VPUBufferObject) × VPUDeviceContext :=
  match findArgumentBuffers ctx hpi inputs outputs profilingQuery with
  | none => (none, ctx)
  | some bos =>
    let next := { ctx with applied := ctx.applied + 1 }
    if ctx.loader ctx.applied then (some bos, next) else (none, next)

/-- `VPUInferenceExecute::create`. `bos` are the parsed inference and its internal buffers. -/
def VPUInferenceExecute.create (ctx : VPUDeviceContext) (parser : ElfParser)
    (cmdHpi : HostParsedInference) (inputs outputs : List Nat)
    (inputStrides outputStrides : Nat → Option ArgumentStrides)
    (profilingQuery : Option GraphProfilingQuery) (inferenceId : Nat) (bos : List VPUBufferObject) :
    Created × VPUDeviceContext :=
  match applyInputOutputs ctx cmdHpi inputs outputs profilingQuery with
  | (none, next) => (.error .nullptr, next)
  | (some userBos, next) =>
    match bos with
    | [] => (.error .thrown, next)
    | hpiBo :: _ =>
      match safeCastU32 hpiBo.allocSize with
      | none => (.error .thrown, next)
      | some width =>
        let fixed := appendAssociateBufferObjects [] bos
        let inference : VPUInferenceExecute :=
          { inferenceId := inferenceId, inferenceAddress := hpiBo.vpuAddr, inferenceWidth := width
            hpi := cmdHpi, sharedScratchSize := parser.sharedScratchSize
            inputs := inputs, outputs := outputs
            inputStrides := inputStrides, outputStrides := outputStrides
            profilingQuery := profilingQuery
            userArgIndex := fixed.length
            userArgHandles := userBos.map VPUBufferObject.handle
            lastScratchBoHandle := UINT32_MAX }
        (.ok { command := .inferenceExecute inference, sType := .Generic
               bufferObjects := appendAssociateBufferObjects fixed userBos
               descriptor := none, cmdNeedsUpdate := false, sized := trivial }, next)

/-- `VPUCommand::ArgumentUpdates`. -/
structure ArgumentUpdates where
  ptr : Option Nat
  strides : Option ArgumentStrides
deriving DecidableEq, Repr

/-- `ArgumentUpdatesMap`, in the order in which the unordered map is iterated. -/
abbrev ArgumentUpdatesMap := List (Nat × ArgumentUpdates)

def setPointer (pointers : List Nat) (index : Nat) (ptr : Option Nat) : List Nat :=
  match ptr with
  | none => pointers
  | some value => pointers.set index value

namespace VPUInferenceExecute

def updateArgument (inference : VPUInferenceExecute) (numInputArgs argIndex : Nat)
    (argUpdate : ArgumentUpdates) : VPUInferenceExecute :=
  if argIndex < numInputArgs then
    { inference with
      inputs := setPointer inference.inputs argIndex argUpdate.ptr
      inputStrides := Function.update inference.inputStrides argIndex argUpdate.strides }
  else
    { inference with
      outputs := setPointer inference.outputs (argIndex - numInputArgs) argUpdate.ptr
      outputStrides :=
        Function.update inference.outputStrides (argIndex - numInputArgs) argUpdate.strides }

/-- The loop of `setUpdates`: the updates before an invalid index stay applied. -/
def updateArguments (numInputArgs numArgs : Nat) :
    VPUInferenceExecute → ArgumentUpdatesMap → Bool × VPUInferenceExecute
  | inference, [] => (true, inference)
  | inference, (argIndex, argUpdate) :: rest =>
    if argIndex ≥ numArgs then (false, inference)
    else updateArguments numInputArgs numArgs
      (inference.updateArgument numInputArgs argIndex argUpdate) rest

end VPUInferenceExecute

namespace VPUCommand

/-- `setUpdates`: only inference commands override it. A failed `safe_cast` ends the call
like an invalid index. -/
def setUpdates (cmd : VPUCommand) (updatesMap : ArgumentUpdatesMap) : Bool × VPUCommand :=
  match cmd.command with
  | .inferenceExecute inference =>
    match safeCastU32 inference.inputs.length, safeCastU32 inference.outputs.length with
    | some numInputArgs, some numOutputArgs =>
      let numArgs := (numInputArgs + numOutputArgs) % 2 ^ 32
      match inference.updateArguments numInputArgs numArgs updatesMap with
      | (false, updated) =>
        (false, { cmd with command := .inferenceExecute updated, sized := trivial })
      | (true, updated) =>
        (true, { cmd with command := .inferenceExecute updated, cmdNeedsUpdate := true
                          sized := trivial })
    | _, _ => (false, cmd)
  | _ => (false, cmd)

end VPUCommand

end NpuDriver
