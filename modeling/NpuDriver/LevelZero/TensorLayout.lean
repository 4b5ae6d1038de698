/-! The layouts that a graph reports for its tensors. -/

namespace NpuDriver

/-- The dimensions of tensors, in the order in which `DIM_N` to `DIM_D` count them. -/
inductive TensorAxis where
  | N | C | H | W | D
deriving DecidableEq, Repr

/-- `ze_graph_argument_layout_t`. -/
inductive ArgumentLayout where
  | ANY | NCHW | NHWC | NCDHW | NDHWC | C | CHW | NC | CN
deriving DecidableEq, Repr

/-- The part of `elf::TensorRef` that the layout depends on. An `order` of 0 is an unknown one, and the first stride
is the size of an element. -/
structure TensorRef where
  order : Nat
  strides : List Nat
deriving DecidableEq, Repr

def orderToLayout : List (Nat × ArgumentLayout) :=
  [(0x1, .C), (0x12, .NC), (0x21, .CN), (0x123, .CHW), (0x1234, .NCHW), (0x1342, .NHWC), (0x12345, .NCDHW),
    (0x13452, .NDHWC)]

def DIM_N : Nat := 0
def DIM_C : Nat := 1
def DIM_H : Nat := 2
def DIM_W : Nat := 3
def DIM_D : Nat := 4

/-- Each array has five entries; those that are not given are 0. -/
def stridesToLayout : List (List Nat × ArgumentLayout) :=
  [([DIM_C, 0, 0, 0, 0], .C), ([DIM_N, DIM_C, 0, 0, 0], .NC), ([DIM_C, DIM_H, DIM_W, 0, 0], .CHW),
    ([DIM_N, DIM_C, DIM_H, DIM_W, 0], .NCHW), ([DIM_N, DIM_H, DIM_W, DIM_C, 0], .NHWC),
    ([DIM_N, DIM_C, DIM_D, DIM_H, DIM_W], .NCDHW), ([DIM_N, DIM_D, DIM_H, DIM_W, DIM_C], .NDHWC)]

/-- `std::max_element`: the position of the first of the greatest values. -/
def maxElement (values : List Nat) : Nat := values.idxOf (values.foldl max 0)

def computeLayoutFromStride : List Nat → ArgumentLayout
  | [_, _, strideC, strideD, strideH, strideW] =>
    let maxStrideIndex := maxElement [strideC, strideD, strideH, strideW]
    if maxStrideIndex = 0 then .NCDHW
    else if maxStrideIndex = 1 then .NDHWC
    else .ANY
  | [_, _, strideC, strideH, strideW] =>
    let maxStrideVal := max strideC (max strideH strideW)
    if maxStrideVal = strideC ∧ strideH ≥ strideW then .NCHW
    else if maxStrideVal = strideH ∧ strideW ≥ strideC then .NHWC
    else .ANY
  | _ => .ANY

namespace TensorRef

def layoutOfOrder (tensor : TensorRef) : Option ArgumentLayout :=
  (orderToLayout.find? fun entry => entry.1 = tensor.order).map Prod.snd

/-- The strides are compared as far as there are any. -/
def getNetworkLayout (tensor : TensorRef) : ArgumentLayout :=
  if tensor.order ≠ 0 then tensor.layoutOfOrder.getD .ANY
  else if tensor.strides = [] then .ANY
  else ((stridesToLayout.find? fun entry => tensor.strides.isPrefixOf entry.1).map Prod.snd).getD .ANY

def getDeviceLayout (tensor : TensorRef) : ArgumentLayout :=
  if tensor.order ≠ 0 then tensor.layoutOfOrder.getD (computeLayoutFromStride tensor.strides)
  else computeLayoutFromStride tensor.strides

end TensorRef

end NpuDriver
