import Mathlib.Data.Nat.Digits.Defs
import NpuDriver.Library.DenseOrder
import NpuDriver.LevelZero.TensorLayout

/-! The reported layout of a dense tensor against its memory order. -/

namespace NpuDriver

open Library

/-- The axes that a layout names, the slowest first. -/
def ArgumentLayout.order : ArgumentLayout → List TensorAxis
  | .ANY => []
  | .NCHW => [.N, .C, .H, .W]
  | .NHWC => [.N, .H, .W, .C]
  | .NCDHW => [.N, .C, .D, .H, .W]
  | .NDHWC => [.N, .D, .H, .W, .C]
  | .C => [.C]
  | .CHW => [.C, .H, .W]
  | .NC => [.N, .C]
  | .CN => [.C, .N]

/-- The axes of a tensor with so many dimensions, as its order code and its strides count them. -/
def tensorAxes : Nat → List TensorAxis
  | 1 => [.C]
  | 2 => [.N, .C]
  | 3 => [.C, .H, .W]
  | 4 => [.N, .C, .H, .W]
  | 5 => [.N, .C, .D, .H, .W]
  | _ => []

/-- The order as hexadecimal digits, where the axes count from 1. -/
def orderCode (order : List TensorAxis) : Nat :=
  Nat.ofDigits 16 (order.reverse.map fun axis => (tensorAxes order.length).idxOf axis + 1)

/-- A dense tensor in a memory order that the compiler may or may not have recorded. -/
structure DenseTensor (tensor : TensorRef) (unit : Nat) (extent : TensorAxis → Nat) (order : List TensorAxis) :
    Prop where
  axes : order.Perm (tensorAxes order.length)
  sized : 0 < unit
  extents : ∀ axis ∈ order, 0 < extent axis
  strides : tensor.strides = unit :: (tensorAxes order.length).map (denseStride unit extent order)
  code : tensor.order = 0 ∨ tensor.order = orderCode order

variable {tensor : TensorRef} {unit : Nat} {extent : TensorAxis → Nat} {order : List TensorAxis}
  {layout : ArgumentLayout}

theorem tensorAxes_nodup (rank : Nat) : (tensorAxes rank).Nodup := by
  unfold tensorAxes
  split
  all_goals decide

theorem tensorAxes_length_le (rank : Nat) : (tensorAxes rank).length ≤ 5 := by
  unfold tensorAxes
  split
  all_goals decide

/-- The codes of the table are those of the orders that its layouts name. -/
theorem orderToLayout_code : ∀ entry ∈ orderToLayout,
    entry.1 = orderCode entry.2.order ∧ entry.2.order.Perm (tensorAxes entry.2.order.length) := by
  decide

theorem orderCode_digits (axes : order.Perm (tensorAxes order.length)) :
    (Nat.digits 16 (orderCode order)).map (fun digit => (tensorAxes order.length)[digit - 1]?) =
      order.reverse.map some := by
  rw [orderCode, Nat.digits_ofDigits 16 (by decide)]
  · rw [List.map_map]
    apply List.map_congr_left
    intro axis member
    have inside : axis ∈ tensorAxes order.length := axes.mem_iff.mp (List.mem_reverse.mp member)
    simp [List.getElem?_idxOf inside]
  · intro digit listed
    obtain ⟨axis, -, rfl⟩ := List.mem_map.mp listed
    have most := tensorAxes_length_le order.length
    have less := List.idxOf_le_length (l := tensorAxes order.length) (a := axis)
    omega
  · intro nonempty zero
    obtain ⟨axis, -, digit⟩ := List.mem_map.mp (List.getLast_mem nonempty)
    omega

theorem orderCode_injective {first second : List TensorAxis} (one : first.Perm (tensorAxes first.length))
    (two : second.Perm (tensorAxes second.length)) (same : orderCode first = orderCode second) : first = second := by
  have left := orderCode_digits one
  have right := orderCode_digits two
  have lengths : first.length = second.length := by
    have one' := congrArg List.length left
    have two' := congrArg List.length right
    rw [List.length_map, List.length_map, List.length_reverse] at one' two'
    rw [← one', ← two', same]
  rw [same, lengths] at left
  have equal := List.map_injective_iff.mpr (Option.some_injective _) (left.symm.trans right)
  exact List.reverse_injective equal

theorem maxElement_first (first second third fourth : Nat) :
    maxElement [first, second, third, fourth] = 0 ↔ second ≤ first ∧ third ≤ first ∧ fourth ≤ first := by
  simp only [maxElement, List.foldl_cons, List.foldl_nil, List.idxOf_cons, beq_iff_eq, cond_eq_ite]
  split
  · omega
  · omega

theorem maxElement_second (first second third fourth : Nat) :
    maxElement [first, second, third, fourth] = 1 ↔ first < second ∧ third ≤ second ∧ fourth ≤ second := by
  simp only [maxElement, List.foldl_cons, List.foldl_nil, List.idxOf_cons, beq_iff_eq, cond_eq_ite]
  split
  · omega
  · split
    · omega
    · omega

theorem computeLayoutFromStride_other {strides : List Nat} (four : strides.length ≠ 5) (five : strides.length ≠ 6) :
    computeLayoutFromStride strides = .ANY := by
  unfold computeLayoutFromStride
  split
  · exact absurd rfl five
  · exact absurd rfl four
  · rfl

section Strides

variable {stride : TensorAxis → Nat}

/-- Strides that do not grow along the axes of an order. -/
def Decreasing (stride : TensorAxis → Nat) (order : List TensorAxis) : Prop :=
  order.Pairwise fun outer inner => stride inner ≤ stride outer

/-- What is read off the strides of four dimensions is an order along which they decrease. -/
theorem decreasing_four (outer : ∀ axis ∈ tensorAxes 4, stride axis ≤ stride .N)
    (known : computeLayoutFromStride (unit :: (tensorAxes 4).map stride) ≠ .ANY) :
    (computeLayoutFromStride (unit :: (tensorAxes 4).map stride)).order.Perm (tensorAxes 4) ∧
      Decreasing stride (computeLayoutFromStride (unit :: (tensorAxes 4).map stride)).order := by
  have outerC := outer .C (by decide)
  have outerH := outer .H (by decide)
  have outerW := outer .W (by decide)
  simp only [tensorAxes, List.map_cons, List.map_nil, computeLayoutFromStride, Decreasing] at known ⊢
  split
  · refine ⟨by decide, ?_⟩
    simp [ArgumentLayout.order]
    omega
  · rename_i other
    rw [if_neg other] at known
    split
    · refine ⟨by decide, ?_⟩
      simp [ArgumentLayout.order]
      omega
    · rename_i neither
      rw [if_neg neither] at known
      exact absurd rfl known

theorem recognised_four (supported : order = ArgumentLayout.NCHW.order ∨ order = ArgumentLayout.NHWC.order)
    (decreasing : Decreasing stride order) :
    computeLayoutFromStride (unit :: (tensorAxes 4).map stride) ≠ .ANY := by
  simp only [tensorAxes, List.map_cons, List.map_nil, computeLayoutFromStride]
  rcases supported with rfl | rfl
  · simp [Decreasing, ArgumentLayout.order] at decreasing
    rw [if_pos (by omega)]
    decide
  · simp [Decreasing, ArgumentLayout.order] at decreasing
    split
    · decide
    · rw [if_pos (by omega)]
      decide

/-- With five dimensions only the greatest stride is looked at, which tells the two supported orders apart. -/
theorem decreasing_five (supported : order = ArgumentLayout.NCDHW.order ∨ order = ArgumentLayout.NDHWC.order)
    (decreasing : Decreasing stride order) :
    computeLayoutFromStride (unit :: (tensorAxes 5).map stride) ≠ .ANY ∧
      (computeLayoutFromStride (unit :: (tensorAxes 5).map stride)).order.Perm order ∧
        Decreasing stride (computeLayoutFromStride (unit :: (tensorAxes 5).map stride)).order := by
  simp only [tensorAxes, List.map_cons, List.map_nil, computeLayoutFromStride, maxElement_first, maxElement_second]
  have pairs := decreasing
  rcases supported with rfl | rfl
  · simp [Decreasing, ArgumentLayout.order] at pairs
    rw [if_pos (by omega)]
    exact ⟨by decide, .refl _, decreasing⟩
  · simp [Decreasing, ArgumentLayout.order] at pairs
    split
    · -- all strides are the same, and the two orders as good as each other
      refine ⟨by decide, by decide, ?_⟩
      simp [Decreasing, ArgumentLayout.order]
      omega
    · rename_i other
      rw [if_pos (by omega)]
      exact ⟨by decide, .refl _, decreasing⟩

end Strides

namespace DenseTensor

theorem nodup (dense : DenseTensor tensor unit extent order) : order.Nodup :=
  dense.axes.nodup_iff.mpr (tensorAxes_nodup _)

/-- A table entry for the recorded order names that order. -/
theorem layoutOfOrder (dense : DenseTensor tensor unit extent order) (recorded : tensor.order ≠ 0)
    (found : tensor.layoutOfOrder = some layout) : layout.order = order := by
  obtain ⟨entry, listed, rfl⟩ := Option.map_eq_some_iff.mp found
  have key : entry.1 = tensor.order := by simpa using List.find?_some listed
  obtain ⟨code, axes⟩ := orderToLayout_code entry (List.mem_of_find?_eq_some listed)
  exact orderCode_injective axes dense.axes (by rw [← code, key, dense.code.resolve_left recorded])

theorem decreasing (dense : DenseTensor tensor unit extent order) : Decreasing (denseStride unit extent order) order := by
  apply (denseStride_pairwise dense.nodup dense.extents).imp_of_mem
  intro outer inner _ member covers
  exact Nat.le_trans (Nat.le_mul_of_pos_right _ (dense.extents inner member)) covers

theorem strides_of_length (dense : DenseTensor tensor unit extent order) {rank : Nat} (length : order.length = rank) :
    tensor.strides = unit :: (tensorAxes rank).map (denseStride unit extent order) := by
  rw [dense.strides, length]

theorem outermost (dense : DenseTensor tensor unit extent order) (rank : order.length = 4)
    (outer : order.head? = some .N) :
    ∀ axis ∈ tensorAxes 4, denseStride unit extent order axis ≤ denseStride unit extent order .N := by
  intro axis member
  have present : axis ∈ order := dense.axes.mem_iff.mpr (rank ▸ member)
  have pairs := dense.decreasing
  obtain ⟨inner, rfl⟩ := List.head?_eq_some_iff.mp outer
  rcases List.mem_cons.mp present with rfl | behind
  · exact Nat.le_refl _
  · exact List.rel_of_pairwise_cons pairs behind

/-- The innermost stride is the one of an element, which no entry of the table repeats. -/
theorem networkLayout_unordered (dense : DenseTensor tensor unit extent order) (some : order ≠ [])
    (unknown : tensor.order = 0) : tensor.getNetworkLayout = .ANY := by
  have repeats : ∀ entry ∈ stridesToLayout, ∀ head ∈ entry.1.head?, head ∈ entry.1.tail → head = 0 := by decide
  obtain ⟨axis, member, innermost⟩ : ∃ axis ∈ order, denseStride unit extent order axis = unit :=
    exists_denseStride_unit dense.nodup some
  have inside : unit ∈ (tensorAxes order.length).map (denseStride unit extent order) :=
    List.mem_map.mpr ⟨axis, dense.axes.mem_iff.mp member, innermost⟩
  have absent : stridesToLayout.find? (fun entry => tensor.strides.isPrefixOf entry.1) = none := by
    apply List.find?_eq_none.mpr
    intro entry listed taken
    have small := repeats entry listed
    rw [dense.strides, List.isPrefixOf_iff_prefix] at taken
    cases shape : entry.1 with
    | nil =>
      rw [shape] at taken
      cases List.prefix_nil.mp taken
    | cons head tail =>
      rw [shape] at taken small
      obtain ⟨rfl, rest⟩ := List.cons_prefix_cons.mp taken
      exact Nat.ne_of_gt dense.sized (small unit rfl (rest.subset inside))
  rw [TensorRef.getNetworkLayout, if_neg (not_not.mpr unknown), if_neg, absent]
  · rfl
  · rw [dense.strides]
    exact List.cons_ne_nil _ _

/-- What the strides tell of a dense tensor agrees with its order in every axis of more than one index. -/
theorem squeezed_computed (dense : DenseTensor tensor unit extent order)
    (outer : order.length = 4 → order.head? = some .N)
    (supported : order.length = 5 → order = ArgumentLayout.NCDHW.order ∨ order = ArgumentLayout.NDHWC.order)
    (known : computeLayoutFromStride tensor.strides ≠ .ANY) :
    squeezed extent (computeLayoutFromStride tensor.strides).order = squeezed extent order := by
  by_cases four : order.length = 4
  · rw [dense.strides_of_length four] at known ⊢
    obtain ⟨perm, sorted⟩ := decreasing_four (dense.outermost four (outer four)) known
    have axes := dense.axes
    rw [four] at axes
    exact squeezed_eq_of_sorted dense.sized dense.nodup dense.extents (perm.trans axes.symm) sorted
  · by_cases five : order.length = 5
    · rw [dense.strides_of_length five]
      obtain ⟨-, perm, sorted⟩ := decreasing_five (supported five) dense.decreasing
      exact squeezed_eq_of_sorted dense.sized dense.nodup dense.extents perm sorted
    · have lengths : tensor.strides.length = order.length + 1 := by
        rw [dense.strides, List.length_cons, List.length_map, ← dense.axes.length_eq]
      refine absurd (computeLayoutFromStride_other ?_ ?_) known
      · omega
      · omega

theorem squeezed_reported (dense : DenseTensor tensor unit extent order) (nonempty : order ≠ [])
    (outer : order.length = 4 → order.head? = some .N)
    (supported : order.length = 5 → order = ArgumentLayout.NCDHW.order ∨ order = ArgumentLayout.NDHWC.order)
    (reported : layout ∈ [tensor.getDeviceLayout, tensor.getNetworkLayout]) (known : layout ≠ .ANY) :
    squeezed extent layout.order = squeezed extent order := by
  by_cases recorded : tensor.order = 0
  · have unordered := dense.networkLayout_unordered nonempty recorded
    have device : tensor.getDeviceLayout = computeLayoutFromStride tensor.strides := by
      rw [TensorRef.getDeviceLayout, if_neg (not_not.mpr recorded)]
    rw [unordered, device, List.mem_pair] at reported
    obtain rfl := reported.resolve_right known
    exact dense.squeezed_computed outer supported known
  · cases found : tensor.layoutOfOrder with
    | some named =>
      have same : layout = named := by
        simpa [TensorRef.getDeviceLayout, TensorRef.getNetworkLayout, recorded, found] using reported
      rw [same, dense.layoutOfOrder recorded found]
    | none =>
      simp only [TensorRef.getDeviceLayout, TensorRef.getNetworkLayout, recorded, found, ne_eq, not_false_eq_true,
        ↓reduceIte, Option.getD_none, List.mem_pair] at reported
      obtain rfl := reported.resolve_right known
      exact dense.squeezed_computed outer supported known

theorem recognised (dense : DenseTensor tensor unit extent order)
    (supported : order ∈ [ArgumentLayout.NCHW, .NHWC, .NCDHW, .NDHWC].map ArgumentLayout.order) :
    tensor.getDeviceLayout ≠ .ANY := by
  have computed : computeLayoutFromStride tensor.strides ≠ .ANY := by
    have shapes := supported
    simp only [List.map_cons, List.map_nil, List.mem_cons, List.not_mem_nil, or_false] at shapes
    rcases shapes with nchw | nhwc | ncdhw | ndhwc
    · rw [dense.strides_of_length (congrArg List.length nchw)]
      exact recognised_four (.inl nchw) dense.decreasing
    · rw [dense.strides_of_length (congrArg List.length nhwc)]
      exact recognised_four (.inr nhwc) dense.decreasing
    · rw [dense.strides_of_length (congrArg List.length ncdhw)]
      exact (decreasing_five (.inl ncdhw) dense.decreasing).1
    · rw [dense.strides_of_length (congrArg List.length ndhwc)]
      exact (decreasing_five (.inr ndhwc) dense.decreasing).1
  unfold TensorRef.getDeviceLayout
  split
  · rename_i recorded
    cases found : tensor.layoutOfOrder with
    | none => exact computed
    | some named =>
      rintro rfl
      have empty := dense.layoutOfOrder recorded found
      rw [← empty] at supported
      revert supported
      decide
  · exact computed

end DenseTensor

/-- The device and the network layout of a dense tensor place every element where the tensor has it. None of the four
orders that strides are checked for goes unnoticed on the device. -/
theorem reported_layouts (dense : DenseTensor tensor unit extent order) (nonempty : order ≠ [])
    (outer : order.length = 4 → order.head? = some .N)
    (supported : order.length = 5 → order = ArgumentLayout.NCDHW.order ∨ order = ArgumentLayout.NDHWC.order) :
    (∀ layout ∈ [tensor.getDeviceLayout, tensor.getNetworkLayout], layout ≠ .ANY →
      ∀ index, (∀ axis ∈ order, index axis < extent axis) →
        denseAddress (denseStride unit extent order) order index =
          denseAddress (denseStride unit extent layout.order) order index) ∧
      (order ∈ [ArgumentLayout.NCHW, .NHWC, .NCDHW, .NDHWC].map ArgumentLayout.order →
        tensor.getDeviceLayout ≠ .ANY) := by
  refine ⟨fun layout reported known index inside => ?_, dense.recognised⟩
  exact denseAddress_squeezed (dense.squeezed_reported nonempty outer supported reported known).symm inside

/-- A picture of four rows and five columns with three bytes a pixel. -/
def pictureExtent : TensorAxis → Nat
  | .N => 1
  | .C => 3
  | .H => 4
  | .W => 5
  | .D => 1

def pictureTensor : TensorRef := ⟨0, [1, 60, 1, 15, 3]⟩

theorem reported_layouts_picture :
    (∀ layout ∈ [pictureTensor.getDeviceLayout, pictureTensor.getNetworkLayout], layout ≠ .ANY →
      ∀ index, (∀ axis ∈ [TensorAxis.N, .H, .W, .C], index axis < pictureExtent axis) →
        denseAddress (denseStride 1 pictureExtent [.N, .H, .W, .C]) [.N, .H, .W, .C] index =
          denseAddress (denseStride 1 pictureExtent layout.order) [.N, .H, .W, .C] index) ∧
      ([TensorAxis.N, .H, .W, .C] ∈ [ArgumentLayout.NCHW, .NHWC, .NCDHW, .NDHWC].map ArgumentLayout.order →
        pictureTensor.getDeviceLayout ≠ .ANY) :=
  reported_layouts ⟨by decide, by decide, by decide, by decide, .inl rfl⟩ (by decide) (by decide) (by decide)

/-- In an order that is not supported, five dimensions are reported wrongly: the columns are taken for rows. -/
example : computeLayoutFromStride [1, 24, 24, 12, 1, 4] = .NCDHW ∧
    [1, 24, 24, 12, 1, 4] = 1 :: (tensorAxes 5).map
      (denseStride 1 (fun axis => if axis = .H then 4 else if axis = .W then 3 else if axis = .D then 2 else 1)
        [.N, .C, .D, .W, .H]) := by decide

end NpuDriver
