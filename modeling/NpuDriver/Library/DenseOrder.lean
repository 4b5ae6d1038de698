import Mathlib

/-! Dense tensors: the strides of an order of the axes, and which orders put each element at the same address. -/

namespace NpuDriver.Library

variable {Axis : Type} [DecidableEq Axis]

/-- The stride of an axis of a dense tensor. The axes behind it in the order vary faster. -/
def denseStride (unit : Nat) (extent : Axis → Nat) : List Axis → Axis → Nat
  | [], _ => 0
  | outer :: inner, axis => if axis = outer then unit * (inner.map extent).prod else denseStride unit extent inner axis

/-- Where an element of a tensor lies. -/
def denseAddress (stride : Axis → Nat) (axes : List Axis) (index : Axis → Nat) : Nat :=
  (axes.map fun axis => index axis * stride axis).sum

/-- The axes that have more than one index. -/
def squeezed (extent : Axis → Nat) (order : List Axis) : List Axis :=
  order.filter fun axis => extent axis ≠ 1

variable {unit : Nat} {extent : Axis → Nat} {order : List Axis} {axis : Axis}

omit [DecidableEq Axis] in
theorem mem_squeezed : axis ∈ squeezed extent order ↔ axis ∈ order ∧ extent axis ≠ 1 := by
  rw [squeezed, List.mem_filter, decide_eq_true_iff]

omit [DecidableEq Axis] in
theorem squeezed_single {outer : Axis} (single : extent outer = 1) (inner : List Axis) :
    squeezed extent (outer :: inner) = squeezed extent inner :=
  List.filter_cons_of_neg (by simpa using single)

omit [DecidableEq Axis] in
theorem squeezed_wide {outer : Axis} (wide : extent outer ≠ 1) (inner : List Axis) :
    squeezed extent (outer :: inner) = outer :: squeezed extent inner :=
  List.filter_cons_of_pos (by simpa using wide)

omit [DecidableEq Axis] in
theorem prod_squeezed (extent : Axis → Nat) (order : List Axis) :
    ((squeezed extent order).map extent).prod = (order.map extent).prod := by
  induction order with
  | nil => rfl
  | cons outer inner ih =>
    by_cases single : extent outer = 1
    · rw [squeezed_single single, ih, List.map_cons, List.prod_cons, single, Nat.one_mul]
    · rw [squeezed_wide single, List.map_cons, List.prod_cons, ih, List.map_cons, List.prod_cons]

theorem denseStride_squeezed (order : List Axis) (wide : extent axis ≠ 1) :
    denseStride unit extent (squeezed extent order) axis = denseStride unit extent order axis := by
  induction order with
  | nil => rfl
  | cons outer inner ih =>
    by_cases single : extent outer = 1
    · have other : axis ≠ outer := fun same => wide (same ▸ single)
      rw [squeezed_single single, ih, denseStride, if_neg other]
    · rw [squeezed_wide single, denseStride, denseStride, ih, prod_squeezed]

/-- An axis with one index has no part in an address. -/
theorem denseAddress_squeezed {first second axes : List Axis} (same : squeezed extent first = squeezed extent second)
    {index : Axis → Nat} (inside : ∀ axis ∈ axes, index axis < extent axis) :
    denseAddress (denseStride unit extent first) axes index =
      denseAddress (denseStride unit extent second) axes index := by
  unfold denseAddress
  congr 1
  apply List.map_congr_left
  intro axis member
  by_cases single : extent axis = 1
  · have zero : index axis = 0 := by
      have less := inside axis member
      omega
    rw [zero, Nat.zero_mul, Nat.zero_mul]
  · rw [← denseStride_squeezed first single, same, denseStride_squeezed second single]

theorem denseStride_le (positive : ∀ axis ∈ order, 0 < extent axis) (member : axis ∈ order) :
    denseStride unit extent order axis * extent axis ≤ unit * (order.map extent).prod := by
  induction order with
  | nil => cases member
  | cons outer inner ih =>
    rw [List.map_cons, List.prod_cons, denseStride]
    split
    · rename_i same
      exact Nat.le_of_eq (by rw [same, Nat.mul_comm (extent outer), Nat.mul_assoc])
    · rename_i other
      have tail := ih (fun axis inside => positive axis (List.mem_cons_of_mem _ inside))
        ((List.mem_cons.mp member).resolve_left other)
      have more : (inner.map extent).prod ≤ extent outer * (inner.map extent).prod :=
        Nat.le_mul_of_pos_left _ (positive outer List.mem_cons_self)
      exact Nat.le_trans tail (Nat.mul_le_mul_left unit more)

theorem denseStride_pos (positive : ∀ axis ∈ order, 0 < extent axis) (some : 0 < unit) (member : axis ∈ order) :
    0 < denseStride unit extent order axis := by
  induction order with
  | nil => cases member
  | cons outer inner ih =>
    have inside : ∀ axis ∈ inner, 0 < extent axis := fun axis inside => positive axis (List.mem_cons_of_mem _ inside)
    rw [denseStride]
    split
    · apply Nat.mul_pos some
      apply List.prod_pos_iff_forall_pos_nat.mpr
      intro value listed
      obtain ⟨axis, present, rfl⟩ := List.mem_map.mp listed
      exact inside axis present
    · rename_i other
      exact ih inside ((List.mem_cons.mp member).resolve_left other)

/-- A step along an axis covers the whole of each axis behind it. -/
theorem denseStride_pairwise (distinct : order.Nodup) (positive : ∀ axis ∈ order, 0 < extent axis) :
    order.Pairwise fun outer inner =>
      denseStride unit extent order inner * extent inner ≤ denseStride unit extent order outer := by
  induction order with
  | nil => exact .nil
  | cons first rest ih =>
    obtain ⟨absent, others⟩ := List.nodup_cons.mp distinct
    have inside : ∀ axis ∈ rest, 0 < extent axis := fun axis inside => positive axis (List.mem_cons_of_mem _ inside)
    have kept : ∀ axis ∈ rest, denseStride unit extent (first :: rest) axis = denseStride unit extent rest axis := by
      intro axis member
      rw [denseStride, if_neg]
      exact fun same => absent (same ▸ member)
    refine List.pairwise_cons.mpr ⟨?_, ?_⟩
    · intro inner member
      rw [kept inner member, denseStride, if_pos rfl]
      exact denseStride_le inside member
    · apply (ih others inside).imp_of_mem
      intro outer inner outside within covers
      rw [kept outer outside, kept inner within]
      exact covers

/-- The innermost axis has the stride of an element. -/
theorem exists_denseStride_unit (distinct : order.Nodup) (some : order ≠ []) :
    ∃ axis ∈ order, denseStride unit extent order axis = unit := by
  induction order with
  | nil => exact absurd rfl some
  | cons outer inner ih =>
    obtain ⟨absent, others⟩ := List.nodup_cons.mp distinct
    by_cases single : inner = []
    · refine ⟨outer, List.mem_cons_self, ?_⟩
      rw [denseStride, if_pos rfl, single, List.map_nil, List.prod_nil, Nat.mul_one]
    · obtain ⟨axis, member, same⟩ := ih others single
      have other : axis ≠ outer := fun equal => absent (equal ▸ member)
      exact ⟨axis, List.mem_cons_of_mem _ member, by rw [denseStride, if_neg other, same]⟩

/-- The order of the axes with more than one index can be read off the strides. -/
theorem squeezed_eq_of_sorted (some : 0 < unit) (distinct : order.Nodup) (positive : ∀ axis ∈ order, 0 < extent axis)
    {sorted : List Axis} (perm : sorted.Perm order)
    (decreasing : sorted.Pairwise fun outer inner =>
      denseStride unit extent order inner ≤ denseStride unit extent order outer) :
    squeezed extent sorted = squeezed extent order := by
  have strict : (squeezed extent order).Pairwise fun outer inner =>
      denseStride unit extent order inner < denseStride unit extent order outer := by
    have covering : order.Pairwise fun outer inner =>
        denseStride unit extent order inner * extent inner ≤ denseStride unit extent order outer :=
      denseStride_pairwise distinct positive
    apply (covering.sublist List.filter_sublist).imp_of_mem
    intro outer inner _ member covers
    obtain ⟨listed, wide⟩ := mem_squeezed.mp member
    have extended := positive inner listed
    have here := denseStride_pos positive some listed
    have more := Nat.mul_lt_mul_of_pos_left (show 1 < extent inner by omega) here
    omega
  have strides : ((squeezed extent order).map (denseStride unit extent order)).Nodup :=
    List.pairwise_map.mpr (strict.imp fun less => (Nat.ne_of_lt less).symm)
  apply List.Perm.eq_of_pairwise _ (decreasing.sublist List.filter_sublist) (strict.imp Nat.le_of_lt) (perm.filter _)
  intro first second member listed below above
  exact List.inj_on_of_nodup_map strides ((perm.filter _).mem_iff.mp member) listed (Nat.le_antisymm above below)

end NpuDriver.Library
