import NpuDriver.LevelZero.MetricValues

/-! When the values of a metric group are the fields of its samples. -/

namespace NpuDriver.MetricGroup

open Library ZeResult

/-- The offset of a value in the raw data: whole samples, then the metrics of its sample before it. -/
def fieldOffset (group : MetricGroup) (index : Nat) : Nat :=
  index / group.metrics.length * group.allocationSize +
    ((group.metrics.take (index % group.metrics.length)).map ZetValueType.width).sum

/-- How far the loop moves for each value. -/
def stride (group : MetricGroup) : Nat := group.allocationSize / group.metrics.length

/-- The type of a value; that of an unknown metric is of no size. -/
def typeAt (group : MetricGroup) (index : Nat) : ZetValueType :=
  (group.metrics[index % group.metrics.length]?).getD .ZET_VALUE_TYPE_FORCE_UINT32

/-- The raw field at an offset. -/
def field (rawData : List UInt8) (offset width : Nat) : Nat := fromLittleEndian ((rawData.drop offset).take width)

/-- The values of all whole samples. -/
def available (group : MetricGroup) (rawDataSize : Nat) : Nat :=
  rawDataSize / group.allocationSize * group.metrics.length

theorem fromLittleEndian_lt (bytes : List UInt8) : fromLittleEndian bytes < 256 ^ bytes.length := by
  induction bytes with
  | nil => simp [fromLittleEndian]
  | cons byte rest ih =>
    have small := byte.toNat_lt
    rw [fromLittleEndian, List.length_cons, Nat.pow_succ]
    omega

theorem field_lt (rawData : List UInt8) (offset width : Nat) : field rawData offset width < 256 ^ width := by
  have bounded := fromLittleEndian_lt ((rawData.drop offset).take width)
  refine Nat.lt_of_lt_of_le bounded (Nat.pow_le_pow_right (by decide) ?_)
  simp

theorem metric_at {group : MetricGroup} (nonempty : group.metrics ≠ []) (index : Nat) :
    group.metrics[index % group.metrics.length]? = some (group.typeAt index) := by
  have inside : index % group.metrics.length < group.metrics.length :=
    Nat.mod_lt index (List.length_pos_of_ne_nil nonempty)
  rw [typeAt, List.getElem?_eq_getElem inside]
  rfl

/-- The value that the loop writes. -/
def written (group : MetricGroup) (rawData : List UInt8) (metricValues : Nat → TypedValue) (index : Nat) :
    TypedValue :=
  (metricValues index).write (group.typeAt index)
    (field rawData (index * group.stride) (group.typeAt index).width)

/-- The field that the loop reads for a value lies inside the raw data. -/
def Inside (group : MetricGroup) (rawDataSize index : Nat) : Prop :=
  index * group.stride + (group.typeAt index).width ≤ rawDataSize

instance (group : MetricGroup) (rawDataSize index : Nat) : Decidable (group.Inside rawDataSize index) :=
  inferInstanceAs (Decidable (_ ≤ _))

/-- All metrics have a size. -/
def Known (group : MetricGroup) : Prop := ∀ type ∈ group.metrics, type.width ≠ 0

theorem Known.typeAt {group : MetricGroup} (known : group.Known) (nonempty : group.metrics ≠ []) (index : Nat) :
    (group.typeAt index).width ≠ 0 :=
  known _ (List.mem_of_getElem? (metric_at nonempty index))

theorem stride_next (group : MetricGroup) (index : Nat) :
    index * group.stride + group.allocationSize / group.metrics.length = (index + 1) * group.stride := by
  rw [Nat.succ_mul]
  rfl

theorem calculateEach_inside {group : MetricGroup} (nonempty : group.metrics ≠ []) {rawData : List UInt8}
    {left index : Nat} (inside : ∀ other, index ≤ other → other < index + left → group.Inside rawData.length other)
    (metricValues : Nat → TypedValue) :
    group.calculateEach rawData left index (index * group.stride) metricValues =
      .ok fun other => if index ≤ other ∧ other < index + left then group.written rawData metricValues other
        else metricValues other := by
  induction left generalizing index metricValues with
  | zero =>
    rw [calculateEach]
    congr 1
    funext other
    rw [if_neg (by omega)]
  | succ left ih =>
    have here : group.Inside rawData.length index := inside index (Nat.le_refl _) (by omega)
    rw [calculateEach, metric_at nonempty]
    simp only [readRaw, Inside] at here ⊢
    rw [if_pos (.inr here)]
    simp only
    rw [stride_next, ih (fun other above below => inside other (by omega) (by omega))]
    congr 1
    funext other
    by_cases same : other = index
    · subst same
      simp [written, field]
    · rw [Function.update_of_ne same]
      have range : index + 1 ≤ other ∧ other < index + 1 + left ↔ index ≤ other ∧ other < index + (left + 1) := by
        omega
      simp only [range, written, Function.update_of_ne same]

/-- When the loop ends well, all fields it has read lie inside the raw data. -/
theorem calculateEach_ok {group : MetricGroup} (nonempty : group.metrics ≠ []) (known : group.Known)
    {rawData : List UInt8} {left index : Nat} {metricValues result : Nat → TypedValue}
    (ok : group.calculateEach rawData left index (index * group.stride) metricValues = .ok result) :
    ∀ other, index ≤ other → other < index + left → group.Inside rawData.length other := by
  induction left generalizing index metricValues with
  | zero => omega
  | succ left ih =>
    rw [calculateEach, metric_at nonempty] at ok
    simp only [readRaw] at ok
    by_cases here : (group.typeAt index).width = 0 ∨
        index * group.stride + (group.typeAt index).width ≤ rawData.length
    · rw [if_pos here, stride_next] at ok
      intro other above below
      by_cases same : other = index
      · subst same
        exact here.resolve_left (known.typeAt nonempty other)
      · exact ih ok other (by omega) (by omega)
    · rw [if_neg here] at ok
      cases ok

/-- The size of the first metrics of a sample. -/
def sizeBefore (group : MetricGroup) (metric : Nat) : Nat :=
  ((group.metrics.take metric).map ZetValueType.width).sum

theorem sizeBefore_all (group : MetricGroup) : group.sizeBefore group.metrics.length = group.allocationSize := by
  rw [sizeBefore, List.take_length, group.summed]

theorem sizeBefore_succ {group : MetricGroup} {metric : Nat} {type : ZetValueType}
    (present : group.metrics[metric]? = some type) :
    group.sizeBefore (metric + 1) = group.sizeBefore metric + type.width := by
  rw [sizeBefore, List.take_add_one, present]
  simp [sizeBefore]

theorem sizeBefore_le (group : MetricGroup) (metric : Nat) : group.sizeBefore metric ≤ group.allocationSize := by
  have parts := congrArg (fun metrics => (metrics.map ZetValueType.width).sum)
    (List.take_append_drop metric group.metrics)
  simp only [List.map_append, List.sum_append] at parts
  rw [group.summed, sizeBefore]
  omega

theorem fieldOffset_eq (group : MetricGroup) (index : Nat) : group.fieldOffset index =
    index / group.metrics.length * group.allocationSize + group.sizeBefore (index % group.metrics.length) := rfl

/-- In the first sample the offset is what the metrics before take up. -/
theorem fieldOffset_first {group : MetricGroup} (nonempty : group.metrics ≠ []) {index : Nat}
    (first : index ≤ group.metrics.length) : group.fieldOffset index = group.sizeBefore index := by
  have positive := List.length_pos_of_ne_nil nonempty
  rw [fieldOffset_eq]
  by_cases last : index = group.metrics.length
  · subst last
    rw [Nat.div_self positive, Nat.mod_self, sizeBefore_all]
    simp [sizeBefore]
  · have inside : index < group.metrics.length := by omega
    simp [Nat.div_eq_of_lt inside, Nat.mod_eq_of_lt inside]

/-- The field of a value that is counted lies inside the raw data. -/
theorem fieldOffset_inside {group : MetricGroup} (nonempty : group.metrics ≠ []) {rawDataSize index : Nat}
    (counted : index < group.available rawDataSize) :
    group.fieldOffset index + (group.typeAt index).width ≤ rawDataSize := by
  have sample : index / group.metrics.length < rawDataSize / group.allocationSize :=
    Nat.div_lt_of_lt_mul (Nat.mul_comm .. ▸ counted)
  have whole := sizeBefore_le group (index % group.metrics.length + 1)
  rw [sizeBefore_succ (metric_at nonempty index)] at whole
  calc group.fieldOffset index + (group.typeAt index).width
      ≤ index / group.metrics.length * group.allocationSize + group.allocationSize := by
        rw [fieldOffset_eq]
        omega
    _ = (index / group.metrics.length + 1) * group.allocationSize := by rw [Nat.succ_mul]
    _ ≤ rawDataSize / group.allocationSize * group.allocationSize := Nat.mul_le_mul_right _ sample
    _ ≤ rawDataSize := Nat.div_mul_le_self ..

/-- The first metrics of a sample, as far as their values are followed by others, have the size that the loop
moves by. -/
def Even (group : MetricGroup) (count : Nat) : Prop :=
  ∀ metric type, group.metrics[metric]? = some type → metric + 1 < count → type.width = group.stride

theorem Even.sizeBefore {group : MetricGroup} {count : Nat} (even : group.Even count) {metric : Nat}
    (below : metric < count) (inside : metric ≤ group.metrics.length) :
    group.sizeBefore metric = metric * group.stride := by
  induction metric with
  | zero => simp [MetricGroup.sizeBefore]
  | succ metric ih =>
    have present := List.getElem?_eq_getElem (Nat.lt_of_succ_le inside)
    rw [sizeBefore_succ present, ih (by omega) (by omega), even metric _ present below, Nat.succ_mul]

/-- The loop is at the fields of all the values that it writes exactly when these metrics have one size. -/
theorem stride_fields {group : MetricGroup} (nonempty : group.metrics ≠ []) (count : Nat) :
    (∀ index < count, index * group.stride = group.fieldOffset index) ↔ group.Even count := by
  constructor
  · intro fields metric type present below
    obtain ⟨inside, -⟩ := List.getElem?_eq_some_iff.mp present
    have here := fields metric (by omega)
    have next := fields (metric + 1) below
    rw [fieldOffset_first nonempty (by omega)] at here next
    rw [sizeBefore_succ present, ← here, Nat.succ_mul] at next
    omega
  · intro even index below
    by_cases first : index ≤ group.metrics.length
    · rw [fieldOffset_first nonempty first, even.sizeBefore below first]
    · have positive := List.length_pos_of_ne_nil nonempty
      have rest := Nat.mod_lt index positive
      have whole := @Even.sizeBefore group count even group.metrics.length (by omega) (Nat.le_refl _)
      rw [sizeBefore_all] at whole
      rw [fieldOffset_eq, even.sizeBefore (by omega) rest.le, whole, ← Nat.mul_assoc, ← Nat.add_mul,
        Nat.div_add_mod' index group.metrics.length]

theorem field_first {rawData : List UInt8} {offset width : Nat} (some_bytes : width ≠ 0)
    (inside : offset < rawData.length) : field rawData offset width % 256 = (rawData[offset]).toNat := by
  obtain ⟨rest, rfl⟩ := Nat.exists_eq_succ_of_ne_zero some_bytes
  rw [field, List.drop_eq_getElem_cons inside, List.take_succ_cons, fromLittleEndian]
  have small := (rawData[offset]).toNat_lt
  omega

/-- Fields that are the same in all raw data of a size are at the same offset. -/
theorem field_offset_unique {rawDataSize offset other width : Nat} (some_bytes : width ≠ 0)
    (inside : offset < rawDataSize) (otherInside : other < rawDataSize)
    (same : ∀ rawData : List UInt8, rawData.length = rawDataSize →
      field rawData offset width = field rawData other width) : offset = other := by
  let marked := (List.replicate rawDataSize (0 : UInt8)).set other 1
  have length : marked.length = rawDataSize := by simp [marked]
  have fields := congrArg (· % 256) (same marked length)
  simp only [field_first some_bytes (length ▸ inside), field_first some_bytes (length ▸ otherInside)] at fields
  by_contra different
  simp [marked, List.getElem_set_of_ne (Ne.symm different)] at fields

/-- A call is answered with the number of values that there are, or with as many of them as asked for: each has
the type of its metric and the field of its sample. -/
def Decodes (group : MetricGroup) (rawData : List UInt8) (metricValueCount : Nat)
    (metricValues : Nat → TypedValue) : Prop :=
  if metricValueCount = 0 then
    group.calculateMetricValues rawData metricValueCount metricValues =
      .ok (ZE_RESULT_SUCCESS, group.available rawData.length, metricValues)
  else
    ∃ values, group.calculateMetricValues rawData metricValueCount metricValues =
        .ok (ZE_RESULT_SUCCESS, min metricValueCount (group.available rawData.length), values) ∧
      ∀ index, if index < min metricValueCount (group.available rawData.length) then
          (values index).type = group.typeAt index ∧
            (values index).read (group.typeAt index) =
              field rawData (group.fieldOffset index) (group.typeAt index).width
        else values index = metricValues index

/-- When a call decodes: the group has metrics, their number and that of the values are not cut off, and the
metrics before a value have the size that the loop moves by. -/
structure Decodable (group : MetricGroup) (rawDataSize metricValueCount : Nat) : Prop where
  nonempty : group.metrics ≠ []
  metricCount : group.metrics.length ≤ UINT32_MAX
  uncut : group.available rawDataSize < 2 ^ 32 ∨
    metricValueCount ≠ 0 ∧ metricValueCount ≤ group.available rawDataSize % 2 ^ 32
  even : group.Even (min metricValueCount (group.available rawDataSize))

theorem loaded_known {counters : List CounterValueType} (known : .VALUE_TYPE_MAX ∉ counters) :
    (loadMetricGroupsInfo counters).Known := by
  intro type member
  obtain ⟨counter, present, rfl⟩ := List.mem_map.mp member
  cases counter with
  | VALUE_TYPE_MAX => exact absurd present known
  | _ => decide

theorem length_le_sum {metrics : List ZetValueType} (known : ∀ type ∈ metrics, type.width ≠ 0) :
    metrics.length ≤ (metrics.map ZetValueType.width).sum := by
  induction metrics with
  | nil => simp
  | cons type rest ih =>
    obtain ⟨here, later⟩ := List.forall_mem_cons.mp known
    have shorter := ih later
    simp only [List.map_cons, List.sum_cons, List.length_cons]
    omega

theorem Known.length_le {group : MetricGroup} (known : group.Known) :
    group.metrics.length ≤ group.allocationSize := by
  rw [group.summed]
  exact length_le_sum known

/-- There are at most as many values as bytes. -/
theorem Known.available_le {group : MetricGroup} (known : group.Known) (rawDataSize : Nat) :
    group.available rawDataSize ≤ rawDataSize :=
  calc group.available rawDataSize ≤ rawDataSize / group.allocationSize * group.allocationSize :=
        Nat.mul_le_mul_left _ known.length_le
    _ ≤ rawDataSize := Nat.div_mul_le_self ..

theorem Known.allocation {group : MetricGroup} (known : group.Known) :
    group.allocationSize = 0 ↔ group.metrics = [] := by
  constructor
  · intro zero
    have none_left := known.length_le
    rw [zero] at none_left
    exact List.length_eq_zero_iff.mp (Nat.le_zero.mp none_left)
  · intro empty
    rw [group.summed, empty]
    rfl

/-- A call on a group with metrics whose number is not cut off. -/
theorem calculateMetricValues_eq {group : MetricGroup} (known : group.Known) (nonempty : group.metrics ≠ [])
    (metricCount : group.metrics.length ≤ UINT32_MAX) {rawData : List UInt8} (sized : rawData.length < 2 ^ 64)
    (metricValueCount : Nat) (metricValues : Nat → TypedValue) :
    group.calculateMetricValues rawData metricValueCount metricValues =
      if metricValueCount = 0 then
        .ok (ZE_RESULT_SUCCESS, group.available rawData.length % 2 ^ 32, metricValues)
      else
        match group.calculateEach rawData (min metricValueCount (group.available rawData.length % 2 ^ 32)) 0
          (0 * group.stride) metricValues with
        | .error fault => .error fault
        | .ok values =>
          .ok (ZE_RESULT_SUCCESS, min metricValueCount (group.available rawData.length % 2 ^ 32), values) := by
  have positive : group.allocationSize ≠ 0 := fun zero => nonempty (known.allocation.mp zero)
  have cast := safeCastU32_of_le metricCount
  have small : group.available rawData.length % 2 ^ 64 = group.available rawData.length :=
    Nat.mod_eq_of_lt (Nat.lt_of_le_of_lt (known.available_le _) sized)
  unfold available at small ⊢
  rw [Nat.zero_mul]
  cases loop : group.calculateEach rawData (min metricValueCount
    (rawData.length / group.allocationSize * group.metrics.length % 2 ^ 32)) 0 0 metricValues <;>
    simp only [calculateMetricValues, positive, ↓reduceIte, cast, small, loop]

theorem written_read (group : MetricGroup) (rawData : List UInt8) (metricValues : Nat → TypedValue) (index : Nat) :
    (group.written rawData metricValues index).read (group.typeAt index) =
      field rawData (index * group.stride) (group.typeAt index).width :=
  TypedValue.read_write _ _ (field_lt ..)

/-- What is left of the caller's count and the number of values, when that is cut off to 32 bits. -/
theorem min_uncut {count available : Nat} (small : count < 2 ^ 32) (nonzero : count ≠ 0) :
    min count (available % 2 ^ 32) = min count available ↔
      available < 2 ^ 32 ∨ count ≠ 0 ∧ count ≤ available % 2 ^ 32 := by
  omega

/-- A call decodes when nothing is cut off and the loop reads the right fields. -/
theorem decodes_iff {group : MetricGroup} (known : group.Known) (nonempty : group.metrics ≠ [])
    (metricCount : group.metrics.length ≤ UINT32_MAX) {rawData : List UInt8} (sized : rawData.length < 2 ^ 64)
    {metricValueCount : Nat} (counted : metricValueCount < 2 ^ 32) (metricValues : Nat → TypedValue) :
    group.Decodes rawData metricValueCount metricValues ↔
      (group.available rawData.length < 2 ^ 32 ∨
        metricValueCount ≠ 0 ∧ metricValueCount ≤ group.available rawData.length % 2 ^ 32) ∧
      ∀ index < min metricValueCount (group.available rawData.length),
        group.Inside rawData.length index ∧
          field rawData (index * group.stride) (group.typeAt index).width =
            field rawData (group.fieldOffset index) (group.typeAt index).width := by
  unfold Decodes
  rw [calculateMetricValues_eq known nonempty metricCount sized]
  by_cases asked : metricValueCount = 0
  · subst asked
    simp
  · rw [if_neg asked, if_neg asked]
    constructor
    · rintro ⟨values, answer, each⟩
      cases loop : group.calculateEach rawData
        (min metricValueCount (group.available rawData.length % 2 ^ 32)) 0 (0 * group.stride) metricValues with
      | error fault =>
        rw [loop] at answer
        cases answer
      | ok result =>
        rw [loop] at answer
        have parts := congrArg Prod.snd (Except.ok.inj answer)
        have count := congrArg Prod.fst parts
        obtain rfl : result = values := congrArg Prod.snd parts
        simp only at count
        refine ⟨(min_uncut counted asked).mp count, ?_⟩
        intro index below
        rw [count] at loop
        have inside := calculateEach_ok nonempty known loop
        rw [calculateEach_inside nonempty inside] at loop
        refine ⟨inside index (Nat.zero_le _) (by omega), ?_⟩
        have wanted := each index
        rw [if_pos below, ← congrFun (Except.ok.inj loop) index, if_pos (by omega), written_read] at wanted
        exact wanted.2
    · rintro ⟨uncut, fields⟩
      have count := (min_uncut counted asked).mpr uncut
      have inside : ∀ other, 0 ≤ other → other < 0 + min metricValueCount (group.available rawData.length) →
          group.Inside rawData.length other := fun other _ below => (fields other (by omega)).1
      rw [count, calculateEach_inside nonempty inside]
      refine ⟨_, rfl, ?_⟩
      intro index
      by_cases below : index < min metricValueCount (group.available rawData.length)
      · rw [if_pos below, if_pos (by omega), written_read]
        exact ⟨rfl, (fields index below).2⟩
      · rw [if_neg below, if_neg (by omega)]

/-- The calls of every group that `loadMetricGroupsInfo` builds from counters of known types decode all raw data
of a size exactly when the group is decodable there. -/
theorem metric_values_decoded {counters : List CounterValueType} (known : .VALUE_TYPE_MAX ∉ counters)
    {rawDataSize metricValueCount : Nat} (sized : rawDataSize < 2 ^ 64) (counted : metricValueCount < 2 ^ 32) :
    (∀ rawData metricValues, rawData.length = rawDataSize →
        (loadMetricGroupsInfo counters).Decodes rawData metricValueCount metricValues) ↔
      (loadMetricGroupsInfo counters).Decodable rawDataSize metricValueCount := by
  have sizes := loaded_known known
  generalize loadMetricGroupsInfo counters = group at sizes ⊢
  constructor
  · intro decodes
    have zeros := decodes (List.replicate rawDataSize 0) (fun _ => ⟨.ZET_VALUE_TYPE_UINT32, 0⟩) (by simp)
    have nonempty : group.metrics ≠ [] := by
      intro empty
      have zero := sizes.allocation.mpr empty
      unfold Decodes calculateMetricValues at zeros
      simp [zero] at zeros
    have metricCount : group.metrics.length ≤ UINT32_MAX := by
      by_contra large
      have cast := safeCastU32_of_lt (Nat.not_le.mp large)
      have positive : group.allocationSize ≠ 0 := fun zero => nonempty (sizes.allocation.mp zero)
      unfold Decodes calculateMetricValues at zeros
      simp [positive, cast] at zeros
    have each := fun rawData metricValues (length : rawData.length = rawDataSize) =>
      (decodes_iff sizes nonempty metricCount (length ▸ sized) counted metricValues).mp
        (decodes rawData metricValues length)
    refine ⟨nonempty, metricCount, ?_, ?_⟩
    · have uncut := (each (List.replicate rawDataSize 0) (fun _ => ⟨.ZET_VALUE_TYPE_UINT32, 0⟩) (by simp)).1
      rw [List.length_replicate] at uncut
      exact uncut
    · rw [← stride_fields nonempty]
      intro index below
      have right := fieldOffset_inside nonempty (Nat.lt_of_lt_of_le below (Nat.min_le_right _ _))
      have some_bytes := sizes.typeAt nonempty index
      have inside : group.Inside rawDataSize index := by
        have first := (each (List.replicate rawDataSize 0) (fun _ => ⟨.ZET_VALUE_TYPE_UINT32, 0⟩) (by simp)).2
        rw [List.length_replicate] at first
        exact (first index below).1
      unfold Inside at inside
      have before : index * group.stride < rawDataSize := by omega
      have rightBefore : group.fieldOffset index < rawDataSize := by omega
      apply field_offset_unique some_bytes before rightBefore
      intro rawData length
      have fields := (each rawData (fun _ => ⟨.ZET_VALUE_TYPE_UINT32, 0⟩) length).2
      rw [length] at fields
      exact (fields index below).2
  · rintro ⟨nonempty, metricCount, uncut, even⟩ rawData metricValues rfl
    rw [decodes_iff sizes nonempty metricCount sized counted]
    refine ⟨uncut, ?_⟩
    intro index below
    have same := (stride_fields nonempty _).mpr even index below
    constructor
    · rw [Inside, same]
      exact fieldOffset_inside nonempty (Nat.lt_of_lt_of_le below (Nat.min_le_right _ _))
    · rw [same]

theorem metric_values_decoded_once :
    (loadMetricGroupsInfo [.VALUE_TYPE_UINT32, .VALUE_TYPE_FLOAT32]).Decodes [1, 0, 0, 0, 2, 0, 0, 0] 2
      fun _ => ⟨.ZET_VALUE_TYPE_UINT32, 0⟩ := by
  refine (@metric_values_decoded [.VALUE_TYPE_UINT32, .VALUE_TYPE_FLOAT32] (by decide) 8 2 (by decide)
    (by decide)).mpr ?_ _ _ rfl
  refine ⟨by decide, by decide, .inl (by decide), ?_⟩
  intro metric type present _
  have four : ∀ known ∈ [ZetValueType.ZET_VALUE_TYPE_UINT32, .ZET_VALUE_TYPE_FLOAT32], known.width = 4 := by decide
  exact four type (List.mem_of_getElem? present)

/-- A one-byte metric before an eight-byte one: the loop moves by four bytes, and the second value is read beyond
the end of the raw data. A group without metrics divides by zero. -/
theorem mixed_metrics_misread :
    (¬ ∀ rawData metricValues, rawData.length = 9 →
      (loadMetricGroupsInfo [.VALUE_TYPE_BOOL8, .VALUE_TYPE_UINT64]).Decodes rawData 2 metricValues) ∧
    (loadMetricGroupsInfo [.VALUE_TYPE_BOOL8, .VALUE_TYPE_UINT64]).calculateMetricValues (List.replicate 9 0) 2
        (fun _ => ⟨.ZET_VALUE_TYPE_UINT32, 0⟩) = .error .outOfBounds ∧
      (loadMetricGroupsInfo []).calculateMetricValues [] 0 (fun _ => ⟨.ZET_VALUE_TYPE_UINT32, 0⟩) =
        .error .divisionByZero := by
  have beyond : (loadMetricGroupsInfo [.VALUE_TYPE_BOOL8, .VALUE_TYPE_UINT64]).calculateMetricValues
      (List.replicate 9 0) 2 (fun _ => ⟨.ZET_VALUE_TYPE_UINT32, 0⟩) = .error .outOfBounds := rfl
  refine ⟨?_, beyond, rfl⟩
  intro decodes
  obtain ⟨values, answer, -⟩ := decodes (List.replicate 9 0) (fun _ => ⟨.ZET_VALUE_TYPE_UINT32, 0⟩) rfl
  rw [beyond] at answer
  cases answer

end NpuDriver.MetricGroup
