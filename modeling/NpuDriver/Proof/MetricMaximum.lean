import Mathlib.Data.Finset.Max
import Mathlib.Order.Bounds.Basic
import NpuDriver.Proof.MetricDecoding

/-! When the maximum of the values of a metric group is found. -/

namespace NpuDriver.MetricGroup

open Library ZeResult

/-- The value that `calculateMetricValues` decodes. -/
def decodedValue (group : MetricGroup) (rawData : List UInt8) (index : Nat) : Nat :=
  field rawData (index * group.stride) (group.typeAt index).width

/-- The decoded values of a metric over all samples. -/
def valuesOf (group : MetricGroup) (rawData : List UInt8) (metric : Nat) : Set Nat :=
  {value | ∃ index < group.available rawData.length,
    index % group.metrics.length = metric ∧ group.decodedValue rawData index = value}

section Loop

variable (lessFloat : ZetValueType → Nat → Nat → Bool) (group : MetricGroup) (values : Nat → TypedValue)

/-- The array after some turns of the loop. -/
def maxAfter (metricValues : Nat → TypedValue) : Nat → Nat → TypedValue
  | 0 => metricValues
  | turns + 1 => maxStep lessFloat group values turns (maxAfter metricValues turns)

variable {lessFloat group values}

/-- An index of eight bits never reaches a larger count. -/
theorem maxLoop_endless {count : Nat} (large : 255 < count) (turns : Nat) (index : UInt8)
    (metricValues : Nat → TypedValue) : maxLoop lessFloat group values count turns index metricValues = none := by
  have below : index.toNat < count := by
    have small := index.toNat_lt
    omega
  induction turns generalizing index metricValues with
  | zero => simp [maxLoop, below]
  | succ turns ih =>
    rw [maxLoop, if_pos below]
    apply ih
    have small := (index + 1).toNat_lt
    omega

theorem maxLoop_ends {count : Nat} (short : count ≤ 255) (metricValues : Nat → TypedValue) {turns done : Nat}
    (total : done + turns = count) :
    maxLoop lessFloat group values count turns (UInt8.ofNat done) (maxAfter lessFloat group values metricValues done) =
      some (maxAfter lessFloat group values metricValues count) := by
  have index : ∀ done ≤ 255, (UInt8.ofNat done).toNat = done := fun done small =>
    UInt8.toNat_ofNat_of_lt' (Nat.lt_succ_of_le small)
  induction turns generalizing done with
  | zero =>
    obtain rfl : done = count := total
    simp [maxLoop, index done short]
  | succ turns ih =>
    have here := index done (by omega)
    have below : (UInt8.ofNat done).toNat < count := by omega
    have next : UInt8.ofNat done + 1 = UInt8.ofNat (done + 1) := by simp
    rw [maxLoop, if_pos below, here, next]
    exact ih (by omega)

theorem maxLoop_result {count : Nat} (short : count ≤ 255) {metricValues result : Nat → TypedValue} {turns done : Nat}
    (fits : done ≤ count)
    (ended : maxLoop lessFloat group values count turns (UInt8.ofNat done)
      (maxAfter lessFloat group values metricValues done) = some result) :
    result = maxAfter lessFloat group values metricValues count := by
  have index : (UInt8.ofNat done).toNat = done := UInt8.toNat_ofNat_of_lt' (Nat.lt_succ_of_le (fits.trans short))
  induction turns generalizing done with
  | zero =>
    rw [maxLoop, index] at ended
    split at ended
    · cases ended
    · obtain rfl : done = count := by omega
      exact (Option.some.inj ended).symm
  | succ turns ih =>
    rw [maxLoop, index] at ended
    split at ended
    · rename_i below
      have next : UInt8.ofNat done + 1 = UInt8.ofNat (done + 1) := by simp
      rw [next] at ended
      exact ih below ended (UInt8.toNat_ofNat_of_lt' (Nat.lt_succ_of_le (Nat.le_trans below short)))
    · obtain rfl : done = count := by omega
      exact (Option.some.inj ended).symm

/-- What the array holds for a metric after some turns: its largest value so far, unless the array held more. -/
structure Running (lessFloat : ZetValueType → Nat → Nat → Bool) (group : MetricGroup) (values metricValues : Nat → TypedValue)
    (metric : Nat) (type : ZetValueType) (turns : Nat) : Prop where
  seen : metric < turns → (maxAfter lessFloat group values metricValues turns metric).type = type
  unseen : turns ≤ metric → maxAfter lessFloat group values metricValues turns metric = metricValues metric
  initial : (metricValues metric).read type ≤ (maxAfter lessFloat group values metricValues turns metric).read type
  bound : ∀ index < turns, index % group.metrics.length = metric →
    (values index).read type ≤ (maxAfter lessFloat group values metricValues turns metric).read type
  attained : (maxAfter lessFloat group values metricValues turns metric).read type = (metricValues metric).read type ∨
    ∃ index < turns, index % group.metrics.length = metric ∧
      (maxAfter lessFloat group values metricValues turns metric).read type = (values index).read type

/-- The types of integers. -/
def integerTypes : List ZetValueType := [.ZET_VALUE_TYPE_UINT32, .ZET_VALUE_TYPE_UINT64, .ZET_VALUE_TYPE_BOOL8]

theorem lessThan_integer {type : ZetValueType} (integer : type ∈ integerTypes) (left right : Nat) :
    lessThan lessFloat type left right = decide (left < right) := by
  cases type with
  | ZET_VALUE_TYPE_FLOAT32 => exact absurd integer (by decide)
  | ZET_VALUE_TYPE_FLOAT64 => exact absurd integer (by decide)
  | _ => rfl

/-- A turn writes the larger one of the two members for an integer type, and touches no other metric. -/
theorem maxStep_own {metric : Nat} {type : ZetValueType} (present : group.metrics[metric]? = some type)
    (integer : type ∈ integerTypes) {index : Nat} (own : index % group.metrics.length = metric)
    (metricValues : Nat → TypedValue) :
    (maxStep lessFloat group values index metricValues metric).type = type ∧
      (maxStep lessFloat group values index metricValues metric).read type =
        max ((metricValues metric).read type) ((values index).read type) := by
  have small : ∀ typed : TypedValue, typed.read type < 256 ^ type.width := fun typed =>
    Nat.mod_lt _ (Nat.pow_pos (by decide))
  unfold maxStep
  simp only [own, present, Function.update_self, lessThan_integer integer, decide_eq_true_eq]
  refine ⟨rfl, ?_⟩
  rw [TypedValue.read_write]
  · split
    · rename_i less
      exact (Nat.max_eq_right less.le).symm
    · rename_i more
      exact (Nat.max_eq_left (Nat.not_lt.mp more)).symm
  · split
    · exact small _
    · exact small _

theorem maxStep_other {metric index : Nat} (other : index % group.metrics.length ≠ metric)
    (metricValues : Nat → TypedValue) :
    maxStep lessFloat group values index metricValues metric = metricValues metric := by
  unfold maxStep
  cases group.metrics[index % group.metrics.length]? with
  | none => rfl
  | some type => exact Function.update_of_ne (Ne.symm other) ..

theorem Running.start (metricValues : Nat → TypedValue) (metric : Nat) (type : ZetValueType) :
    Running lessFloat group values metricValues metric type 0 where
  seen := nofun
  unseen := fun _ => rfl
  initial := Nat.le_refl _
  bound := nofun
  attained := .inl rfl

/-- Each turn keeps the maximum of what it has seen. -/
theorem Running.step {metricValues : Nat → TypedValue} {metric : Nat} {type : ZetValueType} {turns : Nat}
    (running : Running lessFloat group values metricValues metric type turns)
    (present : group.metrics[metric]? = some type) (integer : type ∈ integerTypes) :
    Running lessFloat group values metricValues metric type (turns + 1) := by
  obtain ⟨inside, -⟩ := List.getElem?_eq_some_iff.mp present
  obtain ⟨seen, unseen, initial, bound, attained⟩ := running
  by_cases own : turns % group.metrics.length = metric
  · obtain ⟨typed, maximum⟩ := @maxStep_own lessFloat group values metric type present integer turns own
      (maxAfter lessFloat group values metricValues turns)
    have reached : metric ≤ turns := own ▸ Nat.mod_le ..
    constructor
    · intro _
      exact typed
    · omega
    · rw [maxAfter, maximum]
      exact Nat.le_trans initial (Nat.le_max_left ..)
    · intro index below same
      rw [maxAfter, maximum]
      by_cases last : index = turns
      · rw [last]
        exact Nat.le_max_right ..
      · exact Nat.le_trans (bound index (by omega) same) (Nat.le_max_left ..)
    · rw [maxAfter, maximum]
      rcases Nat.le_total ((maxAfter lessFloat group values metricValues turns metric).read type)
        ((values turns).read type) with less | more
      · rw [Nat.max_eq_right less]
        exact .inr ⟨turns, Nat.lt_succ_self _, own, rfl⟩
      · rw [Nat.max_eq_left more]
        rcases attained with held | ⟨index, below, same, value⟩
        · exact .inl held
        · exact .inr ⟨index, Nat.lt_succ_of_lt below, same, value⟩
  · have kept := @maxStep_other lessFloat group values metric turns own
      (maxAfter lessFloat group values metricValues turns)
    constructor
    · intro reached
      rw [maxAfter, kept]
      apply seen
      by_contra late
      obtain rfl : metric = turns := by omega
      exact own (Nat.mod_eq_of_lt inside)
    · intro early
      rw [maxAfter, kept]
      exact unseen (by omega)
    · rw [maxAfter, kept]
      exact initial
    · intro index below same
      rw [maxAfter, kept]
      apply bound index _ same
      by_contra late
      obtain rfl : index = turns := by omega
      exact own same
    · rw [maxAfter, kept]
      rcases attained with held | ⟨index, below, same, value⟩
      · exact .inl held
      · exact .inr ⟨index, Nat.lt_succ_of_lt below, same, value⟩

theorem running_all {metricValues : Nat → TypedValue} {metric : Nat} {type : ZetValueType}
    (present : group.metrics[metric]? = some type) (integer : type ∈ integerTypes) (turns : Nat) :
    Running lessFloat group values metricValues metric type turns := by
  induction turns with
  | zero => exact Running.start metricValues metric type
  | succ turns ih => exact ih.step present integer

end Loop

/-- The values behind `metricValues` in `calculateMaxMetricValues`. -/
def allValues (group : MetricGroup) (rawData : List UInt8) (count : Nat) (index : Nat) : TypedValue :=
  if 0 ≤ index ∧ index < 0 + count then group.written rawData (fun _ => ⟨.ZET_VALUE_TYPE_UINT32, 0⟩) index
  else ⟨.ZET_VALUE_TYPE_UINT32, 0⟩

theorem allValues_read {group : MetricGroup} (rawData : List UInt8) {count index : Nat} (below : index < count) :
    (group.allValues rawData count index).read (group.typeAt index) = group.decodedValue rawData index := by
  rw [allValues, if_pos (by omega)]
  exact written_read ..

variable {lessFloat : ZetValueType → Nat → Nat → Bool} {group : MetricGroup} {rawData : List UInt8}

/-- A call with the number of metrics as its count first decodes the values that there are. -/
theorem calculateMaxMetricValues_decode (known : group.Known) (nonempty : group.metrics ≠ [])
    (metricCount : group.metrics.length ≤ UINT32_MAX) (sized : rawData.length < 2 ^ 64) (turns : Nat)
    (metricValues : Nat → TypedValue) :
    group.calculateMaxMetricValues lessFloat rawData turns group.metrics.length metricValues =
      (group.calculateEach rawData (group.available rawData.length % 2 ^ 32) 0 (0 * group.stride)
        fun _ => ⟨.ZET_VALUE_TYPE_UINT32, 0⟩).casesOn (fun fault => some (.error fault)) fun values =>
          (maxLoop lessFloat group values (group.available rawData.length % 2 ^ 32) turns 0 metricValues).map
            fun maxima => .ok (ZE_RESULT_SUCCESS, group.metrics.length, maxima) := by
  have cast := safeCastU32_of_le metricCount
  have asked : group.metrics.length ≠ 0 := fun zero => nonempty (List.length_eq_zero_iff.mp zero)
  unfold calculateMaxMetricValues
  simp only [cast, asked, ↓reduceIte, ne_eq, not_true_eq_false,
    calculateMetricValues_eq known nonempty metricCount sized]
  by_cases nothing : group.available rawData.length % 2 ^ 32 = 0
  · simp only [nothing, ↓reduceIte, calculateEach]
  · simp only [nothing, ↓reduceIte, Nat.min_self]
    cases group.calculateEach rawData (group.available rawData.length % 2 ^ 32) 0 (0 * group.stride)
      (fun _ => ⟨.ZET_VALUE_TYPE_UINT32, 0⟩) <;> rfl

/-- Then it runs the loop over all of them. -/
theorem calculateMaxMetricValues_eq (known : group.Known) (nonempty : group.metrics ≠ [])
    (metricCount : group.metrics.length ≤ UINT32_MAX) (sized : rawData.length < 2 ^ 64)
    (inside : ∀ index < group.available rawData.length % 2 ^ 32, group.Inside rawData.length index)
    (turns : Nat) (metricValues : Nat → TypedValue) :
    group.calculateMaxMetricValues lessFloat rawData turns group.metrics.length metricValues =
      (maxLoop lessFloat group (group.allValues rawData (group.available rawData.length % 2 ^ 32))
        (group.available rawData.length % 2 ^ 32) turns 0 metricValues).map fun maxima =>
          .ok (ZE_RESULT_SUCCESS, group.metrics.length, maxima) := by
  rw [calculateMaxMetricValues_decode known nonempty metricCount sized,
    calculateEach_inside nonempty fun other _ below => inside other (by omega)]
  rfl

/-- When the call ends well, all values lie inside the raw data. -/
theorem calculateMaxMetricValues_ok (known : group.Known) (nonempty : group.metrics ≠ [])
    (metricCount : group.metrics.length ≤ UINT32_MAX) (sized : rawData.length < 2 ^ 64) {turns : Nat}
    {metricValues : Nat → TypedValue} {result : MetricValues}
    (ok : group.calculateMaxMetricValues lessFloat rawData turns group.metrics.length metricValues =
      some (.ok result)) :
    ∀ index < group.available rawData.length % 2 ^ 32, group.Inside rawData.length index := by
  rw [calculateMaxMetricValues_decode known nonempty metricCount sized] at ok
  generalize answer : group.calculateEach rawData (group.available rawData.length % 2 ^ 32) 0 (0 * group.stride)
    (fun _ => ⟨.ZET_VALUE_TYPE_UINT32, 0⟩) = outcome at ok
  cases outcome with
  | error fault => cases ok
  | ok values =>
    have inside := calculateEach_ok nonempty known answer
    exact fun index below => inside index (Nat.zero_le _) (by omega)

/-- The call with the number of metrics ends, and leaves the largest decoded value for each of them. -/
def Maximizes (lessFloat : ZetValueType → Nat → Nat → Bool) (group : MetricGroup) (rawData : List UInt8)
    (metricValues : Nat → TypedValue) : Prop :=
  ∃ turns maxima, group.calculateMaxMetricValues lessFloat rawData turns group.metrics.length metricValues =
      some (.ok (ZE_RESULT_SUCCESS, group.metrics.length, maxima)) ∧
    ∀ metric type, group.metrics[metric]? = some type →
      ∀ largest, IsGreatest (group.valuesOf rawData metric) largest →
        (maxima metric).type = type ∧ (maxima metric).read type = largest

/-- What is asked of the values of one metric and of what the array holds for it: the array holds no more than
some value, and what is left out by the count of 32 bits is no more than the array or the values before. -/
structure Covered (group : MetricGroup) (rawData : List UInt8) (initial : TypedValue) (metric : Nat)
    (type : ZetValueType) : Prop where
  bounded : ∃ index < group.available rawData.length, index % group.metrics.length = metric ∧
    initial.read type ≤ group.decodedValue rawData index
  covered : ∀ index < group.available rawData.length, index % group.metrics.length = metric →
    group.decodedValue rawData index ≤ initial.read type ∨
      ∃ early < group.available rawData.length % 2 ^ 32, early % group.metrics.length = metric ∧
        group.decodedValue rawData index ≤ group.decodedValue rawData early
  typed : group.available rawData.length % 2 ^ 32 ≤ metric → initial.type = type

/-- When the maximum is found: all values lie inside the raw data, an index of eight bits can count them, and the
array does not hold more than the values of each metric. -/
structure Maximizable (group : MetricGroup) (rawData : List UInt8) (metricValues : Nat → TypedValue) : Prop where
  metricCount : group.metrics.length ≤ UINT32_MAX
  inside : ∀ index < group.available rawData.length % 2 ^ 32, group.Inside rawData.length index
  short : group.available rawData.length % 2 ^ 32 ≤ 255
  covered : 0 < group.available rawData.length → ∀ metric type, group.metrics[metric]? = some type →
    group.Covered rawData (metricValues metric) metric type

theorem typeAt_eq {metric : Nat} {type : ZetValueType} (present : group.metrics[metric]? = some type) {index : Nat}
    (own : index % group.metrics.length = metric) : group.typeAt index = type := by
  rw [typeAt, own, present]
  rfl

theorem largest_exists {metric : Nat} {type : ZetValueType} (present : group.metrics[metric]? = some type)
    (some_values : 0 < group.available rawData.length) :
    ∃ largest, IsGreatest (group.valuesOf rawData metric) largest := by
  obtain ⟨inside, -⟩ := List.getElem?_eq_some_iff.mp present
  have sample : group.metrics.length ≤ group.available rawData.length :=
    Nat.le_mul_of_pos_left _ (Nat.pos_of_mul_pos_right some_values)
  let own := (Finset.range (group.available rawData.length)).filter fun index => index % group.metrics.length = metric
  have nonempty : own.Nonempty := ⟨metric, by simp [own, Nat.mod_eq_of_lt inside, Nat.lt_of_lt_of_le inside sample]⟩
  obtain ⟨index, member, greatest⟩ := own.exists_max_image (group.decodedValue rawData) nonempty
  simp only [own, Finset.mem_filter, Finset.mem_range] at member greatest
  refine ⟨group.decodedValue rawData index, ⟨index, member.1, member.2, rfl⟩, ?_⟩
  rintro value ⟨other, below, same, rfl⟩
  exact greatest other ⟨below, same⟩

/-- The array ends up with the largest value of a metric exactly when what it held is covered. -/
theorem running_covered {metric : Nat} {type : ZetValueType} (present : group.metrics[metric]? = some type)
    {metricValues : Nat → TypedValue}
    (running : Running lessFloat group (group.allValues rawData (group.available rawData.length % 2 ^ 32))
      metricValues metric type (group.available rawData.length % 2 ^ 32))
    (some_values : 0 < group.available rawData.length) :
    let maxima := maxAfter lessFloat group (group.allValues rawData (group.available rawData.length % 2 ^ 32))
      metricValues (group.available rawData.length % 2 ^ 32)
    (∀ largest, IsGreatest (group.valuesOf rawData metric) largest →
        (maxima metric).type = type ∧ (maxima metric).read type = largest) ↔
      group.Covered rawData (metricValues metric) metric type := by
  intro maxima
  obtain ⟨seen, unseen, initial, bound, attained⟩ := running
  change _ ≤ (maxima metric).read type at initial
  change (maxima metric).read type = _ ∨ _ at attained
  have reading : ∀ index < group.available rawData.length % 2 ^ 32, index % group.metrics.length = metric →
      (group.allValues rawData (group.available rawData.length % 2 ^ 32) index).read type =
        group.decodedValue rawData index := by
    intro index below own
    rw [← typeAt_eq present own]
    exact allValues_read rawData below
  have fewer : group.available rawData.length % 2 ^ 32 ≤ group.available rawData.length := Nat.mod_le ..
  constructor
  · intro right
    obtain ⟨largest, ⟨index, below, own, value⟩, above⟩ := largest_exists present some_values
    obtain ⟨typed, read⟩ := right largest ⟨⟨index, below, own, value⟩, above⟩
    constructor
    · exact ⟨index, below, own, by omega⟩
    · intro other otherBelow same
      have less : group.decodedValue rawData other ≤ largest := above ⟨other, otherBelow, same, rfl⟩
      rcases attained with held | ⟨early, earlyBelow, earlyOwn, found⟩
      · exact .inl (by omega)
      · rw [reading early earlyBelow earlyOwn] at found
        have equal : largest = group.decodedValue rawData early := read.symm.trans found
        exact .inr ⟨early, earlyBelow, earlyOwn, equal ▸ less⟩
    · intro late
      rw [← unseen late]
      exact typed
  · rintro ⟨⟨index, below, own, bounded⟩, covered, typed⟩ largest ⟨⟨top, topBelow, topOwn, rfl⟩, above⟩
    have least : group.decodedValue rawData index ≤ group.decodedValue rawData top := above ⟨index, below, own, rfl⟩
    constructor
    · by_cases reached : metric < group.available rawData.length % 2 ^ 32
      · exact seen reached
      · have late : group.available rawData.length % 2 ^ 32 ≤ metric := Nat.not_lt.mp reached
        exact (congrArg TypedValue.type (unseen late)).trans (typed late)
    · apply Nat.le_antisymm
      · rcases attained with held | ⟨early, earlyBelow, earlyOwn, found⟩
        · omega
        · rw [found, reading early earlyBelow earlyOwn]
          exact above ⟨early, Nat.lt_of_lt_of_le earlyBelow fewer, earlyOwn, rfl⟩
      · rcases covered top topBelow topOwn with held | ⟨early, earlyBelow, earlyOwn, less⟩
        · omega
        · have seenValue := bound early earlyBelow earlyOwn
          rw [reading early earlyBelow earlyOwn] at seenValue
          exact Nat.le_trans less seenValue

/-- For every group that `loadMetricGroupsInfo` builds from counters of integer types, all raw data and all
contents of the array, the call ends with the maximum of each metric exactly when it is maximizable. -/
theorem metric_maximum_found (lessFloat : ZetValueType → Nat → Nat → Bool) {counters : List CounterValueType}
    (integers : ∀ counter ∈ counters, Metric.getValueType counter ∈ integerTypes) {rawData : List UInt8}
    (sized : rawData.length < 2 ^ 64) (metricValues : Nat → TypedValue) :
    (loadMetricGroupsInfo counters).Maximizes lessFloat rawData metricValues ↔
      (loadMetricGroupsInfo counters).Maximizable rawData metricValues := by
  have known : (loadMetricGroupsInfo counters).Known := by
    apply loaded_known
    intro member
    exact absurd (integers _ member) (by decide)
  have types : ∀ type ∈ (loadMetricGroupsInfo counters).metrics, type ∈ integerTypes := by
    intro type member
    obtain ⟨counter, present, rfl⟩ := List.mem_map.mp member
    exact integers counter present
  generalize loadMetricGroupsInfo counters = group at known types ⊢
  by_cases nonempty : group.metrics = []
  · have nothing : group.available rawData.length = 0 := by simp [available, nonempty]
    constructor
    · intro _
      refine ⟨by simp [nonempty], by simp [nothing], by simp [nothing], by simp [nothing]⟩
    · intro _
      refine ⟨0, metricValues, by simp [calculateMaxMetricValues, nonempty, safeCastU32], by simp [nonempty]⟩
  · have running := fun metric type (present : group.metrics[metric]? = some type) =>
      @running_all lessFloat group
        (group.allValues rawData (group.available rawData.length % 2 ^ 32)) metricValues metric type present
        (types type (List.mem_of_getElem? present)) (group.available rawData.length % 2 ^ 32)
    constructor
    · rintro ⟨turns, maxima, ok, right⟩
      have metricCount : group.metrics.length ≤ UINT32_MAX := by
        by_contra large
        have cast := safeCastU32_of_lt (Nat.not_le.mp large)
        simp [calculateMaxMetricValues, cast] at ok
      have inside := calculateMaxMetricValues_ok known nonempty metricCount sized ok
      rw [calculateMaxMetricValues_eq known nonempty metricCount sized inside] at ok
      have short : group.available rawData.length % 2 ^ 32 ≤ 255 := by
        by_contra large
        rw [maxLoop_endless (Nat.not_le.mp large)] at ok
        cases ok
      obtain ⟨result, ended, answer⟩ := Option.map_eq_some_iff.mp ok
      obtain rfl : result = maxima := congrArg (fun triple => triple.2.2) (Except.ok.inj answer)
      obtain rfl := @maxLoop_result lessFloat group _ _ short metricValues _ turns 0 (Nat.zero_le _) ended
      refine ⟨metricCount, inside, short, ?_⟩
      intro some_values metric type present
      exact (running_covered present (running metric type present) some_values).mp (right metric type present)
    · rintro ⟨metricCount, inside, short, covered⟩
      have ends := @maxLoop_ends lessFloat group
        (group.allValues rawData (group.available rawData.length % 2 ^ 32)) _ short metricValues _ 0 (Nat.zero_add _)
      refine ⟨group.available rawData.length % 2 ^ 32, maxAfter lessFloat group
        (group.allValues rawData (group.available rawData.length % 2 ^ 32)) metricValues
        (group.available rawData.length % 2 ^ 32), ?_, ?_⟩
      · rw [calculateMaxMetricValues_eq known nonempty metricCount sized inside]
        exact congrArg (Option.map _) ends
      · intro metric type present largest greatest
        obtain ⟨index, below, -, -⟩ := greatest.1
        exact (running_covered present (running metric type present) (by omega)).mpr
          (covered (by omega) metric type present) largest greatest

theorem metric_maximum_found_once :
    (loadMetricGroupsInfo [.VALUE_TYPE_UINT32]).Maximizes (fun _ _ _ => false) [1, 0, 0, 0, 2, 0, 0, 0]
      fun _ => ⟨.ZET_VALUE_TYPE_UINT32, 0⟩ := by
  refine (@metric_maximum_found (fun _ _ _ => false) [.VALUE_TYPE_UINT32] (by decide) [1, 0, 0, 0, 2, 0, 0, 0]
    (by decide) fun _ => ⟨.ZET_VALUE_TYPE_UINT32, 0⟩).mpr ?_
  refine ⟨by decide, by decide, by decide, ?_⟩
  intro _ metric type present
  obtain ⟨inside, -⟩ := List.getElem?_eq_some_iff.mp present
  obtain rfl : metric = 0 := Nat.lt_one_iff.mp inside
  obtain rfl : .ZET_VALUE_TYPE_UINT32 = type := Option.some.inj present
  exact ⟨⟨0, by decide, rfl, by decide⟩, by decide, fun _ => rfl⟩

/-- An index of eight bits never gets to the 256 samples of a one-byte metric; and an array that holds nine keeps
it, although the only value is one. -/
theorem maximum_never_ends :
    (∀ turns, (loadMetricGroupsInfo [.VALUE_TYPE_BOOL8]).calculateMaxMetricValues (fun _ _ _ => false)
        (List.replicate 256 0) turns 1 (fun _ => ⟨.ZET_VALUE_TYPE_BOOL8, 0⟩) = none) ∧
      (¬ (loadMetricGroupsInfo [.VALUE_TYPE_BOOL8]).Maximizes (fun _ _ _ => false) (List.replicate 256 0)
        fun _ => ⟨.ZET_VALUE_TYPE_BOOL8, 0⟩) ∧
      ((loadMetricGroupsInfo [.VALUE_TYPE_BOOL8]).calculateMaxMetricValues (fun _ _ _ => false) [1] 1 1
          fun _ => ⟨.ZET_VALUE_TYPE_BOOL8, 9⟩).map (Except.map fun left => left.2.2 0) =
        some (.ok ⟨.ZET_VALUE_TYPE_BOOL8, 9⟩) := by
  have endless : ∀ turns, (loadMetricGroupsInfo [.VALUE_TYPE_BOOL8]).calculateMaxMetricValues (fun _ _ _ => false)
      (List.replicate 256 0) turns 1 (fun _ => ⟨.ZET_VALUE_TYPE_BOOL8, 0⟩) = none := by
    intro turns
    have count : (loadMetricGroupsInfo [.VALUE_TYPE_BOOL8]).available (List.replicate 256 (0 : UInt8)).length %
        2 ^ 32 = 256 := by
      rw [List.length_replicate]
      decide
    have inside : ∀ index < (loadMetricGroupsInfo [.VALUE_TYPE_BOOL8]).available
        (List.replicate 256 (0 : UInt8)).length % 2 ^ 32,
        (loadMetricGroupsInfo [.VALUE_TYPE_BOOL8]).Inside (List.replicate 256 (0 : UInt8)).length index := by
      intro index below
      have one : (loadMetricGroupsInfo [.VALUE_TYPE_BOOL8]).typeAt index = .ZET_VALUE_TYPE_BOOL8 := by
        simp [typeAt, loadMetricGroupsInfo, Metric.getValueType, Nat.mod_one]
      have step : (loadMetricGroupsInfo [.VALUE_TYPE_BOOL8]).stride = 1 := by decide
      rw [count] at below
      rw [Inside, one, step, List.length_replicate, ZetValueType.width]
      omega
    have call := @calculateMaxMetricValues_eq (fun _ _ _ => false) (loadMetricGroupsInfo [.VALUE_TYPE_BOOL8])
      (List.replicate 256 0) (loaded_known (by decide)) (by decide) (by decide)
      (by rw [List.length_replicate]; decide) inside turns
      fun _ => ⟨.ZET_VALUE_TYPE_BOOL8, 0⟩
    rw [count, maxLoop_endless (by decide)] at call
    exact call
  refine ⟨endless, ?_, by decide +kernel⟩
  rintro ⟨turns, maxima, ended, -⟩
  cases (endless turns).symm.trans ended

end NpuDriver.MetricGroup
