import NpuDriver.LevelZero.CommandList

/-! The values of metric groups: how they are read from the raw data of the device, and their maximum. -/

namespace NpuDriver

open Library ZeResult

/-- `CounterInfo::ValueType`, which the device may also send other numbers for. -/
inductive CounterValueType where
  | VALUE_TYPE_UINT32
  | VALUE_TYPE_UINT64
  | VALUE_TYPE_FLOAT32
  | VALUE_TYPE_FLOAT64
  | VALUE_TYPE_BOOL8
  | VALUE_TYPE_MAX
deriving DecidableEq, Repr

/-- `zet_value_type_t`. -/
inductive ZetValueType where
  | ZET_VALUE_TYPE_UINT32
  | ZET_VALUE_TYPE_UINT64
  | ZET_VALUE_TYPE_FLOAT32
  | ZET_VALUE_TYPE_FLOAT64
  | ZET_VALUE_TYPE_BOOL8
  | ZET_VALUE_TYPE_FORCE_UINT32
deriving DecidableEq, Repr

/-- The size of the member of `zet_value_t` for a type. -/
def ZetValueType.width : ZetValueType → Nat
  | ZET_VALUE_TYPE_UINT32 => 4
  | ZET_VALUE_TYPE_UINT64 => 8
  | ZET_VALUE_TYPE_FLOAT32 => 4
  | ZET_VALUE_TYPE_FLOAT64 => 8
  | ZET_VALUE_TYPE_BOOL8 => 1
  | ZET_VALUE_TYPE_FORCE_UINT32 => 0

/-- `zet_typed_value_t`; the bytes of the union are a number. -/
structure TypedValue where
  type : ZetValueType
  value : Nat
deriving DecidableEq, Repr

/-- The member of the union for a type. -/
def TypedValue.read (typed : TypedValue) (type : ZetValueType) : Nat := typed.value % 256 ^ type.width

/-- Assigning to a member leaves the bytes behind it. -/
def TypedValue.write (typed : TypedValue) (type : ZetValueType) (member : Nat) : TypedValue :=
  ⟨type, typed.value / 256 ^ type.width * 256 ^ type.width + member⟩

theorem TypedValue.read_write (typed : TypedValue) (type : ZetValueType) {member : Nat}
    (small : member < 256 ^ type.width) : (typed.write type member).read type = member := by
  rw [TypedValue.read, TypedValue.write, Nat.mul_add_mod_self_right, Nat.mod_eq_of_lt small]

namespace Metric

def getValueType : CounterValueType → ZetValueType
  | .VALUE_TYPE_UINT32 => .ZET_VALUE_TYPE_UINT32
  | .VALUE_TYPE_UINT64 => .ZET_VALUE_TYPE_UINT64
  | .VALUE_TYPE_FLOAT32 => .ZET_VALUE_TYPE_FLOAT32
  | .VALUE_TYPE_FLOAT64 => .ZET_VALUE_TYPE_FLOAT64
  | .VALUE_TYPE_BOOL8 => .ZET_VALUE_TYPE_BOOL8
  | .VALUE_TYPE_MAX => .ZET_VALUE_TYPE_FORCE_UINT32

def getMetricValueSize : CounterValueType → Nat
  | .VALUE_TYPE_UINT32 => 4
  | .VALUE_TYPE_FLOAT32 => 4
  | .VALUE_TYPE_UINT64 => 8
  | .VALUE_TYPE_FLOAT64 => 8
  | .VALUE_TYPE_BOOL8 => 1
  | .VALUE_TYPE_MAX => 0

theorem getMetricValueSize_width (valueType : CounterValueType) :
    getMetricValueSize valueType = (getValueType valueType).width := by
  cases valueType <;> rfl

end Metric

/-- A metric group; a metric is what its `resultType` says. -/
structure MetricGroup where
  allocationSize : Nat
  metrics : List ZetValueType
  summed : allocationSize = (metrics.map ZetValueType.width).sum
deriving DecidableEq, Repr

namespace MetricGroup

theorem loadMetrics_summed (counters : List CounterValueType) (size : Nat) :
    counters.foldl (fun size counter => size + Metric.getMetricValueSize counter) size =
      size + ((counters.map Metric.getValueType).map ZetValueType.width).sum := by
  induction counters generalizing size with
  | nil => simp
  | cons counter rest ih =>
    rw [List.foldl_cons, ih, Metric.getMetricValueSize_width]
    simp [Nat.add_assoc]

/-- The group that `loadMetricGroupsInfo` builds from the counters of a group. -/
def loadMetricGroupsInfo (counters : List CounterValueType) : MetricGroup where
  allocationSize := counters.foldl (fun size counter => size + Metric.getMetricValueSize counter) 0
  metrics := counters.map Metric.getValueType
  summed := by rw [loadMetrics_summed, Nat.zero_add]

/-- Where the behaviour of the program ends: a division by zero, a read outside of the raw data, or an
exception. -/
inductive Fault where
  | divisionByZero | outOfBounds | thrown
deriving DecidableEq, Repr

/-- A value of some type at an offset of the raw data; none is read for an unknown type. -/
def readRaw (rawData : List UInt8) (offset : Nat) (type : ZetValueType) : Except Fault Nat :=
  if type.width = 0 ∨ offset + type.width ≤ rawData.length then
    .ok (fromLittleEndian ((rawData.drop offset).take type.width))
  else .error .outOfBounds

/-- The loop of `calculateMetricValues` from an index on; `offset` is how far `pRawData` has moved. -/
def calculateEach (group : MetricGroup) (rawData : List UInt8) :
    Nat → Nat → Nat → (Nat → TypedValue) → Except Fault (Nat → TypedValue)
  | 0, _, _, metricValues => .ok metricValues
  | left + 1, index, offset, metricValues =>
    match group.metrics[index % group.metrics.length]? with
    | none => .error .divisionByZero
    | some type =>
      match readRaw rawData offset type with
      | .error fault => .error fault
      | .ok member =>
        calculateEach group rawData left (index + 1) (offset + group.allocationSize / group.metrics.length)
          (Function.update metricValues index ((metricValues index).write type member))

/-- What a call leaves: its result, `*pMetricValueCount` and the array. -/
abbrev MetricValues := ZeResult × Nat × (Nat → TypedValue)

/-- `calculateMetricValues`; `metricValueCount` is `*pMetricValueCount`, and the array has room for so many. -/
def calculateMetricValues (group : MetricGroup) (rawData : List UInt8) (metricValueCount : Nat)
    (metricValues : Nat → TypedValue) : Except Fault MetricValues :=
  if group.allocationSize = 0 then .error .divisionByZero
  else
    match safeCastU32 group.metrics.length with
    | none => .error .thrown
    | some metricCount =>
      let available := rawData.length / group.allocationSize * metricCount % 2 ^ 64
      if metricValueCount = 0 then .ok (ZE_RESULT_SUCCESS, available % 2 ^ 32, metricValues)
      else
        match calculateEach group rawData (min metricValueCount (available % 2 ^ 32)) 0 0 metricValues with
        | .error fault => .error fault
        | .ok values => .ok (ZE_RESULT_SUCCESS, min metricValueCount (available % 2 ^ 32), values)

/-- How `std::max` compares two members of the union; the order of floating point numbers is given. -/
def lessThan (lessFloat : ZetValueType → Nat → Nat → Bool) (type : ZetValueType) (left right : Nat) : Bool :=
  match type with
  | .ZET_VALUE_TYPE_FLOAT32 => lessFloat type left right
  | .ZET_VALUE_TYPE_FLOAT64 => lessFloat type left right
  | _ => left < right

/-- One turn of the loop of `calculateMaxMetricValues`. -/
def maxStep (lessFloat : ZetValueType → Nat → Nat → Bool) (group : MetricGroup) (values : Nat → TypedValue)
    (index : Nat) (metricValues : Nat → TypedValue) : Nat → TypedValue :=
  let metric := index % group.metrics.length
  match group.metrics[metric]? with
  | none => metricValues
  | some type =>
    let current := (metricValues metric).read type
    let other := (values index).read type
    Function.update metricValues metric
      ((metricValues metric).write type (if lessThan lessFloat type current other then other else current))

/-- The loop with its eight-bit index, for a limited number of turns; none when it has not ended by then. -/
def maxLoop (lessFloat : ZetValueType → Nat → Nat → Bool) (group : MetricGroup) (values : Nat → TypedValue)
    (count : Nat) : Nat → UInt8 → (Nat → TypedValue) → Option (Nat → TypedValue)
  | 0, index, metricValues => if index.toNat < count then none else some metricValues
  | turns + 1, index, metricValues =>
    if index.toNat < count then
      maxLoop lessFloat group values count turns (index + 1)
        (maxStep lessFloat group values index.toNat metricValues)
    else some metricValues

/-- `calculateMaxMetricValues`, none when the loop has not ended after so many turns. -/
def calculateMaxMetricValues (lessFloat : ZetValueType → Nat → Nat → Bool) (group : MetricGroup)
    (rawData : List UInt8) (turns metricValueCount : Nat) (metricValues : Nat → TypedValue) :
    Option (Except Fault MetricValues) :=
  match safeCastU32 group.metrics.length with
  | none => some (.error .thrown)
  | some metricCount =>
    if metricValueCount = 0 then some (.ok (ZE_RESULT_SUCCESS, metricCount, metricValues))
    else if metricValueCount ≠ metricCount then
      some (.ok (ZE_RESULT_ERROR_INVALID_SIZE, metricValueCount, metricValues))
    else
      match group.calculateMetricValues rawData 0 fun _ => ⟨.ZET_VALUE_TYPE_UINT32, 0⟩ with
      | .error fault => some (.error fault)
      | .ok (_, count, unset) =>
        match group.calculateMetricValues rawData count unset with
        | .error fault => some (.error fault)
        | .ok (_, count, values) =>
          (maxLoop lessFloat group values count turns 0 metricValues).map fun maxima =>
            .ok (ZE_RESULT_SUCCESS, metricValueCount, maxima)

end MetricGroup

end NpuDriver
