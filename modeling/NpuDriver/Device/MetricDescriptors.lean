import NpuDriver.Library.BoundedReads
import NpuDriver.LevelZero.MetricValues

/-! The descriptors of metric groups in the kernel's reply, and how the device is set up from them. -/

namespace NpuDriver

open Library

/-- `CounterInfo`; strings are their bytes, and enumerations the numbers that the device sends. -/
structure CounterInfo where
  tier : Nat
  metricType : Nat
  valueType : Nat
  metricName : List UInt8
  component : List UInt8
  metricDescription : List UInt8
  units : List UInt8
deriving DecidableEq, Repr

structure GroupInfo where
  groupIndex : Nat
  metricGroupName : List UInt8
  metricGroupDescription : List UInt8
  domain : Nat
  metricCount : Nat
  samplingType : Nat
  counterInfo : List CounterInfo
deriving DecidableEq, Repr

/-- `vpu_jsm_metric_group_descriptor` without what is only logged. -/
structure MetricGroupDescriptor where
  nextMetricGroupInfoOffset : Nat
  nextMetricCounterInfoOffset : Nat
  groupId : Nat
  numCounters : Nat
  domain : Nat
  nameStringSize : Nat
  descriptionStringSize : Nat
  samplingType : Nat
deriving DecidableEq, Repr

/-- `vpu_jsm_metric_counter_descriptor` without what is only logged. -/
structure MetricCounterDescriptor where
  nextMetricCounterInfoOffset : Nat
  tier : Nat
  metricType : Nat
  metricValueType : Nat
  nameStringSize : Nat
  descriptionStringSize : Nat
  componentStringSize : Nat
  unitsStringSize : Nat
deriving DecidableEq, Repr

/-- A `uint32_t` in a buffer. -/
def uint32At (buffer : List UInt8) (position : Nat) : Nat := fromLittleEndian ((buffer.drop position).take 4)

namespace MetricGroupDescriptor

/-- `sizeof(vpu_jsm_metric_group_descriptor)`. -/
def size : Nat := 40

/-- Where `reserved_0`, which nothing reads, begins. -/
def readSize : Nat := 36

/-- The descriptor at a position. -/
def view (buffer : List UInt8) (position : Nat) : MetricGroupDescriptor where
  nextMetricGroupInfoOffset := uint32At buffer position
  nextMetricCounterInfoOffset := uint32At buffer (position + 4)
  groupId := uint32At buffer (position + 8)
  numCounters := uint32At buffer (position + 12)
  -- four bytes further on is `metric_group_data_size`
  domain := uint32At buffer (position + 20)
  nameStringSize := uint32At buffer (position + 24)
  descriptionStringSize := uint32At buffer (position + 28)
  samplingType := uint32At buffer (position + 32)

end MetricGroupDescriptor

namespace MetricCounterDescriptor

/-- `sizeof(vpu_jsm_metric_counter_descriptor)`. -/
def size : Nat := 48

/-- Where `reserved_0` begins. -/
def readSize : Nat := 40

/-- The descriptor at a position. -/
def view (buffer : List UInt8) (position : Nat) : MetricCounterDescriptor where
  nextMetricCounterInfoOffset := uint32At buffer position
  -- then `metric_data_offset` and `metric_data_size`
  tier := uint32At buffer (position + 12)
  metricType := uint32At buffer (position + 16)
  metricValueType := uint32At buffer (position + 20)
  nameStringSize := uint32At buffer (position + 24)
  descriptionStringSize := uint32At buffer (position + 28)
  componentStringSize := uint32At buffer (position + 32)
  unitsStringSize := uint32At buffer (position + 36)

end MetricCounterDescriptor

namespace VPUDevice

open MetricGroup

/-- A string of a descriptor is read up to its terminator, however large it is said to be. -/
def readString (buffer : List UInt8) (position stringSize : Nat) : Except Fault (List UInt8) :=
  if stringSize ≠ 0 then readTerminated .outOfBounds 0 buffer position else .ok []

/-- The body of the loop over the counters. -/
def readCounterInfo (buffer : List UInt8) (position : Nat) : Except Fault CounterInfo := do
  let counterDesc ← readWithin .outOfBounds buffer position MetricCounterDescriptor.readSize
    (MetricCounterDescriptor.view buffer position)
  let strings := position + MetricCounterDescriptor.size
  let metricName ← readString buffer strings counterDesc.nameStringSize
  let metricDescription ←
    readString buffer (strings + counterDesc.nameStringSize) counterDesc.descriptionStringSize
  let component ←
    readString buffer (strings + counterDesc.nameStringSize + counterDesc.descriptionStringSize)
      counterDesc.componentStringSize
  let units ←
    readString buffer
      (strings + counterDesc.nameStringSize + counterDesc.descriptionStringSize + counterDesc.componentStringSize)
      counterDesc.unitsStringSize
  .ok
    { tier := counterDesc.tier
      metricType := counterDesc.metricType
      valueType := counterDesc.metricValueType
      metricName := metricName
      component := component
      metricDescription := metricDescription
      units := units }

/-- The loop over the counters of a group, by how many are left. -/
def readCounters (buffer : List UInt8) : Nat → Nat → List CounterInfo → Except Fault (List CounterInfo)
  | 0, _, counterInfo => .ok counterInfo
  | left + 1, position, counterInfo => do
    let info ← readCounterInfo buffer position
    readCounters buffer left
      (position + (MetricCounterDescriptor.view buffer position).nextMetricCounterInfoOffset)
      (counterInfo ++ [info])

/-- The body of the loop over the groups. -/
def readGroupInfo (buffer : List UInt8) (position : Nat) : Except Fault GroupInfo := do
  let groupDesc ← readWithin .outOfBounds buffer position MetricGroupDescriptor.readSize
    (MetricGroupDescriptor.view buffer position)
  let strings := position + MetricGroupDescriptor.size
  let metricGroupName ← readString buffer strings groupDesc.nameStringSize
  let metricGroupDescription ←
    readString buffer (strings + groupDesc.nameStringSize) groupDesc.descriptionStringSize
  let counterInfo ←
    readCounters buffer groupDesc.numCounters (position + groupDesc.nextMetricCounterInfoOffset) []
  .ok
    { groupIndex := groupDesc.groupId
      metricGroupName := metricGroupName
      metricGroupDescription := metricGroupDescription
      domain := groupDesc.domain
      metricCount := groupDesc.numCounters
      samplingType := groupDesc.samplingType
      counterInfo := counterInfo }

theorem readGroupInfo_inside {buffer : List UInt8} {position : Nat} {info : GroupInfo}
    (read : readGroupInfo buffer position = .ok info) :
    position + MetricGroupDescriptor.readSize ≤ buffer.length := by
  obtain ⟨groupDesc, within, -⟩ := bind_eq_ok.mp read
  exact (readWithin_eq_ok.mp within).1

/-- The loop over the groups. It ends, since every offset that leads on leads closer to the end of the buffer. -/
def readGroups (buffer : List UInt8) (position : Nat) (groupsInfo : List GroupInfo) :
    Except Fault (List GroupInfo) :=
  match _read : readGroupInfo buffer position with
  | .error fault => .error fault
  | .ok groupInfo =>
    if _more : (MetricGroupDescriptor.view buffer position).nextMetricGroupInfoOffset ≠ 0 then
      readGroups buffer (position + (MetricGroupDescriptor.view buffer position).nextMetricGroupInfoOffset)
        (groupsInfo ++ [groupInfo])
    else .ok (groupsInfo ++ [groupInfo])
termination_by buffer.length - position
decreasing_by
  have inside := readGroupInfo_inside _read
  simp only [MetricGroupDescriptor.readSize] at inside
  omega

end VPUDevice

/-- What the two calls of `metricStreamerGetInfo` answer, `none` where the ioctl fails: the size, and the
bytes that the kernel copies; `capacity` is the size of the largest vector there is memory for. -/
structure MetricInfoReplies where
  dataSize : Option Nat
  capacity : Nat
  copied : Option (List UInt8)

/-- The vector after the second call; the kernel copies no more than its size. -/
def metricGroupsInfo (metricGroupsInfoSize : Nat) (copied : List UInt8) : List UInt8 :=
  copied.take metricGroupsInfoSize ++ List.replicate (metricGroupsInfoSize - copied.length) 0

@[simp] theorem metricGroupsInfo_length (metricGroupsInfoSize : Nat) (copied : List UInt8) :
    (metricGroupsInfo metricGroupsInfoSize copied).length = metricGroupsInfoSize := by
  simp only [metricGroupsInfo, List.length_append, List.length_take, List.length_replicate]
  omega

theorem metricGroupsInfo_all (copied : List UInt8) : metricGroupsInfo copied.length copied = copied := by
  rw [metricGroupsInfo, List.take_length, Nat.sub_self, List.replicate_zero, List.append_nil]

namespace VPUDevice

open MetricGroup

/-- `initializeMetricGroups` with the groups that the device has so far. -/
def initializeMetricGroups (replies : MetricInfoReplies) (groupsInfo : List GroupInfo) :
    Except Fault (Bool × List GroupInfo) :=
  match replies.dataSize with
  | none => .ok (false, groupsInfo)
  | some metricGroupsInfoSize =>
    if metricGroupsInfoSize = 0 then .ok (false, groupsInfo)
    else if replies.capacity < metricGroupsInfoSize then .error .thrown
    else
      match replies.copied with
      | none => .ok (false, groupsInfo)
      | some copied => do
        let groups ← readGroups (metricGroupsInfo metricGroupsInfoSize copied) 0 groupsInfo
        .ok (true, groups)

end VPUDevice

end NpuDriver
