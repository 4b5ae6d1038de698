import NpuDriver.Device.MetricDescriptors
import NpuDriver.Library.Runs

/-! Pools of metric queries: one buffer object with an address table and a data region for every query. -/

namespace NpuDriver

open Library ZeResult

/-- A number of the device as the enumeration; other numbers are of no known type. -/
def CounterValueType.ofNumber : Nat → CounterValueType
  | 0 => .VALUE_TYPE_UINT32
  | 1 => .VALUE_TYPE_UINT64
  | 2 => .VALUE_TYPE_FLOAT32
  | 3 => .VALUE_TYPE_FLOAT64
  | 4 => .VALUE_TYPE_BOOL8
  | _ => .VALUE_TYPE_MAX

/-- A metric group with its index, which the firmware has chosen, and the number of groups of its device. -/
structure IndexedMetricGroup where
  group : MetricGroup
  groupIndex : Nat
  numberOfMetricGroups : Nat
deriving DecidableEq, Repr

/-- `Device::loadMetricGroupsInfo`. -/
def Device.loadMetricGroupsInfo (metricGroupsInfo : List GroupInfo) : List IndexedMetricGroup :=
  metricGroupsInfo.map fun info =>
    { group := MetricGroup.loadMetricGroupsInfo
        (info.counterInfo.map fun counter => CounterValueType.ofNumber counter.valueType)
      groupIndex := info.groupIndex
      numberOfMetricGroups := metricGroupsInfo.length }

namespace IndexedMetricGroup

def getAllocationSize (group : IndexedMetricGroup) : Nat := group.group.allocationSize

/-- The groups and their counters are objects in memory, so that the sums of their sizes fit a `size_t`. -/
def metricAddressTableSize (group : IndexedMetricGroup) : Nat :=
  getFwDataCacheAlign (8 * group.numberOfMetricGroups)

def slotSize (group : IndexedMetricGroup) : Nat :=
  getFwDataCacheAlign (group.metricAddressTableSize + group.getAllocationSize)

/-- The multiplication is one of 64 bits. -/
def getMetricQueryAddrTableOffset (index : Nat) (group : IndexedMetricGroup) : Nat :=
  index * group.slotSize % 2 ^ 64

def getMetricQueryDataOffset (index : Nat) (group : IndexedMetricGroup) : Nat :=
  (getMetricQueryAddrTableOffset index group + group.metricAddressTableSize) % 2 ^ 64

end IndexedMetricGroup

/-- The pointers of a query into the buffer object of its pool. -/
structure PooledQuery where
  addrTablePtr : Nat
  dataPtr : Nat
deriving DecidableEq, Repr

/-- `memory` is that of the host. -/
structure MetricQueryPool where
  metricGroup : IndexedMetricGroup
  pQueryPoolBuffer : VPUBufferObject
  memory : Image
  metricQueries : List (Option PooledQuery)

/-- The calls on a pool and its queries. `activated` is the state of the metric group at the time of the call;
a null pointer to the size is `none`. -/
inductive PoolCall where
  | createMetricQuery (index : Nat) (phMetricQuery activated : Bool)
  | destroy (index : Nat)
  | getData (index : Nat) (pRawDataSize : Option Nat) (pRawData : Bool)
  | reset (index : Nat)
deriving DecidableEq, Repr

def PoolCall.index : PoolCall → Nat
  | .createMetricQuery index _ _ | .destroy index | .getData index _ _ | .reset index => index

namespace MetricQueryPool

/-- The constructor. -/
def new (ctx : VPUDeviceContext) (memory : Image) (metricGroup : IndexedMetricGroup) (poolSize : Nat) :
    Except ZeResult MetricQueryPool :=
  let bufferSize := metricGroup.getMetricQueryAddrTableOffset poolSize
  match ctx.createUntrackedBufferObject bufferSize true with
  | (none, _) => .error ZE_RESULT_ERROR_OUT_OF_HOST_MEMORY
  | (some bo, _) =>
    .ok
      { metricGroup := metricGroup
        pQueryPoolBuffer := bo
        memory := memory.write bo.basePtr (List.replicate bufferSize 0)
        metricQueries := List.replicate poolSize none }

/-- `reinterpret_cast<uint64_t *>` of the two offsets into the buffer object. -/
def addressTablePtr (pool : MetricQueryPool) (index : Nat) : Nat :=
  pool.pQueryPoolBuffer.basePtr + pool.metricGroup.getMetricQueryAddrTableOffset index

def dataPtr (pool : MetricQueryPool) (index : Nat) : Nat :=
  pool.pQueryPoolBuffer.basePtr + pool.metricGroup.getMetricQueryDataOffset index

/-- `addressTablePtr[metricGroup.getGroupIndex()]`. -/
def entryPtr (pool : MetricQueryPool) (index : Nat) : Nat :=
  pool.addressTablePtr index + 8 * pool.metricGroup.groupIndex

def createMetricQuery (pool : MetricQueryPool) (index : Nat) (phMetricQuery activated : Bool) :
    ZeResult × MetricQueryPool :=
  if !phMetricQuery then (ZE_RESULT_ERROR_INVALID_NULL_POINTER, pool)
  else if !activated then (ZE_RESULT_ERROR_DEPENDENCY_UNAVAILABLE, pool)
  else
    match pool.metricQueries[index]? with
    | none => (ZE_RESULT_ERROR_INVALID_ARGUMENT, pool)
    | some (some _) => (ZE_RESULT_ERROR_HANDLE_OBJECT_IN_USE, pool)
    | some none =>
      let entry := littleEndian 8 (pool.pQueryPoolBuffer.getVPUAddr (pool.dataPtr index))
      (ZE_RESULT_SUCCESS,
        { pool with
          memory := pool.memory.write (pool.entryPtr index) entry
          metricQueries := pool.metricQueries.set index (some ⟨pool.addressTablePtr index, pool.dataPtr index⟩) })

/-- `MetricQuery::getData`: the result, the size that is written back, and the bytes that are copied. -/
def getData (pool : MetricQueryPool) (query : PooledQuery) (pRawDataSize : Option Nat) (pRawData : Bool) :
    ZeResult × Option Nat × List UInt8 :=
  let dataSize := pool.metricGroup.getAllocationSize
  match pRawDataSize with
  | none => (ZE_RESULT_ERROR_INVALID_NULL_POINTER, none, [])
  | some 0 => (ZE_RESULT_SUCCESS, some dataSize, [])
  | some size =>
    let rawDataSize := if size > dataSize then dataSize else size
    if !pRawData then (ZE_RESULT_SUCCESS, some rawDataSize, [])
    else if dataSize > rawDataSize then (ZE_RESULT_ERROR_UNKNOWN, some rawDataSize, [])
    else (ZE_RESULT_SUCCESS, some rawDataSize, pool.memory.read query.dataPtr rawDataSize)

/-- `MetricQuery::reset`. -/
def reset (pool : MetricQueryPool) (query : PooledQuery) : MetricQueryPool :=
  { pool with
    memory := pool.memory.write query.dataPtr (List.replicate pool.metricGroup.getAllocationSize 0) }

/-- `MetricQuery::destroy`. -/
def destroy (pool : MetricQueryPool) (index : Nat) : MetricQueryPool :=
  { pool with metricQueries := pool.metricQueries.set index none }

/-- Reading the data changes nothing, and only a query that is there is called. -/
def step (pool : MetricQueryPool) (call : PoolCall) : MetricQueryPool :=
  match call with
  | .createMetricQuery index phMetricQuery activated => (pool.createMetricQuery index phMetricQuery activated).2
  | .destroy index => pool.destroy index
  | .getData .. => pool
  | .reset index =>
    match pool.metricQueries[index]? with
    | some (some query) => pool.reset query
    | _ => pool

end MetricQueryPool

/-- The arguments of a pool creation as far as they are checked: `none` for a null `desc`. -/
structure PoolDesc where
  type : Nat
  count : Nat
deriving DecidableEq, Repr

def ZET_METRIC_QUERY_POOL_TYPE_EXECUTION : Nat := 1

/-- `Context::createMetricQueryPool`; a group is null where there is none. -/
def Context.createMetricQueryPool (ctx : VPUDeviceContext) (memory : Image) (hDevice : Bool)
    (hMetricGroup : Option IndexedMetricGroup) (desc : Option PoolDesc) (phMetricQueryPool : Bool)
    (metricsLoaded activated : Bool) : Except ZeResult MetricQueryPool :=
  match hDevice, hMetricGroup with
  | true, some metricGroup =>
    match desc, phMetricQueryPool with
    | some desc, true =>
      if desc.type > ZET_METRIC_QUERY_POOL_TYPE_EXECUTION then .error ZE_RESULT_ERROR_INVALID_ENUMERATION
      else if desc.count = 0 then .error ZE_RESULT_ERROR_INVALID_SIZE
      else if !metricsLoaded then .error ZE_RESULT_ERROR_UNINITIALIZED
      else if !activated then .error ZE_RESULT_NOT_READY
      else MetricQueryPool.new ctx memory metricGroup desc.count
    | _, _ => .error ZE_RESULT_ERROR_INVALID_NULL_POINTER
  | _, _ => .error ZE_RESULT_ERROR_INVALID_NULL_HANDLE

end NpuDriver
