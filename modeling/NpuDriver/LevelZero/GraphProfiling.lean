import NpuDriver.Library.Observation
import NpuDriver.LevelZero.GraphLogs

/-! The profiling pools of a graph: one buffer object with a place for the output of every query. -/

namespace NpuDriver

open Library ZeResult

/-- `ze_graph_profiling_type_t`; `other` is a value without an enumerator. -/
inductive GraphProfilingType where
  | LAYER_LEVEL | TASK_LEVEL | RAW | other
deriving DecidableEq, Repr

/-- `memory` is that of the host, in which the buffer object is mapped. A query is the place that its data point to. -/
structure GraphProfilingPool where
  querySize : Nat
  poolBuffer : VPUBufferObject
  memory : Image
  queries : List (Option Nat)

/-- An inference that was recorded with a query: the pool, and the place of the output on the device. -/
structure ProfiledInference where
  pool : Nat
  vpuAddr : Nat
  size : Nat
deriving DecidableEq, Repr

/-- A graph as far as it is profiled. The decoder of the compiler's library is a function of the raw data. -/
structure ProfiledGraph where
  profilingOutputSize : Nat
  decode : GraphProfilingType → List UInt8 → Except Nat (List UInt8)
  profilingPools : List (Option GraphProfilingPool)
  inferences : List ProfiledInference

/-- What `ElfParser::allocateInternal` comes to: a buffer object with what the host's memory holds before, a null
pointer, or the `elf::AllocError` of a refused allocation. -/
inductive InternalAllocation where
  | returned (profilingMemory : Option (VPUBufferObject × Image))
  | allocError

inductive ProfilingCall where
  | createProfilingPool (count : Nat) (phProfilingPool : Bool) (allocation : InternalAllocation)
  | createProfilingQuery (pool index : Nat) (phProfilingQuery : Bool)
  | getData (pool index : Nat) (profilingType : GraphProfilingType) (pSize : Option Nat) (pData : Bool)
  | destroyQuery (pool index : Nat)
  | destroyPool (pool : Nat)
  | appendGraphExecute (pool index : Nat)
  | execute (inference offset : Nat) (data : List UInt8)

/-- The size behind the call, the bytes that were written, and a new pool. -/
structure ProfilingAnswer where
  result : LogResult
  pSize : Option Nat
  written : List UInt8
  phProfilingPool : Option Nat
deriving DecidableEq, Repr

namespace ProfilingAnswer

def only (result : ZeResult) : ProfilingAnswer := ⟨.driver result, none, [], none⟩

/-- The call is not made: there is no such object. -/
def absent : ProfilingAnswer := ⟨.passed 0, none, [], none⟩

/-- A size of 0 stands for all there is. -/
def fetch (content : List UInt8) (size : Nat) (pData : Bool) : ProfilingAnswer :=
  let size := if size = 0 ∨ size > content.length then content.length else size
  ⟨.driver ZE_RESULT_SUCCESS, some size, if pData then content.take size else [], none⟩

/-- The end of `Compiler::getDecodedProfilingBuffer`, where a size that does not fit throws. -/
def fetchDecoded (size : Nat) (pData : Bool) : Except Nat (List UInt8) → ProfilingAnswer
  | .error code => ⟨.passed code, some size, [], none⟩
  | .ok content =>
    if (size = 0 ∨ size > content.length) ∧ content.length ≥ 2 ^ 32 then
      ⟨.driver ZE_RESULT_ERROR_UNKNOWN, some size, [], none⟩
    else fetch content size pData

/-- `GraphProfilingQuery::getData` of the given raw data. -/
def ofQuery (decode : GraphProfilingType → List UInt8 → Except Nat (List UInt8)) (raw : List UInt8)
    (profilingType : GraphProfilingType) (pSize : Option Nat) (pData : Bool) : ProfilingAnswer :=
  match pSize with
  | none => only ZE_RESULT_ERROR_INVALID_NULL_POINTER
  | some size =>
    match profilingType with
    | .LAYER_LEVEL | .TASK_LEVEL => fetchDecoded size pData (decode profilingType raw)
    | .other => ⟨.driver ZE_RESULT_ERROR_INVALID_ARGUMENT, some size, [], none⟩
    | .RAW => fetch raw size pData

end ProfilingAnswer

namespace GraphProfilingPool

/-- The constructor. The buffer object comes with what the host's memory holds before. -/
def new (size count : Nat) : Option (VPUBufferObject × Image) → Except ZeResult GraphProfilingPool
  | none => .error ZE_RESULT_ERROR_INVALID_NULL_POINTER
  | some (profilingMemory, memory) =>
    if profilingMemory.allocSize < count * getFwDataCacheAlign size then .error ZE_RESULT_ERROR_OUT_OF_DEVICE_MEMORY
    else
      .ok
        { querySize := size
          poolBuffer := profilingMemory
          memory := memory.write profilingMemory.basePtr (List.replicate profilingMemory.allocSize 0)
          queries := List.replicate count none }

def dataPtr (pool : GraphProfilingPool) (index : Nat) : Nat :=
  pool.poolBuffer.basePtr + index * getFwDataCacheAlign pool.querySize

def createProfilingQuery (pool : GraphProfilingPool) (index : Nat) (phProfilingQuery : Bool) :
    ProfilingAnswer × GraphProfilingPool :=
  match pool.queries[index]? with
  | none => (.only ZE_RESULT_ERROR_INVALID_ARGUMENT, pool)
  | some query =>
    if !phProfilingQuery then (.only ZE_RESULT_ERROR_INVALID_NULL_POINTER, pool)
    else if query.isSome then (.only ZE_RESULT_ERROR_HANDLE_OBJECT_IN_USE, pool)
    else (.only ZE_RESULT_SUCCESS, { pool with queries := pool.queries.set index (some (pool.dataPtr index)) })

/-- A write of the device: the buffer object is mapped at its address on the device, too. -/
def deviceWrite (pool : GraphProfilingPool) (vpuAddr : Nat) (data : List UInt8) : GraphProfilingPool :=
  { pool with memory := pool.memory.write (pool.poolBuffer.basePtr + (vpuAddr - pool.poolBuffer.vpuAddr)) data }

end GraphProfilingPool

namespace ProfiledGraph

/-- `Graph::createProfilingPool`. An `elf::AllocError` passes the handler of `DriverError`, and the caller turns it
into an unknown error. -/
def createProfilingPool (graph : ProfiledGraph) (count : Nat) (phProfilingPool : Bool)
    (allocation : InternalAllocation) : ProfilingAnswer × ProfiledGraph :=
  if graph.profilingOutputSize = 0 then (.only ZE_RESULT_ERROR_NOT_AVAILABLE, graph)
  else if count = 0 then (.only ZE_RESULT_ERROR_INVALID_SIZE, graph)
  else if !phProfilingPool then (.only ZE_RESULT_ERROR_INVALID_NULL_POINTER, graph)
  else
    match allocation with
    | .allocError => (.only ZE_RESULT_ERROR_UNKNOWN, graph)
    | .returned profilingMemory =>
      match GraphProfilingPool.new graph.profilingOutputSize count profilingMemory with
      | .error result => (.only result, graph)
      | .ok pool =>
        (⟨.driver ZE_RESULT_SUCCESS, none, [], some graph.profilingPools.length⟩,
          { graph with profilingPools := graph.profilingPools ++ [some pool] })

/-- A call on a pool that may change it. -/
def onPool (graph : ProfiledGraph) (handle : Nat) (call : GraphProfilingPool → ProfilingAnswer × GraphProfilingPool) :
    ProfilingAnswer × ProfiledGraph :=
  withLive graph.profilingPools handle (.absent, graph) fun pool =>
    ((call pool).1, { graph with profilingPools := graph.profilingPools.set handle (some (call pool).2) })

/-- A call through the handle of a query. -/
def onQuery (graph : ProfiledGraph) (handle index : Nat)
    (call : GraphProfilingPool → Nat → ProfilingAnswer × ProfiledGraph) : ProfilingAnswer × ProfiledGraph :=
  withLive graph.profilingPools handle (.absent, graph) fun pool =>
    match pool.queries[index]? with
    | some (some data) => call pool data
    | _ => (.absent, graph)

def destroyPool (graph : ProfiledGraph) (handle : Nat) : ProfilingAnswer × ProfiledGraph :=
  withLive graph.profilingPools handle (.absent, graph) fun pool =>
    if pool.queries.any Option.isSome then (.only ZE_RESULT_ERROR_HANDLE_OBJECT_IN_USE, graph)
    else (.only ZE_RESULT_SUCCESS, { graph with profilingPools := graph.profilingPools.set handle none })

/-- The device writes inside the output that an inference was given; without its pool nobody can read it. -/
def execute (graph : ProfiledGraph) (inference offset : Nat) (data : List UInt8) : ProfilingAnswer × ProfiledGraph :=
  match graph.inferences[inference]? with
  | none => (.absent, graph)
  | some recorded =>
    if recorded.size < offset + data.length then (.absent, graph)
    else graph.onPool recorded.pool fun pool => (.absent, pool.deviceWrite (recorded.vpuAddr + offset) data)

def step (graph : ProfiledGraph) : ProfilingCall → ProfilingAnswer × ProfiledGraph
  | .createProfilingPool count phProfilingPool allocation =>
    graph.createProfilingPool count phProfilingPool allocation
  | .createProfilingQuery pool index phProfilingQuery =>
    graph.onPool pool fun pool => pool.createProfilingQuery index phProfilingQuery
  | .getData pool index profilingType pSize pData =>
    graph.onQuery pool index fun pool data =>
      (.ofQuery graph.decode (pool.memory.read data pool.querySize) profilingType pSize pData, graph)
  | .destroyQuery pool index =>
    graph.onQuery pool index fun owner _ =>
      (.only ZE_RESULT_SUCCESS,
        { graph with
          profilingPools :=
            graph.profilingPools.set pool (some { owner with queries := owner.queries.set index none }) })
  | .destroyPool pool => graph.destroyPool pool
  | .appendGraphExecute pool index =>
    graph.onQuery pool index fun owner data =>
      (.only ZE_RESULT_SUCCESS,
        { graph with
          inferences := graph.inferences ++ [⟨pool, owner.poolBuffer.getVPUAddr data, owner.querySize⟩] })
  | .execute inference offset data => graph.execute inference offset data

end ProfiledGraph

end NpuDriver
