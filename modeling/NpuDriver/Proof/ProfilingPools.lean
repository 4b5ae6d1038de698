import NpuDriver.Library.SlotCells
import NpuDriver.LevelZero.GraphProfiling

/-! The profiling queries of a graph as cells of tables. -/

namespace NpuDriver

open Library ZeResult

/-- A pool as its callers see it: which indices have a query, and what each cell holds. -/
structure ProfilingTable where
  taken : List Bool
  cells : Nat → Image

/-- The pools of a graph. An inference is the cell that it writes. -/
structure ProfilingTables where
  size : Nat
  decode : GraphProfilingType → List UInt8 → Except Nat (List UInt8)
  pools : List (Option ProfilingTable)
  inferences : List (Nat × Nat)

def ProfilingTable.createProfilingQuery (table : ProfilingTable) (index : Nat) (phProfilingQuery : Bool) :
    ProfilingAnswer × ProfilingTable :=
  match table.taken[index]? with
  | none => (.only ZE_RESULT_ERROR_INVALID_ARGUMENT, table)
  | some taken =>
    if !phProfilingQuery then (.only ZE_RESULT_ERROR_INVALID_NULL_POINTER, table)
    else if taken then (.only ZE_RESULT_ERROR_HANDLE_OBJECT_IN_USE, table)
    else (.only ZE_RESULT_SUCCESS, { table with taken := table.taken.set index true })

namespace ProfilingTables

def createProfilingPool (tables : ProfilingTables) (count : Nat) (phProfilingPool : Bool)
    (allocation : InternalAllocation) : ProfilingAnswer × ProfilingTables :=
  if tables.size = 0 then (.only ZE_RESULT_ERROR_NOT_AVAILABLE, tables)
  else if count = 0 then (.only ZE_RESULT_ERROR_INVALID_SIZE, tables)
  else if !phProfilingPool then (.only ZE_RESULT_ERROR_INVALID_NULL_POINTER, tables)
  else
    match allocation with
    | .allocError => (.only ZE_RESULT_ERROR_UNKNOWN, tables)
    | .returned none => (.only ZE_RESULT_ERROR_INVALID_NULL_POINTER, tables)
    | .returned (some (profilingMemory, _)) =>
      if profilingMemory.allocSize < count * getFwDataCacheAlign tables.size then
        (.only ZE_RESULT_ERROR_OUT_OF_DEVICE_MEMORY, tables)
      else
        (⟨.driver ZE_RESULT_SUCCESS, none, [], some tables.pools.length⟩,
          { tables with pools := tables.pools ++ [some ⟨List.replicate count false, fun _ _ => 0⟩] })

def onPool (tables : ProfilingTables) (handle : Nat) (call : ProfilingTable → ProfilingAnswer × ProfilingTable) :
    ProfilingAnswer × ProfilingTables :=
  withLive tables.pools handle (.absent, tables) fun table =>
    ((call table).1, { tables with pools := tables.pools.set handle (some (call table).2) })

def onQuery (tables : ProfilingTables) (handle index : Nat) (call : ProfilingTable → ProfilingAnswer × ProfilingTables) :
    ProfilingAnswer × ProfilingTables :=
  withLive tables.pools handle (.absent, tables) fun table =>
    match table.taken[index]? with
    | some true => call table
    | _ => (.absent, tables)

def step (tables : ProfilingTables) : ProfilingCall → ProfilingAnswer × ProfilingTables
  | .createProfilingPool count phProfilingPool allocation =>
    tables.createProfilingPool count phProfilingPool allocation
  | .createProfilingQuery pool index phProfilingQuery =>
    tables.onPool pool fun table => table.createProfilingQuery index phProfilingQuery
  | .getData pool index profilingType pSize pData =>
    tables.onQuery pool index fun table =>
      (.ofQuery tables.decode ((table.cells index).read 0 tables.size) profilingType pSize pData, tables)
  | .destroyQuery pool index =>
    tables.onQuery pool index fun table =>
      (.only ZE_RESULT_SUCCESS,
        { tables with pools := tables.pools.set pool (some { table with taken := table.taken.set index false }) })
  | .destroyPool pool =>
    withLive tables.pools pool (.absent, tables) fun table =>
      if true ∈ table.taken then (.only ZE_RESULT_ERROR_HANDLE_OBJECT_IN_USE, tables)
      else (.only ZE_RESULT_SUCCESS, { tables with pools := tables.pools.set pool none })
  | .appendGraphExecute pool index =>
    tables.onQuery pool index fun _ =>
      (.only ZE_RESULT_SUCCESS, { tables with inferences := tables.inferences ++ [(pool, index)] })
  | .execute inference offset data =>
    match tables.inferences[inference]? with
    | none => (.absent, tables)
    | some (pool, index) =>
      if tables.size < offset + data.length then (.absent, tables)
      else
        tables.onPool pool fun table =>
          (.absent,
            { table with cells := Function.update table.cells index ((table.cells index).write offset data) })

end ProfilingTables

namespace GraphProfilingPool

variable {pool : GraphProfilingPool} {table : ProfilingTable} {size index offset : Nat} {data : List UInt8}

/-- The outputs of the queries. -/
def outputs (pool : GraphProfilingPool) : CellArray :=
  ⟨pool.poolBuffer.basePtr, getFwDataCacheAlign pool.querySize, pool.querySize, le_getFwDataCacheAlign _⟩

/-- A pool stands for a table. -/
structure Laid (size : Nat) (pool : GraphProfilingPool) (table : ProfilingTable) : Prop where
  sized : 0 < size
  querySize : pool.querySize = size
  room : pool.queries.length * getFwDataCacheAlign size ≤ pool.poolBuffer.allocSize
  taken : table.taken = pool.queries.map Option.isSome
  pointers : ∀ index data, pool.queries[index]? = some (some data) → data = pool.dataPtr index
  stores : pool.outputs.Stores pool.memory pool.queries.length table.cells

/-- A pool that has just been made, with all cells cleared. -/
theorem new_laid (sized : 0 < size) {count : Nat} {profilingMemory : VPUBufferObject} (memory : Image)
    (enough : count * getFwDataCacheAlign size ≤ profilingMemory.allocSize) :
    Laid size
      { querySize := size
        poolBuffer := profilingMemory
        memory := memory.write profilingMemory.basePtr (List.replicate profilingMemory.allocSize 0)
        queries := List.replicate count none }
      ⟨List.replicate count false, fun _ _ => 0⟩ := by
  refine ⟨sized, rfl, ?_, ?_, ?_, ?_⟩
  · rw [List.length_replicate]
    exact enough
  · rw [List.map_replicate]
    rfl
  · intro index data found
    rw [List.getElem?_replicate] at found
    split at found
    · cases found
    · cases found
  · rw [List.length_replicate]
    apply CellArray.Stores.constant enough
    intro position below
    have inside : position < (List.replicate profilingMemory.allocSize (0 : UInt8)).length := by
      rw [List.length_replicate]
      exact below
    have written := @Image.write_at position profilingMemory.basePtr memory _ inside
    rw [List.getElem_replicate] at written
    exact written

/-- Another owner of an index; the cells stay. -/
theorem Laid.set (laid : Laid size pool table) (index : Nat) {query : Option Nat}
    (pointer : ∀ data, query = some data → data = pool.dataPtr index) :
    Laid size { pool with queries := pool.queries.set index query }
      { table with taken := table.taken.set index query.isSome } := by
  refine ⟨laid.sized, laid.querySize, ?_, ?_, ?_, ?_⟩
  · rw [List.length_set]
    exact laid.room
  · rw [List.map_set, laid.taken]
  · intro other data found
    rw [List.getElem?_set] at found
    split at found
    · rename_i same
      split at found
      · exact same ▸ pointer data (Option.some.inj found)
      · cases found
    · exact laid.pointers other data found
  · rw [List.length_set]
    exact laid.stores

theorem Laid.taken_getElem? (laid : Laid size pool table) (index : Nat) :
    table.taken[index]? = (pool.queries[index]?).map Option.isSome := by
  rw [laid.taken, List.getElem?_map]

theorem Laid.read (laid : Laid size pool table) (below : index < pool.queries.length) :
    pool.memory.read (pool.dataPtr index) pool.querySize = (table.cells index).read 0 size := by
  rw [← laid.querySize]
  show pool.memory.read (pool.dataPtr index + 0) pool.querySize = (table.cells index).read 0 pool.querySize
  exact laid.stores.read below (Nat.le_of_eq (Nat.zero_add _))

/-- Where the device finds the output of a query. -/
theorem Laid.getVPUAddr (laid : Laid size pool table) (below : index < pool.queries.length) :
    pool.poolBuffer.getVPUAddr (pool.dataPtr index) = pool.poolBuffer.vpuAddr + index * getFwDataCacheAlign size := by
  have slot := Region.slot_stop_le 0 (getFwDataCacheAlign size) below
  have wide := le_getFwDataCacheAlign size
  have sized := laid.sized
  have room := laid.room
  simp only [Region.stop, Region.slot] at slot
  have inside : pool.poolBuffer.isInRange (pool.dataPtr index) = true := by
    simp only [VPUBufferObject.isInRange, GraphProfilingPool.dataPtr, laid.querySize, Bool.and_eq_true,
      decide_eq_true_eq]
    omega
  rw [VPUBufferObject.getVPUAddr_of_inRange inside, GraphProfilingPool.dataPtr, laid.querySize, Nat.add_sub_cancel_left]

theorem Laid.createProfilingQuery (laid : Laid size pool table) (index : Nat) (phProfilingQuery : Bool) :
    (pool.createProfilingQuery index phProfilingQuery).1 = (table.createProfilingQuery index phProfilingQuery).1 ∧
      Laid size (pool.createProfilingQuery index phProfilingQuery).2
        (table.createProfilingQuery index phProfilingQuery).2 ∧
          (pool.createProfilingQuery index phProfilingQuery).2.poolBuffer = pool.poolBuffer := by
  rw [GraphProfilingPool.createProfilingQuery, ProfilingTable.createProfilingQuery, laid.taken_getElem? index]
  cases pool.queries[index]? with
  | none => exact ⟨rfl, laid, rfl⟩
  | some query =>
    cases phProfilingQuery with
    | false => exact ⟨rfl, laid, rfl⟩
    | true =>
      cases query with
      | some data => exact ⟨rfl, laid, rfl⟩
      | none => exact ⟨rfl, laid.set index fun data same => (Option.some.inj same).symm, rfl⟩

/-- The device's write through the address that a query gave it. -/
theorem Laid.deviceWrite (laid : Laid size pool table) (index : Nat) (inside : offset + data.length ≤ size) :
    Laid size
      (pool.deviceWrite (pool.poolBuffer.vpuAddr + index * getFwDataCacheAlign size + offset) data)
      { table with cells := Function.update table.cells index ((table.cells index).write offset data) } := by
  refine ⟨laid.sized, laid.querySize, laid.room, laid.taken, laid.pointers, ?_⟩
  have place : pool.poolBuffer.basePtr +
      (pool.poolBuffer.vpuAddr + index * getFwDataCacheAlign size + offset - pool.poolBuffer.vpuAddr) =
        pool.outputs.address index + offset := by
    simp only [CellArray.address, outputs, laid.querySize]
    omega
  have width : offset + data.length ≤ pool.outputs.width := Nat.le_trans inside (Nat.le_of_eq laid.querySize.symm)
  simp only [GraphProfilingPool.deviceWrite, place]
  exact laid.stores.write width

end GraphProfilingPool

namespace ProfiledGraph

variable {graph : ProfiledGraph} {tables : ProfilingTables}

/-- The inference was given the output of the cell, as long as the pool is there. -/
structure Reaches (size : Nat) (pools : List (Option GraphProfilingPool)) (inference : ProfiledInference)
    (cell : Nat × Nat) : Prop where
  owner : inference.pool = cell.1
  room : inference.size = size
  created : cell.1 < pools.length
  output : ∀ pool, live pools cell.1 = some pool →
    inference.vpuAddr = pool.poolBuffer.vpuAddr + cell.2 * getFwDataCacheAlign size

/-- A graph stands for its tables. -/
structure Stands (graph : ProfiledGraph) (tables : ProfilingTables) : Prop where
  size : graph.profilingOutputSize = tables.size
  decode : graph.decode = tables.decode
  pools : TablesRelated (GraphProfilingPool.Laid graph.profilingOutputSize) graph.profilingPools tables.pools
  inferences : List.Forall₂ (Reaches graph.profilingOutputSize graph.profilingPools) graph.inferences tables.inferences

/-- A pool changes in place. -/
theorem Stands.replace (stands : Stands graph tables) {handle : Nat} {pool next : GraphProfilingPool}
    {partner : ProfilingTable} (found : live graph.profilingPools handle = some pool)
    (laid : GraphProfilingPool.Laid graph.profilingOutputSize next partner)
    (buffer : next.poolBuffer = pool.poolBuffer) :
    Stands { graph with profilingPools := graph.profilingPools.set handle (some next) }
      { tables with pools := tables.pools.set handle (some partner) } := by
  refine ⟨stands.size, stands.decode, stands.pools.set (live_lt found) (.some laid), ?_⟩
  apply stands.inferences.imp
  intro inference cell reaches
  refine ⟨reaches.owner, reaches.room, ?_, ?_⟩
  · rw [List.length_set]
    exact reaches.created
  · intro other present
    rw [live_set (live_lt found)] at present
    split at present
    · rename_i same
      rw [← Option.some.inj present, buffer]
      exact reaches.output pool (same ▸ found)
    · exact reaches.output other present

theorem Stands.onPool (stands : Stands graph tables) (handle : Nat)
    {call : GraphProfilingPool → ProfilingAnswer × GraphProfilingPool}
    {tableCall : ProfilingTable → ProfilingAnswer × ProfilingTable}
    (alike : ∀ pool table, live graph.profilingPools handle = some pool →
      GraphProfilingPool.Laid graph.profilingOutputSize pool table → (call pool).1 = (tableCall table).1 ∧
        GraphProfilingPool.Laid graph.profilingOutputSize (call pool).2 (tableCall table).2 ∧
          (call pool).2.poolBuffer = pool.poolBuffer) :
    (graph.onPool handle call).1 = (tables.onPool handle tableCall).1 ∧
      Stands (graph.onPool handle call).2 (tables.onPool handle tableCall).2 := by
  apply stands.pools.withLive
    (fun (left : ProfilingAnswer × ProfiledGraph) (right : ProfilingAnswer × ProfilingTables) =>
      left.1 = right.1 ∧ Stands left.2 right.2) handle ⟨rfl, stands⟩
  intro pool table found laid
  obtain ⟨same, next, buffer⟩ := alike pool table found laid
  exact ⟨same, stands.replace found next buffer⟩

theorem Stands.onQuery (stands : Stands graph tables) (handle index : Nat)
    {call : GraphProfilingPool → Nat → ProfilingAnswer × ProfiledGraph}
    {tableCall : ProfilingTable → ProfilingAnswer × ProfilingTables}
    (alike : ∀ pool table, live graph.profilingPools handle = some pool →
      GraphProfilingPool.Laid graph.profilingOutputSize pool table → index < pool.queries.length →
        (call pool (pool.dataPtr index)).1 = (tableCall table).1 ∧
          Stands (call pool (pool.dataPtr index)).2 (tableCall table).2) :
    (graph.onQuery handle index call).1 = (tables.onQuery handle index tableCall).1 ∧
      Stands (graph.onQuery handle index call).2 (tables.onQuery handle index tableCall).2 := by
  apply stands.pools.withLive
    (fun (left : ProfilingAnswer × ProfiledGraph) (right : ProfilingAnswer × ProfilingTables) =>
      left.1 = right.1 ∧ Stands left.2 right.2) handle ⟨rfl, stands⟩
  intro pool table found laid
  rw [laid.taken_getElem? index]
  cases held : pool.queries[index]? with
  | none => exact ⟨rfl, stands⟩
  | some query =>
    cases query with
    | none => exact ⟨rfl, stands⟩
    | some data =>
      rw [laid.pointers index data held]
      exact alike pool table found laid (List.getElem?_eq_some_iff.mp held).1

/-- A new pool, which no inference was recorded with. -/
theorem Stands.append (stands : Stands graph tables) {pool : GraphProfilingPool} {table : ProfilingTable}
    (laid : GraphProfilingPool.Laid graph.profilingOutputSize pool table) :
    Stands { graph with profilingPools := graph.profilingPools ++ [some pool] }
      { tables with pools := tables.pools ++ [some table] } := by
  refine ⟨stands.size, stands.decode, stands.pools.append laid, ?_⟩
  apply stands.inferences.imp
  intro inference cell reaches
  refine ⟨reaches.owner, reaches.room, ?_, ?_⟩
  · rw [List.length_append]
    exact Nat.lt_add_right _ reaches.created
  · intro other present
    rw [live_append, if_neg (Nat.ne_of_lt reaches.created)] at present
    exact reaches.output other present

/-- A pool without queries goes; the inferences that were recorded with it write nowhere. -/
theorem Stands.destroyPool (stands : Stands graph tables) (handle : Nat) :
    (graph.destroyPool handle).1 = (tables.step (.destroyPool handle)).1 ∧
      Stands (graph.destroyPool handle).2 (tables.step (.destroyPool handle)).2 := by
  apply stands.pools.withLive
    (fun (left : ProfilingAnswer × ProfiledGraph) (right : ProfilingAnswer × ProfilingTables) =>
      left.1 = right.1 ∧ Stands left.2 right.2) handle ⟨rfl, stands⟩
  intro pool table found laid
  have busy : true ∈ table.taken ↔ pool.queries.any Option.isSome = true := by
    rw [laid.taken, List.mem_map, List.any_eq_true]
  by_cases occupied : pool.queries.any Option.isSome = true
  · rw [if_pos occupied, if_pos (busy.mpr occupied)]
    exact ⟨rfl, stands⟩
  · rw [if_neg occupied, if_neg (mt busy.mp occupied)]
    refine ⟨rfl, stands.size, stands.decode, stands.pools.set (live_lt found) .none, ?_⟩
    apply stands.inferences.imp
    intro inference cell reaches
    refine ⟨reaches.owner, reaches.room, ?_, ?_⟩
    · rw [List.length_set]
      exact reaches.created
    · intro other present
      rw [live_set (live_lt found)] at present
      split at present
      · cases present
      · exact reaches.output other present

theorem Stands.appendGraphExecute (stands : Stands graph tables) (handle index : Nat) :
    (graph.step (.appendGraphExecute handle index)).1 = (tables.step (.appendGraphExecute handle index)).1 ∧
      Stands (graph.step (.appendGraphExecute handle index)).2 (tables.step (.appendGraphExecute handle index)).2 := by
  apply stands.onQuery handle index
  intro pool table found laid below
  refine ⟨rfl, stands.size, stands.decode, stands.pools, ?_⟩
  have reaches : Reaches graph.profilingOutputSize graph.profilingPools
      ⟨handle, pool.poolBuffer.getVPUAddr (pool.dataPtr index), pool.querySize⟩ (handle, index) := by
    refine ⟨rfl, laid.querySize, live_lt found, ?_⟩
    intro other present
    obtain rfl := Option.some.inj (present.symm.trans found)
    exact laid.getVPUAddr below
  exact List.rel_append stands.inferences (.cons reaches .nil)

/-- An inference reaches the cell of its query, whoever owns it by then. -/
theorem Stands.execute (stands : Stands graph tables) (inference offset : Nat) (data : List UInt8) :
    (graph.execute inference offset data).1 = (tables.step (.execute inference offset data)).1 ∧
      Stands (graph.execute inference offset data).2 (tables.step (.execute inference offset data)).2 := by
  rw [ProfiledGraph.execute, ProfilingTables.step]
  cases found : graph.inferences[inference]? with
  | none =>
    rw [List.getElem?_eq_none]
    · exact ⟨rfl, stands⟩
    · rw [← stands.inferences.length_eq]
      exact List.getElem?_eq_none_iff.mp found
  | some recorded =>
    obtain ⟨below, entry⟩ := List.getElem?_eq_some_iff.mp found
    have inside : inference < tables.inferences.length := stands.inferences.length_eq ▸ below
    have reaches := stands.inferences.get below inside
    rw [List.get_eq_getElem, List.get_eq_getElem, entry] at reaches
    rw [List.getElem?_eq_getElem inside]
    generalize tables.inferences[inference] = cell at reaches
    obtain ⟨pool, index⟩ := cell
    simp only [reaches.room, reaches.owner, stands.size]
    split
    · exact ⟨rfl, stands⟩
    · rename_i fits
      apply stands.onPool pool
      intro owner table present laid
      rw [reaches.output owner present]
      rw [stands.size] at laid ⊢
      exact ⟨rfl, laid.deviceWrite index (Nat.not_lt.mp fits), rfl⟩

theorem Stands.createPool (stands : Stands graph tables) (count : Nat) (phProfilingPool : Bool)
    (allocation : InternalAllocation) :
    (graph.createProfilingPool count phProfilingPool allocation).1 =
        (tables.createProfilingPool count phProfilingPool allocation).1 ∧
      Stands (graph.createProfilingPool count phProfilingPool allocation).2
        (tables.createProfilingPool count phProfilingPool allocation).2 := by
  obtain ⟨size, decode, pools, inferences⟩ := tables
  obtain rfl : graph.profilingOutputSize = size := stands.size
  simp only [ProfiledGraph.createProfilingPool, ProfilingTables.createProfilingPool]
  split
  · exact ⟨rfl, stands⟩
  · split
    · exact ⟨rfl, stands⟩
    · split
      · exact ⟨rfl, stands⟩
      · match allocation with
        | .allocError => exact ⟨rfl, stands⟩
        | .returned none => exact ⟨rfl, stands⟩
        | .returned (some (profilingMemory, memory)) =>
          have sized : 0 < graph.profilingOutputSize := by omega
          by_cases small : profilingMemory.allocSize < count * getFwDataCacheAlign graph.profilingOutputSize
          · simp only [GraphProfilingPool.new, small, ↓reduceIte]
            exact ⟨trivial, stands⟩
          · have laid := GraphProfilingPool.new_laid sized memory (Nat.not_lt.mp small)
            simp only [GraphProfilingPool.new, small, ↓reduceIte, stands.pools.length, true_and]
            exact stands.append laid

theorem step_simulates : Simulates step ProfilingTables.step (fun _ _ => True) Stands := by
  intro graph tables call stands _
  cases call with
  | createProfilingPool count phProfilingPool allocation =>
    exact stands.createPool count phProfilingPool allocation
  | createProfilingQuery pool index phProfilingQuery =>
    apply stands.onPool pool
    intro pool table _ laid
    exact laid.createProfilingQuery index phProfilingQuery
  | getData pool index profilingType pSize pData =>
    apply stands.onQuery pool index
    intro pool table _ laid below
    rw [laid.read below, stands.decode, stands.size]
    exact ⟨rfl, stands⟩
  | destroyQuery handle index =>
    apply stands.onQuery handle index
    intro pool table found laid below
    exact ⟨rfl, stands.replace found (laid.set index (by simp)) rfl⟩
  | destroyPool pool => exact stands.destroyPool pool
  | appendGraphExecute pool index => exact stands.appendGraphExecute pool index
  | execute inference offset data => exact stands.execute inference offset data

/-- A graph that has just been created. -/
def initial (profilingOutputSize : Nat) (decode : GraphProfilingType → List UInt8 → Except Nat (List UInt8)) :
    ProfiledGraph :=
  ⟨profilingOutputSize, decode, [], []⟩

/-- What callers learn of the profiling of a graph is what they would learn of tables with a cell for every query: an
inference writes the cell of the query that it was recorded with and no other, in its own pool only, and the cells of
an index are kept from one query to the next. -/
theorem queries_tabulated (profilingOutputSize : Nat)
    (decode : GraphProfilingType → List UInt8 → Except Nat (List UInt8)) (calls : List ProfilingCall) :
    answers step (initial profilingOutputSize decode) calls =
      answers ProfilingTables.step ⟨profilingOutputSize, decode, [], []⟩ calls := by
  have stands : Stands (initial profilingOutputSize decode) ⟨profilingOutputSize, decode, [], []⟩ :=
    ⟨rfl, rfl, .nil _, .nil⟩
  exact step_simulates.answers_eq stands (guarded_true _ calls)

/-- The second query of an index reads what the first one's inference wrote, before and after that query is gone. -/
example :
    let buffer : VPUBufferObject := { id := 0, handle := 1, basePtr := 4096, allocSize := 128, vpuAddr := 8192 }
    (answers ProfilingTables.step ⟨4, fun _ raw => .ok raw, [], []⟩
      [.createProfilingPool 2 true (.returned (some (buffer, fun _ => 9))), .createProfilingQuery 0 1 true,
        .appendGraphExecute 0 1, .execute 0 0 [1, 2], .destroyQuery 0 1, .createProfilingQuery 0 1 true,
        .execute 0 2 [3], .getData 0 1 .RAW (some 0) true]).getLast? = some ⟨.driver ZE_RESULT_SUCCESS, some 4, [1, 2, 3, 0], none⟩ := by
  decide

end ProfiledGraph

end NpuDriver
