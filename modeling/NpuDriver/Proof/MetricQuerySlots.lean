import NpuDriver.LevelZero.MetricQueryPool
import NpuDriver.Library.Alignment
import NpuDriver.Library.Regions

/-! The regions of the queries of a pool, and which of them a call writes to. -/

namespace NpuDriver

open Library ZeResult

namespace IndexedMetricGroup

variable {group : IndexedMetricGroup}

/-- The address table has room for the entry of the group. -/
def EntryFits (group : IndexedMetricGroup) : Prop := 8 * (group.groupIndex + 1) ≤ group.metricAddressTableSize

instance : Decidable group.EntryFits := inferInstanceAs (Decidable (_ ≤ _))

theorem slotSize_ge (group : IndexedMetricGroup) :
    group.metricAddressTableSize + group.getAllocationSize ≤ group.slotSize := le_getFwDataCacheAlign _

theorem slotSize_dvd (group : IndexedMetricGroup) : 64 ∣ group.slotSize := dvd_roundUp _ 64

theorem metricAddressTableSize_dvd (group : IndexedMetricGroup) : 64 ∣ group.metricAddressTableSize :=
  dvd_roundUp _ 64

theorem offset_eq {index count : Nat} (fits : count * group.slotSize < 2 ^ 64) (below : index ≤ count) :
    group.getMetricQueryAddrTableOffset index = index * group.slotSize :=
  Nat.mod_eq_of_lt (Nat.lt_of_le_of_lt (Nat.mul_le_mul_right group.slotSize below) fits)

theorem dataOffset_eq {index count : Nat} (fits : count * group.slotSize < 2 ^ 64) (below : index < count) :
    group.getMetricQueryDataOffset index = index * group.slotSize + group.metricAddressTableSize := by
  have room := group.slotSize_ge
  have next := Region.slot_stop_le 0 group.slotSize below
  simp only [Region.slot, Region.stop] at next
  rw [getMetricQueryDataOffset, offset_eq fits (Nat.le_of_lt below), Nat.mod_eq_of_lt (by omega)]

end IndexedMetricGroup

namespace MetricQueryPool

variable {pool next : MetricQueryPool} {index target : Nat} {region : Region}

def addressTable (pool : MetricQueryPool) (index : Nat) : Region :=
  ⟨pool.addressTablePtr index, pool.metricGroup.metricAddressTableSize⟩

def dataRegion (pool : MetricQueryPool) (index : Nat) : Region :=
  ⟨pool.dataPtr index, pool.metricGroup.getAllocationSize⟩

/-- The entry of the group in the address table of a query. -/
def entryRegion (pool : MetricQueryPool) (index : Nat) : Region := ⟨pool.entryPtr index, 8⟩

def bufferRegion (pool : MetricQueryPool) : Region :=
  ⟨pool.pQueryPoolBuffer.basePtr, pool.pQueryPoolBuffer.allocSize⟩

/-- What belongs to the query of an index. -/
def regions (pool : MetricQueryPool) (index : Nat) : List Region := [pool.addressTable index, pool.dataRegion index]

/-- The layout of the slots of a pool. -/
structure SlotLayout (pool : MetricQueryPool) : Prop where
  aligned : ∀ index < pool.metricQueries.length, ∀ region ∈ pool.regions index, 64 ∣ region.start
  inside : ∀ index < pool.metricQueries.length, ∀ region ∈ pool.regions index, region.Within pool.bufferRegion
  apart : ∀ index < pool.metricQueries.length, ∀ other < pool.metricQueries.length, index ≠ other →
    ∀ region ∈ pool.regions index, ∀ far ∈ pool.regions other, region.Apart far
  ordered : ∀ index < pool.metricQueries.length, (pool.addressTable index).stop ≤ (pool.dataRegion index).start
  entry : ∀ index < pool.metricQueries.length, (pool.entryRegion index).Within (pool.addressTable index)

/-- A call on one query changes nothing that belongs to another one. -/
def Isolates (pool : MetricQueryPool) (call : PoolCall) : Prop :=
  ∀ index < pool.metricQueries.length, index ≠ call.index → ∀ region ∈ pool.regions index,
    (pool.step call).memory.readRegion region = pool.memory.readRegion region

/-- The slots are laid out as they should be, and every call of every run leaves the others' alone. -/
def SlotsSeparate (pool : MetricQueryPool) : Prop :=
  SlotLayout pool ∧ ∀ calls call, Isolates (runFrom step pool calls) call

/-- A pool as the constructor leaves it. -/
structure Fresh (group : IndexedMetricGroup) (count : Nat) (pool : MetricQueryPool) : Prop where
  metricGroup : pool.metricGroup = group
  size : pool.pQueryPoolBuffer.allocSize = group.getMetricQueryAddrTableOffset count
  queries : pool.metricQueries = List.replicate count none

theorem Fresh.length {group : IndexedMetricGroup} {count : Nat} (fresh : Fresh group count pool) :
    pool.metricQueries.length = count := by
  rw [fresh.queries, List.length_replicate]

theorem new_fresh {ctx : VPUDeviceContext} {memory : Image} {group : IndexedMetricGroup} {poolSize : Nat}
    (created : new ctx memory group poolSize = .ok pool) : Fresh group poolSize pool := by
  rw [new] at created
  generalize answered : ctx.createUntrackedBufferObject (group.getMetricQueryAddrTableOffset poolSize) true = answer
    at created
  obtain ⟨bo, next⟩ := answer
  cases bo with
  | none => cases created
  | some bo =>
    cases created
    obtain ⟨-, size, -⟩ := VPUDeviceContext.createUntrackedBufferObject_some answered
    exact ⟨rfl, size, rfl⟩

/-- The pool behind a successful creation of a query. -/
def occupied (pool : MetricQueryPool) (index : Nat) : MetricQueryPool :=
  { pool with
    memory := pool.memory.write (pool.entryPtr index)
      (littleEndian 8 (pool.pQueryPoolBuffer.getVPUAddr (pool.dataPtr index)))
    metricQueries := pool.metricQueries.set index (some ⟨pool.addressTablePtr index, pool.dataPtr index⟩) }

/-- What a call can do: nothing, the creation of a query where there is none, a destruction, or a reset. -/
inductive Stepped (pool : MetricQueryPool) (index : Nat) : MetricQueryPool → Prop
  | unchanged : Stepped pool index pool
  | created (free : pool.metricQueries[index]? = some none) : Stepped pool index (pool.occupied index)
  | destroyed : Stepped pool index (pool.destroy index)
  | cleared {query : PooledQuery} (held : pool.metricQueries[index]? = some (some query)) :
    Stepped pool index (pool.reset query)

theorem step_stepped (pool : MetricQueryPool) (call : PoolCall) : Stepped pool call.index (pool.step call) := by
  cases call with
  | createMetricQuery index phMetricQuery activated =>
    simp only [step, createMetricQuery, PoolCall.index]
    split
    · exact .unchanged
    · split
      · exact .unchanged
      · split
        · exact .unchanged
        · exact .unchanged
        · rename_i free
          exact .created free
  | destroy index => exact .destroyed
  | getData => exact .unchanged
  | reset index =>
    simp only [step, PoolCall.index]
    split
    · rename_i held
      exact .cleared held
    · exact .unchanged

/-- What the calls keep of a pool. -/
structure Registered (start pool : MetricQueryPool) : Prop where
  metricGroup : pool.metricGroup = start.metricGroup
  buffer : pool.pQueryPoolBuffer = start.pQueryPoolBuffer
  length : pool.metricQueries.length = start.metricQueries.length
  pointers : ∀ (index : Nat) (query : PooledQuery), pool.metricQueries[index]? = some (some query) →
    query = ⟨start.addressTablePtr index, start.dataPtr index⟩

namespace Registered

variable {start : MetricQueryPool}

theorem fresh {group : IndexedMetricGroup} {count : Nat} (fresh : Fresh group count pool) : Registered pool pool where
  metricGroup := rfl
  buffer := rfl
  length := rfl
  pointers := by
    intro index query found
    rw [fresh.queries, List.getElem?_replicate] at found
    split at found <;> cases found

theorem addressTablePtr (registered : Registered start pool) (index : Nat) :
    pool.addressTablePtr index = start.addressTablePtr index := by
  rw [MetricQueryPool.addressTablePtr, MetricQueryPool.addressTablePtr, registered.metricGroup, registered.buffer]

theorem dataPtr (registered : Registered start pool) (index : Nat) : pool.dataPtr index = start.dataPtr index := by
  rw [MetricQueryPool.dataPtr, MetricQueryPool.dataPtr, registered.metricGroup, registered.buffer]

theorem entryPtr (registered : Registered start pool) (index : Nat) : pool.entryPtr index = start.entryPtr index := by
  rw [MetricQueryPool.entryPtr, MetricQueryPool.entryPtr, registered.addressTablePtr, registered.metricGroup]

theorem regions (registered : Registered start pool) (index : Nat) : pool.regions index = start.regions index := by
  simp only [MetricQueryPool.regions, addressTable, dataRegion, registered.addressTablePtr, registered.dataPtr,
    registered.metricGroup]

/-- The memory may change, and the entry of an index to nothing or to the query of this index. -/
theorem set (registered : Registered start pool) (memory : Image) (index : Nat) {entry : Option PooledQuery}
    (pointers : ∀ query, entry = some query → query = ⟨start.addressTablePtr index, start.dataPtr index⟩) :
    Registered start { pool with memory := memory, metricQueries := pool.metricQueries.set index entry } where
  metricGroup := registered.metricGroup
  buffer := registered.buffer
  length := by rw [List.length_set, registered.length]
  pointers := by
    intro other query found
    rw [List.getElem?_set] at found
    split at found
    · rename_i same
      split at found
      · subst same
        exact pointers query (Option.some.inj found)
      · cases found
    · exact registered.pointers other query found

theorem stepped (registered : Registered start pool) (stepped : Stepped pool target next) : Registered start next := by
  cases stepped with
  | unchanged => exact registered
  | created free =>
    apply registered.set
    rintro query ⟨⟩
    rw [registered.addressTablePtr, registered.dataPtr]
  | destroyed => exact registered.set pool.memory target nofun
  | cleared held => exact ⟨registered.metricGroup, registered.buffer, registered.length, registered.pointers⟩

end Registered

/-- Every call keeps to the slot of its query when the slots are laid out as they should be. -/
theorem Stepped.isolates {start : MetricQueryPool} (stepped : Stepped pool target next)
    (layout : SlotLayout start) (registered : Registered start pool) (below : index < start.metricQueries.length)
    (different : index ≠ target) (member : region ∈ start.regions index) :
    next.memory.readRegion region = pool.memory.readRegion region := by
  cases stepped with
  | unchanged => rfl
  | destroyed => rfl
  | created free =>
    have inside : target < start.metricQueries.length := registered.length ▸ (List.getElem?_eq_some_iff.mp free).1
    have apart := layout.apart target inside index below different.symm (start.addressTable target)
      List.mem_cons_self region member
    simp only [occupied, registered.entryPtr]
    exact @Image.readRegion_write (start.entryRegion target) region _ _ (littleEndian_length 8 _)
      (apart.within (layout.entry target inside) ⟨Nat.le_refl _, Nat.le_refl _⟩)
  | cleared held =>
    have inside : target < start.metricQueries.length := registered.length ▸ (List.getElem?_eq_some_iff.mp held).1
    have apart := layout.apart target inside index below different.symm (start.dataRegion target)
      (List.mem_cons_of_mem _ List.mem_cons_self) region member
    simp only [reset, registered.pointers target _ held, registered.metricGroup]
    exact @Image.readRegion_write (start.dataRegion target) region _ _ List.length_replicate apart

theorem isolates_of_layout {start : MetricQueryPool} (layout : SlotLayout start) (registered : Registered start pool)
    (call : PoolCall) : Isolates pool call := by
  intro index below different region member
  exact (step_stepped pool call).isolates layout registered (registered.length ▸ below) different
    (registered.regions index ▸ member)

/-- The entry of every query that is there holds the address of its data. -/
def EntriesPoint (start pool : MetricQueryPool) : Prop :=
  ∀ (index : Nat) (query : PooledQuery), pool.metricQueries[index]? = some (some query) →
    pool.memory.readRegion (start.entryRegion index) =
      littleEndian 8 (start.pQueryPoolBuffer.getVPUAddr query.dataPtr)

/-- A call on another query leaves the query and its entry as they are. -/
theorem Stepped.other {start : MetricQueryPool} (stepped : Stepped pool target next) (layout : SlotLayout start)
    (registered : Registered start pool) (below : index < start.metricQueries.length) (different : index ≠ target) :
    next.metricQueries[index]? = pool.metricQueries[index]? ∧
      next.memory.readRegion (start.entryRegion index) = pool.memory.readRegion (start.entryRegion index) := by
  have within := layout.entry index below
  have member : start.addressTable index ∈ start.regions index := List.mem_cons_self
  have table := stepped.isolates layout registered below different member
  refine ⟨?_, Image.read_sub table within.1 within.2⟩
  cases stepped with
  | unchanged | cleared => rfl
  | created | destroyed => exact List.getElem?_set_ne different.symm

/-- The query that a call creates gets its entry, and its reset stays in its data. -/
theorem EntriesPoint.called {start : MetricQueryPool} (points : EntriesPoint start pool)
    (stepped : Stepped pool target next) (layout : SlotLayout start) (registered : Registered start pool)
    {query : PooledQuery} (found : next.metricQueries[target]? = some (some query)) :
    next.memory.readRegion (start.entryRegion target) =
      littleEndian 8 (start.pQueryPoolBuffer.getVPUAddr query.dataPtr) := by
  cases stepped with
  | unchanged => exact points target query found
  | created free =>
    simp only [occupied, List.getElem?_set_self (List.getElem?_eq_some_iff.mp free).1] at found ⊢
    cases found
    rw [registered.entryPtr, registered.buffer]
    exact Image.read_write_same pool.memory (start.entryPtr target) (littleEndian 8 _)
  | destroyed =>
    simp only [destroy, List.getElem?_set] at found
    split at found
    · split at found <;> cases found
    · contradiction
  | cleared held =>
    have below : target < start.metricQueries.length := registered.length ▸ (List.getElem?_eq_some_iff.mp held).1
    have apart : (start.dataRegion target).Apart (start.entryRegion target) :=
      .inr (Nat.le_trans (layout.entry target below).2 (layout.ordered target below))
    simp only [reset, registered.pointers target _ held, registered.metricGroup]
    exact (@Image.readRegion_write (start.dataRegion target) (start.entryRegion target) _ _ List.length_replicate
      apart).trans (points target query found)

theorem EntriesPoint.step {start : MetricQueryPool} (points : EntriesPoint start pool) (layout : SlotLayout start)
    (registered : Registered start pool) (call : PoolCall) : EntriesPoint start (pool.step call) := by
  have stepped := step_stepped pool call
  intro index query found
  by_cases called : index = call.index
  · subst called
    exact points.called stepped layout registered found
  · have below : index < start.metricQueries.length :=
      (registered.stepped stepped).length ▸ (List.getElem?_eq_some_iff.mp found).1
    obtain ⟨same, entry⟩ := stepped.other layout registered below called
    rw [entry]
    exact points index query (same ▸ found)

/-- Whatever the calls, the entry of every query that is there holds the address of its data. -/
theorem entries_point {group : IndexedMetricGroup} {count : Nat} (fresh : Fresh group count pool)
    (layout : SlotLayout pool) (calls : List PoolCall) : EntriesPoint pool (runFrom step pool calls) := by
  have none : EntriesPoint pool pool := by
    intro index query found
    rw [fresh.queries, List.getElem?_replicate] at found
    split at found <;> cases found
  exact (@run_invariant _ _ step pool (fun reached => Registered pool reached ∧ EntriesPoint pool reached)
    (fun reached call kept => ⟨kept.1.stepped (step_stepped reached call), kept.2.step layout kept.1 call⟩)
    ⟨Registered.fresh fresh, none⟩ calls).2

theorem slotsSeparate_iff {group : IndexedMetricGroup} {count : Nat} (fresh : Fresh group count pool) :
    SlotsSeparate pool ↔ SlotLayout pool := by
  constructor
  · exact And.left
  · intro layout
    refine ⟨layout, fun calls call => ?_⟩
    have registered : Registered pool (runFrom step pool calls) :=
      @run_invariant _ _ step pool (Registered pool) (fun reached call kept => kept.stepped (step_stepped reached call))
        (Registered.fresh fresh) calls
    exact isolates_of_layout layout registered call

section Layout

variable {group : IndexedMetricGroup} {count index : Nat}

theorem addressTablePtr_eq (fresh : Fresh group count pool) (fits : count * group.slotSize < 2 ^ 64)
    (below : index < count) :
    pool.addressTablePtr index = pool.pQueryPoolBuffer.basePtr + index * group.slotSize := by
  rw [addressTablePtr, fresh.metricGroup, IndexedMetricGroup.offset_eq fits (Nat.le_of_lt below)]

theorem dataPtr_eq (fresh : Fresh group count pool) (fits : count * group.slotSize < 2 ^ 64) (below : index < count) :
    pool.dataPtr index =
      pool.pQueryPoolBuffer.basePtr + index * group.slotSize + group.metricAddressTableSize := by
  rw [dataPtr, fresh.metricGroup, IndexedMetricGroup.dataOffset_eq fits below, Nat.add_assoc]

/-- Both regions of a query are in its slot. -/
theorem regions_within_slot (fresh : Fresh group count pool) (fits : count * group.slotSize < 2 ^ 64)
    (below : index < count) (member : region ∈ pool.regions index) :
    region.Within (Region.slot pool.pQueryPoolBuffer.basePtr group.slotSize index) := by
  have room := group.slotSize_ge
  have table := addressTablePtr_eq fresh fits below
  have data := dataPtr_eq fresh fits below
  simp only [regions, List.mem_cons, List.not_mem_nil, or_false] at member
  rcases member with rfl | rfl
  · simp only [Region.Within, Region.stop, Region.slot, addressTable, fresh.metricGroup]
    omega
  · simp only [Region.Within, Region.stop, Region.slot, dataRegion, fresh.metricGroup]
    omega

theorem regions_aligned (fresh : Fresh group count pool) (fits : count * group.slotSize < 2 ^ 64)
    (mapped : 64 ∣ pool.pQueryPoolBuffer.basePtr) (below : index < count) (member : region ∈ pool.regions index) :
    64 ∣ region.start := by
  have table : 64 ∣ pool.addressTablePtr index := by
    rw [addressTablePtr_eq fresh fits below]
    exact Nat.dvd_add mapped (Nat.dvd_mul_left_of_dvd group.slotSize_dvd index)
  simp only [regions, List.mem_cons, List.not_mem_nil, or_false] at member
  rcases member with rfl | rfl
  · exact table
  · have data : pool.dataPtr index = pool.addressTablePtr index + group.metricAddressTableSize := by
      rw [dataPtr_eq fresh fits below, addressTablePtr_eq fresh fits below]
    simp only [dataRegion, data]
    exact Nat.dvd_add table group.metricAddressTableSize_dvd

theorem bufferRegion_eq (fresh : Fresh group count pool) (fits : count * group.slotSize < 2 ^ 64) :
    pool.bufferRegion = ⟨pool.pQueryPoolBuffer.basePtr, count * group.slotSize⟩ := by
  rw [bufferRegion, fresh.size, IndexedMetricGroup.offset_eq fits (Nat.le_refl count)]

theorem layout_of_fits (fresh : Fresh group count pool) (mapped : 64 ∣ pool.pQueryPoolBuffer.basePtr)
    (room : group.EntryFits) (fits : count * group.slotSize < 2 ^ 64) : SlotLayout pool where
  aligned := by
    intro index below region member
    exact regions_aligned fresh fits mapped (fresh.length ▸ below) member
  inside := by
    intro index below region member
    rw [bufferRegion_eq fresh fits]
    exact (regions_within_slot fresh fits (fresh.length ▸ below) member).trans
      (Region.slot_within _ _ (fresh.length ▸ below))
  apart := by
    intro index below other limit different region member far present
    exact (Region.slot_apart _ _ different).within (regions_within_slot fresh fits (fresh.length ▸ below) member)
      (regions_within_slot fresh fits (fresh.length ▸ limit) present)
  ordered := by
    intro index below
    have table := addressTablePtr_eq fresh fits (fresh.length ▸ below)
    have data := dataPtr_eq fresh fits (fresh.length ▸ below)
    simp only [Region.stop, addressTable, dataRegion, fresh.metricGroup]
    omega
  entry := by
    intro index below
    rw [IndexedMetricGroup.EntryFits] at room
    simp only [Region.Within, Region.stop, entryRegion, addressTable, entryPtr, fresh.metricGroup]
    omega

/-- The entry of the first query shows whether the table has room for it. -/
theorem SlotLayout.entryFits (layout : SlotLayout pool) (fresh : Fresh group count pool) (positive : 0 < count) :
    group.EntryFits := by
  have within := layout.entry 0 (fresh.length ▸ positive)
  simp only [Region.Within, Region.stop, entryRegion, addressTable, entryPtr, fresh.metricGroup] at within
  rw [IndexedMetricGroup.EntryFits]
  omega

/-- A table for at least one group is not empty. -/
theorem slotSize_pos (grouped : 0 < group.numberOfMetricGroups) : 0 < group.slotSize := by
  have table := le_getFwDataCacheAlign (8 * group.numberOfMetricGroups)
  have room := group.slotSize_ge
  rw [IndexedMetricGroup.metricAddressTableSize] at room
  omega

/-- A slot that starts in the address space and whose regions are in the buffer object ends there, too. -/
theorem SlotLayout.slot_end (layout : SlotLayout pool) (fresh : Fresh group count pool) (below : index < count)
    (small : index * group.slotSize < 2 ^ 64) :
    index * group.slotSize + group.slotSize ≤ pool.pQueryPoolBuffer.allocSize := by
  have bound : pool.pQueryPoolBuffer.allocSize < 2 ^ 64 := by
    rw [fresh.size]
    exact Nat.mod_lt _ (by decide)
  have whole : 64 ∣ pool.pQueryPoolBuffer.allocSize := by
    rw [fresh.size]
    exact (Nat.dvd_mod_iff (by decide)).mpr (Nat.dvd_mul_left_of_dvd group.slotSize_dvd count)
  have offset : group.getMetricQueryAddrTableOffset index = index * group.slotSize := Nat.mod_eq_of_lt small
  have table := (layout.inside index (fresh.length ▸ below) (pool.addressTable index) List.mem_cons_self).2
  have data := (layout.inside index (fresh.length ▸ below) (pool.dataRegion index)
    (List.mem_cons_of_mem _ List.mem_cons_self)).2
  simp only [Region.stop, bufferRegion, addressTable, addressTablePtr, fresh.metricGroup, offset] at table
  simp only [Region.stop, bufferRegion, dataRegion, dataPtr, fresh.metricGroup,
    IndexedMetricGroup.getMetricQueryDataOffset, offset] at data
  rw [Nat.mod_eq_of_lt (by omega)] at data
  have aligned : 64 ∣ index * group.slotSize := Nat.dvd_mul_left_of_dvd group.slotSize_dvd index
  have rounded : index * group.slotSize + group.slotSize =
      roundUp (index * group.slotSize + (group.metricAddressTableSize + group.getAllocationSize)) 64 :=
    (roundUp_add_of_dvd aligned (by decide) _).symm
  rw [rounded]
  exact roundUp_le_of_dvd whole (by omega)

/-- Where the size of all slots wraps around, the one that crosses the end of the address space is not in the
buffer object. -/
theorem SlotLayout.fits (layout : SlotLayout pool) (fresh : Fresh group count pool)
    (grouped : 0 < group.numberOfMetricGroups) : count * group.slotSize < 2 ^ 64 := by
  have positive := slotSize_pos grouped
  by_contra wraps
  have crossing : 2 ^ 64 - 1 < (2 ^ 64 - 1) / group.slotSize * group.slotSize + group.slotSize :=
    Nat.lt_div_mul_add positive
  have start := Nat.div_mul_le_self (2 ^ 64 - 1) group.slotSize
  have below : (2 ^ 64 - 1) / group.slotSize < count := by
    apply Nat.lt_of_mul_lt_mul_right (a := group.slotSize)
    omega
  have ends := layout.slot_end fresh below (by omega)
  have bound : pool.pQueryPoolBuffer.allocSize < 2 ^ 64 := by
    rw [fresh.size]
    exact Nat.mod_lt _ (by decide)
  omega

end Layout

end MetricQueryPool

/-- A pool that the context has created is fresh, and has room for a query. -/
theorem Context.createMetricQueryPool_fresh {ctx : VPUDeviceContext} {memory : Image} {hDevice : Bool}
    {group : IndexedMetricGroup} {desc : PoolDesc} {phMetricQueryPool metricsLoaded activated : Bool}
    {pool : MetricQueryPool}
    (created : Context.createMetricQueryPool ctx memory hDevice (some group) (some desc) phMetricQueryPool
      metricsLoaded activated = .ok pool) : pool.Fresh group desc.count ∧ 0 < desc.count := by
  cases hDevice with
  | false => cases created
  | true =>
    cases phMetricQueryPool with
    | false => cases created
    | true =>
      simp only [createMetricQueryPool] at created
      split at created
      · cases created
      · split at created
        · cases created
        · rename_i counted
          split at created
          · cases created
          · split at created
            · cases created
            · exact ⟨MetricQueryPool.new_fresh created, Nat.pos_of_ne_zero counted⟩

theorem Device.loadMetricGroupsInfo_grouped {metricGroupsInfo : List GroupInfo} {group : IndexedMetricGroup}
    (member : group ∈ Device.loadMetricGroupsInfo metricGroupsInfo) : 0 < group.numberOfMetricGroups := by
  obtain ⟨info, present, rfl⟩ := List.mem_map.mp member
  exact List.length_pos_of_mem present

/-- The slots of the queries are separate, whatever the calls, if and only if the address table has room for the
index of the group and the size of all slots fits a `size_t`. -/
theorem query_slots_separate {metricGroupsInfo : List GroupInfo} {group : IndexedMetricGroup}
    (member : group ∈ Device.loadMetricGroupsInfo metricGroupsInfo) {ctx : VPUDeviceContext} {memory : Image}
    {hDevice : Bool} {desc : PoolDesc} {phMetricQueryPool metricsLoaded activated : Bool} {pool : MetricQueryPool}
    (created : Context.createMetricQueryPool ctx memory hDevice (some group) (some desc) phMetricQueryPool
      metricsLoaded activated = .ok pool)
    (mapped : 64 ∣ pool.pQueryPoolBuffer.basePtr) :
    pool.SlotsSeparate ↔ group.EntryFits ∧ desc.count * group.slotSize < 2 ^ 64 := by
  obtain ⟨fresh, positive⟩ := Context.createMetricQueryPool_fresh created
  rw [MetricQueryPool.slotsSeparate_iff fresh]
  constructor
  · intro layout
    exact ⟨layout.entryFits fresh positive, layout.fits fresh (Device.loadMetricGroupsInfo_grouped member)⟩
  · intro ⟨room, fits⟩
    exact MetricQueryPool.layout_of_fits fresh mapped room fits

/-- A group of one counter, with the index that the firmware gives it. -/
def counterGroup (groupIndex : Nat) : GroupInfo where
  groupIndex := groupIndex
  metricGroupName := []
  metricGroupDescription := []
  domain := 0
  metricCount := 1
  samplingType := 1
  counterInfo := [⟨0, 0, 1, [], [], [], []⟩]

/-- The only group of a device. -/
def onlyGroup (groupIndex : Nat) : IndexedMetricGroup :=
  ⟨MetricGroup.loadMetricGroupsInfo [.VALUE_TYPE_UINT64], groupIndex, 1⟩

theorem onlyGroup_mem (groupIndex : Nat) :
    onlyGroup groupIndex ∈ Device.loadMetricGroupsInfo [counterGroup groupIndex] := List.mem_singleton_self _

/-- Two queries of the group with index seven, the last one that the table of a single group has room for. -/
theorem seventh_group_separate :
    ∃ pool, Context.createMetricQueryPool (grantingContext []) (fun _ => 0) true (some (onlyGroup 7))
        (some ⟨0, 2⟩) true true true = .ok pool ∧
      (pool.SlotsSeparate ↔ (onlyGroup 7).EntryFits ∧ 2 * (onlyGroup 7).slotSize < 2 ^ 64) := by
  refine ⟨_, rfl, ?_⟩
  have created : Context.createMetricQueryPool (grantingContext []) (fun _ => 0) true (some (onlyGroup 7))
    (some ⟨0, 2⟩) true true true = .ok _ := rfl
  exact query_slots_separate (onlyGroup_mem 7) created (by decide)

/-- With index sixteen, the entry of the first query is written into the address table of the second one. -/
theorem sixteenth_group_overruns :
    ∃ pool, Context.createMetricQueryPool (grantingContext []) (fun _ => 0) true (some (onlyGroup 16))
        (some ⟨0, 2⟩) true true true = .ok pool ∧
      ¬ pool.SlotsSeparate ∧ pool.entryRegion 0 = ⟨pool.addressTablePtr 1, 8⟩ ∧
        (pool.step (.createMetricQuery 0 true true)).memory.readRegion (pool.addressTable 1) ≠
          pool.memory.readRegion (pool.addressTable 1) := by
  refine ⟨_, rfl, ?_, by decide, by decide +kernel⟩
  intro separate
  exact absurd (separate.1.entry 0 (by decide)) (by decide)

end NpuDriver
