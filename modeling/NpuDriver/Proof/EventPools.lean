import NpuDriver.LevelZero.EventPool

/-! The events of a pool behave as the rows of a table: what happens to one is never seen through another. -/

namespace NpuDriver

open Library ZeResult

/-- A row of the table: whether an event has it, and its word, which outlives the event. -/
structure EventSlot where
  live : Bool
  word : Nat
deriving DecidableEq, Repr

/-- What a pool is for. A recorded command names the row of its event. -/
structure EventTable where
  slots : List EventSlot
  commands : List (EventCommandKind × Nat)
deriving DecidableEq, Repr

/-- A row is set by its two fields. -/
theorem EventSlot.set_eq (slots : List EventSlot) (index word : Nat) :
    (slots.modify index fun slot => { slot with live := true }).modify index (fun slot => { slot with word := word }) =
      slots.set index ⟨true, word⟩ := by
  apply List.ext_getElem?
  intro place
  rw [List.getElem?_modify, List.getElem?_modify, List.getElem?_set]
  by_cases same : index = place
  · subst same
    by_cases inside : index < slots.length
    · simp [inside]
    · simp [inside]
  · simp [same]

namespace EventTable

def write (table : EventTable) (index word : Nat) : EventTable :=
  { table with slots := table.slots.modify index fun slot => { slot with word := word } }

def withEvent (table : EventTable) (index : Nat) (call : EventSlot → EventAnswer × EventTable) :
    EventAnswer × EventTable :=
  match table.slots[index]? with
  | some slot => if slot.live then call slot else (.nothing, table)
  | none => (.nothing, table)

def createEvent (table : EventTable) (desc : Option Nat) (phEvent : Bool) : ZeResult × EventTable :=
  match desc with
  | none => (ZE_RESULT_ERROR_INVALID_NULL_POINTER, table)
  | some index =>
    if !phEvent then (ZE_RESULT_ERROR_INVALID_NULL_POINTER, table)
    else
      match table.slots[index]? with
      | none => (ZE_RESULT_ERROR_INVALID_ARGUMENT, table)
      | some slot =>
        if slot.live then (ZE_RESULT_ERROR_INVALID_ARGUMENT, table)
        else (ZE_RESULT_SUCCESS, { table with slots := table.slots.set index ⟨true, STATE_EVENT_INITIAL⟩ })

def execute (table : EventTable) (command : Nat) : EventAnswer × EventTable :=
  match table.commands[command]? with
  | some (.signal, index) => (.nothing, table.write index STATE_DEVICE_SIGNAL)
  | some (.reset, index) => (.nothing, table.write index STATE_DEVICE_RESET)
  | some (.wait, index) =>
    (.passes ((table.slots[index]?).any fun slot => decide (STATE_WAIT ≤ slot.word)), table)
  | none => (.nothing, table)

def step (table : EventTable) : EventCall → EventAnswer × EventTable
  | .createEvent desc phEvent =>
    let created := table.createEvent desc phEvent
    (.result created.1, created.2)
  | .destroy index =>
    table.withEvent index fun _ =>
      (.result ZE_RESULT_SUCCESS,
        { table with slots := table.slots.modify index fun slot => { slot with live := false } })
  | .hostSignal index =>
    table.withEvent index fun _ => (.result ZE_RESULT_SUCCESS, table.write index STATE_HOST_SIGNAL)
  | .reset index => table.withEvent index fun _ => (.result ZE_RESULT_SUCCESS, table.write index STATE_HOST_RESET)
  | .queryStatus index => table.withEvent index fun slot => (.result (eventStatus slot.word), table)
  | .append kind index =>
    table.withEvent index fun _ => (.nothing, { table with commands := table.commands ++ [(kind, index)] })
  | .execute command => table.execute command

end EventTable

namespace EventPool

variable {pool : EventPool} {index other state : Nat}

/-- The words of the events, in the first bytes of their slots. -/
def words (pool : EventPool) : CellArray := ⟨pool.pEventPool.basePtr, jsmEventDataSize, 8, by decide⟩

def wordAt (pool : EventPool) (index : Nat) : Nat := pool.word (pool.getEventCpuAddress index)

/-- The rows that a pool stands for. -/
def slots (pool : EventPool) : List EventSlot :=
  pool.events.mapIdx fun index event => ⟨event.isSome, pool.wordAt index⟩

theorem slots_getElem? (pool : EventPool) (index : Nat) :
    pool.slots[index]? = (pool.events[index]?).map fun event => ⟨event.isSome, pool.wordAt index⟩ := by
  simp [slots]

theorem wordAt_setEventState (pool : EventPool) (index other : Nat) (small : state < 2 ^ 64) :
    (pool.setEventState (pool.getEventCpuAddress index) state).wordAt other =
      if other = index then state else pool.wordAt other := by
  have written := pool.words.readCell_write pool.memory index other (littleEndian_length 8 state)
  have same : (pool.setEventState (pool.getEventCpuAddress index) state).wordAt other =
      fromLittleEndian ((pool.memory.write (pool.words.address index) (littleEndian 8 state)).readRegion
        (pool.words.cell other)) := rfl
  rw [same, written]
  split
  · exact fromLittleEndian_of_lt small
  · rfl

/-- Writing the word of one event changes one row. -/
theorem slots_setEventState (pool : EventPool) (index : Nat) (small : state < 2 ^ 64) :
    (pool.setEventState (pool.getEventCpuAddress index) state).slots =
      pool.slots.modify index fun slot => { slot with word := state } := by
  apply List.ext_getElem?
  intro place
  rw [slots_getElem?, List.getElem?_modify, slots_getElem?, wordAt_setEventState pool index place small]
  have events : (pool.setEventState (pool.getEventCpuAddress index) state).events = pool.events := rfl
  rw [events]
  by_cases same : place = index
  · subst same
    cases pool.events[place]? <;> simp
  · cases pool.events[place]? <;> simp [same, Ne.symm same]

/-- What all runs keep: the events point to their slots in one buffer object. -/
structure Laid (bo : VPUBufferObject) (count : Nat) (pool : EventPool) : Prop where
  buffer : pool.pEventPool = bo
  length : pool.events.length = count
  pointers : ∀ (index : Nat) (event : Event), pool.events[index]? = some (some event) →
    event = ⟨pool.getEventCpuAddress index, some bo⟩

/-- A buffer object with room for the slots of a pool, mapped into both address spaces. -/
structure Room (bo : VPUBufferObject) (count : Nat) : Prop where
  mapped : bo.basePtr ≠ 0
  placed : bo.vpuAddr ≠ 0
  size : bo.allocSize = jsmEventDataSize * count

variable {bo : VPUBufferObject} {count : Nat}

theorem Laid.row_inRange (laid : Laid bo count pool) (room : Room bo count) (below : index < count) :
    bo.isInRange (pool.getEventCpuAddress index) = true := by
  have size := room.size
  have next : (index + 1) * jsmEventDataSize ≤ jsmEventDataSize * count := by
    rw [Nat.mul_comm jsmEventDataSize]
    exact Nat.mul_le_mul_right _ below
  simp only [VPUBufferObject.isInRange, getEventCpuAddress, laid.buffer, jsmEventDataSize, Bool.and_eq_true,
    decide_eq_true_eq] at next size ⊢
  omega

theorem Laid.row_vpuAddr (laid : Laid bo count pool) (room : Room bo count) (below : index < count) :
    bo.getVPUAddr (pool.getEventCpuAddress index) = bo.vpuAddr + index * jsmEventDataSize := by
  rw [VPUBufferObject.getVPUAddr_of_inRange (laid.row_inRange room below)]
  simp [getEventCpuAddress, laid.buffer]

/-- The device reaches a slot at the address that the commands of its event carry. -/
theorem Laid.device_address (laid : Laid bo count pool) (index : Nat) :
    pool.pEventPool.basePtr + (bo.vpuAddr + index * jsmEventDataSize - pool.pEventPool.vpuAddr) =
      pool.getEventCpuAddress index := by
  rw [laid.buffer, Nat.add_sub_cancel_left, getEventCpuAddress, laid.buffer]

theorem Laid.deviceSignal_eq (laid : Laid bo count pool) (index state : Nat) :
    pool.deviceSignal (bo.vpuAddr + index * jsmEventDataSize) state =
      pool.setEventState (pool.getEventCpuAddress index) state := by
  rw [deviceSignal, laid.device_address index, setEventState]

theorem Laid.deviceWord_eq (laid : Laid bo count pool) (index : Nat) :
    pool.deviceWord (bo.vpuAddr + index * jsmEventDataSize) = pool.wordAt index := by
  rw [deviceWord, laid.device_address index, wordAt]

theorem Laid.setEventState (laid : Laid bo count pool) (eventState state : Nat) :
    Laid bo count (pool.setEventState eventState state) := ⟨laid.buffer, laid.length, laid.pointers⟩

/-- A pool that `create` returns comes from the constructor. -/
theorem create_new {ctx : VPUDeviceContext} {memory : Image} {hContext phDevices phEventPool : Bool}
    {desc : Option EventPoolDesc} {numDevices : Nat}
    (created : create ctx memory hContext desc numDevices phDevices phEventPool = .ok pool) :
    ∃ count, new ctx memory count = .ok pool := by
  unfold create at created
  split at created
  · cases created
  · split at created
    · cases created
    · split at created
      · cases created
      · split at created
        · cases created
        · split at created
          · cases created
          · exact ⟨_, created⟩

/-- Another owner of a row, or none, leaves the words as they are. -/
theorem Laid.set (laid : Laid bo count pool) (index : Nat) (event : Option Event)
    (pointer : ∀ owner, event = some owner → owner = ⟨pool.getEventCpuAddress index, some bo⟩) :
    Laid bo count { pool with events := pool.events.set index event } := by
  refine ⟨laid.buffer, ?_, ?_⟩
  · rw [List.length_set, laid.length]
  · intro place owner found
    rw [List.getElem?_set] at found
    split at found
    · rename_i same
      subst same
      split at found
      · exact pointer owner (Option.some.inj found)
      · cases found
    · exact laid.pointers place owner found

theorem slots_set (pool : EventPool) (index : Nat) (event : Option Event) :
    slots { pool with events := pool.events.set index event } =
      pool.slots.modify index fun slot => { slot with live := event.isSome } := by
  apply List.ext_getElem?
  intro place
  rw [slots_getElem?, List.getElem?_modify, slots_getElem?, List.getElem?_set]
  have words : wordAt { pool with events := pool.events.set index event } place = pool.wordAt place := rfl
  rw [words]
  by_cases same : place = index
  · subst same
    by_cases inside : place < pool.events.length
    · simp [inside]
    · simp [inside]
  · cases pool.events[place]? <;> simp [Ne.symm same]

end EventPool

namespace EventCommandKind

def type : EventCommandKind → Nat
  | .signal | .reset => VPU_CMD_FENCE_SIGNAL
  | .wait => VPU_CMD_FENCE_WAIT

def value : EventCommandKind → Nat
  | .signal => STATE_DEVICE_SIGNAL
  | .reset => STATE_DEVICE_RESET
  | .wait => STATE_WAIT

theorem create_eq (kind : EventCommandKind) (event : Event) :
    ∃ sType, kind.create event =
      VPUEventCommand.create sType kind.type event.syncPointer event.associatedBo kind.value := by
  cases kind with
  | signal => exact ⟨.Synchronize, rfl⟩
  | reset => exact ⟨.Generic, rfl⟩
  | wait => exact ⟨.Generic, rfl⟩

theorem create_ok {bo : VPUBufferObject} {ptr : Nat} (kind : EventCommandKind) (inside : bo.isInRange ptr = true)
    (nonnull : ptr ≠ 0) :
    ∃ command, kind.create ⟨ptr, some bo⟩ = .ok command ∧
      command.command = .fence kind.type (bo.getVPUAddr ptr) kind.value := by
  obtain ⟨sType, same⟩ := kind.create_eq ⟨ptr, some bo⟩
  rw [same, VPUEventCommand.create]
  simp only [nonnull, inside, ↓reduceIte, Bool.not_true, Bool.false_eq_true]
  exact ⟨_, rfl, rfl⟩

end EventCommandKind

namespace EventSystem

variable {system : EventSystem} {table : EventTable} {bo : VPUBufferObject} {count : Nat}

/-- The fence command of a row. -/
def rowCommand (bo : VPUBufferObject) (entry : EventCommandKind × Nat) : CommandStruct :=
  .fence entry.1.type (bo.vpuAddr + entry.2 * jsmEventDataSize) entry.1.value

/-- A system stands for a table. -/
structure Stands (bo : VPUBufferObject) (count : Nat) (system : EventSystem) (table : EventTable) : Prop where
  laid : EventPool.Laid bo count system.pool
  slots : table.slots = system.pool.slots
  commands : system.commands.map VPUCommand.command = table.commands.map (rowCommand bo)
  rows : ∀ entry ∈ table.commands, entry.2 < count

theorem Stands.write (stands : Stands bo count system table) (index : Nat) {state : Nat} (small : state < 2 ^ 64) :
    Stands bo count { system with pool := system.pool.setEventState (system.pool.getEventCpuAddress index) state }
      (table.write index state) := by
  refine ⟨stands.laid.setEventState _ _, ?_, stands.commands, stands.rows⟩
  rw [EventPool.slots_setEventState system.pool index small, ← stands.slots]
  rfl

/-- A call through a handle does alike when it does on the row of the event. -/
theorem Stands.withEvent (stands : Stands bo count system table) (index : Nat)
    {call : Event → EventAnswer × EventSystem} {rowCall : EventSlot → EventAnswer × EventTable}
    (alike : index < count → (call ⟨system.pool.getEventCpuAddress index, some bo⟩).1 =
        (rowCall ⟨true, system.pool.wordAt index⟩).1 ∧
      Stands bo count (call ⟨system.pool.getEventCpuAddress index, some bo⟩).2
        (rowCall ⟨true, system.pool.wordAt index⟩).2) :
    (system.withEvent index call).1 = (table.withEvent index rowCall).1 ∧
      Stands bo count (system.withEvent index call).2 (table.withEvent index rowCall).2 := by
  have row := system.pool.slots_getElem? index
  rw [← stands.slots] at row
  rw [EventSystem.withEvent, EventTable.withEvent, row]
  cases held : system.pool.events[index]? with
  | none => exact ⟨rfl, stands⟩
  | some owner =>
    cases owner with
    | none => exact ⟨rfl, stands⟩
    | some event =>
      have below : index < count := by
        rw [← stands.laid.length]
        exact (List.getElem?_eq_some_iff.mp held).1
      rw [stands.laid.pointers index event held]
      exact alike below

theorem Stands.createEvent (stands : Stands bo count system table) (room : EventPool.Room bo count)
    (desc : Option Nat) (phEvent : Bool) :
    (system.step (.createEvent desc phEvent)).1 = (table.step (.createEvent desc phEvent)).1 ∧
      Stands bo count (system.step (.createEvent desc phEvent)).2 (table.step (.createEvent desc phEvent)).2 := by
  cases desc with
  | none => exact ⟨rfl, stands⟩
  | some index =>
    cases phEvent with
    | false => exact ⟨rfl, stands⟩
    | true =>
      have row := system.pool.slots_getElem? index
      rw [← stands.slots] at row
      simp only [step, EventTable.step, EventPool.createEvent, EventTable.createEvent, row, Bool.not_true,
        Bool.false_eq_true, ↓reduceIte]
      cases held : system.pool.events[index]? with
      | none => exact ⟨rfl, stands⟩
      | some owner =>
        cases owner with
        | some event => exact ⟨rfl, stands⟩
        | none =>
          have below : index < count := by
            rw [← stands.laid.length]
            exact (List.getElem?_eq_some_iff.mp held).1
          have addressed : system.pool.pEventPool.getVPUAddr (system.pool.getEventCpuAddress index) ≠ 0 := by
            rw [stands.laid.buffer, stands.laid.row_vpuAddr room below]
            have placed := room.placed
            omega
          simp only [addressed, ↓reduceIte, Option.map_some, Option.isSome_none, Bool.false_eq_true, true_and]
          -- the new owner first, then its first word
          have owned := stands.laid.set index (some ⟨system.pool.getEventCpuAddress index, some system.pool.pEventPool⟩)
            fun owner same => by rw [← Option.some.inj same, stands.laid.buffer]
          refine ⟨owned.setEventState _ _, ?_, stands.commands, stands.rows⟩
          rw [← EventSlot.set_eq, stands.slots]
          have words := EventPool.slots_setEventState
            { system.pool with
              events := system.pool.events.set index
                (some ⟨system.pool.getEventCpuAddress index, some system.pool.pEventPool⟩) }
            index (show STATE_EVENT_INITIAL < 2 ^ 64 by decide)
          rw [EventPool.slots_set] at words
          exact words.symm

theorem Stands.append (stands : Stands bo count system table) (room : EventPool.Room bo count)
    (kind : EventCommandKind) (index : Nat) :
    (system.step (.append kind index)).1 = (table.step (.append kind index)).1 ∧
      Stands bo count (system.step (.append kind index)).2 (table.step (.append kind index)).2 := by
  apply stands.withEvent index
  intro below
  have mapped : system.pool.getEventCpuAddress index ≠ 0 := by
    have base := room.mapped
    rw [EventPool.getEventCpuAddress, stands.laid.buffer]
    omega
  obtain ⟨command, created, fence⟩ := kind.create_ok (stands.laid.row_inRange room below) mapped
  rw [stands.laid.row_vpuAddr room below] at fence
  simp only [created]
  refine ⟨trivial, stands.laid, stands.slots, ?_, ?_⟩
  · rw [List.map_append, List.map_append, stands.commands, List.map_singleton, List.map_singleton, fence]
    rfl
  · intro entry member
    rcases List.mem_append.mp member with old | new
    · exact stands.rows entry old
    · rw [List.mem_singleton.mp new]
      exact below

/-- A recorded command reaches the row of its event, whoever owns it when the command runs. -/
theorem Stands.execute (stands : Stands bo count system table) (command : Nat) :
    (system.execute command).1 = (table.execute command).1 ∧
      Stands bo count (system.execute command).2 (table.execute command).2 := by
  have recorded : (system.commands[command]?).map VPUCommand.command =
      (table.commands[command]?).map (rowCommand bo) := by
    rw [← List.getElem?_map, ← List.getElem?_map, stands.commands]
  rw [EventSystem.execute, EventTable.execute, recorded]
  cases found : table.commands[command]? with
  | none => exact ⟨rfl, stands⟩
  | some entry =>
    obtain ⟨kind, index⟩ := entry
    have below : index < count := stands.rows _ (List.mem_of_getElem? found)
    cases kind with
    | signal =>
      refine ⟨rfl, ?_⟩
      have written := stands.write index (show STATE_DEVICE_SIGNAL < 2 ^ 64 by decide)
      rw [← stands.laid.deviceSignal_eq index STATE_DEVICE_SIGNAL] at written
      exact written
    | reset =>
      refine ⟨rfl, ?_⟩
      have written := stands.write index (show STATE_DEVICE_RESET < 2 ^ 64 by decide)
      rw [← stands.laid.deviceSignal_eq index STATE_DEVICE_RESET] at written
      exact written
    | wait =>
      have row := system.pool.slots_getElem? index
      rw [← stands.slots] at row
      have inside : index < system.pool.events.length := by
        rw [stands.laid.length]
        exact below
      rw [List.getElem?_eq_getElem inside] at row
      refine ⟨?_, stands⟩
      simp only [Option.map_some, rowCommand, EventCommandKind.type, EventCommandKind.value, row, Option.any_some]
      rw [if_neg (by decide), stands.laid.deviceWord_eq index]

theorem step_simulates (room : EventPool.Room bo count) :
    Simulates step EventTable.step (fun _ _ => True) (Stands bo count) := by
  intro system table call stands _
  cases call with
  | createEvent desc phEvent => exact stands.createEvent room desc phEvent
  | destroy index =>
    apply stands.withEvent index
    intro below
    refine ⟨rfl, stands.laid.set index none (by simp), ?_, stands.commands, stands.rows⟩
    have vacated := EventPool.slots_set system.pool index none
    rw [← stands.slots] at vacated
    exact vacated.symm
  | hostSignal index => exact stands.withEvent index fun _ => ⟨rfl, stands.write index (by decide)⟩
  | reset index => exact stands.withEvent index fun _ => ⟨rfl, stands.write index (by decide)⟩
  | queryStatus index => exact stands.withEvent index fun _ => ⟨rfl, stands⟩
  | append kind index => exact stands.append room kind index
  | execute command => exact stands.execute command

/-- What a pool has when the constructor returns. -/
theorem new_stands {ctx : VPUDeviceContext} {memory : Image} {pool : EventPool}
    (made : EventPool.new ctx memory count = .ok pool) (placed : pool.pEventPool.vpuAddr ≠ 0) :
    EventPool.Room pool.pEventPool count ∧ Stands pool.pEventPool count ⟨pool, []⟩ ⟨pool.slots, []⟩ := by
  rw [EventPool.new] at made
  generalize answered : ctx.createUntrackedBufferObject (jsmEventDataSize * count) true = answer at made
  obtain ⟨bo, next⟩ := answer
  cases bo with
  | none => cases made
  | some bo =>
    cases made
    obtain ⟨-, size, mapped, -⟩ := VPUDeviceContext.createUntrackedBufferObject_some answered
    refine ⟨⟨mapped rfl, placed, size⟩, ⟨rfl, List.length_replicate, ?_⟩, rfl, rfl, ?_⟩
    · intro index event found
      rw [List.getElem?_replicate] at found
      split at found
      · cases found
      · cases found
    · intro entry member
      cases member

/-- What the callers and the device learn of the events of a pool is what they would learn of the rows of a table:
a call or a command for one event is never seen through another one. -/
theorem events_tabulated {ctx : VPUDeviceContext} {memory : Image} {hContext phDevices phEventPool : Bool}
    {desc : Option EventPoolDesc} {numDevices : Nat} {pool : EventPool}
    (created : EventPool.create ctx memory hContext desc numDevices phDevices phEventPool = .ok pool)
    (placed : pool.pEventPool.vpuAddr ≠ 0) (calls : List EventCall) :
    answers step ⟨pool, []⟩ calls = answers EventTable.step ⟨pool.slots, []⟩ calls := by
  obtain ⟨count, made⟩ := EventPool.create_new created
  obtain ⟨room, stands⟩ := new_stands made placed
  exact (step_simulates room).answers_eq stands (guarded_true _ calls)

/-- A pool of two events on a new context. -/
def samplePool : EventPool where
  pEventPool := { id := 0, handle := 1, basePtr := 2 ^ 20, allocSize := 128, vpuAddr := 2 ^ 20 }
  memory := fun _ => 0
  events := [none, none]

/-- The recorded signal of a destroyed event signals the next owner of its row. -/
theorem events_tabulated_reused :
    answers step ⟨samplePool, []⟩
        [.createEvent (some 0) true, .append .signal 0, .destroy 0, .createEvent (some 0) true, .execute 0,
          .queryStatus 0] =
      answers EventTable.step ⟨samplePool.slots, []⟩
        [.createEvent (some 0) true, .append .signal 0, .destroy 0, .createEvent (some 0) true, .execute 0,
          .queryStatus 0] :=
  events_tabulated
    (show EventPool.create (grantingContext []) (fun _ => 0) true (some ⟨2⟩) 0 false true = .ok samplePool from rfl)
    (by decide) _

example :
    answers EventTable.step ⟨[⟨false, 0⟩, ⟨false, 0⟩], []⟩
        [.createEvent (some 0) true, .append .signal 0, .destroy 0, .createEvent (some 0) true, .execute 0,
          .queryStatus 0] =
      [.result ZE_RESULT_SUCCESS, .nothing, .result ZE_RESULT_SUCCESS, .result ZE_RESULT_SUCCESS, .nothing,
        .result ZE_RESULT_SUCCESS] := by decide

end EventSystem

end NpuDriver
